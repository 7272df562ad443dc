import Concord.Asyncio.Families
import Concord.Server.SendFences

/-!
Contract: what the sessions of a backend keep of their connections.

Owns:
- `serverFamily`, the backend with all of its sessions;
- `OwnersPresent` and `Forgotten`, which hold of every session and of every
  connection whose handler has finished.

Does not own: a handler that is cancelled.
-/

set_option autoImplicit false

namespace Concord.Server

open Asyncio Collaboration ServerState

variable {P : Platform}

/-- An awareness entry has an owner exactly when its state is active, and the owner
is a connection in the room. -/
structure OwnersPresent (server : ServerState P) : Prop where
  owned : ∀ stored ∈ server.awareness, stored.owner.isSome ↔ stored.entry.state.isSome
  present : ∀ stored ∈ server.awareness, stored.entry.state.isSome →
    ∃ connection ∈ server.connections, stored.owner = some connection.websocket

/-- The connection is in no room and in neither authorization map, and owns no
awareness entry. -/
structure Forgotten (websocket : WebSocket) (server : ServerState P) : Prop where
  room : ∀ connection ∈ server.connections, connection.websocket ≠ websocket
  stamp : server.connectionStamps websocket = none
  revoked : server.revokedConnections websocket = none
  owner : ∀ stored ∈ server.awareness, stored.owner ≠ some websocket

theorem ConnectionInv.ownersPresent {strict : Prop} {server : ServerState P}
    (inv : ConnectionInv strict (connectionView server)) : OwnersPresent server := by
  have owned : ∀ stored ∈ server.awareness, stored.owner.isSome = stored.entry.state.isSome :=
    inv.kept.owned
  refine ⟨fun stored member => Bool.eq_iff_iff.mp (owned stored member), ?_⟩
  intro stored member active
  obtain ⟨owner, owns⟩ := Option.isSome_iff_exists.mp ((owned stored member).trans active)
  obtain ⟨connection, there, same⟩ := inv.kept.owner stored member owner owns
  exact ⟨connection, there, owns.trans (congrArg some same.symm)⟩

theorem OutsideRoom.forgotten {strict : Prop} {websocket : WebSocket} {server : ServerState P}
    (inv : ConnectionInv strict (connectionView server))
    (outside : OutsideRoom websocket (connectionView server)) : Forgotten websocket server where
  room connection member same := outside.1 ⟨connection, member, same⟩
  stamp := outside.2.1
  revoked := outside.2.2
  owner stored member owns := outside.1 (inv.kept.owner stored member websocket owns)

section Sessions

variable {Sessions : Type} [DecidableEq Sessions]

abbrev serverFamily (P : Platform) (Sessions : Type) [DecidableEq Sessions] :
    Service (Sessions → ServerState P) (Event P) Call Exn (Sessions × ServerRequest P)
      (Sessions × Ambient P) :=
  (serverService P).family

def AllBooted (servers : Sessions → ServerState P) : Prop := ∀ session, Booted (servers session)

/-- A finished task is outside the room of every session, and has left no trace. -/
theorem outsideRoom_of_outcome {part : ServerPool P} {websocket : WebSocket}
    (reached : Reachable (serverService P) anyEvent Booted part)
    (ended : part.tasks websocket = none ∨ (part.outcome websocket).isSome) :
    OutsideRoom websocket (connectionView part.state) := by
  have verified := (@serverService_connections P False _
    (fun _ impossible => impossible.elim) _ reached).2 websocket
  rcases ended with unused | ended
  · simp only [TaskVerified, unused] at verified
    exact verified.1.1
  · exact (verified.ended ended).1

/-- **No ghosts.** In every session the active awareness states belong to
connections in the room, and a finished connection has left no trace in any. -/
theorem no_ghosts
    {pool : Pool (Sessions → ServerState P) (Event P) Call Exn (Sessions × ServerRequest P)}
    (reached : Reachable (serverFamily P Sessions) (fun _ _ _ _ => True) AllBooted pool) :
    (∀ session, OwnersPresent (pool.state session)) ∧
      ∀ websocket, (pool.outcome websocket).isSome →
        ∀ session, Forgotten websocket (pool.state session) := by
  have component : ∀ session, ∃ part : ServerPool P,
      Reachable (serverService P) anyEvent Booted part ∧ Projects session pool part :=
    fun session => reached.project session
  have kept : ∀ session, ConnectionInv False (connectionView (pool.state session)) := by
    intro session
    obtain ⟨part, reached, projects⟩ := component session
    rw [← projects.state]
    exact (serverService_connections (fun _ impossible => impossible.elim) reached).1
  refine ⟨fun session => (kept session).ownersPresent, ?_⟩
  intro websocket ended session
  obtain ⟨part, reached, projects⟩ := component session
  apply OutsideRoom.forgotten (kept session)
  rw [← projects.state]
  exact outsideRoom_of_outcome reached (projects.outcome ended)

end Sessions

/-! ### A run of two sessions -/

/-- A schedule of one session, in a backend with two. -/
def onSession (session : Bool) : Schedule → List (Move (Event editLog)
    (Bool × ServerRequest editLog) (Bool × Ambient editLog)) :=
  List.map fun
    | .spawn task request => .spawn task (session, request)
    | .resume task event => .resume task event
    | .ambient change => .ambient (session, change)
    | .restart => .restart

def sendAwareness (task : TaskId) (clientId : Nat) : Schedule :=
  [.resume task (.received (.bytes (some (.awareness [⟨clientId, 1, some (), ""⟩]))))]

/-- Two connections to one session send awareness states and the second one leaves.
A connection to the other session stays. -/
def ghostRun : List (Move (Event editLog) (Bool × ServerRequest editLog)
    (Bool × Ambient editLog)) :=
  onSession true (joinFirst 0 .done ++ sendAwareness 0 7) ++
    onSession false (joinFirst 1 .done ++ sendAwareness 1 8 ++ [.resume 1 .done] ++
      joinSecond 2 ++ [.resume 2 .done] ++ sendAwareness 2 9 ++ [.resume 2 .done, .resume 2 .done,
        .resume 2 (.received .disconnect), .resume 2 .done, .resume 2 .done])

theorem no_ghosts_run :
    ∃ pool, (serverFamily editLog Bool).play permitsAll ghostRun
        (Pool.start fun _ => sampleServer) = some pool ∧
      (pool.state false).awareness.map (·.owner) = [some 1, none] ∧
        OwnersPresent (pool.state false) ∧ Forgotten 2 (pool.state false) := by
  have left : ((serverFamily editLog Bool).play permitsAll ghostRun
      (Pool.start fun _ => sampleServer)).map (fun pool =>
        ((pool.state false).awareness.map (·.owner), (pool.outcome 2).isSome)) =
          some ([some 1, none], true) := by decide
  obtain ⟨pool, played, facts⟩ := Option.map_eq_some_iff.mp left
  obtain ⟨owners, ended⟩ := Prod.mk.inj facts
  have reached : Reachable (serverFamily editLog Bool) (fun _ _ _ _ => True) AllBooted pool :=
    Service.reachable_of_play (fun _ _ _ _ _ => trivial) (.start fun _ => booted_sampleServer)
      played
  exact ⟨pool, played, owners, (no_ghosts reached).1 false, (no_ghosts reached).2 2 ended false⟩

end Concord.Server

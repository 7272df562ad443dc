import Concord.Server.Ghosts

/-!
Contract: the awareness that the peers of a room hold.

Owns:
- `Mirrored`, what a peer holds after some of the frames that were sent to it, in
  the order in which it received them;
- the mirror of a peer that has received every frame shows the awareness of the
  room.

Does not own: the client's own awareness state.
-/

set_option autoImplicit false

namespace Concord.Server

open Asyncio Collaboration AwarenessStates ServerState

variable {P : Platform}

/-- The frames that were passed to `send_bytes` of a connection. -/
def framesTo (websocket : WebSocket) (wire : List (WireEvent P)) : List (ServerFrame P) :=
  wire.filterMap fun
    | .passed other frame => if other = websocket then some frame else none
    | _ => none

private theorem mem_framesTo {websocket : WebSocket} {wire : List (WireEvent P)}
    {frame : ServerFrame P} :
    frame ∈ framesTo websocket wire ↔ .passed websocket frame ∈ wire := by
  unfold framesTo
  rw [List.mem_filterMap]
  constructor
  · rintro ⟨event, member, chosen⟩
    cases event with
    | passed other passed =>
        simp only [Option.ite_none_right_eq_some, Option.some.injEq] at chosen
        obtain ⟨rfl, rfl⟩ := chosen
        exact member
    | fenced other => cases chosen
    | reported other => cases chosen
    | greeted other => cases chosen
  · intro member
    exact ⟨_, member, if_pos rfl⟩

/-- No running broadcast has the connection ahead of it. -/
def Delivered (websocket : WebSocket) (server : ServerState P) : Prop :=
  ∀ task broadcast, server.broadcasts task = some broadcast →
    ∀ connection ∈ broadcast.remaining, connection.websocket ≠ websocket

/-- The call that a task waits for. -/
def waitsFor (pool : ServerPool P) (task : TaskId) : Option Call :=
  match pool.tasks task with
  | some (_, .await call _ _) => some call
  | _ => none

/-- A task that does not wait for a send has no broadcast under way. -/
theorem broadcasts_of_waitsFor {policy : ServerPolicy P} {strict : Prop} {pool : ServerPool P}
    {task : TaskId} (verified : TaskVerified (serverConnections P strict) policy pool () task)
    (noSend : ∀ sender recipient, waitsFor pool task ≠ some (.sendBytes sender recipient)) :
    pool.state.broadcasts task = none := by
  unfold waitsFor at noSend
  unfold TaskVerified at verified
  cases running : pool.tasks task with
  | none =>
      rw [running] at verified
      exact verified.2
  | some started =>
      obtain ⟨request, program⟩ := started
      rw [running] at noSend verified
      obtain ⟨settled, holds⟩ := verified
      cases program with
      | ret value => exact holds.2.2
      | raise exn => exact holds.2.2
      | look next => exact settled.elim
      | sync update next => exact settled.elim
      | await call act next =>
          exact holds.2.1 fun sender recipient same =>
            noSend sender recipient (congrArg some same)

/-- When no task waits for a send, every frame has been passed to every connection
that it is for. -/
theorem delivered_of_waitsFor {policy : ServerPolicy P} {pool : ServerPool P}
    (reached : Reachable (serverService P) policy Booted pool)
    (noSends : ∀ task sender recipient, waitsFor pool task ≠ some (.sendBytes sender recipient))
    (websocket : WebSocket) : Delivered websocket pool.state := by
  intro task broadcast running
  have verified := (@serverService_connections P False _
    (fun _ impossible => impossible.elim) _ reached).2 task
  exact nomatch running.symm.trans (broadcasts_of_waitsFor verified (noSends task))

/-- The awareness of a peer after the frames that it has received, the last one
first. It began without knowledge of the clients that are not its own. The clients
of its own it may change at any time. -/
inductive Mirrored (own : Nat → Prop) : List (ServerFrame P) → AwarenessStates P → Prop
  | start {states : AwarenessStates P}
      (unknown : ∀ clientId, ¬own clientId → states.lookup clientId = none) :
      Mirrored own [] states
  | receive {received : List (ServerFrame P)} {states : AwarenessStates P}
      (mirrored : Mirrored own received states) (frame : ServerFrame P) (origin : TaskId)
      (timestamp : Nat) :
      Mirrored own (frame :: received) (applyUpdate origin timestamp frame.entries states).1
  | change {received : List (ServerFrame P)} {states changed : AwarenessStates P}
      (mirrored : Mirrored own received states)
      (same : ∀ clientId, ¬own clientId → changed.lookup clientId = states.lookup clientId) :
      Mirrored own received changed

/-- A mirror follows the clock rule for every client that is not the peer's own. -/
theorem Mirrored.mirrors {own : Nat → Prop} {received : List (ServerFrame P)}
    {mirror : AwarenessStates P} (mirrored : Mirrored own received mirror) {clientId : Nat}
    (other : ¬own clientId) :
    Mirrors clientId (fun entry => ∃ frame ∈ received, entry ∈ frame.entries) mirror := by
  induction mirrored with
  | start unknown =>
      exact (Mirrors.nothing (unknown clientId other)).congr fun entry => by simp
  | receive mirrored frame origin timestamp inductionHypothesis =>
      refine (inductionHypothesis.applyUpdate origin timestamp frame.entries).congr fun entry => ?_
      simp only [List.mem_cons, exists_eq_or_imp]
      exact or_comm
  | change mirrored same inductionHypothesis =>
      refine ⟨fun stored found => ?_, fun entry heard named => ?_⟩
      · exact inductionHypothesis.came stored ((same clientId other).symm.trans found)
      · rw [same clientId other]
        exact inductionHypothesis.highest entry heard named

/-- **Awareness mirrors converge.** A peer that has joined the room, is not fenced
and has received every frame that was sent to it, in any order, shows the awareness
of the room for every client that is not its own. -/
theorem awareness_mirrors_converge {policy : ServerPolicy P} {pool : ServerPool P}
    (reached : Reachable (serverService P) policy Booted pool) {connection : ConnectionInfo}
    (joined : connection ∈ pool.state.connections)
    (unfenced : pool.state.revokedConnections connection.websocket = none)
    (greeted : .greeted connection.websocket ∈ pool.state.wire)
    (delivered : Delivered connection.websocket pool.state)
    {received : List (ServerFrame P)}
    (all : received.Perm (framesTo connection.websocket pool.state.wire))
    {own : Nat → Prop} {mirror : AwarenessStates P} (mirrored : Mirrored own received mirror)
    {clientId : Nat} (other : ¬own clientId) :
    mirror.active clientId = pool.state.awareness.active clientId := by
  have inv := (@serverService_connections P False _
    (fun _ impossible => impossible.elim) _ reached).1
  have informed := inv.informed connection.websocket ⟨connection, joined, rfl⟩ unfenced
  -- What was heard is what was received: no broadcast is still to come.
  have heard : ∀ entry, (connectionView pool.state).Heard connection.websocket entry ↔
      ∃ frame ∈ received, entry ∈ frame.entries := by
    intro entry
    unfold ConnectionView.Heard ConnectionView.Addressed
    constructor
    · rintro ⟨frame, passed | ⟨task, broadcast, running, -, ahead, remains, same⟩, member⟩
      · exact ⟨frame, all.mem_iff.mpr (mem_framesTo.mpr passed), member⟩
      · exact absurd same (delivered task broadcast running ahead remains)
    · rintro ⟨frame, came, member⟩
      exact ⟨frame, .inl (mem_framesTo.mp (all.mem_iff.mp came)), member⟩
  have mirrors := (mirrored.mirrors other).congr fun entry => (heard entry).symm
  exact mirrors.active_eq inv.kept informed.covered informed.told (informed.shown greeted)

/-! ### A run with two mirrors -/

/-- The mirror of a peer that began with nothing. -/
def mirrorOf : List (ServerFrame P) → AwarenessStates P
  | [] => []
  | frame :: received => (applyUpdate 0 0 frame.entries (mirrorOf received)).1

private theorem mirrored_mirrorOf (own : Nat → Prop) :
    ∀ received : List (ServerFrame P), Mirrored own received (mirrorOf received)
  | [] => .start fun _ _ => rfl
  | frame :: received => (mirrored_mirrorOf own received).receive frame 0 0

/-- The first connection sends two awareness states, around the join of the second
one, and then removes the first state at its clock. -/
def awarenessRun : Schedule :=
  joinFirst 0 .done ++ sendAwareness 0 7 ++ [.resume 0 .done] ++ joinSecond 1 ++
    [.resume 1 .done] ++ sendAwareness 0 8 ++ [.resume 0 .done, .resume 0 .done,
      .resume 0 (.received (.bytes (some (.awareness [⟨7, 1, none, ""⟩])))),
      .resume 0 .done, .resume 0 .done]

theorem awareness_mirrors_converge_run :
    ∃ pool, samplePool awarenessRun = some pool ∧
      pool.state.awareness.active 7 = none ∧ pool.state.awareness.active 8 = some (1, ()) ∧
        ∀ received : List (ServerFrame editLog), received.Perm (framesTo 1 pool.state.wire) →
          (mirrorOf received).active 7 = none ∧ (mirrorOf received).active 8 = some (1, ()) := by
  have settled : (samplePool awarenessRun).map (fun pool => decide (
      (pool.state.awareness.active 7 = none ∧ pool.state.awareness.active 8 = some (1, ())) ∧
        (pool.state.connections.map (·.websocket) = [0, 1] ∧ pool.state.isRevoked 1 = false) ∧
          pool.state.wire.any (fun | .greeted 1 => true | _ => false) = true ∧
            waitsFor pool 0 = some .receive ∧ waitsFor pool 1 = some .receive)) = some true := by
    decide
  obtain ⟨pool, played, facts⟩ := Option.map_eq_some_iff.mp settled
  obtain ⟨⟨active7, active8⟩, ⟨present, marked⟩, welcomed, first, second⟩ := of_decide_eq_true facts
  have reached := reachable_samplePool played
  have joined : ∃ connection ∈ pool.state.connections, connection.websocket = 1 := by
    apply List.mem_map.mp
    rw [present]
    decide
  obtain ⟨connection, member, named⟩ := joined
  have unfenced : pool.state.revokedConnections connection.websocket = none := by
    rw [named]
    exact Option.not_isSome_iff_eq_none.mp (Bool.eq_false_iff.mp marked)
  have greeted : .greeted connection.websocket ∈ pool.state.wire := by
    obtain ⟨event, there, is⟩ := List.any_eq_true.mp welcomed
    rw [named]
    split at is
    · exact there
    · cases is
  have noSends : ∀ task sender recipient,
      waitsFor pool task ≠ some (.sendBytes sender recipient) := by
    intro task sender recipient waiting
    match task with
    | 0 => exact nomatch first.symm.trans waiting
    | 1 => exact nomatch second.symm.trans waiting
    | task + 2 =>
        have unused : pool.tasks (task + 2) = none :=
          Service.unused_of_play (fun request => by simp [awarenessRun, joinFirst, joinSecond,
            sendAwareness]) rfl played
        unfold waitsFor at waiting
        rw [unused] at waiting
        cases waiting
  refine ⟨pool, played, active7, active8, fun received all => ?_⟩
  have converged : ∀ clientId,
      (mirrorOf received).active clientId = pool.state.awareness.active clientId := by
    intro clientId
    exact awareness_mirrors_converge reached member unfenced greeted
      (delivered_of_waitsFor reached noSends _) (named ▸ all)
      (mirrored_mirrorOf (fun _ => False) received) id
  exact ⟨(converged 7).trans active7, (converged 8).trans active8⟩

end Concord.Server

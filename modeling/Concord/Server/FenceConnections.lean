import Concord.Asyncio.Visits
import Concord.Server.FenceProtocol

/-!
Contract: the connections keep the protocol of stamps and invalidations.

Owns:
- `Permits`, a bound that allows the own steps of a connection while it is served;
- `serveConnection_fences`, under every such bound;
- `FenceRely` of every step of the process that is not one of a task.

Does not own: what a connection has captured.
-/

set_option autoImplicit false

namespace Concord.Server

open Asyncio Collaboration ServerState

variable {P : Platform} {α : Type} {own : FenceView → FenceView → Prop} {task : TaskId}
  {allows : ServerState P → Call → Event P → Prop}

/-- While a connection is served, it joins the room as its user, and marks itself
where its fence fails. -/
structure Permits (own : FenceView → FenceView → Prop) (userId : UserId) (websocket : WebSocket) :
    Prop where
  idle : ∀ view, own view view
  joins : ∀ (view : FenceView) (connection : ConnectionInfo), connection.userId = userId →
    own view { view with connections := view.connections ++ [connection] }
  marks : ∀ (view : FenceView) (failure : Nat × String), view.Failing userId websocket →
    own view { view with
      revokedConnections := Function.update view.revokedConnections websocket (some failure) }

private theorem permits_anyStep (userId : UserId) (websocket : WebSocket) :
    Permits anyStep userId websocket :=
  ⟨fun _ => trivial, fun _ _ _ => trivial, fun _ _ _ => trivial⟩

section Serving

variable {user : AuthenticatedUser} (permits : Permits own user.userId task)

include permits

private theorem closeIfInvalidated_fences :
    Preserves (serverFences P own) allows task (AnyFence own)
      (closeIfInvalidated user.userId task) := by
  intro ghost server knows
  unfold closeIfInvalidated
  rw [wp_bind, wp_get, thenPost_ok]
  split
  · exact knows
  · next code reason failed =>
      have failing : (fenceView server).Failing user.userId task :=
        authorizationFailure_isSome.mp (failed ▸ rfl)
      rw [wp_bind]
      refine wp_modify ghost ⟨fun other different => fenceRely_setRevoked different _,
        permits.marks _ _ failing⟩ ?_
      exact Preserves.bind (closeConnection_preserves (close_fences permits.idle) _ _ _)
        (fun _ => .pure _) ghost _ ⟨trivial, trivial⟩

private theorem joinRoom_fences :
    Preserves (serverFences P own) allows task (AnyFence own)
      (joinRoom ⟨task, user.userId, user.username, user.role⟩) := by
  have append : Preserves (serverFences P own) allows task (AnyFence own)
      (modify fun server => { server with
        rooms := some (server.connections ++
          [⟨task, user.userId, user.username, user.role⟩]) } : ServerProgram P PUnit) := by
    refine update_fences (fun server other different => fenceRely_rooms ?_)
      fun server => permits.joins _ _ rfl
    intro connection member isOther
    rcases List.mem_append.mp member with there | joined
    · exact there
    · obtain rfl := List.mem_singleton.mp joined
      exact absurd isOther.symm different
  refine withRoomLock_fences permits.idle (.bind (modify_fences permits.idle fun _ => rfl) fun _ => ?_)
  refine .bind .get fun server => ?_
  split
  · exact .bind (manager_fences permits.idle (loadFromStorage_awaits task)) fun _ => append
  · exact append

private theorem applyIfAuthorized_fences (payload : P.Bytes) :
    Preserves (serverFences P own) allows task (AnyFence own)
      (withRoomLock task (modifyGet (applyIfAuthorized task user.userId user.role payload))) := by
  refine withRoomLock_fences permits.idle (.modifyGet fun ghost server knows => ⟨ghost, ?_, trivial, trivial⟩)
  have unchanged : ∀ view, view = fenceView server →
      (∀ other, other ≠ task → FenceRely other (fenceView server) view) ∧ own (fenceView server) view := by
    rintro view rfl
    exact ⟨fun other _ => .refl other _, permits.idle _⟩
  unfold applyIfAuthorized
  split
  · next failure failed =>
      exact ⟨fun other different => fenceRely_setRevoked different _,
        permits.marks _ _ (authorizationFailure_isSome.mp (failed ▸ rfl))⟩
  · split
    · exact unchanged _ rfl
    · split
      · next applied => exact unchanged _ (congrArg (fun answer => fenceView answer.2) applied).symm
      · next applied => exact unchanged _ (congrArg (fun answer => fenceView answer.2) applied).symm

private theorem receiveLoop_fences (messages : Nat) :
    Preserves (serverFences P own) allows task (AnyFence own) (receiveLoop task user messages) := by
  have idle : Standing (fenceProtocol own) (fun _ => True) task fun _ _ => True :=
    standing_fences permits.idle
  have waits : Preserves (serverFences P own) allows task (AnyFence own)
      (Coroutine.awaitUntil .receive fun _ => none : ServerProgram P Unit) :=
    idle.awaitUntil trivial fun _ _ _ never => nomatch never
  have prunes : Preserves (serverFences P own) allows task (AnyFence own)
      (modifyGet pruneAwareness : ServerProgram P (List (AwarenessEntry P))) :=
    modify_fences permits.idle fun _ => rfl
  have pruned : Preserves (serverFences P own) allows task (AnyFence own)
      (pruneStaleAwareness task : ServerProgram P Unit) :=
    .bind prunes fun _ => broadcastAwareness_preserves (send_fences permits.idle) _ _
  have synced : ∀ subtype payload, Preserves (serverFences P own) allows task (AnyFence own)
      (handleSyncMessage task user subtype payload) :=
    fun subtype payload => handleSyncMessage_preserves (close_fences permits.idle)
      (send_fences permits.idle) (atomic_fences permits.idle fun _ => rfl)
      (applyIfAuthorized_fences permits payload) subtype
  exact receiveLoop_preserves waits (silent_receive idle) (closeIfInvalidated_fences permits) pruned
    (handleBinaryMessage_preserves (send_fences permits.idle) synced
      fun _ => modify_fences permits.idle fun _ => rfl) messages

/-- A connection that is served keeps the protocol, and takes no step that it is not
permitted. -/
theorem serveConnection_fences (messages : Nat) :
    Preserves (serverFences P own) allows task (AnyFence own) (serveConnection task user messages) := by
  unfold serveConnection
  refine .bind (closeIfInvalidated_fences permits) fun closed => ?_
  split
  · exact .pure _
  · refine .bind (joinRoom_fences permits) fun _ => ?_
    refine .bind (modify_fences permits.idle fun _ => rfl) fun _ => ?_
    refine .bind (closeIfInvalidated_fences permits) fun closed => ?_
    split
    · exact .pure _
    · exact .bind (greet_preserves (send_fences permits.idle)
        (atomic_fences permits.idle fun _ => rfl)) fun _ => receiveLoop_fences permits messages

end Serving

/-! ### The end of a connection -/

private theorem forget_fences :
    Preserves (serverFences P anyStep) allows task (AnyFence anyStep)
      (modify (forget task) : ServerProgram P PUnit) :=
  update_fences (fun _ _ different => fenceRely_forget different) fun _ => trivial

private theorem leaveRoom_fences :
    Preserves (serverFences P anyStep) allows task (AnyFence anyStep) (leaveRoom task) := by
  have leaves : Preserves (serverFences P anyStep) allows task (AnyFence anyStep)
      (modifyGet (leave task) : ServerProgram P _) := by
    refine update_fences (fun server other _ => ?_) fun _ => trivial
    have entries : ∀ connection ∈ (leave task server).2.connections, connection.websocket = other →
        connection ∈ server.connections := by
      intro connection member _
      rw [leave_connections] at member
      exact (List.mem_filter.mp member).1
    exact fenceRely_rooms entries
  have removed : Preserves (serverFences P anyStep) allows task (AnyFence anyStep)
      (Coroutine.tryExcept
        (do let _ ← onManager (checkpointAndRemove task))
        (fun _ => pure ()) : ServerProgram P Unit) :=
    tryCheckpointAndRemove_fences idle_anyStep
  unfold leaveRoom
  refine .bind (withRoomLock_fences idle_anyStep ?_) fun entries =>
    broadcastAwareness_preserves (send_fences idle_anyStep) _ _
  refine .bind forget_fences fun _ => .bind .get fun server => ?_
  split
  · exact .pure _
  · refine .bind leaves fun answer => ?_
    rcases answer with ⟨isLast, entries⟩
    cases isLast with
    | true =>
        exact .bind removed fun _ => .bind (modify_fences idle_anyStep fun _ => rfl) fun _ => .pure _
    | false => exact .pure _

private theorem websocketEndpoint_fences (handshake : Handshake) (messages : Nat) :
    Preserves (serverFences P anyStep) allows task (AnyFence anyStep)
      (websocketEndpoint handshake messages task) := by
  have accepted : Preserves (serverFences P anyStep) allows task (AnyFence anyStep) accept := by
    have working : Working .accept := by decide
    exact operation_fences idle_anyStep working fun _ => rfl
  have stamped : ∀ stamp, Preserves (serverFences P anyStep) allows task (AnyFence anyStep)
      (modify (setStamp task stamp) : ServerProgram P PUnit) :=
    fun stamp => update_fences (fun _ _ different => fenceRely_setStamp different _) fun _ => trivial
  unfold websocketEndpoint
  refine .bind (.tryExcept (.bind (authenticateWs_preserves (query_fences idle_anyStep) _)
    fun _ => .pure _) fun exn => ?_) fun authenticated => ?_
  · split
    · exact .pure _
    · exact .throw _
  · split
    · exact .bind accepted fun _ => close_fences idle_anyStep _ _ _
    · next user =>
        refine .bind accepted fun _ => .bind (stamped _) fun _ => .tryFinally ?_ ?_
        · exact .tryExcept (serveConnection_fences (permits_anyStep _ _) messages) fun _ =>
            closeConnection_preserves (close_fences idle_anyStep) _ _ _
        · refine .bind .get fun server => ?_
          split
          · exact leaveRoom_fences
          · exact forget_fences

/-! ### Every step of the process -/

/-- Every handler keeps the protocol. -/
theorem handler_fences (request : ServerRequest P) :
    Preserves (serverFences P anyStep) allows task (AnyFence anyStep) (request.handler task) := by
  cases request with
  | websocket handshake messages => exact websocketEndpoint_fences handshake messages
  | save credentials documentState => exact saveSessionDocument_fences _ _
  | createSnapshot credentials => exact createSnapshotEndpoint_fences _
  | restoreSnapshot credentials snapshotId => exact restoreSnapshotEndpoint_fences _ _
  | run credentials => exact .bind (runDocument_fences _) fun _ => .pure _
  | maintain => exact maintainDocumentCheckpoint_fences
  | shutdown =>
      exact .tryExcept (.bind (manager_fences idle_anyStep (checkpointToRedis_awaits task))
        fun _ => .pure _) fun _ => .pure _
  | addMember credentials key role => exact addMemberEndpoint_fences _ _ _
  | updateMemberRole credentials userId role => exact updateMemberRoleEndpoint_fences _ _ _
  | removeMember credentials userId => exact removeMemberEndpoint_fences _ _
  | closeSession credentials => exact closeSessionEndpoint_fences _
  | relay event => exact broadcastBinary_preserves (send_fences idle_anyStep) _ _

private theorem serverService_keeps_fences (policy : ServerPolicy P) :
    Keeps (serverFences P anyStep) (serverService P) policy Booted where
  start _ := ⟨(), trivial, fun _ => trivial⟩
  request := by
    intro task request ghost server _ _ _
    refine wp_mono ?_ (handler_fences request ghost server ⟨trivial, trivial⟩)
    exact fun _ _ _ _ => ⟨trivial, trivial⟩
  ambient := by
    intro change ghost server server' taken _ _
    have same : fenceView server' = fenceView server := by
      cases change with
      | tick elapsed =>
          obtain rfl := Option.some.inj taken
          rfl
      | edit websocket change =>
          obtain rfl := Option.some.inj taken
          rfl
      | deliver websocket index =>
          obtain ⟨peer, _, rfl⟩ := Option.map_eq_some_iff.mp taken
          rfl
    refine ⟨ghost, trivial, fun task => ?_⟩
    change FenceRely task (fenceView server) (fenceView server')
    rw [same]
    exact .refl task _
  restart _ := ⟨(), trivial, fun _ => trivial⟩

/-- What the other tasks of the process do to the fence of a connection. -/
theorem fenceRely_of_foreign {policy : ServerPolicy P} {pool middle : ServerPool P}
    (reached : Reachable (serverService P) policy Booted pool)
    (foreign : Foreign (serverService P) policy task pool middle) :
    FenceRely task (fenceView pool.state) (fenceView middle.state) := by
  obtain ⟨_, _, rely⟩ := reached.relies ((fenceProtocol_lawful anyStep).over fenceView)
    (serverService_keeps_fences policy) (fun _ => trivial) foreign
  exact rely

end Concord.Server

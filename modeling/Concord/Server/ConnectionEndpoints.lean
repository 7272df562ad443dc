import Concord.Server.ConnectionSends

/-!
Contract: the HTTP endpoints keep the connection protocol.

Owns:
- the operations that the protocol does not see;
- the endpoints that use the document and broadcast what they have done;
- the membership endpoints, which mark the connections in the room.

A task of an HTTP endpoint is outside the room from its start to its end.

Does not own: the connections.
-/

set_option autoImplicit false

namespace Concord.Server

open Asyncio Collaboration ServerState

variable {P : Platform} {α : Type} {strict : Prop} {task : TaskId}
  {allows : ServerState P → Call → Event P → Prop} {fact : ConnectionView P → Prop}

/-! ### Operations that the protocol does not see -/

section Unseen

variable (lasting : Lasting task fact)

include lasting

theorem query_connections : Queries (serverConnections P strict) allows task (Rests strict task fact) :=
  silent_query lasting.standing

theorem close_connections : Closes (serverConnections P strict) allows task (Rests strict task fact) :=
  silent_close lasting.standing fun _ _ _ _ => rfl

theorem manager_connections {program : Program P α} (awaits : program.Awaits Working) :
    Preserves (serverConnections P strict) allows task (Rests strict task fact) (onManager program) :=
  silent_onManager lasting.standing (fun _ _ => rfl) awaits

theorem operation_connections {call : Call} (working : Working call)
    {effect : ServerState P → ServerState P}
    (same : ∀ server, connectionView (effect server) = connectionView server) :
    Preserves (serverConnections P strict) allows task (Rests strict task fact)
      (operation call effect) :=
  silent_operation lasting.standing working same

private theorem commit_connections {effect : ServerState P → Option (ServerState P)}
    (same : ∀ server after, effect server = some after → connectionView after = connectionView server) :
    Preserves (serverConnections P strict) allows task (Rests strict task fact) (commit effect) :=
  silent_commit lasting.standing same

private theorem atomic_connections {method : ServerState P → Except Exn α × ServerState P}
    (same : ∀ server, connectionView (method server).2 = connectionView server) :
    Preserves (serverConnections P strict) allows task (Rests strict task fact)
      (Coroutine.atomic method) :=
  Standing.atomic (lasting.standing : Standing _ Working task _) same

private theorem tryCheckpointAndRemove_connections :
    Preserves (serverConnections P strict) allows task (Rests strict task fact)
      (tryCheckpointAndRemove task) :=
  .tryExcept (.bind (manager_connections lasting (checkpointAndRemove_awaits task)) fun _ => .pure _)
    fun _ => .pure _

private theorem tryCheckpoint_connections (hasConnections : Bool) :
    Preserves (serverConnections P strict) allows task (Rests strict task fact)
      (tryCheckpoint task hasConnections) := by
  unfold tryCheckpoint
  split
  · exact .tryExcept (.bind (manager_connections lasting (checkpointToRedis_awaits task))
      fun _ => .pure _) fun _ => .pure _
  · exact tryCheckpointAndRemove_connections lasting

end Unseen

/-! ### Documents -/

/-- The fact of an HTTP endpoint under the room lock. -/
abbrev OutsideHeld (task : TaskId) (connections : List ConnectionInfo) (view : ConnectionView P) :
    Prop :=
  OutsideRoom task view ∧ RoomHeld task connections view

theorem lasting_outsideHeld (connections : List ConnectionInfo) :
    Lasting task (OutsideHeld task connections : ConnectionView P → Prop) :=
  lasting_outsideRoom.and (lasting_roomHeld connections)

/-- A section of an HTTP endpoint under the room lock. -/
theorem lifecycle_connections {body : Bool → ServerProgram P α}
    (holds : ∀ connections hasConnections, Preserves (serverConnections P strict) allows task
      (Rests strict task (OutsideHeld task connections)) (body hasConnections)) :
    Preserves (serverConnections P strict) allows task (Rests strict task (OutsideRoom task))
      (documentRoomLifecycle task body) :=
  withRoomLock_connections lasting_outsideRoom lockApart_outsideRoom fun connections =>
    .bind .get fun _ => holds connections _

section Documents

variable (rechecks : Rechecks strict allows)

include rechecks

theorem saveSessionDocument_connections (credentials : Option UserId) (documentState : P.Bytes) :
    Preserves (serverConnections P strict) allows task (Rests strict task (OutsideRoom task))
      (saveSessionDocument credentials documentState task) := by
  unfold saveSessionDocument
  refine .bind (roleChecker_preserves (query_connections lasting_outsideRoom) _ _) fun user => ?_
  split
  · exact .throw _
  · refine .bind (checkSize_preserves _ _) fun _ => ?_
    refine .bind (lifecycle_connections fun connections hasConnections => ?_) fun result => ?_
    · have held := @lasting_outsideHeld P task connections
      refine .bind (requireCurrentEditor_preserves (query_connections held) _) fun _ => ?_
      refine .bind (manager_connections held (loadFromStorage_awaits task)) fun ref => ?_
      refine .bind (.tryExcept (atomic_connections held fun _ => rfl) fun _ => .throw _) fun _ => ?_
      refine .bind (manager_connections held (persistToDb_awaits task)) fun result => ?_
      exact .bind (tryCheckpoint_connections held _) fun _ => .pure _
    · refine .bind (broadcastBinary_connections lasting_outsideRoom rechecks _ rfl) fun _ => ?_
      exact broadcastBinary_connections lasting_outsideRoom rechecks _ rfl

theorem restoreSnapshotEndpoint_connections (credentials : Option UserId) (snapshotId : Nat) :
    Preserves (serverConnections P strict) allows task (Rests strict task (OutsideRoom task))
      (restoreSnapshotEndpoint credentials snapshotId task) := by
  unfold restoreSnapshotEndpoint
  refine .bind (roleChecker_preserves (query_connections lasting_outsideRoom) _ _) fun user => ?_
  refine .bind (lifecycle_connections fun connections hasConnections => ?_) fun update => ?_
  · have held := @lasting_outsideHeld P task connections
    refine .bind (requireCurrentEditor_preserves (query_connections held) _) fun _ => ?_
    refine .bind (query_connections held _ _) fun answer => ?_
    split
    · exact .throw _
    · refine .bind (checkSize_preserves _ _) fun _ => ?_
      refine .bind (manager_connections held (loadFromStorage_awaits task)) fun ref => ?_
      refine .bind (.tryExcept (atomic_connections held fun _ => rfl) fun _ => .throw _)
        fun update => ?_
      exact .bind (tryCheckpoint_connections held _) fun _ => .pure _
  · split
    · exact .pure _
    · exact broadcastBinary_connections lasting_outsideRoom rechecks _ rfl

end Documents

theorem createSnapshotEndpoint_connections (credentials : Option UserId) :
    Preserves (serverConnections P strict) allows task (Rests strict task (OutsideRoom task))
      (createSnapshotEndpoint credentials task) := by
  unfold createSnapshotEndpoint
  refine .bind (roleChecker_preserves (query_connections lasting_outsideRoom) _ _) fun user => ?_
  refine lifecycle_connections fun connections hasConnections => ?_
  have held := @lasting_outsideHeld P task connections
  refine .bind (requireCurrentEditor_preserves (query_connections held) _) fun _ => ?_
  refine .bind (manager_connections held (loadFromStorage_awaits task)) fun ref => ?_
  refine .bind (atomic_connections held fun _ => rfl) fun documentState => ?_
  refine .bind (checkSize_preserves _ _) fun _ => ?_
  have inserted : ∀ (server after : ServerState P), insertSnapshot documentState server = some after →
      connectionView after = connectionView server := by
    intro server after effect
    obtain rfl := Option.some.inj effect
    rfl
  refine .bind (commit_connections held inserted) fun _ => ?_
  have working : Working .databaseRefresh := by decide
  refine .bind (operation_connections held working fun _ => rfl) fun _ => ?_
  split
  · exact .pure _
  · exact tryCheckpointAndRemove_connections held

theorem runDocument_connections (credentials : Option UserId) :
    Preserves (serverConnections P strict) allows task (Rests strict task (OutsideRoom task))
      (runDocument credentials task) := by
  unfold runDocument
  refine .bind (roleChecker_preserves (query_connections lasting_outsideRoom) _ _) fun user => ?_
  refine lifecycle_connections fun connections hasConnections => ?_
  have held := @lasting_outsideHeld P task connections
  refine .bind (requireCurrentEditor_preserves (query_connections held) _) fun _ => ?_
  refine .bind (getSession_preserves (query_connections held) _) fun answer => ?_
  split
  · exact .throw _
  · refine .bind (manager_connections held (loadFromStorage_awaits task)) fun ref => ?_
    refine .bind .get fun server => ?_
    dsimp only
    split
    · exact .pure _
    · exact .bind (tryCheckpointAndRemove_connections held) fun _ => .pure _

theorem maintainDocumentCheckpoint_connections :
    Preserves (serverConnections P strict) allows task (Rests strict task (OutsideRoom task))
      (maintainDocumentCheckpoint task) := by
  unfold maintainDocumentCheckpoint
  refine .bind (withRoomLock_connections lasting_outsideRoom lockApart_outsideRoom
    fun connections => .bind .get fun server => ?_) fun active => ?_
  · split
    · exact .bind (manager_connections (lasting_outsideHeld connections)
        (checkpointAndRemove_awaits task)) fun _ => .pure _
    · exact .pure _
  · split
    · exact .bind (manager_connections lasting_outsideRoom (checkpointToRedis_awaits task))
        fun _ => .pure _
    · exact .pure _

theorem shutdownCheckpoint_connections :
    Preserves (serverConnections P strict) allows task (Rests strict task (OutsideRoom task))
      (shutdownCheckpoint task) :=
  .tryExcept (.bind (manager_connections lasting_outsideRoom (checkpointToRedis_awaits task))
    fun _ => .pure _) fun _ => .pure _

/-! ### Memberships -/

/-- A fence on connections of the room. -/
theorem revokeConnections_connections (lasting : Lasting task fact)
    (selected : ConnectionInfo → Bool) (failure : Nat × String) {ghost : Unit}
    {server : ServerState P} (knows : Rests strict task fact ghost server) :
    (∀ other, ConnectionRely other (connectionView server)
        (connectionView (server.revokeConnections selected failure))) ∧
      Rests strict task fact ghost (server.revokeConnections selected failure) := by
  let targets := server.connections.filter selected
  let fenced := targets.map (·.websocket)
  let revoked : WebSocket → Option (Nat × String) := fun websocket =>
    if targets.any (·.websocket = websocket) then some failure
    else server.revokedConnections websocket
  have inRoom : ∀ websocket ∈ fenced, (connectionView server).InRoom websocket := by
    intro websocket member
    obtain ⟨connection, target, own⟩ := List.mem_map.mp member
    exact ⟨connection, (List.mem_filter.mp target).1, own⟩
  have marked : ∀ websocket ∈ fenced, revoked websocket ≠ none := by
    intro websocket member
    obtain ⟨connection, target, own⟩ := List.mem_map.mp member
    have found : targets.any (·.websocket = websocket) = true :=
      List.any_eq_true.mpr ⟨connection, target, decide_eq_true own⟩
    have isMarked : revoked websocket = some failure := if_pos found
    rw [isMarked]
    exact Option.some_ne_none failure
  have same : ∀ websocket, websocket ∉ fenced →
      revoked websocket = (connectionView server).revokedConnections websocket := by
    intro websocket absent
    have notFound : ¬targets.any (·.websocket = websocket) = true := by
      intro found
      obtain ⟨connection, target, own⟩ := List.any_eq_true.mp found
      exact absent (List.mem_map.mpr ⟨connection, target, of_decide_eq_true own⟩)
    exact if_neg notFound
  have after : connectionView (server.revokeConnections selected failure) =
      { connectionView server with
        revokedConnections := revoked
        wire := fenced.map .fenced ++ server.wire } := by
    simp only [revokeConnections, connectionView, fenced, List.map_map]
    rfl
  have rely : ∀ other, ConnectionRely other (connectionView server)
      (connectionView (server.revokeConnections selected failure)) := by
    intro other
    rw [after]
    exact rely_fence fenced (fun outside member => outside (inRoom other member)) revoked same
  refine ⟨rely, ?_, lasting.stable (rely task) knows.2.1, knows.2.2⟩
  change ConnectionInv strict _
  rw [after]
  exact knows.1.fence fenced revoked marked same

private theorem fenceMember_connections (lasting : Lasting task fact) (userId : UserId) (code : Nat)
    (reason : String) :
    Preserves (serverConnections P strict) allows task (Rests strict task fact)
      (modifyGet (fenceMember userId code reason) : ServerProgram P (List WebSocket)) :=
  .modifyGet fun ghost server knows => by
    obtain ⟨rely, after⟩ := revokeConnections_connections lasting (·.userId = userId)
      (code, reason) knows
    exact ⟨ghost, fun other _ => rely other, after⟩

private theorem fenceSession_connections (lasting : Lasting task fact) :
    Preserves (serverConnections P strict) allows task (Rests strict task fact)
      (modifyGet fenceSession : ServerProgram P (List WebSocket)) :=
  .modifyGet fun ghost server knows => by
    obtain ⟨rely, after⟩ := revokeConnections_connections lasting (fun _ => true)
      (wsSessionClosed, "Session is closed") knows
    exact ⟨ghost, fun other _ => rely other, after⟩

private theorem refresh_connections (lasting : Lasting task fact) :
    Preserves (serverConnections P strict) allows task (Rests strict task fact) refresh :=
  operation_connections lasting (by decide) fun _ => rfl

theorem addMemberEndpoint_connections (credentials : Option UserId) (key : MemberKey)
    (role : RoleEnum) :
    Preserves (serverConnections P strict) allows task (Rests strict task (OutsideRoom task))
      (addMemberEndpoint credentials key role task) := by
  have queries : Queries (serverConnections P strict) allows task
      (Rests strict task (OutsideRoom task)) := query_connections lasting_outsideRoom
  unfold addMemberEndpoint
  refine .bind (roleChecker_preserves queries _ _) fun owner => ?_
  refine .bind (resolveMemberUserId_preserves queries _) fun userId => ?_
  exact translateErrors_preserves (addMember_preserves queries _ _ _
    (commit_connections lasting_outsideRoom (insertMember_view fun _ _ _ => rfl))
    (refresh_connections lasting_outsideRoom))

theorem updateMemberRoleEndpoint_connections (credentials : Option UserId) (userId : UserId)
    (role : RoleEnum) :
    Preserves (serverConnections P strict) allows task (Rests strict task (OutsideRoom task))
      (updateMemberRoleEndpoint credentials userId role task) := by
  unfold updateMemberRoleEndpoint
  refine .bind (roleChecker_preserves (query_connections lasting_outsideRoom) _ _) fun owner => ?_
  refine lifecycle_connections fun connections _ => ?_
  have held := @lasting_outsideHeld P task connections
  refine .bind (translateErrors_preserves (Attempts.preserves ?_)) fun _ => ?_
  · exact updateMemberRole_attempts (query_connections held) _ _ _ (fun _ _ => id)
      (commit_connections held (setRole_view fun _ _ _ => rfl)).attempts
      (refresh_connections held).attempts
  · exact invalidateMemberConnections_preserves (close_connections held) _ _ _
      (fenceMember_connections held _ _ _)

theorem removeMemberEndpoint_connections (credentials : Option UserId) (userId : UserId) :
    Preserves (serverConnections P strict) allows task (Rests strict task (OutsideRoom task))
      (removeMemberEndpoint credentials userId task) := by
  unfold removeMemberEndpoint
  refine .bind (roleChecker_preserves (query_connections lasting_outsideRoom) _ _) fun owner => ?_
  refine lifecycle_connections fun connections _ => ?_
  have held := @lasting_outsideHeld P task connections
  refine .bind (translateErrors_preserves (Attempts.preserves ?_)) fun _ => ?_
  · exact removeMember_attempts (query_connections held) _ _
      (commit_connections held (deleteMember_view fun _ _ _ => rfl)).attempts
  · exact invalidateMemberConnections_preserves (close_connections held) _ _ _
      (fenceMember_connections held _ _ _)

theorem closeSessionEndpoint_connections (credentials : Option UserId) :
    Preserves (serverConnections P strict) allows task (Rests strict task (OutsideRoom task))
      (closeSessionEndpoint credentials task) := by
  unfold closeSessionEndpoint
  refine .bind (roleChecker_preserves (query_connections lasting_outsideRoom) _ _) fun owner => ?_
  refine lifecycle_connections fun connections _ => ?_
  have held := @lasting_outsideHeld P task connections
  refine .bind (translateErrors_preserves (Attempts.preserves ?_)) fun _ => ?_
  · exact closeSession_attempts (query_connections held) _
      (commit_connections held (deactivate_view fun _ _ _ => rfl)).attempts
      (refresh_connections held).attempts
  · exact closeSessionConnections_preserves (close_connections held) (fenceSession_connections held)

end Concord.Server

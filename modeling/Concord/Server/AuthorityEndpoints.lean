import Concord.Server.AuthoritySteps

/-!
Contract: the HTTP endpoints keep the authority protocol.

Owns:
- the operations that the protocol does not see;
- the endpoints that use the document for a user they have checked;
- the membership endpoints, where an operation whose commit took effect returns.

Does not own: the connections.
-/

set_option autoImplicit false

namespace Concord.Server

open Asyncio Collaboration ServerState

variable {P : Platform} {α : Type} {returning : Prop} {task : TaskId} {server : ServerState P}
  {allows : ServerState P → Call → Event P → Prop}

/-! ### Operations that the protocol does not see -/

section Unseen

variable {fact : Pending → AuthorityView → Prop}
  (standing : Standing (authorityProtocol returning) Working task fact)

include standing

private theorem query_authority :
    Queries (serverAuthority P returning) allows task (Knows returning fact) :=
  silent_query standing

theorem send_authority : Sends (serverAuthority P returning) allows task (Knows returning fact) :=
  silent_send standing (fun _ _ _ => rfl) (fun _ _ => rfl) fun _ _ _ => rfl

theorem close_authority : Closes (serverAuthority P returning) allows task (Knows returning fact) :=
  silent_close standing fun _ _ _ _ => rfl

theorem manager_authority {program : Program P α} (awaits : program.Awaits Working) :
    Preserves (serverAuthority P returning) allows task (Knows returning fact) (onManager program) :=
  silent_onManager standing (fun _ _ => rfl) awaits

private theorem tryCheckpointAndRemove_authority :
    Preserves (serverAuthority P returning) allows task (Knows returning fact) (tryCheckpointAndRemove task) :=
  .tryExcept (.bind (manager_authority standing (checkpointAndRemove_awaits task)) fun _ => .pure _)
    fun _ => .pure _

private theorem tryCheckpoint_authority (hasConnections : Bool) :
    Preserves (serverAuthority P returning) allows task (Knows returning fact) (tryCheckpoint task hasConnections) := by
  unfold tryCheckpoint
  split
  · exact .tryExcept (.bind (manager_authority standing (checkpointToRedis_awaits task))
      fun _ => .pure _) fun _ => .pure _
  · exact tryCheckpointAndRemove_authority standing

end Unseen

/-! ### Sections under the room lock -/

/-- A section of an HTTP endpoint under the room lock. -/
theorem lifecycle_authority {body : Bool → ServerProgram P α}
    (holds : ∀ hasConnections, Preserves (serverAuthority P returning) allows task
      (Knows returning (LockHolder task none)) (body hasConnections)) :
    Preserves (serverAuthority P returning) allows task (Knows returning fun _ _ => True)
      (documentRoomLifecycle task body) := by
  apply Attempts.preserves
  refine withRoomLock_authority standing_true lockFree_true lockFree_true lockFree_true ?_
  apply Preserves.attempts
  intro pending server knows
  rw [wp_bind, wp_get, thenPost_ok]
  refine wp_mono ?_ (holds _ pending server (knows.weaken fun _ _ both => both.2))
  exact fun _ _ _ after => after.weaken fun _ _ held => ⟨trivial, held⟩

private theorem editor_of_currentEditorFailure {session : Option SessionRow}
    {role : Option RoleEnum}
    (passed : currentEditorFailure session role = none) :
    session.any (·.isActive) = true ∧
      ∃ current, role = some current ∧ roleRank .editor ≤ roleRank current := by
  cases session with
  | none => cases passed
  | some session =>
      cases active : session.isActive with
      | false => simp [currentEditorFailure, active] at passed
      | true =>
          cases role with
          | none => simp [currentEditorFailure, active] at passed
          | some current =>
              simp [currentEditorFailure, active] at passed
              exact ⟨active, current, rfl, passed⟩

/-- Under the room lock, a user that passed the check stays an editor. -/
theorem requireCurrentEditor_authority (userId : UserId) :
    Attempts (serverAuthority P returning) allows task (Knows returning (LockHolder task none))
      (Knows returning (EditorHeld task userId)) (Knows returning (LockHolder task none))
      (requireCurrentEditor userId) := by
  intro pending server knows
  unfold requireCurrentEditor
  rw [wp_bind]
  refine wp_mono ?_ (query_answer (standing_lockHolder none) knows)
  intro result pending₁ server₁ answered
  cases result with
  | error exn => exact answered.1
  | ok failure =>
      rw [thenPost_ok]
      have read := answered.2 failure rfl
      cases failure with
      | some exn => exact answered.1
      | none =>
          exact ⟨answered.1.1, answered.1.2, editor_of_currentEditorFailure read.symm⟩

/-- A mutation by an editor under the room lock. -/
theorem mutate_authority {userId : UserId} {method : DocStore P → Except Exn α × DocStore P} :
    Preserves (serverAuthority P returning) allows task (Knows returning (EditorHeld task userId))
      (Coroutine.atomic (mutate userId method)) := by
  apply Preserves.atomic
  intro pending server knows
  have step : OwnStep returning task (authorityView server) (authorityView (server.mutate userId method).2) :=
    ownStep_mutate fun _ => knows.2.2
  exact ⟨pending, step.guar, step.inv knows.1, knows.2⟩

private theorem lockHolder_of_editorHeld (userId : UserId) (pending : Pending)
    (server : ServerState P)
    (knows : Knows returning (EditorHeld task userId) pending server) :
    Knows returning (LockHolder task none) pending server :=
  knows.weaken fun _ _ held => held.1

/-- A section that first checks its user. -/
theorem checked_authority {userId : UserId} {rest : ServerProgram P α}
    (holds : Preserves (serverAuthority P returning) allows task (Knows returning (EditorHeld task userId)) rest) :
    Preserves (serverAuthority P returning) allows task (Knows returning (LockHolder task none))
      (do requireCurrentEditor userId; rest) :=
  Attempts.preserves (.bind (requireCurrentEditor_authority userId) fun _ =>
    .of_leads (holds.leads (lockHolder_of_editorHeld userId)))

/-! ### Documents -/

theorem saveSessionDocument_authority (credentials : Option UserId) (documentState : P.Bytes) :
    Preserves (serverAuthority P returning) allows task (Knows returning fun _ _ => True)
      (saveSessionDocument credentials documentState task) := by
  unfold saveSessionDocument
  refine .bind (roleChecker_preserves (query_authority standing_true) _ _) fun user => ?_
  split
  · exact .throw _
  · refine .bind (checkSize_preserves _ _) fun _ => ?_
    refine .bind (lifecycle_authority fun hasConnections => checked_authority ?_) fun result => ?_
    · have editor : Standing (authorityProtocol returning) Working task (EditorHeld task user.userId) :=
        standing_editorHeld user.userId
      refine .bind (manager_authority editor (loadFromStorage_awaits task)) fun ref => ?_
      refine .bind (.tryExcept mutate_authority fun _ => .throw _) fun _ => ?_
      refine .bind (manager_authority editor (persistToDb_awaits task)) fun result => ?_
      exact .bind (tryCheckpoint_authority editor _) fun _ => .pure _
    · refine .bind (broadcastBinary_preserves (send_authority standing_true) _ _) fun _ => ?_
      exact broadcastBinary_preserves (send_authority standing_true) _ _

theorem createSnapshotEndpoint_authority (credentials : Option UserId) :
    Preserves (serverAuthority P returning) allows task (Knows returning fun _ _ => True)
      (createSnapshotEndpoint credentials task) := by
  unfold createSnapshotEndpoint
  refine .bind (roleChecker_preserves (query_authority standing_true) _ _) fun user => ?_
  refine lifecycle_authority fun hasConnections => checked_authority ?_
  have editor : Standing (authorityProtocol returning) Working task (EditorHeld task user.userId) :=
    standing_editorHeld user.userId
  refine .bind (manager_authority editor (loadFromStorage_awaits task)) fun ref => ?_
  refine .bind (editor.atomic fun _ => rfl) fun documentState => ?_
  refine .bind (checkSize_preserves _ _) fun _ => ?_
  have inserted : ∀ (server after : ServerState P), insertSnapshot documentState server = some after →
      authorityView after = authorityView server := by
    intro server after effect
    obtain rfl := Option.some.inj effect
    rfl
  refine .bind (silent_commit editor inserted) fun _ => ?_
  have working : Working .databaseRefresh := by decide
  refine .bind (silent_operation editor working fun _ => rfl) fun _ => ?_
  split
  · exact .pure _
  · exact tryCheckpointAndRemove_authority editor

theorem restoreSnapshotEndpoint_authority (credentials : Option UserId) (snapshotId : Nat) :
    Preserves (serverAuthority P returning) allows task (Knows returning fun _ _ => True)
      (restoreSnapshotEndpoint credentials snapshotId task) := by
  unfold restoreSnapshotEndpoint
  refine .bind (roleChecker_preserves (query_authority standing_true) _ _) fun user => ?_
  refine .bind (lifecycle_authority fun hasConnections => checked_authority ?_) fun update => ?_
  · have editor : Standing (authorityProtocol returning) Working task (EditorHeld task user.userId) :=
      standing_editorHeld user.userId
    refine .bind (query_authority editor _ _) fun answer => ?_
    split
    · exact .throw _
    · refine .bind (checkSize_preserves _ _) fun _ => ?_
      refine .bind (manager_authority editor (loadFromStorage_awaits task)) fun ref => ?_
      refine .bind (.tryExcept mutate_authority fun _ => .throw _) fun update => ?_
      exact .bind (tryCheckpoint_authority editor _) fun _ => .pure _
  · split
    · exact .pure _
    · exact broadcastBinary_preserves (send_authority standing_true) _ _

theorem runDocument_authority (credentials : Option UserId) :
    Preserves (serverAuthority P returning) allows task (Knows returning fun _ _ => True)
      (runDocument credentials task) := by
  unfold runDocument
  refine .bind (roleChecker_preserves (query_authority standing_true) _ _) fun user => ?_
  refine lifecycle_authority fun hasConnections => checked_authority ?_
  have editor : Standing (authorityProtocol returning) Working task (EditorHeld task user.userId) :=
    standing_editorHeld user.userId
  refine .bind (getSession_preserves (query_authority editor) _) fun answer => ?_
  split
  · exact .throw _
  · refine .bind (manager_authority editor (loadFromStorage_awaits task)) fun ref => ?_
    refine .bind .get fun server => ?_
    dsimp only
    split
    · exact .pure _
    · exact .bind (tryCheckpointAndRemove_authority editor) fun _ => .pure _

theorem maintainDocumentCheckpoint_authority :
    Preserves (serverAuthority P returning) allows task (Knows returning fun _ _ => True)
      (maintainDocumentCheckpoint task) := by
  have locked : Standing (authorityProtocol returning) Working task
      fun pending view => True ∧ LockHolder task none pending view :=
    standing_and standing_true (standing_lockHolder none)
  unfold maintainDocumentCheckpoint
  refine .bind (Attempts.preserves (withRoomLock_authority standing_true lockFree_true lockFree_true
    lockFree_true (Preserves.attempts ?_))) fun active => ?_
  · refine .bind .get fun server => ?_
    split
    · exact .bind (manager_authority locked (checkpointAndRemove_awaits task)) fun _ => .pure _
    · exact .pure _
  · split
    · exact .bind (manager_authority standing_true (checkpointToRedis_awaits task)) fun _ => .pure _
    · exact .pure _

/-! ### Memberships -/

section Memberships

variable (returns : returning → EffectsReturn allows)

/-- A change that is committed is fenced before the room lock is given up. -/
theorem fenced_authority {affected : Affected} {change fence : ServerProgram P Unit}
    (changed : Attempts (serverAuthority P returning) allows task (Knows returning (LockHolder task none))
      (Knows returning (FenceDue task affected)) (Knows returning (LockHolder task none)) change)
    (fenced : Leads (serverAuthority P returning) allows task (Knows returning (FenceDue task affected))
      (Knows returning (LockHolder task none)) fence) :
    Preserves (serverAuthority P returning) allows task (Knows returning fun _ _ => True)
      (documentRoomLifecycle task fun _ => do translateErrors change; fence) :=
  lifecycle_authority fun _ => Attempts.preserves
    (.bind (translateErrors_attempts changed) fun _ => .of_leads fenced)

private theorem invalidateMemberConnections_authority (userId : UserId) (code : Nat)
    (reason : String) :
    Leads (serverAuthority P returning) allows task (Knows returning (FenceDue task (.member userId)))
      (Knows returning (LockHolder task none)) (invalidateMemberConnections userId code reason) := by
  intro pending server knows
  unfold invalidateMemberConnections
  rw [wp_bind]
  refine wp_mono ?_ (fenceMember_authority userId code reason pending server knows)
  intro result pending₁ server₁ after
  cases result with
  | error exn => exact after
  | ok targets =>
      exact closeConnections_preserves (close_authority (standing_lockHolder none)) code reason
        targets pending₁ server₁ after

private theorem closeSessionConnections_authority :
    Leads (serverAuthority P returning) allows task (Knows returning (FenceDue task .session))
      (Knows returning (LockHolder task none)) closeSessionConnections := by
  intro pending server knows
  unfold closeSessionConnections
  rw [wp_bind]
  refine wp_mono ?_ (fenceSession_authority pending server knows)
  intro result pending₁ server₁ after
  cases result with
  | error exn => exact after
  | ok targets =>
      exact closeConnections_preserves (close_authority (standing_lockHolder none)) _ _
        targets pending₁ server₁ after

private theorem fenceDue_of_nothing {affected : Affected} (pending : Pending)
    (server : ServerState P)
    (knows : Knows returning (LockHolder task none) pending server) :
    Knows returning (FenceDue task affected) pending server :=
  knows.weaken fun _ _ held => fenceDue_of_lockHolder held

include returns

theorem updateMemberRoleEndpoint_authority (credentials : Option UserId) (userId : UserId)
    (role : RoleEnum) :
    Preserves (serverAuthority P returning) allows task (Knows returning fun _ _ => True)
      (updateMemberRoleEndpoint credentials userId role task) := by
  refine .bind (roleChecker_preserves (query_authority standing_true) _ _) fun owner => ?_
  have changed : Attempts (serverAuthority P returning) allows task (Knows returning (LockHolder task none))
      (Knows returning (FenceDue task (.member userId))) (Knows returning (LockHolder task none))
      (updateMemberRole task owner.rows userId role) :=
    updateMemberRole_attempts (query_authority (standing_lockHolder none)) _ _ _
      fenceDue_of_nothing (commit_authority returns fun _ _ => commitStep_setRole)
      (refresh_authority returns)
  exact fenced_authority changed (invalidateMemberConnections_authority _ _ _)

theorem removeMemberEndpoint_authority (credentials : Option UserId) (userId : UserId) :
    Preserves (serverAuthority P returning) allows task (Knows returning fun _ _ => True)
      (removeMemberEndpoint credentials userId task) := by
  refine .bind (roleChecker_preserves (query_authority standing_true) _ _) fun owner => ?_
  have changed : Attempts (serverAuthority P returning) allows task (Knows returning (LockHolder task none))
      (Knows returning (FenceDue task (.member userId))) (Knows returning (LockHolder task none))
      (removeMember task owner.rows userId) :=
    removeMember_attempts (query_authority (standing_lockHolder none)) _ _
      (commit_authority returns fun _ _ => commitStep_deleteMember)
  exact fenced_authority changed (invalidateMemberConnections_authority _ _ _)

theorem closeSessionEndpoint_authority (credentials : Option UserId) :
    Preserves (serverAuthority P returning) allows task (Knows returning fun _ _ => True)
      (closeSessionEndpoint credentials task) := by
  refine .bind (roleChecker_preserves (query_authority standing_true) _ _) fun owner => ?_
  have changed : Attempts (serverAuthority P returning) allows task (Knows returning (LockHolder task none))
      (Knows returning (FenceDue task .session)) (Knows returning (LockHolder task none))
      (closeSession task owner.rows) :=
    closeSession_attempts (query_authority (standing_lockHolder none)) _
      (commit_authority returns fun _ _ => commitStep_deactivate) (refresh_authority returns)
  exact fenced_authority changed closeSessionConnections_authority

end Memberships

theorem addMemberEndpoint_authority (credentials : Option UserId) (key : MemberKey)
    (role : RoleEnum) :
    Preserves (serverAuthority P returning) allows task (Knows returning fun _ _ => True)
      (addMemberEndpoint credentials key role task) := by
  have queries : Queries (serverAuthority P returning) allows task (Knows returning fun _ _ => True) :=
    query_authority standing_true
  have working : Working .databaseRefresh := by decide
  refine .bind (roleChecker_preserves queries _ _) fun owner => ?_
  refine .bind (resolveMemberUserId_preserves queries _) fun userId => ?_
  exact translateErrors_preserves (addMember_preserves queries _ _ _
    (insertMember_authority _ _) (silent_operation standing_true working fun _ => rfl))

end Concord.Server

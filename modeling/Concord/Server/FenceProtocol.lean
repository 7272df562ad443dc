import Concord.Server.ViewRules
import Concord.Server.System

/-!
Contract: the protocol of authorization stamps and invalidations.

Owns:
- `FenceView`, what `_authorization_failure` reads, and `FenceView.Failing`, when it
  returns a failure;
- `FenceRely`, what the other tasks may do to the fence of one connection;
- `fenceProtocol`, with a bound `own` on the steps of the task itself;
- the HTTP endpoints keep the protocol.

Does not own: the connections.
-/

set_option autoImplicit false

namespace Concord.Server

open Asyncio Collaboration ServerState

variable {P : Platform} {α : Type}

/-- What the fence of a connection reads and is made from. -/
structure FenceView where
  connections : List ConnectionInfo
  memberInvalidations : UserId → Option AuthorizationInvalidation
  sessionInvalidation : Option AuthorizationInvalidation
  connectionStamps : WebSocket → Option AuthorizationStamp
  revokedConnections : WebSocket → Option (Nat × String)

def fenceView (server : ServerState P) : FenceView where
  connections := server.connections
  memberInvalidations := server.memberInvalidations
  sessionInvalidation := server.sessionInvalidation
  connectionStamps := server.connectionStamps
  revokedConnections := server.revokedConnections

/-! ### When the fence fails -/

/-- An invalidation was published after the stamp. -/
def FenceView.Stale (userId : UserId) (stamp : AuthorizationStamp) (view : FenceView) : Prop :=
  stamp.sessionVersion < invalidationVersion view.sessionInvalidation ∨
    stamp.memberVersion < invalidationVersion (view.memberInvalidations userId)

/-- `_authorization_failure` returns a failure. -/
def FenceView.Failing (userId : UserId) (websocket : WebSocket) (view : FenceView) : Prop :=
  view.revokedConnections websocket ≠ none ∨
    ∃ stamp, view.connectionStamps websocket = some stamp ∧ view.Stale userId stamp

private theorem filter_newer_isSome (version : Nat)
    (invalidation : Option AuthorizationInvalidation) :
    (invalidation.filter (version < ·.version)).isSome ↔ version < invalidationVersion invalidation := by
  cases invalidation <;> simp [invalidationVersion]

/-- `_authorization_failure` returns a failure exactly where the connection is marked
or its stamp is stale. -/
theorem authorizationFailure_isSome {userId : UserId} {websocket : WebSocket}
    {server : ServerState P} :
    (server.authorizationFailure userId websocket).isSome ↔
      (fenceView server).Failing userId websocket := by
  change _ ↔ server.revokedConnections websocket ≠ none ∨
    ∃ stamp, server.connectionStamps websocket = some stamp ∧
      (stamp.sessionVersion < invalidationVersion server.sessionInvalidation ∨
        stamp.memberVersion < invalidationVersion (server.memberInvalidations userId))
  unfold authorizationFailure
  cases marked : server.revokedConnections websocket with
  | some revoked => exact iff_of_true rfl (.inl (Option.some_ne_none revoked))
  | none =>
      cases stamped : server.connectionStamps websocket with
      | none => simp
      | some stamp =>
          simp only [ne_eq, not_true_eq_false, false_or, Option.some.injEq, exists_eq_left',
            ← filter_newer_isSome]
          cases server.sessionInvalidation.filter (stamp.sessionVersion < ·.version) with
          | some invalidation => simp
          | none =>
              cases (server.memberInvalidations userId).filter (stamp.memberVersion < ·.version) <;>
                simp

/-! ### What the others do -/

/-- An invalidation stays as it is, or a newer one takes its place. -/
def Advances (before after : Option AuthorizationInvalidation) : Prop :=
  after = before ∨ invalidationVersion before < invalidationVersion after

theorem Advances.le {before after : Option AuthorizationInvalidation}
    (advances : Advances before after) : invalidationVersion before ≤ invalidationVersion after := by
  rcases advances with same | newer
  · rw [same]
  · exact newer.le

theorem Advances.trans {first second third : Option AuthorizationInvalidation}
    (earlier : Advances first second) (later : Advances second third) : Advances first third := by
  rcases earlier with rfl | newer
  · exact later
  · exact .inr (newer.trans_le later.le)

/-- An invalidation that differs is a newer one. -/
theorem Advances.ne_iff {before after : Option AuthorizationInvalidation}
    (advances : Advances before after) :
    after ≠ before ↔ invalidationVersion before < invalidationVersion after := by
  refine ⟨fun different => advances.resolve_left different, ?_⟩
  rintro newer rfl
  exact lt_irrefl _ newer

/-- A change of either of two steps is a change of both together. -/
theorem Advances.ne_trans {first second third : Option AuthorizationInvalidation}
    (earlier : Advances first second) (later : Advances second third) :
    third ≠ first ↔ second ≠ first ∨ third ≠ second := by
  rw [(earlier.trans later).ne_iff, earlier.ne_iff, later.ne_iff]
  have := earlier.le
  have := later.le
  omega

/-- What the other tasks may do to the fence of a connection: they never touch its
stamp or bring it into the room, and mark it only where they publish an
invalidation of the session or of the user that it is in the room for. -/
structure FenceRely (task : TaskId) (before after : FenceView) : Prop where
  stamp : after.connectionStamps task = before.connectionStamps task
  entries : ∀ connection ∈ after.connections, connection.websocket = task →
    connection ∈ before.connections
  member : ∀ userId, Advances (before.memberInvalidations userId) (after.memberInvalidations userId)
  session : Advances before.sessionInvalidation after.sessionInvalidation
  revoked : after.revokedConnections task ≠ none → before.revokedConnections task ≠ none ∨
    after.sessionInvalidation ≠ before.sessionInvalidation ∨
      ∃ connection ∈ before.connections, connection.websocket = task ∧
        after.memberInvalidations connection.userId ≠ before.memberInvalidations connection.userId

theorem FenceRely.refl (task : TaskId) (view : FenceView) : FenceRely task view view :=
  ⟨rfl, fun _ member _ => member, fun _ => .inl rfl, .inl rfl, .inl⟩

theorem FenceRely.trans {task : TaskId} {first second third : FenceView}
    (earlier : FenceRely task first second) (later : FenceRely task second third) :
    FenceRely task first third where
  stamp := later.stamp.trans earlier.stamp
  entries connection member own :=
    earlier.entries connection (later.entries connection member own) own
  member userId := (earlier.member userId).trans (later.member userId)
  session := earlier.session.trans later.session
  revoked marked := by
    rw [earlier.session.ne_trans later.session]
    rcases later.revoked marked with marked | closed | ⟨connection, member, own, published⟩
    · rcases earlier.revoked marked with marked | closed | ⟨connection, member, own, published⟩
      · exact .inl marked
      · exact .inr (.inl (.inl closed))
      · exact .inr (.inr ⟨connection, member, own,
          ((earlier.member _).ne_trans (later.member _)).mpr (.inl published)⟩)
    · exact .inr (.inl (.inr closed))
    · exact .inr (.inr ⟨connection, earlier.entries connection member own, own,
        ((earlier.member _).ne_trans (later.member _)).mpr (.inr published)⟩)

/-- The protocol, for a task whose own steps are bounded by `own`. -/
def fenceProtocol (own : FenceView → FenceView → Prop) : Logic Unit FenceView Call where
  inv _ _ := True
  rely task _ before _ after := FenceRely task before after
  guar task _ before _ after :=
    (∀ other, other ≠ task → FenceRely other before after) ∧ own before after

theorem fenceProtocol_lawful (own : FenceView → FenceView → Prop) : (fenceProtocol own).Lawful where
  rely_refl task _ view := .refl task view
  rely_trans := .trans
  guar_rely different guar := guar.1 _ (Ne.symm different)
  parked_stable _ := id
  done_stable _ := id
  fresh_stable _ := id

abbrev serverFences (P : Platform) (own : FenceView → FenceView → Prop) :
    Logic Unit (ServerState P) Call :=
  (fenceProtocol own).over fenceView

/-- What a task knows between two steps. -/
abbrev AnyFence (own : FenceView → FenceView → Prop) (ghost : Unit) (server : ServerState P) : Prop :=
  (fenceProtocol own).Knows fenceView (fun _ _ => True) ghost server

/-- No bound on the own steps. -/
def anyStep (_ _ : FenceView) : Prop := True

/-! ### What one step does to the other connections -/

section Steps

variable {task other : TaskId} {server : ServerState P}

theorem fenceRely_setStamp (different : other ≠ task) (stamp : Option AuthorizationStamp) :
    FenceRely other (fenceView server) (fenceView (server.setStamp task stamp)) :=
  ⟨Function.update_of_ne different _ _, fun _ member _ => member, fun _ => .inl rfl, .inl rfl, .inl⟩

theorem fenceRely_setRevoked (different : other ≠ task) (failure : Nat × String) :
    FenceRely other (fenceView server) (fenceView (server.setRevoked task failure)) := by
  refine ⟨rfl, fun _ member _ => member, fun _ => .inl rfl, .inl rfl, fun marked => .inl ?_⟩
  have same : (fenceView (server.setRevoked task failure)).revokedConnections other =
      (fenceView server).revokedConnections other := Function.update_of_ne different _ _
  rwa [same] at marked

theorem fenceRely_forget (different : other ≠ task) :
    FenceRely other (fenceView server) (fenceView (server.forget task)) := by
  refine ⟨Function.update_of_ne different _ _, fun _ member _ => member, fun _ => .inl rfl, .inl rfl,
    fun marked => .inl ?_⟩
  have same : (fenceView (server.forget task)).revokedConnections other =
      (fenceView server).revokedConnections other := Function.update_of_ne different _ _
  rwa [same] at marked

/-- A step that only changes the room brings no other connection into it. -/
theorem fenceRely_rooms {connections : List ConnectionInfo}
    (entries : ∀ connection ∈ connections, connection.websocket = other →
      connection ∈ server.connections) :
    FenceRely other (fenceView server) { fenceView server with connections := connections } :=
  ⟨rfl, entries, fun _ => .inl rfl, .inl rfl, .inl⟩

/-- An invalidation of a member is a newer one, and marks connections of that member
alone. -/
theorem fenceRely_fenceMember (userId : UserId) (code : Nat) (reason : String) :
    FenceRely other (fenceView server) (fenceView (fenceMember userId code reason server).2) := by
  have newer : invalidationVersion (server.memberInvalidations userId) <
      invalidationVersion ((fenceMember userId code reason server).2.memberInvalidations userId) := by
    change _ < invalidationVersion (Function.update server.memberInvalidations userId _ userId)
    rw [Function.update_self]
    exact Nat.lt_succ_self _
  refine ⟨rfl, fun _ member _ => member, ?_, .inl rfl, ?_⟩
  · intro current
    by_cases own : current = userId
    · subst own
      exact .inr newer
    · exact .inl (Function.update_of_ne own _ _)
  · intro marked
    let targets := server.connections.filter (·.userId = userId)
    change (if targets.any (·.websocket = other) then some (code, reason)
      else server.revokedConnections other) ≠ none at marked
    by_cases target : targets.any (·.websocket = other) = true
    · obtain ⟨connection, member, own⟩ := List.any_eq_true.mp target
      obtain ⟨present, selected⟩ := List.mem_filter.mp member
      obtain rfl : connection.userId = userId := of_decide_eq_true selected
      exact .inr (.inr ⟨connection, present, of_decide_eq_true own,
        (Advances.ne_iff (.inr newer)).mpr newer⟩)
    · rw [if_neg target] at marked
      exact .inl marked

/-- An invalidation of the session is a newer one. -/
theorem fenceRely_fenceSession :
    FenceRely other (fenceView server) (fenceView (fenceSession server).2) := by
  have newer : invalidationVersion server.sessionInvalidation <
      invalidationVersion (fenceSession server).2.sessionInvalidation := Nat.lt_succ_self _
  exact ⟨rfl, fun _ member _ => member, fun _ => .inl rfl, .inr newer,
    fun _ => .inr (.inl ((Advances.ne_iff (.inr newer)).mpr newer))⟩

end Steps

/-! ### Parts of the handlers -/

section Parts

variable {own : FenceView → FenceView → Prop} {task : TaskId}
  {allows : ServerState P → Call → Event P → Prop}

theorem update_fences {update : ServerState P → α × ServerState P}
    (others : ∀ server other, other ≠ task →
      FenceRely other (fenceView server) (fenceView (update server).2))
    (bounded : ∀ server, own (fenceView server) (fenceView (update server).2)) :
    Preserves (serverFences P own) allows task (AnyFence own)
      (modifyGet update : ServerProgram P α) :=
  .modifyGet fun ghost server _ => ⟨ghost, ⟨others server, bounded server⟩, trivial, trivial⟩

variable (idle : ∀ view, own view view)

include idle

theorem standing_fences {calls : Call → Prop} :
    Standing (fenceProtocol own) calls task fun _ _ => True where
  idle _ view := ⟨fun other _ => .refl other view, idle view⟩
  stable _ _ := id
  parked _ _ := trivial

theorem query_fences : Queries (serverFences P own) allows task (AnyFence own) :=
  silent_query (standing_fences idle)

theorem send_fences : Sends (serverFences P own) allows task (AnyFence own) :=
  silent_send (standing_fences idle) (fun _ _ _ => rfl) (fun _ _ => rfl) fun _ _ _ => rfl

theorem close_fences : Closes (serverFences P own) allows task (AnyFence own) :=
  silent_close (standing_fences idle) fun _ _ _ _ => rfl

theorem manager_fences {program : Program P α} (awaits : program.Awaits Working) :
    Preserves (serverFences P own) allows task (AnyFence own) (onManager program) :=
  silent_onManager (standing_fences idle) (fun _ _ => rfl) awaits

theorem operation_fences {call : Call} (working : Working call)
    {effect : ServerState P → ServerState P}
    (same : ∀ server, fenceView (effect server) = fenceView server) :
    Preserves (serverFences P own) allows task (AnyFence own) (operation call effect) :=
  silent_operation (standing_fences idle) working same

theorem modify_fences {update : ServerState P → α × ServerState P}
    (same : ∀ server, fenceView (update server).2 = fenceView server) :
    Preserves (serverFences P own) allows task (AnyFence own)
      (modifyGet update : ServerProgram P α) :=
  Standing.modifyGet (standing_fences idle : Standing _ Working task _) same

theorem atomic_fences {method : ServerState P → Except Exn α × ServerState P}
    (same : ∀ server, fenceView (method server).2 = fenceView server) :
    Preserves (serverFences P own) allows task (AnyFence own) (Coroutine.atomic method) :=
  Standing.atomic (standing_fences idle : Standing _ Working task _) same

theorem withRoomLock_fences {body : ServerProgram P α}
    (holds : Preserves (serverFences P own) allows task (AnyFence own) body) :
    Preserves (serverFences P own) allows task (AnyFence own) (withRoomLock task body) := by
  refine .bind (Standing.awaitUntil (standing_fences idle : Standing _ Working task _)
    (by decide) ?_) fun _ => .tryFinally holds (modify_fences idle fun _ => rfl)
  intro server value server' taken
  unfold acquireRoomLock at taken
  split at taken
  · cases taken
  · obtain ⟨-, rfl⟩ := Prod.mk.inj (Option.some.inj taken)
    rfl

private theorem lifecycle_fences {body : Bool → ServerProgram P α}
    (holds : ∀ hasConnections,
      Preserves (serverFences P own) allows task (AnyFence own) (body hasConnections)) :
    Preserves (serverFences P own) allows task (AnyFence own) (documentRoomLifecycle task body) :=
  withRoomLock_fences idle (.bind .get fun _ => holds _)

theorem tryCheckpointAndRemove_fences :
    Preserves (serverFences P own) allows task (AnyFence own) (tryCheckpointAndRemove task) :=
  .tryExcept (.bind (manager_fences idle (checkpointAndRemove_awaits task)) fun _ => .pure _)
    fun _ => .pure _

private theorem tryCheckpoint_fences (hasConnections : Bool) :
    Preserves (serverFences P own) allows task (AnyFence own) (tryCheckpoint task hasConnections) := by
  unfold tryCheckpoint
  split
  · exact .tryExcept (.bind (manager_fences idle (checkpointToRedis_awaits task)) fun _ => .pure _)
      fun _ => .pure _
  · exact tryCheckpointAndRemove_fences idle

end Parts

/-! ### The HTTP endpoints -/

section Endpoints

variable {task : TaskId} {allows : ServerState P → Call → Event P → Prop}

/-- No bound on the own steps is kept by every step. -/
theorem idle_anyStep (view : FenceView) : anyStep view view := trivial

theorem saveSessionDocument_fences (credentials : Option UserId) (documentState : P.Bytes) :
    Preserves (serverFences P anyStep) allows task (AnyFence anyStep)
      (saveSessionDocument credentials documentState task) := by
  unfold saveSessionDocument
  refine .bind (roleChecker_preserves (query_fences idle_anyStep) _ _) fun user => ?_
  split
  · exact .throw _
  · refine .bind (checkSize_preserves _ _) fun _ => ?_
    refine .bind (lifecycle_fences idle_anyStep fun hasConnections => ?_) fun result => ?_
    · refine .bind (requireCurrentEditor_preserves (query_fences idle_anyStep) _) fun _ => ?_
      refine .bind (manager_fences idle_anyStep (loadFromStorage_awaits task)) fun ref => ?_
      refine .bind (.tryExcept (atomic_fences idle_anyStep fun _ => rfl) fun _ => .throw _)
        fun _ => ?_
      refine .bind (manager_fences idle_anyStep (persistToDb_awaits task)) fun result => ?_
      exact .bind (tryCheckpoint_fences idle_anyStep _) fun _ => .pure _
    · refine .bind (broadcastBinary_preserves (send_fences idle_anyStep) _ _) fun _ => ?_
      exact broadcastBinary_preserves (send_fences idle_anyStep) _ _

theorem createSnapshotEndpoint_fences (credentials : Option UserId) :
    Preserves (serverFences P anyStep) allows task (AnyFence anyStep)
      (createSnapshotEndpoint credentials task) := by
  unfold createSnapshotEndpoint
  refine .bind (roleChecker_preserves (query_fences idle_anyStep) _ _) fun user => ?_
  refine lifecycle_fences idle_anyStep fun hasConnections => ?_
  refine .bind (requireCurrentEditor_preserves (query_fences idle_anyStep) _) fun _ => ?_
  refine .bind (manager_fences idle_anyStep (loadFromStorage_awaits task)) fun ref => ?_
  refine .bind (atomic_fences idle_anyStep fun _ => rfl) fun documentState => ?_
  refine .bind (checkSize_preserves _ _) fun _ => ?_
  have inserted : ∀ (server after : ServerState P), insertSnapshot documentState server = some after →
      fenceView after = fenceView server := by
    intro server after effect
    obtain rfl := Option.some.inj effect
    rfl
  refine .bind (silent_commit (standing_fences idle_anyStep) inserted) fun _ => ?_
  have working : Working .databaseRefresh := by decide
  refine .bind (operation_fences idle_anyStep working fun _ => rfl) fun _ => ?_
  split
  · exact .pure _
  · exact tryCheckpointAndRemove_fences idle_anyStep

theorem restoreSnapshotEndpoint_fences (credentials : Option UserId) (snapshotId : Nat) :
    Preserves (serverFences P anyStep) allows task (AnyFence anyStep)
      (restoreSnapshotEndpoint credentials snapshotId task) := by
  unfold restoreSnapshotEndpoint
  refine .bind (roleChecker_preserves (query_fences idle_anyStep) _ _) fun user => ?_
  refine .bind (lifecycle_fences idle_anyStep fun hasConnections => ?_) fun update => ?_
  · refine .bind (requireCurrentEditor_preserves (query_fences idle_anyStep) _) fun _ => ?_
    refine .bind (query_fences idle_anyStep _ _) fun answer => ?_
    split
    · exact .throw _
    · refine .bind (checkSize_preserves _ _) fun _ => ?_
      refine .bind (manager_fences idle_anyStep (loadFromStorage_awaits task)) fun ref => ?_
      refine .bind (.tryExcept (atomic_fences idle_anyStep fun _ => rfl) fun _ => .throw _)
        fun update => ?_
      exact .bind (tryCheckpoint_fences idle_anyStep _) fun _ => .pure _
  · split
    · exact .pure _
    · exact broadcastBinary_preserves (send_fences idle_anyStep) _ _

theorem runDocument_fences (credentials : Option UserId) :
    Preserves (serverFences P anyStep) allows task (AnyFence anyStep)
      (runDocument credentials task) := by
  unfold runDocument
  refine .bind (roleChecker_preserves (query_fences idle_anyStep) _ _) fun user => ?_
  refine lifecycle_fences idle_anyStep fun hasConnections => ?_
  refine .bind (requireCurrentEditor_preserves (query_fences idle_anyStep) _) fun _ => ?_
  refine .bind (getSession_preserves (query_fences idle_anyStep) _) fun answer => ?_
  split
  · exact .throw _
  · refine .bind (manager_fences idle_anyStep (loadFromStorage_awaits task)) fun ref => ?_
    refine .bind .get fun server => ?_
    dsimp only
    split
    · exact .pure _
    · exact .bind (tryCheckpointAndRemove_fences idle_anyStep) fun _ => .pure _

theorem maintainDocumentCheckpoint_fences :
    Preserves (serverFences P anyStep) allows task (AnyFence anyStep)
      (maintainDocumentCheckpoint task) := by
  unfold maintainDocumentCheckpoint
  refine .bind (withRoomLock_fences idle_anyStep (.bind .get fun server => ?_)) fun active => ?_
  · split
    · exact .bind (manager_fences idle_anyStep (checkpointAndRemove_awaits task)) fun _ => .pure _
    · exact .pure _
  · split
    · exact .bind (manager_fences idle_anyStep (checkpointToRedis_awaits task)) fun _ => .pure _
    · exact .pure _

private theorem fenceMember_fences (userId : UserId) (code : Nat) (reason : String) :
    Preserves (serverFences P anyStep) allows task (AnyFence anyStep)
      (modifyGet (fenceMember userId code reason) : ServerProgram P (List WebSocket)) :=
  update_fences (fun _ _ _ => fenceRely_fenceMember _ _ _) fun _ => trivial

private theorem fenceSession_fences :
    Preserves (serverFences P anyStep) allows task (AnyFence anyStep)
      (modifyGet fenceSession : ServerProgram P (List WebSocket)) :=
  update_fences (fun _ _ _ => fenceRely_fenceSession) fun _ => trivial

/-- A commit that changes what PostgreSQL holds and nothing else. -/
theorem commit_fences {effect : ServerState P → Option (ServerState P)}
    (rows : ∀ server after, effect server = some after →
      ∃ store database, after = { server with store := store, database := database }) :
    Preserves (serverFences P anyStep) allows task (AnyFence anyStep) (commit effect) := by
  refine silent_commit (standing_fences idle_anyStep) ?_
  intro server after effected
  obtain ⟨store, database, rfl⟩ := rows server after effected
  rfl

private theorem refresh_fences :
    Preserves (serverFences P anyStep) allows task (AnyFence anyStep) refresh :=
  operation_fences idle_anyStep (by decide) fun _ => rfl

theorem addMemberEndpoint_fences (credentials : Option UserId) (key : MemberKey)
    (role : RoleEnum) :
    Preserves (serverFences P anyStep) allows task (AnyFence anyStep)
      (addMemberEndpoint credentials key role task) := by
  unfold addMemberEndpoint
  refine .bind (roleChecker_preserves (query_fences idle_anyStep) _ _) fun owner => ?_
  refine .bind (resolveMemberUserId_preserves (query_fences idle_anyStep) _) fun userId => ?_
  refine translateErrors_preserves
    (addMember_preserves (query_fences idle_anyStep) _ _ _ (commit_fences ?_) refresh_fences)
  intro server after effected
  unfold insertMember at effected
  split at effected
  · cases effected
  · exact ⟨_, _, (Option.some.inj effected).symm⟩

theorem updateMemberRoleEndpoint_fences (credentials : Option UserId) (userId : UserId)
    (role : RoleEnum) :
    Preserves (serverFences P anyStep) allows task (AnyFence anyStep)
      (updateMemberRoleEndpoint credentials userId role task) := by
  unfold updateMemberRoleEndpoint
  refine .bind (roleChecker_preserves (query_fences idle_anyStep) _ _) fun owner => ?_
  refine lifecycle_fences idle_anyStep fun _ => ?_
  refine .bind (translateErrors_preserves (Attempts.preserves ?_)) fun _ => ?_
  · refine updateMemberRole_attempts (query_fences idle_anyStep) _ _ _ (fun _ _ => id)
      (commit_fences ?_).attempts refresh_fences.attempts
    intro server after effected
    unfold setRole at effected
    split at effected
    · cases effected
    · exact ⟨_, _, (Option.some.inj effected).symm⟩
  · exact invalidateMemberConnections_preserves (close_fences idle_anyStep) _ _ _
      (fenceMember_fences _ _ _)

theorem removeMemberEndpoint_fences (credentials : Option UserId) (userId : UserId) :
    Preserves (serverFences P anyStep) allows task (AnyFence anyStep)
      (removeMemberEndpoint credentials userId task) := by
  unfold removeMemberEndpoint
  refine .bind (roleChecker_preserves (query_fences idle_anyStep) _ _) fun owner => ?_
  refine lifecycle_fences idle_anyStep fun _ => ?_
  refine .bind (translateErrors_preserves (Attempts.preserves ?_)) fun _ => ?_
  · refine removeMember_attempts (query_fences idle_anyStep) _ _ (commit_fences ?_).attempts
    exact fun server after effected => ⟨_, _, (Option.some.inj effected).symm⟩
  · exact invalidateMemberConnections_preserves (close_fences idle_anyStep) _ _ _
      (fenceMember_fences _ _ _)

theorem closeSessionEndpoint_fences (credentials : Option UserId) :
    Preserves (serverFences P anyStep) allows task (AnyFence anyStep)
      (closeSessionEndpoint credentials task) := by
  unfold closeSessionEndpoint
  refine .bind (roleChecker_preserves (query_fences idle_anyStep) _ _) fun owner => ?_
  refine lifecycle_fences idle_anyStep fun _ => ?_
  refine .bind (translateErrors_preserves (Attempts.preserves ?_)) fun _ => ?_
  · refine closeSession_attempts (query_fences idle_anyStep) _ (commit_fences ?_).attempts
      refresh_fences.attempts
    exact fun server after effected => ⟨_, _, (Option.some.inj effected).symm⟩
  · exact closeSessionConnections_preserves (close_fences idle_anyStep) fenceSession_fences

end Endpoints

end Concord.Server

import Concord.Server.DeliveryDocuments

/-!
Contract: the HTTP endpoints keep the protocol of the deliveries.

Owns:
- save and restore, which owe their update from the mutation to the broadcast;
- the endpoints that use the document and change nothing in it;
- the membership endpoints, which mark connections in the room.

Does not own: the connections.
-/

set_option autoImplicit false

namespace Concord.Server

open Asyncio Collaboration ServerState Platform

variable {P : Platform} {α β : Type} {task other : TaskId} {debts : Debts P}
  {server : ServerState P} {allows : ServerState P → Call → Event P → Prop}
  {fact : DeliveryView P → Prop} {due : WebSocket → P.Doc}

theorem lockfree_anything : Lockfree (Anything : DeliveryView P → Prop) := fun _ _ _ => trivial

/-- A section of an endpoint under the room lock. -/
theorem wp_lifecycle_deliveries {body : Bool → ServerProgram P α}
    {after : Except Exn α → WebSocket → P.Doc}
    (holds : ∀ connections hasConnections, hasConnections = (!connections.isEmpty) →
      ∀ debts server, Stands task due (Locking task connections Anything) debts server →
        wp (serverDeliveries P) allows task (body hasConnections)
          (fun result => Releasing task (after result) Anything) debts server)
    (knows : Stands task due Anything debts server) :
    wp (serverDeliveries P) allows task (documentRoomLifecycle task body)
      (fun result => Stands task (after result) Anything) debts server := by
  refine wp_withRoomLock_deliveries abiding_anything lockfree_anything
    (fun connections debts server held => ?_) knows
  have same : server.connections = connections := held.2.2.2.1
  rw [wp_bind, wp_get, thenPost_ok]
  exact holds connections _ (by rw [same]) debts server held

private theorem lifecycle_deliveries {body : Bool → ServerProgram P α}
    (holds : ∀ connections hasConnections, hasConnections = (!connections.isEmpty) →
      Preserves (serverDeliveries P) allows task
        (Stands task due (Locking task connections Anything)) (body hasConnections)) :
    Preserves (serverDeliveries P) allows task (Stands task due Anything)
      (documentRoomLifecycle task body) := by
  intro debts server knows
  refine wp_lifecycle_deliveries (fun connections hasConnections accurate debts server held => ?_)
    knows
  exact wp_mono (fun _ _ _ after => Stands.releasing after)
    (holds connections hasConnections accurate debts server held)

/-! ### Documents -/

/-- The part of `save_session_document` under the room lock: the update is owed when it
returns, and nothing when it fails. -/
theorem saveUnderLock_deliveries {documentState : P.Bytes}
    (held : SavesHeld (content (some documentState)) allows) (userId : UserId)
    {connections : List ConnectionInfo} {hasConnections : Bool}
    (accurate : hasConnections = !connections.isEmpty) :
    Attempts (serverDeliveries P) allows task (Stands task ⊥ (Locking task connections Anything))
      (Releasing task (fun _ => content (some documentState)) Anything) (Releasing task ⊥ Anything)
      (saveUnderLock task userId documentState hasConnections) := by
  have locked : Abiding task (Locking task connections (Anything : DeliveryView P → Prop)) :=
    abiding_anything.locking connections
  have fails : ∀ (debts : Debts P) (server : ServerState P),
      Stands task ⊥ (Locking task connections Anything) debts server →
      Releasing task ⊥ Anything debts server := fun _ _ => Stands.releasing
  unfold saveUnderLock
  refine .bind ((requireCurrentEditor_preserves (query_deliveries locked) _).attempts.mono
    (fun _ _ => id) fails) fun _ => ?_
  refine .bind ((load_locked abiding_anything connections).attempts.mono (fun _ _ => id) fails)
    fun _ => ?_
  have applied : Attempts (serverDeliveries P) allows task
      (Stands task ⊥ (Locking task connections Anything))
      (Stands task (fun _ => content (some documentState)) (Locking task connections Anything))
      (Releasing task ⊥ Anything)
      (Coroutine.atomic (mutate userId (DocStore.applyUpdate documentState))) := by
    intro debts server knows
    refine wp_mono ?_ (wp_mutate_deliveries locked (applyUpdate_adds documentState) knows)
    intro result debts₁ server₁ after
    cases result with
    | ok answer => exact after
    | error exn => exact after.releasing
  refine .bind (.tryExcept_throw applied) fun _ => ?_
  refine .bind (persist_locked abiding_anything connections held) fun result => ?_
  refine .bind ((tryCheckpoint_locked abiding_anything connections accurate).mono
    (fun _ _ => id) fun _ _ => False.elim) fun _ => ?_
  exact .pure _ fun _ _ => Stands.releasing

/-- The part of `restore_snapshot_endpoint` under the room lock: the update that it answers
with is owed when it returns, and nothing when it fails. -/
theorem restoreUnderLock_deliveries (userId : UserId) (snapshotId : Nat)
    {connections : List ConnectionInfo} {hasConnections : Bool}
    (accurate : hasConnections = !connections.isEmpty)
    (knows : Stands task ⊥ (Locking task connections Anything) debts server) :
    wp (serverDeliveries P) allows task (restoreUnderLock task userId snapshotId hasConnections)
      (fun result => Releasing task (owedAfter restored result) Anything) debts server := by
  have locked : Abiding task (Locking task connections (Anything : DeliveryView P → Prop)) :=
    abiding_anything.locking connections
  unfold restoreUnderLock
  refine (requireCurrentEditor_preserves (query_deliveries locked) userId).bind_wp
    (fun _ _ _ => Stands.releasing) (fun _ debts₁ server₁ before => ?_) knows
  refine (query_deliveries locked _ _).bind_wp (fun _ _ _ => Stands.releasing)
    (fun answer debts₂ server₂ before => ?_) before
  split
  · exact before.releasing
  · next snapshot =>
      refine (checkSize_preserves _ _).bind_wp (fun _ _ _ => Stands.releasing)
        (fun _ debts₃ server₃ before => ?_) before
      refine (load_locked abiding_anything connections).bind_wp (fun _ _ _ => Stands.releasing)
        (fun _ debts₄ server₄ before => ?_) before
      rw [wp_bind, wp_tryExcept]
      refine wp_mono ?_
        (wp_mutate_deliveries locked (restoreTextFromState_adds snapshot.documentState) before)
      intro result debts₅ server₅ after
      cases result with
      | error exn => exact after.releasing
      | ok update =>
          rw [handlerPost_ok, thenPost_ok, wp_bind]
          refine wp_mono ?_
            (tryCheckpoint_locked abiding_anything connections accurate debts₅ server₅ after)
          intro result debts₆ server₆ checkpointed
          cases result with
          | error exn => exact checkpointed.elim
          | ok _ => exact checkpointed.releasing

/-- An endpoint whose section under the room lock owes an update when it returns, and which
pays it off afterwards. -/
theorem wp_owing_deliveries {body : Bool → ServerProgram P α} {added : α → P.Doc}
    (holds : ∀ connections hasConnections, hasConnections = (!connections.isEmpty) →
      ∀ debts server, Stands task ⊥ (Locking task connections Anything) debts server →
        wp (serverDeliveries P) allows task (body hasConnections)
          (fun result => Releasing task (owedAfter added result) Anything) debts server)
    {rest : α → ServerProgram P β}
    (pays : ∀ answer debts server, Stands task (fun _ => added answer) Anything debts server →
      wp (serverDeliveries P) allows task (rest answer) (fun _ => Stands task ⊥ Anything) debts
        server) :
    Preserves (serverDeliveries P) allows task (Stands task ⊥ Anything)
      (documentRoomLifecycle task body >>= rest) := by
  intro debts server knows
  rw [wp_bind]
  refine wp_mono ?_ (wp_lifecycle_deliveries holds knows)
  intro result debts₁ server₁ after
  cases result with
  | ok answer => exact pays answer debts₁ server₁ after
  | error exn => exact after

theorem saveSessionDocument_deliveries (succeed : SendsSucceed allows) {documentState : P.Bytes}
    (held : SavesHeld (content (some documentState)) allows) (credentials : Option UserId) :
    Preserves (serverDeliveries P) allows task (Stands task ⊥ Anything)
      (saveSessionDocument credentials documentState task) := by
  unfold saveSessionDocument
  refine .bind (roleChecker_preserves (query_deliveries abiding_anything) _ _) fun user => ?_
  split
  · exact .throw _
  · refine .bind (checkSize_preserves _ _) fun _ => ?_
    let added : DocumentSaveResult P → P.Doc := fun _ => content (some documentState)
    refine @wp_owing_deliveries _ _ _ _ _ _ added
      (fun connections hasConnections accurate debts server locked => ?_) _
      fun result debts server owes => ?_
    · refine wp_mono ?_ (saveUnderLock_deliveries held user.userId accurate debts server locked)
      intro result debts₁ server₁ after
      cases result <;> exact after
    · rw [wp_bind]
      refine wp_mono ?_ (broadcastBinary_deliveries abiding_anything succeed id owes)
      intro answer debts₁ server₁ after
      cases answer with
      | error exn => exact after
      | ok _ => exact broadcastBinary_silent abiding_anything succeed rfl debts₁ server₁ after

theorem restoreSnapshotEndpoint_deliveries (succeed : SendsSucceed allows)
    (credentials : Option UserId) (snapshotId : Nat) :
    Preserves (serverDeliveries P) allows task (Stands task ⊥ Anything)
      (restoreSnapshotEndpoint credentials snapshotId task) := by
  unfold restoreSnapshotEndpoint
  refine .bind (roleChecker_preserves (query_deliveries abiding_anything) _ _) fun user => ?_
  refine @wp_owing_deliveries _ _ _ _ _ _ restored
    (fun connections hasConnections accurate debts server locked => ?_) _
    fun update debts server owes => ?_
  · exact restoreUnderLock_deliveries user.userId snapshotId accurate locked
  · unfold restored at owes
    split
    · next empty =>
        rw [if_pos empty] at owes
        exact owes
    · next nonempty =>
        rw [if_neg nonempty] at owes
        exact broadcastBinary_deliveries abiding_anything succeed id owes

/-- A checkpoint and eviction where the room is empty. -/
theorem tryCheckpointAndRemove_deliveries :
    Preserves (serverDeliveries P) allows task (Stands task due (Locking task [] Anything))
      (tryCheckpointAndRemove task) :=
  .tryExcept (.bind (manager_empty abiding_anything (checkpointAndRemove_awaits task))
    fun _ => .pure _) fun _ => .pure _

private theorem encode_deliveries (abiding : Abiding task fact) :
    Preserves (serverDeliveries P) allows task (Stands task due fact)
      (Coroutine.atomic (onStore (DocStore.encodeStateAsUpdate none))) :=
  deliveries_of_view ((abiding.standing due).atomic fun server =>
    deliveryView_putStore (encodeStateAsUpdate_content none server.store))

theorem createSnapshotEndpoint_deliveries (credentials : Option UserId) :
    Preserves (serverDeliveries P) allows task (Stands task ⊥ Anything)
      (createSnapshotEndpoint credentials task) := by
  unfold createSnapshotEndpoint
  refine .bind (roleChecker_preserves (query_deliveries abiding_anything) _ _) fun user => ?_
  refine lifecycle_deliveries fun connections hasConnections accurate => ?_
  have locked : Abiding task (Locking task connections (Anything : DeliveryView P → Prop)) :=
    abiding_anything.locking connections
  refine .bind (requireCurrentEditor_preserves (query_deliveries locked) _) fun _ => ?_
  refine .bind (load_locked abiding_anything connections) fun _ => ?_
  refine .bind (encode_deliveries locked) fun documentState => ?_
  refine .bind (checkSize_preserves _ _) fun _ => ?_
  refine .bind (commit_deliveries locked fun server after effect => ?_) fun _ => ?_
  · obtain rfl := Option.some.inj effect
    rfl
  refine .bind (operation_deliveries locked (by decide) fun _ => rfl) fun _ => ?_
  split
  · exact .pure _
  · next alone =>
      obtain rfl : connections = [] := by simpa [accurate] using alone
      exact tryCheckpointAndRemove_deliveries

theorem runDocument_deliveries (credentials : Option UserId) :
    Preserves (serverDeliveries P) allows task (Stands task ⊥ Anything)
      (runDocument credentials task) := by
  unfold runDocument
  refine .bind (roleChecker_preserves (query_deliveries abiding_anything) _ _) fun user => ?_
  refine lifecycle_deliveries fun connections hasConnections accurate => ?_
  have locked : Abiding task (Locking task connections (Anything : DeliveryView P → Prop)) :=
    abiding_anything.locking connections
  refine .bind (requireCurrentEditor_preserves (query_deliveries locked) _) fun _ => ?_
  refine .bind (getSession_preserves (query_deliveries locked) _) fun answer => ?_
  split
  · exact .throw _
  · refine .bind (load_locked abiding_anything connections) fun _ => .bind .get fun server => ?_
    dsimp only
    split
    · exact .pure _
    · next alone =>
        obtain rfl : connections = [] := by simpa [accurate] using alone
        exact .bind tryCheckpointAndRemove_deliveries fun _ => .pure _

theorem maintainDocumentCheckpoint_deliveries :
    Preserves (serverDeliveries P) allows task (Stands task ⊥ Anything)
      (maintainDocumentCheckpoint task) := by
  unfold maintainDocumentCheckpoint
  refine .bind (withRoomLock_deliveries abiding_anything lockfree_anything fun connections => ?_)
    fun active => ?_
  · intro debts server held
    rw [wp_bind, wp_get, thenPost_ok]
    split
    · next alone =>
        have same : server.connections = connections := held.2.2.2.1
        obtain rfl : connections = [] := by
          rw [← same]
          exact List.isEmpty_iff.mp alone
        exact Preserves.bind (manager_empty abiding_anything (checkpointAndRemove_awaits task))
          (fun _ => .pure _) debts server held
    · exact held
  · split
    · exact .bind (checkpointToRedis_deliveries abiding_anything) fun _ => .pure _
    · exact .pure _

theorem shutdownCheckpoint_deliveries :
    Preserves (serverDeliveries P) allows task (Stands task ⊥ Anything) (shutdownCheckpoint task) :=
  .tryExcept (.bind (checkpointToRedis_deliveries abiding_anything) fun _ => .pure _)
    fun _ => .pure _

/-! ### Memberships -/

/-- Marks on connections, each with its fence on the wire. -/
theorem Stands.fence (abiding : Abiding task fact) (fenced : List WebSocket)
    {revoked : WebSocket → Option (Nat × String)}
    (marks : ∀ websocket, revoked websocket ≠ none →
      websocket ∈ fenced ∨ server.revokedConnections websocket ≠ none)
    (knows : Stands task due fact debts server) :
    (∀ other, ViewRely other (deliveryView server) (deliveryView { server with
        revokedConnections := revoked
        wire := fenced.map .fenced ++ server.wire })) ∧
      Stands task due fact debts { server with
        revokedConnections := revoked
        wire := fenced.map .fenced ++ server.wire } := by
  have answered : ∀ websocket, Answered websocket { server with
      revokedConnections := revoked
      wire := fenced.map .fenced ++ server.wire } ↔ Answered websocket server := by
    refine fun websocket => exists_congr fun update => List.mem_append.trans (or_iff_right ?_)
    intro member
    obtain ⟨_, _, impossible⟩ := List.mem_map.mp member
    cases impossible
  have rely : ∀ other, ViewRely other (deliveryView server) (deliveryView { server with
      revokedConnections := revoked
      wire := fenced.map .fenced ++ server.wire }) :=
    fun other => ⟨fun held => ⟨held, rfl⟩, answered other, le_rfl⟩
  refine ⟨rely, Stands.step abiding knows (knows.1.narrow ?_ ?_ rfl rfl ?_) (rely task)⟩
  · rintro websocket ⟨member, unfenced⟩ _
    exact ⟨member, fun marked => unfenced (List.mem_append_right _ marked)⟩
  · exact funext fun websocket => propext (answered websocket)
  · intro websocket marked
    rcases marks websocket marked with new | old
    · exact List.mem_append_left _ (List.mem_map_of_mem new)
    · exact List.mem_append_right _ (knows.1.marked websocket old)

private theorem revokeConnections_deliveries (abiding : Abiding task fact)
    (selected : ConnectionInfo → Bool) (failure : Nat × String)
    (knows : Stands task due fact debts server) :
    (∀ other, ViewRely other (deliveryView server)
        (deliveryView (server.revokeConnections selected failure))) ∧
      Stands task due fact debts (server.revokeConnections selected failure) := by
  let targets := server.connections.filter selected
  have after : server.revokeConnections selected failure = { server with
      revokedConnections := fun websocket =>
        if targets.any (·.websocket = websocket) then some failure
        else server.revokedConnections websocket
      wire := (targets.map (·.websocket)).map .fenced ++ server.wire } := by
    simp only [revokeConnections, targets, List.map_map]
    rfl
  rw [after]
  refine knows.fence abiding _ fun websocket marked => ?_
  by_cases found : targets.any (·.websocket = websocket) = true
  · obtain ⟨connection, target, own⟩ := List.any_eq_true.mp found
    exact .inl (List.mem_map.mpr ⟨connection, target, of_decide_eq_true own⟩)
  · rw [if_neg found] at marked
    exact .inr marked

private theorem fenceMember_deliveries (abiding : Abiding task fact) (userId : UserId) (code : Nat)
    (reason : String) :
    Preserves (serverDeliveries P) allows task (Stands task due fact)
      (modifyGet (fenceMember userId code reason) : ServerProgram P (List WebSocket)) :=
  .modifyGet fun debts server knows => by
    obtain ⟨rely, after⟩ := revokeConnections_deliveries abiding (·.userId = userId)
      (code, reason) knows
    exact ⟨debts, fun other _ => ⟨rely other, rfl⟩, after⟩

private theorem fenceSession_deliveries (abiding : Abiding task fact) :
    Preserves (serverDeliveries P) allows task (Stands task due fact)
      (modifyGet fenceSession : ServerProgram P (List WebSocket)) :=
  .modifyGet fun debts server knows => by
    obtain ⟨rely, after⟩ := revokeConnections_deliveries abiding (fun _ => true)
      (wsSessionClosed, "Session is closed") knows
    exact ⟨debts, fun other _ => ⟨rely other, rfl⟩, after⟩

private theorem refresh_deliveries (abiding : Abiding task fact) :
    Preserves (serverDeliveries P) allows task (Stands task due fact) refresh :=
  operation_deliveries abiding (by decide) fun _ => rfl

theorem addMemberEndpoint_deliveries (credentials : Option UserId) (key : MemberKey)
    (role : RoleEnum) :
    Preserves (serverDeliveries P) allows task (Stands task ⊥ Anything)
      (addMemberEndpoint credentials key role task) := by
  have queries : Queries (serverDeliveries P) allows task (Stands task ⊥ Anything) :=
    query_deliveries abiding_anything
  unfold addMemberEndpoint
  refine .bind (roleChecker_preserves queries _ _) fun owner => ?_
  refine .bind (resolveMemberUserId_preserves queries _) fun userId => ?_
  exact translateErrors_preserves (addMember_preserves queries _ _ _
    (commit_deliveries abiding_anything (insertMember_view fun _ _ _ => rfl))
    (refresh_deliveries abiding_anything))

theorem updateMemberRoleEndpoint_deliveries (credentials : Option UserId) (userId : UserId)
    (role : RoleEnum) :
    Preserves (serverDeliveries P) allows task (Stands task ⊥ Anything)
      (updateMemberRoleEndpoint credentials userId role task) := by
  unfold updateMemberRoleEndpoint
  refine .bind (roleChecker_preserves (query_deliveries abiding_anything) _ _) fun owner => ?_
  refine lifecycle_deliveries fun connections _ _ => ?_
  have locked : Abiding task (Locking task connections (Anything : DeliveryView P → Prop)) :=
    abiding_anything.locking connections
  refine .bind (translateErrors_preserves (Attempts.preserves ?_)) fun _ => ?_
  · exact updateMemberRole_attempts (query_deliveries locked) _ _ _ (fun _ _ => id)
      (commit_deliveries locked (setRole_view fun _ _ _ => rfl)).attempts
      (refresh_deliveries locked).attempts
  · exact invalidateMemberConnections_preserves (close_deliveries locked) _ _ _
      (fenceMember_deliveries locked _ _ _)

theorem removeMemberEndpoint_deliveries (credentials : Option UserId) (userId : UserId) :
    Preserves (serverDeliveries P) allows task (Stands task ⊥ Anything)
      (removeMemberEndpoint credentials userId task) := by
  unfold removeMemberEndpoint
  refine .bind (roleChecker_preserves (query_deliveries abiding_anything) _ _) fun owner => ?_
  refine lifecycle_deliveries fun connections _ _ => ?_
  have locked : Abiding task (Locking task connections (Anything : DeliveryView P → Prop)) :=
    abiding_anything.locking connections
  refine .bind (translateErrors_preserves (Attempts.preserves ?_)) fun _ => ?_
  · exact removeMember_attempts (query_deliveries locked) _ _
      (commit_deliveries locked (deleteMember_view fun _ _ _ => rfl)).attempts
  · exact invalidateMemberConnections_preserves (close_deliveries locked) _ _ _
      (fenceMember_deliveries locked _ _ _)

theorem closeSessionEndpoint_deliveries (credentials : Option UserId) :
    Preserves (serverDeliveries P) allows task (Stands task ⊥ Anything)
      (closeSessionEndpoint credentials task) := by
  unfold closeSessionEndpoint
  refine .bind (roleChecker_preserves (query_deliveries abiding_anything) _ _) fun owner => ?_
  refine lifecycle_deliveries fun connections _ _ => ?_
  have locked : Abiding task (Locking task connections (Anything : DeliveryView P → Prop)) :=
    abiding_anything.locking connections
  refine .bind (translateErrors_preserves (Attempts.preserves ?_)) fun _ => ?_
  · exact closeSession_attempts (query_deliveries locked) _
      (commit_deliveries locked (deactivate_view fun _ _ _ => rfl)).attempts
      (refresh_deliveries locked).attempts
  · exact closeSessionConnections_preserves (close_deliveries locked)
      (fenceSession_deliveries locked)

end Concord.Server

import Concord.Server.RoomProtocol
import Concord.Server.System

/-!
Contract: every handler of the server keeps the protocol of the room.

Owns:
- the document under the room lock: loading, mutation, checkpoint, eviction;
- the connection: joining, greeting, the receive loop and leaving;
- the HTTP endpoints and the maintenance;
- the invariant of the room in every run of the server.

Does not own: what the invariant says to a user of the server.
-/

set_option autoImplicit false

namespace Concord.Server

open Asyncio Collaboration ServerState

variable {P : Platform} {α : Type} {recoverable : Prop} {task : TaskId}
  {users users' : GuardUsers} {server server' : ServerState P}
  {allows : ServerState P → Call → Event P → Prop}

theorem At.weaken {fact weaker : ServerState P → Prop} (implied : ∀ server, fact server → weaker server)
    (at_ : At recoverable task fact users server) : At recoverable task weaker users server :=
  ⟨at_.inv, at_.outside, implied server at_.fact⟩

/-! ### The document under the room lock -/

section Document

variable (readable : ServerReadable recoverable allows) {rooms : Option (List ConnectionInfo)}

include readable

/-- A load under the room lock: a document is in memory once it has returned. -/
theorem loadFromStorage_room (before : At recoverable task (LockHeld task rooms) users server) :
    wp (roomProtocol P recoverable) allows task (onManager (loadFromStorage task))
      (fun result users server => At recoverable task (LockHeld task rooms) users server ∧
        ∀ ref, result = .ok ref → At recoverable task (DocumentHeld task rooms) users server)
      users server := by
  have loaded : wp (protocol P recoverable False False) (managerAllows allows) task
      (loadFromStorage task) (fun result users store =>
        (Inv recoverable users store ∧ task ∉ users) ∧ Published result store)
      users server.store :=
    wp_mono (fun _ _ _ holds => ⟨⟨holds.1, holds.2.1⟩, holds.2.2⟩)
      (loadFromStorage_spec readable.manager before.inv.manager before.outside)
  refine wp_mono ?_
    (wp_onManager Published (embeds_retaining (roomFact_lockHeld rooms)) loaded before)
  intro result users₁ server₁ holds
  have after := holds.1
  refine ⟨after, ?_⟩
  intro ref answer
  have published := holds.2
  rw [answer] at published
  have present : server₁.store.docs ≠ none := by
    rw [published]
    exact Option.some_ne_none ref
  exact ⟨after.inv, after.outside, after.fact, present⟩

private theorem persistToDb_room {fact : ServerState P → Prop}
    (kept : RoomFact recoverable task fact) :
    Preserves (roomProtocol P recoverable) allows task (At recoverable task fact)
      (onManager (persistToDb task)) :=
  preserves_onManager (embeds_retaining kept) fun _ _ inv outside =>
    persistToDb_spec readable.manager inv outside

end Document

private theorem checkpointToRedis_room {fact : ServerState P → Prop}
    (kept : RoomFact recoverable task fact) :
    Preserves (roomProtocol P recoverable) allows task (At recoverable task fact)
      (onManager (checkpointToRedis task)) :=
  preserves_onManager (embeds_retaining kept) fun _ _ inv outside =>
    checkpointToRedis_spec inv outside

/-- The document of an empty room may leave memory. -/
theorem checkpointAndRemove_room {rooms : Option (List ConnectionInfo)}
    (empty : rooms.getD [] = []) :
    Preserves (roomProtocol P recoverable) allows task (At recoverable task (LockHeld task rooms))
      (onManager (checkpointAndRemove task)) :=
  preserves_onManager (embeds_evicting empty) fun _ _ inv outside =>
    checkpointAndRemove_spec trivial inv outside

/-- The checkpoint after a use of the document under the room lock. -/
theorem tryCheckpointAndRemove_room {rooms : Option (List ConnectionInfo)}
    (empty : rooms.getD [] = []) :
    Preserves (roomProtocol P recoverable) allows task (At recoverable task (LockHeld task rooms))
      (tryCheckpointAndRemove task) :=
  .tryExcept (.bind (checkpointAndRemove_room empty) fun _ => .pure _) fun _ => .pure _

theorem tryCheckpoint_room {rooms : Option (List ConnectionInfo)} {hasConnections : Bool}
    (accurate : hasConnections = !(rooms.getD []).isEmpty) :
    Preserves (roomProtocol P recoverable) allows task (At recoverable task (LockHeld task rooms))
      (tryCheckpoint task hasConnections) := by
  unfold tryCheckpoint
  split
  · exact .tryExcept (.bind (checkpointToRedis_room (roomFact_lockHeld rooms)) fun _ => .pure _)
      fun _ => .pure _
  · next noConnection =>
      apply tryCheckpointAndRemove_room
      simpa [accurate] using noConnection

/-! ### Synchronous methods on a document in memory -/

private theorem applyUpdate_accesses {store : DocStore P} (present : store.docs ≠ none)
    (update : P.Bytes) :
    (store.applyUpdate update).2.unloadedAccesses = store.unloadedAccesses := by
  obtain ⟨ref, current⟩ := Option.ne_none_iff_exists'.mp present
  unfold DocStore.applyUpdate
  rw [getOrCreate_of_present current]
  dsimp only
  split <;> rfl

private theorem restoreTextFromState_accesses {store : DocStore P} (present : store.docs ≠ none)
    (state : P.Bytes) :
    (store.restoreTextFromState state).2.unloadedAccesses = store.unloadedAccesses := by
  obtain ⟨ref, current⟩ := Option.ne_none_iff_exists'.mp present
  unfold DocStore.restoreTextFromState
  rw [getOrCreate_of_present current]
  dsimp only
  split
  · rfl
  · split <;> split <;> rfl

private theorem getStateVector_of_present {store : DocStore P} (present : store.docs ≠ none) :
    store.getStateVector.2 = store := by
  obtain ⟨ref, current⟩ := Option.ne_none_iff_exists'.mp present
  unfold DocStore.getStateVector
  rw [getOrCreate_of_present current]

private theorem encodeStateAsUpdate_of_present {store : DocStore P} (present : store.docs ≠ none)
    (stateVector : Option P.Bytes) : (store.encodeStateAsUpdate stateVector).2 = store := by
  obtain ⟨ref, current⟩ := Option.ne_none_iff_exists'.mp present
  unfold DocStore.encodeStateAsUpdate
  rw [getOrCreate_of_present current]
  dsimp only
  split
  · rfl
  · split <;> rfl

/-- A method of the manager that is a mutation: it keeps the protocol, and meets
the document in memory. -/
structure MutatingMethod (P : Platform) {α : Type}
    (method : DocStore P → Except Exn α × DocStore P) : Prop where
  step : ∀ {recoverable : Prop} {users : GuardUsers} {store : DocStore P},
    Inv recoverable users store → SyncStep recoverable False True users store (method store).2
  accesses : ∀ {store : DocStore P}, store.docs ≠ none →
    (method store).2.unloadedAccesses = store.unloadedAccesses

theorem mutatingMethod_applyUpdate (update : P.Bytes) :
    MutatingMethod P (DocStore.applyUpdate update) :=
  ⟨fun inv => applyUpdate_spec trivial inv update,
    fun present => applyUpdate_accesses present update⟩

private theorem mutatingMethod_restoreTextFromState (state : P.Bytes) :
    MutatingMethod P (DocStore.restoreTextFromState state) :=
  ⟨fun inv => restoreTextFromState_spec trivial inv state,
    fun present => restoreTextFromState_accesses present state⟩

/-- A mutation of a document in memory. -/
theorem mutate_room {fact : ServerState P → Prop} (kept : RoomFact recoverable task fact)
    {method : DocStore P → Except Exn α × DocStore P} (mutating : MutatingMethod P method)
    (userId : UserId) (before : At recoverable task fact users server)
    (present : server.store.docs ≠ none) :
    (∀ other, task ≠ other →
      RoomRely other users server users (server.mutate userId method).2) ∧
      At recoverable task fact users (server.mutate userId method).2 := by
  obtain ⟨rely, after⟩ := room_method kept before (mutating.step before.inv.manager)
    (mutating.accesses present)
  have same : SameRoom (server.onStore method).2 (server.mutate userId method).2 :=
    ⟨rfl, rfl, rfl⟩
  constructor
  · intro other different
    exact (roomProtocol_lawful recoverable).rely_trans (rely other different) (same.rely other)
  · exact after.of_same kept same

private theorem preserves_mutate {rooms : Option (List ConnectionInfo)}
    {method : DocStore P → Except Exn α × DocStore P} (mutating : MutatingMethod P method)
    (userId : UserId) :
    Preserves (roomProtocol P recoverable) allows task
      (At recoverable task (DocumentHeld task rooms))
      (Coroutine.atomic (mutate userId method)) :=
  .atomic fun users _ before => ⟨users,
    mutate_room (roomFact_documentHeld rooms) mutating userId before before.fact.2⟩

/-- A read of a document in memory through `get_or_create`. -/
theorem preserves_read {fact : ServerState P → Prop} (kept : RoomFact recoverable task fact)
    {method : DocStore P → Except Exn α × DocStore P}
    (reads : ∀ store : DocStore P, store.docs ≠ none → (method store).2 = store)
    (present : ∀ {users : GuardUsers} {server : ServerState P},
      At recoverable task fact users server → server.store.docs ≠ none) :
    Preserves (roomProtocol P recoverable) allows task (At recoverable task fact)
      (Coroutine.atomic (onStore method)) := by
  apply Preserves.atomic
  intro users server before
  have same : SameRoom server (server.onStore method).2 :=
    ⟨reads server.store (present before), rfl, rfl⟩
  exact ⟨users, fun other _ => same.rely other, before.of_same kept same⟩

private theorem present_of_inRoom (before : At recoverable task (InRoom task) users server) :
    server.store.docs ≠ none := by
  apply before.inv.present
  intro empty
  rcases before.fact with ⟨connection, member, _⟩
  rw [empty] at member
  cases member

/-! ### Sections under the room lock -/

private theorem preserves_withRoomLock {body : ServerProgram P α}
    (holds : ∀ rooms, Preserves (roomProtocol P recoverable) allows task
      (At recoverable task (LockHeld task rooms)) body) :
    Preserves (roomProtocol P recoverable) allows task (At recoverable task fun _ => True)
      (withRoomLock task body) := by
  intro users server before
  have locked : wp (roomProtocol P recoverable) allows task (withRoomLock task body)
      (fun _ users server => At recoverable task (fun _ => True) users server ∧ True)
      users server := by
    refine wp_withRoomLock roomFact_true (fun _ _ _ => trivial) ?_ before
    intro users₁ server₁ at_ lock
    have held : At recoverable task (LockHeld task server₁.rooms) users₁ server₁ :=
      ⟨at_.inv, at_.outside, lock, rfl⟩
    exact wp_mono (fun _ _ _ after => ⟨after.weaken fun _ fact => fact.1, trivial⟩)
      (holds server₁.rooms users₁ server₁ held)
  exact wp_mono (fun _ _ _ after => after.1) locked

private theorem preserves_documentRoomLifecycle {body : Bool → ServerProgram P α}
    (holds : ∀ rooms : Option (List ConnectionInfo), Preserves (roomProtocol P recoverable) allows
      task (At recoverable task (LockHeld task rooms)) (body (!(rooms.getD []).isEmpty))) :
    Preserves (roomProtocol P recoverable) allows task (At recoverable task fun _ => True)
      (documentRoomLifecycle task body) := by
  apply preserves_withRoomLock
  intro rooms users server before
  rw [wp_bind, wp_get, thenPost_ok]
  have accurate : server.connections = rooms.getD [] := by
    unfold connections
    rw [before.fact.2]
  rw [accurate]
  exact holds rooms users server before

/-- A load under the room lock, and what follows it. -/
theorem preserves_load_bind (readable : ServerReadable recoverable allows)
    {rooms : Option (List ConnectionInfo)} {rest : Ref → ServerProgram P α}
    (later : ∀ ref, Leads (roomProtocol P recoverable) allows task
      (At recoverable task (DocumentHeld task rooms)) (At recoverable task (LockHeld task rooms))
      (rest ref)) :
    Preserves (roomProtocol P recoverable) allows task (At recoverable task (LockHeld task rooms))
      (do rest (← onManager (loadFromStorage task))) := by
  intro users server before
  rw [wp_bind]
  refine wp_mono ?_ (loadFromStorage_room readable before)
  intro result users₁ server₁ holds
  cases result with
  | ok ref => exact later ref users₁ server₁ (holds.2 ref rfl)
  | error exn => exact holds.1

/-- The task has the lock, whether or not it knows of a document. -/
theorem lockHeld_of_documentHeld (rooms : Option (List ConnectionInfo)) (users : GuardUsers)
    (server : ServerState P) (held : At recoverable task (DocumentHeld task rooms) users server) :
    At recoverable task (LockHeld task rooms) users server :=
  held.weaken fun _ fact => fact.1

/-! ### Documents -/

private theorem saveUnderLock_room (readable : ServerReadable recoverable allows)
    {rooms : Option (List ConnectionInfo)} (userId : UserId) (documentState : P.Bytes) :
    Preserves (roomProtocol P recoverable) allows task (At recoverable task (LockHeld task rooms))
      (saveUnderLock task userId documentState (!(rooms.getD []).isEmpty)) := by
  have lock : RoomFact recoverable task (LockHeld task rooms : ServerState P → Prop) :=
    roomFact_lockHeld rooms
  refine .bind (requireCurrentEditor_preserves (preserves_query lock) userId) fun _ => ?_
  apply preserves_load_bind readable
  intro ref
  refine Preserves.bind_leads (.tryExcept
    (preserves_mutate (mutatingMethod_applyUpdate documentState) userId) fun _ => .throw _)
    (lockHeld_of_documentHeld rooms) fun _ => ?_
  apply Leads.of_implied (lockHeld_of_documentHeld rooms)
  refine .bind (persistToDb_room readable lock) fun result => ?_
  exact .bind (tryCheckpoint_room rfl) fun _ => .pure _

private theorem saveSessionDocument_room (readable : ServerReadable recoverable allows)
    (credentials : Option UserId) (documentState : P.Bytes) :
    Preserves (roomProtocol P recoverable) allows task (At recoverable task fun _ => True)
      (saveSessionDocument credentials documentState task) := by
  unfold saveSessionDocument
  refine .bind (roleChecker_preserves (preserves_query roomFact_true) _ _) fun user => ?_
  split
  · exact .throw _
  · refine .bind (checkSize_preserves _ _) fun _ => ?_
    refine .bind (preserves_documentRoomLifecycle fun _ =>
      saveUnderLock_room readable _ _) fun result => ?_
    refine .bind (broadcastBinary_preserves (preserves_send roomFact_true) _ _) fun _ => ?_
    exact broadcastBinary_preserves (preserves_send roomFact_true) _ _

private theorem createSnapshotEndpoint_room (readable : ServerReadable recoverable allows)
    (credentials : Option UserId) :
    Preserves (roomProtocol P recoverable) allows task (At recoverable task fun _ => True)
      (createSnapshotEndpoint credentials task) := by
  unfold createSnapshotEndpoint
  refine .bind (roleChecker_preserves (preserves_query roomFact_true) _ _) fun user => ?_
  apply preserves_documentRoomLifecycle
  intro rooms
  have lock : RoomFact recoverable task (LockHeld task rooms : ServerState P → Prop) :=
    roomFact_lockHeld rooms
  refine .bind (requireCurrentEditor_preserves (preserves_query lock) _) fun _ => ?_
  apply preserves_load_bind readable
  intro ref
  refine Preserves.bind_leads (preserves_read (roomFact_documentHeld rooms)
    (fun _ present => encodeStateAsUpdate_of_present present none) fun held => held.fact.2)
    (lockHeld_of_documentHeld rooms) fun documentState => ?_
  apply Leads.of_implied (lockHeld_of_documentHeld rooms)
  refine .bind (checkSize_preserves _ _) fun _ => ?_
  have inserted : Preserves (roomProtocol P recoverable) allows task
      (At recoverable task (LockHeld task rooms)) (commit (insertSnapshot documentState)) := by
    apply preserves_commit lock
    intro server after effect
    obtain rfl := Option.some.inj effect
    exact ⟨⟨server.store.saved.savedAt, rfl⟩, rfl, rfl⟩
  refine .bind inserted fun _ => ?_
  refine .bind (preserves_operation lock _ SameRoom.refl) fun _ => ?_
  split
  · exact .pure _
  · next noConnection =>
      apply tryCheckpointAndRemove_room
      simpa using noConnection

private theorem restoreUnderLock_room (readable : ServerReadable recoverable allows)
    {rooms : Option (List ConnectionInfo)} (userId : UserId) (snapshotId : Nat) :
    Preserves (roomProtocol P recoverable) allows task (At recoverable task (LockHeld task rooms))
      (restoreUnderLock task userId snapshotId (!(rooms.getD []).isEmpty)) := by
  have lock : RoomFact recoverable task (LockHeld task rooms : ServerState P → Prop) :=
    roomFact_lockHeld rooms
  unfold restoreUnderLock
  refine .bind (requireCurrentEditor_preserves (preserves_query lock) userId) fun _ => ?_
  refine .bind (preserves_query lock _ _) fun answer => ?_
  split
  · exact .throw _
  · next snapshot =>
      refine .bind (checkSize_preserves _ _) fun _ => ?_
      apply preserves_load_bind readable
      intro ref
      refine Preserves.bind_leads (.tryExcept
        (preserves_mutate (mutatingMethod_restoreTextFromState snapshot.documentState) userId)
        fun _ => .throw _) (lockHeld_of_documentHeld rooms) fun update => ?_
      apply Leads.of_implied (lockHeld_of_documentHeld rooms)
      exact .bind (tryCheckpoint_room rfl) fun _ => .pure _

private theorem restoreSnapshotEndpoint_room (readable : ServerReadable recoverable allows)
    (credentials : Option UserId) (snapshotId : Nat) :
    Preserves (roomProtocol P recoverable) allows task (At recoverable task fun _ => True)
      (restoreSnapshotEndpoint credentials snapshotId task) := by
  unfold restoreSnapshotEndpoint
  refine .bind (roleChecker_preserves (preserves_query roomFact_true) _ _) fun user => ?_
  refine .bind (preserves_documentRoomLifecycle fun _ =>
    restoreUnderLock_room readable _ _) fun update => ?_
  split
  · exact .pure _
  · exact broadcastBinary_preserves (preserves_send roomFact_true) _ _

private theorem runDocument_room (readable : ServerReadable recoverable allows)
    (credentials : Option UserId) :
    Preserves (roomProtocol P recoverable) allows task (At recoverable task fun _ => True)
      (runDocument credentials task) := by
  unfold runDocument
  refine .bind (roleChecker_preserves (preserves_query roomFact_true) _ _) fun user => ?_
  apply preserves_documentRoomLifecycle
  intro rooms
  have lock : RoomFact recoverable task (LockHeld task rooms : ServerState P → Prop) :=
    roomFact_lockHeld rooms
  refine .bind (requireCurrentEditor_preserves (preserves_query lock) _) fun _ => ?_
  refine .bind (getSession_preserves (preserves_query lock) _) fun answer => ?_
  split
  · exact .throw _
  · apply preserves_load_bind readable
    intro ref
    apply Leads.of_implied (lockHeld_of_documentHeld rooms)
    refine .bind .get fun server => ?_
    dsimp only
    split
    · exact .pure _
    · next noConnection =>
        refine .bind (tryCheckpointAndRemove_room ?_) fun _ => .pure _
        simpa using noConnection

private theorem maintainDocumentCheckpoint_room :
    Preserves (roomProtocol P recoverable) allows task (At recoverable task fun _ => True)
      (maintainDocumentCheckpoint task) := by
  unfold maintainDocumentCheckpoint
  refine .bind ?_ fun active => ?_
  · apply preserves_withRoomLock
    intro rooms users server before
    rw [wp_bind, wp_get, thenPost_ok]
    split
    · next noConnection =>
        have empty : rooms.getD [] = [] := by
          rw [← before.fact.2]
          exact List.isEmpty_iff.mp noConnection
        exact Preserves.bind (checkpointAndRemove_room empty) (fun _ => .pure _) users server before
    · exact before
  · split
    · exact .bind (checkpointToRedis_room roomFact_true) fun _ => .pure _
    · exact .pure _

private theorem shutdownCheckpoint_room :
    Preserves (roomProtocol P recoverable) allows task (At recoverable task fun _ => True)
      (shutdownCheckpoint task) :=
  .tryExcept (.bind (checkpointToRedis_room roomFact_true) fun _ => .pure _) fun _ => .pure _

/-! ### Memberships -/

section Memberships

variable {fact : ServerState P → Prop} (kept : RoomFact recoverable task fact)

include kept

private theorem preserves_insertMember (userId : UserId) (role : RoleEnum) :
    Preserves (roomProtocol P recoverable) allows task (At recoverable task fact)
      (commit (insertMember task userId role)) := by
  apply preserves_commit kept
  intro server after effect
  unfold insertMember at effect
  split at effect
  · cases effect
  · obtain rfl := Option.some.inj effect
    exact ⟨⟨server.store.saved.savedAt, rfl⟩, rfl, rfl⟩

private theorem preserves_setRole (userId : UserId) (role : RoleEnum) :
    Preserves (roomProtocol P recoverable) allows task (At recoverable task fact)
      (commit (setRole task userId role)) := by
  apply preserves_commit kept
  intro server after effect
  unfold setRole at effect
  split at effect
  · cases effect
  · obtain rfl := Option.some.inj effect
    exact ⟨⟨server.store.saved.savedAt, rfl⟩, rfl, rfl⟩

private theorem preserves_deleteMember (userId : UserId) :
    Preserves (roomProtocol P recoverable) allows task (At recoverable task fact)
      (commit (deleteMember task userId)) := by
  apply preserves_commit kept
  intro server after effect
  obtain rfl := Option.some.inj effect
  exact ⟨⟨server.store.saved.savedAt, rfl⟩, rfl, rfl⟩

private theorem preserves_deactivate :
    Preserves (roomProtocol P recoverable) allows task (At recoverable task fact)
      (commit (deactivate task)) := by
  apply preserves_commit kept
  intro server after effect
  obtain rfl := Option.some.inj effect
  exact ⟨⟨some server.store.clock, rfl⟩, rfl, rfl⟩

private theorem preserves_refresh :
    Preserves (roomProtocol P recoverable) allows task (At recoverable task fact) refresh :=
  preserves_operation kept _ SameRoom.refl

private theorem preserves_fenceMember (userId : UserId) (code : Nat) (reason : String) :
    Preserves (roomProtocol P recoverable) allows task (At recoverable task fact)
      (invalidateMemberConnections userId code reason) :=
  invalidateMemberConnections_preserves (preserves_close kept) _ _ _
    (preserves_modifyGet kept fun _ => ⟨rfl, rfl, rfl⟩)

end Memberships

private theorem addMemberEndpoint_room (credentials : Option UserId) (key : MemberKey)
    (role : RoleEnum) :
    Preserves (roomProtocol P recoverable) allows task (At recoverable task fun _ => True)
      (addMemberEndpoint credentials key role task) := by
  have queries : Queries (roomProtocol P recoverable) allows task
      (At recoverable task fun _ => True) := preserves_query roomFact_true
  refine .bind (roleChecker_preserves queries _ _) fun owner => ?_
  refine .bind (resolveMemberUserId_preserves queries _) fun userId => ?_
  exact translateErrors_preserves (addMember_preserves queries _ _ _
    (preserves_insertMember roomFact_true _ _) (preserves_refresh roomFact_true))

private theorem updateMemberRoleEndpoint_room (credentials : Option UserId) (userId : UserId)
    (role : RoleEnum) :
    Preserves (roomProtocol P recoverable) allows task (At recoverable task fun _ => True)
      (updateMemberRoleEndpoint credentials userId role task) := by
  unfold updateMemberRoleEndpoint
  refine .bind (roleChecker_preserves (preserves_query roomFact_true) _ _) fun owner => ?_
  apply preserves_documentRoomLifecycle
  intro rooms
  have lock : RoomFact recoverable task (LockHeld task rooms : ServerState P → Prop) :=
    roomFact_lockHeld rooms
  refine .bind (translateErrors_preserves (updateMemberRole_attempts (preserves_query lock) _ _ _
    (fun _ _ => id) (preserves_setRole lock _ _).attempts
    (preserves_refresh lock).attempts).preserves) fun _ => ?_
  exact preserves_fenceMember lock _ _ _

private theorem removeMemberEndpoint_room (credentials : Option UserId) (userId : UserId) :
    Preserves (roomProtocol P recoverable) allows task (At recoverable task fun _ => True)
      (removeMemberEndpoint credentials userId task) := by
  unfold removeMemberEndpoint
  refine .bind (roleChecker_preserves (preserves_query roomFact_true) _ _) fun owner => ?_
  apply preserves_documentRoomLifecycle
  intro rooms
  have lock : RoomFact recoverable task (LockHeld task rooms : ServerState P → Prop) :=
    roomFact_lockHeld rooms
  refine .bind (translateErrors_preserves (removeMember_attempts (preserves_query lock) _ _
    (preserves_deleteMember lock _).attempts).preserves) fun _ => ?_
  exact preserves_fenceMember lock _ _ _

private theorem closeSessionEndpoint_room (credentials : Option UserId) :
    Preserves (roomProtocol P recoverable) allows task (At recoverable task fun _ => True)
      (closeSessionEndpoint credentials task) := by
  unfold closeSessionEndpoint
  refine .bind (roleChecker_preserves (preserves_query roomFact_true) _ _) fun owner => ?_
  apply preserves_documentRoomLifecycle
  intro rooms
  have lock : RoomFact recoverable task (LockHeld task rooms : ServerState P → Prop) :=
    roomFact_lockHeld rooms
  refine .bind (translateErrors_preserves (closeSession_attempts (preserves_query lock) _
    (preserves_deactivate lock).attempts (preserves_refresh lock).attempts).preserves)
    fun _ => ?_
  exact closeSessionConnections_preserves (preserves_close lock)
    (preserves_modifyGet lock fun _ => ⟨rfl, rfl, rfl⟩)

/-! ### Connections -/

/-- The holder of the room lock may change the room, as long as the others stay
in it. -/
theorem roomRely_of_lock {other : TaskId} (held : server.roomLock = some task)
    (different : task ≠ other) (store : server'.store = server.store)
    (inRoom : InRoom other server → InRoom other server') :
    RoomRely other users server users server' where
  store := by
    rw [store]
    exact Rely.refl _ _ _
  lock mine := absurd (Option.some.inj (held.symm.trans mine)) different
  inRoom := inRoom

/-- The room as the dictionary `_rooms` has it once it is there. -/
theorem beginJoin_room (before : At recoverable task (fun server => server.roomLock = some task)
    users server) :
    (∀ other, task ≠ other → RoomRely other users server users
      { server with rooms := some server.connections }) ∧
      At recoverable task (LockHeld task (some server.connections)) users
        { server with rooms := some server.connections } :=
  ⟨fun _ different => roomRely_of_lock before.fact different rfl id,
    ⟨⟨before.inv.manager, before.inv.accesses, before.inv.present⟩, before.outside,
      before.fact, rfl⟩⟩

/-- The connection is appended to a room whose document is in memory. -/
theorem append_room {rooms : Option (List ConnectionInfo)} {connection : ConnectionInfo}
    (own : connection.websocket = task)
    (before : At recoverable task (DocumentHeld task rooms) users server) :
    wp (roomProtocol P recoverable) allows task
      (modify fun server => { server with rooms := some (server.connections ++ [connection]) } :
        ServerProgram P PUnit)
      (fun _ users server =>
        At recoverable task (fun server => server.roomLock = some task) users server ∧
          InRoom task server) users server := by
  refine wp_modify users ?_ ⟨⟨⟨before.inv.manager, before.inv.accesses, fun _ => before.fact.2⟩,
    before.outside, before.fact.1.1⟩, connection, List.mem_concat_self, own⟩
  intro other different
  refine roomRely_of_lock before.fact.1.1 different rfl ?_
  intro member
  rcases member with ⟨present, member, named⟩
  exact ⟨present, List.mem_append_left _ member, named⟩

private theorem joinRoom_room (readable : ServerReadable recoverable allows)
    {connection : ConnectionInfo}
    (own : connection.websocket = task)
    (before : At recoverable task (fun _ => True) users server) :
    wp (roomProtocol P recoverable) allows task (joinRoom connection)
      (fun result users server => At recoverable task (fun _ => True) users server ∧
        ∀ value, result = .ok value → InRoom task server) users server := by
  unfold joinRoom
  rw [own]
  refine wp_withRoomLock roomFact_true (fun _ _ inRoom => inRoom) ?_ before
  intro users₁ server₁ at_ lock
  obtain ⟨rely, begun⟩ := beginJoin_room ⟨at_.inv, at_.outside, lock⟩
  rw [wp_bind]
  refine wp_modify users₁ rely ?_
  rw [thenPost_ok, wp_bind, wp_get, thenPost_ok]
  split
  · -- The first connection loads the document.
    rw [wp_bind]
    refine wp_mono ?_ (loadFromStorage_room readable begun)
    intro result users₂ server₂ holds
    cases result with
    | error exn => exact ⟨holds.1.weaken fun _ fact => fact.1, fun _ answer => nomatch answer⟩
    | ok ref =>
        refine wp_mono ?_ (append_room own (holds.2 ref rfl))
        exact fun _ _ _ after => ⟨after.1, fun _ _ => after.2⟩
  · next nonempty =>
      have present : server₁.store.docs ≠ none := begun.inv.present (by simpa using nonempty)
      refine wp_mono ?_ (append_room own ⟨begun.inv, begun.outside, begun.fact, present⟩)
      exact fun _ _ _ after => ⟨after.1, fun _ _ => after.2⟩

private theorem leave_room (before : At recoverable task (fun server => server.roomLock = some task)
    users server) :
    (∀ other, task ≠ other → RoomRely other users server users (leave task server).2) ∧
      At recoverable task (LockHeld task (leave task server).2.rooms) users
        (leave task server).2 := by
  constructor
  · intro other different
    refine roomRely_of_lock before.fact different rfl ?_
    intro member
    rcases member with ⟨connection, member, named⟩
    refine ⟨connection, ?_, named⟩
    rw [leave_connections, List.mem_filter]
    refine ⟨member, ?_⟩
    rw [named]
    exact decide_eq_true fun same => different same.symm
  · refine ⟨⟨before.inv.manager, before.inv.accesses, ?_⟩, before.outside, before.fact, rfl⟩
    intro nonempty
    apply before.inv.present
    intro empty
    rw [leave_connections, empty] at nonempty
    exact nonempty rfl

private theorem leaveRoom_room :
    Preserves (roomProtocol P recoverable) allows task (At recoverable task fun _ => True)
      (leaveRoom task) := by
  unfold leaveRoom
  refine .bind ?_ fun removed => broadcastAwareness_preserves (preserves_send roomFact_true) _ _
  intro users server before
  refine wp_mono (fun _ users server
    (after : At recoverable task (fun _ => True) users server ∧ True) => after.1)
    (wp_withRoomLock roomFact_true (fun _ _ _ => trivial) ?_ before)
  intro users₁ server₁ at_ lock
  have held : At recoverable task (LockHeld task server₁.rooms) users₁ server₁ :=
    ⟨at_.inv, at_.outside, lock, rfl⟩
  rw [wp_bind]
  have forgets : SameRoom server₁ (server₁.forget task) := ⟨rfl, rfl, rfl⟩
  have forgotten := held.of_same (roomFact_lockHeld server₁.rooms) forgets
  refine wp_modify users₁ (fun other _ => forgets.rely other) ?_
  rw [thenPost_ok, wp_bind, wp_get, thenPost_ok]
  split
  · exact ⟨forgotten.weaken fun _ fact => fact.1, trivial⟩
  · rw [wp_bind]
    obtain ⟨rely, after⟩ := leave_room (forgotten.weaken fun _ fact => fact.1)
    refine wp_modifyGet users₁ rely ?_
    rw [thenPost_ok]
    split
    next isLast removed gone =>
      split
      · next last =>
          have empty : (leave task (server₁.forget task)).2.rooms.getD [] = [] := by
            rw [leave_rooms, gone, if_pos last]
            rfl
          refine wp_mono (fun _ _ _ ended => ⟨ended.weaken fun _ fact => fact.1, trivial⟩)
            (Preserves.bind (tryCheckpointAndRemove_room empty) (fun _ => ?_) users₁ _ after)
          exact .bind (preserves_modify (roomFact_lockHeld _) fun _ => ⟨rfl, rfl, rfl⟩)
            fun _ => .pure _
      · exact ⟨after.weaken fun _ fact => fact.1, trivial⟩

/-! ### Frames -/

/-- Both facts. -/
theorem roomFact_and {first second : ServerState P → Prop}
    (keptFirst : RoomFact recoverable task first) (keptSecond : RoomFact recoverable task second) :
    RoomFact recoverable task fun server => first server ∧ second server where
  stable rely inv both := ⟨keptFirst.stable rely inv both.1, keptSecond.stable rely inv both.2⟩
  respects lock rooms docs both :=
    ⟨keptFirst.respects lock rooms docs both.1, keptSecond.respects lock rooms docs both.2⟩

private theorem applyIfAuthorized_room (userId : UserId) (role : RoleEnum) (payload : P.Bytes) :
    Preserves (roomProtocol P recoverable) allows task (At recoverable task (InRoom task))
      (withRoomLock task (modifyGet (applyIfAuthorized task userId role payload))) := by
  intro users server before
  have locked : wp (roomProtocol P recoverable) allows task
      (withRoomLock task (modifyGet (applyIfAuthorized task userId role payload)))
      (fun _ users server => At recoverable task (fun _ => True) users server ∧
        InRoom task server) users server := by
    refine wp_withRoomLock roomFact_inRoom (fun _ _ inRoom => inRoom) ?_ before
    intro users₁ server₁ at_ lock
    have kept : RoomFact recoverable task fun server : ServerState P =>
        LockHeld task server₁.rooms server ∧ InRoom task server :=
      roomFact_and (roomFact_lockHeld _) roomFact_inRoom
    have held : At recoverable task
        (fun server => LockHeld task server₁.rooms server ∧ InRoom task server) users₁ server₁ :=
      ⟨at_.inv, at_.outside, ⟨lock, rfl⟩, at_.fact⟩
    have stepped : (∀ other, task ≠ other → RoomRely other users₁ server₁ users₁
          (applyIfAuthorized task userId role payload server₁).2) ∧
        At recoverable task (fun server => LockHeld task server₁.rooms server ∧ InRoom task server)
          users₁ (applyIfAuthorized task userId role payload server₁).2 := by
      rcases applyIfAuthorized_state task userId role payload server₁ with
        ⟨failure, state⟩ | state | ⟨_, _, state⟩
      · rw [state]
        have same : SameRoom server₁ (server₁.setRevoked task failure) := ⟨rfl, rfl, rfl⟩
        exact ⟨fun other _ => same.rely other, held.of_same kept same⟩
      · rw [state]
        exact ⟨fun other _ => RoomRely.refl _ _ _, held⟩
      · rw [state]
        exact mutate_room kept (mutatingMethod_applyUpdate payload) userId held
          (present_of_inRoom at_)
    refine wp_modifyGet users₁ stepped.1 ?_
    exact ⟨stepped.2.weaken fun _ fact => fact.1.1, stepped.2.fact.2⟩
  exact wp_mono (fun _ _ _ after => ⟨after.1.inv, after.1.outside, after.2⟩) locked

private theorem handleBinaryMessage_room (user : AuthenticatedUser)
    (message : Option (ParsedMessage P)) :
    Preserves (roomProtocol P recoverable) allows task (At recoverable task (InRoom task))
      (handleBinaryMessage task user message) := by
  have sends : Sends (roomProtocol P recoverable) allows task (At recoverable task (InRoom task)) :=
    preserves_send roomFact_inRoom
  refine handleBinaryMessage_preserves sends (fun subtype payload => ?_) (fun entries => ?_) message
  · refine handleSyncMessage_preserves (preserves_close roomFact_inRoom) sends ?_
      (applyIfAuthorized_room _ _ _) subtype
    exact preserves_read roomFact_inRoom
      (fun _ present => encodeStateAsUpdate_of_present present _) present_of_inRoom
  · exact preserves_modifyGet roomFact_inRoom fun _ => ⟨rfl, rfl, rfl⟩

/-! ### The lifetime of a connection -/

private theorem closeIfInvalidated_room {fact : ServerState P → Prop}
    (kept : RoomFact recoverable task fact)
    (userId : UserId) :
    Preserves (roomProtocol P recoverable) allows task (At recoverable task fact)
      (closeIfInvalidated userId task) :=
  closeIfInvalidated_preserves (preserves_close kept) _ _ fun _ =>
    preserves_modify kept fun _ => ⟨rfl, rfl, rfl⟩

private theorem greet_room (user : AuthenticatedUser) :
    Preserves (roomProtocol P recoverable) allows task (At recoverable task (InRoom task))
      (greet task user) :=
  greet_preserves (preserves_send roomFact_inRoom) (preserves_read roomFact_inRoom
    (fun _ present => getStateVector_of_present present) present_of_inRoom)

private theorem preserves_receive {fact : ServerState P → Prop}
    (kept : RoomFact recoverable task fact) :
    Preserves (roomProtocol P recoverable) allows task (At recoverable task fact) receive := by
  refine .awaitCall (fun users server before => ⟨before.inv, trivial⟩) ?_
  intro users server users₁ server₁ before rely inv _ event result server₂ _ taken
  have after := before.of_rely kept rely inv
  cases event with
  | done => cases taken
  | received | raised | raisedAfter =>
      obtain ⟨-, rfl⟩ := Prod.mk.inj (Option.some.inj taken)
      exact ⟨users₁, fun other _ => RoomRely.refl _ _ _, after⟩

private theorem pruneStaleAwareness_room :
    Preserves (roomProtocol P recoverable) allows task (At recoverable task (InRoom task))
      (pruneStaleAwareness task) :=
  .bind (preserves_modifyGet roomFact_inRoom fun _ => ⟨rfl, rfl, rfl⟩) fun _ =>
    broadcastAwareness_preserves (preserves_send roomFact_inRoom) _ _

private theorem receiveLoop_room (user : AuthenticatedUser) (messages : Nat) :
    Preserves (roomProtocol P recoverable) allows task (At recoverable task (InRoom task))
      (receiveLoop task user messages) := by
  refine receiveLoop_preserves ?_ (preserves_receive roomFact_inRoom)
    (closeIfInvalidated_room roomFact_inRoom _) pruneStaleAwareness_room
    (handleBinaryMessage_room user) messages
  intro users server before
  exact wp_awaitUntil before.inv trivial fun _ _ _ _ _ _ _ never => nomatch never

private theorem serveConnection_room (readable : ServerReadable recoverable allows)
    (user : AuthenticatedUser) (messages : Nat) :
    Preserves (roomProtocol P recoverable) allows task (At recoverable task fun _ => True)
      (serveConnection task user messages) := by
  have rest : Preserves (roomProtocol P recoverable) allows task (At recoverable task (InRoom task))
      (do
        modify fun server => { server with joined := Function.update server.joined task true }
        if ← closeIfInvalidated user.userId task then pure ()
        else
          greet task user
          receiveLoop task user messages) := by
    refine .bind (preserves_modify roomFact_inRoom fun _ => ⟨rfl, rfl, rfl⟩) fun _ => ?_
    refine .bind (closeIfInvalidated_room roomFact_inRoom _) fun closed => ?_
    split
    · exact .pure _
    · exact .bind (greet_room _) fun _ => receiveLoop_room _ _
  unfold serveConnection
  refine .bind (closeIfInvalidated_room roomFact_true _) fun closed => ?_
  split
  · exact .pure _
  · intro users server before
    rw [wp_bind]
    refine wp_mono ?_ (joinRoom_room readable rfl before)
    intro result users₁ server₁ joined
    cases result with
    | error exn => exact joined.1
    | ok value =>
        have inRoom : At recoverable task (InRoom task) users₁ server₁ :=
          ⟨joined.1.inv, joined.1.outside, joined.2 value rfl⟩
        exact rest.leads (fun _ _ at_ => at_.weaken fun _ _ => trivial) users₁ server₁ inRoom

private theorem websocketEndpoint_room (readable : ServerReadable recoverable allows)
    (handshake : Handshake) (messages : Nat) :
    Preserves (roomProtocol P recoverable) allows task (At recoverable task fun _ => True)
      (websocketEndpoint handshake messages task) := by
  have accepted : Preserves (roomProtocol P recoverable) allows task
      (At recoverable task fun _ => True) accept := preserves_operation roomFact_true _ SameRoom.refl
  refine .bind (.tryExcept (.bind (authenticateWs_preserves (preserves_query roomFact_true) _)
    fun _ => .pure _) fun exn => ?_) fun authenticated => ?_
  · split
    · exact .pure _
    · exact .throw _
  · cases authenticated with
    | error failure => exact .bind accepted fun _ => preserves_close roomFact_true _ _ _
    | ok user =>
        refine .bind accepted fun _ => ?_
        refine .bind (preserves_modify roomFact_true fun _ => ⟨rfl, rfl, rfl⟩) fun _ => ?_
        refine .tryFinally (.tryExcept (serveConnection_room readable _ _) fun _ =>
          closeConnection_preserves (preserves_close roomFact_true) _ _ _) ?_
        refine .bind .get fun server => ?_
        split
        · exact leaveRoom_room
        · exact preserves_modify roomFact_true fun _ => ⟨rfl, rfl, rfl⟩

/-! ### Every run of the server -/

/-- Every handler keeps the protocol of the room. -/
theorem handler_room (readable : ServerReadable recoverable allows) (request : ServerRequest P) :
    Preserves (roomProtocol P recoverable) allows task (At recoverable task fun _ => True)
      (request.handler task) := by
  cases request with
  | websocket handshake messages => exact websocketEndpoint_room readable _ _
  | save credentials documentState => exact saveSessionDocument_room readable _ _
  | createSnapshot credentials => exact createSnapshotEndpoint_room readable _
  | restoreSnapshot credentials snapshotId => exact restoreSnapshotEndpoint_room readable _ _
  | run credentials => exact .bind (runDocument_room readable _) fun _ => .pure _
  | maintain => exact maintainDocumentCheckpoint_room
  | shutdown => exact shutdownCheckpoint_room
  | addMember credentials key role => exact addMemberEndpoint_room _ _ _
  | updateMemberRole credentials userId role => exact updateMemberRoleEndpoint_room _ _ _
  | removeMember credentials userId => exact removeMemberEndpoint_room _ _
  | closeSession credentials => exact closeSessionEndpoint_room _
  | relay event => exact broadcastBinary_preserves (preserves_send roomFact_true) _ _

private theorem ambient_room {change : Ambient P} (inv : RoomInv recoverable users server)
    (taken : server.ambient change = some server') :
    RoomInv recoverable users server' ∧ ∀ task, RoomRely task users server users server' := by
  have atPeers : ∀ {websocket : WebSocket} {peer : Peer P},
      RoomInv recoverable users (server.setPeer websocket peer) ∧
        ∀ task, RoomRely task users server users (server.setPeer websocket peer) :=
    fun {_ _} => ⟨⟨inv.manager, inv.accesses, inv.present⟩, fun task =>
      roomRely_of_store (Rely.refl _ _ _) rfl rfl (.of_same rfl rfl rfl)⟩
  cases change with
  | tick elapsed =>
      obtain rfl := Option.some.inj taken
      exact ⟨⟨inv.manager.tick elapsed, inv.accesses, inv.present⟩, fun task =>
        roomRely_of_store (rely_tick task users server.store elapsed) rfl rfl (.of_same rfl rfl rfl)⟩
  | edit websocket change =>
      obtain rfl := Option.some.inj taken
      exact atPeers
  | deliver websocket index =>
      obtain ⟨peer, _, rfl⟩ := Option.map_eq_some_iff.mp taken
      exact atPeers

theorem serverService_keeps {policy : ServerPolicy P}
    (readable : ∀ request, ServerReadable recoverable (policy request)) :
    Keeps (roomProtocol P recoverable) (serverService P) policy Booted where
  start := by
    intro server booted
    rcases booted with ⟨sessionId, saved, savedAt, checkpoint, clock, database, replicas, rfl⟩
    refine ⟨∅, ⟨inv_boot _ _ _ _ _, rfl, fun nonempty => absurd rfl nonempty⟩, ?_⟩
    exact fun task => Finset.notMem_empty task
  request := by
    intro task request users server inv _ outside
    refine wp_mono ?_ (handler_room (readable request) request users server
      ⟨inv, outside, trivial⟩)
    exact fun _ _ _ after => ⟨after.inv, after.outside⟩
  ambient := by
    intro change users server server' taken inv _
    exact ⟨users, ambient_room inv taken⟩
  restart := by
    intro users server inv
    refine ⟨∅, ⟨inv.manager.reboot, inv.accesses, fun nonempty => absurd rfl nonempty⟩, ?_⟩
    exact fun task => Finset.notMem_empty task

/-- The invariant of the room holds in every run of the server. -/
theorem serverService_inv {policy : ServerPolicy P}
    (readable : ∀ request, ServerReadable recoverable (policy request)) {pool : ServerPool P}
    (reached : Reachable (serverService P) policy Booted pool) :
    ∃ users, RoomInv recoverable users pool.state := by
  obtain ⟨users, inv, _⟩ := reached.verified (roomProtocol_lawful recoverable)
    (serverService_keeps readable) fun _ => trivial
  exact ⟨users, inv⟩

theorem serverReadable_false (allows : ServerState P → Call → Event P → Prop) :
    ServerReadable False allows := fun impossible => impossible.elim

end Concord.Server

import Concord.Asyncio.Runs
import Concord.Server.Rooms

/-!
Contract: what PostgreSQL holds once a save has returned.

Owns:
- `Grows`, what every step of the backend keeps of the saved document;
- `save_session_document` returns only with its document stored;
- the content of PostgreSQL over the steps of a run, what the returned saves and
  the document status say of it.

Does not own: who receives these reports.
-/

set_option autoImplicit false

namespace Concord.Server

open Asyncio Collaboration Platform ServerState

variable {P : Platform} {α : Type} {recoverable : Prop} {task : TaskId}
  {users users' : GuardUsers} {server server' : ServerState P}
  {allows : ServerState P → Call → Event P → Prop}

/-! ### The saved document only grows -/

/-- The saved document grows while every access finds a loaded document. -/
structure Grows (before after : ServerState P) : Prop where
  accesses_le : before.store.unloadedAccesses ≤ after.store.unloadedAccesses
  saved : after.store.unloadedAccesses = 0 → SavedGrows before.store after.store

theorem Grows.refl (server : ServerState P) : Grows server server :=
  ⟨le_rfl, fun _ => .of_same rfl rfl⟩

theorem Grows.trans {first second third : ServerState P} (earlier : Grows first second)
    (later : Grows second third) : Grows first third where
  accesses_le := earlier.accesses_le.trans later.accesses_le
  saved clean := (earlier.saved (Nat.le_zero.mp (later.accesses_le.trans clean.le))).trans
    (later.saved clean)

theorem RoomRely.grows (rely : RoomRely task users server users' server') : Grows server server' :=
  ⟨rely.store.accesses_le, rely.store.saved⟩

/-- What a handler does and what it waits for let the saved document grow. -/
theorem wp_grows {program : ServerProgram P α} {post : Post GuardUsers (ServerState P) Exn α}
    (holds : wp (roomProtocol P recoverable) allows task program post users server) :
    wp (roomProtocol P recoverable) allows task program
      (fun result users' server' => post result users' server' ∧ Grows server server')
      users server :=
  wp_along Grows.refl Grows.trans (fun guar => (guar _ (Nat.succ_ne_self task).symm).grows)
    RoomRely.grows holds

/-! ### One save -/

def HoldsSaved (bound : P.Doc) (server : ServerState P) : Prop := bound ≤ server.store.savedContent

theorem HoldsSaved.of_grows {bound : P.Doc} (held : HoldsSaved bound server)
    (grows : Grows server server') (inv : RoomInv recoverable users' server') :
    HoldsSaved bound server' :=
  held.trans (grows.saved inv.accesses).saved_le

/-- The lock is held over a document that contains at least `bound`. -/
def ContentHeld (task : TaskId) (rooms : Option (List ConnectionInfo)) (bound : P.Doc)
    (server : ServerState P) : Prop :=
  LockHeld task rooms server ∧ Contains bound server.store

private theorem contains_of_kept {bound : P.Doc} {before after : DocStore P}
    (contains : Contains bound before) (kept : DocsKept before after) : Contains bound after := by
  obtain ⟨ref, present, known, grown⟩ := contains
  exact ⟨ref, kept.docs ref present, lt_of_lt_of_le known kept.nextRef_le,
    grown.trans (kept.doc_le ref known)⟩

private theorem roomFact_contentHeld (rooms : Option (List ConnectionInfo)) (bound : P.Doc) :
    RoomFact recoverable task (ContentHeld task rooms bound) where
  stable rely inv held :=
    ⟨(roomFact_lockHeld rooms).stable rely inv held.1, contains_of_kept held.2 (rely.lock held.1.1).2.2⟩
  respects lock same docs held :=
    ⟨⟨lock.trans held.1.1, same.trans held.1.2⟩, contains_of_kept held.2 docs⟩

/-- A method that does not evict runs inside the protocol of the room, and may use
what the caller knows of the store. -/
theorem embeds_knowing {fact : ServerState P → Prop} {known : DocStore P → Prop}
    (kept : RoomFact recoverable task fact) (implied : ∀ server, fact server → known server.store) :
    Embeds { protocol P recoverable False False with known := known } (roomProtocol P recoverable)
      (managerAllows allows) allows task ServerState.store putStore id
      (fun _ server => RoomFrame fact server) :=
  have retaining : Embeds (protocol P recoverable False False) (roomProtocol P recoverable)
      (managerAllows allows) allows task ServerState.store putStore id
      (fun _ server => RoomFrame fact server) := embeds_retaining kept
  { get_put := retaining.get_put
    allows := retaining.allows
    suspend := retaining.suspend
    resume := fun frame rely inv outer => by
      obtain ⟨frame', inner, manager, _⟩ := retaining.resume frame rely inv outer
      exact ⟨frame', inner, manager, implied _ frame'.fact⟩
    step := retaining.step }

private theorem persistToDb_holds {rooms : Option (List ConnectionInfo)} {bound : P.Doc}
    (before : At recoverable task (ContentHeld task rooms bound) users server) :
    wp (roomProtocol P recoverable) allows task (onManager (persistToDb task))
      (fun result users server => At recoverable task (ContentHeld task rooms bound) users server ∧
        ∀ saved, result = .ok saved → HoldsSaved bound server) users server := by
  have kept : RoomFact recoverable task (ContentHeld task rooms bound) :=
    roomFact_contentHeld rooms bound
  refine wp_mono ?_ (wp_focus (embeds_knowing kept fun _ held => held.2)
    ⟨before.inv.accesses, before.inv.present, before.fact⟩
    (persistToDb_stores before.inv.manager before.outside))
  rintro result users₁ server₁ ⟨frame, manager, outside, stored⟩
  exact ⟨⟨⟨manager, frame.accesses, frame.present⟩, outside, frame.fact⟩, stored⟩

private theorem contains_applyUpdate {store : DocStore P} {ref : Ref}
    (present : store.docs = some ref)
    (known : ref < store.nextRef) {update : P.Bytes}
    (applied : (store.applyUpdate update).1 = .ok ()) :
    Contains (content (some update)) (store.applyUpdate update).2 := by
  unfold DocStore.applyUpdate at applied ⊢
  rw [getOrCreate_of_present present] at applied ⊢
  cases decoded : P.decode update with
  | none =>
      rw [decoded] at applied
      cases applied
  | some change =>
      refine ⟨ref, present, known, ?_⟩
      simp only [DocStore.edit_live, Function.update_self, content, Option.bind_some, decoded,
        Option.getD_some]
      exact le_sup_right

/-! ### The save endpoint -/

private theorem saveUnderLock_holds (readable : ServerReadable recoverable allows)
    {rooms : Option (List ConnectionInfo)} (userId : UserId) (documentState : P.Bytes)
    (before : At recoverable task (LockHeld task rooms) users server) :
    wp (roomProtocol P recoverable) allows task
      (saveUnderLock task userId documentState (!(rooms.getD []).isEmpty))
      (fun result users server => At recoverable task (LockHeld task rooms) users server ∧
        ∀ saved, result = .ok saved → HoldsSaved (content (some documentState)) server)
      users server := by
  have lock : RoomFact recoverable task (LockHeld task rooms : ServerState P → Prop) :=
    roomFact_lockHeld rooms
  unfold saveUnderLock
  rw [wp_bind]
  refine wp_mono ?_ (requireCurrentEditor_preserves (preserves_query lock) userId _ _ before)
  rintro (exn | ⟨⟩) users₁ server₁ at₁
  · exact ⟨at₁, nofun⟩
  rw [thenPost_ok, wp_bind]
  refine wp_mono ?_ (loadFromStorage_room readable at₁)
  rintro (exn | ref) users₂ server₂ ⟨at₂, loaded⟩
  · exact ⟨at₂, nofun⟩
  have held := loaded ref rfl
  obtain ⟨rely, after⟩ := mutate_room (roomFact_documentHeld rooms)
    (mutatingMethod_applyUpdate documentState) userId held held.fact.2
  rw [thenPost_ok, wp_bind, wp_tryExcept]
  refine wp_atomic users₂ rely ?_
  cases applied : (server₂.mutate userId (DocStore.applyUpdate documentState)).1 with
  | error exn => exact ⟨after.weaken fun _ fact => fact.1, nofun⟩
  | ok value =>
      -- The document in memory has the uploaded state until PostgreSQL holds it.
      obtain ⟨current, present⟩ := Option.ne_none_iff_exists'.mp held.fact.2
      have contained := contains_applyUpdate present
        (held.inv.manager.document.allocated current present) applied
      rw [handlerPost_ok, thenPost_ok, wp_bind]
      refine wp_mono ?_ (persistToDb_holds ⟨after.inv, after.outside, after.fact.1, contained⟩)
      rintro (exn | saved) users₃ server₃ ⟨at₃, stored⟩
      · exact ⟨at₃.weaken fun _ fact => fact.1, nofun⟩
      rw [thenPost_ok, wp_bind]
      refine wp_mono ?_ (wp_grows (tryCheckpoint_room rfl users₃ server₃
        (at₃.weaken fun _ fact => fact.1)))
      rintro (exn | ⟨⟩) users₄ server₄ ⟨at₄, grows⟩
      · exact ⟨at₄, nofun⟩
      · exact ⟨at₄, fun _ _ => (stored saved rfl).of_grows grows at₄.inv⟩

/-- A save that returns has its document stored. -/
theorem saveSessionDocument_holds (readable : ServerReadable recoverable allows)
    (credentials : Option UserId) (documentState : P.Bytes)
    (before : At recoverable task (fun _ => True) users server) :
    wp (roomProtocol P recoverable) allows task
      (saveSessionDocument credentials documentState task)
      (fun result users server => At recoverable task (fun _ => True) users server ∧
        (result = .ok () → HoldsSaved (content (some documentState)) server)) users server := by
  unfold saveSessionDocument
  rw [wp_bind]
  refine wp_mono ?_ (roleChecker_preserves (preserves_query roomFact_true) _ _ _ _ before)
  rintro (exn | user) users₁ server₁ at₁
  · exact ⟨at₁, nofun⟩
  rw [thenPost_ok]
  split
  · exact ⟨at₁, nofun⟩
  rw [wp_bind]
  refine wp_mono ?_ (checkSize_preserves _ _ _ _ at₁)
  rintro (exn | ⟨⟩) users₂ server₂ at₂
  · exact ⟨at₂, nofun⟩
  rw [thenPost_ok, wp_bind]
  have locked : wp (roomProtocol P recoverable) allows task
      (documentRoomLifecycle task (saveUnderLock task user.userId documentState))
      (fun result users server => At recoverable task (fun _ => True) users server ∧
        ∀ saved, result = .ok saved → HoldsSaved (content (some documentState)) server)
      users₂ server₂ := by
    refine wp_withRoomLock roomFact_true (fun _ _ stored => stored) ?_ at₂
    intro users₃ server₃ at₃ lock
    rw [wp_bind, wp_get, thenPost_ok]
    refine wp_mono ?_ (saveUnderLock_holds readable user.userId documentState
      (⟨at₃.inv, at₃.outside, lock, rfl⟩ : At recoverable task (LockHeld task server₃.rooms) _ _))
    exact fun _ _ _ holds => ⟨holds.1.weaken fun _ fact => fact.1, holds.2⟩
  refine wp_mono ?_ locked
  rintro (exn | saved) users₃ server₃ ⟨at₃, stored⟩
  · exact ⟨at₃, nofun⟩
  have broadcasts : Preserves (roomProtocol P recoverable) allows task
      (At recoverable task fun _ => True) (do
        broadcastDocumentUpdate task documentState
        broadcastBinary task (.documentSaved {
          savedAt := some saved.savedAt
          stateVector := saved.stateVector
          stateHash := saved.stateHash
          dirty := saved.dirty
          savedBy := some user.username })) :=
    .bind (broadcastBinary_preserves (preserves_send roomFact_true) _ _) fun _ =>
      broadcastBinary_preserves (preserves_send roomFact_true) _ _
  refine wp_mono ?_ (wp_grows (broadcasts users₃ server₃ at₃))
  exact fun _ _ _ holds => ⟨holds.1, fun _ => (stored saved rfl).of_grows holds.2 holds.1.inv⟩

/-- What a request leaves: a save that has returned has its document stored. -/
def leaves (recoverable : Prop) (task : TaskId) (request : ServerRequest P) :
    Post GuardUsers (ServerState P) Exn Unit :=
  fun result users server => At recoverable task (fun _ => True) users server ∧
    ∀ credentials documentState, request = .save credentials documentState → result = .ok () →
      HoldsSaved (content (some documentState)) server

private theorem lasts_leaves (recoverable : Prop) (task : TaskId) (request : ServerRequest P) :
    Lasts (roomProtocol P recoverable) task (leaves recoverable task request) where
  inv holds := holds.1.inv
  stable rely inv holds := ⟨holds.1.of_rely roomFact_true rely inv, fun credentials documentState own
    returned => (holds.2 credentials documentState own returned).of_grows rely.grows inv⟩

private theorem handler_leaves (readable : ServerReadable recoverable allows)
    (request : ServerRequest P)
    (before : At recoverable task (fun _ => True) users server) :
    wp (roomProtocol P recoverable) allows task (request.handler task)
      (leaves recoverable task request) users server := by
  by_cases save : ∃ credentials documentState, request = .save credentials documentState
  · obtain ⟨credentials, documentState, rfl⟩ := save
    refine wp_mono ?_ (saveSessionDocument_holds readable credentials documentState before)
    rintro result users₁ server₁ ⟨after, stored⟩
    refine ⟨after, fun credentials' documentState' own => ?_⟩
    obtain ⟨rfl, rfl⟩ := ServerRequest.save.inj own
    exact stored
  · refine wp_mono ?_ (handler_room readable request users server before)
    exact fun _ _ _ after => ⟨after, fun credentials documentState own =>
      absurd ⟨credentials, documentState, own⟩ save⟩

/-! ### Every run -/

section Runs

variable {policy : ServerPolicy P} {pool next : ServerPool P}

/-- The document of a save that has returned is stored, and stays so. -/
theorem holdsSaved_of_returned (reached : Reachable (serverService P) policy Booted pool)
    {credentials : Option UserId} {documentState : P.Bytes}
    (returned : pool.tasks task = some (.save credentials documentState, .ret ())) :
    HoldsSaved (content (some documentState)) pool.state := by
  have readable : ∀ request, ServerReadable False (policy request) := fun _ => serverReadable_false _
  obtain ⟨users, _, tasks⟩ := reached.meets (roomProtocol_lawful False) (serverService_keeps readable)
    (fun _ => trivial) (lasts_leaves False) fun {_ request _ _} inv _ outside =>
      handler_leaves (readable request) request ⟨inv, outside, trivial⟩
  exact ((tasks task).returned returned).2 credentials documentState rfl rfl

/-- No step of the backend takes anything from what PostgreSQL holds. -/
theorem savedGrows_of_step (reached : Reachable (serverService P) policy Booted pool)
    (step : Step (serverService P) policy pool next) :
    SavedGrows pool.state.store next.state.store := by
  have readable : ∀ request, ServerReadable False (policy request) := fun _ => serverReadable_false _
  obtain ⟨_, inv⟩ := serverService_inv readable (reached.step step)
  -- Another task sees a step of this one as one that is not its own.
  have seen : ∀ observer, Foreign (serverService P) policy observer pool next →
      SavedGrows pool.state.store next.state.store := by
    intro observer foreign
    obtain ⟨_, _, rely⟩ := reached.relies (roomProtocol_lawful False) (serverService_keeps readable)
      (fun _ => trivial) foreign
    exact rely.grows.saved inv.accesses
  cases step with
  | spawn task request unused =>
      exact seen (task + 1) (.spawn task request (Nat.succ_ne_self task).symm unused)
  | @resume task _ _ _ _ _ _ _ _ suspended allowed taken =>
      exact seen (task + 1) (.resume (Nat.succ_ne_self task).symm suspended allowed taken)
  | ambient taken => exact seen 0 (.ambient taken)
  | restart => exact .of_same rfl rfl

private theorem reported_le (reached : Reachable (serverService P) policy Booted pool) :
    ∀ saved ∈ pool.state.store.returned,
      content saved.saved.state ≤ pool.state.store.savedContent := by
  induction reached with
  | start booted =>
      obtain ⟨_, _, _, _, _, _, _, rfl⟩ := booted
      exact fun _ => nofun
  | step reached step inductionHypothesis =>
      intro saved member
      have grows := savedGrows_of_step reached step
      rcases grows.reported saved member with before | held
      · exact (inductionHypothesis saved before).trans grows.saved_le
      · exact held

/-! ### What the server reports -/

/-- The frame of `_send_current_document_status`. -/
def statusFrame (status : DocumentStatus P) : DocumentSaved P where
  savedAt := status.savedAt
  stateVector := status.savedStateVector
  stateHash := status.savedStateHash
  dirty := status.dirty
  savedBy := none

/-- The frame of `broadcast_document_saved` after a save. -/
def savedFrame (result : DocumentSaveResult P) (username : String) : DocumentSaved P where
  savedAt := some result.savedAt
  stateVector := result.stateVector
  stateHash := result.stateHash
  dirty := result.dirty
  savedBy := some username

theorem sendCurrentDocumentStatus_eq (websocket : WebSocket) :
    (sendCurrentDocumentStatus websocket : ServerProgram P Unit) = (do
      match (← get).store.getDocumentStatus with
      | none => pure ()
      | some status => sendBytes websocket websocket (.documentSaved (statusFrame status))) := rfl

/-- What the server may report: the status of the document in memory, or the result
of a save that has returned. -/
inductive Reports (server : ServerState P) : DocumentSaved P → Prop where
  | status {status} (current : server.store.getDocumentStatus = some status) :
      Reports server (statusFrame status)
  | saved {saved : SaveReturn P} (returned : saved ∈ server.store.returned) (username : String) :
      Reports server (savedFrame saved.result username)

/-- A report carries the digest of a state that PostgreSQL contains. -/
def Describes (saved : P.Doc) (report : DocumentSaved P) : Prop :=
  ∃ state, state ≤ saved ∧ report.stateHash = P.stateHash (P.getUpdate state)

theorem Describes.mono {saved grown : P.Doc} {report : DocumentSaved P}
    (describes : Describes saved report) (grows : saved ≤ grown) : Describes grown report := by
  obtain ⟨state, contained, hash⟩ := describes
  exact ⟨state, contained.trans grows, hash⟩

theorem describes_of_reports (reached : Reachable (serverService P) policy Booted pool)
    {report : DocumentSaved P} (reports : Reports pool.state report) :
    Describes pool.state.store.savedContent report := by
  obtain ⟨_, inv⟩ := serverService_inv (fun _ => serverReadable_false _) reached
  cases reports with
  | status current =>
      obtain ⟨live, inMemory, rfl⟩ := Option.map_eq_some_iff.mp current
      obtain ⟨ref, present, rfl⟩ := Option.map_eq_some_iff.mp inMemory
      obtain ⟨state, hash, contained⟩ := (inv.manager.document.tracks ref present
        (inv.manager.loaded inv.accesses ref present)).hash
      exact ⟨state, contained, hash⟩
  | @saved saved returned username =>
      obtain ⟨committed, describes⟩ := inv.manager.writes.returned saved returned
      refine ⟨committed, ?_, describes.stateHash⟩
      have held := reported_le reached saved returned
      rwa [describes.bytes, content_getUpdate] at held

end Runs

end Concord.Server

import Concord.Asyncio.OwnSteps
import Concord.Collaboration.Protocol
import Concord.Server.System
import Concord.Server.ViewRules

/-!
Contract: the size limits of the live path and of the storage endpoints.

Owns:
- `AdmittedFrames`, the sequences of frames that parse and are applied for editors;
- `Savable`, whether the size checks of a save and of a snapshot let a document
  pass;
- when what the live path has admitted is savable.

Does not own: how large the encoding of a document is.
-/

set_option autoImplicit false

namespace Concord.Server

open Asyncio Collaboration Platform ServerState

variable {P : Platform} {α : Type} {task : TaskId}

/-! ### What the live path admits -/

/-- The content of the document in memory; nothing where there is none. -/
def heldContent (store : DocStore P) : P.Doc := (store.document.map (·.doc)).getD ⊥

/-- The frames that were received, parsed and applied for editors between two
states. Whatever else happened has left the document as it was. -/
inductive AdmittedFrames (wire : Wire P) (start : ServerState P) :
    List (List UInt8) → ServerState P → Prop where
  | start : AdmittedFrames wire start [] start
  | frame {frames server after frame subtype payload websocket userId role}
      (earlier : AdmittedFrames wire start frames server)
      (parsed : wire.parseMessage frame = .ok (.sync subtype payload))
      (edits : subtype ≠ .step1)
      (applied : applyIfAuthorized websocket userId role payload server = (.applied, after)) :
      AdmittedFrames wire start (frame :: frames) after
  | other {frames server after} (earlier : AdmittedFrames wire start frames server)
      (same : heldContent after.store = heldContent server.store) : AdmittedFrames wire start frames after

def frameContent (wire : Wire P) (frame : List UInt8) : P.Doc :=
  match wire.parseMessage frame with
  | .ok (.sync _ payload) => content (some payload)
  | _ => ⊥

def sentContent (wire : Wire P) (frames : List (List UInt8)) : P.Doc :=
  frames.foldr (fun frame rest => frameContent wire frame ⊔ rest) ⊥

/-- An update that does not raise joins its content. -/
theorem heldContent_applyUpdate {update : P.Bytes} {store : DocStore P}
    (applied : (store.applyUpdate update).1 = .ok ()) :
    heldContent (store.applyUpdate update).2 = content (some update) ⊔ heldContent store := by
  unfold DocStore.applyUpdate DocStore.getOrCreate at applied ⊢
  cases decoded : P.decode update with
  | none =>
      split at applied
      · cases applied
      · rw [decoded] at applied
        cases applied
  | some change =>
      have carried : content (some update) = change := by simp [content, decoded]
      rw [carried]
      cases present : store.docs with
      | some ref => simp [heldContent, DocStore.document, present, sup_comm]
      | none =>
          cases waiting : store.loading with
          | true => simp [present, waiting] at applied
          | false =>
              simp [heldContent, DocStore.document, present, DocStore.createdDocument, newDoc]

/-- An applied payload joins its content. -/
theorem heldContent_of_applied {server after : ServerState P} {websocket : WebSocket}
    {userId : UserId} {role : RoleEnum} {payload : P.Bytes}
    (applied : applyIfAuthorized websocket userId role payload server = (.applied, after)) :
    heldContent after.store = content (some payload) ⊔ heldContent server.store := by
  unfold applyIfAuthorized at applied
  split at applied
  · cases applied
  · split at applied
    · cases applied
    · unfold mutate onStore at applied
      dsimp only at applied
      split at applied
      · cases applied
      · next result _ answer =>
          obtain ⟨_, rfl⟩ := Prod.mk.inj applied
          obtain ⟨returned, rfl⟩ := Prod.mk.inj answer
          exact heldContent_applyUpdate returned

/-- The document has what it had at the start, and what the frames carried. -/
theorem heldContent_of_admitted {wire : Wire P} {start final : ServerState P}
    {frames : List (List UInt8)} (admitted : AdmittedFrames wire start frames final) :
    heldContent final.store = sentContent wire frames ⊔ heldContent start.store := by
  induction admitted with
  | start => exact (sup_of_le_right bot_le).symm
  | frame _ parsed _ applied inductionHypothesis =>
      rw [heldContent_of_applied applied, inductionHypothesis, ← sup_assoc]
      unfold sentContent frameContent
      rw [List.foldr_cons, parsed]
  | other _ same inductionHypothesis => exact same.trans inductionHypothesis

/-! ### The size checks -/

/-- The answer of a size check that refuses a document. -/
def IsTooLarge (exn : Exn) : Prop :=
  exn = .httpException 413 "Document state exceeds the configured size limit"

/-- `save_session_document`, for a user that `RoleChecker` has passed. -/
def saveForEditor (user : CurrentUser) (documentState : P.Bytes) (task : TaskId) :
    ServerProgram P Unit := do
  if P.size documentState = 0 then
    throw (.httpException 422 "Document state cannot be empty")
  else
    checkSize (P.size documentState) "Document state exceeds the configured size limit"
    let result ← documentRoomLifecycle task (saveUnderLock task user.userId documentState)
    broadcastDocumentUpdate task documentState
    broadcastBinary task (.documentSaved {
      savedAt := some result.savedAt
      stateVector := result.stateVector
      stateHash := result.stateHash
      dirty := result.dirty
      savedBy := some user.username })

theorem saveSessionDocument_eq (credentials : Option UserId) (documentState : P.Bytes) :
    saveSessionDocument credentials documentState task = (do
      let user ← roleChecker .editor credentials
      saveForEditor user documentState task) := rfl

/-- `create_snapshot_endpoint`, for a user that `RoleChecker` has passed. -/
def snapshotForEditor (user : CurrentUser) (task : TaskId) : ServerProgram P Unit :=
  documentRoomLifecycle task fun hasConnections => do
    requireCurrentEditor user.userId
    let _ ← onManager (loadFromStorage task)
    let documentState ← Coroutine.atomic (onStore (DocStore.encodeStateAsUpdate none))
    checkSize (P.size documentState) "Document state exceeds the configured size limit"
    commit (insertSnapshot documentState)
    refresh
    if hasConnections then pure () else tryCheckpointAndRemove task

theorem createSnapshotEndpoint_eq (credentials : Option UserId) :
    (createSnapshotEndpoint credentials task : ServerProgram P Unit) = (do
      let user ← roleChecker .editor credentials
      snapshotForEditor user task) := rfl

def Holds (doc : P.Doc) (store : DocStore P) : Prop :=
  ∃ ref, store.docs = some ref ∧ (store.live ref).doc = doc

/-- The size checks let the document pass: a client with that document can save
it, and a snapshot of it can be made while it stays in memory. -/
structure Savable (doc : P.Doc) : Prop where
  save : ∀ (user : CurrentUser) (task : TaskId),
    Never IsTooLarge (saveForEditor user (P.getUpdate doc) task)
  snapshot : ∀ (user : CurrentUser) (task : TaskId) (env : ServerState P → ServerState P → Prop),
    (∀ before after, env before after → Holds doc before.store → Holds doc after.store) →
      ∀ {start trace result final}, Holds doc start.store →
        Runs env (snapshotForEditor user task) start trace result final →
          ∀ exn, result = .error exn → ¬IsTooLarge exn

/-! ### What never answers that a document is too large -/

theorem isPart_store : IsPart (ServerState.store (P := P)) putStore where
  get_put _ _ := rfl
  put_put _ _ _ := rfl
  put_get _ := rfl

private theorem readCall_never (call : Call) (value : DocStore P → α) :
    Never IsTooLarge (readCall call value) := by
  refine .awaitCall fun event state exn after taken tooLarge => ?_
  subst tooLarge
  cases event <;> cases taken

private theorem writeCall_never (call : Call) (effect : DocStore P → DocStore P) :
    Never IsTooLarge (writeCall call effect) := by
  refine .awaitCall fun event state exn after taken tooLarge => ?_
  subst tooLarge
  cases event <;> cases taken

private theorem serialized_never {body : Program P α} (never : Never IsTooLarge body) :
    Never IsTooLarge (serialized task body) :=
  .bind (.modifyGet _) fun _ => .tryFinally_modify
    (.bind (.awaitUntil _ _) fun _ => .tryFinally_modify never)

private theorem loadFromStorageLocked_never :
    Never IsTooLarge (loadFromStorageLocked : Program P _) := by
  unfold loadFromStorageLocked
  refine .bind .get fun store => ?_
  split
  · exact .pure _
  · refine .bind (.modifyGet _) fun _ => .tryFinally_modify ?_
    refine .bind (readCall_never _ _) fun stored => .bind (.tryExcept fun _ => .pure _) fun _ => ?_
    exact .modifyGet _

private theorem persistToDbLocked_never : Never IsTooLarge (persistToDbLocked : Program P _) := by
  have rest : ∀ ref : Ref, Never IsTooLarge (do
      let store ← get
      let state := P.getUpdate (store.live ref).doc
      let stateVector := P.getState (store.live ref).doc
      let savedAt := store.clock
      saveExecute
      saveCommit state savedAt
      Coroutine.atomic (DocStore.recordSave ref state stateVector savedAt) :
        Program P (DocumentSaveResult P)) := by
    intro ref
    refine .bind .get fun store => ?_
    refine .bind (writeCall_never _ _) fun _ => .bind (writeCall_never _ _) fun _ => ?_
    refine .atomic fun store exn raised tooLarge => ?_
    subst tooLarge
    unfold DocStore.recordSave at raised
    split at raised <;> cases raised
  unfold persistToDbLocked
  refine .bind .get fun store => ?_
  split
  · exact rest _
  · exact .bind loadFromStorageLocked_never rest

private theorem onManager_never {program : Program P α} (never : Never IsTooLarge program) :
    Never IsTooLarge (onManager program) :=
  .focus isPart_store never

private theorem requireCurrentEditor_never (userId : UserId) :
    Never IsTooLarge (requireCurrentEditor userId : ServerProgram P Unit) := by
  refine .awaitCall_bind (fun event state exn after taken tooLarge => ?_)
    fun event state failure after taken => ?_
  · subst tooLarge
    cases event <;> cases taken
  · cases failure with
    | none => exact .pure _
    | some exn =>
        refine .throw fun tooLarge => ?_
        subst tooLarge
        -- The failures of an editor check have the codes 404, 410 and 403.
        have failed : currentEditorFailure state.database.session (state.database.members userId) =
            some (.httpException 413 "Document state exceeds the configured size limit") := by
          cases event with
          | done =>
              obtain ⟨answer, _⟩ := Prod.mk.inj (Option.some.inj taken)
              exact Except.ok.inj answer
          | raised | raisedAfter | received => cases taken
        unfold currentEditorFailure at failed
        split at failed
        · cases failed
        · split at failed
          · cases failed
          · split at failed <;> cases failed

private theorem tryCheckpointAndRemove_never :
    Never IsTooLarge (tryCheckpointAndRemove task : ServerProgram P Unit) :=
  .tryExcept fun _ => .pure _

private theorem tryCheckpoint_never (hasConnections : Bool) :
    Never IsTooLarge (tryCheckpoint task hasConnections : ServerProgram P Unit) := by
  unfold tryCheckpoint
  split
  · exact .tryExcept fun _ => .pure _
  · exact tryCheckpointAndRemove_never

private theorem documentRoomLifecycle_never {body : Bool → ServerProgram P α}
    (never : ∀ hasConnections, Never IsTooLarge (body hasConnections)) :
    Never IsTooLarge (documentRoomLifecycle task body) :=
  .bind (.awaitUntil _ _) fun _ => .tryFinally_modify (.bind .get fun _ => never _)

private theorem broadcastTo_never (sender : TaskId) (frame : ServerFrame P)
    (connections : List ConnectionInfo) : Never IsTooLarge (broadcastTo sender frame connections) := by
  induction connections with
  | nil => exact .modifyGet _
  | cons connection rest inductionHypothesis =>
      refine .bind (.modifyGet _) fun _ => .bind .get fun server => ?_
      split
      · exact inductionHypothesis
      · exact .bind (.tryExcept fun _ => .pure _) fun _ => inductionHypothesis

private theorem broadcastBinary_never (sender : TaskId) (frame : ServerFrame P) :
    Never IsTooLarge (broadcastBinary sender frame) :=
  .bind .get fun _ => broadcastTo_never sender frame _

private theorem saveUnderLock_never (userId : UserId) (documentState : P.Bytes)
    (hasConnections : Bool) :
    Never IsTooLarge (saveUnderLock task userId documentState hasConnections) := by
  refine .bind (requireCurrentEditor_never userId) fun _ => ?_
  refine .bind (onManager_never (serialized_never loadFromStorageLocked_never)) fun _ => ?_
  refine .bind (.tryExcept fun _ => .throw (by unfold IsTooLarge; decide)) fun _ => ?_
  refine .bind (onManager_never (serialized_never persistToDbLocked_never)) fun _ => ?_
  exact .bind (tryCheckpoint_never hasConnections) fun _ => .pure _

/-! ### The exact condition -/

/-- The check of a save refuses an upload at once, or lets it pass for good. -/
theorem saveForEditor_never {user : CurrentUser} {documentState : P.Bytes}
    (small : P.size documentState ≤ P.crdtMaxUpdateBytes) :
    Never IsTooLarge (saveForEditor user documentState task) := by
  unfold saveForEditor
  split
  · exact .throw (by unfold IsTooLarge; decide)
  · unfold checkSize
    rw [if_neg (Nat.not_lt.mpr small)]
    refine .bind (.pure _) fun _ => .bind ?_ fun result => ?_
    · exact documentRoomLifecycle_never (saveUnderLock_never _ _)
    · exact .bind (broadcastBinary_never _ _) fun _ => broadcastBinary_never _ _

private theorem holds_of_same {doc : P.Doc} {store store' : DocStore P} (holds : Holds doc store)
    (docs : store'.docs = store.docs) (live : store'.live = store.live) : Holds doc store' := by
  unfold Holds
  rw [docs, live]
  exact holds

/-- A load does nothing to a document that is in memory. -/
theorem loadFromStorage_maintains (doc : P.Doc) :
    Maintains (Holds doc) (loadFromStorage task : Program P Ref) := by
  have entered : ∀ store : DocStore P, Holds doc store → Holds doc store.enterGuard.2 := by
    intro store holds
    unfold DocStore.enterGuard
    dsimp only
    split <;> exact holds_of_same holds rfl rfl
  refine .bind (.modifyGet entered) fun id => ?_
  refine .tryFinally_modify (.bind (.awaitUntil ?_) fun _ => ?_)
    fun store holds => holds_of_same holds rfl rfl
  · intro store value after holds taken
    unfold DocStore.acquireGuard at taken
    dsimp only at taken
    split at taken
    · cases taken
    · obtain ⟨_, rfl⟩ := Prod.mk.inj (Option.some.inj taken)
      exact holds_of_same holds rfl rfl
  · refine .tryFinally_modify (.get_bind fun store holds => ?_)
      fun store holds => holds_of_same holds rfl rfl
    obtain ⟨ref, present, _⟩ := holds
    rw [present]
    exact .pure _

private theorem requireCurrentEditor_maintains (doc : P.Doc) (userId : UserId) :
    Maintains (fun server => Holds doc server.store)
      (requireCurrentEditor userId : ServerProgram P Unit) := by
  refine .bind (.awaitCall ?_) fun failure => ?_
  · intro event server result after holds taken
    cases event with
    | received message => cases taken
    | done | raised | raisedAfter =>
        obtain ⟨_, rfl⟩ := Prod.mk.inj (Option.some.inj taken)
        exact holds
  · cases failure with
    | none => exact .pure _
    | some exn => exact .throw _

/-- What a snapshot commits, after its size check. -/
theorem insertSnapshot_never (documentState : P.Bytes) (hasConnections : Bool) :
    Never IsTooLarge (do
      commit (insertSnapshot documentState)
      refresh
      if hasConnections then pure () else tryCheckpointAndRemove task : ServerProgram P Unit) := by
  refine .bind (.awaitCall fun event server exn after taken tooLarge => ?_) fun _ => ?_
  · subst tooLarge
    rcases commit_outcome taken with ⟨_, raised⟩ | ⟨_, raised | ⟨_, raised⟩⟩ <;> cases raised
  · refine .bind (.awaitCall fun event server exn after taken tooLarge => ?_) fun _ => ?_
    · subst tooLarge
      cases event <;> cases taken
    · split
      · exact .pure _
      · exact tryCheckpointAndRemove_never

/-- The check of a snapshot lets a small document pass. -/
theorem snapshotForEditor_never {doc : P.Doc} (small : P.size (P.getUpdate doc) ≤ P.crdtMaxUpdateBytes)
    {user : CurrentUser} {env : ServerState P → ServerState P → Prop}
    (stable : ∀ before after, env before after → Holds doc before.store → Holds doc after.store)
    {start final : ServerState P} {trace : List (Moment (ServerState P) (Event P) Call)}
    {exn : Exn} (holds : Holds doc start.store)
    (runs : Runs env (snapshotForEditor user task) start trace (.error exn) final) :
    ¬IsTooLarge exn := by
  unfold snapshotForEditor documentRoomLifecycle withRoomLock at runs
  rcases runs_bind runs with ⟨_, locked, _, held, rfl, acquires, guarded⟩ | ⟨_, raised, acquires⟩
  · obtain ⟨state, _, _, _, framed, taken, _⟩ := runs_awaitUntil acquires
    have locks : locked.store = state.store := by
      unfold acquireRoomLock at taken
      split at taken
      · cases taken
      · obtain ⟨_, rfl⟩ := Prod.mk.inj (Option.some.inj taken)
        rfl
    have holdsLocked : Holds doc locked.store := locks ▸ stable _ _ framed holds
    obtain ⟨_, inner, _⟩ := runs_tryFinally_modify guarded
    rcases runs_bind inner with ⟨_, _, _, _, rfl, looks, checking⟩ | ⟨_, _, looks⟩
    · obtain ⟨rfl, _, rfl⟩ := runs_get looks
      rcases runs_bind checking with ⟨_, checked, _, _, rfl, checks, loading⟩ | ⟨_, raised, checks⟩
      · have holdsChecked := requireCurrentEditor_maintains doc _ stable holdsLocked checks
        rcases runs_bind loading with ⟨_, loaded, _, _, rfl, loads, encoding⟩ | ⟨_, raised, loads⟩
        · have holdsLoaded : Holds doc loaded.store :=
            (loadFromStorage_maintains doc).focus isPart_store stable holdsChecked loads
          obtain ⟨ref, present, same⟩ := holdsLoaded
          have encoded : loaded.store.encodeStateAsUpdate none =
              (.ok (P.getUpdate doc), loaded.store) := by
            simp [DocStore.encodeStateAsUpdate, DocStore.getOrCreate, present, same]
          rcases runs_bind encoding with ⟨_, _, _, _, rfl, encodes, sized⟩ | ⟨_, _, encodes⟩
          · obtain ⟨_, returned, _⟩ := runs_atomic encodes
            rw [onStore, encoded] at returned
            obtain rfl := Except.ok.inj returned
            unfold checkSize at sized
            rw [if_neg (Nat.not_lt.mpr small)] at sized
            exact insertSnapshot_never _ _ sized
          · obtain ⟨_, returned, _⟩ := runs_atomic encodes
            rw [onStore, encoded] at returned
            cases returned
        · obtain rfl := Except.error.inj raised
          exact onManager_never (serialized_never loadFromStorageLocked_never) loads
      · obtain rfl := Except.error.inj raised
        exact requireCurrentEditor_never _ checks
    · cases (runs_get looks).2.1
  · obtain rfl := Except.error.inj raised
    exact Never.awaitUntil _ _ acquires

/-- An upload that is too large is refused at once. -/
theorem saveForEditor_large {user : CurrentUser} {documentState : P.Bytes}
    (large : P.crdtMaxUpdateBytes < P.size documentState) :
    saveForEditor user documentState task =
      throw (.httpException 413 "Document state exceeds the configured size limit") := by
  have nonempty : P.size documentState ≠ 0 := by omega
  unfold saveForEditor checkSize
  rw [if_neg nonempty, if_pos large]
  rfl

/-- A document is savable exactly where its encoding is within the limit. -/
theorem savable_of_size {doc : P.Doc} :
    Savable doc ↔ P.size (P.getUpdate doc) ≤ P.crdtMaxUpdateBytes := by
  constructor
  · intro savable
    by_contra large
    let user : CurrentUser := ⟨0, "", IdentityMap.empty⟩
    let server : ServerState P := boot (DocStore.boot "" ⟨none, none⟩ none 0)
      ⟨none, fun _ => none, fun _ => none, fun _ => none, fun _ => none, 0, []⟩ fun _ => ⊥
    have never := savable.save user 0
    rw [saveForEditor_large (Nat.lt_of_not_le large)] at never
    have raises : Runs (fun _ _ => True)
        (throw (.httpException 413 "Document state exceeds the configured size limit") :
          ServerProgram P Unit) server []
        (.error (.httpException 413 "Document state exceeds the configured size limit")) server :=
      ⟨rfl, rfl, rfl⟩
    exact never raises rfl
  · intro small
    exact ⟨fun _ _ => saveForEditor_never small, fun _ _ _ stable _ _ _ _ holds runs exn raised =>
      snapshotForEditor_never small stable holds (raised ▸ runs)⟩

/-- What the live path has admitted is savable exactly where the encoding of all
that the document held and the frames carried is within the limit. -/
theorem admitted_is_savable {wire : Wire P} {start final : ServerState P}
    {frames : List (List UInt8)} (admitted : AdmittedFrames wire start frames final) :
    Savable (heldContent final.store) ↔
      P.size (P.getUpdate (sentContent wire frames ⊔ heldContent start.store)) ≤
        P.crdtMaxUpdateBytes := by
  rw [savable_of_size, heldContent_of_admitted admitted]

/-! ### A platform with the configured limit -/

/-- A text that only grows, by its length. The encodings have one byte for each
byte of the text, and the limit is the one of the configuration. -/
@[reducible] def byteLog : Platform where
  Bytes := List UInt8
  Doc := Nat
  docLattice := inferInstance
  docBottom := inferInstance
  Hash := List UInt8
  hashEq := inferInstance
  Json := Unit
  decode bytes := some bytes.length
  getUpdate doc := List.replicate doc 0
  getState doc := List.replicate doc 0
  getUpdateSince doc _ := some (List.replicate doc 0)
  text doc := String.ofList (List.replicate doc 'x')
  clear _ doc := doc
  insert _ doc _ string := doc + string.length
  size bytes := bytes.length + 1
  stateHash bytes := bytes
  crdtMaxUpdateBytes := 5 * 1024 * 1024
  decode_getUpdate doc := by simp
  getUpdateSince_getState doc peer :=
    ⟨_, doc, rfl, Nat.succ_pos _, by simp, le_sup_right⟩
  le_clear _ _ := le_rfl
  le_insert _ doc _ string := Nat.le_add_right doc string.length

/-- Payloads of that platform are their bytes. -/
def byteWire : Wire byteLog where
  ofBytes bytes := bytes
  toBytes bytes := bytes
  loads _ := none
  ofBytes_toBytes _ := rfl

private theorem size_getUpdate_byteLog (doc : Nat) :
    byteLog.size (byteLog.getUpdate doc) = doc + 1 := by
  change (List.replicate doc 0).length + 1 = doc + 1
  rw [List.length_replicate]

def updateFrame (length : Nat) : List UInt8 :=
  [0] ++ [2] ++ (Binary.digits128 length ++ List.replicate length 0)

private theorem parseMessage_updateFrame {length : Nat} (small : length ≤ 8 * 1024 * 1024) :
    byteWire.parseMessage (updateFrame length) = .ok (.sync .update (List.replicate length 0)) := by
  have bounded : length < 128 ^ 4 := by omega
  have digits := Binary.length_digits128_le (by decide) bounded
  have encodedLength : encodeVarUint length = .ok (Binary.digits128 length) := by
    unfold encodeVarUint maxSafeInteger
    rw [if_neg (by omega)]
  apply parseMessage_sync
  · simp [Wire.encodeSyncMessage, encodeSyncMessage, encodeVarBytes, encodeVarUint_of_le, messageSync,
      syncCode, byteWire, encodedLength, updateFrame, Bind.bind, Except.bind, pure, Except.pure]
  · simp only [updateFrame, List.length_append, List.length_replicate, List.length_cons,
      List.length_nil, maxMessageSize]
    omega

/-- An editor is connected, and an empty document is in memory. -/
def editingServer : ServerState byteLog :=
  let server := boot (DocStore.boot "session" ⟨none, none⟩ none 0)
    ⟨some ⟨true, 1, .python⟩, fun user => if user = 1 then some .owner else none,
      fun _ => some "owner", fun _ => none, fun _ => none, 0, []⟩ fun _ => ⊥
  let loaded := server.store.publish (loadedDocument ⟨none, none⟩ none true server.store)
  { server.putStore loaded with
    rooms := some [⟨0, 1, "owner", .owner⟩]
    connectionStamps := fun _ => some ⟨0, 0⟩
    joined := fun _ => true }

/-- One update of that editor is admitted. -/
theorem admitted_update {length : Nat} (small : length ≤ 8 * 1024 * 1024) :
    ∃ final, AdmittedFrames byteWire editingServer [updateFrame length] final := by
  have applied : applyIfAuthorized 0 1 .owner (List.replicate length 0) editingServer =
      (.applied, (applyIfAuthorized 0 1 .owner (List.replicate length 0) editingServer).2) := rfl
  exact ⟨_, .frame .start (parseMessage_updateFrame small) (by decide) applied⟩

private theorem sentContent_updateFrame {length : Nat} (small : length ≤ 8 * 1024 * 1024) :
    sentContent byteWire [updateFrame length] = length := by
  unfold sentContent frameContent
  rw [List.foldr_cons, parseMessage_updateFrame small]
  simp [content]

theorem admitted_is_savable_run :
    ∃ final, AdmittedFrames byteWire editingServer [updateFrame 3] final ∧
      byteLog.size (byteLog.getUpdate (sentContent byteWire [updateFrame 3] ⊔
        heldContent editingServer.store)) = 4 ∧
      (Savable (heldContent final.store) ↔
        byteLog.size (byteLog.getUpdate (sentContent byteWire [updateFrame 3] ⊔
          heldContent editingServer.store)) ≤ byteLog.crdtMaxUpdateBytes) := by
  have small : 3 ≤ 8 * 1024 * 1024 := by decide
  obtain ⟨final, admitted⟩ := admitted_update small
  refine ⟨final, admitted, ?_, admitted_is_savable admitted⟩
  rw [sentContent_updateFrame small]
  rfl

/-- One frame with an update of six mebibytes is admitted, and the document is
not savable any more. -/
theorem admitted_but_not_savable :
    ∃ final, AdmittedFrames byteWire editingServer [updateFrame (6 * 1024 * 1024)] final ∧
      ¬Savable (heldContent final.store) := by
  have small : 6 * 1024 * 1024 ≤ 8 * 1024 * 1024 := by decide
  obtain ⟨final, admitted⟩ := admitted_update small
  refine ⟨final, admitted, fun savable => ?_⟩
  have limited := savable_of_size.mp savable
  have held : heldContent final.store = (6 * 1024 * 1024 : Nat) := by
    rw [heldContent_of_admitted admitted, sentContent_updateFrame small]
    rfl
  rw [held, size_getUpdate_byteLog] at limited
  exact absurd limited (by decide)

end Concord.Server

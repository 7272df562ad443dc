import Mathlib.Logic.Relation
import Concord.Client.SaveStatus
import Concord.Server.Durability
import Concord.Server.Saves

/-!
Contract: whether a page that shows 'saved' shows what PostgreSQL holds.

Owns:
- `SaveWorld`, a page beside the backend, with the messages between them;
- `SaveInv`, what every run keeps while the updates before the initial sync bring
  nothing that PostgreSQL does not hold;
- the run that shows 'saved' over an edit that nobody has saved.

A message may arrive late, more than once or never, and updates come from anywhere.

Does not own: how the updates reach the Y.Doc.
-/

set_option autoImplicit false

namespace Concord.Client

open Asyncio Platform Server

variable {P : Platform}

/-! ### A page and the backend -/

/-- A page beside the backend. `frames` and `answered` are the `document_saved`
messages and the saved states of the responses that the backend has sent. -/
structure SaveWorld (P : Platform) where
  pool : ServerPool P
  frames : List (DocumentSaved P)
  answered : List P.Bytes
  page : SessionPage P

namespace SaveWorld

def saved (world : SaveWorld P) : P.Doc := world.pool.state.store.savedContent

/-- The messages of the backend come to the page, and everything else may happen. -/
def Arrives (world : SaveWorld P) : ClientEvent P → Prop
  | .documentSaved event => event ∈ world.frames
  | .response requestId (some _) => ∀ request ∈ world.page.requests,
      request.requestId = requestId → request.documentState ∈ world.answered
  | _ => True

/-- An update that no handler counts, since it comes before the initial sync, brings
only what PostgreSQL holds while the page shows 'saved' or is about to. -/
def CountsUpdates (world : SaveWorld P) : ClientEvent P → Prop
  | .update change => world.page.saveStatus = .saved ∨ world.page.saveInFlight = true →
      ∀ editor, world.page.editor = some editor → editor.initialSyncComplete = false →
        change ≤ world.saved
  | _ => True

/-- Where the page shows 'saved', PostgreSQL holds the Y.Doc. -/
def ShowsTruth (world : SaveWorld P) : Prop :=
  world.page.saveStatus = .saved → ∀ editor, world.page.editor = some editor →
    editor.ydoc ≤ world.saved

end SaveWorld

/-- One step of the backend, of a message, or of the page. -/
inductive SaveStep (allowed : SaveWorld P → ClientEvent P → Prop) :
    SaveWorld P → SaveWorld P → Prop where
  | server {world : SaveWorld P} {pool : ServerPool P}
      (step : Step (serverService P) anyEvent world.pool pool) :
      SaveStep allowed world { world with pool := pool }
  | report {world : SaveWorld P} {event : DocumentSaved P}
      (reports : Reports world.pool.state event) :
      SaveStep allowed world { world with frames := event :: world.frames }
  | answer {world : SaveWorld P} {task : TaskId} {credentials : Option UserId}
      {documentState : P.Bytes}
      (returned : world.pool.tasks task = some (.save credentials documentState, .ret ())) :
      SaveStep allowed world { world with answered := documentState :: world.answered }
  | client {world : SaveWorld P} {event : ClientEvent P} (arrives : world.Arrives event)
      (allows : allowed world event) :
      SaveStep allowed world { world with page := world.page.act event }

/-- The worlds of the runs from a new process and a new page. -/
def SaveReaches (allowed : SaveWorld P → ClientEvent P → Prop) (world : SaveWorld P) : Prop :=
  ∃ state, Booted state ∧
    Relation.ReflTransGen (SaveStep allowed) ⟨Pool.start state, [], [], .opened P⟩ world

/-! ### Editors -/

/-- What a pending comparison of an editor says: it ends without effect, or its digest
is that of the Y.Doc on the page. -/
structure ComparisonInv (saved : P.Doc) (onPage : Prop) (editor : Editor P)
    (comparison : Comparison P) : Prop where
  describes : Describes saved comparison.status.event
  version_le : comparison.version ≤ editor.comparisonVersion
  current : comparison.version = editor.comparisonVersion →
    onPage ∧ comparison.stateHash = P.stateHash (P.getUpdate editor.ydoc)

/-- The messages that an editor has received describe what PostgreSQL holds. -/
structure EditorInv (saved : P.Doc) (onPage : Prop) (editor : Editor P) : Prop where
  latest : ∀ status, editor.latestSaveStatus = some status → Describes saved status.event
  comparisons : ∀ comparison ∈ editor.comparisons, ComparisonInv saved onPage editor comparison

namespace EditorInv

variable {saved grown : P.Doc} {onPage onPage' : Prop} {editor : Editor P}

theorem create (saved : P.Doc) (onPage : Prop) : EditorInv saved onPage (.create P) :=
  ⟨nofun, nofun⟩

theorem mono (inv : EditorInv saved onPage editor) (grows : saved ≤ grown)
    (implied : onPage → onPage') : EditorInv grown onPage' editor where
  latest status known := (inv.latest status known).mono grows
  comparisons comparison pending :=
    have holds := inv.comparisons comparison pending
    ⟨holds.describes.mono grows, holds.version_le, fun same =>
      ⟨implied (holds.current same).1, (holds.current same).2⟩⟩

/-- A new comparison version puts an end to every comparison that is pending. -/
theorem outdate (inv : EditorInv saved onPage editor) (ydoc : P.Doc) :
    EditorInv saved onPage'
      { editor with ydoc := ydoc, comparisonVersion := editor.comparisonVersion + 1 } where
  latest := inv.latest
  comparisons comparison pending :=
    have holds := inv.comparisons comparison pending
    ⟨holds.describes, Nat.le_succ_of_le holds.version_le, fun same =>
      absurd holds.version_le (same ▸ Nat.not_succ_le_self _)⟩

theorem publishSaveStatus (inv : EditorInv saved onPage editor) (mounted : onPage) :
    EditorInv saved onPage editor.publishSaveStatus := by
  unfold Editor.publishSaveStatus
  split
  · exact inv
  · next status known =>
      have outdated : EditorInv saved onPage
          { editor with comparisonVersion := editor.comparisonVersion + 1 } :=
        inv.outdate editor.ydoc
      refine ⟨inv.latest, fun comparison pending => ?_⟩
      rcases List.mem_cons.mp pending with rfl | pending
      · exact ⟨inv.latest status known, le_rfl, fun _ => ⟨mounted, rfl⟩⟩
      · obtain ⟨describes, version_le, current⟩ := outdated.comparisons comparison pending
        exact ⟨describes, version_le, current⟩

theorem receiveStatus (inv : EditorInv saved onPage editor) (mounted : onPage)
    {status : SavedMessage P} (describes : Describes saved status.event) :
    EditorInv saved onPage (editor.receiveStatus status) := by
  refine publishSaveStatus ⟨fun latest known => ?_, fun comparison pending => ?_⟩ mounted
  · obtain rfl := Option.some.inj known
    exact describes
  · obtain ⟨describes, version_le, current⟩ := inv.comparisons comparison pending
    exact ⟨describes, version_le, current⟩

theorem completeSync (inv : EditorInv saved onPage editor) (mounted : onPage) :
    EditorInv saved onPage editor.completeSync := by
  refine publishSaveStatus ⟨inv.latest, fun comparison pending => ?_⟩ mounted
  obtain ⟨describes, version_le, current⟩ := inv.comparisons comparison pending
  exact ⟨describes, version_le, current⟩

/-- A digest completes. -/
theorem eraseIdx (inv : EditorInv saved onPage editor) (index : Nat) :
    EditorInv saved onPage { editor with comparisons := editor.comparisons.eraseIdx index } := by
  refine ⟨inv.latest, fun comparison pending => ?_⟩
  obtain ⟨describes, version_le, current⟩ :=
    inv.comparisons comparison (List.mem_of_mem_eraseIdx pending)
  exact ⟨describes, version_le, current⟩

end EditorInv

@[simp] theorem publishSaveStatus_ydoc (editor : Editor P) :
    editor.publishSaveStatus.ydoc = editor.ydoc := by
  unfold Editor.publishSaveStatus
  split <;> rfl

@[simp] theorem publishSaveStatus_initialSyncComplete (editor : Editor P) :
    editor.publishSaveStatus.initialSyncComplete = editor.initialSyncComplete := by
  unfold Editor.publishSaveStatus
  split <;> rfl

/-! ### The invariant of a page -/

/-- The editors and the requests of a page, over what PostgreSQL holds. -/
structure PageInv (saved : P.Doc) (page : SessionPage P) : Prop where
  editors : ∀ id, EditorInv saved (page.mounted = some id) (page.editors id)
  ready : ∀ id, page.getDocumentState = some id →
    page.mounted = some id ∧ (page.editors id).initialSyncComplete = true
  requests_le : ∀ request ∈ page.requests, request.requestId ≤ page.saveRequest
  inFlight : ∀ request ∈ page.requests, request.requestId = page.saveRequest →
    page.saveInFlight = true ∧ request.versionAtSave ≤ page.documentVersion

/-- The invariant of a page. What it shows and what it may show next is true. -/
structure SaveInv (saved : P.Doc) (page : SessionPage P) : Prop extends PageInv saved page where
  shown : page.saveStatus = .saved → ∀ id, page.mounted = some id → (page.editors id).ydoc ≤ saved
  uploaded : ∀ request ∈ page.requests, request.requestId = page.saveRequest →
    request.versionAtSave = page.documentVersion → ∀ id, page.mounted = some id →
      (page.editors id).ydoc ≤ content (some request.documentState) ⊔ saved

section Page

variable {saved grown : P.Doc} {page : SessionPage P} {id : EditorId} {editor : Editor P}

theorem saveInv_opened (saved : P.Doc) : SaveInv saved (.opened P) where
  editors _ := .create saved _
  ready := nofun
  requests_le := nofun
  inFlight := nofun
  shown := nofun
  uploaded := nofun

theorem SaveInv.mono (inv : SaveInv saved page) (grows : saved ≤ grown) : SaveInv grown page where
  editors id := (inv.editors id).mono grows fun mounted => mounted
  ready := inv.ready
  requests_le := inv.requests_le
  inFlight := inv.inFlight
  shown shows id mounted := (inv.shown shows id mounted).trans grows
  uploaded request pending latest same id mounted :=
    (inv.uploaded request pending latest same id mounted).trans (sup_le_sup_left grows _)

theorem PageInv.setEditor (inv : PageInv saved page)
    (next : EditorInv saved (page.mounted = some id) editor)
    (synced : (page.editors id).initialSyncComplete = true → editor.initialSyncComplete = true) :
    PageInv saved (page.setEditor id editor) where
  editors other := by
    change EditorInv saved _ (Function.update page.editors id editor other)
    rw [Function.update_apply]
    split
    · next same => exact same ▸ next
    · exact inv.editors other
  ready other ready := by
    obtain ⟨mounted, complete⟩ := inv.ready other ready
    refine ⟨mounted, ?_⟩
    change (Function.update page.editors id editor other).initialSyncComplete = true
    rw [Function.update_apply]
    split
    · next same => exact synced (same ▸ complete)
    · exact complete
  requests_le := inv.requests_le
  inFlight := inv.inFlight

/-- The variables of one editor change, and its Y.Doc stays within what is shown. -/
theorem SaveInv.setEditor (inv : SaveInv saved page)
    (next : EditorInv saved (page.mounted = some id) editor)
    (synced : (page.editors id).initialSyncComplete = true → editor.initialSyncComplete = true)
    (within : ∀ bound, saved ≤ bound → page.saveStatus = .saved ∨ page.saveInFlight = true →
      page.mounted = some id → (page.editors id).ydoc ≤ bound → editor.ydoc ≤ bound) :
    SaveInv saved (page.setEditor id editor) where
  toPageInv := inv.toPageInv.setEditor next synced
  shown shows other mounted := by
    change (Function.update page.editors id editor other).ydoc ≤ saved
    have holds := inv.shown shows other mounted
    rw [Function.update_apply]
    split
    · next same =>
        subst same
        exact within saved le_rfl (.inl shows) mounted holds
    · exact holds
  uploaded request pending latest same other mounted := by
    change (Function.update page.editors id editor other).ydoc ≤ _
    have holds := inv.uploaded request pending latest same other mounted
    rw [Function.update_apply]
    split
    · next same =>
        subst same
        exact within _ le_sup_right (.inr (inv.inFlight request pending latest).1) mounted holds
    · exact holds

/-- An update that a handler counts. -/
theorem PageInv.handleDocumentChange (inv : PageInv saved page) :
    SaveInv saved page.handleDocumentChange where
  editors := inv.editors
  ready := inv.ready
  requests_le := inv.requests_le
  inFlight request pending latest :=
    ⟨(inv.inFlight request pending latest).1,
      Nat.le_succ_of_le (inv.inFlight request pending latest).2⟩
  shown shows := by
    change (if page.saveStatus = .saving then SaveStatus.saving else .unsaved) = .saved at shows
    split at shows <;> cases shows
  uploaded request pending latest same := by
    have older := (inv.inFlight request pending latest).2
    rw [same] at older
    exact absurd older (Nat.not_succ_le_self _)

theorem PageInv.handleSnapshotRestored (inv : PageInv saved page) :
    SaveInv saved page.handleSnapshotRestored where
  editors := inv.editors
  ready := inv.ready
  requests_le := inv.requests_le
  inFlight request pending latest :=
    ⟨(inv.inFlight request pending latest).1,
      Nat.le_succ_of_le (inv.inFlight request pending latest).2⟩
  shown := nofun
  uploaded request pending latest same := by
    have older := (inv.inFlight request pending latest).2
    rw [same] at older
    exact absurd older (Nat.not_succ_le_self _)

/-- No request that is pending is the latest one any more. -/
theorem PageInv.handleAuthorizationChange (inv : PageInv saved page) :
    SaveInv saved page.handleAuthorizationChange where
  editors := inv.editors
  ready := nofun
  requests_le request pending := Nat.le_succ_of_le (inv.requests_le request pending)
  inFlight request pending latest :=
    absurd (inv.requests_le request pending) (latest ▸ Nat.not_succ_le_self _)
  shown := nofun
  uploaded request pending latest :=
    absurd (inv.requests_le request pending) (latest ▸ Nat.not_succ_le_self _)

theorem SaveInv.handleDocumentSaveStatus (inv : SaveInv saved page) {status : DocumentSaved P}
    {matchesCurrentDocument : Bool} (matching : matchesCurrentDocument = true →
      ∀ id, page.mounted = some id → (page.editors id).ydoc ≤ saved) :
    SaveInv saved (page.handleDocumentSaveStatus status matchesCurrentDocument) where
  editors := inv.editors
  ready := inv.ready
  requests_le := inv.requests_le
  inFlight := inv.inFlight
  shown shows := by
    change (if page.saveInFlight then SaveStatus.saving
      else if !status.dirty && matchesCurrentDocument then .saved else .unsaved) = .saved at shows
    split at shows
    · cases shows
    split at shows
    · next isSaved => exact matching (Bool.and_eq_true_iff.mp isSaved).2
    · cases shows
  uploaded := inv.uploaded

theorem SaveInv.handleDocumentReady (inv : SaveInv saved page) (getState : Option EditorId)
    (ready : ∀ id, getState = some id →
      page.mounted = some id ∧ (page.editors id).initialSyncComplete = true) :
    SaveInv saved (page.handleDocumentReady getState) where
  editors := inv.editors
  ready := ready
  requests_le := inv.requests_le
  inFlight := inv.inFlight
  shown := inv.shown
  uploaded := inv.uploaded

/-- What a call of `handleSave` may do. -/
theorem handleSave_cases (viewer : Bool) (page : SessionPage P) :
    (page.handleSave viewer = page ∧ (viewer = true ∨ page.saveInFlight = true)) ∨
      (page.handleSave viewer = { page with saveStatus := .error } ∧ page.getDocumentState = none) ∨
        ∃ id, page.handleSave viewer = { page with
          saveRequest := page.saveRequest + 1
          saveInFlight := true
          saveStatus := .saving
          requests := ⟨page.saveRequest + 1, page.documentVersion,
            P.getUpdate (page.editors id).ydoc⟩ :: page.requests } ∧
          page.getDocumentState = some id := by
  unfold SessionPage.handleSave
  split
  · next idle => exact .inl ⟨rfl, (Bool.or_eq_true _ _).mp idle⟩
  split
  · next missing => exact .inr (.inl ⟨rfl, missing⟩)
  · next id ready => exact .inr (.inr ⟨id, rfl, ready⟩)

/-- Every request is older than the next one. -/
theorem PageInv.older (inv : PageInv saved page) :
    ∀ request ∈ page.requests, request.requestId ≠ page.saveRequest + 1 :=
  fun request pending => Nat.ne_of_lt (Nat.lt_succ_of_le (inv.requests_le request pending))

theorem PageInv.handleSave (inv : PageInv saved page) (viewer : Bool) :
    PageInv saved (page.handleSave viewer) := by
  rcases handleSave_cases viewer page with ⟨same, _⟩ | ⟨same, _⟩ | ⟨id, same, _⟩
  · rwa [same]
  · rw [same]
    exact ⟨inv.editors, inv.ready, inv.requests_le, inv.inFlight⟩
  · rw [same]
    refine ⟨inv.editors, inv.ready, fun request pending => ?_, fun request pending latest => ?_⟩
    · rcases List.mem_cons.mp pending with rfl | pending
      · exact le_rfl
      · exact Nat.le_succ_of_le (inv.requests_le request pending)
    · rcases List.mem_cons.mp pending with rfl | pending
      · exact ⟨rfl, le_rfl⟩
      · exact absurd latest (inv.older request pending)

theorem SaveInv.handleSave (inv : SaveInv saved page) (viewer : Bool) :
    SaveInv saved (page.handleSave viewer) := by
  have after := inv.toPageInv.handleSave viewer
  rcases handleSave_cases viewer page with ⟨same, _⟩ | ⟨same, _⟩ | ⟨id, same, ready⟩
  · rwa [same]
  · rw [same] at after ⊢
    exact { toPageInv := after, shown := nofun, uploaded := inv.uploaded }
  · rw [same] at after ⊢
    refine { toPageInv := after, shown := nofun, uploaded := ?_ }
    obtain ⟨mounted, _⟩ := inv.ready id ready
    intro request pending latest _ other mountedToo
    rcases List.mem_cons.mp pending with rfl | pending
    · obtain rfl := Option.some.inj (mounted.symm.trans mountedToo)
      rw [content_getUpdate]
      exact le_sup_left
    · exact absurd latest (inv.older request pending)

/-- What the end of a request may do. Only a clean response to the latest request, over a
document that has not changed since, shows 'saved'. -/
theorem finishSave_cases (request : SaveRequest P) (response : Option SaveResponse)
    (page : SessionPage P) :
    (page.finishSave request response = { page with
        requests := page.requests.filter (·.requestId ≠ request.requestId) } ∧
      page.saveRequest ≠ request.requestId) ∨
      ∃ saveStatus lastSavedAt, page.finishSave request response = { page with
        saveStatus := saveStatus
        lastSavedAt := lastSavedAt
        saveInFlight := false
        requests := page.requests.filter (·.requestId ≠ request.requestId) } ∧
      page.saveRequest = request.requestId ∧
        (saveStatus = .saved ↔ ∃ answer, response = some answer ∧ answer.dirty = false ∧
          page.documentVersion = request.versionAtSave) := by
  unfold SessionPage.finishSave
  dsimp only
  split
  · next different => exact .inl ⟨rfl, different⟩
  next same =>
    refine .inr ?_
    cases response with
    | none => exact ⟨_, _, rfl, not_not.mp same, nofun, nofun⟩
    | some answer =>
        refine ⟨_, _, rfl, not_not.mp same, fun shows => ?_, ?_⟩
        · split at shows
          · next isSaved =>
              obtain ⟨clean, unchanged⟩ := Bool.and_eq_true_iff.mp isSaved
              exact ⟨answer, rfl, Bool.not_eq_true' _ ▸ clean, of_decide_eq_true unchanged⟩
          · cases shows
        · rintro ⟨_, known, clean, unchanged⟩
          obtain rfl := Option.some.inj known
          rw [clean, unchanged, decide_eq_true rfl]
          rfl

theorem mem_remaining {request other : SaveRequest P} {requests : List (SaveRequest P)}
    (member : other ∈ requests.filter (·.requestId ≠ request.requestId)) :
    other ∈ requests ∧ other.requestId ≠ request.requestId := by
  obtain ⟨member, different⟩ := List.mem_filter.mp member
  exact ⟨member, of_decide_eq_true different⟩

theorem PageInv.finishSave (inv : PageInv saved page) (request : SaveRequest P)
    (response : Option SaveResponse) : PageInv saved (page.finishSave request response) := by
  rcases finishSave_cases request response page with ⟨same, _⟩ | ⟨_, _, same, latest, _⟩
  · rw [same]
    exact ⟨inv.editors, inv.ready,
      fun other member => inv.requests_le other (mem_remaining member).1,
      fun other member => inv.inFlight other (mem_remaining member).1⟩
  · rw [same]
    exact ⟨inv.editors, inv.ready,
      fun other member => inv.requests_le other (mem_remaining member).1,
      fun other member newest => absurd (newest.trans latest) (mem_remaining member).2⟩

/-- A response of the backend means that PostgreSQL holds what was sent. -/
theorem SaveInv.finishSave (inv : SaveInv saved page) {request : SaveRequest P}
    (pending : request ∈ page.requests) {response : Option SaveResponse}
    (stored : response.isSome = true → content (some request.documentState) ≤ saved) :
    SaveInv saved (page.finishSave request response) := by
  have after := inv.toPageInv.finishSave request response
  rcases finishSave_cases request response page with ⟨same, _⟩ | ⟨_, _, same, latest, shows⟩
  · rw [same] at after ⊢
    exact { toPageInv := after, shown := inv.shown,
            uploaded := fun other member => inv.uploaded other (mem_remaining member).1 }
  · rw [same] at after ⊢
    refine { toPageInv := after, shown := fun isSaved id mounted => ?_,
             uploaded := fun other member newest =>
               absurd (newest.trans latest) (mem_remaining member).2 }
    obtain ⟨answer, rfl, _, unchanged⟩ := shows.mp isSaved
    have held := inv.uploaded request pending latest.symm unchanged.symm id mounted
    exact held.trans (sup_le (stored rfl) le_rfl)

/-- A digest that is still current is that of the Y.Doc on the page. -/
theorem EditorInv.ydoc_le {onPage : Prop} (inv : EditorInv saved onPage editor)
    (injective : ∀ first second : P.Doc,
      P.stateHash (P.getUpdate first) = P.stateHash (P.getUpdate second) → first = second)
    {comparison : Comparison P} (pending : comparison ∈ editor.comparisons)
    (current : editor.isCurrent comparison = true)
    (matching : comparison.stateHash = comparison.status.event.stateHash) :
    onPage ∧ editor.ydoc ≤ saved := by
  obtain ⟨⟨state, contained, hash⟩, _, describes⟩ := inv.comparisons comparison pending
  obtain ⟨onPage, digest⟩ := describes (of_decide_eq_true (Bool.and_eq_true_iff.mp current).1)
  have same : editor.ydoc = state := injective _ _ (digest.symm.trans (matching.trans hash))
  exact ⟨onPage, same ▸ contained⟩

theorem SaveInv.mount (inv : SaveInv saved page) : SaveInv saved (page.act .mount) := by
  rw [SessionPage.act]
  split
  · exact inv
  next empty =>
    have fresh : ∀ bound : P.Doc, ∀ id, some page.nextEditor = some id →
        (Function.update page.editors page.nextEditor (.create P) id).ydoc ≤ bound := by
      rintro bound id same
      obtain rfl := Option.some.inj same
      rw [Function.update_self]
      exact bot_le
    refine { editors := fun id => ?_, ready := fun id ready => ?_, requests_le := inv.requests_le,
             inFlight := inv.inFlight, shown := fun _ => fresh saved,
             uploaded := fun _ _ _ _ => fresh _ }
    · change EditorInv saved _ (Function.update page.editors page.nextEditor (.create P) id)
      rw [Function.update_apply]
      split
      · exact .create saved _
      · exact (inv.editors id).mono le_rfl fun mounted => nomatch empty.symm.trans mounted
    · exact nomatch empty.symm.trans (inv.ready id ready).1

/-- The page without an editor. -/
theorem SaveInv.unmounted (inv : SaveInv saved page)
    (detached : ∀ id, EditorInv saved (none = some id) (page.editors id)) :
    SaveInv saved { page with
      mounted := none
      getDocumentState := none
      documentReady := false } where
  editors := detached
  ready := nofun
  requests_le := inv.requests_le
  inFlight := inv.inFlight
  shown := nofun
  uploaded := nofun

theorem SaveInv.unmount (inv : SaveInv saved page) : SaveInv saved (page.act .unmount) := by
  cases mounted : page.mounted with
  | none =>
      simp only [SessionPage.act, SessionPage.onEditor, mounted, SessionPage.handleDocumentReady]
      exact inv.unmounted fun id => mounted ▸ inv.editors id
  | some id =>
      simp only [SessionPage.act, SessionPage.onEditor, mounted, SessionPage.handleDocumentReady]
      have cleaned : SaveInv saved (page.setEditor id (page.editors id).cleanup) :=
        inv.setEditor ((inv.editors id).outdate _) (fun synced => synced)
          fun bound _ _ _ within => within
      refine cleaned.unmounted fun other => ?_
      change EditorInv saved _ (Function.update page.editors id _ other)
      rw [Function.update_apply]
      split
      · exact (inv.editors id).outdate _
      · next different =>
          exact (inv.editors other).mono le_rfl fun mountedToo =>
            absurd (Option.some.inj (mountedToo.symm.trans mounted)) different

/-- An update that no handler counts brings nothing new while 'saved' is at stake. -/
theorem SaveInv.update (inv : SaveInv saved page) {change : P.Doc}
    (counts : page.saveStatus = .saved ∨ page.saveInFlight = true → ∀ editor,
      page.editor = some editor → editor.initialSyncComplete = false → change ≤ saved) :
    SaveInv saved (page.act (.update change)) := by
  rw [SessionPage.act]
  cases mounted : page.mounted with
  | none =>
      simp only [SessionPage.onEditor, mounted]
      exact inv
  | some id =>
      simp only [SessionPage.onEditor, mounted]
      have changed : EditorInv saved (page.mounted = some id)
          ((page.editors id).applyUpdate change) := (inv.editors id).outdate _
      have present : page.editor = some (page.editors id) := by
        rw [SessionPage.editor, mounted]
        rfl
      cases synced : (page.editors id).initialSyncComplete with
      | true => exact (inv.toPageInv.setEditor changed fun synced => synced).handleDocumentChange
      | false =>
          refine inv.setEditor changed (fun synced => synced) fun bound grown atStake _ within => ?_
          exact sup_le within ((counts atStake _ present synced).trans grown)

theorem SaveInv.sync (inv : SaveInv saved page) (synced : Bool) :
    SaveInv saved (page.act (.sync synced)) := by
  rw [SessionPage.act]
  cases mounted : page.mounted with
  | none =>
      simp only [SessionPage.onEditor, mounted]
      exact inv
  | some id =>
      simp only [SessionPage.onEditor, mounted]
      split
      · have completed : SaveInv saved (page.setEditor id (page.editors id).completeSync) :=
          inv.setEditor ((inv.editors id).completeSync mounted)
            (fun _ => by rw [Editor.completeSync, publishSaveStatus_initialSyncComplete])
            fun bound _ _ _ within => by rwa [Editor.completeSync, publishSaveStatus_ydoc]
        refine completed.handleDocumentReady (some id) fun other same => ?_
        obtain rfl := Option.some.inj same
        refine ⟨mounted, ?_⟩
        change (Function.update page.editors id _ id).initialSyncComplete = true
        rw [Function.update_self, Editor.completeSync, publishSaveStatus_initialSyncComplete]
      · exact inv

theorem SaveInv.documentSaved (inv : SaveInv saved page) {event : DocumentSaved P}
    (describes : Describes saved event) : SaveInv saved (page.act (.documentSaved event)) := by
  rw [SessionPage.act]
  cases mounted : page.mounted with
  | none =>
      simp only [SessionPage.onEditor, mounted]
      exact inv
  | some id =>
      simp only [SessionPage.onEditor, mounted]
      have received : SaveInv saved
          (page.setEditor id ((page.editors id).receiveStatus ⟨page.nextMessage, event⟩)) :=
        inv.setEditor ((inv.editors id).receiveStatus mounted describes)
          (fun synced => by rwa [Editor.receiveStatus, publishSaveStatus_initialSyncComplete])
          fun bound _ _ _ within => by rwa [Editor.receiveStatus, publishSaveStatus_ydoc]
      exact { received with }

theorem SaveInv.digest (inv : SaveInv saved page)
    (injective : ∀ first second : P.Doc,
      P.stateHash (P.getUpdate first) = P.stateHash (P.getUpdate second) → first = second)
    (id : EditorId) (index : Nat) (succeeds : Bool) :
    SaveInv saved (page.act (.digest id index succeeds)) := by
  rw [SessionPage.act]
  cases found : (page.editors id).comparisons[index]? with
  | none =>
      exact inv
  | some comparison =>
      dsimp only
      have completed := inv.setEditor ((inv.editors id).eraseIdx index) (fun synced => synced)
        fun bound _ _ _ within => within
      split
      · next current =>
          refine completed.handleDocumentSaveStatus fun matching other mountedToo => ?_
          obtain ⟨mounted, held⟩ := (inv.editors id).ydoc_le injective
            (List.mem_of_getElem? found) (Bool.and_eq_true_iff.mp current).2
            (of_decide_eq_true matching)
          obtain rfl := Option.some.inj (mounted.symm.trans mountedToo)
          change (Function.update page.editors id _ id).ydoc ≤ saved
          rwa [Function.update_self]
      · exact completed

/-- A response comes to a request that is pending. -/
theorem act_response_cases (requestId : Nat) (response : Option SaveResponse)
    (page : SessionPage P) :
    page.act (.response requestId response) = page ∨
      ∃ request ∈ page.requests, request.requestId = requestId ∧
        page.act (.response requestId response) = page.finishSave request response := by
  rw [SessionPage.act]
  cases found : page.requests.find? (·.requestId = requestId) with
  | none => exact .inl rfl
  | some request =>
      have answers := List.find?_some found
      rw [decide_eq_true_iff] at answers
      exact .inr ⟨request, List.mem_of_find?_eq_some found, answers, rfl⟩

theorem SaveInv.response (inv : SaveInv saved page) {requestId : Nat}
    {response : Option SaveResponse} (stored : response.isSome = true →
      ∀ request ∈ page.requests, request.requestId = requestId →
        content (some request.documentState) ≤ saved) :
    SaveInv saved (page.act (.response requestId response)) := by
  rcases act_response_cases requestId response page with same | ⟨request, pending, own, same⟩
  · rwa [same]
  · rw [same]
    exact inv.finishSave pending fun answered => stored answered request pending own

end Page

/-! ### Every run -/

namespace SaveReaches

variable {allowed : SaveWorld P → ClientEvent P → Prop} {world next : SaveWorld P}

theorem step (reaches : SaveReaches allowed world) (step : SaveStep allowed world next) :
    SaveReaches allowed next := by
  obtain ⟨state, booted, steps⟩ := reaches
  exact ⟨state, booted, steps.tail step⟩

/-- The backend may run before the page is opened. -/
theorem of_reachable {pool : ServerPool P}
    (reached : Reachable (serverService P) anyEvent Booted pool) :
    SaveReaches allowed ⟨pool, [], [], .opened P⟩ := by
  induction reached with
  | start booted => exact ⟨_, booted, .refl⟩
  | step _ step inductionHypothesis => exact inductionHypothesis.step (.server step)

theorem act (reaches : SaveReaches allowed world) (event : ClientEvent P)
    (arrives : world.Arrives event) (allows : allowed world event) :
    SaveReaches allowed { world with page := world.page.act event } :=
  reaches.step (.client arrives allows)

end SaveReaches

structure SaveWorldInv (world : SaveWorld P) : Prop where
  reached : Reachable (serverService P) anyEvent Booted world.pool
  frames : ∀ event ∈ world.frames, Describes world.saved event
  answered : ∀ documentState ∈ world.answered, content (some documentState) ≤ world.saved
  page : SaveInv world.saved world.page

namespace SaveWorldInv

variable {world next : SaveWorld P}

theorem client (inv : SaveWorldInv world)
    (injective : ∀ first second : P.Doc,
      P.stateHash (P.getUpdate first) = P.stateHash (P.getUpdate second) → first = second)
    {event : ClientEvent P} (arrives : world.Arrives event) (counts : world.CountsUpdates event) :
    SaveInv world.saved (world.page.act event) := by
  cases event with
  | mount => exact inv.page.mount
  | unmount => exact inv.page.unmount
  | update change => exact inv.page.update counts
  | sync synced => exact inv.page.sync synced
  | documentSaved event => exact inv.page.documentSaved (inv.frames event arrives)
  | digest id index succeeds => exact inv.page.digest injective id index succeeds
  | authorizationClose =>
      rw [SessionPage.act]
      unfold SessionPage.onEditor
      split
      · exact inv.page
      · exact inv.page.handleAuthorizationChange
  | snapshotRestored => exact inv.page.toPageInv.handleSnapshotRestored
  | save viewer => exact inv.page.handleSave viewer
  | response requestId response =>
      refine inv.page.response fun answered request pending answers => ?_
      cases response with
      | none => cases answered
      | some response => exact inv.answered _ (arrives request pending answers)

theorem step (inv : SaveWorldInv world)
    (injective : ∀ first second : P.Doc,
      P.stateHash (P.getUpdate first) = P.stateHash (P.getUpdate second) → first = second)
    (step : SaveStep SaveWorld.CountsUpdates world next) : SaveWorldInv next := by
  cases step with
  | @server pool step =>
      have grows : world.saved ≤ pool.state.store.savedContent :=
        (savedGrows_of_step inv.reached step).saved_le
      exact {
        reached := inv.reached.step step
        frames := fun event sent => (inv.frames event sent).mono grows
        answered := fun documentState sent => (inv.answered documentState sent).trans grows
        page := inv.page.mono grows }
  | @report event reports =>
      refine { inv with frames := fun other sent => ?_ }
      rcases List.mem_cons.mp sent with rfl | sent
      · exact describes_of_reports inv.reached reports
      · exact inv.frames other sent
  | answer returned =>
      refine { inv with answered := fun other sent => ?_ }
      rcases List.mem_cons.mp sent with rfl | sent
      · exact holdsSaved_of_returned inv.reached returned
      · exact inv.answered other sent
  | client arrives counts => exact { inv with page := inv.client injective arrives counts }

end SaveWorldInv

theorem SaveReaches.inv
    (injective : ∀ first second : P.Doc,
      P.stateHash (P.getUpdate first) = P.stateHash (P.getUpdate second) → first = second)
    {world : SaveWorld P} (reaches : SaveReaches SaveWorld.CountsUpdates world) :
    SaveWorldInv world := by
  obtain ⟨state, booted, steps⟩ := reaches
  induction steps with
  | refl => exact ⟨.start booted, nofun, nofun, saveInv_opened _⟩
  | tail _ step inductionHypothesis => exact inductionHypothesis.step injective step

/-- With a digest without collisions, and while every update that comes before the
initial sync brings only what PostgreSQL holds, 'saved' is true in every run. -/
theorem saved_indicator_is_true
    (injective : ∀ first second : P.Doc,
      P.stateHash (P.getUpdate first) = P.stateHash (P.getUpdate second) → first = second)
    {world : SaveWorld P} (reaches : SaveReaches SaveWorld.CountsUpdates world) :
    world.ShowsTruth := by
  intro shows editor present
  obtain ⟨id, mounted, rfl⟩ := Option.map_eq_some_iff.mp present
  exact (reaches.inv injective).page.shown shows id mounted

/-- Where the page shows 'saved', an update that breaks the condition makes it untrue. -/
theorem not_showsTruth_of_uncounted {world : SaveWorld P} {change : P.Doc} {editor : Editor P}
    (shows : world.page.saveStatus = .saved) (present : world.page.editor = some editor)
    (unsynced : editor.initialSyncComplete = false) (unsaved : ¬change ≤ world.saved) :
    ¬SaveWorld.ShowsTruth { world with page := world.page.act (.update change) } := by
  intro truth
  obtain ⟨id, mounted, rfl⟩ := Option.map_eq_some_iff.mp present
  have updated : world.page.act (.update change) =
      world.page.setEditor id ((world.page.editors id).applyUpdate change) := by
    rw [SessionPage.act]
    simp only [SessionPage.onEditor, mounted, unsynced, Bool.false_eq_true, if_false]
  rw [updated] at truth
  have onPage : (world.page.setEditor id ((world.page.editors id).applyUpdate change)).editor =
      some ((world.page.editors id).applyUpdate change) := by
    rw [SessionPage.editor, SessionPage.setEditor, mounted]
    exact congrArg some (Function.update_self id _ _)
  exact unsaved (le_sup_right.trans (truth shows _ onPage))

/-! ### A page that joins -/

/-- The status of the session is reported before a page joins. -/
theorem saveReaches_reported (allowed : SaveWorld editLog → ClientEvent editLog → Prop)
    {schedule : Schedule} {dirty : Bool} {stateHash : editLog.Hash}
    (reports : (samplePool schedule).map (fun pool =>
      pool.state.store.getDocumentStatus.map fun status => (status.dirty, status.savedStateHash)) =
        some (some (dirty, stateHash))) :
    ∃ pool frame, samplePool schedule = some pool ∧ frame.dirty = dirty ∧
      frame.stateHash = stateHash ∧ SaveReaches allowed ⟨pool, [frame], [], .opened editLog⟩ := by
  obtain ⟨pool, played, facts⟩ := Option.map_eq_some_iff.mp reports
  obtain ⟨status, current, facts⟩ := Option.map_eq_some_iff.mp facts
  obtain ⟨rfl, rfl⟩ := Prod.mk.inj facts
  exact ⟨pool, statusFrame status, played, rfl, rfl,
    (SaveReaches.of_reachable (reachable_samplePool played)).step (.report (.status current))⟩

/-- A page joins after `saveRun`: the status comes before the document, and the digest
is computed again after the initial sync. -/
theorem saved_indicator_is_true_run :
    ∃ world : SaveWorld editLog, world.page.saveStatus = .saved ∧
      world.page.editor.map (·.ydoc) = some {2} ∧ world.ShowsTruth := by
  have reports : (samplePool saveRun).map (fun pool => pool.state.store.getDocumentStatus.map
      fun status => (status.dirty, status.savedStateHash)) = some (some (false, some {2})) := by
    decide
  obtain ⟨pool, frame, _, clean, hash, reaches⟩ :=
    saveReaches_reported SaveWorld.CountsUpdates reports
  have joined := (reaches.act .mount trivial trivial).act (.documentSaved frame)
    (List.mem_singleton_self frame) trivial
  have edited := joined.act (.update {2}) trivial (by rintro (shows | inFlight) <;> contradiction)
  have synced := (edited.act (.sync true) trivial trivial).act (.digest 0 0 true) trivial trivial
  refine ⟨_, ?_, ?_, saved_indicator_is_true (fun _ _ same => Option.some.inj same) synced⟩
  · obtain ⟨_, _, _, _, _⟩ := frame
    obtain rfl := clean
    obtain rfl := hash
    rfl
  · rfl

/-- An edit before the initial sync of a new session leaves 'saved' in place. -/
theorem saved_indicator_over_unsaved_edit :
    (∀ first second : editLog.Doc, editLog.stateHash (editLog.getUpdate first) =
      editLog.stateHash (editLog.getUpdate second) → first = second) ∧
      ∃ world : SaveWorld editLog, SaveReaches (fun _ _ => True) world ∧ ¬world.ShowsTruth := by
  have reports : (samplePool (joinFirst 0 .done)).map (fun pool =>
      pool.state.store.getDocumentStatus.map fun status =>
        (status.dirty, status.savedStateHash)) = some (some (false, some ∅)) := by
    decide
  have unsaved : (samplePool (joinFirst 0 .done)).map (·.state.store.savedContent) = some ∅ := by
    decide
  obtain ⟨pool, frame, played, clean, hash, reaches⟩ :=
    saveReaches_reported (fun _ _ => True) reports
  have joined := (reaches.act .mount trivial trivial).act (.documentSaved frame)
    (List.mem_singleton_self frame) trivial
  have shown := joined.act (.digest 0 0 true) trivial trivial
  refine ⟨fun _ _ same => Option.some.inj same, _, shown.act (.update {2}) trivial trivial, ?_⟩
  refine not_showsTruth_of_uncounted ?_ rfl rfl ?_
  · obtain ⟨_, _, _, _, _⟩ := frame
    obtain rfl := clean
    obtain rfl := hash
    rfl
  · rw [played] at unsaved
    have nothing : pool.state.store.savedContent = ∅ := Option.some.inj unsaved
    change ¬({2} : Finset Nat) ≤ pool.state.store.savedContent
    rw [nothing]
    decide

end Concord.Client

import Concord.Client.SavedIndicator

/-!
Contract: the pending comparison of a page, and what the page shows without one.

Owns:
- `Pending`, a comparison of the latest message whose digest has not completed;
- `MountedInv`, what the events of a page with one editor keep: 'saved' is true, or a
  comparison that will decide it is pending;
- `ShowsAgreement`: a Y.Doc that agrees with the latest message is shown as saved, or will be.

The initial sync compares again. So an update before it, which no handler counts, is
compared by then, and one after it withdraws 'saved'.

Does not own: pages that are mounted again, and whose messages these are.
-/

set_option autoImplicit false

namespace Concord.Client

open Platform Server

variable {P : Platform}

/-! ### The editor -/

namespace Editor

/-- A comparison is pending that `publishSaveStatus` will not drop. -/
def Pending (editor : Editor P) : Prop :=
  ∃ comparison ∈ editor.comparisons, editor.isCurrent comparison = true

/-- A comparison with the current version compares the latest message. -/
def Fresh (editor : Editor P) : Prop :=
  ∀ comparison ∈ editor.comparisons, comparison.version = editor.comparisonVersion →
    editor.latestSaveStatus = some comparison.status

/-- The Y.Doc is the document that the latest message reports, as clean. -/
def Agrees (editor : Editor P) : Prop :=
  ∃ status, editor.latestSaveStatus = some status ∧ status.event.dirty = false ∧
    status.event.stateHash = P.stateHash (P.getUpdate editor.ydoc)

/-- What PostgreSQL holds justifies 'saved', or a pending comparison will decide. Before
the initial sync there is a message to compare again. -/
def Justified (saved : P.Doc) (editor : Editor P) : Prop :=
  if editor.initialSyncComplete then editor.ydoc ≤ saved ∨ editor.Pending
  else editor.latestSaveStatus ≠ none

private theorem fresh_create : (create P).Fresh := nofun

end Editor

open Editor

section

variable {saved grown : P.Doc} {onPage : Prop} {editor : Editor P}

@[simp] theorem publishSaveStatus_latest (editor : Editor P) :
    editor.publishSaveStatus.latestSaveStatus = editor.latestSaveStatus := by
  unfold Editor.publishSaveStatus
  split <;> rfl

private theorem publishSaveStatus_of_some {status : SavedMessage P}
    (known : editor.latestSaveStatus = some status) :
    editor.publishSaveStatus = { editor with
      comparisonVersion := editor.comparisonVersion + 1
      comparisons := ⟨status, editor.comparisonVersion + 1,
        P.stateHash (P.getUpdate editor.ydoc)⟩ :: editor.comparisons } := by
  unfold Editor.publishSaveStatus
  rw [known]

private theorem pending_publishSaveStatus (known : editor.latestSaveStatus ≠ none) :
    editor.publishSaveStatus.Pending := by
  obtain ⟨status, known⟩ := Option.ne_none_iff_exists'.mp known
  rw [publishSaveStatus_of_some known]
  refine ⟨_, List.mem_cons_self, ?_⟩
  simp [Editor.isCurrent, known]

/-- Every older comparison has an older version. -/
theorem fresh_of_bump (versions : ∀ comparison ∈ editor.comparisons,
    comparison.version ≤ editor.comparisonVersion) (ydoc : P.Doc) :
    Fresh { editor with ydoc := ydoc, comparisonVersion := editor.comparisonVersion + 1 } :=
  fun comparison member same => absurd (versions comparison member) (same ▸ Nat.not_succ_le_self _)

private theorem fresh_publishSaveStatus (versions : ∀ comparison ∈ editor.comparisons,
    comparison.version ≤ editor.comparisonVersion) (fresh : editor.Fresh) :
    editor.publishSaveStatus.Fresh := by
  cases known : editor.latestSaveStatus with
  | none =>
      unfold Editor.publishSaveStatus
      rwa [known]
  | some status =>
      rw [publishSaveStatus_of_some known]
      intro comparison member same
      rcases List.mem_cons.mp member with rfl | older
      · exact known
      · exact fresh_of_bump versions editor.ydoc comparison older same

/-- A new message makes every older comparison out of date. -/
theorem fresh_receiveStatus (versions : ∀ comparison ∈ editor.comparisons,
    comparison.version ≤ editor.comparisonVersion) (status : SavedMessage P) :
    (editor.receiveStatus status).Fresh := by
  unfold Editor.receiveStatus
  rw [publishSaveStatus_of_some rfl]
  intro comparison member same
  rcases List.mem_cons.mp member with rfl | older
  · rfl
  · exact absurd (versions comparison older) (same ▸ Nat.not_succ_le_self _)

theorem Editor.Fresh.eraseIdx (fresh : editor.Fresh) (index : Nat) :
    Fresh { editor with comparisons := editor.comparisons.eraseIdx index } :=
  fun comparison member => fresh comparison (List.mem_of_mem_eraseIdx member)

/-- A pending comparison outlives the end of one that is dropped. -/
theorem Editor.Pending.eraseIdx (pending : editor.Pending) {index : Nat}
    {comparison : Comparison P} (found : editor.comparisons[index]? = some comparison)
    (dropped : ¬editor.isCurrent comparison = true) :
    Pending { editor with comparisons := editor.comparisons.eraseIdx index } := by
  obtain ⟨other, member, current⟩ := pending
  refine ⟨other, ?_, current⟩
  obtain ⟨position, there⟩ := List.mem_iff_getElem?.mp member
  refine List.mem_eraseIdx_iff_getElem?.mpr ⟨position, ?_, there⟩
  rintro rfl
  obtain rfl := Option.some.inj (found.symm.trans there)
  exact dropped current

/-- A comparison that is not dropped compares the latest message with the Y.Doc. -/
theorem agrees_iff_of_current (inv : EditorInv saved onPage editor) (fresh : editor.Fresh)
    {comparison : Comparison P} (member : comparison ∈ editor.comparisons)
    (current : editor.isCurrent comparison = true) :
    editor.Agrees ↔ (!comparison.status.event.dirty &&
      decide (comparison.stateHash = comparison.status.event.stateHash)) = true := by
  have same : comparison.version = editor.comparisonVersion :=
    of_decide_eq_true (Bool.and_eq_true_iff.mp current).1
  obtain ⟨-, digest⟩ := (inv.comparisons comparison member).current same
  have known := fresh comparison member same
  rw [Bool.and_eq_true, decide_eq_true_iff, Bool.not_eq_true', digest]
  constructor
  · rintro ⟨status, latest, clean, agrees⟩
    obtain rfl := Option.some.inj (known.symm.trans latest)
    exact ⟨clean, agrees.symm⟩
  · rintro ⟨clean, agrees⟩
    exact ⟨comparison.status, known, clean, agrees.symm⟩

theorem Editor.Justified.mono (justified : editor.Justified saved) (grows : saved ≤ grown) :
    editor.Justified grown := by
  unfold Editor.Justified at justified ⊢
  split
  · next synced =>
      rw [if_pos synced] at justified
      exact justified.imp_left fun held => held.trans grows
  · next unsynced =>
      rwa [if_neg unsynced] at justified

/-- A page with a message to compare has published a comparison. -/
theorem justified_of_pending (pending : editor.Pending) (known : editor.latestSaveStatus ≠ none) :
    editor.Justified saved := by
  unfold Editor.Justified
  split
  · exact .inr pending
  · exact known

end

/-! ### The page -/

/-- The page of one editor that stays mounted. -/
structure MountedInv (saved : P.Doc) (id : EditorId) (page : SessionPage P) : Prop
    extends PageInv saved page where
  mounted : page.mounted = some id
  fresh : (page.editors id).Fresh
  exported : (page.editors id).initialSyncComplete = true → page.getDocumentState = some id
  shown : page.saveStatus = .saved → (page.editors id).Justified saved
  uploaded : ∀ request ∈ page.requests, request.requestId = page.saveRequest →
    (page.editors id).initialSyncComplete = true ∧
      (request.versionAtSave = page.documentVersion →
        (page.editors id).ydoc ≤ content (some request.documentState) ⊔ saved)

/-- Where the Y.Doc agrees with the latest message, the page shows 'saved', or a digest or
a response will decide. -/
def ShowsAgreement (id : EditorId) (page : SessionPage P) : Prop :=
  (page.editors id).initialSyncComplete = true → (page.editors id).Agrees →
    page.saveStatus = .saved ∨ (page.editors id).Pending ∨ page.saveInFlight = true

section Page

variable {saved grown : P.Doc} {page : SessionPage P} {id : EditorId} {editor : Editor P}

theorem SessionPage.editor_of_mounted (mounted : page.mounted = some id) :
    page.editor = some (page.editors id) := by
  rw [SessionPage.editor, mounted]
  rfl

theorem SessionPage.setEditor_self (id : EditorId) (editor : Editor P) (page : SessionPage P) :
    (page.setEditor id editor).editors id = editor := by
  unfold SessionPage.setEditor
  exact Function.update_self id editor page.editors

theorem SessionPage.setEditor_of_ne {other : EditorId} (different : other ≠ id)
    (editor : Editor P) (page : SessionPage P) :
    (page.setEditor other editor).editors id = page.editors id := by
  unfold SessionPage.setEditor
  exact Function.update_of_ne different.symm editor page.editors

theorem MountedInv.mono (inv : MountedInv saved id page) (grows : saved ≤ grown) :
    MountedInv grown id page where
  editors other := (inv.editors other).mono grows fun mounted => mounted
  ready := inv.ready
  requests_le := inv.requests_le
  inFlight := inv.inFlight
  mounted := inv.mounted
  fresh := inv.fresh
  exported := inv.exported
  shown shows := (inv.shown shows).mono grows
  uploaded request pending latest :=
    have holds := inv.uploaded request pending latest
    ⟨holds.1, fun same => (holds.2 same).trans (sup_le_sup_left grows _)⟩

/-- The first editor of a new page. -/
theorem mountedInv_opened (saved : P.Doc) :
    MountedInv saved 0 ((SessionPage.opened P).act .mount) where
  toPageInv := (saveInv_opened saved).mount.toPageInv
  mounted := rfl
  fresh := fresh_create
  exported := nofun
  shown := nofun
  uploaded := nofun

/-! ### Updates and the initial sync -/

theorem act_update (mounted : page.mounted = some id) (change : P.Doc) :
    page.act (.update change) =
      if (page.editors id).initialSyncComplete then
        (page.setEditor id ((page.editors id).applyUpdate change)).handleDocumentChange
      else page.setEditor id ((page.editors id).applyUpdate change) := by
  rw [SessionPage.act]
  simp only [SessionPage.onEditor, mounted]

theorem PageInv.versions (inv : PageInv saved page) (id : EditorId) :
    ∀ comparison ∈ (page.editors id).comparisons,
      comparison.version ≤ (page.editors id).comparisonVersion :=
  fun comparison member => ((inv.editors id).comparisons comparison member).version_le

theorem MountedInv.update (inv : MountedInv saved id page) (change : P.Doc) :
    MountedInv saved id (page.act (.update change)) := by
  have changed : EditorInv saved (page.mounted = some id)
      ((page.editors id).applyUpdate change) := (inv.editors id).outdate _
  have after := inv.toPageInv.setEditor changed fun synced => synced
  have fresh : ((page.editors id).applyUpdate change).Fresh := fresh_of_bump (inv.versions id) _
  rw [act_update inv.mounted]
  cases synced : (page.editors id).initialSyncComplete with
  | true =>
      have counted := after.handleDocumentChange
      refine { toPageInv := counted.toPageInv, mounted := inv.mounted, fresh := ?_,
               exported := fun _ => inv.exported synced, shown := fun shows => ?_,
               uploaded := fun request pending latest => ⟨?_, fun same => ?_⟩ }
      · change ((page.setEditor id _).editors id).Fresh
        rwa [SessionPage.setEditor_self]
      · change (if page.saveStatus = .saving then SaveStatus.saving else .unsaved) = .saved at shows
        split at shows <;> cases shows
      · change ((page.setEditor id _).editors id).initialSyncComplete = true
        rwa [SessionPage.setEditor_self]
      · have older := (inv.inFlight request pending latest).2
        rw [same] at older
        exact absurd older (Nat.not_succ_le_self _)
  | false =>
      refine { toPageInv := after, mounted := inv.mounted, fresh := ?_, exported := fun known => ?_,
               shown := fun shows => ?_, uploaded := fun request pending latest => ?_ }
      · rwa [if_neg Bool.false_ne_true, SessionPage.setEditor_self]
      · rw [if_neg Bool.false_ne_true, SessionPage.setEditor_self] at known
        exact absurd (synced.symm.trans known) Bool.false_ne_true
      · have justified := inv.shown shows
        rw [if_neg Bool.false_ne_true, SessionPage.setEditor_self]
        unfold Editor.Justified at justified ⊢
        change if (page.editors id).initialSyncComplete then _ else
          (page.editors id).latestSaveStatus ≠ none
        rwa [synced, if_neg Bool.false_ne_true] at justified ⊢
      · exact absurd (synced.symm.trans (inv.uploaded request pending latest).1) Bool.false_ne_true

theorem act_sync (mounted : page.mounted = some id) :
    page.act (.sync true) =
      if (page.editors id).initialSyncComplete then page
      else (page.handleDocumentReady (some id)).setEditor id (page.editors id).completeSync := by
  rw [SessionPage.act]
  simp only [SessionPage.onEditor, mounted]
  cases (page.editors id).initialSyncComplete <;> rfl

/-- Whoever has a message compares it with the initial document. -/
theorem MountedInv.sync (inv : MountedInv saved id page) :
    MountedInv saved id (page.act (.sync true)) := by
  rw [act_sync inv.mounted]
  split
  · exact inv
  next unsynced =>
    have complete : (page.editors id).completeSync.initialSyncComplete = true := by
      rw [Editor.completeSync, publishSaveStatus_initialSyncComplete]
    have after := (inv.toPageInv.setEditor ((inv.editors id).completeSync inv.mounted)
      fun _ => complete)
    have self := SessionPage.setEditor_self id (page.editors id).completeSync page
    refine { editors := after.editors, ready := ?_, requests_le := after.requests_le,
             inFlight := after.inFlight, mounted := inv.mounted, fresh := ?_,
             exported := fun _ => rfl, shown := fun shows => ?_,
             uploaded := fun request pending latest => ?_ }
    · intro other same
      obtain rfl := Option.some.inj same
      refine ⟨inv.mounted, ?_⟩
      change ((page.setEditor id _).editors id).initialSyncComplete = true
      rw [self, complete]
    · change ((page.setEditor id _).editors id).Fresh
      rw [self]
      exact fresh_publishSaveStatus (inv.versions id) inv.fresh
    · change ((page.setEditor id _).editors id).Justified saved
      have justified := inv.shown shows
      unfold Editor.Justified at justified
      rw [if_neg unsynced] at justified
      rw [self]
      refine justified_of_pending (pending_publishSaveStatus justified) ?_
      rwa [Editor.completeSync, publishSaveStatus_latest]
    · exact absurd (inv.uploaded request pending latest).1 unsynced

/-! ### Messages and digests -/

theorem act_documentSaved (mounted : page.mounted = some id) (event : DocumentSaved P) :
    page.act (.documentSaved event) =
      { page.setEditor id ((page.editors id).receiveStatus ⟨page.nextMessage, event⟩) with
        nextMessage := page.nextMessage + 1 } := by
  rw [SessionPage.act]
  simp only [SessionPage.onEditor, mounted]

private theorem pending_receiveStatus (status : SavedMessage P) :
    (editor.receiveStatus status).Pending ∧
      (editor.receiveStatus status).latestSaveStatus = some status := by
  refine ⟨pending_publishSaveStatus (Option.some_ne_none status), ?_⟩
  rw [Editor.receiveStatus, publishSaveStatus_latest]

theorem MountedInv.documentSaved (inv : MountedInv saved id page) {event : DocumentSaved P}
    (describes : Describes saved event) :
    MountedInv saved id (page.act (.documentSaved event)) := by
  let status : SavedMessage P := ⟨page.nextMessage, event⟩
  have received : EditorInv saved (page.mounted = some id)
      ((page.editors id).receiveStatus status) := (inv.editors id).receiveStatus inv.mounted describes
  obtain ⟨pending, latest⟩ := @pending_receiveStatus P (page.editors id) status
  have fresh := fresh_receiveStatus (inv.versions id) status
  have ydoc : ((page.editors id).receiveStatus status).ydoc = (page.editors id).ydoc := by
    rw [Editor.receiveStatus, publishSaveStatus_ydoc]
  have synced : ((page.editors id).receiveStatus status).initialSyncComplete =
      (page.editors id).initialSyncComplete := by
    rw [Editor.receiveStatus, publishSaveStatus_initialSyncComplete]
  rw [act_documentSaved inv.mounted]
  change MountedInv saved id { page.setEditor id ((page.editors id).receiveStatus status) with
    nextMessage := page.nextMessage + 1 }
  generalize (page.editors id).receiveStatus status = editor at *
  have after := inv.toPageInv.setEditor received fun complete => synced.trans complete
  have self := SessionPage.setEditor_self id editor page
  refine { editors := after.editors, ready := after.ready, requests_le := after.requests_le,
           inFlight := after.inFlight, mounted := inv.mounted, fresh := ?_,
           exported := fun complete => ?_, shown := fun _ => ?_,
           uploaded := fun request pending latest => ?_ }
  · change ((page.setEditor id editor).editors id).Fresh
    rwa [self]
  · change ((page.setEditor id editor).editors id).initialSyncComplete = true at complete
    rw [self, synced] at complete
    exact inv.exported complete
  · change ((page.setEditor id editor).editors id).Justified saved
    rw [self]
    exact justified_of_pending pending (latest ▸ Option.some_ne_none _)
  · change ((page.setEditor id editor).editors id).initialSyncComplete = true ∧
      (_ → ((page.setEditor id editor).editors id).ydoc ≤ _)
    rw [self, synced, ydoc]
    exact inv.uploaded request pending latest

/-- A digest that is dropped, or one of another editor, leaves the page as it is. -/
theorem act_digest_dropped {other : EditorId} {index : Nat} {comparison : Comparison P}
    (found : (page.editors other).comparisons[index]? = some comparison) {succeeds : Bool}
    (dropped : ¬(page.editors other).isCurrent comparison = true) :
    page.act (.digest other index succeeds) = page.setEditor other { page.editors other with
      comparisons := (page.editors other).comparisons.eraseIdx index } := by
  rw [SessionPage.act]
  simp only [found]
  rw [if_neg]
  rw [Bool.and_eq_true]
  exact fun both => dropped both.2

private theorem act_digest_current {index : Nat} {comparison : Comparison P}
    (found : (page.editors id).comparisons[index]? = some comparison)
    (current : (page.editors id).isCurrent comparison = true) :
    page.act (.digest id index true) = (page.setEditor id { page.editors id with
      comparisons := (page.editors id).comparisons.eraseIdx index }).handleDocumentSaveStatus
        comparison.status.event (comparison.stateHash = comparison.status.event.stateHash) := by
  rw [SessionPage.act]
  simp only [found, current, Bool.and_self, if_true]

/-- Only the mounted editor has a comparison that is not dropped. -/
theorem PageInv.mounted_of_current (inv : PageInv saved page) {other : EditorId}
    {comparison : Comparison P} (member : comparison ∈ (page.editors other).comparisons)
    (current : (page.editors other).isCurrent comparison = true) : page.mounted = some other :=
  (((inv.editors other).comparisons comparison member).current
    (of_decide_eq_true (Bool.and_eq_true_iff.mp current).1)).1

/-- A digest of an editor ends. -/
theorem MountedInv.eraseIdx (inv : MountedInv saved id page) {other : EditorId} {index : Nat}
    (shown : other = id → page.saveStatus = .saved →
      Justified saved { page.editors id with
        comparisons := (page.editors id).comparisons.eraseIdx index }) :
    MountedInv saved id (page.setEditor other { page.editors other with
      comparisons := (page.editors other).comparisons.eraseIdx index }) := by
  have after := inv.toPageInv.setEditor ((inv.editors other).eraseIdx index) fun synced => synced
  by_cases same : other = id
  · subst same
    have self := SessionPage.setEditor_self other { page.editors other with
      comparisons := (page.editors other).comparisons.eraseIdx index } page
    refine { toPageInv := after, mounted := inv.mounted, fresh := ?_, exported := ?_, shown := ?_,
             uploaded := ?_ }
    · rw [self]
      exact inv.fresh.eraseIdx index
    · rw [self]
      exact inv.exported
    · rw [self]
      exact shown rfl
    · rw [self]
      exact inv.uploaded
  · have kept := SessionPage.setEditor_of_ne same { page.editors other with
      comparisons := (page.editors other).comparisons.eraseIdx index } page
    refine { toPageInv := after, mounted := inv.mounted, fresh := ?_, exported := ?_, shown := ?_,
             uploaded := ?_ }
    · rw [kept]
      exact inv.fresh
    · rw [kept]
      exact inv.exported
    · rw [kept]
      exact inv.shown
    · rw [kept]
      exact inv.uploaded

private theorem handleDocumentSaveStatus_saved_iff (status : DocumentSaved P)
    (matchesCurrentDocument : Bool) (page : SessionPage P) :
    (page.handleDocumentSaveStatus status matchesCurrentDocument).saveStatus = .saved ↔
      page.saveInFlight = false ∧ (!status.dirty && matchesCurrentDocument) = true := by
  change (if page.saveInFlight then SaveStatus.saving
    else if !status.dirty && matchesCurrentDocument then .saved else .unsaved) = .saved ↔ _
  cases page.saveInFlight <;> cases !status.dirty && matchesCurrentDocument <;> simp

theorem MountedInv.handleDocumentSaveStatus (inv : MountedInv saved id page)
    (status : DocumentSaved P) {matchesCurrentDocument : Bool}
    (shown : matchesCurrentDocument = true → (page.editors id).Justified saved) :
    MountedInv saved id (page.handleDocumentSaveStatus status matchesCurrentDocument) where
  editors := inv.editors
  ready := inv.ready
  requests_le := inv.requests_le
  inFlight := inv.inFlight
  mounted := inv.mounted
  fresh := inv.fresh
  exported := inv.exported
  shown shows := shown (Bool.and_eq_true_iff.mp
    ((handleDocumentSaveStatus_saved_iff status matchesCurrentDocument page).mp shows).2).2
  uploaded := inv.uploaded

theorem MountedInv.digest (inv : MountedInv saved id page)
    (injective : ∀ first second : P.Doc,
      P.stateHash (P.getUpdate first) = P.stateHash (P.getUpdate second) → first = second)
    (other : EditorId) (index : Nat) :
    MountedInv saved id (page.act (.digest other index true)) := by
  cases found : (page.editors other).comparisons[index]? with
  | none =>
      rw [SessionPage.act]
      simp only [found]
      exact inv
  | some comparison =>
      by_cases current : (page.editors other).isCurrent comparison = true
      · obtain rfl := Option.some.inj (inv.mounted.symm.trans
          (inv.toPageInv.mounted_of_current (List.mem_of_getElem? found) current))
        -- What the digest decides needs no comparison any more.
        have held : decide (comparison.stateHash = comparison.status.event.stateHash) = true →
            ∀ comparisons, Justified saved { page.editors id with comparisons := comparisons } := by
          intro matching comparisons
          obtain ⟨-, contained⟩ := (inv.editors id).ydoc_le injective (List.mem_of_getElem? found)
            current (of_decide_eq_true matching)
          have known := inv.fresh comparison (List.mem_of_getElem? found)
            (of_decide_eq_true (Bool.and_eq_true_iff.mp current).1)
          unfold Editor.Justified
          split
          · exact .inl contained
          · exact known ▸ Option.some_ne_none _
        have decided := inv.handleDocumentSaveStatus comparison.status.event fun matching =>
          held matching (page.editors id).comparisons
        rw [act_digest_current found current]
        refine decided.eraseIdx fun _ shows => held ?_ _
        exact (Bool.and_eq_true_iff.mp ((handleDocumentSaveStatus_saved_iff _ _ _).mp shows).2).2
      · rw [act_digest_dropped found current]
        refine inv.eraseIdx fun same shows => ?_
        subst same
        have justified := inv.shown shows
        unfold Editor.Justified at justified ⊢
        split at justified
        · next synced =>
            rw [if_pos synced]
            exact justified.imp_right fun pending => pending.eraseIdx found current
        · next unsynced => rwa [if_neg unsynced]

/-! ### Saves -/

theorem MountedInv.save (inv : MountedInv saved id page) (viewer : Bool) :
    MountedInv saved id (page.act (.save viewer)) := by
  change MountedInv saved id (page.handleSave viewer)
  have after := inv.toPageInv.handleSave viewer
  rcases handleSave_cases viewer page with ⟨same, _⟩ | ⟨same, _⟩ | ⟨other, same, ready⟩
  · rwa [same]
  · rw [same] at after ⊢
    exact { toPageInv := after, mounted := inv.mounted, fresh := inv.fresh,
            exported := inv.exported, shown := nofun, uploaded := inv.uploaded }
  · rw [same] at after ⊢
    refine { toPageInv := after, mounted := inv.mounted, fresh := inv.fresh,
             exported := inv.exported, shown := nofun, uploaded := ?_ }
    obtain ⟨mounted, synced⟩ := inv.ready other ready
    obtain rfl := Option.some.inj (mounted.symm.trans inv.mounted)
    intro request pending latest
    rcases List.mem_cons.mp pending with rfl | pending
    · refine ⟨synced, fun _ => ?_⟩
      rw [content_getUpdate]
      exact le_sup_left
    · exact absurd latest (inv.older request pending)

theorem MountedInv.finishSave (inv : MountedInv saved id page) {request : SaveRequest P}
    (pending : request ∈ page.requests) {response : Option SaveResponse}
    (stored : response.isSome = true → content (some request.documentState) ≤ saved) :
    MountedInv saved id (page.finishSave request response) := by
  have after := inv.toPageInv.finishSave request response
  rcases finishSave_cases request response page with ⟨same, _⟩ | ⟨_, _, same, latest, shows⟩
  · rw [same] at after ⊢
    exact { toPageInv := after, mounted := inv.mounted, fresh := inv.fresh,
            exported := inv.exported, shown := inv.shown,
            uploaded := fun other member => inv.uploaded other (mem_remaining member).1 }
  · rw [same] at after ⊢
    refine { toPageInv := after, mounted := inv.mounted, fresh := inv.fresh,
             exported := inv.exported, shown := fun isSaved => ?_,
             uploaded := fun other member newest =>
               absurd (newest.trans latest) (mem_remaining member).2 }
    obtain ⟨answer, rfl, _, unchanged⟩ := shows.mp isSaved
    obtain ⟨synced, held⟩ := inv.uploaded request pending latest.symm
    change (page.editors id).Justified saved
    unfold Editor.Justified
    rw [if_pos synced]
    exact .inl ((held unchanged.symm).trans (sup_le (stored rfl) le_rfl))

theorem MountedInv.response (inv : MountedInv saved id page) {requestId : Nat}
    {response : Option SaveResponse} (stored : response.isSome = true →
      ∀ request ∈ page.requests, request.requestId = requestId →
        content (some request.documentState) ≤ saved) :
    MountedInv saved id (page.act (.response requestId response)) := by
  rcases act_response_cases requestId response page with same | ⟨request, pending, own, same⟩
  · rwa [same]
  · rw [same]
    exact inv.finishSave pending fun answered => stored answered request pending own

/-! ### What the page will show -/

def Confirms (page : SessionPage P) (requestId : Nat) (response : Option SaveResponse) : Prop :=
  ∃ answer, response = some answer ∧ answer.dirty = false ∧ ∀ request ∈ page.requests,
    request.requestId = requestId → page.documentVersion = request.versionAtSave

/-- No update takes the Y.Doc to the document that the latest message reports after that
message has come, and no response leaves that document unconfirmed, unless a comparison is
still pending. -/
def KeepsMessage (page : SessionPage P) : ClientEvent P → Prop
  | .update change => ∀ editor, page.editor = some editor → editor.initialSyncComplete = true →
      ¬Agrees { editor with ydoc := editor.ydoc ⊔ change }
  | .response requestId response => Confirms page requestId response ∨
      ∀ editor, page.editor = some editor → editor.Agrees → editor.Pending
  | _ => True

theorem MountedInv.agreement_update (inv : MountedInv saved id page) {change : P.Doc}
    (keeps : KeepsMessage page (.update change)) :
    ShowsAgreement id (page.act (.update change)) := by
  have differs := keeps _ (SessionPage.editor_of_mounted inv.mounted)
  rw [act_update inv.mounted]
  cases synced : (page.editors id).initialSyncComplete with
  | true =>
      intro _ agrees
      change ((page.setEditor id _).editors id).Agrees at agrees
      rw [SessionPage.setEditor_self] at agrees
      exact absurd agrees (differs synced)
  | false =>
      intro complete
      rw [if_neg Bool.false_ne_true, SessionPage.setEditor_self] at complete
      exact absurd (synced.symm.trans complete) Bool.false_ne_true

theorem MountedInv.agreement_sync (inv : MountedInv saved id page)
    (shown : ShowsAgreement id page) : ShowsAgreement id (page.act (.sync true)) := by
  rw [act_sync inv.mounted]
  split
  · exact shown
  · rintro _ ⟨status, known, _⟩
    refine .inr (.inl ?_)
    rw [SessionPage.setEditor_self] at known ⊢
    rw [Editor.completeSync, publishSaveStatus_latest] at known
    exact pending_publishSaveStatus (known ▸ Option.some_ne_none status)

theorem MountedInv.agreement_documentSaved (inv : MountedInv saved id page)
    (event : DocumentSaved P) : ShowsAgreement id (page.act (.documentSaved event)) := by
  intro _ _
  refine .inr (.inl ?_)
  rw [act_documentSaved inv.mounted]
  change ((page.setEditor id _).editors id).Pending
  rw [SessionPage.setEditor_self]
  exact (pending_receiveStatus _).1

theorem MountedInv.agreement_digest (inv : MountedInv saved id page)
    (shown : ShowsAgreement id page) (other : EditorId) (index : Nat) : ShowsAgreement id (page.act (.digest other index true)) := by
  cases found : (page.editors other).comparisons[index]? with
  | none =>
      rw [SessionPage.act]
      simp only [found]
      exact shown
  | some comparison =>
      have member := List.mem_of_getElem? found
      by_cases current : (page.editors other).isCurrent comparison = true
      · obtain rfl := Option.some.inj (inv.mounted.symm.trans
          (inv.toPageInv.mounted_of_current member current))
        rw [act_digest_current found current]
        intro _ agrees
        change ((page.setEditor id _).editors id).Agrees at agrees
        rw [SessionPage.setEditor_self] at agrees
        have isSaved := (agrees_iff_of_current (inv.editors id) inv.fresh member current).mp agrees
        cases inFlight : page.saveInFlight with
        | true => exact .inr (.inr inFlight)
        | false => exact .inl ((handleDocumentSaveStatus_saved_iff _ _ _).mpr ⟨inFlight, isSaved⟩)
      · rw [act_digest_dropped found current]
        by_cases same : other = id
        · subst same
          intro synced agrees
          rw [SessionPage.setEditor_self] at synced agrees ⊢
          exact (shown synced agrees).imp_right fun undecided =>
            undecided.imp_left fun pending => pending.eraseIdx found current
        · intro synced agrees
          rw [SessionPage.setEditor_of_ne same] at synced agrees ⊢
          exact shown synced agrees

theorem MountedInv.agreement_save (inv : MountedInv saved id page) (shown : ShowsAgreement id page)
    (viewer : Bool) : ShowsAgreement id (page.act (.save viewer)) := by
  change ShowsAgreement id (page.handleSave viewer)
  rcases handleSave_cases viewer page with ⟨same, _⟩ | ⟨same, missing⟩ | ⟨_, same, _⟩
  · rwa [same]
  · rw [same]
    intro synced
    exact nomatch missing.symm.trans (inv.exported synced)
  · rw [same]
    exact fun _ _ => .inr (.inr rfl)

theorem MountedInv.agreement_response (inv : MountedInv saved id page)
    (shown : ShowsAgreement id page) {requestId : Nat} {response : Option SaveResponse}
    (keeps : KeepsMessage page (.response requestId response)) :
    ShowsAgreement id (page.act (.response requestId response)) := by
  rcases act_response_cases requestId response page with same | ⟨request, pending, own, same⟩
  · rwa [same]
  rw [same]
  rcases finishSave_cases request response page with ⟨same, _⟩ | ⟨_, _, same, _, shows⟩
  · rw [same]
    exact shown
  · rw [same]
    intro _ agrees
    rcases keeps with ⟨answer, known, clean, unchanged⟩ | compares
    · exact .inl (shows.mpr ⟨answer, known, clean, unchanged request pending own⟩)
    · exact .inr (.inl (compares _ (SessionPage.editor_of_mounted inv.mounted) agrees))

end Page

end Concord.Client

import Concord.Collaboration.DocumentService

/-!
Contract: what a snapshot restore does to the document and to its replicas.

Owns:
- `TextLaws`, what the restore relies on besides the lattice of updates;
- `Restores`, the outcome of `restore_text_from_state`, and that every restore has
  it.

Does not own: the endpoint, which stores and broadcasts the update.
-/

set_option autoImplicit false

namespace Concord.Collaboration

open Platform

variable {P : Platform}

/-- A cleared text is empty, an empty text takes the text of a document, and an
update carries nothing that its document lacks. -/
structure TextLaws (P : Platform) : Prop where
  text_clear : ∀ client doc, P.text (P.clear client doc) = ""
  text_insert : ∀ client doc source, P.text doc = "" → P.text source ≠ "" →
    P.text (P.insert client doc 0 (P.text source)) = P.text source
  update_le : ∀ doc stateVector update change, P.getUpdateSince doc stateVector = some update →
    P.decode update = some change → change ≤ doc

/-- A restore has led from one document to another and returned its update: the text
is that of the snapshot, nothing was rolled back, the generation counts a change of
the text, and every replica of the document before gains exactly the document
after. -/
structure Restores (snapshot : P.Doc) (before after : LiveDocument P) (update : P.Bytes) : Prop where
  text : P.text after.doc = P.text snapshot
  contains : before.doc ≤ after.doc
  generation : after.metadata.generation =
    before.metadata.generation + if P.text after.doc = P.text before.doc then 0 else 1
  replicas : ∃ change, P.decode update = some change ∧
    ∀ replica, before.doc ≤ replica → replica ⊔ change = replica ⊔ after.doc

private theorem text_replaceText (laws : TextLaws P) (client : Nat) (source doc : P.Doc) :
    P.text (DocStore.replaceText client (P.text source) doc) = P.text source := by
  unfold DocStore.replaceText
  dsimp only
  split
  · next empty => rw [empty, laws.text_clear]
  · next nonempty => exact laws.text_insert client _ source (laws.text_clear client doc) nonempty

/-- The update since an older state of a document brings every replica of that state
to the document. -/
theorem update_since_state (laws : TextLaws P) {older doc : P.Doc} :
    ∃ update, P.getUpdateSince doc (P.getState older) = some update ∧
      ∃ change, P.decode update = some change ∧
        ∀ replica, older ≤ replica → replica ⊔ change = replica ⊔ doc := by
  obtain ⟨update, change, made, _, decoded, carries⟩ := P.getUpdateSince_getState doc older
  refine ⟨update, made, change, decoded, fun replica contained => le_antisymm ?_ ?_⟩
  · exact sup_le_sup_left (laws.update_le doc _ update change made decoded) replica
  · have missing : doc ≤ replica ⊔ change := carries.trans (sup_le_sup_right contained change)
    exact sup_le le_sup_left missing

/-- **Snapshot restore is exact, incremental and atomic.** A state that does not
decode raises and changes nothing; any other one is restored. -/
theorem restoreTextFromState_restores (laws : TextLaws P) {store : DocStore P} {ref : Ref}
    (present : store.docs = some ref) (state : P.Bytes) :
    match P.decode state with
    | none => ∃ exn, store.restoreTextFromState state = (.error exn, store)
    | some snapshot => ∃ update after, store.restoreTextFromState state = (.ok update, after) ∧
        after.docs = some ref ∧ Restores snapshot (store.live ref) (after.live ref) update := by
  cases decoded : P.decode state with
  | none => exact ⟨.invalidUpdate, by simp [DocStore.restoreTextFromState, decoded]⟩
  | some snapshot =>
      have whole : P.newDoc ⊔ snapshot = snapshot := bot_sup_eq snapshot
      have found : store.getOrCreate = (.ok ref, store) := by
        unfold DocStore.getOrCreate
        rw [present]
      simp only [DocStore.restoreTextFromState, decoded, whole, found]
      by_cases same : P.text (store.live ref).doc = P.text snapshot
      · obtain ⟨update, made, replicas⟩ := @update_since_state _ laws (store.live ref).doc
          (store.live ref).doc
        rw [if_pos same, made]
        exact ⟨update, store, rfl, present, same, le_rfl, by rw [if_pos rfl]; rfl, replicas⟩
      · let doc := DocStore.replaceText ref (P.text snapshot) (store.live ref).doc
        have edited : ((store.edit ref (DocStore.replaceText ref (P.text snapshot))).live ref).doc =
            doc := by
          rw [DocStore.edit_live, Function.update_self]
        have restored : P.text doc = P.text snapshot := text_replaceText laws ref snapshot _
        have changed : P.text doc ≠ P.text (store.live ref).doc :=
          fun equal => same (equal.symm.trans restored)
        obtain ⟨update, made, replicas⟩ := @update_since_state _ laws (store.live ref).doc doc
        rw [if_neg same, edited, made]
        refine ⟨update, _, rfl, present, ?_, ?_, ?_, ?_⟩
        · rw [edited]
          exact restored
        · rw [edited]
          exact le_replaceText _ _ _
        · rw [edited, if_neg changed, DocStore.edit_live, Function.update_self]
        · rw [edited]
          exact replicas

/-! ### The small platform -/

/-- The edits whose character has not been deleted. -/
def remaining (doc : Finset Nat) : Finset Nat := doc.filter fun edit => edit % 2 = 0 ∧ edit + 1 ∉ doc

private theorem text_editLog (doc : Finset Nat) :
    editLog.text doc = String.ofList (List.replicate (remaining doc).card 'x') := rfl

private theorem remaining_clear (client : Nat) (doc : Finset Nat) :
    remaining (editLog.clear client doc) = ∅ := by
  apply Finset.filter_eq_empty_iff.mpr
  rintro edit member ⟨even, kept⟩
  apply kept
  have original : edit ∈ doc := by
    rcases Finset.mem_union.mp member with original | deletion
    · exact original
    · obtain ⟨inserted, chosen, rfl⟩ := Finset.mem_image.mp deletion
      have inserts : inserted % 2 = 0 := (Finset.mem_filter.mp chosen).2
      omega
  exact Finset.mem_union_right _
    (Finset.mem_image_of_mem _ (Finset.mem_filter.mpr ⟨original, even⟩))

/-- An insertion adds its own characters to a text. -/
theorem remaining_insert (client : Nat) (doc : Finset Nat) (index : Nat) (string : String)
    (empty : remaining doc = ∅) :
    remaining (editLog.insert client doc index string) =
      (Finset.range string.length).image fun offset => 2 * (client + offset + doc.sup id + 1) := by
  have largest : ∀ edit ∈ doc, edit ≤ doc.sup id := fun edit member => Finset.le_sup (f := id) member
  ext edit
  unfold remaining
  rw [Finset.mem_filter]
  constructor
  · rintro ⟨member, even, kept⟩
    rcases Finset.mem_union.mp member with old | new
    · have gone : edit ∈ remaining doc :=
        Finset.mem_filter.mpr ⟨old, even, fun deleted => kept (Finset.mem_union_left _ deleted)⟩
      rw [empty] at gone
      cases gone
    · exact new
  · intro new
    refine ⟨Finset.mem_union_right _ new, ?_⟩
    obtain ⟨offset, _, rfl⟩ := Finset.mem_image.mp new
    refine ⟨Nat.mul_mod_right 2 _, fun deleted => ?_⟩
    rcases Finset.mem_union.mp deleted with old | other
    · have bound := largest _ old
      omega
    · obtain ⟨offset', _, same⟩ := Finset.mem_image.mp other
      omega

private theorem textLaws_editLog : TextLaws editLog where
  text_clear client doc := by
    rw [text_editLog, remaining_clear]
    rfl
  text_insert client doc source empty _ := by
    have blank : remaining doc = ∅ := by
      rw [text_editLog] at empty
      have length := congrArg String.length empty
      rw [String.length_ofList, List.length_replicate] at length
      exact Finset.card_eq_zero.mp length
    have injective : Function.Injective fun offset => 2 * (client + offset + doc.sup id + 1) := by
      intro first second equal
      have doubled : 2 * (client + first + doc.sup id + 1) = 2 * (client + second + doc.sup id + 1) :=
        equal
      omega
    rw [text_editLog, remaining_insert client doc 0 _ blank,
      Finset.card_image_of_injective _ injective, Finset.card_range, text_editLog,
      String.length_ofList, List.length_replicate]
  update_le doc stateVector update change made decoded := by
    obtain ⟨peer, _, rfl⟩ := Option.map_eq_some_iff.mp made
    obtain rfl := Option.some.inj decoded
    exact Finset.sdiff_subset

/-- A document with the text `xx` in memory. -/
def draftStore : DocStore editLog :=
  (DocStore.boot "session" ⟨none, none⟩ none 0).publish
    ⟨({2, 4} : Finset Nat), ⟨0, none, none, none, none⟩, .created⟩

/-- An empty snapshot only deletes: the update reaches a replica with an edit of its
own. -/
theorem restoreTextFromState_restores_empty :
    ∃ ref update after, draftStore.docs = some ref ∧
      draftStore.restoreTextFromState (some ∅) = (.ok update, after) ∧
        editLog.text (after.live ref).doc = "" ∧ (after.live ref).metadata.generation = 1 ∧
          ∃ change, editLog.decode update = some change ∧
            ({2, 4, 8} : Finset Nat) ⊔ change = {2, 4, 8} ⊔ (after.live ref).doc := by
  obtain ⟨update, after, restored, -, restores⟩ :=
    @restoreTextFromState_restores _ textLaws_editLog draftStore 0 rfl (some ∅)
  obtain ⟨change, decoded, replicas⟩ := restores.replicas
  have emptied : editLog.text (after.live 0).doc = "" := restores.text.trans rfl
  have drafted : editLog.text (draftStore.live 0).doc = "xx" := by decide
  have counted := restores.generation
  rw [emptied, drafted, if_neg (by decide)] at counted
  exact ⟨0, update, after, rfl, restored, emptied, counted, change, decoded,
    replicas _ (show ({2, 4} : Finset Nat) ⊆ {2, 4, 8} by decide)⟩

end Concord.Collaboration

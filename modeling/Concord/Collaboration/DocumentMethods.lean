import Concord.Collaboration.SessionGuard

/-!
Contract: every method of `DocumentManager` keeps the protocol.

Owns:
- the step lemmas of the synchronous methods, which run at any time;
- the step lemmas of the storage effects, which run under the session guard;
- the specifications of the storage methods.

Does not own: which documents a caller finds in memory.
-/

set_option autoImplicit false

namespace Concord.Collaboration

open Asyncio Platform DocStore

variable {P : Platform} {α : Type} {recoverable evicts edits : Prop} {task : TaskId}
  {users : GuardUsers} {store : DocStore P}

theorem Guar.refl (task : TaskId) (users : GuardUsers) (store : DocStore P) :
    Guar evicts edits task users store users store :=
  ⟨fun _ _ => Rely.refl _ _ _, fun _ _ present => present, fun _ => ⟨rfl, fun _ _ => rfl⟩⟩

theorem Guar.trans {users' users'' : GuardUsers} {middle after : DocStore P}
    (earlier : Guar evicts edits task users store users' middle)
    (later : Guar evicts edits task users' middle users'' after) :
    Guar evicts edits task users store users'' after where
  rely other different := (earlier.rely other different).trans (later.rely other different)
  keeps still ref present := later.keeps still ref (earlier.keeps still ref present)
  quiet still := by
    obtain ⟨accesses, same⟩ := earlier.quiet still
    obtain ⟨accesses', same'⟩ := later.quiet still
    have nextRef_le := (earlier.rely (task + 1) (Nat.succ_ne_self task).symm).nextRef_le
    exact ⟨accesses'.trans accesses, fun ref known =>
      (same' ref (lt_of_lt_of_le known nextRef_le)).trans (same ref known)⟩

/-! ### Synchronous methods -/

/-- A synchronous method keeps the protocol, whichever task runs it. -/
structure SyncStep (recoverable evicts edits : Prop) (users : GuardUsers)
    (before after : DocStore P) : Prop where
  inv : Inv recoverable users after
  rely : ∀ other, Rely other users before users after
  keeps : ¬evicts → ∀ ref, before.docs = some ref → after.docs = some ref
  quiet : ¬edits → after = before

theorem SyncStep.guar {after : DocStore P}
    (step : SyncStep recoverable evicts edits users store after) (task : TaskId) :
    Guar evicts edits task users store users after where
  rely other _ := step.rely other
  keeps := step.keeps
  quiet still := by
    rw [step.quiet still]
    exact ⟨rfl, fun _ _ => rfl⟩

theorem SyncStep.refl (inv : Inv recoverable users store) :
    SyncStep recoverable evicts edits users store store :=
  ⟨inv, fun other => Rely.refl other users store, fun _ _ present => present, fun _ => rfl⟩

theorem SyncStep.trans {first second third : DocStore P}
    (earlier : SyncStep recoverable evicts edits users first second)
    (later : SyncStep recoverable evicts edits users second third) :
    SyncStep recoverable evicts edits users first third where
  inv := later.inv
  rely other := (earlier.rely other).trans (later.rely other)
  keeps still ref present := later.keeps still ref (earlier.keeps still ref present)
  quiet still := (later.quiet still).trans (earlier.quiet still)

/-- A missed access only adds to the history. -/
theorem countAccess_spec (evicts : Prop) (mayEdit : edits) (inv : Inv recoverable users store) :
    SyncStep recoverable evicts edits users store store.countAccess where
  inv :=
    { guard := ⟨inv.guard.retired, inv.guard.counted, inv.guard.owner, inv.guard.loading⟩
      document := ⟨inv.document.allocated, inv.document.checkpointed_le, inv.document.tracks,
        inv.document.evicted⟩
      loaded := fun clean => by simp at clean
      recovery := fun _ clean => by simp at clean
      writes := inv.writes.of_same rfl rfl le_rfl fun _ _ present => ⟨present, le_rfl⟩ }
  rely other := rely_of_frozen ⟨rfl, rfl, rfl, fun _ => rfl, fun _ _ => rfl, rfl⟩ rfl le_rfl
    (fun _ _ => Evolves.refl _) (Nat.le_succ _) rfl
  keeps _ _ present := present
  quiet still := absurd mayEdit still

/-- An empty document may be published where there is none and nobody loads. -/
theorem publishCreated_spec (mayEdit : edits) (inv : Inv recoverable users store)
    (absent : store.docs = none) (notLoading : store.loading = false)
    (accessed : store.unloadedAccesses ≠ 0) :
    SyncStep recoverable evicts edits users store (store.publish (createdDocument P)) where
  inv :=
    { guard := ⟨inv.guard.retired, inv.guard.counted, inv.guard.owner, fun loading => by
        simp [notLoading] at loading⟩
      document :=
        { allocated := fun ref current => by
            obtain rfl := Option.some.inj current
            exact Nat.lt_succ_self _
          checkpointed_le := fun ref current generation checkpointed => by
            obtain rfl := Option.some.inj current
            simp [createdDocument] at checkpointed
          tracks := fun ref current loaded => by
            obtain rfl := Option.some.inj current
            simp [createdDocument, LiveDocument.Loaded] at loaded
          evicted := inv.document.evicted }
      loaded := fun clean => absurd clean accessed
      recovery := fun _ clean => absurd clean accessed
      writes := inv.writes.publish _ }
  rely other := by
    refine rely_of_frozen ⟨rfl, rfl, rfl, ?_, ?_, rfl⟩ rfl (Nat.le_succ _) ?_ le_rfl rfl
    · rintro (present | loading)
      · exact absurd absent present
      · rw [notLoading] at loading
        cases loading
    · intro ref present
      rw [absent] at present
      cases present
    · intro ref known
      rw [publish_live, Function.update_of_ne (Nat.ne_of_lt known)]
      exact Evolves.refl _
  keeps _ ref present := by
    rw [absent] at present
    cases present
  quiet still := absurd mayEdit still

/-- `get_or_create` keeps the protocol, and its result is the document in memory. -/
theorem getOrCreate_spec (evicts : Prop) (mayEdit : edits) (inv : Inv recoverable users store) :
    SyncStep recoverable evicts edits users store store.getOrCreate.2 ∧
      ∀ ref, store.getOrCreate.1 = .ok ref → store.getOrCreate.2.docs = some ref := by
  unfold DocStore.getOrCreate
  split
  · next ref present =>
      refine ⟨SyncStep.refl inv, fun ref' result => ?_⟩
      obtain rfl := Except.ok.inj result
      exact present
  · next absent =>
      have counted := countAccess_spec evicts mayEdit inv
      split
      · exact ⟨counted, fun _ result => by cases result⟩
      · next notLoading =>
          refine ⟨counted.trans (publishCreated_spec mayEdit counted.inv absent
            (by simpa using notLoading) (Nat.succ_ne_zero _)), fun ref result => ?_⟩
          obtain rfl := Except.ok.inj result
          rfl

/-- An inflationary edit of the document in memory keeps the protocol. -/
theorem edit_spec (mayEdit : edits) (inv : Inv recoverable users store) {ref : Ref}
    (present : store.docs = some ref) {change : P.Doc → P.Doc}
    (grows : (store.live ref).doc ≤ change (store.live ref).doc) :
    SyncStep recoverable evicts edits users store (store.edit ref change) where
  inv :=
    { guard := ⟨inv.guard.retired, inv.guard.counted, inv.guard.owner, inv.guard.loading⟩
      document :=
        { allocated := inv.document.allocated
          checkpointed_le := fun ref' current generation checkpointed => by
            obtain rfl := Option.some.inj (present.symm.trans current)
            simp only [edit_live, Function.update_self] at checkpointed ⊢
            exact (inv.document.checkpointed_le ref present generation checkpointed).trans
              (Nat.le_succ _)
          tracks := fun ref' current loaded => by
            obtain rfl := Option.some.inj (present.symm.trans current)
            rw [edit_live, Function.update_self] at loaded ⊢
            have tracks := inv.document.tracks ref present loaded
            refine ⟨tracks.saved_le.trans grows, fun checkpointed => ?_, tracks.hash, ?_⟩
            · have := inv.document.checkpointed_le ref present _ checkpointed
              exact absurd this (Nat.not_succ_le_self _)
            · intro savedThen checkpointThen readable origin
              obtain ⟨saved_le, checkpoint_le⟩ := tracks.merged _ _ _ origin
              exact ⟨saved_le.trans grows, fun read => (checkpoint_le read).trans grows⟩
          evicted := inv.document.evicted }
      loaded := fun clean ref' current => by
        obtain rfl := Option.some.inj (present.symm.trans current)
        rw [edit_live, Function.update_self]
        exact inv.loaded clean ref present
      recovery := fun possible clean =>
        { stored := (inv.recovery possible clean).stored
          checkpoint_le := fun ref' current => by
            obtain rfl := Option.some.inj (present.symm.trans current)
            rw [edit_live, Function.update_self]
            exact ((inv.recovery possible clean).checkpoint_le ref present).trans grows }
      writes := inv.writes.of_same rfl rfl le_rfl fun ref' _ current => by
        obtain rfl := Option.some.inj (present.symm.trans current)
        rw [edit_live, Function.update_self]
        exact ⟨present, grows⟩ }
  rely other := by
    refine rely_of_frozen ⟨rfl, rfl, rfl, fun _ => rfl, fun ref' current => ?_, rfl⟩ rfl
      le_rfl (fun ref' _ => ?_) le_rfl rfl
    · obtain rfl := Option.some.inj (present.symm.trans current)
      rw [edit_live, Function.update_self]
    · rw [edit_live]
      by_cases same : ref' = ref
      · subst same
        rw [Function.update_self]
        exact ⟨rfl, Nat.le_succ _, grows, fun unchanged => absurd unchanged (Nat.succ_ne_self _)⟩
      · rw [Function.update_of_ne same]
        exact Evolves.refl _
  keeps _ _ current := current
  quiet still := absurd mayEdit still

theorem le_replaceText (client : Nat) (desiredText : String) (doc : P.Doc) :
    doc ≤ DocStore.replaceText client desiredText doc := by
  unfold DocStore.replaceText
  by_cases empty : desiredText = ""
  · rw [if_pos empty]
    exact P.le_clear client doc
  · rw [if_neg empty]
    exact (P.le_clear client doc).trans (P.le_insert client _ 0 desiredText)

/-- With a document in memory, `get_or_create` returns it and changes nothing. -/
theorem getOrCreate_of_present {ref : Ref} (present : store.docs = some ref) :
    store.getOrCreate = (.ok ref, store) := by
  simp only [getOrCreate, present]

theorem applyUpdate_spec (mayEdit : edits) (inv : Inv recoverable users store)
    (update : P.Bytes) :
    SyncStep recoverable evicts edits users store (store.applyUpdate update).2 := by
  obtain ⟨created, published⟩ := getOrCreate_spec evicts mayEdit inv
  unfold DocStore.applyUpdate
  split
  · next exn after answer =>
      rw [answer] at created
      exact created
  · next ref after answer =>
      rw [answer] at created published
      split
      · exact created
      · next change _ =>
          have edited : SyncStep recoverable evicts edits users after (after.edit ref (· ⊔ change)) :=
            edit_spec mayEdit created.inv (published ref rfl) le_sup_left
          exact created.trans edited

theorem restoreTextFromState_spec (mayEdit : edits) (inv : Inv recoverable users store)
    (state : P.Bytes) :
    SyncStep recoverable evicts edits users store (store.restoreTextFromState state).2 := by
  obtain ⟨created, published⟩ := getOrCreate_spec evicts mayEdit inv
  unfold DocStore.restoreTextFromState
  split
  · exact SyncStep.refl inv
  · next snapshot _ =>
      simp only
      split
      · next exn after answer =>
          rw [answer] at created
          exact created
      · next ref after answer =>
          rw [answer] at created published
          have restored : SyncStep recoverable evicts edits users store
              (if P.text (after.live ref).doc = P.text (P.newDoc ⊔ snapshot) then after
                else after.edit ref (replaceText ref (P.text (P.newDoc ⊔ snapshot)))) := by
            split
            · exact created
            · exact created.trans
                (edit_spec mayEdit created.inv (published ref rfl) (le_replaceText _ _ _))
          split <;> exact restored

/-- A clean document that both stores cover may be dropped. -/
theorem dropDoc_documentInv (document : DocumentInv store) {ref : Ref}
    (present : store.docs = some ref)
    (clean : (store.live ref).metadata.checkpointedGeneration =
      some (store.live ref).metadata.generation) : DocumentInv store.dropDoc := by
  simp only [DocStore.dropDoc, present]
  refine ⟨fun _ current => ?_, fun _ current => ?_, fun _ current => ?_, ?_⟩
  · cases current
  · cases current
  · cases current
  · intro eviction member loaded
    rcases List.mem_cons.mp member with rfl | older
    · exact (document.tracks ref present loaded).covered clean
    · exact document.evicted eviction older loaded

/-- The document leaves memory together with a guard that nobody uses. -/
theorem retire_spec (mayEvict : evicts) (mayEdit : edits) (inv : Inv recoverable users store)
    {ref : Ref} (present : store.docs = some ref)
    (clean : (store.live ref).metadata.checkpointedGeneration =
      some (store.live ref).metadata.generation) (idle : store.registry.users = 0) :
    SyncStep recoverable evicts edits users store
      (store.dropDoc.withRegistry { store.registry with current := none }) := by
  have empty : users = ∅ := by
    unfold GuardRegistry.users at idle
    cases current : store.registry.current with
    | none => exact inv.guard.retired current
    | some id =>
        rw [current] at idle
        exact Finset.card_eq_zero.mp ((inv.guard.counted id current).symm.trans idle)
  have noOwner : ∀ id holder, (store.registry.guard id).owner ≠ some holder := by
    intro id holder owner
    have counted := (inv.guard.owner id holder owner).2
    rw [empty] at counted
    exact Finset.notMem_empty _ counted
  have dropped := dropDoc_documentInv inv.document present clean
  simp only [dropDoc, present] at dropped ⊢
  refine ⟨⟨⟨fun _ => empty, ?_, fun id holder owner => absurd owner (noOwner id holder), ?_⟩,
    ⟨dropped.allocated, dropped.checkpointed_le, dropped.tracks, dropped.evicted⟩, ?_, ?_,
    inv.writes.of_absent rfl rfl rfl rfl⟩, fun other => ?_, fun keeps => absurd mayEvict keeps, fun still => absurd mayEdit still⟩
  · rintro _ ⟨⟩
  · intro loading
    have absent := (inv.guard.loading loading).1
    rw [present] at absent
    cases absent
  · rintro _ _ ⟨⟩
  · intro possible clean
    refine ⟨(inv.recovery possible clean).stored, ?_⟩
    rintro _ ⟨⟩
  · refine ⟨le_rfl, fun _ _ => Evolves.refl _, le_rfl, fun _ => .of_same rfl rfl, id, ?_, ?_⟩
    · intro id inside
      rw [Inside, empty] at inside
      exact absurd inside.2 (Finset.notMem_empty _)
    · intro id held
      exact absurd held.2 (noOwner id other)

/-- `remove_doc` drops a clean document only when nobody uses the guard. -/
theorem removeDoc_spec (mayEvict : evicts) (mayEdit : edits) (inv : Inv recoverable users store) :
    SyncStep recoverable evicts edits users store store.removeDoc.2 := by
  unfold DocStore.removeDoc
  split
  · exact SyncStep.refl inv
  · next ref present =>
      simp only
      split
      · exact SyncStep.refl inv
      · next clean =>
          split
          · exact SyncStep.refl inv
          · next idle =>
              exact retire_spec mayEvict mayEdit inv present (not_not.mp clean) (not_not.mp idle)

end Concord.Collaboration

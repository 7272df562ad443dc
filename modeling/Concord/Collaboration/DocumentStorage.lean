import Concord.Collaboration.DocumentMethods

/-!
Contract: the storage methods of `DocumentManager` keep the protocol.

Owns:
- the step lemmas of the storage effects, which run under the session guard;
- the specifications of `load_from_storage`, `checkpoint_to_redis`,
  `persist_to_db` and `checkpoint_and_remove`.

A method captures a document, suspends, and writes what it captured. What it
may still assume at the write is `Rely` from the step of the capture.
-/

set_option autoImplicit false

namespace Concord.Collaboration

open Asyncio Platform DocStore

variable {P : Platform} {α : Type} {recoverable evicts edits : Prop} {task : TaskId}
  {id : GuardId} {users users' : GuardUsers} {store store' : DocStore P}
  {allows : DocStore P → Call → Event P → Prop}

/-! ### Awaited reads and writes -/

theorem wp_readCall {call : Call} {value : DocStore P → α} {post : Post GuardUsers (DocStore P) Exn α}
    (inv : Inv recoverable users store)
    (done : ∀ users' store', Rely task users store users' store' → Inv recoverable users' store' →
      post (.ok (value store')) users' store')
    (failed : ∀ users' store' event, event ≠ .done → allows store' call event →
      Rely task users store users' store' → Inv recoverable users' store' →
        post (.error .driver) users' store') :
    wp (protocol P recoverable evicts edits) allows task (readCall call value) post users store := by
  refine wp_awaitCall inv trivial fun users₁ store₁ rely inv₁ _ event result store₂ allowed taken => ?_
  refine ⟨users₁, ?_⟩
  cases event with
  | done =>
      simp only [Option.some.injEq, Prod.mk.injEq] at taken
      obtain ⟨rfl, rfl⟩ := taken
      exact ⟨Guar.refl _ _ _, done _ _ rely inv₁⟩
  | raised =>
      simp only [Option.some.injEq, Prod.mk.injEq] at taken
      obtain ⟨rfl, rfl⟩ := taken
      exact ⟨Guar.refl _ _ _, failed _ _ _ (by simp) allowed rely inv₁⟩
  | raisedAfter =>
      simp only [Option.some.injEq, Prod.mk.injEq] at taken
      obtain ⟨rfl, rfl⟩ := taken
      exact ⟨Guar.refl _ _ _, failed _ _ _ (by simp) allowed rely inv₁⟩
  | received message => cases taken

theorem wp_writeCall {call : Call} {effect : DocStore P → DocStore P}
    {post : Post GuardUsers (DocStore P) Exn Unit}
    (inv : Inv recoverable users store)
    (takes : ∀ users' store', Rely task users store users' store' → Inv recoverable users' store' →
      Guar evicts edits task users' store' users' (effect store') ∧
        post (.ok ()) users' (effect store') ∧ post (.error .driver) users' (effect store'))
    (fails : ∀ users' store', Rely task users store users' store' → Inv recoverable users' store' →
      post (.error .driver) users' store') :
    wp (protocol P recoverable evicts edits) allows task (writeCall call effect) post
      users store := by
  refine wp_awaitCall inv trivial fun users₁ store₁ rely inv₁ _ event result store₂ _ taken => ?_
  refine ⟨users₁, ?_⟩
  obtain ⟨guar, returned, raised⟩ := takes _ _ rely inv₁
  cases event with
  | done =>
      simp only [Option.some.injEq, Prod.mk.injEq] at taken
      obtain ⟨rfl, rfl⟩ := taken
      exact ⟨guar, returned⟩
  | raised =>
      simp only [Option.some.injEq, Prod.mk.injEq] at taken
      obtain ⟨rfl, rfl⟩ := taken
      exact ⟨Guar.refl _ _ _, fails _ _ rely inv₁⟩
  | raisedAfter =>
      simp only [Option.some.injEq, Prod.mk.injEq] at taken
      obtain ⟨rfl, rfl⟩ := taken
      exact ⟨guar, raised⟩
  | received message => cases taken

/-! ### Steps under the guard -/

/-- What a step under the guard owes to the others. -/
theorem guar_of_holdsGuard {after : DocStore P} (held : HoldsGuard task id users store)
    (registry : after.registry = store.registry) (nextRef_le : store.nextRef ≤ after.nextRef)
    (live : ∀ ref, ref < store.nextRef → Evolves (store.live ref) (after.live ref))
    (accesses : after.unloadedAccesses = store.unloadedAccesses)
    (docs : ¬evicts → ∀ ref, store.docs = some ref → after.docs = some ref)
    (quiet : ∀ ref, ref < store.nextRef → (after.live ref).doc = (store.live ref).doc)
    (saved : after.unloadedAccesses = 0 → SavedGrows store after) :
    Guar evicts edits task users store users after :=
  ⟨fun _ different => rely_of_holdsGuard held different registry nextRef_le live accesses saved, docs,
    fun _ => ⟨accesses, quiet⟩⟩

theorem Guarded.of_rely (guarded : Guarded recoverable task id users store)
    (rely : Rely task users store users' store') (inv : Inv recoverable users' store') :
    Guarded recoverable task id users' store' where
  inv := inv
  held := rely.holdsGuard guarded.held
  notLoading := by rw [(rely.holds id guarded.held).1.loading, guarded.notLoading]

/-- What stays true of a captured document until the task that holds the guard
writes it. -/
structure Captured (ref : Ref) (snapshot : LiveDocument P) (saved checkpoint : P.Doc)
    (accesses : Nat) (store : DocStore P) : Prop where
  present : store.docs = some ref
  evolves : Evolves snapshot (store.live ref)
  checkpointed : (store.live ref).metadata.checkpointedGeneration =
    snapshot.metadata.checkpointedGeneration
  saved : store.savedContent = saved
  checkpoint : store.checkpointContent = checkpoint
  accesses_le : accesses ≤ store.unloadedAccesses
  written : ∀ write ∈ store.writes, write.document = some ref →
    content (some write.state) ≤ snapshot.doc

/-- A document that is in memory is captured where it is read. -/
theorem captured_self {ref : Ref} (inv : Inv recoverable users store)
    (present : store.docs = some ref) :
    Captured ref (store.live ref) store.savedContent store.checkpointContent
      store.unloadedAccesses store :=
  ⟨present, Evolves.refl _, rfl, rfl, rfl, le_rfl, inv.writes.contained ref present⟩

theorem Captured.of_rely {ref : Ref} {snapshot : LiveDocument P} {saved checkpoint : P.Doc}
    {accesses : Nat} (captured : Captured ref snapshot saved checkpoint accesses store)
    (guarded : Guarded recoverable task id users store)
    (rely : Rely task users store users' store') :
    Captured ref snapshot saved checkpoint accesses store' := by
  have frozen := (rely.holds id guarded.held).1
  have known := guarded.inv.document.allocated ref captured.present
  refine ⟨?_, captured.evolves.trans (rely.live ref known), ?_, ?_, ?_,
    captured.accesses_le.trans rely.accesses_le, ?_⟩
  · rw [frozen.docs (.inl (by rw [captured.present]; exact Option.some_ne_none ref)),
      captured.present]
  · rw [frozen.checkpointed ref captured.present, captured.checkpointed]
  · rw [savedContent, frozen.saved, ← captured.saved, savedContent]
  · rw [checkpointContent, frozen.checkpoint, ← captured.checkpoint, checkpointContent]
  · rw [frozen.writes]
    exact captured.written

/-- The write of a captured document contains the earlier writes of the document. -/
theorem Captured.extends {ref : Ref} {snapshot : LiveDocument P} {saved checkpoint : P.Doc}
    {accesses : Nat} (captured : Captured ref snapshot saved checkpoint accesses store)
    {storage : Storage} {earlier : StorageWrite P} (member : earlier ∈ store.writes) :
    StorageWrite.Extends ⟨storage, store.docs, P.getUpdate snapshot.doc⟩ earlier := by
  intro ref' document document'
  obtain rfl := Option.some.inj (captured.present.symm.trans document)
  rw [content_getUpdate]
  exact captured.written earlier member document'

/-- The write of a captured document keeps the order of the writes. -/
theorem Captured.writesInv {ref : Ref} {snapshot : LiveDocument P} {saved checkpoint : P.Doc}
    {accesses : Nat} (captured : Captured ref snapshot saved checkpoint accesses store)
    (inv : Inv recoverable users store) {storage : Storage} {after : DocStore P}
    (writes : after.writes = ⟨storage, store.docs, P.getUpdate snapshot.doc⟩ :: store.writes)
    (returned : after.returned = store.returned) (nextRef : after.nextRef = store.nextRef)
    (docs : after.docs = store.docs) (live : after.live = store.live) : WritesInv after where
  ordered := by
    rw [writes]
    exact .cons (fun _ member => captured.extends member) inv.writes.ordered
  allocated := by
    rw [writes, nextRef]
    exact List.forall_mem_cons.mpr ⟨inv.document.allocated, inv.writes.allocated⟩
  contained := by
    rw [writes, docs, live]
    intro ref' present
    obtain rfl := Option.some.inj (captured.present.symm.trans present)
    refine List.forall_mem_cons.mpr ⟨fun _ => ?_, inv.writes.contained ref present⟩
    rw [content_getUpdate]
    exact captured.evolves.doc_le
  returned := by
    rw [returned]
    exact inv.writes.returned

/-- A captured document that is unchanged since its checkpointed generation is
the document in memory. -/
theorem Captured.doc_eq {ref : Ref} {snapshot : LiveDocument P} {saved checkpoint : P.Doc}
    {accesses generation : Nat} (captured : Captured ref snapshot saved checkpoint accesses store)
    (bound : generation ≤ snapshot.metadata.generation)
    (current : generation = (store.live ref).metadata.generation) :
    (store.live ref).doc = snapshot.doc := by
  apply captured.evolves.unchanged
  have := captured.evolves.generation_le
  omega

/-- The write of a captured document to Redis. -/
theorem putCheckpoint_spec (evicts edits : Prop) {ref : Ref} {snapshot : LiveDocument P} {saved checkpoint : P.Doc}
    {accesses : Nat} (guarded : Guarded recoverable task id users store)
    (captured : Captured ref snapshot saved checkpoint accesses store)
    (bound : ∀ generation, snapshot.metadata.checkpointedGeneration = some generation →
      generation ≤ snapshot.metadata.generation)
    (contains : recoverable → accesses = 0 → checkpoint ≤ snapshot.doc) :
    Guar evicts edits task users store users (store.putCheckpoint (P.getUpdate snapshot.doc)) ∧
      Guarded recoverable task id users (store.putCheckpoint (P.getUpdate snapshot.doc)) := by
  have inv := guarded.inv
  have written : (store.putCheckpoint (P.getUpdate snapshot.doc)).checkpointContent =
      snapshot.doc := content_getUpdate _
  have kept : (store.putCheckpoint (P.getUpdate snapshot.doc)).savedContent =
      store.savedContent := rfl
  refine ⟨guar_of_holdsGuard guarded.held rfl le_rfl (fun _ _ => Evolves.refl _) rfl
    (fun _ _ present => present) (fun _ _ => rfl) (fun _ => .of_same rfl rfl),
    ⟨⟨⟨inv.guard.retired, inv.guard.counted, inv.guard.owner, inv.guard.loading⟩,
      ⟨inv.document.allocated, inv.document.checkpointed_le, ?_, inv.document.evicted⟩,
      inv.loaded, ?_, captured.writesInv inv rfl rfl rfl rfl rfl⟩, guarded.held,
      guarded.notLoading⟩⟩
  · intro ref' present loaded
    obtain rfl := Option.some.inj (captured.present.symm.trans present)
    have tracks := inv.document.tracks ref captured.present loaded
    refine ⟨tracks.saved_le, fun clean => ?_, tracks.hash, tracks.merged⟩
    have earlier := captured.checkpointed.symm.trans clean
    have same := captured.doc_eq (bound _ earlier) rfl
    rw [written]
    exact same.le.trans le_sup_right
  · intro possible clean
    have recovery := inv.recovery possible clean
    have grown : checkpoint ≤ snapshot.doc :=
      contains possible (Nat.le_zero.mp (captured.accesses_le.trans clean.le))
    refine ⟨fun state member => ?_, fun ref' present => ?_⟩
    · rw [cover, written, kept]
      rcases List.mem_cons.mp member with rfl | older
      · rw [content_getUpdate]
        exact le_sup_right
      · refine (recovery.stored state older).trans (sup_le_sup_left ?_ _)
        rw [captured.checkpoint]
        exact grown
    · obtain rfl := Option.some.inj (captured.present.symm.trans present)
      rw [written]
      exact captured.evolves.doc_le

/-- The metadata of a finished checkpoint. -/
theorem setCheckpointed_spec (evicts edits : Prop) {ref : Ref} {snapshot : LiveDocument P} {saved checkpoint : P.Doc}
    {accesses : Nat} (guarded : Guarded recoverable task id users store)
    (captured : Captured ref snapshot saved checkpoint accesses store)
    (written : store.checkpointContent = snapshot.doc) :
    Guar evicts edits task users store users
        (store.setCheckpointed ref snapshot.metadata.generation) ∧
      Guarded recoverable task id users
        (store.setCheckpointed ref snapshot.metadata.generation) := by
  have inv := guarded.inv
  refine ⟨guar_of_holdsGuard guarded.held rfl le_rfl (fun ref' _ => ?_) rfl
    (fun _ _ present => present) (fun ref' _ => ?_)
    (fun _ => .of_same rfl rfl),
    ⟨⟨⟨inv.guard.retired, inv.guard.counted, inv.guard.owner, inv.guard.loading⟩,
      ⟨inv.document.allocated, ?_, ?_, inv.document.evicted⟩, ?_, ?_, ?_⟩,
      guarded.held, guarded.notLoading⟩⟩
  · rw [setCheckpointed_live]
    by_cases same : ref' = ref
    · subst same
      rw [Function.update_self]
      exact ⟨rfl, le_rfl, le_rfl, fun _ => rfl⟩
    · rw [Function.update_of_ne same]
      exact Evolves.refl _
  · rw [setCheckpointed_live]
    by_cases same : ref' = ref
    · subst same
      rw [Function.update_self]
    · rw [Function.update_of_ne same]
  · intro ref' present generation checkpointed
    obtain rfl := Option.some.inj (captured.present.symm.trans present)
    rw [setCheckpointed_live, Function.update_self] at checkpointed ⊢
    obtain rfl := Option.some.inj checkpointed
    exact captured.evolves.generation_le
  · intro ref' present loaded
    obtain rfl := Option.some.inj (captured.present.symm.trans present)
    rw [setCheckpointed_live, Function.update_self] at loaded ⊢
    have tracks := inv.document.tracks ref captured.present loaded
    refine ⟨tracks.saved_le, fun clean => ?_, tracks.hash, tracks.merged⟩
    have same := captured.doc_eq le_rfl (Option.some.inj clean)
    change (store.live ref).doc ≤ store.savedContent ⊔ store.checkpointContent
    rw [written]
    exact same.le.trans le_sup_right
  · intro clean ref' present
    obtain rfl := Option.some.inj (captured.present.symm.trans present)
    rw [setCheckpointed_live, Function.update_self]
    exact inv.loaded clean ref captured.present
  · intro possible clean
    refine ⟨(inv.recovery possible clean).stored, fun ref' present => ?_⟩
    obtain rfl := Option.some.inj (captured.present.symm.trans present)
    rw [setCheckpointed_live, Function.update_self]
    exact (inv.recovery possible clean).checkpoint_le ref captured.present
  · refine inv.writes.of_same rfl rfl le_rfl fun ref' _ present => ?_
    obtain rfl := Option.some.inj (captured.present.symm.trans present)
    rw [setCheckpointed_live, Function.update_self]
    exact ⟨captured.present, le_rfl⟩

/-- The commit of a captured document to PostgreSQL. -/
theorem putSaved_spec (evicts edits : Prop) {ref : Ref} {snapshot : LiveDocument P} {saved checkpoint : P.Doc}
    {accesses : Nat} (guarded : Guarded recoverable task id users store)
    (captured : Captured ref snapshot saved checkpoint accesses store) (savedAt : Nat)
    (contains : snapshot.Loaded → saved ≤ snapshot.doc) :
    Guar evicts edits task users store users
        (store.putSaved (P.getUpdate snapshot.doc) savedAt) ∧
      Guarded recoverable task id users (store.putSaved (P.getUpdate snapshot.doc) savedAt) := by
  have inv := guarded.inv
  have written : (store.putSaved (P.getUpdate snapshot.doc) savedAt).savedContent =
      snapshot.doc := content_getUpdate _
  have kept : (store.putSaved (P.getUpdate snapshot.doc) savedAt).checkpointContent =
      store.checkpointContent := rfl
  have grown : (store.live ref).Loaded → store.savedContent ≤ snapshot.doc := by
    intro loaded
    rw [captured.saved]
    apply contains
    unfold LiveDocument.Loaded at loaded ⊢
    rwa [captured.evolves.origin] at loaded
  refine ⟨guar_of_holdsGuard guarded.held rfl le_rfl (fun _ _ => Evolves.refl _) rfl
    (fun _ _ present => present) (fun _ _ => rfl) (fun clean => ⟨?_, fun _ => .inl⟩),
    ⟨⟨⟨inv.guard.retired, inv.guard.counted, inv.guard.owner, inv.guard.loading⟩,
      ⟨inv.document.allocated, inv.document.checkpointed_le, ?_, inv.document.evicted⟩,
      inv.loaded, ?_, captured.writesInv inv rfl rfl rfl rfl rfl⟩, guarded.held,
      guarded.notLoading⟩⟩
  · rw [written]
    exact grown (inv.loaded clean ref captured.present)
  · intro ref' present loaded
    obtain rfl := Option.some.inj (captured.present.symm.trans present)
    have tracks := inv.document.tracks ref captured.present loaded
    obtain ⟨state, hash, state_le⟩ := tracks.hash
    rw [written, kept]
    exact ⟨captured.evolves.doc_le,
      fun clean => (tracks.covered clean).trans (sup_le_sup_right (grown loaded) _),
      ⟨state, hash, state_le.trans (grown loaded)⟩, tracks.merged⟩
  · intro possible clean
    have recovery := inv.recovery possible clean
    refine ⟨fun state member => ?_, recovery.checkpoint_le⟩
    rw [cover, written, kept]
    rcases List.mem_cons.mp member with rfl | older
    · rw [content_getUpdate]
      exact le_sup_left
    · exact (recovery.stored state older).trans
        (sup_le_sup_right (grown (inv.loaded clean ref captured.present)) _)

/-- The saved boundary of a committed save. -/
theorem setSaved_spec (evicts edits : Prop) {ref : Ref} (guarded : Guarded recoverable task id users store)
    (present : store.docs = some ref) {state : P.Doc} (stateVector : P.Bytes) (savedAt : Nat)
    (written : store.savedContent = state) :
    Guar evicts edits task users store users
        (store.setSaved ref (P.getUpdate state) stateVector savedAt) ∧
      Guarded recoverable task id users
        (store.setSaved ref (P.getUpdate state) stateVector savedAt) := by
  have inv := guarded.inv
  refine ⟨guar_of_holdsGuard guarded.held rfl le_rfl (fun ref' _ => ?_) rfl
    (fun _ _ present => present) (fun ref' _ => ?_)
    (fun _ => .of_same rfl rfl),
    ⟨⟨⟨inv.guard.retired, inv.guard.counted, inv.guard.owner, inv.guard.loading⟩,
      ⟨inv.document.allocated, ?_, ?_, inv.document.evicted⟩, ?_, ?_, ?_⟩,
      guarded.held, guarded.notLoading⟩⟩
  · rw [setSaved_live]
    by_cases same : ref' = ref
    · subst same
      rw [Function.update_self]
      exact ⟨rfl, le_rfl, le_rfl, fun _ => rfl⟩
    · rw [Function.update_of_ne same]
      exact Evolves.refl _
  · rw [setSaved_live]
    by_cases same : ref' = ref
    · subst same
      rw [Function.update_self]
    · rw [Function.update_of_ne same]
  · intro ref' current generation checkpointed
    obtain rfl := Option.some.inj (present.symm.trans current)
    rw [setSaved_live, Function.update_self] at checkpointed ⊢
    exact inv.document.checkpointed_le ref present generation checkpointed
  · intro ref' current loaded
    obtain rfl := Option.some.inj (present.symm.trans current)
    rw [setSaved_live, Function.update_self] at loaded ⊢
    have tracks := inv.document.tracks ref present loaded
    exact ⟨tracks.saved_le, tracks.covered, ⟨state, rfl, written.ge⟩, tracks.merged⟩
  · intro clean ref' current
    obtain rfl := Option.some.inj (present.symm.trans current)
    rw [setSaved_live, Function.update_self]
    exact inv.loaded clean ref present
  · intro possible clean
    refine ⟨(inv.recovery possible clean).stored, fun ref' current => ?_⟩
    obtain rfl := Option.some.inj (present.symm.trans current)
    rw [setSaved_live, Function.update_self]
    exact (inv.recovery possible clean).checkpoint_le ref present
  · refine inv.writes.of_same rfl rfl le_rfl fun ref' _ current => ?_
    obtain rfl := Option.some.inj (present.symm.trans current)
    rw [setSaved_live, Function.update_self]
    exact ⟨present, le_rfl⟩

/-- The return of a save whose result describes what PostgreSQL holds. -/
theorem noteReturn_spec (evicts edits : Prop) (guarded : Guarded recoverable task id users store)
    {ref : Ref} {result : DocumentSaveResult P} (committed : P.Doc)
    (describes : SaveReturn.Describes ⟨result, store.saved, (store.live ref).doc⟩ committed) :
    Guar evicts edits task users store users (store.noteReturn ref result) ∧
      Guarded recoverable task id users (store.noteReturn ref result) := by
  have inv := guarded.inv
  refine ⟨guar_of_holdsGuard guarded.held rfl le_rfl (fun _ _ => Evolves.refl _) rfl
    (fun _ _ present => present) (fun _ _ => rfl)
    (fun _ => ⟨le_rfl, fun saved member => ?_⟩),
    ⟨⟨⟨inv.guard.retired, inv.guard.counted, inv.guard.owner, inv.guard.loading⟩,
      ⟨inv.document.allocated, inv.document.checkpointed_le, inv.document.tracks,
        inv.document.evicted⟩, inv.loaded, fun possible clean => ?_, ?_⟩,
      guarded.held, guarded.notLoading⟩⟩
  · rcases List.mem_cons.mp member with rfl | older
    · exact .inr le_rfl
    · exact .inl older
  · exact ⟨(inv.recovery possible clean).stored, (inv.recovery possible clean).checkpoint_le⟩
  · exact ⟨inv.writes.ordered, inv.writes.allocated, inv.writes.contained,
      List.forall_mem_cons.mpr ⟨⟨committed, describes⟩, inv.writes.returned⟩⟩

end Concord.Collaboration

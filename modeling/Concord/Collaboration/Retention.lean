import Concord.Collaboration.DocumentService

/-!
Contract: what a `DocumentManager` knows, in memory and in its two stores, never shrinks.

Owns:
- `known`, the join of what PostgreSQL, Redis and the document in memory hold;
- `Onward`, the order of stores in which neither of the two stores together nor what
  is known loses anything;
- the retention protocol: every method moves the store onward, and a save that has
  returned has stored all that was known when it was called.

The crux is the write of a captured document, which replaces what a store holds. The
document contained that content when it was captured, and the guard has kept the store
as it was then.

Does not own: a crash, which forgets the document in memory.
-/

set_option autoImplicit false

namespace Concord.Collaboration

open Asyncio Platform DocStore

variable {P : Platform} {α : Type} {task : TaskId} {id : GuardId} {users users' : GuardUsers}
  {origin store store' : DocStore P} {allows : DocStore P → Call → Event P → Prop}

/-! ### What is known -/

/-- What the two stores and the document in memory hold together. -/
def DocStore.known (store : DocStore P) : P.Doc :=
  store.cover ⊔ ((store.document).map (·.doc)).getD ⊥

theorem known_of_present {ref : Ref} (present : store.docs = some ref) :
    store.known = store.cover ⊔ (store.live ref).doc := by
  simp [DocStore.known, DocStore.document, present]

private theorem known_of_absent (absent : store.docs = none) : store.known = store.cover := by
  simp [DocStore.known, DocStore.document, absent]

private theorem cover_le_known (store : DocStore P) : store.cover ≤ store.known := le_sup_left

/-- A loaded document in memory is all that is known. -/
theorem Inv.known_eq {ref : Ref} (inv : Inv True users store) (clean : store.unloadedAccesses = 0)
    (present : store.docs = some ref) : store.known = (store.live ref).doc := by
  have loaded := inv.loaded clean ref present
  have saved_le := (inv.document.tracks ref present loaded).saved_le
  have checkpoint_le := (inv.recovery trivial clean).checkpoint_le ref present
  rw [known_of_present present]
  exact sup_eq_right.mpr (sup_le saved_le checkpoint_le)

/-- Nothing that is stored, and nothing that is known, has gone. -/
structure Retains (before after : DocStore P) : Prop where
  saved_le : before.savedContent ≤ after.savedContent
  cover_le : before.cover ≤ after.cover
  known_le : before.known ≤ after.known

theorem Retains.refl (store : DocStore P) : Retains store store := ⟨le_rfl, le_rfl, le_rfl⟩

theorem Retains.trans {first second third : DocStore P} (earlier : Retains first second)
    (later : Retains second third) : Retains first third where
  saved_le := earlier.saved_le.trans later.saved_le
  cover_le := earlier.cover_le.trans later.cover_le
  known_le := earlier.known_le.trans later.known_le

/-- The stores keep their content, and what was in memory is still known. -/
theorem Retains.of_document {before after : DocStore P}
    (saved_le : before.savedContent ≤ after.savedContent) (cover_le : before.cover ≤ after.cover)
    (document : ∀ ref, before.docs = some ref → (before.live ref).doc ≤ after.known) :
    Retains before after where
  saved_le := saved_le
  cover_le := cover_le
  known_le := by
    cases docs : before.docs with
    | none =>
        rw [known_of_absent docs]
        exact cover_le.trans (cover_le_known after)
    | some ref =>
        rw [known_of_present docs]
        exact sup_le (cover_le.trans (cover_le_known after)) (document ref docs)

/-- The document in memory stays there and grows. -/
theorem Retains.of_grown {before after : DocStore P}
    (saved_le : before.savedContent ≤ after.savedContent) (cover_le : before.cover ≤ after.cover)
    (grown : ∀ ref, before.docs = some ref →
      after.docs = some ref ∧ (before.live ref).doc ≤ (after.live ref).doc) :
    Retains before after := by
  refine .of_document saved_le cover_le fun ref present => ?_
  obtain ⟨still, doc_le⟩ := grown ref present
  rw [known_of_present still]
  exact doc_le.trans le_sup_right

/-- As long as no access has met an unloaded document, everything is retained. -/
structure Onward (before after : DocStore P) : Prop where
  accesses_le : before.unloadedAccesses ≤ after.unloadedAccesses
  retains : after.unloadedAccesses = 0 → Retains before after

theorem Onward.refl (store : DocStore P) : Onward store store := ⟨le_rfl, fun _ => .refl store⟩

theorem Onward.trans {first second third : DocStore P} (earlier : Onward first second)
    (later : Onward second third) : Onward first third where
  accesses_le := earlier.accesses_le.trans later.accesses_le
  retains clean := by
    have middle : second.unloadedAccesses = 0 := Nat.le_zero.mp (later.accesses_le.trans clean.le)
    exact (earlier.retains middle).trans (later.retains clean)

/-- A step that leaves the stores and the document in memory alone. -/
theorem Onward.of_same {before after : DocStore P} (saved : after.saved.state = before.saved.state)
    (checkpoint : after.checkpoint = before.checkpoint) (docs : after.docs = before.docs)
    (live : ∀ ref, before.docs = some ref → (after.live ref).doc = (before.live ref).doc)
    (accesses : after.unloadedAccesses = before.unloadedAccesses) : Onward before after where
  accesses_le := accesses.ge
  retains _ := by
    have savedContent : after.savedContent = before.savedContent := by
      rw [DocStore.savedContent, saved, DocStore.savedContent]
    refine .of_grown savedContent.ge ?_ fun ref present =>
      ⟨docs.trans present, (live ref present).ge⟩
    rw [cover, cover, savedContent, checkpointContent, checkpointContent, checkpoint]

/-! ### The protocol -/

/-- The protocol of the manager, where every step moves the store onward. -/
def retention (P : Platform) : Logic GuardUsers (DocStore P) Call where
  inv := Inv True
  rely task users before users' after := Rely task users before users' after ∧ Onward before after
  guar task users before users' after :=
    Guar True True task users before users' after ∧ Onward before after
  done task users _ := task ∉ users

theorem retention_lawful : (retention P).Lawful where
  rely_refl task users store := ⟨.refl task users store, .refl store⟩
  rely_trans earlier later := ⟨earlier.1.trans later.1, earlier.2.trans later.2⟩
  guar_rely different guar := ⟨guar.1.rely _ different, guar.2⟩
  parked_stable _ _ := trivial
  done_stable rely outside counted := outside (rely.1.outside counted)
  fresh_stable rely outside counted := outside (rely.1.outside counted)

/-! ### Awaited reads and writes -/

private theorem retains_readCall {call : Call} {value : DocStore P → α}
    {post : Post GuardUsers (DocStore P) Exn α} (inv : Inv True users store)
    (done : ∀ users' store', Rely task users store users' store' → Onward store store' →
      Inv True users' store' → post (.ok (value store')) users' store')
    (failed : ∀ users' store' event, event ≠ .done → allows store' call event →
      Rely task users store users' store' → Onward store store' → Inv True users' store' →
        post (.error .driver) users' store') :
    wp (retention P) allows task (readCall call value) post users store := by
  refine wp_awaitCall inv trivial ?_
  rintro users₁ store₁ ⟨rely, onward⟩ inv₁ _ event result store₂ allowed taken
  refine ⟨users₁, ?_⟩
  cases event with
  | received message => cases taken
  | done =>
      obtain ⟨rfl, rfl⟩ := Prod.mk.inj (Option.some.inj taken)
      exact ⟨⟨Guar.refl _ _ _, .refl _⟩, done _ _ rely onward inv₁⟩
  | raised | raisedAfter =>
      obtain ⟨rfl, rfl⟩ := Prod.mk.inj (Option.some.inj taken)
      exact ⟨⟨Guar.refl _ _ _, .refl _⟩, failed _ _ _ (by simp) allowed rely onward inv₁⟩

private theorem retains_writeCall {call : Call} {effect : DocStore P → DocStore P}
    {post : Post GuardUsers (DocStore P) Exn Unit} (inv : Inv True users store)
    (takes : ∀ users' store', Rely task users store users' store' → Onward store store' →
      Inv True users' store' →
        (Guar True True task users' store' users' (effect store') ∧
          Onward store' (effect store')) ∧
        post (.ok ()) users' (effect store') ∧ post (.error .driver) users' (effect store'))
    (fails : ∀ users' store', Rely task users store users' store' → Onward store store' →
      Inv True users' store' → post (.error .driver) users' store') :
    wp (retention P) allows task (writeCall call effect) post users store := by
  refine wp_awaitCall inv trivial ?_
  rintro users₁ store₁ ⟨rely, onward⟩ inv₁ _ event result store₂ _ taken
  refine ⟨users₁, ?_⟩
  obtain ⟨guar, returned, raised⟩ := takes _ _ rely onward inv₁
  cases event with
  | received message => cases taken
  | done =>
      obtain ⟨rfl, rfl⟩ := Prod.mk.inj (Option.some.inj taken)
      exact ⟨guar, returned⟩
  | raised =>
      obtain ⟨rfl, rfl⟩ := Prod.mk.inj (Option.some.inj taken)
      exact ⟨⟨Guar.refl _ _ _, .refl _⟩, fails _ _ rely onward inv₁⟩
  | raisedAfter =>
      obtain ⟨rfl, rfl⟩ := Prod.mk.inj (Option.some.inj taken)
      exact ⟨guar, raised⟩

/-! ### The session guard -/

private theorem onward_withRegistry (registry : GuardRegistry) (store : DocStore P) :
    Onward store (withRegistry registry store) :=
  .of_same rfl rfl rfl (fun _ _ => rfl) rfl

private theorem enterGuard_eq (store : DocStore P) :
    ∃ registry, store.enterGuard.2 = withRegistry registry store := by
  unfold DocStore.enterGuard
  dsimp only
  split <;> exact ⟨_, rfl⟩

/-- The state of a guarded body that has begun somewhere behind `origin`. -/
structure Behind (origin : DocStore P) (task : TaskId) (id : GuardId) (users : GuardUsers)
    (store : DocStore P) : Prop where
  guarded : Guarded True task id users store
  onward : Onward origin store

/-- A guarded method moves the store onward where its body does. What the body says of
the store has to survive a change of the registry. -/
theorem retains_serialized {body : Program P α} {post : Except Exn α → DocStore P → Prop}
    (inv : Inv True users store) (outside : task ∉ users) (onward : Onward origin store)
    (stable : ∀ result store registry, post result store → post result (withRegistry registry store))
    (bodySpec : ∀ id users store, Behind origin task id users store →
      wp (retention P) allows task body
        (fun result users store => Behind origin task id users store ∧ post result store)
        users store) :
    wp (retention P) allows task (serialized task body)
      (fun result users store => (Inv True users store ∧ task ∉ users ∧ Onward origin store) ∧
        post result store) users store := by
  obtain ⟨guar, invEntered, inside⟩ := enterGuard_spec True True inv outside
  obtain ⟨registry, entered⟩ := enterGuard_eq store
  unfold serialized
  rw [wp_bind]
  refine wp_modifyGet (insert task users) ⟨guar, entered ▸ onward_withRegistry _ _⟩ ?_
  simp only [thenPost_ok, wp_tryFinally, wp_bind]
  refine wp_awaitUntil invEntered trivial ?_
  rintro users₁ store₁ ⟨rely, waited⟩ inv₁ _ _ store₂ taken
  obtain ⟨guar₂, inv₂, held, notLoading⟩ :=
    acquireGuard_spec True True inv₁ (rely.inside _ inside) taken
  obtain ⟨registry₁, rfl⟩ := acquireGuard_eq taken
  have acquired : Onward origin (withRegistry registry₁ store₁) :=
    (onward.trans (entered ▸ onward_withRegistry _ _)).trans
      (waited.trans (onward_withRegistry _ _))
  refine ⟨users₁, ⟨guar₂, onward_withRegistry _ _⟩, ?_⟩
  simp only [thenPost_ok, wp_tryFinally]
  refine wp_mono ?_ (bodySpec _ _ _ ⟨⟨inv₂, held, notLoading⟩, acquired⟩)
  rintro result users₃ store₃ ⟨⟨guarded, moved⟩, holds⟩
  obtain ⟨guar₃, inv₃, inside₃⟩ := releaseGuard_spec True True
    guarded.inv guarded.held guarded.notLoading
  refine wp_modify users₃ ⟨guar₃, onward_withRegistry _ _⟩ ?_
  have released : ((store₃.releaseGuard store.enterGuard.1).registry.guard
      store.enterGuard.1).owner = none := by
    simp [DocStore.releaseGuard]
  obtain ⟨guar₄, inv₄⟩ := leaveGuard_spec True True inv₃ inside₃ released
  have left : post result ((store₃.releaseGuard store.enterGuard.1).leaveGuard
      store.enterGuard.1) := stable result _ _ (stable result _ _ holds)
  have onwardLeft : Onward origin ((store₃.releaseGuard store.enterGuard.1).leaveGuard
      store.enterGuard.1) :=
    (moved.trans (onward_withRegistry _ _)).trans (onward_withRegistry _ _)
  cases result with
  | ok value =>
      exact wp_modify _ ⟨guar₄, onward_withRegistry _ _⟩
        ⟨⟨inv₄, Finset.notMem_erase _ _, onwardLeft⟩, left⟩
  | error exn =>
      exact wp_modify _ ⟨guar₄, onward_withRegistry _ _⟩
        ⟨⟨inv₄, Finset.notMem_erase _ _, onwardLeft⟩, left⟩

theorem Behind.of_rely (behind : Behind origin task id users store)
    (rely : Rely task users store users' store') (onward : Onward store store')
    (inv : Inv True users' store') : Behind origin task id users' store' :=
  ⟨behind.guarded.of_rely rely inv, behind.onward.trans onward⟩

/-- The document in memory has all that was known, if every access has met a loaded one. -/
theorem Behind.known_le {ref : Ref} (behind : Behind origin task id users store)
    (present : store.docs = some ref) (clean : store.unloadedAccesses = 0) :
    origin.known ≤ (store.live ref).doc := by
  rw [← behind.guarded.inv.known_eq clean present]
  exact (behind.onward.retains clean).known_le

/-- A method that returns has put all that was known where `content` looks. -/
def StoresKnown (content : DocStore P → P.Doc) (origin : DocStore P) (result : Except Exn α)
    (store : DocStore P) : Prop :=
  ∀ value, result = .ok value → store.unloadedAccesses = 0 → origin.known ≤ content store

/-! ### Loading -/

private theorem onward_setLoading (loading : Bool) (store : DocStore P) :
    Onward store (store.setLoading loading) :=
  .of_same rfl rfl rfl (fun _ _ => rfl) rfl

/-- A document that enters memory where there is none takes nothing away. -/
theorem onward_publish (absent : store.docs = none) (live : LiveDocument P) :
    Onward store (store.publish live) where
  accesses_le := le_rfl
  retains _ := .of_grown le_rfl le_rfl fun ref present =>
    absurd (absent.symm.trans present) (Option.some_ne_none ref).symm

theorem loadFromStorageLocked_retains (readable : CheckpointReadable True allows)
    (behind : Behind origin task id users store) :
    wp (retention P) allows task loadFromStorageLocked
      (fun result users store => Behind origin task id users store ∧ Published result store)
      users store := by
  have guarded := behind.guarded
  unfold loadFromStorageLocked
  rw [wp_bind, wp_get, thenPost_ok]
  split
  · next ref present => exact ⟨behind, present⟩
  · next absent =>
      rw [wp_bind]
      refine wp_modify users ⟨guar_setLoading true guarded.held, onward_setLoading _ _⟩ ?_
      rw [thenPost_ok, wp_tryFinally, wp_bind]
      have loading := beginLoading_spec guarded absent
      have begun : Onward origin (store.setLoading true) :=
        behind.onward.trans (onward_setLoading _ _)
      refine retains_readCall loading.inv ?_ ?_
      · intro users₁ store₁ rely₁ onward₁ inv₁
        obtain ⟨loading₁, _⟩ := loading.of_rely rely₁ inv₁
        -- The load ends in one step once Redis has answered or raised.
        have finish : ∀ users₂ store₂ checkpoint read, Rely task users₁ store₁ users₂ store₂ →
            Onward store₁ store₂ → Inv True users₂ store₂ →
            (checkpoint, read) = (store₂.checkpoint, true) ∨
              ((checkpoint, read) = (none, false) ∧
                store₂.checkpointContent ≤ store₂.savedContent) →
            cleanupPost (retention P) allows task (modify (DocStore.setLoading false))
              (fun result users store =>
                Behind origin task id users store ∧ Published result store)
              (.ok store₂.nextRef) users₂ (store₂.publish
                (loadedDocument store₁.saved checkpoint read store₂)) ∧
              (retention P).guar task users₂ store₂ users₂ (store₂.publish
                (loadedDocument store₁.saved checkpoint read store₂)) := by
          intro users₂ store₂ checkpoint read rely₂ onward₂ inv₂ answer
          obtain ⟨loading₂, saved⟩ := loading₁.of_rely rely₂ inv₂
          have tracks := tracks_loadedDocument store₁.saved checkpoint read saved
            (answer.imp_right And.left)
          have isLoaded : (loadedDocument store₁.saved checkpoint read store₂).Loaded := trivial
          have published := onward_publish loading₂.absent
            (loadedDocument store₁.saved checkpoint read store₂)
          have moved : Onward origin store₂ := (begun.trans onward₁).trans onward₂
          obtain ⟨guar, ended, guarded₂⟩ := publishLoaded_spec True True loading₂ isLoaded
            (fun generation checkpointed => by
              simp only [loadedDocument] at checkpointed
              split at checkpointed
              · exact (Option.some.inj checkpointed).ge
              · cases checkpointed)
            tracks (fun _ => by
              rcases answer with answer | ⟨_, covered⟩
              · obtain ⟨rfl, rfl⟩ := Prod.mk.inj answer
                exact (tracks.merged _ _ _ rfl).2 rfl
              · exact covered.trans tracks.saved_le)
          exact ⟨wp_modify users₂ ⟨ended, onward_setLoading _ _⟩
            ⟨⟨guarded₂, (moved.trans published).trans (onward_setLoading _ _)⟩, rfl⟩,
            guar, published⟩
        rw [thenPost_ok, wp_bind, wp_tryExcept, wp_bind]
        refine retains_readCall inv₁ ?_ ?_
        · intro users₂ store₂ rely₂ onward₂ inv₂
          obtain ⟨holds, guar⟩ :=
            finish users₂ store₂ store₂.checkpoint true rely₂ onward₂ inv₂ (.inl rfl)
          simp only [thenPost_ok, wp_pure, handlerPost_ok]
          exact wp_modifyGet users₂ guar holds
        · intro users₂ store₂ event raised allowed rely₂ onward₂ inv₂
          obtain ⟨holds, guar⟩ := finish users₂ store₂ none false rely₂ onward₂ inv₂
            (.inr ⟨rfl, readable trivial store₂ event raised allowed⟩)
          simp only [thenPost_ok, thenPost_error, wp_pure, handlerPost_error]
          exact wp_modifyGet users₂ guar holds
      · intro users₁ store₁ _ _ _ rely₁ onward₁ inv₁
        obtain ⟨loading₁, _⟩ := loading.of_rely rely₁ inv₁
        exact wp_modify users₁ ⟨guar_setLoading false loading₁.held, onward_setLoading _ _⟩
          ⟨⟨abandonLoading_spec loading₁,
            (begun.trans onward₁).trans (onward_setLoading _ _)⟩, trivial⟩

/-! ### Checkpoints -/

/-- The write of a state that contains the checkpoint before it loses nothing. -/
theorem onward_putCheckpoint {doc : P.Doc}
    (contains : store.unloadedAccesses = 0 → store.checkpointContent ≤ doc) :
    Onward store (store.putCheckpoint (P.getUpdate doc)) where
  accesses_le := le_rfl
  retains clean := by
    have written : (store.putCheckpoint (P.getUpdate doc)).checkpointContent = doc :=
      content_getUpdate _
    have kept : (store.putCheckpoint (P.getUpdate doc)).savedContent = store.savedContent := rfl
    refine .of_grown kept.ge ?_ fun ref current => ⟨current, le_rfl⟩
    rw [cover, cover, written, kept]
    exact sup_le_sup_left (contains clean) _

private theorem onward_setCheckpointed (ref : Ref) (generation : Nat) (store : DocStore P) :
    Onward store (store.setCheckpointed ref generation) := by
  refine .of_same rfl rfl rfl (fun ref' _ => ?_) rfl
  rw [setCheckpointed_live]
  by_cases same : ref' = ref
  · rw [same, Function.update_self]
  · rw [Function.update_of_ne same]

/-- Where no document is in memory, the stores have all that was known. -/
theorem Behind.storesKnown_of_absent (behind : Behind origin task id users store)
    (absent : store.docs = none) (result : Except Exn α) :
    StoresKnown cover origin result store := by
  intro _ _ clean
  rw [← known_of_absent absent]
  exact (behind.onward.retains clean).known_le

theorem checkpointToRedisLocked_retains (behind : Behind origin task id users store) :
    wp (retention P) allows task checkpointToRedisLocked
      (fun result users after => Behind origin task id users after ∧
        Checkpointed store result after ∧ StoresKnown cover origin result after) users store := by
  have guarded := behind.guarded
  unfold checkpointToRedisLocked
  rw [wp_bind, wp_get, thenPost_ok]
  split
  · next absent =>
      exact ⟨behind, fun ref present => (nomatch absent.symm.trans present),
        behind.storesKnown_of_absent absent _⟩
  · next ref present =>
      have captured := captured_self guarded.inv present
      have bound := guarded.inv.document.checkpointed_le ref present
      have contains : store.unloadedAccesses = 0 →
          store.checkpointContent ≤ (store.live ref).doc := fun clean =>
        (guarded.inv.recovery trivial clean).checkpoint_le ref present
      rw [wp_bind]
      refine retains_writeCall guarded.inv ?_ ?_
      · intro users₁ store₁ rely onward inv
        have behind₁ := behind.of_rely rely onward inv
        have captured₁ := captured.of_rely guarded rely
        obtain ⟨guar₁, guarded₁⟩ := putCheckpoint_spec True True behind₁.guarded captured₁ bound
          fun _ => contains
        have put : Onward store₁ (store₁.putCheckpoint (P.getUpdate (store.live ref).doc)) :=
          onward_putCheckpoint fun clean => by
            rw [captured₁.checkpoint]
            exact contains (Nat.le_zero.mp (captured₁.accesses_le.trans clean.le))
        have written : Captured ref (store.live ref) store₁.savedContent (store.live ref).doc
            store.unloadedAccesses (store₁.putCheckpoint (P.getUpdate (store.live ref).doc)) :=
          ⟨captured₁.present, captured₁.evolves, captured₁.checkpointed, rfl,
            content_getUpdate _, captured₁.accesses_le,
            List.forall_mem_cons.mpr ⟨fun _ => (content_getUpdate _).le, captured₁.written⟩⟩
        have moved := behind₁.onward.trans put
        refine ⟨⟨guar₁, put⟩, ?_, ⟨guarded₁, moved⟩, fun ref' present' => ?_, nofun⟩
        · obtain ⟨guar₂, guarded₂⟩ := setCheckpointed_spec True True
            guarded₁ written written.checkpoint
          rw [thenPost_ok, wp_bind]
          refine wp_modify users₁ ⟨guar₂, onward_setCheckpointed _ _ _⟩
            ⟨⟨guarded₂, moved.trans (onward_setCheckpointed _ _ _)⟩, fun ref' present' => ?_, ?_⟩
          · obtain rfl := Option.some.inj (present.symm.trans present')
            refine ⟨captured₁.present, fun _ _ => ?_⟩
            rw [setCheckpointed_live, Function.update_self]
          · intro _ _ clean
            have earlier : store.unloadedAccesses = 0 :=
              Nat.le_zero.mp (captured₁.accesses_le.trans clean.le)
            exact (behind.known_le present earlier).trans
              ((content_getUpdate (store.live ref).doc).ge.trans le_sup_right)
        · obtain rfl := Option.some.inj (present.symm.trans present')
          exact ⟨captured₁.present, fun _ result => by cases result⟩
      · intro users₁ store₁ rely onward inv
        have captured₁ := captured.of_rely guarded rely
        refine ⟨behind.of_rely rely onward inv, fun ref' present' => ?_, nofun⟩
        obtain rfl := Option.some.inj (present.symm.trans present')
        exact ⟨captured₁.present, fun _ result => by cases result⟩

/-- A clean document leaves memory for the stores, which have all of it. -/
theorem onward_dropDoc {ref : Ref} (inv : Inv True users store) (present : store.docs = some ref)
    (clean : (store.live ref).metadata.checkpointedGeneration =
      some (store.live ref).metadata.generation) : Onward store store.dropDoc := by
  have covered : store.unloadedAccesses = 0 → (store.live ref).doc ≤ store.cover := fun accesses =>
    (inv.document.tracks ref present (inv.loaded accesses ref present)).covered clean
  have cover : store.dropDoc.cover = store.cover := by
    simp only [dropDoc, present]
    rfl
  have saved : store.dropDoc.savedContent = store.savedContent := by
    simp only [dropDoc, present]
    rfl
  have accesses : store.dropDoc.unloadedAccesses = store.unloadedAccesses := by
    simp only [dropDoc, present]
  refine ⟨accesses.ge, fun now => .of_document saved.ge cover.ge fun ref' current => ?_⟩
  obtain rfl := Option.some.inj (present.symm.trans current)
  exact ((covered (accesses.symm.trans now)).trans_eq cover.symm).trans (cover_le_known _)

theorem checkpointAndRemoveLocked_retains (behind : Behind origin task id users store) :
    wp (retention P) allows task checkpointAndRemoveLocked
      (fun result users after => Behind origin task id users after ∧
        StoresKnown cover origin result after) users store := by
  unfold checkpointAndRemoveLocked
  rw [wp_bind, wp_get, thenPost_ok]
  split
  · next absent => exact ⟨behind, behind.storesKnown_of_absent absent _⟩
  · next ref present =>
      rw [wp_bind]
      refine wp_mono ?_ (checkpointToRedisLocked_retains behind)
      rintro (exn | size) users₁ store₁ ⟨behind₁, checkpointed, stored⟩
      · exact ⟨behind₁, nofun⟩
      · obtain ⟨present₁, written⟩ := checkpointed ref present
        have covered : store₁.unloadedAccesses = 0 → origin.known ≤ store₁.cover := stored size rfl
        rw [thenPost_ok, wp_bind, wp_get, thenPost_ok]
        split
        · exact ⟨behind₁, fun _ _ => covered⟩
        · next unchanged =>
            have clean := (written size rfl).trans (congrArg some (not_not.mp unchanged).symm)
            obtain ⟨guar, dropped⟩ := dropDoc_spec True trivial behind₁.guarded present₁ clean
            have moved := onward_dropDoc behind₁.guarded.inv present₁ clean
            rw [wp_bind]
            refine wp_modify users₁ ⟨guar, moved⟩ ⟨⟨dropped, behind₁.onward.trans moved⟩, ?_⟩
            intro _ _ accesses
            have earlier : store₁.unloadedAccesses = 0 :=
              Nat.le_zero.mp (moved.accesses_le.trans accesses.le)
            exact (covered earlier).trans (moved.retains accesses).cover_le

/-! ### Saves -/

/-- The commit of a state that contains what PostgreSQL held loses nothing. -/
theorem onward_putSaved {doc : P.Doc} (savedAt : Nat)
    (contains : store.unloadedAccesses = 0 → store.savedContent ≤ doc) :
    Onward store (store.putSaved (P.getUpdate doc) savedAt) where
  accesses_le := le_rfl
  retains clean := by
    have written : (store.putSaved (P.getUpdate doc) savedAt).savedContent = doc :=
      content_getUpdate _
    have kept : (store.putSaved (P.getUpdate doc) savedAt).checkpointContent =
        store.checkpointContent := rfl
    refine .of_grown ?_ ?_ fun ref current => ⟨current, le_rfl⟩
    · rw [written]
      exact contains clean
    · rw [cover, cover, written, kept]
      exact sup_le_sup_right (contains clean) _

private theorem onward_recordSave (ref : Ref) (state stateVector : P.Bytes) (savedAt : Nat)
    (store : DocStore P) : Onward store (store.recordSave ref state stateVector savedAt).2 := by
  unfold recordSave
  split
  · exact .refl store
  · next current _ =>
      refine .of_same rfl rfl rfl (fun ref' _ => ?_) rfl
      rw [noteReturn_live, setSaved_live]
      by_cases same : ref' = current
      · rw [same, Function.update_self]
      · rw [Function.update_of_ne same]

private theorem persistCaptured_retains {ref : Ref} (behind : Behind origin task id users store)
    (present : store.docs = some ref) (savedAt : Nat) :
    wp (retention P) allows task
      (do
        saveExecute
        saveCommit (P.getUpdate (store.live ref).doc) savedAt
        Coroutine.atomic (recordSave ref (P.getUpdate (store.live ref).doc)
          (P.getState (store.live ref).doc) savedAt))
      (fun result users after => Behind origin task id users after ∧
        StoresKnown savedContent origin result after) users store := by
  have guarded := behind.guarded
  have captured := captured_self guarded.inv present
  have contains : (store.live ref).Loaded → store.savedContent ≤ (store.live ref).doc :=
    fun loaded => (guarded.inv.document.tracks ref present loaded).saved_le
  rw [wp_bind]
  refine retains_writeCall guarded.inv ?_ fun users₁ store₁ rely₁ onward₁ inv₁ =>
    ⟨behind.of_rely rely₁ onward₁ inv₁, nofun⟩
  intro users₁ store₁ rely₁ onward₁ inv₁
  have behind₁ := behind.of_rely rely₁ onward₁ inv₁
  have captured₁ := captured.of_rely guarded rely₁
  refine ⟨⟨Guar.refl _ _ _, .refl _⟩, ?_, behind₁, nofun⟩
  rw [thenPost_ok, wp_bind]
  refine retains_writeCall inv₁ ?_ fun users₂ store₂ rely₂ onward₂ inv₂ =>
    ⟨behind₁.of_rely rely₂ onward₂ inv₂, nofun⟩
  intro users₂ store₂ rely₂ onward₂ inv₂
  have behind₂ := behind₁.of_rely rely₂ onward₂ inv₂
  have captured₂ := captured₁.of_rely behind₁.guarded rely₂
  have earlier : store₂.unloadedAccesses = 0 → store.unloadedAccesses = 0 := fun clean =>
    Nat.le_zero.mp (captured₂.accesses_le.trans clean.le)
  obtain ⟨guar₂, saved₂⟩ := putSaved_spec True True behind₂.guarded captured₂ savedAt contains
  have put : Onward store₂ (store₂.putSaved (P.getUpdate (store.live ref).doc) savedAt) := by
    refine onward_putSaved savedAt fun clean => ?_
    rw [captured₂.saved]
    exact contains (guarded.inv.loaded (earlier clean) ref present)
  have moved := behind₂.onward.trans put
  refine ⟨⟨guar₂, put⟩, ?_, ⟨saved₂, moved⟩, nofun⟩
  obtain ⟨guar₃, saved₃⟩ := recordSave_spec True True saved₂ captured₂.present rfl
  have recorded := onward_recordSave ref (P.getUpdate (store.live ref).doc)
    (P.getState (store.live ref).doc) savedAt (store₂.putSaved (P.getUpdate (store.live ref).doc) savedAt)
  rw [thenPost_ok]
  refine wp_atomic users₂ ⟨guar₃, recorded⟩
    ⟨⟨saved₃, moved.trans recorded⟩, fun _ _ clean => ?_⟩
  have before : store₂.unloadedAccesses = 0 :=
    Nat.le_zero.mp (recorded.accesses_le.trans clean.le)
  rw [recordSave_savedContent]
  exact (behind.known_le present (earlier before)).trans_eq (content_getUpdate _).symm

theorem persistToDbLocked_retains (readable : CheckpointReadable True allows)
    (behind : Behind origin task id users store) :
    wp (retention P) allows task persistToDbLocked
      (fun result users after => Behind origin task id users after ∧
        StoresKnown savedContent origin result after) users store := by
  unfold persistToDbLocked
  rw [wp_bind, wp_get, thenPost_ok]
  split
  · next ref present =>
      rw [wp_bind, wp_pure, thenPost_ok, wp_bind, wp_get, thenPost_ok]
      exact persistCaptured_retains behind present _
  · next absent =>
      rw [wp_bind]
      refine wp_mono ?_ (loadFromStorageLocked_retains readable behind)
      rintro (exn | ref) users₁ store₁ ⟨behind₁, published⟩
      · exact ⟨behind₁, nofun⟩
      · rw [thenPost_ok, wp_bind, wp_get, thenPost_ok]
        exact persistCaptured_retains behind₁ published _

/-! ### Synchronous methods -/

theorem getOrCreate_stores (store : DocStore P) :
    store.getOrCreate.2.saved = store.saved ∧ store.getOrCreate.2.checkpoint = store.checkpoint := by
  unfold getOrCreate
  split
  · exact ⟨rfl, rfl⟩
  · split <;> exact ⟨rfl, rfl⟩

/-- A step of the protocol that leaves the stores alone and keeps the document. -/
theorem SyncStep.onward (step : SyncStep True False True users store store')
    (inv : Inv True users store) (saved : store'.saved = store.saved)
    (checkpoint : store'.checkpoint = store.checkpoint) : Onward store store' where
  accesses_le := (step.rely 0).accesses_le
  retains _ := by
    have savedContent : store'.savedContent = store.savedContent := by
      rw [DocStore.savedContent, saved, DocStore.savedContent]
    refine .of_grown savedContent.ge ?_ fun ref present => ⟨step.keeps id ref present, ?_⟩
    · rw [cover, cover, savedContent, checkpointContent, checkpointContent, checkpoint]
    · exact ((step.rely 0).live ref (inv.document.allocated ref present)).doc_le

end Concord.Collaboration

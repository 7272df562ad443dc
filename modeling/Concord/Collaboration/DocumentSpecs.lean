import Concord.Collaboration.DocumentStorage

/-!
Contract: specifications of the storage methods of `DocumentManager`.

Owns:
- the specification of each method under the guard, then of the guarded method.

Does not own: the room that calls these methods.
-/

set_option autoImplicit false

namespace Concord.Collaboration

open Asyncio Platform DocStore

variable {P : Platform} {α : Type} {recoverable evicts edits : Prop} {task : TaskId}
  {id : GuardId} {users users' : GuardUsers} {store store' : DocStore P}
  {allows : DocStore P → Call → Event P → Prop}

/-! ### `load_from_storage` -/

/-- The task holds the guard and loads the document. -/
structure Loading (recoverable : Prop) (task : TaskId) (id : GuardId) (users : GuardUsers)
    (store : DocStore P) : Prop where
  inv : Inv recoverable users store
  held : HoldsGuard task id users store
  loading : store.loading = true

theorem Loading.absent (loading : Loading recoverable task id users store) :
    store.docs = none :=
  (loading.inv.guard.loading loading.loading).1

theorem Loading.of_rely (loading : Loading recoverable task id users store)
    (rely : Rely task users store users' store') (inv : Inv recoverable users' store') :
    Loading recoverable task id users' store' ∧ store'.saved.state = store.saved.state := by
  have frozen := (rely.holds id loading.held).1
  exact ⟨⟨inv, rely.holdsGuard loading.held, frozen.loading.trans loading.loading⟩, frozen.saved⟩

/-- A change of `_loading_sessions` under the guard. -/
theorem guar_setLoading (loading : Bool) (held : HoldsGuard task id users store) :
    Guar evicts edits task users store users (store.setLoading loading) :=
  guar_of_holdsGuard held rfl le_rfl (fun _ _ => Evolves.refl _) rfl (fun _ _ present => present)
    (fun _ _ => rfl) fun _ => .of_same rfl rfl

theorem beginLoading_spec (guarded : Guarded recoverable task id users store)
    (absent : store.docs = none) :
    Loading recoverable task id users (store.setLoading true) where
  inv :=
    { guard := ⟨guarded.inv.guard.retired, guarded.inv.guard.counted, guarded.inv.guard.owner,
        fun _ => ⟨absent, id, task, guarded.held.2⟩⟩
      document := ⟨guarded.inv.document.allocated, guarded.inv.document.checkpointed_le,
        guarded.inv.document.tracks, guarded.inv.document.evicted⟩
      loaded := guarded.inv.loaded
      recovery := fun possible clean => ⟨(guarded.inv.recovery possible clean).stored,
        (guarded.inv.recovery possible clean).checkpoint_le⟩
      writes := guarded.inv.writes.of_absent rfl rfl rfl absent }
  held := guarded.held
  loading := rfl

theorem abandonLoading_spec (loading : Loading recoverable task id users store) :
    Guarded recoverable task id users (store.setLoading false) where
  inv :=
    { guard := ⟨loading.inv.guard.retired, loading.inv.guard.counted, loading.inv.guard.owner,
        fun still => by cases still⟩
      document := ⟨loading.inv.document.allocated, loading.inv.document.checkpointed_le,
        loading.inv.document.tracks, loading.inv.document.evicted⟩
      loaded := loading.inv.loaded
      recovery := fun possible clean => ⟨(loading.inv.recovery possible clean).stored,
        (loading.inv.recovery possible clean).checkpoint_le⟩
      writes := loading.inv.writes.of_absent rfl rfl rfl loading.absent }
  held := loading.held
  notLoading := rfl

/-- The publication of a loaded document and the end of the load. -/
theorem publishLoaded_spec (evicts edits : Prop) {live : LiveDocument P}
    (loading : Loading recoverable task id users store) (loaded : live.Loaded)
    (bound : ∀ generation, live.metadata.checkpointedGeneration = some generation →
      generation ≤ live.metadata.generation)
    (tracks : Tracks store.savedContent store.checkpointContent live)
    (recovered : recoverable → store.checkpointContent ≤ live.doc) :
    Guar evicts edits task users store users (store.publish live) ∧
      Guar evicts edits task users (store.publish live) users
        ((store.publish live).setLoading false) ∧
      Guarded recoverable task id users ((store.publish live).setLoading false) := by
  have inv := loading.inv
  have absent := loading.absent
  refine ⟨guar_of_holdsGuard loading.held rfl (Nat.le_succ _) (fun ref known => ?_) rfl
    (fun _ ref present => ?_) (fun ref known => ?_) (fun _ => .of_same rfl rfl),
    guar_setLoading false loading.held,
    ⟨⟨⟨inv.guard.retired, inv.guard.counted, inv.guard.owner, fun still => by cases still⟩,
      ⟨?_, ?_, ?_, inv.document.evicted⟩, ?_, ?_, ?_⟩, loading.held, rfl⟩⟩
  · rw [publish_live, Function.update_of_ne (Nat.ne_of_lt known)]
    exact Evolves.refl _
  · rw [absent] at present
    cases present
  · rw [publish_live, Function.update_of_ne (Nat.ne_of_lt known)]
  · rintro ref ⟨⟩
    exact Nat.lt_succ_self _
  · rintro ref ⟨⟩ generation checkpointed
    simp only [setLoading_live, publish_live, Function.update_self] at checkpointed ⊢
    exact bound generation checkpointed
  · rintro ref ⟨⟩ _
    simp only [setLoading_live, publish_live, Function.update_self]
    exact tracks
  · rintro _ ref ⟨⟩
    simp only [setLoading_live, publish_live, Function.update_self]
    exact loaded
  · intro possible clean
    refine ⟨(inv.recovery possible clean).stored, ?_⟩
    rintro ref ⟨⟩
    simp only [setLoading_live, publish_live, Function.update_self]
    exact recovered possible
  · exact (inv.writes.publish live).of_same rfl rfl le_rfl fun _ _ present => ⟨present, le_rfl⟩

/-- What a load has merged relates to the stores at the publication. -/
theorem tracks_loadedDocument (stored : StoredDocument P) (checkpoint : Option P.Bytes)
    (readable : Bool) (saved : store.saved.state = stored.state)
    (read : (checkpoint, readable) = (store.checkpoint, true) ∨
      (checkpoint, readable) = (none, false)) :
    Tracks store.savedContent store.checkpointContent
      (loadedDocument stored checkpoint readable store) := by
  have content_le : content checkpoint ≤ store.checkpointContent := by
    rcases read with answer | answer <;> obtain ⟨rfl, rfl⟩ := Prod.mk.inj answer
    · exact le_rfl
    · exact bot_le
  have doc_eq : (loadedDocument stored checkpoint readable store).doc =
      store.savedContent ⊔ content checkpoint := by
    simp only [loadedDocument, applyStored_eq, newDoc, bot_sup_eq, savedContent, saved]
  refine ⟨?_, ?_, ⟨store.savedContent, ?_, le_rfl⟩, ?_⟩
  · rw [doc_eq]
    exact le_sup_left
  · intro _
    rw [doc_eq]
    exact sup_le_sup_left content_le _
  · simp only [loadedDocument, applyStored_eq, newDoc, bot_sup_eq, savedContent, saved]
  · intro savedThen checkpointThen readableThen origin
    simp only [loadedDocument, Origin.loaded.injEq] at origin
    obtain ⟨rfl, rfl, rfl⟩ := origin
    rw [doc_eq]
    refine ⟨le_sup_left, fun isRead => ?_⟩
    rcases read with answer | answer <;> obtain ⟨rfl, rfl⟩ := Prod.mk.inj answer
    · exact le_sup_right
    · cases isRead

/-- What is true of a load that has returned. -/
def Published : Except Exn Ref → DocStore P → Prop
  | .ok ref, store => store.docs = some ref
  | .error _, _ => True

private theorem loadFromStorageLocked_spec (readable : CheckpointReadable recoverable allows)
    (guarded : Guarded recoverable task id users store) :
    wp (protocol P recoverable evicts edits) allows task loadFromStorageLocked
      (fun result users store => Guarded recoverable task id users store ∧ Published result store)
      users store := by
  unfold loadFromStorageLocked
  rw [wp_bind, wp_get, thenPost_ok]
  split
  · next ref present => exact ⟨guarded, present⟩
  · next absent =>
      rw [wp_bind]
      refine wp_modify users (guar_setLoading true guarded.held) ?_
      rw [thenPost_ok, wp_tryFinally, wp_bind]
      have loading := beginLoading_spec guarded absent
      refine wp_readCall loading.inv ?_ ?_
      · intro users₁ store₁ rely₁ inv₁
        obtain ⟨loading₁, _⟩ := loading.of_rely rely₁ inv₁
        -- The load ends in one step once Redis has answered or raised.
        have finish : ∀ users₂ store₂ checkpoint read, Rely task users₁ store₁ users₂ store₂ →
            Inv recoverable users₂ store₂ →
            (checkpoint, read) = (store₂.checkpoint, true) ∨
              ((checkpoint, read) = (none, false) ∧
                (recoverable → store₂.checkpointContent ≤ store₂.savedContent)) →
            cleanupPost (protocol P recoverable evicts edits) allows task
              (modify (DocStore.setLoading false))
              (fun result users store =>
                Guarded recoverable task id users store ∧ Published result store)
              (.ok store₂.nextRef) users₂ (store₂.publish
                (loadedDocument store₁.saved checkpoint read store₂)) ∧
              Guar evicts edits task users₂ store₂ users₂ (store₂.publish
                (loadedDocument store₁.saved checkpoint read store₂)) := by
          intro users₂ store₂ checkpoint read rely₂ inv₂ answer
          obtain ⟨loading₂, saved⟩ := loading₁.of_rely rely₂ inv₂
          have tracks := tracks_loadedDocument store₁.saved checkpoint read saved
            (answer.imp_right And.left)
          have isLoaded : (loadedDocument store₁.saved checkpoint read store₂).Loaded := trivial
          obtain ⟨published, ended, guarded₂⟩ :=
            publishLoaded_spec evicts edits loading₂ isLoaded
              (fun generation checkpointed => by
                simp only [loadedDocument] at checkpointed
                split at checkpointed
                · exact (Option.some.inj checkpointed).ge
                · cases checkpointed)
              tracks (fun possible => by
                rcases answer with answer | ⟨_, covered⟩
                · obtain ⟨rfl, rfl⟩ := Prod.mk.inj answer
                  exact (tracks.merged _ _ _ rfl).2 rfl
                · exact (covered possible).trans tracks.saved_le)
          exact ⟨wp_modify users₂ ended ⟨guarded₂, rfl⟩, published⟩
        rw [thenPost_ok, wp_bind, wp_tryExcept, wp_bind]
        refine wp_readCall inv₁ ?_ ?_
        · intro users₂ store₂ rely₂ inv₂
          obtain ⟨holds, guar⟩ := finish users₂ store₂ store₂.checkpoint true rely₂ inv₂ (.inl rfl)
          simp only [thenPost_ok, wp_pure, handlerPost_ok]
          exact wp_modifyGet users₂ guar holds
        · intro users₂ store₂ event raised allowed rely₂ inv₂
          obtain ⟨holds, guar⟩ := finish users₂ store₂ none false rely₂ inv₂
            (.inr ⟨rfl, fun possible => readable possible store₂ event raised allowed⟩)
          simp only [thenPost_ok, thenPost_error, wp_pure, handlerPost_error]
          exact wp_modifyGet users₂ guar holds
      · intro users₁ store₁ _ _ _ rely₁ inv₁
        obtain ⟨loading₁, _⟩ := loading.of_rely rely₁ inv₁
        exact wp_modify users₁ (guar_setLoading false loading₁.held)
          ⟨abandonLoading_spec loading₁, trivial⟩

theorem loadFromStorage_spec (readable : CheckpointReadable recoverable allows)
    (inv : Inv recoverable users store) (outside : task ∉ users) :
    wp (protocol P recoverable evicts edits) allows task (loadFromStorage task)
      (fun result users store => Inv recoverable users store ∧ task ∉ users ∧
        Published result store) users store :=
  wp_serialized inv outside
    (fun result _ _ published => by cases result <;> exact published)
    fun _ _ _ guarded => loadFromStorageLocked_spec readable guarded

/-! ### `checkpoint_to_redis` -/

/-- A finished checkpoint of the document in memory. -/
def Checkpointed (before : DocStore P) (result : Except Exn Nat) (after : DocStore P) : Prop :=
  ∀ ref, before.docs = some ref → after.docs = some ref ∧
    ∀ size, result = .ok size → (after.live ref).metadata.checkpointedGeneration =
      some (before.live ref).metadata.generation

private theorem checkpointToRedisLocked_spec (guarded : Guarded recoverable task id users store) :
    wp (protocol P recoverable evicts edits) allows task checkpointToRedisLocked
      (fun result users after => Guarded recoverable task id users after ∧
        Checkpointed store result after) users store := by
  unfold checkpointToRedisLocked
  rw [wp_bind, wp_get, thenPost_ok]
  split
  · next absent =>
      refine ⟨guarded, fun ref present => ?_⟩
      rw [absent] at present
      cases present
  · next ref present =>
      have captured := captured_self guarded.inv present
      have bound := guarded.inv.document.checkpointed_le ref present
      have contains : recoverable → store.unloadedAccesses = 0 →
          store.checkpointContent ≤ (store.live ref).doc := fun possible clean =>
        (guarded.inv.recovery possible clean).checkpoint_le ref present
      rw [wp_bind]
      refine wp_writeCall guarded.inv ?_ ?_
      · intro users₁ store₁ rely inv
        have captured₁ := captured.of_rely guarded rely
        obtain ⟨guar₁, guarded₁⟩ := putCheckpoint_spec evicts edits
          (guarded.of_rely rely inv) captured₁ bound contains
        have written : Captured ref (store.live ref) store₁.savedContent (store.live ref).doc
            store.unloadedAccesses (store₁.putCheckpoint (P.getUpdate (store.live ref).doc)) :=
          ⟨captured₁.present, captured₁.evolves, captured₁.checkpointed, rfl,
            content_getUpdate _, captured₁.accesses_le,
            List.forall_mem_cons.mpr ⟨fun _ => (content_getUpdate _).le, captured₁.written⟩⟩
        refine ⟨guar₁, ?_, guarded₁, fun ref' present' => ?_⟩
        · obtain ⟨guar₂, guarded₂⟩ := setCheckpointed_spec evicts edits
            guarded₁ written written.checkpoint
          rw [thenPost_ok, wp_bind]
          refine wp_modify users₁ guar₂ ⟨guarded₂, fun ref' present' => ?_⟩
          obtain rfl := Option.some.inj (present.symm.trans present')
          refine ⟨captured₁.present, fun _ _ => ?_⟩
          rw [setCheckpointed_live, Function.update_self]
        · obtain rfl := Option.some.inj (present.symm.trans present')
          exact ⟨captured₁.present, fun _ result => by cases result⟩
      · intro users₁ store₁ rely inv
        have captured₁ := captured.of_rely guarded rely
        refine ⟨guarded.of_rely rely inv, fun ref' present' => ?_⟩
        obtain rfl := Option.some.inj (present.symm.trans present')
        exact ⟨captured₁.present, fun _ result => by cases result⟩

theorem checkpointToRedis_spec (inv : Inv recoverable users store) (outside : task ∉ users) :
    wp (protocol P recoverable evicts edits) allows task (checkpointToRedis task)
      (fun _ users store => Inv recoverable users store ∧ task ∉ users) users store :=
  wp_serialized_inv inv outside fun _ _ _ guarded =>
    wp_mono (fun _ _ _ holds => holds.1) (checkpointToRedisLocked_spec guarded)

/-! ### `checkpoint_and_remove` -/

/-- A clean document may be dropped by the task that holds the guard. -/
theorem dropDoc_spec (edits : Prop) (mayEvict : evicts) (guarded : Guarded recoverable task id users store)
    {ref : Ref} (present : store.docs = some ref)
    (clean : (store.live ref).metadata.checkpointedGeneration =
      some (store.live ref).metadata.generation) :
    Guar evicts edits task users store users store.dropDoc ∧
      Guarded recoverable task id users store.dropDoc := by
  have inv := guarded.inv
  have dropped := dropDoc_documentInv inv.document present clean
  have held := guarded.held
  simp only [dropDoc, present] at dropped ⊢
  refine ⟨guar_of_holdsGuard held rfl le_rfl (fun _ _ => Evolves.refl _) rfl
    (fun still => absurd mayEvict still) (fun _ _ => rfl) (fun _ => .of_same rfl rfl),
    ⟨⟨⟨inv.guard.retired, inv.guard.counted, inv.guard.owner, fun loading => ?_⟩,
      dropped, ?_, fun possible unaccessed => ⟨(inv.recovery possible unaccessed).stored, ?_⟩,
      inv.writes.of_absent rfl rfl rfl rfl⟩, held, guarded.notLoading⟩⟩
  · have := guarded.notLoading
    simp only at loading
    rw [this] at loading
    cases loading
  · rintro _ _ ⟨⟩
  · rintro _ ⟨⟩

private theorem checkpointAndRemoveLocked_spec (mayEvict : evicts)
    (guarded : Guarded recoverable task id users store) :
    wp (protocol P recoverable evicts edits) allows task checkpointAndRemoveLocked
      (fun _ users after => Guarded recoverable task id users after) users store := by
  unfold checkpointAndRemoveLocked
  rw [wp_bind, wp_get, thenPost_ok]
  split
  · exact guarded
  · next ref present =>
      rw [wp_bind]
      refine wp_mono ?_ (checkpointToRedisLocked_spec guarded)
      rintro (exn | size) users₁ store₁ ⟨guarded₁, checkpointed⟩
      · exact guarded₁
      · obtain ⟨present₁, written⟩ := checkpointed ref present
        rw [thenPost_ok, wp_bind, wp_get, thenPost_ok]
        split
        · exact guarded₁
        · next unchanged =>
            have clean := (written size rfl).trans (congrArg some (not_not.mp unchanged).symm)
            obtain ⟨guar, dropped⟩ := dropDoc_spec edits mayEvict guarded₁ present₁ clean
            rw [wp_bind]
            exact wp_modify users₁ guar dropped

theorem checkpointAndRemove_spec (mayEvict : evicts) (inv : Inv recoverable users store)
    (outside : task ∉ users) :
    wp (protocol P recoverable evicts edits) allows task (checkpointAndRemove task)
      (fun _ users store => Inv recoverable users store ∧ task ∉ users) users store :=
  wp_serialized_inv inv outside fun _ _ _ guarded => checkpointAndRemoveLocked_spec mayEvict guarded

/-! ### `persist_to_db` -/

/-- The end of a save, where PostgreSQL holds what the save has committed. -/
theorem recordSave_spec (evicts edits : Prop) {ref : Ref}
    (guarded : Guarded recoverable task id users store) (present : store.docs = some ref)
    {committed : P.Doc} {savedAt : Nat}
    (saved : store.saved = ⟨some (P.getUpdate committed), some savedAt⟩) :
    Guar evicts edits task users store users
        (store.recordSave ref (P.getUpdate committed) (P.getState committed) savedAt).2 ∧
      Guarded recoverable task id users
        (store.recordSave ref (P.getUpdate committed) (P.getState committed) savedAt).2 := by
  have written : store.savedContent = committed := by
    rw [savedContent, saved, content_getUpdate]
  obtain ⟨guar, guarded'⟩ :=
    setSaved_spec evicts edits guarded present (P.getState committed) savedAt written
  simp only [recordSave, present]
  refine (noteReturn_spec evicts edits guarded' committed ?_).imp_left guar.trans
  exact ⟨saved, rfl, rfl, rfl, by simp⟩

theorem recordSave_savedContent (store : DocStore P) (ref : Ref) (state stateVector : P.Bytes)
    (savedAt : Nat) :
    (store.recordSave ref state stateVector savedAt).2.savedContent = store.savedContent := by
  unfold recordSave
  split <;> rfl

/-- PostgreSQL holds a document once a save has returned. -/
def Stored (bound : P.Doc) (result : Except Exn (DocumentSaveResult P)) (store : DocStore P) : Prop :=
  ∀ saved, result = .ok saved → bound ≤ store.savedContent

/-- The save of the document in memory, from its capture on. -/
theorem persistCaptured_spec {ref : Ref} (guarded : Guarded recoverable task id users store)
    (present : store.docs = some ref) (savedAt : Nat) :
    wp (protocol P recoverable evicts edits) allows task
      (do
        saveExecute
        saveCommit (P.getUpdate (store.live ref).doc) savedAt
        Coroutine.atomic (recordSave ref (P.getUpdate (store.live ref).doc)
          (P.getState (store.live ref).doc) savedAt))
      (fun result users after => Guarded recoverable task id users after ∧
        Stored (store.live ref).doc result after) users store := by
  have captured := captured_self guarded.inv present
  have contains : (store.live ref).Loaded → store.savedContent ≤ (store.live ref).doc :=
    fun loaded => (guarded.inv.document.tracks ref present loaded).saved_le
  rw [wp_bind]
  refine wp_writeCall guarded.inv ?_ fun users₁ store₁ rely₁ inv₁ =>
    ⟨guarded.of_rely rely₁ inv₁, nofun⟩
  intro users₁ store₁ rely₁ inv₁
  have guarded₁ := guarded.of_rely rely₁ inv₁
  have captured₁ := captured.of_rely guarded rely₁
  refine ⟨Guar.refl _ _ _, ?_, guarded₁, nofun⟩
  rw [thenPost_ok, wp_bind]
  refine wp_writeCall inv₁ ?_ fun users₂ store₂ rely₂ inv₂ =>
    ⟨guarded₁.of_rely rely₂ inv₂, nofun⟩
  intro users₂ store₂ rely₂ inv₂
  have captured₂ := captured₁.of_rely guarded₁ rely₂
  obtain ⟨guar₂, saved₂⟩ := putSaved_spec evicts edits (guarded₁.of_rely rely₂ inv₂) captured₂
    savedAt contains
  refine ⟨guar₂, ?_, saved₂, nofun⟩
  obtain ⟨guar₃, saved₃⟩ := recordSave_spec evicts edits saved₂ captured₂.present rfl
  rw [thenPost_ok]
  refine wp_atomic users₂ guar₃ ⟨saved₃, fun _ _ => ?_⟩
  rw [recordSave_savedContent]
  exact (content_getUpdate _).ge

private theorem persistToDbLocked_spec (readable : CheckpointReadable recoverable allows)
    (guarded : Guarded recoverable task id users store) :
    wp (protocol P recoverable evicts edits) allows task persistToDbLocked
      (fun _ users after => Guarded recoverable task id users after) users store := by
  unfold persistToDbLocked
  rw [wp_bind, wp_get, thenPost_ok]
  split
  · next ref present =>
      rw [wp_bind, wp_pure, thenPost_ok, wp_bind, wp_get, thenPost_ok]
      exact wp_mono (fun _ _ _ holds => holds.1) (persistCaptured_spec guarded present _)
  · next absent =>
      rw [wp_bind]
      refine wp_mono ?_ (loadFromStorageLocked_spec readable guarded)
      rintro (exn | ref) users₁ store₁ ⟨guarded₁, published⟩
      · exact guarded₁
      · rw [thenPost_ok, wp_bind, wp_get, thenPost_ok]
        exact wp_mono (fun _ _ _ holds => holds.1) (persistCaptured_spec guarded₁ published _)

theorem persistToDb_spec (readable : CheckpointReadable recoverable allows)
    (inv : Inv recoverable users store) (outside : task ∉ users) :
    wp (protocol P recoverable evicts edits) allows task (persistToDb task)
      (fun _ users store => Inv recoverable users store ∧ task ∉ users) users store :=
  wp_serialized_inv inv outside fun _ _ _ guarded => persistToDbLocked_spec readable guarded

/-- The document in memory contains at least `bound`. -/
def Contains (bound : P.Doc) (store : DocStore P) : Prop :=
  ∃ ref, store.docs = some ref ∧ ref < store.nextRef ∧ bound ≤ (store.live ref).doc

/-- Where the document in memory contains something all the time, PostgreSQL
contains it once a save has returned. -/
theorem persistToDb_stores {bound : P.Doc} (inv : Inv recoverable users store)
    (outside : task ∉ users) :
    wp { protocol P recoverable evicts edits with known := Contains bound } allows task
      (persistToDb task) (fun result users store =>
        Inv recoverable users store ∧ task ∉ users ∧ Stored bound result store) users store := by
  refine wp_serialized_known inv outside (fun _ _ _ stored => stored) ?_
  intro id users₁ store₁ registry contains guarded
  obtain ⟨ref, present, _, grown⟩ := contains
  have current : (withRegistry registry store₁).docs = some ref := present
  unfold persistToDbLocked
  rw [wp_bind, wp_get, thenPost_ok, current, wp_bind, wp_pure, thenPost_ok, wp_bind, wp_get,
    thenPost_ok]
  refine wp_mono ?_ (wp_assuming (fun _ _ => trivial)
    (persistCaptured_spec guarded current (withRegistry registry store₁).clock))
  exact fun result users₂ store₂ holds => ⟨holds.1, fun saved returned =>
    grown.trans (holds.2 saved returned)⟩

end Concord.Collaboration

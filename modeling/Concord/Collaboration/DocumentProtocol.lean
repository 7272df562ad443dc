import Mathlib.Data.Finset.Card
import Mathlib.Tactic.Tauto
import Concord.Asyncio.RelyGuarantee
import Concord.Collaboration.Document

/-!
Contract: the protocol that the tasks of a `DocumentManager` follow.

Owns:
- `Inv`, what holds of the manager and its two stores at every suspension;
- `Rely` and `Guar`, what a task may assume of the others and owes to them;
- `protocol`, the resulting rely/guarantee logic, and its laws.

The ghost state is the set of tasks counted in the users of the current guard.

Does not own: the proof that each method keeps the protocol.
-/

set_option autoImplicit false

namespace Concord.Collaboration

open Asyncio Platform

variable {P : Platform}

/-- The tasks that are counted in the users of the current guard. -/
abbrev GuardUsers := Finset TaskId

def Inside (task : TaskId) (id : GuardId) (users : GuardUsers) (store : DocStore P) : Prop :=
  store.registry.current = some id ∧ task ∈ users

def HoldsGuard (task : TaskId) (id : GuardId) (users : GuardUsers) (store : DocStore P) : Prop :=
  Inside task id users store ∧ (store.registry.guard id).owner = some task

/-- A document that `load_from_storage` published. -/
def LiveDocument.Loaded (live : LiveDocument P) : Prop :=
  match live.origin with
  | .created => False
  | .loaded _ _ _ => True

/-! ### What other tasks may change -/

/-- How a document in memory may change: it grows, and a change of its content
shows in its generation. -/
structure Evolves (before after : LiveDocument P) : Prop where
  origin : after.origin = before.origin
  generation_le : before.metadata.generation ≤ after.metadata.generation
  doc_le : before.doc ≤ after.doc
  unchanged : after.metadata.generation = before.metadata.generation → after.doc = before.doc

theorem Evolves.refl (live : LiveDocument P) : Evolves live live :=
  ⟨rfl, le_rfl, le_rfl, fun _ => rfl⟩

theorem Evolves.trans {first second third : LiveDocument P}
    (earlier : Evolves first second) (later : Evolves second third) : Evolves first third where
  origin := later.origin.trans earlier.origin
  generation_le := earlier.generation_le.trans later.generation_le
  doc_le := earlier.doc_le.trans later.doc_le
  unchanged same := by
    have middle : second.metadata.generation = first.metadata.generation := by
      have := earlier.generation_le
      have := later.generation_le
      omega
    rw [later.unchanged (same.trans middle.symm), earlier.unchanged middle]

/-- What stays as it is while some task holds the guard. -/
structure Frozen (before after : DocStore P) : Prop where
  saved : after.saved.state = before.saved.state
  checkpoint : after.checkpoint = before.checkpoint
  loading : after.loading = before.loading
  docs : before.docs ≠ none ∨ before.loading = true → after.docs = before.docs
  checkpointed : ∀ ref, before.docs = some ref →
    (after.live ref).metadata.checkpointedGeneration =
      (before.live ref).metadata.checkpointedGeneration
  writes : after.writes = before.writes

theorem Frozen.refl (store : DocStore P) : Frozen store store :=
  ⟨rfl, rfl, rfl, fun _ => rfl, fun _ _ => rfl, rfl⟩

theorem Frozen.trans {first second third : DocStore P}
    (earlier : Frozen first second) (later : Frozen second third) : Frozen first third where
  saved := later.saved.trans earlier.saved
  checkpoint := later.checkpoint.trans earlier.checkpoint
  loading := later.loading.trans earlier.loading
  docs fixed := by
    have kept := earlier.docs fixed
    rw [← kept]
    apply later.docs
    rw [kept, earlier.loading]
    exact fixed
  checkpointed ref present := by
    have kept := earlier.docs (.inl (by rw [present]; exact Option.some_ne_none _))
    rw [later.checkpointed ref (kept.trans present), earlier.checkpointed ref present]
  writes := later.writes.trans earlier.writes

/-- PostgreSQL has kept its content, and holds whatever a save has reported since. -/
structure SavedGrows (before after : DocStore P) : Prop where
  saved_le : before.savedContent ≤ after.savedContent
  reported : ∀ saved ∈ after.returned, saved ∈ before.returned ∨
    content saved.saved.state ≤ after.savedContent

theorem SavedGrows.of_same {before after : DocStore P} (saved : after.saved.state = before.saved.state)
    (returned : after.returned = before.returned) : SavedGrows before after where
  saved_le := by rw [DocStore.savedContent, DocStore.savedContent, saved]
  reported saved member := .inl (returned ▸ member)

theorem SavedGrows.trans {first second third : DocStore P}
    (earlier : SavedGrows first second) (later : SavedGrows second third) :
    SavedGrows first third where
  saved_le := earlier.saved_le.trans later.saved_le
  reported saved member := by
    rcases later.reported saved member with before | held
    · exact (earlier.reported saved before).imp_right fun held => held.trans later.saved_le
    · exact .inr held

/-- What `task` may find changed by the other tasks. -/
structure Rely (task : TaskId) (users : GuardUsers) (before : DocStore P)
    (users' : GuardUsers) (after : DocStore P) : Prop where
  nextRef_le : before.nextRef ≤ after.nextRef
  live : ∀ ref, ref < before.nextRef → Evolves (before.live ref) (after.live ref)
  accesses_le : before.unloadedAccesses ≤ after.unloadedAccesses
  saved : after.unloadedAccesses = 0 → SavedGrows before after
  outside : task ∈ users' → task ∈ users
  inside : ∀ id, Inside task id users before → Inside task id users' after
  holds : ∀ id, HoldsGuard task id users before →
    Frozen before after ∧ (after.registry.guard id).owner = some task

theorem Rely.holdsGuard {task : TaskId} {users users' : GuardUsers} {before after : DocStore P}
    (rely : Rely task users before users' after) {id : GuardId}
    (held : HoldsGuard task id users before) : HoldsGuard task id users' after :=
  ⟨rely.inside id held.1, (rely.holds id held).2⟩

theorem Rely.refl (task : TaskId) (users : GuardUsers) (store : DocStore P) :
    Rely task users store users store :=
  ⟨le_rfl, fun _ _ => Evolves.refl _, le_rfl, fun _ => .of_same rfl rfl, id,
    fun _ inside => inside, fun _ held => ⟨Frozen.refl _, held.2⟩⟩

theorem Rely.trans {task : TaskId} {users₁ users₂ users₃ : GuardUsers}
    {first second third : DocStore P}
    (earlier : Rely task users₁ first users₂ second)
    (later : Rely task users₂ second users₃ third) : Rely task users₁ first users₃ third where
  nextRef_le := earlier.nextRef_le.trans later.nextRef_le
  live ref known := (earlier.live ref known).trans
    (later.live ref (lt_of_lt_of_le known earlier.nextRef_le))
  accesses_le := earlier.accesses_le.trans later.accesses_le
  saved clean := (earlier.saved (Nat.le_zero.mp (later.accesses_le.trans clean.le))).trans
    (later.saved clean)
  outside counted := earlier.outside (later.outside counted)
  inside id counted := later.inside id (earlier.inside id counted)
  holds id held := by
    obtain ⟨frozen, owner⟩ := later.holds id (earlier.holdsGuard held)
    exact ⟨(earlier.holds id held).1.trans frozen, owner⟩

/-- What `task` owes to the others. Only a task that `evicts` drops the document,
and only one that `edits` changes its content or calls `get_or_create`. -/
structure Guar (evicts edits : Prop) (task : TaskId) (users : GuardUsers) (before : DocStore P)
    (users' : GuardUsers) (after : DocStore P) : Prop where
  rely : ∀ other, task ≠ other → Rely other users before users' after
  keeps : ¬evicts → ∀ ref, before.docs = some ref → after.docs = some ref
  quiet : ¬edits → after.unloadedAccesses = before.unloadedAccesses ∧
    ∀ ref, ref < before.nextRef → (after.live ref).doc = (before.live ref).doc

/-! ### The invariant -/

/-- How a loaded document relates to what the two stores hold. -/
structure Tracks (saved checkpointed : P.Doc) (live : LiveDocument P) : Prop where
  saved_le : saved ≤ live.doc
  covered : live.metadata.checkpointedGeneration = some live.metadata.generation →
    live.doc ≤ saved ⊔ checkpointed
  hash : ∃ state, live.metadata.savedStateHash = P.stateHash (P.getUpdate state) ∧ state ≤ saved
  merged : ∀ savedThen checkpointThen readable,
    live.origin = .loaded savedThen checkpointThen readable →
      content savedThen ≤ live.doc ∧ (readable = true → content checkpointThen ≤ live.doc)

/-- The session guard: its count, its owner, and who loads. -/
structure GuardInv (users : GuardUsers) (store : DocStore P) : Prop where
  retired : store.registry.current = none → users = ∅
  counted : ∀ id, store.registry.current = some id →
    (store.registry.guard id).users = users.card
  owner : ∀ id task, (store.registry.guard id).owner = some task → Inside task id users store
  loading : store.loading = true → store.docs = none ∧
    ∃ id task, (store.registry.guard id).owner = some task

structure DocumentInv (store : DocStore P) : Prop where
  allocated : ∀ ref, store.docs = some ref → ref < store.nextRef
  checkpointed_le : ∀ ref, store.docs = some ref → ∀ generation,
    (store.live ref).metadata.checkpointedGeneration = some generation →
      generation ≤ (store.live ref).metadata.generation
  tracks : ∀ ref, store.docs = some ref → (store.live ref).Loaded →
    Tracks store.savedContent store.checkpointContent (store.live ref)
  evicted : ∀ eviction ∈ store.evicted, eviction.document.Loaded →
    eviction.document.doc ≤ content eviction.saved ⊔ content eviction.checkpoint

/-- Nothing that was stored is lost, and the document contains the checkpoint. -/
structure RecoveryInv (store : DocStore P) : Prop where
  stored : ∀ state ∈ store.stored, state ≤ store.cover
  checkpoint_le : ∀ ref, store.docs = some ref →
    store.checkpointContent ≤ (store.live ref).doc

/-- What the result of a save says of the bytes that PostgreSQL holds when the
save returns. -/
structure SaveReturn.Describes (saved : SaveReturn P) (committed : P.Doc) : Prop where
  bytes : saved.saved = ⟨some (P.getUpdate committed), some saved.result.savedAt⟩
  size : saved.result.sizeBytes = P.size (P.getUpdate committed)
  stateVector : saved.result.stateVector = P.getState committed
  stateHash : saved.result.stateHash = P.stateHash (P.getUpdate committed)
  dirty : saved.result.dirty = false ↔
    P.stateHash (P.getUpdate saved.document) = P.stateHash (P.getUpdate committed)

/-- Of two writes of one document in memory the later one has all of the earlier. -/
def StorageWrite.Extends (later earlier : StorageWrite P) : Prop :=
  ∀ ref, later.document = some ref → earlier.document = some ref →
    content (some earlier.state) ≤ content (some later.state)

/-- The order of the writes, and the results of the saves. -/
structure WritesInv (store : DocStore P) : Prop where
  ordered : store.writes.Pairwise StorageWrite.Extends
  allocated : ∀ write ∈ store.writes, ∀ ref, write.document = some ref → ref < store.nextRef
  contained : ∀ ref, store.docs = some ref → ∀ write ∈ store.writes, write.document = some ref →
    content (some write.state) ≤ (store.live ref).doc
  returned : ∀ saved ∈ store.returned, ∃ committed, saved.Describes committed

/-- The invariant of the manager. `recoverable` says that a load never misses a
checkpoint that PostgreSQL does not hold. -/
structure Inv (recoverable : Prop) (users : GuardUsers) (store : DocStore P) : Prop where
  guard : GuardInv users store
  document : DocumentInv store
  loaded : store.unloadedAccesses = 0 → ∀ ref, store.docs = some ref → (store.live ref).Loaded
  recovery : recoverable → store.unloadedAccesses = 0 → RecoveryInv store
  writes : WritesInv store

/-- A step without a write keeps what is known of the writes, when the document
in memory is a new one or has grown. -/
theorem WritesInv.of_same {before after : DocStore P} (inv : WritesInv before)
    (writes : after.writes = before.writes) (returned : after.returned = before.returned)
    (nextRef_le : before.nextRef ≤ after.nextRef)
    (docs : ∀ ref, ref < before.nextRef → after.docs = some ref →
      before.docs = some ref ∧ (before.live ref).doc ≤ (after.live ref).doc) :
    WritesInv after where
  ordered := by
    rw [writes]
    exact inv.ordered
  allocated write member ref document := by
    rw [writes] at member
    exact lt_of_lt_of_le (inv.allocated write member ref document) nextRef_le
  contained ref present write member document := by
    rw [writes] at member
    obtain ⟨known, grows⟩ := docs ref (inv.allocated write member ref document) present
    exact (inv.contained ref known write member document).trans grows
  returned := by
    rw [returned]
    exact inv.returned

/-- The document in memory is a new one, of which nothing is written. -/
theorem WritesInv.publish {store : DocStore P} (inv : WritesInv store) (live : LiveDocument P) :
    WritesInv (store.publish live) :=
  inv.of_same rfl rfl (Nat.le_succ _) fun _ known present =>
    absurd (Option.some.inj present) (Nat.ne_of_gt known)

/-- No document is in memory. -/
theorem WritesInv.of_absent {before after : DocStore P} (inv : WritesInv before)
    (writes : after.writes = before.writes) (returned : after.returned = before.returned)
    (nextRef : after.nextRef = before.nextRef) (absent : after.docs = none) : WritesInv after :=
  inv.of_same writes returned nextRef.ge fun _ _ present =>
    absurd (absent.symm.trans present) (Option.some_ne_none _).symm

def protocol (P : Platform) (recoverable evicts edits : Prop) :
    Logic GuardUsers (DocStore P) Call where
  inv := Inv recoverable
  rely := Rely
  guar := Guar evicts edits
  done task users _ := task ∉ users

theorem protocol_lawful (recoverable evicts edits : Prop) :
    (protocol P recoverable evicts edits).Lawful where
  rely_refl := Rely.refl
  rely_trans := Rely.trans
  guar_rely different guar := guar.rely _ different
  parked_stable _ _ := trivial
  done_stable rely outside counted := outside (rely.outside counted)
  fresh_stable rely outside counted := outside (rely.outside counted)

/-- A read of the checkpoint fails only where PostgreSQL holds its content. -/
def CheckpointReadable (recoverable : Prop) (allows : DocStore P → Call → Event P → Prop) : Prop :=
  recoverable → ∀ store event, event ≠ .done → allows store .checkpointGet event →
    store.checkpointContent ≤ store.savedContent

end Concord.Collaboration

import Concord.Collaboration.DocumentSpecs

/-!
Contract: a `DocumentManager` under any interleaving of its methods.

Owns:
- `documentService`, where each task runs one method and the process may crash;
- the invariant of all its runs;
- eviction: a loaded document that leaves memory is held by the two stores.

Does not own: the callers of the manager in the server.
-/

set_option autoImplicit false

namespace Concord.Collaboration

open Asyncio Platform DocStore

variable {P : Platform}

inductive DocumentRequest (P : Platform) where
  | loadFromStorage
  | applyUpdate (update : P.Bytes)
  | restoreTextFromState (state : P.Bytes)
  | encodeStateAsUpdate (stateVector : Option P.Bytes)
  | checkpointToRedis
  | persistToDb
  | checkpointAndRemove
  | removeDoc

def DocumentRequest.run (task : TaskId) : DocumentRequest P → Program P Unit
  | loadFromStorage => do let _ ← Collaboration.loadFromStorage task
  | applyUpdate update => Coroutine.atomic (DocStore.applyUpdate update)
  | restoreTextFromState state => do let _ ← Coroutine.atomic (DocStore.restoreTextFromState state)
  | encodeStateAsUpdate stateVector => do
      let _ ← Coroutine.atomic (DocStore.encodeStateAsUpdate stateVector)
  | checkpointToRedis => do let _ ← Collaboration.checkpointToRedis task
  | persistToDb => do let _ ← Collaboration.persistToDb task
  | checkpointAndRemove => do let _ ← Collaboration.checkpointAndRemove task
  | removeDoc => do let _ ← modifyGet DocStore.removeDoc

namespace DocStore

/-- The manager of a new process, over stores that hold something already. -/
def boot (sessionId : String) (saved : StoredDocument P) (checkpoint : Option P.Bytes)
    (clock : Nat) : DocStore P where
  sessionId := sessionId
  docs := none
  live _ := createdDocument P
  nextRef := 0
  registry := ⟨none, fun _ => ⟨none, 0⟩, 0⟩
  loading := false
  saved := saved
  checkpoint := checkpoint
  clock := clock
  stored := []
  writes := []
  returned := []
  evicted := []
  unloadedAccesses := 0

/-- A crash and a new start: the stores and the history remain. -/
def reboot (store : DocStore P) : DocStore P :=
  { store with docs := none, registry := ⟨none, fun _ => ⟨none, 0⟩, 0⟩, loading := false }

@[simps] def tick (elapsed : Nat) (store : DocStore P) : DocStore P :=
  { store with clock := store.clock + elapsed }

end DocStore

def documentService (P : Platform) :
    Service (DocStore P) (Event P) Call Exn (DocumentRequest P) Nat where
  handler request task := request.run task
  ambient elapsed store := some (store.tick elapsed)
  restart := reboot

def Booted (store : DocStore P) : Prop :=
  ∃ sessionId saved checkpoint clock, store = boot sessionId saved checkpoint clock

theorem inv_boot (recoverable : Prop) (sessionId : String) (saved : StoredDocument P)
    (checkpoint : Option P.Bytes) (clock : Nat) :
    Inv recoverable ∅ (boot sessionId saved checkpoint clock) where
  guard := ⟨fun _ => rfl, nofun, nofun, nofun⟩
  document := ⟨nofun, nofun, nofun, nofun⟩
  loaded := nofun
  recovery := fun _ _ => ⟨nofun, nofun⟩
  writes := ⟨.nil, nofun, nofun, nofun⟩

theorem Inv.reboot {recoverable : Prop} {users : GuardUsers} {store : DocStore P}
    (inv : Inv recoverable users store) : Inv recoverable ∅ store.reboot where
  guard := ⟨fun _ => rfl, nofun, nofun, nofun⟩
  document := ⟨nofun, nofun, nofun, inv.document.evicted⟩
  loaded := nofun
  recovery := fun possible clean => ⟨(inv.recovery possible clean).stored, nofun⟩
  writes := inv.writes.of_absent rfl rfl rfl rfl

theorem Inv.tick {recoverable : Prop} {users : GuardUsers} {store : DocStore P}
    (inv : Inv recoverable users store) (elapsed : Nat) :
    Inv recoverable users (store.tick elapsed) where
  guard := ⟨inv.guard.retired, inv.guard.counted, inv.guard.owner, inv.guard.loading⟩
  document := ⟨inv.document.allocated, inv.document.checkpointed_le, inv.document.tracks,
    inv.document.evicted⟩
  loaded := inv.loaded
  recovery possible clean :=
    ⟨(inv.recovery possible clean).stored, (inv.recovery possible clean).checkpoint_le⟩
  writes := inv.writes.of_same rfl rfl le_rfl fun _ _ present => ⟨present, le_rfl⟩

theorem rely_tick (task : TaskId) (users : GuardUsers) (store : DocStore P) (elapsed : Nat) :
    Rely task users store users (store.tick elapsed) :=
  rely_of_frozen ⟨rfl, rfl, rfl, fun _ => rfl, fun _ _ => rfl, rfl⟩ rfl le_rfl
    (fun _ _ => Evolves.refl _) le_rfl rfl

theorem encodeStateAsUpdate_spec {recoverable evicts edits : Prop} {users : GuardUsers}
    {store : DocStore P} (mayEdit : edits) (inv : Inv recoverable users store)
    (stateVector : Option P.Bytes) :
    SyncStep recoverable evicts edits users store (store.encodeStateAsUpdate stateVector).2 := by
  obtain ⟨created, _⟩ := getOrCreate_spec evicts mayEdit inv
  unfold DocStore.encodeStateAsUpdate
  split
  · next answer =>
      rw [answer] at created
      exact created
  · next answer =>
      rw [answer] at created
      split
      · exact created
      · split <;> exact created

theorem checkpointReadable_false (allows : DocStore P → Call → Event P → Prop) :
    CheckpointReadable False allows := fun impossible => impossible.elim

/-- Every method keeps the protocol. -/
theorem documentRequest_spec {recoverable : Prop} {allows : DocStore P → Call → Event P → Prop}
    (readable : CheckpointReadable recoverable allows) {task : TaskId} {users : GuardUsers}
    {store : DocStore P} (inv : Inv recoverable users store) (outside : task ∉ users)
    (request : DocumentRequest P) :
    wp (protocol P recoverable True True) allows task (request.run task)
      (fun _ users store => Inv recoverable users store ∧ task ∉ users) users store := by
  have sync : ∀ {after}, SyncStep recoverable True True users store after →
      Guar True True task users store users after ∧ Inv recoverable users after ∧ task ∉ users :=
    fun step => ⟨step.guar task, step.inv, outside⟩
  cases request with
  | loadFromStorage =>
      rw [DocumentRequest.run, wp_bind]
      refine wp_mono ?_ (loadFromStorage_spec readable inv outside)
      rintro (_ | _) _ _ ⟨inv, outside, _⟩ <;> exact ⟨inv, outside⟩
  | applyUpdate update =>
      obtain ⟨guar, holds⟩ := sync (applyUpdate_spec trivial inv update)
      exact wp_atomic users guar holds
  | restoreTextFromState state =>
      obtain ⟨guar, holds⟩ := sync (restoreTextFromState_spec trivial inv state)
      rw [DocumentRequest.run, wp_bind]
      refine wp_atomic users guar ?_
      cases (DocStore.restoreTextFromState state store).1 <;> exact holds
  | encodeStateAsUpdate stateVector =>
      obtain ⟨guar, holds⟩ := sync (encodeStateAsUpdate_spec trivial inv stateVector)
      rw [DocumentRequest.run, wp_bind]
      refine wp_atomic users guar ?_
      cases (DocStore.encodeStateAsUpdate stateVector store).1 <;> exact holds
  | checkpointToRedis =>
      rw [DocumentRequest.run, wp_bind]
      refine wp_mono ?_ (checkpointToRedis_spec inv outside)
      rintro (_ | _) _ _ holds <;> exact holds
  | persistToDb =>
      rw [DocumentRequest.run, wp_bind]
      refine wp_mono ?_ (persistToDb_spec readable inv outside)
      rintro (_ | _) _ _ holds <;> exact holds
  | checkpointAndRemove =>
      rw [DocumentRequest.run, wp_bind]
      refine wp_mono ?_ (checkpointAndRemove_spec trivial inv outside)
      rintro (_ | _) _ _ holds <;> exact holds
  | removeDoc =>
      obtain ⟨guar, holds⟩ := sync (removeDoc_spec trivial trivial inv)
      rw [DocumentRequest.run, wp_bind]
      exact wp_modifyGet users guar holds

private theorem documentService_keeps {recoverable : Prop}
    {policy : Policy (DocStore P) (Event P) Call (DocumentRequest P)}
    (readable : ∀ request, CheckpointReadable recoverable (policy request)) :
    Keeps (protocol P recoverable True True) (documentService P) policy Booted where
  start := by
    rintro _ ⟨sessionId, saved, checkpoint, clock, rfl⟩
    exact ⟨∅, inv_boot recoverable sessionId saved checkpoint clock,
      fun task => Finset.notMem_empty task⟩
  request inv _ outside := documentRequest_spec (readable _) inv outside _
  ambient := by
    intro elapsed users store _ taken inv _
    obtain rfl := Option.some.inj taken
    exact ⟨users, inv.tick elapsed, fun task => rely_tick task users store elapsed⟩
  restart inv := ⟨∅, inv.reboot, fun task => Finset.notMem_empty task⟩

/-- The invariant of the manager holds in every run. -/
theorem documentService_inv {recoverable : Prop}
    {policy : Policy (DocStore P) (Event P) Call (DocumentRequest P)}
    (readable : ∀ request, CheckpointReadable recoverable (policy request))
    {pool : Pool (DocStore P) (Event P) Call Exn (DocumentRequest P)}
    (reached : Reachable (documentService P) policy Booted pool) :
    ∃ users, Inv recoverable users pool.state := by
  obtain ⟨users, inv, _⟩ := reached.verified (protocol_lawful recoverable True True)
    (documentService_keeps readable) fun _ => trivial
  exact ⟨users, inv⟩

/-! ### Eviction -/

/-- A loaded document that `checkpoint_and_remove` or `remove_doc` drops from
memory is contained, as it is at that step, in what the two stores hold. -/
theorem evicted_document_is_stored
    {pool : Pool (DocStore P) (Event P) Call Exn (DocumentRequest P)}
    (reached : Reachable (documentService P) anyEvent Booted pool) :
    ∀ eviction ∈ pool.state.evicted, eviction.document.Loaded →
      eviction.document.doc ≤ content eviction.saved ⊔ content eviction.checkpoint := by
  obtain ⟨users, inv⟩ := documentService_inv (fun _ => checkpointReadable_false _) reached
  exact inv.document.evicted

/-- A session is loaded, edited and evicted. -/
def evictionRun : List (Move (Event editLog) (DocumentRequest editLog) Nat) :=
  [.spawn 0 .loadFromStorage, .resume 0 .done, .resume 0 .done, .resume 0 .done,
    .spawn 1 (.applyUpdate (some {2})), .spawn 2 .checkpointAndRemove, .resume 2 .done,
    .resume 2 .done]

def evictionPool : Option (Pool (DocStore editLog) (Event editLog) Call Exn
    (DocumentRequest editLog)) :=
  (documentService editLog).play permitsAll evictionRun (Pool.start (boot "session" ⟨none, none⟩ none 0))

theorem evicted_document_is_stored_run : ∃ pool, evictionPool = some pool ∧
    (pool.state.evicted.map fun eviction => eviction.document.doc) = [{2}] ∧
    ∀ eviction ∈ pool.state.evicted, eviction.document.Loaded ∧
      eviction.document.doc ≤ content eviction.saved ⊔ content eviction.checkpoint := by
  have played : evictionPool.isSome = true := rfl
  have reached : Reachable (documentService editLog) anyEvent Booted (evictionPool.get played) :=
    Service.reachable_of_play (fun _ _ _ _ _ => trivial) (.start ⟨"session", ⟨none, none⟩, none, 0, rfl⟩)
      (Option.some_get played).symm
  refine ⟨evictionPool.get played, (Option.some_get played).symm, rfl, fun eviction member => ?_⟩
  have loaded : eviction.document.Loaded := by
    rcases List.mem_singleton.mp member with rfl
    trivial
  exact ⟨loaded, evicted_document_is_stored reached eviction member loaded⟩

end Concord.Collaboration

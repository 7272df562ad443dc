import Concord.Asyncio.Progress
import Concord.Collaboration.GuardRuns
import Concord.Server.HandlerPass

/-!
Contract: the order in which a task of the server takes the two locks.

Owns:
- `Locks`, who holds the lock of the room and the locks of the session guards;
- the lock protocol: a task that waits for the room holds nothing, one that waits for
  a guard holds no guard, and one that has ended or waits for a message holds nothing;
- that every handler keeps the protocol, and `locks_verified`, what the tasks of any
  run hold.

A guard retires and another one takes its place. A new guard is free because its
number is new, which is the invariant of the registry here.

Does not own: that a lock is given up.
-/

set_option autoImplicit false

namespace Concord.Server

open Asyncio Collaboration ServerState

variable {P : Platform} {α : Type} {task : TaskId} {room : Bool} {held : Option GuardId}
  {allows : ServerState P → Call → Event P → Prop}

/-! ### Who holds what -/

/-- The locks of the room and of the session guards. -/
structure Locks where
  roomLock : Option TaskId
  owner : GuardId → Option TaskId
  current : Option GuardId
  nextGuard : GuardId

/-- The locks of a guard registry beside the lock of the room. -/
def locksOf (roomLock : Option TaskId) (registry : GuardRegistry) : Locks where
  roomLock := roomLock
  owner id := (registry.guard id).owner
  current := registry.current
  nextGuard := registry.nextGuard

def locks (server : ServerState P) : Locks := locksOf server.roomLock server.store.registry

namespace Locks

/-- The registered guard is an old one, and nobody holds a guard to come. -/
structure Sound (locks : Locks) : Prop where
  current : ∀ {id}, locks.current = some id → id < locks.nextGuard
  unused : ∀ {id}, locks.nextGuard ≤ id → locks.owner id = none

/-- What `task` holds stays as it is. -/
structure Frame (task : TaskId) (before after : Locks) : Prop where
  roomLock : after.roomLock = some task ↔ before.roomLock = some task
  owner : ∀ id, after.owner id = some task ↔ before.owner id = some task
  nextGuard_le : before.nextGuard ≤ after.nextGuard

theorem Frame.refl (task : TaskId) (locks : Locks) : Frame task locks locks :=
  ⟨Iff.rfl, fun _ => Iff.rfl, le_rfl⟩

theorem Frame.trans {first second third : Locks} (earlier : Frame task first second)
    (later : Frame task second third) : Frame task first third where
  roomLock := later.roomLock.trans earlier.roomLock
  owner id := (later.owner id).trans (earlier.owner id)
  nextGuard_le := earlier.nextGuard_le.trans later.nextGuard_le

/-- All that `task` holds: the room or not, and a guard or none. -/
structure Holds (task : TaskId) (room : Bool) (held : Option GuardId) (locks : Locks) : Prop where
  roomLock : locks.roomLock = some task ↔ room = true
  owner : ∀ id, locks.owner id = some task ↔ held = some id

theorem Holds.frame {before after : Locks} (holds : Holds task room held before)
    (frame : Frame task before after) : Holds task room held after where
  roomLock := frame.roomLock.trans holds.roomLock
  owner id := (frame.owner id).trans (holds.owner id)

theorem Holds.no_guard {locks : Locks} (holds : Holds task room none locks) (id : GuardId) :
    locks.owner id ≠ some task := by
  intro owned
  cases (holds.owner id).mp owned

theorem Holds.no_room {locks : Locks} (holds : Holds task false held locks) :
    locks.roomLock ≠ some task := by
  intro owned
  cases holds.roomLock.mp owned

/-- What a task that waits at a call may hold. -/
structure May (task : TaskId) (call : Call) (locks : Locks) : Prop where
  nothing : call = .roomLock ∨ call = .receive → Holds task false none locks
  noGuard : call = .sessionGuard → ∀ id, locks.owner id ≠ some task

theorem May.frame {call : Call} {before after : Locks} (may : May task call before)
    (frame : Frame task before after) : May task call after where
  nothing waits := (may.nothing waits).frame frame
  noGuard waits id owned := may.noGuard waits id ((frame.owner id).mp owned)

end Locks

open Locks

/-! ### The protocol -/

def lockProtocol : Logic Unit Locks Call where
  inv _ locks := locks.Sound
  rely task _ before _ after := Frame task before after
  guar task _ before _ after := ∀ other, other ≠ task → Frame other before after
  parked task call _ locks := May task call locks
  done task _ locks := Holds task false none locks

private theorem lockProtocol_lawful : lockProtocol.Lawful where
  rely_refl task _ locks := .refl task locks
  rely_trans := Frame.trans
  guar_rely different guar := guar _ different.symm
  parked_stable frame may := May.frame may frame
  done_stable frame holds := Holds.frame holds frame
  fresh_stable frame holds := Holds.frame holds frame

/-- A task waits at a call outside with whatever it holds. -/
theorem holds_standing :
    Standing lockProtocol Outside task fun _ => Holds task room held where
  idle _ locks _ _ := .refl _ locks
  stable frame _ holds := Holds.frame holds frame
  parked outside _ := by
    refine ⟨fun waits => ?_, fun waits => absurd waits outside.2.1⟩
    rcases waits with waits | waits
    · exact absurd waits outside.1
    · exact absurd waits outside.2.2

/-- A task that holds nothing waits at every call. -/
theorem free_standing :
    Standing lockProtocol (fun _ => True) task fun _ => Holds task false none where
  idle _ locks _ _ := .refl _ locks
  stable frame _ holds := Holds.frame holds frame
  parked _ holds := ⟨fun _ => holds, fun _ => holds.no_guard⟩

abbrev lockLogic (P : Platform) : Logic Unit (ServerState P) Call := lockProtocol.over locks

/-- The registry is sound, and this is what the task holds. -/
abbrev HoldsLocks (task : TaskId) (room : Bool) (held : Option GuardId) :
    Unit → ServerState P → Prop :=
  lockProtocol.Knows locks fun _ => Holds task room held

/-- A program that a task runs with or without the room, and that gives up every lock
it takes. -/
abbrev KeepsLocks (allows : ServerState P → Call → Event P → Prop) (task : TaskId) (room : Bool)
    (program : ServerProgram P α) : Prop :=
  Preserves (lockLogic P) allows task (HoldsLocks task room none) program

/-! ### The session guard -/

section Guard

variable (store : DocStore P) (roomLock : Option TaskId) (id : GuardId)

/-- Entry counts the task in an old guard or in a new one, and nobody gains or loses
a lock. -/
theorem enterGuard_locks {roomLock : Option TaskId}
    (sound : (locksOf roomLock store.registry).Sound) :
    (locksOf roomLock store.enterGuard.2.registry).Sound ∧
      store.enterGuard.1 < store.enterGuard.2.registry.nextGuard ∧
        ∀ other, Frame other (locksOf roomLock store.registry)
          (locksOf roomLock store.enterGuard.2.registry) := by
  cases current : store.registry.current with
  | some id =>
      have old : id < store.registry.nextGuard := sound.current current
      have owner : ∀ other, (store.enterGuard.2.registry.guard other).owner =
          (store.registry.guard other).owner := by
        intro other
        by_cases same : other = id
        · simp [DocStore.enterGuard, current, DocStore.withRegistry, same]
        · simp [DocStore.enterGuard, current, DocStore.withRegistry, same]
      have next : store.enterGuard.2.registry.nextGuard = store.registry.nextGuard := by
        simp [DocStore.enterGuard, current, DocStore.withRegistry]
      have entered : store.enterGuard.1 = id := by
        simp [DocStore.enterGuard, current]
      have still : store.enterGuard.2.registry.current = some id := by
        simp [DocStore.enterGuard, current, DocStore.withRegistry]
      refine ⟨⟨fun {other} now => ?_, fun {other} beyond => ?_⟩, ?_, fun other => ?_⟩
      · obtain rfl := Option.some.inj (still.symm.trans now)
        exact old.trans_eq next.symm
      · have beyond : store.registry.nextGuard ≤ other := next.symm.trans_le beyond
        exact (owner other).trans (sound.unused beyond)
      · rw [entered, next]
        exact old
      · exact ⟨Iff.rfl, fun guard => by simp only [locksOf, owner], next.ge⟩
  | none =>
      have owner : ∀ other, (store.enterGuard.2.registry.guard other).owner =
          (store.registry.guard other).owner := by
        intro other
        by_cases same : other = store.registry.nextGuard
        · have unused : (store.registry.guard other).owner = none := sound.unused same.ge
          rw [unused]
          simp [DocStore.enterGuard, current, DocStore.withRegistry, same]
        · simp [DocStore.enterGuard, current, DocStore.withRegistry, same]
      have next : store.enterGuard.2.registry.nextGuard = store.registry.nextGuard + 1 := by
        simp [DocStore.enterGuard, current, DocStore.withRegistry]
      have entered : store.enterGuard.1 = store.registry.nextGuard := by
        simp [DocStore.enterGuard, current]
      have now : store.enterGuard.2.registry.current = some store.registry.nextGuard := by
        simp [DocStore.enterGuard, current, DocStore.withRegistry]
      refine ⟨⟨fun {other} known => ?_, fun {other} beyond => ?_⟩, ?_, fun other => ?_⟩
      · obtain rfl := Option.some.inj (now.symm.trans known)
        exact (Nat.lt_succ_self _).trans_eq next.symm
      · have beyond : store.registry.nextGuard + 1 ≤ other := next.symm.trans_le beyond
        exact (owner other).trans (sound.unused (Nat.le_of_succ_le beyond))
      · rw [entered, next]
        exact Nat.lt_succ_self _
      · exact ⟨Iff.rfl, fun guard => by simp only [locksOf, owner],
          (Nat.le_succ _).trans_eq next.symm⟩

/-- The registry with another owner of one guard. -/
theorem sound_setOwner {id : GuardId} {owner : Option TaskId} {before after : Locks} (sound : before.Sound)
    (old : id < before.nextGuard) (owners : after.owner = Function.update before.owner id owner)
    (current : after.current = before.current) (next : after.nextGuard = before.nextGuard) :
    after.Sound where
  current {other} known := by
    rw [next]
    exact sound.current (current ▸ known)
  unused {other} beyond := by
    rw [next] at beyond
    have different : other ≠ id := by
      rintro rfl
      exact Nat.not_le_of_lt old beyond
    rw [owners, Function.update_of_ne different]
    exact sound.unused beyond

/-- The lock of a guard passes from nobody to a task, or back. -/
theorem frame_setOwner {id : GuardId} {owner : Option TaskId} {before after : Locks}
    {other : TaskId}
    (roomLock : after.roomLock = before.roomLock)
    (owners : after.owner = Function.update before.owner id owner)
    (next : after.nextGuard = before.nextGuard) (notBefore : before.owner id ≠ some other)
    (notAfter : owner ≠ some other) : Frame other before after where
  roomLock := by rw [roomLock]
  owner guard := by
    rw [owners]
    by_cases same : guard = id
    · subst same
      rw [Function.update_self]
      exact iff_of_false notAfter notBefore
    · rw [Function.update_of_ne same]
  nextGuard_le := next.ge

/-- Acquisition: the guard was free, and belongs to the task. -/
theorem acquireGuard_locks {after : DocStore P}
    (taken : store.acquireGuard id task = some ((), after)) :
    (locksOf roomLock store.registry).owner id = none ∧
      (locksOf roomLock after.registry).owner =
        Function.update (locksOf roomLock store.registry).owner id (some task) ∧
      after.registry.current = store.registry.current ∧
        after.registry.nextGuard = store.registry.nextGuard := by
  unfold DocStore.acquireGuard at taken
  dsimp only at taken
  split at taken
  · cases taken
  · next free =>
      obtain ⟨_, rfl⟩ := Prod.mk.inj (Option.some.inj taken)
      refine ⟨free, funext fun other => ?_, rfl, rfl⟩
      by_cases same : other = id
      · simp [locksOf, DocStore.withRegistry, same]
      · simp [locksOf, DocStore.withRegistry, same]

private theorem releaseGuard_locks :
    (locksOf roomLock (store.releaseGuard id).registry).owner =
      Function.update (locksOf roomLock store.registry).owner id none := by
  funext other
  by_cases same : other = id
  · simp [locksOf, DocStore.releaseGuard, DocStore.withRegistry, same]
  · simp [locksOf, DocStore.releaseGuard, DocStore.withRegistry, same]

/-- Leaving a guard may retire it, and nobody gains or loses a lock. -/
theorem leaveGuard_locks {roomLock : Option TaskId}
    (sound : (locksOf roomLock store.registry).Sound) :
    (locksOf roomLock (store.leaveGuard id).registry).Sound ∧
      ∀ other, Frame other (locksOf roomLock store.registry)
        (locksOf roomLock (store.leaveGuard id).registry) := by
  have owner : ∀ other, ((store.leaveGuard id).registry.guard other).owner =
      (store.registry.guard other).owner := by
    intro other
    by_cases same : other = id
    · simp [DocStore.leaveGuard, DocStore.withRegistry, same]
    · simp [DocStore.leaveGuard, DocStore.withRegistry, same]
  refine ⟨⟨fun {other} known => ?_, fun {other} beyond => ?_⟩, fun other => ?_⟩
  · have kept : (store.leaveGuard id).registry.current = some other := known
    simp only [DocStore.leaveGuard, DocStore.withRegistry] at kept
    split at kept
    · cases kept
    · exact sound.current kept
  · exact (owner other).trans (sound.unused beyond)
  · exact ⟨Iff.rfl, fun guard => by simp only [locksOf, owner], le_rfl⟩

end Guard

/-- What a body of `_serialized` does: it waits for the stores, whose calls are
answered, and leaves the guards alone. -/
def storageWork (P : Platform) : Discipline (DocStore P) (Event P) Call where
  update update := ∀ store, (update store).2.registry = store.registry
  wait call act := (Outside call ∧ ∀ event store b after, act event store = some (b, after) →
    after.registry = store.registry) ∧ ∀ store, ∃ event, (act event store).isSome

/-- A body of `_serialized` keeps what its task holds. -/
theorem body_locks {body : Program P α} (obeys : body.Obeys (storageWork P)) :
    Preserves (lockLogic P) allows task (HoldsLocks task room held) (onManager body) := by
  refine holds_standing.sparing DocStore.registry ?_ (obeys.weaken ?_ ?_)
  · intro store server same
    show locksOf server.roomLock store.registry = locksOf server.roomLock server.store.registry
    rw [same]
  · exact fun _ same => same
  · exact fun _ _ same => same.1

/-- The lock of a guard passes from nobody to its task, or from its task to nobody. -/
theorem setOwner_locks {id : GuardId} {owner : Option TaskId} {server : ServerState P}
    {store : DocStore P} {ghost : Unit} (after : Option GuardId)
    (knows : HoldsLocks task room held ghost server) (old : id < (locks server).nextGuard)
    (owners : (locksOf server.roomLock store.registry).owner =
      Function.update (locks server).owner id owner)
    (current : store.registry.current = server.store.registry.current)
    (next : store.registry.nextGuard = server.store.registry.nextGuard)
    (mine : ∀ other, other ≠ task → (locks server).owner id ≠ some other ∧ owner ≠ some other)
    (holds : ∀ other, Function.update (locks server).owner id owner other = some task ↔
      after = some other) :
    (lockLogic P).guar task ghost server ghost (server.putStore store) ∧
      HoldsLocks task room after ghost (server.putStore store) := by
  refine ⟨fun other different => ?_, sound_setOwner knows.1 old owners current next, ?_, ?_⟩
  · exact frame_setOwner rfl owners next (mine other different).1 (mine other different).2
  · exact knows.2.roomLock
  · intro other
    rw [← holds other, ← owners]
    rfl

/-- A task that waits for a guard takes it where it is free. -/
theorem acquire_locks {id : GuardId} {ghost : Unit} {server : ServerState P} {store : DocStore P}
    (knows : HoldsLocks task room none ghost server) (old : id < (locks server).nextGuard)
    (acquired : server.store.acquireGuard id task = some ((), store)) :
    (lockLogic P).guar task ghost server ghost (server.putStore store) ∧
      HoldsLocks task room (some id) ghost (server.putStore store) := by
  obtain ⟨free, owners, current, next⟩ := acquireGuard_locks _ server.roomLock _ acquired
  refine setOwner_locks (some id) knows old owners current next (fun other different => ?_) ?_
  · refine ⟨fun theirs => ?_, fun equal => different (Option.some.inj equal).symm⟩
    exact nomatch free.symm.trans theirs
  · intro other
    by_cases same : other = id
    · subst same
      simp
    · rw [Function.update_of_ne same]
      refine iff_of_false (knows.2.no_guard other) fun equal => same ?_
      exact (Option.some.inj equal).symm

/-- A task that holds a guard gives it up and leaves it. -/
theorem exit_locks {id : GuardId} {ghost : Unit} {server : ServerState P}
    (knows : HoldsLocks task room (some id) ghost server) :
    (lockLogic P).guar task ghost server ghost
        (server.putStore (server.store.releaseGuard id)) ∧
      HoldsLocks task room none ghost (server.putStore (server.store.releaseGuard id)) := by
  have owned : (locks server).owner id = some task := (knows.2.owner id).mpr rfl
  have old : id < (locks server).nextGuard := by
    by_contra beyond
    exact nomatch (knows.1.unused (Nat.le_of_not_lt beyond)).symm.trans owned
  refine setOwner_locks none knows old (releaseGuard_locks _ _ _) rfl rfl (fun other different => ?_) ?_
  · refine ⟨fun theirs => different ?_, nofun⟩
    exact (Option.some.inj (owned.symm.trans theirs)).symm
  · intro other
    by_cases same : other = id
    · subst same
      simp
    · rw [Function.update_of_ne same, knows.2.owner other]
      refine iff_of_false (fun equal => same ?_) nofun
      exact (Option.some.inj equal).symm

private theorem leave_locks (id : GuardId) {ghost : Unit} {server : ServerState P}
    (knows : HoldsLocks task room none ghost server) :
    (lockLogic P).guar task ghost server ghost (server.putStore (server.store.leaveGuard id)) ∧
      HoldsLocks task room none ghost (server.putStore (server.store.leaveGuard id)) := by
  obtain ⟨sound, frame⟩ := leaveGuard_locks _ id knows.1
  exact ⟨fun other _ => frame other, sound, knows.2.frame (frame task)⟩

/-- A guarded method gives up the guard that it takes. -/
theorem serialized_locks {body : Program P α} (obeys : body.Obeys (storageWork P)) :
    KeepsLocks allows task room (onManager (serialized task body)) := by
  intro ghost server knows
  unfold onManager serialized
  rw [Coroutine.focus_bind, wp_bind]
  obtain ⟨sound, old, frame⟩ := enterGuard_locks server.store knows.1
  refine wp_modifyGet ghost (fun other _ => frame other) ?_
  have entered := knows.2.frame (frame task)
  rw [thenPost_ok, Coroutine.focus_tryFinally, wp_tryFinally, Coroutine.focus_bind, wp_bind]
  refine wp_awaitUntil sound ⟨fun waits => ?_, fun _ => entered.no_guard⟩ ?_
  · rcases waits with waits | waits <;> cases waits
  intro _ server₁ rely sound₁ _ _ server₂ taken
  obtain ⟨⟨_, store⟩, acquired, same⟩ := Option.map_eq_some_iff.mp taken
  obtain ⟨_, rfl⟩ := Prod.mk.inj same
  have waited : HoldsLocks task room none ghost server₁ := ⟨sound₁, entered.frame rely⟩
  obtain ⟨guar, holds⟩ := acquire_locks waited (old.trans_le rely.nextGuard_le) acquired
  refine ⟨ghost, guar, ?_⟩
  rw [thenPost_ok, Coroutine.focus_tryFinally, wp_tryFinally]
  refine wp_mono ?_ (body_locks obeys ghost _ holds)
  intro result ghost server₃ inside
  obtain ⟨guar, released⟩ := exit_locks inside
  refine wp_modify ghost guar ?_
  obtain ⟨guar, left⟩ := leave_locks server.store.enterGuard.1 released
  cases result with
  | ok value => exact wp_modify ghost guar left
  | error exn => exact wp_modify ghost guar left

/-! ### The methods of the manager -/

private theorem readCall_storage {call : Call} (outside : Outside call) (value : DocStore P → α) :
    (readCall call value).Obeys (storageWork P) := by
  refine .awaitCall ⟨⟨outside, fun event store result after taken => ?_⟩, fun store => ?_⟩
  · cases event <;> cases taken <;> rfl
  · exact ⟨.done, rfl⟩

private theorem writeCall_storage {call : Call} (outside : Outside call)
    {effect : DocStore P → DocStore P} (registry : ∀ store, (effect store).registry = store.registry) :
    (writeCall call effect).Obeys (storageWork P) := by
  refine .awaitCall ⟨⟨outside, fun event store result after taken => ?_⟩, fun store => ?_⟩
  · cases event <;> cases taken <;> first | rfl | exact registry store
  · exact ⟨.done, rfl⟩

theorem loadFromStorageLocked_storage : (loadFromStorageLocked (P := P)).Obeys (storageWork P) := by
  refine .bind .get fun store => ?_
  split
  · exact .pure _
  · refine .bind (.modifyGet fun _ => rfl) fun _ => .tryFinally ?_ (.modifyGet fun _ => rfl)
    refine .bind (readCall_storage (by decide) _) fun stored => ?_
    refine .bind (.tryExcept ?_ fun _ => .pure _) fun (checkpoint, readable) => ?_
    · exact .bind (readCall_storage (by decide) _) fun _ => .pure _
    · exact .modifyGet fun _ => rfl

theorem checkpointToRedisLocked_storage :
    (checkpointToRedisLocked (P := P)).Obeys (storageWork P) := by
  refine .bind .get fun store => ?_
  split
  · exact .pure _
  · refine .bind (writeCall_storage (by decide) fun _ => rfl) fun _ => ?_
    exact .bind (.modifyGet fun _ => rfl) fun _ => .pure _

theorem persistToDbLocked_storage : (persistToDbLocked (P := P)).Obeys (storageWork P) := by
  have saved : ∀ ref : Ref, (do
      let store ← get
      let state := P.getUpdate (store.live ref).doc
      let stateVector := P.getState (store.live ref).doc
      let savedAt := store.clock
      saveExecute
      saveCommit state savedAt
      Coroutine.atomic (DocStore.recordSave ref state stateVector savedAt) :
        Program P (DocumentSaveResult P)).Obeys (storageWork P) := by
    intro ref
    refine .bind .get fun store => .bind (writeCall_storage (by decide) fun _ => rfl) fun _ => ?_
    refine .bind (writeCall_storage (by decide) fun _ => rfl) fun _ => ?_
    exact .atomic (recordSave_registry ref _ _ _)
  unfold persistToDbLocked
  refine .bind .get fun store => ?_
  split
  · exact .bind (.pure _) saved
  · exact .bind loadFromStorageLocked_storage saved

theorem checkpointAndRemoveLocked_storage :
    (checkpointAndRemoveLocked (P := P)).Obeys (storageWork P) := by
  refine .bind .get fun store => ?_
  split
  · exact .pure _
  · refine .bind checkpointToRedisLocked_storage fun _ => .bind .get fun store => ?_
    split
    · exact .pure _
    · exact .bind (.modifyGet dropDoc_registry) fun _ => .pure _

/-! ### The lock of the room -/

/-- A task that holds nothing takes the room for a body and gives it up. -/
theorem roomLock_locks {body : ServerProgram P α} (holds : KeepsLocks allows task true body) :
    KeepsLocks allows task false (withRoomLock task body) := by
  intro ghost server knows
  unfold withRoomLock
  rw [wp_bind]
  refine wp_awaitUntil knows.1 ⟨fun _ => knows.2, fun _ => knows.2.no_guard⟩ ?_
  intro ghost₁ server₁ rely sound _ _ server₂ taken
  have waited : Holds task false none (locks server₁) := knows.2.frame rely
  unfold acquireRoomLock at taken
  split at taken
  · cases taken
  next free =>
    obtain ⟨_, rfl⟩ := Prod.mk.inj (Option.some.inj taken)
    have taken : HoldsLocks task true none ghost₁ { server₁ with roomLock := some task } :=
      ⟨⟨sound.current, sound.unused⟩, ⟨iff_of_true rfl rfl, waited.owner⟩⟩
    refine ⟨ghost₁, fun other different => ⟨?_, fun _ => Iff.rfl, le_rfl⟩, ?_⟩
    · refine iff_of_false (fun mine => different (Option.some.inj mine).symm) fun mine => ?_
      exact nomatch free.symm.trans mine
    · rw [thenPost_ok, wp_tryFinally]
      refine wp_mono ?_ (holds ghost₁ _ taken)
      intro result ghost₃ server₃ inside
      have mine : server₃.roomLock = some task := inside.2.roomLock.mpr rfl
      refine wp_modify ghost₃ (fun other different => ⟨?_, fun _ => Iff.rfl, le_rfl⟩) ?_
      · refine iff_of_false nofun fun theirs => different ?_
        exact (Option.some.inj (mine.symm.trans theirs)).symm
      · exact ⟨⟨inside.1.current, inside.1.unused⟩, iff_of_false nofun nofun, inside.2.owner⟩

/-! ### The handlers -/

/-- A synchronous method of the manager is not guarded. -/
theorem keepsGuards_run (method : SyncMethod P) (store : DocStore P) :
    KeepsGuards store (method.run store) := by
  cases method with
  | applyUpdate update => exact keepsGuards_applyUpdate store update
  | restoreTextFromState state => exact keepsGuards_restoreTextFromState store state
  | getStateVector =>
      rw [SyncMethod.run, getStateVector_store]
      exact keepsGuards_getOrCreate store
  | encodeStateAsUpdate stateVector => exact keepsGuards_encodeStateAsUpdate store stateVector

/-- A step of the core takes and leaves no lock. -/
theorem CoreStep.locks {server after : ServerState P} (step : CoreStep (core server) (core after)) :
    locks after = locks server := by
  have locksOf_core : ∀ state : ServerState P,
      Server.locks state = locksOf (core state).roomLock (core state).store.registry := fun _ => rfl
  rw [locksOf_core after, locksOf_core server]
  generalize core server = before at step
  generalize core after = now at step
  cases step with
  | method method =>
      show locksOf before.roomLock (method.run before.store).registry = _
      rw [(keepsGuards_run method before.store).registry]
  | membership session members commits savedAt | snapshot doc small => rfl

/-- With the room or without it, a task keeps its locks over the steps of the core. -/
theorem locks_follow :
    FollowsCore (P := P) lockProtocol locks allows task fun _ => Holds task room none where
  standing := holds_standing
  step step knows := holds_standing.unchanged step.locks knows
  load := serialized_locks loadFromStorageLocked_storage
  checkpoint := serialized_locks checkpointToRedisLocked_storage
  persist := serialized_locks persistToDbLocked_storage
  remove := serialized_locks checkpointAndRemoveLocked_storage

/-- Every handler takes the locks in their order and gives them up. -/
theorem locks_pass :
    HandlerPass (P := P) lockProtocol locks allows task (fun _ => Holds task false none)
      fun _ => Holds task true none where
  through {server after} same := by
    show locksOf (core after).roomLock (core after).store.registry =
      locksOf (core server).roomLock (core server).store.registry
    rw [same]
  waits := free_standing
  outsideLock := locks_follow
  underLock := locks_follow
  locked := roomLock_locks

/-! ### Every run of the server -/

section Runs

variable {policy : ServerPolicy P}

private theorem ambient_locks {change : Ambient P} {server after : ServerState P}
    (taken : server.ambient change = some after) : locks after = locks server := by
  cases change with
  | tick elapsed =>
      obtain rfl := Option.some.inj taken
      rfl
  | edit websocket change =>
      obtain rfl := Option.some.inj taken
      rfl
  | deliver websocket index =>
      obtain ⟨peer, _, rfl⟩ := Option.map_eq_some_iff.mp taken
      rfl

/-- A process that has just started has free locks. -/
theorem unlocked (task : TaskId) :
    (locksOf none ⟨none, fun _ => ⟨none, 0⟩, 0⟩).Sound ∧
      Holds task false none (locksOf none ⟨none, fun _ => ⟨none, 0⟩, 0⟩) :=
  ⟨⟨nofun, fun _ => rfl⟩, ⟨iff_of_false nofun nofun, fun _ => iff_of_false nofun nofun⟩⟩

private theorem locks_keeps : Keeps (lockLogic P) (serverService P) policy Booted where
  start {server} booted := by
    obtain ⟨sessionId, saved, savedAt, checkpoint, clock, database, replicas, rfl⟩ := booted
    exact ⟨(), (unlocked 0).1, fun task => (unlocked task).2⟩
  request {task request ghost server} sound _ fresh := by
    refine wp_mono ?_ (locks_pass.handler request ghost server ⟨sound, fresh⟩)
    exact fun _ _ _ after => after
  ambient {change ghost server after} taken sound _ := by
    have same := ambient_locks taken
    refine ⟨(), ?_, fun task => ?_⟩
    · show (locks after).Sound
      rw [same]
      exact sound
    · show Frame task (locks server) (locks after)
      rw [same]
      exact .refl task _
  restart _ := ⟨(), (unlocked 0).1, fun task => (unlocked task).2⟩

/-- Every task of a run holds what its call allows, and nothing before its start and
after its end. -/
theorem locks_verified {pool : ServerPool P}
    (reached : Reachable (serverService P) policy Booted pool) (task : TaskId) :
    TaskVerified (lockLogic P) policy pool () task := by
  obtain ⟨_, _, verified⟩ :=
    reached.verified (lockProtocol_lawful.over locks) locks_keeps fun _ => trivial
  exact verified task

end Runs

end Concord.Server

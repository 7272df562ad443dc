import Mathlib.Logic.Relation
import Concord.Collaboration.DocumentService

/-!
Contract: `_serialized` as a mutex over guards that retire.

Owns:
- `GuardStep`, the steps of the tasks in `_serialized` and of what happens beside
  them, for any bodies, failures and cancellations;
- mutual exclusion in the bodies of one session, and when a guard is registered.

Does not own: what the bodies do with the document.
-/

set_option autoImplicit false

namespace Concord.Collaboration

open Asyncio Platform DocStore

variable {P : Platform}

/-! ### Tasks in `_serialized` -/

/-- Where a task is in `_serialized`: not in it, at the lock of a guard that it is
counted in, or in the body. -/
inductive GuardPhase where
  | outside
  | waiting (id : GuardId)
  | inside (id : GuardId)
  deriving DecidableEq

def GuardPhase.guard : GuardPhase → Option GuardId
  | outside => none
  | waiting id => some id
  | inside id => some id

/-- The manager for one session, and its tasks. -/
structure GuardTasks (P : Platform) where
  store : DocStore P
  phase : TaskId → GuardPhase

namespace GuardTasks

/-- A task comes to a phase by a step of the manager. -/
def advance (task : TaskId) (phase : GuardPhase) (store : DocStore P) (tasks : GuardTasks P) :
    GuardTasks P :=
  ⟨store, Function.update tasks.phase task phase⟩

def Inside (tasks : GuardTasks P) (task : TaskId) : Prop := ∃ id, tasks.phase task = .inside id

def CountedIn (tasks : GuardTasks P) (id : GuardId) (task : TaskId) : Prop :=
  (tasks.phase task).guard = some id

end GuardTasks

/-- A step that leaves the guards alone and drops no document. -/
structure KeepsGuards (before after : DocStore P) : Prop where
  registry : after.registry = before.registry
  docs : before.docs ≠ none → after.docs ≠ none

/-- One step of a task in `_serialized`, or beside the tasks. A body does anything to
the document; it ends by returning, by an exception or by a cancellation. Beside the
tasks a document is published or changed, and `remove_doc` is called. -/
inductive GuardStep : GuardTasks P → GuardTasks P → Prop where
  | enter {tasks : GuardTasks P} {task : TaskId} (outside : tasks.phase task = .outside) :
      GuardStep tasks
        (tasks.advance task (.waiting tasks.store.enterGuard.1) tasks.store.enterGuard.2)
  | acquire {tasks : GuardTasks P} {task : TaskId} {id : GuardId} {store : DocStore P}
      (waiting : tasks.phase task = .waiting id)
      (acquired : tasks.store.acquireGuard id task = some ((), store)) :
      GuardStep tasks (tasks.advance task (.inside id) store)
  | cancel {tasks : GuardTasks P} {task : TaskId} {id : GuardId}
      (waiting : tasks.phase task = .waiting id) :
      GuardStep tasks (tasks.advance task .outside (tasks.store.leaveGuard id))
  | work {tasks : GuardTasks P} {task : TaskId} {store : DocStore P} (inside : tasks.Inside task)
      (registry : store.registry = tasks.store.registry) :
      GuardStep tasks { tasks with store := store }
  | exit {tasks : GuardTasks P} {task : TaskId} {id : GuardId}
      (inside : tasks.phase task = .inside id) :
      GuardStep tasks (tasks.advance task .outside ((tasks.store.releaseGuard id).leaveGuard id))
  | method {tasks : GuardTasks P} {store : DocStore P} (keeps : KeepsGuards tasks.store store) :
      GuardStep tasks { tasks with store := store }
  | removeDoc {tasks : GuardTasks P} :
      GuardStep tasks { tasks with store := tasks.store.removeDoc.2 }
  | restart {tasks : GuardTasks P} : GuardStep tasks ⟨tasks.store.reboot, fun _ => .outside⟩

/-! ### The registry after a step -/

section Registry

variable (store : DocStore P) (id held : GuardId)

private theorem enterGuard_current :
    store.enterGuard.2.registry.current = some store.enterGuard.1 := by
  cases current : store.registry.current with
  | some id => simp only [enterGuard, current, withRegistry]
  | none => simp only [enterGuard, current, withRegistry]

/-- A registered guard counts the task that enters. -/
theorem enterGuard_of_current (current : store.registry.current = some id) :
    store.enterGuard.1 = id ∧ store.enterGuard.2.registry.guard id =
      ⟨(store.registry.guard id).owner, (store.registry.guard id).users + 1⟩ := by
  simp [enterGuard, current, withRegistry]

/-- A new guard counts only the task that enters. -/
theorem enterGuard_of_retired (retired : store.registry.current = none) :
    store.enterGuard.2.registry.guard store.enterGuard.1 = ⟨none, 1⟩ := by
  simp [enterGuard, retired, withRegistry]

/-- The lock was free, and the task has it. -/
theorem acquireGuard_taken {task : TaskId} {after : DocStore P}
    (acquired : store.acquireGuard id task = some ((), after)) :
    (store.registry.guard id).owner = none ∧ after.docs = store.docs ∧
      after.registry.current = store.registry.current ∧
        after.registry.guard id = ⟨some task, (store.registry.guard id).users⟩ := by
  cases owner : (store.registry.guard id).owner with
  | some holder => simp [acquireGuard, owner] at acquired
  | none =>
      simp only [acquireGuard, owner, Option.some.injEq, Prod.mk.injEq, true_and] at acquired
      subst acquired
      simp [withRegistry]

private theorem leaveGuard_current : (store.leaveGuard id).registry.current =
    if (store.registry.guard id).users - 1 = 0 ∧ store.docs = none ∧
      store.registry.current = some id then none else store.registry.current := rfl

private theorem leaveGuard_guard : (store.leaveGuard id).registry.guard held =
    if held = id then ⟨(store.registry.guard id).owner, (store.registry.guard id).users - 1⟩
    else store.registry.guard held := Function.update_apply _ _ _ _

@[simp] theorem leaveGuard_docs : (store.leaveGuard id).docs = store.docs := rfl

private theorem releaseGuard_guard : (store.releaseGuard id).registry.guard held =
    if held = id then ⟨none, (store.registry.guard id).users⟩ else store.registry.guard held :=
  Function.update_apply _ _ _ _

theorem keepsGuards_publish (live : LiveDocument P) : KeepsGuards store (store.publish live) :=
  ⟨rfl, fun _ => nofun⟩

theorem dropDoc_registry : store.dropDoc.registry = store.registry := by
  unfold DocStore.dropDoc
  split <;> rfl

end Registry

/-! ### The phases after a step -/

namespace GuardTasks

variable {tasks : GuardTasks P} {task : TaskId} {phase : GuardPhase} {store : DocStore P}
  {id : GuardId} {other : TaskId} {members : Finset TaskId}

def Counted (tasks : GuardTasks P) (members : Finset TaskId) : Prop :=
  ∀ task, task ∈ members ↔ (tasks.phase task).guard ≠ none

theorem CountedIn.counted (countedIn : tasks.CountedIn id task) :
    (tasks.phase task).guard ≠ none := by
  rw [countedIn]
  exact Option.some_ne_none id

private theorem phase_advance (tasks : GuardTasks P) (task : TaskId) (phase : GuardPhase)
    (store : DocStore P) (other : TaskId) :
    (tasks.advance task phase store).phase other =
      if other = task then phase else tasks.phase other :=
  Function.update_apply _ _ _ _

private theorem countedIn_advance_self : (tasks.advance task phase store).CountedIn id task ↔
    phase.guard = some id := by
  unfold CountedIn
  rw [phase_advance, if_pos rfl]

private theorem countedIn_advance_of_ne (different : other ≠ task) :
    (tasks.advance task phase store).CountedIn id other ↔ tasks.CountedIn id other := by
  unfold CountedIn
  rw [phase_advance, if_neg different]

/-- A step of a task inside its guard changes nobody's count. -/
theorem guard_advance (same : phase.guard = (tasks.phase task).guard) (other : TaskId) :
    ((tasks.advance task phase store).phase other).guard = (tasks.phase other).guard := by
  rw [phase_advance]
  split
  · next moved => rw [moved, same]
  · rfl

private theorem inside_advance (inside : (tasks.advance task phase store).phase other = .inside id)
    (notInside : ∀ id, phase ≠ .inside id) :
    other ≠ task ∧ tasks.phase other = .inside id := by
  rw [phase_advance] at inside
  split at inside
  · exact absurd inside (notInside id)
  · next different => exact ⟨different, inside⟩

theorem Counted.erase (counted : tasks.Counted members) :
    (tasks.advance task .outside store).Counted (members.erase task) := by
  intro other
  rw [phase_advance, Finset.mem_erase, counted]
  split
  · next same => exact iff_of_false (fun ⟨different, _⟩ => different same) fun never => never rfl
  · next different => exact and_iff_right different

theorem Counted.insert (counted : tasks.Counted members) :
    (tasks.advance task (.waiting id) store).Counted (insert task members) := by
  intro other
  rw [phase_advance, Finset.mem_insert, counted]
  split
  · next same => exact iff_of_true (.inl same) (Option.some_ne_none _)
  · next different => exact or_iff_right different

end GuardTasks

/-! ### The invariant -/

structure GuardTasksInv (tasks : GuardTasks P) : Prop where
  current : ∀ task id, tasks.CountedIn id task → tasks.store.registry.current = some id
  owner : ∀ task id, tasks.phase task = .inside id →
    (tasks.store.registry.guard id).owner = some task
  counted : ∃ members, tasks.Counted members ∧ ∀ id, tasks.store.registry.current = some id →
    (tasks.store.registry.guard id).users = members.card
  registered : ∀ id, tasks.store.registry.current = some id →
    tasks.store.docs ≠ none ∨ ∃ task, tasks.CountedIn id task

namespace GuardTasksInv

open GuardTasks

variable {tasks : GuardTasks P} {task : TaskId} {id : GuardId} {store : DocStore P}

/-- All tasks are counted in the registered guard. -/
theorem countedIn (inv : GuardTasksInv tasks) (registered : tasks.store.registry.current = some id)
    {other : TaskId} (counted : (tasks.phase other).guard ≠ none) : tasks.CountedIn id other := by
  obtain ⟨held, known⟩ := Option.ne_none_iff_exists'.mp counted
  have current := inv.current other held known
  obtain rfl := Option.some.inj (registered.symm.trans current)
  exact known

/-- Without a registered guard no task is counted. -/
theorem outside_of_retired (inv : GuardTasksInv tasks)
    (retired : tasks.store.registry.current = none) (other : TaskId) :
    tasks.phase other = .outside := by
  cases phase : tasks.phase other with
  | outside => rfl
  | waiting id | inside id =>
      have current := inv.current other id (congrArg GuardPhase.guard phase)
      exact nomatch retired.symm.trans current

/-- A step that leaves the guards alone, while a document or a counted task stays. -/
theorem of_registry (inv : GuardTasksInv tasks) (registry : store.registry = tasks.store.registry)
    (kept : ∀ id, tasks.store.registry.current = some id →
      store.docs ≠ none ∨ ∃ task, tasks.CountedIn id task) :
    GuardTasksInv { tasks with store := store } where
  current task id counted := by
    rw [registry]
    exact inv.current task id counted
  owner task id inside := by
    rw [registry]
    exact inv.owner task id inside
  counted := by
    rw [registry]
    exact inv.counted
  registered id current := by
    rw [registry] at current
    exact kept id current

/-- A counted task leaves its guard, which it no longer owns. -/
theorem leave (inv : GuardTasksInv tasks) (mine : tasks.CountedIn id task)
    (current : store.registry.current = tasks.store.registry.current)
    (users : (store.registry.guard id).users = (tasks.store.registry.guard id).users)
    (owner : ∀ other held, other ≠ task → tasks.phase other = .inside held →
      (store.registry.guard held).owner = some other) :
    GuardTasksInv (tasks.advance task .outside (store.leaveGuard id)) := by
  obtain ⟨members, counted, card⟩ := inv.counted
  have held := inv.current task id mine
  have count : (store.registry.guard id).users - 1 = (members.erase task).card := by
    rw [users, card id held, Finset.card_erase_of_mem ((counted task).mpr mine.counted)]
  have left : (store.leaveGuard id).registry.current =
      if (members.erase task).card = 0 ∧ store.docs = none then none else some id := by
    rw [leaveGuard_current, count, current, held]
    simp only [and_true]
  constructor
  · -- Whoever else is counted keeps the guard in the registry.
    intro other held' countedToo
    by_cases same : other = task
    · subst same
      cases countedIn_advance_self.mp countedToo
    rw [countedIn_advance_of_ne same] at countedToo
    have still : other ∈ members.erase task :=
      Finset.mem_erase.mpr ⟨same, (counted other).mpr countedToo.counted⟩
    have known := inv.current other held' countedToo
    change (store.leaveGuard id).registry.current = some held'
    rw [left, if_neg fun ⟨empty, _⟩ => Finset.card_ne_zero_of_mem still empty, ← held, known]
  · intro other held' inside
    obtain ⟨different, inside⟩ := inside_advance inside fun _ => nofun
    have owned := owner other held' different inside
    change ((store.leaveGuard id).registry.guard held').owner = some other
    rw [leaveGuard_guard]
    split
    · next same => exact same ▸ owned
    · exact owned
  · refine ⟨members.erase task, counted.erase, fun held' registered => ?_⟩
    change (store.leaveGuard id).registry.current = some held' at registered
    rw [left] at registered
    split at registered
    · cases registered
    · obtain rfl := Option.some.inj registered
      change ((store.leaveGuard id).registry.guard id).users = _
      rw [leaveGuard_guard, if_pos rfl, ← count]
  · intro held' registered
    change (store.leaveGuard id).registry.current = some held' at registered
    rw [left] at registered
    split at registered
    · cases registered
    next busy =>
      obtain rfl := Option.some.inj registered
      refine or_iff_not_imp_left.mpr fun absent => ?_
      have some : (members.erase task).card ≠ 0 := fun empty => busy ⟨empty, not_not.mp absent⟩
      obtain ⟨other, still⟩ := Finset.card_ne_zero.mp some
      obtain ⟨different, member⟩ := Finset.mem_erase.mp still
      refine ⟨other, (countedIn_advance_of_ne different).mpr ?_⟩
      exact inv.countedIn held ((counted other).mp member)

/-- Entry counts the task in the registered guard, or in a new one, and leaves the
tasks in a body their guard. -/
theorem entered (inv : GuardTasksInv tasks) {members : Finset TaskId}
    (counted : tasks.Counted members)
    (card : ∀ id, tasks.store.registry.current = some id →
      (tasks.store.registry.guard id).users = members.card) :
    (tasks.store.enterGuard.2.registry.guard tasks.store.enterGuard.1).users = members.card + 1 ∧
      ∀ other held, tasks.phase other = .inside held →
        (tasks.store.enterGuard.2.registry.guard held).owner = some other := by
  cases current : tasks.store.registry.current with
  | some id =>
      obtain ⟨same, guard⟩ := enterGuard_of_current tasks.store id current
      rw [same, guard, card id current]
      refine ⟨rfl, fun other held inside => ?_⟩
      have known := inv.current other held (congrArg GuardPhase.guard inside)
      obtain rfl := Option.some.inj (current.symm.trans known)
      rw [guard]
      exact inv.owner other id inside
  | none =>
      have outside := inv.outside_of_retired current
      have empty : members = ∅ := Finset.eq_empty_of_forall_notMem fun other member =>
        (counted other).mp member (congrArg GuardPhase.guard (outside other))
      rw [enterGuard_of_retired tasks.store current, empty]
      exact ⟨rfl, fun other held inside => nomatch (outside other).symm.trans inside⟩

/-- A task is counted in the registered guard, or in a new one. -/
theorem enter (inv : GuardTasksInv tasks) (outside : tasks.phase task = .outside) :
    GuardTasksInv
      (tasks.advance task (.waiting tasks.store.enterGuard.1) tasks.store.enterGuard.2) := by
  obtain ⟨members, counted, card⟩ := inv.counted
  obtain ⟨users, owners⟩ := inv.entered counted card
  have registered := enterGuard_current tasks.store
  have fresh : task ∉ members := fun member =>
    (counted task).mp member (congrArg GuardPhase.guard outside)
  constructor
  · intro other held countedToo
    by_cases same : other = task
    · subst same
      exact registered.trans (countedIn_advance_self.mp countedToo)
    -- A task that was counted before is counted in the same guard.
    rw [countedIn_advance_of_ne same] at countedToo
    have current := inv.current other held countedToo
    rw [← (enterGuard_of_current tasks.store held current).1]
    exact registered
  · intro other held inside
    exact owners other held (inside_advance inside fun _ => nofun).2
  · refine ⟨insert task members, counted.insert, fun held current => ?_⟩
    obtain rfl := Option.some.inj (registered.symm.trans current)
    rw [Finset.card_insert_of_notMem fresh]
    exact users
  · intro held current
    obtain rfl := Option.some.inj (registered.symm.trans current)
    exact .inr ⟨task, countedIn_advance_self.mpr rfl⟩

/-- A waiting task takes the free lock of its guard. -/
theorem acquire (inv : GuardTasksInv tasks) (waiting : tasks.phase task = .waiting id)
    (acquired : tasks.store.acquireGuard id task = some ((), store)) :
    GuardTasksInv (tasks.advance task (.inside id) store) := by
  have mine : tasks.CountedIn id task := congrArg GuardPhase.guard waiting
  have registered := inv.current task id mine
  obtain ⟨free, docs, current, guard⟩ := acquireGuard_taken tasks.store id acquired
  have guards : ∀ other, ((tasks.advance task (.inside id) store).phase other).guard =
      (tasks.phase other).guard := guard_advance mine.symm
  obtain ⟨members, counted, card⟩ := inv.counted
  constructor
  · intro other held countedToo
    exact current.trans (inv.current other held ((guards other).symm.trans countedToo))
  · intro other held inside
    rw [phase_advance] at inside
    change (store.registry.guard held).owner = some other
    split at inside
    · next same =>
        obtain rfl := GuardPhase.inside.inj inside
        rw [guard, same]
    · -- Nobody else is inside the guard while its lock is free.
      have owner := inv.owner other held inside
      have known := inv.current other held (congrArg GuardPhase.guard inside)
      obtain rfl := Option.some.inj (registered.symm.trans known)
      exact nomatch free.symm.trans owner
  · refine ⟨members, fun other => ?_, fun held known => ?_⟩
    · rw [guards, counted]
    · obtain rfl := Option.some.inj (registered.symm.trans (current.symm.trans known))
      change (store.registry.guard id).users = members.card
      rw [guard]
      exact card id registered
  · intro held known
    change store.docs ≠ none ∨ _
    rw [docs]
    exact (inv.registered held (current.symm.trans known)).imp_right fun ⟨other, countedToo⟩ =>
      ⟨other, (guards other).trans countedToo⟩

/-- No task is counted, and no guard is registered. -/
theorem of_retired (outside : ∀ task, tasks.phase task = .outside)
    (retired : tasks.store.registry.current = none) : GuardTasksInv tasks where
  current task id counted := by
    unfold CountedIn at counted
    rw [outside task] at counted
    cases counted
  owner task id inside := nomatch (outside task).symm.trans inside
  counted := by
    refine ⟨∅, fun task => ?_, fun id current => nomatch retired.symm.trans current⟩
    rw [outside task]
    exact iff_of_false (Finset.notMem_empty task) fun never => never rfl
  registered id current := nomatch retired.symm.trans current

/-- `remove_doc` takes a guard out of the registry only when no task is counted. -/
theorem removeDoc (inv : GuardTasksInv tasks) :
    GuardTasksInv { tasks with store := tasks.store.removeDoc.2 } := by
  unfold DocStore.removeDoc
  split
  · exact inv
  dsimp only
  split_ifs with checkpointed busy
  · exact inv
  · exact inv
  · refine of_retired (fun task => ?_) rfl
    have idle := not_not.mp busy
    unfold GuardRegistry.users at idle
    cases current : tasks.store.registry.current with
    | none => exact inv.outside_of_retired current task
    | some id =>
        obtain ⟨members, mem_iff, card⟩ := inv.counted
        rw [current] at idle
        have empty := Finset.card_eq_zero.mp ((card id current).symm.trans idle)
        by_contra moved
        have counted : (tasks.phase task).guard ≠ none := by
          cases phase : tasks.phase task with
          | outside => exact absurd phase moved
          | waiting id | inside id => exact Option.some_ne_none id
        have member := (mem_iff task).mpr counted
        rw [empty] at member
        exact Finset.notMem_empty task member

/-- The owner of the registered guard is the only task in a body. -/
theorem inside_unique (inv : GuardTasksInv tasks) {other : TaskId} (inside : tasks.Inside task)
    (insideToo : tasks.Inside other) : task = other := by
  obtain ⟨id, inside⟩ := inside
  obtain ⟨held, insideToo⟩ := insideToo
  have current := inv.current task id (congrArg GuardPhase.guard inside)
  have currentToo := inv.current other held (congrArg GuardPhase.guard insideToo)
  obtain rfl := Option.some.inj (current.symm.trans currentToo)
  exact Option.some.inj ((inv.owner task id inside).symm.trans (inv.owner other id insideToo))

/-- A registered guard without a document has users. -/
theorem document_or_users (inv : GuardTasksInv tasks)
    (current : tasks.store.registry.current = some id) :
    tasks.store.docs ≠ none ∨
      0 < (tasks.store.registry.guard id).users ∧ ∃ task, tasks.CountedIn id task := by
  refine (inv.registered id current).imp_right fun ⟨task, counted⟩ => ⟨?_, task, counted⟩
  obtain ⟨members, mem_iff, card⟩ := inv.counted
  rw [card id current]
  refine Finset.card_pos.mpr ⟨task, (mem_iff task).mpr ?_⟩
  rw [counted]
  exact Option.some_ne_none id

end GuardTasksInv

theorem GuardStep.inv {tasks next : GuardTasks P} (step : GuardStep tasks next)
    (inv : GuardTasksInv tasks) : GuardTasksInv next := by
  cases step with
  | enter outside => exact inv.enter outside
  | acquire waiting acquired => exact inv.acquire waiting acquired
  | @cancel task id waiting =>
      exact inv.leave (congrArg GuardPhase.guard waiting) rfl rfl
        fun other held _ inside => inv.owner other held inside
  | @work task store inside registry =>
      obtain ⟨id, inside⟩ := inside
      have mine : tasks.CountedIn id task := congrArg GuardPhase.guard inside
      refine inv.of_registry registry fun held current => .inr ⟨task, ?_⟩
      obtain rfl := Option.some.inj ((inv.current task id mine).symm.trans current)
      exact mine
  | @exit task id inside =>
      have mine : tasks.CountedIn id task := congrArg GuardPhase.guard inside
      refine inv.leave mine rfl (by rw [releaseGuard_guard, if_pos rfl]) ?_
      intro other held different insideToo
      have owner := inv.owner other held insideToo
      rw [releaseGuard_guard]
      split
      · -- The lock that is released is this task's own.
        next same =>
          rw [same, inv.owner task id inside] at owner
          exact absurd (Option.some.inj owner).symm different
      · exact owner
  | method keeps =>
      exact inv.of_registry keeps.registry fun id current =>
        (inv.registered id current).imp_left keeps.docs
  | removeDoc => exact inv.removeDoc
  | restart => exact .of_retired (fun _ => rfl) rfl

/-! ### All sessions -/

/-- The sessions take their steps independently: each has its own entries in the
dictionaries of the manager. -/
def ManagerStep (sessions next : String → GuardTasks P) : Prop :=
  ∃ sessionId after, GuardStep (sessions sessionId) after ∧
    next = Function.update sessions sessionId after

/-- A manager that has just started: no task, and no guard. -/
def Idle (sessions : String → GuardTasks P) : Prop :=
  ∀ sessionId, (∀ task, (sessions sessionId).phase task = .outside) ∧
    (sessions sessionId).store.registry.current = none

/-- The states of the manager in all its runs. -/
def ManagerReaches (sessions : String → GuardTasks P) : Prop :=
  ∃ start, Idle start ∧ Relation.ReflTransGen ManagerStep start sessions

theorem ManagerReaches.inv {sessions : String → GuardTasks P} (reaches : ManagerReaches sessions)
    (sessionId : String) : GuardTasksInv (sessions sessionId) := by
  obtain ⟨start, idle, steps⟩ := reaches
  induction steps with
  | refl => exact .of_retired (idle sessionId).1 (idle sessionId).2
  | tail _ step inductionHypothesis =>
      obtain ⟨moved, after, taken, rfl⟩ := step
      rw [Function.update_apply]
      split
      · next same => exact taken.inv (same ▸ inductionHypothesis)
      · exact inductionHypothesis

/-- The states of one session in all runs of the manager. -/
def SessionReaches (sessionId : String) (tasks : GuardTasks P) : Prop :=
  ∃ sessions, ManagerReaches sessions ∧ sessions sessionId = tasks

namespace SessionReaches

variable {sessionId : String} {tasks next : GuardTasks P}

theorem start {store : DocStore P} (retired : store.registry.current = none) :
    SessionReaches sessionId ⟨store, fun _ => .outside⟩ :=
  ⟨fun _ => ⟨store, fun _ => .outside⟩, ⟨_, fun _ => ⟨fun _ => rfl, retired⟩, .refl⟩, rfl⟩

theorem step (reaches : SessionReaches sessionId tasks) (taken : GuardStep tasks next) :
    SessionReaches sessionId next := by
  obtain ⟨sessions, ⟨start, idle, steps⟩, rfl⟩ := reaches
  exact ⟨Function.update sessions sessionId next,
    ⟨start, idle, steps.tail ⟨sessionId, next, taken, rfl⟩⟩, Function.update_self _ _ _⟩

theorem inv (reaches : SessionReaches sessionId tasks) : GuardTasksInv tasks := by
  obtain ⟨sessions, reaches, rfl⟩ := reaches
  exact reaches.inv sessionId

end SessionReaches

/-- **The session guard is a mutex** although guards retire, and a guard is registered
only for a document in memory or a task that is counted in it. -/
theorem session_guard_is_mutex {sessions : String → GuardTasks P} (reaches : ManagerReaches sessions)
    (sessionId : String) :
    (∀ task other, (sessions sessionId).Inside task → (sessions sessionId).Inside other →
      task = other) ∧
    ∀ id, (sessions sessionId).store.registry.current = some id →
      (sessions sessionId).store.docs ≠ none ∨
        0 < ((sessions sessionId).store.registry.guard id).users ∧
          ∃ task, (sessions sessionId).CountedIn id task :=
  ⟨fun _ _ => (reaches.inv sessionId).inside_unique,
    fun _ => (reaches.inv sessionId).document_or_users⟩

/-- A document is dropped while a task waits, so that the guard retires after that
task, and the next task makes another. -/
theorem session_guard_is_mutex_recreated : ∃ sessions : String → GuardTasks editLog,
    ManagerReaches sessions ∧ (sessions "session").Inside 2 ∧
      (sessions "session").store.registry.current = some 1 ∧
        ∀ task, (sessions "session").Inside task → task = 2 := by
  have booted : SessionReaches "session"
      (⟨boot "session" ⟨none, none⟩ none 0, fun _ => .outside⟩ : GuardTasks editLog) := .start rfl
  have first := (booted.step (@GuardStep.enter _ _ 0 rfl)).step (@GuardStep.acquire _ _ 0 0 _ rfl rfl)
  have published := first.step (.method (keepsGuards_publish _ (createdDocument editLog)))
  have waiting := published.step (@GuardStep.enter _ _ 1 rfl)
  have dropped := waiting.step (@GuardStep.work _ _ 0 _ ⟨0, rfl⟩ (dropDoc_registry _))
  have second := (dropped.step (@GuardStep.exit _ _ 0 0 rfl)).step
    (@GuardStep.acquire _ _ 1 0 _ rfl rfl)
  have retired := second.step (@GuardStep.exit _ _ 1 0 rfl)
  obtain ⟨sessions, reaches, same⟩ :=
    (retired.step (@GuardStep.enter _ _ 2 rfl)).step (@GuardStep.acquire _ _ 2 1 _ rfl rfl)
  have inside : (sessions "session").Inside 2 := same ▸ ⟨1, rfl⟩
  exact ⟨sessions, reaches, inside, same ▸ rfl, fun task insideToo =>
    (session_guard_is_mutex reaches "session").1 task 2 insideToo inside⟩

end Concord.Collaboration

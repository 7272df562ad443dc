import Concord.Asyncio.RelyGuarantee
import Concord.Execution.Jobs

/-!
Contract: the protocol of the execution tasks, and the rules of their operations.

Owns:
- `jobProtocol`, with the delivery of the rows where `strict` holds;
- `Meets`, a specification of a coroutine by assertions about the jobs, and its
  rules;
- the specification of each operation that changes the jobs.

An assertion is stable when the others keep it, and lock free when it does not
depend on the row locks. Only what stands before a suspension has to be stable.

Does not own: the specifications of the functions of the API and of the worker.
-/

set_option autoImplicit false

namespace Concord.Execution

open Asyncio ExecState

def Kept (strict : Prop) (jobs : Jobs) : Prop := jobs.Sound ∧ (strict → jobs.Delivered)

def jobProtocol (strict : Prop) : Logic Unit ExecState ExecCall where
  inv _ state := Kept strict (jobs state)
  rely task _ before _ after := Jobs.Relies task (jobs before) (jobs after)
  guar task _ before _ after := ∀ other, other ≠ task → Jobs.Relies other (jobs before) (jobs after)

theorem jobProtocol_lawful (strict : Prop) : (jobProtocol strict).Lawful where
  rely_refl _ _ _ := .refl _ _
  rely_trans one two := one.trans two
  guar_rely different guar := guar _ different.symm
  parked_stable _ _ := trivial
  done_stable _ _ := trivial
  fresh_stable _ _ := trivial

def Stable (task : TaskId) (assertion : Jobs → Prop) : Prop :=
  ∀ ⦃before after⦄, Jobs.Relies task before after → assertion before → assertion after

def LockFree (assertion : Jobs → Prop) : Prop :=
  ∀ ⦃jobs⦄ locks, assertion jobs → assertion { jobs with locks := locks }

/-- A step that a task of the protocol may make. -/
def Keeping (strict : Prop) (task : TaskId) (before after : Jobs) : Prop :=
  Kept strict after ∧ ∀ other, other ≠ task → Jobs.Relies other before after

/-- The end of a coroutine: it returns with one assertion or raises with another. -/
def Ends {α : Type} (returned : α → Jobs → Prop) (raised : Jobs → Prop) :
    Except ExecExn α → Jobs → Prop
  | .ok value => returned value
  | .error _ => raised

/-- From an assertion, a coroutine of `task` ends in one of two. -/
def Meets (strict : Prop) (allows : ExecState → ExecCall → ExecEvent → Prop) (task : TaskId)
    {α : Type} (assertion : Jobs → Prop) (program : ExecProgram α) (returned : α → Jobs → Prop)
    (raised : Jobs → Prop) : Prop :=
  ∀ state, Kept strict (jobs state) → assertion (jobs state) →
    wp (jobProtocol strict) allows task program
      (fun result _ after => Kept strict (jobs after) ∧ Ends returned raised result (jobs after)) ()
      state

variable {strict : Prop} {allows : ExecState → ExecCall → ExecEvent → Prop} {task : TaskId}
  {α β : Type} {assertion raised : Jobs → Prop} {returned : α → Jobs → Prop}

namespace Meets

theorem pure {value : α} (implied : ∀ jobs, assertion jobs → returned value jobs) :
    Meets strict allows task assertion (Pure.pure value : ExecProgram α) returned raised :=
  fun _ kept holds => ⟨kept, implied _ holds⟩

theorem throw {exn : ExecExn}
    (implied : ∀ jobs, Kept strict jobs → assertion jobs → raised jobs) :
    Meets strict allows task assertion (MonadExcept.throw exn : ExecProgram α) returned raised :=
  fun _ kept holds => ⟨kept, implied _ kept holds⟩

/-- A coroutine that starts with a look at the state. -/
theorem get_bind {rest : ExecState → ExecProgram α}
    (later : ∀ state, Meets strict allows task assertion (rest state) returned raised) :
    Meets strict allows task assertion (MonadState.get >>= rest) returned raised := by
  intro state kept holds
  rw [wp_bind]
  exact later state state kept holds

theorem bind {first : ExecProgram α} {rest : α → ExecProgram β} {middle : α → Jobs → Prop}
    {returned : β → Jobs → Prop} (one : Meets strict allows task assertion first middle raised)
    (two : ∀ value, Meets strict allows task (middle value) (rest value) returned raised) :
    Meets strict allows task assertion (first >>= rest) returned raised := by
  intro state kept holds
  rw [wp_bind]
  refine wp_mono ?_ (one state kept holds)
  rintro result _ after ⟨kept, ends⟩
  cases result with
  | ok value => exact two value after kept ends
  | error exn => exact ⟨kept, ends⟩

theorem mono {program : ExecProgram α} {strong : Jobs → Prop} {weak : α → Jobs → Prop}
    {weakRaised : Jobs → Prop} (holds : Meets strict allows task assertion program returned raised)
    (before : ∀ jobs, strong jobs → assertion jobs)
    (after : ∀ value jobs, Kept strict jobs → returned value jobs → weak value jobs)
    (afterRaised : ∀ jobs, raised jobs → weakRaised jobs) :
    Meets strict allows task strong program weak weakRaised := by
  intro state kept start
  refine wp_mono ?_ (holds state kept (before _ start))
  rintro result _ last ⟨kept, ends⟩
  cases result with
  | ok value => exact ⟨kept, after value _ kept ends⟩
  | error exn => exact ⟨kept, afterRaised _ ends⟩

/-- A fact that is not about the jobs. -/
theorem of_fact {fact : Prop} {program : ExecProgram α}
    (later : fact → Meets strict allows task assertion program returned raised) :
    Meets strict allows task (fun jobs => assertion jobs ∧ fact) program returned raised :=
  fun state kept ⟨holds, known⟩ => later known state kept holds

theorem tryExcept {body : ExecProgram α} {handler : ExecExn → ExecProgram α} {caught : Jobs → Prop}
    (one : Meets strict allows task assertion body returned caught)
    (two : ∀ exn, Meets strict allows task caught (handler exn) returned raised) :
    Meets strict allows task assertion (body.tryExcept handler) returned raised := by
  intro state kept holds
  rw [wp_tryExcept]
  refine wp_mono ?_ (one state kept holds)
  rintro result _ after ⟨kept, ends⟩
  cases result with
  | ok value => exact ⟨kept, ends⟩
  | error exn => exact two exn after kept ends

/-- A cleanup that leads from each end of the body to the end of the whole. -/
theorem tryFinally {body : ExecProgram α} {cleanup : ExecProgram Unit} {middle : α → Jobs → Prop}
    {failed : Jobs → Prop} (one : Meets strict allows task assertion body middle failed)
    (two : ∀ value,
      Meets strict allows task (middle value) cleanup (fun _ => returned value) raised)
    (three : Meets strict allows task failed cleanup (fun _ => raised) raised) :
    Meets strict allows task assertion (body.tryFinally cleanup) returned raised := by
  intro state kept holds
  rw [wp_tryFinally]
  refine wp_mono ?_ (one state kept holds)
  rintro result _ after ⟨kept, ends⟩
  cases result with
  | ok value =>
      refine wp_mono ?_ (two value after kept ends)
      rintro cleaned _ last ⟨kept, ends⟩
      cases cleaned <;> exact ⟨kept, ends⟩
  | error exn =>
      refine wp_mono ?_ (three after kept ends)
      rintro cleaned _ last ⟨kept, ends⟩
      cases cleaned <;> exact ⟨kept, ends⟩

theorem modify {update : ExecState → ExecState} {returned : Unit → Jobs → Prop}
    (step : ∀ state, Kept strict (jobs state) → assertion (jobs state) →
      Keeping strict task (jobs state) (jobs (update state)) ∧ returned () (jobs (update state))) :
    Meets strict allows task assertion (MonadStateOf.modifyGet fun state => ((), update state))
      returned raised := by
  intro state kept holds
  obtain ⟨⟨kept, relies⟩, after⟩ := step state kept holds
  exact wp_modifyGet () relies ⟨kept, after⟩

/-- An update that the jobs do not notice. -/
theorem modify_same {update : ExecState → ExecState} (same : ∀ state, jobs (update state) = jobs state) :
    Meets strict allows task assertion (MonadStateOf.modifyGet fun state => ((), update state))
      (fun _ => assertion) raised := by
  refine modify fun state kept holds => ?_
  rw [same]
  exact ⟨⟨kept, fun _ _ => .refl _ _⟩, holds⟩

end Meets

/-! ### Operations -/

private theorem jobs_crash (state : ExecState) :
    jobs (state.crash task) = (jobs state).crash task := by
  unfold ExecState.crash Jobs.crash
  dsimp only
  split
  · next alive =>
      rw [if_pos (show (jobs state).worker = some task from alive)]
      rfl
  · next gone =>
      rw [if_neg (show ¬(jobs state).worker = some task from gone)]
      rfl

theorem Kept.crash {jobs : Jobs} (kept : Kept strict jobs) : Kept strict (jobs.crash task) :=
  ⟨kept.1.crash, fun isStrict => (kept.2 isStrict).crash⟩

/-- An operation that is not cut off by a crash. -/
theorem meets_operation {call : ExecCall}
    {act : ExecEvent → ExecState → Option (Except ExecExn α × ExecState)}
    (stable : Stable task assertion)
    (step : ∀ state event result after, Kept strict (jobs state) → assertion (jobs state) →
      allows state call event → event ≠ .crash → act event state = some (result, after) →
        Keeping strict task (jobs state) (jobs after) ∧ Ends returned raised result (jobs after)) :
    Meets strict allows task assertion (operation task call act) returned raised := by
  intro state kept holds
  refine ⟨kept, trivial, ?_⟩
  rintro _ state₁ rely kept₁ _ event answer after allowed taken
  dsimp only at taken
  split at taken
  · obtain ⟨rfl, rfl⟩ := Prod.mk.inj (Option.some.inj taken)
    have crashed : Kept strict (jobs (state₁.crash task)) := by
      rw [jobs_crash]
      exact kept₁.crash
    refine ⟨(), fun other different => ?_, crashed, trivial, ?_⟩
    · rw [jobs_crash]
      exact Jobs.relies_crash different
    · rintro _ _ _ _ _ _ _ _ _ never
      cases never
  · next notCrash =>
      obtain ⟨⟨result, after⟩, acted, same⟩ := Option.map_eq_some_iff.mp taken
      obtain ⟨rfl, rfl⟩ := Prod.mk.inj same
      obtain ⟨⟨kept₂, relies⟩, ends⟩ :=
        step state₁ event result after kept₁ (stable rely holds) allowed notCrash acted
      refine ⟨(), relies, ?_⟩
      cases result <;> exact ⟨kept₂, ends⟩

/-- An operation that the jobs do not notice. -/
theorem meets_quiet {call : ExecCall}
    {act : ExecEvent → ExecState → Option (Except ExecExn α × ExecState)}
    (stable : Stable task assertion)
    (same : ∀ event state result after, act event state = some (result, after) →
      jobs after = jobs state) :
    Meets strict allows task assertion (operation task call act) (fun _ => assertion) assertion := by
  refine meets_operation stable fun state event result after kept holds _ _ taken => ?_
  rw [same event state result after taken]
  refine ⟨⟨kept, fun _ _ => .refl _ _⟩, ?_⟩
  cases result <;> exact holds

theorem meets_quietDocker {call : ExecCall}
    {effect : ExecState → Option (Except ExecExn α × ExecState)} (stable : Stable task assertion)
    (same : ∀ state result after, effect state = some (result, after) → jobs after = jobs state) :
    Meets strict allows task assertion (dockerCall task call effect) (fun _ => assertion)
      assertion := by
  refine meets_quiet stable fun event state result after taken => ?_
  cases event with
  | done => exact same state result after taken
  | raised text =>
      obtain ⟨_, rfl⟩ := Prod.mk.inj (Option.some.inj taken)
      rfl
  | _ => cases taken

/-- A database or Redis call: it returns with its effect, or raises before or
after it. -/
theorem meets_serverCall {call : ExecCall} {effect : ExecState → Option (α × ExecState)}
    (stable : Stable task assertion)
    (step : ∀ state value after, Kept strict (jobs state) → assertion (jobs state) →
      effect state = some (value, after) →
        Keeping strict task (jobs state) (jobs after) ∧ returned value (jobs after))
    (before : ∀ state event, Kept strict (jobs state) → assertion (jobs state) →
      allows state call event → event ≠ .done → event ≠ .crash → raised (jobs state))
    (after : ∀ state value last event, Kept strict (jobs state) → assertion (jobs state) →
      allows state call event → event ≠ .done → event ≠ .crash → effect state = some (value, last) →
        returned value (jobs last) → raised (jobs last)) :
    Meets strict allows task assertion (serverCall task call effect) returned raised := by
  refine meets_operation stable fun state event result last kept holds allowed notCrash taken => ?_
  split at taken
  · cases taken
  · next value _ effected =>
      obtain ⟨rfl, rfl⟩ := Prod.mk.inj (Option.some.inj taken)
      exact step state value _ kept holds effected
  · obtain ⟨rfl, rfl⟩ := Prod.mk.inj (Option.some.inj taken)
    exact ⟨⟨kept, fun _ _ => .refl _ _⟩, before _ _ kept holds allowed nofun notCrash⟩
  · next value _ effected =>
      obtain ⟨rfl, rfl⟩ := Prod.mk.inj (Option.some.inj taken)
      obtain ⟨keeping, ends⟩ := step state value _ kept holds effected
      exact ⟨keeping, after state value _ _ kept holds allowed nofun notCrash effected ends⟩
  · obtain ⟨rfl, rfl⟩ := Prod.mk.inj (Option.some.inj taken)
    exact ⟨⟨kept, fun _ _ => .refl _ _⟩, before _ _ kept holds allowed nofun notCrash⟩
  · next value _ effected =>
      obtain ⟨rfl, rfl⟩ := Prod.mk.inj (Option.some.inj taken)
      obtain ⟨keeping, ends⟩ := step state value _ kept holds effected
      exact ⟨keeping, after state value _ _ kept holds allowed nofun notCrash effected ends⟩
  · cases taken

theorem meets_quietServer {call : ExecCall} {effect : ExecState → Option (α × ExecState)}
    (stable : Stable task assertion)
    (same : ∀ state value after, effect state = some (value, after) → jobs after = jobs state) :
    Meets strict allows task assertion (serverCall task call effect) (fun _ => assertion)
      assertion := by
  refine meets_serverCall stable ?_ (fun _ _ _ holds _ _ _ => holds) (fun _ _ _ _ _ _ _ _ _ _ => id)
  intro state value after kept holds effected
  rw [same state value after effected]
  exact ⟨⟨kept, fun _ _ => .refl _ _⟩, holds⟩

/-! ### Rows under their lock -/

/-- What a select for an update has found: the row is locked then. -/
def Selected (task : TaskId) (executionId : ExecutionId) (matching : ExecutionRow → Bool) :
    Option ExecutionRow → Jobs → Prop
  | none, jobs => ∀ row, jobs.rows executionId = some row → matching row = false
  | some row, jobs =>
      jobs.locks executionId = some task ∧ jobs.rows executionId = some row ∧ matching row = true

def Locked (task : TaskId) (executionId : ExecutionId) (row : ExecutionRow) (jobs : Jobs) : Prop :=
  jobs.locks executionId = some task ∧ jobs.rows executionId = some row

section Rows

variable {executionId : ExecutionId} {row old : ExecutionRow}

theorem stable_locked (stable : Stable task assertion) :
    Stable task fun jobs => assertion jobs ∧ Locked task executionId row jobs := by
  rintro before after rely ⟨holds, locked, found⟩
  obtain ⟨still, same⟩ := rely.locked executionId locked
  exact ⟨stable rely holds, still, same.trans found⟩

theorem keeping_lock {jobs : Jobs} (kept : Kept strict jobs) (free : jobs.locks executionId = none)
    (found : jobs.rows executionId = some row) :
    Keeping strict task jobs (jobs.lock task executionId) :=
  ⟨⟨kept.1.lock found, fun isStrict => (kept.2 isStrict).of_rows rfl (fun _ => id) rfl⟩,
    fun _ _ => Jobs.relies_lock free⟩

theorem keeping_release {jobs : Jobs} (kept : Kept strict jobs) :
    Keeping strict task jobs (jobs.release task) :=
  ⟨⟨kept.1.release, fun isStrict => (kept.2 isStrict).of_rows rfl (fun _ => id) rfl⟩,
    fun _ different => Jobs.relies_release different⟩

theorem Keeping.trans {first second third : Jobs} (one : Keeping strict task first second)
    (two : Keeping strict task second third) : Keeping strict task first third :=
  ⟨two.1, fun other different => (one.2 other different).trans (two.2 other different)⟩

theorem keeping_write {jobs : Jobs} (kept : Kept strict jobs)
    (locked : Locked task executionId old jobs)
    (step : row.status = old.status ∨ old.status.Accepts row.status)
    (owner : jobs.worker = some task ∨ row.status = .cancelled)
    (held : strict → row.status = .starting ∨ row.status = .running →
      .execution executionId ∈ jobs.processing) :
    Keeping strict task jobs (jobs.write executionId row) := by
  have may : jobs.MayWrite executionId row := ⟨old, locked.2, step⟩
  exact ⟨⟨kept.1.write may, fun isStrict => (kept.2 isStrict).write may (held isStrict)⟩,
    fun _ different => Jobs.relies_write different locked.1 may owner⟩

/-- What a call may raise in an assertion. -/
def Raises (strict : Prop) (allows : ExecState → ExecCall → ExecEvent → Prop) (call : ExecCall)
    (assertion raised : Jobs → Prop) : Prop :=
  ∀ state event, Kept strict (jobs state) → allows state call event → event ≠ .done →
    event ≠ .crash → assertion (jobs state) → raised (jobs state)

/-- A call that changes nothing but the lock of a row. -/
theorem meets_lockCall {call : ExecCall} {effect : ExecState → Option (α × ExecState)}
    (stable : Stable task assertion) (freeRaised : LockFree raised)
    (raises : Raises strict allows call assertion raised)
    (step : ∀ state value after, Kept strict (jobs state) → assertion (jobs state) →
      effect state = some (value, after) →
        (∃ locks, jobs after = { jobs state with locks := locks }) ∧
          Keeping strict task (jobs state) (jobs after) ∧ returned value (jobs after)) :
    Meets strict allows task assertion (serverCall task call effect) returned raised := by
  refine meets_serverCall stable ?_ ?_ ?_
  · exact fun state value after kept holds effected => (step state value after kept holds effected).2
  · exact fun state event kept holds allowed notDone notCrash =>
      raises state event kept allowed notDone notCrash holds
  · intro state value after event kept holds allowed notDone notCrash effected _
    obtain ⟨locks, same⟩ := (step state value after kept holds effected).1
    rw [same]
    exact freeRaised locks (raises state event kept allowed notDone notCrash holds)

theorem meets_select {matching : ExecutionRow → Bool} (stable : Stable task assertion)
    (free : LockFree assertion) (freeRaised : LockFree raised)
    (raises : Raises strict allows .rowLock assertion raised) :
    Meets strict allows task assertion (selectForUpdate task executionId matching)
      (fun found jobs => assertion jobs ∧ Selected task executionId matching found jobs) raised := by
  refine meets_lockCall stable freeRaised raises fun state found after kept holds effected => ?_
  split at effected
  · next nothing =>
      obtain ⟨rfl, rfl⟩ := Prod.mk.inj (Option.some.inj effected)
      refine ⟨⟨_, rfl⟩, ⟨kept, fun _ _ => .refl _ _⟩, holds, fun row found => ?_⟩
      have absent := Option.filter_eq_none_iff.mp nothing row found
      simpa using absent
  · next row present =>
      split at effected
      · next unlocked =>
          obtain ⟨rfl, rfl⟩ := Prod.mk.inj (Option.some.inj effected)
          obtain ⟨found, matches'⟩ := Option.filter_eq_some_iff.mp present
          exact ⟨⟨_, rfl⟩, keeping_lock kept unlocked found, free _ holds,
            Function.update_self _ _ _, found, matches'⟩
      · cases effected

/-- The commit of a locked row, which gives up the lock. -/
theorem meets_commit {written : Jobs → Prop} (stable : Stable task assertion)
    (freeWritten : LockFree written) (freeRaised : LockFree raised)
    (step : row.status = old.status ∨ old.status.Accepts row.status)
    (owner : ∀ jobs, assertion jobs → jobs.worker = some task ∨ row.status = .cancelled)
    (held : strict → ∀ jobs, assertion jobs → row.status = .starting ∨ row.status = .running →
      .execution executionId ∈ jobs.processing)
    (write : ∀ jobs, Kept strict jobs → assertion jobs → jobs.rows executionId = some old →
      written (jobs.write executionId row))
    (raises : Raises strict allows .commit
      (fun jobs => assertion jobs ∧ Locked task executionId old jobs) raised)
    (raisesAfter : Raises strict allows .commit
      (fun jobs => assertion jobs ∧ Locked task executionId old jobs)
      fun jobs => raised (jobs.write executionId row)) :
    Meets strict allows task (fun jobs => assertion jobs ∧ Locked task executionId old jobs)
      (commitRow task executionId row) (fun _ => written) raised := by
  refine meets_operation (stable_locked stable) ?_
  rintro state event result after kept ⟨holds, locked⟩ allowed notCrash taken
  have keeping : Keeping strict task (jobs state)
      (((jobs state).write executionId row).release task) :=
    (keeping_write kept locked step (owner _ holds) fun isStrict => held isStrict _ holds).trans
      (keeping_release (keeping_write kept locked step (owner _ holds)
        fun isStrict => held isStrict _ holds).1)
  split at taken
  · obtain ⟨rfl, rfl⟩ := Prod.mk.inj (Option.some.inj taken)
    exact ⟨keeping, freeWritten _ (write _ kept holds locked.2)⟩
  · obtain ⟨rfl, rfl⟩ := Prod.mk.inj (Option.some.inj taken)
    exact ⟨⟨kept, fun _ _ => .refl _ _⟩, raises state _ kept allowed nofun notCrash ⟨holds, locked⟩⟩
  · obtain ⟨rfl, rfl⟩ := Prod.mk.inj (Option.some.inj taken)
    exact ⟨keeping, freeRaised _ (raisesAfter state _ kept allowed nofun notCrash ⟨holds, locked⟩)⟩
  · cases taken

/-- A refresh raises where the row is gone. -/
theorem meets_refresh (stable : Stable task assertion)
    (raises : Raises strict allows .refresh assertion raised)
    (gone : ∀ jobs, assertion jobs → jobs.rows executionId = none → raised jobs) :
    Meets strict allows task assertion (refresh task executionId) (fun _ => assertion) raised := by
  refine meets_operation stable ?_
  intro state event result after kept holds allowed notCrash taken
  split at taken
  · obtain ⟨rfl, rfl⟩ := Prod.mk.inj (Option.some.inj taken)
    exact ⟨⟨kept, fun _ _ => .refl _ _⟩, holds⟩
  · next nothing =>
      obtain ⟨rfl, rfl⟩ := Prod.mk.inj (Option.some.inj taken)
      exact ⟨⟨kept, fun _ _ => .refl _ _⟩, gone _ holds nothing⟩
  · obtain ⟨rfl, rfl⟩ := Prod.mk.inj (Option.some.inj taken)
    exact ⟨⟨kept, fun _ _ => .refl _ _⟩, raises _ _ kept allowed nofun notCrash holds⟩
  · cases taken

theorem meets_publish {executionId : ExecutionId} (stable : Stable task assertion)
    (raises : Raises strict allows .publish assertion raised) :
    Meets strict allows task assertion (publish task executionId row) (fun _ => assertion)
      raised := by
  have same : ∀ {state : ExecState} {value : Unit} {after : ExecState},
      some ((), { state with published := (executionId, row) :: state.published }) =
        some (value, after) → jobs after = jobs state := by
    rintro state _ _ ⟨⟩
    rfl
  refine meets_serverCall stable ?_ ?_ ?_
  · intro state value after kept holds effected
    rw [same effected]
    exact ⟨⟨kept, fun _ _ => .refl _ _⟩, holds⟩
  · exact fun state event kept holds allowed notDone notCrash =>
      raises state event kept allowed notDone notCrash holds
  · intro state value after event kept holds allowed notDone notCrash effected _
    rw [same effected]
    exact raises state event kept allowed notDone notCrash holds

theorem meets_withSession {body : ExecProgram α} (freeReturned : ∀ value, LockFree (returned value))
    (freeRaised : LockFree raised)
    (holds : Meets strict allows task assertion body returned raised) :
    Meets strict allows task assertion (withSession task body) returned raised :=
  Meets.tryFinally holds
    (fun value => Meets.modify fun _ kept after =>
      ⟨keeping_release kept, freeReturned value _ after⟩)
    (Meets.modify fun _ kept after => ⟨keeping_release kept, freeRaised _ after⟩)

end Rows

end Concord.Execution

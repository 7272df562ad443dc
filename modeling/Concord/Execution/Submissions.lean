import Concord.Asyncio.Views
import Concord.Execution.Service

/-!
Contract: what was submitted is what is stored and what is put into a sandbox.

Owns:
- the submission of a row: its session, its code and its language;
- the protocol under which the submission of an execution never changes and a row that
  is gone never comes back;
- `Yields`, specifications by what a coroutine knows of the submissions, and their rules.

A worker goes on with a row that it has read while the API deletes it. So a file is
traced to a submission and not to a row. What was submitted is a parameter, of which the
protocol assumes that the database inserts nothing else.

Does not own: the functions of the API and of the worker.
-/

set_option autoImplicit false

namespace Concord.Execution

open Asyncio ExecState

structure Submission where
  sessionId : Nat
  code : String
  language : LanguageEnum
  deriving DecidableEq

def ExecutionRow.submission (row : ExecutionRow) : Submission :=
  ⟨row.sessionId, row.code, row.language⟩

/-- The file of a submission in the volume of its sandbox. -/
def Submission.file (submission : Submission) : String × String :=
  ((runtime submission.language).filename, submission.code)

/-- The rows with their locks, and the files that volumes keep. -/
structure Submissions where
  rows : ExecutionId → Option ExecutionRow
  locks : ExecutionId → Option TaskId
  nextExecution : ExecutionId
  volumes : Nat → Option (Option (String × String))

def submissions (state : ExecState) : Submissions :=
  ⟨state.rows, state.locks, state.nextExecution, state.docker.volumes⟩

variable {task : TaskId} {executionId : ExecutionId} {row : ExecutionRow}
  {before middle after : Submissions} {submitted : ExecutionId → Submission → Prop}

/-! ### The protocol -/

namespace Submissions

/-- Every row is of a submission, and every file too. -/
structure Sound (submitted : ExecutionId → Submission → Prop) (stored : Submissions) : Prop where
  fresh : ∀ executionId, stored.nextExecution ≤ executionId → stored.rows executionId = none
  locked : ∀ executionId, stored.rows executionId = none → stored.locks executionId = none
  rows : ∀ executionId row, stored.rows executionId = some row →
    submitted executionId row.submission
  files : ∀ volume file, stored.volumes volume = some (some file) →
    ∃ executionId submission, submitted executionId submission ∧ file = submission.file

/-- The submission of an execution stays, until the row is gone for good. -/
structure Fixed (before after : Submissions) : Prop where
  next_le : before.nextExecution ≤ after.nextExecution
  rows : ∀ executionId row, executionId < before.nextExecution →
    after.rows executionId = some row →
      ∃ earlier, before.rows executionId = some earlier ∧ earlier.submission = row.submission

theorem Fixed.of_same (next : after.nextExecution = before.nextExecution)
    (rows : after.rows = before.rows) : Fixed before after where
  next_le := next.ge
  rows _ row _ found := ⟨row, rows ▸ found, rfl⟩

theorem Fixed.refl (stored : Submissions) : Fixed stored stored := .of_same rfl rfl

theorem Fixed.trans (one : Fixed before middle) (two : Fixed middle after) : Fixed before after where
  next_le := one.next_le.trans two.next_le
  rows executionId row old found := by
    obtain ⟨between, there, same⟩ := two.rows executionId row (old.trans_le one.next_le) found
    obtain ⟨earlier, present, same'⟩ := one.rows executionId between old there
    exact ⟨earlier, present, same'.trans same⟩

/-- The others leave a row alone that the task has locked. -/
structure Relies (task : TaskId) (before after : Submissions) : Prop where
  fixed : Fixed before after
  locked : ∀ executionId, before.locks executionId = some task →
    after.locks executionId = some task ∧ after.rows executionId = before.rows executionId

theorem Relies.refl (task : TaskId) (stored : Submissions) : Relies task stored stored :=
  ⟨.refl stored, fun _ locked => ⟨locked, rfl⟩⟩

theorem Relies.trans (one : Relies task before middle) (two : Relies task middle after) :
    Relies task before after where
  fixed := one.fixed.trans two.fixed
  locked executionId locked := by
    obtain ⟨still, same⟩ := one.locked executionId locked
    obtain ⟨last, same'⟩ := two.locked executionId still
    exact ⟨last, same'.trans same⟩

/-- A step that a task may make. -/
def Keeping (submitted : ExecutionId → Submission → Prop) (task : TaskId)
    (before after : Submissions) : Prop :=
  after.Sound submitted ∧ ∀ other, other ≠ task → Relies other before after

theorem Keeping.refl (sound : before.Sound submitted) : Keeping submitted task before before :=
  ⟨sound, fun _ _ => .refl _ _⟩

theorem Keeping.trans (one : Keeping submitted task before middle)
    (two : Keeping submitted task middle after) : Keeping submitted task before after :=
  ⟨two.1, fun other different => (one.2 other different).trans (two.2 other different)⟩

/-- Volumes come without a file, go, or get the file of a submission. -/
theorem keeping_volumes (sound : before.Sound submitted)
    {volumes : Nat → Option (Option (String × String))}
    (files : ∀ volume file, volumes volume = some (some file) →
      before.volumes volume = some (some file) ∨
        ∃ executionId submission, submitted executionId submission ∧ file = submission.file) :
    Keeping submitted task before { before with volumes := volumes } := by
  refine ⟨⟨sound.fresh, sound.locked, sound.rows, fun volume file found => ?_⟩,
    fun _ _ => ⟨.of_same rfl rfl, fun _ locked => ⟨locked, rfl⟩⟩⟩
  exact (files volume file found).elim (sound.files volume file) id

def lock (task : TaskId) (executionId : ExecutionId) (stored : Submissions) : Submissions :=
  { stored with locks := Function.update stored.locks executionId (some task) }

def release (task : TaskId) (stored : Submissions) : Submissions where
  rows := stored.rows
  locks executionId :=
    if stored.locks executionId = some task then none else stored.locks executionId
  nextExecution := stored.nextExecution
  volumes := stored.volumes

theorem keeping_lock (sound : before.Sound submitted) (free : before.locks executionId = none)
    (present : before.rows executionId = some row) :
    Keeping submitted task before (before.lock task executionId) := by
  refine ⟨⟨sound.fresh, fun another absent => ?_, sound.rows, sound.files⟩, fun other _ =>
    ⟨.of_same rfl rfl, fun another theirs => ⟨?_, rfl⟩⟩⟩
  · refine (Function.update_of_ne ?_ _ _).trans (sound.locked another absent)
    rintro rfl
    exact nomatch absent.symm.trans present
  · refine (Function.update_of_ne ?_ _ _).trans theirs
    rintro rfl
    exact nomatch free.symm.trans theirs

theorem keeping_release (sound : before.Sound submitted) :
    Keeping submitted task before (before.release task) := by
  refine ⟨⟨sound.fresh, fun another absent => ?_, sound.rows, sound.files⟩, fun other different =>
    ⟨.of_same rfl rfl, fun another theirs => ⟨?_, rfl⟩⟩⟩
  · show (if before.locks another = some task then none else before.locks another) = none
    rw [sound.locked another absent]
    rfl
  · show (if before.locks another = some task then none else before.locks another) = some other
    rw [theirs, if_neg]
    exact fun same => different (Option.some.inj same)

def Locked (task : TaskId) (executionId : ExecutionId) (row : ExecutionRow)
    (stored : Submissions) : Prop :=
  stored.locks executionId = some task ∧ stored.rows executionId = some row

/-- The row of an execution is another one, or gone. -/
def setRow (executionId : ExecutionId) (row : Option ExecutionRow) (stored : Submissions) :
    Submissions :=
  { stored with rows := Function.update stored.rows executionId row }

@[simp] theorem setRow_self (executionId : ExecutionId) (row : Option ExecutionRow)
    (stored : Submissions) : (stored.setRow executionId row).rows executionId = row :=
  Function.update_self _ _ _

private theorem setRow_of_ne {another : ExecutionId} (different : another ≠ executionId)
    (row : Option ExecutionRow) (stored : Submissions) :
    (stored.setRow executionId row).rows another = stored.rows another :=
  Function.update_of_ne different _ _

/-- Every row but one is as before. -/
theorem fixed_setRow {written : Option ExecutionRow}
    (same : ∀ found, written = some found → executionId < before.nextExecution →
      ∃ earlier, before.rows executionId = some earlier ∧ earlier.submission = found.submission) :
    Fixed before (before.setRow executionId written) where
  next_le := le_rfl
  rows another found old stored := by
    by_cases here : another = executionId
    · subst here
      exact same found ((setRow_self _ _ _).symm.trans stored) old
    · exact ⟨found, (setRow_of_ne here _ _).symm.trans stored, rfl⟩

/-- The row of a locked execution may be written with the same submission. -/
theorem keeping_write (sound : before.Sound submitted) {old : ExecutionRow}
    (locked : Locked task executionId old before) (same : row.submission = old.submission) :
    Keeping submitted task before (before.setRow executionId (some row)) := by
  obtain ⟨mine, present⟩ := locked
  refine ⟨⟨fun another beyond => ?_, fun another absent => ?_, fun another found stored => ?_,
    sound.files⟩, fun other different => ⟨?_, fun another theirs => ⟨theirs, ?_⟩⟩⟩
  · have other : another ≠ executionId := by
      rintro rfl
      exact nomatch present.symm.trans (sound.fresh another beyond)
    exact (setRow_of_ne other _ _).trans (sound.fresh another beyond)
  · have other : another ≠ executionId := by
      rintro rfl
      exact nomatch (setRow_self _ _ _).symm.trans absent
    exact sound.locked another ((setRow_of_ne other _ _).symm.trans absent)
  · by_cases here : another = executionId
    · subst here
      obtain rfl := Option.some.inj ((setRow_self _ _ _).symm.trans stored)
      rw [same]
      exact sound.rows another old present
    · exact sound.rows another found ((setRow_of_ne here _ _).symm.trans stored)
  · refine fixed_setRow fun found written _ => ?_
    obtain rfl := Option.some.inj written
    exact ⟨old, present, same.symm⟩
  · refine setRow_of_ne ?_ _ _
    rintro rfl
    exact different (Option.some.inj (theirs.symm.trans mine))

/-- A row that nobody has locked may go. -/
theorem keeping_delete (sound : before.Sound submitted)
    (free : before.locks executionId = none) :
    Keeping submitted task before (before.setRow executionId none) := by
  refine ⟨⟨fun another beyond => ?_, fun another absent => ?_, fun another found stored => ?_,
    sound.files⟩, fun other different => ⟨fixed_setRow nofun, fun another theirs => ⟨theirs, ?_⟩⟩⟩
  · by_cases here : another = executionId
    · subst here
      exact setRow_self _ _ _
    · exact (setRow_of_ne here _ _).trans (sound.fresh another beyond)
  · by_cases here : another = executionId
    · exact here ▸ free
    · exact sound.locked another ((setRow_of_ne here _ _).symm.trans absent)
  · have other : another ≠ executionId := by
      rintro rfl
      exact nomatch (setRow_self _ _ _).symm.trans stored
    exact sound.rows another found ((setRow_of_ne other _ _).symm.trans stored)
  · refine setRow_of_ne ?_ _ _
    rintro rfl
    exact nomatch free.symm.trans theirs

def insert (row : ExecutionRow) (stored : Submissions) : Submissions :=
  { stored.setRow stored.nextExecution (some row) with nextExecution := stored.nextExecution + 1 }

/-- A row of a submission may come under the next identifier, which nobody has locked. -/
theorem keeping_insert (sound : before.Sound submitted)
    (submission : submitted before.nextExecution row.submission) :
    Keeping submitted task before (before.insert row) := by
  have absent : before.rows before.nextExecution = none := sound.fresh _ le_rfl
  have free : before.locks before.nextExecution = none := sound.locked _ absent
  have others : ∀ another, another ≠ before.nextExecution →
      (before.insert row).rows another = before.rows another :=
    fun another different => setRow_of_ne different _ _
  have own : (before.insert row).rows before.nextExecution = some row := setRow_self _ _ _
  refine ⟨⟨fun another beyond => ?_, fun another gone => ?_, fun another found stored => ?_,
    sound.files⟩, fun other different => ⟨⟨Nat.le_succ _, fun another found old stored => ?_⟩,
      fun another theirs => ⟨theirs, ?_⟩⟩⟩
  · have later : before.nextExecution < another := beyond
    exact (others another later.ne').trans (sound.fresh another later.le)
  · by_cases here : another = before.nextExecution
    · exact here ▸ free
    · exact sound.locked another ((others another here).symm.trans gone)
  · by_cases here : another = before.nextExecution
    · subst here
      obtain rfl := Option.some.inj (own.symm.trans stored)
      exact submission
    · exact sound.rows another found ((others another here).symm.trans stored)
  · exact ⟨found, (others another old.ne).symm.trans stored, rfl⟩
  · refine others another ?_
    rintro rfl
    exact nomatch free.symm.trans theirs

end Submissions

def submissionProtocol (submitted : ExecutionId → Submission → Prop) :
    Logic Unit Submissions ExecCall where
  inv _ := Submissions.Sound submitted
  rely task _ before _ after := Submissions.Relies task before after
  guar task _ before _ after := ∀ other, other ≠ task → Submissions.Relies other before after

abbrev submissionLogic (submitted : ExecutionId → Submission → Prop) :
    Logic Unit ExecState ExecCall :=
  (submissionProtocol submitted).over submissions

theorem submissionLogic_lawful : (submissionLogic submitted).Lawful where
  rely_refl _ _ _ := .refl _ _
  rely_trans := Submissions.Relies.trans
  guar_rely different guar := guar _ different.symm
  parked_stable _ _ := trivial
  done_stable _ _ := trivial
  fresh_stable _ _ := trivial

/-! ### Specifications -/

namespace Submissions

def Stable (task : TaskId) (fact : Submissions → Prop) : Prop :=
  ∀ ⦃before after⦄, Relies task before after → fact before → fact after

/-- Nothing is known. -/
def Any : Submissions → Prop := fun _ => True

theorem stable_any : Stable task Any := fun _ _ _ _ => trivial

theorem stable_locked : Stable task (Locked task executionId row) := by
  rintro before after rely ⟨mine, present⟩
  obtain ⟨still, same⟩ := rely.locked executionId mine
  exact ⟨still, same.trans present⟩

variable {α β : Type} {allows : ExecState → ExecCall → ExecEvent → Prop}
  {fact : Submissions → Prop} {yields : α → Submissions → Prop}

/-- From a fact, a coroutine keeps the protocol, and what it returns is as `yields`
says. -/
def Yields (submitted : ExecutionId → Submission → Prop)
    (allows : ExecState → ExecCall → ExecEvent → Prop) (task : TaskId)
    (fact : Submissions → Prop) (program : ExecProgram α) (yields : α → Submissions → Prop) : Prop :=
  ∀ state, Sound submitted (submissions state) → fact (submissions state) →
    wp (submissionLogic submitted) allows task program
      (fun result _ after => Sound submitted (submissions after) ∧
        ∀ value, result = .ok value → yields value (submissions after)) () state

/-- A coroutine that keeps the protocol. -/
abbrev Passes (submitted : ExecutionId → Submission → Prop)
    (allows : ExecState → ExecCall → ExecEvent → Prop) (task : TaskId) (program : ExecProgram α) :
    Prop :=
  Yields submitted allows task Any program fun _ => Any

namespace Yields

theorem pure {value : α} (implied : ∀ stored, fact stored → yields value stored) :
    Yields submitted allows task fact (Pure.pure value : ExecProgram α) yields := by
  intro state sound holds
  refine ⟨sound, ?_⟩
  rintro _ ⟨⟩
  exact implied _ holds

theorem throw (exn : ExecExn) :
    Yields submitted allows task fact (MonadExcept.throw exn : ExecProgram α) yields :=
  fun _ sound _ => ⟨sound, nofun⟩

/-- A coroutine that starts with a look at the state. -/
theorem get_bind {rest : ExecState → ExecProgram α}
    (later : ∀ state, Yields submitted allows task fact (rest state) yields) :
    Yields submitted allows task fact (MonadState.get >>= rest) yields := by
  intro state sound holds
  rw [wp_bind]
  exact later state state sound holds

theorem bind {first : ExecProgram α} {rest : α → ExecProgram β} {middle : α → Submissions → Prop}
    {yields : β → Submissions → Prop} (one : Yields submitted allows task fact first middle)
    (two : ∀ value, Yields submitted allows task (middle value) (rest value) yields) :
    Yields submitted allows task fact (first >>= rest) yields := by
  intro state sound holds
  rw [wp_bind]
  refine wp_mono ?_ (one state sound holds)
  rintro result _ after ⟨sound, ends⟩
  cases result with
  | ok value => exact two value after sound (ends value rfl)
  | error exn => exact ⟨sound, nofun⟩

theorem mono {program : ExecProgram α} {strong : Submissions → Prop}
    {weak : α → Submissions → Prop} (holds : Yields submitted allows task fact program yields)
    (before : ∀ stored, strong stored → fact stored)
    (after : ∀ value stored, yields value stored → weak value stored) :
    Yields submitted allows task strong program weak := by
  intro state sound start
  refine wp_mono ?_ (holds state sound (before _ start))
  exact fun result _ last met => ⟨met.1, fun value returned => after value _ (met.2 value returned)⟩

/-- A coroutine that keeps the protocol keeps it whatever is known. -/
theorem of_passes {program : ExecProgram α} (passes : Passes submitted allows task program) :
    Yields submitted allows task fact program fun _ => Any :=
  passes.mono (fun _ _ => trivial) fun _ _ => id

/-- A fact that is not about the state. -/
theorem of_fact {known : Prop} {program : ExecProgram α}
    (later : known → Yields submitted allows task Any program yields) :
    Yields submitted allows task (fun _ => known) program yields :=
  fun state sound holds => later holds state sound trivial

theorem tryExcept {body : ExecProgram α} {handler : ExecExn → ExecProgram α}
    (one : Yields submitted allows task fact body yields)
    (two : ∀ exn, Yields submitted allows task Any (handler exn) yields) :
    Yields submitted allows task fact (body.tryExcept handler) yields := by
  intro state sound holds
  rw [wp_tryExcept]
  refine wp_mono ?_ (one state sound holds)
  rintro result _ after ⟨sound, ends⟩
  cases result with
  | ok value => exact ⟨sound, ends⟩
  | error exn => exact two exn after sound trivial

theorem tryFinally {body : ExecProgram α} {cleanup : ExecProgram Unit}
    {middle : α → Submissions → Prop} (one : Yields submitted allows task fact body middle)
    (two : ∀ value, Yields submitted allows task (middle value) cleanup fun _ => yields value)
    (three : Passes submitted allows task cleanup) :
    Yields submitted allows task fact (body.tryFinally cleanup) yields := by
  intro state sound holds
  rw [wp_tryFinally]
  refine wp_mono ?_ (one state sound holds)
  rintro result _ after ⟨sound, ends⟩
  cases result with
  | ok value =>
      refine wp_mono ?_ (two value after sound (ends value rfl))
      rintro cleaned _ last ⟨sound, ends⟩
      cases cleaned with
      | ok done =>
          refine ⟨sound, ?_⟩
          rintro _ ⟨⟩
          exact ends done rfl
      | error exn => exact ⟨sound, nofun⟩
  | error exn =>
      refine wp_mono ?_ (three after sound trivial)
      rintro cleaned _ last ⟨sound, _⟩
      cases cleaned <;> exact ⟨sound, nofun⟩

theorem modify {update : ExecState → ExecState} {yields : Unit → Submissions → Prop}
    (step : ∀ state, Sound submitted (submissions state) → fact (submissions state) →
      Keeping submitted task (submissions state) (submissions (update state)) ∧
        yields () (submissions (update state))) :
    Yields submitted allows task fact
      (MonadStateOf.modifyGet fun state => ((), update state)) yields := by
  intro state sound holds
  obtain ⟨⟨sound, relies⟩, after⟩ := step state sound holds
  exact wp_modifyGet () relies ⟨sound, fun _ _ => after⟩

/-- An update that the submissions do not notice. -/
theorem modify_same {update : ExecState → ExecState}
    (same : ∀ state, submissions (update state) = submissions state) :
    Yields submitted allows task fact (MonadStateOf.modifyGet fun state => ((), update state))
      fun _ => fact := by
  refine modify fun state sound holds => ?_
  rw [same]
  exact ⟨.refl sound, holds⟩

/-! ### Operations -/

theorem operation {call : ExecCall}
    {act : ExecEvent → ExecState → Option (Except ExecExn α × ExecState)} (stable : Stable task fact)
    (step : ∀ state event result after, Sound submitted (submissions state) →
      fact (submissions state) → allows state call event →
        act event state = some (result, after) →
          Keeping submitted task (submissions state) (submissions after) ∧
            ∀ value, result = .ok value → yields value (submissions after)) :
    Yields submitted allows task fact (Execution.operation task call act) yields := by
  intro state sound holds
  refine ⟨sound, trivial, ?_⟩
  rintro _ state₁ rely sound₁ _ event answer after allowed taken
  dsimp only at taken
  split at taken
  · -- The process dies: its transactions end, and the task is suspended for good.
    obtain ⟨rfl, rfl⟩ := Prod.mk.inj (Option.some.inj taken)
    have crashed : submissions (state₁.crash task) = (submissions state₁).release task := by
      unfold ExecState.crash
      dsimp only
      split <;> rfl
    have release : Keeping submitted task (submissions state₁) ((submissions state₁).release task) :=
      keeping_release sound₁
    obtain ⟨released, relies⟩ := release
    refine ⟨(), ?_, ?_, trivial, ?_⟩
    · intro other different
      show Relies other (submissions state₁) (submissions (state₁.crash task))
      rw [crashed]
      exact relies other different
    · show Sound submitted (submissions (state₁.crash task))
      rw [crashed]
      exact released
    · rintro _ _ _ _ _ _ _ _ _ never
      cases never
  · obtain ⟨⟨result, last⟩, acted, same⟩ := Option.map_eq_some_iff.mp taken
    obtain ⟨rfl, rfl⟩ := Prod.mk.inj same
    obtain ⟨⟨sound₂, relies⟩, ends⟩ :=
      step state₁ event result last sound₁ (stable rely holds) allowed acted
    refine ⟨(), relies, ?_⟩
    cases result with
    | ok value => exact ⟨sound₂, ends⟩
    | error exn => exact ⟨sound₂, nofun⟩

/-- An operation that the submissions do not notice. -/
theorem quiet {call : ExecCall} {act : ExecEvent → ExecState → Option (Except ExecExn α × ExecState)}
    (stable : Stable task fact)
    (same : ∀ event state result after, act event state = some (result, after) →
      submissions after = submissions state) :
    Yields submitted allows task fact (Execution.operation task call act) fun _ => fact := by
  refine operation stable fun state event result after sound holds _ taken => ?_
  rw [same event state result after taken]
  exact ⟨.refl sound, fun _ _ => holds⟩

/-- A call of the Docker client. -/
theorem docker {call : ExecCall} {effect : ExecState → Option (Except ExecExn α × ExecState)}
    (stable : Stable task fact)
    (step : ∀ state result after, Sound submitted (submissions state) →
      fact (submissions state) → effect state = some (result, after) →
        Keeping submitted task (submissions state) (submissions after) ∧
          ∀ value, result = .ok value → yields value (submissions after)) :
    Yields submitted allows task fact (dockerCall task call effect) yields := by
  refine operation stable fun state event result after sound holds _ taken => ?_
  cases event with
  | done => exact step state result after sound holds taken
  | raised text =>
      obtain ⟨rfl, rfl⟩ := Prod.mk.inj (Option.some.inj taken)
      exact ⟨.refl sound, nofun⟩
  | _ => cases taken

theorem quietDocker {call : ExecCall}
    {effect : ExecState → Option (Except ExecExn α × ExecState)} (stable : Stable task fact)
    (same : ∀ state result after, effect state = some (result, after) →
      submissions after = submissions state) :
    Yields submitted allows task fact (dockerCall task call effect) fun _ => fact := by
  refine docker stable fun state result after sound holds taken => ?_
  rw [same state result after taken]
  exact ⟨.refl sound, fun _ _ => holds⟩

/-- A database or Redis call. -/
theorem server {call : ExecCall} {effect : ExecState → Option (α × ExecState)}
    (stable : Stable task fact)
    (step : ∀ state event value after, Sound submitted (submissions state) →
      fact (submissions state) → allows state call event → effect state = some (value, after) →
        Keeping submitted task (submissions state) (submissions after) ∧
          yields value (submissions after)) :
    Yields submitted allows task fact (serverCall task call effect) yields := by
  refine operation stable fun state event result after sound holds allowed taken => ?_
  split at taken
  · cases taken
  · next value _ effected =>
      obtain ⟨rfl, rfl⟩ := Prod.mk.inj (Option.some.inj taken)
      obtain ⟨keeping, ends⟩ := step state _ value _ sound holds allowed effected
      refine ⟨keeping, ?_⟩
      rintro _ ⟨⟩
      exact ends
  · obtain ⟨rfl, rfl⟩ := Prod.mk.inj (Option.some.inj taken)
    exact ⟨.refl sound, nofun⟩
  · next value _ effected =>
      obtain ⟨rfl, rfl⟩ := Prod.mk.inj (Option.some.inj taken)
      exact ⟨(step state _ value _ sound holds allowed effected).1, nofun⟩
  · obtain ⟨rfl, rfl⟩ := Prod.mk.inj (Option.some.inj taken)
    exact ⟨.refl sound, nofun⟩
  · next value _ effected =>
      obtain ⟨rfl, rfl⟩ := Prod.mk.inj (Option.some.inj taken)
      exact ⟨(step state _ value _ sound holds allowed effected).1, nofun⟩
  · cases taken

theorem quietServer {call : ExecCall} {effect : ExecState → Option (α × ExecState)}
    (stable : Stable task fact)
    (same : ∀ state value after, effect state = some (value, after) →
      submissions after = submissions state) :
    Yields submitted allows task fact (serverCall task call effect) fun _ => fact := by
  refine server stable fun state event value after sound holds _ taken => ?_
  rw [same state value after taken]
  exact ⟨.refl sound, holds⟩

end Yields

end Submissions

end Concord.Execution

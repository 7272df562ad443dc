import Concord.Asyncio.Triples
import Concord.Execution.Beside
import Concord.Execution.Cleanup

/-!
Contract: the parts of a job where the services answer.

Owns:
- `Answers`, a specification of a part of a job that does not raise, with an
  assertion before it and one after it;
- the specification of each part of `process` up to the outcome of its sandbox.

An assertion that stands at a suspension has to settle: what happens beside the job
keeps it.

Does not own: the `except` and `finally` blocks of `process`.
-/

set_option autoImplicit false

namespace Concord.Execution

open Asyncio ExecState

variable {α : Type} {task : TaskId} {executionId : ExecutionId}

/-! ### Operations that answer -/

/-- A kill finds the sandbox running. -/
def KillsRunning (moment : ExecMoment) : Prop :=
  moment.call = .kill → ∃ sandbox, moment.state.docker.newest = some sandbox ∧
    sandbox.status = .running

/-- A moment at which a service answers and nothing that does not run is killed. -/
def Answered (moment : ExecMoment) : Prop :=
  (moment.event = .done ∨ moment.call = .streamTask) ∧ KillsRunning moment

/-- A specification of a part of a job that does not raise. -/
abbrev Answers (executionId : ExecutionId) (before : ExecState → Prop) (program : ExecProgram α)
    (after : α → ExecState → Prop) : Prop :=
  Returns (Beside executionId) Answered before program after

/-- What the others do beside a job keeps an assertion. -/
def Settles (executionId : ExecutionId) (assertion : ExecState → Prop) : Prop :=
  ∀ ⦃before after⦄, Beside executionId before after → assertion before → assertion after

section Operations

variable {call : ExecCall} {before : ExecState → Prop} {after : α → ExecState → Prop}

private theorem answers_operation
    {act : ExecEvent → ExecState → Option (Except ExecExn α × ExecState)}
    (settles : Settles executionId before)
    (step : ∀ since event state result final, Answered ⟨call, since, state, event⟩ → before state →
      act event state = some (result, final) → ∃ value, result = .ok value ∧ after value final) :
    Answers executionId before (operation task call act) after := by
  intro start trace result final holds runs moments
  obtain ⟨state, event, rfl, beside, taken⟩ := runs_operation runs
  exact step start event state result final (moments _ List.mem_cons_self) (settles beside holds) taken

private theorem answers_dockerCall {effect : ExecState → Option (Except ExecExn α × ExecState)}
    (other : call ≠ .streamTask) (settles : Settles executionId before)
    (step : ∀ since state result final, KillsRunning ⟨call, since, state, .done⟩ → before state →
      effect state = some (result, final) → ∃ value, result = .ok value ∧ after value final) :
    Answers executionId before (dockerCall task call effect) after := by
  refine answers_operation settles ?_
  rintro since event state result final ⟨rfl | waits, kills⟩ holds taken
  · exact step since state result final kills holds taken
  · exact absurd waits other

private theorem answers_serverCall {effect : ExecState → Option (α × ExecState)}
    (other : call ≠ .streamTask) (settles : Settles executionId before)
    (step : ∀ state value final, before state → effect state = some (value, final) →
      after value final) : Answers executionId before (serverCall task call effect) after := by
  refine answers_operation settles ?_
  rintro since event state result final ⟨rfl | waits, kills⟩ holds taken
  · cases effected : effect state with
    | none =>
        rw [effected] at taken
        cases taken
    | some reached =>
        rw [effected] at taken
        obtain ⟨rfl, rfl⟩ := Prod.mk.inj (Option.some.inj taken)
        exact ⟨reached.1, rfl, step _ _ _ holds effected⟩
  · exact absurd waits other

end Operations

/-! ### Assertions -/

/-- The row of the execution is there, as it should be. -/
def RowIs (executionId : ExecutionId) (expected : ExecutionRow → Prop) (state : ExecState) : Prop :=
  ∃ row, state.rows executionId = some row ∧ expected row

def SandboxIs (container : Nat) (expected : Container → Prop) (state : ExecState) : Prop :=
  (∃ earlier, state.docker.created = .container container :: earlier) ∧
    ∃ sandbox, state.docker.containers container = some sandbox ∧ expected sandbox

/-- The stream of the sandbox does not fail. -/
def Streams (state : ExecState) : Prop :=
  state.stream = some .running ∨ state.stream = some .returned

/-- A claimed execution that was started: the API may have cancelled it. -/
def ExecutionRow.Launched (row : ExecutionRow) : Prop :=
  row.status = .running ∨ row.status = .cancelled

private theorem rowIs_settles {expected : ExecutionRow → Prop}
    (keeps : ∀ row time, row.Cancellable → expected row → expected (row.cancelledAt time)) :
    Settles executionId (RowIs executionId expected) := by
  rintro before after beside ⟨row, found, holds⟩
  rcases beside.row row found with same | ⟨cancellable, time, changed⟩
  · exact ⟨row, same, holds⟩
  · exact ⟨_, changed, keeps row time cancellable holds⟩

/-- The API does not cancel an execution that is in another status. -/
theorem rowIs_settles_of_status {expected : ExecutionRow → Prop}
    (other : ∀ row, expected row → ¬row.Cancellable) :
    Settles executionId (RowIs executionId expected) :=
  rowIs_settles fun row _ cancellable holds => absurd cancellable (other row holds)

/-- The execution was claimed, and its sandbox is not up yet. -/
abbrev IsStarting (executionId : ExecutionId) : ExecState → Prop :=
  RowIs executionId (·.status = .starting)

private theorem starting_settles : Settles executionId (IsStarting executionId) := by
  refine rowIs_settles_of_status fun row starting cancellable => ?_
  rcases cancellable with queued | running
  · cases starting.symm.trans queued
  · cases starting.symm.trans running

private theorem launched_settles : Settles executionId (RowIs executionId ExecutionRow.Launched) :=
  rowIs_settles fun _ _ _ _ => .inr rfl

private theorem sandboxIs_settles {container : Nat} {expected : Container → Prop}
    (keeps : ∀ before after, Container.Evolves before after → expected before → expected after) :
    Settles executionId (SandboxIs container expected) := by
  rintro before after beside ⟨⟨earlier, created⟩, sandbox, found, holds⟩
  obtain ⟨sandbox', found', evolves⟩ := beside.containers _ _ found
  exact ⟨⟨earlier, beside.created.trans created⟩, sandbox', found', keeps _ _ evolves holds⟩

/-- A container that does not run stays as it is. -/
theorem sandboxIs_settles_of_status {container : Nat} {expected : Container → Prop}
    (other : ∀ sandbox, expected sandbox → sandbox.status ≠ .running) :
    Settles executionId (SandboxIs container expected) := by
  refine sandboxIs_settles ?_
  rintro before after (rfl | ⟨running, _⟩) holds
  · exact holds
  · exact absurd running (other before holds)

private theorem streams_settles : Settles executionId Streams := by
  rintro before after beside (running | returned)
  · rcases beside.stream with same | ⟨_, ended⟩
    · exact .inl (same.trans running)
    · exact .inr ended
  · rcases beside.stream with same | ⟨running, _⟩
    · exact .inr (same.trans returned)
    · cases returned.symm.trans running

theorem Settles.and {one two : ExecState → Prop} (first : Settles executionId one)
    (second : Settles executionId two) : Settles executionId fun state => one state ∧ two state :=
  fun _ _ beside ⟨holds, also⟩ => ⟨first beside holds, second beside also⟩

theorem SandboxIs.newest {container : Nat} {expected : Container → Prop} {state : ExecState}
    (holds : SandboxIs container expected state) :
    ∃ sandbox, state.docker.newest = some sandbox ∧
      state.docker.containers container = some sandbox ∧ expected sandbox := by
  obtain ⟨⟨earlier, created⟩, sandbox, found, kept⟩ := holds
  refine ⟨sandbox, ?_, found, kept⟩
  rw [DockerDaemon.newest, created]
  exact found

/-! ### Rows -/

/-- An assertion about the sandbox and its stream: writing a row leaves it alone. -/
structure Framed (executionId : ExecutionId) (kept : ExecState → Prop) : Prop where
  settles : Settles executionId kept
  same : ∀ {before after}, kept before → after.docker = before.docker →
    after.stream = before.stream → kept after

theorem Framed.true : Framed executionId fun _ => True where
  settles _ _ _ _ := trivial
  same _ _ _ := trivial

private theorem framed_sandbox {container : Nat} {expected : Container → Prop}
    (settles : Settles executionId (SandboxIs container expected)) :
    Framed executionId fun state => SandboxIs container expected state ∧ Streams state where
  settles := settles.and streams_settles
  same holds docker stream := by
    unfold SandboxIs Streams
    rw [docker, stream]
    exact holds

section Rows

variable {kept : ExecState → Prop}

private theorem selectForUpdate_answers (framed : Framed executionId kept)
    {expected : ExecutionRow → Prop} (settles : Settles executionId (RowIs executionId expected))
    {present : Prop} :
    Answers executionId (fun state => kept state ∧ (present → RowIs executionId expected state))
      (selectForUpdate task executionId fun _ => true)
      fun found state => kept state ∧ (present → ∃ row, found = some row ∧ expected row) := by
  refine answers_serverCall ExecCall.noConfusion ?_ ?_
  · exact fun _ _ beside ⟨holds, row⟩ =>
      ⟨framed.settles beside holds, fun there => settles beside (row there)⟩
  rintro state found final ⟨holds, row⟩ effected
  have whole : (state.rows executionId).filter (fun _ => true) = state.rows executionId := by
    cases state.rows executionId <;> rfl
  rw [whole] at effected
  split at effected
  · next absent =>
      obtain ⟨rfl, rfl⟩ := Prod.mk.inj (Option.some.inj effected)
      refine ⟨holds, fun there => ?_⟩
      obtain ⟨row, found, _⟩ := row there
      cases absent.symm.trans found
  · next row' selected =>
      split at effected
      · obtain ⟨rfl, rfl⟩ := Prod.mk.inj (Option.some.inj effected)
        refine ⟨framed.same holds rfl rfl, fun there => ?_⟩
        obtain ⟨row, found, expects⟩ := row there
        exact ⟨row, selected.symm.trans found, expects⟩
      · cases effected

private theorem commitRow_answers (framed : Framed executionId kept) {row : ExecutionRow}
    {expected : ExecutionRow → Prop} (expects : expected row) {fact : Prop} :
    Answers executionId (fun state => kept state ∧ fact) (commitRow task executionId row)
      fun _ state => kept state ∧ RowIs executionId expected state := by
  refine answers_operation (fun _ _ beside => And.imp_left (framed.settles beside)) ?_
  rintro since event state result final ⟨rfl | waits, kills⟩ ⟨holds, _⟩ taken
  · split at taken
    · obtain ⟨rfl, rfl⟩ := Prod.mk.inj (Option.some.inj taken)
      exact ⟨(), rfl, framed.same holds rfl rfl, row, Function.update_self _ _ _, expects⟩
    all_goals simp_all
  · cases waits

private theorem refresh_answers {before : ExecState → Prop} (settles : Settles executionId before)
    {expected : ExecutionRow → Prop}
    (present : ∀ state, before state → RowIs executionId expected state) :
    Answers executionId before (refresh task executionId) fun _ => before := by
  refine answers_operation settles ?_
  rintro since event state result final ⟨rfl | waits, kills⟩ holds taken
  · obtain ⟨row, found, _⟩ := present _ holds
    rw [found] at taken
    obtain ⟨rfl, rfl⟩ := Prod.mk.inj (Option.some.inj taken)
    exact ⟨row, rfl, holds⟩
  · cases waits

private theorem publish_answers (framed : Framed executionId kept) {expected : ExecutionRow → Prop}
    (settles : Settles executionId (RowIs executionId expected)) (row : ExecutionRow) :
    Answers executionId (fun state => kept state ∧ RowIs executionId expected state)
      (publish task executionId row)
      fun _ state => kept state ∧ RowIs executionId expected state := by
  refine answers_serverCall ExecCall.noConfusion (framed.settles.and settles) ?_
  rintro state _ _ ⟨holds, row⟩ ⟨⟩
  exact ⟨framed.same holds rfl rfl, row⟩

/-- The status that `_transition` leaves: the API may have cancelled the execution. -/
def Reached (target : ExecutionStatus) (row : ExecutionRow) : Prop :=
  row.status = target ∨ target = .running ∧ row.status = .cancelled

private theorem reached_settles {target : ExecutionStatus} (moved : target ≠ .queued) :
    Settles executionId (RowIs executionId (Reached target)) := by
  refine rowIs_settles ?_
  rintro row time (queued | running) (reached | ⟨rfl, _⟩)
  · exact absurd (reached.symm.trans queued) moved
  · exact .inr ⟨rfl, rfl⟩
  · exact .inr ⟨reached.symm.trans running, rfl⟩
  · exact .inr ⟨rfl, rfl⟩

/-- `_transition` of a row that is known to have the expected status does not find
another one. -/
theorem transition_answers (framed : Framed executionId kept) {expected target : ExecutionStatus}
    (accepts : expected.Accepts target) (moved : target ≠ .queued) {present : Prop}
    (claimed : present → expected = .starting) :
    Answers executionId
      (fun state => kept state ∧ (present → IsStarting executionId state))
      (transition task executionId expected target)
      fun found state => (present → found.isSome) ∧
        (found.isSome → kept state ∧ RowIs executionId (Reached target) state) := by
  have reached : Settles executionId (RowIs executionId (Reached target)) := reached_settles moved
  refine .tryFinally_modify (.bind (selectForUpdate_answers framed starting_settles) fun found => ?_)
  cases found with
  | none =>
      refine .pure fun state ⟨_, row⟩ => ⟨fun there => ?_, fun found => nomatch found⟩
      obtain ⟨_, found, _⟩ := row there
      cases found
  | some row =>
      dsimp only
      split
      · next other =>
          refine .pure fun state ⟨_, found⟩ => ⟨fun there => ?_, fun found => nomatch found⟩
          obtain ⟨_, same, status⟩ := found there
          obtain rfl := Option.some.inj same
          exact absurd (status.trans (claimed there).symm) other
      · next same =>
          have status : row.status = expected := not_not.mp same
          rw [transitionTo_ok (status ▸ accepts), ofExcept_ok_bind]
          have written : Reached target { row with status := target } := .inl rfl
          refine .bind (commitRow_answers framed written) fun _ => ?_
          refine .bind (refresh_answers (framed.settles.and reached) fun _ => And.right) fun row => ?_
          refine .bind (publish_answers framed reached row) fun _ => ?_
          exact .pure fun state ⟨holds, row⟩ =>
            ⟨fun _ => rfl, fun _ => ⟨framed.same holds rfl rfl, row⟩⟩

/-- A row with the texts of an outcome. -/
def Outcome.written (outcome : Outcome) (now : Nat) (row : ExecutionRow) : ExecutionRow :=
  { row with
    stdout := some outcome.stdout
    stderr := some outcome.stderr
    exitCode := outcome.exitCode
    elapsedMs := some outcome.elapsedMs
    finishedAt := some now }

/-- A row that has an outcome. -/
structure Outcome.Holds (outcome : Outcome) (row : ExecutionRow) : Prop where
  status : row.status = outcome.target ∨ row.status = .cancelled
  stdout : row.stdout = some outcome.stdout
  stderr : row.stderr = some outcome.stderr
  exitCode : row.exitCode = outcome.exitCode

theorem Outcome.Holds.terminal {outcome : Outcome} {row : ExecutionRow} (holds : outcome.Holds row)
    (terminal : outcome.target.Terminal) : row.status.Terminal := by
  rcases holds.status with same | cancelled
  · exact same ▸ terminal
  · exact cancelled ▸ rfl

private theorem record_holds {outcome : Outcome} {now : Nat} {row : ExecutionRow}
    (launched : row.Launched) (accepts : ExecutionStatus.running.Accepts outcome.target) :
    ∃ recorded, outcome.record now row = .ok recorded ∧ outcome.Holds recorded := by
  by_cases cancelled : row.status = .cancelled
  · refine ⟨outcome.written now row, ?_, .inr cancelled, rfl, rfl, rfl⟩
    rw [Outcome.record, if_pos cancelled]
    rfl
  · have running := launched.resolve_right cancelled
    refine ⟨outcome.written now { row with status := outcome.target }, ?_, .inl rfl, rfl, rfl, rfl⟩
    rw [Outcome.record, if_neg cancelled, transitionTo_ok (running ▸ accepts)]
    rfl

private theorem finish_answers (framed : Framed executionId kept) {outcome : Outcome}
    (accepts : ExecutionStatus.running.Accepts outcome.target)
    (terminal : outcome.target.Terminal) :
    Answers executionId (fun state => kept state ∧ RowIs executionId ExecutionRow.Launched state)
      (finish task executionId outcome)
      fun _ state => kept state ∧ RowIs executionId outcome.Holds state := by
  have settled : Settles executionId (RowIs executionId outcome.Holds) := by
    refine rowIs_settles_of_status fun row holds cancellable => ?_
    have ended := holds.terminal terminal
    rcases cancellable with queued | running
    · rw [queued] at ended
      cases ended
    · rw [running] at ended
      cases ended
  have selects : Answers executionId
      (fun state => kept state ∧ (True → RowIs executionId ExecutionRow.Launched state))
      (selectForUpdate task executionId fun _ => true) _ :=
    selectForUpdate_answers framed launched_settles
  refine .tryFinally_modify ?_
  refine .bind (selects.weaken fun _ => And.imp_right fun row _ => row) fun found => ?_
  refine .of_implied (fun _ ⟨_, row⟩ => row trivial) ?_
  rintro ⟨row, rfl, launched⟩
  refine .get_bind fun now => ?_
  obtain ⟨recorded, same, holds⟩ := record_holds launched accepts
  rw [same, ofExcept_ok_bind]
  refine .bind (commitRow_answers framed holds) fun _ => ?_
  refine .bind (refresh_answers (framed.settles.and settled) fun _ => And.right) fun row => ?_
  refine (publish_answers framed settled row).mono (fun _ => id) ?_
  exact fun _ _ ⟨holds, row⟩ => ⟨framed.same holds rfl rfl, row⟩

end Rows

/-! ### The sandbox -/

section Sandbox

variable {container : Nat}

private theorem imagePull_answers (image : String) :
    Answers executionId (IsStarting executionId) (imagePull task image)
      fun _ => IsStarting executionId := by
  refine answers_dockerCall ExecCall.noConfusion starting_settles ?_
  rintro since state _ _ kills holds ⟨⟩
  exact ⟨_, rfl, holds⟩

private theorem ensureImage_answers (image : String) :
    Answers executionId (IsStarting executionId) (ensureImage task image)
      fun _ => IsStarting executionId := by
  intro start trace result final holds runs moments
  rcases runs_tryExcept runs with ⟨value, rfl, ran⟩ | ⟨exn, _, earlier, later, rfl, ran, handled⟩
  · obtain ⟨state, event, rfl, beside, taken⟩ := runs_operation ran
    refine ⟨value, rfl, ?_⟩
    have kept := starting_settles beside holds
    cases event with
    | done =>
        dsimp only at taken
        split at taken <;> cases taken
        exact kept
    | _ => cases taken
  · obtain ⟨first, second⟩ := List.forall_mem_append.mp moments
    obtain ⟨state, event, rfl, beside, taken⟩ := runs_operation ran
    have kept := starting_settles beside holds
    rcases (first _ List.mem_cons_self).1 with done | waits
    · obtain rfl : event = .done := done
      dsimp only at taken
      split at taken <;> cases taken
      exact imagePull_answers image kept handled second
    · cases waits

private theorem removeResource_answers (resource : Resource) :
    Answers executionId (IsStarting executionId) (removeResource task resource)
      fun _ => IsStarting executionId := by
  refine answers_operation starting_settles ?_
  rintro since event state result final ⟨rfl | waits, kills⟩ holds taken
  · obtain ⟨rfl, rfl⟩ := Prod.mk.inj (Option.some.inj taken)
    exact ⟨(), rfl, holds⟩
  · cases resource <;> cases waits

private theorem createVolume_answers :
    Answers executionId (IsStarting executionId) (createVolume task)
      fun _ => IsStarting executionId := by
  refine answers_dockerCall ExecCall.noConfusion starting_settles ?_
  rintro since state _ _ kills holds ⟨⟩
  exact ⟨_, rfl, holds⟩

private theorem createContainerCall_answers {call : ExecCall} (other : call ≠ .streamTask) :
    Answers executionId (IsStarting executionId) (createContainerCall task call)
      fun container state => IsStarting executionId state ∧
        SandboxIs container (·.status = .created) state := by
  refine answers_dockerCall other starting_settles ?_
  rintro since state _ _ kills holds ⟨⟩
  exact ⟨_, rfl, holds, ⟨_, rfl⟩, _, Function.update_self _ _ _, rfl⟩

private theorem populateVolume_answers (volume : Nat) (filename code : String) :
    Answers executionId (IsStarting executionId)
      (populateVolume task volume filename code)
      fun _ => IsStarting executionId := by
  refine .bind ((createContainerCall_answers ExecCall.noConfusion).mono (fun _ => id)
    fun _ _ => And.left) fun writer => ?_
  have puts : Answers executionId (IsStarting executionId) (putArchive task volume filename code)
      fun _ => IsStarting executionId := by
    refine answers_dockerCall ExecCall.noConfusion starting_settles ?_
    rintro since state _ _ kills holds ⟨⟩
    exact ⟨_, rfl, holds⟩
  exact .tryFinally puts fun _ => removeResource_answers _

theorem createContainer_answers (row : ExecutionRow) :
    Answers executionId (IsStarting executionId) (createContainer task row)
      fun pair state => IsStarting executionId state ∧
        SandboxIs pair.1 (·.status = .created) state := by
  refine .bind (ensureImage_answers _) fun _ => ?_
  refine .bind createVolume_answers fun volume => ?_
  refine .bind (.tryExcept (populateVolume_answers volume _ _)) fun _ => ?_
  exact .tryExcept (.bind (createContainerCall_answers ExecCall.noConfusion)
    fun container => .pure fun _ => id)

def Container.Started (sandbox : Container) : Prop := sandbox.status ≠ .created

def Container.Ended (sandbox : Container) : Prop := ∃ code, sandbox.status = .exited code

private theorem started_settles :
    Settles executionId (SandboxIs container Container.Started) := by
  refine sandboxIs_settles ?_
  rintro before after (rfl | ⟨_, started⟩) holds
  · exact holds
  · exact started

private theorem ended_settles : Settles executionId (SandboxIs container Container.Ended) := by
  refine sandboxIs_settles_of_status ?_
  rintro sandbox ⟨code, ended⟩ running
  cases ended.symm.trans running

/-- A new status of the sandbox. -/
theorem SandboxIs.setStatus {expected expected' : Container → Prop} {state : ExecState}
    (holds : SandboxIs container expected state) {status : ContainerStatus}
    (becomes : ∀ sandbox, expected sandbox → expected' { sandbox with status := status }) :
    SandboxIs container expected'
      { state with docker := state.docker.setStatus container status } := by
  obtain ⟨created, sandbox, found, kept⟩ := holds
  refine ⟨created, _, Function.update_self _ _ _ |>.trans ?_, becomes sandbox kept⟩
  rw [found]
  rfl

/-- What is so before the sandbox of a job is up. -/
def Prepared (executionId : ExecutionId) (container : Nat) (expected : Container → Prop)
    (state : ExecState) : Prop :=
  (SandboxIs container expected state ∧ Streams state) ∧ IsStarting executionId state

private theorem startSandbox_answers :
    Answers executionId (Prepared executionId container (·.status = .created))
      (startSandbox task executionId container)
      fun _ => Prepared executionId container Container.Started := by
  have settles : Settles executionId (Prepared executionId container (·.status = .created)) := by
    refine .and (.and (sandboxIs_settles_of_status fun sandbox created running => ?_)
      streams_settles) starting_settles
    cases created.symm.trans running
  refine .modify_bind (fun _ holds => ?_) (answers_dockerCall ExecCall.noConfusion settles ?_)
  · exact holds
  · rintro since state _ _ kills ⟨⟨sandbox, streams⟩, row⟩ ⟨⟩
    exact ⟨(), rfl, ⟨sandbox.setStatus fun _ _ => ContainerStatus.noConfusion, streams⟩, row⟩

/-- What is so while the sandbox of a job is up. -/
def Up (executionId : ExecutionId) (container : Nat) (expected : Container → Prop)
    (state : ExecState) : Prop :=
  (SandboxIs container expected state ∧ Streams state) ∧
    RowIs executionId ExecutionRow.Launched state

private theorem up_settles {expected : Container → Prop}
    (settles : Settles executionId (SandboxIs container expected)) :
    Settles executionId (Up executionId container expected) :=
  .and (.and settles streams_settles) launched_settles

private theorem kill_answers :
    Answers executionId (Up executionId container Container.Started) (kill task container)
      fun _ => Up executionId container Container.Ended := by
  refine answers_dockerCall ExecCall.noConfusion (up_settles started_settles) ?_
  rintro since state result final kills ⟨⟨sandbox, streams⟩, row⟩ effected
  obtain ⟨found, newest, held, _⟩ := sandbox.newest
  obtain ⟨_, same, running⟩ := kills rfl
  obtain rfl := Option.some.inj (newest.symm.trans same)
  have up : state.docker.status container = some .running := by
    rw [DockerDaemon.status, held, Option.map_some, running]
  rw [if_pos up] at effected
  obtain ⟨rfl, rfl⟩ := Prod.mk.inj (Option.some.inj effected)
  exact ⟨(), rfl, ⟨sandbox.setStatus fun _ _ => ⟨_, rfl⟩, streams⟩, row⟩

/-- What `_monitor` returns. -/
def Forced : Option ExecutionStatus → Prop
  | none => True
  | some status => status = .cancelled ∨ status = .timeout

private theorem cancellationRequested_answers :
    Answers executionId (Up executionId container Container.Started)
      (cancellationRequested task executionId)
      fun _ => Up executionId container Container.Started := by
  refine answers_serverCall ExecCall.noConfusion (up_settles started_settles) ?_
  rintro state _ _ holds ⟨⟩
  exact holds

/-- A sandbox that has exited when it is looked at stays so. -/
theorem reload_answers :
    Answers executionId (Up executionId container Container.Started) (reload task container)
      fun status state => Up executionId container Container.Started state ∧
        ((∃ code, status = some (.exited code)) → Up executionId container Container.Ended state) := by
  refine answers_dockerCall ExecCall.noConfusion (up_settles started_settles) ?_
  rintro since state _ _ kills holds ⟨⟩
  refine ⟨_, rfl, holds, fun ⟨code, exited⟩ => ?_⟩
  obtain ⟨⟨⟨created, sandbox, found, _⟩, streams⟩, row⟩ := holds
  refine ⟨⟨⟨created, sandbox, found, code, ?_⟩, streams⟩, row⟩
  rw [DockerDaemon.status, found] at exited
  exact Option.some.inj exited

private theorem pause_answers {before : ExecState → Prop} (settles : Settles executionId before) :
    Answers executionId before (pause task) fun _ => before := by
  refine answers_operation settles ?_
  rintro since event state result final _ holds taken
  split at taken <;> cases taken
  exact ⟨(), rfl, holds⟩

private theorem monitor_answers (deadline turns : Nat) :
    Answers executionId (Up executionId container Container.Started)
      (monitor task executionId container deadline turns)
      fun forced state => Up executionId container Container.Ended state ∧ Forced forced := by
  induction turns with
  | zero =>
      intro start trace result final _ runs
      obtain ⟨_, _, _, _, _, _, _, never, _⟩ := runs
      cases never
  | succ turns inductionHypothesis =>
      rw [monitor]
      refine .bind cancellationRequested_answers fun requested => ?_
      split
      · exact .bind kill_answers fun _ => .pure fun state up => ⟨up, .inl rfl⟩
      · refine .bind reload_answers fun status => ?_
        split
        · exact .pure fun state looked => ⟨looked.2 ⟨_, rfl⟩, trivial⟩
        · refine .get_bind fun now => .weaken ?_ fun _ => And.left
          split
          · exact .bind kill_answers fun _ => .pure fun state up => ⟨up, .inr rfl⟩
          · exact .bind (pause_answers (up_settles started_settles)) fun _ => inductionHypothesis

private theorem waitContainer_answers :
    Answers executionId (Up executionId container Container.Ended) (waitContainer task container)
      fun code => Up executionId container (·.status = .exited code) := by
  refine answers_dockerCall ExecCall.noConfusion (up_settles ended_settles) ?_
  rintro since state result final kills ⟨⟨⟨created, sandbox, found, code, ended⟩, streams⟩, row⟩
    effected
  have status : state.docker.status container = some (.exited code) := by
    rw [DockerDaemon.status, found, Option.map_some, ended]
  simp only [status] at effected
  obtain ⟨rfl, rfl⟩ := Prod.mk.inj (Option.some.inj effected)
  exact ⟨code, rfl, ⟨⟨created, sandbox, found, ended⟩, streams⟩, row⟩

/-- A sandbox that has exited stays as it is. -/
theorem exited_settles {code : Int} {expected : Container → Prop} :
    Settles executionId (Up executionId container fun sandbox =>
      sandbox.status = .exited code ∧ expected sandbox) := by
  refine up_settles (sandboxIs_settles_of_status ?_)
  rintro sandbox ⟨exited, _⟩ running
  cases exited.symm.trans running

private theorem awaitStream_answers {before : ExecState → Prop}
    (settles : Settles executionId before)
    (streams : ∀ state, before state → Streams state) :
    Answers executionId before (awaitStream task) fun _ => before := by
  refine answers_operation settles ?_
  rintro since event state result final answered holds taken
  split at taken
  · next failed =>
      rcases streams _ holds with running | returned
      · cases running.symm.trans failed
      · cases returned.symm.trans failed
  · obtain ⟨rfl, rfl⟩ := Prod.mk.inj (Option.some.inj taken)
    exact ⟨(), rfl, holds⟩
  · cases taken

private theorem logs_answers {code : Int} {expected : Container → Prop}
    (output : Container → List UInt8) :
    Answers executionId
      (Up executionId container fun sandbox => sandbox.status = .exited code ∧ expected sandbox)
      (logs task container output)
      fun bytes => Up executionId container fun sandbox =>
        sandbox.status = .exited code ∧ expected sandbox ∧ output sandbox = bytes := by
  refine answers_dockerCall ExecCall.noConfusion exited_settles ?_
  rintro since state _ _ kills ⟨⟨⟨created, sandbox, found, exited, expects⟩, streams⟩, row⟩ ⟨⟩
  refine ⟨_, rfl, ⟨⟨created, sandbox, found, exited, expects, ?_⟩, streams⟩, row⟩
  rw [found]
  rfl

/-- A row has the outcome of a sandbox. -/
structure ExecutionRow.Records (limit : Nat) (sandbox : Container) (row : ExecutionRow) : Prop where
  exitCode : ∃ code, sandbox.status = .exited code ∧ row.exitCode = some code ∧
    (row.status = .failed → code ≠ 0)
  stdout : row.stdout = some (bounded limit sandbox.stdout)
  stderr : row.stderr = some (bounded limit sandbox.stderr)

/-- The row has the outcome of the sandbox, which has exited. -/
def Recorded (limit : Nat) (executionId : ExecutionId) (container : Nat) (state : ExecState) : Prop :=
  ∃ sandbox, SandboxIs container (· = sandbox) state ∧
    RowIs executionId (fun row => row.status.Terminal ∧ row.Records limit sandbox) state

/-- The outcome of a sandbox in the row. -/
theorem records_of_holds {limit : Nat} {code : Int} {forced : Option ExecutionStatus}
    {outcome : Outcome} {sandbox : Container} {row : ExecutionRow} (forces : Forced forced)
    (target : outcome.target = forced.getD (if code = 0 then .completed else .failed))
    (exitCode : outcome.exitCode = some code)
    (stdout : outcome.stdout = bounded limit sandbox.stdout)
    (stderr : outcome.stderr = bounded limit sandbox.stderr)
    (exited : sandbox.status = .exited code) (holds : outcome.Holds row) :
    row.Records limit sandbox where
  exitCode := by
    refine ⟨code, exited, holds.exitCode.trans exitCode, fun failed ended => ?_⟩
    rw [if_pos ended] at target
    rcases holds.status with same | cancelled
    · rw [failed, target] at same
      cases forced with
      | none => cases same
      | some status =>
          obtain rfl : ExecutionStatus.failed = status := same
          rcases forces with never | never <;> cases never
    · cases failed.symm.trans cancelled
  stdout := holds.stdout.trans (congrArg some stdout)
  stderr := holds.stderr.trans (congrArg some stderr)

/-- The statuses that a finished job may have. -/
theorem target_final {forced : Option ExecutionStatus} (forces : Forced forced) (code : Int) :
    ExecutionStatus.running.Accepts (forced.getD (if code = 0 then .completed else .failed)) ∧
      (forced.getD (if code = 0 then ExecutionStatus.completed else .failed)).Terminal := by
  cases forced with
  | none =>
      rw [Option.getD_none]
      split <;> exact ⟨by decide, rfl⟩
  | some status =>
      rw [Option.getD_some]
      rcases forces with rfl | rfl <;> exact ⟨by decide, rfl⟩

theorem runSandbox_answers (settings : Settings) (turns started : Nat) :
    Answers executionId (Prepared executionId container (·.status = .created))
      (runSandbox settings turns task executionId started container)
      fun _ => Recorded settings.outputLimit executionId container := by
  have prepared : Settles executionId (Prepared executionId container (·.status = .created)) := by
    refine .and (.and (sandboxIs_settles_of_status fun sandbox created running => ?_)
      streams_settles) starting_settles
    cases created.symm.trans running
  refine .bind (pause_answers prepared) fun _ => ?_
  refine .bind startSandbox_answers fun _ => ?_
  have transitions : Answers executionId
      (fun state => (SandboxIs container Container.Started state ∧ Streams state) ∧
        (True → IsStarting executionId state))
      (transition task executionId .starting .running) _ :=
    transition_answers (framed_sandbox started_settles) (by decide) (by decide) fun _ => rfl
  refine .bind (transitions.weaken fun _ => And.imp_right fun row _ => row) fun found => ?_
  refine .of_implied (fun _ ⟨claimed, _⟩ => Option.isSome_iff_exists.mp (claimed trivial)) ?_
  rintro ⟨row, rfl⟩
  refine .get_bind fun now => ?_
  have up : ∀ state, (True → (some row).isSome) ∧ ((some row).isSome →
      (SandboxIs container Container.Started state ∧ Streams state) ∧
        RowIs executionId (Reached .running) state) →
          Up executionId container Container.Started state := by
    rintro state ⟨_, holds⟩
    obtain ⟨sandbox, row, found, reached⟩ := holds rfl
    exact ⟨sandbox, row, found, reached.imp_right And.right⟩
  refine .bind ((monitor_answers _ turns).weaken up) fun forced => ?_
  refine .of_implied (fun _ => And.right) fun forces => ?_
  refine .bind (waitContainer_answers.weaken fun _ => And.left) fun code => ?_
  have exited : Answers executionId (Up executionId container (·.status = .exited code))
      (awaitStream task) fun _ => Up executionId container fun sandbox =>
        sandbox.status = .exited code ∧ True :=
    (awaitStream_answers exited_settles fun _ holds => holds.1.2).weaken
      fun _ ⟨⟨⟨created, sandbox, found, exited⟩, streams⟩, row⟩ =>
        ⟨⟨⟨created, sandbox, found, exited, trivial⟩, streams⟩, row⟩
  refine .bind exited fun _ => ?_
  refine .bind (logs_answers _) fun out => .bind (logs_answers _) fun err => ?_
  refine .get_bind fun now => ?_
  obtain ⟨accepts, terminal⟩ := target_final forces code
  have frame : Settles executionId (SandboxIs container fun sandbox =>
      sandbox.status = .exited code ∧ (True ∧ sandbox.stdout = out) ∧ sandbox.stderr = err) := by
    refine sandboxIs_settles_of_status ?_
    rintro sandbox ⟨exited, _⟩ running
    cases exited.symm.trans running
  refine (finish_answers (framed_sandbox frame) accepts terminal).mono (fun _ => id) ?_
  rintro _ state ⟨⟨⟨created, sandbox, held, exited, ⟨_, rfl⟩, rfl⟩, _⟩, row, found, holds⟩
  exact ⟨sandbox, ⟨created, sandbox, held, rfl⟩, row, found, holds.terminal terminal,
    records_of_holds forces rfl rfl rfl rfl exited holds⟩

end Sandbox

end Concord.Execution

import Concord.Execution.WorkerRules

/-!
Contract: what happens beside a job.

Owns:
- `Beside`, what may become of an execution, of the containers and of the stream
  while a job is suspended;
- that the changes of the service are such, but for a stream that fails, and that
  the commit of `cancel_execution` is.

The relation is wide: time, the cancellation keys and the lists of Redis are free.

Does not own: what the job itself does.
-/

set_option autoImplicit false

namespace Concord.Execution

open Asyncio ExecState

variable {executionId : ExecutionId}

/-- The container that was created last: the sandbox, once a job has one. -/
def DockerDaemon.newest (daemon : DockerDaemon) : Option Container :=
  match daemon.created with
  | .container id :: _ => daemon.containers id
  | _ => none

/-- What becomes of a container on its own: a running one writes and ends. -/
def Container.Evolves (before after : Container) : Prop :=
  after = before ∨ before.status = .running ∧ after.status ≠ .created

/-- What `cancel_execution` writes. -/
def ExecutionRow.cancelledAt (time : Option Nat) (row : ExecutionRow) : ExecutionRow :=
  { row with status := .cancelled, finishedAt := time }

/-- A row that `cancel_execution` may cancel. -/
def ExecutionRow.Cancellable (row : ExecutionRow) : Prop :=
  row.status = .queued ∨ row.status = .running

/-- What the others do to one execution, to the containers and to the stream of a
sandbox. Time, the cancellation keys and the Redis lists may change in any way. -/
structure Beside (executionId : ExecutionId) (before after : ExecState) : Prop where
  row : ∀ row, before.rows executionId = some row → after.rows executionId = some row ∨
    row.Cancellable ∧ ∃ time, after.rows executionId = some (row.cancelledAt time)
  containers : ∀ id container, before.docker.containers id = some container →
    ∃ container', after.docker.containers id = some container' ∧ container.Evolves container'
  created : after.docker.created = before.docker.created
  stream : after.stream = before.stream ∨
    before.stream = some .running ∧ after.stream = some .returned

theorem Beside.of_same {before after : ExecState} (rows : after.rows = before.rows)
    (docker : after.docker = before.docker) (stream : after.stream = before.stream) :
    Beside executionId before after where
  row _ found := .inl (rows ▸ found)
  containers _ container found := ⟨container, docker ▸ found, .inl rfl⟩
  created := docker ▸ rfl
  stream := .inl stream

theorem Beside.refl (state : ExecState) : Beside executionId state state :=
  .of_same rfl rfl rfl

theorem Beside.trans {before middle after : ExecState} (one : Beside executionId before middle)
    (two : Beside executionId middle after) : Beside executionId before after where
  row row found := by
    rcases one.row row found with same | ⟨cancellable, time, changed⟩
    · exact two.row row same
    · -- A cancelled row is not cancelled again.
      rcases two.row _ changed with same | ⟨queued | running, _⟩
      · exact .inr ⟨cancellable, time, same⟩
      · cases queued
      · cases running
  containers id container found := by
    obtain ⟨container₁, found₁, evolves₁⟩ := one.containers id container found
    obtain ⟨container₂, found₂, evolves₂⟩ := two.containers id container₁ found₁
    refine ⟨container₂, found₂, ?_⟩
    rcases evolves₁ with rfl | ⟨running, started⟩
    · exact evolves₂
    · rcases evolves₂ with rfl | ⟨_, started⟩ <;> exact .inr ⟨running, started⟩
  created := two.created.trans one.created
  stream := by
    rcases one.stream with same | ⟨running, returned⟩
    · rw [← same]
      exact two.stream
    · rcases two.stream with same | ⟨again, _⟩
      · exact .inr ⟨running, same.trans returned⟩
      · cases returned.symm.trans again

/-- A container changes, and no other does. -/
theorem Beside.of_container {state : ExecState} {id : Nat} {container container' : Container}
    (found : state.docker.containers id = some container) (evolves : container.Evolves container') :
    Beside executionId state { state with docker := { state.docker with
      containers := Function.update state.docker.containers id (some container') } } where
  row row found := .inl found
  containers other container₁ found₁ := by
    by_cases same : other = id
    · subst same
      obtain rfl := Option.some.inj (found.symm.trans found₁)
      exact ⟨container', Function.update_self _ _ _, evolves⟩
    · exact ⟨container₁, (Function.update_of_ne same _ _).trans found₁, .inl rfl⟩
  created := rfl
  stream := .inl rfl

/-- What happens without a task is beside a job, but for the failure of its stream,
which does not publish where Redis is away. -/
theorem beside_change {ambient : ExecAmbient} {before after : ExecState}
    (changed : change ambient before = some after)
    (publishes : ∀ text, ambient ≠ .endStream (.failed text)) : Beside executionId before after := by
  cases ambient with
  | tick elapsed =>
      obtain rfl := Option.some.inj changed
      exact .of_same rfl rfl rfl
  | duplicate item =>
      obtain rfl := Option.some.inj changed
      exact .of_same rfl rfl rfl
  | write container stdout stderr =>
      dsimp only [change, writeOutput] at changed
      split at changed
      · next out err found =>
          obtain rfl := Option.some.inj changed
          exact .of_container found (.inr ⟨rfl, ContainerStatus.noConfusion⟩)
      · cases changed
  | exit container code =>
      dsimp only [change, exitContainer] at changed
      split at changed
      · next running =>
          obtain rfl := Option.some.inj changed
          obtain ⟨sandbox, found, status⟩ := Option.map_eq_some_iff.mp running
          have evolves : sandbox.Evolves { sandbox with status := .exited code } :=
            .inr ⟨status, ContainerStatus.noConfusion⟩
          simpa only [DockerDaemon.setStatus, found, Option.map_some] using
            Beside.of_container found evolves
      · cases changed
  | endStream ended =>
      dsimp only [change] at changed
      split at changed
      · next running =>
          obtain rfl := Option.some.inj changed
          refine ⟨fun _ found => .inl found, fun _ container found => ⟨container, found, .inl rfl⟩,
            rfl, ?_⟩
          cases ended with
          | running => exact .inl running.symm
          | returned => exact .inr ⟨running, rfl⟩
          | failed text => exact absurd rfl (publishes text)
      · cases changed

/-- The commit of `cancel_execution` is beside a job. -/
theorem beside_cancel {other : TaskId} {state : ExecState} {row cancelled : ExecutionRow}
    (found : state.rows executionId = some row) (cancellable : row.Cancellable)
    (moved : row.transitionTo .cancelled = .ok cancelled) (time : Option Nat) :
    Beside executionId state
      ((state.writeRow executionId { cancelled with finishedAt := time }).releaseLocks other) where
  row row' found' := by
    obtain rfl := Option.some.inj (found.symm.trans found')
    obtain ⟨accepts, _⟩ := accepts_of_transitionTo moved
    rw [transitionTo_ok accepts] at moved
    obtain rfl := Except.ok.inj moved
    exact .inr ⟨cancellable, time, Function.update_self _ _ _⟩
  containers _ container found := ⟨container, found, .inl rfl⟩
  created := rfl
  stream := .inl rfl

end Concord.Execution

import Concord.Asyncio.Pool

/-!
Contract: policies that know the task whose call is answered.

Owns:
- `TaskPolicy`, and the steps and runs under one;
- how these runs relate to the runs under a policy on requests.

Does not own: a policy.
-/

set_option autoImplicit false

namespace Concord.Asyncio

variable {S Event Call Exn Request Ambient : Type}

abbrev TaskPolicy (S Event Call Request : Type) := TaskId → Policy S Event Call Request

/-- One step of the process under a policy for each task. -/
inductive StepBy (service : Service S Event Call Exn Request Ambient)
    (policy : TaskPolicy S Event Call Request) :
    Pool S Event Call Exn Request → Pool S Event Call Exn Request → Prop where
  | spawn {pool} (task : TaskId) (request : Request) (unused : pool.tasks task = none) :
      StepBy service policy pool
        (pool.runTask task request (service.handler request task) pool.state)
  | resume {pool task request call β} {act : Event → S → Option (β × S)} {next event b state}
      (suspended : pool.tasks task = some (request, .await call act next))
      (allowed : policy task request pool.state call event)
      (taken : act event pool.state = some (b, state)) :
      StepBy service policy pool (pool.runTask task request (next b) state)
  | ambient {pool change state} (taken : service.ambient change pool.state = some state) :
      StepBy service policy pool { pool with state := state }
  | restart {pool} : StepBy service policy pool (Pool.start (service.restart pool.state))

/-- The pools of all runs under a policy for each task. -/
inductive ReachableBy (service : Service S Event Call Exn Request Ambient)
    (policy : TaskPolicy S Event Call Request) (initial : S → Prop) :
    Pool S Event Call Exn Request → Prop where
  | start {state} (holds : initial state) : ReachableBy service policy initial (Pool.start state)
  | step {before after} (reached : ReachableBy service policy initial before)
      (next : StepBy service policy before after) : ReachableBy service policy initial after

section Runs

variable {service : Service S Event Call Exn Request Ambient}
  {policy : TaskPolicy S Event Call Request} {initial : S → Prop}
  {pool before after : Pool S Event Call Exn Request}

/-- A policy on requests that allows what every task may meet. -/
theorem StepBy.step {loose : Policy S Event Call Request}
    (weaker : ∀ task request state call event, policy task request state call event →
      loose request state call event)
    (next : StepBy service policy before after) : Step service loose before after := by
  cases next with
  | spawn task request unused => exact .spawn task request unused
  | resume suspended allowed taken => exact .resume suspended (weaker _ _ _ _ _ allowed) taken
  | ambient taken => exact .ambient taken
  | restart => exact .restart

theorem ReachableBy.reachable {loose : Policy S Event Call Request}
    (weaker : ∀ task request state call event, policy task request state call event →
      loose request state call event)
    (reached : ReachableBy service policy initial pool) : Reachable service loose initial pool := by
  induction reached with
  | start holds => exact .start holds
  | step _ next inductionHypothesis => exact inductionHypothesis.step (next.step weaker)

/-- A policy on requests that suits every task. -/
theorem Step.forTasks {strict : Policy S Event Call Request}
    (suits : ∀ task request state call event, strict request state call event →
      policy task request state call event)
    (next : Step service strict before after) : StepBy service policy before after := by
  cases next with
  | spawn task request unused => exact .spawn task request unused
  | resume suspended allowed taken => exact .resume suspended (suits _ _ _ _ _ allowed) taken
  | ambient taken => exact .ambient taken
  | restart => exact .restart

theorem Reachable.forTasks {strict : Policy S Event Call Request}
    (suits : ∀ task request state call event, strict request state call event →
      policy task request state call event)
    (reached : Reachable service strict initial pool) :
    ReachableBy service policy initial pool := by
  induction reached with
  | start holds => exact .start holds
  | step _ next inductionHypothesis => exact inductionHypothesis.step (next.forTasks suits)

end Runs

end Concord.Asyncio

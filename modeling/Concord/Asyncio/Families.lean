import Concord.Asyncio.OwnSteps

/-!
Contract: one process that serves a family of independent components.

Owns:
- `Service.family`, where each request is for one component and its task works on
  that component alone;
- `Reachable.project`: a run of the family is a run of each component, in which the
  tasks of the others take no step;
- `Foreign.project`: what the others of a task do in the family, they do in one
  component.

Does not own: components that share state.
-/

set_option autoImplicit false

namespace Concord.Asyncio

variable {S Event Call Exn Request Ambient Index : Type} [DecidableEq Index] {α : Type}

/-- Run a coroutine over one component of a family. -/
def Coroutine.at (index : Index) (program : Coroutine S Event Call Exn α) :
    Coroutine (Index → S) Event Call Exn α :=
  program.focus (fun states => states index) fun part states => Function.update states index part

/-- A process that serves one service for every index. -/
def Service.family (service : Service S Event Call Exn Request Ambient) :
    Service (Index → S) Event Call Exn (Index × Request) (Index × Ambient) where
  handler request task := (service.handler request.2 task).at request.1
  ambient change states := (service.ambient change.2 (states change.1)).map fun part =>
    Function.update states change.1 part
  restart states index := service.restart (states index)

/-- The policy of a component, for the whole family. -/
def Policy.family (policy : Policy S Event Call Request) :
    Policy (Index → S) Event Call (Index × Request) :=
  fun request states => policy request.2 (states request.1)

theorem isPart_index (index : Index) :
    IsPart (fun states : Index → S => states index)
      fun part states => Function.update states index part where
  get_put part states := Function.update_self index part states
  put_put part part' states := Function.update_idem part' part states
  put_get states := Function.update_eq_self index states

theorem at_bind {β : Type} (index : Index) (first : Coroutine S Event Call Exn α)
    (rest : α → Coroutine S Event Call Exn β) :
    (first >>= rest).at index = first.at index >>= fun value => (rest value).at index :=
  Coroutine.focus_bind _ _ first rest

theorem at_tryExcept (index : Index) (body : Coroutine S Event Call Exn α)
    (handler : Exn → Coroutine S Event Call Exn α) :
    (body.tryExcept handler).at index =
      (body.at index).tryExcept fun exn => (handler exn).at index :=
  Coroutine.focus_tryExcept _ _ body handler

theorem at_tryFinally (index : Index) (body : Coroutine S Event Call Exn α)
    (cleanup : Coroutine S Event Call Exn Unit) :
    (body.tryFinally cleanup).at index = (body.at index).tryFinally (cleanup.at index) :=
  Coroutine.focus_tryFinally _ _ body cleanup

theorem settle_at (index : Index) (program : Coroutine S Event Call Exn α) (states : Index → S) :
    (program.at index).settle states =
      ((program.settle (states index)).1.at index,
        Function.update states index (program.settle (states index)).2) := by
  induction program generalizing states with
  | ret value => exact Prod.ext rfl (Function.update_eq_self index states).symm
  | raise exn => exact Prod.ext rfl (Function.update_eq_self index states).symm
  | look next inductionHypothesis => exact inductionHypothesis _ states
  | sync update next inductionHypothesis =>
      refine (inductionHypothesis _ (Function.update states index (update (states index)).2)).trans ?_
      rw [Function.update_self, Function.update_idem]
      rfl
  | await call act next => exact Prod.ext rfl (Function.update_eq_self index states).symm

/-- The pool of one component, in a pool of the family. -/
structure Projects (index : Index) (whole : Pool (Index → S) Event Call Exn (Index × Request))
    (part : Pool S Event Call Exn Request) : Prop where
  state : part.state = whole.state index
  started : ∀ task request program, part.tasks task = some (request, program) →
    whole.tasks task = some ((index, request), program.at index)
  foreign : ∀ task request program, part.tasks task = none →
    whole.tasks task = some (request, program) → request.1 ≠ index

section Project

variable {service : Service S Event Call Exn Request Ambient}
  {policy : Policy S Event Call Request} {initial : S → Prop} {index : Index}
  {whole whole' : Pool (Index → S) Event Call Exn (Index × Request)}
  {part : Pool S Event Call Exn Request}

theorem Projects.unused {task : TaskId} (projects : Projects index whole part)
    (unused : whole.tasks task = none) : part.tasks task = none := by
  cases started : part.tasks task with
  | none => rfl
  | some running => exact nomatch unused.symm.trans (projects.started task _ _ started)

/-- A task of the component runs to its next suspension. -/
theorem Projects.runTask {task : TaskId} {request : Request}
    {program : Coroutine S Event Call Exn Unit} {state : S} {states : Index → S}
    (projects : Projects index whole part) (same : states index = state) :
    Projects index (whole.runTask task (index, request) (program.at index) states)
      (part.runTask task request program state) := by
  subst same
  unfold Pool.runTask
  rw [settle_at]
  refine ⟨(Function.update_self index (program.settle (states index)).2 states).symm, ?_, ?_⟩
  · intro other otherRequest otherProgram started
    by_cases own : other = task
    · subst own
      simp only [Function.update_self] at started ⊢
      obtain ⟨rfl, rfl⟩ := Prod.mk.inj (Option.some.inj started)
      rfl
    · simp only [Function.update_of_ne own] at started ⊢
      exact projects.started other _ _ started
  · intro other otherRequest otherProgram unused started
    by_cases own : other = task
    · subst own
      simp only [Function.update_self, reduceCtorEq] at unused
    · simp only [Function.update_of_ne own] at unused started
      exact projects.foreign other _ _ unused started

/-- A task of another component runs to its next suspension. -/
theorem Projects.runTask_of_ne {other : Index} {task : TaskId} {request : Request}
    {program : Coroutine S Event Call Exn Unit} {states : Index → S}
    (projects : Projects index whole part) (different : other ≠ index)
    (same : states index = whole.state index) (unstarted : part.tasks task = none) :
    Projects index (whole.runTask task (other, request) (program.at other) states) part := by
  unfold Pool.runTask
  rw [settle_at]
  refine ⟨?_, ?_, ?_⟩
  · exact projects.state.trans (same.symm.trans (Function.update_of_ne different.symm _ _).symm)
  · intro running runningRequest runningProgram started
    have apart : running ≠ task := by
      rintro rfl
      exact nomatch unstarted.symm.trans started
    simp only [Function.update_of_ne apart]
    exact projects.started running _ _ started
  · intro running runningRequest runningProgram unused started
    by_cases own : running = task
    · subst own
      simp only [Function.update_self, Option.some.injEq, Prod.mk.injEq] at started
      rw [← started.1]
      exact different
    · simp only [Function.update_of_ne own] at started
      exact projects.foreign running _ _ unused started

/-- A suspended task of the component. -/
theorem Projects.suspended {task : TaskId} {request : Request} {call : Call} {β : Type}
    {act : Event → (Index → S) → Option (β × (Index → S))}
    {next : β → Coroutine (Index → S) Event Call Exn Unit} (projects : Projects index whole part)
    (suspended : whole.tasks task = some ((index, request), .await call act next)) :
    ∃ (inner : Event → S → Option (β × S)) (rest : β → Coroutine S Event Call Exn Unit),
      part.tasks task = some (request, .await call inner rest) ∧
        (∀ event states, act event states = (inner event (states index)).map fun (b, state) =>
          (b, Function.update states index state)) ∧
        ∀ b, next b = (rest b).at index := by
  cases running : part.tasks task with
  | none => exact absurd rfl (projects.foreign task _ _ running suspended)
  | some started =>
      obtain ⟨request', program⟩ := started
      have there := (projects.started task request' program running).symm.trans suspended
      obtain ⟨sameRequest, same⟩ := Prod.mk.inj (Option.some.inj there)
      obtain ⟨-, rfl⟩ := Prod.mk.inj sameRequest
      cases program with
      | await call' inner rest =>
          cases same
          exact ⟨inner, rest, rfl, fun _ _ => rfl, fun _ => rfl⟩
      | _ => cases same

/-- A task of another component has not started in this one. -/
theorem Projects.unstarted {other : Index} {task : TaskId} {request : Request}
    {program : Coroutine (Index → S) Event Call Exn Unit} (projects : Projects index whole part)
    (different : other ≠ index) (running : whole.tasks task = some ((other, request), program)) :
    part.tasks task = none := by
  cases started : part.tasks task with
  | none => rfl
  | some own =>
      have there := (projects.started task _ _ started).symm.trans running
      obtain ⟨sameRequest, -⟩ := Prod.mk.inj (Option.some.inj there)
      exact absurd (Prod.mk.inj sameRequest).1.symm different

/-- A suspended task of the component that goes on does so in the component. -/
theorem Projects.answered {task : TaskId} {request : Request} {call : Call} {β : Type}
    {act : Event → (Index → S) → Option (β × (Index → S))}
    {next : β → Coroutine (Index → S) Event Call Exn Unit} {event : Event} {b : β}
    {states : Index → S} (projects : Projects index whole part)
    (suspended : whole.tasks task = some ((index, request), .await call act next))
    (allowed : policy.family (index, request) whole.state call event)
    (taken : act event whole.state = some (b, states)) :
    ∃ (inner : Event → S → Option (β × S)) (rest : β → Coroutine S Event Call Exn Unit) (state : S),
      part.tasks task = some (request, .await call inner rest) ∧
        policy request part.state call event ∧ inner event part.state = some (b, state) ∧
          states = Function.update whole.state index state ∧ next b = (rest b).at index := by
  obtain ⟨inner, rest, running, acts, continues⟩ := projects.suspended suspended
  rw [acts, Option.map_eq_some_iff] at taken
  obtain ⟨⟨b', state⟩, stepped, equal⟩ := taken
  obtain ⟨rfl, rfl⟩ := Prod.mk.inj equal
  rw [← projects.state] at stepped
  refine ⟨inner, rest, state, running, ?_, stepped, rfl, continues b'⟩
  rw [projects.state]
  exact allowed

/-- A task that has ended has ended in its component, and has not started in any
other. -/
theorem Projects.outcome {task : TaskId} (projects : Projects index whole part)
    (ended : (whole.outcome task).isSome) :
    part.tasks task = none ∨ (part.outcome task).isSome := by
  cases running : part.tasks task with
  | none => exact .inl rfl
  | some started =>
      obtain ⟨request, program⟩ := started
      refine .inr ?_
      unfold Pool.outcome at ended ⊢
      rw [projects.started task request program running] at ended
      rw [running]
      cases program with
      | ret value => rfl
      | raise exn => rfl
      | look next => cases ended
      | sync update next => cases ended
      | await call act next => cases ended

/-- A run of the family is a run of each of its components. -/
theorem Reachable.project
    (reached : Reachable service.family policy.family
      (fun states => ∀ index : Index, initial (states index)) whole) (index : Index) :
    ∃ part, Reachable service policy initial part ∧ Projects index whole part := by
  induction reached generalizing index with
  | @start states holds =>
      exact ⟨Pool.start (states index), .start (holds index), rfl, nofun, nofun⟩
  | @step before after _ next inductionHypothesis =>
      obtain ⟨part, reached, projects⟩ := inductionHypothesis index
      cases next with
      | spawn task request unused =>
          obtain ⟨other, request⟩ := request
          by_cases own : other = index
          · subst own
            exact ⟨_, reached.step (.spawn task request (projects.unused unused)),
              projects.runTask projects.state.symm⟩
          · exact ⟨part, reached, projects.runTask_of_ne own rfl (projects.unused unused)⟩
      | @resume task request call β act next event b states suspended allowed taken =>
          obtain ⟨other, request⟩ := request
          by_cases own : other = index
          · subst own
            obtain ⟨inner, rest, part', running, allowed', stepped, rfl, continues⟩ :=
              projects.answered suspended allowed taken
            refine ⟨_, reached.step (.resume running allowed' stepped), ?_⟩
            rw [continues]
            exact projects.runTask (Function.update_self _ _ _)
          · obtain ⟨_, _, projects'⟩ := inductionHypothesis other
            obtain ⟨_, _, _, _, _, _, rfl, continues⟩ := projects'.answered suspended allowed taken
            rw [continues]
            exact ⟨part, reached, projects.runTask_of_ne own
              (Function.update_of_ne (Ne.symm own) _ _) (projects.unstarted own suspended)⟩
      | @ambient change states taken =>
          obtain ⟨other, change⟩ := change
          obtain ⟨state, moved, rfl⟩ := Option.map_eq_some_iff.mp taken
          by_cases own : other = index
          · subst own
            have taken' : service.ambient change part.state = some state := by
              rw [projects.state]
              exact moved
            exact ⟨{ part with state := state }, reached.step (.ambient taken'),
              (Function.update_self other state before.state).symm, projects.started,
              projects.foreign⟩
          · refine ⟨part, reached, ?_, projects.started, projects.foreign⟩
            exact projects.state.trans (Function.update_of_ne (Ne.symm own) _ _).symm
      | restart =>
          exact ⟨_, reached.step .restart, congrArg service.restart projects.state, nofun, nofun⟩

/-- A step of the family that is not one of a task is such a step of one component,
and leaves the others alone. -/
theorem Foreign.project {task : TaskId}
    (reached : Reachable service.family policy.family
      (fun states => ∀ index : Index, initial (states index)) whole)
    (foreign : Foreign service.family policy.family task whole whole') (index : Index) :
    (∃ part part', Reachable service policy initial part ∧ part.state = whole.state index ∧
      Foreign service policy task part part' ∧ part'.state = whole'.state index) ∨
    whole'.state index = whole.state index := by
  cases foreign with
  | spawn other request different unused =>
      obtain ⟨place, request⟩ := request
      obtain ⟨part, reached', projects⟩ := reached.project place
      by_cases own : place = index
      · subst own
        exact .inl ⟨part, _, reached', projects.state,
          .spawn other request different (projects.unused unused),
          (projects.runTask projects.state.symm).state⟩
      · obtain ⟨part, _, projects⟩ := reached.project index
        exact .inr ((projects.runTask_of_ne own rfl (projects.unused unused)).state.symm.trans
          projects.state)
  | @resume other request call β act next event b states different suspended allowed taken =>
      obtain ⟨place, request⟩ := request
      obtain ⟨part, reached', projects⟩ := reached.project place
      obtain ⟨inner, rest, state, running, allowed', stepped, rfl, continues⟩ :=
        projects.answered suspended allowed taken
      rw [continues]
      by_cases own : place = index
      · subst own
        exact .inl ⟨part, _, reached', projects.state, .resume different running allowed' stepped,
          (projects.runTask (Function.update_self _ _ _)).state⟩
      · obtain ⟨part, _, projects⟩ := reached.project index
        exact .inr ((projects.runTask_of_ne own (Function.update_of_ne (Ne.symm own) _ _)
          (projects.unstarted own suspended)).state.symm.trans projects.state)
  | @ambient change states taken =>
      obtain ⟨place, change⟩ := change
      obtain ⟨state, moved, rfl⟩ := Option.map_eq_some_iff.mp taken
      by_cases own : place = index
      · subst own
        obtain ⟨part, reached', projects⟩ := reached.project place
        have taken' : service.ambient change part.state = some state := by
          rw [projects.state]
          exact moved
        exact .inl ⟨part, _, reached', projects.state, .ambient taken',
          (Function.update_self place state whole.state).symm⟩
      · exact .inr (Function.update_of_ne (Ne.symm own) _ _)

end Project

end Concord.Asyncio

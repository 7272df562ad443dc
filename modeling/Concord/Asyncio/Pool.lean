import Mathlib.Logic.Function.Basic
import Mathlib.Logic.Relation
import Concord.Asyncio.Coroutine

/-!
Contract: the tasks of one process and their interleavings.

Owns:
- `Service`, the coroutines that requests start, the changes the outside world
  makes on its own, and what a crash leaves behind;
- `Step` and `Reachable`, every interleaving of the tasks under a policy on the
  events that may occur;
- `play`, the executable run of one schedule, and its soundness.

Does not own: which invariants hold of a service.
-/

set_option autoImplicit false

namespace Concord.Asyncio

structure Service (S Event Call Exn Request Ambient : Type) where
  /-- The coroutine that a task runs for a request. -/
  handler : Request → TaskId → Coroutine S Event Call Exn Unit
  /-- A change that no task of the process makes: the clock, a remote peer. -/
  ambient : Ambient → S → Option S
  /-- What a crash and a new start leave of the state. -/
  restart : S → S

/-- A policy: whether `event` may answer `call`, awaited for a request. -/
abbrev Policy (S Event Call Request : Type) := Request → S → Call → Event → Prop

def anyEvent {S Event Call Request : Type} : Policy S Event Call Request :=
  fun _ _ _ _ => True

/-- The shared state and the tasks. A task keeps its request; a finished task
stays in the pool, so that its identity is not used again. -/
structure Pool (S Event Call Exn Request : Type) where
  state : S
  tasks : TaskId → Option (Request × Coroutine S Event Call Exn Unit)

namespace Pool

variable {S Event Call Exn Request : Type}

/-- Task `task` runs `program` from `state` up to its next suspension. -/
def runTask (pool : Pool S Event Call Exn Request) (task : TaskId) (request : Request)
    (program : Coroutine S Event Call Exn Unit) (state : S) : Pool S Event Call Exn Request :=
  let settled := program.settle state
  ⟨settled.2, Function.update pool.tasks task (some (request, settled.1))⟩

def start (state : S) : Pool S Event Call Exn Request := ⟨state, fun _ => none⟩

end Pool

variable {S Event Call Exn Request Ambient : Type}

/-- One step of the process: a request arrives, an awaited call answers, the
outside world changes the state, or the process crashes and starts again. -/
inductive Step (service : Service S Event Call Exn Request Ambient)
    (policy : Policy S Event Call Request) :
    Pool S Event Call Exn Request → Pool S Event Call Exn Request → Prop where
  | spawn {pool} (task : TaskId) (request : Request) (unused : pool.tasks task = none) :
      Step service policy pool
        (pool.runTask task request (service.handler request task) pool.state)
  | resume {pool task request call β} {act : Event → S → Option (β × S)} {next event b state}
      (suspended : pool.tasks task = some (request, .await call act next))
      (allowed : policy request pool.state call event)
      (taken : act event pool.state = some (b, state)) :
      Step service policy pool (pool.runTask task request (next b) state)
  | ambient {pool change state} (taken : service.ambient change pool.state = some state) :
      Step service policy pool { pool with state := state }
  | restart {pool} : Step service policy pool (Pool.start (service.restart pool.state))

/-- The pools of all runs from an initial state. -/
inductive Reachable (service : Service S Event Call Exn Request Ambient)
    (policy : Policy S Event Call Request) (initial : S → Prop) :
    Pool S Event Call Exn Request → Prop where
  | start {state} (holds : initial state) : Reachable service policy initial (Pool.start state)
  | step {before after} (reached : Reachable service policy initial before)
      (next : Step service policy before after) : Reachable service policy initial after

/-- A weaker policy allows more runs. -/
theorem Reachable.mono {service : Service S Event Call Exn Request Ambient}
    {strict loose : Policy S Event Call Request} {initial : S → Prop}
    (weaker : ∀ request state call event,
      strict request state call event → loose request state call event)
    {pool : Pool S Event Call Exn Request} (reached : Reachable service strict initial pool) :
    Reachable service loose initial pool := by
  induction reached with
  | start holds => exact .start holds
  | step _ next inductionHypothesis =>
      refine .step inductionHypothesis ?_
      cases next with
      | spawn task request unused => exact .spawn task request unused
      | resume suspended allowed taken =>
          exact .resume suspended (weaker _ _ _ _ allowed) taken
      | ambient taken => exact .ambient taken
      | restart => exact .restart

/-! ### Schedules -/

inductive Move (Event Request Ambient : Type) where
  | spawn (task : TaskId) (request : Request)
  | resume (task : TaskId) (event : Event)
  | ambient (change : Ambient)
  | restart

namespace Service

variable (service : Service S Event Call Exn Request Ambient)
  (permits : Request → S → Call → Event → Bool)

/-- Resume a suspended coroutine with an event that is permitted. -/
def answer (request : Request) (program : Coroutine S Event Call Exn Unit) (event : Event)
    (state : S) : Option (Coroutine S Event Call Exn Unit × S) :=
  match program with
  | .await call act next =>
      if permits request state call event then
        (act event state).map fun (b, state) => (next b, state)
      else none
  | _ => none

/-- The pool after one move, or `none` when the move is not possible. -/
def move : Move Event Request Ambient → Pool S Event Call Exn Request →
    Option (Pool S Event Call Exn Request)
  | .spawn task request, pool =>
      match pool.tasks task with
      | none => some (pool.runTask task request (service.handler request task) pool.state)
      | some _ => none
  | .resume task event, pool =>
      match pool.tasks task with
      | none => none
      | some (request, program) =>
          (answer permits request program event pool.state).map fun (program, state) =>
            pool.runTask task request program state
  | .ambient change, pool =>
      (service.ambient change pool.state).map fun state => { pool with state := state }
  | .restart, pool => some (Pool.start (service.restart pool.state))

def play (schedule : List (Move Event Request Ambient)) (pool : Pool S Event Call Exn Request) :
    Option (Pool S Event Call Exn Request) :=
  match schedule with
  | [] => some pool
  | first :: rest => (service.move permits first pool).bind (play rest)

variable {service permits} {policy : Policy S Event Call Request}

/-- A task that is resumed was suspended. -/
theorem suspended_of_move {task : TaskId} {event : Event}
    {before after : Pool S Event Call Exn Request}
    (moved : service.move permits (.resume task event) before = some after) :
    ∃ request call, ∃ β : Type, ∃ act next,
      before.tasks task = some (request, .await (β := β) call act next) := by
  simp only [move] at moved
  split at moved
  · cases moved
  · next request program suspended =>
      cases program with
      | await call act next => exact ⟨request, call, _, act, next, suspended⟩
      | _ => cases moved

theorem resumed_of_move {task : TaskId} {event : Event} {request : Request} {call : Call}
    {β : Type} {act : Event → S → Option (β × S)} {next : β → Coroutine S Event Call Exn Unit}
    {before after : Pool S Event Call Exn Request}
    (suspended : before.tasks task = some (request, .await call act next))
    (moved : service.move permits (.resume task event) before = some after) :
    ∃ b state, permits request before.state call event = true ∧
      act event before.state = some (b, state) ∧
        after = before.runTask task request (next b) state := by
  simp only [move, suspended, answer] at moved
  split at moved
  · next allowed =>
      simp only [Option.map_map, Option.map_eq_some_iff] at moved
      obtain ⟨⟨b, state⟩, taken, rfl⟩ := moved
      exact ⟨b, state, allowed, taken, rfl⟩
  · cases moved

theorem step_of_move
    (permitted : ∀ request state call event,
      permits request state call event = true → policy request state call event)
    {chosen : Move Event Request Ambient} {before after : Pool S Event Call Exn Request}
    (moved : service.move permits chosen before = some after) :
    Step service policy before after := by
  cases chosen with
  | spawn task request =>
      simp only [move] at moved
      split at moved
      · next unused =>
          obtain rfl := Option.some.inj moved
          exact .spawn task request unused
      · cases moved
  | resume task event =>
      obtain ⟨request, call, β, act, next, suspended⟩ := suspended_of_move moved
      obtain ⟨b, state, allowed, taken, rfl⟩ := resumed_of_move suspended moved
      exact .resume suspended (permitted _ _ _ _ allowed) taken
  | ambient change =>
      simp only [move, Option.map_eq_some_iff] at moved
      obtain ⟨state, taken, rfl⟩ := moved
      exact .ambient taken
  | restart =>
      obtain rfl := Option.some.inj moved
      exact .restart

/-- Every schedule that can be played is a run. -/
theorem reachable_of_play
    (permitted : ∀ request state call event,
      permits request state call event = true → policy request state call event)
    {initial : S → Prop} {schedule : List (Move Event Request Ambient)}
    {before after : Pool S Event Call Exn Request}
    (reached : Reachable service policy initial before)
    (played : service.play permits schedule before = some after) :
    Reachable service policy initial after := by
  induction schedule generalizing before with
  | nil =>
      obtain rfl := Option.some.inj played
      exact reached
  | cons first rest inductionHypothesis =>
      simp only [play, Option.bind_eq_some_iff] at played
      obtain ⟨middle, moved, played⟩ := played
      exact inductionHypothesis (reached.step (step_of_move permitted moved)) played

/-- A schedule that can be played is a path of the pools. -/
theorem steps_of_play
    (permitted : ∀ request state call event,
      permits request state call event = true → policy request state call event)
    {schedule : List (Move Event Request Ambient)} {before after : Pool S Event Call Exn Request}
    (played : service.play permits schedule before = some after) :
    Relation.ReflTransGen (Step service policy) before after := by
  induction schedule generalizing before with
  | nil =>
      obtain rfl := Option.some.inj played
      exact .refl
  | cons first rest inductionHypothesis =>
      simp only [play, Option.bind_eq_some_iff] at played
      obtain ⟨middle, moved, played⟩ := played
      exact .head (step_of_move permitted moved) (inductionHypothesis played)

/-- A task that a move does not start is not there after it. -/
theorem unused_of_move {task : TaskId} {chosen : Move Event Request Ambient}
    {before after : Pool S Event Call Exn Request}
    (unstarted : ∀ request, chosen ≠ .spawn task request) (unused : before.tasks task = none)
    (moved : service.move permits chosen before = some after) : after.tasks task = none := by
  have others : ∀ other request (program : Coroutine S Event Call Exn Unit) state, task ≠ other →
      (before.runTask other request program state).tasks task = none := by
    intro other request program state different
    simp only [Pool.runTask, Function.update_of_ne different]
    exact unused
  cases chosen with
  | spawn other request =>
      have different : task ≠ other := fun same => unstarted request (same ▸ rfl)
      simp only [move] at moved
      split at moved
      · obtain rfl := Option.some.inj moved
        exact others other request _ _ different
      · cases moved
  | resume other event =>
      obtain ⟨request, call, β, act, next, suspended⟩ := suspended_of_move moved
      obtain ⟨b, state, _, _, rfl⟩ := resumed_of_move suspended moved
      have different : task ≠ other := by
        rintro rfl
        exact nomatch unused.symm.trans suspended
      exact others other request _ _ different
  | ambient change =>
      simp only [move, Option.map_eq_some_iff] at moved
      obtain ⟨state, _, rfl⟩ := moved
      exact unused
  | restart =>
      obtain rfl := Option.some.inj moved
      rfl

/-- A task that a schedule does not start is not there after it. -/
theorem unused_of_play {task : TaskId} {schedule : List (Move Event Request Ambient)}
    {before after : Pool S Event Call Exn Request}
    (unstarted : ∀ request, .spawn task request ∉ schedule) (unused : before.tasks task = none)
    (played : service.play permits schedule before = some after) : after.tasks task = none := by
  induction schedule generalizing before with
  | nil =>
      obtain rfl := Option.some.inj played
      exact unused
  | cons first rest inductionHypothesis =>
      simp only [play, Option.bind_eq_some_iff] at played
      obtain ⟨middle, moved, played⟩ := played
      have absent : ∀ request, first ≠ .spawn task request :=
        fun request same => unstarted request (same ▸ List.mem_cons_self)
      exact inductionHypothesis
        (fun request member => unstarted request (List.mem_cons_of_mem _ member))
        (unused_of_move absent unused moved) played

end Service

/-- Every event may happen in a schedule. -/
def permitsAll {S Event Call Request : Type} : Request → S → Call → Event → Bool :=
  fun _ _ _ _ => true

end Concord.Asyncio

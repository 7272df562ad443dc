import Concord.Asyncio.RelyGuarantee

/-!
Contract: the complete runs of one task among the others.

Owns:
- `Runs`, the runs of one coroutine whose suspensions are filled by a relation
  on states, and their decomposition along sequences and handlers;
- `Stretch`, a part of a run of the process as one of its tasks sees it;
- `Stretch.runs`, which reads a stretch as a run of that task's coroutine, and
  `Reachable.relies`, which bounds what the other tasks did meanwhile;
- `driven` and `Service.follow`, the executable runs of a coroutine alone and of a
  task in a schedule.

A stretch has no crash: the task would not be there any more.
-/

set_option autoImplicit false

namespace Concord.Asyncio

/-- One resumption of a task: the call it waited for, the states at which it was
suspended and goes on, and the event. -/
structure Moment (S Event Call : Type) where
  call : Call
  before : S
  state : S
  event : Event

variable {S Event Call Exn : Type} {α β : Type}

/-- The runs of a coroutine to its end. The relation `env` is what the others do
to the state while it is suspended. -/
def Runs (env : S → S → Prop) : Coroutine S Event Call Exn α → S →
    List (Moment S Event Call) → Except Exn α → S → Prop
  | .ret value, start, trace, result, final => trace = [] ∧ result = .ok value ∧ final = start
  | .raise exn, start, trace, result, final => trace = [] ∧ result = .error exn ∧ final = start
  | .look next, start, trace, result, final => Runs env (next start) start trace result final
  | .sync update next, start, trace, result, final =>
      Runs env (next (update start).1) (update start).2 trace result final
  | .await call act next, start, trace, result, final =>
      ∃ state event b after rest, trace = ⟨call, start, state, event⟩ :: rest ∧ env start state ∧
        act event state = some (b, after) ∧ Runs env (next b) after rest result final

/-- The beginnings of the runs of a coroutine. -/
def Begins (env : S → S → Prop) : Coroutine S Event Call Exn α → S →
    List (Moment S Event Call) → Prop
  | .ret _, _, trace => trace = []
  | .raise _, _, trace => trace = []
  | .look next, start, trace => Begins env (next start) start trace
  | .sync update next, start, trace => Begins env (next (update start).1) (update start).2 trace
  | .await call act next, start, trace => trace = [] ∨
      ∃ state event b after rest, trace = ⟨call, start, state, event⟩ :: rest ∧ env start state ∧
        act event state = some (b, after) ∧ Begins env (next b) after rest

section Rules

variable {env : S → S → Prop} {start final : S} {trace : List (Moment S Event Call)}

theorem runs_pure {value : α} {result : Except Exn α}
    (runs : Runs env (pure value : Coroutine S Event Call Exn α) start trace result final) :
    trace = [] ∧ result = .ok value ∧ final = start := runs

theorem runs_throw {exn : Exn} {result : Except Exn α}
    (runs : Runs env (throw exn : Coroutine S Event Call Exn α) start trace result final) :
    trace = [] ∧ result = .error exn ∧ final = start := runs

theorem runs_get {result : Except Exn S}
    (runs : Runs env (get : Coroutine S Event Call Exn S) start trace result final) :
    trace = [] ∧ result = .ok start ∧ final = start := runs

theorem runs_atomic {method : S → Except Exn α × S} {result : Except Exn α}
    (runs : Runs env (Coroutine.atomic method : Coroutine S Event Call Exn α) start trace result
      final) :
    trace = [] ∧ result = (method start).1 ∧ final = (method start).2 := by
  rw [Coroutine.atomic, Runs] at runs
  cases answer : (method start).1 with
  | ok value =>
      rw [answer] at runs
      exact runs
  | error exn =>
      rw [answer] at runs
      exact runs

theorem runs_modifyGet {update : S → α × S} {result : Except Exn α}
    (runs : Runs env (modifyGet update : Coroutine S Event Call Exn α) start trace result final) :
    trace = [] ∧ result = .ok (update start).1 ∧ final = (update start).2 := runs

/-- What follows an update runs from the updated state. -/
theorem runs_modify_bind {update : S → S} {rest : PUnit → Coroutine S Event Call Exn α}
    {result : Except Exn α}
    (runs : Runs env ((modify update : Coroutine S Event Call Exn PUnit) >>= rest) start trace result
      final) : Runs env (rest ⟨⟩) (update start) trace result final := runs

theorem runs_bind {first : Coroutine S Event Call Exn α} {rest : α → Coroutine S Event Call Exn β}
    {result : Except Exn β} (runs : Runs env (first >>= rest) start trace result final) :
    (∃ value middle earlier later, trace = earlier ++ later ∧
      Runs env first start earlier (.ok value) middle ∧
        Runs env (rest value) middle later result final) ∨
    ∃ exn, result = .error exn ∧ Runs env first start trace (.error exn) final := by
  change Runs env (first.bind rest) start trace result final at runs
  induction first generalizing start trace with
  | ret value => exact .inl ⟨value, start, [], trace, rfl, ⟨rfl, rfl, rfl⟩, runs⟩
  | raise exn => exact .inr ⟨exn, runs.2.1, runs.1, rfl, runs.2.2⟩
  | look next inductionHypothesis => exact inductionHypothesis _ runs
  | sync update next inductionHypothesis => exact inductionHypothesis _ runs
  | await call act next inductionHypothesis =>
      obtain ⟨state, event, b, after, others, rfl, framed, taken, runs⟩ := runs
      rcases inductionHypothesis b runs with
        ⟨value, middle, earlier, later, rfl, first, second⟩ | ⟨exn, raised, first⟩
      · exact .inl ⟨value, middle, _ :: earlier, later, rfl,
          ⟨state, event, b, after, earlier, rfl, framed, taken, first⟩, second⟩
      · exact .inr ⟨exn, raised, state, event, b, after, others, rfl, framed, taken, first⟩

/-- A sequence that returns has gone on with its second part. -/
theorem runs_bind_ok {first : Coroutine S Event Call Exn α} {rest : α → Coroutine S Event Call Exn β}
    {last : β} (runs : Runs env (first >>= rest) start trace (.ok last) final) :
    ∃ value middle earlier later, trace = earlier ++ later ∧
      Runs env first start earlier (.ok value) middle ∧
        Runs env (rest value) middle later (.ok last) final := by
  rcases runs_bind runs with returned | ⟨_, never, _⟩
  · exact returned
  · cases never

theorem runs_tryExcept {body : Coroutine S Event Call Exn α}
    {handler : Exn → Coroutine S Event Call Exn α} {result : Except Exn α}
    (runs : Runs env (body.tryExcept handler) start trace result final) :
    (∃ value, result = .ok value ∧ Runs env body start trace (.ok value) final) ∨
    ∃ exn middle earlier later, trace = earlier ++ later ∧
      Runs env body start earlier (.error exn) middle ∧
        Runs env (handler exn) middle later result final := by
  induction body generalizing start trace with
  | ret value => exact .inl ⟨value, runs.2.1, runs.1, rfl, runs.2.2⟩
  | raise exn => exact .inr ⟨exn, start, [], trace, rfl, ⟨rfl, rfl, rfl⟩, runs⟩
  | look next inductionHypothesis => exact inductionHypothesis _ runs
  | sync update next inductionHypothesis => exact inductionHypothesis _ runs
  | await call act next inductionHypothesis =>
      obtain ⟨state, event, b, after, others, rfl, framed, taken, runs⟩ := runs
      rcases inductionHypothesis b runs with
        ⟨value, returned, body⟩ | ⟨exn, middle, earlier, later, rfl, body, handled⟩
      · exact .inl ⟨value, returned, state, event, b, after, others, rfl, framed, taken, body⟩
      · exact .inr ⟨exn, middle, _ :: earlier, later, rfl,
          ⟨state, event, b, after, earlier, rfl, framed, taken, body⟩, handled⟩

/-- The result of `try: … finally: …`: an exception of the cleanup replaces the
result of the body. -/
def finalResult (body : Except Exn α) : Except Exn Unit → Except Exn α
  | .ok _ => body
  | .error exn => .error exn

/-- A cleanup before the end that its body has come to. -/
theorem runs_cleanup {cleanup : Coroutine S Event Call Exn Unit} {result : Except Exn α}
    (last : Coroutine S Event Call Exn α) (answer : Except Exn α)
    (ends : ∀ {state trace result final}, Runs env last state trace result final →
      trace = [] ∧ result = answer ∧ final = state)
    (runs : Runs env (cleanup >>= fun _ => last) start trace result final) :
    ∃ cleaned, Runs env cleanup start trace cleaned final ∧ result = finalResult answer cleaned := by
  rcases runs_bind runs with ⟨_, middle, earlier, later, rfl, first, rest⟩ | ⟨exn, rfl, first⟩
  · obtain ⟨rfl, rfl, rfl⟩ := ends rest
    rw [List.append_nil]
    exact ⟨.ok (), first, rfl⟩
  · exact ⟨.error exn, first, rfl⟩

theorem runs_tryFinally {body : Coroutine S Event Call Exn α}
    {cleanup : Coroutine S Event Call Exn Unit} {result : Except Exn α}
    (runs : Runs env (body.tryFinally cleanup) start trace result final) :
    ∃ answer cleaned middle earlier later, trace = earlier ++ later ∧
      Runs env body start earlier answer middle ∧ Runs env cleanup middle later cleaned final ∧
        result = finalResult answer cleaned := by
  induction body generalizing start trace with
  | ret value =>
      obtain ⟨cleaned, runs, same⟩ := runs_cleanup (.ret value) (.ok value) id runs
      exact ⟨.ok value, cleaned, start, [], trace, rfl, ⟨rfl, rfl, rfl⟩, runs, same⟩
  | raise exn =>
      obtain ⟨cleaned, runs, same⟩ := runs_cleanup (.raise exn) (.error exn) id runs
      exact ⟨.error exn, cleaned, start, [], trace, rfl, ⟨rfl, rfl, rfl⟩, runs, same⟩
  | look next inductionHypothesis => exact inductionHypothesis _ runs
  | sync update next inductionHypothesis => exact inductionHypothesis _ runs
  | await call act next inductionHypothesis =>
      obtain ⟨state, event, b, after, others, rfl, framed, taken, runs⟩ := runs
      obtain ⟨answer, cleaned, middle, earlier, later, rfl, body, last, same⟩ :=
        inductionHypothesis b runs
      exact ⟨answer, cleaned, middle, _ :: earlier, later, rfl,
        ⟨state, event, b, after, earlier, rfl, framed, taken, body⟩, last, same⟩

/-- A body with a cleanup that only updates the state. -/
theorem runs_tryFinally_modify {body : Coroutine S Event Call Exn α} {update : S → S}
    {result : Except Exn α}
    (runs : Runs env (body.tryFinally (modify update)) start trace result final) :
    ∃ last, Runs env body start trace result last ∧ final = update last := by
  induction body generalizing start trace with
  | ret value => exact ⟨start, ⟨runs.1, runs.2.1, rfl⟩, runs.2.2⟩
  | raise exn => exact ⟨start, ⟨runs.1, runs.2.1, rfl⟩, runs.2.2⟩
  | look next inductionHypothesis => exact inductionHypothesis _ runs
  | sync update next inductionHypothesis => exact inductionHypothesis _ runs
  | await call act next inductionHypothesis =>
      obtain ⟨state, event, b, after, others, rfl, framed, taken, runs⟩ := runs
      obtain ⟨last, body, rfl⟩ := inductionHypothesis b runs
      exact ⟨last, ⟨state, event, b, after, others, rfl, framed, taken, body⟩, rfl⟩

theorem runs_awaitCall {call : Call} {act : Event → S → Option (Except Exn α × S)}
    {result : Except Exn α}
    (runs : Runs env (Coroutine.awaitCall call act) start trace result final) :
    ∃ state event, trace = [⟨call, start, state, event⟩] ∧ env start state ∧
      act event state = some (result, final) := by
  obtain ⟨state, event, answer, after, others, rfl, framed, taken, runs⟩ := runs
  cases answer with
  | ok value =>
      obtain ⟨rfl, rfl, rfl⟩ := runs
      exact ⟨state, event, rfl, framed, taken⟩
  | error exn =>
      obtain ⟨rfl, rfl, rfl⟩ := runs
      exact ⟨state, event, rfl, framed, taken⟩

theorem runs_awaitUntil {call : Call} {act : S → Option (α × S)} {result : Except Exn α}
    (runs : Runs env (Coroutine.awaitUntil call act : Coroutine S Event Call Exn α) start trace
      result final) :
    ∃ state event value, trace = [⟨call, start, state, event⟩] ∧ env start state ∧
      act state = some (value, final) ∧ result = .ok value := by
  obtain ⟨state, event, value, after, others, rfl, framed, taken, rfl, rfl, rfl⟩ := runs
  exact ⟨state, event, value, rfl, framed, taken, rfl⟩

theorem begins_nil (program : Coroutine S Event Call Exn α) : Begins env program start [] := by
  induction program generalizing start with
  | ret value => rfl
  | raise exn => rfl
  | look next inductionHypothesis => exact inductionHypothesis _
  | sync update next inductionHypothesis => exact inductionHypothesis _
  | await call act next => exact .inl rfl

/-- A sequence has begun with its first part, or goes on with the second. -/
theorem begins_bind {first : Coroutine S Event Call Exn α} {rest : α → Coroutine S Event Call Exn β}
    (begins : Begins env (first >>= rest) start trace) :
    Begins env first start trace ∨
      ∃ value middle earlier later, trace = earlier ++ later ∧
        Runs env first start earlier (.ok value) middle ∧ Begins env (rest value) middle later := by
  change Begins env (first.bind rest) start trace at begins
  induction first generalizing start trace with
  | ret value => exact .inr ⟨value, start, [], trace, rfl, ⟨rfl, rfl, rfl⟩, begins⟩
  | raise exn => exact .inl begins
  | look next inductionHypothesis => exact inductionHypothesis _ begins
  | sync update next inductionHypothesis => exact inductionHypothesis _ begins
  | await call act next inductionHypothesis =>
      rcases begins with rfl | ⟨state, event, b, after, others, rfl, framed, taken, begins⟩
      · exact .inl (.inl rfl)
      · rcases inductionHypothesis b begins with first | ⟨value, middle, earlier, later, rfl, first, second⟩
        · exact .inl (.inr ⟨state, event, b, after, others, rfl, framed, taken, first⟩)
        · exact .inr ⟨value, middle, _ :: earlier, later, rfl,
            ⟨state, event, b, after, earlier, rfl, framed, taken, first⟩, second⟩

/-- The moments of a coroutine are at the calls that it waits for. -/
theorem begins_awaits {calls : Call → Prop} {program : Coroutine S Event Call Exn α}
    (awaits : program.Awaits calls) (begins : Begins env program start trace) :
    ∀ moment ∈ trace, calls moment.call := by
  induction program generalizing start trace with
  | ret value =>
      obtain rfl : trace = [] := begins
      exact List.forall_mem_nil _
  | raise exn =>
      obtain rfl : trace = [] := begins
      exact List.forall_mem_nil _
  | look next inductionHypothesis => exact inductionHypothesis _ (awaits _) begins
  | sync update next inductionHypothesis => exact inductionHypothesis _ (awaits _) begins
  | await call act next inductionHypothesis =>
      rcases begins with rfl | ⟨state, event, b, after, others, rfl, framed, taken, begins⟩
      · exact List.forall_mem_nil _
      · exact List.forall_mem_cons.mpr ⟨awaits.1, inductionHypothesis b (awaits.2 b) begins⟩

/-- A run to the end begins. -/
theorem begins_of_runs {program : Coroutine S Event Call Exn α} {result : Except Exn α}
    (runs : Runs env program start trace result final) : Begins env program start trace := by
  induction program generalizing start trace with
  | ret value => exact runs.1
  | raise exn => exact runs.1
  | look next inductionHypothesis => exact inductionHypothesis _ runs
  | sync update next inductionHypothesis => exact inductionHypothesis _ runs
  | await call act next inductionHypothesis =>
      obtain ⟨state, event, b, after, others, rfl, framed, taken, runs⟩ := runs
      exact .inr ⟨state, event, b, after, others, rfl, framed, taken, inductionHypothesis b runs⟩

theorem begins_settle {program : Coroutine S Event Call Exn α}
    (begins : Begins env (program.settle start).1 (program.settle start).2 trace) :
    Begins env program start trace := by
  induction program generalizing start with
  | ret value => exact begins
  | raise exn => exact begins
  | look next inductionHypothesis => exact inductionHypothesis _ begins
  | sync update next inductionHypothesis => exact inductionHypothesis _ begins
  | await call act next => exact begins

/-- A run goes on from the next suspension. -/
theorem runs_settle {program : Coroutine S Event Call Exn α} {result : Except Exn α}
    (runs : Runs env (program.settle start).1 (program.settle start).2 trace result final) :
    Runs env program start trace result final := by
  induction program generalizing start with
  | ret value => exact runs
  | raise exn => exact runs
  | look next inductionHypothesis => exact inductionHypothesis _ runs
  | sync update next inductionHypothesis => exact inductionHypothesis _ runs
  | await call act next => exact runs

/-- The run of a coroutine alone, with its moments: each suspension takes the next
event of the list. -/
def driven : Coroutine S Event Call Exn α → List Event → S →
    Option (List (Moment S Event Call) × Except Exn α × S)
  | .ret value, _, state => some ([], .ok value, state)
  | .raise exn, _, state => some ([], .error exn, state)
  | .look next, events, state => driven (next state) events state
  | .sync update next, events, state => driven (next (update state).1) events (update state).2
  | .await _ _ _, [], _ => none
  | .await call act next, event :: events, state =>
      (act event state).bind fun (b, after) =>
        (driven (next b) events after).map fun (rest, result, final) =>
          (⟨call, state, state, event⟩ :: rest, result, final)

/-- A coroutine that is alone runs among others that may do nothing. -/
theorem runs_of_driven (refl : ∀ state, env state state) {program : Coroutine S Event Call Exn α}
    {events : List Event} {result : Except Exn α}
    (drives : driven program events start = some (trace, result, final)) :
    Runs env program start trace result final := by
  induction program generalizing events start trace with
  | ret value =>
      obtain ⟨rfl, rfl, rfl⟩ := Option.some.inj drives
      exact ⟨rfl, rfl, rfl⟩
  | raise exn =>
      obtain ⟨rfl, rfl, rfl⟩ := Option.some.inj drives
      exact ⟨rfl, rfl, rfl⟩
  | look next inductionHypothesis => exact inductionHypothesis _ drives
  | sync update next inductionHypothesis => exact inductionHypothesis _ drives
  | await call act next inductionHypothesis =>
      cases events with
      | nil => cases drives
      | cons event events =>
          obtain ⟨⟨b, after⟩, taken, drives⟩ := Option.bind_eq_some_iff.mp drives
          obtain ⟨⟨rest, result', final'⟩, rested, same⟩ := Option.map_eq_some_iff.mp drives
          simp only [Prod.mk.injEq] at same
          obtain ⟨rfl, rfl, rfl⟩ := same
          exact ⟨start, event, b, after, rest, rfl, refl start, taken, inductionHypothesis b rested⟩

end Rules

/-! ### Stretches of a run -/

variable {Request Ambient Ghost : Type} {service : Service S Event Call Exn Request Ambient}
  {policy : Policy S Event Call Request} {task : TaskId}

/-- A step that is not one of `task`. -/
inductive Foreign (service : Service S Event Call Exn Request Ambient)
    (policy : Policy S Event Call Request) (task : TaskId) :
    Pool S Event Call Exn Request → Pool S Event Call Exn Request → Prop where
  | spawn {pool} (other : TaskId) (request : Request) (different : other ≠ task)
      (unused : pool.tasks other = none) :
      Foreign service policy task pool
        (pool.runTask other request (service.handler request other) pool.state)
  | resume {pool other request call β} {act : Event → S → Option (β × S)} {next event b state}
      (different : other ≠ task) (suspended : pool.tasks other = some (request, .await call act next))
      (allowed : policy request pool.state call event)
      (taken : act event pool.state = some (b, state)) :
      Foreign service policy task pool (pool.runTask other request (next b) state)
  | ambient {pool change state} (taken : service.ambient change pool.state = some state) :
      Foreign service policy task pool { pool with state := state }

theorem Foreign.step {pool middle : Pool S Event Call Exn Request}
    (foreign : Foreign service policy task pool middle) : Step service policy pool middle := by
  cases foreign with
  | spawn other request different unused => exact .spawn other request unused
  | resume different suspended allowed taken => exact .resume suspended allowed taken
  | ambient taken => exact .ambient taken

/-- Every step but a crash is one that some task sees another task or the outside make. -/
theorem Step.foreign_or_restart {pool next : Pool S Event Call Exn Request}
    (step : Step service policy pool next) :
    (∃ task, Foreign service policy task pool next) ∨
      next = Pool.start (service.restart pool.state) := by
  cases step with
  | spawn other request unused =>
      exact .inl ⟨other + 1, .spawn other request (Nat.succ_ne_self other).symm unused⟩
  | @resume other request call β act next event b state suspended allowed taken =>
      exact .inl ⟨other + 1, .resume (Nat.succ_ne_self other).symm suspended allowed taken⟩
  | ambient taken => exact .inl ⟨0, .ambient taken⟩
  | restart => exact .inr rfl

theorem Foreign.tasks {pool middle : Pool S Event Call Exn Request}
    (foreign : Foreign service policy task pool middle) : middle.tasks task = pool.tasks task := by
  cases foreign with
  | spawn other request different unused => exact Function.update_of_ne different.symm _ _
  | resume different suspended allowed taken => exact Function.update_of_ne different.symm _ _
  | ambient taken => rfl

/-- A stretch of a run: `since` is the state at which `task` was suspended last,
and the list has its resumptions. -/
inductive Stretch (service : Service S Event Call Exn Request Ambient)
    (policy : Policy S Event Call Request) (task : TaskId) :
    S → Pool S Event Call Exn Request → List (Moment S Event Call) →
      S → Pool S Event Call Exn Request → Prop where
  | stop {since pool} : Stretch service policy task since pool [] since pool
  | foreign {since pool middle trace final last}
      (step : Foreign service policy task pool middle)
      (rest : Stretch service policy task since middle trace final last) :
      Stretch service policy task since pool trace final last
  | own {since pool request call β} {act : Event → S → Option (β × S)}
      {next event b state trace final last}
      (suspended : pool.tasks task = some (request, .await call act next))
      (allowed : policy request pool.state call event)
      (taken : act event pool.state = some (b, state))
      (rest : Stretch service policy task (pool.runTask task request (next b) state).state
        (pool.runTask task request (next b) state) trace final last) :
      Stretch service policy task since pool (⟨call, since, pool.state, event⟩ :: trace) final last

/-- A stretch goes on where it was left. -/
theorem Stretch.trans {since between final : S} {pool middle last : Pool S Event Call Exn Request}
    {earlier later : List (Moment S Event Call)}
    (first : Stretch service policy task since pool earlier between middle)
    (second : Stretch service policy task between middle later final last) :
    Stretch service policy task since pool (earlier ++ later) final last := by
  induction first with
  | stop => exact second
  | foreign step rest inductionHypothesis => exact .foreign step (inductionHypothesis second)
  | own suspended allowed taken rest inductionHypothesis =>
      exact .own suspended allowed taken (inductionHypothesis second)

theorem Stretch.reachable {initial : S → Prop} {since final : S}
    {pool last : Pool S Event Call Exn Request} {trace : List (Moment S Event Call)}
    (stretch : Stretch service policy task since pool trace final last)
    (reached : Reachable service policy initial pool) :
    Reachable service policy initial last := by
  induction stretch with
  | stop => exact reached
  | foreign step rest inductionHypothesis => exact inductionHypothesis (reached.step step.step)
  | own suspended allowed taken rest inductionHypothesis =>
      exact inductionHypothesis (reached.step (.resume suspended allowed taken))

/-- A task in a pool has come there by a stretch from its start. -/
theorem Reachable.stretch {initial : S → Prop} {pool : Pool S Event Call Exn Request}
    {request : Request} {program : Coroutine S Event Call Exn Unit}
    (reached : Reachable service policy initial pool)
    (running : pool.tasks task = some (request, program)) :
    ∃ start trace final, Reachable service policy initial start ∧ start.tasks task = none ∧
      Stretch service policy task
        (start.runTask task request (service.handler request task) start.state).state
        (start.runTask task request (service.handler request task) start.state) trace final pool := by
  induction reached generalizing program with
  | start holds => cases running
  | @step before after reached next inductionHypothesis =>
      -- A step that is not one of the task goes on with its stretch.
      have foreign : Foreign service policy task before after → ∃ start trace final,
          Reachable service policy initial start ∧ start.tasks task = none ∧
            Stretch service policy task
              (start.runTask task request (service.handler request task) start.state).state
              (start.runTask task request (service.handler request task) start.state) trace final
              after := by
        intro step
        obtain ⟨start, trace, final, began, unused, stretch⟩ :=
          inductionHypothesis (step.tasks.symm.trans running)
        exact ⟨start, trace ++ [], final, began, unused, stretch.trans (.foreign step .stop)⟩
      cases next with
      | spawn other request' unused =>
          by_cases same : other = task
          · subst same
            simp only [Pool.runTask, Function.update_self] at running
            obtain ⟨rfl, _⟩ := Prod.mk.inj (Option.some.inj running)
            exact ⟨before, [], _, reached, unused, .stop⟩
          · exact foreign (.spawn other request' same unused)
      | @resume other request' call β act next event b state suspended allowed taken =>
          by_cases same : other = task
          · subst same
            simp only [Pool.runTask, Function.update_self] at running
            obtain ⟨rfl, _⟩ := Prod.mk.inj (Option.some.inj running)
            obtain ⟨start, trace, final, began, unused, stretch⟩ := inductionHypothesis suspended
            exact ⟨start, _, _, began, unused, stretch.trans (.own suspended allowed taken .stop)⟩
          · exact foreign (.resume same suspended allowed taken)
      | ambient taken => exact foreign (.ambient taken)
      | restart => cases running

def Pool.outcome (pool : Pool S Event Call Exn Request) (task : TaskId) : Option (Except Exn Unit) :=
  match pool.tasks task with
  | some (_, .ret value) => some (.ok value)
  | some (_, .raise exn) => some (.error exn)
  | _ => none

/-- A task that has ended has the fact of its end. -/
theorem TaskVerified.ended {Ghost : Type} {logic : Logic Ghost S Call} {ghost : Ghost}
    {pool : Pool S Event Call Exn Request} (verified : TaskVerified logic policy pool ghost task)
    (ended : (pool.outcome task).isSome) : logic.done task ghost pool.state := by
  unfold Pool.outcome at ended
  unfold TaskVerified at verified
  cases running : pool.tasks task with
  | none =>
      rw [running] at ended
      cases ended
  | some started =>
      obtain ⟨request, program⟩ := started
      rw [running] at ended verified
      cases program with
      | ret value => exact verified.2.2
      | raise exn => exact verified.2.2
      | look next => cases ended
      | sync update next => cases ended
      | await call act next => cases ended

theorem Pool.runs_of_outcome {env : S → S → Prop} {start : S}
    {pool : Pool S Event Call Exn Request} {result : Except Exn Unit}
    (ended : pool.outcome task = some result) {request : Request}
    {program : Coroutine S Event Call Exn Unit}
    (running : pool.tasks task = some (request, program)) :
    Runs env program start [] result start := by
  unfold Pool.outcome at ended
  rw [running] at ended
  cases program with
  | ret value => exact ⟨rfl, (Option.some.inj ended).symm, rfl⟩
  | raise exn => exact ⟨rfl, (Option.some.inj ended).symm, rfl⟩
  | look next => cases ended
  | sync update next => cases ended
  | await call act next => cases ended

/-- A stretch to the end of a task is a run of its coroutine. -/
theorem Stretch.runs {env : S → S → Prop} {initial : S → Prop} (refl : ∀ state, env state state)
    (trans : ∀ {first second third}, env first second → env second third → env first third)
    (framed : ∀ {pool middle}, Reachable service policy initial pool →
      Foreign service policy task pool middle → env pool.state middle.state)
    {since final : S} {pool last : Pool S Event Call Exn Request}
    {trace : List (Moment S Event Call)} {result : Except Exn Unit}
    (stretch : Stretch service policy task since pool trace final last)
    (ended : last.outcome task = some result) (reached : Reachable service policy initial pool)
    (waited : env since pool.state) {request : Request} {program : Coroutine S Event Call Exn Unit}
    (running : pool.tasks task = some (request, program)) :
    Runs env program since trace result final := by
  induction stretch generalizing request program with
  | stop => exact Pool.runs_of_outcome ended running
  | foreign step rest inductionHypothesis =>
      exact inductionHypothesis ended (reached.step step.step)
        (trans waited (framed reached step)) (step.tasks.trans running)
  | @own since pool request' call β act next event b state trace final last
      suspended allowed taken rest inductionHypothesis =>
      obtain ⟨rfl, rfl⟩ := Prod.mk.inj (Option.some.inj (running.symm.trans suspended))
      have resumed : Step service policy pool (pool.runTask task request (next b) state) :=
        .resume suspended allowed taken
      have later := inductionHypothesis ended (reached.step resumed) (refl _)
        (Function.update_self _ _ _)
      exact ⟨pool.state, event, b, state, trace, rfl, waited, taken, runs_settle later⟩

/-- What holds in every reachable pool holds where the task goes on. -/
theorem Stretch.runs_within {good : S → Prop} {initial : S → Prop}
    (holds : ∀ {pool : Pool S Event Call Exn Request},
      Reachable service policy initial pool → good pool.state)
    {since final : S} {pool last : Pool S Event Call Exn Request}
    {trace : List (Moment S Event Call)} {result : Except Exn Unit}
    (stretch : Stretch service policy task since pool trace final last)
    (ended : last.outcome task = some result) (reached : Reachable service policy initial pool)
    {request : Request} {program : Coroutine S Event Call Exn Unit}
    (running : pool.tasks task = some (request, program)) :
    Runs (fun _ state => good state) program since trace result final := by
  induction stretch generalizing request program with
  | stop => exact Pool.runs_of_outcome ended running
  | foreign step rest inductionHypothesis =>
      exact inductionHypothesis ended (reached.step step.step) (step.tasks.trans running)
  | @own since pool request' call β act next event b state trace final last
      suspended allowed taken rest inductionHypothesis =>
      obtain ⟨rfl, rfl⟩ := Prod.mk.inj (Option.some.inj (running.symm.trans suspended))
      have resumed : Step service policy pool (pool.runTask task request (next b) state) :=
        .resume suspended allowed taken
      have later := inductionHypothesis ended (reached.step resumed) (Function.update_self _ _ _)
      exact ⟨pool.state, event, b, state, trace, rfl, holds reached, taken, runs_settle later⟩

/-- A stretch is the beginning of a run of the task's coroutine. -/
theorem Stretch.begins {env : S → S → Prop} {initial : S → Prop} (refl : ∀ state, env state state)
    (trans : ∀ {first second third}, env first second → env second third → env first third)
    (framed : ∀ {pool middle}, Reachable service policy initial pool →
      Foreign service policy task pool middle → env pool.state middle.state)
    {since final : S} {pool last : Pool S Event Call Exn Request}
    {trace : List (Moment S Event Call)}
    (stretch : Stretch service policy task since pool trace final last)
    (reached : Reachable service policy initial pool) (waited : env since pool.state)
    {request : Request} {program : Coroutine S Event Call Exn Unit}
    (running : pool.tasks task = some (request, program)) : Begins env program since trace := by
  induction stretch generalizing request program with
  | stop => exact begins_nil program
  | foreign step rest inductionHypothesis =>
      exact inductionHypothesis (reached.step step.step) (trans waited (framed reached step))
        (step.tasks.trans running)
  | @own since pool request' call β act next event b state trace final last
      suspended allowed taken rest inductionHypothesis =>
      obtain ⟨rfl, rfl⟩ := Prod.mk.inj (Option.some.inj (running.symm.trans suspended))
      have resumed : Step service policy pool (pool.runTask task request (next b) state) :=
        .resume suspended allowed taken
      have later := inductionHypothesis (reached.step resumed) (refl _) (Function.update_self _ _ _)
      exact .inr ⟨pool.state, event, b, state, trace, rfl, waited, taken, begins_settle later⟩

/-- What every step keeps relates the states of a stretch in their order. -/
theorem Stretch.ordered {order : S → S → Prop} {initial : S → Prop}
    (refl : ∀ state, order state state)
    (trans : ∀ {first second third}, order first second → order second third → order first third)
    (steps : ∀ {observer pool middle}, Reachable service policy initial pool →
      Foreign service policy observer pool middle → order pool.state middle.state)
    {since final : S} {pool last : Pool S Event Call Exn Request}
    {trace : List (Moment S Event Call)}
    (stretch : Stretch service policy task since pool trace final last)
    (reached : Reachable service policy initial pool) :
    (∀ moment ∈ trace, order pool.state moment.state) ∧
      trace.Pairwise fun first second => order first.state second.state := by
  induction stretch with
  | stop => exact ⟨List.forall_mem_nil _, .nil⟩
  | foreign step rest inductionHypothesis =>
      obtain ⟨after, pairwise⟩ := inductionHypothesis (reached.step step.step)
      exact ⟨fun moment member => trans (steps reached step) (after moment member), pairwise⟩
  | @own since pool request call β act next event b state trace final last
      suspended allowed taken rest inductionHypothesis =>
      -- Another task sees the step as one that is not its own.
      have seen : Foreign service policy (task + 1) pool (pool.runTask task request (next b) state) :=
        .resume (Nat.succ_ne_self task).symm suspended allowed taken
      obtain ⟨after, pairwise⟩ := inductionHypothesis (reached.step seen.step)
      have step := steps reached seen
      have later : ∀ moment ∈ trace, order pool.state moment.state :=
        fun moment member => trans step (after moment member)
      exact ⟨List.forall_mem_cons.mpr ⟨refl _, later⟩, .cons later pairwise⟩

/-- What the others do in one step is what their protocol lets `task` rely on. -/
theorem Reachable.relies {logic : Logic Ghost S Call} {initial : S → Prop} (lawful : logic.Lawful)
    (keeps : Keeps logic service policy initial)
    (known : ∀ {pool : Pool S Event Call Exn Request},
      Reachable service policy initial pool → logic.known pool.state)
    {pool middle : Pool S Event Call Exn Request} (reached : Reachable service policy initial pool)
    (foreign : Foreign service policy task pool middle) :
    ∃ ghost ghost', logic.rely task ghost pool.state ghost' middle.state := by
  obtain ⟨ghost, inv, tasks⟩ := reached.verified lawful keeps known
  have knownBefore := known reached
  cases foreign with
  | spawn other request different unused =>
      have fresh := tasks other
      simp only [TaskVerified, unused] at fresh
      obtain ⟨ghost', _, rely⟩ := wp_settle lawful (keeps.request inv knownBefore fresh)
      exact ⟨ghost, ghost', rely task different⟩
  | @resume other request call β act next event b state different suspended allowed taken =>
      have verified := tasks other
      simp only [TaskVerified, suspended] at verified
      obtain ⟨_, _, _, resumes⟩ := verified
      obtain ⟨ghost₁, guar, rest⟩ :=
        resumes _ _ (lawful.rely_refl _ _ _) inv knownBefore _ _ _ allowed taken
      obtain ⟨ghost', _, rely⟩ := wp_settle lawful rest
      exact ⟨ghost, ghost', lawful.rely_trans (lawful.guar_rely different guar) (rely task different)⟩
  | ambient taken =>
      obtain ⟨ghost', _, rely⟩ := keeps.ambient taken inv knownBefore
      exact ⟨ghost, ghost', rely task⟩

/-- What the proof keeps of every task through a step that is not one of `task`, which
may have a postcondition of its own. -/
theorem Foreign.meets {logic : Logic Ghost S Call} {initial : S → Prop} (lawful : logic.Lawful)
    (keeps : Keeps logic service policy initial) {post : TaskId → Request → Post Ghost S Exn Unit}
    (lasts : ∀ other request, Lasts logic other (post other request))
    (plain : ∀ other request, other ≠ task → post other request = logic.finished other)
    {pool middle : Pool S Event Call Exn Request} (foreign : Foreign service policy task pool middle)
    (known : logic.known pool.state) {ghost : Ghost} (inv : logic.inv ghost pool.state)
    (meets : ∀ other, TaskMeets logic policy post pool ghost other) :
    ∃ ghost', logic.inv ghost' middle.state ∧
      ∀ other, TaskMeets logic policy post middle ghost' other := by
  cases foreign with
  | spawn other request different unused =>
      have fresh := meets other
      simp only [TaskMeets, unused] at fresh
      have spec : wp logic (policy request) other (service.handler request other)
          (post other request) ghost pool.state := by
        rw [plain other request different]
        exact keeps.request inv known fresh
      exact meets_runTask lawful lasts meets (fun _ _ => lawful.rely_refl _ _ _) spec
  | @resume other request call β act next event b state different suspended allowed taken =>
      have running := meets other
      simp only [TaskMeets, suspended] at running
      obtain ⟨_, _, _, resumes⟩ := running
      obtain ⟨ghost₁, guar, rest⟩ :=
        resumes _ _ (lawful.rely_refl _ _ _) inv known _ _ _ allowed taken
      exact meets_runTask lawful lasts meets (fun _ aside => lawful.guar_rely aside guar) rest
  | ambient taken =>
      obtain ⟨ghost', inv', rely⟩ := keeps.ambient taken inv known
      refine ⟨ghost', inv', fun other => ?_⟩
      have running := meets other
      simp only [TaskMeets] at running ⊢
      split at running
      · exact lawful.fresh_stable (rely other) running
      · exact ⟨running.1, wp_stable lawful (lasts _ _) running.1 (rely other) inv' running.2⟩

/-- What the proof keeps of every task through a stretch of `task`. -/
theorem Stretch.carries {logic : Logic Ghost S Call} {initial : S → Prop} (lawful : logic.Lawful)
    (keeps : Keeps logic service policy initial)
    (known : ∀ {pool : Pool S Event Call Exn Request},
      Reachable service policy initial pool → logic.known pool.state)
    {post : TaskId → Request → Post Ghost S Exn Unit}
    (lasts : ∀ other request, Lasts logic other (post other request))
    (plain : ∀ other request, other ≠ task → post other request = logic.finished other)
    {since final : S} {pool last : Pool S Event Call Exn Request}
    {trace : List (Moment S Event Call)}
    (stretch : Stretch service policy task since pool trace final last)
    (reached : Reachable service policy initial pool) {ghost : Ghost}
    (inv : logic.inv ghost pool.state) (meets : ∀ other, TaskMeets logic policy post pool ghost other) :
    ∃ ghost', logic.inv ghost' last.state ∧
      ∀ other, TaskMeets logic policy post last ghost' other := by
  induction stretch generalizing ghost with
  | stop => exact ⟨ghost, inv, meets⟩
  | foreign step rest inductionHypothesis =>
      obtain ⟨ghost₁, inv₁, meets₁⟩ :=
        step.meets lawful keeps lasts plain (known reached) inv meets
      exact inductionHypothesis (reached.step step.step) inv₁ meets₁
  | @own since pool request call β act next event b state trace final last
      suspended allowed taken rest inductionHypothesis =>
      have running := meets task
      simp only [TaskMeets, suspended] at running
      obtain ⟨_, _, _, resumes⟩ := running
      obtain ⟨ghost₁, guar, later⟩ :=
        resumes _ _ (lawful.rely_refl _ _ _) inv (known reached) _ _ _ allowed taken
      obtain ⟨ghost₂, inv₂, meets₂⟩ := meets_runTask lawful lasts meets
        (fun _ aside => lawful.guar_rely aside guar) later
      exact inductionHypothesis (reached.step (.resume suspended allowed taken)) inv₂ meets₂

/-- A task that has ended meets its postcondition. -/
theorem TaskMeets.ended {logic : Logic Ghost S Call}
    {post : TaskId → Request → Post Ghost S Exn Unit} {pool : Pool S Event Call Exn Request}
    {ghost : Ghost} (meets : TaskMeets logic policy post pool ghost task)
    {result : Except Exn Unit} (ended : pool.outcome task = some result) :
    ∃ request, post task request result ghost pool.state := by
  unfold Pool.outcome at ended
  unfold TaskMeets at meets
  split at ended
  · next request value running =>
      rw [running] at meets
      obtain rfl := Option.some.inj ended
      exact ⟨request, meets.2⟩
  · next request exn running =>
      rw [running] at meets
      obtain rfl := Option.some.inj ended
      exact ⟨request, meets.2⟩
  · cases ended

/-- **A task meets a postcondition of its own.** From any pool of any run, a request that
has a postcondition there meets it by the end of its stretch. -/
theorem Stretch.meets {logic : Logic Ghost S Call} {initial : S → Prop} (lawful : logic.Lawful)
    (keeps : Keeps logic service policy initial)
    (known : ∀ {pool : Pool S Event Call Exn Request},
      Reachable service policy initial pool → logic.known pool.state)
    {post : Post Ghost S Exn Unit} (lasts : Lasts logic task post)
    {start last : Pool S Event Call Exn Request} {request : Request}
    (reached : Reachable service policy initial start) (unused : start.tasks task = none)
    (spec : ∀ ghost, logic.inv ghost start.state → logic.fresh task ghost start.state →
      wp logic (policy request) task (service.handler request task) post ghost start.state)
    {trace : List (Moment S Event Call)} {final : S}
    (stretch : Stretch service policy task
      (start.runTask task request (service.handler request task) start.state).state
      (start.runTask task request (service.handler request task) start.state) trace final last)
    {result : Except Exn Unit} (ended : last.outcome task = some result) :
    ∃ ghost, logic.inv ghost last.state ∧ post result ghost last.state := by
  classical
  -- The task has its own postcondition, and every other task the common one.
  let posts : TaskId → Request → Post Ghost S Exn Unit := fun other _ =>
    if other = task then post else logic.finished other
  have own : ∀ request, posts task request = post := fun _ => if_pos rfl
  have plain : ∀ other request, other ≠ task → posts other request = logic.finished other :=
    fun _ _ different => if_neg different
  have lasting : ∀ other request, Lasts logic other (posts other request) := by
    intro other request
    by_cases same : other = task
    · subst same
      rw [own request]
      exact lasts
    · rw [plain other request same]
      exact lasts_finished lawful other
  obtain ⟨ghost, inv, verified⟩ := reached.verified lawful keeps known
  have fresh := verified task
  simp only [TaskVerified, unused] at fresh
  have begun : ∀ other, TaskMeets logic policy posts start ghost other := by
    intro other
    by_cases same : other = task
    · subst same
      simp only [TaskMeets, unused]
      exact fresh
    · have kept := verified other
      simp only [TaskVerified, TaskMeets] at kept ⊢
      split at kept
      · exact kept
      · next started _ _ =>
          rw [plain other started same]
          exact kept
  have spawned := spec ghost inv fresh
  rw [← own request] at spawned
  obtain ⟨ghost₁, inv₁, meets₁⟩ := meets_runTask lawful lasting begun
    (fun _ _ => lawful.rely_refl _ _ _) spawned
  obtain ⟨ghost₂, inv₂, meets₂⟩ := stretch.carries lawful keeps known lasting plain
    (reached.step (.spawn task request unused)) inv₁ meets₁
  obtain ⟨ended, met⟩ := (meets₂ task).ended ended
  rw [own ended] at met
  exact ⟨ghost₂, inv₂, met⟩

/-! ### Stretches of a schedule -/

namespace Service

variable (service) (permits : Request → S → Call → Event → Bool)

/-- The stretch of a task along a schedule: its resumptions, the state at which
it was suspended last, and the pool. -/
def follow (task : TaskId) : List (Move Event Request Ambient) → S →
    Pool S Event Call Exn Request →
      Option (List (Moment S Event Call) × S × Pool S Event Call Exn Request)
  | [], since, pool => some ([], since, pool)
  | .spawn other request :: rest, since, pool =>
      if other = task then none
      else (service.move permits (.spawn other request) pool).bind (follow task rest since)
  | .resume other event :: rest, since, pool =>
      if other = task then
        match pool.tasks task with
        | some (_, .await call _ _) =>
            (service.move permits (.resume task event) pool).bind fun middle =>
              (follow task rest middle.state middle).map fun (trace, final, last) =>
                (⟨call, since, pool.state, event⟩ :: trace, final, last)
        | _ => none
      else (service.move permits (.resume other event) pool).bind (follow task rest since)
  | .ambient change :: rest, since, pool =>
      (service.move permits (.ambient change) pool).bind (follow task rest since)
  | .restart :: _, _, _ => none

variable {service permits}

/-- Every stretch that can be followed is a stretch of a run. -/
theorem stretch_of_follow
    (permitted : ∀ request state call event,
      permits request state call event = true → policy request state call event)
    {schedule : List (Move Event Request Ambient)} {since final : S}
    {pool last : Pool S Event Call Exn Request} {trace : List (Moment S Event Call)}
    (followed : service.follow permits task schedule since pool = some (trace, final, last)) :
    Stretch service policy task since pool trace final last := by
  induction schedule generalizing since pool trace with
  | nil =>
      simp only [follow, Option.some.injEq, Prod.mk.injEq] at followed
      obtain ⟨rfl, rfl, rfl⟩ := followed
      exact .stop
  | cons first rest inductionHypothesis =>
      cases first with
      | spawn other request =>
          simp only [follow] at followed
          split at followed
          · cases followed
          · next different =>
              obtain ⟨middle, moved, followed⟩ := Option.bind_eq_some_iff.mp followed
              simp only [move] at moved
              split at moved
              · next unused =>
                  obtain rfl := Option.some.inj moved
                  exact .foreign (.spawn other request different unused)
                    (inductionHypothesis followed)
              · cases moved
      | resume other event =>
          simp only [follow] at followed
          split at followed
          · next same =>
              split at followed
              · next request _ call act next suspended =>
                  obtain ⟨middle, moved, followed⟩ := Option.bind_eq_some_iff.mp followed
                  obtain ⟨⟨later, final', last'⟩, rested, ended⟩ :=
                    Option.map_eq_some_iff.mp followed
                  simp only [Prod.mk.injEq] at ended
                  obtain ⟨rfl, rfl, rfl⟩ := ended
                  obtain ⟨b, state, allowed, taken, rfl⟩ :=
                    resumed_of_move suspended moved
                  exact .own suspended (permitted _ _ _ _ allowed) taken
                    (inductionHypothesis rested)
              · cases followed
          · next different =>
              obtain ⟨middle, moved, followed⟩ := Option.bind_eq_some_iff.mp followed
              obtain ⟨request, call, β, act, next, suspended⟩ := suspended_of_move moved
              obtain ⟨b, state, allowed, taken, rfl⟩ := resumed_of_move suspended moved
              exact .foreign (.resume different suspended (permitted _ _ _ _ allowed) taken)
                (inductionHypothesis followed)
      | ambient change =>
          simp only [follow] at followed
          obtain ⟨middle, moved, followed⟩ := Option.bind_eq_some_iff.mp followed
          simp only [move, Option.map_eq_some_iff] at moved
          obtain ⟨state, taken, rfl⟩ := moved
          exact .foreign (.ambient taken) (inductionHypothesis followed)
      | restart => cases followed

end Service

end Concord.Asyncio

import Concord.Asyncio.OwnSteps

/-!
Contract: the states that a run of a coroutine passes.

Owns:
- `Visits`, the states at which a coroutine is about to take its next step;
- `visits_of_wp`, which carries an assertion on the moments so far and the state
  from the start of a run to every state that it passes;
- `Stretch.visits`, which reads the states that a task of the process passes as
  visited by its coroutine.

Does not own: what a coroutine does at a state.
-/

set_option autoImplicit false

namespace Concord.Asyncio

variable {S Event Call Exn : Type} {α β : Type}

/-- The states that the runs of a coroutine pass, with the moments before them. -/
def Visits (env : S → S → Prop) : Coroutine S Event Call Exn α → S →
    List (Moment S Event Call) → S → Prop
  | .ret _, start, trace, state => trace = [] ∧ state = start
  | .raise _, start, trace, state => trace = [] ∧ state = start
  | .look next, start, trace, state => Visits env (next start) start trace state
  | .sync update next, start, trace, state => (trace = [] ∧ state = start) ∨
      Visits env (next (update start).1) (update start).2 trace state
  | .await call act next, start, trace, state => (trace = [] ∧ state = start) ∨
      ∃ resumed event b after rest, trace = ⟨call, start, resumed, event⟩ :: rest ∧
        env start resumed ∧ act event resumed = some (b, after) ∧
          Visits env (next b) after rest state

section Rules

variable {env : S → S → Prop} {start state final : S} {trace : List (Moment S Event Call)}

/-- A run passes the state at which it starts. -/
theorem visits_start (program : Coroutine S Event Call Exn α) :
    Visits env program start [] start := by
  induction program generalizing start with
  | ret value => exact ⟨rfl, rfl⟩
  | raise exn => exact ⟨rfl, rfl⟩
  | look next inductionHypothesis => exact inductionHypothesis _
  | sync update next => exact .inl ⟨rfl, rfl⟩
  | await call act next => exact .inl ⟨rfl, rfl⟩

/-- A run passes the state at which it ends. -/
theorem visits_of_runs {program : Coroutine S Event Call Exn α} {result : Except Exn α}
    (runs : Runs env program start trace result final) : Visits env program start trace final := by
  induction program generalizing start trace with
  | ret value => exact ⟨runs.1, runs.2.2⟩
  | raise exn => exact ⟨runs.1, runs.2.2⟩
  | look next inductionHypothesis => exact inductionHypothesis _ runs
  | sync update next inductionHypothesis => exact .inr (inductionHypothesis _ runs)
  | await call act next inductionHypothesis =>
      obtain ⟨resumed, event, b, after, rest, rfl, framed, taken, runs⟩ := runs
      exact .inr ⟨resumed, event, b, after, rest, rfl, framed, taken, inductionHypothesis b runs⟩

/-- A run of a sequence passes the states of its first part, and of the second when
the first has returned. -/
theorem visits_bind {first : Coroutine S Event Call Exn α} {rest : α → Coroutine S Event Call Exn β}
    (visits : Visits env (first >>= rest) start trace state) :
    Visits env first start trace state ∨
      ∃ value middle earlier later, trace = earlier ++ later ∧
        Runs env first start earlier (.ok value) middle ∧ Visits env (rest value) middle later state := by
  change Visits env (first.bind rest) start trace state at visits
  induction first generalizing start trace with
  | ret value => exact .inr ⟨value, start, [], trace, rfl, ⟨rfl, rfl, rfl⟩, visits⟩
  | raise exn => exact .inl visits
  | look next inductionHypothesis => exact inductionHypothesis _ visits
  | sync update next inductionHypothesis =>
      rcases visits with stopped | visits
      · exact .inl (.inl stopped)
      · rcases inductionHypothesis _ visits with first | later
        · exact .inl (.inr first)
        · exact .inr later
  | await call act next inductionHypothesis =>
      rcases visits with stopped | ⟨resumed, event, b, after, others, rfl, framed, taken, visits⟩
      · exact .inl (.inl stopped)
      · rcases inductionHypothesis b visits with
          first | ⟨value, middle, earlier, later, rfl, first, second⟩
        · exact .inl (.inr ⟨resumed, event, b, after, others, rfl, framed, taken, first⟩)
        · exact .inr ⟨value, middle, _ :: earlier, later, rfl,
            ⟨resumed, event, b, after, earlier, rfl, framed, taken, first⟩, second⟩

/-- A sequence that only turns the result of its first part into another one. -/
theorem visits_bind_pure {first : Coroutine S Event Call Exn α} {answer : α → β}
    (visits : Visits env (first >>= fun value => pure (answer value)) start trace state) :
    Visits env first start trace state := by
  rcases visits_bind visits with inside | ⟨_, _, _, _, rfl, runs, ended⟩
  · exact inside
  · obtain ⟨rfl, rfl⟩ := ended
    rw [List.append_nil]
    exact visits_of_runs runs

/-- A handler runs where its body has raised. -/
theorem visits_tryExcept {body : Coroutine S Event Call Exn α}
    {handler : Exn → Coroutine S Event Call Exn α}
    (visits : Visits env (body.tryExcept handler) start trace state) :
    Visits env body start trace state ∨
      ∃ exn middle earlier later, trace = earlier ++ later ∧
        Runs env body start earlier (.error exn) middle ∧ Visits env (handler exn) middle later state := by
  induction body generalizing start trace with
  | ret value => exact .inl visits
  | raise exn => exact .inr ⟨exn, start, [], trace, rfl, ⟨rfl, rfl, rfl⟩, visits⟩
  | look next inductionHypothesis => exact inductionHypothesis _ visits
  | sync update next inductionHypothesis =>
      rcases visits with stopped | visits
      · exact .inl (.inl stopped)
      · rcases inductionHypothesis _ visits with body | handled
        · exact .inl (.inr body)
        · exact .inr handled
  | await call act next inductionHypothesis =>
      rcases visits with stopped | ⟨resumed, event, b, after, others, rfl, framed, taken, visits⟩
      · exact .inl (.inl stopped)
      · rcases inductionHypothesis b visits with
          body | ⟨exn, middle, earlier, later, rfl, body, handled⟩
        · exact .inl (.inr ⟨resumed, event, b, after, others, rfl, framed, taken, body⟩)
        · exact .inr ⟨exn, middle, _ :: earlier, later, rfl,
            ⟨resumed, event, b, after, earlier, rfl, framed, taken, body⟩, handled⟩

/-- A cleanup runs where its body has come to an end. -/
theorem visits_tryFinally {body : Coroutine S Event Call Exn α}
    {cleanup : Coroutine S Event Call Exn Unit}
    (visits : Visits env (body.tryFinally cleanup) start trace state) :
    Visits env body start trace state ∨
      ∃ answer middle earlier later, trace = earlier ++ later ∧
        Runs env body start earlier answer middle ∧ Visits env cleanup middle later state := by
  have cleaned : ∀ {last : Coroutine S Event Call Exn α} {middle : S}
      {later : List (Moment S Event Call)},
      (∀ {state trace final}, Visits env last state trace final → trace = [] ∧ final = state) →
        Visits env (cleanup >>= fun _ => last) middle later state →
          Visits env cleanup middle later state := by
    intro last middle later ends visits
    rcases visits_bind visits with inside | ⟨_, reached, _, _, rfl, ended, after⟩
    · exact inside
    · obtain ⟨rfl, rfl⟩ := ends after
      rw [List.append_nil]
      exact visits_of_runs ended
  induction body generalizing start trace with
  | ret value => exact .inr ⟨.ok value, start, [], trace, rfl, ⟨rfl, rfl, rfl⟩, cleaned id visits⟩
  | raise exn => exact .inr ⟨.error exn, start, [], trace, rfl, ⟨rfl, rfl, rfl⟩, cleaned id visits⟩
  | look next inductionHypothesis => exact inductionHypothesis _ visits
  | sync update next inductionHypothesis =>
      rcases visits with stopped | visits
      · exact .inl (.inl stopped)
      · rcases inductionHypothesis _ visits with body | last
        · exact .inl (.inr body)
        · exact .inr last
  | await call act next inductionHypothesis =>
      rcases visits with stopped | ⟨resumed, event, b, after, others, rfl, framed, taken, visits⟩
      · exact .inl (.inl stopped)
      · rcases inductionHypothesis b visits with
          body | ⟨answer, middle, earlier, later, rfl, body, last⟩
        · exact .inl (.inr ⟨resumed, event, b, after, others, rfl, framed, taken, body⟩)
        · exact .inr ⟨answer, middle, _ :: earlier, later, rfl,
            ⟨resumed, event, b, after, earlier, rfl, framed, taken, body⟩, last⟩

theorem visits_settle {program : Coroutine S Event Call Exn α}
    (visits : Visits env (program.settle start).1 (program.settle start).2 trace state) :
    Visits env program start trace state := by
  induction program generalizing start with
  | ret value => exact visits
  | raise exn => exact visits
  | look next inductionHypothesis => exact inductionHypothesis _ visits
  | sync update next inductionHypothesis => exact .inr (inductionHypothesis _ visits)
  | await call act next => exact visits

/-- An assertion on the moments so far and the state holds at every state that a
run passes, where the others and the own steps of the task keep it. -/
theorem visits_of_wp {Ghost : Type} {logic : Logic Ghost S Call}
    {allows : S → Call → Event → Prop} {task : TaskId} {post : Post Ghost S Exn α}
    {history : List (Moment S Event Call) → S → Prop}
    (framed : ∀ {ghost before after}, env before after → logic.inv ghost before →
      ∃ ghost', logic.rely task ghost before ghost' after ∧ logic.inv ghost' after ∧
        logic.known after)
    (allowed : ∀ state call event, allows state call event)
    (others : ∀ {past before after} call event, env before after → history past before →
      history (past ++ [⟨call, before, after, event⟩]) after)
    (own : ∀ {past ghost before ghost' after}, logic.guar task ghost before ghost' after →
      history past before → history past after)
    {program : Coroutine S Event Call Exn α} {ghost : Ghost} {past : List (Moment S Event Call)}
    (holds : wp logic allows task program post ghost start) (begun : history past start)
    (visits : Visits env program start trace state) : history (past ++ trace) state := by
  induction program generalizing ghost past start trace with
  | ret value =>
      obtain ⟨rfl, rfl⟩ := visits
      rwa [List.append_nil]
  | raise exn =>
      obtain ⟨rfl, rfl⟩ := visits
      rwa [List.append_nil]
  | look next inductionHypothesis => exact inductionHypothesis _ holds begun visits
  | sync update next inductionHypothesis =>
      obtain ⟨ghost', guar, rest⟩ := holds
      rcases visits with ⟨rfl, rfl⟩ | visits
      · rwa [List.append_nil]
      · exact inductionHypothesis _ rest (own guar begun) visits
  | await call act next inductionHypothesis =>
      obtain ⟨inv, _, resumes⟩ := holds
      rcases visits with ⟨rfl, rfl⟩ | ⟨resumed, event, b, after, rest, rfl, step, taken, visits⟩
      · rwa [List.append_nil]
      · obtain ⟨ghost₁, rely, inv₁, known⟩ := framed step inv
        obtain ⟨ghost₂, guar, later⟩ :=
          resumes ghost₁ resumed rely inv₁ known event b after (allowed _ _ _) taken
        have onward := inductionHypothesis b later (own guar (others call event step begun)) visits
        rwa [List.append_assoc] at onward

/-- A run over one component of the state passes the states of the component's
run. -/
theorem visits_focus {T : Type} {get : T → S} {put : S → T → T} (lawful : IsPart get put)
    {env : T → T → Prop} {program : Coroutine S Event Call Exn α} {start state : T}
    {trace : List (Moment T Event Call)} (visits : Visits env (program.focus get put) start trace state) :
    Visits (fun part part' => ∃ whole whole', env whole whole' ∧ part = get whole ∧ part' = get whole')
      program (get start) (trace.map (.part get)) (get state) := by
  induction program generalizing start trace with
  | ret value =>
      obtain ⟨rfl, rfl⟩ := visits
      exact ⟨rfl, rfl⟩
  | raise exn =>
      obtain ⟨rfl, rfl⟩ := visits
      exact ⟨rfl, rfl⟩
  | look next inductionHypothesis => exact inductionHypothesis _ visits
  | sync update next inductionHypothesis =>
      rcases visits with ⟨rfl, rfl⟩ | visits
      · exact .inl ⟨rfl, rfl⟩
      · have inner := inductionHypothesis _ visits
        rw [lawful.get_put] at inner
        exact .inr inner
  | await call act next inductionHypothesis =>
      rcases visits with ⟨rfl, rfl⟩ | ⟨resumed, event, b, after, rest, rfl, framed, taken, visits⟩
      · exact .inl ⟨rfl, rfl⟩
      · simp only [Option.map_eq_some_iff, Prod.exists, Prod.mk.injEq] at taken
        obtain ⟨b', part, answered, rfl, rfl⟩ := taken
        have inner := inductionHypothesis _ visits
        rw [lawful.get_put] at inner
        exact .inr ⟨_, event, _, part, _, rfl, ⟨_, _, framed, rfl, rfl⟩, answered, inner⟩

end Rules

section Processes

variable {Request Ambient : Type} {service : Service S Event Call Exn Request Ambient}
  {policy : Policy S Event Call Request} {task : TaskId}

/-- The states that the next step of a task passes, after a stretch of the process. -/
theorem Stretch.visits {env : S → S → Prop} {initial : S → Prop} (refl : ∀ state, env state state)
    (trans : ∀ {first second third}, env first second → env second third → env first third)
    (framed : ∀ {pool middle}, Reachable service policy initial pool →
      Foreign service policy task pool middle → env pool.state middle.state)
    {since final : S} {pool last : Pool S Event Call Exn Request}
    {trace : List (Moment S Event Call)}
    (stretch : Stretch service policy task since pool trace final last)
    (reached : Reachable service policy initial pool) (waited : env since pool.state)
    {request request' : Request} {program : Coroutine S Event Call Exn Unit}
    (running : pool.tasks task = some (request, program))
    {call : Call} {act : Event → S → Option (β × S)} {next : β → Coroutine S Event Call Exn Unit}
    (suspended : last.tasks task = some (request', .await call act next))
    {event : Event} {answer : β} {after state : S}
    (taken : act event last.state = some (answer, after))
    (passed : Visits env (next answer) after [] state) :
    Visits env program since (trace ++ [⟨call, final, last.state, event⟩]) state := by
  induction stretch generalizing request program with
  | stop =>
      obtain ⟨rfl, rfl⟩ := Prod.mk.inj (Option.some.inj (running.symm.trans suspended))
      exact .inr ⟨_, event, answer, after, [], rfl, waited, taken, passed⟩
  | foreign step rest inductionHypothesis =>
      exact inductionHypothesis (reached.step step.step) (trans waited (framed reached step))
        (step.tasks.trans running) suspended taken
  | @own since pool request₁ call₁ β₁ act₁ next₁ event₁ b state₁ trace final last
      waiting allowed resumed rest inductionHypothesis =>
      obtain ⟨rfl, rfl⟩ := Prod.mk.inj (Option.some.inj (running.symm.trans waiting))
      have moved : Step service policy pool (pool.runTask task request (next₁ b) state₁) :=
        .resume waiting allowed resumed
      have later := inductionHypothesis (reached.step moved) (refl _) (Function.update_self _ _ _)
        suspended taken
      exact .inr ⟨pool.state, event₁, b, state₁, _, rfl, waited, resumed, visits_settle later⟩

end Processes

end Concord.Asyncio

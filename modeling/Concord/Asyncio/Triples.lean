import Concord.Asyncio.Runs

/-!
Contract: triples about the complete runs of a coroutine.

Owns:
- `Returns`, the partial correctness of a coroutine that does not raise in the runs
  whose moments are all of some kind;
- its rules for sequences, handlers and cleanups;
- `drivenAmong`, the executable run of a coroutine among given changes.

Does not own: which moments are of that kind.
-/

set_option autoImplicit false

namespace Concord.Asyncio

variable {S Event Call Exn : Type} {α β : Type}

/-- From an assertion, every run of a coroutine all of whose moments are `fine`
returns, and the other assertion holds then. -/
def Returns (env : S → S → Prop) (fine : Moment S Event Call → Prop) (before : S → Prop)
    (program : Coroutine S Event Call Exn α) (after : α → S → Prop) : Prop :=
  ∀ ⦃start trace result final⦄, before start → Runs env program start trace result final →
    (∀ moment ∈ trace, fine moment) → ∃ value, result = .ok value ∧ after value final

namespace Returns

variable {env : S → S → Prop} {fine : Moment S Event Call → Prop} {before : S → Prop}
  {after : α → S → Prop}

theorem pure {value : α} (implied : ∀ state, before state → after value state) :
    Returns env fine before (Pure.pure value : Coroutine S Event Call Exn α) after := by
  intro start trace result final holds runs _
  obtain ⟨_, rfl, rfl⟩ := runs_pure runs
  exact ⟨value, rfl, implied _ holds⟩

theorem get_bind {rest : S → Coroutine S Event Call Exn α}
    (later : ∀ state, Returns env fine before (rest state) after) :
    Returns env fine before (MonadState.get >>= rest) after :=
  fun _ _ _ _ holds runs moments => later _ holds runs moments

theorem modify_bind {update : S → S} {middle : S → Prop}
    {rest : PUnit → Coroutine S Event Call Exn α}
    (step : ∀ state, before state → middle (update state))
    (later : Returns env fine middle (rest ⟨⟩) after) :
    Returns env fine before (modify update >>= rest) after :=
  fun _ _ _ _ holds runs moments => later (step _ holds) runs moments

theorem bind {first : Coroutine S Event Call Exn α} {rest : α → Coroutine S Event Call Exn β}
    {middle : α → S → Prop} {after : β → S → Prop}
    (one : Returns env fine before first middle)
    (two : ∀ value, Returns env fine (middle value) (rest value) after) :
    Returns env fine before (first >>= rest) after := by
  intro start trace result final holds runs moments
  rcases runs_bind runs with ⟨value, state, earlier, later, rfl, ran, rests⟩ | ⟨exn, rfl, ran⟩
  · obtain ⟨first, second⟩ := List.forall_mem_append.mp moments
    obtain ⟨_, returned, reached⟩ := one holds ran first
    obtain rfl := Except.ok.inj returned
    exact two value reached rests second
  · obtain ⟨_, returned, _⟩ := one holds ran moments
    cases returned

theorem mono {program : Coroutine S Event Call Exn α} {strong : S → Prop} {weak : α → S → Prop}
    (holds : Returns env fine before program after) (stronger : ∀ state, strong state → before state)
    (weaker : ∀ value state, after value state → weak value state) :
    Returns env fine strong program weak := by
  intro start trace result final began runs moments
  obtain ⟨value, returned, ended⟩ := holds (stronger _ began) runs moments
  exact ⟨value, returned, weaker _ _ ended⟩

theorem weaken {program : Coroutine S Event Call Exn α} {strong : S → Prop}
    (holds : Returns env fine before program after) (stronger : ∀ state, strong state → before state) :
    Returns env fine strong program after :=
  holds.mono stronger fun _ _ => id

/-- A fact that follows from the assertion. -/
theorem of_implied {program : Coroutine S Event Call Exn α} {fact : Prop}
    (implied : ∀ state, before state → fact)
    (later : fact → Returns env fine before program after) :
    Returns env fine before program after :=
  fun _ _ _ _ holds runs moments => later (implied _ holds) holds runs moments

/-- A handler has nothing to do where the body does not raise. -/
theorem tryExcept {body : Coroutine S Event Call Exn α} {handler : Exn → Coroutine S Event Call Exn α}
    (holds : Returns env fine before body after) :
    Returns env fine before (body.tryExcept handler) after := by
  intro start trace result final began runs moments
  rcases runs_tryExcept runs with ⟨value, rfl, ran⟩ | ⟨_, _, earlier, later, rfl, ran, _⟩
  · exact holds began ran moments
  · obtain ⟨_, returned, _⟩ := holds began ran (List.forall_mem_append.mp moments).1
    cases returned

theorem tryFinally {body : Coroutine S Event Call Exn α} {cleanup : Coroutine S Event Call Exn Unit}
    {middle : α → S → Prop} (one : Returns env fine before body middle)
    (two : ∀ value, Returns env fine (middle value) cleanup fun _ => after value) :
    Returns env fine before (body.tryFinally cleanup) after := by
  intro start trace result final began runs moments
  obtain ⟨answer, cleaned, _, earlier, later, rfl, ran, cleans, rfl⟩ := runs_tryFinally runs
  obtain ⟨first, second⟩ := List.forall_mem_append.mp moments
  obtain ⟨value, rfl, reached⟩ := one began ran first
  obtain ⟨_, rfl, ended⟩ := two value reached cleans second
  exact ⟨value, rfl, ended⟩

theorem tryFinally_modify {body : Coroutine S Event Call Exn α} {update : S → S}
    (holds : Returns env fine before body fun value state => after value (update state)) :
    Returns env fine before (body.tryFinally (modify update)) after := by
  intro start trace result final began runs moments
  obtain ⟨last, ran, rfl⟩ := runs_tryFinally_modify runs
  exact holds began ran moments

end Returns

/-! ### Runs among given changes -/

/-- The run of a coroutine: each suspension takes the next change of the state and
the next event. -/
def drivenAmong : Coroutine S Event Call Exn α → List ((S → S) × Event) → S →
    Option (List (Moment S Event Call) × Except Exn α × S)
  | .ret value, _, state => some ([], .ok value, state)
  | .raise exn, _, state => some ([], .error exn, state)
  | .look next, answers, state => drivenAmong (next state) answers state
  | .sync update next, answers, state => drivenAmong (next (update state).1) answers (update state).2
  | .await _ _ _, [], _ => none
  | .await call act next, (change, event) :: answers, state =>
      (act event (change state)).bind fun (b, after) =>
        (drivenAmong (next b) answers after).map fun (rest, result, final) =>
          (⟨call, state, change state, event⟩ :: rest, result, final)

theorem runs_of_drivenAmong {env : S → S → Prop} {program : Coroutine S Event Call Exn α}
    {answers : List ((S → S) × Event)} (framed : ∀ answer ∈ answers, ∀ state, env state (answer.1 state))
    {start final : S} {trace : List (Moment S Event Call)} {result : Except Exn α}
    (drives : drivenAmong program answers start = some (trace, result, final)) :
    Runs env program start trace result final := by
  induction program generalizing answers start trace with
  | ret value =>
      obtain ⟨rfl, rfl, rfl⟩ := Option.some.inj drives
      exact ⟨rfl, rfl, rfl⟩
  | raise exn =>
      obtain ⟨rfl, rfl, rfl⟩ := Option.some.inj drives
      exact ⟨rfl, rfl, rfl⟩
  | look next inductionHypothesis => exact inductionHypothesis _ framed drives
  | sync update next inductionHypothesis => exact inductionHypothesis _ framed drives
  | await call act next inductionHypothesis =>
      cases answers with
      | nil => cases drives
      | cons answer answers =>
          obtain ⟨change, event⟩ := answer
          obtain ⟨now, later⟩ := List.forall_mem_cons.mp framed
          obtain ⟨⟨b, after⟩, taken, drives⟩ := Option.bind_eq_some_iff.mp drives
          obtain ⟨⟨rest, result', final'⟩, rested, same⟩ := Option.map_eq_some_iff.mp drives
          simp only [Prod.mk.injEq] at same
          obtain ⟨rfl, rfl, rfl⟩ := same
          exact ⟨change start, event, b, after, rest, rfl, now start, taken,
            inductionHypothesis b later rested⟩

/-- The run of a coroutine whose first suspension is answered in a given state, and
which is alone after that. -/
theorem runs_of_interrupted {env : S → S → Prop} (refl : ∀ state, env state state)
    {program : Coroutine S Event Call Exn α} {start resumed final : S} {event : Event}
    {events : List Event} {trace : List (Moment S Event Call)} {result : Except Exn α}
    (framed : env (program.settle start).2 resumed)
    (drives : drivenAmong program ((fun _ => resumed, event) :: events.map (id, ·)) start =
      some (trace, result, final)) : Runs env program start trace result final := by
  induction program generalizing start trace with
  | ret value =>
      obtain ⟨rfl, rfl, rfl⟩ := Option.some.inj drives
      exact ⟨rfl, rfl, rfl⟩
  | raise exn =>
      obtain ⟨rfl, rfl, rfl⟩ := Option.some.inj drives
      exact ⟨rfl, rfl, rfl⟩
  | look next inductionHypothesis => exact inductionHypothesis _ framed drives
  | sync update next inductionHypothesis => exact inductionHypothesis _ framed drives
  | await call act next =>
      have alone : ∀ answer ∈ events.map ((id : S → S), ·), ∀ state, env state (answer.1 state) := by
        intro answer member state
        obtain ⟨_, _, rfl⟩ := List.mem_map.mp member
        exact refl state
      obtain ⟨⟨b, after⟩, taken, drives⟩ := Option.bind_eq_some_iff.mp drives
      obtain ⟨⟨rest, result', final'⟩, rested, same⟩ := Option.map_eq_some_iff.mp drives
      simp only [Prod.mk.injEq] at same
      obtain ⟨rfl, rfl, rfl⟩ := same
      exact ⟨resumed, event, b, after, rest, rfl, framed, taken, runs_of_drivenAmong alone rested⟩

end Concord.Asyncio

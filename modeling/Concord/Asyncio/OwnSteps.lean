import Concord.Asyncio.Runs

/-!
Contract: what one task itself does in a run.

Owns:
- `ownSteps`, the steps of a run that the task makes, without the changes of the
  others in between;
- `Observes`, `Never` and `Refuses`, which say of a coroutine that its own steps
  leave a view of the state alone, always or where it raises a refusal;
- `Maintains`, for a property of the state that the others maintain as well;
- `Along`, for a relation between the ends of a run and its moments that composes,
  `Stays` for one between the ends of each own step, and `AlongRaising` for the
  runs that raise;
- the runs of a coroutine over one component of the state.

Does not own: what the other tasks do.
-/

set_option autoImplicit false

namespace Concord.Asyncio

variable {S V Event Call Exn : Type} {α β : Type}

/-- The steps that the task of a run makes: from its start and from each
resumption to the next suspension or the end. -/
def ownSteps : S → List (Moment S Event Call) → S → List (S × S)
  | start, [], final => [(start, final)]
  | start, moment :: rest, final => (start, moment.before) :: ownSteps moment.state rest final

/-- The task leaves a view of the state alone. -/
def Silent (view : S → V) (start : S) (trace : List (Moment S Event Call)) (final : S) : Prop :=
  ∀ step ∈ ownSteps start trace final, view step.2 = view step.1

theorem silent_nil {view : S → V} {start final : S} :
    Silent view start ([] : List (Moment S Event Call)) final ↔ view final = view start :=
  List.forall_mem_singleton

/-- A run goes on with a step that the task itself begins. -/
theorem silent_of_same {view : S → V} {start middle final : S} {trace : List (Moment S Event Call)}
    (same : view middle = view start) (silent : Silent view middle trace final) :
    Silent view start trace final := by
  cases trace with
  | nil => exact silent_nil.mpr ((silent_nil.mp silent).trans same)
  | cons moment rest =>
      obtain ⟨first, others⟩ := List.forall_mem_cons.mp silent
      exact List.forall_mem_cons.mpr ⟨first.trans same, others⟩

theorem silent_append {view : S → V} {start middle final : S}
    {earlier later : List (Moment S Event Call)} (left : Silent view start earlier middle)
    (right : Silent view middle later final) : Silent view start (earlier ++ later) final := by
  induction earlier generalizing start with
  | nil => exact silent_of_same (silent_nil.mp left) right
  | cons moment rest inductionHypothesis =>
      obtain ⟨first, others⟩ := List.forall_mem_cons.mp left
      exact List.forall_mem_cons.mpr ⟨first, inductionHypothesis others⟩

/-! ### Coroutines that observe, and coroutines that refuse -/

/-- The own steps of a coroutine leave a view alone. -/
def Observes (view : S → V) (program : Coroutine S Event Call Exn α) : Prop :=
  ∀ ⦃env : S → S → Prop⦄ ⦃start trace result final⦄,
    Runs env program start trace result final → Silent view start trace final

/-- A coroutine does not raise a refusal. -/
def Never (refusal : Exn → Prop) (program : Coroutine S Event Call Exn α) : Prop :=
  ∀ ⦃env : S → S → Prop⦄ ⦃start trace exn final⦄,
    Runs env program start trace (.error exn) final → ¬refusal exn

/-- Where a coroutine raises a refusal, its own steps have left a view alone. -/
def Refuses (view : S → V) (refusal : Exn → Prop) (program : Coroutine S Event Call Exn α) : Prop :=
  ∀ ⦃env : S → S → Prop⦄ ⦃start trace exn final⦄,
    Runs env program start trace (.error exn) final → refusal exn → Silent view start trace final

section Rules

variable {view : S → V} {refusal : Exn → Prop}

theorem Observes.pure (value : α) :
    Observes view (Pure.pure value : Coroutine S Event Call Exn α) := by
  intro env start trace result final runs
  obtain ⟨rfl, _, rfl⟩ := runs_pure runs
  exact silent_nil.mpr rfl

theorem Observes.throw (exn : Exn) :
    Observes view (MonadExcept.throw exn : Coroutine S Event Call Exn α) := by
  intro env start trace result final runs
  obtain ⟨rfl, _, rfl⟩ := runs_throw runs
  exact silent_nil.mpr rfl

theorem Observes.bind {first : Coroutine S Event Call Exn α}
    {rest : α → Coroutine S Event Call Exn β} (observes : Observes view first)
    (later : ∀ value, Observes view (rest value)) : Observes view (first >>= rest) := by
  intro env start trace result final runs
  rcases runs_bind runs with ⟨value, middle, _, _, rfl, one, two⟩ | ⟨exn, rfl, one⟩
  · exact silent_append (observes one) (later value two)
  · exact observes one

theorem Observes.awaitCall {call : Call} {act : Event → S → Option (Except Exn α × S)}
    (same : ∀ ⦃event state result after⦄, act event state = some (result, after) →
      view after = view state) :
    Observes view (Coroutine.awaitCall call act : Coroutine S Event Call Exn α) := by
  intro env start trace result final runs
  obtain ⟨state, event, rfl, _, taken⟩ := runs_awaitCall runs
  exact List.forall_mem_cons.mpr ⟨rfl, silent_nil.mpr (same taken)⟩

theorem Observes.refuses {program : Coroutine S Event Call Exn α} (observes : Observes view program) :
    Refuses view refusal program :=
  fun _ _ _ _ _ runs _ => observes runs

theorem Never.bind {first : Coroutine S Event Call Exn α} {rest : α → Coroutine S Event Call Exn β}
    (never : Never refusal first) (later : ∀ value, Never refusal (rest value)) :
    Never refusal (first >>= rest) := by
  intro env start trace exn final runs
  rcases runs_bind runs with ⟨value, _, _, _, _, _, two⟩ | ⟨_, raised, one⟩
  · exact later value two
  · obtain rfl := Except.error.inj raised
    exact never one

theorem Never.awaitCall {call : Call} {act : Event → S → Option (Except Exn α × S)}
    (other : ∀ ⦃event state exn after⦄, act event state = some (.error exn, after) → ¬refusal exn) :
    Never refusal (Coroutine.awaitCall call act : Coroutine S Event Call Exn α) := by
  intro env start trace exn final runs
  obtain ⟨state, event, _, _, taken⟩ := runs_awaitCall runs
  exact other taken

/-- What follows an awaited call, for the values that the call answers. -/
theorem Never.awaitCall_bind {call : Call} {act : Event → S → Option (Except Exn α × S)}
    {rest : α → Coroutine S Event Call Exn β}
    (other : ∀ event state exn after, act event state = some (.error exn, after) → ¬refusal exn)
    (later : ∀ event state value after, act event state = some (.ok value, after) →
      Never refusal (rest value)) : Never refusal (Coroutine.awaitCall call act >>= rest) := by
  intro env start trace exn final runs
  rcases runs_bind runs with ⟨value, _, _, _, _, one, two⟩ | ⟨_, raised, one⟩
  · obtain ⟨state, event, _, _, taken⟩ := runs_awaitCall one
    exact later event state value _ taken two
  · obtain rfl := Except.error.inj raised
    obtain ⟨state, event, _, _, taken⟩ := runs_awaitCall one
    exact other event state exn _ taken

theorem Never.pure (value : α) :
    Never refusal (Pure.pure value : Coroutine S Event Call Exn α) := by
  intro env start trace exn final runs
  cases (runs_pure runs).2.1

theorem Never.throw {exn : Exn} (other : ¬refusal exn) :
    Never refusal (MonadExcept.throw exn : Coroutine S Event Call Exn α) := by
  intro env start trace exn' final runs
  obtain rfl := Except.error.inj (runs_throw runs).2.1
  exact other

theorem Never.get : Never refusal (MonadState.get : Coroutine S Event Call Exn S) := by
  intro env start trace exn final runs
  cases (runs_get runs).2.1

theorem Never.modifyGet (update : S → α × S) :
    Never refusal (MonadStateOf.modifyGet update : Coroutine S Event Call Exn α) := by
  intro env start trace exn final runs
  cases (runs_modifyGet runs).2.1

theorem Never.atomic {method : S → Except Exn α × S}
    (other : ∀ state exn, (method state).1 = .error exn → ¬refusal exn) :
    Never refusal (Coroutine.atomic method : Coroutine S Event Call Exn α) := by
  intro env start trace exn final runs
  exact other start exn (runs_atomic runs).2.1.symm

theorem Never.awaitUntil (call : Call) (act : S → Option (α × S)) :
    Never refusal (Coroutine.awaitUntil call act : Coroutine S Event Call Exn α) := by
  intro env start trace exn final runs
  obtain ⟨_, _, _, _, _, _, raised⟩ := runs_awaitUntil runs
  cases raised

/-- A handler answers every exception of its body. -/
theorem Never.tryExcept {body : Coroutine S Event Call Exn α}
    {handler : Exn → Coroutine S Event Call Exn α} (handled : ∀ exn, Never refusal (handler exn)) :
    Never refusal (body.tryExcept handler) := by
  intro env start trace exn final runs
  rcases runs_tryExcept runs with ⟨_, returned, _⟩ | ⟨exn', _, _, _, _, _, rest⟩
  · cases returned
  · exact handled exn' rest

theorem Never.tryFinally_modify {body : Coroutine S Event Call Exn α} {update : S → S}
    (never : Never refusal body) : Never refusal (body.tryFinally (modify update)) := by
  intro env start trace exn final runs
  obtain ⟨_, inner, _⟩ := runs_tryFinally_modify runs
  exact never inner

theorem Never.refuses {program : Coroutine S Event Call Exn α} (never : Never refusal program) :
    Refuses view refusal program :=
  fun _ _ _ _ _ runs refused => absurd refused (never runs)

/-- A coroutine that looks before it refuses. -/
theorem Refuses.bind {first : Coroutine S Event Call Exn α}
    {rest : α → Coroutine S Event Call Exn β} (observes : Observes view first)
    (later : ∀ value, Refuses view refusal (rest value)) : Refuses view refusal (first >>= rest) := by
  intro env start trace exn final runs refused
  rcases runs_bind runs with ⟨value, middle, _, _, rfl, one, two⟩ | ⟨_, _, one⟩
  · exact silent_append (observes one) (later value two refused)
  · exact observes one

end Rules

/-! ### Maintained properties -/

/-- A coroutine maintains a property of the state among others that do. -/
def Maintains (kept : S → Prop) (program : Coroutine S Event Call Exn α) : Prop :=
  ∀ ⦃env : S → S → Prop⦄, (∀ ⦃before after⦄, env before after → kept before → kept after) →
    ∀ ⦃start trace result final⦄, kept start → Runs env program start trace result final → kept final

namespace Maintains

variable {kept : S → Prop}

theorem pure (value : α) : Maintains kept (Pure.pure value : Coroutine S Event Call Exn α) := by
  intro env stable start trace result final holds runs
  obtain ⟨_, _, rfl⟩ := runs_pure runs
  exact holds

theorem throw (exn : Exn) :
    Maintains kept (MonadExcept.throw exn : Coroutine S Event Call Exn α) := by
  intro env stable start trace result final holds runs
  obtain ⟨_, _, rfl⟩ := runs_throw runs
  exact holds

theorem bind {first : Coroutine S Event Call Exn α} {rest : α → Coroutine S Event Call Exn β}
    (one : Maintains kept first) (two : ∀ value, Maintains kept (rest value)) :
    Maintains kept (first >>= rest) := by
  intro env stable start trace result final holds runs
  rcases runs_bind runs with ⟨value, middle, _, _, _, first, second⟩ | ⟨_, _, first⟩
  · exact two value stable (one stable holds first) second
  · exact one stable holds first

/-- A look at a state that has the property. -/
theorem get_bind {rest : S → Coroutine S Event Call Exn α}
    (later : ∀ state, kept state → Maintains kept (rest state)) :
    Maintains kept (MonadState.get >>= rest) :=
  fun _ stable start _ _ _ holds runs => later start holds stable holds runs

theorem modifyGet {update : S → α × S} (step : ∀ state, kept state → kept (update state).2) :
    Maintains kept (MonadStateOf.modifyGet update : Coroutine S Event Call Exn α) := by
  intro env stable start trace result final holds runs
  obtain ⟨_, _, rfl⟩ := runs_modifyGet runs
  exact step start holds

theorem tryFinally_modify {body : Coroutine S Event Call Exn α} {update : S → S}
    (holds : Maintains kept body) (step : ∀ state, kept state → kept (update state)) :
    Maintains kept (body.tryFinally (modify update)) := by
  intro env stable start trace result final before runs
  obtain ⟨last, inner, rfl⟩ := runs_tryFinally_modify runs
  exact step last (holds stable before inner)

theorem awaitUntil {call : Call} {act : S → Option (α × S)}
    (step : ∀ state value after, kept state → act state = some (value, after) → kept after) :
    Maintains kept (Coroutine.awaitUntil call act : Coroutine S Event Call Exn α) := by
  intro env stable start trace result final holds runs
  obtain ⟨state, _, value, _, framed, taken, _⟩ := runs_awaitUntil runs
  exact step state value final (stable framed holds) taken

theorem awaitCall {call : Call} {act : Event → S → Option (Except Exn α × S)}
    (step : ∀ event state result after, kept state → act event state = some (result, after) →
      kept after) :
    Maintains kept (Coroutine.awaitCall call act : Coroutine S Event Call Exn α) := by
  intro env stable start trace result final holds runs
  obtain ⟨state, event, _, framed, taken⟩ := runs_awaitCall runs
  exact step event state result final (stable framed holds) taken

end Maintains

/-! ### Relations that compose -/

/-- A relation between the start, the moments and the end of a run that holds of
a sequence of runs where it holds of each. -/
structure Composes (rel : S → List (Moment S Event Call) → S → Prop) : Prop where
  refl : ∀ state, rel state [] state
  trans : ∀ ⦃start middle final earlier later⦄, rel start earlier middle → rel middle later final →
    rel start (earlier ++ later) final

/-- Every run of a coroutine to its end is in a relation. -/
def Along (env : S → S → Prop) (rel : S → List (Moment S Event Call) → S → Prop)
    (program : Coroutine S Event Call Exn α) : Prop :=
  ∀ ⦃start trace result final⦄, Runs env program start trace result final → rel start trace final

section Along

variable {env : S → S → Prop} {rel : S → List (Moment S Event Call) → S → Prop}

theorem Composes.pure (composes : Composes rel) (value : α) :
    Along env rel (Pure.pure value : Coroutine S Event Call Exn α) := by
  intro start trace result final runs
  obtain ⟨rfl, _, rfl⟩ := runs_pure runs
  exact composes.refl _

theorem Composes.throw (composes : Composes rel) (exn : Exn) :
    Along env rel (MonadExcept.throw exn : Coroutine S Event Call Exn α) := by
  intro start trace result final runs
  obtain ⟨rfl, _, rfl⟩ := runs_throw runs
  exact composes.refl _

theorem Composes.get (composes : Composes rel) :
    Along env rel (MonadState.get : Coroutine S Event Call Exn S) := by
  intro start trace result final runs
  obtain ⟨rfl, _, rfl⟩ := runs_get runs
  exact composes.refl _

theorem Composes.bind (composes : Composes rel) {first : Coroutine S Event Call Exn α}
    {rest : α → Coroutine S Event Call Exn β} (one : Along env rel first)
    (two : ∀ value, Along env rel (rest value)) : Along env rel (first >>= rest) := by
  intro start trace result final runs
  rcases runs_bind runs with ⟨value, middle, _, _, rfl, first, second⟩ | ⟨_, _, first⟩
  · exact composes.trans (one first) (two value second)
  · exact one first

theorem Composes.tryExcept (composes : Composes rel) {body : Coroutine S Event Call Exn α}
    {handler : Exn → Coroutine S Event Call Exn α} (one : Along env rel body)
    (two : ∀ exn, Along env rel (handler exn)) : Along env rel (body.tryExcept handler) := by
  intro start trace result final runs
  rcases runs_tryExcept runs with ⟨_, rfl, first⟩ | ⟨exn, _, _, _, rfl, first, second⟩
  · exact one first
  · exact composes.trans (one first) (two exn second)

theorem Composes.tryFinally (composes : Composes rel) {body : Coroutine S Event Call Exn α}
    {cleanup : Coroutine S Event Call Exn Unit} (one : Along env rel body)
    (two : Along env rel cleanup) : Along env rel (body.tryFinally cleanup) := by
  intro start trace result final runs
  obtain ⟨_, _, _, _, _, rfl, first, second, _⟩ := runs_tryFinally runs
  exact composes.trans (one first) (two second)

end Along

/-! ### Own steps in a relation -/

/-- The own steps of a run are in a relation. -/
def Stays (kept : S → S → Prop) (start : S) (trace : List (Moment S Event Call)) (final : S) : Prop :=
  ∀ step ∈ ownSteps start trace final, kept step.1 step.2

section Stays

variable {env : S → S → Prop} {kept : S → S → Prop}

end Stays

section AlongRaising

variable {env : S → S → Prop} {rel : S → List (Moment S Event Call) → S → Prop}

end AlongRaising

/-! ### One component of the state -/

/-- A moment as one component of the state has it. -/
def Moment.part {T : Type} (get : T → S) (moment : Moment T Event Call) : Moment S Event Call :=
  ⟨moment.call, get moment.before, get moment.state, moment.event⟩

/-- The laws of a component that can be read and replaced. -/
structure IsPart {T : Type} (get : T → S) (put : S → T → T) : Prop where
  get_put : ∀ part whole, get (put part whole) = part
  put_put : ∀ part part' whole, put part (put part' whole) = put part whole
  put_get : ∀ whole, put (get whole) whole = whole

section Parts

variable {T : Type} {get : T → S} {put : S → T → T}

theorem ownSteps_part (get : T → S) {start final : T} {trace : List (Moment T Event Call)} {step : T × T}
    (member : step ∈ ownSteps start trace final) :
    (get step.1, get step.2) ∈ ownSteps (get start) (trace.map (.part get)) (get final) := by
  induction trace generalizing start with
  | nil =>
      obtain rfl := List.mem_singleton.mp member
      exact List.mem_singleton_self _
  | cons moment rest inductionHypothesis =>
      rcases List.mem_cons.mp member with rfl | member
      · exact List.mem_cons_self
      · exact List.mem_cons_of_mem _ (inductionHypothesis member)

/-- A run over one component of the state is a run of the component, and its own
steps replace the component alone. -/
theorem runs_focus (lawful : IsPart get put) {env : T → T → Prop}
    {program : Coroutine S Event Call Exn α} {start final : T} {trace : List (Moment T Event Call)}
    {result : Except Exn α} (runs : Runs env (program.focus get put) start trace result final) :
    Runs (fun part part' => ∃ whole whole', env whole whole' ∧ part = get whole ∧ part' = get whole')
        program (get start) (trace.map (.part get)) result (get final) ∧
      ∀ step ∈ ownSteps start trace final, ∃ part, step.2 = put part step.1 := by
  induction program generalizing start trace with
  | ret value =>
      obtain ⟨rfl, rfl, rfl⟩ := runs
      exact ⟨⟨rfl, rfl, rfl⟩, List.forall_mem_singleton.mpr ⟨_, (lawful.put_get _).symm⟩⟩
  | raise exn =>
      obtain ⟨rfl, rfl, rfl⟩ := runs
      exact ⟨⟨rfl, rfl, rfl⟩, List.forall_mem_singleton.mpr ⟨_, (lawful.put_get _).symm⟩⟩
  | look next inductionHypothesis => exact inductionHypothesis _ runs
  | sync update next inductionHypothesis =>
      obtain ⟨inner, steps⟩ := inductionHypothesis _ runs
      rw [lawful.get_put] at inner
      refine ⟨inner, ?_⟩
      -- The step before the first suspension begins with the update.
      cases trace with
      | nil =>
          obtain ⟨part, same⟩ := List.forall_mem_singleton.mp steps
          exact List.forall_mem_singleton.mpr ⟨part, same.trans (lawful.put_put _ _ _)⟩
      | cons moment rest =>
          obtain ⟨⟨part, same⟩, others⟩ := List.forall_mem_cons.mp steps
          exact List.forall_mem_cons.mpr ⟨⟨part, same.trans (lawful.put_put _ _ _)⟩, others⟩
  | await call act next inductionHypothesis =>
      obtain ⟨state, event, b, after, others, rfl, framed, taken, runs⟩ := runs
      simp only [Option.map_eq_some_iff, Prod.exists, Prod.mk.injEq] at taken
      obtain ⟨b', part, answered, rfl, rfl⟩ := taken
      obtain ⟨inner, steps⟩ := inductionHypothesis _ runs
      rw [lawful.get_put] at inner
      refine ⟨⟨_, event, _, part, _, rfl, ⟨_, _, framed, rfl, rfl⟩, answered, inner⟩, ?_⟩
      refine List.forall_mem_cons.mpr ⟨⟨_, (lawful.put_get _).symm⟩, ?_⟩
      cases others with
      | nil =>
          obtain ⟨part', same⟩ := List.forall_mem_singleton.mp steps
          exact List.forall_mem_singleton.mpr ⟨part', same.trans (lawful.put_put _ _ _)⟩
      | cons moment rest =>
          obtain ⟨⟨part', same⟩, others⟩ := List.forall_mem_cons.mp steps
          exact List.forall_mem_cons.mpr ⟨⟨part', same.trans (lawful.put_put _ _ _)⟩, others⟩

theorem Never.focus (lawful : IsPart get put) {refusal : Exn → Prop}
    {program : Coroutine S Event Call Exn α} (never : Never refusal program) :
    Never refusal (program.focus get put) := by
  intro env start trace exn final runs
  exact never (runs_focus lawful runs).1

theorem Maintains.focus (lawful : IsPart get put) {kept : S → Prop}
    {program : Coroutine S Event Call Exn α} (holds : Maintains kept program) :
    Maintains (fun whole => kept (get whole)) (program.focus get put) := by
  intro env stable start trace result final before runs
  refine holds ?_ before (runs_focus lawful runs).1
  rintro _ _ ⟨whole, whole', framed, rfl, rfl⟩ part
  exact stable framed part

end Parts

end Concord.Asyncio

import Concord.Asyncio.TaskPolicies

/-!
Contract: a rely/guarantee logic for coroutines with ghost state.

Owns:
- `Logic`, an invariant of the shared state with what a task relies on and
  guarantees, and `Logic.Lawful`, its closure conditions;
- `wp`, the weakest precondition of a coroutine, and its structural rules;
- `wp_focus`, which reuses a specification proved over one component;
- `ReachableBy.meets` and `Reachable.verified`, which turn one `wp` per request into
  an invariant of every reachable pool, where the policy knows the task or not.

The ghost state lives in the logic only. A program never reads it; a proof may
change it together with any step.

Does not own: liveness. A suspension that never becomes ready is allowed.
-/

set_option autoImplicit false

namespace Concord.Asyncio

/-- A protocol between the tasks of a process.

`inv` holds at every suspension. `guar` bounds what a task does between two
suspensions, `rely` what it may find changed by the others. `parked`, `done` and
`fresh` are facts about a task that is suspended at a call, has finished, or has
not started. `known` is an invariant proved before, which may be used and need
not be proved again. -/
structure Logic (Ghost S Call : Type) where
  inv : Ghost → S → Prop
  rely : TaskId → Ghost → S → Ghost → S → Prop
  guar : TaskId → Ghost → S → Ghost → S → Prop
  parked : TaskId → Call → Ghost → S → Prop := fun _ _ _ _ => True
  done : TaskId → Ghost → S → Prop := fun _ _ _ => True
  fresh : TaskId → Ghost → S → Prop := done
  known : S → Prop := fun _ => True

namespace Logic

variable {Ghost S Call : Type}

/-- The closure conditions of a protocol. -/
structure Lawful (logic : Logic Ghost S Call) : Prop where
  rely_refl : ∀ task ghost state, logic.rely task ghost state ghost state
  rely_trans : ∀ {task ghost₁ state₁ ghost₂ state₂ ghost₃ state₃},
    logic.rely task ghost₁ state₁ ghost₂ state₂ →
      logic.rely task ghost₂ state₂ ghost₃ state₃ → logic.rely task ghost₁ state₁ ghost₃ state₃
  guar_rely : ∀ {task other ghost state ghost' state'}, other ≠ task →
    logic.guar other ghost state ghost' state' → logic.rely task ghost state ghost' state'
  parked_stable : ∀ {task call ghost state ghost' state'},
    logic.rely task ghost state ghost' state' → logic.parked task call ghost state →
      logic.parked task call ghost' state'
  done_stable : ∀ {task ghost state ghost' state'},
    logic.rely task ghost state ghost' state' → logic.done task ghost state →
      logic.done task ghost' state'
  fresh_stable : ∀ {task ghost state ghost' state'},
    logic.rely task ghost state ghost' state' → logic.fresh task ghost state →
      logic.fresh task ghost' state'

end Logic

variable {Ghost S Event Call Exn : Type} {α β : Type}

/-- A postcondition: of the result or exception, the ghost and the state. -/
abbrev Post (Ghost S Exn α : Type) := Except Exn α → Ghost → S → Prop

/-- The weakest precondition of a coroutine of `task`. -/
def wp (logic : Logic Ghost S Call) (allows : S → Call → Event → Prop) (task : TaskId) :
    Coroutine S Event Call Exn α → Post Ghost S Exn α → Ghost → S → Prop
  | .ret value, post, ghost, state => post (.ok value) ghost state
  | .raise exn, post, ghost, state => post (.error exn) ghost state
  | .look next, post, ghost, state => wp logic allows task (next state) post ghost state
  | .sync update next, post, ghost, state =>
      ∃ ghost', logic.guar task ghost state ghost' (update state).2 ∧
        wp logic allows task (next (update state).1) post ghost' (update state).2
  | .await call act next, post, ghost, state =>
      logic.inv ghost state ∧ logic.parked task call ghost state ∧
        ∀ ghost₁ state₁, logic.rely task ghost state ghost₁ state₁ → logic.inv ghost₁ state₁ →
          logic.known state₁ → ∀ event b state₂, allows state₁ call event →
            act event state₁ = some (b, state₂) →
              ∃ ghost₂, logic.guar task ghost₁ state₁ ghost₂ state₂ ∧
                wp logic allows task (next b) post ghost₂ state₂

/-! ### Structural rules -/

section Rules

variable {logic : Logic Ghost S Call} {allows : S → Call → Event → Prop} {task : TaskId}
  {ghost : Ghost} {state : S}

@[simp] theorem wp_pure (value : α) (post : Post Ghost S Exn α) :
    wp logic allows task (pure value : Coroutine S Event Call Exn α) post ghost state =
      post (.ok value) ghost state := rfl

@[simp] theorem wp_throw (exn : Exn) (post : Post Ghost S Exn α) :
    wp logic allows task (throw exn : Coroutine S Event Call Exn α) post ghost state =
      post (.error exn) ghost state := rfl

@[simp] theorem wp_get (post : Post Ghost S Exn S) :
    wp logic allows task (get : Coroutine S Event Call Exn S) post ghost state =
      post (.ok state) ghost state := rfl

theorem wp_mono {program : Coroutine S Event Call Exn α} {weak strong : Post Ghost S Exn α}
    (stronger : ∀ result ghost state, strong result ghost state → weak result ghost state)
    (holds : wp logic allows task program strong ghost state) :
    wp logic allows task program weak ghost state := by
  induction program generalizing ghost state with
  | ret value => exact stronger _ _ _ holds
  | raise exn => exact stronger _ _ _ holds
  | look next inductionHypothesis => exact inductionHypothesis _ holds
  | sync update next inductionHypothesis =>
      obtain ⟨ghost', guar, rest⟩ := holds
      exact ⟨ghost', guar, inductionHypothesis _ rest⟩
  | await call act next inductionHypothesis =>
      obtain ⟨inv, parked, resumes⟩ := holds
      refine ⟨inv, parked, fun ghost₁ state₁ rely inv₁ known event b state₂ allowed taken => ?_⟩
      obtain ⟨ghost₂, guar, rest⟩ := resumes ghost₁ state₁ rely inv₁ known event b state₂ allowed taken
      exact ⟨ghost₂, guar, inductionHypothesis _ rest⟩

/-- A protocol that knows more of the state verifies what it verifies without. -/
theorem wp_assuming {known : S → Prop} {program : Coroutine S Event Call Exn α}
    {post : Post Ghost S Exn α} (stronger : ∀ state, known state → logic.known state)
    (holds : wp logic allows task program post ghost state) :
    wp { logic with known := known } allows task program post ghost state := by
  induction program generalizing ghost state with
  | ret value => exact holds
  | raise exn => exact holds
  | look next inductionHypothesis => exact inductionHypothesis _ holds
  | sync update next inductionHypothesis =>
      obtain ⟨ghost', guar, rest⟩ := holds
      exact ⟨ghost', guar, inductionHypothesis _ rest⟩
  | await call act next inductionHypothesis =>
      obtain ⟨inv, parked, resumes⟩ := holds
      refine ⟨inv, parked, fun ghost₁ state₁ rely inv₁ known₁ event b state₂ allowed taken => ?_⟩
      obtain ⟨ghost₂, guar, rest⟩ :=
        resumes ghost₁ state₁ rely inv₁ (stronger _ known₁) event b state₂ allowed taken
      exact ⟨ghost₂, guar, inductionHypothesis _ rest⟩

/-- A relation that every step of the task and of the others keeps relates the
start of a program to its end. -/
theorem wp_along {rel : S → S → Prop} (refl : ∀ state, rel state state)
    (trans : ∀ {first second third}, rel first second → rel second third → rel first third)
    (own : ∀ {ghost state ghost' state'}, logic.guar task ghost state ghost' state' → rel state state')
    (others : ∀ {ghost state ghost' state'},
      logic.rely task ghost state ghost' state' → rel state state')
    {program : Coroutine S Event Call Exn α} {post : Post Ghost S Exn α}
    (holds : wp logic allows task program post ghost state) :
    wp logic allows task program
      (fun result ghost' state' => post result ghost' state' ∧ rel state state') ghost state := by
  have along : ∀ {ghost middle}, rel state middle → wp logic allows task program post ghost middle →
      wp logic allows task program
        (fun result ghost' state' => post result ghost' state' ∧ rel state state') ghost middle := by
    clear holds
    induction program with
    | ret value => exact fun before holds => ⟨holds, before⟩
    | raise exn => exact fun before holds => ⟨holds, before⟩
    | look next inductionHypothesis => exact fun before holds => inductionHypothesis _ before holds
    | sync update next inductionHypothesis =>
        rintro ghost middle before ⟨ghost', guar, rest⟩
        exact ⟨ghost', guar, inductionHypothesis _ (trans before (own guar)) rest⟩
    | await call act next inductionHypothesis =>
        rintro ghost middle before ⟨inv, parked, resumes⟩
        refine ⟨inv, parked, fun ghost₁ state₁ rely inv₁ known event b state₂ allowed taken => ?_⟩
        obtain ⟨ghost₂, guar, rest⟩ :=
          resumes ghost₁ state₁ rely inv₁ known event b state₂ allowed taken
        exact ⟨ghost₂, guar,
          inductionHypothesis _ (trans (trans before (others rely)) (own guar)) rest⟩
  exact along (refl state) holds

/-- The continuation of a sequence as a postcondition of its first part. -/
def thenPost (logic : Logic Ghost S Call) (allows : S → Call → Event → Prop) (task : TaskId)
    (rest : α → Coroutine S Event Call Exn β) (post : Post Ghost S Exn β) : Post Ghost S Exn α :=
  fun
    | .ok value => wp logic allows task (rest value) post
    | .error exn => post (.error exn)

@[simp] theorem thenPost_ok (rest : α → Coroutine S Event Call Exn β)
    (post : Post Ghost S Exn β) (value : α) :
    thenPost logic allows task rest post (.ok value) = wp logic allows task (rest value) post := rfl

@[simp] theorem thenPost_error (rest : α → Coroutine S Event Call Exn β)
    (post : Post Ghost S Exn β) (exn : Exn) :
    thenPost logic allows task rest post (.error exn) = post (.error exn) := rfl

@[simp] theorem wp_bind (first : Coroutine S Event Call Exn α)
    (rest : α → Coroutine S Event Call Exn β) (post : Post Ghost S Exn β) :
    wp logic allows task (first >>= rest) post ghost state =
      wp logic allows task first (thenPost logic allows task rest post) ghost state := by
  change wp logic allows task (first.bind rest) post ghost state = _
  induction first generalizing ghost state with
  | ret value => rfl
  | raise exn => rfl
  | look next inductionHypothesis => exact inductionHypothesis _
  | sync update next inductionHypothesis =>
      simp only [Coroutine.bind, wp, inductionHypothesis]
  | await call act next inductionHypothesis =>
      simp only [Coroutine.bind, wp, inductionHypothesis]

/-- The handler of an exception as a postcondition of the guarded body. -/
def handlerPost (logic : Logic Ghost S Call) (allows : S → Call → Event → Prop) (task : TaskId)
    (handler : Exn → Coroutine S Event Call Exn α) (post : Post Ghost S Exn α) :
    Post Ghost S Exn α :=
  fun
    | .ok value => post (.ok value)
    | .error exn => wp logic allows task (handler exn) post

@[simp] theorem handlerPost_ok (handler : Exn → Coroutine S Event Call Exn α)
    (post : Post Ghost S Exn α) (value : α) :
    handlerPost logic allows task handler post (.ok value) = post (.ok value) := rfl

@[simp] theorem handlerPost_error (handler : Exn → Coroutine S Event Call Exn α)
    (post : Post Ghost S Exn α) (exn : Exn) :
    handlerPost logic allows task handler post (.error exn) =
      wp logic allows task (handler exn) post := rfl

@[simp] theorem wp_tryExcept (body : Coroutine S Event Call Exn α)
    (handler : Exn → Coroutine S Event Call Exn α) (post : Post Ghost S Exn α) :
    wp logic allows task (body.tryExcept handler) post ghost state =
      wp logic allows task body (handlerPost logic allows task handler post) ghost state := by
  induction body generalizing ghost state with
  | ret value => rfl
  | raise exn => rfl
  | look next inductionHypothesis => exact inductionHypothesis _
  | sync update next inductionHypothesis =>
      simp only [Coroutine.tryExcept, wp, inductionHypothesis]
  | await call act next inductionHypothesis =>
      simp only [Coroutine.tryExcept, wp, inductionHypothesis]

/-- The cleanup of a body as a postcondition of that body. -/
def cleanupPost (logic : Logic Ghost S Call) (allows : S → Call → Event → Prop) (task : TaskId)
    (cleanup : Coroutine S Event Call Exn Unit) (post : Post Ghost S Exn α) :
    Post Ghost S Exn α :=
  fun result => wp logic allows task cleanup fun
    | .ok () => post result
    | .error exn => post (.error exn)

@[simp] theorem wp_tryFinally (body : Coroutine S Event Call Exn α)
    (cleanup : Coroutine S Event Call Exn Unit) (post : Post Ghost S Exn α) :
    wp logic allows task (body.tryFinally cleanup) post ghost state =
      wp logic allows task body (cleanupPost logic allows task cleanup post) ghost state := by
  induction body generalizing ghost state with
  | ret value =>
      change wp logic allows task (cleanup >>= fun _ => pure value) post ghost state = _
      rw [wp_bind]
      change wp logic allows task cleanup _ ghost state = wp logic allows task cleanup _ ghost state
      congr 1
      funext result
      cases result <;> rfl
  | raise exn =>
      change wp logic allows task (cleanup >>= fun _ => throw exn) post ghost state = _
      rw [wp_bind]
      change wp logic allows task cleanup _ ghost state = wp logic allows task cleanup _ ghost state
      congr 1
      funext result
      cases result <;> rfl
  | look next inductionHypothesis => exact inductionHypothesis _
  | sync update next inductionHypothesis =>
      simp only [Coroutine.tryFinally, wp, inductionHypothesis]
  | await call act next inductionHypothesis =>
      simp only [Coroutine.tryFinally, wp, inductionHypothesis]

theorem wp_modifyGet {update : S → α × S} {post : Post Ghost S Exn α} (ghost' : Ghost)
    (guar : logic.guar task ghost state ghost' (update state).2)
    (holds : post (.ok (update state).1) ghost' (update state).2) :
    wp logic allows task (modifyGet update : Coroutine S Event Call Exn α) post ghost state :=
  ⟨ghost', guar, holds⟩

theorem wp_modify {update : S → S} {post : Post Ghost S Exn PUnit} (ghost' : Ghost)
    (guar : logic.guar task ghost state ghost' (update state))
    (holds : post (.ok ⟨⟩) ghost' (update state)) :
    wp logic allows task (modify update : Coroutine S Event Call Exn PUnit) post ghost state :=
  ⟨ghost', guar, holds⟩

theorem wp_atomic {method : S → Except Exn α × S} {post : Post Ghost S Exn α} (ghost' : Ghost)
    (guar : logic.guar task ghost state ghost' (method state).2)
    (holds : post (method state).1 ghost' (method state).2) :
    wp logic allows task (Coroutine.atomic method : Coroutine S Event Call Exn α) post
      ghost state := by
  refine ⟨ghost', guar, ?_⟩
  revert holds
  cases (method state).1 <;> exact id

theorem wp_awaitCall {call : Call} {act : Event → S → Option (Except Exn α × S)}
    {post : Post Ghost S Exn α} (inv : logic.inv ghost state)
    (parked : logic.parked task call ghost state)
    (resumes : ∀ ghost₁ state₁, logic.rely task ghost state ghost₁ state₁ →
      logic.inv ghost₁ state₁ → logic.known state₁ → ∀ event result state₂,
        allows state₁ call event → act event state₁ = some (result, state₂) →
          ∃ ghost₂, logic.guar task ghost₁ state₁ ghost₂ state₂ ∧ post result ghost₂ state₂) :
    wp logic allows task (Coroutine.awaitCall call act : Coroutine S Event Call Exn α) post
      ghost state := by
  refine ⟨inv, parked, fun ghost₁ state₁ rely inv₁ known event result state₂ allowed taken => ?_⟩
  obtain ⟨ghost₂, guar, holds⟩ := resumes ghost₁ state₁ rely inv₁ known event result state₂ allowed taken
  refine ⟨ghost₂, guar, ?_⟩
  cases result <;> exact holds

theorem wp_awaitUntil {call : Call} {act : S → Option (α × S)}
    {post : Post Ghost S Exn α} (inv : logic.inv ghost state)
    (parked : logic.parked task call ghost state)
    (resumes : ∀ ghost₁ state₁, logic.rely task ghost state ghost₁ state₁ →
      logic.inv ghost₁ state₁ → logic.known state₁ → ∀ value state₂,
        act state₁ = some (value, state₂) →
          ∃ ghost₂, logic.guar task ghost₁ state₁ ghost₂ state₂ ∧ post (.ok value) ghost₂ state₂) :
    wp logic allows task (Coroutine.awaitUntil call act : Coroutine S Event Call Exn α) post
      ghost state :=
  ⟨inv, parked, fun ghost₁ state₁ rely inv₁ known _ value state₂ _ taken =>
    resumes ghost₁ state₁ rely inv₁ known value state₂ taken⟩

end Rules

/-! ### Programs that keep an assertion -/

/-- Whatever a program does, an assertion of its task holds before and after. -/
def Preserves (logic : Logic Ghost S Call) (allows : S → Call → Event → Prop) (task : TaskId)
    (assertion : Ghost → S → Prop) (program : Coroutine S Event Call Exn α) : Prop :=
  ∀ ghost state, assertion ghost state →
    wp logic allows task program (fun _ => assertion) ghost state

namespace Preserves

variable {logic : Logic Ghost S Call} {allows : S → Call → Event → Prop} {task : TaskId}
  {assertion : Ghost → S → Prop}

theorem pure (value : α) :
    Preserves logic allows task assertion (Pure.pure value : Coroutine S Event Call Exn α) :=
  fun _ _ holds => holds

theorem throw (exn : Exn) :
    Preserves logic allows task assertion
      (MonadExcept.throw exn : Coroutine S Event Call Exn α) :=
  fun _ _ holds => holds

theorem get : Preserves logic allows task assertion (MonadState.get : Coroutine S Event Call Exn S) :=
  fun _ _ holds => holds

theorem bind {first : Coroutine S Event Call Exn α} {rest : α → Coroutine S Event Call Exn β}
    (holds : Preserves logic allows task assertion first)
    (later : ∀ value, Preserves logic allows task assertion (rest value)) :
    Preserves logic allows task assertion (first >>= rest) := by
  intro ghost state before
  rw [wp_bind]
  refine wp_mono ?_ (holds ghost state before)
  intro result ghost state after
  cases result with
  | ok value => exact later value ghost state after
  | error exn => exact after

theorem tryExcept {body : Coroutine S Event Call Exn α}
    {handler : Exn → Coroutine S Event Call Exn α}
    (holds : Preserves logic allows task assertion body)
    (handled : ∀ exn, Preserves logic allows task assertion (handler exn)) :
    Preserves logic allows task assertion (body.tryExcept handler) := by
  intro ghost state before
  rw [wp_tryExcept]
  refine wp_mono ?_ (holds ghost state before)
  intro result ghost state after
  cases result with
  | ok value => exact after
  | error exn => exact handled exn ghost state after

theorem tryFinally {body : Coroutine S Event Call Exn α}
    {cleanup : Coroutine S Event Call Exn Unit}
    (holds : Preserves logic allows task assertion body)
    (cleaned : Preserves logic allows task assertion cleanup) :
    Preserves logic allows task assertion (body.tryFinally cleanup) := by
  intro ghost state before
  rw [wp_tryFinally]
  refine wp_mono ?_ (holds ghost state before)
  intro result ghost state after
  refine wp_mono ?_ (cleaned ghost state after)
  intro cleanupResult ghost state last
  cases cleanupResult <;> exact last

theorem modifyGet {update : S → α × S}
    (step : ∀ ghost state, assertion ghost state →
      ∃ ghost', logic.guar task ghost state ghost' (update state).2 ∧
        assertion ghost' (update state).2) :
    Preserves logic allows task assertion
      (MonadStateOf.modifyGet update : Coroutine S Event Call Exn α) := by
  intro ghost state before
  obtain ⟨ghost', guar, after⟩ := step ghost state before
  exact wp_modifyGet ghost' guar after

theorem atomic {method : S → Except Exn α × S}
    (step : ∀ ghost state, assertion ghost state →
      ∃ ghost', logic.guar task ghost state ghost' (method state).2 ∧
        assertion ghost' (method state).2) :
    Preserves logic allows task assertion
      (Coroutine.atomic method : Coroutine S Event Call Exn α) := by
  intro ghost state before
  obtain ⟨ghost', guar, after⟩ := step ghost state before
  exact wp_atomic ghost' guar after

theorem awaitCall {call : Call} {act : Event → S → Option (Except Exn α × S)}
    (suspends : ∀ ghost state, assertion ghost state →
      logic.inv ghost state ∧ logic.parked task call ghost state)
    (resumes : ∀ ghost state ghost₁ state₁, assertion ghost state →
      logic.rely task ghost state ghost₁ state₁ → logic.inv ghost₁ state₁ →
        logic.known state₁ → ∀ event result state₂, allows state₁ call event →
          act event state₁ = some (result, state₂) →
            ∃ ghost₂, logic.guar task ghost₁ state₁ ghost₂ state₂ ∧ assertion ghost₂ state₂) :
    Preserves logic allows task assertion
      (Coroutine.awaitCall call act : Coroutine S Event Call Exn α) := by
  intro ghost state before
  obtain ⟨inv, parked⟩ := suspends ghost state before
  exact wp_awaitCall inv parked fun ghost₁ state₁ rely inv₁ known =>
    resumes ghost state ghost₁ state₁ before rely inv₁ known

theorem assuming {known : S → Prop} {program : Coroutine S Event Call Exn α}
    (stronger : ∀ state, known state → logic.known state)
    (holds : Preserves logic allows task assertion program) :
    Preserves { logic with known := known } allows task assertion program :=
  fun ghost state before => wp_assuming stronger (holds ghost state before)

/-- What follows a program that keeps an assertion. -/
theorem bind_wp {first : Coroutine S Event Call Exn α} {rest : α → Coroutine S Event Call Exn β}
    {post : Post Ghost S Exn β} (holds : Preserves logic allows task assertion first)
    (raised : ∀ exn ghost state, assertion ghost state → post (.error exn) ghost state)
    (later : ∀ value ghost state, assertion ghost state →
      wp logic allows task (rest value) post ghost state)
    {ghost : Ghost} {state : S} (before : assertion ghost state) :
    wp logic allows task (first >>= rest) post ghost state := by
  rw [wp_bind]
  refine wp_mono ?_ (holds ghost state before)
  intro result ghost state after
  cases result with
  | ok value => exact later value ghost state after
  | error exn => exact raised exn ghost state after

end Preserves

/-- Whatever a program does, it leads from one assertion of its task to another. -/
def Leads (logic : Logic Ghost S Call) (allows : S → Call → Event → Prop) (task : TaskId)
    (before after : Ghost → S → Prop) (program : Coroutine S Event Call Exn α) : Prop :=
  ∀ ghost state, before ghost state →
    wp logic allows task program (fun _ => after) ghost state

section Leads

variable {logic : Logic Ghost S Call} {allows : S → Call → Event → Prop} {task : TaskId}
  {before after : Ghost → S → Prop}

theorem Preserves.leads {program : Coroutine S Event Call Exn α}
    (holds : Preserves logic allows task before program)
    (implied : ∀ ghost state, before ghost state → after ghost state) :
    Leads logic allows task before after program :=
  fun ghost state start => wp_mono (fun _ => implied) (holds ghost state start)

theorem Preserves.bind_leads {first : Coroutine S Event Call Exn α}
    {rest : α → Coroutine S Event Call Exn β}
    (holds : Preserves logic allows task before first)
    (implied : ∀ ghost state, before ghost state → after ghost state)
    (later : ∀ value, Leads logic allows task before after (rest value)) :
    Leads logic allows task before after (first >>= rest) := by
  intro ghost state start
  rw [wp_bind]
  refine wp_mono ?_ (holds ghost state start)
  intro result ghost state middle
  cases result with
  | ok value => exact later value ghost state middle
  | error exn => exact implied ghost state middle

theorem Leads.tryExcept {body : Coroutine S Event Call Exn α}
    {handler : Exn → Coroutine S Event Call Exn α}
    (holds : Leads logic allows task before after body)
    (handled : ∀ exn, Preserves logic allows task after (handler exn)) :
    Leads logic allows task before after (body.tryExcept handler) := by
  intro ghost state start
  rw [wp_tryExcept]
  refine wp_mono ?_ (holds ghost state start)
  intro result ghost state ended
  cases result with
  | ok value => exact ended
  | error exn => exact handled exn ghost state ended

theorem Leads.tryFinally {middle : Ghost → S → Prop} {body : Coroutine S Event Call Exn α}
    {cleanup : Coroutine S Event Call Exn Unit}
    (holds : Leads logic allows task before middle body)
    (cleaned : Leads logic allows task middle after cleanup) :
    Leads logic allows task before after (body.tryFinally cleanup) := by
  intro ghost state start
  rw [wp_tryFinally]
  refine wp_mono ?_ (holds ghost state start)
  intro result ghost state ended
  refine wp_mono ?_ (cleaned ghost state ended)
  intro cleanupResult ghost state last
  cases cleanupResult <;> exact last

theorem Leads.of_implied {program : Coroutine S Event Call Exn α}
    (implied : ∀ ghost state, before ghost state → after ghost state)
    (holds : Preserves logic allows task after program) :
    Leads logic allows task before after program :=
  fun ghost state start => holds ghost state (implied ghost state start)

end Leads

/-- The postcondition with one assertion for a return and one for an exception. -/
def outcomes (returned raised : Ghost → S → Prop) : Post Ghost S Exn α :=
  fun
    | .ok _ => returned
    | .error _ => raised

/-- A program leads from an assertion to one of two, as it returns or raises. -/
def Attempts (logic : Logic Ghost S Call) (allows : S → Call → Event → Prop) (task : TaskId)
    (before returned raised : Ghost → S → Prop) (program : Coroutine S Event Call Exn α) : Prop :=
  ∀ ghost state, before ghost state →
    wp logic allows task program (outcomes returned raised) ghost state

section Attempts

variable {logic : Logic Ghost S Call} {allows : S → Call → Event → Prop} {task : TaskId}
  {before returned raised : Ghost → S → Prop}

theorem Preserves.attempts {program : Coroutine S Event Call Exn α}
    (holds : Preserves logic allows task before program) :
    Attempts logic allows task before before before program := by
  intro ghost state start
  refine wp_mono ?_ (holds ghost state start)
  intro result ghost state after
  cases result <;> exact after

theorem Attempts.preserves {program : Coroutine S Event Call Exn α}
    (holds : Attempts logic allows task before before before program) :
    Preserves logic allows task before program := by
  intro ghost state start
  refine wp_mono ?_ (holds ghost state start)
  intro result ghost state after
  cases result <;> exact after

namespace Attempts

theorem pure (value : α) (implied : ∀ ghost state, before ghost state → returned ghost state) :
    Attempts logic allows task before returned raised
      (Pure.pure value : Coroutine S Event Call Exn α) :=
  implied

theorem throw (exn : Exn) (implied : ∀ ghost state, before ghost state → raised ghost state) :
    Attempts logic allows task before returned raised
      (MonadExcept.throw exn : Coroutine S Event Call Exn α) :=
  implied

theorem bind {middle : Ghost → S → Prop} {first : Coroutine S Event Call Exn α}
    {rest : α → Coroutine S Event Call Exn β}
    (holds : Attempts logic allows task before middle raised first)
    (later : ∀ value, Attempts logic allows task middle returned raised (rest value)) :
    Attempts logic allows task before returned raised (first >>= rest) := by
  intro ghost state start
  rw [wp_bind]
  refine wp_mono ?_ (holds ghost state start)
  intro result ghost state after
  cases result with
  | ok value => exact later value ghost state after
  | error exn => exact after

theorem mono {strong weak failed : Ghost → S → Prop} {program : Coroutine S Event Call Exn α}
    (holds : Attempts logic allows task before strong raised program)
    (whenReturned : ∀ ghost state, strong ghost state → weak ghost state)
    (whenRaised : ∀ ghost state, raised ghost state → failed ghost state) :
    Attempts logic allows task before weak failed program := by
  intro ghost state start
  refine wp_mono ?_ (holds ghost state start)
  intro result ghost state after
  cases result with
  | ok value => exact whenReturned _ _ after
  | error exn => exact whenRaised _ _ after

theorem of_leads {program : Coroutine S Event Call Exn α}
    (holds : Leads logic allows task before returned program) :
    Attempts logic allows task before returned returned program := by
  intro ghost state start
  refine wp_mono ?_ (holds ghost state start)
  intro result ghost state after
  cases result <;> exact after

/-- A body whose exceptions are dropped does not raise. -/
theorem tryExcept_pure {body : Coroutine S Event Call Exn α} {default : α}
    (holds : Preserves logic allows task before body) :
    Attempts logic allows task before before (fun _ _ => False)
      (body.tryExcept fun _ => Pure.pure default) := by
  intro ghost state start
  rw [wp_tryExcept]
  refine wp_mono ?_ (holds ghost state start)
  intro result ghost state after
  cases result <;> exact after

/-- A body whose exceptions are translated. -/
theorem tryExcept_throw {body : Coroutine S Event Call Exn α} {translate : Exn → Exn}
    (holds : Attempts logic allows task before returned raised body) :
    Attempts logic allows task before returned raised
      (body.tryExcept fun exn => MonadExcept.throw (translate exn)) := by
  intro ghost state start
  rw [wp_tryExcept]
  refine wp_mono ?_ (holds ghost state start)
  intro result ghost state after
  cases result <;> exact after

end Attempts

end Attempts

/-! ### One component of the state -/

/-- How a protocol of a component sits in a protocol of the whole: `frame` is
what the caller knows about the rest of the state, and keeps knowing. -/
structure Embeds {T Inner Outer : Type} (inner : Logic Inner S Call) (outer : Logic Outer T Call)
    (innerAllows : S → Call → Event → Prop) (outerAllows : T → Call → Event → Prop)
    (task : TaskId) (getPart : T → S) (putPart : S → T → T) (project : Outer → Inner)
    (frame : Outer → T → Prop) : Prop where
  get_put : ∀ part whole, getPart (putPart part whole) = part
  allows : ∀ {whole call event}, outerAllows whole call event →
    innerAllows (getPart whole) call event
  suspend : ∀ {ghost whole call}, frame ghost whole → inner.inv (project ghost) (getPart whole) →
    inner.parked task call (project ghost) (getPart whole) →
      outer.inv ghost whole ∧ outer.parked task call ghost whole
  resume : ∀ {ghost whole ghost' whole'}, frame ghost whole →
    outer.rely task ghost whole ghost' whole' → outer.inv ghost' whole' → outer.known whole' →
      frame ghost' whole' ∧
        inner.rely task (project ghost) (getPart whole) (project ghost') (getPart whole') ∧
        inner.inv (project ghost') (getPart whole') ∧ inner.known (getPart whole')
  step : ∀ {ghost whole inner' part}, frame ghost whole →
    inner.guar task (project ghost) (getPart whole) inner' part →
      ∃ ghost', project ghost' = inner' ∧ outer.guar task ghost whole ghost' (putPart part whole) ∧
        frame ghost' (putPart part whole)

/-- A specification over a component holds over the whole, with the frame. -/
theorem wp_focus {T Inner Outer : Type} {inner : Logic Inner S Call} {outer : Logic Outer T Call}
    {innerAllows : S → Call → Event → Prop} {outerAllows : T → Call → Event → Prop}
    {task : TaskId} {getPart : T → S} {putPart : S → T → T} {project : Outer → Inner}
    {frame : Outer → T → Prop}
    (embeds : Embeds inner outer innerAllows outerAllows task getPart putPart project frame)
    {program : Coroutine S Event Call Exn α} {post : Post Inner S Exn α} {ghost : Outer} {whole : T}
    (framed : frame ghost whole)
    (holds : wp inner innerAllows task program post (project ghost) (getPart whole)) :
    wp outer outerAllows task (program.focus getPart putPart)
      (fun result ghost whole => frame ghost whole ∧ post result (project ghost) (getPart whole))
      ghost whole := by
  induction program generalizing ghost whole with
  | ret value => exact ⟨framed, holds⟩
  | raise exn => exact ⟨framed, holds⟩
  | look next inductionHypothesis => exact inductionHypothesis _ framed holds
  | sync update next inductionHypothesis =>
      obtain ⟨inner', guar, rest⟩ := holds
      obtain ⟨ghost', rfl, outerGuar, framed'⟩ := embeds.step framed guar
      refine ⟨ghost', outerGuar, inductionHypothesis _ framed' ?_⟩
      rw [embeds.get_put]
      exact rest
  | await call act next inductionHypothesis =>
      obtain ⟨inv, parked, resumes⟩ := holds
      obtain ⟨outerInv, outerParked⟩ := embeds.suspend framed inv parked
      refine ⟨outerInv, outerParked,
        fun ghost₁ whole₁ rely inv₁ known event b whole₂ allowed taken => ?_⟩
      obtain ⟨framed₁, innerRely, innerInv, innerKnown⟩ := embeds.resume framed rely inv₁ known
      simp only [Option.map_eq_some_iff, Prod.exists, Prod.mk.injEq] at taken
      obtain ⟨b', part, innerTaken, rfl, rfl⟩ := taken
      obtain ⟨inner', guar, rest⟩ := resumes _ _ innerRely innerInv innerKnown event b' part
        (embeds.allows allowed) innerTaken
      obtain ⟨ghost', rfl, outerGuar, framed'⟩ := embeds.step framed₁ guar
      refine ⟨ghost', outerGuar, inductionHypothesis _ framed' ?_⟩
      rw [embeds.get_put]
      exact rest

/-! ### Soundness -/

section Soundness

variable {Request Ambient : Type} {service : Service S Event Call Exn Request Ambient}
  {policy : Policy S Event Call Request} {initial : S → Prop}
  {taskPolicy : TaskPolicy S Event Call Request}

def Logic.finished (logic : Logic Ghost S Call) (task : TaskId) : Post Ghost S Exn Unit :=
  fun _ ghost state => logic.inv ghost state ∧ logic.done task ghost state

/-- What the proof keeps of one task of a pool. -/
def TaskVerified (logic : Logic Ghost S Call) (policy : Policy S Event Call Request)
    (pool : Pool S Event Call Exn Request) (ghost : Ghost) (task : TaskId) : Prop :=
  match pool.tasks task with
  | none => logic.fresh task ghost pool.state
  | some (request, program) =>
      program.Settled ∧
        wp logic (policy request) task program (logic.finished task) ghost pool.state

/-- A service keeps a protocol: it starts in it, every request has its weakest
precondition, and the outside world and a crash respect it. -/
structure Keeps (logic : Logic Ghost S Call) (service : Service S Event Call Exn Request Ambient)
    (policy : Policy S Event Call Request) (initial : S → Prop) : Prop where
  start : ∀ {state}, initial state →
    ∃ ghost, logic.inv ghost state ∧ ∀ task, logic.fresh task ghost state
  request : ∀ {task request ghost state}, logic.inv ghost state → logic.known state →
    logic.fresh task ghost state →
      wp logic (policy request) task (service.handler request task) (logic.finished task)
        ghost state
  ambient : ∀ {change ghost state state'}, service.ambient change state = some state' →
    logic.inv ghost state → logic.known state →
      ∃ ghost', logic.inv ghost' state' ∧ ∀ task, logic.rely task ghost state ghost' state'
  restart : ∀ {ghost state}, logic.inv ghost state →
    ∃ ghost', logic.inv ghost' (service.restart state) ∧
      ∀ task, logic.fresh task ghost' (service.restart state)

/-- A postcondition of a request that outlasts the steps of the other tasks. -/
structure Lasts (logic : Logic Ghost S Call) (task : TaskId) (post : Post Ghost S Exn Unit) :
    Prop where
  inv : ∀ {result ghost state}, post result ghost state → logic.inv ghost state
  stable : ∀ {result ghost state ghost' state'}, logic.rely task ghost state ghost' state' →
    logic.inv ghost' state' → post result ghost state → post result ghost' state'

theorem lasts_finished {logic : Logic Ghost S Call} (lawful : logic.Lawful) (task : TaskId) :
    Lasts logic task (logic.finished task : Post Ghost S Exn Unit) where
  inv holds := holds.1
  stable rely inv holds := ⟨inv, lawful.done_stable rely holds.2⟩

/-- A settled coroutine keeps its weakest precondition while the others run. -/
theorem wp_stable {logic : Logic Ghost S Call} (lawful : logic.Lawful)
    {allows : S → Call → Event → Prop} {task : TaskId} {post : Post Ghost S Exn Unit}
    (lasts : Lasts logic task post) {program : Coroutine S Event Call Exn Unit}
    (settled : program.Settled) {ghost ghost' : Ghost} {state state' : S}
    (rely : logic.rely task ghost state ghost' state') (inv : logic.inv ghost' state')
    (holds : wp logic allows task program post ghost state) :
    wp logic allows task program post ghost' state' := by
  cases program with
  | ret value => exact lasts.stable rely inv holds
  | raise exn => exact lasts.stable rely inv holds
  | look next => cases settled
  | sync update next => cases settled
  | await call act next =>
      obtain ⟨_, parked, resumes⟩ := holds
      exact ⟨inv, lawful.parked_stable rely parked, fun ghost₁ state₁ rely₁ =>
        resumes ghost₁ state₁ (lawful.rely_trans rely rely₁)⟩

/-- Running to the next suspension keeps the weakest precondition, and is a step
that the other tasks rely on. -/
theorem wp_settle {logic : Logic Ghost S Call} (lawful : logic.Lawful)
    {allows : S → Call → Event → Prop} {task : TaskId}
    {program : Coroutine S Event Call Exn α} {post : Post Ghost S Exn α} {ghost : Ghost} {state : S}
    (holds : wp logic allows task program post ghost state) :
    ∃ ghost', wp logic allows task (program.settle state).1 post ghost' (program.settle state).2 ∧
      ∀ other, task ≠ other →
        logic.rely other ghost state ghost' (program.settle state).2 := by
  induction program generalizing ghost state with
  | ret value => exact ⟨ghost, holds, fun other _ => lawful.rely_refl _ _ _⟩
  | raise exn => exact ⟨ghost, holds, fun other _ => lawful.rely_refl _ _ _⟩
  | look next inductionHypothesis => exact inductionHypothesis _ holds
  | sync update next inductionHypothesis =>
      obtain ⟨ghost₁, guar, rest⟩ := holds
      obtain ⟨ghost₂, settled, rely⟩ := inductionHypothesis _ rest
      exact ⟨ghost₂, settled, fun other different =>
        lawful.rely_trans (lawful.guar_rely different guar) (rely other different)⟩
  | await call act next => exact ⟨ghost, holds, fun other _ => lawful.rely_refl _ _ _⟩

/-- A settled coroutine that meets the postcondition of its request leaves the
invariant. -/
theorem inv_of_settled {logic : Logic Ghost S Call} {allows : S → Call → Event → Prop}
    {task : TaskId} {post : Post Ghost S Exn Unit} (lasts : Lasts logic task post)
    {program : Coroutine S Event Call Exn Unit} (settled : program.Settled)
    {ghost : Ghost} {state : S} (holds : wp logic allows task program post ghost state) :
    logic.inv ghost state := by
  cases program with
  | ret value => exact lasts.inv holds
  | raise exn => exact lasts.inv holds
  | look next => cases settled
  | sync update next => cases settled
  | await call act next => exact holds.1

/-- What the proof keeps of one task of a pool, where each request has a
postcondition of its own and the policy knows the task. -/
def TaskMeetsBy (logic : Logic Ghost S Call) (policy : TaskPolicy S Event Call Request)
    (post : TaskId → Request → Post Ghost S Exn Unit)
    (pool : Pool S Event Call Exn Request) (ghost : Ghost) (task : TaskId) : Prop :=
  match pool.tasks task with
  | none => logic.fresh task ghost pool.state
  | some (request, program) =>
      program.Settled ∧
        wp logic (policy task request) task program (post task request) ghost pool.state

/-- What the proof keeps of one task of a pool, where each request has a
postcondition of its own. -/
def TaskMeets (logic : Logic Ghost S Call) (policy : Policy S Event Call Request)
    (post : TaskId → Request → Post Ghost S Exn Unit)
    (pool : Pool S Event Call Exn Request) (ghost : Ghost) (task : TaskId) : Prop :=
  match pool.tasks task with
  | none => logic.fresh task ghost pool.state
  | some (request, program) =>
      program.Settled ∧
        wp logic (policy request) task program (post task request) ghost pool.state

/-- A task that runs to its next suspension leaves a verified pool. -/
theorem meets_runTask {logic : Logic Ghost S Call} (lawful : logic.Lawful)
    {post : TaskId → Request → Post Ghost S Exn Unit}
    (lasts : ∀ task request, Lasts logic task (post task request))
    {pool : Pool S Event Call Exn Request} {ghost ghost₁ : Ghost} {state₁ : S}
    {task : TaskId} {request : Request} {program : Coroutine S Event Call Exn Unit}
    (tasks : ∀ other, TaskMeetsBy logic taskPolicy post pool ghost other)
    (before : ∀ other, task ≠ other → logic.rely other ghost pool.state ghost₁ state₁)
    (holds : wp logic (taskPolicy task request) task program (post task request) ghost₁ state₁) :
    ∃ ghost', logic.inv ghost' (pool.runTask task request program state₁).state ∧
      ∀ other, TaskMeetsBy logic taskPolicy post (pool.runTask task request program state₁) ghost'
        other := by
  obtain ⟨ghost₂, settled, rely⟩ := wp_settle lawful holds
  have isSettled := Coroutine.settled_settle program state₁
  have inv := inv_of_settled (lasts task request) isSettled settled
  refine ⟨ghost₂, inv, fun other => ?_⟩
  by_cases same : other = task
  · subst same
    simp only [TaskMeetsBy, Pool.runTask, Function.update_self]
    exact ⟨isSettled, settled⟩
  · have different : task ≠ other := fun equal => same equal.symm
    have rely₂ := lawful.rely_trans (before other different) (rely other different)
    have meets := tasks other
    simp only [TaskMeetsBy, Pool.runTask, Function.update_of_ne same] at meets ⊢
    split at meets
    · exact lawful.fresh_stable rely₂ meets
    · exact ⟨meets.1, wp_stable lawful (lasts _ _) meets.1 rely₂ inv meets.2⟩

/-- A service keeps a protocol under a policy for each task. -/
structure KeepsBy (logic : Logic Ghost S Call) (service : Service S Event Call Exn Request Ambient)
    (policy : TaskPolicy S Event Call Request) (initial : S → Prop) : Prop where
  start : ∀ {state}, initial state →
    ∃ ghost, logic.inv ghost state ∧ ∀ task, logic.fresh task ghost state
  request : ∀ {task request ghost state}, logic.inv ghost state → logic.known state →
    logic.fresh task ghost state →
      wp logic (policy task request) task (service.handler request task) (logic.finished task)
        ghost state
  ambient : ∀ {change ghost state state'}, service.ambient change state = some state' →
    logic.inv ghost state → logic.known state →
      ∃ ghost', logic.inv ghost' state' ∧ ∀ task, logic.rely task ghost state ghost' state'
  restart : ∀ {ghost state}, logic.inv ghost state →
    ∃ ghost', logic.inv ghost' (service.restart state) ∧
      ∀ task, logic.fresh task ghost' (service.restart state)

/-- **Soundness.** When a service keeps a protocol and its requests meet lasting
postconditions, the invariant holds in every reachable pool, and so does what the
proof says of each task. -/
theorem ReachableBy.meets {logic : Logic Ghost S Call} (lawful : logic.Lawful)
    (keeps : KeepsBy logic service taskPolicy initial)
    (known : ∀ {pool : Pool S Event Call Exn Request},
      ReachableBy service taskPolicy initial pool → logic.known pool.state)
    {post : TaskId → Request → Post Ghost S Exn Unit}
    (lasts : ∀ task request, Lasts logic task (post task request))
    (requests : ∀ {task request ghost state}, logic.inv ghost state → logic.known state →
      logic.fresh task ghost state →
        wp logic (taskPolicy task request) task (service.handler request task) (post task request)
          ghost state)
    {pool : Pool S Event Call Exn Request} (reached : ReachableBy service taskPolicy initial pool) :
    ∃ ghost, logic.inv ghost pool.state ∧
      ∀ task, TaskMeetsBy logic taskPolicy post pool ghost task := by
  induction reached with
  | start holds =>
      obtain ⟨ghost, inv, fresh⟩ := keeps.start holds
      exact ⟨ghost, inv, fresh⟩
  | step reached next inductionHypothesis =>
      obtain ⟨ghost, inv, tasks⟩ := inductionHypothesis
      have knownBefore := known reached
      cases next with
      | spawn task request unused =>
          have fresh := tasks task
          simp only [TaskMeetsBy, unused] at fresh
          exact meets_runTask lawful lasts tasks (fun _ _ => lawful.rely_refl _ _ _)
            (requests inv knownBefore fresh)
      | @resume task request call β act next event b state suspended allowed taken =>
          have meets := tasks task
          simp only [TaskMeetsBy, suspended] at meets
          obtain ⟨_, _, _, resumes⟩ := meets
          obtain ⟨ghost₁, guar, rest⟩ :=
            resumes _ _ (lawful.rely_refl _ _ _) inv knownBefore _ _ _ allowed taken
          exact meets_runTask lawful lasts tasks
            (fun _ different => lawful.guar_rely different guar) rest
      | ambient taken =>
          obtain ⟨ghost', inv', rely⟩ := keeps.ambient taken inv knownBefore
          refine ⟨ghost', inv', fun other => ?_⟩
          have meets := tasks other
          simp only [TaskMeetsBy] at meets ⊢
          split at meets
          · exact lawful.fresh_stable (rely other) meets
          · exact ⟨meets.1, wp_stable lawful (lasts _ _) meets.1 (rely other) inv' meets.2⟩
      | restart =>
          obtain ⟨ghost', inv', fresh⟩ := keeps.restart inv
          exact ⟨ghost', inv', fresh⟩

/-- A task that is suspended at a call has the fact of that call. -/
theorem TaskMeetsBy.parked {logic : Logic Ghost S Call}
    {post : TaskId → Request → Post Ghost S Exn Unit} {pool : Pool S Event Call Exn Request}
    {ghost : Ghost} {task : TaskId} (meets : TaskMeetsBy logic taskPolicy post pool ghost task)
    {request : Request} {call : Call} {β : Type} {act : Event → S → Option (β × S)}
    {next : β → Coroutine S Event Call Exn Unit}
    (suspended : pool.tasks task = some (request, .await call act next)) :
    logic.parked task call ghost pool.state := by
  simp only [TaskMeetsBy, suspended] at meets
  exact meets.2.2.1

/-- Soundness under a policy on requests. -/
theorem Reachable.meets {logic : Logic Ghost S Call} (lawful : logic.Lawful)
    (keeps : Keeps logic service policy initial)
    (known : ∀ {pool : Pool S Event Call Exn Request},
      Reachable service policy initial pool → logic.known pool.state)
    {post : TaskId → Request → Post Ghost S Exn Unit}
    (lasts : ∀ task request, Lasts logic task (post task request))
    (requests : ∀ {task request ghost state}, logic.inv ghost state → logic.known state →
      logic.fresh task ghost state →
        wp logic (policy request) task (service.handler request task) (post task request) ghost state)
    {pool : Pool S Event Call Exn Request} (reached : Reachable service policy initial pool) :
    ∃ ghost, logic.inv ghost pool.state ∧ ∀ task, TaskMeets logic policy post pool ghost task :=
  (reached.forTasks fun _ _ _ _ _ allowed => allowed).meets lawful
    ⟨keeps.start, keeps.request, keeps.ambient, keeps.restart⟩
    (fun reached => known (reached.reachable fun _ _ _ _ _ allowed => allowed)) lasts requests

/-- Soundness, where no request promises more than that it leaves the invariant. -/
theorem Reachable.verified {logic : Logic Ghost S Call} (lawful : logic.Lawful)
    (keeps : Keeps logic service policy initial)
    (known : ∀ {pool : Pool S Event Call Exn Request},
      Reachable service policy initial pool → logic.known pool.state)
    {pool : Pool S Event Call Exn Request} (reached : Reachable service policy initial pool) :
    ∃ ghost, logic.inv ghost pool.state ∧ ∀ task, TaskVerified logic policy pool ghost task :=
  reached.meets lawful keeps known (fun task _ => lasts_finished lawful task) keeps.request

/-- A request that has returned meets its postcondition. -/
theorem TaskMeets.returned {logic : Logic Ghost S Call}
    {post : TaskId → Request → Post Ghost S Exn Unit} {pool : Pool S Event Call Exn Request}
    {ghost : Ghost} {task : TaskId} (meets : TaskMeets logic policy post pool ghost task)
    {request : Request} (ended : pool.tasks task = some (request, .ret ())) :
    post task request (.ok ()) ghost pool.state := by
  simp only [TaskMeets, ended] at meets
  exact meets.2

/-- A task that is suspended at a call has the fact of that call. -/
theorem TaskVerified.parked {logic : Logic Ghost S Call} {pool : Pool S Event Call Exn Request}
    {ghost : Ghost} {task : TaskId} (verified : TaskVerified logic policy pool ghost task)
    {request : Request} {call : Call} {β : Type} {act : Event → S → Option (β × S)}
    {next : β → Coroutine S Event Call Exn Unit}
    (suspended : pool.tasks task = some (request, .await call act next)) :
    logic.parked task call ghost pool.state := by
  simp only [TaskVerified, suspended] at verified
  exact verified.2.2.1

end Soundness

end Concord.Asyncio

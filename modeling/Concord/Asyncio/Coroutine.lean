/-!
Contract: coroutines of a cooperative event loop.

Owns:
- `Coroutine`, the resumption tree of an `async def`: pure control, synchronous
  reads and updates of the shared state, and suspension points;
- the monad structure, exceptions, `tryExcept` and `tryFinally`;
- `focus`, a coroutine over one component of a larger state, and its laws;
- `settle`, the synchronous run of a coroutine up to its next suspension.

A coroutine runs alone between two suspensions. Only an `await` node lets other
tasks in, so a block of `sync` nodes is atomic by construction and needs no
locking argument.

Does not own: the tasks of a program or their interleaving.
-/

set_option autoImplicit false

namespace Concord.Asyncio

abbrev TaskId := Nat

/-- An `async` computation over the shared state `S`.

`Event` is what the outside world answers at a suspension, `Call` names the
operation that is awaited, and `Exn` is the type of exceptions. A suspension
whose `act` gives `none` is not ready: the event cannot occur there, or the
awaited lock is taken. -/
inductive Coroutine (S Event Call Exn : Type) (α : Type) : Type 1 where
  | ret (value : α) : Coroutine S Event Call Exn α
  | raise (exn : Exn) : Coroutine S Event Call Exn α
  | look (next : S → Coroutine S Event Call Exn α) : Coroutine S Event Call Exn α
  | sync {β : Type} (update : S → β × S) (next : β → Coroutine S Event Call Exn α) :
      Coroutine S Event Call Exn α
  | await {β : Type} (call : Call) (act : Event → S → Option (β × S))
      (next : β → Coroutine S Event Call Exn α) : Coroutine S Event Call Exn α

namespace Coroutine

variable {S Event Call Exn : Type} {α β : Type}

/-- Sequencing: `rest` takes over when the first part returns. -/
def bind (first : Coroutine S Event Call Exn α)
    (rest : α → Coroutine S Event Call Exn β) : Coroutine S Event Call Exn β :=
  match first with
  | ret value => rest value
  | raise exn => raise exn
  | look next => look fun state => (next state).bind rest
  | sync update next => sync update fun b => (next b).bind rest
  | await call act next => await call act fun b => (next b).bind rest

/-- `try: body except Exception as exn: handler exn`. -/
def tryExcept (body : Coroutine S Event Call Exn α)
    (handler : Exn → Coroutine S Event Call Exn α) : Coroutine S Event Call Exn α :=
  match body with
  | ret value => ret value
  | raise exn => handler exn
  | look next => look fun state => (next state).tryExcept handler
  | sync update next => sync update fun b => (next b).tryExcept handler
  | await call act next => await call act fun b => (next b).tryExcept handler

instance : Monad (Coroutine S Event Call Exn) where
  pure := ret
  bind := bind

instance : MonadStateOf S (Coroutine S Event Call Exn) where
  get := look ret
  set state := sync (fun _ => ((), state)) ret
  modifyGet update := sync update ret

instance : MonadExceptOf Exn (Coroutine S Event Call Exn) where
  throw := raise
  tryCatch := tryExcept

/-- `try: body finally: cleanup`. The exception of `body` is raised again after
`cleanup`; an exception of `cleanup` replaces it. -/
def tryFinally (body : Coroutine S Event Call Exn α)
    (cleanup : Coroutine S Event Call Exn Unit) : Coroutine S Event Call Exn α :=
  match body with
  | ret value => cleanup.bind fun _ => ret value
  | raise exn => cleanup.bind fun _ => raise exn
  | look next => look fun state => (next state).tryFinally cleanup
  | sync update next => sync update fun b => (next b).tryFinally cleanup
  | await call act next => await call act fun b => (next b).tryFinally cleanup

/-- A synchronous method that returns or raises. -/
def atomic (method : S → Except Exn α × S) : Coroutine S Event Call Exn α :=
  sync method fun
    | .ok value => ret value
    | .error exn => raise exn

/-- Suspend on a call that answers with a value or an exception. -/
def awaitCall (call : Call) (act : Event → S → Option (Except Exn α × S)) :
    Coroutine S Event Call Exn α :=
  await call act fun
    | .ok value => ret value
    | .error exn => raise exn

/-- Suspend until the state can take the step `act`, whatever the event. -/
def awaitUntil (call : Call) (act : S → Option (α × S)) : Coroutine S Event Call Exn α :=
  await call (fun _ state => act state) ret

/-- Run a coroutine over one component of a larger state. -/
def focus {T : Type} (get : T → S) (put : S → T → T) :
    Coroutine S Event Call Exn α → Coroutine T Event Call Exn α
  | ret value => ret value
  | raise exn => raise exn
  | look next => look fun whole => (next (get whole)).focus get put
  | sync update next =>
      sync (fun whole => let (b, part) := update (get whole); (b, put part whole))
        fun b => (next b).focus get put
  | await call act next =>
      await call
        (fun event whole => (act event (get whole)).map fun (b, part) => (b, put part whole))
        fun b => (next b).focus get put

section Focus

variable {T : Type} (get : T → S) (put : S → T → T)

theorem focus_bind (first : Coroutine S Event Call Exn α)
    (rest : α → Coroutine S Event Call Exn β) :
    (first >>= rest).focus get put = first.focus get put >>= fun value => (rest value).focus get put := by
  change (first.bind rest).focus get put =
    (first.focus get put).bind fun value => (rest value).focus get put
  induction first with
  | ret value => rfl
  | raise exn => rfl
  | look next inductionHypothesis => exact congrArg _ (funext fun _ => inductionHypothesis _)
  | sync update next inductionHypothesis => exact congrArg _ (funext fun _ => inductionHypothesis _)
  | await call act next inductionHypothesis =>
      exact congrArg _ (funext fun _ => inductionHypothesis _)

theorem focus_tryExcept (body : Coroutine S Event Call Exn α)
    (handler : Exn → Coroutine S Event Call Exn α) :
    (body.tryExcept handler).focus get put =
      (body.focus get put).tryExcept fun exn => (handler exn).focus get put := by
  induction body with
  | ret value => rfl
  | raise exn => rfl
  | look next inductionHypothesis => exact congrArg _ (funext fun _ => inductionHypothesis _)
  | sync update next inductionHypothesis => exact congrArg _ (funext fun _ => inductionHypothesis _)
  | await call act next inductionHypothesis =>
      exact congrArg _ (funext fun _ => inductionHypothesis _)

theorem focus_tryFinally (body : Coroutine S Event Call Exn α)
    (cleanup : Coroutine S Event Call Exn Unit) :
    (body.tryFinally cleanup).focus get put =
      (body.focus get put).tryFinally (cleanup.focus get put) := by
  induction body with
  | ret value => exact focus_bind get put cleanup _
  | raise exn => exact focus_bind get put cleanup _
  | look next inductionHypothesis => exact congrArg _ (funext fun _ => inductionHypothesis _)
  | sync update next inductionHypothesis => exact congrArg _ (funext fun _ => inductionHypothesis _)
  | await call act next inductionHypothesis =>
      exact congrArg _ (funext fun _ => inductionHypothesis _)

end Focus

/-- The synchronous run up to the next suspension, or to the end. -/
def settle : Coroutine S Event Call Exn α → S → Coroutine S Event Call Exn α × S
  | ret value, state => (ret value, state)
  | raise exn, state => (raise exn, state)
  | look next, state => (next state).settle state
  | sync update next, state => (next (update state).1).settle (update state).2
  | await call act next, state => (await call act next, state)

/-- A coroutine that is finished or suspended. -/
def Settled : Coroutine S Event Call Exn α → Prop
  | look _ => False
  | sync _ _ => False
  | _ => True

theorem settled_settle (program : Coroutine S Event Call Exn α) (state : S) :
    (program.settle state).1.Settled := by
  induction program generalizing state with
  | ret value => trivial
  | raise exn => trivial
  | look next inductionHypothesis => exact inductionHypothesis _ _
  | sync update next inductionHypothesis => exact inductionHypothesis _ _
  | await call act next => trivial

/-- The run of one coroutine alone: each suspension takes the next event of the
list. `none` when the events run out or a suspension is not ready. -/
def drive : Coroutine S Event Call Exn α → List Event → S → Option (Except Exn α × S)
  | ret value, _, state => some (.ok value, state)
  | raise exn, _, state => some (.error exn, state)
  | look next, events, state => (next state).drive events state
  | sync update next, events, state => (next (update state).1).drive events (update state).2
  | await _ _ _, [], _ => none
  | await _ act next, event :: events, state =>
      match act event state with
      | none => none
      | some (b, state) => (next b).drive events state

/-- Every suspension of the coroutine is one of some calls. -/
def Awaits (calls : Call → Prop) : Coroutine S Event Call Exn α → Prop
  | ret _ => True
  | raise _ => True
  | look next => ∀ state, (next state).Awaits calls
  | sync _ next => ∀ b, (next b).Awaits calls
  | await call _ next => calls call ∧ ∀ b, (next b).Awaits calls

namespace Awaits

variable {calls : Call → Prop}

theorem bind {first : Coroutine S Event Call Exn α} {rest : α → Coroutine S Event Call Exn β}
    (holds : first.Awaits calls) (later : ∀ value, (rest value).Awaits calls) :
    (first >>= rest).Awaits calls := by
  change (first.bind rest).Awaits calls
  induction first with
  | ret value => exact later value
  | raise exn => trivial
  | look next inductionHypothesis => exact fun state => inductionHypothesis state (holds state)
  | sync update next inductionHypothesis => exact fun b => inductionHypothesis b (holds b)
  | await call act next inductionHypothesis =>
      exact ⟨holds.1, fun b => inductionHypothesis b (holds.2 b)⟩

theorem tryExcept {body : Coroutine S Event Call Exn α}
    {handler : Exn → Coroutine S Event Call Exn α} (holds : body.Awaits calls)
    (handled : ∀ exn, (handler exn).Awaits calls) : (body.tryExcept handler).Awaits calls := by
  induction body with
  | ret value => trivial
  | raise exn => exact handled exn
  | look next inductionHypothesis => exact fun state => inductionHypothesis state (holds state)
  | sync update next inductionHypothesis => exact fun b => inductionHypothesis b (holds b)
  | await call act next inductionHypothesis =>
      exact ⟨holds.1, fun b => inductionHypothesis b (holds.2 b)⟩

theorem tryFinally {body : Coroutine S Event Call Exn α}
    {cleanup : Coroutine S Event Call Exn Unit} (holds : body.Awaits calls)
    (cleaned : cleanup.Awaits calls) : (body.tryFinally cleanup).Awaits calls := by
  induction body with
  | ret value => exact bind cleaned fun _ => trivial
  | raise exn => exact bind cleaned fun _ => trivial
  | look next inductionHypothesis => exact fun state => inductionHypothesis state (holds state)
  | sync update next inductionHypothesis => exact fun b => inductionHypothesis b (holds b)
  | await call act next inductionHypothesis =>
      exact ⟨holds.1, fun b => inductionHypothesis b (holds.2 b)⟩

theorem atomic (method : S → Except Exn α × S) :
    (Coroutine.atomic method : Coroutine S Event Call Exn α).Awaits calls := by
  intro result
  cases result <;> trivial

theorem awaitCall {call : Call} (allowed : calls call)
    (act : Event → S → Option (Except Exn α × S)) :
    (Coroutine.awaitCall call act : Coroutine S Event Call Exn α).Awaits calls := by
  refine ⟨allowed, ?_⟩
  intro result
  cases result <;> trivial

end Awaits

end Coroutine

end Concord.Asyncio

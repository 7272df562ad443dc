import Mathlib.Logic.Hydra
import Mathlib.Order.WellFounded
import Concord.Asyncio.Views

/-!
Contract: coroutines whose steps are all of one kind, and processes that come to
rest.

Owns:
- `Discipline`, a condition on the updates and on the suspensions of a coroutine,
  and its structural rules;
- `Answer`, the steps of a process that answer an awaited call;
- `Reachable.answers_end`: answers do not follow each other for ever;
- `exists_answer`: a suspension that is ready can be answered.

A coroutine is a tree without infinite branches, which bounds the answers that one
task takes. The tasks of a pool together are a multiset of such trees, and an answer
cuts one of them.

Does not own: which suspensions are ready.
-/

set_option autoImplicit false

namespace Concord.Asyncio

variable {S Event Call Exn Request Ambient : Type} {α β : Type}

/-! ### Disciplines -/

/-- A condition on the synchronous updates and on the suspensions of a coroutine. -/
structure Discipline (S Event Call : Type) where
  update : ∀ {β : Type}, (S → β × S) → Prop
  wait : ∀ {β : Type}, Call → (Event → S → Option (β × S)) → Prop

/-- Every update and every suspension of the coroutine meets the condition. -/
def Coroutine.Obeys (discipline : Discipline S Event Call) : Coroutine S Event Call Exn α → Prop
  | ret _ => True
  | raise _ => True
  | look next => ∀ state, (next state).Obeys discipline
  | sync update next => discipline.update update ∧ ∀ b, (next b).Obeys discipline
  | await call act next => discipline.wait call act ∧ ∀ b, (next b).Obeys discipline

namespace Coroutine.Obeys

variable {discipline : Discipline S Event Call}

theorem pure (value : α) :
    (Pure.pure value : Coroutine S Event Call Exn α).Obeys discipline := trivial

theorem throw (exn : Exn) :
    (MonadExcept.throw exn : Coroutine S Event Call Exn α).Obeys discipline := trivial

theorem get : (MonadState.get : Coroutine S Event Call Exn S).Obeys discipline :=
  fun _ => trivial

theorem modifyGet {update : S → α × S} (allowed : discipline.update update) :
    (MonadStateOf.modifyGet update : Coroutine S Event Call Exn α).Obeys discipline :=
  ⟨allowed, fun _ => trivial⟩

theorem atomic {method : S → Except Exn α × S} (allowed : discipline.update method) :
    (Coroutine.atomic method : Coroutine S Event Call Exn α).Obeys discipline := by
  refine ⟨allowed, fun answer => ?_⟩
  cases answer <;> trivial

theorem awaitCall {call : Call} {act : Event → S → Option (Except Exn α × S)}
    (allowed : discipline.wait call act) :
    (Coroutine.awaitCall call act : Coroutine S Event Call Exn α).Obeys discipline := by
  refine ⟨allowed, fun answer => ?_⟩
  cases answer <;> trivial

theorem awaitUntil {call : Call} {act : S → Option (α × S)}
    (allowed : discipline.wait call fun _ : Event => act) :
    (Coroutine.awaitUntil call act : Coroutine S Event Call Exn α).Obeys discipline :=
  ⟨allowed, fun _ => trivial⟩

theorem bind {first : Coroutine S Event Call Exn α} {rest : α → Coroutine S Event Call Exn β}
    (obeys : first.Obeys discipline) (later : ∀ value, (rest value).Obeys discipline) :
    (first >>= rest).Obeys discipline := by
  change (first.bind rest).Obeys discipline
  induction first with
  | ret value => exact later value
  | raise exn => trivial
  | look next inductionHypothesis => exact fun state => inductionHypothesis state (obeys state)
  | sync update next inductionHypothesis =>
      exact ⟨obeys.1, fun b => inductionHypothesis b (obeys.2 b)⟩
  | await call act next inductionHypothesis =>
      exact ⟨obeys.1, fun b => inductionHypothesis b (obeys.2 b)⟩

theorem tryExcept {body : Coroutine S Event Call Exn α}
    {handler : Exn → Coroutine S Event Call Exn α} (obeys : body.Obeys discipline)
    (handled : ∀ exn, (handler exn).Obeys discipline) :
    (body.tryExcept handler).Obeys discipline := by
  induction body with
  | ret value => trivial
  | raise exn => exact handled exn
  | look next inductionHypothesis => exact fun state => inductionHypothesis state (obeys state)
  | sync update next inductionHypothesis =>
      exact ⟨obeys.1, fun b => inductionHypothesis b (obeys.2 b)⟩
  | await call act next inductionHypothesis =>
      exact ⟨obeys.1, fun b => inductionHypothesis b (obeys.2 b)⟩

theorem tryFinally {body : Coroutine S Event Call Exn α}
    {cleanup : Coroutine S Event Call Exn Unit} (obeys : body.Obeys discipline)
    (cleaned : cleanup.Obeys discipline) : (body.tryFinally cleanup).Obeys discipline := by
  induction body with
  | ret value => exact bind cleaned fun _ => trivial
  | raise exn => exact bind cleaned fun _ => trivial
  | look next inductionHypothesis => exact fun state => inductionHypothesis state (obeys state)
  | sync update next inductionHypothesis =>
      exact ⟨obeys.1, fun b => inductionHypothesis b (obeys.2 b)⟩
  | await call act next inductionHypothesis =>
      exact ⟨obeys.1, fun b => inductionHypothesis b (obeys.2 b)⟩

theorem weaken {looser : Discipline S Event Call}
    (updates : ∀ {γ : Type} (update : S → γ × S), discipline.update update → looser.update update)
    (waits : ∀ {γ : Type} (call : Call) (act : Event → S → Option (γ × S)),
      discipline.wait call act → looser.wait call act)
    {program : Coroutine S Event Call Exn α} (obeys : program.Obeys discipline) :
    program.Obeys looser := by
  induction program with
  | ret value => trivial
  | raise exn => trivial
  | look next inductionHypothesis => exact fun state => inductionHypothesis state (obeys state)
  | sync update next inductionHypothesis =>
      exact ⟨updates update obeys.1, fun b => inductionHypothesis b (obeys.2 b)⟩
  | await call act next inductionHypothesis =>
      exact ⟨waits call act obeys.1, fun b => inductionHypothesis b (obeys.2 b)⟩

/-- A coroutine over one component of a larger state. -/
theorem focus {T : Type} {get : T → S} {put : S → T → T} {outer : Discipline T Event Call}
    (updates : ∀ {γ : Type} (update : S → γ × S), discipline.update update →
      outer.update fun whole => ((update (get whole)).1, put (update (get whole)).2 whole))
    (waits : ∀ {γ : Type} (call : Call) (act : Event → S → Option (γ × S)),
      discipline.wait call act → outer.wait call fun event whole =>
        (act event (get whole)).map fun (b, part) => (b, put part whole))
    {program : Coroutine S Event Call Exn α} (obeys : program.Obeys discipline) :
    (program.focus get put).Obeys outer := by
  induction program with
  | ret value => trivial
  | raise exn => trivial
  | look next inductionHypothesis => exact fun whole => inductionHypothesis _ (obeys _)
  | sync update next inductionHypothesis =>
      exact ⟨updates update obeys.1, fun b => inductionHypothesis b (obeys.2 b)⟩
  | await call act next inductionHypothesis =>
      exact ⟨waits call act obeys.1, fun b => inductionHypothesis b (obeys.2 b)⟩

theorem settle {program : Coroutine S Event Call Exn α} (obeys : program.Obeys discipline)
    (state : S) : (program.settle state).1.Obeys discipline := by
  induction program generalizing state with
  | ret value => trivial
  | raise exn => trivial
  | look next inductionHypothesis => exact inductionHypothesis _ (obeys _) _
  | sync update next inductionHypothesis => exact inductionHypothesis _ (obeys.2 _) _
  | await call act next inductionHypothesis => exact obeys

end Coroutine.Obeys

variable {service : Service S Event Call Exn Request Ambient}
  {policy : Policy S Event Call Request} {initial : S → Prop}
  {pool next : Pool S Event Call Exn Request}

/-- The tasks of a run keep the discipline of their requests. -/
theorem Reachable.obeys {discipline : Request → Discipline S Event Call}
    (handlers : ∀ request task, (service.handler request task).Obeys (discipline request))
    (reached : Reachable service policy initial pool) {task : TaskId} {request : Request}
    {program : Coroutine S Event Call Exn Unit}
    (running : pool.tasks task = some (request, program)) :
    program.Obeys (discipline request) := by
  induction reached generalizing task request program with
  | start holds => cases running
  | @step before after reached step inductionHypothesis =>
      have moved : ∀ (mover : TaskId) (request' : Request)
          (resumed : Coroutine S Event Call Exn Unit) (state : S),
          resumed.Obeys (discipline request') →
          (before.runTask mover request' resumed state).tasks task = some (request, program) →
            program.Obeys (discipline request) := by
        intro mover request' resumed state obeys ran
        by_cases same : task = mover
        · subst same
          simp only [Pool.runTask, Function.update_self] at ran
          obtain ⟨rfl, rfl⟩ := Prod.mk.inj (Option.some.inj ran)
          exact obeys.settle state
        · simp only [Pool.runTask, Function.update_of_ne same] at ran
          exact inductionHypothesis ran
      cases step with
      | spawn mover request' unused => exact moved _ _ _ _ (handlers request' mover) running
      | resume suspended allowed taken =>
          exact moved _ _ _ _ ((inductionHypothesis suspended).2 _) running
      | ambient taken => exact inductionHypothesis running
      | restart => cases running

/-! ### Answers -/

/-- A step that answers one of some awaited calls. -/
inductive Answer (policy : Policy S Event Call Request) (calls : Call → Prop) :
    Pool S Event Call Exn Request → Pool S Event Call Exn Request → Prop where
  | resume {pool task request call β} {act : Event → S → Option (β × S)} {next event b state}
      (suspended : pool.tasks task = some (request, .await call act next)) (counted : calls call)
      (allowed : policy request pool.state call event)
      (taken : act event pool.state = some (b, state)) :
      Answer policy calls pool (pool.runTask task request (next b) state)

variable {calls : Call → Prop}

theorem Answer.step (answer : Answer policy calls pool next) : Step service policy pool next := by
  cases answer with
  | resume suspended counted allowed taken => exact .resume suspended allowed taken

/-- What may come of a suspended coroutine. -/
inductive Coroutine.Follows :
    Coroutine S Event Call Exn α → Coroutine S Event Call Exn α → Prop where
  | mk {β call} {act : Event → S → Option (β × S)} {next} (b : β) (state : S) :
      Follows ((next b).settle state).1 (.await call act next)

theorem Coroutine.follows_wellFounded :
    WellFounded (Follows : Coroutine S Event Call Exn α → Coroutine S Event Call Exn α → Prop) := by
  have settled : ∀ (program : Coroutine S Event Call Exn α) (state : S),
      Acc Follows (program.settle state).1 := by
    intro program
    induction program with
    | ret value => exact fun _ => .intro _ nofun
    | raise exn => exact fun _ => .intro _ nofun
    | look next inductionHypothesis => exact fun state => inductionHypothesis state state
    | sync update next inductionHypothesis =>
        exact fun state => inductionHypothesis (update state).1 (update state).2
    | await call act next inductionHypothesis =>
        intro _
        apply Acc.intro
        intro later follows
        cases follows with
        | mk b state => exact inductionHypothesis b state
  refine ⟨fun program => Acc.intro _ fun later follows => ?_⟩
  cases follows with
  | @mk _ _ _ next b state => exact settled (next b) state

def Pool.Within (tasks : Finset TaskId) (pool : Pool S Event Call Exn Request) : Prop :=
  ∀ task, pool.tasks task ≠ none → task ∈ tasks

theorem Pool.Within.runTask {tasks : Finset TaskId} (within : pool.Within tasks) (task : TaskId)
    (request : Request) (program : Coroutine S Event Call Exn Unit) (state : S) :
    (pool.runTask task request program state).Within (insert task tasks) := by
  intro other started
  by_cases same : other = task
  · rw [same]
    exact Finset.mem_insert_self _ _
  · simp only [Pool.runTask, Function.update_of_ne same] at started
    exact Finset.mem_insert_of_mem (within other started)

theorem Reachable.within (reached : Reachable service policy initial pool) :
    ∃ tasks, pool.Within tasks := by
  induction reached with
  | start holds => exact ⟨∅, fun _ started => absurd rfl started⟩
  | step _ step inductionHypothesis =>
      obtain ⟨tasks, within⟩ := inductionHypothesis
      cases step with
      | spawn task request unused => exact ⟨_, within.runTask task request _ _⟩
      | resume suspended allowed taken => exact ⟨_, within.runTask _ _ _ _⟩
      | ambient taken => exact ⟨tasks, within⟩
      | restart => exact ⟨∅, fun _ started => absurd rfl started⟩

/-- The coroutine of a task, where a task that has not started has ended. -/
def Pool.remaining (pool : Pool S Event Call Exn Request) (task : TaskId) :
    Coroutine S Event Call Exn Unit :=
  match pool.tasks task with
  | some (_, program) => program
  | none => .ret ()

/-- An answer cuts the coroutine of one task. -/
theorem Answer.cuts {tasks : Finset TaskId} (within : pool.Within tasks)
    (answer : Answer policy calls pool next) :
    next.Within tasks ∧ Relation.CutExpand Coroutine.Follows
      (tasks.val.map next.remaining) (tasks.val.map pool.remaining) := by
  cases answer with
  | @resume task request call β act next event b state suspended counted allowed taken =>
      have member : task ∈ tasks := within task (by rw [suspended]; nofun)
      refine ⟨?_, ?_⟩
      · have after := within.runTask task request (next b) state
        rwa [Finset.insert_eq_of_mem member] at after
      · have others : (tasks.val.erase task).map
            (pool.runTask task request (next b) state).remaining =
              (tasks.val.erase task).map pool.remaining := by
          refine Multiset.map_congr rfl fun other kept => ?_
          have different : other ≠ task := (tasks.nodup.mem_erase_iff.mp kept).1
          simp only [Pool.remaining, Pool.runTask, Function.update_of_ne different]
        have own : (pool.runTask task request (next b) state).remaining task =
            ((next b).settle state).1 := by
          simp only [Pool.remaining, Pool.runTask, Function.update_self]
        have before : pool.remaining task = .await call act next := by
          simp only [Pool.remaining, suspended]
        rw [← Multiset.cons_erase member, Multiset.map_cons, Multiset.map_cons, others, own, before,
          ← Multiset.singleton_add, ← Multiset.singleton_add]
        exact Relation.cutExpand_single_add (.mk b state) _

/-- **Answers do not follow each other for ever.** From a pool of a run, there is no
infinite sequence of answers. -/
theorem Reachable.answers_end (reached : Reachable service policy initial pool) :
    Acc (fun after before => Answer policy calls before after) pool := by
  obtain ⟨tasks, within⟩ := reached.within
  have ends : ∀ remaining : Multiset (Coroutine S Event Call Exn Unit),
      ∀ pool : Pool S Event Call Exn Request, pool.Within tasks →
        tasks.val.map pool.remaining = remaining →
          Acc (fun after before => Answer policy calls before after) pool := by
    intro remaining
    induction remaining using Coroutine.follows_wellFounded.cutExpand.induction with
    | _ remaining inductionHypothesis =>
        rintro pool within rfl
        refine Acc.intro _ fun after answer => ?_
        obtain ⟨withinAfter, cut⟩ := answer.cuts within
        exact inductionHypothesis _ cut after withinAfter rfl
  exact ends _ pool within rfl

/-- What a sequence of answers leads to is a pool of the run. -/
theorem Reachable.answered (reached : Reachable service policy initial pool)
    (answers : Relation.ReflTransGen (Answer policy calls) pool next) :
    Reachable service policy initial next := by
  induction answers with
  | refl => exact reached
  | tail _ answer inductionHypothesis => exact inductionHypothesis.step answer.step

/-! ### Suspensions that are ready -/

/-- The coroutine waits at some calls, and a suspension that is ready can be answered. -/
def answerable (calls : Call → Prop) (ready : Call → S → Prop) : Discipline S Event Call where
  update _ := True
  wait call act := calls call ∧ ∀ state, ready call state → ∃ event, (act event state).isSome

/-- A suspension that is ready can be answered. -/
theorem exists_answer {ready : Call → S → Prop} {allowed : Call → Prop} {task : TaskId}
    {request : Request} {call : Call} {act : Event → S → Option (β × S)}
    {rest : β → Coroutine S Event Call Exn Unit}
    (suspended : pool.tasks task = some (request, .await call act rest))
    (obeys : (Coroutine.await call act rest).Obeys (answerable allowed ready))
    (now : ready call pool.state) (counted : calls call) :
    ∃ next, Answer anyEvent calls pool next := by
  obtain ⟨event, answered⟩ := obeys.1.2 pool.state now
  obtain ⟨⟨b, state⟩, taken⟩ := Option.isSome_iff_exists.mp answered
  exact ⟨_, .resume suspended counted trivial taken⟩

/-! ### Programs over a component that leave a part of it alone -/

/-- The coroutine waits at some calls and leaves a part of the state alone. -/
def sparing {W : Type} (calls : Call → Prop) (part : S → W) : Discipline S Event Call where
  update update := ∀ state, part (update state).2 = part state
  wait call act := calls call ∧
    ∀ event state b after, act event state = some (b, after) → part after = part state

/-- A view of the whole that depends on that part of the component. -/
theorem Standing.sparing {Ghost V T W : Type} {logic : Logic Ghost V Call} {view : S → V}
    {task : TaskId} {fact : Ghost → V → Prop} {allows : S → Call → Event → Prop}
    (standing : Standing logic calls task fact) {get : S → T} {put : T → S → S} (part : T → W)
    (same : ∀ component state, part component = part (get state) →
      view (put component state) = view state)
    {program : Coroutine T Event Call Exn α} (obeys : program.Obeys (Asyncio.sparing calls part)) :
    Preserves (logic.over view) allows task (logic.Knows view fact) (program.focus get put) := by
  intro ghost state knows
  induction program generalizing ghost state with
  | ret value => exact knows
  | raise exn => exact knows
  | look next inductionHypothesis => exact inductionHypothesis _ (obeys _) ghost state knows
  | sync update next inductionHypothesis =>
      have kept : view (put (update (get state)).2 state) = view state :=
        same _ _ (obeys.1 _)
      exact ⟨ghost, standing.guar_of_same kept,
        inductionHypothesis _ (obeys.2 _) ghost _ (knows.of_same kept)⟩
  | await call act next inductionHypothesis =>
      refine ⟨knows.1, standing.parked obeys.1.1 knows.2, ?_⟩
      intro ghost₁ state₁ rely inv _ event b state₂ _ taken
      have after : logic.Knows view fact ghost₁ state₁ := ⟨inv, standing.stable rely inv knows.2⟩
      simp only [Option.map_eq_some_iff, Prod.exists, Prod.mk.injEq] at taken
      obtain ⟨b', component, acted, rfl, rfl⟩ := taken
      have kept : view (put component state₁) = view state₁ :=
        same _ _ (obeys.1.2 event _ b' component acted)
      exact ⟨ghost₁, standing.guar_of_same kept,
        inductionHypothesis _ (obeys.2 _) ghost₁ _ (after.of_same kept)⟩

end Concord.Asyncio

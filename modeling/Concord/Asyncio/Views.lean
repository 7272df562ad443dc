import Concord.Asyncio.RelyGuarantee

/-!
Contract: protocols that see a part of the state.

Owns:
- `Logic.over`, a protocol of a view of the state;
- `Standing`, a fact that a task may carry over its suspensions;
- the frame rules: a step that leaves the view alone keeps what a task knows.

Does not own: steps that change the view.
-/

set_option autoImplicit false

namespace Concord.Asyncio

variable {Ghost S V Event Call Exn : Type} {α : Type}

/-- A protocol of a view, as a protocol of the whole state. -/
def Logic.over (logic : Logic Ghost V Call) (view : S → V) : Logic Ghost S Call where
  inv ghost state := logic.inv ghost (view state)
  rely task ghost state ghost' state' := logic.rely task ghost (view state) ghost' (view state')
  guar task ghost state ghost' state' := logic.guar task ghost (view state) ghost' (view state')
  parked task call ghost state := logic.parked task call ghost (view state)
  done task ghost state := logic.done task ghost (view state)
  fresh task ghost state := logic.fresh task ghost (view state)
  known state := logic.known (view state)

theorem Logic.Lawful.over {logic : Logic Ghost V Call} (lawful : logic.Lawful) (view : S → V) :
    (logic.over view).Lawful where
  rely_refl task ghost state := lawful.rely_refl task ghost (view state)
  rely_trans := lawful.rely_trans
  guar_rely := lawful.guar_rely
  parked_stable := lawful.parked_stable
  done_stable := lawful.done_stable
  fresh_stable := lawful.fresh_stable

/-- A fact that the protocol keeps for a task while it waits at one of some
calls. -/
structure Standing (logic : Logic Ghost V Call) (calls : Call → Prop) (task : TaskId)
    (fact : Ghost → V → Prop) : Prop where
  idle : ∀ ghost part, logic.guar task ghost part ghost part
  stable : ∀ {ghost part ghost' part'}, logic.rely task ghost part ghost' part' →
    logic.inv ghost' part' → fact ghost part → fact ghost' part'
  parked : ∀ {call ghost part}, calls call → fact ghost part → logic.parked task call ghost part

/-- The invariant and a fact of the task. -/
def Logic.Knows (logic : Logic Ghost V Call) (view : S → V) (fact : Ghost → V → Prop)
    (ghost : Ghost) (state : S) : Prop :=
  logic.inv ghost (view state) ∧ fact ghost (view state)

section Frame

variable {logic : Logic Ghost V Call} {view : S → V} {calls : Call → Prop} {task : TaskId}
  {fact : Ghost → V → Prop} {allows : S → Call → Event → Prop}

theorem Logic.Knows.weaken {weaker : Ghost → V → Prop} {ghost : Ghost} {state : S}
    (knows : logic.Knows view fact ghost state)
    (implied : ∀ ghost part, fact ghost part → weaker ghost part) :
    logic.Knows view weaker ghost state :=
  ⟨knows.1, implied _ _ knows.2⟩

theorem Logic.Knows.of_same {ghost : Ghost} {state state' : S}
    (knows : logic.Knows view fact ghost state) (same : view state' = view state) :
    logic.Knows view fact ghost state' := by
  unfold Logic.Knows
  rw [same]
  exact knows

variable (standing : Standing logic calls task fact)

include standing

theorem Standing.guar_of_same {ghost : Ghost} {state state' : S}
    (same : view state' = view state) : (logic.over view).guar task ghost state ghost state' := by
  change logic.guar task ghost (view state) ghost (view state')
  rw [same]
  exact standing.idle _ _

/-- A step that leaves the view alone. -/
theorem Standing.unchanged {ghost : Ghost} {state state' : S} (same : view state' = view state)
    (knows : logic.Knows view fact ghost state) : ∃ ghost',
      logic.guar task ghost (view state) ghost' (view state') ∧ logic.Knows view fact ghost' state' :=
  ⟨ghost, standing.guar_of_same same, knows.of_same same⟩

theorem Standing.modifyGet {update : S → α × S} (same : ∀ state, view (update state).2 = view state) :
    Preserves (logic.over view) allows task (logic.Knows view fact)
      (modifyGet update : Coroutine S Event Call Exn α) :=
  .modifyGet fun ghost state knows =>
    ⟨ghost, standing.guar_of_same (same state), knows.of_same (same state)⟩

theorem Standing.modify {update : S → S} (same : ∀ state, view (update state) = view state) :
    Preserves (logic.over view) allows task (logic.Knows view fact)
      (modify update : Coroutine S Event Call Exn PUnit) :=
  standing.modifyGet same

theorem Standing.atomic {method : S → Except Exn α × S}
    (same : ∀ state, view (method state).2 = view state) :
    Preserves (logic.over view) allows task (logic.Knows view fact)
      (Coroutine.atomic method : Coroutine S Event Call Exn α) :=
  .atomic fun ghost state knows =>
    ⟨ghost, standing.guar_of_same (same state), knows.of_same (same state)⟩

theorem Standing.awaitCall {call : Call} (waits : calls call)
    {act : Event → S → Option (Except Exn α × S)}
    (same : ∀ event state result state', act event state = some (result, state') →
      view state' = view state) :
    Preserves (logic.over view) allows task (logic.Knows view fact)
      (Coroutine.awaitCall call act : Coroutine S Event Call Exn α) := by
  refine .awaitCall (fun _ _ knows => ⟨knows.1, standing.parked waits knows.2⟩) ?_
  intro ghost state ghost₁ state₁ knows rely inv _ event result state₂ _ taken
  have after : logic.Knows view fact ghost₁ state₁ := ⟨inv, standing.stable rely inv knows.2⟩
  have kept := same event state₁ result state₂ taken
  exact ⟨ghost₁, standing.guar_of_same kept, after.of_same kept⟩

theorem Standing.awaitUntil {call : Call} (waits : calls call) {act : S → Option (α × S)}
    (same : ∀ state value state', act state = some (value, state') → view state' = view state) :
    Preserves (logic.over view) allows task (logic.Knows view fact)
      (Coroutine.awaitUntil call act : Coroutine S Event Call Exn α) := by
  intro ghost state knows
  refine wp_awaitUntil knows.1 (standing.parked waits knows.2) ?_
  intro ghost₁ state₁ rely inv _ value state₂ taken
  have after : logic.Knows view fact ghost₁ state₁ := ⟨inv, standing.stable rely inv knows.2⟩
  have kept := same state₁ value state₂ taken
  exact ⟨ghost₁, standing.guar_of_same kept, after.of_same kept⟩

/-- A program over a component outside the view. -/
theorem Standing.focus {T : Type} {get : S → T} {put : T → S → S}
    (same : ∀ part state, view (put part state) = view state)
    {program : Coroutine T Event Call Exn α} (awaits : program.Awaits calls) :
    Preserves (logic.over view) allows task (logic.Knows view fact) (program.focus get put) := by
  intro ghost state knows
  induction program generalizing ghost state with
  | ret value => exact knows
  | raise exn => exact knows
  | look next inductionHypothesis => exact inductionHypothesis _ (awaits _) ghost state knows
  | sync update next inductionHypothesis =>
      have kept : view (put (update (get state)).2 state) = view state := same _ _
      exact ⟨ghost, standing.guar_of_same kept,
        inductionHypothesis _ (awaits _) ghost _ (knows.of_same kept)⟩
  | await call act next inductionHypothesis =>
      refine ⟨knows.1, standing.parked awaits.1 knows.2, ?_⟩
      intro ghost₁ state₁ rely inv _ event b state₂ _ taken
      have after : logic.Knows view fact ghost₁ state₁ := ⟨inv, standing.stable rely inv knows.2⟩
      simp only [Option.map_eq_some_iff, Prod.exists, Prod.mk.injEq] at taken
      obtain ⟨b', part, _, rfl, rfl⟩ := taken
      have kept : view (put part state₁) = view state₁ := same _ _
      exact ⟨ghost₁, standing.guar_of_same kept,
        inductionHypothesis _ (awaits.2 _) ghost₁ _ (after.of_same kept)⟩

end Frame

end Concord.Asyncio

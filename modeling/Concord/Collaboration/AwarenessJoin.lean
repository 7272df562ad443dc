import Concord.Collaboration.PresenceRules
import Mathlib.Data.List.MinMax

/-!
Contract: the awareness store as a join.

Owns:
- `applyBatches`, any sequence of `apply_update` calls on one session;
- `latest`, the maximum of the entries of a client in the order of the clock rule;
- the store shows the latest entry of every client, and accepts entries of a client
  in increasing order.

Does not own: removals by the server, which are not updates.
-/

set_option autoImplicit false

namespace Concord.Collaboration

open Asyncio

variable {P : Platform} {states after : AwarenessStates P} {entry : AwarenessEntry P}

/-- The order of ranks: a higher clock first, and at equal clocks a removal above an
active state. -/
theorem rank_lt_iff (earlier later : AwarenessEntry P) :
    earlier.rank < later.rank ↔ earlier.clock < later.clock ∨
      earlier.clock = later.clock ∧ earlier.state.isSome ∧ later.state.isNone := by
  unfold AwarenessEntry.rank
  cases earlier.state <;> cases later.state <;> simp <;> omega

private theorem rank_eq_iff (first second : AwarenessEntry P) :
    first.rank = second.rank ↔
      first.clock = second.clock ∧ first.state.isSome = second.state.isSome := by
  unfold AwarenessEntry.rank
  cases first.state <;> cases second.state <;> simp <;> omega

/-- At one clock, the active entries of a client carry the same state. -/
def Consistent (collection : List (AwarenessEntry P)) : Prop :=
  ∀ first ∈ collection, ∀ second ∈ collection, first.clientId = second.clientId →
    first.clock = second.clock → first.state.isSome → second.state.isSome →
      first.state = second.state

structure Batch (P : Platform) where
  owner : TaskId
  timestamp : Nat
  entries : List (AwarenessEntry P)

namespace AwarenessStates

/-- Some calls of `apply_update`: the states after them, and the entries that they
accepted in order. -/
def applyBatches : List (Batch P) → AwarenessStates P → AwarenessStates P × List (AwarenessEntry P)
  | [], states => (states, [])
  | batch :: rest, states =>
      let (states, accepted) := applyUpdate batch.owner batch.timestamp batch.entries states
      let (states, others) := applyBatches rest states
      (states, accepted ++ others)

/-- The clock and the state of a client, a removal included. -/
def held (states : AwarenessStates P) (clientId : Nat) : Option (Nat × Option P.Json) :=
  (states.lookup clientId).map fun stored => (stored.entry.clock, stored.entry.state)

/-- The entries of a client that have a clock. -/
def clocked (clientId : Nat) (collection : List (AwarenessEntry P)) : List (AwarenessEntry P) :=
  collection.filter fun entry => entry.clientId = clientId ∧ 1 ≤ entry.clock

/-- The maximum of the entries of a client that have a clock. -/
def latest (clientId : Nat) (collection : List (AwarenessEntry P)) :
    Option (Nat × Option P.Json) :=
  ((clocked clientId collection).argmax (·.rank)).map fun entry => (entry.clock, entry.state)

private theorem mem_clocked {clientId : Nat} {collection : List (AwarenessEntry P)} :
    entry ∈ clocked clientId collection ↔
      entry ∈ collection ∧ entry.clientId = clientId ∧ 1 ≤ entry.clock := by
  unfold clocked
  rw [List.mem_filter, decide_eq_true_iff]

/-! ### What a sequence of calls has heard -/

/-- The calls keep the store, for owners of any kind. -/
theorem applyBatches_kept (batches : List (Batch P)) (kept : Kept (fun _ => True) states) :
    Kept (fun _ => True) (applyBatches batches states).1 := by
  induction batches generalizing states with
  | nil => exact kept
  | cons batch rest inductionHypothesis =>
      exact inductionHypothesis (applyUpdate_spec trivial batch.timestamp batch.entries kept).1

theorem Mirrors.applyBatches {clientId : Nat} {heard : AwarenessEntry P → Prop}
    (batches : List (Batch P)) (mirrors : Mirrors clientId heard states) :
    Mirrors clientId (fun entry => heard entry ∨ ∃ batch ∈ batches, entry ∈ batch.entries)
      (applyBatches batches states).1 := by
  induction batches generalizing heard states with
  | nil => exact mirrors.congr fun _ => by simp
  | cons batch rest inductionHypothesis =>
      have first := mirrors.applyUpdate batch.owner batch.timestamp batch.entries
      refine (inductionHypothesis first).congr fun entry => ?_
      simp only [List.mem_cons, exists_eq_or_imp]
      exact or_assoc

/-- A store that holds the highest entry of a client shows the latest one. -/
theorem held_eq_latest {clientId : Nat} {collection : List (AwarenessEntry P)}
    (consistent : Consistent collection) (kept : Kept (fun _ => True) states)
    (mirrors : Mirrors clientId (· ∈ collection) states) :
    held states clientId = latest clientId collection := by
  have ranked : ∀ entry : AwarenessEntry P, 1 < entry.rank ↔ 1 ≤ entry.clock := by
    intro entry
    unfold AwarenessEntry.rank
    split <;> omega
  unfold held latest
  cases found : states.lookup clientId with
  | none =>
      have nothing : clocked clientId collection = [] := by
        apply List.eq_nil_iff_forall_not_mem.mpr
        intro entry member
        obtain ⟨told, own, clock⟩ := mem_clocked.mp member
        have below := mirrors.highest entry told own
        rw [found] at below
        exact absurd ((ranked entry).mpr clock) (Nat.not_lt.mpr below)
      rw [nothing]
      rfl
  | some stored =>
      have own := (mem_of_lookup found).2
      have clock := (ranked stored.entry).mp (kept.above stored (mem_of_lookup found).1)
      have here : stored.entry ∈ clocked clientId collection :=
        mem_clocked.mpr ⟨mirrors.came stored found, own, clock⟩
      cases top : (clocked clientId collection).argmax (·.rank) with
      | none =>
          rw [List.argmax_eq_none.mp top] at here
          cases here
      | some highest =>
          obtain ⟨told, owned, _⟩ := mem_clocked.mp (List.argmax_mem top)
          have above := List.le_of_mem_argmax here top
          have below := mirrors.highest highest told owned
          rw [found] at below
          have equal : stored.entry.rank = highest.rank := le_antisymm above below
          obtain ⟨sameClock, alike⟩ := (rank_eq_iff _ _).mp equal
          have sameState : stored.entry.state = highest.state := by
            cases state : stored.entry.state with
            | none =>
                rw [state] at alike
                exact (Option.not_isSome_iff_eq_none.mp (by rw [← alike]; nofun)).symm
            | some value =>
                have active : stored.entry.state.isSome := by rw [state]; rfl
                rw [← state]
                exact consistent _ (mirrors.came stored found) _ told (own.trans owned.symm)
                  sameClock active (alike ▸ active)
          change some (stored.entry.clock, stored.entry.state) = some (highest.clock, highest.state)
          rw [sameClock, sameState]

/-! ### What a sequence of calls accepts -/

/-- The accepted entries of a client have climbed from what was held to what is
held. -/
structure Climbs (clientId : Nat) (before after : AwarenessStates P)
    (accepted : List (AwarenessEntry P)) : Prop where
  increasing : (accepted.filter (·.clientId = clientId)).Pairwise fun earlier later =>
    earlier.rank < later.rank
  above : ∀ entry ∈ accepted, entry.clientId = clientId →
    heldRank (before.lookup clientId) < entry.rank
  below : ∀ entry ∈ accepted, entry.clientId = clientId →
    entry.rank ≤ heldRank (after.lookup clientId)
  rises : heldRank (before.lookup clientId) ≤ heldRank (after.lookup clientId)

theorem Climbs.refl (clientId : Nat) (states : AwarenessStates P) : Climbs clientId states states [] :=
  ⟨.nil, nofun, nofun, le_rfl⟩

theorem Climbs.trans {clientId : Nat} {first second third : AwarenessStates P}
    {earlier later : List (AwarenessEntry P)} (one : Climbs clientId first second earlier)
    (two : Climbs clientId second third later) : Climbs clientId first third (earlier ++ later) where
  increasing := by
    rw [List.filter_append, List.pairwise_append]
    refine ⟨one.increasing, two.increasing, fun old oldMember new newMember => ?_⟩
    obtain ⟨isOld, ownOld⟩ := List.mem_filter.mp oldMember
    obtain ⟨isNew, ownNew⟩ := List.mem_filter.mp newMember
    exact (one.below old isOld (of_decide_eq_true ownOld)).trans_lt
      (two.above new isNew (of_decide_eq_true ownNew))
  above entry member own := by
    rcases List.mem_append.mp member with old | new
    · exact one.above entry old own
    · exact one.rises.trans_lt (two.above entry new own)
  below entry member own := by
    rcases List.mem_append.mp member with old | new
    · exact (one.below entry old own).trans two.rises
    · exact two.below entry new own
  rises := one.rises.trans two.rises

/-- A state that ranks above what the store holds. -/
theorem climbs_put {clientId : Nat} {stored : StoredAwareness P}
    (higher : heldRank (states.lookup stored.entry.clientId) < stored.entry.rank) :
    Climbs clientId states (states.put stored) [stored.entry] := by
  by_cases own : stored.entry.clientId = clientId
  · have now : (states.put stored).lookup clientId = some stored := by rw [lookup_put, if_pos own]
    rw [own] at higher
    refine ⟨(List.pairwise_singleton _ _).filter _, ?_, ?_, ?_⟩
    · intro entry member _
      rw [List.mem_singleton.mp member]
      exact higher
    · intro entry member _
      rw [List.mem_singleton.mp member, now]
      exact le_rfl
    · rw [now]
      exact higher.le
  · have now : (states.put stored).lookup clientId = states.lookup clientId := by
      rw [lookup_put, if_neg own]
    refine ⟨(List.pairwise_singleton _ _).filter _, ?_, ?_, ?_⟩
    · intro entry member named
      rw [List.mem_singleton.mp member] at named
      exact absurd named own
    · intro entry member named
      rw [List.mem_singleton.mp member] at named
      exact absurd named own
    · rw [now]

private theorem applyUpdate_climbs (clientId : Nat) (owner : TaskId) (timestamp : Nat)
    (entries : List (AwarenessEntry P)) (states : AwarenessStates P) :
    Climbs clientId states (applyUpdate owner timestamp entries states).1
      (applyUpdate owner timestamp entries states).2 := by
  induction entries generalizing states with
  | nil => exact .refl clientId states
  | cons entry rest inductionHypothesis =>
      unfold applyUpdate
      split
      · next newer =>
          let stored : StoredAwareness P := {
            entry := entry
            owner := if entry.state.isNone then none else some owner
            lastSeen := timestamp }
          have higher := (shouldApply_iff _ _).mp newer
          exact (@climbs_put _ _ _ stored higher).trans (inductionHypothesis _)
      · exact inductionHypothesis states

private theorem applyBatches_climbs (clientId : Nat) (batches : List (Batch P))
    (states : AwarenessStates P) :
    Climbs clientId states (applyBatches batches states).1 (applyBatches batches states).2 := by
  induction batches generalizing states with
  | nil => exact .refl clientId states
  | cons batch rest inductionHypothesis =>
      exact (applyUpdate_climbs clientId batch.owner batch.timestamp batch.entries states).trans
        (inductionHypothesis _)

/-- **`apply_update` computes a join.** However a consistent collection of entries
is ordered, repeated and cut into calls, a fresh session holds the latest entry of
every client, and the accepted entries of a client are strictly increasing. -/
theorem applyBatches_latest {collection : List (AwarenessEntry P)}
    (consistent : Consistent collection) (batches : List (Batch P))
    (carried : ∀ entry, (∃ batch ∈ batches, entry ∈ batch.entries) ↔ entry ∈ collection)
    (clientId : Nat) :
    held (applyBatches batches []).1 clientId = latest clientId collection ∧
      ((applyBatches batches []).2.filter (·.clientId = clientId)).Pairwise fun earlier later =>
        earlier.rank < later.rank := by
  have nothing : Mirrors clientId (fun _ => False) ([] : AwarenessStates P) := .nothing rfl
  have mirrors := (nothing.applyBatches batches).congr fun entry =>
    (iff_of_eq (false_or _)).trans (carried entry)
  exact ⟨held_eq_latest consistent (applyBatches_kept batches (Kept.nil _)) mirrors,
    (applyBatches_climbs clientId batches []).increasing⟩

/-- Two clients over three calls: a repeated and overtaken state, and a removal at
its clock. -/
def sampleBatches : List (Batch editLog) :=
  [⟨1, 0, [⟨7, 2, some (), ""⟩, ⟨7, 1, some (), ""⟩, ⟨8, 0, none, ""⟩]⟩,
    ⟨2, 5, [⟨7, 2, none, "null"⟩, ⟨7, 2, some (), ""⟩]⟩, ⟨1, 9, [⟨8, 3, none, "null"⟩]⟩]

theorem applyBatches_latest_sample :
    held (applyBatches sampleBatches []).1 7 = some (2, none) ∧
      latest 7 (sampleBatches.flatMap (·.entries)) = some (2, none) ∧
        (((applyBatches sampleBatches []).2.filter (·.clientId = 7)).Pairwise fun earlier later =>
          earlier.rank < later.rank) := by
  have consistent : Consistent (sampleBatches.flatMap (·.entries)) := by
    intro first _ second _ _ _ active active'
    cases left : first.state <;> cases right : second.state <;> simp_all
  have joined := applyBatches_latest consistent sampleBatches
    (fun entry => List.mem_flatMap.symm) 7
  have shown : latest 7 (sampleBatches.flatMap (·.entries)) = some (2, none) := by decide
  exact ⟨joined.1.trans shown, shown, joined.2⟩

end AwarenessStates

end Concord.Collaboration

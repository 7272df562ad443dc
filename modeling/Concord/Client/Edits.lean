import Mathlib.Data.List.Perm.Basic
import Mathlib.Order.Nat

/-!
Contract: edits of a text.

Owns:
- changes that refer to the text before all of them, and their application at once;
- that they can be applied one by one from the end;
- deltas with retained, inserted and deleted parts.

A text is a list of units of any type. This module does not know the editor.
-/

set_option autoImplicit false

namespace Concord.Client

variable {α : Type}

/-! ### Changes at once -/

structure Change (α : Type) where
  offset : Nat
  length : Nat
  text : List α
  deriving DecidableEq, Repr

def Change.stop (change : Change α) : Nat := change.offset + change.length

def splice (change : Change α) (text : List α) : List α :=
  text.take change.offset ++ change.text ++ text.drop change.stop

/-- What the changes insert at an offset. -/
def insertedAt (changes : List (Change α)) (offset : Nat) : List α :=
  (changes.filter (·.offset = offset)).flatMap (·.text)

def replacedAt (changes : List (Change α)) (offset : Nat) : Bool :=
  changes.any fun change => change.offset ≤ offset && offset < change.stop

/-- The rest of a text from an offset with all changes applied at once: at each
offset the inserted text, then the unit unless it is replaced. -/
def simultaneousFrom (changes : List (Change α)) : Nat → List α → List α
  | offset, [] => insertedAt changes offset
  | offset, unit :: rest =>
      insertedAt changes offset ++ (if replacedAt changes offset then [] else [unit]) ++
        simultaneousFrom changes (offset + 1) rest

/-- The text with all changes applied at once. -/
def simultaneous (changes : List (Change α)) (text : List α) : List α :=
  simultaneousFrom changes 0 text

/-- Two changes do not overlap and start at different offsets. -/
def Change.Apart (left right : Change α) : Prop :=
  left.offset ≠ right.offset ∧ (left.stop ≤ right.offset ∨ right.stop ≤ left.offset)

theorem Change.Apart.symm {left right : Change α} (apart : left.Apart right) : right.Apart left :=
  ⟨apart.1.symm, apart.2.symm⟩

/-- Changes of a text: inside it, without overlap, with distinct starts. -/
structure ValidChanges (changes : List (Change α)) (text : List α) : Prop where
  inside : ∀ change ∈ changes, change.stop ≤ text.length
  apart : changes.Pairwise Change.Apart

private theorem insertedAt_perm {changes others : List (Change α)}
    (apart : changes.Pairwise Change.Apart)
    (permutation : changes.Perm others) (offset : Nat) :
    insertedAt changes offset = insertedAt others offset := by
  have filtered := permutation.filter (fun change : Change α => decide (change.offset = offset))
  have alone : (changes.filter (·.offset = offset)).Pairwise fun _ _ => False := by
    refine List.Pairwise.imp_of_mem (fun left right distinct => ?_) (apart.filter _)
    have first := of_decide_eq_true (List.mem_filter.mp left).2
    have second := of_decide_eq_true (List.mem_filter.mp right).2
    exact distinct.1 (first.trans second.symm)
  unfold insertedAt
  match single : changes.filter (·.offset = offset) with
  | [] =>
      rw [single] at filtered
      rw [single, filtered.symm.eq_nil]
  | [change] =>
      rw [single] at filtered
      rw [single, filtered.symm.eq_singleton]
  | first :: second :: rest =>
      rw [single] at alone
      exact (List.rel_of_pairwise_cons alone List.mem_cons_self).elim

private theorem replacedAt_perm {changes others : List (Change α)}
    (permutation : changes.Perm others)
    (offset : Nat) : replacedAt changes offset = replacedAt others offset :=
  permutation.any_eq

/-- The order of the changes does not matter. -/
theorem simultaneous_perm {changes others : List (Change α)} (apart : changes.Pairwise Change.Apart)
    (permutation : changes.Perm others) (text : List α) :
    simultaneous changes text = simultaneous others text := by
  unfold simultaneous
  generalize 0 = offset
  induction text generalizing offset with
  | nil => exact insertedAt_perm apart permutation offset
  | cons unit rest inductionHypothesis =>
      unfold simultaneousFrom
      rw [insertedAt_perm apart permutation, replacedAt_perm permutation, inductionHypothesis]

/-! ### One by one from the end -/

private theorem insertedAt_of_lt {changes : List (Change α)} {offset : Nat}
    (before : ∀ change ∈ changes, change.offset < offset) : insertedAt changes offset = [] := by
  unfold insertedAt
  rw [List.filter_eq_nil_iff.mpr]
  · rfl
  · intro change member same
    have below := before change member
    have here := of_decide_eq_true same
    omega

private theorem replacedAt_of_stop_le {changes : List (Change α)} {offset : Nat}
    (before : ∀ change ∈ changes, change.stop ≤ offset) : replacedAt changes offset = false := by
  unfold replacedAt
  rw [List.any_eq_false]
  intro change member both
  rw [Bool.and_eq_true, decide_eq_true_eq, decide_eq_true_eq] at both
  have below := before change member
  omega

/-- Behind all changes the text stays. -/
theorem simultaneousFrom_behind {changes : List (Change α)} {offset : Nat}
    (starts : ∀ change ∈ changes, change.offset < offset)
    (stops : ∀ change ∈ changes, change.stop ≤ offset) (text : List α) :
    simultaneousFrom changes offset text = text := by
  induction text generalizing offset with
  | nil => exact insertedAt_of_lt starts
  | cons unit rest inductionHypothesis =>
      unfold simultaneousFrom
      rw [insertedAt_of_lt starts, replacedAt_of_stop_le stops,
        inductionHypothesis (fun change member => (starts change member).trans (Nat.lt_succ_self _))
          (fun change member => (stops change member).trans (Nat.le_succ _))]
      rfl

private theorem insertedAt_cons (change : Change α) (changes : List (Change α)) (offset : Nat) :
    insertedAt (change :: changes) offset =
      (if change.offset = offset then change.text else []) ++ insertedAt changes offset := by
  unfold insertedAt
  rw [List.filter_cons]
  by_cases here : change.offset = offset <;> simp [here]

private theorem replacedAt_cons (change : Change α) (changes : List (Change α)) (offset : Nat) :
    replacedAt (change :: changes) offset =
      ((change.offset ≤ offset && offset < change.stop) || replacedAt changes offset) := rfl

section Last

variable {change : Change α} {changes : List (Change α)}

/-- Inside the range of the last change its units go. -/
theorem simultaneousFrom_inside (starts : ∀ other ∈ changes, other.offset < change.offset)
    (stops : ∀ other ∈ changes, other.stop ≤ change.offset) (text : List α) {offset : Nat}
    (later : change.offset < offset) :
    simultaneousFrom (change :: changes) offset text = text.drop (change.stop - offset) := by
  induction text generalizing offset with
  | nil =>
      rw [List.drop_nil]
      unfold simultaneousFrom
      rw [insertedAt_cons, if_neg (by omega),
        insertedAt_of_lt fun other member => (starts other member).trans later]
      rfl
  | cons unit rest inductionHypothesis =>
      unfold simultaneousFrom
      rw [insertedAt_cons, if_neg (by omega), replacedAt_cons,
        insertedAt_of_lt fun other member => (starts other member).trans later,
        replacedAt_of_stop_le fun other member => (stops other member).trans later.le,
        inductionHypothesis (later.trans (Nat.lt_succ_self _)), Bool.or_false]
      by_cases covered : offset < change.stop
      · have more : change.stop - offset = change.stop - (offset + 1) + 1 := by omega
        rw [more, List.drop_succ_cons]
        simp [covered, later.le]
      · have none : change.stop - offset = 0 ∧ change.stop - (offset + 1) = 0 := by omega
        rw [none.1, none.2]
        simp [covered]

/-- From the start of the last change on, its text and what is behind it. -/
theorem simultaneousFrom_last (starts : ∀ other ∈ changes, other.offset < change.offset)
    (stops : ∀ other ∈ changes, other.stop ≤ change.offset) (text : List α) :
    simultaneousFrom (change :: changes) change.offset text =
      change.text ++ text.drop change.length := by
  cases text with
  | nil =>
      unfold simultaneousFrom
      rw [insertedAt_cons, if_pos rfl, insertedAt_of_lt starts, List.drop_nil]
  | cons unit rest =>
      unfold simultaneousFrom
      rw [insertedAt_cons, if_pos rfl, insertedAt_of_lt starts, replacedAt_cons,
        replacedAt_of_stop_le stops, simultaneousFrom_inside starts stops rest (Nat.lt_succ_self _),
        Bool.or_false, List.append_nil, List.append_assoc]
      congr 1
      unfold Change.stop
      cases change.length with
      | zero => simp
      | succ length =>
          have more : change.offset + (length + 1) - (change.offset + 1) = length := by omega
          rw [more]
          simp

/-- Before its start the last change does nothing. -/
theorem simultaneousFrom_before (front : List α) {back other : List α} {offset : Nat}
    (here : offset + front.length = change.offset)
    (rest : simultaneousFrom (change :: changes) change.offset back =
      simultaneousFrom changes change.offset other) :
    simultaneousFrom (change :: changes) offset (front ++ back) =
      simultaneousFrom changes offset (front ++ other) := by
  induction front generalizing offset with
  | nil =>
      obtain rfl : offset = change.offset := here
      exact rest
  | cons unit front inductionHypothesis =>
      rw [List.length_cons] at here
      rw [List.cons_append, List.cons_append]
      unfold simultaneousFrom
      rw [insertedAt_cons, if_neg (by omega), replacedAt_cons,
        @inductionHypothesis (offset + 1) (by omega)]
      have outside : (decide (change.offset ≤ offset) && decide (offset < change.stop)) = false := by
        rw [Bool.and_eq_false_iff]
        exact .inl (decide_eq_false (by omega))
      rw [outside]
      rfl

/-- Behind the other changes, a change can be applied first. -/
theorem simultaneous_cons (starts : ∀ other ∈ changes, other.offset < change.offset)
    (stops : ∀ other ∈ changes, other.stop ≤ change.offset) {text : List α}
    (inside : change.stop ≤ text.length) :
    simultaneous (change :: changes) text = simultaneous changes (splice change text) := by
  unfold Change.stop at inside
  have here : 0 + (text.take change.offset).length = change.offset := by
    rw [List.length_take]
    omega
  have parts : text = text.take change.offset ++ text.drop change.offset :=
    (List.take_append_drop _ _).symm
  unfold simultaneous splice
  conv => lhs; rw [parts]
  rw [List.append_assoc]
  refine simultaneousFrom_before _ here ?_
  rw [simultaneousFrom_last starts stops, List.drop_drop, simultaneousFrom_behind starts stops]
  rfl

end Last

theorem simultaneous_nil (text : List α) : simultaneous [] text = text :=
  simultaneousFrom_behind (fun _ member => absurd member List.not_mem_nil)
    (fun _ member => absurd member List.not_mem_nil) text

private theorem length_splice {change : Change α} {text : List α}
    (inside : change.stop ≤ text.length) :
    change.offset ≤ (splice change text).length := by
  unfold Change.stop at inside
  unfold splice
  rw [List.length_append, List.length_append, List.length_take]
  omega

theorem ValidChanges.perm {changes others : List (Change α)} {text : List α}
    (valid : ValidChanges changes text) (permutation : changes.Perm others) :
    ValidChanges others text where
  inside := fun change member => valid.inside change (permutation.mem_iff.mpr member)
  apart := valid.apart.perm permutation Change.Apart.symm

section Descending

variable {change : Change α} {rest : List (Change α)} {text : List α}

/-- The changes after the last one are before it in the text. -/
theorem ValidChanges.before (valid : ValidChanges (change :: rest) text)
    (descending : (change :: rest).Pairwise fun left right => right.offset ≤ left.offset) :
    ∀ other ∈ rest, other.offset < change.offset ∧ other.stop ≤ change.offset := by
  intro other member
  have apart := List.rel_of_pairwise_cons valid.apart member
  have lower : other.offset < change.offset :=
    Nat.lt_of_le_of_ne (List.rel_of_pairwise_cons descending member) apart.1.symm
  refine ⟨lower, apart.2.resolve_left fun first => ?_⟩
  unfold Change.stop at first
  omega

theorem ValidChanges.tail (valid : ValidChanges (change :: rest) text)
    (descending : (change :: rest).Pairwise fun left right => right.offset ≤ left.offset) :
    ValidChanges rest (splice change text) where
  inside := fun other member => (valid.before descending other member).2.trans
    (length_splice (valid.inside change List.mem_cons_self))
  apart := valid.apart.of_cons

/-- **The last change can be applied first**, and then the others. -/
theorem ValidChanges.simultaneous_cons (valid : ValidChanges (change :: rest) text)
    (descending : (change :: rest).Pairwise fun left right => right.offset ≤ left.offset) :
    simultaneous (change :: rest) text = simultaneous rest (splice change text) :=
  Client.simultaneous_cons (fun other member => (valid.before descending other member).1)
    (fun other member => (valid.before descending other member).2)
    (valid.inside change List.mem_cons_self)

end Descending

/-! ### Deltas -/

inductive DeltaOperation (α : Type) where
  | retain (count : Nat)
  | insert (text : List α)
  | delete (count : Nat)
  deriving DecidableEq, Repr

def DeltaOperation.changesText : DeltaOperation α → Bool
  | .retain _ => false
  | .insert _ => true
  | .delete _ => true

/-- The text that a delta makes of another. -/
def applyDelta : List (DeltaOperation α) → List α → List α
  | [], text => text
  | .retain count :: rest, text => text.take count ++ applyDelta rest (text.drop count)
  | .insert inserted :: rest, text => inserted ++ applyDelta rest text
  | .delete count :: rest, text => applyDelta rest (text.drop count)

/-- A delta that retains and deletes what is there. -/
def ValidDelta : List (DeltaOperation α) → List α → Prop
  | [], _ => True
  | .retain count :: rest, text => count ≤ text.length ∧ ValidDelta rest (text.drop count)
  | .insert _ :: rest, text => ValidDelta rest text
  | .delete count :: rest, text => count ≤ text.length ∧ ValidDelta rest (text.drop count)

end Concord.Client

import Mathlib.Data.List.Perm.Basic
import Mathlib.Data.List.Nodup
import Concord.Json.Parsing

/-!
Contract: the fields of a JSON object as a map.

Owns:
- an object whose keys are distinct is read back: with `sort_keys` each key has the same
  value, without it the fields are the same.

Does not own: objects with a key that comes twice.
-/

set_option autoImplicit false

namespace Concord.Json

section Lookup

variable {α β : Type} {fields others : List (String × α)} {key : String} {value : α}

/-- Where the keys are distinct, the value of a key is the one it stands with. -/
theorem lookup_eq_some_iff_mem (distinct : (fields.map Prod.fst).Nodup) :
    fields.lookup key = some value ↔ (key, value) ∈ fields := by
  induction fields with
  | nil => exact ⟨nofun, nofun⟩
  | cons field fields inductionHypothesis =>
      obtain ⟨head, first⟩ := field
      rw [List.map_cons, List.nodup_cons] at distinct
      obtain ⟨absent, distinct⟩ := distinct
      rw [List.lookup_cons, List.mem_cons]
      by_cases same : key = head
      · subst same
        rw [beq_self_eq_true, Option.some.injEq, Prod.mk.injEq]
        constructor
        · rintro rfl
          exact .inl ⟨rfl, rfl⟩
        · rintro (⟨_, rfl⟩ | member)
          · rfl
          · exact absurd (List.mem_map_of_mem (f := Prod.fst) member) absent
      · rw [beq_eq_false_iff_ne.mpr same]
        rw [inductionHypothesis distinct, Prod.mk.injEq]
        exact ⟨.inr, fun either => either.resolve_left fun equal => same equal.1⟩

/-- The order of the fields does not matter. -/
theorem lookup_of_perm (same : fields.Perm others) (distinct : (fields.map Prod.fst).Nodup)
    (key : String) : others.lookup key = fields.lookup key := by
  have distinctToo : (others.map Prod.fst).Nodup := (same.map Prod.fst).nodup_iff.mp distinct
  apply Option.ext
  intro value
  rw [lookup_eq_some_iff_mem distinctToo, lookup_eq_some_iff_mem distinct]
  exact same.symm.mem_iff

private theorem lookup_map (change : α → β) (key : String) (fields : List (String × α)) :
    (fields.map fun field => (field.1, change field.2)).lookup key =
      (fields.lookup key).map change := by
  induction fields with
  | nil => rfl
  | cons field fields inductionHypothesis =>
      rw [List.map_cons, List.lookup_cons, List.lookup_cons, inductionHypothesis]
      cases key == field.1 <;> rfl

end Lookup

private theorem sortFields_eq_map (fields : List (String × Json)) :
    sortFields fields = fields.map fun field => (field.1, sortKeys field.2) := by
  induction fields with
  | nil => rw [sortFields, List.map_nil]
  | cons field fields inductionHypothesis => rw [sortFields, inductionHypothesis, List.map_cons]

private theorem keepLastFields_eq_map (fields : List (String × Json)) :
    keepLastFields fields = fields.map fun field => (field.1, keepLast field.2) := by
  induction fields with
  | nil => rw [keepLastFields, List.map_nil]
  | cons field fields inductionHypothesis =>
      rw [keepLastFields, inductionHypothesis, List.map_cons]

/-- Distinct keys stay as they are. -/
theorem lastOfKeys_of_distinct {fields : List (String × Json)}
    (distinct : (fields.map Prod.fst).Nodup) : lastOfKeys fields = fields := by
  induction fields with
  | nil => rfl
  | cons field fields inductionHypothesis =>
      obtain ⟨key, value⟩ := field
      rw [List.map_cons, List.nodup_cons] at distinct
      obtain ⟨absent, distinct⟩ := distinct
      have others : ∀ field ∈ fields, field.1 ≠ key := by
        intro field member same
        exact absent (List.mem_map.mpr ⟨field, member, same⟩)
      have unread : fields.lookup key = none := by
        apply List.lookup_eq_none_iff.mpr
        intro field member
        exact bne_iff_ne.mpr (others field member).symm
      have kept : fields.filter (fun field => decide (field.1 ≠ key)) = fields := by
        apply List.filter_eq_self.mpr
        intro field member
        exact decide_eq_true (others field member)
      rw [lastOfKeys, inductionHypothesis distinct, unread, kept]
      rfl

/-- The fields of an object as they are read back when they were printed in order. -/
def sortedFields (fields : List (String × Json)) : List (String × Json) :=
  keepLastFields ((sortFields fields).insertionSort FieldLe)

variable {fields : List (String × Json)}

private theorem sortFields_distinct (distinct : (fields.map Prod.fst).Nodup) :
    ((sortFields fields).map Prod.fst).Nodup := by
  rw [sortFields_eq_map, List.map_map]
  exact distinct

private theorem sortedFields_distinct (distinct : (fields.map Prod.fst).Nodup) :
    ((sortedFields fields).map Prod.fst).Nodup := by
  unfold sortedFields
  rw [keepLastFields_eq_map, List.map_map]
  exact ((List.perm_insertionSort _ _).map Prod.fst).nodup_iff.mpr (sortFields_distinct distinct)

theorem lookup_sortedFields (distinct : (fields.map Prod.fst).Nodup) (key : String) :
    (sortedFields fields).lookup key = (fields.lookup key).map fun value =>
      keepLast (sortKeys value) := by
  have perm : (sortFields fields).Perm ((sortFields fields).insertionSort FieldLe) :=
    (List.perm_insertionSort _ _).symm
  unfold sortedFields
  rw [keepLastFields_eq_map, lookup_map, lookup_of_perm perm (sortFields_distinct distinct),
    sortFields_eq_map, lookup_map, Option.map_map]
  rfl

/-- An object that was printed with its keys in order is read back with them in order. -/
theorem loads_dumps_object (style : Style) (distinct : (fields.map Prod.fst).Nodup) :
    loads (dumps style true (.object fields)) = some (.object (sortedFields fields)) := by
  rw [loads_dumps]
  simp only [if_true, sortKeys, keepLast]
  exact congrArg (some ∘ object) (lastOfKeys_of_distinct (sortedFields_distinct distinct))

/-- An object whose keys are distinct is read back as it is, if its values are. -/
theorem loads_dumps_plain (style : Style) (distinct : (fields.map Prod.fst).Nodup)
    (plain : ∀ field ∈ fields, keepLast field.2 = field.2) :
    loads (dumps style false (.object fields)) = some (.object fields) := by
  have same : keepLastFields fields = fields := by
    rw [keepLastFields_eq_map]
    conv_rhs => rw [← List.map_id fields]
    apply List.map_congr_left
    intro field member
    exact Prod.ext rfl (plain field member)
  rw [loads_dumps]
  simp only [Bool.false_eq_true, if_false, keepLast]
  rw [same, lastOfKeys_of_distinct distinct]

end Concord.Json

import Concord.Execution.Output

/-!
Contract: where the characters of some bytes start.

Owns:
- `characters` without a count, and one step of the decoder on two pieces;
- `Reaches`, the places between two characters;
- the exact effect of a cut on the characters.

A character that is cut leaves continuation bytes behind, each of which is decoded
on its own. A cut can therefore only add characters.
-/

set_option autoImplicit false

namespace Concord.Execution

/-! ### One character -/

/-- What the bytes after a first byte must satisfy. -/
def expected (first : UInt8) : List (UInt8 → Bool) :=
  if first ≤ 0x7F then []
  else if 0xC2 ≤ first && first ≤ 0xDF then [isContinuation]
  else if 0xE0 ≤ first && first ≤ 0xEF then [continues first, isContinuation]
  else if 0xF0 ≤ first && first ≤ 0xF4 then [continues first, isContinuation, isContinuation]
  else []

/-- The bytes that are read as expected, and those after them. -/
def readExpected : List (UInt8 → Bool) → List UInt8 → List UInt8 × List UInt8
  | [], bytes => ([], bytes)
  | _ :: _, [] => ([], [])
  | accepts :: rest, byte :: bytes =>
      if accepts byte then
        let (taken, left) := readExpected rest bytes
        (byte :: taken, left)
      else ([], byte :: bytes)

theorem readExpected_append (checks : List (UInt8 → Bool)) (bytes : List UInt8) :
    (readExpected checks bytes).1 ++ (readExpected checks bytes).2 = bytes := by
  induction checks generalizing bytes with
  | nil => rfl
  | cons accepts rest inductionHypothesis =>
      cases bytes with
      | nil => rfl
      | cons byte bytes =>
          unfold readExpected
          split
          · exact congrArg (byte :: ·) (inductionHypothesis bytes)
          · rfl

private theorem readExpected_checked (checks : List (UInt8 → Bool)) (bytes : List UInt8) :
    ∀ byte ∈ (readExpected checks bytes).1, ∃ accepts ∈ checks, accepts byte := by
  induction checks generalizing bytes with
  | nil => exact nofun
  | cons accepts rest inductionHypothesis =>
      cases bytes with
      | nil => exact nofun
      | cons byte bytes =>
          intro other member
          unfold readExpected at member
          split at member
          · next accepted =>
              rcases List.mem_cons.mp member with rfl | later
              · exact ⟨accepts, List.mem_cons_self, accepted⟩
              · exact (inductionHypothesis bytes other later).imp fun check found =>
                  ⟨List.mem_cons_of_mem _ found.1, found.2⟩
          · cases member

/-- Two pieces are read like the first one, unless this one ends too early: then the
second piece starts with bytes that were expected. -/
theorem readExpected_pieces (checks : List (UInt8 → Bool)) (front back : List UInt8) :
    readExpected checks (front ++ back) =
        ((readExpected checks front).1, (readExpected checks front).2 ++ back) ∨
      (readExpected checks front).2 = [] ∧
        ∃ taken left, taken ≠ [] ∧ back = taken ++ left ∧
          (∀ byte ∈ taken, ∃ accepts ∈ checks, accepts byte) ∧
          (readExpected checks (front ++ back)).2 = left := by
  induction checks generalizing front back with
  | nil => exact .inl rfl
  | cons accepts rest inductionHypothesis =>
      cases front with
      | nil =>
          cases back with
          | nil => exact .inl rfl
          | cons byte back =>
              by_cases accepted : accepts byte
              · refine .inr ⟨rfl, byte :: (readExpected rest back).1, (readExpected rest back).2,
                  List.cons_ne_nil _ _, ?_, ?_, ?_⟩
                · rw [List.cons_append, readExpected_append]
                · intro other member
                  rcases List.mem_cons.mp member with rfl | later
                  · exact ⟨accepts, List.mem_cons_self, accepted⟩
                  · exact (readExpected_checked rest back other later).imp fun check found =>
                      ⟨List.mem_cons_of_mem _ found.1, found.2⟩
                · rw [List.nil_append, readExpected, if_pos accepted]
              · refine .inl ?_
                simp only [List.nil_append, readExpected, if_neg accepted]
      | cons byte front =>
          by_cases accepted : accepts byte
          · rw [List.cons_append, readExpected, readExpected, if_pos accepted, if_pos accepted]
            rcases inductionHypothesis front back with whole | ⟨ended, taken, left, some, cut, checked, rest⟩
            · rw [whole]
              exact .inl rfl
            · exact .inr ⟨ended, taken, left, some, cut,
                fun other member => (checked other member).imp fun check found =>
                  ⟨List.mem_cons_of_mem _ found.1, found.2⟩, rest⟩
          · refine .inl ?_
            rw [List.cons_append, readExpected, readExpected, if_neg accepted, if_neg accepted]
            rfl

private theorem isContinuation_of_expected {first byte : UInt8} {accepts : UInt8 → Bool}
    (member : accepts ∈ expected first) (accepted : accepts byte) : isContinuation byte := by
  have narrower : continues first byte → isContinuation byte := by
    unfold continues isContinuation
    intro continued
    split at continued
    · simp only [Bool.and_eq_true, decide_eq_true_eq] at continued ⊢
      exact ⟨UInt8.le_trans (by decide) continued.1, continued.2⟩
    split at continued
    · simp only [Bool.and_eq_true, decide_eq_true_eq] at continued ⊢
      exact ⟨continued.1, UInt8.le_trans continued.2 (by decide)⟩
    split at continued
    · simp only [Bool.and_eq_true, decide_eq_true_eq] at continued ⊢
      exact ⟨UInt8.le_trans (by decide) continued.1, continued.2⟩
    split at continued
    · simp only [Bool.and_eq_true, decide_eq_true_eq] at continued ⊢
      exact ⟨continued.1, UInt8.le_trans continued.2 (by decide)⟩
    · exact continued
  unfold expected at member
  split at member
  · cases member
  split at member
  · obtain rfl := List.mem_singleton.mp member
    exact accepted
  split at member
  · rcases List.mem_cons.mp member with rfl | member
    · exact narrower accepted
    · obtain rfl := List.mem_singleton.mp member
      exact accepted
  split at member
  · rcases List.mem_cons.mp member with rfl | member
    · exact narrower accepted
    · rcases List.mem_cons.mp member with rfl | member
      · exact accepted
      · obtain rfl := List.mem_singleton.mp member
        exact accepted
  · cases member

/-- One step of the decoder: it reads what it expects, and the character depends on
these bytes only. -/
theorem decodeNext_eq (first : UInt8) (rest : List UInt8) :
    decodeNext first rest =
      ((decodeNext first (readExpected (expected first) rest).1).1,
        (readExpected (expected first) rest).2) := by
  by_cases ascii : first ≤ 0x7F
  · have none : expected first = [] := by unfold expected; rw [if_pos ascii]
    rw [none]
    simp only [decodeNext, if_pos ascii, readExpected]
  by_cases two : (0xC2 ≤ first && first ≤ 0xDF) = true
  · have one : expected first = [isContinuation] := by
      unfold expected; rw [if_neg ascii, if_pos two]
    rw [one]
    unfold decodeNext
    simp only [if_neg ascii, if_pos two]
    rcases rest with _ | ⟨second, rest⟩
    · rfl
    · by_cases accepted : isContinuation second = true <;> simp [readExpected, accepted]
  by_cases three : (0xE0 ≤ first && first ≤ 0xEF) = true
  · have checks : expected first = [continues first, isContinuation] := by
      unfold expected; rw [if_neg ascii, if_neg two, if_pos three]
    rw [checks]
    unfold decodeNext
    simp only [if_neg ascii, if_neg two, if_pos three]
    rcases rest with _ | ⟨second, _ | ⟨third, rest⟩⟩
    · rfl
    · by_cases accepted : continues first second = true <;> simp [readExpected, accepted]
    · by_cases accepted : continues first second = true <;>
        by_cases again : isContinuation third = true <;> simp [readExpected, accepted, again]
  by_cases four : (0xF0 ≤ first && first ≤ 0xF4) = true
  · have checks : expected first = [continues first, isContinuation, isContinuation] := by
      unfold expected; rw [if_neg ascii, if_neg two, if_neg three, if_pos four]
    rw [checks]
    unfold decodeNext
    simp only [if_neg ascii, if_neg two, if_neg three, if_pos four]
    rcases rest with _ | ⟨second, _ | ⟨third, _ | ⟨fourth, rest⟩⟩⟩
    · rfl
    · by_cases accepted : continues first second = true <;> simp [readExpected, accepted]
    · by_cases accepted : continues first second = true <;>
        by_cases again : isContinuation third = true <;> simp [readExpected, accepted, again]
    · by_cases accepted : continues first second = true <;>
        by_cases again : isContinuation third = true <;>
          by_cases last : isContinuation fourth = true <;> simp [readExpected, accepted, again, last]
  · have none : expected first = [] := by
      unfold expected; rw [if_neg ascii, if_neg two, if_neg three, if_neg four]
    rw [none]
    unfold decodeNext
    simp only [if_neg ascii, if_neg two, if_neg three, if_neg four, readExpected]

theorem length_decodeNext_le (first : UInt8) (rest : List UInt8) :
    (decodeNext first rest).2.length ≤ rest.length := by
  rw [decodeNext_eq]
  conv => rhs; rw [← readExpected_append (expected first) rest, List.length_append]
  exact Nat.le_add_left _ _

/-- A continuation byte that starts a character is one character. -/
theorem decodeNext_of_isContinuation {byte : UInt8} (continuation : isContinuation byte)
    (rest : List UInt8) : decodeNext byte rest = (replacementCharacter, rest) := by
  unfold isContinuation at continuation
  rw [Bool.and_eq_true, decide_eq_true_eq, decide_eq_true_eq] at continuation
  obtain ⟨low, high⟩ := continuation
  rw [UInt8.le_iff_toNat_le] at low high
  have below : ∀ bound : UInt8, 0xBF < bound.toNat → ¬bound ≤ byte := by
    intro bound large
    rw [UInt8.le_iff_toNat_le]
    have : (0xBF : UInt8).toNat = 191 := rfl
    omega
  have ascii : ¬byte ≤ 0x7F := by
    rw [UInt8.le_iff_toNat_le]
    have : (0x80 : UInt8).toNat = 128 := rfl
    have : (0x7F : UInt8).toNat = 127 := rfl
    omega
  unfold decodeNext
  rw [if_neg ascii, if_neg (by simp [below 0xC2 (by decide)]),
    if_neg (by simp [below 0xE0 (by decide)]), if_neg (by simp [below 0xF0 (by decide)])]

/-- Two pieces start with the character of the first one, or this character is cut:
then the second piece starts with continuation bytes. -/
theorem decodeNext_pieces (first : UInt8) (front back : List UInt8) :
    decodeNext first (front ++ back) =
        ((decodeNext first front).1, (decodeNext first front).2 ++ back) ∨
      (decodeNext first front).2 = [] ∧
        ∃ taken, taken ≠ [] ∧ (∀ byte ∈ taken, isContinuation byte) ∧
          back = taken ++ (decodeNext first (front ++ back)).2 := by
  have read := readExpected_pieces (expected first) front back
  rcases read with whole | ⟨ended, taken, left, some, cut, checked, after⟩
  · refine .inl ?_
    rw [decodeNext_eq first (front ++ back), decodeNext_eq first front, whole]
  · refine .inr ⟨by rw [decodeNext_eq]; exact ended, taken, some, fun byte member => ?_, ?_⟩
    · obtain ⟨accepts, member, accepted⟩ := checked byte member
      exact isContinuation_of_expected member accepted
    · rw [decodeNext_eq first (front ++ back), after]
      exact cut

/-! ### All characters -/

def characters (bytes : List UInt8) : List Char := decodeCharacters bytes.length bytes

theorem decodeReplacing_eq (bytes : List UInt8) :
    decodeReplacing bytes = String.ofList (characters bytes) := rfl

private theorem decodeCharacters_succ (count : Nat) (first : UInt8) (rest : List UInt8) :
    decodeCharacters (count + 1) (first :: rest) =
      (decodeNext first rest).1 :: decodeCharacters count (decodeNext first rest).2 := rfl

private theorem decodeCharacters_of_le {count : Nat} {bytes : List UInt8}
    (enough : bytes.length ≤ count) :
    decodeCharacters count bytes = characters bytes := by
  induction count using Nat.strong_induction_on generalizing bytes with
  | _ count inductionHypothesis =>
      cases bytes with
      | nil => cases count <;> rfl
      | cons first rest =>
          cases count with
          | zero => cases enough
          | succ count =>
              have shorter := length_decodeNext_le first rest
              have few : rest.length ≤ count := Nat.le_of_succ_le_succ enough
              unfold characters
              rw [List.length_cons, decodeCharacters_succ, decodeCharacters_succ,
                inductionHypothesis count (Nat.lt_succ_self _) (shorter.trans few)]
              rcases Nat.lt_or_eq_of_le few with less | same
              · rw [inductionHypothesis rest.length (less.trans (Nat.lt_succ_self _)) shorter]
              · rw [same, inductionHypothesis count (Nat.lt_succ_self _) (shorter.trans few)]

private theorem characters_nil : characters [] = [] := rfl

theorem characters_cons (first : UInt8) (rest : List UInt8) :
    characters (first :: rest) = (decodeNext first rest).1 :: characters (decodeNext first rest).2 := by
  conv => lhs; unfold characters
  rw [List.length_cons, decodeCharacters_succ,
    decodeCharacters_of_le (length_decodeNext_le first rest)]

/-- Continuation bytes at the start are characters of their own. -/
theorem characters_of_continuations {taken : List UInt8} (left : List UInt8)
    (continuations : ∀ byte ∈ taken, isContinuation byte) :
    characters (taken ++ left) =
      List.replicate taken.length replacementCharacter ++ characters left := by
  induction taken with
  | nil => rfl
  | cons byte taken inductionHypothesis =>
      rw [List.cons_append, characters_cons,
        decodeNext_of_isContinuation (continuations byte List.mem_cons_self),
        inductionHypothesis fun other member => continuations other (List.mem_cons_of_mem _ member)]
      rfl

/-! ### Cuts -/

/-- The decoder comes to a rest of its bytes. -/
inductive Reaches : List UInt8 → List UInt8 → Prop
  | here (bytes : List UInt8) : Reaches bytes bytes
  | next {first : UInt8} {rest left : List UInt8} (later : Reaches (decodeNext first rest).2 left) :
      Reaches (first :: rest) left

/-- A character starts at a position. -/
def StartsCharacter (bytes : List UInt8) (position : Nat) : Prop :=
  Reaches bytes (bytes.drop position)

theorem Reaches.length_le {bytes left : List UInt8} (reaches : Reaches bytes left) :
    left.length ≤ bytes.length := by
  induction reaches with
  | here bytes => exact Nat.le_refl _
  | @next first rest left _ inductionHypothesis =>
      exact (inductionHypothesis.trans (length_decodeNext_le first rest)).trans (Nat.le_succ _)

theorem Reaches.cons_cases {first : UInt8} {rest left : List UInt8}
    (reaches : Reaches (first :: rest) left) :
    left = first :: rest ∨ Reaches (decodeNext first rest).2 left := by
  cases reaches with
  | here => exact .inl rfl
  | next later => exact .inr later

/-- The decoder goes on from a rest that it reaches. -/
theorem Reaches.iff_of_reaches {bytes left other : List UInt8} (reaches : Reaches bytes left)
    (shorter : other.length ≤ left.length) : Reaches bytes other ↔ Reaches left other := by
  induction reaches with
  | here bytes => exact Iff.rfl
  | @next first rest left later inductionHypothesis =>
      refine Iff.trans ⟨fun another => ?_, Reaches.next⟩ (inductionHypothesis shorter)
      rcases another.cons_cases with rfl | earlier
      · have bound := later.length_le.trans (length_decodeNext_le first rest)
        rw [List.length_cons] at shorter
        omega
      · exact earlier

/-- **A cut between two characters changes nothing, and every other cut adds
characters.** -/
theorem characters_pieces (front back : List UInt8) :
    Reaches (front ++ back) back ∧ characters (front ++ back) = characters front ++ characters back ∨
      ¬Reaches (front ++ back) back ∧
        (characters (front ++ back)).length < (characters front).length + (characters back).length := by
  induction length : front.length using Nat.strong_induction_on generalizing front with
  | _ count inductionHypothesis =>
      cases front with
      | nil => exact .inl ⟨.here _, rfl⟩
      | cons first front =>
          have shorter := length_decodeNext_le first front
          have reachesNext : back.length ≤ (decodeNext first (front ++ back)).2.length →
              (Reaches (first :: front ++ back) back ↔
                Reaches (decodeNext first (front ++ back)).2 back) :=
            fun bound => (Reaches.next (.here _)).iff_of_reaches bound
          rw [List.cons_append, characters_cons, characters_cons]
          rcases decodeNext_pieces first front back with whole | ⟨ended, taken, some, continuations, cut⟩
          · have next := inductionHypothesis (decodeNext first front).2.length
              (by rw [← length, List.length_cons]; omega) (decodeNext first front).2 rfl
            rw [whole] at reachesNext ⊢
            dsimp only at reachesNext ⊢
            have reaches := reachesNext (by rw [List.length_append]; omega)
            rw [List.cons_append] at reaches
            rw [reaches]
            rcases next with ⟨between, same⟩ | ⟨inside, less⟩
            · refine .inl ⟨between, ?_⟩
              rw [same]
              rfl
            · refine .inr ⟨inside, ?_⟩
              rw [List.length_cons, List.length_cons]
              omega
          · -- The rest of the cut character is read byte by byte.
            have left := List.length_pos_of_ne_nil some
            have behind : back.length = taken.length + (decodeNext first (front ++ back)).2.length := by
              conv => lhs; rw [cut, List.length_append]
            refine .inr ⟨fun reaches => ?_, ?_⟩
            · rcases reaches.cons_cases with all | later
              · have lengths := congrArg List.length all
                rw [List.length_cons, List.length_append] at lengths
                omega
              · have bound := later.length_le
                omega
            · have added := characters_of_continuations (decodeNext first (front ++ back)).2 continuations
              rw [← cut] at added
              rw [ended, added, List.length_append, List.length_replicate]
              simp only [List.length_cons, characters_nil, List.length_nil]
              omega

private theorem length_characters_append_le (front back : List UInt8) :
    (characters (front ++ back)).length ≤ (characters front).length + (characters back).length := by
  rcases characters_pieces front back with ⟨_, same⟩ | ⟨_, less⟩
  · rw [same, List.length_append]
  · exact less.le

private theorem length_characters_flatten_le (pieces : List (List UInt8)) :
    (characters pieces.flatten).length ≤ (pieces.flatMap characters).length := by
  induction pieces with
  | nil => exact Nat.le_refl _
  | cons piece rest inductionHypothesis =>
      rw [List.flatten_cons, List.flatMap_cons, List.length_append]
      exact (length_characters_append_le _ _).trans (Nat.add_le_add_left inductionHypothesis _)

/-- **Pieces that are decoded one by one** give the characters of the whole if and only
if every piece starts with a character of the whole. -/
theorem characters_flatten_iff (pieces : List (List UInt8)) :
    characters pieces.flatten = pieces.flatMap characters ↔
      ∀ before after, pieces = before ++ after → Reaches pieces.flatten after.flatten := by
  induction pieces with
  | nil =>
      refine ⟨fun _ before after split => ?_, fun _ => rfl⟩
      rw [(List.append_eq_nil_iff.mp split.symm).2]
      exact .here _
  | cons piece rest inductionHypothesis =>
      rw [List.flatten_cons, List.flatMap_cons]
      constructor
      · intro same
        have cut := characters_pieces piece rest.flatten
        have bound := length_characters_flatten_le rest
        have lengths := congrArg List.length same
        rw [List.length_append] at lengths
        rcases cut with ⟨between, joined⟩ | ⟨_, less⟩
        · rw [joined] at same
          intro before after split
          cases before with
          | nil =>
              rw [← List.nil_append after, ← split, List.flatten_cons]
              exact .here _
          | cons head before =>
              rw [List.cons_append] at split
              obtain ⟨rfl, tail⟩ := List.cons.inj split
              refine (between.iff_of_reaches ?_).mpr
                (inductionHypothesis.mp (List.append_cancel_left same) before after tail)
              rw [tail, List.flatten_append, List.length_append]
              exact Nat.le_add_left _ _
        · omega
      · intro reached
        have between := reached [piece] rest rfl
        rcases characters_pieces piece rest.flatten with ⟨_, joined⟩ | ⟨inside, _⟩
        · rw [joined]
          refine congrArg (characters piece ++ ·) (inductionHypothesis.mpr fun before after split => ?_)
          refine (between.iff_of_reaches ?_).mp (reached (piece :: before) after (by rw [split]; rfl))
          rw [split, List.flatten_append, List.length_append]
          exact Nat.le_add_left _ _
        · exact absurd between inside

end Concord.Execution

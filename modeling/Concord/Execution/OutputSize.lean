import Mathlib.Algebra.BigOperators.Group.List.Basic
import Concord.Execution.Characters
import Concord.Execution.JobTriples

/-!
Contract: the size of a stored output.

Owns:
- `parts`, how the decoder splits some bytes, and what each part grows by;
- the size of the decoded text, encoded again;
- the outputs that `_bounded` keeps within the limit.

A replacement character takes three bytes. An ill-formed part that is shorter grows
when it is decoded, and `_bounded` counts the bytes before that.
-/

set_option autoImplicit false

namespace Concord.Execution

open Collaboration

/-! ### Parts -/

/-- The parts that the decoder reads some bytes in, at most `count` of them. -/
def splitParts : Nat → List UInt8 → List (List UInt8)
  | 0, _ => []
  | _, [] => []
  | count + 1, first :: rest =>
      let (taken, left) := readExpected (expected first) rest
      (first :: taken) :: splitParts count left

/-- The parts of some bytes: characters, and the parts of ill-formed sequences that
are replaced one by one. -/
def parts (bytes : List UInt8) : List (List UInt8) := splitParts bytes.length bytes

/-- A part is a character: its first byte may start one, and all bytes that this byte
expects follow. -/
def isCharacter : List UInt8 → Bool
  | [] => false
  | first :: rest =>
      first ≤ 0x7F || !(expected first).isEmpty && rest.length = (expected first).length

/-- What a part grows by: a replacement character takes three bytes. -/
def growth (part : List UInt8) : Nat := if isCharacter part then 0 else 3 - part.length

/-- What some bytes grow by. -/
def totalGrowth (bytes : List UInt8) : Nat := ((parts bytes).map growth).sum

def decodePart : List UInt8 → Char
  | [] => replacementCharacter
  | first :: rest => (decodeNext first rest).1

private theorem length_readExpected_le (checks : List (UInt8 → Bool)) (bytes : List UInt8) :
    (readExpected checks bytes).2.length ≤ bytes.length := by
  conv => rhs; rw [← readExpected_append checks bytes, List.length_append]
  exact Nat.le_add_left _ _

private theorem splitParts_of_le {count : Nat} {bytes : List UInt8}
    (enough : bytes.length ≤ count) :
    splitParts count bytes = parts bytes := by
  induction count using Nat.strong_induction_on generalizing bytes with
  | _ count inductionHypothesis =>
      cases bytes with
      | nil => cases count <;> rfl
      | cons first rest =>
          cases count with
          | zero => cases enough
          | succ count =>
              have shorter := length_readExpected_le (expected first) rest
              have few : rest.length ≤ count := Nat.le_of_succ_le_succ enough
              unfold parts
              rw [List.length_cons, splitParts, splitParts]
              dsimp only
              rw [inductionHypothesis count (Nat.lt_succ_self _) (shorter.trans few)]
              rcases Nat.lt_or_eq_of_le few with less | same
              · rw [inductionHypothesis rest.length (less.trans (Nat.lt_succ_self _)) shorter]
              · rw [same, inductionHypothesis count (Nat.lt_succ_self _) (shorter.trans few)]

private theorem parts_cons (first : UInt8) (rest : List UInt8) :
    parts (first :: rest) = (first :: (readExpected (expected first) rest).1) ::
      parts (readExpected (expected first) rest).2 := by
  conv => lhs; unfold parts
  rw [List.length_cons, splitParts]
  dsimp only
  rw [splitParts_of_le (length_readExpected_le (expected first) rest)]

/-- A property of the parts of some bytes, part by part. -/
theorem parts_induction {motive : List UInt8 → Prop} (nil : motive [])
    (cons : ∀ first rest, motive (readExpected (expected first) rest).2 → motive (first :: rest))
    (bytes : List UInt8) : motive bytes := by
  induction length : bytes.length using Nat.strong_induction_on generalizing bytes with
  | _ count inductionHypothesis =>
      cases bytes with
      | nil => exact nil
      | cons first rest =>
          refine cons first rest (inductionHypothesis _ ?_ _ rfl)
          rw [← length, List.length_cons]
          exact Nat.lt_succ_of_le (length_readExpected_le (expected first) rest)

private theorem characters_eq_parts (bytes : List UInt8) :
    characters bytes = (parts bytes).map decodePart := by
  induction bytes using parts_induction with
  | nil => rfl
  | cons first rest inductionHypothesis =>
      rw [characters_cons, parts_cons, decodeNext_eq, inductionHypothesis]
      rfl

/-! ### The size of one character -/

private theorem val_toNat_ofNat {value : Nat} (valid : value.isValidChar) :
    (Char.ofNat value).val.toNat = value := by
  unfold Char.ofNat
  rw [dif_pos valid]
  rfl

private theorem utf8Size_ofNat {value : Nat} (valid : value.isValidChar) :
    (Char.ofNat value).utf8Size =
      if value ≤ 0x7F then 1 else if value ≤ 0x7FF then 2 else if value ≤ 0xFFFF then 3 else 4 := by
  unfold Char.utf8Size
  simp only [UInt32.le_iff_toNat_le, val_toNat_ofNat valid]
  rfl

/-- The bytes that are read pass their checks in order. -/
theorem readExpected_forall (checks : List (UInt8 → Bool)) (bytes : List UInt8) :
    List.Forall₂ (fun accepts byte => accepts byte = true)
      (checks.take (readExpected checks bytes).1.length) (readExpected checks bytes).1 := by
  induction checks generalizing bytes with
  | nil => exact .nil
  | cons accepts rest inductionHypothesis =>
      cases bytes with
      | nil => exact .nil
      | cons byte bytes =>
          unfold readExpected
          split
          · next accepted => exact .cons accepted (inductionHypothesis bytes)
          · exact .nil

private theorem isContinuation_iff (byte : UInt8) :
    isContinuation byte = true ↔ 0x80 ≤ byte.toNat ∧ byte.toNat ≤ 0xBF := by
  unfold isContinuation
  rw [Bool.and_eq_true, decide_eq_true_eq, decide_eq_true_eq, UInt8.le_iff_toNat_le,
    UInt8.le_iff_toNat_le]
  rfl

/-- The second byte of a longer character excludes the code points that are not its own. -/
theorem bounds_of_continues {first second : UInt8} (continued : continues first second = true) :
    0x80 ≤ second.toNat ∧ second.toNat ≤ 0xBF ∧
      (first.toNat = 0xE0 → 0xA0 ≤ second.toNat) ∧ (first.toNat = 0xED → second.toNat ≤ 0x9F) ∧
        (first.toNat = 0xF0 → 0x90 ≤ second.toNat) ∧ (first.toNat = 0xF4 → second.toNat ≤ 0x8F) := by
  have named : ∀ byte : UInt8, first = byte ↔ first.toNat = byte.toNat :=
    fun byte => UInt8.toNat_inj.symm
  unfold continues isContinuation at continued
  simp only [named, UInt8.le_iff_toNat_le, UInt8.reduceToNat] at continued
  split_ifs at continued <;> simp only [Bool.and_eq_true, decide_eq_true_eq] at continued <;> omega

private theorem utf8Size_replacement : replacementCharacter.utf8Size = 3 := by decide

private theorem utf8Size_two {first second : UInt8} (low : 0xC2 ≤ first.toNat)
    (high : first.toNat ≤ 0xDF)
    (continuation : isContinuation second = true) :
    (Char.ofNat (first.toNat % 32 * 64 + payloadBits second)).utf8Size = 2 := by
  obtain ⟨least, most⟩ := (isContinuation_iff second).mp continuation
  unfold payloadBits
  rw [utf8Size_ofNat (by unfold Nat.isValidChar; omega), if_neg (by omega), if_pos (by omega)]

private theorem utf8Size_three {first second third : UInt8} (low : 0xE0 ≤ first.toNat)
    (high : first.toNat ≤ 0xEF) (continued : continues first second = true)
    (continuation : isContinuation third = true) :
    (Char.ofNat ((first.toNat % 16 * 64 + payloadBits second) * 64 + payloadBits third)).utf8Size =
      3 := by
  obtain ⟨least, most, shortest, surrogates, _⟩ := bounds_of_continues continued
  obtain ⟨least', most'⟩ := (isContinuation_iff third).mp continuation
  unfold payloadBits
  rw [utf8Size_ofNat (by unfold Nat.isValidChar; omega), if_neg (by omega), if_neg (by omega),
    if_pos (by omega)]

private theorem utf8Size_four {first second third fourth : UInt8} (low : 0xF0 ≤ first.toNat)
    (high : first.toNat ≤ 0xF4) (continued : continues first second = true)
    (continuation : isContinuation third = true) (last : isContinuation fourth = true) :
    (Char.ofNat (((first.toNat % 8 * 64 + payloadBits second) * 64 + payloadBits third) * 64 +
      payloadBits fourth)).utf8Size = 4 := by
  obtain ⟨least, most, _, _, shortest, largest⟩ := bounds_of_continues continued
  obtain ⟨least', most'⟩ := (isContinuation_iff third).mp continuation
  obtain ⟨least'', most''⟩ := (isContinuation_iff fourth).mp last
  unfold payloadBits
  rw [utf8Size_ofNat (by unfold Nat.isValidChar; omega), if_neg (by omega), if_neg (by omega),
    if_neg (by omega)]

private theorem growth_cons (first : UInt8) (taken : List UInt8) :
    growth (first :: taken) =
      if first ≤ 0x7F ∨ expected first ≠ [] ∧ taken.length = (expected first).length then 0
      else 2 - taken.length := by
  simp [growth, isCharacter]

/-- A part takes as many bytes as it has, and what it grows by. -/
theorem utf8Size_decodePart (first : UInt8) (rest : List UInt8) :
    (decodePart (first :: (readExpected (expected first) rest).1)).utf8Size =
      (first :: (readExpected (expected first) rest).1).length +
        growth (first :: (readExpected (expected first) rest).1) := by
  have checked := readExpected_forall (expected first) rest
  generalize (readExpected (expected first) rest).1 = taken at checked ⊢
  have compare : ∀ low high : UInt8, (low ≤ first && first ≤ high) = true ↔
      low.toNat ≤ first.toNat ∧ first.toNat ≤ high.toNat := by
    intro low high
    rw [Bool.and_eq_true, decide_eq_true_eq, decide_eq_true_eq, UInt8.le_iff_toNat_le,
      UInt8.le_iff_toNat_le]
  rw [growth_cons]
  change (decodeNext first taken).1.utf8Size = _
  unfold decodeNext
  by_cases ascii : first ≤ 0x7F
  · have none : expected first = [] := by unfold expected; rw [if_pos ascii]
    rw [none, List.take_nil] at checked
    cases checked
    have bound : first.toNat ≤ 0x7F := UInt8.le_iff_toNat_le.mp ascii
    have valid : first.toNat.isValidChar := .inl (by omega)
    rw [if_pos ascii, utf8Size_ofNat valid, if_pos bound, if_pos (.inl ascii)]
    rfl
  by_cases two : (0xC2 ≤ first && first ≤ 0xDF) = true
  · have checks : expected first = [isContinuation] := by
      unfold expected; rw [if_neg ascii, if_pos two]
    rw [checks] at checked ⊢
    obtain ⟨low, high⟩ := (compare _ _).mp two
    simp only [if_neg ascii, if_pos two]
    rcases taken with _ | ⟨second, _ | ⟨_, _⟩⟩
    · simp [ascii, utf8Size_replacement]
    · obtain ⟨accepted, _⟩ := List.forall₂_cons.mp checked
      simp [ascii, accepted, utf8Size_two low high accepted]
    · simp at checked
  by_cases three : (0xE0 ≤ first && first ≤ 0xEF) = true
  · have checks : expected first = [continues first, isContinuation] := by
      unfold expected; rw [if_neg ascii, if_neg two, if_pos three]
    rw [checks] at checked ⊢
    obtain ⟨low, high⟩ := (compare _ _).mp three
    simp only [if_neg ascii, if_neg two, if_pos three]
    rcases taken with _ | ⟨second, _ | ⟨third, _ | ⟨_, _⟩⟩⟩
    · simp [ascii, utf8Size_replacement]
    · obtain ⟨continued, _⟩ := List.forall₂_cons.mp checked
      simp [ascii, continued, utf8Size_replacement]
    · obtain ⟨continued, checked⟩ := List.forall₂_cons.mp checked
      obtain ⟨accepted, _⟩ := List.forall₂_cons.mp checked
      simp [ascii, continued, accepted, utf8Size_three low high continued accepted]
    · simp at checked
  by_cases four : (0xF0 ≤ first && first ≤ 0xF4) = true
  · have checks : expected first = [continues first, isContinuation, isContinuation] := by
      unfold expected; rw [if_neg ascii, if_neg two, if_neg three, if_pos four]
    rw [checks] at checked ⊢
    obtain ⟨low, high⟩ := (compare _ _).mp four
    simp only [if_neg ascii, if_neg two, if_neg three, if_pos four]
    rcases taken with _ | ⟨second, _ | ⟨third, _ | ⟨fourth, _ | ⟨_, _⟩⟩⟩⟩
    · simp [ascii, utf8Size_replacement]
    · obtain ⟨continued, _⟩ := List.forall₂_cons.mp checked
      simp [ascii, continued, utf8Size_replacement]
    · obtain ⟨continued, checked⟩ := List.forall₂_cons.mp checked
      obtain ⟨accepted, _⟩ := List.forall₂_cons.mp checked
      simp [ascii, continued, accepted, utf8Size_replacement]
    · obtain ⟨continued, checked⟩ := List.forall₂_cons.mp checked
      obtain ⟨accepted, checked⟩ := List.forall₂_cons.mp checked
      obtain ⟨last, _⟩ := List.forall₂_cons.mp checked
      simp [ascii, continued, accepted, last, utf8Size_four low high continued accepted last]
    · simp at checked
  · have none : expected first = [] := by
      unfold expected; rw [if_neg ascii, if_neg two, if_neg three, if_neg four]
    rw [none, List.take_nil] at checked
    cases checked
    simp [none, ascii, two, three, four, utf8Size_replacement]

/-! ### The size of a text -/

private theorem length_encodeText_ofList (text : List Char) :
    (encodeText (String.ofList text)).length = (text.map Char.utf8Size).sum := by
  unfold encodeText
  rw [String.toByteArray_ofList, List.utf8Encode, List.toList_data_toByteArray, List.length_flatMap]
  simp only [String.length_utf8EncodeChar]

/-- A decoded text takes as many bytes as there were, and what their parts grow by. -/
theorem length_encodeText_decodeReplacing (bytes : List UInt8) :
    (encodeText (decodeReplacing bytes)).length = bytes.length + totalGrowth bytes := by
  rw [decodeReplacing_eq, length_encodeText_ofList]
  induction bytes using parts_induction with
  | nil => rfl
  | cons first rest inductionHypothesis =>
      have size := utf8Size_decodePart first rest
      have read := congrArg List.length (readExpected_append (expected first) rest)
      rw [List.length_append] at read
      rw [characters_eq_parts] at inductionHypothesis ⊢
      unfold totalGrowth at inductionHypothesis ⊢
      rw [parts_cons, List.map_cons, List.map_cons, List.map_cons, List.sum_cons, List.sum_cons,
        inductionHypothesis, size, List.length_cons, List.length_cons]
      omega

/-! ### The end of a text -/

def truncationText : List Char := "\n[output truncated]\n".toList

private theorem characters_truncationNotice :
    characters truncationNotice = truncationText := by decide

/-- The notice starts a character. -/
theorem truncationNotice_start : ∀ byte ∈ truncationNotice.head?, ¬isContinuation byte = true := by
  rintro byte ⟨⟩
  decide

/-- Every character of the notice takes one byte. -/
theorem truncationText_single : ∀ character ∈ truncationText, character.utf8Size = 1 := by
  have all : truncationText.all (fun character => character.utf8Size == 1) = true := by decide
  exact fun character member => beq_iff_eq.mp (List.all_eq_true.mp all character member)

/-- Bytes that do not start with a continuation are decoded on their own. -/
theorem characters_append_of_start {front back : List UInt8}
    (start : ∀ byte ∈ back.head?, ¬isContinuation byte = true) :
    characters (front ++ back) = characters front ++ characters back := by
  induction length : front.length using Nat.strong_induction_on generalizing front with
  | _ count inductionHypothesis =>
      cases front with
      | nil => rfl
      | cons first front =>
          rw [List.cons_append, characters_cons, characters_cons]
          rcases decodeNext_pieces first front back with whole | ⟨_, taken, some, continuations, cut⟩
          · have shorter := length_decodeNext_le first front
            rw [whole, inductionHypothesis (decodeNext first front).2.length
              (by rw [← length, List.length_cons]; omega) rfl]
            rfl
          · obtain ⟨byte, taken, rfl⟩ := List.exists_cons_of_ne_nil some
            refine absurd (continuations byte List.mem_cons_self) (start byte ?_)
            rw [cut]
            rfl

/-- The last characters of some bytes are those of their last bytes. -/
theorem suffix_of_characters {bytes : List UInt8} {front back : List Char}
    (decoded : characters bytes = front ++ back) : ∃ left, left <:+ bytes ∧ characters left = back := by
  induction front generalizing bytes with
  | nil => exact ⟨bytes, List.suffix_rfl, decoded⟩
  | cons character front inductionHypothesis =>
      cases bytes with
      | nil => cases decoded
      | cons first rest =>
          rw [characters_cons, List.cons_append] at decoded
          obtain ⟨left, suffix, back⟩ := inductionHypothesis (List.cons.inj decoded).2
          refine ⟨left, suffix.trans ?_, back⟩
          rw [decodeNext_eq]
          exact ⟨first :: (readExpected (expected first) rest).1,
            congrArg (first :: ·) (readExpected_append _ _)⟩

private theorem encodeText_cons (character : Char) (text : List Char) :
    encodeText (String.ofList (character :: text)) =
      String.utf8EncodeChar character ++ encodeText (String.ofList text) := by
  unfold encodeText
  rw [String.toByteArray_ofList, String.toByteArray_ofList, List.utf8Encode, List.utf8Encode,
    List.toList_data_toByteArray, List.toList_data_toByteArray, List.flatMap_cons]

/-- A part that is one byte of text is an ASCII byte. -/
theorem ascii_of_utf8Size {first : UInt8} {rest : List UInt8}
    (single : (decodeNext first rest).1.utf8Size = 1) : first ≤ 0x7F := by
  have size := utf8Size_decodePart first rest
  rw [decodeNext_eq] at single
  change (decodeNext first (readExpected (expected first) rest).1).1.utf8Size = _ at size
  rw [single, List.length_cons] at size
  have alone : (readExpected (expected first) rest).1 = [] := List.length_eq_zero_iff.mp (by omega)
  rw [alone, growth_cons] at size
  by_contra other
  rw [if_neg] at size
  · cases size
  · rintro (ascii | ⟨some, complete⟩)
    · exact other ascii
    · exact some (List.length_eq_zero_iff.mp complete.symm)

/-- Characters of one byte each are their bytes. -/
theorem encodeText_of_characters {bytes : List UInt8} {text : List Char}
    (decoded : characters bytes = text) (single : ∀ character ∈ text, character.utf8Size = 1) :
    encodeText (String.ofList text) = bytes := by
  induction text generalizing bytes with
  | nil =>
      cases bytes with
      | nil => rfl
      | cons first rest =>
          rw [characters_cons] at decoded
          cases decoded
  | cons character text inductionHypothesis =>
      cases bytes with
      | nil => cases decoded
      | cons first rest =>
          rw [characters_cons] at decoded
          obtain ⟨rfl, later⟩ := List.cons.inj decoded
          obtain ⟨one, others⟩ := List.forall_mem_cons.mp single
          have ascii := ascii_of_utf8Size one
          have read : decodeNext first rest = (Char.ofNat first.toNat, rest) := by
            unfold decodeNext
            rw [if_pos ascii]
          have bound : first.toNat ≤ 0x7F := UInt8.le_iff_toNat_le.mp ascii
          rw [read] at later one
          rw [encodeText_cons, inductionHypothesis later others, read,
            String.utf8EncodeChar_eq_singleton one]
          have valid : first.toNat.isValidChar := .inl (by omega)
          have value : (Char.ofNat first.toNat).val.toUInt8 = first := by
            apply UInt8.toNat_inj.mp
            rw [UInt32.toNat_toUInt8, val_toNat_ofNat valid]
            omega
          rw [value]
          rfl

private theorem truncationText_suffix_iff (bytes : List UInt8) :
    truncationText <:+ characters bytes ↔ truncationNotice <:+ bytes := by
  constructor
  · rintro ⟨front, decoded⟩
    obtain ⟨left, suffix, notice⟩ := suffix_of_characters decoded.symm
    have same := encodeText_of_characters notice truncationText_single
    rwa [← same] at suffix
  · rintro ⟨front, rfl⟩
    rw [characters_append_of_start truncationNotice_start, characters_truncationNotice]
    exact List.suffix_append _ _

/-! ### The limit -/

/-- An output is bounded as it is stored: its text takes at most `limit` bytes, and
ends with the notice exactly where some of it was cut or it did so itself. -/
structure OutputBounded (limit : Nat) (data : List UInt8) (text : String) : Prop where
  size : (encodeText text).length ≤ limit
  notice : truncationText <:+ text.toList ↔ limit < data.length ∨ truncationNotice <:+ data

/-- Decoding does not carry an output over the limit. What remains of an output that is
cut has no room to grow; another one grows by two bytes for each ill-formed part of
one byte, and by one byte for each of two bytes. -/
def Fits (limit : Nat) (data : List UInt8) : Prop :=
  if limit < data.length then
    ∀ part ∈ parts (data.take (limit - truncationNotice.length)), isCharacter part ∨ 3 ≤ part.length
  else data.length + totalGrowth data ≤ limit

instance (limit : Nat) (data : List UInt8) : Decidable (Fits limit data) :=
  inferInstanceAs (Decidable (if limit < data.length then
    ∀ part ∈ parts (data.take (limit - truncationNotice.length)), isCharacter part ∨ 3 ≤ part.length
  else data.length + totalGrowth data ≤ limit))

private theorem totalGrowth_eq_zero_iff (bytes : List UInt8) :
    totalGrowth bytes = 0 ↔ ∀ part ∈ parts bytes, isCharacter part ∨ 3 ≤ part.length := by
  unfold totalGrowth
  rw [List.sum_eq_zero_iff_forall_eq_nat, List.forall_mem_map]
  refine forall₂_congr fun part _ => ?_
  unfold growth
  split
  · next character => exact iff_of_true rfl (.inl character)
  · next other => rw [Nat.sub_eq_zero_iff_le, or_iff_right other]

/-- The text of an output that is cut. -/
theorem length_encodeText_cut (kept : List UInt8) :
    (encodeText (decodeReplacing (kept ++ truncationNotice))).length =
      kept.length + totalGrowth kept + truncationNotice.length := by
  have sizes : ((characters kept).map Char.utf8Size).sum = kept.length + totalGrowth kept := by
    rw [← length_encodeText_ofList, ← decodeReplacing_eq, length_encodeText_decodeReplacing]
  rw [decodeReplacing_eq, characters_append_of_start truncationNotice_start, length_encodeText_ofList,
    List.map_append, List.sum_append, sizes, characters_truncationNotice]
  rfl

private theorem outputBounded_iff_fits {limit : Nat} {data : List UInt8}
    (room : truncationNotice.length ≤ limit) :
    OutputBounded limit data (bounded limit data) ↔ Fits limit data := by
  unfold bounded Fits
  by_cases cut : limit < data.length
  · rw [if_pos cut, if_pos cut, ← totalGrowth_eq_zero_iff]
    have kept : (data.take (limit - truncationNotice.length)).length =
        limit - truncationNotice.length := by
      rw [List.length_take]
      omega
    have ends : truncationText <:+
        (decodeReplacing (data.take (limit - truncationNotice.length) ++ truncationNotice)).toList := by
      rw [decodeReplacing_eq, String.toList_ofList, truncationText_suffix_iff]
      exact List.suffix_append _ _
    have size := length_encodeText_cut (data.take (limit - truncationNotice.length))
    rw [kept] at size
    constructor
    · rintro ⟨within, _⟩
      omega
    · exact fun none => ⟨by omega, iff_of_true ends (.inl cut)⟩
  · rw [if_neg cut, if_neg cut]
    have size := length_encodeText_decodeReplacing data
    constructor
    · rintro ⟨within, _⟩
      omega
    · refine fun within => ⟨by omega, ?_⟩
      rw [decodeReplacing_eq, String.toList_ofList, truncationText_suffix_iff, or_iff_right cut]

/-- **A stored output is bounded** if and only if decoding does not carry it over the
limit: the text that `_bounded` returns, and both texts in the row of a finished job. -/
theorem stored_output_bounded_iff {limit : Nat} {data : List UInt8}
    (room : truncationNotice.length ≤ limit) :
    (OutputBounded limit data (bounded limit data) ↔ Fits limit data) ∧
      ∀ (sandbox : Container) (row : ExecutionRow), row.Records limit sandbox →
        (sandbox.stdout = data →
          ((∃ text, row.stdout = some text ∧ OutputBounded limit data text) ↔ Fits limit data)) ∧
        (sandbox.stderr = data →
          ((∃ text, row.stderr = some text ∧ OutputBounded limit data text) ↔ Fits limit data)) := by
  have bounds : OutputBounded limit data (bounded limit data) ↔ Fits limit data :=
    outputBounded_iff_fits room
  have stored : ∀ {text : Option String}, text = some (bounded limit data) →
      ((∃ stored, text = some stored ∧ OutputBounded limit data stored) ↔ Fits limit data) := by
    rintro _ rfl
    rw [← bounds]
    refine ⟨fun ⟨stored, same, holds⟩ => ?_, fun holds => ⟨_, rfl, holds⟩⟩
    obtain rfl := Option.some.inj same
    exact holds
  refine ⟨bounds, fun sandbox row records => ⟨?_, ?_⟩⟩
  · rintro rfl
    exact stored records.stdout
  · rintro rfl
    exact stored records.stderr

/-- A limit of 32 bytes, for 32 bytes of text. -/
theorem stored_output_bounded_iff_text :
    OutputBounded 32 (List.replicate 32 120) (bounded 32 (List.replicate 32 120)) :=
  (stored_output_bounded_iff (by decide)).1.mpr (by decide)

/-- Thirty-two bytes that start no character take ninety-six as text. -/
theorem ill_formed_output_exceeds_limit :
    ¬∀ limit data, truncationNotice.length ≤ limit → OutputBounded limit data (bounded limit data) := by
  intro always
  have size := (always 32 (List.replicate 32 0xFF) (by decide)).size
  exact absurd size (by decide)

end Concord.Execution

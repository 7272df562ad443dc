import Mathlib.Data.List.Forall2
import Mathlib.Tactic.Ring
import Mathlib.Algebra.Order.Ring.Nat

/-!
Contract: decoders of byte strings, and base-128 numbers.

Owns:
- `Decoder`, a reader that takes bytes from the front of its input;
- `Reads`, that a decoder reads back an encoding whatever follows it, with its
  rules for sequences and counted loops;
- the base-128 digits of a number, and their value.

Does not own: any message format.
-/

set_option autoImplicit false

namespace Concord.Binary

/-- A reader of a byte string that may fail. -/
abbrev Decoder (ε α : Type) := StateT (List UInt8) (Except ε) α

variable {ε α β : Type}

/-- The decoder reads `bytes` as `value`, and leaves what follows. -/
def Reads (decoder : Decoder ε α) (bytes : List UInt8) (value : α) : Prop :=
  ∀ rest, decoder (bytes ++ rest) = .ok (value, rest)

namespace Reads

theorem pure (value : α) : Reads (Pure.pure value : Decoder ε α) [] value := fun _ => rfl

/-- A sequence goes on behind the bytes that its first part has read. -/
theorem step {first : Decoder ε α} {bytes : List UInt8} {middle : α}
    (reads : Reads first bytes middle) (rest : α → Decoder ε β) (tail : List UInt8) :
    (first >>= rest) (bytes ++ tail) = rest middle tail := by
  change (first (bytes ++ tail)).bind (fun answer => rest answer.1 answer.2) = _
  rw [reads tail]
  rfl

theorem bind {first : Decoder ε α} {rest : α → Decoder ε β} {earlier later : List UInt8}
    {middle : α} {value : β} (reads : Reads first earlier middle)
    (follows : Reads (rest middle) later value) :
    Reads (first >>= rest) (earlier ++ later) value := by
  intro tail
  rw [List.append_assoc, reads.step]
  exact follows tail

/-- The last step of a sequence takes no bytes. -/
theorem bind_pure {first : Decoder ε α} {bytes : List UInt8} {middle : α} {result : α → β}
    (reads : Reads first bytes middle) :
    Reads (do Pure.pure (result (← first))) bytes (result middle) := by
  rw [← List.append_nil bytes]
  exact reads.bind (.pure _)

theorem run {decoder : Decoder ε α} {bytes : List UInt8} {value : α}
    (reads : Reads decoder bytes value) : decoder bytes = .ok (value, []) := by
  have whole := reads []
  rw [List.append_nil] at whole
  exact whole

end Reads

/-- `for _ in range(count)`: the values of a decoder, in order. -/
def decodeMany (decoder : Decoder ε α) : Nat → Decoder ε (List α)
  | 0 => pure []
  | count + 1 => do
      let value ← decoder
      let rest ← decodeMany decoder count
      pure (value :: rest)

/-- A loop that reads one encoding for each value. -/
theorem reads_decodeMany {decoder : Decoder ε α} {values : List α} {parts : List (List UInt8)}
    (reads : List.Forall₂ (fun value bytes => Reads decoder bytes value) values parts) :
    Reads (decodeMany decoder values.length) parts.flatten values := by
  induction reads with
  | nil => exact .pure _
  | cons head _ inductionHypothesis => exact head.bind inductionHypothesis.bind_pure

/-! ### Base-128 numbers -/

/-- The base-128 digits of a number, lowest first, with the high bit set on all
but the last. -/
def digits128 (value : Nat) : List UInt8 :=
  if value > 0x7F then UInt8.ofNat (value % 128 + 128) :: digits128 (value / 128)
  else [UInt8.ofNat value]
termination_by value

theorem digits128_of_le {value : Nat} (small : value ≤ 0x7F) :
    digits128 value = [UInt8.ofNat value] := by
  rw [digits128, if_neg (Nat.not_lt_of_le small)]

theorem digits128_of_gt {value : Nat} (large : value > 0x7F) :
    digits128 value = UInt8.ofNat (value % 128 + 128) :: digits128 (value / 128) := by
  rw [digits128, if_pos large]

theorem digits128_ne_nil (value : Nat) : digits128 value ≠ [] := by
  rw [digits128]
  split <;> exact List.cons_ne_nil _ _

theorem toNat_ofNat_of_lt {value : Nat} (small : value < 256) : (UInt8.ofNat value).toNat = value := by
  rw [UInt8.toNat_ofNat']
  exact Nat.mod_eq_of_lt small

/-- A number below `128 ^ count` has at most `count` digits. -/
theorem length_digits128_le {count value : Nat} (positive : 0 < count) (small : value < 128 ^ count) :
    (digits128 value).length ≤ count := by
  induction count generalizing value with
  | zero => exact absurd positive (Nat.lt_irrefl 0)
  | succ count inductionHypothesis =>
      by_cases large : value > 0x7F
      · rw [digits128_of_gt large, List.length_cons]
        have quotient : value / 128 < 128 ^ count := by
          rw [Nat.div_lt_iff_lt_mul (by decide), ← Nat.pow_succ]
          exact small
        have several : 0 < count := by
          cases count with
          | zero => simp at small; omega
          | succ count => exact Nat.succ_pos _
        exact Nat.succ_le_succ (inductionHypothesis several quotient)
      · rw [digits128_of_le (Nat.le_of_not_lt large)]
        exact Nat.succ_le_succ (Nat.zero_le _)

/-- A smaller number has no more digits. -/
theorem length_digits128_mono {smaller larger : Nat} (le : smaller ≤ larger) :
    (digits128 smaller).length ≤ (digits128 larger).length := by
  induction larger using digits128.induct generalizing smaller with
  | case1 larger large inductionHypothesis =>
      rw [digits128_of_gt large, List.length_cons]
      by_cases many : smaller > 0x7F
      · rw [digits128_of_gt many, List.length_cons]
        exact Nat.succ_le_succ (inductionHypothesis (Nat.div_le_div_right le))
      · rw [digits128_of_le (Nat.le_of_not_lt many), List.length_singleton]
        exact Nat.succ_le_succ (Nat.zero_le _)
  | case2 larger small =>
      have few : smaller ≤ 0x7F := le.trans (Nat.le_of_not_lt small)
      rw [digits128_of_le few, digits128_of_le (Nat.le_of_not_lt small)]
      rfl

end Concord.Binary

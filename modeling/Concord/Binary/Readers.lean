import Concord.Binary.Decoder

/-!
Contract: strict decoders, and decoders over an offset.

Owns:
- `Extends`, a decoder that does not look behind what it reads, and `Complete`, one
  that reads its whole input and nothing longer;
- `Shortens`, an encoder that takes no more bytes than a decoder has read;
- `OffsetReader`, a reader of a fixed byte string at an offset, and `Simulates`, that it
  computes what a decoder of the rest computes.

Does not own: any message format.
-/

set_option autoImplicit false

namespace Concord.Binary

variable {ε ε' α β : Type}

/-! ### Strict decoders -/

/-- What a sequence of decoders has read. -/
theorem decoder_bind_ok {first : Decoder ε α} {rest : α → Decoder ε β} {input left : List UInt8}
    {value : β} (decoded : (first >>= rest) input = .ok (value, left)) :
    ∃ middle between, first input = .ok (middle, between) ∧
      rest middle between = .ok (value, left) := by
  change (first input).bind (fun answer => rest answer.1 answer.2) = _ at decoded
  cases answer : first input with
  | error exn =>
      rw [answer] at decoded
      cases decoded
  | ok pair =>
      rw [answer] at decoded
      exact ⟨pair.1, pair.2, rfl, decoded⟩

private theorem decoder_bind_of_ok {first : Decoder ε α} {input between : List UInt8} {middle : α}
    (decoded : first input = .ok (middle, between)) (rest : α → Decoder ε β) :
    (first >>= rest) input = rest middle between := by
  change (first input).bind (fun answer => rest answer.1 answer.2) = _
  rw [decoded]
  rfl

/-- A decoder that reads the same value when more bytes follow, and leaves them. -/
def Extends (decoder : Decoder ε α) : Prop :=
  ∀ input value left, decoder input = .ok (value, left) →
    ∀ tail, decoder (input ++ tail) = .ok (value, left ++ tail)

/-- A decoder that leaves nothing, and refuses every longer input. -/
def Complete (decoder : Decoder ε α) : Prop :=
  ∀ input value left, decoder input = .ok (value, left) →
    left = [] ∧ ∀ tail, tail ≠ [] → ∀ answer, decoder (input ++ tail) ≠ .ok answer

theorem Extends.pure (value : α) : Extends (Pure.pure value : Decoder ε α) := by
  intro input other left decoded tail
  obtain ⟨rfl, rfl⟩ := Prod.mk.inj (Except.ok.inj decoded)
  rfl

theorem Extends.throw (exn : ε) : Extends (throw exn : Decoder ε α) := nofun

theorem Extends.bind {first : Decoder ε α} {rest : α → Decoder ε β} (head : Extends first)
    (follows : ∀ value, Extends (rest value)) : Extends (first >>= rest) := by
  intro input value left decoded tail
  obtain ⟨middle, between, earlier, later⟩ := decoder_bind_ok decoded
  rw [decoder_bind_of_ok (head _ _ _ earlier tail)]
  exact follows middle _ _ _ later tail

theorem Complete.throw (exn : ε) : Complete (throw exn : Decoder ε α) := nofun

theorem Extends.complete {first : Decoder ε α} {rest : α → Decoder ε β} (head : Extends first)
    (follows : ∀ value, Complete (rest value)) : Complete (first >>= rest) := by
  intro input value left decoded
  obtain ⟨middle, between, earlier, later⟩ := decoder_bind_ok decoded
  obtain ⟨finished, refused⟩ := follows middle _ _ _ later
  refine ⟨finished, fun tail nonempty answer => ?_⟩
  rw [decoder_bind_of_ok (head _ _ _ earlier tail)]
  exact refused tail nonempty answer

theorem Extends.decodeMany {decoder : Decoder ε α} (strict : Extends decoder) :
    ∀ count, Extends (decodeMany decoder count)
  | 0 => .pure []
  | count + 1 => strict.bind fun _ => (strict.decodeMany count).bind fun _ => .pure _

/-! ### Shorter encodings -/

/-- The value that a decoder reads has an encoding of at most as many bytes. -/
def Shortens (decoder : Decoder ε α) (encode : α → Except ε' (List UInt8)) : Prop :=
  ∀ input value left, decoder input = .ok (value, left) →
    ∃ bytes, encode value = .ok bytes ∧ bytes.length + left.length ≤ input.length

/-- The parts of a counted loop are no longer than what the loop has read. -/
theorem Shortens.decodeMany {decoder : Decoder ε α} {encode : α → Except ε' (List UInt8)}
    (shortens : Shortens decoder encode) :
    ∀ count input values left, decodeMany decoder count input = .ok (values, left) →
      values.length = count ∧ ∃ parts, values.mapM encode = .ok parts ∧
        parts.flatten.length + left.length ≤ input.length := by
  intro count
  induction count with
  | zero =>
      intro input values left decoded
      obtain ⟨rfl, rfl⟩ := Prod.mk.inj (Except.ok.inj decoded)
      exact ⟨rfl, [], rfl, by simp⟩
  | succ count inductionHypothesis =>
      intro input values left decoded
      obtain ⟨value, between, first, decoded⟩ := decoder_bind_ok decoded
      obtain ⟨rest, after, later, decoded⟩ := decoder_bind_ok decoded
      obtain ⟨rfl, rfl⟩ := Prod.mk.inj (Except.ok.inj decoded)
      obtain ⟨bytes, encoded, short⟩ := shortens _ _ _ first
      obtain ⟨counted, parts, encodedRest, shortRest⟩ := inductionHypothesis _ _ _ later
      refine ⟨by rw [List.length_cons, counted], bytes :: parts, ?_, ?_⟩
      · rw [List.mapM_cons, encoded, encodedRest]
        rfl
      · rw [List.flatten_cons, List.length_append]
        omega

/-! ### Readers with an offset -/

/-- A reader of a fixed byte string that moves an offset. -/
abbrev OffsetReader (ε α : Type) := ReaderT (List UInt8) (StateT Nat (Except ε)) α

/-- What a reader answers where a decoder of the rest answers: the same value and the
offset of what is left, or the same error. -/
def Follows (raised : ε' → ε) (data : List UInt8) :
    Except ε' (α × List UInt8) → Except ε (α × Nat) → Prop
  | .ok (value, left), read => ∃ next, next ≤ data.length ∧ left = data.drop next ∧
      read = .ok (value, next)
  | .error exn, read => read = .error (raised exn)

/-- The reader does with an offset what the decoder does with the rest. -/
def Simulates (raised : ε' → ε) (reader : OffsetReader ε α) (decoder : Decoder ε' α) : Prop :=
  ∀ data offset, offset ≤ data.length →
    Follows raised data (decoder (data.drop offset)) (reader data offset)

section Simulates

variable {raised : ε' → ε} {reader : OffsetReader ε α} {decoder : Decoder ε' α}

theorem Simulates.ok (simulates : Simulates raised reader decoder) {data : List UInt8} {offset : Nat}
    (inside : offset ≤ data.length) {value : α} {left : List UInt8}
    (decoded : decoder (data.drop offset) = .ok (value, left)) :
    ∃ next, next ≤ data.length ∧ left = data.drop next ∧ reader data offset = .ok (value, next) := by
  have here := simulates data offset inside
  rw [decoded] at here
  exact here

theorem Simulates.error (simulates : Simulates raised reader decoder) {data : List UInt8} {offset : Nat}
    (inside : offset ≤ data.length) {exn : ε'} (failed : decoder (data.drop offset) = .error exn) :
    reader data offset = .error (raised exn) := by
  have here := simulates data offset inside
  rw [failed] at here
  exact here

theorem Simulates.pure (raised : ε' → ε) (value : α) :
    Simulates raised (Pure.pure value) (Pure.pure value : Decoder ε' α) :=
  fun _ offset inside => ⟨offset, inside, rfl, rfl⟩

theorem Simulates.throw (raised : ε' → ε) (exn : ε') :
    Simulates raised (throw (raised exn)) (throw exn : Decoder ε' α) :=
  fun _ _ _ => rfl

theorem Simulates.bind {rest : α → OffsetReader ε β} {follow : α → Decoder ε' β}
    (simulates : Simulates raised reader decoder)
    (follows : ∀ value, Simulates raised (rest value) (follow value)) :
    Simulates raised (reader >>= rest) (decoder >>= follow) := by
  intro data offset inside
  change Follows raised data _ ((reader data offset).bind fun answer => rest answer.1 data answer.2)
  cases answer : decoder (data.drop offset) with
  | error exn =>
      have failed : (decoder >>= follow) (data.drop offset) = .error exn := by
        change (decoder (data.drop offset)).bind _ = _
        rw [answer]
        rfl
      rw [failed, simulates.error inside answer]
      rfl
  | ok pair =>
      obtain ⟨middle, between⟩ := pair
      obtain ⟨next, within, rfl, read⟩ := simulates.ok inside answer
      rw [decoder_bind_of_ok answer, read]
      exact follows middle data next within

/-- A choice that both make alike. -/
theorem Simulates.ite {condition : Prop} [Decidable condition] {other : OffsetReader ε α}
    {otherDecoder : Decoder ε' α} (yes : Simulates raised reader decoder)
    (no : Simulates raised other otherDecoder) :
    Simulates raised (if condition then reader else other)
      (if condition then decoder else otherDecoder) := by
  split
  · exact yes
  · exact no

theorem Simulates.decodeMany (simulates : Simulates raised reader decoder) {loop : Nat → OffsetReader ε (List α)}
    (zero : loop 0 = Pure.pure [])
    (succ : ∀ count, loop (count + 1) = do
      let value ← reader
      let rest ← loop count
      Pure.pure (value :: rest)) :
    ∀ count, Simulates raised (loop count) (decodeMany decoder count)
  | 0 => zero ▸ .pure raised []
  | count + 1 => by
      rw [succ]
      exact simulates.bind fun value => (simulates.decodeMany zero succ count).bind fun rest => .pure _ _

end Simulates

end Concord.Binary

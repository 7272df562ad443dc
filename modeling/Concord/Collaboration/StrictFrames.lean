import Concord.Collaboration.Frames

/-!
Contract: which frames `parse_message` accepts.

Owns:
- that an accepted frame has no accepted extension;
- that the encoding of an accepted message is no longer than its frame, and is
  accepted with the same message.

Does not own: what the JSON parser accepts.
-/

set_option autoImplicit false

namespace Concord.Collaboration

open Binary

variable {P : Platform}

/-! ### Strictness -/

private theorem extends_varUintLoop (input : List UInt8) :
    ∀ (value multiplier bytesRead result : Nat) (left : List UInt8),
      decodeVarUintLoop input value multiplier bytesRead = .ok (result, left) →
        ∀ tail, decodeVarUintLoop (input ++ tail) value multiplier bytesRead =
          .ok (result, left ++ tail) := by
  induction input with
  | nil => exact fun _ _ _ _ _ decoded => nomatch decoded
  | cons byte rest inductionHypothesis =>
      intro value multiplier bytesRead result left decoded tail
      rw [List.cons_append]
      unfold decodeVarUintLoop at decoded ⊢
      split
      · next many =>
          rw [if_pos many] at decoded
          cases decoded
      · next few =>
          rw [if_neg few] at decoded
          split
          · next large =>
              rw [if_pos large] at decoded
              cases decoded
          · next safe =>
              rw [if_neg safe] at decoded
              split
              · next last =>
                  rw [if_pos last] at decoded
                  obtain ⟨rfl, rfl⟩ := Prod.mk.inj (Except.ok.inj decoded)
                  rfl
              · next more =>
                  rw [if_neg more] at decoded
                  exact inductionHypothesis _ _ _ _ _ decoded tail

private theorem extends_varUint : Extends decodeVarUint :=
  fun input value left decoded => extends_varUintLoop input 0 1 0 value left decoded

/-- The bytes of a payload stand at the front of what is left. -/
theorem takeBytes_eq (length : Nat) (input : List UInt8) :
    (do
      let input ← get
      if length > input.length then throw "length-prefixed payload exceeds the frame"
      else
        set (input.drop length)
        pure (input.take length) : Decoder String (List UInt8)) input =
      if length > input.length then .error "length-prefixed payload exceeds the frame"
      else .ok (input.take length, input.drop length) := by
  change (if length > input.length then _ else _ : Decoder String (List UInt8)) input = _
  split <;> rfl

private theorem extends_varBytes : Extends decodeVarBytes := by
  refine extends_varUint.bind fun length input value left decoded tail => ?_
  rw [takeBytes_eq] at decoded ⊢
  split at decoded
  · cases decoded
  · next within =>
      have longer : ¬length > (input ++ tail).length := by
        rw [List.length_append]
        omega
      obtain ⟨rfl, rfl⟩ := Prod.mk.inj (Except.ok.inj decoded)
      have short : length ≤ input.length := Nat.le_of_not_lt within
      rw [if_neg longer, List.take_append_of_le_length short, List.drop_append_of_le_length short]

private theorem extends_varString : Extends decodeVarString := by
  refine extends_varBytes.bind fun encoded => ?_
  cases decodeText encoded with
  | none => exact .throw _
  | some text => exact .pure _

/-- A message ends where the input ends. -/
theorem complete_ensureFinished {α : Type} {rest : Unit → Decoder String α}
    (quiet : ∀ value left, rest () [] = .ok (value, left) → left = []) :
    Complete (ensureFinished >>= rest) := by
  have trailing : ∀ input : List UInt8, input ≠ [] →
      (ensureFinished >>= rest) input = .error "unexpected trailing bytes" := by
    intro input nonempty
    cases input with
    | nil => exact absurd rfl nonempty
    | cons byte input => rfl
  intro input value left decoded
  by_cases empty : input = []
  · subst empty
    refine ⟨quiet value left decoded, fun tail nonempty answer longer => ?_⟩
    rw [List.nil_append, trailing tail nonempty] at longer
    cases longer
  · rw [trailing input empty] at decoded
    cases decoded

private theorem complete_ensureFinished_pure {α : Type} (value : α) :
    Complete (ensureFinished >>= fun _ => (pure value : Decoder String α)) :=
  complete_ensureFinished fun _ _ decoded => (Prod.mk.inj (Except.ok.inj decoded)).2.symm

private theorem complete_frame (wire : Wire P) : Complete wire.decodeFrame := by
  have sync : Complete (Wire.decodeSync : Decoder String (Frame P)) := by
    refine extends_varUint.complete fun code => ?_
    cases syncSubtype code with
    | none => exact .throw _
    | some subtype => exact extends_varBytes.complete fun payload => complete_ensureFinished_pure _
  have awareness : Complete wire.decodeAwareness := by
    refine extends_varBytes.complete fun payload => complete_ensureFinished fun value left => ?_
    cases wire.decodeAwarenessEntries payload with
    | error error => exact nofun
    | ok answer => exact fun decoded => (Prod.mk.inj (Except.ok.inj decoded)).2.symm
  have auth : Complete (Wire.decodeAuth : Decoder String (Frame P)) := by
    refine extends_varUint.complete fun code => ?_
    split
    · exact .throw _
    · exact extends_varString.complete fun reason => complete_ensureFinished_pure _
  refine extends_varUint.complete fun messageType => ?_
  split
  · exact sync
  · split
    · exact awareness
    · split
      · exact complete_ensureFinished_pure _
      · split
        · exact auth
        · exact .throw _

/-! ### Shorter encodings -/

/-- What the loop adds has no more digits than the loop has read bytes. -/
theorem varUintLoop_digits (input : List UInt8) :
    ∀ (value multiplier bytesRead result : Nat) (left : List UInt8),
      decodeVarUintLoop input value multiplier bytesRead = .ok (result, left) →
        ∃ number count, result = value + number * multiplier ∧ number < 128 ^ count ∧ 0 < count ∧
          input.length = count + left.length ∧ result ≤ maxSafeInteger := by
  induction input with
  | nil => exact fun _ _ _ _ _ decoded => nomatch decoded
  | cons byte rest inductionHypothesis =>
      intro value multiplier bytesRead result left decoded
      have digit : (byte &&& 0x7F).toNat < 128 := by
        rw [UInt8.toNat_and]
        exact Nat.lt_of_le_of_lt Nat.and_le_right (by decide)
      unfold decodeVarUintLoop at decoded
      split at decoded
      · cases decoded
      · split at decoded
        · cases decoded
        · next safe =>
            split at decoded
            · obtain ⟨rfl, rfl⟩ := Prod.mk.inj (Except.ok.inj decoded)
              refine ⟨_, 1, rfl, digit, Nat.one_pos, ?_, Nat.le_of_not_lt safe⟩
              rw [List.length_cons, Nat.add_comm]
            · obtain ⟨number, count, rfl, small, _, length, bound⟩ :=
                inductionHypothesis _ _ _ _ _ decoded
              refine ⟨(byte &&& 0x7F).toNat + 128 * number, count + 1, ?_, ?_, Nat.succ_pos _, ?_,
                bound⟩
              · ring
              · rw [Nat.pow_succ]
                omega
              · rw [List.length_cons, length]
                omega

private theorem shortens_varUint : Shortens decodeVarUint encodeVarUint := by
  intro input value left decoded
  obtain ⟨number, count, rfl, small, positive, length, bound⟩ :=
    varUintLoop_digits input 0 1 0 value left decoded
  rw [Nat.zero_add, Nat.mul_one] at bound ⊢
  refine ⟨digits128 number, ?_, ?_⟩
  · unfold encodeVarUint
    rw [if_neg (Nat.not_lt_of_le bound)]
  · have digits := length_digits128_le positive small
    omega

private theorem shortens_varBytes : Shortens decodeVarBytes encodeVarBytes := by
  intro input value left decoded
  obtain ⟨length, between, first, decoded⟩ := decoder_bind_ok decoded
  obtain ⟨header, encoded, short⟩ := shortens_varUint _ _ _ first
  rw [takeBytes_eq] at decoded
  split at decoded
  · cases decoded
  · next within =>
      obtain ⟨rfl, rfl⟩ := Prod.mk.inj (Except.ok.inj decoded)
      have taken : (between.take length).length = length := by
        rw [List.length_take]
        omega
      refine ⟨header ++ between.take length, ?_, ?_⟩
      · unfold encodeVarBytes
        rw [taken, encoded]
        rfl
      · rw [List.length_append, taken, List.length_drop]
        omega

private theorem encodeText_of_decodeText {bytes : List UInt8} {text : String}
    (decoded : decodeText bytes = some text) : encodeText text = bytes := by
  unfold decodeText String.fromUTF8? at decoded
  split at decoded
  · obtain rfl := Option.some.inj decoded
    exact List.toList_data_toByteArray
  · cases decoded

private theorem shortens_varString : Shortens decodeVarString encodeVarString := by
  intro input value left decoded
  obtain ⟨encoded, between, first, decoded⟩ := decoder_bind_ok decoded
  cases text : decodeText encoded with
  | none =>
      rw [text] at decoded
      cases decoded
  | some string =>
      rw [text] at decoded
      obtain ⟨rfl, rfl⟩ := Prod.mk.inj (Except.ok.inj decoded)
      unfold encodeVarString
      rw [encodeText_of_decodeText text]
      exact shortens_varBytes _ _ _ first

/-- What a message that has ended has read. -/
theorem ensureFinished_ok {α : Type} {rest : Unit → Decoder String α} {input left : List UInt8}
    {value : α} (decoded : (ensureFinished >>= rest) input = .ok (value, left)) :
    input = [] ∧ rest () [] = .ok (value, left) := by
  cases input with
  | nil => exact ⟨rfl, decoded⟩
  | cons byte input => cases decoded

section Messages

variable {wire : Wire P}

private theorem shortens_awarenessEntry :
    Shortens wire.decodeAwarenessEntry encodeAwarenessEntry := by
  intro input entry left decoded
  obtain ⟨clientId, afterClient, first, decoded⟩ := decoder_bind_ok decoded
  obtain ⟨clock, afterClock, second, decoded⟩ := decoder_bind_ok decoded
  obtain ⟨encodedState, afterState, third, decoded⟩ := decoder_bind_ok decoded
  cases loaded : wire.loads encodedState with
  | none =>
      rw [loaded] at decoded
      cases decoded
  | some state =>
      rw [loaded] at decoded
      obtain ⟨rfl, rfl⟩ := Prod.mk.inj (Except.ok.inj decoded)
      obtain ⟨idBytes, encodedId, shortId⟩ := shortens_varUint _ _ _ first
      obtain ⟨clockBytes, encodedClock, shortClock⟩ := shortens_varUint _ _ _ second
      obtain ⟨stateBytes, encodedText, shortState⟩ := shortens_varString _ _ _ third
      refine ⟨idBytes ++ clockBytes ++ stateBytes, ?_, ?_⟩
      · unfold encodeAwarenessEntry
        rw [encodedId, encodedClock, encodedText]
        rfl
      · rw [List.length_append, List.length_append]
        omega

/-- The entries of a message carry the states that their texts parse to. -/
theorem awarenessEntry_parsed {input left : List UInt8} {entry : AwarenessEntry P}
    (decoded : wire.decodeAwarenessEntry input = .ok (entry, left)) :
    wire.loads entry.encodedState = some entry.state := by
  obtain ⟨clientId, afterClient, _, decoded⟩ := decoder_bind_ok decoded
  obtain ⟨clock, afterClock, _, decoded⟩ := decoder_bind_ok decoded
  obtain ⟨encodedState, afterState, _, decoded⟩ := decoder_bind_ok decoded
  cases loaded : wire.loads encodedState with
  | none =>
      rw [loaded] at decoded
      cases decoded
  | some state =>
      rw [loaded] at decoded
      obtain ⟨rfl, rfl⟩ := Prod.mk.inj (Except.ok.inj decoded)
      exact loaded

/-- Every value of a counted loop was read by its decoder. -/
theorem decodeMany_forall {α : Type} {decoder : Decoder String α} {holds : α → Prop}
    (each : ∀ input value left, decoder input = .ok (value, left) → holds value) :
    ∀ count input values left, decodeMany decoder count input = .ok (values, left) →
      ∀ value ∈ values, holds value := by
  intro count
  induction count with
  | zero =>
      intro input values left decoded value member
      obtain ⟨rfl, rfl⟩ := Prod.mk.inj (Except.ok.inj decoded)
      cases member
  | succ count inductionHypothesis =>
      intro input values left decoded value member
      obtain ⟨first, between, head, decoded⟩ := decoder_bind_ok decoded
      obtain ⟨rest, after, tail, decoded⟩ := decoder_bind_ok decoded
      obtain ⟨rfl, rfl⟩ := Prod.mk.inj (Except.ok.inj decoded)
      rcases List.mem_cons.mp member with rfl | later
      · exact each _ _ _ head
      · exact inductionHypothesis _ _ _ tail value later

/-- What `_decode_awareness_entries` has accepted. -/
theorem awarenessEntries_ok {payload left : List UInt8} {entries : List (AwarenessEntry P)}
    (decoded : wire.decodeAwarenessEntries payload = .ok (entries, left)) :
    entries.length ≤ maxAwarenessEntries ∧
      (∀ entry ∈ entries, wire.loads entry.encodedState = some entry.state) ∧
        ∃ bytes, encodeAwarenessEntries entries = .ok bytes ∧ bytes.length ≤ payload.length := by
  obtain ⟨count, between, first, decoded⟩ := decoder_bind_ok decoded
  split at decoded
  · cases decoded
  · next few =>
      obtain ⟨values, after, many, decoded⟩ := decoder_bind_ok decoded
      obtain ⟨rfl, decoded⟩ := ensureFinished_ok decoded
      obtain ⟨rfl, rfl⟩ := Prod.mk.inj (Except.ok.inj decoded)
      obtain ⟨header, encodedCount, shortCount⟩ := shortens_varUint _ _ _ first
      obtain ⟨counted, parts, encodedParts, shortParts⟩ :=
        shortens_awarenessEntry.decodeMany count between values [] many
      refine ⟨counted ▸ Nat.le_of_not_lt few, ?_, header ++ parts.flatten, ?_, ?_⟩
      · exact decodeMany_forall (fun _ _ _ => awarenessEntry_parsed) count between values [] many
      · unfold encodeAwarenessEntries
        rw [counted, encodedCount, encodedParts]
        rfl
      · rw [List.length_append]
        rw [List.length_nil] at shortParts
        omega

end Messages

/-- The encoder of a message: `encode_sync_message`, `encode_awareness_message` or
`encode_permission_denied`. An awareness query has none. -/
def Frame.encode : Frame P → Option (Except String (List UInt8))
  | .sync subtype payload => some (encodeSyncMessage subtype payload)
  | .awareness entries => some (encodeAwarenessMessage entries)
  | .awarenessQuery => none
  | .auth reason => some (encodePermissionDenied reason)

section Messages

variable {wire : Wire P} {raises : String → LoadsExn}

/-- A small number takes one byte, and whatever was read took at least one. -/
theorem encodeVarUint_small {value read : Nat} {input between : List UInt8} (small : value ≤ 0x7F)
    (decoded : decodeVarUint input = .ok (read, between)) :
    ∃ header, encodeVarUint value = .ok header ∧ header.length + between.length ≤ input.length := by
  obtain ⟨number, count, _, _, positive, length, _⟩ :=
    varUintLoop_digits input 0 1 0 read between decoded
  refine ⟨_, encodeVarUint_of_le small, ?_⟩
  rw [List.length_singleton]
  omega

/-- Shorter bytes have a shorter encoding. -/
theorem encodeVarBytes_mono {value other bytes : List UInt8} (shorter : value.length ≤ other.length)
    (encoded : encodeVarBytes other = .ok bytes) :
    ∃ again, encodeVarBytes value = .ok again ∧ again.length ≤ bytes.length := by
  obtain ⟨header, encodedLength, joined⟩ := bind_eq_ok encoded
  obtain rfl := Except.ok.inj joined
  unfold encodeVarUint at encodedLength
  split at encodedLength
  · cases encodedLength
  · next safe =>
      obtain rfl := Except.ok.inj encodedLength
      have bound : ¬value.length > maxSafeInteger := by omega
      refine ⟨digits128 value.length ++ value, ?_, ?_⟩
      · unfold encodeVarBytes encodeVarUint
        rw [if_neg bound]
        rfl
      · have digits := length_digits128_mono shorter
        rw [List.length_append, List.length_append]
        omega

/-- What `parse_message` has read: the message has a shorter encoding, and the
entries of an awareness message carry the states that their texts parse to. -/
structure Accepted (wire : Wire P) (input : List UInt8) (message : Frame P) : Prop where
  shorter : message ≠ .awarenessQuery →
    ∃ again, message.encode = some (.ok again) ∧ again.length ≤ input.length
  entries : ∀ entries, message = .awareness entries → entries.length ≤ maxAwarenessEntries ∧
    ∀ entry ∈ entries, wire.loads entry.encodedState = some entry.state

private theorem sync_accepted {input between left : List UInt8} {read : Nat} {message : Frame P}
    (first : decodeVarUint input = .ok (read, between))
    (decoded : Wire.decodeSync between = .ok (message, left)) : Accepted wire input message := by
  obtain ⟨code, afterCode, second, decoded⟩ := decoder_bind_ok decoded
  cases found : syncSubtype code with
  | none =>
      rw [found] at decoded
      cases decoded
  | some subtype =>
      rw [found] at decoded
      obtain ⟨payload, afterPayload, third, decoded⟩ := decoder_bind_ok decoded
      obtain ⟨rfl, decoded⟩ := ensureFinished_ok decoded
      obtain ⟨rfl, rfl⟩ := Prod.mk.inj (Except.ok.inj decoded)
      refine ⟨fun _ => ?_, nofun⟩
      have small : syncCode subtype ≤ 0x7F := by cases subtype <;> decide
      obtain ⟨header, encodedHeader, shortHeader⟩ :=
        encodeVarUint_small (by decide : messageSync ≤ 0x7F) first
      obtain ⟨codeBytes, encodedCode, shortCode⟩ := encodeVarUint_small small second
      obtain ⟨body, encodedBody, shortBody⟩ := shortens_varBytes _ _ _ third
      refine ⟨header ++ codeBytes ++ body, ?_, ?_⟩
      · rw [Frame.encode, encodeSyncMessage, encodedHeader, encodedCode, encodedBody]
        rfl
      · rw [List.length_append, List.length_append]
        rw [List.length_nil] at shortBody
        omega

private theorem awareness_accepted {input between left : List UInt8} {read : Nat}
    {message : Frame P}
    (first : decodeVarUint input = .ok (read, between))
    (decoded : wire.decodeAwareness between = .ok (message, left)) :
    Accepted wire input message := by
  obtain ⟨payload, afterPayload, second, decoded⟩ := decoder_bind_ok decoded
  obtain ⟨rfl, decoded⟩ := ensureFinished_ok decoded
  cases inner : wire.decodeAwarenessEntries payload with
  | error error =>
      rw [inner] at decoded
      cases decoded
  | ok answer =>
      obtain ⟨entries, rest⟩ := answer
      rw [inner] at decoded
      obtain ⟨rfl, rfl⟩ := Prod.mk.inj (Except.ok.inj decoded)
      obtain ⟨few, parsed, bytes, encodedEntries, shorter⟩ := awarenessEntries_ok inner
      constructor
      · intro _
        obtain ⟨header, encodedHeader, shortHeader⟩ :=
          encodeVarUint_small (by decide : messageAwareness ≤ 0x7F) first
        obtain ⟨body, encodedBody, shortBody⟩ := shortens_varBytes _ _ _ second
        obtain ⟨again, encodedAgain, shortAgain⟩ := encodeVarBytes_mono shorter encodedBody
        refine ⟨header ++ again, ?_, ?_⟩
        · rw [Frame.encode,
            encodeAwarenessMessage_of_parts encodedEntries encodedHeader encodedAgain]
        · rw [List.length_append]
          rw [List.length_nil] at shortBody
          omega
      · intro others same
        obtain rfl := Frame.awareness.inj same
        exact ⟨few, parsed⟩

private theorem auth_accepted {input between left : List UInt8} {read : Nat} {message : Frame P}
    (first : decodeVarUint input = .ok (read, between))
    (decoded : Wire.decodeAuth between = .ok (message, left)) : Accepted wire input message := by
  obtain ⟨code, afterCode, second, decoded⟩ := decoder_bind_ok decoded
  split at decoded
  · cases decoded
  · obtain ⟨reason, afterReason, third, decoded⟩ := decoder_bind_ok decoded
    obtain ⟨rfl, decoded⟩ := ensureFinished_ok decoded
    obtain ⟨rfl, rfl⟩ := Prod.mk.inj (Except.ok.inj decoded)
    refine ⟨fun _ => ?_, nofun⟩
    obtain ⟨header, encodedHeader, shortHeader⟩ :=
      encodeVarUint_small (by decide : messageAuth ≤ 0x7F) first
    obtain ⟨codeBytes, encodedCode, shortCode⟩ :=
      encodeVarUint_small (by decide : authPermissionDenied ≤ 0x7F) second
    obtain ⟨body, encodedBody, shortBody⟩ := shortens_varString _ _ _ third
    refine ⟨header ++ codeBytes ++ body, ?_, ?_⟩
    · rw [Frame.encode, encodePermissionDenied, encodedHeader, encodedCode, encodedBody]
      rfl
    · rw [List.length_append, List.length_append]
      rw [List.length_nil] at shortBody
      omega

theorem decodeFrame_accepted {frame left : List UInt8} {message : Frame P}
    (decoded : wire.decodeFrame frame = .ok (message, left)) : Accepted wire frame message := by
  obtain ⟨messageType, between, first, decoded⟩ := decoder_bind_ok decoded
  split at decoded
  · exact sync_accepted first decoded
  · split at decoded
    · exact awareness_accepted first decoded
    · split at decoded
      · obtain ⟨rfl, decoded⟩ := ensureFinished_ok decoded
        obtain ⟨rfl, rfl⟩ := Prod.mk.inj (Except.ok.inj decoded)
        exact ⟨fun named => absurd rfl named, nofun⟩
      · split at decoded
        · exact auth_accepted first decoded
        · cases decoded

/-- An accepted frame is within the size limit, and its decoder has read it. -/
theorem decodeFrame_of_parseFrame {frame : List UInt8} {message : Frame P}
    (parsed : wire.parseFrame raises frame = .ok message) :
    ∃ left, wire.decodeFrame frame = .ok (message, left) ∧ frame.length ≤ maxMessageSize := by
  rw [parseFrame_eq] at parsed
  split at parsed
  · cases parsed
  · split at parsed
    · cases parsed
    · next small =>
        cases decoded : wire.decodeFrame frame with
        | error error =>
            rw [decoded] at parsed
            cases parsed
        | ok answer =>
            rw [decoded] at parsed
            obtain rfl := Except.ok.inj parsed
            exact ⟨answer.2, rfl, Nat.le_of_not_lt small⟩

private theorem protocolError_of_parseFrame {frame : List UInt8} {exn : ParseExn}
    (failed : wire.parseFrame raises frame = .error exn) : ∃ error, exn = .protocolError error := by
  rw [parseFrame_eq] at failed
  split at failed
  · exact ⟨_, (Except.error.inj failed).symm⟩
  · split at failed
    · exact ⟨_, (Except.error.inj failed).symm⟩
    · split at failed
      · cases failed
      · exact ⟨_, (Except.error.inj failed).symm⟩

/-- Parsing a sync message again. -/
theorem decodeFrame_sync {subtype : SyncSubtype} {payload frame : List UInt8}
    (encoded : (Frame.sync subtype payload : Frame P).encode = some (.ok frame)) :
    wire.decodeFrame frame = .ok (.sync subtype payload, []) ∧ frame ≠ [] := by
  obtain ⟨header, encodedHeader, encoded⟩ := bind_eq_ok (Option.some.inj encoded)
  obtain ⟨code, encodedCode, encoded⟩ := bind_eq_ok encoded
  obtain ⟨body, encodedBody, encoded⟩ := bind_eq_ok encoded
  obtain rfl := Except.ok.inj encoded
  rw [List.append_assoc]
  refine ⟨?_, ne_nil_of_header encodedHeader⟩
  unfold Wire.decodeFrame
  rw [(reads_varUint encodedHeader).step, if_pos rfl]
  unfold Wire.decodeSync
  rw [(reads_varUint encodedCode).step, syncSubtype_syncCode]
  dsimp only
  rw [reads_varBytes_end encodedBody, ensureFinished_step]
  rfl

/-- A message that the parser over the platform reads is read by the source. -/
theorem parseFrame_of_parseMessage {frame : List UInt8} {message : ParsedMessage P}
    (parsed : wire.parseMessage frame = .ok message) :
    ∃ read, wire.parseFrame raises frame = .ok read ∧ read.message wire = message := by
  have same := parseMessage_eq_parseFrame wire raises frame
  rw [parsed] at same
  cases answer : wire.parseFrame raises frame with
  | error exn =>
      rw [answer] at same
      cases same
  | ok read =>
      rw [answer] at same
      exact ⟨read, rfl, (Except.ok.inj same).symm⟩

/-- Parsing any message again. -/
theorem parseFrame_encode {input again : List UInt8} {message : Frame P}
    (accepted : Accepted wire input message) (encoded : message.encode = some (.ok again))
    (small : again.length ≤ maxMessageSize) : wire.parseFrame raises again = .ok message := by
  cases message with
  | sync subtype payload =>
      obtain ⟨decoded, nonempty⟩ := @decodeFrame_sync _ wire _ _ _ encoded
      rw [parseFrame_eq, if_neg (by simpa using nonempty), if_neg (Nat.not_lt_of_le small), decoded]
  | awareness entries =>
      obtain ⟨few, parsed⟩ := accepted.entries entries rfl
      obtain ⟨read, answer, same⟩ := @parseFrame_of_parseMessage _ _ raises _ _
        (parseMessage_awareness few parsed (Option.some.inj encoded) small)
      cases read with
      | awareness others =>
          obtain rfl := ParsedMessage.awareness.inj same
          exact answer
      | sync _ _ => cases same
      | awarenessQuery => cases same
      | auth _ => cases same
  | awarenessQuery => cases encoded
  | auth reason =>
      obtain ⟨read, answer, same⟩ := @parseFrame_of_parseMessage _ _ raises _ _
        (@parseMessage_auth _ wire _ _ (Option.some.inj encoded) small)
      cases read with
      | auth other =>
          obtain rfl := ParsedMessage.auth.inj same
          exact answer
      | sync _ _ => cases same
      | awareness _ => cases same
      | awarenessQuery => cases same

/-- **`parse_message` is strict, total and normalizing.** It raises `ProtocolError` or
returns a message; then no shorter and no longer frame with the same beginning is
accepted, and encoding the message again, where it is no awareness query, gives a frame
that is no longer and that it maps to the message. -/
theorem parseFrame_strict (wire : Wire P) (raises : String → LoadsExn) (frame : List UInt8) :
    (∃ error, wire.parseFrame raises frame = .error (.protocolError error)) ∨
      ∃ message, wire.parseFrame raises frame = .ok message ∧
        (∀ initial rest, initial ++ rest = frame → rest ≠ [] →
          ∀ other, wire.parseFrame raises initial ≠ .ok other) ∧
        (∀ tail, tail ≠ [] → ∀ other, wire.parseFrame raises (frame ++ tail) ≠ .ok other) ∧
        (message ≠ .awarenessQuery → ∃ again, message.encode = some (.ok again) ∧
          again.length ≤ frame.length ∧ wire.parseFrame raises again = .ok message) := by
  -- No accepted frame has an accepted extension.
  have refused : ∀ input message, wire.parseFrame raises input = .ok message →
      ∀ tail, tail ≠ [] → ∀ other, wire.parseFrame raises (input ++ tail) ≠ .ok other := by
    intro input message parsed tail nonempty other longer
    obtain ⟨left, decoded, -⟩ := decodeFrame_of_parseFrame parsed
    obtain ⟨left', decoded', -⟩ := decodeFrame_of_parseFrame longer
    exact (complete_frame wire input message left decoded).2 tail nonempty _ decoded'
  cases parsed : wire.parseFrame raises frame with
  | error exn =>
      obtain ⟨error, rfl⟩ := protocolError_of_parseFrame parsed
      exact .inl ⟨error, rfl⟩
  | ok message =>
      refine .inr ⟨message, rfl, ?_, refused frame message parsed, ?_⟩
      · rintro initial rest rfl nonempty other shorter
        exact refused initial other shorter rest nonempty message parsed
      · intro encodable
        obtain ⟨left, decoded, small⟩ := decodeFrame_of_parseFrame parsed
        have accepted := decodeFrame_accepted decoded
        obtain ⟨again, encoded, shorter⟩ := accepted.shorter encodable
        exact ⟨again, encoded, shorter, parseFrame_encode accepted encoded (shorter.trans small)⟩

end Messages

end Concord.Collaboration

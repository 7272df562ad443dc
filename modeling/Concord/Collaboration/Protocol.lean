import Concord.Binary.Decoder
import Concord.Platform
import Mathlib.Logic.Equiv.Finset

/-!
Contract: the codec of the y-websocket frames.

Owns:
- the variable-length integers, byte strings and text of lib0;
- `parseMessage` with its errors, and the encoders;
- the round trip of every message that has an encoder.

A decoder keeps the bytes that are left instead of an offset into the frame. The
JSON parser is a parameter, and UTF-8 is that of the library.

Does not own: the frames that only the server sends.
-/

set_option autoImplicit false

namespace Concord.Collaboration

open Binary

/-- The bytes of a platform, and its strict `json.loads`: none where it raises,
`some none` for `null`. -/
structure Wire (P : Platform) where
  ofBytes : List UInt8 → P.Bytes
  toBytes : P.Bytes → List UInt8
  loads : String → Option (Option P.Json)
  ofBytes_toBytes : ∀ bytes, ofBytes (toBytes bytes) = bytes

variable {P : Platform}

def messageSync : Nat := 0

def messageAwareness : Nat := 1

def messageAuth : Nat := 2

def messageQueryAwareness : Nat := 3

def authPermissionDenied : Nat := 0

def maxSafeInteger : Nat := 2 ^ 53 - 1

def maxMessageSize : Nat := 16 * 1024 * 1024

def maxAwarenessEntries : Nat := 10000

/-- `SYNC_STEP1`, `SYNC_STEP2` and `SYNC_UPDATE`. -/
def syncCode : SyncSubtype → Nat
  | .step1 => 0
  | .step2 => 1
  | .update => 2

def syncSubtype : Nat → Option SyncSubtype
  | 0 => some .step1
  | 1 => some .step2
  | 2 => some .update
  | _ => none

theorem syncSubtype_syncCode (subtype : SyncSubtype) : syncSubtype (syncCode subtype) = some subtype := by
  cases subtype <;> rfl

/-! ### Integers, byte strings and text -/

def encodeVarUint (value : Nat) : Except String (List UInt8) :=
  if value > maxSafeInteger then .error "varUint value is outside the JavaScript-safe range"
  else .ok (digits128 value)

def decodeVarUintLoop : List UInt8 → (value multiplier bytesRead : Nat) →
    Except String (Nat × List UInt8)
  | [], _, _, _ => .error "truncated varUint"
  | byte :: rest, value, multiplier, bytesRead =>
      if bytesRead + 1 > 8 then .error "varUint uses more than 8 bytes"
      else if value + (byte &&& 0x7F).toNat * multiplier > maxSafeInteger then
        .error "varUint exceeds the JavaScript-safe range"
      else if byte < 0x80 then .ok (value + (byte &&& 0x7F).toNat * multiplier, rest)
      else decodeVarUintLoop rest (value + (byte &&& 0x7F).toNat * multiplier) (multiplier * 128)
        (bytesRead + 1)

def decodeVarUint : Decoder String Nat := fun input => decodeVarUintLoop input 0 1 0

def encodeVarBytes (value : List UInt8) : Except String (List UInt8) := do
  pure ((← encodeVarUint value.length) ++ value)

def decodeVarBytes : Decoder String (List UInt8) := do
  let length ← decodeVarUint
  let input ← get
  if length > input.length then throw "length-prefixed payload exceeds the frame"
  else
    set (input.drop length)
    pure (input.take length)

/-- `str.encode("utf-8")`. -/
def encodeText (value : String) : List UInt8 := value.toByteArray.data.toList

/-- `bytes.decode("utf-8")`. -/
def decodeText (bytes : List UInt8) : Option String := String.fromUTF8? bytes.toByteArray

def encodeVarString (value : String) : Except String (List UInt8) := encodeVarBytes (encodeText value)

def decodeVarString : Decoder String String := do
  match decodeText (← decodeVarBytes) with
  | none => throw "string payload is not valid UTF-8"
  | some text => pure text

def ensureFinished : Decoder String Unit := do
  if (← get).isEmpty then pure () else throw "unexpected trailing bytes"

/-! ### Messages -/

namespace Wire

variable (wire : Wire P)

/-- One turn of the loop of `_decode_awareness_entries`. -/
def decodeAwarenessEntry : Decoder String (AwarenessEntry P) := do
  let clientId ← decodeVarUint
  let clock ← decodeVarUint
  let encodedState ← decodeVarString
  match wire.loads encodedState with
  | none => throw "awareness state is not valid JSON"
  | some state => pure ⟨clientId, clock, state, encodedState⟩

def decodeAwarenessEntries : Decoder String (List (AwarenessEntry P)) := do
  let count ← decodeVarUint
  if count > maxAwarenessEntries then throw "awareness update contains too many entries"
  else
    let entries ← decodeMany wire.decodeAwarenessEntry count
    ensureFinished
    pure entries

/-- `parse_message`, after the checks on the size of the frame. -/
def decodeMessage : Decoder String (ParsedMessage P) := do
  let messageType ← decodeVarUint
  if messageType = messageSync then
    let subtype ← decodeVarUint
    match syncSubtype subtype with
    | none => throw ("unknown Yjs sync subtype: " ++ toString subtype)
    | some subtype =>
        let payload ← decodeVarBytes
        ensureFinished
        pure (.sync subtype (wire.ofBytes payload))
  else if messageType = messageAwareness then
    let payload ← decodeVarBytes
    ensureFinished
    match wire.decodeAwarenessEntries payload with
    | .error error => throw error
    | .ok (entries, _) => pure (.awareness entries)
  else if messageType = messageQueryAwareness then
    ensureFinished
    pure .awarenessQuery
  else if messageType = messageAuth then
    let subtype ← decodeVarUint
    if subtype ≠ authPermissionDenied then throw ("unknown auth subtype: " ++ toString subtype)
    else
      let reason ← decodeVarString
      ensureFinished
      pure (.auth reason)
  else throw ("unknown y-websocket message type: " ++ toString messageType)

def parseMessage (frame : List UInt8) : Except String (ParsedMessage P) :=
  if frame.isEmpty then .error "empty WebSocket frame"
  else if frame.length > maxMessageSize then .error "WebSocket frame exceeds the size limit"
  else (wire.decodeMessage frame).map (·.1)

end Wire

def encodeSyncMessage (subtype : SyncSubtype) (payload : List UInt8) : Except String (List UInt8) := do
  let header ← encodeVarUint messageSync
  let code ← encodeVarUint (syncCode subtype)
  let body ← encodeVarBytes payload
  pure (header ++ code ++ body)

/-- `encode_sync_message` of the bytes of a platform. -/
def Wire.encodeSyncMessage (wire : Wire P) (subtype : SyncSubtype) (payload : P.Bytes) :
    Except String (List UInt8) :=
  Collaboration.encodeSyncMessage subtype (wire.toBytes payload)

/-- One turn of the loop of `encode_awareness_message`. -/
def encodeAwarenessEntry (entry : AwarenessEntry P) : Except String (List UInt8) := do
  let clientId ← encodeVarUint entry.clientId
  let clock ← encodeVarUint entry.clock
  let state ← encodeVarString entry.encodedState
  pure (clientId ++ clock ++ state)

/-- The payload of `encode_awareness_message`. -/
def encodeAwarenessEntries (entries : List (AwarenessEntry P)) : Except String (List UInt8) := do
  let count ← encodeVarUint entries.length
  let parts ← entries.mapM encodeAwarenessEntry
  pure (count ++ parts.flatten)

def encodeAwarenessMessage (entries : List (AwarenessEntry P)) : Except String (List UInt8) := do
  let payload ← encodeAwarenessEntries entries
  let header ← encodeVarUint messageAwareness
  let body ← encodeVarBytes payload
  pure (header ++ body)

def encodePermissionDenied (reason : String) : Except String (List UInt8) := do
  let header ← encodeVarUint messageAuth
  let subtype ← encodeVarUint authPermissionDenied
  let body ← encodeVarString reason
  pure (header ++ subtype ++ body)

/-! ### The round trip of integers, byte strings and text -/

private theorem toNat_low7 (value : Nat) (small : value < 256) :
    (UInt8.ofNat value &&& 0x7F).toNat = value % 128 := by
  rw [UInt8.toNat_and, toNat_ofNat_of_lt small]
  exact Nat.and_two_pow_sub_one_eq_mod value 7

private theorem ofNat_lt_0x80 (value : Nat) (small : value < 256) :
    UInt8.ofNat value < 0x80 ↔ value < 128 := by
  rw [UInt8.lt_iff_toNat_lt, toNat_ofNat_of_lt small]
  rfl

/-- The loop adds the value of the digits, in their place. -/
theorem decodeVarUintLoop_digits128 (value : Nat) :
    ∀ (start multiplier bytesRead : Nat) (rest : List UInt8),
      start + value * multiplier ≤ maxSafeInteger → bytesRead + (digits128 value).length ≤ 8 →
        decodeVarUintLoop (digits128 value ++ rest) start multiplier bytesRead =
          .ok (start + value * multiplier, rest) := by
  induction value using digits128.induct with
  | case1 value large inductionHypothesis =>
      intro start multiplier bytesRead rest bound count
      have split : value % 128 * multiplier + value / 128 * (multiplier * 128) = value * multiplier := by
        conv => rhs; rw [← Nat.mod_add_div value 128]
        ring
      have low : value % 128 + 128 < 256 := by omega
      rw [digits128_of_gt large] at count ⊢
      rw [List.length_cons] at count
      have more : ¬UInt8.ofNat (value % 128 + 128) < 0x80 := by
        rw [ofNat_lt_0x80 _ low]
        omega
      have digit : (value % 128 + 128) % 128 = value % 128 := by omega
      rw [List.cons_append, decodeVarUintLoop, toNat_low7 _ low, digit, if_neg (by omega),
        if_neg (by omega), if_neg more]
      rw [inductionHypothesis _ _ _ _ (by omega) (by omega)]
      congr 2
      omega
  | case2 value small =>
      intro start multiplier bytesRead rest bound count
      have low : value < 256 := by omega
      rw [digits128_of_le (Nat.le_of_not_lt small)] at count ⊢
      rw [List.length_singleton] at count
      have last : UInt8.ofNat value < 0x80 := by
        rw [ofNat_lt_0x80 _ low]
        omega
      have digit : value % 128 = value := by omega
      rw [List.singleton_append, decodeVarUintLoop, toNat_low7 _ low, digit, if_neg (by omega),
        if_neg (by omega), if_pos last]

theorem reads_varUint {value : Nat} {bytes : List UInt8} (encoded : encodeVarUint value = .ok bytes) :
    Reads decodeVarUint bytes value := by
  unfold encodeVarUint at encoded
  split at encoded
  · cases encoded
  · next large =>
      obtain rfl := Except.ok.inj encoded
      intro rest
      have bound : value ≤ maxSafeInteger := Nat.le_of_not_lt large
      have small : value < 128 ^ 8 := Nat.lt_of_le_of_lt bound (by decide)
      have count := length_digits128_le (by decide) small
      have loop := decodeVarUintLoop_digits128 value 0 1 0 rest (by omega) (by omega)
      rw [Nat.zero_add, Nat.mul_one] at loop
      exact loop

theorem encodeVarUint_of_le {value : Nat} (small : value ≤ 0x7F) :
    encodeVarUint value = .ok [UInt8.ofNat value] := by
  have bound : ¬value > maxSafeInteger := by
    have large : (0x7F : Nat) ≤ maxSafeInteger := by decide
    omega
  rw [encodeVarUint, if_neg bound, digits128_of_le small]

/-- What a sequence of encoders has encoded. -/
theorem bind_eq_ok {ε α β : Type} {first : Except ε α} {rest : α → Except ε β} {value : β}
    (encoded : (first >>= rest) = .ok value) :
    ∃ middle, first = .ok middle ∧ rest middle = .ok value := by
  cases first with
  | error error => cases encoded
  | ok middle => exact ⟨middle, rfl, encoded⟩

private theorem reads_varBytes {value bytes : List UInt8}
    (encoded : encodeVarBytes value = .ok bytes) :
    Reads decodeVarBytes bytes value := by
  obtain ⟨length, header, body⟩ := bind_eq_ok encoded
  obtain rfl := Except.ok.inj body
  unfold decodeVarBytes
  refine (reads_varUint header).bind fun rest => ?_
  have long : ¬value.length > (value ++ rest).length := by simp
  change (if value.length > (value ++ rest).length then _ else _ : Decoder String (List UInt8))
    (value ++ rest) = _
  rw [if_neg long]
  change Except.ok ((value ++ rest).take value.length, (value ++ rest).drop value.length) = _
  rw [List.take_left, List.drop_left]

private theorem decodeText_encodeText (value : String) :
    decodeText (encodeText value) = some value := by
  have bytes : (encodeText value).toByteArray = value.toByteArray := by
    apply ByteArray.ext
    apply Array.toList_inj.mp
    exact List.toList_data_toByteArray
  unfold decodeText
  rw [bytes, String.fromUTF8?, dif_pos value.isValidUTF8]
  rfl

theorem reads_varString {value : String} {bytes : List UInt8}
    (encoded : encodeVarString value = .ok bytes) : Reads decodeVarString bytes value := by
  unfold decodeVarString
  rw [← List.append_nil bytes]
  refine (reads_varBytes encoded).bind ?_
  rw [decodeText_encodeText]
  exact .pure value

/-- The end of a message is reached where nothing is left. -/
theorem ensureFinished_step {α : Type} (rest : Unit → Decoder String α) :
    (ensureFinished >>= rest) [] = rest () [] := rfl

theorem reads_varBytes_end {α : Type} {value bytes : List UInt8}
    (encoded : encodeVarBytes value = .ok bytes) (rest : List UInt8 → Decoder String α) :
    (decodeVarBytes >>= rest) bytes = rest value [] := by
  have step := (reads_varBytes encoded).step rest []
  rw [List.append_nil] at step
  exact step

private theorem reads_varString_end {α : Type} {value : String} {bytes : List UInt8}
    (encoded : encodeVarString value = .ok bytes) (rest : String → Decoder String α) :
    (decodeVarString >>= rest) bytes = rest value [] := by
  have step := (reads_varString encoded).step rest []
  rw [List.append_nil] at step
  exact step

/-! ### The round trip of messages -/

/-- The frame is what the encoder of the message returns. The entries of an
awareness message carry the state that their text parses to. -/
inductive Wire.Encodes (wire : Wire P) : ParsedMessage P → List UInt8 → Prop where
  | sync {subtype payload frame} (encoded : wire.encodeSyncMessage subtype payload = .ok frame) :
      Encodes wire (.sync subtype payload) frame
  | awareness {entries frame} (few : entries.length ≤ maxAwarenessEntries)
      (parsed : ∀ entry ∈ entries, wire.loads entry.encodedState = some entry.state)
      (encoded : encodeAwarenessMessage entries = .ok frame) :
      Encodes wire (.awareness entries) frame
  | auth {reason frame} (encoded : encodePermissionDenied reason = .ok frame) :
      Encodes wire (.auth reason) frame

/-- An entry whose numbers and text fit into a frame, with the state of its text. -/
structure Wire.EntryInRange (wire : Wire P) (entry : AwarenessEntry P) : Prop where
  clientId : entry.clientId ≤ maxSafeInteger
  clock : entry.clock ≤ maxSafeInteger
  length : (encodeText entry.encodedState).length ≤ maxMessageSize
  parsed : wire.loads entry.encodedState = some entry.state

/-- The messages whose numbers and lengths the variable-length integers can hold. -/
def Wire.InRange (wire : Wire P) : ParsedMessage P → Prop
  | .sync _ payload => (wire.toBytes payload).length ≤ maxSafeInteger
  | .awareness entries =>
      entries.length ≤ maxAwarenessEntries ∧ ∀ entry ∈ entries, wire.EntryInRange entry
  | .awarenessQuery => False
  | .auth reason => (encodeText reason).length ≤ maxSafeInteger

section Messages

variable {wire : Wire P}

/-- What a loop of encoders has encoded, element by element. -/
theorem forall₂_of_mapM {α β : Type} {encode : α → Except String β} {values : List α} {parts : List β}
    (encoded : values.mapM encode = .ok parts) :
    List.Forall₂ (fun value part => encode value = .ok part) values parts := by
  induction values generalizing parts with
  | nil =>
      obtain rfl := Except.ok.inj encoded
      exact .nil
  | cons value rest inductionHypothesis =>
      rw [List.mapM_cons] at encoded
      obtain ⟨part, head, encoded⟩ := bind_eq_ok encoded
      obtain ⟨others, tail, encoded⟩ := bind_eq_ok encoded
      obtain rfl := Except.ok.inj encoded
      exact .cons head (inductionHypothesis tail)

private theorem reads_awarenessEntry {entry : AwarenessEntry P} {bytes : List UInt8}
    (parsed : wire.loads entry.encodedState = some entry.state)
    (encoded : encodeAwarenessEntry entry = .ok bytes) :
    Reads wire.decodeAwarenessEntry bytes entry := by
  obtain ⟨clientId, encodedClient, encoded⟩ := bind_eq_ok encoded
  obtain ⟨clock, encodedClock, encoded⟩ := bind_eq_ok encoded
  obtain ⟨state, encodedState, encoded⟩ := bind_eq_ok encoded
  obtain rfl := Except.ok.inj encoded
  unfold Wire.decodeAwarenessEntry
  rw [List.append_assoc, ← List.append_nil state]
  refine (reads_varUint encodedClient).bind ((reads_varUint encodedClock).bind
    ((reads_varString encodedState).bind ?_))
  rw [parsed]
  exact .pure entry

private theorem reads_awarenessEntries {entries : List (AwarenessEntry P)} {bytes : List UInt8}
    (few : entries.length ≤ maxAwarenessEntries)
    (parsed : ∀ entry ∈ entries, wire.loads entry.encodedState = some entry.state)
    (encoded : encodeAwarenessEntries entries = .ok bytes) :
    wire.decodeAwarenessEntries bytes = .ok (entries, []) := by
  obtain ⟨count, encodedCount, encoded⟩ := bind_eq_ok encoded
  obtain ⟨parts, encodedParts, encoded⟩ := bind_eq_ok encoded
  obtain rfl := Except.ok.inj encoded
  have loop : Reads (decodeMany wire.decodeAwarenessEntry entries.length) parts.flatten entries := by
    apply reads_decodeMany
    have encodings := forall₂_of_mapM encodedParts
    refine List.forall₂_iff_zip.mpr ⟨encodings.length_eq, fun {entry part} member => ?_⟩
    exact reads_awarenessEntry (parsed entry (List.of_mem_zip member).1)
      ((List.forall₂_iff_zip.mp encodings).2 member)
  unfold Wire.decodeAwarenessEntries
  rw [(reads_varUint encodedCount).step, if_neg (Nat.not_lt_of_le few)]
  have tail := loop.step (fun entries => do ensureFinished; pure entries) []
  rw [List.append_nil] at tail
  exact tail

private theorem parseMessage_of_decode {message : ParsedMessage P} {frame : List UInt8}
    (decoded : wire.decodeMessage frame = .ok (message, [])) (nonempty : frame ≠ [])
    (small : frame.length ≤ maxMessageSize) : wire.parseMessage frame = .ok message := by
  unfold Wire.parseMessage
  rw [if_neg (by simpa using nonempty), if_neg (Nat.not_lt_of_le small), decoded]
  rfl

theorem ne_nil_of_header {value : Nat} {header body : List UInt8}
    (encoded : encodeVarUint value = .ok header) : header ++ body ≠ [] := by
  unfold encodeVarUint at encoded
  split at encoded
  · cases encoded
  · obtain rfl := Except.ok.inj encoded
    exact List.append_ne_nil_of_left_ne_nil (digits128_ne_nil value) body

theorem parseMessage_sync {subtype : SyncSubtype} {payload : P.Bytes} {frame : List UInt8}
    (encoded : wire.encodeSyncMessage subtype payload = .ok frame)
    (small : frame.length ≤ maxMessageSize) :
    wire.parseMessage frame = .ok (.sync subtype payload) := by
  obtain ⟨header, encodedHeader, encoded⟩ := bind_eq_ok encoded
  obtain ⟨code, encodedCode, encoded⟩ := bind_eq_ok encoded
  obtain ⟨body, encodedBody, encoded⟩ := bind_eq_ok encoded
  obtain rfl := Except.ok.inj encoded
  rw [List.append_assoc] at small ⊢
  refine parseMessage_of_decode ?_ (ne_nil_of_header encodedHeader) small
  unfold Wire.decodeMessage
  rw [(reads_varUint encodedHeader).step, if_pos rfl, (reads_varUint encodedCode).step,
    syncSubtype_syncCode]
  dsimp only
  rw [reads_varBytes_end encodedBody, ensureFinished_step, wire.ofBytes_toBytes]
  rfl

theorem parseMessage_awareness {entries : List (AwarenessEntry P)} {frame : List UInt8}
    (few : entries.length ≤ maxAwarenessEntries)
    (parsed : ∀ entry ∈ entries, wire.loads entry.encodedState = some entry.state)
    (encoded : encodeAwarenessMessage entries = .ok frame) (small : frame.length ≤ maxMessageSize) :
    wire.parseMessage frame = .ok (.awareness entries) := by
  obtain ⟨payload, encodedEntries, encoded⟩ := bind_eq_ok encoded
  obtain ⟨header, encodedHeader, encoded⟩ := bind_eq_ok encoded
  obtain ⟨body, encodedBody, encoded⟩ := bind_eq_ok encoded
  obtain rfl := Except.ok.inj encoded
  refine parseMessage_of_decode ?_ (ne_nil_of_header encodedHeader) small
  unfold Wire.decodeMessage
  have other : messageAwareness ≠ messageSync := by decide
  rw [(reads_varUint encodedHeader).step, if_neg other, if_pos rfl,
    reads_varBytes_end encodedBody, ensureFinished_step,
    reads_awarenessEntries few parsed encodedEntries]
  rfl

theorem parseMessage_auth {reason : String} {frame : List UInt8}
    (encoded : encodePermissionDenied reason = .ok frame) (small : frame.length ≤ maxMessageSize) :
    wire.parseMessage frame = .ok (.auth reason) := by
  obtain ⟨header, encodedHeader, encoded⟩ := bind_eq_ok encoded
  obtain ⟨code, encodedCode, encoded⟩ := bind_eq_ok encoded
  obtain ⟨body, encodedBody, encoded⟩ := bind_eq_ok encoded
  obtain rfl := Except.ok.inj encoded
  rw [List.append_assoc] at small ⊢
  refine parseMessage_of_decode ?_ (ne_nil_of_header encodedHeader) small
  unfold Wire.decodeMessage
  have notSync : messageAuth ≠ messageSync := by decide
  have notAwareness : messageAuth ≠ messageAwareness := by decide
  have notQuery : messageAuth ≠ messageQueryAwareness := by decide
  rw [(reads_varUint encodedHeader).step, if_neg notSync, if_neg notAwareness, if_neg notQuery,
    if_pos rfl, (reads_varUint encodedCode).step, if_neg (fun differs => differs rfl),
    reads_varString_end encodedBody, ensureFinished_step]
  rfl

/-! ### Every message in range is encoded -/

private theorem encodeVarUint_bounded {value : Nat} (bound : value ≤ maxSafeInteger) :
    ∃ bytes, encodeVarUint value = .ok bytes ∧ bytes.length ≤ 8 := by
  refine ⟨digits128 value, ?_, ?_⟩
  · rw [encodeVarUint, if_neg (Nat.not_lt_of_le bound)]
  · exact length_digits128_le (by decide) (Nat.lt_of_le_of_lt bound (by decide))

private theorem encodeVarBytes_bounded {value : List UInt8}
    (bound : value.length ≤ maxSafeInteger) :
    ∃ bytes, encodeVarBytes value = .ok bytes ∧ bytes.length ≤ 8 + value.length := by
  obtain ⟨header, encoded, short⟩ := encodeVarUint_bounded bound
  refine ⟨header ++ value, ?_, ?_⟩
  · rw [encodeVarBytes, encoded]
    rfl
  · rw [List.length_append]
    exact Nat.add_le_add_right short _

private theorem encodeAwarenessEntry_bounded {entry : AwarenessEntry P}
    (fits : wire.EntryInRange entry) :
    ∃ bytes, encodeAwarenessEntry entry = .ok bytes ∧ bytes.length ≤ 24 + maxMessageSize := by
  have safe : (encodeText entry.encodedState).length ≤ maxSafeInteger :=
    fits.length.trans (by decide)
  obtain ⟨clientId, encodedClient, shortClient⟩ := encodeVarUint_bounded fits.clientId
  obtain ⟨clock, encodedClock, shortClock⟩ := encodeVarUint_bounded fits.clock
  obtain ⟨state, encodedState, shortState⟩ := encodeVarBytes_bounded safe
  have within := fits.length
  refine ⟨clientId ++ clock ++ state, ?_, ?_⟩
  · rw [encodeAwarenessEntry, encodeVarString, encodedClient, encodedClock, encodedState]
    rfl
  · rw [List.length_append, List.length_append]
    omega

/-- The entries of a message are encoded one by one, each in so many bytes. -/
theorem encodeAwarenessEntries_loop {entries : List (AwarenessEntry P)}
    (fits : ∀ entry ∈ entries, wire.EntryInRange entry) :
    ∃ parts, entries.mapM encodeAwarenessEntry = .ok parts ∧
      parts.flatten.length ≤ entries.length * (24 + maxMessageSize) := by
  induction entries with
  | nil => exact ⟨[], rfl, Nat.zero_le _⟩
  | cons entry rest inductionHypothesis =>
      obtain ⟨part, head, shortHead⟩ := encodeAwarenessEntry_bounded (fits entry List.mem_cons_self)
      obtain ⟨parts, tail, shortTail⟩ :=
        inductionHypothesis fun other later => fits other (List.mem_cons_of_mem _ later)
      refine ⟨part :: parts, ?_, ?_⟩
      · rw [List.mapM_cons, head, tail]
        rfl
      · rw [List.flatten_cons, List.length_append, List.length_cons, Nat.succ_mul]
        omega

/-- The parts of an awareness message. -/
theorem encodeAwarenessMessage_of_parts {entries : List (AwarenessEntry P)}
    {payload header body : List UInt8} (encodedEntries : encodeAwarenessEntries entries = .ok payload)
    (encodedHeader : encodeVarUint messageAwareness = .ok header)
    (encodedBody : encodeVarBytes payload = .ok body) :
    encodeAwarenessMessage entries = .ok (header ++ body) := by
  rw [encodeAwarenessMessage, encodedEntries]
  change (do
    let header ← encodeVarUint messageAwareness
    let body ← encodeVarBytes payload
    pure (header ++ body)) = _
  rw [encodedHeader, encodedBody]
  rfl

private theorem encodeAwarenessMessage_inRange {entries : List (AwarenessEntry P)}
    (few : entries.length ≤ maxAwarenessEntries)
    (fits : ∀ entry ∈ entries, wire.EntryInRange entry) :
    ∃ frame, encodeAwarenessMessage entries = .ok frame := by
  obtain ⟨count, encodedCount, shortCount⟩ := encodeVarUint_bounded (few.trans (by decide))
  obtain ⟨parts, encodedParts, shortParts⟩ := encodeAwarenessEntries_loop fits
  have payload : encodeAwarenessEntries entries = .ok (count ++ parts.flatten) := by
    rw [encodeAwarenessEntries, encodedCount, encodedParts]
    rfl
  have all : entries.length * (24 + maxMessageSize) ≤ maxAwarenessEntries * (24 + maxMessageSize) :=
    Nat.mul_le_mul_right _ few
  -- Ten thousand entries of the largest size stay far below the largest safe integer.
  have room : 8 + maxAwarenessEntries * (24 + maxMessageSize) ≤ maxSafeInteger := by decide
  have bound : (count ++ parts.flatten).length ≤ maxSafeInteger := by
    rw [List.length_append]
    omega
  obtain ⟨header, encodedHeader, _⟩ :=
    encodeVarUint_bounded (by decide : messageAwareness ≤ maxSafeInteger)
  obtain ⟨body, encodedBody, _⟩ := encodeVarBytes_bounded bound
  exact ⟨header ++ body, encodeAwarenessMessage_of_parts payload encodedHeader encodedBody⟩

/-- The encoder of a message in range returns a frame. -/
theorem encodes_of_inRange {message : ParsedMessage P} (fits : wire.InRange message) :
    ∃ frame, wire.Encodes message frame := by
  cases message with
  | sync subtype payload =>
      have code : syncCode subtype ≤ 0x7F := by cases subtype <;> decide
      obtain ⟨body, encodedBody, _⟩ := encodeVarBytes_bounded fits
      refine ⟨[UInt8.ofNat messageSync] ++ [UInt8.ofNat (syncCode subtype)] ++ body, .sync ?_⟩
      rw [Wire.encodeSyncMessage, encodeSyncMessage, encodeVarUint_of_le (by decide),
        encodeVarUint_of_le code, encodedBody]
      rfl
  | awareness entries =>
      obtain ⟨few, each⟩ := fits
      obtain ⟨frame, encoded⟩ := encodeAwarenessMessage_inRange few each
      exact ⟨frame, .awareness few (fun entry member => (each entry member).parsed) encoded⟩
  | awarenessQuery => exact absurd fits id
  | auth reason =>
      obtain ⟨body, encodedBody, _⟩ := encodeVarBytes_bounded fits
      refine ⟨[UInt8.ofNat messageAuth] ++ [UInt8.ofNat authPermissionDenied] ++ body, .auth ?_⟩
      rw [encodePermissionDenied, encodeVarUint_of_le (by decide), encodeVarUint_of_le (by decide),
        encodeVarString, encodedBody]
      rfl

/-- Parsing reads back every message from what its encoder returns, where that is
within the size limit. -/
theorem parseMessage_of_encodes {message : ParsedMessage P} {frame : List UInt8}
    (encodes : wire.Encodes message frame) (small : frame.length ≤ maxMessageSize) :
    wire.parseMessage frame = .ok message := by
  cases encodes with
  | sync encoded => exact parseMessage_sync encoded small
  | awareness few parsed encoded => exact parseMessage_awareness few parsed encoded small
  | auth encoded => exact parseMessage_auth encoded small

end Messages

/-- A wire of the small platform: bytes in unary, and a parser that knows `1` and
`null`. -/
def sampleWire : Wire editLog where
  ofBytes bytes := (Encodable.decode bytes.length).getD none
  toBytes bytes := List.replicate (Encodable.encode bytes) 0
  loads text := if text = "1" then some (some ()) else if text = "null" then some none else none
  ofBytes_toBytes bytes := by simp

theorem parseMessage_of_encodes_each :
    (∃ entry : AwarenessEntry editLog, entry.clock = 300 ∧
      encodeAwarenessMessage [entry] = .ok [1, 6, 1, 7, 172, 2, 1, 49] ∧
        sampleWire.parseMessage [1, 6, 1, 7, 172, 2, 1, 49] = .ok (.awareness [entry])) ∧
      sampleWire.parseMessage [0, 2, 0] = .ok (.sync .update none) ∧
        sampleWire.parseMessage [2, 0, 2, 110, 111] = .ok (.auth "no") := by
  let entry : AwarenessEntry editLog := ⟨7, 300, some (), "1"⟩
  have text : encodeText "1" = [49] := by decide
  have clock : encodeVarUint 300 = .ok [172, 2] := by
    rw [encodeVarUint, if_neg (by decide), digits128_of_gt (by decide), digits128_of_le (by decide)]
    rfl
  have encoded : encodeAwarenessMessage [entry] = .ok [1, 6, 1, 7, 172, 2, 1, 49] := by
    simp [encodeAwarenessMessage, encodeAwarenessEntries, encodeAwarenessEntry, encodeVarString,
      encodeVarBytes, encodeVarUint_of_le, messageAwareness, entry, text, clock, Bind.bind,
      Except.bind, pure, Except.pure]
  have update : sampleWire.encodeSyncMessage .update none = .ok [0, 2, 0] := by
    have bytes : sampleWire.toBytes none = [] := by decide
    simp [Wire.encodeSyncMessage, encodeSyncMessage, bytes, encodeVarBytes, encodeVarUint_of_le,
      messageSync, syncCode, Bind.bind, Except.bind, pure, Except.pure]
  have denied : encodePermissionDenied "no" = .ok [2, 0, 2, 110, 111] := by
    have reason : encodeText "no" = [110, 111] := by decide
    simp [encodePermissionDenied, encodeVarString, encodeVarBytes, encodeVarUint_of_le, messageAuth,
      authPermissionDenied, reason, Bind.bind, Except.bind, pure, Except.pure]
  refine ⟨⟨entry, rfl, encoded,
    parseMessage_of_encodes (.awareness (by decide) ?_ encoded) (by decide)⟩,
    parseMessage_of_encodes (.sync update) (by decide),
    parseMessage_of_encodes (.auth denied) (by decide)⟩
  intro other member
  obtain rfl := List.mem_singleton.mp member
  rfl

end Concord.Collaboration

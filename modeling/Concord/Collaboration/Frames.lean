import Concord.Binary.Readers
import Concord.Collaboration.Protocol

/-!
Contract: `parse_message` with its offsets and its exceptions.

Owns:
- the parser as the source has it: a fixed frame, an offset that is passed on, and
  the exceptions that an index, UTF-8 and JSON may raise;
- that it computes what the decoder of `Collaboration.Protocol` computes, and raises
  nothing but `ProtocolError`.

Does not own: what the JSON parser accepts.
-/

set_option autoImplicit false

namespace Concord.Collaboration

open Binary

variable {P : Platform}

/-- The exceptions that can arise while a frame is parsed. -/
inductive ParseExn where
  | protocolError (message : String)
  | valueError
  | recursionError
  | unicodeDecodeError
  | indexError

/-- What `json.loads` may raise. -/
inductive LoadsExn where
  | valueError
  | recursionError

def LoadsExn.exn : LoadsExn → ParseExn
  | valueError => .valueError
  | recursionError => .recursionError

/-- A parsed frame, with the bytes of its payload. -/
inductive Frame (P : Platform) where
  | sync (subtype : SyncSubtype) (payload : List UInt8)
  | awareness (entries : List (AwarenessEntry P))
  | awarenessQuery
  | auth (reason : String)

/-! ### The source -/

/-- `data[offset]`. -/
def byteAt (data : List UInt8) (offset : Nat) : Except ParseExn UInt8 :=
  match data[offset]? with
  | none => .error .indexError
  | some byte => .ok byte

/-- The loop of `decode_var_uint`. -/
def varUintLoopAt (data : List UInt8) (offset value multiplier bytesRead : Nat) :
    Except ParseExn (Nat × Nat) :=
  if offset < data.length then
    if bytesRead + 1 > 8 then .error (.protocolError "varUint uses more than 8 bytes")
    else do
      let byte ← byteAt data offset
      if value + (byte &&& 0x7F).toNat * multiplier > maxSafeInteger then
        .error (.protocolError "varUint exceeds the JavaScript-safe range")
      else if byte < 0x80 then .ok (value + (byte &&& 0x7F).toNat * multiplier, offset + 1)
      else
        varUintLoopAt data (offset + 1) (value + (byte &&& 0x7F).toNat * multiplier)
          (multiplier * 128) (bytesRead + 1)
  else .error (.protocolError "truncated varUint")
termination_by data.length - offset

def decodeVarUintAt : OffsetReader ParseExn Nat := fun data offset =>
  if offset > data.length then .error (.protocolError "varUint offset is outside the frame")
  else varUintLoopAt data offset 0 1 0

def decodeVarBytesAt : OffsetReader ParseExn (List UInt8) := do
  let length ← decodeVarUintAt
  let data ← read
  let offset ← get
  let stop := offset + length
  if stop > data.length then throw (.protocolError "length-prefixed payload exceeds the frame")
  else
    set stop
    pure ((data.drop offset).take (stop - offset))

/-- `encoded.decode("utf-8")`. -/
def decodeUtf8 (encoded : List UInt8) : Except ParseExn String :=
  match decodeText encoded with
  | none => .error .unicodeDecodeError
  | some text => .ok text

def decodeVarStringAt : OffsetReader ParseExn String := do
  match decodeUtf8 (← decodeVarBytesAt) with
  | .ok text => pure text
  | .error .unicodeDecodeError => throw (.protocolError "string payload is not valid UTF-8")
  | .error exn => throw exn

def ensureFinishedAt : OffsetReader ParseExn Unit := do
  if (← get) ≠ (← read).length then throw (.protocolError "unexpected trailing bytes")
  else pure ()

namespace Wire

variable (wire : Wire P) (raises : String → LoadsExn)

/-- `json.loads`, which raises the given exception where it returns nothing. -/
def jsonLoads (text : String) : Except ParseExn (Option P.Json) :=
  match wire.loads text with
  | none => .error (raises text).exn
  | some state => .ok state

/-- One turn of the loop of `_decode_awareness_entries`. -/
def decodeAwarenessEntryAt : OffsetReader ParseExn (AwarenessEntry P) := do
  let clientId ← decodeVarUintAt
  let clock ← decodeVarUintAt
  let encodedState ← decodeVarStringAt
  match wire.jsonLoads raises encodedState with
  | .ok state => pure ⟨clientId, clock, state, encodedState⟩
  | .error .recursionError => throw (.protocolError "awareness state is not valid JSON")
  | .error .valueError => throw (.protocolError "awareness state is not valid JSON")
  | .error exn => throw exn

/-- The loop of `_decode_awareness_entries`. -/
def decodeAwarenessLoopAt : Nat → OffsetReader ParseExn (List (AwarenessEntry P))
  | 0 => pure []
  | count + 1 => do
      let entry ← wire.decodeAwarenessEntryAt raises
      let entries ← decodeAwarenessLoopAt count
      pure (entry :: entries)

def decodeAwarenessEntriesAt : OffsetReader ParseExn (List (AwarenessEntry P)) := do
  let count ← decodeVarUintAt
  if count > maxAwarenessEntries then
    throw (.protocolError "awareness update contains too many entries")
  else
    let entries ← wire.decodeAwarenessLoopAt raises count
    ensureFinishedAt
    pure entries

/-- The branch of `parse_message` for a sync message. -/
def parseSyncAt : OffsetReader ParseExn (Frame P) := do
  let subtype ← decodeVarUintAt
  match syncSubtype subtype with
  | none => throw (.protocolError ("unknown Yjs sync subtype: " ++ toString subtype))
  | some subtype =>
      let payload ← decodeVarBytesAt
      ensureFinishedAt
      pure (.sync subtype payload)

/-- The branch for an awareness message, whose payload is read from its own start. -/
def parseAwarenessAt : OffsetReader ParseExn (Frame P) := do
  let payload ← decodeVarBytesAt
  ensureFinishedAt
  match wire.decodeAwarenessEntriesAt raises payload 0 with
  | .error exn => throw exn
  | .ok (entries, _) => pure (.awareness entries)

def parseAuthAt : OffsetReader ParseExn (Frame P) := do
  let subtype ← decodeVarUintAt
  if subtype ≠ authPermissionDenied then
    throw (.protocolError ("unknown auth subtype: " ++ toString subtype))
  else
    let reason ← decodeVarStringAt
    ensureFinishedAt
    pure (.auth reason)

/-- `parse_message`, after the checks on the size of the frame. -/
def parseMessageAt : OffsetReader ParseExn (Frame P) := do
  let messageType ← decodeVarUintAt
  if messageType = messageSync then parseSyncAt
  else if messageType = messageAwareness then wire.parseAwarenessAt raises
  else if messageType = messageQueryAwareness then do
    ensureFinishedAt
    pure .awarenessQuery
  else if messageType = messageAuth then parseAuthAt
  else throw (.protocolError ("unknown y-websocket message type: " ++ toString messageType))

/-- `parse_message`. -/
def parseFrame (frame : List UInt8) : Except ParseExn (Frame P) :=
  if frame.isEmpty then .error (.protocolError "empty WebSocket frame")
  else if frame.length > maxMessageSize then
    .error (.protocolError "WebSocket frame exceeds the size limit")
  else (wire.parseMessageAt raises frame 0).map (·.1)

end Wire

/-! ### The decoders that the source computes -/

namespace Wire

variable (wire : Wire P)

def decodeSync : Decoder String (Frame P) := do
  let subtype ← decodeVarUint
  match syncSubtype subtype with
  | none => throw ("unknown Yjs sync subtype: " ++ toString subtype)
  | some subtype =>
      let payload ← decodeVarBytes
      ensureFinished
      pure (.sync subtype payload)

def decodeAwareness : Decoder String (Frame P) := do
  let payload ← decodeVarBytes
  ensureFinished
  match wire.decodeAwarenessEntries payload with
  | .error error => throw error
  | .ok (entries, _) => pure (.awareness entries)

def decodeAuth : Decoder String (Frame P) := do
  let subtype ← decodeVarUint
  if subtype ≠ authPermissionDenied then throw ("unknown auth subtype: " ++ toString subtype)
  else
    let reason ← decodeVarString
    ensureFinished
    pure (.auth reason)

/-- A message with the bytes of its payload. -/
def decodeFrame : Decoder String (Frame P) := do
  let messageType ← decodeVarUint
  if messageType = messageSync then decodeSync
  else if messageType = messageAwareness then wire.decodeAwareness
  else if messageType = messageQueryAwareness then do
    ensureFinished
    pure .awarenessQuery
  else if messageType = messageAuth then decodeAuth
  else throw ("unknown y-websocket message type: " ++ toString messageType)

end Wire

/-! ### The source computes the decoders -/

private theorem simulates_varUintLoop (data : List UInt8) (offset value multiplier bytesRead : Nat)
    (inside : offset ≤ data.length) :
    Follows .protocolError data (decodeVarUintLoop (data.drop offset) value multiplier bytesRead)
      (varUintLoopAt data offset value multiplier bytesRead) := by
  induction offset, value, multiplier, bytesRead using varUintLoopAt.induct data with
  | case1 offset value multiplier bytesRead before many =>
      rw [List.drop_eq_getElem_cons before, decodeVarUintLoop, if_pos many, varUintLoopAt,
        if_pos before, if_pos many]
      rfl
  | case2 offset value multiplier bytesRead before few inductionHypothesis =>
      have byte : byteAt data offset = .ok data[offset] := by
        unfold byteAt
        rw [List.getElem?_eq_getElem before]
      rw [List.drop_eq_getElem_cons before, decodeVarUintLoop, if_neg few, varUintLoopAt,
        if_pos before, if_neg few, byte]
      simp only [Bind.bind, Except.bind]
      split
      · rfl
      · split
        · exact ⟨offset + 1, before, rfl, rfl⟩
        · exact inductionHypothesis data[offset] before
  | case3 offset value multiplier bytesRead past =>
      have ended : data.drop offset = [] := List.drop_eq_nil_of_le (Nat.le_of_not_lt past)
      rw [ended, decodeVarUintLoop, varUintLoopAt, if_neg past]
      rfl

private theorem simulates_varUint : Simulates .protocolError decodeVarUintAt decodeVarUint := by
  intro data offset inside
  unfold decodeVarUintAt
  rw [if_neg (Nat.not_lt_of_le inside)]
  exact simulates_varUintLoop data offset 0 1 0 inside

private theorem simulates_varBytes : Simulates .protocolError decodeVarBytesAt decodeVarBytes := by
  refine simulates_varUint.bind fun length data offset inside => ?_
  have left : (data.drop offset).length = data.length - offset := List.length_drop
  change Follows .protocolError data
    ((if length > (data.drop offset).length then throw "length-prefixed payload exceeds the frame"
      else do
        set ((data.drop offset).drop length)
        pure ((data.drop offset).take length) : Decoder String (List UInt8)) (data.drop offset))
    ((if offset + length > data.length then
        throw (.protocolError "length-prefixed payload exceeds the frame")
      else do
        set (offset + length)
        pure ((data.drop offset).take (offset + length - offset)) :
          OffsetReader ParseExn (List UInt8)) data offset)
  by_cases long : offset + length > data.length
  · have longer : length > (data.drop offset).length := by omega
    rw [if_pos long, if_pos longer]
    rfl
  · have within : ¬length > (data.drop offset).length := by omega
    rw [if_neg long, if_neg within, Nat.add_sub_cancel_left]
    exact ⟨offset + length, Nat.le_of_not_lt long, List.drop_drop, rfl⟩

private theorem simulates_varString :
    Simulates .protocolError decodeVarStringAt decodeVarString := by
  refine simulates_varBytes.bind fun encoded => ?_
  unfold decodeUtf8
  cases decodeText encoded with
  | none => exact .throw _ _
  | some text => exact .pure _ _

private theorem simulates_ensureFinished :
    Simulates .protocolError ensureFinishedAt ensureFinished := by
  intro data offset inside
  change Follows .protocolError data
    ((if (data.drop offset).isEmpty then pure () else throw "unexpected trailing bytes" :
      Decoder String Unit) (data.drop offset))
    ((if offset ≠ data.length then throw (.protocolError "unexpected trailing bytes") else pure () :
      OffsetReader ParseExn Unit) data offset)
  by_cases ended : offset = data.length
  · have empty : (data.drop offset).isEmpty = true := by rw [ended, List.drop_length]; rfl
    rw [if_neg (not_not.mpr ended), if_pos empty]
    exact ⟨offset, inside, rfl, rfl⟩
  · have left : ¬(data.drop offset).isEmpty = true := by
      rw [List.isEmpty_iff, List.drop_eq_nil_iff]
      omega
    rw [if_pos ended, if_neg left]
    rfl

section Messages

variable (wire : Wire P) (raises : String → LoadsExn)

private theorem simulates_awarenessEntry :
    Simulates .protocolError (wire.decodeAwarenessEntryAt raises)
    wire.decodeAwarenessEntry := by
  refine simulates_varUint.bind fun clientId => simulates_varUint.bind fun clock =>
    simulates_varString.bind fun encodedState => ?_
  unfold Wire.jsonLoads
  cases wire.loads encodedState with
  | none => cases raises encodedState <;> exact .throw _ _
  | some state => exact .pure _ _

private theorem simulates_awarenessEntries :
    Simulates .protocolError (wire.decodeAwarenessEntriesAt raises)
    wire.decodeAwarenessEntries := by
  refine simulates_varUint.bind fun count => .ite (.throw _ _) ?_
  refine ((simulates_awarenessEntry wire raises).decodeMany rfl (fun _ => rfl) count).bind
    fun entries => ?_
  exact simulates_ensureFinished.bind fun _ => .pure _ entries

private theorem simulates_sync :
    Simulates .protocolError (Wire.parseSyncAt : OffsetReader ParseExn (Frame P))
    Wire.decodeSync := by
  refine simulates_varUint.bind fun code => ?_
  cases syncSubtype code with
  | none => exact .throw _ _
  | some subtype =>
      exact simulates_varBytes.bind fun payload => simulates_ensureFinished.bind fun _ => .pure _ _

private theorem simulates_awareness : Simulates .protocolError (wire.parseAwarenessAt raises)
    wire.decodeAwareness := by
  refine simulates_varBytes.bind fun payload => simulates_ensureFinished.bind fun _ => ?_
  have inner := simulates_awarenessEntries wire raises payload 0 (Nat.zero_le _)
  rw [List.drop_zero] at inner
  cases decoded : wire.decodeAwarenessEntries payload with
  | error exn =>
      rw [decoded] at inner
      have failed : wire.decodeAwarenessEntriesAt raises payload 0 = .error (.protocolError exn) :=
        inner
      rw [failed]
      exact .throw _ _
  | ok answer =>
      rw [decoded] at inner
      obtain ⟨next, _, _, parsed⟩ := inner
      rw [parsed]
      exact .pure _ _

private theorem simulates_auth :
    Simulates .protocolError (Wire.parseAuthAt : OffsetReader ParseExn (Frame P))
    Wire.decodeAuth := by
  refine simulates_varUint.bind fun code => .ite (.throw _ _) ?_
  exact simulates_varString.bind fun reason => simulates_ensureFinished.bind fun _ => .pure _ _

private theorem simulates_frame :
    Simulates .protocolError (wire.parseMessageAt raises) wire.decodeFrame := by
  refine simulates_varUint.bind fun messageType => ?_
  refine .ite simulates_sync (.ite (simulates_awareness wire raises) (.ite ?_ (.ite simulates_auth ?_)))
  · exact simulates_ensureFinished.bind fun _ => .pure _ _
  · exact .throw _ _

/-- `parse_message` computes the decoder, and its errors are `ProtocolError`s. -/
theorem parseFrame_eq (frame : List UInt8) :
    wire.parseFrame raises frame =
      if frame.isEmpty then .error (.protocolError "empty WebSocket frame")
      else if frame.length > maxMessageSize then
        .error (.protocolError "WebSocket frame exceeds the size limit")
      else
        match wire.decodeFrame frame with
        | .ok (message, _) => .ok message
        | .error error => .error (.protocolError error) := by
  unfold Wire.parseFrame
  have tracked := simulates_frame wire raises frame 0 (Nat.zero_le _)
  rw [List.drop_zero] at tracked
  cases decoded : wire.decodeFrame frame with
  | ok answer =>
      rw [decoded] at tracked
      obtain ⟨next, _, _, parsed⟩ := tracked
      rw [parsed]
      rfl
  | error error =>
      rw [decoded] at tracked
      have failed : wire.parseMessageAt raises frame 0 = .error (.protocolError error) := tracked
      rw [failed]
      rfl

end Messages

/-! ### The message of a frame -/

/-- The message of a frame, over the bytes of the platform. -/
def Frame.message (wire : Wire P) : Frame P → ParsedMessage P
  | .sync subtype payload => .sync subtype (wire.ofBytes payload)
  | .awareness entries => .awareness entries
  | .awarenessQuery => .awarenessQuery
  | .auth reason => .auth reason

private theorem decodeMessage_eq (wire : Wire P) :
    wire.decodeMessage = (wire.decodeFrame >>= fun frame => pure (frame.message wire)) := by
  unfold Wire.decodeMessage Wire.decodeFrame
  rw [bind_assoc]
  refine bind_congr fun messageType => ?_
  split
  · unfold Wire.decodeSync
    rw [bind_assoc]
    refine bind_congr fun code => ?_
    cases syncSubtype code with
    | none => rfl
    | some subtype =>
        simp only [bind_assoc, pure_bind]
        rfl
  · split
    · unfold Wire.decodeAwareness
      rw [bind_assoc]
      refine bind_congr fun payload => ?_
      rw [bind_assoc]
      refine bind_congr fun _ => ?_
      cases wire.decodeAwarenessEntries payload with
      | error error => rfl
      | ok answer => rfl
    · split
      · simp only [bind_assoc, pure_bind]
        rfl
      · split
        · unfold Wire.decodeAuth
          rw [bind_assoc]
          refine bind_congr fun code => ?_
          split
          · rfl
          · simp only [bind_assoc, pure_bind]
            rfl
        · rfl

/-- The parser over the bytes of the platform is the parser of the source. -/
theorem parseMessage_eq_parseFrame (wire : Wire P) (raises : String → LoadsExn)
    (frame : List UInt8) :
    (wire.parseMessage frame).mapError ParseExn.protocolError =
      (wire.parseFrame raises frame).map (·.message wire) := by
  rw [parseFrame_eq]
  unfold Wire.parseMessage
  split
  · rfl
  · split
    · rfl
    · rw [decodeMessage_eq]
      change (((wire.decodeFrame frame).bind _).map _).mapError _ = _
      cases wire.decodeFrame frame with
      | error error => rfl
      | ok answer => rfl

end Concord.Collaboration

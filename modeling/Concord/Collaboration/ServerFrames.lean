import Concord.Collaboration.Protocol
import Concord.Json.Fields

/-!
Contract: the frames that only the server sends.

Owns:
- `encodeDocumentSaved` and `encodeExecutionEvent`, a frame type with a JSON text;
- that `parseMessage` refuses such a frame.

Does not own: what a browser does with the frames.
-/

set_option autoImplicit false

namespace Concord.Collaboration

open Binary

def messageDocumentStatus : Nat := 4

def messageExecutionEvent : Nat := 5

/-- A frame with a JSON object, `json.dumps(…, separators=(",", ":"), sort_keys=True)`. -/
def encodeJsonFrame (messageType : Nat) (fields : List (String × Json)) :
    Except String (List UInt8) := do
  let header ← encodeVarUint messageType
  let body ← encodeVarString (Json.dumps .compact true (.object fields))
  pure (header ++ body)

/-- `None` or a text. -/
def optionalText : Option String → Json
  | none => .null
  | some text => .string text

/-- `None` or an integer. -/
def optionalNumber : Option Int → Json
  | none => .null
  | some value => .number value

/-- The object of `encode_document_saved`. -/
def documentSavedFields (savedAt stateVector : Option String) (stateHash : String) (dirty : Bool)
    (savedBy : Option String) : List (String × Json) :=
  [("type", .string "document_saved"),
    ("saved_at", optionalText savedAt),
    ("state_vector", optionalText stateVector),
    ("state_hash", .string stateHash),
    ("dirty", .bool dirty),
    ("saved_by", optionalText savedBy)]

def encodeDocumentSaved (savedAt stateVector : Option String) (stateHash : String) (dirty : Bool)
    (savedBy : Option String) : Except String (List UInt8) :=
  encodeJsonFrame messageDocumentStatus
    (documentSavedFields savedAt stateVector stateHash dirty savedBy)

def encodeExecutionEvent (event : List (String × Json)) : Except String (List UInt8) :=
  encodeJsonFrame messageExecutionEvent event

section Frames

variable {P : Platform} {messageType : Nat} {fields : List (String × Json)} {frame : List UInt8}

/-- A text of less than 2^53 bytes has a frame. -/
theorem encodeJsonFrame_of_fits (known : messageType ≤ maxSafeInteger)
    (fits : (encodeText (Json.dumps .compact true (.object fields))).length ≤ maxSafeInteger) :
    ∃ frame, encodeJsonFrame messageType fields = .ok frame := by
  have encodes {value : Nat} (small : value ≤ maxSafeInteger) :
      encodeVarUint value = .ok (digits128 value) := if_neg (Nat.not_lt.mpr small)
  unfold encodeJsonFrame encodeVarString encodeVarBytes
  rw [encodes known, encodes fits]
  exact ⟨_, rfl⟩

/-- The server does not take back what only it may send. -/
theorem parseMessage_jsonFrame (wire : Wire P) (custom : messageAuth < messageType)
    (notQuery : messageType ≠ messageQueryAwareness)
    (encoded : encodeJsonFrame messageType fields = .ok frame) :
    ∃ error, wire.parseMessage frame = .error error := by
  obtain ⟨header, encodedHeader, encoded⟩ := bind_eq_ok encoded
  obtain ⟨body, _, encoded⟩ := bind_eq_ok encoded
  obtain rfl := Except.ok.inj encoded
  have notSync : messageType ≠ messageSync := by
    unfold messageAuth messageSync at *
    omega
  have notAwareness : messageType ≠ messageAwareness := by
    unfold messageAuth messageAwareness at *
    omega
  unfold Wire.parseMessage
  split
  · exact ⟨_, rfl⟩
  · split
    · exact ⟨_, rfl⟩
    · refine ⟨"unknown y-websocket message type: " ++ toString messageType, ?_⟩
      unfold Wire.decodeMessage
      rw [(reads_varUint encodedHeader).step, if_neg notSync, if_neg notAwareness, if_neg notQuery,
        if_neg custom.ne']
      rfl

end Frames

end Concord.Collaboration

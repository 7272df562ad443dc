import Concord.Collaboration.ServerFrames
import Concord.Execution.Cleanup
import Concord.Execution.Events
import Concord.Execution.Streaming

/-!
Contract: the events of the worker, from `json.dumps` to the frames of a room.

Owns:
- `Published`, what `_publish` and `_publish_output` write to Redis, as text on the
  channel of the session, and that the worker's `publish` and `streamOutput` write it;
- `jsonRuntime`, the relay's runtime with the JSON reader in place of a parameter;
- the relay over any such messages: each is valid, and goes to its own room.

An event whose numbers are not integers has no frame here. The worker sends none.

Does not own: what a browser does with a frame.
-/

set_option autoImplicit false

namespace Concord.Execution

open Asyncio Collaboration Binary

/-! ### The two kinds of JSON value -/

mutual

def JsonValue.ofJson : Json → JsonValue
  | .null => .null
  | .bool value => .bool value
  | .number value => .number (String.ofList (Json.printNumber value))
  | .string text => .string text
  | .array items => .array (JsonValue.ofItems items)
  | .object fields => .object (JsonValue.ofFields fields)

def JsonValue.ofItems : List Json → List JsonValue
  | [] => []
  | item :: rest => JsonValue.ofJson item :: JsonValue.ofItems rest

def JsonValue.ofFields : List (String × Json) → List (String × JsonValue)
  | [] => []
  | (key, value) :: rest => (key, JsonValue.ofJson value) :: JsonValue.ofFields rest

end

/-- The number that a text is, where it is an integer. -/
def integerOf (literal : String) : Option Int :=
  match Json.readNumber literal.toList with
  | some (value, []) => some value
  | _ => none

mutual

/-- A value as `json.dumps` prints it, where its numbers are integers. -/
def JsonValue.toJson : JsonValue → Option Json
  | .null => some .null
  | .bool value => some (.bool value)
  | .number literal => (integerOf literal).map .number
  | .string text => some (.string text)
  | .array items => (JsonValue.toItems items).map .array
  | .object fields => (JsonValue.toFields fields).map .object

def JsonValue.toItems : List JsonValue → Option (List Json)
  | [] => some []
  | item :: rest => do pure ((← JsonValue.toJson item) :: (← JsonValue.toItems rest))

def JsonValue.toFields : List (String × JsonValue) → Option (List (String × Json))
  | [] => some []
  | (key, value) :: rest => do
      let value ← JsonValue.toJson value
      pure ((key, value) :: (← JsonValue.toFields rest))

end

theorem integerOf_printNumber (value : Int) :
    integerOf (String.ofList (Json.printNumber value)) = some value := by
  have ends : Json.EndsNumber [] := rfl
  have read := Json.readNumber_printNumber value ends
  rw [List.append_nil] at read
  unfold integerOf
  rw [String.toList_ofList, read]

mutual

theorem JsonValue.toJson_ofJson (value : Json) :
    JsonValue.toJson (JsonValue.ofJson value) = some value := by
  match value with
  | .null => simp only [ofJson, toJson]
  | .bool value => simp only [ofJson, toJson]
  | .number value => simp only [ofJson, toJson, integerOf_printNumber, Option.map_some]
  | .string text => simp only [ofJson, toJson]
  | .array items => simp only [ofJson, toJson, JsonValue.toItems_ofItems items, Option.map_some]
  | .object fields => simp only [ofJson, toJson, JsonValue.toFields_ofFields fields, Option.map_some]

theorem JsonValue.toItems_ofItems (items : List Json) :
    JsonValue.toItems (JsonValue.ofItems items) = some items := by
  match items with
  | [] => simp only [ofItems, toItems]
  | item :: rest =>
      simp only [ofItems, toItems, JsonValue.toJson_ofJson item, JsonValue.toItems_ofItems rest, bind,
        Option.bind, pure]

theorem JsonValue.toFields_ofFields (fields : List (String × Json)) :
    JsonValue.toFields (JsonValue.ofFields fields) = some fields := by
  match fields with
  | [] => simp only [ofFields, toFields]
  | (key, value) :: rest =>
      simp only [ofFields, toFields, JsonValue.toJson_ofJson value,
        JsonValue.toFields_ofFields rest, bind, Option.bind, pure]

end

/-- A field as the relay sees it. -/
theorem get_ofFields (fields : List (String × Json)) (key : String) :
    JsonValue.get (JsonValue.ofFields fields) key =
      ((fields.lookup key).map JsonValue.ofJson).getD .null := by
  unfold JsonValue.get
  induction fields with
  | nil => simp only [JsonValue.ofFields, List.lookup_nil, Option.map_none]
  | cons field fields inductionHypothesis =>
      obtain ⟨head, value⟩ := field
      simp only [JsonValue.ofFields, List.lookup_cons]
      cases key == head with
      | true => rfl
      | false => exact inductionHypothesis

/-! ### What the worker publishes -/

/-- A message of the worker: a row, or a piece of output. -/
inductive Published where
  | status (executionId : ExecutionId) (row : ExecutionRow)
  | output (event : OutputEvent)

namespace Published

def sessionId : Published → Nat
  | status _ row => row.sessionId
  | output event => event.sessionId

def streamName : OutputStream → String
  | .stdout => "stdout"
  | .stderr => "stderr"

/-- The object of `_publish` and of `_publish_output`. `names` has the UUID of a key. -/
def fields (names : Nat → String) : Published → List (String × Json)
  | status executionId row =>
      [("type", .string "execution_status"),
        ("execution_id", .string (names executionId)),
        ("session_id", .string (names row.sessionId)),
        ("status", .string row.status.value),
        ("stdout", optionalText row.stdout),
        ("stderr", optionalText row.stderr),
        ("exit_code", optionalNumber row.exitCode),
        ("elapsed_ms", optionalNumber (row.elapsedMs.map Int.ofNat))]
  | output event =>
      [("type", .string "execution_output"),
        ("execution_id", .string (names event.executionId)),
        ("session_id", .string (names event.sessionId)),
        ("stream", .string (streamName event.stream)),
        ("data", .string event.data),
        ("status", .string event.status.value)]

/-- The channel and the payload of `redis.publish`, as the relay receives them. -/
def message (names : Nat → String) (published : Published) : Message × Message :=
  (.text (executionEventChannelPrefix ++ names published.sessionId),
    .text (Json.dumps .spaced false (.object (published.fields names))))

theorem fields_distinct (names : Nat → String) (published : Published) :
    ((published.fields names).map Prod.fst).Nodup := by
  cases published <;> simp [fields]

private theorem fields_plain (names : Nat → String) (published : Published) :
    ∀ field ∈ published.fields names, Json.keepLast field.2 = field.2 := by
  have text (value : Option String) : Json.keepLast (optionalText value) = optionalText value := by
    cases value <;> simp only [optionalText, Json.keepLast]
  have number (value : Option Int) :
      Json.keepLast (optionalNumber value) = optionalNumber value := by
    cases value <;> simp only [optionalNumber, Json.keepLast]
  cases published <;> simp [fields, Json.keepLast, text, number]

def typeName : Published → String
  | status _ _ => "execution_status"
  | output _ => "execution_output"

def executionId : Published → ExecutionId
  | status executionId _ => executionId
  | output event => event.executionId

private theorem get_type (names : Nat → String) (published : Published) :
    JsonValue.get (JsonValue.ofFields (published.fields names)) "type" =
      .string published.typeName := by
  rw [get_ofFields]
  cases published <;> rfl

private theorem get_session (names : Nat → String) (published : Published) :
    JsonValue.get (JsonValue.ofFields (published.fields names)) "session_id" =
      .string (names published.sessionId) := by
  rw [get_ofFields]
  cases published <;> rfl

private theorem get_execution (names : Nat → String) (published : Published) :
    JsonValue.get (JsonValue.ofFields (published.fields names)) "execution_id" =
      .string (names published.executionId) := by
  rw [get_ofFields]
  cases published <;> rfl

private theorem typeName_mem (published : Published) :
    published.typeName ∈ eventTypes := by
  cases published with
  | status executionId row => exact List.mem_cons_self
  | output event => exact List.mem_cons_of_mem _ List.mem_cons_self

/-- A message of the worker: output is sent of a running execution, and the numbers of a
row are those of JavaScript. -/
def Sound : Published → Prop
  | .status _ row => (∀ code ∈ row.exitCode, code.natAbs ≤ maxSafeInteger) ∧
      ∀ elapsed ∈ row.elapsedMs, elapsed ≤ maxSafeInteger
  | .output event => event.status = .running

/-- The payload of a frame has a length that can be encoded. -/
def Fits (names : Nat → String) (published : Published) : Prop :=
  (encodeText (Json.dumps .compact true (.object (published.fields names)))).length ≤ maxSafeInteger

theorem encodes {names : Nat → String} (published : Published) (fits : published.Fits names) :
    ∃ frame, encodeExecutionEvent (published.fields names) = .ok frame :=
  encodeJsonFrame_of_fits (by decide) fits

end Published

/-! ### What the worker writes -/

/-- The messages of `_publish`, the earliest first. -/
def Published.ofState (state : ExecState) : List Published :=
  state.published.reverse.map fun (executionId, row) => .status executionId row

/-- `Integer` columns hold 32 bits with a sign. -/
def ExecutionRow.InColumns (row : ExecutionRow) : Prop :=
  (∀ code ∈ row.exitCode, -2 ^ 31 ≤ code ∧ code < 2 ^ 31) ∧
    ∀ elapsed ∈ row.elapsedMs, elapsed < 2 ^ 31

section Worker

variable {env : ExecState → ExecState → Prop} {task : TaskId} {executionId : ExecutionId}
  {row : ExecutionRow} {start final : ExecState} {trace : List ExecMoment}

/-- `_publish` of a row puts the message of that row behind those that were there, and the
message of a stored row is sound. -/
theorem publish_sends (runs : Runs env (publish task executionId row) start trace (.ok ()) final)
    (stored : row.InColumns) :
    (Published.status executionId row).Sound ∧ ∃ state, env start state ∧
      Published.ofState final = Published.ofState state ++ [.status executionId row] := by
  obtain ⟨codes, times⟩ := stored
  have largest : (2 : Nat) ^ 31 ≤ maxSafeInteger := by decide
  refine ⟨⟨fun code exited => ?_, fun elapsed took => ?_⟩, ?_⟩
  · obtain ⟨low, high⟩ := codes code exited
    omega
  · have short := times elapsed took
    omega
  obtain ⟨state, event, _, framed, done | raised⟩ := runs_serverCall runs
  · obtain ⟨_, _, sent, _⟩ := done
    obtain ⟨_, rfl⟩ := Prod.mk.inj (Option.some.inj sent)
    refine ⟨state, framed, ?_⟩
    simp only [Published.ofState, List.reverse_cons, List.map_append, List.map_cons, List.map_nil]
  · obtain ⟨_, _, failed, _⟩ := raised
    cases failed

/-- The events so far are of one execution, in its session and running. -/
def Streaming.Of (executionId : ExecutionId) (row : ExecutionRow) (streaming : Streaming) : Prop :=
  ∀ event ∈ streaming.published, event.executionId = executionId ∧
    event.sessionId = row.sessionId ∧ event.status = .running

theorem Streaming.Of.publishOutput {streaming : Streaming} (holds : streaming.Of executionId row)
    (stream : OutputStream) (data : String) :
    (publishOutput executionId row stream data streaming).Of executionId row := by
  intro event member
  rcases List.mem_append.mp member with earlier | last
  · exact holds event earlier
  · obtain rfl := List.mem_singleton.mp last
    exact ⟨rfl, rfl, rfl⟩

theorem Streaming.Of.streamChunk {streaming : Streaming} (holds : streaming.Of executionId row)
    (limit : Nat) (item : StreamItem) :
    (streamChunk limit executionId row streaming item).Of executionId row := by
  obtain ⟨stream, chunk⟩ := item
  have accepted : (acceptChunk limit executionId row streaming stream chunk).Of executionId row := by
    unfold acceptChunk
    dsimp only
    split
    · exact holds
    · exact Streaming.Of.publishOutput (by exact holds) _ _
  rw [streamChunk_eq]
  dsimp only
  split
  · exact Streaming.Of.publishOutput (by exact accepted) _ _
  · exact accepted

/-- `_stream_output` sends sound messages of its own execution only. -/
theorem streamOutput_sends (limit : Nat) (executionId : ExecutionId) (row : ExecutionRow)
    (chunks : List Demuxed) :
    ∀ event ∈ streamOutput limit executionId row chunks, (Published.output event).Sound ∧
      event.executionId = executionId ∧ event.sessionId = row.sessionId := by
  have run : ∀ (items : List StreamItem) (streaming : Streaming), streaming.Of executionId row →
      (items.foldl (streamChunk limit executionId row) streaming).Of executionId row := by
    intro items
    induction items with
    | nil => exact fun _ holds => holds
    | cons item rest inductionHypothesis =>
        exact fun streaming holds => inductionHypothesis _ (holds.streamChunk limit item)
  intro event member
  obtain ⟨execution, session, running⟩ :=
    run _ .start (fun _ none => absurd none List.not_mem_nil) event member
  exact ⟨running, execution, session⟩

end Worker

/-! ### The relay -/

def jsonRuntime (isUuid : String → Bool) (str : JsonValue → Option String) : EventRuntime where
  loads text :=
    match Json.loads text with
    | some value => .ok (JsonValue.ofJson value)
    | none => .error .valueError
  isUuid := isUuid
  str := str

/-- What the code relies on of `uuid` and `str`: a key has a UUID that its text names
again, and a text is its own text. -/
structure Names (isUuid : String → Bool) (str : JsonValue → Option String)
    (names : Nat → String) (keys : String → Option Nat) : Prop where
  isUuid_names : ∀ key, isUuid (names key) = true
  keys_names : ∀ key, keys (names key) = some key
  str_string : ∀ text, str (.string text) = some text

/-- `encode_execution_event` of an event from the relay. -/
def eventFrame (event : List (String × JsonValue)) : Option (List UInt8) := do
  let fields ← JsonValue.toFields event
  (encodeExecutionEvent fields).toOption

/-- The frames that the relay broadcasts, with their rooms, or none where it raises. -/
def relayFrames (runtime : EventRuntime) (messages : List (Message × Message)) :
    Option (List (String × List UInt8)) :=
  match relay runtime messages with
  | .error _ => none
  | .ok events => events.mapM fun event => (eventFrame event.2).map fun frame => (event.1, frame)

/-- The frames of one room, in the order in which they are sent. -/
def framesOf (room : String) (frames : List (String × List UInt8)) : List (List UInt8) :=
  (frames.filter (·.1 = room)).map Prod.snd

section Relay

variable {isUuid : String → Bool} {str : JsonValue → Option String} {names : Nat → String}
  {keys : String → Option Nat}

theorem Names.injective (known : Names isUuid str names keys) {left right : Nat}
    (same : names left = names right) : left = right := by
  have keyed := known.keys_names left
  rw [same, known.keys_names right] at keyed
  exact (Option.some.inj keyed).symm

private theorem loads_payload (isUuid : String → Bool) (str : JsonValue → Option String)
    (names : Nat → String) (published : Published) :
    (jsonRuntime isUuid str).loads (published.message names).2.decode =
      .ok (.object (JsonValue.ofFields (published.fields names))) := by
  show (match Json.loads (Json.dumps .spaced false (.object (published.fields names))) with
    | some value => Except.ok (JsonValue.ofJson value)
    | none => .error EventExn.valueError) = _
  rw [Json.loads_dumps_plain .spaced (published.fields_distinct names) (published.fields_plain names)]
  simp only [JsonValue.ofJson]

/-- Every message of the worker is a valid event of its session. -/
theorem Names.validEvent (known : Names isUuid str names keys) (published : Published) :
    ValidEvent (jsonRuntime isUuid str) (published.message names).1 (published.message names).2
      (names published.sessionId) (JsonValue.ofFields (published.fields names)) where
  channel := rfl
  session := known.isUuid_names _
  payload := loads_payload isUuid str names published
  type := by
    rw [published.get_type]
    exact ⟨published.typeName, published.typeName_mem, by simp [JsonValue.isText]⟩
  bound := by
    rw [published.get_session]
    simp [JsonValue.isText]
  execution := by
    rw [published.get_execution]
    exact ⟨_, known.str_string _, known.isUuid_names _⟩

theorem Names.digestible (known : Names isUuid str names keys) (published : Published) :
    Digestible (jsonRuntime isUuid str) (published.message names).1 (published.message names).2 := by
  intro sessionId _ _
  rw [loads_payload]
  refine ⟨nofun, fun event parsed => ?_⟩
  obtain rfl := JsonValue.object.inj (Except.ok.inj parsed)
  rw [published.get_type, published.get_execution]
  have named : (jsonRuntime isUuid str).str (.string (names published.executionId)) ≠ none := by
    show str (.string (names published.executionId)) ≠ none
    rw [known.str_string]
    exact Option.some_ne_none _
  exact ⟨rfl, fun _ _ => named⟩

theorem Names.validated (known : Names isUuid str names keys) (published : Published) :
    validateExecutionEvent (jsonRuntime isUuid str) (published.message names).1
      (published.message names).2 =
        .ok (some (names published.sessionId, JsonValue.ofFields (published.fields names))) := by
  obtain ⟨answer, answered, exact_⟩ := answersEvent_of_digestible (known.digestible published)
  rw [answered, (exact_ _ _).mpr (known.validEvent published)]

/-- The relay survives the messages of the worker and drops none. -/
theorem Names.relay_published (known : Names isUuid str names keys) (messages : List Published) :
    relay (jsonRuntime isUuid str) (messages.map (Published.message names)) =
      .ok (messages.map fun published =>
        (names published.sessionId, JsonValue.ofFields (published.fields names))) := by
  induction messages with
  | nil => rfl
  | cons published messages inductionHypothesis =>
      have validated := known.validated published
      rw [List.map_cons, relay, validated, inductionHypothesis]
      rfl

private theorem eventFrame_ofFields {fields : List (String × Json)} {frame : List UInt8}
    (encoded : encodeExecutionEvent fields = .ok frame) :
    eventFrame (JsonValue.ofFields fields) = some frame := by
  simp only [eventFrame, JsonValue.toFields_ofFields, bind, Option.bind, encoded, Except.toOption]

/-- The relay broadcasts a frame for every message that fits in one, in the room of its
session and in the order of the messages. -/
theorem Names.relayFrames_published (known : Names isUuid str names keys)
    {messages : List Published} (fits : ∀ published ∈ messages, published.Fits names) :
    ∃ frames, relayFrames (jsonRuntime isUuid str) (messages.map (Published.message names)) =
        some frames ∧
      List.Forall₂ (fun (published : Published) frame =>
        frame.1 = names published.sessionId ∧
          encodeExecutionEvent (published.fields names) = .ok frame.2) messages frames := by
  unfold relayFrames
  rw [known.relay_published messages]
  induction messages with
  | nil => exact ⟨[], rfl, .nil⟩
  | cons published messages inductionHypothesis =>
      obtain ⟨fitsFirst, fitsRest⟩ := List.forall_mem_cons.mp fits
      obtain ⟨frame, encoded⟩ := published.encodes fitsFirst
      obtain ⟨frames, relayed, each⟩ := inductionHypothesis fitsRest
      refine ⟨(names published.sessionId, frame) :: frames, ?_, .cons ⟨rfl, encoded⟩ each⟩
      have first := eventFrame_ofFields encoded
      simp only [List.map_cons, List.mapM_cons, first, Option.map_some, bind, Option.bind]
      simp only at relayed
      rw [relayed]
      rfl

/-- The frames of a room are those of the messages of its session. -/
theorem Names.framesOf_published (known : Names isUuid str names keys) {messages : List Published}
    {frames : List (String × List UInt8)}
    (each : List.Forall₂ (fun (published : Published) frame =>
      frame.1 = names published.sessionId ∧
        encodeExecutionEvent (published.fields names) = .ok frame.2) messages frames)
    (session : Nat) :
    List.Forall₂ (fun published frame => encodeExecutionEvent (published.fields names) = .ok frame)
      (messages.filter (·.sessionId = session)) (framesOf (names session) frames) := by
  induction each with
  | nil => exact .nil
  | @cons published frame messages frames first _ inductionHypothesis =>
      obtain ⟨room, encoded⟩ := first
      by_cases own : published.sessionId = session
      · have sameRoom : frame.1 = names session := by rw [room, own]
        rw [List.filter_cons_of_pos (by simpa using own)]
        unfold framesOf
        rw [List.filter_cons_of_pos (by simpa using sameRoom)]
        exact .cons encoded inductionHypothesis
      · have otherRoom : frame.1 ≠ names session := by
          intro same
          exact own (known.injective (room.symm.trans same))
        rw [List.filter_cons_of_neg (by simpa using own)]
        unfold framesOf
        rw [List.filter_cons_of_neg (by simpa using otherRoom)]
        exact inductionHypothesis

end Relay

end Concord.Execution

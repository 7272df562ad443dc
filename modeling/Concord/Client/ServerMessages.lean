import Concord.Client.Executions
import Concord.Execution.EventFrames

/-!
Contract: the frames of the server in a browser.

Owns:
- the handlers of `CollaborativeEditor` for saved documents and for executions, with
  `isDocumentSavedEvent` and `isExecutionEvent`;
- the round trip of a document status;
- the messages of the worker, which reach the pages of their session, each once and in
  order, and the output that a page shows of them.

`lib0` reads integers and texts. A field of an event that the handlers do not check is
typed by `ExecutionEvent.ofObject`.

Does not own: how a page merges an event with what it has loaded.
-/

set_option autoImplicit false

namespace Concord.Client

open Collaboration Execution Binary

/-! ### Frames -/

/-- `decoding.readVarUint` and `decoding.readVarString`. -/
structure Lib0 where
  readVarUint : Decoder String Nat
  readVarString : Decoder String String

/-- The decoders take back what the server encodes. -/
structure Lib0.Decodes (lib0 : Lib0) : Prop where
  varUint : ∀ {value : Nat} {bytes : List UInt8}, encodeVarUint value = .ok bytes →
    Reads lib0.readVarUint bytes value
  varString : ∀ {text : String} {bytes : List UInt8}, encodeVarString text = .ok bytes →
    Reads lib0.readVarString bytes text

def asText : Json → Option String
  | .string text => some text
  | _ => none

def asBool : Json → Option Bool
  | .bool value => some value
  | _ => none

/-- An integer that a JavaScript number holds. -/
def asInteger : Json → Option Int
  | .number value => if value.natAbs ≤ maxSafeInteger then some value else none
  | _ => none

/-- `null`, or a value of some type. -/
def orNull {α : Type} (read : Json → Option α) : Json → Option (Option α)
  | .null => some none
  | value => (read value).map some

/-- A field of some type. One that is missing has none of them. -/
def field {α : Type} (read : Json → Option α) (key : String) (object : List (String × Json)) :
    Option α :=
  (object.lookup key).bind read

structure DocumentSavedEvent where
  savedAt : Option String
  stateVector : Option String
  stateHash : String
  dirty : Bool
  savedBy : Option String
  deriving DecidableEq

/-- `isDocumentSavedEvent`, with the fields that it has checked. -/
def documentSavedEvent : Json → Option DocumentSavedEvent
  | .object candidate => do
      guard (field asText "type" candidate = some "document_saved")
      let dirty ← field asBool "dirty" candidate
      let savedAt ← field (orNull asText) "saved_at" candidate
      let stateVector ← field (orNull asText) "state_vector" candidate
      let stateHash ← field asText "state_hash" candidate
      let savedBy ← field (orNull asText) "saved_by" candidate
      pure ⟨savedAt, stateVector, stateHash, dirty, savedBy⟩
  | _ => none

def isExecutionEvent (event : List (String × Json)) : Bool :=
  (field asText "execution_id" event).isSome && (field asText "session_id" event).isSome &&
    if field asText "type" event = some "execution_output" then
      (field asText "stream" event = some "stdout" || field asText "stream" event = some "stderr") &&
        (field asText "data" event).isSome && field asText "status" event = some "RUNNING"
    else field asText "type" event = some "execution_status" && (field asText "status" event).isSome

/-- A call of a handler of the page: `latestSaveStatus` is set, or `onExecutionEvent`
is called. -/
inductive ServerMessage where
  | documentSaved (event : DocumentSavedEvent)
  | executionEvent (event : List (String × Json))

/-- The handler of `MESSAGE_DOCUMENT_SAVED`. -/
def readDocumentSaved (text : String) : Option ServerMessage := do
  let message ← Json.loads text
  let event ← documentSavedEvent message
  pure (.documentSaved event)

/-- The handler of `MESSAGE_EXECUTION_EVENT` in the editor of a session. -/
def readExecutionEvent (sessionId text : String) : Option ServerMessage :=
  match Json.loads text with
  | some (.object event) =>
      if isExecutionEvent event && field asText "session_id" event = some sessionId then
        some (.executionEvent event)
      else none
  | _ => none

/-- What the editor of a session does with a frame of one of its own two types: it
calls a handler with the text, or warns. -/
def receiveFrame (lib0 : Lib0) (sessionId : String) (frame : List UInt8) : Option ServerMessage :=
  match lib0.readVarUint frame with
  | .error _ => none
  | .ok (messageType, rest) =>
      if messageType = messageDocumentStatus then
        match lib0.readVarString rest with
        | .error _ => none
        | .ok (text, _) => readDocumentSaved text
      else if messageType = messageExecutionEvent then
        match lib0.readVarString rest with
        | .error _ => none
        | .ok (text, _) => readExecutionEvent sessionId text
      else none

/-! ### Execution events -/

def executionStatusOf (text : String) : Option ExecutionStatus :=
  [.queued, .starting, .running, .completed, .failed, .timeout, .cancelled].find?
    (·.value = text)

def outputStreamOf (text : String) : Option OutputStream :=
  [.stdout, .stderr].find? (Published.streamName · = text)

/-- An event of the type that `isExecutionEvent` asserts. `keys` has the key of a UUID. -/
def ExecutionEvent.ofObject (keys : String → Option Nat) (event : List (String × Json)) :
    Option ExecutionEvent := do
  let executionId ← (← field asText "execution_id" event) |> keys
  if field asText "type" event = some "execution_output" then
    let stream ← (← field asText "stream" event) |> outputStreamOf
    pure (.output executionId stream (← field asText "data" event))
  else
    let status ← (← field asText "status" event) |> executionStatusOf
    let stdout ← field (orNull asText) "stdout" event
    let stderr ← field (orNull asText) "stderr" event
    let exitCode ← field (orNull asInteger) "exit_code" event
    let elapsedMs ← field (orNull asInteger) "elapsed_ms" event
    pure (.status executionId status stdout stderr exitCode (elapsedMs.map Int.toNat))

/-- The event of a message, where it calls `onExecutionEvent`. -/
def ServerMessage.event (keys : String → Option Nat) : ServerMessage → Option ExecutionEvent
  | .documentSaved _ => none
  | .executionEvent event => ExecutionEvent.ofObject keys event

/-! ### Fields that the server has put in order -/

section Sorted

variable {α : Type} {fields : List (String × Json)}

/-- A reading that does not see the order of the keys inside of a value. -/
def Unordered (read : Json → Option α) : Prop :=
  ∀ value, read (Json.keepLast (Json.sortKeys value)) = read value

private theorem unordered_asText : Unordered asText := by
  intro value
  cases value <;> simp only [Json.sortKeys, Json.keepLast, asText]

private theorem unordered_asBool : Unordered asBool := by
  intro value
  cases value <;> simp only [Json.sortKeys, Json.keepLast, asBool]

private theorem unordered_asInteger : Unordered asInteger := by
  intro value
  cases value <;> simp only [Json.sortKeys, Json.keepLast, asInteger]

theorem Unordered.orNull {read : Json → Option α} (unordered : Unordered read) :
    Unordered (orNull read) := by
  intro value
  have same := unordered value
  cases value <;> simp_all only [Json.sortKeys, Json.keepLast, Client.orNull]

private theorem field_sorted {read : Json → Option α} (unordered : Unordered read)
    (distinct : (fields.map Prod.fst).Nodup) (key : String) :
    field read key (Json.sortedFields fields) = field read key fields := by
  unfold field
  rw [Json.lookup_sortedFields distinct]
  cases fields.lookup key with
  | none => rfl
  | some value => exact unordered value

private theorem isExecutionEvent_sorted (distinct : (fields.map Prod.fst).Nodup) :
    isExecutionEvent (Json.sortedFields fields) = isExecutionEvent fields := by
  unfold isExecutionEvent
  simp only [field_sorted unordered_asText distinct]

private theorem ofObject_sorted (keys : String → Option Nat)
    (distinct : (fields.map Prod.fst).Nodup) :
    ExecutionEvent.ofObject keys (Json.sortedFields fields) = ExecutionEvent.ofObject keys fields := by
  unfold ExecutionEvent.ofObject
  simp only [field_sorted unordered_asText distinct, field_sorted unordered_asText.orNull distinct,
    field_sorted unordered_asInteger.orNull distinct]

private theorem documentSavedEvent_sorted (distinct : (fields.map Prod.fst).Nodup) :
    documentSavedEvent (.object (Json.sortedFields fields)) = documentSavedEvent (.object fields) := by
  unfold documentSavedEvent
  simp only [field_sorted unordered_asText distinct, field_sorted unordered_asText.orNull distinct,
    field_sorted unordered_asBool distinct]

end Sorted

/-! ### Frames are received -/

section Frames

variable {P : Platform} {lib0 : Lib0} {fields : List (String × Json)} {frame : List UInt8}

/-- The frame reader calls the handler of the type with the text of the object. -/
theorem receiveFrame_encoded (decodes : lib0.Decodes) (sessionId : String) {messageType : Nat}
    (encoded : encodeJsonFrame messageType fields = .ok frame) :
    receiveFrame lib0 sessionId frame =
      let text := Json.dumps .compact true (.object fields)
      if messageType = messageDocumentStatus then readDocumentSaved text
      else if messageType = messageExecutionEvent then readExecutionEvent sessionId text
      else none := by
  obtain ⟨header, encodedHeader, encoded⟩ := bind_eq_ok encoded
  obtain ⟨body, encodedBody, encoded⟩ := bind_eq_ok encoded
  obtain rfl := Except.ok.inj encoded
  have readHeader := decodes.varUint encodedHeader body
  have readBody := (decodes.varString encodedBody).run
  unfold receiveFrame
  simp only [readHeader, readBody]

private theorem documentSavedEvent_fields (savedAt stateVector : Option String) (stateHash : String)
    (dirty : Bool) (savedBy : Option String) :
    documentSavedEvent
        (.object (documentSavedFields savedAt stateVector stateHash dirty savedBy)) =
      some ⟨savedAt, stateVector, stateHash, dirty, savedBy⟩ := by
  cases savedAt <;> cases stateVector <;> cases savedBy <;> rfl

private theorem documentSavedFields_distinct (savedAt stateVector : Option String)
    (stateHash : String)
    (dirty : Bool) (savedBy : Option String) :
    ((documentSavedFields savedAt stateVector stateHash dirty savedBy).map Prod.fst).Nodup := by
  simp [documentSavedFields]

/-- **The status of a document arrives as it was sent**, in the editor of every session,
and the server refuses it as a message of a client. -/
theorem document_status_arrives (decodes : lib0.Decodes) (wire : Wire P) (sessionId : String)
    {savedAt stateVector : Option String} {stateHash : String} {dirty : Bool}
    {savedBy : Option String}
    (encoded : encodeDocumentSaved savedAt stateVector stateHash dirty savedBy = .ok frame) :
    receiveFrame lib0 sessionId frame =
        some (.documentSaved ⟨savedAt, stateVector, stateHash, dirty, savedBy⟩) ∧
      ∃ error, wire.parseMessage frame = .error error := by
  have distinct := documentSavedFields_distinct savedAt stateVector stateHash dirty savedBy
  constructor
  · rw [receiveFrame_encoded decodes sessionId encoded]
    simp only [if_true]
    unfold readDocumentSaved
    rw [Json.loads_dumps_object .compact distinct]
    simp only [bind, Option.bind, documentSavedEvent_sorted distinct, documentSavedEvent_fields]
    rfl
  · exact parseMessage_jsonFrame wire (by decide) (by decide) encoded

/-- The decoders of the server read the same formats. -/
def serverLib0 : Lib0 := ⟨decodeVarUint, decodeVarString⟩

theorem serverLib0_decodes : serverLib0.Decodes := ⟨reads_varUint, reads_varString⟩

theorem document_status_arrives_dirty :
    ∃ frame, encodeDocumentSaved (some "2024-05-01T10:00:00+00:00") none "00ab" true none =
        .ok frame ∧
      receiveFrame serverLib0 "room" frame =
        some (.documentSaved ⟨some "2024-05-01T10:00:00+00:00", none, "00ab", true, none⟩) ∧
      ∃ error, sampleWire.parseMessage frame = .error error := by
  have fits : (encodeText (Json.dumps .compact true (.object
      (documentSavedFields (some "2024-05-01T10:00:00+00:00") none "00ab" true none)))).length ≤
        maxSafeInteger := by decide +kernel
  have known : messageDocumentStatus ≤ maxSafeInteger := by decide
  obtain ⟨frame, encoded⟩ := encodeJsonFrame_of_fits known fits
  exact ⟨frame, encoded, document_status_arrives serverLib0_decodes sampleWire "room" encoded⟩

end Frames

/-! ### The messages of the worker -/

def publishedEvent : Published → ExecutionEvent
  | .status executionId row =>
      .status executionId row.status row.stdout row.stderr row.exitCode row.elapsedMs
  | .output event => .output event.executionId event.stream event.data

section Published

variable {isUuid : String → Bool} {str : JsonValue → Option String} {names : Nat → String}
  {keys : String → Option Nat} {lib0 : Lib0} {frame : List UInt8}

private theorem executionStatusOf_value (status : ExecutionStatus) :
    executionStatusOf status.value = some status := by
  cases status <;> decide

private theorem outputStreamOf_streamName (stream : OutputStream) :
    outputStreamOf (Published.streamName stream) = some stream := by
  cases stream <;> decide

private theorem orNull_optionalText (text : Option String) :
    orNull asText (optionalText text) = some text := by
  cases text <;> rfl

private theorem orNull_optionalNumber {number : Option Int}
    (safe : ∀ value ∈ number, value.natAbs ≤ maxSafeInteger) :
    orNull asInteger (optionalNumber number) = some number := by
  cases number with
  | none => rfl
  | some value =>
      have small : asInteger (.number value) = some value := if_pos (safe value rfl)
      show (asInteger (.number value)).map some = _
      rw [small]
      rfl

/-- The editor accepts every sound message of its session. -/
theorem isExecutionEvent_published {published : Published} (sound : published.Sound) :
    isExecutionEvent (published.fields names) = true := by
  cases published with
  | status executionId row => rfl
  | output event =>
      have running : field asText "status" ((Published.output event).fields names) =
          some "RUNNING" := congrArg (fun status => some (ExecutionStatus.value status)) sound
      have stream : (field asText "stream" ((Published.output event).fields names) = some "stdout" ||
          field asText "stream" ((Published.output event).fields names) = some "stderr") = true := by
        show (some (Published.streamName event.stream) = some "stdout" ||
          some (Published.streamName event.stream) = some "stderr") = true
        cases event.stream <;> rfl
      unfold isExecutionEvent
      rw [running, stream]
      rfl

private theorem ofObject_published (known : Names isUuid str names keys) {published : Published}
    (sound : published.Sound) :
    ExecutionEvent.ofObject keys (published.fields names) = some (publishedEvent published) := by
  have own : field asText "execution_id" (published.fields names) =
      some (names published.executionId) := by
    cases published <;> rfl
  have type : field asText "type" (published.fields names) = some published.typeName := by
    cases published <;> rfl
  unfold ExecutionEvent.ofObject
  simp only [own, type, bind, Option.bind, known.keys_names]
  cases published with
  | status executionId row =>
      obtain ⟨exitSafe, elapsedSafe⟩ := sound
      have status : field asText "status" ((Published.status executionId row).fields names) =
          some row.status.value := rfl
      have stdout : field (orNull asText) "stdout"
          ((Published.status executionId row).fields names) = some row.stdout :=
        orNull_optionalText row.stdout
      have stderr : field (orNull asText) "stderr"
          ((Published.status executionId row).fields names) = some row.stderr :=
        orNull_optionalText row.stderr
      have exitCode : field (orNull asInteger) "exit_code"
          ((Published.status executionId row).fields names) = some row.exitCode :=
        orNull_optionalNumber exitSafe
      have elapsedMs : field (orNull asInteger) "elapsed_ms"
          ((Published.status executionId row).fields names) =
            some (row.elapsedMs.map Int.ofNat) := by
        apply orNull_optionalNumber
        intro value member
        obtain ⟨elapsed, given, rfl⟩ := Option.map_eq_some_iff.mp member
        exact elapsedSafe elapsed given
      have natural : (row.elapsedMs.map Int.ofNat).map Int.toNat = row.elapsedMs := by
        rw [Option.map_map]
        exact Option.map_id_apply
      have otherType : (Published.status executionId row).typeName ≠ "execution_output" := by
        show "execution_status" ≠ "execution_output"
        decide
      rw [if_neg (fun same => otherType (Option.some.inj same))]
      simp only [status, executionStatusOf_value, stdout, stderr, exitCode, elapsedMs, natural]
      rfl
  | output event =>
      have stream : field asText "stream" ((Published.output event).fields names) =
          some (Published.streamName event.stream) := rfl
      have data : field asText "data" ((Published.output event).fields names) =
          some event.data := rfl
      have ownType : some (Published.output event).typeName = some "execution_output" := rfl
      rw [if_pos ownType]
      simp only [stream, outputStreamOf_streamName, data]
      rfl

/-- What the editor of a session does with the frame of a sound message of the session. -/
theorem receiveFrame_published (known : Names isUuid str names keys) (decodes : lib0.Decodes)
    {published : Published} (sound : published.Sound)
    (encoded : encodeExecutionEvent (published.fields names) = .ok frame) :
    (receiveFrame lib0 (names published.sessionId) frame).bind (ServerMessage.event keys) =
      some (publishedEvent published) := by
  have distinct := published.fields_distinct names
  have session : field asText "session_id" (published.fields names) =
      some (names published.sessionId) := by
    cases published <;> rfl
  rw [receiveFrame_encoded decodes _ encoded]
  have otherType : messageExecutionEvent ≠ messageDocumentStatus := by decide
  simp only [if_neg otherType, if_true]
  unfold readExecutionEvent
  rw [Json.loads_dumps_object .compact distinct]
  simp only [isExecutionEvent_sorted distinct, isExecutionEvent_published sound,
    field_sorted unordered_asText distinct, session, decide_true, Bool.and_self, if_true]
  show ExecutionEvent.ofObject keys (Json.sortedFields (published.fields names)) = _
  rw [ofObject_sorted keys distinct, ofObject_published known sound]

/-- The events of `onExecutionEvent` for the frames that arrive. -/
def receivedEvents (lib0 : Lib0) (keys : String → Option Nat) (sessionId : String)
    (frames : List (List UInt8)) : List ExecutionEvent :=
  frames.filterMap fun frame => (receiveFrame lib0 sessionId frame).bind (ServerMessage.event keys)

private theorem receivedEvents_published (known : Names isUuid str names keys)
    (decodes : lib0.Decodes)
    {session : Nat} {messages : List Published} {frames : List (List UInt8)}
    (own : ∀ published ∈ messages, published.sessionId = session)
    (sound : ∀ published ∈ messages, published.Sound)
    (each : List.Forall₂ (fun published frame =>
      encodeExecutionEvent (published.fields names) = .ok frame) messages frames) :
    receivedEvents lib0 keys (names session) frames = messages.map publishedEvent := by
  unfold receivedEvents
  induction each with
  | nil => rfl
  | cons encoded _ inductionHypothesis =>
      obtain ⟨ownFirst, ownRest⟩ := List.forall_mem_cons.mp own
      obtain ⟨soundFirst, soundRest⟩ := List.forall_mem_cons.mp sound
      have received := receiveFrame_published known decodes soundFirst encoded
      rw [ownFirst] at received
      simp only [List.filterMap_cons, received, inductionHypothesis ownRest soundRest, List.map_cons]

/-- **The messages of the worker arrive.** The relay raises nothing, and the editor of a
session is told of the messages of the session, of each once and in the order in which
they were published. -/
theorem worker_messages_arrive (known : Names isUuid str names keys) (decodes : lib0.Decodes)
    {messages : List Published} (sound : ∀ published ∈ messages, published.Sound)
    (fits : ∀ published ∈ messages, published.Fits names) :
    ∃ frames, relayFrames (jsonRuntime isUuid str) (messages.map (Published.message names)) =
        some frames ∧
      ∀ session, receivedEvents lib0 keys (names session) (framesOf (names session) frames) =
        (messages.filter (·.sessionId = session)).map publishedEvent := by
  obtain ⟨frames, relayed, each⟩ := known.relayFrames_published fits
  refine ⟨frames, relayed, fun session => ?_⟩
  apply receivedEvents_published known decodes
  · intro published member
    exact of_decide_eq_true (List.mem_filter.mp member).2
  · intro published member
    exact sound published (List.mem_filter.mp member).1
  · exact known.framesOf_published each session

/-- UUIDs with the key in the last group. -/
def sampleNames (key : Nat) : String :=
  "00000000-0000-0000-0000-" ++ String.ofList (Json.printNumber (100000000000 + key))

/-- The key in the last group of a UUID. -/
def sampleKeys (text : String) : Option Nat :=
  (integerOf (String.ofList (text.toList.drop 24))).map fun value => (value - 100000000000).toNat

/-- `str` of a text. -/
def sampleStr : JsonValue → Option String
  | .string text => some text
  | _ => none

theorem sampleNames_known : Names (fun _ => true) sampleStr sampleNames sampleKeys where
  isUuid_names _ := rfl
  str_string _ := rfl
  keys_names key := by
    have group : (sampleNames key).toList.drop 24 = Json.printNumber (100000000000 + key) := by
      unfold sampleNames
      rw [String.toList_append, List.drop_left' (by decide), String.toList_ofList]
    unfold sampleKeys
    rw [group, integerOf_printNumber, Option.map_some, add_sub_cancel_left]
    rfl

def sampleMessages : List Published :=
  [.output ⟨0, 0, .stdout, "é", .running⟩, .output ⟨1, 1, .stderr, "no", .running⟩]

private theorem sampleMessages_sound : ∀ published ∈ sampleMessages, published.Sound := by
  simp [sampleMessages, Published.Sound]

private theorem sampleMessages_fit : ∀ published ∈ sampleMessages, published.Fits sampleNames := by
  simp only [sampleMessages, List.forall_mem_cons, Published.Fits]
  exact ⟨by decide +kernel, by decide +kernel, nofun⟩

theorem worker_messages_arrive_sample :
    ∃ frames, relayFrames (jsonRuntime (fun _ => true) sampleStr)
        (sampleMessages.map (Published.message sampleNames)) = some frames ∧
      receivedEvents serverLib0 sampleKeys (sampleNames 1) (framesOf (sampleNames 1) frames) =
        [.output 1 .stderr "no"] := by
  obtain ⟨frames, relayed, each⟩ := worker_messages_arrive sampleNames_known serverLib0_decodes
    sampleMessages_sound sampleMessages_fit
  exact ⟨frames, relayed, each 1⟩

end Published

/-! ### Output on a page -/

/-- The frames of a room as they arrive, each at its time. -/
def ExecutionPage.receiveFrames (lib0 : Lib0) (keys : String → Option Nat) (sessionId : String)
    (arrivals : List (Nat × List UInt8)) (page : ExecutionPage) : ExecutionPage :=
  arrivals.foldl (fun page arrival =>
    match (receiveFrame lib0 sessionId arrival.2).bind (ServerMessage.event keys) with
    | some event => page.handleExecutionEvent arrival.1 event
    | none => page) page

def ExecutionRecord.text (stream : OutputStream) (record : ExecutionRecord) : String :=
  match stream with
  | .stdout => record.stdout.getD ""
  | .stderr => record.stderr.getD ""

/-- The output among the messages about an execution. -/
def outputOf (executionId : ExecutionId) (messages : List Published) : List OutputEvent :=
  messages.filterMap fun published =>
    match published with
    | .status _ _ => none
    | .output event => if event.executionId = executionId then some event else none

/-- The status messages of an execution that has not ended bring no text. -/
def Quiet (executionId : ExecutionId) (messages : List Published) : Prop :=
  ∀ row, Published.status executionId row ∈ messages → row.stdout = none ∧ row.stderr = none

/-- What one event does to a record of the page. -/
def ExecutionRecord.note (now : Nat) (event : ExecutionEvent) (record : ExecutionRecord) :
    ExecutionRecord :=
  if record.id = event.executionId then ExecutionPage.applyEvent now event record else record

theorem ExecutionRecord.note_id (now : Nat) (event : ExecutionEvent) (record : ExecutionRecord) :
    (record.note now event).id = record.id := by
  unfold ExecutionRecord.note
  split
  · cases event with
    | status => rfl
    | output executionId stream data => cases stream <;> rfl
  · rfl

private theorem textOf_cons (stream : OutputStream) (event : OutputEvent)
    (events : List OutputEvent) :
    textOf stream (event :: events) =
      (if event.stream = stream then event.data else "") ++ textOf stream events := by
  unfold textOf
  by_cases own : event.stream = stream
  · rw [List.filter_cons_of_pos (by simpa using own), if_pos own, List.foldr_cons]
  · rw [List.filter_cons_of_neg (by simpa using own), if_neg own, String.empty_append]

private theorem publishedEvent_executionId (published : Published) :
    (publishedEvent published).executionId = published.executionId := by
  cases published <;> rfl

/-- One message adds its output to the text of its stream. -/
theorem text_note (now : Nat) (stream : OutputStream) {published : Published}
    {record : ExecutionRecord} (quiet : Quiet record.id [published]) :
    (record.note now (publishedEvent published)).text stream =
      record.text stream ++ textOf stream (outputOf record.id [published]) := by
  cases published with
  | status executionId row =>
      rw [show outputOf record.id [Published.status executionId row] = [] from rfl]
      rw [show textOf stream [] = "" from rfl, String.append_empty]
      unfold ExecutionRecord.note
      split
      · next own =>
          have own : record.id = executionId := own
          subst own
          obtain ⟨stdout, stderr⟩ := quiet row List.mem_cons_self
          unfold ExecutionPage.applyEvent publishedEvent ExecutionRecord.text
          cases stream <;> simp only [stdout, stderr, Option.none_or]
      · rfl
  | output event =>
      unfold ExecutionRecord.note
      rw [publishedEvent_executionId]
      show (if record.id = event.executionId then _ else _ : ExecutionRecord).text stream = _
      by_cases own : event.executionId = record.id
      · have output : outputOf record.id [.output event] = [event] := by
          simp only [outputOf, List.filterMap_cons, if_pos own, List.filterMap_nil]
        rw [if_pos own.symm, output, textOf_cons, show textOf stream [] = "" from rfl,
          String.append_empty]
        show (ExecutionPage.applyEvent now (.output event.executionId event.stream event.data)
          record).text stream = _
        cases event.stream <;> cases stream <;>
          simp [ExecutionPage.applyEvent, ExecutionRecord.text]
      · have output : outputOf record.id [.output event] = [] := by
          simp only [outputOf, List.filterMap_cons, if_neg own, List.filterMap_nil]
        rw [if_neg (fun same => own same.symm), output, show textOf stream [] = "" from rfl,
          String.append_empty]

private theorem outputOf_cons (executionId : ExecutionId) (published : Published)
    (messages : List Published) :
    outputOf executionId (published :: messages) =
      outputOf executionId [published] ++ outputOf executionId messages := by
  unfold outputOf
  rw [← List.filterMap_append, List.singleton_append]

/-- The output of an execution is among the messages of its session. -/
theorem outputOf_filter {executionId : ExecutionId} {session : Nat} {messages : List Published}
    (own : ∀ event, Published.output event ∈ messages → event.executionId = executionId →
      event.sessionId = session) :
    outputOf executionId (messages.filter (·.sessionId = session)) =
      outputOf executionId messages := by
  induction messages with
  | nil => rfl
  | cons published messages inductionHypothesis =>
      have rest := inductionHypothesis fun event member => own event (List.mem_cons_of_mem _ member)
      by_cases inSession : published.sessionId = session
      · rw [List.filter_cons_of_pos (by simpa using inSession), outputOf_cons, rest,
          ← outputOf_cons]
      · have silent : outputOf executionId [published] = [] := by
          cases published with
          | status other row => rfl
          | output event =>
              have other : event.executionId ≠ executionId := fun same =>
                inSession (own event List.mem_cons_self same)
              simp only [outputOf, List.filterMap_cons, if_neg other, List.filterMap_nil]
        rw [List.filter_cons_of_neg (by simpa using inSession), outputOf_cons, silent, rest,
          List.nil_append]

section Pages

variable {isUuid : String → Bool} {str : JsonValue → Option String} {names : Nat → String}
  {keys : String → Option Nat} {lib0 : Lib0}

/-- A page before and after some messages: no record comes or goes, and a record whose
execution has not ended has their output behind its own. -/
def Grows (messages : List Published) (page later : ExecutionPage) : Prop :=
  List.Forall₂ (fun before record => record.id = before.id ∧ (Quiet before.id messages →
    ∀ stream, record.text stream = before.text stream ++ textOf stream (outputOf before.id messages)))
    page.executions later.executions

private theorem grows_refl (page : ExecutionPage) : Grows [] page page := by
  apply List.forall₂_same.mpr
  intro record _
  refine ⟨rfl, fun _ stream => ?_⟩
  rw [show textOf stream (outputOf record.id []) = "" from rfl, String.append_empty]

theorem Grows.cons {published : Published} {messages : List Published} {now : Nat}
    {page later : ExecutionPage}
    (grows : Grows messages (page.handleExecutionEvent now (publishedEvent published)) later) :
    Grows (published :: messages) page later := by
  have mapped : (page.handleExecutionEvent now (publishedEvent published)).executions =
      page.executions.map (·.note now (publishedEvent published)) := rfl
  unfold Grows at grows ⊢
  rw [mapped, List.forall₂_map_left_iff] at grows
  refine grows.imp fun before record kept => ?_
  obtain ⟨same, text⟩ := kept
  rw [ExecutionRecord.note_id] at same text
  refine ⟨same, fun quiet stream => ?_⟩
  have quietFirst : Quiet before.id [published] := fun row member => by
    obtain rfl := List.mem_singleton.mp member
    exact quiet row List.mem_cons_self
  have quietRest : Quiet before.id messages := fun row member =>
    quiet row (List.mem_cons_of_mem _ member)
  have cut := outputOf_cons before.id published messages
  rw [text quietRest stream, text_note now stream quietFirst, cut, textOf_append,
    String.append_assoc]

private theorem grows_of_receiveFrames (known : Names isUuid str names keys)
    (decodes : lib0.Decodes)
    {session : Nat} {messages : List Published} {arrivals : List (Nat × List UInt8)}
    (own : ∀ published ∈ messages, published.sessionId = session)
    (sound : ∀ published ∈ messages, published.Sound)
    (each : List.Forall₂ (fun published frame =>
      encodeExecutionEvent (published.fields names) = .ok frame) messages (arrivals.map Prod.snd))
    (page : ExecutionPage) :
    Grows messages page (page.receiveFrames lib0 keys (names session) arrivals) := by
  induction messages generalizing arrivals page with
  | nil =>
      have none : arrivals = [] := List.map_eq_nil_iff.mp (List.forall₂_nil_left_iff.mp each)
      subst none
      exact grows_refl page
  | cons published messages inductionHypothesis =>
      cases arrivals with
      | nil => cases each
      | cons arrival arrivals =>
          obtain ⟨encoded, each⟩ := List.forall₂_cons.mp each
          obtain ⟨ownFirst, ownRest⟩ := List.forall_mem_cons.mp own
          obtain ⟨soundFirst, soundRest⟩ := List.forall_mem_cons.mp sound
          have received := receiveFrame_published known decodes soundFirst encoded
          rw [ownFirst] at received
          have onward := inductionHypothesis ownRest soundRest each
            (page.handleExecutionEvent arrival.1 (publishedEvent published))
          unfold ExecutionPage.receiveFrames at onward ⊢
          rw [List.foldl_cons, received]
          exact onward.cons

/-- The messages of the worker reach the pages of a session. -/
theorem relayed_grows (known : Names isUuid str names keys) (decodes : lib0.Decodes)
    {messages : List Published} (sound : ∀ published ∈ messages, published.Sound)
    (fits : ∀ published ∈ messages, published.Fits names) (session : Nat) :
    ∃ frames, relayFrames (jsonRuntime isUuid str) (messages.map (Published.message names)) =
        some frames ∧
      ∀ (page : ExecutionPage) (arrivals : List (Nat × List UInt8)),
        arrivals.map Prod.snd = framesOf (names session) frames →
          Grows (messages.filter (·.sessionId = session)) page
            (page.receiveFrames lib0 keys (names session) arrivals) := by
  obtain ⟨frames, relayed, each⟩ := known.relayFrames_published fits
  refine ⟨frames, relayed, fun page arrivals arrived => ?_⟩
  have inRoom := known.framesOf_published each session
  rw [← arrived] at inRoom
  exact grows_of_receiveFrames known decodes
    (fun published member => of_decide_eq_true (List.mem_filter.mp member).2)
    (fun published member => sound published (List.mem_filter.mp member).1) inRoom page

/-- The text of an execution, when the messages of its session have arrived. -/
theorem Grows.output {messages : List Published} {session : Nat} {executionId : ExecutionId}
    {page later : ExecutionPage}
    (grows : Grows (messages.filter (·.sessionId = session)) page later)
    (quiet : Quiet executionId messages)
    (own : ∀ event, Published.output event ∈ messages → event.executionId = executionId →
      event.sessionId = session) :
    List.Forall₂ (fun before record => record.id = before.id ∧ (before.id = executionId →
      ∀ stream, record.text stream =
        before.text stream ++ textOf stream (outputOf executionId messages)))
      page.executions later.executions := by
  refine grows.imp fun before record kept => ?_
  obtain ⟨same, text⟩ := kept
  refine ⟨same, ?_⟩
  rintro rfl stream
  have quietHere : Quiet before.id (messages.filter (·.sessionId = session)) := fun row member =>
    quiet row (List.mem_filter.mp member).1
  rw [text quietHere stream, outputOf_filter own]

/-- **A page shows the output of a running execution.** Whatever the worker publishes of
all executions, once its frames have arrived in the room of a session, each at some time,
no record of a page has come or gone, and the record of an execution of the session has
the published output of each stream, in order and once, behind what it had. -/
theorem page_shows_output (known : Names isUuid str names keys) (decodes : lib0.Decodes)
    {messages : List Published} (sound : ∀ published ∈ messages, published.Sound)
    (fits : ∀ published ∈ messages, published.Fits names) {session : Nat}
    {executionId : ExecutionId} (quiet : Quiet executionId messages)
    (own : ∀ event, Published.output event ∈ messages → event.executionId = executionId →
      event.sessionId = session) :
    ∃ frames, relayFrames (jsonRuntime isUuid str) (messages.map (Published.message names)) =
        some frames ∧
      ∀ (page : ExecutionPage) (arrivals : List (Nat × List UInt8)),
        arrivals.map Prod.snd = framesOf (names session) frames →
          List.Forall₂ (fun before record => record.id = before.id ∧ (before.id = executionId →
            ∀ stream, record.text stream =
              before.text stream ++ textOf stream (outputOf executionId messages)))
            page.executions (page.receiveFrames lib0 keys (names session) arrivals).executions := by
  obtain ⟨frames, relayed, grows⟩ := relayed_grows known decodes sound fits session
  exact ⟨frames, relayed, fun page arrivals arrived =>
    (grows page arrivals arrived).output quiet own⟩

def samplePage : ExecutionPage :=
  ⟨[⟨0, .running, none, none, none, none, 0, none⟩], [0], some 0⟩

theorem page_shows_output_sample :
    ∃ frames, relayFrames (jsonRuntime (fun _ => true) sampleStr)
        (sampleMessages.map (Published.message sampleNames)) = some frames ∧
      (samplePage.receiveFrames serverLib0 sampleKeys (sampleNames 0)
        ((framesOf (sampleNames 0) frames).map fun frame => (7, frame))).executions.map
          (fun record => (record.text .stdout, record.text .stderr)) = [("é", "")] := by
  have quiet : Quiet 0 sampleMessages := by
    simp [sampleMessages, Quiet]
  obtain ⟨frames, relayed, shows⟩ := page_shows_output sampleNames_known serverLib0_decodes
    sampleMessages_sound sampleMessages_fit quiet (by simp [sampleMessages] : ∀ event,
      Published.output event ∈ sampleMessages → event.executionId = 0 → event.sessionId = 0)
  refine ⟨frames, relayed, ?_⟩
  have each := shows samplePage ((framesOf (sampleNames 0) frames).map fun frame => (7, frame)) (by
    rw [List.map_map]
    exact List.map_id _)
  obtain ⟨record, rest, ⟨same, text⟩, none, list⟩ := List.forall₂_cons_left_iff.mp each
  obtain rfl := List.forall₂_nil_left_iff.mp none
  rw [list, List.map_singleton, text rfl .stdout, text rfl .stderr]
  decide +kernel

end Pages

end Concord.Client

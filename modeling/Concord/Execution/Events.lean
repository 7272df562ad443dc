import Concord.Execution.Output

/-!
Contract: the relay of execution events to the rooms.

Owns:
- `validateExecutionEvent` with every exception that its lookups and comparisons
  can raise;
- when a message is survived, and what a valid event is;
- `relay`, the loop over the messages of a subscription.

The JSON parser, `uuid.UUID` and `str` are parameters. Numbers stay as their text.

Does not own: the rooms, and the reconnection to Redis.
-/

set_option autoImplicit false

namespace Concord.Execution

/-- A JSON value as `json.loads` returns it. An object is a dictionary. -/
inductive JsonValue where
  | null
  | bool (value : Bool)
  | number (literal : String)
  | string (text : String)
  | array (items : List JsonValue)
  | object (fields : List (String × JsonValue))

namespace JsonValue

/-- `dict.get`. -/
def get (fields : List (String × JsonValue)) (key : String) : JsonValue :=
  (fields.lookup key).getD .null

def isText (text : String) : JsonValue → Bool
  | .string other => other = text
  | _ => false

/-- Whether `hash` is defined on the value. -/
def hashable : JsonValue → Bool
  | .array _ => false
  | .object _ => false
  | _ => true

end JsonValue

inductive EventExn where
  | valueError
  | typeError
  | recursionError
  deriving DecidableEq

/-- The JSON parser, whether `uuid.UUID` accepts a text, and `str`, which raises
`RecursionError` where it returns none. -/
structure EventRuntime where
  loads : String → Except EventExn JsonValue
  isUuid : String → Bool
  str : JsonValue → Option String

/-- Text, or the bytes of one. -/
inductive Message where
  | text (value : String)
  | bytes (value : List UInt8)

/-- `if isinstance(value, bytes): value = value.decode(errors="replace")`. -/
def Message.decode : Message → String
  | .text value => value
  | .bytes value => decodeReplacing value

def executionEventChannelPrefix : String := "concord:execution:events:"

def eventTypes : List String := ["execution_status", "execution_output"]

/-- `channel.removeprefix`, none where `channel.startswith` fails. -/
def sessionOfChannel (channel : String) : Option String :=
  if executionEventChannelPrefix.toList <+: channel.toList then
    some (String.ofList (channel.toList.drop executionEventChannelPrefix.length))
  else none

namespace EventRuntime

variable (runtime : EventRuntime)

/-- `uuid.UUID(text)`. -/
def uuid (text : String) : Except EventExn Unit :=
  if runtime.isUuid text then .ok () else .error .valueError

/-- `str(value)`. -/
def text (value : JsonValue) : Except EventExn String :=
  match runtime.str value with
  | none => .error .recursionError
  | some text => .ok text

end EventRuntime

/-- `value not in _EVENT_TYPES`, which hashes the value. -/
def isEventType (value : JsonValue) : Except EventExn Bool :=
  if value.hashable then .ok (eventTypes.any fun type => value.isText type) else .error .typeError

/-- `except (TypeError, ValueError): return None`, around the part that binds a
value. -/
def returnNoneFor {α β : Type} (body : Except EventExn α) (rest : α → Except EventExn (Option β)) :
    Except EventExn (Option β) :=
  match body with
  | .ok value => rest value
  | .error .valueError => .ok none
  | .error .typeError => .ok none
  | .error .recursionError => .error .recursionError

/-- `validate_execution_event`, after the payload has been parsed. -/
def validateFields (runtime : EventRuntime) (sessionId : String) :
    JsonValue → Except EventExn (Option (String × List (String × JsonValue)))
  | .object event => do
      if !(← isEventType (JsonValue.get event "type")) then pure none
      else if !(JsonValue.get event "session_id").isText sessionId then pure none
      else
        returnNoneFor (do runtime.uuid (← runtime.text (JsonValue.get event "execution_id")))
          fun _ => pure (some (sessionId, event))
  | _ => pure none

def validateExecutionEvent (runtime : EventRuntime) (channel payload : Message) :
    Except EventExn (Option (String × List (String × JsonValue))) :=
  match sessionOfChannel channel.decode with
  | none => pure none
  | some sessionId =>
      returnNoneFor
        (do
          runtime.uuid sessionId
          runtime.loads payload.decode)
        (validateFields runtime sessionId)

/-- The event is one of the session that its channel names. -/
structure ValidEvent (runtime : EventRuntime) (channel payload : Message) (sessionId : String)
    (event : List (String × JsonValue)) : Prop where
  channel : channel.decode = executionEventChannelPrefix ++ sessionId
  session : runtime.isUuid sessionId = true
  payload : runtime.loads payload.decode = .ok (.object event)
  type : ∃ type ∈ eventTypes, (JsonValue.get event "type").isText type = true
  bound : (JsonValue.get event "session_id").isText sessionId = true
  execution : ∃ text, runtime.str (JsonValue.get event "execution_id") = some text ∧
    runtime.isUuid text = true

/-- No exception, and the valid event of the message or none. -/
def AnswersEvent (runtime : EventRuntime) (channel payload : Message) : Prop :=
  ∃ answer, validateExecutionEvent runtime channel payload = .ok answer ∧
    ∀ sessionId event, answer = some (sessionId, event) ↔
      ValidEvent runtime channel payload sessionId event

/-- On a channel of a session, the parser does not raise `RecursionError`, and an
object that it returns has a type with a hash. If nothing else is wrong with the
object, its `execution_id` has a text. -/
def Digestible (runtime : EventRuntime) (channel payload : Message) : Prop :=
  ∀ sessionId, channel.decode = executionEventChannelPrefix ++ sessionId →
    runtime.isUuid sessionId = true →
      runtime.loads payload.decode ≠ .error .recursionError ∧
        ∀ event, runtime.loads payload.decode = .ok (.object event) →
          (JsonValue.get event "type").hashable = true ∧
            ((∃ type ∈ eventTypes, (JsonValue.get event "type").isText type = true) →
              (JsonValue.get event "session_id").isText sessionId = true →
                runtime.str (JsonValue.get event "execution_id") ≠ none)

private theorem sessionOfChannel_eq_some {channel sessionId : String} :
    sessionOfChannel channel = some sessionId ↔
      channel = executionEventChannelPrefix ++ sessionId := by
  unfold sessionOfChannel
  constructor
  · intro named
    split at named
    · next starts =>
        obtain rfl := Option.some.inj named
        apply String.toList_inj.mp
        rw [String.toList_append, String.toList_ofList]
        obtain ⟨rest, split⟩ := starts
        rw [← split, ← String.length_toList, List.drop_left]
    · cases named
  · rintro rfl
    rw [String.toList_append, if_pos (List.prefix_append _ _), ← String.length_toList,
      List.drop_left, String.ofList_toList]

section Validation

variable {runtime : EventRuntime} {channel payload : Message} {sessionId : String}
  {event : List (String × JsonValue)}

/-- A channel names at most one session. -/
theorem ValidEvent.unique (valid : ValidEvent runtime channel payload sessionId event)
    {other : String} (named : channel.decode = executionEventChannelPrefix ++ other) :
    sessionId = other := by
  have first := sessionOfChannel_eq_some.mpr valid.channel
  have second := sessionOfChannel_eq_some.mpr named
  exact Option.some.inj (first.symm.trans second)

/-- On a channel without a session there is no valid event. -/
theorem answersEvent_of_no_session
    (none_named : ∀ sessionId, channel.decode = executionEventChannelPrefix ++ sessionId →
      runtime.isUuid sessionId = false) : AnswersEvent runtime channel payload := by
  refine ⟨none, ?_, fun sessionId event => ⟨nofun, fun valid => ?_⟩⟩
  · unfold validateExecutionEvent
    cases named : sessionOfChannel channel.decode with
    | none => rfl
    | some sessionId =>
        have rejected := none_named sessionId (sessionOfChannel_eq_some.mp named)
        simp [EventRuntime.uuid, rejected, returnNoneFor, Bind.bind, Except.bind]
  · exact nomatch (none_named sessionId valid.channel).symm.trans valid.session

/-- On the channel of a session the payload decides. -/
theorem validateExecutionEvent_of_session
    (named : channel.decode = executionEventChannelPrefix ++ sessionId)
    (session : runtime.isUuid sessionId = true) :
    validateExecutionEvent runtime channel payload =
      returnNoneFor (runtime.loads payload.decode) (validateFields runtime sessionId) := by
  unfold validateExecutionEvent
  rw [sessionOfChannel_eq_some.mpr named]
  simp [EventRuntime.uuid, session, Bind.bind, Except.bind]

private theorem isEventType_of_hashable {value : JsonValue} (hashable : value.hashable = true) :
    isEventType value = .ok (eventTypes.any fun type => value.isText type) := by
  unfold isEventType
  rw [if_pos hashable]

/-- An object of a session with a hash for its type, and a text for its execution
where that is asked for. -/
theorem validateFields_object (hashable : (JsonValue.get event "type").hashable = true)
    (textual : (∃ type ∈ eventTypes, (JsonValue.get event "type").isText type = true) →
      (JsonValue.get event "session_id").isText sessionId = true →
        runtime.str (JsonValue.get event "execution_id") ≠ none) :
    ∃ answer, validateFields runtime sessionId (.object event) = .ok answer ∧
      ∀ other fields, answer = some (other, fields) ↔ (sessionId = other ∧ event = fields) ∧
        (∃ type ∈ eventTypes, (JsonValue.get event "type").isText type = true) ∧
          (JsonValue.get event "session_id").isText sessionId = true ∧
            ∃ text, runtime.str (JsonValue.get event "execution_id") = some text ∧
              runtime.isUuid text = true := by
  dsimp only [validateFields]
  rw [isEventType_of_hashable hashable]
  have typed_iff : (eventTypes.any fun type => (JsonValue.get event "type").isText type) = true ↔
      ∃ type ∈ eventTypes, (JsonValue.get event "type").isText type = true := List.any_eq_true
  by_cases typed : ∃ type ∈ eventTypes, (JsonValue.get event "type").isText type = true
  · rw [typed_iff.mpr typed]
    by_cases bound : (JsonValue.get event "session_id").isText sessionId = true
    · obtain ⟨text, textOf⟩ := Option.ne_none_iff_exists'.mp (textual typed bound)
      by_cases execution : runtime.isUuid text = true
      · refine ⟨some (sessionId, event), ?_, fun other fields => ?_⟩
        · simp [bound, textOf, execution, EventRuntime.text, EventRuntime.uuid, returnNoneFor,
            Bind.bind, Except.bind, pure, Except.pure]
        · rw [Option.some.injEq, Prod.mk.injEq]
          exact ⟨fun same => ⟨same, typed, bound, text, textOf, execution⟩, fun all => all.1⟩
      · refine ⟨none, ?_, fun other fields => ⟨nofun, fun all => ?_⟩⟩
        · simp [bound, textOf, execution, EventRuntime.text, EventRuntime.uuid, returnNoneFor,
            Bind.bind, Except.bind]
        · obtain ⟨text', textOf', execution'⟩ := all.2.2.2
          obtain rfl := Option.some.inj (textOf.symm.trans textOf')
          exact absurd execution' execution
    · refine ⟨none, ?_, fun other fields => ⟨nofun, fun all => absurd all.2.2.1 bound⟩⟩
      simp [bound, Bind.bind, Except.bind, pure, Except.pure]
  · refine ⟨none, ?_, fun other fields => ⟨nofun, fun all => absurd all.2.1 typed⟩⟩
    rw [Bool.eq_false_iff.mpr fun anyType => typed (typed_iff.mp anyType)]
    rfl

/-- Where something of an object has no hash or no text, the exception escapes. -/
theorem validateFields_raises
    (undigested : ¬((JsonValue.get event "type").hashable = true ∧
      ((∃ type ∈ eventTypes, (JsonValue.get event "type").isText type = true) →
        (JsonValue.get event "session_id").isText sessionId = true →
          runtime.str (JsonValue.get event "execution_id") ≠ none))) :
    ∃ exn, validateFields runtime sessionId (.object event) = .error exn := by
  by_cases hashable : (JsonValue.get event "type").hashable = true
  · have silent : (∃ type ∈ eventTypes, (JsonValue.get event "type").isText type = true) ∧
        (JsonValue.get event "session_id").isText sessionId = true ∧
          runtime.str (JsonValue.get event "execution_id") = none := by
      by_contra spoken
      exact undigested ⟨hashable, fun typed bound textless => spoken ⟨typed, bound, textless⟩⟩
    obtain ⟨typed, bound, textless⟩ := silent
    refine ⟨.recursionError, ?_⟩
    dsimp only [validateFields]
    rw [isEventType_of_hashable hashable, List.any_eq_true.mpr typed]
    simp [bound, textless, EventRuntime.text, returnNoneFor, Bind.bind, Except.bind]
  · refine ⟨.typeError, ?_⟩
    dsimp only [validateFields, isEventType]
    rw [if_neg hashable]
    rfl

/-- A message that raises nothing is digestible. -/
theorem digestible_of_answer {answer : Option (String × List (String × JsonValue))}
    (answered : validateExecutionEvent runtime channel payload = .ok answer) :
    Digestible runtime channel payload := by
  intro sessionId named session
  rw [validateExecutionEvent_of_session named session] at answered
  constructor
  · intro raised
    rw [raised] at answered
    cases answered
  · intro event parsed
    rw [parsed] at answered
    by_contra undigested
    obtain ⟨exn, raised⟩ := validateFields_raises undigested
    exact nomatch answered.symm.trans raised

theorem answersEvent_of_digestible (digestible : Digestible runtime channel payload) :
    AnswersEvent runtime channel payload := by
  by_cases session : ∃ sessionId, channel.decode = executionEventChannelPrefix ++ sessionId ∧
      runtime.isUuid sessionId = true
  · obtain ⟨sessionId, named, session⟩ := session
    obtain ⟨finite, digested⟩ := digestible sessionId named session
    unfold AnswersEvent
    rw [validateExecutionEvent_of_session named session]
    -- Without an object there is no valid event, whatever the parser has done.
    have noEvent : (∀ event, runtime.loads payload.decode ≠ .ok (.object event)) →
        ∀ other event, (none : Option (String × List (String × JsonValue))) = some (other, event) ↔
          ValidEvent runtime channel payload other event :=
      fun absent other event => ⟨nofun, fun valid => absurd valid.payload (absent event)⟩
    cases parsed : runtime.loads payload.decode with
    | error exn =>
        refine ⟨none, ?_, noEvent fun event same => nomatch parsed.symm.trans same⟩
        cases exn with
        | valueError => rfl
        | typeError => rfl
        | recursionError => exact absurd parsed finite
    | ok value =>
        cases value with
        | object event =>
            obtain ⟨hashable, textual⟩ := digested event parsed
            obtain ⟨answer, answered, found⟩ := validateFields_object hashable textual
            refine ⟨answer, answered, fun other fields => (found other fields).trans ?_⟩
            constructor
            · rintro ⟨⟨rfl, rfl⟩, type, bound, execution⟩
              exact ⟨named, session, parsed, type, bound, execution⟩
            · intro valid
              obtain rfl := valid.unique named
              obtain rfl := JsonValue.object.inj (Except.ok.inj (parsed.symm.trans valid.payload))
              exact ⟨⟨rfl, rfl⟩, valid.type, valid.bound, valid.execution⟩
        | null => exact ⟨none, rfl, noEvent fun event same => nomatch parsed.symm.trans same⟩
        | bool _ => exact ⟨none, rfl, noEvent fun event same => nomatch parsed.symm.trans same⟩
        | number _ => exact ⟨none, rfl, noEvent fun event same => nomatch parsed.symm.trans same⟩
        | string _ => exact ⟨none, rfl, noEvent fun event same => nomatch parsed.symm.trans same⟩
        | array _ => exact ⟨none, rfl, noEvent fun event same => nomatch parsed.symm.trans same⟩
  · exact answersEvent_of_no_session fun sessionId named =>
      Bool.eq_false_iff.mpr fun accepted => session ⟨sessionId, named, accepted⟩

end Validation

/-- **A message is survived** and answered with its valid event or none if and only
if it is digestible. -/
theorem answersEvent_iff_digestible (runtime : EventRuntime) (channel payload : Message) :
    AnswersEvent runtime channel payload ↔ Digestible runtime channel payload :=
  ⟨fun ⟨_, answered, _⟩ => digestible_of_answer answered, answersEvent_of_digestible⟩

/-! ### The relay -/

/-- The messages of a subscription in `run_execution_event_relay`: the events for the
rooms. The handlers of the relay take connection errors only. -/
def relay (runtime : EventRuntime) :
    List (Message × Message) → Except EventExn (List (String × List (String × JsonValue)))
  | [] => pure []
  | (channel, payload) :: rest => do
      match ← validateExecutionEvent runtime channel payload with
      | none => relay runtime rest
      | some event =>
          let others ← relay runtime rest
          pure (event :: others)

/-- The relay survives exactly the digestible messages. -/
theorem relay_survives_iff (runtime : EventRuntime) (messages : List (Message × Message)) :
    (∃ events, relay runtime messages = .ok events) ↔
      ∀ message ∈ messages, Digestible runtime message.1 message.2 := by
  induction messages with
  | nil => exact ⟨fun _ => nofun, fun _ => ⟨[], rfl⟩⟩
  | cons message rest inductionHypothesis =>
      obtain ⟨channel, payload⟩ := message
      rw [List.forall_mem_cons, ← inductionHypothesis]
      constructor
      · rintro ⟨events, relayed⟩
        obtain ⟨answer, answered, relayed⟩ := Collaboration.bind_eq_ok relayed
        refine ⟨digestible_of_answer answered, ?_⟩
        cases answer with
        | none => exact ⟨events, relayed⟩
        | some event =>
            obtain ⟨others, relayed, _⟩ := Collaboration.bind_eq_ok relayed
            exact ⟨others, relayed⟩
      · rintro ⟨digestible, events, relayed⟩
        obtain ⟨answer, answered, _⟩ := answersEvent_of_digestible digestible
        unfold relay
        rw [answered]
        cases answer with
        | none => exact ⟨events, relayed⟩
        | some event =>
            refine ⟨event :: events, ?_⟩
            change (relay runtime rest >>= fun others => pure (event :: others)) = _
            rw [relayed]
            rfl

/-! ### A message that ends the relay -/

/-- A session and its UUID, an object whose type is a list, and no other text. -/
def sampleRuntime : EventRuntime where
  loads text :=
    if text = "untyped" then .ok (.object [("type", .array [])]) else .error .valueError
  isUuid text := text = "6f1c"
  str _ := some ""

/-- The type of an event is looked up in a set, which raises where the type is a
list. -/
theorem unhashable_type_escapes :
    ¬∀ runtime channel payload, AnswersEvent runtime channel payload := by
  intro answers
  obtain ⟨answer, answered, _⟩ := answers sampleRuntime
    (.text "concord:execution:events:6f1c") (.text "untyped")
  have raised : (validateExecutionEvent sampleRuntime (.text "concord:execution:events:6f1c")
      (.text "untyped")).toBool = false := by decide
  rw [answered] at raised
  cases raised

end Concord.Execution

import Mathlib.Logic.Relation
import Concord.Execution.Characters
import Concord.Execution.State

/-!
Contract: the output that is streamed while a program runs.

Owns:
- `streamOutput`, the events of `_stream_output` for what Docker sends;
- the queue between the thread that reads and the task that publishes;
- when the published text does not depend on the chunks.

Does not own: the relay of the events.
-/

set_option autoImplicit false

namespace Concord.Execution

open Asyncio

/-! ### The chunks -/

inductive OutputStream where
  | stdout
  | stderr
  deriving DecidableEq, Repr

/-- What `container.attach` yields with `demux`. -/
structure Demuxed where
  stdout : Option (List UInt8)
  stderr : Option (List UInt8)

/-- A chunk of a stream in the queue. -/
abbrev StreamItem := OutputStream × List UInt8

/-- The chunks that `produce` puts into the queue, `if chunk`. -/
def Demuxed.items (demuxed : Demuxed) : List StreamItem :=
  [(OutputStream.stdout, demuxed.stdout), (.stderr, demuxed.stderr)].filterMap fun (stream, chunk) =>
    match chunk with
    | none | some [] => none
    | some bytes => some (stream, bytes)

def Demuxed.bytes (stream : OutputStream) (demuxed : Demuxed) : List UInt8 :=
  match stream with
  | .stdout => demuxed.stdout.getD []
  | .stderr => demuxed.stderr.getD []

def streamBytes (stream : OutputStream) (chunks : List Demuxed) : List UInt8 :=
  chunks.flatMap (·.bytes stream)

/-! ### The loop -/

structure OutputEvent where
  executionId : ExecutionId
  sessionId : Nat
  stream : OutputStream
  data : String
  status : ExecutionStatus
  deriving DecidableEq

/-- The variables of `_stream_output`, with the events that it has published. -/
structure Streaming where
  emitted : OutputStream → Nat
  truncated : OutputStream → Bool
  published : List OutputEvent

def publishOutput (executionId : ExecutionId) (row : ExecutionRow) (stream : OutputStream)
    (data : String) (streaming : Streaming) : Streaming :=
  { streaming with
    published := streaming.published ++ [⟨executionId, row.sessionId, stream, data, .running⟩] }

/-- The text that follows a stream that was cut. -/
def truncatedText : String := "\n[output truncated]\n"

def streamChunk (limit : Nat) (executionId : ExecutionId) (row : ExecutionRow)
    (streaming : Streaming) (item : StreamItem) : Streaming :=
  let (stream, chunk) := item
  let remaining := limit - streaming.emitted stream
  let accepted := chunk.take remaining
  let sent :=
    if accepted = [] then streaming
    else publishOutput executionId row stream (decodeReplacing accepted) { streaming with
      emitted := Function.update streaming.emitted stream
        (streaming.emitted stream + accepted.length) }
  if remaining < chunk.length ∧ !sent.truncated stream then
    publishOutput executionId row stream truncatedText { sent with
      truncated := Function.update sent.truncated stream true }
  else sent

def Streaming.start : Streaming := ⟨fun _ => 0, fun _ => false, []⟩

/-- `_stream_output`: the events for what Docker sends. -/
def streamOutput (limit : Nat) (executionId : ExecutionId) (row : ExecutionRow)
    (chunks : List Demuxed) : List OutputEvent :=
  ((chunks.flatMap Demuxed.items).foldl (streamChunk limit executionId row) .start).published

/-! ### The queue -/

/-- `asyncio.Queue(maxsize=32)`. -/
def queueSize : Nat := 32

/-- The thread that reads from Docker, the queue, and the task that publishes. The
thread puts an end into the queue at last. -/
structure Pipeline where
  unread : List (Option StreamItem)
  queue : List (Option StreamItem)
  streaming : Streaming
  ended : Bool

/-- What `produce` puts into the queue. -/
def produced (chunks : List Demuxed) : List (Option StreamItem) :=
  (chunks.flatMap Demuxed.items).map some ++ [none]

def Pipeline.start (chunks : List Demuxed) : Pipeline := ⟨produced chunks, [], .start, false⟩

section Queue

variable {limit : Nat} {executionId : ExecutionId} {row : ExecutionRow}

/-- One step of the thread or of the task. The thread waits for room. -/
inductive PipelineStep (limit : Nat) (executionId : ExecutionId) (row : ExecutionRow) :
    Pipeline → Pipeline → Prop
  | put {item : Option StreamItem} {unread queue : List (Option StreamItem)} {streaming : Streaming}
      {ended : Bool} (room : queue.length < queueSize) :
      PipelineStep limit executionId row ⟨item :: unread, queue, streaming, ended⟩
        ⟨unread, queue ++ [item], streaming, ended⟩
  | get {item : StreamItem} {unread queue : List (Option StreamItem)} {streaming : Streaming} :
      PipelineStep limit executionId row ⟨unread, some item :: queue, streaming, false⟩
        ⟨unread, queue, streamChunk limit executionId row streaming item, false⟩
  | finish {unread queue : List (Option StreamItem)} {streaming : Streaming} :
      PipelineStep limit executionId row ⟨unread, none :: queue, streaming, false⟩
        ⟨unread, queue, streaming, true⟩

/-- The task has published what it has received, and the rest is on its way. -/
structure InOrder (limit : Nat) (executionId : ExecutionId) (row : ExecutionRow)
    (chunks : List Demuxed) (pipeline : Pipeline) : Prop where
  coming : pipeline.ended = false → ∃ received left,
    chunks.flatMap Demuxed.items = received ++ left ∧
      pipeline.queue ++ pipeline.unread = left.map some ++ [none] ∧
      pipeline.streaming = received.foldl (streamChunk limit executionId row) .start
  all : pipeline.ended = true →
    pipeline.streaming =
      (chunks.flatMap Demuxed.items).foldl (streamChunk limit executionId row) .start

private theorem inOrder_start (chunks : List Demuxed) :
    InOrder limit executionId row chunks (.start chunks) where
  coming := fun _ => ⟨[], _, rfl, rfl, rfl⟩
  all := nofun

theorem InOrder.step {chunks : List Demuxed} {pipeline next : Pipeline}
    (inOrder : InOrder limit executionId row chunks pipeline)
    (step : PipelineStep limit executionId row pipeline next) :
    InOrder limit executionId row chunks next := by
  cases step with
  | put room =>
      refine ⟨fun going => ?_, inOrder.all⟩
      obtain ⟨received, left, parts, coming, published⟩ := inOrder.coming going
      exact ⟨received, left, parts, by rw [← coming, List.append_assoc]; rfl, published⟩
  | get =>
      refine ⟨fun _ => ?_, nofun⟩
      obtain ⟨received, left, parts, coming, published⟩ := inOrder.coming rfl
      cases left with
      | nil => cases coming
      | cons item left =>
          rw [List.map_cons, List.cons_append, List.cons_append] at coming
          obtain ⟨same, rest⟩ := List.cons.inj coming
          obtain rfl := Option.some.inj same
          refine ⟨received ++ [_], left, by rw [parts, List.append_assoc]; rfl, rest, ?_⟩
          rw [List.foldl_append, ← published]
          rfl
  | finish =>
      refine ⟨nofun, fun _ => ?_⟩
      obtain ⟨received, left, parts, coming, published⟩ := inOrder.coming rfl
      cases left with
      | nil =>
          rw [parts, List.append_nil]
          exact published
      | cons item left => cases coming

private theorem inOrder_run {chunks : List Demuxed} {pipeline : Pipeline}
    (run : Relation.ReflTransGen (PipelineStep limit executionId row) (.start chunks) pipeline) :
    InOrder limit executionId row chunks pipeline := by
  induction run with
  | refl => exact inOrder_start chunks
  | tail _ step inductionHypothesis => exact inductionHypothesis.step step

/-- However the thread and the task take turns, the same events are published. -/
theorem published_of_run {chunks : List Demuxed} {pipeline : Pipeline}
    (run : Relation.ReflTransGen (PipelineStep limit executionId row) (.start chunks) pipeline)
    (ended : pipeline.ended = true) :
    pipeline.streaming.published = streamOutput limit executionId row chunks := by
  rw [(inOrder_run run).all ended]
  rfl

/-- The pipeline does not block before its end. -/
theorem exists_step_of_run {chunks : List Demuxed} {pipeline : Pipeline}
    (run : Relation.ReflTransGen (PipelineStep limit executionId row) (.start chunks) pipeline)
    (going : pipeline.ended = false) :
    ∃ next, PipelineStep limit executionId row pipeline next := by
  obtain ⟨received, left, _, coming, _⟩ := (inOrder_run run).coming going
  obtain ⟨unread, queue, streaming, ended⟩ := pipeline
  obtain rfl : ended = false := going
  match queue, unread with
  | some item :: queue, _ => exact ⟨_, .get⟩
  | none :: queue, _ => exact ⟨_, .finish⟩
  | [], item :: unread => exact ⟨_, .put (by decide)⟩
  | [], [] => cases left <;> cases coming

end Queue

/-! ### The text of a stream -/

/-- The data that was published for a stream, as one text. -/
def textOf (stream : OutputStream) (events : List OutputEvent) : String :=
  (events.filter (·.stream = stream)).foldr (fun event text => event.data ++ text) ""

/-- The first bytes of a stream as text, with the notice if there are more. -/
def limitedText (limit : Nat) (bytes : List UInt8) : String :=
  decodeReplacing (bytes.take limit) ++ if limit < bytes.length then truncatedText else ""

/-- Every chunk of a stream ends between two characters of the bytes within the
limit, or after them. -/
def CutsBetweenCharacters (limit : Nat) (stream : OutputStream) (chunks : List Demuxed) : Prop :=
  ∀ before after, chunks = before ++ after →
    StartsCharacter ((streamBytes stream chunks).take limit) (streamBytes stream before).length

section Views

variable {limit : Nat} {executionId : ExecutionId} {row : ExecutionRow}

/-- What the loop knows of one stream, and what it has published of it. -/
structure StreamView where
  remaining : Nat
  truncated : Bool
  text : String

def Streaming.view (limit : Nat) (stream : OutputStream) (streaming : Streaming) : StreamView :=
  ⟨limit - streaming.emitted stream, streaming.truncated stream, textOf stream streaming.published⟩

def StreamView.advance (view : StreamView) (chunk : List UInt8) : StreamView where
  remaining := view.remaining - chunk.length
  truncated := view.truncated || decide (view.remaining < chunk.length)
  text := view.text ++ decodeReplacing (chunk.take view.remaining) ++
    if view.remaining < chunk.length ∧ !view.truncated then truncatedText else ""

theorem textOf_append (stream : OutputStream) (events more : List OutputEvent) :
    textOf stream (events ++ more) = textOf stream events ++ textOf stream more := by
  unfold textOf
  rw [List.filter_append]
  induction events.filter (·.stream = stream) with
  | nil => rw [List.nil_append, List.foldr_nil, String.empty_append]
  | cons event rest inductionHypothesis =>
      rw [List.cons_append, List.foldr_cons, List.foldr_cons, inductionHypothesis, String.append_assoc]

private theorem view_publishOutput (stream : OutputStream) (data : String) (streaming : Streaming) :
    (publishOutput executionId row stream data streaming).view limit stream =
      { streaming.view limit stream with text := (streaming.view limit stream).text ++ data } := by
  unfold publishOutput Streaming.view
  rw [textOf_append]
  simp [textOf]

private theorem view_publishOutput_of_ne {stream other : OutputStream} (different : other ≠ stream)
    (data : String) (streaming : Streaming) :
    (publishOutput executionId row other data streaming).view limit stream =
      streaming.view limit stream := by
  unfold publishOutput Streaming.view
  rw [textOf_append]
  simp [textOf, different]

private theorem decodeReplacing_nil : decodeReplacing [] = "" := rfl

def acceptChunk (limit : Nat) (executionId : ExecutionId) (row : ExecutionRow)
    (streaming : Streaming) (stream : OutputStream) (chunk : List UInt8) : Streaming :=
  let accepted := chunk.take (limit - streaming.emitted stream)
  if accepted = [] then streaming
  else publishOutput executionId row stream (decodeReplacing accepted) { streaming with
    emitted := Function.update streaming.emitted stream (streaming.emitted stream + accepted.length) }

theorem streamChunk_eq (streaming : Streaming) (stream : OutputStream) (chunk : List UInt8) :
    streamChunk limit executionId row streaming (stream, chunk) =
      let sent := acceptChunk limit executionId row streaming stream chunk
      if limit - streaming.emitted stream < chunk.length ∧ !sent.truncated stream then
        publishOutput executionId row stream truncatedText { sent with
          truncated := Function.update sent.truncated stream true }
      else sent := rfl

private theorem view_acceptChunk (stream : OutputStream) (chunk : List UInt8)
    (streaming : Streaming) :
    (acceptChunk limit executionId row streaming stream chunk).view limit stream =
      let view := streaming.view limit stream
      ⟨view.remaining - chunk.length, view.truncated,
        view.text ++ decodeReplacing (chunk.take view.remaining)⟩ := by
  unfold acceptChunk
  dsimp only [Streaming.view]
  by_cases none : chunk.take (limit - streaming.emitted stream) = []
  · rw [if_pos none, none, decodeReplacing_nil, String.append_empty]
    rcases List.take_eq_nil_iff.mp none with full | rfl
    · rw [full, Nat.zero_sub]
    · rfl
  · rw [if_neg none]
    have view := @view_publishOutput limit executionId row stream
      (decodeReplacing (chunk.take (limit - streaming.emitted stream))) { streaming with
        emitted := Function.update streaming.emitted stream
          (streaming.emitted stream + (chunk.take (limit - streaming.emitted stream)).length) }
    refine view.trans ?_
    dsimp only [Streaming.view]
    rw [Function.update_self, List.length_take]
    congr 1
    omega

/-- A chunk advances its stream. -/
theorem view_streamChunk (stream : OutputStream) (chunk : List UInt8) (streaming : Streaming) :
    (streamChunk limit executionId row streaming (stream, chunk)).view limit stream =
      (streaming.view limit stream).advance chunk := by
  have accepted := @view_acceptChunk limit executionId row stream
    chunk streaming
  rw [streamChunk_eq]
  generalize acceptChunk limit executionId row streaming stream chunk = sent at accepted ⊢
  have same : sent.truncated stream = streaming.truncated stream :=
    congrArg StreamView.truncated accepted
  dsimp only
  rw [same]
  unfold StreamView.advance
  by_cases cut : limit - streaming.emitted stream < chunk.length
  · cases before : streaming.truncated stream with
    | false =>
        rw [if_pos ⟨cut, rfl⟩, view_publishOutput]
        have text := congrArg StreamView.text accepted
        have remaining := congrArg StreamView.remaining accepted
        dsimp only [Streaming.view] at text remaining ⊢
        rw [text, remaining, Function.update_self]
        simp [before, cut]
    | true =>
        rw [if_neg (fun both => Bool.noConfusion both.2), accepted]
        simp [Streaming.view, before]
  · rw [if_neg (fun both => cut both.1), accepted]
    simp [Streaming.view, cut]

/-- A chunk leaves the other stream as it is. -/
theorem view_streamChunk_of_ne {stream other : OutputStream} (different : other ≠ stream)
    (chunk : List UInt8) (streaming : Streaming) :
    (streamChunk limit executionId row streaming (other, chunk)).view limit stream =
      streaming.view limit stream := by
  have accepted : (acceptChunk limit executionId row streaming other chunk).view limit stream =
      streaming.view limit stream := by
    unfold acceptChunk
    dsimp only
    split
    · rfl
    · rw [view_publishOutput_of_ne different]
      unfold Streaming.view
      dsimp only
      rw [Function.update_of_ne different.symm]
  rw [streamChunk_eq]
  dsimp only
  split
  · rw [view_publishOutput_of_ne different]
    refine Eq.trans ?_ accepted
    unfold Streaming.view
    dsimp only
    rw [Function.update_of_ne different.symm]
  · exact accepted

private theorem streamChunk_nil (stream : OutputStream) (streaming : Streaming) :
    streamChunk limit executionId row streaming (stream, []) = streaming := by
  simp [streamChunk]

/-- The queue has the chunks of both streams, without the empty ones. -/
theorem foldl_items (demuxed : Demuxed) (streaming : Streaming) :
    demuxed.items.foldl (streamChunk limit executionId row) streaming =
      streamChunk limit executionId row
        (streamChunk limit executionId row streaming (.stdout, demuxed.bytes .stdout))
        (.stderr, demuxed.bytes .stderr) := by
  obtain ⟨stdout, stderr⟩ := demuxed
  rcases stdout with _ | _ | ⟨first, out⟩ <;> rcases stderr with _ | _ | ⟨other, err⟩ <;>
    simp [Demuxed.items, Demuxed.bytes, streamChunk_nil]

/-- The loop advances each stream by the chunks of this stream. -/
theorem view_streamOutput (stream : OutputStream) (chunks : List Demuxed) (streaming : Streaming) :
    ((chunks.flatMap Demuxed.items).foldl (streamChunk limit executionId row) streaming).view
        limit stream =
      (chunks.map (·.bytes stream)).foldl StreamView.advance (streaming.view limit stream) := by
  induction chunks generalizing streaming with
  | nil => rfl
  | cons demuxed rest inductionHypothesis =>
      rw [List.flatMap_cons, List.foldl_append, inductionHypothesis, foldl_items, List.map_cons,
        List.foldl_cons]
      cases stream with
      | stdout => rw [view_streamChunk_of_ne (by decide), view_streamChunk]
      | stderr => rw [view_streamChunk, view_streamChunk_of_ne (by decide)]

end Views

/-! ### The pieces that are decoded -/

def acceptedPieces : Nat → List (List UInt8) → List (List UInt8)
  | _, [] => []
  | remaining, chunk :: rest =>
      chunk.take remaining :: acceptedPieces (remaining - chunk.length) rest

private theorem length_acceptedPieces (remaining : Nat) (chunks : List (List UInt8)) :
    (acceptedPieces remaining chunks).length = chunks.length := by
  induction chunks generalizing remaining with
  | nil => rfl
  | cons chunk rest inductionHypothesis =>
      exact congrArg (· + 1) (inductionHypothesis (remaining - chunk.length))

private theorem flatten_acceptedPieces (remaining : Nat) (chunks : List (List UInt8)) :
    (acceptedPieces remaining chunks).flatten = chunks.flatten.take remaining := by
  induction chunks generalizing remaining with
  | nil => exact List.take_nil.symm
  | cons chunk rest inductionHypothesis =>
      rw [acceptedPieces, List.flatten_cons, List.flatten_cons, inductionHypothesis, List.take_append]

private theorem acceptedPieces_append (remaining : Nat) (before after : List (List UInt8)) :
    acceptedPieces remaining (before ++ after) =
      acceptedPieces remaining before ++ acceptedPieces (remaining - before.flatten.length) after := by
  induction before generalizing remaining with
  | nil => rfl
  | cons chunk rest inductionHypothesis =>
      rw [List.cons_append, acceptedPieces, inductionHypothesis, List.flatten_cons, List.length_append,
        Nat.sub_add_eq]
      rfl

private theorem characters_acceptedPieces_zero (chunks : List (List UInt8)) :
    (acceptedPieces 0 chunks).flatMap characters = [] := by
  induction chunks with
  | nil => rfl
  | cons chunk rest inductionHypothesis =>
      rw [acceptedPieces, List.flatMap_cons, List.take_zero, Nat.zero_sub, inductionHypothesis]
      rfl

/-- The text after some chunks: the accepted parts one by one, and the notice if
there was more. -/
theorem text_foldl_advance (chunks : List (List UInt8)) (view : StreamView)
    (full : view.truncated = true → view.remaining = 0) :
    (chunks.foldl StreamView.advance view).text =
      view.text ++ String.ofList ((acceptedPieces view.remaining chunks).flatMap characters) ++
        if view.remaining < chunks.flatten.length ∧ !view.truncated then truncatedText else "" := by
  induction chunks generalizing view with
  | nil => simp [acceptedPieces]
  | cons chunk rest inductionHypothesis =>
      have rest' := inductionHypothesis (view.advance chunk) (by
        unfold StreamView.advance
        intro cut
        rcases Bool.or_eq_true_iff.mp cut with before | now
        · dsimp only
          rw [full before, Nat.zero_sub]
        · exact Nat.sub_eq_zero_of_le (of_decide_eq_true now).le)
      rw [List.foldl_cons, rest', acceptedPieces, List.flatMap_cons, List.flatten_cons,
        List.length_append, String.ofList_append]
      unfold StreamView.advance
      dsimp only
      rw [decodeReplacing_eq]
      by_cases cut : view.remaining < chunk.length
      · have more : view.remaining < chunk.length + rest.flatten.length := by omega
        rw [Nat.sub_eq_zero_of_le cut.le, characters_acceptedPieces_zero]
        simp [cut, more, -List.length_flatten]
      · have same : view.remaining - chunk.length < rest.flatten.length ↔
            view.remaining < chunk.length + rest.flatten.length := by omega
        simp [cut, same, String.append_assoc, -List.length_flatten]

/-- The pieces start with characters if and only if the chunks do. -/
theorem cutsBetweenCharacters_iff (limit : Nat) (stream : OutputStream) (chunks : List Demuxed) :
    CutsBetweenCharacters limit stream chunks ↔
      ∀ before after, acceptedPieces limit (chunks.map (·.bytes stream)) = before ++ after →
        Reaches ((streamBytes stream chunks).take limit) after.flatten := by
  have split : ∀ front back : List Demuxed, chunks = front ++ back →
      acceptedPieces limit (chunks.map (·.bytes stream)) =
          acceptedPieces limit (front.map (·.bytes stream)) ++
            acceptedPieces (limit - (streamBytes stream front).length) (back.map (·.bytes stream)) ∧
        (acceptedPieces (limit - (streamBytes stream front).length)
          (back.map (·.bytes stream))).flatten =
            ((streamBytes stream chunks).take limit).drop (streamBytes stream front).length := by
    rintro front back rfl
    constructor
    · rw [List.map_append, acceptedPieces_append]
      rfl
    · rw [flatten_acceptedPieces, List.drop_take]
      unfold streamBytes
      rw [List.flatMap_append, List.drop_left]
      rfl
  constructor
  · intro cuts before after pieces
    have parts := (List.take_append_drop before.length chunks).symm
    obtain ⟨cut, rest⟩ := split _ _ parts
    have counts := congrArg List.length pieces
    rw [length_acceptedPieces, List.length_map, List.length_append] at counts
    have lengths : before.length = (acceptedPieces limit
        ((chunks.take before.length).map (·.bytes stream))).length := by
      rw [length_acceptedPieces, List.length_map, List.length_take]
      omega
    obtain ⟨_, same⟩ := List.append_inj (pieces.symm.trans cut) lengths
    rw [same, rest]
    exact cuts _ _ parts
  · intro reached front back parts
    obtain ⟨cut, rest⟩ := split front back parts
    unfold StartsCharacter
    rw [← rest]
    exact reached _ _ cut

/-- **The published text is the text of the stream** if and only if no chunk ends
inside a character. -/
theorem streamOutput_text_iff (limit : Nat) (executionId : ExecutionId) (row : ExecutionRow)
    (chunks : List Demuxed) (stream : OutputStream) :
    textOf stream (streamOutput limit executionId row chunks) =
        limitedText limit (streamBytes stream chunks) ↔
      CutsBetweenCharacters limit stream chunks := by
  have view := congrArg StreamView.text
    (@view_streamOutput limit executionId row stream chunks .start)
  have text := text_foldl_advance (chunks.map (·.bytes stream))
    (Streaming.start.view limit stream) (fun cut => by cases cut)
  have whole : (chunks.map (·.bytes stream)).flatten = streamBytes stream chunks :=
    (List.flatMap_def).symm
  have published : textOf stream (streamOutput limit executionId row chunks) =
      String.ofList ((acceptedPieces limit (chunks.map (·.bytes stream))).flatMap characters) ++
        if limit < (streamBytes stream chunks).length then truncatedText else "" := by
    refine (view.trans text).trans ?_
    rw [whole]
    simp [Streaming.view, Streaming.start, textOf]
  have pieces := flatten_acceptedPieces limit (chunks.map (·.bytes stream))
  rw [whole] at pieces
  have decoded := characters_flatten_iff (acceptedPieces limit (chunks.map (·.bytes stream)))
  rw [pieces] at decoded
  unfold limitedText
  rw [cutsBetweenCharacters_iff, ← decoded, published, decodeReplacing_eq]
  constructor
  · intro same
    have lists := congrArg String.toList same
    rw [String.toList_append, String.toList_append, String.toList_ofList, String.toList_ofList] at lists
    exact (List.append_cancel_right lists).symm
  · intro same
    rw [same]

/-- A character of two bytes in two chunks is published as two replacement
characters. -/
theorem split_character_streamed :
    ¬∀ limit executionId row chunks stream,
      textOf stream (streamOutput limit executionId row chunks) =
        limitedText limit (streamBytes stream chunks) := by
  intro same
  have two := same 1048576 0 ⟨0, .running, "", .python, none, none, none, none, none⟩
    [⟨some [0xC3], none⟩, ⟨some [0xA9], none⟩] .stdout
  exact absurd two (by decide +kernel)

end Concord.Execution

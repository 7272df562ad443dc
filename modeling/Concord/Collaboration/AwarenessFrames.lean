import Mathlib.Algebra.Order.BigOperators.Group.List
import Concord.Collaboration.AwarenessJoin
import Concord.Collaboration.StrictFrames

/-!
Contract: the awareness frames that the server emits.

Owns:
- `AwarenessRun`, the states of a store that is fed with parsed frames;
- when the frame of the active entries is one that `parse_message` accepts;
- two accepted frames after which it is not.

Does not own: to whom the frame is sent.
-/

set_option autoImplicit false

namespace Concord.Collaboration

open Asyncio Binary AwarenessStates

variable {P : Platform}

/-! ### The size of a frame -/

def varUintSize (value : Nat) : Nat := (digits128 value).length

def varStringSize (value : String) : Nat :=
  varUintSize (encodeText value).length + (encodeText value).length

def awarenessEntrySize (entry : AwarenessEntry P) : Nat :=
  varUintSize entry.clientId + varUintSize entry.clock + varStringSize entry.encodedState

def awarenessPayloadSize (entries : List (AwarenessEntry P)) : Nat :=
  varUintSize entries.length + (entries.map awarenessEntrySize).sum

def awarenessFrameSize (entries : List (AwarenessEntry P)) : Nat :=
  1 + varUintSize (awarenessPayloadSize entries) + awarenessPayloadSize entries

private theorem length_encodeVarUint {value : Nat} {bytes : List UInt8}
    (encoded : encodeVarUint value = .ok bytes) : bytes.length = varUintSize value := by
  unfold encodeVarUint at encoded
  split at encoded
  · cases encoded
  · obtain rfl := Except.ok.inj encoded
    rfl

private theorem length_encodeVarBytes {value bytes : List UInt8}
    (encoded : encodeVarBytes value = .ok bytes) :
    bytes.length = varUintSize value.length + value.length := by
  obtain ⟨header, encodedLength, joined⟩ := bind_eq_ok encoded
  obtain rfl := Except.ok.inj joined
  rw [List.length_append, length_encodeVarUint encodedLength]

private theorem length_encodeAwarenessEntry {entry : AwarenessEntry P} {bytes : List UInt8}
    (encoded : encodeAwarenessEntry entry = .ok bytes) : bytes.length = awarenessEntrySize entry := by
  obtain ⟨clientId, encodedId, encoded⟩ := bind_eq_ok encoded
  obtain ⟨clock, encodedClock, encoded⟩ := bind_eq_ok encoded
  obtain ⟨state, encodedState, encoded⟩ := bind_eq_ok encoded
  obtain rfl := Except.ok.inj encoded
  rw [List.length_append, List.length_append, length_encodeVarUint encodedId,
    length_encodeVarUint encodedClock, length_encodeVarBytes encodedState]
  rfl

private theorem length_flatten_encodings {entries : List (AwarenessEntry P)}
    {parts : List (List UInt8)}
    (encodings : List.Forall₂ (fun entry part => encodeAwarenessEntry entry = .ok part) entries parts) :
    parts.flatten.length = (entries.map awarenessEntrySize).sum := by
  induction encodings with
  | nil => rfl
  | cons head _ inductionHypothesis =>
      rw [List.flatten_cons, List.length_append, List.map_cons, List.sum_cons, inductionHypothesis,
        length_encodeAwarenessEntry head]

private theorem length_encodeAwarenessMessage {entries : List (AwarenessEntry P)}
    {frame : List UInt8}
    (encoded : encodeAwarenessMessage entries = .ok frame) :
    frame.length = awarenessFrameSize entries := by
  obtain ⟨payload, encodedEntries, encoded⟩ := bind_eq_ok encoded
  obtain ⟨header, encodedHeader, encoded⟩ := bind_eq_ok encoded
  obtain ⟨body, encodedBody, encoded⟩ := bind_eq_ok encoded
  obtain rfl := Except.ok.inj encoded
  obtain ⟨count, encodedCount, encoded⟩ := bind_eq_ok encodedEntries
  obtain ⟨parts, encodedParts, encoded⟩ := bind_eq_ok encoded
  obtain rfl := Except.ok.inj encoded
  have size : (count ++ parts.flatten).length = awarenessPayloadSize entries := by
    rw [List.length_append, length_encodeVarUint encodedCount,
      length_flatten_encodings (forall₂_of_mapM encodedParts)]
    rfl
  have one : header.length = 1 := by
    rw [length_encodeVarUint encodedHeader]
    unfold varUintSize
    rw [digits128_of_le (by decide)]
    rfl
  rw [List.length_append, one, length_encodeVarBytes encodedBody, size]
  unfold awarenessFrameSize
  omega

/-- Entries that have encodings have one together, unless there are too many bytes. -/
theorem encodeAwarenessMessage_of_entries {entries : List (AwarenessEntry P)}
    (each : ∀ entry ∈ entries, ∃ bytes, encodeAwarenessEntry entry = .ok bytes)
    (few : entries.length ≤ maxAwarenessEntries)
    (small : awarenessFrameSize entries ≤ maxMessageSize) :
    ∃ frame, encodeAwarenessMessage entries = .ok frame := by
  have loop : ∃ parts, entries.mapM encodeAwarenessEntry = .ok parts := by
    clear few small
    induction entries with
    | nil => exact ⟨[], rfl⟩
    | cons entry rest inductionHypothesis =>
        obtain ⟨bytes, encoded⟩ := each entry List.mem_cons_self
        obtain ⟨parts, encodedRest⟩ :=
          inductionHypothesis fun other member => each other (List.mem_cons_of_mem _ member)
        refine ⟨bytes :: parts, ?_⟩
        rw [List.mapM_cons, encoded, encodedRest]
        rfl
  obtain ⟨parts, encodedParts⟩ := loop
  have limits : maxAwarenessEntries ≤ maxSafeInteger ∧ maxMessageSize ≤ maxSafeInteger := by decide
  have count : encodeVarUint entries.length = .ok (digits128 entries.length) := by
    unfold encodeVarUint
    rw [if_neg (by omega)]
  have payload : encodeAwarenessEntries entries = .ok (digits128 entries.length ++ parts.flatten) := by
    unfold encodeAwarenessEntries
    rw [count, encodedParts]
    rfl
  have size : (digits128 entries.length ++ parts.flatten).length = awarenessPayloadSize entries := by
    rw [List.length_append, length_flatten_encodings (forall₂_of_mapM encodedParts)]
    rfl
  have body : encodeVarBytes (digits128 entries.length ++ parts.flatten) =
      .ok (digits128 (awarenessPayloadSize entries) ++ (digits128 entries.length ++ parts.flatten)) := by
    unfold encodeVarBytes encodeVarUint
    rw [size, if_neg (by unfold awarenessFrameSize at small; omega)]
    rfl
  refine ⟨[UInt8.ofNat messageAwareness] ++ (digits128 (awarenessPayloadSize entries) ++
    (digits128 entries.length ++ parts.flatten)), ?_⟩
  unfold encodeAwarenessMessage
  rw [payload]
  change (do
    let header ← encodeVarUint messageAwareness
    let body ← encodeVarBytes (digits128 entries.length ++ parts.flatten)
    pure (header ++ body)) = _
  rw [encodeVarUint_of_le (by decide), body]
  rfl

/-! ### The store -/

/-- The states of the store of a session. Frames that `parse_message` accepts come
from any connection, connections leave, stale states are pruned, and an empty room
is discarded. -/
inductive AwarenessRun (wire : Wire P) (raises : String → LoadsExn) : AwarenessStates P → Prop
  | start : AwarenessRun wire raises []
  | receive {states : AwarenessStates P} {frame : List UInt8} {entries : List (AwarenessEntry P)}
      (run : AwarenessRun wire raises states)
      (parsed : wire.parseFrame raises frame = .ok (.awareness entries)) (owner : TaskId)
      (timestamp : Nat) : AwarenessRun wire raises (applyUpdate owner timestamp entries states).1
  | leave {states : AwarenessStates P} (run : AwarenessRun wire raises states) (owner : TaskId)
      (timestamp : Nat) : AwarenessRun wire raises (removeOwner owner timestamp states).1
  | prune {states : AwarenessStates P} (run : AwarenessRun wire raises states) (timestamp : Nat) :
      AwarenessRun wire raises (pruneStale timestamp states).1
  | discard {states : AwarenessStates P} (run : AwarenessRun wire raises states) :
      AwarenessRun wire raises []

/-- The frame of the active entries is accepted, with exactly these entries. -/
def EmitsAccepted (wire : Wire P) (raises : String → LoadsExn) (states : AwarenessStates P) : Prop :=
  ∃ frame, encodeAwarenessMessage (activeEntries states) = .ok frame ∧
    wire.parseFrame raises frame = .ok (.awareness (activeEntries states))

/-- An entry of an accepted frame: it has an encoding, and its state is that of its
text. -/
def FromFrame (wire : Wire P) (entry : AwarenessEntry P) : Prop :=
  (∃ bytes, encodeAwarenessEntry entry = .ok bytes) ∧
    wire.loads entry.encodedState = some entry.state

section Run

variable {wire : Wire P} {raises : String → LoadsExn} {states : AwarenessStates P}

private theorem fromFrame_of_parseFrame {frame : List UInt8} {entries : List (AwarenessEntry P)}
    (parsed : wire.parseFrame raises frame = .ok (.awareness entries)) :
    ∀ entry ∈ entries, FromFrame wire entry := by
  intro entry member
  obtain ⟨left, decoded, _⟩ := decodeFrame_of_parseFrame parsed
  have accepted := decodeFrame_accepted decoded
  obtain ⟨again, encoded, _⟩ := accepted.shorter nofun
  obtain ⟨payload, encodedEntries, _⟩ := bind_eq_ok (Option.some.inj encoded)
  obtain ⟨count, _, encodedEntries⟩ := bind_eq_ok encodedEntries
  obtain ⟨parts, encodedParts, _⟩ := bind_eq_ok encodedEntries
  have encodings := forall₂_of_mapM encodedParts
  obtain ⟨index, inside, rfl⟩ := List.getElem_of_mem member
  have there : index < parts.length := encodings.length_eq ▸ inside
  exact ⟨⟨parts[index], encodings.get inside there⟩, (accepted.entries _ rfl).2 _ member⟩

theorem mem_put {stored other : StoredAwareness P} (states : AwarenessStates P)
    (member : other ∈ states.put stored) : other = stored ∨ other ∈ states := by
  induction states with
  | nil => exact .inl (List.mem_singleton.mp member)
  | cons current rest inductionHypothesis =>
      unfold put at member
      split at member
      · rcases List.mem_cons.mp member with rfl | later
        · exact .inl rfl
        · exact .inr (List.mem_cons_of_mem _ later)
      · rcases List.mem_cons.mp member with rfl | later
        · exact .inr List.mem_cons_self
        · exact (inductionHypothesis later).imp_right (List.mem_cons_of_mem _)

/-- `apply_update` stores states of its entries only. -/
theorem mem_applyUpdate {owner : TaskId} {timestamp : Nat} {stored : StoredAwareness P}
    (entries : List (AwarenessEntry P)) (states : AwarenessStates P)
    (member : stored ∈ (applyUpdate owner timestamp entries states).1) :
    stored.entry ∈ entries ∨ stored ∈ states := by
  induction entries generalizing states with
  | nil => exact .inr member
  | cons entry rest inductionHypothesis =>
      unfold applyUpdate at member
      split at member
      · rcases inductionHypothesis _ member with later | put
        · exact .inl (List.mem_cons_of_mem _ later)
        · rcases mem_put states put with rfl | earlier
          · exact .inl List.mem_cons_self
          · exact .inr earlier
      · exact (inductionHypothesis _ member).imp_left (List.mem_cons_of_mem _)

/-- A withdrawal keeps the active states that it does not remove. -/
theorem mem_of_active_withdraw {selected : StoredAwareness P → Bool} {timestamp : Nat}
    {stored : StoredAwareness P} (member : stored ∈ (withdraw selected timestamp states).1)
    (active : stored.entry.state.isSome) : stored ∈ states := by
  obtain ⟨earlier, present, rfl⟩ := mem_withdraw.mp member
  unfold withdrawn at active ⊢
  split at active
  · cases active
  · next stays =>
      rw [if_neg stays]
      exact present

/-- The active states of a run come from frames. -/
theorem AwarenessRun.fromFrame (run : AwarenessRun wire raises states) :
    ∀ stored ∈ states, stored.entry.state.isSome → FromFrame wire stored.entry := by
  induction run with
  | start => exact nofun
  | receive _ parsed owner timestamp inductionHypothesis =>
      intro stored member active
      rcases mem_applyUpdate _ _ member with new | old
      · exact fromFrame_of_parseFrame parsed _ new
      · exact inductionHypothesis stored old active
  | leave _ owner timestamp inductionHypothesis =>
      intro stored member active
      exact inductionHypothesis stored (mem_of_active_withdraw member active) active
  | prune _ timestamp inductionHypothesis =>
      intro stored member active
      exact inductionHypothesis stored (mem_of_active_withdraw member active) active
  | discard _ _ => exact nofun

/-- Entries of frames have an accepted frame together, within the limits. -/
theorem parseFrame_of_fromFrame {entries : List (AwarenessEntry P)}
    (each : ∀ entry ∈ entries, FromFrame wire entry) (few : entries.length ≤ maxAwarenessEntries)
    (small : awarenessFrameSize entries ≤ maxMessageSize) :
    ∃ frame, encodeAwarenessMessage entries = .ok frame ∧
      wire.parseFrame raises frame = .ok (.awareness entries) := by
  obtain ⟨frame, encoded⟩ := encodeAwarenessMessage_of_entries
    (fun entry member => (each entry member).1) few small
  have bound : frame.length ≤ maxMessageSize := by
    rw [length_encodeAwarenessMessage encoded]
    exact small
  have parsed := parseMessage_awareness few (fun entry member => (each entry member).2) encoded bound
  obtain ⟨read, answer, same⟩ := @parseFrame_of_parseMessage _ _ raises _ _ parsed
  cases read with
  | awareness others =>
      obtain rfl := ParsedMessage.awareness.inj same
      exact ⟨frame, encoded, answer⟩
  | sync _ _ => cases same
  | awarenessQuery => cases same
  | auth _ => cases same

/-- **The server emits an awareness frame that it would accept** if and only if the
active states are not too many and take not too many bytes. -/
theorem emitsAccepted_iff (run : AwarenessRun wire raises states) :
    EmitsAccepted wire raises states ↔ (activeEntries states).length ≤ maxAwarenessEntries ∧
      awarenessFrameSize (activeEntries states) ≤ maxMessageSize := by
  constructor
  · rintro ⟨frame, encoded, parsed⟩
    obtain ⟨left, decoded, small⟩ := decodeFrame_of_parseFrame parsed
    rw [length_encodeAwarenessMessage encoded] at small
    exact ⟨((decodeFrame_accepted decoded).entries _ rfl).1, small⟩
  · rintro ⟨few, small⟩
    refine parseFrame_of_fromFrame (fun entry member => ?_) few small
    obtain ⟨⟨stored, present, rfl⟩, active⟩ := mem_activeEntries.mp member
    exact run.fromFrame stored present active

end Run

/-! ### A crowded room -/

/-- The awareness states of some clients with consecutive ids. -/
def crowd (first count : Nat) : List (AwarenessEntry editLog) :=
  (List.range' first count).map fun clientId => ⟨clientId, 1, some (), "1"⟩

private theorem mem_crowd {first count : Nat} {entry : AwarenessEntry editLog} :
    entry ∈ crowd first count ↔
      first ≤ entry.clientId ∧ entry.clientId < first + count ∧
        entry = ⟨entry.clientId, 1, some (), "1"⟩ := by
  unfold crowd
  rw [List.mem_map]
  constructor
  · rintro ⟨clientId, member, rfl⟩
    obtain ⟨above, below⟩ := List.mem_range'_1.mp member
    exact ⟨above, below, rfl⟩
  · rintro ⟨above, below, same⟩
    exact ⟨entry.clientId, List.mem_range'_1.mpr ⟨above, below⟩, same.symm⟩

private theorem crowd_size {first count : Nat} (few : count ≤ maxAwarenessEntries)
    (small : first + count ≤ 20000) : awarenessFrameSize (crowd first count) ≤ maxMessageSize := by
  have text : varStringSize "1" = 2 := by
    have bytes : encodeText "1" = [49] := by decide
    unfold varStringSize varUintSize
    rw [bytes, digits128_of_le (by decide)]
    rfl
  have entry : ∀ size ∈ (crowd first count).map awarenessEntrySize, size ≤ 6 := by
    intro size member
    obtain ⟨entry, inCrowd, rfl⟩ := List.mem_map.mp member
    obtain ⟨_, below, same⟩ := mem_crowd.mp inCrowd
    have id : (digits128 entry.clientId).length ≤ 3 :=
      length_digits128_le (by decide) (by omega)
    have clock : (digits128 1).length = 1 := by rw [digits128_of_le (by decide)]; rfl
    rw [same]
    change (digits128 entry.clientId).length + (digits128 1).length + varStringSize "1" ≤ 6
    rw [text, clock]
    omega
  have length : (crowd first count).length = count := by
    unfold crowd
    rw [List.length_map, List.length_range']
  have sum := List.sum_le_card_nsmul _ 6 entry
  rw [List.length_map, length, Nat.nsmul_eq_mul] at sum
  have limit : maxAwarenessEntries = 10000 := rfl
  have number : (digits128 count).length ≤ 2 := length_digits128_le (by decide) (by omega)
  have payload : awarenessPayloadSize (crowd first count) ≤ 60002 := by
    unfold awarenessPayloadSize varUintSize
    rw [length]
    omega
  have header : (digits128 (awarenessPayloadSize (crowd first count))).length ≤ 3 :=
    length_digits128_le (by decide) (by omega)
  have maximum : maxMessageSize = 16777216 := rfl
  unfold awarenessFrameSize varUintSize
  omega

/-- A crowd within the limit has a frame that is accepted. -/
theorem crowd_parsed {first count : Nat} (few : count ≤ maxAwarenessEntries)
    (small : first + count ≤ 20000) (raises : String → LoadsExn) :
    ∃ frame, sampleWire.parseFrame raises frame = .ok (.awareness (crowd first count)) := by
  have each : ∀ entry ∈ crowd first count, FromFrame sampleWire entry := by
    intro entry member
    obtain ⟨_, below, same⟩ := mem_crowd.mp member
    have large : 20000 ≤ maxSafeInteger := by decide
    have clientId : encodeVarUint entry.clientId = .ok (digits128 entry.clientId) := by
      unfold encodeVarUint
      rw [if_neg (by omega)]
    have text : encodeVarString "1" = .ok [1, 49] := by
      have bytes : encodeText "1" = [49] := by decide
      unfold encodeVarString encodeVarBytes
      rw [bytes, encodeVarUint_of_le (by decide)]
      rfl
    rw [same]
    refine ⟨⟨digits128 entry.clientId ++ [1] ++ [1, 49], ?_⟩, rfl⟩
    change (do
      let clientId ← encodeVarUint entry.clientId
      let clock ← encodeVarUint 1
      let state ← encodeVarString "1"
      pure (clientId ++ clock ++ state)) = _
    rw [clientId, encodeVarUint_of_le (by decide), text]
    rfl
  have length : (crowd first count).length = count := by
    unfold crowd
    rw [List.length_map, List.length_range']
  obtain ⟨frame, _, parsed⟩ := @parseFrame_of_fromFrame _ _ raises _ each (length.symm ▸ few)
    (crowd_size few small)
  exact ⟨frame, parsed⟩

def twoCrowds (first second : Nat) : AwarenessStates editLog :=
  (applyBatches [⟨0, 0, crowd 0 first⟩, ⟨1, 0, crowd first second⟩] []).1

private theorem run_twoCrowds {first second : Nat} (raises : String → LoadsExn)
    (few : first ≤ maxAwarenessEntries) (few' : second ≤ maxAwarenessEntries) :
    AwarenessRun sampleWire raises (twoCrowds first second) := by
  have limit : maxAwarenessEntries = 10000 := rfl
  obtain ⟨frame, parsed⟩ := @crowd_parsed 0 _ few (by omega) raises
  obtain ⟨frame', parsed'⟩ := @crowd_parsed first _ few' (by omega) raises
  exact (AwarenessRun.start.receive parsed 0 0).receive parsed' 1 0

/-- Every client of two crowds is active. -/
theorem active_twoCrowds (first second : Nat) :
    first + second ≤ (activeEntries (twoCrowds first second)).length := by
  have nothing : ∀ clientId, Mirrors clientId (fun _ => False) ([] : AwarenessStates editLog) :=
    fun _ => .nothing rfl
  have present : List.range (first + second) ⊆
      (activeEntries (twoCrowds first second)).map (·.clientId) := by
    intro clientId member
    have below := List.mem_range.mp member
    have mirrors := (nothing clientId).applyBatches
      [⟨0, 0, crowd 0 first⟩, ⟨1, 0, crowd first second⟩]
    have told : ∃ batch ∈ [(⟨0, 0, crowd 0 first⟩ : Batch editLog), ⟨1, 0, crowd first second⟩],
        (⟨clientId, 1, some (), "1"⟩ : AwarenessEntry editLog) ∈ batch.entries := by
      by_cases early : clientId < first
      · exact ⟨_, List.mem_cons_self, mem_crowd.mpr ⟨Nat.zero_le _, by change clientId < 0 + first; omega, rfl⟩⟩
      · exact ⟨_, List.mem_cons_of_mem _ List.mem_cons_self,
          mem_crowd.mpr ⟨Nat.le_of_not_lt early, below, rfl⟩⟩
    have higher := mirrors.highest _ (.inr told) rfl
    cases found : (twoCrowds first second).lookup clientId with
    | none =>
        unfold twoCrowds at found
        rw [found] at higher
        have impossible : 2 * 1 + 0 ≤ 1 := higher
        omega
    | some stored =>
        obtain ⟨there, own⟩ := mem_of_lookup found
        rcases mirrors.came stored found with impossible | ⟨batch, chosen, heard⟩
        · exact impossible.elim
        · have active : stored.entry.state = some () := by
            rcases List.mem_cons.mp chosen with rfl | chosen
            · rw [(mem_crowd.mp heard).2.2]
            · obtain rfl := List.mem_singleton.mp chosen
              rw [(mem_crowd.mp heard).2.2]
          exact List.mem_map.mpr
            ⟨stored.entry, mem_activeEntries.mpr ⟨⟨stored, there, rfl⟩, by rw [active]; rfl⟩, own⟩
  have fits := ((List.nodup_range).subperm present).length_le
  rw [List.length_range, List.length_map] at fits
  exact fits

theorem emitsAccepted_iff_twoCrowds :
    EmitsAccepted sampleWire (fun _ => .valueError) (twoCrowds 1 1) ↔
      (activeEntries (twoCrowds 1 1)).length ≤ maxAwarenessEntries ∧
        awarenessFrameSize (activeEntries (twoCrowds 1 1)) ≤ maxMessageSize :=
  emitsAccepted_iff (run_twoCrowds _ (by decide) (by decide))

/-- Two messages of 10000 and of one client are accepted, and fill the store with more
states than one message may carry. -/
theorem crowded_frame_refused :
    ¬∀ (wire : Wire editLog) raises states, AwarenessRun wire raises states →
      EmitsAccepted wire raises states := by
  intro emits
  obtain ⟨frame, encoded, parsed⟩ := emits sampleWire (fun _ => .valueError) (twoCrowds 10000 1)
    (run_twoCrowds _ (by decide) (by decide))
  obtain ⟨left, decoded, _⟩ := decodeFrame_of_parseFrame parsed
  have few := ((decodeFrame_accepted decoded).entries _ rfl).1
  have many := active_twoCrowds 10000 1
  have limit : maxAwarenessEntries = 10000 := rfl
  omega

end Concord.Collaboration

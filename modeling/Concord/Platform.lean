import Mathlib.Order.Lattice
import Mathlib.Order.Lattice.Nat
import Mathlib.Order.BoundedOrder.Basic
import Mathlib.Data.Finset.Lattice.Basic
import Mathlib.Data.Finset.Max
import Mathlib.Data.Finset.Range

/-!
Contract: what the backend takes from its libraries and from the outside world.

Owns:
- `Platform`, the CRDT library, the digest and the size limits, with the laws
  the code relies on;
- `Event`, `Call` and `Exn`, the answers, awaited operations and exceptions;
- `editLog`, a small concrete platform of insertions and deletions.

Does not own: any behaviour of the backend itself.
-/

set_option autoImplicit false

namespace Concord

/-- The libraries under the backend.

`Doc` is the CRDT state of a `pycrdt.Doc`, ordered by containment; applying an
update joins its content. `decode` gives the content of update bytes, or none
where `Doc.apply_update` raises. The random client identifier of a document
names its local edits. -/
structure Platform : Type 1 where
  Bytes : Type
  Doc : Type
  docLattice : SemilatticeSup Doc
  docBottom : OrderBot Doc
  Hash : Type
  hashEq : DecidableEq Hash
  /-- A JSON value that is not `null`. -/
  Json : Type
  decode : Bytes → Option Doc
  getUpdate : Doc → Bytes
  getState : Doc → Bytes
  /-- `Doc.get_update(state_vector)`, or none where it raises. -/
  getUpdateSince : Doc → Bytes → Option Bytes
  text : Doc → String
  clear : Nat → Doc → Doc
  insert : Nat → Doc → Nat → String → Doc
  size : Bytes → Nat
  stateHash : Bytes → Hash
  crdtMaxUpdateBytes : Nat
  decode_getUpdate : ∀ doc, decode (getUpdate doc) = some doc
  getUpdateSince_getState : ∀ doc peer, ∃ update content,
    getUpdateSince doc (getState peer) = some update ∧ 0 < size update ∧
      decode update = some content ∧ doc ≤ peer ⊔ content
  le_clear : ∀ client doc, doc ≤ clear client doc
  le_insert : ∀ client doc index string, doc ≤ insert client doc index string

attribute [instance] Platform.docLattice Platform.docBottom Platform.hashEq

/-- One client state of a Yjs awareness update; no state is JSON `null`. -/
structure AwarenessEntry (P : Platform) where
  clientId : Nat
  clock : Nat
  state : Option P.Json
  encodedState : String

inductive SyncSubtype where
  | step1
  | step2
  | update
  deriving DecidableEq

inductive ParsedMessage (P : Platform) where
  | sync (subtype : SyncSubtype) (payload : P.Bytes)
  | awareness (entries : List (AwarenessEntry P))
  | awarenessQuery
  | auth (reason : String)

/-- What `websocket.receive()` returns. A binary frame is kept as the result of
`parse_message` on it, none for a `ProtocolError`. -/
inductive Incoming (P : Platform) where
  | disconnect
  | bytes (message : Option (ParsedMessage P))
  | text

/-- How an awaited operation ends: it returns, it raises without effect, or it
raises although it took effect. `websocket.receive()` returns a message. -/
inductive Event (P : Platform) where
  | done
  | raised
  | raisedAfter
  | received (message : Incoming P)

/-- The awaited operations. A send has the task that awaits it and the connection
that it sends to. -/
inductive Call where
  | roomLock
  | sessionGuard
  | selectState
  | checkpointGet
  | checkpointSet
  | saveExecute
  | saveCommit
  | databaseRead
  | databaseCommit
  | databaseRefresh
  | accept
  | receive
  | sendBytes (sender recipient : Nat)
  | close
  deriving DecidableEq

/-- The expected failures of the session service. -/
inductive SessionServiceError where
  | resourceNotFound
  | conflict
  | inactive
  deriving DecidableEq

/-- The exceptions of the backend. `driver` stands for what a database, Redis or
transport call raises. -/
inductive Exn where
  | httpException (statusCode : Nat) (detail : String)
  | sessionService (kind : SessionServiceError) (message : String)
  | snapshotNotFound (message : String)
  | webSocketAuth (code : Nat) (reason : String)
  | runtime (message : String)
  | key
  | invalidUpdate
  | driver
  deriving DecidableEq

namespace Platform

variable (P : Platform)

/-- `DocumentManager._new_doc`: a document with an empty text. -/
def newDoc : P.Doc := ⊥

variable {P}

/-- The CRDT state in optional update bytes; nothing where there are none or
they do not decode. -/
def content (bytes : Option P.Bytes) : P.Doc := (bytes.bind P.decode).getD ⊥

@[simp] theorem content_none : content (none : Option P.Bytes) = ⊥ := rfl

@[simp] theorem content_getUpdate (doc : P.Doc) : content (some (P.getUpdate doc)) = doc := by
  simp [content, P.decode_getUpdate]

/-- `Doc.apply_update` where its exception is logged and dropped. -/
def applyStored (doc : P.Doc) (bytes : Option P.Bytes) : P.Doc :=
  match bytes.bind P.decode with
  | none => doc
  | some change => doc ⊔ change

theorem applyStored_eq (doc : P.Doc) (bytes : Option P.Bytes) :
    applyStored doc bytes = doc ⊔ content bytes := by
  unfold applyStored content
  cases bytes.bind P.decode with
  | none => simp
  | some change => rfl

end Platform

/-! ### A concrete platform -/

/-- Documents as sets of edits. An even edit inserts one character, and the edit
after it deletes that character. A state vector is the whole set. -/
@[reducible] def editLog : Platform where
  Bytes := Option (Finset Nat)
  Doc := Finset Nat
  docLattice := inferInstance
  docBottom := inferInstance
  Hash := Option (Finset Nat)
  hashEq := inferInstance
  Json := Unit
  decode bytes := bytes
  getUpdate doc := some doc
  getState doc := some doc
  getUpdateSince doc stateVector := stateVector.map fun peer => some (doc \ peer)
  text doc := String.ofList
    (List.replicate (doc.filter fun edit => edit % 2 = 0 ∧ edit + 1 ∉ doc).card 'x')
  clear _ doc := doc ∪ (doc.filter (· % 2 = 0)).image (· + 1)
  insert client doc _ string := doc ∪
    (Finset.range string.length).image fun offset => 2 * (client + offset + doc.sup id + 1)
  size bytes := (bytes.getD ∅).card + 1
  stateHash bytes := bytes
  crdtMaxUpdateBytes := 1000
  decode_getUpdate _ := rfl
  getUpdateSince_getState doc peer := by
    refine ⟨some (doc \ peer), doc \ peer, rfl, Nat.succ_pos _, rfl, ?_⟩
    intro edit member
    by_cases known : edit ∈ peer
    · exact Finset.mem_union_left _ known
    · exact Finset.mem_union_right _ (Finset.mem_sdiff.mpr ⟨member, known⟩)
  le_clear _ doc := Finset.subset_union_left
  le_insert _ doc _ _ := Finset.subset_union_left

end Concord

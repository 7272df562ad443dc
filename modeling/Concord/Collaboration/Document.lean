import Mathlib.Tactic.Simps.Basic
import Concord.Asyncio.Pool
import Concord.Platform

/-!
Contract: `DocumentManager`, restricted to one session.

Owns:
- the entries of its dictionaries for the session, the row and the Redis key it
  writes, and the objects these dictionaries refer to;
- its synchronous methods as functions and its `async` methods as coroutines.

The dictionaries `_docs` and `_metadata` are always written together, so one
reference stands for both objects. A reference stays valid after the document
is dropped, as a Python object does while a coroutine holds it.

Five fields are history: the states that a write has stored, the same writes
with the store and the document in memory, the results of the saves, the
documents that were dropped, and how often `get_or_create` met no document. No
method reads them.

Does not own: who calls the manager. Key expiry in Redis is left out.
-/

set_option autoImplicit false

namespace Concord.Collaboration

open Asyncio

abbrev Ref := Nat

abbrev GuardId := Nat

/-- `_StoredDocument`: `Session.yjs_state` and `Session.updated_at`. -/
structure StoredDocument (P : Platform) where
  state : Option P.Bytes
  savedAt : Option Nat

structure DocumentMetadata (P : Platform) where
  generation : Nat
  checkpointedGeneration : Option Nat
  savedStateVector : P.Bytes
  savedStateHash : P.Hash
  savedAt : Option Nat

/-- How a document came into memory. A loaded document records what the two
stores held at that step, and whether Redis could be read. -/
inductive Origin (P : Platform) where
  | created
  | loaded (saved checkpoint : Option P.Bytes) (readable : Bool)

structure LiveDocument (P : Platform) where
  doc : P.Doc
  metadata : DocumentMetadata P
  origin : Origin P

/-- `_SessionGuard`: the task that holds its lock, and its user count. -/
structure SessionGuard where
  owner : Option TaskId
  users : Nat

/-- `_guards` of the session, with every guard object ever made. -/
structure GuardRegistry where
  current : Option GuardId
  guard : GuardId → SessionGuard
  nextGuard : GuardId

/-- `guard.users` of the current guard, if there is one. -/
def GuardRegistry.users (registry : GuardRegistry) : Nat :=
  match registry.current with
  | none => 0
  | some id => (registry.guard id).users

/-- A document that was dropped from memory, with both stores at that step. -/
structure Eviction (P : Platform) where
  document : LiveDocument P
  saved : Option P.Bytes
  checkpoint : Option P.Bytes

structure DocumentSaveResult (P : Platform) where
  sizeBytes : Nat
  savedAt : Nat
  stateVector : P.Bytes
  stateHash : P.Hash
  dirty : Bool

inductive Storage where
  | postgresql
  | redis
  deriving DecidableEq

/-- A write that took effect, with the document in memory at that step. -/
structure StorageWrite (P : Platform) where
  storage : Storage
  document : Option Ref
  state : P.Bytes

/-- A save that returned, with PostgreSQL and the saved document at that step. -/
structure SaveReturn (P : Platform) where
  result : DocumentSaveResult P
  saved : StoredDocument P
  document : P.Doc

/-- The document manager and its two stores, for one session. -/
structure DocStore (P : Platform) where
  sessionId : String
  docs : Option Ref
  live : Ref → LiveDocument P
  nextRef : Ref
  registry : GuardRegistry
  loading : Bool
  saved : StoredDocument P
  checkpoint : Option P.Bytes
  clock : Nat
  stored : List P.Doc
  writes : List (StorageWrite P)
  returned : List (SaveReturn P)
  evicted : List (Eviction P)
  unloadedAccesses : Nat

structure DocumentStatus (P : Platform) where
  savedStateVector : P.Bytes
  savedStateHash : P.Hash
  savedAt : Option Nat
  dirty : Bool
  generation : Nat
  checkpointedGeneration : Option Nat

/-- An `async` method of the manager. -/
abbrev Program (P : Platform) := Coroutine (DocStore P) (Event P) Call Exn

open Platform

variable {P : Platform} {α : Type}

namespace DocStore

def document (store : DocStore P) : Option (LiveDocument P) := store.docs.map store.live

def savedContent (store : DocStore P) : P.Doc := content store.saved.state

def checkpointContent (store : DocStore P) : P.Doc := content store.checkpoint

/-- What the two stores hold together. -/
def cover (store : DocStore P) : P.Doc := store.savedContent ⊔ store.checkpointContent

/-! ### The session guard -/

/-- A change of `_guards` only. -/
@[simps] def withRegistry (registry : GuardRegistry) (store : DocStore P) : DocStore P :=
  { store with registry := registry }

/-- Entry of `_serialized`: `setdefault` and the user count. -/
def enterGuard (store : DocStore P) : GuardId × DocStore P :=
  let registry := store.registry
  match registry.current with
  | some id =>
      let entered := { registry.guard id with users := (registry.guard id).users + 1 }
      (id, store.withRegistry
        { registry with guard := Function.update registry.guard id entered })
  | none =>
      let id := registry.nextGuard
      (id, store.withRegistry {
        current := some id
        guard := Function.update registry.guard id ⟨none, 1⟩
        nextGuard := id + 1 })

/-- `async with guard.lock`: possible once the lock is free. -/
def acquireGuard (id : GuardId) (task : TaskId) (store : DocStore P) :
    Option (Unit × DocStore P) :=
  let registry := store.registry
  match (registry.guard id).owner with
  | some _ => none
  | none =>
      let held := { registry.guard id with owner := some task }
      some ((), store.withRegistry
        { registry with guard := Function.update registry.guard id held })

/-- The end of `async with guard.lock`. -/
def releaseGuard (id : GuardId) (store : DocStore P) : DocStore P :=
  let registry := store.registry
  let free := { registry.guard id with owner := none }
  store.withRegistry { registry with guard := Function.update registry.guard id free }

/-- The `finally` of `_serialized`: an idle guard without a document retires. -/
def leaveGuard (id : GuardId) (store : DocStore P) : DocStore P :=
  let registry := store.registry
  let users := (registry.guard id).users - 1
  let left := { registry.guard id with users := users }
  store.withRegistry { registry with
    guard := Function.update registry.guard id left
    current := if users = 0 ∧ store.docs = none ∧ registry.current = some id then none
      else registry.current }

/-! ### Synchronous methods -/

/-- Put a document into `_docs` and `_metadata`. -/
@[simps] def publish (live : LiveDocument P) (store : DocStore P) : DocStore P :=
  { store with
    docs := some store.nextRef
    live := Function.update store.live store.nextRef live
    nextRef := store.nextRef + 1 }

/-- What `_publish_new_doc` puts into memory for a new document. -/
def createdDocument (P : Platform) : LiveDocument P where
  doc := P.newDoc
  metadata := {
    generation := 0
    checkpointedGeneration := none
    savedStateVector := P.getState P.newDoc
    savedStateHash := P.stateHash (P.getUpdate P.newDoc)
    savedAt := none }
  origin := .created

/-- History: `get_or_create` met no document. -/
@[simps] def countAccess (store : DocStore P) : DocStore P :=
  { store with unloadedAccesses := store.unloadedAccesses + 1 }

def getOrCreate (store : DocStore P) : Except Exn Ref × DocStore P :=
  match store.docs with
  | some ref => (.ok ref, store)
  | none =>
      if store.loading then
        (.error (.runtime ("Document for session " ++ store.sessionId ++ " is still loading")),
          store.countAccess)
      else
        (.ok store.nextRef, store.countAccess.publish (createdDocument P))

@[simps] def edit (ref : Ref) (change : P.Doc → P.Doc) (store : DocStore P) : DocStore P :=
  { store with live := Function.update store.live ref {
      doc := change (store.live ref).doc
      metadata := { (store.live ref).metadata with
        generation := (store.live ref).metadata.generation + 1 }
      origin := (store.live ref).origin } }

def applyUpdate (update : P.Bytes) (store : DocStore P) : Except Exn Unit × DocStore P :=
  match store.getOrCreate with
  | (.error exn, store) => (.error exn, store)
  | (.ok ref, store) =>
      match P.decode update with
      | none => (.error .invalidUpdate, store)
      | some change => (.ok (), store.edit ref (· ⊔ change))

def readText (store : DocStore P) : String :=
  match store.document with
  | none => ""
  | some live => P.text live.doc

def getStateVector (store : DocStore P) : Except Exn P.Bytes × DocStore P :=
  match store.getOrCreate with
  | (.error exn, store) => (.error exn, store)
  | (.ok ref, store) => (.ok (P.getState (store.live ref).doc), store)

def encodeStateAsUpdate (stateVector : Option P.Bytes) (store : DocStore P) :
    Except Exn P.Bytes × DocStore P :=
  match store.getOrCreate with
  | (.error exn, store) => (.error exn, store)
  | (.ok ref, store) =>
      match stateVector with
      | none => (.ok (P.getUpdate (store.live ref).doc), store)
      | some peer =>
          match P.getUpdateSince (store.live ref).doc peer with
          | none => (.error .invalidUpdate, store)
          | some update => (.ok update, store)

/-- The edit of `restore_text_from_state` on the live text. -/
def replaceText (client : Nat) (desiredText : String) (doc : P.Doc) : P.Doc :=
  let cleared := P.clear client doc
  if desiredText = "" then cleared else P.insert client cleared 0 desiredText

def restoreTextFromState (state : P.Bytes) (store : DocStore P) :
    Except Exn P.Bytes × DocStore P :=
  match P.decode state with
  | none => (.error .invalidUpdate, store)
  | some snapshot =>
      let desiredText := P.text (P.newDoc ⊔ snapshot)
      match store.getOrCreate with
      | (.error exn, store) => (.error exn, store)
      | (.ok ref, store) =>
          let before := P.getState (store.live ref).doc
          let store :=
            if P.text (store.live ref).doc = desiredText then store
            else store.edit ref (replaceText ref desiredText)
          match P.getUpdateSince (store.live ref).doc before with
          | none => (.error .invalidUpdate, store)
          | some update => (.ok update, store)

/-- Whether a document differs from the state that was last saved. -/
def isDirty (live : LiveDocument P) : Bool :=
  P.stateHash (P.getUpdate live.doc) ≠ live.metadata.savedStateHash

def getDocumentStatus (store : DocStore P) : Option (DocumentStatus P) :=
  store.document.map fun live => {
    savedStateVector := live.metadata.savedStateVector
    savedStateHash := live.metadata.savedStateHash
    savedAt := live.metadata.savedAt
    dirty := isDirty live
    generation := live.metadata.generation
    checkpointedGeneration := live.metadata.checkpointedGeneration }

/-- Take the document out of `_docs` and `_metadata`. -/
def dropDoc (store : DocStore P) : DocStore P :=
  match store.docs with
  | none => store
  | some ref => { store with
      docs := none
      evicted := ⟨store.live ref, store.saved.state, store.checkpoint⟩ :: store.evicted }

def removeDoc (store : DocStore P) : Bool × DocStore P :=
  match store.docs with
  | none => (true, store)
  | some ref =>
      let metadata := (store.live ref).metadata
      if metadata.checkpointedGeneration ≠ some metadata.generation then (false, store)
      else if store.registry.users ≠ 0 then (false, store)
      else
        (true, store.dropDoc.withRegistry { store.registry with current := none })

/-! ### The steps of the storage methods -/

/-- The write of a finished checkpoint into the metadata it was taken with. -/
@[simps] def setCheckpointed (ref : Ref) (generation : Nat) (store : DocStore P) : DocStore P :=
  { store with live := Function.update store.live ref { store.live ref with
      metadata := { (store.live ref).metadata with
        checkpointedGeneration := some generation } } }

/-- The effect of `redis.set` on the checkpoint key. -/
@[simps] def putCheckpoint (state : P.Bytes) (store : DocStore P) : DocStore P :=
  { store with
    checkpoint := some state
    stored := content (some state) :: store.stored
    writes := ⟨.redis, store.docs, state⟩ :: store.writes }

/-- The effect of the committed `UPDATE` of an explicit save. -/
@[simps] def putSaved (state : P.Bytes) (savedAt : Nat) (store : DocStore P) : DocStore P :=
  { store with
    saved := ⟨some state, some savedAt⟩
    stored := content (some state) :: store.stored
    writes := ⟨.postgresql, store.docs, state⟩ :: store.writes }

/-- The saved boundary that `_persist_to_db_locked` writes into the metadata. -/
@[simps] def setSaved (ref : Ref) (state stateVector : P.Bytes) (savedAt : Nat)
    (store : DocStore P) : DocStore P :=
  { store with live := Function.update store.live ref { store.live ref with
      metadata := { (store.live ref).metadata with
        savedStateVector := stateVector
        savedStateHash := P.stateHash state
        savedAt := some savedAt } } }

/-- History: a save of a document returns. -/
@[simps] def noteReturn (ref : Ref) (result : DocumentSaveResult P) (store : DocStore P) :
    DocStore P :=
  { store with returned := ⟨result, store.saved, (store.live ref).doc⟩ :: store.returned }

/-- The end of `_persist_to_db_locked`, after the commit. -/
def recordSave (ref : Ref) (state stateVector : P.Bytes) (savedAt : Nat) (store : DocStore P) :
    Except Exn (DocumentSaveResult P) × DocStore P :=
  match store.docs with
  | none => (.error .key, store)
  | some current =>
      let store := store.setSaved current state stateVector savedAt
      let result : DocumentSaveResult P := {
        sizeBytes := P.size state
        savedAt := savedAt
        stateVector := stateVector
        stateHash := P.stateHash state
        dirty := P.stateHash (P.getUpdate (store.live ref).doc) ≠ P.stateHash state }
      (.ok result, store.noteReturn ref result)

/-- `_loading_sessions` gains or loses the session. -/
@[simps] def setLoading (loading : Bool) (store : DocStore P) : DocStore P :=
  { store with loading := loading }

end DocStore

/-! ### Storage calls -/

/-- An awaited write: it takes effect unless it raises without effect. -/
def writeCall (call : Call) (effect : DocStore P → DocStore P) : Program P Unit :=
  Coroutine.awaitCall call fun event store =>
    match event with
    | .done => some (.ok (), effect store)
    | .raised => some (.error .driver, store)
    | .raisedAfter => some (.error .driver, effect store)
    | .received _ => none

def readCall (call : Call) (value : DocStore P → α) : Program P α :=
  Coroutine.awaitCall call fun event store =>
    match event with
    | .done => some (.ok (value store), store)
    | .raised | .raisedAfter => some (.error .driver, store)
    | .received _ => none

def loadDbState : Program P (StoredDocument P) := readCall .selectState DocStore.saved

/-- `redis.get` of the checkpoint key. -/
def redisGet : Program P (Option P.Bytes) := readCall .checkpointGet DocStore.checkpoint

/-- `redis.set` of the checkpoint key. -/
def redisSet (state : P.Bytes) : Program P Unit :=
  writeCall .checkpointSet (DocStore.putCheckpoint state)

/-- `db.execute` of the save: nothing is visible before the commit. -/
def saveExecute : Program P Unit := writeCall .saveExecute id

/-- `db.commit` of the save. -/
def saveCommit (state : P.Bytes) (savedAt : Nat) : Program P Unit :=
  writeCall .saveCommit (DocStore.putSaved state savedAt)

/-! ### Storage methods -/

def serialized (task : TaskId) (body : Program P α) : Program P α := do
  let id ← modifyGet DocStore.enterGuard
  Coroutine.tryFinally
    (do
      Coroutine.awaitUntil .sessionGuard (DocStore.acquireGuard id task)
      Coroutine.tryFinally body (modify (DocStore.releaseGuard id)))
    (modify (DocStore.leaveGuard id))

/-- What `_load_from_storage_locked` puts into memory. -/
def loadedDocument (stored : StoredDocument P) (checkpoint : Option P.Bytes) (readable : Bool)
    (store : DocStore P) : LiveDocument P :=
  let saved := applyStored P.newDoc stored.state
  { doc := applyStored saved checkpoint
    metadata := {
      generation := 0
      checkpointedGeneration := if (checkpoint.bind P.decode).isSome then some 0 else none
      savedStateVector := P.getState saved
      savedStateHash := P.stateHash (P.getUpdate saved)
      savedAt := if stored.state.isSome then stored.savedAt else none }
    origin := .loaded store.saved.state store.checkpoint readable }

def loadFromStorageLocked : Program P Ref := do
  match (← get).docs with
  | some existing => pure existing
  | none =>
      modify (DocStore.setLoading true)
      Coroutine.tryFinally
        (do
          let stored ← loadDbState
          let (checkpoint, readable) ← Coroutine.tryExcept
            (do pure (← redisGet, true))
            (fun _ => pure (none, false))
          modifyGet fun store =>
            (store.nextRef, store.publish (loadedDocument stored checkpoint readable store)))
        (modify (DocStore.setLoading false))

def loadFromStorage (task : TaskId) : Program P Ref := serialized task loadFromStorageLocked

def checkpointToRedisLocked : Program P Nat := do
  let store ← get
  match store.docs with
  | none => pure 0
  | some ref =>
      let state := P.getUpdate (store.live ref).doc
      let generation := (store.live ref).metadata.generation
      redisSet state
      modify (DocStore.setCheckpointed ref generation)
      pure (P.size state)

def checkpointToRedis (task : TaskId) : Program P Nat := serialized task checkpointToRedisLocked

def persistToDbLocked : Program P (DocumentSaveResult P) := do
  let ref ← match (← get).docs with
    | some ref => pure ref
    | none => loadFromStorageLocked
  let store ← get
  let state := P.getUpdate (store.live ref).doc
  let stateVector := P.getState (store.live ref).doc
  let savedAt := store.clock
  saveExecute
  saveCommit state savedAt
  Coroutine.atomic (DocStore.recordSave ref state stateVector savedAt)

def persistToDb (task : TaskId) : Program P (DocumentSaveResult P) :=
  serialized task persistToDbLocked

/-- `checkpoint_and_remove`, inside the guard. -/
def checkpointAndRemoveLocked : Program P Bool := do
  let store ← get
  match store.docs with
  | none => pure true
  | some ref =>
      let generation := (store.live ref).metadata.generation
      let _ ← checkpointToRedisLocked
      if ((← get).live ref).metadata.generation ≠ generation then
        pure false
      else
        modify DocStore.dropDoc
        pure true

def checkpointAndRemove (task : TaskId) : Program P Bool :=
  serialized task checkpointAndRemoveLocked

end Concord.Collaboration

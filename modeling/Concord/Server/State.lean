import Concord.Models
import Concord.Collaboration.Document
import Concord.Collaboration.Presence

/-!
Contract: the state of the backend process for one session.

Owns:
- the module globals of the WebSocket module, the rows of the session in
  PostgreSQL, and the peers at the other end of the connections;
- the awaited operations that the request handlers share.

A connection is named by the task of its handler, and so is its WebSocket. The
frames are kept as values; their bytes belong to the wire protocol.

The mutations of the document and the committed membership changes are history,
and so are the frames that were sent, the order of sends and fences, and where a
broadcast stands. No handler reads them.

Does not own: the handlers.
-/

set_option autoImplicit false

namespace Concord.Server

open Asyncio Collaboration

abbrev UserId := Nat

abbrev WebSocket := TaskId

/-- `RoleEnum.value`. -/
def roleValue : RoleEnum → String
  | .viewer => "viewer"
  | .editor => "editor"
  | .owner => "owner"

def wsUnauthorized : Nat := 4401

def wsForbidden : Nat := 4403

def wsNotFound : Nat := 4404

def wsSessionClosed : Nat := 4410

def wsRoleChanged : Nat := 4001

structure AuthorizationStamp where
  memberVersion : Nat
  sessionVersion : Nat
  deriving DecidableEq

structure AuthorizationInvalidation where
  version : Nat
  code : Nat
  reason : String
  deriving DecidableEq

/-- The version of an invalidation that may be missing. -/
def invalidationVersion (invalidation : Option AuthorizationInvalidation) : Nat :=
  (invalidation.map (·.version)).getD 0

structure ConnectionInfo where
  websocket : WebSocket
  userId : UserId
  username : String
  role : RoleEnum
  deriving DecidableEq

/-- The columns of a `Session` row that the handlers read, besides the document. -/
structure SessionRow where
  isActive : Bool
  ownerId : UserId
  language : LanguageEnum
  deriving DecidableEq

structure Snapshot (P : Platform) where
  documentState : P.Bytes
  sizeBytes : Nat

/-- The committed rows of the session, its members and the users. -/
structure Database (P : Platform) where
  session : Option SessionRow
  members : UserId → Option RoleEnum
  users : UserId → Option String
  userIds : String → Option UserId
  snapshots : Nat → Option (Snapshot P)
  nextSnapshot : Nat
  membershipCommits : List TaskId

structure DocumentSaved (P : Platform) where
  savedAt : Option Nat
  stateVector : P.Bytes
  stateHash : P.Hash
  dirty : Bool
  savedBy : Option String

inductive ServerFrame (P : Platform) where
  | syncStep1 (stateVector : P.Bytes)
  | syncStep2 (update : P.Bytes)
  | syncUpdate (update : P.Bytes)
  | documentSaved (saved : DocumentSaved P)
  | awareness (entries : List (AwarenessEntry P))
  | permissionDenied (reason : String)
  | executionEvent (event : P.Json)

/-- The Yjs update that a peer applies on receipt of a frame. -/
def ServerFrame.update {P : Platform} : ServerFrame P → Option P.Bytes
  | syncStep2 update => some update
  | syncUpdate update => some update
  | _ => none

def ServerFrame.entries {P : Platform} : ServerFrame P → List (AwarenessEntry P)
  | awareness entries => entries
  | _ => []

/-- The client of a connection: its replica, the frames under way to it, and as
history every frame and every close frame that was sent to it. -/
structure Peer (P : Platform) where
  replica : P.Doc
  pending : List (ServerFrame P)
  sent : List (ServerFrame P)
  closed : List (Nat × String)

/-- A step that bears on what a connection is sent: it is marked revoked, a frame
is passed to its `send_bytes`, or its handshake comes to the document status or to
the awareness states. -/
inductive WireEvent (P : Platform) where
  | fenced (websocket : WebSocket)
  | passed (websocket : WebSocket) (frame : ServerFrame P)
  | reported (websocket : WebSocket)
  | greeted (websocket : WebSocket)

/-- A running `_broadcast_binary`: its frame, and the captured connections that it
has not come to yet. -/
structure Broadcast (P : Platform) where
  frame : ServerFrame P
  remaining : List ConnectionInfo

/-- A mutation of the authoritative document, with the committed rows that bear
on it at that step. -/
structure Mutation where
  userId : UserId
  sessionActive : Bool
  role : Option RoleEnum

/-- The process and everything around it. `joined` is the local variable of each
running `websocket_endpoint`. -/
structure ServerState (P : Platform) where
  store : DocStore P
  database : Database P
  roomLock : Option TaskId
  rooms : Option (List ConnectionInfo)
  memberInvalidations : UserId → Option AuthorizationInvalidation
  sessionInvalidation : Option AuthorizationInvalidation
  connectionStamps : WebSocket → Option AuthorizationStamp
  revokedConnections : WebSocket → Option (Nat × String)
  awareness : AwarenessStates P
  joined : WebSocket → Bool
  peers : WebSocket → Peer P
  mutations : List Mutation
  wire : List (WireEvent P)
  broadcasts : TaskId → Option (Broadcast P)

/-- An `async` function of the server. -/
abbrev ServerProgram (P : Platform) := Coroutine (ServerState P) (Event P) Call Exn

variable {P : Platform} {α : Type}

namespace ServerState

/-- The connections in the room, `_rooms.get(session_id, ())`. -/
def connections (server : ServerState P) : List ConnectionInfo := server.rooms.getD []

def isRevoked (server : ServerState P) (websocket : WebSocket) : Bool :=
  (server.revokedConnections websocket).isSome

def putStore (store : DocStore P) (server : ServerState P) : ServerState P :=
  { server with store := store }

def note (event : WireEvent P) (server : ServerState P) : ServerState P :=
  { server with wire := event :: server.wire }

/-- History: where the broadcast of a task stands. -/
def setBroadcast (task : TaskId) (broadcast : Option (Broadcast P)) (server : ServerState P) :
    ServerState P :=
  { server with broadcasts := Function.update server.broadcasts task broadcast }

def setRevoked (websocket : WebSocket) (failure : Nat × String) (server : ServerState P) :
    ServerState P :=
  { server with
    revokedConnections := Function.update server.revokedConnections websocket (some failure)
    wire := .fenced websocket :: server.wire }

def clearRevoked (websocket : WebSocket) (server : ServerState P) : ServerState P :=
  { server with revokedConnections := Function.update server.revokedConnections websocket none }

def setStamp (websocket : WebSocket) (stamp : Option AuthorizationStamp)
    (server : ServerState P) : ServerState P :=
  { server with connectionStamps := Function.update server.connectionStamps websocket stamp }

def send (websocket : WebSocket) (frame : ServerFrame P) (server : ServerState P) :
    ServerState P :=
  let peer := server.peers websocket
  { server with peers := Function.update server.peers websocket { peer with
      pending := peer.pending ++ [frame]
      sent := peer.sent ++ [frame] } }

def sendClose (websocket : WebSocket) (code : Nat) (reason : String) (server : ServerState P) :
    ServerState P :=
  let peer := server.peers websocket
  { server with peers := Function.update server.peers websocket { peer with
      closed := peer.closed ++ [(code, reason)] } }

/-- A synchronous method of the document manager. -/
def onStore (method : DocStore P → α × DocStore P) (server : ServerState P) :
    α × ServerState P :=
  let (result, store) := method server.store
  (result, server.putStore store)

/-- A mutation of the authoritative document by a user. -/
def mutate (userId : UserId) (method : DocStore P → Except Exn α × DocStore P)
    (server : ServerState P) : Except Exn α × ServerState P :=
  let mutation : Mutation := {
    userId := userId
    sessionActive := server.database.session.any (·.isActive)
    role := server.database.members userId }
  let (result, server) := server.onStore method
  (result, { server with mutations := mutation :: server.mutations })

def acquireRoomLock (task : TaskId) (server : ServerState P) : Option (Unit × ServerState P) :=
  match server.roomLock with
  | some _ => none
  | none => some ((), { server with roomLock := some task })

def releaseRoomLock (server : ServerState P) : ServerState P := { server with roomLock := none }

end ServerState

open ServerState

/-! ### Awaited operations -/

/-- An `async` method of the document manager. -/
def onManager (program : Program P α) : ServerProgram P α := program.focus store putStore

/-- `async with lock` on the lock of the room. -/
def withRoomLock (task : TaskId) (body : ServerProgram P α) : ServerProgram P α := do
  Coroutine.awaitUntil .roomLock (acquireRoomLock task)
  Coroutine.tryFinally body (modify releaseRoomLock)

def query (value : ServerState P → α) : ServerProgram P α :=
  Coroutine.awaitCall .databaseRead fun event server =>
    match event with
    | .done => some (.ok (value server), server)
    | .raised | .raisedAfter => some (.error .driver, server)
    | .received _ => none

/-- `db.commit()` of a transaction. An effect is none where the database refuses
the transaction. -/
def commit (effect : ServerState P → Option (ServerState P)) : ServerProgram P Unit :=
  Coroutine.awaitCall .databaseCommit fun event server =>
    match event, effect server with
    | .received _, _ => none
    | .done, some after => some (.ok (), after)
    | .raisedAfter, some after => some (.error .driver, after)
    | .raised, some _ => some (.error .driver, server)
    | _, none => some (.error .driver, server)

def operation (call : Call) (effect : ServerState P → ServerState P) : ServerProgram P Unit :=
  Coroutine.awaitCall call fun event server =>
    match event with
    | .done => some (.ok (), effect server)
    | .raised => some (.error .driver, server)
    | .raisedAfter => some (.error .driver, effect server)
    | .received _ => none

/-- `db.refresh()` after a commit. -/
def refresh : ServerProgram P Unit := operation .databaseRefresh id

/-- `websocket.accept()`. -/
def accept : ServerProgram P Unit := operation .accept id

/-- `websocket.send_bytes()`, awaited by a task. -/
def sendBytes (sender : TaskId) (websocket : WebSocket) (frame : ServerFrame P) :
    ServerProgram P Unit := do
  modify (note (.passed websocket frame))
  operation (.sendBytes sender websocket) (send websocket frame)

/-- `websocket.close()`. -/
def close (websocket : WebSocket) (code : Nat) (reason : String) : ServerProgram P Unit :=
  operation .close (sendClose websocket code reason)

/-- `websocket.receive()`. -/
def receive : ServerProgram P (Incoming P) :=
  Coroutine.awaitCall .receive fun event server =>
    match event with
    | .received message => some (.ok message, server)
    | .raised | .raisedAfter => some (.error .driver, server)
    | .done => none

def closeConnection (websocket : WebSocket) (code : Nat) (reason : String) :
    ServerProgram P Unit :=
  Coroutine.tryExcept (close websocket code reason) fun _ => pure ()

end Concord.Server

import Concord.Server.Sessions

/-!
Contract: the authenticated WebSocket endpoint and its room.

Owns:
- authentication, the in-memory authorization fence, and its publication;
- joining and leaving the room, broadcasts, and one received frame;
- `websocketEndpoint`, the lifetime of one connection.

The error handler of the endpoint does not tell a `WebSocketDisconnect` apart: that
is the case where its own close raises. Connections are fenced together and then
closed one after the other. The receive loop takes the number of messages it will receive. A run of the loop
with a larger number extends a run with a smaller one, so every finite run of
the process is a run of the model.

Does not own: the HTTP endpoints.
-/

set_option autoImplicit false

namespace Concord.Server

open Asyncio Collaboration

variable {P : Platform} {α : Type}

/-! ### Authentication -/

/-- The path parameter of a connection: missing, not a UUID, or the session. -/
inductive SessionPath where
  | missing
  | malformed
  | session

/-- What a connection asks for. The token is missing, does not decode, or names
a user. -/
structure Handshake where
  token : Option (Option UserId)
  path : SessionPath

structure AuthenticatedUser where
  userId : UserId
  username : String
  role : RoleEnum
  stamp : AuthorizationStamp

namespace ServerState

def currentStamp (userId : UserId) (server : ServerState P) : AuthorizationStamp where
  memberVersion := invalidationVersion (server.memberInvalidations userId)
  sessionVersion := invalidationVersion server.sessionInvalidation

end ServerState

/-- `_authenticate_ws`, the database part. -/
def authenticateRows (userId : UserId) (stamp : AuthorizationStamp) :
    ServerProgram P AuthenticatedUser := do
  match ← getUser userId IdentityMap.empty with
  | (none, _) => throw (.webSocketAuth wsUnauthorized "User not found")
  | (some username, rows) =>
      match ← getSession rows with
      | (none, _) => throw (.webSocketAuth wsNotFound "Session not found")
      | (some session, rows) =>
          if !session.isActive then throw (.webSocketAuth wsSessionClosed "Session is closed")
          else
            match ← selectMember userId rows with
            | (none, _) => throw (.webSocketAuth wsForbidden "Session membership required")
            | (some role, _) => pure ⟨userId, username, role, stamp⟩

def authenticateWs (handshake : Handshake) : ServerProgram P AuthenticatedUser := do
  match handshake.token, handshake.path with
  | none, _ => throw (.webSocketAuth wsUnauthorized "Authentication required")
  | some _, .missing => throw (.webSocketAuth wsNotFound "Session not found")
  | some none, _ => throw (.webSocketAuth wsUnauthorized "Invalid or expired access token")
  | some (some _), .malformed => throw (.webSocketAuth wsNotFound "Session not found")
  | some (some userId), .session => authenticateRows userId ((← get).currentStamp userId)

/-! ### The authorization fence -/

namespace ServerState

def authorizationFailure (userId : UserId) (websocket : WebSocket) (server : ServerState P) :
    Option (Nat × String) :=
  match server.revokedConnections websocket with
  | some revoked => some revoked
  | none =>
      match server.connectionStamps websocket with
      | none => none
      | some stamp =>
          match server.sessionInvalidation.filter (stamp.sessionVersion < ·.version) with
          | some invalidation => some (invalidation.code, invalidation.reason)
          | none =>
              match (server.memberInvalidations userId).filter
                  (stamp.memberVersion < ·.version) with
              | some invalidation => some (invalidation.code, invalidation.reason)
              | none => none

/-- Mark every connection in the room that is selected as revoked. -/
def revokeConnections (selected : ConnectionInfo → Bool) (failure : Nat × String)
    (server : ServerState P) : ServerState P :=
  let targets := server.connections.filter selected
  { server with
    revokedConnections := fun websocket =>
      if targets.any (·.websocket = websocket) then some failure
      else server.revokedConnections websocket
    wire := targets.map (fun connection => .fenced connection.websocket) ++ server.wire }

/-- `fence_connections` of `invalidate_member_connections`. -/
def fenceMember (userId : UserId) (code : Nat) (reason : String) (server : ServerState P) :
    List WebSocket × ServerState P :=
  let invalidation := {
    version := invalidationVersion (server.memberInvalidations userId) + 1
    code := code
    reason := reason }
  let server := { server with
    memberInvalidations := Function.update server.memberInvalidations userId (some invalidation) }
  ((server.connections.filter (·.userId = userId)).map (·.websocket),
    server.revokeConnections (·.userId = userId) (code, reason))

/-- `fence_connections` of `close_session_connections`. -/
def fenceSession (server : ServerState P) : List WebSocket × ServerState P :=
  let invalidation := {
    version := invalidationVersion server.sessionInvalidation + 1
    code := wsSessionClosed
    reason := "Session is closed" }
  let server := { server with sessionInvalidation := some invalidation }
  (server.connections.map (·.websocket),
    server.revokeConnections (fun _ => true) (wsSessionClosed, "Session is closed"))

end ServerState

open ServerState

/-- `asyncio.gather` of `_close_connection` over the fenced connections. -/
def closeConnections (code : Nat) (reason : String) : List WebSocket → ServerProgram P Unit
  | [] => pure ()
  | websocket :: rest => do
      closeConnection websocket code reason
      closeConnections code reason rest

/-- `invalidate_member_connections`, with the room lock held. -/
def invalidateMemberConnections (userId : UserId) (code : Nat) (reason : String) :
    ServerProgram P Unit := do
  let targets ← modifyGet (fenceMember userId code reason)
  closeConnections code reason targets

def reauthenticateMemberConnections (userId : UserId) : ServerProgram P Unit :=
  invalidateMemberConnections userId wsRoleChanged "Session role changed; reconnecting"

def revokeMemberConnections (userId : UserId) : ServerProgram P Unit :=
  invalidateMemberConnections userId wsForbidden "Session membership required"

/-- `close_session_connections`, with the room lock held. -/
def closeSessionConnections : ServerProgram P Unit := do
  let targets ← modifyGet fenceSession
  closeConnections wsSessionClosed "Session is closed" targets

def closeIfInvalidated (userId : UserId) (websocket : WebSocket) : ServerProgram P Bool := do
  match (← get).authorizationFailure userId websocket with
  | none => pure false
  | some (code, reason) =>
      modify (setRevoked websocket (code, reason))
      closeConnection websocket code reason
      pure true

/-! ### Broadcasts -/

/-- The loop of `_broadcast_binary` over the captured connections. -/
def broadcastTo (task : TaskId) (frame : ServerFrame P) :
    List ConnectionInfo → ServerProgram P Unit
  | [] => modify (setBroadcast task none)
  | connection :: rest => do
      modify (setBroadcast task (some ⟨frame, rest⟩))
      if (← get).isRevoked connection.websocket then broadcastTo task frame rest
      else
        Coroutine.tryExcept (sendBytes task connection.websocket frame) fun _ => pure ()
        broadcastTo task frame rest

def broadcastBinary (task : TaskId) (frame : ServerFrame P) : ServerProgram P Unit := do
  broadcastTo task frame (← get).connections

def broadcastDocumentUpdate (task : TaskId) (update : P.Bytes) : ServerProgram P Unit :=
  broadcastBinary task (.syncUpdate update)

def broadcastExecutionEvent (task : TaskId) (event : P.Json) : ServerProgram P Unit :=
  broadcastBinary task (.executionEvent event)

def broadcastAwareness (task : TaskId) (entries : List (AwarenessEntry P)) :
    ServerProgram P Unit :=
  if entries.isEmpty then pure () else broadcastBinary task (.awareness entries)

namespace ServerState

/-- `prune_stale` of the awareness of the session. -/
def pruneAwareness (server : ServerState P) : List (AwarenessEntry P) × ServerState P :=
  let (states, removed) := AwarenessStates.pruneStale server.store.clock server.awareness
  (removed, { server with awareness := states })

/-- `apply_update` of the awareness of the session. -/
def applyAwareness (websocket : WebSocket) (entries : List (AwarenessEntry P))
    (server : ServerState P) : List (AwarenessEntry P) × ServerState P :=
  let (states, accepted) :=
    AwarenessStates.applyUpdate websocket server.store.clock entries server.awareness
  (accepted, { server with awareness := states })

end ServerState

def pruneStaleAwareness (task : TaskId) : ServerProgram P Unit := do
  let removed ← modifyGet pruneAwareness
  broadcastAwareness task removed

def sendCurrentDocumentStatus (websocket : WebSocket) : ServerProgram P Unit := do
  match (← get).store.getDocumentStatus with
  | none => pure ()
  | some status => sendBytes websocket websocket (.documentSaved {
      savedAt := status.savedAt
      stateVector := status.savedStateVector
      stateHash := status.savedStateHash
      dirty := status.dirty
      savedBy := none })

/-! ### One received frame -/

inductive ApplyOutcome where
  | failed (failure : Nat × String) (closeRequired : Bool)
  | denied
  | rejected
  | applied

def applyIfAuthorized (websocket : WebSocket) (userId : UserId) (role : RoleEnum)
    (payload : P.Bytes) (server : ServerState P) : ApplyOutcome × ServerState P :=
  match server.authorizationFailure userId websocket with
  | some failure =>
      (.failed failure (!server.isRevoked websocket),
        server.setRevoked websocket failure)
  | none =>
      if roleRank role < roleRank .editor then (.denied, server)
      else
        match server.mutate userId (DocStore.applyUpdate payload) with
        | (.error _, server) => (.rejected, server)
        | (.ok _, server) => (.applied, server)

/-- The sync branches of `_handle_binary_message`. -/
def handleSyncMessage (websocket : WebSocket) (user : AuthenticatedUser)
    (subtype : SyncSubtype) (payload : P.Bytes) : ServerProgram P Unit := do
  match subtype with
  | .step1 =>
      let update ← Coroutine.tryExcept
        (do pure (some (← Coroutine.atomic
          (onStore (DocStore.encodeStateAsUpdate (some payload))))))
        (fun _ => pure none)
      match update with
      | none => pure ()
      | some update => sendBytes websocket websocket (.syncStep2 update)
  | .step2 | .update =>
      let outcome ← withRoomLock websocket
        (modifyGet (applyIfAuthorized websocket user.userId user.role payload))
      match outcome with
      | .failed (code, reason) closeRequired =>
          if closeRequired then closeConnection websocket code reason else pure ()
      | .denied =>
          sendBytes websocket websocket (.permissionDenied "Viewers cannot edit the document")
      | .rejected => pure ()
      | .applied => broadcastBinary websocket (.syncUpdate payload)

/-- `_handle_binary_message`. A frame that does not parse is logged and dropped. -/
def handleBinaryMessage (websocket : WebSocket) (user : AuthenticatedUser)
    (message : Option (ParsedMessage P)) : ServerProgram P Unit := do
  if (← get).isRevoked websocket then pure ()
  else
    match message with
    | none => pure ()
    | some (.sync subtype payload) => handleSyncMessage websocket user subtype payload
    | some (.awareness entries) =>
        let accepted ← modifyGet (applyAwareness websocket entries)
        broadcastAwareness websocket accepted
    | some .awarenessQuery =>
        sendBytes websocket websocket
          (.awareness (AwarenessStates.activeEntries (← get).awareness))
    | some (.auth _) => pure ()

/-! ### The lifetime of a connection -/

def joinRoom (connection : ConnectionInfo) : ServerProgram P Unit :=
  withRoomLock connection.websocket do
    modify fun server => { server with rooms := some server.connections }
    if (← get).connections.isEmpty then
      let _ ← onManager (loadFromStorage connection.websocket)
    modify fun server => { server with rooms := some (server.connections ++ [connection]) }

namespace ServerState

def forget (websocket : WebSocket) (server : ServerState P) : ServerState P :=
  (server.setStamp websocket none).clearRevoked websocket

/-- The part of `_leave_room` before the last connection is treated apart: whether
the room is empty now, and the awareness states that left with the connection. -/
def leave (websocket : WebSocket) (server : ServerState P) :
    (Bool × List (AwarenessEntry P)) × ServerState P :=
  let remaining := server.connections.filter (·.websocket ≠ websocket)
  let (states, removed) :=
    AwarenessStates.removeOwner websocket server.store.clock server.awareness
  let isLast := remaining.isEmpty
  ((isLast, removed), { server with
    rooms := if isLast then none else some remaining
    awareness := states })

end ServerState

def leaveRoom (websocket : WebSocket) : ServerProgram P Unit := do
  let removed ← withRoomLock websocket do
    modify (forget websocket)
    match (← get).rooms with
    | none => pure []
    | some _ =>
        let (isLast, removed) ← modifyGet (leave websocket)
        if isLast then
          Coroutine.tryExcept
            (do let _ ← onManager (checkpointAndRemove websocket))
            (fun _ => pure ())
          modify fun server => { server with awareness := [] }
          pure []
        else pure removed
  broadcastAwareness websocket removed

def greet (websocket : WebSocket) (user : AuthenticatedUser) : ServerProgram P Unit := do
  if roleRank RoleEnum.editor ≤ roleRank user.role then
    let stateVector ← Coroutine.atomic (onStore DocStore.getStateVector)
    sendBytes websocket websocket (.syncStep1 stateVector)
  modify (note (.reported websocket))
  sendCurrentDocumentStatus websocket
  let active := AwarenessStates.activeEntries (← get).awareness
  modify (note (.greeted websocket))
  if active.isEmpty then pure () else sendBytes websocket websocket (.awareness active)

/-- The receive loop, for at most `messages` messages. -/
def receiveLoop (websocket : WebSocket) (user : AuthenticatedUser) :
    Nat → ServerProgram P Unit
  | 0 => Coroutine.awaitUntil .receive fun _ => none
  | messages + 1 => do
      let message ← receive
      match message with
      | .disconnect => pure ()
      | .bytes message =>
          if ← closeIfInvalidated user.userId websocket then pure ()
          else
            pruneStaleAwareness websocket
            handleBinaryMessage websocket user message
            receiveLoop websocket user messages
      | .text =>
          if ← closeIfInvalidated user.userId websocket then pure ()
          else
            pruneStaleAwareness websocket
            receiveLoop websocket user messages

/-- The `try` block of `websocket_endpoint`. -/
def serveConnection (websocket : WebSocket) (user : AuthenticatedUser) (messages : Nat) :
    ServerProgram P Unit := do
  if ← closeIfInvalidated user.userId websocket then pure ()
  else
    joinRoom ⟨websocket, user.userId, user.username, user.role⟩
    modify fun server => { server with joined := Function.update server.joined websocket true }
    if ← closeIfInvalidated user.userId websocket then pure ()
    else
      greet websocket user
      receiveLoop websocket user messages

def websocketEndpoint (handshake : Handshake) (messages : Nat) (websocket : WebSocket) :
    ServerProgram P Unit := do
  let authenticated ← Coroutine.tryExcept
    (do pure (Except.ok (← authenticateWs handshake)))
    (fun
      | .webSocketAuth code reason => pure (.error (code, reason))
      | exn => throw exn)
  match authenticated with
  | .error (code, reason) =>
      accept
      close websocket code reason
  | .ok user =>
      accept
      modify (setStamp websocket (some user.stamp))
      Coroutine.tryFinally
        (Coroutine.tryExcept (serveConnection websocket user messages) fun _ =>
          closeConnection websocket 1011 "Collaboration server error")
        (do
          if (← get).joined websocket then leaveRoom websocket
          else modify (forget websocket))

end Concord.Server

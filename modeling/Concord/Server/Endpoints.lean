import Concord.Server.WebSocket

/-!
Contract: the HTTP endpoints on a session and the periodic maintenance.

Owns:
- save, snapshot and run, which use the document under the room lock;
- the membership endpoints with their fences;
- `maintain_document_checkpoint` and the checkpoint at shutdown.

Does not own: the queue that receives the captured code, and the endpoints that
neither use the document nor change a membership.
-/

set_option autoImplicit false

namespace Concord.Server

open Asyncio Collaboration ServerState

variable {P : Platform} {α : Type}

def documentRoomLifecycle (task : TaskId) (body : Bool → ServerProgram P α) : ServerProgram P α :=
  withRoomLock task do body (!(← get).connections.isEmpty)

/-- `doc_manager.checkpoint_and_remove`, where every exception is logged. -/
def tryCheckpointAndRemove (task : TaskId) : ServerProgram P Unit :=
  Coroutine.tryExcept (do let _ ← onManager (checkpointAndRemove task)) fun _ => pure ()

/-- The checkpoint after a save or a restore, where every exception is logged. -/
def tryCheckpoint (task : TaskId) (hasConnections : Bool) : ServerProgram P Unit :=
  if hasConnections then
    Coroutine.tryExcept (do let _ ← onManager (checkpointToRedis task)) fun _ => pure ()
  else tryCheckpointAndRemove task

/-- The size limit on an uploaded or captured state. -/
def checkSize (size : Nat) (detail : String) : ServerProgram P Unit :=
  if P.crdtMaxUpdateBytes < size then throw (.httpException 413 detail) else pure ()

/-! ### Documents -/

/-- The part of `save_session_document` under the room lock. -/
def saveUnderLock (task : TaskId) (userId : UserId) (documentState : P.Bytes)
    (hasConnections : Bool) : ServerProgram P (DocumentSaveResult P) := do
  requireCurrentEditor userId
  let _ ← onManager (loadFromStorage task)
  Coroutine.tryExcept (Coroutine.atomic (mutate userId (DocStore.applyUpdate documentState)))
    fun _ => throw (.httpException 422 "Invalid Yjs document state")
  let result ← onManager (persistToDb task)
  tryCheckpoint task hasConnections
  pure result

def saveSessionDocument (credentials : Option UserId) (documentState : P.Bytes) (task : TaskId) :
    ServerProgram P Unit := do
  let user ← roleChecker .editor credentials
  if P.size documentState = 0 then
    throw (.httpException 422 "Document state cannot be empty")
  else
    checkSize (P.size documentState) "Document state exceeds the configured size limit"
    let result ← documentRoomLifecycle task (saveUnderLock task user.userId documentState)
    broadcastDocumentUpdate task documentState
    broadcastBinary task (.documentSaved {
      savedAt := some result.savedAt
      stateVector := result.stateVector
      stateHash := result.stateHash
      dirty := result.dirty
      savedBy := some user.username })

namespace ServerState

def insertSnapshot (documentState : P.Bytes) (server : ServerState P) : Option (ServerState P) :=
  some { server with database := { server.database with
    snapshots := Function.update server.database.snapshots server.database.nextSnapshot
      (some ⟨documentState, P.size documentState⟩)
    nextSnapshot := server.database.nextSnapshot + 1 } }

end ServerState

def createSnapshotEndpoint (credentials : Option UserId) (task : TaskId) :
    ServerProgram P Unit := do
  let user ← roleChecker .editor credentials
  documentRoomLifecycle task fun hasConnections => do
    requireCurrentEditor user.userId
    let _ ← onManager (loadFromStorage task)
    let documentState ← Coroutine.atomic (onStore (DocStore.encodeStateAsUpdate none))
    checkSize (P.size documentState) "Document state exceeds the configured size limit"
    commit (insertSnapshot documentState)
    refresh
    if hasConnections then pure () else tryCheckpointAndRemove task

/-- The part of `restore_snapshot_endpoint` under the room lock: the update for
the peers. -/
def restoreUnderLock (task : TaskId) (userId : UserId) (snapshotId : Nat)
    (hasConnections : Bool) : ServerProgram P P.Bytes := do
  requireCurrentEditor userId
  match ← query fun server => server.database.snapshots snapshotId with
  | none => throw (.httpException 404 "Snapshot not found")
  | some snapshot =>
      checkSize snapshot.sizeBytes "Snapshot state exceeds the configured size limit"
      let _ ← onManager (loadFromStorage task)
      let update ← Coroutine.tryExcept
        (Coroutine.atomic (mutate userId (DocStore.restoreTextFromState snapshot.documentState)))
        fun _ => throw (.httpException 422 "Snapshot contains invalid Yjs document state")
      tryCheckpoint task hasConnections
      pure update

def restoreSnapshotEndpoint (credentials : Option UserId) (snapshotId : Nat) (task : TaskId) :
    ServerProgram P Unit := do
  let user ← roleChecker .editor credentials
  let update ← documentRoomLifecycle task (restoreUnderLock task user.userId snapshotId)
  if P.size update = 0 then pure () else broadcastDocumentUpdate task update

/-- `run_document`, up to the code and the language that it enqueues. -/
def runDocument (credentials : Option UserId) (task : TaskId) :
    ServerProgram P (String × LanguageEnum) := do
  let user ← roleChecker .editor credentials
  documentRoomLifecycle task fun hasConnections => do
    requireCurrentEditor user.userId
    match ← getSession user.rows with
    | (none, _) => throw (.httpException 404 "Session not found")
    | (some session, _) =>
        let _ ← onManager (loadFromStorage task)
        let code := (← get).store.readText
        if hasConnections then pure () else tryCheckpointAndRemove task
        pure (code, session.language)

def maintainDocumentCheckpoint (task : TaskId) : ServerProgram P Unit := do
  let active ← withRoomLock task do
    if (← get).connections.isEmpty then
      let _ ← onManager (checkpointAndRemove task)
      pure false
    else pure true
  if active then
    let _ ← onManager (checkpointToRedis task)

def shutdownCheckpoint (task : TaskId) : ServerProgram P Unit :=
  Coroutine.tryExcept (do let _ ← onManager (checkpointToRedis task)) fun _ => pure ()

/-! ### Memberships -/

/-- The user that an invitation names. -/
inductive MemberKey where
  | userId (userId : UserId)
  | username (username : String)

def resolveMemberUserId (key : MemberKey) : ServerProgram P UserId := do
  match key with
  | .userId userId => pure userId
  | .username username =>
      match ← query fun server => server.database.userIds username with
      | none => throw (.httpException 404 "User not found")
      | some userId => pure userId

def addMemberEndpoint (credentials : Option UserId) (key : MemberKey) (role : RoleEnum)
    (task : TaskId) : ServerProgram P Unit := do
  let owner ← roleChecker .owner credentials
  let userId ← resolveMemberUserId key
  translateErrors (addMember task owner.rows userId role)

/-- The part of `update_member_role_endpoint` under the room lock. -/
def updateRoleUnderLock (task : TaskId) (rows : IdentityMap) (userId : UserId) (role : RoleEnum) :
    ServerProgram P Unit := do
  translateErrors (updateMemberRole task rows userId role)
  reauthenticateMemberConnections userId

def updateMemberRoleEndpoint (credentials : Option UserId) (userId : UserId) (role : RoleEnum)
    (task : TaskId) : ServerProgram P Unit := do
  let owner ← roleChecker .owner credentials
  documentRoomLifecycle task fun _ => updateRoleUnderLock task owner.rows userId role

/-- The part of `remove_member_endpoint` under the room lock. -/
def removeUnderLock (task : TaskId) (rows : IdentityMap) (userId : UserId) :
    ServerProgram P Unit := do
  translateErrors (removeMember task rows userId)
  revokeMemberConnections userId

def removeMemberEndpoint (credentials : Option UserId) (userId : UserId) (task : TaskId) :
    ServerProgram P Unit := do
  let owner ← roleChecker .owner credentials
  documentRoomLifecycle task fun _ => removeUnderLock task owner.rows userId

/-- The part of `close_session_endpoint` under the room lock. -/
def closeUnderLock (task : TaskId) (rows : IdentityMap) : ServerProgram P Unit := do
  translateErrors (closeSession task rows)
  closeSessionConnections

def closeSessionEndpoint (credentials : Option UserId) (task : TaskId) :
    ServerProgram P Unit := do
  let owner ← roleChecker .owner credentials
  documentRoomLifecycle task fun _ => closeUnderLock task owner.rows

end Concord.Server

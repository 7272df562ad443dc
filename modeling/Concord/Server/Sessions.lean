import Concord.Server.State

/-!
Contract: authorization and the membership service.

Owns:
- the identity map of one database session, which keeps loaded rows as they were;
- `RoleChecker`, `_require_current_editor` and the membership operations.

`Session.members` and the relationships of `User` load with their owner, so a
row can be in the identity map before a handler asks for it. A column query, as
in `_require_current_editor`, reads the committed row.

Does not own: the room lock and the fences around a membership operation.
-/

set_option autoImplicit false

namespace Concord.Server

open Asyncio Collaboration

variable {P : Platform} {α : Type}

/-! ### The identity map -/

/-- The rows that a database session has loaded. -/
structure IdentityMap where
  session : Option SessionRow
  members : UserId → Option RoleEnum

namespace IdentityMap

def empty : IdentityMap := ⟨none, fun _ => none⟩

/-- Rows that are loaded for the first time; the others stay as they were. -/
def load (session : Option SessionRow) (members : UserId → Option RoleEnum)
    (rows : IdentityMap) : IdentityMap where
  session := rows.session <|> session
  members user := rows.members user <|> members user

/-- What `db.get(User, user_id)` loads: the memberships of the user, and the
sessions it owns with their members. -/
def loadUser (userId : UserId) (database : Database P) (rows : IdentityMap) : IdentityMap :=
  match database.users userId with
  | none => rows
  | some _ =>
      if database.session.any (·.ownerId = userId) then
        rows.load database.session database.members
      else
        rows.load none fun user => if user = userId then database.members user else none

/-- What `db.get(Session, session_id)` loads. -/
def loadSession (database : Database P) (rows : IdentityMap) : IdentityMap :=
  match database.session with
  | none => rows
  | some _ => rows.load database.session database.members

/-- What a `select(SessionMember)` on one member loads. -/
def loadMember (userId : UserId) (database : Database P) (rows : IdentityMap) : IdentityMap :=
  rows.load none fun user => if user = userId then database.members user else none

end IdentityMap

/-- `db.get(User, user_id)`. -/
def getUser (userId : UserId) (rows : IdentityMap) :
    ServerProgram P (Option String × IdentityMap) :=
  query fun server => (server.database.users userId, rows.loadUser userId server.database)

/-- `db.get(Session, session_id)`: no query where the session is loaded. -/
def getSession (rows : IdentityMap) : ServerProgram P (Option SessionRow × IdentityMap) :=
  match rows.session with
  | some session => pure (some session, rows)
  | none => query fun server => (server.database.session, rows.loadSession server.database)

/-- `select(SessionMember)`: the row must exist, its attributes are those that
were loaded first. -/
def selectMember (userId : UserId) (rows : IdentityMap) :
    ServerProgram P (Option RoleEnum × IdentityMap) :=
  query fun server =>
    match server.database.members userId with
    | none => (none, rows)
    | some _ =>
        let rows := rows.loadMember userId server.database
        (rows.members userId, rows)

/-! ### Role checks -/

/-- An authenticated request: its user and its database session. -/
structure CurrentUser where
  userId : UserId
  username : String
  rows : IdentityMap

/-- `get_current_user`. No credentials stand for a token that does not decode. -/
def getCurrentUser (credentials : Option UserId) : ServerProgram P CurrentUser := do
  match credentials with
  | none => throw (.httpException 401 "Could not validate credentials")
  | some userId =>
      match ← getUser userId IdentityMap.empty with
      | (none, _) => throw (.httpException 401 "Could not validate credentials")
      | (some username, rows) => pure ⟨userId, username, rows⟩

/-- The last check of `RoleChecker`, on the loaded membership. -/
def checkRole (minRole : RoleEnum) (ownerId : UserId) (user : CurrentUser)
    (membership : Option RoleEnum) : Except Exn CurrentUser :=
  match membership with
  | none => .error (.httpException 403 "Not a member of this session")
  | some role =>
      if minRole = .owner ∧ ownerId ≠ user.userId then
        .error (.httpException 403 "Requires the canonical session owner")
      else if roleRank role < roleRank minRole then
        .error (.httpException 403 ("Requires role '" ++ roleValue minRole ++
          "' or higher. You have '" ++ roleValue role ++ "'."))
      else .ok user

/-- `RoleChecker.__call__`. -/
def roleChecker (minRole : RoleEnum) (credentials : Option UserId) :
    ServerProgram P CurrentUser := do
  let user ← getCurrentUser credentials
  match ← getSession user.rows with
  | (none, _) => throw (.httpException 404 "Session not found")
  | (some session, rows) =>
      if !session.isActive then throw (.httpException 410 "Session is closed")
      else
        let (membership, rows) ← selectMember user.userId rows
        match checkRole minRole session.ownerId { user with rows := rows } membership with
        | .ok user => pure user
        | .error exn => throw exn

/-- The decision of `_require_current_editor` on the row it has read. -/
def currentEditorFailure (session : Option SessionRow) (role : Option RoleEnum) : Option Exn :=
  match session with
  | none => some (.httpException 404 "Session not found")
  | some session =>
      if !session.isActive then some (.httpException 410 "Session is closed")
      else if role.any fun role => roleRank RoleEnum.editor ≤ roleRank role then none
      else some (.httpException 403 "Insufficient permissions")

def requireCurrentEditor (userId : UserId) : ServerProgram P Unit := do
  match ← query fun server =>
      currentEditorFailure server.database.session (server.database.members userId) with
  | none => pure ()
  | some exn => throw exn

/-! ### The membership service -/

def getActiveSession (rows : IdentityMap) : ServerProgram P (SessionRow × IdentityMap) := do
  match ← getSession rows with
  | (none, _) => throw (.sessionService .resourceNotFound "Session not found")
  | (some session, rows) =>
      if !session.isActive then throw (.sessionService .inactive "Session is closed")
      else pure (session, rows)

namespace ServerState

/-- A committed insert of a membership. The primary key admits one row. -/
def insertMember (task : TaskId) (userId : UserId) (role : RoleEnum) (server : ServerState P) :
    Option (ServerState P) :=
  match server.database.members userId with
  | some _ => none
  | none => some { server with database := { server.database with
      members := Function.update server.database.members userId (some role)
      membershipCommits := task :: server.database.membershipCommits } }

/-- A committed update of a role. An update of a missing row is refused. -/
def setRole (task : TaskId) (userId : UserId) (role : RoleEnum) (server : ServerState P) :
    Option (ServerState P) :=
  match server.database.members userId with
  | none => none
  | some _ => some { server with database := { server.database with
      members := Function.update server.database.members userId (some role)
      membershipCommits := task :: server.database.membershipCommits } }

def deleteMember (task : TaskId) (userId : UserId) (server : ServerState P) :
    Option (ServerState P) :=
  some { server with database := { server.database with
    members := Function.update server.database.members userId none
    membershipCommits := task :: server.database.membershipCommits } }

/-- A committed close of the session. The row takes a new `updated_at`. -/
def deactivate (task : TaskId) (server : ServerState P) : Option (ServerState P) :=
  some { server with
    database := { server.database with
      session := server.database.session.map fun session => { session with isActive := false }
      membershipCommits := task :: server.database.membershipCommits }
    store := { server.store with
      saved := { server.store.saved with savedAt := some server.store.clock } } }

end ServerState

open ServerState

def addMember (task : TaskId) (rows : IdentityMap) (userId : UserId) (role : RoleEnum) :
    ServerProgram P Unit := do
  let (session, rows) ← getActiveSession rows
  if role = .owner then
    throw (.sessionService .conflict
      "A session can have only one owner; ownership transfer is not supported")
  else if userId = session.ownerId then
    throw (.sessionService .conflict "The canonical owner membership cannot be replaced")
  else
    match ← getUser userId rows with
    | (none, _) => throw (.sessionService .resourceNotFound "User not found")
    | (some _, rows) =>
        match ← selectMember userId rows with
        | (some _, _) =>
            throw (.sessionService .conflict "User is already a member of this session")
        | (none, _) =>
            commit (insertMember task userId role)
            refresh

def updateMemberRole (task : TaskId) (rows : IdentityMap) (userId : UserId) (newRole : RoleEnum) :
    ServerProgram P Unit := do
  let (session, rows) ← getActiveSession rows
  if userId = session.ownerId ∧ newRole ≠ .owner then
    throw (.sessionService .conflict "The canonical session owner cannot be demoted")
  else if userId ≠ session.ownerId ∧ newRole = .owner then
    throw (.sessionService .conflict
      "A session can have only one owner; ownership transfer is not supported")
  else
    match ← selectMember userId rows with
    | (none, _) => throw (.sessionService .resourceNotFound "Member not found")
    | (some role, _) =>
        if role = newRole then pure ()
        else
          commit (setRole task userId newRole)
          refresh

/-- `remove_member`. Marking the row for deletion is awaited as well. -/
def removeMember (task : TaskId) (rows : IdentityMap) (userId : UserId) :
    ServerProgram P Unit := do
  let (session, rows) ← getActiveSession rows
  if userId = session.ownerId then
    throw (.sessionService .conflict "The canonical session owner cannot be removed")
  else
    match ← selectMember userId rows with
    | (none, _) => throw (.sessionService .resourceNotFound "Member not found")
    | (some _, _) =>
        query fun _ => ()
        commit (deleteMember task userId)

def closeSession (task : TaskId) (rows : IdentityMap) : ServerProgram P Unit := do
  let _ ← getActiveSession rows
  commit (deactivate task)
  refresh

/-- `_raise_http_error`, where an expected service failure is caught. -/
def raiseHttpError : Exn → Exn
  | .sessionService .resourceNotFound message => .httpException 404 message
  | .sessionService .inactive message => .httpException 410 message
  | .sessionService .conflict message => .httpException 409 message
  | exn => exn

/-- `try: … except SessionServiceError as error: _raise_http_error(error)`. -/
def translateErrors (body : ServerProgram P α) : ServerProgram P α :=
  Coroutine.tryExcept body fun exn => throw (raiseHttpError exn)

end Concord.Server

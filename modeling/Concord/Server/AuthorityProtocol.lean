import Mathlib.Tactic.Tauto
import Concord.Server.ViewRules
import Concord.Server.System

/-!
Contract: the protocol of rows, stamps and fences.

Owns:
- `AuthorityView`, what decides who may edit, and who has edited;
- `LockStable`, what stays as it is for the holder of the room lock;
- `MemberCurrent` and `SessionCurrent`, what a stamp still says about the rows;
- `authorityProtocol` and the facts that it keeps for a task.

The ghost state is the committed change that is not yet fenced. Only the holder
of the room lock may leave one, and only until it gives up the lock. That holds
where membership operations return, which the proposition `returning` stands
for. The rest of the protocol does not depend on it.

Does not own: the handlers that follow the protocol.
-/

set_option autoImplicit false

namespace Concord.Server

open Asyncio Collaboration ServerState

variable {P : Platform}

/-- What a committed membership change affects. -/
inductive Affected where
  | member (userId : UserId)
  | session
  deriving DecidableEq

/-- The committed change that is not yet fenced. -/
abbrev Pending := Option Affected

/-- The part of the state that decides who may edit. -/
structure AuthorityView where
  session : Option SessionRow
  members : UserId → Option RoleEnum
  membershipCommits : List TaskId
  roomLock : Option TaskId
  connections : List ConnectionInfo
  memberInvalidations : UserId → Option AuthorizationInvalidation
  sessionInvalidation : Option AuthorizationInvalidation
  connectionStamps : WebSocket → Option AuthorizationStamp
  revokedConnections : WebSocket → Option (Nat × String)
  joined : WebSocket → Bool
  mutations : List Mutation

def authorityView (server : ServerState P) : AuthorityView where
  session := server.database.session
  members := server.database.members
  membershipCommits := server.database.membershipCommits
  roomLock := server.roomLock
  connections := server.connections
  memberInvalidations := server.memberInvalidations
  sessionInvalidation := server.sessionInvalidation
  connectionStamps := server.connectionStamps
  revokedConnections := server.revokedConnections
  joined := server.joined
  mutations := server.mutations

namespace AuthorityView

/-- The version of the last fence on a member. -/
def memberVersion (view : AuthorityView) (userId : UserId) : Nat :=
  invalidationVersion (view.memberInvalidations userId)

/-- The version of the last fence on the session. -/
def sessionVersion (view : AuthorityView) : Nat := invalidationVersion view.sessionInvalidation

def SessionActive (view : AuthorityView) : Prop := view.session.any (·.isActive) = true

def InRoom (view : AuthorityView) (websocket : WebSocket) : Prop :=
  ∃ connection ∈ view.connections, connection.websocket = websocket

def Revoked (view : AuthorityView) (websocket : WebSocket) : Prop :=
  (view.revokedConnections websocket).isSome = true

end AuthorityView

/-- The mutation was made by an editor of an active session. -/
def Mutation.Authorized (mutation : Mutation) : Prop :=
  mutation.sessionActive = true ∧
    ∃ role, mutation.role = some role ∧ roleRank .editor ≤ roleRank role

/-- What a stamp says about the row of a member: it is stale, or about to be, or
the row still has the role that was read. -/
structure MemberCurrent (returning : Prop) (userId : UserId) (version : Nat) (role : RoleEnum)
    (pending : Pending) (view : AuthorityView) : Prop where
  past : version ≤ view.memberVersion userId
  current : returning → version < view.memberVersion userId ∨ pending = some (.member userId) ∨
    view.members userId = some role

/-- What a stamp says about the session row. -/
structure SessionCurrent (returning : Prop) (version : Nat) (pending : Pending)
    (view : AuthorityView) : Prop where
  past : version ≤ view.sessionVersion
  current : returning → version < view.sessionVersion ∨ pending = some .session ∨ view.SessionActive

/-- What stays as it is while a task holds the room lock. -/
structure LockStable (task : TaskId) (before after : AuthorityView) : Prop where
  roomLock : after.roomLock = some task
  session : after.session = before.session
  members : ∀ userId role, before.members userId = some role → after.members userId = some role
  memberInvalidations : after.memberInvalidations = before.memberInvalidations
  sessionInvalidation : after.sessionInvalidation = before.sessionInvalidation
  connections : after.connections = before.connections
  revoked : ∀ websocket, before.InRoom websocket → before.Revoked websocket →
    after.Revoked websocket

theorem LockStable.refl {task : TaskId} {view : AuthorityView} (held : view.roomLock = some task) :
    LockStable task view view :=
  ⟨held, rfl, fun _ _ => id, rfl, rfl, rfl, fun _ _ => id⟩

theorem LockStable.trans {task : TaskId} {first second third : AuthorityView}
    (earlier : LockStable task first second) (later : LockStable task second third) :
    LockStable task first third where
  roomLock := later.roomLock
  session := later.session.trans earlier.session
  members userId role row := later.members userId role (earlier.members userId role row)
  memberInvalidations := later.memberInvalidations.trans earlier.memberInvalidations
  sessionInvalidation := later.sessionInvalidation.trans earlier.sessionInvalidation
  connections := later.connections.trans earlier.connections
  revoked websocket member marked := by
    apply later.revoked websocket
    · unfold AuthorityView.InRoom
      rw [earlier.connections]
      exact member
    · exact earlier.revoked websocket member marked

/-- The session row stays, or its session is closed. -/
def SessionLater (before after : AuthorityView) : Prop :=
  ∀ row, before.session = some row →
    after.session = some row ∨ after.session = some { row with isActive := false }

theorem SessionLater.of_same {before after : AuthorityView} (same : after.session = before.session) :
    SessionLater before after :=
  fun _ stored => .inl (same.trans stored)

theorem SessionLater.trans {first second third : AuthorityView} (earlier : SessionLater first second)
    (later : SessionLater second third) : SessionLater first third := by
  intro row stored
  rcases earlier row stored with stays | closed
  · exact later row stays
  · rcases later _ closed with stays | again
    · exact .inr stays
    · exact .inr again

/-- What `task` may find changed by the other tasks. -/
structure AuthorityRely (returning : Prop) (task : TaskId) (pending : Pending)
    (before : AuthorityView) (pending' : Pending) (after : AuthorityView) : Prop where
  lock : before.roomLock = some task → LockStable task before after ∧ pending' = pending
  commits : after.membershipCommits.count task = before.membershipCommits.count task
  stamp : after.connectionStamps task = before.connectionStamps task
  joined : after.joined task = before.joined task
  inRoom : after.InRoom task ↔ before.InRoom task
  member : ∀ userId version role, MemberCurrent returning userId version role pending before →
    MemberCurrent returning userId version role pending' after
  session : ∀ version, SessionCurrent returning version pending before →
    SessionCurrent returning version pending' after
  memberVersion_le : ∀ userId, before.memberVersion userId ≤ after.memberVersion userId
  sessionVersion_le : before.sessionVersion ≤ after.sessionVersion
  later : SessionLater before after

variable {returning : Prop}

theorem AuthorityRely.refl (task : TaskId) (pending : Pending) (view : AuthorityView) :
    AuthorityRely returning task pending view pending view :=
  ⟨fun held => ⟨.refl held, rfl⟩, rfl, rfl, rfl, Iff.rfl, fun _ _ _ => id, fun _ => id,
    fun _ => le_rfl, le_rfl, .of_same rfl⟩

theorem AuthorityRely.trans {task : TaskId} {pending₁ pending₂ pending₃ : Pending}
    {first second third : AuthorityView}
    (earlier : AuthorityRely returning task pending₁ first pending₂ second)
    (later : AuthorityRely returning task pending₂ second pending₃ third) :
    AuthorityRely returning task pending₁ first pending₃ third where
  lock held := by
    obtain ⟨stable₁, same₁⟩ := earlier.lock held
    obtain ⟨stable₂, same₂⟩ := later.lock stable₁.roomLock
    exact ⟨stable₁.trans stable₂, same₂.trans same₁⟩
  commits := later.commits.trans earlier.commits
  stamp := later.stamp.trans earlier.stamp
  joined := later.joined.trans earlier.joined
  inRoom := later.inRoom.trans earlier.inRoom
  member userId version role current :=
    later.member userId version role (earlier.member userId version role current)
  session version current := later.session version (earlier.session version current)
  memberVersion_le userId := (earlier.memberVersion_le userId).trans (later.memberVersion_le userId)
  sessionVersion_le := earlier.sessionVersion_le.trans later.sessionVersion_le
  later := earlier.later.trans later.later

/-- Every mutation was authorized, and a change that is not fenced has a holder
of the room lock. -/
structure AuthorityInv (returning : Prop) (pending : Pending) (view : AuthorityView) : Prop where
  fenced : view.roomLock = none → pending = none
  authorized : returning → ∀ mutation ∈ view.mutations, mutation.Authorized

/-- The protocol of rows, stamps and fences. A task that has not started is not
in the room. -/
def authorityProtocol (returning : Prop) : Logic Pending AuthorityView Call where
  inv := AuthorityInv returning
  rely := AuthorityRely returning
  guar task pending before pending' after :=
    ∀ other, task ≠ other → AuthorityRely returning other pending before pending' after
  fresh task _ view := ¬view.InRoom task ∧ view.joined task = false

theorem authorityProtocol_lawful : (authorityProtocol returning).Lawful where
  rely_refl := AuthorityRely.refl
  rely_trans := AuthorityRely.trans
  guar_rely different guar := guar _ different
  parked_stable _ _ := trivial
  done_stable _ _ := trivial
  fresh_stable rely fresh :=
    ⟨fun member => fresh.1 (rely.inRoom.mp member), rely.joined.trans fresh.2⟩

/-! ### Facts of a task -/

/-- The task holds the room lock, with a given change to fence. -/
def LockHolder (task : TaskId) (owed : Pending) (pending : Pending) (view : AuthorityView) : Prop :=
  view.roomLock = some task ∧ pending = owed

/-- The task holds the room lock, and the user may edit. -/
def EditorHeld (task : TaskId) (userId : UserId) (pending : Pending) (view : AuthorityView) : Prop :=
  LockHolder task none pending view ∧ view.SessionActive ∧
    ∃ role, view.members userId = some role ∧ roleRank .editor ≤ roleRank role

/-- What a connection knows of its user from the authentication on. -/
def Authentic (returning : Prop) (user : AuthenticatedUser) (pending : Pending) (view : AuthorityView) : Prop :=
  MemberCurrent returning user.userId user.stamp.memberVersion user.role pending view ∧
    SessionCurrent returning user.stamp.sessionVersion pending view

def Stamped (returning : Prop) (task : TaskId) (user : AuthenticatedUser) (pending : Pending)
    (view : AuthorityView) : Prop :=
  view.connectionStamps task = some user.stamp ∧ Authentic returning user pending view

/-- Where the endpoint of a connection stands: it is not in the room, or it has
noted that it joined. -/
def Placed (task : TaskId) (view : AuthorityView) : Prop :=
  ¬view.InRoom task ∨ view.joined task = true

/-- What loaded rows say about the committed ones. -/
structure RowsCurrent (returning : Prop) (userId : UserId) (stamp : AuthorizationStamp)
    (rows : IdentityMap) (pending : Pending) (view : AuthorityView) : Prop where
  memberPast : stamp.memberVersion ≤ view.memberVersion userId
  sessionPast : stamp.sessionVersion ≤ view.sessionVersion
  member : ∀ role, rows.members userId = some role →
    MemberCurrent returning userId stamp.memberVersion role pending view
  session : ∀ row, rows.session = some row → row.isActive = true →
    SessionCurrent returning stamp.sessionVersion pending view

section Facts

variable {calls : Call → Prop} {task : TaskId}

/-- A fact that the protocol keeps. -/
theorem standing_of_rely {fact : Pending → AuthorityView → Prop}
    (stable : ∀ {pending view pending' view'},
      AuthorityRely returning task pending view pending' view' →
        fact pending view → fact pending' view') :
    Standing (authorityProtocol returning) calls task fact where
  idle pending view other _ := AuthorityRely.refl other pending view
  stable rely _ := stable rely
  parked _ _ := trivial

theorem standing_true : Standing (authorityProtocol returning) calls task fun _ _ => True :=
  standing_of_rely fun _ => id

theorem standing_lockHolder (owed : Pending) :
    Standing (authorityProtocol returning) calls task (LockHolder task owed) :=
  standing_of_rely fun rely held => by
    obtain ⟨stable, same⟩ := rely.lock held.1
    exact ⟨stable.roomLock, same.trans held.2⟩

theorem standing_editorHeld (userId : UserId) :
    Standing (authorityProtocol returning) calls task (EditorHeld task userId) :=
  standing_of_rely fun rely held => by
    obtain ⟨stable, same⟩ := rely.lock held.1.1
    obtain ⟨role, row, rank⟩ := held.2.2
    refine ⟨⟨stable.roomLock, same.trans held.1.2⟩, ?_, role, stable.members userId role row, rank⟩
    unfold AuthorityView.SessionActive
    rw [stable.session]
    exact held.2.1

theorem standing_authentic (user : AuthenticatedUser) :
    Standing (authorityProtocol returning) calls task (Authentic returning user) :=
  standing_of_rely fun rely known => ⟨rely.member _ _ _ known.1, rely.session _ known.2⟩

theorem standing_stamped (user : AuthenticatedUser) :
    Standing (authorityProtocol returning) calls task (Stamped returning task user) :=
  standing_of_rely fun rely known => ⟨rely.stamp.trans known.1,
    rely.member _ _ _ known.2.1, rely.session _ known.2.2⟩

theorem standing_placed : Standing (authorityProtocol returning) calls task fun _ => Placed task :=
  standing_of_rely fun rely placed => by
    unfold Placed
    rw [rely.inRoom, rely.joined]
    exact placed

theorem standing_rowsCurrent (userId : UserId) (stamp : AuthorizationStamp) (rows : IdentityMap) :
    Standing (authorityProtocol returning) calls task (RowsCurrent returning userId stamp rows) :=
  standing_of_rely fun rely known =>
    ⟨known.memberPast.trans (rely.memberVersion_le userId),
      known.sessionPast.trans rely.sessionVersion_le,
      fun role row => rely.member _ _ _ (known.member role row),
      fun row loaded active => rely.session _ (known.session row loaded active)⟩

/-- Both facts. -/
theorem standing_and {first second : Pending → AuthorityView → Prop}
    (left : Standing (authorityProtocol returning) calls task first)
    (right : Standing (authorityProtocol returning) calls task second) :
    Standing (authorityProtocol returning) calls task
      fun pending view => first pending view ∧ second pending view where
  idle := left.idle
  stable rely inv both := ⟨left.stable rely inv both.1, right.stable rely inv both.2⟩
  parked _ _ := trivial

end Facts

end Concord.Server

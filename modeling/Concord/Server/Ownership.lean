import Concord.Asyncio.OwnSteps
import Concord.Server.ViewRules
import Concord.Server.System

/-!
Contract: the canonical owner of every session.

Owns:
- `MembershipCall`, the functions of the membership service, with `createSession`;
- `membershipService`, every interleaving of such calls over all sessions, each
  on a database session that has loaded any rows before;
- the invariant that a session has its owner as the only member with that role;
- the calls that refuse, which change nothing.

Does not own: who may call the service.
-/

set_option autoImplicit false

namespace Concord.Server

open Asyncio Collaboration ServerState

variable {P : Platform} {α β : Type} {task : TaskId}

/-! ### The membership service over all sessions -/

abbrev SessionId := Nat

namespace ServerState

/-- A committed insert of a session with the membership of its owner. The primary
keys admit one row each. -/
def insertSession (task : TaskId) (ownerId : UserId) (language : LanguageEnum)
    (server : ServerState P) : Option (ServerState P) :=
  match server.database.session, server.database.members ownerId with
  | none, none => some { server with database := { server.database with
      session := some ⟨true, ownerId, language⟩
      members := Function.update server.database.members ownerId (some .owner)
      membershipCommits := task :: server.database.membershipCommits } }
  | _, _ => none

end ServerState

/-- `create_session`. The flush inserts the session row, which its primary key
may refuse. -/
def createSession (task : TaskId) (ownerId : UserId) (language : LanguageEnum) :
    ServerProgram P Unit := do
  if ← query fun server => server.database.session.isSome then throw .driver
  else
    commit (insertSession task ownerId language)
    refresh

/-- A read on a database session before a call, or the expiry of loaded rows. -/
inductive Access where
  | user (userId : UserId)
  | session
  | member (userId : UserId)
  | expire (row : Bool) (memberships : UserId → Bool)

def Access.perform (rows : IdentityMap) : Access → ServerProgram P IdentityMap
  | user userId => do
      let (_, rows) ← getUser userId rows
      pure rows
  | session => do
      let (_, rows) ← getSession rows
      pure rows
  | member userId => do
      let (_, rows) ← selectMember userId rows
      pure rows
  | expire row memberships => pure {
      session := if row then none else rows.session
      members := fun user => if memberships user then none else rows.members user }

def performAll : List Access → IdentityMap → ServerProgram P IdentityMap
  | [], rows => pure rows
  | access :: rest, rows => do
      let rows ← access.perform rows
      performAll rest rows

inductive MembershipCall where
  | createSession (ownerId : UserId) (language : LanguageEnum)
  | addMember (userId : UserId) (role : RoleEnum)
  | updateMemberRole (userId : UserId) (newRole : RoleEnum)
  | removeMember (userId : UserId)
  | closeSession

def MembershipCall.program (task : TaskId) (rows : IdentityMap) :
    MembershipCall → ServerProgram P Unit
  | createSession ownerId language => Server.createSession task ownerId language
  | addMember userId role => Server.addMember task rows userId role
  | updateMemberRole userId newRole => Server.updateMemberRole task rows userId newRole
  | removeMember userId => Server.removeMember task rows userId
  | closeSession => Server.closeSession task rows

/-- A call for a session, on a database session that was used before. -/
structure MembershipRequest where
  sessionId : SessionId
  accesses : List Access
  call : MembershipCall

/-- The call, after what its database session was used for. -/
def MembershipRequest.program (task : TaskId) (request : MembershipRequest) :
    ServerProgram P Unit := do
  let rows ← performAll request.accesses IdentityMap.empty
  request.call.program task rows

abbrev AllSessions (P : Platform) := SessionId → ServerState P

def putSession (sessionId : SessionId) (server : ServerState P) (all : AllSessions P) :
    AllSessions P := Function.update all sessionId server

def registerUser (user : UserId × String) (all : AllSessions P) : AllSessions P :=
  fun sessionId => { all sessionId with database := { (all sessionId).database with
    users := Function.update (all sessionId).database.users user.1 (some user.2) } }

def membershipService (P : Platform) :
    Service (AllSessions P) (Event P) Call Exn MembershipRequest (UserId × String) where
  handler request task :=
    (request.program task).focus (· request.sessionId) (putSession request.sessionId)
  ambient user all := some (registerUser user all)
  restart all := fun sessionId => (all sessionId).reboot

/-- An empty database, as far as sessions and their members go. -/
def EmptyDatabase (all : AllSessions P) : Prop :=
  ∀ sessionId, (all sessionId).database.session = none ∧
    ∀ userId, (all sessionId).database.members userId = none

/-! ### The canonical owner -/

/-- The session row and the membership rows of a session. -/
structure MembershipRows where
  session : Option SessionRow
  members : UserId → Option RoleEnum

def membershipRows (server : ServerState P) : MembershipRows :=
  ⟨server.database.session, server.database.members⟩

/-- The owner of a session is its only member with that role, and a session that
is not there has no members. -/
def CanonicalOwner (rows : MembershipRows) : Prop :=
  match rows.session with
  | none => ∀ userId, rows.members userId = none
  | some session => ∀ userId, rows.members userId = some .owner ↔ userId = session.ownerId

/-- A session stays, with its owner. -/
def OwnerKept (before after : MembershipRows) : Prop :=
  ∀ session, before.session = some session →
    ∃ later, after.session = some later ∧ later.ownerId = session.ownerId

theorem OwnerKept.of_same {before after : MembershipRows} (same : after.session = before.session) :
    OwnerKept before after :=
  fun session stored => ⟨session, same.trans stored, rfl⟩

theorem OwnerKept.trans {first second third : MembershipRows} (earlier : OwnerKept first second)
    (later : OwnerKept second third) : OwnerKept first third := by
  intro session stored
  obtain ⟨middle, found, same⟩ := earlier session stored
  obtain ⟨last, found', same'⟩ := later middle found
  exact ⟨last, found', same'.trans same⟩

/-- The protocol of the rows of one session. -/
def ownershipProtocol : Logic Unit MembershipRows Call where
  inv _ rows := CanonicalOwner rows
  rely _ _ before _ after := OwnerKept before after
  guar _ _ before _ after := OwnerKept before after

/-- A loaded session row names the owner of the committed one. -/
def OwnerLoaded (loaded : Option SessionRow) (_ : Unit) (rows : MembershipRows) : Prop :=
  ∀ session, loaded = some session →
    ∃ stored, rows.session = some stored ∧ stored.ownerId = session.ownerId

private theorem standing_ownerLoaded {calls : Call → Prop} (loaded : Option SessionRow) :
    Standing ownershipProtocol calls task (OwnerLoaded loaded) where
  idle _ _ := .of_same rfl
  stable kept _ known session found := by
    obtain ⟨stored, there, same⟩ := known session found
    obtain ⟨later, there', same'⟩ := kept stored there
    exact ⟨later, there', same'.trans same⟩
  parked _ _ := trivial

abbrev ownership (P : Platform) : Logic Unit (ServerState P) Call :=
  ownershipProtocol.over membershipRows

/-- The invariant, with what loaded rows say about the committed ones. -/
abbrev Owned (rows : IdentityMap) : Unit → ServerState P → Prop :=
  ownershipProtocol.Knows membershipRows (OwnerLoaded rows.session)

/-! ### Reads -/

section Reads

variable {allows : ServerState P → Call → Event P → Prop} {rows : IdentityMap} {server : ServerState P}

/-- The invariant at the end of a read, with what the loaded rows say. -/
def loads (loaded : α → IdentityMap) : Post Unit (ServerState P) Exn α := fun result _ server =>
  match result with
  | .ok value => Owned (loaded value) () server
  | .error _ => Owned IdentityMap.empty () server

private theorem owned_empty (owned : Owned rows () server) : Owned IdentityMap.empty () server :=
  owned.weaken fun _ _ _ _ => nofun

/-- Rows that are loaded for the first time are the committed ones. -/
theorem owned_load {session : Option SessionRow} {members : UserId → Option RoleEnum}
    (owned : Owned rows () server)
    (committed : ∀ row, session = some row → server.database.session = some row) :
    Owned (rows.load session members) () server := by
  refine ⟨owned.1, fun row found => ?_⟩
  unfold IdentityMap.load at found
  cases earlier : rows.session with
  | some row' =>
      rw [earlier] at found
      exact owned.2 row (earlier.trans found)
  | none =>
      rw [earlier] at found
      exact ⟨row, committed row found, rfl⟩

private theorem owned_loadUser (userId : UserId) (owned : Owned rows () server) :
    Owned (rows.loadUser userId server.database) () server := by
  unfold IdentityMap.loadUser
  split
  · exact owned
  · split
    · exact owned_load owned fun _ => id
    · exact owned_load owned nofun

private theorem owned_loadSession (owned : Owned rows () server) :
    Owned (rows.loadSession server.database) () server := by
  unfold IdentityMap.loadSession
  split
  · exact owned
  · exact owned_load owned fun _ => id

/-- A query that may load rows. -/
theorem query_loads {value : ServerState P → α} {loaded : α → IdentityMap}
    (loading : ∀ {server}, Owned rows () server → Owned (loaded (value server)) () server)
    (owned : Owned rows () server) :
    wp (ownership P) allows task (query value) (loads loaded) () server := by
  refine wp_mono ?_ (query_answer (standing_ownerLoaded rows.session) owned)
  intro result _ server answered
  cases result with
  | error exn => exact owned_empty answered.1
  | ok answer =>
      obtain rfl := answered.2 answer rfl
      exact loading answered.1

private theorem getUser_loads (userId : UserId) (owned : Owned rows () server) :
    wp (ownership P) allows task (getUser userId rows) (loads (·.2)) () server :=
  query_loads (owned_loadUser userId) owned

private theorem selectMember_loads (userId : UserId) (owned : Owned rows () server) :
    wp (ownership P) allows task (selectMember userId rows) (loads (·.2)) () server := by
  refine query_loads (fun owned => ?_) owned
  dsimp only
  split
  · exact owned
  · exact owned_load owned nofun

private theorem getSession_loads (owned : Owned rows () server) :
    wp (ownership P) allows task (getSession rows) (loads (·.2)) () server := by
  unfold getSession
  split
  · exact owned
  · exact query_loads owned_loadSession owned

/-- What follows a read. -/
theorem wp_loads_bind {first : ServerProgram P α} {rest : α → ServerProgram P β}
    {loaded : α → IdentityMap} {loaded' : β → IdentityMap}
    (holds : wp (ownership P) allows task first (loads loaded) () server)
    (later : ∀ value server, Owned (loaded value) () server →
      wp (ownership P) allows task (rest value) (loads loaded') () server) :
    wp (ownership P) allows task (first >>= rest) (loads loaded') () server := by
  rw [wp_bind]
  refine wp_mono ?_ holds
  intro result _ server after
  cases result with
  | ok value => exact later value server after
  | error exn => exact after

private theorem perform_loads (access : Access) (owned : Owned rows () server) :
    wp (ownership P) allows task (access.perform rows) (loads id) () server := by
  cases access with
  | user userId => exact wp_loads_bind (getUser_loads userId owned) fun _ _ => id
  | session => exact wp_loads_bind (getSession_loads owned) fun _ _ => id
  | member userId => exact wp_loads_bind (selectMember_loads userId owned) fun _ _ => id
  | expire row memberships =>
      cases row with
      | false => exact owned
      | true => exact owned_empty owned

private theorem performAll_loads {accesses : List Access} (owned : Owned rows () server) :
    wp (ownership P) allows task (performAll accesses rows) (loads id) () server := by
  induction accesses generalizing rows server with
  | nil => exact owned
  | cons access rest inductionHypothesis =>
      exact wp_loads_bind (perform_loads access owned) fun _ _ => inductionHypothesis

end Reads

/-! ### Calls -/

section Calls

variable {allows : ServerState P → Call → Event P → Prop} {rows : IdentityMap} {server : ServerState P}

/-- A member row that follows the owner of the session. -/
theorem canonical_update {stored : SessionRow} {members : UserId → Option RoleEnum}
    {userId : UserId} {role : Option RoleEnum} (canonical : CanonicalOwner ⟨some stored, members⟩)
    (follows : role = some .owner ↔ userId = stored.ownerId) :
    CanonicalOwner ⟨some stored, Function.update members userId role⟩ := by
  intro user
  by_cases same : user = userId
  · subst same
    change Function.update members user role user = some .owner ↔ _
    rw [Function.update_self]
    exact follows
  · change Function.update members userId role user = some .owner ↔ _
    rw [Function.update_of_ne same]
    exact canonical user

/-- What a commit may do where a session row is loaded. -/
def CommitsOwned (rows : IdentityMap) (effect : ServerState P → Option (ServerState P)) : Prop :=
  ∀ {server after}, Owned rows () server → effect server = some after →
    CanonicalOwner (membershipRows after) ∧
      OwnerKept (membershipRows server) (membershipRows after)

def ended : Post Unit (ServerState P) Exn Unit := fun _ _ server =>
  Owned IdentityMap.empty () server

private theorem owned_of_canonical (canonical : CanonicalOwner (membershipRows server)) :
    Owned IdentityMap.empty () server :=
  ⟨canonical, nofun⟩

private theorem commit_owned {effect : ServerState P → Option (ServerState P)}
    (commits : CommitsOwned rows effect) (owned : Owned rows () server) :
    wp (ownership P) allows task (commit effect) ended () server := by
  refine wp_awaitCall owned.1 trivial ?_
  intro _ server₁ kept inv _ event result server₂ _ taken
  have standing : Standing ownershipProtocol Working task (OwnerLoaded rows.session) :=
    standing_ownerLoaded rows.session
  have owned₁ : Owned rows () server₁ := ⟨inv, standing.stable kept inv owned.2⟩
  rcases commit_outcome taken with ⟨rfl, _⟩ | ⟨effected, _⟩
  · exact ⟨(), .of_same rfl, owned_empty owned₁⟩
  · obtain ⟨canonical, kept⟩ := commits owned₁ effected
    exact ⟨(), kept, owned_of_canonical canonical⟩

private theorem commit_refresh_owned {effect : ServerState P → Option (ServerState P)}
    (commits : CommitsOwned rows effect) (owned : Owned rows () server) :
    wp (ownership P) allows task (do commit effect; refresh) ended () server := by
  rw [wp_bind]
  refine wp_mono ?_ (commit_owned commits owned)
  intro result _ server after
  cases result with
  | error exn => exact after
  | ok value =>
      exact silent_operation (standing_ownerLoaded none) (by decide) (fun _ => rfl) () server after

/-- A session row that is loaded belongs to the committed owner. -/
theorem stored_of_owned {session : SessionRow} (owned : Owned rows () server)
    (loaded : rows.session = some session) :
    ∃ stored, server.database.session = some stored ∧ stored.ownerId = session.ownerId ∧
      CanonicalOwner ⟨some stored, server.database.members⟩ := by
  obtain ⟨stored, there, same⟩ := owned.2 session loaded
  refine ⟨stored, there, same, ?_⟩
  have canonical : CanonicalOwner (membershipRows server) := owned.1
  rw [membershipRows, show server.database.session = some stored from there] at canonical
  exact canonical

private theorem commits_insertMember {session : SessionRow} {userId : UserId} {role : RoleEnum}
    (loaded : rows.session = some session) (member : role ≠ .owner)
    (other : userId ≠ session.ownerId) :
    CommitsOwned rows (insertMember (P := P) task userId role) := by
  intro server after owned effect
  obtain ⟨stored, there, same, canonical⟩ := stored_of_owned owned loaded
  simp only [insertMember] at effect
  split at effect
  · cases effect
  · obtain rfl := Option.some.inj effect
    refine ⟨?_, .of_same rfl⟩
    simp only [membershipRows, there]
    exact canonical_update canonical (by simp [member, same, other])

private theorem commits_setRole {session : SessionRow} {userId : UserId} {role : RoleEnum}
    (loaded : rows.session = some session) (follows : role = .owner ↔ userId = session.ownerId) :
    CommitsOwned rows (setRole (P := P) task userId role) := by
  intro server after owned effect
  obtain ⟨stored, there, same, canonical⟩ := stored_of_owned owned loaded
  simp only [setRole] at effect
  split at effect
  · cases effect
  · obtain rfl := Option.some.inj effect
    refine ⟨?_, .of_same rfl⟩
    simp only [membershipRows, there]
    exact canonical_update canonical (by rw [Option.some.injEq, same]; exact follows)

private theorem commits_deleteMember {session : SessionRow} {userId : UserId}
    (loaded : rows.session = some session) (other : userId ≠ session.ownerId) :
    CommitsOwned rows (deleteMember (P := P) task userId) := by
  intro server after owned effect
  obtain ⟨stored, there, same, canonical⟩ := stored_of_owned owned loaded
  obtain rfl := Option.some.inj effect
  refine ⟨?_, .of_same rfl⟩
  simp only [membershipRows, there]
  exact canonical_update canonical (by simp [same, other])

private theorem commits_deactivate : CommitsOwned rows (deactivate (P := P) task) := by
  intro server after owned effect
  obtain rfl := Option.some.inj effect
  have canonical : CanonicalOwner (membershipRows server) := owned.1
  cases there : server.database.session with
  | none =>
      rw [membershipRows, there] at canonical
      simp only [membershipRows, there, Option.map_none]
      exact ⟨canonical, nofun⟩
  | some stored =>
      rw [membershipRows, there] at canonical
      simp only [membershipRows, there, Option.map_some]
      refine ⟨canonical, fun session found => ?_⟩
      obtain rfl := Option.some.inj found
      exact ⟨_, rfl, rfl⟩

private theorem commits_insertSession {ownerId : UserId} {language : LanguageEnum} :
    CommitsOwned rows (insertSession (P := P) task ownerId language) := by
  intro server after owned effect
  simp only [insertSession] at effect
  split at effect
  · next absent free =>
      obtain rfl := Option.some.inj effect
      have canonical : CanonicalOwner (membershipRows server) := owned.1
      rw [membershipRows, absent] at canonical
      have empty : ∀ user, server.database.members user = none := canonical
      refine ⟨fun user => ?_, fun session found => ?_⟩
      · change Function.update server.database.members ownerId (some .owner) user = some .owner ↔
          user = ownerId
        by_cases same : user = ownerId
        · simp [same]
        · simp [same, empty user]
      · cases absent.symm.trans found
  · cases effect

/-- The session that a call works on is loaded. -/
theorem getActiveSession_loads (owned : Owned rows () server) :
    wp (ownership P) allows task (getActiveSession rows) (fun result _ server => match result with
      | .ok (session, rows) => Owned rows () server ∧ rows.session = some session
      | .error _ => Owned IdentityMap.empty () server) () server := by
  unfold getActiveSession getSession
  cases loaded : rows.session with
  | some session =>
      change wp (ownership P) allows task (if !session.isActive then _ else _) _ () server
      split
      · exact owned_empty owned
      · exact ⟨owned, loaded⟩
  | none =>
      rw [wp_bind]
      refine wp_mono ?_ (query_answer (standing_ownerLoaded rows.session) owned)
      intro result _ server answered
      rcases result with exn | ⟨session, rows'⟩
      · exact owned_empty answered.1
      · obtain ⟨stored, rfl⟩ := Prod.mk.inj (answered.2 _ rfl)
        rw [thenPost_ok]
        cases session with
        | none => exact owned_empty answered.1
        | some session =>
            dsimp only
            split
            · exact owned_empty answered.1
            · refine ⟨owned_loadSession answered.1, ?_⟩
              simp [IdentityMap.loadSession, IdentityMap.load, ← stored, loaded]

/-- What follows the check of the session. -/
theorem wp_active_bind {rest : SessionRow × IdentityMap → ServerProgram P Unit}
    (owned : Owned rows () server)
    (later : ∀ session rows server, Owned rows () server → rows.session = some session →
      wp (ownership P) allows task (rest (session, rows)) ended () server) :
    wp (ownership P) allows task (getActiveSession rows >>= rest) ended () server := by
  rw [wp_bind]
  refine wp_mono ?_ (getActiveSession_loads owned)
  intro result _ server after
  cases result with
  | ok value => exact later _ _ server after.1 after.2
  | error exn => exact after

/-- What follows a read, where only the loaded session matters. -/
theorem wp_read_bind {value : ServerState P → α} {rest : α → ServerProgram P Unit}
    (owned : Owned rows () server)
    (later : ∀ answer server, Owned rows () server →
      wp (ownership P) allows task (rest answer) ended () server) :
    wp (ownership P) allows task (query value >>= rest) ended () server := by
  rw [wp_bind]
  refine wp_mono ?_ (query_answer (standing_ownerLoaded rows.session) owned)
  intro result _ server after
  cases result with
  | ok answer => exact later answer server after.1
  | error exn => exact owned_empty after.1

private theorem createSession_owned {ownerId : UserId} {language : LanguageEnum}
    (owned : Owned rows () server) :
    wp (ownership P) allows task (createSession task ownerId language) ended () server := by
  refine wp_read_bind owned fun taken server owned => ?_
  split
  · exact owned_empty owned
  · exact commit_refresh_owned commits_insertSession owned

private theorem addMember_owned {userId : UserId} {role : RoleEnum} (owned : Owned rows () server) :
    wp (ownership P) allows task (addMember task rows userId role) ended () server := by
  refine wp_active_bind owned fun session rows server owned loaded => ?_
  dsimp only
  split
  · exact owned_empty owned
  · next member =>
      split
      · exact owned_empty owned
      · next other =>
          refine wp_read_bind owned fun (found, _) server owned => ?_
          cases found with
          | none => exact owned_empty owned
          | some username =>
              refine wp_read_bind owned fun (existing, _) server owned => ?_
              cases existing with
              | some role => exact owned_empty owned
              | none => exact commit_refresh_owned (commits_insertMember loaded member other) owned

private theorem updateMemberRole_owned {userId : UserId} {newRole : RoleEnum}
    (owned : Owned rows () server) :
    wp (ownership P) allows task (updateMemberRole task rows userId newRole) ended () server := by
  refine wp_active_bind owned fun session rows server owned loaded => ?_
  dsimp only
  split
  · exact owned_empty owned
  · next kept =>
      split
      · exact owned_empty owned
      · next refused =>
          have follows : newRole = .owner ↔ userId = session.ownerId := by tauto
          refine wp_read_bind owned fun (found, _) server owned => ?_
          cases found with
          | none => exact owned_empty owned
          | some role =>
              dsimp only
              split
              · exact owned_empty owned
              · exact commit_refresh_owned (commits_setRole loaded follows) owned

private theorem removeMember_owned {userId : UserId} (owned : Owned rows () server) :
    wp (ownership P) allows task (removeMember task rows userId) ended () server := by
  refine wp_active_bind owned fun session rows server owned loaded => ?_
  dsimp only
  split
  · exact owned_empty owned
  · next other =>
      refine wp_read_bind owned fun (found, _) server owned => ?_
      cases found with
      | none => exact owned_empty owned
      | some role =>
          exact wp_read_bind owned fun _ server owned =>
            commit_owned (commits_deleteMember loaded other) owned

private theorem closeSession_owned (owned : Owned rows () server) :
    wp (ownership P) allows task (closeSession task rows) ended () server :=
  wp_active_bind owned fun _ _ _ owned _ => commit_refresh_owned commits_deactivate owned

/-- Every call keeps the canonical owner of its session. -/
theorem call_owned (call : MembershipCall) (owned : Owned rows () server) :
    wp (ownership P) allows task (call.program task rows) ended () server := by
  cases call with
  | createSession ownerId language => exact createSession_owned owned
  | addMember userId role => exact addMember_owned owned
  | updateMemberRole userId newRole => exact updateMemberRole_owned owned
  | removeMember userId => exact removeMember_owned owned
  | closeSession => exact closeSession_owned owned

private theorem request_owned (request : MembershipRequest)
    (canonical : CanonicalOwner (membershipRows server)) :
    wp (ownership P) allows task (request.program task) ended () server := by
  unfold MembershipRequest.program
  rw [wp_bind]
  refine wp_mono ?_ (performAll_loads (owned_of_canonical canonical))
  intro result _ server after
  cases result with
  | ok rows => exact call_owned request.call after
  | error exn => exact after

end Calls

/-! ### Calls that refuse -/

/-- `SessionServiceError`. -/
def IsServiceError (exn : Exn) : Prop := ∃ kind message, exn = .sessionService kind message

section Refusals

variable {rows : IdentityMap}

private theorem query_observes (value : ServerState P → α) :
    Observes membershipRows (query value) := by
  refine .awaitCall fun event state result after taken => ?_
  cases event with
  | received message => cases taken
  | done | raised | raisedAfter =>
      obtain ⟨-, rfl⟩ := Prod.mk.inj (Option.some.inj taken)
      rfl

private theorem commit_never (effect : ServerState P → Option (ServerState P)) :
    Never IsServiceError (commit effect) := by
  refine .awaitCall fun event state exn after taken => ?_
  rintro ⟨kind, message, rfl⟩
  rcases commit_outcome taken with ⟨_, raised⟩ | ⟨_, raised | ⟨_, raised⟩⟩ <;> cases raised

private theorem refresh_never : Never IsServiceError (refresh : ServerProgram P Unit) := by
  refine .awaitCall fun event state exn after taken => ?_
  rintro ⟨kind, message, rfl⟩
  cases event <;> cases taken

private theorem commit_refresh_never (effect : ServerState P → Option (ServerState P)) :
    Never IsServiceError (do commit effect; refresh) :=
  .bind (commit_never effect) fun _ => refresh_never

private theorem getSession_observes : Observes membershipRows (getSession (P := P) rows) := by
  unfold getSession
  split
  · exact .pure _
  · exact query_observes _

private theorem getActiveSession_observes :
    Observes membershipRows (getActiveSession (P := P) rows) := by
  refine .bind getSession_observes fun (session, rows) => ?_
  cases session with
  | none => exact .throw _
  | some session =>
      dsimp only
      split
      · exact .throw _
      · exact .pure _

private theorem performAll_observes {accesses : List Access} :
    Observes membershipRows (performAll (P := P) accesses rows) := by
  induction accesses generalizing rows with
  | nil => exact .pure _
  | cons access rest inductionHypothesis =>
      refine .bind ?_ fun _ => inductionHypothesis
      cases access with
      | user userId => exact .bind (query_observes _) fun _ => .pure _
      | session => exact .bind getSession_observes fun _ => .pure _
      | member userId => exact .bind (query_observes _) fun _ => .pure _
      | expire row memberships => exact .pure _

/-- A call that raises a service error has only read. -/
theorem call_refuses (call : MembershipCall) :
    Refuses membershipRows IsServiceError (call.program (P := P) task rows) := by
  cases call with
  | createSession ownerId language =>
      refine .bind (query_observes _) fun taken => ?_
      split
      · exact (Observes.throw _).refuses
      · exact (commit_refresh_never _).refuses
  | addMember userId role =>
      refine .bind getActiveSession_observes fun (session, rows) => ?_
      dsimp only
      split
      · exact (Observes.throw _).refuses
      · split
        · exact (Observes.throw _).refuses
        · refine .bind (query_observes _) fun (found, _) => ?_
          cases found with
          | none => exact (Observes.throw _).refuses
          | some username =>
              refine .bind (query_observes _) fun (existing, _) => ?_
              cases existing with
              | some role => exact (Observes.throw _).refuses
              | none => exact (commit_refresh_never _).refuses
  | updateMemberRole userId newRole =>
      refine .bind getActiveSession_observes fun (session, rows) => ?_
      dsimp only
      split
      · exact (Observes.throw _).refuses
      · split
        · exact (Observes.throw _).refuses
        · refine .bind (query_observes _) fun (found, _) => ?_
          cases found with
          | none => exact (Observes.throw _).refuses
          | some role =>
              dsimp only
              split
              · exact (Observes.pure _).refuses
              · exact (commit_refresh_never _).refuses
  | removeMember userId =>
      refine .bind getActiveSession_observes fun (session, rows) => ?_
      dsimp only
      split
      · exact (Observes.throw _).refuses
      · refine .bind (query_observes _) fun (found, _) => ?_
        cases found with
        | none => exact (Observes.throw _).refuses
        | some role => exact .bind (query_observes _) fun _ => (commit_never _).refuses
  | closeSession =>
      exact .bind getActiveSession_observes fun _ => (commit_refresh_never _).refuses

private theorem request_refuses (request : MembershipRequest) :
    Refuses membershipRows IsServiceError (request.program (P := P) task) :=
  .bind performAll_observes fun _ => call_refuses request.call

end Refusals

/-! ### All sessions -/

def allRows (all : AllSessions P) (sessionId : SessionId) : MembershipRows :=
  membershipRows (all sessionId)

private theorem isPart_session (sessionId : SessionId) :
    IsPart (fun all : AllSessions P => all sessionId) (putSession sessionId) where
  get_put _ _ := Function.update_self _ _ _
  put_put _ _ _ := Function.update_idem _ _ _
  put_get _ := Function.update_eq_self _ _

private theorem allRows_put_self (sessionId : SessionId) (server : ServerState P)
    (all : AllSessions P) :
    allRows (putSession sessionId server all) sessionId = membershipRows server := by
  unfold allRows putSession
  rw [Function.update_self]

private theorem allRows_put_of_ne {sessionId other : SessionId} (different : other ≠ sessionId)
    (server : ServerState P) (all : AllSessions P) :
    allRows (putSession sessionId server all) other = allRows all other := by
  unfold allRows putSession
  rw [Function.update_of_ne different]

/-- A request that raises a service error leaves the rows of every session alone. -/
theorem handler_refuses (request : MembershipRequest) :
    Refuses allRows IsServiceError ((membershipService P).handler request task) := by
  intro env start trace exn final runs refused step member
  obtain ⟨inner, steps⟩ := runs_focus (isPart_session request.sessionId) runs
  have silent := request_refuses request inner refused
  obtain ⟨part, same⟩ := steps step member
  funext sessionId
  by_cases own : sessionId = request.sessionId
  · subst own
    exact silent _ (ownSteps_part (· request.sessionId) member)
  · rw [same]
    exact allRows_put_of_ne own part step.1

def allOwnership (P : Platform) : Logic Unit (AllSessions P) Call where
  inv _ all := ∀ sessionId, CanonicalOwner (allRows all sessionId)
  rely _ _ before _ after := ∀ sessionId, OwnerKept (allRows before sessionId) (allRows after sessionId)
  guar _ _ before _ after := ∀ sessionId, OwnerKept (allRows before sessionId) (allRows after sessionId)

private theorem allOwnership_lawful : (allOwnership P).Lawful where
  rely_refl _ _ _ _ := .of_same rfl
  rely_trans earlier later sessionId := (earlier sessionId).trans (later sessionId)
  guar_rely _ guar := guar
  parked_stable _ _ := trivial
  done_stable _ _ := trivial
  fresh_stable _ _ := trivial

def OthersOwned (sessionId : SessionId) (_ : Unit) (all : AllSessions P) : Prop :=
  ∀ other, other ≠ sessionId → CanonicalOwner (allRows all other)

private theorem embeds_session (sessionId : SessionId)
    (allows : AllSessions P → Call → Event P → Prop) :
    Embeds (ownership P) (allOwnership P) (fun _ _ _ => True) allows task
      (fun all => all sessionId) (putSession sessionId) id (OthersOwned sessionId) where
  get_put := (isPart_session sessionId).get_put
  allows _ := trivial
  suspend {ghost all call} others inv _ := by
    refine ⟨fun other => ?_, trivial⟩
    by_cases own : other = sessionId
    · subst own
      exact inv
    · exact others other own
  resume _ rely inv _ := ⟨fun other _ => inv other, rely sessionId, inv sessionId, trivial⟩
  step {ghost all ghost' server} others guar := by
    refine ⟨(), rfl, fun other => ?_, fun other different => ?_⟩
    · by_cases own : other = sessionId
      · subst own
        rw [allRows_put_self]
        exact guar
      · rw [allRows_put_of_ne own]
        exact .of_same rfl
    · rw [allRows_put_of_ne different]
      exact others other different

/-- The membership service keeps the owners of all sessions. -/
theorem membershipService_keeps (policy : Policy (AllSessions P) (Event P) Call MembershipRequest) :
    Keeps (allOwnership P) (membershipService P) policy EmptyDatabase where
  start {all} empty := by
    refine ⟨(), fun sessionId => ?_, fun _ => trivial⟩
    obtain ⟨absent, none⟩ := empty sessionId
    unfold allRows membershipRows
    rw [absent]
    exact none
  request {task request ghost all} inv _ _ := by
    refine wp_mono ?_ (wp_focus (embeds_session request.sessionId (policy request))
      (fun other _ => inv other) (request_owned request (inv request.sessionId)))
    intro result _ all after
    refine ⟨fun other => ?_, trivial⟩
    by_cases own : other = request.sessionId
    · subst own
      exact after.2.1
    · exact after.1 other own
  ambient {user ghost all all'} taken inv _ := by
    obtain rfl := Option.some.inj taken
    exact ⟨(), inv, fun _ _ => .of_same rfl⟩
  restart inv := ⟨(), inv, fun _ => trivial⟩

/-- In every state that calls of the membership service reach from an empty
database, the owner of a session is its only member with that role. A call that
raises a service error has changed no row. -/
theorem canonical_owner {policy : Policy (AllSessions P) (Event P) Call MembershipRequest}
    {pool : Pool (AllSessions P) (Event P) Call Exn MembershipRequest}
    (reached : Reachable (membershipService P) policy EmptyDatabase pool) :
    (∀ sessionId session, (pool.state sessionId).database.session = some session →
      ∀ userId, (pool.state sessionId).database.members userId = some .owner ↔
        userId = session.ownerId) ∧
    ∀ task request trace final last, pool.tasks task = none →
      Stretch (membershipService P) policy task
        (pool.runTask task request ((membershipService P).handler request task) pool.state).state
        (pool.runTask task request ((membershipService P).handler request task) pool.state)
        trace final last →
      (∃ kind message, last.outcome task = some (.error (.sessionService kind message))) →
        ∀ step ∈ ownSteps pool.state trace final, ∀ sessionId,
          (step.2 sessionId).database.session = (step.1 sessionId).database.session ∧
            (step.2 sessionId).database.members = (step.1 sessionId).database.members := by
  constructor
  · intro sessionId session stored
    obtain ⟨_, inv, _⟩ :=
      reached.verified allOwnership_lawful (membershipService_keeps policy) fun _ => trivial
    have canonical : CanonicalOwner (membershipRows (pool.state sessionId)) := inv sessionId
    rw [membershipRows, stored] at canonical
    exact canonical
  · rintro task request trace final last unused stretch ⟨kind, message, raised⟩ step member sessionId
    have spawned : Step (membershipService P) policy pool _ := .spawn task request unused
    have runs : Runs (fun _ _ => True) ((membershipService P).handler request task) pool.state trace
        (.error (.sessionService kind message)) final :=
      runs_settle (stretch.runs (fun _ => trivial) (fun _ _ => trivial) (fun _ _ => trivial) raised
        (reached.step spawned) trivial (Function.update_self _ _ _))
    have same := congrFun (handler_refuses request runs ⟨kind, message, rfl⟩ step member) sessionId
    exact ⟨congrArg (·.session) same, congrArg (·.members) same⟩

def emptySessions : AllSessions editLog :=
  fun _ => boot (DocStore.boot "session" ⟨none, none⟩ none 0)
    ⟨none, fun _ => none, fun user => some (toString user), fun _ => none, fun _ => none, 0, []⟩
    fun _ => ∅

private theorem emptyDatabase_emptySessions : EmptyDatabase emptySessions :=
  fun _ => ⟨rfl, fun _ => rfl⟩

def creationRun : List (Move (Event editLog) MembershipRequest (UserId × String)) :=
  .spawn 0 ⟨7, [], .createSession 1 .python⟩ :: [.done, .done, .done].map (.resume 0)

def demoteOwner : MembershipRequest := ⟨7, [.user 1], .updateMemberRole 1 .editor⟩

theorem canonical_owner_run :
    ∃ pool, Reachable (membershipService editLog) anyEvent EmptyDatabase pool ∧
      ∃ session, (pool.state 7).database.session = some session ∧
        (∀ userId, (pool.state 7).database.members userId = some .owner ↔
          userId = session.ownerId) ∧
      ∃ trace final last, last.outcome 1 = some (.error (.sessionService .conflict
          "The canonical session owner cannot be demoted")) ∧
        Stretch (membershipService editLog) anyEvent 1
          (pool.runTask 1 demoteOwner ((membershipService editLog).handler demoteOwner 1)
            pool.state).state
          (pool.runTask 1 demoteOwner ((membershipService editLog).handler demoteOwner 1) pool.state)
          trace final last ∧
        ∀ step ∈ ownSteps pool.state trace final, ∀ sessionId,
          (step.2 sessionId).database.session = (step.1 sessionId).database.session ∧
            (step.2 sessionId).database.members = (step.1 sessionId).database.members := by
  have refused : ((membershipService editLog).play permitsAll creationRun
      (Pool.start emptySessions)).bind (fun pool =>
        ((membershipService editLog).follow permitsAll 1 [.resume 1 .done]
          (pool.runTask 1 demoteOwner ((membershipService editLog).handler demoteOwner 1)
            pool.state).state
          (pool.runTask 1 demoteOwner ((membershipService editLog).handler demoteOwner 1)
            pool.state)).map fun (_, _, last) =>
        ((pool.tasks 1).isNone, (pool.state 7).database.session, last.outcome 1)) =
      some (true, some ⟨true, 1, .python⟩, some (.error (.sessionService .conflict
        "The canonical session owner cannot be demoted"))) := by decide
  obtain ⟨pool, played, follows⟩ := Option.bind_eq_some_iff.mp refused
  obtain ⟨⟨trace, final, last⟩, followed, facts⟩ := Option.map_eq_some_iff.mp follows
  simp only [Prod.mk.injEq] at facts
  obtain ⟨unused, stored, ended⟩ := facts
  have reached : Reachable (membershipService editLog) anyEvent EmptyDatabase pool :=
    Service.reachable_of_play (fun _ _ _ _ _ => trivial) (.start emptyDatabase_emptySessions) played
  have stretch := Service.stretch_of_follow (fun _ _ _ _ _ => trivial) followed
  exact ⟨pool, reached, _, stored, (canonical_owner reached).1 7 _ stored, trace, final, last, ended,
    stretch, (canonical_owner reached).2 1 demoteOwner trace final last
      (Option.isNone_iff_eq_none.mp unused) stretch ⟨_, _, ended⟩⟩

end Concord.Server

import Concord.Server.AuthorityProtocol

/-!
Contract: the steps that change rows, stamps, fences and the room.

Owns:
- what a task may change at any time, and under the room lock;
- the specification of each step of the authority protocol;
- the section under the room lock.

Does not own: the handlers.
-/

set_option autoImplicit false

namespace Concord.Server

open Asyncio Collaboration ServerState

variable {P : Platform} {α : Type} {returning : Prop} {task other : TaskId}
  {pending pending' : Pending}
  {before after : AuthorityView} {server : ServerState P}
  {allows : ServerState P → Call → Event P → Prop}

abbrev serverAuthority (P : Platform) (returning : Prop) : Logic Pending (ServerState P) Call :=
  (authorityProtocol returning).over authorityView

/-- The invariant and a fact of a task. -/
abbrev Knows (returning : Prop) (fact : Pending → AuthorityView → Prop) (pending : Pending)
    (server : ServerState P) : Prop :=
  (authorityProtocol returning).Knows authorityView fact pending server

/-! ### Rows and fences that stay -/

/-- The rows and the fences are as they were. -/
structure SameRows (before after : AuthorityView) : Prop where
  session : after.session = before.session
  members : after.members = before.members
  memberInvalidations : after.memberInvalidations = before.memberInvalidations
  sessionInvalidation : after.sessionInvalidation = before.sessionInvalidation

theorem SameRows.member (same : SameRows before after) {userId : UserId} {version : Nat}
    {role : RoleEnum} (current : MemberCurrent returning userId version role pending before) :
    MemberCurrent returning userId version role pending after := by
  have versions : after.memberVersion userId = before.memberVersion userId := by
    unfold AuthorityView.memberVersion
    rw [same.memberInvalidations]
  constructor
  · rw [versions]
    exact current.past
  · rw [versions, same.members]
    exact current.current

theorem SameRows.sessionVersion (same : SameRows before after) :
    after.sessionVersion = before.sessionVersion := by
  unfold AuthorityView.sessionVersion
  rw [same.sessionInvalidation]

theorem SameRows.sessionCurrent (same : SameRows before after) {version : Nat}
    (current : SessionCurrent returning version pending before) : SessionCurrent returning version pending after := by
  constructor
  · rw [same.sessionVersion]
    exact current.past
  · unfold AuthorityView.SessionActive
    rw [same.sessionVersion, same.session]
    exact current.current

/-- What a step of `task` leaves to the other tasks. -/
structure OthersKept (task : TaskId) (before after : AuthorityView) : Prop where
  commits : ∀ other, task ≠ other →
    after.membershipCommits.count other = before.membershipCommits.count other
  stamp : ∀ other, task ≠ other → after.connectionStamps other = before.connectionStamps other
  joined : ∀ other, task ≠ other → after.joined other = before.joined other
  inRoom : ∀ other, task ≠ other → (after.InRoom other ↔ before.InRoom other)

theorem rely_of_sameRows (kept : OthersKept task before after) (same : SameRows before after)
    (different : task ≠ other)
    (lock : before.roomLock = some other → LockStable other before after) :
    AuthorityRely returning other pending before pending after where
  lock held := ⟨lock held, rfl⟩
  commits := kept.commits other different
  stamp := kept.stamp other different
  joined := kept.joined other different
  inRoom := kept.inRoom other different
  member _ _ _ := same.member
  session _ := same.sessionCurrent
  memberVersion_le userId := by
    unfold AuthorityView.memberVersion
    rw [same.memberInvalidations]
  sessionVersion_le := same.sessionVersion.ge
  later := .of_same same.session

/-- A step that is possible without the room lock. -/
theorem lockStable_of_sameRows (same : SameRows before after)
    (roomLock : after.roomLock = before.roomLock) (connections : after.connections = before.connections)
    (revoked : ∀ websocket, before.InRoom websocket → before.Revoked websocket →
      after.Revoked websocket) (held : before.roomLock = some other) :
    LockStable other before after where
  roomLock := roomLock.trans held
  session := same.session
  members userId role row := by
    rw [same.members]
    exact row
  memberInvalidations := same.memberInvalidations
  sessionInvalidation := same.sessionInvalidation
  connections := connections
  revoked := revoked

/-- While `task` holds the room lock, no other task does. -/
theorem notHeld_of_holder (held : before.roomLock = some task) (different : task ≠ other)
    (mine : before.roomLock = some other) : LockStable other before after :=
  absurd (Option.some.inj (held.symm.trans mine)) different

/-! ### The room lock -/

/-- A fact that does not depend on the room lock. -/
def LockFree (fact : Pending → AuthorityView → Prop) : Prop :=
  ∀ pending view lock, fact pending view → fact pending { view with roomLock := lock }

theorem lockFree_true : LockFree fun _ _ => True := fun _ _ _ _ => trivial

theorem lockFree_stamped (user : AuthenticatedUser) : LockFree (Stamped returning task user) :=
  fun _ _ _ known => ⟨known.1, ⟨known.2.1.past, known.2.1.current⟩,
    known.2.2.past, known.2.2.current⟩

theorem lockFree_placed : LockFree fun _ => Placed task := fun _ _ _ placed => placed

theorem lockFree_and {first second : Pending → AuthorityView → Prop} (left : LockFree first)
    (right : LockFree second) : LockFree fun pending view => first pending view ∧ second pending view :=
  fun _ _ _ both => ⟨left _ _ _ both.1, right _ _ _ both.2⟩

/-- A change of the room lock, for a task that had it or finds it free. -/
theorem rely_setLock (lock : Option TaskId) (different : task ≠ other)
    (mine : before.roomLock = none ∨ before.roomLock = some task) :
    AuthorityRely returning other pending before pending { before with roomLock := lock } := by
  have kept : OthersKept task before { before with roomLock := lock } :=
    ⟨fun _ _ => rfl, fun _ _ => rfl, fun _ _ => rfl, fun _ _ => Iff.rfl⟩
  refine rely_of_sameRows kept ⟨rfl, rfl, rfl, rfl⟩ different ?_
  intro held
  rcases mine with free | mine
  · rw [free] at held
    cases held
  · exact notHeld_of_holder mine different held

/-- A section under the room lock, at whose end everything is fenced. -/
theorem withRoomLock_authority {start returned raised : Pending → AuthorityView → Prop}
    {body : ServerProgram P α} (standing : Standing (authorityProtocol returning) Working task start)
    (startFree : LockFree start) (returnedFree : LockFree returned) (raisedFree : LockFree raised)
    (holds : Attempts (serverAuthority P returning) allows task
      (Knows returning fun pending view => start pending view ∧ LockHolder task none pending view)
      (Knows returning fun pending view => returned pending view ∧ LockHolder task none pending view)
      (Knows returning fun pending view => raised pending view ∧ LockHolder task none pending view) body) :
    Attempts (serverAuthority P returning) allows task (Knows returning start) (Knows returning returned) (Knows returning raised)
      (withRoomLock task body) := by
  intro pending server knows
  unfold withRoomLock
  rw [wp_bind]
  have working : Working .roomLock := by decide
  refine wp_awaitUntil knows.1 (standing.parked working knows.2) ?_
  intro pending₁ server₁ rely inv _ _ server₂ taken
  have known := standing.stable rely inv knows.2
  unfold acquireRoomLock at taken
  cases free : server₁.roomLock with
  | some holder => simp [free] at taken
  | none =>
      simp only [free, Option.some.injEq, Prod.mk.injEq, true_and] at taken
      subst taken
      obtain rfl := inv.fenced free
      refine ⟨none, fun other different => rely_setLock (some task) different (.inl free), ?_⟩
      rw [thenPost_ok, wp_tryFinally]
      have acquired : Knows returning (fun pending view =>
          start pending view ∧ LockHolder task none pending view) none
          { server₁ with roomLock := some task } :=
        ⟨⟨nofun, inv.authorized⟩, startFree _ _ (some task) known, rfl, rfl⟩
      -- The release at the end of the section, whatever its result.
      have release : ∀ {fact : Pending → AuthorityView → Prop} {pending server}, LockFree fact →
          Knows returning (fun pending view => fact pending view ∧ LockHolder task none pending view)
            pending server →
          (∀ other, task ≠ other → AuthorityRely returning other pending (authorityView server) pending
            (authorityView server.releaseRoomLock)) ∧
            Knows returning fact pending (P := P) server.releaseRoomLock := by
        intro fact pending server lockFree held
        have noDebt : pending = none := held.2.2.2
        refine ⟨fun other different => rely_setLock none different (.inr held.2.2.1),
          ⟨fun _ => noDebt, held.1.authorized⟩, lockFree _ _ none held.2.1⟩
      refine wp_mono ?_ (holds none _ acquired)
      intro result pending₃ server₃ held
      cases result with
      | ok value =>
          obtain ⟨guar, after⟩ := release returnedFree held
          exact wp_modify pending₃ guar after
      | error exn =>
          obtain ⟨guar, after⟩ := release raisedFree held
          exact wp_modify pending₃ guar after

/-! ### Steps without the room lock -/

/-- A step that is possible at any time. -/
structure OwnStep (returning : Prop) (task : TaskId) (before after : AuthorityView) : Prop where
  kept : OthersKept task before after
  rows : SameRows before after
  roomLock : after.roomLock = before.roomLock
  connections : after.connections = before.connections
  revoked : ∀ websocket, before.InRoom websocket → before.Revoked websocket →
    after.Revoked websocket
  mutations : returning → ∀ mutation ∈ after.mutations,
    mutation ∈ before.mutations ∨ mutation.Authorized

theorem OwnStep.guar (step : OwnStep returning task before after) :
    ∀ other, task ≠ other → AuthorityRely returning other pending before pending after :=
  fun _ different => rely_of_sameRows step.kept step.rows different
    (lockStable_of_sameRows step.rows step.roomLock step.connections step.revoked)

theorem OwnStep.inv (step : OwnStep returning task before after) (inv : AuthorityInv returning pending before) :
    AuthorityInv returning pending after where
  fenced free := inv.fenced (step.roomLock.symm.trans free)
  authorized returns mutation member := by
    rcases step.mutations returns mutation member with older | authorized
    · exact inv.authorized returns mutation older
    · exact authorized

theorem othersKept_of_same (commits : after.membershipCommits = before.membershipCommits)
    (stamp : ∀ other, task ≠ other → after.connectionStamps other = before.connectionStamps other)
    (joined : ∀ other, task ≠ other → after.joined other = before.joined other)
    (connections : after.connections = before.connections) : OthersKept task before after where
  commits other _ := by rw [commits]
  stamp := stamp
  joined := joined
  inRoom other _ := by
    unfold AuthorityView.InRoom
    rw [connections]

theorem ownStep_setStamp (stamp : Option AuthorizationStamp) :
    OwnStep returning task (authorityView server) (authorityView (server.setStamp task stamp)) where
  kept := othersKept_of_same rfl (fun _ different => Function.update_of_ne different.symm _ _)
    (fun _ _ => rfl) rfl
  rows := ⟨rfl, rfl, rfl, rfl⟩
  roomLock := rfl
  connections := rfl
  revoked _ _ := id
  mutations _ _ member := .inl member

theorem ownStep_setRevoked (failure : Nat × String) :
    OwnStep returning task (authorityView server) (authorityView (server.setRevoked task failure)) where
  kept := othersKept_of_same rfl (fun _ _ => rfl) (fun _ _ => rfl) rfl
  rows := ⟨rfl, rfl, rfl, rfl⟩
  roomLock := rfl
  connections := rfl
  revoked websocket _ marked := by
    change (Function.update server.revokedConnections task (some failure) websocket).isSome = true
    by_cases own : websocket = task
    · rw [own, Function.update_self]
      rfl
    · rw [Function.update_of_ne own]
      exact marked
  mutations _ _ member := .inl member

theorem ownStep_joined :
    OwnStep returning task (authorityView server) (authorityView
      { server with joined := Function.update server.joined task true }) where
  kept := othersKept_of_same rfl (fun _ _ => rfl)
    (fun _ different => Function.update_of_ne different.symm _ _) rfl
  rows := ⟨rfl, rfl, rfl, rfl⟩
  roomLock := rfl
  connections := rfl
  revoked _ _ := id
  mutations _ _ member := .inl member

/-- A connection that is not in the room is forgotten. -/
theorem ownStep_forget (outside : ¬(authorityView server).InRoom task) :
    OwnStep returning task (authorityView server) (authorityView (server.forget task)) where
  kept := othersKept_of_same rfl (fun _ different => Function.update_of_ne different.symm _ _)
    (fun _ _ => rfl) rfl
  rows := ⟨rfl, rfl, rfl, rfl⟩
  roomLock := rfl
  connections := rfl
  revoked websocket member marked := by
    have own : websocket ≠ task := by
      intro same
      rw [same] at member
      exact outside member
    change (Function.update server.revokedConnections task none websocket).isSome = true
    rw [Function.update_of_ne own]
    exact marked
  mutations _ _ member := .inl member

theorem ownStep_mutate {userId : UserId} {method : DocStore P → Except Exn α × DocStore P}
    (editor : returning → (authorityView server).SessionActive ∧
      ∃ role, (authorityView server).members userId = some role ∧
        roleRank .editor ≤ roleRank role) :
    OwnStep returning task (authorityView server) (authorityView (server.mutate userId method).2) where
  kept := othersKept_of_same rfl (fun _ _ => rfl) (fun _ _ => rfl) rfl
  rows := ⟨rfl, rfl, rfl, rfl⟩
  roomLock := rfl
  connections := rfl
  revoked _ _ := id
  mutations returns mutation member := by
    rcases List.mem_cons.mp member with rfl | older
    · exact .inr (editor returns)
    · exact .inl older

/-- A step of its own, and the fact that the task has then. -/
theorem modifyGet_authority {fact fact' : Pending → AuthorityView → Prop}
    {update : ServerState P → α × ServerState P}
    (step : ∀ {pending server}, fact pending (authorityView server) →
      OwnStep returning task (authorityView server) (authorityView (update server).2) ∧
        fact' pending (authorityView (update server).2)) :
    Leads (serverAuthority P returning) allows task (Knows returning fact) (Knows returning fact')
      (modifyGet update : ServerProgram P α) := by
  intro pending server knows
  obtain ⟨own, after⟩ := step knows.2
  exact wp_modifyGet pending own.guar ⟨own.inv knows.1, after⟩

/-! ### An authorized frame -/

/-- A connection that no fence has reached has a stamp that is not stale. -/
theorem versions_le_of_authorized {userId : UserId} {stamp : AuthorizationStamp}
    (stamped : server.connectionStamps task = some stamp)
    (authorized : server.authorizationFailure userId task = none) :
    (authorityView server).sessionVersion ≤ stamp.sessionVersion ∧
      (authorityView server).memberVersion userId ≤ stamp.memberVersion := by
  have bound : ∀ (invalidation : Option AuthorizationInvalidation) (version : Nat),
      invalidation.filter (version < ·.version) = none → invalidationVersion invalidation ≤ version := by
    intro invalidation version none
    cases invalidation with
    | none => exact Nat.zero_le version
    | some invalidation => simpa [Option.filter, invalidationVersion] using none
  unfold authorizationFailure at authorized
  rw [stamped] at authorized
  dsimp only at authorized
  split at authorized
  · cases authorized
  · split at authorized
    · cases authorized
    · next session =>
        split at authorized
        · cases authorized
        · next member => exact ⟨bound _ _ session, bound _ _ member⟩

/-- Under the room lock, an authorized connection acts for an editor. -/
theorem editor_of_authorized {user : AuthenticatedUser} (returns : returning)
    (stamped : Stamped returning task user none (authorityView server))
    (authorized : server.authorizationFailure user.userId task = none) :
    (authorityView server).SessionActive ∧
      (authorityView server).members user.userId = some user.role := by
  obtain ⟨sessionLe, memberLe⟩ := versions_le_of_authorized stamped.1 authorized
  constructor
  · rcases stamped.2.2.current returns with stale | debt | active
    · exact absurd sessionLe (Nat.not_le_of_lt stale)
    · cases debt
    · exact active
  · rcases stamped.2.1.current returns with stale | debt | row
    · exact absurd memberLe (Nat.not_le_of_lt stale)
    · cases debt
    · exact row

/-! ### Steps under the room lock -/

/-- A step of the holder of the room lock that leaves the rows and the fences
alone. -/
structure HolderStep (task : TaskId) (before after : AuthorityView) : Prop where
  kept : OthersKept task before after
  rows : SameRows before after
  roomLock : after.roomLock = before.roomLock
  mutations : after.mutations = before.mutations

/-- A step of the holder, and the fact that it has then besides the lock. -/
theorem modifyGet_holder {fact : Pending → AuthorityView → Prop}
    {update : ServerState P → α × ServerState P}
    (step : ∀ server, HolderStep task (authorityView server) (authorityView (update server).2))
    (later : ∀ pending server, (authorityView server).roomLock = some task →
      fact pending (authorityView (update server).2)) :
    Leads (serverAuthority P returning) allows task (Knows returning (LockHolder task none))
      (Knows returning fun pending view => fact pending view ∧ LockHolder task none pending view)
      (modifyGet update : ServerProgram P α) := by
  intro pending server knows
  have own := step server
  refine wp_modifyGet pending (fun other different => rely_of_sameRows own.kept own.rows different
    (notHeld_of_holder knows.2.1 different)) ⟨⟨?_, ?_⟩, later pending server knows.2.1, ?_⟩
  · intro free
    exact knows.1.fenced (own.roomLock.symm.trans free)
  · rw [own.mutations]
    exact knows.1.authorized
  · exact ⟨own.roomLock.trans knows.2.1, knows.2.2⟩

theorem holderStep_forget :
    HolderStep task (authorityView server) (authorityView (server.forget task)) where
  kept := othersKept_of_same rfl (fun _ different => Function.update_of_ne different.symm _ _)
    (fun _ _ => rfl) rfl
  rows := ⟨rfl, rfl, rfl, rfl⟩
  roomLock := rfl
  mutations := rfl

theorem holderStep_append {connection : ConnectionInfo} (own : connection.websocket = task) :
    HolderStep task (authorityView server)
      (authorityView { server with rooms := some (server.connections ++ [connection]) }) where
  kept :=
    { commits := fun _ _ => rfl
      stamp := fun _ _ => rfl
      joined := fun _ _ => rfl
      inRoom := by
        intro other different
        have notOwn : connection.websocket ≠ other := by
          rw [own]
          exact different
        simp [AuthorityView.InRoom, authorityView, connections, or_and_right, exists_or, notOwn] }
  rows := ⟨rfl, rfl, rfl, rfl⟩
  roomLock := rfl
  mutations := rfl

theorem holderStep_leave :
    HolderStep task (authorityView server) (authorityView (leave task server).2) where
  kept :=
    { commits := fun _ _ => rfl
      stamp := fun _ _ => rfl
      joined := fun _ _ => rfl
      inRoom := by
        intro other different
        have stays : (authorityView (leave task server).2).connections =
            server.connections.filter (·.websocket ≠ task) := leave_connections task server
        unfold AuthorityView.InRoom
        rw [stays]
        constructor
        · intro member
          rcases member with ⟨connection, member, named⟩
          exact ⟨connection, (List.mem_filter.mp member).1, named⟩
        · intro member
          rcases member with ⟨connection, member, named⟩
          refine ⟨connection, List.mem_filter.mpr ⟨member, ?_⟩, named⟩
          rw [named]
          exact decide_eq_true different.symm }
  rows := ⟨rfl, rfl, rfl, rfl⟩
  roomLock := rfl
  mutations := rfl

/-! ### Commits and fences -/

/-- The holder of the room lock has to fence a change, or has nothing to fence. -/
def FenceDue (task : TaskId) (affected : Affected) (pending : Pending) (view : AuthorityView) : Prop :=
  view.roomLock = some task ∧ (pending = none ∨ pending = some affected)

private theorem standing_fenceDue {calls : Call → Prop} (affected : Affected) :
    Standing (authorityProtocol returning) calls task (FenceDue task affected) :=
  standing_of_rely fun rely held => by
    obtain ⟨stable, same⟩ := rely.lock held.1
    refine ⟨stable.roomLock, ?_⟩
    rw [same]
    exact held.2

theorem fenceDue_of_lockHolder {affected : Affected}
    (held : LockHolder task none pending before) : FenceDue task affected pending before :=
  ⟨held.1, .inl held.2⟩

/-- What a membership operation may count on: a commit that took effect returns,
and so does the refresh after it. -/
structure EffectsReturn (allows : ServerState P → Call → Event P → Prop) : Prop where
  commit : ∀ server event, allows server .databaseCommit event → event ≠ .raisedAfter
  refresh : ∀ server event, allows server .databaseRefresh event → event = .done

/-- A committed change of rows by the holder of the room lock. -/
structure CommitStep (task : TaskId) (affected : Affected) (before after : AuthorityView) : Prop where
  kept : OthersKept task before after
  memberInvalidations : after.memberInvalidations = before.memberInvalidations
  sessionInvalidation : after.sessionInvalidation = before.sessionInvalidation
  roomLock : after.roomLock = before.roomLock
  mutations : after.mutations = before.mutations
  members : ∀ userId, affected ≠ .member userId → after.members userId = before.members userId
  session : affected ≠ .session → after.session = before.session
  later : SessionLater before after

theorem CommitStep.rely {affected : Affected} (step : CommitStep task affected before after)
    (due : returning → pending = some affected) (held : before.roomLock = some task)
    (different : task ≠ other) : AuthorityRely returning other none before pending after where
  lock mine := absurd (Option.some.inj (held.symm.trans mine)) different
  commits := step.kept.commits other different
  stamp := step.kept.stamp other different
  joined := step.kept.joined other different
  inRoom := step.kept.inRoom other different
  member userId version role current := by
    have versions : after.memberVersion userId = before.memberVersion userId := by
      unfold AuthorityView.memberVersion
      rw [step.memberInvalidations]
    constructor
    · rw [versions]
      exact current.past
    · intro returns
      rw [versions]
      by_cases hit : affected = .member userId
      · exact .inr (.inl ((due returns).trans (congrArg some hit)))
      · rcases current.current returns with stale | debt | row
        · exact .inl stale
        · cases debt
        · exact .inr (.inr ((step.members userId hit).trans row))
  session version current := by
    have versions : after.sessionVersion = before.sessionVersion := by
      unfold AuthorityView.sessionVersion
      rw [step.sessionInvalidation]
    constructor
    · rw [versions]
      exact current.past
    · intro returns
      rw [versions]
      by_cases hit : affected = .session
      · exact .inr (.inl ((due returns).trans (congrArg some hit)))
      · rcases current.current returns with stale | debt | active
        · exact .inl stale
        · cases debt
        · unfold AuthorityView.SessionActive
          rw [step.session hit]
          exact .inr (.inr active)
  memberVersion_le userId := by
    unfold AuthorityView.memberVersion
    rw [step.memberInvalidations]
  sessionVersion_le := by
    unfold AuthorityView.sessionVersion
    rw [step.sessionInvalidation]
  later := step.later

/-- Where operations may raise, the holder of the room lock may leave a change
without a fence. -/
theorem rely_forgetful (raises : ¬returning) (held : before.roomLock = some task)
    (different : task ≠ other) : AuthorityRely returning other pending before pending' before where
  lock mine := absurd (Option.some.inj (held.symm.trans mine)) different
  commits := rfl
  stamp := rfl
  joined := rfl
  inRoom := Iff.rfl
  member _ _ _ current := ⟨current.past, fun returns => absurd returns raises⟩
  session _ current := ⟨current.past, fun returns => absurd returns raises⟩
  memberVersion_le _ := le_rfl
  sessionVersion_le := le_rfl
  later := .of_same rfl

/-- The commit of a change that has to be fenced. -/
theorem commit_authority {affected : Affected} {effect : ServerState P → Option (ServerState P)}
    (returns : returning → EffectsReturn allows)
    (step : ∀ server after, effect server = some after →
      CommitStep task affected (authorityView server) (authorityView after)) :
    Attempts (serverAuthority P returning) allows task (Knows returning (LockHolder task none))
      (Knows returning (FenceDue task affected)) (Knows returning (LockHolder task none)) (commit effect) := by
  intro pending server knows
  refine wp_awaitCall knows.1 trivial ?_
  intro pending₁ server₁ rely inv _ event result server₂ allowed taken
  have standing : Standing (authorityProtocol returning) Working task (LockHolder task none) :=
    standing_lockHolder none
  have held := standing.stable rely inv knows.2
  rcases commit_outcome taken with ⟨rfl, rfl⟩ | ⟨effected, returned | ⟨raised, rfl⟩⟩
  · exact ⟨pending₁, fun other _ => AuthorityRely.refl _ _ _, inv, held⟩
  · subst returned
    obtain rfl := held.2
    have changed := step _ _ effected
    refine ⟨some affected, fun other different => changed.rely (fun _ => rfl) held.1 different,
      ⟨?_, ?_⟩, changed.roomLock.trans held.1, .inr rfl⟩
    · intro free
      rw [changed.roomLock, held.1] at free
      cases free
    · rw [changed.mutations]
      exact inv.authorized
  · obtain rfl := held.2
    have changed := step _ _ effected
    have lost : returning → none = some affected := fun returns' =>
      absurd raised ((returns returns').commit server₁ event allowed)
    refine ⟨none, fun other different => changed.rely lost held.1 different, ⟨fun _ => rfl, ?_⟩,
      changed.roomLock.trans held.1, rfl⟩
    rw [changed.mutations]
    exact inv.authorized

/-- The refresh after a commit that took effect. -/
theorem refresh_authority {affected : Affected} (returns : returning → EffectsReturn allows) :
    Attempts (serverAuthority P returning) allows task (Knows returning (FenceDue task affected))
      (Knows returning (FenceDue task affected)) (Knows returning (LockHolder task none)) refresh := by
  intro pending server knows
  refine wp_awaitCall knows.1 trivial ?_
  intro pending₁ server₁ rely inv _ event result server₂ allowed taken
  have standing : Standing (authorityProtocol returning) Working task (FenceDue task affected) :=
    standing_fenceDue affected
  have due := standing.stable rely inv knows.2
  -- A change that is not fenced is forgotten where operations may raise.
  have forgotten : event ≠ .done → ∀ other, task ≠ other → AuthorityRely returning other pending₁
      (authorityView server₁) none (authorityView server₁) := fun raised other different =>
    rely_forgetful (fun returns' => raised ((returns returns').refresh server₁ event allowed))
      due.1 different
  cases event with
  | received message => cases taken
  | done =>
      obtain ⟨rfl, rfl⟩ := Prod.mk.inj (Option.some.inj taken)
      exact ⟨pending₁, fun other _ => AuthorityRely.refl _ _ _, inv, due⟩
  | raised | raisedAfter =>
      obtain ⟨rfl, rfl⟩ := Prod.mk.inj (Option.some.inj taken)
      exact ⟨none, forgotten nofun, ⟨fun _ => rfl, inv.authorized⟩, due.1, rfl⟩

private theorem othersKept_push
    (commits : after.membershipCommits = task :: before.membershipCommits)
    (stamp : after.connectionStamps = before.connectionStamps)
    (joined : after.joined = before.joined)
    (connections : after.connections = before.connections) : OthersKept task before after where
  commits other different := by
    rw [commits, List.count_cons_of_ne different]
  stamp other _ := congrFun stamp other
  joined other _ := congrFun joined other
  inRoom other _ := by
    unfold AuthorityView.InRoom
    rw [connections]

theorem commitStep_setRole {userId : UserId} {role : RoleEnum} {server' : ServerState P}
    (effect : setRole task userId role server = some server') :
    CommitStep task (.member userId) (authorityView server) (authorityView server') := by
  unfold setRole at effect
  split at effect
  · cases effect
  · obtain rfl := Option.some.inj effect
    refine ⟨othersKept_push rfl rfl rfl rfl, rfl, rfl, rfl, rfl, ?_, fun _ => rfl, .of_same rfl⟩
    intro other different
    exact Function.update_of_ne (fun same => different (congrArg _ same.symm)) _ _

theorem commitStep_deleteMember {userId : UserId} {server' : ServerState P}
    (effect : deleteMember task userId server = some server') :
    CommitStep task (.member userId) (authorityView server) (authorityView server') := by
  obtain rfl := Option.some.inj effect
  refine ⟨othersKept_push rfl rfl rfl rfl, rfl, rfl, rfl, rfl, ?_, fun _ => rfl, .of_same rfl⟩
  intro other different
  exact Function.update_of_ne (fun same => different (congrArg _ same.symm)) _ _

theorem commitStep_deactivate {server' : ServerState P}
    (effect : deactivate task server = some server') :
    CommitStep task .session (authorityView server) (authorityView server') := by
  obtain rfl := Option.some.inj effect
  refine ⟨othersKept_push rfl rfl rfl rfl, rfl, rfl, rfl, rfl, fun _ _ => rfl,
    fun own => absurd rfl own, ?_⟩
  intro row stored
  change server.database.session = some row at stored
  refine .inr ?_
  change server.database.session.map _ = _
  rw [stored]
  rfl

/-- A new membership is no change for those who are members. It may come at any
time. -/
theorem insertMember_authority (userId : UserId) (role : RoleEnum) :
    Preserves (serverAuthority P returning) allows task (Knows returning fun _ _ => True)
      (commit (insertMember task userId role)) := by
  intro pending server knows
  refine wp_awaitCall knows.1 trivial ?_
  intro pending₁ server₁ _ inv _ event result server₂ _ taken
  rcases commit_outcome taken with ⟨rfl, _⟩ | ⟨effected, _⟩
  · exact ⟨pending₁, fun other _ => AuthorityRely.refl _ _ _, inv, trivial⟩
  · unfold insertMember at effected
    split at effected
    · cases effected
    · next absent =>
        obtain rfl := Option.some.inj effected
        have stays : ∀ other role', server₁.database.members other = some role' →
            Function.update server₁.database.members userId (some role) other = some role' := by
          intro other role' row
          have different : other ≠ userId := by
            intro same
            rw [same, absent] at row
            cases row
          rw [Function.update_of_ne different]
          exact row
        refine ⟨pending₁, fun other different => ⟨fun held => ⟨⟨held, rfl, stays, rfl, rfl, rfl,
          fun _ _ => id⟩, rfl⟩, ?_, rfl, rfl, Iff.rfl, ?_, fun _ current =>
            ⟨current.past, current.current⟩, fun _ => le_rfl, le_rfl, .of_same rfl⟩,
          ⟨inv.fenced, inv.authorized⟩, trivial⟩
        · exact List.count_cons_of_ne different
        · intro other version role' current
          exact ⟨current.past, fun returns =>
            (current.current returns).imp_right (Or.imp_right (stays other role'))⟩

/-! ### Fences -/

theorem fenceMember_view (userId : UserId) (code : Nat) (reason : String) (server : ServerState P) :
    (authorityView (fenceMember userId code reason server).2).memberVersion userId =
      (authorityView server).memberVersion userId + 1 := by
  simp [authorityView, fenceMember, revokeConnections, AuthorityView.memberVersion,
    invalidationVersion]

private theorem fenceMember_view_of_ne {userId other : UserId} (code : Nat) (reason : String)
    (server : ServerState P) (different : other ≠ userId) :
    (authorityView (fenceMember userId code reason server).2).memberVersion other =
      (authorityView server).memberVersion other := by
  simp [authorityView, fenceMember, revokeConnections, AuthorityView.memberVersion, different]

/-- The fence on a member makes every earlier stamp of that member stale. -/
theorem fenceMember_authority (userId : UserId) (code : Nat) (reason : String) :
    Leads (serverAuthority P returning) allows task (Knows returning (FenceDue task (.member userId)))
      (Knows returning (LockHolder task none))
      (modifyGet (fenceMember userId code reason) : ServerProgram P (List WebSocket)) := by
  intro pending server knows
  have held : server.roomLock = some task := knows.2.1
  refine wp_modifyGet none (fun other different => ?_) ⟨⟨fun _ => rfl, knows.1.authorized⟩, held, rfl⟩
  exact
    { lock := fun mine => absurd (Option.some.inj (held.symm.trans mine)) different
      commits := rfl
      stamp := rfl
      joined := rfl
      inRoom := Iff.rfl
      member := by
        intro user version role current
        by_cases hit : user = userId
        · subst hit
          have older := current.past
          have newer := fenceMember_view user code reason server
          exact ⟨by omega, fun _ => .inl (by omega)⟩
        · have same := fenceMember_view_of_ne code reason server hit
          constructor
          · rw [same]
            exact current.past
          · intro returns
            rw [same]
            rcases current.current returns with stale | debt | row
            · exact .inl stale
            · rcases knows.2.2 with clean | due
              · rw [clean] at debt
                cases debt
              · rw [due] at debt
                cases debt
                exact absurd rfl hit
            · exact .inr (.inr row)
      session := by
        intro version current
        refine ⟨current.past, fun returns => ?_⟩
        rcases current.current returns with stale | debt | active
        · exact .inl stale
        · rcases knows.2.2 with clean | due
          · rw [clean] at debt
            cases debt
          · rw [due] at debt
            cases debt
        · exact .inr (.inr active)
      memberVersion_le := by
        intro user
        by_cases hit : user = userId
        · subst hit
          have newer := fenceMember_view user code reason server
          omega
        · exact (fenceMember_view_of_ne code reason server hit).ge
      sessionVersion_le := le_rfl
      later := .of_same rfl }

theorem fenceSession_view (server : ServerState P) :
    (authorityView (fenceSession server).2).sessionVersion =
      (authorityView server).sessionVersion + 1 := rfl

/-- The fence on the session makes every earlier stamp stale. -/
theorem fenceSession_authority :
    Leads (serverAuthority P returning) allows task (Knows returning (FenceDue task .session))
      (Knows returning (LockHolder task none))
      (modifyGet fenceSession : ServerProgram P (List WebSocket)) := by
  intro pending server knows
  have held : server.roomLock = some task := knows.2.1
  have newer := fenceSession_view server
  refine wp_modifyGet none (fun other different => ?_) ⟨⟨fun _ => rfl, knows.1.authorized⟩, held, rfl⟩
  exact
    { lock := fun mine => absurd (Option.some.inj (held.symm.trans mine)) different
      commits := rfl
      stamp := rfl
      joined := rfl
      inRoom := Iff.rfl
      member := by
        intro user version role current
        refine ⟨current.past, fun returns => ?_⟩
        rcases current.current returns with stale | debt | row
        · exact .inl stale
        · rcases knows.2.2 with clean | due
          · rw [clean] at debt
            cases debt
          · rw [due] at debt
            cases debt
        · exact .inr (.inr row)
      session := by
        intro version current
        have older := current.past
        exact ⟨by omega, fun _ => .inl (by omega)⟩
      memberVersion_le := fun _ => le_rfl
      sessionVersion_le := by omega
      later := .of_same rfl }

end Concord.Server

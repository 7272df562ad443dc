import Concord.Server.Fences

/-!
Contract: membership changes of a closed session.

Owns:
- `OwnerRequest`, the owner-only endpoints;
- the session row that the role check of such a request has loaded, and what it
  says about the committed row when the request commits.

The service serves its own check from the row that the role check has loaded, so
it does not see a close that commits in between.

Does not own: the fences of the changes.
-/

set_option autoImplicit false

namespace Concord.Server

open Asyncio Collaboration ServerState

variable {P : Platform} {task : TaskId}

/-- A request to an owner-only endpoint. -/
inductive OwnerRequest where
  | addMember (key : MemberKey) (role : RoleEnum)
  | fenced (change : MembershipOperation)

namespace OwnerRequest

def request (credentials : Option UserId) : OwnerRequest → ServerRequest P
  | addMember key role => .addMember credentials key role
  | fenced change => change.request credentials

/-- What the endpoint does for an owner that has passed the role check. -/
def body (task : TaskId) (owner : CurrentUser) : OwnerRequest → ServerProgram P Unit
  | addMember key role => do
      let userId ← resolveMemberUserId key
      translateErrors (Server.addMember task owner.rows userId role)
  | fenced change =>
      documentRoomLifecycle task fun _ => change.underLock task owner.rows

theorem handler_request (credentials : Option UserId) (request : OwnerRequest) :
    (request.request credentials : ServerRequest P).handler task = (do
      let owner ← roleChecker .owner credentials
      request.body task owner) := by
  cases request with
  | addMember key role => rfl
  | fenced change => exact change.handler_request credentials

end OwnerRequest

/-! ### The loaded session row -/

section Loads

variable {env : ServerState P → ServerState P → Prop} {start final : ServerState P}
  {trace : List (ServerMoment P)}

/-- The row was committed when one of the moments read it. -/
def ReadAt (trace : List (ServerMoment P)) (row : SessionRow) : Prop :=
  ∃ moment ∈ trace, moment.state.database.session = some row

theorem ReadAt.append_left {earlier : List (ServerMoment P)} {row : SessionRow}
    (read : ReadAt earlier row) (later : List (ServerMoment P)) : ReadAt (earlier ++ later) row := by
  obtain ⟨moment, member, stored⟩ := read
  exact ⟨moment, List.mem_append_left later member, stored⟩

theorem ReadAt.append_right {later : List (ServerMoment P)} {row : SessionRow}
    (read : ReadAt later row) (earlier : List (ServerMoment P)) : ReadAt (earlier ++ later) row := by
  obtain ⟨moment, member, stored⟩ := read
  exact ⟨moment, List.mem_append_right earlier member, stored⟩

/-- A session that comes with its owner is the committed one. -/
theorem loadUser_session {userId : UserId} {database : Database P} {row : SessionRow}
    (loaded : (IdentityMap.empty.loadUser userId database).session = some row) :
    database.session = some row := by
  unfold IdentityMap.loadUser at loaded
  split at loaded
  · cases loaded
  · split at loaded
    · simpa [IdentityMap.load, IdentityMap.empty] using loaded
    · cases loaded

private theorem getCurrentUser_reads {credentials : Option UserId} {user : CurrentUser}
    {row : SessionRow}
    (runs : Runs env (getCurrentUser credentials) start trace (.ok user) final)
    (loaded : user.rows.session = some row) : ReadAt trace row := by
  cases credentials with
  | none => cases (runs_throw runs).2.1
  | some userId =>
      unfold getCurrentUser at runs
      rcases runs_bind runs with ⟨⟨found, rows⟩, _, reads, later, rfl, read, rest⟩ | ⟨_, raised, _⟩
      · obtain ⟨state, event, rfl, _, taken⟩ := runs_awaitCall read
        cases event with
        | received message => cases taken
        | done =>
            obtain ⟨answer, _⟩ := Prod.mk.inj (Option.some.inj taken)
            obtain ⟨_, rfl⟩ := Prod.mk.inj (Except.ok.inj answer)
            cases found with
            | none => cases (runs_throw rest).2.1
            | some username =>
                obtain ⟨_, returned, _⟩ := runs_pure rest
                obtain rfl := Except.ok.inj returned
                exact ⟨_, List.mem_append_left _ (List.mem_singleton_self _), loadUser_session loaded⟩
        | raised | raisedAfter => cases taken
      · cases raised

/-- A session in the identity map was there before, or has been read. -/
theorem getSession_reads {rows rows' : IdentityMap} {session row : SessionRow}
    (runs : Runs env (getSession rows) start trace (.ok (some session, rows')) final)
    (loaded : rows'.session = some row) : rows.session = some row ∨ ReadAt trace row := by
  unfold getSession at runs
  split at runs
  · obtain ⟨_, returned, _⟩ := runs_pure runs
    obtain ⟨_, rfl⟩ := Prod.mk.inj (Except.ok.inj returned)
    exact .inl loaded
  · next absent =>
      obtain ⟨state, event, rfl, _, taken⟩ := runs_awaitCall runs
      cases event with
      | received message => cases taken
      | done =>
          obtain ⟨answer, _⟩ := Prod.mk.inj (Option.some.inj taken)
          obtain ⟨stored, rfl⟩ := Prod.mk.inj (Except.ok.inj answer)
          rw [loadSession_session stored absent] at loaded
          exact .inr ⟨_, List.mem_singleton_self _, stored.trans loaded⟩
      | raised | raisedAfter => cases taken

/-- A user that passes the role check comes with an active session row, as it
was committed at a moment of the check. -/
theorem roleChecker_reads {minRole : RoleEnum} {credentials : Option UserId} {owner : CurrentUser}
    (runs : Runs env (roleChecker minRole credentials) start trace (.ok owner) final) :
    ∃ row, owner.rows.session = some row ∧ row.isActive = true ∧ ReadAt trace row := by
  unfold roleChecker at runs
  rcases runs_bind runs with ⟨user, _, first, _, rfl, authenticated, checks⟩ | ⟨_, raised, _⟩
  · rcases runs_bind checks with ⟨⟨session, rows⟩, _, second, third, rfl, read, checks⟩ |
      ⟨_, raised, _⟩
    · cases session with
      | none => cases (runs_throw checks).2.1
      | some session =>
          have loaded : rows.session = some session := getSession_loaded read
          dsimp only at checks
          split at checks
          · cases (runs_throw checks).2.1
          · next isActive =>
              rcases runs_bind checks with ⟨⟨membership, rows'⟩, _, _, _, rfl, selected, checks⟩ |
                ⟨_, raised, _⟩
              · have kept : rows'.session = rows.session := selectMember_session selected
                dsimp only at checks
                split at checks
                · next user' checked =>
                    obtain ⟨_, returned, _⟩ := runs_pure checks
                    obtain rfl := Except.ok.inj returned
                    rw [checkRole_rows checked]
                    refine ⟨session, kept.trans loaded, by simpa using isActive, ?_⟩
                    rcases getSession_reads read loaded with earlier | later
                    · exact (getCurrentUser_reads authenticated earlier).append_left _
                    · exact (later.append_left _).append_right _
                · cases (runs_throw checks).2.1
              · cases raised
    · cases raised
  · cases raised

end Loads

/-- The role check only reads. -/
theorem roleChecker_awaits (minRole : RoleEnum) (credentials : Option UserId) :
    (roleChecker minRole credentials : ServerProgram P CurrentUser).Awaits (· = .databaseRead) := by
  have reads : ∀ {α : Type} (value : ServerState P → α),
      (query value : ServerProgram P α).Awaits (· = .databaseRead) := fun _ => .awaitCall (by rfl) _
  unfold roleChecker
  refine .bind ?_ fun user => .bind ?_ fun (session, rows) => ?_
  · unfold getCurrentUser
    split
    · trivial
    · refine .bind (reads _) fun (found, rows) => ?_
      cases found <;> trivial
  · unfold getSession
    split
    · trivial
    · exact reads _
  · cases session with
    | none => trivial
    | some session =>
        dsimp only
        split
        · trivial
        · refine .bind (reads _) fun (membership, rows) => ?_
          dsimp only
          split <;> trivial

/-! ### Every commit of the backend -/

/-- The session row as a later state has it: the same, or closed. -/
def RowLater (before after : ServerState P) : Prop :=
  SessionLater (authorityView before) (authorityView after)

theorem RowLater.refl (server : ServerState P) : RowLater server server := .of_same rfl

theorem RowLater.trans {first second third : ServerState P} (earlier : RowLater first second)
    (later : RowLater second third) : RowLater first third :=
  SessionLater.trans earlier later

private theorem rowLater_of_foreign {policy : ServerPolicy P} {pool middle : ServerPool P}
    (reached : Reachable (serverService P) policy Booted pool)
    (foreign : Foreign (serverService P) policy task pool middle) :
    RowLater pool.state middle.state := by
  have keeps : Keeps (serverAuthority P False) (serverService P) policy Booted :=
    serverService_keeps_authority False.elim
  obtain ⟨pending, pending', rely⟩ :=
    reached.relies (authorityProtocol_lawful.over authorityView) keeps (fun _ => trivial) foreign
  exact rely.later

/-- An active session has the row that it had before. -/
theorem active_iff_same {before after : ServerState P} {row : SessionRow}
    (later : RowLater before after)
    (stored : before.database.session = some row) (isActive : row.isActive = true) :
    (∃ current, after.database.session = some current ∧ current.isActive = true) ↔
      after.database.session = some row := by
  constructor
  · rintro ⟨current, found, active⟩
    rcases later row stored with stays | closed
    · exact stays
    · obtain rfl := Option.some.inj (found.symm.trans closed)
      cases active
  · exact fun same => ⟨row, same, isActive⟩

/-- The role check of a request, in an earlier part of the run, has loaded the
session row that the identity map still holds. -/
def LoadedByRoleCheck (policy : ServerPolicy P) (request : OwnerRequest)
    (credentials : Option UserId) (task : TaskId) (pool : ServerPool P) (row : SessionRow) : Prop :=
  ∃ start check later since checked owner,
    Reachable (serverService P) policy Booted start ∧ start.tasks task = none ∧
    Stretch (serverService P) policy task
      (start.runTask task (request.request credentials)
        ((request.request credentials : ServerRequest P).handler task) start.state).state
      (start.runTask task (request.request credentials)
        ((request.request credentials : ServerRequest P).handler task) start.state)
      (check ++ later) since pool ∧
    Runs (Interferes task) (roleChecker .owner credentials) start.state check (.ok owner) checked ∧
    owner.rows.session = some row ∧ row.isActive = true ∧ ReadAt check row

/-- A request of the owner commits while the session is active exactly where the
session row that its role check has loaded is still the committed one. -/
theorem active_at_commit {policy : ServerPolicy P} {pool : ServerPool P} {request : OwnerRequest}
    {credentials : Option UserId} {β : Type}
    {act : Event P → ServerState P → Option (β × ServerState P)} {next : β → ServerProgram P Unit}
    {event : Event P} {answer : β} {after : ServerState P}
    (reached : Reachable (serverService P) policy Booted pool)
    (suspended : pool.tasks task =
      some (request.request credentials, .await .databaseCommit act next))
    (allowed : policy (request.request credentials) pool.state .databaseCommit event)
    (taken : act event pool.state = some (answer, after)) :
    ∃ row, LoadedByRoleCheck policy request credentials task pool row ∧
      ((∃ current, pool.state.database.session = some current ∧ current.isActive = true) ↔
        pool.state.database.session = some row) := by
  obtain ⟨start, trace, since, began, unused, stretch⟩ := reached.stretch suspended
  have spawned : Step (serverService P) policy start _ := .spawn task (request.request credentials) unused
  -- The commit itself is the last moment of the longer stretch.
  have committed := stretch.trans (.own suspended allowed taken .stop)
  have begins : Begins (Interferes task) ((request.request credentials : ServerRequest P).handler task)
      start.state (trace ++ [⟨.databaseCommit, since, pool.state, event⟩]) :=
    begins_settle (committed.begins Interferes.refl Interferes.trans interferes_of_foreign
      (began.step spawned) (Interferes.refl _) (Function.update_self _ _ _))
  rw [request.handler_request] at begins
  have isLast : (⟨.databaseCommit, since, pool.state, event⟩ : ServerMoment P) ∈
      trace ++ [⟨.databaseCommit, since, pool.state, event⟩] :=
    List.mem_append_right _ (List.mem_singleton_self _)
  rcases begins_bind begins with checking | ⟨owner, checked, check, others, split, checks, _⟩
  · cases begins_awaits (roleChecker_awaits _ _) checking _ isLast
  · obtain ⟨row, loaded, isActive, read⟩ := roleChecker_reads checks
    have waits : ∀ moment ∈ check, moment.call = .databaseRead :=
      begins_awaits (roleChecker_awaits _ _) (begins_of_runs checks)
    obtain ⟨later, rfl⟩ : ∃ later, trace = check ++ later := by
      rcases List.append_eq_append_iff.mp split with ⟨rest, same, last⟩ | ⟨rest, same, _⟩
      · cases rest with
        | nil => exact ⟨[], by simpa using same.symm⟩
        | cons first rest =>
            obtain ⟨rfl, _⟩ := List.cons.inj last
            cases waits _ (same ▸ List.mem_append_right _ List.mem_cons_self)
      · exact ⟨rest, same⟩
    refine ⟨row, ⟨start, check, later, since, checked, owner, began, unused, stretch, checks, loaded,
      isActive, read⟩, ?_⟩
    obtain ⟨load, member, stored⟩ := read
    have ordered := (committed.ordered RowLater.refl RowLater.trans rowLater_of_foreign
      (began.step spawned)).2
    exact active_iff_same ((List.pairwise_append.mp ordered).2.2 load
      (List.mem_append_left _ member) _ (List.mem_singleton_self _)) stored isActive

/-- The owner's request to add user 3 has passed its role check; meanwhile the
session may be closed by another one. -/
def additionRun (meanwhile : Schedule) : Schedule :=
  .spawn 1 (.addMember (some 1) (.userId 3) .viewer) :: [.done, .done].map (.resume 1) ++
    meanwhile ++ [.done, .done].map (.resume 1)

def closeRun : Schedule :=
  .spawn 2 (.closeSession (some 1)) :: [.done, .done, .done, .done].map (.resume 2)

/-- The request for which a task waits to commit. -/
def additionAtCommit (pool : ServerPool editLog) : Option (Option UserId × UserId × RoleEnum) :=
  match pool.tasks 1 with
  | some (.addMember credentials (.userId userId) role, .await .databaseCommit _ _) =>
      some (credentials, userId, role)
  | _ => none

private theorem suspended_of_additionAtCommit {pool : ServerPool editLog}
    {credentials : Option UserId}
    {userId : UserId} {role : RoleEnum}
    (waiting : additionAtCommit pool = some (credentials, userId, role)) :
    ∃ β : Type, ∃ act, ∃ next : β → ServerProgram editLog Unit, pool.tasks 1 =
      some ((OwnerRequest.addMember (.userId userId) role).request credentials,
        .await .databaseCommit act next) := by
  unfold additionAtCommit at waiting
  split at waiting
  · next suspended =>
      simp only [Option.some.injEq, Prod.mk.injEq] at waiting
      obtain ⟨rfl, rfl, rfl⟩ := waiting
      exact ⟨_, _, _, suspended⟩
  · cases waiting

theorem active_at_commit_run :
    ∃ pool after, samplePool (additionRun []) = some pool ∧
      Step (serverService editLog) anyEvent pool after ∧
      after.state.database.members 3 = some .viewer ∧
      ∃ row, LoadedByRoleCheck anyEvent (.addMember (.userId 3) .viewer) (some 1) 1 pool row ∧
        ((∃ current, pool.state.database.session = some current ∧ current.isActive = true) ↔
          pool.state.database.session = some row) := by
  have added : (samplePool (additionRun [])).bind (fun pool =>
      ((serverService editLog).move permitsAll (.resume 1 .done) pool).map fun after =>
        (additionAtCommit pool, after.state.database.members 3)) =
      some (some (some 1, 3, .viewer), some .viewer) := by decide
  obtain ⟨pool, played, moves⟩ := Option.bind_eq_some_iff.mp added
  obtain ⟨after, moved, facts⟩ := Option.map_eq_some_iff.mp moves
  obtain ⟨waiting, member⟩ := Prod.mk.inj facts
  obtain ⟨β, act, next, suspended⟩ := suspended_of_additionAtCommit waiting
  obtain ⟨answer, state, _, taken, _⟩ := Service.resumed_of_move suspended moved
  exact ⟨pool, after, played, Service.step_of_move (fun _ _ _ _ _ => trivial) moved, member,
    active_at_commit (reachable_samplePool played) suspended trivial taken⟩

/-- The close commits after the role check: the member is added to the closed
session. -/
theorem member_added_to_closed_session :
    ∃ pool after, samplePool (additionRun closeRun) = some pool ∧
      Reachable (serverService editLog) anyEvent Booted pool ∧
      pool.state.database.session = some ⟨false, 1, .python⟩ ∧
      pool.state.database.members 3 = none ∧
      Step (serverService editLog) anyEvent pool after ∧
      after.state.database.members 3 = some .viewer := by
  have added : (samplePool (additionRun closeRun)).bind (fun pool =>
      ((serverService editLog).move permitsAll (.resume 1 .done) pool).map fun after =>
        (pool.state.database.session, pool.state.database.members 3,
          after.state.database.members 3)) =
      some (some ⟨false, 1, .python⟩, none, some .viewer) := by decide
  obtain ⟨pool, played, moves⟩ := Option.bind_eq_some_iff.mp added
  obtain ⟨after, moved, facts⟩ := Option.map_eq_some_iff.mp moves
  simp only [Prod.mk.injEq] at facts
  obtain ⟨closed, absent, member⟩ := facts
  exact ⟨pool, after, played, reachable_samplePool played, closed, absent,
    Service.step_of_move (fun _ _ _ _ _ => trivial) moved, member⟩

end Concord.Server

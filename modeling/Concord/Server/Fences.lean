import Concord.Asyncio.Runs
import Concord.Server.Authority

/-!
Contract: a committed membership change and its fence.

Owns:
- `MembershipOperation`, the endpoints that change a membership and fence it;
- `Separates`, the moments at which a commit and its fence come apart;
- the complete runs of such an endpoint among the other tasks: the fence matches
  the commit exactly where no moment separates them.

Does not own: what a connection does after its fence.
-/

set_option autoImplicit false

namespace Concord.Server

open Asyncio Collaboration ServerState

variable {P : Platform} {α : Type} {task : TaskId}

/-- One resumption of a task of the backend. -/
abbrev ServerMoment (P : Platform) := Moment (ServerState P) (Event P) Call

/-! ### The other tasks -/

/-- What the other tasks do to the rows, the fences and the room. -/
structure Interferes (task : TaskId) (before after : ServerState P) : Prop where
  lock : before.roomLock = some task → LockStable task (authorityView before) (authorityView after)
  commits : after.database.membershipCommits.count task =
    before.database.membershipCommits.count task

theorem Interferes.refl (server : ServerState P) : Interferes task server server :=
  ⟨fun held => .refl held, rfl⟩

theorem Interferes.trans {first second third : ServerState P}
    (earlier : Interferes task first second) (later : Interferes task second third) :
    Interferes task first third where
  lock held := (earlier.lock held).trans (later.lock (earlier.lock held).roomLock)
  commits := later.commits.trans earlier.commits

/-- The steps of the other tasks in every run of the backend. -/
theorem interferes_of_foreign {policy : ServerPolicy P} {pool middle : ServerPool P}
    (reached : Reachable (serverService P) policy Booted pool)
    (foreign : Foreign (serverService P) policy task pool middle) :
    Interferes task pool.state middle.state := by
  have keeps : Keeps (serverAuthority P False) (serverService P) policy Booted :=
    serverService_keeps_authority False.elim
  obtain ⟨pending, pending', rely⟩ :=
    reached.relies (authorityProtocol_lawful.over authorityView) keeps (fun _ => trivial) foreign
  exact ⟨fun held => (rely.lock held).1, rely.commits⟩

/-- Between two states the holder of the room lock has changed nothing that
bears on authorization. Connections that were revoked meanwhile were revoked
while the holder was suspended. -/
structure Undisturbed (task : TaskId) (trace : List (ServerMoment P))
    (before after : ServerState P) : Prop where
  stable : LockStable task (authorityView before) (authorityView after)
  commits : after.database.membershipCommits.count task =
    before.database.membershipCommits.count task
  blamed : ∀ websocket, after.isRevoked websocket = true → before.isRevoked websocket = true ∨
    ∃ moment ∈ trace, moment.before.isRevoked websocket = false ∧
      moment.state.isRevoked websocket = true

theorem Undisturbed.refl {server : ServerState P} (held : server.roomLock = some task) :
    Undisturbed task [] server server :=
  ⟨.refl held, rfl, fun _ => .inl⟩

theorem Undisturbed.trans {first second third : ServerState P} {earlier later : List (ServerMoment P)}
    (left : Undisturbed task earlier first second) (right : Undisturbed task later second third) :
    Undisturbed task (earlier ++ later) first third where
  stable := left.stable.trans right.stable
  commits := right.commits.trans left.commits
  blamed websocket revoked := by
    rcases right.blamed websocket revoked with before | ⟨moment, member, marked⟩
    · rcases left.blamed websocket before with start | ⟨moment, member, marked⟩
      · exact .inl start
      · exact .inr ⟨moment, List.mem_append_left _ member, marked⟩
    · exact .inr ⟨moment, List.mem_append_right _ member, marked⟩

/-- One suspension, and a step that the authorization data do not see. -/
theorem Undisturbed.of_moment {call : Call} {event : Event P} {before state after : ServerState P}
    (held : before.roomLock = some task) (framed : Interferes task before state)
    (same : authorityView after = authorityView state) :
    Undisturbed task [⟨call, before, state, event⟩] before after where
  stable := by
    rw [same]
    exact framed.lock held
  commits := by
    have count := congrArg (fun view => view.membershipCommits.count task) same
    exact count.trans framed.commits
  blamed websocket revoked := by
    have marked : state.isRevoked websocket = true := by
      have revocations := congrFun (congrArg (·.revokedConnections) same) websocket
      change (state.revokedConnections websocket).isSome = true
      rw [← show after.revokedConnections websocket = state.revokedConnections websocket from
        revocations]
      exact revoked
    by_cases earlier : before.isRevoked websocket = true
    · exact .inl earlier
    · exact .inr ⟨_, List.mem_singleton_self _, Bool.eq_false_of_not_eq_true earlier, marked⟩

theorem Undisturbed.held {before after : ServerState P} {trace : List (ServerMoment P)}
    (same : Undisturbed task trace before after) : after.roomLock = some task :=
  same.stable.roomLock

/-! ### Runs of the awaited operations -/

section Operations

variable {start final : ServerState P} {trace : List (ServerMoment P)}

private theorem query_runs {value : ServerState P → α} {result : Except Exn α}
    (held : start.roomLock = some task)
    (runs : Runs (Interferes task) (query value) start trace result final) :
    Undisturbed task trace start final ∧
      ∃ event, trace = [⟨.databaseRead, start, final, event⟩] ∧
        ((event = .done ∧ result = .ok (value final)) ∨
          (event ≠ .done ∧ result = .error .driver)) := by
  obtain ⟨state, event, rfl, framed, taken⟩ := runs_awaitCall runs
  cases event with
  | received message => cases taken
  | done =>
      obtain ⟨rfl, rfl⟩ := Prod.mk.inj (Option.some.inj taken)
      exact ⟨.of_moment held framed rfl, _, rfl, .inl ⟨rfl, rfl⟩⟩
  | raised | raisedAfter =>
      obtain ⟨rfl, rfl⟩ := Prod.mk.inj (Option.some.inj taken)
      exact ⟨.of_moment held framed rfl, _, rfl, .inr ⟨nofun, rfl⟩⟩

private theorem refresh_runs {result : Except Exn Unit} (held : start.roomLock = some task)
    (runs : Runs (Interferes task) refresh start trace result final) :
    Undisturbed task trace start final ∧
      ∃ event, trace = [⟨.databaseRefresh, start, final, event⟩] ∧
        ((event = .done ∧ result = .ok ()) ∨ (event ≠ .done ∧ ∃ exn, result = .error exn)) := by
  obtain ⟨state, event, rfl, framed, taken⟩ := runs_awaitCall runs
  cases event with
  | received message => cases taken
  | done =>
      obtain ⟨rfl, rfl⟩ := Prod.mk.inj (Option.some.inj taken)
      exact ⟨.of_moment held framed rfl, _, rfl, .inl ⟨rfl, rfl⟩⟩
  | raised | raisedAfter =>
      obtain ⟨rfl, rfl⟩ := Prod.mk.inj (Option.some.inj taken)
      exact ⟨.of_moment held framed rfl, _, rfl, .inr ⟨nofun, _, rfl⟩⟩

/-- A commit is refused, takes effect and returns, or takes effect and raises. -/
theorem commit_runs {effect : ServerState P → Option (ServerState P)} {result : Except Exn Unit}
    (held : start.roomLock = some task)
    (runs : Runs (Interferes task) (commit effect) start trace result final) :
    ∃ state event, trace = [⟨.databaseCommit, start, state, event⟩] ∧
      Undisturbed task trace start state ∧
        ((final = state ∧ result = .error .driver ∧
            (event = .raisedAfter → effect state = none)) ∨
          (effect state = some final ∧
            (event = .done ∧ result = .ok () ∨ event = .raisedAfter ∧ result = .error .driver))) := by
  obtain ⟨state, event, rfl, framed, taken⟩ := runs_awaitCall runs
  refine ⟨state, event, rfl, .of_moment held framed rfl, ?_⟩
  cases event <;> cases effected : effect state <;> simp only [effected] at taken <;>
    first
    | cases taken; done
    | (obtain ⟨rfl, rfl⟩ := Prod.mk.inj (Option.some.inj taken); simp)

private theorem closeConnections_runs {code : Nat} {reason : String} {websockets : List WebSocket}
    {result : Except Exn Unit} (held : start.roomLock = some task)
    (runs : Runs (Interferes task) (closeConnections code reason websockets) start trace result final) :
    result = .ok () ∧ Undisturbed task trace start final ∧ ∀ moment ∈ trace, moment.call = .close := by
  induction websockets generalizing start trace with
  | nil =>
      rw [closeConnections] at runs
      obtain ⟨rfl, rfl, rfl⟩ := runs_pure runs
      exact ⟨rfl, .refl held, List.forall_mem_nil _⟩
  | cons websocket rest inductionHypothesis =>
      -- A close that raises is logged, so the loop goes on.
      have first : ∀ {result : Except Exn Unit} {trace middle},
          Runs (Interferes task) (closeConnection websocket code reason) start trace result middle →
            result = .ok () ∧ Undisturbed task trace start middle ∧
              ∀ moment ∈ trace, moment.call = .close := by
        intro result trace middle runs
        have step : ∀ {result : Except Exn Unit} {trace : List (ServerMoment P)} {after},
            Runs (Interferes task) (close websocket code reason) start trace result after →
              Undisturbed task trace start after ∧ ∀ moment ∈ trace, moment.call = .close := by
          intro result trace after runs
          obtain ⟨state, event, rfl, framed, taken⟩ := runs_awaitCall runs
          refine ⟨.of_moment held framed ?_, by simp⟩
          cases event with
          | received message => cases taken
          | done | raised | raisedAfter =>
              obtain ⟨-, rfl⟩ := Prod.mk.inj (Option.some.inj taken)
              rfl
        rcases runs_tryExcept runs with ⟨_, rfl, closed⟩ | ⟨_, _, earlier, later, rfl, closed, rest⟩
        · exact ⟨rfl, step closed⟩
        · obtain ⟨rfl, rfl, rfl⟩ := runs_pure rest
          rw [List.append_nil]
          exact ⟨rfl, step closed⟩
      rw [closeConnections] at runs
      rcases runs_bind runs with ⟨_, middle, earlier, later, rfl, closed, others⟩ | ⟨_, _, closed⟩
      · obtain ⟨-, same, closes⟩ := first closed
        obtain ⟨returned, same', closes'⟩ := inductionHypothesis same.held others
        refine ⟨returned, same.trans same', ?_⟩
        intro moment member
        rcases List.mem_append.mp member with member | member
        · exact closes moment member
        · exact closes' moment member
      · cases (first closed).1

end Operations

/-! ### The operations -/

/-- An operation that changes a membership and fences the change. -/
inductive MembershipOperation where
  | updateRole (userId : UserId) (role : RoleEnum)
  | remove (userId : UserId)
  | close

namespace MembershipOperation

def request (credentials : Option UserId) : MembershipOperation → ServerRequest P
  | updateRole userId role => .updateMemberRole credentials userId role
  | remove userId => .removeMember credentials userId
  | close => .closeSession credentials

def change (task : TaskId) (rows : IdentityMap) : MembershipOperation → ServerProgram P Unit
  | updateRole userId role => updateMemberRole task rows userId role
  | remove userId => removeMember task rows userId
  | close => closeSession task rows

def fence : MembershipOperation → ServerProgram P Unit
  | updateRole userId _ => reauthenticateMemberConnections userId
  | remove userId => revokeMemberConnections userId
  | close => closeSessionConnections

def effect (task : TaskId) : MembershipOperation → ServerState P → Option (ServerState P)
  | updateRole userId role => setRole task userId role
  | remove userId => deleteMember task userId
  | close => deactivate task

def version (server : ServerState P) : MembershipOperation → Nat
  | updateRole userId _ => invalidationVersion (server.memberInvalidations userId)
  | remove userId => invalidationVersion (server.memberInvalidations userId)
  | close => invalidationVersion server.sessionInvalidation

def Affects (connection : ConnectionInfo) : MembershipOperation → Prop
  | updateRole userId _ => connection.userId = userId
  | remove userId => connection.userId = userId
  | close => True

/-- The member row that the operation selects has the requested role already. -/
def repeats (rows : IdentityMap) (server : ServerState P) : MembershipOperation → Bool
  | updateRole userId role => (server.database.members userId).isSome &&
      ((rows.loadMember userId server.database).members userId == some role)
  | _ => false

variable (operation : MembershipOperation)

/-- The part of the endpoint under the room lock. -/
def underLock (task : TaskId) (rows : IdentityMap) : ServerProgram P Unit := do
  translateErrors (operation.change task rows)
  operation.fence

theorem handler_request (credentials : Option UserId) :
    (operation.request credentials : ServerRequest P).handler task = (do
      let owner ← roleChecker .owner credentials
      documentRoomLifecycle task fun _ => operation.underLock task owner.rows) := by
  cases operation <;> rfl

end MembershipOperation

/-- A commit of the task has taken effect. -/
def Committed (task : TaskId) (before after : ServerState P) : Prop :=
  before.database.membershipCommits.count task < after.database.membershipCommits.count task

/-- The version is incremented, and every affected connection in the room is
revoked. -/
def Fenced (operation : MembershipOperation) (before after : ServerState P) : Prop :=
  operation.version after = operation.version before + 1 ∧
    ∀ connection ∈ after.connections, operation.Affects connection →
      after.isRevoked connection.websocket = true

/-- No version has changed, and the task has revoked no connection. -/
def Unfenced (trace : List (ServerMoment P)) (before after : ServerState P) : Prop :=
  after.memberInvalidations = before.memberInvalidations ∧
    after.sessionInvalidation = before.sessionInvalidation ∧
      ∀ websocket, after.isRevoked websocket = true → before.isRevoked websocket = true ∨
        ∃ moment ∈ trace, moment.before.isRevoked websocket = false ∧
          moment.state.isRevoked websocket = true

/-- A commit that took effect is fenced, and nothing is fenced without one. -/
def FenceMatches (operation : MembershipOperation) (task : TaskId) (trace : List (ServerMoment P))
    (before after : ServerState P) : Prop :=
  (Committed task before after → Fenced operation before after) ∧
    (¬Committed task before after → Unfenced trace before after)

/-- The moment separates the commit from the fence: a commit raises although it
takes effect, the refresh after it raises, or there is nothing to commit. -/
def Separates (task : TaskId) (operation : MembershipOperation) (rows : IdentityMap)
    (moment : ServerMoment P) : Prop :=
  match moment.call, moment.event with
  | .databaseCommit, .raisedAfter => (operation.effect task moment.state).isSome = true
  | .databaseRefresh, .done => False
  | .databaseRefresh, _ => True
  | .databaseRead, .done => operation.repeats rows moment.state = true
  | _, _ => False

/-! ### Runs of a change -/

/-- What a commit records, and what it leaves alone. -/
structure Recorded (task : TaskId) (before after : ServerState P) : Prop where
  commits : after.database.membershipCommits = task :: before.database.membershipCommits
  roomLock : after.roomLock = before.roomLock
  connections : after.connections = before.connections
  memberInvalidations : after.memberInvalidations = before.memberInvalidations
  sessionInvalidation : after.sessionInvalidation = before.sessionInvalidation
  revoked : after.revokedConnections = before.revokedConnections

private theorem recorded_of_effect {operation : MembershipOperation} {before after : ServerState P}
    (effect : operation.effect task before = some after) : Recorded task before after := by
  cases operation with
  | updateRole userId role =>
      simp only [MembershipOperation.effect, setRole] at effect
      split at effect
      · cases effect
      · obtain rfl := Option.some.inj effect
        exact ⟨rfl, rfl, rfl, rfl, rfl, rfl⟩
  | remove userId =>
      obtain rfl := Option.some.inj effect
      exact ⟨rfl, rfl, rfl, rfl, rfl, rfl⟩
  | close =>
      obtain rfl := Option.some.inj effect
      exact ⟨rfl, rfl, rfl, rfl, rfl, rfl⟩

/-- The runs of the membership service under the room lock. -/
inductive ChangeRun (task : TaskId) (operation : MembershipOperation) (rows : IdentityMap)
    (start : ServerState P) : List (ServerMoment P) → Except Exn Unit → ServerState P → Prop where
  | refused {trace final} (exn : Exn) (same : Undisturbed task trace start final)
      (joined : ∀ moment ∈ trace, ¬Separates task operation rows moment) :
      ChangeRun task operation rows start trace (.error exn) final
  | repeated {trace final} (same : Undisturbed task trace start final)
      (separated : ∃ moment ∈ trace, Separates task operation rows moment) :
      ChangeRun task operation rows start trace (.ok ()) final
  | committed {earlier later state after final} (same : Undisturbed task earlier start state)
      (effect : operation.effect task state = some after)
      (rest : Undisturbed task later after final)
      (joined : ∀ moment ∈ earlier ++ later, ¬Separates task operation rows moment) :
      ChangeRun task operation rows start (earlier ++ later) (.ok ()) final
  | lost {earlier later state after final} (exn : Exn) (same : Undisturbed task earlier start state)
      (effect : operation.effect task state = some after)
      (rest : Undisturbed task later after final)
      (separated : ∃ moment ∈ earlier ++ later, Separates task operation rows moment) :
      ChangeRun task operation rows start (earlier ++ later) (.error exn) final

section Changes

variable {operation : MembershipOperation} {rows : IdentityMap} {start final : ServerState P}
  {trace : List (ServerMoment P)} {result : Except Exn Unit}

/-- Moments before the change, none of which separates it from its fence. -/
theorem ChangeRun.after {earlier : List (ServerMoment P)} {middle : ServerState P}
    (same : Undisturbed task earlier start middle)
    (joined : ∀ moment ∈ earlier, ¬Separates task operation rows moment)
    (runs : ChangeRun task operation rows middle trace result final) :
    ChangeRun task operation rows start (earlier ++ trace) result final := by
  have both : ∀ {later : List (ServerMoment P)},
      (∀ moment ∈ later, ¬Separates task operation rows moment) →
        ∀ moment ∈ earlier ++ later, ¬Separates task operation rows moment := by
    intro later clean moment member
    rcases List.mem_append.mp member with member | member
    · exact joined moment member
    · exact clean moment member
  cases runs with
  | refused exn rest clean => exact .refused exn (same.trans rest) (both clean)
  | repeated rest separated =>
      obtain ⟨moment, member, separates⟩ := separated
      exact .repeated (same.trans rest) ⟨moment, List.mem_append_right _ member, separates⟩
  | committed before effect rest clean =>
      rw [← List.append_assoc]
      refine .committed (same.trans before) effect rest ?_
      rw [List.append_assoc]
      exact both clean
  | lost exn before effect rest separated =>
      obtain ⟨moment, member, separates⟩ := separated
      rw [← List.append_assoc]
      refine .lost exn (same.trans before) effect rest ⟨moment, ?_, separates⟩
      rw [List.append_assoc]
      exact List.mem_append_right _ member

theorem ChangeRun.throw {exn : Exn} (held : start.roomLock = some task)
    (runs : Runs (Interferes task) (throw exn : ServerProgram P Unit) start trace result final) :
    ChangeRun task operation rows start trace result final := by
  obtain ⟨rfl, rfl, rfl⟩ := runs_throw runs
  exact .refused exn (.refl held) (List.forall_mem_nil _)

/-- The commit of a change alone. -/
theorem ChangeRun.commit (held : start.roomLock = some task)
    (runs : Runs (Interferes task) (commit (operation.effect task)) start trace result final) :
    ChangeRun task operation rows start trace result final := by
  obtain ⟨state, event, rfl, same, ⟨rfl, rfl, refused⟩ | ⟨effect, outcome⟩⟩ := commit_runs held runs
  · refine .refused _ same ?_
    intro moment member separates
    obtain rfl := List.mem_singleton.mp member
    cases event with
    | raisedAfter =>
        rw [Separates, refused rfl] at separates
        cases separates
    | done | raised | received => exact separates
  · have recorded := recorded_of_effect effect
    have rest : Undisturbed task ([] : List (ServerMoment P)) final final :=
      .refl (recorded.roomLock.trans same.held)
    rw [← List.append_nil [_]]
    rcases outcome with ⟨rfl, rfl⟩ | ⟨rfl, rfl⟩
    · refine .committed same effect rest ?_
      intro moment member separates
      obtain rfl := List.mem_singleton.mp member
      exact separates
    · refine .lost _ same effect rest ⟨_, List.mem_singleton_self _, ?_⟩
      rw [Separates, effect]
      rfl

/-- The commit of a change, and the refresh after it. -/
theorem ChangeRun.commit_refresh (held : start.roomLock = some task)
    (runs : Runs (Interferes task) (do Server.commit (operation.effect task); refresh) start trace
      result final) :
    ChangeRun task operation rows start trace result final := by
  rcases runs_bind runs with ⟨_, middle, earlier, later, rfl, committed, refreshed⟩ |
    ⟨exn, rfl, committed⟩
  · obtain ⟨state, event, rfl, same, ⟨_, raised, _⟩ | ⟨effect, ⟨rfl, _⟩ | ⟨_, raised⟩⟩⟩ :=
      commit_runs held committed
    · cases raised
    · have recorded := recorded_of_effect effect
      obtain ⟨rest, event, rfl, ⟨rfl, rfl⟩ | ⟨raises, exn, rfl⟩⟩ :=
        refresh_runs (recorded.roomLock.trans same.held) refreshed
      · refine .committed same effect rest ?_
        intro moment member separates
        rcases List.mem_append.mp member with member | member
        · obtain rfl := List.mem_singleton.mp member
          exact separates
        · obtain rfl := List.mem_singleton.mp member
          exact separates
      · refine .lost exn same effect rest
          ⟨_, List.mem_append_right _ (List.mem_singleton_self _), ?_⟩
        cases event with
        | done => exact absurd rfl raises
        | raised | raisedAfter | received => trivial
    · cases raised
  · exact .commit held committed

/-- A selected member row is there, with the role that was loaded first. -/
theorem selectMember_runs {userId : UserId} {result : Except Exn (Option RoleEnum × IdentityMap)}
    (held : start.roomLock = some task)
    (runs : Runs (Interferes task) (selectMember userId rows) start trace result final) :
    Undisturbed task trace start final ∧
      ∃ event, trace = [⟨.databaseRead, start, final, event⟩] ∧
        ((event ≠ .done ∧ result = .error .driver) ∨
          (event = .done ∧ final.database.members userId = none ∧ result = .ok (none, rows)) ∨
          (event = .done ∧ (final.database.members userId).isSome = true ∧ ∃ role,
            (rows.loadMember userId final.database).members userId = some role ∧
              result = .ok (some role, rows.loadMember userId final.database))) := by
  obtain ⟨same, event, rfl, ⟨rfl, rfl⟩ | ⟨raised, rfl⟩⟩ := query_runs held runs
  · refine ⟨same, .done, rfl, .inr ?_⟩
    cases row : final.database.members userId with
    | none => exact .inl ⟨rfl, rfl, rfl⟩
    | some role =>
        have loaded : ∃ role, (rows.loadMember userId final.database).members userId = some role := by
          cases earlier : rows.members userId with
          | none => exact ⟨role, by simp [IdentityMap.loadMember, IdentityMap.load, earlier, row]⟩
          | some role' => exact ⟨role', by simp [IdentityMap.loadMember, IdentityMap.load, earlier]⟩
        obtain ⟨role', loaded⟩ := loaded
        refine .inr ⟨rfl, rfl, role', loaded, ?_⟩
        dsimp only
        rw [loaded]
  · exact ⟨same, event, rfl, .inl ⟨raised, rfl⟩⟩

/-- A read before the change that does not find it made already. -/
theorem ChangeRun.after_read {event : Event P} {middle : ServerState P}
    (same : Undisturbed task [⟨.databaseRead, start, middle, event⟩] start middle)
    (silent : event ≠ .done ∨ operation.repeats rows middle = false)
    (runs : ChangeRun task operation rows middle trace result final) :
    ChangeRun task operation rows start (⟨.databaseRead, start, middle, event⟩ :: trace) result
      final := by
  refine ChangeRun.after same ?_ runs
  intro moment member separates
  obtain rfl := List.mem_singleton.mp member
  cases event with
  | done =>
      rcases silent with raised | silent
      · exact raised rfl
      · rw [Separates, silent] at separates
        cases separates
  | raised | raisedAfter | received => exact separates

/-- A change that is refused at once. -/
theorem ChangeRun.refuse (exn : Exn) (held : start.roomLock = some task) :
    ChangeRun task operation rows start [] (.error exn) start :=
  .refused exn (.refl held) (List.forall_mem_nil _)

/-- A session that the role check has loaded is not read again. -/
theorem getActiveSession_runs {session : SessionRow} {answer : Except Exn (SessionRow × IdentityMap)}
    (loaded : rows.session = some session)
    (runs : Runs (Interferes task) (getActiveSession rows) start trace answer final) :
    trace = [] ∧ final = start ∧
      (answer = .ok (session, rows) ∨ ∃ exn, answer = .error exn) := by
  have known : (getActiveSession rows : ServerProgram P _) =
      if !session.isActive then throw (.sessionService .inactive "Session is closed")
      else pure (session, rows) := by
    unfold getActiveSession getSession
    rw [loaded]
    rfl
  rw [known] at runs
  split at runs
  · obtain ⟨rfl, rfl, rfl⟩ := runs_throw runs
    exact ⟨rfl, rfl, .inr ⟨_, rfl⟩⟩
  · obtain ⟨rfl, rfl, rfl⟩ := runs_pure runs
    exact ⟨rfl, rfl, .inl rfl⟩

private theorem updateMemberRole_runs {userId : UserId} {newRole : RoleEnum} {session : SessionRow}
    (loaded : rows.session = some session) (held : start.roomLock = some task)
    (runs : Runs (Interferes task) (updateMemberRole task rows userId newRole) start trace result
      final) :
    ChangeRun task (.updateRole userId newRole) rows start trace result final := by
  unfold updateMemberRole at runs
  rcases runs_bind runs with ⟨_, middle, _, later, rfl, active, runs⟩ | ⟨exn, rfl, active⟩
  · obtain ⟨rfl, rfl, answer | ⟨exn, raised⟩⟩ := getActiveSession_runs loaded active
    · obtain rfl := Except.ok.inj answer
      rw [List.nil_append]
      dsimp only at runs
      split at runs
      · exact .throw held runs
      · split at runs
        · exact .throw held runs
        · rcases runs_bind runs with ⟨_, middle, reads, later, rfl, selected, runs⟩ |
            ⟨exn, rfl, selected⟩
          · obtain ⟨same, event, rfl, ⟨_, raised⟩ | ⟨rfl, absent, found⟩ |
              ⟨rfl, present, role, row, found⟩⟩ := selectMember_runs held selected
            · cases raised
            · obtain rfl := Except.ok.inj found
              refine .after_read same (.inr ?_) (.throw same.held runs)
              simp [MembershipOperation.repeats, absent]
            · obtain rfl := Except.ok.inj found
              dsimp only at runs
              split at runs
              · next same' =>
                  obtain ⟨rfl, rfl, rfl⟩ := runs_pure runs
                  refine .repeated same ⟨_, List.mem_singleton_self _, ?_⟩
                  simp [Separates, MembershipOperation.repeats, present, row, same']
              · next different =>
                  refine .after_read same (.inr ?_) (.commit_refresh same.held runs)
                  simp [MembershipOperation.repeats, present, row, different]
          · obtain ⟨same, event, rfl, ⟨raised, _⟩ | ⟨_, _, found⟩ | ⟨_, _, _, _, found⟩⟩ :=
              selectMember_runs held selected
            · exact .after_read same (.inl raised) (.refuse exn same.held)
            · cases found
            · cases found
    · cases raised
  · obtain ⟨rfl, rfl, _⟩ := getActiveSession_runs loaded active
    exact .refuse exn held

private theorem removeMember_runs {userId : UserId} {session : SessionRow}
    (loaded : rows.session = some session) (held : start.roomLock = some task)
    (runs : Runs (Interferes task) (removeMember task rows userId) start trace result final) :
    ChangeRun task (.remove userId) rows start trace result final := by
  unfold removeMember at runs
  rcases runs_bind runs with ⟨_, middle, _, later, rfl, active, runs⟩ | ⟨exn, rfl, active⟩
  · obtain ⟨rfl, rfl, answer | ⟨exn, raised⟩⟩ := getActiveSession_runs loaded active
    · obtain rfl := Except.ok.inj answer
      rw [List.nil_append]
      dsimp only at runs
      split at runs
      · exact .throw held runs
      · rcases runs_bind runs with ⟨_, middle, reads, later, rfl, selected, runs⟩ |
          ⟨exn, rfl, selected⟩
        · obtain ⟨same, event, rfl, ⟨_, raised⟩ | ⟨_, _, found⟩ | ⟨_, _, role, _, found⟩⟩ :=
            selectMember_runs held selected
          · cases raised
          · obtain rfl := Except.ok.inj found
            exact .after_read same (.inr rfl) (.throw same.held runs)
          · obtain rfl := Except.ok.inj found
            refine .after_read same (.inr rfl) ?_
            rcases runs_bind runs with ⟨_, ready, marks, later, rfl, marked, commits⟩ |
              ⟨exn, rfl, marked⟩
            · obtain ⟨same', event, rfl, _⟩ := query_runs same.held marked
              exact .after_read same' (.inr rfl) (.commit same'.held commits)
            · obtain ⟨same', event, rfl, _⟩ := query_runs same.held marked
              exact .after_read same' (.inr rfl) (.refuse exn same'.held)
        · obtain ⟨same, event, rfl, _⟩ := selectMember_runs held selected
          exact .after_read same (.inr rfl) (.refuse exn same.held)
    · cases raised
  · obtain ⟨rfl, rfl, _⟩ := getActiveSession_runs loaded active
    exact .refuse exn held

private theorem closeSession_runs {session : SessionRow} (loaded : rows.session = some session)
    (held : start.roomLock = some task)
    (runs : Runs (Interferes task) (closeSession task rows) start trace result final) :
    ChangeRun task .close rows start trace result final := by
  unfold closeSession at runs
  rcases runs_bind runs with ⟨_, middle, _, later, rfl, active, commits⟩ | ⟨exn, rfl, active⟩
  · obtain ⟨rfl, rfl, _⟩ := getActiveSession_runs loaded active
    exact .commit_refresh held commits
  · obtain ⟨rfl, rfl, _⟩ := getActiveSession_runs loaded active
    exact .refuse exn held

private theorem change_runs {session : SessionRow} (loaded : rows.session = some session)
    (held : start.roomLock = some task)
    (runs : Runs (Interferes task) (operation.change task rows) start trace result final) :
    ChangeRun task operation rows start trace result final := by
  cases operation with
  | updateRole userId role => exact updateMemberRole_runs loaded held runs
  | remove userId => exact removeMember_runs loaded held runs
  | close => exact closeSession_runs loaded held runs

/-- The translation of an exception keeps that there is one. -/
theorem translateErrors_runs {session : SessionRow} (loaded : rows.session = some session)
    (held : start.roomLock = some task)
    (runs : Runs (Interferes task) (translateErrors (operation.change task rows)) start trace result
      final) :
    ChangeRun task operation rows start trace result final := by
  rcases runs_tryExcept runs with ⟨_, rfl, changed⟩ | ⟨exn, _, earlier, later, rfl, changed, raised⟩
  · exact change_runs loaded held changed
  · obtain ⟨rfl, rfl, rfl⟩ := runs_throw raised
    rw [List.append_nil]
    have changed' := change_runs loaded held changed
    cases changed' with
    | refused exn same joined => exact .refused _ same joined
    | lost exn same effect rest separated => exact .lost _ same effect rest separated

end Changes

/-! ### Runs of a fence -/

section Fences

variable {operation : MembershipOperation} {start final : ServerState P}
  {trace : List (ServerMoment P)} {result : Except Exn Unit}

private theorem version_of_undisturbed (same : Undisturbed task trace start final) :
    operation.version final = operation.version start := by
  have members : final.memberInvalidations = start.memberInvalidations :=
    same.stable.memberInvalidations
  have session : final.sessionInvalidation = start.sessionInvalidation :=
    same.stable.sessionInvalidation
  cases operation <;> simp only [MembershipOperation.version, members, session]

/-- A connection that was selected in the room is revoked. -/
theorem isRevoked_revokeConnections {selected : ConnectionInfo → Bool} {failure : Nat × String}
    {server : ServerState P} {connection : ConnectionInfo} (member : connection ∈ server.connections)
    (chosen : selected connection = true) :
    (server.revokeConnections selected failure).isRevoked connection.websocket = true := by
  have target : (server.connections.filter selected).any (·.websocket = connection.websocket) =
      true :=
    List.any_eq_true.mpr ⟨connection, List.mem_filter.mpr ⟨member, chosen⟩, decide_eq_true rfl⟩
  simp only [isRevoked, revokeConnections, target]
  rfl

/-- A fence that closes the connections it has marked. -/
theorem fenced_of_closed {fenced : ServerState P}
    (version : operation.version fenced = operation.version start + 1)
    (marked : ∀ connection ∈ fenced.connections, operation.Affects connection →
      fenced.isRevoked connection.websocket = true)
    (same : Undisturbed task trace fenced final) : Fenced operation start final := by
  have connections : final.connections = fenced.connections := same.stable.connections
  refine ⟨(version_of_undisturbed same).trans version, ?_⟩
  intro connection member affected
  rw [connections] at member
  exact same.stable.revoked connection.websocket ⟨connection, member, rfl⟩
    (marked connection member affected)

private theorem not_separates_of_close {rows : IdentityMap}
    (closes : ∀ moment ∈ trace, moment.call = .close) :
    ∀ moment ∈ trace, ¬Separates task operation rows moment := by
  intro moment member separates
  rw [Separates, closes moment member] at separates
  exact separates

private theorem invalidateMemberConnections_runs {userId : UserId} {code : Nat} {reason : String}
    (affects : ∀ connection, operation.Affects connection → connection.userId = userId)
    (version : ∀ server : ServerState P,
      operation.version server = invalidationVersion (server.memberInvalidations userId))
    (held : start.roomLock = some task)
    (runs : Runs (Interferes task) (invalidateMemberConnections userId code reason) start trace
      result final) :
    Fenced operation start final ∧ result = .ok () ∧ final.database.membershipCommits.count task =
      start.database.membershipCommits.count task ∧ ∀ moment ∈ trace, moment.call = .close := by
  unfold invalidateMemberConnections at runs
  rcases runs_bind runs with ⟨targets, fenced, _, later, rfl, marks, closes⟩ | ⟨_, _, marks⟩
  · obtain ⟨rfl, -, rfl⟩ := runs_modifyGet marks
    have held' : (fenceMember userId code reason start).2.roomLock = some task := held
    obtain ⟨returned, same, calls⟩ := closeConnections_runs held' closes
    refine ⟨fenced_of_closed ?_ ?_ same, returned, same.commits, calls⟩
    · rw [version, version]
      exact fenceMember_view userId code reason start
    · intro connection member affected
      exact isRevoked_revokeConnections member (decide_eq_true (affects connection affected))
  · cases (runs_modifyGet marks).2.1

private theorem closeSessionConnections_runs (held : start.roomLock = some task)
    (runs : Runs (Interferes task) closeSessionConnections start trace result final) :
    Fenced .close start final ∧ result = .ok () ∧ final.database.membershipCommits.count task =
      start.database.membershipCommits.count task ∧ ∀ moment ∈ trace, moment.call = .close := by
  unfold closeSessionConnections at runs
  rcases runs_bind runs with ⟨targets, fenced, _, later, rfl, marks, closes⟩ | ⟨_, _, marks⟩
  · obtain ⟨rfl, -, rfl⟩ := runs_modifyGet marks
    have held' : (fenceSession start).2.roomLock = some task := held
    obtain ⟨returned, same, calls⟩ := closeConnections_runs held' closes
    refine ⟨fenced_of_closed (fenceSession_view start) ?_ same, returned, same.commits, calls⟩
    exact fun connection member _ => isRevoked_revokeConnections member rfl
  · cases (runs_modifyGet marks).2.1

private theorem fence_runs (held : start.roomLock = some task)
    (runs : Runs (Interferes task) operation.fence start trace result final) :
    Fenced operation start final ∧ result = .ok () ∧ final.database.membershipCommits.count task =
      start.database.membershipCommits.count task ∧ ∀ moment ∈ trace, moment.call = .close := by
  cases operation with
  | updateRole userId role =>
      exact invalidateMemberConnections_runs (fun _ => id) (fun _ => rfl) held runs
  | remove userId => exact invalidateMemberConnections_runs (fun _ => id) (fun _ => rfl) held runs
  | close => exact closeSessionConnections_runs held runs

end Fences

/-! ### Runs of an endpoint -/

section Endpoints

variable {operation : MembershipOperation} {rows : IdentityMap} {start final : ServerState P}
  {trace : List (ServerMoment P)} {result : Except Exn Unit}

private theorem not_committed_of_undisturbed (same : Undisturbed task trace start final) :
    ¬Committed task start final := by
  unfold Committed
  rw [same.commits]
  exact Nat.lt_irrefl _

/-- A change that takes effect raises the count of commits, and no version. -/
theorem committed_of_effect {earlier later : List (ServerMoment P)} {state after : ServerState P}
    (same : Undisturbed task earlier start state) (effect : operation.effect task state = some after)
    (rest : Undisturbed task later after final) :
    Committed task start final ∧ operation.version final = operation.version start := by
  have recorded := recorded_of_effect effect
  constructor
  · unfold Committed
    rw [rest.commits, recorded.commits, List.count_cons_self, same.commits]
    exact Nat.lt_succ_self _
  · rw [version_of_undisturbed rest, ← version_of_undisturbed same]
    have members := recorded.memberInvalidations
    have session := recorded.sessionInvalidation
    cases operation <;> simp only [MembershipOperation.version, members, session]

/-- Under the room lock, the fence matches the commit where no moment separates
them. -/
theorem underLock_runs {session : SessionRow} (loaded : rows.session = some session)
    (held : start.roomLock = some task)
    (runs : Runs (Interferes task) (operation.underLock task rows) start trace result final) :
    FenceMatches operation task trace start final ↔
      ∀ moment ∈ trace, ¬Separates task operation rows moment := by
  unfold MembershipOperation.underLock at runs
  rcases runs_bind runs with ⟨_, middle, earlier, later, rfl, changed, fences⟩ | ⟨exn, rfl, changed⟩
  · have changes := translateErrors_runs loaded held changed
    cases changes with
    | repeated same separated =>
        obtain ⟨fenced, _, count, _⟩ := fence_runs same.held fences
        have idle : ¬Committed task start final := by
          unfold Committed
          rw [count, same.commits]
          exact Nat.lt_irrefl _
        constructor
        · intro matched
          have version : operation.version final = operation.version start := by
            obtain ⟨members, session, _⟩ := matched.2 idle
            cases operation <;> simp only [MembershipOperation.version, members, session]
          have raised := fenced.1
          rw [version_of_undisturbed same] at raised
          omega
        · intro joined
          obtain ⟨moment, member, separates⟩ := separated
          exact absurd separates (joined moment (List.mem_append_left _ member))
    | @committed before after state changed' _ same effect rest joined =>
        obtain ⟨fenced, _, count, closes⟩ := fence_runs rest.held fences
        obtain ⟨committed, version⟩ := committed_of_effect same effect rest
        have committed' : Committed task start final := by
          unfold Committed
          rw [count]
          exact committed
        have fenced' : Fenced operation start final := ⟨fenced.1.trans (by rw [version]), fenced.2⟩
        refine ⟨fun _ moment member => ?_, fun _ => ⟨fun _ => fenced', fun idle =>
          absurd committed' idle⟩⟩
        rcases List.mem_append.mp member with member | member
        · exact joined moment member
        · exact not_separates_of_close closes moment member
  · have changes := translateErrors_runs loaded held changed
    cases changes with
    | refused _ same joined =>
        refine ⟨fun _ => joined, fun _ => ⟨fun committed =>
          absurd committed (not_committed_of_undisturbed same), fun _ => ?_⟩⟩
        exact ⟨same.stable.memberInvalidations, same.stable.sessionInvalidation, same.blamed⟩
    | lost _ same effect rest separated =>
        obtain ⟨committed, version⟩ := committed_of_effect same effect rest
        constructor
        · intro matched
          have raised := (matched.1 committed).1
          omega
        · intro joined
          obtain ⟨moment, member, separates⟩ := separated
          exact absurd separates (joined moment member)

/-- The section of an endpoint, from the wait for the room lock to its release. -/
theorem lifecycle_runs {session : SessionRow} (loaded : rows.session = some session)
    (runs : Runs (Interferes task)
      (documentRoomLifecycle task fun _ => operation.underLock task rows) start trace result final) :
    ∃ lock held, trace = lock :: held ∧ lock.call = .roomLock ∧
      (FenceMatches operation task held lock.state final ↔
        ∀ moment ∈ held, ¬Separates task operation rows moment) := by
  unfold documentRoomLifecycle withRoomLock at runs
  rcases runs_bind runs with ⟨_, acquired, _, held, rfl, acquires, guarded⟩ | ⟨_, _, acquires⟩
  · obtain ⟨state, event, _, rfl, _, taken, _⟩ := runs_awaitUntil acquires
    obtain ⟨last, body, rfl⟩ := runs_tryFinally_modify guarded
    refine ⟨_, held, rfl, rfl, ?_⟩
    unfold acquireRoomLock at taken
    split at taken
    · cases taken
    · obtain ⟨-, rfl⟩ := Prod.mk.inj (Option.some.inj taken)
      -- The fence does not depend on who has the room lock.
      have matched : FenceMatches operation task held { state with roomLock := some task } last ↔
          ∀ moment ∈ held, ¬Separates task operation rows moment := underLock_runs loaded rfl body
      exact matched
  · obtain ⟨_, _, _, _, _, _, raised⟩ := runs_awaitUntil acquires
    cases raised

/-- The session that was read is in the identity map. -/
theorem getSession_loaded {env : ServerState P → ServerState P → Prop} {rows' : IdentityMap}
    {session : SessionRow}
    (runs : Runs env (getSession rows) start trace (.ok (some session, rows')) final) :
    rows'.session = some session := by
  unfold getSession at runs
  split at runs
  · next row loaded =>
      obtain ⟨_, read, _⟩ := runs_pure runs
      obtain ⟨same, rfl⟩ := Prod.mk.inj (Except.ok.inj read)
      rw [same, loaded]
  · next absent =>
      obtain ⟨state, event, _, _, taken⟩ := runs_awaitCall runs
      cases event with
      | received message => cases taken
      | done =>
          obtain ⟨read, _⟩ := Prod.mk.inj (Option.some.inj taken)
          obtain ⟨stored, rfl⟩ := Prod.mk.inj (Except.ok.inj read)
          exact loadSession_session stored absent
      | raised | raisedAfter => cases taken

theorem selectMember_session {env : ServerState P → ServerState P → Prop} {userId : UserId}
    {rows' : IdentityMap} {membership : Option RoleEnum}
    (runs : Runs env (selectMember userId rows) start trace (.ok (membership, rows')) final) :
    rows'.session = rows.session := by
  obtain ⟨state, event, _, _, taken⟩ := runs_awaitCall runs
  cases event with
  | received message => cases taken
  | done =>
      obtain ⟨read, _⟩ := Prod.mk.inj (Option.some.inj taken)
      have answer := Except.ok.inj read
      dsimp only at answer
      split at answer
      · obtain ⟨_, rfl⟩ := Prod.mk.inj answer
        rfl
      · obtain ⟨_, rfl⟩ := Prod.mk.inj answer
        exact loadMember_session _ _ _
  | raised | raisedAfter => cases taken

theorem checkRole_rows {minRole : RoleEnum} {ownerId : UserId} {user user' : CurrentUser}
    {membership : Option RoleEnum} (checked : checkRole minRole ownerId user membership = .ok user') :
    user' = user := by
  unfold checkRole at checked
  split at checked
  · cases checked
  · split at checked
    · cases checked
    · split at checked
      · cases checked
      · exact (Except.ok.inj checked).symm

/-- A user that passes the role check comes with the session row loaded. -/
theorem roleChecker_loaded {minRole : RoleEnum} {credentials : Option UserId} {owner : CurrentUser}
    {env : ServerState P → ServerState P → Prop}
    (runs : Runs env (roleChecker minRole credentials) start trace (.ok owner) final) :
    ∃ session, owner.rows.session = some session := by
  unfold roleChecker at runs
  rcases runs_bind runs with ⟨user, _, _, _, rfl, _, checks⟩ | ⟨_, raised, _⟩
  · rcases runs_bind checks with ⟨⟨session, rows⟩, _, _, _, rfl, read, checks⟩ | ⟨_, raised, _⟩
    · cases session with
      | none => cases (runs_throw checks).2.1
      | some session =>
          have loaded : rows.session = some session := getSession_loaded read
          dsimp only at checks
          split at checks
          · cases (runs_throw checks).2.1
          · rcases runs_bind checks with ⟨⟨membership, rows'⟩, _, _, _, rfl, selected, checks⟩ |
              ⟨_, raised, _⟩
            · have kept : rows'.session = rows.session := selectMember_session selected
              dsimp only at checks
              split at checks
              · next user' checked =>
                  obtain ⟨_, returned, _⟩ := runs_pure checks
                  obtain rfl := Except.ok.inj returned
                  rw [checkRole_rows checked]
                  exact ⟨session, kept.trans loaded⟩
              · cases (runs_throw checks).2.1
            · cases raised
    · cases raised
  · cases raised

end Endpoints

/-! ### Every run of the backend -/

def startOperation (operation : MembershipOperation) (credentials : Option UserId) (task : TaskId)
    (pool : ServerPool P) : ServerPool P :=
  pool.runTask task (operation.request credentials)
    ((operation.request credentials : ServerRequest P).handler task) pool.state

/-- In every run of the backend, a membership endpoint that has run to its end
was refused by the role check, or has had the room lock. Then its fence matches
its commit, from where it got the lock to where it gave it up, exactly where no
moment in between separates them. -/
theorem fence_matches_commit {policy : ServerPolicy P} {operation : MembershipOperation}
    {credentials : Option UserId} {pool last : ServerPool P} {trace : List (ServerMoment P)}
    {final : ServerState P} {result : Except Exn Unit}
    (reached : Reachable (serverService P) policy Booted pool) (unused : pool.tasks task = none)
    (stretch : Stretch (serverService P) policy task
      (startOperation operation credentials task pool).state
      (startOperation operation credentials task pool) trace final last)
    (ended : last.outcome task = some result) :
    (∃ exn, Runs (Interferes task) (roleChecker .owner credentials) pool.state trace (.error exn)
      final) ∨
    ∃ owner checked check lock held, trace = check ++ lock :: held ∧ lock.call = .roomLock ∧
      Runs (Interferes task) (roleChecker .owner credentials) pool.state check (.ok owner) checked ∧
        (FenceMatches operation task held lock.state final ↔
          ∀ moment ∈ held, ¬Separates task operation owner.rows moment) := by
  have spawned : Step (serverService P) policy pool (startOperation operation credentials task pool) :=
    .spawn task (operation.request credentials) unused
  have runs : Runs (Interferes task)
      ((operation.request credentials : ServerRequest P).handler task) pool.state trace result final :=
    runs_settle (stretch.runs Interferes.refl Interferes.trans interferes_of_foreign ended
      (reached.step spawned) (Interferes.refl _) (Function.update_self _ _ _))
  rw [operation.handler_request] at runs
  rcases runs_bind runs with ⟨owner, checked, check, later, rfl, checks, rest⟩ | ⟨exn, rfl, refused⟩
  · obtain ⟨session, loaded⟩ := roleChecker_loaded checks
    obtain ⟨lock, held, rfl, isLock, matched⟩ := lifecycle_runs loaded rest
    exact .inr ⟨owner, checked, check, lock, held, rfl, isLock, checks, matched⟩
  · exact .inl ⟨exn, refused⟩

/-- The owner, whose connection is in the room, asks to close the session. The
stretch of that request, from the pool before it. -/
def closeStretch (events : List (Event editLog)) :
    Option (ServerPool editLog × List (ServerMoment editLog) × ServerState editLog ×
      ServerPool editLog) :=
  (samplePool (joinFirst 0 .done)).bind fun pool =>
    ((serverService editLog).follow permitsAll 1 (events.map (.resume 1))
      (startOperation .close (some 1) 1 pool).state (startOperation .close (some 1) 1 pool)).map
        (pool, ·)

private theorem stretch_of_closeStretch {events : List (Event editLog)}
    {pool last : ServerPool editLog}
    {trace : List (ServerMoment editLog)} {final : ServerState editLog}
    (followed : closeStretch events = some (pool, trace, final, last)) :
    Reachable (serverService editLog) anyEvent Booted pool ∧
      Stretch (serverService editLog) anyEvent 1
        (startOperation .close (some 1) 1 pool).state (startOperation .close (some 1) 1 pool)
        trace final last := by
  obtain ⟨joined, played, followed⟩ := Option.bind_eq_some_iff.mp followed
  obtain ⟨rest, followed, same⟩ := Option.map_eq_some_iff.mp followed
  obtain ⟨rfl, rfl⟩ := Prod.mk.inj same
  exact ⟨reachable_samplePool played,
    Service.stretch_of_follow (fun _ _ _ _ _ => trivial) followed⟩

theorem fence_matches_commit_run :
    ∃ pool trace final last, Stretch (serverService editLog) anyEvent 1
        (startOperation .close (some 1) 1 pool).state (startOperation .close (some 1) 1 pool)
        trace final last ∧ final.isRevoked 0 = true ∧
      ((∃ exn, Runs (Interferes 1) (roleChecker .owner (some 1)) pool.state trace (.error exn)
        final) ∨
      ∃ owner checked check lock held, trace = check ++ lock :: held ∧ lock.call = .roomLock ∧
        Runs (Interferes 1) (roleChecker .owner (some 1)) pool.state check (.ok owner) checked ∧
          (FenceMatches .close 1 held lock.state final ↔
            ∀ moment ∈ held, ¬Separates 1 .close owner.rows moment)) := by
  have closed : (closeStretch [.done, .done, .done, .done, .done, .done]).map
      (fun (pool, _, final, last) => ((pool.tasks 1).isNone, final.isRevoked 0,
        (last.outcome 1).map Except.isOk)) = some (true, true, some true) := by decide
  obtain ⟨⟨pool, trace, final, last⟩, followed, facts⟩ := Option.map_eq_some_iff.mp closed
  obtain ⟨unused, facts⟩ := Prod.mk.inj facts
  obtain ⟨revoked, returned⟩ := Prod.mk.inj facts
  obtain ⟨result, ended, _⟩ := Option.map_eq_some_iff.mp returned
  obtain ⟨reached, stretch⟩ := stretch_of_closeStretch followed
  exact ⟨pool, trace, final, last, stretch, revoked,
    fence_matches_commit reached (Option.isNone_iff_eq_none.mp unused) stretch ended⟩

/-- The refresh after the commit raises: the session is closed, and nobody is
fenced. -/
theorem commit_without_fence :
    ∃ pool check lock held final last, Reachable (serverService editLog) anyEvent Booted pool ∧
      Stretch (serverService editLog) anyEvent 1
        (startOperation .close (some 1) 1 pool).state (startOperation .close (some 1) 1 pool)
        (check ++ lock :: held) final last ∧
      lock.call = .roomLock ∧ last.outcome 1 = some (.error .driver) ∧
        Committed 1 lock.state final ∧ ¬Fenced .close lock.state final := by
  have raised : (closeStretch [.done, .done, .done, .done, .raised]).map
      (fun (_, trace, final, last) =>
        ((trace.drop 2).head?.map fun lock => (lock.call,
          lock.state.database.membershipCommits.count 1 <
            final.database.membershipCommits.count 1,
          MembershipOperation.close.version lock.state, MembershipOperation.close.version final),
        last.outcome 1)) =
      some (some (.roomLock, true, 0, 0), some (.error .driver)) := by decide
  obtain ⟨⟨pool, trace, final, last⟩, followed, facts⟩ := Option.map_eq_some_iff.mp raised
  obtain ⟨first, ended⟩ := Prod.mk.inj facts
  obtain ⟨lock, head, facts⟩ := Option.map_eq_some_iff.mp first
  simp only [Prod.mk.injEq, decide_eq_true_eq] at facts
  obtain ⟨isLock, committed, before, after⟩ := facts
  obtain ⟨held, split⟩ := List.head?_eq_some_iff.mp head
  obtain ⟨reached, stretch⟩ := stretch_of_closeStretch followed
  rw [← List.take_append_drop 2 trace, split] at stretch
  refine ⟨pool, trace.take 2, lock, held, final, last, reached, stretch, isLock, ended, committed, ?_⟩
  intro fenced
  have version := fenced.1
  omega

end Concord.Server

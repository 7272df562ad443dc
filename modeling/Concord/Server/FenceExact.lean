import Mathlib.Logic.Relation
import Concord.Asyncio.Triples
import Concord.Server.FenceConnections
import Concord.Server.Ghosts

/-!
Contract: the authorization fence fails exactly after an invalidation.

Owns:
- `InvalidationPublished`, an invalidation that takes effect between two states of the backend;
- `FenceKnown`, what the stamp of a connection says about the invalidations
  since it was captured;
- `Serving`, a connection from its handshake to a state that its handler passes
  while it serves the connection, and `fence_is_exact` at every such state.

`_authorization_failure` is evaluated by `serve_connection` alone. The other parts of
the endpoint run before the stamp is recorded or after the service has ended.

Does not own: who publishes an invalidation, and why.
-/

set_option autoImplicit false

namespace Concord.Server

open Asyncio Collaboration ServerState

variable {P : Platform}

/-! ### What a stamp knows -/

/-- The invalidation of the session or of the user is another one. -/
def Invalidated (userId : UserId) (before after : FenceView) : Prop :=
  after.sessionInvalidation ≠ before.sessionInvalidation ∨
    after.memberInvalidations userId ≠ before.memberInvalidations userId

/-- The invalidations since the stamp of a connection was captured: the stamp is
stale exactly where there is one, and the connection is marked only then. -/
structure FenceKnown (userId : UserId) (websocket : WebSocket) (stamp : AuthorizationStamp)
    (recorded : Option AuthorizationStamp) (published : Prop) (view : FenceView) : Prop where
  recorded : view.connectionStamps websocket = recorded
  session : stamp.sessionVersion ≤ invalidationVersion view.sessionInvalidation
  member : stamp.memberVersion ≤ invalidationVersion (view.memberInvalidations userId)
  stale : view.Stale userId stamp ↔ published
  marked : view.revokedConnections websocket ≠ none → published
  entries : ∀ connection ∈ view.connections, connection.websocket = websocket →
    connection.userId = userId

section FenceKnown

variable {userId : UserId} {websocket : WebSocket} {stamp : AuthorizationStamp}
  {recorded : Option AuthorizationStamp} {published : Prop} {before after : FenceView}

/-- The others make the stamp stale exactly where they publish an invalidation. -/
theorem FenceKnown.rely (known : FenceKnown userId websocket stamp recorded published before)
    (rely : FenceRely websocket before after) :
    FenceKnown userId websocket stamp recorded (published ∨ Invalidated userId before after) after where
  recorded := rely.stamp.trans known.recorded
  session := known.session.trans rely.session.le
  member := known.member.trans (rely.member userId).le
  stale := by
    have session := known.session
    have member := known.member
    have sessionLe := rely.session.le
    have memberLe := (rely.member userId).le
    rw [← known.stale, Invalidated, rely.session.ne_iff, (rely.member userId).ne_iff]
    unfold FenceView.Stale
    omega
  marked isMarked := by
    rcases rely.revoked isMarked with marked | closed | ⟨connection, member, own, invalidated⟩
    · exact .inl (known.marked marked)
    · exact .inr (.inl closed)
    · rw [known.entries connection member own] at invalidated
      exact .inr (.inr invalidated)
  entries connection member own :=
    known.entries connection (rely.entries connection member own) own

/-- The own steps of a connection that is served. -/
structure ServedStep (userId : UserId) (websocket : WebSocket) (before after : FenceView) : Prop where
  stamps : after.connectionStamps = before.connectionStamps
  member : after.memberInvalidations = before.memberInvalidations
  session : after.sessionInvalidation = before.sessionInvalidation
  marked : after.revokedConnections websocket ≠ none → before.Failing userId websocket
  entries : ∀ connection ∈ after.connections,
    connection ∈ before.connections ∨ connection.userId = userId

private theorem permits_servedStep (userId : UserId) (websocket : WebSocket) :
    Permits (ServedStep userId websocket) userId websocket where
  idle _ := ⟨rfl, rfl, rfl, .inl, fun _ => .inl⟩
  joins view connection own := by
    refine ⟨rfl, rfl, rfl, .inl, fun other member => ?_⟩
    rcases List.mem_append.mp member with there | joined
    · exact .inl there
    · obtain rfl := List.mem_singleton.mp joined
      exact .inr own
  marks _ _ failing := ⟨rfl, rfl, rfl, fun _ => failing, fun _ => .inl⟩

/-- Where the fence fails, an invalidation was published. -/
theorem FenceKnown.published_of_failing
    (known : FenceKnown userId websocket stamp recorded published before)
    (own : ∀ current, recorded = some current → current = stamp)
    (failing : before.Failing userId websocket) : published := by
  rcases failing with marked | ⟨current, stamped, stale⟩
  · exact known.marked marked
  · obtain rfl := own current (known.recorded.symm.trans stamped)
    exact known.stale.mp stale

theorem FenceKnown.served (known : FenceKnown userId websocket stamp recorded published before)
    (own : ∀ current, recorded = some current → current = stamp)
    (step : ServedStep userId websocket before after) :
    FenceKnown userId websocket stamp recorded published after where
  recorded := (congrFun step.stamps websocket).trans known.recorded
  session := known.session.trans_eq (congrArg _ step.session.symm)
  member := known.member.trans_eq (congrArg _ (congrFun step.member userId).symm)
  stale := by
    rw [← known.stale]
    unfold FenceView.Stale
    rw [step.session, step.member]
  marked isMarked := known.published_of_failing own (step.marked isMarked)
  entries connection member isOwn := by
    rcases step.entries connection member with there | joined
    · exact known.entries connection there isOwn
    · exact joined

/-- With its stamp recorded, the fence of a connection fails exactly where an
invalidation was published. -/
theorem FenceKnown.exact (known : FenceKnown userId websocket stamp (some stamp) published before) :
    before.Failing userId websocket ↔ published := by
  refine ⟨known.published_of_failing fun _ same => (Option.some.inj same).symm, ?_⟩
  exact fun isPublished => .inr ⟨stamp, known.recorded, known.stale.mpr isPublished⟩

end FenceKnown

/-! ### The runs of a connection -/

section Runs

variable {env : ServerState P → ServerState P → Prop} {websocket : WebSocket}
  {user : AuthenticatedUser} {start state : ServerState P} {trace past : List (Moment (ServerState P) (Event P) Call)}

/-- What is known of a connection after some moments. -/
def KnownAfter (user : AuthenticatedUser) (websocket : WebSocket)
    (recorded : Option AuthorizationStamp) (past : List (Moment (ServerState P) (Event P) Call))
    (server : ServerState P) : Prop :=
  FenceKnown user.userId websocket user.stamp recorded
    (∃ moment ∈ past, Invalidated user.userId (fenceView moment.before) (fenceView moment.state))
    (fenceView server)

/-- A part of the endpoint that takes served steps keeps what is known. -/
theorem knownAfter_of_visits {α : Type} {recorded : Option AuthorizationStamp}
    (framed : ∀ {before after}, env before after →
      FenceRely websocket (fenceView before) (fenceView after))
    (own : ∀ current, recorded = some current → current = user.stamp)
    {program : ServerProgram P α}
    (served : Preserves (serverFences P (ServedStep user.userId websocket)) (fun _ _ _ => True)
      websocket (AnyFence (ServedStep user.userId websocket)) program)
    (known : KnownAfter user websocket recorded past start)
    (visits : Visits env program start trace state) :
    KnownAfter user websocket recorded (past ++ trace) state := by
  refine visits_of_wp (fun step _ => ⟨(), framed step, trivial, trivial⟩) (fun _ _ _ => trivial)
    ?_ (fun guar before => before.served own guar.2) (served () start ⟨trivial, trivial⟩) known visits
  intro past before after call event step before'
  have known := before'.rely (framed step)
  unfold KnownAfter
  simp only [List.mem_append, List.mem_singleton, or_and_right, exists_or, exists_eq_left]
  exact known

private theorem authenticateRows_user {userId : UserId} {stamp : AuthorizationStamp}
    (runs : Runs env (authenticateRows userId stamp) start trace (.ok user) state) :
    user.userId = userId ∧ user.stamp = stamp := by
  unfold authenticateRows at runs
  obtain ⟨⟨username, rows⟩, _, _, _, rfl, _, runs⟩ := runs_bind_ok runs
  cases username with
  | none => cases (runs_throw runs).2.1
  | some username =>
      obtain ⟨⟨row, rows⟩, _, _, _, rfl, _, runs⟩ := runs_bind_ok runs
      cases row with
      | none => cases (runs_throw runs).2.1
      | some row =>
          dsimp only at runs
          split at runs
          · cases (runs_throw runs).2.1
          · obtain ⟨⟨role, rows⟩, _, _, _, rfl, _, runs⟩ := runs_bind_ok runs
            cases role with
            | none => cases (runs_throw runs).2.1
            | some role =>
                obtain ⟨-, returned, -⟩ := runs_pure runs
                obtain rfl := Except.ok.inj returned
                exact ⟨rfl, rfl⟩

/-- The stamp of a connection is captured at the start of its handshake. -/
theorem authenticateWs_stamp {handshake : Handshake}
    (runs : Runs env (authenticateWs handshake) start trace (.ok user) state) :
    user.stamp = start.currentStamp user.userId := by
  unfold authenticateWs at runs
  split at runs
  · cases (runs_throw runs).2.1
  · cases (runs_throw runs).2.1
  · cases (runs_throw runs).2.1
  · cases (runs_throw runs).2.1
  · obtain ⟨_, _, _, _, rfl, looked, runs⟩ := runs_bind_ok runs
    obtain ⟨rfl, same, rfl⟩ := runs_get looked
    obtain rfl := Except.ok.inj same
    obtain ⟨rfl, stamped⟩ := authenticateRows_user runs
    exact stamped

/-- Where a stamp is captured outside the room, nothing is published since. -/
theorem knownAfter_of_captured (outside : OutsideRoom websocket (connectionView start))
    (captured : user.stamp = start.currentStamp user.userId) :
    KnownAfter user websocket none [] start where
  recorded := outside.2.1
  session := by rw [captured]; exact le_rfl
  member := by rw [captured]; exact le_rfl
  stale := by
    rw [captured]
    refine iff_of_false ?_ (by simp)
    rintro (newer | newer)
    · exact lt_irrefl _ newer
    · exact lt_irrefl _ newer
  marked isMarked := absurd outside.2.2 isMarked
  entries connection member own := absurd ⟨connection, member, own⟩ outside.1

/-- The stamp that was captured is recorded. -/
theorem knownAfter_setStamp (known : KnownAfter user websocket none past start) :
    KnownAfter user websocket (some user.stamp) past (start.setStamp websocket (some user.stamp)) where
  recorded := Function.update_self _ _ _
  session := known.session
  member := known.member
  stale := known.stale
  marked := known.marked
  entries := known.entries

end Runs

section Sessions

variable {Sessions : Type} [DecidableEq Sessions] {policy : ServerPolicy P} {session : Sessions}
  {websocket : WebSocket} {handshake : Handshake} {messages : Nat} {user : AuthenticatedUser}

/-- What the other tasks of the backend do while one task waits. -/
def Meanwhile (policy : ServerPolicy P) (task : TaskId) :
    (Sessions → ServerState P) → (Sessions → ServerState P) → Prop :=
  Relation.ReflTransGen fun before after => ∃ pool middle,
    Reachable (serverFamily P Sessions) policy.family AllBooted pool ∧
      Foreign (serverFamily P Sessions) policy.family task pool middle ∧
        pool.state = before ∧ middle.state = after

/-- An invalidation of the session, or of the user in the session, was published
between two states of the backend. -/
def InvalidationPublished (session : Sessions) (userId : UserId) (before after : Sessions → ServerState P) : Prop :=
  (after session).sessionInvalidation ≠ (before session).sessionInvalidation ∨
    (after session).memberInvalidations userId ≠ (before session).memberInvalidations userId

private theorem fenceRely_of_meanwhile {before after : Sessions → ServerState P}
    (meanwhile : Meanwhile policy websocket before after) (session : Sessions) :
    FenceRely websocket (fenceView (before session)) (fenceView (after session)) := by
  induction meanwhile with
  | refl => exact .refl _ _
  | tail _ step inductionHypothesis =>
      obtain ⟨pool, middle, reached, foreign, rfl, rfl⟩ := step
      refine inductionHypothesis.trans ?_
      rcases foreign.project reached session with ⟨part, part', reached, same, foreign, same'⟩ | same
      · rw [← same, ← same']
        exact fenceRely_of_foreign reached foreign
      · rw [same]
        exact .refl _ _

/-- What is published over several steps of the others is published in one of them. -/
theorem invalidationPublished_trans {first second third : Sessions → ServerState P} {userId : UserId}
    (earlier : Meanwhile policy websocket first second)
    (later : Meanwhile policy websocket second third) :
    InvalidationPublished session userId first third ↔
      InvalidationPublished session userId first second ∨ InvalidationPublished session userId second third := by
  have one := fenceRely_of_meanwhile earlier session
  have two := fenceRely_of_meanwhile later session
  have closed := one.session.ne_trans two.session
  have invalidated := (one.member userId).ne_trans (two.member userId)
  exact (or_congr closed invalidated).trans or_or_or_comm

/-- A task that has not started is outside the room of every session. -/
theorem outsideRoom_of_unused
    {pool : Pool (Sessions → ServerState P) (Event P) Call Exn (Sessions × ServerRequest P)}
    (reached : Reachable (serverFamily P Sessions) policy.family AllBooted pool)
    (unused : pool.tasks websocket = none) (session : Sessions) :
    OutsideRoom websocket (connectionView (pool.state session)) := by
  obtain ⟨part, reached, projects⟩ := reached.project session
  rw [← projects.state]
  exact outsideRoom_of_outcome (reached.mono fun _ _ _ _ _ => trivial)
    (.inl (projects.unused unused))

/-- A connection of a user to a session, from the state at which its handshake
captures the stamp to a state that its handler passes while it serves the connection.
The trace has the moments at which the handler went on. -/
inductive Serving (policy : ServerPolicy P) (session : Sessions) (websocket : WebSocket)
    (handshake : Handshake) (messages : Nat) (user : AuthenticatedUser)
    (start : Sessions → ServerState P) :
    List (Moment (Sessions → ServerState P) (Event P) Call) → (Sessions → ServerState P) → Prop where
  | serving {authenticated accepted state authenticating accepting serving}
      (authenticates : Runs (Meanwhile policy websocket) ((authenticateWs handshake).at session)
        start authenticating (.ok user) authenticated)
      (accepts : Runs (Meanwhile policy websocket) ((accept : ServerProgram P Unit).at session)
        authenticated accepting (.ok ()) accepted)
      (serves : Visits (Meanwhile policy websocket)
        ((serveConnection websocket user messages).at session)
        (Function.update accepted session ((accepted session).setStamp websocket (some user.stamp)))
        serving state) :
      Serving policy session websocket handshake messages user start
        (authenticating ++ accepting ++ serving) state

/-- **The fence is exact.** At every state that the handler of a connection passes
while it serves the connection, `_authorization_failure` returns a failure if and only
if an invalidation of the session, or of the user in the session, was published since
the connection captured its stamp. -/
theorem fence_is_exact
    {pool : Pool (Sessions → ServerState P) (Event P) Call Exn (Sessions × ServerRequest P)}
    {trace : List (Moment (Sessions → ServerState P) (Event P) Call)} {state : Sessions → ServerState P}
    (reached : Reachable (serverFamily P Sessions) policy.family AllBooted pool)
    (unused : pool.tasks websocket = none)
    (serving : Serving policy session websocket handshake messages user pool.state trace state) :
    ((state session).authorizationFailure user.userId websocket).isSome ↔
      ∃ moment ∈ trace, InvalidationPublished session user.userId moment.before moment.state := by
  obtain ⟨authenticates, accepts, serves⟩ := serving
  have framed : ∀ {before after : ServerState P},
      (∃ whole whole', Meanwhile policy websocket whole whole' ∧ before = whole session ∧
        after = whole' session) → FenceRely websocket (fenceView before) (fenceView after) := by
    rintro _ _ ⟨whole, whole', meanwhile, rfl, rfl⟩
    exact fenceRely_of_meanwhile meanwhile session
  have permits := permits_servedStep user.userId websocket
  have fresh : ∀ current, none = some current → current = user.stamp := nofun
  -- Nothing is published yet where the stamp is captured.
  have captured : KnownAfter user websocket none [] (pool.state session) :=
    knownAfter_of_captured (outsideRoom_of_unused reached unused session)
      (authenticateWs_stamp (runs_focus (isPart_index session) authenticates).1)
  have authenticated := knownAfter_of_visits framed fresh
    (authenticateWs_preserves (query_fences permits.idle) handshake) captured
    (visits_of_runs (runs_focus (isPart_index session) authenticates).1)
  have accepted := knownAfter_of_visits framed fresh
    (operation_fences permits.idle (by decide) fun _ => rfl) authenticated
    (visits_of_runs (runs_focus (isPart_index session) accepts).1)
  have visits := visits_focus (isPart_index session) serves
  rw [Function.update_self] at visits
  have known := knownAfter_of_visits framed (fun _ same => (Option.some.inj same).symm)
    (serveConnection_fences permits messages) (knownAfter_setStamp accepted) visits
  rw [authorizationFailure_isSome, known.exact]
  simp only [List.nil_append, ← List.map_append, List.mem_map, exists_exists_and_eq_and]
  rfl

/-! ### Every step of a connection -/

section Places

variable {env : (Sessions → ServerState P) → (Sessions → ServerState P) → Prop}
  {start state : Sessions → ServerState P}
  {trace : List (Moment (Sessions → ServerState P) (Event P) Call)}

/-- The first part of `websocket_endpoint`, which keeps a refusal as a value. -/
def authenticationOutcome (handshake : Handshake) :
    ServerProgram P (Except (Nat × String) AuthenticatedUser) :=
  Coroutine.tryExcept
    (do pure (Except.ok (← authenticateWs handshake)))
    (fun
      | .webSocketAuth code reason => pure (.error (code, reason))
      | exn => throw exn)

private theorem authenticationOutcome_visits
    (visits : Visits env ((authenticationOutcome handshake : ServerProgram P _).at session) start trace
      state) : Visits env ((authenticateWs handshake).at session) start trace state := by
  unfold authenticationOutcome at visits
  rw [at_tryExcept, at_bind] at visits
  rcases visits_tryExcept visits with body | ⟨exn, middle, earlier, later, rfl, runs, handled⟩
  · exact visits_bind_pure body
  · have raised := visits_bind_pure (visits_of_runs runs)
    split at handled
    · obtain ⟨rfl, rfl⟩ := handled
      rwa [List.append_nil]
    · obtain ⟨rfl, rfl⟩ := handled
      rwa [List.append_nil]

private theorem authenticationOutcome_runs
    (runs : Runs env ((authenticationOutcome handshake : ServerProgram P _).at session) start trace
      (.ok (.ok user)) state) :
    Runs env ((authenticateWs handshake).at session) start trace (.ok user) state := by
  unfold authenticationOutcome at runs
  rw [at_tryExcept, at_bind] at runs
  rcases runs_tryExcept runs with ⟨_, same, body⟩ | ⟨exn, middle, earlier, later, rfl, _, handled⟩
  · obtain rfl := Except.ok.inj same
    obtain ⟨value, middle, earlier, later, rfl, body, ended⟩ := runs_bind_ok body
    obtain ⟨rfl, returned, rfl⟩ := ended
    obtain rfl := Except.ok.inj (Except.ok.inj returned)
    rwa [List.append_nil]
  · split at handled
    · cases Except.ok.inj handled.2.1
    · cases handled.2.1

/-- The parts of `websocket_endpoint` that do not serve the connection. None of them
evaluates `_authorization_failure`. -/
inductive BesideService (handshake : Handshake) (websocket : WebSocket) :
    {α : Type} → ServerProgram P α → Prop where
  | authenticating : BesideService handshake websocket (authenticateWs handshake)
  | accepting : BesideService handshake websocket accept
  | refusing (code : Nat) (reason : String) :
      BesideService handshake websocket (close websocket code reason)
  | failing : BesideService handshake websocket
      (closeConnection websocket 1011 "Collaboration server error")
  | leaving : BesideService handshake websocket (do
      if (← get).joined websocket then leaveRoom websocket
      else modify (forget websocket))

/-- Whatever the endpoint passes, it passes while it serves the connection or beside
that. -/
theorem serving_or_beside
    (visits : Visits (Meanwhile policy websocket)
      ((websocketEndpoint handshake messages websocket).at session) start trace state) :
    (∃ user, Serving policy session websocket handshake messages user start trace state) ∨
      ∃ (α : Type) (program : ServerProgram P α) (begun : Sessions → ServerState P)
        (later : List (Moment (Sessions → ServerState P) (Event P) Call)),
        BesideService handshake websocket program ∧
          Visits (Meanwhile policy websocket) (program.at session) begun later state := by
  unfold websocketEndpoint at visits
  rw [at_bind] at visits
  rcases visits_bind visits with first | ⟨answer, middle, earlier, rest, rfl, runs, visits⟩
  · exact .inr ⟨_, _, _, _, .authenticating, authenticationOutcome_visits first⟩
  · cases answer with
    | error refusal =>
        obtain ⟨code, reason⟩ := refusal
        dsimp only at visits
        rw [at_bind] at visits
        rcases visits_bind visits with accepting | ⟨_, _, _, _, _, _, refusing⟩
        · exact .inr ⟨_, _, _, _, .accepting, accepting⟩
        · exact .inr ⟨_, _, _, _, .refusing code reason, refusing⟩
    | ok user =>
        dsimp only at visits
        rw [at_bind] at visits
        rcases visits_bind visits with accepting | ⟨_, accepted, accepting, _, rfl, accepts, visits⟩
        · exact .inr ⟨_, _, _, _, .accepting, accepting⟩
        · rw [at_bind, at_tryFinally, at_tryExcept] at visits
          rcases visits with ⟨rfl, rfl⟩ | visits
          · exact .inr ⟨_, _, _, _, .accepting, visits_of_runs accepts⟩
          · rcases visits_tryFinally visits with body | ⟨_, _, _, _, _, _, leaving⟩
            · rcases visits_tryExcept body with serves | ⟨_, _, _, _, _, _, failing⟩
              · rw [← List.append_assoc]
                exact .inl ⟨user, .serving (authenticationOutcome_runs runs) accepts serves⟩
              · exact .inr ⟨_, _, _, _, .failing, failing⟩
            · exact .inr ⟨_, _, _, _, .leaving, leaving⟩

end Places

/-- A stretch without a step of the task is what the others do meanwhile. -/
theorem meanwhile_of_stretch {task : TaskId} {since final : Sessions → ServerState P}
    {pool last : Pool (Sessions → ServerState P) (Event P) Call Exn (Sessions × ServerRequest P)}
    {trace : List (Moment (Sessions → ServerState P) (Event P) Call)}
    (reached : Reachable (serverFamily P Sessions) policy.family AllBooted pool)
    (stretch : Stretch (serverFamily P Sessions) policy.family task since pool trace final last)
    (idle : trace = []) : Meanwhile policy task pool.state last.state := by
  induction stretch with
  | stop => exact .refl
  | foreign step rest inductionHypothesis =>
      exact .head ⟨_, _, reached, step, rfl, rfl⟩
        (inductionHypothesis (reached.step step.step) idle)
  | own suspended allowed taken rest inductionHypothesis => cases idle

/-- Whatever the handler of a connection passes in a step of the backend, it passes
while it serves the connection or beside that, since a state at which its task had
not started. -/
theorem serving_of_step
    {pool : Pool (Sessions → ServerState P) (Event P) Call Exn (Sessions × ServerRequest P)}
    {β : Type} {call : Call}
    {act : Event P → (Sessions → ServerState P) → Option (β × (Sessions → ServerState P))}
    {next : β → Coroutine (Sessions → ServerState P) (Event P) Call Exn Unit}
    {event : Event P} {answer : β} {after state : Sessions → ServerState P}
    (reached : Reachable (serverFamily P Sessions) policy.family AllBooted pool)
    (suspended : pool.tasks websocket =
      some ((session, .websocket handshake messages), .await call act next))
    (taken : act event pool.state = some (answer, after))
    (passed : Visits (Meanwhile policy websocket) (next answer) after [] state) :
    ∃ start trace, Reachable (serverFamily P Sessions) policy.family AllBooted start ∧
      start.tasks websocket = none ∧
        ((∃ user, Serving policy session websocket handshake messages user start.state trace state) ∨
          ∃ (α : Type) (program : ServerProgram P α) (begun : Sessions → ServerState P)
            (later : List (Moment (Sessions → ServerState P) (Event P) Call)),
            BesideService handshake websocket program ∧
              Visits (Meanwhile policy websocket) (program.at session) begun later state) := by
  obtain ⟨start, trace, since, began, unused, stretch⟩ := reached.stretch suspended
  have framed : ∀ {pool middle : Pool (Sessions → ServerState P) (Event P) Call Exn
      (Sessions × ServerRequest P)}, Reachable (serverFamily P Sessions) policy.family AllBooted pool →
      Foreign (serverFamily P Sessions) policy.family websocket pool middle →
        Meanwhile policy websocket pool.state middle.state :=
    fun reached foreign => .single ⟨_, _, reached, foreign, rfl, rfl⟩
  have visits := stretch.visits (fun _ => .refl) .trans framed
    (began.step (.spawn websocket (session, .websocket handshake messages) unused)) .refl
    (Function.update_self _ _ _) suspended taken passed
  exact ⟨start, _, began, unused, serving_or_beside (visits_settle visits)⟩

end Sessions

/-! ### A connection that is fenced during its handshake -/

def idlePool : Pool (Bool → ServerState editLog) (Event editLog) Call Exn (Bool × ServerRequest editLog) :=
  Pool.start fun _ => sampleServer

/-- User 2 connects to one of two sessions. The first query of its handshake answers
in some state, and the other awaits at once. -/
def authenticatedIn (resumed : Bool → ServerState editLog) :
    Option (List (Moment (Bool → ServerState editLog) (Event editLog) Call) ×
      Except Exn AuthenticatedUser × (Bool → ServerState editLog)) :=
  drivenAmong ((authenticateWs ⟨some (some 2), .session⟩ : ServerProgram editLog _).at true)
    ((fun _ => resumed, .done) :: [.done, .done].map (id, ·)) idlePool.state

/-- User 1 makes user 2 a viewer after the handshake has captured its stamp: whether
the connection slept through that, its user, and the failure of its fence once the
stamp is recorded. -/
def demotedHandshake : Option (Bool × UserId × Option (Nat × String)) :=
  ((serverFamily editLog Bool).follow permitsAll 0 (onSession true (demote 1)) idlePool.state
    idlePool).bind fun (slept, _, demoted) =>
      (authenticatedIn demoted.state).bind fun (_, answer, authenticated) =>
        (driven ((accept : ServerProgram editLog Unit).at true) [.done] authenticated).bind
          fun (_, answer', accepted) =>
            match answer, answer' with
            | .ok user, .ok () => some (slept.isEmpty, user.userId,
                ((accepted true).setStamp 0 (some user.stamp)).authorizationFailure user.userId 0)
            | _, _ => none

theorem fence_is_exact_run :
    ∃ user trace state, Serving (P := editLog) anyEvent true 0 ⟨some (some 2), .session⟩ 9 user
        idlePool.state trace state ∧ user.userId = 2 ∧
      ((state true).authorizationFailure user.userId 0).isSome ∧
        ∃ moment ∈ trace, InvalidationPublished true user.userId moment.before moment.state := by
  have outcome : demotedHandshake =
      some (true, 2, some (wsRoleChanged, "Session role changed; reconnecting")) := by decide +kernel
  unfold demotedHandshake at outcome
  simp only [Option.bind_eq_some_iff, Prod.exists] at outcome
  obtain ⟨slept, _, demoted, followed, authenticating, answer, authenticated, drives, accepting,
    answer', accepted, drives', facts⟩ := outcome
  have reached : Reachable (serverFamily editLog Bool) (Policy.family anyEvent) AllBooted idlePool :=
    .start fun _ => booted_sampleServer
  cases answer with
  | error exn => cases facts
  | ok user =>
      cases answer' with
      | error exn => cases facts
      | ok done =>
          simp only [Option.some.injEq, Prod.mk.injEq, List.isEmpty_iff] at facts
          obtain ⟨idle, isUser, failure⟩ := facts
          have meanwhile : Meanwhile (P := editLog) anyEvent 0 idlePool.state demoted.state :=
            meanwhile_of_stretch reached
              (Service.stretch_of_follow (fun _ _ _ _ _ => trivial) followed) idle
          have serving : Serving (P := editLog) anyEvent true 0 ⟨some (some 2), .session⟩ 9 user
              idlePool.state _ _ :=
            .serving (runs_of_interrupted (fun _ => .refl) meanwhile drives)
              (runs_of_driven (fun _ => .refl) drives') (visits_start _)
          have failing : ((Function.update accepted true ((accepted true).setStamp 0 (some user.stamp))
              true).authorizationFailure user.userId 0).isSome := by
            rw [Function.update_self, failure]
            rfl
          exact ⟨user, _, _, serving, isUser, failing, (fence_is_exact reached rfl serving).mp failing⟩

end Concord.Server

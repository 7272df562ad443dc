import Concord.Server.AuthorityEndpoints
import Concord.Server.Durability

/-!
Contract: every mutation of the document is made by a current editor.

Owns:
- the connections keep the authority protocol;
- the authority of every mutation in every run, where a membership operation
  whose commit took effect returns to its endpoint.

Does not own: what happens when such an operation raises.
-/

set_option autoImplicit false

namespace Concord.Server

open Asyncio Collaboration ServerState

variable {P : Platform} {α : Type} {returning : Prop} {task : TaskId} {pending : Pending}
  {server : ServerState P} {allows : ServerState P → Call → Event P → Prop}

/-! ### Authentication -/

/-- Rows that are loaded now are current. -/
theorem rowsCurrent_load {userId : UserId} {stamp : AuthorizationStamp} {rows : IdentityMap}
    {session : Option SessionRow} {members : UserId → Option RoleEnum}
    (known : RowsCurrent returning userId stamp rows pending (authorityView server))
    (sessionRow : ∀ row, session = some row → server.database.session = some row)
    (memberRow : ∀ role, members userId = some role →
      server.database.members userId = some role) :
    RowsCurrent returning userId stamp (rows.load session members) pending (authorityView server) where
  memberPast := known.memberPast
  sessionPast := known.sessionPast
  member role loaded := by
    cases earlier : rows.members userId with
    | some role' =>
        simp [IdentityMap.load, earlier] at loaded
        subst loaded
        exact known.member role' earlier
    | none =>
        simp [IdentityMap.load, earlier] at loaded
        exact ⟨known.memberPast, fun _ => .inr (.inr (memberRow role loaded))⟩
  session row loaded active := by
    cases earlier : rows.session with
    | some row' =>
        simp [IdentityMap.load, earlier] at loaded
        subst loaded
        exact known.session row' earlier active
    | none =>
        simp [IdentityMap.load, earlier] at loaded
        refine ⟨known.sessionPast, fun _ => .inr (.inr ?_)⟩
        change server.database.session.any (·.isActive) = true
        rw [sessionRow row loaded]
        exact active

private theorem rowsCurrent_loadUser {userId : UserId} {stamp : AuthorizationStamp}
    {rows : IdentityMap}
    (known : RowsCurrent returning userId stamp rows pending (authorityView server)) :
    RowsCurrent returning userId stamp (rows.loadUser userId server.database) pending
      (authorityView server) := by
  unfold IdentityMap.loadUser
  split
  · exact known
  · split
    · exact rowsCurrent_load known (fun _ => id) fun _ => id
    · refine rowsCurrent_load known nofun fun role loaded => ?_
      simpa using loaded

private theorem rowsCurrent_loadSession {userId : UserId} {stamp : AuthorizationStamp}
    {rows : IdentityMap}
    (known : RowsCurrent returning userId stamp rows pending (authorityView server)) :
    RowsCurrent returning userId stamp (rows.loadSession server.database) pending (authorityView server) := by
  unfold IdentityMap.loadSession
  split
  · exact known
  · exact rowsCurrent_load known (fun _ => id) fun _ => id

private theorem rowsCurrent_loadMember {userId : UserId} {stamp : AuthorizationStamp}
    {rows : IdentityMap}
    (known : RowsCurrent returning userId stamp rows pending (authorityView server)) :
    RowsCurrent returning userId stamp (rows.loadMember userId server.database) pending
      (authorityView server) := by
  refine rowsCurrent_load known nofun fun role loaded => ?_
  simpa using loaded

theorem loadMember_session (userId : UserId) (database : Database P) (rows : IdentityMap) :
    (rows.loadMember userId database).session = rows.session := by
  cases earlier : rows.session <;> simp [IdentityMap.loadMember, IdentityMap.load, earlier]

theorem loadSession_session {database : Database P} {rows : IdentityMap} {row : SessionRow}
    (stored : database.session = some row) (absent : rows.session = none) :
    (rows.loadSession database).session = some row := by
  simp [IdentityMap.loadSession, IdentityMap.load, stored, absent]

/-- What a handshake knows before its user is authentic. -/
def Handshaking (returning : Prop) (task : TaskId) (userId : UserId) (stamp : AuthorizationStamp) (rows : IdentityMap)
    (pending : Pending) (view : AuthorityView) : Prop :=
  RowsCurrent returning userId stamp rows pending view ∧ Placed task view

private theorem standing_handshaking {calls : Call → Prop} (userId : UserId)
    (stamp : AuthorizationStamp)
    (rows : IdentityMap) :
    Standing (authorityProtocol returning) calls task (Handshaking returning task userId stamp rows) :=
  standing_and (standing_rowsCurrent userId stamp rows) standing_placed

/-- The session that a handshake has read is in its identity map. -/
theorem getSession_authority {userId : UserId} {stamp : AuthorizationStamp} {rows : IdentityMap}
    (knows : Knows returning (Handshaking returning task userId stamp rows) pending server) :
    wp (serverAuthority P returning) allows task (getSession rows)
      (fun result pending server => match result with
        | .ok (session, rows) => Knows returning (Handshaking returning task userId stamp rows) pending server ∧
            ∀ row, session = some row → rows.session = some row
        | .error _ => Knows returning (fun _ => Placed task) pending server) pending server := by
  unfold getSession
  split
  · next session loaded =>
      refine ⟨knows, ?_⟩
      intro row same
      rw [loaded, same]
  · next absent =>
      refine wp_mono ?_ (query_answer (standing_handshaking userId stamp rows) knows)
      intro result pending₁ server₁ answered
      cases result with
      | error exn => exact answered.1.weaken fun _ _ known => known.2
      | ok answer =>
          obtain rfl := answered.2 answer rfl
          refine ⟨⟨answered.1.1, rowsCurrent_loadSession answered.1.2.1, answered.1.2.2⟩, ?_⟩
          intro row stored
          exact loadSession_session stored absent

private theorem selectMember_authority {userId : UserId} {stamp : AuthorizationStamp}
    {rows : IdentityMap}
    (knows : Knows returning (Handshaking returning task userId stamp rows) pending server) :
    wp (serverAuthority P returning) allows task (selectMember userId rows)
      (fun result pending server => match result with
        | .ok (some role, _) => Knows returning (fun pending view =>
            MemberCurrent returning userId stamp.memberVersion role pending view ∧
              (∀ row, rows.session = some row → row.isActive = true →
                SessionCurrent returning stamp.sessionVersion pending view) ∧ Placed task view) pending server
        | _ => Knows returning (fun _ => Placed task) pending server) pending server := by
  unfold selectMember
  refine wp_mono ?_ (query_answer (standing_handshaking userId stamp rows) knows)
  intro result pending₁ server₁ answered
  have placed : Knows returning (fun _ => Placed task) pending₁ server₁ :=
    answered.1.weaken fun _ _ known => known.2
  cases result with
  | error exn => exact placed
  | ok answer =>
      have read := answered.2 answer rfl
      split at read
      · subst read
        exact placed
      · subst read
        have loaded := rowsCurrent_loadMember answered.1.2.1
        dsimp only
        split
        · next role _ member =>
            obtain ⟨known, -⟩ := Prod.mk.inj (Except.ok.inj member)
            exact ⟨placed.1, loaded.member role known, answered.1.2.1.session, placed.2⟩
        · exact placed

/-- What a connection knows once its user is authentic. -/
def Admitted (returning : Prop) (task : TaskId) (user : AuthenticatedUser) (pending : Pending) (view : AuthorityView) :
    Prop :=
  Authentic returning user pending view ∧ Placed task view

/-- A user that authenticates is what its stamp says. -/
theorem authenticateRows_authority {userId : UserId} {stamp : AuthorizationStamp}
    (knows : Knows returning (Handshaking returning task userId stamp IdentityMap.empty) pending server) :
    wp (serverAuthority P returning) allows task (authenticateRows userId stamp)
      (fun result pending server => match result with
        | .ok user => Knows returning (Admitted returning task user) pending server
        | .error _ => Knows returning (fun _ => Placed task) pending server) pending server := by
  unfold authenticateRows getUser
  rw [wp_bind]
  refine wp_mono ?_ (query_answer (standing_handshaking userId stamp IdentityMap.empty) knows)
  intro result pending₁ server₁ answered
  have placed : Knows returning (fun _ => Placed task) pending₁ server₁ :=
    answered.1.weaken fun _ _ known => known.2
  cases result with
  | error exn => exact placed
  | ok answer =>
      obtain rfl := answered.2 answer rfl
      rw [thenPost_ok]
      split
      · exact placed
      · next username rows read =>
          obtain ⟨-, rfl⟩ := Prod.mk.inj read
          rw [wp_bind]
          refine wp_mono ?_ (getSession_authority
            ⟨placed.1, rowsCurrent_loadUser answered.1.2.1, placed.2⟩)
          intro result pending₂ server₂ found
          rcases result with exn | ⟨session, rows⟩
          · exact found
          · rw [thenPost_ok]
            cases session with
            | none => exact found.1.weaken fun _ _ known => known.2
            | some session =>
                dsimp only
                split
                · exact found.1.weaken fun _ _ known => known.2
                · next isActive =>
                    have active : session.isActive = true := by simpa using isActive
                    rw [wp_bind]
                    refine wp_mono ?_ (selectMember_authority found.1)
                    intro result pending₃ server₃ selected
                    rcases result with exn | ⟨_ | role, rows'⟩
                    · exact selected
                    · exact selected
                    · exact selected.weaken fun _ _ known =>
                        ⟨⟨known.1, known.2.1 session (found.2 session rfl) active⟩, known.2.2⟩

private theorem authenticateWs_authority (handshake : Handshake)
    (knows : Knows returning (fun _ => Placed task) pending server) :
    wp (serverAuthority P returning) allows task (authenticateWs handshake)
      (fun result pending server => match result with
        | .ok user => Knows returning (Admitted returning task user) pending server
        | .error _ => Knows returning (fun _ => Placed task) pending server) pending server := by
  unfold authenticateWs
  split
  · exact knows
  · exact knows
  · exact knows
  · exact knows
  · exact authenticateRows_authority ⟨knows.1, ⟨le_rfl, le_rfl, nofun, nofun⟩, knows.2⟩

/-! ### The lifetime of a connection -/

/-- A connection with its stamp, where its endpoint stands. -/
def Seated (returning : Prop) (task : TaskId) (user : AuthenticatedUser) (pending : Pending) (view : AuthorityView) :
    Prop :=
  Stamped returning task user pending view ∧ Placed task view

private theorem standing_seated {calls : Call → Prop} (user : AuthenticatedUser) :
    Standing (authorityProtocol returning) calls task (Seated returning task user) :=
  standing_and (standing_stamped user) standing_placed

private theorem lockFree_seated (user : AuthenticatedUser) :
    LockFree (Seated returning task user) :=
  lockFree_and (lockFree_stamped user) lockFree_placed

/-- Rows, fences, the room and what the endpoint has noted are as they were. -/
theorem Seated.of_same {user : AuthenticatedUser} {before after : AuthorityView}
    (seated : Seated returning task user pending before) (rows : SameRows before after)
    (stamp : after.connectionStamps = before.connectionStamps)
    (connections : after.connections = before.connections) (joined : after.joined = before.joined) :
    Seated returning task user pending after := by
  refine ⟨⟨?_, rows.member seated.1.2.1, rows.sessionCurrent seated.1.2.2⟩, ?_⟩
  · rw [stamp]
    exact seated.1.1
  · unfold Placed AuthorityView.InRoom
    rw [connections, joined]
    exact seated.2

private theorem closeIfInvalidated_authority (user : AuthenticatedUser) :
    Preserves (serverAuthority P returning) allows task (Knows returning (Seated returning task user))
      (closeIfInvalidated user.userId task) := by
  apply closeIfInvalidated_preserves (close_authority (standing_seated user))
  intro failure
  exact modifyGet_authority fun seated =>
    ⟨ownStep_setRevoked failure, seated.of_same ⟨rfl, rfl, rfl, rfl⟩ rfl rfl rfl⟩

/-- A join leaves the connection in the room, or where it was. -/
theorem joinRoom_authority (connection : ConnectionInfo) (own : connection.websocket = task)
    (user : AuthenticatedUser) :
    Attempts (serverAuthority P returning) allows task (Knows returning (Seated returning task user)) (Knows returning (Stamped returning task user))
      (Knows returning (Seated returning task user)) (joinRoom connection) := by
  have locked : Standing (authorityProtocol returning) Working task fun pending view =>
      Seated returning task user pending view ∧ LockHolder task none pending view :=
    standing_and (standing_seated user) (standing_lockHolder none)
  have append : Attempts (serverAuthority P returning) allows task
      (Knows returning fun pending view => Seated returning task user pending view ∧ LockHolder task none pending view)
      (Knows returning fun pending view => Stamped returning task user pending view ∧ LockHolder task none pending view)
      (Knows returning fun pending view => Seated returning task user pending view ∧ LockHolder task none pending view)
      (modify fun server => { server with rooms := some (server.connections ++ [connection]) } :
        ServerProgram P PUnit) := by
    intro pending server knows
    have step : HolderStep task (authorityView server)
        (authorityView { server with rooms := some (server.connections ++ [connection]) }) :=
      holderStep_append own
    refine wp_modify pending (fun other different => rely_of_sameRows step.kept step.rows different
      (notHeld_of_holder knows.2.2.1 different)) ⟨⟨knows.1.fenced, knows.1.authorized⟩, ?_, knows.2.2⟩
    have stamped := knows.2.1.1
    exact ⟨stamped.1, step.rows.member stamped.2.1, step.rows.sessionCurrent stamped.2.2⟩
  unfold joinRoom
  rw [own]
  refine withRoomLock_authority (standing_seated user) (lockFree_seated user)
    (lockFree_stamped user) (lockFree_seated user) ?_
  have opened : Preserves (serverAuthority P returning) allows task
      (Knows returning fun pending view => Seated returning task user pending view ∧ LockHolder task none pending view)
      (modify fun server => { server with rooms := some server.connections } :
        ServerProgram P PUnit) := locked.modify fun _ => rfl
  refine .bind opened.attempts fun _ => ?_
  refine .bind Preserves.get.attempts fun server => ?_
  split
  · exact .bind (manager_authority locked (loadFromStorage_awaits task)).attempts fun _ => append
  · exact append

private theorem applyIfAuthorized_authority (user : AuthenticatedUser) (payload : P.Bytes) :
    Preserves (serverAuthority P returning) allows task (Knows returning (Seated returning task user))
      (withRoomLock task (modifyGet (applyIfAuthorized task user.userId user.role payload))) := by
  apply Attempts.preserves
  refine withRoomLock_authority (standing_seated user) (lockFree_seated user)
    (lockFree_seated user) (lockFree_seated user) (Preserves.attempts ?_)
  refine modifyGet_authority fun {pending server} held => ?_
  rcases applyIfAuthorized_state task user.userId user.role payload server with
    ⟨failure, state⟩ | state | ⟨authorized, rank, state⟩
  · rw [state]
    exact ⟨ownStep_setRevoked failure, held.1.of_same ⟨rfl, rfl, rfl, rfl⟩ rfl rfl rfl, held.2⟩
  · rw [state]
    refine ⟨⟨othersKept_of_same rfl (fun _ _ => rfl) (fun _ _ => rfl) rfl, ⟨rfl, rfl, rfl, rfl⟩, rfl,
      rfl, fun _ _ => id, fun _ _ => .inl⟩, held⟩
  · rw [state]
    obtain rfl := held.2.2
    have step : OwnStep returning task (authorityView server)
        (authorityView (server.mutate user.userId (DocStore.applyUpdate payload)).2) :=
      ownStep_mutate fun returns => by
        obtain ⟨active, row⟩ := editor_of_authorized returns held.1.1 authorized
        exact ⟨active, user.role, row, rank⟩
    exact ⟨step, held.1.of_same ⟨rfl, rfl, rfl, rfl⟩ rfl rfl rfl, held.2⟩

private theorem handleSyncMessage_authority (user : AuthenticatedUser) (subtype : SyncSubtype)
    (payload : P.Bytes) :
    Preserves (serverAuthority P returning) allows task (Knows returning (Seated returning task user))
      (handleSyncMessage task user subtype payload) := by
  have seated : Standing (authorityProtocol returning) Working task (Seated returning task user) := standing_seated user
  exact handleSyncMessage_preserves (close_authority seated) (send_authority seated)
    (seated.atomic fun _ => rfl) (applyIfAuthorized_authority user payload) subtype

private theorem receiveLoop_authority (user : AuthenticatedUser) (messages : Nat) :
    Preserves (serverAuthority P returning) allows task (Knows returning (Seated returning task user))
      (receiveLoop task user messages) := by
  have seated : Standing (authorityProtocol returning) Working task (Seated returning task user) := standing_seated user
  have idle : Standing (authorityProtocol returning) (fun _ => True) task (Seated returning task user) :=
    standing_seated user
  have sends : Sends (serverAuthority P returning) allows task (Knows returning (Seated returning task user)) :=
    send_authority seated
  have waits : Preserves (serverAuthority P returning) allows task (Knows returning (Seated returning task user))
      (Coroutine.awaitUntil .receive fun _ => none : ServerProgram P Unit) :=
    idle.awaitUntil trivial fun _ _ _ never => nomatch never
  have prunes : Preserves (serverAuthority P returning) allows task (Knows returning (Seated returning task user))
      (modifyGet pruneAwareness : ServerProgram P (List (AwarenessEntry P))) :=
    seated.modifyGet fun _ => rfl
  have presence : ∀ entries, Preserves (serverAuthority P returning) allows task (Knows returning (Seated returning task user))
      (modifyGet (applyAwareness task entries) : ServerProgram P (List (AwarenessEntry P))) :=
    fun _ => seated.modifyGet fun _ => rfl
  have pruned : Preserves (serverAuthority P returning) allows task (Knows returning (Seated returning task user))
      (pruneStaleAwareness task : ServerProgram P Unit) :=
    .bind prunes fun _ => broadcastAwareness_preserves sends _ _
  exact receiveLoop_preserves waits (silent_receive idle) (closeIfInvalidated_authority user) pruned
    (handleBinaryMessage_preserves sends (handleSyncMessage_authority user) presence) messages

/-- The fact of a task in a section under the room lock that nothing else
depends on. -/
abbrev Locked (task : TaskId) (pending : Pending) (view : AuthorityView) : Prop :=
  True ∧ LockHolder task none pending view

private theorem holder_authority {update : ServerState P → α × ServerState P}
    (step : ∀ server, HolderStep task (authorityView server) (authorityView (update server).2)) :
    Preserves (serverAuthority P returning) allows task (Knows returning (Locked task))
      (modifyGet update : ServerProgram P α) := by
  intro pending server knows
  exact modifyGet_holder step (fun _ _ _ => trivial) pending server
    (knows.weaken fun _ _ both => both.2)

private theorem leaveRoom_authority :
    Preserves (serverAuthority P returning) allows task (Knows returning fun _ _ => True) (leaveRoom task) := by
  have locked : Standing (authorityProtocol returning) Working task (Locked task) :=
    standing_and standing_true (standing_lockHolder none)
  have forgets : Preserves (serverAuthority P returning) allows task (Knows returning (Locked task))
      (modify (forget task) : ServerProgram P PUnit) := holder_authority fun _ => holderStep_forget
  have leaves : Preserves (serverAuthority P returning) allows task (Knows returning (Locked task))
      (modifyGet (leave task) : ServerProgram P _) := holder_authority fun _ => holderStep_leave
  have cleared : Preserves (serverAuthority P returning) allows task (Knows returning (Locked task))
      (modify fun server => { server with awareness := [] } : ServerProgram P PUnit) :=
    locked.modify fun _ => rfl
  have removed : Preserves (serverAuthority P returning) allows task (Knows returning (Locked task))
      (Coroutine.tryExcept
        (do let _ ← onManager (checkpointAndRemove task))
        (fun _ => pure ()) : ServerProgram P Unit) :=
    .tryExcept (.bind (manager_authority locked (checkpointAndRemove_awaits task)) fun _ => .pure _)
      fun _ => .pure _
  unfold leaveRoom
  refine .bind (Attempts.preserves (withRoomLock_authority standing_true lockFree_true lockFree_true
    lockFree_true (Preserves.attempts ?_))) fun entries =>
      broadcastAwareness_preserves (send_authority standing_true) _ _
  refine .bind forgets fun _ => .bind .get fun server => ?_
  split
  · exact .pure _
  · refine .bind leaves fun answer => ?_
    rcases answer with ⟨isLast, entries⟩
    cases isLast with
    | true => exact .bind removed fun _ => .bind cleared fun _ => .pure _
    | false => exact .pure _

private theorem serveConnection_authority (user : AuthenticatedUser) (messages : Nat) :
    Preserves (serverAuthority P returning) allows task (Knows returning (Seated returning task user))
      (serveConnection task user messages) := by
  have noted : Leads (serverAuthority P returning) allows task (Knows returning (Stamped returning task user))
      (Knows returning (Seated returning task user))
      (modify fun server => { server with joined := Function.update server.joined task true } :
        ServerProgram P PUnit) := by
    intro pending server knows
    have step : OwnStep returning task (authorityView server) (authorityView
        { server with joined := Function.update server.joined task true }) := ownStep_joined
    refine wp_modify pending step.guar ⟨step.inv knows.1, ?_, .inr (Function.update_self _ _ _)⟩
    exact ⟨knows.2.1, step.rows.member knows.2.2.1, step.rows.sessionCurrent knows.2.2.2⟩
  have joined : Attempts (serverAuthority P returning) allows task (Knows returning (Seated returning task user))
      (Knows returning (Stamped returning task user)) (Knows returning (Seated returning task user))
      (joinRoom ⟨task, user.userId, user.username, user.role⟩) :=
    joinRoom_authority ⟨task, user.userId, user.username, user.role⟩ rfl user
  unfold serveConnection
  refine .bind (closeIfInvalidated_authority user) fun closed => ?_
  split
  · exact .pure _
  · apply Attempts.preserves
    refine .bind joined fun _ => .bind (.of_leads noted) fun _ => ?_
    apply Preserves.attempts
    refine .bind (closeIfInvalidated_authority user) fun closed => ?_
    split
    · exact .pure _
    · have seated : Standing (authorityProtocol returning) Working task (Seated returning task user) :=
        standing_seated user
      exact .bind (greet_preserves (send_authority seated) (seated.atomic fun _ => rfl))
        fun _ => receiveLoop_authority user messages

/-- The end of an endpoint: it leaves the room, or forgets a connection that
never joined. -/
theorem departure_authority :
    Leads (serverAuthority P returning) allows task (Knows returning fun _ => Placed task) (Knows returning fun _ _ => True)
      (do if (← get).joined task then leaveRoom task else modify (forget task)) := by
  intro pending server knows
  rw [wp_bind, wp_get, thenPost_ok]
  split
  · exact leaveRoom_authority pending server (knows.weaken fun _ _ _ => trivial)
  · next notJoined =>
      have outside : ¬(authorityView server).InRoom task := by
        rcases knows.2 with outside | joined
        · exact outside
        · exact absurd joined notJoined
      have step : OwnStep returning task (authorityView server)
          (authorityView (server.forget task)) := ownStep_forget outside
      exact wp_modify pending step.guar ⟨step.inv knows.1, trivial⟩

/-- The endpoint of an authentic connection. -/
theorem admitted_authority (user : AuthenticatedUser) (messages : Nat) :
    Leads (serverAuthority P returning) allows task (Knows returning (Admitted returning task user)) (Knows returning fun _ _ => True)
      (do
        accept
        modify (setStamp task (some user.stamp))
        Coroutine.tryFinally
          (Coroutine.tryExcept (serveConnection task user messages) fun _ =>
            closeConnection task 1011 "Collaboration server error")
          (do
            if (← get).joined task then leaveRoom task
            else modify (forget task))) := by
  have admitted : Standing (authorityProtocol returning) Working task (Admitted returning task user) :=
    standing_and (standing_authentic user) standing_placed
  have working : Working .accept := by decide
  refine Preserves.bind_leads (silent_operation admitted working fun _ => rfl)
    (fun _ _ knows => knows.weaken fun _ _ _ => trivial) fun _ => ?_
  intro pending server knows
  have step : OwnStep returning task (authorityView server)
      (authorityView (server.setStamp task (some user.stamp))) := ownStep_setStamp _
  rw [wp_bind]
  refine wp_modify pending step.guar ?_
  have seated : Knows returning (Seated returning task user) pending (server.setStamp task (some user.stamp)) := by
    refine ⟨step.inv knows.1, ⟨Function.update_self _ _ _, ?_, ?_⟩, knows.2.2⟩
    · exact step.rows.member knows.2.1.1
    · exact step.rows.sessionCurrent knows.2.1.2
  rw [thenPost_ok]
  have served : Preserves (serverAuthority P returning) allows task (Knows returning (Seated returning task user))
      (Coroutine.tryExcept (serveConnection task user messages) fun _ =>
        closeConnection task 1011 "Collaboration server error") :=
    .tryExcept (serveConnection_authority user messages) fun _ =>
      closeConnection_preserves (close_authority (standing_seated user)) _ _ _
  exact Leads.tryFinally (served.leads fun _ _ after => after.weaken fun _ _ known => known.2)
    departure_authority pending _ seated

private theorem websocketEndpoint_authority (handshake : Handshake) (messages : Nat) :
    Leads (serverAuthority P returning) allows task (Knows returning fun _ => Placed task) (Knows returning fun _ _ => True)
      (websocketEndpoint handshake messages task) := by
  intro pending server knows
  unfold websocketEndpoint
  rw [wp_bind, wp_tryExcept, wp_bind]
  refine wp_mono ?_ (authenticateWs_authority handshake knows)
  intro result pending₁ server₁ authenticated
  cases result with
  | ok user => exact admitted_authority user messages pending₁ server₁ authenticated
  | error exn =>
      have anything : Knows returning (fun _ _ => True) pending₁ server₁ :=
        authenticated.weaken fun _ _ _ => trivial
      have working : Working .accept := by decide
      rw [thenPost_error, handlerPost_error]
      split
      · rw [wp_pure, thenPost_ok]
        exact Preserves.bind (silent_operation standing_true working fun _ => rfl)
          (fun _ => close_authority standing_true _ _ _) pending₁ server₁ anything
      · exact anything

/-! ### Every run of the server -/

/-- A policy under which a membership operation whose commit took effect returns
to its endpoint. -/
def MembershipReturns (policy : ServerPolicy P) : Prop :=
  ∀ request : ServerRequest P, request.IsMembership → EffectsReturn (policy request)

/-- Every handler keeps the authority protocol. -/
theorem handler_authority {policy : ServerPolicy P}
    (returns : returning → MembershipReturns policy)
    (request : ServerRequest P) :
    Leads (serverAuthority P returning) (policy request) task (Knows returning fun _ => Placed task)
      (Knows returning fun _ _ => True) (request.handler task) := by
  have anything : ∀ pending (server : ServerState P), Knows returning (fun _ => Placed task) pending server →
      Knows returning (fun _ _ => True) pending server := fun _ _ knows => knows.weaken fun _ _ _ => trivial
  cases request with
  | websocket handshake messages => exact websocketEndpoint_authority handshake messages
  | save credentials documentState =>
      exact .of_implied anything (saveSessionDocument_authority _ _)
  | createSnapshot credentials => exact .of_implied anything (createSnapshotEndpoint_authority _)
  | restoreSnapshot credentials snapshotId =>
      exact .of_implied anything (restoreSnapshotEndpoint_authority _ _)
  | run credentials =>
      exact .of_implied anything (.bind (runDocument_authority _) fun _ => .pure _)
  | maintain => exact .of_implied anything maintainDocumentCheckpoint_authority
  | shutdown =>
      exact .of_implied anything (.tryExcept (.bind (manager_authority standing_true
        (checkpointToRedis_awaits task)) fun _ => .pure _) fun _ => .pure _)
  | addMember credentials key role =>
      exact .of_implied anything (addMemberEndpoint_authority _ _ _)
  | updateMemberRole credentials userId role =>
      exact .of_implied anything (updateMemberRoleEndpoint_authority
        (fun returns' => returns returns' (.updateMemberRole credentials userId role) trivial) _ _ _)
  | removeMember credentials userId =>
      exact .of_implied anything (removeMemberEndpoint_authority
        (fun returns' => returns returns' (.removeMember credentials userId) trivial) _ _)
  | closeSession credentials =>
      exact .of_implied anything (closeSessionEndpoint_authority
        (fun returns' => returns returns' (.closeSession credentials) trivial) _)
  | relay event =>
      exact .of_implied anything (broadcastBinary_preserves (send_authority standing_true) _ _)

theorem serverService_keeps_authority {policy : ServerPolicy P}
    (returns : returning → MembershipReturns policy) :
    Keeps (serverAuthority P returning) (serverService P) policy Booted where
  start := by
    intro server booted
    rcases booted with ⟨sessionId, saved, savedAt, checkpoint, clock, database, replicas, rfl⟩
    refine ⟨none, ⟨fun _ => rfl, fun _ => nofun⟩, fun task => ⟨?_, rfl⟩⟩
    rintro ⟨connection, member, _⟩
    cases member
  request := by
    intro task request pending server inv _ fresh
    refine wp_mono ?_ (handler_authority returns request pending server ⟨inv, .inl fresh.1⟩)
    exact fun _ _ _ after => ⟨after.1, trivial⟩
  ambient := by
    intro change pending server server' taken inv _
    have same : authorityView server' = authorityView server := by
      cases change with
      | tick elapsed =>
          obtain rfl := Option.some.inj taken
          rfl
      | edit websocket change =>
          obtain rfl := Option.some.inj taken
          rfl
      | deliver websocket index =>
          obtain ⟨peer, _, rfl⟩ := Option.map_eq_some_iff.mp taken
          rfl
    refine ⟨pending, ?_, fun task => ?_⟩
    · change AuthorityInv returning pending (authorityView server')
      rw [same]
      exact inv
    · change AuthorityRely returning task pending (authorityView server) pending (authorityView server')
      rw [same]
      exact AuthorityRely.refl _ _ _
  restart := by
    intro pending server inv
    refine ⟨none, ⟨fun _ => rfl, inv.authorized⟩, fun task => ⟨?_, rfl⟩⟩
    rintro ⟨connection, member, _⟩
    cases member

/-- Where membership operations whose commit took effect return, every mutation
of the document was made by an editor of an active session, by the rows that were
committed at that step. -/
theorem mutations_are_authorized {policy : ServerPolicy P} (returns : MembershipReturns policy)
    {pool : ServerPool P} (reached : Reachable (serverService P) policy Booted pool) :
    ∀ mutation ∈ pool.state.mutations, mutation.sessionActive = true ∧
      ∃ role, mutation.role = some role ∧ roleRank .editor ≤ roleRank role := by
  have keeps : Keeps (serverAuthority P True) (serverService P) policy Booted :=
    serverService_keeps_authority fun _ => returns
  obtain ⟨pending, inv, _⟩ :=
    reached.verified (authorityProtocol_lawful.over authorityView) keeps fun _ => trivial
  exact inv.authorized trivial

/-- No commit of a membership operation raises although it took effect, and no
refresh raises. -/
def permitsReturns (_ : ServerRequest editLog) (_ : ServerState editLog) (call : Call)
    (event : Event editLog) : Bool :=
  match call, event with
  | .databaseCommit, .raisedAfter => false
  | .databaseRefresh, .done => true
  | .databaseRefresh, _ => false
  | _, _ => true

/-- User 1 edits over a connection, and makes user 2 a viewer. -/
def demotionRun : Schedule :=
  joinFirst 0 .done ++ sendUpdate 0 {2} ++ .spawn 1 (.updateMemberRole (some 1) 2 .viewer) ::
    [.done, .done, .done, .done, .done, .done].map (.resume 1)

theorem mutations_are_authorized_run :
    ∃ pool, (serverService editLog).play permitsReturns demotionRun (Pool.start sampleServer) =
        some pool ∧ pool.state.database.members 2 = some .viewer ∧
      pool.state.mutations.length = 1 ∧
      ∀ mutation ∈ pool.state.mutations, mutation.sessionActive = true ∧
        ∃ role, mutation.role = some role ∧ roleRank .editor ≤ roleRank role := by
  have ended : ((serverService editLog).play permitsReturns demotionRun
      (Pool.start sampleServer)).map (fun pool =>
        (pool.state.database.members 2, pool.state.mutations.length)) =
      some (some .viewer, 1) := by decide
  obtain ⟨pool, played, facts⟩ := Option.map_eq_some_iff.mp ended
  obtain ⟨demoted, edited⟩ := Prod.mk.inj facts
  have reached : Reachable (serverService editLog)
      (fun request server call event => permitsReturns request server call event = true)
      Booted pool :=
    Service.reachable_of_play (fun _ _ _ _ allowed => allowed) (.start booted_sampleServer) played
  refine ⟨pool, played, demoted, edited, mutations_are_authorized ?_ reached⟩
  intro request _
  constructor
  · intro server event allowed
    cases event with
    | raisedAfter => cases allowed
    | done | raised | received => nofun
  · intro server event allowed
    cases event with
    | done => rfl
    | raised | raisedAfter | received => cases allowed

end Concord.Server

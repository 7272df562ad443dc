import Concord.Server.System
import Concord.Server.ViewRules

/-!
Contract: one pass over the handlers, for any protocol of the core of the server.

Owns:
- the core: the rows, the document manager and the lock of the room;
- `CoreStep`, the steps of the handlers that change the core, apart from the guarded
  methods of the manager and the lock;
- `HandlerPass`, what a protocol proves of these steps, and from it that every
  handler keeps the protocol.

Everything else that a handler changes is outside the core, and a protocol of the
core cannot see it.

Does not own: a protocol.
-/

set_option autoImplicit false

namespace Concord.Server

open Asyncio Collaboration ServerState

variable {P : Platform} {α : Type}

/-- What a protocol of the core may depend on. -/
@[ext] structure Core (P : Platform) where
  database : Database P
  store : DocStore P
  roomLock : Option TaskId

def core (server : ServerState P) : Core P := ⟨server.database, server.store, server.roomLock⟩

/-- A synchronous method of the manager that the handlers call. -/
inductive SyncMethod (P : Platform) where
  | applyUpdate (update : P.Bytes)
  | restoreTextFromState (state : P.Bytes)
  | getStateVector
  | encodeStateAsUpdate (stateVector : Option P.Bytes)

def SyncMethod.run (store : DocStore P) : SyncMethod P → DocStore P
  | applyUpdate update => (store.applyUpdate update).2
  | restoreTextFromState state => (store.restoreTextFromState state).2
  | getStateVector => store.getStateVector.2
  | encodeStateAsUpdate stateVector => (store.encodeStateAsUpdate stateVector).2

/-- A state vector is read of the document that `get_or_create` finds. -/
theorem getStateVector_store (store : DocStore P) :
    store.getStateVector.2 = store.getOrCreate.2 := by
  unfold DocStore.getStateVector
  split
  · next answer => rw [answer]
  · next answer => rw [answer]

/-- A step of a handler that changes the core: a synchronous method of the manager, or
a commit of membership rows or of a snapshot within the limit. -/
inductive CoreStep : Core P → Core P → Prop
  | method (method : SyncMethod P) (core : Core P) :
      CoreStep core { core with store := method.run core.store }
  | membership (session : Option SessionRow) (members : UserId → Option RoleEnum)
      (commits : List TaskId) (savedAt : Option Nat) (core : Core P) :
      CoreStep core { core with
        database := { core.database with
          session := session, members := members, membershipCommits := commits }
        store := { core.store with saved := { core.store.saved with savedAt := savedAt } } }
  | snapshot (doc : P.Doc) (small : P.size (P.getUpdate doc) ≤ P.crdtMaxUpdateBytes)
      (core : Core P) :
      CoreStep core { core with database := { core.database with
        snapshots := Function.update core.database.snapshots core.database.nextSnapshot
          (some ⟨P.getUpdate doc, P.size (P.getUpdate doc)⟩)
        nextSnapshot := core.database.nextSnapshot + 1 } }

/-- A call that no lock of the process answers. -/
def Outside (call : Call) : Prop :=
  call ≠ .roomLock ∧ call ≠ .sessionGuard ∧ call ≠ .receive

instance (call : Call) : Decidable (Outside call) :=
  inferInstanceAs (Decidable (call ≠ .roomLock ∧ call ≠ .sessionGuard ∧ call ≠ .receive))

/-! ### What a protocol proves -/

section Pass

variable {Ghost V : Type} (logic : Logic Ghost V Call) (view : ServerState P → V)
  (allows : ServerState P → Call → Event P → Prop) (task : TaskId)

/-- A program that keeps a fact of the task. -/
abbrev KeepsFact (fact : Ghost → V → Prop) (program : ServerProgram P α) : Prop :=
  Preserves (logic.over view) allows task (logic.Knows view fact) program

/-- A fact of the task that the steps of the core keep. -/
structure FollowsCore (fact : Ghost → V → Prop) : Prop where
  standing : Standing logic Outside task fact
  step : ∀ {ghost : Ghost} {server after : ServerState P}, CoreStep (core server) (core after) →
    logic.Knows view fact ghost server → ∃ ghost',
      logic.guar task ghost (view server) ghost' (view after) ∧ logic.Knows view fact ghost' after
  load : KeepsFact logic view allows task fact (onManager (loadFromStorage task))
  checkpoint : KeepsFact logic view allows task fact (onManager (checkpointToRedis task))
  persist : KeepsFact logic view allows task fact (onManager (persistToDb task))
  remove : KeepsFact logic view allows task fact (onManager (checkpointAndRemove task))

/-- A protocol of the core, with a fact of a task outside the room lock and one under
it. -/
structure HandlerPass (outside held : Ghost → V → Prop) : Prop where
  through : ∀ {server after : ServerState P}, core after = core server → view after = view server
  waits : Standing logic (fun _ => True) task outside
  outsideLock : FollowsCore logic view allows task outside
  underLock : FollowsCore logic view allows task held
  locked : ∀ {β : Type} {body : ServerProgram P β},
    KeepsFact logic view allows task held body →
      KeepsFact logic view allows task outside (withRoomLock task body)

end Pass

namespace FollowsCore

variable {Ghost V : Type} {logic : Logic Ghost V Call} {view : ServerState P → V}
  {allows : ServerState P → Call → Event P → Prop} {task : TaskId} {fact : Ghost → V → Prop}
  (follows : FollowsCore logic view allows task fact)
  (through : ∀ {server after : ServerState P}, core after = core server → view after = view server)

include follows

/-- A synchronous step of the core. -/
theorem update {update : ServerState P → α × ServerState P}
    (steps : ∀ server, CoreStep (core server) (core (update server).2)) :
    KeepsFact logic view allows task fact (modifyGet update : ServerProgram P α) :=
  .modifyGet fun _ server knows => follows.step (steps server) knows

/-- A synchronous method of the manager that may raise. -/
theorem atomic {method : ServerState P → Except Exn α × ServerState P}
    (steps : ∀ server, CoreStep (core server) (core (method server).2)) :
    KeepsFact logic view allows task fact (Coroutine.atomic method : ServerProgram P α) :=
  .atomic fun _ server knows => follows.step (steps server) knows

/-- A commit whose effect is a step of the core. -/
theorem commit {effect : ServerState P → Option (ServerState P)}
    (steps : ∀ {server after}, effect server = some after → CoreStep (core server) (core after)) :
    KeepsFact logic view allows task fact (commit effect) := by
  refine .awaitCall (fun _ _ knows => ⟨knows.1, follows.standing.parked (by decide) knows.2⟩) ?_
  intro _ _ ghost₁ server₁ knows rely inv _ event result server₂ _ taken
  have now : logic.Knows view fact ghost₁ server₁ :=
    ⟨inv, follows.standing.stable rely inv knows.2⟩
  rcases commit_outcome taken with ⟨rfl, _⟩ | ⟨effected, _⟩
  · exact ⟨ghost₁, follows.standing.idle _ _, now⟩
  · exact follows.step (steps effected) now

theorem queries : Queries (logic.over view) allows task (logic.Knows view fact) :=
  query_standing follows.standing (by decide)

theorem refresh : KeepsFact logic view allows task fact (refresh (P := P)) :=
  operation_standing follows.standing (by decide) fun _ => rfl

theorem tryCheckpointAndRemove :
    KeepsFact logic view allows task fact (tryCheckpointAndRemove task) :=
  .tryExcept (.bind follows.remove fun _ => .pure _) fun _ => .pure _

theorem tryCheckpoint (hasConnections : Bool) :
    KeepsFact logic view allows task fact (tryCheckpoint task hasConnections) := by
  unfold Server.tryCheckpoint
  split
  · exact .tryExcept (.bind follows.checkpoint fun _ => .pure _) fun _ => .pure _
  · exact follows.tryCheckpointAndRemove

private theorem mutateApply (userId : UserId) (update : P.Bytes) :
    KeepsFact logic view allows task fact
      (Coroutine.atomic (mutate userId (DocStore.applyUpdate update))) :=
  follows.atomic fun server => .method (.applyUpdate update) (core server)

private theorem mutateRestore (userId : UserId) (state : P.Bytes) :
    KeepsFact logic view allows task fact
      (Coroutine.atomic (mutate userId (DocStore.restoreTextFromState state))) :=
  follows.atomic fun server => .method (.restoreTextFromState state) (core server)

theorem insertMember (userId : UserId) (role : RoleEnum) :
    KeepsFact logic view allows task fact (Server.commit (insertMember task userId role)) := by
  apply follows.commit
  intro server after effect
  unfold ServerState.insertMember at effect
  split at effect
  · cases effect
  · obtain rfl := Option.some.inj effect
    exact .membership _ _ _ server.store.saved.savedAt (core server)

theorem setRole (userId : UserId) (role : RoleEnum) :
    KeepsFact logic view allows task fact (Server.commit (setRole task userId role)) := by
  apply follows.commit
  intro server after effect
  unfold ServerState.setRole at effect
  split at effect
  · cases effect
  · obtain rfl := Option.some.inj effect
    exact .membership _ _ _ server.store.saved.savedAt (core server)

theorem deleteMember (userId : UserId) :
    KeepsFact logic view allows task fact (Server.commit (deleteMember task userId)) := by
  apply follows.commit
  intro server after effect
  obtain rfl := Option.some.inj effect
  exact .membership _ _ _ server.store.saved.savedAt (core server)

theorem deactivate :
    KeepsFact (P := P) logic view allows task fact (Server.commit (deactivate task)) := by
  apply follows.commit
  intro server after effect
  obtain rfl := Option.some.inj effect
  exact .membership _ _ _ _ (core server)

include through

theorem closes : Closes (logic.over view) allows task (logic.Knows view fact) :=
  close_standing follows.standing (by decide) fun _ _ _ _ => through rfl

theorem sends : Sends (logic.over view) allows task (logic.Knows view fact) :=
  send_standing follows.standing (fun _ _ => ⟨nofun, nofun, nofun⟩) (fun _ _ _ => through rfl)
    (fun _ _ => through rfl) fun _ _ _ => through rfl

/-- A synchronous step outside the core. -/
theorem silent {update : ServerState P → α × ServerState P}
    (same : ∀ server, core (update server).2 = core server) :
    KeepsFact logic view allows task fact (modifyGet update : ServerProgram P α) :=
  follows.standing.modifyGet fun server => through (same server)

omit through in
/-- A protocol that does not see the lock of the room. -/
theorem pass (waits : Standing logic (fun _ => True) task fact)
    (unlocked : ∀ {server after : ServerState P}, (core after).database = (core server).database →
      (core after).store = (core server).store → view after = view server) :
    HandlerPass logic view allows task fact fact where
  through same := unlocked (congrArg Core.database same) (congrArg Core.store same)
  waits := waits
  outsideLock := follows
  underLock := follows
  locked holds := by
    refine .bind (waits.awaitUntil trivial fun server value after taken => ?_) fun _ =>
      .tryFinally holds (waits.modify fun _ => unlocked rfl rfl)
    unfold acquireRoomLock at taken
    split at taken
    · cases taken
    · obtain ⟨_, rfl⟩ := Prod.mk.inj (Option.some.inj taken)
      exact unlocked rfl rfl

end FollowsCore

/-! ### The pass -/

/-- A document that has been captured is the encoding of one. -/
theorem encodeStateAsUpdate_none {store : DocStore P} {documentState : P.Bytes}
    (returned : (store.encodeStateAsUpdate none).1 = .ok documentState) :
    ∃ doc, documentState = P.getUpdate doc := by
  unfold DocStore.encodeStateAsUpdate at returned
  split at returned
  · cases returned
  · exact ⟨_, (Except.ok.inj returned).symm⟩

namespace HandlerPass

variable {Ghost V : Type} {logic : Logic Ghost V Call} {view : ServerState P → V}
  {allows : ServerState P → Call → Event P → Prop} {task : TaskId}
  {outside held : Ghost → V → Prop} (pass : HandlerPass logic view allows task outside held)

include pass

private theorem lifecycle {body : Bool → ServerProgram P α}
    (holds : ∀ hasConnections, KeepsFact logic view allows task held (body hasConnections)) :
    KeepsFact logic view allows task outside (documentRoomLifecycle task body) :=
  pass.locked (.bind .get fun _ => holds _)

theorem broadcast (frame : ServerFrame P) :
    KeepsFact logic view allows task outside (broadcastBinary task frame) :=
  broadcastBinary_preserves (pass.outsideLock.sends pass.through) _ _

theorem roleChecker (role : RoleEnum) (credentials : Option UserId) :
    KeepsFact logic view allows task outside (Server.roleChecker role credentials) :=
  roleChecker_preserves pass.outsideLock.queries _ _

theorem requireCurrentEditor (userId : UserId) :
    KeepsFact logic view allows task held (Server.requireCurrentEditor userId) :=
  requireCurrentEditor_preserves pass.underLock.queries _

/-! ### Documents -/

theorem saveUnderLock (userId : UserId) (documentState : P.Bytes) (hasConnections : Bool) :
    KeepsFact logic view allows task held
      (saveUnderLock task userId documentState hasConnections) := by
  unfold Server.saveUnderLock
  refine .bind (pass.requireCurrentEditor _) fun _ => .bind pass.underLock.load fun _ => ?_
  refine .bind (.tryExcept (pass.underLock.mutateApply _ _) fun _ => .throw _) fun _ => ?_
  exact .bind pass.underLock.persist fun _ => .bind (pass.underLock.tryCheckpoint _) fun _ => .pure _

theorem saveSessionDocument (credentials : Option UserId) (documentState : P.Bytes) :
    KeepsFact logic view allows task outside
      (saveSessionDocument credentials documentState task) := by
  unfold Server.saveSessionDocument
  refine .bind (pass.roleChecker _ _) fun user => ?_
  split
  · exact .throw _
  · refine .bind (checkSize_preserves _ _) fun _ => ?_
    refine .bind (pass.lifecycle fun _ => pass.saveUnderLock _ _ _) fun result => ?_
    exact .bind (pass.broadcast _) fun _ => pass.broadcast _

/-- What is left of a snapshot once the document has been encoded. -/
theorem storeSnapshot (doc : P.Doc) (hasConnections : Bool) :
    KeepsFact logic view allows task held (do
      checkSize (P.size (P.getUpdate doc)) "Document state exceeds the configured size limit"
      commit (insertSnapshot (P.getUpdate doc))
      refresh
      if hasConnections then pure () else tryCheckpointAndRemove task) := by
  unfold checkSize
  split
  · exact .throw _
  · next within =>
      refine .bind (.pure _) fun _ => .bind (pass.underLock.commit ?_) fun _ =>
        .bind pass.underLock.refresh fun _ => ?_
      · intro server after effect
        obtain rfl := Option.some.inj effect
        exact .snapshot doc (Nat.le_of_not_lt within) (core server)
      · split
        · exact .pure _
        · exact pass.underLock.tryCheckpointAndRemove

theorem createSnapshotEndpoint (credentials : Option UserId) :
    KeepsFact (P := P) logic view allows task outside
      (createSnapshotEndpoint credentials task) := by
  unfold Server.createSnapshotEndpoint
  refine .bind (pass.roleChecker _ _) fun user => pass.lifecycle fun _ => ?_
  refine .bind (pass.requireCurrentEditor _) fun _ => .bind pass.underLock.load fun _ => ?_
  intro ghost server knows
  rw [wp_bind]
  have encoded : CoreStep (core server)
      (core (server.onStore (DocStore.encodeStateAsUpdate none)).2) :=
    .method (.encodeStateAsUpdate none) (core server)
  obtain ⟨ghost', guar, after⟩ := pass.underLock.step encoded knows
  refine wp_atomic ghost' guar ?_
  cases returned : (server.onStore (DocStore.encodeStateAsUpdate none)).1 with
  | error exn => exact after
  | ok documentState =>
      obtain ⟨doc, rfl⟩ := encodeStateAsUpdate_none returned
      exact pass.storeSnapshot doc _ ghost' _ after

theorem restoreSnapshotEndpoint (credentials : Option UserId) (snapshotId : Nat) :
    KeepsFact (P := P) logic view allows task outside
      (restoreSnapshotEndpoint credentials snapshotId task) := by
  unfold Server.restoreSnapshotEndpoint
  refine .bind (pass.roleChecker _ _) fun user => ?_
  refine .bind (pass.lifecycle fun _ => ?_) fun update => ?_
  · unfold restoreUnderLock
    refine .bind (pass.requireCurrentEditor _) fun _ => ?_
    refine .bind (pass.underLock.queries _ _) fun answer => ?_
    split
    · exact .throw _
    · refine .bind (checkSize_preserves _ _) fun _ => .bind pass.underLock.load fun _ => ?_
      refine .bind (.tryExcept (pass.underLock.mutateRestore _ _) fun _ => .throw _) fun update => ?_
      exact .bind (pass.underLock.tryCheckpoint _) fun _ => .pure _
  · split
    · exact .pure _
    · exact pass.broadcast _

theorem runDocument (credentials : Option UserId) :
    KeepsFact (P := P) logic view allows task outside (runDocument credentials task) := by
  unfold Server.runDocument
  refine .bind (pass.roleChecker _ _) fun user => pass.lifecycle fun _ => ?_
  refine .bind (pass.requireCurrentEditor _) fun _ => ?_
  refine .bind (getSession_preserves pass.underLock.queries _) fun answer => ?_
  split
  · exact .throw _
  · refine .bind pass.underLock.load fun _ => .bind .get fun server => ?_
    dsimp only
    split
    · exact .pure _
    · exact .bind pass.underLock.tryCheckpointAndRemove fun _ => .pure _

theorem maintainDocumentCheckpoint :
    KeepsFact (P := P) logic view allows task outside (maintainDocumentCheckpoint task) := by
  unfold Server.maintainDocumentCheckpoint
  refine .bind (pass.locked (.bind .get fun server => ?_)) fun active => ?_
  · split
    · exact .bind pass.underLock.remove fun _ => .pure _
    · exact .pure _
  · split
    · exact .bind pass.outsideLock.checkpoint fun _ => .pure _
    · exact .pure _

/-! ### Memberships -/

theorem fenceMember (userId : UserId) (code : Nat) (reason : String) :
    KeepsFact (P := P) logic view allows task held
      (invalidateMemberConnections userId code reason) :=
  invalidateMemberConnections_preserves (pass.underLock.closes pass.through) _ _ _
    (pass.underLock.silent pass.through fun _ => rfl)

theorem addMemberEndpoint (credentials : Option UserId) (key : MemberKey) (role : RoleEnum) :
    KeepsFact (P := P) logic view allows task outside
      (addMemberEndpoint credentials key role task) := by
  refine .bind (pass.roleChecker _ _) fun owner => ?_
  refine .bind (resolveMemberUserId_preserves pass.outsideLock.queries _) fun userId => ?_
  exact translateErrors_preserves (addMember_preserves pass.outsideLock.queries _ _ _
    (pass.outsideLock.insertMember _ _) pass.outsideLock.refresh)

theorem updateMemberRoleEndpoint (credentials : Option UserId) (userId : UserId)
    (role : RoleEnum) :
    KeepsFact (P := P) logic view allows task outside
      (updateMemberRoleEndpoint credentials userId role task) := by
  refine .bind (pass.roleChecker _ _) fun owner => pass.lifecycle fun _ => ?_
  refine .bind (translateErrors_preserves (updateMemberRole_attempts pass.underLock.queries _ _ _
    (fun _ _ => id) (pass.underLock.setRole _ _).attempts
    pass.underLock.refresh.attempts).preserves) fun _ => ?_
  exact pass.fenceMember _ _ _

theorem removeMemberEndpoint (credentials : Option UserId) (userId : UserId) :
    KeepsFact (P := P) logic view allows task outside
      (removeMemberEndpoint credentials userId task) := by
  refine .bind (pass.roleChecker _ _) fun owner => pass.lifecycle fun _ => ?_
  refine .bind (translateErrors_preserves (removeMember_attempts pass.underLock.queries _ _
    (pass.underLock.deleteMember _).attempts).preserves) fun _ => ?_
  exact pass.fenceMember _ _ _

theorem closeSessionEndpoint (credentials : Option UserId) :
    KeepsFact (P := P) logic view allows task outside
      (closeSessionEndpoint credentials task) := by
  refine .bind (pass.roleChecker _ _) fun owner => pass.lifecycle fun _ => ?_
  refine .bind (translateErrors_preserves (closeSession_attempts pass.underLock.queries _
    pass.underLock.deactivate.attempts pass.underLock.refresh.attempts).preserves) fun _ => ?_
  exact closeSessionConnections_preserves (pass.underLock.closes pass.through)
    (pass.underLock.silent pass.through fun _ => rfl)

/-! ### Connections -/

theorem closeIfInvalidated (userId : UserId) (websocket : WebSocket) :
    KeepsFact (P := P) logic view allows task outside (closeIfInvalidated userId websocket) :=
  closeIfInvalidated_preserves (pass.outsideLock.closes pass.through) _ _ fun _ =>
    pass.outsideLock.silent pass.through fun _ => rfl

theorem applyIfAuthorized (websocket : WebSocket) (userId : UserId) (role : RoleEnum)
    (payload : P.Bytes) :
    KeepsFact logic view allows task held
      (modifyGet (applyIfAuthorized websocket userId role payload) :
        ServerProgram P ApplyOutcome) := by
  apply Preserves.modifyGet
  intro ghost server knows
  rcases applyIfAuthorized_state websocket userId role payload server with
    ⟨failure, state⟩ | state | ⟨_, _, state⟩ <;> rw [state]
  · exact pass.underLock.standing.unchanged (pass.through rfl) knows
  · exact pass.underLock.standing.unchanged rfl knows
  · exact pass.underLock.step (.method (.applyUpdate payload) (core server)) knows

theorem receiveLoop (user : AuthenticatedUser) (messages : Nat) :
    KeepsFact (P := P) logic view allows task outside (receiveLoop task user messages) := by
  have sends := pass.outsideLock.sends pass.through
  refine receiveLoop_preserves ?_ (silent_receive pass.waits) (pass.closeIfInvalidated _ _)
    (.bind (pass.outsideLock.silent pass.through fun _ => rfl) fun _ =>
      broadcastAwareness_preserves sends _ _) (fun message => ?_) messages
  · apply pass.waits.awaitUntil trivial
    intro server value after never
    cases never
  · refine handleBinaryMessage_preserves sends (fun subtype payload => ?_)
      (fun entries => pass.outsideLock.silent pass.through fun _ => rfl) message
    refine handleSyncMessage_preserves (pass.outsideLock.closes pass.through) sends ?_
      (pass.locked (pass.applyIfAuthorized _ _ _ _)) subtype
    exact pass.outsideLock.atomic fun server => .method (.encodeStateAsUpdate (some payload)) (core server)

theorem joinRoom (connection : ConnectionInfo) (own : connection.websocket = task) :
    KeepsFact (P := P) logic view allows task outside (joinRoom connection) := by
  subst own
  refine pass.locked (.bind (pass.underLock.silent pass.through fun _ => rfl) fun _ =>
    .bind .get fun server => ?_)
  split
  · exact .bind pass.underLock.load fun _ => pass.underLock.silent pass.through fun _ => rfl
  · exact pass.underLock.silent pass.through fun _ => rfl

theorem leaveRoom : KeepsFact (P := P) logic view allows task outside (leaveRoom task) := by
  unfold Server.leaveRoom
  refine .bind (pass.locked ?_) fun removed =>
    broadcastAwareness_preserves (pass.outsideLock.sends pass.through) _ _
  refine .bind (pass.underLock.silent pass.through fun _ => rfl) fun _ => .bind .get fun server => ?_
  split
  · exact .pure _
  · refine .bind (pass.underLock.silent pass.through fun _ => rfl) fun answer => ?_
    split
    split
    · exact .bind (.tryExcept (.bind pass.underLock.remove fun _ => .pure _) fun _ => .pure _)
        fun _ => .bind (pass.underLock.silent pass.through fun _ => rfl) fun _ => .pure _
    · exact .pure _

theorem serveConnection (user : AuthenticatedUser) (messages : Nat) :
    KeepsFact (P := P) logic view allows task outside (serveConnection task user messages) := by
  unfold Server.serveConnection
  refine .bind (pass.closeIfInvalidated _ _) fun closed => ?_
  split
  · exact .pure _
  · refine .bind (pass.joinRoom _ rfl) fun _ =>
      .bind (pass.outsideLock.silent pass.through fun _ => rfl) fun _ => ?_
    refine .bind (pass.closeIfInvalidated _ _) fun closed => ?_
    split
    · exact .pure _
    · refine .bind (greet_preserves (pass.outsideLock.sends pass.through) ?_) fun _ =>
        pass.receiveLoop _ _
      exact pass.outsideLock.atomic fun server => .method .getStateVector (core server)

theorem websocketEndpoint (handshake : Handshake) (messages : Nat) :
    KeepsFact (P := P) logic view allows task outside
      (websocketEndpoint handshake messages task) := by
  have accepted : KeepsFact (P := P) logic view allows task outside accept :=
    operation_standing pass.outsideLock.standing (by decide) fun _ => rfl
  have closes := pass.outsideLock.closes pass.through
  refine .bind (.tryExcept (.bind (authenticateWs_preserves pass.outsideLock.queries _)
    fun _ => .pure _) fun exn => ?_) fun authenticated => ?_
  · split
    · exact .pure _
    · exact .throw _
  · cases authenticated with
    | error failure => exact .bind accepted fun _ => closes _ _ _
    | ok user =>
        refine .bind accepted fun _ =>
          .bind (pass.outsideLock.silent pass.through fun _ => rfl) fun _ => ?_
        refine .tryFinally (.tryExcept (pass.serveConnection _ _) fun _ =>
          closeConnection_preserves closes _ _ _) (.bind .get fun server => ?_)
        split
        · exact pass.leaveRoom
        · exact pass.outsideLock.silent pass.through fun _ => rfl

/-- **Every handler keeps the protocol.** -/
theorem handler (request : ServerRequest P) :
    KeepsFact logic view allows task outside (request.handler task) := by
  cases request with
  | websocket handshake messages => exact pass.websocketEndpoint _ _
  | save credentials documentState => exact pass.saveSessionDocument _ _
  | createSnapshot credentials => exact pass.createSnapshotEndpoint _
  | restoreSnapshot credentials snapshotId => exact pass.restoreSnapshotEndpoint _ _
  | run credentials => exact .bind (pass.runDocument _) fun _ => .pure _
  | maintain => exact pass.maintainDocumentCheckpoint
  | shutdown =>
      exact .tryExcept (.bind pass.outsideLock.checkpoint fun _ => .pure _) fun _ => .pure _
  | addMember credentials key role => exact pass.addMemberEndpoint _ _ _
  | updateMemberRole credentials userId role => exact pass.updateMemberRoleEndpoint _ _ _
  | removeMember credentials userId => exact pass.removeMemberEndpoint _ _
  | closeSession credentials => exact pass.closeSessionEndpoint _
  | relay event => exact pass.broadcast _

end HandlerPass

end Concord.Server

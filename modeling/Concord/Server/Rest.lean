import Concord.Server.Durability
import Concord.Server.LockOrder

/-!
Contract: the server cannot hang, and comes to rest.

Owns:
- `IsReady`, when an awaited call of a handler can be answered;
- that every suspension of every handler is answered where it is ready;
- no deadlock: while some task waits for a lock, the chain of the tasks that hold the
  locks ends at a call outside the process;
- the server comes to rest: without new requests and messages, every sequence of
  answers is finite and ends where every task has ended or waits for its client.

The locks are taken in one order, room before guard, which is the whole argument.

Does not own: how long an outside call takes.
-/

set_option autoImplicit false

namespace Concord.Server

open Asyncio Collaboration ServerState Locks

variable {P : Platform} {α : Type} {task : TaskId} {calls : Call → Prop}

/-! ### Suspensions that can be answered -/

/-- When an awaited call can be answered now. A message is up to the client. -/
def IsReady : Call → ServerState P → Prop
  | .roomLock, server => server.roomLock = none
  | .sessionGuard, server => ∀ id, (server.store.registry.guard id).owner = none
  | .receive, _ => False
  | _, _ => True

private theorem isReady_of_outside {call : Call} (outside : Outside call) (server : ServerState P) :
    IsReady call server := by
  obtain ⟨notRoom, notGuard, notMessage⟩ := outside
  cases call <;> trivial

/-- The program waits at some calls, each of which is answered where it is ready. -/
abbrev IsAnswered (calls : Call → Prop) (program : ServerProgram P α) : Prop :=
  program.Obeys (answerable calls IsReady)

private theorem operation_answered {call : Call} (waits : calls call)
    (effect : ServerState P → ServerState P) : IsAnswered calls (operation call effect) :=
  .awaitCall ⟨waits, fun _ _ => ⟨.done, rfl⟩⟩

private theorem modifyGet_answered (update : ServerState P → α × ServerState P) :
    IsAnswered calls (modifyGet update : ServerProgram P α) := .modifyGet trivial

private theorem atomic_answered (method : ServerState P → Except Exn α × ServerState P) :
    IsAnswered calls (Coroutine.atomic method : ServerProgram P α) := .atomic trivial

private theorem checkSize_answered (size : Nat) (detail : String) :
    IsAnswered (P := P) calls (checkSize size detail) := by
  unfold checkSize
  split
  · exact .throw _
  · exact .pure _

section Handlers

variable (working : ∀ {call}, Working call → calls call)

include working

private theorem query_answered (value : ServerState P → α) : IsAnswered calls (query value) :=
  .awaitCall ⟨working (by decide), fun _ _ => ⟨.done, rfl⟩⟩

private theorem commit_answered (effect : ServerState P → Option (ServerState P)) :
    IsAnswered calls (commit effect) := by
  refine .awaitCall ⟨working (by decide), fun server _ => ⟨.done, ?_⟩⟩
  dsimp only
  cases effect server <;> rfl

private theorem close_answered (websocket : WebSocket) (code : Nat) (reason : String) :
    IsAnswered (P := P) calls (close websocket code reason) :=
  operation_answered (working (by decide)) _

private theorem closeConnection_answered (websocket : WebSocket) (code : Nat) (reason : String) :
    IsAnswered (P := P) calls (closeConnection websocket code reason) :=
  .tryExcept (close_answered working _ _ _) fun _ => .pure _

private theorem sendBytes_answered (sender : TaskId) (websocket : WebSocket)
    (frame : ServerFrame P) :
    IsAnswered calls (sendBytes sender websocket frame) := by
  have waits : calls (.sendBytes sender websocket) := working nofun
  exact .bind (modifyGet_answered _) fun _ => operation_answered waits _

private theorem withRoomLock_answered {body : ServerProgram P α}
    (answered : IsAnswered calls body) :
    IsAnswered calls (withRoomLock task body) := by
  refine .bind (.awaitUntil ⟨working (by decide), fun server free => ⟨.done, ?_⟩⟩) fun _ =>
    .tryFinally answered (modifyGet_answered _)
  have free : server.roomLock = none := free
  simp only [acquireRoomLock, free, Option.isSome_some]

private theorem serialized_answered {body : Program P α} (obeys : body.Obeys (storageWork P)) :
    IsAnswered calls (onManager (serialized task body)) := by
  unfold onManager serialized
  rw [Coroutine.focus_bind]
  refine .bind (modifyGet_answered _) fun id => ?_
  rw [Coroutine.focus_tryFinally, Coroutine.focus_bind]
  refine .tryFinally (.bind (.awaitUntil ⟨working (by decide), fun server free => ?_⟩) fun _ => ?_)
    (modifyGet_answered _)
  · refine ⟨.done, ?_⟩
    have free : (server.store.registry.guard id).owner = none := free id
    simp only [DocStore.acquireGuard, free, Option.map_some, Option.isSome_some]
  · rw [Coroutine.focus_tryFinally]
    refine .tryFinally (obeys.focus (fun _ _ => trivial) fun call act waits => ?_)
      (modifyGet_answered _)
    obtain ⟨⟨outside, _⟩, answers⟩ := waits
    refine ⟨working outside.2.2, fun server _ => ?_⟩
    obtain ⟨event, answered⟩ := answers server.store
    exact ⟨event, by rw [Option.isSome_map]; exact answered⟩

private theorem loadFromStorage_answered :
    IsAnswered (P := P) calls (onManager (loadFromStorage task)) :=
  serialized_answered working loadFromStorageLocked_storage

private theorem checkpointToRedis_answered :
    IsAnswered (P := P) calls (onManager (checkpointToRedis task)) :=
  serialized_answered working checkpointToRedisLocked_storage

private theorem persistToDb_answered : IsAnswered (P := P) calls (onManager (persistToDb task)) :=
  serialized_answered working persistToDbLocked_storage

private theorem checkpointAndRemove_answered :
    IsAnswered (P := P) calls (onManager (checkpointAndRemove task)) :=
  serialized_answered working checkpointAndRemoveLocked_storage

/-! ### Authorization -/

private theorem getSession_answered (rows : IdentityMap) :
    IsAnswered (P := P) calls (getSession rows) := by
  unfold getSession
  split
  · exact .pure _
  · exact query_answered working _

private theorem getCurrentUser_answered (credentials : Option UserId) :
    IsAnswered (P := P) calls (getCurrentUser credentials) := by
  unfold getCurrentUser
  split
  · exact .throw _
  · refine .bind (query_answered working _) fun answer => ?_
    split
    · exact .throw _
    · exact .pure _

private theorem roleChecker_answered (minRole : RoleEnum) (credentials : Option UserId) :
    IsAnswered (P := P) calls (roleChecker minRole credentials) := by
  unfold roleChecker
  refine .bind (getCurrentUser_answered working _) fun user => ?_
  refine .bind (getSession_answered working _) fun answer => ?_
  split
  · exact .throw _
  · split
    · exact .throw _
    · refine .bind (query_answered working _) fun answer => ?_
      split
      split
      · exact .pure _
      · exact .throw _

private theorem requireCurrentEditor_answered (userId : UserId) :
    IsAnswered (P := P) calls (requireCurrentEditor userId) := by
  unfold requireCurrentEditor
  refine .bind (query_answered working _) fun answer => ?_
  split
  · exact .pure _
  · exact .throw _

private theorem authenticateWs_answered (handshake : Handshake) :
    IsAnswered (P := P) calls (authenticateWs handshake) := by
  unfold authenticateWs
  split
  · exact .throw _
  · exact .throw _
  · exact .throw _
  · exact .throw _
  · refine .bind .get fun server => .bind (query_answered working _) fun answer => ?_
    split
    · exact .throw _
    · refine .bind (getSession_answered working _) fun answer => ?_
      split
      · exact .throw _
      · split
        · exact .throw _
        · refine .bind (query_answered working _) fun answer => ?_
          split
          · exact .throw _
          · exact .pure _

private theorem getActiveSession_answered (rows : IdentityMap) :
    IsAnswered (P := P) calls (getActiveSession rows) := by
  unfold getActiveSession
  refine .bind (getSession_answered working _) fun answer => ?_
  split
  · exact .throw _
  · split
    · exact .throw _
    · exact .pure _

/-! ### Memberships -/

private theorem refresh_answered : IsAnswered (P := P) calls refresh :=
  operation_answered (working (by decide)) _

private theorem addMember_answered (rows : IdentityMap) (userId : UserId) (role : RoleEnum) :
    IsAnswered (P := P) calls (addMember task rows userId role) := by
  unfold addMember
  refine .bind (getActiveSession_answered working _) fun answer => ?_
  split
  split
  · exact .throw _
  · split
    · exact .throw _
    · refine .bind (query_answered working _) fun answer => ?_
      split
      · exact .throw _
      · refine .bind (query_answered working _) fun answer => ?_
        split
        · exact .throw _
        · exact .bind (commit_answered working _) fun _ => refresh_answered working

private theorem updateMemberRole_answered (rows : IdentityMap) (userId : UserId)
    (newRole : RoleEnum) :
    IsAnswered (P := P) calls (updateMemberRole task rows userId newRole) := by
  unfold updateMemberRole
  refine .bind (getActiveSession_answered working _) fun answer => ?_
  split
  split
  · exact .throw _
  · split
    · exact .throw _
    · refine .bind (query_answered working _) fun answer => ?_
      split
      · exact .throw _
      · split
        · exact .pure _
        · exact .bind (commit_answered working _) fun _ => refresh_answered working

private theorem removeMember_answered (rows : IdentityMap) (userId : UserId) :
    IsAnswered (P := P) calls (removeMember task rows userId) := by
  unfold removeMember
  refine .bind (getActiveSession_answered working _) fun answer => ?_
  split
  split
  · exact .throw _
  · refine .bind (query_answered working _) fun answer => ?_
    split
    · exact .throw _
    · exact .bind (query_answered working _) fun _ => commit_answered working _

private theorem closeConnections_answered (code : Nat) (reason : String)
    (websockets : List WebSocket) :
    IsAnswered (P := P) calls (closeConnections code reason websockets) := by
  induction websockets with
  | nil => exact .pure _
  | cons websocket rest inductionHypothesis =>
      exact .bind (closeConnection_answered working _ _ _) fun _ => inductionHypothesis

private theorem fenceMember_answered (userId : UserId) (code : Nat) (reason : String) :
    IsAnswered (P := P) calls (invalidateMemberConnections userId code reason) :=
  .bind (modifyGet_answered _) fun _ => closeConnections_answered working _ _ _

/-! ### Frames -/

private theorem broadcastTo_answered (frame : ServerFrame P) (connections : List ConnectionInfo) :
    IsAnswered calls (broadcastTo task frame connections) := by
  induction connections with
  | nil => exact modifyGet_answered _
  | cons connection rest inductionHypothesis =>
      refine .bind (modifyGet_answered _) fun _ => .bind .get fun server => ?_
      split
      · exact inductionHypothesis
      · exact .bind (.tryExcept (sendBytes_answered working _ _ _) fun _ => .pure _)
          fun _ => inductionHypothesis

private theorem broadcastBinary_answered (frame : ServerFrame P) :
    IsAnswered calls (broadcastBinary task frame) :=
  .bind .get fun _ => broadcastTo_answered working _ _

private theorem broadcastAwareness_answered (entries : List (AwarenessEntry P)) :
    IsAnswered calls (broadcastAwareness task entries) := by
  unfold broadcastAwareness
  split
  · exact .pure _
  · exact broadcastBinary_answered working _

private theorem closeIfInvalidated_answered (userId : UserId) (websocket : WebSocket) :
    IsAnswered (P := P) calls (closeIfInvalidated userId websocket) := by
  unfold closeIfInvalidated
  refine .bind .get fun server => ?_
  split
  · exact .pure _
  · exact .bind (modifyGet_answered _) fun _ =>
      .bind (closeConnection_answered working _ _ _) fun _ => .pure _

private theorem handleSyncMessage_answered (websocket : WebSocket) (user : AuthenticatedUser)
    (subtype : SyncSubtype) (payload : P.Bytes) :
    IsAnswered calls (handleSyncMessage websocket user subtype payload) := by
  cases subtype with
  | step1 =>
      refine .bind (.tryExcept (.bind (atomic_answered _) fun _ => .pure _) fun _ => .pure _)
        fun update => ?_
      cases update with
      | none => exact .pure _
      | some update => exact sendBytes_answered working _ _ _
  | _ =>
      refine .bind (withRoomLock_answered working (modifyGet_answered _)) fun outcome => ?_
      cases outcome with
      | failed failure closeRequired =>
          cases closeRequired with
          | true => exact closeConnection_answered working _ _ _
          | false => exact .pure _
      | denied => exact sendBytes_answered working _ _ _
      | rejected => exact .pure _
      | applied => exact broadcastBinary_answered working _

private theorem handleBinaryMessage_answered (websocket : WebSocket) (user : AuthenticatedUser)
    (message : Option (ParsedMessage P)) :
    IsAnswered calls (handleBinaryMessage websocket user message) := by
  unfold handleBinaryMessage
  refine .bind .get fun server => ?_
  split
  · exact .pure _
  · split
    · exact .pure _
    · exact handleSyncMessage_answered working _ _ _ _
    · exact .bind (modifyGet_answered _) fun accepted => broadcastAwareness_answered working _
    · exact .bind .get fun _ => sendBytes_answered working _ _ _
    · exact .pure _

/-! ### Documents -/

private theorem lifecycle_answered {body : Bool → ServerProgram P α}
    (answered : ∀ hasConnections, IsAnswered calls (body hasConnections)) :
    IsAnswered calls (documentRoomLifecycle task body) :=
  withRoomLock_answered working (.bind .get fun _ => answered _)

private theorem tryCheckpointAndRemove_answered :
    IsAnswered (P := P) calls (tryCheckpointAndRemove task) :=
  .tryExcept (.bind (checkpointAndRemove_answered working) fun _ => .pure _) fun _ => .pure _

private theorem tryCheckpoint_answered (hasConnections : Bool) :
    IsAnswered (P := P) calls (tryCheckpoint task hasConnections) := by
  unfold tryCheckpoint
  split
  · exact .tryExcept (.bind (checkpointToRedis_answered working) fun _ => .pure _) fun _ => .pure _
  · exact tryCheckpointAndRemove_answered working

private theorem saveSessionDocument_answered (credentials : Option UserId)
    (documentState : P.Bytes) :
    IsAnswered calls (saveSessionDocument credentials documentState task) := by
  unfold saveSessionDocument
  refine .bind (roleChecker_answered working _ _) fun user => ?_
  split
  · exact .throw _
  · refine .bind (checkSize_answered _ _) fun _ =>
      .bind (lifecycle_answered working fun hasConnections => ?_) fun result => ?_
    · refine .bind (requireCurrentEditor_answered working _) fun _ => ?_
      refine .bind (loadFromStorage_answered working) fun _ => ?_
      refine .bind (.tryExcept (atomic_answered _) fun _ => .throw _) fun _ => ?_
      exact .bind (persistToDb_answered working) fun _ =>
        .bind (tryCheckpoint_answered working _) fun _ => .pure _
    · exact .bind (broadcastBinary_answered working _) fun _ => broadcastBinary_answered working _

private theorem createSnapshotEndpoint_answered (credentials : Option UserId) :
    IsAnswered (P := P) calls (createSnapshotEndpoint credentials task) := by
  unfold createSnapshotEndpoint
  refine .bind (roleChecker_answered working _ _) fun user => lifecycle_answered working fun _ => ?_
  refine .bind (requireCurrentEditor_answered working _) fun _ => ?_
  refine .bind (loadFromStorage_answered working) fun _ => .bind (atomic_answered _) fun _ => ?_
  refine .bind (checkSize_answered _ _) fun _ => .bind (commit_answered working _) fun _ => ?_
  refine .bind (refresh_answered working) fun _ => ?_
  split
  · exact .pure _
  · exact tryCheckpointAndRemove_answered working

private theorem restoreSnapshotEndpoint_answered (credentials : Option UserId) (snapshotId : Nat) :
    IsAnswered (P := P) calls (restoreSnapshotEndpoint credentials snapshotId task) := by
  unfold restoreSnapshotEndpoint
  refine .bind (roleChecker_answered working _ _) fun user =>
    .bind (lifecycle_answered working fun _ => ?_) fun update => ?_
  · unfold restoreUnderLock
    refine .bind (requireCurrentEditor_answered working _) fun _ => ?_
    refine .bind (query_answered working _) fun answer => ?_
    split
    · exact .throw _
    · refine .bind (checkSize_answered _ _) fun _ => ?_
      refine .bind (loadFromStorage_answered working) fun _ => ?_
      refine .bind (.tryExcept (atomic_answered _) fun _ => .throw _) fun update => ?_
      exact .bind (tryCheckpoint_answered working _) fun _ => .pure _
  · split
    · exact .pure _
    · exact broadcastBinary_answered working _

private theorem runDocument_answered (credentials : Option UserId) :
    IsAnswered (P := P) calls (runDocument credentials task) := by
  unfold runDocument
  refine .bind (roleChecker_answered working _ _) fun user => lifecycle_answered working fun _ => ?_
  refine .bind (requireCurrentEditor_answered working _) fun _ => ?_
  refine .bind (getSession_answered working _) fun answer => ?_
  split
  · exact .throw _
  · refine .bind (loadFromStorage_answered working) fun _ => .bind .get fun server => ?_
    dsimp only
    split
    · exact .pure _
    · exact .bind (tryCheckpointAndRemove_answered working) fun _ => .pure _

private theorem maintainDocumentCheckpoint_answered :
    IsAnswered (P := P) calls (maintainDocumentCheckpoint task) := by
  unfold maintainDocumentCheckpoint
  refine .bind (withRoomLock_answered working (.bind .get fun server => ?_)) fun active => ?_
  · split
    · exact .bind (checkpointAndRemove_answered working) fun _ => .pure _
    · exact .pure _
  · split
    · exact .bind (checkpointToRedis_answered working) fun _ => .pure _
    · exact .pure _

/-! ### Connections -/

private theorem receiveLoop_answered (waits : calls .receive) (user : AuthenticatedUser)
    (messages : Nat) :
    IsAnswered (P := P) calls (receiveLoop task user messages) := by
  have pruned : IsAnswered (P := P) calls (pruneStaleAwareness task) :=
    .bind (modifyGet_answered _) fun _ => broadcastAwareness_answered working _
  induction messages with
  | zero => exact .awaitUntil ⟨waits, fun _ never => never.elim⟩
  | succ messages inductionHypothesis =>
      refine .bind (.awaitCall ⟨waits, fun _ never => never.elim⟩) fun message => ?_
      cases message with
      | disconnect => exact .pure _
      | bytes message =>
          refine .bind (closeIfInvalidated_answered working _ _) fun closed => ?_
          split
          · exact .pure _
          · exact .bind pruned fun _ => .bind (handleBinaryMessage_answered working _ _ _)
              fun _ => inductionHypothesis
      | text =>
          refine .bind (closeIfInvalidated_answered working _ _) fun closed => ?_
          split
          · exact .pure _
          · exact .bind pruned fun _ => inductionHypothesis

private theorem joinRoom_answered (connection : ConnectionInfo) :
    IsAnswered (P := P) calls (joinRoom connection) := by
  refine withRoomLock_answered working (.bind (modifyGet_answered _) fun _ => .bind .get
    fun server => ?_)
  split
  · exact .bind (loadFromStorage_answered working) fun _ => modifyGet_answered _
  · exact modifyGet_answered _

private theorem leaveRoom_answered : IsAnswered (P := P) calls (leaveRoom task) := by
  unfold leaveRoom
  refine .bind (withRoomLock_answered working ?_) fun removed => broadcastAwareness_answered working _
  refine .bind (modifyGet_answered _) fun _ => .bind .get fun server => ?_
  split
  · exact .pure _
  · refine .bind (modifyGet_answered _) fun answer => ?_
    split
    split
    · exact .bind (.tryExcept (.bind (checkpointAndRemove_answered working) fun _ => .pure _)
        fun _ => .pure _) fun _ => .bind (modifyGet_answered _) fun _ => .pure _
    · exact .pure _

private theorem greet_answered (user : AuthenticatedUser) :
    IsAnswered (P := P) calls (greet task user) := by
  have reported : IsAnswered (P := P) calls (sendCurrentDocumentStatus task) := by
    unfold sendCurrentDocumentStatus
    refine .bind .get fun server => ?_
    split
    · exact .pure _
    · exact sendBytes_answered working _ _ _
  have status : IsAnswered (P := P) calls (do
      modify (ServerState.note (.reported task))
      sendCurrentDocumentStatus task
      let active := AwarenessStates.activeEntries (← get).awareness
      modify (ServerState.note (.greeted task))
      if active.isEmpty then pure () else sendBytes task task (.awareness active)) := by
    refine .bind (modifyGet_answered _) fun _ => .bind reported fun _ => .bind .get fun server => ?_
    refine .bind (modifyGet_answered _) fun _ => ?_
    split
    · exact .pure _
    · exact sendBytes_answered working _ _ _
  unfold greet
  dsimp only
  split
  · exact .bind (atomic_answered _) fun _ => .bind (sendBytes_answered working _ _ _)
      fun _ => status
  · exact status

private theorem serveConnection_answered (waits : calls .receive) (user : AuthenticatedUser)
    (messages : Nat) : IsAnswered (P := P) calls (serveConnection task user messages) := by
  unfold serveConnection
  refine .bind (closeIfInvalidated_answered working _ _) fun closed => ?_
  split
  · exact .pure _
  · refine .bind (joinRoom_answered working _) fun _ => .bind (modifyGet_answered _) fun _ => ?_
    refine .bind (closeIfInvalidated_answered working _ _) fun closed => ?_
    split
    · exact .pure _
    · exact .bind (greet_answered working _) fun _ => receiveLoop_answered working waits _ _

private theorem websocketEndpoint_answered (waits : calls .receive) (handshake : Handshake)
    (messages : Nat) : IsAnswered (P := P) calls (websocketEndpoint handshake messages task) := by
  have accepted : IsAnswered (P := P) calls accept := operation_answered (working (by decide)) _
  refine .bind (.tryExcept (.bind (authenticateWs_answered working _) fun _ => .pure _)
    fun exn => ?_) fun authenticated => ?_
  · split
    · exact .pure _
    · exact .throw _
  · cases authenticated with
    | error failure => exact .bind accepted fun _ => close_answered working _ _ _
    | ok user =>
        refine .bind accepted fun _ => .bind (modifyGet_answered _) fun _ => ?_
        refine .tryFinally (.tryExcept (serveConnection_answered working waits _ _) fun _ =>
          closeConnection_answered working _ _ _) (.bind .get fun server => ?_)
        split
        · exact leaveRoom_answered working
        · exact modifyGet_answered _

end Handlers

def ServerRequest.IsConnection : ServerRequest P → Prop
  | websocket _ _ => True
  | _ => False

/-- What a request waits for: only a connection waits for messages. -/
def ServerRequest.Waits (request : ServerRequest P) (call : Call) : Prop :=
  request.IsConnection ∨ Working call

/-- Every suspension of every handler is answered where it is ready. -/
theorem handler_answered (request : ServerRequest P) (task : TaskId) :
    IsAnswered request.Waits (request.handler task) := by
  have working : ∀ {call}, Working call → request.Waits call := .inr
  cases request with
  | websocket handshake messages => exact websocketEndpoint_answered working (.inl trivial) _ _
  | save credentials documentState => exact saveSessionDocument_answered working _ _
  | createSnapshot credentials => exact createSnapshotEndpoint_answered working _
  | restoreSnapshot credentials snapshotId => exact restoreSnapshotEndpoint_answered working _ _
  | run credentials => exact .bind (runDocument_answered working _) fun _ => .pure _
  | maintain => exact maintainDocumentCheckpoint_answered working
  | shutdown =>
      exact .tryExcept (.bind (checkpointToRedis_answered working) fun _ => .pure _) fun _ => .pure _
  | addMember credentials key role =>
      refine .bind (roleChecker_answered working _ _) fun owner => .bind ?_ fun userId => ?_
      · unfold resolveMemberUserId
        split
        · exact .pure _
        · refine .bind (query_answered working _) fun answer => ?_
          split
          · exact .throw _
          · exact .pure _
      · exact .tryExcept (addMember_answered working _ _ _) fun _ => .throw _
  | updateMemberRole credentials userId role =>
      refine .bind (roleChecker_answered working _ _) fun owner =>
        lifecycle_answered working fun _ => ?_
      exact .bind (.tryExcept (updateMemberRole_answered working _ _ _) fun _ => .throw _)
        fun _ => fenceMember_answered working _ _ _
  | removeMember credentials userId =>
      refine .bind (roleChecker_answered working _ _) fun owner =>
        lifecycle_answered working fun _ => ?_
      exact .bind (.tryExcept (removeMember_answered working _ _) fun _ => .throw _)
        fun _ => fenceMember_answered working _ _ _
  | closeSession credentials =>
      refine .bind (roleChecker_answered working _ _) fun owner =>
        lifecycle_answered working fun _ => ?_
      refine .bind (.tryExcept (.bind (getActiveSession_answered working _) fun _ =>
        .bind (commit_answered working _) fun _ => refresh_answered working) fun _ => .throw _)
        fun _ => ?_
      exact .bind (modifyGet_answered _) fun _ => closeConnections_answered working _ _ _
  | relay event => exact broadcastBinary_answered working _

/-! ### No deadlock -/

section Runs

variable {pool : ServerPool P}

/-- An answer to an awaited call other than the wait for a message. -/
abbrev Answers : ServerPool P → ServerPool P → Prop := Answer anyEvent Working

/-- A task that holds a lock is suspended, at a call where it may hold it. -/
theorem holder_waits (reached : Reachable (serverService P) anyEvent Booted pool)
    (held : ¬Holds task false none (locks pool.state)) :
    ∃ request call, ∃ β : Type, ∃ act next,
      pool.tasks task = some (request, .await (β := β) call act next) ∧
        May task call (locks pool.state) := by
  have verified := locks_verified reached task
  cases running : pool.tasks task with
  | none =>
      simp only [TaskVerified, running] at verified
      exact absurd verified held
  | some started =>
      obtain ⟨request, program⟩ := started
      have parked := verified
      simp only [TaskVerified, running] at verified
      cases program with
      | ret value => exact absurd verified.2.2 held
      | raise exn => exact absurd verified.2.2 held
      | look next => exact verified.1.elim
      | sync update next => exact verified.1.elim
      | await call act next => exact ⟨request, call, _, act, next, rfl, parked.parked running⟩

/-- A suspension that is ready can be answered. -/
theorem answers_of_ready (reached : Reachable (serverService P) anyEvent Booted pool)
    {request : ServerRequest P} {call : Call} {β : Type}
    {act : Event P → ServerState P → Option (β × ServerState P)}
    {next : β → ServerProgram P Unit}
    (suspended : pool.tasks task = some (request, .await call act next)) (working : Working call)
    (ready : IsReady call pool.state) : ∃ after, Answers pool after :=
  exists_answer suspended (reached.obeys handler_answered suspended) ready working

/-- The holder of a guard waits for a call outside. -/
theorem answers_of_owner (reached : Reachable (serverService P) anyEvent Booted pool)
    {id : GuardId} (owned : (locks pool.state).owner id = some task) :
    ∃ after, Answers pool after := by
  have held : ¬Holds task false none (locks pool.state) := fun holds => holds.no_guard id owned
  obtain ⟨request, call, β, act, next, suspended, may⟩ := holder_waits reached held
  have outside : Outside call :=
    ⟨fun same => held (may.nothing (.inl same)), fun same => may.noGuard same id owned,
      fun same => held (may.nothing (.inr same))⟩
  exact answers_of_ready reached suspended outside.2.2 (isReady_of_outside outside _)

/-- Where the guards are free or not, a task at a guard leads to an answer. -/
theorem answers_of_guard (reached : Reachable (serverService P) anyEvent Booted pool)
    {request : ServerRequest P} {β : Type}
    {act : Event P → ServerState P → Option (β × ServerState P)}
    {next : β → ServerProgram P Unit}
    (suspended : pool.tasks task = some (request, .await .sessionGuard act next)) :
    ∃ after, Answers pool after := by
  by_cases free : IsReady .sessionGuard pool.state
  · exact answers_of_ready reached suspended (by decide) free
  · obtain ⟨id, owned⟩ := not_forall.mp free
    obtain ⟨holder, owned⟩ := Option.ne_none_iff_exists'.mp owned
    exact answers_of_owner reached owned

/-- The holder of the room waits for a guard or for a call outside. -/
theorem answers_of_room (reached : Reachable (serverService P) anyEvent Booted pool)
    (owned : pool.state.roomLock = some task) : ∃ after, Answers pool after := by
  have held : ¬Holds task false none (locks pool.state) := fun holds => holds.no_room owned
  obtain ⟨request, call, β, act, next, suspended, may⟩ := holder_waits reached held
  by_cases guarded : call = .sessionGuard
  · subst guarded
    exact answers_of_guard reached suspended
  · have outside : Outside call :=
      ⟨fun same => held (may.nothing (.inl same)), guarded,
        fun same => held (may.nothing (.inr same))⟩
    exact answers_of_ready reached suspended outside.2.2 (isReady_of_outside outside _)

/-- While a task waits for anything but a message, some task can be answered. -/
theorem no_deadlock (reached : Reachable (serverService P) anyEvent Booted pool)
    {request : ServerRequest P} {call : Call} {β : Type}
    {act : Event P → ServerState P → Option (β × ServerState P)}
    {next : β → ServerProgram P Unit}
    (suspended : pool.tasks task = some (request, .await call act next)) (working : Working call) :
    ∃ after, Answers pool after := by
  by_cases room : call = .roomLock
  · subst room
    cases owner : pool.state.roomLock with
    | none => exact answers_of_ready reached suspended working owner
    | some holder => exact answers_of_room reached owner
  · by_cases guarded : call = .sessionGuard
    · subst guarded
      exact answers_of_guard reached suspended
    · exact answers_of_ready reached suspended working
        (isReady_of_outside ⟨room, guarded, working⟩ _)

/-! ### Rest -/

/-- Nothing is under way in the process: every request has ended, the connections wait
for messages, and the locks are free. -/
structure AtRest (pool : ServerPool P) : Prop where
  waits : ∀ {task request call β} {act : Event P → ServerState P → Option (β × ServerState P)}
    {next : β → ServerProgram P Unit},
    pool.tasks task = some (request, .await call act next) →
      call = .receive ∧ request.IsConnection
  roomLock : pool.state.roomLock = none
  guards : ∀ id, (pool.state.store.registry.guard id).owner = none

private theorem atRest_of_unanswered (reached : Reachable (serverService P) anyEvent Booted pool)
    (unanswered : ∀ after, ¬Answers pool after) : AtRest pool where
  waits {task request call β act next} suspended := by
    have waits : call = .receive := by
      by_contra working
      obtain ⟨after, answer⟩ := no_deadlock reached suspended working
      exact unanswered after answer
    have answered : IsAnswered request.Waits (.await call act next : ServerProgram P Unit) :=
      reached.obeys handler_answered suspended
    exact ⟨waits, answered.1.1.resolve_right fun working => working waits⟩
  roomLock := by
    by_contra owned
    obtain ⟨holder, owned⟩ := Option.ne_none_iff_exists'.mp owned
    obtain ⟨after, answer⟩ := answers_of_room reached owned
    exact unanswered after answer
  guards id := by
    by_contra owned
    obtain ⟨holder, owned⟩ := Option.ne_none_iff_exists'.mp owned
    obtain ⟨after, answer⟩ := answers_of_owner reached owned
    exact unanswered after answer

/-- Every task takes the room before a guard: one that waits for the room holds nothing, and
one that waits for a guard holds no guard. -/
def TakesRoomFirst (pool : ServerPool P) : Prop :=
  ∀ {task request call β} {act : Event P → ServerState P → Option (β × ServerState P)}
    {next : β → ServerProgram P Unit},
    pool.tasks task = some (request, .await call act next) →
      (call = .roomLock → pool.state.roomLock ≠ some task) ∧
        (call = .roomLock ∨ call = .sessionGuard →
          ∀ id, (pool.state.store.registry.guard id).owner ≠ some task)

private theorem takesRoomFirst (reached : Reachable (serverService P) anyEvent Booted pool) :
    TakesRoomFirst pool := by
  intro task request call β act next suspended
  have may : May task call (locks pool.state) := (locks_verified reached task).parked suspended
  refine ⟨fun room => (may.nothing (.inl room)).no_room, ?_⟩
  rintro (room | guarded)
  · exact (may.nothing (.inl room)).no_guard
  · exact may.noGuard guarded

/-- **The server comes to rest.** From every pool of every run, the awaited calls can be
answered only finitely often without a new request or message, and where no answer is
left, every request has ended, the connections wait for messages, and the locks are
free. In every pool the tasks take the room before a guard. -/
theorem server_comes_to_rest (reached : Reachable (serverService P) anyEvent Booted pool) :
    (¬∃ run : Nat → ServerPool P, run 0 = pool ∧ ∀ n, Answers (run n) (run (n + 1))) ∧
      (∀ last, Relation.ReflTransGen Answers pool last → (∀ after, ¬Answers last after) →
        AtRest last) ∧
      TakesRoomFirst pool := by
  refine ⟨?_, fun last answers => atRest_of_unanswered (reached.answered answers),
    takesRoomFirst reached⟩
  rintro ⟨run, starts, steps⟩
  have ends : Acc (fun after before : ServerPool P => Answers before after) pool :=
    reached.answers_end
  exact (acc_iff_isEmpty_descending_chain.mp ends).false ⟨run, starts, steps⟩

end Runs

/-- User 1 saves, up to the check under the room lock, while the maintenance waits for
the room. -/
def crowdedRun : Schedule :=
  .spawn 0 (.save (some 1) (some {2})) :: (List.replicate 4 .done).map (.resume 0) ++
    [.spawn 1 .maintain]

theorem server_comes_to_rest_crowded : ∃ pool : ServerPool editLog,
    pool.state.roomLock = some 0 ∧
      (¬∃ run : Nat → ServerPool editLog, run 0 = pool ∧ ∀ n, Answers (run n) (run (n + 1))) ∧
        (∀ last, Relation.ReflTransGen Answers pool last → (∀ after, ¬Answers last after) →
          AtRest last) ∧
        TakesRoomFirst pool := by
  have played : ((samplePool crowdedRun).map (·.state.roomLock)) = some (some 0) := by decide
  obtain ⟨pool, played, owner⟩ := Option.map_eq_some_iff.mp played
  exact ⟨pool, owner, server_comes_to_rest (reachable_samplePool played)⟩

end Concord.Server

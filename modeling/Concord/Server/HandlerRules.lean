import Concord.Asyncio.RelyGuarantee
import Concord.Server.Endpoints

/-!
Contract: rules for the parts of the handlers that only read, send or close.

Owns:
- for any protocol and any assertion of a task, what the shared parts of the
  handlers preserve once the awaited operations preserve it.

Does not own: a protocol. Each protocol of the server proves the operations once
and reads off the rest here.
-/

set_option autoImplicit false

namespace Concord.Server

open Asyncio Collaboration ServerState

variable {P : Platform} {Ghost α : Type} {logic : Logic Ghost (ServerState P) Call}
  {allows : ServerState P → Call → Event P → Prop} {task : TaskId}
  {assertion : Ghost → ServerState P → Prop}

/-- Every query preserves the assertion. -/
def Queries (logic : Logic Ghost (ServerState P) Call)
    (allows : ServerState P → Call → Event P → Prop) (task : TaskId)
    (assertion : Ghost → ServerState P → Prop) : Prop :=
  ∀ (β : Type) (value : ServerState P → β), Preserves logic allows task assertion (query value)

/-- Every close frame preserves the assertion. -/
def Closes (logic : Logic Ghost (ServerState P) Call)
    (allows : ServerState P → Call → Event P → Prop) (task : TaskId)
    (assertion : Ghost → ServerState P → Prop) : Prop :=
  ∀ websocket code reason, Preserves logic allows task assertion (close websocket code reason)

/-- Every frame preserves the assertion, and so does the history of sends. -/
structure Sends (logic : Logic Ghost (ServerState P) Call)
    (allows : ServerState P → Call → Event P → Prop) (task : TaskId)
    (assertion : Ghost → ServerState P → Prop) : Prop where
  frame : ∀ sender websocket frame,
    Preserves logic allows task assertion (sendBytes sender websocket frame)
  broadcast : ∀ sender broadcast, Preserves logic allows task assertion
    (modify (setBroadcast sender broadcast) : ServerProgram P PUnit)
  note : ∀ event, Preserves logic allows task assertion
    (modify (ServerState.note event) : ServerProgram P PUnit)

theorem translateErrors_preserves {body : ServerProgram P α}
    (holds : Preserves logic allows task assertion body) :
    Preserves logic allows task assertion (translateErrors body) :=
  .tryExcept holds fun _ => .throw _

theorem translateErrors_attempts {after : Ghost → ServerState P → Prop} {body : ServerProgram P α}
    (holds : Attempts logic allows task assertion after assertion body) :
    Attempts logic allows task assertion after assertion (translateErrors body) :=
  .tryExcept_throw holds

/-! ### Queries -/

section Queries

variable (queries : Queries logic allows task assertion)

include queries

private theorem getUser_preserves (userId : UserId) (rows : IdentityMap) :
    Preserves logic allows task assertion (getUser userId rows) := queries _ _

theorem getSession_preserves (rows : IdentityMap) :
    Preserves logic allows task assertion (getSession rows) := by
  unfold getSession
  split
  · exact .pure _
  · exact queries _ _

private theorem selectMember_preserves (userId : UserId) (rows : IdentityMap) :
    Preserves logic allows task assertion (selectMember userId rows) := queries _ _

private theorem getCurrentUser_preserves (credentials : Option UserId) :
    Preserves logic allows task assertion (getCurrentUser credentials) := by
  unfold getCurrentUser
  split
  · exact .throw _
  · refine .bind (getUser_preserves queries _ _) fun answer => ?_
    split
    · exact .throw _
    · exact .pure _

theorem roleChecker_preserves (minRole : RoleEnum) (credentials : Option UserId) :
    Preserves logic allows task assertion (roleChecker minRole credentials) := by
  unfold roleChecker
  refine .bind (getCurrentUser_preserves queries _) fun user => ?_
  refine .bind (getSession_preserves queries _) fun answer => ?_
  split
  · exact .throw _
  · split
    · exact .throw _
    · refine .bind (selectMember_preserves queries _ _) fun answer => ?_
      split
      split
      · exact .pure _
      · exact .throw _

theorem requireCurrentEditor_preserves (userId : UserId) :
    Preserves logic allows task assertion (requireCurrentEditor userId) := by
  unfold requireCurrentEditor
  refine .bind (queries _ _) fun answer => ?_
  split
  · exact .pure _
  · exact .throw _

private theorem authenticateRows_preserves (userId : UserId) (stamp : AuthorizationStamp) :
    Preserves logic allows task assertion (authenticateRows userId stamp) := by
  unfold authenticateRows
  refine .bind (getUser_preserves queries _ _) fun answer => ?_
  split
  · exact .throw _
  · refine .bind (getSession_preserves queries _) fun answer => ?_
    split
    · exact .throw _
    · split
      · exact .throw _
      · refine .bind (selectMember_preserves queries _ _) fun answer => ?_
        split
        · exact .throw _
        · exact .pure _

theorem authenticateWs_preserves (handshake : Handshake) :
    Preserves logic allows task assertion (authenticateWs handshake) := by
  unfold authenticateWs
  split
  · exact .throw _
  · exact .throw _
  · exact .throw _
  · exact .throw _
  · exact .bind .get fun server => authenticateRows_preserves queries _ _

private theorem getActiveSession_preserves (rows : IdentityMap) :
    Preserves logic allows task assertion (getActiveSession rows) := by
  unfold getActiveSession
  refine .bind (getSession_preserves queries _) fun answer => ?_
  split
  · exact .throw _
  · split
    · exact .throw _
    · exact .pure _

theorem resolveMemberUserId_preserves (key : MemberKey) :
    Preserves logic allows task assertion (resolveMemberUserId key) := by
  unfold resolveMemberUserId
  split
  · exact .pure _
  · refine .bind (queries _ _) fun answer => ?_
    split
    · exact .throw _
    · exact .pure _

theorem addMember_preserves (rows : IdentityMap) (userId : UserId) (role : RoleEnum)
    (committed : Preserves logic allows task assertion (commit (insertMember task userId role)))
    (refreshed : Preserves logic allows task assertion refresh) :
    Preserves logic allows task assertion (addMember task rows userId role) := by
  unfold addMember
  refine .bind (getActiveSession_preserves queries _) fun answer => ?_
  split
  split
  · exact .throw _
  · split
    · exact .throw _
    · refine .bind (getUser_preserves queries _ _) fun answer => ?_
      split
      · exact .throw _
      · refine .bind (selectMember_preserves queries _ _) fun answer => ?_
        split
        · exact .throw _
        · exact .bind committed fun _ => refreshed

variable {after : Ghost → ServerState P → Prop}

theorem updateMemberRole_attempts (rows : IdentityMap) (userId : UserId) (newRole : RoleEnum)
    (unchanged : ∀ ghost server, assertion ghost server → after ghost server)
    (committed : Attempts logic allows task assertion after assertion
      (commit (setRole task userId newRole)))
    (refreshed : Attempts logic allows task after after assertion refresh) :
    Attempts logic allows task assertion after assertion
      (updateMemberRole task rows userId newRole) := by
  unfold updateMemberRole
  refine .bind (getActiveSession_preserves queries _).attempts fun answer => ?_
  split
  split
  · exact .throw _ fun _ _ => id
  · split
    · exact .throw _ fun _ _ => id
    · refine .bind (selectMember_preserves queries _ _).attempts fun answer => ?_
      split
      · exact .throw _ fun _ _ => id
      · split
        · exact .pure _ unchanged
        · exact .bind committed fun _ => refreshed

theorem removeMember_attempts (rows : IdentityMap) (userId : UserId)
    (committed : Attempts logic allows task assertion after assertion
      (commit (deleteMember task userId))) :
    Attempts logic allows task assertion after assertion (removeMember task rows userId) := by
  unfold removeMember
  refine .bind (getActiveSession_preserves queries _).attempts fun answer => ?_
  split
  split
  · exact .throw _ fun _ _ => id
  · refine .bind (selectMember_preserves queries _ _).attempts fun answer => ?_
    split
    · exact .throw _ fun _ _ => id
    · exact .bind (queries _ _).attempts fun _ => committed

theorem closeSession_attempts (rows : IdentityMap)
    (committed : Attempts logic allows task assertion after assertion
      (commit (deactivate task)))
    (refreshed : Attempts logic allows task after after assertion refresh) :
    Attempts logic allows task assertion after assertion (closeSession task rows) := by
  unfold closeSession
  exact .bind (getActiveSession_preserves queries _).attempts fun _ =>
    .bind committed fun _ => refreshed

end Queries

/-! ### Frames -/

theorem closeConnection_preserves (closes : Closes logic allows task assertion)
    (websocket : WebSocket) (code : Nat) (reason : String) :
    Preserves logic allows task assertion (closeConnection websocket code reason) :=
  .tryExcept (closes _ _ _) fun _ => .pure _

theorem closeConnections_preserves (closes : Closes logic allows task assertion)
    (code : Nat) (reason : String) (websockets : List WebSocket) :
    Preserves logic allows task assertion (closeConnections code reason websockets) := by
  induction websockets with
  | nil => exact .pure _
  | cons websocket rest inductionHypothesis =>
      exact .bind (closeConnection_preserves closes _ _ _) fun _ => inductionHypothesis

theorem invalidateMemberConnections_preserves (closes : Closes logic allows task assertion)
    (userId : UserId) (code : Nat) (reason : String)
    (fenced : Preserves logic allows task assertion
      (modifyGet (fenceMember userId code reason) : ServerProgram P (List WebSocket))) :
    Preserves logic allows task assertion (invalidateMemberConnections userId code reason) :=
  .bind fenced fun _ => closeConnections_preserves closes _ _ _

theorem closeSessionConnections_preserves (closes : Closes logic allows task assertion)
    (fenced : Preserves logic allows task assertion
      (modifyGet fenceSession : ServerProgram P (List WebSocket))) :
    Preserves logic allows task assertion closeSessionConnections :=
  .bind fenced fun _ => closeConnections_preserves closes _ _ _

theorem closeIfInvalidated_preserves (closes : Closes logic allows task assertion)
    (userId : UserId) (websocket : WebSocket)
    (revoked : ∀ failure, Preserves logic allows task assertion
      (modify (setRevoked websocket failure) : ServerProgram P PUnit)) :
    Preserves logic allows task assertion (closeIfInvalidated userId websocket) := by
  unfold closeIfInvalidated
  refine .bind .get fun server => ?_
  split
  · exact .pure _
  · exact .bind (revoked _) fun _ =>
      .bind (closeConnection_preserves closes _ _ _) fun _ => .pure _

/-- The state after `apply_if_authorized`: a revocation, no change, or a
mutation by an editor whom no fence has reached. -/
theorem applyIfAuthorized_state (websocket : WebSocket) (userId : UserId) (role : RoleEnum)
    (payload : P.Bytes) (server : ServerState P) :
    (∃ failure, (applyIfAuthorized websocket userId role payload server).2 =
        server.setRevoked websocket failure) ∨
      (applyIfAuthorized websocket userId role payload server).2 = server ∨
      (server.authorizationFailure userId websocket = none ∧
        roleRank .editor ≤ roleRank role ∧
        (applyIfAuthorized websocket userId role payload server).2 =
          (server.mutate userId (DocStore.applyUpdate payload)).2) := by
  unfold applyIfAuthorized
  split
  · next failure _ => exact .inl ⟨failure, rfl⟩
  · next authorized =>
      split
      · exact .inr (.inl rfl)
      · next rank =>
          have isEditor : roleRank .editor ≤ roleRank role := Nat.le_of_not_lt rank
          split
          · next answer => exact .inr (.inr ⟨authorized, isEditor, by rw [answer]⟩)
          · next answer => exact .inr (.inr ⟨authorized, isEditor, by rw [answer]⟩)

/-- The room after a connection has left. -/
theorem leave_rooms (websocket : WebSocket) (server : ServerState P) :
    (leave websocket server).2.rooms =
      if (leave websocket server).1.1 then none
      else some (server.connections.filter (·.websocket ≠ websocket)) := rfl

theorem leave_connections (websocket : WebSocket) (server : ServerState P) :
    (leave websocket server).2.connections =
      server.connections.filter (·.websocket ≠ websocket) := by
  unfold connections
  rw [leave_rooms]
  by_cases isLast : (leave websocket server).1.1 = true
  · rw [if_pos isLast]
    exact (List.isEmpty_iff.mp isLast).symm
  · rw [if_neg isLast]
    rfl

private theorem broadcastTo_preserves (sends : Sends logic allows task assertion) (sender : TaskId)
    (frame : ServerFrame P) (connections : List ConnectionInfo) :
    Preserves logic allows task assertion (broadcastTo sender frame connections) := by
  induction connections with
  | nil => exact sends.broadcast _ _
  | cons connection rest inductionHypothesis =>
      refine .bind (sends.broadcast _ _) fun _ => .bind .get fun server => ?_
      split
      · exact inductionHypothesis
      · exact .bind (.tryExcept (sends.frame _ _ _) fun _ => .pure _) fun _ => inductionHypothesis

theorem broadcastBinary_preserves (sends : Sends logic allows task assertion) (sender : TaskId)
    (frame : ServerFrame P) :
    Preserves logic allows task assertion (broadcastBinary sender frame) :=
  .bind .get fun _ => broadcastTo_preserves sends _ _ _

theorem broadcastAwareness_preserves (sends : Sends logic allows task assertion)
    (sender : TaskId) (entries : List (AwarenessEntry P)) :
    Preserves logic allows task assertion (broadcastAwareness sender entries) := by
  unfold broadcastAwareness
  split
  · exact .pure _
  · exact broadcastBinary_preserves sends _ _

private theorem sendCurrentDocumentStatus_preserves (sends : Sends logic allows task assertion)
    (websocket : WebSocket) :
    Preserves logic allows task assertion (sendCurrentDocumentStatus websocket) := by
  unfold sendCurrentDocumentStatus
  refine .bind .get fun server => ?_
  split
  · exact .pure _
  · exact sends.frame _ _ _

theorem handleSyncMessage_preserves {websocket : WebSocket} {user : AuthenticatedUser}
    {payload : P.Bytes} (closes : Closes logic allows task assertion)
    (sends : Sends logic allows task assertion)
    (encoded : Preserves logic allows task assertion
      (Coroutine.atomic (onStore (DocStore.encodeStateAsUpdate (some payload)))))
    (applied : Preserves logic allows task assertion
      (withRoomLock websocket
        (modifyGet (applyIfAuthorized websocket user.userId user.role payload))))
    (subtype : SyncSubtype) :
    Preserves logic allows task assertion (handleSyncMessage websocket user subtype payload) := by
  cases subtype with
  | step1 =>
      refine .bind (.tryExcept (.bind encoded fun _ => .pure _) fun _ => .pure _) fun update => ?_
      cases update with
      | none => exact .pure _
      | some update => exact sends.frame _ _ _
  | _ =>
      refine .bind applied fun outcome => ?_
      cases outcome with
      | failed failure closeRequired =>
          cases closeRequired with
          | true => exact closeConnection_preserves closes _ _ _
          | false => exact .pure _
      | denied => exact sends.frame _ _ _
      | rejected => exact .pure _
      | applied => exact broadcastBinary_preserves sends _ _

theorem handleBinaryMessage_preserves {websocket : WebSocket} {user : AuthenticatedUser}
    (sends : Sends logic allows task assertion)
    (synced : ∀ subtype payload, Preserves logic allows task assertion
      (handleSyncMessage websocket user subtype payload))
    (presence : ∀ entries, Preserves logic allows task assertion
      (modifyGet (applyAwareness websocket entries) : ServerProgram P (List (AwarenessEntry P))))
    (message : Option (ParsedMessage P)) :
    Preserves logic allows task assertion (handleBinaryMessage websocket user message) := by
  unfold handleBinaryMessage
  refine .bind .get fun server => ?_
  split
  · exact .pure _
  · split
    · exact .pure _
    · exact synced _ _
    · exact .bind (presence _) fun accepted => broadcastAwareness_preserves sends _ _
    · exact .bind .get fun _ => sends.frame _ _ _
    · exact .pure _

theorem greet_preserves {websocket : WebSocket} {user : AuthenticatedUser}
    (sends : Sends logic allows task assertion)
    (vector : Preserves logic allows task assertion
      (Coroutine.atomic (onStore DocStore.getStateVector))) :
    Preserves logic allows task assertion (greet websocket user) := by
  have status : Preserves logic allows task assertion (do
      modify (ServerState.note (.reported websocket))
      sendCurrentDocumentStatus websocket
      let active := AwarenessStates.activeEntries (← get).awareness
      modify (ServerState.note (.greeted websocket))
      if active.isEmpty then pure ()
      else sendBytes websocket websocket (.awareness active)) := by
    refine .bind (sends.note _) fun _ => ?_
    refine .bind (sendCurrentDocumentStatus_preserves sends _) fun _ => ?_
    refine .bind .get fun server => .bind (sends.note _) fun _ => ?_
    split
    · exact .pure _
    · exact sends.frame _ _ _
  unfold greet
  dsimp only
  split
  · exact .bind vector fun _ => .bind (sends.frame _ _ _) fun _ => status
  · exact status

theorem receiveLoop_preserves {websocket : WebSocket} {user : AuthenticatedUser}
    (waits : Preserves logic allows task assertion
      (Coroutine.awaitUntil .receive fun _ => none : ServerProgram P Unit))
    (received : Preserves logic allows task assertion receive)
    (checked : Preserves logic allows task assertion (closeIfInvalidated user.userId websocket))
    (pruned : Preserves logic allows task assertion (pruneStaleAwareness websocket))
    (handled : ∀ message, Preserves logic allows task assertion
      (handleBinaryMessage websocket user message))
    (messages : Nat) :
    Preserves logic allows task assertion (receiveLoop websocket user messages) := by
  induction messages with
  | zero => exact waits
  | succ messages inductionHypothesis =>
      refine .bind received fun message => ?_
      cases message with
      | disconnect => exact .pure _
      | bytes message =>
          refine .bind checked fun closed => ?_
          split
          · exact .pure _
          · exact .bind pruned fun _ => .bind (handled _) fun _ => inductionHypothesis
      | text =>
          refine .bind checked fun closed => ?_
          split
          · exact .pure _
          · exact .bind pruned fun _ => inductionHypothesis

theorem checkSize_preserves (size : Nat) (detail : String) :
    Preserves logic allows task assertion (checkSize size detail) := by
  unfold checkSize
  split
  · exact .throw _
  · exact .pure _

end Concord.Server

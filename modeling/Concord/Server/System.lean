import Concord.Collaboration.DocumentService
import Concord.Server.Endpoints

/-!
Contract: the backend process as a service.

Owns:
- `ServerRequest`, one constructor for each kind of task of the process;
- what peers and time do on their own, and what a crash leaves behind;
- `serverService`, whose runs are every interleaving of the tasks.

Does not own: properties of the runs.
-/

set_option autoImplicit false

namespace Concord.Server

open Asyncio Collaboration ServerState

variable {P : Platform}

/-- What starts a task: a connection, an HTTP request, the maintenance timer, the
shutdown, or an execution event for the session. -/
inductive ServerRequest (P : Platform) where
  | websocket (handshake : Handshake) (messages : Nat)
  | save (credentials : Option UserId) (documentState : P.Bytes)
  | createSnapshot (credentials : Option UserId)
  | restoreSnapshot (credentials : Option UserId) (snapshotId : Nat)
  | run (credentials : Option UserId)
  | maintain
  | shutdown
  | addMember (credentials : Option UserId) (key : MemberKey) (role : RoleEnum)
  | updateMemberRole (credentials : Option UserId) (userId : UserId) (role : RoleEnum)
  | removeMember (credentials : Option UserId) (userId : UserId)
  | closeSession (credentials : Option UserId)
  | relay (event : P.Json)

def ServerRequest.handler (task : TaskId) : ServerRequest P → ServerProgram P Unit
  | websocket handshake messages => websocketEndpoint handshake messages task
  | save credentials documentState => saveSessionDocument credentials documentState task
  | createSnapshot credentials => createSnapshotEndpoint credentials task
  | restoreSnapshot credentials snapshotId => restoreSnapshotEndpoint credentials snapshotId task
  | run credentials => do let _ ← runDocument credentials task
  | maintain => maintainDocumentCheckpoint task
  | shutdown => shutdownCheckpoint task
  | addMember credentials key role => addMemberEndpoint credentials key role task
  | updateMemberRole credentials userId role =>
      updateMemberRoleEndpoint credentials userId role task
  | removeMember credentials userId => removeMemberEndpoint credentials userId task
  | closeSession credentials => closeSessionEndpoint credentials task
  | relay event => broadcastExecutionEvent task event

/-- An operation that may take the right to edit from a member. -/
def ServerRequest.IsMembership : ServerRequest P → Prop
  | updateMemberRole _ _ _ => True
  | removeMember _ _ => True
  | closeSession _ => True
  | _ => False

/-- What happens without a task: time passes, a peer edits its replica, a frame
under way to a peer arrives. -/
inductive Ambient (P : Platform) where
  | tick (elapsed : Nat)
  | edit (websocket : WebSocket) (change : P.Doc)
  | deliver (websocket : WebSocket) (index : Nat)

namespace Peer

def edit (change : P.Doc) (peer : Peer P) : Peer P :=
  { peer with replica := peer.replica ⊔ change }

def frameContent (frame : ServerFrame P) : P.Doc := Platform.content frame.update

def deliver (index : Nat) (peer : Peer P) : Option (Peer P) :=
  match peer.pending[index]? with
  | none => none
  | some frame => some { peer with
      replica := peer.replica ⊔ frameContent frame
      pending := peer.pending.eraseIdx index }

end Peer

namespace ServerState

def setPeer (websocket : WebSocket) (peer : Peer P) (server : ServerState P) : ServerState P :=
  { server with peers := Function.update server.peers websocket peer }

/-- The effect of a change without a task. -/
def ambient (change : Ambient P) (server : ServerState P) : Option (ServerState P) :=
  match change with
  | .tick elapsed => some (server.putStore (server.store.tick elapsed))
  | .edit websocket change =>
      some (server.setPeer websocket ((server.peers websocket).edit change))
  | .deliver websocket index =>
      ((server.peers websocket).deliver index).map fun peer => server.setPeer websocket peer

/-- A process that has just started: no connection, no lock, nothing in memory. -/
def boot (store : DocStore P) (database : Database P) (replicas : WebSocket → P.Doc) :
    ServerState P where
  store := store
  database := database
  roomLock := none
  rooms := none
  memberInvalidations _ := none
  sessionInvalidation := none
  connectionStamps _ := none
  revokedConnections _ := none
  awareness := []
  joined _ := false
  peers websocket := ⟨replicas websocket, [], [], []⟩
  mutations := []
  wire := []
  broadcasts _ := none

/-- A crash and a new start. The stores, the rows and the replicas remain. -/
def reboot (server : ServerState P) : ServerState P :=
  { boot server.store.reboot server.database fun websocket => (server.peers websocket).replica with
    mutations := server.mutations }

end ServerState

def serverService (P : Platform) :
    Service (ServerState P) (Event P) Call Exn (ServerRequest P) (Ambient P) where
  handler request task := request.handler task
  ambient := ServerState.ambient
  restart := reboot

/-- A policy on the events of the backend process. -/
abbrev ServerPolicy (P : Platform) := Policy (ServerState P) (Event P) Call (ServerRequest P)

abbrev ServerPool (P : Platform) := Pool (ServerState P) (Event P) Call Exn (ServerRequest P)

/-- A backend process that has just started over some stores. PostgreSQL holds
nothing for the session, or what a save has written. -/
def Booted (server : ServerState P) : Prop :=
  ∃ sessionId, ∃ saved : Option P.Doc, ∃ savedAt checkpoint clock database replicas,
    server = boot (DocStore.boot sessionId ⟨saved.map P.getUpdate, savedAt⟩ checkpoint clock)
      database replicas

end Concord.Server

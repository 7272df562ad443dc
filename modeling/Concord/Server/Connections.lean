import Concord.Collaboration.PresenceRules
import Concord.Server.ViewRules
import Concord.Server.System

/-!
Contract: the protocol of the room, its awareness and what its connections are sent.

Owns:
- `ConnectionView`, the room, its authorization maps, its awareness and the
  history of sends;
- `ConnectionInv`: an active state has its owner in the room, and what a connection
  has been sent or will be sent by a running broadcast tells of the awareness;
- `ConnectionRely`: what stays as it is for a task, in the room or outside;
- `connectionProtocol` and the facts that it keeps for a task.

The proposition `strict` stands for runs in which no send is resumed into a fence.
There the invariant also says that no frame was passed through a fence.

Does not own: the handlers that follow the protocol.
-/

set_option autoImplicit false

namespace Concord.Server

open Asyncio Collaboration ServerState

variable {P : Platform}

/-- The room, its authorization maps, its awareness and the history of sends. -/
structure ConnectionView (P : Platform) where
  roomLock : Option TaskId
  connections : List ConnectionInfo
  connectionStamps : WebSocket → Option AuthorizationStamp
  revokedConnections : WebSocket → Option (Nat × String)
  joined : WebSocket → Bool
  awareness : AwarenessStates P
  wire : List (WireEvent P)
  broadcasts : TaskId → Option (Broadcast P)

def connectionView (server : ServerState P) : ConnectionView P where
  roomLock := server.roomLock
  connections := server.connections
  connectionStamps := server.connectionStamps
  revokedConnections := server.revokedConnections
  joined := server.joined
  awareness := server.awareness
  wire := server.wire
  broadcasts := server.broadcasts

namespace ConnectionView

def InRoom (view : ConnectionView P) (websocket : WebSocket) : Prop :=
  ∃ connection ∈ view.connections, connection.websocket = websocket

def note (event : WireEvent P) (view : ConnectionView P) : ConnectionView P :=
  { view with wire := event :: view.wire }

/-- Where the broadcast of a task stands. -/
def setBroadcast (task : TaskId) (broadcast : Option (Broadcast P)) (view : ConnectionView P) :
    ConnectionView P :=
  { view with broadcasts := Function.update view.broadcasts task broadcast }

@[simp] theorem setBroadcast_self (task : TaskId) (broadcast : Option (Broadcast P))
    (view : ConnectionView P) : (view.setBroadcast task broadcast).broadcasts task = broadcast :=
  Function.update_self _ _ _

theorem setBroadcast_of_ne {task other : TaskId} (different : other ≠ task)
    (broadcast : Option (Broadcast P)) (view : ConnectionView P) :
    (view.setBroadcast task broadcast).broadcasts other = view.broadcasts other :=
  Function.update_of_ne different _ _

theorem setBroadcast_twice (task : TaskId) (first second : Option (Broadcast P))
    (view : ConnectionView P) :
    (view.setBroadcast task first).setBroadcast task second = view.setBroadcast task second := by
  unfold setBroadcast
  simp

theorem setBroadcast_eq {task : TaskId} {broadcast : Option (Broadcast P)}
    {view : ConnectionView P} (there : view.broadcasts task = broadcast) :
    view.setBroadcast task broadcast = view := by
  unfold setBroadcast
  rw [← there, Function.update_eq_self]

/-- The frame was passed for the connection, or will be by a running broadcast. -/
def Addressed (view : ConnectionView P) (websocket : WebSocket) (frame : ServerFrame P) : Prop :=
  .passed websocket frame ∈ view.wire ∨
    ∃ task broadcast, view.broadcasts task = some broadcast ∧ broadcast.frame = frame ∧
      ∃ connection ∈ broadcast.remaining, connection.websocket = websocket

/-- An entry in a frame for the connection. -/
def Heard (view : ConnectionView P) (websocket : WebSocket) (entry : AwarenessEntry P) : Prop :=
  ∃ frame, view.Addressed websocket frame ∧ entry ∈ frame.entries

/-- The next connection that a broadcast passes its frame to. -/
def recipient (view : ConnectionView P) (connections : List ConnectionInfo) :
    Option ConnectionInfo :=
  connections.find? fun connection => !(view.revokedConnections connection.websocket).isSome

end ConnectionView

/-- What a connection has been told of the awareness: nothing but states that
the room holds or has replaced, and the current state of a client that it has
heard of. Once it was greeted, it has been told every active state. -/
structure Informed (websocket : WebSocket) (view : ConnectionView P) : Prop where
  covered : ∀ entry, view.Heard websocket entry → AwarenessStates.Covers view.awareness entry
  told : ∀ stored ∈ view.awareness, view.Heard websocket stored.entry ∨
    ∀ entry, view.Heard websocket entry → entry.clientId ≠ stored.entry.clientId
  shown : .greeted websocket ∈ view.wire → ∀ stored ∈ view.awareness,
    stored.entry.state.isSome → view.Heard websocket stored.entry

/-- No frame is passed after a fence. The later event stands first. -/
def BeforeFence (later earlier : WireEvent P) : Prop :=
  ∀ websocket frame, later = .passed websocket frame → earlier ≠ .fenced websocket

structure ConnectionInv (strict : Prop) (view : ConnectionView P) : Prop where
  kept : AwarenessStates.Kept view.InRoom view.awareness
  noted : ∀ websocket, view.InRoom websocket → view.joined websocket = true
  addressed : ∀ websocket frame, view.Addressed websocket frame → view.joined websocket = true
  greeted : ∀ websocket, .reported websocket ∈ view.wire ∨ .greeted websocket ∈ view.wire →
    view.joined websocket = true
  fenced : ∀ websocket, .fenced websocket ∈ view.wire → view.InRoom websocket →
    view.revokedConnections websocket ≠ none
  informed : ∀ websocket, view.InRoom websocket → view.revokedConnections websocket = none →
    Informed websocket view
  ordered : strict → view.wire.Pairwise BeforeFence

/-- What `task` may find changed by the other tasks. -/
structure ConnectionRely (task : TaskId) (before after : ConnectionView P) : Prop where
  lock : before.roomLock = some task →
    after.roomLock = some task ∧ after.connections = before.connections
  stamp : after.connectionStamps task = before.connectionStamps task
  joined : after.joined task = before.joined task
  broadcast : after.broadcasts task = before.broadcasts task
  inRoom : after.InRoom task ↔ before.InRoom task
  revoked : ¬before.InRoom task → after.revokedConnections task = before.revokedConnections task
  fenced : ¬before.InRoom task → .fenced task ∈ after.wire → .fenced task ∈ before.wire
  reported : .reported task ∈ after.wire ↔ .reported task ∈ before.wire
  greeted : .greeted task ∈ after.wire ↔ .greeted task ∈ before.wire

theorem ConnectionRely.refl (task : TaskId) (view : ConnectionView P) :
    ConnectionRely task view view :=
  ⟨fun held => ⟨held, rfl⟩, rfl, rfl, rfl, Iff.rfl, fun _ => rfl, fun _ => id, Iff.rfl, Iff.rfl⟩

theorem ConnectionRely.trans {task : TaskId} {first second third : ConnectionView P}
    (earlier : ConnectionRely task first second) (later : ConnectionRely task second third) :
    ConnectionRely task first third where
  lock held := by
    obtain ⟨held₁, same₁⟩ := earlier.lock held
    obtain ⟨held₂, same₂⟩ := later.lock held₁
    exact ⟨held₂, same₂.trans same₁⟩
  stamp := later.stamp.trans earlier.stamp
  joined := later.joined.trans earlier.joined
  broadcast := later.broadcast.trans earlier.broadcast
  inRoom := later.inRoom.trans earlier.inRoom
  revoked outside := by
    have outside₁ : ¬second.InRoom task := fun member => outside (earlier.inRoom.mp member)
    exact (later.revoked outside₁).trans (earlier.revoked outside)
  fenced outside marked := by
    have outside₁ : ¬second.InRoom task := fun member => outside (earlier.inRoom.mp member)
    exact earlier.fenced outside (later.fenced outside₁ marked)
  reported := later.reported.trans earlier.reported
  greeted := later.greeted.trans earlier.greeted

/-- The task is outside the room and has left no trace in its maps. -/
def OutsideRoom (task : TaskId) (view : ConnectionView P) : Prop :=
  ¬view.InRoom task ∧ view.connectionStamps task = none ∧ view.revokedConnections task = none

def Unstarted (task : TaskId) (view : ConnectionView P) : Prop :=
  OutsideRoom task view ∧ view.joined task = false ∧ .fenced task ∉ view.wire

/-- The protocol of the room and its connections. A task that does not wait for a
send has no broadcast under way. -/
def connectionProtocol (P : Platform) (strict : Prop) : Logic Unit (ConnectionView P) Call where
  inv _ := ConnectionInv strict
  rely task _ before _ after := ConnectionRely task before after
  guar task _ before _ after := ∀ other, task ≠ other → ConnectionRely other before after
  parked task call _ view :=
    (∀ sender recipient, call ≠ .sendBytes sender recipient) → view.broadcasts task = none
  done task _ view := OutsideRoom task view ∧ view.broadcasts task = none
  fresh task _ view := Unstarted task view ∧ view.broadcasts task = none

/-! ### Facts of a task -/

/-- A fact of a task that the others keep. It depends on the room, the lock and the
maps of connections only, and on what is not on the wire besides frames. -/
structure Lasting (task : TaskId) (fact : ConnectionView P → Prop) : Prop where
  stable : ∀ {before after}, ConnectionRely task before after → fact before → fact after
  respects : ∀ before after : ConnectionView P, after.roomLock = before.roomLock →
    after.connections = before.connections → after.connectionStamps = before.connectionStamps →
    after.revokedConnections = before.revokedConnections → after.joined = before.joined →
    (∀ event ∈ after.wire, (∃ websocket frame, event = .passed websocket frame) ∨
      event ∈ before.wire) → fact before → fact after

section Facts

variable {task : TaskId} {before after : ConnectionView P}

theorem ConnectionView.inRoom_of_connections (same : after.connections = before.connections)
    (websocket : WebSocket) : after.InRoom websocket ↔ before.InRoom websocket := by
  unfold ConnectionView.InRoom
  rw [same]

theorem OutsideRoom.of_rely (outside : OutsideRoom task before)
    (rely : ConnectionRely task before after) : OutsideRoom task after :=
  ⟨fun member => outside.1 (rely.inRoom.mp member), rely.stamp.trans outside.2.1,
    (rely.revoked outside.1).trans outside.2.2⟩

theorem Unstarted.of_rely (unstarted : Unstarted task before)
    (rely : ConnectionRely task before after) : Unstarted task after :=
  ⟨unstarted.1.of_rely rely, rely.joined.trans unstarted.2.1,
    fun marked => unstarted.2.2 (rely.fenced unstarted.1.1 marked)⟩

theorem connectionProtocol_lawful (strict : Prop) : (connectionProtocol P strict).Lawful where
  rely_refl task _ view := ConnectionRely.refl task view
  rely_trans := ConnectionRely.trans
  guar_rely different guar := guar _ different
  parked_stable rely idle waits := rely.broadcast.trans (idle waits)
  done_stable rely done := ⟨done.1.of_rely rely, rely.broadcast.trans done.2⟩
  fresh_stable rely fresh := ⟨fresh.1.of_rely rely, rely.broadcast.trans fresh.2⟩

/-- A mark is not new where only frames are. -/
theorem ConnectionView.mark_of_mem {event : WireEvent P}
    (marks : ∀ event ∈ after.wire, (∃ websocket frame, event = .passed websocket frame) ∨
      event ∈ before.wire)
    (mark : ∀ websocket frame, event ≠ .passed websocket frame) (member : event ∈ after.wire) :
    event ∈ before.wire := by
  rcases marks event member with ⟨websocket, frame, passed⟩ | there
  · exact absurd passed (mark websocket frame)
  · exact there

theorem lasting_outsideRoom : Lasting task (OutsideRoom task : ConnectionView P → Prop) where
  stable rely outside := outside.of_rely rely
  respects before after _ connections stamps revoked _ _ outside := by
    unfold OutsideRoom
    rw [ConnectionView.inRoom_of_connections connections, stamps, revoked]
    exact outside

theorem lasting_unstarted : Lasting task (Unstarted task : ConnectionView P → Prop) where
  stable rely unstarted := unstarted.of_rely rely
  respects before after lock connections stamps revoked joined marks unstarted :=
    ⟨lasting_outsideRoom.respects before after lock connections stamps revoked joined marks unstarted.1,
      by rw [joined]; exact unstarted.2.1,
      fun marked => unstarted.2.2 (ConnectionView.mark_of_mem marks nofun marked)⟩

/-- The task is in the room, and its endpoint has noted that it joined. -/
def InsideRoom (task : TaskId) (view : ConnectionView P) : Prop :=
  view.InRoom task ∧ view.joined task = true

theorem lasting_insideRoom : Lasting task (InsideRoom task : ConnectionView P → Prop) where
  stable rely inside := ⟨rely.inRoom.mpr inside.1, rely.joined.trans inside.2⟩
  respects before after _ connections _ _ joined _ inside := by
    unfold InsideRoom
    rw [ConnectionView.inRoom_of_connections connections, joined]
    exact inside

/-- The connection has its stamp, and no fence has reached it. -/
def Arriving (task : TaskId) (view : ConnectionView P) : Prop :=
  ¬view.InRoom task ∧ view.joined task = false ∧ .fenced task ∉ view.wire

theorem lasting_arriving : Lasting task (Arriving task : ConnectionView P → Prop) where
  stable rely arriving := ⟨fun member => arriving.1 (rely.inRoom.mp member),
    rely.joined.trans arriving.2.1, fun marked => arriving.2.2 (rely.fenced arriving.1 marked)⟩
  respects before after _ connections _ _ joined marks arriving := by
    unfold Arriving
    rw [ConnectionView.inRoom_of_connections connections, joined]
    exact ⟨arriving.1, arriving.2.1,
      fun marked => arriving.2.2 (ConnectionView.mark_of_mem marks nofun marked)⟩

/-- The task is in the room, and its handshake has not come to the awareness. -/
def Reporting (task : TaskId) (view : ConnectionView P) : Prop :=
  InsideRoom task view ∧ .greeted task ∉ view.wire

theorem lasting_reporting : Lasting task (Reporting task : ConnectionView P → Prop) where
  stable rely reporting := ⟨lasting_insideRoom.stable rely reporting.1,
    fun greeted => reporting.2 (rely.greeted.mp greeted)⟩
  respects before after lock connections stamps revoked joined marks reporting :=
    ⟨lasting_insideRoom.respects before after lock connections stamps revoked joined marks reporting.1,
      fun greeted => reporting.2 (ConnectionView.mark_of_mem marks nofun greeted)⟩

/-- The task is in the room, and its handshake has not come to the document
status. -/
def Greeting (task : TaskId) (view : ConnectionView P) : Prop :=
  Reporting task view ∧ .reported task ∉ view.wire

theorem lasting_greeting : Lasting task (Greeting task : ConnectionView P → Prop) where
  stable rely greeting := ⟨lasting_reporting.stable rely greeting.1,
    fun reported => greeting.2 (rely.reported.mp reported)⟩
  respects before after lock connections stamps revoked joined marks greeting :=
    ⟨lasting_reporting.respects before after lock connections stamps revoked joined marks greeting.1,
      fun reported => greeting.2 (ConnectionView.mark_of_mem marks nofun reported)⟩

/-- Where an endpoint stands when its connection ends: it has joined the room, or it
has not. -/
def RoomNoted (task : TaskId) (view : ConnectionView P) : Prop :=
  view.InRoom task ↔ view.joined task = true

theorem lasting_roomNoted : Lasting task (RoomNoted task : ConnectionView P → Prop) where
  stable rely noted := by
    unfold RoomNoted
    rw [rely.inRoom, rely.joined]
    exact noted
  respects before after _ connections _ _ joined _ noted := by
    unfold RoomNoted
    rw [ConnectionView.inRoom_of_connections connections, joined]
    exact noted

theorem Arriving.roomNoted {view : ConnectionView P} (arriving : Arriving task view) :
    RoomNoted task view :=
  ⟨fun member => absurd member arriving.1, fun joined => nomatch joined.symm.trans arriving.2.1⟩

theorem InsideRoom.roomNoted {view : ConnectionView P} (inside : InsideRoom task view) :
    RoomNoted task view :=
  ⟨fun _ => inside.2, fun _ => inside.1⟩

/-- The task holds the room lock, over these connections. -/
def RoomHeld (task : TaskId) (connections : List ConnectionInfo) (view : ConnectionView P) : Prop :=
  view.roomLock = some task ∧ view.connections = connections

theorem lasting_roomHeld (connections : List ConnectionInfo) :
    Lasting task (RoomHeld task connections : ConnectionView P → Prop) where
  stable rely held := ⟨(rely.lock held.1).1, (rely.lock held.1).2.trans held.2⟩
  respects _ _ lock same _ _ _ _ held := ⟨lock.trans held.1, same.trans held.2⟩

theorem Lasting.and {first second : ConnectionView P → Prop} (left : Lasting task first)
    (right : Lasting task second) : Lasting task fun view => first view ∧ second view where
  stable rely both := ⟨left.stable rely both.1, right.stable rely both.2⟩
  respects _ _ lock connections stamps revoked joined fenced both :=
    ⟨left.respects _ _ lock connections stamps revoked joined fenced both.1,
      right.respects _ _ lock connections stamps revoked joined fenced both.2⟩

/-- A fact of a task that has no broadcast under way. -/
def Resting (task : TaskId) (fact : ConnectionView P → Prop) (_ : Unit) (view : ConnectionView P) :
    Prop :=
  fact view ∧ view.broadcasts task = none

/-- The protocol keeps a lasting fact at every call. -/
theorem Lasting.standing {strict : Prop} {calls : Call → Prop} {fact : ConnectionView P → Prop}
    (lasting : Lasting task fact) :
    Standing (connectionProtocol P strict) calls task (Resting task fact) where
  idle _ view other _ := ConnectionRely.refl other view
  stable rely _ resting := ⟨lasting.stable rely resting.1, rely.broadcast.trans resting.2⟩
  parked _ resting _ := resting.2

end Facts

end Concord.Server

import Concord.Server.ViewRules
import Concord.Server.System

/-!
Contract: the protocol of what the connections are owed of the document.

Owns:
- `DeliveryView`, the document in memory, the room, and the peers with the frames
  under way to them;
- `DeliveryInv`: the replica of a connection whose sync step 1 was answered, the
  frames under way to it and what the tasks owe it contain the document;
- `DeliveryRely` and `deliveryProtocol`;
- the steps that the invariant survives.

The ghost state is what each task owes each connection. A task that has changed the
document owes the change to everyone, until it has captured the room and passed the
frame on.

Does not own: the handlers that follow the protocol.
-/

set_option autoImplicit false

namespace Concord.Server

open Asyncio Collaboration ServerState

variable {P : Platform}

/-- The content of the document in memory; nothing where there is none. -/
def documentContent (store : DocStore P) : P.Doc := (store.document.map (·.doc)).getD ⊥

/-- The document, the room, and the peers of its connections. -/
structure DeliveryView (P : Platform) where
  roomLock : Option TaskId
  connections : List ConnectionInfo
  revokedConnections : WebSocket → Option (Nat × String)
  fenced : WebSocket → Prop
  answered : WebSocket → Prop
  doc : P.Doc
  peers : WebSocket → Peer P

/-- The sync step 1 of a connection has been answered, or its answer has been passed to
`send_bytes`. -/
def Answered (websocket : WebSocket) (server : ServerState P) : Prop :=
  ∃ update, .passed websocket (.syncStep2 update) ∈ server.wire

def deliveryView (server : ServerState P) : DeliveryView P where
  roomLock := server.roomLock
  connections := server.connections
  revokedConnections := server.revokedConnections
  fenced websocket := .fenced websocket ∈ server.wire
  answered websocket := Answered websocket server
  doc := documentContent server.store
  peers := server.peers

/-- The connection is in the room, and no fence has reached it. -/
def DeliveryView.Served (view : DeliveryView P) (websocket : WebSocket) : Prop :=
  (∃ connection ∈ view.connections, connection.websocket = websocket) ∧ ¬view.fenced websocket

/-- What each task owes each connection. -/
abbrev Debts (P : Platform) := TaskId → WebSocket → P.Doc

/-- The replica of a peer and the frames under way to it are below a bound. -/
def Peer.Below (peer : Peer P) (bound : P.Doc) : Prop :=
  peer.replica ≤ bound ∧ ∀ frame ∈ peer.pending, Peer.frameContent frame ≤ bound

/-- The replica of a connection, the frames under way to it and what it is owed contain
this. -/
def Covered (debts : Debts P) (view : DeliveryView P) (websocket : WebSocket) (content : P.Doc) :
    Prop :=
  ∀ bound, (view.peers websocket).Below bound → (∀ task, debts task websocket ≤ bound) →
    content ≤ bound

structure DeliveryInv (debts : Debts P) (view : DeliveryView P) : Prop where
  document : ∀ websocket, view.Served websocket → view.answered websocket →
    Covered debts view websocket view.doc
  sent : ∀ websocket update, .syncStep2 update ∈ (view.peers websocket).sent →
    view.answered websocket
  marked : ∀ websocket, view.revokedConnections websocket ≠ none → view.fenced websocket

/-- What a task may find changed in the view. -/
structure ViewRely (task : TaskId) (before after : DeliveryView P) : Prop where
  lock : before.roomLock = some task →
    after.roomLock = some task ∧ after.connections = before.connections
  answered : after.answered task ↔ before.answered task
  replica_le : (before.peers task).replica ≤ (after.peers task).replica

/-- What `task` may find changed by the other tasks. -/
structure DeliveryRely (task : TaskId) (debts : Debts P) (before : DeliveryView P)
    (debts' : Debts P) (after : DeliveryView P) : Prop extends ViewRely task before after where
  owes : debts' task = debts task

theorem ViewRely.refl (task : TaskId) (view : DeliveryView P) : ViewRely task view view :=
  ⟨fun held => ⟨held, rfl⟩, Iff.rfl, le_rfl⟩

theorem ViewRely.trans {task : TaskId} {first second third : DeliveryView P}
    (earlier : ViewRely task first second) (later : ViewRely task second third) :
    ViewRely task first third where
  lock held := by
    obtain ⟨held₁, same₁⟩ := earlier.lock held
    obtain ⟨held₂, same₂⟩ := later.lock held₁
    exact ⟨held₂, same₂.trans same₁⟩
  answered := later.answered.trans earlier.answered
  replica_le := earlier.replica_le.trans later.replica_le

/-- The protocol of the deliveries. A task that waits for a message owes nothing. -/
def deliveryProtocol (P : Platform) : Logic (Debts P) (DeliveryView P) Call where
  inv := DeliveryInv
  rely := DeliveryRely
  guar task debts before debts' after :=
    ∀ other, task ≠ other → DeliveryRely other debts before debts' after
  parked task call debts _ := call = .receive → debts task = ⊥
  done task debts _ := debts task = ⊥
  fresh task debts view := debts task = ⊥ ∧ ¬view.answered task

theorem deliveryProtocol_lawful : (deliveryProtocol P).Lawful where
  rely_refl task _ view := ⟨ViewRely.refl task view, rfl⟩
  rely_trans earlier later :=
    ⟨earlier.toViewRely.trans later.toViewRely, later.owes.trans earlier.owes⟩
  guar_rely different guar := guar _ different
  parked_stable rely idle waits := rely.owes.trans (idle waits)
  done_stable rely idle := rely.owes.trans idle
  fresh_stable rely fresh :=
    ⟨rely.owes.trans fresh.1, fun answered => fresh.2 (rely.answered.mp answered)⟩

/-! ### Steps of the invariant -/

section Steps

variable {task : TaskId} {debts : Debts P} {view before after : DeliveryView P}

/-- Fewer connections are served, and the document and the peers stay. -/
theorem DeliveryInv.narrow (inv : DeliveryInv debts before)
    (served : ∀ websocket, after.Served websocket → after.answered websocket →
      before.Served websocket)
    (answered : after.answered = before.answered) (doc : after.doc = before.doc)
    (peers : after.peers = before.peers)
    (marked : ∀ websocket, after.revokedConnections websocket ≠ none → after.fenced websocket) :
    DeliveryInv debts after where
  document websocket inRoom known := by
    have covered := inv.document websocket (served websocket inRoom known) (answered ▸ known)
    unfold Covered at covered ⊢
    rwa [peers, doc]
  sent websocket update member := by
    rw [answered]
    exact inv.sent websocket update (peers ▸ member)
  marked := marked

/-- A task comes to owe something else, and nobody loses what it is owed now. -/
theorem DeliveryInv.settle (inv : DeliveryInv debts view) (due : WebSocket → P.Doc)
    (covers : ∀ websocket, view.Served websocket → view.answered websocket → ∀ bound,
      (view.peers websocket).Below bound → due websocket ≤ bound → debts task websocket ≤ bound) :
    DeliveryInv (Function.update debts task due) view where
  document websocket inRoom known bound below owed := by
    refine inv.document websocket inRoom known bound below fun other => ?_
    have owes := owed other
    by_cases same : other = task
    · subst same
      rw [Function.update_self] at owes
      exact covers websocket inRoom known bound below owes
    · rwa [Function.update_of_ne same] at owes
  sent := inv.sent
  marked := inv.marked

/-- The document grows, and the task that has changed it owes the change to everyone. -/
theorem DeliveryInv.grow (inv : DeliveryInv debts view) (idle : debts task = ⊥)
    {doc content : P.Doc} (grown : doc ≤ view.doc ⊔ content) :
    DeliveryInv (Function.update debts task fun _ => content) { view with doc := doc } where
  document websocket inRoom known bound below owed := by
    have owes : content ≤ bound := by
      have own := owed task
      rwa [Function.update_self] at own
    refine grown.trans (sup_le ?_ owes)
    refine inv.document websocket inRoom known bound below fun other => ?_
    by_cases same : other = task
    · rw [same, idle]
      exact bot_le
    · have other := owed other
      rwa [Function.update_of_ne same] at other
  sent := inv.sent
  marked := inv.marked

/-- The document changes while nobody is in the room. -/
theorem DeliveryInv.setDoc (inv : DeliveryInv debts view) (doc : P.Doc)
    (empty : view.connections = []) : DeliveryInv debts { view with doc := doc } where
  document websocket inRoom := by
    obtain ⟨⟨connection, member, _⟩, _⟩ := inRoom
    rw [show view.connections = [] from empty] at member
    cases member
  sent := inv.sent
  marked := inv.marked

/-- A connection is owed the answer to its sync step 1. -/
theorem DeliveryInv.answer (inv : DeliveryInv debts view) (idle : debts task = ⊥)
    {known content : P.Doc} (held : known ≤ (view.peers task).replica)
    (complete : view.doc ≤ known ⊔ content) :
    DeliveryInv (Function.update debts task (Function.update ⊥ task content))
      { view with answered := Function.update view.answered task True } where
  document websocket inRoom replied bound below owed := by
    by_cases own : websocket = task
    · subst own
      have owes := owed websocket
      rw [Function.update_self, Function.update_self] at owes
      exact complete.trans (sup_le (held.trans below.1) owes)
    · change Function.update view.answered task True websocket at replied
      rw [Function.update_of_ne own] at replied
      refine inv.document websocket inRoom replied bound below fun other => ?_
      by_cases same : other = task
      · rw [same, idle]
        exact bot_le
      · have other := owed other
        rwa [Function.update_of_ne same] at other
  sent websocket update member := by
    change Function.update view.answered task True websocket
    by_cases own : websocket = task
    · rw [own, Function.update_self]
      trivial
    · rw [Function.update_of_ne own]
      exact inv.sent websocket update member
  marked := inv.marked

def DeliveryView.send (websocket : WebSocket) (frame : ServerFrame P) (view : DeliveryView P) :
    DeliveryView P :=
  let peer := view.peers websocket
  { view with peers := Function.update view.peers websocket { peer with
      pending := peer.pending ++ [frame]
      sent := peer.sent ++ [frame] } }

/-- A frame leaves for a connection, which is not owed it any more. -/
theorem DeliveryInv.send (inv : DeliveryInv debts view) {websocket : WebSocket}
    {frame : ServerFrame P} (due : debts task websocket ≤ Peer.frameContent frame)
    (replies : ∀ update, frame = .syncStep2 update → view.answered websocket) :
    DeliveryInv (Function.update debts task (Function.update (debts task) websocket ⊥))
      (view.send websocket frame) where
  document other inRoom known bound below owed := by
    by_cases own : other = websocket
    · subst own
      change ((Function.update view.peers other _ other : Peer P)).Below bound at below
      rw [Function.update_self] at below
      have arrives : Peer.frameContent frame ≤ bound := below.2 frame (by simp)
      refine inv.document other inRoom known bound ⟨below.1, fun older member =>
        below.2 older (List.mem_append_left _ member)⟩ fun sender => ?_
      by_cases same : sender = task
      · rw [same]
        exact due.trans arrives
      · have owes := owed sender
        rwa [Function.update_of_ne same] at owes
    · change ((Function.update view.peers websocket _ other : Peer P)).Below bound at below
      rw [Function.update_of_ne own] at below
      refine inv.document other inRoom known bound below fun sender => ?_
      have owes := owed sender
      by_cases same : sender = task
      · subst same
        rwa [Function.update_self, Function.update_of_ne own] at owes
      · rwa [Function.update_of_ne same] at owes
  sent other update member := by
    change _ ∈ (Function.update view.peers websocket _ other : Peer P).sent at member
    by_cases own : other = websocket
    · subst own
      rw [Function.update_self] at member
      rcases List.mem_append.mp member with older | new
      · exact inv.sent other update older
      · exact replies update (List.mem_singleton.mp new).symm
    · rw [Function.update_of_ne own] at member
      exact inv.sent other update member
  marked := inv.marked

/-- A peer holds more, and nothing under way to it is lost. -/
theorem DeliveryInv.setPeer (inv : DeliveryInv debts view) {websocket : WebSocket} {peer : Peer P}
    (below : ∀ bound, peer.Below bound → (view.peers websocket).Below bound)
    (sent : peer.sent = (view.peers websocket).sent) :
    DeliveryInv debts { view with peers := Function.update view.peers websocket peer } where
  document other inRoom known bound holds owed := by
    refine inv.document other inRoom known bound ?_ owed
    change (Function.update view.peers websocket peer other).Below bound at holds
    by_cases own : other = websocket
    · subst own
      rw [Function.update_self] at holds
      exact below bound holds
    · rwa [Function.update_of_ne own] at holds
  sent other update member := by
    refine inv.sent other update ?_
    change _ ∈ (Function.update view.peers websocket peer other).sent at member
    by_cases own : other = websocket
    · subst own
      rwa [Function.update_self, sent] at member
    · rwa [Function.update_of_ne own] at member
  marked := inv.marked

end Steps

end Concord.Server

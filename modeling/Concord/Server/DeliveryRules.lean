import Concord.Server.Deliveries

/-!
Contract: the shared operations of the handlers under the protocol of the deliveries.

Owns:
- `Stands`, what a task owes and knows between two of its steps;
- the operations that the protocol does not see, frames, and broadcasts;
- the section under the room lock.

Does not own: the document.
-/

set_option autoImplicit false

namespace Concord.Server

open Asyncio Collaboration ServerState

variable {P : Platform} {α : Type} {task other : TaskId} {debts : Debts P}
  {server server' : ServerState P} {allows : ServerState P → Call → Event P → Prop}
  {fact : DeliveryView P → Prop} {due : WebSocket → P.Doc}

/-- A room with connections has a document in memory. -/
def DocumentPresent (server : ServerState P) : Prop :=
  server.connections ≠ [] → server.store.docs ≠ none

/-- The protocol of the deliveries over the state of the server. -/
def serverDeliveries (P : Platform) : Logic (Debts P) (ServerState P) Call :=
  { (deliveryProtocol P).over deliveryView with known := DocumentPresent }

/-! ### Facts of a task -/

/-- A fact that the others keep for a task. -/
def Abiding (task : TaskId) (fact : DeliveryView P → Prop) : Prop :=
  ∀ before after, ViewRely task before after → fact before → fact after

/-- What a task owes, and a fact of it. -/
def Owing (task : TaskId) (due : WebSocket → P.Doc) (fact : DeliveryView P → Prop)
    (debts : Debts P) (view : DeliveryView P) : Prop :=
  debts task = due ∧ fact view

/-- The invariant, what a task owes, and a fact of it. -/
abbrev Stands (task : TaskId) (due : WebSocket → P.Doc) (fact : DeliveryView P → Prop) :
    Debts P → ServerState P → Prop :=
  (deliveryProtocol P).Knows deliveryView (Owing task due fact)

/-- Nothing more is known. -/
def Anything (_ : DeliveryView P) : Prop := True

/-- The replica of the connection holds this. -/
def Holding (task : TaskId) (known : P.Doc) (view : DeliveryView P) : Prop :=
  known ≤ (view.peers task).replica

/-- The connection has not been answered. -/
def Unanswered (task : TaskId) (view : DeliveryView P) : Prop := ¬view.answered task

/-- The task holds the room lock, over these connections. -/
def Locking (task : TaskId) (connections : List ConnectionInfo) (fact : DeliveryView P → Prop)
    (view : DeliveryView P) : Prop :=
  view.roomLock = some task ∧ view.connections = connections ∧ fact view

theorem abiding_anything : Abiding task (Anything : DeliveryView P → Prop) :=
  fun _ _ _ _ => trivial

theorem abiding_unanswered : Abiding task (Unanswered task : DeliveryView P → Prop) :=
  fun _ _ rely unanswered answered => unanswered (rely.answered.mp answered)

theorem Abiding.locking (abiding : Abiding task fact) (connections : List ConnectionInfo) :
    Abiding task (Locking task connections fact) :=
  fun _ _ rely held =>
    ⟨(rely.lock held.1).1, (rely.lock held.1).2.trans held.2.1, abiding _ _ rely held.2.2⟩

/-- The protocol keeps what a task owes and knows, at every call but the wait for a
message. -/
theorem Abiding.standing (abiding : Abiding task fact) (due : WebSocket → P.Doc) :
    Standing (deliveryProtocol P) Working task (Owing task due fact) where
  idle _ view other _ := ⟨ViewRely.refl other view, rfl⟩
  stable rely _ owing := ⟨rely.owes.trans owing.1, abiding _ _ rely.toViewRely owing.2⟩
  parked working _ receives := absurd receives working

/-- A task that owes nothing may wait for a message. -/
theorem Abiding.waiting (abiding : Abiding task fact) :
    Standing (deliveryProtocol P) (fun _ => True) task (Owing task ⊥ fact) where
  idle _ view other _ := ⟨ViewRely.refl other view, rfl⟩
  stable rely _ owing := ⟨rely.owes.trans owing.1, abiding _ _ rely.toViewRely owing.2⟩
  parked _ owing _ := owing.1

/-- What is known besides does not matter. -/
theorem deliveries_of_view {assertion : Debts P → ServerState P → Prop} {program : ServerProgram P α}
    (holds : Preserves ((deliveryProtocol P).over deliveryView) allows task assertion program) :
    Preserves (serverDeliveries P) allows task assertion program :=
  holds.assuming fun _ _ => trivial

/-! ### Operations that the protocol does not see -/

section Unseen

variable (abiding : Abiding task fact)

include abiding

theorem query_deliveries : Queries (serverDeliveries P) allows task (Stands task due fact) :=
  fun β value => deliveries_of_view (silent_query (abiding.standing due) β value)

theorem modifyGet_deliveries {update : ServerState P → α × ServerState P}
    (same : ∀ server, deliveryView (update server).2 = deliveryView server) :
    Preserves (serverDeliveries P) allows task (Stands task due fact)
      (modifyGet update : ServerProgram P α) :=
  deliveries_of_view ((abiding.standing due).modifyGet same)

theorem operation_deliveries {call : Call} (working : Working call)
    {effect : ServerState P → ServerState P}
    (same : ∀ server, deliveryView (effect server) = deliveryView server) :
    Preserves (serverDeliveries P) allows task (Stands task due fact) (operation call effect) :=
  deliveries_of_view (silent_operation (abiding.standing due) working same)

theorem commit_deliveries {effect : ServerState P → Option (ServerState P)}
    (same : ∀ server after, effect server = some after → deliveryView after = deliveryView server) :
    Preserves (serverDeliveries P) allows task (Stands task due fact) (commit effect) :=
  deliveries_of_view (silent_commit (abiding.standing due) same)

/-- A step that changes the view, but not what is owed. -/
theorem Stands.step (knows : Stands task due fact debts server)
    (inv : DeliveryInv debts (deliveryView server'))
    (rely : ViewRely task (deliveryView server) (deliveryView server')) :
    Stands task due fact debts server' :=
  ⟨inv, knows.2.1, abiding _ _ rely knows.2.2⟩

theorem close_deliveries : Closes (serverDeliveries P) allows task (Stands task due fact) := by
  intro websocket code reason
  have rely : ∀ (server : ServerState P) (other : TaskId), ViewRely other (deliveryView server)
      (deliveryView (sendClose websocket code reason server)) := by
    intro server other
    refine ⟨fun held => ⟨held, rfl⟩, Iff.rfl, ?_⟩
    change (server.peers other).replica ≤ (Function.update server.peers websocket _ other).replica
    rw [Function.update_apply]
    split
    · next same => exact (congrArg (fun id => (server.peers id).replica) same).le
    · exact le_rfl
  have inv : ∀ {debts : Debts P} {server : ServerState P}, DeliveryInv debts (deliveryView server) →
      DeliveryInv debts (deliveryView (sendClose websocket code reason server)) :=
    fun inv => inv.setPeer (fun _ below => below) rfl
  refine .awaitCall (fun debts server knows => ⟨knows.1, nofun⟩) ?_
  intro debts server debts₁ server₁ knows relies inv₁ _ event result server₂ _ taken
  have after : Stands task due fact debts₁ server₁ :=
    ⟨inv₁, (abiding.standing due).stable relies inv₁ knows.2⟩
  refine ⟨debts₁, ?_⟩
  cases event with
  | received message => cases taken
  | raised =>
      obtain ⟨-, rfl⟩ := Prod.mk.inj (Option.some.inj taken)
      exact ⟨fun other _ => ⟨ViewRely.refl _ _, rfl⟩, after⟩
  | done | raisedAfter =>
      obtain ⟨-, rfl⟩ := Prod.mk.inj (Option.some.inj taken)
      exact ⟨fun other _ => ⟨rely server₁ other, rfl⟩,
        Stands.step abiding after (inv after.1) (rely server₁ task)⟩

end Unseen

/-! ### Frames -/

/-- A send to a connection in the room that is not marked revoked succeeds. -/
def SendsSucceed (allows : ServerState P → Call → Event P → Prop) : Prop :=
  ∀ server sender recipient event, allows server (.sendBytes sender recipient) event →
    (∃ connection ∈ server.connections, connection.websocket = recipient) →
      server.revokedConnections recipient = none → event = .done

/-- What a task owes once it has come to a connection. -/
def paid (due : WebSocket → P.Doc) (websocket : WebSocket) : WebSocket → P.Doc :=
  Function.update due websocket ⊥

/-- The other tasks see nothing of what a task owes. -/
theorem rely_settle (due : WebSocket → P.Doc) (different : task ≠ other)
    (rely : ViewRely other (deliveryView server) (deliveryView server')) :
    DeliveryRely other debts (deliveryView server) (Function.update debts task due)
      (deliveryView server') :=
  ⟨rely, Function.update_of_ne different.symm _ _⟩

private theorem rely_send (websocket : WebSocket) (frame : ServerFrame P) :
    ViewRely other (deliveryView server) (deliveryView (server.send websocket frame)) := by
  refine ⟨fun held => ⟨held, rfl⟩, Iff.rfl, ?_⟩
  change (server.peers other).replica ≤ (Function.update server.peers websocket _ other).replica
  rw [Function.update_apply]
  split
  · next same => exact (congrArg (fun id => (server.peers id).replica) same).le
  · exact le_rfl

/-- A frame is sent that has been passed: the connection is not owed it any more. -/
theorem wp_send_deliveries (abiding : Abiding task fact) (succeed : SendsSucceed allows)
    {websocket : WebSocket} {frame : ServerFrame P}
    (covers : due websocket ≤ Peer.frameContent frame)
    (replies : ∀ update, frame = .syncStep2 update → ∀ view, fact view → view.answered websocket)
    (knows : Stands task due fact debts server) :
    wp (serverDeliveries P) allows task
      (operation (.sendBytes task websocket) (ServerState.send websocket frame))
      (fun _ => Stands task (paid due websocket) fact) debts server := by
  refine wp_awaitCall knows.1 nofun ?_
  intro debts₁ server₁ relies inv₁ _ event result server₂ allowed taken
  have after : Stands task due fact debts₁ server₁ :=
    ⟨inv₁, (abiding.standing due).stable relies inv₁ knows.2⟩
  have owes : debts₁ task websocket ≤ Peer.frameContent frame := by
    rw [after.2.1]
    exact covers
  have settled : Function.update (debts₁ task) websocket ⊥ = paid due websocket := by
    rw [after.2.1, paid]
  have sends : DeliveryInv (Function.update debts₁ task (paid due websocket))
      (deliveryView (server₁.send websocket frame)) := by
    rw [← settled]
    exact after.1.send owes fun update same => replies update same _ after.2.2
  cases event with
  | received message => cases taken
  | done | raisedAfter =>
      obtain ⟨-, rfl⟩ := Prod.mk.inj (Option.some.inj taken)
      exact ⟨_, fun other different => rely_settle _ different (rely_send websocket frame),
        sends, Function.update_self _ _ _, abiding _ _ (rely_send websocket frame) after.2.2⟩
  | raised =>
      obtain ⟨-, rfl⟩ := Prod.mk.inj (Option.some.inj taken)
      refine ⟨_, fun other different => rely_settle (paid due websocket) different
        (ViewRely.refl _ _), after.1.settle _ ?_, Function.update_self _ _ _, after.2.2⟩
      -- The send may only raise where the connection is not served.
      intro other served _ bound _ owed
      rw [after.2.1]
      unfold paid at owed
      by_cases own : other = websocket
      · subst own
        have unmarked : server₁.revokedConnections other = none := by
          by_contra marked
          exact served.2 (after.1.marked other marked)
        exact nomatch succeed server₁ task other .raised allowed served.1 unmarked
      · rwa [Function.update_of_ne own] at owed

/-- A frame that answers no sync step 1. -/
def ServerFrame.IsAnswer : ServerFrame P → Prop
  | .syncStep2 _ => True
  | _ => False

/-- Only a fence and the answer to a sync step 1 are seen on the wire. -/
theorem deliveryView_note {event : WireEvent P} (noFence : ∀ websocket, event ≠ .fenced websocket)
    (noAnswer : ∀ websocket update, event ≠ .passed websocket (.syncStep2 update))
    (server : ServerState P) : deliveryView (server.note event) = deliveryView server := by
  have fenced : ∀ websocket, .fenced websocket ∈ (server.note event).wire ↔
      .fenced websocket ∈ server.wire := fun websocket =>
    List.mem_cons.trans (or_iff_right fun same => noFence websocket same.symm)
  have answered : ∀ websocket, Answered websocket (server.note event) ↔ Answered websocket server :=
    fun websocket => exists_congr fun update =>
      List.mem_cons.trans (or_iff_right fun same => noAnswer websocket update same.symm)
  simp only [deliveryView, fenced, answered]
  rfl

theorem note_deliveries (abiding : Abiding task fact) {event : WireEvent P}
    (noFence : ∀ websocket, event ≠ .fenced websocket)
    (noAnswer : ∀ websocket update, event ≠ .passed websocket (.syncStep2 update)) :
    Preserves (serverDeliveries P) allows task (Stands task due fact)
      (modify (ServerState.note event) : ServerProgram P PUnit) :=
  modifyGet_deliveries abiding (deliveryView_note noFence noAnswer)

private theorem wp_sendBytes_deliveries (abiding : Abiding task fact)
    (succeed : SendsSucceed allows)
    {websocket : WebSocket} {frame : ServerFrame P} (plain : ¬frame.IsAnswer)
    (covers : due websocket ≤ Peer.frameContent frame)
    (knows : Stands task due fact debts server) :
    wp (serverDeliveries P) allows task (sendBytes task websocket frame)
      (fun _ => Stands task (paid due websocket) fact) debts server := by
  unfold sendBytes
  rw [wp_bind]
  have same : deliveryView (server.note (.passed websocket frame)) = deliveryView server := by
    refine @deliveryView_note P (.passed websocket frame) nofun (fun _ update passed => ?_) server
    obtain ⟨-, rfl⟩ := WireEvent.passed.inj passed
    exact plain trivial
  refine wp_modify debts (fun other _ => ⟨?_, rfl⟩) ?_
  · rw [same]
    exact ViewRely.refl _ _
  · rw [thenPost_ok]
    refine wp_send_deliveries abiding succeed covers ?_ (knows.of_same same)
    rintro update rfl
    exact absurd trivial plain

/-- A frame without an answer to a sync step 1, by a task that owes nothing. -/
theorem reply_deliveries (abiding : Abiding task fact) (succeed : SendsSucceed allows)
    (websocket : WebSocket) {frame : ServerFrame P} (plain : ¬frame.IsAnswer) :
    Preserves (serverDeliveries P) allows task (Stands task ⊥ fact)
      (sendBytes task websocket frame) := by
  intro debts server knows
  have nothing : paid (⊥ : WebSocket → P.Doc) websocket = ⊥ := Function.update_eq_self _ _
  have sends : wp (serverDeliveries P) allows task (sendBytes task websocket frame)
      (fun _ => Stands task (paid ⊥ websocket) fact) debts server :=
    wp_sendBytes_deliveries abiding succeed plain bot_le knows
  rwa [nothing] at sends

/-! ### Broadcasts -/

/-- The connections that a broadcast has yet to come to are owed its frame at most, and
nobody else is owed anything. -/
structure OwedAmong (frame : ServerFrame P) (connections : List ConnectionInfo)
    (due : WebSocket → P.Doc) : Prop where
  within : ∀ websocket, due websocket ≤ Peer.frameContent frame
  nothing : ∀ websocket, (∀ connection ∈ connections, connection.websocket ≠ websocket) →
    due websocket = ⊥

theorem OwedAmong.paid {frame : ServerFrame P} {connection : ConnectionInfo}
    {rest : List ConnectionInfo} (owed : OwedAmong frame (connection :: rest) due) :
    OwedAmong frame rest (paid due connection.websocket) where
  within websocket := by
    unfold Server.paid
    rw [Function.update_apply]
    split
    · exact bot_le
    · exact owed.within websocket
  nothing websocket absent := by
    unfold Server.paid
    rw [Function.update_apply]
    split
    · rfl
    · next different =>
        refine owed.nothing websocket fun other member => ?_
        rcases List.mem_cons.mp member with rfl | later
        · exact fun equal => different equal.symm
        · exact absent other later

/-- The task owes this from its next step on. -/
def Settles (task : TaskId) (due : WebSocket → P.Doc) (fact : DeliveryView P → Prop)
    (debts : Debts P) (server : ServerState P) : Prop :=
  DeliveryInv (Function.update debts task due) (deliveryView server) ∧ fact (deliveryView server)

theorem Stands.settles (knows : Stands task due fact debts server) :
    Settles task due fact debts server := by
  refine ⟨?_, knows.2.2⟩
  rw [← knows.2.1, Function.update_eq_self]
  exact knows.1

theorem Settles.stands (settles : Settles task due fact debts server) :
    Stands task due fact (Function.update debts task due) server :=
  ⟨settles.1, Function.update_self _ _ _, settles.2⟩

/-- A task that owes something else from its next step on. -/
theorem Stands.settle (knows : Stands task due fact debts server) (less : WebSocket → P.Doc)
    (covers : ∀ websocket, (deliveryView server).Served websocket →
      (deliveryView server).answered websocket → ∀ bound,
        (server.peers websocket).Below bound → less websocket ≤ bound → due websocket ≤ bound) :
    Settles task less fact debts server := by
  refine ⟨knows.1.settle less ?_, knows.2.2⟩
  rw [knows.2.1]
  exact covers

/-- The loop of a broadcast pays off what its task owes. -/
theorem broadcastTo_deliveries (abiding : Abiding task fact) (succeed : SendsSucceed allows)
    {frame : ServerFrame P} (plain : ¬frame.IsAnswer) (connections : List ConnectionInfo)
    (owed : OwedAmong frame connections due) (settles : Settles task due fact debts server) :
    wp (serverDeliveries P) allows task (broadcastTo task frame connections)
      (fun _ => Stands task ⊥ fact) debts server := by
  induction connections generalizing due debts server with
  | nil =>
      obtain rfl : due = ⊥ := funext fun websocket => owed.nothing websocket nofun
      exact wp_modify _ (fun other different => rely_settle _ different (ViewRely.refl _ _))
        settles.stands
  | cons connection rest inductionHypothesis =>
      have knows := settles.stands
      unfold broadcastTo
      rw [wp_bind]
      refine wp_modify (Function.update debts task due)
        (fun other different => rely_settle due different (ViewRely.refl _ _)) ?_
      rw [thenPost_ok, wp_bind, wp_get, thenPost_ok]
      split
      · next marked =>
          have revoked : server.revokedConnections connection.websocket ≠ none :=
            Option.isSome_iff_ne_none.mp marked
          -- A connection that is marked revoked is not served.
          refine inductionHypothesis owed.paid (knows.settle _ fun other served _ bound _ owes => ?_)
          unfold paid at owes
          by_cases own : other = connection.websocket
          · subst own
            exact absurd (knows.1.marked _ revoked) served.2
          · rwa [Function.update_of_ne own] at owes
      · rw [wp_bind, wp_tryExcept]
        refine wp_mono ?_ (wp_sendBytes_deliveries abiding succeed plain (owed.within _) knows)
        intro result debts₁ server₁ after
        cases result <;> exact inductionHypothesis owed.paid after.settles

/-- A broadcast to the room, by a task that owes its frame to everyone. -/
theorem broadcastBinary_deliveries (abiding : Abiding task fact) (succeed : SendsSucceed allows)
    {frame : ServerFrame P} (plain : ¬frame.IsAnswer)
    (knows : Stands task (fun _ => Peer.frameContent frame) fact debts server) :
    wp (serverDeliveries P) allows task (broadcastBinary task frame)
      (fun _ => Stands task ⊥ fact) debts server := by
  -- The room is captured at this step, and nobody else is served.
  let captured : WebSocket → P.Doc := fun websocket =>
    if websocket ∈ server.connections.map (·.websocket) then Peer.frameContent frame else ⊥
  have owed : OwedAmong frame server.connections captured := by
    refine ⟨fun websocket => ?_, fun websocket absent => if_neg fun member => ?_⟩
    · dsimp only [captured]
      split
      · exact le_rfl
      · exact bot_le
    · obtain ⟨connection, there, own⟩ := List.mem_map.mp member
      exact absent connection there own
  refine broadcastTo_deliveries abiding succeed plain server.connections owed
    (knows.settle captured fun websocket served _ bound _ owes => ?_)
  obtain ⟨⟨connection, member, own⟩, _⟩ := served
  have there : websocket ∈ server.connections.map (·.websocket) :=
    List.mem_map.mpr ⟨connection, member, own⟩
  exact (if_pos there : captured websocket = Peer.frameContent frame) ▸ owes

/-- A broadcast of a frame without an update. -/
theorem broadcastBinary_silent (abiding : Abiding task fact) (succeed : SendsSucceed allows)
    {frame : ServerFrame P} (empty : frame.update = none) :
    Preserves (serverDeliveries P) allows task (Stands task ⊥ fact) (broadcastBinary task frame) := by
  intro debts server knows
  have plain : ¬frame.IsAnswer := by
    cases frame with
    | syncStep2 update => cases empty
    | _ => exact id
  have nothing : (fun _ => Peer.frameContent frame : WebSocket → P.Doc) = ⊥ := by
    unfold Peer.frameContent
    rw [empty]
    rfl
  refine broadcastBinary_deliveries abiding succeed plain ?_
  rwa [nothing]

end Concord.Server

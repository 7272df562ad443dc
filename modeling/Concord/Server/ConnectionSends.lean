import Concord.Server.ConnectionSteps

/-!
Contract: sends, broadcasts and the room lock under the connection protocol.

Owns:
- `OpenSend` and `Rechecks`, the sends that are not resumed into a fence;
- one frame that is passed to a connection, and a broadcast to the room;
- `Owes`, a change of the awareness whose broadcast has not begun;
- the section under the room lock.

Does not own: the handlers.
-/

set_option autoImplicit false

namespace Concord.Server

open Asyncio Collaboration ServerState

variable {P : Platform} {α : Type} {strict : Prop} {task other : TaskId}
  {before after view : ConnectionView P} {server : ServerState P}
  {allows : ServerState P → Call → Event P → Prop} {fact : ConnectionView P → Prop}

/-! ### Sends -/

theorem Lasting.setBroadcast (lasting : Lasting task fact) (known : fact view) (sender : TaskId)
    (broadcast : Option (Broadcast P)) : fact (view.setBroadcast sender broadcast) :=
  lasting.respects view _ rfl rfl rfl rfl rfl (fun _ => .inr) known

theorem Lasting.passed (lasting : Lasting task fact) (known : fact view) (websocket : WebSocket)
    (frame : ServerFrame P) : fact (view.note (.passed websocket frame)) := by
  refine lasting.respects view _ rfl rfl rfl rfl rfl (fun event member => ?_) known
  rcases List.mem_cons.mp member with rfl | there
  · exact .inl ⟨websocket, frame, rfl⟩
  · exact .inr there

/-- A resumed send leads to no fence: a handshake that has more to send has not
been fenced, and neither has the connection that a broadcast comes to next. -/
structure OpenSend (sender recipient : TaskId) (event : Event P) (view : ConnectionView P) :
    Prop where
  handshake : sender = recipient → event = .done → .greeted sender ∉ view.wire →
    .reported sender ∉ view.wire ∨ AwarenessStates.activeEntries view.awareness ≠ [] →
      .fenced sender ∉ view.wire
  broadcast : ∀ running connection, view.broadcasts sender = some running →
    view.recipient running.remaining = some connection →
      .fenced connection.websocket ∉ view.wire

/-- In a strict run every resumed send is open. -/
def Rechecks (strict : Prop) (allows : ServerState P → Call → Event P → Prop) : Prop :=
  strict → ∀ server sender recipient event, allows server (.sendBytes sender recipient) event →
    OpenSend sender recipient event (connectionView server)

/-- A frame is passed, and its send is resumed. -/
theorem wp_sendBytes {known : Unit → ConnectionView P → Prop} {websocket : WebSocket}
    {frame : ServerFrame P}
    (standing : Standing (connectionProtocol P strict) (· = .sendBytes task websocket) task known)
    (rechecks : Rechecks strict allows)
    (noted : (connectionProtocol P strict).Knows connectionView known ()
      (server.note (.passed websocket frame))) :
    wp (serverConnections P strict) allows task (sendBytes task websocket frame)
      (fun result ghost server =>
        (connectionProtocol P strict).Knows connectionView known ghost server ∧
          (strict → ∃ event, OpenSend task websocket event (connectionView server) ∧
            (result = .ok () → event = .done))) () server := by
  unfold sendBytes
  rw [wp_bind]
  refine wp_modify () (fun other _ => rely_passed websocket frame) ?_
  rw [thenPost_ok]
  refine wp_awaitCall noted.1 (standing.parked rfl noted.2) ?_
  intro _ server₁ rely inv _ event result server₂ allowed taken
  have after : (connectionProtocol P strict).Knows connectionView known () server₁ :=
    ⟨inv, standing.stable rely inv noted.2⟩
  have resumed : strict → OpenSend task websocket event (connectionView server₁) :=
    fun isStrict => rechecks isStrict server₁ task websocket event allowed
  refine ⟨(), ?_⟩
  cases event with
  | received message => cases taken
  | done =>
      obtain ⟨rfl, rfl⟩ := Prod.mk.inj (Option.some.inj taken)
      exact ⟨fun other _ => ConnectionRely.refl _ _, after.of_same rfl,
        fun isStrict => ⟨.done, resumed isStrict, fun _ => rfl⟩⟩
  | raised =>
      obtain ⟨rfl, rfl⟩ := Prod.mk.inj (Option.some.inj taken)
      exact ⟨fun other _ => ConnectionRely.refl _ _, after,
        fun isStrict => ⟨.raised, resumed isStrict, nofun⟩⟩
  | raisedAfter =>
      obtain ⟨rfl, rfl⟩ := Prod.mk.inj (Option.some.inj taken)
      exact ⟨fun other _ => ConnectionRely.refl _ _, after.of_same rfl,
        fun isStrict => ⟨.raisedAfter, resumed isStrict, nofun⟩⟩

/-- A frame without awareness. -/
theorem ConnectionInv.pass {websocket : WebSocket} {frame : ServerFrame P}
    (inv : ConnectionInv strict view) (joined : view.joined websocket = true)
    (plain : ServerFrame.entries frame = []) (clear : strict → .fenced websocket ∉ view.wire) :
    ConnectionInv strict (view.note (.passed websocket frame)) := by
  refine inv.rewire rfl rfl rfl rfl ?_ ?_ ?_ ?_
  · intro event member
    rcases List.mem_cons.mp member with rfl | there
    · exact .inl ⟨websocket, frame, rfl⟩
    · exact .inr there
  · rintro other sent (passed | running)
    · rcases List.mem_cons.mp passed with equal | there
      · obtain ⟨rfl, rfl⟩ := WireEvent.passed.inj equal
        exact .inr ⟨joined, plain⟩
      · exact .inl (.inl there)
    · exact .inl (.inr running)
  · rintro other _ entry ⟨sent, toward, carried⟩
    exact ⟨sent, toward.imp (List.mem_cons_of_mem _) id, carried⟩
  · intro isStrict
    refine List.pairwise_cons.mpr ⟨?_, inv.ordered isStrict⟩
    rintro event member other sent equal rfl
    obtain ⟨rfl, -⟩ := WireEvent.passed.inj equal
    exact clear isStrict member

/-- A broadcast has come to its end. -/
theorem ConnectionInv.finish {frame : ServerFrame P}
    (inv : ConnectionInv strict (view.setBroadcast task (some ⟨frame, []⟩))) :
    ConnectionInv strict (view.setBroadcast task none) := by
  have sent : ∀ websocket other, (view.setBroadcast task none).Addressed websocket other ↔
      (view.setBroadcast task (some ⟨frame, []⟩)).Addressed websocket other := by
    intro websocket other
    refine or_congr Iff.rfl (exists_congr fun sender => ?_)
    by_cases own : sender = task
    · subst own
      simp
    · rw [ConnectionView.setBroadcast_of_ne own, ConnectionView.setBroadcast_of_ne own]
  refine inv.rewire rfl rfl rfl rfl (fun _ => .inr) (fun _ _ toward => .inl ((sent _ _).mp toward))
    ?_ inv.ordered
  rintro websocket _ entry ⟨other, toward, carried⟩
  exact ⟨other, (sent _ _).mpr toward, carried⟩

/-- The frames for a connection, where the broadcast of a task has one more to go. -/
theorem addressed_cons (frame : ServerFrame P) (connection : ConnectionInfo)
    (rest : List ConnectionInfo) (websocket : WebSocket) (other : ServerFrame P) :
    (view.setBroadcast task (some ⟨frame, connection :: rest⟩)).Addressed websocket other ↔
      (view.setBroadcast task (some ⟨frame, rest⟩)).Addressed websocket other ∨
        frame = other ∧ connection.websocket = websocket := by
  constructor
  · rintro (passed | ⟨sender, found, running, equal, target, member, own⟩)
    · exact .inl (.inl passed)
    · by_cases mine : sender = task
      · subst mine
        rw [ConnectionView.setBroadcast_self] at running
        obtain rfl := Option.some.inj running
        rcases List.mem_cons.mp member with rfl | later
        · exact .inr ⟨equal, own⟩
        · exact .inl (.inr ⟨sender, _, ConnectionView.setBroadcast_self _ _ _, equal, target,
            later, own⟩)
      · rw [ConnectionView.setBroadcast_of_ne mine] at running
        exact .inl (.inr ⟨sender, found,
          (ConnectionView.setBroadcast_of_ne mine _ _).trans running, equal, target, member, own⟩)
  · rintro ((passed | ⟨sender, found, running, equal, target, member, own⟩) | ⟨equal, own⟩)
    · exact .inl passed
    · by_cases mine : sender = task
      · subst mine
        rw [ConnectionView.setBroadcast_self] at running
        obtain rfl := Option.some.inj running
        exact .inr ⟨sender, _, ConnectionView.setBroadcast_self _ _ _, equal, target,
          List.mem_cons_of_mem _ member, own⟩
      · rw [ConnectionView.setBroadcast_of_ne mine] at running
        exact .inr ⟨sender, found, (ConnectionView.setBroadcast_of_ne mine _ _).trans running,
          equal, target, member, own⟩
    · exact .inr ⟨task, _, ConnectionView.setBroadcast_self _ _ _, equal, connection,
        List.mem_cons_self, own⟩

/-- A broadcast passes over a connection that is marked revoked. -/
theorem ConnectionInv.skip {frame : ServerFrame P} {connection : ConnectionInfo}
    {rest : List ConnectionInfo}
    (inv : ConnectionInv strict (view.setBroadcast task (some ⟨frame, connection :: rest⟩)))
    (revoked : view.revokedConnections connection.websocket ≠ none) :
    ConnectionInv strict (view.setBroadcast task (some ⟨frame, rest⟩)) := by
  refine inv.rewire rfl rfl rfl rfl (fun _ => .inr)
    (fun _ _ toward => .inl ((addressed_cons _ _ _ _ _).mpr (.inl toward))) ?_ inv.ordered
  rintro websocket unmarked entry ⟨other, toward, carried⟩
  rcases (addressed_cons _ _ _ _ _).mp toward with stays | ⟨_, rfl⟩
  · exact ⟨other, stays, carried⟩
  · exact absurd unmarked revoked

/-- A broadcast passes its frame to the next connection. -/
theorem ConnectionInv.deliver {frame : ServerFrame P} {connection : ConnectionInfo}
    {rest : List ConnectionInfo}
    (inv : ConnectionInv strict (view.setBroadcast task (some ⟨frame, connection :: rest⟩)))
    (clear : strict → .fenced connection.websocket ∉ view.wire) :
    ConnectionInv strict ((view.setBroadcast task (some ⟨frame, rest⟩)).note
      (.passed connection.websocket frame)) := by
  refine inv.rewire rfl rfl rfl rfl ?_ ?_ ?_ ?_
  · intro event member
    rcases List.mem_cons.mp member with rfl | there
    · exact .inl ⟨connection.websocket, frame, rfl⟩
    · exact .inr there
  · rintro websocket other (passed | running)
    · rcases List.mem_cons.mp passed with equal | there
      · obtain ⟨rfl, rfl⟩ := WireEvent.passed.inj equal
        exact .inl ((addressed_cons _ _ _ _ _).mpr (.inr ⟨rfl, rfl⟩))
      · exact .inl (.inl there)
    · exact .inl ((addressed_cons _ _ _ _ _).mpr (.inl (.inr running)))
  · rintro websocket _ entry ⟨other, toward, carried⟩
    refine ⟨other, ?_, carried⟩
    rcases (addressed_cons _ _ _ _ _).mp toward with (passed | running) | ⟨rfl, rfl⟩
    · exact .inl (List.mem_cons_of_mem _ passed)
    · exact .inr running
    · exact .inl List.mem_cons_self
  · intro isStrict
    refine List.pairwise_cons.mpr ⟨?_, inv.ordered isStrict⟩
    rintro event member websocket other equal rfl
    obtain ⟨rfl, -⟩ := WireEvent.passed.inj equal
    exact clear isStrict member

/-- The loop of a broadcast, where the invariant counts the broadcast as under way. -/
theorem broadcastTo_connections (lasting : Lasting task fact) (rechecks : Rechecks strict allows)
    (frame : ServerFrame P) (connections : List ConnectionInfo) (ghost : Unit)
    (server : ServerState P)
    (inv : ConnectionInv strict
      ((connectionView server).setBroadcast task (some ⟨frame, connections⟩)))
    (known : fact (connectionView server))
    (clear : strict → ∀ connection, (connectionView server).recipient connections = some connection →
      .fenced connection.websocket ∉ server.wire) :
    wp (serverConnections P strict) allows task (broadcastTo task frame connections)
      (fun _ => Rests strict task fact) ghost server := by
  induction connections generalizing server with
  | nil =>
      refine wp_modify () (fun other different => rely_setBroadcast different none) ?_
      exact ⟨inv.finish, lasting.setBroadcast known task none,
        ConnectionView.setBroadcast_self task none (connectionView server)⟩
  | cons connection rest inductionHypothesis =>
      unfold broadcastTo
      rw [wp_bind]
      refine wp_modify () (fun other different => rely_setBroadcast different _) ?_
      rw [thenPost_ok, wp_bind, wp_get, thenPost_ok]
      let started := server.setBroadcast task (some ⟨frame, rest⟩)
      have known' : fact (connectionView started) :=
        lasting.setBroadcast known task (some ⟨frame, rest⟩)
      have again : ∀ broadcast, (connectionView started).setBroadcast task broadcast =
          (connectionView server).setBroadcast task broadcast :=
        fun broadcast => ConnectionView.setBroadcast_twice task (some ⟨frame, rest⟩) broadcast
          (connectionView server)
      split
      · next marked =>
          have revoked : server.revokedConnections connection.websocket ≠ none :=
            Option.isSome_iff_ne_none.mp marked
          refine inductionHypothesis started ?_ known' ?_
          · rw [again]
            exact inv.skip revoked
          · intro isStrict next found
            refine clear isStrict next ?_
            unfold ConnectionView.recipient
            rw [List.find?_cons_of_neg]
            · exact found
            · have isMarked : (server.revokedConnections connection.websocket).isSome = true := marked
              simp [connectionView, isMarked]
      · next unmarked =>
          have isFirst : (connectionView server).recipient (connection :: rest) = some connection := by
            unfold ConnectionView.recipient
            rw [List.find?_cons_of_pos]
            have isOpen : ¬(server.revokedConnections connection.websocket).isSome = true := unmarked
            simp [connectionView, isOpen]
          have noted : ConnectionInv strict
              (connectionView (started.note (.passed connection.websocket frame))) :=
            inv.deliver fun isStrict => clear isStrict connection isFirst
          have standing : Standing (connectionProtocol P strict)
              (· = .sendBytes task connection.websocket) task
              fun _ view => fact view ∧ view.broadcasts task = some ⟨frame, rest⟩ :=
            { idle := fun _ view other _ => ConnectionRely.refl other view
              stable := fun rely _ both =>
                ⟨lasting.stable rely both.1, rely.broadcast.trans both.2⟩
              parked := fun waits _ other => absurd waits (other _ _) }
          rw [wp_bind, wp_tryExcept]
          refine wp_mono ?_ (wp_sendBytes standing rechecks ⟨noted,
            lasting.passed known' connection.websocket frame,
            ConnectionView.setBroadcast_self task (some ⟨frame, rest⟩) (connectionView server)⟩)
          rintro result ghost server₁ ⟨knows, resumed⟩
          have rest' : wp (serverConnections P strict) allows task (broadcastTo task frame rest)
              (fun _ => Rests strict task fact) ghost server₁ := by
            refine inductionHypothesis server₁ ?_ knows.2.1 ?_
            · rw [ConnectionView.setBroadcast_eq knows.2.2]
              exact knows.1
            · intro isStrict next found
              obtain ⟨event, isOpen, _⟩ := resumed isStrict
              exact isOpen.broadcast _ next knows.2.2 found
          cases result <;> exact rest'

/-- A connection of the room that is not marked revoked has not been fenced. -/
theorem ConnectionInv.open_of_recipient (inv : ConnectionInv strict view)
    {connection : ConnectionInfo} (found : view.recipient view.connections = some connection) :
    .fenced connection.websocket ∉ view.wire := by
  intro marked
  have member : connection ∈ view.connections := List.mem_of_find?_eq_some found
  have isOpen := List.find?_some found
  refine inv.fenced connection.websocket marked ⟨connection, member, rfl⟩ ?_
  simpa using isOpen

/-- A broadcast of a frame without awareness. -/
theorem broadcastBinary_connections (lasting : Lasting task fact)
    (rechecks : Rechecks strict allows) (frame : ServerFrame P)
    (plain : ServerFrame.entries frame = []) :
    Preserves (serverConnections P strict) allows task (Rests strict task fact)
      (broadcastBinary task frame) := by
  intro ghost server knows
  refine broadcastTo_connections lasting rechecks frame server.connections ghost server ?_
    knows.2.1 fun _ connection found => knows.1.open_of_recipient found
  refine knows.1.rewire rfl rfl rfl rfl (fun _ => .inr) ?_ ?_ knows.1.ordered
  · intro websocket other toward
    rcases (addressed_setBroadcast knows.2.2 _ _ _).mp toward with older | ⟨rfl, member⟩
    · exact .inl older
    · exact .inr ⟨knows.1.noted websocket member, plain⟩
  · rintro websocket _ entry ⟨other, toward, carried⟩
    exact ⟨other, (addressed_setBroadcast knows.2.2 _ _ _).mpr (.inl toward), carried⟩

/-- The awareness has changed, and the task owes the room a broadcast that tells
of it. -/
def Owes (strict : Prop) (task : TaskId) (fact : ConnectionView P → Prop)
    (news : List (AwarenessEntry P)) (server : ServerState P) : Prop :=
  ConnectionInv strict ((connectionView server).setBroadcast task
      (some ⟨.awareness news, server.connections⟩)) ∧
    fact (connectionView server) ∧ server.broadcasts task = none

/-- Nothing is owed where nothing has changed. -/
theorem owes_nil {ghost : Unit} (knows : Rests strict task fact ghost server) :
    Owes strict task fact [] server :=
  ⟨knows.1.advance knows.2.2 knows.1.kept (.refl _) (fun _ member => ⟨member, rfl⟩) rfl rfl rfl,
    knows.2⟩

/-- A broadcast that is owed. -/
theorem broadcastAwareness_connections (lasting : Lasting task fact)
    (rechecks : Rechecks strict allows) {news : List (AwarenessEntry P)} (ghost : Unit)
    (owes : Owes strict task fact news server) :
    wp (serverConnections P strict) allows task (broadcastAwareness task news)
      (fun _ => Rests strict task fact) ghost server := by
  obtain ⟨inv, known, idle⟩ := owes
  unfold broadcastAwareness
  split
  · next empty =>
      obtain rfl : news = [] := List.isEmpty_iff.mp empty
      refine ⟨?_, known, idle⟩
      have nobody : ∀ websocket other, (connectionView server).Addressed websocket other →
          ((connectionView server).setBroadcast task
            (some ⟨.awareness [], server.connections⟩)).Addressed websocket other :=
        fun websocket other toward => (addressed_setBroadcast idle _ _ _).mpr (.inl toward)
      refine inv.rewire rfl rfl rfl rfl (fun _ => .inr)
        (fun websocket other toward => .inl (nobody websocket other toward)) ?_ inv.ordered
      rintro websocket _ entry ⟨other, toward, carried⟩
      rcases (addressed_setBroadcast idle _ _ _).mp toward with older | ⟨rfl, _⟩
      · exact ⟨other, older, carried⟩
      · cases carried
  · exact broadcastTo_connections lasting rechecks _ server.connections ghost server inv known
      fun _ connection found => inv.open_of_recipient found

/-- A change of the awareness by a task, and the broadcast that tells of it. -/
theorem awareness_connections {update : ServerState P → List (AwarenessEntry P) × ServerState P}
    (lasting : Lasting task fact) (rechecks : Rechecks strict allows)
    (step : ∀ server : ServerState P, ConnectionInv strict (connectionView server) →
      fact (connectionView server) → ∃ states, connectionView (update server).2 =
          { connectionView server with awareness := states } ∧
        AwarenessStates.Kept (connectionView server).InRoom states ∧
        AwarenessStates.Advance server.awareness states (update server).1) :
    Preserves (serverConnections P strict) allows task (Rests strict task fact)
      (do broadcastAwareness task (← modifyGet update)) := by
  intro ghost server knows
  obtain ⟨states, changed, kept, advance⟩ := step server knows.1 knows.2.1
  rw [wp_bind]
  have guar : ∀ other, task ≠ other →
      ConnectionRely other (connectionView server) (connectionView (update server).2) := by
    intro other _
    rw [changed]
    exact rely_awareness states
  refine wp_modifyGet () guar ?_
  rw [thenPost_ok]
  apply broadcastAwareness_connections lasting rechecks
  have owed : ConnectionInv strict
      ({ connectionView server with awareness := states : ConnectionView P }.setBroadcast task
        (some ⟨.awareness (update server).1, server.connections⟩)) :=
    knows.1.advance knows.2.2 kept advance (fun _ member => ⟨member, rfl⟩) rfl rfl rfl
  have connections : (update server).2.connections = server.connections :=
    congrArg ConnectionView.connections changed
  have broadcasts : (update server).2.broadcasts task = none :=
    (congrFun (congrArg ConnectionView.broadcasts changed) task).trans knows.2.2
  refine ⟨?_, ?_, broadcasts⟩
  · rw [changed, connections]
    exact owed
  · rw [changed]
    exact lasting.respects (connectionView server) _ rfl rfl rfl rfl rfl (fun _ => .inr) knows.2.1

/-! ### The room lock -/

/-- A fact that does not depend on the room lock. -/
def LockApart (fact : ConnectionView P → Prop) : Prop :=
  ∀ view lock, fact view → fact { view with roomLock := lock }

theorem ConnectionInv.setRoomLock (inv : ConnectionInv strict view) (lock : Option TaskId) :
    ConnectionInv strict { view with roomLock := lock } :=
  ⟨inv.kept, inv.noted, inv.addressed, inv.greeted, inv.fenced, fun websocket member unmarked =>
    have informed := inv.informed websocket member unmarked
    ⟨informed.covered, informed.told, informed.shown⟩, inv.ordered⟩

/-- A section under the room lock. Its outcome is stated of the state in which the
lock has been given up. -/
theorem wp_withRoomLock_connections {post : Post Unit (ServerState P) Exn α}
    {body : ServerProgram P α} {ghost : Unit} (lasting : Lasting task fact) (apart : LockApart fact)
    (knows : Rests strict task fact ghost server)
    (holds : ∀ server : ServerState P, Rests strict task
        (fun view => fact view ∧ RoomHeld task server.connections view) () server →
      wp (serverConnections P strict) allows task body
        (fun result ghost server => server.roomLock = some task ∧
          post result ghost server.releaseRoomLock) () server) :
    wp (serverConnections P strict) allows task (withRoomLock task body) post ghost server := by
  have standing : Standing (connectionProtocol P strict) Working task (Resting task fact) :=
    lasting.standing
  have working : Working .roomLock := by decide
  unfold withRoomLock
  rw [wp_bind]
  refine wp_awaitUntil knows.1 (standing.parked working knows.2) ?_
  intro ghost₁ server₁ rely inv _ _ server₂ taken
  have resting : Resting task fact ghost₁ (connectionView server₁) :=
    standing.stable rely inv knows.2
  obtain ⟨known, idle⟩ := resting
  unfold acquireRoomLock at taken
  cases free : server₁.roomLock with
  | some holder => simp [free] at taken
  | none =>
      simp only [free, Option.some.injEq, Prod.mk.injEq, true_and] at taken
      subst taken
      refine ⟨(), fun other different => rely_roomLock different (some task) (.inl free), ?_⟩
      rw [thenPost_ok, wp_tryFinally]
      refine wp_mono ?_ (holds _ ⟨inv.setRoomLock (some task),
        ⟨apart (connectionView server₁) (some task) known, rfl, rfl⟩, idle⟩)
      rintro result _ server₃ ⟨held, after⟩
      refine wp_modify () (fun other different => ?_) after
      exact rely_roomLock different none (.inr held)

/-- A section under the room lock that keeps a fact. -/
theorem withRoomLock_connections {body : ServerProgram P α} (lasting : Lasting task fact)
    (apart : LockApart fact)
    (holds : ∀ connections, Preserves (serverConnections P strict) allows task
      (Rests strict task fun view => fact view ∧ RoomHeld task connections view) body) :
    Preserves (serverConnections P strict) allows task (Rests strict task fact)
      (withRoomLock task body) := by
  intro ghost server knows
  refine wp_withRoomLock_connections lasting apart knows fun server₁ held => ?_
  refine wp_mono ?_ (holds server₁.connections () server₁ held)
  rintro result ghost₂ server₂ ⟨inv, ⟨known, lock, _⟩, idle⟩
  exact ⟨lock, inv.setRoomLock none, apart _ none known, idle⟩

theorem lockApart_insideRoom : LockApart (InsideRoom task : ConnectionView P → Prop) :=
  fun _ _ inside => inside

theorem lockApart_outsideRoom : LockApart (OutsideRoom task : ConnectionView P → Prop) :=
  fun _ _ outside => outside

theorem lockApart_arriving : LockApart (Arriving task : ConnectionView P → Prop) :=
  fun _ _ arriving => arriving

end Concord.Server

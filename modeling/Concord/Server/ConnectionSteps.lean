import Concord.Server.Connections

/-!
Contract: the steps that the connection protocol sees.

Owns:
- what each step leaves to the other tasks;
- what each step keeps of the invariant.

While a task has changed the awareness and has not yet come to its first send, the
invariant is stated as if its broadcast were already under way.

Does not own: the sends, which wait between their steps.
-/

set_option autoImplicit false

namespace Concord.Server

open Asyncio Collaboration ServerState

variable {P : Platform} {α : Type} {strict : Prop} {task other : TaskId}
  {before after view : ConnectionView P} {server : ServerState P}
  {allows : ServerState P → Call → Event P → Prop} {fact : ConnectionView P → Prop}

abbrev serverConnections (P : Platform) (strict : Prop) : Logic Unit (ServerState P) Call :=
  (connectionProtocol P strict).over connectionView

/-- The invariant and a fact of a task without a broadcast. -/
abbrev Rests (strict : Prop) (task : TaskId) (fact : ConnectionView P → Prop) (ghost : Unit)
    (server : ServerState P) : Prop :=
  (connectionProtocol P strict).Knows connectionView (Resting task fact) ghost server

/-! ### What a step leaves to the other tasks -/

theorem rely_passed (websocket : WebSocket) (frame : ServerFrame P) :
    ConnectionRely other view (view.note (.passed websocket frame)) :=
  ⟨fun held => ⟨held, rfl⟩, rfl, rfl, rfl, Iff.rfl, fun _ => rfl, fun _ => by simp [ConnectionView.note],
    by simp [ConnectionView.note], by simp [ConnectionView.note]⟩

theorem rely_reported (different : task ≠ other) :
    ConnectionRely other view (view.note (.reported task)) :=
  ⟨fun held => ⟨held, rfl⟩, rfl, rfl, rfl, Iff.rfl, fun _ => rfl, fun _ => by simp [ConnectionView.note],
    by simp [ConnectionView.note, different.symm], by simp [ConnectionView.note]⟩

theorem rely_greeted (different : task ≠ other) :
    ConnectionRely other view (view.note (.greeted task)) :=
  ⟨fun held => ⟨held, rfl⟩, rfl, rfl, rfl, Iff.rfl, fun _ => rfl, fun _ => by simp [ConnectionView.note],
    by simp [ConnectionView.note], by simp [ConnectionView.note, different.symm]⟩

theorem rely_setBroadcast (different : task ≠ other) (broadcast : Option (Broadcast P)) :
    ConnectionRely other view (view.setBroadcast task broadcast) :=
  ⟨fun held => ⟨held, rfl⟩, rfl, rfl, Function.update_of_ne different.symm _ _, Iff.rfl,
    fun _ => rfl, fun _ => id, Iff.rfl, Iff.rfl⟩

theorem rely_awareness (states : AwarenessStates P) :
    ConnectionRely other view { view with awareness := states } :=
  ⟨fun held => ⟨held, rfl⟩, rfl, rfl, rfl, Iff.rfl, fun _ => rfl, fun _ => id, Iff.rfl, Iff.rfl⟩

theorem rely_setStamp (different : task ≠ other) (stamp : Option AuthorizationStamp) :
    ConnectionRely other view { view with
      connectionStamps := Function.update view.connectionStamps task stamp } :=
  ⟨fun held => ⟨held, rfl⟩, Function.update_of_ne different.symm _ _, rfl, rfl, Iff.rfl,
    fun _ => rfl, fun _ => id, Iff.rfl, Iff.rfl⟩

theorem rely_joined (different : task ≠ other) :
    ConnectionRely other view { view with joined := Function.update view.joined task true } :=
  ⟨fun held => ⟨held, rfl⟩, rfl, Function.update_of_ne different.symm _ _, rfl, Iff.rfl,
    fun _ => rfl, fun _ => id, Iff.rfl, Iff.rfl⟩

/-- A change of the room lock, for a task that had it or finds it free. -/
theorem rely_roomLock (different : task ≠ other) (lock : Option TaskId)
    (mine : view.roomLock = none ∨ view.roomLock = some task) :
    ConnectionRely other view { view with roomLock := lock } := by
  refine ⟨fun held => ?_, rfl, rfl, rfl, Iff.rfl, fun _ => rfl, fun _ => id, Iff.rfl, Iff.rfl⟩
  rcases mine with free | mine
  · exact nomatch free.symm.trans held
  · exact absurd (Option.some.inj (mine.symm.trans held)) different

/-- Marks of connections. A task outside the room is not among them. -/
theorem rely_fence (fenced : List WebSocket) (away : ¬view.InRoom other → other ∉ fenced)
    (revoked : WebSocket → Option (Nat × String))
    (same : ∀ websocket, websocket ∉ fenced → revoked websocket = view.revokedConnections websocket) :
    ConnectionRely other view { view with
      revokedConnections := revoked
      wire := fenced.map .fenced ++ view.wire } := by
  refine ⟨fun held => ⟨held, rfl⟩, rfl, rfl, rfl, Iff.rfl, fun outside => same other (away outside),
    fun outside marked => ?_, ?_, ?_⟩
  · rcases List.mem_append.mp marked with new | old
    · obtain ⟨websocket, member, equal⟩ := List.mem_map.mp new
      cases equal
      exact absurd member (away outside)
    · exact old
  · simp
  · simp

/-! ### What a step keeps of the invariant -/

/-- A step that changes only what is under way. A frame that is new carries no
awareness. -/
theorem ConnectionInv.rewire (inv : ConnectionInv strict before)
    (connections : after.connections = before.connections)
    (revoked : after.revokedConnections = before.revokedConnections)
    (joined : after.joined = before.joined) (awareness : after.awareness = before.awareness)
    (marks : ∀ event ∈ after.wire, (∃ websocket frame, event = .passed websocket frame) ∨
      event ∈ before.wire)
    (addressed : ∀ websocket frame, after.Addressed websocket frame →
      before.Addressed websocket frame ∨
        before.joined websocket = true ∧ ServerFrame.entries frame = [])
    (heard : ∀ websocket, before.revokedConnections websocket = none → ∀ entry,
      before.Heard websocket entry → after.Heard websocket entry)
    (ordered : strict → after.wire.Pairwise BeforeFence) :
    ConnectionInv strict after where
  kept := by
    rw [awareness]
    exact inv.kept.mono fun owner => (ConnectionView.inRoom_of_connections connections owner).mpr
  noted websocket member := by
    rw [joined]
    exact inv.noted websocket ((ConnectionView.inRoom_of_connections connections websocket).mp member)
  addressed websocket frame sent := by
    rw [joined]
    rcases addressed websocket frame sent with older | ⟨isJoined, _⟩
    · exact inv.addressed websocket frame older
    · exact isJoined
  greeted websocket marked := by
    rw [joined]
    refine inv.greeted websocket (marked.imp (fun reported => ?_) fun greeted => ?_)
    · rcases marks _ reported with ⟨_, _, passed⟩ | older
      · cases passed
      · exact older
    · rcases marks _ greeted with ⟨_, _, passed⟩ | older
      · cases passed
      · exact older
  fenced websocket marked member := by
    rw [revoked]
    refine inv.fenced websocket ?_ ((ConnectionView.inRoom_of_connections connections websocket).mp member)
    rcases marks _ marked with ⟨_, _, passed⟩ | older
    · cases passed
    · exact older
  informed websocket member unmarked := by
    rw [revoked] at unmarked
    have informed := inv.informed websocket
      ((ConnectionView.inRoom_of_connections connections websocket).mp member) unmarked
    have unheard : ∀ entry, after.Heard websocket entry → before.Heard websocket entry := by
      rintro entry ⟨frame, sent, carried⟩
      rcases addressed websocket frame sent with older | ⟨_, empty⟩
      · exact ⟨frame, older, carried⟩
      · rw [empty] at carried
        cases carried
    refine ⟨?_, ?_, ?_⟩
    · intro entry told
      rw [awareness]
      exact informed.covered entry (unheard entry told)
    · intro stored stays
      rw [awareness] at stays
      rcases informed.told stored stays with told | never
      · exact .inl (heard websocket unmarked _ told)
      · exact .inr fun entry told => never entry (unheard entry told)
    · intro greeted stored stays active
      rw [awareness] at stays
      refine heard websocket unmarked _ (informed.shown ?_ stored stays active)
      rcases marks _ greeted with ⟨_, _, passed⟩ | older
      · cases passed
      · exact older
  ordered := ordered

/-- The frames for a connection, where a task without a broadcast starts one. -/
theorem addressed_setBroadcast (idle : view.broadcasts task = none) (broadcast : Broadcast P)
    (websocket : WebSocket) (frame : ServerFrame P) :
    (view.setBroadcast task (some broadcast)).Addressed websocket frame ↔
      view.Addressed websocket frame ∨ broadcast.frame = frame ∧
        ∃ connection ∈ broadcast.remaining, connection.websocket = websocket := by
  constructor
  · rintro (passed | ⟨sender, found, running, rest⟩)
    · exact .inl (.inl passed)
    · by_cases own : sender = task
      · subst own
        rw [ConnectionView.setBroadcast_self] at running
        obtain rfl := Option.some.inj running
        exact .inr rest
      · exact .inl (.inr ⟨sender, found,
          (ConnectionView.setBroadcast_of_ne own _ _).symm.trans running, rest⟩)
  · rintro ((passed | ⟨sender, found, running, rest⟩) | rest)
    · exact .inl passed
    · have other : sender ≠ task := by
        rintro rfl
        exact nomatch idle.symm.trans running
      exact .inr ⟨sender, found,
        (ConnectionView.setBroadcast_of_ne other _ _).trans running, rest⟩
    · exact .inr ⟨task, broadcast, ConnectionView.setBroadcast_self _ _ _, rest⟩

/-- The awareness has changed, and a broadcast to the room tells of it. -/
theorem ConnectionInv.advance {news : List (AwarenessEntry P)} (inv : ConnectionInv strict before)
    (idle : before.broadcasts task = none)
    (kept : AwarenessStates.Kept after.InRoom after.awareness)
    (advance : AwarenessStates.Advance before.awareness after.awareness news)
    (members : ∀ websocket, after.InRoom websocket → before.InRoom websocket ∧
      after.revokedConnections websocket = before.revokedConnections websocket)
    (joined : after.joined = before.joined) (wire : after.wire = before.wire)
    (broadcasts : after.broadcasts = before.broadcasts) :
    ConnectionInv strict
      (after.setBroadcast task (some ⟨.awareness news, after.connections⟩)) := by
  have same : ∀ websocket frame, after.Addressed websocket frame ↔
      before.Addressed websocket frame := by
    intro websocket frame
    unfold ConnectionView.Addressed
    rw [wire, broadcasts]
  have resting : after.broadcasts task = none := by
    rw [broadcasts]
    exact idle
  have sent : ∀ websocket frame,
      (after.setBroadcast task (some ⟨.awareness news, after.connections⟩)).Addressed websocket
        frame ↔ before.Addressed websocket frame ∨
          .awareness news = frame ∧ after.InRoom websocket := by
    intro websocket frame
    rw [addressed_setBroadcast resting, same]
    rfl
  have heard : ∀ websocket, after.InRoom websocket → ∀ entry,
      (after.setBroadcast task (some ⟨.awareness news, after.connections⟩)).Heard websocket
        entry ↔ before.Heard websocket entry ∨ entry ∈ news := by
    intro websocket member entry
    constructor
    · rintro ⟨frame, toward, carried⟩
      rcases (sent websocket frame).mp toward with older | ⟨rfl, _⟩
      · exact .inl ⟨frame, older, carried⟩
      · exact .inr carried
    · rintro (⟨frame, older, carried⟩ | new)
      · exact ⟨frame, (sent websocket frame).mpr (.inl older), carried⟩
      · exact ⟨.awareness news, (sent websocket _).mpr (.inr ⟨rfl, member⟩), new⟩
  refine ⟨kept, ?_, ?_, ?_, ?_, ?_, ?_⟩
  · intro websocket member
    change after.joined websocket = true
    rw [joined]
    exact inv.noted websocket (members websocket member).1
  · intro websocket frame toward
    change after.joined websocket = true
    rw [joined]
    rcases (sent websocket frame).mp toward with older | ⟨_, member⟩
    · exact inv.addressed websocket frame older
    · exact inv.noted websocket (members websocket member).1
  · intro websocket marked
    change .reported websocket ∈ after.wire ∨ .greeted websocket ∈ after.wire at marked
    change after.joined websocket = true
    rw [wire] at marked
    rw [joined]
    exact inv.greeted websocket marked
  · intro websocket marked member
    change .fenced websocket ∈ after.wire at marked
    change after.revokedConnections websocket ≠ none
    rw [wire] at marked
    rw [(members websocket member).2]
    exact inv.fenced websocket marked (members websocket member).1
  · intro websocket member unmarked
    have unmarked' : before.revokedConnections websocket = none :=
      (members websocket member).2.symm.trans unmarked
    have informed := inv.informed websocket (members websocket member).1 unmarked'
    refine ⟨?_, ?_, ?_⟩
    · intro entry told
      rcases (heard websocket member entry).mp told with older | new
      · exact advance.covers entry (informed.covered entry older)
      · exact advance.noted entry new
    · intro stored stays
      rcases advance.told stored stays with new | ⟨⟨earlier, present, equal⟩, silent⟩
      · exact .inl ((heard websocket member _).mpr (.inr new))
      · rcases informed.told earlier present with told | never
        · rw [equal] at told
          exact .inl ((heard websocket member _).mpr (.inl told))
        · refine .inr fun entry told => ?_
          rcases (heard websocket member entry).mp told with older | new
          · rw [← equal]
            exact never entry older
          · exact silent entry new
    · intro greeted stored stays active
      change .greeted websocket ∈ after.wire at greeted
      rw [wire] at greeted
      rcases advance.told stored stays with new | ⟨⟨earlier, present, equal⟩, _⟩
      · exact (heard websocket member _).mpr (.inr new)
      · rw [← equal] at active ⊢
        exact (heard websocket member _).mpr (.inl (informed.shown greeted earlier present active))
  · intro isStrict
    change after.wire.Pairwise BeforeFence
    rw [wire]
    exact inv.ordered isStrict

/-- A connection is passed every active state. -/
theorem ConnectionInv.inform {frame : ServerFrame P} {marks : List (WireEvent P)}
    (inv : ConnectionInv strict view) (joined : view.joined task = true)
    (shows : ∀ entry, entry ∈ ServerFrame.entries frame ↔
      entry ∈ AwarenessStates.activeEntries view.awareness)
    (own : ∀ event ∈ marks, event = .greeted task)
    (clear : strict → .fenced task ∉ view.wire) :
    ConnectionInv strict { view with wire := .passed task frame :: (marks ++ view.wire) } := by
  let after : ConnectionView P :=
    { view with wire := .passed task frame :: (marks ++ view.wire) }
  have older : ∀ {event : WireEvent P}, event ∈ after.wire →
      (∃ websocket frame, event = .passed websocket frame) ∨ event = .greeted task ∨
        event ∈ view.wire := by
    intro event member
    rcases List.mem_cons.mp member with rfl | rest
    · exact .inl ⟨task, frame, rfl⟩
    · rcases List.mem_append.mp rest with mark | there
      · exact .inr (.inl (own event mark))
      · exact .inr (.inr there)
  have sent : ∀ websocket other, after.Addressed websocket other ↔
      view.Addressed websocket other ∨ task = websocket ∧ frame = other := by
    intro websocket other
    have passed : .passed websocket other ∈ after.wire ↔
        .passed websocket other ∈ view.wire ∨ task = websocket ∧ frame = other := by
      have unmarked : .passed websocket other ∉ marks := fun mark => nomatch own _ mark
      simp [after, unmarked, or_comm, eq_comm]
    unfold ConnectionView.Addressed
    rw [passed]
    exact or_right_comm
  have heard : ∀ websocket entry, after.Heard websocket entry ↔
      view.Heard websocket entry ∨
        task = websocket ∧ entry ∈ AwarenessStates.activeEntries view.awareness := by
    intro websocket entry
    constructor
    · rintro ⟨other, toward, carried⟩
      rcases (sent websocket other).mp toward with there | ⟨mine, rfl⟩
      · exact .inl ⟨other, there, carried⟩
      · exact .inr ⟨mine, (shows entry).mp carried⟩
    · rintro (⟨other, there, carried⟩ | ⟨mine, active⟩)
      · exact ⟨other, (sent websocket other).mpr (.inl there), carried⟩
      · exact ⟨frame, (sent websocket frame).mpr (.inr ⟨mine, rfl⟩), (shows entry).mpr active⟩
  refine ⟨inv.kept, inv.noted, ?_, ?_, ?_, ?_, ?_⟩
  · intro websocket other toward
    rcases (sent websocket other).mp toward with there | ⟨rfl, _⟩
    · exact inv.addressed websocket other there
    · exact joined
  · intro websocket marked
    change view.joined websocket = true
    rcases marked with reported | greeted
    · rcases older reported with ⟨_, _, passed⟩ | mine | there
      · cases passed
      · cases mine
      · exact inv.greeted websocket (.inl there)
    · rcases older greeted with ⟨_, _, passed⟩ | mine | there
      · cases passed
      · obtain rfl := WireEvent.greeted.inj mine
        exact joined
      · exact inv.greeted websocket (.inr there)
  · intro websocket marked member
    rcases older marked with ⟨_, _, passed⟩ | mine | there
    · cases passed
    · cases mine
    · exact inv.fenced websocket there member
  · intro websocket member unmarked
    have informed := inv.informed websocket member unmarked
    refine ⟨?_, ?_, ?_⟩
    · intro entry told
      rcases (heard websocket entry).mp told with there | ⟨_, active⟩
      · exact informed.covered entry there
      · obtain ⟨⟨stored, present, rfl⟩, _⟩ := AwarenessStates.mem_activeEntries.mp active
        exact AwarenessStates.covers_of_mem present
    · intro stored stays
      by_cases shown : task = websocket ∧
          stored.entry ∈ AwarenessStates.activeEntries view.awareness
      · exact .inl ((heard websocket _).mpr (.inr shown))
      · rcases informed.told stored stays with there | never
        · exact .inl ((heard websocket _).mpr (.inl there))
        · refine .inr fun entry told same => ?_
          rcases (heard websocket entry).mp told with there | ⟨mine, active⟩
          · exact never entry there same
          · obtain ⟨⟨other, present, rfl⟩, _⟩ := AwarenessStates.mem_activeEntries.mp active
            have equal := inv.kept.distinct.eq_of_clientId present stays same
            rw [equal] at active
            exact shown ⟨mine, active⟩
    · intro greeted stored stays active
      rw [heard]
      by_cases mine : task = websocket
      · exact .inr ⟨mine, AwarenessStates.mem_activeEntries.mpr ⟨⟨stored, stays, rfl⟩, active⟩⟩
      · rcases older greeted with ⟨_, _, passed⟩ | same | there
        · cases passed
        · exact absurd (WireEvent.greeted.inj same).symm mine
        · exact .inl (informed.shown there stored stays active)
  · intro isStrict
    change (WireEvent.passed task frame :: (marks ++ view.wire)).Pairwise BeforeFence
    refine List.pairwise_cons.mpr ⟨?_, List.pairwise_append.mpr ⟨?_, inv.ordered isStrict, ?_⟩⟩
    · rintro event member websocket other equal rfl
      obtain ⟨rfl, -⟩ := WireEvent.passed.inj equal
      rcases List.mem_append.mp member with mark | there
      · cases own _ mark
      · exact clear isStrict there
    · refine List.pairwise_of_forall_mem_list fun event mark _ _ websocket other equal => ?_
      rw [own event mark] at equal
      cases equal
    · intro event mark _ _ websocket other equal
      rw [own event mark] at equal
      cases equal

/-- A step of a handshake that passes no frame. The handshake may end where the
room has no active state. -/
theorem ConnectionInv.mark {event : WireEvent P} (inv : ConnectionInv strict view)
    (joined : view.joined task = true)
    (own : event = .reported task ∨
      event = .greeted task ∧ AwarenessStates.activeEntries view.awareness = []) :
    ConnectionInv strict (view.note event) := by
  have notPassed : ∀ websocket frame, .passed websocket frame ≠ event := by
    rcases own with rfl | ⟨rfl, _⟩ <;> exact fun _ _ => nofun
  have notFenced : ∀ websocket, .fenced websocket ≠ event := by
    rcases own with rfl | ⟨rfl, _⟩ <;> exact fun _ => nofun
  have same : ∀ websocket frame, (view.note event).Addressed websocket frame ↔
      view.Addressed websocket frame := by
    intro websocket frame
    unfold ConnectionView.Addressed ConnectionView.note
    simp only [List.mem_cons, notPassed, false_or]
  have heard : ∀ websocket entry, (view.note event).Heard websocket entry ↔
      view.Heard websocket entry := by
    intro websocket entry
    unfold ConnectionView.Heard
    simp only [same]
  refine ⟨inv.kept, inv.noted, ?_, ?_, ?_, ?_, ?_⟩
  · intro websocket frame toward
    exact inv.addressed websocket frame ((same websocket frame).mp toward)
  · intro websocket marked
    change view.joined websocket = true
    by_cases mine : websocket = task
    · rw [mine]
      exact joined
    · refine inv.greeted websocket (marked.imp (fun reported => ?_) fun greeted => ?_)
      · rcases List.mem_cons.mp reported with equal | there
        · rcases own with rfl | ⟨rfl, _⟩
          · exact absurd (WireEvent.reported.inj equal) mine
          · cases equal
        · exact there
      · rcases List.mem_cons.mp greeted with equal | there
        · rcases own with rfl | ⟨rfl, _⟩
          · cases equal
          · exact absurd (WireEvent.greeted.inj equal) mine
        · exact there
  · intro websocket marked member
    rcases List.mem_cons.mp marked with equal | there
    · exact absurd equal (notFenced websocket)
    · exact inv.fenced websocket there member
  · intro websocket member unmarked
    have informed := inv.informed websocket member unmarked
    refine ⟨fun entry told => informed.covered entry ((heard _ _).mp told), ?_, ?_⟩
    · intro stored stays
      exact (informed.told stored stays).imp (heard _ _).mpr fun never entry told =>
        never entry ((heard _ _).mp told)
    · intro greeted stored stays active
      rw [heard]
      rcases own with rfl | ⟨rfl, empty⟩
      · refine informed.shown ?_ stored stays active
        rcases List.mem_cons.mp greeted with equal | there
        · cases equal
        · exact there
      · have shown : stored.entry ∈ AwarenessStates.activeEntries view.awareness :=
          AwarenessStates.mem_activeEntries.mpr ⟨⟨stored, stays, rfl⟩, active⟩
        rw [empty] at shown
        cases shown
  · intro isStrict
    refine List.pairwise_cons.mpr ⟨?_, inv.ordered isStrict⟩
    exact fun _ _ websocket frame equal => absurd equal.symm (notPassed websocket frame)

/-- Connections are marked revoked. -/
theorem ConnectionInv.fence (inv : ConnectionInv strict view) (fenced : List WebSocket)
    (revoked : WebSocket → Option (Nat × String))
    (marked : ∀ websocket ∈ fenced, revoked websocket ≠ none)
    (same : ∀ websocket, websocket ∉ fenced → revoked websocket = view.revokedConnections websocket) :
    ConnectionInv strict { view with
      revokedConnections := revoked
      wire := fenced.map .fenced ++ view.wire } := by
  let after : ConnectionView P := { view with
    revokedConnections := revoked
    wire := fenced.map .fenced ++ view.wire }
  have older : ∀ {event : WireEvent P}, event ∈ after.wire →
      (∃ websocket ∈ fenced, event = .fenced websocket) ∨ event ∈ view.wire := by
    intro event member
    rcases List.mem_append.mp member with new | there
    · obtain ⟨websocket, target, equal⟩ := List.mem_map.mp new
      exact .inl ⟨websocket, target, equal.symm⟩
    · exact .inr there
  have there : ∀ {event : WireEvent P}, (∀ websocket, event ≠ .fenced websocket) →
      event ∈ after.wire → event ∈ view.wire := by
    intro event other member
    rcases older member with ⟨websocket, _, equal⟩ | there
    · exact absurd equal (other websocket)
    · exact there
  have heard : ∀ websocket entry, after.Heard websocket entry ↔ view.Heard websocket entry := by
    have sent : ∀ websocket frame, after.Addressed websocket frame ↔
        view.Addressed websocket frame := fun websocket frame =>
      or_congr ⟨there nofun, fun member => List.mem_append_right _ member⟩ Iff.rfl
    intro websocket entry
    unfold ConnectionView.Heard
    simp only [sent]
  refine ⟨inv.kept, inv.noted, ?_, ?_, ?_, ?_, ?_⟩
  · rintro websocket frame (passed | running)
    · exact inv.addressed websocket frame (.inl (there nofun passed))
    · exact inv.addressed websocket frame (.inr running)
  · exact fun websocket marks => inv.greeted websocket (marks.imp (there nofun) (there nofun))
  · intro websocket fence member
    by_cases target : websocket ∈ fenced
    · exact marked websocket target
    · change revoked websocket ≠ none
      rw [same websocket target]
      refine inv.fenced websocket ?_ member
      rcases older fence with ⟨other, isTarget, equal⟩ | earlier
      · obtain rfl := WireEvent.fenced.inj equal
        exact absurd isTarget target
      · exact earlier
  · intro websocket member unmarked
    have target : websocket ∉ fenced := fun target => marked websocket target unmarked
    have informed := inv.informed websocket member ((same websocket target).symm.trans unmarked)
    refine ⟨fun entry told => informed.covered entry ((heard _ _).mp told), ?_, ?_⟩
    · intro stored stays
      exact (informed.told stored stays).imp (heard _ _).mpr fun never entry told =>
        never entry ((heard _ _).mp told)
    · intro greeted stored stays active
      rw [heard]
      exact informed.shown (there nofun greeted) stored stays active
  · intro isStrict
    refine List.pairwise_append.mpr ⟨?_, inv.ordered isStrict, ?_⟩
    · refine List.pairwise_of_forall_mem_list fun event new _ _ websocket frame equal => ?_
      obtain ⟨_, _, rfl⟩ := List.mem_map.mp new
      cases equal
    · intro event new _ _ websocket frame equal
      obtain ⟨_, _, rfl⟩ := List.mem_map.mp new
      cases equal

/-- A connection joins the room, and its endpoint notes it. Nothing has been sent
to it. -/
theorem ConnectionInv.join (inv : ConnectionInv strict view) (arriving : Arriving task view)
    (connection : ConnectionInfo) (own : connection.websocket = task) :
    ConnectionInv strict { view with
      connections := view.connections ++ [connection]
      joined := Function.update view.joined task true } := by
  let after : ConnectionView P := { view with
    connections := view.connections ++ [connection]
    joined := Function.update view.joined task true }
  have members : ∀ websocket, after.InRoom websocket ↔
      view.InRoom websocket ∨ websocket = task := by
    intro websocket
    unfold ConnectionView.InRoom
    simp [after, or_and_right, exists_or, own, eq_comm]
  have joins : ∀ websocket, view.joined websocket = true → after.joined websocket = true := by
    intro websocket there
    by_cases mine : websocket = task
    · rw [mine]
      exact Function.update_self _ _ _
    · exact (Function.update_of_ne mine _ _).trans there
  have notJoined : ¬view.joined task = true := by
    rw [arriving.2.1]
    exact Bool.false_ne_true
  refine ⟨inv.kept.mono fun owner member => (members owner).mpr (.inl member), ?_, ?_, ?_, ?_,
    ?_, inv.ordered⟩
  · intro websocket member
    rcases (members websocket).mp member with there | rfl
    · exact joins websocket (inv.noted websocket there)
    · exact Function.update_self _ _ _
  · exact fun websocket frame toward => joins websocket (inv.addressed websocket frame toward)
  · exact fun websocket marks => joins websocket (inv.greeted websocket marks)
  · intro websocket fence member
    rcases (members websocket).mp member with there | rfl
    · exact inv.fenced websocket fence there
    · exact absurd fence arriving.2.2
  · intro websocket member unmarked
    rcases (members websocket).mp member with there | rfl
    · have informed := inv.informed websocket there unmarked
      exact ⟨informed.covered, informed.told, informed.shown⟩
    · have unheard : ∀ entry, ¬view.Heard websocket entry := by
        rintro entry ⟨frame, toward, _⟩
        exact notJoined (inv.addressed websocket frame toward)
      refine ⟨fun entry told => absurd told (unheard entry), ?_, ?_⟩
      · exact fun stored _ => .inr fun entry told => absurd told (unheard entry)
      · exact fun greeted => absurd (inv.greeted websocket (.inr greeted)) notJoined

/-- An empty room may forget its awareness. -/
theorem ConnectionInv.clear (inv : ConnectionInv strict view) (empty : view.connections = []) :
    ConnectionInv strict { view with awareness := [] } := by
  have nobody : ∀ websocket, ¬view.InRoom websocket := by
    rintro websocket ⟨connection, member, _⟩
    rw [empty] at member
    cases member
  exact ⟨.nil _, inv.noted, inv.addressed, inv.greeted, inv.fenced,
    fun websocket member => absurd member (nobody websocket), inv.ordered⟩

end Concord.Server

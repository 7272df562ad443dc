import Concord.Server.ConnectionEndpoints

/-!
Contract: the WebSocket endpoint keeps the connection protocol.

Owns:
- the check of a connection against the fences, and the frames it sends itself;
- one received frame, with the awareness that it changes;
- joining, the handshake, the receive loop and leaving;
- the invariant of the room and its connections in every run of the server.

Does not own: what the invariant says to a user of the server.
-/

set_option autoImplicit false

namespace Concord.Server

open Asyncio Collaboration ServerState

variable {P : Platform} {α : Type} {strict : Prop} {task : TaskId} {server : ServerState P}
  {view : ConnectionView P} {allows : ServerState P → Call → Event P → Prop}
  {fact : ConnectionView P → Prop}

/-! ### The check against the fences -/

/-- A fact of a task that in a strict run no fence has reached. -/
def Open (strict : Prop) (task : TaskId) (fact : ConnectionView P → Prop) (ghost : Unit)
    (server : ServerState P) : Prop :=
  Rests strict task fact ghost server ∧ (strict → .fenced task ∉ server.wire)

/-- A connection in the room that is not marked revoked has not been fenced. -/
theorem open_of_unmarked {ghost : Unit} (knows : Rests strict task fact ghost server)
    (inRoom : (connectionView server).InRoom task)
    (unmarked : server.revokedConnections task = none) : Open strict task fact ghost server :=
  ⟨knows, fun _ marked => knows.1.fenced task marked inRoom unmarked⟩

private theorem unmarked_of_authorized {userId : UserId}
    (authorized : server.authorizationFailure userId task = none) :
    server.revokedConnections task = none := by
  unfold authorizationFailure at authorized
  split at authorized
  · cases authorized
  · assumption

/-- A task marks its own connection. -/
theorem setRevoked_connections {marked : ConnectionView P → Prop} {ghost : Unit}
    (marks : ∀ (view : ConnectionView P) failure, fact view → marked { view with
      revokedConnections := Function.update view.revokedConnections task (some failure)
      wire := .fenced task :: view.wire })
    (failure : Nat × String) (knows : Rests strict task fact ghost server) :
    (∀ other, task ≠ other → ConnectionRely other (connectionView server)
        (connectionView (server.setRevoked task failure))) ∧
      Rests strict task marked ghost (server.setRevoked task failure) := by
  have same : ∀ websocket, websocket ∉ [task] →
      Function.update server.revokedConnections task (some failure) websocket =
        server.revokedConnections websocket := fun websocket absent =>
    Function.update_of_ne (fun equal => absent (List.mem_singleton.mpr equal)) _ _
  have isMarked : ∀ websocket ∈ [task],
      Function.update server.revokedConnections task (some failure) websocket ≠ none := by
    intro websocket member
    rw [List.mem_singleton.mp member, Function.update_self]
    exact Option.some_ne_none failure
  refine ⟨fun other different => ?_, ?_, marks (connectionView server) failure knows.2.1, knows.2.2⟩
  · exact rely_fence [task] (fun _ member => different (List.mem_singleton.mp member).symm) _ same
  · exact knows.1.fence [task] _ isMarked same

/-- `_close_if_invalidated`: it says that no fence has reached the connection, or
marks it. -/
theorem closeIfInvalidated_connections {marked : ConnectionView P → Prop}
    (after : Lasting task marked)
    (marks : ∀ (view : ConnectionView P) failure, fact view → marked { view with
      revokedConnections := Function.update view.revokedConnections task (some failure)
      wire := .fenced task :: view.wire })
    (userId : UserId) (ghost : Unit) (knows : Rests strict task fact ghost server) :
    wp (serverConnections P strict) allows task (closeIfInvalidated userId task)
      (fun result ghost server => match result with
        | .ok false => Rests strict task fact ghost server ∧ server.revokedConnections task = none
        | _ => Rests strict task marked ghost server) ghost server := by
  unfold closeIfInvalidated
  rw [wp_bind, wp_get, thenPost_ok]
  split
  · next authorized => exact ⟨knows, unmarked_of_authorized authorized⟩
  · next code reason _ =>
      obtain ⟨guar, isMarked⟩ := setRevoked_connections marks (code, reason) knows
      rw [wp_bind]
      refine wp_modify ghost guar ?_
      rw [thenPost_ok, wp_bind]
      refine wp_mono ?_ (closeConnection_preserves (close_connections after) task code reason
        ghost _ isMarked)
      intro result ghost₁ server₁ holds
      cases result <;> exact holds

private theorem checked_connections (userId : UserId) :
    Preserves (serverConnections P strict) allows task (Rests strict task (InsideRoom task))
      (closeIfInvalidated userId task) := by
  intro ghost server knows
  refine wp_mono ?_ (closeIfInvalidated_connections lasting_insideRoom
    (fun _ _ inside => inside) userId ghost knows)
  intro result ghost₁ server₁ holds
  split at holds
  · exact holds.1
  · exact holds

/-! ### Frames of the own connection -/

/-- A frame without awareness to the own connection, which no fence has reached. -/
theorem reply_connections (lasting : Lasting task fact) (rechecks : Rechecks strict allows)
    (inside : ∀ view, fact view → InsideRoom task view) {frame : ServerFrame P}
    (plain : ServerFrame.entries frame = []) (ghost : Unit)
    (knows : Open strict task fact ghost server) :
    wp (serverConnections P strict) allows task (sendBytes task task frame)
      (fun result ghost server => Rests strict task fact ghost server ∧
        (strict → ∃ event, OpenSend task task event (connectionView server) ∧
          (result = .ok () → event = .done))) ghost server :=
  wp_sendBytes lasting.standing rechecks
    ⟨knows.1.1.pass (inside _ knows.1.2.1).2 plain knows.2,
      lasting.passed knows.1.2.1 task frame, knows.1.2.2⟩

/-- A reply while the room may have fenced the connection since. -/
theorem answer_connections (rechecks : Rechecks strict allows) {frame : ServerFrame P}
    (plain : ServerFrame.entries frame = []) (ghost : Unit)
    (knows : Open strict task (InsideRoom task) ghost server) :
    wp (serverConnections P strict) allows task (sendBytes task task frame)
      (fun _ => Rests strict task (InsideRoom task)) ghost server :=
  wp_mono (fun _ _ _ after => after.1)
    (reply_connections lasting_insideRoom rechecks (fun _ => id) plain ghost knows)

/-- Every active state, to the own connection. -/
theorem snapshot_connections (rechecks : Rechecks strict allows) {marks : List (WireEvent P)}
    (own : ∀ event ∈ marks, event = .greeted task) (ghost : Unit)
    (knows : Open strict task (InsideRoom task) ghost server) :
    wp (serverConnections P strict) allows task
      (sendBytes task task (.awareness (AwarenessStates.activeEntries server.awareness)))
      (fun _ => Rests strict task (InsideRoom task)) ghost
      { server with wire := marks ++ server.wire } := by
  refine wp_mono (fun _ _ _ after => after.1) (wp_sendBytes lasting_insideRoom.standing rechecks
    ⟨?_, knows.1.2.1, knows.1.2.2⟩)
  exact knows.1.1.inform knows.1.2.1.2 (fun _ => Iff.rfl) own knows.2

/-! ### One received frame -/

private theorem applyIfAuthorized_denied {userId : UserId} {role : RoleEnum} {payload : P.Bytes}
    (denied : (applyIfAuthorized task userId role payload server).1 = .denied) :
    (applyIfAuthorized task userId role payload server).2 = server ∧
      server.revokedConnections task = none := by
  unfold applyIfAuthorized at denied ⊢
  split at denied
  · cases denied
  · next authorized =>
      split at denied
      · next rank => exact ⟨by simp [rank], unmarked_of_authorized authorized⟩
      · split at denied <;> cases denied

/-- `apply_if_authorized` marks the own connection, or the protocol does not see
what it does. -/
theorem applyIfAuthorized_step (userId : UserId) (role : RoleEnum) (payload : P.Bytes)
    {ghost : Unit} (knows : Rests strict task (InsideRoom task) ghost server) :
    (∀ other, task ≠ other → ConnectionRely other (connectionView server)
        (connectionView (applyIfAuthorized task userId role payload server).2)) ∧
      Rests strict task (InsideRoom task) ghost
        (applyIfAuthorized task userId role payload server).2 ∧
      (applyIfAuthorized task userId role payload server).2.roomLock = server.roomLock := by
  rcases applyIfAuthorized_state task userId role payload server with
    ⟨failure, state⟩ | state | ⟨_, _, state⟩
  · rw [state]
    obtain ⟨guar, marked⟩ := @setRevoked_connections _ _ _ _ _ (InsideRoom task) _
      (fun _ _ inside => inside) failure knows
    exact ⟨guar, marked, rfl⟩
  · rw [state]
    exact ⟨fun other _ => ConnectionRely.refl _ _, knows, rfl⟩
  · rw [state]
    exact ⟨fun other _ => ConnectionRely.refl other (connectionView server), knows, rfl⟩

private theorem applyIfAuthorized_connections (user : AuthenticatedUser) (payload : P.Bytes)
    (ghost : Unit)
    (knows : Rests strict task (InsideRoom task) ghost server) :
    wp (serverConnections P strict) allows task
      (withRoomLock task (modifyGet (applyIfAuthorized task user.userId user.role payload)))
      (fun result ghost server => match result with
        | .ok .denied => Open strict task (InsideRoom task) ghost server
        | _ => Rests strict task (InsideRoom task) ghost server) ghost server := by
  refine wp_withRoomLock_connections lasting_insideRoom lockApart_insideRoom knows
    fun server₁ held => ?_
  have inside : Rests strict task (InsideRoom task) () server₁ :=
    ⟨held.1, held.2.1.1, held.2.2⟩
  obtain ⟨guar, after, lock⟩ :=
    applyIfAuthorized_step user.userId user.role payload inside
  refine wp_modifyGet () guar ⟨lock.trans held.2.1.2.1, ?_⟩
  have released : Rests strict task (InsideRoom task) ()
      (applyIfAuthorized task user.userId user.role payload server₁).2.releaseRoomLock :=
    ⟨after.1.setRoomLock none, after.2⟩
  cases outcome : (applyIfAuthorized task user.userId user.role payload server₁).1 with
  | denied =>
      obtain ⟨same, unmarked⟩ := applyIfAuthorized_denied outcome
      refine open_of_unmarked released released.2.1.1 ?_
      rw [same]
      exact unmarked
  | failed failure closeRequired => exact released
  | rejected => exact released
  | applied => exact released

private theorem handleSyncMessage_connections (rechecks : Rechecks strict allows)
    (user : AuthenticatedUser) (subtype : SyncSubtype) (payload : P.Bytes) (ghost : Unit)
    (knows : Open strict task (InsideRoom task) ghost server) :
    wp (serverConnections P strict) allows task (handleSyncMessage task user subtype payload)
      (fun _ => Rests strict task (InsideRoom task)) ghost server := by
  cases subtype with
  | step1 =>
      unfold handleSyncMessage
      rw [wp_bind, wp_tryExcept, wp_bind]
      refine wp_atomic ghost (fun other _ => ConnectionRely.refl other (connectionView server)) ?_
      cases (onStore (DocStore.encodeStateAsUpdate (some payload)) server).1 with
      | error exn => exact knows.1
      | ok update => exact answer_connections rechecks rfl ghost knows
  | _ =>
      unfold handleSyncMessage
      rw [wp_bind]
      refine wp_mono ?_ (applyIfAuthorized_connections user payload ghost knows.1)
      intro result ghost₁ server₁ after
      rcases result with exn | outcome
      · exact after
      rw [thenPost_ok]
      cases outcome with
      | failed failure closeRequired =>
          cases closeRequired with
          | true =>
              exact closeConnection_preserves (close_connections lasting_insideRoom) _ _ _
                ghost₁ server₁ after
          | false => exact after
      | denied => exact answer_connections rechecks rfl ghost₁ after
      | rejected => exact after
      | applied =>
          exact broadcastBinary_connections lasting_insideRoom rechecks _ rfl ghost₁ server₁ after

private theorem pruneStaleAwareness_connections (rechecks : Rechecks strict allows) :
    Preserves (serverConnections P strict) allows task (Rests strict task (InsideRoom task))
      (pruneStaleAwareness task) :=
  awareness_connections lasting_insideRoom rechecks fun _ inv _ =>
    ⟨_, rfl, AwarenessStates.kept_withdraw _ _ inv.kept,
      AwarenessStates.advance_withdraw _ _ inv.kept.distinct⟩

private theorem handleBinaryMessage_connections (rechecks : Rechecks strict allows)
    (user : AuthenticatedUser) (message : Option (ParsedMessage P)) :
    Preserves (serverConnections P strict) allows task (Rests strict task (InsideRoom task))
      (handleBinaryMessage task user message) := by
  intro ghost server knows
  unfold handleBinaryMessage
  rw [wp_bind, wp_get, thenPost_ok]
  split
  · exact knows
  · next unmarked =>
      have isOpen : Open strict task (InsideRoom task) ghost server := by
        refine open_of_unmarked knows knows.2.1.1 ?_
        simpa [isRevoked] using unmarked
      split
      · exact knows
      · exact handleSyncMessage_connections rechecks user _ _ ghost isOpen
      · refine awareness_connections lasting_insideRoom rechecks (fun server inv inside => ?_)
          ghost server knows
        obtain ⟨kept, advance⟩ := AwarenessStates.applyUpdate_spec inside.1 server.store.clock _
          inv.kept
        exact ⟨_, rfl, kept, advance⟩
      · exact @snapshot_connections _ _ _ _ _ rechecks [] nofun ghost isOpen
      · exact knows

/-! ### Joining and the handshake -/

/-- A connection that is in the room while its endpoint has yet to note it. -/
def Joining (strict : Prop) (task : TaskId) (server : ServerState P) : Prop :=
  Rests strict task (Greeting task) ()
    { server with joined := Function.update server.joined task true }

/-- The last step of `_join_room`. -/
theorem append_connections {connection : ConnectionInfo} (own : connection.websocket = task)
    {connections : List ConnectionInfo} {ghost : Unit}
    (knows : Rests strict task (fun view => Arriving task view ∧ RoomHeld task connections view)
      ghost server) :
    (∀ other, task ≠ other → ConnectionRely other (connectionView server)
        (connectionView { server with rooms := some (server.connections ++ [connection]) })) ∧
      Joining strict task
        { server with rooms := some (server.connections ++ [connection]) }.releaseRoomLock := by
  obtain ⟨inv, ⟨arriving, lock, _⟩, idle⟩ := knows
  constructor
  · intro other different
    refine ⟨fun held => ?_, rfl, rfl, rfl, ?_, fun _ => rfl, fun _ => id, Iff.rfl, Iff.rfl⟩
    · exact absurd (Option.some.inj (lock.symm.trans held)) different
    · constructor
      · rintro ⟨member, there, equal⟩
        rcases List.mem_append.mp there with old | new
        · exact ⟨member, old, equal⟩
        · rw [List.mem_singleton.mp new, own] at equal
          exact absurd equal different
      · rintro ⟨member, there, equal⟩
        exact ⟨member, List.mem_append_left _ there, equal⟩
  · have notJoined : ¬(connectionView server).joined task = true := by
      rw [arriving.2.1]
      exact Bool.false_ne_true
    refine ⟨(inv.join arriving connection own).setRoomLock none,
      ⟨⟨⟨⟨connection, List.mem_append_right _ (List.mem_singleton_self _), own⟩,
        Function.update_self _ _ _⟩, ?_⟩, ?_⟩, idle⟩
    · exact fun greeted => notJoined (inv.greeted task (.inr greeted))
    · exact fun reported => notJoined (inv.greeted task (.inl reported))

private theorem joinRoom_connections (connection : ConnectionInfo)
    (own : connection.websocket = task) :
    Attempts (serverConnections P strict) allows task (Rests strict task (Arriving task))
      (fun _ => Joining strict task) (Rests strict task (Arriving task)) (joinRoom connection) := by
  intro ghost server knows
  unfold joinRoom
  rw [own]
  refine wp_withRoomLock_connections lasting_arriving lockApart_arriving knows fun server₁ held => ?_
  have locked : Lasting task fun view : ConnectionView P =>
      Arriving task view ∧ RoomHeld task server₁.connections view :=
    lasting_arriving.and (lasting_roomHeld _)
  have append : ∀ server : ServerState P, Rests strict task
        (fun view => Arriving task view ∧ RoomHeld task server₁.connections view) () server →
      wp (serverConnections P strict) allows task
        (modify fun server => { server with rooms := some (server.connections ++ [connection]) } :
          ServerProgram P PUnit)
        (fun result ghost server => server.roomLock = some task ∧
          outcomes (fun _ => Joining strict task) (Rests strict task (Arriving task)) result ghost
            server.releaseRoomLock) () server := by
    intro server held
    obtain ⟨guar, joining⟩ := append_connections own held
    exact wp_modify () guar ⟨held.2.1.2.1, joining⟩
  rw [wp_bind]
  refine wp_modify () (fun other _ => ConnectionRely.refl other (connectionView server₁)) ?_
  rw [thenPost_ok, wp_bind, wp_get, thenPost_ok]
  split
  · rw [wp_bind]
    refine wp_mono ?_ (manager_connections locked (loadFromStorage_awaits task) () _ held)
    intro result ghost₂ server₂ after
    cases result with
    | ok ref => exact append server₂ after
    | error exn =>
        exact ⟨after.2.1.2.1, after.1.setRoomLock none, after.2.1.1, after.2.2⟩
  · exact append _ held

/-- The handshake from the document status on. -/
theorem report_connections (rechecks : Rechecks strict allows) (ghost : Unit)
    (knows : Open strict task (Greeting task) ghost server) :
    wp (serverConnections P strict) allows task (do
        modify (ServerState.note (.reported task))
        sendCurrentDocumentStatus task
        let active := AwarenessStates.activeEntries (← get).awareness
        modify (ServerState.note (.greeted task))
        if active.isEmpty then pure () else sendBytes task task (.awareness active))
      (fun _ => Rests strict task (InsideRoom task)) ghost server := by
  -- After the status, a fence is excluded only where the room has an active state.
  have shows : ∀ (ghost : Unit) (server : ServerState P),
      Rests strict task (Reporting task) ghost server →
      (strict → AwarenessStates.activeEntries server.awareness ≠ [] →
        .fenced task ∉ server.wire) →
      wp (serverConnections P strict) allows task (do
          let active := AwarenessStates.activeEntries (← get).awareness
          modify (ServerState.note (.greeted task))
          if active.isEmpty then pure () else sendBytes task task (.awareness active))
        (fun _ => Rests strict task (InsideRoom task)) ghost server := by
    intro ghost server reporting clear
    rw [wp_bind, wp_get, thenPost_ok, wp_bind]
    refine wp_modify ghost (fun other different => rely_greeted different) ?_
    rw [thenPost_ok]
    split
    · next empty =>
        exact ⟨reporting.1.mark reporting.2.1.1.2 (.inr ⟨rfl, List.isEmpty_iff.mp empty⟩),
          reporting.2.1.1, reporting.2.2⟩
    · next nonempty =>
        have isOpen : Open strict task (InsideRoom task) ghost server :=
          ⟨⟨reporting.1, reporting.2.1.1, reporting.2.2⟩, fun isStrict =>
            clear isStrict fun empty => nonempty (List.isEmpty_iff.mpr empty)⟩
        exact @snapshot_connections _ _ _ _ _ rechecks [.greeted task]
          (fun event member => List.mem_singleton.mp member) ghost isOpen
  rw [wp_bind]
  refine wp_modify ghost (fun other different => rely_reported different) ?_
  have reporting : Rests strict task (Reporting task) ghost (server.note (.reported task)) := by
    refine ⟨knows.1.1.mark knows.1.2.1.1.1.2 (.inl rfl), ⟨knows.1.2.1.1.1, ?_⟩, knows.1.2.2⟩
    intro greeted
    rcases List.mem_cons.mp greeted with equal | there
    · cases equal
    · exact knows.1.2.1.1.2 there
  have clear : strict → .fenced task ∉ (server.note (.reported task)).wire := by
    intro isStrict marked
    rcases List.mem_cons.mp marked with equal | there
    · cases equal
    · exact knows.2 isStrict there
  unfold sendCurrentDocumentStatus
  rw [thenPost_ok, wp_bind, wp_bind, wp_get, thenPost_ok]
  split
  · exact shows ghost _ reporting fun isStrict _ => clear isStrict
  · refine wp_mono ?_ (reply_connections lasting_reporting rechecks
      (fun _ reporting => reporting.1) rfl ghost ⟨reporting, clear⟩)
    rintro result ghost₁ server₁ ⟨after, resumed⟩
    cases result with
    | error exn => exact ⟨after.1, after.2.1.1, after.2.2⟩
    | ok answer =>
        refine shows ghost₁ server₁ after fun isStrict active => ?_
        obtain ⟨event, isOpen, returned⟩ := resumed isStrict
        exact isOpen.handshake rfl (returned rfl) after.2.1.2 (.inr active)

private theorem greet_connections (rechecks : Rechecks strict allows) (user : AuthenticatedUser)
    (ghost : Unit) (knows : Open strict task (Greeting task) ghost server) :
    wp (serverConnections P strict) allows task (greet task user)
      (fun _ => Rests strict task (InsideRoom task)) ghost server := by
  unfold greet
  dsimp only
  split
  · rw [wp_bind]
    refine wp_atomic ghost (fun other _ => ConnectionRely.refl other (connectionView server)) ?_
    cases (onStore DocStore.getStateVector server).1 with
    | error exn => exact ⟨knows.1.1, knows.1.2.1.1.1, knows.1.2.2⟩
    | ok stateVector =>
        rw [thenPost_ok, wp_bind]
        refine wp_mono ?_ (reply_connections lasting_greeting rechecks
          (fun _ greeting => greeting.1.1) rfl ghost knows)
        rintro result ghost₁ server₁ ⟨after, resumed⟩
        cases result with
        | error exn => exact ⟨after.1, after.2.1.1.1, after.2.2⟩
        | ok answer =>
            refine report_connections rechecks ghost₁ ⟨after, fun isStrict => ?_⟩
            obtain ⟨event, isOpen, returned⟩ := resumed isStrict
            exact isOpen.handshake rfl (returned rfl) after.2.1.1.2 (.inl after.2.1.2)
  · exact report_connections rechecks ghost knows

/-! ### Leaving -/

/-- The authorization of a connection outside the room is forgotten. -/
theorem ConnectionInv.forget (inv : ConnectionInv strict view) (outside : ¬view.InRoom task)
    (stamps : WebSocket → Option AuthorizationStamp) :
    ConnectionInv strict { view with
      connectionStamps := stamps
      revokedConnections := Function.update view.revokedConnections task none } := by
  have same : ∀ websocket, view.InRoom websocket →
      Function.update view.revokedConnections task none websocket =
        view.revokedConnections websocket := by
    intro websocket member
    refine Function.update_of_ne ?_ _ _
    rintro rfl
    exact outside member
  refine ⟨inv.kept, inv.noted, inv.addressed, inv.greeted, ?_, ?_, inv.ordered⟩
  · intro websocket marked member
    change Function.update view.revokedConnections task none websocket ≠ none
    rw [same websocket member]
    exact inv.fenced websocket marked member
  · intro websocket member unmarked
    have informed := inv.informed websocket member ((same websocket member).symm.trans unmarked)
    exact ⟨informed.covered, informed.told, informed.shown⟩

private theorem rely_forget {other : TaskId} (different : task ≠ other) :
    ConnectionRely other (connectionView server) (connectionView (server.forget task)) :=
  ⟨fun held => ⟨held, rfl⟩, Function.update_of_ne different.symm _ _, rfl, rfl, Iff.rfl,
    fun _ => Function.update_of_ne different.symm _ _, fun _ => id, Iff.rfl, Iff.rfl⟩

/-- The connection leaves the room, and its active states are withdrawn. -/
theorem leave_owes {ghost : Unit} {connections : List ConnectionInfo}
    (knows : Rests strict task (fun view => InsideRoom task view ∧ RoomHeld task connections view)
      ghost server) :
    (∀ other, task ≠ other → ConnectionRely other (connectionView (server.forget task))
        (connectionView (leave task (server.forget task)).2)) ∧
      Owes strict task (OutsideRoom task) (leave task (server.forget task)).1.2
        (leave task (server.forget task)).2 := by
  obtain ⟨inv, ⟨inside, lock, _⟩, idle⟩ := knows
  have remaining : (leave task (server.forget task)).2.connections =
      server.connections.filter (·.websocket ≠ task) := leave_connections task (server.forget task)
  have members : ∀ websocket,
      (connectionView (leave task (server.forget task)).2).InRoom websocket ↔
        (connectionView server).InRoom websocket ∧ websocket ≠ task := by
    intro websocket
    constructor
    · rintro ⟨connection, there, own⟩
      rw [show (connectionView (leave task (server.forget task)).2).connections = _ from remaining]
        at there
      obtain ⟨member, other⟩ := List.mem_filter.mp there
      refine ⟨⟨connection, member, own⟩, ?_⟩
      rw [← own]
      exact of_decide_eq_true other
    · rintro ⟨⟨connection, member, own⟩, other⟩
      refine ⟨connection, ?_, own⟩
      rw [show (connectionView (leave task (server.forget task)).2).connections = _ from remaining]
      refine List.mem_filter.mpr ⟨member, decide_eq_true ?_⟩
      rw [own]
      exact other
  constructor
  · intro other different
    refine ⟨fun held => ?_, rfl, rfl, rfl, ?_, fun _ => rfl, fun _ => id, Iff.rfl, Iff.rfl⟩
    · exact absurd (Option.some.inj (lock.symm.trans held)) different
    · exact (members other).trans (and_iff_left different.symm)
  · refine ⟨inv.advance idle ?_ (AwarenessStates.advance_withdraw _ _ inv.kept.distinct) ?_ rfl rfl
      rfl, ⟨?_, Function.update_self _ _ _, Function.update_self _ _ _⟩, idle⟩
    · exact (AwarenessStates.kept_removeOwner task server.store.clock inv.kept).mono
        fun owner => (members owner).mpr
    · intro websocket member
      obtain ⟨there, other⟩ := (members websocket).mp member
      exact ⟨there, Function.update_of_ne other _ _⟩
    · exact fun member => ((members task).mp member).2 rfl

/-- What a connection that has left the room owes: the removals of its awareness, or
nothing after an exception. -/
def Departed (strict : Prop) (task : TaskId) :
    Post Unit (ServerState P) Exn (List (AwarenessEntry P))
  | .ok removed, _, server => Owes strict task (OutsideRoom task) removed server
  | .error _, ghost, server => Rests strict task (OutsideRoom task) ghost server

/-- The last connection has left: the document is stored, and the awareness of the
room is discarded. -/
theorem emptied_connections {removed : List (AwarenessEntry P)}
    (last : Owes strict task (OutsideRoom task) removed server ∧ server.roomLock = some task ∧
      server.connections = []) :
    wp (serverConnections P strict) allows task (do
        Coroutine.tryExcept
          (do let _ ← onManager (checkpointAndRemove task))
          (fun _ => pure ())
        modify fun server => { server with awareness := [] }
        pure ([] : List (AwarenessEntry P)))
      (fun result ghost server => server.roomLock = some task ∧
        Departed strict task result ghost server.releaseRoomLock) () server := by
  obtain ⟨⟨inv, outside, idle⟩, lock, empty⟩ := last
  have held := @lasting_outsideHeld P task []
  have gone : Rests strict task (OutsideHeld task []) () server := by
    refine ⟨?_, ⟨outside, lock, empty⟩, idle⟩
    rw [empty] at inv
    have finished := inv.finish
    rw [ConnectionView.setBroadcast_eq idle] at finished
    exact finished
  have stored : Preserves (serverConnections P strict) allows task
      (Rests strict task (OutsideHeld task [])) (Coroutine.tryExcept
        (do let _ ← onManager (checkpointAndRemove task)) (fun _ => pure ())) :=
    .tryExcept (.bind (manager_connections held (checkpointAndRemove_awaits task)) fun _ => .pure _)
      fun _ => .pure _
  rw [wp_bind]
  refine wp_mono ?_ (stored () server gone)
  intro result ghost₁ server₁ after
  have released : Rests strict task (OutsideRoom task) ghost₁ server₁.releaseRoomLock :=
    ⟨after.1.setRoomLock none, after.2.1.1, after.2.2⟩
  cases result with
  | error exn => exact ⟨after.2.1.2.1, released⟩
  | ok answer =>
      rw [thenPost_ok, wp_bind]
      refine wp_modify ghost₁ (fun other _ => rely_awareness []) ⟨after.2.1.2.1, ?_⟩
      exact @owes_nil _ _ _ _ _ ghost₁ ⟨(after.1.clear after.2.1.2.2).setRoomLock none,
        after.2.1.1, after.2.2⟩

private theorem leaveRoom_connections (rechecks : Rechecks strict allows) :
    Leads (serverConnections P strict) allows task (Rests strict task (InsideRoom task))
      (Rests strict task (OutsideRoom task)) (leaveRoom task) := by
  intro ghost server knows
  unfold leaveRoom
  rw [wp_bind]
  refine wp_mono (fun result ghost₁ server₁ (after : Departed strict task result ghost₁ server₁) =>
    ?_) (wp_withRoomLock_connections lasting_insideRoom lockApart_insideRoom knows
      fun server₁ held => ?_)
  · cases result with
    | error exn => exact after
    | ok removed => exact broadcastAwareness_connections lasting_outsideRoom rechecks ghost₁ after
  rw [wp_bind]
  refine wp_modify () (fun other different => rely_forget different) ?_
  rw [thenPost_ok, wp_bind, wp_get, thenPost_ok]
  split
  · next noRoom =>
      obtain ⟨connection, member, _⟩ := held.2.1.1.1
      have empty : server₁.connections = [] := by
        have rooms : server₁.rooms = none := noRoom
        rw [connections, rooms]
        rfl
      rw [show (connectionView server₁).connections = _ from empty] at member
      cases member
  · obtain ⟨guar, owes⟩ := leave_owes held
    have lock : (leave task (server₁.forget task)).2.roomLock = some task := held.2.1.2.1
    rw [wp_bind]
    refine wp_modifyGet () guar ?_
    rw [thenPost_ok]
    have empties : (leave task (server₁.forget task)).1.1 = true →
        (leave task (server₁.forget task)).2.connections = [] := by
      intro isLast
      rw [leave_connections]
      exact List.isEmpty_iff.mp isLast
    generalize left : leave task (server₁.forget task) = after at owes lock empties
    obtain ⟨⟨isLast, removed⟩, server₂⟩ := after
    cases isLast with
    | false => exact ⟨lock, owes.1.setRoomLock none, owes.2⟩
    | true => exact emptied_connections ⟨owes, lock, empties rfl⟩

/-! ### The lifetime of a connection -/

private theorem receiveLoop_connections (rechecks : Rechecks strict allows)
    (user : AuthenticatedUser)
    (messages : Nat) :
    Preserves (serverConnections P strict) allows task (Rests strict task (InsideRoom task))
      (receiveLoop task user messages) := by
  have waiting : Standing (connectionProtocol P strict) (fun _ => True) task
      (Resting task (InsideRoom task)) := lasting_insideRoom.standing
  exact receiveLoop_preserves (waiting.awaitUntil trivial fun _ _ _ never => nomatch never)
    (silent_receive waiting) (checked_connections user.userId)
    (pruneStaleAwareness_connections rechecks) (handleBinaryMessage_connections rechecks user) messages

private theorem serveConnection_connections (rechecks : Rechecks strict allows)
    (user : AuthenticatedUser)
    (messages : Nat) :
    Leads (serverConnections P strict) allows task (Rests strict task (Arriving task))
      (Rests strict task (RoomNoted task)) (serveConnection task user messages) := by
  -- What the rest of the endpoint needs to know, wherever it is left.
  have arrived : ∀ {ghost server}, Rests strict task (Arriving task) ghost server →
      Rests strict task (RoomNoted task) ghost (server : ServerState P) :=
    fun knows => ⟨knows.1, knows.2.1.roomNoted, knows.2.2⟩
  have seated : ∀ {ghost server}, Rests strict task (InsideRoom task) ghost server →
      Rests strict task (RoomNoted task) ghost (server : ServerState P) :=
    fun knows => ⟨knows.1, knows.2.1.roomNoted, knows.2.2⟩
  intro ghost server knows
  unfold serveConnection
  rw [wp_bind]
  refine wp_mono ?_ (closeIfInvalidated_connections lasting_roomNoted
    (fun _ _ arriving => arriving.roomNoted) user.userId ghost knows)
  intro result ghost₁ server₁ checked
  rcases result with exn | closed
  · exact checked
  rw [thenPost_ok]
  cases closed with
  | true => exact checked
  | false =>
      rw [if_neg Bool.false_ne_true, wp_bind]
      refine wp_mono ?_ (joinRoom_connections ⟨task, user.userId, user.username, user.role⟩ rfl
        ghost₁ server₁ checked.1)
      intro result ghost₂ server₂ joined
      rcases result with exn | _
      · exact arrived joined
      rw [thenPost_ok, wp_bind]
      refine wp_modify () (fun other different => rely_joined different) ?_
      rw [thenPost_ok, wp_bind]
      refine wp_mono ?_ (closeIfInvalidated_connections
        lasting_insideRoom (fun _ _ greeting => greeting.1.1) user.userId () joined)
      intro result ghost₃ server₃ checked
      rcases result with exn | closed
      · exact seated checked
      rw [thenPost_ok]
      cases closed with
      | true => exact seated checked
      | false =>
          have isOpen : Open strict task (Greeting task) ghost₃ server₃ :=
            open_of_unmarked checked.1 checked.1.2.1.1.1.1 checked.2
          rw [if_neg Bool.false_ne_true, wp_bind]
          refine wp_mono ?_ (greet_connections rechecks user ghost₃ isOpen)
          intro result ghost₄ server₄ greeted
          rcases result with exn | _
          · exact seated greeted
          exact wp_mono (fun _ _ _ after => seated after)
            (receiveLoop_connections rechecks user messages ghost₄ server₄ greeted)

/-- The end of an endpoint: it leaves the room, or forgets a connection that never
joined. -/
theorem departure_connections (rechecks : Rechecks strict allows) :
    Leads (serverConnections P strict) allows task (Rests strict task (RoomNoted task))
      (Rests strict task (OutsideRoom task))
      (do if (← get).joined task then leaveRoom task else modify (forget task)) := by
  intro ghost server knows
  rw [wp_bind, wp_get, thenPost_ok]
  split
  · next joined =>
      exact leaveRoom_connections rechecks ghost server
        ⟨knows.1, ⟨knows.2.1.mpr joined, joined⟩, knows.2.2⟩
  · next notJoined =>
      have outside : ¬(connectionView server).InRoom task :=
        fun member => notJoined (knows.2.1.mp member)
      refine wp_modify ghost (fun other different => rely_forget different) ?_
      exact ⟨knows.1.forget outside _,
        ⟨outside, Function.update_self _ _ _, Function.update_self _ _ _⟩, knows.2.2⟩

/-- The endpoint of an authenticated connection. -/
theorem admitted_connections (rechecks : Rechecks strict allows) (user : AuthenticatedUser)
    (messages : Nat) :
    Leads (serverConnections P strict) allows task (Rests strict task (Unstarted task))
      (Rests strict task (OutsideRoom task)) (do
        accept
        modify (setStamp task (some user.stamp))
        Coroutine.tryFinally
          (Coroutine.tryExcept (serveConnection task user messages) fun _ =>
            closeConnection task 1011 "Collaboration server error")
          (do
            if (← get).joined task then leaveRoom task
            else modify (forget task))) := by
  refine Preserves.bind_leads (operation_connections lasting_unstarted (by decide) fun _ => rfl)
    (fun _ _ knows => ⟨knows.1, knows.2.1.1, knows.2.2⟩) fun _ => ?_
  intro ghost server knows
  rw [wp_bind]
  refine wp_modify ghost (fun other different => rely_setStamp different _) ?_
  have arriving : Rests strict task (Arriving task) ghost
      (server.setStamp task (some user.stamp)) := by
    obtain ⟨inv, ⟨outside, notJoined, unfenced⟩, idle⟩ := knows
    refine ⟨⟨inv.kept, inv.noted, inv.addressed, inv.greeted, inv.fenced, ?_, inv.ordered⟩,
      ⟨outside.1, notJoined, unfenced⟩, idle⟩
    intro websocket member unmarked
    have informed := inv.informed websocket member unmarked
    exact ⟨informed.covered, informed.told, informed.shown⟩
  rw [thenPost_ok]
  exact Leads.tryFinally (.tryExcept (serveConnection_connections rechecks user messages) fun _ =>
    closeConnection_preserves (close_connections lasting_roomNoted) _ _ _)
    (departure_connections rechecks) ghost _ arriving

private theorem websocketEndpoint_connections (rechecks : Rechecks strict allows)
    (handshake : Handshake)
    (messages : Nat) :
    Leads (serverConnections P strict) allows task (Rests strict task (Unstarted task))
      (Rests strict task (OutsideRoom task)) (websocketEndpoint handshake messages task) := by
  have accepted : Preserves (serverConnections P strict) allows task
      (Rests strict task (Unstarted task)) (accept : ServerProgram P Unit) :=
    operation_connections lasting_unstarted (by decide) fun _ => rfl
  have implied : ∀ (ghost : Unit) (server : ServerState P),
      Rests strict task (Unstarted task) ghost server →
      Rests strict task (OutsideRoom task) ghost server :=
    fun _ _ knows => ⟨knows.1, knows.2.1.1, knows.2.2⟩
  unfold websocketEndpoint
  refine Preserves.bind_leads (.tryExcept (.bind
    (authenticateWs_preserves (query_connections lasting_unstarted) _) fun _ => .pure _)
    fun exn => ?_) implied fun authenticated => ?_
  · split
    · exact .pure _
    · exact .throw _
  · cases authenticated with
    | error failure =>
        exact Preserves.leads (.bind accepted fun _ => close_connections lasting_unstarted _ _ _)
          implied
    | ok user => exact admitted_connections rechecks user messages

/-! ### Every run of the server -/

/-- Every handler keeps the connection protocol. -/
theorem handler_connections (rechecks : Rechecks strict allows) (request : ServerRequest P) :
    Leads (serverConnections P strict) allows task (Rests strict task (Unstarted task))
      (Rests strict task (OutsideRoom task)) (request.handler task) := by
  have implied : ∀ (ghost : Unit) (server : ServerState P),
      Rests strict task (Unstarted task) ghost server →
      Rests strict task (OutsideRoom task) ghost server :=
    fun _ _ knows => ⟨knows.1, knows.2.1.1, knows.2.2⟩
  cases request with
  | websocket handshake messages => exact websocketEndpoint_connections rechecks _ _
  | save credentials documentState =>
      exact .of_implied implied (saveSessionDocument_connections rechecks _ _)
  | createSnapshot credentials =>
      exact .of_implied implied (createSnapshotEndpoint_connections _)
  | restoreSnapshot credentials snapshotId =>
      exact .of_implied implied (restoreSnapshotEndpoint_connections rechecks _ _)
  | run credentials =>
      exact .of_implied implied (.bind (runDocument_connections _) fun _ => .pure _)
  | maintain => exact .of_implied implied maintainDocumentCheckpoint_connections
  | shutdown => exact .of_implied implied shutdownCheckpoint_connections
  | addMember credentials key role =>
      exact .of_implied implied (addMemberEndpoint_connections _ _ _)
  | updateMemberRole credentials userId role =>
      exact .of_implied implied (updateMemberRoleEndpoint_connections _ _ _)
  | removeMember credentials userId =>
      exact .of_implied implied (removeMemberEndpoint_connections _ _)
  | closeSession credentials =>
      exact .of_implied implied (closeSessionEndpoint_connections _)
  | relay event =>
      exact .of_implied implied (broadcastBinary_connections lasting_outsideRoom rechecks _ rfl)

/-- A process that has just started has no connection. -/
theorem connectionInv_boot (store : DocStore P) (database : Database P)
    (replicas : WebSocket → P.Doc) :
    ConnectionInv strict (connectionView (boot store database replicas)) := by
  have nobody : ∀ websocket, ¬(connectionView (boot store database replicas)).InRoom websocket := by
    rintro websocket ⟨connection, member, _⟩
    cases member
  refine ⟨.nil _, fun _ member => absurd member (nobody _), ?_, ?_, nofun,
    fun _ member => absurd member (nobody _), fun _ => List.Pairwise.nil⟩
  · rintro websocket frame (passed | ⟨_, _, running, _⟩)
    · cases passed
    · cases running
  · rintro websocket (reported | greeted)
    · cases reported
    · cases greeted

private theorem unstarted_boot (store : DocStore P) (database : Database P)
    (replicas : WebSocket → P.Doc) (task : TaskId) :
    Unstarted task (connectionView (boot store database replicas)) := by
  refine ⟨⟨?_, rfl, rfl⟩, rfl, nofun⟩
  rintro ⟨connection, member, _⟩
  cases member

private theorem serverService_keeps_connections {policy : ServerPolicy P}
    (rechecks : ∀ request, Rechecks strict (policy request)) :
    Keeps (serverConnections P strict) (serverService P) policy Booted where
  start := by
    intro server booted
    rcases booted with ⟨sessionId, saved, savedAt, checkpoint, clock, database, replicas, rfl⟩
    exact ⟨(), connectionInv_boot _ _ _, fun task => ⟨unstarted_boot _ _ _ task, rfl⟩⟩
  request := by
    intro task request ghost server inv _ fresh
    refine wp_mono ?_ (handler_connections (rechecks request) request ghost server ⟨inv, fresh⟩)
    exact fun _ _ _ after => after
  ambient := by
    intro change ghost server server' taken inv _
    have same : connectionView server' = connectionView server := by
      cases change with
      | tick elapsed =>
          obtain rfl := Option.some.inj taken
          rfl
      | edit websocket change =>
          obtain rfl := Option.some.inj taken
          rfl
      | deliver websocket index =>
          obtain ⟨peer, _, rfl⟩ := Option.map_eq_some_iff.mp taken
          rfl
    refine ⟨ghost, ?_, fun task => ?_⟩
    · change ConnectionInv strict _
      rw [same]
      exact inv
    · change ConnectionRely task _ _
      rw [same]
      exact ConnectionRely.refl _ _
  restart := by
    intro ghost server inv
    let replicas := fun websocket => (server.peers websocket).replica
    exact ⟨(), connectionInv_boot server.store.reboot server.database replicas, fun task =>
      ⟨unstarted_boot server.store.reboot server.database replicas task, rfl⟩⟩

/-- What the protocol says of a pool and its tasks, in every run of the server. -/
theorem serverService_connections {policy : ServerPolicy P}
    (rechecks : ∀ request, Rechecks strict (policy request)) {pool : ServerPool P}
    (reached : Reachable (serverService P) policy Booted pool) :
    ConnectionInv strict (connectionView pool.state) ∧
      ∀ task, TaskVerified (serverConnections P strict) policy pool () task := by
  obtain ⟨_, inv, tasks⟩ := reached.verified ((connectionProtocol_lawful strict).over _)
    (serverService_keeps_connections rechecks) fun _ => trivial
  exact ⟨inv, tasks⟩

end Concord.Server

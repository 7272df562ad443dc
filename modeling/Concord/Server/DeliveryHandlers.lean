import Concord.Server.DeliveryEndpoints

/-!
Contract: the WebSocket endpoint keeps the protocol of the deliveries.

Owns:
- the answer to a sync step 1, which is owed from the step that computes it;
- a received update, which is owed to the room until it has been broadcast;
- joining and leaving;
- the protocol in every run of the server.

A connection that has not been answered may join without being owed anything. A
sync step 1 carries the state vector of something that the replica of the connection
holds, when it is received and for ever after.

Does not own: which runs these are.
-/

set_option autoImplicit false

namespace Concord.Server

open Asyncio Collaboration ServerState Platform

variable {P : Platform} {α : Type} {task other : TaskId} {debts : Debts P}
  {server : ServerState P} {allows : ServerState P → Call → Event P → Prop}
  {fact : DeliveryView P → Prop} {due : WebSocket → P.Doc}

/-! ### The check against the fences -/

/-- A task marks its own connection. -/
theorem setRevoked_step (abiding : Abiding task fact) (failure : Nat × String)
    (knows : Stands task due fact debts server) :
    (∀ other, ViewRely other (deliveryView server) (deliveryView (server.setRevoked task failure))) ∧
      Stands task due fact debts (server.setRevoked task failure) := by
  refine knows.fence abiding [task] fun websocket marked => ?_
  by_cases own : websocket = task
  · exact .inl (List.mem_singleton.mpr own)
  · rw [Function.update_of_ne own] at marked
    exact .inr marked

private theorem closeIfInvalidated_deliveries (abiding : Abiding task fact) (userId : UserId) :
    Preserves (serverDeliveries P) allows task (Stands task due fact)
      (closeIfInvalidated userId task) :=
  closeIfInvalidated_preserves (close_deliveries abiding) _ _ fun failure =>
    .modifyGet fun debts server knows => by
      obtain ⟨rely, after⟩ := setRevoked_step abiding failure knows
      exact ⟨debts, fun other _ => ⟨rely other, rfl⟩, after⟩

/-! ### One received frame -/

/-- What a message says of the replica that it comes from: a sync step 1 carries the
state vector of something that the replica holds. -/
def Tells (task : TaskId) (message : Option (ParsedMessage P)) (view : DeliveryView P) : Prop :=
  ∀ payload, message = some (.sync .step1 payload) →
    ∃ known, payload = P.getState known ∧ known ≤ (view.peers task).replica

private theorem abiding_tells (message : Option (ParsedMessage P)) :
    Abiding task (Tells task message) := by
  intro before after rely tells payload same
  obtain ⟨known, vector, held⟩ := tells payload same
  exact ⟨known, vector, held.trans rely.replica_le⟩

/-- The answer to a sync step 1 is passed to `send_bytes`. -/
theorem deliveryView_answer (update : P.Bytes) (server : ServerState P) :
    deliveryView (server.note (.passed task (.syncStep2 update))) =
      { deliveryView server with
        answered := Function.update (deliveryView server).answered task True } := by
  have fenced : ∀ websocket,
      .fenced websocket ∈ (server.note (.passed task (.syncStep2 update))).wire ↔
        .fenced websocket ∈ server.wire := fun websocket => List.mem_cons.trans (or_iff_right nofun)
  have answered : ∀ websocket, Answered websocket (server.note (.passed task (.syncStep2 update))) =
      Function.update (deliveryView server).answered task True websocket := by
    intro websocket
    by_cases own : websocket = task
    · subst own
      rw [Function.update_self]
      exact eq_true ⟨update, List.mem_cons_self⟩
    · rw [Function.update_of_ne own]
      refine propext (exists_congr fun other => List.mem_cons.trans (or_iff_right ?_))
      exact fun same => own (WireEvent.passed.inj same).1
  simp only [deliveryView, fenced, answered]
  rfl

/-- A reply that completes what the connection holds is owed until it has been sent. -/
theorem wp_answer_deliveries (succeed : SendsSucceed allows) {known : P.Doc} {update : P.Bytes}
    (complete : documentContent server.store ≤ known ⊔ content (some update))
    (knows : Stands task ⊥ (Holding task known) debts server) :
    wp (serverDeliveries P) allows task (sendBytes task task (.syncStep2 update))
      (fun _ => Stands task ⊥ Anything) debts server := by
  let owed : WebSocket → P.Doc := Function.update ⊥ task (content (some update))
  have view := @deliveryView_answer P task update server
  have rely : ∀ other, task ≠ other → ViewRely other (deliveryView server)
      (deliveryView (server.note (.passed task (.syncStep2 update)))) := by
    intro other different
    rw [view]
    exact ⟨fun held => ⟨held, rfl⟩, iff_of_eq (Function.update_of_ne different.symm _ _), le_rfl⟩
  have inv : DeliveryInv (Function.update debts task owed)
      (deliveryView (server.note (.passed task (.syncStep2 update)))) := by
    rw [view]
    exact knows.1.answer knows.2.1 knows.2.2 complete
  have abiding : Abiding task fun view : DeliveryView P => view.answered task :=
    fun _ _ rely answered => rely.answered.mpr answered
  have settled : paid owed task = ⊥ := by
    unfold paid
    rw [Function.update_idem]
    exact Function.update_eq_self _ _
  unfold sendBytes
  rw [wp_bind]
  refine wp_modify (Function.update debts task owed)
    (fun other different => rely_settle owed different (rely other different)) ?_
  rw [thenPost_ok]
  refine wp_mono ?_ (@wp_send_deliveries _ _ _ _ _ _ owed abiding succeed _ _ ?_ (fun _ _ _ => id)
    ⟨inv, Function.update_self _ _ _, ⟨update, List.mem_cons_self⟩⟩)
  · intro result debts₁ server₁ after
    rw [settled] at after
    exact ⟨after.1, after.2.1, trivial⟩
  · exact (Function.update_self task _ _).le

/-- One sync step 1. -/
theorem handleStep1_deliveries (succeed : SendsSucceed allows) {payload : P.Bytes}
    (user : AuthenticatedUser)
    (knows : Stands task ⊥ (Tells task (some (.sync .step1 payload))) debts server) :
    wp (serverDeliveries P) allows task (handleSyncMessage task user .step1 payload)
      (fun _ => Stands task ⊥ Anything) debts server := by
  obtain ⟨known, rfl, held⟩ := knows.2.2 payload rfl
  have same := encodeStateAsUpdate_content (some (P.getState known)) server.store
  have complete := @encodeStateAsUpdate_complete P known
  unfold handleSyncMessage
  rw [wp_bind, wp_tryExcept, wp_bind]
  refine wp_atomic debts (fun other _ => ⟨rely_store _, rfl⟩) ?_
  have after : Stands task ⊥ (Holding task known) debts
      (onStore (DocStore.encodeStateAsUpdate (some (P.getState known))) server).2 :=
    Logic.Knows.of_same ⟨knows.1, knows.2.1, held⟩ (deliveryView_putStore same)
  cases answered : (onStore (DocStore.encodeStateAsUpdate (some (P.getState known))) server).1 with
  | error exn => exact ⟨after.1, after.2.1, trivial⟩
  | ok update =>
      refine wp_answer_deliveries succeed (same.le.trans ?_) after
      exact encodeStateAsUpdate_complete answered

/-- What a task owes after `apply_if_authorized`. -/
def owedApplied (payload : P.Bytes) : Except Exn ApplyOutcome → WebSocket → P.Doc
  | .ok .applied => fun _ => content (some payload)
  | _ => ⊥

private theorem applyIfAuthorized_owed (abiding : Abiding task fact) (userId : UserId)
    (role : RoleEnum)
    (payload : P.Bytes) (knows : Stands task ⊥ fact debts server) :
    ∃ debts', (serverDeliveries P).guar task debts server debts'
        (applyIfAuthorized task userId role payload server).2 ∧
      Stands task (owedApplied payload (.ok (applyIfAuthorized task userId role payload server).1))
        fact debts' (applyIfAuthorized task userId role payload server).2 := by
  unfold applyIfAuthorized
  split
  · next failure _ =>
      obtain ⟨rely, after⟩ := setRevoked_step abiding failure knows
      exact ⟨debts, fun other _ => ⟨rely other, rfl⟩, after⟩
  · split
    · exact ⟨debts, fun other _ => ⟨ViewRely.refl _ _, rfl⟩, knows⟩
    · obtain ⟨debts', guar, after⟩ :=
        @mutate_step _ _ _ _ _ _ abiding userId _ _ (applyUpdate_adds payload) knows
      generalize server.mutate userId (DocStore.applyUpdate payload) = outcome at guar after ⊢
      obtain ⟨result, server'⟩ := outcome
      cases result with
      | ok answer => exact ⟨debts', guar, after⟩
      | error exn => exact ⟨debts', guar, after⟩

/-- One sync message. A received update is owed to the room from the step that applies it
until it has been broadcast. -/
theorem handleSyncMessage_deliveries (succeed : SendsSucceed allows) (user : AuthenticatedUser)
    (subtype : SyncSubtype) (payload : P.Bytes)
    (knows : Stands task ⊥ (Tells task (some (.sync subtype payload))) debts server) :
    wp (serverDeliveries P) allows task (handleSyncMessage task user subtype payload)
      (fun _ => Stands task ⊥ Anything) debts server := by
  have applied : wp (serverDeliveries P) allows task
      (withRoomLock task (modifyGet (applyIfAuthorized task user.userId user.role payload)))
      (fun result => Stands task (owedApplied payload result) Anything) debts server := by
    refine wp_withRoomLock_deliveries abiding_anything lockfree_anything
      (fun connections debts server held => ?_) ⟨knows.1, knows.2.1, trivial⟩
    obtain ⟨debts', guar, after⟩ := applyIfAuthorized_owed (abiding_anything.locking connections)
      user.userId user.role payload held
    exact wp_modifyGet debts' guar after.releasing
  cases subtype with
  | step1 => exact handleStep1_deliveries succeed user knows
  | _ =>
      unfold handleSyncMessage
      rw [wp_bind]
      refine wp_mono ?_ applied
      intro result debts₁ server₁ after
      rcases result with exn | outcome
      · exact after
      rw [thenPost_ok]
      cases outcome with
      | failed failure closeRequired =>
          cases closeRequired with
          | true =>
              exact closeConnection_preserves (close_deliveries abiding_anything) _ _ _ debts₁
                server₁ after
          | false => exact after
      | denied => exact reply_deliveries abiding_anything succeed task id debts₁ server₁ after
      | rejected => exact after
      | applied => exact broadcastBinary_deliveries abiding_anything succeed id after

private theorem broadcastAwareness_deliveries (abiding : Abiding task fact)
    (succeed : SendsSucceed allows)
    (entries : List (AwarenessEntry P)) :
    Preserves (serverDeliveries P) allows task (Stands task ⊥ fact)
      (broadcastAwareness task entries) := by
  unfold broadcastAwareness
  split
  · exact .pure _
  · exact broadcastBinary_silent abiding succeed rfl

private theorem pruneStaleAwareness_deliveries (abiding : Abiding task fact)
    (succeed : SendsSucceed allows) :
    Preserves (serverDeliveries P) allows task (Stands task ⊥ fact) (pruneStaleAwareness task) :=
  .bind (modifyGet_deliveries abiding fun _ => rfl) fun _ =>
    broadcastAwareness_deliveries abiding succeed _

private theorem handleBinaryMessage_deliveries (succeed : SendsSucceed allows)
    (user : AuthenticatedUser)
    (message : Option (ParsedMessage P)) :
    Leads (serverDeliveries P) allows task (Stands task ⊥ (Tells task message))
      (Stands task ⊥ Anything) (handleBinaryMessage task user message) := by
  intro debts server knows
  have idle : Stands task ⊥ Anything debts server := ⟨knows.1, knows.2.1, trivial⟩
  unfold handleBinaryMessage
  rw [wp_bind, wp_get, thenPost_ok]
  split
  · exact idle
  · split
    · exact idle
    · exact handleSyncMessage_deliveries succeed user _ _ knows
    · exact Preserves.bind (modifyGet_deliveries abiding_anything fun _ => rfl)
        (fun _ => broadcastAwareness_deliveries abiding_anything succeed _) debts server idle
    · rw [wp_bind, wp_get, thenPost_ok]
      exact reply_deliveries abiding_anything succeed task id debts server idle
    · exact idle

/-! ### Joining and the handshake -/

/-- The last step of `_join_room`: a connection that has not been answered is served. -/
theorem append_deliveries {connection : ConnectionInfo} (own : connection.websocket = task)
    {connections : List ConnectionInfo}
    (knows : Stands task ⊥ (Locking task connections (Unanswered task)) debts server) :
    (∀ other, task ≠ other → ViewRely other (deliveryView server)
        (deliveryView { server with rooms := some (server.connections ++ [connection]) })) ∧
      Releasing task ⊥ (Unanswered task) debts
        { server with rooms := some (server.connections ++ [connection]) } := by
  obtain ⟨inv, owes, lock, _, unanswered⟩ := knows
  have joined : DeliveryInv debts
      (deliveryView { server with rooms := some (server.connections ++ [connection]) }) := by
    refine inv.narrow ?_ rfl rfl rfl inv.marked
    rintro websocket ⟨⟨member, there, same⟩, unfenced⟩ answered
    refine ⟨⟨member, ?_, same⟩, unfenced⟩
    rcases List.mem_append.mp there with old | new
    · exact old
    · obtain rfl := List.mem_singleton.mp new
      rw [← same, own] at answered
      exact absurd answered unanswered
  constructor
  · intro other different
    exact ⟨fun held => absurd (Option.some.inj (lock.symm.trans held)) different, Iff.rfl, le_rfl⟩
  · exact ⟨lock, (Stands.settles ⟨joined, owes, unanswered⟩)⟩

private theorem lockfree_unanswered : Lockfree (Unanswered task : DeliveryView P → Prop) :=
  fun _ _ unanswered => unanswered

private theorem joinRoom_deliveries (connection : ConnectionInfo)
    (own : connection.websocket = task) :
    Preserves (serverDeliveries P) allows task (Stands task ⊥ (Unanswered task))
      (joinRoom connection) := by
  intro debts server knows
  unfold joinRoom
  rw [own]
  refine wp_withRoomLock_deliveries abiding_unanswered lockfree_unanswered
    (fun connections debts₁ server₁ held => ?_) knows
  have append : ∀ debts server, Stands task ⊥ (Locking task connections (Unanswered task)) debts server →
      wp (serverDeliveries P) allows task
        (modify fun server => { server with rooms := some (server.connections ++ [connection]) } :
          ServerProgram P PUnit) (fun _ => Releasing task ⊥ (Unanswered task)) debts server := by
    intro debts server held
    obtain ⟨rely, after⟩ := append_deliveries own held
    exact wp_modify debts (fun other different => ⟨rely other different, rfl⟩) after
  rw [wp_bind]
  refine wp_modify debts₁ (fun other _ => ⟨ViewRely.refl other (deliveryView server₁), rfl⟩) ?_
  rw [thenPost_ok, wp_bind, wp_get, thenPost_ok]
  have opened : Stands task ⊥ (Locking task connections (Unanswered task)) debts₁
      { server₁ with rooms := some server₁.connections } := held
  split
  · rw [wp_bind]
    refine wp_mono ?_ (load_locked abiding_unanswered connections debts₁ _ opened)
    intro result debts₂ server₂ after
    cases result with
    | ok ref => exact append debts₂ server₂ after
    | error exn => exact after.releasing
  · exact append debts₁ _ opened

/-- The handshake frames carry nothing of the document. -/
theorem greet_deliveries (succeed : SendsSucceed allows) (user : AuthenticatedUser) :
    Preserves (serverDeliveries P) allows task (Stands task ⊥ Anything) (greet task user) := by
  have reply : ∀ {frame : ServerFrame P}, ¬frame.IsAnswer →
      Preserves (serverDeliveries P) allows task (Stands task ⊥ Anything)
        (sendBytes task task frame) := reply_deliveries abiding_anything succeed task
  have status : Preserves (serverDeliveries P) allows task (Stands task ⊥ Anything) (do
      modify (ServerState.note (.reported task))
      sendCurrentDocumentStatus task
      let active := AwarenessStates.activeEntries (← get).awareness
      modify (ServerState.note (.greeted task))
      if active.isEmpty then pure ()
      else sendBytes task task (.awareness active)) := by
    refine .bind (note_deliveries abiding_anything nofun nofun) fun _ => .bind ?_ fun _ => ?_
    · unfold sendCurrentDocumentStatus
      refine .bind .get fun server => ?_
      split
      · exact .pure _
      · exact reply id
    · refine .bind .get fun server => .bind (note_deliveries abiding_anything nofun nofun) fun _ => ?_
      split
      · exact .pure _
      · exact reply id
  unfold greet
  dsimp only
  split
  · refine .bind (deliveries_of_view ((abiding_anything.standing ⊥).atomic fun server => ?_))
      fun stateVector => .bind (reply id) fun _ => status
    exact deliveryView_putStore (getStateVector_content server.store)
  · exact status

/-! ### Leaving -/

/-- The authorization of a connection is forgotten. -/
theorem forget_deliveries (abiding : Abiding task fact) :
    Preserves (serverDeliveries P) allows task (Stands task due fact)
      (modify (forget task) : ServerProgram P PUnit) :=
  .modifyGet fun debts server knows => by
    have rely : ∀ other, ViewRely other (deliveryView server) (deliveryView (server.forget task)) :=
      fun other => ⟨fun held => ⟨held, rfl⟩, Iff.rfl, le_rfl⟩
    refine ⟨debts, fun other _ => ⟨rely other, rfl⟩, Stands.step abiding knows ?_ (rely task)⟩
    refine knows.1.narrow (fun _ served _ => served) rfl rfl rfl fun websocket marked => ?_
    refine knows.1.marked websocket fun unmarked => marked ?_
    change Function.update server.revokedConnections task none websocket = none
    rw [Function.update_apply]
    split
    · rfl
    · exact unmarked

/-- A connection leaves the room. -/
theorem leave_deliveries {connections : List ConnectionInfo}
    (knows : Stands task ⊥ (Locking task connections Anything) debts server) :
    (∀ other, task ≠ other → ViewRely other (deliveryView server)
        (deliveryView (leave task server).2)) ∧
      Stands task ⊥ (Locking task (leave task server).2.connections Anything) debts
        (leave task server).2 := by
  obtain ⟨inv, owes, lock, _, _⟩ := knows
  constructor
  · intro other different
    exact ⟨fun held => absurd (Option.some.inj (lock.symm.trans held)) different, Iff.rfl, le_rfl⟩
  · refine ⟨inv.narrow ?_ rfl rfl rfl inv.marked, owes, lock, rfl, trivial⟩
    rintro websocket ⟨⟨connection, there, own⟩, unfenced⟩ _
    rw [show (deliveryView (leave task server).2).connections = _ from
      leave_connections task server] at there
    exact ⟨⟨connection, (List.mem_filter.mp there).1, own⟩, unfenced⟩

private theorem leaveRoom_deliveries (succeed : SendsSucceed allows) :
    Preserves (serverDeliveries P) allows task (Stands task ⊥ Anything) (leaveRoom task) := by
  unfold leaveRoom
  refine .bind ?_ fun removed => broadcastAwareness_deliveries abiding_anything succeed _
  intro debts server knows
  refine wp_withRoomLock_deliveries abiding_anything lockfree_anything
    (fun connections debts₁ server₁ held => ?_) knows
  have locked : ∀ connections, Abiding task (Locking task connections (Anything : DeliveryView P → Prop)) :=
    abiding_anything.locking
  refine (forget_deliveries (locked connections)).bind_wp (fun _ _ _ => Stands.releasing)
    (fun _ debts₂ server₂ forgotten => ?_) held
  rw [wp_bind, wp_get, thenPost_ok]
  split
  · exact forgotten.releasing
  · obtain ⟨rely, left⟩ := leave_deliveries forgotten
    rw [wp_bind]
    refine wp_modifyGet debts₂ (fun other different => ⟨rely other different, rfl⟩) ?_
    rw [thenPost_ok]
    have empties : (leave task server₂).1.1 = true → (leave task server₂).2.connections = [] := by
      intro isLast
      rw [leave_connections]
      exact List.isEmpty_iff.mp isLast
    generalize leave task server₂ = outcome at left empties
    obtain ⟨⟨isLast, removed⟩, server₃⟩ := outcome
    cases isLast with
    | false => exact left.releasing
    | true =>
        have empty : Stands task ⊥ (Locking task [] Anything) debts₂ server₃ :=
          empties rfl ▸ left
        refine Preserves.bind_wp (.tryExcept (.bind
          (manager_empty abiding_anything (checkpointAndRemove_awaits task)) fun _ => .pure _)
          fun _ => .pure _) (fun _ _ _ => Stands.releasing) (fun _ debts₄ server₄ stored => ?_) empty
        exact wp_mono (fun _ _ _ after => Stands.releasing after)
          (Preserves.bind (modifyGet_deliveries (locked []) fun _ => rfl) (fun _ => .pure _) debts₄
            server₄ stored)

/-! ### The lifetime of a connection -/

/-- The sync step 1 of a connection carries the state vector of something that it holds. -/
def VectorsHeld (task : TaskId) (allows : ServerState P → Call → Event P → Prop) : Prop :=
  ∀ server message, allows server .receive (.received (.bytes message)) →
    Tells task message (deliveryView server)

/-- What a received message tells. -/
def TellsOf (task : TaskId) : Incoming P → DeliveryView P → Prop
  | .bytes message => Tells task message
  | _ => Anything

/-- The wait for a message, by a task that owes nothing. -/
theorem receive_deliveries (honest : VectorsHeld task allows)
    (knows : Stands task ⊥ Anything debts server) :
    wp (serverDeliveries P) allows task receive (fun result => match result with
      | .ok message => Stands task ⊥ (TellsOf task message)
      | .error _ => Stands task ⊥ Anything) debts server := by
  refine wp_awaitCall knows.1 (fun _ => knows.2.1) ?_
  intro debts₁ server₁ rely inv _ event result server₂ allowed taken
  obtain ⟨owes, _⟩ : Owing task ⊥ Anything debts₁ (deliveryView server₁) :=
    abiding_anything.waiting.stable rely inv knows.2
  refine ⟨debts₁, ?_⟩
  cases event with
  | done => cases taken
  | raised | raisedAfter =>
      obtain ⟨rfl, rfl⟩ := Prod.mk.inj (Option.some.inj taken)
      exact ⟨fun other _ => ⟨ViewRely.refl _ _, rfl⟩, inv, owes, trivial⟩
  | received message =>
      obtain ⟨rfl, rfl⟩ := Prod.mk.inj (Option.some.inj taken)
      refine ⟨fun other _ => ⟨ViewRely.refl _ _, rfl⟩, inv, owes, ?_⟩
      cases message with
      | bytes message => exact honest server₁ message allowed
      | _ => trivial

private theorem receiveLoop_deliveries (honest : VectorsHeld task allows)
    (succeed : SendsSucceed allows)
    (user : AuthenticatedUser) (messages : Nat) :
    Preserves (serverDeliveries P) allows task (Stands task ⊥ Anything)
      (receiveLoop task user messages) := by
  induction messages with
  | zero =>
      intro debts server knows
      exact wp_awaitUntil knows.1 (fun _ => knows.2.1) fun _ _ _ _ _ _ _ taken => nomatch taken
  | succ messages inductionHypothesis =>
      intro debts server knows
      unfold receiveLoop
      rw [wp_bind]
      refine wp_mono ?_ (receive_deliveries honest knows)
      intro result debts₁ server₁ received
      rcases result with exn | message
      · exact received
      rw [thenPost_ok]
      cases message with
      | disconnect => exact received
      | bytes message =>
          have abiding : Abiding task (Tells task message) := abiding_tells message
          have forget : ∀ {debts server}, Stands task ⊥ (Tells task message) debts server →
              Stands task ⊥ Anything debts server := fun told => ⟨told.1, told.2.1, trivial⟩
          refine (closeIfInvalidated_deliveries abiding user.userId).bind_wp (fun _ _ _ => forget)
            (fun closed debts₂ server₂ checked => ?_) received
          split
          · exact forget checked
          · refine (pruneStaleAwareness_deliveries abiding succeed).bind_wp (fun _ _ _ => forget)
              (fun _ debts₃ server₃ pruned => ?_) checked
            rw [wp_bind]
            refine wp_mono ?_ (handleBinaryMessage_deliveries succeed user message debts₃ server₃
              pruned)
            intro result debts₄ server₄ handled
            cases result with
            | error exn => exact handled
            | ok _ => exact inductionHypothesis debts₄ server₄ handled
      | text =>
          refine (closeIfInvalidated_deliveries abiding_anything user.userId).bind_wp
            (fun _ _ _ => id) (fun closed debts₂ server₂ checked => ?_) received
          split
          · exact checked
          · exact Preserves.bind (pruneStaleAwareness_deliveries abiding_anything succeed)
              (fun _ => inductionHypothesis) debts₂ server₂ checked

private theorem serveConnection_deliveries (honest : VectorsHeld task allows)
    (succeed : SendsSucceed allows) (user : AuthenticatedUser) (messages : Nat) :
    Leads (serverDeliveries P) allows task (Stands task ⊥ (Unanswered task))
      (Stands task ⊥ Anything) (serveConnection task user messages) := by
  have forget : ∀ (debts : Debts P) (server : ServerState P),
      Stands task ⊥ (Unanswered task) debts server → Stands task ⊥ Anything debts server :=
    fun _ _ knows => ⟨knows.1, knows.2.1, trivial⟩
  unfold serveConnection
  refine Preserves.bind_leads (closeIfInvalidated_deliveries abiding_unanswered user.userId) forget
    fun closed => ?_
  split
  · exact (Preserves.pure _).leads forget
  · refine Preserves.bind_leads (joinRoom_deliveries _ rfl) forget fun _ => .of_implied forget ?_
    refine .bind (modifyGet_deliveries abiding_anything fun _ => rfl) fun _ => ?_
    refine .bind (closeIfInvalidated_deliveries abiding_anything user.userId) fun closed => ?_
    split
    · exact .pure _
    · exact .bind (greet_deliveries succeed user) fun _ =>
        receiveLoop_deliveries honest succeed user messages

private theorem departure_deliveries (succeed : SendsSucceed allows) :
    Preserves (serverDeliveries P) allows task (Stands task ⊥ Anything)
      (do if (← get).joined task then leaveRoom task else modify (forget task)) := by
  refine .bind .get fun server => ?_
  split
  · exact leaveRoom_deliveries succeed
  · exact forget_deliveries abiding_anything

private theorem websocketEndpoint_deliveries (honest : VectorsHeld task allows)
    (succeed : SendsSucceed allows) (handshake : Handshake) (messages : Nat) :
    Leads (serverDeliveries P) allows task (Stands task ⊥ (Unanswered task))
      (Stands task ⊥ Anything) (websocketEndpoint handshake messages task) := by
  have forget : ∀ (debts : Debts P) (server : ServerState P),
      Stands task ⊥ (Unanswered task) debts server → Stands task ⊥ Anything debts server :=
    fun _ _ knows => ⟨knows.1, knows.2.1, trivial⟩
  have accepted : Preserves (serverDeliveries P) allows task (Stands task ⊥ (Unanswered task))
      (accept : ServerProgram P Unit) :=
    operation_deliveries abiding_unanswered (by decide) fun _ => rfl
  unfold websocketEndpoint
  refine Preserves.bind_leads (.tryExcept (.bind
    (authenticateWs_preserves (query_deliveries abiding_unanswered) _) fun _ => .pure _)
    fun exn => ?_) forget fun authenticated => ?_
  · split
    · exact .pure _
    · exact .throw _
  · cases authenticated with
    | error failure =>
        exact Preserves.leads (.bind accepted fun _ => close_deliveries abiding_unanswered _ _ _) forget
    | ok user =>
        refine Preserves.bind_leads accepted forget fun _ => ?_
        refine Preserves.bind_leads (modifyGet_deliveries abiding_unanswered fun _ => rfl) forget
          fun _ => ?_
        refine Leads.tryFinally (.tryExcept (serveConnection_deliveries honest succeed user messages)
          fun exn => ?_) fun debts server => departure_deliveries succeed debts server
        exact closeConnection_preserves (close_deliveries abiding_anything) _ _ _

/-! ### Every run of the server -/
/-- What the runs of a task meet. -/
structure Delivers (task : TaskId) (request : ServerRequest P)
    (allows : ServerState P → Call → Event P → Prop) : Prop where
  succeed : SendsSucceed allows
  honest : VectorsHeld task allows
  held : ∀ credentials documentState, request = .save credentials documentState →
    SavesHeld (content (some documentState)) allows

private theorem handler_deliveries {request : ServerRequest P}
    (delivers : Delivers task request allows) :
    Leads (serverDeliveries P) allows task (Stands task ⊥ (Unanswered task))
      (Stands task ⊥ Anything) (request.handler task) := by
  have forget : ∀ (debts : Debts P) (server : ServerState P),
      Stands task ⊥ (Unanswered task) debts server → Stands task ⊥ Anything debts server :=
    fun _ _ knows => ⟨knows.1, knows.2.1, trivial⟩
  have succeed := delivers.succeed
  cases request with
  | websocket handshake messages =>
      exact websocketEndpoint_deliveries delivers.honest succeed handshake messages
  | save credentials documentState =>
      exact .of_implied forget (saveSessionDocument_deliveries succeed
        (delivers.held credentials documentState rfl) credentials)
  | createSnapshot credentials =>
      exact .of_implied forget (createSnapshotEndpoint_deliveries credentials)
  | restoreSnapshot credentials snapshotId =>
      exact .of_implied forget (restoreSnapshotEndpoint_deliveries succeed credentials snapshotId)
  | run credentials =>
      exact .of_implied forget (.bind (runDocument_deliveries credentials) fun _ => .pure _)
  | maintain => exact .of_implied forget maintainDocumentCheckpoint_deliveries
  | shutdown => exact .of_implied forget shutdownCheckpoint_deliveries
  | addMember credentials key role =>
      exact .of_implied forget (addMemberEndpoint_deliveries credentials key role)
  | updateMemberRole credentials userId role =>
      exact .of_implied forget (updateMemberRoleEndpoint_deliveries credentials userId role)
  | removeMember credentials userId =>
      exact .of_implied forget (removeMemberEndpoint_deliveries credentials userId)
  | closeSession credentials =>
      exact .of_implied forget (closeSessionEndpoint_deliveries credentials)
  | relay event => exact .of_implied forget (broadcastBinary_silent abiding_anything succeed rfl)

private theorem deliveryInv_boot (store : DocStore P) (database : Database P)
    (replicas : WebSocket → P.Doc) :
    DeliveryInv ⊥ (deliveryView (boot store database replicas)) := by
  refine ⟨?_, nofun, fun _ marked => absurd rfl marked⟩
  rintro websocket ⟨⟨connection, member, _⟩, _⟩
  cases member

private theorem unanswered_boot (store : DocStore P) (database : Database P)
    (replicas : WebSocket → P.Doc) (task : TaskId) :
    Unanswered task (deliveryView (boot store database replicas)) := by
  rintro ⟨update, passed⟩
  cases passed

/-- A peer that holds more than before. -/
theorem setPeer_deliveries {websocket : WebSocket} {peer : Peer P}
    (inv : DeliveryInv debts (deliveryView server))
    (below : ∀ bound, peer.Below bound → (server.peers websocket).Below bound)
    (grows : (server.peers websocket).replica ≤ peer.replica)
    (sent : peer.sent = (server.peers websocket).sent) :
    DeliveryInv debts (deliveryView (server.setPeer websocket peer)) ∧
      ∀ other, ViewRely other (deliveryView server) (deliveryView (server.setPeer websocket peer)) := by
  refine ⟨inv.setPeer below sent, fun other => ⟨fun held => ⟨held, rfl⟩, Iff.rfl, ?_⟩⟩
  change (server.peers other).replica ≤ (Function.update server.peers websocket peer other).replica
  rw [Function.update_apply]
  split
  · next same => exact same ▸ grows
  · exact le_rfl

private theorem edit_below {peer : Peer P} {change bound : P.Doc}
    (below : (peer.edit change).Below bound) :
    peer.Below bound :=
  ⟨le_sup_left.trans below.1, below.2⟩

private theorem deliver_below {peer after : Peer P} {index : Nat}
    (arrives : peer.deliver index = some after) :
    (∀ bound, after.Below bound → peer.Below bound) ∧ peer.replica ≤ after.replica ∧
      after.sent = peer.sent := by
  unfold Peer.deliver at arrives
  split at arrives
  · cases arrives
  · next frame found =>
      obtain rfl := Option.some.inj arrives
      refine ⟨fun bound below => ⟨le_sup_left.trans below.1, fun other member => ?_⟩, le_sup_left, rfl⟩
      obtain ⟨position, there⟩ := List.mem_iff_getElem?.mp member
      by_cases arrived : position = index
      · obtain rfl := Option.some.inj (found.symm.trans (arrived ▸ there))
        exact le_sup_right.trans below.1
      · exact below.2 other (List.mem_eraseIdx_iff_getElem?.mpr ⟨position, arrived, there⟩)

private theorem ambient_deliveries {change : Ambient P} {server' : ServerState P}
    (taken : server.ambient change = some server') (inv : DeliveryInv debts (deliveryView server)) :
    DeliveryInv debts (deliveryView server') ∧
      ∀ other, ViewRely other (deliveryView server) (deliveryView server') := by
  cases change with
  | tick elapsed =>
      obtain rfl := Option.some.inj taken
      have same : deliveryView (server.putStore (server.store.tick elapsed)) = deliveryView server :=
        deliveryView_putStore rfl
      rw [same]
      exact ⟨inv, fun other => ViewRely.refl _ _⟩
  | edit websocket change =>
      obtain rfl := Option.some.inj taken
      exact setPeer_deliveries inv (fun _ => edit_below) le_sup_left rfl
  | deliver websocket index =>
      obtain ⟨peer, arrives, rfl⟩ := Option.map_eq_some_iff.mp taken
      obtain ⟨below, grows, sent⟩ := deliver_below arrives
      exact setPeer_deliveries inv below grows sent

/-- A policy for each task under which the handlers keep the protocol. -/
abbrev ServerTaskPolicy (P : Platform) :=
  TaskPolicy (ServerState P) (Event P) Call (ServerRequest P)

theorem serverService_keeps_deliveries {policy : ServerTaskPolicy P}
    (delivers : ∀ task request, Delivers task request (policy task request)) :
    KeepsBy (serverDeliveries P) (serverService P) policy Booted where
  start := by
    intro server booted
    rcases booted with ⟨sessionId, saved, savedAt, checkpoint, clock, database, replicas, rfl⟩
    exact ⟨⊥, deliveryInv_boot _ _ _, fun task => ⟨rfl, unanswered_boot _ _ _ task⟩⟩
  request := by
    intro task request debts server inv _ fresh
    refine wp_mono ?_ (handler_deliveries (delivers task request) debts server
      ⟨inv, fresh.1, fresh.2⟩)
    exact fun _ _ _ after => ⟨after.1, after.2.1⟩
  ambient := by
    intro change debts server server' taken inv _
    obtain ⟨kept, rely⟩ := ambient_deliveries taken inv
    exact ⟨debts, kept, fun task => ⟨rely task, rfl⟩⟩
  restart := by
    intro debts server inv
    let replicas := fun websocket => (server.peers websocket).replica
    exact ⟨⊥, deliveryInv_boot server.store.reboot server.database replicas, fun task =>
      ⟨rfl, unanswered_boot server.store.reboot server.database replicas task⟩⟩

end Concord.Server

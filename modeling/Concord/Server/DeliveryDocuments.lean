import Concord.Server.DeliveryRules

/-!
Contract: the document under the protocol of the deliveries.

Owns:
- what the methods of the document manager do to the content of the document;
- the section under the room lock;
- the storage methods, in an empty room and in a room with connections.

A storage method changes the content of the document only in an empty room. The save of
a document is the only one that a task calls while it owes an update, so its failures
are where the policy has a say.

Does not own: the endpoints.
-/

set_option autoImplicit false

namespace Concord.Server

open Asyncio Collaboration ServerState Platform

variable {P : Platform} {α β : Type} {task other : TaskId} {debts : Debts P}
  {server server' : ServerState P} {allows : ServerState P → Call → Event P → Prop}
  {fact : DeliveryView P → Prop} {due : WebSocket → P.Doc}

/-! ### The content of the document -/

section Content

variable {store : DocStore P}

theorem documentContent_of_present {ref : Ref} (present : store.docs = some ref) :
    documentContent store = (store.live ref).doc := by
  simp only [documentContent, DocStore.document, present, Option.map_some, Option.getD_some]

private theorem documentContent_of_absent (absent : store.docs = none) :
    documentContent store = ⊥ := by
  simp only [documentContent, DocStore.document, absent, Option.map_none, Option.getD_none]

private theorem documentContent_of_same {after : DocStore P} (docs : after.docs = store.docs)
    (live : ∀ ref, (after.live ref).doc = (store.live ref).doc) :
    documentContent after = documentContent store := by
  cases current : store.docs with
  | none => rw [documentContent_of_absent current, documentContent_of_absent (docs.trans current)]
  | some ref =>
      rw [documentContent_of_present current, documentContent_of_present (docs.trans current), live]

private theorem update_metadata_doc (live : Ref → LiveDocument P) (ref other : Ref)
    (metadata : DocumentMetadata P) :
    (Function.update live ref { live ref with metadata := metadata } other).doc =
      (live other).doc := by
  rw [Function.update_apply]
  split
  · next same => rw [same]
  · rfl

/-- `get_or_create`: a new document has no content. -/
theorem getOrCreate_content (store : DocStore P) :
    documentContent store.getOrCreate.2 = documentContent store ∧
      ∀ ref, store.getOrCreate.1 = .ok ref → store.getOrCreate.2.docs = some ref := by
  unfold DocStore.getOrCreate
  split
  · next ref present => exact ⟨rfl, fun _ same => Except.ok.inj same ▸ present⟩
  · next absent =>
      split
      · exact ⟨rfl, nofun⟩
      · refine ⟨?_, fun _ same => congrArg some (Except.ok.inj same)⟩
        rw [documentContent_of_absent absent, documentContent_of_present rfl]
        simp only [DocStore.publish_live, Function.update_self, DocStore.countAccess_nextRef]
        rfl

private theorem edit_content {ref : Ref} (present : store.docs = some ref)
    (change : P.Doc → P.Doc) :
    documentContent (store.edit ref change) = change (documentContent store) := by
  have kept : (store.edit ref change).docs = some ref := present
  rw [documentContent_of_present kept, documentContent_of_present present, DocStore.edit_live,
    Function.update_self]

/-- A method adds at most something to the document, which depends on its answer; or it
raises and adds nothing. -/
def Adds (added : α → P.Doc) (store : DocStore P) : Except Exn α × DocStore P → Prop
  | (.ok answer, after) => documentContent after ≤ documentContent store ⊔ added answer
  | (.error _, after) => documentContent after = documentContent store

theorem applyUpdate_adds (update : P.Bytes) (store : DocStore P) :
    Adds (fun _ => content (some update)) store (store.applyUpdate update) := by
  obtain ⟨same, found⟩ := getOrCreate_content store
  unfold DocStore.applyUpdate
  split
  · next answer =>
      rw [answer] at same
      exact same
  · next answer =>
      rw [answer] at same found
      split
      · exact same
      · next decoded =>
          refine le_of_eq ?_
          rw [edit_content (found _ rfl), content, Option.bind_some, decoded, Option.getD_some]
          exact congrArg (· ⊔ _) same

/-- What is broadcast of the update that a restore answers with. -/
def restored (update : P.Bytes) : P.Doc := if P.size update = 0 then ⊥ else content (some update)

/-- The update that a restore answers with is not empty. -/
theorem restoreTextFromState_adds (state : P.Bytes) (store : DocStore P) :
    Adds restored store (store.restoreTextFromState state) := by
  obtain ⟨same, found⟩ := getOrCreate_content store
  unfold DocStore.restoreTextFromState
  split
  · rfl
  · next snapshot _ =>
      dsimp only
      split
      · next answer =>
          rw [answer] at same
          exact same
      · next ref store₁ answer =>
          rw [answer] at same found
          have present : store₁.docs = some ref := found ref rfl
          dsimp only at same
          generalize edited : ite (P.text (store₁.live ref).doc = P.text (P.newDoc ⊔ snapshot)) store₁
            (store₁.edit ref (DocStore.replaceText ref (P.text (P.newDoc ⊔ snapshot)))) = after
          have kept : after.docs = some ref := by
            rw [← edited]
            split
            · exact present
            · exact present
          obtain ⟨update, change, answered, sized, decoded, complete⟩ :=
            P.getUpdateSince_getState (after.live ref).doc (store₁.live ref).doc
          rw [answered]
          unfold Adds restored
          dsimp only
          rw [if_neg sized.ne', documentContent_of_present kept, ← same,
            documentContent_of_present present, content, Option.bind_some, decoded, Option.getD_some]
          exact complete

theorem getStateVector_content (store : DocStore P) :
    documentContent store.getStateVector.2 = documentContent store := by
  obtain ⟨same, _⟩ := getOrCreate_content store
  unfold DocStore.getStateVector
  split <;> next answer => rw [answer] at same; exact same

theorem encodeStateAsUpdate_content (stateVector : Option P.Bytes) (store : DocStore P) :
    documentContent (store.encodeStateAsUpdate stateVector).2 = documentContent store := by
  obtain ⟨same, _⟩ := getOrCreate_content store
  unfold DocStore.encodeStateAsUpdate
  split
  · next answer =>
      rw [answer] at same
      exact same
  · next answer =>
      rw [answer] at same
      split
      · exact same
      · split <;> exact same

/-- The answer to a sync step 1 has what the peer lacks. -/
theorem encodeStateAsUpdate_complete {known : P.Doc} {update : P.Bytes} {store : DocStore P}
    (answered : (store.encodeStateAsUpdate (some (P.getState known))).1 = .ok update) :
    documentContent store ≤ known ⊔ content (some update) := by
  obtain ⟨same, found⟩ := getOrCreate_content store
  unfold DocStore.encodeStateAsUpdate at answered
  split at answered
  · cases answered
  · next ref store₁ answer =>
      rw [answer] at same found
      dsimp only at same answered
      obtain ⟨reply, change, since, _, decoded, complete⟩ :=
        P.getUpdateSince_getState (store₁.live ref).doc known
      rw [since] at answered
      obtain rfl := Except.ok.inj answered
      rw [← same, documentContent_of_present (found ref rfl), content, Option.bind_some, decoded,
        Option.getD_some]
      exact complete

end Content

/-! ### Methods on the document in memory -/

theorem rely_store (store : DocStore P) :
    ViewRely other (deliveryView server) (deliveryView (server.putStore store)) :=
  ⟨fun held => ⟨held, rfl⟩, Iff.rfl, le_rfl⟩

/-- A change of the store that keeps the content of the document is not seen. -/
theorem deliveryView_putStore {store : DocStore P}
    (same : documentContent store = documentContent server.store) :
    deliveryView (server.putStore store) = deliveryView server := by
  have doc : (deliveryView (server.putStore store)).doc = (deliveryView server).doc := same
  change { deliveryView server with doc := (deliveryView (server.putStore store)).doc } = _
  rw [doc]

/-- What a task owes after a method that adds an update, or raises. -/
def owedAfter (content : α → P.Doc) : Except Exn α → WebSocket → P.Doc
  | .ok answer => fun _ => content answer
  | .error _ => ⊥

/-- A task that owes nothing changes the document. -/
theorem mutate_step (abiding : Abiding task fact) {userId : UserId}
    {method : DocStore P → Except Exn α × DocStore P} {added : α → P.Doc}
    (adds : ∀ store, Adds added store (method store))
    (knows : Stands task ⊥ fact debts server) :
    ∃ debts', (serverDeliveries P).guar task debts server debts' (server.mutate userId method).2 ∧
      Stands task (owedAfter added (server.mutate userId method).1) fact debts'
        (server.mutate userId method).2 := by
  have rely : ∀ other, ViewRely other (deliveryView server)
      (deliveryView (server.mutate userId method).2) := fun other =>
    ⟨fun held => ⟨held, rfl⟩, Iff.rfl, le_rfl⟩
  have grown := adds server.store
  unfold mutate onStore at rely ⊢
  generalize method server.store = outcome at grown rely ⊢
  obtain ⟨result, after⟩ := outcome
  cases result with
  | ok answer =>
      exact ⟨_, fun other different => rely_settle _ different (rely other),
        knows.1.grow knows.2.1 grown, Function.update_self _ _ _, abiding _ _ (rely task) knows.2.2⟩
  | error exn =>
      exact ⟨debts, fun other _ => ⟨rely other, rfl⟩, knows.of_same (deliveryView_putStore grown)⟩

theorem wp_mutate_deliveries (abiding : Abiding task fact) {userId : UserId}
    {method : DocStore P → Except Exn α × DocStore P} {added : α → P.Doc}
    (adds : ∀ store, Adds added store (method store))
    (knows : Stands task ⊥ fact debts server) :
    wp (serverDeliveries P) allows task (Coroutine.atomic (mutate userId method))
      (fun result => Stands task (owedAfter added result) fact) debts server := by
  obtain ⟨debts', guar, after⟩ := mutate_step abiding adds knows
  exact wp_atomic debts' guar after

/-! ### The storage methods -/

/-- Every connection in the room that was answered and is not marked revoked holds this,
or has it under way. -/
def AllHold (content : P.Doc) (server : ServerState P) : Prop :=
  ∀ connection ∈ server.connections, server.revokedConnections connection.websocket = none →
    Answered connection.websocket server →
      ∀ bound, (server.peers connection.websocket).Below bound → content ≤ bound

/-- The two statements of a save fail only where everyone holds its update. -/
def SavesHeld (content : P.Doc) (allows : ServerState P → Call → Event P → Prop) : Prop :=
  ∀ server call event, call = .saveExecute ∨ call = .saveCommit → allows server call event →
    event ≠ .done → AllHold content server

section Manager

private theorem onManager_bind (first : Program P α) (rest : α → Program P β) :
    onManager (first >>= rest) = onManager first >>= fun value => onManager (rest value) :=
  Coroutine.focus_bind store putStore first rest

private theorem wp_onManager_get {Ghost : Type} {logic : Logic Ghost (ServerState P) Call}
    {ghost : Ghost}
    (rest : DocStore P → Program P α) (post : Post Ghost (ServerState P) Exn α) :
    wp logic allows task (onManager (get >>= rest)) post ghost server =
      wp logic allows task (onManager (rest server.store)) post ghost server := rfl

private theorem onManager_tryFinally (body : Program P α) (cleanup : Program P Unit) :
    onManager (body.tryFinally cleanup) = (onManager body).tryFinally (onManager cleanup) :=
  Coroutine.focus_tryFinally store putStore body cleanup

private theorem onManager_writeCall (call : Call) (effect : DocStore P → DocStore P) :
    onManager (writeCall call effect) =
      operation call fun server => server.putStore (effect server.store) := by
  unfold onManager writeCall operation Coroutine.awaitCall Coroutine.focus
  congr 1
  · funext event server
    cases event <;> rfl
  · funext result
    cases result <;> rfl

private theorem onManager_atomic (method : DocStore P → Except Exn α × DocStore P) :
    onManager (Coroutine.atomic method) = Coroutine.atomic (onStore method) := by
  unfold onManager Coroutine.atomic Coroutine.focus
  congr 1
  funext result
  cases result <;> rfl

variable (abiding : Abiding task fact)

include abiding

/-- Nobody is served in an empty room, and nobody joins it while its lock is held. -/
theorem manager_empty {program : Program P α} (awaits : program.Awaits Working) :
    Preserves (serverDeliveries P) allows task (Stands task due (Locking task [] fact))
      (onManager program) := by
  have held := abiding.locking []
  have step : ∀ {debts : Debts P} {server : ServerState P} (store : DocStore P),
      Stands task due (Locking task [] fact) debts server →
      Stands task due (Locking task [] fact) debts (server.putStore store) := fun store knows =>
    Stands.step held knows (knows.1.setDoc (documentContent store) knows.2.2.2.1) (rely_store store)
  intro debts server knows
  unfold onManager
  induction program generalizing debts server with
  | ret value => exact knows
  | raise exn => exact knows
  | look next inductionHypothesis => exact inductionHypothesis _ (awaits _) debts server knows
  | sync update next inductionHypothesis =>
      exact ⟨debts, fun other _ => ⟨rely_store _, rfl⟩,
        inductionHypothesis _ (awaits _) debts _ (step _ knows)⟩
  | await call act next inductionHypothesis =>
      refine ⟨knows.1, (held.standing due).parked awaits.1 knows.2, ?_⟩
      intro debts₁ server₁ rely inv _ event b server₂ _ taken
      have after : Stands task due (Locking task [] fact) debts₁ server₁ :=
        ⟨inv, (held.standing due).stable rely inv knows.2⟩
      simp only [Option.map_eq_some_iff, Prod.exists, Prod.mk.injEq] at taken
      obtain ⟨b', part, _, rfl, rfl⟩ := taken
      exact ⟨debts₁, fun other _ => ⟨rely_store _, rfl⟩,
        inductionHypothesis _ (awaits.2 _) debts₁ _ (step _ after)⟩

private theorem manager_modify_deliveries {update : DocStore P → DocStore P}
    (same : ∀ store, documentContent (update store) = documentContent store) :
    Preserves (serverDeliveries P) allows task (Stands task due fact)
      (onManager (modify update : Program P PUnit)) :=
  modifyGet_deliveries abiding fun _ => deliveryView_putStore (same _)

/-- A storage method under the session guard. -/
theorem wp_serialized_deliveries {body : Program P α} {after : Except Exn α → WebSocket → P.Doc}
    (holds : ∀ debts server, Stands task due fact debts server → DocumentPresent server →
      wp (serverDeliveries P) allows task (onManager body)
        (fun result => Stands task (after result) fact) debts server)
    (knows : Stands task due fact debts server) :
    wp (serverDeliveries P) allows task (onManager (serialized task body))
      (fun result => Stands task (after result) fact) debts server := by
  have entered : ∀ store : DocStore P, documentContent store.enterGuard.2 = documentContent store := by
    intro store
    unfold DocStore.enterGuard
    dsimp only
    split <;> rfl
  unfold serialized
  rw [onManager_bind, wp_bind]
  refine wp_modifyGet debts (fun other _ => ⟨rely_store _, rfl⟩) ?_
  have waits : Stands task due fact debts (server.putStore server.store.enterGuard.2) :=
    knows.of_same (deliveryView_putStore (entered server.store))
  rw [thenPost_ok, onManager_tryFinally, wp_tryFinally, onManager_bind, wp_bind]
  refine ⟨waits.1, nofun, ?_⟩
  intro debts₁ server₁ rely inv known event b server₂ _ taken
  simp only [Option.map_eq_some_iff, Prod.exists, Prod.mk.injEq] at taken
  obtain ⟨_, part, acquired, -, rfl⟩ := taken
  have registry : ∃ registry, part = server₁.store.withRegistry registry := by
    unfold DocStore.acquireGuard at acquired
    dsimp only at acquired
    split at acquired
    · cases acquired
    · obtain ⟨-, rfl⟩ := Prod.mk.inj (Option.some.inj acquired)
      exact ⟨_, rfl⟩
  obtain ⟨registry, rfl⟩ := registry
  have before : Stands task due fact debts₁ server₁ :=
    ⟨inv, (abiding.standing due).stable rely inv waits.2⟩
  refine ⟨debts₁, fun other _ => ⟨rely_store _, rfl⟩, ?_⟩
  change wp (serverDeliveries P) allows task
    (onManager (body.tryFinally (modify (DocStore.releaseGuard server.store.enterGuard.1)))) _ _ _
  rw [onManager_tryFinally, wp_tryFinally]
  refine wp_mono ?_ (holds debts₁ _ (before.of_same (deliveryView_putStore rfl)) known)
  intro result debts₃ server₃ done
  refine wp_modify debts₃ (fun other _ => ⟨rely_store _, rfl⟩) ?_
  have released : Stands task (after result) fact debts₃
      (server₃.putStore (server₃.store.releaseGuard server.store.enterGuard.1)) :=
    done.of_same (deliveryView_putStore rfl)
  refine wp_modify debts₃ (fun other _ => ⟨rely_store _, rfl⟩) ?_
  exact released.of_same (deliveryView_putStore rfl)

theorem checkpointToRedis_deliveries :
    Preserves (serverDeliveries P) allows task (Stands task due fact)
      (onManager (checkpointToRedis task)) := by
  intro debts server knows
  refine wp_serialized_deliveries abiding (fun debts server before _ => ?_) knows
  have checkpointed : Preserves (serverDeliveries P) allows task (Stands task due fact)
      (onManager (checkpointToRedisLocked : Program P Nat)) := by
    unfold checkpointToRedisLocked
    rw [onManager_bind]
    refine .bind (fun _ _ holds => holds) fun store => ?_
    split
    · exact .pure _
    · rw [onManager_bind, redisSet, onManager_writeCall]
      refine .bind (operation_deliveries abiding (by decide) fun server => ?_) fun _ => ?_
      · exact deliveryView_putStore rfl
      · rw [onManager_bind]
        refine .bind (manager_modify_deliveries abiding fun store => ?_) fun _ => .pure _
        exact documentContent_of_same rfl fun _ => update_metadata_doc _ _ _ _
  exact checkpointed debts server before

/-- A room with connections has its document in memory: a load changes nothing. -/
theorem loadFromStorage_deliveries {connections : List ConnectionInfo} (nonempty : connections ≠ []) :
    Preserves (serverDeliveries P) allows task (Stands task due (Locking task connections fact))
      (onManager (loadFromStorage task)) := by
  intro debts server knows
  refine wp_serialized_deliveries (abiding.locking connections)
    (fun debts server before present => ?_) knows
  obtain ⟨ref, current⟩ := Option.ne_none_iff_exists'.mp
    (present fun empty => nonempty (before.2.2.2.1.symm.trans empty))
  unfold loadFromStorageLocked
  rw [wp_onManager_get, current]
  exact before

/-- A step of a save that fails only where everyone holds its update, and then the task
owes it to nobody. -/
theorem wp_saveStep_deliveries {content : P.Doc} {call : Call} (working : Working call)
    {effect : ServerState P → ServerState P}
    (same : ∀ server, deliveryView (effect server) = deliveryView server)
    (held : ∀ server event, allows server call event → event ≠ .done → AllHold content server)
    (knows : Stands task (fun _ => content) fact debts server) :
    wp (serverDeliveries P) allows task (operation call effect)
      (fun result => Stands task (owedAfter (fun _ => content) result) fact) debts server := by
  refine wp_awaitCall knows.1 (fun receives => absurd receives working) ?_
  intro debts₁ server₁ rely inv₁ _ event result server₂ allowed taken
  have after : Stands task (fun _ => content) fact debts₁ server₁ :=
    ⟨inv₁, (abiding.standing _).stable rely inv₁ knows.2⟩
  have settles : event ≠ .done → Settles task ⊥ fact debts₁ server₁ := by
    intro failed
    refine after.settle _ fun websocket served answered bound below _ => ?_
    obtain ⟨⟨connection, member, rfl⟩, unfenced⟩ := served
    refine held server₁ event allowed failed connection member ?_ answered bound below
    by_contra marked
    exact unfenced (after.1.marked _ marked)
  have drops : ∀ server₂ : ServerState P, deliveryView server₂ = deliveryView server₁ →
      event ≠ .done → ∃ debts₂, (serverDeliveries P).guar task debts₁ server₁ debts₂ server₂ ∧
        Stands task ⊥ fact debts₂ server₂ := by
    intro server₂ unseen failed
    refine ⟨_, fun other different => rely_settle ⊥ different ?_,
      (settles failed).stands.of_same unseen⟩
    rw [unseen]
    exact ViewRely.refl _ _
  cases event with
  | received message => cases taken
  | done =>
      obtain ⟨rfl, rfl⟩ := Prod.mk.inj (Option.some.inj taken)
      refine ⟨debts₁, fun other _ => ⟨?_, rfl⟩, after.of_same (same server₁)⟩
      rw [same]
      exact ViewRely.refl _ _
  | raised =>
      obtain ⟨rfl, rfl⟩ := Prod.mk.inj (Option.some.inj taken)
      exact drops _ rfl nofun
  | raisedAfter =>
      obtain ⟨rfl, rfl⟩ := Prod.mk.inj (Option.some.inj taken)
      exact drops _ (same server₁) nofun

omit abiding in
/-- The end of a save raises only where there is no document any more. -/
theorem recordSave_deliveries {content : P.Doc}
    (knows : Stands task (fun _ => content) fact debts server) (ref : Ref)
    (state stateVector : P.Bytes) (savedAt : Nat) :
    wp (serverDeliveries P) allows task
      (Coroutine.atomic (onStore (DocStore.recordSave ref state stateVector savedAt)))
      (fun result => Stands task (owedAfter (fun _ => content) result) fact) debts server := by
  cases current : server.store.docs with
  | none =>
      have raises : onStore (DocStore.recordSave ref state stateVector savedAt) server =
          (.error .key, server) := by
        unfold onStore DocStore.recordSave
        rw [current]
        rfl
      have settles : DeliveryInv (Function.update debts task ⊥) (deliveryView server) := by
        refine ⟨fun websocket _ _ bound _ _ => ?_, knows.1.sent, knows.1.marked⟩
        exact (documentContent_of_absent current).le.trans bot_le
      refine wp_atomic (Function.update debts task ⊥) ?_ ?_
      · rw [raises]
        exact fun other different => rely_settle ⊥ different (ViewRely.refl _ _)
      · rw [raises]
        exact ⟨settles, Function.update_self _ _ _, knows.2.2⟩
  | some current =>
      obtain ⟨answer, after, records, same⟩ : ∃ answer after,
          onStore (DocStore.recordSave ref state stateVector savedAt) server =
            (.ok answer, server.putStore after) ∧
            documentContent after = documentContent server.store := by
        unfold onStore DocStore.recordSave
        rw [current]
        exact ⟨_, _, rfl, documentContent_of_same rfl fun _ => update_metadata_doc _ _ _ _⟩
      have unseen := deliveryView_putStore same
      refine wp_atomic debts ?_ ?_
      · rw [records]
        exact fun other _ => ⟨rely_store after, rfl⟩
      · rw [records]
        exact knows.of_same unseen

/-- A save in a room with connections owes its update when it has returned, and nothing
when it has failed. -/
theorem persistToDb_deliveries {content : P.Doc} (held : SavesHeld content allows)
    {connections : List ConnectionInfo} (nonempty : connections ≠ [])
    (knows : Stands task (fun _ => content) (Locking task connections fact) debts server) :
    wp (serverDeliveries P) allows task (onManager (persistToDb task))
      (fun result => Stands task (owedAfter (fun _ => content) result)
        (Locking task connections fact)) debts server := by
  have locked := abiding.locking connections
  refine wp_serialized_deliveries locked (fun debts server before present => ?_) knows
  obtain ⟨ref, current⟩ := Option.ne_none_iff_exists'.mp
    (present fun empty => nonempty (before.2.2.2.1.symm.trans empty))
  unfold persistToDbLocked
  rw [wp_onManager_get, current]
  change wp (serverDeliveries P) allows task (onManager (get >>= _)) _ debts server
  rw [wp_onManager_get, onManager_bind, saveExecute, onManager_writeCall, wp_bind]
  refine wp_mono ?_ (wp_saveStep_deliveries locked (by decide) (fun _ => deliveryView_putStore rfl)
    (fun server event => held server .saveExecute event (.inl rfl)) before)
  intro result debts₁ server₁ executed
  cases result with
  | error exn => exact executed
  | ok _ =>
      rw [thenPost_ok, onManager_bind, saveCommit, onManager_writeCall, wp_bind]
      refine wp_mono ?_ (wp_saveStep_deliveries locked (by decide) (fun _ => deliveryView_putStore rfl)
        (fun server event => held server .saveCommit event (.inr rfl)) executed)
      intro result debts₂ server₂ committed
      cases result with
      | error exn => exact committed
      | ok _ =>
          rw [thenPost_ok, onManager_atomic]
          exact recordSave_deliveries committed ref _ _ _

end Manager

/-! ### The room lock -/

/-- A fact that does not depend on who holds the room lock. -/
def Lockfree (fact : DeliveryView P → Prop) : Prop :=
  ∀ view lock, fact view → fact { view with roomLock := lock }

/-- The task holds the room lock, and owes this once it gives it up. -/
def Releasing (task : TaskId) (due : WebSocket → P.Doc) (fact : DeliveryView P → Prop)
    (debts : Debts P) (server : ServerState P) : Prop :=
  server.roomLock = some task ∧ Settles task due fact debts server

theorem Stands.releasing {connections : List ConnectionInfo}
    (knows : Stands task due (Locking task connections fact) debts server) :
    Releasing task due fact debts server :=
  ⟨knows.2.2.1, knows.settles.1, knows.2.2.2.2⟩

/-- Nobody is owed anything in an empty room. -/
theorem Stands.releasing_empty (knows : Stands task due (Locking task [] fact) debts server)
    (less : WebSocket → P.Doc) : Releasing task less fact debts server := by
  refine ⟨knows.2.2.1, (knows.settle less fun websocket served => ?_).1, knows.2.2.2.2⟩
  obtain ⟨⟨connection, member, _⟩, _⟩ := served
  rw [knows.2.2.2.1] at member
  cases member

/-- The room lock changes hands, from nobody or from the task. -/
theorem rely_deliveryLock (different : task ≠ other) (lock : Option TaskId)
    (own : server.roomLock = none ∨ server.roomLock = some task) :
    ViewRely other (deliveryView server) (deliveryView { server with roomLock := lock }) := by
  refine ⟨fun held => ?_, Iff.rfl, le_rfl⟩
  rcases own with free | mine
  · exact nomatch free.symm.trans held
  · exact absurd (Option.some.inj (mine.symm.trans held)) different

/-- A section under the room lock. -/
theorem wp_withRoomLock_deliveries (abiding : Abiding task fact) (apart : Lockfree fact)
    {body : ServerProgram P α} {after : Except Exn α → WebSocket → P.Doc}
    (holds : ∀ connections debts server, Stands task due (Locking task connections fact) debts server →
      wp (serverDeliveries P) allows task body
        (fun result => Releasing task (after result) fact) debts server)
    (knows : Stands task due fact debts server) :
    wp (serverDeliveries P) allows task (withRoomLock task body)
      (fun result => Stands task (after result) fact) debts server := by
  unfold withRoomLock
  rw [wp_bind]
  refine wp_awaitUntil knows.1 nofun ?_
  intro debts₁ server₁ rely inv _ _ server₂ taken
  obtain ⟨owes, known⟩ : Owing task due fact debts₁ (deliveryView server₁) :=
    (abiding.standing due).stable rely inv knows.2
  unfold acquireRoomLock at taken
  cases free : server₁.roomLock with
  | some holder => simp [free] at taken
  | none =>
      simp only [free, Option.some.injEq, Prod.mk.injEq, true_and] at taken
      subst taken
      refine ⟨debts₁, fun other different =>
        ⟨rely_deliveryLock different (some task) (.inl free), rfl⟩, ?_⟩
      rw [thenPost_ok, wp_tryFinally]
      refine wp_mono ?_ (holds server₁.connections debts₁ _
        ⟨⟨inv.document, inv.sent, inv.marked⟩, owes, rfl, rfl, apart _ _ known⟩)
      rintro result debts₃ server₃ ⟨held, settles⟩
      refine wp_modify (Function.update debts₃ task (after result)) (fun other different =>
        rely_settle _ different (rely_deliveryLock different none (.inr held))) ?_
      exact ⟨⟨settles.1.document, settles.1.sent, settles.1.marked⟩, Function.update_self _ _ _,
        apart _ none settles.2⟩

/-- A section under the room lock that changes nothing. -/
theorem withRoomLock_deliveries (abiding : Abiding task fact) (apart : Lockfree fact)
    {body : ServerProgram P α}
    (holds : ∀ connections, Preserves (serverDeliveries P) allows task
      (Stands task due (Locking task connections fact)) body) :
    Preserves (serverDeliveries P) allows task (Stands task due fact) (withRoomLock task body) := by
  intro debts server knows
  refine wp_withRoomLock_deliveries abiding apart (fun connections debts server held => ?_) knows
  exact wp_mono (fun _ _ _ after => Stands.releasing after) (holds connections debts server held)

/-! ### The storage methods under the room lock -/

section Locked

variable (abiding : Abiding task fact) (connections : List ConnectionInfo)

include abiding

theorem load_locked :
    Preserves (serverDeliveries P) allows task (Stands task due (Locking task connections fact))
      (onManager (loadFromStorage task)) := by
  cases connections with
  | nil => exact manager_empty abiding (loadFromStorage_awaits task)
  | cons connection rest => exact loadFromStorage_deliveries abiding (List.cons_ne_nil _ _)

theorem persist_locked {content : P.Doc} (held : SavesHeld content allows) :
    Attempts (serverDeliveries P) allows task
      (Stands task (fun _ => content) (Locking task connections fact))
      (Stands task (fun _ => content) (Locking task connections fact)) (Releasing task ⊥ fact)
      (onManager (persistToDb task)) := by
  intro debts server knows
  cases connections with
  | nil =>
      refine wp_mono ?_ (manager_empty abiding (persistToDb_awaits task) debts server knows)
      intro result debts₁ server₁ after
      cases result with
      | ok saved => exact after
      | error exn => exact after.releasing_empty ⊥
  | cons connection rest =>
      refine wp_mono ?_ (persistToDb_deliveries abiding held (List.cons_ne_nil _ _) knows)
      intro result debts₁ server₁ after
      cases result with
      | ok saved => exact after
      | error exn => exact after.releasing

/-- A checkpoint whose exceptions are logged. -/
theorem tryCheckpoint_locked {hasConnections : Bool}
    (accurate : hasConnections = !connections.isEmpty) :
    Attempts (serverDeliveries P) allows task (Stands task due (Locking task connections fact))
      (Stands task due (Locking task connections fact)) (fun _ _ => False)
      (tryCheckpoint task hasConnections) := by
  unfold tryCheckpoint
  split
  · exact .tryExcept_pure (.bind (checkpointToRedis_deliveries (abiding.locking connections))
      fun _ => .pure _)
  · next alone =>
      obtain rfl : connections = [] := by simpa [accurate] using alone
      exact .tryExcept_pure (.bind (manager_empty abiding (checkpointAndRemove_awaits task))
        fun _ => .pure _)

end Locked

end Concord.Server

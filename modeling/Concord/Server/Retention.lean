import Concord.Asyncio.Runs
import Concord.Collaboration.Retention
import Concord.Server.HandlerPass
import Concord.Server.Durability

/-!
Contract: what the backend process knows of the document, over whole runs.

Owns:
- every handler keeps the retention protocol of the manager, and any fact that holds
  of the stores behind one where it holds;
- without a crash nothing that is known goes, and a crash leaves all that is stored.

Redis may fail to answer a load only where PostgreSQL holds the checkpoint.

Does not own: what a request that has answered has stored.
-/

set_option autoImplicit false

namespace Concord.Server

open Asyncio Collaboration ServerState

variable {P : Platform} {α : Type} {task : TaskId} {users : GuardUsers}
  {allows : ServerState P → Call → Event P → Prop} {holds : DocStore P → Prop}

/-! ### Facts about the store -/

/-- A fact that a store keeps when it moves onward. -/
def KeptOnward (holds : DocStore P → Prop) : Prop :=
  ∀ {before after : DocStore P}, Onward before after → holds before → holds after

/-- The task is in no guard, and the fact holds. -/
def Aside (task : TaskId) (holds : DocStore P → Prop) (users : GuardUsers) (store : DocStore P) :
    Prop :=
  task ∉ users ∧ holds store

theorem aside_standing {calls : Call → Prop} (kept : KeptOnward holds) :
    Standing (retention P) calls task (Aside task holds) where
  idle users store := ⟨.refl task users store, .refl store⟩
  stable rely _ aside := ⟨fun counted => aside.1 (rely.1.outside counted), kept rely.2 aside.2⟩
  parked _ _ := trivial

/-! ### Steps of the core -/

theorem SyncMethod.spec {store : DocStore P} (inv : Inv True users store) (method : SyncMethod P) :
    SyncStep True False True users store (method.run store) := by
  cases method with
  | applyUpdate update => exact applyUpdate_spec trivial inv update
  | restoreTextFromState state => exact restoreTextFromState_spec trivial inv state
  | encodeStateAsUpdate stateVector => exact encodeStateAsUpdate_spec trivial inv stateVector
  | getStateVector =>
      rw [SyncMethod.run, getStateVector_store]
      exact (getOrCreate_spec False trivial inv).1

/-- A synchronous method leaves the two stores alone. -/
theorem SyncMethod.stores (method : SyncMethod P) (store : DocStore P) :
    (method.run store).saved = store.saved ∧ (method.run store).checkpoint = store.checkpoint := by
  have created := getOrCreate_stores store
  cases method with
  | getStateVector =>
      rw [SyncMethod.run, getStateVector_store]
      exact created
  | applyUpdate update =>
      unfold SyncMethod.run DocStore.applyUpdate
      dsimp only
      split
      · next answer =>
          rw [answer] at created
          exact created
      · next answer =>
          rw [answer] at created
          split <;> exact created
  | restoreTextFromState state =>
      unfold SyncMethod.run DocStore.restoreTextFromState
      dsimp only
      split
      · exact ⟨rfl, rfl⟩
      · split
        · next answer =>
            rw [answer] at created
            exact created
        · next answer =>
            rw [answer] at created
            split <;> split <;> exact created
  | encodeStateAsUpdate stateVector =>
      unfold SyncMethod.run DocStore.encodeStateAsUpdate
      dsimp only
      split
      · next answer =>
          rw [answer] at created
          exact created
      · next answer =>
          rw [answer] at created
          split
          · exact created
          · split <;> exact created

/-- A step of the core keeps the protocol, and moves the store onward. -/
theorem CoreStep.retains {server after : ServerState P} (step : CoreStep (core server) (core after))
    (inv : Inv True users server.store) :
    Guar True True task users server.store users after.store ∧
      Onward server.store after.store ∧ Inv True users after.store := by
  have storeOf : ∀ state : ServerState P, state.store = (core state).store := fun _ => rfl
  rw [storeOf after]
  rw [storeOf server] at inv ⊢
  generalize core server = before at step inv
  generalize core after = now at step
  cases step with
  | method method =>
      have spec := method.spec inv
      obtain ⟨saved, checkpoint⟩ := method.stores before.store
      exact ⟨⟨fun other _ => spec.rely other, fun still => absurd trivial still,
        fun still => absurd trivial still⟩, spec.onward inv saved checkpoint, spec.inv⟩
  | membership session members commits savedAt =>
      have others : ∀ other, Rely other users before.store users
          { before.store with saved := { before.store.saved with savedAt := savedAt } } :=
        fun other => rely_of_frozen ⟨rfl, rfl, rfl, fun _ => rfl, fun _ _ => rfl, rfl⟩ rfl le_rfl
          (fun _ _ => Evolves.refl _) le_rfl rfl
      exact ⟨⟨fun other _ => others other, fun _ _ present => present,
        fun _ => ⟨rfl, fun _ _ => rfl⟩⟩, .of_same rfl rfl rfl (fun _ _ => rfl) rfl,
        inv_withSavedAt inv savedAt⟩
  | snapshot doc small => exact ⟨.refl _ _ _, .refl _, inv⟩

/-! ### Methods of the manager -/

/-- The manager is a part of the server. -/
theorem embeds_store :
    Embeds (retention P) ((retention P).over ServerState.store) (managerAllows allows) allows task
      ServerState.store putStore id fun _ _ => True where
  get_put _ _ := rfl
  allows allowed := ⟨_, rfl, allowed⟩
  suspend _ inv parked := ⟨inv, parked⟩
  resume _ rely inv known := ⟨trivial, rely, inv, known⟩
  step _ guar := ⟨_, rfl, guar, trivial⟩

/-- A method of the manager that moves the store onward keeps the fact. -/
theorem aside_onManager (kept : KeptOnward holds) {program : Program P α}
    (spec : ∀ users store, Inv True users store → task ∉ users →
      wp (retention P) (managerAllows allows) task program
        (fun _ users after => Inv True users after ∧ task ∉ users ∧ Onward store after)
        users store) :
    KeepsFact (retention P) ServerState.store allows task (Aside task holds)
      (onManager program) := by
  intro users server knows
  refine wp_mono ?_ (wp_focus embeds_store trivial (spec users server.store knows.1 knows.2.1))
  rintro result users' server' ⟨_, inv, outside, onward⟩
  exact ⟨inv, outside, kept onward knows.2.2⟩

private theorem aside_serialized (kept : KeptOnward holds) {body : Program P α}
    (bodySpec : ∀ origin id users store, Behind origin task id users store →
      wp (retention P) (managerAllows allows) task body
        (fun _ users after => Behind origin task id users after) users store) :
    KeepsFact (retention P) ServerState.store allows task (Aside task holds)
      (onManager (serialized task body)) := by
  refine aside_onManager kept fun users store inv outside => ?_
  have served : wp (retention P) (managerAllows allows) task (serialized task body)
      (fun _ users after => (Inv True users after ∧ task ∉ users ∧ Onward store after) ∧ True)
      users store :=
    retains_serialized inv outside (.refl store) (fun _ _ _ _ => trivial)
      fun id users after behind => wp_mono (fun _ _ _ moved => ⟨moved, trivial⟩)
        (bodySpec store id users after behind)
  exact wp_mono (fun _ _ _ moved => moved.1) served

/-- Every handler keeps the protocol, and the fact besides. -/
abbrev RetentionPass (allows : ServerState P → Call → Event P → Prop) (task : TaskId)
    (holds : DocStore P → Prop) : Prop :=
  HandlerPass (P := P) (retention P) ServerState.store allows task (Aside task holds)
    (Aside task holds)

/-- Every handler keeps what it knows of the store. -/
theorem retention_pass (readable : ServerReadable True allows) (kept : KeptOnward holds) :
    RetentionPass allows task holds := by
  have follows : FollowsCore (retention P) ServerState.store allows task (Aside task holds) :=
    { standing := aside_standing kept
      step := fun {users server after} step knows => by
        obtain ⟨guar, onward, inv⟩ := step.retains knows.1
        exact ⟨users, ⟨guar, onward⟩, inv, knows.2.1, kept onward knows.2.2⟩
      load := aside_serialized kept fun _ _ _ _ behind =>
        wp_mono (fun _ _ _ moved => moved.1) (loadFromStorageLocked_retains readable.manager behind)
      checkpoint := aside_serialized kept fun _ _ _ _ behind =>
        wp_mono (fun _ _ _ moved => moved.1) (checkpointToRedisLocked_retains behind)
      persist := aside_serialized kept fun _ _ _ _ behind =>
        wp_mono (fun _ _ _ moved => moved.1) (persistToDbLocked_retains readable.manager behind)
      remove := aside_serialized kept fun _ _ _ _ behind =>
        wp_mono (fun _ _ _ moved => moved.1) (checkpointAndRemoveLocked_retains behind) }
  exact follows.pass (aside_standing kept) fun _ store => store

/-! ### Every run of the server -/

section Runs

variable {policy : ServerPolicy P}

abbrev retentionLogic (P : Platform) : Logic GuardUsers (ServerState P) Call :=
  (retention P).over ServerState.store

theorem retentionLogic_lawful : (retentionLogic P).Lawful :=
  retention_lawful.over ServerState.store

theorem retention_keeps (readable : ∀ request, ServerReadable True (policy request)) :
    Keeps (retentionLogic P) (serverService P) policy Booted where
  start {server} booted := by
    obtain ⟨sessionId, saved, savedAt, checkpoint, clock, database, replicas, rfl⟩ := booted
    exact ⟨∅, inv_boot True sessionId _ checkpoint clock, fun task => Finset.notMem_empty task⟩
  request {task request users server} inv _ outside := by
    have pass : RetentionPass (policy request) task fun _ => True :=
      retention_pass (readable request) fun _ _ => trivial
    refine wp_mono ?_ (pass.handler request users server ⟨inv, outside, trivial⟩)
    exact fun _ _ _ after => ⟨after.1, after.2.1⟩
  ambient {change users server after} taken inv _ := by
    refine ⟨users, ?_⟩
    cases change with
    | tick elapsed =>
        obtain rfl := Option.some.inj taken
        exact ⟨inv.tick elapsed, fun task => ⟨rely_tick task users server.store elapsed,
          .of_same rfl rfl rfl (fun _ _ => rfl) rfl⟩⟩
    | edit websocket change =>
        obtain rfl := Option.some.inj taken
        exact ⟨inv, fun task => retentionLogic_lawful.rely_refl task users server⟩
    | deliver websocket index =>
        obtain ⟨peer, _, rfl⟩ := Option.map_eq_some_iff.mp taken
        exact ⟨inv, fun task => retentionLogic_lawful.rely_refl task users server⟩
  restart inv := ⟨∅, inv.reboot, fun task => Finset.notMem_empty task⟩

/-- Every access of every run has met a loaded document. -/
theorem accesses_zero {pool : ServerPool P}
    (reached : Reachable (serverService P) policy Booted pool) :
    pool.state.store.unloadedAccesses = 0 := by
  obtain ⟨_, inv⟩ := serverService_inv (fun _ => serverReadable_false _) reached
  exact inv.accesses

/-- Every step but a crash of the process. -/
def Uncrashed (policy : ServerPolicy P) (pool next : ServerPool P) : Prop :=
  ∃ task, Foreign (serverService P) policy task pool next

/-- A stretch has no crash. -/
theorem uncrashed_of_stretch {since final : ServerState P} {pool last : ServerPool P}
    {trace : List (Moment (ServerState P) (Event P) Call)}
    (stretch : Stretch (serverService P) policy task since pool trace final last) :
    Relation.ReflTransGen (Uncrashed policy) pool last := by
  induction stretch with
  | stop => exact .refl
  | foreign step rest inductionHypothesis => exact .head ⟨task, step⟩ inductionHypothesis
  | own suspended allowed taken rest inductionHypothesis =>
      -- Another task sees the step as one that is not its own.
      exact .head ⟨task + 1, .resume (Nat.succ_ne_self task).symm suspended allowed taken⟩
        inductionHypothesis

private theorem uncrashed_retains (readable : ∀ request, ServerReadable True (policy request))
    {pool next : ServerPool P} (reached : Reachable (serverService P) policy Booted pool)
    (uncrashed : Uncrashed policy pool next) : Retains pool.state.store next.state.store := by
  obtain ⟨task, foreign⟩ := uncrashed
  obtain ⟨_, _, _, onward⟩ := reached.relies retentionLogic_lawful (retention_keeps readable)
    (fun _ => trivial) foreign
  exact onward.retains (accesses_zero (reached.step foreign.step))

private theorem step_stores_le (readable : ∀ request, ServerReadable True (policy request))
    {pool next : ServerPool P} (reached : Reachable (serverService P) policy Booted pool)
    (step : Step (serverService P) policy pool next) :
    pool.state.store.savedContent ≤ next.state.store.savedContent ∧
      pool.state.store.cover ≤ next.state.store.cover := by
  rcases step.foreign_or_restart with uncrashed | rfl
  · have retains := uncrashed_retains readable reached uncrashed
    exact ⟨retains.saved_le, retains.cover_le⟩
  · exact ⟨le_rfl, le_rfl⟩

theorem run_stores_le (readable : ∀ request, ServerReadable True (policy request))
    {before after : ServerPool P} (reached : Reachable (serverService P) policy Booted before)
    (onward : Relation.ReflTransGen (Step (serverService P) policy) before after) :
    before.state.store.savedContent ≤ after.state.store.savedContent ∧
      before.state.store.cover ≤ after.state.store.cover := by
  have along : Reachable (serverService P) policy Booted after ∧
      before.state.store.savedContent ≤ after.state.store.savedContent ∧
        before.state.store.cover ≤ after.state.store.cover := by
    induction onward with
    | refl => exact ⟨reached, le_rfl, le_rfl⟩
    | tail _ step inductionHypothesis =>
        obtain ⟨there, saved_le, cover_le⟩ := inductionHypothesis
        have next := step_stores_le readable there step
        exact ⟨there.step step, saved_le.trans next.1, cover_le.trans next.2⟩
  exact along.2

private theorem run_known_le (readable : ∀ request, ServerReadable True (policy request))
    {before after : ServerPool P} (reached : Reachable (serverService P) policy Booted before)
    (onward : Relation.ReflTransGen (Uncrashed policy) before after) :
    before.state.store.known ≤ after.state.store.known := by
  have along : Reachable (serverService P) policy Booted after ∧
      before.state.store.known ≤ after.state.store.known := by
    induction onward with
    | refl => exact ⟨reached, le_rfl⟩
    | tail _ uncrashed inductionHypothesis =>
        obtain ⟨there, known_le⟩ := inductionHypothesis
        obtain ⟨task, foreign⟩ := uncrashed
        exact ⟨there.step foreign.step,
          known_le.trans (uncrashed_retains readable there ⟨task, foreign⟩).known_le⟩
  exact along.2

/-- **Nothing that is known is lost without a crash, and nothing that is stored ever.**
Along every run, while Redis can be read wherever it holds more than PostgreSQL: what
PostgreSQL holds grows, and so does what the two stores hold together. Without a crash, so
does all that the process knows, whatever it evicts and loads again. -/
theorem nothing_known_is_lost
    (readable : ∀ request state event, event ≠ .done →
      policy request state .checkpointGet event →
        state.store.checkpointContent ≤ state.store.savedContent)
    {before after : ServerPool P} (reached : Reachable (serverService P) policy Booted before) :
    (Relation.ReflTransGen (Step (serverService P) policy) before after →
      before.state.store.savedContent ≤ after.state.store.savedContent ∧
        before.state.store.cover ≤ after.state.store.cover) ∧
    (Relation.ReflTransGen (Uncrashed policy) before after →
      before.state.store.known ≤ after.state.store.known) := by
  have serverReadable : ∀ request, ServerReadable True (policy request) :=
    fun request _ state event raised allowed => readable request state event raised allowed
  exact ⟨run_stores_le serverReadable reached, run_known_le serverReadable reached⟩

end Runs

/-! ### Runs of the small backend -/

/-- The policy of `permitsReadable`. -/
abbrev readablePolicy : ServerPolicy editLog :=
  fun request server call event => permitsReadable request server call event = true

theorem readablePolicy_readable (request : ServerRequest editLog) (state : ServerState editLog)
    (event : Event editLog) (raised : event ≠ .done)
    (allowed : readablePolicy request state .checkpointGet event) :
    state.store.checkpointContent ≤ state.store.savedContent := by
  cases event with
  | done => exact absurd rfl raised
  | raised | raisedAfter | received => exact of_decide_eq_true allowed

/-- The pool after a schedule in which Redis can be read wherever it has to be. -/
def readablePool (schedule : Schedule) : Option (ServerPool editLog) :=
  (serverService editLog).play permitsReadable schedule (Pool.start sampleServer)

theorem reachable_readablePool {schedule : Schedule} {pool : ServerPool editLog}
    (played : readablePool schedule = some pool) :
    Reachable (serverService editLog) readablePolicy Booted pool :=
  Service.reachable_of_play (fun _ _ _ _ allowed => allowed) (.start booted_sampleServer) played

/-- User 1 joins and sends an update. -/
def editRun : Schedule := joinFirst 0 .done ++ sendUpdate 0 {2}

/-- User 1 leaves, so that the document is evicted. -/
theorem nothing_known_is_lost_eviction :
    ∃ before after : ServerPool editLog, before.state.store.savedContent = ∅ ∧
      before.state.store.known = {2} ∧ after.state.store.docs = none ∧
        before.state.store.known ≤ after.state.store.known := by
  have evicted : ((readablePool editRun).bind fun before =>
      ((serverService editLog).follow permitsReadable 1 (leaveLast 0) before.state before).map
        fun (_, _, after) => (before.state.store.savedContent, before.state.store.known,
          after.state.store.docs)) = some (∅, {2}, none) := by decide
  obtain ⟨before, played, followed⟩ := Option.bind_eq_some_iff.mp evicted
  obtain ⟨⟨trace, final, after⟩, left, facts⟩ := Option.map_eq_some_iff.mp followed
  simp only [Prod.mk.injEq] at facts
  obtain ⟨unsaved, edited, absent⟩ := facts
  have stretch : Stretch (serverService editLog) readablePolicy 1 before.state before trace final
      after := Service.stretch_of_follow (fun _ _ _ _ allowed => allowed) left
  exact ⟨before, after, unsaved, edited, absent,
    (nothing_known_is_lost readablePolicy_readable (reachable_readablePool played)).2
      (uncrashed_of_stretch stretch)⟩

end Concord.Server

import Concord.Asyncio.Runs
import Concord.Server.Retention

/-!
Contract: what a request that has answered has stored.

Owns:
- a save that has answered is for good: PostgreSQL has all that was known when the
  request arrived, from the answer on;
- a maintenance task that has ended has put all that was known when it began into the
  two stores, so that a crash loses at most what came after.

Both are postconditions of one request among all the others. The retention protocol
makes them last.

Does not own: requests that fail.
-/

set_option autoImplicit false

namespace Concord.Server

open Asyncio Collaboration DocStore ServerState

variable {P : Platform} {α : Type} {task : TaskId} {bound : P.Doc}
  {content : DocStore P → P.Doc} {allows : ServerState P → Call → Event P → Prop}

/-! ### Where content is held -/

/-- `content` has all of `bound`, if every access has met a loaded document. -/
def HeldBy (content : DocStore P → P.Doc) (bound : P.Doc) (store : DocStore P) : Prop :=
  store.unloadedAccesses = 0 → bound ≤ content store

/-- What the process knows, what it has stored and what it has saved only grow. -/
def Growing (content : DocStore P → P.Doc) : Prop :=
  ∀ {before after : DocStore P}, Retains before after → content before ≤ content after

private theorem growing_known : Growing (P := P) DocStore.known := Retains.known_le

private theorem growing_cover : Growing (P := P) DocStore.cover := Retains.cover_le

private theorem growing_saved : Growing (P := P) DocStore.savedContent := Retains.saved_le

private theorem heldBy_kept (growing : Growing content) : KeptOnward (HeldBy content bound) := by
  intro before after onward held clean
  have earlier : before.unloadedAccesses = 0 :=
    Nat.le_zero.mp (onward.accesses_le.trans clean.le)
  exact (held earlier).trans (growing (onward.retains clean))

/-- A task in no guard that has `bound` in `content` between two of its steps. -/
abbrev Keeping (task : TaskId) (content : DocStore P → P.Doc) (bound : P.Doc) :
    GuardUsers → ServerState P → Prop :=
  (retention P).Knows ServerState.store (Aside task (HeldBy content bound))

/-- A task in no guard. -/
abbrev Idle (task : TaskId) : GuardUsers → ServerState P → Prop :=
  (retention P).Knows ServerState.store (Aside task fun _ => True)

theorem Keeping.idle {users : GuardUsers} {server : ServerState P}
    (keeping : Keeping task content bound users server) : Idle task users server :=
  ⟨keeping.1, keeping.2.1, trivial⟩

/-- A program that moves `bound` into `content` if it returns. -/
abbrev Stores (allows : ServerState P → Call → Event P → Prop) (task : TaskId)
    (before : DocStore P → P.Doc) (bound : P.Doc) (after : DocStore P → P.Doc) (stored : P.Doc)
    (program : ServerProgram P α) : Prop :=
  Attempts (retentionLogic P) allows task (Keeping task before bound) (Keeping task after stored)
    (Idle task) program

private theorem stores_of_keeps {program : ServerProgram P α}
    (keeps : KeepsFact (retention P) ServerState.store allows task
      (Aside task (HeldBy content bound)) program) :
    Stores allows task content bound content bound program :=
  keeps.attempts.mono (fun _ _ => id) fun _ _ => Keeping.idle

/-! ### Methods of the manager -/

/-- A guarded method that returns has put all that was known into `content`. -/
theorem stores_serialized {body : Program P α}
    (stable : ∀ store registry, content (withRegistry registry store) = content store)
    (bodySpec : ∀ origin id users store, Behind origin task id users store →
      wp (retention P) (managerAllows allows) task body
        (fun result users after => Behind origin task id users after ∧
          StoresKnown content origin result after) users store) :
    Stores allows task DocStore.known bound content bound (onManager (serialized task body)) := by
  intro users server start
  refine wp_mono ?_ (wp_focus embeds_store trivial
    (retains_serialized start.1 start.2.1 (.refl server.store) ?_ fun id users store behind =>
      bodySpec server.store id users store behind))
  · rintro result users' server' ⟨_, ⟨inv, outside, onward⟩, stored⟩
    cases result with
    | error exn => exact ⟨inv, outside, trivial⟩
    | ok value =>
        refine ⟨inv, outside, fun clean => ?_⟩
        have earlier : server.store.unloadedAccesses = 0 :=
          Nat.le_zero.mp (onward.accesses_le.trans clean.le)
        exact (start.2.2 earlier).trans (stored value rfl clean)
  · intro result store registry stored value returned clean
    rw [stable]
    exact stored value returned clean

private theorem stores_persistToDb (readable : ServerReadable True allows) :
    Stores allows task DocStore.known bound DocStore.savedContent bound
      (onManager (persistToDb task)) :=
  stores_serialized (fun _ _ => rfl) fun _ _ _ _ behind =>
    persistToDbLocked_retains readable.manager behind

private theorem stores_checkpointToRedis :
    Stores allows task DocStore.known bound DocStore.cover bound
      (onManager (checkpointToRedis task)) :=
  stores_serialized (fun _ _ => rfl) fun _ _ _ _ behind =>
    wp_mono (fun _ _ _ moved => ⟨moved.1, moved.2.2⟩) (checkpointToRedisLocked_retains behind)

private theorem stores_checkpointAndRemove :
    Stores allows task DocStore.known bound DocStore.cover bound
      (onManager (checkpointAndRemove task)) :=
  stores_serialized (fun _ _ => rfl) fun _ _ _ _ behind =>
    checkpointAndRemoveLocked_retains behind

/-! ### The room lock -/

/-- What a body under the room lock ends with. The lock is no part of the protocol. -/
theorem wp_withRoomLock_retention {post : Post GuardUsers (ServerState P) Exn α}
    {body : ServerProgram P α} (growing : Growing content)
    (freed : ∀ result users server, post result users server →
      post result users server.releaseRoomLock)
    (holds : ∀ users server, Keeping task content bound users server →
      wp (retentionLogic P) allows task body post users server)
    {users : GuardUsers} {server : ServerState P}
    (start : Keeping task content bound users server) :
    wp (retentionLogic P) allows task (withRoomLock task body) post users server := by
  have standing : Standing (retention P) (fun _ => True) task (Aside task (HeldBy content bound)) :=
    aside_standing (heldBy_kept growing)
  unfold withRoomLock
  rw [wp_bind]
  refine wp_awaitUntil start.1 trivial ?_
  intro users₁ server₁ rely inv _ _ server₂ taken
  have same : server₂.store = server₁.store := by
    unfold acquireRoomLock at taken
    split at taken
    · cases taken
    · obtain ⟨_, rfl⟩ := Prod.mk.inj (Option.some.inj taken)
      rfl
  have still : Keeping task content bound users₁ server₁ :=
    ⟨inv, standing.stable rely inv start.2⟩
  obtain ⟨users₂, guar, entered⟩ := standing.unchanged same still
  refine ⟨users₂, guar, ?_⟩
  rw [thenPost_ok, wp_tryFinally]
  refine wp_mono ?_ (holds users₂ server₂ entered)
  intro result users₃ server₃ ended
  refine wp_modify users₃ ⟨.refl _ _ _, .refl _⟩ ?_
  cases result with
  | ok value => exact freed (.ok value) users₃ server₃ ended
  | error exn => exact freed (.error exn) users₃ server₃ ended

private theorem stores_withRoomLock {before after : DocStore P → P.Doc} {stored : P.Doc}
    {body : ServerProgram P α} (growing : Growing before)
    (holds : Stores allows task before bound after stored body) :
    Stores allows task before bound after stored (withRoomLock task body) :=
  fun _ _ start => wp_withRoomLock_retention growing
    (fun result _ _ ended => by cases result <;> exact ended) holds start

/-! ### Maintenance -/

/-- A maintenance task that ends has put all that was known into the stores, with or
without connections in the room. -/
theorem stores_maintainDocumentCheckpoint :
    Stores allows task DocStore.known bound DocStore.cover bound
      (maintainDocumentCheckpoint task : ServerProgram P Unit) := by
  -- An empty room has been checkpointed under the lock, and the other one will be.
  let locked : Post GuardUsers (ServerState P) Exn Bool := fun result =>
    match result with
    | .ok true => Keeping task DocStore.known bound
    | .ok false => Keeping task DocStore.cover bound
    | .error _ => Idle task
  intro users server start
  unfold maintainDocumentCheckpoint
  rw [wp_bind]
  have underLock : ∀ users server, Keeping task DocStore.known bound users server →
      wp (retentionLogic P) allows task
        (do
          if (← get).connections.isEmpty then
            let _ ← onManager (checkpointAndRemove task)
            pure false
          else pure true) locked users server := by
    intro users server start
    rw [wp_bind, wp_get, thenPost_ok]
    split
    · rw [wp_bind]
      refine wp_mono ?_ (stores_checkpointAndRemove users server start)
      intro result users' server' ended
      cases result <;> exact ended
    · exact start
  refine wp_mono ?_ (wp_withRoomLock_retention growing_known ?_ underLock start)
  · intro result users₁ server₁ ended
    match result with
    | .ok true =>
        rw [thenPost_ok, if_pos rfl, wp_bind]
        refine wp_mono ?_ (stores_checkpointToRedis users₁ server₁ ended)
        intro result users' server' ended
        cases result <;> exact ended
    | .ok false => exact ended
    | .error exn => exact ended
  · intro result users server ended
    match result with
    | .ok true | .ok false | .error exn => exact ended

/-! ### Saves -/

/-- An update that has been applied is known. -/
theorem applyUpdate_known {store : DocStore P} {update : P.Bytes}
    (applied : (store.applyUpdate update).1 = .ok ()) :
    Platform.content (some update) ≤ (store.applyUpdate update).2.known := by
  revert applied
  unfold DocStore.applyUpdate
  split
  · exact nofun
  · next ref after answer =>
      have current : after.docs = some ref := by
        unfold DocStore.getOrCreate at answer
        split at answer
        · next present =>
            obtain ⟨same, rfl⟩ := Prod.mk.inj answer
            exact present.trans (congrArg some (Except.ok.inj same))
        · split at answer
          · cases (Prod.mk.inj answer).1
          · obtain ⟨same, rfl⟩ := Prod.mk.inj answer
            exact congrArg some (Except.ok.inj same)
      split
      · exact nofun
      · next change decoded =>
          intro _
          have present : (after.edit ref (· ⊔ change)).docs = some ref := current
          rw [known_of_present present, DocStore.edit_live, Function.update_self]
          have contained : Platform.content (some update) = change := by
            simp [Platform.content, decoded]
          rw [contained]
          exact le_sup_right.trans le_sup_right

private theorem stores_applyUpdate (userId : UserId) (update : P.Bytes) :
    Stores allows task DocStore.known bound DocStore.known
      (bound ⊔ Platform.content (some update))
      (Coroutine.atomic (mutate userId (DocStore.applyUpdate update))) := by
  intro users server start
  have step : CoreStep (core server)
      (core (mutate userId (DocStore.applyUpdate update) server).2) :=
    .method (.applyUpdate update) (core server)
  obtain ⟨guar, onward, inv⟩ := step.retains start.1
  have kept := heldBy_kept growing_known onward start.2.2
  refine wp_atomic users ⟨guar, onward⟩ ?_
  cases applied : (mutate userId (DocStore.applyUpdate update) server).1 with
  | error exn => exact ⟨inv, start.2.1, trivial⟩
  | ok value =>
      exact ⟨inv, start.2.1, fun clean => sup_le (kept clean) (applyUpdate_known applied)⟩

private theorem stores_saveUnderLock (readable : ServerReadable True allows) (userId : UserId)
    (documentState : P.Bytes) (hasConnections : Bool) :
    Stores allows task DocStore.known bound DocStore.savedContent
      (bound ⊔ Platform.content (some documentState))
      (saveUnderLock task userId documentState hasConnections) := by
  have knowing : RetentionPass allows task (HeldBy DocStore.known bound) :=
    retention_pass readable (heldBy_kept growing_known)
  have holding : RetentionPass allows task
      (HeldBy DocStore.savedContent (bound ⊔ Platform.content (some documentState))) :=
    retention_pass readable (heldBy_kept growing_saved)
  unfold saveUnderLock
  refine .bind (stores_of_keeps (knowing.requireCurrentEditor _)) fun _ => ?_
  refine .bind (stores_of_keeps knowing.underLock.load) fun _ => ?_
  refine .bind (.tryExcept_throw (stores_applyUpdate _ _)) fun _ => ?_
  refine .bind (stores_persistToDb readable) fun result => ?_
  exact .bind (stores_of_keeps (holding.underLock.tryCheckpoint _)) fun _ => .pure _ fun _ _ => id

/-- A save request that is answered with success has stored what was known, and what
it has sent. -/
theorem stores_saveSessionDocument (readable : ServerReadable True allows)
    (credentials : Option UserId) (documentState : P.Bytes) :
    Stores allows task DocStore.known bound DocStore.savedContent
      (bound ⊔ Platform.content (some documentState))
      (saveSessionDocument credentials documentState task) := by
  have knowing : RetentionPass allows task (HeldBy DocStore.known bound) :=
    retention_pass readable (heldBy_kept growing_known)
  have holding : RetentionPass allows task
      (HeldBy DocStore.savedContent (bound ⊔ Platform.content (some documentState))) :=
    retention_pass readable (heldBy_kept growing_saved)
  unfold saveSessionDocument
  refine .bind (stores_of_keeps (knowing.roleChecker _ _)) fun user => ?_
  split
  · exact .throw _ fun _ _ => Keeping.idle
  · refine .bind (stores_of_keeps (checkSize_preserves _ _)) fun _ => ?_
    refine .bind (stores_withRoomLock growing_known (.bind (stores_of_keeps .get) fun _ =>
      stores_saveUnderLock readable _ _ _)) fun result => ?_
    exact stores_of_keeps (.bind (holding.broadcast _) fun _ => holding.broadcast _)

/-! ### Every run of the server -/

section Runs

variable {policy : ServerPolicy P}

/-- What a request has stored outlasts the steps of the other tasks. -/
theorem lasts_stored (growing : Growing content) :
    Lasts (retentionLogic P) task
      (outcomes (Keeping task content bound) (Idle task) :
        Post GuardUsers (ServerState P) Exn Unit) where
  inv {result users server} met := by
    cases result <;> exact met.1
  stable {result users server users' server'} rely inv met := by
    cases result with
    | ok value =>
        have standing : Standing (retention P) (fun _ => True) task
            (Aside task (HeldBy content bound)) := aside_standing (heldBy_kept growing)
        exact ⟨inv, standing.stable rely inv met.2⟩
    | error exn =>
        have standing : Standing (retention P) (fun _ => True) task (Aside task fun _ => True) :=
          aside_standing fun _ _ => trivial
        exact ⟨inv, standing.stable rely inv met.2⟩

def startRequest (request : ServerRequest P) (task : TaskId) (pool : ServerPool P) :
    ServerPool P :=
  pool.runTask task request (request.handler task) pool.state

/-- A request of any pool of any run that has answered has put into `content` all that was
known when it came. -/
theorem answered_stores (readable : ∀ request, ServerReadable True (policy request))
    (growing : Growing content) {request : ServerRequest P} {stored : P.Doc}
    {start last : ServerPool P} (reached : Reachable (serverService P) policy Booted start)
    (unused : start.tasks task = none)
    (stores : Stores (policy request) task DocStore.known start.state.store.known content stored
      (request.handler task))
    {trace : List (Moment (ServerState P) (Event P) Call)} {final : ServerState P}
    (stretch : Stretch (serverService P) policy task (startRequest request task start).state
      (startRequest request task start) trace final last)
    (answered : last.outcome task = some (.ok ())) :
    Reachable (serverService P) policy Booted last ∧ stored ≤ content last.state.store := by
  have ended := stretch.reachable (reached.step (.spawn task request unused))
  obtain ⟨users, _, _, _, held⟩ := stretch.meets retentionLogic_lawful
    (retention_keeps readable) (fun _ => trivial) (lasts_stored growing) reached unused
    (fun users inv outside => stores users start.state ⟨inv, outside, fun _ => le_rfl⟩) answered
  exact ⟨ended, held (accesses_zero ended)⟩

/-- **A save that has answered is for good.** When a save request is answered with
success, PostgreSQL holds all that the process knew when the request arrived and all that
the request has sent, and it holds them after every later step, crashes included. -/
theorem acknowledged_save_is_durable
    (readable : ∀ request state event, event ≠ .done →
      policy request state .checkpointGet event →
        state.store.checkpointContent ≤ state.store.savedContent)
    {start last later : ServerPool P} (reached : Reachable (serverService P) policy Booted start)
    {credentials : Option UserId} {documentState : P.Bytes} (unused : start.tasks task = none)
    {trace : List (Moment (ServerState P) (Event P) Call)} {final : ServerState P}
    (stretch : Stretch (serverService P) policy task
      (startRequest (.save credentials documentState) task start).state
      (startRequest (.save credentials documentState) task start) trace final last)
    (answered : last.outcome task = some (.ok ()))
    (onward : Relation.ReflTransGen (Step (serverService P) policy) last later) :
    start.state.store.known ⊔ Platform.content (some documentState) ≤
      later.state.store.savedContent := by
  have serverReadable : ∀ request, ServerReadable True (policy request) :=
    fun request _ state event raised allowed => readable request state event raised allowed
  obtain ⟨ended, stored⟩ := answered_stores serverReadable growing_saved reached unused
    (stores_saveSessionDocument (serverReadable _) credentials documentState) stretch answered
  exact stored.trans (run_stores_le serverReadable ended onward).1

/-- **A crash loses at most what came after a flush.** When a maintenance task has ended
without an exception, PostgreSQL and Redis hold all that the process knew when it began,
and they hold it after every later step, crashes included. -/
theorem completed_flush_bounds_loss
    (readable : ∀ request state event, event ≠ .done →
      policy request state .checkpointGet event →
        state.store.checkpointContent ≤ state.store.savedContent)
    {start last later : ServerPool P} (reached : Reachable (serverService P) policy Booted start)
    (unused : start.tasks task = none)
    {trace : List (Moment (ServerState P) (Event P) Call)} {final : ServerState P}
    (stretch : Stretch (serverService P) policy task (startRequest .maintain task start).state
      (startRequest .maintain task start) trace final last)
    (answered : last.outcome task = some (.ok ()))
    (onward : Relation.ReflTransGen (Step (serverService P) policy) last later) :
    start.state.store.known ≤ later.state.store.cover := by
  have serverReadable : ∀ request, ServerReadable True (policy request) :=
    fun request _ state event raised allowed => readable request state event raised allowed
  obtain ⟨ended, stored⟩ := answered_stores serverReadable growing_cover reached unused
    stores_maintainDocumentCheckpoint stretch answered
  exact stored.trans (run_stores_le serverReadable ended onward).2

end Runs

/-! ### Runs of the small backend -/

/-- A request of the small backend that comes after an update that only memory holds, and
is answered. -/
theorem answered_of_follow {request : ServerRequest editLog} {answers : Nat}
    (followed : ((readablePool editRun).bind fun start =>
      ((serverService editLog).follow permitsReadable 1
        ((List.replicate answers .done).map (.resume 1)) (startRequest request 1 start).state
          (startRequest request 1 start)).map fun (_, _, last) =>
            (start.state.store.cover, start.state.store.known, (start.tasks 1).isNone,
              (last.outcome 1).map Except.isOk)) = some (∅, {2}, true, some true)) :
    ∃ (start last : ServerPool editLog) (trace : List (Moment (ServerState editLog)
        (Event editLog) Call)) (final : ServerState editLog),
      Reachable (serverService editLog) readablePolicy Booted start ∧
        start.state.store.cover = ∅ ∧ start.state.store.known = {2} ∧ start.tasks 1 = none ∧
        Stretch (serverService editLog) readablePolicy 1 (startRequest request 1 start).state
          (startRequest request 1 start) trace final last ∧
        last.outcome 1 = some (.ok ()) := by
  obtain ⟨start, played, followed⟩ := Option.bind_eq_some_iff.mp followed
  obtain ⟨⟨trace, final, last⟩, answered, facts⟩ := Option.map_eq_some_iff.mp followed
  simp only [Prod.mk.injEq] at facts
  obtain ⟨uncovered, edited, unused, outcome⟩ := facts
  obtain ⟨result, ended, succeeded⟩ := Option.map_eq_some_iff.mp outcome
  cases result with
  | error exn => cases succeeded
  | ok value =>
      exact ⟨start, last, trace, final, reachable_readablePool played, uncovered,
        edited, Option.isNone_iff_eq_none.mp unused,
        Service.stretch_of_follow (fun _ _ _ _ allowed => allowed) answered, ended⟩

/-- The process crashes after a save that came when only memory held the update. -/
theorem acknowledged_save_is_durable_crash :
    ∃ start last : ServerPool editLog, start.state.store.cover = ∅ ∧
      start.state.store.known = {2} ∧ last.outcome 1 = some (.ok ()) ∧
        start.state.store.known ⊔ Platform.content (some ({3} : Finset Nat)) ≤
          (Pool.start (reboot last.state) : ServerPool editLog).state.store.savedContent := by
  obtain ⟨start, last, trace, final, reached, uncovered, edited, unused, stretch, ended⟩ :=
    @answered_of_follow (.save (some 1) (some {3})) 12 (by decide)
  exact ⟨start, last, uncovered, edited, ended, acknowledged_save_is_durable readablePolicy_readable
    reached unused stretch ended (.single .restart)⟩

/-- The process crashes after a flush that came when only memory held the update. -/
theorem completed_flush_bounds_loss_crash :
    ∃ start last : ServerPool editLog, start.state.store.cover = ∅ ∧
      start.state.store.known = {2} ∧ last.outcome 1 = some (.ok ()) ∧
        start.state.store.known ≤
          (Pool.start (reboot last.state) : ServerPool editLog).state.store.cover := by
  obtain ⟨start, last, trace, final, reached, uncovered, edited, unused, stretch, ended⟩ :=
    @answered_of_follow .maintain 3 (by decide)
  exact ⟨start, last, uncovered, edited, ended, completed_flush_bounds_loss readablePolicy_readable
    reached unused stretch ended (.single .restart)⟩

end Concord.Server

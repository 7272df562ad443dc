import Concord.Collaboration.GuardMutex

/-!
Contract: the coroutines of the manager take the steps of the guard machine.

Owns:
- `guardProtocol`, whose ghost state is the phase of every task, and the rule for
  `_serialized` around any body that leaves `_guards` alone, with a wait for the lock
  that takes it or raises;
- `documentService_guard_runs`, which finds every run of the manager's methods among
  the runs of the machine.

Does not own: which tasks are cancelled; the manager's runs wait until the lock is free.
-/

set_option autoImplicit false

namespace Concord.Collaboration

open Asyncio Platform DocStore

variable {P : Platform} {α : Type}

/-- Where a task is when it awaits a call. -/
def GuardPhase.At (call : Call) (phase : GuardPhase) : Prop :=
  if call = .sessionGuard then ∃ id, phase = .waiting id else ∃ id, phase = .inside id

/-- The protocol of the guard machine: the session and its phases are reached by steps
of the machine, and a task moves only itself. -/
def guardProtocol (P : Platform) (sessionId : String) :
    Logic (TaskId → GuardPhase) (DocStore P) Call where
  inv phases store := SessionReaches sessionId ⟨store, phases⟩
  rely task phases _ phases' _ := phases' task = phases task
  guar task phases _ phases' _ := ∀ other, other ≠ task → phases' other = phases other
  parked task call phases _ := (phases task).At call
  done task phases _ := phases task = .outside

private theorem guardProtocol_lawful (sessionId : String) : (guardProtocol P sessionId).Lawful where
  rely_refl _ _ _ := rfl
  rely_trans earlier later := later.trans earlier
  guar_rely different guar := guar _ different.symm
  parked_stable rely parked := by
    change GuardPhase.At _ _
    rw [rely]
    exact parked
  done_stable rely done := rely.trans done
  fresh_stable rely fresh := rely.trans fresh

section Phases

variable {sessionId : String} {allows : DocStore P → Call → Event P → Prop} {task : TaskId}
  {id : GuardId} {phases : TaskId → GuardPhase} {store : DocStore P}

def InBody (sessionId : String) (task : TaskId) (id : GuardId) (phases : TaskId → GuardPhase)
    (store : DocStore P) : Prop :=
  SessionReaches sessionId ⟨store, phases⟩ ∧ phases task = .inside id

/-- The task is not in `_serialized`. -/
def OutOfGuard (sessionId : String) (task : TaskId) (phases : TaskId → GuardPhase)
    (store : DocStore P) : Prop :=
  SessionReaches sessionId ⟨store, phases⟩ ∧ phases task = .outside

theorem InBody.work {after : DocStore P} (inBody : InBody sessionId task id phases store)
    (registry : after.registry = store.registry) : InBody sessionId task id phases after :=
  ⟨inBody.1.step (.work ⟨id, inBody.2⟩ registry), inBody.2⟩

/-- A synchronous method that leaves the guards alone. -/
theorem OutOfGuard.method {after : DocStore P} (out : OutOfGuard sessionId task phases store)
    (keeps : KeepsGuards store after) : OutOfGuard sessionId task phases after :=
  ⟨out.1.step (.method keeps), out.2⟩

/-! ### Guarded bodies -/

/-- A body of `_serialized`: it leaves `_guards` alone and never waits for the guard. -/
def GuardedBody (body : Program P α) : Prop :=
  ∀ sessionId allows task id,
    Preserves (guardProtocol P sessionId) allows task (InBody sessionId task id) body

namespace GuardedBody

variable {β : Type}

theorem pure (value : α) : GuardedBody (Pure.pure value : Program P α) :=
  fun _ _ _ _ => Preserves.pure value

theorem get : GuardedBody (MonadState.get : Program P (DocStore P)) :=
  fun _ _ _ _ => Preserves.get

theorem bind {first : Program P α} {rest : α → Program P β} (holds : GuardedBody first)
    (later : ∀ value, GuardedBody (rest value)) : GuardedBody (first >>= rest) :=
  fun sessionId allows task id =>
    (holds sessionId allows task id).bind fun value => later value sessionId allows task id

theorem tryExcept {body : Program P α} {handler : Exn → Program P α} (holds : GuardedBody body)
    (handled : ∀ exn, GuardedBody (handler exn)) : GuardedBody (body.tryExcept handler) :=
  fun sessionId allows task id =>
    (holds sessionId allows task id).tryExcept fun exn => handled exn sessionId allows task id

theorem tryFinally {body : Program P α} {cleanup : Program P Unit} (holds : GuardedBody body)
    (cleaned : GuardedBody cleanup) : GuardedBody (body.tryFinally cleanup) :=
  fun sessionId allows task id =>
    (holds sessionId allows task id).tryFinally (cleaned sessionId allows task id)

theorem modifyGet {update : DocStore P → α × DocStore P}
    (registry : ∀ store, (update store).2.registry = store.registry) :
    GuardedBody (MonadStateOf.modifyGet update : Program P α) :=
  fun _ _ _ _ => Preserves.modifyGet fun phases store inBody =>
    ⟨phases, fun _ _ => rfl, inBody.work (registry store)⟩

theorem update {change : DocStore P → DocStore P}
    (registry : ∀ store, (change store).registry = store.registry) :
    GuardedBody (modify change : Program P PUnit) :=
  modifyGet registry

theorem atomic {method : DocStore P → Except Exn α × DocStore P}
    (registry : ∀ store, (method store).2.registry = store.registry) :
    GuardedBody (Coroutine.atomic method : Program P α) :=
  fun _ _ _ _ => Preserves.atomic fun phases store inBody =>
    ⟨phases, fun _ _ => rfl, inBody.work (registry store)⟩

theorem awaitCall {call : Call}
    {act : Event P → DocStore P → Option (Except Exn α × DocStore P)} (notGuard : call ≠ .sessionGuard)
    (registry : ∀ event store result after, act event store = some (result, after) →
      after.registry = store.registry) :
    GuardedBody (Coroutine.awaitCall call act : Program P α) := by
  intro sessionId allows task id
  refine Preserves.awaitCall (fun phases store inBody => ⟨inBody.1, ?_⟩) ?_
  · change GuardPhase.At call (phases task)
    rw [GuardPhase.At, if_neg notGuard]
    exact ⟨id, inBody.2⟩
  · intro phases store phases₁ store₁ inBody rely reaches _ event result after _ taken
    have still : InBody sessionId task id phases₁ store₁ := ⟨reaches, rely.trans inBody.2⟩
    exact ⟨phases₁, fun _ _ => rfl, still.work (registry event store₁ result after taken)⟩

theorem readCall {call : Call} (notGuard : call ≠ .sessionGuard) (value : DocStore P → α) :
    GuardedBody (Collaboration.readCall call value) := by
  refine awaitCall notGuard fun event store result after taken => ?_
  cases event <;> cases taken <;> rfl

theorem writeCall {call : Call} (notGuard : call ≠ .sessionGuard)
    {effect : DocStore P → DocStore P} (registry : ∀ store, (effect store).registry = store.registry) :
    GuardedBody (Collaboration.writeCall call effect) := by
  refine awaitCall notGuard fun event store result after taken => ?_
  cases event <;> cases taken <;> first | rfl | exact registry store

end GuardedBody

/-! ### The wait for the lock -/

/-- `_serialized`, with the wait for the lock as a parameter. -/
def serializedBy (wait : GuardId → Program P Unit) (body : Program P α) : Program P α := do
  let id ← modifyGet DocStore.enterGuard
  Coroutine.tryFinally
    (do
      wait id
      Coroutine.tryFinally body (modify (DocStore.releaseGuard id)))
    (modify (DocStore.leaveGuard id))

def waitForLock (task : TaskId) (id : GuardId) : Program P Unit :=
  Coroutine.awaitUntil .sessionGuard (DocStore.acquireGuard id task)

/-- The wait of a task that may be cancelled: it takes the lock, or raises and leaves
all as it is. -/
def cancellableWait (task : TaskId) (id : GuardId) : Program P Unit :=
  Coroutine.awaitCall .sessionGuard fun event store =>
    match event with
    | .raised => some (.error .driver, store)
    | _ => (store.acquireGuard id task).map fun (_, after) => (.ok (), after)

private theorem serialized_eq (task : TaskId) (body : Program P α) :
    serialized task body = serializedBy (waitForLock task) body := rfl

/-- How a wait ends: in the body, or still counted in the guard with an exception. -/
def Waited (sessionId : String) (task : TaskId) (id : GuardId) :
    Post (TaskId → GuardPhase) (DocStore P) Exn Unit
  | .ok _, phases, store => InBody sessionId task id phases store
  | .error _, phases, store => SessionReaches sessionId ⟨store, phases⟩ ∧ phases task = .waiting id

/-- A wait for the lock of the guard that its task is counted in. -/
def LockWait (wait : TaskId → GuardId → Program P Unit) : Prop :=
  ∀ sessionId allows task id phases store, SessionReaches sessionId ⟨store, phases⟩ →
    phases task = .waiting id →
      wp (guardProtocol P sessionId) allows task (wait task id) (Waited sessionId task id) phases store

private theorem parked_of_waiting (waiting : phases task = .waiting id) :
    (guardProtocol P sessionId).parked task .sessionGuard phases store := by
  change GuardPhase.At .sessionGuard (phases task)
  rw [waiting]
  exact ⟨id, rfl⟩

/-- Taking the lock brings a waiting task into the body. -/
theorem inBody_of_acquire {after : DocStore P} (reaches : SessionReaches sessionId ⟨store, phases⟩)
    (waiting : phases task = .waiting id) (acquired : store.acquireGuard id task = some ((), after)) :
    InBody sessionId task id (Function.update phases task (.inside id)) after :=
  ⟨reaches.step (.acquire waiting acquired), Function.update_self _ _ _⟩

private theorem lockWait_waitForLock : LockWait (waitForLock (P := P)) := by
  intro sessionId allows task id phases store reaches waiting
  refine wp_awaitUntil reaches (parked_of_waiting waiting) ?_
  intro phases₁ store₁ rely reaches₁ _ _ store₂ acquired
  exact ⟨_, fun _ different => Function.update_of_ne different _ _,
    inBody_of_acquire reaches₁ (rely.trans waiting) acquired⟩

private theorem lockWait_cancellableWait : LockWait (cancellableWait (P := P)) := by
  intro sessionId allows task id phases store reaches waiting
  refine wp_awaitCall reaches (parked_of_waiting waiting) ?_
  intro phases₁ store₁ rely reaches₁ _ event result store₂ _ taken
  have still : phases₁ task = .waiting id := rely.trans waiting
  have taking : (store₁.acquireGuard id task).map
      (fun (_, after) => ((.ok () : Except Exn Unit), after)) = some (result, store₂) →
      ∃ phases₂, (guardProtocol P sessionId).guar task phases₁ store₁ phases₂ store₂ ∧
        Waited sessionId task id result phases₂ store₂ := by
    intro taken
    obtain ⟨⟨_, after⟩, acquired, same⟩ := Option.map_eq_some_iff.mp taken
    obtain ⟨rfl, rfl⟩ := Prod.mk.inj same
    exact ⟨_, fun _ different => Function.update_of_ne different _ _,
      inBody_of_acquire reaches₁ still acquired⟩
  cases event with
  | raised =>
      obtain ⟨rfl, rfl⟩ := Prod.mk.inj (Option.some.inj taken)
      exact ⟨phases₁, fun _ _ => rfl, reaches₁, still⟩
  | done => exact taking taken
  | raisedAfter => exact taking taken
  | received message => exact taking taken

/-- A guarded method takes its task from outside the guard to outside it, also where
its wait for the lock raises: that task leaves the guard through the `finally`. -/
theorem wp_serializedBy_phases {wait : TaskId → GuardId → Program P Unit} (waits : LockWait wait)
    {body : Program P α} (guarded : GuardedBody body)
    (out : OutOfGuard sessionId task phases store) :
    wp (guardProtocol P sessionId) allows task (serializedBy (wait task) body)
      (fun _ => OutOfGuard sessionId task) phases store := by
  have others : ∀ (phases : TaskId → GuardPhase) phase other, other ≠ task →
      Function.update phases task phase other = phases other :=
    fun _ _ _ different => Function.update_of_ne different _ _
  have entered := out.1.step (.enter out.2)
  unfold serializedBy
  rw [wp_bind]
  refine wp_modifyGet (Function.update phases task (.waiting store.enterGuard.1)) (others _ _) ?_
  simp only [thenPost_ok, wp_tryFinally, wp_bind]
  refine wp_mono ?_ (waits sessionId allows task store.enterGuard.1 _ _ entered
    (Function.update_self _ _ _))
  rintro (exn | _) phases₁ store₁ waited
  · -- The lock was never taken: only the count is given up.
    exact wp_modify _ (others _ _) ⟨waited.1.step (.cancel waited.2), Function.update_self _ _ _⟩
  simp only [thenPost_ok, wp_tryFinally]
  refine wp_mono ?_ (guarded sessionId allows task store.enterGuard.1 phases₁ store₁ waited)
  -- The lock and the count are given up without a suspension between them.
  intro result phases₃ store₃ inBody
  refine wp_modify phases₃ (fun _ _ => rfl) ?_
  have left : OutOfGuard sessionId task (Function.update phases₃ task .outside)
      ((store₃.releaseGuard store.enterGuard.1).leaveGuard store.enterGuard.1) :=
    ⟨inBody.1.step (.exit inBody.2), Function.update_self _ _ _⟩
  cases result with
  | ok value => exact wp_modify _ (others _ _) left
  | error exn => exact wp_modify _ (others _ _) left

private theorem wp_serialized_phases {body : Program P α} (guarded : GuardedBody body)
    (out : OutOfGuard sessionId task phases store) :
    wp (guardProtocol P sessionId) allows task (serialized task body)
      (fun _ => OutOfGuard sessionId task) phases store := by
  rw [serialized_eq]
  exact wp_serializedBy_phases lockWait_waitForLock guarded out

/-- A cancelled wait for the lock leaves the guard: the step that the machine has for it. -/
theorem wp_serialized_cancellable {body : Program P α} (guarded : GuardedBody body)
    (out : OutOfGuard sessionId task phases store) :
    wp (guardProtocol P sessionId) allows task (serializedBy (cancellableWait task) body)
      (fun _ => OutOfGuard sessionId task) phases store :=
  wp_serializedBy_phases lockWait_cancellableWait guarded out

/-! ### The bodies -/

private theorem guardedBody_loadDbState : GuardedBody (loadDbState (P := P)) :=
  .readCall (by decide) _

private theorem guardedBody_redisGet : GuardedBody (redisGet (P := P)) :=
  .readCall (by decide) _

private theorem guardedBody_redisSet (state : P.Bytes) : GuardedBody (redisSet state) :=
  .writeCall (by decide) fun _ => rfl

private theorem guardedBody_saveExecute : GuardedBody (saveExecute (P := P)) :=
  .writeCall (by decide) fun _ => rfl

private theorem guardedBody_saveCommit (state : P.Bytes) (savedAt : Nat) :
    GuardedBody (saveCommit state savedAt) :=
  .writeCall (by decide) fun _ => rfl

private theorem guardedBody_loadFromStorageLocked :
    GuardedBody (loadFromStorageLocked (P := P)) := by
  refine .bind .get fun store => ?_
  split
  · exact .pure _
  · refine .bind (.update fun _ => rfl) fun _ => .tryFinally ?_ (.update fun _ => rfl)
    refine .bind guardedBody_loadDbState fun stored => ?_
    refine .bind (.tryExcept ?_ fun _ => .pure _) fun (checkpoint, readable) => ?_
    · exact .bind guardedBody_redisGet fun _ => .pure _
    · exact .modifyGet fun _ => rfl

private theorem guardedBody_checkpointToRedisLocked :
    GuardedBody (checkpointToRedisLocked (P := P)) := by
  refine .bind .get fun store => ?_
  split
  · exact .pure _
  · refine .bind (guardedBody_redisSet _) fun _ => ?_
    exact .bind (.update fun _ => rfl) fun _ => .pure _

theorem recordSave_registry (ref : Ref) (state stateVector : P.Bytes) (savedAt : Nat)
    (store : DocStore P) :
    (store.recordSave ref state stateVector savedAt).2.registry = store.registry := by
  unfold DocStore.recordSave
  split <;> rfl

private theorem guardedBody_persistToDbLocked : GuardedBody (persistToDbLocked (P := P)) := by
  unfold persistToDbLocked
  refine .bind .get fun store => ?_
  split
  on_goal 1 => refine .bind (.pure _) fun ref => ?_
  on_goal 2 => refine .bind guardedBody_loadFromStorageLocked fun ref => ?_
  -- Both ways lead to the save of the document in memory.
  all_goals
    refine .bind .get fun store => .bind guardedBody_saveExecute fun _ => ?_
    refine .bind (guardedBody_saveCommit _ _) fun _ => ?_
    exact .atomic (recordSave_registry ref _ _ _)

private theorem guardedBody_checkpointAndRemoveLocked :
    GuardedBody (checkpointAndRemoveLocked (P := P)) := by
  refine .bind .get fun store => ?_
  split
  · exact .pure _
  · refine .bind guardedBody_checkpointToRedisLocked fun _ => .bind .get fun store => ?_
    split
    · exact .pure _
    · exact .bind (.update dropDoc_registry) fun _ => .pure _

end Phases

/-! ### The synchronous methods -/

section Methods

variable {first second third : DocStore P} (store : DocStore P)

theorem KeepsGuards.refl : KeepsGuards store store := ⟨rfl, id⟩

theorem KeepsGuards.trans (earlier : KeepsGuards first second) (later : KeepsGuards second third) :
    KeepsGuards first third :=
  ⟨later.registry.trans earlier.registry, fun present => later.docs (earlier.docs present)⟩

private theorem keepsGuards_countAccess : KeepsGuards store store.countAccess := ⟨rfl, id⟩

private theorem keepsGuards_edit (ref : Ref) (change : P.Doc → P.Doc) :
    KeepsGuards store (store.edit ref change) := ⟨rfl, id⟩

private theorem keepsGuards_tick (elapsed : Nat) :
    KeepsGuards store (store.tick elapsed) := ⟨rfl, id⟩

theorem keepsGuards_getOrCreate : KeepsGuards store store.getOrCreate.2 := by
  unfold DocStore.getOrCreate
  split
  · exact .refl store
  · split
    · exact keepsGuards_countAccess store
    · exact (keepsGuards_countAccess store).trans (keepsGuards_publish _ _)

theorem keepsGuards_applyUpdate (update : P.Bytes) :
    KeepsGuards store (store.applyUpdate update).2 := by
  have created := keepsGuards_getOrCreate store
  unfold DocStore.applyUpdate
  split
  · next answer =>
      rw [answer] at created
      exact created
  · next ref after answer =>
      rw [answer] at created
      split
      · exact created
      · next change _ => exact created.trans (keepsGuards_edit after ref (· ⊔ change))

theorem keepsGuards_encodeStateAsUpdate (stateVector : Option P.Bytes) :
    KeepsGuards store (store.encodeStateAsUpdate stateVector).2 := by
  have created := keepsGuards_getOrCreate store
  unfold DocStore.encodeStateAsUpdate
  split
  · next answer =>
      rw [answer] at created
      exact created
  · next answer =>
      rw [answer] at created
      split
      · exact created
      · split <;> exact created

theorem keepsGuards_restoreTextFromState (state : P.Bytes) :
    KeepsGuards store (store.restoreTextFromState state).2 := by
  have created := keepsGuards_getOrCreate store
  unfold DocStore.restoreTextFromState
  split
  · exact .refl store
  · next snapshot _ =>
      dsimp only
      split
      · next answer =>
          rw [answer] at created
          exact created
      · next ref after answer =>
          rw [answer] at created
          have restored : KeepsGuards store
              (if P.text (after.live ref).doc = P.text (P.newDoc ⊔ snapshot) then after
                else after.edit ref (replaceText ref (P.text (P.newDoc ⊔ snapshot)))) := by
            split
            · exact created
            · exact created.trans (keepsGuards_edit _ _ _)
          split <;> exact restored

end Methods

/-! ### Runs -/

/-- Every method of the manager takes its task from outside the guard to outside it. -/
theorem documentRequest_phases {sessionId : String}
    {allows : DocStore P → Call → Event P → Prop} {task : TaskId}
    {phases : TaskId → GuardPhase} {store : DocStore P}
    (out : OutOfGuard sessionId task phases store) (request : DocumentRequest P) :
    wp (guardProtocol P sessionId) allows task (request.run task)
      (fun _ => OutOfGuard sessionId task) phases store := by
  have serialized : ∀ {β : Type} {body : Program P β}, GuardedBody body →
      wp (guardProtocol P sessionId) allows task (do let _ ← serialized task body)
        (fun _ => OutOfGuard sessionId task) phases store := by
    intro β body guarded
    rw [wp_bind]
    refine wp_mono ?_ (wp_serialized_phases guarded out)
    rintro (_ | _) _ _ left <;> exact left
  have method : ∀ {β : Type} (method : DocStore P → Except Exn β × DocStore P),
      KeepsGuards store (method store).2 →
      wp (guardProtocol P sessionId) allows task (do let _ ← Coroutine.atomic method)
        (fun _ => OutOfGuard sessionId task) phases store := by
    intro β method keeps
    rw [wp_bind]
    refine wp_atomic phases (fun _ _ => rfl) ?_
    cases (method store).1 <;> exact out.method keeps
  cases request with
  | loadFromStorage => exact serialized guardedBody_loadFromStorageLocked
  | applyUpdate update =>
      exact wp_atomic phases (fun _ _ => rfl) (out.method (keepsGuards_applyUpdate store update))
  | restoreTextFromState state => exact method _ (keepsGuards_restoreTextFromState store state)
  | encodeStateAsUpdate stateVector =>
      exact method _ (keepsGuards_encodeStateAsUpdate store stateVector)
  | checkpointToRedis => exact serialized guardedBody_checkpointToRedisLocked
  | persistToDb => exact serialized guardedBody_persistToDbLocked
  | checkpointAndRemove => exact serialized guardedBody_checkpointAndRemoveLocked
  | removeDoc =>
      rw [DocumentRequest.run, wp_bind]
      exact wp_modifyGet phases (fun _ _ => rfl) ⟨out.1.step .removeDoc, out.2⟩

private theorem documentService_keeps_guards (sessionId : String)
    {policy : Policy (DocStore P) (Event P) Call (DocumentRequest P)} :
    Keeps (guardProtocol P sessionId) (documentService P) policy Booted where
  start := by
    rintro _ ⟨name, saved, checkpoint, clock, rfl⟩
    exact ⟨fun _ => .outside, .start rfl, fun _ => rfl⟩
  request reaches _ outside := documentRequest_phases ⟨reaches, outside⟩ _
  ambient := by
    intro elapsed phases store _ taken reaches _
    obtain rfl := Option.some.inj taken
    exact ⟨phases, reaches.step (.method (keepsGuards_tick store elapsed)), fun _ => rfl⟩
  restart reaches := ⟨fun _ => .outside, reaches.step .restart, fun _ => rfl⟩

def awaitedCall (pool : Pool (DocStore P) (Event P) Call Exn (DocumentRequest P)) (task : TaskId) :
    Option Call :=
  match pool.tasks task with
  | some (_, .await call _ _) => some call
  | _ => none

/-- **The runs of the manager's methods are runs of the guard machine**, where a task
waits when it awaits the guard, and is in a body when it awaits anything else. -/
theorem documentService_guard_runs (sessionId : String)
    {policy : Policy (DocStore P) (Event P) Call (DocumentRequest P)}
    {pool : Pool (DocStore P) (Event P) Call Exn (DocumentRequest P)}
    (reached : Reachable (documentService P) policy Booted pool) :
    ∃ phases, SessionReaches sessionId ⟨pool.state, phases⟩ ∧ ∀ task,
      match awaitedCall pool task with
      | none => phases task = .outside
      | some call => (phases task).At call := by
  obtain ⟨phases, reaches, tasks⟩ := reached.verified (guardProtocol_lawful sessionId)
    (documentService_keeps_guards sessionId) fun _ => trivial
  refine ⟨phases, reaches, fun task => ?_⟩
  have verified := tasks task
  unfold TaskVerified at verified
  unfold awaitedCall
  cases started : pool.tasks task with
  | none =>
      rw [started] at verified
      exact verified
  | some entry =>
      obtain ⟨request, program⟩ := entry
      rw [started] at verified
      obtain ⟨settled, holds⟩ := verified
      cases program with
      | ret value => exact holds.2
      | raise exn => exact holds.2
      | look next => exact settled.elim
      | sync update next => exact settled.elim
      | await call act next => exact holds.2.1

/-- At most one task of the manager is suspended in a guarded body. -/
theorem documentService_one_body
    {policy : Policy (DocStore P) (Event P) Call (DocumentRequest P)}
    {pool : Pool (DocStore P) (Event P) Call Exn (DocumentRequest P)}
    (reached : Reachable (documentService P) policy Booted pool) {task other : TaskId}
    {call callToo : Call} (awaits : awaitedCall pool task = some call)
    (awaitsToo : awaitedCall pool other = some callToo) (inside : call ≠ .sessionGuard)
    (insideToo : callToo ≠ .sessionGuard) : task = other := by
  obtain ⟨phases, reaches, tasks⟩ := documentService_guard_runs "session" reached
  have phase := tasks task
  have phaseToo := tasks other
  rw [awaits] at phase
  rw [awaitsToo] at phaseToo
  simp only [GuardPhase.At, if_neg inside] at phase
  simp only [GuardPhase.At, if_neg insideToo] at phaseToo
  exact reaches.inv.inside_unique phase phaseToo

end Concord.Collaboration

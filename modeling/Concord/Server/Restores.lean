import Concord.Server.SizeLimits
import Concord.Server.Snapshots

/-!
Contract: what a restore of a stored snapshot can answer.

Owns:
- a load that has returned leaves a document in memory, in every run;
- `IsUnusable`, the two answers that blame a snapshot;
- no restore that a run of the server has finished ended with one of them.

A restore may still fail: the user may have lost the right to edit, the snapshot may
not exist, and the stores may raise.

Does not own: what the restored document is.
-/

set_option autoImplicit false

namespace Concord.Server

open Asyncio Collaboration ServerState

variable {P : Platform} {α : Type} {task : TaskId}

/-! ### A load that has returned -/

section Loads

variable {env : DocStore P → DocStore P → Prop} {start final : DocStore P}
  {trace : List (Moment (DocStore P) (Event P) Call)} {ref : Ref}

private theorem present_of_loadLocked
    (runs : Runs env (loadFromStorageLocked : Program P Ref) start trace (.ok ref) final) :
    final.docs ≠ none := by
  unfold loadFromStorageLocked at runs
  obtain ⟨_, _, _, _, rfl, looks, rest⟩ := runs_bind_ok runs
  obtain ⟨rfl, read, rfl⟩ := runs_get looks
  obtain rfl := Except.ok.inj read
  split at rest
  · next existing present =>
      obtain ⟨_, _, rfl⟩ := runs_pure rest
      rw [present]
      exact Option.some_ne_none _
  · obtain ⟨last, loads, rfl⟩ := runs_tryFinally_modify (runs_modify_bind rest)
    obtain ⟨_, _, _, _, rfl, _, answers⟩ := runs_bind_ok loads
    obtain ⟨_, _, _, _, rfl, _, publishes⟩ := runs_bind_ok answers
    obtain ⟨_, _, rfl⟩ := runs_modifyGet publishes
    exact Option.some_ne_none _

/-- A document is in memory once a load has returned. -/
theorem present_of_load
    (runs : Runs env (loadFromStorage task : Program P Ref) start trace (.ok ref) final) :
    final.docs ≠ none := by
  unfold loadFromStorage serialized at runs
  obtain ⟨id, _, _, _, rfl, _, guarded⟩ := runs_bind_ok runs
  obtain ⟨left, inner, rfl⟩ := runs_tryFinally_modify guarded
  obtain ⟨_, _, _, _, rfl, _, held⟩ := runs_bind_ok inner
  obtain ⟨released, loads, rfl⟩ := runs_tryFinally_modify held
  have present := present_of_loadLocked loads
  exact present

end Loads

/-- A document in memory takes over the text of every encoded document. -/
theorem restoreTextFromState_ok {store : DocStore P} (present : store.docs ≠ none) (doc : P.Doc) :
    ∃ update, (store.restoreTextFromState (P.getUpdate doc)).1 = .ok update := by
  obtain ⟨ref, found⟩ := Option.ne_none_iff_exists'.mp present
  have answers : ∀ after : P.Doc, ∃ update,
      P.getUpdateSince after (P.getState (store.live ref).doc) = some update := by
    intro after
    obtain ⟨update, _, answered, _⟩ := P.getUpdateSince_getState after (store.live ref).doc
    exact ⟨update, answered⟩
  unfold DocStore.restoreTextFromState DocStore.getOrCreate
  rw [P.decode_getUpdate, found]
  dsimp only
  split
  · next none =>
      obtain ⟨update, answered⟩ := answers _
      exact nomatch none.symm.trans answered
  · next update _ => exact ⟨update, rfl⟩

/-! ### The answers that blame a snapshot -/

/-- A snapshot is refused: it is too large, or it cannot be decoded. -/
def IsUnusable (exn : Exn) : Prop :=
  exn = .httpException 413 "Snapshot state exceeds the configured size limit" ∨
    exn = .httpException 422 "Snapshot contains invalid Yjs document state"

private theorem driver_usable : ¬IsUnusable .driver := by
  unfold IsUnusable
  simp

/-- An answer with another code does not blame the snapshot. -/
theorem usable_of_code {code : Nat} (detail : String) (tooLarge : code ≠ 413) (invalid : code ≠ 422) :
    ¬IsUnusable (.httpException code detail) := by
  unfold IsUnusable
  simp [tooLarge, invalid]

private theorem query_usable {β : Type} (value : ServerState P → β) :
    Never IsUnusable (query value) := by
  apply Never.awaitCall
  intro event server exn after taken
  cases event with
  | done | received => cases taken
  | raised | raisedAfter =>
      obtain ⟨raised, _⟩ := Prod.mk.inj (Option.some.inj taken)
      obtain rfl := Except.error.inj raised
      exact driver_usable

private theorem readCall_usable (call : Call) (value : DocStore P → α) :
    Never IsUnusable (readCall call value) := by
  apply Never.awaitCall
  intro event store exn after taken
  cases event with
  | done | received => cases taken
  | raised | raisedAfter =>
      obtain ⟨raised, _⟩ := Prod.mk.inj (Option.some.inj taken)
      obtain rfl := Except.error.inj raised
      exact driver_usable

private theorem loadFromStorage_usable :
    Never IsUnusable (onManager (loadFromStorage task) : ServerProgram P Ref) := by
  have locked : Never IsUnusable (loadFromStorageLocked : Program P Ref) := by
    unfold loadFromStorageLocked
    refine .bind .get fun store => ?_
    split
    · exact .pure _
    · refine .bind (.modifyGet _) fun _ => .tryFinally_modify ?_
      refine .bind (readCall_usable _ _) fun stored => .bind (.tryExcept fun _ => .pure _) fun _ => ?_
      exact .modifyGet _
  refine .focus isPart_store (.bind (.modifyGet _) fun _ => .tryFinally_modify ?_)
  exact .bind (.awaitUntil _ _) fun _ => .tryFinally_modify locked

private theorem roleChecker_usable (minRole : RoleEnum) (credentials : Option UserId) :
    Never IsUnusable (roleChecker minRole credentials : ServerProgram P CurrentUser) := by
  have checked : ∀ ownerId user membership exn,
      checkRole minRole ownerId user membership = .error exn → ¬IsUnusable exn := by
    intro ownerId user membership exn refused
    unfold checkRole at refused
    split at refused
    · obtain rfl := Except.error.inj refused
      exact usable_of_code _ (by decide) (by decide)
    · split at refused
      · obtain rfl := Except.error.inj refused
        exact usable_of_code _ (by decide) (by decide)
      · split at refused
        · obtain rfl := Except.error.inj refused
          exact usable_of_code _ (by decide) (by decide)
        · cases refused
  unfold roleChecker
  refine .bind ?_ fun user => .bind ?_ fun answer => ?_
  · unfold getCurrentUser
    split
    · exact .throw (usable_of_code _ (by decide) (by decide))
    · refine .bind (query_usable _) fun answer => ?_
      split
      · exact .throw (usable_of_code _ (by decide) (by decide))
      · exact .pure _
  · unfold getSession
    split
    · exact .pure _
    · exact query_usable _
  · split
    · exact .throw (usable_of_code _ (by decide) (by decide))
    · split
      · exact .throw (usable_of_code _ (by decide) (by decide))
      · refine .bind (query_usable _) fun answer => ?_
        split
        split
        · exact .pure _
        · next refused => exact .throw (checked _ _ _ _ refused)

private theorem requireCurrentEditor_usable (userId : UserId) :
    Never IsUnusable (requireCurrentEditor userId : ServerProgram P Unit) := by
  refine .awaitCall_bind (fun event server exn after taken => ?_)
    fun event server failure after taken => ?_
  · cases event with
    | done | received => cases taken
    | raised | raisedAfter =>
        obtain ⟨raised, _⟩ := Prod.mk.inj (Option.some.inj taken)
        obtain rfl := Except.error.inj raised
        exact driver_usable
  · cases failure with
    | none => exact .pure _
    | some exn =>
        have failed : currentEditorFailure server.database.session (server.database.members userId) =
            some exn := by
          cases event with
          | done =>
              obtain ⟨answer, _⟩ := Prod.mk.inj (Option.some.inj taken)
              exact Except.ok.inj answer
          | raised | raisedAfter | received => cases taken
        apply Never.throw
        unfold currentEditorFailure at failed
        split at failed
        · obtain rfl := Option.some.inj failed
          exact usable_of_code _ (by decide) (by decide)
        · split at failed
          · obtain rfl := Option.some.inj failed
            exact usable_of_code _ (by decide) (by decide)
          · split at failed
            · cases failed
            · obtain rfl := Option.some.inj failed
              exact usable_of_code _ (by decide) (by decide)

private theorem tryCheckpoint_usable (hasConnections : Bool) :
    Never IsUnusable (tryCheckpoint task hasConnections : ServerProgram P Unit) := by
  unfold tryCheckpoint
  split <;> exact .tryExcept fun _ => .pure _

private theorem broadcastBinary_usable (sender : TaskId) (frame : ServerFrame P) :
    Never IsUnusable (broadcastBinary sender frame) := by
  refine .bind .get fun server => ?_
  generalize server.connections = connections
  induction connections with
  | nil => exact .modifyGet _
  | cons connection rest inductionHypothesis =>
      refine .bind (.modifyGet _) fun _ => .bind .get fun server => ?_
      split
      · exact inductionHypothesis
      · exact .bind (.tryExcept fun _ => .pure _) fun _ => inductionHypothesis

/-! ### A restore -/

section Runs

variable {env : ServerState P → ServerState P → Prop} {start final : ServerState P}
  {trace : List (Moment (ServerState P) (Event P) Call)} {exn : Exn}

/-- What is left of a restore once it has read a row that can be restored. -/
theorem restoreRow_usable {snapshot : Snapshot P} (restorable : Restorable snapshot)
    (userId : UserId) (hasConnections : Bool)
    (runs : Runs env (do
      checkSize snapshot.sizeBytes "Snapshot state exceeds the configured size limit"
      let _ ← onManager (loadFromStorage task)
      let update ← Coroutine.tryExcept
        (Coroutine.atomic (mutate userId (DocStore.restoreTextFromState snapshot.documentState)))
        fun _ => throw (.httpException 422 "Snapshot contains invalid Yjs document state")
      tryCheckpoint task hasConnections
      pure update) start trace (.error exn) final) : ¬IsUnusable exn := by
  obtain ⟨doc, encoded⟩ := restorable.encoded
  unfold checkSize at runs
  rw [if_neg (Nat.not_lt.mpr restorable.within)] at runs
  have loads : Runs env (do
      let _ ← onManager (loadFromStorage task)
      let update ← Coroutine.tryExcept
        (Coroutine.atomic (mutate userId (DocStore.restoreTextFromState snapshot.documentState)))
        fun _ => throw (.httpException 422 "Snapshot contains invalid Yjs document state")
      tryCheckpoint task hasConnections
      pure update) start trace (.error exn) final := runs
  rcases runs_bind loads with ⟨ref, loaded, _, _, rfl, returned, rest⟩ | ⟨_, raised, failed⟩
  · have present : loaded.store.docs ≠ none := present_of_load (runs_focus isPart_store returned).1
    -- Nothing can happen between the load and the mutation.
    obtain ⟨update, applied⟩ := restoreTextFromState_ok present doc
    rcases runs_bind rest with ⟨_, _, _, _, rfl, _, after⟩ | ⟨_, raised, mutates⟩
    · exact Never.bind (tryCheckpoint_usable hasConnections) (fun _ => .pure _) after
    · rcases runs_tryExcept mutates with ⟨_, ok, _⟩ | ⟨_, _, _, _, rfl, refused, _⟩
      · cases ok
      · have answer : (loaded.mutate userId
            (DocStore.restoreTextFromState snapshot.documentState)).1 = .ok update := by
          rw [encoded]
          exact applied
        have raised := (runs_atomic refused).2.1
        rw [answer] at raised
        cases raised
  · obtain rfl := Except.error.inj raised
    exact loadFromStorage_usable failed

private theorem restoreUnderLock_usable
    (sound : ∀ before after, env before after → (snapshotRows after).Sound) (userId : UserId)
    (snapshotId : Nat) (hasConnections : Bool)
    (runs : Runs env (restoreUnderLock task userId snapshotId hasConnections) start trace
      (.error exn) final) : ¬IsUnusable exn := by
  unfold restoreUnderLock at runs
  rcases runs_bind runs with ⟨_, checked, _, _, rfl, _, reads⟩ | ⟨_, raised, checks⟩
  · rcases runs_bind reads with ⟨answer, _, _, _, rfl, queried, rest⟩ | ⟨_, raised, queried⟩
    · obtain ⟨state, event, _, framed, taken⟩ := runs_awaitCall queried
      have found : answer = state.database.snapshots snapshotId := by
        cases event with
        | done =>
            obtain ⟨same, _⟩ := Prod.mk.inj (Option.some.inj taken)
            exact (Except.ok.inj same).symm
        | raised | raisedAfter | received => cases taken
      cases answer with
      | none => exact Never.throw (usable_of_code _ (by decide) (by decide)) rest
      | some snapshot =>
          exact restoreRow_usable ((sound _ _ framed).restorable found.symm) userId _ rest
    · obtain rfl := Except.error.inj raised
      exact query_usable _ queried
  · obtain rfl := Except.error.inj raised
    exact requireCurrentEditor_usable userId checks

private theorem restoreSnapshotEndpoint_usable
    (sound : ∀ before after, env before after → (snapshotRows after).Sound)
    (credentials : Option UserId) (snapshotId : Nat)
    (runs : Runs env (restoreSnapshotEndpoint credentials snapshotId task) start trace
      (.error exn) final) : ¬IsUnusable exn := by
  unfold restoreSnapshotEndpoint at runs
  rcases runs_bind runs with ⟨user, _, _, _, rfl, _, locked⟩ | ⟨_, raised, checks⟩
  · rcases runs_bind locked with ⟨update, _, _, _, rfl, _, sends⟩ | ⟨_, raised, section_⟩
    · split at sends
      · cases (runs_pure sends).2.1
      · exact broadcastBinary_usable task _ sends
    · obtain rfl := Except.error.inj raised
      unfold documentRoomLifecycle withRoomLock at section_
      rcases runs_bind section_ with ⟨_, _, _, _, rfl, _, guarded⟩ | ⟨_, raised, acquires⟩
      · obtain ⟨_, inner, _⟩ := runs_tryFinally_modify guarded
        rcases runs_bind inner with ⟨_, _, _, _, rfl, _, restores⟩ | ⟨_, _, looks⟩
        · exact restoreUnderLock_usable sound _ _ _ restores
        · cases (runs_get looks).2.1
      · obtain rfl := Except.error.inj raised
        exact Never.awaitUntil _ _ acquires
  · obtain rfl := Except.error.inj raised
    exact roleChecker_usable _ _ checks

end Runs

/-- **A restore never blames a snapshot.** However a restore of any snapshot that a run
of the server has started ends, among all other tasks, failures and earlier crashes, it
has not answered that the snapshot is too large or that it is invalid. -/
theorem restore_never_refused {policy : ServerPolicy P} {pool : ServerPool P}
    (reached : Reachable (serverService P) policy BootedOverSnapshots pool)
    {credentials : Option UserId} {snapshotId : Nat} {program : ServerProgram P Unit} {exn : Exn}
    (running : pool.tasks task = some (.restoreSnapshot credentials snapshotId, program))
    (ended : pool.outcome task = some (.error exn)) : ¬IsUnusable exn := by
  obtain ⟨start, trace, final, began, unused, stretch⟩ := reached.stretch running
  have spawned : Reachable (serverService P) policy BootedOverSnapshots
      (start.runTask task (.restoreSnapshot credentials snapshotId)
        ((serverService P).handler (.restoreSnapshot credentials snapshotId) task) start.state) :=
    began.step (.spawn task _ unused)
  have sound : ∀ {pool : ServerPool P},
      Reachable (serverService P) policy BootedOverSnapshots pool → (snapshotRows pool.state).Sound :=
    rows_sound
  have runs : Runs (fun _ server => (snapshotRows server).Sound)
      (restoreSnapshotEndpoint credentials snapshotId task) start.state trace (.error exn) final :=
    runs_settle (@Stretch.runs_within _ _ _ _ _ _ _ _ _ (fun server => (snapshotRows server).Sound)
      BootedOverSnapshots sound _ _ _ _ _ _ stretch ended spawned _ _ (Function.update_self _ _ _))
  exact restoreSnapshotEndpoint_usable (fun _ _ sound => sound) credentials snapshotId runs

/-- The user and the snapshot of a restore. -/
def ServerRequest.restored : ServerRequest P → Option (Option UserId × Nat)
  | restoreSnapshot credentials snapshotId => some (credentials, snapshotId)
  | _ => none

theorem ServerRequest.eq_of_restored {request : ServerRequest P} {credentials : Option UserId}
    {snapshotId : Nat} (same : request.restored = some (credentials, snapshotId)) :
    request = .restoreSnapshot credentials snapshotId := by
  cases request with
  | restoreSnapshot credentials' snapshotId' =>
      obtain ⟨rfl, rfl⟩ := Prod.mk.inj (Option.some.inj same)
      rfl
  | _ => cases same

/-- User 1 makes a snapshot, the process restarts, and user 1 restores the snapshot: its row
is read and its size checked, and the load of the document raises. -/
def failedRestoreRun : Schedule :=
  snapshotRun ++ .restart :: .spawn 0 (.restoreSnapshot (some 1) 0) ::
    (List.replicate 6 Event.done ++ [Event.raised]).map (.resume 0)

theorem restore_never_refused_unloaded :
    ∃ pool : ServerPool editLog,
      pool.outcome 0 = some (.error .driver) ∧ ¬IsUnusable .driver := by
  have answered : (samplePool failedRestoreRun).map (fun pool =>
      ((pool.tasks 0).map (·.1.restored), pool.outcome 0)) =
        some (some (some (some 1, 0)), some (.error .driver)) := by decide +kernel
  obtain ⟨pool, played, facts⟩ := Option.map_eq_some_iff.mp answered
  obtain ⟨started, ended⟩ := Prod.mk.inj facts
  obtain ⟨⟨request, program⟩, running, restored⟩ := Option.map_eq_some_iff.mp started
  obtain rfl := ServerRequest.eq_of_restored restored
  have reached : Reachable (serverService editLog) anyEvent BootedOverSnapshots pool :=
    Service.reachable_of_play (fun _ _ _ _ _ => trivial) (.start bootedOverSnapshots_sampleServer)
      played
  exact ⟨pool, ended, restore_never_refused reached running ended⟩

end Concord.Server

import Concord.Execution.JobRules

/-!
Contract: the specifications of the worker's functions.

Owns:
- `Job`, what a worker knows while it processes an execution;
- the specifications of `transition` and `finish`, of the sandbox, and of
  `process`, `recoverProcessing` and `worker`.

A policy that is `Careful` lets no call raise in the first transition and in the
`except` block, unless the row is settled. What depends on it is under `strict`.

Does not own: the API tasks.
-/

set_option autoImplicit false

namespace Concord.Execution

open Asyncio ExecState ExecutionStatus

/-- No call raises in a first transition or in an `except` block whose row is not
settled. -/
def Careful (state : ExecState) (event : ExecEvent) : Prop :=
  event ≠ .done → event ≠ .crash → ∀ executionId phase,
    state.working = some (executionId, phase) → phase ≠ .running →
      (jobs state).Settled executionId

variable {strict : Prop} {allows : ExecState → ExecCall → ExecEvent → Prop} {task : TaskId}
  {α : Type} {executionId : ExecutionId}

/-! ### Rows -/

theorem transitionTo_ok {row : ExecutionRow} {target : ExecutionStatus}
    (accepts : row.status.Accepts target) :
    row.transitionTo target = .ok { row with status := target } := by
  simp only [ExecutionRow.transitionTo, ExecutionStatus.transitionTo, if_pos accepts]

/-- A row that `transition_to` accepts has the target then. -/
theorem accepts_of_transitionTo {row new : ExecutionRow} {target : ExecutionStatus}
    (moved : row.transitionTo target = .ok new) :
    row.status.Accepts target ∧ new.status = target := by
  by_cases accepts : row.status.Accepts target
  · rw [transitionTo_ok accepts] at moved
    obtain rfl := Except.ok.inj moved
    exact ⟨accepts, rfl⟩
  · simp only [ExecutionRow.transitionTo, ExecutionStatus.transitionTo, if_neg accepts] at moved
    cases moved

theorem ofExcept_ok_bind {β : Type} (value : α) (rest : α → ExecProgram β) :
    (ofExcept (.ok value) >>= rest) = rest value := rfl

section Transition

variable {before after raised : Jobs → Prop} {expected target : ExecutionStatus}

private theorem meets_transition (stable : Stable task before) (free : LockFree before)
    (stableAfter : Stable task after) (freeAfter : LockFree after) (freeRaised : LockFree raised)
    (accepts : expected.Accepts target)
    (owner : ∀ jobs, before jobs → jobs.worker = some task)
    (held : strict → ∀ jobs, before jobs → .execution executionId ∈ jobs.processing)
    (write : ∀ jobs row, Kept strict jobs → before jobs → jobs.rows executionId = some row →
      row.status = expected → after (jobs.write executionId { row with status := target }))
    (raises : ∀ call, Raises strict allows call before raised)
    (raisesWrite : ∀ row, row.status = expected → Raises strict allows .commit
      (fun jobs => before jobs ∧ Locked task executionId row jobs)
      fun jobs => raised (jobs.write executionId { row with status := target }))
    (raisesAfter : ∀ call, Raises strict allows call after raised)
    (gone : ∀ jobs, after jobs → jobs.rows executionId = none → raised jobs) :
    Meets strict allows task before (transition task executionId expected target)
      (fun found jobs => match found with
        | none => before jobs ∧ ∀ row, jobs.rows executionId = some row → row.status ≠ expected
        | some _ => after jobs) raised := by
  refine meets_withSession ?_ freeRaised ?_
  · intro found jobs locks
    cases found with
    | none => exact fun ⟨holds, other⟩ => ⟨free locks holds, other⟩
    | some row => exact freeAfter locks
  refine Meets.bind (meets_select stable free freeRaised (raises _)) fun found => ?_
  cases found with
  | none =>
      refine Meets.pure ?_
      rintro jobs ⟨holds, absent⟩
      exact ⟨holds, fun row found => nomatch absent row found⟩
  | some row =>
      dsimp only
      split
      · next other =>
          refine Meets.pure ?_
          rintro jobs ⟨holds, _, found, _⟩
          refine ⟨holds, fun row' found' => ?_⟩
          rw [found] at found'
          exact Option.some.inj found' ▸ other
      · next same =>
          have status : row.status = expected := not_not.mp same
          rw [transitionTo_ok (status ▸ accepts), ofExcept_ok_bind]
          refine Meets.bind (Meets.mono (meets_commit stable freeAfter freeRaised
            (.inr (status ▸ accepts)) (fun jobs holds => .inl (owner jobs holds))
            (fun isStrict jobs holds _ => held isStrict jobs holds)
            (fun jobs kept holds found => write jobs row kept holds found status)
            (fun state event kept allowed notDone notCrash holds =>
              raises _ state event kept allowed notDone notCrash holds.1)
            (raisesWrite row status)) ?_ (fun _ _ _ => id) fun _ => id) fun _ => ?_
          · rintro jobs ⟨holds, locked, found, _⟩
            exact ⟨holds, locked, found⟩
          refine Meets.bind (meets_refresh stableAfter (raisesAfter _) gone) fun row => ?_
          refine Meets.bind (meets_publish stableAfter (raisesAfter _)) fun _ => ?_
          exact Meets.pure fun _ => id

end Transition

/-- The status that a finished job leaves. -/
theorem record_ok {outcome : Outcome} {now : Nat} {row new : ExecutionRow}
    (terminal : outcome.target.Terminal) (recorded : outcome.record now row = .ok new) :
    (new.status = row.status ∨ row.status.Accepts new.status) ∧ new.status.Terminal := by
  unfold Outcome.record at recorded
  split at recorded
  · next cancelled =>
      obtain rfl := Except.ok.inj recorded
      exact ⟨.inl rfl, cancelled ▸ rfl⟩
  · cases moved : row.transitionTo outcome.target with
    | error exn =>
        rw [moved] at recorded
        cases recorded
    | ok next =>
        rw [moved] at recorded
        obtain rfl := Except.ok.inj recorded
        obtain ⟨accepts, status⟩ := accepts_of_transitionTo moved
        exact ⟨.inr (status ▸ accepts), status ▸ terminal⟩

private theorem record_error {outcome : Outcome} {now : Nat} {row : ExecutionRow} {exn : ExecExn}
    (refused : outcome.record now row = .error exn) : ¬row.status.Accepts outcome.target := by
  intro accepts
  unfold Outcome.record at refused
  split at refused
  · cases refused
  · rw [transitionTo_ok accepts] at refused
    cases refused

section Finish

variable {before after raised : Jobs → Prop} {outcome : Outcome}

private theorem meets_finish (stable : Stable task before) (free : LockFree before)
    (stableAfter : Stable task after) (freeAfter : LockFree after) (freeRaised : LockFree raised)
    (owner : ∀ jobs, before jobs → jobs.worker = some task)
    (terminal : outcome.target.Terminal)
    (absent : ∀ jobs, before jobs → jobs.rows executionId = none → after jobs)
    (write : ∀ jobs row new, Kept strict jobs → before jobs → jobs.rows executionId = some row →
      (new.status = row.status ∨ row.status.Accepts new.status) → new.status.Terminal →
        after (jobs.write executionId new))
    (raises : ∀ call, Raises strict allows call before raised)
    (refused : ∀ jobs row, Kept strict jobs → before jobs → jobs.rows executionId = some row →
      ¬row.status.Accepts outcome.target → raised jobs)
    (raisesWrite : ∀ row new, (new.status = row.status ∨ row.status.Accepts new.status) →
      new.status.Terminal → Raises strict allows .commit
        (fun jobs => before jobs ∧ Locked task executionId row jobs)
        fun jobs => raised (jobs.write executionId new))
    (raisesAfter : ∀ call, Raises strict allows call after raised)
    (gone : ∀ jobs, after jobs → raised jobs) :
    Meets strict allows task before (finish task executionId outcome) (fun _ => after) raised := by
  refine meets_withSession (fun _ => freeAfter) freeRaised ?_
  refine Meets.bind (meets_select stable free freeRaised (raises _)) fun found => ?_
  cases found with
  | none =>
      refine Meets.pure ?_
      rintro jobs ⟨holds, nothing⟩
      refine absent jobs holds (Option.eq_none_iff_forall_ne_some.mpr fun row found => ?_)
      exact nomatch nothing row found
  | some row =>
      refine Meets.get_bind fun state => ?_
      cases recorded : outcome.record state.clock row with
      | error exn =>
          refine Meets.throw ?_
          rintro jobs kept ⟨holds, _, found, _⟩
          exact refused jobs row kept holds found (record_error recorded)
      | ok new =>
          obtain ⟨step, last⟩ := record_ok terminal recorded
          have idle : ¬(new.status = .starting ∨ new.status = .running) := by
            rintro (status | status) <;> rw [status] at last <;> cases last
          rw [ofExcept_ok_bind]
          refine Meets.bind (Meets.mono (meets_commit stable freeAfter freeRaised step
            (fun jobs holds => .inl (owner jobs holds)) (fun _ _ _ status => absurd status idle)
            (fun jobs kept holds found => write jobs row new kept holds found step last)
            (fun state event kept allowed notDone notCrash holds =>
              raises _ state event kept allowed notDone notCrash holds.1)
            (raisesWrite row new step last)) ?_ (fun _ _ _ => id) fun _ => id) fun _ => ?_
          · rintro jobs ⟨holds, locked, found, _⟩
            exact ⟨holds, locked, found⟩
          refine Meets.bind (meets_refresh stableAfter (raisesAfter _) fun jobs holds _ => gone jobs holds)
            fun row => ?_
          exact meets_publish stableAfter (raisesAfter _)

end Finish

/-! ### The sandbox -/

section Sandbox

variable {assertion : Jobs → Prop}

private theorem meets_suppress {body : ExecProgram Unit}
    (holds : Meets strict allows task assertion body (fun _ => assertion) assertion)
    (raised : Jobs → Prop) :
    Meets strict allows task assertion (suppress body) (fun _ => assertion) raised :=
  Meets.tryExcept holds fun _ => Meets.pure fun _ => id

private theorem meets_pause (stable : Stable task assertion) :
    Meets strict allows task assertion (pause task) (fun _ => assertion) assertion := by
  refine meets_quiet stable fun event state result after taken => ?_
  split at taken <;> cases taken
  rfl

private theorem meets_ensureImage (stable : Stable task assertion) (image : String) :
    Meets strict allows task assertion (ensureImage task image) (fun _ => assertion) assertion := by
  refine Meets.tryExcept (meets_quiet stable ?_) fun exn => ?_
  · intro event state result after taken
    cases event with
    | done =>
        dsimp only at taken
        split at taken <;> cases taken <;> rfl
    | raised text =>
        cases taken
        rfl
    | _ => cases taken
  · cases exn with
    | imageNotFound =>
        refine meets_quietDocker stable ?_
        rintro state _ _ ⟨⟩
        rfl
    | _ => exact Meets.throw fun _ _ => id

private theorem meets_createContainerCall (stable : Stable task assertion) (call : ExecCall) :
    Meets strict allows task assertion (createContainerCall task call) (fun _ => assertion)
      assertion := by
  refine meets_quietDocker stable ?_
  rintro state _ _ ⟨⟩
  rfl

private theorem meets_removeResource (stable : Stable task assertion) (resource : Resource) :
    Meets strict allows task assertion (removeResource task resource) (fun _ => assertion)
      assertion := by
  refine meets_quiet stable fun event state result after taken => ?_
  cases event with
  | done =>
      obtain ⟨_, rfl⟩ := Prod.mk.inj (Option.some.inj taken)
      cases resource <;> rfl
  | raised text =>
      obtain ⟨_, rfl⟩ := Prod.mk.inj (Option.some.inj taken)
      rfl
  | _ => cases taken

private theorem meets_orRemoveVolume {body : ExecProgram α} (stable : Stable task assertion)
    (volume : Nat)
    (holds : Meets strict allows task assertion body (fun _ => assertion) assertion) :
    Meets strict allows task assertion (orRemoveVolume task volume body) (fun _ => assertion)
      assertion :=
  Meets.tryExcept holds fun _ =>
    Meets.bind (meets_removeResource stable _) fun _ => Meets.throw fun _ _ => id

private theorem meets_createContainer (stable : Stable task assertion) (row : ExecutionRow) :
    Meets strict allows task assertion (createContainer task row) (fun _ => assertion)
      assertion := by
  refine Meets.bind (meets_ensureImage stable _) fun _ => ?_
  refine Meets.bind (meets_quietDocker stable ?_) fun volume => ?_
  · rintro state _ _ ⟨⟩
    rfl
  refine Meets.bind (meets_orRemoveVolume stable volume ?_) fun _ => ?_
  · refine Meets.bind (meets_createContainerCall stable _) fun writer => ?_
    refine Meets.tryFinally (meets_quietDocker stable ?_) (fun _ => meets_removeResource stable _)
      (meets_removeResource stable _)
    rintro state _ _ ⟨⟩
    rfl
  · refine meets_orRemoveVolume stable volume ?_
    exact Meets.bind (meets_createContainerCall stable _) fun _ => Meets.pure fun _ => id

private theorem meets_kill (stable : Stable task assertion) (container : Nat) :
    Meets strict allows task assertion (kill task container) (fun _ => assertion) assertion := by
  refine meets_quietDocker stable fun state result after effected => ?_
  split at effected <;> cases effected <;> rfl

/-- A monitor forces no status but a terminal one. -/
theorem meets_monitor (stable : Stable task assertion) (container deadline turns : Nat) :
    Meets strict allows task assertion (monitor task executionId container deadline turns)
      (fun forced jobs => assertion jobs ∧ ∀ status ∈ forced, status.Terminal) assertion := by
  induction turns with
  | zero =>
      intro state kept holds
      refine ⟨kept, trivial, ?_⟩
      rintro _ _ _ _ _ _ _ _ _ never
      cases never
  | succ turns inductionHypothesis =>
      rw [monitor]
      refine Meets.bind (meets_quietServer stable ?_) fun requested => ?_
      · rintro state _ _ ⟨⟩
        rfl
      split
      · refine Meets.bind (meets_kill stable container) fun _ => Meets.pure fun jobs holds => ?_
        exact ⟨holds, by rintro _ ⟨⟩; rfl⟩
      · refine Meets.bind (meets_quietDocker stable ?_) fun status => ?_
        · rintro state _ _ ⟨⟩
          rfl
        split
        · exact Meets.pure fun jobs holds => ⟨holds, nofun⟩
        · refine Meets.get_bind fun state => ?_
          split
          · refine Meets.bind (meets_kill stable container) fun _ => Meets.pure fun jobs holds => ?_
            exact ⟨holds, by rintro _ ⟨⟩; rfl⟩
          · exact Meets.bind (meets_pause stable) fun _ => inductionHypothesis

private theorem meets_waitForStream (stable : Stable task assertion) :
    Meets strict allows task assertion (waitForStream task) (fun _ => assertion) assertion := by
  refine meets_quiet stable fun event state result after taken => ?_
  cases event with
  | done =>
      dsimp only at taken
      split at taken <;> cases taken
      rfl
  | raised text =>
      cases taken
      rfl
  | _ => cases taken

private theorem meets_removeVolume (stable : Stable task assertion) (volume : Option Nat) :
    Meets strict allows task assertion
      (match volume with
        | none => pure ()
        | some volume => suppress (removeResource task (.volume volume)))
      (fun _ => assertion) assertion := by
  cases volume with
  | none => exact Meets.pure fun _ => id
  | some volume => exact meets_suppress (meets_removeResource stable _) _

private theorem meets_cleanup (stable : Stable task assertion) (acquired : Acquired) :
    Meets strict allows task assertion (cleanup task executionId acquired) (fun _ => assertion)
      assertion := by
  obtain ⟨container, volume, streaming⟩ := acquired
  have removed : Meets strict allows task assertion _ (fun _ => assertion) assertion :=
    meets_removeVolume stable volume
  have waited : ∀ raised, Meets strict allows task assertion (suppress (waitForStream task))
      (fun _ => assertion) raised := meets_suppress (meets_waitForStream stable)
  refine Meets.bind (meets_quietServer stable ?_) fun _ => ?_
  · rintro state _ _ ⟨⟩
    rfl
  refine Meets.get_bind fun state => ?_
  cases container with
  | none =>
      dsimp only
      split
      · exact Meets.bind (waited _) fun _ => removed
      · exact removed
  | some container =>
      have freed := Meets.bind (meets_suppress (meets_removeResource stable (.container container))
        assertion) fun _ => removed
      dsimp only
      split
      · refine Meets.bind (meets_suppress (meets_kill stable container) _) fun _ => ?_
        exact Meets.bind (waited _) fun _ => freed
      · exact freed

end Sandbox

private theorem meets_awaitStream {assertion : Jobs → Prop} (stable : Stable task assertion) :
    Meets strict allows task assertion (awaitStream task) (fun _ => assertion) assertion := by
  refine meets_quiet stable fun event state result after taken => ?_
  split at taken <;> cases taken <;> rfl

private theorem meets_logs {assertion : Jobs → Prop} (stable : Stable task assertion)
    (container : Nat)
    (output : Container → List UInt8) :
    Meets strict allows task assertion (logs task container output) (fun _ => assertion)
      assertion := by
  refine meets_quietDocker stable ?_
  rintro state _ _ ⟨⟩
  rfl

/-! ### One job -/

/-- What a worker knows of an execution that it has claimed. -/
structure Job (strict : Prop) (task : TaskId) (executionId : ExecutionId) (phase : JobPhase)
    (jobs : Jobs) : Prop where
  worker : jobs.worker = some task
  working : jobs.working = some (executionId, phase)
  claimed : .starting ∈ jobs.committed executionId
  others : strict → ∀ another, another ≠ executionId → ¬jobs.Active another
  processing : strict → .execution executionId ∈ jobs.processing

/-- A claimed execution before its sandbox is started. -/
structure Waiting (strict : Prop) (task : TaskId) (executionId : ExecutionId) (phase : JobPhase)
    (jobs : Jobs) : Prop extends Job strict task executionId phase jobs where
  starting : jobs.Claimed executionId
  unstarted : executionId ∉ jobs.starts

/-- A worker that has taken an execution from the queue. -/
structure Taken (strict : Prop) (task : TaskId) (executionId : ExecutionId) (jobs : Jobs) : Prop where
  worker : jobs.worker = some task
  idle : strict → ∀ another, ¬jobs.Active another
  processing : strict → .execution executionId ∈ jobs.processing

/-- A worker that is about to acknowledge an execution. -/
structure Done (strict : Prop) (task : TaskId) (executionId : ExecutionId) (jobs : Jobs) : Prop where
  worker : jobs.worker = some task
  idle : strict → ∀ another, ¬jobs.Active another
  safe : strict → jobs.Safe executionId

section Jobs

variable {phase : JobPhase} {row : ExecutionRow}

theorem Job.stable : Stable task (Job strict task executionId phase) := by
  intro before after rely job
  have undisturbed := rely.undisturbed job.worker
  exact {
    worker := undisturbed.worker.trans job.worker
    working := undisturbed.working.trans job.working
    claimed := (rely.grows executionId).subset job.claimed
    others := fun isStrict another different =>
      undisturbed.idle another (job.others isStrict another different)
    processing := fun isStrict => undisturbed.processing ▸ job.processing isStrict }

theorem Job.lockFree : LockFree (Job strict task executionId phase) :=
  fun _ _ job => ⟨job.worker, job.working, job.claimed, job.others, job.processing⟩

theorem Job.inserted {jobs : Jobs} (job : Job strict task executionId phase jobs) :
    jobs.committed executionId ≠ [] :=
  List.ne_nil_of_mem job.claimed

theorem Job.stable_settled (condition : Prop) : Stable task fun jobs =>
    Job strict task executionId phase jobs ∧ (condition → jobs.Settled executionId) :=
  fun _ _ rely ⟨job, settled⟩ => ⟨Job.stable rely job,
    fun holds => rely.settled executionId job.inserted (settled holds)⟩

theorem Waiting.stable : Stable task (Waiting strict task executionId phase) := by
  intro before after rely job
  have undisturbed := rely.undisturbed job.worker
  exact ⟨Job.stable rely job.toJob, undisturbed.claimed _ job.inserted job.starting,
    undisturbed.starts ▸ job.unstarted⟩

theorem Waiting.lockFree : LockFree (Waiting strict task executionId phase) :=
  fun _ locks job => ⟨Job.lockFree locks job.toJob, job.starting, job.unstarted⟩

theorem Taken.stable : Stable task (Taken strict task executionId) := by
  intro before after rely taken
  have undisturbed := rely.undisturbed taken.worker
  exact ⟨undisturbed.worker.trans taken.worker,
    fun isStrict another => undisturbed.idle another (taken.idle isStrict another),
    fun isStrict => undisturbed.processing ▸ taken.processing isStrict⟩

theorem Done.stable : Stable task (Done strict task executionId) := by
  intro before after rely ended
  have undisturbed := rely.undisturbed ended.worker
  exact ⟨undisturbed.worker.trans ended.worker,
    fun isStrict another => undisturbed.idle another (ended.idle isStrict another),
    fun isStrict => undisturbed.safe _ (ended.safe isStrict)⟩

theorem Done.lockFree : LockFree (Done strict task executionId) :=
  fun _ _ ended => ⟨ended.worker, ended.idle, ended.safe⟩

/-- A settled job has no active execution. -/
theorem Job.done {jobs : Jobs} (job : Job strict task executionId phase jobs)
    (settled : strict → jobs.Settled executionId) : Done strict task executionId jobs where
  worker := job.worker
  idle isStrict another := by
    by_cases same : another = executionId
    · rintro ⟨row, found, active⟩
      have terminal := settled isStrict row (same ▸ found)
      rcases active with active | active <;> rw [active] at terminal <;> cases terminal
    · exact job.others isStrict another same
  safe isStrict := (settled isStrict).safe

/-- The worker writes the row of its own job. -/
theorem Job.write {jobs : Jobs} (job : Job strict task executionId phase jobs) :
    Job strict task executionId phase (jobs.write executionId row) where
  worker := job.worker
  working := job.working
  claimed := (Jobs.write_committed_extends executionId executionId row jobs).subset job.claimed
  others isStrict another different := by
    rintro ⟨other, found, active⟩
    exact job.others isStrict another different
      ⟨other, Jobs.write_rows_of_ne different ▸ found, active⟩
  processing := job.processing

private theorem settled_write {jobs : Jobs} (terminal : row.status.Terminal) :
    (jobs.write executionId row).Settled executionId := by
  intro new found
  obtain rfl := Option.some.inj (Jobs.write_rows_self.symm.trans found)
  exact terminal

/-- The worker notes a part of `process`. -/
theorem keeping_working {jobs : Jobs} {working : Option (ExecutionId × JobPhase)}
    (kept : Kept strict jobs) (mine : jobs.worker = some task) :
    Keeping strict task jobs { jobs with working := working } :=
  ⟨⟨kept.1.of_rows rfl rfl rfl rfl rfl rfl, fun isStrict =>
    (kept.2 isStrict).of_rows rfl (fun _ => id) rfl⟩,
    fun _ different => Jobs.relies_of_worker different mine rfl rfl rfl⟩

end Jobs

/-! ### The specification of `process` -/

section Process

/-- The events of a worker are careful where that is asked for. -/
def CarefulPolicy (strict : Prop) (allows : ExecState → ExecCall → ExecEvent → Prop) : Prop :=
  strict → ∀ state call event, allows state call event → Careful state event

/-- A first transition or an `except` block raises only where the row is settled. -/
theorem raises_careful (careful : CarefulPolicy strict allows) (phase : JobPhase)
    {assertion raised : Jobs → Prop} {call : ExecCall} (other : phase ≠ .running)
    (working : ∀ jobs, assertion jobs → jobs.working = some (executionId, phase))
    (ends : ∀ jobs, assertion jobs → (strict → jobs.Settled executionId) → raised jobs) :
    Raises strict allows call assertion raised := by
  intro state event _ allowed notDone notCrash holds
  refine ends _ holds fun isStrict => ?_
  exact careful isStrict state call event allowed notDone notCrash executionId phase
    (working _ holds) other

/-- A worker in its first transition. -/
def Claiming (strict : Prop) (task : TaskId) (executionId : ExecutionId) (jobs : Jobs) : Prop :=
  Taken strict task executionId jobs ∧ jobs.working = some (executionId, .claiming)

private theorem claiming_stable : Stable task (Claiming strict task executionId) :=
  fun _ _ rely ⟨taken, working⟩ =>
    ⟨Taken.stable rely taken, (rely.undisturbed taken.worker).working.trans working⟩

/-- The first transition: it claims a queued execution, or the row is settled. -/
theorem meets_claim (careful : CarefulPolicy strict allows) :
    Meets strict allows task (Claiming strict task executionId)
      (transition task executionId .queued .starting)
      (fun found jobs => match found with
        | none => Done strict task executionId jobs
        | some _ => Waiting strict task executionId .claiming jobs)
      (Done strict task executionId) := by
  have ended : ∀ jobs, Claiming strict task executionId jobs →
      (strict → jobs.Settled executionId) → Done strict task executionId jobs :=
    fun _ ⟨taken, _⟩ settled => ⟨taken.worker, taken.idle, fun isStrict => (settled isStrict).safe⟩
  refine Meets.mono (meets_transition claiming_stable
    (fun _ _ ⟨taken, working⟩ => ⟨⟨taken.worker, taken.idle, taken.processing⟩, working⟩)
    Waiting.stable Waiting.lockFree Done.lockFree (by decide) (fun _ holds => holds.1.worker)
    (fun isStrict _ holds => holds.1.processing isStrict) ?_
    (fun _ => raises_careful careful .claiming (by decide) (fun _ holds => holds.2) ended) ?_
    (fun _ => raises_careful careful .claiming (by decide) (fun _ waiting => waiting.working)
      fun _ waiting => waiting.done) ?_) (fun _ => id) ?_ fun _ => id
  · -- The row was in the queue, so it was never started.
    rintro jobs row kept ⟨taken, working⟩ found status
    have committed : (jobs.write executionId { row with status := .starting }).committed executionId =
        jobs.committed executionId ++ [.starting] := by
      rw [Jobs.write_committed found, status]
      rfl
    refine ⟨⟨taken.worker, working, ?_, ?_, taken.processing⟩, ?_, ?_⟩
    · rw [committed]
      exact List.mem_append_right _ List.mem_cons_self
    · rintro isStrict another different ⟨other, found', active⟩
      exact taken.idle isStrict another ⟨other, Jobs.write_rows_of_ne different ▸ found', active⟩
    · intro new found'
      obtain rfl := Option.some.inj (Jobs.write_rows_self.symm.trans found')
      rfl
    · exact fun started => kept.1.not_queued (kept.1.started _ started) found status
  · intro row status state event kept allowed notDone notCrash ⟨⟨taken, working⟩, locked⟩
    refine ⟨taken.worker, fun isStrict => ?_, fun isStrict => ?_⟩ <;>
    · have terminal := careful isStrict state _ event allowed notDone notCrash executionId _ working
        (by decide) row locked.2
      rw [status] at terminal
      cases terminal
  · intro jobs waiting gone
    exact waiting.done fun _ row found => nomatch gone.symm.trans found
  · intro found jobs kept ends
    cases found with
    | some row => exact ends
    | none =>
        obtain ⟨claiming, other⟩ := ends
        refine ended jobs claiming fun isStrict row found => ?_
        have idle := claiming.1.idle isStrict executionId
        cases status : row.status with
        | queued => exact absurd status (other row found)
        | starting => exact absurd ⟨row, found, .inl status⟩ idle
        | running => exact absurd ⟨row, found, .inr status⟩ idle
        | _ => rfl

/-- The sandbox of a job, which is started once. -/
theorem meets_startSandbox (container : Nat) :
    Meets strict allows task (Waiting strict task executionId .running)
      (startSandbox task executionId container)
      (fun _ jobs => Job strict task executionId .running jobs ∧ jobs.Claimed executionId)
      (Job strict task executionId .running) := by
  have noted : Meets strict allows task (Waiting strict task executionId .running)
      (modify fun state => { state with docker := state.docker.noteStart executionId })
      (fun _ jobs => Job strict task executionId .running jobs ∧ jobs.Claimed executionId)
      (Job strict task executionId .running) := by
    refine Meets.modify fun state kept waiting => ?_
    have started : Kept strict ((jobs state).start executionId) :=
      ⟨kept.1.start waiting.claimed waiting.unstarted,
        fun isStrict => (kept.2 isStrict).of_rows rfl (fun _ => id) rfl⟩
    exact ⟨⟨started, fun _ different =>
      Jobs.relies_of_worker different waiting.worker rfl rfl rfl⟩,
      ⟨waiting.worker, waiting.working, waiting.claimed, waiting.others, waiting.processing⟩,
      waiting.starting⟩
  refine Meets.bind noted fun _ => ?_
  · refine Meets.mono (meets_quietDocker ?_ ?_) (fun _ => id) (fun _ _ _ => id) fun _ => And.left
    · intro before after rely ⟨job, claimed⟩
      exact ⟨Job.stable rely job, (rely.undisturbed job.worker).claimed _ job.inserted claimed⟩
    · rintro state _ _ ⟨⟩
      rfl

/-- The second transition: without a row there is nothing to run. -/
theorem meets_run :
    Meets strict allows task
      (fun jobs => Job strict task executionId .running jobs ∧ jobs.Claimed executionId)
      (transition task executionId .starting .running)
      (fun found jobs => match found with
        | none => Job strict task executionId .running jobs ∧ jobs.Settled executionId
        | some _ => Job strict task executionId .running jobs)
      (Job strict task executionId .running) := by
  refine Meets.mono (meets_transition ?_
    (fun _ locks ⟨job, claimed⟩ => ⟨Job.lockFree locks job, claimed⟩) Job.stable Job.lockFree
    Job.lockFree (by decide) (fun _ holds => holds.1.worker)
    (fun isStrict _ holds => holds.1.processing isStrict) (fun _ _ _ holds _ _ => holds.1.write)
    (fun _ _ _ _ _ _ _ holds => holds.1) (fun _ _ _ _ _ _ _ _ holds => holds.1.1.write)
    (fun _ _ _ _ _ _ _ holds => holds) fun _ job _ => job) (fun _ => id) ?_ fun _ => id
  · intro before after rely ⟨job, claimed⟩
    exact ⟨Job.stable rely job, (rely.undisturbed job.worker).claimed _ job.inserted claimed⟩
  · intro found jobs kept ends
    cases found with
    | some row => exact ends
    | none =>
        obtain ⟨⟨job, claimed⟩, other⟩ := ends
        exact ⟨job, fun row found => absurd (claimed row found) (other row found)⟩

/-- A job in its sandbox. Where it returns, the row is settled. -/
theorem meets_runSandbox (settings : Settings) (turns started container : Nat) :
    Meets strict allows task (Waiting strict task executionId .running)
      (runSandbox settings turns task executionId started container)
      (fun _ jobs => Job strict task executionId .running jobs ∧ jobs.Settled executionId)
      (Job strict task executionId .running) := by
  have quiet : Stable task (Job strict task executionId .running) := Job.stable
  refine Meets.bind (Meets.mono (meets_pause Waiting.stable) (fun _ => id) (fun _ _ _ => id)
    fun _ => Waiting.toJob) fun _ => ?_
  refine Meets.bind (meets_startSandbox container) fun _ => ?_
  refine Meets.bind meets_run fun found => ?_
  cases found with
  | none =>
      refine Meets.mono (meets_kill ?_ container) (fun _ => id) (fun _ _ _ => id) fun _ => And.left
      intro before after rely ⟨job, settled⟩
      exact ⟨Job.stable rely job, rely.settled executionId job.inserted settled⟩
  | some row =>
      refine Meets.get_bind fun state => ?_
      refine Meets.bind (meets_monitor quiet container _ turns) fun forced => ?_
      refine Meets.of_fact fun terminal => ?_
      refine Meets.bind (meets_quietDocker quiet ?_) fun exitCode => ?_
      · intro state result after effected
        split at effected <;> cases effected
        rfl
      refine Meets.bind (meets_awaitStream quiet) fun _ => ?_
      refine Meets.bind (meets_logs quiet container _) fun stdout => ?_
      refine Meets.bind (meets_logs quiet container _) fun stderr => ?_
      refine Meets.get_bind fun state => ?_
      refine meets_finish quiet Job.lockFree ?_ (fun _ locks ⟨job, settled⟩ =>
        ⟨Job.lockFree locks job, settled⟩) Job.lockFree (fun _ job => job.worker) ?_
        (fun _ job gone => ⟨job, fun _ found => nomatch gone.symm.trans found⟩)
        (fun _ _ _ _ job _ _ terminal => ⟨job.write, settled_write terminal⟩)
        (fun _ _ _ _ _ _ _ job => job) (fun _ _ _ job _ _ => job)
        (fun _ _ _ _ _ _ _ _ _ _ holds => holds.1.write) (fun _ _ _ _ _ _ _ holds => holds.1)
        fun _ => And.left
      · intro before after rely ⟨job, settled⟩
        exact ⟨Job.stable rely job, rely.settled executionId job.inserted settled⟩
      · cases forced with
        | none => by_cases ok : exitCode = 0 <;> simp only [Option.getD_none, ok, if_true, if_false] <;> rfl
        | some status => exact terminal status rfl

/-- A worker enters another part of `process`. -/
theorem meets_enterJob {assertion after raised : Jobs → Prop} {phase : JobPhase}
    (owner : ∀ jobs, assertion jobs → jobs.worker = some task)
    (enters : ∀ jobs, assertion jobs →
      after { jobs with working := some (executionId, phase) }) :
    Meets strict allows task assertion (modify (enterJob executionId phase)) (fun _ => after)
      raised :=
  Meets.modify fun _ kept holds => ⟨keeping_working kept (owner _ holds), enters _ holds⟩

theorem Job.enter {jobs : Jobs} {phase next : JobPhase}
    (job : Job strict task executionId phase jobs) :
    Job strict task executionId next { jobs with working := some (executionId, next) } :=
  ⟨job.worker, rfl, job.claimed, job.others, job.processing⟩

/-- A job that has ended, well or with an exception. -/
def Over (strict : Prop) (task : TaskId) (executionId : ExecutionId) (jobs : Jobs) : Prop :=
  ∃ phase, Job strict task executionId phase jobs ∧ (strict → jobs.Settled executionId)

private theorem over_stable : Stable task (Over strict task executionId) :=
  fun _ _ rely ⟨phase, held⟩ => ⟨phase, Job.stable_settled strict rely held⟩

/-- The `except` block: a row that `FAILED` does not fit has ended before. -/
theorem meets_failJob (careful : CarefulPolicy strict allows) (started : Nat) (exn : ExecExn) :
    Meets strict allows task (Job strict task executionId .running)
      (failJob task executionId started exn) (fun _ => Over strict task executionId)
      (Over strict task executionId) := by
  refine Meets.bind (meets_enterJob (fun _ job => job.worker) fun _ job => job.enter) fun _ => ?_
  refine Meets.get_bind fun state => ?_
  have free : LockFree fun jobs => Job strict task executionId .failing jobs ∧
      (strict → jobs.Settled executionId) :=
    fun _ locks ⟨job, settled⟩ => ⟨Job.lockFree locks job, settled⟩
  refine Meets.mono (meets_finish Job.stable Job.lockFree (Job.stable_settled strict) free free
    (fun _ job => job.worker) rfl ?_ ?_ ?_ ?_ ?_ (fun _ _ _ _ _ _ _ holds => holds) fun _ => id)
    (fun _ => id) (fun _ _ _ held => ⟨_, held⟩) fun _ held => ⟨_, held⟩
  · exact fun _ job gone => ⟨job, fun _ _ found => nomatch gone.symm.trans found⟩
  · exact fun _ _ _ _ job _ _ terminal => ⟨job.write, fun _ => settled_write terminal⟩
  · exact fun _ => raises_careful careful .failing (by decide) (fun _ job => job.working)
      fun _ job settled => ⟨job, settled⟩
  · rintro jobs row kept job found refused
    refine ⟨job, fun _ row' found' => ?_⟩
    obtain rfl := Option.some.inj (found.symm.trans found')
    have claimed := kept.1.not_queued job.claimed found
    cases status : row.status with
    | queued => exact absurd status claimed
    | starting =>
        rw [status] at refused
        exact absurd (by decide : ExecutionStatus.starting.Accepts .failed) refused
    | running =>
        rw [status] at refused
        exact absurd (by decide : ExecutionStatus.running.Accepts .failed) refused
    | _ => rfl
  · exact fun _ _ _ terminal _ _ _ _ _ _ holds =>
      ⟨holds.1.write, fun _ => settled_write terminal⟩

/-- A claimed job settles its row. -/
theorem meets_runJob (careful : CarefulPolicy strict allows) (settings : Settings) (turns : Nat)
    (row : ExecutionRow) :
    Meets strict allows task (Waiting strict task executionId .claiming)
      (runJob settings turns task executionId row) (fun _ => Over strict task executionId)
      (Over strict task executionId) := by
  have entered : Meets strict allows task (Waiting strict task executionId .claiming)
      (modify (enterJob executionId .running)) (fun _ => Waiting strict task executionId .running)
      (Over strict task executionId) :=
    meets_enterJob (fun _ waiting => waiting.worker) fun _ waiting =>
      ⟨waiting.toJob.enter, waiting.starting, waiting.unstarted⟩
  refine Meets.bind entered fun _ => ?_
  refine Meets.get_bind fun state => ?_
  have cleaned : ∀ acquired, Meets strict allows task (Over strict task executionId)
      (cleanup task executionId acquired) (fun _ => Over strict task executionId)
      (Over strict task executionId) := meets_cleanup over_stable
  have creating : Meets strict allows task (Waiting strict task executionId .running)
      (Coroutine.tryExcept (do pure (Except.ok (← createContainer task row)))
        fun exn => pure (.error exn))
      (fun _ => Waiting strict task executionId .running) (Over strict task executionId) :=
    Meets.tryExcept
      (Meets.bind (meets_createContainer Waiting.stable row) fun _ => Meets.pure fun _ => id)
      fun _ => Meets.pure fun _ => id
  refine Meets.bind creating fun created => ?_
  cases created with
  | error exn =>
      refine Meets.mono (Meets.tryFinally (meets_failJob careful _ exn) (fun _ => cleaned _)
        (cleaned _)) (fun _ => Waiting.toJob) (fun _ _ _ => id) fun _ => id
  | ok pair =>
      obtain ⟨container, volume⟩ := pair
      refine Meets.bind (Meets.modify_same fun _ => rfl) fun _ => ?_
      refine Meets.tryFinally (Meets.tryExcept (Meets.mono
        (meets_runSandbox settings turns _ container) (fun _ => id) ?_ fun _ => id) fun exn =>
          meets_failJob careful _ exn) (fun _ => cleaned _) (cleaned _)
      exact fun _ _ _ ⟨job, settled⟩ => ⟨_, job, fun _ => settled⟩

/-- `process` leaves the worker ready to acknowledge the execution. -/
theorem meets_process (careful : CarefulPolicy strict allows) (settings : Settings) (turns : Nat) :
    Meets strict allows task (Taken strict task executionId)
      (process settings turns task executionId) (fun _ => Done strict task executionId)
      (Done strict task executionId) := by
  have entered : Meets strict allows task (Taken strict task executionId)
      (modify (enterJob executionId .claiming)) (fun _ => Claiming strict task executionId)
      (Done strict task executionId) :=
    meets_enterJob (fun _ taken => taken.worker) fun _ taken =>
      ⟨⟨taken.worker, taken.idle, taken.processing⟩, rfl⟩
  refine Meets.bind entered fun _ => ?_
  refine Meets.bind (meets_claim careful) fun found => ?_
  have finished : ∀ jobs, Over strict task executionId jobs → Done strict task executionId jobs :=
    fun _ ⟨_, job, settled⟩ => job.done settled
  cases found with
  | none => exact Meets.pure fun _ => id
  | some row =>
      exact Meets.mono (meets_runJob careful settings turns row) (fun _ => id)
        (fun _ jobs _ => finished jobs) finished

end Process

/-! ### The worker -/

def Alive (task : TaskId) (jobs : Jobs) : Prop := jobs.worker = some task

/-- A worker between two jobs. -/
structure Idling (strict : Prop) (task : TaskId) (jobs : Jobs) : Prop where
  worker : jobs.worker = some task
  idle : strict → ∀ another, ¬jobs.Active another

/-- A worker that recovers: what is active is among the items to come. -/
structure Recovering (strict : Prop) (task : TaskId) (items : List QueueItem) (jobs : Jobs) :
    Prop where
  worker : jobs.worker = some task
  active : strict → ∀ another, jobs.Active another → .execution another ∈ items

/-- An item that recovery is about to acknowledge. -/
structure Reconciled (strict : Prop) (task : TaskId) (executionId : ExecutionId)
    (items : List QueueItem) (jobs : Jobs) : Prop extends Recovering strict task items jobs where
  safe : strict → jobs.Safe executionId

theorem Alive.stable : Stable task (Alive task) :=
  fun _ _ rely alive => (rely.undisturbed alive).worker.trans alive

theorem Idling.stable : Stable task (Idling strict task) := by
  intro before after rely idling
  have undisturbed := rely.undisturbed idling.worker
  exact ⟨undisturbed.worker.trans idling.worker,
    fun isStrict another => undisturbed.idle another (idling.idle isStrict another)⟩

theorem Recovering.stable {items : List QueueItem} : Stable task (Recovering strict task items) := by
  intro before after rely recovering
  have undisturbed := rely.undisturbed recovering.worker
  refine ⟨undisturbed.worker.trans recovering.worker, fun isStrict another active => ?_⟩
  by_contra absent
  exact undisturbed.idle another
    (fun before => absent (recovering.active isStrict another before)) active

theorem Recovering.lockFree {items : List QueueItem} : LockFree (Recovering strict task items) :=
  fun _ _ recovering => ⟨recovering.worker, recovering.active⟩

theorem Reconciled.stable {items : List QueueItem} :
    Stable task (Reconciled strict task executionId items) := by
  intro before after rely reconciled
  have undisturbed := rely.undisturbed reconciled.worker
  exact ⟨Recovering.stable rely reconciled.toRecovering,
    fun isStrict => undisturbed.safe _ (reconciled.safe isStrict)⟩

theorem Reconciled.lockFree {items : List QueueItem} :
    LockFree (Reconciled strict task executionId items) :=
  fun _ locks reconciled =>
    ⟨Recovering.lockFree locks reconciled.toRecovering, reconciled.safe⟩

theorem Alive.lockFree : LockFree (Alive task) := fun _ _ alive => alive

section Worker

variable {items : List QueueItem}

/-- An execution that is not active any more is reconciled. -/
theorem Recovering.reconciled {jobs : Jobs}
    (recovering : Recovering strict task (.execution executionId :: items) jobs)
    (idle : ¬jobs.Active executionId) (safe : jobs.Safe executionId) :
    Reconciled strict task executionId items jobs where
  worker := recovering.worker
  active isStrict another active := by
    refine (List.mem_cons.mp (recovering.active isStrict another active)).resolve_left ?_
    rintro ⟨⟩
    exact idle active
  safe _ := safe

private theorem not_active_of_settled {jobs : Jobs} (settled : jobs.Settled executionId) :
    ¬jobs.Active executionId := by
  rintro ⟨row, found, active⟩
  have terminal := settled row found
  rcases active with active | active <;> rw [active] at terminal <;> cases terminal

private theorem meets_lrem {item : QueueItem} {assertion after raised : Jobs → Prop}
    (stable : Stable task assertion) (owner : ∀ jobs, assertion jobs → jobs.worker = some task)
    (delivered : strict → ∀ jobs, assertion jobs → jobs.Delivered →
      (jobs.acknowledge item).Delivered)
    (acknowledged : ∀ jobs, assertion jobs → after (jobs.acknowledge item))
    (raises : ∀ jobs, assertion jobs → raised jobs) (raisesAfter : ∀ jobs, after jobs → raised jobs) :
    Meets strict allows task assertion (lrem task item) (fun _ => after) raised := by
  refine meets_serverCall stable ?_ (fun _ _ _ holds _ _ _ => raises _ holds)
    (fun _ _ _ _ _ _ _ _ _ _ => raisesAfter _)
  rintro state _ _ kept holds ⟨⟩
  have acknowledging : Kept strict ((jobs state).acknowledge item) :=
    ⟨kept.1.of_rows rfl rfl rfl rfl rfl rfl,
      fun isStrict => delivered isStrict _ holds (kept.2 isStrict)⟩
  exact ⟨⟨acknowledging, fun _ different =>
    Jobs.relies_of_worker different (owner _ holds) rfl rfl rfl⟩, acknowledged _ holds⟩

theorem keeping_push {jobs : Jobs} (kept : Kept strict jobs) (item : QueueItem) :
    Keeping strict task jobs (jobs.push item) :=
  ⟨⟨kept.1.of_rows rfl rfl rfl rfl rfl rfl, fun isStrict => (kept.2 isStrict).push⟩,
    fun _ _ => Jobs.relies_push⟩

private theorem abandon_ok {row : ExecutionRow} (now : Nat) (accepts : row.status.Accepts .failed) :
    ∃ new, row.abandon now = .ok new ∧ new.status = .failed :=
  ⟨_, by rw [ExecutionRow.abandon, transitionTo_ok accepts]; rfl, rfl⟩

/-- A locked row in recovery. -/
abbrev RecoveringRow (strict : Prop) (task : TaskId) (executionId : ExecutionId)
    (items : List QueueItem) (row : ExecutionRow) (jobs : Jobs) : Prop :=
  Recovering strict task (.execution executionId :: items) jobs ∧ Locked task executionId row jobs

/-- A queued row goes back into the queue. -/
theorem meets_requeue {row : ExecutionRow} (queued : row.status = .queued) :
    Meets strict allows task (RecoveringRow strict task executionId items row)
      (rpush task (.execution executionId)) (fun _ => Reconciled strict task executionId items)
      (Alive task) := by
  refine meets_serverCall (stable_locked Recovering.stable) ?_
    (fun _ _ _ holds _ _ _ => holds.1.worker) fun _ _ _ _ _ _ _ _ _ _ reconciled => reconciled.worker
  rintro state _ _ kept ⟨recovering, _, found⟩ ⟨⟩
  refine ⟨keeping_push kept _, ?_⟩
  have only : ∀ other, (jobs state).rows executionId = some other → other.status = .queued :=
    fun other found' => Option.some.inj (found.symm.trans found') ▸ queued
  have pushed : Recovering strict task (.execution executionId :: items)
      ((jobs state).push (.execution executionId)) := ⟨recovering.worker, recovering.active⟩
  refine pushed.reconciled ?_ ?_
  · rintro ⟨other, found', active⟩
    rw [only other found'] at active
    rcases active with active | active <;> cases active
  · exact fun other found' =>
      .inr ⟨only other found', .inr (.inl (List.mem_append_right _ List.mem_cons_self))⟩

/-- A row whose worker has stopped has failed. -/
theorem meets_abandon {row : ExecutionRow} (now : Nat) (accepts : row.status.Accepts .failed) :
    Meets strict allows task (RecoveringRow strict task executionId items row)
      (do
        let row ← ofExcept (row.abandon now)
        commitRow task executionId row
        let row ← refresh task executionId
        pure (some row)) (fun _ => Reconciled strict task executionId items) (Alive task) := by
  obtain ⟨new, abandoned, failed⟩ := abandon_ok now accepts
  rw [abandoned, ofExcept_ok_bind]
  have committed : Meets strict allows task (RecoveringRow strict task executionId items row)
      (commitRow task executionId new) (fun _ => Reconciled strict task executionId items)
      (Alive task) := by
    refine meets_commit Recovering.stable Reconciled.lockFree Alive.lockFree
      (.inr (failed ▸ accepts)) (fun _ recovering => .inl recovering.worker) ?_ ?_
      (fun _ _ _ _ _ _ holds => holds.1.worker) fun _ _ _ _ _ _ holds => holds.1.worker
    · rintro _ _ _ (active | active) <;> cases failed.symm.trans active
    · intro jobs kept recovering found
      have settled : (jobs.write executionId new).Settled executionId :=
        settled_write (failed ▸ rfl)
      refine Recovering.reconciled ⟨recovering.worker, fun isStrict another active => ?_⟩
        (not_active_of_settled settled) settled.safe
      have different : another ≠ executionId := by
        rintro rfl
        exact not_active_of_settled settled active
      obtain ⟨other, found', status⟩ := active
      exact recovering.active isStrict another
        ⟨other, Jobs.write_rows_of_ne different ▸ found', status⟩
  refine Meets.bind committed fun _ => ?_
  exact Meets.bind (meets_refresh Reconciled.stable
    (fun _ _ _ _ _ _ reconciled => reconciled.worker) fun _ reconciled _ => reconciled.worker)
    fun _ => Meets.pure fun _ => id

/-- The database part of the recovery of one execution. -/
theorem meets_reconcile :
    Meets strict allows task (Recovering strict task (.execution executionId :: items))
      (reconcile task executionId) (fun _ => Reconciled strict task executionId items)
      (Alive task) := by
  refine meets_withSession (fun _ => Reconciled.lockFree) Alive.lockFree ?_
  refine Meets.bind (meets_select Recovering.stable Recovering.lockFree Alive.lockFree
    fun _ _ _ _ _ _ recovering => recovering.worker) fun found => ?_
  cases found with
  | none =>
      refine Meets.pure ?_
      rintro jobs ⟨recovering, nothing⟩
      have settled : jobs.Settled executionId := fun row found => nomatch nothing row found
      exact recovering.reconciled (not_active_of_settled settled) settled.safe
  | some row =>
      have locked : ∀ jobs, Recovering strict task (.execution executionId :: items) jobs ∧
          Selected task executionId (fun _ => true) (some row) jobs →
            RecoveringRow strict task executionId items row jobs :=
        fun _ ⟨recovering, locked, found, _⟩ => ⟨recovering, locked, found⟩
      dsimp only
      split
      · next queued =>
          exact Meets.bind (Meets.mono (meets_requeue queued) locked (fun _ _ _ => id) fun _ => id)
            fun _ => Meets.pure fun _ => id
      · next notQueued =>
          split
          · next active =>
              have accepts : row.status.Accepts .failed := by
                rcases active with active | active <;> rw [active] <;> decide
              refine Meets.get_bind fun state => ?_
              exact Meets.mono (meets_abandon _ accepts) locked (fun _ _ _ => id) fun _ => id
          · next notActive =>
              refine Meets.pure fun jobs holds => ?_
              obtain ⟨recovering, _, found⟩ := locked jobs holds
              have settled : jobs.Settled executionId := by
                intro other found'
                obtain rfl := Option.some.inj (found.symm.trans found')
                cases status : row.status with
                | queued => exact absurd status notQueued
                | starting => exact absurd (.inl status) notActive
                | running => exact absurd (.inr status) notActive
                | _ => rfl
              exact recovering.reconciled (not_active_of_settled settled) settled.safe

/-- The end of one turn of the recovery. -/
theorem meets_lrem_reconciled :
    Meets strict allows task (Reconciled strict task executionId items)
      (lrem task (.execution executionId)) (fun _ => Recovering strict task items) (Alive task) :=
  meets_lrem Reconciled.stable (fun _ reconciled => reconciled.worker)
    (fun isStrict _ reconciled delivered => delivered.acknowledge (reconciled.safe isStrict))
    (fun _ reconciled => ⟨reconciled.worker, reconciled.active⟩)
    (fun _ reconciled => reconciled.worker) fun _ recovering => recovering.worker

private theorem meets_recoverItem (item : QueueItem) :
    Meets strict allows task (Recovering strict task (item :: items)) (recoverItem task item)
      (fun _ => Recovering strict task items) (Alive task) := by
  cases item with
  | malformed text =>
      refine meets_lrem Recovering.stable (fun _ recovering => recovering.worker)
        (fun _ _ _ delivered => delivered.acknowledge_malformed) ?_
        (fun _ recovering => recovering.worker) fun _ recovering => recovering.worker
      refine fun jobs recovering => ⟨recovering.worker, fun isStrict another active => ?_⟩
      exact (List.mem_cons.mp (recovering.active isStrict another active)).resolve_left nofun
  | execution executionId =>
      refine Meets.bind meets_reconcile fun found => ?_
      cases found with
      | none => exact meets_lrem_reconciled
      | some row =>
          dsimp only
          split
          · exact Meets.bind (meets_publish Reconciled.stable
              fun _ _ _ _ _ _ reconciled => reconciled.worker) fun _ => meets_lrem_reconciled
          · exact meets_lrem_reconciled

private theorem meets_recoverItems (items : List QueueItem) :
    Meets strict allows task (Recovering strict task items) (recoverItems task items)
      (fun _ => Recovering strict task []) (Alive task) := by
  induction items with
  | nil => exact Meets.pure fun _ => id
  | cons item rest inductionHypothesis =>
      exact Meets.bind (meets_recoverItem item) fun _ => inductionHypothesis

/-- Recovery captures all that is active. -/
theorem meets_recoverProcessing :
    Meets strict allows task (Alive task) (recoverProcessing task) (fun _ => Idling strict task)
      (Alive task) := by
  have captured : Meets strict allows task (Alive task) (lrange task)
      (fun items => Recovering strict task items) (Alive task) := by
    refine meets_serverCall Alive.stable ?_ (fun _ _ _ alive _ _ _ => alive)
      fun _ _ _ _ _ _ _ _ _ _ recovering => recovering.worker
    rintro state _ _ kept alive ⟨⟩
    exact ⟨⟨kept, fun _ _ => .refl _ _⟩, alive, fun isStrict => (kept.2 isStrict).active⟩
  refine Meets.bind captured fun items => ?_
  refine Meets.mono (meets_recoverItems items) (fun _ => id) ?_ fun _ => id
  exact fun _ jobs _ recovering => ⟨recovering.worker,
    fun isStrict another active => nomatch recovering.active isStrict another active⟩

private theorem meets_removeAll (resources : List Resource) :
    Meets strict allows task (Alive task) (removeAll task resources) (fun _ => Alive task)
      (Alive task) := by
  induction resources with
  | nil => exact Meets.pure fun _ => id
  | cons resource rest inductionHypothesis =>
      exact Meets.bind (meets_suppress (meets_removeResource Alive.stable resource) _)
        fun _ => inductionHypothesis

private theorem meets_cleanupOrphans :
    Meets strict allows task (Alive task) (cleanupOrphans task) (fun _ => Alive task)
      (Alive task) := by
  refine Meets.bind (meets_quietDocker Alive.stable ?_) fun containers => ?_
  · rintro state _ _ ⟨⟩
    rfl
  refine Meets.bind (meets_removeAll containers) fun _ => ?_
  refine Meets.bind (meets_quietDocker Alive.stable ?_) fun volumes => meets_removeAll volumes
  rintro state _ _ ⟨⟩
  rfl

/-- What the worker has when the queue answers. -/
def Received (strict : Prop) (task : TaskId) : Option QueueItem → Jobs → Prop
  | none, jobs => Idling strict task jobs
  | some item, jobs => Idling strict task jobs ∧ (strict → item ∈ jobs.processing)

private theorem meets_nextItem :
    Meets strict allows task (Idling strict task) (nextItem task) (Received strict task)
      (Alive task) := by
  have taken : Meets strict allows task (Idling strict task) (blmove task)
      (fun item => Received strict task (some item)) (Idling strict task) := by
    refine meets_serverCall Idling.stable ?_ (fun _ _ _ idling _ _ _ => idling)
      fun _ _ _ _ _ _ _ _ _ _ => And.left
    intro state item after kept idling effected
    split at effected
    · cases effected
    · next first rest queue =>
        obtain ⟨rfl, rfl⟩ := Prod.mk.inj (Option.some.inj effected)
        have moved : Kept strict ((jobs state).take first rest) :=
          ⟨kept.1.of_rows rfl rfl rfl rfl rfl rfl, fun isStrict => (kept.2 isStrict).take queue⟩
        exact ⟨⟨moved, fun _ different =>
          Jobs.relies_of_worker different idling.worker rfl rfl rfl⟩,
          ⟨idling.worker, idling.idle⟩, fun _ => List.mem_append_right _ List.mem_cons_self⟩
  have found : Meets strict allows task (Idling strict task) (do pure (some (← blmove task)))
      (Received strict task) (Idling strict task) :=
    Meets.bind taken fun item => Meets.pure fun _ => id
  refine Meets.tryExcept found fun exn => ?_
  cases exn with
  | redisUnavailable =>
      exact Meets.bind (Meets.mono (meets_pause Idling.stable) (fun _ => id) (fun _ _ _ => id)
        fun _ idling => idling.worker) fun _ => Meets.pure fun _ => id
  | _ => exact Meets.throw fun _ _ idling => idling.worker

private theorem meets_lrem_done :
    Meets strict allows task (Done strict task executionId) (lrem task (.execution executionId))
      (fun _ => Idling strict task) (Alive task) :=
  meets_lrem Done.stable (fun _ ended => ended.worker)
    (fun isStrict _ ended delivered => delivered.acknowledge (ended.safe isStrict))
    (fun _ ended => ⟨ended.worker, ended.idle⟩) (fun _ ended => ended.worker)
    fun _ idling => idling.worker

private theorem meets_leaveJob (raised : Jobs → Prop) :
    Meets strict allows task (Done strict task executionId) (modify leaveJob)
      (fun _ => Done strict task executionId) raised :=
  Meets.modify fun _ kept ended =>
    ⟨keeping_working kept ended.worker, ended.worker, ended.idle, ended.safe⟩

/-- One turn of `run` for an execution, with its acknowledgement. -/
theorem meets_turn (careful : CarefulPolicy strict allows) (settings : Settings) (turns : Nat) :
    Meets strict allows task (Taken strict task executionId)
      (Coroutine.tryFinally
        (Coroutine.tryFinally (process settings turns task executionId) (modify leaveJob))
        (lrem task (.execution executionId))) (fun _ => Idling strict task) (Alive task) := by
  have left : Meets strict allows task (Taken strict task executionId)
      (Coroutine.tryFinally (process settings turns task executionId) (modify leaveJob))
      (fun _ => Done strict task executionId) (Done strict task executionId) :=
    Meets.tryFinally (meets_process careful settings turns) (fun _ => meets_leaveJob _)
      (meets_leaveJob _)
  refine Meets.tryFinally left (fun _ => meets_lrem_done) ?_
  exact Meets.mono meets_lrem_done (fun _ => id) (fun _ _ _ idling => idling.worker) fun _ => id

private theorem meets_workLoop (careful : CarefulPolicy strict allows) (settings : Settings)
    (turns jobs : Nat) :
    Meets strict allows task (Idling strict task) (workLoop settings turns task jobs)
      (fun _ => Idling strict task) (Alive task) := by
  induction jobs with
  | zero =>
      intro state kept holds
      refine ⟨kept, trivial, ?_⟩
      rintro _ _ _ _ _ _ _ _ _ never
      cases never
  | succ jobs inductionHypothesis =>
      rw [workLoop]
      refine Meets.bind meets_nextItem fun found => ?_
      cases found with
      | none => exact inductionHypothesis
      | some item =>
          cases item with
          | malformed text =>
              refine Meets.bind (meets_lrem ?_ (fun _ holds => holds.1.worker)
                (fun _ _ _ delivered => delivered.acknowledge_malformed)
                (fun jobs holds => (⟨holds.1.worker, holds.1.idle⟩ :
                  Idling strict task (jobs.acknowledge (.malformed text))))
                (fun _ holds => holds.1.worker) fun _ idling => idling.worker)
                fun _ => inductionHypothesis
              rintro before after rely ⟨idling, processing⟩
              exact ⟨Idling.stable rely idling,
                fun isStrict => (rely.undisturbed idling.worker).processing ▸ processing isStrict⟩
          | execution executionId =>
              refine Meets.bind (Meets.mono (meets_turn careful settings turns) ?_
                (fun _ _ _ => id) fun _ => id) fun _ => inductionHypothesis
              exact fun _ ⟨idling, processing⟩ => ⟨idling.worker, idling.idle, processing⟩

/-- The process of a worker. -/
theorem meets_worker (careful : CarefulPolicy strict allows) (settings : Settings) (turns jobs : Nat) :
    Meets strict allows task (fun _ => True) (worker settings turns jobs task) (fun _ _ => True)
      fun _ => True := by
  have started : Meets strict allows task (fun _ => True)
      (Coroutine.awaitUntil .startWorker (startWorker task)) (fun _ => Alive task)
      fun _ => True := by
    refine fun state kept _ => wp_awaitUntil kept trivial ?_
    intro _ state₁ _ kept₁ _ value after taken
    unfold ExecState.startWorker at taken
    split at taken
    · cases taken
    · next nobody =>
        obtain ⟨_, rfl⟩ := Prod.mk.inj (Option.some.inj taken)
        refine ⟨(), fun other _ => Jobs.relies_of_rows rfl rfl (fun _ => id) fun alive => ?_,
          ⟨kept₁.1.of_rows rfl rfl rfl rfl rfl rfl,
            fun isStrict => (kept₁.2 isStrict).of_rows rfl (fun _ => id) rfl⟩, rfl⟩
        cases alive.symm.trans nobody
  have stopped : ∀ raised, Meets strict allows task (Alive task) (modify stopWorker)
      (fun _ _ => True) raised := fun raised => Meets.modify fun _ kept alive =>
    ⟨⟨⟨kept.1.of_rows rfl rfl rfl rfl rfl rfl,
      fun isStrict => (kept.2 isStrict).of_rows rfl (fun _ => id) rfl⟩,
      fun _ different => Jobs.relies_of_worker different alive rfl rfl rfl⟩, trivial⟩
  have ran : Meets strict allows task (Alive task) (run settings turns jobs task)
      (fun _ => Alive task) (Alive task) := by
    refine Meets.bind meets_cleanupOrphans fun _ => ?_
    refine Meets.bind meets_recoverProcessing fun _ => ?_
    exact Meets.mono (meets_workLoop careful settings turns jobs) (fun _ => id)
      (fun _ _ _ idling => idling.worker) fun _ => id
  exact Meets.bind started fun _ => Meets.tryFinally ran (fun _ => stopped _) (stopped _)

end Worker

end Concord.Execution

import Concord.Asyncio.Runs
import Concord.Execution.Lifecycle
import Concord.Execution.Submissions

/-!
Contract: what the tasks of the execution service do with submissions, over whole runs.

Owns:
- every function of the API and of the worker keeps the protocol of the submissions;
- the session, the code and the language of an execution never change, and a deleted
  execution never comes back;
- every file in a volume is the code of a submission, under the name that its language
  runs.

The one function that needs its row lock is the commit: it writes what it has read.

Does not own: the endpoint that reads the code from the document.
-/

set_option autoImplicit false

namespace Concord.Execution.Submissions

open Asyncio ExecState

variable {α : Type} {task : TaskId} {executionId : ExecutionId} {row : ExecutionRow}
  {submitted : ExecutionId → Submission → Prop} {allows : ExecState → ExecCall → ExecEvent → Prop}
  {fact : Submissions → Prop}

/-! ### Rows -/

/-- A row has the submission of some execution. -/
def OfSubmission (submitted : ExecutionId → Submission → Prop) (row : ExecutionRow) : Prop :=
  ∃ executionId, submitted executionId row.submission

/-- What a select for an update has found. -/
theorem yields_select {matching : ExecutionRow → Bool} :
    Yields submitted allows task Any (selectForUpdate task executionId matching)
      fun found stored => ∀ row, found = some row → Locked task executionId row stored := by
  refine .server stable_any fun state event found after sound _ _ effected => ?_
  split at effected
  · obtain ⟨rfl, rfl⟩ := Prod.mk.inj (Option.some.inj effected)
    exact ⟨.refl sound, nofun⟩
  · next row present =>
      have stored := (Option.filter_eq_some_iff.mp present).1
      split at effected
      · next free =>
          obtain ⟨rfl, rfl⟩ := Prod.mk.inj (Option.some.inj effected)
          refine ⟨keeping_lock sound free stored, ?_⟩
          rintro _ ⟨⟩
          exact ⟨Function.update_self _ _ _, stored⟩
      · cases effected

/-- A row that a select has found is locked. -/
theorem Yields.of_found {program : ExecProgram α} {yields : α → Submissions → Prop}
    (holds : Yields submitted allows task (Locked task executionId row) program yields) :
    Yields submitted allows task
      (fun stored => ∀ found, some row = some found → Locked task executionId found stored)
      program yields :=
  holds.mono (fun _ known => known row rfl) fun _ _ => id

/-- The commit of a locked row with the submission that it had. -/
theorem passes_commitRow {old : ExecutionRow} (same : row.submission = old.submission) :
    Yields submitted allows task (Locked task executionId old) (commitRow task executionId row)
      fun _ => Any := by
  refine .operation stable_locked fun state event result after sound locked _ taken => ?_
  have written : submissions ((state.writeRow executionId row).releaseLocks task) =
      ((submissions state).setRow executionId (some row)).release task := rfl
  have keeping : Keeping submitted task (submissions state)
      (submissions ((state.writeRow executionId row).releaseLocks task)) := by
    rw [written]
    have write := keeping_write sound locked same
    exact write.trans (keeping_release write.1)
  split at taken
  · obtain ⟨rfl, rfl⟩ := Prod.mk.inj (Option.some.inj taken)
    exact ⟨keeping, fun _ _ => trivial⟩
  · obtain ⟨rfl, rfl⟩ := Prod.mk.inj (Option.some.inj taken)
    exact ⟨.refl sound, nofun⟩
  · obtain ⟨rfl, rfl⟩ := Prod.mk.inj (Option.some.inj taken)
    exact ⟨keeping, nofun⟩
  · cases taken

/-- The row as it is committed has a submission. -/
theorem yields_refresh :
    Yields submitted allows task Any (refresh task executionId)
      fun row _ => OfSubmission submitted row := by
  refine .operation stable_any fun state event result after sound _ _ taken => ?_
  split at taken
  · next present _ =>
      obtain ⟨rfl, rfl⟩ := Prod.mk.inj (Option.some.inj taken)
      refine ⟨.refl sound, ?_⟩
      rintro _ ⟨⟩
      exact ⟨executionId, sound.rows executionId _ present⟩
  · obtain ⟨rfl, rfl⟩ := Prod.mk.inj (Option.some.inj taken)
    exact ⟨.refl sound, nofun⟩
  · obtain ⟨rfl, rfl⟩ := Prod.mk.inj (Option.some.inj taken)
    exact ⟨.refl sound, nofun⟩
  · cases taken

/-- The database inserts a row only of a submission. -/
theorem passes_insertCall
    (inserts : ∀ state event, allows state .insertRow event →
      submitted state.nextExecution row.submission) :
    Yields submitted allows task Any (insertCall task row) fun _ => Any := by
  refine .server stable_any fun state event executionId after sound _ allowed effected => ?_
  obtain ⟨rfl, rfl⟩ := Prod.mk.inj (Option.some.inj effected)
  exact ⟨keeping_insert sound (inserts state event allowed), trivial⟩

private theorem passes_deleteCall : Passes submitted allows task (deleteCall task executionId) := by
  refine .server stable_any fun state event value after sound _ _ effected => ?_
  split at effected
  · next free =>
      obtain ⟨rfl, rfl⟩ := Prod.mk.inj (Option.some.inj effected)
      exact ⟨keeping_delete sound free, trivial⟩
  · cases effected

private theorem passes_withSession {body : ExecProgram α} {yields : α → Prop}
    (holds : Yields submitted allows task Any body fun value _ => yields value) :
    Yields submitted allows task Any (withSession task body) fun value _ => yields value := by
  refine .tryFinally holds (fun value => ?_) ?_
  · exact .modify fun state sound known => ⟨keeping_release sound, known⟩
  · exact .modify fun state sound _ => ⟨keeping_release sound, trivial⟩

private theorem submission_transitionTo {target : ExecutionStatus} {next : ExecutionRow}
    (moved : row.transitionTo target = .ok next) : next.submission = row.submission := by
  unfold ExecutionRow.transitionTo at moved
  split at moved
  · cases moved
  · obtain rfl := Except.ok.inj moved
    rfl

private theorem submission_record {outcome : Outcome} {now : Nat} {next : ExecutionRow}
    (recorded : outcome.record now row = .ok next) : next.submission = row.submission := by
  unfold Outcome.record at recorded
  split at recorded
  · obtain rfl := Except.ok.inj recorded
    rfl
  · cases moved : row.transitionTo outcome.target with
    | error exn =>
        rw [moved] at recorded
        cases recorded
    | ok between =>
        rw [moved] at recorded
        obtain rfl := Except.ok.inj recorded
        have same : between.submission = row.submission := submission_transitionTo moved
        exact same

private theorem submission_abandon {now : Nat} {next : ExecutionRow}
    (abandoned : row.abandon now = .ok next) : next.submission = row.submission := by
  unfold ExecutionRow.abandon at abandoned
  cases moved : row.transitionTo .failed with
  | error exn =>
      rw [moved] at abandoned
      cases abandoned
  | ok between =>
      rw [moved] at abandoned
      obtain rfl := Except.ok.inj abandoned
      have same : between.submission = row.submission := submission_transitionTo moved
      exact same

/-- A synchronous method that keeps the submission, before what uses its value. -/
theorem yields_ofExcept_bind {β : Type} {result : Except ExecExn ExecutionRow}
    {rest : ExecutionRow → ExecProgram β} {yields : β → Submissions → Prop}
    (same : ∀ next, result = .ok next → next.submission = row.submission)
    (later : ∀ next : ExecutionRow, next.submission = row.submission →
      Yields submitted allows task fact (rest next) yields) :
    Yields submitted allows task fact (ofExcept result >>= rest) yields := by
  cases result with
  | error exn => exact .throw exn
  | ok next => exact later next (same next rfl)

/-- The commit of a row that was read under the lock. -/
theorem passes_write {β : Type} {old : ExecutionRow} {result : Except ExecExn ExecutionRow}
    {rest : ExecutionRow → ExecProgram β} {yields : β → Submissions → Prop}
    (same : ∀ next, result = .ok next → next.submission = old.submission)
    (later : ∀ next, Yields submitted allows task Any (rest next) yields) :
    Yields submitted allows task (Locked task executionId old)
      (do
        let row ← ofExcept result
        commitRow task executionId row
        rest row) yields :=
  yields_ofExcept_bind same fun next kept => .bind (passes_commitRow kept) fun _ => later next

private theorem passes_publish : Passes submitted allows task (publish task executionId row) :=
  .quietServer stable_any fun state value after effected => by
    obtain ⟨_, rfl⟩ := Prod.mk.inj (Option.some.inj effected)
    rfl

/-- A worker that claims an execution has a row of a submission. -/
theorem yields_transition {expected target : ExecutionStatus} :
    Yields submitted allows task Any (transition task executionId expected target)
      fun found _ => ∀ row, found = some row → OfSubmission submitted row := by
  refine passes_withSession (.bind yields_select fun found => ?_)
  cases found with
  | none => exact .pure fun _ _ => nofun
  | some row =>
      refine .of_found ?_
      dsimp only
      split
      · exact .pure fun _ _ => nofun
      · refine passes_write (fun next => submission_transitionTo) fun _ => ?_
        refine .bind yields_refresh fun row => .of_fact fun known => ?_
        refine .bind passes_publish fun _ => .pure fun _ _ => ?_
        rintro _ ⟨⟩
        exact known

private theorem passes_finish {outcome : Outcome} :
    Passes submitted allows task (finish task executionId outcome) := by
  refine passes_withSession (.bind yields_select fun found => ?_)
  cases found with
  | none => exact .pure fun _ _ => trivial
  | some row =>
      refine .of_found ?_
      refine .get_bind fun state => ?_
      refine passes_write (fun next => submission_record) fun _ => ?_
      exact .bind yields_refresh fun row => .of_fact fun _ => passes_publish

/-! ### The sandbox -/

private theorem passes_suppress {body : ExecProgram Unit}
    (holds : Passes submitted allows task body) :
    Passes submitted allows task (suppress body) :=
  .tryExcept holds fun _ => .pure fun _ _ => trivial

private theorem passes_pause : Passes submitted allows task (pause task) := by
  refine .quiet stable_any fun event state result after taken => ?_
  cases event with
  | done =>
      obtain ⟨_, rfl⟩ := Prod.mk.inj (Option.some.inj taken)
      rfl
  | _ => cases taken

private theorem passes_ensureImage (image : String) :
    Passes submitted allows task (ensureImage task image) := by
  refine .tryExcept (.quiet stable_any fun event state result after taken => ?_) fun exn => ?_
  · cases event with
    | done =>
        dsimp only at taken
        split at taken <;> obtain ⟨_, rfl⟩ := Prod.mk.inj (Option.some.inj taken) <;> rfl
    | raised text =>
        obtain ⟨_, rfl⟩ := Prod.mk.inj (Option.some.inj taken)
        rfl
    | _ => cases taken
  · split
    · refine .quietDocker stable_any fun state result after effected => ?_
      obtain ⟨_, rfl⟩ := Prod.mk.inj (Option.some.inj effected)
      rfl
    · exact .throw _

/-- A new volume has no file. -/
theorem passes_createVolume : Passes submitted allows task (createVolume task) := by
  refine .docker stable_any fun state result after sound _ effected => ?_
  obtain ⟨_, rfl⟩ := Prod.mk.inj (Option.some.inj effected)
  refine ⟨keeping_volumes sound fun volume file found => .inl ?_, fun _ _ => trivial⟩
  have other : volume ≠ state.docker.nextId := by
    rintro rfl
    exact nomatch (Function.update_self _ _ _).symm.trans found
  exact (Function.update_of_ne other _ _).symm.trans found

private theorem passes_createContainerCall (call : ExecCall) :
    Passes submitted allows task (createContainerCall task call) :=
  .quietDocker stable_any fun state result after effected => by
    obtain ⟨_, rfl⟩ := Prod.mk.inj (Option.some.inj effected)
    rfl

/-- The file of a submission may be put into a volume. -/
theorem passes_putArchive (volume : Nat) {submission : Submission}
    (known : submitted executionId submission) :
    Passes submitted allows task (putArchive task volume submission.file.1 submission.file.2) := by
  refine .docker stable_any fun state result after sound _ effected => ?_
  obtain ⟨_, rfl⟩ := Prod.mk.inj (Option.some.inj effected)
  refine ⟨keeping_volumes sound fun another file found => ?_, fun _ _ => trivial⟩
  by_cases here : another = volume
  · subst here
    have own : Function.update state.docker.volumes another (some (some submission.file)) another =
        some (some file) := found
    rw [Function.update_self] at own
    exact .inr ⟨executionId, submission, known, (Option.some.inj (Option.some.inj own)).symm⟩
  · exact .inl ((Function.update_of_ne here _ _).symm.trans found)

/-- A removal takes files away, if anything. -/
theorem passes_removeResource (resource : Resource) :
    Passes submitted allows task (removeResource task resource) := by
  refine .operation stable_any fun state event result after sound _ _ taken => ?_
  cases event with
  | done =>
      obtain ⟨_, rfl⟩ := Prod.mk.inj (Option.some.inj taken)
      cases resource with
      | container id => exact ⟨.refl sound, fun _ _ => trivial⟩
      | volume id =>
          refine ⟨keeping_volumes sound fun volume file found => .inl ?_, fun _ _ => trivial⟩
          have other : volume ≠ id := by
            rintro rfl
            exact nomatch (Function.update_self _ _ _).symm.trans found
          exact (Function.update_of_ne other _ _).symm.trans found
  | raised text =>
      obtain ⟨_, rfl⟩ := Prod.mk.inj (Option.some.inj taken)
      exact ⟨.refl sound, fun _ _ => trivial⟩
  | _ => cases taken

private theorem passes_orRemoveVolume {body : ExecProgram α} (volume : Nat)
    (holds : Passes submitted allows task body) :
    Passes submitted allows task (orRemoveVolume task volume body) :=
  .tryExcept holds fun exn => .bind (passes_removeResource _) fun _ => .throw exn

/-- The sandbox of a row gets the file of its submission. -/
theorem passes_createContainer (known : OfSubmission submitted row) :
    Passes submitted allows task (createContainer task row) := by
  obtain ⟨executionId, known⟩ := known
  refine .bind (passes_ensureImage _) fun _ => ?_
  refine .bind passes_createVolume fun volume => ?_
  refine .bind (passes_orRemoveVolume volume ?_) fun _ => passes_orRemoveVolume volume ?_
  · refine .bind (passes_createContainerCall _) fun writer => ?_
    exact .tryFinally (passes_putArchive volume known) (fun _ => passes_removeResource _)
      (passes_removeResource _)
  · exact .bind (passes_createContainerCall _) fun _ => .pure fun _ _ => trivial

private theorem passes_kill (container : Nat) :
    Passes submitted allows task (kill task container) := by
  refine .quietDocker stable_any fun state result after effected => ?_
  split at effected <;> obtain ⟨_, rfl⟩ := Prod.mk.inj (Option.some.inj effected) <;> rfl

private theorem passes_startSandbox (container : Nat) :
    Passes submitted allows task (startSandbox task executionId container) := by
  refine .bind (.modify_same fun _ => rfl) fun _ => ?_
  refine .quietDocker stable_any fun state result after effected => ?_
  obtain ⟨_, rfl⟩ := Prod.mk.inj (Option.some.inj effected)
  rfl

private theorem passes_logs (container : Nat) (output : Container → List UInt8) :
    Passes submitted allows task (logs task container output) :=
  .quietDocker stable_any fun state result after effected => by
    obtain ⟨_, rfl⟩ := Prod.mk.inj (Option.some.inj effected)
    rfl

private theorem passes_dead : Passes submitted allows task (dead : ExecProgram α) := by
  intro state sound _
  refine ⟨sound, trivial, ?_⟩
  rintro _ _ _ _ _ _ _ _ _ never
  cases never

private theorem passes_monitor (container deadline turns : Nat) :
    Passes submitted allows task (monitor task executionId container deadline turns) := by
  induction turns with
  | zero => exact passes_dead
  | succ turns inductionHypothesis =>
      refine .bind (.quietServer stable_any fun state value after effected => ?_) fun requested => ?_
      · obtain ⟨_, rfl⟩ := Prod.mk.inj (Option.some.inj effected)
        rfl
      · split
        · exact .bind (passes_kill container) fun _ => .pure fun _ _ => trivial
        · refine .bind (.quietDocker stable_any fun state result after effected => ?_) fun status => ?_
          · obtain ⟨_, rfl⟩ := Prod.mk.inj (Option.some.inj effected)
            rfl
          · split
            · exact .pure fun _ _ => trivial
            · refine .get_bind fun state => ?_
              split
              · exact .bind (passes_kill container) fun _ => .pure fun _ _ => trivial
              · exact .bind passes_pause fun _ => inductionHypothesis

private theorem passes_awaitStream : Passes submitted allows task (awaitStream task) := by
  refine .quiet stable_any fun event state result after taken => ?_
  split at taken
  · obtain ⟨_, rfl⟩ := Prod.mk.inj (Option.some.inj taken)
    rfl
  · obtain ⟨_, rfl⟩ := Prod.mk.inj (Option.some.inj taken)
    rfl
  · cases taken

private theorem passes_waitForStream : Passes submitted allows task (waitForStream task) := by
  refine .quiet stable_any fun event state result after taken => ?_
  cases event with
  | done =>
      dsimp only at taken
      split at taken
      · obtain ⟨_, rfl⟩ := Prod.mk.inj (Option.some.inj taken)
        rfl
      · cases taken
  | raised text =>
      obtain ⟨_, rfl⟩ := Prod.mk.inj (Option.some.inj taken)
      rfl
  | _ => cases taken

/-! ### One job -/

private theorem passes_cleanup (acquired : Acquired) :
    Passes submitted allows task (cleanup task executionId acquired) := by
  obtain ⟨container, volume, streaming⟩ := acquired
  have waited : Passes submitted allows task (suppress (waitForStream task)) :=
    passes_suppress passes_waitForStream
  have idle : Passes submitted allows task (pure () : ExecProgram Unit) :=
    .pure fun _ _ => trivial
  have removed : ∀ resource, Passes submitted allows task
      (suppress (removeResource task resource)) :=
    fun resource => passes_suppress (passes_removeResource resource)
  refine .bind (.quietServer stable_any ?_) fun _ => .get_bind fun state => ?_
  · rintro state _ _ ⟨⟩
    rfl
  · cases container with
    | none =>
        cases volume with
        | none =>
            dsimp only
            split
            · exact .bind waited fun _ => idle
            · exact idle
        | some volume =>
            dsimp only
            split
            · exact .bind waited fun _ => removed _
            · exact removed _
    | some container =>
        have killed : Passes submitted allows task (suppress (kill task container)) :=
          passes_suppress (passes_kill container)
        cases volume with
        | none =>
            dsimp only
            split
            · exact .bind killed fun _ => .bind waited fun _ => .bind (removed _) fun _ => idle
            · exact .bind (removed _) fun _ => idle
        | some volume =>
            dsimp only
            split
            · exact .bind killed fun _ => .bind waited fun _ => .bind (removed _) fun _ => removed _
            · exact .bind (removed _) fun _ => removed _

private theorem passes_runSandbox (settings : Settings) (turns started container : Nat) :
    Passes submitted allows task
      (runSandbox settings turns task executionId started container) := by
  refine .bind passes_pause fun _ => .bind (passes_startSandbox container) fun _ => ?_
  refine .bind yields_transition fun found => ?_
  cases found with
  | none => exact .of_passes (passes_kill container)
  | some row =>
      refine .of_passes ?_
      refine .get_bind fun state => .bind (passes_monitor container _ turns) fun forced => ?_
      refine .bind (.quietDocker stable_any ?_) fun exitCode => ?_
      · intro state result after effected
        split at effected <;> cases effected
        rfl
      · refine .bind passes_awaitStream fun _ => ?_
        refine .bind (passes_logs container _) fun stdout => ?_
        refine .bind (passes_logs container _) fun stderr => ?_
        exact .get_bind fun state => passes_finish

private theorem passes_failJob (started : Nat) (exn : ExecExn) :
    Passes submitted allows task (failJob task executionId started exn) :=
  .bind (.modify_same fun _ => rfl) fun _ => .get_bind fun _ => passes_finish

/-- A job with the row of a submission. -/
theorem passes_runJob (settings : Settings) (turns : Nat) (known : OfSubmission submitted row) :
    Passes submitted allows task (runJob settings turns task executionId row) := by
  refine .bind (.modify_same fun _ => rfl) fun _ => .get_bind fun state => ?_
  have attempted : Passes submitted allows task (Coroutine.tryExcept
      (do pure (Except.ok (← createContainer task row)))
      fun exn => pure (.error exn) : ExecProgram (Except ExecExn (Nat × Nat))) :=
    .tryExcept (.bind (passes_createContainer known) fun _ => .pure fun _ _ => trivial)
      fun exn => .pure fun _ _ => trivial
  refine .bind attempted fun created => ?_
  cases created with
  | error exn =>
      exact .tryFinally (passes_failJob _ _) (fun _ => passes_cleanup _) (passes_cleanup _)
  | ok made =>
      refine .bind (.modify_same fun _ => rfl) fun _ => ?_
      exact .tryFinally (.tryExcept (passes_runSandbox settings turns _ _) (passes_failJob _))
        (fun _ => passes_cleanup _) (passes_cleanup _)

private theorem passes_process (settings : Settings) (turns : Nat) :
    Passes submitted allows task (process settings turns task executionId) := by
  refine .bind (.modify_same fun _ => rfl) fun _ => .bind yields_transition fun found => ?_
  cases found with
  | none => exact .pure fun _ _ => trivial
  | some row => exact .of_fact fun known => passes_runJob settings turns (known row rfl)

/-! ### The worker -/

private theorem passes_lrem (item : QueueItem) : Passes submitted allows task (lrem task item) :=
  .quietServer stable_any fun state value after effected => by
    obtain ⟨_, rfl⟩ := Prod.mk.inj (Option.some.inj effected)
    rfl

private theorem passes_rpush (item : QueueItem) : Passes submitted allows task (rpush task item) :=
  .quietServer stable_any fun state value after effected => by
    obtain ⟨_, rfl⟩ := Prod.mk.inj (Option.some.inj effected)
    rfl

private theorem passes_removeAll (resources : List Resource) :
    Passes submitted allows task (removeAll task resources) := by
  induction resources with
  | nil => exact .pure fun _ _ => trivial
  | cons resource rest inductionHypothesis =>
      exact .bind (passes_suppress (passes_removeResource resource)) fun _ => inductionHypothesis

private theorem passes_cleanupOrphans : Passes submitted allows task (cleanupOrphans task) := by
  refine .bind (.quietDocker stable_any ?_) fun containers =>
    .bind (passes_removeAll containers) fun _ =>
      .bind (.quietDocker stable_any ?_) fun volumes => passes_removeAll volumes
  · rintro state _ _ ⟨⟩
    rfl
  · rintro state _ _ ⟨⟩
    rfl

private theorem passes_reconcile : Passes submitted allows task (reconcile task executionId) := by
  refine passes_withSession (.bind yields_select fun found => ?_)
  cases found with
  | none => exact .pure fun _ _ => trivial
  | some row =>
      refine .of_found ?_
      dsimp only
      split
      · exact .of_passes (.bind (passes_rpush _) fun _ => .pure fun _ _ => trivial)
      · split
        · refine .get_bind fun state => passes_write (fun next => submission_abandon) fun _ => ?_
          exact .bind yields_refresh fun row => .pure fun _ _ => trivial
        · exact .pure fun _ _ => trivial

private theorem passes_recoverItem (item : QueueItem) :
    Passes submitted allows task (recoverItem task item) := by
  cases item with
  | malformed text => exact passes_lrem _
  | execution executionId =>
      refine .bind passes_reconcile fun found => ?_
      cases found with
      | none => exact passes_lrem _
      | some row =>
          dsimp only
          split
          · exact .bind passes_publish fun _ => passes_lrem _
          · exact passes_lrem _

private theorem passes_recoverItems (items : List QueueItem) :
    Passes submitted allows task (recoverItems task items) := by
  induction items with
  | nil => exact .pure fun _ _ => trivial
  | cons item rest inductionHypothesis =>
      exact .bind (passes_recoverItem item) fun _ => inductionHypothesis

private theorem passes_nextItem : Passes submitted allows task (nextItem task) := by
  refine .tryExcept (.bind (.quietServer stable_any ?_) fun item => .pure fun _ _ => trivial)
    fun exn => ?_
  · intro state value after effected
    split at effected
    · cases effected
    · obtain ⟨_, rfl⟩ := Prod.mk.inj (Option.some.inj effected)
      rfl
  · split
    · exact .bind passes_pause fun _ => .pure fun _ _ => trivial
    · exact .throw _

private theorem passes_workLoop (settings : Settings) (turns jobs : Nat) :
    Passes submitted allows task (workLoop settings turns task jobs) := by
  induction jobs with
  | zero => exact passes_dead
  | succ jobs inductionHypothesis =>
      refine .bind passes_nextItem fun next => ?_
      cases next with
      | none =>
          have idle : Passes submitted allows task (pure () : ExecProgram Unit) :=
            .pure fun _ _ => trivial
          exact .bind idle fun _ => inductionHypothesis
      | some item =>
          cases item with
          | malformed text => exact .bind (passes_lrem _) fun _ => inductionHypothesis
          | execution executionId =>
              exact .bind (.tryFinally (.tryFinally (passes_process settings turns)
                (fun _ => .modify_same fun _ => rfl) (.modify_same fun _ => rfl))
                (fun _ => passes_lrem _) (passes_lrem _)) fun _ => inductionHypothesis

private theorem passes_worker (settings : Settings) (turns jobs : Nat) :
    Passes submitted allows task (worker settings turns jobs task) := by
  refine .bind ?_ fun _ => .tryFinally (.bind passes_cleanupOrphans fun _ => ?_)
    (fun _ => .modify_same fun _ => rfl) (.modify_same fun _ => rfl)
  · intro state sound _
    refine wp_awaitUntil sound trivial ?_
    rintro _ state₁ _ sound₁ _ _ state₂ taken
    unfold startWorker at taken
    split at taken
    · cases taken
    · obtain ⟨_, rfl⟩ := Prod.mk.inj (Option.some.inj taken)
      exact ⟨(), fun _ _ => .refl _ _, sound₁, fun _ _ => trivial⟩
  · refine .bind (.bind (.quietServer stable_any ?_) fun items => passes_recoverItems items)
      fun _ => passes_workLoop settings turns jobs
    rintro state _ _ ⟨⟩
    rfl

/-! ### The API -/

private theorem passes_createQueuedExecution {sessionId : Nat} {code : String}
    {language : LanguageEnum}
    (inserts : ∀ state event, allows state .insertRow event →
      submitted state.nextExecution ⟨sessionId, code, language⟩) :
    Passes submitted allows task (createQueuedExecution task sessionId code language) := by
  refine .tryFinally ?_ (fun _ => .modify_same fun _ => rfl) (.modify_same fun _ => rfl)
  refine .bind (passes_insertCall inserts) fun executionId => ?_
  refine .bind yields_refresh fun row => .of_fact fun _ => ?_
  refine .bind (.tryExcept (passes_rpush _) fun exn => .bind passes_deleteCall fun _ => .throw _)
    fun _ => ?_
  exact .bind (.modify_same fun _ => rfl) fun _ => .pure fun _ _ => trivial

private theorem passes_cancelExecution (sessionId : Nat) (executionId : ExecutionId) :
    Passes submitted allows task (cancelExecution task sessionId executionId) := by
  refine passes_withSession ?_
  have got : Yields submitted allows task Any (getExecution task sessionId executionId)
      fun row => Locked task executionId row := by
    refine .bind yields_select fun found => ?_
    cases found with
    | none => exact .throw _
    | some row => exact .pure fun _ known => known row rfl
  refine .bind got fun row => ?_
  have cancels : Yields submitted allows task (Locked task executionId row)
      (do
        let cancelled ← ofExcept (row.transitionTo .cancelled)
        let row := { cancelled with finishedAt := some (← get).clock }
        commitRow task executionId row
        refresh task executionId) fun _ _ => True :=
    yields_ofExcept_bind (fun next => submission_transitionTo) fun next same =>
      .get_bind fun state => .bind (passes_commitRow same) fun _ =>
        .mono yields_refresh (fun _ => id) fun _ _ _ => trivial
  dsimp only
  split
  · split
    · refine .bind (.tryExcept (.quietServer stable_locked ?_) fun _ => .throw _) fun _ => cancels
      rintro state _ _ ⟨⟩
      rfl
    · exact cancels
  · exact .throw _

/-! ### Every run of the service -/

/-- The database inserts an execution only where it was submitted. -/
def InsertsSubmitted (submitted : ExecutionId → Submission → Prop)
    (policy : Policy ExecState ExecEvent ExecCall ExecRequest) : Prop :=
  ∀ sessionId code language state event,
    policy (.run sessionId code language) state .insertRow event →
      submitted state.nextExecution ⟨sessionId, code, language⟩

private theorem passes_handle {settings : Settings}
    {policy : Policy ExecState ExecEvent ExecCall ExecRequest}
    (inserts : InsertsSubmitted submitted policy) (request : ExecRequest) :
    Passes submitted (policy request) task (handle settings request task) := by
  cases request with
  | run sessionId code language =>
      exact .bind (passes_createQueuedExecution (inserts sessionId code language)) fun _ =>
        .pure fun _ _ => trivial
  | cancel sessionId executionId =>
      exact .bind (passes_cancelExecution sessionId executionId) fun _ => .pure fun _ _ => trivial
  | worker turns jobs => exact passes_worker settings turns jobs

def InitialVolumes (state : ExecState) : Prop :=
  Initial state ∧ ∀ volume file, state.docker.volumes volume ≠ some (some file)

private theorem submissions_change {change : ExecAmbient} {state after : ExecState}
    (taken : state.change change = some after) : submissions after = submissions state := by
  cases change with
  | tick elapsed =>
      obtain rfl := Option.some.inj taken
      rfl
  | write container stdout stderr =>
      have taken : state.writeOutput container stdout stderr = some after := taken
      unfold writeOutput at taken
      split at taken
      · obtain rfl := Option.some.inj taken
        rfl
      · cases taken
  | exit container code =>
      have taken : state.exitContainer container code = some after := taken
      unfold exitContainer at taken
      split at taken
      · obtain rfl := Option.some.inj taken
        rfl
      · cases taken
  | endStream ended =>
      have taken : (if state.stream = some .running then some { state with stream := some ended }
        else none) = some after := taken
      split at taken
      · obtain rfl := Option.some.inj taken
        rfl
      · cases taken
  | duplicate item =>
      obtain rfl := Option.some.inj taken
      rfl

section Runs

variable {settings : Settings} {policy : Policy ExecState ExecEvent ExecCall ExecRequest}

private theorem submissions_keeps (inserts : InsertsSubmitted submitted policy) :
    Keeps (submissionLogic submitted) (executions settings) policy InitialVolumes where
  start {state} initial := by
    obtain ⟨⟨rows, _⟩, files⟩ := initial
    exact ⟨(), ⟨fun executionId _ => (rows executionId).1, fun executionId _ => (rows executionId).2.1,
      fun executionId row found => (nomatch (rows executionId).1.symm.trans found),
      fun volume file found => absurd found (files volume file)⟩, fun _ => trivial⟩
  request {task request ghost state} sound _ _ := by
    refine wp_mono ?_ (passes_handle inserts request state sound trivial)
    exact fun _ _ _ met => ⟨met.1, trivial⟩
  ambient {change ghost state after} taken sound _ := by
    have same := submissions_change taken
    refine ⟨(), ?_, fun task => ?_⟩
    · show Sound submitted (submissions after)
      rw [same]
      exact sound
    · show Relies task (submissions state) (submissions after)
      rw [same]
      exact .refl _ _
  restart {ghost state} sound := by
    refine ⟨(), ⟨sound.fresh, fun _ _ => rfl, sound.rows, sound.files⟩, fun _ => trivial⟩

private theorem submissions_sound (inserts : InsertsSubmitted submitted policy)
    {pool : Pool ExecState ExecEvent ExecCall ExecExn ExecRequest}
    (reached : Reachable (executions settings) policy InitialVolumes pool) :
    Sound submitted (submissions pool.state) := by
  obtain ⟨_, sound, _⟩ := reached.verified submissionLogic_lawful (submissions_keeps inserts)
    fun _ => trivial
  exact sound

private theorem submissions_fixed
    {pool next : Pool ExecState ExecEvent ExecCall ExecExn ExecRequest}
    (reached : Reachable (executions settings) policy InitialVolumes pool)
    (step : Step (executions settings) policy pool next) :
    Fixed (submissions pool.state) (submissions next.state) := by
  have inserts : InsertsSubmitted (fun _ _ => True) policy := fun _ _ _ _ _ _ => trivial
  rcases step.foreign_or_restart with ⟨task, foreign⟩ | rfl
  · obtain ⟨_, _, relies⟩ := reached.relies submissionLogic_lawful (submissions_keeps inserts)
      (fun _ => trivial) foreign
    exact relies.fixed
  · exact .of_same rfl rfl

private theorem submissions_fixed_along
    {before after : Pool ExecState ExecEvent ExecCall ExecExn ExecRequest}
    (reached : Reachable (executions settings) policy InitialVolumes before)
    (onward : Relation.ReflTransGen (Step (executions settings) policy) before after) :
    Fixed (submissions before.state) (submissions after.state) := by
  have along : Reachable (executions settings) policy InitialVolumes after ∧
      Fixed (submissions before.state) (submissions after.state) := by
    induction onward with
    | refl => exact ⟨reached, .refl _⟩
    | tail _ step inductionHypothesis =>
        obtain ⟨there, fixed⟩ := inductionHypothesis
        exact ⟨there.step step, fixed.trans (submissions_fixed there step)⟩
  exact along.2

/-- **What is submitted is never replaced.** In every run, a row that was there, or could
have been, before some steps has the session, the code and the language that it had: no
step of any task changes them, and the row of a deleted execution never comes back. -/
theorem submissions_never_change
    {before after : Pool ExecState ExecEvent ExecCall ExecExn ExecRequest}
    (reached : Reachable (executions settings) policy InitialVolumes before)
    (onward : Relation.ReflTransGen (Step (executions settings) policy) before after)
    {executionId : ExecutionId} (old : executionId < before.state.nextExecution)
    {row : ExecutionRow} (stored : after.state.rows executionId = some row) :
    ∃ earlier, before.state.rows executionId = some earlier ∧
      earlier.submission = row.submission := by
  exact (submissions_fixed_along reached onward).rows executionId row old stored

/-- **Only submitted code gets into a sandbox.** Whatever is counted as submitted: if the
database inserts only submitted executions, then in every run each row has the submission
of its execution, and each file in a volume is the code of a submission under the file name
of its language. -/
theorem only_submitted_code_is_stored (inserts : InsertsSubmitted submitted policy)
    {pool : Pool ExecState ExecEvent ExecCall ExecExn ExecRequest}
    (reached : Reachable (executions settings) policy InitialVolumes pool) :
    (∀ executionId row, pool.state.rows executionId = some row →
      submitted executionId row.submission) ∧
    ∀ volume filename code, pool.state.docker.volumes volume = some (some (filename, code)) →
      ∃ executionId submission, submitted executionId submission ∧ submission.code = code ∧
        (runtime submission.language).filename = filename := by
  have sound := submissions_sound inserts reached
  refine ⟨sound.rows, fun volume filename code found => ?_⟩
  obtain ⟨executionId, submission, known, file⟩ := sound.files volume _ found
  obtain ⟨rfl, rfl⟩ := Prod.mk.inj file
  exact ⟨executionId, submission, known, rfl, rfl⟩

end Runs

/-! ### Jobs of the small service -/

private theorem emptyState_initialVolumes : InitialVolumes emptyState :=
  ⟨emptyState_initial, fun _ _ => nofun⟩

def submitSchedule : List (Move ExecEvent ExecRequest ExecAmbient) :=
  [.spawn 1 (.run 7 "print(1)" .python), .resume 1 .done, .resume 1 .done, .resume 1 .done]

/-- A worker claims an execution and puts its code into a volume. -/
def archiveSchedule : List (Move ExecEvent ExecRequest ExecAmbient) :=
  .spawn 2 (.worker 1 1) :: (List.replicate 14 .done).map (.resume 2)

def sampleSubmission : Submission := ⟨7, "print(1)", .python⟩

def permitsSample (request : ExecRequest) (_ : ExecState) (call : ExecCall) (_ : ExecEvent) :
    Bool :=
  match request, call with
  | .run sessionId code language, .insertRow => ⟨sessionId, code, language⟩ = sampleSubmission
  | _, _ => true

theorem submissions_never_change_run :
    ∃ before after : Pool ExecState ExecEvent ExecCall ExecExn ExecRequest, ∃ row,
      after.state.rows 0 = some row ∧ row.status = .starting ∧
        ∃ earlier, before.state.rows 0 = some earlier ∧ earlier.submission = row.submission := by
  have claimed : ((playFromEmpty submitSchedule).bind fun before =>
      ((executions ⟨30000, 1048576⟩).play permitsAll archiveSchedule before).map fun after =>
        (before.state.nextExecution, (after.state.rows 0).map (·.status))) =
          some (1, some .starting) := by decide +kernel
  obtain ⟨before, submit, claimed⟩ := Option.bind_eq_some_iff.mp claimed
  obtain ⟨after, played, facts⟩ := Option.map_eq_some_iff.mp claimed
  obtain ⟨next, status⟩ := Prod.mk.inj facts
  obtain ⟨row, stored, starting⟩ := Option.map_eq_some_iff.mp status
  have reached : Reachable (executions ⟨30000, 1048576⟩) anyEvent InitialVolumes before :=
    Service.reachable_of_play (fun _ _ _ _ _ => trivial) (.start emptyState_initialVolumes) submit
  have onward : Relation.ReflTransGen (Step (executions ⟨30000, 1048576⟩) anyEvent) before after :=
    Service.steps_of_play (fun _ _ _ _ _ => trivial) played
  exact ⟨before, after, row, stored, starting,
    submissions_never_change reached onward (next ▸ Nat.zero_lt_one) stored⟩

theorem only_submitted_code_is_stored_run :
    ∃ pool : Pool ExecState ExecEvent ExecCall ExecExn ExecRequest,
      pool.state.docker.volumes 0 = some (some ("main.py", "print(1)")) ∧
        ∃ submission, submission = sampleSubmission ∧ submission.code = "print(1)" ∧
          (runtime submission.language).filename = "main.py" := by
  have archived : ((executions ⟨30000, 1048576⟩).play permitsSample
      (submitSchedule ++ archiveSchedule) (Pool.start emptyState)).map
        (fun pool => pool.state.docker.volumes 0) = some (some (some ("main.py", "print(1)"))) := by
    decide +kernel
  obtain ⟨pool, played, file⟩ := Option.map_eq_some_iff.mp archived
  have inserts : InsertsSubmitted (fun _ submission => submission = sampleSubmission)
      fun request state call event => permitsSample request state call event = true :=
    fun _ _ _ _ _ allowed => of_decide_eq_true allowed
  have reached : Reachable (executions ⟨30000, 1048576⟩)
      (fun request state call event => permitsSample request state call event = true)
      InitialVolumes pool :=
    Service.reachable_of_play (fun _ _ _ _ allowed => allowed) (.start emptyState_initialVolumes)
      played
  obtain ⟨_, submission, known, code, filename⟩ :=
    (only_submitted_code_is_stored inserts reached).2 0 _ _ file
  exact ⟨pool, file, submission, known, code, filename⟩

end Concord.Execution.Submissions

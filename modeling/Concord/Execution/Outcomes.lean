import Concord.Execution.JobTriples

/-!
Contract: the outcome that a job records, and the outcome of its sandbox.

Owns:
- `Available`, the runs of a job in which the services answer;
- `real_outcome`, the condition under which the row of a job has the outcome of its
  sandbox, with the runs that miss it.

An exception of any kind leads to the `except` block of `process`, which knows
neither the exit code nor the output. Where the services answer, two are left: the
kill of a sandbox that has ended since it was looked at, and the commit of a text
that PostgreSQL does not store.

Does not own: the runs in which a service is not there.
-/

set_option autoImplicit false

namespace Concord.Execution

open Asyncio ExecState

variable {α : Type} {task : TaskId} {executionId : ExecutionId}

/-- The stored output of a container has the character that PostgreSQL refuses. -/
def Container.hasNul (limit : Nat) (container : Container) : Bool :=
  (bounded limit container.stdout).contains '\x00' || (bounded limit container.stderr).contains '\x00'

/-- A moment at which the output of the sandbox is read, which cannot be stored. -/
def ReadsNul (limit : Nat) (moment : ExecMoment) : Prop :=
  moment.call = .logs ∧ ∃ sandbox, moment.state.docker.newest = some sandbox ∧ sandbox.hasNul limit

/-- PostgreSQL, Redis and Docker answer all along: PostgreSQL raises only where it is
given U+0000, and the last wait for the stream may time out. -/
def Available (limit : Nat) (trace : List ExecMoment) : Prop :=
  ∀ moment ∈ trace, moment.event = .done ∨ moment.call = .streamTask ∨
    moment.call = .commit ∧ ∃ reading ∈ trace, ReadsNul limit reading

def Claims (trace : List ExecMoment) : Prop := ∃ moment ∈ trace, moment.call = .commit

/-- The row of a claimed execution has the outcome of the sandbox that is cleaned up,
which the deletion of the cancellation key begins. -/
def RealOutcome (limit : Nat) (executionId : ExecutionId) (trace : List ExecMoment)
    (final : ExecState) : Prop :=
  Claims trace → ∃ moment ∈ trace, moment.call = .deleteKey ∧
    ∃ sandbox, moment.state.docker.newest = some sandbox ∧
      ∃ row, final.rows executionId = some row ∧ row.Records limit sandbox

/-! ### The end of a job -/

/-- A row that is terminal stays as it is. -/
def KeepsRow (executionId : ExecutionId) (start : ExecState) (_ : List ExecMoment)
    (final : ExecState) : Prop :=
  ∀ row, row.status.Terminal → start.rows executionId = some row → final.rows executionId = some row

private theorem keepsRow_composes : Composes (KeepsRow executionId) where
  refl _ _ _ := id
  trans _ _ _ _ _ one two row terminal found := two row terminal (one row terminal found)

theorem Beside.keepsRow {before after : ExecState} (beside : Beside executionId before after)
    {row : ExecutionRow} (terminal : row.status.Terminal)
    (found : before.rows executionId = some row) : after.rows executionId = some row := by
  rcases beside.row row found with same | ⟨queued | running, _⟩
  · exact same
  · rw [queued] at terminal
    cases terminal
  · rw [running] at terminal
    cases terminal

/-- A part of a job that leaves the rows alone. -/
theorem keepsRow_operation {call : ExecCall}
    {act : ExecEvent → ExecState → Option (Except ExecExn α × ExecState)}
    (same : ∀ event state result after, act event state = some (result, after) →
      after.rows = state.rows) :
    Along (Beside executionId) (KeepsRow executionId) (operation task call act) := by
  intro start trace result final runs row terminal found
  obtain ⟨state, event, rfl, beside, taken⟩ := runs_operation runs
  rw [same _ _ _ _ taken]
  exact beside.keepsRow terminal found

private theorem keepsRow_suppress {body : ExecProgram Unit}
    (keeps : Along (Beside executionId) (KeepsRow executionId) body) :
    Along (Beside executionId) (KeepsRow executionId) (suppress body) :=
  keepsRow_composes.tryExcept keeps fun _ => keepsRow_composes.pure ()

private theorem kill_keepsRow (container : Nat) :
    Along (Beside executionId) (KeepsRow executionId) (kill task container) := by
  refine keepsRow_operation ?_
  intro event state result after taken
  cases event with
  | done =>
      dsimp only at taken
      split at taken <;> cases taken <;> rfl
  | raised text =>
      cases taken
      rfl
  | _ => cases taken

private theorem waitForStream_keepsRow :
    Along (Beside executionId) (KeepsRow executionId) (waitForStream task) := by
  refine keepsRow_operation ?_
  intro event state result after taken
  split at taken
  · split at taken <;> cases taken
    rfl
  · cases taken
    rfl
  · cases taken

private theorem removeResource_keepsRow (resource : Resource) :
    Along (Beside executionId) (KeepsRow executionId) (removeResource task resource) := by
  refine keepsRow_operation ?_
  intro event state result after taken
  split at taken <;> cases taken <;> rfl

private theorem removeVolume_keepsRow (volume : Option Nat) :
    Along (Beside executionId) (KeepsRow executionId)
      (match volume with
        | none => pure ()
        | some volume => suppress (removeResource task (.volume volume))) := by
  cases volume with
  | none => exact keepsRow_composes.pure ()
  | some volume => exact keepsRow_suppress (removeResource_keepsRow _)

private theorem removeAcquired_keepsRow (acquired : Acquired) :
    Along (Beside executionId) (KeepsRow executionId) (removeAcquired task acquired) := by
  obtain ⟨container, volume, streaming⟩ := acquired
  cases container with
  | none => exact removeVolume_keepsRow volume
  | some container =>
      exact keepsRow_composes.bind (keepsRow_suppress (removeResource_keepsRow _))
        fun _ => removeVolume_keepsRow volume

private theorem deleteCancellation_keepsRow :
    Along (Beside executionId) (KeepsRow executionId) (deleteCancellation task executionId) := by
  intro start trace result final runs row terminal found
  obtain ⟨state, event, rfl, beside, effected⟩ := runs_serverCall runs
  have kept := beside.keepsRow terminal found
  rcases effected with ⟨_, _, effected, _⟩ | ⟨_, _, _, rfl | ⟨_, effected⟩⟩
  · cases effected
    exact kept
  · exact kept
  · cases effected
    exact kept

/-- `finally` begins with the deletion of the key, and leaves a terminal row alone. -/
theorem runs_cleanup_keepsRow {acquired : Acquired} {start final : ExecState}
    {trace : List ExecMoment} {result : Except ExecExn Unit}
    (runs : Runs (Beside executionId) (cleanup task executionId acquired) start trace result final) :
    (∃ moment ∈ trace, moment.call = .deleteKey ∧ Beside executionId start moment.state) ∧
      KeepsRow executionId start trace final := by
  rw [cleanup_eq] at runs
  constructor
  · rcases runs_bind runs with ⟨_, _, _, _, rfl, first, _⟩ | ⟨_, _, first⟩
    · obtain ⟨state, event, rfl, beside, _⟩ := runs_serverCall first
      exact ⟨_, List.mem_cons_self, rfl, beside⟩
    · obtain ⟨state, event, rfl, beside, _⟩ := runs_serverCall first
      exact ⟨_, List.mem_cons_self, rfl, beside⟩
  · refine keepsRow_composes.bind deleteCancellation_keepsRow (fun _ => ?_) runs
    refine keepsRow_composes.bind keepsRow_composes.get fun state => ?_
    have waits : Along (Beside executionId) (KeepsRow executionId)
        (do suppress (waitForStream task); removeAcquired task acquired) :=
      keepsRow_composes.bind (keepsRow_suppress waitForStream_keepsRow)
        fun _ => removeAcquired_keepsRow acquired
    split
    · split
      · exact waits
      · exact keepsRow_composes.bind (keepsRow_suppress (kill_keepsRow _)) fun _ => waits
    · exact removeAcquired_keepsRow acquired

/-- A job that does not claim its execution commits nothing. -/
theorem transition_none {expected target : ExecutionStatus} {start final : ExecState}
    {trace : List ExecMoment}
    (runs : Runs (Beside executionId) (transition task executionId expected target) start trace
      (.ok none) final) : ¬Claims trace := by
  obtain ⟨last, body, _⟩ := runs_tryFinally_modify runs
  obtain ⟨found, _, _, later, rfl, first, second⟩ := runs_bind_ok body
  obtain ⟨state, event, rfl, _, _⟩ := runs_serverCall first
  rintro ⟨moment, member, commit⟩
  rcases List.mem_append.mp member with locking | rest
  · obtain rfl := List.mem_singleton.mp locking
    cases commit
  cases found with
  | none =>
      obtain ⟨rfl, _, _⟩ := runs_pure second
      cases rest
  | some row =>
      dsimp only at second
      split at second
      · obtain ⟨rfl, _, _⟩ := runs_pure second
        cases rest
      · -- A transition that goes on returns its row.
        obtain ⟨_, _, _, _, _, _, committed⟩ := runs_bind_ok second
        obtain ⟨_, _, _, _, _, _, refreshed⟩ := runs_bind_ok committed
        obtain ⟨_, _, _, _, _, _, published⟩ := runs_bind_ok refreshed
        obtain ⟨_, _, _, _, _, _, returned⟩ := runs_bind_ok published
        cases (runs_pure returned).2.1

theorem Claims.append {earlier later : List ExecMoment} (claims : Claims (earlier ++ later))
    (neither : ¬Claims earlier) : Claims later := by
  obtain ⟨moment, member, commit⟩ := claims
  rcases List.mem_append.mp member with first | second
  · exact absurd ⟨moment, first, commit⟩ neither
  · exact ⟨moment, second, commit⟩

/-- A job that was claimed ends with the outcome of its sandbox. -/
theorem runJob_outcome {settings : Settings} {turns : Nat} {row : ExecutionRow}
    {start final : ExecState} {trace : List ExecMoment} {result : Except ExecExn Unit}
    (claimed : IsStarting executionId start)
    (runs : Runs (Beside executionId) (runJob settings turns task executionId row) start trace result
      final) (answered : ∀ moment ∈ trace, Answered moment) :
    ∃ moment ∈ trace, moment.call = .deleteKey ∧
      ∃ sandbox, moment.state.docker.newest = some sandbox ∧
        ∃ row, final.rows executionId = some row ∧ row.Records settings.outputLimit sandbox := by
  have runs := runs_modify_bind runs
  change Runs (Beside executionId) (Coroutine.tryExcept _ _ >>= _) _ trace result final at runs
  rcases runs_bind runs with ⟨created, middle, making, rest, rfl, first, second⟩ | ⟨_, _, first⟩
  swap
  · obtain ⟨_, returned, _⟩ := runs_created first
    cases returned
  obtain ⟨makes, works⟩ := List.forall_mem_append.mp answered
  obtain ⟨_, returned, making⟩ := runs_created first
  obtain rfl := Except.ok.inj returned
  obtain ⟨⟨container, volume⟩, rfl, starting, sandbox⟩ :=
    createContainer_answers row (by exact claimed) making makes
  change Runs (Beside executionId) (Coroutine.tryFinally _ _) _ rest result final at second
  obtain ⟨_, _, ended, working, cleaning, rfl, body, block, _⟩ := runs_tryFinally second
  have prepared : Prepared executionId container (·.status = .created)
      { middle with stream := some .running } := ⟨⟨sandbox, .inl rfl⟩, starting⟩
  obtain ⟨_, rfl, outcome, held, row, found, terminal, records⟩ :=
    Returns.tryExcept (runSandbox_answers settings turns _) prepared body
      (List.forall_mem_append.mp works).1
  obtain ⟨⟨moment, member, deletes, beside⟩, kept⟩ := runs_cleanup_keepsRow block
  obtain ⟨code, exited, _⟩ := records.exitCode
  have settled : Settles executionId (SandboxIs container (· = outcome)) := by
    refine sandboxIs_settles_of_status ?_
    rintro _ rfl running
    cases exited.symm.trans running
  obtain ⟨_, newest, _, rfl⟩ := (settled beside held).newest
  exact ⟨moment, List.mem_append_right _ (List.mem_append_right _ member), deletes, _, newest, row,
    kept row terminal found, records⟩

/-- A run in which the services answer, every kill finds the sandbox running and no
output that is read has U+0000: each of its moments answers. -/
theorem answered_of_available {limit : Nat} {trace : List ExecMoment}
    (available : Available limit trace) (kills : ∀ moment ∈ trace, KillsRunning moment)
    (reads : ∀ moment ∈ trace, ¬ReadsNul limit moment) : ∀ moment ∈ trace, Answered moment := by
  intro moment member
  refine ⟨?_, kills moment member⟩
  rcases available moment member with done | waits | ⟨_, reading, read, nul⟩
  · exact .inl done
  · exact .inr waits
  · exact absurd nul (reads reading read)

/-- The recorded outcome is the real one where the services answer, every kill finds
the sandbox running, and the output that is read has no U+0000. -/
theorem real_outcome {settings : Settings} {turns : Nat} {start final : ExecState}
    {trace : List ExecMoment} {result : Except ExecExn Unit}
    (runs : Runs (Beside executionId) (process settings turns task executionId) start trace result
      final) (available : Available settings.outputLimit trace)
    (kills : ∀ moment ∈ trace, KillsRunning moment)
    (reads : ∀ moment ∈ trace, ¬ReadsNul settings.outputLimit moment) :
    RealOutcome settings.outputLimit executionId trace final := by
  intro claims
  have answered := answered_of_available available kills reads
  have transitions : Answers executionId
      (fun state => True ∧ (False → IsStarting executionId state))
      (transition task executionId .queued .starting) _ :=
    transition_answers .true (by decide) (by decide) False.elim
  rcases runs_bind (runs_modify_bind runs) with
    ⟨found, middle, earlier, later, rfl, first, second⟩ | ⟨_, _, first⟩
  · obtain ⟨claiming, working⟩ := List.forall_mem_append.mp answered
    obtain ⟨_, returned, _, claimed⟩ := transitions ⟨trivial, False.elim⟩ first claiming
    obtain rfl := Except.ok.inj returned
    cases found with
    | none =>
        obtain ⟨rfl, _, _⟩ := runs_pure second
        exact absurd (claims.append (transition_none first)) fun ⟨_, never, _⟩ => nomatch never
    | some row =>
        obtain ⟨_, row', found, reached⟩ := claimed rfl
        have starting : IsStarting executionId middle :=
          ⟨row', found, reached.resolve_right fun ⟨never, _⟩ => nomatch never⟩
        obtain ⟨moment, member, outcome⟩ := runJob_outcome starting second working
        exact ⟨moment, List.mem_append_right _ member, outcome⟩
  · obtain ⟨_, returned, _⟩ := transitions ⟨trivial, False.elim⟩ first answered
    cases returned

/-! ### Runs on a concrete host -/

private theorem storable_eq (row : ExecutionRow) : storable row =
    (row.stdout.all (fun text => decide ('\x00' ∉ text.toList)) &&
      row.stderr.all fun text => decide ('\x00' ∉ text.toList)) := by
  simp only [storable, String.contains_char_eq, decide_not]

private theorem hasNul_eq (limit : Nat) (container : Container) : container.hasNul limit =
    (decide ('\x00' ∈ (bounded limit container.stdout).toList) ||
      decide ('\x00' ∈ (bounded limit container.stderr).toList)) := by
  simp only [Container.hasNul, String.contains_char_eq]

private theorem failJob_eq (started : Nat) : failJob task executionId started = (fun exn => do
    modify (enterJob executionId .failing)
    finish task executionId {
      target := .failed
      stdout := ""
      stderr := exn.text
      exitCode := none
      elapsedMs := (← get).clock - started }) := rfl

/-- Some changes without a task, one after another. -/
def amid (changes : List ExecAmbient) (state : ExecState) : ExecState :=
  changes.foldl (fun state ambient => (change ambient state).getD state) state

private theorem beside_amid {changes : List ExecAmbient}
    (publishes : ∀ ambient ∈ changes, ∀ text, ambient ≠ .endStream (.failed text))
    (state : ExecState) : Beside executionId state (amid changes state) := by
  induction changes generalizing state with
  | nil => exact .refl state
  | cons ambient rest inductionHypothesis =>
      obtain ⟨first, others⟩ := List.forall_mem_cons.mp publishes
      have one : Beside executionId state ((change ambient state).getD state) := by
        cases changed : change ambient state with
        | none => exact .refl state
        | some after => exact beside_change changed first
      exact one.trans (inductionHypothesis others _)

/-- A run of a job among such changes. -/
def jobAmid (answers : List (List ExecAmbient × ExecEvent)) :
    Option (List ExecMoment × Except ExecExn Unit × ExecState) :=
  drivenAmong (process defaultSettings 1 1 0)
    (answers.map fun (changes, event) => (amid changes, event)) claimedState

private theorem runs_of_jobAmid {answers : List (List ExecAmbient × ExecEvent)}
    {trace : List ExecMoment}
    {result : Except ExecExn Unit} {final : ExecState}
    (publishes : ∀ answer ∈ answers, ∀ ambient ∈ answer.1, ∀ text,
      ambient ≠ .endStream (.failed text))
    (runs : jobAmid answers = some (trace, result, final)) :
    Runs (Beside 0) (process defaultSettings 1 1 0) claimedState trace result final := by
  refine runs_of_drivenAmong ?_ runs
  intro answer among state
  obtain ⟨given, member, rfl⟩ := List.mem_map.mp among
  exact beside_amid (publishes given member) state

/-- Nothing happens and the operations answer. -/
def quietly (count : Nat) : List (List ExecAmbient × ExecEvent) := List.replicate count ([], .done)

/-- The program of the sandbox writes until it is killed at the deadline. -/
def killedInTime : List (List ExecAmbient × ExecEvent) :=
  quietly 18 ++ [([.tick 30000, .write 2 [104, 105] []], .done), ([], .done),
    ([.endStream .returned], .done)] ++ quietly 10

/-- The program ends between the look at its status and the kill at the deadline. -/
def killedTooLate : List (List ExecAmbient × ExecEvent) :=
  quietly 18 ++ [([.tick 30000, .write 2 [104, 105] []], .done),
    ([.exit 2 0, .endStream .returned], .done)] ++ quietly 7

/-- The program writes U+0000 and ends, and PostgreSQL refuses the output. -/
def refusedOutput : List (List ExecAmbient × ExecEvent) :=
  quietly 17 ++ [([.write 2 [0] [], .exit 2 0, .endStream .returned], .done)] ++ quietly 6 ++
    [([], .raised "invalid byte sequence")] ++ quietly 7

private theorem publishes_of_all {answers : List (List ExecAmbient × ExecEvent)}
    (publishes : answers.all fun answer => answer.1.all fun ambient =>
      match ambient with
      | .endStream (.failed _) => false
      | _ => true) :
    ∀ answer ∈ answers, ∀ ambient ∈ answer.1, ∀ text, ambient ≠ .endStream (.failed text) := by
  rintro answer member ambient among text rfl
  cases List.all_eq_true.mp (List.all_eq_true.mp publishes answer member) _ among

/-- A sandbox that is killed at the deadline. -/
theorem real_outcome_killedInTime : ∃ trace result final,
    Runs (Beside 0) (process defaultSettings 1 1 0) claimedState trace result final ∧
      Claims trace ∧ RealOutcome defaultSettings.outputLimit 0 trace final := by
  have ends : (jobAmid killedInTime).any fun (trace, _, _) =>
      (trace.any fun moment => moment.call = .commit) ∧ trace.all fun moment =>
        moment.event = .done ∧
          (moment.call ≠ .kill ∨ moment.state.docker.newest.any (·.status = .running)) ∧
            (moment.call ≠ .logs ∨ moment.state.docker.newest.all fun sandbox =>
              '\x00' ∉ (bounded defaultSettings.outputLimit sandbox.stdout).toList ∧
                '\x00' ∉ (bounded defaultSettings.outputLimit sandbox.stderr).toList) := by
    simp only [jobAmid, process, transition, runJob, finish, failJob_eq, runSandbox, commitRow,
      storable_eq]
    decide +kernel
  obtain ⟨⟨trace, result, final⟩, ran, checked⟩ := (Option.any_eq_true _ _).mp ends
  obtain ⟨claims, moments⟩ := of_decide_eq_true checked
  have runs := runs_of_jobAmid (publishes_of_all (by decide)) ran
  have each := fun moment member => of_decide_eq_true (List.all_eq_true.mp moments moment member)
  refine ⟨trace, result, final, runs, ?_, real_outcome runs ?_ ?_ ?_⟩
  · obtain ⟨moment, member, commit⟩ := List.any_eq_true.mp claims
    exact ⟨moment, member, of_decide_eq_true commit⟩
  · exact fun moment member => .inl (each moment member).1
  · intro moment member kills
    obtain ⟨sandbox, newest, running⟩ :=
      (Option.any_eq_true _ _).mp ((each moment member).2.1.resolve_left (not_not.mpr kills))
    exact ⟨sandbox, newest, of_decide_eq_true running⟩
  · rintro moment member ⟨reads, sandbox, newest, nul⟩
    have text := (each moment member).2.2.resolve_left (not_not.mpr reads)
    rw [newest] at text
    obtain ⟨stdout, stderr⟩ := of_decide_eq_true text
    rw [hasNul_eq, decide_eq_false stdout, decide_eq_false stderr] at nul
    cases nul

/-- The row of a sandbox that has returned 0 is `FAILED`. -/
theorem not_realOutcome {limit : Nat} {trace : List ExecMoment} {final : ExecState}
    (claims : trace.any (·.call = .commit))
    (exits : trace.all fun moment => moment.call ≠ .deleteKey ∨
      moment.state.docker.newest.all (·.status = .exited 0))
    (fails : (final.rows executionId).all (·.status = .failed)) :
    ¬RealOutcome limit executionId trace final := by
  intro outcome
  obtain ⟨claim, claiming, commit⟩ := List.any_eq_true.mp claims
  obtain ⟨moment, member, deletes, sandbox, newest, row, found, records⟩ :=
    outcome ⟨claim, claiming, of_decide_eq_true commit⟩
  have exited := (of_decide_eq_true (List.all_eq_true.mp exits moment member)).resolve_left
    (not_not.mpr deletes)
  rw [newest] at exited
  rw [found] at fails
  obtain ⟨code, status, _, nonzero⟩ := records.exitCode
  obtain rfl := ContainerStatus.exited.inj (status.symm.trans (of_decide_eq_true exited))
  exact nonzero (of_decide_eq_true fails) rfl

/-- A program that ends well between the look at its status and the kill. -/
theorem ended_sandbox_failed : ∃ trace result final,
    Runs (Beside 0) (process defaultSettings 1 1 0) claimedState trace result final ∧
      Available defaultSettings.outputLimit trace ∧
        ¬RealOutcome defaultSettings.outputLimit 0 trace final := by
  have ends : (jobAmid killedTooLate).any fun (trace, _, final) =>
      (trace.all fun moment => moment.event = .done) ∧ (trace.any (·.call = .commit)) ∧
        (trace.all fun moment => moment.call ≠ .deleteKey ∨
          moment.state.docker.newest.all (·.status = .exited 0)) ∧
            (final.rows 0).all (·.status = .failed) := by
    simp only [jobAmid, process, transition, runJob, finish, failJob_eq, runSandbox, commitRow,
      storable_eq]
    decide +kernel
  obtain ⟨⟨trace, result, final⟩, ran, checked⟩ := (Option.any_eq_true _ _).mp ends
  obtain ⟨answers, claims, exits, fails⟩ := of_decide_eq_true checked
  refine ⟨trace, result, final, runs_of_jobAmid (publishes_of_all (by decide)) ran, ?_,
    not_realOutcome claims exits fails⟩
  exact fun moment member => .inl (of_decide_eq_true (List.all_eq_true.mp answers moment member))

/-- A program that writes U+0000 and ends well. -/
theorem refused_output_failed : ∃ trace result final,
    Runs (Beside 0) (process defaultSettings 1 1 0) claimedState trace result final ∧
      Available defaultSettings.outputLimit trace ∧
        ¬RealOutcome defaultSettings.outputLimit 0 trace final := by
  have ends : (jobAmid refusedOutput).any fun (trace, _, final) =>
      (trace.all fun moment => moment.event = .done ∨ moment.call = .commit) ∧
        (trace.any fun moment => moment.call = .logs ∧ moment.state.docker.newest.any fun sandbox =>
          '\x00' ∈ (bounded defaultSettings.outputLimit sandbox.stdout).toList) ∧
            (trace.any (·.call = .commit)) ∧
              (trace.all fun moment => moment.call ≠ .deleteKey ∨
                moment.state.docker.newest.all (·.status = .exited 0)) ∧
                  (final.rows 0).all (·.status = .failed) := by
    simp only [jobAmid, process, transition, runJob, finish, failJob_eq, runSandbox, commitRow,
      storable_eq]
    decide +kernel
  obtain ⟨⟨trace, result, final⟩, ran, checked⟩ := (Option.any_eq_true _ _).mp ends
  obtain ⟨answers, reads, claims, exits, fails⟩ := of_decide_eq_true checked
  refine ⟨trace, result, final, runs_of_jobAmid (publishes_of_all (by decide)) ran, ?_,
    not_realOutcome claims exits fails⟩
  obtain ⟨reading, member, read⟩ := List.any_eq_true.mp reads
  obtain ⟨logs, sandbox⟩ := of_decide_eq_true read
  obtain ⟨sandbox, newest, nul⟩ := (Option.any_eq_true _ _).mp sandbox
  have readsNul : ReadsNul defaultSettings.outputLimit reading := by
    refine ⟨logs, sandbox, newest, ?_⟩
    rw [hasNul_eq, nul, Bool.true_or]
  intro moment among
  rcases of_decide_eq_true (List.all_eq_true.mp answers moment among) with done | commit
  · exact .inl done
  · exact .inr (.inr ⟨commit, reading, member, readsNul⟩)

end Concord.Execution

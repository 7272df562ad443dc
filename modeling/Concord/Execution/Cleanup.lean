import Concord.Asyncio.OwnSteps
import Concord.Execution.Worker

/-!
Contract: what a job leaves behind at the Docker daemon.

Owns:
- `ledger`, the resources that were created and the removals that were attempted;
- what each part of `process` adds to the ledger, on each of its exits;
- `sandboxes_are_removed`, which says when a job has attempted the removal of all
  that it created.

The `finally` block of `process` deletes the cancellation key first. Where that
raises, nothing after it runs.

Does not own: what `_cleanup_orphans` removes when a worker starts again.
-/

set_option autoImplicit false

namespace Concord.Execution

open Asyncio ExecState

variable {α β : Type} {task : TaskId}

abbrev ExecMoment := Moment ExecState ExecEvent ExecCall

/-- The history of the resources, and the name of the next one. -/
def ledger (state : ExecState) : List Resource × List Resource × Nat :=
  (state.docker.created, state.docker.removals, state.docker.nextId)

/-- What the others do while a job is suspended: the API has no Docker client, so
they neither create nor remove a resource. -/
def Untouched (before after : ExecState) : Prop := ledger after = ledger before

/-- A sandbox container was created in a run. -/
def SandboxCreated (trace : List ExecMoment) : Prop :=
  ∃ moment ∈ trace, moment.call = .createSandbox ∧ moment.event = .done

/-- The deletion of the cancellation key has raised in a run. -/
def KeyDeletionRaised (trace : List ExecMoment) : Prop :=
  ∃ moment ∈ trace, moment.call = .deleteKey ∧ moment.event ≠ .done

private theorem sandboxCreated_append {earlier later : List ExecMoment} :
    SandboxCreated (earlier ++ later) ↔ SandboxCreated earlier ∨ SandboxCreated later := by
  simp only [SandboxCreated, List.mem_append, or_and_right, exists_or]

private theorem keyDeletionRaised_append {earlier later : List ExecMoment} :
    KeyDeletionRaised (earlier ++ later) ↔ KeyDeletionRaised earlier ∨ KeyDeletionRaised later := by
  simp only [KeyDeletionRaised, List.mem_append, or_and_right, exists_or]

/-! ### Awaited operations -/

section Operations

variable {env : ExecState → ExecState → Prop} {start final : ExecState} {trace : List ExecMoment}
  {result : Except ExecExn α}

/-- A run of an operation, which no crash has cut off. -/
theorem runs_operation {call : ExecCall}
    {act : ExecEvent → ExecState → Option (Except ExecExn α × ExecState)}
    (runs : Runs env (operation task call act) start trace result final) :
    ∃ state event, trace = [⟨call, start, state, event⟩] ∧ env start state ∧
      act event state = some (result, final) := by
  obtain ⟨state, event, answer, after, rest, rfl, framed, taken, runs⟩ := runs
  dsimp only at taken
  split at taken
  · -- A task whose process has died does not end.
    obtain ⟨rfl, rfl⟩ := Prod.mk.inj (Option.some.inj taken)
    obtain ⟨_, _, _, _, _, _, _, never, _⟩ := runs
    cases never
  · obtain ⟨⟨answer, after⟩, acted, same⟩ := Option.map_eq_some_iff.mp taken
    obtain ⟨rfl, rfl⟩ := Prod.mk.inj same
    cases answer with
    | ok value =>
        obtain ⟨rfl, rfl, rfl⟩ := runs
        exact ⟨state, event, rfl, framed, acted⟩
    | error exn =>
        obtain ⟨rfl, rfl, rfl⟩ := runs
        exact ⟨state, event, rfl, framed, acted⟩

/-- A Docker call that returns took effect; one that raises was refused by the
daemon or by the transport. -/
theorem runs_dockerCall {call : ExecCall}
    {effect : ExecState → Option (Except ExecExn α × ExecState)}
    (runs : Runs env (dockerCall task call effect) start trace result final) :
    ∃ state event, trace = [⟨call, start, state, event⟩] ∧ env start state ∧
      (event = .done ∧ effect state = some (result, final) ∨
        event ≠ .done ∧ final = state ∧ ∃ exn, result = .error exn) := by
  obtain ⟨state, event, rfl, framed, taken⟩ := runs_operation runs
  refine ⟨state, event, rfl, framed, ?_⟩
  cases event with
  | done => exact .inl ⟨rfl, taken⟩
  | raised text =>
      obtain ⟨rfl, rfl⟩ := Prod.mk.inj (Option.some.inj taken)
      exact .inr ⟨ExecEvent.noConfusion, rfl, _, rfl⟩
  | _ => cases taken

/-- A database or Redis call that returns took effect. -/
theorem runs_serverCall {call : ExecCall} {effect : ExecState → Option (α × ExecState)}
    (runs : Runs env (serverCall task call effect) start trace result final) :
    ∃ state event, trace = [⟨call, start, state, event⟩] ∧ env start state ∧
      ((∃ value, event = .done ∧ effect state = some (value, final) ∧ result = .ok value) ∨
        ∃ exn, event ≠ .done ∧ result = .error exn ∧
          (final = state ∨ ∃ value, effect state = some (value, final))) := by
  obtain ⟨state, event, rfl, framed, taken⟩ := runs_operation runs
  refine ⟨state, event, rfl, framed, ?_⟩
  split at taken
  · cases taken
  · next value after effected =>
      obtain ⟨rfl, rfl⟩ := Prod.mk.inj (Option.some.inj taken)
      exact .inl ⟨value, rfl, effected, rfl⟩
  · obtain ⟨rfl, rfl⟩ := Prod.mk.inj (Option.some.inj taken)
    exact .inr ⟨_, ExecEvent.noConfusion, rfl, .inl rfl⟩
  · next value after effected =>
      obtain ⟨rfl, rfl⟩ := Prod.mk.inj (Option.some.inj taken)
      exact .inr ⟨_, ExecEvent.noConfusion, rfl, .inr ⟨value, effected⟩⟩
  · obtain ⟨rfl, rfl⟩ := Prod.mk.inj (Option.some.inj taken)
    exact .inr ⟨_, ExecEvent.noConfusion, rfl, .inl rfl⟩
  · next value after effected =>
      obtain ⟨rfl, rfl⟩ := Prod.mk.inj (Option.some.inj taken)
      exact .inr ⟨_, ExecEvent.noConfusion, rfl, .inr ⟨value, effected⟩⟩
  · cases taken

end Operations

/-- Neither a sandbox is created nor a cancellation key deleted in a run. -/
def Plain (trace : List ExecMoment) : Prop :=
  ∀ moment ∈ trace, moment.call ≠ .createSandbox ∧ moment.call ≠ .deleteKey

theorem Plain.append {earlier later : List ExecMoment} (one : Plain earlier) (two : Plain later) :
    Plain (earlier ++ later) :=
  List.forall_mem_append.mpr ⟨one, two⟩

theorem Plain.not_sandboxCreated {trace : List ExecMoment} (plain : Plain trace) :
    ¬SandboxCreated trace :=
  fun ⟨moment, member, created, _⟩ => (plain moment member).1 created

theorem Plain.not_keyDeletionRaised {trace : List ExecMoment} (plain : Plain trace) :
    ¬KeyDeletionRaised trace :=
  fun ⟨moment, member, deleted, _⟩ => (plain moment member).2 deleted

/-! ### Parts that leave the ledger alone -/

/-- A plain run that leaves the ledger alone. -/
def QuietRun (start : ExecState) (trace : List ExecMoment) (final : ExecState) : Prop :=
  ledger final = ledger start ∧ Plain trace

private theorem quietRun_composes : Composes QuietRun where
  refl _ := ⟨rfl, List.forall_mem_nil _⟩
  trans _ _ _ _ _ one two := ⟨two.1.trans one.1, one.2.append two.2⟩

/-- A part of a job all of whose runs are quiet. -/
abbrev Quiet (program : ExecProgram α) : Prop := Along Untouched QuietRun program

private theorem quiet_operation {call : ExecCall}
    {act : ExecEvent → ExecState → Option (Except ExecExn α × ExecState)}
    (other : call ≠ .createSandbox ∧ call ≠ .deleteKey)
    (same : ∀ event state result after, act event state = some (result, after) →
      ledger after = ledger state) : Quiet (operation task call act) := by
  intro start trace result final runs
  obtain ⟨state, event, rfl, framed, taken⟩ := runs_operation runs
  exact ⟨(same _ _ _ _ taken).trans framed, List.forall_mem_singleton.mpr other⟩

private theorem quiet_dockerCall {call : ExecCall}
    {effect : ExecState → Option (Except ExecExn α × ExecState)}
    (other : call ≠ .createSandbox ∧ call ≠ .deleteKey)
    (same : ∀ state result after, effect state = some (result, after) →
      ledger after = ledger state) : Quiet (dockerCall task call effect) := by
  intro start trace result final runs
  obtain ⟨state, event, rfl, framed, ⟨_, effected⟩ | ⟨_, rfl, _⟩⟩ := runs_dockerCall runs
  · exact ⟨(same _ _ _ effected).trans framed, List.forall_mem_singleton.mpr other⟩
  · exact ⟨framed, List.forall_mem_singleton.mpr other⟩

private theorem quiet_serverCall {call : ExecCall} {effect : ExecState → Option (α × ExecState)}
    (other : call ≠ .createSandbox ∧ call ≠ .deleteKey)
    (same : ∀ state value after, effect state = some (value, after) →
      ledger after = ledger state) : Quiet (serverCall task call effect) := by
  intro start trace result final runs
  obtain ⟨state, event, rfl, framed, ⟨_, _, effected, _⟩ | ⟨_, _, _, rfl | ⟨_, effected⟩⟩⟩ :=
    runs_serverCall runs
  · exact ⟨(same _ _ _ effected).trans framed, List.forall_mem_singleton.mpr other⟩
  · exact ⟨framed, List.forall_mem_singleton.mpr other⟩
  · exact ⟨(same _ _ _ effected).trans framed, List.forall_mem_singleton.mpr other⟩

private theorem quiet_modify {update : ExecState → ExecState}
    (same : ∀ state, ledger (update state) = ledger state) : Quiet (modify update) := by
  intro start trace result final runs
  obtain ⟨rfl, _, rfl⟩ := runs_modifyGet runs
  exact ⟨same start, List.forall_mem_nil _⟩

private theorem quiet_withSession {body : ExecProgram α} (quiet : Quiet body) :
    Quiet (withSession task body) :=
  quietRun_composes.tryFinally quiet (quiet_modify fun _ => rfl)

private theorem quiet_suppress {body : ExecProgram Unit} (quiet : Quiet body) :
    Quiet (suppress body) :=
  quietRun_composes.tryExcept quiet fun _ => quietRun_composes.pure ()

private theorem quiet_ofExcept (result : Except ExecExn α) : Quiet (ofExcept result) := by
  cases result with
  | ok value => exact quietRun_composes.pure value
  | error exn => exact quietRun_composes.throw exn

/-! ### The quiet parts of a job -/

private theorem selectForUpdate_quiet (executionId : ExecutionId) (matching : ExecutionRow → Bool) :
    Quiet (selectForUpdate task executionId matching) := by
  refine quiet_serverCall (by decide) ?_
  intro state value after effected
  split at effected
  · cases effected
    rfl
  · split at effected <;> cases effected
    rfl

private theorem commitRow_quiet (executionId : ExecutionId) (row : ExecutionRow) :
    Quiet (commitRow task executionId row) := by
  refine quiet_operation (by decide) ?_
  intro event state result after taken
  split at taken <;> cases taken <;> rfl

private theorem refresh_quiet (executionId : ExecutionId) : Quiet (refresh task executionId) := by
  refine quiet_operation (by decide) ?_
  intro event state result after taken
  split at taken <;> cases taken <;> rfl

private theorem publish_quiet (executionId : ExecutionId) (row : ExecutionRow) :
    Quiet (publish task executionId row) := by
  refine quiet_serverCall (by decide) ?_
  rintro state _ _ ⟨⟩
  rfl

private theorem transition_quiet (executionId : ExecutionId) (expected target : ExecutionStatus) :
    Quiet (transition task executionId expected target) := by
  refine quiet_withSession (quietRun_composes.bind (selectForUpdate_quiet executionId _) ?_)
  intro found
  cases found with
  | none => exact quietRun_composes.pure none
  | some row =>
      dsimp only
      split
      · exact quietRun_composes.pure none
      · refine quietRun_composes.bind (quiet_ofExcept _) fun row => ?_
        refine quietRun_composes.bind (commitRow_quiet executionId row) fun _ => ?_
        refine quietRun_composes.bind (refresh_quiet executionId) fun row => ?_
        refine quietRun_composes.bind (publish_quiet executionId row) fun _ => ?_
        exact quietRun_composes.pure _

private theorem finish_quiet (executionId : ExecutionId) (outcome : Outcome) :
    Quiet (finish task executionId outcome) := by
  refine quiet_withSession (quietRun_composes.bind (selectForUpdate_quiet executionId _) ?_)
  intro found
  cases found with
  | none => exact quietRun_composes.pure ()
  | some row =>
      refine quietRun_composes.bind quietRun_composes.get fun state => ?_
      refine quietRun_composes.bind (quiet_ofExcept _) fun row => ?_
      refine quietRun_composes.bind (commitRow_quiet executionId row) fun _ => ?_
      refine quietRun_composes.bind (refresh_quiet executionId) fun row => ?_
      exact publish_quiet executionId row

private theorem failJob_quiet (executionId : ExecutionId) (started : Nat) (exn : ExecExn) :
    Quiet (failJob task executionId started exn) := by
  refine quietRun_composes.bind (quiet_modify fun _ => rfl) fun _ => ?_
  exact quietRun_composes.bind quietRun_composes.get fun _ => finish_quiet executionId _

private theorem pause_quiet : Quiet (pause task) := by
  refine quiet_operation (by decide) ?_
  intro event state result after taken
  split at taken <;> cases taken
  rfl

private theorem ensureImage_quiet (image : String) : Quiet (ensureImage task image) := by
  refine quietRun_composes.tryExcept (quiet_operation (by decide) ?_) fun exn => ?_
  · intro event state result after taken
    cases event with
    | done =>
        dsimp only at taken
        split at taken <;> cases taken <;> rfl
    | raised text =>
        cases taken
        rfl
    | _ => cases taken
  · cases exn with
    | imageNotFound =>
        refine quiet_dockerCall (by decide) ?_
        rintro state _ _ ⟨⟩
        rfl
    | _ => exact quietRun_composes.throw _

private theorem putArchive_quiet (volume : Nat) (filename code : String) :
    Quiet (putArchive task volume filename code) := by
  refine quiet_dockerCall (by decide) ?_
  rintro state _ _ ⟨⟩
  rfl

private theorem kill_quiet (container : Nat) : Quiet (kill task container) := by
  refine quiet_dockerCall (by decide) ?_
  intro state result after effected
  split at effected <;> cases effected <;> rfl

private theorem startSandbox_quiet (executionId : ExecutionId) (container : Nat) :
    Quiet (startSandbox task executionId container) := by
  refine quietRun_composes.bind (quiet_modify fun _ => rfl) fun _ => ?_
  refine quiet_dockerCall (by decide) ?_
  rintro state _ _ ⟨⟩
  rfl

private theorem waitContainer_quiet (container : Nat) : Quiet (waitContainer task container) := by
  refine quiet_dockerCall (by decide) ?_
  intro state result after effected
  split at effected <;> cases effected
  rfl

private theorem logs_quiet (container : Nat) (output : Container → List UInt8) :
    Quiet (logs task container output) := by
  refine quiet_dockerCall (by decide) ?_
  rintro state _ _ ⟨⟩
  rfl

private theorem monitor_quiet (executionId : ExecutionId) (container deadline turns : Nat) :
    Quiet (monitor task executionId container deadline turns) := by
  induction turns with
  | zero =>
      intro start trace result final runs
      obtain ⟨_, _, _, _, _, _, _, never, _⟩ := runs
      cases never
  | succ turns inductionHypothesis =>
      rw [monitor]
      refine quietRun_composes.bind (quiet_serverCall (by decide) ?_) fun requested => ?_
      · rintro state _ _ ⟨⟩
        rfl
      · split
        · exact quietRun_composes.bind (kill_quiet container) fun _ => quietRun_composes.pure _
        · refine quietRun_composes.bind (quiet_dockerCall (by decide) ?_) fun status => ?_
          · rintro state _ _ ⟨⟩
            rfl
          · split
            · exact quietRun_composes.pure none
            · refine quietRun_composes.bind quietRun_composes.get fun state => ?_
              split
              · exact quietRun_composes.bind (kill_quiet container) fun _ => quietRun_composes.pure _
              · exact quietRun_composes.bind pause_quiet fun _ => inductionHypothesis

private theorem awaitStream_quiet : Quiet (awaitStream task) := by
  refine quiet_operation (by decide) ?_
  intro event state result after taken
  split at taken <;> cases taken <;> rfl

private theorem waitForStream_quiet : Quiet (waitForStream task) := by
  refine quiet_operation (by decide) ?_
  intro event state result after taken
  cases event with
  | done =>
      dsimp only at taken
      split at taken <;> cases taken
      rfl
  | raised text =>
      cases taken
      rfl
  | _ => cases taken

private theorem runSandbox_quiet (settings : Settings) (turns : Nat) (executionId : ExecutionId)
    (started container : Nat) :
    Quiet (runSandbox settings turns task executionId started container) := by
  refine quietRun_composes.bind pause_quiet fun _ => ?_
  refine quietRun_composes.bind (startSandbox_quiet executionId container) fun _ => ?_
  refine quietRun_composes.bind (transition_quiet executionId .starting .running) fun found => ?_
  cases found with
  | none => exact kill_quiet container
  | some row =>
      refine quietRun_composes.bind quietRun_composes.get fun state => ?_
      refine quietRun_composes.bind (monitor_quiet executionId container _ turns) fun forced => ?_
      refine quietRun_composes.bind (waitContainer_quiet container) fun exitCode => ?_
      refine quietRun_composes.bind awaitStream_quiet fun _ => ?_
      refine quietRun_composes.bind (logs_quiet container _) fun stdout => ?_
      refine quietRun_composes.bind (logs_quiet container _) fun stderr => ?_
      refine quietRun_composes.bind quietRun_composes.get fun state => ?_
      exact finish_quiet executionId _

/-! ### What is created and what is removed -/

/-- What a run adds to the ledger. -/
structure Adds (start final : ExecState) (created removals : List Resource) : Prop where
  created : final.docker.created = created ++ start.docker.created
  removals : final.docker.removals = removals ++ start.docker.removals
  nextId : start.docker.nextId ≤ final.docker.nextId

private theorem adds_of_ledger {start final : ExecState} (same : ledger final = ledger start) :
    Adds start final [] [] :=
  ⟨congrArg (·.1) same, congrArg (·.2.1) same, (congrArg (·.2.2) same).ge⟩

theorem Adds.trans {start middle final : ExecState} {created created' removals removals' : List Resource}
    (one : Adds start middle created removals) (two : Adds middle final created' removals') :
    Adds start final (created' ++ created) (removals' ++ removals) where
  created := by rw [two.created, one.created, List.append_assoc]
  removals := by rw [two.removals, one.removals, List.append_assoc]
  nextId := one.nextId.trans two.nextId

section Acquisition

variable {start final : ExecState} {trace : List ExecMoment}

private theorem runs_createVolume {result : Except ExecExn Nat}
    (runs : Runs Untouched (createVolume task) start trace result final) :
    Plain trace ∧
      ((∃ exn, result = .error exn ∧ Adds start final [] []) ∨
        ∃ volume, result = .ok volume ∧ Adds start final [.volume volume] []) := by
  obtain ⟨state, event, rfl, framed, ⟨_, effected⟩ | ⟨_, rfl, exn, rfl⟩⟩ := runs_dockerCall runs
  · obtain ⟨rfl, rfl⟩ := Prod.mk.inj (Option.some.inj effected)
    have before := adds_of_ledger framed
    refine ⟨List.forall_mem_singleton.mpr ⟨nofun, nofun⟩, .inr ⟨_, rfl, ?_, before.removals, ?_⟩⟩
    · exact congrArg (Resource.volume state.docker.nextId :: ·) before.created
    · exact before.nextId.trans (Nat.le_succ _)
  · exact ⟨List.forall_mem_singleton.mpr ⟨nofun, nofun⟩, .inl ⟨exn, rfl, adds_of_ledger framed⟩⟩

private theorem runs_createContainerCall {call : ExecCall} {result : Except ExecExn Nat}
    (runs : Runs Untouched (createContainerCall task call) start trace result final) :
    ∃ state event, trace = [⟨call, start, state, event⟩] ∧
      ((∃ exn, event ≠ .done ∧ result = .error exn ∧ Adds start final [] []) ∨
        ∃ container, event = .done ∧ result = .ok container ∧
          start.docker.nextId ≤ container ∧ container < final.docker.nextId ∧
            Adds start final [.container container] []) := by
  obtain ⟨state, event, rfl, framed, ⟨rfl, effected⟩ | ⟨raised, rfl, exn, rfl⟩⟩ :=
    runs_dockerCall runs
  · obtain ⟨rfl, rfl⟩ := Prod.mk.inj (Option.some.inj effected)
    have before := adds_of_ledger framed
    refine ⟨state, _, rfl, .inr ⟨_, rfl, rfl, before.nextId, Nat.lt_succ_self _, ?_,
      before.removals, before.nextId.trans (Nat.le_succ _)⟩⟩
    exact congrArg (Resource.container state.docker.nextId :: ·) before.created
  · exact ⟨final, event, rfl, .inl ⟨exn, raised, rfl, adds_of_ledger framed⟩⟩

/-- A removal counts as attempted on both of its exits. -/
theorem runs_removeResource {resource : Resource} {result : Except ExecExn Unit}
    (runs : Runs Untouched (removeResource task resource) start trace result final) :
    Plain trace ∧ Adds start final [] [resource] := by
  obtain ⟨state, event, rfl, framed, taken⟩ := runs_operation runs
  have before := adds_of_ledger framed
  have attempted : ledger final = ledger { state with docker := state.docker.attempt resource } := by
    cases event with
    | done =>
        obtain ⟨_, rfl⟩ := Prod.mk.inj (Option.some.inj taken)
        cases resource <;> rfl
    | raised text =>
        obtain ⟨_, rfl⟩ := Prod.mk.inj (Option.some.inj taken)
        rfl
    | _ => cases taken
  have after := adds_of_ledger attempted
  refine ⟨?_, after.created.trans before.created, ?_, before.nextId.trans after.nextId⟩
  · refine List.forall_mem_singleton.mpr ?_
    cases resource <;> exact ⟨nofun, nofun⟩
  · exact after.removals.trans (congrArg (resource :: ·) before.removals)

/-- The writer is removed where it was created, whether or not the code was put
into the volume. -/
theorem runs_populateVolume {volume : Nat} {filename code : String} {result : Except ExecExn Unit}
    (runs : Runs Untouched (populateVolume task volume filename code) start trace result final) :
    Plain trace ∧
      ((∃ exn, result = .error exn ∧ Adds start final [] []) ∨
        ∃ writer, writer < final.docker.nextId ∧
          Adds start final [.container writer] [.container writer]) := by
  rcases runs_bind runs with ⟨writer, middle, earlier, later, rfl, first, second⟩ | ⟨exn, rfl, first⟩
  · obtain ⟨state, event, rfl, ⟨_, _, raised, _⟩ | ⟨_, _, returned, _, below, created⟩⟩ :=
      runs_createContainerCall first
    · cases raised
    · obtain rfl := Except.ok.inj returned
      obtain ⟨_, _, _, put, removed, rfl, body, cleaning, _⟩ := runs_tryFinally second
      have quiet := putArchive_quiet volume filename code body
      obtain ⟨plain, removal⟩ := runs_removeResource cleaning
      have added := (created.trans (adds_of_ledger quiet.1)).trans removal
      have sent : Plain [⟨.createWriter, start, state, event⟩] :=
        List.forall_mem_singleton.mpr ⟨nofun, nofun⟩
      refine ⟨sent.append (quiet.2.append plain), .inr ⟨writer, ?_, added⟩⟩
      exact below.trans_le ((adds_of_ledger quiet.1).trans removal).nextId
  · obtain ⟨state, event, rfl, ⟨_, _, _, same⟩ | ⟨_, _, returned, _⟩⟩ :=
      runs_createContainerCall first
    · exact ⟨List.forall_mem_singleton.mpr ⟨nofun, nofun⟩, .inl ⟨exn, rfl, same⟩⟩
    · cases returned

/-- Where the body raises, the removal of the volume is attempted. -/
theorem runs_orRemoveVolume {volume : Nat} {body : ExecProgram α} {result : Except ExecExn α}
    (runs : Runs Untouched (orRemoveVolume task volume body) start trace result final) :
    (∃ value, result = .ok value ∧ Runs Untouched body start trace (.ok value) final) ∨
      ∃ exn exn' middle earlier later, trace = earlier ++ later ∧ result = .error exn' ∧
        Runs Untouched body start earlier (.error exn) middle ∧ Plain later ∧
          Adds middle final [] [.volume volume] := by
  rcases runs_tryExcept runs with returned | ⟨exn, middle, earlier, later, rfl, first, second⟩
  · exact .inl returned
  · rcases runs_bind second with ⟨_, _, removed, rest, rfl, removal, raised⟩ | ⟨exn', rfl, removal⟩
    · obtain ⟨rfl, rfl, rfl⟩ := runs_throw raised
      rw [List.append_nil] at *
      obtain ⟨plain, adds⟩ := runs_removeResource removal
      exact .inr ⟨exn, exn, middle, earlier, removed, rfl, rfl, first, plain, adds⟩
    · obtain ⟨plain, adds⟩ := runs_removeResource removal
      exact .inr ⟨exn, exn', middle, earlier, later, rfl, rfl, first, plain, adds⟩

/-- The volume with its code: a failure removes what there is, the writer too. -/
theorem runs_populated {volume : Nat} {filename code : String} {result : Except ExecExn Unit}
    (runs : Runs Untouched (orRemoveVolume task volume (populateVolume task volume filename code))
      start trace result final) :
    Plain trace ∧
      ((∃ exn created removals, result = .error exn ∧ Adds start final created removals ∧
          (∀ resource ∈ .volume volume :: created, resource ∈ removals)) ∨
        ∃ writer, result = .ok () ∧ writer < final.docker.nextId ∧
          Adds start final [.container writer] [.container writer]) := by
  rcases runs_orRemoveVolume runs with
    ⟨value, rfl, body⟩ | ⟨exn, exn', middle, earlier, later, rfl, rfl, body, plain, removal⟩
  · obtain ⟨plain, ⟨_, raised, _⟩ | ⟨writer, below, added⟩⟩ := runs_populateVolume body
    · cases raised
    · exact ⟨plain, .inr ⟨writer, rfl, below, added⟩⟩
  · obtain ⟨sent, outcome⟩ := runs_populateVolume body
    refine ⟨sent.append plain, .inl ?_⟩
    rcases outcome with ⟨_, _, same⟩ | ⟨writer, _, added⟩
    · exact ⟨exn', _, _, rfl, same.trans removal, fun _ member => member⟩
    · exact ⟨exn', _, _, rfl, added.trans removal, fun _ member => member⟩

/-- The sandbox container: where it cannot be created, its volume is removed. -/
theorem runs_sandboxed {volume : Nat} {result : Except ExecExn (Nat × Nat)}
    (runs : Runs Untouched (orRemoveVolume task volume do
        let container ← createContainerCall task .createSandbox
        pure (container, volume)) start trace result final) :
    ¬KeyDeletionRaised trace ∧
      ((∃ exn, result = .error exn ∧ ¬SandboxCreated trace ∧
          Adds start final [] [.volume volume]) ∨
        ∃ container, result = .ok (container, volume) ∧ SandboxCreated trace ∧
          start.docker.nextId ≤ container ∧ Adds start final [.container container] []) := by
  -- The one call of the body does not delete a key.
  have kept : ∀ {state event}, ¬KeyDeletionRaised [⟨.createSandbox, start, state, event⟩] := by
    rintro state event ⟨moment, member, deleted, _⟩
    obtain rfl := List.mem_singleton.mp member
    cases deleted
  rcases runs_orRemoveVolume runs with
    ⟨pair, rfl, body⟩ | ⟨_, exn, _, _, _, rfl, rfl, body, plain, removal⟩
  · rcases runs_bind body with ⟨container, _, _, _, rfl, call, ended⟩ | ⟨_, raised, _⟩
    · obtain ⟨rfl, returned, rfl⟩ := runs_pure ended
      obtain rfl := Except.ok.inj returned
      obtain ⟨state, _, rfl, ⟨_, _, raised, _⟩ | ⟨_, rfl, returned, fresh, _, added⟩⟩ :=
        runs_createContainerCall call
      · cases raised
      · obtain rfl := Except.ok.inj returned
        exact ⟨kept, .inr ⟨container, rfl, ⟨_, List.mem_cons_self, rfl, rfl⟩, fresh, added⟩⟩
    · cases raised
  · rcases runs_bind body with ⟨_, _, _, _, _, _, ended⟩ | ⟨_, _, call⟩
    · cases (runs_pure ended).2.1
    · obtain ⟨state, _, rfl, ⟨_, failed, _, same⟩ | ⟨_, _, returned, _⟩⟩ :=
        runs_createContainerCall call
      · refine ⟨?_, .inl ⟨exn, rfl, ?_, same.trans removal⟩⟩
        · rw [keyDeletionRaised_append, not_or]
          exact ⟨kept, plain.not_keyDeletionRaised⟩
        · rw [sandboxCreated_append, not_or]
          refine ⟨?_, plain.not_sandboxCreated⟩
          rintro ⟨moment, member, _, done⟩
          obtain rfl := List.mem_singleton.mp member
          exact failed done
      · cases returned

/-- The ends of `_create_container`: it raises and has removed all that it created,
or it returns a sandbox and has removed the writer. -/
inductive Creation (start : ExecState) (trace : List ExecMoment) :
    Except ExecExn (Nat × Nat) → ExecState → Prop where
  | stopped {exn created removals final} (absent : ¬SandboxCreated trace)
      (adds : Adds start final created removals)
      (covered : ∀ resource ∈ created, resource ∈ removals) : Creation start trace (.error exn) final
  | sandbox {container writer volume final} (present : SandboxCreated trace)
      (distinct : writer ≠ container)
      (adds : Adds start final [.container container, .container writer, .volume volume]
        [.container writer]) : Creation start trace (.ok (container, volume)) final

/-- A failure before the sandbox. -/
theorem creation_stopped {exn : ExecExn} {created removals : List Resource} (plain : Plain trace)
    (adds : Adds start final created removals) (covered : ∀ resource ∈ created, resource ∈ removals) :
    ¬KeyDeletionRaised trace ∧ Creation start trace (.error exn) final :=
  ⟨plain.not_keyDeletionRaised, .stopped plain.not_sandboxCreated adds covered⟩

private theorem runs_createContainer {row : ExecutionRow} {result : Except ExecExn (Nat × Nat)}
    (runs : Runs Untouched (createContainer task row) start trace result final) :
    ¬KeyDeletionRaised trace ∧ Creation start trace result final := by
  rcases runs_bind runs with ⟨_, _, pulled, _, rfl, first, second⟩ | ⟨exn, rfl, first⟩
  swap
  · obtain ⟨same, plain⟩ := ensureImage_quiet _ first
    exact creation_stopped plain (adds_of_ledger same) (List.forall_mem_nil _)
  obtain ⟨same, pulledPlain⟩ := ensureImage_quiet _ first
  rcases runs_bind second with ⟨volume, _, made, _, rfl, third, fourth⟩ | ⟨exn, rfl, third⟩
  swap
  · obtain ⟨plain, ⟨_, _, added⟩ | ⟨_, returned, _⟩⟩ := runs_createVolume third
    · exact creation_stopped (pulledPlain.append plain) ((adds_of_ledger same).trans added)
        (List.forall_mem_nil _)
    · cases returned
  obtain ⟨madePlain, ⟨_, raised, _⟩ | ⟨_, returned, madeAdded⟩⟩ := runs_createVolume third
  · cases raised
  obtain rfl := Except.ok.inj returned
  have added := (adds_of_ledger same).trans madeAdded
  rcases runs_bind fourth with ⟨_, filled, put, rest, rfl, fifth, sixth⟩ | ⟨exn, rfl, fifth⟩
  swap
  · obtain ⟨plain, ⟨_, created, removals, _, adds, covered⟩ | ⟨_, returned, _⟩⟩ :=
      runs_populated fifth
    · refine creation_stopped (pulledPlain.append (madePlain.append plain)) (added.trans adds) ?_
      intro resource member
      exact List.mem_append_left _ (covered resource (by simpa [or_comm] using member))
    · cases returned
  obtain ⟨putPlain, ⟨_, _, _, raised, _⟩ | ⟨writer, _, below, putAdded⟩⟩ := runs_populated fifth
  · cases raised
  have added := added.trans putAdded
  have plain := pulledPlain.append (madePlain.append putPlain)
  have split : pulled ++ (made ++ (put ++ rest)) = pulled ++ (made ++ put) ++ rest := by
    simp only [List.append_assoc]
  rw [split, keyDeletionRaised_append]
  obtain ⟨kept, ⟨exn, rfl, absent, last⟩ | ⟨container, rfl, present, fresh, last⟩⟩ :=
    runs_sandboxed sixth
  · refine ⟨not_or.mpr ⟨plain.not_keyDeletionRaised, kept⟩, .stopped ?_ (added.trans last) ?_⟩
    · rw [sandboxCreated_append]
      exact not_or.mpr ⟨plain.not_sandboxCreated, absent⟩
    · simp [or_comm]
  · exact ⟨not_or.mpr ⟨plain.not_keyDeletionRaised, kept⟩,
      .sandbox (sandboxCreated_append.mpr (.inr present)) (below.trans_le fresh).ne (added.trans last)⟩

end Acquisition

/-! ### The `finally` block -/

/-- The last part of the `finally` block: the removals. -/
def removeAcquired (task : TaskId) (acquired : Acquired) : ExecProgram Unit := do
  match acquired.container with
  | none => pure ()
  | some container => suppress (removeResource task (.container container))
  match acquired.volume with
  | none => pure ()
  | some volume => suppress (removeResource task (.volume volume))

/-- The removals that are due for what was acquired, the last one first. -/
def Acquired.due (acquired : Acquired) : List Resource :=
  acquired.volume.toList.map .volume ++ acquired.container.toList.map .container

section Cleanup

variable {start final : ExecState} {trace : List ExecMoment} {result : Except ExecExn Unit}

private theorem runs_suppressRemoval {resource : Resource}
    (runs : Runs Untouched (suppress (removeResource task resource)) start trace result final) :
    result = .ok () ∧ Plain trace ∧ Adds start final [] [resource] := by
  rcases runs_tryExcept runs with ⟨_, rfl, first⟩ | ⟨_, _, _, _, rfl, first, handled⟩
  · exact ⟨rfl, runs_removeResource first⟩
  · obtain ⟨rfl, rfl, rfl⟩ := runs_pure handled
    rw [List.append_nil]
    exact ⟨rfl, runs_removeResource first⟩

private theorem runs_removeVolume {volume : Option Nat}
    (runs : Runs Untouched (match volume with
      | none => pure ()
      | some volume => suppress (removeResource task (.volume volume))) start trace result final) :
    Plain trace ∧ Adds start final [] (volume.toList.map .volume) := by
  cases volume with
  | none =>
      obtain ⟨rfl, rfl, rfl⟩ := runs_pure runs
      exact ⟨List.forall_mem_nil _, adds_of_ledger rfl⟩
  | some volume => exact (runs_suppressRemoval runs).2

private theorem runs_removeAcquired {acquired : Acquired}
    (runs : Runs Untouched (removeAcquired task acquired) start trace result final) :
    Plain trace ∧ Adds start final [] acquired.due := by
  obtain ⟨container, volume, streaming⟩ := acquired
  cases container with
  | none =>
      obtain ⟨plain, adds⟩ := runs_removeVolume runs
      exact ⟨plain, by simpa only [Acquired.due, Option.toList_none, List.map_nil, List.append_nil] using adds⟩
  | some container =>
      rcases runs_bind runs with ⟨_, _, _, _, rfl, first, second⟩ | ⟨_, _, first⟩
      · obtain ⟨_, removedPlain, removed⟩ := runs_suppressRemoval first
        obtain ⟨plain, adds⟩ := runs_removeVolume second
        exact ⟨removedPlain.append plain, removed.trans adds⟩
      · cases (runs_suppressRemoval first).1

/-- What `suppress` ends never raises. -/
theorem runs_suppress_bind {body : ExecProgram Unit} {rest : Unit → ExecProgram Unit}
    (quiet : Quiet body)
    (runs : Runs Untouched (suppress body >>= rest) start trace result final) :
    ∃ middle earlier later, trace = earlier ++ later ∧ QuietRun start earlier middle ∧
      Runs Untouched (rest ()) middle later result final := by
  rcases runs_bind runs with ⟨_, middle, earlier, later, rfl, first, second⟩ | ⟨_, rfl, first⟩
  · exact ⟨middle, earlier, later, rfl, quiet_suppress quiet first, second⟩
  · rcases runs_tryExcept first with ⟨_, returned, _⟩ | ⟨_, _, _, _, _, _, handled⟩
    · cases returned
    · cases (runs_pure handled).2.1

/-- The `finally` block after the key: the stream is stopped, then the removals. -/
theorem runs_stopped {acquired : Acquired}
    (runs : Runs Untouched (match acquired.container with
      | none => do suppress (waitForStream task); removeAcquired task acquired
      | some container => do
          suppress (kill task container)
          suppress (waitForStream task)
          removeAcquired task acquired) start trace result final) :
    Plain trace ∧ Adds start final [] acquired.due := by
  have waited : ∀ {start : ExecState} {trace : List ExecMoment},
      Runs Untouched (do suppress (waitForStream task); removeAcquired task acquired) start trace
        result final → Plain trace ∧ Adds start final [] acquired.due := by
    intro start trace runs
    obtain ⟨_, _, _, rfl, ⟨same, quiet⟩, rest⟩ := runs_suppress_bind waitForStream_quiet runs
    obtain ⟨plain, adds⟩ := runs_removeAcquired rest
    exact ⟨quiet.append plain, by simpa using (adds_of_ledger same).trans adds⟩
  split at runs
  · exact waited runs
  · obtain ⟨_, _, _, rfl, ⟨same, quiet⟩, rest⟩ := runs_suppress_bind (kill_quiet _) runs
    obtain ⟨plain, adds⟩ := waited rest
    exact ⟨quiet.append plain, by simpa using (adds_of_ledger same).trans adds⟩

theorem cleanup_eq (executionId : ExecutionId) (acquired : Acquired) :
    cleanup task executionId acquired = (do
      deleteCancellation task executionId
      if acquired.streaming ∧ !streamDone (← get) then
        match acquired.container with
        | none => do suppress (waitForStream task); removeAcquired task acquired
        | some container => do
            suppress (kill task container)
            suppress (waitForStream task)
            removeAcquired task acquired
      else removeAcquired task acquired) := by
  obtain ⟨container, volume, streaming⟩ := acquired
  cases container <;> rfl

private theorem runs_cleanupBlock {executionId : ExecutionId} {acquired : Acquired}
    (runs : Runs Untouched (cleanup task executionId acquired) start trace result final) :
    ¬SandboxCreated trace ∧
      (KeyDeletionRaised trace ∧ Adds start final [] [] ∨
        ¬KeyDeletionRaised trace ∧ Adds start final [] acquired.due) := by
  rw [cleanup_eq] at runs
  have sent : ∀ {moment : ExecMoment}, moment.call = .deleteKey → ¬SandboxCreated [moment] := by
    rintro moment deleted ⟨_, member, created, _⟩
    obtain rfl := List.mem_singleton.mp member
    cases deleted.symm.trans created
  rcases runs_bind runs with ⟨_, middle, _, later, rfl, first, second⟩ | ⟨_, rfl, first⟩
  · obtain ⟨state, _, rfl, framed, ⟨_, rfl, effected, _⟩ | ⟨_, _, raised, _⟩⟩ :=
      runs_serverCall first
    · have kept : Adds start middle [] [] := by
        obtain ⟨_, rfl⟩ := Prod.mk.inj (Option.some.inj effected)
        exact adds_of_ledger framed
      obtain ⟨plain, adds⟩ : Plain later ∧ Adds middle final [] acquired.due := by
        change Runs Untouched (if _ then _ else _) _ later result final at second
        split at second
        · exact runs_stopped second
        · exact runs_removeAcquired second
      refine ⟨?_, .inr ⟨?_, by simpa using kept.trans adds⟩⟩
      · rw [sandboxCreated_append]
        exact not_or.mpr ⟨sent rfl, plain.not_sandboxCreated⟩
      · rw [keyDeletionRaised_append]
        refine not_or.mpr ⟨?_, plain.not_keyDeletionRaised⟩
        rintro ⟨_, member, _, raised⟩
        obtain rfl := List.mem_singleton.mp member
        exact raised rfl
    · cases raised
  · obtain ⟨state, _, rfl, framed, ⟨_, _, _, returned⟩ | ⟨_, raised, _, effected⟩⟩ :=
      runs_serverCall first
    · cases returned
    · refine ⟨sent rfl, .inl ⟨⟨_, List.mem_cons_self, rfl, raised⟩, adds_of_ledger ?_⟩⟩
      rcases effected with rfl | ⟨_, effected⟩
      · exact framed
      · obtain ⟨_, rfl⟩ := Prod.mk.inj (Option.some.inj effected)
        exact framed

end Cleanup

/-! ### The whole job -/

section Job

variable {start final : ExecState} {trace : List ExecMoment} {result : Except ExecExn Unit}

/-- The creation of the sandbox as `process` sees it: what it has raised is kept. -/
theorem runs_created {env : ExecState → ExecState → Prop} {row : ExecutionRow}
    {result : Except ExecExn (Except ExecExn (Nat × Nat))}
    (runs : Runs env (Coroutine.tryExcept
      (do pure (Except.ok (← createContainer task row))) fun exn => pure (.error exn))
        start trace result final) :
    ∃ created, result = .ok created ∧ Runs env (createContainer task row) start trace created
      final := by
  rcases runs_tryExcept runs with ⟨_, rfl, body⟩ | ⟨exn, _, _, _, rfl, body, handled⟩
  · rcases runs_bind body with ⟨pair, _, _, _, rfl, first, ended⟩ | ⟨_, raised, _⟩
    · obtain ⟨rfl, returned, rfl⟩ := runs_pure ended
      obtain rfl := Except.ok.inj returned
      rw [List.append_nil]
      exact ⟨_, rfl, first⟩
    · cases raised
  · obtain ⟨rfl, rfl, rfl⟩ := runs_pure handled
    rw [List.append_nil]
    rcases runs_bind body with ⟨_, _, _, _, _, _, ended⟩ | ⟨_, raised, first⟩
    · cases (runs_pure ended).2.1
    · obtain rfl := Except.error.inj raised
      exact ⟨_, rfl, first⟩

/-- The ledger of a run has the removal of all that was created, unless a sandbox
was created and the key could not be deleted. -/
def Balanced (start : ExecState) (trace : List ExecMoment) (final : ExecState) : Prop :=
  ∃ created removals, Adds start final created removals ∧
    ((∀ resource ∈ created, resource ∈ removals) ↔
      ¬(SandboxCreated trace ∧ KeyDeletionRaised trace))

private theorem balanced_of_quiet {middle : ExecState} {earlier later : List ExecMoment}
    (quiet : QuietRun start earlier middle) (balanced : Balanced middle later final) :
    Balanced start (earlier ++ later) final := by
  obtain ⟨created, removals, adds, covered⟩ := balanced
  refine ⟨created ++ [], removals ++ [], (adds_of_ledger quiet.1).trans adds, ?_⟩
  rw [List.append_nil, List.append_nil, sandboxCreated_append, keyDeletionRaised_append,
    or_iff_right quiet.2.not_sandboxCreated, or_iff_right quiet.2.not_keyDeletionRaised]
  exact covered

private theorem runJob_balanced {settings : Settings} {turns : Nat} {executionId : ExecutionId}
    {row : ExecutionRow}
    (runs : Runs Untouched (runJob settings turns task executionId row) start trace result final) :
    Balanced start trace final := by
  have entered : QuietRun start [] (start.enterJob executionId .running) :=
    ⟨rfl, List.forall_mem_nil _⟩
  refine balanced_of_quiet entered ?_
  have runs := runs_modify_bind runs
  change Runs Untouched (Coroutine.tryExcept _ _ >>= _) _ trace result final at runs
  rcases runs_bind runs with ⟨created, middle, making, rest, rfl, first, second⟩ | ⟨_, _, first⟩
  swap
  · obtain ⟨_, returned, _⟩ := runs_created first
    cases returned
  obtain ⟨_, returned, making⟩ := runs_created first
  obtain rfl := Except.ok.inj returned
  obtain ⟨kept, creation⟩ := runs_createContainer making
  unfold Balanced
  rw [sandboxCreated_append, keyDeletionRaised_append, or_iff_right kept]
  cases creation with
  | @stopped exn created removals _ absent adds covered =>
      -- The job has failed, and there is only the key to delete.
      obtain ⟨_, _, _, failing, cleaning, rfl, body, block, _⟩ := runs_tryFinally second
      obtain ⟨same, plain⟩ := failJob_quiet executionId _ exn body
      obtain ⟨quiet, outcome⟩ := runs_cleanupBlock block
      have last : Adds (start.enterJob executionId .running) final created removals := by
        have failed := adds.trans (adds_of_ledger same)
        rcases outcome with ⟨_, cleaned⟩ | ⟨_, cleaned⟩ <;>
          simpa [Acquired.due] using failed.trans cleaned
      refine ⟨created, removals, last, iff_of_true covered ?_⟩
      rw [sandboxCreated_append]
      rintro ⟨sandbox | sandbox | sandbox, _⟩
      · exact absent sandbox
      · exact plain.not_sandboxCreated sandbox
      · exact quiet sandbox
  | @sandbox container writer volume _ present distinct adds =>
      change Runs Untouched (Coroutine.tryFinally _ _) _ rest result final at second
      obtain ⟨_, _, ended, working, cleaning, rfl, body, block, _⟩ := runs_tryFinally second
      obtain ⟨same, plain⟩ :=
        quietRun_composes.tryExcept (runSandbox_quiet settings turns executionId _ container)
          (failJob_quiet executionId _) body
      have unchanged : ledger ended = ledger middle := same
      have before := adds.trans (adds_of_ledger unchanged)
      obtain ⟨_, ⟨failed, cleaned⟩ | ⟨deleted, cleaned⟩⟩ := runs_cleanupBlock block
      · -- Nothing after the key is removed: the sandbox itself is left.
        refine ⟨_, _, before.trans cleaned, iff_of_false ?_ ?_⟩
        · simp [distinct.symm]
        · exact not_not.mpr ⟨.inl present, keyDeletionRaised_append.mpr (.inr failed)⟩
      · refine ⟨_, _, before.trans cleaned, iff_of_true ?_ ?_⟩
        · simp [Acquired.due]
        · rintro ⟨_, raised⟩
          rw [keyDeletionRaised_append] at raised
          exact raised.elim plain.not_keyDeletionRaised deleted

/-- A job that ends has attempted the removal of every container and volume that
it has created, if and only if no sandbox was created or the deletion of the
cancellation key returned. -/
theorem sandboxes_are_removed {settings : Settings} {turns : Nat} {executionId : ExecutionId}
    (runs : Runs Untouched (process settings turns task executionId) start trace result final) :
    ∃ created removals, final.docker.created = created ++ start.docker.created ∧
      final.docker.removals = removals ++ start.docker.removals ∧
        ((∀ resource ∈ created, resource ∈ removals) ↔
          ¬(SandboxCreated trace ∧ KeyDeletionRaised trace)) := by
  have balanced : Balanced start trace final := by
    have entered : QuietRun start [] (start.enterJob executionId .claiming) :=
      ⟨rfl, List.forall_mem_nil _⟩
    refine balanced_of_quiet entered ?_
    rcases runs_bind (runs_modify_bind runs) with ⟨found, _, _, _, rfl, first, second⟩ | ⟨_, _, first⟩
    · have quiet := transition_quiet executionId .queued .starting first
      cases found with
      | none =>
          obtain ⟨rfl, _, rfl⟩ := runs_pure second
          exact balanced_of_quiet quiet ⟨[], [], adds_of_ledger rfl, by simp [SandboxCreated]⟩
      | some row => exact balanced_of_quiet quiet (runJob_balanced second)
    · obtain ⟨same, plain⟩ := transition_quiet executionId .queued .starting first
      exact ⟨[], [], adds_of_ledger same,
        iff_of_true (List.forall_mem_nil _) fun both => plain.not_sandboxCreated both.1⟩
  obtain ⟨created, removals, adds, covered⟩ := balanced
  exact ⟨created, removals, adds.created, adds.removals, covered⟩

/-- A queued execution on a host that has to pull the image. -/
def claimedState : ExecState where
  rows executionId :=
    if executionId = 0 then some ⟨1, .queued, "print(1)", .python, none, none, none, none, none⟩
    else none
  locks _ := none
  nextExecution := 1
  queue := []
  processing := [.execution 0]
  cancellation _ := false
  published := []
  docker := ⟨[], fun _ => none, fun _ => none, 0, [], [], []⟩
  stream := none
  worker := some 1
  clock := 0
  committed _ := [.queued]
  cancelledQueued := []
  working := none
  creating := []
  abandoned := false

def defaultSettings : Settings := ⟨30000, 1048576⟩

/-- The answers of a job whose sandbox was created and cannot be started, while
PostgreSQL is gone. `deletion` answers the deletion of the key and what is after. -/
def unstartable (deletion : List ExecEvent) : List ExecEvent :=
  [.done, .done, .done, .done, .done, .done, .done, .done, .done, .done, .done, .done,
    .raised "start", .raised "connection"] ++ deletion

def jobAlone (events : List ExecEvent) : Option (List ExecMoment × Except ExecExn Unit × ExecState) :=
  driven (process defaultSettings 1 1 0) events claimedState

private theorem runs_of_jobAlone {events : List ExecEvent} {trace : List ExecMoment}
    {result : Except ExecExn Unit} {final : ExecState}
    (alone : jobAlone events = some (trace, result, final)) :
    Runs Untouched (process defaultSettings 1 1 0) claimedState trace result final :=
  runs_of_driven (fun _ => Eq.refl (ledger _)) alone

/-- The end of a job whose key could be deleted. -/
theorem sandboxes_are_removed_run : ∃ trace result final,
    Runs Untouched (process defaultSettings 1 1 0) claimedState trace result final ∧
      ¬(SandboxCreated trace ∧ KeyDeletionRaised trace) ∧
        ∃ created removals, final.docker.created = created ++ claimedState.docker.created ∧
          final.docker.removals = removals ++ claimedState.docker.removals ∧
            ∀ resource ∈ created, resource ∈ removals := by
  have ends : (jobAlone (unstartable [.done, .raised "kill", .raised "timeout", .done, .done])).any
      fun (trace, _, _) => trace.all fun moment => moment.call ≠ .deleteKey ∨ moment.event = .done := by
    decide +kernel
  obtain ⟨⟨trace, result, final⟩, alone, deleted⟩ := (Option.any_eq_true _ _).mp ends
  have runs := runs_of_jobAlone alone
  have kept : ¬(SandboxCreated trace ∧ KeyDeletionRaised trace) := by
    rintro ⟨_, moment, member, deletion, raised⟩
    have := of_decide_eq_true (List.all_eq_true.mp deleted moment member)
    exact this.elim (fun other => other deletion) raised
  obtain ⟨created, removals, made, removed, covered⟩ := sandboxes_are_removed runs
  exact ⟨trace, result, final, runs, kept, created, removals, made, removed, covered.mpr kept⟩

/-- Redis is not reachable when a job ends: its sandbox and its volume stay. -/
theorem sandbox_left_behind : ∃ trace result final,
    Runs Untouched (process defaultSettings 1 1 0) claimedState trace result final ∧
      ∃ resource ∈ final.docker.created, resource ∉ claimedState.docker.created ∧
        resource ∉ final.docker.removals := by
  have ends : (jobAlone (unstartable [.unavailable])).any fun (_, _, final) =>
      .container 2 ∈ final.docker.created ∧ .container 2 ∉ final.docker.removals := by
    decide +kernel
  obtain ⟨⟨trace, result, final⟩, alone, left⟩ := (Option.any_eq_true _ _).mp ends
  obtain ⟨made, kept⟩ := of_decide_eq_true left
  exact ⟨trace, result, final, runs_of_jobAlone alone, _, made, List.not_mem_nil, kept⟩

end Job

end Concord.Execution

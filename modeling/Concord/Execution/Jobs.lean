import Mathlib.Data.List.Chain
import Concord.Execution.Service

/-!
Contract: executions as jobs, without Docker and the texts.

Owns:
- `Jobs`, the part of the execution state that decides the life of a row: the rows
  with their locks, the two Redis lists, the starts and the worker;
- `Sound`, the invariant of the life of a row, and `Delivered`, the invariant of
  its delivery;
- `Relies`, what a task may find changed by the others;
- for each change of the jobs, what it keeps of these.

Does not own: which coroutine makes which change.
-/

set_option autoImplicit false

namespace Concord

namespace ExecutionStatus

/-- A path from `QUEUED` along `VALID_TRANSITIONS`, or nothing yet. -/
def Path (statuses : List ExecutionStatus) : Prop :=
  (∀ status ∈ statuses.head?, status = queued) ∧ statuses.IsChain Accepts

theorem Path.snoc {statuses : List ExecutionStatus} {status target : ExecutionStatus}
    (path : Path statuses) (last : statuses.getLast? = some status) (accepts : status.Accepts target) :
    Path (statuses ++ [target]) := by
  obtain ⟨earlier, rfl⟩ := List.getLast?_eq_some_iff.mp last
  refine ⟨?_, path.2.append (List.isChain_singleton target) ?_⟩
  · cases earlier with
    | nil => exact path.1
    | cons first rest => exact path.1
  · intro before first after second
    rw [List.getLast?_concat] at first
    obtain rfl := Option.some.inj first
    obtain rfl := Option.some.inj second
    exact accepts

/-- No transition leads to `QUEUED`. -/
theorem not_accepts_queued (status : ExecutionStatus) : ¬status.Accepts queued := by
  cases status <;> decide

theorem Path.eq_queued {statuses : List ExecutionStatus} (path : Path statuses)
    (last : statuses.getLast? = some queued) : statuses = [queued] := by
  obtain ⟨earlier, rfl⟩ := List.getLast?_eq_some_iff.mp last
  rcases List.eq_nil_or_concat earlier with rfl | ⟨before, status, rfl⟩
  · rfl
  · rw [List.concat_eq_append, List.append_assoc] at path
    exact absurd (List.isChain_append.mp path.2).2.1.rel (not_accepts_queued status)

/-- Nothing follows a terminal status. -/
theorem Path.terminal {earlier later : List ExecutionStatus} {status : ExecutionStatus}
    (path : Path (earlier ++ status :: later)) (terminal : status.Terminal) : later = [] := by
  cases later with
  | nil => rfl
  | cons target rest =>
      have accepts : status.Accepts target := (List.isChain_append.mp path.2).2.1.rel
      unfold Accepts at accepts
      rw [terminal] at accepts
      exact absurd accepts List.not_mem_nil

end ExecutionStatus

namespace Execution

open Asyncio ExecState ExecutionStatus

structure Jobs where
  rows : ExecutionId → Option ExecutionRow
  locks : ExecutionId → Option TaskId
  nextExecution : ExecutionId
  queue : List QueueItem
  processing : List QueueItem
  starts : List ExecutionId
  worker : Option TaskId
  committed : ExecutionId → List ExecutionStatus
  cancelledQueued : List ExecutionId
  working : Option (ExecutionId × JobPhase)
  creating : List (ExecutionId × TaskId)
  abandoned : Bool

def jobs (state : ExecState) : Jobs where
  rows := state.rows
  locks := state.locks
  nextExecution := state.nextExecution
  queue := state.queue
  processing := state.processing
  starts := state.docker.starts
  worker := state.worker
  committed := state.committed
  cancelledQueued := state.cancelledQueued
  working := state.working
  creating := state.creating
  abandoned := state.abandoned

namespace Jobs

variable {executionId : ExecutionId} {jobs before after : Jobs} {task other : TaskId}

/-- An execution in a sandbox, or on its way there. -/
def Active (executionId : ExecutionId) (jobs : Jobs) : Prop :=
  ∃ row, jobs.rows executionId = some row ∧ (row.status = .starting ∨ row.status = .running)

/-- A row that will not change any more, or no row. -/
def Settled (executionId : ExecutionId) (jobs : Jobs) : Prop :=
  ∀ row, jobs.rows executionId = some row → row.status.Terminal

/-- A row that has just been claimed, or no row. -/
def Claimed (executionId : ExecutionId) (jobs : Jobs) : Prop :=
  ∀ row, jobs.rows executionId = some row → row.status = .starting

/-- An execution that is in the queue, or whose API task will put it there. -/
def Queued (executionId : ExecutionId) (jobs : Jobs) : Prop :=
  jobs.abandoned = true ∨ .execution executionId ∈ jobs.queue ∨
    ∃ task, (executionId, task) ∈ jobs.creating

/-- An execution that the processing list does not need. -/
def Safe (executionId : ExecutionId) (jobs : Jobs) : Prop :=
  ∀ row, jobs.rows executionId = some row →
    row.status.Terminal ∨ row.status = .queued ∧ jobs.Queued executionId

theorem Settled.safe (settled : jobs.Settled executionId) : jobs.Safe executionId :=
  fun row found => .inl (settled row found)

/-- The life of the rows. -/
structure Sound (jobs : Jobs) : Prop where
  path : ∀ executionId, Path (jobs.committed executionId)
  current : ∀ executionId row, jobs.rows executionId = some row →
    (jobs.committed executionId).getLast? = some row.status
  fresh : ∀ executionId, jobs.nextExecution ≤ executionId → jobs.committed executionId = []
  unlocked : ∀ executionId, jobs.nextExecution ≤ executionId → jobs.locks executionId = none
  started : ∀ executionId ∈ jobs.starts, .starting ∈ jobs.committed executionId
  once : jobs.starts.Nodup
  cancelled : ∀ executionId ∈ jobs.cancelledQueued,
    jobs.committed executionId = [.queued, .cancelled]

/-- The delivery of the rows that are not terminal. -/
structure Delivered (jobs : Jobs) : Prop where
  queued : ∀ executionId row, jobs.rows executionId = some row → row.status = .queued →
    jobs.Queued executionId ∨ .execution executionId ∈ jobs.processing
  active : ∀ executionId, jobs.Active executionId → .execution executionId ∈ jobs.processing

theorem Sound.committed_ne_nil (sound : jobs.Sound) {row : ExecutionRow}
    (found : jobs.rows executionId = some row) : jobs.committed executionId ≠ [] := by
  intro nothing
  have last := sound.current executionId row found
  rw [nothing] at last
  cases last

/-- A row that was claimed once is not in the queue again. -/
theorem Sound.not_queued (sound : jobs.Sound) {row : ExecutionRow}
    (claimed : .starting ∈ jobs.committed executionId)
    (found : jobs.rows executionId = some row) : row.status ≠ .queued := by
  intro queued
  have last := sound.current executionId row found
  rw [queued] at last
  rw [(sound.path executionId).eq_queued last] at claimed
  cases claimed with
  | tail _ rest => cases rest

/-! ### What a task relies on -/

/-- What a worker may find changed. -/
structure Undisturbed (before after : Jobs) : Prop where
  worker : after.worker = before.worker
  processing : after.processing = before.processing
  starts : after.starts = before.starts
  working : after.working = before.working
  idle : ∀ executionId, ¬before.Active executionId → ¬after.Active executionId
  claimed : ∀ executionId, before.committed executionId ≠ [] → before.Claimed executionId →
    after.Claimed executionId
  safe : ∀ executionId, before.Safe executionId → after.Safe executionId

/-- What a task may find changed by the others. -/
structure Relies (task : TaskId) (before after : Jobs) : Prop where
  locked : ∀ executionId, before.locks executionId = some task →
    after.locks executionId = some task ∧ after.rows executionId = before.rows executionId
  grows : ∀ executionId, before.committed executionId <+: after.committed executionId
  settled : ∀ executionId, before.committed executionId ≠ [] → before.Settled executionId →
    after.Settled executionId
  undisturbed : before.worker = some task → Undisturbed before after

theorem Undisturbed.refl (jobs : Jobs) : Undisturbed jobs jobs where
  worker := rfl
  processing := rfl
  starts := rfl
  working := rfl
  idle _ := id
  claimed _ _ := id
  safe _ := id

theorem Relies.refl (task : TaskId) (jobs : Jobs) : Relies task jobs jobs where
  locked _ locked := ⟨locked, rfl⟩
  grows _ := List.prefix_refl _
  settled _ _ := id
  undisturbed _ := .refl jobs

theorem Relies.trans {middle : Jobs} (one : Relies task before middle)
    (two : Relies task middle after) : Relies task before after where
  locked executionId locked := by
    obtain ⟨still, same⟩ := one.locked executionId locked
    obtain ⟨last, same'⟩ := two.locked executionId still
    exact ⟨last, same'.trans same⟩
  grows executionId := (one.grows executionId).trans (two.grows executionId)
  settled executionId inserted settled := by
    refine two.settled executionId ?_ (one.settled executionId inserted settled)
    exact fun nothing => inserted (List.prefix_nil.mp (nothing ▸ one.grows executionId))
  undisturbed alive := by
    have first := one.undisturbed alive
    have second := two.undisturbed (first.worker.trans alive)
    refine ⟨second.worker.trans first.worker, second.processing.trans first.processing,
      second.starts.trans first.starts, second.working.trans first.working,
      fun executionId idle => second.idle executionId (first.idle executionId idle), ?_,
      fun executionId safe => second.safe executionId (first.safe executionId safe)⟩
    intro executionId inserted claimed
    refine second.claimed executionId ?_ (first.claimed executionId inserted claimed)
    exact fun nothing => inserted (List.prefix_nil.mp (nothing ▸ one.grows executionId))

/-- A change that leaves the rows alone. -/
theorem relies_of_rows (rows : after.rows = before.rows) (committed : after.committed = before.committed)
    (locks : ∀ executionId, before.locks executionId = some task →
      after.locks executionId = some task)
    (alive : before.worker = some task → after.worker = before.worker ∧
      after.processing = before.processing ∧ after.starts = before.starts ∧
        after.working = before.working ∧
          ∀ executionId, before.Queued executionId → after.Queued executionId) :
    Relies task before after where
  locked executionId locked := ⟨locks executionId locked, by rw [rows]⟩
  grows executionId := by rw [committed]
  settled executionId _ settled row found := settled row (rows ▸ found)
  undisturbed mine := by
    obtain ⟨worker, processing, starts, working, queued⟩ := alive mine
    refine ⟨worker, processing, starts, working, ?_, ?_, ?_⟩
    · rintro executionId idle ⟨row, found, active⟩
      exact idle ⟨row, rows ▸ found, active⟩
    · exact fun executionId _ claimed row found => claimed row (rows ▸ found)
    · intro executionId safe row found
      exact (safe row (rows ▸ found)).imp_right fun ⟨status, held⟩ => ⟨status, queued _ held⟩

/-! ### Changes of the locks, the lists and the worker -/

def lock (task : TaskId) (executionId : ExecutionId) (jobs : Jobs) : Jobs :=
  { jobs with locks := Function.update jobs.locks executionId (some task) }

def release (task : TaskId) (jobs : Jobs) : Jobs :=
  { jobs with locks := fun executionId =>
      if jobs.locks executionId = some task then none else jobs.locks executionId }

def stopCreating (task : TaskId) (jobs : Jobs) : Jobs :=
  { jobs with
    creating := jobs.creating.filter (·.2 ≠ task)
    abandoned := jobs.abandoned || jobs.creating.any (·.2 = task) }

def stopWorker (jobs : Jobs) : Jobs := { jobs with worker := none, working := none }

def crash (task : TaskId) (jobs : Jobs) : Jobs :=
  let left := (jobs.release task).stopCreating task
  if jobs.worker = some task then left.stopWorker else left

def push (item : QueueItem) (jobs : Jobs) : Jobs := { jobs with queue := jobs.queue ++ [item] }

/-- The first item of the queue is moved to the processing list. -/
def take (item : QueueItem) (rest : List QueueItem) (jobs : Jobs) : Jobs :=
  { jobs with queue := rest, processing := jobs.processing ++ [item] }

def acknowledge (item : QueueItem) (jobs : Jobs) : Jobs :=
  { jobs with processing := jobs.processing.filter (· ≠ item) }

def start (executionId : ExecutionId) (jobs : Jobs) : Jobs :=
  { jobs with starts := executionId :: jobs.starts }

theorem queued_stopCreating {task : TaskId} (held : jobs.Queued executionId) :
    (jobs.stopCreating task).Queued executionId := by
  rcases held with abandoned | queued | ⟨creator, member⟩
  · exact .inl (by simp [stopCreating, abandoned])
  · exact .inr (.inl queued)
  · by_cases own : creator = task
    · refine .inl ?_
      simp only [stopCreating, Bool.or_eq_true, List.any_eq_true, decide_eq_true_eq]
      exact .inr ⟨_, member, own⟩
    · exact .inr (.inr ⟨creator, List.mem_filter.mpr ⟨member, by simpa using own⟩⟩)

private theorem queued_push {item : QueueItem} (held : jobs.Queued executionId) :
    (jobs.push item).Queued executionId :=
  held.imp_right fun rest => rest.imp_left (List.mem_append_left _)

private theorem release_of_ne (different : other ≠ task) {executionId : ExecutionId}
    (locked : jobs.locks executionId = some other) :
    (jobs.release task).locks executionId = some other := by
  simp only [release, locked, Option.some.injEq, different, if_false]

theorem relies_lock (free : jobs.locks executionId = none) :
    Relies other jobs (jobs.lock task executionId) := by
  refine relies_of_rows rfl rfl ?_ fun _ => ⟨rfl, rfl, rfl, rfl, fun _ => id⟩
  intro another locked
  have different : another ≠ executionId := by
    rintro rfl
    rw [free] at locked
    cases locked
  exact (Function.update_of_ne different _ _).trans locked

theorem relies_release (different : other ≠ task) : Relies other jobs (jobs.release task) :=
  relies_of_rows rfl rfl (fun _ => release_of_ne different)
    fun _ => ⟨rfl, rfl, rfl, rfl, fun _ => id⟩

theorem relies_stopCreating : Relies other jobs (jobs.stopCreating task) :=
  relies_of_rows rfl rfl (fun _ => id) fun _ =>
    ⟨rfl, rfl, rfl, rfl, fun _ => queued_stopCreating⟩

/-- What a worker changes of its own does not concern the others. -/
theorem relies_of_worker (different : other ≠ task) (mine : jobs.worker = some task)
    (rows : after.rows = jobs.rows) (committed : after.committed = jobs.committed)
    (locks : after.locks = jobs.locks) : Relies other jobs after := by
  refine relies_of_rows rows committed (fun _ locked => by rw [locks, locked]) ?_
  intro alive
  exact absurd (Option.some.inj (alive.symm.trans mine)) different

theorem relies_crash (different : other ≠ task) : Relies other jobs (jobs.crash task) := by
  have left : Relies other jobs ((jobs.release task).stopCreating task) :=
    (relies_release different).trans relies_stopCreating
  unfold crash
  dsimp only
  split
  · next mine => exact left.trans (relies_of_worker different mine rfl rfl rfl)
  · exact left

theorem relies_push {item : QueueItem} : Relies task jobs (jobs.push item) :=
  relies_of_rows rfl rfl (fun _ => id) fun _ => ⟨rfl, rfl, rfl, rfl, fun _ => queued_push⟩

theorem Sound.lock (sound : jobs.Sound) {row : ExecutionRow}
    (found : jobs.rows executionId = some row) : (jobs.lock task executionId).Sound where
  path := sound.path
  current := sound.current
  fresh := sound.fresh
  unlocked another beyond := by
    have different : another ≠ executionId := by
      rintro rfl
      exact sound.committed_ne_nil found (sound.fresh another beyond)
    exact (Function.update_of_ne different _ _).trans (sound.unlocked another beyond)
  started := sound.started
  once := sound.once
  cancelled := sound.cancelled

theorem Sound.release (sound : jobs.Sound) : (jobs.release task).Sound where
  path := sound.path
  current := sound.current
  fresh := sound.fresh
  unlocked another beyond := by
    simp only [Jobs.release, sound.unlocked another beyond]
    split <;> rfl
  started := sound.started
  once := sound.once
  cancelled := sound.cancelled

theorem Sound.of_rows (sound : jobs.Sound) (rows : after.rows = jobs.rows)
    (locks : after.locks = jobs.locks) (nextExecution : after.nextExecution = jobs.nextExecution)
    (committed : after.committed = jobs.committed) (starts : after.starts = jobs.starts)
    (cancelledQueued : after.cancelledQueued = jobs.cancelledQueued) : after.Sound where
  path := committed ▸ sound.path
  current := rows ▸ committed ▸ sound.current
  fresh := nextExecution ▸ committed ▸ sound.fresh
  unlocked := nextExecution ▸ locks ▸ sound.unlocked
  started := starts ▸ committed ▸ sound.started
  once := starts ▸ sound.once
  cancelled := cancelledQueued ▸ committed ▸ sound.cancelled

theorem Sound.crash (sound : jobs.Sound) : (jobs.crash task).Sound := by
  unfold Jobs.crash
  dsimp only
  split
  · exact sound.release.of_rows rfl rfl rfl rfl rfl rfl
  · exact sound.release.of_rows rfl rfl rfl rfl rfl rfl

theorem Delivered.of_rows (delivered : jobs.Delivered) (rows : after.rows = jobs.rows)
    (queued : ∀ executionId, jobs.Queued executionId → after.Queued executionId)
    (processing : after.processing = jobs.processing) : after.Delivered where
  queued executionId row found status := by
    rw [processing]
    exact (delivered.queued executionId row (rows ▸ found) status).imp_left (queued executionId)
  active := by
    rintro executionId ⟨row, found, active⟩
    rw [processing]
    exact delivered.active executionId ⟨row, rows ▸ found, active⟩

theorem Delivered.crash (delivered : jobs.Delivered) : (jobs.crash task).Delivered := by
  unfold Jobs.crash
  dsimp only
  split
  · exact delivered.of_rows rfl (fun _ => queued_stopCreating) rfl
  · exact delivered.of_rows rfl (fun _ => queued_stopCreating) rfl

theorem Delivered.push {item : QueueItem} (delivered : jobs.Delivered) : (jobs.push item).Delivered :=
  delivered.of_rows rfl (fun _ => queued_push) rfl

theorem Delivered.take {item : QueueItem} {rest : List QueueItem} (delivered : jobs.Delivered)
    (queue : jobs.queue = item :: rest) : (jobs.take item rest).Delivered where
  queued executionId row found status := by
    rcases delivered.queued executionId row found status with held | processing
    · rcases held with abandoned | queued | creating
      · exact .inl (.inl abandoned)
      · rw [queue] at queued
        rcases List.mem_cons.mp queued with same | queued
        · exact .inr (List.mem_append_right _ (List.mem_singleton.mpr same))
        · exact .inl (.inr (.inl queued))
      · exact .inl (.inr (.inr creating))
    · exact .inr (List.mem_append_left _ processing)
  active executionId active := List.mem_append_left _ (delivered.active executionId active)

/-- An execution that the processing list does not need may be acknowledged. -/
theorem Delivered.acknowledge (delivered : jobs.Delivered) (safe : jobs.Safe executionId) :
    (jobs.acknowledge (.execution executionId)).Delivered where
  queued another row found status := by
    by_cases same : another = executionId
    · subst same
      rcases safe row found with terminal | ⟨_, held⟩
      · rw [status] at terminal
        cases terminal
      · exact .inl held
    · refine (delivered.queued another row found status).imp_right fun member => ?_
      exact List.mem_filter.mpr ⟨member, by simpa using same⟩
  active another active := by
    have different : another ≠ executionId := by
      rintro rfl
      obtain ⟨row, found, status⟩ := active
      rcases safe row found with terminal | ⟨queued, _⟩
      · rcases status with status | status <;> rw [status] at terminal <;> cases terminal
      · rw [queued] at status
        rcases status with status | status <;> cases status
    exact List.mem_filter.mpr ⟨delivered.active another active, by simpa using different⟩

theorem Delivered.acknowledge_malformed {text : String} (delivered : jobs.Delivered) :
    (jobs.acknowledge (.malformed text)).Delivered where
  queued executionId row found status :=
    (delivered.queued executionId row found status).imp_right fun member =>
      List.mem_filter.mpr ⟨member, by simp⟩
  active executionId active :=
    List.mem_filter.mpr ⟨delivered.active executionId active, by simp⟩

theorem Sound.start (sound : jobs.Sound) (claimed : .starting ∈ jobs.committed executionId)
    (first : executionId ∉ jobs.starts) : (jobs.start executionId).Sound where
  path := sound.path
  current := sound.current
  fresh := sound.fresh
  unlocked := sound.unlocked
  started := List.forall_mem_cons.mpr ⟨claimed, sound.started⟩
  once := sound.once.cons first
  cancelled := sound.cancelled

/-! ### Changes of the rows -/

def write (executionId : ExecutionId) (row : ExecutionRow) (jobs : Jobs) : Jobs :=
  let before := (jobs.rows executionId).map (·.status)
  { jobs with
    rows := Function.update jobs.rows executionId (some row)
    committed := if before = some row.status then jobs.committed
      else Function.update jobs.committed executionId (jobs.committed executionId ++ [row.status])
    cancelledQueued := if before = some .queued ∧ row.status = .cancelled then
        executionId :: jobs.cancelledQueued
      else jobs.cancelledQueued }

def insert (task : TaskId) (row : ExecutionRow) (jobs : Jobs) : Jobs :=
  { jobs with
    rows := Function.update jobs.rows jobs.nextExecution (some row)
    nextExecution := jobs.nextExecution + 1
    committed := Function.update jobs.committed jobs.nextExecution [row.status]
    creating := (jobs.nextExecution, task) :: jobs.creating }

def settle (executionId : ExecutionId) (jobs : Jobs) : Jobs :=
  { jobs with creating := jobs.creating.filter (·.1 ≠ executionId) }

def delete (executionId : ExecutionId) (jobs : Jobs) : Jobs :=
  { jobs.settle executionId with rows := Function.update jobs.rows executionId none }

/-- A row may get a status that it has, or that its status accepts. -/
def MayWrite (executionId : ExecutionId) (row : ExecutionRow) (jobs : Jobs) : Prop :=
  ∃ old, jobs.rows executionId = some old ∧
    (row.status = old.status ∨ old.status.Accepts row.status)

section Write

variable {row : ExecutionRow}

theorem write_committed_extends (executionId another : ExecutionId) (row : ExecutionRow)
    (jobs : Jobs) : jobs.committed another <+: (jobs.write executionId row).committed another := by
  simp only [write]
  split
  · exact List.prefix_refl _
  · by_cases same : another = executionId
    · subst same
      rw [Function.update_self]
      exact List.prefix_append _ _
    · rw [Function.update_of_ne same]

/-- The committed statuses of the row that is written. -/
theorem write_committed {old : ExecutionRow} (found : jobs.rows executionId = some old) :
    (jobs.write executionId row).committed executionId =
      if old.status = row.status then jobs.committed executionId
      else jobs.committed executionId ++ [row.status] := by
  simp only [write, found, Option.map_some, Option.some.injEq]
  split
  · rfl
  · exact Function.update_self _ _ _

private theorem write_committed_of_ne {another : ExecutionId} (different : another ≠ executionId) :
    (jobs.write executionId row).committed another = jobs.committed another := by
  simp only [write]
  split
  · rfl
  · exact Function.update_of_ne different _ _

theorem write_rows_self : (jobs.write executionId row).rows executionId = some row :=
  Function.update_self _ _ _

theorem write_rows_of_ne {another : ExecutionId} (different : another ≠ executionId) :
    (jobs.write executionId row).rows another = jobs.rows another :=
  Function.update_of_ne different _ _

theorem Sound.write (sound : jobs.Sound) (may : jobs.MayWrite executionId row) :
    (jobs.write executionId row).Sound := by
  obtain ⟨old, found, step⟩ := may
  have last := sound.current executionId old found
  have committed : (jobs.write executionId row).committed executionId =
      if old.status = row.status then jobs.committed executionId
      else jobs.committed executionId ++ [row.status] := write_committed found
  refine ⟨?_, ?_, ?_, sound.unlocked, ?_, sound.once, ?_⟩
  · intro another
    by_cases same : another = executionId
    · subst same
      rw [committed]
      split
      · exact sound.path another
      · next changed =>
          exact (sound.path another).snoc last (step.resolve_left (Ne.symm changed))
    · rw [write_committed_of_ne same]
      exact sound.path another
  · intro another new found'
    by_cases same : another = executionId
    · subst same
      obtain rfl := Option.some.inj (write_rows_self.symm.trans found')
      rw [committed]
      split
      · next unchanged => rw [last, unchanged]
      · exact List.getLast?_concat
    · rw [write_rows_of_ne same] at found'
      rw [write_committed_of_ne same]
      exact sound.current another new found'
  · intro another beyond
    have different : another ≠ executionId := by
      rintro rfl
      exact sound.committed_ne_nil found (sound.fresh another beyond)
    rw [write_committed_of_ne different]
    exact sound.fresh another beyond
  · exact fun another member =>
      (write_committed_extends executionId another row jobs).subset (sound.started another member)
  · intro another member
    by_cases fresh : another = executionId ∧ old.status = .queued ∧ row.status = .cancelled
    · obtain ⟨rfl, queued, cancelled⟩ := fresh
      rw [committed, queued, cancelled, if_neg (by decide)]
      rw [queued] at last
      rw [(sound.path another).eq_queued last]
      rfl
    · have member : another ∈ jobs.cancelledQueued := by
        simp only [Jobs.write, found, Option.map_some, Option.some.injEq] at member
        split at member
        · next both =>
            refine (List.mem_cons.mp member).resolve_left fun same => fresh ⟨same, both⟩
        · exact member
      have before := sound.cancelled another member
      by_cases same : another = executionId
      · subst same
        -- A cancelled row keeps its status.
        rw [before] at last
        have cancelled : old.status = .cancelled := (Option.some.inj last).symm
        have unchanged : row.status = old.status := by
          rw [cancelled] at step ⊢
          exact step.resolve_right fun accepts => by cases accepts
        rw [committed, if_pos unchanged.symm]
        exact before
      · rw [write_committed_of_ne same]
        exact before

theorem Delivered.write (delivered : jobs.Delivered) (may : jobs.MayWrite executionId row)
    (held : row.status = .starting ∨ row.status = .running →
      .execution executionId ∈ jobs.processing) : (jobs.write executionId row).Delivered where
  queued another new found' status := by
    by_cases same : another = executionId
    · subst same
      obtain ⟨old, found, step⟩ := may
      obtain rfl := Option.some.inj (write_rows_self.symm.trans found')
      have unchanged : row.status = old.status :=
        step.resolve_right fun accepts => not_accepts_queued _ (status ▸ accepts)
      exact delivered.queued another old found (unchanged ▸ status)
    · rw [write_rows_of_ne same] at found'
      exact delivered.queued another new found' status
  active := by
    rintro another ⟨new, found', status⟩
    by_cases same : another = executionId
    · subst same
      obtain rfl := Option.some.inj (write_rows_self.symm.trans found')
      exact held status
    · rw [write_rows_of_ne same] at found'
      exact delivered.active another ⟨new, found', status⟩

theorem relies_write (different : other ≠ task) (locked : jobs.locks executionId = some task)
    (may : jobs.MayWrite executionId row)
    (owner : jobs.worker = some task ∨ row.status = .cancelled) :
    Relies other jobs (jobs.write executionId row) where
  locked another locked' := by
    have other : another ≠ executionId := by
      rintro rfl
      exact different (Option.some.inj (locked'.symm.trans locked))
    exact ⟨locked', write_rows_of_ne other⟩
  grows another := write_committed_extends executionId another row jobs
  settled another _ settled := by
    intro new found'
    by_cases same : another = executionId
    · subst same
      obtain ⟨old, found, step⟩ := may
      obtain rfl := Option.some.inj (write_rows_self.symm.trans found')
      have terminal := settled old found
      have unchanged : row.status = old.status := by
        refine step.resolve_right fun accepts => ?_
        unfold Accepts at accepts
        rw [terminal] at accepts
        exact List.not_mem_nil accepts
      rw [unchanged]
      exact terminal
    · exact settled new (write_rows_of_ne same ▸ found')
  undisturbed alive := by
    obtain ⟨old, found, step⟩ := may
    have cancelled : row.status = .cancelled :=
      owner.resolve_left fun mine => different (Option.some.inj (alive.symm.trans mine))
    refine ⟨rfl, rfl, rfl, rfl, ?_, ?_, ?_⟩
    · rintro another idle ⟨new, found', active⟩
      by_cases same : another = executionId
      · subst same
        obtain rfl := Option.some.inj (write_rows_self.symm.trans found')
        rw [cancelled] at active
        rcases active with active | active <;> cases active
      · exact idle ⟨new, write_rows_of_ne same ▸ found', active⟩
    · intro another _ claimed new found'
      by_cases same : another = executionId
      · subst same
        have starting := claimed old found
        rw [cancelled, starting] at step
        exact absurd step (by decide)
      · exact claimed new (write_rows_of_ne same ▸ found')
    · intro another safe new found'
      by_cases same : another = executionId
      · subst same
        obtain rfl := Option.some.inj (write_rows_self.symm.trans found')
        exact .inl (cancelled ▸ rfl)
      · exact safe new (write_rows_of_ne same ▸ found')

end Write

section Insert

variable {row : ExecutionRow}

private theorem insert_rows_of_ne {another : ExecutionId}
    (different : another ≠ jobs.nextExecution) :
    (jobs.insert task row).rows another = jobs.rows another :=
  Function.update_of_ne different _ _

private theorem insert_committed_of_ne {another : ExecutionId}
    (different : another ≠ jobs.nextExecution) :
    (jobs.insert task row).committed another = jobs.committed another :=
  Function.update_of_ne different _ _

private theorem insert_rows_self : (jobs.insert task row).rows jobs.nextExecution = some row :=
  Function.update_self _ _ _

theorem Sound.insert (sound : jobs.Sound) (queued : row.status = .queued) :
    (jobs.insert task row).Sound := by
  have nothing := sound.fresh _ (Nat.le_refl jobs.nextExecution)
  have committed : (jobs.insert task row).committed jobs.nextExecution = [row.status] :=
    Function.update_self _ _ _
  -- What was committed before is not about the next identifier.
  have old : ∀ {another}, jobs.committed another ≠ [] → another ≠ jobs.nextExecution := by
    rintro another inserted rfl
    exact inserted nothing
  refine ⟨?_, ?_, ?_, fun another beyond => sound.unlocked another (Nat.le_of_lt beyond), ?_,
    sound.once, ?_⟩
  · intro another
    by_cases same : another = jobs.nextExecution
    · rw [same, committed, queued]
      exact ⟨fun status first => (Option.some.inj first).symm, List.isChain_singleton _⟩
    · rw [insert_committed_of_ne same]
      exact sound.path another
  · intro another new found'
    by_cases same : another = jobs.nextExecution
    · rw [same, insert_rows_self] at found'
      rw [same, committed, Option.some.inj found']
      rfl
    · rw [insert_rows_of_ne same] at found'
      rw [insert_committed_of_ne same]
      exact sound.current another new found'
  · intro another beyond
    rw [insert_committed_of_ne (Nat.ne_of_gt beyond)]
    exact sound.fresh another (Nat.le_of_lt beyond)
  · intro another member
    have started := sound.started another member
    rw [insert_committed_of_ne (old (List.ne_nil_of_mem started))]
    exact started
  · intro another member
    have cancelled := sound.cancelled another member
    rw [insert_committed_of_ne (old (by simp [cancelled]))]
    exact cancelled

private theorem queued_insert (held : jobs.Queued executionId) :
    (jobs.insert task row).Queued executionId :=
  held.imp_right fun rest => rest.imp_right fun ⟨creator, member⟩ =>
    ⟨creator, List.mem_cons_of_mem _ member⟩

theorem Delivered.insert (delivered : jobs.Delivered) (queued : row.status = .queued) :
    (jobs.insert task row).Delivered where
  queued another new found' status := by
    by_cases same : another = jobs.nextExecution
    · exact .inl (.inr (.inr ⟨task, same ▸ List.mem_cons_self⟩))
    · rw [insert_rows_of_ne same] at found'
      exact (delivered.queued another new found' status).imp_left queued_insert
  active := by
    rintro another ⟨new, found', status⟩
    by_cases same : another = jobs.nextExecution
    · rw [same, insert_rows_self] at found'
      rw [← Option.some.inj found', queued] at status
      rcases status with status | status <;> cases status
    · rw [insert_rows_of_ne same] at found'
      exact delivered.active another ⟨new, found', status⟩

theorem relies_insert (sound : jobs.Sound) (queued : row.status = .queued) :
    Relies other jobs (jobs.insert task row) where
  locked another locked := by
    refine ⟨locked, insert_rows_of_ne ?_⟩
    rintro rfl
    rw [sound.unlocked _ (Nat.le_refl _)] at locked
    cases locked
  grows another := by
    by_cases same : another = jobs.nextExecution
    · rw [same, sound.fresh _ (Nat.le_refl _)]
      exact List.nil_prefix
    · rw [insert_committed_of_ne same]
  settled another inserted settled new found' := by
    have different : another ≠ jobs.nextExecution := by
      rintro rfl
      exact inserted (sound.fresh _ (Nat.le_refl _))
    exact settled new (insert_rows_of_ne different ▸ found')
  undisturbed _ := by
    refine ⟨rfl, rfl, rfl, rfl, ?_, ?_, ?_⟩
    · rintro another idle ⟨new, found', active⟩
      by_cases same : another = jobs.nextExecution
      · rw [same, insert_rows_self] at found'
        rw [← Option.some.inj found', queued] at active
        rcases active with active | active <;> cases active
      · exact idle ⟨new, insert_rows_of_ne same ▸ found', active⟩
    · intro another inserted claimed new found'
      have different : another ≠ jobs.nextExecution := by
        rintro rfl
        exact inserted (sound.fresh _ (Nat.le_refl _))
      exact claimed new (insert_rows_of_ne different ▸ found')
    · intro another safe new found'
      by_cases same : another = jobs.nextExecution
      · rw [same, insert_rows_self] at found'
        refine .inr ⟨?_, .inr (.inr ⟨task, same ▸ List.mem_cons_self⟩)⟩
        rw [← Option.some.inj found', queued]
      · exact (safe new (insert_rows_of_ne same ▸ found')).imp_right
          fun ⟨status, held⟩ => ⟨status, queued_insert held⟩

end Insert

section Delete

private theorem queued_settle {another : ExecutionId} (different : another ≠ executionId)
    (held : jobs.Queued another) : (jobs.settle executionId).Queued another :=
  held.imp_right fun rest => rest.imp_right fun ⟨creator, member⟩ =>
    ⟨creator, List.mem_filter.mpr ⟨member, by simpa using different⟩⟩

private theorem queued_settle_of_queue {another : ExecutionId}
    (queued : .execution executionId ∈ jobs.queue) (held : jobs.Queued another) :
    (jobs.settle executionId).Queued another := by
  by_cases same : another = executionId
  · exact .inr (.inl (same ▸ queued))
  · exact queued_settle same held

/-- An execution that is in the queue needs its API task no more. -/
theorem relies_settle (queued : .execution executionId ∈ jobs.queue) :
    Relies task jobs (jobs.settle executionId) :=
  relies_of_rows rfl rfl (fun _ => id) fun _ =>
    ⟨rfl, rfl, rfl, rfl, fun _ => queued_settle_of_queue queued⟩

theorem Delivered.settle (delivered : jobs.Delivered)
    (queued : .execution executionId ∈ jobs.queue) : (jobs.settle executionId).Delivered :=
  delivered.of_rows rfl (fun _ => queued_settle_of_queue queued) rfl

private theorem delete_rows_of_some {another : ExecutionId} {row : ExecutionRow}
    (found : (jobs.delete executionId).rows another = some row) :
    another ≠ executionId ∧ jobs.rows another = some row := by
  by_cases same : another = executionId
  · rw [same] at found
    rw [show (jobs.delete executionId).rows executionId = none from Function.update_self _ _ _]
      at found
    cases found
  · exact ⟨same, (Function.update_of_ne same _ _).symm.trans found⟩

theorem Sound.delete (sound : jobs.Sound) : (jobs.delete executionId).Sound where
  path := sound.path
  current another row found := sound.current another row (delete_rows_of_some found).2
  fresh := sound.fresh
  unlocked := sound.unlocked
  started := sound.started
  once := sound.once
  cancelled := sound.cancelled

theorem Delivered.delete (delivered : jobs.Delivered) : (jobs.delete executionId).Delivered where
  queued another row found status := by
    obtain ⟨different, found⟩ := delete_rows_of_some found
    exact (delivered.queued another row found status).imp_left (queued_settle different)
  active := by
    rintro another ⟨row, found, status⟩
    exact delivered.active another ⟨row, (delete_rows_of_some found).2, status⟩

theorem relies_delete (free : jobs.locks executionId = none) :
    Relies task jobs (jobs.delete executionId) where
  locked another locked := by
    refine ⟨locked, Function.update_of_ne ?_ _ _⟩
    rintro rfl
    rw [free] at locked
    cases locked
  grows _ := List.prefix_refl _
  settled another _ settled row found := settled row (delete_rows_of_some found).2
  undisturbed _ := by
    refine ⟨rfl, rfl, rfl, rfl, ?_, ?_, ?_⟩
    · rintro another idle ⟨row, found, active⟩
      exact idle ⟨row, (delete_rows_of_some found).2, active⟩
    · exact fun another _ claimed row found => claimed row (delete_rows_of_some found).2
    · intro another safe row found
      obtain ⟨different, found⟩ := delete_rows_of_some found
      exact (safe row found).imp_right fun ⟨status, held⟩ => ⟨status, queued_settle different held⟩

end Delete

end Jobs

end Execution

end Concord

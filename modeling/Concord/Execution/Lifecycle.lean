import Concord.Asyncio.Runs
import Concord.Execution.WorkerRules

/-!
Contract: the life and the delivery of an execution, over all runs.

Owns:
- the specifications of the API tasks, and `executions_keep`, which puts them
  together with the worker's;
- `lifecycle_safety`, the life of a row under any event;
- `nothing_is_stranded`, the delivery of a row under the careful policy, and a run
  that strands a row without it.

An acknowledgement stands in a `finally` block of `run`. Where the first transition
or the `except` block of `process` raises, it is acknowledged all the same.

Does not own: the resources of a job.
-/

set_option autoImplicit false

namespace Concord.Execution

open Asyncio ExecState ExecutionStatus

variable {strict : Prop} {allows : ExecState → ExecCall → ExecEvent → Prop} {task : TaskId}

/-! ### The API tasks -/

/-- The assertion of a task that knows nothing. -/
def Anything (_ : Jobs) : Prop := True

private theorem anything_stable : Stable task Anything := fun _ _ _ _ => trivial

private theorem anything_lockFree : LockFree Anything := fun _ _ _ => trivial

private theorem meets_refresh_anything (executionId : ExecutionId) :
    Meets strict allows task Anything (refresh task executionId) (fun _ => Anything) Anything :=
  meets_refresh anything_stable (fun _ _ _ _ _ _ _ => trivial) fun _ _ _ => trivial

private theorem meets_insertCall {row : ExecutionRow} (queued : row.status = .queued) :
    Meets strict allows task Anything (insertCall task row) (fun _ => Anything) Anything := by
  refine meets_serverCall anything_stable ?_ (fun _ _ _ _ _ _ _ => trivial)
    fun _ _ _ _ _ _ _ _ _ _ _ => trivial
  rintro state _ _ kept _ ⟨⟩
  exact ⟨⟨⟨kept.1.insert queued, fun isStrict => (kept.2 isStrict).insert queued⟩,
    fun _ _ => Jobs.relies_insert kept.1 queued⟩, trivial⟩

private theorem meets_deleteCall (executionId : ExecutionId) :
    Meets strict allows task Anything (deleteCall task executionId) (fun _ => Anything) Anything := by
  refine meets_serverCall anything_stable ?_ (fun _ _ _ _ _ _ _ => trivial)
    fun _ _ _ _ _ _ _ _ _ _ _ => trivial
  intro state _ _ kept _ effected
  split at effected
  · next free =>
      obtain ⟨_, rfl⟩ := Prod.mk.inj (Option.some.inj effected)
      exact ⟨⟨⟨kept.1.delete, fun isStrict => (kept.2 isStrict).delete⟩,
        fun _ _ => Jobs.relies_delete free⟩, trivial⟩
  · cases effected

/-- An execution is in the queue before its API task lets it go. -/
theorem meets_enqueue (executionId : ExecutionId) :
    Meets strict allows task Anything (rpush task (.execution executionId))
      (fun _ jobs => .execution executionId ∈ jobs.queue) Anything := by
  refine meets_serverCall anything_stable ?_ (fun _ _ _ _ _ _ _ => trivial)
    fun _ _ _ _ _ _ _ _ _ _ _ => trivial
  rintro state _ _ kept _ ⟨⟩
  exact ⟨keeping_push kept _, List.mem_append_right _ List.mem_cons_self⟩

private theorem meets_settleRow {executionId : ExecutionId} :
    Meets strict allows task (fun jobs => .execution executionId ∈ jobs.queue)
      (modify (settleRow executionId)) (fun _ => Anything) Anything :=
  Meets.modify fun _ kept queued =>
    ⟨⟨⟨kept.1.of_rows rfl rfl rfl rfl rfl rfl, fun isStrict => (kept.2 isStrict).settle queued⟩,
      fun _ _ => Jobs.relies_settle queued⟩, trivial⟩

private theorem meets_stopCreating :
    Meets strict allows task Anything (modify (stopCreating task)) (fun _ => Anything) Anything :=
  Meets.modify fun _ kept _ =>
    ⟨⟨⟨kept.1.of_rows rfl rfl rfl rfl rfl rfl, fun isStrict =>
      (kept.2 isStrict).of_rows rfl (fun _ => Jobs.queued_stopCreating) rfl⟩,
      fun _ _ => Jobs.relies_stopCreating⟩, trivial⟩

private theorem meets_createQueuedExecution (sessionId : Nat) (code : String)
    (language : LanguageEnum) :
    Meets strict allows task Anything (createQueuedExecution task sessionId code language)
      (fun _ => Anything) Anything := by
  refine Meets.tryFinally ?_ (fun _ => meets_stopCreating) meets_stopCreating
  refine Meets.bind (meets_insertCall rfl) fun executionId => ?_
  refine Meets.bind (meets_refresh_anything executionId) fun row => ?_
  refine Meets.bind (Meets.tryExcept (meets_enqueue executionId) fun _ =>
    Meets.bind (meets_deleteCall executionId) fun _ => Meets.throw fun _ _ _ => trivial) fun _ => ?_
  exact Meets.bind meets_settleRow fun _ => Meets.pure fun _ _ => trivial

/-- A cancellation writes a row that it has locked. -/
theorem meets_cancelRow {executionId : ExecutionId} {row : ExecutionRow}
    (cancellable : row.status = .queued ∨ row.status = .running) :
    Meets strict allows task (fun jobs => Anything jobs ∧ Locked task executionId row jobs)
      (do
        let cancelled ← ofExcept (row.transitionTo .cancelled)
        let row := { cancelled with finishedAt := some (← get).clock }
        commitRow task executionId row
        refresh task executionId) (fun _ => Anything) Anything := by
  have accepts : row.status.Accepts .cancelled := by
    rcases cancellable with status | status <;> rw [status] <;> decide
  rw [transitionTo_ok accepts, ofExcept_ok_bind]
  refine Meets.get_bind fun state => ?_
  refine Meets.bind (meets_commit anything_stable anything_lockFree anything_lockFree (.inr accepts)
    (fun _ _ => .inr rfl) ?_ (fun _ _ _ _ => trivial) (fun _ _ _ _ _ _ _ => trivial)
    fun _ _ _ _ _ _ _ => trivial) fun _ => meets_refresh_anything executionId
  rintro _ _ _ (active | active) <;> cases active

private theorem meets_cancelExecution (sessionId : Nat) (executionId : ExecutionId) :
    Meets strict allows task Anything (cancelExecution task sessionId executionId)
      (fun _ => Anything) Anything := by
  refine meets_withSession (fun _ => anything_lockFree) anything_lockFree ?_
  have got : Meets strict allows task Anything (getExecution task sessionId executionId)
      (fun row jobs => Anything jobs ∧ Locked task executionId row jobs) Anything := by
    refine Meets.bind (meets_select anything_stable anything_lockFree anything_lockFree
      fun _ _ _ _ _ _ _ => trivial) fun found => ?_
    cases found with
    | none => exact Meets.throw fun _ _ _ => trivial
    | some row => exact Meets.pure fun _ ⟨holds, locked, found, _⟩ => ⟨holds, locked, found⟩
  refine Meets.bind got fun row => ?_
  dsimp only
  split
  · next cancellable =>
      split
      · refine Meets.bind (Meets.tryExcept (meets_quietServer (stable_locked anything_stable) ?_)
          fun _ => Meets.throw fun _ _ _ => trivial) fun _ => meets_cancelRow cancellable
        rintro state _ _ ⟨⟩
        rfl
      · exact meets_cancelRow cancellable
  · exact Meets.throw fun _ _ _ => trivial

/-! ### The service -/

variable {settings : Settings} {policy : Policy ExecState ExecEvent ExecCall ExecRequest}

private theorem kept_initial {state : ExecState} (initial : Initial state) :
    Kept strict (jobs state) := by
  obtain ⟨empty, starts, cancelled, _, _, _⟩ := initial
  have nothing : ∀ {executionId row}, (jobs state).rows executionId ≠ some row := by
    intro executionId row found
    cases (empty executionId).1.symm.trans found
  refine ⟨?_, fun _ => ⟨fun _ _ found => absurd found nothing, ?_⟩⟩
  · refine ⟨fun executionId => ?_, fun _ _ found => absurd found nothing,
      fun executionId _ => (empty executionId).2.2, fun executionId _ => (empty executionId).2.1,
      ?_, ?_, ?_⟩
    · rw [show (jobs state).committed executionId = [] from (empty executionId).2.2]
      exact ⟨nofun, .nil⟩
    · rw [show (jobs state).starts = [] from starts]
      exact List.forall_mem_nil _
    · rw [show (jobs state).starts = [] from starts]
      exact List.nodup_nil
    · rw [show (jobs state).cancelledQueued = [] from cancelled]
      exact List.forall_mem_nil _
  · rintro executionId ⟨row, found, _⟩
    exact absurd found nothing

/-- What happens without a task changes the queue at most. -/
theorem change_jobs {ambient : ExecAmbient} {state after : ExecState}
    (changed : state.change ambient = some after) :
    jobs after = jobs state ∨ ∃ item, jobs after = (jobs state).push item := by
  cases ambient with
  | tick elapsed =>
      obtain rfl := Option.some.inj changed
      exact .inl rfl
  | write container stdout stderr =>
      simp only [ExecState.change, writeOutput] at changed
      split at changed <;> cases changed
      exact .inl rfl
  | exit container code =>
      simp only [ExecState.change, exitContainer] at changed
      split at changed <;> cases changed
      exact .inl rfl
  | endStream ended =>
      simp only [ExecState.change] at changed
      split at changed <;> cases changed
      exact .inl rfl
  | duplicate item =>
      obtain rfl := Option.some.inj changed
      exact .inr ⟨item, rfl⟩

private theorem kept_restart {state : ExecState} (kept : Kept strict (jobs state)) :
    Kept strict (jobs state.restart) := by
  have sound := kept.1
  refine ⟨⟨sound.path, sound.current, sound.fresh, fun _ _ => rfl, sound.started, sound.once,
    sound.cancelled⟩, fun isStrict => (kept.2 isStrict).of_rows rfl ?_ rfl⟩
  rintro executionId (abandoned | queued | ⟨creator, member⟩)
  · exact .inl (show (state.abandoned || !state.creating.isEmpty) = true from
      Bool.or_eq_true_iff.mpr (.inl abandoned))
  · exact .inr (.inl queued)
  · refine .inl (show (state.abandoned || !state.creating.isEmpty) = true from ?_)
    cases creating : state.creating with
    | nil =>
        rw [show (jobs state).creating = [] from creating] at member
        cases member
    | cons first rest => exact Bool.or_true _

/-- A specification of a request. -/
theorem wp_of_meets {α : Type} {assertion : Jobs → Prop} {program : ExecProgram α}
    {returned : α → Jobs → Prop} {raised : Jobs → Prop}
    (holds : Meets strict allows task assertion program returned raised) {state : ExecState}
    (kept : Kept strict (jobs state)) (start : assertion (jobs state)) :
    wp (jobProtocol strict) allows task (do let _ ← program)
      ((jobProtocol strict).finished task) () state := by
  rw [wp_bind]
  refine wp_mono ?_ (holds state kept start)
  rintro result _ after ⟨kept, _⟩
  cases result <;> exact ⟨kept, trivial⟩

private theorem executions_keep
    (careful : ∀ turns jobs, CarefulPolicy strict (policy (.worker turns jobs))) :
    Keeps (jobProtocol strict) (executions settings) policy Initial where
  start initial := ⟨(), kept_initial initial, fun _ => trivial⟩
  request {task request _ state} kept _ _ := by
    cases request with
    | run sessionId code language =>
        exact wp_of_meets (meets_createQueuedExecution sessionId code language) kept trivial
    | cancel sessionId executionId =>
        exact wp_of_meets (meets_cancelExecution sessionId executionId) kept trivial
    | worker turns jobs =>
        refine wp_mono ?_ (meets_worker (careful turns jobs) settings turns jobs state kept trivial)
        rintro result _ after ⟨kept, _⟩
        exact ⟨kept, trivial⟩
  ambient {change _ state after} changed kept _ := by
    rcases change_jobs changed with same | ⟨item, pushed⟩
    · exact ⟨(), (same ▸ kept : Kept strict (jobs after)), fun task =>
        (same ▸ .refl task _ : Jobs.Relies task (jobs state) (jobs after))⟩
    · have keeping : ∀ task, Keeping strict task (jobs state) (jobs after) :=
        fun task => pushed ▸ keeping_push kept item
      exact ⟨(), (keeping 0).1, fun task =>
        (pushed ▸ Jobs.relies_push : Jobs.Relies task (jobs state) (jobs after))⟩
  restart kept := ⟨(), kept_restart kept, fun _ => trivial⟩

private theorem reachable_kept
    (careful : ∀ turns jobs, CarefulPolicy strict (policy (.worker turns jobs)))
    {pool : Pool ExecState ExecEvent ExecCall ExecExn ExecRequest}
    (reached : Reachable (executions settings) policy Initial pool) : Kept strict (jobs pool.state) := by
  obtain ⟨_, kept, _⟩ := reached.verified (jobProtocol_lawful strict) (executions_keep careful)
    fun _ => trivial
  exact kept

/-! ### The life of a row -/

/-- Whatever happens, the committed statuses of an execution are a path from
`QUEUED`, of which its row has the last, and which ends with a terminal status. Its
sandbox is started once at most, and never after a cancellation in the queue. -/
theorem lifecycle_safety {pool : Pool ExecState ExecEvent ExecCall ExecExn ExecRequest}
    (reached : Reachable (executions settings) anyEvent Initial pool) (executionId : ExecutionId) :
    Path (pool.state.committed executionId) ∧
      (∀ row, pool.state.rows executionId = some row →
        (pool.state.committed executionId).getLast? = some row.status) ∧
      (∀ earlier status later, pool.state.committed executionId = earlier ++ status :: later →
        status.Terminal → later = []) ∧
      pool.state.docker.starts.count executionId ≤ 1 ∧
        (executionId ∈ pool.state.cancelledQueued → executionId ∉ pool.state.docker.starts) := by
  have kept : Kept False (jobs pool.state) := reachable_kept (fun _ _ never => never.elim) reached
  obtain ⟨sound, _⟩ := kept
  refine ⟨sound.path executionId, sound.current executionId, ?_, ?_, ?_⟩
  · intro earlier status later same terminal
    have path : Path (earlier ++ status :: later) := same ▸ sound.path executionId
    exact path.terminal terminal
  · exact List.nodup_iff_count_le_one.mp sound.once executionId
  · intro cancelled started
    have claimed := sound.started executionId started
    rw [sound.cancelled executionId cancelled] at claimed
    exact absurd claimed (by decide)

def emptyState : ExecState where
  rows _ := none
  locks _ := none
  nextExecution := 0
  queue := []
  processing := []
  cancellation _ := false
  published := []
  docker := ⟨[], fun _ => none, fun _ => none, 0, [], [], []⟩
  stream := none
  worker := none
  clock := 0
  committed _ := []
  cancelledQueued := []
  working := none
  creating := []
  abandoned := false

theorem emptyState_initial : Initial emptyState :=
  ⟨fun _ => ⟨rfl, rfl, rfl⟩, rfl, rfl, rfl, rfl, rfl⟩

def playFromEmpty (schedule : List (Move ExecEvent ExecRequest ExecAmbient)) :
    Option (Pool ExecState ExecEvent ExecCall ExecExn ExecRequest) :=
  (executions ⟨30000, 1048576⟩).play permitsAll schedule (Pool.start emptyState)

private theorem reachable_of_playFromEmpty
    {schedule : List (Move ExecEvent ExecRequest ExecAmbient)}
    {pool : Pool ExecState ExecEvent ExecCall ExecExn ExecRequest}
    (played : playFromEmpty schedule = some pool) :
    Reachable (executions ⟨30000, 1048576⟩) anyEvent Initial pool :=
  Service.reachable_of_play (fun _ _ _ _ _ => trivial) (.start emptyState_initial) played

def cancelSchedule : List (Move ExecEvent ExecRequest ExecAmbient) :=
  [.spawn 1 (.run 7 "" .python), .resume 1 .done, .resume 1 .done, .resume 1 .done,
    .spawn 2 (.cancel 7 0), .resume 2 .done, .resume 2 .done, .resume 2 .done]

theorem lifecycle_safety_run : ∃ pool,
    Reachable (executions ⟨30000, 1048576⟩) anyEvent Initial pool ∧
      0 ∈ pool.state.cancelledQueued ∧ 0 ∉ pool.state.docker.starts := by
  have ends : (playFromEmpty cancelSchedule).any fun pool => 0 ∈ pool.state.cancelledQueued := by
    decide +kernel
  obtain ⟨pool, played, cancelled⟩ := (Option.any_eq_true _ _).mp ends
  have reached := reachable_of_playFromEmpty played
  have cancelled := of_decide_eq_true cancelled
  exact ⟨pool, reached, cancelled, (lifecycle_safety reached 0).2.2.2.2 cancelled⟩

/-! ### The delivery of a row -/

/-- An execution that is neither terminal nor worked on, and that no list has. -/
def Stranded (executionId : ExecutionId) (state : ExecState) : Prop :=
  ∃ row, state.rows executionId = some row ∧ ¬row.status.Terminal ∧
    (∀ phase, state.working ≠ some (executionId, phase)) ∧
      (∀ task, (executionId, task) ∉ state.creating) ∧
        .execution executionId ∉ state.queue ∧ .execution executionId ∉ state.processing

/-- The policy under which a worker does not lose an execution: no call of its first
transition or of its `except` block raises while the row is not settled. -/
def carefulPolicy : Policy ExecState ExecEvent ExecCall ExecRequest
  | .worker _ _, state, _, event => Careful state event
  | _, _, _, _ => True

/-- Under the careful policy no execution is stranded, as long as no API task has
stopped between the commit and the queue. -/
theorem nothing_is_stranded {pool : Pool ExecState ExecEvent ExecCall ExecExn ExecRequest}
    (reached : Reachable (executions settings) carefulPolicy Initial pool)
    (queued : pool.state.abandoned = false) (executionId : ExecutionId) :
    ¬Stranded executionId pool.state := by
  have kept : Kept True (jobs pool.state) :=
    reachable_kept (fun _ _ _ _ _ _ allowed => allowed) reached
  have delivered := kept.2 trivial
  rintro ⟨row, found, open', _, uncreated, unqueued, unprocessed⟩
  have held : row.status = .queued → False := by
    intro status
    rcases delivered.queued executionId row found status with (abandoned | member | creating) | member
    · rw [show (jobs pool.state).abandoned = false from queued] at abandoned
      cases abandoned
    · exact unqueued member
    · obtain ⟨task, member⟩ := creating
      exact uncreated task member
    · exact unprocessed member
  cases status : row.status with
  | queued => exact held status
  | starting => exact unprocessed (delivered.active executionId ⟨row, found, .inl status⟩)
  | running => exact unprocessed (delivered.active executionId ⟨row, found, .inr status⟩)
  | _ =>
      rw [status] at open'
      exact open' rfl

/-- A worker takes an execution, and the publication of its first transition is
answered with `event`. -/
def claimSchedule (event : ExecEvent) : List (Move ExecEvent ExecRequest ExecAmbient) :=
  [.spawn 1 (.run 7 "" .python), .resume 1 .done, .resume 1 .done, .resume 1 .done,
    .spawn 2 (.worker 1 1), .resume 2 .done, .resume 2 .done, .resume 2 .done, .resume 2 .done,
    .resume 2 .done, .resume 2 .done, .resume 2 .done, .resume 2 .done, .resume 2 event]

/-- A run in which every call of the worker returns. -/
theorem nothing_is_stranded_run : ∃ pool,
    Reachable (executions ⟨30000, 1048576⟩) carefulPolicy Initial pool ∧
      (pool.state.rows 0).map (·.status) = some .starting ∧ pool.state.queue = [] ∧
        ¬Stranded 0 pool.state := by
  let permits : ExecRequest → ExecState → ExecCall → ExecEvent → Bool :=
    fun _ _ _ event => event = .done
  have ends : ((executions ⟨30000, 1048576⟩).play permits (claimSchedule .done)
      (Pool.start emptyState)).any fun pool => pool.state.abandoned = false ∧
        (pool.state.rows 0).map (·.status) = some .starting ∧ pool.state.queue = [] := by
    decide +kernel
  obtain ⟨pool, played, last⟩ := (Option.any_eq_true _ _).mp ends
  obtain ⟨kept, starting, queue⟩ := of_decide_eq_true last
  have careful : ∀ request state call event, permits request state call event = true →
      carefulPolicy request state call event := by
    intro request state call event done
    cases request with
    | worker turns jobs => exact fun notDone => absurd (of_decide_eq_true done) notDone
    | _ => trivial
  have reached := Service.reachable_of_play careful (.start emptyState_initial) played
  exact ⟨pool, reached, starting, queue, nothing_is_stranded reached kept 0⟩

/-- The publication raises, and the execution is acknowledged with status
`STARTING`. -/
theorem execution_stranded : ∃ pool,
    Reachable (executions ⟨30000, 1048576⟩) anyEvent Initial pool ∧
      pool.state.abandoned = false ∧ Stranded 0 pool.state := by
  have ends : (playFromEmpty (claimSchedule .unavailable ++ [.resume 2 .done])).any fun pool =>
      pool.state.abandoned = false ∧ (pool.state.rows 0).map (·.status) = some .starting ∧
        pool.state.working = none ∧ pool.state.creating = [] ∧ pool.state.queue = [] ∧
          pool.state.processing = [] := by
    decide +kernel
  obtain ⟨pool, played, last⟩ := (Option.any_eq_true _ _).mp ends
  obtain ⟨kept, starting, idle, created, queue, processing⟩ := of_decide_eq_true last
  obtain ⟨row, found, status⟩ := Option.map_eq_some_iff.mp starting
  refine ⟨pool, reachable_of_playFromEmpty played, kept, row, found, ?_, ?_, ?_, ?_, ?_⟩
  · rw [status]
    decide
  · rw [idle]
    exact fun _ => nofun
  · rw [created]
    exact fun _ => List.not_mem_nil
  · rw [queue]
    exact List.not_mem_nil
  · rw [processing]
    exact List.not_mem_nil

end Concord.Execution

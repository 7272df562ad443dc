import Concord.Asyncio.Coroutine
import Concord.Execution.Output
import Concord.Models

/-!
Contract: the state of code execution: rows, Redis lists, the Docker daemon.

Owns:
- the execution rows with their row locks, the two Redis lists, cancellation
  keys, containers and volumes;
- the awaited operations of the API and of the worker, each of which may raise,
  or see its process die.

A Docker call that raises has had no effect as far as its caller can tell: what
it created has no handle. The rows that were committed, the resources that were
created and removed and the starts are history. No handler reads them.

Does not own: the coroutines that use the operations.
-/

set_option autoImplicit false

namespace Concord.Execution

open Asyncio

abbrev ExecutionId := Nat

/-- The settings of the sandbox. Time is in milliseconds. -/
structure Settings where
  timeout : Nat
  outputLimit : Nat

structure ExecutionRow where
  sessionId : Nat
  status : ExecutionStatus
  code : String
  language : LanguageEnum
  stdout : Option String
  stderr : Option String
  exitCode : Option Int
  elapsedMs : Option Nat
  finishedAt : Option Nat
  deriving DecidableEq

/-- An item of a Redis list: the text of an execution id, or something else. -/
inductive QueueItem where
  | execution (executionId : ExecutionId)
  | malformed (text : String)
  deriving DecidableEq

/-- A resource of the Docker daemon, by the order of creation. -/
inductive Resource where
  | container (id : Nat)
  | volume (id : Nat)
  deriving DecidableEq

/-- `container.status`, with the exit code of a container that has run. -/
inductive ContainerStatus where
  | created
  | running
  | exited (code : Int)
  deriving DecidableEq

structure Container where
  status : ContainerStatus
  stdout : List UInt8
  stderr : List UInt8
  deriving DecidableEq

/-- The Docker daemon. A volume keeps the file that was put into it. -/
structure DockerDaemon where
  images : List String
  containers : Nat → Option Container
  volumes : Nat → Option (Option (String × String))
  nextId : Nat
  created : List Resource
  removals : List Resource
  starts : List ExecutionId

/-- The task that streams the output of a sandbox. -/
inductive StreamTask where
  | running
  | returned
  | failed (text : String)
  deriving DecidableEq

/-- The part of `process` that a worker is in: its first transition, the sandbox, or
the `except` block. -/
inductive JobPhase where
  | claiming
  | running
  | failing
  deriving DecidableEq

/-- PostgreSQL, Redis and Docker, with the worker process that is alive. `committed`
has the statuses that each row was given, `cancelledQueued` the executions that
were cancelled in the queue. `working` is the job of the worker, `creating` has the
rows that an API task has committed and not queued yet. `abandoned` tells that such
a task has stopped there. -/
structure ExecState where
  rows : ExecutionId → Option ExecutionRow
  locks : ExecutionId → Option TaskId
  nextExecution : ExecutionId
  queue : List QueueItem
  processing : List QueueItem
  cancellation : ExecutionId → Bool
  published : List (ExecutionId × ExecutionRow)
  docker : DockerDaemon
  stream : Option StreamTask
  worker : Option TaskId
  clock : Nat
  committed : ExecutionId → List ExecutionStatus
  cancelledQueued : List ExecutionId
  working : Option (ExecutionId × JobPhase)
  creating : List (ExecutionId × TaskId)
  abandoned : Bool

/-- How an awaited operation ends: it returns, it raises without effect or although
it took effect, the connection to Redis fails before or after the effect, or the
process of its task dies. -/
inductive ExecEvent where
  | done
  | raised (text : String)
  | raisedAfter (text : String)
  | unavailable
  | unavailableAfter
  | crash
  deriving DecidableEq

inductive ExecCall where
  | startWorker
  | dead
  | rowLock
  | commit
  | refresh
  | insertRow
  | deleteRow
  | publish
  | rpush
  | blmove
  | lrem
  | lrange
  | existsKey
  | setKey
  | deleteKey
  | pause
  | imageGet
  | imagePull
  | createVolume
  | createWriter
  | putArchive
  | createSandbox
  | startSandbox
  | reload
  | kill
  | wait
  | logs
  | streamTask
  | removeContainer
  | removeVolume
  | listContainers
  | listVolumes
  deriving DecidableEq

/-- The exceptions of the execution code. `driver` has the text of what a database,
Redis or Docker call raises. -/
inductive ExecExn where
  | driver (text : String)
  | redisUnavailable
  | imageNotFound
  | invalidTransition (status target : ExecutionStatus)
  | notFound
  | conflict (status : ExecutionStatus)
  | queueError (message : String)
  deriving DecidableEq

/-- `str(exc)`. -/
def ExecExn.text : ExecExn → String
  | driver text => text
  | redisUnavailable => "Redis is unavailable"
  | imageNotFound => "No such image"
  | invalidTransition status target =>
      "Invalid transition: " ++ status.value ++ " → " ++ target.value ++ ". Allowed: [" ++
        String.intercalate ", " (status.validTransitions.map fun next => "'" ++ next.value ++ "'") ++
        "]"
  | notFound => "Execution not found"
  | conflict status => "Execution in state " ++ status.value ++ " cannot be cancelled"
  | queueError message => message

/-- An `async` function of the API or of the worker. -/
abbrev ExecProgram := Coroutine ExecState ExecEvent ExecCall ExecExn

variable {α : Type} {task : TaskId}

namespace ExecState

def releaseLocks (task : TaskId) (state : ExecState) : ExecState :=
  { state with locks := fun executionId =>
      if state.locks executionId = some task then none else state.locks executionId }

/-- An API task stops: a row that it has not queued is abandoned. -/
def stopCreating (task : TaskId) (state : ExecState) : ExecState :=
  { state with
    creating := state.creating.filter (·.2 ≠ task)
    abandoned := state.abandoned || state.creating.any (·.2 = task) }

/-- The process of a task dies: its connections close, and a worker is gone with
its stream. -/
def crash (task : TaskId) (state : ExecState) : ExecState :=
  let left := (state.releaseLocks task).stopCreating task
  if state.worker = some task then { left with worker := none, stream := none, working := none }
  else left

def insertRow (task : TaskId) (row : ExecutionRow) (state : ExecState) : ExecState :=
  { state with
    rows := Function.update state.rows state.nextExecution (some row)
    nextExecution := state.nextExecution + 1
    committed := Function.update state.committed state.nextExecution [row.status]
    creating := (state.nextExecution, task) :: state.creating }

def settleRow (executionId : ExecutionId) (state : ExecState) : ExecState :=
  { state with creating := state.creating.filter (·.1 ≠ executionId) }

def deleteRow (executionId : ExecutionId) (state : ExecState) : ExecState :=
  { state.settleRow executionId with rows := Function.update state.rows executionId none }

/-- Write a row. A new status is history. -/
def writeRow (executionId : ExecutionId) (row : ExecutionRow) (state : ExecState) : ExecState :=
  let before := (state.rows executionId).map (·.status)
  { state with
    rows := Function.update state.rows executionId (some row)
    committed := if before = some row.status then state.committed
      else Function.update state.committed executionId
        (state.committed executionId ++ [row.status])
    cancelledQueued := if before = some .queued ∧ row.status = .cancelled then
        executionId :: state.cancelledQueued
      else state.cancelledQueued }

end ExecState

open ExecState

/-! ### Awaited operations -/

def dead : ExecProgram α :=
  Coroutine.await .dead (fun _ _ => (none : Option (Empty × ExecState))) Empty.elim

/-- What the task of an operation does after it, none for a crash. -/
def answered : Option (Except ExecExn α) → ExecProgram α
  | none => dead
  | some (.ok value) => pure value
  | some (.error exn) => throw exn

/-- Suspend on an operation of a process that may die there. -/
def operation (task : TaskId) (call : ExecCall)
    (act : ExecEvent → ExecState → Option (Except ExecExn α × ExecState)) : ExecProgram α :=
  Coroutine.await call
    (fun event state =>
      if event = .crash then some (none, state.crash task)
      else (act event state).map fun (result, state) => (some result, state))
    answered

/-- A database or Redis call: none where it is not ready. -/
def serverCall (task : TaskId) (call : ExecCall) (effect : ExecState → Option (α × ExecState)) :
    ExecProgram α :=
  operation task call fun event state =>
    match event, effect state with
    | _, none => none
    | .done, some (value, after) => some (.ok value, after)
    | .raised text, some _ => some (.error (.driver text), state)
    | .raisedAfter text, some (_, after) => some (.error (.driver text), after)
    | .unavailable, some _ => some (.error .redisUnavailable, state)
    | .unavailableAfter, some (_, after) => some (.error .redisUnavailable, after)
    | _, _ => none

/-- A call of the Docker client, in a thread. The daemon may refuse it. -/
def dockerCall (task : TaskId) (call : ExecCall)
    (effect : ExecState → Option (Except ExecExn α × ExecState)) : ExecProgram α :=
  operation task call fun event state =>
    match event with
    | .done => effect state
    | .raised text => some (.error (.driver text), state)
    | _ => none

/-! ### Rows -/

/-- `select(Execution).where(…).with_for_update()`: the row that matches, once no
other transaction has it. -/
def selectForUpdate (task : TaskId) (executionId : ExecutionId) (matching : ExecutionRow → Bool) :
    ExecProgram (Option ExecutionRow) :=
  serverCall task .rowLock fun state =>
    match (state.rows executionId).filter matching with
    | none => some (none, state)
    | some row =>
        if state.locks executionId = none then
          some (some row, { state with
            locks := Function.update state.locks executionId (some task) })
        else none

/-- PostgreSQL has no text with U+0000. -/
def storable (row : ExecutionRow) : Bool :=
  row.stdout.all (fun text => !text.contains '\x00') &&
    row.stderr.all fun text => !text.contains '\x00'

/-- `db.commit()` of a changed row, which can only raise where the row cannot be
stored. -/
def commitRow (task : TaskId) (executionId : ExecutionId) (row : ExecutionRow) : ExecProgram Unit :=
  operation task .commit fun event state =>
    match event, storable row with
    | .done, true => some (.ok (), (state.writeRow executionId row).releaseLocks task)
    | .raised text, _ => some (.error (.driver text), state)
    | .raisedAfter text, true =>
        some (.error (.driver text), (state.writeRow executionId row).releaseLocks task)
    | _, _ => none

/-- `db.refresh()`: the row as it is committed now. -/
def refresh (task : TaskId) (executionId : ExecutionId) : ExecProgram ExecutionRow :=
  operation task .refresh fun event state =>
    match event, state.rows executionId with
    | .done, some row => some (.ok row, state)
    | .done, none => some (.error (.driver "Could not refresh instance"), state)
    | .raised text, _ => some (.error (.driver text), state)
    | _, _ => none

/-- `db.add()` and `db.commit()` of a new row. -/
def insertCall (task : TaskId) (row : ExecutionRow) : ExecProgram ExecutionId :=
  serverCall task .insertRow fun state => some (state.nextExecution, state.insertRow task row)

/-- `db.delete()` and `db.commit()`, which waits for the transaction that has the
row. -/
def deleteCall (task : TaskId) (executionId : ExecutionId) : ExecProgram Unit :=
  serverCall task .deleteRow fun state =>
    if state.locks executionId = none then some ((), state.deleteRow executionId) else none

/-- `async with async_session_factory() as db`: the end of the session gives up
its locks. -/
def withSession (task : TaskId) (body : ExecProgram α) : ExecProgram α :=
  Coroutine.tryFinally body (modify (releaseLocks task))

/-! ### Redis -/

def publish (task : TaskId) (executionId : ExecutionId) (row : ExecutionRow) : ExecProgram Unit :=
  serverCall task .publish fun state =>
    some ((), { state with published := (executionId, row) :: state.published })

/-- `redis.rpush` on the queue. -/
def rpush (task : TaskId) (item : QueueItem) : ExecProgram Unit :=
  serverCall task .rpush fun state => some ((), { state with queue := state.queue ++ [item] })

/-- `redis.blmove` from the queue to the processing list. -/
def blmove (task : TaskId) : ExecProgram QueueItem :=
  serverCall task .blmove fun state =>
    match state.queue with
    | [] => none
    | item :: rest => some (item, { state with
        queue := rest
        processing := state.processing ++ [item] })

/-- `redis.lrem` of every occurrence on the processing list. -/
def lrem (task : TaskId) (item : QueueItem) : ExecProgram Unit :=
  serverCall task .lrem fun state =>
    some ((), { state with processing := state.processing.filter (· ≠ item) })

/-- `redis.lrange` of the processing list. -/
def lrange (task : TaskId) : ExecProgram (List QueueItem) :=
  serverCall task .lrange fun state => some (state.processing, state)

/-- `redis.exists` of the cancellation key. -/
def cancellationRequested (task : TaskId) (executionId : ExecutionId) : ExecProgram Bool :=
  serverCall task .existsKey fun state => some (state.cancellation executionId, state)

def requestCancellation (task : TaskId) (executionId : ExecutionId) : ExecProgram Unit :=
  serverCall task .setKey fun state => some ((), { state with
    cancellation := Function.update state.cancellation executionId true })

/-- `redis.delete` of the cancellation key. -/
def deleteCancellation (task : TaskId) (executionId : ExecutionId) : ExecProgram Unit :=
  serverCall task .deleteKey fun state => some ((), { state with
    cancellation := Function.update state.cancellation executionId false })

/-- `asyncio.sleep`. -/
def pause (task : TaskId) : ExecProgram Unit :=
  operation task .pause fun event state =>
    match event with
    | .done => some (.ok (), state)
    | _ => none

end Concord.Execution

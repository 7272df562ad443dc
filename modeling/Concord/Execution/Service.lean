import Concord.Asyncio.Pool
import Concord.Execution.Worker

/-!
Contract: executions before and beside the worker, and the system of both.

Owns:
- `createQueuedExecution` and `cancelExecution`, the API's writers of a row;
- the requests, what Docker, Redis and the clock do on their own, and `executions`,
  the service of any number of API tasks and one worker at a time.

The endpoints read the code of an execution from the live document, under a lock
of the session that no execution takes. Here the code is an argument.

Does not own: the invariants of the service.
-/

set_option autoImplicit false

namespace Concord.Execution

open Asyncio ExecState

variable {α : Type}

def createQueuedExecution (task : TaskId) (sessionId : Nat) (code : String)
    (language : LanguageEnum) : ExecProgram ExecutionRow :=
  Coroutine.tryFinally
    (do
      let executionId ← insertCall task
        ⟨sessionId, .queued, code, language, none, none, none, none, none⟩
      let row ← refresh task executionId
      Coroutine.tryExcept (rpush task (.execution executionId)) fun _ => do
        deleteCall task executionId
        throw (.queueError "Execution queue is unavailable")
      modify (settleRow executionId)
      pure row)
    (modify (stopCreating task))

/-- `get_execution` for an update. -/
def getExecution (task : TaskId) (sessionId : Nat) (executionId : ExecutionId) :
    ExecProgram ExecutionRow := do
  match ← selectForUpdate task executionId (·.sessionId = sessionId) with
  | none => throw .notFound
  | some row => pure row

def cancelExecution (task : TaskId) (sessionId : Nat) (executionId : ExecutionId) :
    ExecProgram ExecutionRow :=
  withSession task do
    let row ← getExecution task sessionId executionId
    if row.status = .queued ∨ row.status = .running then
      if row.status = .running then
        Coroutine.tryExcept (requestCancellation task executionId) fun _ =>
          throw (.queueError "Cancellation service is unavailable")
      let cancelled ← ofExcept (row.transitionTo .cancelled)
      let row := { cancelled with finishedAt := some (← get).clock }
      commitRow task executionId row
      refresh task executionId
    else throw (.conflict row.status)

/-! ### The system -/

/-- The requests to the API, and the start of a worker. -/
inductive ExecRequest where
  | run (sessionId : Nat) (code : String) (language : LanguageEnum)
  | cancel (sessionId : Nat) (executionId : ExecutionId)
  | worker (turns jobs : Nat)
  deriving DecidableEq

/-- What happens without a task: time passes, the program of a sandbox writes or
ends, its stream ends, Redis has an item once more. -/
inductive ExecAmbient where
  | tick (elapsed : Nat)
  | write (container : Nat) (stdout stderr : List UInt8)
  | exit (container : Nat) (code : Int)
  | endStream (ended : StreamTask)
  | duplicate (item : QueueItem)

namespace ExecState

def writeOutput (container : Nat) (stdout stderr : List UInt8) (state : ExecState) :
    Option ExecState :=
  match state.docker.containers container with
  | some ⟨.running, out, err⟩ => some { state with docker := { state.docker with
      containers := Function.update state.docker.containers container
        (some ⟨.running, out ++ stdout, err ++ stderr⟩) } }
  | _ => none

def exitContainer (container : Nat) (code : Int) (state : ExecState) : Option ExecState :=
  if state.docker.status container = some .running then
    some { state with docker := state.docker.setStatus container (.exited code) }
  else none

def change : ExecAmbient → ExecState → Option ExecState
  | .tick elapsed, state => some { state with clock := state.clock + elapsed }
  | .write container stdout stderr, state => state.writeOutput container stdout stderr
  | .exit container code, state => state.exitContainer container code
  | .endStream ended, state =>
      if state.stream = some .running then some { state with stream := some ended } else none
  | .duplicate item, state => some { state with queue := state.queue ++ [item] }

def restart (state : ExecState) : ExecState :=
  { state with
    locks := fun _ => none
    worker := none
    stream := none
    working := none
    creating := []
    abandoned := state.abandoned || !state.creating.isEmpty }

/-- Nothing was submitted yet. The lists of Redis may have any items. -/
def Initial (state : ExecState) : Prop :=
  (∀ executionId, state.rows executionId = none ∧ state.locks executionId = none ∧
    state.committed executionId = []) ∧ state.docker.starts = [] ∧ state.cancelledQueued = [] ∧
      state.worker = none ∧ state.working = none ∧ state.creating = []

end ExecState

def handle (settings : Settings) : ExecRequest → TaskId → ExecProgram Unit
  | .run sessionId code language, task => do
      let _ ← createQueuedExecution task sessionId code language
  | .cancel sessionId executionId, task => do
      let _ ← cancelExecution task sessionId executionId
  | .worker turns jobs, task => worker settings turns jobs task

def executions (settings : Settings) :
    Service ExecState ExecEvent ExecCall ExecExn ExecRequest ExecAmbient where
  handler := handle settings
  ambient := change
  restart := restart

end Concord.Execution

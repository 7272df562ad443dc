import Concord.Execution.State

/-!
Contract: the execution worker.

Owns:
- the two functions that write a row, `transition` and `finish`;
- the sandbox: `createContainer` with its writer and its volume, and `monitor`;
- `process`, one job; `recoverProcessing` and `run`, the worker around it.

The output of a sandbox is streamed by a task of its own, of which a job only sees
how it ends. The loops take the number of turns they will make. A run of a loop
with a larger number extends a run with a smaller one, so every finite run of
the worker is a run of the model.

Does not own: the rows before a job is queued.
-/

set_option autoImplicit false

namespace Concord.Execution

open Asyncio ExecState

variable {α : Type}

/-! ### Rows -/

/-- `Execution.transition_to`, which raises its `ValueError`. -/
def ExecutionRow.transitionTo (target : ExecutionStatus) (row : ExecutionRow) :
    Except ExecExn ExecutionRow :=
  match row.status.transitionTo target with
  | none => .error (.invalidTransition row.status target)
  | some status => .ok { row with status := status }

/-- Raise the exception of a synchronous method. -/
def ofExcept (result : Except ExecExn α) : ExecProgram α :=
  match result with
  | .ok value => pure value
  | .error exn => throw exn

def transition (task : TaskId) (executionId : ExecutionId) (expected target : ExecutionStatus) :
    ExecProgram (Option ExecutionRow) :=
  withSession task do
    match ← selectForUpdate task executionId (fun _ => true) with
    | none => pure none
    | some row =>
        if row.status ≠ expected then pure none
        else
          let row ← ofExcept (row.transitionTo target)
          commitRow task executionId row
          let row ← refresh task executionId
          publish task executionId row
          pure (some row)

structure Outcome where
  target : ExecutionStatus
  stdout : String
  stderr : String
  exitCode : Option Int
  elapsedMs : Nat

/-- The row of a finished job. A cancelled one keeps its status. -/
def Outcome.record (outcome : Outcome) (now : Nat) (row : ExecutionRow) :
    Except ExecExn ExecutionRow := do
  let row ← if row.status = .cancelled then pure row else row.transitionTo outcome.target
  pure { row with
    stdout := some outcome.stdout
    stderr := some outcome.stderr
    exitCode := outcome.exitCode
    elapsedMs := some outcome.elapsedMs
    finishedAt := some now }

def finish (task : TaskId) (executionId : ExecutionId) (outcome : Outcome) : ExecProgram Unit :=
  withSession task do
    match ← selectForUpdate task executionId (fun _ => true) with
    | none => pure ()
    | some row =>
        let row ← ofExcept (outcome.record (← get).clock row)
        commitRow task executionId row
        let row ← refresh task executionId
        publish task executionId row

/-! ### The sandbox -/

structure Runtime where
  image : String
  filename : String
  command : List String

/-- `RUNTIMES`. -/
def runtime : LanguageEnum → Runtime
  | .python => ⟨"python:3.12-slim", "main.py", ["python3", "-u", "/code/main.py"]⟩
  | .javascript => ⟨"node:22-slim", "main.js", ["node", "/code/main.js"]⟩
  | .cpp => ⟨"gcc:13", "main.cpp", ["sh", "-c", "g++ /code/main.cpp -o /tmp/a.out && /tmp/a.out"]⟩

namespace DockerDaemon

def createVolume (daemon : DockerDaemon) : Nat × DockerDaemon :=
  (daemon.nextId, { daemon with
    volumes := Function.update daemon.volumes daemon.nextId (some none)
    nextId := daemon.nextId + 1
    created := .volume daemon.nextId :: daemon.created })

def createContainer (daemon : DockerDaemon) : Nat × DockerDaemon :=
  (daemon.nextId, { daemon with
    containers := Function.update daemon.containers daemon.nextId (some ⟨.created, [], []⟩)
    nextId := daemon.nextId + 1
    created := .container daemon.nextId :: daemon.created })

def putArchive (volume : Nat) (filename code : String) (daemon : DockerDaemon) : DockerDaemon :=
  { daemon with volumes := Function.update daemon.volumes volume (some (some (filename, code))) }

def attempt (resource : Resource) (daemon : DockerDaemon) : DockerDaemon :=
  { daemon with removals := resource :: daemon.removals }

def remove (resource : Resource) (daemon : DockerDaemon) : DockerDaemon :=
  match resource with
  | .container id => { daemon with containers := Function.update daemon.containers id none }
  | .volume id => { daemon with volumes := Function.update daemon.volumes id none }

/-- `container.start` is called. -/
def noteStart (executionId : ExecutionId) (daemon : DockerDaemon) : DockerDaemon :=
  { daemon with starts := executionId :: daemon.starts }

def setStatus (id : Nat) (status : ContainerStatus) (daemon : DockerDaemon) : DockerDaemon :=
  let changed := (daemon.containers id).map fun container => { container with status := status }
  { daemon with containers := Function.update daemon.containers id changed }

def status (id : Nat) (daemon : DockerDaemon) : Option ContainerStatus :=
  (daemon.containers id).map (·.status)

end DockerDaemon

/-- The exit code of a container that was killed. -/
def killedCode : Int := 137

/-- `images.get`, which may find no image. -/
def imageGet (task : TaskId) (image : String) : ExecProgram Unit :=
  operation task .imageGet fun event state =>
    match event with
    | .done => if image ∈ state.docker.images then some (.ok (), state)
        else some (.error .imageNotFound, state)
    | .raised text => some (.error (.driver text), state)
    | _ => none

/-- `images.pull`. -/
def imagePull (task : TaskId) (image : String) : ExecProgram Unit :=
  dockerCall task .imagePull fun state =>
    some (.ok (), { state with docker := { state.docker with images := image :: state.docker.images } })

def ensureImage (task : TaskId) (image : String) : ExecProgram Unit :=
  Coroutine.tryExcept (imageGet task image) fun
    | .imageNotFound => imagePull task image
    | exn => throw exn

/-- `volumes.create`. -/
def createVolume (task : TaskId) : ExecProgram Nat :=
  dockerCall task .createVolume fun state =>
    let (id, docker) := state.docker.createVolume
    some (.ok id, { state with docker := docker })

/-- `containers.create`, for the writer or for the sandbox. -/
def createContainerCall (task : TaskId) (call : ExecCall) : ExecProgram Nat :=
  dockerCall task call fun state =>
    let (id, docker) := state.docker.createContainer
    some (.ok id, { state with docker := docker })

/-- `writer.put_archive` of the code. -/
def putArchive (task : TaskId) (volume : Nat) (filename code : String) : ExecProgram Unit :=
  dockerCall task .putArchive fun state =>
    some (.ok (), { state with docker := state.docker.putArchive volume filename code })

/-- `remove(force=True)` of a container or a volume, which may fail. -/
def removeResource (task : TaskId) (resource : Resource) : ExecProgram Unit :=
  operation task
    (match resource with
      | .container _ => .removeContainer
      | .volume _ => .removeVolume)
    fun event state =>
      let attempted := { state with docker := state.docker.attempt resource }
      match event with
      | .done => some (.ok (), { attempted with docker := attempted.docker.remove resource })
      | .raised text => some (.error (.driver text), attempted)
      | _ => none

/-- The writer container, which puts the code into the volume. -/
def populateVolume (task : TaskId) (volume : Nat) (filename code : String) : ExecProgram Unit := do
  let writer ← createContainerCall task .createWriter
  Coroutine.tryFinally (putArchive task volume filename code) (removeResource task (.container writer))

/-- `except Exception: volume.remove(force=True); raise`. -/
def orRemoveVolume (task : TaskId) (volume : Nat) (body : ExecProgram α) : ExecProgram α :=
  Coroutine.tryExcept body fun exn => do
    removeResource task (.volume volume)
    throw exn

/-- `_create_container`: the sandbox and its volume. -/
def createContainer (task : TaskId) (row : ExecutionRow) : ExecProgram (Nat × Nat) := do
  let runtime := runtime row.language
  ensureImage task runtime.image
  let volume ← createVolume task
  orRemoveVolume task volume (populateVolume task volume runtime.filename row.code)
  orRemoveVolume task volume do
    let container ← createContainerCall task .createSandbox
    pure (container, volume)

/-- `container.start`, which is called before it answers. -/
def startSandbox (task : TaskId) (executionId : ExecutionId) (container : Nat) :
    ExecProgram Unit := do
  modify fun state => { state with docker := state.docker.noteStart executionId }
  dockerCall task .startSandbox fun state =>
    some (.ok (), { state with docker := state.docker.setStatus container .running })

/-- `container.kill`, which Docker refuses unless the container runs. -/
def kill (task : TaskId) (container : Nat) : ExecProgram Unit :=
  dockerCall task .kill fun state =>
    if state.docker.status container = some .running then
      some (.ok (), { state with docker := state.docker.setStatus container (.exited killedCode) })
    else some (.error (.driver "container is not running"), state)

/-- `container.reload`, and the status after it. -/
def reload (task : TaskId) (container : Nat) : ExecProgram (Option ContainerStatus) :=
  dockerCall task .reload fun state => some (.ok (state.docker.status container), state)

/-- `container.wait`: the exit code, once there is one. -/
def waitContainer (task : TaskId) (container : Nat) : ExecProgram Int :=
  dockerCall task .wait fun state =>
    match state.docker.status container with
    | some (.exited code) => some (.ok code, state)
    | _ => none

/-- `container.logs` of one stream. -/
def logs (task : TaskId) (container : Nat) (output : Container → List UInt8) :
    ExecProgram (List UInt8) :=
  dockerCall task .logs fun state =>
    some (.ok (((state.docker.containers container).map output).getD []), state)

/-- `_monitor`, for at most some turns. -/
def monitor (task : TaskId) (executionId : ExecutionId) (container deadline : Nat) :
    Nat → ExecProgram (Option ExecutionStatus)
  | 0 => dead
  | turns + 1 => do
      if ← cancellationRequested task executionId then
        kill task container
        pure (some .cancelled)
      else
        match ← reload task container with
        | some (.exited _) => pure none
        | _ =>
            if deadline ≤ (← get).clock then
              kill task container
              pure (some .timeout)
            else
              pause task
              monitor task executionId container deadline turns

/-! ### The stream task -/

/-- `asyncio.create_task` of `_stream_output`. -/
def startStream : ExecProgram Unit := modify fun state => { state with stream := some .running }

/-- `stream_task.done()`. -/
def streamDone (state : ExecState) : Bool := state.stream ≠ some .running

/-- `await stream_task`, which raises what the task has raised. -/
def awaitStream (task : TaskId) : ExecProgram Unit :=
  operation task .streamTask fun event state =>
    match event, state.stream with
    | .done, some (.failed text) => some (.error (.driver text), state)
    | .done, some .returned => some (.ok (), state)
    | _, _ => none

/-- `asyncio.wait_for(stream_task, timeout=5)`: the task may be cancelled. -/
def waitForStream (task : TaskId) : ExecProgram Unit :=
  operation task .streamTask fun event state =>
    match event with
    | .done => if streamDone state then some (.ok (), state) else none
    | .raised text => some (.error (.driver text), { state with stream := none })
    | _ => none

/-! ### One job -/

namespace ExecState

/-- The worker enters a part of `process`. -/
def enterJob (executionId : ExecutionId) (phase : JobPhase) (state : ExecState) : ExecState :=
  { state with working := some (executionId, phase) }

/-- `process` has ended. -/
def leaveJob (state : ExecState) : ExecState := { state with working := none }

end ExecState

/-- `with suppress(Exception)`. -/
def suppress (body : ExecProgram Unit) : ExecProgram Unit :=
  Coroutine.tryExcept body fun _ => pure ()

/-- What the `finally` block of `process` finds in its local variables. -/
structure Acquired where
  container : Option Nat
  volume : Option Nat
  streaming : Bool

/-- The `finally` block of `process`. -/
def cleanup (task : TaskId) (executionId : ExecutionId) (acquired : Acquired) :
    ExecProgram Unit := do
  deleteCancellation task executionId
  if acquired.streaming ∧ !streamDone (← get) then
    match acquired.container with
    | none => pure ()
    | some container => suppress (kill task container)
    suppress (waitForStream task)
  match acquired.container with
  | none => pure ()
  | some container => suppress (removeResource task (.container container))
  match acquired.volume with
  | none => pure ()
  | some volume => suppress (removeResource task (.volume volume))

/-- The job from the start of the sandbox to its outcome. -/
def runSandbox (settings : Settings) (turns : Nat) (task : TaskId) (executionId : ExecutionId)
    (started container : Nat) : ExecProgram Unit := do
  pause task
  startSandbox task executionId container
  match ← transition task executionId .starting .running with
  | none => kill task container
  | some _ =>
      let forced ← monitor task executionId container ((← get).clock + settings.timeout) turns
      let exitCode ← waitContainer task container
      awaitStream task
      let stdout := bounded settings.outputLimit (← logs task container (·.stdout))
      let stderr := bounded settings.outputLimit (← logs task container (·.stderr))
      finish task executionId {
        target := forced.getD (if exitCode = 0 then .completed else .failed)
        stdout := stdout
        stderr := stderr
        exitCode := some exitCode
        elapsedMs := (← get).clock - started }

/-- The `except` block of `process`. -/
def failJob (task : TaskId) (executionId : ExecutionId) (started : Nat) (exn : ExecExn) :
    ExecProgram Unit := do
  modify (enterJob executionId .failing)
  finish task executionId {
    target := .failed
    stdout := ""
    stderr := exn.text
    exitCode := none
    elapsedMs := (← get).clock - started }

/-- `process` after its first transition. Without a sandbox there is nothing to
clean up but the cancellation key. -/
def runJob (settings : Settings) (turns : Nat) (task : TaskId) (executionId : ExecutionId)
    (row : ExecutionRow) : ExecProgram Unit := do
  modify (enterJob executionId .running)
  let started := (← get).clock
  let created ← Coroutine.tryExcept
    (do pure (Except.ok (← createContainer task row)))
    fun exn => pure (.error exn)
  match created with
  | .error exn =>
      Coroutine.tryFinally (failJob task executionId started exn)
        (cleanup task executionId ⟨none, none, false⟩)
  | .ok (container, volume) =>
      startStream
      Coroutine.tryFinally
        (Coroutine.tryExcept (runSandbox settings turns task executionId started container)
          (failJob task executionId started))
        (cleanup task executionId ⟨some container, some volume, true⟩)

def process (settings : Settings) (turns : Nat) (task : TaskId) (executionId : ExecutionId) :
    ExecProgram Unit := do
  modify (enterJob executionId .claiming)
  match ← transition task executionId .queued .starting with
  | none => pure ()
  | some row => runJob settings turns task executionId row

/-! ### The worker -/

def removeAll (task : TaskId) : List Resource → ExecProgram Unit
  | [] => pure ()
  | resource :: rest => do
      suppress (removeResource task resource)
      removeAll task rest

/-- `containers.list` of the labelled containers. -/
def listContainers (task : TaskId) : ExecProgram (List Resource) :=
  dockerCall task .listContainers fun state =>
    some (.ok (((List.range state.docker.nextId).filter fun id =>
      (state.docker.containers id).isSome).map .container), state)

/-- `volumes.list` of the labelled volumes. -/
def listVolumes (task : TaskId) : ExecProgram (List Resource) :=
  dockerCall task .listVolumes fun state =>
    some (.ok (((List.range state.docker.nextId).filter fun id =>
      (state.docker.volumes id).isSome).map .volume), state)

def cleanupOrphans (task : TaskId) : ExecProgram Unit := do
  removeAll task (← listContainers task)
  removeAll task (← listVolumes task)

/-- The row that recovery writes for a job whose worker has stopped. -/
def ExecutionRow.abandon (now : Nat) (row : ExecutionRow) : Except ExecExn ExecutionRow := do
  let row ← row.transitionTo .failed
  pure { row with
    stderr := some "Execution worker restarted before completion."
    finishedAt := some now }

/-- The database part of `_recover_processing` for one execution: its row then. -/
def reconcile (task : TaskId) (executionId : ExecutionId) : ExecProgram (Option ExecutionRow) :=
  withSession task do
    match ← selectForUpdate task executionId (fun _ => true) with
    | none => pure none
    | some row =>
        if row.status = .queued then
          rpush task (.execution executionId)
          pure (some row)
        else if row.status = .starting ∨ row.status = .running then
          let row ← ofExcept (row.abandon (← get).clock)
          commitRow task executionId row
          let row ← refresh task executionId
          pure (some row)
        else pure (some row)

/-- One turn of `_recover_processing`. -/
def recoverItem (task : TaskId) (item : QueueItem) : ExecProgram Unit := do
  match item with
  | .malformed _ => lrem task item
  | .execution executionId =>
      match ← reconcile task executionId with
      | none => lrem task item
      | some row =>
          if row.status = .failed then publish task executionId row
          lrem task item

/-- The loop of `_recover_processing` over the captured items. -/
def recoverItems (task : TaskId) : List QueueItem → ExecProgram Unit
  | [] => pure ()
  | item :: rest => do
      recoverItem task item
      recoverItems task rest

def recoverProcessing (task : TaskId) : ExecProgram Unit := do
  recoverItems task (← lrange task)

/-- The next item of the queue, none where Redis is not reachable. -/
def nextItem (task : TaskId) : ExecProgram (Option QueueItem) :=
  Coroutine.tryExcept (do pure (some (← blmove task))) fun
    | .redisUnavailable => do
        pause task
        pure none
    | exn => throw exn

/-- The loop of `run`, for at most some turns. -/
def workLoop (settings : Settings) (turns : Nat) (task : TaskId) : Nat → ExecProgram Unit
  | 0 => dead
  | jobs + 1 => do
      match ← nextItem task with
      | none => pure ()
      | some item =>
          match item with
          | .malformed _ => lrem task item
          | .execution executionId =>
              Coroutine.tryFinally
                (Coroutine.tryFinally (process settings turns task executionId) (modify leaveJob))
                (lrem task item)
      workLoop settings turns task jobs

def run (settings : Settings) (turns jobs : Nat) (task : TaskId) : ExecProgram Unit := do
  cleanupOrphans task
  recoverProcessing task
  workLoop settings turns task jobs

namespace ExecState

def startWorker (task : TaskId) (state : ExecState) : Option (Unit × ExecState) :=
  match state.worker with
  | some _ => none
  | none => some ((), { state with worker := some task })

def stopWorker (state : ExecState) : ExecState := { state with worker := none, working := none }

end ExecState

/-- `main`: the process of a worker. -/
def worker (settings : Settings) (turns jobs : Nat) (task : TaskId) : ExecProgram Unit := do
  Coroutine.awaitUntil .startWorker (startWorker task)
  Coroutine.tryFinally (run settings turns jobs task) (modify stopWorker)

end Concord.Execution

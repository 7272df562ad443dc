import Mathlib.Data.List.Sort
import Concord.Execution.Streaming

/-!
Contract: the executions that a session page shows.

Owns:
- the list of executions, and the five handlers that merge records into it;
- the server's rows, the requests and responses on their way, and the queue of
  events;
- when an execution that has ended stays ended on the page.

The fields of a record that no handler reads are left out.

Does not own: the output panel.
-/

set_option autoImplicit false

namespace Concord.Client

open Execution

/-! ### The page -/

/-- `ExecutionRecord`. The times are numbers, as `Date.parse` returns them. -/
structure ExecutionRecord where
  id : ExecutionId
  status : ExecutionStatus
  stdout : Option String
  stderr : Option String
  exitCode : Option Int
  elapsedMs : Option Nat
  createdAt : Nat
  finishedAt : Option Nat
  deriving DecidableEq

inductive ExecutionEvent where
  | status (executionId : ExecutionId) (status : ExecutionStatus) (stdout stderr : Option String)
      (exitCode : Option Int) (elapsedMs : Option Nat)
  | output (executionId : ExecutionId) (stream : OutputStream) (data : String)
  deriving DecidableEq

def ExecutionEvent.executionId : ExecutionEvent → ExecutionId
  | status executionId _ _ _ _ _ => executionId
  | output executionId _ _ => executionId

def activeExecutionStatuses : List ExecutionStatus := [.queued, .starting, .running]

/-- What `SessionPage` keeps of the executions: the list, `executionIdsRef`, and the
execution that is selected. -/
structure ExecutionPage where
  executions : List ExecutionRecord
  executionIds : List ExecutionId
  selectedExecutionId : Option ExecutionId
  deriving DecidableEq

/-- The order of `merged.sort`, which is stable. -/
def newestFirst (left right : ExecutionRecord) : Prop := right.createdAt ≤ left.createdAt

instance : DecidableRel newestFirst := fun left right =>
  inferInstanceAs (Decidable (right.createdAt ≤ left.createdAt))

def listedExecutions : Nat := 20

namespace ExecutionPage

def lists (executionId : ExecutionId) (page : ExecutionPage) : Bool :=
  page.executions.any (·.id = executionId)

/-- The list of `upsertExecution` before it is sorted. -/
def merge (next : ExecutionRecord) (page : ExecutionPage) : List ExecutionRecord :=
  if page.lists next.id then
    page.executions.map fun item =>
      if item.id = next.id then
        { next with stdout := next.stdout.or item.stdout, stderr := next.stderr.or item.stderr }
      else item
  else next :: page.executions

def upsertExecution (next : ExecutionRecord) (page : ExecutionPage) : ExecutionPage :=
  { page with
    executionIds := next.id :: page.executionIds
    executions := ((page.merge next).insertionSort newestFirst).take listedExecutions }

def showHistory (items : List ExecutionRecord) (page : ExecutionPage) : ExecutionPage where
  executions := items
  executionIds := items.map (·.id)
  selectedExecutionId := page.selectedExecutionId.or (items.head?.map (·.id))

def applyEvent (now : Nat) (event : ExecutionEvent) (execution : ExecutionRecord) :
    ExecutionRecord :=
  match event with
  | .output _ .stdout data => { execution with stdout := some (execution.stdout.getD "" ++ data) }
  | .output _ .stderr data => { execution with stderr := some (execution.stderr.getD "" ++ data) }
  | .status _ status stdout stderr exitCode elapsedMs =>
      { execution with
        status := status
        stdout := stdout.or execution.stdout
        stderr := stderr.or execution.stderr
        exitCode := exitCode
        elapsedMs := elapsedMs
        finishedAt :=
          if status ∈ activeExecutionStatuses then execution.finishedAt
          else execution.finishedAt.or (some now) }

def handleExecutionEvent (now : Nat) (event : ExecutionEvent) (page : ExecutionPage) :
    ExecutionPage :=
  { page with
    executions := page.executions.map fun execution =>
      if execution.id = event.executionId then applyEvent now event execution else execution
    selectedExecutionId := some event.executionId }

end ExecutionPage

/-! ### Requests, responses and events -/

inductive ExecutionRequest where
  | history
  | detail (executionId : ExecutionId)
  | run
  | cancel (executionId : ExecutionId)
  deriving DecidableEq

/-- A response, of records of some kind. -/
inductive ExecutionReply (α : Type) where
  | history (items : List α)
  | detail (record : α)
  | run (record : α)
  | cancel (record : α)
  deriving DecidableEq

def ExecutionReply.map {α β : Type} (shown : α → β) : ExecutionReply α → ExecutionReply β
  | .history items => .history (items.map shown)
  | .detail record => .detail (shown record)
  | .run record => .run (shown record)
  | .cancel record => .cancel (shown record)

def ExecutionPage.receive (page : ExecutionPage) : ExecutionReply ExecutionRecord → ExecutionPage
  | .history items => page.showHistory items
  | .detail record => page.upsertExecution record
  | .run record =>
      { page.upsertExecution record with selectedExecutionId := some record.id }
  | .cancel record => page.upsertExecution record

/-- A row as one write has left it. The number counts the writes before it. -/
structure RowVersion where
  number : Nat
  row : ExecutionRecord
  deriving DecidableEq

/-- A message of the worker on its way. A status event has the fields of a row. -/
inductive QueuedEvent where
  | status (version : RowVersion)
  | output (executionId : ExecutionId) (stream : OutputStream) (data : String)
  deriving DecidableEq

def QueuedEvent.event : QueuedEvent → ExecutionEvent
  | .status ⟨_, row⟩ => .status row.id row.status row.stdout row.stderr row.exitCode row.elapsedMs
  | .output executionId stream data => .output executionId stream data

/-- The rows of the session, what is on its way, and the page. The versions that the rows
have had, and those of them that the list of the page has taken up, are history. -/
structure World where
  rows : List RowVersion
  versions : List RowVersion
  requests : List ExecutionRequest
  replies : List (ExecutionReply RowVersion)
  events : List QueuedEvent
  page : ExecutionPage
  taken : List RowVersion
  deriving DecidableEq

/-- What happens next: the server creates, writes or deletes a row, or publishes an event;
the page sends a request, which is answered from the rows of that moment or fails; a
response or an event arrives. -/
inductive Happening where
  | create (row : ExecutionRecord)
  | write (row : ExecutionRecord)
  | delete (executionId : ExecutionId)
  | publishStatus (version : RowVersion)
  | publishOutput (executionId : ExecutionId) (stream : OutputStream) (data : String)
  | send (request : ExecutionRequest)
  | serve (request : ExecutionRequest) (reply : ExecutionReply RowVersion)
  | fail (request : ExecutionRequest)
  | arrive (reply : ExecutionReply RowVersion)
  | deliver (now : Nat)
  deriving DecidableEq

/-- Whether the page sends a request of its own: the history is loaded with the page,
an active selected execution is polled, and the selected one can be cancelled. -/
def ExecutionPage.sends (page : ExecutionPage) : ExecutionRequest → Bool
  | .history => true
  | .detail executionId => page.selectedExecutionId = some executionId &&
      page.executions.any fun execution =>
        execution.id = executionId && activeExecutionStatuses.contains execution.status
  | .run => true
  | .cancel executionId => page.selectedExecutionId = some executionId && page.lists executionId

/-- The rows in the order of the history. -/
def RowVersion.newestFirst (left right : RowVersion) : Prop := Client.newestFirst left.row right.row

instance : DecidableRel RowVersion.newestFirst := fun left right =>
  inferInstanceAs (Decidable (Client.newestFirst left.row right.row))

/-- Whether a response has the rows of this moment. -/
def answers (rows : List RowVersion) : ExecutionRequest → ExecutionReply RowVersion → Bool
  | .history, .history items =>
      items = (rows.insertionSort RowVersion.newestFirst).take listedExecutions
  | .detail executionId, .detail version => rows.contains version && version.row.id = executionId
  | .run, .run version => rows.contains version
  | .cancel executionId, .cancel version => rows.contains version && version.row.id = executionId
  | _, _ => false

namespace World

/-- Whether the list takes a record up: the execution is listed, or fewer than twenty
newer ones are. -/
def takesUp (page : ExecutionPage) (record : ExecutionRecord) : Bool :=
  page.lists record.id ||
    (page.executions.filter (record.createdAt < ·.createdAt)).length < listedExecutions

/-- The versions that the list takes up of a response. -/
def takenOf (page : ExecutionPage) : ExecutionReply RowVersion → List RowVersion
  | .history items => items
  | .detail version | .run version | .cancel version =>
      if takesUp page version.row then [version] else []

/-- The versions that the list takes up of an event. -/
def takenOfEvent (page : ExecutionPage) : QueuedEvent → List RowVersion
  | .status version => if page.lists version.row.id then [version] else []
  | .output _ _ _ => []

def note (row : ExecutionRecord) (rows : List RowVersion) (world : World) : World :=
  { world with rows := rows, versions := ⟨world.versions.length, row⟩ :: world.versions }

/-- One step, none where it cannot be taken. A written row follows
`VALID_TRANSITIONS`. -/
def step (world : World) : Happening → Option World
  | .create row =>
      if world.versions.all (·.row.id ≠ row.id) && row.status = .queued then
        some (world.note row (⟨world.versions.length, row⟩ :: world.rows))
      else none
  | .write row =>
      if world.rows.any fun before =>
          before.row.id = row.id && before.row.createdAt = row.createdAt &&
            (before.row.status = row.status || decide (before.row.status.Accepts row.status)) then
        some (world.note row (world.rows.map fun before =>
          if before.row.id = row.id then ⟨world.versions.length, row⟩ else before))
      else none
  | .delete executionId =>
      some { world with rows := world.rows.filter (·.row.id ≠ executionId) }
  | .publishStatus version =>
      if world.versions.contains version then
        some { world with events := world.events ++ [.status version] }
      else none
  | .publishOutput executionId stream data =>
      if world.versions.any (·.row.id = executionId) then
        some { world with events := world.events ++ [.output executionId stream data] }
      else none
  | .send request =>
      if world.page.sends request then some { world with requests := request :: world.requests }
      else none
  | .serve request reply =>
      if world.requests.contains request && answers world.rows request reply then
        some { world with
          requests := world.requests.erase request
          replies := reply :: world.replies }
      else none
  | .fail request => some { world with requests := world.requests.erase request }
  | .arrive reply =>
      if world.replies.contains reply then
        some { world with
          replies := world.replies.erase reply
          page := world.page.receive (reply.map RowVersion.row)
          taken := takenOf world.page reply ++ world.taken }
      else none
  | .deliver now =>
      match world.events with
      | [] => none
      | queued :: rest =>
          some { world with
            requests :=
              if world.page.executionIds.contains queued.event.executionId then world.requests
              else .detail queued.event.executionId :: world.requests
            events := rest
            page := world.page.handleExecutionEvent now queued.event
            taken := takenOfEvent world.page queued ++ world.taken }

def start : World := ⟨[], [], [], [], [], ⟨[], [], none⟩, []⟩

/-- A run of steps that are all allowed. -/
inductive Runs (allowed : World → Happening → Bool) : World → World → Prop
  | refl (world : World) : Runs allowed world world
  | step {world middle next : World} (run : Runs allowed world middle) (happening : Happening)
      (permitted : allowed middle happening = true) (taken : middle.step happening = some next) :
      Runs allowed world next

def play (allowed : World → Happening → Bool) : List Happening → World → Option World
  | [], world => some world
  | happening :: rest, world =>
      if allowed world happening then (world.step happening).bind (play allowed rest) else none

theorem Runs.trans {allowed : World → Happening → Bool} {world middle next : World}
    (run : Runs allowed world middle) (later : Runs allowed middle next) :
    Runs allowed world next := by
  induction later with
  | refl => exact run
  | step _ happening permitted taken inductionHypothesis =>
      exact inductionHypothesis.step happening permitted taken

private theorem runs_of_play {allowed : World → Happening → Bool} {happenings : List Happening}
    {world next : World} (played : play allowed happenings world = some next) :
    Runs allowed world next := by
  induction happenings generalizing world with
  | nil =>
      obtain rfl := Option.some.inj played
      exact .refl world
  | cons happening rest inductionHypothesis =>
      unfold play at played
      split at played
      · next permitted =>
          obtain ⟨middle, taken, played⟩ := Option.bind_eq_some_iff.mp played
          exact (Runs.step (.refl world) happening permitted taken).trans (inductionHypothesis played)
      · cases played

/-! ### Arrivals in the order of the row -/

/-- Whether the list has taken up a later version of the row. -/
def isOutdated (world : World) (version : RowVersion) : Bool :=
  world.taken.any fun earlier =>
    earlier.row.id = version.row.id && version.number < earlier.number

/-- No write takes the exit code of a row away, and what the list takes up is no older
version of the row than what it has taken up before. -/
def inOrder (world : World) : Happening → Bool
  | .write row => world.rows.all fun before =>
      before.row.id ≠ row.id || before.row.exitCode.isNone || row.exitCode.isSome
  | .arrive reply => (takenOf world.page reply).all (!world.isOutdated ·)
  | .deliver _ => world.events.head?.all fun queued =>
      (takenOfEvent world.page queued).all (!world.isOutdated ·)
  | _ => true

end World

/-! ### What a handler leaves -/

def SameOutcome (left right : ExecutionRecord) : Prop :=
  left.id = right.id ∧ left.status = right.status ∧ left.exitCode = right.exitCode

/-- Every record of the new page is one of an execution that nothing fresh is about, or a
fresh one. -/
def ComesFrom (page later : ExecutionPage) (fresh : List RowVersion) : Prop :=
  ∀ record ∈ later.executions,
    (∃ before ∈ page.executions, SameOutcome record before ∧
      ∀ version ∈ fresh, version.row.id ≠ record.id) ∨
    ∃ version ∈ fresh, SameOutcome record version.row

namespace ExecutionPage

variable {page : ExecutionPage} {record next : ExecutionRecord}

private theorem lists_iff {executionId : ExecutionId} :
    page.lists executionId = true ↔ ∃ record ∈ page.executions, record.id = executionId := by
  unfold lists
  rw [List.any_eq_true]
  simp only [decide_eq_true_eq]

/-- The list before it is sorted: the records of other executions, and the new record. -/
theorem mem_merge (member : record ∈ page.merge next) :
    record ∈ page.executions ∧ record.id ≠ next.id ∨ SameOutcome record next := by
  unfold merge at member
  split at member
  · obtain ⟨item, present, rfl⟩ := List.mem_map.mp member
    split
    · exact .inr ⟨rfl, rfl, rfl⟩
    · next other => exact .inl ⟨present, other⟩
  · next unlisted =>
      rcases List.mem_cons.mp member with rfl | present
      · exact .inr ⟨rfl, rfl, rfl⟩
      · exact .inl ⟨present, fun same => unlisted (lists_iff.mpr ⟨record, present, same⟩)⟩

/-- A record behind twenty newer ones is not listed. -/
theorem few_newer (listed : record ∈ ((page.merge next).insertionSort newestFirst).take listedExecutions) :
    ((page.merge next).filter (record.createdAt < ·.createdAt)).length < listedExecutions := by
  have sorted : ((page.merge next).insertionSort newestFirst).Pairwise newestFirst :=
    haveI : Std.Total newestFirst := ⟨fun left right => Nat.le_total _ _⟩
    haveI : IsTrans ExecutionRecord newestFirst := ⟨fun _ _ _ first second => Nat.le_trans second first⟩
    List.pairwise_insertionSort _ _
  have counts := (((page.merge next).perm_insertionSort newestFirst).filter
    (record.createdAt < ·.createdAt)).length_eq
  rw [← counts]
  generalize (page.merge next).insertionSort newestFirst = all at sorted listed
  rw [← List.take_append_drop listedExecutions all, List.pairwise_append] at sorted
  obtain ⟨_, _, behind⟩ := sorted
  have none : (all.drop listedExecutions).filter (record.createdAt < ·.createdAt) = [] := by
    rw [List.filter_eq_nil_iff]
    intro other member newer
    have older : other.createdAt ≤ record.createdAt := behind record listed other member
    exact absurd (of_decide_eq_true newer) (Nat.not_lt_of_le older)
  have front : ((all.take listedExecutions).filter (record.createdAt < ·.createdAt)).length <
      (all.take listedExecutions).length := by
    refine List.length_filter_lt_length_iff_exists.mpr ⟨record, listed, ?_⟩
    simp
  conv => lhs; rw [← List.take_append_drop listedExecutions all, List.filter_append, none,
    List.append_nil]
  exact front.trans_le (List.length_take_le _ _)

/-- What `upsertExecution` lists is a record of another execution, or has the outcome of the
new record, which is then taken up. -/
theorem mem_upsertExecution (member : record ∈ (page.upsertExecution next).executions) :
    record ∈ page.executions ∧ record.id ≠ next.id ∨
      SameOutcome record next ∧ World.takesUp page next = true := by
  have merged : record ∈ page.merge next :=
    ((page.merge next).perm_insertionSort newestFirst).mem_iff.mp (List.mem_of_mem_take member)
  rcases mem_merge merged with other | same
  · exact .inl other
  refine .inr ⟨same, ?_⟩
  unfold World.takesUp
  by_cases listed : page.lists next.id = true
  · rw [listed]
    rfl
  · have whole : page.merge next = next :: page.executions := if_neg listed
    have unlisted : record ∉ page.executions := fun present =>
      listed (lists_iff.mpr ⟨record, present, same.1⟩)
    rw [whole] at merged
    obtain rfl : record = next := (List.mem_cons.mp merged).resolve_right unlisted
    have few := few_newer member
    rw [whole, List.filter_cons, if_neg (by simp)] at few
    rw [Bool.or_eq_true, decide_eq_true_eq]
    exact .inr few

private theorem comesFrom_upsertExecution (version : RowVersion) :
    ComesFrom page (page.upsertExecution version.row)
      (if World.takesUp page version.row then [version] else []) := by
  intro record member
  rcases mem_upsertExecution member with ⟨present, other⟩ | ⟨same, taken⟩
  · refine .inl ⟨record, present, ⟨rfl, rfl, rfl⟩, fun fresh isFresh same => ?_⟩
    split at isFresh
    · obtain rfl := List.mem_singleton.mp isFresh
      exact other same.symm
    · cases isFresh
  · rw [if_pos taken]
    exact .inr ⟨version, List.mem_singleton_self _, same⟩

/-- What a response leaves on the page. -/
theorem comesFrom_receive (reply : ExecutionReply RowVersion) :
    ComesFrom page (page.receive (reply.map RowVersion.row)) (World.takenOf page reply) := by
  cases reply with
  | history items =>
      intro record member
      obtain ⟨version, present, rfl⟩ := List.mem_map.mp member
      exact .inr ⟨version, present, rfl, rfl, rfl⟩
  | detail version => exact comesFrom_upsertExecution version
  | run version => exact comesFrom_upsertExecution version
  | cancel version => exact comesFrom_upsertExecution version

/-- What an event leaves on the page. -/
theorem comesFrom_handleExecutionEvent (now : Nat) (queued : QueuedEvent) :
    ComesFrom page (page.handleExecutionEvent now queued.event)
      (World.takenOfEvent page queued) := by
  intro record member
  obtain ⟨before, present, rfl⟩ := List.mem_map.mp member
  cases queued with
  | output executionId stream data =>
      refine .inl ⟨before, present, ?_, fun _ isFresh => absurd isFresh List.not_mem_nil⟩
      split
      · cases stream <;> exact ⟨rfl, rfl, rfl⟩
      · exact ⟨rfl, rfl, rfl⟩
  | status version =>
      rw [show World.takenOfEvent page (.status version) =
        if page.lists version.row.id then [version] else [] from rfl]
      split
      · next own =>
          have own : before.id = version.row.id := own
          rw [if_pos (lists_iff.mpr ⟨before, present, own⟩)]
          exact .inr ⟨version, List.mem_singleton_self _, own, rfl, rfl⟩
      · next other =>
          have other : before.id ≠ version.row.id := other
          refine .inl ⟨before, present, ⟨rfl, rfl, rfl⟩, fun fresh isFresh same => ?_⟩
          split at isFresh
          · obtain rfl := List.mem_singleton.mp isFresh
            exact other same.symm
          · cases isFresh

end ExecutionPage

/-! ### The versions of a row -/

/-- What the page must not take back of an execution. -/
def KeepsOutcome (earlier record : ExecutionRecord) : Prop :=
  (earlier.status.Terminal → record.status.Terminal) ∧
    (earlier.exitCode.isSome → record.exitCode.isSome)

theorem KeepsOutcome.refl (record : ExecutionRecord) : KeepsOutcome record record := ⟨id, id⟩

theorem KeepsOutcome.trans {earlier middle record : ExecutionRecord}
    (first : KeepsOutcome earlier middle) (second : KeepsOutcome middle record) :
    KeepsOutcome earlier record :=
  ⟨second.1 ∘ first.1, second.2 ∘ first.2⟩

theorem KeepsOutcome.of_sameOutcome {earlier record shown later : ExecutionRecord}
    (keeps : KeepsOutcome earlier record) (before : SameOutcome shown earlier)
    (after : SameOutcome later record) : KeepsOutcome shown later := by
  obtain ⟨_, status, exitCode⟩ := before
  obtain ⟨_, status', exitCode'⟩ := after
  unfold KeepsOutcome
  rw [status, exitCode, status', exitCode']
  exact keeps

/-- A write that follows `VALID_TRANSITIONS` does not end the end of an execution. -/
theorem keepsOutcome_of_write {before row : ExecutionRecord}
    (follows : before.status = row.status ∨ before.status.Accepts row.status)
    (exitCode : before.exitCode.isNone || row.exitCode.isSome) : KeepsOutcome before row := by
  refine ⟨fun ended => ?_, fun given => ?_⟩
  · rcases follows with same | accepted
    · exact same ▸ ended
    · unfold ExecutionStatus.Accepts at accepted
      rw [show before.status.validTransitions = [] from ended] at accepted
      cases accepted
  · rcases Bool.or_eq_true_iff.mp exitCode with none | some
    · rw [Option.isNone_iff_eq_none.mp none] at given
      cases given
    · exact some

/-- The versions of each row keep its outcome, and the row is the last of them. -/
structure RowsInOrder (rows versions : List RowVersion) : Prop where
  distinct : (rows.map (·.row.id)).Nodup
  numbered : ∀ version ∈ versions, version.number < versions.length
  current : ∀ row ∈ rows, row ∈ versions
  newest : ∀ row ∈ rows, ∀ version ∈ versions, version.row.id = row.row.id →
    version.number ≤ row.number
  kept : ∀ earlier ∈ versions, ∀ version ∈ versions, earlier.row.id = version.row.id →
    earlier.number ≤ version.number → KeepsOutcome earlier.row version.row

/-- A new version of a row, behind versions whose outcomes it keeps. -/
theorem RowsInOrder.note {rows versions later : List RowVersion} {row : ExecutionRecord}
    (ordered : RowsInOrder rows versions) (distinct : (later.map (·.row.id)).Nodup)
    (members : ∀ version ∈ later,
      version = ⟨versions.length, row⟩ ∨ version ∈ rows ∧ version.row.id ≠ row.id)
    (keeps : ∀ earlier ∈ versions, earlier.row.id = row.id → KeepsOutcome earlier.row row) :
    RowsInOrder later (⟨versions.length, row⟩ :: versions) where
  distinct := distinct
  numbered := by
    intro version member
    rw [List.length_cons]
    rcases List.mem_cons.mp member with rfl | before
    · exact Nat.lt_succ_self _
    · exact Nat.lt_succ_of_lt (ordered.numbered version before)
  current := by
    intro version member
    rcases members version member with rfl | ⟨before, -⟩
    · exact List.mem_cons_self
    · exact List.mem_cons_of_mem _ (ordered.current version before)
  newest := by
    intro current member version among same
    rcases List.mem_cons.mp among with rfl | old
    · rcases members current member with rfl | ⟨-, other⟩
      · exact le_rfl
      · exact absurd same.symm other
    · rcases members current member with rfl | ⟨before, -⟩
      · exact (ordered.numbered version old).le
      · exact ordered.newest current before version old same
  kept := by
    intro earlier first version second same order
    rcases List.mem_cons.mp second with rfl | old
    · rcases List.mem_cons.mp first with rfl | before
      · exact .refl row
      · exact keeps earlier before same
    · rcases List.mem_cons.mp first with rfl | before
      · exact absurd order (Nat.not_le_of_lt (ordered.numbered version old))
      · exact ordered.kept earlier before version old same order

/-! ### Runs -/

namespace World

def recordsOf : ExecutionReply RowVersion → List RowVersion
  | .history items => items
  | .detail version | .run version | .cancel version => [version]

private theorem takenOf_subset (page : ExecutionPage) (reply : ExecutionReply RowVersion) :
    takenOf page reply ⊆ recordsOf reply := by
  cases reply with
  | history items => exact List.Subset.refl _
  | detail version | run version | cancel version =>
      show (if takesUp page version.row then [version] else []) ⊆ [version]
      split
      · exact List.Subset.refl _
      · exact List.nil_subset _

/-- What is on its way or on the page is a version of a row, and the page shows of each
execution the last version that it has taken up. -/
structure Orderly (world : World) : Prop where
  ordered : RowsInOrder world.rows world.versions
  sent : ∀ reply ∈ world.replies, recordsOf reply ⊆ world.versions
  apart : ∀ reply ∈ world.replies, ((recordsOf reply).map (·.row.id)).Nodup
  published : ∀ version, .status version ∈ world.events → version ∈ world.versions
  known : world.taken ⊆ world.versions
  shown : ∀ record ∈ world.page.executions, ∃ version ∈ world.taken,
    SameOutcome record version.row ∧
      ∀ other ∈ world.taken, other.row.id = record.id → other.number ≤ version.number

private theorem orderly_start : Orderly start where
  ordered :=
    { distinct := List.nodup_nil
      numbered := fun _ member => absurd member List.not_mem_nil
      current := fun _ member => absurd member List.not_mem_nil
      newest := fun _ member => absurd member List.not_mem_nil
      kept := fun _ member => absurd member List.not_mem_nil }
  sent _ member := absurd member List.not_mem_nil
  apart _ member := absurd member List.not_mem_nil
  published _ member := absurd member List.not_mem_nil
  known := List.nil_subset _
  shown _ member := absurd member List.not_mem_nil

/-- The server has written a row. -/
theorem Orderly.note {world : World} (orderly : Orderly world) {row : ExecutionRecord}
    {rows : List RowVersion}
    (ordered : RowsInOrder rows (⟨world.versions.length, row⟩ :: world.versions)) :
    Orderly (world.note row rows) where
  ordered := ordered
  sent := fun reply flying => List.subset_cons_of_subset _ (orderly.sent reply flying)
  apart := orderly.apart
  published := fun version queued => List.mem_cons_of_mem _ (orderly.published version queued)
  known := List.subset_cons_of_subset _ orderly.known
  shown := orderly.shown

/-- The page that shows fresh versions, none of which is outdated. -/
theorem Orderly.shows {world : World} (orderly : Orderly world) {page : ExecutionPage}
    {fresh : List RowVersion} (comes : ComesFrom world.page page fresh)
    (apart : (fresh.map (·.row.id)).Nodup)
    (inOrder : fresh.all (!world.isOutdated ·) = true) :
    ∀ record ∈ page.executions, ∃ version ∈ fresh ++ world.taken,
      SameOutcome record version.row ∧
        ∀ other ∈ fresh ++ world.taken, other.row.id = record.id →
          other.number ≤ version.number := by
  intro record member
  rcases comes record member with ⟨before, present, same, others⟩ | ⟨version, isFresh, same⟩
  · obtain ⟨version, taken, outcome, last⟩ := orderly.shown before present
    refine ⟨version, List.mem_append_right _ taken, ?_, fun other among own => ?_⟩
    · exact ⟨same.1.trans outcome.1, same.2.1.trans outcome.2.1, same.2.2.trans outcome.2.2⟩
    · rcases List.mem_append.mp among with isFresh | old
      · exact absurd own (others other isFresh)
      · exact last other old (own.trans same.1)
  · refine ⟨version, List.mem_append_left _ isFresh, same, fun other among own => ?_⟩
    rcases List.mem_append.mp among with alsoFresh | old
    · obtain rfl := List.inj_on_of_nodup_map apart alsoFresh isFresh (own.trans same.1)
      exact le_rfl
    · have notOutdated := List.all_eq_true.mp inOrder version isFresh
      rw [Bool.not_eq_true', isOutdated, List.any_eq_false] at notOutdated
      have notLater := notOutdated other old
      rw [Bool.and_eq_true, decide_eq_true_eq, decide_eq_true_eq, not_and] at notLater
      exact Nat.le_of_not_lt (notLater (own.trans same.1))

theorem Orderly.create {world : World} (orderly : Orderly world) {row : ExecutionRecord}
    (fresh : world.versions.all (·.row.id ≠ row.id) = true) :
    Orderly (world.note row (⟨world.versions.length, row⟩ :: world.rows)) := by
  have unused : ∀ version ∈ world.versions, version.row.id ≠ row.id := fun version member =>
    of_decide_eq_true (List.all_eq_true.mp fresh version member)
  refine orderly.note (orderly.ordered.note ?_ ?_ fun earlier member same =>
    absurd same (unused earlier member))
  · refine List.nodup_cons.mpr ⟨fun member => ?_, orderly.ordered.distinct⟩
    obtain ⟨other, present, same⟩ := List.mem_map.mp member
    exact unused other (orderly.ordered.current other present) same
  · intro version member
    rcases List.mem_cons.mp member with rfl | present
    · exact .inl rfl
    · exact .inr ⟨present, unused version (orderly.ordered.current version present)⟩

theorem Orderly.write {world : World} (orderly : Orderly world) {before : RowVersion}
    {row : ExecutionRecord} (present : before ∈ world.rows) (same : before.row.id = row.id)
    (keeps : KeepsOutcome before.row row) :
    Orderly (world.note row (world.rows.map fun before =>
      if before.row.id = row.id then ⟨world.versions.length, row⟩ else before)) := by
  refine orderly.note (orderly.ordered.note ?_ ?_ fun earlier member own => ?_)
  · have ids : (world.rows.map fun before =>
        if before.row.id = row.id then ⟨world.versions.length, row⟩ else before).map (·.row.id) =
          world.rows.map (·.row.id) := by
      rw [List.map_map]
      refine List.map_congr_left fun before _ => ?_
      dsimp only [Function.comp]
      split
      · next equal => exact equal.symm
      · rfl
    rw [ids]
    exact orderly.ordered.distinct
  · intro version member
    obtain ⟨old, listed, rfl⟩ := List.mem_map.mp member
    split
    · exact .inl rfl
    · next other => exact .inr ⟨listed, other⟩
  · -- The row is the last version of itself, so all that came before it is kept.
    have known := orderly.ordered.current before present
    have last := orderly.ordered.newest before present earlier member (own.trans same.symm)
    exact (orderly.ordered.kept earlier member before known (own.trans same.symm) last).trans keeps

theorem Orderly.delete {world : World} (orderly : Orderly world) (executionId : ExecutionId) :
    Orderly { world with rows := world.rows.filter (·.row.id ≠ executionId) } :=
  { orderly with
    ordered := { orderly.ordered with
      distinct := orderly.ordered.distinct.sublist (List.filter_sublist.map _)
      current := fun row member => orderly.ordered.current row (List.mem_of_mem_filter member)
      newest := fun row member => orderly.ordered.newest row (List.mem_of_mem_filter member) } }

/-- A response has versions of the rows, each row once. -/
theorem records_of_answers {rows : List RowVersion} {request : ExecutionRequest}
    {reply : ExecutionReply RowVersion} (distinct : (rows.map (·.row.id)).Nodup)
    (served : answers rows request reply = true) :
    recordsOf reply ⊆ rows ∧ ((recordsOf reply).map (·.row.id)).Nodup := by
  have single : ∀ version : RowVersion, version ∈ rows →
      [version] ⊆ rows ∧ ([version].map (·.row.id)).Nodup := fun version present =>
    ⟨fun _ member => List.mem_singleton.mp member ▸ present, List.nodup_singleton _⟩
  cases request with
  | history =>
      cases reply with
      | history items =>
          have read : items = (rows.insertionSort RowVersion.newestFirst).take listedExecutions :=
            of_decide_eq_true served
          have sorted := rows.perm_insertionSort RowVersion.newestFirst
          have some : items.Sublist (rows.insertionSort RowVersion.newestFirst) :=
            read ▸ List.take_sublist _ _
          exact ⟨fun version member => sorted.mem_iff.mp (some.subset member),
            ((sorted.map (·.row.id)).nodup_iff.mpr distinct).sublist (some.map _)⟩
      | detail | run | cancel => cases served
  | detail executionId =>
      cases reply with
      | detail version =>
          exact single version (List.contains_iff_mem.mp (Bool.and_eq_true_iff.mp served).1)
      | history | run | cancel => cases served
  | run =>
      cases reply with
      | run version => exact single version (List.contains_iff_mem.mp served)
      | history | detail | cancel => cases served
  | cancel executionId =>
      cases reply with
      | cancel version =>
          exact single version (List.contains_iff_mem.mp (Bool.and_eq_true_iff.mp served).1)
      | history | detail | run => cases served

theorem Orderly.arrive {world : World} (orderly : Orderly world)
    {reply : ExecutionReply RowVersion} (flying : reply ∈ world.replies)
    (inOrder : (takenOf world.page reply).all (!world.isOutdated ·) = true) :
    Orderly { world with
      replies := world.replies.erase reply
      page := world.page.receive (reply.map RowVersion.row)
      taken := takenOf world.page reply ++ world.taken } where
  ordered := orderly.ordered
  sent := fun other left => orderly.sent other (List.mem_of_mem_erase left)
  apart := fun other left => orderly.apart other (List.mem_of_mem_erase left)
  published := orderly.published
  known := List.append_subset.mpr
    ⟨List.Subset.trans (takenOf_subset world.page reply) (orderly.sent reply flying), orderly.known⟩
  shown := by
    refine orderly.shows (ExecutionPage.comesFrom_receive reply) ?_ inOrder
    have apart := orderly.apart reply flying
    cases reply with
    | history items => exact apart
    | detail version | run version | cancel version =>
        show ((if takesUp world.page version.row then [version] else []).map (·.row.id)).Nodup
        split
        · exact List.nodup_singleton _
        · exact List.nodup_nil

private theorem takenOfEvent_subset (page : ExecutionPage) (queued : QueuedEvent) :
    (∀ version ∈ takenOfEvent page queued, queued = .status version) ∧
      ((takenOfEvent page queued).map (·.row.id)).Nodup := by
  cases queued with
  | output executionId stream data =>
      exact ⟨fun _ member => absurd member List.not_mem_nil, List.nodup_nil⟩
  | status version =>
      rw [show takenOfEvent page (.status version) =
        if page.lists version.row.id then [version] else [] from rfl]
      split
      · exact ⟨fun other member => List.mem_singleton.mp member ▸ rfl, List.nodup_singleton _⟩
      · exact ⟨fun _ member => absurd member List.not_mem_nil, List.nodup_nil⟩

theorem Orderly.deliver {world : World} (orderly : Orderly world) {now : Nat}
    {queued : QueuedEvent} {rest : List QueuedEvent} (first : world.events = queued :: rest)
    (inOrder : (takenOfEvent world.page queued).all (!world.isOutdated ·) = true)
    (requests : List ExecutionRequest) :
    Orderly { world with
      requests := requests
      events := rest
      page := world.page.handleExecutionEvent now queued.event
      taken := takenOfEvent world.page queued ++ world.taken } := by
  obtain ⟨own, apart⟩ := takenOfEvent_subset world.page queued
  exact {
    ordered := orderly.ordered
    sent := orderly.sent
    apart := orderly.apart
    published := fun version queuedLater =>
      orderly.published version (first ▸ List.mem_cons_of_mem _ queuedLater)
    known := List.append_subset.mpr ⟨fun version member =>
      orderly.published version (first ▸ own version member ▸ List.mem_cons_self), orderly.known⟩
    shown := orderly.shows (ExecutionPage.comesFrom_handleExecutionEvent now queued) apart inOrder }

/-- What a step of the server or of the page leaves. -/
theorem Orderly.step {world next : World} (orderly : Orderly world) {happening : Happening}
    (inOrder : world.inOrder happening = true) (taken : world.step happening = some next) :
    Orderly next := by
  cases happening with
  | create row =>
      obtain ⟨fresh, ⟨⟩⟩ := Option.ite_none_right_eq_some.mp taken
      exact orderly.create (Bool.and_eq_true_iff.mp fresh).1
  | write row =>
      obtain ⟨follows, ⟨⟩⟩ := Option.ite_none_right_eq_some.mp taken
      obtain ⟨before, present, follows⟩ := List.any_eq_true.mp follows
      simp only [Bool.and_eq_true, Bool.or_eq_true, decide_eq_true_eq] at follows
      obtain ⟨⟨same, -⟩, follows⟩ := follows
      have kept := List.all_eq_true.mp inOrder before present
      rw [decide_eq_false (not_not.mpr same), Bool.false_or] at kept
      exact orderly.write present same (keepsOutcome_of_write follows kept)
  | delete executionId =>
      obtain rfl := Option.some.inj taken
      exact orderly.delete executionId
  | publishStatus version =>
      obtain ⟨known, ⟨⟩⟩ := Option.ite_none_right_eq_some.mp taken
      refine { orderly with published := fun other queued => ?_ }
      rcases List.mem_append.mp queued with before | last
      · exact orderly.published other before
      · obtain rfl := QueuedEvent.status.inj (List.mem_singleton.mp last)
        exact List.contains_iff_mem.mp known
  | publishOutput executionId stream data =>
      obtain ⟨known, ⟨⟩⟩ := Option.ite_none_right_eq_some.mp taken
      refine { orderly with published := fun other queued => ?_ }
      rcases List.mem_append.mp queued with before | last
      · exact orderly.published other before
      · cases List.mem_singleton.mp last
  | send request =>
      obtain ⟨sends, ⟨⟩⟩ := Option.ite_none_right_eq_some.mp taken
      exact { orderly with }
  | serve request reply =>
      obtain ⟨served, ⟨⟩⟩ := Option.ite_none_right_eq_some.mp taken
      obtain ⟨records, apart⟩ := records_of_answers orderly.ordered.distinct
        (Bool.and_eq_true_iff.mp served).2
      exact { orderly with
        sent := List.forall_mem_cons.mpr
          ⟨fun version member => orderly.ordered.current version (records member), orderly.sent⟩
        apart := List.forall_mem_cons.mpr ⟨apart, orderly.apart⟩ }
  | fail request =>
      obtain rfl := Option.some.inj taken
      exact { orderly with }
  | arrive reply =>
      obtain ⟨flying, ⟨⟩⟩ := Option.ite_none_right_eq_some.mp taken
      exact orderly.arrive (List.contains_iff_mem.mp flying) inOrder
  | deliver now =>
      dsimp only [World.step] at taken
      split at taken
      · cases taken
      · next queued rest first =>
          obtain rfl := Option.some.inj taken
          unfold World.inOrder at inOrder
          rw [first] at inOrder
          exact orderly.deliver first inOrder _

theorem Orderly.run {world later : World} (orderly : Orderly world)
    (run : Runs inOrder world later) : Orderly later := by
  induction run with
  | refl => exact orderly
  | step _ _ permitted taken inductionHypothesis => exact inductionHypothesis.step permitted taken

/-- What was taken up stays in the history. -/
theorem taken_step {world next : World} {happening : Happening}
    (taken : world.step happening = some next) : world.taken ⊆ next.taken := by
  cases happening with
  | create row | write row | publishStatus version | publishOutput executionId stream data
  | send request | serve request reply =>
      obtain ⟨-, ⟨⟩⟩ := Option.ite_none_right_eq_some.mp taken
      exact List.Subset.refl _
  | fail request | delete executionId =>
      obtain rfl := Option.some.inj taken
      exact List.Subset.refl _
  | arrive reply =>
      obtain ⟨-, ⟨⟩⟩ := Option.ite_none_right_eq_some.mp taken
      exact List.subset_append_right _ _
  | deliver now =>
      dsimp only [World.step] at taken
      split at taken
      · cases taken
      · obtain rfl := Option.some.inj taken
        exact List.subset_append_right _ _

theorem Runs.taken {allowed : World → Happening → Bool} {world later : World}
    (run : Runs allowed world later) : world.taken ⊆ later.taken := by
  induction run with
  | refl => exact List.Subset.refl _
  | step _ _ _ taken inductionHypothesis =>
      exact List.Subset.trans inductionHypothesis (taken_step taken)

/-- An execution that the page shows ended is later shown ended, and one with an exit
code with one. -/
def KeepsOutcomes (world later : World) : Prop :=
  ∀ record ∈ world.page.executions, ∀ next ∈ later.page.executions, next.id = record.id →
    KeepsOutcome record next

/-- **Executions do not go backwards** in a run in which no row loses its exit code and the
list takes up the versions of each row in their order. -/
theorem executions_keep_outcomes {world later : World} (reached : Runs inOrder start world)
    (onward : Runs inOrder world later) : KeepsOutcomes world later := by
  intro record listed next member same
  have orderly := orderly_start.run reached
  have orderlyLater := orderly.run onward
  obtain ⟨version, taken, outcome, -⟩ := orderly.shown record listed
  obtain ⟨last, takenLast, outcomeLast, newest⟩ := orderlyLater.shown next member
  have takenLater := onward.taken taken
  have own : version.row.id = next.id := outcome.1.symm.trans same.symm
  have kept := orderlyLater.ordered.kept version (orderlyLater.known takenLater) last
    (orderlyLater.known takenLast) (own.trans outcomeLast.1) (newest version takenLater own)
  exact kept.of_sameOutcome outcome outcomeLast

/-! ### Rows that are overtaken -/

def sampleExecution (status : ExecutionStatus) (exitCode : Option Int) : ExecutionRecord :=
  ⟨0, status, none, none, exitCode, none, 0, none⟩

def sampleVersion (number : Nat) (status : ExecutionStatus) (exitCode : Option Int) : RowVersion :=
  ⟨number, sampleExecution status exitCode⟩

/-- A running execution is cancelled, and shown so. -/
def shownCancelled : List Happening :=
  [.create (sampleExecution .queued none), .write (sampleExecution .starting none),
    .write (sampleExecution .running none), .send .history,
    .serve .history (.history [sampleVersion 2 .running none]),
    .arrive (.history [sampleVersion 2 .running none]), .send (.cancel 0),
    .write (sampleExecution .cancelled none),
    .serve (.cancel 0) (.cancel (sampleVersion 3 .cancelled none)),
    .arrive (.cancel (sampleVersion 3 .cancelled none))]

def recorded : List Happening :=
  [.write (sampleExecution .cancelled (some 137)),
    .publishStatus (sampleVersion 4 .cancelled (some 137)), .deliver 1]

theorem executions_keep_outcomes_recorded :
    ∃ world later, play inOrder shownCancelled start = some world ∧
      play inOrder recorded world = some later ∧ KeepsOutcomes world later ∧
        later.page.executions.map (fun record => (record.status, record.exitCode)) =
          [(.cancelled, some 137)] := by
  have played : ((play inOrder shownCancelled start).bind fun world =>
      (play inOrder recorded world).map fun later =>
        later.page.executions.map fun record => (record.status, record.exitCode)) =
          some [(.cancelled, some 137)] := by decide
  obtain ⟨world, first, rest⟩ := Option.bind_eq_some_iff.mp played
  obtain ⟨later, second, shown⟩ := Option.map_eq_some_iff.mp rest
  exact ⟨world, later, first, second,
    executions_keep_outcomes (runs_of_play first) (runs_of_play second), shown⟩

-- `_finish` writes again without an exit code when the commit of a cancelled execution
-- was followed by an exception: the row itself goes back, and the page with it.
example :
    ((play (fun _ _ => true) (shownCancelled ++ recorded ++
      [.write (sampleExecution .cancelled none),
        .publishStatus (sampleVersion 5 .cancelled none), .deliver 2]) start).map fun later =>
          later.page.executions.map (·.exitCode)) = some [none] := by decide

/-- A running execution is polled. The worker finishes it, and the event of this
arrives before the response. -/
def shownCompleted : List Happening :=
  [.create (sampleExecution .queued none), .write (sampleExecution .starting none),
    .write (sampleExecution .running none), .send .history,
    .serve .history (.history [sampleVersion 2 .running none]),
    .arrive (.history [sampleVersion 2 .running none]), .send (.detail 0),
    .serve (.detail 0) (.detail (sampleVersion 2 .running none)),
    .write (sampleExecution .completed (some 0)),
    .publishStatus (sampleVersion 3 .completed (some 0)), .deliver 1]

def overtakenReply : List Happening := [.arrive (.detail (sampleVersion 2 .running none))]

theorem completed_execution_runs_again :
    ¬∀ world later, Runs (fun _ _ => true) start world → Runs (fun _ _ => true) world later →
      KeepsOutcomes world later := by
  intro keeps
  have played : ((play (fun _ _ => true) shownCompleted start).bind fun world =>
      (play (fun _ _ => true) overtakenReply world).map fun later =>
        (world.page.executions.map fun record => (record.id, record.status),
          later.page.executions.map fun record => (record.id, record.status))) =
        some ([(0, .completed)], [(0, .running)]) := by decide
  obtain ⟨world, first, rest⟩ := Option.bind_eq_some_iff.mp played
  obtain ⟨later, second, shown⟩ := Option.map_eq_some_iff.mp rest
  obtain ⟨before, after⟩ := Prod.mk.inj shown
  obtain ⟨record, listed, completed⟩ := List.mem_map.mp
    (before.symm ▸ List.mem_singleton_self _ : (0, ExecutionStatus.completed) ∈ _)
  obtain ⟨next, member, running⟩ := List.mem_map.mp
    (after.symm ▸ List.mem_singleton_self _ : (0, ExecutionStatus.running) ∈ _)
  obtain ⟨id, ended⟩ := Prod.mk.inj completed
  obtain ⟨id', active⟩ := Prod.mk.inj running
  have terminal := (keeps world later (runs_of_play first) (runs_of_play second) record listed next
    member (id'.trans id.symm)).1
  rw [ended, active] at terminal
  exact absurd (terminal (by decide)) (by decide)

end World

end Concord.Client

/-!
Contract: the enumerations and rules of the database models.

Owns:
- roles with their rank, execution statuses with their valid transitions;
- `transitionTo`, the guarded status change of an execution.

Does not own: tables, columns and relationships.
-/

set_option autoImplicit false

namespace Concord

inductive RoleEnum where
  | viewer
  | editor
  | owner
  deriving DecidableEq, Repr

def roleRank : RoleEnum → Nat
  | .viewer => 0
  | .editor => 1
  | .owner => 2

inductive LanguageEnum where
  | python
  | cpp
  | javascript
  deriving DecidableEq, Repr

inductive ExecutionStatus where
  | queued
  | starting
  | running
  | completed
  | failed
  | timeout
  | cancelled
  deriving DecidableEq, Repr

namespace ExecutionStatus

/-- The value of the status in the database and in events. -/
def value : ExecutionStatus → String
  | queued => "QUEUED"
  | starting => "STARTING"
  | running => "RUNNING"
  | completed => "COMPLETED"
  | failed => "FAILED"
  | timeout => "TIMEOUT"
  | cancelled => "CANCELLED"

def validTransitions : ExecutionStatus → List ExecutionStatus
  | queued => [starting, cancelled]
  | starting => [running, failed]
  | running => [completed, failed, timeout, cancelled]
  | completed => []
  | failed => []
  | timeout => []
  | cancelled => []

/-- A status without valid transitions. -/
def Terminal (status : ExecutionStatus) : Prop := status.validTransitions = []

instance (status : ExecutionStatus) : Decidable status.Terminal :=
  inferInstanceAs (Decidable (status.validTransitions = []))

/-- The transition that `Execution.transition_to` accepts. -/
def Accepts (status target : ExecutionStatus) : Prop := target ∈ status.validTransitions

instance (status target : ExecutionStatus) : Decidable (status.Accepts target) :=
  inferInstanceAs (Decidable (target ∈ status.validTransitions))

/-- `Execution.transition_to`: the new status, or none for its `ValueError`. -/
def transitionTo (status target : ExecutionStatus) : Option ExecutionStatus :=
  if status.Accepts target then some target else none

end ExecutionStatus

end Concord

import Durare.Table
import Durare.Serialize

/-! The rows a state provider keeps and the requests and answers of its operations.
Instants are nanoseconds since the epoch; stored times are milliseconds. -/
namespace Durare

abbrev DateTime := Int

def DateTime.timestampMillis (instant : DateTime) : Int := instant / 1000000

theorem timestampMillis_mono {a b : DateTime} (le : a ≤ b) : a.timestampMillis ≤ b.timestampMillis :=
  Int.ediv_le_ediv (by decide) le

/-- `DateTime::from_timestamp_millis`: only instants of the calendar's range exist. -/
def DateTime.fromTimestampMillis (ms : Int) : Option DateTime :=
  if -8334601228800000 ≤ ms ∧ ms ≤ 8210266876799999 then some (ms * 1000000) else none

/-- Reduction to a 32-bit integer: the `as i32` cast, and wrapping arithmetic. -/
def asI32 (n : Int) : Int := n.bmod (2 ^ 32)

theorem asI32_of_lt {n : Int} (low : 0 ≤ n) (high : n < 2 ^ 31) : asI32 n = n := by
  unfold asI32
  rw [Int.bmod_eq_of_le] <;> omega

/-- Wrapping 64-bit arithmetic. -/
def asI64 (n : Int) : Int := n.bmod (2 ^ 64)

theorem asI64_range (n : Int) : -2 ^ 63 ≤ asI64 n ∧ asI64 n < 2 ^ 63 := by
  rw [asI64, Int.bmod_def]
  split <;> omega

theorem asI64_of_fits {n : Int} (low : -2 ^ 63 ≤ n) (high : n < 2 ^ 63) : asI64 n = n := by
  unfold asI64
  rw [Int.bmod_eq_of_le] <;> omega

/-- The `status` column. Import can store any text there. -/
inductive Status where
  | enqueued
  | delayed
  | pending
  | success
  | error
  | cancelled
  | maxRecoveryAttemptsExceeded
  | other (text : String)
deriving DecidableEq, Repr

namespace Status

def toString : Status → String
  | .enqueued => "ENQUEUED"
  | .delayed => "DELAYED"
  | .pending => "PENDING"
  | .success => "SUCCESS"
  | .error => "ERROR"
  | .cancelled => "CANCELLED"
  | .maxRecoveryAttemptsExceeded => "MAX_RECOVERY_ATTEMPTS_EXCEEDED"
  | .other text => text

def ofString (text : String) : Status :=
  ([.enqueued, .delayed, .pending, .success, .error, .cancelled,
    .maxRecoveryAttemptsExceeded].find? fun s => s.toString == text).getD (.other text)

def isTerminal : Status → Bool
  | .success | .error | .cancelled | .maxRecoveryAttemptsExceeded => true
  | _ => false

/-- A finished run: its outcome is recorded. -/
def isCompleted : Status → Bool
  | .success | .error => true
  | _ => false

end Status

structure WorkflowStatus where
  id : String
  name : String
  status : Status
  input : Value
  output : Option Value := none
  error : Option String := none
  errorInfo : Option PortableWorkflowError := none
  executorId : String
  appVersion : String
  queueName : Option String := none
  queuePartitionKey : Option String := none
  priority : Int := 0
  dedupId : Option String := none
  recoveryAttempts : Int := 0
  parentWorkflowId : Option String := none
  timeoutMs : Option Int := none
  deadlineMs : Option Int := none
  startedAtMs : Option Int := none
  rateLimited : Bool := false
  delayUntilMs : Option Int := none
  completedAtMs : Option Int := none
  forkedFrom : Option String := none
  authenticatedUser : Option String := none
  assumedRole : Option String := none
  authenticatedRoles : List String := []
  className : Option String := none
  configName : Option String := none
  createdAt : DateTime
  updatedAt : DateTime
  attributes : Option Value := none
deriving DecidableEq, Repr

def WorkflowStatus.new (now : DateTime) (id name : String) (input : Value) (status : Status)
    (executorId appVersion : String) : WorkflowStatus where
  id := id
  name := name
  status := status
  input := input
  executorId := executorId
  appVersion := appVersion
  createdAt := now
  updatedAt := now

def nonEmpty (text : Option String) : Option String := text.filter fun s => s ≠ ""

/-- `check_child_target`: an adopted row must be the same workflow of the same instance. -/
def checkChildTarget (row requested : WorkflowStatus) : Except Error Unit :=
  if row.name ≠ requested.name ∨ nonEmpty row.className ≠ nonEmpty requested.className ∨
      nonEmpty row.configName ≠ nonEmpty requested.configName then
    .error (.workflowTargetConflict row.id)
  else .ok ()

structure NotificationInsert where
  destinationId : String
  topic : String
  message : Value
  idempotencyKey : Option String
deriving DecidableEq, Repr

inductive StepOutcome where
  | output (value : Value)
  | failure (message : String) (info : Option PortableWorkflowError)
deriving DecidableEq, Repr

/-- `StepOutcome::into_value_result`. -/
def StepOutcome.intoValueResult (lib : SerdeJson) : StepOutcome → Except Error Value
  | .output value => .ok value
  | .failure message info => .error (fromParts lib message info)

structure RecordedStep where
  name : String
  outcome : StepOutcome
deriving DecidableEq, Repr

structure VersionInfo where
  versionId : String
  versionName : String
  versionTimestamp : DateTime
  createdAt : DateTime
deriving DecidableEq, Repr

/-- A row in portable form: its columns by name. -/
abbrev Columns := List (String × Value)

structure ExportedWorkflow where
  workflowStatus : Columns
  operationOutputs : List Columns
  workflowEvents : List Columns
  workflowEventsHistory : List Columns := []
  streams : List Columns
deriving DecidableEq, Repr

def colStr (columns : Columns) (key : String) : Option String := (columns.lookup key).bind Value.asStr

def colI64 (columns : Columns) (key : String) : Option Int := (columns.lookup key).bind Value.asI64

structure CancelOptions where
  cancelChildren : Bool := false
deriving DecidableEq, Repr

structure ForkParams where
  originalId : String
  newId : String
  startStep : Int
  appVersion : Option String
  queueName : String
  partitionKey : Option String
deriving DecidableEq, Repr

structure DequeueRequest where
  queueName : String
  executorId : String
  appVersion : String
  partitionKey : Option String := none
  maxTasks : Int
  globalConcurrency : Option Int := none
  rateLimitMax : Option Int := none
  rateLimitPeriodMs : Option Int := none
deriving DecidableEq, Repr

/-- A row in two scopes of one queue is in one scope, if both or neither name a partition. -/
theorem partition_eq {key other part : Option String} (form : other.isSome = key.isSome)
    (ours : key = none ∨ part = key) (theirs : other = none ∨ part = other) : other = key := by
  rcases theirs with whole | here
  · cases key with
    | none => exact whole
    | some _ => simp [whole] at form
  · rcases ours with whole | there
    · cases other with
      | none => exact whole.symm
      | some _ => simp [whole] at form
    · exact here.symm.trans there

structure RecoveryClaimRequest where
  workflowId : String
  expectedExecutor : String
  expectedAttempts : Int
  newExecutor : String
  maxAttempts : Int
  requeue : Bool
deriving DecidableEq, Repr

inductive RecoveryClaim where
  | claimed (attempts : Int)
  | requeued
  | parked (attempts : Int)
  | lost
deriving DecidableEq, Repr

inductive ChildInsert where
  | replayed (id : String)
  | resolved (child : WorkflowStatus) (created : Bool)
deriving DecidableEq, Repr

end Durare

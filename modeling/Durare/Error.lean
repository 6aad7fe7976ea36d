import Durare.Json

/-! The crate-wide error type, its codes and its display texts. Driver and parser
errors enter as the diagnostics the program reads from them. -/
namespace Durare

inductive ErrorCode where
  | recoveryRequired
  | database
  | initialization
  | serialization
  | workflowNotRegistered
  | queueNotRegistered
  | nonExistentWorkflow
  | queueDeduplicated
  | notAuthorized
  | workflowCancelled
  | maxRecoveryAttemptsExceeded
  | conflictingRegistration
  | timeout
  | unexpectedStep
  | nestedDurableCall
  | durableCallOutsideExecution
  | workflowConflict
  | replayDiverged
  | application
  | workflowTargetConflict
deriving DecidableEq, Repr

/-- What a live driver error says of itself: its text and its classifications. -/
structure DriverError where
  message : String
  retryable : Bool
  txConflict : Bool
  uniqueViolation : Bool
  foreignKeyViolation : Bool
deriving DecidableEq, Repr

/-- The durable diagnostic kept of a driver error. -/
structure RecordedError where
  code : ErrorCode
  message : String
  retryable : Bool
  txConflict : Bool
  uniqueViolation : Bool
  foreignKeyViolation : Bool
deriving DecidableEq, Repr

/-- The cross-language error envelope. -/
structure PortableWorkflowError where
  name : String
  message : String
  code : Option Value
  data : Option Value
deriving DecidableEq, Repr

inductive Divergence where
  | mismatch (position : Int) (expected recorded : String)
  | extra (position : Int) (operation : String)
  | missing (position : Int) (recorded : String)
  | failed (error : String)
deriving DecidableEq, Repr

def Divergence.toString : Divergence → String
  | .mismatch position expected recorded =>
    s!"step {position}: the code now issues `{expected}`, but `{recorded}` is recorded there"
  | .extra position operation =>
    s!"step {position}: the code now issues `{operation}`, which the recorded history does not have"
  | .missing position recorded =>
    s!"step {position}: the code no longer reaches `{recorded}`, which is recorded there"
  | .failed error => s!"the recorded run did not fail, but the re-run did — {error}"

inductive Error where
  | recoveryRequired (cause : Error)
  | observationFailed (cause : Error)
  | recorded (error : RecordedError)
  | db (error : DriverError)
  | migrate (message : String)
  | serde (message : String)
  | outputSerialization (message : String)
  | serialization (message : String)
  | unknownWorkflow (name : String)
  | unknownQueue (name : String)
  | nonExistentWorkflow (id : String)
  | notAuthorized (message : String)
  | queueDeduplicated (queueName dedupId : String)
  | cancelled (id : String)
  | maxRecoveryAttemptsExceeded (id : String)
  | conflictingRegistration (name : String)
  | timeout
  | unexpectedStep (workflowId : String) (stepId : Int) (expected recorded : String)
  | nestedDurableCall (workflowId operation : String)
  | durableCallCrossedBody (operation : String)
  | durableCallOutsideExecution (workflowId operation : String)
  | workflowConflict (id : String)
  | replayDiverged (workflowId : String) (divergence : Divergence)
  | app (message : String) (source : Option String)
  | portable (error : PortableWorkflowError)
deriving DecidableEq, Repr

namespace Error

/-- `Error::app`: an application error with no underlying cause. -/
def ofMessage (message : String) : Error := .app message none

def toString : Error → String
  | .recoveryRequired cause => "workflow execution requires recovery: " ++ cause.toString
  | .observationFailed cause => "workflow operation could not be observed: " ++ cause.toString
  | .recorded error => error.message
  | .db error => "database error: " ++ error.message
  | .migrate message => s!"migration error: {message}"
  | .serde message => s!"serialization error: {message}"
  | .outputSerialization message => s!"serialization error: {message}"
  | .serialization message => s!"serialization format error: {message}"
  | .unknownWorkflow name => s!"no workflow registered under name `{name}`"
  | .unknownQueue name => s!"no queue registered under name `{name}`"
  | .nonExistentWorkflow id => s!"workflow `{id}` does not exist"
  | .notAuthorized message => s!"not authorized: {message}"
  | .queueDeduplicated queueName dedupId =>
    s!"deduplication id `{dedupId}` already in use on queue `{queueName}`"
  | .cancelled id => s!"workflow `{id}` was cancelled"
  | .maxRecoveryAttemptsExceeded id => s!"workflow `{id}` exceeded its maximum recovery attempts"
  | .conflictingRegistration name => s!"workflow name `{name}` is registered more than once"
  | .timeout => "operation timed out"
  | .unexpectedStep workflowId stepId expected found =>
    s!"workflow `{workflowId}` step {stepId} is `{expected}` but `{found}` is recorded there — the workflow function is non-deterministic"
  | .nestedDurableCall workflowId operation =>
    s!"workflow `{workflowId}`: `{operation}` was created inside another durable operation's body — a durable call cannot hold its position there"
  | .durableCallCrossedBody operation =>
    s!"`{operation}` was built outside the durable body it is being awaited in — await it where it was built"
  | .durableCallOutsideExecution workflowId operation =>
    s!"workflow `{workflowId}`: `{operation}` was used outside its original workflow execution; keep durable calls in the workflow body or start a child workflow"
  | .workflowConflict id =>
    s!"workflow `{id}` is being executed concurrently by another process; this execution lost the step-checkpoint race"
  | .replayDiverged workflowId divergence =>
    s!"workflow `{workflowId}` no longer replays its recorded history: " ++ divergence.toString
  | .app message _ => message
  | .portable error => error.message

def code : Error → ErrorCode
  | .recoveryRequired _ => .recoveryRequired
  | .observationFailed cause => cause.code
  | .recorded error => error.code
  | .db _ => .database
  | .migrate _ => .initialization
  | .serde _ | .outputSerialization _ | .serialization _ => .serialization
  | .unknownWorkflow _ => .workflowNotRegistered
  | .unknownQueue _ => .queueNotRegistered
  | .nonExistentWorkflow _ => .nonExistentWorkflow
  | .queueDeduplicated _ _ => .queueDeduplicated
  | .notAuthorized _ => .notAuthorized
  | .cancelled _ => .workflowCancelled
  | .maxRecoveryAttemptsExceeded _ => .maxRecoveryAttemptsExceeded
  | .conflictingRegistration _ => .conflictingRegistration
  | .timeout => .timeout
  | .unexpectedStep _ _ _ _ => .unexpectedStep
  | .nestedDurableCall _ _ | .durableCallCrossedBody _ => .nestedDurableCall
  | .durableCallOutsideExecution _ _ => .durableCallOutsideExecution
  | .workflowConflict _ => .workflowConflict
  | .replayDiverged _ _ => .replayDiverged
  | .portable info =>
    if info.name = "durare.WorkflowTargetConflict" ∧
        info.code.bind Value.asStr = some "workflow_target_conflict" then .workflowTargetConflict
    else .application
  | .app _ _ => .application

/-- A cancellation is a control outcome only for the workflow it names. -/
def isCancellationFor (workflowId : String) : Error → Bool
  | .cancelled id => id == workflowId
  | _ => false

def isScopeViolation (error : Error) : Bool :=
  match error.code with
  | .nestedDurableCall | .durableCallOutsideExecution => true
  | _ => false

def isUniqueViolation : Error → Bool
  | .recoveryRequired cause | .observationFailed cause => cause.isUniqueViolation
  | .recorded error => error.uniqueViolation
  | .db error => error.uniqueViolation
  | _ => false

def isForeignKeyViolation : Error → Bool
  | .recoveryRequired cause | .observationFailed cause => cause.isForeignKeyViolation
  | .recorded error => error.foreignKeyViolation
  | .db error => error.foreignKeyViolation
  | _ => false

def isRetryable : Error → Bool
  | .recoveryRequired cause | .observationFailed cause => cause.isRetryable
  | .recorded error => error.retryable
  | .db error => error.retryable
  | _ => false

def isTxConflict : Error → Bool
  | .recoveryRequired cause | .observationFailed cause => cause.isTxConflict
  | .recorded error => error.txConflict
  | .db error => error.txConflict
  | _ => false

def workflowTargetConflict (id : String) : Error :=
  .portable
    { name := "durare.WorkflowTargetConflict"
      message := s!"workflow `{id}` already belongs to a different workflow target"
      code := some (.string "workflow_target_conflict")
      data := some (.object [("workflow_id", .string id)]) }

end Error

def RecordedError.capture (error : Error) : RecordedError where
  code := error.code
  message := error.toString
  retryable := error.isRetryable
  txConflict := error.isTxConflict
  uniqueViolation := error.isUniqueViolation
  foreignKeyViolation := error.isForeignKeyViolation

end Durare

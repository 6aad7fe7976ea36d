import Durare.MemorySteps
import Durare.Runs

/-! The calls on a provider as data, and runs of them. Every caller of the provider takes
its lock for one call at a time, so any interleaving of callers is a list of calls, each
with the clock it reads. -/
namespace Durare.Memory

inductive Call where
  | insertWorkflowStatus (status : WorkflowStatus)
  | getDeduplicatedWorkflow (queue dedup : String)
  | getWorkflowStatus (id : String)
  | setWorkflowStatus (id : String) (status : Status) (output : Option Value) (error : Option String)
  | getStepResult (id : String) (seq : Int)
  | recordStepResult (id : String) (seq : Int) (name : String) (value : Value) (error : Option String)
      (startedAtMs : Option Int) (executor : Option String)
  | dequeueWorkflows (req : DequeueRequest)
  | transitionDelayedWorkflows (nowMs : Int)
  | insertNotification (row : NotificationInsert) (fresh : String)
  | insertNotifications (rows : List (NotificationInsert × String))
  | sendFromWorkflow (id : String) (seq : Int) (name : String) (rows : List (NotificationInsert × String))
  | consumeNotification (id topic : String) (seq : Int) (name : String)
  | upsertEvent (id key : String) (value : Value)
  | getEventValue (id key : String)
  | resumeWorkflow (id : String)
  | resumeWorkflows (ids : List String)
  | enqueueExisting (id queue : String)
  | cancelWorkflowsWithOptions (ids : List String) (options : CancelOptions)
  | deleteWorkflows (ids : List String) (deleteChildren : Bool)
  | setWorkflowDelay (id : String) (delayUntilMs : Int)
  | setWorkflowAttributes (id : String) (attributes : Option Columns)
  | forkWorkflowWithTimeout (params : ForkParams) (timeoutMs : Option Int)
  | claimForRecovery (req : RecoveryClaimRequest)
  | insertChildWorkflow (child : WorkflowStatus) (parent : String) (seq : Int) (returnExisting : Bool)
  | recordChildWorkflow (parent : String) (seq : Int) (name child : String)
  | checkChildWorkflow (parent : String) (seq : Int)
  | getStepName (id : String) (seq : Int)
  | recordPatch (id : String) (seq : Int) (name : String)
  | writeStream (id key : String) (value : Option Value)
  | writeStreamFromWorkflow (id : String) (seq : Int) (name key : String) (value : Option Value)
  | importWorkflow (wfs : List ExportedWorkflow)
  | createApplicationVersion (name fresh : String)
  | setLatestApplicationVersion (name : String)
deriving DecidableEq, Repr

/-- What a call returns when it does not fail. -/
abbrev Call.Reply : Call → Type
  | .insertWorkflowStatus _ => WorkflowStatus × Bool
  | .getDeduplicatedWorkflow _ _ => Option String
  | .getWorkflowStatus _ => Option WorkflowStatus
  | .setWorkflowStatus _ _ _ _ => Bool
  | .getStepResult _ _ => Option RecordedStep
  | .recordStepResult _ _ _ _ _ _ _ => StepOutcome
  | .dequeueWorkflows _ => List WorkflowStatus
  | .transitionDelayedWorkflows _ => Nat
  | .consumeNotification _ _ _ _ => Option Value
  | .getEventValue _ _ => Option Value
  | .resumeWorkflow _ => Bool
  | .resumeWorkflows _ => List String
  | .setWorkflowDelay _ _ => Bool
  | .claimForRecovery _ => RecoveryClaim
  | .insertChildWorkflow _ _ _ _ => Option ChildInsert
  | .checkChildWorkflow _ _ => Option (String × String)
  | .getStepName _ _ => Option String
  | .importWorkflow _ => ImportEnd
  | .setLatestApplicationVersion _ => Bool
  | _ => Unit

def exec (lib : SerdeJson) (now : DateTime) : (call : Call) → Inner → Answer call.Reply
  | .insertWorkflowStatus status => insertWorkflowStatus status
  | .getDeduplicatedWorkflow queue dedup => getDeduplicatedWorkflow queue dedup
  | .getWorkflowStatus id => getWorkflowStatus id
  | .setWorkflowStatus id status output error => setWorkflowStatus lib now id status output error
  | .getStepResult id seq => getStepResult lib id seq
  | .recordStepResult id seq name value error startedAtMs executor =>
    recordStepResult lib now id seq name value error startedAtMs executor
  | .dequeueWorkflows req => dequeueWorkflows now req
  | .transitionDelayedWorkflows nowMs => transitionDelayedWorkflows now nowMs
  | .insertNotification row fresh => insertNotification now row fresh
  | .insertNotifications rows => insertNotifications now rows
  | .sendFromWorkflow id seq name rows => sendFromWorkflow now id seq name rows
  | .consumeNotification id topic seq name => consumeNotification lib now id topic seq name
  | .upsertEvent id key value => upsertEvent id key value
  | .getEventValue id key => getEventValue id key
  | .resumeWorkflow id => resumeWorkflow now id
  | .resumeWorkflows ids => resumeWorkflows now ids
  | .enqueueExisting id queue => enqueueExisting now id queue
  | .cancelWorkflowsWithOptions ids options => cancelWorkflowsWithOptions now ids options
  | .deleteWorkflows ids deleteChildren => deleteWorkflows ids deleteChildren
  | .setWorkflowDelay id delayUntilMs => setWorkflowDelay now id delayUntilMs
  | .setWorkflowAttributes id attributes => setWorkflowAttributes now id attributes
  | .forkWorkflowWithTimeout params timeoutMs => forkWorkflowWithTimeout now params timeoutMs
  | .claimForRecovery req => claimForRecovery now req
  | .insertChildWorkflow child parent seq returnExisting => insertChildWorkflow child parent seq returnExisting
  | .recordChildWorkflow parent seq name child => recordChildWorkflow parent seq name child
  | .checkChildWorkflow parent seq => checkChildWorkflow parent seq
  | .getStepName id seq => getStepName id seq
  | .recordPatch id seq name => recordPatch id seq name
  | .writeStream id key value => writeStream id key value
  | .writeStreamFromWorkflow id seq name key value => writeStreamFromWorkflow now id seq name key value
  | .importWorkflow wfs => importWorkflow lib now wfs
  | .createApplicationVersion name fresh => createApplicationVersion now name fresh
  | .setLatestApplicationVersion name => setLatestApplicationVersion now name

def step (lib : SerdeJson) (s : Inner) (event : DateTime × Call) : Inner := (exec lib event.1 event.2 s).2

abbrev run (lib : SerdeJson) (events : List (DateTime × Call)) (s : Inner) : Inner :=
  Runs.run (step lib) events s

def Reachable (lib : SerdeJson) (s : Inner) : Prop := ∃ events, run lib events Inner.new = s

theorem Reachable.run {lib : SerdeJson} {s : Inner} (reachable : Reachable lib s)
    (events : List (DateTime × Call)) : Reachable lib (run lib events s) := by
  obtain ⟨before, rfl⟩ := reachable
  exact ⟨before ++ events, Runs.run_append ..⟩

end Durare.Memory

import Durare.Provider
import Mathlib.Data.List.Sort

/-! The in-memory state provider. Every operation takes the lock once, so it is one
function from the state to an answer and the next state; `now` is the clock it reads. -/
namespace Durare.Memory

structure NotificationRow where
  messageUuid : String
  destinationId : String
  topic : String
  message : Value
  consumed : Bool
  createdAtMs : Int
deriving DecidableEq, Repr

/-- One recorded operation: a step's output or error, a child link, or a bare name. -/
structure StepRow where
  name : String
  output : Option Value := none
  error : Option String := none
  childWorkflowId : Option String := none
  startedAtMs : Option Int := none
  completedAtMs : Option Int := none
deriving DecidableEq, Repr

/-- A stream entry `none` is the close sentinel. -/
structure Inner where
  workflows : Table String WorkflowStatus
  steps : Table (String × Int) StepRow
  notifications : List NotificationRow
  events : Table (String × String) Value
  streams : Table (String × String) (List (Option Value))
  versions : Table String VersionInfo
deriving DecidableEq

def Inner.new : Inner := ⟨∅, ∅, [], ∅, ∅, ∅⟩

def Inner.putRow (s : Inner) (id : String) (row : WorkflowStatus) : Inner :=
  { s with workflows := s.workflows.put id row }

def Inner.putStep (s : Inner) (id : String) (seq : Int) (row : StepRow) : Inner :=
  { s with steps := s.steps.put (id, seq) row }

/-- An answer and the state left behind, also when the answer is an error. -/
abbrev Answer (α : Type) := Except Error α × Inner

def minBy (key : α → Int) : List α → Option α
  | [] => none
  | x :: xs =>
    match minBy key xs with
    | none => some x
    | some y => if key x ≤ key y then some x else some y

theorem mem_of_minBy (key : α → Int) : ∀ {xs : List α} {x : α}, minBy key xs = some x → x ∈ xs
  | [], _, found => by cases found
  | y :: ys, x, found => by
    rw [minBy] at found
    split at found
    · cases found; simp
    next rest =>
      split at found
      · cases found; simp
      · cases found; simp [mem_of_minBy key rest]

/-- What stands before the chosen row has a larger key. -/
theorem minBy_split (key : α → Int) : ∀ {xs : List α} {x : α}, minBy key xs = some x →
    ∃ before after, xs = before ++ x :: after ∧ ∀ a ∈ before, key x < key a
  | [], _, found => by cases found
  | y :: ys, x, found => by
    rw [minBy] at found
    split at found
    · cases found
      exact ⟨[], ys, rfl, by simp⟩
    next least rest =>
      split at found
      · cases found
        exact ⟨[], ys, rfl, by simp⟩
      next greater =>
        cases found
        obtain ⟨before, after, rfl, larger⟩ := minBy_split key rest
        refine ⟨y :: before, after, rfl, ?_⟩
        intro a member
        rcases List.mem_cons.mp member with rfl | later
        · omega
        · exact larger a later

def holdsDedup (queue dedup : String) (row : WorkflowStatus) : Bool :=
  row.queueName == some queue && row.dedupId == some dedup

def dedupConflict (status : WorkflowStatus) (s : Inner) : Option (String × String) :=
  match status.queueName, status.dedupId with
  | some queue, some dedup =>
    if s.workflows.values.any fun w => w.id != status.id && holdsDedup queue dedup w then
      some (queue, dedup)
    else none
  | _, _ => none

def insertWorkflowStatus (status : WorkflowStatus) (s : Inner) : Answer (WorkflowStatus × Bool) :=
  match dedupConflict status s with
  | some (queue, dedup) => (.error (.queueDeduplicated queue dedup), s)
  | none =>
    match s.workflows.get status.id with
    | some row => (.ok (row, false), s)
    | none => (.ok (status, true), s.putRow status.id status)

def getDeduplicatedWorkflow (queue dedup : String) (s : Inner) : Answer (Option String) :=
  (.ok ((s.workflows.values.find? (holdsDedup queue dedup)).map (·.id)), s)

def getWorkflowStatus (id : String) (s : Inner) : Answer (Option WorkflowStatus) :=
  (.ok (s.workflows.get id), s)

/-- The guard of a status write: an outcome or a parking lands on a PENDING row only, a
cancellation never overwrites a completed one. Other writes are not guarded. -/
def statusAllowed (target current : Status) : Bool :=
  match target with
  | .success | .error | .maxRecoveryAttemptsExceeded => current == .pending
  | .cancelled => !(current.isCompleted || current == .cancelled)
  | _ => true

def writeStatus (lib : SerdeJson) (now : DateTime) (status : Status) (output : Option Value)
    (error : Option String) (row : WorkflowStatus) : WorkflowStatus :=
  let row := { row with status := status, updatedAt := now }
  let row := match output with
    | some value => { row with output := some value }
    | none => row
  let row := match error with
    | some text =>
      let (message, info) := decodeError lib none text
      { row with error := some message, errorInfo := info }
    | none => row
  if status.isTerminal then { row with completedAtMs := some now.timestampMillis, dedupId := none }
  else row

def setWorkflowStatus (lib : SerdeJson) (now : DateTime) (id : String) (status : Status)
    (output : Option Value) (error : Option String) (s : Inner) : Answer Bool :=
  match s.workflows.get id with
  | none => (.ok false, s)
  | some row =>
    if statusAllowed status row.status then
      (.ok true, s.putRow id (writeStatus lib now status output error row))
    else (.ok false, s)

def inPartition (req : DequeueRequest) (w : WorkflowStatus) : Bool :=
  req.partitionKey.isNone || w.queuePartitionKey == req.partitionKey

def onQueue (req : DequeueRequest) (w : WorkflowStatus) : Bool :=
  w.queueName == some req.queueName && inPartition req w

/-- The number of rows a dequeue may claim: the request's bound, cut by the rate limit
over the trailing window and by the queue-wide count of PENDING rows. -/
def dequeueLimit (now : DateTime) (req : DequeueRequest) (s : Inner) : Int :=
  let rows := s.workflows.values
  let byRate := match req.rateLimitMax, req.rateLimitPeriodMs with
    | some limit, some period =>
      let cutoff := asI64 (now.timestampMillis - period)
      let recent := rows.countP fun w => onQueue req w && w.rateLimited && w.status != .enqueued &&
        w.status != .delayed && w.startedAtMs.any (cutoff < ·)
      min req.maxTasks (max (asI64 (limit - recent)) 0)
    | _, _ => req.maxTasks
  match req.globalConcurrency with
  | some global =>
    let pending := rows.countP fun w => onQueue req w && w.status == .pending
    min byRate (max (asI64 (global - pending)) 0)
  | none => byRate

/-- Unversioned rows are claimable only by the fleet of the latest version. -/
def isLatest (req : DequeueRequest) (s : Inner) : Bool :=
  match minBy (fun v => -v.versionTimestamp) s.versions.values with
  | some latest => latest.versionName == req.appVersion
  | none => true

def claimable (req : DequeueRequest) (latest : Bool) (w : WorkflowStatus) : Bool :=
  onQueue req w && w.status == .enqueued &&
    (w.appVersion == req.appVersion || (w.appVersion == "" && latest))

def queueOrder (a b : WorkflowStatus) : Prop :=
  a.priority < b.priority ∨ a.priority = b.priority ∧
    (a.createdAt.timestampMillis < b.createdAt.timestampMillis ∨
      a.createdAt.timestampMillis = b.createdAt.timestampMillis ∧ a.id ≤ b.id)

instance : DecidableRel queueOrder := fun _ _ => inferInstanceAs (Decidable (_ ∨ _))

def dequeueCandidates (now : DateTime) (req : DequeueRequest) (s : Inner) : List String :=
  let limit := dequeueLimit now req s
  if limit ≤ 0 then []
  else
    let candidates := s.workflows.values.filter (claimable req (isLatest req s))
    ((candidates.insertionSort queueOrder).map (·.id)).take limit.toNat

def claimRow (now : DateTime) (req : DequeueRequest) (w : WorkflowStatus) : WorkflowStatus :=
  { w with
    status := .pending
    executorId := req.executorId
    appVersion := req.appVersion
    startedAtMs := some now.timestampMillis
    rateLimited := req.rateLimitMax.isSome
    deadlineMs := w.deadlineMs.or (w.timeoutMs.map fun t => asI64 (now.timestampMillis + t))
    updatedAt := now }

def dequeueWorkflows (now : DateTime) (req : DequeueRequest) (s : Inner) : Answer (List WorkflowStatus) :=
  let ids := dequeueCandidates now req s
  let workflows := ids.foldl (fun t id => t.modify id (claimRow now req)) s.workflows
  (.ok (ids.filterMap workflows.get), { s with workflows := workflows })

def due (nowMs : Int) (w : WorkflowStatus) : Bool :=
  w.status == .delayed && w.delayUntilMs.any (· ≤ nowMs)

def transitionDelayedWorkflows (now : DateTime) (nowMs : Int) (s : Inner) : Answer Nat :=
  (.ok (s.workflows.values.countP (due nowMs)),
    { s with workflows := s.workflows.mapValues fun _ w =>
        if due nowMs w then { w with status := .enqueued, delayUntilMs := none, updatedAt := now } else w })

def resumeRow (now : DateTime) (row : WorkflowStatus) : WorkflowStatus :=
  { row with
    status := .pending
    recoveryAttempts := 0
    deadlineMs := none
    dedupId := none
    startedAtMs := none
    completedAtMs := none
    updatedAt := now }

def resumeWorkflow (now : DateTime) (id : String) (s : Inner) : Answer Bool :=
  match s.workflows.get id with
  | none => (.ok false, s)
  | some row =>
    if row.status.isCompleted then (.ok false, s)
    else (.ok true, s.putRow id (resumeRow now row))

/-- `resume_workflows`: the same gate for each id, one instant for the whole batch. -/
def resumeWorkflows (now : DateTime) : List String → Inner → Answer (List String)
  | [], s => (.ok [], s)
  | id :: ids, s =>
    let (resumed, s') := resumeWorkflow now id s
    let (rest, s'') := resumeWorkflows now ids s'
    (rest.map fun rest => if resumed.toOption = some true then id :: rest else rest, s'')

/-- Puts the row back on a queue, whatever its status. -/
def enqueueExisting (now : DateTime) (id queue : String) (s : Inner) : Answer Unit :=
  (.ok (), { s with workflows := s.workflows.modify id fun row =>
    { row with
      status := .enqueued
      queueName := some queue
      executorId := ""
      startedAtMs := none
      updatedAt := now } })

def collectChildren (rows : List (String × WorkflowStatus)) (parent : String) (targets : List String) :
    List String :=
  rows.foldl (fun targets row =>
    if row.2.parentWorkflowId = some parent ∧ row.1 ∉ targets then targets ++ [row.1] else targets) targets

/-- The breadth-first walk over `parent_workflow_id`: `i` is the next target to expand. -/
def expandTargets (rows : List (String × WorkflowStatus)) : Nat → Nat → List String → List String
  | 0, _, targets => targets
  | fuel + 1, i, targets =>
    match targets[i]? with
    | none => targets
    | some parent => expandTargets rows fuel (i + 1) (collectChildren rows parent targets)

/-- Each round expands one target and every row becomes a target at most once. -/
def targetsWithChildren (ids : List String) (s : Inner) : List String :=
  expandTargets s.workflows.toList (ids.length + s.workflows.toList.length + 1) 0 ids

def cancelRow (now : DateTime) (row : WorkflowStatus) : WorkflowStatus :=
  if row.status.isCompleted || row.status == .cancelled then row
  else
    { row with
      status := .cancelled
      completedAtMs := some now.timestampMillis
      startedAtMs := none
      queueName := none
      dedupId := none
      updatedAt := now }

def cancelWorkflowsWithOptions (now : DateTime) (ids : List String) (options : CancelOptions) (s : Inner) :
    Answer Unit :=
  let targets := if options.cancelChildren then targetsWithChildren ids s else ids
  (.ok (), { s with workflows := targets.foldl (fun t id => t.modify id (cancelRow now)) s.workflows })

/-- Deletes the rows, steps, streams and mailbox of the targets; their events stay. -/
def deleteTargets (targets : List String) (s : Inner) : Inner :=
  { s with
    workflows := s.workflows.retain fun id _ => id ∉ targets
    steps := s.steps.retain fun key _ => key.1 ∉ targets
    streams := s.streams.retain fun key _ => key.1 ∉ targets
    notifications := s.notifications.filter fun n => n.destinationId ∉ targets }

def deleteWorkflows (ids : List String) (deleteChildren : Bool) (s : Inner) : Answer Unit :=
  (.ok (), deleteTargets (if deleteChildren then targetsWithChildren ids s else ids) s)

def setWorkflowDelay (now : DateTime) (id : String) (delayUntilMs : Int) (s : Inner) : Answer Bool :=
  match s.workflows.get id with
  | none => (.ok false, s)
  | some row =>
    if row.status = .delayed then
      (.ok true, s.putRow id { row with delayUntilMs := some delayUntilMs, updatedAt := now })
    else (.ok false, s)

/-- Attributes are replaced; an empty map clears them. -/
def setWorkflowAttributes (now : DateTime) (id : String) (attributes : Option Columns) (s : Inner) :
    Answer Unit :=
  match s.workflows.get id with
  | none => (.error (.nonExistentWorkflow id), s)
  | some row =>
    (.ok (), s.putRow id
      { row with attributes := (attributes.filter (· ≠ [])).map .object, updatedAt := now })

def claimForRecovery (now : DateTime) (req : RecoveryClaimRequest) (s : Inner) : Answer RecoveryClaim :=
  match s.workflows.get req.workflowId with
  | none => (.ok .lost, s)
  | some row =>
    if row.status ≠ .pending ∨ row.executorId ≠ req.expectedExecutor ∨
        row.recoveryAttempts ≠ req.expectedAttempts then (.ok .lost, s)
    else
      let attempts := asI32 (row.recoveryAttempts + 1)
      let row := { row with recoveryAttempts := attempts, updatedAt := now }
      if req.maxAttempts < attempts then
        (.ok (.parked attempts),
          s.putRow req.workflowId { row with status := .maxRecoveryAttemptsExceeded, dedupId := none })
      else if req.requeue then
        (.ok .requeued, s.putRow req.workflowId { row with status := .enqueued, startedAtMs := none })
      else (.ok (.claimed attempts), s.putRow req.workflowId { row with executorId := req.newExecutor })

def createApplicationVersion (now : DateTime) (name fresh : String) (s : Inner) : Answer Unit :=
  match s.versions.get name with
  | some _ => (.ok (), s)
  | none => (.ok (), { s with versions := s.versions.put name ⟨fresh, name, now, now⟩ })

def setLatestApplicationVersion (now : DateTime) (name : String) (s : Inner) : Answer Bool :=
  (.ok (s.versions.get name).isSome,
    { s with versions := s.versions.modify name fun v => { v with versionTimestamp := now } })

end Durare.Memory

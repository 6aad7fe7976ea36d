import Durare.Deletion
import Durare.Payloads
import Durare.SqlStatus

/-! The life of a workflow's row on SQLite. The candidate scan leaves the order of equal rows to the database, and a
deadline beyond the integers is left out. -/
namespace Durare.Sqlite

variable (lib : SerdeJson) (serializer : Serializer)

def getDeduplicatedWorkflow (queue dedup : String) (db : Db) : Answer (Option String) :=
  (.ok ((db.workflowStatus.keysOf fun r => r.queueName == some queue && r.deduplicationId == some dedup).head?), db)

/-- `dequeue_workflows` with the rows that it claims decoded, given the candidates in the order of the database. The
queries are those of the Postgres backend. -/
def dequeueStatuses (now : DateTime) (req : DequeueRequest) (scan : List String) (db : Db) :
    Answer (List WorkflowStatus) :=
  let (claimed, db') := dequeueWorkflows now req scan db
  (.ok (claimed.map fun row => rowToStatus lib serializer now row.1 row.2), db')

/-- `latest` is the version that the registry lists last; without one every executor is the latest. -/
def isLatest (req : DequeueRequest) (latest : Option String) : Bool := latest.all (· == req.appVersion)

def due (nowMs : Int) (r : WorkflowRecord) : Bool := r.status == .delayed && r.delayUntilMs.any (· ≤ nowMs)

def transitionDelayedWorkflows (nowMs : Int) (db : Db) : Answer Nat :=
  (.ok (db.workflowStatus.values.countP (due nowMs)),
    { db with workflowStatus := db.workflowStatus.mapValues fun _ r =>
        if due nowMs r then { r with status := .enqueued, delayUntilMs := none, updatedAt := nowMs } else r })

/-- `SELECT DISTINCT`: the keys in no order. -/
def queuePartitions (queue : String) (db : Db) : Answer (List String) :=
  (.ok ((db.workflowStatus.values.filter fun r => r.queueName == some queue && r.status == .enqueued).filterMap
    (·.queuePartitionKey)).dedup, db)

def resumeRecord (now : DateTime) (r : WorkflowRecord) : WorkflowRecord :=
  { r with
    status := .pending
    recoveryAttempts := 0
    deadlineMs := none
    deduplicationId := none
    startedAtMs := none
    completedAt := none
    updatedAt := now.timestampMillis }

/-- A statement that updates the row of an id where it meets a condition, and how many rows it met. -/
def updateWhere (id : String) (condition : WorkflowRecord → Bool) (update : WorkflowRecord → WorkflowRecord) (db : Db) :
    Bool × Db :=
  match db.workflowStatus.get id with
  | none => (false, db)
  | some r =>
    if condition r = true then (true, { db with workflowStatus := db.workflowStatus.put id (update r) })
    else (false, db)

def resumeWorkflow (now : DateTime) (id : String) (db : Db) : Answer Bool :=
  let (resumed, db') := updateWhere id (fun r => !r.status.isCompleted) (resumeRecord now) db
  (.ok resumed, db')

/-- One statement for all ids, which binds four values more; it returns the ids of its rows, in no order. -/
def resumeWorkflows (refuses : Limit) (now : DateTime) (ids : List String) (db : Db) : Answer (List String) :=
  if ids.isEmpty then (.ok [], db)
  else
    match refuses (ids.length + 4) with
    | some e => (.error e, db)
    | none =>
      let resumed := (db.workflowStatus.keysOf fun r => !r.status.isCompleted).filter ids.contains
      (.ok resumed,
        { db with workflowStatus := db.workflowStatus.mapValues fun id r =>
            if resumed.contains id then resumeRecord now r else r })

/-- The unique index on queue and deduplication id. -/
def slotViolation : Error := .db
  { message := "error returned from database: (code: 2067) UNIQUE constraint failed: " ++
      "workflow_status.queue_name, workflow_status.deduplication_id"
    retryable := false
    txConflict := false
    uniqueViolation := true
    foreignKeyViolation := false }

/-- Another row holds the slot that a row would take on the queue. -/
def slotTakenFrom (id queue : String) (db : Db) (r : WorkflowRecord) : Bool :=
  r.deduplicationId.any fun dedup => db.workflowStatus.toList.any fun other =>
    other.1 != id && other.2.queueName == some queue && other.2.deduplicationId == some dedup

def enqueueExisting (now : DateTime) (id queue : String) (db : Db) : Answer Unit :=
  match db.workflowStatus.get id with
  | none => (.ok (), db)
  | some r =>
    if slotTakenFrom id queue db r then (.error slotViolation, db)
    else
      let row : WorkflowRecord :=
        { r with
          status := .enqueued
          queueName := some queue
          executorId := some ""
          startedAtMs := none
          updatedAt := now.timestampMillis }
      (.ok (), { db with workflowStatus := db.workflowStatus.put id row })

def setWorkflowDelay (now : DateTime) (id : String) (delayUntilMs : Int) (db : Db) : Answer Bool :=
  let delay (r : WorkflowRecord) : WorkflowRecord :=
    { r with delayUntilMs := some delayUntilMs, updatedAt := now.timestampMillis }
  let (delayed, db') := updateWhere id (·.status == .delayed) delay db
  (.ok delayed, db')

def setWorkflowAttributes (now : DateTime) (id : String) (attributes : Option Columns) (db : Db) : Answer Unit :=
  let text := (attributes.filter (· ≠ [])).map fun map => lib.toString (.object map)
  let set (r : WorkflowRecord) : WorkflowRecord := { r with attributes := text, updatedAt := now.timestampMillis }
  let (found, db') := updateWhere id (fun _ => true) set db
  (if found then .ok () else .error (.nonExistentWorkflow id), db')

/-- The one `UPDATE` of a recovery claim, and its compare-and-set predicate. -/
def recoverRecord (now : DateTime) (req : RecoveryClaimRequest) (r : WorkflowRecord) : WorkflowRecord :=
  let attempts := asI32 (req.expectedAttempts + 1)
  let r := { r with recoveryAttempts := r.recoveryAttempts + 1, updatedAt := now.timestampMillis }
  if req.maxAttempts < attempts then { r with status := .maxRecoveryAttemptsExceeded, deduplicationId := none }
  else if req.requeue then { r with status := .enqueued, startedAtMs := none }
  else { r with executorId := some req.newExecutor }

def recoverable (req : RecoveryClaimRequest) (r : WorkflowRecord) : Bool :=
  r.status == .pending && r.executorId == some req.expectedExecutor && r.recoveryAttempts == req.expectedAttempts

theorem claimForRecovery_update (now : DateTime) (req : RecoveryClaimRequest) (db : Db) :
    claimForRecovery now req db =
      let attempts := asI32 (req.expectedAttempts + 1)
      let (claimed, db') := updateWhere req.workflowId (recoverable req) (recoverRecord now req) db
      (.ok (if !claimed then .lost
        else if req.maxAttempts < attempts then .parked attempts
        else if req.requeue then .requeued
        else .claimed attempts), db') := by
  unfold claimForRecovery updateWhere
  cases db.workflowStatus.get req.workflowId with
  | none => rfl
  | some row =>
    by_cases met : recoverable req row = true
    · have stays : ¬(row.status ≠ .pending ∨ row.executorId ≠ some req.expectedExecutor ∨
          row.recoveryAttempts ≠ req.expectedAttempts) := by
        simp only [recoverable, Bool.and_eq_true, beq_iff_eq] at met
        tauto
      simp only [met, if_pos, if_neg stays, recoverRecord, Bool.not_true, Bool.false_eq_true, if_false]
      split
      · rfl
      · split <;> rfl
    · have moved : row.status ≠ .pending ∨ row.executorId ≠ some req.expectedExecutor ∨
          row.recoveryAttempts ≠ req.expectedAttempts := by
        simp only [recoverable, Bool.and_eq_true, beq_iff_eq] at met
        tauto
      simp only [if_neg met, if_pos moved, Bool.not_false, if_true]

end Durare.Sqlite

namespace Durare.Memory

def queuePartitions (queue : String) (s : Inner) : Answer (List String) :=
  (.ok (((s.workflows.values.filter fun w => w.queueName == some queue && w.status == .enqueued).filterMap
    (·.queuePartitionKey)).insertionSort (· ≤ ·)).dedup, s)

end Durare.Memory

import Durare.Export

/-! The portable form of a workflow, as the SQLite backend writes it: the columns of its rows, each with the
format that its values are written in, where the export takes that along. -/
namespace Durare.Sqlite

open Value

def exportStatusMap (id : String) (r : WorkflowRecord) : Columns :=
  [("workflow_uuid", .string id),
    ("status", .string r.status.toString),
    ("name", .string r.name),
    ("authenticated_user", textColumn r.authenticatedUser),
    ("assumed_role", textColumn r.assumedRole),
    ("authenticated_roles", textColumn r.authenticatedRoles),
    ("output", textColumn r.output),
    ("error", textColumn r.error),
    ("executor_id", textColumn r.executorId),
    ("application_version", textColumn r.applicationVersion),
    ("application_id", textColumn r.applicationId),
    ("class_name", textColumn r.className),
    ("config_name", textColumn r.configName),
    ("queue_name", textColumn r.queueName),
    ("deduplication_id", textColumn r.deduplicationId),
    ("inputs", textColumn r.inputs),
    ("queue_partition_key", textColumn r.queuePartitionKey),
    ("forked_from", textColumn r.forkedFrom),
    ("parent_workflow_id", textColumn r.parentWorkflowId),
    ("serialization", textColumn r.serialization),
    ("created_at", .ofI64 r.createdAt),
    ("updated_at", .ofI64 r.updatedAt),
    ("recovery_attempts", .ofI64 r.recoveryAttempts),
    ("workflow_timeout_ms", intColumn r.timeoutMs),
    ("workflow_deadline_epoch_ms", intColumn r.deadlineMs),
    ("started_at_epoch_ms", intColumn r.startedAtMs),
    ("delay_until_epoch_ms", intColumn r.delayUntilMs),
    ("completed_at", intColumn r.completedAt),
    ("priority", .ofI64 r.priority),
    ("was_forked_from", .bool r.wasForkedFrom)]

def exportOpMap (id : String) (seq : Int) (r : StepRecord) : Columns :=
  [("workflow_uuid", .string id),
    ("function_name", .string r.functionName),
    ("output", textColumn r.output),
    ("error", textColumn r.error),
    ("child_workflow_id", textColumn r.childWorkflowId),
    ("serialization", textColumn r.serialization),
    ("function_id", .ofI64 seq),
    ("started_at_epoch_ms", intColumn r.startedAtMs),
    ("completed_at_epoch_ms", intColumn r.completedAtMs)]

/-- `export_event_map`, without the format of the value. -/
def exportEventMap (id key value : String) : Columns :=
  [("workflow_uuid", .string id), ("key", .string key), ("value", .string value)]

def exportHistoryMap (id : String) (seq : Int) (key value : String) : Columns :=
  [("workflow_uuid", .string id), ("key", .string key), ("value", .string value), ("function_id", .ofI64 seq)]

/-- `export_stream_map`, without the format of the value. -/
def exportStreamMap (id key : String) (offset : Int) (r : StreamRecord) : Columns :=
  [("workflow_uuid", .string id),
    ("key", .string key),
    ("value", .string r.value),
    ("offset", .ofI64 offset),
    ("function_id", .ofI64 r.functionId)]

section Export

variable (db : Db)

def childIds (parent : String) : List String :=
  (db.workflowStatus.keysOf fun r => r.parentWorkflowId == some parent).insertionSort (· ≤ ·)

/-- The root first, then what the stack of parents leads to. `fuel` bounds the parents taken off the stack. -/
def exportIds (fuel : Nat) (id : String) (exportChildren : Bool) : Option (List String) :=
  if exportChildren then Descent.walk (childIds db) fuel [id] [id] else some [id]

def exportOne (id : String) (r : WorkflowRecord) : ExportedWorkflow where
  workflowStatus := exportStatusMap id r
  operationOutputs := (db.operationOutputs.listing id fun seq => seq).map fun row => exportOpMap id row.1 row.2
  workflowEvents := (db.workflowEvents.listing id fun key => key).map fun row => exportEventMap id row.1 row.2.1
  workflowEventsHistory := (db.workflowEventsHistory.listing id fun key => toLex key).map fun row =>
    exportHistoryMap id row.1.1 row.1.2 row.2.1
  streams := (db.streams.listing id fun key => toLex key).map fun row => exportStreamMap id row.1.1 row.1.2 row.2

def exportAll : List String → Except Error (List ExportedWorkflow)
  | [] => .ok []
  | id :: ids =>
    match db.workflowStatus.get id with
    | none => .error (.nonExistentWorkflow id)
    | some r => (exportAll ids).map (exportOne db id r :: ·)

/-- `export_workflow`, or `none` while parents are left on the stack. -/
def exportWorkflow (fuel : Nat) (id : String) (exportChildren : Bool) : Option (Answer (List ExportedWorkflow)) :=
  (exportIds db fuel id exportChildren).map fun ids => (exportAll db ids, db)

end Export

variable {db : Db}

theorem mem_childIds {parent child : String} : child ∈ childIds db parent ↔
    ∃ r, db.workflowStatus.get child = some r ∧ r.parentWorkflowId = some parent := by
  simp only [childIds, List.mem_insertionSort, Table.mem_keysOf, beq_iff_eq]

theorem childIds_forest (db : Db) : Descent.Forest (childIds db) where
  nodup parent := (List.perm_insertionSort _ _).nodup_iff.mpr (Table.nodup_keysOf _ _)
  parent := by
    intro x p p' here there
    obtain ⟨r, stored, under⟩ := mem_childIds.mp here
    obtain ⟨r', stored', under'⟩ := mem_childIds.mp there
    rw [stored] at stored'
    cases stored'
    exact Option.some_inj.mp (under.symm.trans under')

theorem childIds_finite (db : Db) : {x | ∃ parent, x ∈ childIds db parent}.Finite := by
  refine (db.workflowStatus.toList.map (·.1)).toFinset.finite_toSet.subset ?_
  rintro x ⟨parent, child⟩
  obtain ⟨r, stored, -⟩ := mem_childIds.mp child
  rw [List.coe_toFinset]
  exact List.mem_map.mpr ⟨(x, r), (Table.mem_toList _ _ _).mpr stored, rfl⟩

def exported (db : Db) (id : String) : Option ExportedWorkflow := (db.workflowStatus.get id).map (exportOne db id)

theorem exportAll_eq {ids : List String} (stored : ∀ id ∈ ids, (db.workflowStatus.get id).isSome) :
    exportAll db ids = .ok (ids.filterMap (exported db)) := by
  induction ids with
  | nil => rfl
  | cons id ids ih =>
    obtain ⟨r, here⟩ := Option.isSome_iff_exists.mp (stored id List.mem_cons_self)
    have rest := ih fun other member => stored other (List.mem_cons_of_mem _ member)
    have one : exported db id = some (exportOne db id r) := by rw [exported, here, Option.map_some]
    rw [exportAll, here, List.filterMap_cons_some one]
    simp only [rest]
    rfl

end Durare.Sqlite

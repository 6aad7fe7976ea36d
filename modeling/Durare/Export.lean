import Durare.Descent
import Durare.Filters
import Durare.Listing
import Durare.Records
import Durare.Sqlite

/-! The portable form of a workflow, as the in-memory backend writes it: a row of columns for
the workflow and for each of its steps, events and stream entries. -/
namespace Durare

namespace Value

def IsI64 (i : Int) : Prop := -2 ^ 63 ≤ i ∧ i < 2 ^ 63

instance (i : Int) : Decidable (IsI64 i) := inferInstanceAs (Decidable (_ ∧ _))

def ofI64 (i : Int) : Value :=
  if 0 ≤ i then .number (.posInt (Fin.ofNat _ i.toNat))
  else .number (.negInt (Fin.ofNat _ (-i - 1).toNat))

theorem asI64_ofI64 {i : Int} (fits : IsI64 i) : (ofI64 i).asI64 = some i := by
  obtain ⟨low, high⟩ := fits
  by_cases sign : 0 ≤ i
  · have small : i.toNat % 2 ^ 64 = i.toNat := by omega
    have below : i.toNat < 2 ^ 63 := by omega
    simp only [ofI64, sign, if_true, asI64, Fin.ofNat, small, below]
    simp; omega
  · have small : (-i - 1).toNat % 2 ^ 63 = (-i - 1).toNat := by omega
    simp only [ofI64, sign, if_false, asI64, Fin.ofNat, small]
    simp; omega

theorem IsI32.wide {i : Int} (fits : IsI32 i) : IsI64 i := by
  obtain ⟨low, high⟩ := fits
  constructor <;> omega

theorem asI32_of_fits {i : Int} (fits : IsI32 i) : asI32 i = i := by
  obtain ⟨low, high⟩ := fits
  unfold asI32
  rw [Int.bmod_eq_of_le] <;> omega

end Value

open Value

def textColumn (text : Option String) : Value := text.elim .null .string

def intColumn (n : Option Int) : Value := n.elim .null .ofI64

@[simp] theorem asStr_textColumn (text : Option String) : (textColumn text).asStr = text := by
  cases text <;> rfl

theorem asI64_intColumn {n : Option Int} (fits : ∀ i ∈ n, IsI64 i) : (intColumn n).asI64 = n := by
  cases n with
  | none => rfl
  | some i => exact asI64_ofI64 (fits i rfl)

/-- A payload column keeps the printed value; null is a value of its own. -/
def payloadStr (lib : SerdeJson) (v : Value) : Value := .string (lib.toString v)

namespace Memory

section Maps

variable (lib : SerdeJson)

/-- `status_to_map`. Columns this backend does not keep are null. -/
def statusToMap (w : WorkflowStatus) : Columns :=
  [("workflow_uuid", .string w.id),
    ("status", .string w.status.toString),
    ("name", .string w.name),
    ("authenticated_user", textColumn w.authenticatedUser),
    ("assumed_role", textColumn w.assumedRole),
    ("authenticated_roles", textColumn (Sqlite.encodeRoles lib w.authenticatedRoles)),
    ("output", textColumn (w.output.map lib.toString)),
    ("error", textColumn (w.error.map fun message => encodeStoredError lib .json message w.errorInfo)),
    ("executor_id", .string w.executorId),
    ("created_at", .ofI64 w.createdAt.timestampMillis),
    ("updated_at", .ofI64 w.updatedAt.timestampMillis),
    ("application_version", .string w.appVersion),
    ("application_id", .null),
    ("class_name", textColumn w.className),
    ("config_name", textColumn w.configName),
    ("recovery_attempts", .ofI64 w.recoveryAttempts),
    ("queue_name", textColumn w.queueName),
    ("workflow_timeout_ms", intColumn w.timeoutMs),
    ("workflow_deadline_epoch_ms", intColumn w.deadlineMs),
    ("started_at_epoch_ms", intColumn w.startedAtMs),
    ("deduplication_id", textColumn w.dedupId),
    ("inputs", payloadStr lib w.input),
    ("priority", .ofI64 w.priority),
    ("queue_partition_key", textColumn w.queuePartitionKey),
    ("forked_from", textColumn w.forkedFrom),
    ("parent_workflow_id", textColumn w.parentWorkflowId),
    ("delay_until_epoch_ms", intColumn w.delayUntilMs),
    ("completed_at", intColumn w.completedAtMs),
    ("serialization", .null)]

def stepToMap (id : String) (seq : Int) (r : StepRow) : Columns :=
  [("workflow_uuid", .string id),
    ("function_id", .ofI64 seq),
    ("function_name", .string r.name),
    ("output", textColumn (r.output.map lib.toString)),
    ("error", textColumn r.error),
    ("child_workflow_id", textColumn r.childWorkflowId),
    ("started_at_epoch_ms", intColumn r.startedAtMs),
    ("completed_at_epoch_ms", intColumn r.completedAtMs)]

def eventToMap (id key : String) (value : Value) : Columns :=
  [("workflow_uuid", .string id), ("key", .string key), ("value", payloadStr lib value)]

/-- `stream_to_map`: the close of a stream is the sentinel. -/
def streamToMap (id key : String) (offset : Int) (entry : Option Value) : Columns :=
  [("workflow_uuid", .string id),
    ("key", .string key),
    ("value", .string ((entry.map lib.toString).getD STREAM_CLOSED_SENTINEL)),
    ("offset", .ofI64 offset),
    ("function_id", .null)]

end Maps

section Export

variable (lib : SerdeJson) (s : Inner)

def childIds (parent : String) : List String :=
  ((s.workflows.values.filter fun w => w.parentWorkflowId == some parent).map (·.id)).insertionSort (· ≤ ·)

/-- The root first, then what the stack of parents leads to. `fuel` bounds the parents taken
off the stack. -/
def exportIds (fuel : Nat) (id : String) (exportChildren : Bool) : Option (List String) :=
  if exportChildren then Descent.walk (childIds s) fuel [id] [id] else some [id]

def exportOne (id : String) (w : WorkflowStatus) : ExportedWorkflow where
  workflowStatus := statusToMap lib w ++ [("was_forked_from", .bool (isForkSource s w.id))]
  operationOutputs := (s.steps.listing id fun seq => seq).map fun row => stepToMap lib id row.1 row.2
  workflowEvents := (s.events.listing id fun key => key).map fun row => eventToMap lib id row.1 row.2
  streams := (s.streams.listing id fun key => key).flatMap fun row =>
    row.2.zipIdx.map fun entry => streamToMap lib id row.1 entry.2 entry.1

def exportAll : List String → Except Error (List ExportedWorkflow)
  | [] => .ok []
  | id :: ids =>
    match s.workflows.get id with
    | none => .error (.nonExistentWorkflow id)
    | some w => (exportAll ids).map (exportOne lib s id w :: ·)

/-- `export_workflow`, or `none` while parents are left on the stack. -/
def exportWorkflow (fuel : Nat) (id : String) (exportChildren : Bool) : Option (Answer (List ExportedWorkflow)) :=
  (exportIds s fuel id exportChildren).map fun ids => (exportAll lib s ids, s)

end Export

end Memory

end Durare

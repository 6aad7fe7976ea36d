import Durare.Backends
import Durare.Statuses

/-! The columns of a status on SQLite. The backends hold the same rows, so what the calls of a run owe to the
in-memory rows they owe to the stored ones. -/
namespace Durare.Backends

open Memory (Inner Rows)
open Statuses (KeepsMarks KeepsOutcomes Marked Fitting)

def Call.provided : Call → Option Memory.Call
  | .insertWorkflowStatus status => some (.insertWorkflowStatus status)
  | .getWorkflowStatus id => some (.getWorkflowStatus id)
  | .getDeduplicatedWorkflow queue dedup => some (.getDeduplicatedWorkflow queue dedup)
  | .setWorkflowStatus id status output error => some (.setWorkflowStatus id status output error)
  | .dequeueWorkflows req _ _ => some (.dequeueWorkflows req)
  | .transitionDelayedWorkflows nowMs => some (.transitionDelayedWorkflows nowMs)
  | .queuePartitions _ => none
  | .resumeWorkflow id => some (.resumeWorkflow id)
  | .resumeWorkflows ids => some (.resumeWorkflows ids)
  | .enqueueExisting id queue => some (.enqueueExisting id queue)
  | .cancelWorkflowsWithOptions ids options => some (.cancelWorkflowsWithOptions ids options)
  | .deleteWorkflows ids deleteChildren => some (.deleteWorkflows ids deleteChildren)
  | .setWorkflowDelay id delayUntilMs => some (.setWorkflowDelay id delayUntilMs)
  | .setWorkflowAttributes id attributes => some (.setWorkflowAttributes id attributes)
  | .claimForRecovery req => some (.claimForRecovery req)

/-- The run as the in-memory provider sees it. -/
def provided (calls : List (DateTime × Call)) : List (DateTime × Memory.Call) :=
  calls.filterMap fun event => event.2.provided.map fun call => (event.1, call)

/-- `completed_at` is set exactly on a finished workflow. -/
def RecordMarked (r : Sqlite.WorkflowRecord) : Prop := r.completedAt.isSome = r.status.isTerminal

/-- The outcome columns are those of the status. -/
def RecordFitting (r : Sqlite.WorkflowRecord) : Prop :=
  match r.status with
  | .success => r.output.isSome = true ∧ r.error = none
  | .error => r.output = none ∧ r.error.isSome = true
  | .enqueued | .delayed | .pending => r.output = none ∧ r.error = none
  | .cancelled | .maxRecoveryAttemptsExceeded | .other _ => True

section Rows

variable {lib : SerdeJson} {serializer : Serializer} {id : String} {r : Sqlite.WorkflowRecord} {w : WorkflowStatus}

theorem SameRow.status_eq (same : SameRow lib serializer id r w) : r.status = w.status :=
  (congrArg Sqlite.WorkflowRecord.status same.columns).symm

theorem SameRow.completedAt_eq (same : SameRow lib serializer id r w) : r.completedAt = w.completedAtMs :=
  (congrArg Sqlite.WorkflowRecord.completedAt same.columns).symm

theorem SameRow.output_isSome (same : SameRow lib serializer id r w) : r.output.isSome = w.output.isSome := by
  have columns := same.output
  cases stored : r.output <;> cases held : w.output <;> rw [stored, held] at columns <;> first | rfl | cases columns

theorem SameRow.error_isSome (same : SameRow lib serializer id r w) : r.error.isSome = w.error.isSome := by
  have columns := congrArg Option.isSome same.error
  simpa only [Option.isSome_map] using columns

theorem SameRow.marked (same : SameRow lib serializer id r w) (marked : Marked w) : RecordMarked r := by
  rw [RecordMarked, same.completedAt_eq, same.status_eq]
  exact marked

theorem SameRow.fitting (same : SameRow lib serializer id r w) (fitting : Fitting w) : RecordFitting r := by
  have output := same.output_isSome
  have error := same.error_isSome
  unfold Fitting at fitting
  unfold RecordFitting
  rw [same.status_eq]
  cases here : w.status <;> simp_all [Statuses.Bare]

end Rows

section Run

variable {lib : SerdeJson} {serializer : Serializer} {refuses : Sqlite.Limit}

theorem memory_step (now : DateTime) (call : Call) (s : Inner) :
    (call.memory lib now s).2 = (call.provided.map fun own => Memory.step lib s (now, own)).getD s := by
  cases call <;> rfl

theorem inMemory_run (calls : List (DateTime × Call)) (s : Inner) :
    (inMemory lib calls s).2 = Memory.run lib (provided calls) s := by
  induction calls generalizing s with
  | nil => rfl
  | cons event calls ih =>
    obtain ⟨now, call⟩ := event
    simp only [inMemory, ih, memory_step, provided, List.filterMap_cons]
    cases call.provided <;> rfl

/-- What every in-memory row of a run has, and what the rows they stand for then have. -/
theorem sqlite_rows {P : WorkflowStatus → Prop} {Q : Sqlite.WorkflowRecord → Prop} (lawful : lib.Lawful)
    (sound : serializer.Lawful) {calls : List (DateTime × Call)}
    (agreed : Agreed lib serializer refuses calls Sqlite.Db.new Inner.new)
    (rows : Rows P (Memory.run lib (provided calls) Inner.new))
    (carried : ∀ id r w, SameRow lib serializer id r w → P w → Q r) :
    ∃ replies db, onSqlite lib serializer refuses calls Sqlite.Db.new = some (replies, db) ∧
      ∀ id r, db.workflowStatus.get id = some r → Q r := by
  obtain ⟨db, ran, after⟩ := (new_holds lib serializer).run lawful sound agreed
  refine ⟨_, db, ran, fun id r stored => ?_⟩
  obtain ⟨w, held, same⟩ := after.record stored
  rw [inMemory_run] at held
  exact carried id r w same (rows id w held)

/-- On SQLite too `completed_at` marks exactly the finished workflows of a run that parks no row and puts no finished
one back. -/
theorem sqlite_completed_marked (lawful : lib.Lawful) (sound : serializer.Lawful) {calls : List (DateTime × Call)}
    (agreed : Agreed lib serializer refuses calls Sqlite.Db.new Inner.new)
    (keeps : Runs.Along (Memory.step lib) (KeepsMarks lib) (provided calls) Inner.new) :
    ∃ replies db, onSqlite lib serializer refuses calls Sqlite.Db.new = some (replies, db) ∧
      ∀ id r, db.workflowStatus.get id = some r → RecordMarked r :=
  sqlite_rows lawful sound agreed (Statuses.run_marked keeps) fun _ _ _ same => same.marked

/-- And every row has the outcome of its status, where outcomes are written with their status and no row that still
carries one is run again. -/
theorem sqlite_outcomes_fitting (lawful : lib.Lawful) (sound : serializer.Lawful) {calls : List (DateTime × Call)}
    (agreed : Agreed lib serializer refuses calls Sqlite.Db.new Inner.new)
    (keeps : Runs.Along (Memory.step lib) (KeepsOutcomes lib) (provided calls) Inner.new) :
    ∃ replies db, onSqlite lib serializer refuses calls Sqlite.Db.new = some (replies, db) ∧
      ∀ id r, db.workflowStatus.get id = some r → RecordFitting r :=
  sqlite_rows lawful sound agreed (Statuses.run_fitting keeps) fun _ _ _ same => same.fitting

end Run

/-- The run of two rows, of which one is cancelled, resumed and finished. -/
example : ∃ replies db,
    onSqlite Records.timeoutLibrary .portable Sqlite.variableLimit history Sqlite.Db.new = some (replies, db) ∧
      ∀ id r, db.workflowStatus.get id = some r → RecordFitting r :=
  sqlite_outcomes_fitting Memory.timeoutLibrary_exact.lawful (show Serializer.portable.Lawful from ⟨trivial, trivial⟩)
    history_agreed (by decide +kernel)

end Durare.Backends

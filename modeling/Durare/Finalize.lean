import Durare.Latch
import Durare.SqlStatus

/-! A body that fails: what `run_to_completion` makes of the error while the execution still
owns its PENDING row. -/
namespace Durare.Finalize

open Interaction Latch Records

structure Service (σ : Type) where
  set : DateTime → String → Status → Option Value → Option String → σ → Except Error Bool × σ
  get : DateTime → String → σ → Except Error (Option WorkflowStatus) × σ

def memory (lib : SerdeJson) : Service Memory.Inner where
  set := fun now id status output error => Memory.setWorkflowStatus lib now id status output error
  get := fun _ id => Memory.getWorkflowStatus id

def sqlite (lib : SerdeJson) (serializer : Serializer) : Service Sqlite.Db where
  set := fun now id status output error => Sqlite.setWorkflowStatus lib serializer now id status output error
  get := fun now id => Sqlite.getWorkflowStatus lib serializer now id

/-- An execution with a clear latch, alone on its provider. -/
def Service.answer {δ σ : Type} (service : Service σ) (now : DateTime) :
    (q : Ask) → σ → Option (Ask.Reply δ q × σ)
  | .call (.setWorkflowStatus id status output error), s => some (service.set now id status output error s)
  | .call (.getWorkflowStatus id), s => some (service.get now id s)
  | .check, s => some (.ok (), s)
  | .wait, s => some ((), s)
  | _, _ => none

structure Owned {σ : Type} (service : Service σ) (now : DateTime) (id : String) (s : σ) : Prop where
  reads : ∃ status, service.get now id s = (.ok (some status), s) ∧ status.status = .pending
  lands : ∀ text, (service.set now id .error none (some text) s).1 = .ok true

def Ordinary (id : String) : Error → Prop
  | .recoveryRequired _ | .observationFailed _ => False
  | .workflowConflict other => other ≠ id
  | error => error.isCancellationFor id = false

/-- The failures that are recorded: no conflict, no diagnostic of an interruption, and no
envelope that reads as another error. -/
def Finalisable (serializer : Serializer) (error : Error) : Prop :=
  (∀ id, error ≠ .workflowConflict id) ∧ error.code ≠ .recoveryRequired ∧ ¬ Misread serializer error

section Run

variable {δ σ : Type} {ctx : Context} {service : Service σ} {now : DateTime} {s : σ}

/-- With the latch clear an ordinary error goes straight to the outcome match. -/
theorem conclude_ordinary {error : Error} (ordinary : Ordinary ctx.workflowId error) (rounds : Nat) :
    (conclude ctx rounds (.returned (.error error)) : Act δ Value).eval (service.answer now) s =
      (recordOutcome ctx rounds (.error error) : Act δ Value).eval (service.answer now) s := by
  cases error with
  | recoveryRequired cause => exact absurd ordinary id
  | observationFailed cause => exact absurd ordinary id
  | _ => rfl

/-- Waiting for a terminal row of one's own does not end. -/
theorem adopt_stuck (owned : Owned service now ctx.workflowId s) (rounds : Nat) :
    (adoptRecordedOutcome ctx rounds : Act δ Value).eval (service.answer now) s = none := by
  obtain ⟨status, reads, pending⟩ := owned.reads
  induction rounds with
  | zero => rfl
  | succ rounds ih =>
    have round : (adoptRecordedOutcome ctx (rounds + 1) : Act δ Value).eval (service.answer now) s =
        (adoptRecordedOutcome ctx rounds : Act δ Value).eval (service.answer now) s := by
      have answered : service.answer (δ := δ) now (.call (.getWorkflowStatus ctx.workflowId)) s =
          some (.ok (some status), s) := congrArg some reads
      change (Client.ask (.call (.getWorkflowStatus ctx.workflowId)) _ :
        Client Ask (Ask.Reply δ) (Except Error Value)).eval (service.answer now) s = _
      rw [Client.eval_ask answered]
      cases status
      cases pending
      rfl
    rw [round, ih]

/-- Waiting for the recorded outcome writes no status, whatever it is answered. -/
theorem adopt_reads (rounds : Nat) :
    Client.Keeps (fun q => statusWrite q = []) (fun _ => True)
      (adoptRecordedOutcome ctx rounds : Act δ Value) := by
  induction rounds with
  | zero => trivial
  | succ rounds ih =>
    refine ⟨rfl, fun reply => ?_⟩
    cases reply with
    | error e => trivial
    | ok found =>
      cases found with
      | none => trivial
      | some status =>
        cases status with
        | mk id name status =>
          cases status with
          | success | cancelled | maxRecoveryAttemptsExceeded => trivial
          | error =>
            show Client.Keeps _ _ ((Context.observed (tryFromParts ctx.lib _ _) : Act δ Error) >>=
              fun error => (.throw error : Act δ Value) : Act δ Value)
            generalize tryFromParts ctx.lib _ _ = outcome
            cases outcome <;> trivial
          | pending | enqueued | delayed | other => exact ⟨rfl, fun _ => ih⟩

/-- What the run ends with when the outcome is written. -/
theorem record_lands (owned : Owned service now ctx.workflowId s) {error : Error} {text : String}
    (ordinary : Ordinary ctx.workflowId error) (other : ∀ id, error ≠ .workflowConflict id)
    (encoded : encodeError ctx.lib ctx.serializer error = .ok text) (rounds : Nat) :
    (recordOutcome ctx rounds (.error error) : Act δ Value).eval (service.answer now) s =
      some (.error (restoreError ctx.lib (some ctx.serializer.name) text),
        (service.set now ctx.workflowId .error none (some text) s).2) := by
  have foreign : error.isCancellationFor ctx.workflowId = false := by
    cases error <;> first | rfl | exact ordinary
  have written : (recordOutcome ctx rounds (.error error) : Act δ Value) =
      finalize ctx rounds .error none (some text)
        (.error (restoreError ctx.lib (some ctx.serializer.name) text)) := by
    cases error <;> first | exact absurd rfl (other _) | (simp only [recordOutcome, foreign, encoded]; rfl)
  have answered : service.answer (δ := δ) now (.call (.setWorkflowStatus ctx.workflowId .error none (some text))) s =
      some (.ok true, (service.set now ctx.workflowId .error none (some text) s).2) :=
    congrArg some (Prod.ext (owned.lands text) rfl)
  rw [written]
  change (Client.ask (.call (.setWorkflowStatus ctx.workflowId .error none (some text))) _ :
    Client Ask (Ask.Reply δ) (Except Error Value)).eval (service.answer now) s = _
  rw [Client.eval_ask answered]
  rfl

/-- An error that cannot be encoded is an interruption, and nothing is written. -/
theorem record_refused {error refusal : Error} (ordinary : Ordinary ctx.workflowId error)
    (other : ∀ id, error ≠ .workflowConflict id)
    (refused : encodeError ctx.lib ctx.serializer error = .error refusal) (rounds : Nat) :
    (recordOutcome ctx rounds (.error error) : Act δ Value).eval (service.answer now) s =
      some (.error (recoveryError refusal), s) := by
  have foreign : error.isCancellationFor ctx.workflowId = false := by
    cases error <;> first | rfl | exact ordinary
  cases error <;> first | exact absurd rfl (other _) | (simp only [recordOutcome, foreign, refused]; rfl)

end Run

/-- The status of the row and the failure a result reader makes of its error. -/
def memoryRecord (lib : SerdeJson) (id : String) (s : Memory.Inner) : Option (Status × Except Error Error) :=
  (s.workflows.get id).map fun row =>
    (row.status, tryFromParts lib (row.error.getD "workflow failed") row.errorInfo)

/-- The same on SQLite, where the text is read in the format of the provider that wrote it. -/
def sqliteRecord (lib : SerdeJson) (serializer : Serializer) (id : String) (db : Sqlite.Db) :
    Option (Status × Except Error Error) :=
  (db.workflowStatus.get id).map fun row =>
    (row.status, readError lib (some serializer.name) (row.error.getD "workflow failed"))

/-- The record as `row_to_status` hands it on, in the format of the row's own column. -/
def columnRecord (lib : SerdeJson) (id : String) (db : Sqlite.Db) : Option (Status × Except Error Error) :=
  (db.workflowStatus.get id).map fun row =>
    (row.status, readError lib row.serialization (row.error.getD "workflow failed"))

/-- The row is in ERROR, its record restores to the error, and the run returned what it restores to. -/
def Finalised {σ : Type} (record : σ → Option (Status × Except Error Error)) (error : Error)
    (ended : Except Error Value × σ) : Prop :=
  ∃ restored, record ended.2 = some (.error, .ok restored) ∧ Faithful error restored ∧ ended.1 = .error restored

section Result

variable {δ : Type} {ctx : Context} (lawful : ctx.lib.Lawful) (named : ctx.serializer.Named)

include lawful named

/-- The run of a failed body finalises the workflow exactly when the failure is finalisable. -/
theorem finalised_iff {σ : Type} {service : Service σ} {now : DateTime} {s : σ}
    {record : σ → Option (Status × Except Error Error)} (owned : Owned service now ctx.workflowId s)
    (running : ∀ reading, record s ≠ some (.error, reading))
    (written : ∀ text, record (service.set now ctx.workflowId .error none (some text) s).2 =
      some (.error, readError ctx.lib (some ctx.serializer.name) text))
    {error : Error} (fits : ErrorWire.Fits error) (ordinary : Ordinary ctx.workflowId error) (rounds : Nat) :
    (∃ ended, (conclude ctx rounds (.returned (.error error)) : Act δ Value).eval (service.answer now) s = some ended ∧
      Finalised record error ended) ↔ Finalisable ctx.serializer error := by
  rw [conclude_ordinary ordinary]
  by_cases conflict : ∃ id, error = .workflowConflict id
  · obtain ⟨id, rfl⟩ := conflict
    have stuck : (recordOutcome ctx rounds (.error (.workflowConflict id)) : Act δ Value).eval
        (service.answer now) s = none := adopt_stuck owned rounds
    rw [stuck]
    exact iff_of_false (by simp) fun finalisable => finalisable.1 id rfl
  · have other : ∀ id, error ≠ .workflowConflict id := fun id same => conflict ⟨id, same⟩
    by_cases interrupted : error.Interruption
    · obtain ⟨refusal, refused⟩ := encodeError_interruption ctx.lib ctx.serializer interrupted
      rw [record_refused ordinary other refused]
      refine iff_of_false ?_ fun finalisable => ?_
      · rintro ⟨ended, same, restored, recorded, -⟩
        cases same
        exact running _ recorded
      · cases error <;> first | exact absurd interrupted finalisable.2.1 | exact ordinary
    · obtain ⟨text, encoded, reads⟩ := read_encode lawful named error fits interrupted
      rw [record_lands owned ordinary other encoded]
      have faithful := restored_faithful_iff ctx.serializer error
      constructor
      · rintro ⟨ended, same, again, recorded, sound, -⟩
        cases same
        rw [written, reads] at recorded
        cases recorded
        exact ⟨other, business_code interrupted, faithful.mp sound⟩
      · intro finalisable
        refine ⟨_, rfl, restored ctx.serializer error, ?_, faithful.mpr finalisable.2.2, ?_⟩
        · rw [written, reads]
        · rw [restoreError_of_read reads]

omit lawful named in
theorem memory_owned {s : Memory.Inner} {row : WorkflowStatus} (now : DateTime)
    (stored : s.workflows.get ctx.workflowId = some row) (pending : row.status = .pending) :
    Owned (memory ctx.lib) now ctx.workflowId s where
  reads := ⟨row, by simp [memory, Memory.getWorkflowStatus, stored], pending⟩
  lands := by
    intro text
    simp [memory, Memory.setWorkflowStatus, stored, pending, Memory.statusAllowed]

omit lawful named in
theorem sqlite_owned {db : Sqlite.Db} {row : Sqlite.WorkflowRecord} (now : DateTime)
    (stored : db.workflowStatus.get ctx.workflowId = some row) (pending : row.status = .pending) :
    Owned (sqlite ctx.lib ctx.serializer) now ctx.workflowId db where
  reads := ⟨_, by simp [sqlite, Sqlite.getWorkflowStatus, stored]; rfl, pending⟩
  lands := by
    intro text
    simp [sqlite, Sqlite.setWorkflowStatus, Sqlite.encodeOpt, stored, pending, Memory.statusAllowed]

/-- The same on SQLite for a result reader that goes by the row's column, where the row was stored in the format of
this provider. -/
theorem column_record_finalises {error : Error} (fits : ErrorWire.Fits error)
    (ordinary : Ordinary ctx.workflowId error) (now : DateTime) (rounds : Nat) {db : Sqlite.Db}
    {row : Sqlite.WorkflowRecord} (stored : db.workflowStatus.get ctx.workflowId = some row)
    (pending : row.status = .pending) (format : row.serialization = some ctx.serializer.name) :
    (∃ ended, (conclude ctx rounds (.returned (.error error)) : Act δ Value).eval
        ((sqlite ctx.lib ctx.serializer).answer now) db = some ended ∧
        Finalised (columnRecord ctx.lib ctx.workflowId) error ended) ↔ Finalisable ctx.serializer error := by
  refine finalised_iff lawful named (sqlite_owned now stored pending) ?_ ?_ fits ordinary rounds
  · intro reading same
    simp [columnRecord, stored, pending] at same
  · intro text
    simp [sqlite, columnRecord, Sqlite.setWorkflowStatus, Sqlite.encodeOpt, stored, pending, format,
      Memory.statusAllowed, Sqlite.finishRecord]

omit lawful named

noncomputable def parentContext : Context :=
  { Context.plain with lib := timeoutLibrary, workflowId := "parent", serializer := .json }

def parentRow : WorkflowStatus := .new 0 "parent" "w" .null .pending "local" "v1"

def parentStore : Memory.Inner := Memory.Inner.new.putRow "parent" parentRow

end Result

end Durare.Finalize

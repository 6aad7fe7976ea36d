import Durare.Effects
import Durare.Sqlite

/-! Rival executions that record a step at the same position converge on one row, and the
SQL backend gives the answers of the in-memory one on corresponding states. -/
namespace Durare.Checkpoints

open Memory

variable (lib : SerdeJson)

/-- One checkpoint write: what it offers besides the position. -/
structure Attempt where
  now : DateTime
  name : String
  value : Value
  error : Option String
  startedAtMs : Option Int
  executor : Option String
deriving DecidableEq, Repr

namespace Attempt

variable (attempt : Attempt) (id : String) (seq : Int)

def call : Call :=
  .recordStepResult id seq attempt.name attempt.value attempt.error attempt.startedAtMs attempt.executor

def record (s : Inner) : Answer StepOutcome :=
  recordStepResult lib attempt.now id seq attempt.name attempt.value attempt.error attempt.startedAtMs
    attempt.executor s

def recordSql (serializer : Serializer) (db : Sqlite.Db) : Sqlite.Answer StepOutcome :=
  Sqlite.recordStepResult lib serializer attempt.now id seq attempt.name attempt.value attempt.error
    attempt.startedAtMs attempt.executor db

/-- The row the attempt writes where there is none. -/
def row : StepRow := checkpointRow attempt.now attempt.name attempt.value attempt.error attempt.startedAtMs

end Attempt

/-- What an attempt may answer: a stored outcome, or an error that changes nothing. -/
structure Settled (attempt : Attempt) (id : String) (seq : Int) (s : Inner) : Prop where
  stored : ∀ outcome, (attempt.record lib id seq s).1 = .ok outcome →
    ∃ row, (attempt.record lib id seq s).2.steps.get (id, seq) = some row ∧ outcome = stepRowOutcome lib row
  adopts : ∀ row, s.steps.get (id, seq) = some row →
    ((attempt.record lib id seq s).1.isOk = true ↔ row.name = attempt.name ∧ sameWrite row attempt.row = true)
  diverges : ∀ row, s.steps.get (id, seq) = some row → row.name ≠ attempt.name →
    (attempt.record lib id seq s).1 = .error (.unexpectedStep id seq attempt.name row.name)
  conflicts : ∀ row, s.steps.get (id, seq) = some row → row.name = attempt.name →
    sameWrite row attempt.row = false → (attempt.record lib id seq s).1 = .error (.workflowConflict id)
  unchanged : (attempt.record lib id seq s).1.isOk = false → (attempt.record lib id seq s).2 = s

/-- Everything an attempt can do: take a vacant position, or meet a row. -/
theorem record_cases (attempt : Attempt) (id : String) (seq : Int) (s : Inner) :
    (s.steps.get (id, seq) = none ∧ attempt.record lib id seq s = (.ok (stepRowOutcome lib attempt.row),
      refreshExecutor id attempt.executor (s.putStep id seq attempt.row))) ∨
    ∃ row, s.steps.get (id, seq) = some row ∧
      ((row.name ≠ attempt.name ∧
          attempt.record lib id seq s = (.error (.unexpectedStep id seq attempt.name row.name), s)) ∨
        (row.name = attempt.name ∧ sameWrite row attempt.row = true ∧
          attempt.record lib id seq s = (.ok (stepRowOutcome lib row), s)) ∨
        (row.name = attempt.name ∧ sameWrite row attempt.row = false ∧
          attempt.record lib id seq s = (.error (.workflowConflict id), s))) := by
  cases present : s.steps.get (id, seq) with
  | none => exact .inl ⟨rfl, by simp [Attempt.record, recordStepResult, present, Attempt.row]⟩
  | some row =>
    refine .inr ⟨row, rfl, ?_⟩
    simp only [Attempt.record, recordStepResult, present, Attempt.row]
    by_cases named : row.name = attempt.name
    · cases same : sameWrite row
        (checkpointRow attempt.now attempt.name attempt.value attempt.error attempt.startedAtMs) with
      | true => exact .inr (.inl ⟨named, rfl, by simp [named]⟩)
      | false => exact .inr (.inr ⟨named, rfl, by simp [named]⟩)
    · exact .inl ⟨named, by simp [named]⟩

theorem record_settled (attempt : Attempt) (id : String) (seq : Int) (s : Inner) :
    Settled lib attempt id seq s := by
  obtain ⟨vacant, answer⟩ | ⟨row, present, cases⟩ := record_cases lib attempt id seq s
  · refine ⟨?_, ?_, ?_, ?_, ?_⟩
    · intro outcome given
      rw [answer] at given ⊢
      cases given
      exact ⟨attempt.row, by simp, rfl⟩
    all_goals simp [vacant, answer, Except.isOk, Except.toBool]
  · obtain ⟨other, answer⟩ | ⟨named, same, answer⟩ | ⟨named, differs, answer⟩ := cases
    · refine ⟨?_, ?_, ?_, ?_, ?_⟩
      all_goals simp_all [Except.isOk, Except.toBool]
    · refine ⟨?_, ?_, ?_, ?_, ?_⟩
      all_goals simp_all [Except.isOk, Except.toBool]
    · refine ⟨?_, ?_, ?_, ?_, ?_⟩
      all_goals simp_all [Except.isOk, Except.toBool]

section Sql

variable (serializer : Serializer)

/-- The text the serializer stores for a value, and reads back as it. -/
def Stored (value : Value) (text : String) : Prop :=
  serializer.encode lib value = .ok text ∧ decode lib serializer (some serializer.name) text = .ok value

/-- A stored record and the in-memory row it corresponds to. -/
structure SameStep (record : Sqlite.StepRecord) (row : StepRow) : Prop where
  name : record.functionName = row.name
  output : Option.Rel (fun text value => Stored lib serializer value text) record.output row.output
  error : record.error = row.error
  child : record.childWorkflowId = row.childWorkflowId
  started : record.startedAtMs = row.startedAtMs
  completed : record.completedAtMs = row.completedAtMs
  format : record.output.isSome ∨ record.error.isSome → record.serialization = some serializer.name

/-- Corresponding states: the same steps, and the same workflows under the same executors. -/
structure Corresponds (db : Sqlite.Db) (s : Inner) : Prop where
  steps : ∀ key, Option.Rel (SameStep lib serializer) (db.operationOutputs.get key) (s.steps.get key)
  rows : ∀ id, (db.workflowStatus.get id).map (·.executorId.getD "") = (s.workflows.get id).map (·.executorId)

/-- An attempt both backends can take: its workflow exists, its value has a text, a failure
is not stored in the portable format, and a value that is merely equal to the recorded one
as JSON is that value. -/
structure Comparable (attempt : Attempt) (id : String) (seq : Int) (s : Inner) : Prop where
  owner : (s.workflows.get id).isSome = true
  text : attempt.error = none → ∃ text, Stored lib serializer attempt.value text
  format : attempt.error.isSome = true → serializer.name ≠ PORTABLE
  equal : attempt.error = none → ∀ row value, s.steps.get (id, seq) = some row → row.output = some value →
    value.partialEq attempt.value = true → value = attempt.value

theorem decodeError_format (format : Option String) (other : format ≠ some PORTABLE) (text : String) :
    decodeError lib format text = decodeError lib none text := by
  simp [decodeError, other]

/-- The texts of two stored values are equal exactly when the values are. -/
theorem stored_inj {serializer : Serializer} {a b : Value} {text text' : String}
    (first : Stored lib serializer a text) (second : Stored lib serializer b text') : text = text' ↔ a = b := by
  constructor
  · rintro rfl
    exact Except.ok.inj (first.2.symm.trans second.2)
  · rintro rfl
    exact Except.ok.inj (first.1.symm.trans second.1)

theorem sameStep_outcome {serializer : Serializer} {record : Sqlite.StepRecord} {row : StepRow}
    (same : SameStep lib serializer record row) (filled : row.output.isSome ∨ row.error.isSome)
    (portable : row.error.isSome = true → serializer.name ≠ PORTABLE) :
    Sqlite.outcomeOrNull lib serializer record.serialization record.output record.error =
      .ok (stepRowOutcome lib row) := by
  obtain ⟨-, output, error, -, -, -, format⟩ := same
  unfold Sqlite.outcomeOrNull Sqlite.stepOutcomeFrom stepRowOutcome
  cases failed : row.error with
  | some text =>
    rw [failed] at error
    have tag := format (.inr (by rw [error]; rfl))
    rw [error, tag]
    have plain := decodeError_format lib (some serializer.name)
      (fun h => portable (by rw [failed]; rfl) (Option.some_inj.mp h)) text
    simp [plain, Except.map]
  | none =>
    rw [failed] at error
    rw [error]
    cases written : row.output with
    | none => simp [failed, written] at filled
    | some value =>
      rw [written] at output
      cases stored : record.output with
      | none => rw [stored] at output; cases output
      | some text =>
        rw [stored] at output
        cases output with
        | some both =>
          rw [format (.inl (by rw [stored]; rfl))]
          simp [both.2, Except.map]

theorem corresponds_refresh {serializer : Serializer} {db : Sqlite.Db} {s : Inner}
    (same : Corresponds lib serializer db s) (id : String) (executor : Option String) :
    Corresponds lib serializer (Sqlite.refreshExecutor id executor db) (refreshExecutor id executor s) := by
  cases executor with
  | none => exact same
  | some executor =>
    refine ⟨same.steps, ?_⟩
    intro target
    have here := same.rows target
    simp only [Sqlite.refreshExecutor, refreshExecutor, Table.get_modify]
    split
    next equal =>
      subst equal
      cases stored : s.workflows.get target with
      | none =>
        rw [stored] at here
        cases found : db.workflowStatus.get target with
        | none => simp
        | some row => rw [found] at here; cases here
      | some row =>
        rw [stored] at here
        cases found : db.workflowStatus.get target with
        | none => rw [found] at here; cases here
        | some record => simp
    next => exact here

theorem corresponds_put {serializer : Serializer} {db : Sqlite.Db} {s : Inner}
    (same : Corresponds lib serializer db s) (id : String) (seq : Int) {record : Sqlite.StepRecord}
    {row : StepRow} (written : SameStep lib serializer record row) :
    Corresponds lib serializer { db with operationOutputs := db.operationOutputs.put (id, seq) record }
      (s.putStep id seq row) := by
  refine ⟨?_, same.rows⟩
  intro key
  simp only [putStep_steps, Table.get_put]
  split
  · exact .some written
  · exact same.steps key

/-- The record the SQL backend writes for an attempt. -/
def Attempt.sqlRecord (attempt : Attempt) (column : Option String) : Sqlite.StepRecord where
  functionName := attempt.name
  output := column
  error := attempt.error
  serialization := some serializer.name
  startedAtMs := attempt.startedAtMs
  completedAtMs := some attempt.now.timestampMillis

theorem attempt_column {serializer : Serializer} {attempt : Attempt} {id : String} {seq : Int} {s : Inner}
    (comparable : Comparable lib serializer attempt id seq s) :
    ∃ column, Sqlite.outputColumn lib serializer attempt.value attempt.error = .ok column ∧
      Option.Rel (fun text value => Stored lib serializer value text) column attempt.row.output := by
  cases failed : attempt.error with
  | some text => exact ⟨none, rfl, by simp [Attempt.row, checkpointRow, failed]⟩
  | none =>
    obtain ⟨text, stored⟩ := comparable.text failed
    refine ⟨some text, by simp [Sqlite.outputColumn, stored.1, Except.map], ?_⟩
    simp only [Attempt.row, checkpointRow, failed, Option.isSome_none]
    exact .some stored

/-- The two comparisons of a repeated write agree on comparable values. -/
theorem sameWrite_iff {serializer : Serializer} {attempt : Attempt} {id : String} {seq : Int} {s : Inner}
    (comparable : Comparable lib serializer attempt id seq s) {record : Sqlite.StepRecord} {row : StepRow}
    (present : s.steps.get (id, seq) = some row) (same : SameStep lib serializer record row)
    {column : Option String}
    (written : Option.Rel (fun text value => Stored lib serializer value text) column attempt.row.output) :
    (record.output = column ∧ record.error = attempt.error ∧ record.startedAtMs = attempt.startedAtMs) ↔
      sameWrite row attempt.row = true := by
  have outputs : record.output = column ↔ Value.optPartialEq row.output attempt.row.output = true := by
    have stored := same.output
    cases offered : attempt.row.output with
    | none =>
      rw [offered] at written
      cases written
      cases kept : row.output with
      | none => rw [kept] at stored; cases h : record.output <;> simp_all [Value.optPartialEq]
      | some value =>
        rw [kept] at stored
        cases h : record.output with
        | none => rw [h] at stored; cases stored
        | some text => simp [Value.optPartialEq]
    | some value =>
      have succeeded : attempt.error = none := by
        cases failed : attempt.error with
        | none => rfl
        | some text => simp [Attempt.row, checkpointRow, failed] at offered
      obtain rfl : attempt.value = value := by simpa [Attempt.row, checkpointRow, succeeded] using offered
      rw [offered] at written
      cases written with
      | some fresh =>
        cases kept : row.output with
        | none =>
          rw [kept] at stored
          cases h : record.output with
          | none => simp [Value.optPartialEq]
          | some text => rw [h] at stored; cases stored
        | some old =>
          rw [kept] at stored
          cases h : record.output with
          | none => rw [h] at stored; cases stored
          | some text =>
            rw [h] at stored
            cases stored with
            | some before =>
              rw [Option.some_inj, stored_inj lib before fresh, Value.optPartialEq]
              constructor
              · rintro rfl; exact Value.partialEq_refl _
              · exact comparable.equal succeeded row old present kept
  rw [outputs, same.error, same.started]
  simp [sameWrite, Attempt.row, checkpointRow, and_assoc]

/-- On corresponding states a comparable attempt gets the same answer from both backends,
and leaves corresponding states. -/
theorem record_sqlite {serializer : Serializer} {attempt : Attempt} {id : String} {seq : Int} {s : Inner}
    {db : Sqlite.Db} (same : Corresponds lib serializer db s)
    (comparable : Comparable lib serializer attempt id seq s) :
    (attempt.recordSql lib id seq serializer db).1 = (attempt.record lib id seq s).1 ∧
      Corresponds lib serializer (attempt.recordSql lib id seq serializer db).2
        (attempt.record lib id seq s).2 := by
  obtain ⟨column, encoded, written⟩ := attempt_column lib comparable
  have here := same.steps (id, seq)
  obtain ⟨vacant, answer⟩ | ⟨row, present, cases⟩ := record_cases lib attempt id seq s
  · have free : db.operationOutputs.get (id, seq) = none := by
      rw [vacant] at here
      cases stored : db.operationOutputs.get (id, seq) with
      | none => rfl
      | some record => rw [stored] at here; cases here
    have owner : (db.workflowStatus.get id).isNone = false := by
      have rows := congrArg Option.isSome (same.rows id)
      simp only [Option.isSome_map, comparable.owner] at rows
      simp [← Option.not_isSome, rows]
    have new : SameStep lib serializer (attempt.sqlRecord serializer column) attempt.row :=
      ⟨rfl, written, rfl, rfl, rfl, rfl, fun _ => rfl⟩
    have outcome := sameStep_outcome lib new
      (by cases failed : attempt.error <;> simp [Attempt.row, checkpointRow, failed]) comparable.format
    have sql : attempt.recordSql lib id seq serializer db = (.ok (stepRowOutcome lib attempt.row),
        Sqlite.refreshExecutor id attempt.executor
          { db with operationOutputs := db.operationOutputs.put (id, seq) (attempt.sqlRecord serializer column) }) := by
      simp only [Attempt.recordSql, Sqlite.recordStepResult, encoded, free, owner]
      exact Prod.ext outcome rfl
    rw [sql, answer]
    exact ⟨rfl, corresponds_refresh lib (corresponds_put lib same id seq new) id attempt.executor⟩
  · rw [present] at here
    cases stored : db.operationOutputs.get (id, seq) with
    | none => rw [stored] at here; cases here
    | some record =>
      rw [stored] at here
      cases here with
      | some step =>
        have decides := sameWrite_iff lib comparable present step written
        have sql : attempt.recordSql lib id seq serializer db =
            (if record.functionName ≠ attempt.name then
                .error (.unexpectedStep id seq attempt.name record.functionName)
              else if record.output = column ∧ record.error = attempt.error ∧
                record.startedAtMs = attempt.startedAtMs then
                Sqlite.outcomeOrNull lib serializer record.serialization record.output record.error
              else .error (.workflowConflict id), db) := by
          simp only [Attempt.recordSql, Sqlite.recordStepResult, encoded, stored]
          split_ifs <;> rfl
        rw [sql, step.name]
        obtain ⟨other, answer⟩ | ⟨named, equal, answer⟩ | ⟨named, differs, answer⟩ := cases
        · rw [answer, if_pos other]
          exact ⟨rfl, same⟩
        · have filled : row.output.isSome ∨ row.error.isSome := by
            cases failed : attempt.error <;>
              simp_all [sameWrite, Attempt.row, checkpointRow, Value.optPartialEq]
            cases kept : row.output <;> simp_all
          have portable : row.error.isSome = true → serializer.name ≠ PORTABLE := by
            intro failed
            apply comparable.format
            have errors : row.error = attempt.error := by
              simp only [sameWrite, Bool.and_eq_true, beq_iff_eq] at equal
              exact equal.1.2
            rw [← errors]
            exact failed
          rw [answer, if_neg (not_not.mpr named), if_pos (decides.mpr equal),
            sameStep_outcome lib step filled portable]
          exact ⟨rfl, same⟩
        · have fails : ¬ (record.output = column ∧ record.error = attempt.error ∧
              record.startedAtMs = attempt.startedAtMs) := by
            rw [decides, differs]
            exact Bool.false_ne_true
          rw [answer, if_neg (not_not.mpr named), if_neg fails]
          exact ⟨rfl, same⟩

end Sql

/-- Convergence at one position over a run: the first row stays, every attempt is settled,
each accepted one reports the row the run ends with, and the SQL backend agrees. -/
structure Converges (id : String) (seq : Int) (s : Inner) (events : List (DateTime × Call)) : Prop where
  once : ∀ before middle after, events = before ++ middle ++ after →
    ∀ row, (run lib before s).steps.get (id, seq) = some row →
      (run lib (before ++ middle) s).steps.get (id, seq) = some row
  settled : ∀ before (attempt : Attempt) after, events = before ++ (attempt.now, attempt.call id seq) :: after →
    Settled lib attempt id seq (run lib before s)
  accepted : ∀ before (attempt : Attempt) after outcome,
    events = before ++ (attempt.now, attempt.call id seq) :: after →
    (attempt.record lib id seq (run lib before s)).1 = .ok outcome →
    ∃ row, (run lib events s).steps.get (id, seq) = some row ∧ outcome = stepRowOutcome lib row
  agrees : ∀ before (attempt : Attempt) after serializer db,
    events = before ++ (attempt.now, attempt.call id seq) :: after →
    Corresponds lib serializer db (run lib before s) →
    Comparable lib serializer attempt id seq (run lib before s) →
    (attempt.recordSql lib id seq serializer db).1 = (attempt.record lib id seq (run lib before s)).1 ∧
      Corresponds lib serializer (attempt.recordSql lib id seq serializer db).2
        (attempt.record lib id seq (run lib before s)).2

/-- The run does not delete, fork onto or import the workflow. -/
abbrev Spared (id : String) (events : List (DateTime × Call)) (s : Inner) : Prop :=
  Runs.Along (step lib) (fun s event => id ∉ event.2.histories s) events s

theorem row_stays {id : String} {seq : Int} {events : List (DateTime × Call)} {s : Inner}
    (spared : Spared lib id events s) {row : StepRow} (stored : s.steps.get (id, seq) = some row) :
    (run lib events s).steps.get (id, seq) = some row := by
  refine Runs.invariant (I := fun s => s.steps.get (id, seq) = some row) ?_ spared stored
  intro s event kept stored
  obtain same | ⟨vacant, -⟩ := step_steps lib event.1 event.2 s (id, seq) kept
  · exact same.trans stored
  · rw [vacant] at stored; cases stored

/-- Rival attempts at one position, in any interleaving with other calls that leave the
workflow's history in place, converge on one row. -/
theorem checkpoint_convergence (id : String) (seq : Int) (s : Inner) (events : List (DateTime × Call))
    (spared : Spared lib id events s) : Converges lib id seq s events := by
  refine ⟨?_, ?_, ?_, ?_⟩
  · rintro before middle after rfl row stored
    rw [Spared, List.append_assoc, Runs.along_append, Runs.along_append] at spared
    rw [run, Runs.run_append]
    exact row_stays lib spared.2.1 stored
  · intro before attempt after _
    exact record_settled lib attempt id seq _
  · rintro before attempt after outcome rfl answer
    obtain ⟨row, stored, same⟩ := (record_settled lib attempt id seq _).stored outcome answer
    rw [Spared, Runs.along_append, Runs.along_cons] at spared
    refine ⟨row, ?_, same⟩
    rw [run, Runs.run_append, Runs.run_cons]
    exact row_stays lib spared.2.2 stored
  · intro before attempt after serializer db _ same comparable
    exact record_sqlite lib same comparable

def keysInOrder : Value := .object [("a", .null), ("b", .bool true)]
def keysReversed : Value := .object [("b", .bool true), ("a", .null)]

def charge (now : DateTime) (value : Value) : Attempt := ⟨now, "charge", value, none, some 1, some "e1"⟩

/-- Two rivals that record the same outcome at one position, a divergent one and a third
with another start, between other calls. -/
theorem checkpoint_convergence_rivals :
    Converges (.reading [keysInOrder]) "w" 0 Inner.new
      [(0, .insertWorkflowStatus (.new 0 "w" "job" .null .pending "e1" "v1")),
        (1, (charge 1 keysInOrder).call "w" 0), (2, .recordPatch "w" 1 "DBOS.patch-p"),
        (3, (charge 3 keysInOrder).call "w" 0), (4, (⟨4, "refund", .null, none, some 1, none⟩ : Attempt).call "w" 0)] :=
  checkpoint_convergence _ _ _ _ _ (by decide)

def started : Inner := (insertWorkflowStatus (.new 0 "w" "job" .null .pending "e1" "v1") Inner.new).2

def startedRecord : Sqlite.WorkflowRecord where
  status := .pending
  name := "job"
  inputs := none
  serialization := none
  executorId := some "e1"
  applicationVersion := some "v1"
  createdAt := 0
  updatedAt := 0

def startedDb : Sqlite.Db := { Sqlite.Db.new with workflowStatus := Table.empty.put "w" startedRecord }

theorem started_corresponds (serializer : Serializer) : Corresponds lib serializer startedDb started := by
  refine ⟨fun _ => .none, ?_⟩
  intro id
  have stored : started.workflows = Table.empty.put "w" (.new 0 "w" "job" .null .pending "e1" "v1") := rfl
  rw [stored, startedDb, Table.get_put, Table.get_put]
  split <;> rfl

/-- An output with the keys in another order is stored under another text; the in-memory
backend still adopts it, where the SQL backend reports a conflict. -/
theorem reordered_keys_adopted_in_memory_only :
    ∃ s db, Reachable (.reading [keysInOrder]) s ∧ Corresponds (.reading [keysInOrder]) .json db s ∧
      Serializer.json.encode (.reading [keysInOrder]) keysInOrder ≠
        Serializer.json.encode (.reading [keysInOrder]) keysReversed ∧
      (s.steps.get ("w", 0)).bind (·.output) = some keysInOrder ∧
      ((charge 2 keysReversed).record (.reading [keysInOrder]) "w" 0 s).1.isOk = true ∧
      ((charge 2 keysReversed).recordSql (.reading [keysInOrder]) "w" 0 .json db).1 =
        .error (.workflowConflict "w") := by
  have comparable : Comparable (.reading [keysInOrder]) .json (charge 1 keysInOrder) "w" 0 started := by
    refine ⟨rfl, fun _ => ⟨"eyJhIjpudWxsLCJiIjp0cnVlfQ==", by decide, by decide⟩, ?_, ?_⟩
    · intro failed; cases failed
    · intro _ row value stored; cases stored
  have first := record_sqlite (.reading [keysInOrder]) (started_corresponds _ .json) comparable
  refine ⟨_, _, ?_, first.2, ?_, ?_, ?_, ?_⟩
  · exact ⟨[(0, .insertWorkflowStatus (.new 0 "w" "job" .null .pending "e1" "v1")),
      (1, (charge 1 keysInOrder).call "w" 0)], rfl⟩
  all_goals decide

end Durare.Checkpoints

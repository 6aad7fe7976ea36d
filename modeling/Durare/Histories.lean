import Durare.Sqlite
import Durare.Verify

/-! The recorded history of a workflow, as the reads of either provider return it while nobody writes. -/
namespace Durare.Verify

open Interaction

/-- What the provider's reads of one workflow return while nobody writes it. A read fails only as a
storage failure, and every row it shows is listed under its name. -/
structure History where
  workflowId : String
  step : Int → Except Error (Option RecordedStep)
  child : Int → Except Error (Option (String × String))
  name : Int → Except Error (Option String)
  recorded : List StepInfo
  transacts : Bool
  step_fails : ∀ seq e, step seq = .error e → e.isStorageFailure = true
  child_fails : ∀ seq e, child seq = .error e → e.isStorageFailure = true
  name_fails : ∀ seq e, name seq = .error e → e.isStorageFailure = true
  step_listed : ∀ seq found, step seq = .ok (some found) → ⟨seq, found.name⟩ ∈ recorded
  child_listed : ∀ seq id recordedName, child seq = .ok (some (id, recordedName)) → ⟨seq, recordedName⟩ ∈ recorded
  name_listed : ∀ seq recordedName, name seq = .ok (some recordedName) → ⟨seq, recordedName⟩ ∈ recorded
  unique : ∀ a ∈ recorded, ∀ b ∈ recorded, a.stepId = b.stepId → a = b

/-- The latch and the cell of a re-run. -/
structure Cell where
  latch : Option Error := none
  seen : Seen := {}

/-- The replay check a transaction starts with: what is recorded at its position, or nothing at all
where it would run its body. A provider without transactions refuses. -/
def History.transact (h : History) (lib : SerdeJson) (seq : Int) (name : String) : Option (Except Error Value) :=
  if h.transacts then
    match h.step seq with
    | .error e => some (.error e)
    | .ok (some step) =>
      if step.name ≠ name then some (.error (.unexpectedStep h.workflowId seq name step.name))
      else some (step.outcome.intoValueResult lib)
    | .ok none => none
  else some (.error (.ofMessage "transactional steps require a SQL backend (Postgres or SQLite)"))

/-- The answers of a history at rest: reads, the clock, a pause, the latch and the cell. Whatever would
write or run a body is not answered. -/
def History.answer {δ : Type} (h : History) (lib : SerdeJson) (now : DateTime) :
    (q : Query) → Cell → Option (q.Reply δ × Cell)
  | .ask (.call (.getStepResult id seq)), cell => if id = h.workflowId then some (h.step seq, cell) else none
  | .ask (.call (.checkChildWorkflow id seq)), cell => if id = h.workflowId then some (h.child seq, cell) else none
  | .ask (.call (.getStepName id seq)), cell => if id = h.workflowId then some (h.name seq, cell) else none
  | .ask .now, cell => some (now, cell)
  | .ask .wait, cell => some ((), cell)
  | .ask .check, cell =>
    some (match cell.latch with
      | none => .ok ()
      | some cause => .error (.recoveryRequired cause), cell)
  | .ask (.interrupt cause), cell =>
    let first := cell.latch.getD cause
    some (.recoveryRequired first, { cell with latch := some first })
  | .book note, cell => some ((), { cell with seen := cell.seen.book note })
  | .beginTransaction, cell => some (.ok (), cell)
  | .transact seq name, cell => (h.transact lib seq name).map fun reply => (reply, cell)
  | _, _ => none

theorem mem_workflowSteps {id : String} {s : Memory.Inner} {row : StepInfo} :
    row ∈ workflowSteps id s ↔ ∃ stored, s.steps.get (id, row.stepId) = some stored ∧ stored.name = row.name := by
  simp only [workflowSteps, List.mem_insertionSort, List.mem_map, List.mem_filter, decide_eq_true_eq]
  constructor
  · intro listed
    obtain ⟨⟨⟨owner, seq⟩, stored⟩, ⟨member, rfl⟩, rfl⟩ := listed
    exact ⟨stored, (Table.mem_toList ..).mp member, rfl⟩
  · intro found
    obtain ⟨stored, here, named⟩ := found
    exact ⟨((id, row.stepId), stored), ⟨(Table.mem_toList ..).mpr here, rfl⟩, by simp [named]⟩

/-- The rows the in-memory provider holds of a workflow. -/
def History.ofMemory (lib : SerdeJson) (id : String) (s : Memory.Inner) : History where
  workflowId := id
  step seq := (Memory.getStepResult lib id seq s).1
  child seq := (Memory.checkChildWorkflow id seq s).1
  name seq := (Memory.getStepName id seq s).1
  recorded := workflowSteps id s
  transacts := false
  step_fails := by
    intro seq e failed
    cases failed
  child_fails := by
    intro seq e failed
    cases failed
  name_fails := by
    intro seq e failed
    cases failed
  step_listed := by
    intro seq found here
    simp only [Memory.getStepResult, Except.ok.injEq, Option.map_eq_some_iff] at here
    obtain ⟨stored, here, rfl⟩ := here
    exact mem_workflowSteps.mpr ⟨stored, here, rfl⟩
  child_listed := by
    intro seq child recordedName here
    simp only [Memory.checkChildWorkflow, Except.ok.injEq, Option.bind_eq_some_iff, Option.map_eq_some_iff] at here
    obtain ⟨stored, here, _, _, same⟩ := here
    cases same
    exact mem_workflowSteps.mpr ⟨stored, here, rfl⟩
  name_listed := by
    intro seq recordedName here
    simp only [Memory.getStepName, Except.ok.injEq, Option.map_eq_some_iff] at here
    obtain ⟨stored, here, rfl⟩ := here
    exact mem_workflowSteps.mpr ⟨stored, here, rfl⟩
  unique := by
    intro a listed b listed' same
    obtain ⟨stored, here, named⟩ := mem_workflowSteps.mp listed
    obtain ⟨stored', here', named'⟩ := mem_workflowSteps.mp listed'
    rw [same, here'] at here
    cases here
    cases a
    cases b
    simp_all

/-- The provider answers a query of a history at rest as the history does, and stays as it is. -/
theorem ofMemory_answer {δ : Type} (lib : SerdeJson) (id : String) (s : Memory.Inner) (now : DateTime)
    (ran : List Query)
    {q : Query} {cell cell' : Cell} {reply : q.Reply δ} (own : ∀ seq name, q ≠ .transact seq name)
    (answered : (History.ofMemory lib id s).answer lib now q cell = some (reply, cell')) :
    answer lib { ask := { now := now } } q ⟨s, cell.latch, cell.seen, ran⟩ =
      (reply, ⟨s, cell'.latch, cell'.seen, ran⟩) := by
  cases q with
  | ask q =>
    cases q with
    | call c =>
      cases c
      case getStepResult | checkChildWorkflow | getStepName =>
        simp only [History.answer, Option.ite_none_right_eq_some, Option.some.injEq, Prod.mk.injEq] at answered
        obtain ⟨rfl, rfl, rfl⟩ := answered
        rfl
      all_goals cases answered
    | now | wait | check | interrupt =>
      cases answered
      rfl
    | fresh | random | body | race => cases answered
  | book | beginTransaction =>
    cases answered
    rfl
  | transact seq name => exact absurd rfl (own seq name)
  | history => cases answered

/-- `row_to_step` of the SQLite provider decodes the output it lists. -/
def rowToStep (lib : SerdeJson) (serializer : Serializer) (seq : Int) (row : Sqlite.StepRecord) :
    Except Error StepInfo :=
  match row.output with
  | none => .ok ⟨seq, row.functionName⟩
  | some text => (decode lib serializer row.serialization text).map fun _ => ⟨seq, row.functionName⟩

/-- `get_workflow_steps` of the SQLite provider. -/
def sqliteSteps (lib : SerdeJson) (serializer : Serializer) (id : String) (db : Sqlite.Db) :
    Except Error (List StepInfo) :=
  ((db.operationOutputs.toList.filter fun entry => entry.1.1 = id).mapM fun entry =>
    rowToStep lib serializer entry.1.2 entry.2).map fun rows => rows.insertionSort fun a b => a.stepId ≤ b.stepId

theorem rowToStep_ok {lib : SerdeJson} {serializer : Serializer} {seq : Int} {stored : Sqlite.StepRecord}
    {row : StepInfo}
    (listed : rowToStep lib serializer seq stored = .ok row) :
    row = ⟨seq, stored.functionName⟩ ∧
      ∀ text, stored.output = some text → ∃ value, decode lib serializer stored.serialization text = .ok value := by
  unfold rowToStep at listed
  split at listed
  next absent =>
    cases listed
    refine ⟨rfl, ?_⟩
    intro text present
    rw [absent] at present
    cases present
  next text present =>
    cases read : decode lib serializer stored.serialization text with
    | error e =>
      rw [read] at listed
      cases listed
    | ok value =>
      rw [read] at listed
      cases listed
      refine ⟨rfl, ?_⟩
      intro text' present'
      rw [present] at present'
      cases present'
      exact ⟨value, read⟩

theorem mapM_member {α β ε : Type} {f : α → Except ε β} {xs : List α} {ys : List β} (listed : xs.mapM f = .ok ys) :
    (∀ y ∈ ys, ∃ x ∈ xs, f x = .ok y) ∧ ∀ x ∈ xs, ∃ y ∈ ys, f x = .ok y := by
  induction xs generalizing ys with
  | nil =>
    cases listed
    simp
  | cons x xs ih =>
    rw [List.mapM_cons] at listed
    cases first : f x with
    | error e =>
      rw [first] at listed
      cases listed
    | ok y =>
      cases rest : xs.mapM f with
      | error e =>
        simp only [first, rest, bind, Except.bind] at listed
        cases listed
      | ok tail =>
        simp only [first, rest, bind, Except.bind] at listed
        cases listed
        obtain ⟨back, forth⟩ := ih rest
        constructor
        · intro y' member
          rcases List.mem_cons.mp member with rfl | member
          · exact ⟨x, by simp, first⟩
          · obtain ⟨x', within, same⟩ := back y' member
            exact ⟨x', by simp [within], same⟩
        · intro x' member
          rcases List.mem_cons.mp member with rfl | member
          · exact ⟨y, by simp, first⟩
          · obtain ⟨y', within, same⟩ := forth x' member
            exact ⟨y', by simp [within], same⟩

/-- A listing shows every row, and every row of a listing was decoded. -/
theorem mem_sqliteSteps {lib : SerdeJson} {serializer : Serializer} {id : String} {db : Sqlite.Db}
    {recorded : List StepInfo} (listed : sqliteSteps lib serializer id db = .ok recorded) :
    (∀ row, row ∈ recorded ↔ ∃ stored, db.operationOutputs.get (id, row.stepId) = some stored ∧ stored.functionName = row.name) ∧
    ∀ seq stored text, db.operationOutputs.get (id, seq) = some stored → stored.output = some text →
      ∃ value, decode lib serializer stored.serialization text = .ok value := by
  unfold sqliteSteps at listed
  cases read : (db.operationOutputs.toList.filter fun entry => entry.1.1 = id).mapM fun entry =>
      rowToStep lib serializer entry.1.2 entry.2 with
  | error e =>
    rw [read] at listed
    cases listed
  | ok rows =>
    rw [read] at listed
    cases listed
    obtain ⟨back, forth⟩ := mapM_member read
    have held : ∀ seq stored, db.operationOutputs.get (id, seq) = some stored →
        ∃ row ∈ rows, rowToStep lib serializer seq stored = .ok row := by
      intro seq stored here
      apply forth ((id, seq), stored)
      simp [Table.mem_toList, here]
    constructor
    · intro row
      rw [List.mem_insertionSort]
      constructor
      · intro member
        obtain ⟨⟨⟨owner, seq⟩, stored⟩, within, shown⟩ := back row member
        simp only [List.mem_filter, Table.mem_toList, decide_eq_true_eq] at within
        obtain ⟨here, rfl⟩ := within
        obtain ⟨rfl, -⟩ := rowToStep_ok shown
        exact ⟨stored, here, rfl⟩
      · intro found
        obtain ⟨stored, here, named⟩ := found
        obtain ⟨row', member, shown⟩ := held row.stepId stored here
        obtain ⟨rfl, -⟩ := rowToStep_ok shown
        rw [named] at member
        exact member
    · intro seq stored text here output
      obtain ⟨row, -, shown⟩ := held seq stored here
      exact (rowToStep_ok shown).2 text output

/-- The rows the SQLite provider holds of a workflow, once they are listed. -/
def History.ofSqlite (lib : SerdeJson) (serializer : Serializer) (id : String) (db : Sqlite.Db)
    (recorded : List StepInfo)
    (listed : sqliteSteps lib serializer id db = .ok recorded) : History where
  workflowId := id
  step seq := (Sqlite.getStepResult lib serializer id seq db).1
  child seq := (Sqlite.checkChildWorkflow id seq db).1
  name seq := (Sqlite.getStepName id seq db).1
  recorded := recorded
  transacts := true
  step_fails := by
    intro seq e failed
    simp only [Sqlite.getStepResult] at failed
    split at failed
    · cases failed
    next stored here =>
      simp only [Sqlite.stepOutcomeFrom] at failed
      split at failed
      · cases failed
      · split at failed
        next text output =>
          obtain ⟨value, read⟩ := (mem_sqliteSteps listed).2 seq stored text here output
          rw [read] at failed
          cases failed
        · cases failed
  child_fails := by
    intro seq e failed
    cases failed
  name_fails := by
    intro seq e failed
    cases failed
  step_listed := by
    intro seq found here
    apply ((mem_sqliteSteps listed).1 _).mpr
    simp only [Sqlite.getStepResult] at here
    split at here
    · cases here
    next stored held =>
      refine ⟨stored, held, ?_⟩
      cases outcome : Sqlite.stepOutcomeFrom lib serializer stored.serialization stored.output stored.error with
      | error e =>
        rw [outcome] at here
        cases here
      | ok read =>
        rw [outcome] at here
        cases read with
        | none => cases here
        | some read =>
          cases here
          rfl
  child_listed := by
    intro seq child recordedName here
    simp only [Sqlite.checkChildWorkflow, Except.ok.injEq, Option.bind_eq_some_iff, Option.map_eq_some_iff] at here
    obtain ⟨stored, here, _, _, same⟩ := here
    cases same
    exact ((mem_sqliteSteps listed).1 _).mpr ⟨stored, here, rfl⟩
  name_listed := by
    intro seq recordedName here
    simp only [Sqlite.getStepName, Except.ok.injEq, Option.map_eq_some_iff] at here
    obtain ⟨stored, here, rfl⟩ := here
    exact ((mem_sqliteSteps listed).1 _).mpr ⟨stored, here, rfl⟩
  unique := by
    intro a member b member' same
    obtain ⟨stored, here, named⟩ := ((mem_sqliteSteps listed).1 a).mp member
    obtain ⟨stored', here', named'⟩ := ((mem_sqliteSteps listed).1 b).mp member'
    rw [same, here'] at here
    cases here
    cases a
    cases b
    simp_all

end Durare.Verify

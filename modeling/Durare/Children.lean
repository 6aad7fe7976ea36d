import Durare.Slots

/-! Child starts at one position of a parent, by any number of its executions and with anything else in
between: the first that settles fixes the child, in one step with its link, and every later one is
answered from the link. -/
namespace Durare.Children

open Memory

def names : Except Error (Option ChildInsert) → Option String
  | .ok (some (.replayed id)) => some id
  | .ok (some (.resolved row _)) => some row.id
  | _ => none

def creates : Except Error (Option ChildInsert) → Bool
  | .ok (some (.resolved _ created)) => created
  | _ => false

section Memory

variable (parent : String) (seq : Int)

def link (child : WorkflowStatus) (id : String) : StepRow := { name := child.name, childWorkflowId := some id }

/-- The parent is stored and not cancelled. -/
def Live (s : Inner) : Prop := ∃ row, s.workflows.get parent = some row ∧ row.status ≠ .cancelled

/-- What one child start does: nothing when it fails or finds its link; otherwise it links a child that
is stored already, or one that it stores in the same step. -/
inductive Settled (child : WorkflowStatus) (returnExisting : Bool) (s : Inner) :
    Except Error (Option ChildInsert) → Inner → Prop where
  | failed (e : Error) : Settled child returnExisting s (.error e) s
  | replayed (row : StepRow) (id : String) (present : s.steps.get (parent, seq) = some row)
      (linked : row.childWorkflowId = some id) (named : row.name = child.name) :
    Settled child returnExisting s (.ok (some (.replayed id))) s
  | created (vacant : s.steps.get (parent, seq) = none) (live : Live parent s)
      (absent : s.workflows.get child.id = none) :
    Settled child returnExisting s (.ok (some (.resolved child true)))
      ((s.putRow child.id child).putStep parent seq (link child child.id))
  | adopted (row : WorkflowStatus) (vacant : s.steps.get (parent, seq) = none) (live : Live parent s)
      (stored : s.workflows.get row.id = some row)
      (chosen : row.id = child.id ∨ returnExisting = true ∧ (Slots.slot child).isSome = true ∧ Slots.slot row = Slots.slot child) :
    Settled child returnExisting s (.ok (some (.resolved row false))) (s.putStep parent seq (link child row.id))

variable {parent seq} {s : Inner}

theorem chosenChild_some {child row : WorkflowStatus} {returnExisting : Bool} (keyed : Keyed s)
    (found : chosenChild child returnExisting s = .ok (some row)) :
    s.workflows.get row.id = some row ∧
      (row.id = child.id ∨ returnExisting = true ∧ (Slots.slot child).isSome = true ∧ Slots.slot row = Slots.slot child) := by
  cases stored : s.workflows.get child.id with
  | some there =>
    simp only [chosenChild, stored, Except.ok.injEq, Option.some.injEq] at found
    subst found
    have own := keyed _ _ stored
    exact ⟨own ▸ stored, .inl own⟩
  | none =>
    simp only [chosenChild, stored] at found
    split at found
    next queue dedup onQueue named =>
      split at found
      · cases found
      next holder held =>
        split at found
        next existing =>
          cases found
          obtain ⟨key, there⟩ := (Table.mem_values ..).mp (List.mem_of_find?_eq_some held)
          have slotted := Slots.holdsDedup_iff.mp (List.find?_some held)
          have wanted := Slots.slot_eq.mpr ⟨onQueue, named⟩
          refine ⟨keyed _ _ there ▸ there, .inr ⟨existing, ?_, slotted.trans wanted.symm⟩⟩
          rw [wanted]
          rfl
        next => cases found
    next => cases found

theorem child_settled (keyed : Keyed s) (child : WorkflowStatus) (returnExisting : Bool) :
    Settled parent seq child returnExisting s (insertChildWorkflow child parent seq returnExisting s).1
      (insertChildWorkflow child parent seq returnExisting s).2 := by
  obtain ⟨e, same⟩ | ⟨row, id, present, linked, named, same⟩ | ⟨chosen, vacant, live, found, same⟩ :=
    insertChildWorkflow_cases child parent seq returnExisting s
  · rw [same]
    exact .failed e
  · rw [same]
    exact .replayed row id present linked named
  · rw [same]
    cases chosen with
    | none => exact .created vacant live (chosenChild_none found)
    | some row =>
      obtain ⟨stored, chosen⟩ := chosenChild_some keyed found
      exact .adopted row vacant live stored chosen

theorem Settled.linked {child : WorkflowStatus} {returnExisting : Bool} {answer : Except Error (Option ChildInsert)}
    {s' : Inner} {id : String} (settled : Settled parent seq child returnExisting s answer s')
    (named : names answer = some id) :
    ∃ row, s'.steps.get (parent, seq) = some row ∧ row.childWorkflowId = some id ∧ row.name = child.name := by
  cases settled with
  | failed => cases named
  | replayed row id' present linked same =>
    cases named
    exact ⟨row, present, linked, same⟩
  | created vacant live absent =>
    cases named
    exact ⟨link child child.id, by simp, rfl, rfl⟩
  | adopted row vacant live stored chosen =>
    cases named
    exact ⟨link child row.id, by simp, rfl, rfl⟩

/-- Where a link stands, a start of the same workflow is answered from it. -/
theorem linked_replayed {child : WorkflowStatus} {returnExisting : Bool} {row : StepRow} {id : String}
    (present : s.steps.get (parent, seq) = some row) (linked : row.childWorkflowId = some id) (named : row.name = child.name) :
    insertChildWorkflow child parent seq returnExisting s = (.ok (some (.replayed id)), s) := by
  simp [insertChildWorkflow, present, linked, named]

/-- Where anything stands, nothing is created. -/
theorem Settled.vacant {child : WorkflowStatus} {returnExisting : Bool} {answer : Except Error (Option ChildInsert)}
    {s' : Inner} (settled : Settled parent seq child returnExisting s answer s') (made : creates answer = true) :
    s.steps.get (parent, seq) = none := by
  cases settled with
  | created vacant live absent => exact vacant
  | failed | replayed | adopted => cases made

/-- Where a row stands, a child is named from it. -/
theorem Settled.from_row {child : WorkflowStatus} {returnExisting : Bool} {answer : Except Error (Option ChildInsert)}
    {s' : Inner} {row : StepRow} {id : String} (settled : Settled parent seq child returnExisting s answer s')
    (present : s.steps.get (parent, seq) = some row) (named : names answer = some id) : row.childWorkflowId = some id := by
  cases settled with
  | failed => cases named
  | replayed row' id' present' linked same =>
    rw [present] at present'
    cases present'
    cases named
    exact linked
  | created vacant | adopted row' vacant =>
    rw [present] at vacant
    cases vacant

end Memory

section Sql

open Sqlite (Db StepRecord WorkflowRecord rowToStatus statusRecord)

variable (lib : SerdeJson) (serializer : Serializer) (parent : String) (seq : Int)

def linkRecord (child : WorkflowStatus) (id : String) : StepRecord :=
  { functionName := child.name, childWorkflowId := some id }

def Db.linked (db : Db) (record : StepRecord) : Db :=
  { db with operationOutputs := db.operationOutputs.put (parent, seq) record }

def LiveSql (db : Db) : Prop := ∃ record, db.workflowStatus.get parent = some record ∧ record.status ≠ .cancelled

/-- What one child start does to the database. -/
inductive SettledSql (now : DateTime) (child : WorkflowStatus) (returnExisting : Bool) (db : Db) :
    Except Error (Option ChildInsert) → Db → Prop where
  | failed (e : Error) : SettledSql now child returnExisting db (.error e) db
  | replayed (record : StepRecord) (id : String) (present : db.operationOutputs.get (parent, seq) = some record)
      (linked : record.childWorkflowId = some id) (named : record.functionName = child.name) :
    SettledSql now child returnExisting db (.ok (some (.replayed id))) db
  | created (inputs : String) (vacant : db.operationOutputs.get (parent, seq) = none) (live : LiveSql parent db)
      (absent : db.workflowStatus.get child.id = none) :
    SettledSql now child returnExisting db
      (.ok (some (.resolved (rowToStatus lib serializer now child.id (statusRecord lib serializer inputs child)) true)))
      (Db.linked parent seq
        { db with workflowStatus := db.workflowStatus.put child.id (statusRecord lib serializer inputs child) }
        (linkRecord child child.id))
  | adopted (id : String) (record : WorkflowRecord) (vacant : db.operationOutputs.get (parent, seq) = none)
      (live : LiveSql parent db) (stored : db.workflowStatus.get id = some record)
      (chosen : id = child.id ∨ returnExisting = true ∧ record.queueName = child.queueName ∧
        record.deduplicationId = child.dedupId) :
    SettledSql now child returnExisting db (.ok (some (.resolved (rowToStatus lib serializer now id record) false)))
      (Db.linked parent seq db (linkRecord child id))

/-- A child start at the position, or any other transaction. -/
inductive SqlEvent where
  | start (now : DateTime) (child : WorkflowStatus) (returnExisting : Bool)
  | other (transaction : Db → Db)

def nextSql (db : Db) : SqlEvent → Db
  | .start now child returnExisting =>
    (Sqlite.insertChildWorkflow lib serializer now child parent seq returnExisting db).2
  | .other transaction => transaction db

/-- The other transactions leave the parent's row at the position, and the foreign key holds. -/
def SparesSql (db : Db) : SqlEvent → Prop
  | .start _ _ _ => True
  | .other transaction =>
    (∀ record, db.operationOutputs.get (parent, seq) = some record →
      (transaction db).operationOutputs.get (parent, seq) = some record) ∧
      (db.StepsOwned → (transaction db).StepsOwned)

variable {lib serializer parent seq} {db : Db}

theorem slotHolder_some {now : DateTime} {child row : WorkflowStatus}
    (held : Sqlite.slotHolder lib serializer now child db = .ok row) :
    ∃ id record, db.workflowStatus.get id = some record ∧
      (record.queueName = child.queueName ∧ record.deduplicationId = child.dedupId) ∧
      row = rowToStatus lib serializer now id record := by
  unfold Sqlite.slotHolder at held
  split at held
  next id record found =>
    cases held
    have stored := (Table.mem_toList ..).mp (List.mem_of_find?_eq_some found)
    have slotted := List.find?_some found
    simp only [Bool.and_eq_true, beq_iff_eq] at slotted
    exact ⟨id, record, stored, slotted, rfl⟩
  next => cases held

theorem child_settledSql (now : DateTime) (child : WorkflowStatus) (returnExisting : Bool) :
    SettledSql lib serializer parent seq now child returnExisting db
      (Sqlite.insertChildWorkflow lib serializer now child parent seq returnExisting db).1
      (Sqlite.insertChildWorkflow lib serializer now child parent seq returnExisting db).2 := by
  unfold Sqlite.insertChildWorkflow
  split
  · exact .failed _
  next parentRow stored =>
    split
    next step present =>
      split
      next id linked =>
        split
        · exact .failed _
        next same => exact .replayed step id present linked (not_not.mp same)
      · exact .failed _
    next vacant =>
      split
      · exact .failed _
      next live =>
        have live : LiveSql parent db := ⟨parentRow, stored, live⟩
        obtain ⟨e, same⟩ | ⟨record, stored, same⟩ | ⟨adopted, taken, same⟩ | ⟨inputs, absent, same⟩ :=
          Sqlite.insertStatusOn_cases lib serializer now child returnExisting db
        · rw [same]
          exact .failed e
        · rw [same]
          dsimp only
          split
          · exact .failed _
          · exact .adopted child.id record vacant live stored (.inl rfl)
        · rw [same]
          dsimp only
          cases holder : Sqlite.slotHolder lib serializer now child db with
          | error e => exact .failed e
          | ok row =>
            obtain ⟨id, record, stored, held, rfl⟩ := slotHolder_some holder
            dsimp only [Except.map]
            split
            · exact .failed _
            · exact .adopted id record vacant live stored (.inr ⟨adopted, held⟩)
        · rw [same]
          dsimp only
          split
          · exact .failed _
          · exact .created inputs vacant live absent

/-- An answer that names a child leaves a link to it at the position. -/
theorem SettledSql.linked {now : DateTime} {child : WorkflowStatus} {returnExisting : Bool}
    {answer : Except Error (Option ChildInsert)} {db' : Db} {id : String}
    (settled : SettledSql lib serializer parent seq now child returnExisting db answer db') (named : names answer = some id) :
    ∃ record, db'.operationOutputs.get (parent, seq) = some record ∧ record.childWorkflowId = some id ∧
      record.functionName = child.name := by
  cases settled with
  | failed => cases named
  | replayed record id' present linked same =>
    cases named
    exact ⟨record, present, linked, same⟩
  | created inputs vacant live absent =>
    cases named
    exact ⟨linkRecord child child.id, by simp [Db.linked], rfl, rfl⟩
  | adopted other record vacant live stored chosen =>
    cases named
    exact ⟨linkRecord child other, by simp [Db.linked], rfl, rfl⟩

theorem SettledSql.vacant {now : DateTime} {child : WorkflowStatus} {returnExisting : Bool}
    {answer : Except Error (Option ChildInsert)} {db' : Db}
    (settled : SettledSql lib serializer parent seq now child returnExisting db answer db') (made : creates answer = true) :
    db.operationOutputs.get (parent, seq) = none := by
  cases settled with
  | created inputs vacant live absent => exact vacant
  | failed | replayed | adopted => cases made

theorem SettledSql.from_row {now : DateTime} {child : WorkflowStatus} {returnExisting : Bool}
    {answer : Except Error (Option ChildInsert)} {db' : Db} {record : StepRecord} {id : String}
    (settled : SettledSql lib serializer parent seq now child returnExisting db answer db')
    (present : db.operationOutputs.get (parent, seq) = some record) (named : names answer = some id) :
    record.childWorkflowId = some id := by
  cases settled with
  | failed => cases named
  | replayed record' id' present' linked same =>
    rw [present] at present'
    cases present'
    cases named
    exact linked
  | created inputs vacant | adopted other record' vacant =>
    rw [present] at vacant
    cases vacant

theorem linked_replayedSql {now : DateTime} {child : WorkflowStatus} {returnExisting : Bool} {record : StepRecord}
    {id : String} (owned : db.StepsOwned) (present : db.operationOutputs.get (parent, seq) = some record)
    (linked : record.childWorkflowId = some id) (named : record.functionName = child.name) :
    Sqlite.insertChildWorkflow lib serializer now child parent seq returnExisting db = (.ok (some (.replayed id)), db) := by
  obtain ⟨parentRow, stored⟩ := Option.isSome_iff_exists.mp (owned _ _ present)
  simp [Sqlite.insertChildWorkflow, stored, present, linked, named]

theorem SettledSql.keeps {now : DateTime} {child : WorkflowStatus} {returnExisting : Bool}
    {answer : Except Error (Option ChildInsert)} {db' : Db} {record : StepRecord}
    (settled : SettledSql lib serializer parent seq now child returnExisting db answer db')
    (present : db.operationOutputs.get (parent, seq) = some record) :
    db'.operationOutputs.get (parent, seq) = some record := by
  cases settled with
  | failed | replayed => exact present
  | created inputs vacant | adopted other record vacant =>
    rw [present] at vacant
    cases vacant

theorem linked_owned {db' : Db} {record : StepRecord} (owned : db.StepsOwned) (live : LiveSql parent db)
    (steps : db'.operationOutputs = db.operationOutputs)
    (more : ∀ id, (db.workflowStatus.get id).isSome = true → (db'.workflowStatus.get id).isSome = true) :
    (Db.linked parent seq db' record).StepsOwned := by
  intro key row present
  simp only [Db.linked, steps, Table.get_put] at present ⊢
  split at present
  next here =>
    subst here
    obtain ⟨_, stored, -⟩ := live
    exact more parent (by simp [stored])
  next => exact more _ (owned key row present)

theorem SettledSql.owned {now : DateTime} {child : WorkflowStatus} {returnExisting : Bool}
    {answer : Except Error (Option ChildInsert)} {db' : Db}
    (settled : SettledSql lib serializer parent seq now child returnExisting db answer db') (owned : db.StepsOwned) :
    db'.StepsOwned := by
  cases settled with
  | failed | replayed => exact owned
  | adopted other record vacant live stored chosen => exact linked_owned owned live rfl fun _ there => there
  | created inputs vacant live absent =>
    refine linked_owned owned live rfl ?_
    intro id there
    simp only [Table.get_put]
    split
    · rfl
    · exact there

/-- A child start leaves what stands at the position, and every step with its workflow. -/
theorem next_sparesSql (event : SqlEvent) (spared : SparesSql parent seq db event) :
    (∀ record, db.operationOutputs.get (parent, seq) = some record →
      (nextSql lib serializer parent seq db event).operationOutputs.get (parent, seq) = some record) ∧
      (db.StepsOwned → (nextSql lib serializer parent seq db event).StepsOwned) := by
  cases event with
  | other transaction => exact spared
  | start now child returnExisting =>
    have settled : SettledSql lib serializer parent seq now child returnExisting db _ _ :=
      child_settledSql now child returnExisting
    exact ⟨fun record present => settled.keeps present, settled.owned⟩

end Sql

section Runs

/-- Two child starts at one position, `first` the earlier one. -/
structure Agreeing (sameName : Prop) (first second : Except Error (Option ChildInsert)) : Prop where
  once : creates first = true → creates second = false
  same : ∀ id id', names first = some id → names second = some id' → id' = id
  replayed : sameName → ∀ id, names first = some id → second = .ok (some (.replayed id))

theorem named_of_creates {answer : Except Error (Option ChildInsert)} (made : creates answer = true) :
    ∃ id, names answer = some id := by
  match answer with
  | .ok (some (.resolved row _)) => exact ⟨row.id, rfl⟩
  | .ok (some (.replayed _)) | .ok none | .error _ => cases made

/-- A link that the first start leaves and the second finds makes them agree. -/
theorem Agreeing.of_link {κ : Type} {cell : Option κ} (child : κ → Option String) (name : κ → String)
    {one other : String}
    {first second : Except Error (Option ChildInsert)}
    (left : ∀ id, names first = some id → ∃ row, cell = some row ∧ child row = some id ∧ name row = one)
    (vacant : creates second = true → cell = none)
    (named : ∀ row id, cell = some row → names second = some id → child row = some id)
    (found : ∀ row id, cell = some row → child row = some id → name row = other → second = .ok (some (.replayed id))) :
    Agreeing (other = one) first second where
  once := by
    intro made
    by_contra again
    obtain ⟨id, settled⟩ := named_of_creates made
    obtain ⟨row, present, -⟩ := left id settled
    rw [vacant (by simpa using again)] at present
    cases present
  same := by
    intro id id' settled settled'
    obtain ⟨row, present, linked, -⟩ := left id settled
    have linked' := named row id' present settled'
    rw [linked] at linked'
    exact (Option.some.inj linked').symm
  replayed := by
    intro sameName id settled
    obtain ⟨row, present, linked, called⟩ := left id settled
    exact found row id present linked (called.trans sameName.symm)

/-- Every child start of the run at the position is one atomic step, and any two of them agree. -/
structure Stable (lib : SerdeJson) (parent : String) (seq : Int) (s : Inner) (events : List (DateTime × Call)) : Prop where
  atomic : ∀ before now child returnExisting after,
    events = before ++ (now, .insertChildWorkflow child parent seq returnExisting) :: after →
    Settled parent seq child returnExisting (run lib before s)
      (insertChildWorkflow child parent seq returnExisting (run lib before s)).1
      (run lib (before ++ [(now, .insertChildWorkflow child parent seq returnExisting)]) s)
  agree : ∀ before now child returnExisting middle now' child' returnExisting' after,
    events = before ++ (now, .insertChildWorkflow child parent seq returnExisting) ::
      (middle ++ (now', .insertChildWorkflow child' parent seq returnExisting') :: after) →
    Agreeing (child'.name = child.name)
      (insertChildWorkflow child parent seq returnExisting (run lib before s)).1
      (insertChildWorkflow child' parent seq returnExisting'
        (run lib (before ++ (now, .insertChildWorkflow child parent seq returnExisting) :: middle) s)).1

/-- The same of the SQLite backend, whatever other transactions do in between. -/
structure StableSql (lib : SerdeJson) (serializer : Serializer) (parent : String) (seq : Int) (db : Sqlite.Db)
    (events : List SqlEvent) : Prop where
  atomic : ∀ before now child returnExisting after, events = before ++ .start now child returnExisting :: after →
    SettledSql lib serializer parent seq now child returnExisting (Runs.run (nextSql lib serializer parent seq) before db)
      (Sqlite.insertChildWorkflow lib serializer now child parent seq returnExisting
        (Runs.run (nextSql lib serializer parent seq) before db)).1
      (Runs.run (nextSql lib serializer parent seq) (before ++ [.start now child returnExisting]) db)
  agree : ∀ before now child returnExisting middle now' child' returnExisting' after,
    events = before ++ .start now child returnExisting :: (middle ++ .start now' child' returnExisting' :: after) →
    Agreeing (child'.name = child.name)
      (Sqlite.insertChildWorkflow lib serializer now child parent seq returnExisting
        (Runs.run (nextSql lib serializer parent seq) before db)).1
      (Sqlite.insertChildWorkflow lib serializer now' child' parent seq returnExisting'
        (Runs.run (nextSql lib serializer parent seq) (before ++ .start now child returnExisting :: middle) db)).1

theorem memory_stable {lib : SerdeJson} {parent : String} {seq : Int} {s : Inner} {events : List (DateTime × Call)}
    (reachable : Reachable lib s) (spared : Runs.Along (step lib) (Spares parent) events s) :
    Stable lib parent seq s events where
  atomic := by
    intro before now child returnExisting after _
    have after_ : run lib (before ++ [(now, .insertChildWorkflow child parent seq returnExisting)]) s =
        (insertChildWorkflow child parent seq returnExisting (run lib before s)).2 := Runs.run_append ..
    rw [after_]
    exact child_settled (reachable.run before).keyed child returnExisting
  agree := by
    rintro before now child returnExisting middle now' child' returnExisting' after rfl
    have settled : Settled parent seq child returnExisting (run lib before s) _ _ :=
      child_settled (reachable.run before).keyed child returnExisting
    have settled' : Settled parent seq child' returnExisting'
        (run lib (before ++ (now, .insertChildWorkflow child parent seq returnExisting) :: middle) s) _ _ :=
      child_settled (reachable.run _).keyed child' returnExisting'
    have keeps : ∀ s event, Spares parent s event → ∀ row, s.steps.get (parent, seq) = some row →
        (step lib s event).steps.get (parent, seq) = some row :=
      fun s event spared row present => step_spares event spared row present
    refine .of_link StepRow.childWorkflowId StepRow.name ?_ settled'.vacant (fun row id present named => settled'.from_row present named) ?_
    · intro id named
      obtain ⟨row, left, linked, name⟩ := settled.linked named
      exact ⟨row, Runs.kept_between keeps spared left, linked, name⟩
    · intro row id present linked name
      rw [linked_replayed present linked name]

theorem sql_stable {lib : SerdeJson} {serializer : Serializer} {parent : String} {seq : Int} {db : Sqlite.Db}
    {events : List SqlEvent} (owned : db.StepsOwned)
    (spared : Runs.Along (nextSql lib serializer parent seq) (SparesSql parent seq) events db) :
    StableSql lib serializer parent seq db events where
  atomic := by
    intro before now child returnExisting after _
    rw [Runs.run_append]
    exact child_settledSql now child returnExisting
  agree := by
    rintro before now child returnExisting middle now' child' returnExisting' after rfl
    have settled : SettledSql lib serializer parent seq now child returnExisting
        (Runs.run (nextSql lib serializer parent seq) before db) _ _ := child_settledSql now child returnExisting
    have settled' : SettledSql lib serializer parent seq now' child' returnExisting'
        (Runs.run (nextSql lib serializer parent seq) (before ++ .start now child returnExisting :: middle) db) _ _ :=
      child_settledSql now' child' returnExisting'
    have keeps : ∀ db event, SparesSql parent seq db event → ∀ record,
        db.operationOutputs.get (parent, seq) = some record →
        (nextSql lib serializer parent seq db event).operationOutputs.get (parent, seq) = some record :=
      fun db event spared => (next_sparesSql event spared).1
    have owned' : (Runs.run (nextSql lib serializer parent seq) (before ++ .start now child returnExisting :: middle)
        db).StepsOwned := by
      have shifted : before ++ SqlEvent.start now child returnExisting :: (middle ++ .start now' child' returnExisting' :: after) =
          (before ++ .start now child returnExisting :: middle) ++ .start now' child' returnExisting' :: after := by simp
      rw [shifted, Runs.along_append] at spared
      exact Runs.invariant (fun db event here owned => (next_sparesSql event here).2 owned) spared.1 owned
    refine .of_link Sqlite.StepRecord.childWorkflowId Sqlite.StepRecord.functionName ?_ settled'.vacant (fun record id present named => settled'.from_row present named) ?_
    · intro id named
      obtain ⟨record, left, linked, name⟩ := settled.linked named
      exact ⟨record, Runs.kept_between keeps spared left, linked, name⟩
    · intro record id present linked name
      rw [linked_replayedSql owned' present linked name]

/-- Child starts at one position, from any state and with anything in between that leaves the parent's
history alone, in memory and on SQLite. -/
theorem children_stable (lib : SerdeJson) (serializer : Serializer) (parent : String) (seq : Int) :
    (∀ s events, Reachable lib s → Runs.Along (step lib) (Spares parent) events s → Stable lib parent seq s events) ∧
      ∀ db events, db.StepsOwned → Runs.Along (nextSql lib serializer parent seq) (SparesSql parent seq) events db →
        StableSql lib serializer parent seq db events :=
  ⟨fun _ _ reachable spared => memory_stable reachable spared, fun _ _ owned spared => sql_stable owned spared⟩

def parentRunning : Inner :=
  run (.reading []) [(0, .insertWorkflowStatus (.new 0 "p" "main" .null .pending "e1" "v1"))] Inner.new

/-- Two executions of the parent start the child under ids of their own, the slot is freed in between, and
a third starts it again after the child is deleted. -/
def rivalStarts : List (DateTime × Call) :=
  [(0, .insertChildWorkflow (Slots.queued "a") "p" 3 false), (0, .cancelWorkflowsWithOptions ["a"] {}),
    (0, .insertChildWorkflow (Slots.queued "b") "p" 3 false), (0, .deleteWorkflows ["a"] false),
    (0, .insertChildWorkflow (Slots.queued "c") "p" 3 true)]

theorem children_stable_rivalStarts :
    Stable (.reading []) "p" 3 parentRunning rivalStarts ∧
      (insertChildWorkflow (Slots.queued "c") "p" 3 true (run (.reading []) (rivalStarts.take 4) parentRunning)).1 =
        .ok (some (.replayed "a")) :=
  ⟨(children_stable (.reading []) .json "p" 3).1 parentRunning rivalStarts ⟨_, rfl⟩ (by decide), by decide⟩

end Runs

end Durare.Children

import Durare.Rows
import Durare.Sqlite

/-! Deduplication slots: a queue and a deduplication id that at most one workflow holds. Which calls
can hand a slot out twice, and what a start does that meets a stored id, a taken slot or both. -/
namespace Durare.Slots

open Memory

def slot (row : WorkflowStatus) : Option (String × String) :=
  match row.queueName, row.dedupId with
  | some queue, some dedup => some (queue, dedup)
  | _, _ => none

def Holds (s : Inner) (held : String × String) (id : String) : Prop :=
  ∃ row, s.workflows.get id = some row ∧ slot row = some held

/-- No slot has two holders. -/
def Exclusive (s : Inner) : Prop := ∀ held id other, Holds s held id → Holds s held other → id = other

theorem slot_eq {row : WorkflowStatus} {queue dedup : String} :
    slot row = some (queue, dedup) ↔ row.queueName = some queue ∧ row.dedupId = some dedup := by
  unfold slot
  split
  next queue' dedup' q d => simp [q, d]
  next none =>
    constructor
    · intro same
      cases same
    · rintro ⟨q, d⟩
      exact absurd d (none queue dedup q)

theorem slot_undeduplicated {row : WorkflowStatus} (free : row.dedupId = none) : slot row = none := by
  rw [slot, free]
  cases row.queueName <;> rfl

theorem holdsDedup_iff {row : WorkflowStatus} {queue dedup : String} :
    holdsDedup queue dedup row = true ↔ slot row = some (queue, dedup) := by
  simp [holdsDedup, slot_eq]

section Acquire

variable {lib : SerdeJson} {now : DateTime} {s : Inner} {call : Call} {id : String}

/-- A row that a call moves keeps its slot or loses it, unless the call stores it or puts it on another
queue. -/
theorem RowMove.slot {old : Option WorkflowStatus} {new : WorkflowStatus} {held : String × String}
    (move : RowMove lib now s id call old (some new)) (holds : slot new = some held) :
    (∃ row, old = some row ∧ Slots.slot row = some held) ∨
      (call = .insertWorkflowStatus new ∧ new.id = id ∧ old = none) ∨
      (∃ parent seq returnExisting, call = .insertChildWorkflow new parent seq returnExisting ∧ new.id = id ∧ old = none) ∨
      ∃ row queue, call = .enqueueExisting id queue ∧ old = some row ∧ row.dedupId = some held.2 ∧ queue = held.1 := by
  obtain ⟨queue, dedup⟩ := held
  rw [slot_eq] at holds
  cases move with
  | same => exact .inl ⟨new, rfl, slot_eq.mpr holds⟩
  | inserted row own => exact .inr (.inl ⟨rfl, own, rfl⟩)
  | child row parent seq returnExisting own => exact .inr (.inr (.inl ⟨parent, seq, returnExisting, rfl, own, rfl⟩))
  | written row status output error allowed =>
    refine .inl ⟨row, rfl, slot_eq.mpr ?_⟩
    rw [writeStatus_queueName, writeStatus_dedupId] at holds
    split at holds
    · cases holds.2
    · exact holds
  | dequeued row | promoted row | refreshed row | delayed row | attributed row => exact .inl ⟨row, rfl, slot_eq.mpr holds⟩
  | resumed row | resumedMany row => cases holds.2
  | requeued row target =>
    obtain ⟨same, there⟩ := holds
    cases same
    exact .inr (.inr (.inr ⟨row, _, rfl, rfl, there, rfl⟩))
  | cancelled row ids options member =>
    unfold cancelRow at holds
    split at holds
    · exact .inl ⟨row, rfl, slot_eq.mpr holds⟩
    · cases holds.2
  | recovered row req own pending executor attempts =>
    refine .inl ⟨row, rfl, slot_eq.mpr ?_⟩
    unfold recoveredRow at holds
    dsimp only at holds
    split at holds
    · cases holds.2
    · split at holds <;> exact holds

/-- A start that passed its check took a slot that no other workflow holds. -/
theorem dedupConflict_free {status : WorkflowStatus} {held : String × String} (keyed : Keyed s)
    (free : dedupConflict status s = none) (holds : slot status = some held) (other : String)
    (taken : Holds s held other) : other = status.id := by
  obtain ⟨queue, dedup⟩ := held
  obtain ⟨row, stored, held⟩ := taken
  obtain ⟨onQueue, named⟩ := slot_eq.mp holds
  rw [dedupConflict, onQueue, named] at free
  simp only [ite_eq_right_iff, reduceCtorEq, imp_false, Bool.not_eq_true, List.any_eq_false] at free
  have apart := free row ((Table.mem_values ..).mpr ⟨other, stored⟩)
  rw [holdsDedup_iff.mpr held] at apart
  simpa [keyed other row stored] using apart

theorem chosenChild_free {child : WorkflowStatus} {returnExisting : Bool} {held : String × String}
    (chosen : chosenChild child returnExisting s = .ok none) (holds : slot child = some held) (other : String) :
    ¬ Holds s held other := by
  obtain ⟨queue, dedup⟩ := held
  rintro ⟨row, stored, held⟩
  obtain ⟨onQueue, named⟩ := slot_eq.mp holds
  simp only [chosenChild, chosenChild_none chosen, onQueue, named] at chosen
  split at chosen
  next vacant =>
    have apart := List.find?_eq_none.mp vacant row ((Table.mem_values ..).mpr ⟨other, stored⟩)
    exact apart (holdsDedup_iff.mpr held)
  next => split at chosen <;> cases chosen

variable (lib now) in
def imported (wf : ExportedWorkflow) : WorkflowStatus := mapToStatus lib now wf.workflowStatus

variable (lib now) in
/-- The ids that a call may hand the slot to. -/
def acquirers (held : String × String) : Call → List String
  | .insertWorkflowStatus row | .insertChildWorkflow row _ _ _ => [row.id]
  | .enqueueExisting id _ => [id]
  | .importWorkflow wfs => ((wfs.map (imported lib now)).filter fun row => slot row = some held).map (·.id)
  | _ => []

/-- A call that does not hand a held slot out again: a row moves to a queue where nobody else holds
its deduplication id, and an import brings slots that are free and all its own. -/
def KeepsSlots (lib : SerdeJson) (s : Inner) (event : DateTime × Call) : Prop :=
  match event.2 with
  | .enqueueExisting id queue => ∀ row ∈ s.workflows.get id, ∀ dedup ∈ row.dedupId,
      ∀ entry ∈ s.workflows.toList, slot entry.2 = some (queue, dedup) → entry.1 = id
  | .importWorkflow wfs => importRefused s wfs = true ∨ ∀ wf ∈ wfs, ∀ held ∈ slot (imported lib event.1 wf),
      (∀ row ∈ s.workflows.values, slot row ≠ some held) ∧
        ∀ other ∈ wfs, slot (imported lib event.1 other) = some held →
          (imported lib event.1 other).id = (imported lib event.1 wf).id
  | _ => True

instance (lib : SerdeJson) (s : Inner) (event : DateTime × Call) : Decidable (KeepsSlots lib s event) := by
  apply Call.casesOn (motive := fun call => Decidable (KeepsSlots lib s (event.1, call))) event.2 <;> intros <;>
    (dsimp only [KeepsSlots]; infer_instance)

/-- A holder of a slot held it before, or the call handed it over and nobody else holds it. -/
theorem step_holds {held : String × String} (keyed : Keyed s) (keeps : KeepsSlots lib s (now, call))
    (holds : Holds (step lib s (now, call)) held id) :
    Holds s held id ∨ (id ∈ acquirers lib now held call ∧ ∀ other, Holds s held other → other = id) := by
  obtain ⟨row, stored, slotted⟩ := holds
  obtain move | ⟨params, timeoutMs, original, -, -, -, rfl⟩ | ⟨wfs, rfl, accepted, wf, member, rfl⟩ :=
    step_stored lib now call s stored
  · obtain ⟨old, before, kept⟩ | ⟨rfl, own, absent⟩ | ⟨parent, seq, returnExisting, rfl, own, absent⟩ |
      ⟨old, queue, rfl, before, named, rfl⟩ := RowMove.slot move slotted
    · exact .inl ⟨old, before, kept⟩
    · refine .inr ⟨by simp [acquirers, own], ?_⟩
      intro other taken
      rw [← own]
      refine dedupConflict_free keyed ?_ slotted other taken
      by_contra conflict
      obtain ⟨slot, conflict⟩ := Option.ne_none_iff_exists'.mp conflict
      simp [step, exec, insertWorkflowStatus, conflict, absent] at stored
    · refine .inr ⟨by simp [acquirers, own], ?_⟩
      intro other taken
      simp only [step, exec] at stored
      obtain ⟨e, same⟩ | ⟨row', id', -, -, -, same⟩ | ⟨chosen, -, -, found, same⟩ :=
        insertChildWorkflow_cases row parent seq returnExisting s
      · rw [same, absent] at stored
        cases stored
      · rw [same, absent] at stored
        cases stored
      · cases chosen with
        | none => exact absurd taken (chosenChild_free found slotted other)
        | some row' =>
          rw [same] at stored
          simp [absent] at stored
    · refine .inr ⟨by simp [acquirers], ?_⟩
      rintro other ⟨row', there, taken⟩
      exact keeps old before held.2 named (other, row') ((Table.mem_toList ..).mpr there) taken
  · rw [slot_undeduplicated rfl] at slotted
    cases slotted
  · have apart := keeps.resolve_left (by simp [accepted])
    have own := step_keyed lib s (now, .importWorkflow wfs) keyed id _ stored
    obtain ⟨vacant, -⟩ := apart wf member held slotted
    refine .inr ⟨?_, ?_⟩
    · simp only [acquirers, List.mem_map, List.mem_filter, decide_eq_true_eq]
      exact ⟨_, ⟨⟨wf, member, rfl⟩, slotted⟩, own⟩
    · rintro other ⟨row', there, taken⟩
      exact absurd taken (vacant row' ((Table.mem_values ..).mpr ⟨other, there⟩))

theorem acquirers_unique {held : String × String} {other : String} (keeps : KeepsSlots lib s (now, call))
    (unrefused : ∀ wfs, call = .importWorkflow wfs → importRefused s wfs = false)
    (one : id ∈ acquirers lib now held call) (two : other ∈ acquirers lib now held call) : id = other := by
  cases call with
  | insertWorkflowStatus row | insertChildWorkflow row parent seq returnExisting =>
    simp only [acquirers, List.mem_singleton] at one two
    rw [one, two]
  | enqueueExisting target queue =>
    simp only [acquirers, List.mem_singleton] at one two
    rw [one, two]
  | importWorkflow wfs =>
    simp only [acquirers, List.mem_map, List.mem_filter, decide_eq_true_eq] at one two
    obtain ⟨_, ⟨⟨wf, member, rfl⟩, holds⟩, rfl⟩ := one
    obtain ⟨_, ⟨⟨wf', member', rfl⟩, holds'⟩, rfl⟩ := two
    obtain refused | apart := keeps
    · rw [unrefused wfs rfl] at refused
      cases refused
    · exact ((apart wf member held holds).2 wf' member' holds').symm
  | _ => simp [acquirers] at one

theorem step_exclusive (keyed : Keyed s) (keeps : KeepsSlots lib s (now, call)) (exclusive : Exclusive s) :
    Exclusive (step lib s (now, call)) := by
  by_cases refused : ∃ wfs, call = .importWorkflow wfs ∧ importRefused s wfs = true
  · obtain ⟨wfs, rfl, refused⟩ := refused
    have same : step lib s (now, .importWorkflow wfs) = s := import_refused refused
    rw [same]
    exact exclusive
  intro held id other holds holds'
  obtain kept | ⟨acquired, alone⟩ := step_holds keyed keeps holds
  · obtain kept' | ⟨-, alone⟩ := step_holds keyed keeps holds'
    · exact exclusive held id other kept kept'
    · exact alone id kept
  · obtain kept' | ⟨acquired', -⟩ := step_holds keyed keeps holds'
    · exact (alone other kept').symm
    · refine acquirers_unique keeps ?_ acquired acquired'
      intro wfs same
      by_contra passed
      exact refused ⟨wfs, same, by simpa using passed⟩

end Acquire

section Exclusive

/-- Another workflow holds the slot of the offered row. -/
def Taken (status : WorkflowStatus) (s : Inner) :
    Prop := ∃ held other, slot status = some held ∧ other ≠ status.id ∧ Holds s held other

theorem dedupConflict_taken {status : WorkflowStatus} {s : Inner} (keyed : Keyed s) (taken : Taken status s) :
    dedupConflict status s = some (status.queueName.getD "", status.dedupId.getD "") := by
  obtain ⟨⟨queue, dedup⟩, other, holds, apart, row, stored, held⟩ := taken
  obtain ⟨onQueue, named⟩ := slot_eq.mp holds
  rw [dedupConflict, onQueue, named]
  refine if_pos (List.any_eq_true.mpr ⟨row, (Table.mem_values ..).mpr ⟨other, stored⟩, ?_⟩)
  rw [Bool.and_eq_true, holdsDedup_iff]
  exact ⟨by simpa [keyed other row stored] using apart, held⟩

/-- A start of a row whose slot another workflow holds: it fails and changes nothing, and a child start
stores no second holder, whether it fails or adopts the first. -/
structure Refuses (s : Inner) (row : WorkflowStatus) (queue dedup : String) : Prop where
  start : insertWorkflowStatus row s = (.error (.queueDeduplicated queue dedup), s)
  child : s.workflows.get row.id = none → ∀ parent seq returnExisting,
    (insertChildWorkflow row parent seq returnExisting s).2.workflows = s.workflows ∧
      (returnExisting = false → (insertChildWorkflow row parent seq returnExisting s).2 = s)

theorem chosenChild_taken {s : Inner} {row : WorkflowStatus} {returnExisting : Bool} {held : String × String}
    {other : String} {chosen : Option WorkflowStatus} (taken : Holds s held other) (holds : slot row = some held)
    (absent : s.workflows.get row.id = none) (found : chosenChild row returnExisting s = .ok chosen) :
    chosen.isNone = false ∧ returnExisting = true := by
  cases chosen with
  | none => exact absurd taken (chosenChild_free found holds other)
  | some there =>
    obtain ⟨queue, dedup⟩ := held
    obtain ⟨onQueue, named⟩ := slot_eq.mp holds
    simp only [chosenChild, absent, onQueue, named] at found
    split at found
    · cases found
    · split at found
      next existing => exact ⟨rfl, existing⟩
      next => cases found

theorem taken_refuses {s : Inner} {row : WorkflowStatus} {queue dedup other : String} (keyed : Keyed s)
    (holds : slot row = some (queue, dedup)) (apart : other ≠ row.id) (taken : Holds s (queue, dedup) other) :
    Refuses s row queue dedup where
  start := by
    obtain ⟨onQueue, named⟩ := slot_eq.mp holds
    have conflict := dedupConflict_taken keyed ⟨_, other, holds, apart, taken⟩
    rw [onQueue, named] at conflict
    rw [insertWorkflowStatus, conflict]
    rfl
  child := by
    intro absent parent seq returnExisting
    obtain ⟨e, same⟩ | ⟨row', id', -, -, -, same⟩ | ⟨chosen, -, -, found, same⟩ :=
      insertChildWorkflow_cases row parent seq returnExisting s
    · rw [same]
      exact ⟨rfl, fun _ => rfl⟩
    · rw [same]
      exact ⟨rfl, fun _ => rfl⟩
    · obtain ⟨adopted, existing⟩ := chosenChild_taken taken holds absent found
      rw [same, adopted]
      refine ⟨rfl, fun fresh => ?_⟩
      rw [existing] at fresh
      cases fresh

/-- Along a run that moves no row onto a held slot and imports none, no slot has two holders, and a start
that would make a second one fails and changes nothing. -/
theorem slots_exclusive (lib : SerdeJson) (events : List (DateTime × Call))
    (keeps : Runs.Along (step lib) (KeepsSlots lib) events Inner.new) :
    Exclusive (run lib events Inner.new) ∧
      ∀ row queue dedup other, slot row = some (queue, dedup) → other ≠ row.id →
        Holds (run lib events Inner.new) (queue, dedup) other → Refuses (run lib events Inner.new) row queue dedup := by
  have inv : Keyed (run lib events Inner.new) ∧ Exclusive (run lib events Inner.new) := by
    refine Runs.invariant (I := fun s => Keyed s ∧ Exclusive s) ?_ keeps ⟨?_, ?_⟩
    · intro s event here inv
      exact ⟨step_keyed lib s event inv.1, step_exclusive inv.1 here inv.2⟩
    · intro id row stored
      cases stored
    · rintro held id other ⟨row, stored, -⟩
      cases stored
  exact ⟨inv.2, fun row queue dedup other holds apart taken => taken_refuses inv.1 holds apart taken⟩

def queued (id : String) : WorkflowStatus :=
  { WorkflowStatus.new 0 id "job" .null .enqueued "" "v1" with queueName := some "q", dedupId := some "d" }

/-- The slot is taken, refused to a second start, and passed on when the first workflow is cancelled. -/
def passedOn : List (DateTime × Call) :=
  [(0, .insertWorkflowStatus (queued "a")), (0, .insertWorkflowStatus (queued "b")),
    (0, .cancelWorkflowsWithOptions ["a"] {}), (0, .insertWorkflowStatus (queued "c"))]

theorem slots_exclusive_passedOn :
    Holds (run (.reading []) passedOn Inner.new) ("q", "d") "c" ∧ Exclusive (run (.reading []) passedOn Inner.new) :=
  ⟨⟨_, rfl, by decide⟩, (slots_exclusive (.reading []) passedOn (by decide)).1⟩

/-- An exported workflow with the same queue and deduplication id. -/
def shadow : ExportedWorkflow where
  workflowStatus := [("workflow_uuid", .string "b"), ("name", .string "job"), ("status", .string "ENQUEUED"),
    ("queue_name", .string "q"), ("deduplication_id", .string "d")]
  operationOutputs := []
  workflowEvents := []
  streams := []

/-- The import returns, and both workflows hold the slot. -/
theorem import_shares_slot :
    let s := run (.reading []) [(0, .insertWorkflowStatus (queued "a"))] Inner.new
    (importWorkflow (.reading []) 0 [shadow] s).1 = .ok .returned ∧
      ¬ Exclusive (run (.reading []) [(0, .insertWorkflowStatus (queued "a")), (0, .importWorkflow [shadow])] Inner.new) := by
  refine ⟨by decide, ?_⟩
  intro exclusive
  have same := exclusive ("q", "d") "a" "b" ⟨_, rfl, by decide⟩ ⟨_, rfl, by decide⟩
  exact absurd same (by decide)

end Exclusive

section Starts

variable (lib : SerdeJson) (status : WorkflowStatus) (s : Inner)

/-- A database that stores the same workflows on the same slots. -/
def SameSlots (db : Sqlite.Db) : Prop :=
  ∀ id, (db.workflowStatus.get id).map (fun row => (row.queueName, row.deduplicationId)) =
    (s.workflows.get id).map fun row => (row.queueName, row.dedupId)

/-- What a start answers, less the row: a refusal, or whether it created the workflow. -/
def verdict (answer : Except Error (WorkflowStatus × Bool)) : Except Error Bool := answer.map (·.2)

/-- The three cases on the SQL backend, over the rows as it stores and reads them. -/
structure SqlCases (serializer : Serializer) (now : DateTime) (inputs : String) (db : Sqlite.Db) : Prop where
  existing : ∀ row, db.workflowStatus.get status.id = some row →
    Sqlite.insertWorkflowStatus lib serializer now status db = (.ok (Sqlite.rowToStatus lib serializer now status.id row, false), db)
  fresh : db.workflowStatus.get status.id = none → ¬ Taken status s →
    Sqlite.insertWorkflowStatus lib serializer now status db =
      (.ok (Sqlite.rowToStatus lib serializer now status.id (Sqlite.statusRecord lib serializer inputs status), true),
        { db with workflowStatus :=
          db.workflowStatus.put status.id (Sqlite.statusRecord lib serializer inputs status) })
  taken : db.workflowStatus.get status.id = none → Taken status s →
    Sqlite.insertWorkflowStatus lib serializer now status db =
      (.error (.queueDeduplicated (status.queueName.getD "") (status.dedupId.getD "")), db)

/-- A start is idempotent by id: a stored workflow is returned as it is, a new one is added where its
slot is free and refused where it is not, and the SQL backend decides alike. -/
structure Idempotent : Prop where
  existing : ∀ row, s.workflows.get status.id = some row → insertWorkflowStatus status s = (.ok (row, false), s)
  fresh : s.workflows.get status.id = none → ¬ Taken status s →
    insertWorkflowStatus status s = (.ok (status, true), s.putRow status.id status)
  taken : s.workflows.get status.id = none → Taken status s →
    insertWorkflowStatus status s = (.error (.queueDeduplicated (status.queueName.getD "") (status.dedupId.getD "")), s)
  sql : ∀ serializer now inputs db, SameSlots s db → Sqlite.encodeInput lib serializer status.input = .ok inputs →
    SqlCases lib status s serializer now inputs db
  agrees : ∀ serializer now inputs db, SameSlots s db → Sqlite.encodeInput lib serializer status.input = .ok inputs →
    verdict (Sqlite.insertWorkflowStatus lib serializer now status db).1 = verdict (insertWorkflowStatus status s).1 ∧
      SameSlots (insertWorkflowStatus status s).2 (Sqlite.insertWorkflowStatus lib serializer now status db).2

variable {lib status s}

theorem dedupConflict_untaken (keyed : Keyed s) (free : ¬ Taken status s) : dedupConflict status s = none := by
  unfold dedupConflict
  split
  next queue dedup onQueue named =>
    refine if_neg ?_
    intro conflict
    obtain ⟨row, member, conflict⟩ := List.any_eq_true.mp conflict
    obtain ⟨other, stored⟩ := (Table.mem_values ..).mp member
    rw [Bool.and_eq_true, holdsDedup_iff, keyed other row stored] at conflict
    exact free ⟨(queue, dedup), other, slot_eq.mpr ⟨onQueue, named⟩, by simpa using conflict.1, row, stored, conflict.2⟩
  next => rfl

theorem SameSlots.absent {db : Sqlite.Db} (same : SameSlots s db) (id : String) :
    db.workflowStatus.get id = none ↔ s.workflows.get id = none := by
  have here := same id
  cases stored : s.workflows.get id with
  | none =>
    rw [stored, Option.map_none, Option.map_eq_none_iff] at here
    simp [here]
  | some row =>
    rw [stored] at here
    obtain ⟨record, there, -⟩ := Option.map_eq_some_iff.mp here
    simp [there]

/-- For a new id the index of the database tells whether the slot is taken. -/
theorem slotTaken_iff {db : Sqlite.Db} (same : SameSlots s db) (absent : s.workflows.get status.id = none) :
    Sqlite.slotTaken status db = true ↔ Taken status s := by
  constructor
  · intro taken
    unfold Sqlite.slotTaken at taken
    split at taken
    next queue dedup onQueue named =>
      obtain ⟨record, member, held⟩ := List.any_eq_true.mp taken
      obtain ⟨other, there⟩ := (Table.mem_values ..).mp member
      simp only [Bool.and_eq_true, beq_iff_eq] at held
      have here := (same other).symm
      rw [there, Option.map_some, held.1, held.2] at here
      obtain ⟨row, stored, columns⟩ := Option.map_eq_some_iff.mp here
      simp only [Prod.mk.injEq] at columns
      refine ⟨(queue, dedup), other, slot_eq.mpr ⟨onQueue, named⟩, ?_, row, stored, slot_eq.mpr columns⟩
      rintro rfl
      rw [absent] at stored
      cases stored
    next => cases taken
  · rintro ⟨⟨queue, dedup⟩, other, holds, -, row, stored, held⟩
    obtain ⟨onQueue, named⟩ := slot_eq.mp holds
    obtain ⟨onQueue', named'⟩ := slot_eq.mp held
    have here := same other
    rw [stored, Option.map_some] at here
    obtain ⟨record, there, columns⟩ := Option.map_eq_some_iff.mp here
    simp only [Prod.mk.injEq] at columns
    simp only [Sqlite.slotTaken, onQueue, named]
    refine List.any_eq_true.mpr ⟨record, (Table.mem_values ..).mpr ⟨other, there⟩, ?_⟩
    simp [columns.1, columns.2, onQueue', named']

theorem sql_cases {serializer : Serializer} {now : DateTime} {inputs : String} {db : Sqlite.Db} (same : SameSlots s db)
    (encoded : Sqlite.encodeInput lib serializer status.input = .ok inputs) :
    SqlCases lib status s serializer now inputs db where
  existing := by
    intro row stored
    simp [Sqlite.insertWorkflowStatus, Sqlite.insertStatusOn, encoded, stored]
  fresh := by
    intro absent free
    have open_ : Sqlite.slotTaken status db = false := by
      rw [← Bool.not_eq_true, slotTaken_iff same ((same.absent _).mp absent)]
      exact free
    simp [Sqlite.insertWorkflowStatus, Sqlite.insertStatusOn, encoded, absent, open_]
  taken := by
    intro absent taken
    have shut := (slotTaken_iff same ((same.absent _).mp absent)).mpr taken
    simp [Sqlite.insertWorkflowStatus, Sqlite.insertStatusOn, encoded, absent, shut]

/-- The provider looks at the slot before the id: a start is idempotent unless its id is stored while
another workflow holds its slot. -/
theorem start_idempotent_iff (reachable : Reachable lib s) :
    Idempotent lib status s ↔ ¬ ((s.workflows.get status.id).isSome = true ∧ Taken status s) := by
  have keyed := reachable.keyed
  constructor
  · rintro idempotent ⟨stored, taken⟩
    obtain ⟨row, stored⟩ := Option.isSome_iff_exists.mp stored
    have returned := idempotent.existing row stored
    rw [insertWorkflowStatus, dedupConflict_taken keyed taken] at returned
    cases returned
  · intro apart
    have existing : ∀ row, s.workflows.get status.id = some row → insertWorkflowStatus status s = (.ok (row, false), s) := by
      intro row stored
      have free : ¬ Taken status s := fun taken => apart ⟨by simp [stored], taken⟩
      rw [insertWorkflowStatus, dedupConflict_untaken keyed free, stored]
    have fresh : s.workflows.get status.id = none → ¬ Taken status s →
        insertWorkflowStatus status s = (.ok (status, true), s.putRow status.id status) := by
      intro absent free
      rw [insertWorkflowStatus, dedupConflict_untaken keyed free, absent]
    have refused : s.workflows.get status.id = none → Taken status s → insertWorkflowStatus status s =
        (.error (.queueDeduplicated (status.queueName.getD "") (status.dedupId.getD "")), s) := by
      intro _ taken
      rw [insertWorkflowStatus, dedupConflict_taken keyed taken]
    refine ⟨existing, fresh, refused, fun serializer now inputs db same encoded => sql_cases same encoded, ?_⟩
    intro serializer now inputs db same encoded
    have sql : SqlCases lib status s serializer now inputs db := sql_cases same encoded
    cases stored : s.workflows.get status.id with
    | some row =>
      obtain ⟨record, there⟩ := Option.ne_none_iff_exists'.mp fun absent => by
        rw [(same.absent _).mp absent] at stored
        cases stored
      rw [sql.existing record there, existing row stored]
      exact ⟨rfl, same⟩
    | none =>
      have absent := (same.absent _).mpr stored
      by_cases taken : Taken status s
      · rw [sql.taken absent taken, refused stored taken]
        exact ⟨rfl, same⟩
      · rw [sql.fresh absent taken, fresh stored taken]
        refine ⟨rfl, ?_⟩
        intro id
        simp only [putRow_workflows, Table.get_put]
        split
        · rfl
        · exact same id

/-- The first workflow has finished, its slot has passed to another, and its start is retried. -/
def retried : Inner :=
  run (.reading [])
    [(0, .insertWorkflowStatus (queued "a")), (0, .cancelWorkflowsWithOptions ["a"] {}), (0, .insertWorkflowStatus (queued "b"))]
    Inner.new

theorem start_idempotent_retried : Idempotent (.reading []) { queued "a" with dedupId := none } retried := by
  refine (start_idempotent_iff ⟨_, rfl⟩).mpr ?_
  rintro ⟨-, held, other, holds, -⟩
  cases holds

/-- The retry names a stored id and is refused for the slot. -/
theorem retry_refused :
    (retried.workflows.get "a").isSome = true ∧
      insertWorkflowStatus (queued "a") retried = (.error (.queueDeduplicated "q" "d"), retried) ∧
      ¬ Idempotent (.reading []) (queued "a") retried := by
  refine ⟨by decide, rfl, ?_⟩
  intro idempotent
  have returned := idempotent.existing _ rfl
  cases returned

end Starts

end Durare.Slots

import Durare.Rows

/-! The listing of workflows by filter, as the in-memory backend computes it. -/
namespace Durare

namespace Value

mutual

/-- `contains_value`: containment of JSON, decided along the filter. -/
def containsValue (stored : Value) : Value → Bool
  | .object f =>
    match stored with
    | .object s => containsFields s f
    | _ => false
  | .array f =>
    match stored with
    | .array s => containsItems s f
    | _ => false
  | filter => stored.partialEq filter

def containsFields (stored : List (String × Value)) : List (String × Value) → Bool
  | [] => true
  | (k, v) :: f => (stored.lookup k).any (fun value => value.containsValue v) && containsFields stored f

def containsItems (stored : List Value) : List Value → Bool
  | [] => true
  | v :: f => stored.any (fun value => value.containsValue v) && containsItems stored f

end

end Value

def attributesContain (stored : Option Value) (filter : Columns) : Bool :=
  match stored with
  | some (.object fields) => Value.containsFields fields filter
  | _ => filter == []

/-- An empty list filters nothing, and neither does an absent bound. -/
structure ListFilter where
  workflowIds : List String := []
  workflowIdPrefix : List String := []
  name : List String := []
  status : List Status := []
  queueName : List String := []
  appVersion : List String := []
  executorIds : List String := []
  authenticatedUsers : List String := []
  forkedFrom : List String := []
  parentWorkflowIds : List String := []
  wasForkedFrom : Option Bool := none
  startTimeMs : Option Int := none
  endTimeMs : Option Int := none
  completedAfterMs : Option Int := none
  completedBeforeMs : Option Int := none
  dequeuedAfterMs : Option Int := none
  dequeuedBeforeMs : Option Int := none
  hasParent : Option Bool := none
  attributes : Option Columns := none
  limit : Option Int := none
  offset : Option Int := none
  sortDesc : Bool := false
  queuesOnly : Bool := false
  loadInput : Bool := true
  loadOutput : Bool := true

namespace Memory

/-- Some workflow was forked from this one. -/
def isForkSource (s : Inner) (id : String) : Bool := s.workflows.values.any fun w => w.forkedFrom == some id

def anyOf [BEq α] (wanted : List α) (value : α) : Bool := wanted.isEmpty || wanted.contains value

def anyOfOption [BEq α] (wanted : List α) (value : Option α) : Bool :=
  wanted.isEmpty || value.any fun v => wanted.contains v

def startsWith (text start : String) : Bool := start.toList.isPrefixOf text.toList

def matchesFilter (filter : ListFilter) (s : Inner) (w : WorkflowStatus) : Bool :=
  anyOf filter.workflowIds w.id &&
  (filter.workflowIdPrefix.isEmpty || filter.workflowIdPrefix.any (startsWith w.id)) &&
  anyOf filter.name w.name &&
  filter.attributes.all (attributesContain w.attributes) &&
  anyOf filter.status w.status &&
  anyOfOption filter.queueName w.queueName &&
  anyOf filter.appVersion w.appVersion &&
  anyOf filter.executorIds w.executorId &&
  anyOfOption filter.authenticatedUsers w.authenticatedUser &&
  anyOfOption filter.forkedFrom w.forkedFrom &&
  anyOfOption filter.parentWorkflowIds w.parentWorkflowId &&
  filter.wasForkedFrom.all (fun wanted => isForkSource s w.id == wanted) &&
  filter.startTimeMs.all (fun t => decide (t ≤ w.createdAt.timestampMillis)) &&
  filter.endTimeMs.all (fun t => decide (w.createdAt.timestampMillis ≤ t)) &&
  filter.completedAfterMs.all (fun t => w.completedAtMs.any fun c => decide (t ≤ c)) &&
  filter.completedBeforeMs.all (fun t => w.completedAtMs.any fun c => decide (c ≤ t)) &&
  filter.dequeuedAfterMs.all (fun t => w.startedAtMs.any fun c => decide (t ≤ c)) &&
  filter.dequeuedBeforeMs.all (fun t => w.startedAtMs.any fun c => decide (c ≤ t)) &&
  filter.hasParent.all (fun wanted => w.parentWorkflowId.isSome == wanted) &&
  (!filter.queuesOnly || w.queueName.isSome)

def sortedMatches (filter : ListFilter) (s : Inner) : List WorkflowStatus :=
  let rows := (s.workflows.values.filter (matchesFilter filter s)).insertionSort fun a b => a.createdAt ≤ b.createdAt
  if filter.sortDesc then rows.reverse else rows

def loaded (filter : ListFilter) (w : WorkflowStatus) : WorkflowStatus :=
  { w with
    input := if filter.loadInput then w.input else .null
    output := if filter.loadOutput then w.output else none }

def listWorkflows (filter : ListFilter) (s : Inner) : Answer (List WorkflowStatus) :=
  let rows := (sortedMatches filter s).drop ((filter.offset.getD 0).toNat)
  let rows := match filter.limit with
    | some limit => rows.take limit.toNat
    | none => rows
  (.ok (rows.map (loaded filter)), s)

theorem sortedMatches_perm (filter : ListFilter) (s : Inner) :
    (sortedMatches filter s).Perm (s.workflows.values.filter (matchesFilter filter s)) := by
  have sorted := List.perm_insertionSort (fun a b : WorkflowStatus => a.createdAt ≤ b.createdAt)
    (s.workflows.values.filter (matchesFilter filter s))
  unfold sortedMatches
  split
  · exact (List.reverse_perm _).trans sorted
  · exact sorted

theorem mem_sortedMatches (filter : ListFilter) (s : Inner) (w : WorkflowStatus) :
    w ∈ sortedMatches filter s ↔ (∃ id, s.workflows.get id = some w) ∧ matchesFilter filter s w = true := by
  rw [(sortedMatches_perm filter s).mem_iff, List.mem_filter, Table.mem_values]

def listedIds (filter : ListFilter) (s : Inner) : List String :=
  match (listWorkflows filter s).1 with
  | .ok rows => rows.map fun w : WorkflowStatus => w.id
  | .error _ => []

theorem listedIds_eq (filter : ListFilter) (s : Inner) (first : filter.offset = none) :
    listedIds filter s = (match filter.limit with
      | some limit => (sortedMatches filter s).take limit.toNat
      | none => sortedMatches filter s).map fun w : WorkflowStatus => w.id := by
  have same (rows : List WorkflowStatus) : (rows.map (loaded filter)).map (fun w : WorkflowStatus => w.id) = rows.map fun w : WorkflowStatus => w.id := by
    rw [List.map_map]
    rfl
  simp only [listedIds, listWorkflows, first, Option.getD_none, Int.toNat_zero, List.drop_zero, same]

theorem nodup_sortedMatches {s : Inner} (keyed : Keyed s) (filter : ListFilter) :
    ((sortedMatches filter s).map fun w : WorkflowStatus => w.id).Nodup := by
  have distinct : ((s.workflows.values.filter (matchesFilter filter s)).map fun w : WorkflowStatus => w.id).Nodup :=
    keyed.nodup_ids.sublist (List.filter_sublist.map _)
  exact ((sortedMatches_perm filter s).map fun w : WorkflowStatus => w.id).nodup_iff.mpr distinct

end Memory

end Durare

import Durare.Filters
import Durare.GroupBy

/-! Workflows counted and measured in groups, as the in-memory backend does it, against the listing of the same
conditions. -/
namespace Durare

/-- An empty list filters nothing, and neither does an absent bound. -/
structure WorkflowAggregateQuery where
  byStatus : Bool := false
  byName : Bool := false
  byQueueName : Bool := false
  byExecutorId : Bool := false
  byAppVersion : Bool := false
  selectCount : Bool := false
  selectMinCreatedAt : Bool := false
  selectMaxQueueWaitMs : Bool := false
  selectMaxTotalLatencyMs : Bool := false
  timeBucketMs : Option Int := none
  status : List Status := []
  name : List String := []
  appVersion : List String := []
  executorIds : List String := []
  queueNames : List String := []
  workflowIdPrefix : Option String := none
  startTimeMs : Option Int := none
  endTimeMs : Option Int := none
  completedAfterMs : Option Int := none
  completedBeforeMs : Option Int := none
  dequeuedAfterMs : Option Int := none
  dequeuedBeforeMs : Option Int := none
  limit : Option Int := none

/-- The map of a group's dimensions: a `BTreeMap`, by its entries in their order. -/
abbrev Group := List (String × Option String)

namespace Group

def collect (entries : List (String × Option String)) : Group := entries.insertionSort fun a b => a.1 ≤ b.1

/-- By name, then by value, where none comes first. -/
def entryLt (a b : String × Option String) : Bool :=
  decide (a.1 < b.1) || (a.1 == b.1 && b.2.any fun w => a.2.all fun v => decide (v < w))

def le (a b : Group) : Bool := !List.lex b a entryLt

/-- `out.sort_by(..)`, then `out.truncate(..)`. -/
def arrange (group : α → Group) (limit : Option Int) (out : List α) : List α :=
  let out := out.insertionSort fun a b => le (group a) (group b)
  match limit with
  | some limit => out.take limit.toNat
  | none => out

theorem arrange_perm (group : α → Group) (out : List α) : (arrange group none out).Perm out :=
  List.perm_insertionSort ..

end Group

def bucketStart (bucket instant : Int) : String := toString (instant.tdiv bucket * bucket)

/-- Only a positive size makes buckets. -/
def bucketSize (timeBucketMs : Option Int) : Option Int := timeBucketMs.filter fun b => 0 < b

namespace WorkflowAggregateQuery

def AGG_DIMENSIONS : List String := ["status", "name", "queue_name", "executor_id", "application_version"]

def enabledColumns (q : WorkflowAggregateQuery) : List String :=
  ((AGG_DIMENSIONS.zip [q.byStatus, q.byName, q.byQueueName, q.byExecutorId, q.byAppVersion]).filter (·.2)).map (·.1)

end WorkflowAggregateQuery

/-- What the query did not select is absent. -/
structure WorkflowAggregate where
  group : Group
  count : Option Int
  minCreatedAt : Option Int
  maxQueueWaitMs : Option Int
  maxTotalLatencyMs : Option Int
deriving DecidableEq, Repr

namespace Memory

/-- The conditions under which the loop goes on to the next row. -/
def skipped (q : WorkflowAggregateQuery) (w : WorkflowStatus) : Bool :=
  let created := w.createdAt.timestampMillis
  (!q.status.isEmpty && !q.status.contains w.status) ||
  (!q.name.isEmpty && !q.name.contains w.name) ||
  (!q.appVersion.isEmpty && !q.appVersion.contains w.appVersion) ||
  (!q.executorIds.isEmpty && !q.executorIds.contains w.executorId) ||
  (!q.queueNames.isEmpty && !q.queueNames.any fun name => w.queueName == some name) ||
  q.workflowIdPrefix.any (fun start => !startsWith w.id start) ||
  q.startTimeMs.any (fun t => decide (created < t)) ||
  q.endTimeMs.any (fun t => decide (t < created)) ||
  q.completedAfterMs.any (fun t => w.completedAtMs.all fun c => decide (c < t)) ||
  q.completedBeforeMs.any (fun t => w.completedAtMs.all fun c => decide (t < c)) ||
  q.dequeuedAfterMs.any (fun t => w.startedAtMs.all fun d => decide (d < t)) ||
  q.dequeuedBeforeMs.any (fun t => w.startedAtMs.all fun d => decide (t < d))

def dimension (w : WorkflowStatus) (dim : String) : Option String :=
  if dim = "status" then some w.status.toString
  else if dim = "name" then some w.name
  else if dim = "queue_name" then w.queueName
  else if dim = "executor_id" then some w.executorId
  else if dim = "application_version" then some w.appVersion
  else none

def groupKey (q : WorkflowAggregateQuery) (w : WorkflowStatus) : List (String × Option String) :=
  q.enabledColumns.map (fun dim => (dim, dimension w dim)) ++
    (bucketSize q.timeBucketMs).toList.map fun bucket =>
      ("time_bucket", some (bucketStart bucket w.createdAt.timestampMillis))

/-- The accumulator of one group: a measure is absent until a row has it. -/
structure Acc where
  count : Int := 0
  minCreated : Option Int := none
  maxQueueWait : Option Int := none
  maxTotalLatency : Option Int := none

def Acc.add (acc : Acc) (w : WorkflowStatus) : Acc :=
  let created := w.createdAt.timestampMillis
  { count := acc.count + 1
    minCreated := Grouping.lower acc.minCreated created
    maxQueueWait := Grouping.raise acc.maxQueueWait (w.startedAtMs.map fun s => asI64 (s - created))
    maxTotalLatency := Grouping.raise acc.maxTotalLatency (w.completedAtMs.map fun c => asI64 (c - created)) }

def Acc.aggregate (q : WorkflowAggregateQuery) (key : List (String × Option String)) (acc : Acc) :
    WorkflowAggregate where
  group := Group.collect key
  count := if q.selectCount then some acc.count else none
  minCreatedAt := if q.selectMinCreatedAt then acc.minCreated else none
  maxQueueWaitMs := if q.selectMaxQueueWaitMs then acc.maxQueueWait else none
  maxTotalLatencyMs := if q.selectMaxTotalLatencyMs then acc.maxTotalLatency else none

def getWorkflowAggregates (q : WorkflowAggregateQuery) (s : Inner) : Answer (List WorkflowAggregate) :=
  let rows := s.workflows.values.filter fun w => !skipped q w
  let accs := Grouping.groupBy (groupKey q) Acc.add {} rows
  (.ok (Group.arrange (·.group) q.limit (accs.toList.map fun entry => entry.2.aggregate q entry.1)), s)

end Memory

namespace WorkflowAggregateQuery

/-- The listing's filter of the same conditions. -/
def listFilter (q : WorkflowAggregateQuery) : ListFilter where
  name := q.name
  status := q.status
  queueName := q.queueNames
  appVersion := q.appVersion
  executorIds := q.executorIds
  workflowIdPrefix := q.workflowIdPrefix.toList
  startTimeMs := q.startTimeMs
  endTimeMs := q.endTimeMs
  completedAfterMs := q.completedAfterMs
  completedBeforeMs := q.completedBeforeMs
  dequeuedAfterMs := q.dequeuedAfterMs
  dequeuedBeforeMs := q.dequeuedBeforeMs

def groupOf (q : WorkflowAggregateQuery) (w : WorkflowStatus) : Group :=
  (if q.byAppVersion then [("application_version", some w.appVersion)] else []) ++
  (if q.byExecutorId then [("executor_id", some w.executorId)] else []) ++
  (if q.byName then [("name", some w.name)] else []) ++
  (if q.byQueueName then [("queue_name", w.queueName)] else []) ++
  (if q.byStatus then [("status", some w.status.toString)] else []) ++
  (bucketSize q.timeBucketMs).toList.map fun bucket =>
    ("time_bucket", some (bucketStart bucket w.createdAt.timestampMillis))

end WorkflowAggregateQuery

namespace Memory

open Grouping

/-- How long a row that was started waited for it. -/
def queueWait (w : WorkflowStatus) : Option Int := w.startedAtMs.map fun s => s - w.createdAt.timestampMillis

/-- How long a row that completed took from its creation. -/
def totalLatency (w : WorkflowStatus) : Option Int := w.completedAtMs.map fun c => c - w.createdAt.timestampMillis

/-- The groups of an answer partition the rows, and each reports what its own rows amount to. -/
structure Partition (q : WorkflowAggregateQuery) (rows : List WorkflowStatus)
    (out : List WorkflowAggregate) : Prop where
  distinct : (out.map (·.group)).Nodup
  own : ∀ w ∈ rows, ∃! a, a ∈ out ∧ a.group = q.groupOf w
  inhabited : ∀ a ∈ out, ∃ w ∈ rows, q.groupOf w = a.group
  total : q.selectCount = true → (out.map fun a => a.count.getD 0).sum = rows.length
  counted : ∀ a ∈ out, a.count =
    if q.selectCount then some ((members q.groupOf rows a.group).length : Int) else none
  created : ∀ a ∈ out, a.minCreatedAt =
    if q.selectMinCreatedAt then ((members q.groupOf rows a.group).map (·.createdAt.timestampMillis)).min? else none
  waited : ∀ a ∈ out, a.maxQueueWaitMs =
    if q.selectMaxQueueWaitMs then ((members q.groupOf rows a.group).filterMap queueWait).max? else none
  lasted : ∀ a ∈ out, a.maxTotalLatencyMs =
    if q.selectMaxTotalLatencyMs then ((members q.groupOf rows a.group).filterMap totalLatency).max? else none

/-- Each row's measure fits under `2 ^ 63`, and as 64 bits hold it, it does not exceed the measures of its group. -/
def Fits (q : WorkflowAggregateQuery) (rows : List WorkflowStatus) (measure : WorkflowStatus → Option Int) : Prop :=
  ∀ w ∈ rows, ∀ n ∈ measure w,
    n < 2 ^ 63 ∧ ∃ w' ∈ rows, q.groupOf w' = q.groupOf w ∧ ∃ n' ∈ measure w', asI64 n ≤ n'

/-- The measures that a query selects fit. -/
def Measurable (q : WorkflowAggregateQuery) (rows : List WorkflowStatus) : Prop :=
  (q.selectMaxQueueWaitMs = true → Fits q rows queueWait) ∧
    (q.selectMaxTotalLatencyMs = true → Fits q rows totalLatency)

theorem anyOf_eq [BEq α] (wanted : List α) (value : α) :
    anyOf wanted value = !(!wanted.isEmpty && !wanted.contains value) := by
  simp [anyOf]

theorem anyOfOption_eq [BEq α] [LawfulBEq α] (wanted : List α) (value : Option α) :
    anyOfOption wanted value = !(!wanted.isEmpty && !wanted.any fun v => value == some v) := by
  cases value with
  | none => simp [anyOfOption]
  | some v => simp [anyOfOption, ← List.contains_eq_any_beq]

theorem prefixes_eq (wanted : Option String) (id : String) :
    (wanted.toList.isEmpty || wanted.toList.any (startsWith id)) = !wanted.any fun start => !startsWith id start := by
  cases wanted <;> simp

theorem decide_le_eq (a b : Int) : decide (a ≤ b) = !decide (b < a) := by
  rw [Bool.eq_iff_iff]
  simp

/-- The lower bound on a time that every row has. -/
theorem from_eq (bound : Option Int) (time : Int) :
    (bound.all fun t => decide (t ≤ time)) = !bound.any fun t => decide (time < t) := by
  cases bound with
  | none => rfl
  | some t => simp [decide_le_eq]

theorem until_eq (bound : Option Int) (time : Int) :
    (bound.all fun t => decide (time ≤ t)) = !bound.any fun t => decide (t < time) := by
  cases bound with
  | none => rfl
  | some t => simp [decide_le_eq]

/-- The lower bound on a time that a row may lack drops such a row. -/
theorem after_eq (bound time : Option Int) :
    (bound.all fun t => time.any fun v => decide (t ≤ v)) = !bound.any fun t => time.all fun v => decide (v < t) := by
  cases bound with
  | none => rfl
  | some t => cases time <;> simp [decide_le_eq]

theorem before_eq (bound time : Option Int) :
    (bound.all fun t => time.any fun v => decide (v ≤ t)) = !bound.any fun t => time.all fun v => decide (t < v) := by
  cases bound with
  | none => rfl
  | some t => cases time <;> simp [decide_le_eq]

/-- The loop keeps the rows that the listing's filter matches. -/
theorem skipped_eq (q : WorkflowAggregateQuery) (s : Inner) (w : WorkflowStatus) :
    (!skipped q w) = matchesFilter q.listFilter s w := by
  simp only [matchesFilter, WorkflowAggregateQuery.listFilter, prefixes_eq, anyOf_eq, anyOfOption_eq, from_eq, until_eq,
    after_eq, before_eq]
  simp only [skipped, Bool.not_or, List.isEmpty_nil, Bool.not_true, Bool.false_and, Bool.not_false, Bool.true_and,
    Bool.and_true, Bool.true_or, Option.all_none]
  ac_rfl

/-- The map of a row's group is that of its own values. -/
theorem collect_groupKey (q : WorkflowAggregateQuery) (w : WorkflowStatus) :
    Group.collect (groupKey q w) = q.groupOf w := by
  simp only [groupKey, WorkflowAggregateQuery.groupOf, WorkflowAggregateQuery.enabledColumns,
    WorkflowAggregateQuery.AGG_DIMENSIONS]
  cases q.byStatus <;> cases q.byName <;> cases q.byQueueName <;> cases q.byExecutorId <;> cases q.byAppVersion <;>
    cases bucketSize q.timeBucketMs <;> simp [Group.collect, dimension]

theorem names_groupKey (q : WorkflowAggregateQuery) (w : WorkflowStatus) :
    (groupKey q w).map (·.1) = q.enabledColumns ++ (bucketSize q.timeBucketMs).toList.map fun _ => "time_bucket" := by
  simp [groupKey, Function.comp_def]

theorem nodup_names (q : WorkflowAggregateQuery) (w : WorkflowStatus) : ((groupKey q w).map (·.1)).Nodup := by
  have columns : q.enabledColumns.Sublist WorkflowAggregateQuery.AGG_DIMENSIONS :=
    List.Sublist.map Prod.fst (List.filter_sublist (p := Prod.snd) (l := WorkflowAggregateQuery.AGG_DIMENSIONS.zip
      [q.byStatus, q.byName, q.byQueueName, q.byExecutorId, q.byAppVersion]))
  have bucket : ((bucketSize q.timeBucketMs).toList.map fun _ => "time_bucket").Sublist ["time_bucket"] := by
    cases bucketSize q.timeBucketMs <;> simp
  rw [names_groupKey]
  exact List.Nodup.sublist (columns.append bucket) (by decide)

theorem groupKey_eq_iff (q : WorkflowAggregateQuery) (w w' : WorkflowStatus) :
    groupKey q w = groupKey q w' ↔ q.groupOf w = q.groupOf w' := by
  constructor
  · intro same
    rw [← collect_groupKey, same, collect_groupKey]
  · intro same
    have perm : (groupKey q w).Perm (groupKey q w') := by
      calc groupKey q w
        _ |>.Perm (Group.collect (groupKey q w)) := (List.perm_insertionSort ..).symm
        _ |>.Perm (Group.collect (groupKey q w')) := by rw [collect_groupKey, same, collect_groupKey]
        _ |>.Perm (groupKey q w') := List.perm_insertionSort ..
    exact Grouping.eq_of_perm perm (by rw [names_groupKey, names_groupKey]) (nodup_names q w')

theorem foldl_add (rows : List WorkflowStatus) (acc : Acc) :
    rows.foldl Acc.add acc =
      { count := rows.foldl (fun n _ => n + 1) acc.count
        minCreated := rows.foldl (fun best w => lower best w.createdAt.timestampMillis) acc.minCreated
        maxQueueWait := rows.foldl (fun best w => raise best ((queueWait w).map asI64)) acc.maxQueueWait
        maxTotalLatency :=
          rows.foldl (fun best w => raise best ((totalLatency w).map asI64)) acc.maxTotalLatency } := by
  induction rows generalizing acc with
  | nil => rfl
  | cons w rows ih => simp [ih, Acc.add, queueWait, totalLatency, Function.comp_def]

def aggregateOf (q : WorkflowAggregateQuery) (group : Group) (rows : List WorkflowStatus) : WorkflowAggregate where
  group := group
  count := if q.selectCount then some rows.length else none
  minCreatedAt := if q.selectMinCreatedAt then (rows.map (·.createdAt.timestampMillis)).min? else none
  maxQueueWaitMs := if q.selectMaxQueueWaitMs then ((rows.filterMap queueWait).map asI64).max? else none
  maxTotalLatencyMs := if q.selectMaxTotalLatencyMs then ((rows.filterMap totalLatency).map asI64).max? else none

theorem aggregate_foldl (q : WorkflowAggregateQuery) (key : List (String × Option String))
    (rows : List WorkflowStatus) :
    (rows.foldl Acc.add {}).aggregate q key = aggregateOf q (Group.collect key) rows := by
  simp only [foldl_add, foldl_count, foldl_lower, foldl_raise, Acc.aggregate, aggregateOf, List.map_filterMap, zero_add]

theorem members_groupKey (q : WorkflowAggregateQuery) (rows : List WorkflowStatus) (w : WorkflowStatus) :
    members (groupKey q) rows (groupKey q w) = members q.groupOf rows (q.groupOf w) :=
  List.filter_congr fun w' _ => by simp [groupKey_eq_iff]

section
variable (q : WorkflowAggregateQuery) (rows : List WorkflowStatus)

def aggregates : List WorkflowAggregate :=
  (groupBy (groupKey q) Acc.add {} rows).toList.map fun entry => entry.2.aggregate q entry.1

theorem mem_aggregates (a : WorkflowAggregate) :
    a ∈ aggregates q rows ↔ ∃ w ∈ rows, a = aggregateOf q (q.groupOf w) (members q.groupOf rows (q.groupOf w)) := by
  simp only [aggregates, List.mem_map, Prod.exists, mem_groupBy]
  constructor
  · rintro ⟨_, _, ⟨⟨w, member, rfl⟩, rfl⟩, rfl⟩
    exact ⟨w, member, by rw [aggregate_foldl, collect_groupKey, members_groupKey]⟩
  · rintro ⟨w, member, rfl⟩
    exact ⟨_, _, ⟨⟨w, member, rfl⟩, rfl⟩, by rw [aggregate_foldl, collect_groupKey, members_groupKey]⟩

theorem nodup_groups : ((aggregates q rows).map (·.group)).Nodup := by
  have groups : (aggregates q rows).map (·.group) =
      ((groupBy (groupKey q) Acc.add {} rows).toList.map (·.1)).map Group.collect := by
    simp [aggregates, Acc.aggregate, Function.comp_def]
  have keys := keys_groupBy (groupKey q) Acc.add {} rows
  rw [groups]
  apply List.Nodup.map_on _ (keys.nodup_iff.mpr (List.nodup_dedup _))
  intro key member key' member' same
  rw [keys.mem_iff, List.mem_dedup, List.mem_map] at member member'
  obtain ⟨w, _, rfl⟩ := member
  obtain ⟨w', _, rfl⟩ := member'
  rw [collect_groupKey, collect_groupKey] at same
  exact (groupKey_eq_iff q w w').mpr same

theorem sum_counts (selected : q.selectCount = true) :
    ((aggregates q rows).map fun a => a.count.getD 0).sum = rows.length := by
  have counts : (aggregates q rows).map (fun a => a.count.getD 0) =
      (((groupBy (groupKey q) Acc.add {} rows).toList.map (·.1)).map fun key =>
        (members (groupKey q) rows key).length).map Nat.cast := by
    rw [aggregates, map_groupBy _ _ _ _ fun key (acc : Acc) => acc.aggregate q key]
    simp [aggregate_foldl, aggregateOf, selected]
  rw [counts]
  exact (map_list_sum (Nat.castAddMonoidHom ℤ) _).symm.trans
    (congrArg Nat.cast (sum_members (groupKey q) rows (keys_groupBy (groupKey q) Acc.add {} rows)))

end

/-- The maxima of a group are exact when its measures fit. -/
theorem fits_iff (q : WorkflowAggregateQuery) (rows : List WorkflowStatus) (measure : WorkflowStatus → Option Int) :
    Fits q rows measure ↔ ∀ w ∈ rows,
      (((members q.groupOf rows (q.groupOf w)).filterMap measure).map asI64).max? =
        ((members q.groupOf rows (q.groupOf w)).filterMap measure).max? := by
  have exact_iff (group : Group) := max?_read_iff (fun n low high => asI64_of_fits low high) asI64_range
    ((members q.groupOf rows group).filterMap measure) [] (by simp)
  simp only [List.append_nil] at exact_iff
  simp only [exact_iff, Fits]
  constructor
  · intro fits w _
    refine ⟨fun n measured => ?_, by simp⟩
    obtain ⟨w', member, has⟩ := List.mem_filterMap.mp measured
    obtain ⟨there, same⟩ := mem_members.mp member
    obtain ⟨small, v, other, alike, n', has', le⟩ := fits w' there n has
    exact ⟨small, n', List.mem_filterMap.mpr ⟨v, mem_members.mpr ⟨other, alike.trans same⟩, has'⟩, le⟩
  · intro fits w member n has
    obtain ⟨small, n', measured, le⟩ := (fits w member).1 n
      (List.mem_filterMap.mpr ⟨w, mem_members.mpr ⟨member, rfl⟩, has⟩)
    obtain ⟨w', member', has'⟩ := List.mem_filterMap.mp measured
    obtain ⟨there, same⟩ := mem_members.mp member'
    exact ⟨small, w', there, same, n', has', le⟩

/-- Of the parts of a partition only the two maxima depend on how the measures are held. -/
theorem partition_aggregates_iff (q : WorkflowAggregateQuery) (rows : List WorkflowStatus) {out : List WorkflowAggregate}
    (perm : out.Perm (aggregates q rows)) : Partition q rows out ↔ Measurable q rows := by
  have reported (a : WorkflowAggregate) := perm.mem_iff.trans (mem_aggregates q rows a)
  have shown (w : WorkflowStatus) (member : w ∈ rows) :=
    (reported (aggregateOf q (q.groupOf w) (members q.groupOf rows (q.groupOf w)))).mpr ⟨w, member, rfl⟩
  constructor
  · intro partition
    refine ⟨fun selected => (fits_iff q rows queueWait).mpr fun w member => ?_,
      fun selected => (fits_iff q rows totalLatency).mpr fun w member => ?_⟩
    · simpa [aggregateOf, selected] using partition.waited _ (shown w member)
    · simpa [aggregateOf, selected] using partition.lasted _ (shown w member)
  · rintro ⟨waits, lasts⟩
    have distinct : (out.map (·.group)).Nodup := (perm.map _).nodup_iff.mpr (nodup_groups q rows)
    constructor
    case distinct => exact distinct
    case own =>
      intro w member
      refine ⟨_, ⟨shown w member, rfl⟩, ?_⟩
      rintro a ⟨there, same⟩
      obtain ⟨w', _, rfl⟩ := (reported a).mp there
      have same : q.groupOf w' = q.groupOf w := same
      rw [same]
    case inhabited =>
      intro a there
      obtain ⟨w, member, rfl⟩ := (reported a).mp there
      exact ⟨w, member, rfl⟩
    case total =>
      intro selected
      rw [(perm.map fun a => a.count.getD 0).sum_eq, sum_counts q rows selected]
    case waited =>
      intro a there
      obtain ⟨w, member, rfl⟩ := (reported a).mp there
      by_cases selected : q.selectMaxQueueWaitMs = true
      · simpa [aggregateOf, selected] using (fits_iff q rows queueWait).mp (waits selected) w member
      · simp [aggregateOf, selected]
    case lasted =>
      intro a there
      obtain ⟨w, member, rfl⟩ := (reported a).mp there
      by_cases selected : q.selectMaxTotalLatencyMs = true
      · simpa [aggregateOf, selected] using (fits_iff q rows totalLatency).mp (lasts selected) w member
      · simp [aggregateOf, selected]
    all_goals
      intro a there
      obtain ⟨w, member, rfl⟩ := (reported a).mp there
      rfl

theorem Partition.of_perm {rows rows' : List WorkflowStatus} (perm : rows.Perm rows') {out : List WorkflowAggregate}
    (partition : Partition q rows out) : Partition q rows' out := by
  have own (group : Group) : (members q.groupOf rows group).Perm (members q.groupOf rows' group) := perm.filter _
  constructor
  case distinct => exact partition.distinct
  case own => exact fun w member => partition.own w (perm.mem_iff.mpr member)
  case inhabited =>
    intro a there
    obtain ⟨w, member, same⟩ := partition.inhabited a there
    exact ⟨w, perm.mem_iff.mp member, same⟩
  case total => exact fun selected => perm.length_eq ▸ partition.total selected
  case counted => exact fun a there => (own a.group).length_eq ▸ partition.counted a there
  case created => exact fun a there => min?_perm ((own a.group).map _) ▸ partition.created a there
  case waited => exact fun a there => max?_perm ((own a.group).filterMap _) ▸ partition.waited a there
  case lasted => exact fun a there => max?_perm ((own a.group).filterMap _) ▸ partition.lasted a there

theorem loaded_listFilter (q : WorkflowAggregateQuery) (w : WorkflowStatus) : loaded q.listFilter w = w := rfl

theorem listWorkflows_listFilter (q : WorkflowAggregateQuery) (s : Inner) :
    listWorkflows q.listFilter s = (.ok (sortedMatches q.listFilter s), s) := by
  have same : loaded q.listFilter = id := funext (loaded_listFilter q)
  simp only [listWorkflows, same, List.map_id]
  rfl

theorem sortedMatches_listFilter (q : WorkflowAggregateQuery) (s : Inner) :
    (sortedMatches q.listFilter s).Perm (s.workflows.values.filter fun w => !skipped q w) := by
  have kept := List.filter_congr (l := s.workflows.values) fun w _ => skipped_eq q s w
  exact kept ▸ sortedMatches_perm q.listFilter s

theorem partition_listed_iff {q : WorkflowAggregateQuery} {s : Inner} (unlimited : q.limit = none)
    {out : List WorkflowAggregate} (answered : getWorkflowAggregates q s = (.ok out, s)) :
    Partition q (sortedMatches q.listFilter s) out ↔ Measurable q (sortedMatches q.listFilter s) := by
  have perm := sortedMatches_listFilter q s
  have arranged : out.Perm (aggregates q (s.workflows.values.filter fun w => !skipped q w)) := by
    cases answered
    rw [unlimited]
    exact Group.arrange_perm WorkflowAggregate.group _
  have same : Measurable q (sortedMatches q.listFilter s) ↔
      Measurable q (s.workflows.values.filter fun w => !skipped q w) := by
    simp only [Measurable, Fits, perm.mem_iff]
  rw [same, ← partition_aggregates_iff q _ arranged]
  exact ⟨fun partition => partition.of_perm perm, fun partition => partition.of_perm perm.symm⟩

/-- The groups partition the listing of the same conditions exactly when the differences that it selects fit. -/
theorem aggregates_partition_iff (q : WorkflowAggregateQuery) (s : Inner) (unlimited : q.limit = none) :
    ∃ rows out, listWorkflows q.listFilter s = (.ok rows, s) ∧ getWorkflowAggregates q s = (.ok out, s) ∧
      (Partition q rows out ↔ Measurable q rows) :=
  ⟨_, _, listWorkflows_listFilter q s, rfl, partition_listed_iff unlimited rfl⟩

/-- An import may name the least start. -/
def startedLeast : List (DateTime × Call) :=
  [(0, .importWorkflow [{
    workflowStatus := [("workflow_uuid", .string "w"), ("status", .string "SUCCESS"),
      ("created_at", .number (.posInt 1)), ("started_at_epoch_ms", .number (.negInt (Fin.last _)))]
    operationOutputs := []
    workflowEvents := []
    streams := [] }])]

theorem startedLeast_partition :
    ∃ rows out,
      listWorkflows ({ byStatus := true, selectCount := true } : WorkflowAggregateQuery).listFilter
        (run (.reading []) startedLeast Inner.new) = (.ok rows, run (.reading []) startedLeast Inner.new) ∧
      getWorkflowAggregates { byStatus := true, selectCount := true } (run (.reading []) startedLeast Inner.new) =
        (.ok out, run (.reading []) startedLeast Inner.new) ∧
      (Partition { byStatus := true, selectCount := true } rows out ↔
        Measurable { byStatus := true, selectCount := true } rows) :=
  aggregates_partition_iff { byStatus := true, selectCount := true } (run (.reading []) startedLeast Inner.new) rfl

/-- Its wait is below any that 64 bits hold, and wraps to the longest. -/
theorem least_start_wraps :
    ∃ s q, Reachable (.reading []) s ∧ q.limit = none ∧ ∃ rows out,
      listWorkflows q.listFilter s = (.ok rows, s) ∧ getWorkflowAggregates q s = (.ok out, s) ∧
      rows.map queueWait = [some (-9223372036854775809)] ∧
      out = [⟨[("status", some "SUCCESS")], none, none, some 9223372036854775807, none⟩] ∧ ¬ Partition q rows out := by
  refine ⟨run (.reading []) startedLeast Inner.new, { byStatus := true, selectMaxQueueWaitMs := true }, ⟨_, rfl⟩, rfl,
    _, _, listWorkflows_listFilter _ _, rfl, by decide, by decide, fun partition => ?_⟩
  exact absurd
    (partition.waited ⟨[("status", some "SUCCESS")], none, none, some 9223372036854775807, none⟩ (by decide))
    (by decide)

end Memory

end Durare

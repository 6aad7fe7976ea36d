import Durare.Closure
import Durare.Filters
import Durare.Sqlite

/-! Cancelling workflows together with those that their parent links lead to. -/
namespace Durare

namespace Memory

def ParentOf (s : Inner) (parent child : String) : Prop :=
  ∃ row, s.workflows.get child = some row ∧ row.parentWorkflowId = some parent

/-- Parent links lead from one of the ids to `id`, if only none of them. -/
def Descends (s : Inner) (ids : List String) (id : String) : Prop :=
  ∃ root ∈ ids, Relation.ReflTransGen (ParentOf s) root id

def childrenOf (s : Inner) (parent : String) : List String :=
  s.workflows.keysOf fun row => row.parentWorkflowId == some parent

theorem mem_childrenOf {s : Inner} {parent child : String} : child ∈ childrenOf s parent ↔ ParentOf s parent child := by
  simp [childrenOf, ParentOf, Table.mem_keysOf]

theorem descends_iff {s : Inner} {ids : List String} {id : String} :
    Descends s ids id ↔ Closure.Reached (childrenOf s) ids id := by
  have same : ParentOf s = Closure.Leads (childrenOf s) := by
    funext parent child
    exact propext mem_childrenOf.symm
  rw [Descends, Closure.Reached, same]

theorem childrenOf_stored {s : Inner} (parent child : String) (member : child ∈ childrenOf s parent) :
    child ∈ s.workflows.toList.map (·.1) := by
  obtain ⟨row, stored, -⟩ := mem_childrenOf.mp member
  exact List.mem_map.mpr ⟨(child, row), (Table.mem_toList _ _ _).mpr stored, rfl⟩

theorem collectChildren_eq (s : Inner) (parent : String) (targets : List String) :
    collectChildren s.workflows.toList parent targets =
      targets ++ Closure.inserted targets (childrenOf s parent) := by
  rw [← Closure.foldl_inserted, childrenOf, Table.keysOf, List.foldl_map, List.foldl_filter, collectChildren]
  congr 1
  funext targets row
  by_cases child : row.2.parentWorkflowId = some parent
  · by_cases known : row.1 ∈ targets <;> simp [child, known]
  · simp [child]

theorem expandTargets_eq (s : Inner) (fuel i : Nat) (targets : List String) :
    expandTargets s.workflows.toList fuel i targets = Closure.grow (childrenOf s) fuel i targets := by
  induction fuel generalizing i targets with
  | zero => rfl
  | succ fuel ih =>
    rw [expandTargets, Closure.grow]
    cases targets[i]? with
    | none => rfl
    | some parent => simp only [ih, collectChildren_eq]

theorem mem_targetsWithChildren {s : Inner} {ids : List String} {id : String} :
    id ∈ targetsWithChildren ids s ↔ Descends s ids id := by
  rw [targetsWithChildren, expandTargets_eq, descends_iff]
  exact Closure.mem_grow childrenOf_stored (by rw [List.length_map]; omega) id

/-- The list has come to its end within the rounds allowed for. -/
theorem expandTargets_ends (s : Inner) (ids : List String) (fuel : Nat)
    (enough : ids.length + s.workflows.toList.length < fuel) :
    expandTargets s.workflows.toList fuel 0 ids = targetsWithChildren ids s := by
  rw [targetsWithChildren, expandTargets_eq, expandTargets_eq]
  exact Closure.grow_more childrenOf_stored (by rw [List.length_map]; omega) (by omega)

/-- `list_workflows` by parents, the loads switched off. -/
def childListing (s : Inner) (parents : List String) : List String :=
  listedIds { parentWorkflowIds := parents, loadInput := false, loadOutput := false } s

theorem mem_childListing {s : Inner} (keyed : Keyed s) (parents : List String) (child : String)
    (some_parent : parents ≠ []) :
    child ∈ childListing s parents ↔ ∃ parent ∈ parents, child ∈ childrenOf s parent := by
  have named (row : WorkflowStatus) : matchesFilter
      { parentWorkflowIds := parents, loadInput := false, loadOutput := false } s row =
        row.parentWorkflowId.any fun parent => parents.contains parent := by
    simp [matchesFilter, anyOf, anyOfOption, some_parent]
  rw [childListing, listedIds_eq _ _ rfl, List.mem_map]
  constructor
  · rintro ⟨row, member, rfl⟩
    obtain ⟨⟨id, stored⟩, accepted⟩ := (mem_sortedMatches _ _ _).mp member
    rw [named, Option.any_eq_true] at accepted
    obtain ⟨parent, link, member⟩ := accepted
    rw [keyed id row stored]
    exact ⟨parent, List.contains_iff_mem.mp member, mem_childrenOf.mpr ⟨row, stored, link⟩⟩
  · rintro ⟨parent, member, child⟩
    obtain ⟨row, stored, link⟩ := mem_childrenOf.mp child
    refine ⟨row, (mem_sortedMatches _ _ _).mpr ⟨⟨_, stored⟩, ?_⟩, keyed _ row stored⟩
    rw [named, link]
    exact List.contains_iff_mem.mpr member

def cancelWorkflows (now : DateTime) (ids : List String) (s : Inner) : Answer Unit :=
  cancelWorkflowsWithOptions now ids {} s

/-- The trait's default: the children of a whole frontier are listed until none of them is new.
`iterate` is the order in which a hash set gives its members. -/
def cancelByListing (iterate : List String → List String) (fuel : Nat) (now : DateTime) (ids : List String)
    (options : CancelOptions) (s : Inner) : Option (Answer Unit) :=
  if !options.cancelChildren || ids.isEmpty then some (cancelWorkflows now ids s)
  else
    let frontier := iterate ids.dedup
    (Closure.sweep (childListing s) fuel frontier frontier).map fun targets => cancelWorkflows now (iterate targets) s

/-- The row leaves its work to a cancellation. -/
def Cancellable (row : WorkflowStatus) : Prop := row.status ≠ .success ∧ row.status ≠ .error ∧ row.status ≠ .cancelled

def Hit (s : Inner) (ids : List String) (id : String) : Prop :=
  Descends s ids id ∧ ∃ row, s.workflows.get id = some row ∧ Cancellable row

theorem cancelRow_hit (now : DateTime) (row : WorkflowStatus) (cancellable : Cancellable row) :
    (cancelRow now row).status = .cancelled := by
  obtain ⟨open_success, open_error, open_cancelled⟩ := cancellable
  cases same : row.status <;> simp_all [cancelRow, Status.isCompleted]

theorem cancelRow_spared (now : DateTime) (row : WorkflowStatus) (settled : ¬ Cancellable row) :
    cancelRow now row = row := by
  unfold Cancellable at settled
  unfold cancelRow
  cases same : row.status <;> simp_all [Status.isCompleted]

/-- What a cancellation of these targets does to the rows, whatever the order of the targets. -/
theorem cancelled_get (now : DateTime) (targets : List String) (s : Inner) (id : String) :
    (targets.foldl (fun t id => t.modify id (cancelRow now)) s.workflows).get id =
      if id ∈ targets then (s.workflows.get id).map (cancelRow now) else s.workflows.get id :=
  Table.get_foldl_modify (cancelRow now) (cancelRow_idem now) targets s.workflows id

theorem cancelled_hit {now : DateTime} {ids targets : List String} {s : Inner}
    (targeted : ∀ id, id ∈ targets ↔ Descends s ids id) {id : String} (hit : Hit s ids id) :
    ∃ row, s.workflows.get id = some row ∧ (cancelRow now row).status = .cancelled ∧
      (targets.foldl (fun t id => t.modify id (cancelRow now)) s.workflows).get id = some (cancelRow now row) := by
  obtain ⟨descends, row, stored, cancellable⟩ := hit
  refine ⟨row, stored, cancelRow_hit now row cancellable, ?_⟩
  rw [cancelled_get, if_pos ((targeted id).mpr descends), stored]
  rfl

theorem cancelled_spared {now : DateTime} {ids targets : List String} {s : Inner}
    (targeted : ∀ id, id ∈ targets ↔ Descends s ids id) {id : String} (spared : ¬ Hit s ids id) :
    (targets.foldl (fun t id => t.modify id (cancelRow now)) s.workflows).get id = s.workflows.get id := by
  rw [cancelled_get]
  by_cases target : id ∈ targets
  · rw [if_pos target]
    cases stored : s.workflows.get id with
    | none => rfl
    | some row =>
      have settled : ¬ Cancellable row := fun cancellable =>
        spared ⟨(targeted id).mp target, row, stored, cancellable⟩
      rw [Option.map_some, cancelRow_spared now row settled]
  · rw [if_neg target]

/-- The sweeps end, and bring in the same targets. -/
theorem sweep_targets {s : Inner} (keyed : Keyed s) (ids frontier : List String) (same : ∀ id, id ∈ frontier ↔ id ∈ ids)
    (fuel : Nat) (enough : s.workflows.toList.length < fuel) :
    ∃ targets, Closure.sweep (childListing s) fuel frontier frontier = some targets ∧
      ∀ id, id ∈ targets ↔ Descends s ids id := by
  have enough : (s.workflows.toList.map (·.1)).length < fuel := by rwa [List.length_map]
  obtain ⟨targets, ends, members⟩ :
      ∃ targets, Closure.sweep (childListing s) fuel frontier frontier = some targets ∧
        ∀ id, id ∈ targets ↔ Closure.Reached (childrenOf s) frontier id :=
    Closure.mem_sweep childrenOf_stored (mem_childListing keyed) enough
  refine ⟨targets, ends, fun id => ?_⟩
  rw [members, descends_iff, Closure.Reached, Closure.Reached]
  simp only [same]

end Memory

namespace Sqlite

def childrenOf (db : Db) (parent : String) : List String :=
  db.workflowStatus.keysOf fun r => r.parentWorkflowId == some parent

theorem childrenOf_stored {db : Db} (parent child : String) (member : child ∈ childrenOf db parent) :
    child ∈ db.workflowStatus.toList.map (·.1) := by
  obtain ⟨r, stored, -⟩ := (Table.mem_keysOf _ _ _).mp member
  exact List.mem_map.mpr ⟨(child, r), (Table.mem_toList _ _ _).mpr stored, rfl⟩

def cancelSeeds (ids : List String) (db : Db) : List String :=
  (db.workflowStatus.toList.filter fun row => ids.contains row.1 || row.2.parentWorkflowId.any ids.contains).map (·.1)

def cancelRecord (now : DateTime) (r : WorkflowRecord) : WorkflowRecord :=
  if r.status.isCompleted || r.status == .cancelled then r
  else
    { r with
      status := .cancelled
      completedAt := some now.timestampMillis
      startedAtMs := none
      queueName := none
      deduplicationId := none
      updatedAt := now.timestampMillis }

/-- What a cancellation binds: the ids, twice with children, and the six values of its update. -/
def cancelBinds (ids : List String) (options : CancelOptions) : Nat :=
  (if options.cancelChildren then 2 * ids.length else ids.length) + 6

/-- One update of the rows that the query names; `none` is a query that has not come to its end. -/
def cancelWorkflowsWithOptions (refuses : Limit) (fuel : Nat) (now : DateTime) (ids : List String)
    (options : CancelOptions) (db : Db) : Option (Answer Unit) :=
  if ids.isEmpty then some (.ok (), db)
  else
    match refuses (cancelBinds ids options) with
    | some e => some (.error e, db)
    | none =>
      let targets :=
        if options.cancelChildren then
          Closure.recursive (childrenOf db) fuel (cancelSeeds ids db) (cancelSeeds ids db)
        else some ids
      targets.map fun targets =>
        (.ok (), { db with workflowStatus := db.workflowStatus.mapValues fun id r =>
          if targets.contains id then cancelRecord now r else r })

end Sqlite

namespace Memory

/-- The two backends hold the same workflows, as far as status, parent and completion go. -/
structure Mirrors (s : Inner) (db : Sqlite.Db) : Prop where
  rows : ∀ id, (s.workflows.get id).map (fun row => (row.status, row.parentWorkflowId, row.completedAtMs)) =
    (db.workflowStatus.get id).map fun r => (r.status, r.parentWorkflowId, r.completedAt)

section Mirrored

variable {s : Inner} {db : Sqlite.Db} (mirrors : Mirrors s db)

include mirrors

theorem Mirrors.row {id : String} {row : WorkflowStatus} (stored : s.workflows.get id = some row) :
    ∃ r, db.workflowStatus.get id = some r ∧ r.status = row.status ∧ r.parentWorkflowId = row.parentWorkflowId ∧
      r.completedAt = row.completedAtMs := by
  have same := mirrors.rows id
  rw [stored, Option.map_some, eq_comm, Option.map_eq_some_iff] at same
  obtain ⟨r, found, columns⟩ := same
  simp only [Prod.mk.injEq] at columns
  exact ⟨r, found, columns⟩

theorem Mirrors.record {id : String} {r : Sqlite.WorkflowRecord} (stored : db.workflowStatus.get id = some r) :
    ∃ row, s.workflows.get id = some row ∧ r.status = row.status ∧ r.parentWorkflowId = row.parentWorkflowId ∧
      r.completedAt = row.completedAtMs := by
  have same := mirrors.rows id
  rw [stored, Option.map_some, Option.map_eq_some_iff] at same
  obtain ⟨row, found, columns⟩ := same
  simp only [Prod.mk.injEq] at columns
  exact ⟨row, found, columns.1.symm, columns.2.1.symm, columns.2.2.symm⟩

theorem Mirrors.mem_childrenOf {parent child : String} :
    child ∈ Sqlite.childrenOf db parent ↔ ParentOf s parent child := by
  simp only [Sqlite.childrenOf, Table.mem_keysOf, beq_iff_eq]
  constructor
  · rintro ⟨r, stored, link⟩
    obtain ⟨row, found, -, parent_eq, -⟩ := mirrors.record stored
    exact ⟨row, found, parent_eq ▸ link⟩
  · rintro ⟨row, stored, link⟩
    obtain ⟨r, found, -, parent_eq, -⟩ := mirrors.row stored
    exact ⟨r, found, parent_eq.trans link⟩

theorem Mirrors.mem_cancelSeeds {ids : List String} {id : String} : id ∈ Sqlite.cancelSeeds ids db ↔
    ∃ row, s.workflows.get id = some row ∧ (id ∈ ids ∨ ∃ parent ∈ ids, row.parentWorkflowId = some parent) := by
  simp only [Sqlite.cancelSeeds, List.mem_map, List.mem_filter, Bool.or_eq_true, List.contains_iff_mem, Option.any_eq_true]
  constructor
  · rintro ⟨⟨id, r⟩, ⟨member, seed⟩, rfl⟩
    obtain ⟨row, found, -, parent_eq, -⟩ := mirrors.record ((Table.mem_toList _ _ _).mp member)
    refine ⟨row, found, seed.imp (fun here => here) ?_⟩
    rintro ⟨parent, link, listed⟩
    exact ⟨parent, listed, parent_eq ▸ link⟩
  · rintro ⟨row, stored, seed⟩
    obtain ⟨r, found, -, parent_eq, -⟩ := mirrors.row stored
    refine ⟨(id, r), ⟨(Table.mem_toList _ _ _).mpr found, seed.imp (fun here => here) ?_⟩, rfl⟩
    rintro ⟨parent, listed, link⟩
    exact ⟨parent, parent_eq.trans link, listed⟩

/-- From the seeds the query reaches the stored descendants of the ids, whether the ids have rows or not. -/
theorem Mirrors.reached_iff {ids : List String} {id : String} :
    Closure.Reached (Sqlite.childrenOf db) (Sqlite.cancelSeeds ids db) id ↔
      Descends s ids id ∧ (s.workflows.get id).isSome = true := by
  constructor
  · rintro ⟨seed, member, path⟩
    induction path with
    | refl =>
      obtain ⟨row, stored, listed | ⟨parent, listed, link⟩⟩ := mirrors.mem_cancelSeeds.mp member
      · exact ⟨⟨seed, listed, .refl⟩, by rw [stored]; rfl⟩
      · exact ⟨⟨parent, listed, .single ⟨row, stored, link⟩⟩, by rw [stored]; rfl⟩
    | tail _ child ih =>
      obtain ⟨root, listed, before⟩ := ih.1
      have link := mirrors.mem_childrenOf.mp child
      have ⟨row, stored, _⟩ := link
      exact ⟨⟨root, listed, before.tail link⟩, by rw [stored]; rfl⟩
  · rintro ⟨⟨root, listed, path⟩, present⟩
    induction path with
    | refl =>
      obtain ⟨row, stored⟩ := Option.isSome_iff_exists.mp present
      exact .seed (mirrors.mem_cancelSeeds.mpr ⟨row, stored, .inl listed⟩)
    | @tail parent child before link ih =>
      have ⟨row, stored, named⟩ := link
      rcases Relation.ReflTransGen.cases_tail before with rfl | ⟨_, -, above⟩
      · -- The root may have no row; its children are seeds all the same.
        exact .seed (mirrors.mem_cancelSeeds.mpr ⟨row, stored, .inr ⟨_, listed, named⟩⟩)
      · obtain ⟨parentRow, parentStored, -⟩ := above
        exact (ih (by rw [parentStored]; rfl)).child (mirrors.mem_childrenOf.mpr link)

theorem Mirrors.query_ends (ids : List String) (fuel : Nat)
    (enough : (Sqlite.cancelSeeds ids db).length + db.workflowStatus.toList.length ≤ fuel) :
    ∃ targets, Closure.recursive (Sqlite.childrenOf db) fuel (Sqlite.cancelSeeds ids db) (Sqlite.cancelSeeds ids db) =
        some targets ∧
      ∀ id, id ∈ targets ↔ Descends s ids id ∧ (s.workflows.get id).isSome = true := by
  have enough : (Sqlite.cancelSeeds ids db).length + (db.workflowStatus.toList.map (·.1)).length ≤ fuel := by
    rwa [List.length_map]
  obtain ⟨targets, ends, members⟩ := Closure.mem_recursive Sqlite.childrenOf_stored enough
  exact ⟨targets, ends, fun id => (members id).trans mirrors.reached_iff⟩

end Mirrored

def mirrorRecord (row : WorkflowStatus) : Sqlite.WorkflowRecord where
  status := row.status
  name := row.name
  inputs := none
  serialization := none
  executorId := some row.executorId
  applicationVersion := some row.appVersion
  parentWorkflowId := row.parentWorkflowId
  createdAt := row.createdAt.timestampMillis
  updatedAt := row.updatedAt.timestampMillis
  completedAt := row.completedAtMs

def mirrorOf (s : Inner) : Sqlite.Db :=
  { Sqlite.Db.new with
    workflowStatus := (s.workflows.toList.map fun entry => (entry.1, mirrorRecord entry.2)).foldl
      (fun t row => t.put row.1 row.2) ∅ }

theorem mirrors_mirrorOf (s : Inner) : Mirrors s (mirrorOf s) where
  rows id := by
    cases stored : s.workflows.get id with
    | none =>
      have absent : (mirrorOf s).workflowStatus.get id = none := by
        rw [mirrorOf, Table.get_foldl_put_ne]
        · rfl
        · rintro row member rfl
          obtain ⟨⟨id, w⟩, entry, rfl⟩ := List.mem_map.mp member
          rw [(Table.mem_toList _ _ _).mp entry] at stored
          cases stored
      rw [absent]
      rfl
    | some row =>
      have member : (id, mirrorRecord row) ∈ s.workflows.toList.map fun entry => (entry.1, mirrorRecord entry.2) :=
        List.mem_map.mpr ⟨(id, row), (Table.mem_toList _ _ _).mpr stored, rfl⟩
      rw [mirrorOf, Table.get_foldl_put_mem _ _ _ _ member]
      · rfl
      · intro r other
        obtain ⟨⟨id', w⟩, entry, same⟩ := List.mem_map.mp other
        cases same
        rw [(Table.mem_toList _ _ _).mp entry] at stored
        cases stored
        rfl

theorem cancelRecord_columns (now : DateTime) {row : WorkflowStatus} {r : Sqlite.WorkflowRecord}
    (status_eq : r.status = row.status) (parent_eq : r.parentWorkflowId = row.parentWorkflowId)
    (completed_eq : r.completedAt = row.completedAtMs) :
    (Sqlite.cancelRecord now r).status = (cancelRow now row).status ∧
      (Sqlite.cancelRecord now r).parentWorkflowId = (cancelRow now row).parentWorkflowId ∧
      (Sqlite.cancelRecord now r).completedAt = (cancelRow now row).completedAtMs := by
  rw [Sqlite.cancelRecord, cancelRow, status_eq]
  split
  · exact ⟨status_eq, parent_eq, completed_eq⟩
  · exact ⟨rfl, parent_eq, rfl⟩

/-- The rows that the query rewrites: those the loops cancel, and to the same columns. -/
theorem Mirrors.cancelled {s : Inner} {db : Sqlite.Db} (mirrors : Mirrors s db) (now : DateTime)
    {ids targets found : List String}
    (targeted : ∀ id, id ∈ targets ↔ Descends s ids id)
    (selected : ∀ id, id ∈ found ↔ Descends s ids id ∧ (s.workflows.get id).isSome = true) :
    Mirrors { s with workflows := targets.foldl (fun t id => t.modify id (cancelRow now)) s.workflows }
      { db with workflowStatus := db.workflowStatus.mapValues fun id r =>
        if found.contains id then Sqlite.cancelRecord now r else r } where
  rows id := by
    rw [cancelled_get, Table.get_mapValues]
    cases stored : s.workflows.get id with
    | none =>
      have absent := mirrors.rows id
      rw [stored, Option.map_none, eq_comm, Option.map_eq_none_iff] at absent
      rw [absent]
      simp
    | some row =>
      obtain ⟨r, held, status_eq, parent_eq, completed_eq⟩ := mirrors.row stored
      have same : id ∈ targets ↔ id ∈ found := by
        rw [targeted, selected, stored]
        simp
      rw [held]
      by_cases target : id ∈ targets
      · obtain ⟨status_eq, parent_eq, completed_eq⟩ := cancelRecord_columns now status_eq parent_eq completed_eq
        simp [target, same.mp target, status_eq, parent_eq, completed_eq]
      · simp [target, mt same.mpr target, status_eq, parent_eq, completed_eq]

/-- A cancellation with children ends, and cancels the rows of the descendants that have no
outcome and no other row; the trait's default and the recursive query do the same, unless the database
refuses so many ids: then it cancels nothing. -/
theorem cancel_descendants {lib : SerdeJson} {s : Inner} (reachable : Reachable lib s) (refuses : Sqlite.Limit)
    (now : DateTime) (ids : List String) :
    let after := (cancelWorkflowsWithOptions now ids ⟨true⟩ s).2
    (∀ fuel, ids.length + s.workflows.toList.length < fuel →
      expandTargets s.workflows.toList fuel 0 ids = targetsWithChildren ids s) ∧
    (cancelWorkflowsWithOptions now ids ⟨true⟩ s).1 = .ok () ∧
    (∀ id, Hit s ids id → ∃ row, s.workflows.get id = some row ∧ (cancelRow now row).status = .cancelled ∧
      after.workflows.get id = some (cancelRow now row)) ∧
    (∀ id, ¬ Hit s ids id → after.workflows.get id = s.workflows.get id) ∧
    after = { s with workflows := after.workflows } ∧
    (∀ iterate : List String → List String, (∀ members, (iterate members).Perm members) →
      ∀ fuel, s.workflows.toList.length < fuel →
        ∃ rows, cancelByListing iterate fuel now ids ⟨true⟩ s = some (.ok (), { s with workflows := rows }) ∧
          ∀ id, rows.get id = after.workflows.get id) ∧
    (ids = [] ∨ refuses (2 * ids.length + 6) = none → ∀ db, Mirrors s db → ∃ bound, ∀ fuel, bound ≤ fuel →
      ∃ records, Sqlite.cancelWorkflowsWithOptions refuses fuel now ids ⟨true⟩ db =
          some (.ok (), { db with workflowStatus := records }) ∧
        Mirrors after { db with workflowStatus := records } ∧
        ∀ id, ¬ Hit s ids id → records.get id = db.workflowStatus.get id) ∧
    (ids ≠ [] → ∀ e, refuses (2 * ids.length + 6) = some e → ∀ fuel db,
      Sqlite.cancelWorkflowsWithOptions refuses fuel now ids ⟨true⟩ db = some (.error e, db)) := by
  have targeted : ∀ id, id ∈ targetsWithChildren ids s ↔ Descends s ids id := fun _ => mem_targetsWithChildren
  refine ⟨expandTargets_ends s ids, rfl, fun id hit => cancelled_hit targeted hit,
    fun id spared => cancelled_spared targeted spared, rfl, ?_, ?_, ?_⟩
  · intro iterate perm fuel enough
    by_cases empty : ids = []
    · subst empty
      exact ⟨s.workflows, rfl, fun id => rfl⟩
    · have same : ∀ id, id ∈ iterate ids.dedup ↔ id ∈ ids := by
        intro id
        rw [(perm ids.dedup).mem_iff, List.mem_dedup]
      obtain ⟨targets, ends, members⟩ := sweep_targets reachable.keyed ids (iterate ids.dedup) same fuel enough
      have also : ∀ id, id ∈ iterate targets ↔ Descends s ids id := by
        intro id
        rw [(perm targets).mem_iff, members]
      refine ⟨(iterate targets).foldl (fun t id => t.modify id (cancelRow now)) s.workflows, ?_, fun id => ?_⟩
      · simp only [cancelByListing, ends, Bool.not_true, Bool.false_or, List.isEmpty_iff, empty, if_false,
          Option.map_some]
        rfl
      · have agree : id ∈ iterate targets ↔ id ∈ targetsWithChildren ids s := (also id).trans (targeted id).symm
        simp only [cancelWorkflowsWithOptions, if_true, cancelled_get]
        by_cases target : id ∈ iterate targets
        · rw [if_pos target, if_pos (agree.mp target)]
        · rw [if_neg target, if_neg (mt agree.mpr target)]
  · intro accepted db mirrors
    refine ⟨(Sqlite.cancelSeeds ids db).length + db.workflowStatus.toList.length, fun fuel enough => ?_⟩
    by_cases empty : ids = []
    · subst empty
      exact ⟨db.workflowStatus, rfl, mirrors, fun _ _ => rfl⟩
    · obtain ⟨found, ends, selected⟩ := mirrors.query_ends ids fuel enough
      have fits : refuses (2 * ids.length + 6) = none := accepted.resolve_left empty
      refine ⟨_, ?_, mirrors.cancelled now targeted selected, fun id spared => ?_⟩
      · simp only [Sqlite.cancelWorkflowsWithOptions, Sqlite.cancelBinds, fits, ends, List.isEmpty_iff, empty, if_false,
          if_true, Option.map_some]
      · rw [Table.get_mapValues]
        cases stored : db.workflowStatus.get id with
        | none => rfl
        | some r =>
          obtain ⟨row, held, status_eq, -⟩ := mirrors.record stored
          by_cases target : id ∈ found
          · have settled : ¬ Cancellable row := fun cancellable =>
              spared ⟨((selected id).mp target).1, row, held, cancellable⟩
            have kept : Sqlite.cancelRecord now r = r := by
              unfold Cancellable at settled
              unfold Sqlite.cancelRecord
              cases same : row.status <;> simp_all [Status.isCompleted]
            simp [target, kept]
          · simp [target]
  · intro some_ids e refused fuel db
    simp only [Sqlite.cancelWorkflowsWithOptions, Sqlite.cancelBinds, refused, List.isEmpty_iff, some_ids, if_false,
      if_true]

/-- Two workflows that name each other as parent, and the child of one that has no row. -/
def family : List (DateTime × Call) :=
  [(0, .insertWorkflowStatus { (.new 0 "a" "w" .null .pending "local" "v1" : WorkflowStatus) with
      parentWorkflowId := some "b" }),
   (0, .insertWorkflowStatus { (.new 0 "b" "w" .null .pending "local" "v1" : WorkflowStatus) with
      parentWorkflowId := some "a" }),
   (0, .insertWorkflowStatus { (.new 0 "c" "w" .null .pending "local" "v1" : WorkflowStatus) with
      parentWorkflowId := some "gone" })]

theorem family_cancelled :
    Hit (run (.reading []) family Inner.new) ["a", "gone"] "b" ∧ Hit (run (.reading []) family Inner.new) ["a", "gone"] "c" ∧
      ∀ id ∈ ["b", "c"], ∃ row,
        (cancelWorkflowsWithOptions 5 ["a", "gone"] ⟨true⟩ (run (.reading []) family Inner.new)).2.workflows.get id =
          some row ∧ row.status = .cancelled := by
  have b : Hit (run (.reading []) family Inner.new) ["a", "gone"] "b" :=
    ⟨⟨"a", by simp, .single ⟨_, rfl, rfl⟩⟩, _, rfl, Status.noConfusion, Status.noConfusion, Status.noConfusion⟩
  have c : Hit (run (.reading []) family Inner.new) ["a", "gone"] "c" :=
    ⟨⟨"gone", by simp, .single ⟨_, rfl, rfl⟩⟩, _, rfl, Status.noConfusion, Status.noConfusion, Status.noConfusion⟩
  obtain ⟨-, -, hits, -⟩ := cancel_descendants ⟨family, rfl⟩ Sqlite.variableLimit 5 ["a", "gone"]
  refine ⟨b, c, fun id member => ?_⟩
  have hit : Hit (run (.reading []) family Inner.new) ["a", "gone"] id := by
    rcases List.mem_cons.mp member with rfl | member
    · exact b
    · rw [List.mem_singleton.mp member]
      exact c
  obtain ⟨row, -, cancelled, stored⟩ := hits id hit
  exact ⟨_, stored, cancelled⟩

def solitary : Inner := run (.reading []) [(0, .insertWorkflowStatus (.new 0 "w" "job" .null .pending "local" "v1"))] Inner.new

/-- A list that the database refuses: the workflow is cancelled in memory alone. -/
theorem solitary_refused {refuses : Sqlite.Limit} {e : Error} {ids : List String} (listed : "w" ∈ ids)
    (refused : refuses (Sqlite.cancelBinds ids ⟨true⟩) = some e) :
    (∃ row, (cancelWorkflowsWithOptions 5 ids ⟨true⟩ solitary).2.workflows.get "w" = some row ∧
        row.status = .cancelled) ∧
      ∀ fuel db, Sqlite.cancelWorkflowsWithOptions refuses fuel 5 ids ⟨true⟩ db = some (.error e, db) := by
  have hit : Hit solitary ids "w" :=
    ⟨⟨"w", listed, .refl⟩, _, rfl, Status.noConfusion, Status.noConfusion, Status.noConfusion⟩
  have some_ids : ids ≠ [] := List.ne_nil_of_mem listed
  refine ⟨?_, fun fuel db => ?_⟩
  · obtain ⟨row, -, cancelled, stored⟩ := cancelled_hit (fun _ => mem_targetsWithChildren) hit
    exact ⟨_, stored, cancelled⟩
  · simp only [Sqlite.cancelWorkflowsWithOptions, refused, List.isEmpty_iff, some_ids, if_false]

theorem long_list_refused :
    Mirrors solitary (mirrorOf solitary) ∧
      (∃ row, (cancelWorkflowsWithOptions 5 (List.replicate 16381 "w") ⟨true⟩ solitary).2.workflows.get "w" = some row ∧
        row.status = .cancelled) ∧
      (∃ row, (mirrorOf solitary).workflowStatus.get "w" = some row ∧ row.status = .pending) ∧
      ∃ e, ∀ fuel, Sqlite.cancelWorkflowsWithOptions Sqlite.variableLimit fuel 5 (List.replicate 16381 "w") ⟨true⟩
        (mirrorOf solitary) = some (.error e, mirrorOf solitary) := by
  have listed : "w" ∈ List.replicate 16381 "w" := List.mem_replicate.mpr ⟨by simp, rfl⟩
  have bound : Sqlite.cancelBinds (List.replicate 16381 "w") ⟨true⟩ = 32768 := by
    rw [Sqlite.cancelBinds, List.length_replicate]
    rfl
  have refused : ∃ e, Sqlite.variableLimit (Sqlite.cancelBinds (List.replicate 16381 "w") ⟨true⟩) = some e := by
    rw [bound]
    exact ⟨_, rfl⟩
  obtain ⟨e, refused⟩ := refused
  obtain ⟨cancelled, answered⟩ := solitary_refused listed refused
  exact ⟨mirrors_mirrorOf solitary, cancelled, ⟨_, rfl, rfl⟩, e, fun fuel => answered fuel _⟩

end Memory

end Durare

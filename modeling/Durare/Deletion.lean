import Durare.Descendants

/-! Deleting workflows: what is left of them, and which rows either backend takes for theirs. -/
namespace Durare

namespace Sqlite

def deleteSeeds (ids : List String) (db : Db) : List String :=
  (db.workflowStatus.toList.filter fun row => ids.contains row.1).map (·.1)

/-- Deletes the rows of the targets; the foreign keys take what belongs to a deleted row along. -/
def deleteRows (targets : List String) (db : Db) : Db :=
  let gone id := targets.contains id && (db.workflowStatus.get id).isSome
  { workflowStatus := db.workflowStatus.retain fun id _ => !gone id
    operationOutputs := db.operationOutputs.retain fun key _ => !gone key.1
    notifications := db.notifications.filter fun n => !gone n.destinationUuid
    workflowEvents := db.workflowEvents.retain fun key _ => !gone key.1
    workflowEventsHistory := db.workflowEventsHistory.retain fun key _ => !gone key.1
    streams := db.streams.retain fun key _ => !gone key.1 }

/-- The statement binds each id once; `none` is a query that has not come to its end. -/
def deleteWorkflows (refuses : Limit) (fuel : Nat) (ids : List String) (deleteChildren : Bool) (db : Db) :
    Option (Answer Unit) :=
  if ids.isEmpty then some (.ok (), db)
  else
    match refuses ids.length with
    | some e => some (.error e, db)
    | none =>
      let targets :=
        if deleteChildren then Closure.recursive (childrenOf db) fuel (deleteSeeds ids db) (deleteSeeds ids db)
        else some ids
      targets.map fun targets => (.ok (), deleteRows targets db)

end Sqlite

namespace Memory

def Targeted (s : Inner) (ids : List String) (deleteChildren : Bool) (id : String) : Prop :=
  if deleteChildren then Descends s ids id else id ∈ ids

structure Clean (s : Inner) (id : String) : Prop where
  row : s.workflows.get id = none
  steps : ∀ seq, s.steps.get (id, seq) = none
  events : ∀ key, s.events.get (id, key) = none
  streams : ∀ key, s.streams.get (id, key) = none
  notifications : ∀ n ∈ s.notifications, n.destinationId ≠ id

structure Kept (s s' : Inner) (id : String) : Prop where
  row : s'.workflows.get id = s.workflows.get id
  steps : ∀ seq, s'.steps.get (id, seq) = s.steps.get (id, seq)
  events : ∀ key, s'.events.get (id, key) = s.events.get (id, key)
  streams : ∀ key, s'.streams.get (id, key) = s.streams.get (id, key)
  notifications : (s'.notifications.filter fun n => n.destinationId == id) =
    s.notifications.filter fun n => n.destinationId == id

/-- What an execution of `id` can read of its past: no checkpoint, event, stream value or message. -/
structure FreshHistory (lib : SerdeJson) (s : Inner) (id : String) : Prop where
  step : ∀ seq, (getStepResult lib id seq s).1 = .ok none
  event : ∀ key, (getEventValue id key s).1 = .ok none
  stream : ∀ key, s.streams.get (id, key) = none
  message : ∀ topic, oldest id topic s.notifications = none

/-- The deletion leaves nothing of its targets, all of the others, and takes the same rows as the
other backend. -/
structure LeavesNothing (refuses : Sqlite.Limit) (lib : SerdeJson) (s : Inner) (ids : List String) (deleteChildren : Bool) : Prop where
  clean : ∀ id, Targeted s ids deleteChildren id → Clean (deleteWorkflows ids deleteChildren s).2 id
  kept : ∀ id, ¬ Targeted s ids deleteChildren id → Kept s (deleteWorkflows ids deleteChildren s).2 id
  fresh : ∀ row, Targeted s ids deleteChildren row.id →
    FreshHistory lib (insertWorkflowStatus row (deleteWorkflows ids deleteChildren s).2).2 row.id
  same : ∀ db, Mirrors s db → ∃ bound, ∀ fuel, bound ≤ fuel →
    ∃ db', Sqlite.deleteWorkflows refuses fuel ids deleteChildren db = some (.ok (), db') ∧
      Mirrors (deleteWorkflows ids deleteChildren s).2 db'

/-- Parent links lead to `id` from one of the ids that has a row. -/
def StoredDescends (s : Inner) (ids : List String) (id : String) : Prop :=
  ∃ root ∈ ids, (s.workflows.get root).isSome = true ∧ Relation.ReflTransGen (ParentOf s) root id

/-- No target has set an event, no child is found through an id without a row alone, and the database takes so
many ids. -/
structure DeletesWhole (refuses : Sqlite.Limit) (s : Inner) (ids : List String) (deleteChildren : Bool) : Prop where
  eventless : ∀ id, Targeted s ids deleteChildren id → ∀ key, s.events.get (id, key) = none
  rooted : deleteChildren = true → ∀ root ∈ ids, s.workflows.get root = none →
    ∀ child, ParentOf s root child → StoredDescends s ids child
  accepted : ids = [] ∨ refuses ids.length = none

theorem deleteTargets_get {s : Inner} {ids : List String} {deleteChildren : Bool} (id : String) :
    id ∈ (if deleteChildren then targetsWithChildren ids s else ids) ↔ Targeted s ids deleteChildren id := by
  cases deleteChildren
  · exact Iff.rfl
  · exact mem_targetsWithChildren

theorem deleted_clean {s : Inner} {ids : List String} {deleteChildren : Bool} {id : String}
    (targeted : Targeted s ids deleteChildren id) (eventless : ∀ key, s.events.get (id, key) = none) :
    Clean (deleteWorkflows ids deleteChildren s).2 id := by
  have target := (deleteTargets_get id).mpr targeted
  constructor
  · simp [deleteWorkflows, deleteTargets, target]
  · intro seq
    simp [deleteWorkflows, deleteTargets, target]
  · exact eventless
  · intro key
    simp [deleteWorkflows, deleteTargets, target]
  · rintro n member rfl
    simp [deleteWorkflows, deleteTargets, target] at member

theorem deleted_kept {s : Inner} {ids : List String} {deleteChildren : Bool} {id : String}
    (other : ¬ Targeted s ids deleteChildren id) : Kept s (deleteWorkflows ids deleteChildren s).2 id := by
  have spared := mt (deleteTargets_get id).mp other
  constructor
  · exact Table.get_retain_kept _ _ _ fun _ => decide_eq_true spared
  · exact fun seq => Table.get_retain_kept _ _ _ fun _ => decide_eq_true spared
  · exact fun key => rfl
  · exact fun key => Table.get_retain_kept _ _ _ fun _ => decide_eq_true spared
  · simp only [deleteWorkflows, deleteTargets, List.filter_filter]
    apply List.filter_congr
    intro n _
    by_cases own : n.destinationId = id
    · subst own
      simp [spared]
    · simp [own]

theorem Clean.fresh {lib : SerdeJson} {s : Inner} {row : WorkflowStatus} (clean : Clean s row.id) :
    FreshHistory lib (insertWorkflowStatus row s).2 row.id := by
  have same : (insertWorkflowStatus row s).2 = { s with workflows := (insertWorkflowStatus row s).2.workflows } := by
    unfold insertWorkflowStatus
    split
    · rfl
    · split <;> rfl
  rw [same]
  constructor
  · intro seq
    simp [getStepResult, clean.steps]
  · intro key
    simp [getEventValue, clean.events]
  · exact clean.streams
  · intro topic
    cases found : oldest row.id topic s.notifications with
    | none => rfl
    | some pick =>
      obtain ⟨member, waits⟩ := List.mem_filter.mp (mem_of_minBy _ found)
      have own : pick.1.destinationId = row.id := by
        simp only [awaiting, Bool.and_eq_true, beq_iff_eq] at waits
        exact waits.1.2
      exact absurd own (clean.notifications pick.1 (List.fst_mem_of_mem_zipIdx member))

section Mirrored

variable {s : Inner} {db : Sqlite.Db} (mirrors : Mirrors s db)

include mirrors

theorem Mirrors.mem_deleteSeeds {ids : List String} {id : String} :
    id ∈ Sqlite.deleteSeeds ids db ↔ id ∈ ids ∧ (s.workflows.get id).isSome = true := by
  simp only [Sqlite.deleteSeeds, List.mem_map, List.mem_filter, List.contains_iff_mem]
  constructor
  · rintro ⟨⟨id, r⟩, ⟨member, listed⟩, rfl⟩
    obtain ⟨row, found, -⟩ := mirrors.record ((Table.mem_toList _ _ _).mp member)
    exact ⟨listed, by rw [found]; rfl⟩
  · rintro ⟨listed, present⟩
    obtain ⟨row, stored⟩ := Option.isSome_iff_exists.mp present
    obtain ⟨r, found, -⟩ := mirrors.row stored
    exact ⟨(id, r), ⟨(Table.mem_toList _ _ _).mpr found, listed⟩, rfl⟩

theorem Mirrors.reached_delete {ids : List String} {id : String} :
    Closure.Reached (Sqlite.childrenOf db) (Sqlite.deleteSeeds ids db) id ↔ StoredDescends s ids id := by
  have links : Closure.Leads (Sqlite.childrenOf db) = ParentOf s := by
    funext parent child
    exact propext mirrors.mem_childrenOf
  rw [Closure.Reached, StoredDescends, links]
  simp only [mirrors.mem_deleteSeeds, and_assoc]

theorem Mirrors.deletion_ends (ids : List String) (fuel : Nat)
    (enough : (Sqlite.deleteSeeds ids db).length + db.workflowStatus.toList.length ≤ fuel) :
    ∃ targets, Closure.recursive (Sqlite.childrenOf db) fuel (Sqlite.deleteSeeds ids db) (Sqlite.deleteSeeds ids db) =
        some targets ∧
      ∀ id, id ∈ targets ↔ StoredDescends s ids id := by
  have enough : (Sqlite.deleteSeeds ids db).length + (db.workflowStatus.toList.map (·.1)).length ≤ fuel := by
    rwa [List.length_map]
  obtain ⟨targets, ends, members⟩ := Closure.mem_recursive Sqlite.childrenOf_stored enough
  exact ⟨targets, ends, fun id => (members id).trans mirrors.reached_delete⟩

theorem Mirrors.deleted {ids found : List String} {deleteChildren : Bool}
    (selected : ∀ id, (s.workflows.get id).isSome = true → (id ∈ found ↔ Targeted s ids deleteChildren id)) :
    Mirrors (deleteWorkflows ids deleteChildren s).2 (Sqlite.deleteRows found db) where
  rows id := by
    have kept := mirrors.rows id
    cases stored : s.workflows.get id with
    | none =>
      rw [stored, Option.map_none, eq_comm, Option.map_eq_none_iff] at kept
      simp [deleteWorkflows, deleteTargets, Sqlite.deleteRows, stored, kept]
    | some row =>
      obtain ⟨r, held, -⟩ := mirrors.row stored
      have here := selected id (by rw [stored]; rfl)
      by_cases targeted : Targeted s ids deleteChildren id
      · have target := (deleteTargets_get id).mpr targeted
        simp [deleteWorkflows, deleteTargets, Sqlite.deleteRows, held, target, here.mpr targeted]
      · have other := mt here.mp targeted
        rw [← (deleted_kept targeted).row] at kept
        rw [kept, Sqlite.deleteRows, Table.get_retain_kept _ _ _ fun _ => by simp [other]]

end Mirrored

theorem StoredDescends.descends {s : Inner} {ids : List String} {id : String} (stored : StoredDescends s ids id) :
    Descends s ids id := by
  obtain ⟨root, listed, -, path⟩ := stored
  exact ⟨root, listed, path⟩

theorem StoredDescends.isSome {s : Inner} {ids : List String} {id : String} (stored : StoredDescends s ids id) :
    (s.workflows.get id).isSome = true := by
  obtain ⟨root, -, present, path⟩ := stored
  rcases Relation.ReflTransGen.cases_tail path with rfl | ⟨_, -, row, found, -⟩
  · exact present
  · rw [found]
    rfl

theorem Descends.stored {s : Inner} {ids : List String}
    (rooted : ∀ root ∈ ids, s.workflows.get root = none → ∀ child, ParentOf s root child → StoredDescends s ids child)
    {id : String} (descends : Descends s ids id) (present : (s.workflows.get id).isSome = true) :
    StoredDescends s ids id := by
  obtain ⟨root, listed, path⟩ := descends
  induction path with
  | refl => exact ⟨root, listed, present, .refl⟩
  | @tail parent child before link ih =>
    cases found : s.workflows.get parent with
    | some row =>
      obtain ⟨top, listed, present, path⟩ := ih (by rw [found]; rfl)
      exact ⟨top, listed, present, path.tail link⟩
    | none =>
      rcases Relation.ReflTransGen.cases_tail before with rfl | ⟨_, -, row, stored, -⟩
      · exact rooted _ listed found child link
      · rw [found] at stored
        cases stored

/-- Where the database refuses the ids, it deletes nothing that the in-memory provider deletes. -/
theorem LeavesNothing.accepted {refuses : Sqlite.Limit} {lib : SerdeJson} {s : Inner} {ids : List String}
    {deleteChildren : Bool} (leaves : LeavesNothing refuses lib s ids deleteChildren) :
    ids = [] ∨ refuses ids.length = none := by
  by_contra refused
  obtain ⟨some_ids, refused⟩ := not_or.mp refused
  obtain ⟨e, refused⟩ := Option.ne_none_iff_exists'.mp refused
  obtain ⟨bound, ends⟩ := leaves.same (mirrorOf s) (mirrors_mirrorOf s)
  obtain ⟨db', done, -⟩ := ends bound (le_refl bound)
  simp [Sqlite.deleteWorkflows, refused, some_ids] at done

/-- Exactly when a deletion leaves nothing behind and takes what the other backend takes: no
target has set an event, no child hangs on a listed id without a row alone, and the database takes so many ids. -/
theorem deletes_whole (refuses : Sqlite.Limit) (lib : SerdeJson) (s : Inner) (ids : List String)
    (deleteChildren : Bool) :
    LeavesNothing refuses lib s ids deleteChildren ↔ DeletesWhole refuses s ids deleteChildren := by
  constructor
  · intro leaves
    have accepted := leaves.accepted
    constructor
    · exact fun id targeted key => (leaves.clean id targeted).events key
    · intro children root listed missing child link
      subst children
      have listed_some : ids ≠ [] := List.ne_nil_of_mem listed
      obtain ⟨bound, ends⟩ := leaves.same (mirrorOf s) (mirrors_mirrorOf s)
      have mirrors := mirrors_mirrorOf s
      obtain ⟨fuel, beyond, enough⟩ : ∃ fuel, bound ≤ fuel ∧
          (Sqlite.deleteSeeds ids (mirrorOf s)).length + (mirrorOf s).workflowStatus.toList.length ≤ fuel :=
        ⟨max bound _, le_max_left _ _, le_max_right _ _⟩
      obtain ⟨found, query, members⟩ := mirrors.deletion_ends ids fuel enough
      obtain ⟨db', done, same⟩ := ends fuel beyond
      have fits : refuses ids.length = none := accepted.resolve_left listed_some
      simp only [Sqlite.deleteWorkflows, fits, List.isEmpty_iff, listed_some, if_false, if_true, query, Option.map_some,
        Option.some.injEq, Prod.mk.injEq, true_and] at done
      subst done
      have gone : (deleteWorkflows ids true s).2.workflows.get child = none :=
        (leaves.clean child ⟨root, listed, .single link⟩).row
      have absent := same.rows child
      obtain ⟨row, stored, -⟩ := link
      obtain ⟨r, held, -⟩ := mirrors.row stored
      rw [gone, Option.map_none, eq_comm, Option.map_eq_none_iff] at absent
      by_contra unreached
      have other : child ∉ found := mt (members child).mp unreached
      rw [Sqlite.deleteRows, Table.get_retain_kept _ _ _ fun _ => by simp [other], held] at absent
      cases absent
    · exact accepted
  · rintro ⟨eventless, rooted, accepted⟩
    constructor
    · exact fun id targeted => deleted_clean targeted (eventless id targeted)
    · exact fun id other => deleted_kept other
    · exact fun row targeted => (deleted_clean targeted (eventless row.id targeted)).fresh
    · intro db mirrors
      refine ⟨(Sqlite.deleteSeeds ids db).length + db.workflowStatus.toList.length, fun fuel enough => ?_⟩
      by_cases empty : ids = []
      · subst empty
        have nothing : ∀ id, ¬ Targeted s [] deleteChildren id := by
          intro id targeted
          have target := (deleteTargets_get id).mpr targeted
          cases deleteChildren
          · cases target
          · obtain ⟨root, member, -⟩ := mem_targetsWithChildren.mp target
            cases member
        refine ⟨db, rfl, ⟨fun id => ?_⟩⟩
        rw [(deleted_kept (nothing id)).row]
        exact mirrors.rows id
      · have fits : refuses ids.length = none := accepted.resolve_left empty
        cases deleteChildren with
        | false =>
          refine ⟨Sqlite.deleteRows ids db, ?_, mirrors.deleted fun id _ => Iff.rfl⟩
          simp [Sqlite.deleteWorkflows, empty, fits]
        | true =>
          obtain ⟨found, query, members⟩ := mirrors.deletion_ends ids fuel enough
          refine ⟨Sqlite.deleteRows found db, ?_, mirrors.deleted fun id present => ?_⟩
          · simp [Sqlite.deleteWorkflows, empty, fits, query]
          · rw [members]
            exact ⟨fun stored => stored.descends, fun descends => Descends.stored (rooted rfl) descends present⟩

/-- The event of a deleted workflow is still read. -/
theorem event_outlives :
    ∃ s, Reachable (.reading []) s ∧ ¬ LeavesNothing Sqlite.variableLimit (.reading []) s ["w"] false ∧
      (getEventValue "w" "k" (deleteWorkflows ["w"] false s).2).1 = .ok (some .null) := by
  refine ⟨run (.reading []) [(0, .insertWorkflowStatus (.new 0 "w" "w" .null .success "local" "v1")),
    (0, .upsertEvent "w" "k" .null)] Inner.new, ⟨_, rfl⟩, fun leaves => ?_, rfl⟩
  have gone := (leaves.clean "w" (List.mem_singleton.mpr rfl)).events "k"
  cases gone

end Memory

end Durare

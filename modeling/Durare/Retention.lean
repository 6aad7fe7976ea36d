import Durare.Batches
import Durare.Deletion

/-! Garbage collection: the finished workflows older than a bound go, in batches. -/
namespace Durare

def GC_BATCH : Nat := 10000

/-- `resolve_gc_cutoff`: the newer of the two bounds, if there is any. -/
def resolveGcCutoff (nthNewestCompletedAt : Int → Option Int) (cutoff threshold : Option Int) :
    Except Error (Option Int) :=
  match threshold with
  | none => .ok cutoff
  | some t =>
    if t ≤ 0 then .error (.ofMessage ("rows_threshold must be positive, got " ++ toString t))
    else
      match nthNewestCompletedAt t with
      | some rows => .ok (if cutoff.all fun c => decide (c < rows) then some rows else cutoff)
      | none => .ok cutoff

namespace Memory

def finished : List Status := [.success, .error, .cancelled, .maxRecoveryAttemptsExceeded]

/-- The trait's default ranks what the listing returns. -/
def nthNewestCompletedAt (threshold : Int) (s : Inner) : Option Int :=
  if threshold ≤ 0 then none
  else
    match (listWorkflows { status := finished, loadInput := false, loadOutput := false } s).1 with
    | .ok rows =>
      ((rows.filterMap fun w : WorkflowStatus => w.completedAtMs).insertionSort fun a b => b ≤ a)[(threshold - 1).toNat]?
    | .error _ => none

/-- The filter's bound is inclusive, one millisecond before the cutoff. -/
def gcFilter (cutoff : Int) : ListFilter where
  status := finished
  completedBeforeMs := some (asI64 (cutoff - 1))
  limit := some GC_BATCH
  loadInput := false
  loadOutput := false

/-- The trait's default: a batch is listed and deleted, until one falls short. -/
def garbageCollect (fuel : Nat) (cutoff threshold : Option Int) (s : Inner) : Option (Answer Nat) :=
  match resolveGcCutoff (nthNewestCompletedAt · s) cutoff threshold with
  | .error e => some (.error e, s)
  | .ok none => some (.ok 0, s)
  | .ok (some cutoff) =>
    (Batches.drain (listedIds (gcFilter cutoff)) (fun ids s => (deleteWorkflows ids false s).2) GC_BATCH fuel 0 s).map
      fun (total, s) => (.ok total, s)

end Memory

namespace Sqlite

def nthNewestCompletedAt (threshold : Int) (db : Db) : Option Int :=
  ((db.workflowStatus.values.filterMap fun r : WorkflowRecord => r.completedAt).insertionSort
    fun a b => b ≤ a)[(threshold - 1).toNat]?

def collectable (cutoff : Int) (r : WorkflowRecord) : Bool :=
  r.completedAt.any (fun c => decide (c < cutoff)) && !(r.status == .pending || r.status == .enqueued || r.status == .delayed)

/-- One statement deletes a batch; `scan` is the order in which it finds the rows. -/
def garbageCollect (scan : List String → List String) (fuel : Nat) (cutoff threshold : Option Int) (db : Db) :
    Option (Answer Nat) :=
  match resolveGcCutoff (nthNewestCompletedAt · db) cutoff threshold with
  | .error e => some (.error e, db)
  | .ok none => some (.ok 0, db)
  | .ok (some cutoff) =>
    (Batches.drain (fun db => (scan (db.workflowStatus.keysOf (collectable cutoff))).take GC_BATCH) deleteRows GC_BATCH
      fuel 0 db).map fun (total, db) => (.ok total, db)

end Sqlite

namespace Memory

def completedCount (s : Inner) (p : Int → Bool) : Nat :=
  (s.workflows.keysOf fun row => row.status.isTerminal && row.completedAtMs.any p).length

/-- `v` is the completion of the `n`-th newest finished workflow. -/
def NthNewest (s : Inner) (n v : Int) : Prop :=
  completedCount s (fun c => decide (v < c)) < n ∧ n ≤ completedCount s (fun c => decide (v ≤ c))

theorem finished_contains (status : Status) : finished.contains status = status.isTerminal := by
  cases status <;> simp [finished, Status.isTerminal]

theorem countP_completed (s : Inner) (p : Int → Bool) :
    ((sortedMatches { status := finished, loadInput := false, loadOutput := false } s).filterMap
      fun w : WorkflowStatus => w.completedAtMs).countP p = completedCount s p := by
  rw [List.countP_filterMap, (sortedMatches_perm _ s).countP_eq, List.countP_filter, completedCount, Table.length_keysOf]
  apply List.countP_congr
  intro row _
  have wanted : matchesFilter { status := finished, loadInput := false, loadOutput := false } s row =
      row.status.isTerminal := by
    rw [← finished_contains]
    simp [matchesFilter, anyOf, anyOfOption, finished]
  rw [wanted]
  cases row.completedAtMs <;> simp [and_comm]

theorem nthNewestCompletedAt_iff (s : Inner) {n : Int} (positive : 0 < n) (v : Int) :
    nthNewestCompletedAt n s = some v ↔ NthNewest s n v := by
  have listed : (listWorkflows { status := finished, loadInput := false, loadOutput := false } s).1 =
      .ok ((sortedMatches { status := finished, loadInput := false, loadOutput := false } s).map
        (loaded { status := finished, loadInput := false, loadOutput := false })) := by
    simp [listWorkflows]
  have same : (((sortedMatches { status := finished, loadInput := false, loadOutput := false } s).map
      (loaded { status := finished, loadInput := false, loadOutput := false })).filterMap
        fun w : WorkflowStatus => w.completedAtMs) =
      (sortedMatches { status := finished, loadInput := false, loadOutput := false } s).filterMap
        fun w : WorkflowStatus => w.completedAtMs := by
    rw [List.filterMap_map]
    rfl
  rw [nthNewestCompletedAt, if_neg (by omega), listed]
  simp only [same]
  rw [Batches.nth_descending_iff, countP_completed, countP_completed, NthNewest]
  omega

def selected (limit : Int) (row : WorkflowStatus) : Bool :=
  row.status.isTerminal && row.completedAtMs.any fun c => decide (c ≤ limit)

theorem matchesFilter_gcFilter (cutoff : Int) (s : Inner) (row : WorkflowStatus) :
    matchesFilter (gcFilter cutoff) s row = selected (asI64 (cutoff - 1)) row := by
  rw [selected, ← finished_contains]
  simp [matchesFilter, gcFilter, anyOf, anyOfOption, finished]

theorem listedIds_gcFilter (cutoff : Int) (s : Inner) :
    listedIds (gcFilter cutoff) s =
      ((sortedMatches (gcFilter cutoff) s).map fun w : WorkflowStatus => w.id).take GC_BATCH := by
  rw [listedIds_eq _ _ rfl, ← List.map_take]
  rfl

theorem mem_matches {s : Inner} (keyed : Keyed s) (cutoff : Int) (id : String) :
    id ∈ (sortedMatches (gcFilter cutoff) s).map (fun w : WorkflowStatus => w.id) ↔
      id ∈ s.workflows.keysOf (selected (asI64 (cutoff - 1))) := by
  rw [List.mem_map, Table.mem_keysOf]
  constructor
  · rintro ⟨row, member, rfl⟩
    obtain ⟨⟨id, stored⟩, accepted⟩ := (mem_sortedMatches _ _ _).mp member
    rw [keyed id row stored]
    exact ⟨row, stored, matchesFilter_gcFilter cutoff s row ▸ accepted⟩
  · rintro ⟨row, stored, accepted⟩
    refine ⟨row, (mem_sortedMatches _ _ _).mpr ⟨⟨id, stored⟩, ?_⟩, keyed id row stored⟩
    rw [matchesFilter_gcFilter]
    exact accepted

/-- A batch that falls short was not cut. -/
theorem mem_of_short {ids : List String} (short : (ids.take GC_BATCH).length < GC_BATCH) {id : String}
    (member : id ∈ ids) :
    id ∈ ids.take GC_BATCH := by
  rw [List.length_take] at short
  rwa [List.take_of_length_le (by omega)]

theorem gc_takes (cutoff : Int) :
    Batches.Takes (listedIds (gcFilter cutoff)) (fun ids s => (deleteWorkflows ids false s).2) GC_BATCH Keyed
      fun s => s.workflows.keysOf (selected (asI64 (cutoff - 1))) where
  distinct s _ := Table.nodup_keysOf _ _
  picked s keyed := by
    rw [listedIds_gcFilter]
    exact (nodup_sortedMatches keyed _).sublist (List.take_sublist _ _)
  inside s keyed id member := by
    rw [listedIds_gcFilter] at member
    exact (mem_matches keyed cutoff id).mp (List.mem_of_mem_take member)
  full s keyed short id pending := by
    rw [listedIds_gcFilter] at short ⊢
    exact mem_of_short short ((mem_matches keyed cutoff id).mpr pending)
  left s keyed id := by
    simp only [Table.mem_keysOf, deleteWorkflows, deleteTargets, Table.get_retain, Option.filter_eq_some_iff,
      Bool.false_eq_true, if_false, decide_eq_true_eq]
    constructor
    · rintro ⟨row, ⟨stored, other⟩, accepted⟩
      exact ⟨⟨row, stored, accepted⟩, other⟩
    · rintro ⟨⟨row, stored, accepted⟩, other⟩
      exact ⟨row, ⟨stored, other⟩, accepted⟩
  good s keyed id row stored := by
    simp only [deleteWorkflows, deleteTargets, Table.get_retain, Option.filter_eq_some_iff] at stored
    exact keyed id row stored.1

theorem deleteTargets_append (first second : List String) (s : Inner) :
    deleteTargets second (deleteTargets first s) = deleteTargets (first ++ second) s := by
  simp only [deleteTargets, Table.retain_retain, List.filter_filter, List.mem_append, not_or, Bool.decide_and, Bool.and_comm]

/-- The loop ends, having deleted what was selected. -/
theorem gc_drains {s : Inner} (keyed : Keyed s) (cutoff : Int) (fuel : Nat)
    (enough : s.workflows.toList.length < fuel) :
    ∃ removed, Batches.drain (listedIds (gcFilter cutoff)) (fun ids s => (deleteWorkflows ids false s).2) GC_BATCH fuel 0 s =
        some ((s.workflows.keysOf (selected (asI64 (cutoff - 1)))).length, deleteTargets removed s) ∧
      ∀ id, id ∈ removed ↔ id ∈ s.workflows.keysOf (selected (asI64 (cutoff - 1))) := by
  have few : (s.workflows.keysOf (selected (asI64 (cutoff - 1)))).length ≤ s.workflows.toList.length := by
    rw [Table.keysOf, List.length_map]
    exact List.length_filter_le _ _
  have none_yet : deleteTargets [] s = s := by
    simp [deleteTargets, Table.retain_true]
  obtain ⟨removed, after, ends, same, members⟩ := (gc_takes cutoff).drains (by decide)
    (fun done t => t = deleteTargets done s)
    (fun t _ done here => by rw [here]; exact deleteTargets_append done _ s) fuel 0 s keyed [] none_yet.symm (by omega)
  refine ⟨removed, ?_, members⟩
  rw [ends, same, Nat.zero_add]
  rfl

end Memory

namespace Sqlite

theorem gc_takes {scan : List String → List String} (perm : ∀ ids, (scan ids).Perm ids) (cutoff : Int) :
    Batches.Takes (fun db : Db => (scan (db.workflowStatus.keysOf (collectable cutoff))).take GC_BATCH) deleteRows
      GC_BATCH (fun _ => True) fun db => db.workflowStatus.keysOf (collectable cutoff) where
  distinct db _ := Table.nodup_keysOf _ _
  picked db _ := ((perm _).nodup_iff.mpr (Table.nodup_keysOf _ _)).sublist (List.take_sublist _ _)
  inside db _ id member := (perm _).mem_iff.mp (List.mem_of_mem_take member)
  full db _ short id pending := Memory.mem_of_short short ((perm _).mem_iff.mpr pending)
  left db _ id := by
    simp only [Table.mem_keysOf, deleteRows, Table.get_retain, Option.filter_eq_some_iff, Bool.not_eq_true',
      Bool.and_eq_false_iff, List.contains_eq_mem, decide_eq_false_iff_not]
    constructor
    · rintro ⟨r, ⟨stored, other⟩, accepted⟩
      refine ⟨⟨r, stored, accepted⟩, other.resolve_right ?_⟩
      simp [stored]
    · rintro ⟨⟨r, stored, accepted⟩, other⟩
      exact ⟨r, ⟨stored, .inl other⟩, accepted⟩
  good _ _ := trivial

theorem deleteRows_get (targets : List String) (db : Db) (id : String) :
    (deleteRows targets db).workflowStatus.get id = if id ∈ targets then none else db.workflowStatus.get id := by
  rw [deleteRows, Table.get_retain]
  cases stored : db.workflowStatus.get id with
  | none => simp
  | some r => by_cases target : id ∈ targets <;> simp [target, stored]

theorem gc_drains {scan : List String → List String} (perm : ∀ ids, (scan ids).Perm ids) (db : Db) (cutoff : Int)
    (fuel : Nat) (enough : db.workflowStatus.toList.length < fuel) :
    ∃ db', Batches.drain (fun db : Db => (scan (db.workflowStatus.keysOf (collectable cutoff))).take GC_BATCH) deleteRows
        GC_BATCH fuel 0 db = some ((db.workflowStatus.keysOf (collectable cutoff)).length, db') ∧
      ∀ id, db'.workflowStatus.get id =
        if id ∈ db.workflowStatus.keysOf (collectable cutoff) then none else db.workflowStatus.get id := by
  have few : (db.workflowStatus.keysOf (collectable cutoff)).length ≤ db.workflowStatus.toList.length := by
    rw [Table.keysOf, List.length_map]
    exact List.length_filter_le _ _
  obtain ⟨removed, after, ends, gets, members⟩ := (gc_takes perm cutoff).drains (by decide)
    (fun done t => ∀ id, t.workflowStatus.get id = if id ∈ done then none else db.workflowStatus.get id)
    (fun t _ done here id => by
      rw [deleteRows_get, here]
      by_cases first : id ∈ done <;> simp [first])
    fuel 0 db trivial [] (fun id => by simp) (by omega)
  refine ⟨after, by rw [ends, Nat.zero_add], fun id => ?_⟩
  rw [gets, List.nil_append]
  by_cases gone : id ∈ removed
  · rw [if_pos gone, if_pos ((members id).mp gone)]
  · rw [if_neg gone, if_neg (mt (members id).mpr gone)]

end Sqlite

namespace Memory

def FinishedBefore (bound : Option Int) (row : WorkflowStatus) : Prop :=
  row.status.isTerminal = true ∧ ∃ b c, bound = some b ∧ row.completedAtMs = some c ∧ c < b

/-- The completion that a row threshold stands for. -/
def RowsBound (s : Inner) : Option Int → Option Int → Prop
  | none, rows => rows = none
  | some n, rows => ∀ v, rows = some v ↔ NthNewest s n v

def newer : Option Int → Option Int → Option Int
  | some c, some r => some (max c r)
  | some c, none => some c
  | none, r => r

/-- The collection returns how many workflows finished before the bound, and deletes just these. -/
structure Collected (s : Inner) (bound : Option Int) (answer : Answer Nat) : Prop where
  count : ∃ ids : List String, ids.Nodup ∧
    (∀ id, id ∈ ids ↔ ∃ row, s.workflows.get id = some row ∧ FinishedBefore bound row) ∧ answer.1 = .ok ids.length
  gone : ∀ id row, s.workflows.get id = some row → FinishedBefore bound row → answer.2.workflows.get id = none
  kept : ∀ id, (∀ row, s.workflows.get id = some row → ¬ FinishedBefore bound row) → Kept s answer.2 id

/-- A garbage collection is exact: it refuses a threshold that is not positive and changes nothing then,
and else collects what finished before the newer bound, as the other backend does where only finished
rows carry a completion. -/
structure GcExact (s : Inner) (cutoff threshold : Option Int) : Prop where
  refused : ∀ t, threshold = some t → t ≤ 0 → ∀ fuel, ∃ e, garbageCollect fuel cutoff threshold s = some (.error e, s)
  collects : (∀ t, threshold = some t → 0 < t) → ∃ rows, RowsBound s threshold rows ∧
    ∃ limit, ∀ fuel, limit ≤ fuel → ∃ answer, garbageCollect fuel cutoff threshold s = some answer ∧
      Collected s (newer cutoff rows) answer ∧
      ((∀ id row c, s.workflows.get id = some row → row.completedAtMs = some c → row.status.isTerminal = true) →
        ∀ db, Mirrors s db → ∀ scan : List String → List String, (∀ ids, (scan ids).Perm ids) →
          ∃ limit, ∀ fuel, limit ≤ fuel → ∃ db', Sqlite.garbageCollect scan fuel cutoff threshold db = some (answer.1, db') ∧
            Mirrors answer.2 db')

theorem Kept.refl (s : Inner) (id : String) : Kept s s id := ⟨rfl, fun _ => rfl, fun _ => rfl, fun _ => rfl, rfl⟩

theorem rowsBound_nth (s : Inner) {threshold : Option Int} (positive : ∀ t, threshold = some t → 0 < t) :
    RowsBound s threshold (threshold.bind fun n => nthNewestCompletedAt n s) := by
  cases threshold with
  | none => rfl
  | some n => exact nthNewestCompletedAt_iff s (positive n rfl)

theorem resolveGcCutoff_positive (nth : Int → Option Int) (cutoff : Option Int) {threshold : Option Int}
    (positive : ∀ t, threshold = some t → 0 < t) :
    resolveGcCutoff nth cutoff threshold = .ok (newer cutoff (threshold.bind nth)) := by
  cases threshold with
  | none => cases cutoff <;> rfl
  | some n =>
    have above := positive n rfl
    rw [resolveGcCutoff, if_neg (by omega), Option.bind_some]
    cases nth n with
    | none => cases cutoff <;> rfl
    | some rows =>
      cases cutoff with
      | none => rfl
      | some c =>
        by_cases less : c < rows
        · simp [newer, less, less.le]
        · simp [newer, less, not_lt.mp less]

theorem selected_iff {b : Int} (exact_bound : asI64 (b - 1) = b - 1) (row : WorkflowStatus) :
    selected (asI64 (b - 1)) row = true ↔ FinishedBefore (some b) row := by
  rw [selected, FinishedBefore, exact_bound, Bool.and_eq_true, Option.any_eq_true]
  simp only [decide_eq_true_eq, Option.some.injEq]
  constructor
  · rintro ⟨terminal, c, done, before⟩
    exact ⟨terminal, b, c, rfl, done, by omega⟩
  · rintro ⟨terminal, b, c, rfl, done, before⟩
    exact ⟨terminal, c, done, by omega⟩

/-- The default collects what finished before the bound it resolves, where one less is still an `i64`. -/
theorem garbageCollect_collected {s : Inner} (keyed : Keyed s) {cutoff threshold bound : Option Int}
    (resolved : resolveGcCutoff (nthNewestCompletedAt · s) cutoff threshold = .ok bound)
    (exact_bound : ∀ b, bound = some b → asI64 (b - 1) = b - 1) (fuel : Nat) (enough : s.workflows.toList.length < fuel) :
    ∃ answer, garbageCollect fuel cutoff threshold s = some answer ∧ Collected s bound answer := by
  rw [garbageCollect, resolved]
  cases bound with
  | none =>
    refine ⟨(.ok 0, s), rfl, ⟨[], List.nodup_nil, fun id => ?_, rfl⟩, ?_, fun id _ => .refl s id⟩
    · simp [FinishedBefore]
    · rintro id row - ⟨-, b, c, absent, -⟩
      cases absent
  | some b =>
    have selects := selected_iff (exact_bound b rfl)
    obtain ⟨removed, ends, members⟩ := gc_drains keyed b fuel enough
    simp only [Table.mem_keysOf, selects] at members
    refine ⟨(.ok (s.workflows.keysOf (selected (asI64 (b - 1)))).length, deleteTargets removed s), by simp [ends],
      ⟨_, Table.nodup_keysOf _ _, fun id => ?_, rfl⟩, fun id row stored before => ?_, fun id spared => ?_⟩
    · simp only [Table.mem_keysOf, selects]
    · have target : id ∈ removed := (members id).mpr ⟨row, stored, before⟩
      simp [deleteTargets, target]
    · have other : ¬ Targeted s removed false id := by
        intro target
        obtain ⟨row, stored, before⟩ := (members id).mp target
        exact spared row stored before
      exact deleted_kept other

section Mirrored

variable {s : Inner} {db : Sqlite.Db} (mirrors : Mirrors s db)
  (only : ∀ id row c, s.workflows.get id = some row → row.completedAtMs = some c → row.status.isTerminal = true)

include mirrors only

theorem Mirrors.completedCount (p : Int → Bool) :
    (db.workflowStatus.keysOf fun r => r.completedAt.any p).length = completedCount s p := by
  apply ((List.perm_ext_iff_of_nodup (Table.nodup_keysOf _ _) (Table.nodup_keysOf _ _)).mpr fun id => ?_).length_eq
  simp only [Table.mem_keysOf, Bool.and_eq_true, Option.any_eq_true]
  constructor
  · rintro ⟨r, held, c, done, accepted⟩
    obtain ⟨row, stored, -, -, completed_eq⟩ := mirrors.record held
    have done : row.completedAtMs = some c := completed_eq ▸ done
    exact ⟨row, stored, only id row c stored done, c, done, accepted⟩
  · rintro ⟨row, stored, -, c, done, accepted⟩
    obtain ⟨r, held, -, -, completed_eq⟩ := mirrors.row stored
    exact ⟨r, held, c, completed_eq.trans done, accepted⟩

theorem Mirrors.nthNewestCompletedAt {n : Int} (positive : 0 < n) :
    Sqlite.nthNewestCompletedAt n db = Memory.nthNewestCompletedAt n s := by
  have counted (p : Int → Bool) :
      (db.workflowStatus.values.filterMap fun r : Sqlite.WorkflowRecord => r.completedAt).countP p = Memory.completedCount s p := by
    rw [← mirrors.completedCount only, Table.length_keysOf, List.countP_filterMap]
    apply List.countP_congr
    intro r _
    cases r.completedAt <;> simp
  apply Option.ext
  intro v
  rw [nthNewestCompletedAt_iff s positive, Sqlite.nthNewestCompletedAt, Batches.nth_descending_iff, counted, counted,
    NthNewest]
  omega

theorem Mirrors.mem_collectable (b : Int) (id : String) :
    id ∈ db.workflowStatus.keysOf (Sqlite.collectable b) ↔
      ∃ row, s.workflows.get id = some row ∧ FinishedBefore (some b) row := by
  simp only [Table.mem_keysOf, Sqlite.collectable, Bool.and_eq_true, Option.any_eq_true, decide_eq_true_eq]
  constructor
  · rintro ⟨r, held, ⟨c, done, before⟩, -⟩
    obtain ⟨row, stored, -, -, completed_eq⟩ := mirrors.record held
    have done : row.completedAtMs = some c := completed_eq ▸ done
    exact ⟨row, stored, only id row c stored done, b, c, rfl, done, before⟩
  · rintro ⟨row, stored, terminal, b', c, same, done, before⟩
    cases same
    obtain ⟨r, held, status_eq, -, completed_eq⟩ := mirrors.row stored
    refine ⟨r, held, ⟨c, completed_eq.trans done, before⟩, ?_⟩
    rw [status_eq]
    cases same : row.status <;> simp_all [Status.isTerminal]

end Mirrored

theorem Mirrors.garbageCollect {s : Inner} {db : Sqlite.Db} (mirrors : Mirrors s db)
    (only : ∀ id row c, s.workflows.get id = some row → row.completedAtMs = some c → row.status.isTerminal = true)
    {cutoff threshold : Option Int} (positive : ∀ t, threshold = some t → 0 < t) {answer : Answer Nat}
    (collected : Collected s (newer cutoff (threshold.bind fun n => Memory.nthNewestCompletedAt n s)) answer)
    {scan : List String → List String} (perm : ∀ ids, (scan ids).Perm ids) (fuel : Nat)
    (enough : db.workflowStatus.toList.length < fuel) :
    ∃ db', Sqlite.garbageCollect scan fuel cutoff threshold db = some (answer.1, db') ∧ Mirrors answer.2 db' := by
  have same : (threshold.bind fun n => Sqlite.nthNewestCompletedAt n db) =
      threshold.bind fun n => Memory.nthNewestCompletedAt n s := by
    cases threshold with
    | none => rfl
    | some n => exact mirrors.nthNewestCompletedAt only (positive n rfl)
  obtain ⟨⟨ids, distinct, members, count⟩, gone, kept⟩ := collected
  rw [Sqlite.garbageCollect, resolveGcCutoff_positive _ _ positive, same]
  cases bound : newer cutoff (threshold.bind fun n => Memory.nthNewestCompletedAt n s) with
  | none =>
    rw [bound] at members kept
    have nothing : ∀ row, ¬ FinishedBefore none row := by
      rintro row ⟨-, b, c, absent, -⟩
      cases absent
    have empty : ids = [] := by
      apply List.eq_nil_iff_forall_not_mem.mpr
      intro id member
      obtain ⟨row, -, before⟩ := (members id).mp member
      exact nothing row before
    refine ⟨db, by rw [count, empty]; rfl, ⟨fun id => ?_⟩⟩
    rw [(kept id fun row _ => nothing row).row]
    exact mirrors.rows id
  | some b =>
    rw [bound] at members kept gone
    obtain ⟨db', ends, gets⟩ := Sqlite.gc_drains perm db b fuel enough
    have pending := mirrors.mem_collectable only b
    have length_eq : (db.workflowStatus.keysOf (Sqlite.collectable b)).length = ids.length :=
      ((List.perm_ext_iff_of_nodup (Table.nodup_keysOf _ _) distinct).mpr fun id =>
        (pending id).trans (members id).symm).length_eq
    refine ⟨db', by simp [ends, count, length_eq], ⟨fun id => ?_⟩⟩
    rw [gets]
    by_cases target : id ∈ db.workflowStatus.keysOf (Sqlite.collectable b)
    · obtain ⟨row, stored, before⟩ := (pending id).mp target
      rw [if_pos target, gone id row stored before]
      rfl
    · rw [if_neg target, (kept id fun row stored before => target ((pending id).mpr ⟨row, stored, before⟩)).row]
      exact mirrors.rows id

def Stamped (s : Inner) : Prop :=
  ∀ id row c, s.workflows.get id = some row → row.completedAtMs = some c → -2 ^ 63 ≤ c ∧ c < 2 ^ 63

theorem NthNewest.stored {s : Inner} {n v : Int} (nth : NthNewest s n v) :
    ∃ id row, s.workflows.get id = some row ∧ row.status.isTerminal = true ∧ row.completedAtMs = some v := by
  obtain ⟨few, enough⟩ := nth
  by_contra absent
  have same : completedCount s (fun c => decide (v ≤ c)) = completedCount s fun c => decide (v < c) := by
    apply ((List.perm_ext_iff_of_nodup (Table.nodup_keysOf _ _) (Table.nodup_keysOf _ _)).mpr fun id => ?_).length_eq
    simp only [Table.mem_keysOf, Bool.and_eq_true, Option.any_eq_true, decide_eq_true_eq]
    constructor
    · rintro ⟨row, stored, terminal, c, done, le⟩
      have ne : v ≠ c := by
        rintro rfl
        exact absent ⟨id, row, stored, terminal, done⟩
      exact ⟨row, stored, terminal, c, done, by omega⟩
    · rintro ⟨row, stored, terminal, c, done, less⟩
      exact ⟨row, stored, terminal, c, done, less.le⟩
  omega

theorem asI64_pred {b : Int} (fits : -2 ^ 63 < b ∧ b < 2 ^ 63) : asI64 (b - 1) = b - 1 :=
  asI64_of_fits (by omega) (by omega)

/-- One less than the least bound is the greatest: a row that finished at that instant goes. -/
theorem not_exact_of_least {s : Inner} (keyed : Keyed s) {n : Int} (positive : 0 < n) (nth : NthNewest s n (-2 ^ 63)) :
    ¬ GcExact s none (some n) := by
  intro exact_run
  obtain ⟨rows, bound, limit, ends⟩ := exact_run.collects fun t same => by
    cases same
    exact positive
  have least : rows = some (-2 ^ 63) := (bound _).mpr nth
  subst least
  obtain ⟨answer, done, collected, -⟩ := ends (limit + s.workflows.toList.length + 1) (by omega)
  obtain ⟨removed, drained, members⟩ := gc_drains keyed (-2 ^ 63)
    (limit + s.workflows.toList.length + 1) (by omega)
  obtain ⟨id, row, stored, terminal, completed⟩ := nth.stored
  -- The bound of the filter has wrapped around, and selects the row.
  have wrapped : asI64 (-2 ^ 63 - 1) = 2 ^ 63 - 1 := by decide
  have target : id ∈ removed := by
    rw [members, wrapped, Table.mem_keysOf]
    exact ⟨row, stored, by simp [selected, terminal, completed]⟩
  have resolved : resolveGcCutoff (nthNewestCompletedAt · s) none (some n) = .ok (some (-2 ^ 63)) := by
    rw [resolveGcCutoff_positive _ _ fun t same => by cases same; exact positive, Option.bind_some,
      (nthNewestCompletedAt_iff s positive _).mpr nth]
    rfl
  rw [garbageCollect, resolved] at done
  simp only [drained, Option.map_some, Option.some.injEq] at done
  subst done
  have spared := (collected.kept id fun other held => by
    rintro ⟨-, b, c, same, there, before⟩
    rw [stored] at held
    cases held
    rw [completed] at there
    cases same
    cases there
    omega).row
  rw [stored] at spared
  simp [deleteTargets, target] at spared

/-- The garbage collection is exact unless the only bound is a row threshold and the completion it
stands for is the least `i64`: one less is the greatest then, and every finished workflow goes. -/
theorem gc_exact_iff {lib : SerdeJson} {s : Inner} (reachable : Reachable lib s) (stamped : Stamped s)
    {cutoff : Option Int} (above : ∀ c, cutoff = some c → -2 ^ 63 < c ∧ c < 2 ^ 63) (threshold : Option Int) :
    GcExact s cutoff threshold ↔ ¬ (cutoff = none ∧ ∃ n, threshold = some n ∧ 0 < n ∧ NthNewest s n (-2 ^ 63)) := by
  have keyed := reachable.keyed
  constructor
  · rintro exact_run ⟨rfl, n, rfl, positive, nth⟩
    exact not_exact_of_least keyed positive nth exact_run
  · intro fits
    constructor
    · rintro t rfl le fuel
      refine ⟨.ofMessage ("rows_threshold must be positive, got " ++ toString t), ?_⟩
      rw [garbageCollect, resolveGcCutoff, if_pos le]
    · intro positive
      have resolved := resolveGcCutoff_positive (nthNewestCompletedAt · s) cutoff positive
      have exact_bound : ∀ b, newer cutoff (threshold.bind fun n => nthNewestCompletedAt n s) = some b →
          asI64 (b - 1) = b - 1 := by
        intro b bound
        apply asI64_pred
        cases ranked : threshold.bind fun n => nthNewestCompletedAt n s with
        | none =>
          rw [ranked] at bound
          cases cutoff with
          | none => cases bound
          | some c =>
            cases bound
            exact above _ rfl
        | some r =>
          obtain ⟨n, rfl, found⟩ := Option.bind_eq_some_iff.mp ranked
          have nth := (nthNewestCompletedAt_iff s (positive n rfl) r).mp found
          obtain ⟨id, row, stored, -, done⟩ := nth.stored
          have range := stamped id row r stored done
          rw [ranked] at bound
          cases cutoff with
          | some c =>
            have range' := above c rfl
            cases bound
            omega
          | none =>
            have other : r ≠ -2 ^ 63 := by
              rintro rfl
              exact fits ⟨rfl, n, rfl, positive n rfl, nth⟩
            cases bound
            omega
      refine ⟨_, rowsBound_nth s positive, s.workflows.toList.length + 1, fun fuel enough => ?_⟩
      obtain ⟨answer, ends, collected⟩ := garbageCollect_collected keyed resolved exact_bound fuel enough
      refine ⟨answer, ends, collected, fun only db mirrors scan perm => ?_⟩
      exact ⟨db.workflowStatus.toList.length + 1, fun fuel enough =>
        mirrors.garbageCollect only positive collected perm fuel enough⟩

def finishedOnce : List (DateTime × Call) :=
  [(0, .insertWorkflowStatus { (.new 0 "w" "w" .null .success "local" "v1" : WorkflowStatus) with completedAtMs := some 3 })]

theorem finishedOnce_collected : GcExact (run (.reading []) finishedOnce Inner.new) (some 5) (some 1) := by
  refine (@gc_exact_iff (.reading []) _ ⟨finishedOnce, rfl⟩ ?_ _ ?_ (some 1)).mpr (by simp)
  · intro id row c stored done
    have only : (run (.reading []) finishedOnce Inner.new).workflows.get id =
        if id = "w" then some { (.new 0 "w" "w" .null .success "local" "v1" : WorkflowStatus) with completedAtMs := some 3 }
        else none := Table.get_put ..
    rw [only] at stored
    split at stored
    · cases stored
      cases done
      omega
    · cases stored
  · intro c same
    cases same
    omega

/-- An imported workflow may have finished at the least instant. -/
theorem least_completion_goes :
    ∃ s, Reachable (.reading []) s ∧ ¬ GcExact s none (some 1) ∧
      (garbageCollect 1 none (some 1) s).map (fun answer => answer.2.workflows.get "w") = some none := by
  refine ⟨run (.reading []) [(0, .importWorkflow [{
    workflowStatus := [("workflow_uuid", .string "w"), ("status", .string "SUCCESS"),
      ("completed_at", .number (.negInt (Fin.last _)))]
    operationOutputs := []
    workflowEvents := []
    streams := [] }])] Inner.new, ⟨_, rfl⟩, ?_, ?_⟩
  · exact not_exact_of_least (@Reachable.keyed (.reading []) _ ⟨_, rfl⟩) (by omega) ⟨by decide, by decide⟩
  · rfl

end Memory

end Durare

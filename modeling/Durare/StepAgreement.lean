import Durare.StepAggregates
import Mathlib.Algebra.Order.Ring.Cast

/-! When the step aggregates of the in-memory backend and of SQLite are the reference grouping. Each answer is a
grouping of the rows that its backend counts, by the key and with the maximum that it computes; these are compared with
the accepted rows, their own groups and their longest durations. -/
namespace Durare.StepGroups

open Memory (Inner StepRow anyOf startsWith stepKey stepSkipped stepDuration addStep stepAggregate)
open Sqlite (Db StepRecord SqlNumber like pushStepAggFilters stepColumns rowToStepAggregate larger readI64)
open Grouping

def entry (q : StepAggregateQuery) (top : List StepLine → Option Int) (group : Group) (lines : List StepLine) :
    StepAggregate :=
  ⟨group, if q.selectCount then some lines.length else none, if q.selectMaxDurationMs then top lines else none⟩

/-- One entry for each key of the lines. -/
structure Reports (q : StepAggregateQuery) (key : StepLine → Group) (top : List StepLine → Option Int)
    (lines : List StepLine) (out : List StepAggregate) : Prop where
  distinct : (out.map (·.group)).Nodup
  mem : ∀ a, a ∈ out ↔ ∃ l ∈ lines, a = entry q top (key l) (members key lines (key l))

def longest (lines : List StepLine) : Option Int := (lines.filterMap (·.duration)).max?

section
variable {q : StepAggregateQuery} {key : StepLine → Group} {top : List StepLine → Option Int} {lines : List StepLine}
  {out out' : List StepAggregate}

theorem isGroupBy_iff : IsGroupBy q lines out ↔ Reports q (groupOf q) longest (reference q lines) out := by
  constructor
  · intro groups
    have reported (a : StepAggregate) (there : a ∈ out) :
        a = entry q longest a.group (members (groupOf q) (reference q lines) a.group) := by
      have counted := groups.counted a there
      have longest := groups.longest a there
      cases a
      simp only at counted longest
      rw [counted, longest]
      rfl
    refine ⟨groups.distinct, fun a => ⟨fun there => ?_, ?_⟩⟩
    · obtain ⟨l, member, same⟩ := (groups.groups a.group).mp ⟨a, there, rfl⟩
      exact ⟨l, member, same ▸ reported a there⟩
    · rintro ⟨l, member, rfl⟩
      obtain ⟨a, there, same⟩ := (groups.groups (groupOf q l)).mpr ⟨l, member, rfl⟩
      have shown := reported a there
      rw [same] at shown
      exact shown ▸ there
  · intro reports
    constructor
    case distinct => exact reports.distinct
    case groups =>
      intro group
      constructor
      · rintro ⟨a, there, rfl⟩
        obtain ⟨l, member, rfl⟩ := (reports.mem a).mp there
        exact ⟨l, member, rfl⟩
      · rintro ⟨l, member, rfl⟩
        exact ⟨_, (reports.mem _).mpr ⟨l, member, rfl⟩, rfl⟩
    all_goals
      intro a there
      obtain ⟨l, _, rfl⟩ := (reports.mem a).mp there
      rfl

theorem Reports.perm (mine : Reports q key top lines out) (theirs : Reports q key top lines out') : out.Perm out' :=
  (List.perm_ext_iff_of_nodup mine.distinct.of_map theirs.distinct.of_map).mpr
    fun a => (mine.mem a).trans (theirs.mem a).symm

theorem Reports.congr {key' : StepLine → Group} (same : ∀ l ∈ lines, key l = key' l) :
    Reports q key top lines out ↔ Reports q key' top lines out := by
  have entries (a : StepAggregate) : (∃ l ∈ lines, a = entry q top (key l) (members key lines (key l))) ↔
      ∃ l ∈ lines, a = entry q top (key' l) (members key' lines (key' l)) := by
    apply exists_congr
    intro l
    apply and_congr_right
    intro member
    rw [same l member, members_congr same]
  constructor
  · rintro ⟨distinct, mem⟩
    exact ⟨distinct, fun a => (mem a).trans (entries a)⟩
  · rintro ⟨distinct, mem⟩
    exact ⟨distinct, fun a => (mem a).trans (entries a).symm⟩

/-- Entries for the keys, each once, are a grouping. -/
theorem reports_of_keys {keys : List Group} (all : keys.Perm (lines.map key).dedup)
    (perm : out.Perm (keys.map fun group => entry q top group (members key lines group))) :
    Reports q key top lines out := by
  constructor
  · have groups := perm.map (·.group)
    rw [List.map_map] at groups
    have same : (fun a : StepAggregate => a.group) ∘ (fun group => entry q top group (members key lines group)) = id :=
      rfl
    rw [same, List.map_id] at groups
    exact (groups.trans all).nodup_iff.mpr (List.nodup_dedup _)
  · intro a
    rw [perm.mem_iff, List.mem_map]
    constructor
    · rintro ⟨group, member, rfl⟩
      obtain ⟨l, there, rfl⟩ := List.mem_map.mp (List.mem_dedup.mp (all.mem_iff.mp member))
      exact ⟨l, there, rfl⟩
    · rintro ⟨l, there, rfl⟩
      exact ⟨key l, all.mem_iff.mpr (List.mem_dedup.mpr (List.mem_map_of_mem there)), rfl⟩

/-- A backend's answer, from rows that are read as lines and grouped by the keys of these. -/
theorem reports_of_rows {σ : Type} (read : σ → StepLine) {rows : List σ} {group : σ → Group}
    (own : ∀ row, group row = key (read row)) {report : Group → StepAggregate}
    (shown : ∀ row, report (group row) = entry q top (group row) ((members group rows (group row)).map read))
    {keys : List Group} (all : keys.Perm (rows.map group).dedup) (perm : out.Perm (keys.map report)) :
    Reports q key top (rows.map read) out := by
  have named : (rows.map read).map key = rows.map group := by
    rw [List.map_map]
    exact List.map_congr_left fun row _ => (own row).symm
  apply reports_of_keys (named ▸ all)
  have same : keys.map report = keys.map fun k => entry q top k (members key (rows.map read) k) := by
    apply List.map_congr_left
    intro k member
    obtain ⟨row, _, rfl⟩ := List.mem_map.mp (List.mem_dedup.mp (all.mem_iff.mp member))
    rw [shown, members_map, members_congr fun row _ => own row]
  exact same ▸ perm

/-- An answer that counts more lines is the grouping of the fewer if each that is more is in one of their groups,
none is counted, and the maxima are theirs. -/
theorem Reports.append_iff {top' : List StepLine → Option Int} {more all : List StepLine}
    (perm : all.Perm (lines ++ more)) (reports : Reports q key top all out) :
    Reports q key top' lines out ↔
      (∀ x ∈ more, q.selectCount = false ∧ ∃ l ∈ lines, key l = key x) ∧
      (q.selectMaxDurationMs = true → ∀ l ∈ lines,
        top (members key all (key l)) = top' (members key lines (key l))) := by
  have parts (group : Group) : (members key all group).length =
      (members key lines group).length + (members key more group).length := by
    rw [← List.length_append, ← members_append]
    exact (perm.filter _).length_eq
  have within (l : StepLine) : l ∈ all ↔ l ∈ lines ∨ l ∈ more := by rw [perm.mem_iff, List.mem_append]
  constructor
  · intro fewer
    have equal (l : StepLine) (member : l ∈ all) : ∃ l' ∈ lines, key l' = key l ∧
        entry q top (key l) (members key all (key l)) = entry q top' (key l) (members key lines (key l)) := by
      obtain ⟨l', there, same⟩ := (fewer.mem _).mp ((reports.mem _).mpr ⟨l, member, rfl⟩)
      have group : key l = key l' := congrArg StepAggregate.group same
      exact ⟨l', there, group.symm, group ▸ same⟩
    constructor
    · intro x member
      obtain ⟨l, there, group, same⟩ := equal x ((within x).mpr (.inr member))
      refine ⟨?_, l, there, group⟩
      cases selected : q.selectCount with
      | false => rfl
      | true =>
        have counts := congrArg StepAggregate.count same
        simp only [entry, selected, if_true, Option.some.injEq, Nat.cast_inj, parts] at counts
        have own : 0 < (members key more (key x)).length :=
          List.length_pos_of_mem (mem_members.mpr ⟨member, rfl⟩)
        omega
    · intro selected l member
      obtain ⟨_, _, _, same⟩ := equal l ((within l).mpr (.inl member))
      simpa [entry, selected] using congrArg StepAggregate.maxDurationMs same
  · rintro ⟨hidden, maxima⟩
    have equal (l : StepLine) (member : l ∈ lines) :
        entry q top (key l) (members key all (key l)) = entry q top' (key l) (members key lines (key l)) := by
      have counts : q.selectCount = true → (members key all (key l)).length = (members key lines (key l)).length := by
        intro selected
        have none : members key more (key l) = [] := by
          apply List.eq_nil_iff_forall_not_mem.mpr
          intro x there
          exact absurd ((hidden x (mem_members.mp there).1).1.symm.trans selected) (by decide)
        rw [parts, none]
        rfl
      simp only [entry, StepAggregate.mk.injEq, true_and]
      constructor
      · split
        next selected => rw [counts selected]
        next => rfl
      · split
        next selected => exact maxima selected l member
        next => rfl
    refine ⟨reports.distinct, fun a => (reports.mem a).trans ⟨?_, ?_⟩⟩
    · rintro ⟨x, member, rfl⟩
      rcases (within x).mp member with member | member
      · exact ⟨x, member, equal x member⟩
      · obtain ⟨_, l, there, group⟩ := hidden x member
        exact ⟨l, there, group ▸ equal l there⟩
    · rintro ⟨l, member, rfl⟩
      exact ⟨l, (within l).mpr (.inl member), (equal l member).symm⟩

end

/-- The longest duration as 64 bits hold the durations. -/
def wrapped (lines : List StepLine) : Option Int := ((lines.filterMap (·.duration)).map asI64).max?

theorem stepSkipped_eq (q : StepAggregateQuery) (id : String) (row : StepRow) :
    (!stepSkipped q id row) = accepts q (ofRow id row).succeeded := by
  have start : q.workflowIdPrefix.all (startsWith id) = !q.workflowIdPrefix.any fun start => !startsWith id start := by
    cases q.workflowIdPrefix <;> simp
  have asked : anyOf q.status (ofRow id row).succeeded.status =
      !(!q.status.isEmpty && !q.status.any fun s => s == Memory.STEP_STATUS) := by
    have named : (q.status.any fun s => s == "SUCCESS") = q.status.contains "SUCCESS" := by
      rw [Bool.eq_iff_iff]
      simp
    simp [anyOf, StepLine.succeeded, StepLine.status, Memory.STEP_STATUS, named]
  simp only [accepts, passes, asked, Memory.anyOf_eq]
  simp only [StepLine.succeeded, ofRow, Memory.after_eq, Memory.before_eq, start, stepSkipped, Bool.not_or]
  ac_rfl

theorem stepKey_eq (q : StepAggregateQuery) (id : String) (row : StepRow) :
    stepKey q row = groupOf q (ofRow id row).succeeded := by
  simp only [stepKey, StepAggregateQuery.groupExprs, groupOf]
  cases q.byFunctionName <;> cases q.byStatus <;>
    simp [Memory.stepDimension, Memory.STEP_STATUS, ofRow, StepLine.succeeded, StepLine.status]

/-- The dimensions are named in the order of their names. -/
theorem collect_groupOf (q : StepAggregateQuery) (l : StepLine) : Group.collect (groupOf q l) = groupOf q l := by
  simp only [groupOf]
  cases q.byFunctionName <;> cases q.byStatus <;> cases bucketSize q.timeBucketMs <;> simp [Group.collect]

theorem stepDuration_eq (id : String) (row : StepRow) :
    stepDuration row = (ofRow id row).duration.map asI64 := by
  cases start : row.startedAtMs <;> cases stop : row.completedAtMs <;>
    simp [stepDuration, StepLine.duration, ofRow, start, stop]

theorem foldl_addStep (rows : List ((String × Int) × StepRow)) (n : Int) (best : Option Int) :
    rows.foldl (fun acc row => addStep acc row.2) (n, best) =
      (rows.foldl (fun n _ => n + 1) n, rows.foldl (fun best row => raise best (stepDuration row.2)) best) := by
  induction rows generalizing n best with
  | nil => rfl
  | cons row rows ih =>
    rw [List.foldl_cons]
    exact ih ..

/-- What the loop reports of a group's rows. -/
theorem stepAggregate_foldl (q : StepAggregateQuery) (l : StepLine) (rows : List ((String × Int) × StepRow)) :
    stepAggregate q (groupOf q l) (rows.foldl (fun acc row => addStep acc row.2) (0, none)) =
      entry q wrapped (groupOf q l) (rows.map fun row => ofRow row.1.1 row.2) := by
  have durations : rows.filterMap (fun row => stepDuration row.2) =
      ((rows.map fun row => ofRow row.1.1 row.2).filterMap (·.duration)).map asI64 := by
    rw [List.filterMap_map, List.map_filterMap]
    exact List.filterMap_congr fun row _ => stepDuration_eq row.1.1 row.2
  simp only [foldl_addStep, foldl_count, foldl_raise, stepAggregate, entry, wrapped, collect_groupOf, durations,
    List.length_map, zero_add]

/-- The in-memory answer groups the lines that would be accepted without an error, as lines without one. -/
theorem memory_reports (q : StepAggregateQuery) (s : Inner) (unlimited : q.limit = none) :
    ∃ mine, Memory.getStepAggregates q s = (.ok mine, s) ∧
      Reports q (fun l => groupOf q l.succeeded) wrapped
        ((stepLines s).filter fun l => accepts q l.succeeded) mine := by
  have lines : (stepLines s).filter (fun l => accepts q l.succeeded) =
      (s.steps.toList.filter fun row => !stepSkipped q row.1.1 row.2).map fun row => ofRow row.1.1 row.2 := by
    rw [stepLines, List.filter_map]
    exact congrArg _ (List.filter_congr fun row _ => (stepSkipped_eq q row.1.1 row.2).symm)
  refine ⟨_, rfl, ?_⟩
  rw [unlimited, lines]
  refine reports_of_rows _ (fun row => stepKey_eq q row.1.1 row.2) (fun row => ?_) (keys_groupBy ..)
    ((Group.arrange_perm ..).trans (List.Perm.of_eq (map_groupBy _ _ _ _ (stepAggregate q))))
  rw [stepKey_eq q row.1.1 row.2, stepAggregate_foldl]

def read (real : Int → Int → ℚ) (lines : List StepLine) : Option Int :=
  readI64 (lines.foldl (fun best l => larger best (l.minus real)) none)

theorem pushStepAggFilters_eq (q : StepAggregateQuery) (id : String) (r : StepRecord) :
    pushStepAggFilters q id r = clause q (ofRecord id r) := by
  have status : Sqlite.stepStatusExpr r = (ofRecord id r).status := by
    cases failed : r.error <;> simp [Sqlite.stepStatusExpr, ofRecord, StepLine.status, failed]
  simp only [pushStepAggFilters, clause, passes, status, Sqlite.pushIn, anyOf, Option.any_some]
  simp only [ofRecord, Bool.and_assoc, Bool.and_left_comm]

theorem stepColumns_eq (q : StepAggregateQuery) (id : String) (r : StepRecord) :
    stepColumns q r = groupOf q (ofRecord id r) := by
  have status : Sqlite.stepStatusExpr r = (ofRecord id r).status := by
    cases failed : r.error <;> simp [Sqlite.stepStatusExpr, ofRecord, StepLine.status, failed]
  simp only [stepColumns, StepAggregateQuery.groupExprs, groupOf]
  cases q.byFunctionName <;> cases q.byStatus <;> simp [Sqlite.stepExpr, status, ofRecord]

theorem rowToStepAggregate_eq (real : Int → Int → ℚ) (q : StepAggregateQuery) (l : StepLine)
    (rows : List ((String × Int) × StepRecord)) :
    rowToStepAggregate real q (groupOf q l) rows =
      entry q (read real) (groupOf q l) (rows.map fun row => ofRecord row.1.1 row.2) := by
  simp only [rowToStepAggregate, entry, read, collect_groupOf, List.length_map, List.foldl_map]
  rfl

/-- Why SQLite does not answer. -/
theorem sqlite_answers_iff (refuses : StepAggregateQuery → Option Error) (real : Int → Int → ℚ) (q : StepAggregateQuery)
    (found : List ((String × Int) × StepRecord)) :
    (∃ theirs, Sqlite.getStepAggregates refuses real q found = .ok theirs) ↔
      q.noSelect = false ∧ (q.groupExprs ≠ [] ∨ (bucketSize q.timeBucketMs).isSome = true) ∧ refuses q = none := by
  simp only [Sqlite.getStepAggregates]
  cases selected : q.noSelect with
  | true => simp
  | false =>
    cases named : q.groupExprs with
    | nil =>
      cases bucket : bucketSize q.timeBucketMs with
      | none => simp
      | some size => cases refused : refuses q <;> simp
    | cons => cases refused : refuses q <;> simp

theorem sqlite_reports {refuses : StepAggregateQuery → Option Error} {real : Int → Int → ℚ} {q : StepAggregateQuery}
    {found : List ((String × Int) × StepRecord)} {theirs : List StepAggregate} (unlimited : q.limit = none)
    (answered : Sqlite.getStepAggregates refuses real q found = .ok theirs) :
    Reports q (groupOf q) (read real) (found.map fun row => ofRecord row.1.1 row.2) theirs := by
  have answer : theirs = (found.map fun row => stepColumns q row.2).dedup.map fun columns =>
      rowToStepAggregate real q columns (members (fun row => stepColumns q row.2) found columns) := by
    obtain ⟨selected, grouped, accepted⟩ := (sqlite_answers_iff refuses real q found).mp ⟨theirs, answered⟩
    have grouping : (q.groupExprs.isEmpty && (bucketSize q.timeBucketMs).isNone) = false := by
      rcases grouped with named | bucket
      · simp [named]
      · simp [← Option.not_isSome, bucket]
    simp only [Sqlite.getStepAggregates, selected, grouping, accepted, unlimited, Bool.false_eq_true,
      if_false] at answered
    exact (Except.ok.inj answered).symm
  refine reports_of_rows _ (fun row => stepColumns_eq q row.1.1 row.2) (fun row => ?_) (List.Perm.refl _)
    (List.Perm.of_eq answer)
  rw [stepColumns_eq q row.1.1 row.2, rowToStepAggregate_eq]

/-- One number after another: the last that is greater than all before it. -/
def largest (zs : List SqlNumber) : Option SqlNumber := zs.foldl (fun best z => larger best (some z)) none

theorem foldl_larger_minus (real : Int → Int → ℚ) (lines : List StepLine) (best : Option SqlNumber) :
    lines.foldl (fun best l => larger best (l.minus real)) best =
      (lines.filterMap (·.minus real)).foldl (fun best z => larger best (some z)) best := by
  induction lines generalizing best with
  | nil => rfl
  | cons l lines ih =>
    rw [List.foldl_cons, ih]
    cases number : l.minus real with
    | none => cases best <;> simp [number, larger]
    | some z => simp [number]

theorem read_eq (real : Int → Int → ℚ) (lines : List StepLine) :
    read real lines = readI64 (largest (lines.filterMap (·.minus real))) :=
  congrArg readI64 (foldl_larger_minus real lines none)

/-- What stays is greatest, and the first if none is greater than it. -/
theorem foldl_larger (zs : List SqlNumber) (b : SqlNumber) :
    ∃ m, zs.foldl (fun best z => larger best (some z)) (some b) = some m ∧ m ∈ b :: zs ∧
      (∀ z ∈ b :: zs, z.value ≤ m.value) ∧ ((∀ z ∈ zs, z.value ≤ b.value) → m = b) := by
  induction zs generalizing b with
  | nil => exact ⟨b, rfl, by simp, by simp, fun _ => rfl⟩
  | cons z zs ih =>
    by_cases greater : b.value < z.value
    · obtain ⟨m, stays, member, above, _⟩ := ih z
      refine ⟨m, by simpa [larger, greater] using stays, List.mem_cons_of_mem b member, ?_, fun all => ?_⟩
      · intro x there
        rcases List.mem_cons.mp there with rfl | there
        · exact le_trans greater.le (above z List.mem_cons_self)
        · exact above x there
      · exact absurd greater (not_lt.mpr (all z List.mem_cons_self))
    · obtain ⟨m, stays, member, above, first⟩ := ih b
      refine ⟨m, by simpa [larger, greater] using stays, ?_, ?_,
        fun all => first fun x there => all x (List.mem_cons_of_mem z there)⟩
      · rcases List.mem_cons.mp member with rfl | member
        · exact List.mem_cons_self
        · exact List.mem_cons_of_mem b (List.mem_cons_of_mem z member)
      · intro x there
        rcases List.mem_cons.mp there with rfl | there
        · exact above x List.mem_cons_self
        · rcases List.mem_cons.mp there with rfl | there
          · exact le_trans (not_lt.mp greater) (above b List.mem_cons_self)
          · exact above x (List.mem_cons_of_mem b there)

/-- A number that does not change what is read: it is below one of the integers, or there are none and it is no integer
or below a floating number. -/
def Quiet (xs : List Int) (zs : List SqlNumber) (z : SqlNumber) : Prop :=
  (∃ m ∈ xs, Below z m) ∨ xs = [] ∧ ∀ n, z = .integer n → ∃ r, .real r ∈ zs ∧ (n : ℚ) < r

theorem read_of_quiet {xs : List Int} {zs : List SqlNumber} (reached : ∀ n, xs.max? = some n → .integer n ∈ zs)
    (quiet : ∀ z ∈ zs, Quiet xs zs z) : readI64 (largest zs) = xs.max? := by
  cases zs with
  | nil =>
    cases best : xs.max? with
    | none => rfl
    | some n => simpa using reached n best
  | cons z zs =>
    obtain ⟨m, stays, member, above, _⟩ := foldl_larger zs z
    have stays : largest (z :: zs) = some m := stays
    rw [stays]
    rcases quiet m member with ⟨x, there, below⟩ | ⟨rfl, outdone⟩
    · obtain ⟨top, best⟩ : ∃ top, xs.max? = some top := by
        cases best : xs.max? with
        | none => simp [List.max?_eq_none_iff.mp best] at there
        | some top => exact ⟨top, rfl⟩
      have under := above _ (reached top best)
      have most := (List.max?_eq_some_iff.mp best).2 x there
      rw [best]
      cases m with
      | integer n =>
        simp only [SqlNumber.value, Int.cast_le] at under
        have below : n ≤ x := below
        simp [readI64, le_antisymm (below.trans most) under]
      | real r =>
        have below : r < x := below
        have reach : (x : ℚ) ≤ top := Int.cast_le.mpr most
        exact absurd (lt_of_lt_of_le below reach) (not_lt.mpr under)
    · cases m with
      | integer n =>
        obtain ⟨r, there, less⟩ := outdone n rfl
        exact absurd less (not_lt.mpr (above _ there))
      | real r => rfl

theorem quiet_of_read {xs : List Int} {zs : List SqlNumber} {z : SqlNumber}
    (same : readI64 (largest (z :: zs)) = xs.max?) : Quiet xs (z :: zs) z := by
  obtain ⟨m, stays, member, above, first⟩ := foldl_larger zs z
  have stays : largest (z :: zs) = some m := stays
  rw [stays] at same
  have under := above z List.mem_cons_self
  -- the first stays if it is as great as any
  have kept (equal : z.value = m.value) : m = z :=
    first fun x there => equal ▸ above x (List.mem_cons_of_mem z there)
  cases m with
  | integer n =>
    refine .inl ⟨n, (List.max?_eq_some_iff.mp same.symm).1, ?_⟩
    cases z with
    | integer k => exact Int.cast_le.mp under
    | real r =>
      rcases lt_or_eq_of_le under with less | equal
      · exact less
      · cases kept equal
  | real r =>
    refine .inr ⟨List.max?_eq_none_iff.mp same.symm, ?_⟩
    rintro n rfl
    rcases lt_or_eq_of_le under with less | equal
    · exact ⟨r, member, less⟩
    · cases kept equal

section
variable {q : StepAggregateQuery} {lines : List StepLine}

def durations (q : StepAggregateQuery) (lines : List StepLine) (group : Group) : List Int :=
  (members (groupOf q) (reference q lines) group).filterMap (·.duration)

theorem mem_durations {group : Group} {n : Int} : n ∈ durations q lines group ↔ Lasts q lines group n := by
  simp [durations, Lasts, and_assoc]

def Failed (q : StepAggregateQuery) (lines : List StepLine) : Prop :=
  ∀ l ∈ reference q lines, l.failed = true → q.byStatus = false ∧ anyOf q.status "SUCCESS" = true

def Misread (q : StepAggregateQuery) (lines : List StepLine) : Prop :=
  ∀ l ∈ lines, accepts q l = false → accepts q l.succeeded = true →
    Hidden q lines (groupOf q l.succeeded) ∧ (q.selectMaxDurationMs = true → ∀ n ∈ l.duration,
      ∃ m, Lasts q lines (groupOf q l.succeeded) m ∧ asI64 n ≤ m)

def Fits (q : StepAggregateQuery) (lines : List StepLine) : Prop :=
  q.selectMaxDurationMs = true → ∀ l ∈ reference q lines, ∀ n ∈ l.duration,
    n < 2 ^ 63 ∧ ∃ m, Lasts q lines (groupOf q l) m ∧ asI64 n ≤ m

theorem mem_reference {l : StepLine} : l ∈ reference q lines ↔ l ∈ lines ∧ accepts q l = true := List.mem_filter

/-- Where failed lines are as good as succeeded ones, the accepted are counted. -/
theorem accepts_succeeded (failed : Failed q lines) {l : StepLine} (member : l ∈ lines)
    (accepted : accepts q l = true) :
    accepts q l.succeeded = true ∧ groupOf q l.succeeded = groupOf q l := by
  cases outcome : l.failed with
  | false =>
    have same : l.succeeded = l := by
      cases l
      cases outcome
      rfl
    rw [same]
    exact ⟨accepted, rfl⟩
  | true =>
    obtain ⟨apart, asked⟩ := failed l (mem_reference.mpr ⟨member, accepted⟩) outcome
    simp only [accepts, Bool.and_eq_true] at accepted
    constructor
    · simp only [accepts, Bool.and_eq_true]
      exact ⟨⟨asked, accepted.1.2⟩, accepted.2⟩
    · simp [groupOf, apart, StepLine.succeeded]

/-- Lines counted by a wider condition: the accepted, and the others. -/
theorem counted_perm {counts : StepLine → Bool} (wider : ∀ l ∈ lines, accepts q l = true → counts l = true) :
    (lines.filter counts).Perm
      (reference q lines ++ (lines.filter counts).filter fun l => !accepts q l) := by
  have accepted : (lines.filter counts).filter (accepts q) = reference q lines := by
    rw [List.filter_filter]
    apply List.filter_congr
    intro l member
    cases taken : accepts q l with
    | false => simp
    | true => simp [wider l member taken]
  exact accepted ▸ (List.filter_append_perm (accepts q) _).symm

theorem wrapped_iff (key : StepLine → Group) {all few more : List StepLine} (perm : all.Perm (few ++ more))
    (group : Group) :
    wrapped (members key all group) = longest (members key few group) ↔
      (∀ n ∈ (members key few group).filterMap (·.duration),
        n < 2 ^ 63 ∧ ∃ m ∈ (members key few group).filterMap (·.duration), asI64 n ≤ m) ∧
      ∀ n ∈ (members key more group).filterMap (·.duration),
        ∃ m ∈ (members key few group).filterMap (·.duration), asI64 n ≤ m := by
  have parts : ((members key all group).filterMap (·.duration)).Perm
      ((members key few group).filterMap (·.duration) ++ (members key more group).filterMap (·.duration)) := by
    rw [← List.filterMap_append, ← members_append]
    exact (perm.filter _).filterMap _
  rw [wrapped, longest, max?_perm (parts.map asI64), List.map_append,
    max?_read_iff (fun n low high => asI64_of_fits low high) asI64_range _ _ fun z member => by
      obtain ⟨n, _, rfl⟩ := List.mem_map.mp member
      exact (asI64_range n).2]
  simp only [List.forall_mem_map]

/-- The in-memory answer is the reference grouping unless a failed step is misread or a difference does not fit. -/
theorem memory_iff {s : Inner} {mine : List StepAggregate} (unlimited : q.limit = none)
    (answered : Memory.getStepAggregates q s = (.ok mine, s)) :
    IsGroupBy q (stepLines s) mine ↔
      Failed q (stepLines s) ∧ Misread q (stepLines s) ∧ Fits q (stepLines s) := by
  obtain ⟨_, answer, reports⟩ := memory_reports q s unlimited
  obtain rfl : mine = _ := by simpa using answered.symm.trans answer
  generalize stepLines s = lines at reports
  rw [isGroupBy_iff]
  have failed (groups : Reports q (groupOf q) longest (reference q lines) mine) : Failed q lines := by
    intro l member outcome
    obtain ⟨l', there, same⟩ := (reports.mem _).mp ((groups.mem _).mpr ⟨l, member, rfl⟩)
    have group : groupOf q l = groupOf q l'.succeeded := congrArg StepAggregate.group same
    have asked := (List.mem_filter.mp there).2
    simp only [accepts, Bool.and_eq_true] at asked
    refine ⟨?_, asked.1.1⟩
    cases apart : q.byStatus with
    | false => rfl
    | true =>
      cases named : q.byFunctionName <;>
        simp [groupOf, apart, named, StepLine.status, StepLine.succeeded, outcome] at group
  have rest (failed : Failed q lines) : Reports q (groupOf q) longest (reference q lines) mine ↔
      Misread q lines ∧ Fits q lines := by
    have keyed (l : StepLine) (member : l ∈ reference q lines) : groupOf q l.succeeded = groupOf q l :=
      (accepts_succeeded failed (mem_reference.mp member).1 (mem_reference.mp member).2).2
    have perm := counted_perm fun l member accepted => (accepts_succeeded failed member accepted).1
    have more (x : StepLine) : (x ∈ (lines.filter fun l => accepts q l.succeeded).filter fun l => !accepts q l) ↔
        x ∈ lines ∧ accepts q x.succeeded = true ∧ accepts q x = false := by
      simp only [List.mem_filter, Bool.not_eq_true', and_assoc]
    have maxima (group : Group) := wrapped_iff (fun l => groupOf q l.succeeded) perm group
    have own (group : Group) : (members (fun l => groupOf q l.succeeded) (reference q lines) group).filterMap
        (·.duration) = durations q lines group := by rw [durations, members_congr keyed]
    simp only [own, mem_durations] at maxima
    rw [← Reports.congr keyed, Reports.append_iff perm reports]
    simp only [maxima]
    constructor
    · rintro ⟨hidden, exact⟩
      refine ⟨fun x member dropped taken => ?_, fun selected l member n has => ?_⟩
      · have besides := (more x).mpr ⟨member, taken, dropped⟩
        obtain ⟨uncounted, l, there, same⟩ := hidden x besides
        refine ⟨⟨uncounted, l, there, (keyed l there).symm.trans same⟩, fun selected n has => ?_⟩
        exact same ▸ (exact selected l there).2 n
          (List.mem_filterMap.mpr ⟨x, mem_members.mpr ⟨besides, same.symm⟩, has⟩)
      · rw [← keyed l member]
        exact (exact selected l member).1 n ⟨l, member, (keyed l member).symm, has⟩
    · rintro ⟨misread, fits⟩
      refine ⟨fun x besides => ?_, fun selected l member => ⟨?_, fun n has => ?_⟩⟩
      · obtain ⟨member, taken, dropped⟩ := (more x).mp besides
        obtain ⟨⟨uncounted, l, there, same⟩, _⟩ := misread x member dropped taken
        exact ⟨uncounted, l, there, (keyed l there).trans same⟩
      · rintro n ⟨l', there, same, has⟩
        exact same ▸ fits selected l' there n has
      · obtain ⟨x, there, has⟩ := List.mem_filterMap.mp has
        obtain ⟨besides, same⟩ := mem_members.mp there
        obtain ⟨member, taken, dropped⟩ := (more x).mp besides
        exact same ▸ (misread x member dropped taken).2 selected n has
  exact ⟨fun groups => ⟨failed groups, (rest (failed groups)).mp groups⟩, fun all => (rest all.1).mpr all.2⟩

def Alike (real : Int → Int → ℚ) (q : StepAggregateQuery) (lines : List StepLine) : Prop :=
  ∀ l ∈ lines, accepts q l = false → clause q l = true →
    Hidden q lines (groupOf q l) ∧ (q.selectMaxDurationMs = true → ∀ x ∈ l.minus real,
      (∃ m, Lasts q lines (groupOf q l) m ∧ Below x m) ∨
        (∀ m, ¬ Lasts q lines (groupOf q l) m) ∧ ∀ n, x = .integer n → ∃ l' ∈ lines, clause q l' = true ∧
          groupOf q l' = groupOf q l ∧ ∃ r, l'.minus real = some (.real r) ∧ (n : ℚ) < r)

def Timed (lines : List StepLine) : Prop :=
  ∀ l ∈ lines, (∀ t ∈ l.startedAtMs, -2 ^ 63 ≤ t ∧ t < 2 ^ 63) ∧ ∀ t ∈ l.completedAtMs, -2 ^ 63 ≤ t ∧ t < 2 ^ 63

theorem clause_of_accepts {l : StepLine} (accepted : accepts q l = true) : clause q l = true := by
  simp only [accepts, clause, Bool.and_eq_true] at accepted ⊢
  refine ⟨⟨accepted.1.1, ?_⟩, accepted.2⟩
  cases asked : q.workflowIdPrefix with
  | none => rfl
  | some start =>
    have begins : startsWith l.workflowId start = true := by simpa [asked] using accepted.1.2
    simpa using Listings.like_of_startsWith begins

theorem mem_duration {l : StepLine} {n : Int} :
    n ∈ l.duration ↔ ∃ c ∈ l.completedAtMs, ∃ s ∈ l.startedAtMs, n = c - s := by
  simp only [StepLine.duration, Option.mem_def, Option.bind_eq_some_iff, Option.map_eq_some_iff, eq_comm (a := n)]

theorem mem_minus {real : Int → Int → ℚ} {l : StepLine} {z : SqlNumber} :
    z ∈ l.minus real ↔ ∃ c ∈ l.completedAtMs, ∃ s ∈ l.startedAtMs, z = Sqlite.minus real c s := by
  simp only [StepLine.minus, Option.mem_def, Option.bind_eq_some_iff, Option.map_eq_some_iff, eq_comm (a := z)]

theorem minus_integer (real : Int → Int → ℚ) {a b : Int} (low : -2 ^ 63 ≤ a - b) (high : a - b < 2 ^ 63) :
    Sqlite.minus real a b = .integer (a - b) := if_pos ⟨low, high⟩

theorem minus_real (real : Int → Int → ℚ) {a b : Int} (low : ¬ -2 ^ 63 ≤ a - b) :
    Sqlite.minus real a b = .real (real a b) := if_neg fun fits => low fits.1

theorem minus_of_fits {real : Int → Int → ℚ} {l : StepLine} {n : Int} (has : n ∈ l.duration) (low : -2 ^ 63 ≤ n)
    (high : n < 2 ^ 63) : .integer n ∈ l.minus real := by
  obtain ⟨c, stop, s, start, rfl⟩ := mem_duration.mp has
  exact mem_minus.mpr ⟨c, stop, s, start, (minus_integer real low high).symm⟩

/-- An accepted line's own difference does not change what is read. -/
theorem quiet_of_accepted {real : Int → Int → ℚ} (signed : Signed real) (timed : Timed lines) (fits : Fits q lines)
    (selected : q.selectMaxDurationMs = true) {l : StepLine} (member : l ∈ reference q lines) {z : SqlNumber}
    (number : z ∈ l.minus real) : ∃ m ∈ durations q lines (groupOf q l), Below z m := by
  obtain ⟨c, stop, s, start, rfl⟩ := mem_minus.mp number
  have has : c - s ∈ l.duration := mem_duration.mpr ⟨c, stop, s, start, rfl⟩
  obtain ⟨high, m, lasts, le⟩ := fits selected l member _ has
  by_cases low : -2 ^ 63 ≤ c - s
  · refine ⟨c - s, mem_durations.mpr ⟨l, member, rfl, has⟩, ?_⟩
    rw [minus_integer real low high]
    exact le_refl (c - s)
  · -- it wraps to a positive one, which is below a duration of the group
    obtain ⟨starts, stops⟩ := timed l (mem_reference.mp member).1
    have least := starts s start
    have most := stops c stop
    have negative := signed c s most least (not_le.mp low)
    have wraps : 0 ≤ asI64 (c - s) := by
      rw [asI64, Int.bmod_def]
      split <;> omega
    have reach : (0 : ℚ) ≤ m := Int.cast_nonneg (wraps.trans le)
    refine ⟨m, mem_durations.mpr lasts, ?_⟩
    rw [minus_real real low]
    exact lt_of_lt_of_le negative reach

/-- The longest duration of a group is read as it is. -/
theorem integer_of_top {real : Int → Int → ℚ} (fits : Fits q lines) (selected : q.selectMaxDurationMs = true)
    {group : Group} {n : Int} (top : (durations q lines group).max? = some n) :
    ∃ l ∈ reference q lines, groupOf q l = group ∧ .integer n ∈ l.minus real := by
  obtain ⟨there, greatest⟩ := List.max?_eq_some_iff.mp top
  obtain ⟨l, member, rfl, has⟩ := mem_durations.mp there
  obtain ⟨high, m, lasts, le⟩ := fits selected l member n has
  have most := greatest m (mem_durations.mpr lasts)
  have least := (asI64_range n).1
  exact ⟨l, member, rfl, minus_of_fits has (by omega) high⟩

theorem sqlite_of_alike {real : Int → Int → ℚ} (signed : Signed real) (timed : Timed lines) (fits : Fits q lines)
    (alike : Alike real q lines) {scan : List StepLine} (perm : scan.Perm (lines.filter (clause q)))
    {theirs : List StepAggregate} (reports : Reports q (groupOf q) (read real) scan theirs) :
    IsGroupBy q lines theirs := by
  have within (l : StepLine) : l ∈ scan ↔ l ∈ lines ∧ clause q l = true := by rw [perm.mem_iff, List.mem_filter]
  rw [isGroupBy_iff, Reports.append_iff (perm.trans (counted_perm fun _ _ => clause_of_accepts)) reports]
  constructor
  · intro x besides
    simp only [List.mem_filter, Bool.not_eq_true', and_assoc] at besides
    exact (alike x besides.1 besides.2.2 besides.2.1).1
  · intro selected l _
    rw [read_eq]
    refine read_of_quiet (fun n top => ?_) fun z member => ?_
    · obtain ⟨l', there, same, number⟩ := integer_of_top fits selected top
      have counted := (within l').mpr ⟨(mem_reference.mp there).1, clause_of_accepts (mem_reference.mp there).2⟩
      exact List.mem_filterMap.mpr ⟨l', mem_members.mpr ⟨counted, same⟩, number⟩
    · obtain ⟨l', there, number⟩ := List.mem_filterMap.mp member
      obtain ⟨scanned, same⟩ := mem_members.mp there
      obtain ⟨here, taken⟩ := (within l').mp scanned
      rw [← same]
      cases accepted : accepts q l' with
      | true => exact .inl (quiet_of_accepted signed timed fits selected (mem_reference.mpr ⟨here, accepted⟩) number)
      | false =>
        rcases (alike l' here accepted taken).2 selected z number with ⟨m, lasts, below⟩ | ⟨none, outdone⟩
        · exact .inl ⟨m, mem_durations.mpr lasts, below⟩
        · refine .inr ⟨List.eq_nil_iff_forall_not_mem.mpr fun m has => none m (mem_durations.mp has), fun n whole => ?_⟩
          obtain ⟨l'', other, asked, alike', r, floating, less⟩ := outdone n whole
          exact ⟨r, List.mem_filterMap.mpr
            ⟨l'', mem_members.mpr ⟨(within l'').mpr ⟨other, asked⟩, alike'⟩, floating⟩, less⟩

/-- If the answer is the reference in every order of the scan, it is with any line first. -/
theorem alike_of_sqlite {real : Int → Int → ℚ}
    (first : ∀ l ∈ lines, clause q l = true → ∃ rest theirs, (l :: rest).Perm (lines.filter (clause q)) ∧
      Reports q (groupOf q) (read real) (l :: rest) theirs ∧ IsGroupBy q lines theirs) : Alike real q lines := by
  intro l member dropped taken
  obtain ⟨rest, theirs, perm, reports, grouping⟩ := first l member taken
  rw [isGroupBy_iff, Reports.append_iff (perm.trans (counted_perm fun _ _ => clause_of_accepts)) reports] at grouping
  obtain ⟨hidden, exact⟩ := grouping
  have shared := hidden l (by simp [member, dropped, taken])
  refine ⟨shared, fun selected z number => ?_⟩
  obtain ⟨_, l', there, same⟩ := shared
  have equal := exact selected l' there
  have numbers : (members (groupOf q) (l :: rest) (groupOf q l)).filterMap (·.minus real) =
      z :: (members (groupOf q) rest (groupOf q l)).filterMap (·.minus real) := by
    have own : members (groupOf q) (l :: rest) (groupOf q l) = l :: members (groupOf q) rest (groupOf q l) := by
      simp [members]
    rw [own, List.filterMap_cons_some number]
  rw [same, read_eq, numbers] at equal
  rcases quiet_of_read equal with ⟨m, has, below⟩ | ⟨none, outdone⟩
  · exact .inl ⟨m, mem_durations.mp has, below⟩
  · refine .inr ⟨fun m lasts => ?_, fun n whole => ?_⟩
    · exact List.eq_nil_iff_forall_not_mem.mp none m (mem_durations.mpr lasts)
    · obtain ⟨r, there, less⟩ := outdone n whole
      obtain ⟨l'', counted, floating⟩ := List.mem_filterMap.mp (numbers ▸ there)
      obtain ⟨scanned, alike⟩ := mem_members.mp counted
      obtain ⟨here, asked⟩ := List.mem_filter.mp (perm.mem_iff.mp scanned)
      exact ⟨l'', here, asked, alike, r, floating, less⟩

end

theorem SameRows.lines {s : Inner} {db : Db} (same : SameRows s db) (q : StepAggregateQuery) :
    ((matching q db).map fun row => ofRecord row.1.1 row.2).Perm ((stepLines s).filter (clause q)) := by
  have all : (db.operationOutputs.toList.map fun row => ofRecord row.1.1 row.2).Perm (stepLines s) :=
    lines_perm (f := fun key r => ofRecord key.1 r) fun key => (same.rows key).symm
  have kept : (matching q db).map (fun row => ofRecord row.1.1 row.2) =
      (db.operationOutputs.toList.map fun row => ofRecord row.1.1 row.2).filter (clause q) := by
    rw [List.filter_map]
    exact congrArg _ (List.filter_congr fun row _ => pushStepAggFilters_eq q row.1.1 row.2)
  exact kept ▸ all.filter _

theorem SameRows.timed {s : Inner} {db : Db} (same : SameRows s db) : Timed (stepLines s) := by
  intro l member
  obtain ⟨⟨key, row⟩, there, rfl⟩ := List.mem_map.mp member
  have stored := (Table.mem_toList _ _ _).mp there
  exact ⟨same.starts key row stored, same.stops key row stored⟩

/-- Both backends answer with the reference grouping exactly when the query can be put to SQLite, no failed step is
misread, no workflow is merely like a prefix, and the durations fit, or what goes wrong does not show. -/
theorem agree_iff (refuses : StepAggregateQuery → Option Error) (real : Int → Int → ℚ) (signed : Signed real)
    (q : StepAggregateQuery) (unlimited : q.limit = none) (s : Inner) (db : Db) (same : SameRows s db) :
    Agree refuses real q s db ↔ Faithful refuses real q (stepLines s) := by
  have perm := same.lines q
  constructor
  · rintro ⟨mine, answered, mineGroups, all⟩
    obtain ⟨failed, misread, fits⟩ := (memory_iff unlimited answered).mp mineGroups
    obtain ⟨theirs, answer, _⟩ := all (matching q db) (List.Perm.refl _)
    obtain ⟨measured, grouped, accepted⟩ := (sqlite_answers_iff refuses real q _).mp ⟨theirs, answer⟩
    refine ⟨measured, grouped, accepted, failed, misread, alike_of_sqlite fun l member taken => ?_, fits⟩
    obtain ⟨row, there, rfl⟩ := List.mem_map.mp (perm.mem_iff.mpr (List.mem_filter.mpr ⟨member, taken⟩))
    have scan := List.perm_cons_erase there
    obtain ⟨theirs, answer, groups, _⟩ := all _ scan.symm
    exact ⟨_, theirs, (scan.symm.map _).trans perm, sqlite_reports unlimited answer, groups⟩
  · rintro ⟨measured, grouped, accepted, failed, misread, alike, fits⟩
    obtain ⟨mine, answered, _⟩ := memory_reports q s unlimited
    have mineGroups := (memory_iff unlimited answered).mpr ⟨failed, misread, fits⟩
    refine ⟨mine, answered, mineGroups, fun found scan => ?_⟩
    obtain ⟨theirs, answer⟩ := (sqlite_answers_iff refuses real q found).mpr ⟨measured, grouped, accepted⟩
    have groups := sqlite_of_alike signed same.timed fits alike ((scan.map _).trans perm)
      (sqlite_reports unlimited answer)
    exact ⟨theirs, answer, groups, (isGroupBy_iff.mp mineGroups).perm (isGroupBy_iff.mp groups)⟩

def chargeWorkflow : WorkflowStatus := .new 0 "w" "checkout" .null .pending "local" "v1"

/-- A workflow whose step was declined, in memory and on SQLite. -/
def declined : Inner :=
  Memory.run (.reading []) [(0, .insertWorkflowStatus chargeWorkflow),
    (2000000, .recordStepResult "w" 0 "charge" .null (some "declined") (some 1) none)] Inner.new

def declinedDb : Db :=
  (Sqlite.recordStepResult (.reading []) .json 2000000 "w" 0 "charge" .null (some "declined") (some 1) none
    (Sqlite.insertWorkflowStatus (.reading []) .json 0 chargeWorkflow Db.new).2).2

theorem declined_rows : SameRows declined declinedDb := by
  have stored (key : String × Int) : declined.steps.get key = if key = ("w", 0) then
      some ⟨"charge", none, some "declined", none, some 1, some 2⟩ else none := Table.get_put ..
  have recorded (key : String × Int) : declinedDb.operationOutputs.get key = if key = ("w", 0) then
      some ⟨"charge", none, some "declined", none, some "DBOS_JSON", some 1, some 2⟩ else none := Table.get_put ..
  constructor
  · intro key
    rw [stored, recorded]
    split <;> rfl
  · intro key row there t has
    rw [stored] at there
    split at there
    · cases there
      cases has
      omega
    · cases there
  · intro key row there t has
    rw [stored] at there
    split at there
    · cases there
      cases has
      omega
    · cases there

theorem signed_exact : Signed fun a b => ((a - b : Int) : ℚ) := by
  intro a b _ _ low
  exact Int.cast_lt_zero.mpr (by omega)

theorem declined_agrees :
    Agree (fun _ => none) (fun a b => ((a - b : Int) : ℚ)) { byFunctionName := true, selectCount := true } declined
      declinedDb := by
  refine (agree_iff (fun _ => none) _ signed_exact { byFunctionName := true, selectCount := true } rfl declined
    declinedDb declined_rows).mpr ⟨rfl, .inl (by decide), rfl, by decide, ?_, ?_, fun selected => by cases selected⟩
  all_goals
    intro l member dropped
    have all : ∀ l ∈ stepLines declined, accepts { byFunctionName := true, selectCount := true } l = true := by decide
    rw [all l member] at dropped
    cases dropped

/-- In memory every step is a success. -/
theorem declined_counted_apart :
    SameRows declined declinedDb ∧
    Memory.getStepAggregates { byStatus := true, selectCount := true } declined =
      (.ok [⟨[("status", some "SUCCESS")], some 1, none⟩], declined) ∧
    Sqlite.getStepAggregates (fun _ => none) (fun a b => ((a - b : Int) : ℚ)) { byStatus := true, selectCount := true }
      (matching { byStatus := true, selectCount := true } declinedDb) =
      .ok [⟨[("status", some "ERROR")], some 1, none⟩] ∧
    ¬ Agree (fun _ => none) (fun a b => ((a - b : Int) : ℚ)) { byStatus := true, selectCount := true } declined
      declinedDb := by
  refine ⟨declined_rows, rfl, rfl, ?_⟩
  rintro ⟨mine, answered, groups, _⟩
  obtain ⟨failed, _⟩ := (memory_iff rfl answered).mp groups
  have apart := failed ⟨"w", "charge", true, some 1, some 2⟩ (by decide) rfl
  exact absurd apart.1 (by decide)

end Durare.StepGroups

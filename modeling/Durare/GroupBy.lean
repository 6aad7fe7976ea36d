import Durare.Table
import Mathlib.Algebra.BigOperators.Group.List.Lemmas
import Mathlib.Algebra.GroupWithZero.Nat
import Mathlib.Algebra.Order.Group.Int

/-! Rows grouped by a key: one accumulator for each key, folded over the rows that have it, and when two lists of
measured values have one maximum. -/
namespace Durare.Grouping

section
variable {ρ : Type u} {κ : Type v} {β : Type w} [DecidableEq κ]

def members (key : ρ → κ) (rows : List ρ) (k : κ) : List ρ := rows.filter fun row => key row = k

def groupBy (key : ρ → κ) (step : β → ρ → β) (empty : β) (rows : List ρ) : Table κ β :=
  rows.foldl (fun accs row => accs.put (key row) (step ((accs.get (key row)).getD empty) row)) ∅

@[simp] theorem mem_members {key : ρ → κ} {rows : List ρ} {k : κ} {row : ρ} :
    row ∈ members key rows k ↔ row ∈ rows ∧ key row = k := by
  simp [members]

theorem members_ne_nil {key : ρ → κ} {rows : List ρ} {k : κ} :
    members key rows k ≠ [] ↔ ∃ row ∈ rows, key row = k := by
  simp [members]

theorem members_congr {key key' : ρ → κ} {rows : List ρ} (same : ∀ row ∈ rows, key row = key' row) (k : κ) :
    members key rows k = members key' rows k :=
  List.filter_congr fun row member => by rw [same row member]

theorem members_append (key : ρ → κ) (rows more : List ρ) (k : κ) :
    members key (rows ++ more) k = members key rows k ++ members key more k := List.filter_append ..

/-- Each key's accumulator is the fold over its own rows. -/
theorem get_groupBy (key : ρ → κ) (step : β → ρ → β) (empty : β) (rows : List ρ) (k : κ) :
    (groupBy key step empty rows).get k =
      if members key rows k = [] then none else some ((members key rows k).foldl step empty) := by
  induction rows using List.reverseRecOn with
  | nil => rfl
  | append_singleton rows row ih =>
    rw [groupBy, List.foldl_append, List.foldl_cons, List.foldl_nil, ← groupBy, Table.get_put, members_append]
    by_cases here : k = key row
    · subst here
      have last : members key [row] (key row) = [row] := by simp [members]
      rw [if_pos rfl, ih, last]
      by_cases first : members key rows (key row) = [] <;> simp [first]
    · have last : members key [row] k = [] := by simp [members, Ne.symm here]
      rw [if_neg here, ih, last, List.append_nil]

theorem mem_groupBy {key : ρ → κ} {step : β → ρ → β} {empty : β} {rows : List ρ} {k : κ} {acc : β} :
    (k, acc) ∈ (groupBy key step empty rows).toList ↔
      (∃ row ∈ rows, key row = k) ∧ acc = (members key rows k).foldl step empty := by
  rw [Table.mem_toList, get_groupBy, ← members_ne_nil]
  by_cases none : members key rows k = []
  · simp [none]
  · simp [none, eq_comm]

/-- What is made of the accumulators is made of the keys. -/
theorem map_groupBy {γ : Type x} (key : ρ → κ) (step : β → ρ → β) (empty : β) (rows : List ρ) (f : κ → β → γ) :
    (groupBy key step empty rows).toList.map (fun acc => f acc.1 acc.2) =
      ((groupBy key step empty rows).toList.map (·.1)).map fun k => f k ((members key rows k).foldl step empty) := by
  rw [List.map_map]
  apply List.map_congr_left
  rintro ⟨k, acc⟩ member
  obtain ⟨_, rfl⟩ := mem_groupBy.mp member
  rfl

/-- The keys of the groups, each once. -/
theorem keys_groupBy (key : ρ → κ) (step : β → ρ → β) (empty : β) (rows : List ρ) :
    ((groupBy key step empty rows).toList.map (·.1)).Perm (rows.map key).dedup := by
  apply (List.perm_ext_iff_of_nodup ?_ (List.nodup_dedup _)).mpr
  · intro k
    simp [mem_groupBy]
  · have keys : (groupBy key step empty rows).toList.map (·.1) = (groupBy key step empty rows).rows.keys := by
      simp [Table.toList, AList.keys, List.keys, Function.comp_def]
    exact keys ▸ (groupBy key step empty rows).rows.keys_nodup

theorem sum_members (key : ρ → κ) (rows : List ρ) {keys : List κ} (all : keys.Perm (rows.map key).dedup) :
    (keys.map fun k => (members key rows k).length).sum = rows.length := by
  have counted (k : κ) : (members key rows k).length = (rows.map key).count k := by
    rw [members, ← List.countP_eq_length_filter, List.count, List.countP_map]
    apply List.countP_congr
    simp
  calc (keys.map fun k => (members key rows k).length).sum
      = ((rows.map key).dedup.map fun k => (members key rows k).length).sum := (all.map _).sum_eq
    _ = ((rows.map key).dedup.map fun k => (rows.map key).count k).sum := by simp only [counted]
    _ = (rows.map key).length := List.sum_map_count_dedup_eq_length _
    _ = rows.length := List.length_map _

theorem members_map {σ : Type x} (key : ρ → κ) (f : σ → ρ) (rows : List σ) (k : κ) :
    members key (rows.map f) k = (members (fun row => key (f row)) rows k).map f := by
  simp [members, List.filter_map, Function.comp_def]

omit [DecidableEq κ] in
theorem nodup_lines (t : Table κ β) (f : κ → β → ρ) : (t.toList.map fun row => (row.1, f row.1 row.2)).Nodup := by
  have keys : (t.toList.map fun row => (row.1, f row.1 row.2)).map (·.1) = t.rows.keys := by
    simp [Table.toList, AList.keys, List.keys, Function.comp_def]
  exact List.Nodup.of_map (·.1) (keys ▸ t.rows.keys_nodup)

/-- Tables with the same line under each key have the same lines. -/
theorem lines_perm {β' : Type x} {t : Table κ β} {t' : Table κ β'} {f : κ → β → ρ} {g : κ → β' → ρ}
    (same : ∀ k, (t.get k).map (f k) = (t'.get k).map (g k)) :
    (t.toList.map fun row => f row.1 row.2).Perm (t'.toList.map fun row => g row.1 row.2) := by
  have perm : (t.toList.map fun row => (row.1, f row.1 row.2)).Perm
      (t'.toList.map fun row => (row.1, g row.1 row.2)) := by
    apply (List.perm_ext_iff_of_nodup (nodup_lines t f) (nodup_lines t' g)).mpr
    rintro ⟨k, line⟩
    have both := congrArg (line ∈ ·) (same k)
    simp only [Option.mem_def, Option.map_eq_some_iff, eq_iff_iff] at both
    simpa [Table.mem_toList] using both
  simpa [Function.comp_def] using perm.map (·.2)

end

/-- Entries of different names are determined by their names in order and, in any order, by themselves. -/
theorem eq_of_perm {ν : Type u} {xs ys : List (κ × ν)} (perm : xs.Perm ys) (names : xs.map (·.1) = ys.map (·.1))
    (distinct : (ys.map (·.1)).Nodup) : xs = ys := by
  induction xs generalizing ys with
  | nil => exact perm.nil_eq
  | cons x xs ih =>
    cases ys with
    | nil => exact absurd perm.length_eq (by simp)
    | cons y ys =>
      simp only [List.map_cons, List.cons.injEq, List.nodup_cons] at names distinct
      have head : x = y := by
        rcases List.mem_cons.mp (perm.subset List.mem_cons_self) with same | later
        · exact same
        · exact absurd (names.1 ▸ List.mem_map_of_mem later) distinct.1
      subst head
      rw [ih perm.cons_inv names.2 distinct.2]

section
variable {ρ : Type u}

/-- The running maximum of a measure that not every row has. -/
def raise (best value : Option Int) : Option Int :=
  match value with
  | none => best
  | some v => some (best.elim v fun b => max b v)

/-- The running minimum. -/
def lower (best : Option Int) (value : Int) : Option Int := some (best.elim value fun b => min b value)

@[simp] theorem raise_none (best : Option Int) : raise best none = best := rfl

@[simp] theorem raise_some (best : Option Int) (v : Int) : raise best (some v) = some (best.elim v fun b => max b v) :=
  rfl

theorem foldl_raise_some (measure : ρ → Option Int) (rows : List ρ) (best : Int) :
    rows.foldl (fun best row => raise best (measure row)) (some best) =
      some ((rows.filterMap measure).foldl max best) := by
  induction rows generalizing best with
  | nil => rfl
  | cons row rows ih =>
    rw [List.foldl_cons]
    cases value : measure row with
    | none => simp [ih, value]
    | some v => simp [ih, value]

theorem foldl_raise (measure : ρ → Option Int) (rows : List ρ) :
    rows.foldl (fun best row => raise best (measure row)) none = (rows.filterMap measure).max? := by
  induction rows with
  | nil => rfl
  | cons row rows ih =>
    rw [List.foldl_cons]
    cases value : measure row with
    | none => simp [ih, value]
    | some v =>
      rw [List.filterMap_cons_some value, List.max?_cons']
      exact foldl_raise_some measure rows v

@[simp] theorem lower_none (value : Int) : lower none value = some value := rfl

@[simp] theorem lower_some (best value : Int) : lower (some best) value = some (min best value) := rfl

theorem foldl_lower_some (measure : ρ → Int) (rows : List ρ) (best : Int) :
    rows.foldl (fun best row => lower best (measure row)) (some best) = some ((rows.map measure).foldl min best) := by
  induction rows generalizing best with
  | nil => rfl
  | cons row rows ih => simp [ih]

theorem foldl_lower (measure : ρ → Int) (rows : List ρ) :
    rows.foldl (fun best row => lower best (measure row)) none = (rows.map measure).min? := by
  cases rows with
  | nil => rfl
  | cons row rows =>
    rw [List.map_cons, List.min?_cons', List.foldl_cons]
    exact foldl_lower_some measure rows (measure row)

theorem foldl_count (rows : List ρ) (n : Int) : rows.foldl (fun n _ => n + 1) n = n + rows.length := by
  induction rows generalizing n with
  | nil => simp
  | cons row rows ih => simp [ih]; omega

end

theorem min?_perm {xs ys : List Int} (perm : xs.Perm ys) : xs.min? = ys.min? := by
  apply Option.ext
  intro m
  simp [List.min?_eq_some_iff, perm.mem_iff]

/-- Two lists have one maximum if each value of either is reached in the other. -/
theorem max?_eq_max?_iff (xs ys : List Int) :
    xs.max? = ys.max? ↔ (∀ x ∈ xs, ∃ y ∈ ys, x ≤ y) ∧ ∀ y ∈ ys, ∃ x ∈ xs, y ≤ x := by
  constructor
  · intro same
    constructor
    · intro x member
      cases best : xs.max? with
      | none => simp [List.max?_eq_none_iff.mp best] at member
      | some m => exact ⟨m, (List.max?_eq_some_iff.mp (same ▸ best)).1, (List.max?_eq_some_iff.mp best).2 x member⟩
    · intro y member
      cases best : ys.max? with
      | none => simp [List.max?_eq_none_iff.mp best] at member
      | some m => exact ⟨m, (List.max?_eq_some_iff.mp (same ▸ best)).1, (List.max?_eq_some_iff.mp best).2 y member⟩
  · rintro ⟨below, reached⟩
    cases best : ys.max? with
    | none =>
      obtain rfl := List.max?_eq_none_iff.mp best
      apply List.max?_eq_none_iff.mpr
      apply List.eq_nil_iff_forall_not_mem.mpr
      intro x member
      obtain ⟨y, none, _⟩ := below x member
      cases none
    | some m =>
      obtain ⟨top, greatest⟩ := List.max?_eq_some_iff.mp best
      obtain ⟨x, member, le⟩ := reached m top
      have bounded (z : Int) (there : z ∈ xs) : z ≤ m := by
        obtain ⟨y, here, under⟩ := below z there
        exact le_trans under (greatest y here)
      have equal : x = m := le_antisymm (bounded x member) le
      exact List.max?_eq_some_iff.mpr ⟨equal ▸ member, bounded⟩

theorem max?_perm {xs ys : List Int} (perm : xs.Perm ys) : xs.max? = ys.max? :=
  (max?_eq_max?_iff xs ys).mpr
    ⟨fun x member => ⟨x, perm.mem_iff.mp member, le_rfl⟩, fun y member => ⟨y, perm.mem_iff.mpr member, le_rfl⟩⟩

/-- Values read through `g`, which keeps those of a range and takes every other into it, and more such values beside
them, have the maximum of the values themselves if none of these is above the range and nothing that is read is above
all of these. -/
theorem max?_read_iff {g : Int → Int} {low high : Int} (kept : ∀ n, low ≤ n → n < high → g n = n)
    (taken : ∀ n, low ≤ g n ∧ g n < high) (xs more : List Int) (small : ∀ z ∈ more, z < high) :
    (xs.map g ++ more).max? = xs.max? ↔
      (∀ x ∈ xs, x < high ∧ ∃ y ∈ xs, g x ≤ y) ∧ ∀ z ∈ more, ∃ y ∈ xs, z ≤ y := by
  rw [max?_eq_max?_iff]
  constructor
  · rintro ⟨below, reached⟩
    refine ⟨fun x member => ⟨?_, below (g x) (by simpa using .inl ⟨x, member, rfl⟩)⟩,
      fun z member => below z (by simp [member])⟩
    obtain ⟨z, read, le⟩ := reached x member
    rcases List.mem_append.mp read with mapped | member
    · obtain ⟨y, _, rfl⟩ := List.mem_map.mp mapped
      exact lt_of_le_of_lt le (taken y).2
    · exact lt_of_le_of_lt le (small z member)
  · rintro ⟨fits, besides⟩
    constructor
    · intro z read
      rcases List.mem_append.mp read with mapped | member
      · obtain ⟨x, member, rfl⟩ := List.mem_map.mp mapped
        exact (fits x member).2
      · exact besides z member
    · intro y member
      cases best : xs.max? with
      | none => simp [List.max?_eq_none_iff.mp best] at member
      | some m =>
        -- the greatest is in the range, and so read as it is
        obtain ⟨top, greatest⟩ := List.max?_eq_some_iff.mp best
        obtain ⟨under, x, there, le⟩ := fits m top
        have least : low ≤ m := by
          have := (taken m).1
          have := greatest x there
          omega
        exact ⟨m, by simpa using .inl ⟨m, top, kept m least under⟩, greatest y member⟩

end Durare.Grouping

import Durare.Table
import Mathlib.Data.List.Sort
import Mathlib.Data.String.Basic

/-! Rows listed in order. A listing is fixed by the rows it lists, however the table came by
them. -/
namespace Durare

/-- Two lists without repetition and with the same members are sorted into one list. -/
theorem insertionSort_ext {ω : Type} [LinearOrder ω] {xs ys : List ω} (first : xs.Nodup) (second : ys.Nodup)
    (same : ∀ x, x ∈ xs ↔ x ∈ ys) : xs.insertionSort (· ≤ ·) = ys.insertionSort (· ≤ ·) := by
  have perm : xs.Perm ys := (List.perm_ext_iff_of_nodup first second).mpr same
  have sorted := ((List.perm_insertionSort (· ≤ ·) xs).trans perm).trans (List.perm_insertionSort (· ≤ ·) ys).symm
  exact sorted.eq_of_pairwise (fun _ _ _ _ => le_antisymm) (List.pairwise_insertionSort _ xs)
    (List.pairwise_insertionSort _ ys)

namespace Table

section Listing

variable {α κ ν ν' ω : Type} [DecidableEq α] [DecidableEq κ] [LinearOrder ω] (t : Table (α × κ) ν) (a : α) (order : κ → ω)

/-- The rows that belong to `a`, in the order of the rest of their key. -/
def listing : List (κ × ν) :=
  (t.toList.filterMap fun row => if row.1.1 = a then some (row.1.2, row.2) else none).insertionSort
    fun x y => order x.1 ≤ order y.1

theorem mem_listing (k : κ) (v : ν) : (k, v) ∈ t.listing a order ↔ t.get (a, k) = some v := by
  rw [listing, List.mem_insertionSort, List.mem_filterMap, ← mem_toList]
  constructor
  · rintro ⟨⟨⟨b, l⟩, w⟩, member, kept⟩
    by_cases own : b = a
    · simp only [own, if_true, Option.some.injEq, Prod.mk.injEq] at kept
      obtain ⟨rfl, rfl⟩ := kept
      exact own ▸ member
    · simp [own] at kept
  · intro member
    exact ⟨((a, k), v), member, by simp⟩

omit [DecidableEq κ] in
theorem nodup_listing : ((t.listing a order).map (·.1)).Nodup := by
  have perm := (List.perm_insertionSort (fun x y : κ × ν => order x.1 ≤ order y.1)
    (t.toList.filterMap fun row => if row.1.1 = a then some (row.1.2, row.2) else none)).map (·.1)
  refine perm.nodup_iff.mpr ?_
  have keys : t.toList.map (·.1) = t.rows.keys := by simp [toList, AList.keys, List.keys, Function.comp_def]
  have distinct : (t.toList.map (·.1)).Nodup := keys ▸ t.rows.keys_nodup
  clear keys perm
  revert distinct
  induction t.toList with
  | nil => simp
  | cons row rows ih =>
    intro distinct
    obtain ⟨absent, rest⟩ := List.nodup_cons.mp distinct
    by_cases own : row.1.1 = a
    · simp only [List.filterMap_cons, own, if_true, List.map_cons, List.nodup_cons]
      refine ⟨?_, ih rest⟩
      intro member
      obtain ⟨⟨k, v⟩, kept, same⟩ := List.mem_map.mp member
      obtain ⟨other, there, kept⟩ := List.mem_filterMap.mp kept
      by_cases also : other.1.1 = a
      · simp only [also, if_true, Option.some.injEq, Prod.mk.injEq] at kept
        obtain ⟨rfl, rfl⟩ := kept
        exact absent (List.mem_map.mpr ⟨other, there, Prod.ext (also.trans own.symm) same⟩)
      · simp [also] at kept
    · simp only [List.filterMap_cons, own, if_false]
      exact ih rest

/-- A table whose rows are those of another one, changed key by key, lists them so. -/
theorem listing_map (injective : Function.Injective order) {t' : Table (α × κ) ν'} {a' : α} (change : κ → ν → ν')
    (rows : ∀ k, t'.get (a', k) = (t.get (a, k)).map (change k)) :
    t'.listing a' order = (t.listing a order).map fun row => (row.1, change row.1 row.2) := by
  have total : Std.Total fun x y : κ × ν => order x.1 ≤ order y.1 := ⟨fun _ _ => le_total _ _⟩
  have total' : Std.Total fun x y : κ × ν' => order x.1 ≤ order y.1 := ⟨fun _ _ => le_total _ _⟩
  have trans : IsTrans (κ × ν) fun x y => order x.1 ≤ order y.1 := ⟨fun _ _ _ => le_trans⟩
  have trans' : IsTrans (κ × ν') fun x y => order x.1 ≤ order y.1 := ⟨fun _ _ _ => le_trans⟩
  have sorted : (t.listing a order).Pairwise fun x y => order x.1 ≤ order y.1 := List.pairwise_insertionSort _ _
  have sorted' : (t'.listing a' order).Pairwise fun x y => order x.1 ≤ order y.1 := List.pairwise_insertionSort _ _
  have keys : ((t.listing a order).map fun row => (row.1, change row.1 row.2)).map (·.1) =
      (t.listing a order).map (·.1) := by simp [Function.comp_def]
  have distinct : ((t.listing a order).map fun row => (row.1, change row.1 row.2)).Nodup := by
    apply List.Nodup.of_map (·.1)
    rw [keys]
    exact t.nodup_listing a order
  have members : ∀ row, row ∈ t'.listing a' order ↔
      row ∈ (t.listing a order).map fun row => (row.1, change row.1 row.2) := by
    rintro ⟨k, w⟩
    rw [mem_listing, rows, List.mem_map]
    constructor
    · intro found
      obtain ⟨v, stored, rfl⟩ := Option.map_eq_some_iff.mp found
      exact ⟨(k, v), (t.mem_listing a order k v).mpr stored, rfl⟩
    · rintro ⟨⟨k', v⟩, member, same⟩
      cases same
      rw [(t.mem_listing a order k' v).mp member]
      rfl
  refine List.Perm.eq_of_pairwise ?_ sorted' (List.pairwise_map.mpr sorted)
    ((List.perm_ext_iff_of_nodup (List.Nodup.of_map _ (t'.nodup_listing a' order)) distinct).mpr members)
  rintro ⟨k, v⟩ ⟨l, w⟩ here there le ge
  have same : k = l := injective (le_antisymm le ge)
  subst same
  have found := (t'.mem_listing a' order k v).mp here
  rw [(t'.mem_listing a' order k w).mp ((members _).mpr there)] at found
  rw [Option.some_inj.mp found]

omit [DecidableEq κ] in
/-- A listing is in strict order. -/
theorem listing_sorted (injective : Function.Injective order) :
    (t.listing a order).Pairwise fun x y => order x.1 < order y.1 := by
  have total : Std.Total fun x y : κ × ν => order x.1 ≤ order y.1 := ⟨fun _ _ => le_total _ _⟩
  have trans : IsTrans (κ × ν) fun x y => order x.1 ≤ order y.1 := ⟨fun _ _ _ => le_trans⟩
  have sorted : (t.listing a order).Pairwise fun x y => order x.1 ≤ order y.1 := List.pairwise_insertionSort _ _
  have distinct : (t.listing a order).Pairwise fun x y => x.1 ≠ y.1 := List.pairwise_map.mp (t.nodup_listing a order)
  refine (sorted.and distinct).imp ?_
  rintro x y ⟨le, differs⟩
  exact lt_of_le_of_ne le fun same => differs (injective same)

end Listing

end Table

/-- Two lists in strict order with the same members are one. -/
theorem eq_of_sorted {κ ν ω : Type} [LinearOrder ω] (order : κ → ω) {xs ys : List (κ × ν)}
    (first : xs.Pairwise fun x y => order x.1 < order y.1) (second : ys.Pairwise fun x y => order x.1 < order y.1)
    (same : ∀ row, row ∈ xs ↔ row ∈ ys) : xs = ys := by
  have nodup {zs : List (κ × ν)} (sorted : zs.Pairwise fun x y => order x.1 < order y.1) : zs.Nodup :=
    sorted.imp fun less equal => absurd less (by rw [equal]; exact lt_irrefl _)
  refine ((List.perm_ext_iff_of_nodup (nodup first) (nodup second)).mpr same).eq_of_pairwise ?_ first second
  intro x y _ _ less greater
  exact absurd (less.trans greater) (lt_irrefl _)

end Durare

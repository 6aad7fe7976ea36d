import Mathlib.Data.List.Nodup
import Mathlib.Data.List.Perm.Subperm
import Mathlib.Data.List.Sort
import Mathlib.Data.Int.Order.Basic

/-! Removing what is pending in batches of bounded size, until one falls short, and the element
of a rank in descending order. -/
namespace Durare.Batches

section Drain

variable {σ κ : Type} (batch : σ → List κ) (remove : List κ → σ → σ) (size : Nat)

def drain : Nat → Nat → σ → Option (Nat × σ)
  | 0, _, _ => none
  | fuel + 1, total, s =>
    if (batch s).length < size then some (total + (batch s).length, remove (batch s) s)
    else drain fuel (total + (batch s).length) (remove (batch s) s)

/-- A batch is some of what is pending, all of it when it falls short, and a removal leaves the rest. -/
structure Takes (good : σ → Prop) (pending : σ → List κ) : Prop where
  distinct : ∀ s, good s → (pending s).Nodup
  picked : ∀ s, good s → (batch s).Nodup
  inside : ∀ s, good s → ∀ k ∈ batch s, k ∈ pending s
  full : ∀ s, good s → (batch s).length < size → ∀ k ∈ pending s, k ∈ batch s
  left : ∀ s, good s → ∀ k, k ∈ pending (remove (batch s) s) ↔ k ∈ pending s ∧ k ∉ batch s
  good : ∀ s, good s → good (remove (batch s) s)

variable {batch remove size} {good : σ → Prop} {pending : σ → List κ}

theorem Takes.short (takes : Takes batch remove size good pending) {s : σ} (fine : good s)
    (short : (batch s).length < size) : (batch s).length = (pending s).length :=
  ((List.perm_ext_iff_of_nodup (takes.picked s fine) (takes.distinct s fine)).mpr fun k =>
    ⟨takes.inside s fine k, takes.full s fine short k⟩).length_eq

theorem Takes.rest (takes : Takes batch remove size good pending) {s : σ} (fine : good s) :
    (batch s).length + (pending (remove (batch s) s)).length = (pending s).length := by
  rw [← List.length_append]
  apply List.Perm.length_eq
  have apart : (batch s ++ pending (remove (batch s) s)).Nodup := by
    refine List.nodup_append.mpr ⟨takes.picked s fine, takes.distinct _ (takes.good s fine), ?_⟩
    rintro k here k' later rfl
    exact ((takes.left s fine k).mp later).2 here
  refine (List.perm_ext_iff_of_nodup apart (takes.distinct s fine)).mpr fun k => ?_
  rw [List.mem_append, takes.left s fine k]
  by_cases here : k ∈ batch s
  · simp [here, takes.inside s fine k here]
  · simp [here]

/-- What a removal of a batch keeps, the whole loop keeps; it ends, and counts what was pending. -/
theorem Takes.drains (takes : Takes batch remove size good pending) (positive : 0 < size) (inv : List κ → σ → Prop)
    (kept : ∀ s, good s → ∀ done, inv done s → inv (done ++ batch s) (remove (batch s) s)) (fuel total : Nat) (s : σ)
    (fine : good s) (done : List κ) (start : inv done s) (enough : (pending s).length < fuel) :
    ∃ removed after, drain batch remove size fuel total s = some (total + (pending s).length, after) ∧
      inv (done ++ removed) after ∧ ∀ k, k ∈ removed ↔ k ∈ pending s := by
  induction fuel generalizing total s done with
  | zero => omega
  | succ fuel ih =>
    rw [drain]
    by_cases short : (batch s).length < size
    · refine ⟨batch s, remove (batch s) s, ?_, kept s fine done start, fun k => ?_⟩
      · rw [if_pos short, takes.short fine short]
      · exact ⟨takes.inside s fine k, takes.full s fine short k⟩
    · have rest := takes.rest fine
      obtain ⟨removed, after, ends, holds, members⟩ := ih (total + (batch s).length) (remove (batch s) s)
        (takes.good s fine) (done ++ batch s) (kept s fine done start) (by omega)
      refine ⟨batch s ++ removed, after, ?_, by rwa [← List.append_assoc], fun k => ?_⟩
      · rw [if_neg short, ends, ← rest, Nat.add_assoc]
      · rw [List.mem_append, members, takes.left s fine k]
        by_cases here : k ∈ batch s
        · simp [here, takes.inside s fine k here]
        · simp [here]

end Drain

theorem nth_sorted_iff {xs : List Int} (sorted : xs.Pairwise fun a b => b ≤ a) (k : Nat) (v : Int) :
    xs[k]? = some v ↔ xs.countP (v < ·) ≤ k ∧ k < xs.countP (v ≤ ·) := by
  induction xs generalizing k with
  | nil => simp
  | cons x xs ih =>
    obtain ⟨below, sorted⟩ := List.pairwise_cons.mp sorted
    have ih := ih sorted
    rw [List.countP_cons, List.countP_cons]
    rcases lt_trichotomy x v with less | rfl | more
    · have none : xs.countP (v ≤ ·) = 0 := List.countP_eq_zero.mpr fun y member => by
        have := below y member
        simp; omega
      have absent : xs[k - 1]? ≠ some v := fun here => by
        have := (ih (k - 1)).mp here
        omega
      cases k with
      | zero => simp [none, less.ne, less.not_ge]
      | succ k => simp [none, less.not_ge]; exact absent
    · have none : xs.countP (x < ·) = 0 := List.countP_eq_zero.mpr fun y member => by
        have := below y member
        simp; omega
      cases k with
      | zero => simp [none]
      | succ k => simp [none, ih k]
    · cases k with
      | zero => simp [more, more.ne']
      | succ k => simp [more, more.le, ih k]

/-- By rank: fewer elements are greater than many, and enough are not smaller. -/
theorem nth_descending_iff (xs : List Int) (k : Nat) (v : Int) :
    (xs.insertionSort fun a b => b ≤ a)[k]? = some v ↔ xs.countP (v < ·) ≤ k ∧ k < xs.countP (v ≤ ·) := by
  have perm := List.perm_insertionSort (fun a b : Int => b ≤ a) xs
  have total : Std.Total fun a b : Int => b ≤ a := ⟨fun a b => (le_total a b).symm⟩
  have trans : IsTrans Int fun a b => b ≤ a := ⟨fun a b c h h' => h'.trans h⟩
  rw [nth_sorted_iff (List.pairwise_insertionSort _ xs), perm.countP_eq, perm.countP_eq]

end Durare.Batches

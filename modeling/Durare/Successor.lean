import Mathlib.Data.Int.Order.Basic
import Mathlib.Data.List.Pairwise

/-! Enumerating the elements of a set of integers between two bounds by a function that gives
the least one after its argument. -/
namespace Durare.Successor

/-- `next` gives the least element after its argument, where there is one. -/
structure Least (next : Int → Option Int) (P : Int → Prop) : Prop where
  some : ∀ {a b}, next a = some b → a < b ∧ P b ∧ ∀ c, P c → a < c → b ≤ c
  none : ∀ {a}, next a = none → ∀ c, P c → ¬ a < c

/-- The elements between two bounds, one after another; `none` while the loop has not ended. -/
def between (next : Int → Option Int) : Nat → Int → Int → Option (List Int)
  | 0, _, _ => none
  | fuel + 1, cursor, stop =>
    match next cursor with
    | none => some []
    | some b => if stop ≤ b then some [] else (between next fuel b stop).map (b :: ·)

variable {next : Int → Option Int} {P : Int → Prop}

/-- Each round moves the cursor on, so the loop ends within the distance of the bounds. -/
theorem between_ends (least : Least next P) (fuel : Nat) (cursor stop : Int) (enough : (stop - cursor).toNat < fuel) :
    (between next fuel cursor stop).isSome = true := by
  induction fuel generalizing cursor with
  | zero => omega
  | succ fuel ih =>
    rw [between]
    cases step : next cursor with
    | none => rfl
    | some b =>
      have later := (least.some step).1
      by_cases past : stop ≤ b
      · simp [past]
      · simp only [past, if_false, Option.isSome_map]
        exact ih b (by omega)

/-- What the loop found: the elements strictly between the bounds. -/
theorem mem_between (least : Least next P) {fuel : Nat} {cursor stop : Int} {found : List Int}
    (ends : between next fuel cursor stop = some found) (t : Int) : t ∈ found ↔ P t ∧ cursor < t ∧ t < stop := by
  induction fuel generalizing cursor found with
  | zero => cases ends
  | succ fuel ih =>
    rw [between] at ends
    cases step : next cursor with
    | none =>
      rw [step] at ends
      cases ends
      constructor
      · intro member
        cases member
      · rintro ⟨holds, after, -⟩
        exact absurd after (least.none step t holds)
    | some b =>
      rw [step] at ends
      obtain ⟨later, holds, first⟩ := least.some step
      by_cases past : stop ≤ b
      · simp only [past, if_true, Option.some.injEq] at ends
        subst ends
        constructor
        · intro member
          cases member
        · rintro ⟨holds, after, before⟩
          have := first t holds after
          omega
      · simp only [past, if_false, Option.map_eq_some_iff] at ends
        obtain ⟨rest, ended, rfl⟩ := ends
        rw [List.mem_cons, ih ended]
        constructor
        · rintro (rfl | ⟨holds, after, before⟩)
          · exact ⟨holds, later, by omega⟩
          · exact ⟨holds, by omega, before⟩
        · rintro ⟨holds, after, before⟩
          have := first t holds after
          by_cases same : t = b
          · exact .inl same
          · exact .inr ⟨holds, by omega, before⟩

/-- They come in increasing order. -/
theorem sorted_between (least : Least next P) {fuel : Nat} {cursor stop : Int} {found : List Int}
    (ends : between next fuel cursor stop = some found) : found.Pairwise (· < ·) := by
  induction fuel generalizing cursor found with
  | zero => cases ends
  | succ fuel ih =>
    rw [between] at ends
    cases step : next cursor with
    | none =>
      rw [step] at ends
      cases ends
      exact .nil
    | some b =>
      rw [step] at ends
      by_cases past : stop ≤ b
      · simp only [past, if_true, Option.some.injEq] at ends
        subst ends
        exact .nil
      · simp only [past, if_false, Option.map_eq_some_iff] at ends
        obtain ⟨rest, ended, rfl⟩ := ends
        exact List.pairwise_cons.mpr ⟨fun t member => ((mem_between least ended t).mp member).2.1, ih ended⟩

end Durare.Successor

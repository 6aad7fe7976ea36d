import Mathlib.Algebra.Order.Group.Int
import Mathlib.Data.List.Count

/-! Logs of times and how many of their entries one window holds. A log keeps below a limit in every
window if each batch that is appended fits beside the entries of the window that ends with it. -/
namespace Durare.Window

def after (cutoff : Int) (log : List Int) : Nat := log.countP (cutoff < ·)

def inside (start period : Int) (log : List Int) : Nat := log.countP fun time => start < time ∧ time ≤ start + period

/-- No window of length `period` holds more than `limit` entries. -/
def Limited (limit : Nat) (period : Int) (log : List Int) : Prop := ∀ start, inside start period log ≤ limit

theorem limited_nil (limit : Nat) (period : Int) : Limited limit period [] := fun _ => Nat.zero_le _

theorem after_append (cutoff : Int) (log more : List Int) :
    after cutoff (log ++ more) = after cutoff log + after cutoff more := List.countP_append

theorem after_replicate (cutoff : Int) (count : Nat) (time : Int) :
    after cutoff (List.replicate count time) = if cutoff < time then count else 0 := by
  rw [after, List.countP_replicate]
  simp

theorem inside_append (start period : Int) (log more : List Int) :
    inside start period (log ++ more) = inside start period log + inside start period more := List.countP_append

theorem inside_replicate (start period : Int) (count : Nat) (time : Int) :
    inside start period (List.replicate count time) =
      if start < time ∧ time ≤ start + period then count else 0 := by
  rw [inside, List.countP_replicate]
  simp

theorem inside_le_after {start cutoff : Int} (period : Int) (le : cutoff ≤ start) (log : List Int) :
    inside start period log ≤ after cutoff log := by
  apply List.countP_mono_left
  intro time _ within
  simp only [decide_eq_true_eq] at within ⊢
  omega

/-- A window that holds the new entries opens no earlier than the one that ends with them. -/
theorem Limited.append {limit : Nat} {period : Int} {log : List Int} (limited : Limited limit period log)
    {count : Nat} {time : Int} (room : after (time - period) log + count ≤ limit) :
    Limited limit period (log ++ List.replicate count time) := by
  intro start
  rw [inside_append, inside_replicate]
  by_cases within : start < time ∧ time ≤ start + period
  · have opens : time - period ≤ start := by omega
    have earlier := inside_le_after period opens log
    rw [if_pos within]
    omega
  · rw [if_neg within]
    exact limited start

end Durare.Window

import Durare.Table

/-! Subscriptions by topic. A signal reaches every subscription of its topic, and each keeps one until
it is taken, so a signal that comes before its subscriber waits for it is not lost. -/
namespace Durare.Signals

variable {κ : Type u} [DecidableEq κ]

/-- The subscriptions of each topic by number, which of them hold a signal, and the next number. -/
structure Board (κ : Type u) where
  waiters : Table κ (List Nat)
  permits : Nat → Bool
  fresh : Nat

namespace Board

def new : Board κ := ⟨∅, fun _ => false, 0⟩

def listed (b : Board κ) (topic : κ) : List Nat := (b.waiters.get topic).getD []

def subscribe (topic : κ) (b : Board κ) : Nat × Board κ :=
  (b.fresh,
    { waiters := b.waiters.put topic (b.listed topic ++ [b.fresh])
      permits := fun n => n != b.fresh && b.permits n
      fresh := b.fresh + 1 })

/-- A signal for each of the subscriptions. One that holds a signal already keeps the one. -/
def notify (subscriptions : List Nat) (b : Board κ) : Board κ :=
  { b with permits := fun n => subscriptions.contains n || b.permits n }

def signal (topic : κ) (b : Board κ) : Board κ := b.notify (b.listed topic)

def signalAll (b : Board κ) : Board κ := b.notify b.waiters.values.flatten

/-- Removes a subscription, and its topic with the last one. -/
def drop (topic : κ) (subscription : Nat) (b : Board κ) : Board κ :=
  match b.waiters.get topic with
  | none => b
  | some entries =>
    let rest := entries.filter (· ≠ subscription)
    { b with waiters := if rest = [] then b.waiters.erase topic else b.waiters.put topic rest }

@[simp] theorem listed_new (topic : κ) : (new : Board κ).listed topic = [] := rfl

theorem mem_listed {b : Board κ} {topic : κ} {n : Nat} :
    n ∈ b.listed topic ↔ ∃ entries, b.waiters.get topic = some entries ∧ n ∈ entries := by
  unfold listed
  cases b.waiters.get topic <;> simp

@[simp] theorem listed_notify (subscriptions : List Nat) (b : Board κ) (topic : κ) :
    (b.notify subscriptions).listed topic = b.listed topic := rfl

omit [DecidableEq κ] in
@[simp] theorem permits_notify (subscriptions : List Nat) (b : Board κ) (n : Nat) :
    (b.notify subscriptions).permits n = (subscriptions.contains n || b.permits n) := rfl

theorem permits_signal {b : Board κ} {topic : κ} {n : Nat} (member : n ∈ b.listed topic) :
    (b.signal topic).permits n = true := by
  simp [signal, member]

theorem permits_signalAll {b : Board κ} {topic : κ} {n : Nat} (member : n ∈ b.listed topic) :
    b.signalAll.permits n = true := by
  obtain ⟨entries, stored, inside⟩ := mem_listed.mp member
  have among : n ∈ b.waiters.values.flatten :=
    List.mem_flatten.mpr ⟨entries, (Table.mem_values _ _).mpr ⟨topic, stored⟩, inside⟩
  simp [signalAll, among]

@[simp] theorem subscribe_number (topic : κ) (b : Board κ) : (b.subscribe topic).1 = b.fresh := rfl

@[simp] theorem listed_subscribe (topic : κ) (b : Board κ) (other : κ) :
    (b.subscribe topic).2.listed other =
      if other = topic then b.listed topic ++ [b.fresh] else b.listed other := by
  by_cases same : other = topic <;> simp [subscribe, listed, same]

theorem permits_subscribe {topic : κ} {b : Board κ} {n : Nat} (older : n < b.fresh) :
    (b.subscribe topic).2.permits n = b.permits n := by
  have other : n ≠ b.fresh := Nat.ne_of_lt older
  simp [subscribe, other]

@[simp] theorem permits_drop (topic : κ) (subscription : Nat) (b : Board κ) :
    (b.drop topic subscription).permits = b.permits := by
  unfold drop
  cases b.waiters.get topic <;> rfl

@[simp] theorem fresh_drop (topic : κ) (subscription : Nat) (b : Board κ) :
    (b.drop topic subscription).fresh = b.fresh := by
  unfold drop
  cases b.waiters.get topic <;> rfl

theorem listed_drop_ne {topic other : κ} (subscription : Nat) (b : Board κ) (differs : other ≠ topic) :
    (b.drop topic subscription).listed other = b.listed other := by
  unfold drop
  cases b.waiters.get topic with
  | none => rfl
  | some entries =>
    simp only [listed]
    split <;> simp [differs]

theorem mem_listed_drop {topic : κ} {subscription : Nat} {b : Board κ} {other : κ} {n : Nat} :
    n ∈ (b.drop topic subscription).listed other ↔
      n ∈ b.listed other ∧ (other = topic → n ≠ subscription) := by
  unfold drop
  cases stored : b.waiters.get topic with
  | none =>
    constructor
    · intro member
      refine ⟨member, ?_⟩
      rintro rfl
      simp [listed, stored] at member
    · exact And.left
  | some entries =>
    by_cases same : other = topic
    · subst same
      by_cases last : entries.filter (· ≠ subscription) = []
      · have gone := List.filter_eq_nil_iff.mp last
        simp only [listed, if_pos last, Table.get_erase, stored]
        simp only [if_true, Option.getD_none, List.not_mem_nil, Option.getD_some, false_iff]
        rintro ⟨member, differs⟩
        exact absurd (differs trivial) (by simpa using gone n member)
      · simp only [listed, if_neg last, Table.get_put, stored]
        simp [List.mem_filter]
    · have unchanged := listed_drop_ne subscription b same
      simp only [drop, stored] at unchanged
      rw [unchanged]
      simp [same]

end Board

/-- The board lists the live subscriptions and nothing else: each one once, under its own topic, and no
topic without one. -/
structure Tidy (b : Board κ) (live : Nat → κ → Prop) : Prop where
  lists : ∀ topic n, n ∈ b.listed topic ↔ live n topic
  once : ∀ topic, (b.listed topic).Nodup
  inhabited : ∀ topic, b.waiters.get topic ≠ some []
  bounded : ∀ n topic, live n topic → n < b.fresh

namespace Tidy

theorem new : Tidy (Board.new : Board κ) fun _ _ => False where
  lists _ _ := by simp
  once _ := by simp
  inhabited _ := by simp [Board.new]
  bounded _ _ alive := alive.elim

variable {b : Board κ} {live : Nat → κ → Prop}

theorem congr (tidy : Tidy b live) {live' : Nat → κ → Prop} (same : ∀ n topic, live' n topic ↔ live n topic) :
    Tidy b live' where
  lists topic n := (tidy.lists topic n).trans (same n topic).symm
  once := tidy.once
  inhabited := tidy.inhabited
  bounded n topic alive := tidy.bounded n topic ((same n topic).mp alive)

theorem notify (tidy : Tidy b live) (subscriptions : List Nat) : Tidy (b.notify subscriptions) live :=
  ⟨tidy.lists, tidy.once, tidy.inhabited, tidy.bounded⟩

/-- A number that was never handed out is not listed. -/
theorem fresh_not_listed (tidy : Tidy b live) (topic : κ) : b.fresh ∉ b.listed topic := by
  intro member
  have := tidy.bounded _ _ ((tidy.lists topic _).mp member)
  omega

theorem subscribe (tidy : Tidy b live) (topic : κ) :
    Tidy (b.subscribe topic).2 fun n other => (n = b.fresh ∧ other = topic) ∨ live n other where
  lists other n := by
    rw [Board.listed_subscribe]
    by_cases same : other = topic
    · subst same
      simp [tidy.lists, or_comm]
    · simp [same, tidy.lists]
  once other := by
    rw [Board.listed_subscribe]
    by_cases same : other = topic
    · rw [if_pos same]
      refine List.nodup_append.mpr ⟨tidy.once topic, List.nodup_singleton _, ?_⟩
      intro n member m single same
      rw [List.mem_singleton] at single
      exact tidy.fresh_not_listed topic (single ▸ same ▸ member)
    · rw [if_neg same]
      exact tidy.once other
  inhabited other := by
    by_cases same : other = topic
    · simp [Board.subscribe, same]
    · simpa [Board.subscribe, same] using tidy.inhabited other
  bounded n other alive := by
    simp only [Board.subscribe]
    rcases alive with ⟨rfl, -⟩ | older
    · omega
    · have := tidy.bounded n other older
      omega

theorem drop (tidy : Tidy b live) {topic : κ} {n : Nat} (only : ∀ other, live n other → other = topic) :
    Tidy (b.drop topic n) fun m other => m ≠ n ∧ live m other where
  lists other m := by
    rw [Board.mem_listed_drop, tidy.lists]
    constructor
    · rintro ⟨alive, differs⟩
      refine ⟨?_, alive⟩
      rintro rfl
      exact differs (only other alive) rfl
    · rintro ⟨differs, alive⟩
      exact ⟨alive, fun _ => differs⟩
  once other := by
    by_cases same : other = topic
    · subst same
      unfold Board.drop
      cases stored : b.waiters.get other with
      | none => simp [Board.listed, stored]
      | some entries =>
        have distinct : entries.Nodup := by simpa [Board.listed, stored] using tidy.once other
        by_cases last : entries.filter (· ≠ n) = []
        · simp only [Board.listed, if_pos last, Table.get_erase]
          simp
        · simp only [Board.listed, if_neg last, Table.get_put]
          exact distinct.filter _
    · rw [Board.listed_drop_ne n b same]
      exact tidy.once other
  inhabited other := by
    unfold Board.drop
    cases stored : b.waiters.get topic with
    | none => exact tidy.inhabited other
    | some entries =>
      by_cases last : entries.filter (· ≠ n) = []
      · simp only [if_pos last]
        by_cases same : other = topic
        · simp [same]
        · simpa [same] using tidy.inhabited other
      · simp only [if_neg last]
        by_cases same : other = topic
        · simp only [same, Table.get_put, if_true, ne_eq, Option.some.injEq]
          exact last
        · simpa [same] using tidy.inhabited other
  bounded m other alive := by
    rw [Board.fresh_drop]
    exact tidy.bounded m other alive.2

end Tidy

end Durare.Signals

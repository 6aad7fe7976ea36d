import Mathlib.Data.List.Basic

/-! Runs of a deterministic machine: a list of events taken one after another. What one
event keeps, and how far it may move the state, carries over to whole runs. -/
namespace Durare.Runs

variable {σ : Type u} {ε : Type v} (next : σ → ε → σ)

def run (events : List ε) (s : σ) : σ := events.foldl next s

@[simp] theorem run_nil (s : σ) : run next [] s = s := rfl

@[simp] theorem run_cons (event : ε) (events : List ε) (s : σ) :
    run next (event :: events) s = run next events (next s event) := rfl

theorem run_append (first second : List ε) (s : σ) :
    run next (first ++ second) s = run next second (run next first s) := List.foldl_append

/-- Every event of the run meets `P` in the state it is taken in. -/
def Along (P : σ → ε → Prop) : List ε → σ → Prop
  | [], _ => True
  | event :: events, s => P s event ∧ Along P events (next s event)

instance (P : σ → ε → Prop) [∀ s event, Decidable (P s event)] :
    ∀ events s, Decidable (Along next P events s)
  | [], _ => inferInstanceAs (Decidable True)
  | event :: events, s =>
    have := instDecidableAlong P events (next s event)
    inferInstanceAs (Decidable (P s event ∧ Along next P events (next s event)))

@[simp] theorem along_nil (P : σ → ε → Prop) (s : σ) : Along next P [] s := trivial

@[simp] theorem along_cons (P : σ → ε → Prop) (event : ε) (events : List ε) (s : σ) :
    Along next P (event :: events) s ↔ P s event ∧ Along next P events (next s event) := Iff.rfl

theorem along_append (P : σ → ε → Prop) (first second : List ε) (s : σ) :
    Along next P (first ++ second) s ↔ Along next P first s ∧ Along next P second (run next first s) := by
  induction first generalizing s with
  | nil => simp
  | cons event first ih => simp [ih, and_assoc]

theorem along_of_forall {P : σ → ε → Prop} (always : ∀ s event, P s event) :
    ∀ events s, Along next P events s
  | [], _ => trivial
  | event :: events, s => ⟨always s event, along_of_forall always events (next s event)⟩

theorem along_of_mem {Q : ε → Prop} : ∀ {events : List ε} {s}, (∀ event ∈ events, Q event) →
    Along next (fun _ event => Q event) events s
  | [], _, _ => trivial
  | event :: _, _, all =>
    ⟨all event List.mem_cons_self, along_of_mem fun later member => all later (List.mem_cons_of_mem _ member)⟩

theorem along_and {P P' : σ → ε → Prop} : ∀ {events s}, Along next P events s → Along next P' events s →
    Along next (fun s event => P s event ∧ P' s event) events s
  | [], _, _, _ => trivial
  | _ :: _, _, along, along' => ⟨⟨along.1, along'.1⟩, along_and along.2 along'.2⟩

theorem along_mono {P P' : σ → ε → Prop} (weaker : ∀ s event, P s event → P' s event) :
    ∀ {events s}, Along next P events s → Along next P' events s
  | [], _, _ => trivial
  | event :: _, s, along => ⟨weaker s event along.1, along_mono weaker along.2⟩

variable {next}

/-- An invariant kept by every event that meets `P` holds at the end of a run of such events. -/
theorem invariant {P : σ → ε → Prop} {I : σ → Prop}
    (keeps : ∀ s event, P s event → I s → I (next s event)) {events : List ε} {s : σ}
    (along : Along next P events s) (start : I s) : I (run next events s) := by
  induction events generalizing s with
  | nil => exact start
  | cons event events ih => exact ih along.2 (keeps s event along.1 start)

/-- A preorder that every event meeting `P` moves the state along, under an invariant,
relates the two ends of a run. -/
theorem moves {P : σ → ε → Prop} {I : σ → Prop} {R : σ → σ → Prop} (refl : ∀ s, R s s)
    (trans : ∀ a b c, R a b → R b c → R a c)
    (keeps : ∀ s event, P s event → I s → I (next s event))
    (moved : ∀ s event, P s event → I s → R s (next s event)) {events : List ε} {s : σ}
    (along : Along next P events s) (start : I s) : R s (run next events s) := by
  induction events generalizing s with
  | nil => exact refl s
  | cons event events ih =>
    have here := moved s event along.1 start
    have rest := ih along.2 (keeps s event along.1 start)
    exact trans _ _ _ here rest

/-- A rank that no step raises, and that steps which come again and again lower until the end, comes to its end. -/
theorem eventually {state : Nat → σ} {rank : σ → Nat} {done : σ → Prop} {tick : Nat → Prop}
    (fair : ∀ n, ∃ m, n ≤ m ∧ tick m) {start : Nat}
    (calm : ∀ n, start ≤ n → rank (state (n + 1)) ≤ rank (state n))
    (lower : ∀ n, start ≤ n → tick n → ¬ done (state n) → rank (state (n + 1)) < rank (state n)) :
    ∃ n, done (state n) := by
  have along (n k : Nat) (later : start ≤ n) : rank (state (n + k)) ≤ rank (state n) := by
    induction k with
    | zero => exact Nat.le_refl _
    | succ k ih => exact Nat.le_trans (calm (n + k) (by omega)) ih
  have bounded (r : Nat) : ∀ n, start ≤ n → rank (state n) ≤ r → ∃ m, done (state m) := by
    induction r with
    | zero =>
      intro n later low
      obtain ⟨m, after, ticks⟩ := fair n
      by_contra never
      have drops := lower m (by omega) ticks fun ended => never ⟨m, ended⟩
      have kept := along n (m - n) later
      rw [Nat.add_sub_of_le after] at kept
      omega
    | succ r ih =>
      intro n later low
      obtain ⟨m, after, ticks⟩ := fair n
      by_cases ended : done (state m)
      · exact ⟨m, ended⟩
      · have drops := lower m (by omega) ticks ended
        have kept := along n (m - n) later
        rw [Nat.add_sub_of_le after] at kept
        exact ih (m + 1) (by omega) (by omega)
  exact bounded (rank (state start)) start (Nat.le_refl _) (Nat.le_refl _)

/-- What holds at the end of a run and not at its start, some event made hold. -/
theorem turned {I : σ → Prop} {events : List ε} {s : σ} (start : ¬ I s) (finish : I (run next events s)) :
    ∃ first event last, events = first ++ event :: last ∧ ¬ I (run next first s) ∧
      I (next (run next first s) event) := by
  induction events generalizing s with
  | nil => exact absurd finish start
  | cons event events ih =>
    by_cases here : I (next s event)
    · exact ⟨[], event, events, rfl, start, here⟩
    · obtain ⟨first, event', last, rfl, before, after⟩ := ih here finish
      exact ⟨event :: first, event', last, rfl, before, after⟩

section Cell

variable {κ : Type w} {P : σ → ε → Prop} {cell : σ → Option κ} {before middle after : List ε} {event event' : ε} {s : σ}

/-- What a cell holds at one point of a run it holds at every later one. -/
theorem kept (keeps : ∀ s event, P s event → ∀ v, cell s = some v → cell (next s event) = some v)
    {events : List ε} {v : κ} (along : Along next P events s) (set : cell s = some v) :
    cell (run next events s) = some v :=
  invariant (I := fun s => cell s = some v) (fun s event here set => keeps s event here v set) along set

variable (keeps : ∀ s event, P s event → ∀ v, cell s = some v → cell (next s event) = some v)
  (along : Along next P (before ++ event :: (middle ++ event' :: after)) s)
include keeps along

/-- What an event leaves in the cell stands there when a later one comes. -/
theorem kept_between {v : κ} (left : cell (next (run next before s) event) = some v) :
    cell (run next (before ++ event :: middle) s) = some v := by
  rw [along_append, along_cons, along_append] at along
  rw [run_append, run_cons]
  exact kept keeps along.2.2.1 left

end Cell

end Durare.Runs

import Durare.Table

/-! A database of uniquely keyed rows whose transactions run code of their own: what such a body
wrote is seen once its transaction is committed, and a transaction that inserts a row is committed
with it or not at all. -/
namespace Durare.Commits

/-- One run of a transaction's body: the key it works for, whether it was marked as reading only,
what it wrote, and how it ended. -/
structure Run (κ ω ε α : Type) where
  key : κ
  readOnly : Bool
  writes : ω
  outcome : Except ε α

/-- The rows, the bodies that ran, the runs whose transactions are committed, and for every row
that a transaction inserted its run. -/
structure Base (κ ν ω ε α : Type) where
  rows : Table κ ν
  ran : List (Run κ ω ε α) := []
  commits : List Nat := []
  writer : Table κ Nat := ∅

namespace Base

variable {κ ν ω ε α : Type} [DecidableEq κ]

/-- `INSERT … ON CONFLICT DO NOTHING` on its own. -/
def insert (b : Base κ ν ω ε α) (key : κ) (row : ν) : Bool × Base κ ν ω ε α :=
  if (b.rows.get key).isSome then (false, b) else (true, { b with rows := b.rows.put key row })

omit [DecidableEq κ] in
/-- A body has run, and is known by its number. -/
def push (b : Base κ ν ω ε α) (run : Run κ ω ε α) : Nat × Base κ ν ω ε α :=
  (b.ran.length, { b with ran := b.ran ++ [run] })

/-- A commit of the run with the row it inserted. It cannot take effect over a row of that key. A
database keeps rivals waiting from the insert on; here the later commit fails, which lets more happen. -/
def commit (b : Base κ ν ω ε α) (i : Nat) (row : Option (κ × ν)) : Option (Base κ ν ω ε α) :=
  match row with
  | none => some { b with commits := b.commits ++ [i] }
  | some (key, row) =>
    if (b.rows.get key).isSome then none
    else some { b with
      rows := b.rows.put key row
      commits := b.commits ++ [i]
      writer := b.writer.put key i }

/-- Rows stay, runs and commits are only added. -/
structure Grows (b b' : Base κ ν ω ε α) : Prop where
  rows : ∀ key row, b.rows.get key = some row → b'.rows.get key = some row
  ran : b.ran <+: b'.ran

theorem Grows.refl (b : Base κ ν ω ε α) : Grows b b := ⟨fun _ _ stored => stored, List.prefix_rfl⟩

theorem Grows.trans {a b c : Base κ ν ω ε α} (first : Grows a b) (second : Grows b c) : Grows a c :=
  ⟨fun key row stored => second.rows key row (first.rows key row stored), first.ran.trans second.ran⟩

/-- A run keeps its number. -/
theorem Grows.numbered {b b' : Base κ ν ω ε α} (grows : Grows b b') {i : Nat} {run : Run κ ω ε α}
    (here : b.ran[i]? = some run) : b'.ran[i]? = some run := by
  obtain ⟨more, whole⟩ := grows.ran
  rw [← whole, List.getElem?_append_left]
  · exact here
  · exact (List.getElem?_eq_some_iff.mp here).1

/-- The row says that the run succeeded. -/
abbrev Witness (κ ν ω ε α : Type) := Run κ ω ε α → ν → Prop

/-- A committed run ended well. One that was not marked as reading only is committed with its row, and a row
that a transaction inserted comes with its run. -/
structure Atomic (witness : Witness κ ν ω ε α) (b : Base κ ν ω ε α) : Prop where
  committed : ∀ i ∈ b.commits, ∃ run value, b.ran[i]? = some run ∧ run.outcome = .ok value
  witnessed : ∀ i ∈ b.commits, ∀ run, b.ran[i]? = some run → run.readOnly = false →
    b.writer.get run.key = some i ∧ ∃ row, b.rows.get run.key = some row ∧ witness run row
  written : ∀ key i, b.writer.get key = some i → i ∈ b.commits ∧ ∃ run, b.ran[i]? = some run ∧ run.key = key

variable {witness : Witness κ ν ω ε α} {b b' : Base κ ν ω ε α}

theorem Atomic.insert (atomic : Atomic witness b) (key : κ) (row : ν) : Atomic witness (b.insert key row).2 := by
  unfold Base.insert
  split
  · exact atomic
  next vacant =>
    constructor
    · exact atomic.committed
    · intro i member run here writing
      obtain ⟨writer, row', stored, told⟩ := atomic.witnessed i member run here writing
      refine ⟨writer, row', ?_, told⟩
      by_cases same : run.key = key
      · rw [same] at stored
        simp [stored] at vacant
      · simpa [same] using stored
    · exact atomic.written

omit [DecidableEq κ] in
theorem push_before {i : Nat} {run run' : Run κ ω ε α} (here : (b.push run').2.ran[i]? = some run)
    (known : ∃ run, b.ran[i]? = some run) : b.ran[i]? = some run := by
  obtain ⟨run'', before⟩ := known
  have bound := (List.getElem?_eq_some_iff.mp before).1
  rw [← here]
  exact (List.getElem?_append_left bound).symm

theorem Atomic.push (atomic : Atomic witness b) (run : Run κ ω ε α) : Atomic witness (b.push run).2 := by
  have kept : ∀ (i : Nat) run', b.ran[i]? = some run' → (b.push run).2.ran[i]? = some run' := by
    intro i run' here
    exact (List.getElem?_append_left (List.getElem?_eq_some_iff.mp here).1).trans here
  constructor
  · intro i member
    obtain ⟨run', value, here, ended⟩ := atomic.committed i member
    exact ⟨run', value, kept i run' here, ended⟩
  · intro i member run' here writing
    obtain ⟨run'', value, before, -⟩ := atomic.committed i member
    exact atomic.witnessed i member run' (push_before here ⟨run'', before⟩) writing
  · intro key i writer
    obtain ⟨member, run', here, same⟩ := atomic.written key i writer
    exact ⟨member, run', kept i run' here, same⟩

/-- The commit of a run that only read. -/
theorem Atomic.commit_read {i : Nat} {run : Run κ ω ε α} {value : α} (atomic : Atomic witness b)
    (here : b.ran[i]? = some run) (ended : run.outcome = .ok value) (reading : run.readOnly = true)
    (done : b.commit i none = some b') : Atomic witness b' := by
  cases done
  constructor
  · intro j member
    rcases List.mem_append.mp member with member | member
    · exact atomic.committed j member
    · rw [List.mem_singleton.mp member]
      exact ⟨run, value, here, ended⟩
  · intro j member run' there writing
    rcases List.mem_append.mp member with member | member
    · exact atomic.witnessed j member run' there writing
    · rw [List.mem_singleton.mp member, here] at there
      cases there
      rw [reading] at writing
      cases writing
  · intro key j writer
    obtain ⟨member, same⟩ := atomic.written key j writer
    exact ⟨List.mem_append_left _ member, same⟩

/-- The commit of a run with the row that witnesses it. -/
theorem Atomic.commit_row {i : Nat} {run : Run κ ω ε α} {value : α} {row : ν} (atomic : Atomic witness b)
    (here : b.ran[i]? = some run) (ended : run.outcome = .ok value) (told : witness run row)
    (done : b.commit i (some (run.key, row)) = some b') : Atomic witness b' := by
  unfold Base.commit at done
  dsimp only at done
  split at done
  · cases done
  next vacant =>
    cases done
    constructor
    · intro j member
      rcases List.mem_append.mp member with member | member
      · exact atomic.committed j member
      · rw [List.mem_singleton.mp member]
        exact ⟨run, value, here, ended⟩
    · intro j member run' there writing
      rcases List.mem_append.mp member with member | member
      · -- an earlier commit holds another key
        obtain ⟨writer, row', stored, told'⟩ := atomic.witnessed j member run' there writing
        have apart : run'.key ≠ run.key := by
          intro same
          rw [same] at stored
          simp [stored] at vacant
        exact ⟨by simpa [apart] using writer, row', by simpa [apart] using stored, told'⟩
      · rw [List.mem_singleton.mp member, here] at there
        cases there
        rw [List.mem_singleton.mp member]
        exact ⟨by simp, row, by simp, told⟩
    · intro key j writer
      by_cases same : key = run.key
      · subst same
        simp only [Table.get_put, if_true, Option.some.injEq] at writer
        subst writer
        exact ⟨by simp, run, here, rfl⟩
      · simp only [Table.get_put, if_neg same] at writer
        obtain ⟨member, known⟩ := atomic.written key j writer
        exact ⟨List.mem_append_left _ member, known⟩

/-- One run of a key is committed. -/
theorem Atomic.once (atomic : Atomic witness b) {i j : Nat} {run run' : Run κ ω ε α} (first : i ∈ b.commits)
    (second : j ∈ b.commits) (here : b.ran[i]? = some run) (there : b.ran[j]? = some run')
    (writing : run.readOnly = false) (writing' : run'.readOnly = false) (same : run.key = run'.key) : i = j := by
  have one := (atomic.witnessed i first run here writing).1
  have other := (atomic.witnessed j second run' there writing').1
  rw [same, other] at one
  exact (Option.some.inj one).symm

/-- A run that failed is not seen. -/
theorem Atomic.failed (atomic : Atomic witness b) {i : Nat} {run : Run κ ω ε α} {e : ε} (here : b.ran[i]? = some run)
    (ended : run.outcome = .error e) : i ∉ b.commits := by
  intro member
  obtain ⟨run', value, there, succeeded⟩ := atomic.committed i member
  rw [here] at there
  cases there
  rw [ended] at succeeded
  cases succeeded

def applied (b : Base κ ν ω ε α) (key : κ) : List Nat :=
  b.commits.filter fun i => b.ran[i]?.any fun run => decide (run.key = key) && !run.readOnly

theorem mem_applied {key : κ} {i : Nat} :
    i ∈ b.applied key ↔ i ∈ b.commits ∧ ∃ run, b.ran[i]? = some run ∧ run.key = key ∧ run.readOnly = false := by
  simp [applied, Option.any_eq_true]

/-- A body that ran since is not committed. -/
theorem Atomic.applied_push (atomic : Atomic witness b) (run : Run κ ω ε α) (key : κ) :
    (b.push run).2.applied key = b.applied key := by
  apply List.filter_congr
  intro i member
  obtain ⟨run', value, here, -⟩ := atomic.committed i member
  have bound := (List.getElem?_eq_some_iff.mp here).1
  change (b.ran ++ [run])[i]?.any _ = _
  rw [List.getElem?_append_left bound]

theorem applied_read {i : Nat} {run : Run κ ω ε α} (here : b.ran[i]? = some run) (reading : run.readOnly = true)
    (done : b.commit i none = some b') (key : κ) : b'.applied key = b.applied key := by
  cases done
  simp [applied, here, reading]

/-- A run is committed with its row where there was none, so no run of its key was committed before. -/
theorem Atomic.applied_row {i : Nat} {run : Run κ ω ε α} {row : ν} (atomic : Atomic witness b)
    (here : b.ran[i]? = some run) (done : b.commit i (some (run.key, row)) = some b') {key : κ}
    (once : (b.applied key).length ≤ 1) : (b'.applied key).length ≤ 1 := by
  unfold Base.commit at done
  dsimp only at done
  split at done
  · cases done
  next vacant =>
    cases done
    by_cases own : run.key = key
    · have none : b.applied key = [] := by
        apply List.eq_nil_iff_forall_not_mem.mpr
        intro j member
        obtain ⟨committed, run', there, same, writing⟩ := mem_applied.mp member
        obtain ⟨-, row', stored, -⟩ := atomic.witnessed j committed run' there writing
        rw [same, ← own] at stored
        simp [stored] at vacant
      unfold applied at none ⊢
      rw [List.filter_append, none, List.nil_append]
      exact List.length_filter_le _ [i]
    · unfold applied at once ⊢
      rw [List.filter_append]
      simpa [here, own] using once

theorem grows_insert (key : κ) (row : ν) : Grows b (b.insert key row).2 := by
  unfold Base.insert
  split
  · exact .refl b
  next vacant =>
    refine ⟨?_, List.prefix_rfl⟩
    intro key' row' stored
    by_cases same : key' = key
    · rw [same] at stored
      simp [stored] at vacant
    · simpa [same] using stored

theorem grows_push (run : Run κ ω ε α) : Grows b (b.push run).2 :=
  ⟨fun _ _ stored => stored, List.prefix_append ..⟩

theorem grows_commit {i : Nat} {row : Option (κ × ν)} (done : b.commit i row = some b') : Grows b b' := by
  unfold Base.commit at done
  split at done
  · cases done
    exact ⟨fun _ _ stored => stored, List.prefix_rfl⟩
  next key row =>
    split at done
    · cases done
    next vacant =>
      cases done
      refine ⟨?_, List.prefix_rfl⟩
      intro key' row' stored
      by_cases same : key' = key
      · rw [same] at stored
        simp [stored] at vacant
      · simpa [same] using stored

end Base

end Durare.Commits

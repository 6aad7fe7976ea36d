import Durare.Retention
import Durare.Starts

/-! One sweep of a retention policy: the period is taken off the clock in wrapping 64-bit milliseconds, and what
finished before goes. -/
namespace Durare

structure RetentionPolicy where
  period : Option Duration := none
  maxRows : Option Int := none
deriving DecidableEq, Repr

def RetentionPolicy.cutoff (policy : RetentionPolicy) (now : DateTime) : Option Int :=
  policy.period.map fun p => asI64 (now.timestampMillis - p.asMillis)

def Memory.retentionSweep (fuel : Nat) (policy : RetentionPolicy) (now : DateTime) (s : Inner) : Option (Answer Nat) :=
  garbageCollect fuel (policy.cutoff now) policy.maxRows s

def Sqlite.retentionSweep (scan : List String → List String) (fuel : Nat) (policy : RetentionPolicy) (now : DateTime)
    (db : Db) : Option (Answer Nat) :=
  garbageCollect scan fuel (policy.cutoff now) policy.maxRows db

namespace Sweeps

open Memory (Inner Reachable selected)

/-- A workflow that finished longer ago than the period, in exact arithmetic. -/
def Overdue (now : DateTime) (p : Duration) (status : Status) (completedAt : Option Int) : Prop :=
  status.isTerminal = true ∧ ∃ c : Int, completedAt = some c ∧ c * 1000000 < (now : Int) - (p : Nat)

/-- A sweep in memory ends and deletes only what is overdue, in every reachable state. -/
def KeepsMemory (now : DateTime) (p : Duration) : Prop :=
  ∀ lib s, Reachable lib s → ∃ limit, ∀ fuel, limit ≤ fuel → ∃ answer,
    Memory.retentionSweep fuel { period := some p } now s = some answer ∧
      ∀ id row, s.workflows.get id = some row → answer.2.workflows.get id = none →
        Overdue now p row.status row.completedAtMs

/-- The statuses are those that the engine writes, and the completions are 64-bit. -/
def Known (db : Sqlite.Db) : Prop :=
  ∀ id r, db.workflowStatus.get id = some r →
    (∀ text, r.status ≠ .other text) ∧ ∀ c ∈ r.completedAt, -2 ^ 63 ≤ c ∧ c < 2 ^ 63

/-- A sweep on SQLite does, in every database. -/
def KeepsSqlite (now : DateTime) (p : Duration) : Prop :=
  ∀ scan : List String → List String, (∀ ids, (scan ids).Perm ids) → ∀ db, Known db →
    ∃ limit, ∀ fuel, limit ≤ fuel → ∃ answer,
      Sqlite.retentionSweep scan fuel { period := some p } now db = some answer ∧
        ∀ id r, db.workflowStatus.get id = some r → answer.2.workflowStatus.get id = none →
          Overdue now p r.status r.completedAt

def exactCutoff (now : DateTime) (p : Duration) : Int := now.timestampMillis - (p / 1000000 : Nat)

variable {now : DateTime} {p : Duration}

theorem cutoff_eq (now : DateTime) (p : Duration) :
    ({ period := some p } : RetentionPolicy).cutoff now = some (asI64 (exactCutoff now p)) := by
  simp only [RetentionPolicy.cutoff, Option.map_some, exactCutoff, Duration.asMillis, asI64, Int.sub_bmod_bmod]

/-- A wrapped number is no larger than one that does not fall below the range, and larger than one that does. -/
theorem asI64_le {n : Int} (low : -2 ^ 63 ≤ n) : asI64 n ≤ n := by
  rw [asI64, Int.bmod_def]
  split <;> omega

theorem asI64_above {n : Int} (low : n < -2 ^ 63) : n + 2 ^ 64 ≤ asI64 n := by
  rw [asI64, Int.bmod_def]
  split <;> omega

theorem overdue_before {c : Int} (earlier : c < exactCutoff now p) : c * 1000000 < (now : Int) - (p : Nat) := by
  have exact_ (n : Int) (period : Nat) (less : c < n / 1000000 - (period / 1000000 : Nat)) :
      c * 1000000 < n - period := by omega
  exact exact_ now p earlier

theorem not_overdue_after {c : Int} (later : exactCutoff now p < c) : ¬ c * 1000000 < (now : Int) - (p : Nat) := by
  have exact_ (n : Int) (period : Nat) (more : n / 1000000 - (period / 1000000 : Nat) < c) :
      ¬ c * 1000000 < n - period := by omega
  exact exact_ now p later

def memoryLimit (now : DateTime) (p : Duration) : Int := asI64 (asI64 (exactCutoff now p) - 1)

theorem memoryLimit_eq (now : DateTime) (p : Duration) : memoryLimit now p = asI64 (exactCutoff now p - 1) :=
  Int.bmod_sub_bmod

theorem memory_sweep {s : Inner} (keyed : Memory.Keyed s) (now : DateTime) (p : Duration) (fuel : Nat)
    (enough : s.workflows.toList.length < fuel) :
    ∃ answer, Memory.retentionSweep fuel { period := some p } now s = some answer ∧
      ∀ id row, s.workflows.get id = some row →
        (answer.2.workflows.get id = none ↔ selected (memoryLimit now p) row = true) := by
  obtain ⟨removed, ends, members⟩ := Memory.gc_drains keyed (asI64 (exactCutoff now p)) fuel enough
  refine ⟨_, by rw [Memory.retentionSweep, Memory.garbageCollect, cutoff_eq, resolveGcCutoff]; simp only [ends]; rfl,
    ?_⟩
  intro id row stored
  have listed := members id
  rw [Table.mem_keysOf, ← memoryLimit] at listed
  by_cases target : id ∈ removed
  · obtain ⟨row', stored', accepted⟩ := listed.mp target
    rw [stored] at stored'
    cases stored'
    simp [Memory.deleteTargets, target, accepted]
  · have other : ¬ selected (memoryLimit now p) row = true := fun accepted =>
      target (listed.mpr ⟨row, stored, accepted⟩)
    simp [Memory.deleteTargets, target, stored, other]

def finishedAt (c : Int) : List (DateTime × Memory.Call) :=
  [(0, .insertWorkflowStatus { (.new 0 "w" "w" .null .success "local" "v1" : WorkflowStatus)
      with completedAtMs := some c })]

/-- A finished workflow with any completion is reachable. -/
theorem exists_finishedAt (lib : SerdeJson) (c : Int) : ∃ s row, Reachable lib s ∧ s.workflows.get "w" = some row ∧
    row.status.isTerminal = true ∧ row.completedAtMs = some c :=
  ⟨Memory.run lib (finishedAt c) Inner.new, _, ⟨_, rfl⟩, Table.get_put .., rfl, rfl⟩

theorem keepsMemory_iff (now : DateTime) (p : Duration) : KeepsMemory now p ↔ -2 ^ 63 < exactCutoff now p := by
  constructor
  · intro keeps
    by_contra low
    have wrapped := asI64_above (n := exactCutoff now p - 1) (by omega)
    rw [← memoryLimit_eq] at wrapped
    -- the sweep takes a workflow that finished at the instant of its bound
    obtain ⟨s, row, reachable, stored, terminal, completed⟩ := exists_finishedAt (.reading []) (memoryLimit now p)
    obtain ⟨limit, ends⟩ := keeps _ s reachable
    obtain ⟨answer, swept, only⟩ := ends (limit + s.workflows.toList.length + 1) (by omega)
    obtain ⟨answer', swept', exactly⟩ := memory_sweep reachable.keyed now p (limit + s.workflows.toList.length + 1)
      (by omega)
    obtain rfl : answer' = answer := by
      rw [swept'] at swept
      exact Option.some.inj swept
    have deleted := (exactly _ _ stored).mpr (by simp [selected, terminal, completed])
    obtain ⟨_, c, same, before⟩ := only _ _ stored deleted
    rw [completed] at same
    cases same
    exact not_overdue_after (by omega) before
  · intro fits lib s reachable
    refine ⟨s.workflows.toList.length + 1, fun fuel enough => ?_⟩
    obtain ⟨answer, swept, exactly⟩ := memory_sweep reachable.keyed now p fuel enough
    refine ⟨answer, swept, fun id row stored deleted => ?_⟩
    have accepted := (exactly id row stored).mp deleted
    have limit : memoryLimit now p ≤ exactCutoff now p - 1 := memoryLimit_eq now p ▸ asI64_le (by omega)
    simp only [selected, Bool.and_eq_true, Option.any_eq_true, decide_eq_true_eq] at accepted
    obtain ⟨terminal, c, completed, le⟩ := accepted
    exact ⟨terminal, c, completed, overdue_before (by omega)⟩

theorem terminal_iff {status : Status} (known : ∀ text, status ≠ .other text) :
    (!(status == .pending || status == .enqueued || status == .delayed)) = true ↔ status.isTerminal = true := by
  cases status with
  | other text => exact absurd rfl (known text)
  | _ => decide

theorem sqlite_sweep {scan : List String → List String} (perm : ∀ ids, (scan ids).Perm ids) (db : Sqlite.Db)
    (now : DateTime) (p : Duration) (fuel : Nat) (enough : db.workflowStatus.toList.length < fuel) :
    ∃ answer, Sqlite.retentionSweep scan fuel { period := some p } now db = some answer ∧
      ∀ id r, db.workflowStatus.get id = some r →
        (answer.2.workflowStatus.get id = none ↔ Sqlite.collectable (asI64 (exactCutoff now p)) r = true) := by
  obtain ⟨db', ends, gets⟩ := Sqlite.gc_drains perm db (asI64 (exactCutoff now p)) fuel enough
  refine ⟨_, by rw [Sqlite.retentionSweep, Sqlite.garbageCollect, cutoff_eq, resolveGcCutoff]; simp only [ends]; rfl,
    ?_⟩
  intro id r stored
  rw [gets id]
  by_cases target : id ∈ db.workflowStatus.keysOf (Sqlite.collectable (asI64 (exactCutoff now p)))
  · obtain ⟨r', stored', accepted⟩ := (Table.mem_keysOf _ _ _).mp target
    rw [stored] at stored'
    cases stored'
    simp [target, accepted]
  · have other : ¬ Sqlite.collectable (asI64 (exactCutoff now p)) r = true := fun accepted =>
      target ((Table.mem_keysOf _ _ _).mpr ⟨r, stored, accepted⟩)
    simp [target, stored, other]

def finishedRecord (c : Int) : Sqlite.WorkflowRecord where
  status := .success
  name := "w"
  inputs := none
  serialization := none
  executorId := some "local"
  applicationVersion := some "v1"
  createdAt := 0
  updatedAt := 0
  completedAt := some c

def finishedDb (c : Int) : Sqlite.Db :=
  { Sqlite.Db.new with workflowStatus := Table.put ∅ "w" (finishedRecord c) }

theorem asI64_least {n : Int} : asI64 n = -2 ^ 63 ↔ (n + 2 ^ 63) % 2 ^ 64 = 0 := by
  rw [asI64, Int.bmod_def]
  split <;> omega

theorem keepsSqlite_iff (now : DateTime) (p : Duration) :
    KeepsSqlite now p ↔ -2 ^ 63 ≤ exactCutoff now p ∨ (exactCutoff now p + 2 ^ 63) % 2 ^ 64 = 0 := by
  rw [← asI64_least]
  constructor
  · intro keeps
    by_contra low
    have wrapped := asI64_above (n := exactCutoff now p) (by omega)
    have range := asI64_range (exactCutoff now p)
    -- the sweep takes a workflow that finished just before its cutoff
    obtain ⟨c, last⟩ : ∃ c, c = asI64 (exactCutoff now p) - 1 := ⟨_, rfl⟩
    have known : Known (finishedDb c) := by
      intro id r stored
      by_cases same : id = "w"
      · simp only [finishedDb, same, Table.get_put, if_true, Option.some.injEq] at stored
        subst stored
        refine ⟨fun text => by simp [finishedRecord], fun c' completed => ?_⟩
        cases completed
        omega
      · simp [finishedDb, Sqlite.Db.new, same] at stored
    obtain ⟨limit, ends⟩ := keeps id (fun ids => .refl ids) (finishedDb c) known
    obtain ⟨answer, swept, only⟩ := ends (limit + (finishedDb c).workflowStatus.toList.length + 1) (by omega)
    obtain ⟨answer', swept', exactly⟩ := sqlite_sweep (fun ids => .refl ids) (finishedDb c) now p
      (limit + (finishedDb c).workflowStatus.toList.length + 1) (by omega)
    obtain rfl : answer' = answer := Option.some.inj (swept'.symm.trans swept)
    have stored : (finishedDb c).workflowStatus.get "w" = some (finishedRecord c) := Table.get_put ..
    have accepted : Sqlite.collectable (asI64 (exactCutoff now p)) (finishedRecord c) = true := by
      have before : c < asI64 (exactCutoff now p) := by omega
      simp [Sqlite.collectable, finishedRecord, before]
    obtain ⟨_, c', same, before⟩ := only _ _ stored ((exactly _ _ stored).mpr accepted)
    cases same
    exact not_overdue_after (by omega) before
  · rintro fits scan perm db known
    refine ⟨db.workflowStatus.toList.length + 1, fun fuel enough => ?_⟩
    obtain ⟨answer, swept, exactly⟩ := sqlite_sweep perm db now p fuel enough
    refine ⟨answer, swept, fun id r stored deleted => ?_⟩
    have accepted := (exactly id r stored).mp deleted
    simp only [Sqlite.collectable, Bool.and_eq_true, Option.any_eq_true, decide_eq_true_eq] at accepted
    obtain ⟨⟨c, completed, less⟩, live⟩ := accepted
    obtain ⟨written, range⟩ := known id r stored
    refine ⟨(terminal_iff written).mp live, c, completed, ?_⟩
    rcases fits with fits | least
    · have limit := asI64_le fits
      exact overdue_before (by omega)
    · have low := (range c completed).1
      omega

/-- A sweep deletes nothing early exactly if the clock less the period is above the least 64-bit millisecond; on
SQLite, which compares strictly, also if it is that one or wraps around to it. -/
theorem retention_keeps_iff (now : DateTime) (p : Duration) :
    (KeepsMemory now p ↔ -2 ^ 63 < exactCutoff now p) ∧
    (KeepsSqlite now p ↔ -2 ^ 63 ≤ exactCutoff now p ∨ (exactCutoff now p + 2 ^ 63) % 2 ^ 64 = 0) :=
  ⟨keepsMemory_iff now p, keepsSqlite_iff now p⟩

/-- To keep the history for ever is to ask for what finished up to now. -/
theorem longest_period_collects :
    let now : DateTime := 1700000000000000000
    ({ period := some Duration.MAX } : RetentionPolicy).cutoff now = some (now.timestampMillis + 1) ∧
      ¬ KeepsMemory now Duration.MAX := by
  refine ⟨by decide, fun keeps => ?_⟩
  exact absurd ((keepsMemory_iff _ _).mp keeps) (by decide)

end Sweeps

end Durare

import Durare.Table

/-! Workers under reconciliation: each pass compares what is desired with what runs, tells the workers that are no
longer desired to stop, and starts those that are missing. A worker told to stop may go on for a while. -/
namespace Durare.Reconciling

variable {κ δ : Type} [DecidableEq κ]

/-- Every worker ever started, with its definition and whether it has been told to stop, and the one that is
installed for a key. -/
structure Fleet (κ δ : Type) where
  workers : List (δ × Bool)
  installed : Table κ (Nat × δ)

namespace Fleet

def empty : Fleet κ δ := ⟨[], ∅⟩

def retire (keep : κ → δ → Bool) (fleet : Fleet κ δ) : Fleet κ δ where
  workers := fleet.workers.mapIdx fun i worker =>
    (worker.1, worker.2 || fleet.installed.toList.any fun entry => entry.2.1 == i && !keep entry.1 entry.2.2)
  installed := fleet.installed.retain fun k entry => keep k entry.2

def start (k : κ) (definition : δ) (fleet : Fleet κ δ) : Fleet κ δ where
  workers := fleet.workers ++ [(definition, false)]
  installed := fleet.installed.put k (fleet.workers.length, definition)

variable (key : δ → κ)

structure Sound (fleet : Fleet κ δ) : Prop where
  runs : ∀ {k i d}, fleet.installed.get k = some (i, d) → fleet.workers[i]? = some (d, false) ∧ key d = k
  installed : ∀ {i d}, fleet.workers[i]? = some (d, false) → fleet.installed.get (key d) = some (i, d)

variable {key} {fleet : Fleet κ δ}

theorem empty_sound : Sound key (empty : Fleet κ δ) where
  runs stored := by cases stored
  installed found := by cases found

/-- At most one worker runs on for a key. -/
theorem Sound.unique (sound : Sound key fleet) {i j : Nat} {d e : δ} (first : fleet.workers[i]? = some (d, false))
    (second : fleet.workers[j]? = some (e, false)) (same : key d = key e) : i = j := by
  have here := sound.installed first
  rw [same, sound.installed second] at here
  cases here
  rfl

/-- What a retirement does to a worker. -/
theorem retire_worker (sound : Sound key fleet) (keep : κ → δ → Bool) {i : Nat} {d : δ} {stopped : Bool}
    (found : fleet.workers[i]? = some (d, stopped)) :
    (fleet.retire keep).workers[i]? = some (d, stopped || !keep (key d) d) := by
  have retired : (fleet.installed.toList.any fun entry => entry.2.1 == i && !keep entry.1 entry.2.2) =
      (!stopped && !keep (key d) d) := by
    rw [Bool.eq_iff_iff, List.any_eq_true]
    constructor
    · rintro ⟨⟨k, j, e⟩, member, chosen⟩
      obtain ⟨there, own⟩ := sound.runs ((Table.mem_toList _ _ _).mp member)
      simp only [Bool.and_eq_true, beq_iff_eq] at chosen
      obtain ⟨rfl, gone⟩ := chosen
      rw [found] at there
      cases there
      simpa [own] using gone
    · intro gone
      cases stopped with
      | true => cases gone
      | false =>
        have here := sound.installed found
        exact ⟨(key d, i, d), (Table.mem_toList _ _ _).mpr here, by simpa using gone⟩
  have worker := congrArg (Option.map fun worker : δ × Bool => (worker.1, worker.2 ||
    fleet.installed.toList.any fun entry => entry.2.1 == i && !keep entry.1 entry.2.2)) found
  rw [retire, List.getElem?_mapIdx, worker, Option.map_some, retired]
  cases stopped <;> rfl

omit [DecidableEq κ] in
/-- A retirement makes no worker. -/
theorem retired_worker {keep : κ → δ → Bool} {i : Nat} {d : δ} {stopped : Bool}
    (found : (fleet.retire keep).workers[i]? = some (d, stopped)) : ∃ before, fleet.workers[i]? = some (d, before) := by
  rw [retire, List.getElem?_mapIdx, Option.map_eq_some_iff] at found
  obtain ⟨⟨e, before⟩, held, same⟩ := found
  cases same
  exact ⟨before, held⟩

theorem retire_installed (keep : κ → δ → Bool) (k : κ) :
    (fleet.retire keep).installed.get k = (fleet.installed.get k).filter fun entry => keep k entry.2 := by
  rw [retire, Table.get_retain]

theorem Sound.retire (sound : Sound key fleet) (keep : κ → δ → Bool) : Sound key (fleet.retire keep) where
  runs stored := by
    rw [retire_installed, Option.filter_eq_some_iff] at stored
    obtain ⟨held, kept⟩ := stored
    obtain ⟨running, own⟩ := sound.runs held
    refine ⟨?_, own⟩
    rw [retire_worker sound keep running, own, Bool.false_or]
    simpa using kept
  installed {i d} found := by
    obtain ⟨stopped, worker⟩ := retired_worker found
    rw [retire_worker sound keep worker] at found
    simp only [Option.some.injEq, Prod.mk.injEq, Bool.or_eq_false_iff, Bool.not_eq_false', true_and] at found
    obtain ⟨rfl, kept⟩ := found
    rw [retire_installed, sound.installed worker, Option.filter_some, kept]
    rfl

theorem started_worker {k : κ} {d e : δ} {i : Nat} {stopped : Bool}
    (found : (fleet.start k d).workers[i]? = some (e, stopped)) :
    fleet.workers[i]? = some (e, stopped) ∨ i = fleet.workers.length ∧ e = d ∧ stopped = false := by
  rw [Fleet.start, List.getElem?_append] at found
  split at found
  · exact .inl found
  next beyond =>
    obtain ⟨zero, same⟩ := List.getElem?_eq_some_iff.mp found
    have last : i = fleet.workers.length := by
      simp only [List.length_singleton] at zero
      omega
    subst last
    simp only [Nat.sub_self, List.getElem_cons_zero, Prod.mk.injEq] at same
    exact .inr ⟨rfl, same.1.symm, same.2.symm⟩

theorem Sound.start (sound : Sound key fleet) {d : δ} (missing : fleet.installed.get (key d) = none) :
    Sound key (fleet.start (key d) d) where
  runs {k i e} stored := by
    simp only [Fleet.start, Table.get_put] at stored ⊢
    split at stored
    next here =>
      cases stored
      exact ⟨by simp, here.symm⟩
    · obtain ⟨running, own⟩ := sound.runs stored
      exact ⟨by rw [List.getElem?_append_left (List.getElem?_eq_some_iff.mp running).1, running], own⟩
  installed {i e} found := by
    simp only [Fleet.start, Table.get_put]
    rcases started_worker found with before | ⟨rfl, rfl, -⟩
    · have held := sound.installed before
      have other : key e ≠ key d := by
        intro same
        rw [same, missing] at held
        cases held
      rw [if_neg other, held]
    · rw [if_pos rfl]

/-- A worker that was told to stop stays so. -/
theorem start_worker (k : κ) (d : δ) {i : Nat} {worker : δ × Bool} (found : fleet.workers[i]? = some worker) :
    (fleet.start k d).workers[i]? = some worker := by
  rw [Fleet.start, List.getElem?_append_left (List.getElem?_eq_some_iff.mp found).1, found]

variable {ε : Type} (name : ε → κ) (same : ε → δ → Bool)

/-- The test of a pass for what stays. -/
def keeps (desired : List ε) (k : κ) (d : δ) : Bool := desired.any fun e => name e == k && same e d

/-- Halfway through a pass for what is desired: what is installed is desired, and what is desired is installed or yet
to come. -/
structure Reaching (desired todo : List ε) (fleet : Fleet κ δ) : Prop where
  wanted : ∀ {k i d}, fleet.installed.get k = some (i, d) → ∃ e ∈ desired, name e = k ∧ same e d = true
  covered : ∀ e ∈ desired, (fleet.installed.get (name e)).isSome = true ∨ ∃ f ∈ todo, name f = name e

variable {name same} {desired todo : List ε}

theorem reaching_retire : Reaching name same desired desired (fleet.retire (keeps name same desired)) where
  wanted stored := by
    rw [retire_installed, Option.filter_eq_some_iff] at stored
    obtain ⟨e, member, kept⟩ := List.any_eq_true.mp stored.2
    rw [Bool.and_eq_true, beq_iff_eq] at kept
    exact ⟨e, member, kept⟩
  covered e member := .inr ⟨e, member, rfl⟩

theorem Reaching.skip {e : ε} (reaching : Reaching name same desired (e :: todo) fleet)
    (present : (fleet.installed.get (name e)).isSome = true) : Reaching name same desired todo fleet where
  wanted := reaching.wanted
  covered f member := by
    rcases reaching.covered f member with here | ⟨g, listed, own⟩
    · exact .inl here
    · rcases List.mem_cons.mp listed with rfl | later
      · exact .inl (own ▸ present)
      · exact .inr ⟨g, later, own⟩

theorem Reaching.start {e : ε} {d : δ} (reaching : Reaching name same desired (e :: todo) fleet) (member : e ∈ desired)
    (own : key d = name e) (matching : same e d = true) : Reaching name same desired todo (fleet.start (key d) d) where
  wanted {k i f} stored := by
    simp only [Fleet.start, Table.get_put] at stored
    split at stored
    next here =>
      cases stored
      exact ⟨e, member, by rw [here, own], matching⟩
    · exact reaching.wanted stored
  covered f listed := by
    simp only [Fleet.start, Table.get_put]
    by_cases here : name f = key d
    · exact .inl (by simp [here])
    · rw [if_neg here]
      rcases reaching.covered f listed with present | ⟨g, later, also⟩
      · exact .inl present
      · rcases List.mem_cons.mp later with rfl | later
        · exact absurd (also.symm.trans own.symm) here
        · exact .inr ⟨g, later, also⟩

/-- At the end of a pass the workers that run on are those desired, one for each key. -/
theorem Reaching.reached (reaching : Reaching name same desired [] fleet) (sound : Sound key fleet) :
    (∀ (i : Nat) d, fleet.workers[i]? = some (d, false) → ∃ e ∈ desired, name e = key d ∧ same e d = true) ∧
      ∀ e ∈ desired, ∃ (i : Nat) (d : δ), fleet.workers[i]? = some (d, false) ∧ key d = name e := by
  refine ⟨fun i d found => reaching.wanted (sound.installed found), fun e member => ?_⟩
  rcases reaching.covered e member with present | ⟨f, later, -⟩
  · obtain ⟨⟨i, d⟩, stored⟩ := Option.isSome_iff_exists.mp present
    exact ⟨i, d, sound.runs stored⟩
  · cases later

end Fleet

end Durare.Reconciling

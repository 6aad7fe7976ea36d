import Durare.Table

/-! Transactions over snapshots with row locks. A transaction sees the rows as they stood when it opened,
and it locks a row only where no other transaction holds it or has written it since. -/
namespace Durare.Snapshot

/-- An open transaction: the rows it sees, those it has locked, those that others have written since it
opened, and what its client keeps. -/
structure View (κ : Type u) (ν : Type v) (δ : Type w) where
  snapshot : Table κ ν
  locked : List κ := []
  overwritten : List κ := []
  data : δ
deriving DecidableEq

structure Store (σ : Type t) (κ : Type u) (ν : Type v) (δ : Type w) where
  rows : Table κ ν
  views : Table σ (View κ ν δ)
deriving DecidableEq

def View.miss (keys : List κ) (view : View κ ν δ) : View κ ν δ :=
  { view with overwritten := view.overwritten ++ keys }

namespace Store

variable {σ : Type t} {κ : Type u} {ν : Type v} {δ : Type w} [DecidableEq σ] [DecidableEq κ]
variable (store : Store σ κ ν δ) (session : σ)

def new : Store σ κ ν δ := ⟨∅, ∅⟩

def begin (data : δ) : Store σ κ ν δ :=
  { store with views := store.views.put session { snapshot := store.rows, data := data } }

def close : Store σ κ ν δ := { store with views := store.views.erase session }

def update (f : View κ ν δ → View κ ν δ) : Store σ κ ν δ :=
  { store with views := store.views.modify session f }

def commit (f : ν → ν) : Store σ κ ν δ :=
  match store.views.get session with
  | none => store
  | some view =>
    { rows := view.locked.foldl (fun rows key => rows.modify key f) store.rows
      views := (store.views.erase session).mapValues fun _ => View.miss view.locked }

def write (key : κ) (row : Option ν) : Store σ κ ν δ where
  rows := match row with
    | some row => store.rows.put key row
    | none => store.rows.erase key
  views := store.views.mapValues fun _ => View.miss [key]

/-- A transaction other than `session` holds the lock. -/
def heldByOther (key : κ) : Bool :=
  store.views.toList.any fun entry => decide (entry.1 ≠ session) && decide (key ∈ entry.2.locked)

def held (key : κ) : Bool := store.views.toList.any fun entry => decide (key ∈ entry.2.locked)

theorem heldByOther_iff (key : κ) : store.heldByOther session key = true ↔
    ∃ other view, store.views.get other = some view ∧ other ≠ session ∧ key ∈ view.locked := by
  simp only [heldByOther, List.any_eq_true, Bool.and_eq_true, decide_eq_true_eq]
  constructor
  · rintro ⟨⟨other, view⟩, member, differs, locked⟩
    exact ⟨other, view, (Table.mem_toList _ other view).mp member, differs, locked⟩
  · rintro ⟨other, view, present, differs, locked⟩
    exact ⟨(other, view), (Table.mem_toList _ other view).mpr present, differs, locked⟩

theorem held_iff (key : κ) : store.held key = true ↔
    ∃ other view, store.views.get other = some view ∧ key ∈ view.locked := by
  simp only [held, List.any_eq_true, decide_eq_true_eq]
  constructor
  · rintro ⟨⟨other, view⟩, member, locked⟩
    exact ⟨other, view, (Table.mem_toList _ other view).mp member, locked⟩
  · rintro ⟨other, view, present, locked⟩
    exact ⟨(other, view), (Table.mem_toList _ other view).mpr present, locked⟩

/-- Locks are exclusive, a locked row has not been written by others, and what no other has written
stands as the transaction sees it. -/
structure Sound : Prop where
  exclusive : ∀ one other view view' key, store.views.get one = some view → store.views.get other = some view' →
    key ∈ view.locked → key ∈ view'.locked → one = other
  clean : ∀ one view key, store.views.get one = some view → key ∈ view.locked → key ∉ view.overwritten
  current : ∀ one view key, store.views.get one = some view → key ∉ view.overwritten →
    store.rows.get key = view.snapshot.get key

variable {store session}

theorem Sound.new : (Store.new : Store σ κ ν δ).Sound := by
  constructor
  · intro one other view view' key present
    cases present
  · intro one view key present
    cases present
  · intro one view key present
    cases present

/-- A locked row stands as its transaction sees it. -/
theorem Sound.locked_current {view : View κ ν δ} {key : κ} (sound : store.Sound)
    (present : store.views.get session = some view) (locked : key ∈ view.locked) :
    store.rows.get key = view.snapshot.get key :=
  sound.current session view key present (sound.clean session view key present locked)

theorem Sound.begin (sound : store.Sound) (data : δ) : (store.begin session data).Sound := by
  have views : ∀ one view, (store.begin session data).views.get one = some view →
      view = { snapshot := store.rows, data := data } ∨ store.views.get one = some view := by
    intro one view present
    simp only [Store.begin, Table.get_put] at present
    split at present
    · exact .inl (Option.some.inj present).symm
    · exact .inr present
  constructor
  · intro one other view view' key present present' locked locked'
    rcases views one view present with rfl | old
    · cases locked
    · rcases views other view' present' with rfl | old'
      · cases locked'
      · exact sound.exclusive one other view view' key old old' locked locked'
  · intro one view key present locked
    rcases views one view present with rfl | old
    · cases locked
    · exact sound.clean one view key old locked
  · intro one view key present kept
    rcases views one view present with rfl | old
    · rfl
    · exact sound.current one view key old kept

/-- What is left of the transactions after `keys` have been written and no lock has been taken. -/
theorem Sound.moved {store' : Store σ κ ν δ} (sound : store.Sound) (keys : List κ)
    (rows : ∀ key ∉ keys, store'.rows.get key = store.rows.get key)
    (views : ∀ one view, store'.views.get one = some view → ∃ old, store.views.get one = some old ∧
      view.snapshot = old.snapshot ∧ view.overwritten = old.overwritten ++ keys ∧ view.locked = old.locked ∧
        ∀ key ∈ keys, key ∉ old.locked) : store'.Sound := by
  constructor
  · intro one other view view' key present present' locked locked'
    obtain ⟨old, before, -, -, same, -⟩ := views one view present
    obtain ⟨old', before', -, -, same', -⟩ := views other view' present'
    exact sound.exclusive one other old old' key before before' (same ▸ locked) (same' ▸ locked')
  · intro one view key present locked
    obtain ⟨old, before, -, written, same, apart⟩ := views one view present
    rw [same] at locked
    rw [written, List.mem_append, not_or]
    exact ⟨sound.clean one old key before locked, fun member => apart key member locked⟩
  · intro one view key present kept
    obtain ⟨old, before, seen, written, -, -⟩ := views one view present
    rw [written, List.mem_append, not_or] at kept
    rw [rows key kept.2, seen]
    exact sound.current one old key before kept.1

theorem Sound.close (sound : store.Sound) : (store.close session).Sound := by
  refine sound.moved [] ?_ ?_
  · exact fun _ _ => rfl
  intro one view present
  simp only [Store.close, Table.get_erase] at present
  split at present
  · cases present
  · exact ⟨view, present, rfl, by simp, rfl, by simp⟩

theorem Sound.keep (sound : store.Sound) (g : δ → δ) :
    (store.update session fun view => { view with data := g view.data }).Sound := by
  refine sound.moved [] ?_ ?_
  · exact fun _ _ => rfl
  intro one view present
  simp only [Store.update, Table.get_modify] at present
  split at present
  next same =>
    subst same
    obtain ⟨old, before, rfl⟩ := Option.map_eq_some_iff.mp present
    exact ⟨old, before, rfl, by simp, rfl, by simp⟩
  next => exact ⟨view, present, rfl, by simp, rfl, by simp⟩

/-- The views that a commit leaves open. -/
theorem commit_views {f : ν → ν} {view : View κ ν δ} (present : store.views.get session = some view) (one : σ)
    (view' : View κ ν δ) :
    (store.commit session f).views.get one = some view' ↔
      one ≠ session ∧ ∃ old, store.views.get one = some old ∧ view' = old.miss view.locked := by
  simp only [Store.commit, present, Table.get_mapValues, Table.get_erase]
  split
  next same => simp [same]
  next differs =>
    rw [Option.map_eq_some_iff]
    constructor
    · rintro ⟨old, before, rfl⟩
      exact ⟨differs, old, before, rfl⟩
    · rintro ⟨-, old, before, rfl⟩
      exact ⟨old, before, rfl⟩

theorem commit_rows {f : ν → ν} (once : ∀ row, f (f row) = f row) {view : View κ ν δ}
    (present : store.views.get session = some view) (key : κ) :
    (store.commit session f).rows.get key =
      if key ∈ view.locked then (store.rows.get key).map f else store.rows.get key := by
  simp only [Store.commit, present]
  exact Table.get_foldl_modify f once ..

theorem Sound.commit (sound : store.Sound) {f : ν → ν} (once : ∀ row, f (f row) = f row) {view : View κ ν δ}
    (present : store.views.get session = some view) : (store.commit session f).Sound := by
  apply sound.moved view.locked
  · intro key passed
    rw [commit_rows once present, if_neg passed]
  · intro one view' there
    obtain ⟨differs, old, before, rfl⟩ := (commit_views present one view').mp there
    refine ⟨old, before, rfl, rfl, rfl, ?_⟩
    intro key locked locked'
    exact differs (sound.exclusive one session old view key before present locked' locked)

theorem write_views {key : κ} {row : Option ν} {one : σ} {view : View κ ν δ} :
    (store.write key row).views.get one = some view ↔
      ∃ old, store.views.get one = some old ∧ view = old.miss [key] := by
  simp only [Store.write, Table.get_mapValues, Option.map_eq_some_iff]
  constructor
  · rintro ⟨old, before, rfl⟩
    exact ⟨old, before, rfl⟩
  · rintro ⟨old, before, rfl⟩
    exact ⟨old, before, rfl⟩

omit [DecidableEq σ] in
theorem write_rows (key : κ) (row : Option ν) (k : κ) :
    (store.write key row).rows.get k = if k = key then row else store.rows.get k := by
  cases row with
  | none => simp [Store.write]
  | some row => simp [Store.write]

theorem Sound.write (sound : store.Sound) {key : κ} {row : Option ν} (free : store.held key = false) :
    (store.write key row).Sound := by
  apply sound.moved [key]
  · intro k passed
    rw [write_rows, if_neg (by simpa using passed)]
  · intro one view there
    obtain ⟨old, before, rfl⟩ := write_views.mp there
    refine ⟨old, before, rfl, rfl, rfl, ?_⟩
    intro k member locked
    rw [List.mem_singleton] at member
    subst member
    have taken := (store.held_iff k).mpr ⟨one, old, before, locked⟩
    rw [free] at taken
    cases taken

/-- A transaction locks a row that is free and that no other has written since it opened. -/
theorem Sound.acquire {key : κ} (sound : store.Sound) {view : View κ ν δ}
    (present : store.views.get session = some view)
    (free : store.heldByOther session key = false) (kept : key ∉ view.overwritten) (g : δ → δ) :
    (store.update session fun view => { view with locked := view.locked ++ [key], data := g view.data }).Sound := by
  have unheld : ∀ other view', store.views.get other = some view' → key ∈ view'.locked → other = session := by
    intro other view' there locked
    by_contra differs
    have taken := (store.heldByOther_iff session key).mpr ⟨other, view', there, differs, locked⟩
    rw [free] at taken
    cases taken
  have views : ∀ one view', (store.update session fun view =>
      { view with locked := view.locked ++ [key], data := g view.data }).views.get one = some view' →
      ∃ old, store.views.get one = some old ∧ view'.snapshot = old.snapshot ∧
        view'.overwritten = old.overwritten ∧ ∀ k ∈ view'.locked, k ∈ old.locked ∨ k = key ∧ one = session := by
    intro one view' there
    simp only [Store.update, Table.get_modify] at there
    split at there
    next same =>
      subst same
      rw [present] at there
      cases there
      refine ⟨view, present, rfl, rfl, ?_⟩
      intro k member
      rcases List.mem_append.mp member with old | new
      · exact .inl old
      · exact .inr ⟨List.mem_singleton.mp new, rfl⟩
    next => exact ⟨view', there, rfl, rfl, fun k member => .inl member⟩
  constructor
  · intro one other view₁ view₂ k there₁ there₂ locked₁ locked₂
    obtain ⟨old₁, before₁, -, -, from₁⟩ := views one view₁ there₁
    obtain ⟨old₂, before₂, -, -, from₂⟩ := views other view₂ there₂
    rcases from₁ k locked₁ with held₁ | ⟨rfl, rfl⟩
    · rcases from₂ k locked₂ with held₂ | ⟨rfl, rfl⟩
      · exact sound.exclusive one other old₁ old₂ k before₁ before₂ held₁ held₂
      · exact unheld one old₁ before₁ held₁
    · rcases from₂ k locked₂ with held₂ | ⟨-, rfl⟩
      · exact (unheld other old₂ before₂ held₂).symm
      · rfl
  · intro one view' k there locked
    obtain ⟨old, before, -, written, came⟩ := views one view' there
    rw [written]
    rcases came k locked with held | ⟨rfl, rfl⟩
    · exact sound.clean one old k before held
    · rw [present] at before
      cases before
      exact kept
  · intro one view' k there clean
    obtain ⟨old, before, seen, written, -⟩ := views one view' there
    rw [written] at clean
    rw [seen]
    exact sound.current one old k before clean

end Store

end Durare.Snapshot

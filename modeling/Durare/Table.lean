import Mathlib.Data.List.AList
import Mathlib.Data.Prod.Basic

/-! Keyed tables: finite maps that can also be listed row by row. One key holds at
most one value, so a lookup and a listing of the rows never disagree. -/
namespace Durare

/-- A finite map from `κ` to `ν`, carried by the list of its rows. -/
structure Table (κ : Type u) (ν : Type v) where
  rows : AList fun _ : κ => ν
deriving DecidableEq

namespace Table

variable {κ : Type u} {ν : Type v} [DecidableEq κ]

omit [DecidableEq κ] in
@[ext] theorem ext {s t : Table κ ν} (same : s.rows = t.rows) : s = t := by
  cases s; cases t; simp_all

def empty : Table κ ν := ⟨∅⟩

instance : EmptyCollection (Table κ ν) := ⟨empty⟩

instance : Inhabited (Table κ ν) := ⟨∅⟩

def get (t : Table κ ν) (k : κ) : Option ν := t.rows.lookup k

def put (t : Table κ ν) (k : κ) (v : ν) : Table κ ν := ⟨t.rows.insert k v⟩

def erase (t : Table κ ν) (k : κ) : Table κ ν := ⟨t.rows.erase k⟩

def modify (t : Table κ ν) (k : κ) (f : ν → ν) : Table κ ν :=
  match t.get k with
  | some v => t.put k (f v)
  | none => t

def retain (t : Table κ ν) (p : κ → ν → Bool) : Table κ ν :=
  ⟨⟨t.rows.entries.filter fun e => p e.1 e.2, t.rows.nodupKeys.sublist List.filter_sublist⟩⟩

def mapValues (t : Table κ ν) (f : κ → ν → ν) : Table κ ν :=
  ⟨⟨t.rows.entries.map fun e => ⟨e.1, f e.1 e.2⟩, by
    have same : (t.rows.entries.map fun e => (⟨e.1, f e.1 e.2⟩ : Sigma fun _ : κ => ν)).keys =
        t.rows.entries.keys := by simp [List.keys, Function.comp_def]
    simpa [List.NodupKeys, same] using t.rows.nodupKeys⟩⟩

def toList (t : Table κ ν) : List (κ × ν) := t.rows.entries.map fun e => (e.1, e.2)

def values (t : Table κ ν) : List ν := t.rows.entries.map fun e => e.2

@[simp] theorem get_empty (k : κ) : (∅ : Table κ ν).get k = none := rfl

@[simp, grind =] theorem get_put (t : Table κ ν) (k : κ) (v : ν) (k' : κ) :
    (t.put k v).get k' = if k' = k then some v else t.get k' := by
  by_cases same : k' = k
  · subst same; simp [get, put]
  · simp [get, put, same]

@[simp, grind =] theorem get_erase (t : Table κ ν) (k k' : κ) :
    (t.erase k).get k' = if k' = k then none else t.get k' := by
  by_cases same : k' = k
  · subst same; simp [get, erase]
  · simp [get, erase, same]

@[simp, grind =] theorem get_modify (t : Table κ ν) (k : κ) (f : ν → ν) (k' : κ) :
    (t.modify k f).get k' = if k' = k then (t.get k).map f else t.get k' := by
  unfold modify
  cases present : t.get k with
  | some v => simp
  | none => by_cases same : k' = k <;> simp [same, present]

theorem get_iff_mem_entries (t : Table κ ν) (k : κ) (v : ν) :
    t.get k = some v ↔ (⟨k, v⟩ : Sigma fun _ : κ => ν) ∈ t.rows.entries := by
  simpa [get] using AList.mem_lookup_iff (s := t.rows) (a := k) (b := v)

theorem mem_toList (t : Table κ ν) (k : κ) (v : ν) : (k, v) ∈ t.toList ↔ t.get k = some v := by
  rw [get_iff_mem_entries]
  simp [toList]

theorem mem_values (t : Table κ ν) (v : ν) : v ∈ t.values ↔ ∃ k, t.get k = some v := by
  simp only [get_iff_mem_entries, values, List.mem_map]
  constructor
  · rintro ⟨⟨k, w⟩, member, rfl⟩
    exact ⟨k, member⟩
  · rintro ⟨k, member⟩
    exact ⟨_, member, rfl⟩

@[simp, grind =] theorem get_retain (t : Table κ ν) (p : κ → ν → Bool) (k : κ) :
    (t.retain p).get k = (t.get k).filter (p k) := by
  apply Option.ext
  intro v
  rw [get_iff_mem_entries]
  simp [retain, get_iff_mem_entries, Option.filter_eq_some_iff]

theorem get_retain_kept (t : Table κ ν) (p : κ → ν → Bool) (k : κ) (all : ∀ v, p k v = true) :
    (t.retain p).get k = t.get k := by
  rw [get_retain]
  cases t.get k with
  | none => rfl
  | some v => rw [Option.filter_some, if_pos (all v)]

omit [DecidableEq κ] in
theorem retain_retain (t : Table κ ν) (p q : κ → ν → Bool) :
    (t.retain p).retain q = t.retain fun k v => q k v && p k v := by
  ext1
  apply AList.ext
  exact List.filter_filter

omit [DecidableEq κ] in
theorem retain_true (t : Table κ ν) : (t.retain fun _ _ => true) = t := by
  ext1
  apply AList.ext
  exact List.filter_eq_self.mpr fun _ _ => rfl

@[simp, grind =] theorem get_mapValues (t : Table κ ν) (f : κ → ν → ν) (k : κ) :
    (t.mapValues f).get k = (t.get k).map (f k) := by
  apply Option.ext
  intro v
  rw [get_iff_mem_entries]
  simp only [mapValues, List.mem_map, Option.map_eq_some_iff, get_iff_mem_entries]
  constructor
  · rintro ⟨⟨k', w⟩, member, same⟩
    cases same
    exact ⟨w, member, rfl⟩
  · rintro ⟨w, member, rfl⟩
    exact ⟨⟨k, w⟩, member, rfl⟩

/-- A rewrite that changes nothing the second time acts on each listed key once. -/
theorem get_foldl_modify (f : ν → ν) (once : ∀ v, f (f v) = f v) (keys : List κ) (t : Table κ ν) (k : κ) :
    (keys.foldl (fun t k => t.modify k f) t).get k = if k ∈ keys then (t.get k).map f else t.get k := by
  induction keys generalizing t with
  | nil => simp
  | cons key keys ih =>
    rw [List.foldl_cons, ih, get_modify]
    by_cases same : k = key
    · subst same
      by_cases later : k ∈ keys
      · cases t.get k <;> simp [later, once]
      · simp [later]
    · simp [same]

/-- Rows stored one after another: an untouched key keeps its row. -/
theorem get_foldl_put_ne (rows : List (κ × ν)) (t : Table κ ν) (k : κ) (absent : ∀ row ∈ rows, row.1 ≠ k) :
    (rows.foldl (fun t row => t.put row.1 row.2) t).get k = t.get k := by
  induction rows generalizing t with
  | nil => rfl
  | cons row rows ih =>
    have here := absent row (by simp)
    rw [List.foldl_cons, ih _ fun r member => absent r (by simp [member]), get_put, if_neg (Ne.symm here)]

/-- Rows stored one after another: a key whose rows all agree holds their value. -/
theorem get_foldl_put_mem (rows : List (κ × ν)) (t : Table κ ν) (k : κ) (v : ν) (member : (k, v) ∈ rows)
    (unique : ∀ w, (k, w) ∈ rows → w = v) :
    (rows.foldl (fun t row => t.put row.1 row.2) t).get k = some v := by
  induction rows generalizing t with
  | nil => cases member
  | cons row rows ih =>
    rw [List.foldl_cons]
    by_cases later : ∃ w, (k, w) ∈ rows
    · obtain ⟨w, found⟩ := later
      have agree := unique w (by simp [found])
      exact ih _ (agree ▸ found) fun w found => unique w (by simp [found])
    · have here : row = (k, v) := by
        rcases List.mem_cons.mp member with same | found
        · exact same.symm
        · exact absurd ⟨v, found⟩ later
      subst here
      rw [get_foldl_put_ne _ _ _ fun r found same => later ⟨r.2, by rw [← same]; exact found⟩, get_put,
        if_pos rfl]

/-- The keys of the rows `p` accepts. -/
def keysOf (t : Table κ ν) (p : ν → Bool) : List κ := (t.toList.filter fun row => p row.2).map (·.1)

theorem mem_keysOf (t : Table κ ν) (p : ν → Bool) (k : κ) :
    k ∈ t.keysOf p ↔ ∃ v, t.get k = some v ∧ p v = true := by
  simp only [keysOf, List.mem_map, List.mem_filter]
  constructor
  · rintro ⟨⟨k', v⟩, ⟨member, accepted⟩, rfl⟩
    exact ⟨v, (mem_toList t k' v).mp member, accepted⟩
  · rintro ⟨v, stored, accepted⟩
    exact ⟨(k, v), ⟨(mem_toList t k v).mpr stored, accepted⟩, rfl⟩

omit [DecidableEq κ] in
theorem nodup_keysOf (t : Table κ ν) (p : ν → Bool) : (t.keysOf p).Nodup := by
  have keys : t.toList.map (·.1) = t.rows.keys := by simp [toList, AList.keys, List.keys, Function.comp_def]
  have distinct : (t.toList.map (·.1)).Nodup := keys ▸ t.rows.keys_nodup
  exact distinct.sublist (List.filter_sublist.map _)

omit [DecidableEq κ] in
theorem length_keysOf (t : Table κ ν) (p : ν → Bool) : (t.keysOf p).length = t.values.countP p := by
  have values : t.values = t.toList.map (·.2) := by simp [values, toList, Function.comp_def]
  rw [keysOf, List.length_map, ← List.countP_eq_length_filter, values, List.countP_map]
  rfl

/-- Rows counted in one table are no more than those that another counts at the same keys, and the
keys left over. -/
theorem countP_values_le {t t' : Table κ ν} {p q : ν → Bool} (others : List κ)
    (covered : ∀ k v, t.get k = some v → p v = true → k ∈ others ∨ ∃ w, t'.get k = some w ∧ q w = true) :
    t.values.countP p ≤ others.length + t'.values.countP q := by
  rw [← length_keysOf, ← length_keysOf, ← List.length_append]
  apply (List.subperm_of_subset (nodup_keysOf t p) ?_).length_le
  intro k member
  obtain ⟨v, stored, accepted⟩ := (mem_keysOf t p k).mp member
  rw [List.mem_append, mem_keysOf]
  exact covered k v stored accepted

/-- Keys that a table counts beside those it shares with another. -/
theorem length_add_countP_values_le {t t' : Table κ ν} {p q : ν → Bool} {others : List κ} (distinct : others.Nodup)
    (counted : ∀ k ∈ others, ∃ w, t'.get k = some w ∧ q w = true)
    (covered : ∀ k v, t.get k = some v → p v = true → k ∉ others ∧ ∃ w, t'.get k = some w ∧ q w = true) :
    others.length + t.values.countP p ≤ t'.values.countP q := by
  rw [← length_keysOf, ← length_keysOf, ← List.length_append]
  have apart : (others ++ t.keysOf p).Nodup := by
    rw [List.nodup_append]
    refine ⟨distinct, nodup_keysOf t p, ?_⟩
    rintro k here k' member rfl
    obtain ⟨v, stored, accepted⟩ := (mem_keysOf t p k).mp member
    exact (covered k v stored accepted).1 here
  apply (List.subperm_of_subset apart ?_).length_le
  intro k member
  rw [mem_keysOf]
  rcases List.mem_append.mp member with here | member
  · exact counted k here
  · obtain ⟨v, stored, accepted⟩ := (mem_keysOf t p k).mp member
    exact (covered k v stored accepted).2

end Table

end Durare

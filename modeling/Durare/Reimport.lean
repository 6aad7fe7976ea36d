import Durare.RoundTrip

/-! The whole round trip in memory: the exported list goes into an empty provider, everything comes back, and the
workflows are exported from there as they were before. -/
namespace Durare.Memory

open Records

section State

variable (lib : SerdeJson)

/-- The values that the machine types of a store hold: no vector is longer than memory. -/
structure InRange (s : Inner) : Prop where
  rows : Rows Typed s
  steps : ∀ key r, s.steps.get key = some r → TypedStep key.2 r
  streams : ∀ key buffer, s.streams.get key = some buffer → buffer.length ≤ MAX_STREAM_LEN

/-- What every store keeps to that the round trip needs. -/
structure Sound (s : Inner) : Prop where
  keyed : Keyed s
  settled : Rows (Settled lib) s
  canonical : ∀ key r, s.steps.get key = some r → Canonical lib r
  begun : ∀ key, s.streams.get key ≠ some []

variable (s : Inner)

def exported (id : String) : Option ExportedWorkflow := (s.workflows.get id).map (exportOne lib s id)

variable {lib s}

theorem exportAll_eq {ids : List String} (stored : ∀ id ∈ ids, (s.workflows.get id).isSome) :
    exportAll lib s ids = .ok (ids.filterMap (exported lib s)) := by
  induction ids with
  | nil => rfl
  | cons id ids ih =>
    obtain ⟨w, here⟩ := Option.isSome_iff_exists.mp (stored id List.mem_cons_self)
    have rest := ih fun other member => stored other (List.mem_cons_of_mem _ member)
    have one : exported lib s id = some (exportOne lib s id w) := by rw [exported, here, Option.map_some]
    rw [exportAll, here, List.filterMap_cons_some one]
    simp only [rest]
    rfl

theorem exportAll_stored {ids : List String} {wfs : List ExportedWorkflow} (done : exportAll lib s ids = .ok wfs) :
    ∀ id ∈ ids, (s.workflows.get id).isSome := by
  induction ids generalizing wfs with
  | nil => exact fun id member => absurd member List.not_mem_nil
  | cons id ids ih =>
    rw [exportAll] at done
    cases here : s.workflows.get id with
    | none =>
      rw [here] at done
      cases done
    | some w =>
      rw [here] at done
      cases rest : exportAll lib s ids with
      | error e =>
        simp only [rest] at done
        cases done
      | ok others =>
        intro other member
        rcases List.mem_cons.mp member with rfl | later
        · rw [here]
          rfl
        · exact ih rest other later

theorem mem_exported {ids : List String} {wf : ExportedWorkflow} : wf ∈ ids.filterMap (exported lib s) ↔
    ∃ id ∈ ids, ∃ w, s.workflows.get id = some w ∧ exportOne lib s id w = wf := by
  simp only [List.mem_filterMap, exported, Option.map_eq_some_iff]

section One

variable {id : String} {w : WorkflowStatus}

theorem importId_exportOne (own : w.id = id) : importId (exportOne lib s id w) = id := by
  have column : importId (exportOne lib s id w) = w.id := rfl
  rw [column, own]

theorem mem_stepRows (exactly : lib.Exact) (inRange : InRange s) (sound : Sound lib s) (own : w.id = id)
    {row : (String × Int) × StepRow} : row ∈ stepRows lib [exportOne lib s id w] ↔
      row.1.1 = id ∧ s.steps.get row.1 = some row.2 := by
  simp only [stepRows, List.flatMap_cons, List.flatMap_nil, List.append_nil, importId_exportOne own]
  simp only [exportOne, List.map_map, List.mem_map, Function.comp_apply]
  constructor
  · rintro ⟨⟨seq, r⟩, listed, rfl⟩
    have stored := (s.steps.mem_listing id (fun seq => seq) seq r).mp listed
    rw [importedStep_stepToMap lib exactly.lawful id (inRange.steps _ r stored) (sound.canonical _ r stored)]
    exact ⟨rfl, stored⟩
  · obtain ⟨⟨own_id, seq⟩, r⟩ := row
    rintro ⟨rfl, stored⟩
    refine ⟨(seq, r), (s.steps.mem_listing _ (fun seq => seq) seq r).mpr stored, ?_⟩
    rw [importedStep_stepToMap lib exactly.lawful _ (inRange.steps _ r stored) (sound.canonical _ r stored)]

theorem mem_eventRows (exactly : lib.Exact) (own : w.id = id) {row : (String × String) × Value} :
    row ∈ eventRows lib [exportOne lib s id w] ↔ row.1.1 = id ∧ s.events.get row.1 = some row.2 := by
  simp only [eventRows, List.flatMap_cons, List.flatMap_nil, List.append_nil, importId_exportOne own]
  simp only [exportOne, List.map_map, List.mem_map, Function.comp_apply]
  constructor
  · rintro ⟨⟨key, value⟩, listed, rfl⟩
    obtain ⟨named, parsed⟩ := parsed_eventToMap lib exactly.lawful id key value
    rw [named, parsed]
    exact ⟨rfl, (s.events.mem_listing id (fun key => key) key value).mp listed⟩
  · obtain ⟨⟨own_id, key⟩, value⟩ := row
    rintro ⟨rfl, stored⟩
    obtain ⟨named, parsed⟩ := parsed_eventToMap lib exactly.lawful own_id key value
    refine ⟨(key, value), (s.events.mem_listing _ (fun key => key) key value).mpr stored, ?_⟩
    rw [named, parsed]

/-- The entries of an exported stream, each at its offset. -/
theorem mem_entries (exactly : lib.Exact) (inRange : InRange s) {key : String} {offset : Nat} {entry : Option Value} :
    (key, offset, entry) ∈ (exportOne lib s id w).streams.map (importedEntry lib) ↔
      ∃ buffer, s.streams.get (id, key) = some buffer ∧ buffer[offset]? = some entry := by
  have back {key : String} {buffer : List (Option Value)} (stored : s.streams.get (id, key) = some buffer) {place : Nat}
      {entry : Option Value} (here : buffer[place]? = some entry) :
      importedEntry lib (streamToMap lib id key place entry) = (key, place, entry) := by
    have within := (List.getElem?_eq_some_iff.mp here).1
    have small := inRange.streams _ buffer stored
    simp only [MAX_STREAM_LEN] at small
    exact importedEntry_streamToMap lib exactly id key entry (by omega)
  simp only [exportOne, List.mem_map, List.mem_flatMap]
  constructor
  · rintro ⟨columns, ⟨⟨key', buffer⟩, listed, made⟩, same⟩
    obtain ⟨⟨entry', place⟩, there, rfl⟩ := made
    have stored := (s.streams.mem_listing id (fun key => key) key' buffer).mp listed
    have here := List.mem_zipIdx_iff_getElem?.mp there
    rw [back stored here] at same
    cases same
    exact ⟨buffer, stored, here⟩
  · rintro ⟨buffer, stored, here⟩
    exact ⟨_, ⟨(key, buffer), (s.streams.mem_listing id (fun key => key) key buffer).mpr stored, (entry, offset),
      List.mem_zipIdx_iff_getElem?.mpr here, rfl⟩, back stored here⟩

theorem mem_streamRows (exactly : lib.Exact) (inRange : InRange s) {key : String} {offset : Nat}
    {entry : Option Value} :
    (offset, entry) ∈ streamRows lib (exportOne lib s id w) key ↔
      ∃ buffer, s.streams.get (id, key) = some buffer ∧ buffer[offset]? = some entry := by
  rw [← @mem_entries lib s id w exactly inRange key offset entry, streamRows, List.mem_filterMap]
  constructor
  · rintro ⟨⟨key', place, entry'⟩, member, kept⟩
    by_cases same : key' = key
    · simp only [same, if_true, Option.some.injEq] at kept
      cases kept
      exact same ▸ member
    · simp [same] at kept
  · exact fun member => ⟨_, member, by simp⟩

theorem mem_streamKeys (exactly : lib.Exact) (inRange : InRange s) (sound : Sound lib s) {key : String} :
    key ∈ streamKeys lib (exportOne lib s id w) ↔ (s.streams.get (id, key)).isSome := by
  rw [streamKeys, List.mem_dedup, List.mem_map]
  constructor
  · rintro ⟨⟨key', offset, entry⟩, member, rfl⟩
    obtain ⟨buffer, stored, -⟩ := (mem_entries exactly inRange).mp member
    rw [stored]
    rfl
  · intro present
    obtain ⟨buffer, stored⟩ := Option.isSome_iff_exists.mp present
    cases buffer with
    | nil => exact absurd stored (sound.begun (id, key))
    | cons entry rest => exact ⟨(key, 0, entry), (mem_entries exactly inRange).mpr ⟨_, stored, rfl⟩, rfl⟩

end One

/-- The store holds the workflows of the list as another one does, and nothing else. -/
structure Restored (lib : SerdeJson) (ids : List String) (s t : Inner) : Prop where
  row : ∀ id ∈ ids, t.workflows.get id = (s.workflows.get id).map (restoredRow lib)
  steps : ∀ key : String × Int, key.1 ∈ ids → t.steps.get key = s.steps.get key
  events : ∀ key : String × String, key.1 ∈ ids → t.events.get key = s.events.get key
  streams : ∀ key : String × String, key.1 ∈ ids → t.streams.get key = s.streams.get key
  only : ∀ id, id ∉ ids → t.workflows.get id = none

section Import

variable {ids : List String}

theorem importId_of_exported (keyed : Keyed s) {wf : ExportedWorkflow} (member : wf ∈ ids.filterMap (exported lib s)) :
    ∃ id ∈ ids, ∃ w, s.workflows.get id = some w ∧ exportOne lib s id w = wf ∧ w.id = id ∧ importId wf = id := by
  obtain ⟨id, listed, w, stored, rfl⟩ := mem_exported.mp member
  have own := keyed id w stored
  exact ⟨id, listed, w, stored, rfl, own, importId_exportOne own⟩

theorem importIds_exported (keyed : Keyed s) (stored : ∀ id ∈ ids, (s.workflows.get id).isSome) :
    (ids.filterMap (exported lib s)).map importId = ids := by
  induction ids with
  | nil => rfl
  | cons id ids ih =>
    obtain ⟨w, here⟩ := Option.isSome_iff_exists.mp (stored id List.mem_cons_self)
    have one : exported lib s id = some (exportOne lib s id w) := by rw [exported, here, Option.map_some]
    rw [List.filterMap_cons_some one, List.map_cons, importId_exportOne (keyed id w here),
      ih fun other member => stored other (List.mem_cons_of_mem _ member)]

variable (stored : ∀ id ∈ ids, (s.workflows.get id).isSome)

include stored

theorem mem_stepRows_all (exactly : lib.Exact) (inRange : InRange s) (sound : Sound lib s)
    {row : (String × Int) × StepRow} :
    row ∈ stepRows lib (ids.filterMap (exported lib s)) ↔ row.1.1 ∈ ids ∧ s.steps.get row.1 = some row.2 := by
  have each : row ∈ stepRows lib (ids.filterMap (exported lib s)) ↔
      ∃ wf ∈ ids.filterMap (exported lib s), row ∈ stepRows lib [wf] := by
    simp [stepRows]
  rw [each]
  constructor
  · rintro ⟨wf, member, there⟩
    obtain ⟨id, listed, w, -, rfl, own, -⟩ := importId_of_exported sound.keyed member
    obtain ⟨named, recorded⟩ := (mem_stepRows exactly inRange sound own).mp there
    exact ⟨named ▸ listed, recorded⟩
  · rintro ⟨listed, recorded⟩
    obtain ⟨w, here⟩ := Option.isSome_iff_exists.mp (stored _ listed)
    exact ⟨_, mem_exported.mpr ⟨_, listed, w, here, rfl⟩,
      (mem_stepRows exactly inRange sound (sound.keyed _ w here)).mpr ⟨rfl, recorded⟩⟩

theorem mem_eventRows_all (exactly : lib.Exact) (sound : Sound lib s) {row : (String × String) × Value} :
    row ∈ eventRows lib (ids.filterMap (exported lib s)) ↔ row.1.1 ∈ ids ∧ s.events.get row.1 = some row.2 := by
  have each : row ∈ eventRows lib (ids.filterMap (exported lib s)) ↔
      ∃ wf ∈ ids.filterMap (exported lib s), row ∈ eventRows lib [wf] := by
    simp [eventRows]
  rw [each]
  constructor
  · rintro ⟨wf, member, there⟩
    obtain ⟨id, listed, w, -, rfl, own, -⟩ := importId_of_exported sound.keyed member
    obtain ⟨named, kept⟩ := (mem_eventRows exactly own).mp there
    exact ⟨named ▸ listed, kept⟩
  · rintro ⟨listed, kept⟩
    obtain ⟨w, here⟩ := Option.isSome_iff_exists.mp (stored _ listed)
    exact ⟨_, mem_exported.mpr ⟨_, listed, w, here, rfl⟩, (mem_eventRows exactly (sound.keyed _ w here)).mpr ⟨rfl, kept⟩⟩

/-- What is exported can be imported where there is nothing. -/
theorem exported_importable (exactly : lib.Exact) (inRange : InRange s) (sound : Sound lib s) (distinct : ids.Nodup) :
    Importable lib (ids.filterMap (exported lib s)) Inner.new where
  distinct := by rwa [importIds_exported sound.keyed stored]
  fresh wf _ := rfl
  steps := by
    constructor
    · intro row member other there same
      have here := ((mem_stepRows_all stored exactly inRange sound).mp member).2
      rw [same, ((mem_stepRows_all stored exactly inRange sound).mp there).2] at here
      exact (Option.some_inj.mp here).symm
    · intro row member v before
      cases before
  events := by
    constructor
    · intro row member other there same
      have here := ((mem_eventRows_all stored exactly sound).mp member).2
      rw [same, ((mem_eventRows_all stored exactly sound).mp there).2] at here
      exact (Option.some_inj.mp here).symm
    · intro row member v before
      cases before
  streams wf member key present := by
    obtain ⟨id, -, w, -, rfl, own, -⟩ := importId_of_exported sound.keyed member
    obtain ⟨buffer, open_stream⟩ := Option.isSome_iff_exists.mp ((mem_streamKeys exactly inRange sound).mp present)
    refine ⟨buffer, inRange.streams _ buffer open_stream, fun offset entry => ?_, fun left before => ?_⟩
    · rw [mem_streamRows exactly inRange]
      constructor
      · exact fun here => ⟨buffer, open_stream, here⟩
      · rintro ⟨other, same, here⟩
        rw [open_stream] at same
        cases same
        exact here
    · cases before

theorem import_exported (exactly : lib.Exact) (inRange : InRange s) (sound : Sound lib s) (distinct : ids.Nodup)
    (now : DateTime) : ∃ t, importWorkflow lib now (ids.filterMap (exported lib s)) Inner.new = (.ok .returned, t) ∧
      Restored lib ids s t := by
  have importable := exported_importable stored exactly inRange sound distinct
  have imported : Imported lib now _ Inner.new _ := imported_of_importable importable
  have accepted : ((ids.filterMap (exported lib s)).findSome? fun wf =>
      (colStr wf.workflowStatus "workflow_uuid").filter fun id => (Inner.new.workflows.get id).isSome) = none := by
    refine List.findSome?_eq_none_iff.mpr fun wf _ => Option.filter_eq_none_iff.mpr fun id _ => ?_
    exact Bool.false_ne_true
  refine ⟨importedState lib now (ids.filterMap (exported lib s)) Inner.new, ?_, ?_, ?_, ?_, ?_, ?_⟩
  · rcases importAll_cases lib now (ids.filterMap (exported lib s)) Inner.new with
      ⟨-, returned⟩ | ⟨⟨wf, member, key, present, fails⟩, -⟩
    · rw [importWorkflow, accepted, returned]
      rfl
    · obtain ⟨buffer, small, filled, -⟩ := importable.streams wf member key present
      rw [streamBuffer_of_filled filled small] at fails
      cases fails
  · intro id listed
    obtain ⟨w, here⟩ := Option.isSome_iff_exists.mp (stored id listed)
    have own := sound.keyed id w here
    have row : (id, restoredRow lib w) ∈ statusRows lib now (ids.filterMap (exported lib s)) := by
      refine List.mem_map.mpr ⟨_, mem_exported.mpr ⟨id, listed, w, here, rfl⟩, ?_⟩
      rw [importId_exportOne own]
      exact congrArg _ (mapToStatus_statusToMap lib exactly.lawful now (inRange.rows id w here) _)
    rw [here]
    exact imported.workflows.added _ row
  · rintro ⟨id, seq⟩ listed
    cases recorded : s.steps.get (id, seq) with
    | some r => exact imported.steps.added ((id, seq), r) ((mem_stepRows_all stored exactly inRange sound).mpr ⟨listed, recorded⟩)
    | none =>
      refine imported.steps.others _ fun row member same => ?_
      have there := ((mem_stepRows_all stored exactly inRange sound).mp member).2
      rw [same, recorded] at there
      cases there
  · rintro ⟨id, key⟩ listed
    cases kept : s.events.get (id, key) with
    | some value => exact imported.events.added ((id, key), value) ((mem_eventRows_all stored exactly sound).mpr ⟨listed, kept⟩)
    | none =>
      refine imported.events.others _ fun row member same => ?_
      have there := ((mem_eventRows_all stored exactly sound).mp member).2
      rw [same, kept] at there
      cases there
  · rintro ⟨id, key⟩ listed
    obtain ⟨w, here⟩ := Option.isSome_iff_exists.mp (stored id listed)
    have own := sound.keyed id w here
    have member : exportOne lib s id w ∈ ids.filterMap (exported lib s) := mem_exported.mpr ⟨id, listed, w, here, rfl⟩
    have named : importId (exportOne lib s id w) = id := importId_exportOne own
    cases open_stream : s.streams.get (id, key) with
    | some buffer =>
      have present : key ∈ streamKeys lib (exportOne lib s id w) := (mem_streamKeys exactly inRange sound).mpr (by rw [open_stream]; rfl)
      obtain ⟨built, there, filled⟩ := imported.streams _ member key present
      rw [named] at there
      rw [there, Option.some_inj]
      apply List.ext_getElem?
      intro offset
      apply Option.ext
      intro entry
      rw [filled offset entry, mem_streamRows exactly inRange]
      simp [open_stream]
    | none =>
      refine imported.otherStreams (id, key) fun wf there same present => ?_
      obtain ⟨id', -, w', here', rfl, own', named'⟩ := importId_of_exported sound.keyed there
      rw [named'] at same
      subst same
      have opened := (mem_streamKeys exactly inRange sound).mp present
      rw [open_stream] at opened
      cases opened
  · intro id unlisted
    refine imported.workflows.others id fun row member same => unlisted ?_
    obtain ⟨wf, there, rfl⟩ := List.mem_map.mp member
    obtain ⟨id', listed, -, -, -, -, named⟩ := importId_of_exported sound.keyed there
    rw [named] at same
    exact same ▸ listed

end Import

theorem mem_childIds (keyed : Keyed s) {parent child : String} : child ∈ childIds s parent ↔
    ∃ w, s.workflows.get child = some w ∧ w.parentWorkflowId = some parent := by
  rw [childIds, List.mem_insertionSort, List.mem_map]
  constructor
  · rintro ⟨w, member, rfl⟩
    obtain ⟨there, under⟩ := List.mem_filter.mp member
    obtain ⟨id, stored⟩ := (Table.mem_values _ _).mp there
    rw [keyed id w stored]
    exact ⟨w, stored, by simpa using under⟩
  · rintro ⟨w, stored, under⟩
    exact ⟨w, List.mem_filter.mpr ⟨(Table.mem_values _ _).mpr ⟨child, stored⟩, by simp [under]⟩, keyed child w stored⟩

theorem nodup_childRows (keyed : Keyed s) (parent : String) :
    ((s.workflows.values.filter fun w => w.parentWorkflowId == some parent).map (·.id)).Nodup :=
  keyed.nodup_ids.sublist (List.filter_sublist.map _)

theorem childIds_forest (keyed : Keyed s) : Descent.Forest (childIds s) where
  nodup parent := (List.perm_insertionSort _ _).nodup_iff.mpr (nodup_childRows keyed parent)
  parent := by
    intro x p p' here there
    obtain ⟨w, stored, under⟩ := (mem_childIds keyed).mp here
    obtain ⟨w', stored', under'⟩ := (mem_childIds keyed).mp there
    rw [stored] at stored'
    cases stored'
    exact Option.some_inj.mp (under.symm.trans under')

theorem childIds_finite (keyed : Keyed s) : {x | ∃ parent, x ∈ childIds s parent}.Finite := by
  refine (s.workflows.values.map (·.id)).toFinset.finite_toSet.subset ?_
  rintro x ⟨parent, child⟩
  obtain ⟨w, stored, -⟩ := (mem_childIds keyed).mp child
  rw [List.coe_toFinset]
  exact List.mem_map.mpr ⟨w, (Table.mem_values _ _).mpr ⟨x, stored⟩, keyed x w stored⟩

/-- The workflows to export are distinct, the root is one of them, and so are, with the children, those below it. -/
theorem exportIds_listed (keyed : Keyed s) {fuel : Nat} {root : String} {exportChildren : Bool} {ids : List String}
    (ends : exportIds s fuel root exportChildren = some ids) : ids.Nodup ∧
      ∀ id, id ∈ ids ↔ id = root ∨ (exportChildren = true ∧ Descent.Below (childIds s) id root) := by
  cases exportChildren with
  | true =>
    rw [exportIds, if_pos rfl] at ends
    exact ⟨Descent.nodup_walk (childIds_forest keyed) ends, fun id => by simp [Descent.mem_walk ends]⟩
  | false =>
    rw [exportIds, if_neg Bool.false_ne_true] at ends
    cases ends
    exact ⟨List.nodup_singleton root, fun id => by simp⟩

/-- Without the flag that is derived from the forks of a workflow. -/
def unforked (wf : ExportedWorkflow) : ExportedWorkflow :=
  { wf with workflowStatus := wf.workflowStatus.filter fun column => column.1 ≠ "was_forked_from" }

section Again

variable {ids : List String} {t : Inner}

theorem Restored.stored (restored : Restored lib ids s t) {id : String} {w : WorkflowStatus}
    (there : t.workflows.get id = some w) : id ∈ ids ∧ ∃ old, s.workflows.get id = some old ∧ restoredRow lib old = w := by
  by_cases listed : id ∈ ids
  · rw [restored.row id listed, Option.map_eq_some_iff] at there
    exact ⟨listed, there⟩
  · rw [restored.only id listed] at there
    cases there

theorem Restored.keyed (restored : Restored lib ids s t) (keyed : Keyed s) : Keyed t := by
  intro id w there
  obtain ⟨-, old, stored, rfl⟩ := restored.stored there
  exact keyed id old stored

/-- A workflow all of whose children are listed has the same ones. -/
theorem Restored.childIds_eq (restored : Restored lib ids s t) (keyed : Keyed s) {parent : String}
    (closed : ∀ child ∈ childIds s parent, child ∈ ids) : childIds t parent = childIds s parent := by
  have keyed' := restored.keyed keyed
  have members (x : String) : x ∈ childIds t parent ↔ x ∈ childIds s parent := by
    rw [mem_childIds keyed', mem_childIds keyed]
    constructor
    · rintro ⟨w, there, under⟩
      obtain ⟨-, old, stored, rfl⟩ := restored.stored there
      exact ⟨old, stored, under⟩
    · rintro ⟨w, stored, under⟩
      have listed := closed x ((mem_childIds keyed).mpr ⟨w, stored, under⟩)
      refine ⟨restoredRow lib w, ?_, under⟩
      rw [restored.row x listed, stored, Option.map_some]
  refine insertionSort_ext (nodup_childRows keyed' parent) (nodup_childRows keyed parent) fun x => ?_
  have member := members x
  rwa [childIds, childIds, List.mem_insertionSort, List.mem_insertionSort] at member

theorem Restored.exportIds_eq (restored : Restored lib ids s t) (keyed : Keyed s) {fuel : Nat} {root : String}
    {exportChildren : Bool} (ends : exportIds s fuel root exportChildren = some ids) :
    exportIds t fuel root exportChildren = some ids := by
  have listed := (exportIds_listed keyed ends).2
  cases exportChildren with
  | false =>
    rw [exportIds, if_neg Bool.false_ne_true] at ends ⊢
    exact ends
  | true =>
    have closed : ∀ parent, parent ∈ ids → ∀ child ∈ childIds s parent, child ∈ ids := by
      intro parent member child under
      rw [listed]
      rcases (listed parent).mp member with rfl | ⟨-, below⟩
      · exact .inr ⟨rfl, .single under⟩
      · exact .inr ⟨rfl, .head under below⟩
    rw [exportIds, if_pos rfl] at ends ⊢
    rw [← ends]
    have same : ∀ parent, parent ∈ ids → childIds t parent = childIds s parent := fun parent member =>
      restored.childIds_eq keyed (closed parent member)
    exact Descent.walk_congr closed same fuel [root] [root] (by simp [listed])

theorem listing_same {κ ν ω : Type} [DecidableEq κ] [LinearOrder ω] {first second : Table (String × κ) ν} {id : String}
    (order : κ → ω) (injective : Function.Injective order) (same : ∀ k, second.get (id, k) = first.get (id, k)) :
    second.listing id order = first.listing id order := by
  rw [Table.listing_map first id order injective (fun _ v => v) fun k => by simp [same]]
  simp

/-- A restored workflow is exported as it was, the flag apart. -/
theorem Restored.unforked_exportOne (restored : Restored lib ids s t) {id : String} (listed : id ∈ ids)
    {w : WorkflowStatus}
    (settled : Settled lib w) :
    unforked (exportOne lib t id (restoredRow lib w)) = unforked (exportOne lib s id w) := by
  have steps := listing_same (fun seq : Int => seq) Function.injective_id fun seq => restored.steps (id, seq) listed
  have events := listing_same (fun key : String => key) Function.injective_id fun key => restored.events (id, key) listed
  have streams := listing_same (fun key : String => key) Function.injective_id fun key => restored.streams (id, key) listed
  simp only [unforked, exportOne, statusToMap_restoredRow lib settled, steps, events, streams, List.filter_append]
  rfl

/-- The second export lists what the first one did. -/
theorem Restored.export_again (restored : Restored lib ids s t) (sound : Sound lib s)
    (stored : ∀ id ∈ ids, (s.workflows.get id).isSome) : ∃ again, exportAll lib t ids = .ok again ∧
      again.map unforked = (ids.filterMap (exported lib s)).map unforked := by
  have stored' : ∀ id ∈ ids, (t.workflows.get id).isSome := by
    intro id listed
    rw [restored.row id listed, Option.isSome_map]
    exact stored id listed
  refine ⟨_, exportAll_eq stored', ?_⟩
  rw [List.map_filterMap, List.map_filterMap]
  refine List.filterMap_congr fun id listed => ?_
  obtain ⟨w, here⟩ := Option.isSome_iff_exists.mp (stored id listed)
  rw [exported, exported, restored.row id listed, here]
  exact congrArg some (restored.unforked_exportOne listed (sound.settled id w here))

end Again

end State

end Durare.Memory

import Durare.Effects

/-! What an import stores, and when it stores all of its payload and nothing else. -/
namespace Durare

namespace Table

variable {κ ν : Type} [DecidableEq κ]

def puts (t : Table κ ν) (rows : List (κ × ν)) : Table κ ν := rows.foldl (fun t row => t.put row.1 row.2) t

theorem puts_append (t : Table κ ν) (first second : List (κ × ν)) :
    (t.puts first).puts second = t.puts (first ++ second) := by
  rw [puts, puts, puts, List.foldl_append]

/-- Every row is there afterwards, what was there before still is, and no other key has changed. -/
structure Faithful (t t' : Table κ ν) (rows : List (κ × ν)) : Prop where
  added : ∀ row ∈ rows, t'.get row.1 = some row.2
  kept : ∀ k v, t.get k = some v → t'.get k = some v
  others : ∀ k, (∀ row ∈ rows, row.1 ≠ k) → t'.get k = t.get k

/-- Rows for one key are the same row, and the one that is there already, if any. -/
structure Agree (t : Table κ ν) (rows : List (κ × ν)) : Prop where
  alike : ∀ row ∈ rows, ∀ other ∈ rows, row.1 = other.1 → row.2 = other.2
  stored : ∀ row ∈ rows, ∀ v, t.get row.1 = some v → v = row.2

theorem get_puts {t : Table κ ν} {rows : List (κ × ν)}
    (agree : ∀ row ∈ rows, ∀ other ∈ rows, row.1 = other.1 → row.2 = other.2)
    {row : κ × ν} (member : row ∈ rows) : (t.puts rows).get row.1 = some row.2 :=
  get_foldl_put_mem rows t row.1 row.2 member fun w other => agree (row.1, w) other row member rfl

theorem puts_faithful_iff (t : Table κ ν) (rows : List (κ × ν)) : Faithful t (t.puts rows) rows ↔ Agree t rows := by
  constructor
  · rintro ⟨added, kept, -⟩
    constructor
    · intro row member other there same
      have here := added row member
      rw [same, added other there] at here
      exact (Option.some_inj.mp here).symm
    · intro row member v stored
      have here := added row member
      rw [kept row.1 v stored] at here
      exact Option.some_inj.mp here
  · rintro ⟨agree, stored⟩
    refine ⟨fun row => get_puts agree, fun k v before => ?_, fun k absent => get_foldl_put_ne rows t k absent⟩
    by_cases written : ∃ row ∈ rows, row.1 = k
    · obtain ⟨row, member, rfl⟩ := written
      rw [get_puts agree member, stored row member v before]
    · have absent : ∀ row ∈ rows, row.1 ≠ k := fun row member same => written ⟨row, member, same⟩
      rw [puts, get_foldl_put_ne rows t k absent, before]

end Table

namespace Memory

/-- The rows are the entries of the stream, each at its offset. -/
def Filled (rows : List (Nat × Option Value)) (buffer : List (Option Value)) : Prop :=
  ∀ offset entry, buffer[offset]? = some entry ↔ (offset, entry) ∈ rows

theorem length_foldl_set (rows : List (Nat × Option Value)) (buffer : List (Option Value)) :
    (rows.foldl (fun buffer row => buffer.set row.1 row.2) buffer).length = buffer.length := by
  induction rows generalizing buffer with
  | nil => rfl
  | cons row rows ih => rw [List.foldl_cons, ih, List.length_set]

theorem getElem?_foldl_set_ne (rows : List (Nat × Option Value)) (buffer : List (Option Value)) (offset : Nat)
    (absent : ∀ row ∈ rows, row.1 ≠ offset) :
    (rows.foldl (fun buffer row => buffer.set row.1 row.2) buffer)[offset]? = buffer[offset]? := by
  induction rows generalizing buffer with
  | nil => rfl
  | cons row rows ih =>
    rw [List.foldl_cons, ih _ fun r member => absent r (by simp [member]), List.getElem?_set_ne (absent row (by simp))]

theorem getElem?_foldl_set {rows : List (Nat × Option Value)} {buffer : List (Option Value)} {offset : Nat}
    {entry : Option Value} (member : (offset, entry) ∈ rows) (unique : ∀ other, (offset, other) ∈ rows → other = entry)
    (within : offset < buffer.length) :
    (rows.foldl (fun buffer row => buffer.set row.1 row.2) buffer)[offset]? = some entry := by
  induction rows generalizing buffer with
  | nil => cases member
  | cons row rows ih =>
    rw [List.foldl_cons]
    by_cases later : ∃ other, (offset, other) ∈ rows
    · obtain ⟨other, found⟩ := later
      have same := unique other (by simp [found])
      exact ih (same ▸ found) (fun other found => unique other (by simp [found])) (by rwa [List.length_set])
    · have here : row = (offset, entry) := by
        rcases List.mem_cons.mp member with same | found
        · exact same.symm
        · exact absurd ⟨entry, found⟩ later
      subst here
      rw [getElem?_foldl_set_ne _ _ _ fun r found same => later ⟨r.2, by rw [← same]; exact found⟩,
        List.getElem?_set_self within]

def streamLength (rows : List (Nat × Option Value)) : Nat := rows.foldl (fun length row => max length (row.1 + 1)) 0

theorem le_foldl_max (rows : List (Nat × Option Value)) (start : Nat) :
    start ≤ rows.foldl (fun length row => max length (row.1 + 1)) start ∧
      ∀ row ∈ rows, row.1 < rows.foldl (fun length row => max length (row.1 + 1)) start := by
  induction rows generalizing start with
  | nil => simp
  | cons row rows ih =>
    obtain ⟨above, each⟩ := ih (max start (row.1 + 1))
    rw [List.foldl_cons]
    refine ⟨by omega, fun r member => ?_⟩
    rcases List.mem_cons.mp member with rfl | member
    · omega
    · exact each r member

theorem foldl_max_le (rows : List (Nat × Option Value)) (start bound : Nat) (small : start ≤ bound)
    (each : ∀ row ∈ rows, row.1 < bound) : rows.foldl (fun length row => max length (row.1 + 1)) start ≤ bound := by
  induction rows generalizing start with
  | nil => exact small
  | cons row rows ih =>
    have here := each row (by simp)
    exact ih (max start (row.1 + 1)) (by omega) fun r member => each r (by simp [member])

theorem Filled.length_eq {rows : List (Nat × Option Value)} {buffer : List (Option Value)}
    (filled : Filled rows buffer) :
    streamLength rows = buffer.length := by
  apply Nat.le_antisymm
  · refine foldl_max_le rows 0 _ (Nat.zero_le _) fun row member => ?_
    exact (List.getElem?_eq_some_iff.mp ((filled row.1 row.2).mpr member)).1
  · by_contra short
    have last : buffer.length - 1 < buffer.length := by omega
    have member := (filled _ _).mp (List.getElem?_eq_getElem last)
    have := (le_foldl_max rows 0).2 _ member
    unfold streamLength at short
    dsimp only at this
    omega

theorem streamBuffer_of_filled {rows : List (Nat × Option Value)} {buffer : List (Option Value)}
    (filled : Filled rows buffer)
    (small : buffer.length ≤ MAX_STREAM_LEN) : streamBuffer rows = some buffer := by
  have length := filled.length_eq
  unfold streamLength at length
  rw [streamBuffer, length]
  simp only [if_neg (Nat.not_lt.mpr small), Option.some.injEq]
  apply List.ext_getElem?
  intro offset
  by_cases within : offset < buffer.length
  · have member := (filled _ _).mp (List.getElem?_eq_getElem within)
    rw [List.getElem?_eq_getElem within]
    refine getElem?_foldl_set member (fun other found => ?_) (by rwa [List.length_replicate])
    have there := (filled _ _).mpr found
    rw [List.getElem?_eq_getElem within] at there
    exact (Option.some_inj.mp there).symm
  · have past : buffer[offset]? = none := List.getElem?_eq_none (by omega)
    rw [past]
    apply List.getElem?_eq_none
    rw [length_foldl_set, List.length_replicate]
    omega

theorem streamBuffer_length {rows : List (Nat × Option Value)} {buffer : List (Option Value)}
    (built : streamBuffer rows = some buffer) : buffer.length ≤ MAX_STREAM_LEN := by
  unfold streamBuffer at built
  simp only at built
  split at built
  · cases built
  · next small =>
    cases built
    rw [length_foldl_set, List.length_replicate]
    omega

section Payload

variable (lib : SerdeJson) (now : DateTime)

/-- The id an element is stored under; a missing one is the empty text. -/
def importId (wf : ExportedWorkflow) : String := (colStr wf.workflowStatus "workflow_uuid").getD ""

def statusRows (wfs : List ExportedWorkflow) : List (String × WorkflowStatus) :=
  wfs.map fun wf => (importId wf, mapToStatus lib now wf.workflowStatus)

def stepRows (wfs : List ExportedWorkflow) : List ((String × Int) × StepRow) :=
  wfs.flatMap fun wf => wf.operationOutputs.map fun c =>
    ((importId wf, (importedStep lib c).1), (importedStep lib c).2)

def eventRows (wfs : List ExportedWorkflow) : List ((String × String) × Value) :=
  wfs.flatMap fun wf => wf.workflowEvents.map fun c =>
    ((importId wf, (colStr c "key").getD ""), (parsed lib c "value").getD .null)

def streamKeys (wf : ExportedWorkflow) : List String := ((wf.streams.map (importedEntry lib)).map (·.1)).dedup

def streamRows (wf : ExportedWorkflow) (key : String) : List (Nat × Option Value) :=
  (wf.streams.map (importedEntry lib)).filterMap fun row => if row.1 = key then some row.2 else none

/-- The streams of an element, where all of them can be built. -/
def bufferRows (wf : ExportedWorkflow) : List ((String × String) × List (Option Value)) :=
  (streamKeys lib wf).map fun key => ((importId wf, key), (streamBuffer (streamRows lib wf key)).getD [])

theorem importStreams_cases (id : String) (rows : List (String × Nat × Option Value)) (keys : List String) (s : Inner) :
    let buffer key := streamBuffer (rows.filterMap fun row => if row.1 = key then some row.2 else none)
    ((∀ key ∈ keys, (buffer key).isSome = true) ∧ importStreams id rows keys s = (.returned,
      { s with streams := s.streams.puts (keys.map fun key => ((id, key), (buffer key).getD [])) })) ∨
    ((∃ key ∈ keys, buffer key = none) ∧ (importStreams id rows keys s).1 = .panicked) := by
  intro buffer
  induction keys generalizing s with
  | nil => exact .inl ⟨by simp, rfl⟩
  | cons key keys ih =>
    rw [importStreams]
    cases built : streamBuffer (rows.filterMap fun row => if row.1 = key then some row.2 else none) with
    | none => exact .inr ⟨⟨key, by simp, built⟩, rfl⟩
    | some b =>
      have here : buffer key = some b := built
      rcases ih { s with streams := s.streams.put (id, key) b } with ⟨all, returned⟩ | ⟨⟨other, member, fails⟩, panicked⟩
      · refine .inl ⟨fun k member => ?_, ?_⟩
        · rcases List.mem_cons.mp member with rfl | member
          · rw [here]
            rfl
          · exact all k member
        · rw [List.map_cons, here]
          exact returned
      · exact .inr ⟨⟨other, by simp [member], fails⟩, panicked⟩

/-- One element: its rows are stored, unless one of its streams cannot be built. -/
theorem importOne_cases (wf : ExportedWorkflow) (s : Inner) :
    ((∀ key ∈ streamKeys lib wf, (streamBuffer (streamRows lib wf key)).isSome = true) ∧
      importOne lib now wf s = (.returned,
        { s with
          workflows := s.workflows.puts (statusRows lib now [wf])
          steps := s.steps.puts (stepRows lib [wf])
          events := s.events.puts (eventRows lib [wf])
          streams := s.streams.puts (bufferRows lib wf) })) ∨
    ((∃ key ∈ streamKeys lib wf, streamBuffer (streamRows lib wf key) = none) ∧ (importOne lib now wf s).1 = .panicked) := by
  have steps : stepRows lib [wf] =
      (wf.operationOutputs.map (importedStep lib)).map fun row => ((importId wf, row.1), row.2) := by
    simp [stepRows, Function.comp_def]
  have events : s.events.puts (eventRows lib [wf]) = wf.workflowEvents.foldl (fun events c =>
      events.put (importId wf, (colStr c "key").getD "") ((parsed lib c "value").getD .null)) s.events := by
    simp only [eventRows, List.flatMap_cons, List.flatMap_nil, List.append_nil, Table.puts, List.foldl_map]
  have streams := importStreams_cases (importId wf) (wf.streams.map (importedEntry lib)) (streamKeys lib wf)
    { (s.putRow (importId wf) (mapToStatus lib now wf.workflowStatus)).putSteps (importId wf)
        (wf.operationOutputs.map (importedStep lib)) with
      events := s.events.puts (eventRows lib [wf]) }
  rw [steps]
  rw [putSteps_eq] at streams
  rcases streams with ⟨all, returned⟩ | ⟨fails, panicked⟩
  · refine .inl ⟨all, ?_⟩
    rw [importOne, putSteps_eq]
    rw [events] at returned ⊢
    exact returned
  · refine .inr ⟨fails, ?_⟩
    rw [importOne, putSteps_eq]
    rw [events] at panicked
    exact panicked

/-- The whole payload: all rows are stored, or one of the streams cannot be built. -/
theorem importAll_cases (wfs : List ExportedWorkflow) (s : Inner) :
    ((∀ wf ∈ wfs, ∀ key ∈ streamKeys lib wf, (streamBuffer (streamRows lib wf key)).isSome = true) ∧
      importAll lib now wfs s = (.returned,
        { s with
          workflows := s.workflows.puts (statusRows lib now wfs)
          steps := s.steps.puts (stepRows lib wfs)
          events := s.events.puts (eventRows lib wfs)
          streams := s.streams.puts (wfs.flatMap (bufferRows lib)) })) ∨
    ((∃ wf ∈ wfs, ∃ key ∈ streamKeys lib wf, streamBuffer (streamRows lib wf key) = none) ∧
      (importAll lib now wfs s).1 = .panicked) := by
  induction wfs generalizing s with
  | nil => exact .inl ⟨by simp, rfl⟩
  | cons wf wfs ih =>
    rw [importAll]
    rcases importOne_cases lib now wf s with ⟨all, one⟩ | ⟨⟨key, member, fails⟩, panicked⟩
    · rw [one]
      rcases ih { s with
          workflows := s.workflows.puts (statusRows lib now [wf])
          steps := s.steps.puts (stepRows lib [wf])
          events := s.events.puts (eventRows lib [wf])
          streams := s.streams.puts (bufferRows lib wf) } with ⟨rest, returned⟩ | ⟨⟨other, there, fails⟩, panicked⟩
      · refine .inl ⟨fun other member => ?_, ?_⟩
        · rcases List.mem_cons.mp member with rfl | member
          · exact all
          · exact rest other member
        · simp only [Table.puts_append] at returned
          simpa [statusRows, stepRows, eventRows] using returned
      · exact .inr ⟨⟨other, by simp [there], fails⟩, panicked⟩
    · refine .inr ⟨⟨wf, by simp, key, member, fails⟩, ?_⟩
      cases ended : importOne lib now wf s with
      | mk ending s' =>
        rw [ended] at panicked
        cases panicked
        rfl

/-- One new workflow for each element, with the element's rows, and all else as it was. -/
structure Imported (wfs : List ExportedWorkflow) (s after : Inner) : Prop where
  distinct : (wfs.map importId).Nodup
  fresh : ∀ wf ∈ wfs, s.workflows.get (importId wf) = none
  workflows : Table.Faithful s.workflows after.workflows (statusRows lib now wfs)
  steps : Table.Faithful s.steps after.steps (stepRows lib wfs)
  events : Table.Faithful s.events after.events (eventRows lib wfs)
  streams : ∀ wf ∈ wfs, ∀ key ∈ streamKeys lib wf,
    ∃ buffer, after.streams.get (importId wf, key) = some buffer ∧ Filled (streamRows lib wf key) buffer
  keptStreams : ∀ k buffer, s.streams.get k = some buffer → after.streams.get k = some buffer
  otherStreams : ∀ k, (∀ wf ∈ wfs, k.1 = importId wf → k.2 ∉ streamKeys lib wf) → after.streams.get k = s.streams.get k
  notifications : after.notifications = s.notifications
  versions : after.versions = s.versions

/-- The import fails and changes nothing, or returns having imported the payload. -/
def AllOrNothing (wfs : List ExportedWorkflow) (s : Inner) : Prop :=
  (∃ e, importWorkflow lib now wfs s = (.error e, s)) ∨
    ((importWorkflow lib now wfs s).1 = .ok .returned ∧ Imported lib now wfs s (importWorkflow lib now wfs s).2)

/-- Some element carries the id of a stored workflow. -/
def Refused (wfs : List ExportedWorkflow) (s : Inner) : Prop :=
  ∃ wf ∈ wfs, ∃ id, colStr wf.workflowStatus "workflow_uuid" = some id ∧ (s.workflows.get id).isSome = true

/-- The ids are distinct and new, rows for one key are one row, also with a row that an earlier
workflow of the id has left, and the entries of each stream are those of a stream that can be built. -/
structure Importable (wfs : List ExportedWorkflow) (s : Inner) : Prop where
  distinct : (wfs.map importId).Nodup
  fresh : ∀ wf ∈ wfs, s.workflows.get (importId wf) = none
  steps : Table.Agree s.steps (stepRows lib wfs)
  events : Table.Agree s.events (eventRows lib wfs)
  streams : ∀ wf ∈ wfs, ∀ key ∈ streamKeys lib wf, ∃ buffer, buffer.length ≤ MAX_STREAM_LEN ∧
    Filled (streamRows lib wf key) buffer ∧ ∀ left, s.streams.get (importId wf, key) = some left → left = buffer

variable {lib now} {wfs : List ExportedWorkflow} {s : Inner}

theorem statusRows_agree (distinct : (wfs.map importId).Nodup)
    (fresh : ∀ wf ∈ wfs, s.workflows.get (importId wf) = none) :
    Table.Agree s.workflows (statusRows lib now wfs) where
  alike row member other there same := by
    obtain ⟨wf, here, rfl⟩ := List.mem_map.mp member
    obtain ⟨wf', here', rfl⟩ := List.mem_map.mp there
    rw [List.inj_on_of_nodup_map distinct here here' same]
  stored row member v before := by
    obtain ⟨wf, here, rfl⟩ := List.mem_map.mp member
    rw [fresh wf here] at before
    cases before

theorem mem_bufferRows {wf : ExportedWorkflow} (member : wf ∈ wfs) {key : String} (present : key ∈ streamKeys lib wf) :
    ((importId wf, key), (streamBuffer (streamRows lib wf key)).getD []) ∈ wfs.flatMap (bufferRows lib) :=
  List.mem_flatMap.mpr ⟨wf, member, List.mem_map.mpr ⟨key, present, rfl⟩⟩

theorem bufferRows_alike (distinct : (wfs.map importId).Nodup) : ∀ row ∈ wfs.flatMap (bufferRows lib),
    ∀ other ∈ wfs.flatMap (bufferRows lib), row.1 = other.1 → row.2 = other.2 := by
  intro row member other there same
  obtain ⟨wf, here, member⟩ := List.mem_flatMap.mp member
  obtain ⟨key, -, rfl⟩ := List.mem_map.mp member
  obtain ⟨wf', here', member⟩ := List.mem_flatMap.mp there
  obtain ⟨key', -, rfl⟩ := List.mem_map.mp member
  obtain ⟨same_id, rfl⟩ := Prod.mk.injEq .. ▸ same
  rw [List.inj_on_of_nodup_map distinct here here' same_id]

/-- The state after all rows of the payload have been stored. -/
def importedState (lib : SerdeJson) (now : DateTime) (wfs : List ExportedWorkflow) (s : Inner) : Inner :=
  { s with
    workflows := s.workflows.puts (statusRows lib now wfs)
    steps := s.steps.puts (stepRows lib wfs)
    events := s.events.puts (eventRows lib wfs)
    streams := s.streams.puts (wfs.flatMap (bufferRows lib)) }

theorem importable_of_imported (all : ∀ wf ∈ wfs, ∀ key ∈ streamKeys lib wf, (streamBuffer (streamRows lib wf key)).isSome = true)
    (imported : Imported lib now wfs s (importedState lib now wfs s)) : Importable lib wfs s where
  distinct := imported.distinct
  fresh := imported.fresh
  steps := (Table.puts_faithful_iff _ _).mp imported.steps
  events := (Table.puts_faithful_iff _ _).mp imported.events
  streams wf member key present := by
    obtain ⟨built, here⟩ := Option.isSome_iff_exists.mp (all wf member key present)
    obtain ⟨buffer, stored, filled⟩ := imported.streams wf member key present
    have written : (s.streams.puts (wfs.flatMap (bufferRows lib))).get (importId wf, key) =
        some ((streamBuffer (streamRows lib wf key)).getD []) :=
      Table.get_puts (bufferRows_alike imported.distinct) (mem_bufferRows member present)
    have same : built = buffer := by
      rw [here] at written
      exact Option.some_inj.mp (written.symm.trans stored)
    refine ⟨buffer, same ▸ streamBuffer_length here, filled, fun left before => ?_⟩
    exact Option.some_inj.mp ((imported.keptStreams _ left before).symm.trans stored)

theorem imported_of_importable (importable : Importable lib wfs s) :
    Imported lib now wfs s (importedState lib now wfs s) := by
  have agree : Table.Agree s.streams (wfs.flatMap (bufferRows lib)) := by
    refine ⟨bufferRows_alike importable.distinct, fun row member left before => ?_⟩
    obtain ⟨wf, listed, made⟩ := List.mem_flatMap.mp member
    obtain ⟨key, present, rfl⟩ := List.mem_map.mp made
    obtain ⟨buffer, small, filled, leftover⟩ := importable.streams wf listed key present
    rw [leftover left before, streamBuffer_of_filled filled small]
    rfl
  have faithful := (Table.puts_faithful_iff _ _).mpr agree
  refine ⟨importable.distinct, importable.fresh,
    (Table.puts_faithful_iff _ _).mpr (statusRows_agree importable.distinct importable.fresh),
    (Table.puts_faithful_iff _ _).mpr importable.steps, (Table.puts_faithful_iff _ _).mpr importable.events,
    fun wf member key present => ?_, faithful.kept, fun k other => faithful.others k ?_, rfl, rfl⟩
  · obtain ⟨buffer, small, filled, -⟩ := importable.streams wf member key present
    have added := faithful.added _ (mem_bufferRows member present)
    rw [streamBuffer_of_filled filled small] at added
    exact ⟨buffer, added, filled⟩
  · rintro row member rfl
    obtain ⟨wf, listed, made⟩ := List.mem_flatMap.mp member
    obtain ⟨key, present, rfl⟩ := List.mem_map.mp made
    exact other wf listed rfl present

/-- Exactly when an import is all or nothing. -/
theorem import_all_or_nothing (lib : SerdeJson) (now : DateTime) (wfs : List ExportedWorkflow) (s : Inner) :
    AllOrNothing lib now wfs s ↔ Refused wfs s ∨ Importable lib wfs s := by
  cases check : wfs.findSome? fun wf => (colStr wf.workflowStatus "workflow_uuid").filter fun id =>
      (s.workflows.get id).isSome with
  | some id =>
    have refused : Refused wfs s := by
      obtain ⟨wf, member, found⟩ := List.exists_of_findSome?_eq_some check
      obtain ⟨named, stored⟩ := Option.filter_eq_some_iff.mp found
      exact ⟨wf, member, id, named, stored⟩
    refine ⟨fun _ => .inl refused, fun _ => .inl ⟨.ofMessage s!"workflow {id} already exists", ?_⟩⟩
    rw [importWorkflow, check]
  | none =>
    have accepted : ¬ Refused wfs s := by
      rintro ⟨wf, member, id, named, stored⟩
      have none := List.findSome?_eq_none_iff.mp check wf member
      rw [named, Option.filter_some, if_pos stored] at none
      cases none
    have imports : importWorkflow lib now wfs s = (.ok (importAll lib now wfs s).1, (importAll lib now wfs s).2) := by
      rw [importWorkflow, check]
    rw [or_iff_right accepted, AllOrNothing, imports]
    have no_error : ¬ ∃ e, ((.ok (importAll lib now wfs s).1, (importAll lib now wfs s).2) : Answer ImportEnd) = (.error e, s) := by
      rintro ⟨e, same⟩
      cases same
    rw [or_iff_right no_error]
    rcases importAll_cases lib now wfs s with ⟨all, returned⟩ | ⟨⟨wf, member, key, present, fails⟩, panicked⟩
    · rw [returned]
      exact ⟨fun ended => importable_of_imported all ended.2, fun importable => ⟨rfl, imported_of_importable importable⟩⟩
    · constructor
      · rintro ⟨ended, -⟩
        rw [panicked] at ended
        cases ended
      · intro importable
        obtain ⟨buffer, small, filled, -⟩ := importable.streams wf member key present
        rw [streamBuffer_of_filled filled small] at fails
        cases fails

end Payload

/-- A stream entry at the offset -1, which no vector holds. -/
def misplaced : ExportedWorkflow where
  workflowStatus := [("workflow_uuid", .string "w")]
  operationOutputs := []
  workflowEvents := []
  streams := [[("key", .string "k"), ("offset", .number (.negInt 0))]]

/-- The workflow is stored before its stream panics. -/
theorem misplaced_panics :
    ¬ AllOrNothing (.reading []) 0 [misplaced] Inner.new ∧
      (importWorkflow (.reading []) 0 [misplaced] Inner.new).1 = .ok .panicked ∧
      ((importWorkflow (.reading []) 0 [misplaced] Inner.new).2.workflows.get "w").isSome = true := by
  have panics : (importWorkflow (.reading []) 0 [misplaced] Inner.new).1 = .ok .panicked := rfl
  refine ⟨?_, panics, rfl⟩
  rintro (⟨e, refused⟩ | ⟨returned, -⟩)
  · rw [refused] at panics
    cases panics
  · rw [panics] at returned
    cases returned

end Memory

end Durare

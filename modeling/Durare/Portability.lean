import Durare.Reimport

/-! What every run leaves in a store that an export relies on, and the round trip of any such store. -/
namespace Durare.Memory

open Records

section Steps

variable {Q : StepRow → Prop} {s : Inner}

/-- Every stored step meets `Q`. -/
def StepRows (Q : StepRow → Prop) (s : Inner) : Prop := ∀ key r, s.steps.get key = some r → Q r

theorem StepRows.of_steps (all : StepRows Q s) {s' : Inner} (same : s'.steps = s.steps) : StepRows Q s' := by
  intro key r stored
  rw [same] at stored
  exact all key r stored

theorem StepRows.put (all : StepRows Q s) {s' : Inner} {place : String × Int} {row : StepRow}
    (added : s'.steps = s.steps.put place row) (here : Q row) : StepRows Q s' := by
  intro key r stored
  rw [added, Table.get_put] at stored
  split at stored
  · cases stored
    exact here
  · exact all key r stored

theorem StepRows.putSteps (all : StepRows Q s) (id : String) (rows : List (Int × StepRow))
    (each : ∀ row ∈ rows, Q row.2) :
    StepRows Q (s.putSteps id rows) := by
  induction rows generalizing s with
  | nil => exact all
  | cons row rows ih =>
    have first : StepRows Q (s.putStep id row.1 row.2) := all.put rfl (each row List.mem_cons_self)
    exact ih first fun other member => each other (List.mem_cons_of_mem _ member)

theorem StepRows.insertStep (all : StepRows Q s) (id : String) (seq : Int) {row : StepRow} (here : Q row) :
    StepRows Q (s.insertStep id seq row) := by
  unfold Inner.insertStep
  split
  · exact all
  · exact all.put rfl here

theorem importAll_stepRows (lib : SerdeJson) (now : DateTime) (wfs : List ExportedWorkflow) (all : StepRows Q s)
    (each : ∀ wf ∈ wfs, ∀ columns ∈ wf.operationOutputs, Q (importedStep lib columns).2) :
    StepRows Q (importAll lib now wfs s).2 := by
  induction wfs generalizing s with
  | nil => exact all
  | cons wf wfs ih =>
    have one : StepRows Q (importOne lib now wf s).2 := by
      refine (all.putSteps (importId wf) (wf.operationOutputs.map (importedStep lib)) fun row member => ?_).of_steps
        (importOne_frame lib now wf s).2.1
      obtain ⟨columns, listed, rfl⟩ := List.mem_map.mp member
      exact each wf List.mem_cons_self columns listed
    rw [importAll]
    split
    next ending => rw [ending] at one; exact one
    next s' ending =>
      rw [ending] at one
      exact ih one fun other member => each other (List.mem_cons_of_mem _ member)

theorem insertChildWorkflow_stepRows (plain : ∀ r : StepRow, r.error = none → Q r) (all : StepRows Q s)
    (child : WorkflowStatus) (parent : String) (seq : Int) (returnExisting : Bool) :
    StepRows Q (insertChildWorkflow child parent seq returnExisting s).2 := by
  unfold insertChildWorkflow
  split
  · split
    · split <;> exact all
    · exact all
  · dsimp only
    split
    · exact all
    split
    · exact all
    split
    · exact all
    split
    · exact all
    · split <;> exact all.put rfl (plain _ rfl)

/-- A call without a position that replaces no history leaves the steps. -/
theorem step_steps_eq {lib : SerdeJson} {now : DateTime} {call : Call} (unplaced : call.position = none)
    (none : call.histories s = []) (notDelete : ∀ ids children, call ≠ .deleteWorkflows ids children) :
    (step lib s (now, call)).steps = s.steps := by
  have frame := step_checkpointed lib now call s none notDelete
  generalize (step lib s (now, call)).steps = steps at frame ⊢
  cases frame with
  | same => rfl
  | recorded key row here vacant =>
    rw [unplaced] at here
    cases here

/-- A property that every step without an error has is kept by a call that keeps it for the error it records
and for the steps it imports. -/
theorem step_stepRows (plain : ∀ r : StepRow, r.error = none → Q r) {lib : SerdeJson} {now : DateTime} {call : Call}
    (all : StepRows Q s)
    (recorded : ∀ id seq name value error startedAtMs executor,
      call = .recordStepResult id seq name value error startedAtMs executor →
        Q (checkpointRow now name value error startedAtMs))
    (imported : ∀ wfs, call = .importWorkflow wfs →
      ∀ wf ∈ wfs, ∀ columns ∈ wf.operationOutputs, Q (importedStep lib columns).2) :
    StepRows Q (step lib s (now, call)) := by
  by_cases quiet : call.position = none ∧ call.histories s = [] ∧ ∀ ids children, call ≠ .deleteWorkflows ids children
  · exact all.of_steps (step_steps_eq quiet.1 quiet.2.1 quiet.2.2)
  cases call with
  | recordStepResult id seq name value error startedAtMs executor =>
    have row := recorded id seq name value error startedAtMs executor rfl
    simp only [step, exec, recordStepResult]
    split
    · split
      · exact all
      · split <;> exact all
    · exact all.put (refreshExecutor_steps ..) row
  | sendFromWorkflow id seq name rows =>
    have frame := pushNotifications_steps now rows s
    simp only [step, exec, sendFromWorkflow]
    split
    · exact all
    · exact all
    · split
      next pushed => rw [pushed] at frame; exact all.of_steps frame
      next s' pushed =>
        rw [pushed] at frame
        exact (all.of_steps frame).put rfl (plain _ rfl)
  | consumeNotification id topic seq name =>
    simp only [step, exec, consumeNotification]
    split
    · exact all
    · exact all
    · split
      · exact all
      · exact all.put rfl (plain _ rfl)
  | writeStreamFromWorkflow id seq name key value =>
    have frame := (appendStream_fields id key value s).2.1
    simp only [step, exec, writeStreamFromWorkflow]
    split
    · exact all
    · exact all
    · split
      next pushed => rw [pushed] at frame; exact all.of_steps frame
      next s' pushed =>
        rw [pushed] at frame
        exact (all.of_steps frame).put rfl (plain _ rfl)
  | recordPatch id seq name => exact all.insertStep id seq (plain _ rfl)
  | recordChildWorkflow parent seq name child => exact all.insertStep parent seq (plain _ rfl)
  | insertChildWorkflow child parent seq returnExisting =>
    exact insertChildWorkflow_stepRows plain all child parent seq returnExisting
  | deleteWorkflows ids deleteChildren =>
    intro key r stored
    simp only [step, exec, deleteWorkflows, deleteTargets, Table.get_retain, Option.filter_eq_some_iff] at stored
    exact all key r stored.1
  | forkWorkflowWithTimeout params timeoutMs =>
    simp only [step, exec, forkWorkflowWithTimeout]
    split
    · exact all
    split
    · exact all
    · refine StepRows.putSteps (s := s.putRow _ _) (all.of_steps rfl) _ _ fun row member => ?_
      obtain ⟨⟨key, r⟩, listed, kept⟩ := List.mem_filterMap.mp member
      split at kept
      · cases kept
        exact all key r ((Table.mem_toList ..).mp listed)
      · cases kept
  | importWorkflow wfs =>
    simp only [step, exec, importWorkflow]
    split
    · exact all
    · exact importAll_stepRows lib now wfs all (imported wfs rfl)
  | _ => exact absurd ⟨rfl, rfl, by simp⟩ quiet

end Steps

section Streams

variable {s : Inner}

/-- No stream is empty: a stream begins with its first entry. -/
def Begun (s : Inner) : Prop := ∀ key, s.streams.get key ≠ some []

theorem streamBuffer_begun {rows : List (Nat × Option Value)} {buffer : List (Option Value)}
    (built : streamBuffer rows = some buffer) (some_row : rows ≠ []) : buffer ≠ [] := by
  obtain ⟨row, member⟩ := List.exists_mem_of_ne_nil rows some_row
  have long := (le_foldl_max rows 0).2 row member
  unfold streamBuffer at built
  simp only at built
  split at built
  · cases built
  · cases built
    intro empty
    have length := congrArg List.length empty
    rw [length_foldl_set, List.length_replicate, List.length_nil] at length
    omega

theorem importStreams_begun (id : String) {rows : List (String × Nat × Option Value)} {keys : List String}
    (each : ∀ key ∈ keys, key ∈ rows.map (·.1)) (begun : Begun s) : Begun (importStreams id rows keys s).2 := by
  induction keys generalizing s with
  | nil => exact begun
  | cons key keys ih =>
    rw [importStreams]
    split
    · exact begun
    next buffer built =>
      refine ih (fun other member => each other (List.mem_cons_of_mem _ member)) fun place => ?_
      rw [Table.get_put]
      split
      · intro empty
        obtain ⟨row, member, named⟩ := List.mem_map.mp (each key List.mem_cons_self)
        refine streamBuffer_begun built (List.ne_nil_of_mem (a := row.2) ?_) (Option.some_inj.mp empty)
        exact List.mem_filterMap.mpr ⟨row, member, if_pos named⟩
      · exact begun place

theorem importAll_begun (lib : SerdeJson) (now : DateTime) (wfs : List ExportedWorkflow) (begun : Begun s) :
    Begun (importAll lib now wfs s).2 := by
  induction wfs generalizing s with
  | nil => exact begun
  | cons wf wfs ih =>
    have one : Begun (importOne lib now wf s).2 := by
      unfold importOne
      refine importStreams_begun _ (fun key member => List.mem_dedup.mp member) ?_
      intro key
      rw [putSteps_eq]
      exact begun key
    rw [importAll]
    split
    next ending => rw [ending] at one; exact one
    next s' ending => rw [ending] at one; exact ih one

theorem step_begun (lib : SerdeJson) (now : DateTime) (call : Call) (begun : Begun s) :
    Begun (step lib s (now, call)) := by
  rintro ⟨id, key⟩ empty
  by_cases history : id ∈ call.histories s
  · by_cases imports : ∃ wfs, call = .importWorkflow wfs
    · obtain ⟨wfs, rfl⟩ := imports
      simp only [step, exec, importWorkflow] at empty
      split at empty
      · exact begun _ empty
      · exact importAll_begun lib now wfs begun _ empty
    · rcases step_stream_removed lib now call s id key history fun wfs same => imports ⟨wfs, same⟩ with same | gone
      · rw [same] at empty
        exact begun _ empty
      · rw [gone] at empty
        cases empty
  · rcases step_stream lib now call s id key history with same | ⟨-, entry, appended⟩
    · rw [same] at empty
      exact begun _ empty
    · rw [appended] at empty
      simp at empty

end Streams

section Errors

variable {lib : SerdeJson} {s : Inner}

theorem Settled.of_none {row : WorkflowStatus} (none : row.error = none) : Settled lib row := by
  intro message failed
  rw [none] at failed
  cases failed

theorem Settled.of_same {row old : WorkflowStatus} (settled : Settled lib old) (error : row.error = old.error)
    (info : row.errorInfo = old.errorInfo) : Settled lib row := by
  intro message failed
  rw [info]
  exact settled message (error ▸ failed)

theorem writeStatus_settled (exactly : lib.Exact) (now : DateTime) (status : Status) (output : Option Value)
    (error : Option String) {row : WorkflowStatus} (settled : Settled lib row) :
    Settled lib (writeStatus lib now status output error row) := by
  cases error with
  | none =>
    refine settled.of_same ?_ ?_
    all_goals
      unfold writeStatus
      cases output <;> (dsimp only; split <;> rfl)
  | some text =>
    have decoded : (writeStatus lib now status output (some text) row).error = some (decodeError lib none text).1 ∧
        (writeStatus lib now status output (some text) row).errorInfo = (decodeError lib none text).2 := by
      unfold writeStatus
      cases output <;> (dsimp only; split <;> exact ⟨rfl, rfl⟩)
    intro message failed
    rw [decoded.1] at failed
    cases failed
    rw [decoded.2]
    exact survives exactly none text

theorem mapToStatus_settled (exactly : lib.Exact) (now : DateTime) (columns : Columns) :
    Settled lib (mapToStatus lib now columns) := by
  intro message failed
  cases stored : colStr columns "error" with
  | none => simp [mapToStatus, stored] at failed
  | some text =>
    simp only [mapToStatus, stored, Option.map_some, Option.some.injEq] at failed
    simp only [mapToStatus, stored, Option.map_some, Option.bind_some, ← failed]
    exact survives exactly (colStr columns "serialization") text

theorem importedStep_canonical (exactly : lib.Exact) (columns : Columns) :
    Canonical lib (importedStep lib columns).2 := by
  intro text failed
  cases stored : colStr columns "error" with
  | none => simp [importedStep, stored] at failed
  | some kept =>
    simp only [importedStep, stored, Option.map_some, Option.some.injEq] at failed
    rw [← failed]
    exact (survives exactly (colStr columns "serialization") kept).same

/-- The text of an error that the engine encodes is what it is imported as. -/
theorem encoded_canonical (exactly : lib.Exact) {error : Error} {text : String}
    (encoded : encodeError lib .json error = .ok text) :
    recoded lib (decodeError lib none text) = text := by
  by_cases interrupted : error.Interruption
  · obtain ⟨refusal, refused⟩ := encodeError_interruption lib .json interrupted
    rw [refused] at encoded
    cases encoded
  rw [encodeError_eq lib .json interrupted] at encoded
  cases encoded
  by_cases short : plain .json error = true
  · rw [if_pos short]
    cases error with
    | app message source =>
      have free : stripMarker message = none := Option.isNone_iff_eq_none.mp short
      have text : plainText lib .json (.app message source) = message := rfl
      rw [text]
      simp [decodeError, free, recoded, encodeStoredError]
    | _ => simp [plain, Serializer.isPortable] at short
  · have text : recordText lib .json error = RECORD_MARKER ++ lib.envelopeToString (recordEnvelope lib error) := rfl
    rw [if_neg short, text, decode_marked exactly none (recordEnvelope_read lib error) rfl, recoded_record rfl]

end Errors

section Stores

variable {lib : SerdeJson}

/-- What the callers of the provider keep to: a new workflow has no error yet, and the failure of a step is
an encoded error. -/
def Promised (lib : SerdeJson) (_ : Inner) (event : DateTime × Call) : Prop :=
  match event.2 with
  | .insertWorkflowStatus row | .insertChildWorkflow row _ _ _ => row.error = none
  | .recordStepResult _ _ _ _ error _ _ => ∀ text, error = some text → ∃ e, encodeError lib .json e = .ok text
  | _ => True

theorem step_settled (exactly : lib.Exact) {s : Inner} {event : DateTime × Call} (promised : Promised lib s event)
    (settled : Rows (Settled lib) s) : Rows (Settled lib) (step lib s event) := by
  obtain ⟨now, call⟩ := event
  refine step_rows settled ?_ (fun params timeoutMs _ original _ => .of_none rfl) fun wfs _ _ wf _ => mapToStatus_settled exactly now _
  intro id old new here was move
  cases move with
  | same => exact was new rfl
  | inserted row own | child row parent seq returnExisting own => exact .of_none promised
  | written row status output error allowed => exact writeStatus_settled exactly now status output error (was row rfl)
  | cancelled row ids options member =>
    refine (was row rfl).of_same ?_ ?_
    all_goals
      unfold cancelRow
      split <;> rfl
  | recovered row req own pending executor attempts =>
    refine (was row rfl).of_same ?_ ?_
    all_goals
      unfold recoveredRow
      dsimp only
      split
      · rfl
      · split <;> rfl
  | _ => exact (was _ rfl).of_same rfl rfl

theorem step_canonical (exactly : lib.Exact) {s : Inner} {event : DateTime × Call} (promised : Promised lib s event)
    (canonical : StepRows (Canonical lib) s) : StepRows (Canonical lib) (step lib s event) := by
  obtain ⟨now, call⟩ := event
  refine step_stepRows (fun r none text failed => ?_) canonical ?_ fun wfs _ wf _ columns _ => importedStep_canonical exactly columns
  · rw [none] at failed
    cases failed
  · rintro id seq name value error startedAtMs executor rfl text failed
    obtain ⟨e, encoded⟩ := promised text failed
    exact encoded_canonical exactly encoded

theorem step_sound (exactly : lib.Exact) {s : Inner} {event : DateTime × Call} (promised : Promised lib s event)
    (sound : Sound lib s) : Sound lib (step lib s event) where
  keyed := step_keyed lib s event sound.keyed
  settled := step_settled exactly promised sound.settled
  canonical := step_canonical exactly promised sound.canonical
  begun := step_begun lib event.1 event.2 sound.begun

theorem run_sound (exactly : lib.Exact) {events : List (DateTime × Call)}
    (promised : Runs.Along (step lib) (Promised lib) events Inner.new) : Sound lib (run lib events Inner.new) := by
  refine Runs.invariant (fun s event => step_sound exactly) promised ⟨?_, ?_, ?_, ?_⟩
  · intro id row stored
    cases stored
  · intro id row stored
    cases stored
  · intro key r stored
    cases stored
  · intro key stored
    cases stored

/-- The row of an imported workflow: whole milliseconds, no attributes, no mark of a rate limit, and the
error that the old one restores to. -/
structure SameRow (lib : SerdeJson) (w w' : WorkflowStatus) : Prop where
  columns : w' =
    { w with
      createdAt := w.createdAt.truncated
      updatedAt := w.updatedAt.truncated
      attributes := none
      rateLimited := false
      error := w'.error
      errorInfo := w'.errorInfo }
  error : restoredError lib w' = restoredError lib w

structure SameWorkflow (lib : SerdeJson) (s t : Inner) (id : String) : Prop where
  row : ∃ w w', s.workflows.get id = some w ∧ t.workflows.get id = some w' ∧ SameRow lib w w'
  steps : ∀ seq, t.steps.get (id, seq) = s.steps.get (id, seq)
  events : ∀ key, t.events.get (id, key) = s.events.get (id, key)
  streams : ∀ key, t.streams.get (id, key) = s.streams.get (id, key)

/-- What an export lists is imported into an empty store, all of it, and is listed from there once more. -/
def Restores (lib : SerdeJson) (now : DateTime) (s : Inner) (fuel : Nat) (id : String) (exportChildren : Bool)
    (wfs : List ExportedWorkflow) : Prop :=
  ∃ t, importWorkflow lib now wfs Inner.new = (.ok .returned, t) ∧
    (∀ other, other = id ∨ (exportChildren = true ∧ Descent.Below (childIds s) other id) → SameWorkflow lib s t other) ∧
    ∃ again, exportWorkflow lib t fuel id exportChildren = some (.ok again, t) ∧ again.map unforked = wfs.map unforked

theorem export_restores (exactly : lib.Exact) {s : Inner} (sound : Sound lib s) (inRange : InRange s) (now : DateTime)
    {fuel : Nat}
    {id : String} {exportChildren : Bool} {wfs : List ExportedWorkflow} {left : Inner}
    (exports : exportWorkflow lib s fuel id exportChildren = some (.ok wfs, left)) :
    Restores lib now s fuel id exportChildren wfs := by
  rw [exportWorkflow, Option.map_eq_some_iff] at exports
  obtain ⟨ids, ends, listed⟩ := exports
  obtain ⟨done, rfl⟩ := Prod.mk.injEq .. ▸ listed
  have stored := exportAll_stored done
  rw [exportAll_eq stored] at done
  cases done
  obtain ⟨distinct, members⟩ := exportIds_listed sound.keyed ends
  obtain ⟨t, imports, restored⟩ := import_exported stored exactly inRange sound distinct now
  refine ⟨t, imports, fun other member => ?_, ?_⟩
  · have member := (members other).mpr member
    obtain ⟨w, here⟩ := Option.isSome_iff_exists.mp (stored other member)
    refine ⟨⟨w, restoredRow lib w, here, ?_, rfl, restoredRow_error lib (sound.settled other w here)⟩, fun seq => ?_,
      fun key => ?_, fun key => ?_⟩
    · rw [restored.row other member, here, Option.map_some]
    · exact restored.steps (other, seq) member
    · exact restored.events (other, key) member
    · exact restored.streams (other, key) member
  · obtain ⟨again, repeats, same⟩ := restored.export_again sound stored
    refine ⟨again, ?_, same⟩
    rw [exportWorkflow, restored.exportIds_eq sound.keyed ends, Option.map_some, repeats]

/-- An export without parent cycles ends, and lists a workflow that is stored. -/
theorem export_ends {s : Inner} (keyed : Keyed s) (acyclic : ∀ x, ¬ Descent.Below (childIds s) x x) (id : String)
    (exportChildren : Bool) : ∃ fuel ids, exportIds s fuel id exportChildren = some ids := by
  cases exportChildren with
  | false => exact ⟨0, [id], rfl⟩
  | true =>
    have acc := Descent.acc_of_acyclic (childIds_finite keyed) acyclic id
    obtain ⟨fuel, below, ends, -⟩ := Descent.walk_ends acc
    exact ⟨fuel, _, ends⟩

theorem export_stored {s : Inner} (keyed : Keyed s) {fuel : Nat} {id : String} {exportChildren : Bool}
    {ids : List String}
    (ends : exportIds s fuel id exportChildren = some ids) (stored : (s.workflows.get id).isSome) :
    ∀ other ∈ ids, (s.workflows.get other).isSome := by
  intro other member
  rcases ((exportIds_listed keyed ends).2 other).mp member with rfl | ⟨-, below⟩
  · exact stored
  · obtain ⟨parent, child, -⟩ := Relation.TransGen.head'_iff.mp below
    obtain ⟨w, here, -⟩ := (mem_childIds keyed).mp child
    rw [here]
    rfl

/-- Of every run's store without a parent cycle, every workflow survives its export, with or without its
children; one that is not there is refused. -/
theorem workflows_survive (exactly : lib.Exact) (events : List (DateTime × Call))
    (promised : Runs.Along (step lib) (Promised lib) events Inner.new) (inRange : InRange (run lib events Inner.new))
    (acyclic : ∀ x, ¬ Descent.Below (childIds (run lib events Inner.new)) x x) (now : DateTime) (id : String)
    (exportChildren : Bool) : let s := run lib events Inner.new
    (∃ fuel, (exportWorkflow lib s fuel id exportChildren).isSome) ∧
      ∀ fuel answer, exportWorkflow lib s fuel id exportChildren = some answer →
        (s.workflows.get id = none ∧ answer = (.error (.nonExistentWorkflow id), s)) ∨
        ((s.workflows.get id).isSome ∧ ∃ wfs, answer = (.ok wfs, s) ∧ Restores lib now s fuel id exportChildren wfs) := by
  intro s
  have sound : Sound lib s := run_sound exactly promised
  obtain ⟨fuel, ids, ends⟩ := export_ends sound.keyed acyclic id exportChildren
  refine ⟨⟨fuel, ?_⟩, fun fuel answer exports => ?_⟩
  · rw [exportWorkflow, ends]
    rfl
  · have exports' := exports
    rw [exportWorkflow, Option.map_eq_some_iff] at exports'
    obtain ⟨ids, ends, rfl⟩ := exports'
    cases here : s.workflows.get id with
    | none =>
      have first : ∃ rest, ids = id :: rest := by
        cases exportChildren with
        | false => exact ⟨[], (Option.some_inj.mp ends).symm⟩
        | true =>
          obtain ⟨spent, below, rfl, -⟩ := Descent.walk_listed ends
          exact ⟨below, rfl⟩
      obtain ⟨rest, rfl⟩ := first
      refine .inl ⟨rfl, ?_⟩
      rw [exportAll, here]
    | some w =>
      have stored := export_stored sound.keyed ends (by rw [here]; rfl)
      rw [exportAll_eq stored] at exports ⊢
      exact .inr ⟨rfl, _, rfl, export_restores exactly sound inRange now exports⟩

end Stores

def shipment : WorkflowStatus :=
  { WorkflowStatus.new 3000123 "c" "ship" .null .pending "e" "v" with parentWorkflowId := some "p" }

/-- A workflow with a failed step, an event and a closed stream, and its child, which fails. -/
def shipped : List (DateTime × Call) :=
  [(1000123, .insertWorkflowStatus (WorkflowStatus.new 1000123 "p" "order" .null .pending "e" "v")),
    (2000123, .recordStepResult "p" 0 "charge" .null (some (RECORD_MARKER ++ printValue timeoutEnvelope.toValue))
      (some 1) none),
    (3000123, .insertChildWorkflow shipment "p" 1 false),
    (4000123, .upsertEvent "p" "progress" (.bool true)),
    (5000123, .writeStream "p" "out" (some .null)),
    (6000123, .writeStream "p" "out" none),
    (7000123, .setWorkflowStatus "c" .error none (some "boom"))]

theorem timeoutLibrary_exact : timeoutLibrary.Exact := by
  refine SerdeJson.printing_exact timeoutLibrary_lawful fun v member => ?_
  have apart : ∀ v ∈ ([.null, timeoutEnvelope.toValue] : List Value), (printValue v).toList.head? ≠ some '_' := by
    intro v member
    rcases List.mem_cons.mp member with rfl | object
    · simp [printValue]
    · rw [List.mem_singleton.mp object]
      simp [PortableWorkflowError.toValue, printValue]
  intro same
  refine apart v member ?_
  rw [same]
  decide

theorem shipped_promised : Runs.Along (step timeoutLibrary) (Promised timeoutLibrary) shipped Inner.new := by
  refine ⟨rfl, ?_, rfl, trivial, trivial, trivial, trivial, trivial⟩
  intro text failed
  cases failed
  exact ⟨.timeout, rfl⟩

theorem shipped_rows : (run timeoutLibrary shipped Inner.new).workflows.toList =
    [("c", { shipment with status := .error, error := some "boom", completedAtMs := some 7, updatedAt := 7000123 }),
      ("p", WorkflowStatus.new 1000123 "p" "order" .null .pending "e" "v")] := rfl

theorem shipped_steps : (run timeoutLibrary shipped Inner.new).steps.toList =
    [(("p", 1), { name := "ship", childWorkflowId := some "c" }),
      (("p", 0),
        { name := "charge"
          error := some (RECORD_MARKER ++ printValue timeoutEnvelope.toValue)
          startedAtMs := some 1
          completedAtMs := some 2 })] := rfl

theorem shipped_streams :
    (run timeoutLibrary shipped Inner.new).streams.toList = [(("p", "out"), [some .null, none])] := rfl

theorem shipped_inRange : InRange (run timeoutLibrary shipped Inner.new) where
  rows id row stored := by
    have member := (Table.mem_toList _ _ _).mpr stored
    rw [shipped_rows] at member
    simp only [List.mem_cons, Prod.mk.injEq, List.not_mem_nil, or_false] at member
    rcases member with ⟨-, rfl⟩ | ⟨-, rfl⟩
    · constructor <;> first | rfl | decide
    · constructor <;> first | rfl | decide
  steps key r stored := by
    have member := (Table.mem_toList _ _ _).mpr stored
    rw [shipped_steps] at member
    simp only [List.mem_cons, Prod.mk.injEq, List.not_mem_nil, or_false] at member
    rcases member with ⟨rfl, rfl⟩ | ⟨rfl, rfl⟩
    · constructor <;> decide
    · constructor <;> decide
  streams key buffer stored := by
    have member := (Table.mem_toList _ _ _).mpr stored
    rw [shipped_streams] at member
    simp only [List.mem_cons, Prod.mk.injEq, List.not_mem_nil, or_false] at member
    obtain ⟨-, rfl⟩ := member
    decide

theorem shipped_child {child parent : String}
    (link : Descent.Child (childIds (run timeoutLibrary shipped Inner.new)) child parent) : child = "c" ∧ parent = "p" := by
  obtain ⟨w, stored, under⟩ := (mem_childIds (run_sound timeoutLibrary_exact shipped_promised).keyed).mp link
  have member := (Table.mem_toList _ _ _).mpr stored
  rw [shipped_rows] at member
  simp only [List.mem_cons, Prod.mk.injEq, List.not_mem_nil, or_false] at member
  rcases member with ⟨rfl, rfl⟩ | ⟨rfl, rfl⟩
  · exact ⟨rfl, (Option.some_inj.mp under).symm⟩
  · cases under

theorem shipped_acyclic (x : String) : ¬ Descent.Below (childIds (run timeoutLibrary shipped Inner.new)) x x := by
  have links : ∀ {x y}, Descent.Below (childIds (run timeoutLibrary shipped Inner.new)) x y → x = "c" ∧ y = "p" := by
    intro x y below
    induction below with
    | single link => exact shipped_child link
    | tail _ link ih =>
      obtain ⟨again, -⟩ := shipped_child link
      exact absurd (ih.2.symm.trans again) (by decide)
  intro cycle
  obtain ⟨here, there⟩ := links cycle
  exact absurd (here.symm.trans there) (by decide)

/-- The two survive their export, with the failure of its step and the close of its stream. -/
theorem shipped_survives : let s := run timeoutLibrary shipped Inner.new
    Descent.Below (childIds s) "c" "p" ∧ s.streams.get ("p", "out") = some [some .null, none] ∧
      ∃ wfs, exportWorkflow timeoutLibrary s 3 "p" true = some (.ok wfs, s) ∧ Restores timeoutLibrary 0 s 3 "p" true wfs := by
  intro s
  have listed : (exportWorkflow timeoutLibrary s 3 "p" true).isSome := rfl
  have stored : (s.workflows.get "p").isSome := rfl
  refine ⟨.single (List.mem_singleton.mpr rfl), rfl, ?_⟩
  obtain ⟨answer, exports⟩ := Option.isSome_iff_exists.mp listed
  rcases (workflows_survive timeoutLibrary_exact shipped shipped_promised shipped_inRange shipped_acyclic 0 "p" true).2 3 answer
    exports with ⟨missing, -⟩ | ⟨-, wfs, same, restores⟩
  · rw [missing] at stored
    cases stored
  · exact ⟨wfs, by rw [exports, same], restores⟩

end Durare.Memory

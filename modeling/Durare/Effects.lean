import Durare.Calls

/-! What one call can do to the tables: which step rows it writes, and which histories it
replaces or removes. -/
namespace Durare.Memory

section Fields

variable (s : Inner) (id : String) (seq : Int) (row : WorkflowStatus) (entry : StepRow)

@[simp] theorem putRow_workflows : (s.putRow id row).workflows = s.workflows.put id row := rfl
@[simp] theorem putRow_steps : (s.putRow id row).steps = s.steps := rfl
@[simp] theorem putRow_notifications : (s.putRow id row).notifications = s.notifications := rfl
@[simp] theorem putStep_workflows : (s.putStep id seq entry).workflows = s.workflows := rfl
@[simp] theorem putStep_steps : (s.putStep id seq entry).steps = s.steps.put (id, seq) entry := rfl
@[simp] theorem putStep_notifications : (s.putStep id seq entry).notifications = s.notifications := rfl

@[simp] theorem refreshExecutor_steps (executor : Option String) :
    (refreshExecutor id executor s).steps = s.steps := by cases executor <;> rfl

@[simp] theorem refreshExecutor_notifications (executor : Option String) :
    (refreshExecutor id executor s).notifications = s.notifications := by cases executor <;> rfl

theorem putSteps_eq (rows : List (Int × StepRow)) :
    s.putSteps id rows = { s with steps :=
      (rows.map fun r => ((id, r.1), r.2)).foldl (fun t r => t.put r.1 r.2) s.steps } := by
  induction rows generalizing s with
  | nil => rfl
  | cons r rows ih =>
    rw [Inner.putSteps, List.foldl_cons, ← Inner.putSteps, ih]
    rfl

@[simp] theorem putSteps_workflows (rows : List (Int × StepRow)) :
    (s.putSteps id rows).workflows = s.workflows := by rw [putSteps_eq]

@[simp] theorem putSteps_notifications (rows : List (Int × StepRow)) :
    (s.putSteps id rows).notifications = s.notifications := by rw [putSteps_eq]

end Fields

def Call.position : Call → Option (String × Int)
  | .recordStepResult id seq _ _ _ _ _ => some (id, seq)
  | .sendFromWorkflow id seq _ _ => some (id, seq)
  | .consumeNotification id _ seq _ => some (id, seq)
  | .insertChildWorkflow _ parent seq _ => some (parent, seq)
  | .recordChildWorkflow parent seq _ _ => some (parent, seq)
  | .recordPatch id seq _ => some (id, seq)
  | .writeStreamFromWorkflow id seq _ _ _ => some (id, seq)
  | _ => none

def importedIds (wfs : List ExportedWorkflow) : List String :=
  wfs.map fun wf => (colStr wf.workflowStatus "workflow_uuid").getD ""

/-- An import that brings a stored id. -/
def importRefused (s : Inner) (wfs : List ExportedWorkflow) : Bool :=
  wfs.any fun wf => (colStr wf.workflowStatus "workflow_uuid").any fun id => (s.workflows.get id).isSome

/-- The ids whose whole history a call may remove or write. -/
def Call.histories (s : Inner) : Call → List String
  | .deleteWorkflows ids deleteChildren => if deleteChildren then targetsWithChildren ids s else ids
  | .forkWorkflowWithTimeout params _ => [params.newId]
  | .importWorkflow wfs => importedIds wfs
  | _ => []

/-- A table of steps after one checkpoint: unchanged, or one new row where there was none. -/
inductive Checkpointed (position : Option (String × Int)) (steps : Table (String × Int) StepRow) :
    Table (String × Int) StepRow → Prop where
  | same : Checkpointed position steps steps
  | recorded (key : String × Int) (row : StepRow) (here : position = some key)
      (vacant : steps.get key = none) : Checkpointed position steps (steps.put key row)

theorem recordStepResult_checkpointed (lib : SerdeJson) (now : DateTime) (id : String) (seq : Int)
    (name : String) (value : Value) (error : Option String) (startedAtMs : Option Int)
    (executor : Option String) (s : Inner) :
    Checkpointed (some (id, seq)) s.steps
      (recordStepResult lib now id seq name value error startedAtMs executor s).2.steps := by
  unfold recordStepResult
  cases present : s.steps.get (id, seq) with
  | some row =>
    dsimp only
    split
    · exact .same
    · split <;> exact .same
  | none =>
    simp only [refreshExecutor_steps, putStep_steps]
    exact .recorded _ _ rfl present

theorem recordedAt_eq (id : String) (seq : Int) (name : String) (s : Inner) :
    (∃ row, s.steps.get (id, seq) = some row ∧ row.name ≠ name ∧
      recordedAt id seq name s = .error (.unexpectedStep id seq name row.name)) ∨
    (∃ row, s.steps.get (id, seq) = some row ∧ row.name = name ∧ recordedAt id seq name s = .ok (some row)) ∨
    (s.steps.get (id, seq) = none ∧ recordedAt id seq name s = .ok none) := by
  unfold recordedAt
  cases present : s.steps.get (id, seq) with
  | none => simp
  | some row => by_cases same : row.name = name <;> simp [same]

theorem pushNotifications_workflows (now : DateTime) (rows : List (NotificationInsert × String)) (s : Inner) :
    (pushNotifications now rows s).2.workflows = s.workflows := by
  unfold pushNotifications; split <;> rfl

theorem pushNotifications_steps (now : DateTime) (rows : List (NotificationInsert × String)) (s : Inner) :
    (pushNotifications now rows s).2.steps = s.steps := by
  unfold pushNotifications; split <;> rfl

theorem appendStream_fields (id key : String) (value : Option Value) (s : Inner) :
    (appendStream id key value s).2.workflows = s.workflows ∧
      (appendStream id key value s).2.steps = s.steps ∧
      (appendStream id key value s).2.notifications = s.notifications := by
  unfold appendStream; dsimp only; split <;> simp

theorem sendFromWorkflow_checkpointed (now : DateTime) (id : String) (seq : Int) (name : String)
    (rows : List (NotificationInsert × String)) (s : Inner) :
    Checkpointed (some (id, seq)) s.steps (sendFromWorkflow now id seq name rows s).2.steps := by
  unfold sendFromWorkflow
  obtain ⟨row, -, -, found⟩ | ⟨row, -, -, found⟩ | ⟨vacant, found⟩ := recordedAt_eq id seq name s
  · rw [found]; exact .same
  · rw [found]; exact .same
  · have frame := pushNotifications_steps now rows s
    rw [found]
    dsimp only
    split
    next pushed => rw [pushed] at frame; rw [← frame]; exact .same
    next pushed =>
      rw [pushed] at frame
      simp only [checkpoint, putStep_steps]
      rw [frame]
      exact .recorded _ _ rfl vacant

theorem consumeNotification_checkpointed (lib : SerdeJson) (now : DateTime) (id topic : String) (seq : Int)
    (name : String) (s : Inner) :
    Checkpointed (some (id, seq)) s.steps (consumeNotification lib now id topic seq name s).2.steps := by
  unfold consumeNotification
  obtain ⟨row, -, -, found⟩ | ⟨row, -, -, found⟩ | ⟨vacant, found⟩ := recordedAt_eq id seq name s
  · rw [found]; exact .same
  · rw [found]; exact .same
  · rw [found]
    dsimp only
    split
    · exact .same
    · exact .recorded _ _ rfl vacant

theorem writeStreamFromWorkflow_checkpointed (now : DateTime) (id : String) (seq : Int) (name key : String)
    (value : Option Value) (s : Inner) :
    Checkpointed (some (id, seq)) s.steps (writeStreamFromWorkflow now id seq name key value s).2.steps := by
  unfold writeStreamFromWorkflow
  obtain ⟨row, -, -, found⟩ | ⟨row, -, -, found⟩ | ⟨vacant, found⟩ := recordedAt_eq id seq name s
  · rw [found]; exact .same
  · rw [found]; exact .same
  · obtain ⟨-, frame, -⟩ := appendStream_fields id key value s
    rw [found]
    dsimp only
    split
    next pushed => rw [pushed] at frame; rw [← frame]; exact .same
    next pushed =>
      rw [pushed] at frame
      simp only [checkpoint, putStep_steps]
      rw [frame]
      exact .recorded _ _ rfl vacant

theorem insertStep_checkpointed (id : String) (seq : Int) (row : StepRow) (s : Inner) :
    Checkpointed (some (id, seq)) s.steps (s.insertStep id seq row).steps := by
  unfold Inner.insertStep
  cases present : s.steps.get (id, seq) with
  | some row => exact .same
  | none => exact .recorded _ _ rfl present

theorem insertChildWorkflow_checkpointed (child : WorkflowStatus) (parent : String) (seq : Int)
    (returnExisting : Bool) (s : Inner) :
    Checkpointed (some (parent, seq)) s.steps
      (insertChildWorkflow child parent seq returnExisting s).2.steps := by
  unfold insertChildWorkflow
  cases present : s.steps.get (parent, seq) with
  | some step =>
    dsimp only
    split
    · split <;> exact .same
    · exact .same
  | none =>
    dsimp only
    split
    · exact .same
    split
    · exact .same
    split
    · exact .same
    split
    · exact .same
    · simp only [putStep_steps]
      split <;> exact .recorded _ _ rfl present

theorem resumeWorkflow_frame (now : DateTime) (id : String) (s : Inner) :
    (resumeWorkflow now id s).2.steps = s.steps ∧
      (resumeWorkflow now id s).2.notifications = s.notifications := by
  unfold resumeWorkflow
  cases s.workflows.get id with
  | none => exact ⟨rfl, rfl⟩
  | some row => dsimp only; split <;> exact ⟨rfl, rfl⟩

theorem resumeWorkflows_frame (now : DateTime) (ids : List String) (s : Inner) :
    (resumeWorkflows now ids s).2.steps = s.steps ∧
      (resumeWorkflows now ids s).2.notifications = s.notifications := by
  induction ids generalizing s with
  | nil => exact ⟨rfl, rfl⟩
  | cons id ids ih =>
    obtain ⟨steps, mail⟩ := resumeWorkflow_frame now id s
    obtain ⟨restSteps, restMail⟩ := ih (resumeWorkflow now id s).2
    exact ⟨restSteps.trans steps, restMail.trans mail⟩

/-- Every call outside the histories it replaces checkpoints at most its own position. -/
theorem step_checkpointed (lib : SerdeJson) (now : DateTime) (call : Call) (s : Inner)
    (none : call.histories s = []) (notDelete : ∀ ids children, call ≠ .deleteWorkflows ids children) :
    Checkpointed call.position s.steps (step lib s (now, call)).steps := by
  cases call with
  | recordStepResult id seq name value error startedAtMs executor =>
    exact recordStepResult_checkpointed ..
  | sendFromWorkflow id seq name rows => exact sendFromWorkflow_checkpointed ..
  | consumeNotification id topic seq name => exact consumeNotification_checkpointed ..
  | writeStreamFromWorkflow id seq name key value => exact writeStreamFromWorkflow_checkpointed ..
  | recordPatch id seq name => exact insertStep_checkpointed ..
  | recordChildWorkflow parent seq name child => exact insertStep_checkpointed ..
  | insertChildWorkflow child parent seq returnExisting => exact insertChildWorkflow_checkpointed ..
  | deleteWorkflows ids deleteChildren => exact absurd rfl (notDelete ids deleteChildren)
  | forkWorkflowWithTimeout params timeoutMs => simp [Call.histories] at none
  | importWorkflow wfs =>
    cases wfs with
    | nil => exact .same
    | cons wf wfs => simp [Call.histories, importedIds] at none
  | insertNotification row fresh =>
    have frame := pushNotifications_steps now [(row, fresh)] s
    simpa [step, exec, insertNotification, frame] using Checkpointed.same
  | insertNotifications rows =>
    have frame := pushNotifications_steps now rows s
    simpa [step, exec, insertNotifications, frame] using Checkpointed.same
  | writeStream id key value =>
    have frame := (appendStream_fields id key value s).2.1
    simpa [step, exec, writeStream, frame] using Checkpointed.same
  | resumeWorkflow id =>
    have frame := (resumeWorkflow_frame now id s).1
    simpa [step, exec, frame] using Checkpointed.same
  | resumeWorkflows ids =>
    have frame := (resumeWorkflows_frame now ids s).1
    simpa [step, exec, frame] using Checkpointed.same
  | insertWorkflowStatus status =>
    simp only [step, exec, insertWorkflowStatus]
    split
    · exact .same
    · split <;> exact .same
  | setWorkflowStatus id status output error =>
    simp only [step, exec, setWorkflowStatus]
    split
    · exact .same
    · split <;> exact .same
  | setWorkflowDelay id delayUntilMs =>
    simp only [step, exec, setWorkflowDelay]
    split
    · exact .same
    · split <;> exact .same
  | setWorkflowAttributes id attributes =>
    simp only [step, exec, setWorkflowAttributes]
    split <;> exact .same
  | claimForRecovery req =>
    simp only [step, exec, claimForRecovery]
    split
    · exact .same
    · split
      · exact .same
      · split
        · exact .same
        · split <;> exact .same
  | createApplicationVersion name fresh =>
    simp only [step, exec, createApplicationVersion]
    split <;> exact .same
  | _ => exact .same

theorem putSteps_get_ne (s : Inner) (id : String) (rows : List (Int × StepRow)) (key : String × Int)
    (other : key.1 ≠ id) : (s.putSteps id rows).steps.get key = s.steps.get key := by
  rw [putSteps_eq]
  apply Table.get_foldl_put_ne
  intro row member
  obtain ⟨r, -, rfl⟩ := List.mem_map.mp member
  rintro rfl
  exact other rfl

theorem importStreams_frame (id : String) (rows : List (String × Nat × Option Value)) (keys : List String)
    (s : Inner) : (importStreams id rows keys s).2.workflows = s.workflows ∧
      (importStreams id rows keys s).2.steps = s.steps ∧
      (importStreams id rows keys s).2.notifications = s.notifications := by
  induction keys generalizing s with
  | nil => exact ⟨rfl, rfl, rfl⟩
  | cons key keys ih =>
    rw [importStreams]
    split
    · exact ⟨rfl, rfl, rfl⟩
    · exact ih _

/-- One imported workflow: its row, its steps, and nothing else of those tables. -/
theorem importOne_frame (lib : SerdeJson) (now : DateTime) (wf : ExportedWorkflow) (s : Inner) :
    (importOne lib now wf s).2.workflows = s.workflows.put ((colStr wf.workflowStatus "workflow_uuid").getD "")
        (mapToStatus lib now wf.workflowStatus) ∧
      (importOne lib now wf s).2.steps = (s.putSteps ((colStr wf.workflowStatus "workflow_uuid").getD "")
        (wf.operationOutputs.map (importedStep lib))).steps ∧
      (importOne lib now wf s).2.notifications = s.notifications := by
  unfold importOne
  dsimp only
  obtain ⟨workflows, steps, mail⟩ := importStreams_frame ((colStr wf.workflowStatus "workflow_uuid").getD "")
    (wf.streams.map (importedEntry lib)) ((wf.streams.map (importedEntry lib)).map (·.1)).dedup _
  rw [workflows, steps, mail]
  simp [putSteps_eq]

theorem importAll_frame (lib : SerdeJson) (now : DateTime) (wfs : List ExportedWorkflow) (s : Inner)
    (id : String) (absent : id ∉ importedIds wfs) :
    (importAll lib now wfs s).2.workflows.get id = s.workflows.get id ∧
      (∀ seq, (importAll lib now wfs s).2.steps.get (id, seq) = s.steps.get (id, seq)) ∧
      (importAll lib now wfs s).2.notifications = s.notifications := by
  induction wfs generalizing s with
  | nil => exact ⟨rfl, fun _ => rfl, rfl⟩
  | cons wf wfs ih =>
    simp only [importedIds, List.map_cons, List.mem_cons, not_or] at absent
    obtain ⟨workflows, steps, mail⟩ := importOne_frame lib now wf s
    have kept : (importOne lib now wf s).2.workflows.get id = s.workflows.get id := by
      rw [workflows, Table.get_put, if_neg absent.1]
    have keptSteps : ∀ seq, (importOne lib now wf s).2.steps.get (id, seq) = s.steps.get (id, seq) := by
      intro seq
      rw [steps]
      exact putSteps_get_ne s _ _ (id, seq) absent.1
    rw [importAll]
    split
    next ending => rw [ending] at kept keptSteps mail; exact ⟨kept, keptSteps, mail⟩
    next s' ending =>
      rw [ending] at kept keptSteps mail
      obtain ⟨restRow, restSteps, restMail⟩ := ih s' absent.2
      exact ⟨restRow.trans kept, fun seq => (restSteps seq).trans (keptSteps seq), restMail.trans mail⟩

/-- An import is refused and changes nothing, or stores its workflows one after the other. -/
theorem importWorkflow_cases (lib : SerdeJson) (now : DateTime) (wfs : List ExportedWorkflow) (s : Inner) :
    (importRefused s wfs = true ∧ (importWorkflow lib now wfs s).2 = s) ∨
      (importRefused s wfs = false ∧ (importWorkflow lib now wfs s).2 = (importAll lib now wfs s).2) := by
  unfold importWorkflow
  split
  next id found =>
    obtain ⟨wf, member, named⟩ := List.exists_of_findSome?_eq_some found
    obtain ⟨same, stored⟩ := Option.filter_eq_some_iff.mp named
    exact .inl ⟨List.any_eq_true.mpr ⟨wf, member, by rw [same]; exact stored⟩, rfl⟩
  next fresh =>
    refine .inr ⟨List.any_eq_false.mpr fun wf member taken => ?_, rfl⟩
    obtain ⟨id, same, stored⟩ := (Option.any_eq_true ..).mp taken
    have vacant := List.findSome?_eq_none_iff.mp fresh wf member
    rw [same, Option.filter_some, if_pos stored] at vacant
    cases vacant

theorem import_refused {lib : SerdeJson} {now : DateTime} {wfs : List ExportedWorkflow} {s : Inner}
    (refused : importRefused s wfs = true) : (importWorkflow lib now wfs s).2 = s := by
  obtain ⟨-, same⟩ | ⟨accepted, -⟩ := importWorkflow_cases lib now wfs s
  · exact same
  · rw [accepted] at refused
    cases refused

theorem importWorkflow_frame (lib : SerdeJson) (now : DateTime) (wfs : List ExportedWorkflow) (s : Inner)
    (id : String) (absent : id ∉ importedIds wfs) :
    (importWorkflow lib now wfs s).2.workflows.get id = s.workflows.get id ∧
      (∀ seq, (importWorkflow lib now wfs s).2.steps.get (id, seq) = s.steps.get (id, seq)) ∧
      (importWorkflow lib now wfs s).2.notifications = s.notifications := by
  unfold importWorkflow
  split
  · exact ⟨rfl, fun _ => rfl, rfl⟩
  · exact importAll_frame lib now wfs s id absent

theorem forkWorkflow_frame (now : DateTime) (params : ForkParams) (timeoutMs : Option Int) (s : Inner)
    (id : String) (other : id ≠ params.newId) :
    (forkWorkflowWithTimeout now params timeoutMs s).2.workflows.get id = s.workflows.get id ∧
      (∀ seq, (forkWorkflowWithTimeout now params timeoutMs s).2.steps.get (id, seq) =
        s.steps.get (id, seq)) ∧
      (forkWorkflowWithTimeout now params timeoutMs s).2.notifications = s.notifications := by
  unfold forkWorkflowWithTimeout
  split
  · exact ⟨rfl, fun _ => rfl, rfl⟩
  split
  · exact ⟨rfl, fun _ => rfl, rfl⟩
  · refine ⟨?_, ?_, ?_⟩
    · simp [other]
    · intro seq
      exact putSteps_get_ne _ _ _ (id, seq) other
    · simp

/-- A step row outside the histories a call replaces is still there afterwards; a new one
stands at the call's own position. -/
theorem step_steps (lib : SerdeJson) (now : DateTime) (call : Call) (s : Inner) (key : String × Int)
    (kept : key.1 ∉ call.histories s) :
    (step lib s (now, call)).steps.get key = s.steps.get key ∨
      (s.steps.get key = none ∧ call.position = some key) := by
  obtain ⟨id, seq⟩ := key
  by_cases history : call.histories s = [] ∧ ∀ ids children, call ≠ .deleteWorkflows ids children
  · have effect := step_checkpointed lib now call s history.1 history.2
    generalize (step lib s (now, call)).steps = steps at effect ⊢
    cases effect with
    | same => exact .inl rfl
    | recorded key row here vacant =>
      by_cases same : (id, seq) = key
      · exact .inr ⟨same ▸ vacant, same ▸ here⟩
      · exact .inl (by rw [Table.get_put, if_neg same])
  · left
    cases call with
    | forkWorkflowWithTimeout params timeoutMs =>
      have other : id ≠ params.newId := by simpa [Call.histories] using kept
      exact (forkWorkflow_frame now params timeoutMs s id other).2.1 seq
    | importWorkflow wfs => exact (importWorkflow_frame lib now wfs s id kept).2.1 seq
    | deleteWorkflows ids deleteChildren =>
      simp only [Call.histories] at kept
      simp only [step, exec, deleteWorkflows, deleteTargets, Table.get_retain, kept]
      cases s.steps.get (id, seq) <;> simp
    | _ => exact absurd ⟨rfl, by simp⟩ history

/-- The history of the workflow stays: it is not deleted, forked onto or imported. -/
def Spares (id : String) (s : Inner) (event : DateTime × Call) : Prop := id ∉ event.2.histories s

instance (id : String) (s : Inner) (event : DateTime × Call) : Decidable (Spares id s event) :=
  inferInstanceAs (Decidable (_ ∉ _))

theorem step_spares {lib : SerdeJson} {s : Inner} {id : String} {seq : Int} (event : DateTime × Call)
    (spared : Spares id s event) (row : StepRow) (present : s.steps.get (id, seq) = some row) :
    (step lib s event).steps.get (id, seq) = some row := by
  obtain ⟨now, call⟩ := event
  rcases step_steps lib now call s (id, seq) spared with same | ⟨vacant, -⟩
  · rw [same, present]
  · rw [present] at vacant
    cases vacant

def Closed (s : Inner) (id key : String) : Prop := closed ((s.streams.get (id, key)).getD []) = true

instance (s : Inner) (id key : String) : Decidable (Closed s id key) := inferInstanceAs (Decidable (_ = true))

theorem Closed.of_eq {s s' : Inner} {id key : String} (shut : Closed s id key)
    (same : s'.streams.get (id, key) = s.streams.get (id, key)) : Closed s' id key := by
  rw [Closed, same]
  exact shut

theorem appendStream_stream (target key : String) (value : Option Value) (s : Inner) (id stream : String) :
    (appendStream target key value s).2.streams.get (id, stream) = s.streams.get (id, stream) ∨
      ¬ Closed s id stream ∧ ∃ entry, (appendStream target key value s).2.streams.get (id, stream) =
        some ((s.streams.get (id, stream)).getD [] ++ [entry]) := by
  unfold appendStream
  dsimp only
  split
  · exact .inl rfl
  next open_ =>
    by_cases here : (id, stream) = (target, key)
    · cases here
      exact .inr ⟨open_, value, by simp⟩
    · exact .inl (by simp [here])

theorem resumeWorkflows_streams (now : DateTime) (ids : List String) (s : Inner) :
    (resumeWorkflows now ids s).2.streams = s.streams := by
  induction ids generalizing s with
  | nil => rfl
  | cons id ids ih =>
    have first : (resumeWorkflow now id s).2.streams = s.streams := by
      unfold resumeWorkflow
      split
      · rfl
      · split <;> rfl
    exact (ih (resumeWorkflow now id s).2).trans first

theorem importStreams_get (id : String) (rows : List (String × Nat × Option Value)) (keys : List String)
    (s : Inner) (other key : String) (different : other ≠ id) :
    (importStreams id rows keys s).2.streams.get (other, key) = s.streams.get (other, key) := by
  induction keys generalizing s with
  | nil => rfl
  | cons stream keys ih =>
    rw [importStreams]
    split
    · rfl
    · rw [ih]
      simp [different]

theorem importAll_streams (lib : SerdeJson) (now : DateTime) (wfs : List ExportedWorkflow) (s : Inner)
    (id key : String) (absent : id ∉ importedIds wfs) :
    (importAll lib now wfs s).2.streams.get (id, key) = s.streams.get (id, key) := by
  induction wfs generalizing s with
  | nil => rfl
  | cons wf wfs ih =>
    simp only [importedIds, List.map_cons, List.mem_cons, not_or] at absent
    have one : (importOne lib now wf s).2.streams.get (id, key) = s.streams.get (id, key) := by
      unfold importOne
      dsimp only
      rw [importStreams_get _ _ _ _ _ _ absent.1]
      simp [putSteps_eq, Inner.putRow]
    rw [importAll]
    split
    next ending => rw [ending] at one; exact one
    next s' ending => rw [ending] at one; exact (ih s' absent.2).trans one

/-- Outside the histories it replaces, only a write changes a stream. -/
theorem step_stream_unwritten (lib : SerdeJson) (now : DateTime) (call : Call) (s : Inner) (id key : String)
    (kept : id ∉ call.histories s) (unwritten : ∀ target stream value, call ≠ .writeStream target stream value)
    (unchecked : ∀ target seq name stream value, call ≠ .writeStreamFromWorkflow target seq name stream value) :
    (step lib s (now, call)).streams.get (id, key) = s.streams.get (id, key) := by
  cases call with
  | writeStream target stream value => exact absurd rfl (unwritten target stream value)
  | writeStreamFromWorkflow target seq name stream value => exact absurd rfl (unchecked target seq name stream value)
  | deleteWorkflows ids deleteChildren =>
    simp only [Call.histories] at kept
    simp only [step, exec, deleteWorkflows, deleteTargets, Table.get_retain, kept]
    cases s.streams.get (id, key) <;> simp
  | forkWorkflowWithTimeout params timeoutMs =>
    simp only [step, exec, forkWorkflowWithTimeout]
    split
    · rfl
    · split
      · rfl
      · simp [putSteps_eq, Inner.putRow]
  | importWorkflow wfs =>
    simp only [step, exec, importWorkflow]
    split
    · rfl
    · exact importAll_streams lib now wfs s id key kept
  | resumeWorkflows ids => rw [step, exec, resumeWorkflows_streams]
  | recordStepResult target seq name value error startedAtMs executor =>
    simp only [step, exec, recordStepResult]
    split
    · split
      · rfl
      · split <;> rfl
    · cases executor <;> rfl
  | insertChildWorkflow child parent seq returnExisting =>
    simp only [step, exec, insertChildWorkflow]
    repeat' split
    all_goals rfl
  | _ =>
    simp only [step, exec, insertWorkflowStatus, getDeduplicatedWorkflow, getWorkflowStatus, setWorkflowStatus,
      getStepResult, dequeueWorkflows, transitionDelayedWorkflows, insertNotification, insertNotifications,
      pushNotifications, sendFromWorkflow, consumeNotification, upsertEvent, getEventValue, resumeWorkflow,
      enqueueExisting, cancelWorkflowsWithOptions, setWorkflowDelay, setWorkflowAttributes, claimForRecovery,
      recordChildWorkflow, checkChildWorkflow, getStepName, recordPatch, createApplicationVersion,
      setLatestApplicationVersion, checkpoint, Inner.insertStep, Inner.putStep, Inner.putRow]
    repeat' split
    all_goals first | rfl | grind

/-- A stream is only appended to, and nothing follows its close sentinel, until its workflow is deleted
or imported over. -/
theorem step_stream (lib : SerdeJson) (now : DateTime) (call : Call) (s : Inner) (id key : String)
    (kept : id ∉ call.histories s) :
    (step lib s (now, call)).streams.get (id, key) = s.streams.get (id, key) ∨
      ¬ Closed s id key ∧ ∃ entry, (step lib s (now, call)).streams.get (id, key) =
        some ((s.streams.get (id, key)).getD [] ++ [entry]) := by
  cases call with
  | writeStream target stream value => exact appendStream_stream target stream value s id key
  | writeStreamFromWorkflow target seq name stream value =>
    have after := appendStream_stream target stream value s id key
    simp only [step, exec, writeStreamFromWorkflow]
    split
    · exact .inl rfl
    · exact .inl rfl
    · split
      next pushed => rw [pushed] at after; exact after
      next pushed => rw [pushed] at after; exact after
  | _ => exact .inl (step_stream_unwritten lib now _ s id key kept (by simp) (by simp))

theorem step_closed (lib : SerdeJson) (now : DateTime) (call : Call) (s : Inner) (id key : String)
    (kept : id ∉ call.histories s) (shut : Closed s id key) : Closed (step lib s (now, call)) id key := by
  obtain same | ⟨open_, -⟩ := step_stream lib now call s id key kept
  · exact shut.of_eq same
  · exact absurd shut open_

/-- A call that removes or replaces a history and is no import removes its streams or leaves them. -/
theorem step_stream_removed (lib : SerdeJson) (now : DateTime) (call : Call) (s : Inner) (id key : String)
    (history : id ∈ call.histories s) (unimported : ∀ wfs, call ≠ .importWorkflow wfs) :
    (step lib s (now, call)).streams.get (id, key) = s.streams.get (id, key) ∨
      (step lib s (now, call)).streams.get (id, key) = none := by
  cases call with
  | deleteWorkflows ids deleteChildren =>
    simp only [Call.histories] at history
    simp only [step, exec, deleteWorkflows, deleteTargets, Table.get_retain, history]
    cases s.streams.get (id, key) <;> simp
  | forkWorkflowWithTimeout params timeoutMs =>
    left
    simp only [step, exec, forkWorkflowWithTimeout]
    split
    · rfl
    · split
      · rfl
      · simp [putSteps_eq, Inner.putRow]
  | importWorkflow wfs => exact absurd rfl (unimported wfs)
  | _ => simp [Call.histories] at history

end Durare.Memory

import Durare.Effects

/-! What one call can do to the row of one workflow. -/
namespace Durare.Memory

def Keyed (s : Inner) : Prop := ∀ id row, s.workflows.get id = some row → row.id = id

/-- The row a successful recovery claim leaves. -/
def recoveredRow (now : DateTime) (req : RecoveryClaimRequest) (row : WorkflowStatus) : WorkflowStatus :=
  let row := { row with recoveryAttempts := asI32 (row.recoveryAttempts + 1), updatedAt := now }
  if req.maxAttempts < row.recoveryAttempts then
    { row with status := .maxRecoveryAttemptsExceeded, dedupId := none }
  else if req.requeue then { row with status := .enqueued, startedAtMs := none }
  else { row with executorId := req.newExecutor }

/-- One call's move of the row stored under `id`, outside the histories the call replaces. -/
inductive RowMove (lib : SerdeJson) (now : DateTime) (s : Inner) (id : String) :
    Call → Option WorkflowStatus → Option WorkflowStatus → Prop where
  | same (call row) : RowMove lib now s id call row row
  | inserted (row) (own : row.id = id) : RowMove lib now s id (.insertWorkflowStatus row) none (some row)
  | child (row parent seq returnExisting) (own : row.id = id) :
    RowMove lib now s id (.insertChildWorkflow row parent seq returnExisting) none (some row)
  | written (row status output error) (allowed : statusAllowed status row.status) :
    RowMove lib now s id (.setWorkflowStatus id status output error) (some row)
      (some (writeStatus lib now status output error row))
  | refreshed (row seq name value error startedAtMs executor) :
    RowMove lib now s id (.recordStepResult id seq name value error startedAtMs (some executor)) (some row)
      (some { row with executorId := executor })
  | dequeued (row req) (member : id ∈ dequeueCandidates now req s) :
    RowMove lib now s id (.dequeueWorkflows req) (some row) (some (claimRow now req row))
  | promoted (row nowMs) (isDue : due nowMs row) :
    RowMove lib now s id (.transitionDelayedWorkflows nowMs) (some row)
      (some { row with status := .enqueued, delayUntilMs := none, updatedAt := now })
  | resumed (row) (unfinished : row.status.isCompleted = false) :
    RowMove lib now s id (.resumeWorkflow id) (some row) (some (resumeRow now row))
  | resumedMany (row ids) (member : id ∈ ids) (unfinished : row.status.isCompleted = false) :
    RowMove lib now s id (.resumeWorkflows ids) (some row) (some (resumeRow now row))
  | requeued (row queue) :
    RowMove lib now s id (.enqueueExisting id queue) (some row)
      (some { row with
        status := .enqueued
        queueName := some queue
        executorId := ""
        startedAtMs := none
        updatedAt := now })
  | cancelled (row ids options)
      (member : id ∈ if options.cancelChildren then targetsWithChildren ids s else ids) :
    RowMove lib now s id (.cancelWorkflowsWithOptions ids options) (some row) (some (cancelRow now row))
  | delayed (row delayUntilMs) (waiting : row.status = .delayed) :
    RowMove lib now s id (.setWorkflowDelay id delayUntilMs) (some row)
      (some { row with delayUntilMs := some delayUntilMs, updatedAt := now })
  | attributed (row attributes) :
    RowMove lib now s id (.setWorkflowAttributes id attributes) (some row)
      (some { row with attributes := (attributes.filter (· ≠ [])).map .object, updatedAt := now })
  | recovered (row req) (own : req.workflowId = id) (pending : row.status = .pending)
      (executor : row.executorId = req.expectedExecutor) (attempts : row.recoveryAttempts = req.expectedAttempts) :
    RowMove lib now s id (.claimForRecovery req) (some row) (some (recoveredRow now req row))

theorem claimRow_idem (now : DateTime) (req : DequeueRequest) (w : WorkflowStatus) :
    claimRow now req (claimRow now req w) = claimRow now req w := by
  simp only [claimRow]
  cases w.deadlineMs <;> simp

theorem cancelRow_idem (now : DateTime) (w : WorkflowStatus) :
    cancelRow now (cancelRow now w) = cancelRow now w := by
  by_cases stays : w.status.isCompleted || w.status == .cancelled
  · simp [cancelRow, stays]
  · simp [cancelRow, stays]

theorem writeStatus_status (lib : SerdeJson) (now : DateTime) (status : Status) (output : Option Value)
    (error : Option String) (row : WorkflowStatus) : (writeStatus lib now status output error row).status = status := by
  unfold writeStatus
  cases output <;> cases error <;> (dsimp only; split <;> rfl)

theorem writeStatus_completedAtMs (lib : SerdeJson) (now : DateTime) (status : Status) (output : Option Value)
    (error : Option String) (row : WorkflowStatus) :
    (writeStatus lib now status output error row).completedAtMs =
      if status.isTerminal then some now.timestampMillis else row.completedAtMs := by
  unfold writeStatus
  cases output <;> cases error <;> (dsimp only; split <;> rfl)

theorem writeStatus_output (lib : SerdeJson) (now : DateTime) (status : Status) (output : Option Value)
    (error : Option String) (row : WorkflowStatus) :
    (writeStatus lib now status output error row).output = output.or row.output := by
  unfold writeStatus
  cases output <;> cases error <;> (dsimp only; split <;> rfl)

theorem writeStatus_error (lib : SerdeJson) (now : DateTime) (status : Status) (output : Option Value)
    (text : String) (row : WorkflowStatus) :
    (writeStatus lib now status output (some text) row).error = some (decodeError lib none text).1 := by
  unfold writeStatus
  cases output <;> (dsimp only; split <;> rfl)

theorem writeStatus_errorless (lib : SerdeJson) (now : DateTime) (status : Status) (output : Option Value)
    (row : WorkflowStatus) :
    (writeStatus lib now status output none row).error = row.error ∧
      (writeStatus lib now status output none row).errorInfo = row.errorInfo := by
  unfold writeStatus
  cases output <;> (dsimp only; split <;> exact ⟨rfl, rfl⟩)

theorem writeStatus_queueName (lib : SerdeJson) (now : DateTime) (status : Status) (output : Option Value)
    (error : Option String) (row : WorkflowStatus) :
    (writeStatus lib now status output error row).queueName = row.queueName := by
  unfold writeStatus
  cases output <;> cases error <;> (dsimp only; split <;> rfl)

theorem writeStatus_dedupId (lib : SerdeJson) (now : DateTime) (status : Status) (output : Option Value)
    (error : Option String) (row : WorkflowStatus) :
    (writeStatus lib now status output error row).dedupId = if status.isTerminal then none else row.dedupId := by
  unfold writeStatus
  cases output <;> cases error <;> (dsimp only; split <;> rfl)

theorem writeStatus_start (lib : SerdeJson) (now : DateTime) (status : Status) (output : Option Value)
    (error : Option String) (row : WorkflowStatus) :
    (writeStatus lib now status output error row).queuePartitionKey = row.queuePartitionKey ∧
      (writeStatus lib now status output error row).rateLimited = row.rateLimited ∧
      (writeStatus lib now status output error row).startedAtMs = row.startedAtMs := by
  unfold writeStatus
  cases output <;> cases error <;> (dsimp only; split <;> exact ⟨rfl, rfl, rfl⟩)

/-- A put at one id moves the row of that id and no other. -/
theorem RowMove.put {lib : SerdeJson} {now : DateTime} {s : Inner} {id key : String} {call : Call}
    {row : WorkflowStatus}
    (here : id = key → RowMove lib now s id call (s.workflows.get id) (some row)) :
    RowMove lib now s id call (s.workflows.get id) ((s.workflows.put key row).get id) := by
  rw [Table.get_put]
  split
  next same => exact here same
  next => exact .same ..

theorem insertWorkflowStatus_row (lib : SerdeJson) (now : DateTime) (status : WorkflowStatus) (s : Inner)
    (id : String) : RowMove lib now s id (.insertWorkflowStatus status) (s.workflows.get id)
      ((insertWorkflowStatus status s).2.workflows.get id) := by
  unfold insertWorkflowStatus
  split
  · exact .same ..
  split
  · exact .same ..
  next vacant =>
    apply RowMove.put
    rintro rfl
    rw [vacant]
    exact .inserted status rfl

theorem setWorkflowStatus_row (lib : SerdeJson) (now : DateTime) (target : String) (status : Status)
    (output : Option Value) (error : Option String) (s : Inner) (id : String) :
    RowMove lib now s id (.setWorkflowStatus target status output error) (s.workflows.get id)
      ((setWorkflowStatus lib now target status output error s).2.workflows.get id) := by
  unfold setWorkflowStatus
  split
  · exact .same ..
  next row present =>
    split
    next allowed =>
      apply RowMove.put
      rintro rfl
      rw [present]
      exact .written row status output error allowed
    · exact .same ..

theorem recordStepResult_row (lib : SerdeJson) (now : DateTime) (target : String) (seq : Int) (name : String)
    (value : Value) (error : Option String) (startedAtMs : Option Int) (executor : Option String)
    (s : Inner) (id : String) :
    RowMove lib now s id (.recordStepResult target seq name value error startedAtMs executor)
      (s.workflows.get id)
      ((recordStepResult lib now target seq name value error startedAtMs executor s).2.workflows.get id) := by
  unfold recordStepResult
  dsimp only
  split
  · split
    · exact .same ..
    · split <;> exact .same ..
  · cases executor with
    | none => exact .same ..
    | some executor =>
      simp only [refreshExecutor, putStep_workflows, Table.get_modify]
      split
      next same =>
        subst same
        cases s.workflows.get id with
        | none => exact .same ..
        | some row => exact .refreshed ..
      · exact .same ..

theorem resumeWorkflow_get (now : DateTime) (target : String) (s : Inner) (id : String) :
    (resumeWorkflow now target s).2.workflows.get id = s.workflows.get id ∨
      ∃ row, s.workflows.get id = some row ∧ row.status.isCompleted = false ∧ id = target ∧
        (resumeWorkflow now target s).2.workflows.get id = some (resumeRow now row) := by
  unfold resumeWorkflow
  split
  · exact .inl rfl
  next row present =>
    split
    · exact .inl rfl
    next unfinished =>
      rw [putRow_workflows, Table.get_put]
      split
      next same =>
        subst same
        exact .inr ⟨row, present, by simpa using unfinished, rfl, rfl⟩
      · exact .inl rfl

theorem resumeRow_idem (now : DateTime) (row : WorkflowStatus) :
    resumeRow now (resumeRow now row) = resumeRow now row := rfl

theorem resumeWorkflows_get (now : DateTime) (ids : List String) (s : Inner) (id : String) :
    (resumeWorkflows now ids s).2.workflows.get id = s.workflows.get id ∨
      ∃ row, s.workflows.get id = some row ∧ row.status.isCompleted = false ∧ id ∈ ids ∧
        (resumeWorkflows now ids s).2.workflows.get id = some (resumeRow now row) := by
  induction ids generalizing s with
  | nil => exact .inl rfl
  | cons target ids ih =>
    rw [resumeWorkflows]
    dsimp only
    obtain same | ⟨row, present, unfinished, rfl, moved⟩ := resumeWorkflow_get now target s id
    · obtain rest | ⟨row, present, unfinished, member, moved⟩ := ih (resumeWorkflow now target s).2
      · exact .inl (rest.trans same)
      · exact .inr ⟨row, same ▸ present, unfinished, by simp [member], moved⟩
    · right
      refine ⟨row, present, unfinished, by simp, ?_⟩
      obtain rest | ⟨row', present', -, -, again⟩ := ih (resumeWorkflow now id s).2
      · rw [rest, moved]
      · rw [moved] at present'
        cases present'
        rw [again, resumeRow_idem]

theorem dequeueWorkflows_row (lib : SerdeJson) (now : DateTime) (req : DequeueRequest) (s : Inner)
    (id : String) : RowMove lib now s id (.dequeueWorkflows req) (s.workflows.get id)
      ((dequeueWorkflows now req s).2.workflows.get id) := by
  simp only [dequeueWorkflows, Table.get_foldl_modify _ (claimRow_idem now req)]
  split
  next member =>
    cases s.workflows.get id with
    | none => exact .same ..
    | some row => exact .dequeued row req member
  · exact .same ..

theorem cancelWorkflows_row (lib : SerdeJson) (now : DateTime) (ids : List String) (options : CancelOptions)
    (s : Inner) (id : String) :
    RowMove lib now s id (.cancelWorkflowsWithOptions ids options) (s.workflows.get id)
      ((cancelWorkflowsWithOptions now ids options s).2.workflows.get id) := by
  simp only [cancelWorkflowsWithOptions, Table.get_foldl_modify _ (cancelRow_idem now)]
  by_cases member : id ∈ if options.cancelChildren then targetsWithChildren ids s else ids
  · rw [if_pos member]
    cases s.workflows.get id with
    | none => exact .same ..
    | some row => exact .cancelled row ids options member
  · rw [if_neg member]
    exact .same ..

theorem claimForRecovery_row (lib : SerdeJson) (now : DateTime) (req : RecoveryClaimRequest) (s : Inner)
    (id : String) : RowMove lib now s id (.claimForRecovery req) (s.workflows.get id)
      ((claimForRecovery now req s).2.workflows.get id) := by
  unfold claimForRecovery
  split
  · exact .same ..
  next row present =>
    split
    · exact .same ..
    next matched =>
      simp only [not_or, not_not] at matched
      obtain ⟨pending, executor, attempts⟩ := matched
      have here : id = req.workflowId → RowMove lib now s id (.claimForRecovery req) (s.workflows.get id)
          (some (recoveredRow now req row)) := by
        rintro rfl
        rw [present]
        exact .recovered row req rfl pending executor attempts
      unfold recoveredRow at here
      dsimp only at here ⊢
      split
      next overrun => exact .put fun same => by simpa [overrun] using here same
      next under =>
        split
        next requeue => exact .put fun same => by simpa [under, requeue] using here same
        next direct => exact .put fun same => by simpa [under, direct] using here same

theorem chosenChild_none {child : WorkflowStatus} {returnExisting : Bool} {s : Inner}
    (chosen : chosenChild child returnExisting s = .ok none) : s.workflows.get child.id = none := by
  unfold chosenChild at chosen
  split at chosen
  · cases chosen
  · assumption

/-- A child start fails, finds its link, or links the child it settles on and stores it where it is
new. -/
theorem insertChildWorkflow_cases (child : WorkflowStatus) (parent : String) (seq : Int) (returnExisting : Bool)
    (s : Inner) :
    (∃ e, insertChildWorkflow child parent seq returnExisting s = (.error e, s)) ∨
    (∃ row id, s.steps.get (parent, seq) = some row ∧ row.childWorkflowId = some id ∧ row.name = child.name ∧
      insertChildWorkflow child parent seq returnExisting s = (.ok (some (.replayed id)), s)) ∨
    ∃ chosen, s.steps.get (parent, seq) = none ∧
      (∃ row, s.workflows.get parent = some row ∧ row.status ≠ .cancelled) ∧
      chosenChild child returnExisting s = .ok chosen ∧
      insertChildWorkflow child parent seq returnExisting s =
        (.ok (some (.resolved (chosen.getD child) chosen.isNone)),
          (if chosen.isNone then s.putRow (chosen.getD child).id (chosen.getD child) else s).putStep parent seq
            { name := child.name, childWorkflowId := some (chosen.getD child).id }) := by
  unfold insertChildWorkflow
  cases present : s.steps.get (parent, seq) with
  | some row =>
    dsimp only
    split
    next id linked =>
      split
      · exact .inl ⟨_, rfl⟩
      next same => exact .inr (.inl ⟨row, id, rfl, linked, not_not.mp same, rfl⟩)
    · exact .inl ⟨_, rfl⟩
  | none =>
    dsimp only
    split
    · exact .inl ⟨_, rfl⟩
    next row stored =>
    split
    · exact .inl ⟨_, rfl⟩
    next live =>
    split
    · exact .inl ⟨_, rfl⟩
    next chosen found =>
      split
      · exact .inl ⟨_, rfl⟩
      · exact .inr (.inr ⟨chosen, rfl, ⟨row, stored, live⟩, found, rfl⟩)

theorem insertChildWorkflow_row (lib : SerdeJson) (now : DateTime) (child : WorkflowStatus) (parent : String)
    (seq : Int) (returnExisting : Bool) (s : Inner) (id : String) :
    RowMove lib now s id (.insertChildWorkflow child parent seq returnExisting) (s.workflows.get id)
      ((insertChildWorkflow child parent seq returnExisting s).2.workflows.get id) := by
  obtain ⟨e, same⟩ | ⟨row, id', -, -, -, same⟩ | ⟨chosen, -, -, found, same⟩ :=
    insertChildWorkflow_cases child parent seq returnExisting s
  · rw [same]
    exact .same ..
  · rw [same]
    exact .same ..
  · rw [same]
    cases chosen with
    | some row => exact .same ..
    | none =>
      apply RowMove.put
      rintro rfl
      rw [Option.getD_none, chosenChild_none found]
      exact .child child parent seq returnExisting rfl

/-- The rows move only as `RowMove` says, outside the histories a call replaces. -/
theorem step_row (lib : SerdeJson) (now : DateTime) (call : Call) (s : Inner) (id : String)
    (kept : id ∉ call.histories s) :
    RowMove lib now s id call (s.workflows.get id) ((step lib s (now, call)).workflows.get id) := by
  cases call with
  | insertWorkflowStatus status => exact insertWorkflowStatus_row ..
  | setWorkflowStatus target status output error => exact setWorkflowStatus_row ..
  | recordStepResult target seq name value error startedAtMs executor => exact recordStepResult_row ..
  | dequeueWorkflows req => exact dequeueWorkflows_row ..
  | cancelWorkflowsWithOptions ids options => exact cancelWorkflows_row ..
  | claimForRecovery req => exact claimForRecovery_row ..
  | insertChildWorkflow child parent seq returnExisting => exact insertChildWorkflow_row ..
  | resumeWorkflow target =>
    obtain same | ⟨row, present, unfinished, rfl, moved⟩ := resumeWorkflow_get now target s id
    · simpa [step, exec, same] using RowMove.same ..
    · rw [present]
      simpa [step, exec, moved] using RowMove.resumed row unfinished
  | resumeWorkflows ids =>
    obtain same | ⟨row, present, unfinished, member, moved⟩ := resumeWorkflows_get now ids s id
    · simpa [step, exec, same] using RowMove.same ..
    · rw [present]
      simpa [step, exec, moved] using RowMove.resumedMany row ids member unfinished
  | transitionDelayedWorkflows nowMs =>
    simp only [step, exec, transitionDelayedWorkflows, Table.get_mapValues]
    cases s.workflows.get id with
    | none => exact .same ..
    | some row =>
      rw [Option.map_some]
      split
      next isDue => exact .promoted row nowMs isDue
      · exact .same ..
  | enqueueExisting target queue =>
    simp only [step, exec, enqueueExisting, Table.get_modify]
    split
    next same =>
      subst same
      cases s.workflows.get id with
      | none => exact .same ..
      | some row => exact .requeued row queue
    · exact .same ..
  | setWorkflowDelay target delayUntilMs =>
    simp only [step, exec, setWorkflowDelay]
    split
    · exact .same ..
    next row present =>
      split
      next waiting => exact .put (by rintro rfl; rw [present]; exact .delayed row delayUntilMs waiting)
      · exact .same ..
  | setWorkflowAttributes target attributes =>
    simp only [step, exec, setWorkflowAttributes]
    split
    · exact .same ..
    next row present => exact .put (by rintro rfl; rw [present]; exact .attributed row attributes)
  | forkWorkflowWithTimeout params timeoutMs =>
    have other : id ≠ params.newId := by simpa [Call.histories] using kept
    have frame := (forkWorkflow_frame now params timeoutMs s id other).1
    simpa [step, exec, frame] using RowMove.same ..
  | importWorkflow wfs =>
    have frame := (importWorkflow_frame lib now wfs s id kept).1
    simpa [step, exec, frame] using RowMove.same ..
  | deleteWorkflows ids deleteChildren =>
    simp only [Call.histories] at kept
    simp only [step, exec, deleteWorkflows, deleteTargets, Table.get_retain, kept]
    cases s.workflows.get id <;> exact .same ..
  | insertNotification row fresh =>
    have frame := pushNotifications_workflows now [(row, fresh)] s
    simpa [step, exec, insertNotification, frame] using RowMove.same ..
  | insertNotifications rows =>
    have frame := pushNotifications_workflows now rows s
    simpa [step, exec, insertNotifications, frame] using RowMove.same ..
  | writeStream target key value =>
    have frame := (appendStream_fields target key value s).1
    simpa [step, exec, writeStream, frame] using RowMove.same ..
  | sendFromWorkflow target seq name rows =>
    have frame := pushNotifications_workflows now rows s
    simp only [step, exec, sendFromWorkflow]
    split
    · exact .same ..
    · exact .same ..
    · split
      next pushed => rw [pushed] at frame; rw [frame]; exact .same ..
      next pushed =>
        rw [pushed] at frame
        rw [checkpoint, putStep_workflows, frame]
        exact .same ..
  | writeStreamFromWorkflow target seq name key value =>
    have frame := (appendStream_fields target key value s).1
    simp only [step, exec, writeStreamFromWorkflow]
    split
    · exact .same ..
    · exact .same ..
    · split
      next pushed => rw [pushed] at frame; rw [frame]; exact .same ..
      next pushed =>
        rw [pushed] at frame
        rw [checkpoint, putStep_workflows, frame]
        exact .same ..
  | consumeNotification target topic seq name =>
    simp only [step, exec, consumeNotification]
    split
    · exact .same ..
    · exact .same ..
    · split <;> exact .same ..
  | recordPatch target seq name =>
    simp only [step, exec, recordPatch, Inner.insertStep]
    split <;> exact .same ..
  | recordChildWorkflow parent seq name child =>
    simp only [step, exec, recordChildWorkflow, Inner.insertStep]
    split <;> exact .same ..
  | createApplicationVersion name fresh =>
    simp only [step, exec, createApplicationVersion]
    split <;> exact .same ..
  | _ => exact .same ..

theorem RowMove.id_eq {lib : SerdeJson} {now : DateTime} {s : Inner} {id : String} {call : Call}
    {old new : Option WorkflowStatus} (move : RowMove lib now s id call old new)
    (keyed : ∀ row, old = some row → row.id = id) : ∀ row, new = some row → row.id = id := by
  intro final stored
  cases move with
  | same => exact keyed final stored
  | inserted row own => cases stored; exact own
  | child row parent seq returnExisting own => cases stored; exact own
  | written row status output error allowed =>
    cases stored
    have kept : (writeStatus lib now status output error row).id = row.id := by
      unfold writeStatus
      cases output <;> cases error <;> (dsimp only; split <;> rfl)
    exact kept.trans (keyed row rfl)
  | cancelled row ids options member =>
    cases stored
    have kept : (cancelRow now row).id = row.id := by unfold cancelRow; split <;> rfl
    exact kept.trans (keyed row rfl)
  | recovered row req own pending executor attempts =>
    cases stored
    have kept : (recoveredRow now req row).id = row.id := by
      unfold recoveredRow; dsimp only; split
      · rfl
      · split <;> rfl
    exact kept.trans (keyed row rfl)
  | _ =>
    have own := keyed _ rfl
    cases stored
    exact own

theorem importAll_keyed (lib : SerdeJson) (now : DateTime) (wfs : List ExportedWorkflow) (s : Inner)
    (keyed : Keyed s) : Keyed (importAll lib now wfs s).2 := by
  induction wfs generalizing s with
  | nil => exact keyed
  | cons wf wfs ih =>
    have one : Keyed (importOne lib now wf s).2 := by
      intro id row stored
      rw [(importOne_frame lib now wf s).1, Table.get_put] at stored
      split at stored
      next same => cases stored; exact same.symm
      next => exact keyed id row stored
    rw [importAll]
    split
    next ending => rw [ending] at one; exact one
    next s' ending => rw [ending] at one; exact ih s' one

theorem step_keyed (lib : SerdeJson) (s : Inner) (event : DateTime × Call) (keyed : Keyed s) :
    Keyed (step lib s event) := by
  obtain ⟨now, call⟩ := event
  intro id row stored
  by_cases history : id ∈ call.histories s
  · cases call with
    | deleteWorkflows ids deleteChildren =>
      simp only [step, exec, deleteWorkflows, deleteTargets, Table.get_retain,
        Option.filter_eq_some_iff] at stored
      exact keyed id row stored.1
    | forkWorkflowWithTimeout params timeoutMs =>
      have here : id = params.newId := by simpa [Call.histories] using history
      simp only [step, exec, forkWorkflowWithTimeout] at stored
      split at stored
      · exact keyed id row stored
      split at stored
      · exact keyed id row stored
      · rw [putSteps_workflows, putRow_workflows, Table.get_put, if_pos here] at stored
        cases stored
        exact here.symm
    | importWorkflow wfs =>
      simp only [step, exec, importWorkflow] at stored
      split at stored
      · exact keyed id row stored
      · exact importAll_keyed lib now wfs s keyed id row stored
    | _ => simp [Call.histories] at history
  · exact (step_row lib now call s id history).id_eq (keyed id) row stored

theorem Reachable.keyed {lib : SerdeJson} {s : Inner} (reachable : Reachable lib s) : Keyed s := by
  obtain ⟨events, rfl⟩ := reachable
  have start : Keyed Inner.new := by intro id row stored; cases stored
  have along := Runs.along_of_forall (step lib) (P := fun _ _ => True) (fun _ _ => trivial) events Inner.new
  exact Runs.invariant (fun s event _ inv => step_keyed lib s event inv) along start

def Rows (P : WorkflowStatus → Prop) (s : Inner) : Prop := ∀ id row, s.workflows.get id = some row → P row

theorem importAll_row (lib : SerdeJson) (now : DateTime) (wfs : List ExportedWorkflow) (s : Inner) {id : String}
    {row : WorkflowStatus} (stored : (importAll lib now wfs s).2.workflows.get id = some row) :
    s.workflows.get id = some row ∨ ∃ wf ∈ wfs, row = mapToStatus lib now wf.workflowStatus := by
  induction wfs generalizing s with
  | nil => exact .inl stored
  | cons wf wfs ih =>
    have one : ∀ row, (importOne lib now wf s).2.workflows.get id = some row →
        s.workflows.get id = some row ∨ row = mapToStatus lib now wf.workflowStatus := by
      intro row there
      rw [(importOne_frame lib now wf s).1, Table.get_put] at there
      split at there
      · cases there
        exact .inr rfl
      · exact .inl there
    rw [importAll] at stored
    split at stored
    next s' ending =>
      rw [ending] at one
      obtain old | new := one row stored
      · exact .inl old
      · exact .inr ⟨wf, List.mem_cons_self, new⟩
    next s' ending =>
      rw [ending] at one
      obtain there | ⟨other, member, new⟩ := ih s' stored
      · obtain old | new := one row there
        · exact .inl old
        · exact .inr ⟨wf, List.mem_cons_self, new⟩
      · exact .inr ⟨other, List.mem_cons_of_mem _ member, new⟩

/-- The row stored under an id after a call: the call moved it, or wrote it as part of a whole history. -/
theorem step_stored (lib : SerdeJson) (now : DateTime) (call : Call) (s : Inner) {id : String} {row : WorkflowStatus}
    (stored : (step lib s (now, call)).workflows.get id = some row) :
    RowMove lib now s id call (s.workflows.get id) (some row) ∨
      (∃ params timeoutMs original, call = .forkWorkflowWithTimeout params timeoutMs ∧ id = params.newId ∧
        s.workflows.get params.originalId = some original ∧ row = forkRow now params timeoutMs original) ∨
      ∃ wfs, call = .importWorkflow wfs ∧ importRefused s wfs = false ∧
        ∃ wf ∈ wfs, row = mapToStatus lib now wf.workflowStatus := by
  by_cases history : id ∈ call.histories s
  · cases call with
    | deleteWorkflows ids deleteChildren =>
      simp only [step, exec, deleteWorkflows, deleteTargets, Table.get_retain, Option.filter_eq_some_iff] at stored
      rw [stored.1]
      exact .inl (.same ..)
    | forkWorkflowWithTimeout params timeoutMs =>
      have here : id = params.newId := by simpa [Call.histories] using history
      simp only [step, exec, forkWorkflowWithTimeout] at stored
      split at stored
      · rw [stored]
        exact .inl (.same ..)
      split at stored
      · rw [stored]
        exact .inl (.same ..)
      next original present =>
        rw [putSteps_workflows, putRow_workflows, Table.get_put, if_pos here] at stored
        cases stored
        exact .inr (.inl ⟨params, timeoutMs, original, rfl, here, present, rfl⟩)
    | importWorkflow wfs =>
      have after : (importWorkflow lib now wfs s).2.workflows.get id = some row := stored
      obtain ⟨-, same⟩ | ⟨accepted, same⟩ := importWorkflow_cases lib now wfs s
      · rw [same] at after
        rw [after]
        exact .inl (.same ..)
      · rw [same] at after
        obtain old | ⟨wf, member, new⟩ := importAll_row lib now wfs s after
        · rw [old]
          exact .inl (.same ..)
        · exact .inr (.inr ⟨wfs, rfl, accepted, wf, member, new⟩)
    | _ => simp [Call.histories] at history
  · have moved := step_row lib now call s id history
    rw [stored] at moved
    exact .inl moved

/-- A property of rows is kept by a call that keeps it for the rows it moves and for the histories it
writes. -/
theorem step_rows {P : WorkflowStatus → Prop} {lib : SerdeJson} {now : DateTime} {call : Call} {s : Inner}
    (rows : Rows P s)
    (moved : ∀ id old new, s.workflows.get id = old → (∀ row, old = some row → P row) →
      RowMove lib now s id call old (some new) → P new)
    (forked : ∀ params timeoutMs, call = .forkWorkflowWithTimeout params timeoutMs →
      ∀ original, s.workflows.get params.originalId = some original → P (forkRow now params timeoutMs original))
    (imported : ∀ wfs, call = .importWorkflow wfs → importRefused s wfs = false →
      ∀ wf ∈ wfs, P (mapToStatus lib now wf.workflowStatus)) :
    Rows P (step lib s (now, call)) := by
  intro id row stored
  obtain move | ⟨params, timeoutMs, original, same, -, present, rfl⟩ | ⟨wfs, same, accepted, wf, member, rfl⟩ :=
    step_stored lib now call s stored
  · exact moved id _ row rfl (rows id) move
  · exact forked params timeoutMs same original present
  · exact imported wfs same accepted wf member

/-- A dequeue claims rows that wait on its queue. -/
theorem dequeueCandidates_claimable {now : DateTime} {req : DequeueRequest} {s : Inner} {id : String}
    (keyed : Keyed s) (member : id ∈ dequeueCandidates now req s) :
    ∃ row, s.workflows.get id = some row ∧ claimable req (isLatest req s) row = true := by
  unfold dequeueCandidates at member
  dsimp only at member
  split at member
  · simp at member
  · obtain ⟨row, sorted, rfl⟩ := List.mem_map.mp (List.mem_of_mem_take member)
    rw [List.mem_insertionSort, List.mem_filter] at sorted
    obtain ⟨key, stored⟩ := (Table.mem_values s.workflows row).mp sorted.1
    have own := keyed key row stored
    exact ⟨row, own ▸ stored, sorted.2⟩

theorem dequeueCandidates_enqueued {now : DateTime} {req : DequeueRequest} {s : Inner} {id : String}
    {row : WorkflowStatus} (keyed : Keyed s) (stored : s.workflows.get id = some row)
    (member : id ∈ dequeueCandidates now req s) : row.status = .enqueued := by
  obtain ⟨row', present, eligible⟩ := dequeueCandidates_claimable keyed member
  rw [stored] at present
  cases present
  simp only [claimable, Bool.and_eq_true, beq_iff_eq] at eligible
  exact eligible.1.2

theorem due_delayed {nowMs : Int} {row : WorkflowStatus} (isDue : due nowMs row = true) : row.status = .delayed := by
  simp only [due, Bool.and_eq_true, beq_iff_eq] at isDue
  exact isDue.1

/-- The rows of a keyed store have distinct ids. -/
theorem Keyed.nodup_ids {s : Inner} (keyed : Keyed s) : (s.workflows.values.map (·.id)).Nodup := by
  have own : s.workflows.values.map (·.id) = s.workflows.rows.keys := by
    simp only [Table.values, AList.keys, List.keys, List.map_map]
    apply List.map_congr_left
    intro entry member
    exact keyed entry.1 entry.2 ((Table.get_iff_mem_entries _ _ _).mpr member)
  exact own ▸ s.workflows.rows.keys_nodup

/-- A dequeue claims each row once. -/
theorem dequeueCandidates_nodup {now : DateTime} {req : DequeueRequest} {s : Inner} (keyed : Keyed s) :
    (dequeueCandidates now req s).Nodup := by
  unfold dequeueCandidates
  dsimp only
  split
  · exact List.nodup_nil
  · have sorted := List.perm_insertionSort queueOrder (s.workflows.values.filter (claimable req (isLatest req s)))
    have claimed := keyed.nodup_ids.sublist
      ((List.filter_sublist (p := claimable req (isLatest req s))).map WorkflowStatus.id)
    exact ((sorted.map (·.id)).nodup_iff.mpr claimed).sublist (List.take_sublist ..)

/-- A recovery claim loses, or finds the row as it was observed and moves it on. -/
theorem claimForRecovery_cases (now : DateTime) (req : RecoveryClaimRequest) (s : Inner) :
    (claimForRecovery now req s = (.ok .lost, s) ∧ ∀ row, s.workflows.get req.workflowId = some row →
      ¬ (row.status = .pending ∧ row.executorId = req.expectedExecutor ∧
        row.recoveryAttempts = req.expectedAttempts)) ∨
    ∃ row, s.workflows.get req.workflowId = some row ∧ row.status = .pending ∧
      row.executorId = req.expectedExecutor ∧ row.recoveryAttempts = req.expectedAttempts ∧
      claimForRecovery now req s = (.ok (
          if req.maxAttempts < asI32 (row.recoveryAttempts + 1) then .parked (asI32 (row.recoveryAttempts + 1))
          else if req.requeue then .requeued
          else .claimed (asI32 (row.recoveryAttempts + 1))),
        s.putRow req.workflowId (recoveredRow now req row)) := by
  unfold claimForRecovery
  cases present : s.workflows.get req.workflowId with
  | none => exact .inl ⟨rfl, fun row stored => nomatch stored⟩
  | some row =>
    dsimp only
    split
    next moved =>
      refine .inl ⟨rfl, ?_⟩
      rintro row' stored ⟨pending, executor, attempts⟩
      cases stored
      simp [pending, executor, attempts] at moved
    next matched =>
      simp only [not_or, not_not] at matched
      obtain ⟨pending, executor, attempts⟩ := matched
      refine .inr ⟨row, rfl, pending, executor, attempts, ?_⟩
      unfold recoveredRow
      dsimp only
      split
      · rfl
      · split <;> rfl

end Durare.Memory

import Durare.Rows

/-! The columns that go with a status: an outcome belongs to the status it was recorded with, and
`completed_at` to a finished workflow. Which calls keep each of them, and along which runs they hold. -/
namespace Durare.Statuses

open Memory

section Completed

/-- `completed_at` is set exactly on a finished workflow. -/
def Marked (row : WorkflowStatus) : Prop := row.completedAtMs.isSome = row.status.isTerminal

instance (row : WorkflowStatus) : Decidable (Marked row) := inferInstanceAs (Decidable (_ = _))

/-- The claim raises the count over the cap of its claimer. -/
def parks (s : Inner) (req : RecoveryClaimRequest) : Bool :=
  (s.workflows.get req.workflowId).any fun row =>
    row.status == .pending && row.executorId == req.expectedExecutor && row.recoveryAttempts == req.expectedAttempts &&
      decide (req.maxAttempts < asI32 (row.recoveryAttempts + 1))

/-- The id names no finished workflow. -/
def Unfinished (s : Inner) (id : String) : Prop :=
  (s.workflows.get id).all (fun row => !row.status.isTerminal) = true

instance (s : Inner) (id : String) : Decidable (Unfinished s id) := inferInstanceAs (Decidable (_ = true))

/-- A call that neither parks a row nor puts a finished one back, and stores rows that are marked. -/
def KeepsMarks (lib : SerdeJson) (s : Inner) (event : DateTime × Call) : Prop :=
  match event.2 with
  | .insertWorkflowStatus row | .insertChildWorkflow row _ _ _ => Marked row
  | .importWorkflow wfs =>
    importRefused s wfs = true ∨ ∀ wf ∈ wfs, Marked (mapToStatus lib event.1 wf.workflowStatus)
  | .setWorkflowStatus id status _ _ => status.isTerminal = true ∨ Unfinished s id
  | .enqueueExisting id _ => Unfinished s id
  | .claimForRecovery req => parks s req = false
  | _ => True

instance (lib : SerdeJson) (s : Inner) (event : DateTime × Call) : Decidable (KeepsMarks lib s event) := by
  apply Call.casesOn (motive := fun call => Decidable (KeepsMarks lib s (event.1, call))) event.2 <;> intros <;>
    (dsimp only [KeepsMarks]; infer_instance)

theorem step_marked {lib : SerdeJson} {s : Inner} {event : DateTime × Call} (keeps : KeepsMarks lib s event)
    (keyed : Keyed s) (marked : Rows Marked s) : Rows Marked (step lib s event) := by
  obtain ⟨now, call⟩ := event
  refine step_rows marked ?_ ?_ ?_
  · intro id old new here was move
    cases move with
    | same => exact was new rfl
    | inserted row own | child row parent seq returnExisting own => exact keeps
    | written row status output error allowed =>
      have before := was row rfl
      rw [Marked, writeStatus_status, writeStatus_completedAtMs]
      obtain finished | unfinished := keeps
      · simp [finished]
      · rw [Unfinished, here] at unfinished
        simp only [Option.all_some, Bool.not_eq_true'] at unfinished
        rw [Marked, unfinished] at before
        split
        next finished => simp [finished]
        next running => simpa [running] using before
    | dequeued row req member =>
      have before := was row rfl
      rw [Marked, dequeueCandidates_enqueued keyed here member] at before
      exact before
    | promoted row nowMs isDue =>
      have before := was row rfl
      rw [Marked, due_delayed isDue] at before
      exact before
    | resumed row unfinished | resumedMany row ids member unfinished => rfl
    | requeued row queue =>
      have before := was row rfl
      simp only [KeepsMarks, Unfinished, here, Option.all_some, Bool.not_eq_true'] at keeps
      rw [Marked, keeps] at before
      exact before
    | cancelled row ids options member =>
      have before := was row rfl
      unfold cancelRow
      split
      · exact before
      · rfl
    | recovered row req own pending executor attempts =>
      have before := was row rfl
      rw [Marked, pending] at before
      have under : ¬ req.maxAttempts < asI32 (row.recoveryAttempts + 1) := by
        intro overrun
        simp [KeepsMarks, parks, own, here, pending, executor, attempts] at keeps
        rw [attempts] at overrun
        omega
      simp only [recoveredRow, under, if_false]
      split
      · exact before
      · rw [Marked, pending]
        exact before
    | refreshed row | delayed row | attributed row => exact was row rfl
  · intro params timeoutMs _ original _
    rfl
  · rintro wfs rfl accepted wf member
    exact keeps.resolve_left (by simp [accepted]) wf member

/-- What retention selects: a `completed_at` before the cutoff. -/
def finishedBefore (cutoff : Int) (row : WorkflowStatus) : Bool := row.completedAtMs.any (· < cutoff)

theorem Marked.seen {row : WorkflowStatus} (marked : Marked row) :
    (∃ cutoff, finishedBefore cutoff row = true) ↔ row.status.isTerminal = true := by
  rw [Marked] at marked
  rw [← marked]
  cases finished : row.completedAtMs with
  | none => simp [finishedBefore, finished]
  | some instant =>
    simp only [Option.isSome_some, iff_true]
    refine ⟨instant + 1, ?_⟩
    simp only [finishedBefore, finished, Option.any_some, decide_eq_true_eq]
    omega

theorem run_marked {lib : SerdeJson} {events : List (DateTime × Call)}
    (keeps : Runs.Along (step lib) (KeepsMarks lib) events Inner.new) : Rows Marked (run lib events Inner.new) := by
  have inv : Keyed (run lib events Inner.new) ∧ Rows Marked (run lib events Inner.new) := by
    refine Runs.invariant (I := fun s => Keyed s ∧ Rows Marked s) ?_ keeps ⟨?_, ?_⟩
    · intro s event here inv
      exact ⟨step_keyed lib s event inv.1, step_marked here inv.1 inv.2⟩
    · intro id row stored
      cases stored
    · intro id row stored
      cases stored
  exact inv.2

/-- Along a run that parks no row and puts no finished one back, `completed_at` marks exactly the
finished workflows, and so retention sees exactly them. -/
theorem completed_marked (lib : SerdeJson) (events : List (DateTime × Call))
    (keeps : Runs.Along (step lib) (KeepsMarks lib) events Inner.new) (id : String) (row : WorkflowStatus)
    (stored : (run lib events Inner.new).workflows.get id = some row) :
    (row.completedAtMs.isSome = true ↔ row.status.isTerminal = true) ∧
      ((∃ cutoff, finishedBefore cutoff row = true) ↔ row.status.isTerminal = true) := by
  have marked := run_marked keeps id row stored
  refine ⟨?_, marked.seen⟩
  rw [Marked] at marked
  rw [marked]

/-- A workflow that is recovered once and then finishes. -/
def finishing : List (DateTime × Call) :=
  [(0, .insertWorkflowStatus (.new 0 "w" "job" .null .pending "e1" "v1")),
    (1000000, .claimForRecovery ⟨"w", "e1", 0, "e2", 1, false⟩),
    (2000000, .setWorkflowStatus "w" .success (some .null) none)]

theorem completed_marked_finishing :
    ∃ row, (run (.reading []) finishing Inner.new).workflows.get "w" = some row ∧ row.status = .success ∧
      row.completedAtMs = some 2 ∧ (row.completedAtMs.isSome = true ↔ row.status.isTerminal = true) := by
  refine ⟨_, rfl, by decide, by decide, ?_⟩
  exact (completed_marked (.reading []) finishing (by decide) "w" _ rfl).1

/-- The same workflow under a cap of zero: the claim parks it. -/
def parking : List (DateTime × Call) :=
  [(0, .insertWorkflowStatus (.new 0 "w" "job" .null .pending "e1" "v1")),
    (1000000, .claimForRecovery ⟨"w", "e1", 0, "e2", 0, false⟩)]

/-- A parked workflow is finished, and no cutoff selects it. -/
theorem parked_unmarked :
    ∃ row, (run (.reading []) parking Inner.new).workflows.get "w" = some row ∧
      row.status = .maxRecoveryAttemptsExceeded ∧ row.status.isTerminal = true ∧ row.completedAtMs = none ∧
      ∀ cutoff, finishedBefore cutoff row = false := by
  refine ⟨_, rfl, by decide, by decide, by decide, ?_⟩
  intro cutoff
  rfl

end Completed

section Outcomes

def Live (status : Status) : Prop := status = .enqueued ∨ status = .delayed ∨ status = .pending

def Bare (row : WorkflowStatus) : Prop := row.output = none ∧ row.error = none ∧ row.errorInfo = none

instance (row : WorkflowStatus) : Decidable (Bare row) := inferInstanceAs (Decidable (_ ∧ _))

/-- The outcome columns are those of the status. -/
def Fitting (row : WorkflowStatus) : Prop :=
  match row.status with
  | .success => row.output.isSome = true ∧ row.error = none ∧ row.errorInfo = none
  | .error => row.output = none ∧ row.error.isSome = true
  | .enqueued | .delayed | .pending => Bare row
  | .cancelled | .maxRecoveryAttemptsExceeded | .other _ => True

instance (row : WorkflowStatus) : Decidable (Fitting row) := by
  unfold Fitting
  split <;> infer_instance

/-- The id names no row with an outcome. -/
def BareAt (s : Inner) (id : String) : Prop := ∀ row ∈ s.workflows.get id, Bare row

/-- The id names no row with an outcome, or a completed one, which a resume leaves alone. -/
def Resumable (s : Inner) (id : String) : Prop :=
  ∀ row ∈ s.workflows.get id, row.status.isCompleted = true ∨ Bare row

instance (s : Inner) (id : String) : Decidable (BareAt s id) := inferInstanceAs (Decidable (∀ row ∈ _, _))

instance (s : Inner) (id : String) : Decidable (Resumable s id) := inferInstanceAs (Decidable (∀ row ∈ _, _))

/-- A status is written with the outcome that goes with it. -/
def FittingWrite (s : Inner) (id : String) (status : Status) (output : Option Value) (error : Option String) : Prop :=
  match status with
  | .success => output.isSome = true ∧ error = none
  | .error => output = none ∧ error.isSome = true
  | .enqueued | .delayed | .pending => output = none ∧ error = none ∧ BareAt s id
  | .cancelled | .maxRecoveryAttemptsExceeded | .other _ => True

instance (s : Inner) (id : String) (status : Status) (output : Option Value) (error : Option String) :
    Decidable (FittingWrite s id status output error) := by
  unfold FittingWrite
  split <;> infer_instance

/-- A call that runs no workflow again whose row still carries an outcome, and stores outcomes with
their status. -/
def KeepsOutcomes (lib : SerdeJson) (s : Inner) (event : DateTime × Call) : Prop :=
  match event.2 with
  | .insertWorkflowStatus row | .insertChildWorkflow row _ _ _ => Fitting row
  | .importWorkflow wfs =>
    importRefused s wfs = true ∨ ∀ wf ∈ wfs, Fitting (mapToStatus lib event.1 wf.workflowStatus)
  | .setWorkflowStatus id status output error => FittingWrite s id status output error
  | .enqueueExisting id _ => BareAt s id
  | .resumeWorkflow id => Resumable s id
  | .resumeWorkflows ids => ∀ id ∈ ids, Resumable s id
  | _ => True

instance (lib : SerdeJson) (s : Inner) (event : DateTime × Call) : Decidable (KeepsOutcomes lib s event) := by
  apply Call.casesOn (motive := fun call => Decidable (KeepsOutcomes lib s (event.1, call))) event.2 <;> intros <;>
    (dsimp only [KeepsOutcomes]; infer_instance)

theorem Fitting.bare {row : WorkflowStatus} (fitting : Fitting row)
    (live : Live row.status) : Bare row := by
  unfold Fitting at fitting
  obtain here | here | here := live <;> (rw [here] at fitting; exact fitting)

theorem Bare.fitting {row : WorkflowStatus} (bare : Bare row)
    (live : Live row.status) : Fitting row := by
  unfold Fitting
  obtain here | here | here := live <;> (rw [here]; exact bare)

/-- An outcome lands on a row that has none. -/
theorem Fitting.outcomeless {status : Status} {row : WorkflowStatus} (fitting : Fitting row)
    (allowed : statusAllowed status row.status = true) (completed : status.isCompleted = true) : Bare row := by
  refine fitting.bare (.inr (.inr ?_))
  cases status with
  | success | error => simpa [statusAllowed] using allowed
  | _ => cases completed

theorem bare_written {lib : SerdeJson} {now : DateTime} {status : Status} {row : WorkflowStatus} (bare : Bare row) :
    Bare (writeStatus lib now status none none row) := by
  have errors := writeStatus_errorless lib now status none row
  refine ⟨?_, errors.1.trans bare.2.1, errors.2.trans bare.2.2⟩
  rw [writeStatus_output]
  exact bare.1

theorem written_fitting {lib : SerdeJson} {now : DateTime} {s : Inner} {id : String} {status : Status}
    {output : Option Value} {error : Option String} {row : WorkflowStatus} (stored : s.workflows.get id = some row)
    (allowed : statusAllowed status row.status = true) (fits : FittingWrite s id status output error)
    (fitting : Fitting row) : Fitting (writeStatus lib now status output error row) := by
  have outputs := writeStatus_output lib now status output error row
  have written := writeStatus_status lib now status output error row
  unfold Fitting
  rw [written]
  cases status with
  | success =>
    obtain ⟨given, rfl⟩ := fits
    obtain ⟨-, message, info⟩ := fitting.outcomeless allowed rfl
    have errors := writeStatus_errorless lib now .success output row
    refine ⟨?_, errors.1.trans message, errors.2.trans info⟩
    rw [outputs]
    simp [given]
  | error =>
    obtain ⟨rfl, given⟩ := fits
    obtain ⟨without, -⟩ := fitting.outcomeless allowed rfl
    obtain ⟨text, rfl⟩ := Option.isSome_iff_exists.mp given
    refine ⟨outputs.trans without, ?_⟩
    rw [writeStatus_error]
    rfl
  | enqueued | delayed | pending =>
    obtain ⟨rfl, rfl, bare⟩ := fits
    exact bare_written (bare row stored)
  | cancelled | maxRecoveryAttemptsExceeded | other => trivial

theorem step_fitting {lib : SerdeJson} {s : Inner} {event : DateTime × Call} (keeps : KeepsOutcomes lib s event)
    (keyed : Keyed s) (fitting : Rows Fitting s) : Rows Fitting (step lib s event) := by
  obtain ⟨now, call⟩ := event
  refine step_rows fitting ?_ ?_ ?_
  · intro id old new here was move
    cases move with
    | same => exact was new rfl
    | inserted row own | child row parent seq returnExisting own => exact keeps
    | written row status output error allowed => exact written_fitting here allowed keeps (was row rfl)
    | dequeued row req member =>
      have bare := (was row rfl).bare (.inl (dequeueCandidates_enqueued keyed here member))
      refine Bare.fitting ?_ (.inr (.inr rfl))
      exact bare
    | promoted row nowMs isDue =>
      have bare := (was row rfl).bare (.inr (.inl (due_delayed isDue)))
      refine Bare.fitting ?_ (.inl rfl)
      exact bare
    | resumed row unfinished =>
      obtain completed | bare := keeps row here
      · rw [unfinished] at completed
        cases completed
      · refine Bare.fitting ?_ (.inr (.inr rfl))
        exact bare
    | resumedMany row ids member unfinished =>
      obtain completed | bare := keeps id member row here
      · rw [unfinished] at completed
        cases completed
      · refine Bare.fitting ?_ (.inr (.inr rfl))
        exact bare
    | requeued row queue => exact Bare.fitting (keeps row here) (.inl rfl)
    | cancelled row ids options member =>
      unfold cancelRow
      split
      · exact was row rfl
      · trivial
    | recovered row req own pending executor attempts =>
      have bare := (was row rfl).bare (.inr (.inr pending))
      unfold recoveredRow
      dsimp only
      split
      · trivial
      · split
        · refine Bare.fitting ?_ (.inl rfl)
          exact bare
        · exact Bare.fitting bare (.inr (.inr pending))
    | refreshed row | delayed row | attributed row => exact was row rfl
  · intro params timeoutMs _ original _
    exact ⟨rfl, rfl, rfl⟩
  · rintro wfs rfl accepted wf member
    exact keeps.resolve_left (by simp [accepted]) wf member

theorem run_fitting {lib : SerdeJson} {events : List (DateTime × Call)}
    (keeps : Runs.Along (step lib) (KeepsOutcomes lib) events Inner.new) : Rows Fitting (run lib events Inner.new) := by
  have inv : Keyed (run lib events Inner.new) ∧ Rows Fitting (run lib events Inner.new) := by
    refine Runs.invariant (I := fun s => Keyed s ∧ Rows Fitting s) ?_ keeps ⟨?_, ?_⟩
    · intro s event here inv
      exact ⟨step_keyed lib s event inv.1, step_fitting here inv.1 inv.2⟩
    · intro id row stored
      cases stored
    · intro id row stored
      cases stored
  exact inv.2

/-- Along a run that writes outcomes with their status and runs no row again that still carries one,
every row has the outcome of its status. -/
theorem outcomes_fitting (lib : SerdeJson) (events : List (DateTime × Call))
    (keeps : Runs.Along (step lib) (KeepsOutcomes lib) events Inner.new) (id : String) (row : WorkflowStatus)
    (stored : (run lib events Inner.new).workflows.get id = some row) : Fitting row :=
  run_fitting keeps id row stored

/-- A workflow that an operator cancels and resumes, and that then fails. -/
def failing : List (DateTime × Call) :=
  [(0, .insertWorkflowStatus (.new 0 "w" "job" .null .pending "e1" "v1")),
    (1000000, .cancelWorkflowsWithOptions ["w"] {}),
    (2000000, .resumeWorkflow "w"),
    (3000000, .setWorkflowStatus "w" .error none (some "no funds"))]

theorem outcomes_fitting_failing :
    ∃ row, (run (.reading []) failing Inner.new).workflows.get "w" = some row ∧ row.status = .error ∧
      row.error = some "no funds" ∧ Fitting row := by
  refine ⟨_, rfl, by decide, by decide, ?_⟩
  exact outcomes_fitting (.reading []) failing (by decide) "w" _ rfl

def overdue : List (DateTime × Call) :=
  [(0, .insertWorkflowStatus (.new 0 "w" "job" .null .pending "e1" "v1")),
    (1000000, .setWorkflowStatus "w" .cancelled none (some "deadline exceeded")),
    (2000000, .resumeWorkflow "w"),
    (3000000, .setWorkflowStatus "w" .success (some (.bool true)) none)]

/-- The resumed run is PENDING and then SUCCESS under the error of the run that was cancelled. -/
theorem resumed_keeps_error :
    (∃ row, (run (.reading []) (overdue.take 3) Inner.new).workflows.get "w" = some row ∧ row.status = .pending ∧
      row.error = some "deadline exceeded" ∧ ¬ Fitting row) ∧
    ∃ row, (run (.reading []) overdue Inner.new).workflows.get "w" = some row ∧ row.status = .success ∧
      row.output = some (.bool true) ∧ row.error = some "deadline exceeded" ∧ ¬ Fitting row := by
  refine ⟨⟨_, rfl, ?_⟩, _, rfl, ?_⟩ <;> decide

end Outcomes

end Durare.Statuses

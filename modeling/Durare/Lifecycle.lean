import Durare.Rows

/-! The provider calls that engine and client operations issue, in any interleaving, and
what they may do to a row that has reached a terminal status. Resuming onto a queue and
releasing a dispatcher's claim are two calls with anything in between. -/
namespace Durare.Lifecycle

open Memory

/-- The store, the ids a resume has reset and still has to put on a queue, and the rows a
dispatcher has claimed and not yet started or released. -/
structure System where
  store : Inner
  resumed : List String
  claimed : List String

def System.new : System := ⟨Inner.new, [], []⟩

inductive Event where
  | call (call : Call)
  | requeue (id queue : String)
  | release (id : String)
deriving DecidableEq, Repr

/-- The calls issued on their own. The two second halves are events of their own, and a
direct status write records an outcome or a cancellation. -/
def issued : Call → Bool
  | .enqueueExisting _ _ => false
  | .setWorkflowStatus _ status _ _ => status.isTerminal
  | _ => true

/-- The ids that a resume call has reset: each owes one requeue. -/
def resumedBy : (call : Call) → Except Error call.Reply → List String
  | .resumeWorkflow id, .ok true => [id]
  | .resumeWorkflows _, .ok ids => ids
  | _, _ => []

def claimedBy : (call : Call) → Except Error call.Reply → List String
  | .dequeueWorkflows _, .ok rows => rows.map (·.id)
  | _, _ => []

def next (lib : SerdeJson) (sys : System) (event : DateTime × Event) : System :=
  match event.2 with
  | .call call =>
    if issued call then
      let (answer, store) := exec lib event.1 call sys.store
      ⟨store, sys.resumed ++ resumedBy call answer, sys.claimed ++ claimedBy call answer⟩
    else sys
  | .requeue id queue =>
    if id ∈ sys.resumed then
      { sys with store := (enqueueExisting event.1 id queue sys.store).2, resumed := sys.resumed.erase id }
    else sys
  | .release id =>
    if id ∈ sys.claimed then
      { sys with
        store := (setWorkflowStatus lib event.1 id .enqueued none none sys.store).2
        claimed := sys.claimed.erase id }
    else sys

abbrev run (lib : SerdeJson) (events : List (DateTime × Event)) : System :=
  Runs.run (next lib) events System.new

def outcome (row : WorkflowStatus) : Status × Option Value × Option String × Option PortableWorkflowError :=
  (row.status, row.output, row.error, row.errorInfo)

def deletes (s : Inner) (id : String) : Event → Prop
  | .call (.deleteWorkflows ids deleteChildren) => id ∈ Call.histories s (.deleteWorkflows ids deleteChildren)
  | _ => False

def resumes (id : String) : Event → Prop
  | .call (.resumeWorkflow target) => target = id
  | .call (.resumeWorkflows ids) => id ∈ ids
  | _ => False

def cancels (s : Inner) (id : String) : Event → Prop
  | .call (.cancelWorkflowsWithOptions ids options) =>
    id ∈ if options.cancelChildren then targetsWithChildren ids s else ids
  | .call (.setWorkflowStatus target status _ _) => target = id ∧ status = .cancelled
  | _ => False

/-- One event between two stores leaves the terminal rows alone: an outcome stays, a
cancelled row moves only by a resume, a parked one only by a resume or a cancellation. -/
structure Kept (s s' : Inner) (event : Event) : Prop where
  completed : ∀ id row, s.workflows.get id = some row → row.status.isCompleted = true →
    ¬ deletes s id event → ∃ row', s'.workflows.get id = some row' ∧ outcome row' = outcome row
  cancelled : ∀ id row, s.workflows.get id = some row → row.status = .cancelled → ¬ deletes s id event →
    (∃ row', s'.workflows.get id = some row' ∧ row'.status = .cancelled) ∨ resumes id event
  parked : ∀ id row, s.workflows.get id = some row → row.status = .maxRecoveryAttemptsExceeded →
    ¬ deletes s id event →
    (∃ row', s'.workflows.get id = some row' ∧ row'.status = .maxRecoveryAttemptsExceeded) ∨
    (∃ row', s'.workflows.get id = some row' ∧ row'.status = .cancelled ∧ cancels s id event) ∨
    resumes id event

/-- Terminal states are absorbing along a run: an outcome stays until its row is deleted,
and every event keeps the other terminal rows. -/
structure Absorbing (lib : SerdeJson) (events : List (DateTime × Event)) : Prop where
  completed : ∀ before middle after, events = before ++ middle ++ after →
    ∀ id row, (run lib before).store.workflows.get id = some row → row.status.isCompleted = true →
    Runs.Along (next lib) (fun sys event => ¬ deletes sys.store id event.2) middle (run lib before) →
    ∃ row', (run lib (before ++ middle)).store.workflows.get id = some row' ∧ outcome row' = outcome row
  each : ∀ before event after, events = before ++ event :: after →
    Kept (run lib before).store (run lib (before ++ [event])).store event.2

def unguarded (sys : System) : Event → List String
  | .requeue id _ => if id ∈ sys.resumed then [id] else []
  | .release id => if id ∈ sys.claimed then [id] else []
  | .call (.forkWorkflowWithTimeout params timeoutMs) =>
    if timeoutMs.any (· < 0) || (sys.store.workflows.get params.originalId).isNone then [] else [params.newId]
  | .call (.importWorkflow wfs) =>
    if importRefused sys.store wfs then [] else importedIds wfs
  | _ => []

/-- No unguarded write of the event meets a terminal row. -/
def Guarded (sys : System) (event : DateTime × Event) : Prop :=
  ∀ id ∈ unguarded sys event.2,
    (sys.store.workflows.get id).all (fun row => !row.status.isTerminal) = true

instance (sys : System) (event : DateTime × Event) : Decidable (Guarded sys event) :=
  inferInstanceAs (Decidable (∀ id ∈ unguarded sys event.2, _))

/-- The provider call an event amounts to in a state, if it makes one. -/
def effective (sys : System) : Event → Option Call
  | .call call => if issued call then some call else none
  | .requeue id queue => if id ∈ sys.resumed then some (.enqueueExisting id queue) else none
  | .release id => if id ∈ sys.claimed then some (.setWorkflowStatus id .enqueued none none) else none

theorem next_store (lib : SerdeJson) (sys : System) (now : DateTime) (event : Event) :
    (next lib sys (now, event)).store =
      match effective sys event with
      | some call => step lib sys.store (now, call)
      | none => sys.store := by
  cases event with
  | call call => by_cases own : issued call = true <;> simp [next, effective, own, step]
  | requeue id queue => by_cases owed : id ∈ sys.resumed <;> simp [next, effective, owed, step, exec]
  | release id => by_cases held : id ∈ sys.claimed <;> simp [next, effective, held, step, exec]

def Spares (id : String) : Call → Prop
  | .enqueueExisting target _ => target ≠ id
  | .setWorkflowStatus target status _ _ => target = id → status.isTerminal = true
  | _ => True

theorem statusAllowed_terminal {target current : Status} (allowed : statusAllowed target current = true)
    (ending : target.isTerminal = true) (terminal : current.isTerminal = true) :
    target = .cancelled ∧ current = .maxRecoveryAttemptsExceeded := by
  cases target <;> cases current <;> simp_all [statusAllowed, Status.isTerminal, Status.isCompleted]

theorem outcome_writeStatus_status (lib : SerdeJson) (now : DateTime) (status : Status)
    (output : Option Value) (error : Option String) (row : WorkflowStatus) :
    (writeStatus lib now status output error row).status = status := by
  unfold writeStatus
  cases output <;> cases error <;> (dsimp only; split <;> rfl)

/-- A move of a terminal row: its outcome stays, or a parked row is cancelled, or a resume
reopens a row that did not complete. -/
theorem move_terminal {lib : SerdeJson} {now : DateTime} {s : Inner} {id : String} {call : Call}
    {row : WorkflowStatus} {new : Option WorkflowStatus} (keyed : Keyed s)
    (stored : s.workflows.get id = some row) (move : RowMove lib now s id call (some row) new)
    (spares : Spares id call) (terminal : row.status.isTerminal = true) :
    (∃ row', new = some row' ∧ outcome row' = outcome row) ∨
    (∃ row', new = some row' ∧ row'.status = .cancelled ∧ row.status = .maxRecoveryAttemptsExceeded ∧
      cancels s id (.call call)) ∨
    (row.status.isCompleted = false ∧ resumes id (.call call)) := by
  cases move with
  | same => exact .inl ⟨row, rfl, rfl⟩
  | written _ status output error allowed =>
    obtain ⟨rfl, parked⟩ := statusAllowed_terminal allowed (spares rfl) terminal
    exact .inr (.inl ⟨_, rfl, outcome_writeStatus_status .., parked, rfl, rfl⟩)
  | refreshed => exact .inl ⟨_, rfl, rfl⟩
  | dequeued _ req member =>
    obtain ⟨_, present, waits⟩ := dequeueCandidates_claimable keyed member
    rw [stored] at present
    cases present
    simp only [claimable, Bool.and_eq_true, beq_iff_eq] at waits
    rw [waits.1.2] at terminal
    cases terminal
  | promoted _ nowMs isDue =>
    simp only [due, Bool.and_eq_true, beq_iff_eq] at isDue
    rw [isDue.1] at terminal
    cases terminal
  | resumed _ unfinished => exact .inr (.inr ⟨unfinished, rfl⟩)
  | resumedMany _ ids member unfinished => exact .inr (.inr ⟨unfinished, member⟩)
  | requeued => exact absurd rfl spares
  | cancelled _ ids options member =>
    by_cases stays : row.status.isCompleted || row.status == .cancelled
    · exact .inl ⟨_, rfl, by simp [cancelRow, stays]⟩
    · right; left
      refine ⟨_, rfl, by simp [cancelRow, stays], ?_, member⟩
      cases status : row.status <;> simp_all [Status.isTerminal, Status.isCompleted]
  | delayed _ delayUntilMs waiting => rw [waiting] at terminal; cases terminal
  | attributed => exact .inl ⟨_, rfl, rfl⟩
  | recovered _ req own pending executor attempts => rw [pending] at terminal; cases terminal

theorem isTerminal_of_isCompleted {status : Status} (completed : status.isCompleted = true) :
    status.isTerminal = true := by
  cases status <;> first | rfl | cases completed

/-- A fork or an import that writes the row of `id` is an unguarded write of it. -/
theorem rewritten_unguarded (lib : SerdeJson) (now : DateTime) {sys : System} {call : Call} {id : String}
    (history : id ∈ call.histories sys.store) (kept : ¬ deletes sys.store id (.call call)) :
    (step lib sys.store (now, call)).workflows.get id = sys.store.workflows.get id ∨
      id ∈ unguarded sys (.call call) := by
  cases call with
  | deleteWorkflows ids deleteChildren => exact absurd history kept
  | forkWorkflowWithTimeout params timeoutMs =>
    have here : id = params.newId := by simpa [Call.histories] using history
    by_cases refused : timeoutMs.any (· < 0) || (sys.store.workflows.get params.originalId).isNone
    · left
      simp only [step, exec, forkWorkflowWithTimeout]
      split
      · rfl
      next inTime =>
        split
        · rfl
        next original present => simp [inTime, present] at refused
    · right
      simp [unguarded, refused, here]
  | importWorkflow wfs =>
    obtain ⟨-, same⟩ | ⟨accepted, -⟩ := importWorkflow_cases lib now wfs sys.store
    · exact .inl (congrArg (·.workflows.get id) same)
    · right
      simpa [unguarded, accepted, Call.histories] using history
  | _ => simp [Call.histories] at history

/-- One event and a terminal row: its outcome stays, or a parked row is cancelled, or a
resume reopens a row that did not complete. -/
theorem next_terminal (lib : SerdeJson) {sys : System} {now : DateTime} {event : Event}
    (keyed : Keyed sys.store) (guarded : Guarded sys (now, event)) {id : String} {row : WorkflowStatus}
    (stored : sys.store.workflows.get id = some row) (terminal : row.status.isTerminal = true)
    (kept : ¬ deletes sys.store id event) :
    (∃ row', (next lib sys (now, event)).store.workflows.get id = some row' ∧ outcome row' = outcome row) ∨
    (∃ row', (next lib sys (now, event)).store.workflows.get id = some row' ∧ row'.status = .cancelled ∧
      row.status = .maxRecoveryAttemptsExceeded ∧ cancels sys.store id event) ∨
    (row.status.isCompleted = false ∧ resumes id event) := by
  have spared : id ∉ unguarded sys event := by
    intro member
    have open_ := guarded id member
    simp [stored, terminal] at open_
  rw [next_store]
  cases event with
  | call call =>
    by_cases own : issued call = true
    · simp only [effective, own, if_true]
      have spares : Spares id call := by
        cases call with
        | enqueueExisting target queue => cases own
        | setWorkflowStatus target status output error => exact fun _ => own
        | _ => trivial
      by_cases history : id ∈ call.histories sys.store
      · obtain same | member := rewritten_unguarded lib now history kept
        · exact .inl ⟨row, same.trans stored, rfl⟩
        · exact absurd member spared
      · exact move_terminal keyed stored (stored ▸ step_row lib now call sys.store id history) spares terminal
    · simp only [effective, own]
      exact .inl ⟨row, stored, rfl⟩
  | requeue target queue =>
    by_cases owed : target ∈ sys.resumed
    · have other : target ≠ id := by rintro rfl; simp [unguarded, owed] at spared
      simp only [effective, owed, if_true]
      have move := step_row lib now (.enqueueExisting target queue) sys.store id (by simp [Call.histories])
      have spares : Spares id (.enqueueExisting target queue) := other
      obtain same | ⟨row', -, -, -, cancel⟩ | ⟨-, resume⟩ :=
        move_terminal keyed stored (stored ▸ move) spares terminal
      · exact .inl same
      · exact cancel.elim
      · exact resume.elim
    · simp only [effective, owed]
      exact .inl ⟨row, stored, rfl⟩
  | release target =>
    by_cases held : target ∈ sys.claimed
    · have other : target ≠ id := by rintro rfl; simp [unguarded, held] at spared
      simp only [effective, held, if_true]
      have move := step_row lib now (.setWorkflowStatus target .enqueued none none) sys.store id
        (by simp [Call.histories])
      have spares : Spares id (.setWorkflowStatus target .enqueued none none) := fun same => absurd same other
      obtain same | ⟨row', -, -, -, -, cancel⟩ | ⟨-, resume⟩ :=
        move_terminal keyed stored (stored ▸ move) spares terminal
      · exact .inl same
      · cases cancel
      · exact resume.elim
    · simp only [effective, held]
      exact .inl ⟨row, stored, rfl⟩

theorem next_kept (lib : SerdeJson) (sys : System) (event : DateTime × Event) (keyed : Keyed sys.store)
    (guarded : Guarded sys event) : Kept sys.store (next lib sys event).store event.2 := by
  refine ⟨?_, ?_, ?_⟩
  · intro id row stored completed kept
    obtain same | ⟨row', -, -, parked, -⟩ | ⟨unfinished, -⟩ :=
      next_terminal lib keyed guarded stored (isTerminal_of_isCompleted completed) kept
    · exact same
    · rw [parked] at completed; cases completed
    · rw [completed] at unfinished; cases unfinished
  · intro id row stored cancelled kept
    obtain ⟨row', stored', same⟩ | ⟨row', -, -, parked, -⟩ | ⟨-, resume⟩ :=
      next_terminal lib keyed guarded stored (by rw [cancelled]; rfl) kept
    · exact .inl ⟨row', stored', (congrArg (·.1) same).trans cancelled⟩
    · rw [cancelled] at parked; cases parked
    · exact .inr resume
  · intro id row stored parked kept
    obtain ⟨row', stored', same⟩ | ⟨row', stored', cancelled, -, cancel⟩ | ⟨-, resume⟩ :=
      next_terminal lib keyed guarded stored (by rw [parked]; rfl) kept
    · exact .inl ⟨row', stored', (congrArg (·.1) same).trans parked⟩
    · exact .inr (.inl ⟨row', stored', cancelled, cancel⟩)
    · exact .inr (.inr resume)

theorem next_keyed (lib : SerdeJson) (sys : System) (event : DateTime × Event) (keyed : Keyed sys.store) :
    Keyed (next lib sys event).store := by
  obtain ⟨now, event⟩ := event
  rw [next_store]
  cases effective sys event with
  | none => exact keyed
  | some call => exact step_keyed lib sys.store (now, call) keyed

theorem run_keyed (lib : SerdeJson) (events : List (DateTime × Event)) : Keyed (run lib events).store := by
  have start : Keyed System.new.store := by intro id row stored; cases stored
  have along := Runs.along_of_forall (next lib) (P := fun _ _ => True) (fun _ _ => trivial) events System.new
  exact Runs.invariant (I := fun sys => Keyed sys.store)
    (fun sys event _ inv => next_keyed lib sys event inv) along start

/-- An outcome stays along guarded events that do not delete its row. -/
theorem completed_along {lib : SerdeJson} {id : String} (events : List (DateTime × Event)) (sys : System)
    (keyed : Keyed sys.store) (guarded : Runs.Along (next lib) Guarded events sys)
    (kept : Runs.Along (next lib) (fun sys event => ¬ deletes sys.store id event.2) events sys)
    (row : WorkflowStatus) (stored : sys.store.workflows.get id = some row)
    (completed : row.status.isCompleted = true) :
    ∃ row', (Runs.run (next lib) events sys).store.workflows.get id = some row' ∧
      outcome row' = outcome row := by
  induction events generalizing sys row with
  | nil => exact ⟨row, stored, rfl⟩
  | cons event events ih =>
    obtain ⟨row', stored', same⟩ := (next_kept lib sys event keyed guarded.1).completed id row stored
      completed kept.1
    have status : row'.status = row.status := congrArg (·.1) same
    have completed' : row'.status.isCompleted = true := status ▸ completed
    obtain ⟨final, storedFinal, sameFinal⟩ := ih (next lib sys event) (next_keyed lib sys event keyed)
      guarded.2 kept.2 row' stored' completed'
    exact ⟨final, storedFinal, sameFinal.trans same⟩

/-- When no requeue, release, fork or import of a run meets a terminal row, terminal
states are absorbing along it. -/
theorem terminal_absorbing (lib : SerdeJson) (events : List (DateTime × Event))
    (guarded : Runs.Along (next lib) Guarded events System.new) : Absorbing lib events := by
  refine ⟨?_, ?_⟩
  · rintro before middle after rfl id row stored completed kept
    rw [List.append_assoc, Runs.along_append, Runs.along_append] at guarded
    have final := completed_along middle (run lib before) (run_keyed lib before) guarded.2.1 kept row stored
      completed
    rwa [run, Runs.run_append]
  · rintro before event after rfl
    rw [Runs.along_append, Runs.along_cons] at guarded
    have last : run lib (before ++ [event]) = next lib (run lib before) event := Runs.run_append ..
    rw [last]
    exact next_kept lib (run lib before) event (run_keyed lib before) guarded.2.1

def doubleResume : List (DateTime × Event) :=
  [(0, .call (.insertWorkflowStatus (.new 0 "w" "job" .null .pending "e1" "v1"))),
    (1, .call (.cancelWorkflowsWithOptions ["w"] {})),
    (2, .call (.resumeWorkflow "w")),
    (3, .call (.resumeWorkflow "w")),
    (4, .requeue "w" "q"),
    (5, .call (.dequeueWorkflows { queueName := "q", executorId := "e1", appVersion := "v1", maxTasks := 10 })),
    (6, .call (.setWorkflowStatus "w" .success (some (.bool true)) none))]

/-- The second half of the second resume puts the finished run back on its queue. -/
theorem resumeOnQueue_reopens_success :
    ¬ ∀ (lib : SerdeJson) (events : List (DateTime × Event)), Absorbing lib events := by
  intro absorbing
  have kept := (absorbing (.reading []) (doubleResume ++ [(7, .requeue "w" "q")])).each doubleResume
    (7, .requeue "w" "q") [] rfl
  have finished : ((run (.reading []) doubleResume).store.workflows.get "w").map (·.status) = some .success := by
    decide
  have reopened : ((run (.reading []) (doubleResume ++ [(7, .requeue "w" "q")])).store.workflows.get "w").map
      (·.status) = some .enqueued := by decide
  obtain ⟨row, stored, status⟩ := Option.map_eq_some_iff.mp finished
  obtain ⟨row', stored', same⟩ := kept.completed "w" row stored (by rw [status]; rfl) id
  rw [stored', Option.map_some, Option.some_inj] at reopened
  have unchanged : row'.status = row.status := congrArg (·.1) same
  rw [reopened, status] at unchanged
  cases unchanged

/-- One resume onto a queue, dispatched and finished with nothing in between. -/
theorem terminal_absorbing_single_resume :
    Absorbing (.reading []) (doubleResume.eraseIdx 3) :=
  terminal_absorbing _ _ (by decide)

end Durare.Lifecycle

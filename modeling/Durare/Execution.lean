import Durare.Context
import Durare.Rows

/-! One execution of a workflow on the in-memory provider: how its asks are answered, what
the others may do meanwhile, and what a position of its history stands for. -/
namespace Durare.Execution

open Interaction Memory

abbrev State := Inner × Option Error

/-- What the outside supplies to one ask: the clock, fresh ids, and how the body's own
closures end. -/
structure Input (δ : Type) where
  now : DateTime := 0
  fresh : String := ""
  random : Number := .posInt 0
  body : BodyEnd δ := .panicked ""
  race : Option (Nat × δ) := none

def answer {δ : Type} (lib : SerdeJson) (input : Input δ) : (q : Ask) → State → Ask.Reply δ q × State
  | .call c, (store, latch) =>
    let (reply, store) := exec lib input.now c store
    (reply, (store, latch))
  | .now, s => (input.now, s)
  | .fresh, s => (input.fresh, s)
  | .random, s => (input.random, s)
  | .body _ _, s => (input.body, s)
  | .race _, s => (input.race, s)
  | .wait, s => ((), s)
  | .check, (store, latch) =>
    (match latch with
      | none => .ok ()
      | some cause => .error (.recoveryRequired cause), (store, latch))
  | .interrupt cause, (store, latch) =>
    let first := latch.getD cause
    (.recoveryRequired first, (store, some first))

def check : Option Error → Except Error Unit
  | none => .ok ()
  | some cause => .error (.recoveryRequired cause)

/-- `claim_position`: a call of an interrupted execution is refused, and so is one whose
arguments are; neither takes a position. A child start looks at the latch first. -/
def accepts {δ : Type} (op : Op δ) (latch : Option Error) : Except Error Unit :=
  match op with
  | .startWorkflow .. => (check latch).bind fun _ => op.prepare
  | _ => op.prepare.bind fun _ => check latch

/-- The workflow exists and is not cancelled. -/
def Runnable (w : String) (s : Inner) : Prop :=
  ∃ row, s.workflows.get w = some row ∧ row.status ≠ .cancelled

instance (w : String) (s : Inner) : Decidable (Runnable w s) :=
  match present : s.workflows.get w with
  | none => .isFalse (by simp [Runnable, present])
  | some row => decidable_of_iff (row.status ≠ .cancelled) (by simp [Runnable, present])

def Cancels (w : String) (s : Inner) : Call → Prop
  | .setWorkflowStatus id status _ _ => id = w ∧ status = .cancelled
  | .cancelWorkflowsWithOptions ids options => w ∈ if options.cancelChildren then targetsWithChildren ids s else ids
  | _ => False

instance (w : String) (s : Inner) : ∀ call, Decidable (Cancels w s call)
  | .setWorkflowStatus id status _ _ => inferInstanceAs (Decidable (id = w ∧ status = .cancelled))
  | .cancelWorkflowsWithOptions ids options =>
    inferInstanceAs (Decidable (w ∈ if options.cancelChildren then targetsWithChildren ids s else ids))
  | .insertWorkflowStatus .. | .getDeduplicatedWorkflow .. | .getWorkflowStatus .. | .getStepResult ..
  | .recordStepResult .. | .dequeueWorkflows .. | .transitionDelayedWorkflows .. | .insertNotification ..
  | .insertNotifications .. | .sendFromWorkflow .. | .consumeNotification .. | .upsertEvent ..
  | .getEventValue .. | .resumeWorkflow .. | .resumeWorkflows .. | .enqueueExisting .. | .deleteWorkflows ..
  | .setWorkflowDelay .. | .setWorkflowAttributes .. | .forkWorkflowWithTimeout .. | .claimForRecovery ..
  | .insertChildWorkflow .. | .recordChildWorkflow .. | .checkChildWorkflow .. | .getStepName ..
  | .recordPatch .. | .writeStream .. | .writeStreamFromWorkflow .. | .importWorkflow ..
  | .createApplicationVersion .. | .setLatestApplicationVersion .. => inferInstanceAs (Decidable False)

/-- A call of others: it records nothing at the workflow's positions, replaces no history
of it and does not cancel it. -/
def Others (w : String) (s : Inner) (call : Call) : Prop :=
  call.position.all (·.1 ≠ w) = true ∧ w ∉ call.histories s ∧ ¬ Cancels w s call

instance (w : String) (s : Inner) (call : Call) : Decidable (Others w s call) :=
  inferInstanceAs (Decidable (_ ∧ _ ∧ _))

/-- What a running call counts on while others act. -/
structure Rely (w : String) (s s' : State) : Prop where
  steps : ∀ seq, s'.1.steps.get (w, seq) = s.1.steps.get (w, seq)
  runnable : Runnable w s.1 → Runnable w s'.1
  closed : ∀ key, Closed s.1 w key → Closed s'.1 w key
  latch : s'.2 = s.2

/-- No call but a cancellation takes a workflow off the runnable ones. -/
theorem step_runnable {lib : SerdeJson} {now : DateTime} {call : Call} {s : Inner} {w : String}
    (kept : w ∉ call.histories s) (uncancelled : ¬ Cancels w s call) (runnable : Runnable w s) :
    Runnable w (step lib s (now, call)) := by
  obtain ⟨row, present, live⟩ := runnable
  have move := step_row lib now call s w kept
  rw [present] at move
  generalize after : (step lib s (now, call)).workflows.get w = new at move
  cases move with
  | same => exact ⟨row, after, live⟩
  | written _ status output error allowed =>
    refine ⟨_, after, ?_⟩
    have status_eq : (writeStatus lib now status output error row).status = status := by
      unfold writeStatus
      cases output <;> cases error <;> (dsimp only; split <;> rfl)
    rw [status_eq]
    exact fun cancel => uncancelled ⟨rfl, cancel⟩
  | cancelled _ ids options member => exact absurd member uncancelled
  | recovered _ req own pending executor attempts =>
    refine ⟨_, after, ?_⟩
    unfold recoveredRow
    dsimp only
    split
    · simp
    · split
      · simp
      · simp [pending]
  | refreshed | delayed | attributed => exact ⟨_, after, live⟩
  | dequeued | promoted | resumed | resumedMany | requeued =>
    exact ⟨_, after, by simp [claimRow, resumeRow]⟩

theorem others_rely {lib : SerdeJson} {now : DateTime} {call : Call} {s : State} {w : String}
    (others : Others w s.1 call) : Rely w s (step lib s.1 (now, call), s.2) where
  steps := by
    intro seq
    obtain same | ⟨-, here⟩ := step_steps lib now call s.1 (w, seq) others.2.1
    · exact same
    · have apart := others.1
      rw [here] at apart
      simp at apart
  runnable := step_runnable others.2.1 others.2.2
  closed := fun key => step_closed lib now call s.1 w key others.2.1
  latch := rfl

theorem Rely.refl (w : String) (s : State) : Rely w s s := ⟨fun _ => rfl, id, fun _ => id, rfl⟩

theorem Rely.trans {w : String} {a b c : State} (first : Rely w a b) (second : Rely w b c) : Rely w a c where
  steps := fun seq => (second.steps seq).trans (first.steps seq)
  runnable := second.runnable ∘ first.runnable
  closed := fun key => second.closed key ∘ first.closed key
  latch := second.latch.trans first.latch

section Positions

variable {δ α : Type} (ctx : Context)

/-- What the body gets from a recorded outcome. An error record that cannot be read
interrupts the execution. -/
def recorded (codec : Codec α) : StepOutcome → Except Error α
  | .output value => serdeResult (codec.fromValue value)
  | .failure message info =>
    match tryFromParts ctx.lib message info with
    | .ok error => .error error
    | .error error => .error (if error.isStorageFailure then .recoveryRequired error.cause else error)

def replay (seq : Int) (op : Op δ) (row : StepRow) : Outcome δ :=
  let outcome := stepRowOutcome ctx.lib row
  match op with
  | .step _ codec | .stepWith _ _ _ codec => (recorded ctx codec outcome).map .value
  | .select _ codec => (recorded ctx codec outcome).map fun winner => .winner winner.1 winner.2
  | .sleep _ => (recorded ctx ctx.builtins.instants outcome).map fun _ => .unit
  | .now => (recorded ctx ctx.builtins.instants outcome).map .instant
  | .uuid => (recorded ctx ctx.builtins.strings outcome).map .text
  | .random => (recorded ctx ctx.builtins.floats outcome).map .number
  | .recv _ _ codec | .getEvent _ _ _ codec => (recorded ctx codec.optional outcome).map .message
  | .startWorkflow _ _ _ =>
    match row.childWorkflowId with
    | some id => .ok (.child id)
    | none =>
      match recorded ctx .value outcome with
      | .ok _ => .error (.unexpectedStep ctx.workflowId seq "child workflow" "ordinary step")
      | .error e => .error e
  | .send .. | .sendBulk _ | .setWorkflowAttributes .. | .setEvent .. | .writeStream .. | .closeStream _ =>
    (recorded ctx .value outcome).map fun _ => .unit

/-- The refusals a call makes again at every execution: of its arguments, and of a stream
that is closed for good. -/
def refusal (op : Op δ) (s : Inner) : Option Error :=
  match op with
  | .writeStream key _ | .closeStream key =>
    if Closed s ctx.workflowId key then some (.ofMessage s!"stream `{key}` is already closed") else none
  | .startWorkflow name _ opts =>
    match Runtime.validateChildArguments name opts with
    | .error e => some e
    | .ok _ => none
  | _ => none

/-- The call at the position always ends with `result`: its row says so, or it is refused
without one. -/
def Settles (seq : Int) (op : Op δ) (result : Outcome δ) (s : Inner) : Prop :=
  (∃ row, s.steps.get (ctx.workflowId, seq) = some row ∧ row.name = op.name ∧ result = replay ctx seq op row) ∨
  (s.steps.get (ctx.workflowId, seq) = none ∧ ∃ e, refusal ctx op s = some e ∧ result = .error e)

/-- The timer of a wait, readable. -/
def Deadline (row : StepRow) : Prop :=
  row.name = "DBOS.sleep" ∧ row.error = none ∧
    ∃ value instant, row.output = some value ∧ ctx.builtins.instants.fromValue value = .ok instant

/-- What earlier executions can have left at the positions of a call: nothing, its own row,
and for a wait its timer. -/
structure Begun (seq : Int) (op : Op δ) (s : Inner) : Prop where
  own : ∀ row, s.steps.get (ctx.workflowId, seq) = some row → row.name = op.name
  timer : op.waits = true → ∀ row, s.steps.get (ctx.workflowId, nextSeq seq) = some row → Deadline ctx row

/-- A provider call that finds what it looks for: the destinations of a message, the workflow
whose attributes are set, an event that is not null. -/
def Meets (s : Inner) : Call → Prop
  | .sendFromWorkflow _ _ _ rows => ∀ row ∈ rows, (s.workflows.get row.1.destinationId).isSome = true
  | .setWorkflowAttributes id _ => (s.workflows.get id).isSome = true
  | .getEventValue id key => s.events.get (id, key) ≠ some .null
  | _ => True

instance (s : Inner) : ∀ call, Decidable (Meets s call)
  | .sendFromWorkflow _ _ _ rows => inferInstanceAs (Decidable (∀ row ∈ rows, _))
  | .setWorkflowAttributes id _ => inferInstanceAs (Decidable ((s.workflows.get id).isSome = true))
  | .getEventValue id key => inferInstanceAs (Decidable (s.events.get (id, key) ≠ some .null))
  | .insertWorkflowStatus .. | .getDeduplicatedWorkflow .. | .getWorkflowStatus .. | .setWorkflowStatus ..
  | .getStepResult .. | .recordStepResult .. | .dequeueWorkflows .. | .transitionDelayedWorkflows ..
  | .insertNotification .. | .insertNotifications .. | .consumeNotification .. | .upsertEvent ..
  | .resumeWorkflow .. | .resumeWorkflows .. | .enqueueExisting .. | .cancelWorkflowsWithOptions ..
  | .deleteWorkflows .. | .setWorkflowDelay .. | .forkWorkflowWithTimeout .. | .claimForRecovery ..
  | .insertChildWorkflow .. | .recordChildWorkflow .. | .checkChildWorkflow .. | .getStepName ..
  | .recordPatch .. | .writeStream .. | .writeStreamFromWorkflow .. | .importWorkflow ..
  | .createApplicationVersion .. | .setLatestApplicationVersion .. => inferInstanceAs (Decidable True)

/-- Answers that stay clear of the outcomes a call does not record: its provider calls find
what they look for, and no closure ends with its own workflow's cancellation. -/
def Proper (w : String) (input : Input δ) (s : Inner) : Ask → Prop
  | .call c => Meets s c
  | .body _ _ =>
    match input.body with
    | .returned (.error e) => e.isCancellationFor w = false
    | _ => True
  | _ => True

instance (w : String) (input : Input δ) (s : Inner) : ∀ q, Decidable (Proper w input s q)
  | .call c => inferInstanceAs (Decidable (Meets s c))
  | .body _ _ =>
    match ended : input.body with
    | .returned (.error e) => decidable_of_iff (e.isCancellationFor w = false) (by simp [Proper, ended])
    | .returned (.ok _) => .isTrue (by simp [Proper, ended])
    | .panicked _ => .isTrue (by simp [Proper, ended])
  | .now | .fresh | .random | .race _ | .wait | .check | .interrupt _ => inferInstanceAs (Decidable True)

def Clear (w : String) (proper : Input δ → Inner → Ask → Prop) : Prop :=
  ∀ input s q, proper input s q → Proper w input s q

/-- The surroundings of a running call: what the others may do, and the answers that come. -/
def world (proper : Input δ → Inner → Ask → Prop) : World State Ask (Ask.Reply δ) where
  rely := Rely ctx.workflowId
  serves q s reply s' := ∃ input, proper input s.1 q ∧ answer ctx.lib input q s = (reply, s')
  refl := Rely.refl ctx.workflowId
  trans := Rely.trans

/-- What a call may do with one ask: run a closure only while its position is vacant, and
record only at its own positions, once. -/
structure May (seq : Int) (op : Op δ) (q : Ask) (s s' : State) : Prop where
  bodies : (∃ position attempt, q = .body position attempt) ∨ (∃ position, q = .race position) →
    s.1.steps.get (ctx.workflowId, seq) = none
  steps : ∀ p, s'.1.steps.get (ctx.workflowId, p) = s.1.steps.get (ctx.workflowId, p) ∨
    (s.1.steps.get (ctx.workflowId, p) = none ∧ ∃ row, s'.1.steps.get (ctx.workflowId, p) = some row ∧
      (p = seq ∧ row.name = op.name ∧ refusal ctx op s.1 = none ∨
        p = nextSeq seq ∧ op.waits = true ∧ Deadline ctx row))
  runnable : Runnable ctx.workflowId s.1 → Runnable ctx.workflowId s'.1
  closed : ∀ key, Closed s.1 ctx.workflowId key → Closed s'.1 ctx.workflowId key

/-- How a call ends: its position is settled, or the execution is interrupted with nothing
recorded. -/
def Ends (seq : Int) (op : Op δ) (result : Outcome δ) (s : State) : Prop :=
  Settles ctx seq op result s.1 ∨ (s.1.steps.get (ctx.workflowId, seq) = none ∧ s.2.isSome = true)

end Positions

end Durare.Execution

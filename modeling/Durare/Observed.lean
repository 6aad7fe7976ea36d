import Durare.Replay

/-! What a call learns from the database it hands to the body with a row that says so. A refusal
by the provider has no such row, so the runs here are those without one. -/
namespace Durare.Observed

open Interaction Memory Execution Replay

variable {δ : Type} {ctx : Context} {body : Body δ}

def unclosed (s : Inner) : Call → Bool
  | .writeStreamFromWorkflow id _ _ key _ => !decide (Closed s id key)
  | _ => true

/-- No provider call of the workflow is refused: what it looks for is there, and the streams it
writes are open. -/
def Unrefused (w : String) (input : Input δ) (s : Inner) (q : Ask) : Prop :=
  Proper w input s q ∧ ∀ c ∈ q.provider, unclosed s c = true

instance (w : String) (input : Input δ) (s : Inner) (q : Ask) : Decidable (Unrefused w input s q) :=
  inferInstanceAs (Decidable (_ ∧ ∀ c ∈ q.provider, _))

def ArgumentsRefused : Op δ → Prop
  | .startWorkflow name _ opts => Runtime.validateChildArguments name opts ≠ .ok ()
  | _ => False

/-- The outcome is recorded, unless the execution is interrupted or the call's own arguments
decide it. -/
def Recorded (op : Op δ) (row : Option StepRow) (interrupted : Bool) : Prop :=
  interrupted = false → row.isSome = true ∨ ArgumentsRefused op

theorem unrefused_clear (w : String) : Clear w (Unrefused (δ := δ) w) := fun _ _ _ fits => fits.1

def Filled (ctx : Context) (seq : Int) (s : State) : Prop := (s.1.steps.get (ctx.workflowId, seq)).isSome = true

theorem filled_stable {seq : Int} : Stable ctx (Filled ctx seq) := by
  intro s s' filled moved
  rw [Filled, moved.steps]
  exact filled

theorem holds_filled {seq : Int} {op : Op δ} {row : StepRow} {s : State} (holds : Holds ctx seq op row s) :
    Filled ctx seq s := by
  rw [Filled, holds.1]
  rfl

/-- A stream operation that is not refused has its row. -/
theorem appendStream_filled {seq : Int} {op : Op δ} {name : String} (named : op.name = name) (key : String)
    (value : Option Value) {s : State} (ready : Ready ctx seq op s) :
    Safe (world ctx (Unrefused ctx.workflowId)) (fun _ _ _ => True) (fun _ s => Filled ctx seq s)
      (ctx.appendStream seq name key value : Act δ Unit) s := by
  have gate : Safe (world ctx (Unrefused ctx.workflowId)) (fun _ _ _ => True) (Gate ctx seq op .value)
      (ctx.replayOrGuard seq name .value : Act δ (Option Value)) s :=
    Safe.free (replayOrGuard_does named .value ready)
  refine Safe.bind gate ?_
  intro result s reached
  match result with
  | .error e =>
    obtain ⟨row, holds, -⟩ := reached
    exact fun s' moved => filled_stable s s' (holds_filled holds) moved
  | .ok (some stored) =>
    obtain ⟨row, holds, -⟩ := reached
    exact fun s' moved => filled_stable s s' (holds_filled holds) moved
  | .ok none =>
    have live : Live ctx seq op s := reached
    rintro s' moved reply s'' ⟨input, unrefused, answered⟩
    have here := live_stable s s' live moved
    have unclosed : ¬ Closed s'.1 ctx.workflowId key := by
      have free := unrefused.2 (.writeStreamFromWorkflow ctx.workflowId seq name key value) (by simp [Ask.provider])
      simpa [unclosed] using free
    have written : exec ctx.lib input.now (.writeStreamFromWorkflow ctx.workflowId seq name key value) s'.1 = _ :=
      writeStreamFromWorkflow_open here.vacant unclosed
    simp only [answer, written] at answered
    cases answered
    refine ⟨trivial, fun t later => filled_stable _ t ?_ later⟩
    simp [Filled, Memory.checkpoint]

/-- The run of a stream operation, around `append_stream`. -/
theorem stream_filled {seq : Int} {op : Op δ} {name : String} (named : op.name = name) (key : String)
    (value : Option Value) {s : State} (ready : Ready ctx seq op s) :
    Safe (world ctx (Unrefused ctx.workflowId)) (fun _ _ _ => True) (fun _ s => Filled ctx seq s)
      (do
        ctx.appendStream seq name key value
        Pure.pure .unit : Act δ (Reply δ)) s := by
  refine Safe.bind (appendStream_filled named key value ready) ?_
  intro result s filled
  cases result with
  | ok _ => exact fun s' moved => filled_stable s s' filled moved
  | error e => exact fun s' moved => filled_stable s s' filled moved

theorem recorded_of_ends {seq : Int} {op : Op δ} {result : Outcome δ} {s : State} (ends : Ends ctx seq op result s)
    (filled : ∀ e, refusal ctx op s.1 = some e → Filled ctx seq s ∨ ArgumentsRefused op) :
    Recorded op (s.1.steps.get (ctx.workflowId, seq)) s.2.isSome := by
  intro uninterrupted
  rcases ends with (⟨row, present, -⟩ | ⟨-, e, refused, -⟩) | ⟨-, interrupted⟩
  · left
    rw [present]
    rfl
  · exact filled e refused
  · rw [interrupted] at uninterrupted
    cases uninterrupted

/-- Every call that is not refused ends with its outcome recorded. -/
theorem starts_unrefused (ctx : Context) : Starts ctx (Unrefused (δ := δ) ctx.workflowId) Recorded := by
  intro rt rounds seq op s prepared ready
  have ends : Safe (world (on ctx rt) (Unrefused ctx.workflowId)) (May (on ctx rt) seq op)
      (Ends (on ctx rt) seq op) (op.run (on ctx rt) rounds seq) s :=
    run_ends (unrefused_clear (on ctx rt).workflowId) rounds prepared ready
  have unrefusing : (∀ s e, refusal (on ctx rt) op s = some e → ArgumentsRefused op) →
      Safe (world (on ctx rt) (Unrefused ctx.workflowId)) (May (on ctx rt) seq op) (fun r s =>
        Ends (on ctx rt) seq op r s ∧ Recorded op (s.1.steps.get (ctx.workflowId, seq)) s.2.isSome)
        (op.run (on ctx rt) rounds seq) s := fun arguments =>
    ends.mono fun r s ended => ⟨ended, recorded_of_ends ended fun e refused => .inr (arguments s.1 e refused)⟩
  have streams : Safe (world (on ctx rt) (Unrefused ctx.workflowId)) (fun _ _ _ => True)
      (fun (_ : Outcome δ) s => Filled (on ctx rt) seq s) (op.run (on ctx rt) rounds seq) s →
      Safe (world (on ctx rt) (Unrefused ctx.workflowId)) (May (on ctx rt) seq op) (fun r s =>
        Ends (on ctx rt) seq op r s ∧ Recorded op (s.1.steps.get (ctx.workflowId, seq)) s.2.isSome)
        (op.run (on ctx rt) rounds seq) s := fun filled =>
    (ends.and filled).mono fun r s ended => ⟨ended.1, recorded_of_ends ended.1 fun _ _ => .inl ended.2⟩
  cases op with
  | writeStream key value =>
    refine streams ?_
    cases value with
    | ok v =>
      have named : (Op.writeStream key (.ok v) : Op δ).name = "DBOS.writeStream" := rfl
      exact stream_filled named key (some v) ready
    | error message => cases prepared
  | closeStream key =>
    refine streams ?_
    have named : (Op.closeStream key : Op δ).name = "DBOS.closeStream" := rfl
    exact stream_filled named key none ready
  | startWorkflow name input opts =>
    refine unrefusing ?_
    intro s e refused valid
    simp only [refusal, valid] at refused
    cases refused
  | _ => exact unrefusing fun s e refused => by cases refused

/-- Observed facts are recorded: in every run in which no provider call of the workflow is
refused, an outcome is handed over with the row that records it, and every execution that comes
to the position later hands over the same. -/
theorem observed_recorded {store : Inner} (runnable : Runnable ctx.workflowId store)
    (empty : ∀ seq, store.steps.get (ctx.workflowId, seq) = none) (events : List (Event δ)) {s : System δ}
    (allowed : Runs.Along (next ctx body) (Allowed ctx (Unrefused ctx.workflowId)) events (System.fresh store))
    (reached : run ctx body events (System.fresh store) = s) :
    ∀ entry ∈ s.log, entry.interrupted = false → ¬ ArgumentsRefused entry.op →
      (∃ row, entry.row = some row ∧ entry.result = replay ctx entry.seq entry.op row) ∧
      ∀ again ∈ s.log, again.seq = entry.seq → again.interrupted = false → again.result = entry.result := by
  subst reached
  obtain ⟨canon, inv⟩ := run_inv (starts_unrefused ctx) runnable empty allowed
  intro entry member uninterrupted arguments
  have logged := inv.log entry member
  obtain there | refused := logged.fact uninterrupted
  · obtain ⟨row, present⟩ := Option.isSome_iff_exists.mp there
    refine ⟨⟨row, present, logged.replayed row present⟩, ?_⟩
    intro again other seq settled
    exact (inv.agree other member seq (.inr settled) (.inl there)).2
  · exact absurd refused arguments

def notifying : Body Value
  | [] => some (.send "other" "news" (.ok (.bool true)))
  | _ => none

def otherRow : WorkflowStatus := .new 0 "other" "job" .null .pending "e1" "v1"

/-- The message is sent; then its destination is deleted and the process starts again. -/
def destinationDeleted : List (Event Value) :=
  execution [List.replicate 5 {}] ++ [.crash, .others 0 (.deleteWorkflows ["other"] false)] ++
    execution [List.replicate 5 {}]

theorem observed_recorded_deleted :
    ((run .plain notifying destinationDeleted (System.fresh (stored.putRow "other" otherRow))).log.map fun entry =>
      (entry.seq, entry.found.isSome, entry.result)) = [(0, false, .ok .unit), (0, true, .ok .unit)] ∧
    ∀ entry ∈ (run .plain notifying destinationDeleted (System.fresh (stored.putRow "other" otherRow))).log,
      entry.interrupted = false → ¬ ArgumentsRefused entry.op →
      (∃ row, entry.row = some row ∧ entry.result = replay .plain entry.seq entry.op row) ∧
      ∀ again ∈ (run .plain notifying destinationDeleted (System.fresh (stored.putRow "other" otherRow))).log,
        again.seq = entry.seq → again.interrupted = false → again.result = entry.result :=
  ⟨by decide, observed_recorded (by decide) (fun _ => rfl) destinationDeleted (by decide) rfl⟩

/-- The destination does not exist when the message is first sent. -/
def destinationCreated : List (Event Value) :=
  execution [List.replicate 5 {}] ++ [.crash, .others 0 (.insertWorkflowStatus otherRow)] ++
    execution [List.replicate 5 {}]

/-- The refusal of a message is handed to the body without a row, and later it is not made. -/
theorem refused_send_unrecorded :
    Runs.Along (next .plain notifying) (Allowed .plain anyAnswer) destinationCreated (System.fresh stored) ∧
    ((run .plain notifying destinationCreated (System.fresh stored)).log.map fun entry =>
      (entry.seq, entry.interrupted, entry.row.isSome, entry.result)) =
        [(0, false, false, .error (.nonExistentWorkflow "other")), (0, false, true, .ok .unit)] := by
  decide

end Durare.Observed

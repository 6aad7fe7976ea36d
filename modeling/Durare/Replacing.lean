import Durare.Positions
import Durare.Verify

/-! Replacing effects. `set_event` and `set_workflow_attributes` replace a value and then record that they
did: two provider calls, behind one look at the position. Any number of executions of a body make them. -/
namespace Durare.Overwrites

open Interaction Execution Memory

/-- A value that durable calls replace, and what stands there after a replacement. -/
structure Cell (ω : Type) where
  name : String
  replace : ω → Call
  visible : Inner → Option Value
  shows : ω → Option Value

def event (id key : String) : Cell Value where
  name := "DBOS.setEvent"
  replace := .upsertEvent id key
  visible s := s.events.get (id, key)
  shows := some

def attributes (target : String) : Cell (Option Columns) where
  name := "DBOS.updateWorkflowAttributes"
  replace := .setWorkflowAttributes target
  visible s := (s.workflows.get target).bind (·.attributes)
  shows attributes := (attributes.filter (· ≠ [])).map .object

section Calls

variable {δ ω : Type} (ctx : Context) (cell : Cell ω) (seq : Int) (v : ω)

def recording : Act δ Unit := do
  let _ ← ctx.recordStep seq cell.name .null none none
  pure ()

def replacing : Act δ Unit := do
  let _ ← Context.call (cell.replace v)
  recording ctx cell seq

def guarding : Act δ Unit := do
  ctx.guardCancelled
  replacing ctx cell seq v

def replaceCall : Act δ Unit := do
  match ← ctx.serveRecorded seq cell.name .value with
  | some _ => pure ()
  | none => guarding ctx cell seq v

def asked : Act δ Unit → Option Ask
  | .ask q _ => some q
  | _ => none

end Calls

theorem setEvent_eq {δ : Type} (ctx : Context) (seq : Int) (key : String) (value : Value) :
    (ctx.setEvent seq key value : Act δ Unit) = replaceCall ctx (event ctx.workflowId key) seq value := by
  unfold Context.setEvent Context.replayOrGuard replaceCall
  rw [Verify.act_bind_assoc]
  congr 1
  funext found
  cases found with
  | some _ => rfl
  | none => exact Verify.act_bind_assoc ..

theorem setWorkflowAttributes_eq {δ : Type} (ctx : Context) (seq : Int) (id : String) (replaced : Option Columns) :
    (ctx.setWorkflowAttributes seq id replaced : Act δ Unit) = replaceCall ctx (attributes id) seq replaced := by
  unfold Context.setWorkflowAttributes Context.replayOrGuard replaceCall
  rw [Verify.act_bind_assoc]
  congr 1
  funext found
  cases found with
  | some _ => rfl
  | none => exact Verify.act_bind_assoc ..

/-- One execution of the body: what its replacing calls returned, its latch, and the call that runs. -/
structure Runner (δ : Type) where
  results : List (Except Error Unit)
  latch : Option Error
  rest : Option (Act δ Unit)

def Runner.new (δ : Type) : Runner δ := ⟨[], none, none⟩

/-- The provider, the executions, the calls in the order of their replacements, and the call whose value
stands in the cell. -/
structure System (δ : Type) where
  store : Inner
  runners : List (Option (Runner δ))
  replaced : List Nat
  shown : Option Nat

def System.start (δ : Type) (store : Inner) : System δ := ⟨store, [], [], none⟩

def System.runner {δ : Type} (sys : System δ) (i : Nat) : Option (Runner δ) := sys.runners[i]?.join

/-- Executions begin at any time, make the body's next replacing call, go on by one ask, or end. -/
inductive Event (δ : Type) where
  | others (now : DateTime) (call : Call)
  | start
  | call (i : Nat)
  | tick (i : Nat) (input : Input δ)
  | crash (i : Nat)

section Machine

variable {δ ω : Type} (ctx : Context) (cell : Cell ω) (calls : List (Int × ω))

/-- The ask is the replacement of the call with this number. -/
def replaces (k : Nat) (q : Ask) : Prop := ∃ call ∈ calls[k]?, q = .call (cell.replace call.2)

instance (k : Nat) (q : Ask) : Decidable (replaces cell calls k q) :=
  inferInstanceAs (Decidable (∃ call, calls[k]? = some call ∧ q = .call (cell.replace call.2)))

/-- Whose value stands in the cell when the store moves and no call replaces it. -/
def stays (sys : System δ) (store : Inner) : Option Nat :=
  if cell.visible store = cell.visible sys.store then sys.shown else none

def accepted (lib : SerdeJson) (now : DateTime) (s : Inner) : Ask → Bool
  | .call c => (exec lib now c s).1.isOk
  | _ => false

def issue (i : Nat) (runner : Runner δ) (call : Int × ω) (sys : System δ) : System δ :=
  match check runner.latch with
  | .error e => { sys with runners := sys.runners.set i (some { runner with results := runner.results ++ [.error e] }) }
  | .ok _ => { sys with runners := sys.runners.set i (some { runner with rest := some (replaceCall ctx cell call.1 call.2) }) }

def tick (i : Nat) (input : Input δ) (runner : Runner δ) (act : Act δ Unit) (sys : System δ) : System δ :=
  match act with
  | .done result =>
    { sys with runners := sys.runners.set i (some { runner with results := runner.results ++ [result], rest := none }) }
  | .halt => { sys with runners := sys.runners.set i none }
  | .ask q k =>
    let (reply, store, latch) := answer ctx.lib input q (sys.store, runner.latch)
    let runners := sys.runners.set i (some { runner with latch := latch, rest := some (k reply) })
    let number := runner.results.length
    if replaces cell calls number q ∧ accepted ctx.lib input.now sys.store q then
      { store := store, runners := runners, replaced := sys.replaced ++ [number], shown := some number }
    else { sys with store := store, runners := runners, shown := stays cell sys store }

def next (sys : System δ) : Event δ → System δ
  | .others now call =>
    let store := step ctx.lib sys.store (now, call)
    { sys with store := store, shown := stays cell sys store }
  | .start => { sys with runners := sys.runners ++ [some (Runner.new δ)] }
  | .call i =>
    match sys.runner i with
    | some runner =>
      match runner.rest, calls[runner.results.length]? with
      | none, some call => issue ctx cell i runner call sys
      | _, _ => sys
    | none => sys
  | .tick i input =>
    match sys.runner i with
    | some runner =>
      match runner.rest with
      | some act => tick ctx cell calls i input runner act sys
      | none => sys
    | none => sys
  | .crash i => { sys with runners := sys.runners.set i none }

abbrev run (events : List (Event δ)) (sys : System δ) : System δ := Runs.run (next ctx cell calls) events sys

def Runner.asks (runner : Runner δ) : Option Ask := runner.rest.bind asked

def records : Ask → Bool
  | .call (.recordStepResult ..) => true
  | _ => false

/-- The execution has made its replacement and has not recorded it. -/
def Runner.Owes (runner : Runner δ) : Prop := ∃ q ∈ runner.asks, records q = true

/-- The others leave the rows of these calls alone. -/
def Allowed (sys : System δ) : Event δ → Prop
  | .others now c => ∀ call ∈ calls, (step ctx.lib sys.store (now, c)).steps.get (ctx.workflowId, call.1) =
      sys.store.steps.get (ctx.workflowId, call.1)
  | _ => True

/-- A replacement is made while its position is free and no other execution owes the record of the same
call, an execution that owes a record does not end, and none goes on after a call that failed. -/
def Undisturbed (sys : System δ) : Event δ → Prop
  | .tick i _ => ∀ runner ∈ sys.runner i, ∀ q ∈ runner.asks, replaces cell calls runner.results.length q →
      (∀ call ∈ calls[runner.results.length]?, sys.store.steps.get (ctx.workflowId, call.1) = none) ∧
        ∀ j < sys.runners.length, ∀ other ∈ sys.runner j, other.results.length = runner.results.length → ¬ other.Owes
  | .crash i => ∀ runner ∈ sys.runner i, ¬ runner.Owes
  | .call i => ∀ runner ∈ sys.runner i, ∀ result ∈ runner.results, result.isOk = true
  | .others _ _ | .start => True

instance (runner : Runner δ) : Decidable runner.Owes :=
  inferInstanceAs (Decidable (∃ q, runner.asks = some q ∧ records q = true))

instance (sys : System δ) : ∀ event, Decidable (Allowed ctx calls sys event)
  | .others now c => inferInstanceAs (Decidable (∀ call ∈ calls, (step ctx.lib sys.store (now, c)).steps.get
      (ctx.workflowId, call.1) = sys.store.steps.get (ctx.workflowId, call.1)))
  | .start | .call _ | .tick _ _ | .crash _ => .isTrue trivial

instance (sys : System δ) : ∀ event, Decidable (Undisturbed ctx cell calls sys event)
  | .tick i _ => inferInstanceAs (Decidable (∀ runner ∈ sys.runner i, ∀ q ∈ runner.asks,
      replaces cell calls runner.results.length q →
        (∀ call ∈ calls[runner.results.length]?, sys.store.steps.get (ctx.workflowId, call.1) = none) ∧
          ∀ j < sys.runners.length, ∀ other ∈ sys.runner j, other.results.length = runner.results.length → ¬ other.Owes))
  | .crash i => inferInstanceAs (Decidable (∀ runner ∈ sys.runner i, ¬ runner.Owes))
  | .call i => inferInstanceAs (Decidable (∀ runner ∈ sys.runner i, ∀ result ∈ runner.results, result.isOk = true))
  | .others _ _ | .start => .isTrue trivial

/-- Once a call is recorded the cell holds its value, that of a later call or something else, and its
replacement was made once. -/
structure Forward (sys : System δ) : Prop where
  shown : ∀ k, sys.shown = some k → ∃ call ∈ calls[k]?, cell.visible sys.store = cell.shows call.2
  later : ∀ number call, calls[number]? = some call → (sys.store.steps.get (ctx.workflowId, call.1)).isSome = true →
    ∀ k, sys.shown = some k → number ≤ k
  once : ∀ number call, calls[number]? = some call → (sys.store.steps.get (ctx.workflowId, call.1)).isSome = true →
    sys.replaced.count number = 1

end Machine

section Phases

variable {δ ω : Type} {ctx : Context} {cell : Cell ω} {seq : Int} {v : ω}

def plain : Call → Bool
  | .getStepResult .. | .getWorkflowStatus _ | .recordStepResult .. => true
  | _ => false

/-- What the replacements of a cell do. -/
structure Cell.Lawful (cell : Cell ω) (lib : SerdeJson) : Prop where
  own : ∀ v, plain (cell.replace v) = false
  shows : ∀ now v s, (exec lib now (cell.replace v) s).1.isOk = true →
    cell.visible (exec lib now (cell.replace v) s).2 = cell.shows v
  steps : ∀ now v s, (exec lib now (cell.replace v) s).2.steps = s.steps

theorem event_lawful (lib : SerdeJson) (id key : String) : (event id key).Lawful lib where
  own _ := rfl
  shows now v s _ := by simp [event, exec, upsertEvent]
  steps _ _ _ := rfl

theorem attributes_lawful (lib : SerdeJson) (target : String) : (attributes target).Lawful lib where
  own _ := rfl
  shows now v s ok := by
    simp only [attributes, exec, setWorkflowAttributes] at ok ⊢
    cases stored : s.workflows.get target with
    | none => simp [stored, Except.isOk, Except.toBool] at ok
    | some row => simp
  steps now v s := by
    simp only [attributes, exec, setWorkflowAttributes]
    cases s.workflows.get target <;> rfl

/-- Only interruptions are left to ask for, and the call succeeds at most where `done` holds. -/
def Quiet {α : Type} (done : Prop) (act : Act δ α) : Prop :=
  Client.Keeps (fun q => ∃ cause, q = .interrupt cause) (fun result => result.isOk = true → done) act

/-- A call before its look at the position, behind it, before its replacement, before its record, and with
neither to come. -/
inductive Phase (ctx : Context) (cell : Cell ω) (seq : Int) (v : ω) (done : Prop) (act : Act δ Unit) : Prop where
  | look (at_ : act = replaceCall ctx cell seq v)
  | guard (at_ : act = guarding ctx cell seq v)
  | replace (at_ : act = replacing ctx cell seq v)
  | record (at_ : act = recording ctx cell seq)
  | quiet (quiet : Quiet done act)

theorem Phase.later {done done' : Prop} {act : Act δ Unit} (phase : Phase ctx cell seq v done act)
    (later : done → done') : Phase ctx cell seq v done' act := by
  cases phase with
  | look at_ => exact .look at_
  | guard at_ => exact .guard at_
  | replace at_ => exact .replace at_
  | record at_ => exact .record at_
  | quiet quiet => exact .quiet (Client.Keeps.mono quiet fun _ holds ok => later (holds ok))

section Quiet

variable {α β : Type} {done : Prop}

theorem throw_quiet (e : Error) : Quiet done (Act.throw e : Act δ α) := by
  intro ok
  cases ok

theorem pure_quiet (holds : done) (a : α) : Quiet done (pure a : Act δ α) := fun _ => holds

theorem bind_quiet (here : Prop) {act : Act δ α} {f : α → Act δ β} (first : Quiet here act)
    (rest : here → ∀ a, Quiet done (f a)) : Quiet done (act >>= f) := by
  refine Client.Keeps.bind first ?_
  intro result holds
  cases result with
  | ok a => exact rest (holds rfl) a
  | error e => exact throw_quiet e

theorem record_quiet (e : Error) : Quiet done (Context.record e : Act δ α) := by
  unfold Context.record
  split
  · exact ⟨⟨_, rfl⟩, fun first => throw_quiet first⟩
  · exact throw_quiet e

theorem storage_quiet (holds : done) (result : Except Error α) : Quiet done (Context.storage result : Act δ α) := by
  cases result with
  | ok a => exact pure_quiet holds a
  | error e => exact record_quiet e

end Quiet

/-- The look finds the position free, or there is nothing left to do. -/
theorem replaceCall_eq (ctx : Context) (cell : Cell ω) (seq : Int) (v : ω) : ∃ k :
    Except Error (Option RecordedStep) → Act δ Unit,
    replaceCall ctx cell seq v = .ask (.call (.getStepResult ctx.workflowId seq)) k ∧
      k (.ok none) = guarding ctx cell seq v ∧ ∀ done, done → ∀ step, Quiet done (k (.ok (some step))) := by
  refine ⟨_, rfl, rfl, ?_⟩
  intro done holds step
  show Quiet done (((ctx.checkRecorded seq cell.name step.name >>= fun _ =>
    ctx.recordedValue .value step.outcome >>= fun value => pure (some value)) : Act δ (Option Value)) >>= fun found =>
      match found with
      | some _ => pure ()
      | none => guarding ctx cell seq v)
  rw [Verify.act_bind_assoc]
  refine bind_quiet True ?_ fun _ _ => ?_
  · unfold Context.checkRecorded
    split
    · exact throw_quiet _
    · exact pure_quiet trivial _
  rw [Verify.act_bind_assoc]
  refine bind_quiet True ?_ fun _ _ => pure_quiet holds ()
  cases step.outcome with
  | output value => exact fun _ => trivial
  | failure message info => exact bind_quiet True (storage_quiet trivial _) fun _ error => throw_quiet error

theorem call_bind {β : Type} (c : Call) (f : c.Reply → Act δ β) :
    Context.call c >>= f = .ask (.call c) fun reply => (Context.storage reply >>= f : Act δ β) := rfl

/-- A workflow that was cancelled makes no replacement. -/
theorem guarding_eq (ctx : Context) (cell : Cell ω) (seq : Int) (v : ω) : ∃ k :
    Except Error (Option WorkflowStatus) → Act δ Unit,
    guarding ctx cell seq v = .ask (.call (.getWorkflowStatus ctx.workflowId)) k ∧
      ∀ done reply, k reply = replacing ctx cell seq v ∨ Quiet done (k reply) := by
  refine ⟨_, (Verify.act_bind_assoc ..).trans (call_bind _ _), ?_⟩
  intro done reply
  cases reply with
  | error e => exact .inr (bind_quiet False (record_quiet e) False.elim)
  | ok found =>
    cases found with
    | none => exact .inl rfl
    | some status =>
      by_cases cancelled : status.status = .cancelled
      · refine .inr ?_
        show Quiet done ((if status.status = .cancelled then Act.throw (.cancelled ctx.workflowId) else pure ()) >>=
          fun _ => replacing ctx cell seq v)
        rw [if_pos cancelled]
        exact throw_quiet _
      · refine .inl ?_
        show (if status.status = .cancelled then Act.throw (.cancelled ctx.workflowId) else pure ()) >>=
          (fun _ => replacing ctx cell seq v) = _
        rw [if_neg cancelled]
        rfl

theorem replacing_eq (ctx : Context) (cell : Cell ω) (seq : Int) (v : ω) : ∃ k :
    Except Error (cell.replace v).Reply → Act δ Unit,
    replacing ctx cell seq v = .ask (.call (cell.replace v)) k ∧
      (∀ reply, k (.ok reply) = recording ctx cell seq) ∧ ∀ done e, Quiet done (k (.error e)) := by
  refine ⟨_, rfl, fun _ => rfl, ?_⟩
  intro done e
  exact bind_quiet False (record_quiet e) False.elim

theorem recording_eq (ctx : Context) (cell : Cell ω) (seq : Int) : ∃ k : Except Error StepOutcome → Act δ Unit,
    recording ctx cell seq = .ask (.call
      (.recordStepResult ctx.workflowId seq cell.name .null none none (some ctx.rt.executorId))) k ∧
      (∀ reply, k (.ok reply) = .done (.ok ())) ∧ ∀ done e, Quiet done (k (.error e)) := by
  refine ⟨_, rfl, fun _ => rfl, ?_⟩
  intro done e
  exact bind_quiet False (record_quiet e) False.elim

/-- The call does not ask for a record next. -/
def Clear (act : Act δ Unit) : Prop := ∀ q ∈ asked act, records q = false

theorem Clear.ask {q : Ask} {k : q.Reply δ → Client Ask (Ask.Reply δ) (Except Error Unit)}
    (other : records q = false) : Clear (.ask q k) := by
  intro q' same
  cases same
  exact other

theorem clear_of_quiet {done : Prop} {act : Act δ Unit} (quiet : Quiet done act) : Clear act := by
  cases act with
  | done result => exact fun q same => by cases same
  | halt => exact fun q same => by cases same
  | ask q k =>
    obtain ⟨⟨cause, rfl⟩, -⟩ := quiet
    exact .ask rfl

theorem replaceCall_clear : Clear (replaceCall ctx cell seq v : Act δ Unit) := by
  obtain ⟨k, same, -⟩ := replaceCall_eq (δ := δ) ctx cell seq v
  exact same ▸ .ask rfl

theorem guarding_clear : Clear (guarding ctx cell seq v : Act δ Unit) := by
  obtain ⟨k, same, -⟩ := guarding_eq (δ := δ) ctx cell seq v
  exact same ▸ .ask rfl

theorem replacing_clear {lib : SerdeJson} (lawful : cell.Lawful lib) :
    Clear (replacing ctx cell seq v : Act δ Unit) := by
  obtain ⟨k, same, -⟩ := replacing_eq (δ := δ) ctx cell seq v
  have own := lawful.own v
  rw [same]
  apply Clear.ask
  cases replacement : cell.replace v with
  | recordStepResult => simp [replacement, plain] at own
  | _ => rfl

theorem Phase.returned {done : Prop} {result : Except Error Unit}
    (phase : Phase ctx cell seq v done (.done result : Act δ Unit)) (ok : result.isOk = true) : done := by
  cases phase with
  | look at_ => cases at_
  | guard at_ => cases at_
  | replace at_ => cases at_
  | record at_ => cases at_
  | quiet quiet => exact quiet ok

/-- An ask of a call before its replacement: it looks on, and has no record to make. -/
theorem Phase.looks {done : Prop} {lib : SerdeJson} (lawful : cell.Lawful lib) {q : Ask}
    {k : q.Reply δ → Client Ask (Ask.Reply δ) (Except Error Unit)}
    (phase : Phase ctx cell seq v done (.ask q k)) (input : Input δ) (s : Inner) (latch : Option Error)
    (found : (s.steps.get (ctx.workflowId, seq)).isSome = true → done) :
    ((∀ v, q ≠ .call (cell.replace v)) ∧ (answer ctx.lib input q (s, latch)).2.1 = s ∧
      Phase ctx cell seq v done (k (answer ctx.lib input q (s, latch)).1) ∧
      Clear (k (answer ctx.lib input q (s, latch)).1) ∧ records q = false) ∨
    Client.ask q k = replacing ctx cell seq v ∨ Client.ask q k = recording ctx cell seq := by
  have apart : ∀ c : Call, plain c = true → ∀ v, Ask.call c ≠ .call (cell.replace v) := by
    intro c own v same
    have other := lawful.own v
    rw [← Ask.call.inj same, own] at other
    cases other
  cases phase with
  | look at_ =>
    obtain ⟨k', same, none, some⟩ := replaceCall_eq (δ := δ) ctx cell seq v
    rw [same] at at_
    cases at_
    refine .inl ⟨apart _ rfl, rfl, ?_⟩
    simp only [answer, exec, getStepResult]
    cases stored : s.steps.get (ctx.workflowId, seq) with
    | none =>
      rw [Option.map_none, none]
      exact ⟨.guard rfl, guarding_clear, rfl⟩
    | some row =>
      have holds := found (by rw [stored]; rfl)
      rw [Option.map_some]
      exact ⟨.quiet (some done holds _), clear_of_quiet (some done holds _), rfl⟩
  | guard at_ =>
    obtain ⟨k', same, rest⟩ := guarding_eq (δ := δ) ctx cell seq v
    rw [same] at at_
    cases at_
    refine .inl ⟨apart _ rfl, rfl, ?_⟩
    rcases rest done (answer ctx.lib input (.call (.getWorkflowStatus ctx.workflowId)) (s, latch)).1 with next | quiet
    · exact ⟨.replace next, next ▸ replacing_clear lawful, rfl⟩
    · exact ⟨.quiet quiet, clear_of_quiet quiet, rfl⟩
  | replace at_ => exact .inr (.inl at_)
  | record at_ => exact .inr (.inr at_)
  | quiet quiet =>
    obtain ⟨⟨cause, rfl⟩, rest⟩ := quiet
    exact .inl ⟨fun v same => (by cases same), rfl, .quiet (rest _), clear_of_quiet (rest _), rfl⟩

end Phases

end Durare.Overwrites

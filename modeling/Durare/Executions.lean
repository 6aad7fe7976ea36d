import Durare.Course

/-! Every execution keeps to the course: what one call does within it, and the runs of executions that
crash and start again. -/
namespace Durare.Course

open Interaction Execution
open Memory hiding Answer
open Replay (on width width_pos nextSeq_eq claim_eq)
open Verify (Query Checked Durable Answer Move Moved Body Visit advanced perform)

section Links

variable {δ α β : Type} {ctx : Context} {seq : Int}

def links (w : String) (seq : Int) : Ask → Prop
  | .call c => ∀ lib now s row, s.steps.get (w, seq) = none → (exec lib now c s).2.steps.get (w, seq) = some row →
      row.childWorkflowId.isSome = true ∨ row.error.isSome = true
  | _ => True

def Linking (w : String) (seq : Int) (act : Act δ α) : Prop := Client.Keeps (links w seq) (fun _ => True) act

variable {w : String} {name : String}

theorem Linking.bind {act : Act δ α} {f : α → Act δ β} (first : Linking w seq act) (rest : ∀ a, Linking w seq (f a)) :
    Linking w seq (act >>= f) := by
  apply Client.Keeps.bind first
  intro result _
  cases result with
  | ok a => exact rest a
  | error e => trivial

theorem Linking.attempt {act : Act δ α} (first : Linking w seq act) : Linking w seq act.attempt :=
  Client.Keeps.bind first fun _ _ => trivial

theorem Linking.get {q : Ask} (linked : links w seq q) : Linking w seq (Act.get q : Act δ (q.Reply δ)) :=
  ⟨linked, fun _ => trivial⟩

theorem interrupt_linking (e : Error) : Linking w seq (Context.interrupt e : Act δ α) := ⟨trivial, fun _ => trivial⟩

theorem storage_linking (result : Except Error α) : Linking w seq (Context.storage result : Act δ α) := by
  cases result with
  | ok a => trivial
  | error e =>
    simp only [Context.storage, Context.record]
    split
    · exact interrupt_linking e
    · trivial

theorem call_linking {c : Call} (linked : links w seq (.call c)) : Linking w seq (Context.call c : Act δ c.Reply) :=
  (Linking.get linked).bind fun reply => storage_linking reply

theorem reads_links {c : Call} (reads : ∀ lib now s, (exec lib now c s).2 = s) : links w seq (.call c) := by
  intro lib now s row vacant present
  rw [reads, vacant] at present
  cases present

theorem recordedValue_linking (codec : Codec α) (outcome : StepOutcome) :
    Linking w seq (ctx.recordedValue codec outcome : Act δ α) := by
  cases outcome with
  | output value => trivial
  | failure message info => exact (storage_linking _).bind fun _ => trivial

theorem checkRecorded_linking (expected recorded : String) :
    Linking w seq (ctx.checkRecorded seq expected recorded : Act δ Unit) := by
  unfold Context.checkRecorded
  split <;> trivial

theorem recordFailure_linking (error : Error) (startedAtMs : Option Int) (codec : Codec α) :
    Linking ctx.workflowId seq (ctx.recordFailure seq name error startedAtMs codec : Act δ α) := by
  refine Linking.bind ⟨trivial, fun _ => trivial⟩ fun _ => (storage_linking _).bind fun encoded => ?_
  refine (call_linking ?_).bind fun outcome => recordedValue_linking codec outcome
  intro lib now s row vacant present
  have written : exec lib now (.recordStepResult ctx.workflowId seq name .null (some encoded) startedAtMs
      (some ctx.rt.executorId)) s = _ := recordStepResult_vacant vacant
  rw [written] at present
  simp at present
  rw [← present]
  exact .inr rfl

theorem guardCancelled_linking : Linking w seq (ctx.guardCancelled : Act δ Unit) := by
  refine (call_linking (reads_links fun _ _ _ => rfl)).bind fun found => ?_
  cases found with
  | none => trivial
  | some status =>
    dsimp only
    split <;> trivial

theorem insertChild_links (child : WorkflowStatus) (parent : String) (returnExisting : Bool) :
    links parent seq (.call (.insertChildWorkflow child parent seq returnExisting)) := by
  intro lib now s row vacant present
  simp only [exec, insertChildWorkflow, vacant] at present
  split at present
  · rw [vacant] at present
    cases present
  · split at present
    · rw [vacant] at present
      cases present
    · split at present
      · rw [vacant] at present
        cases present
      · split at present
        · rw [vacant] at present
          cases present
        · simp at present
          rw [← present]
          exact .inl rfl

theorem insertWorkflow_links (status : WorkflowStatus) : links w seq (.call (.insertWorkflowStatus status)) := by
  intro lib now s row vacant present
  obtain same | ⟨-, here⟩ := step_steps lib now (.insertWorkflowStatus status) s (w, seq) (by simp [Call.histories])
  · have same : (exec lib now (.insertWorkflowStatus status) s).2.steps.get (w, seq) = s.steps.get (w, seq) := same
    rw [same, vacant] at present
    cases present
  · cases here

theorem recordChild_links (parent child : String) :
    links parent seq (.call (.recordChildWorkflow parent seq name child)) := by
  intro lib now s row vacant present
  simp [exec, recordChildWorkflow, Inner.insertStep, vacant] at present
  rw [← present]
  exact .inl rfl

theorem spawnChild_linking (input : Value) (opts : WorkflowOptions) :
    Linking ctx.workflowId seq (ctx.spawnChild seq name input opts : Act δ String) := by
  refine Linking.bind ⟨trivial, fun _ => trivial⟩ fun now => Linking.bind ⟨trivial, fun _ => trivial⟩ fun created => ?_
  refine Linking.bind trivial fun run => ?_
  refine (Linking.get (insertChild_links _ _ _)).bind fun reply => Linking.bind trivial fun inserted => ?_
  match inserted with
  | some (.replayed id) => trivial
  | some (.resolved child _) => trivial
  | none =>
    dsimp only
    split
    · trivial
    · refine (Linking.get (insertWorkflow_links _)).bind fun reply => Linking.bind trivial fun stored => ?_
      refine Linking.bind trivial fun _ => (Linking.get (recordChild_links _ _)).bind fun reply => ?_
      exact Linking.bind trivial fun _ => trivial

theorem startWorkflow_linking (input : Value) (opts : WorkflowOptions) :
    Linking ctx.workflowId seq (ctx.startWorkflow seq name input opts : Act δ String) := by
  refine (call_linking (reads_links fun _ _ _ => rfl)).bind fun link => ?_
  cases link with
  | some link => exact (checkRecorded_linking _ _).bind fun _ => trivial
  | none =>
    refine (call_linking (reads_links fun _ _ _ => rfl)).bind fun found => ?_
    cases found with
    | some step =>
      exact (checkRecorded_linking _ _).bind fun _ => (recordedValue_linking _ _).bind fun _ => trivial
    | none =>
      refine Linking.bind trivial fun _ => ?_
      split
      · exact interrupt_linking _
      · refine guardCancelled_linking.bind fun _ => (spawnChild_linking input opts).attempt.bind fun ended => ?_
        cases ended with
        | ok id => trivial
        | error e =>
          dsimp only
          split
          · exact interrupt_linking e
          · split
            · exact recordFailure_linking e none _
            · trivial

end Links

section Calls

variable {δ : Type}

theorem rely_refl (ctx : Context) (s : State) : Rely ctx.workflowId s s := Rely.refl ctx.workflowId s

theorem rely_trans (ctx : Context) {a b c : State} (first : Rely ctx.workflowId a b)
    (second : Rely ctx.workflowId b c) :
    Rely ctx.workflowId a c := first.trans second

def world (ctx : Context) (proper : Input δ → Inner → Ask → Prop) : World State Query (Query.Reply δ) where
  rely := Rely ctx.workflowId
  serves q s reply s' := ∃ input, (∀ asked, q = .ask asked → proper input s.1 asked) ∧ answer ctx.lib input q s = (reply, s')
  refl := rely_refl ctx
  trans := rely_trans ctx

/-- Every operation that is issued ends as it should. -/
def Starts (ctx : Context) (proper : Input δ → Inner → Ask → Prop) (fact : Fact δ) : Prop :=
  ∀ rt rounds seq (op : Op δ) s, op.prepare = .ok () → Ready (on ctx rt) seq op s →
    Safe (Execution.world (on ctx rt) proper) (May (on ctx rt) seq op)
      (fun r s => s.2.isSome = true ∨
        (Settles (on ctx rt) seq op r s.1 ∧ fact op r (s.1.steps.get (ctx.workflowId, seq))))
      (op.run (on ctx rt) rounds seq) s

variable {ctx : Context} {proper : Input δ → Inner → Ask → Prop} {fact : Fact δ} {left : Inner} {seq : Int} {s : State}

/-- What an operation of an execution may do. -/
theorem run_moves {rt : Runtime} {rounds : Nat} {op : Op δ} {post : Outcome δ → State → Prop}
    (safe : Safe (Execution.world (on ctx rt) proper) (May (on ctx rt) seq op) post (op.run (on ctx rt) rounds seq) s) :
    Safe (Execution.world (on ctx rt) proper) (fun _ s s' => Moves ctx seq (.op op) s.1 s'.1) post
      (op.run (on ctx rt) rounds seq) s := by
  have linked : Safe (Execution.world (on ctx rt) proper) (fun _ s s' => ∀ row,
      s.1.steps.get (ctx.workflowId, seq) = none → s'.1.steps.get (ctx.workflowId, seq) = some row → Linked op row)
      (fun _ _ => True) (op.run (on ctx rt) rounds seq) s := by
    cases op with
    | startWorkflow name input opts =>
      have linking : Linking ctx.workflowId seq ((Op.startWorkflow name input opts : Op δ).run (on ctx rt) rounds seq) := by
        refine Linking.bind trivial fun input => ?_
        have started : Linking (on ctx rt).workflowId seq ((on ctx rt).startWorkflow seq name input opts : Act δ String) :=
          startWorkflow_linking input opts
        exact started.bind fun _ => trivial
      refine Safe.of_keeps linking ?_ s
      intro q s reply s' linked served
      obtain ⟨input, -, answered⟩ := served
      intro row vacant present _
      cases q with
      | call c =>
        have stored : s'.1 = (exec ctx.lib input.now c s.1).2 := congrArg (·.2.1) answered.symm
        rw [stored] at present
        exact linked ctx.lib input.now s.1 row vacant present
      | now | fresh | random | body | race | wait | check | interrupt =>
        have stored : s'.1 = s.1 := congrArg (·.2.1) answered.symm
        rw [stored, vacant] at present
        cases present
    | _ => exact (safe.weaken fun _ _ _ _ _ _ _ starts => by cases starts).mono fun _ _ _ => trivial
  refine ((safe.both linked).mono fun _ _ ended => ended.1).weaken ?_
  intro q s s' may
  obtain ⟨may, linked⟩ := may
  refine ⟨?_, may.runnable, may.closed⟩
  intro p
  obtain same | ⟨vacant, row, present, writes⟩ := may.steps p
  · exact .inl same
  · refine .inr ⟨vacant, row, present, ?_⟩
    obtain ⟨rfl, named, free⟩ | timer := writes
    · exact .inl ⟨rfl, named, free, linked row vacant present⟩
    · exact .inr timer

def Ended (ctx : Context) (fact : Fact δ) (seq : Int) (durable : Durable δ) (outcome : Except Error (Answer δ))
    (s : State) : Prop :=
  s.2.isSome = true ∨ Answers ctx fact seq s.1 outcome durable

theorem Ended.others {durable : Durable δ} {outcome : Except Error (Answer δ)} {s' : State}
    (ended : Ended ctx fact seq durable outcome s) (moved : Rely ctx.workflowId s s') :
    Ended ctx fact seq durable outcome s' := by
  obtain interrupted | answers := ended
  · exact .inl (by rw [moved.latch]; exact interrupted)
  · exact .inr (answers.others moved)

theorem Moves.same {durable : Durable δ} {store : Inner} : Moves ctx seq durable store store :=
  ⟨fun _ => .inl rfl, id, fun _ => id⟩

theorem lift_safe {α : Type} {rt : Runtime} {act : Act δ α} {durable : Durable δ} {post : Except Error α → State → Prop}
    (safe : Safe (Execution.world (on ctx rt) proper) (fun _ s s' => Moves ctx seq durable s.1 s'.1) post act s) :
    Safe (world ctx proper) (fun _ s s' => Moves ctx seq durable s.1 s'.1) post (Checked.lift act) s := by
  refine Safe.embed safe (fun _ _ moved => moved) ?_ fun _ _ _ moved => moved
  intro q s reply s' served
  obtain ⟨input, fits, answered⟩ := served
  exact ⟨input, fits q rfl, answered⟩

theorem wrapped_safe {α : Type} {act : Checked δ α} {f : α → Answer δ} {durable : Durable δ}
    {post : Except Error α → State → Prop}
    (safe : Safe (world ctx proper) (fun _ s s' => Moves ctx seq durable s.1 s'.1) post act s)
    (ends : ∀ r s, post r s → Ended ctx fact seq durable (r.map f) s) :
    Safe (world ctx proper) (fun _ s s' => Moves ctx seq durable s.1 s'.1) (Ended ctx fact seq durable)
      (act >>= fun a => pure (f a) : Checked δ (Answer δ)) s := by
  apply Safe.bind safe
  intro result s reached
  have ended := ends result s reached
  cases result with
  | ok a => exact fun s' moved => ended.others moved
  | error e => exact fun s' moved => ended.others moved

theorem patch_moves {name : String} {store : Inner} (vacant : store.steps.get (ctx.workflowId, seq) = none) :
    Moves ctx seq (.patch name : Durable δ) store (store.insertStep ctx.workflowId seq { name := marker name }) := by
  have inserted : store.insertStep ctx.workflowId seq { name := marker name } =
      store.putStep ctx.workflowId seq { name := marker name } := by
    simp [Inner.insertStep, vacant]
  rw [inserted]
  refine ⟨?_, fun runnable => runnable, fun _ closed => closed⟩
  intro p
  by_cases here : p = seq
  · subst here
    exact .inr ⟨vacant, { name := marker name }, by simp, rfl, rfl⟩
  · left
    simp [here]

variable (ctx proper seq) in
theorem patch_safe (rt : Runtime) (name : String) (unlatched : s.2 = none) :
    Safe (Execution.world (on ctx rt) proper) (fun _ s s' => Moves ctx seq (.patch name : Durable δ) s.1 s'.1)
      (fun r s => ∃ row, s.1.steps.get (ctx.workflowId, seq) = some row ∧
        r = .ok (if row.name = marker name then (true, nextSeq seq) else (false, seq)))
      ((on ctx rt).patch seq name : Act δ (Bool × Int)) s := by
  intro s₁ moved latch s₂ served
  obtain ⟨input, -, answered⟩ := served
  have unlatched₁ : s₁.2 = none := moved.latch.trans unlatched
  simp only [Execution.answer, unlatched₁, Prod.mk.injEq] at answered
  obtain ⟨rfl, rfl⟩ := answered
  refine ⟨.same, ?_⟩
  intro s₃ _ found s₄ served
  obtain ⟨input, -, answered⟩ := served
  simp only [Execution.answer, exec, getStepName, Prod.mk.injEq] at answered
  obtain ⟨rfl, rfl⟩ := answered
  refine ⟨.same, ?_⟩
  cases present : s₃.1.steps.get (ctx.workflowId, seq) with
  | some row =>
    change Safe _ _ _ (if row.name = marker name then pure (true, nextSeq seq) else pure (false, seq) : Act δ (Bool × Int)) _
    have stays : ∀ t, Rely ctx.workflowId s₃ t → t.1.steps.get (ctx.workflowId, seq) = some row :=
      fun t later => (later.steps seq).trans present
    split
    next named => exact fun t later => ⟨row, stays t later, by rw [if_pos named]⟩
    next other => exact fun t later => ⟨row, stays t later, by rw [if_neg other]⟩
  | none =>
    intro s₅ moved reply s₆ served
    obtain ⟨input, -, answered⟩ := served
    have vacant : s₅.1.steps.get (ctx.workflowId, seq) = none := (moved.steps seq).trans present
    simp only [Execution.answer, exec, recordPatch, Prod.mk.injEq] at answered
    obtain ⟨rfl, rfl⟩ := answered
    refine ⟨patch_moves vacant, ?_⟩
    intro t later
    refine ⟨{ name := marker name }, (later.steps seq).trans ?_, by simp⟩
    simp [Inner.insertStep, vacant]

variable (ctx proper seq) in
theorem deprecatePatch_safe (rt : Runtime) (name : String) (unlatched : s.2 = none) :
    Safe (Execution.world (on ctx rt) proper) (fun _ s s' => Moves ctx seq (.deprecatePatch name : Durable δ) s.1 s'.1)
      (fun r s => r = .ok
        (if (s.1.steps.get (ctx.workflowId, seq)).map (·.name) = some (marker name) then nextSeq seq else seq))
      ((on ctx rt).deprecatePatch seq name : Act δ Int) s := by
  intro s₁ moved latch s₂ served
  obtain ⟨input, -, answered⟩ := served
  have unlatched₁ : s₁.2 = none := moved.latch.trans unlatched
  simp only [Execution.answer, unlatched₁, Prod.mk.injEq] at answered
  obtain ⟨rfl, rfl⟩ := answered
  refine ⟨.same, ?_⟩
  intro s₃ _ found s₄ served
  obtain ⟨input, -, answered⟩ := served
  simp only [Execution.answer, exec, getStepName, Prod.mk.injEq] at answered
  obtain ⟨rfl, rfl⟩ := answered
  refine ⟨.same, ?_⟩
  change Safe _ _ _ (if (s₃.1.steps.get (ctx.workflowId, seq)).map (·.name) = some (marker name) then
    pure (nextSeq seq) else pure seq : Act δ Int) _
  split
  next named =>
    intro t later
    rw [later.steps, if_pos named]
  next other =>
    intro t later
    rw [later.steps, if_neg other]

theorem transactionWith_safe (rt : Runtime) (name : String) (codec : Codec δ) :
    Safe (world ctx proper) (fun _ s s' => Moves ctx seq (.transactionWith name codec) s.1 s'.1)
      (fun r _ => r = .error unsupported) (Verify.transactionWith (on ctx rt) none seq name codec) s := by
  intro s₁ _ flag s₂ served
  obtain ⟨input, -, answered⟩ := served
  cases answered
  refine ⟨.same, ?_⟩
  intro s₃ _ now s₄ served
  obtain ⟨input, -, answered⟩ := served
  cases answered
  refine ⟨.same, ?_⟩
  intro s₅ _ outcome s₆ served
  obtain ⟨input, -, answered⟩ := served
  cases answered
  exact ⟨.same, fun _ _ => rfl⟩

/-- Every call of an execution moves the store as its position allows and ends as the position says. -/
theorem call_safe (starts : Starts ctx proper fact) (rt : Runtime) (rounds : Nat) (durable : Durable δ)
    (accepted : durable.accepts none = .ok ()) (onSite : onSource durable = false) (runnable : Runnable ctx.workflowId s.1)
    (unlatched : s.2 = none) (prior : Prior ctx left seq s.1 durable) :
    Safe (world ctx proper) (fun _ s s' => Moves ctx seq durable s.1 s'.1) (Ended ctx fact seq durable)
      (perform (on ctx rt) none rounds seq durable) s := by
  cases durable with
  | op op =>
    have prepared : op.prepare = .ok () := (Replay.accepts_unlatched op).symm.trans accepted
    have ready : Ready (on ctx rt) seq op s := ⟨runnable, unlatched, prior.1.own, prior.1.timer⟩
    have safe := lift_safe (run_moves (starts rt rounds seq op s prepared ready))
    rw [← Verify.performOp_none _ rounds seq prepared] at safe
    refine wrapped_safe safe ?_
    intro r s ended
    obtain interrupted | ⟨settles, shown⟩ := ended
    · exact .inl interrupted
    · exact .inr ⟨r, rfl, settles, shown⟩
  | patch name =>
    have safe := lift_safe (patch_safe ctx proper seq rt name unlatched)
    rw [← Verify.patch_none] at safe
    refine wrapped_safe (f := fun r => .patched r.1 r.2) safe ?_
    intro r s ended
    obtain ⟨row, present, rfl⟩ := ended
    refine .inr ⟨row, present, ?_⟩
    split <;> rfl
  | deprecatePatch name =>
    have safe := lift_safe (deprecatePatch_safe ctx proper seq rt name unlatched)
    rw [← Verify.deprecatePatch_none] at safe
    refine wrapped_safe safe ?_
    intro r s ended
    exact .inr (by rw [ended]; rfl)
  | transactionWith name codec =>
    refine wrapped_safe (transactionWith_safe rt name codec) ?_
    intro r s ended
    exact .inr (by rw [ended]; rfl)
  | transactionOn => cases onSite

end Calls

section Invariant

variable {δ : Type} (ctx : Context) (body : Body δ) (proper : Input δ → Inner → Ask → Prop) (fact : Fact δ)
  (left : Inner) (stuck : List (Visit δ) → Prop)

structure InFlight (canon : List (Visit δ)) (s : System δ) (attempt : Attempt δ) (running : Running δ) : Prop where
  within : attempt.trace <+: canon
  claims : Claims body stuck attempt.trace running.call
  seq : running.seq = counter attempt.trace
  counter : attempt.seq = running.call.claim running.seq
  found : ∀ row, running.found = some row → s.store.steps.get (ctx.workflowId, running.seq) = some row
  safe : Safe (world ctx proper) (fun _ s s' => Moves ctx running.seq running.call s.1 s'.1)
    (Ended ctx fact running.seq running.call) running.rest (s.store, s.latch)

structure Logged (canon : List (Visit δ)) (entry : Entry δ) : Prop where
  within : entry.trace <+: canon
  claims : Claims body stuck entry.trace entry.call
  seq : entry.seq = counter entry.trace
  part : entry.interrupted = false → entry.trace ++ [.answered entry.seq entry.call entry.outcome] <+: canon
  kept : ∀ row, entry.found = some row → entry.row = some row
  own : ∀ op row, entry.call = .op op → entry.row = some row → row.name = op.name ∧ Linked op row

/-- Every execution so far keeps to `canon`. -/
structure Inv (canon : List (Visit δ)) (s : System δ) : Prop where
  runnable : Runnable ctx.workflowId s.store
  charted : Charted ctx body fact left stuck s.store canon
  frontier : Frontier ctx body left stuck s.store canon
  older : ∀ p row, left.steps.get (ctx.workflowId, p) = some row → s.store.steps.get (ctx.workflowId, p) = some row
  idle : ∀ attempt, s.attempt = some attempt → attempt.running = none → s.latch = none →
    attempt.trace <+: canon ∧ attempt.seq = counter attempt.trace
  inFlight : ∀ attempt running, s.attempt = some attempt → attempt.running = some running →
    InFlight ctx body proper fact stuck canon s attempt running
  log : ∀ entry ∈ s.log, Logged body stuck canon entry
  rows : ∀ entry ∈ s.log, ∀ row, entry.row = some row → s.store.steps.get (ctx.workflowId, entry.seq) = some row

variable {ctx body proper fact left stuck} {canon : List (Visit δ)} {s : System δ}

theorem Logged.extend {entry : Entry δ} {canon' : List (Visit δ)} (logged : Logged body stuck canon entry)
    (longer : canon <+: canon') : Logged body stuck canon' entry :=
  { logged with
    within := logged.within.trans longer
    part := fun settled => (logged.part settled).trans longer }

theorem others_inv (now : DateTime) {call : Call} (others : Others ctx.workflowId s.store call)
    (inv : Inv ctx body proper fact left stuck canon s) :
    Inv ctx body proper fact left stuck canon { s with store := step ctx.lib s.store (now, call) } := by
  have moved : Rely ctx.workflowId (s.store, s.latch) (step ctx.lib s.store (now, call), s.latch) := others_rely others
  refine { inv with
    runnable := moved.runnable inv.runnable
    charted := inv.charted.others moved
    frontier := inv.frontier.others moved
    older := fun p row there => (moved.steps p).trans (inv.older p row there)
    rows := fun entry member row there => (moved.steps _).trans (inv.rows entry member row there)
    inFlight := ?_ }
  intro attempt running started runs
  have flight := inv.inFlight attempt running started runs
  exact { flight with
    found := fun row there => (moved.steps _).trans (flight.found row there)
    safe := flight.safe.later moved }

theorem stopped_inv (inv : Inv ctx body proper fact left stuck canon s) :
    Inv ctx body proper fact left stuck canon { s with latch := none, attempt := none } :=
  { inv with
    idle := fun attempt started => by cases started
    inFlight := fun attempt running started => by cases started }

/-- What stands at the positions of a call is its own. -/
theorem Inv.prior {trace : List (Visit δ)} {durable : Durable δ} (inv : Inv ctx body proper fact left stuck canon s)
    (within : trace <+: canon) (claims : Claims body stuck trace durable) :
    Prior ctx left (counter trace) s.store durable := by
  obtain ⟨rest, whole⟩ := within
  cases rest with
  | nil =>
    simp only [List.append_nil] at whole
    rw [whole] at claims ⊢
    exact inv.frontier.prior durable claims
  | cons visit rest =>
    have charted := inv.charted
    rw [← whole] at charted
    obtain ⟨-, -, prior, -⟩ := charted.visit claims
    exact prior

/-- A visit that every execution makes the same way, in the course or as its next. -/
theorem handed {trace : List (Visit δ)} {visit : Visit δ} (inv : Inv ctx body proper fact left stuck canon s)
    (within : trace <+: canon) (unstuck : ¬ stuck trace) (kept : Kept ctx body fact left stuck s.store trace visit)
    (unique : ∀ other, Kept ctx body fact left stuck s.store trace other → other = visit) :
    ∃ canon', canon <+: canon' ∧ trace ++ [visit] <+: canon' ∧ Charted ctx body fact left stuck s.store canon' ∧
      Frontier ctx body left stuck s.store canon' := by
  obtain ⟨rest, whole⟩ := within
  cases rest with
  | nil =>
    simp only [List.append_nil] at whole
    subst whole
    exact ⟨_, List.prefix_append _ _, List.prefix_refl _, inv.charted.extend kept,
      inv.frontier.extend inv.charted unstuck kept⟩
  | cons other rest =>
    have same := unique other (inv.charted trace other rest whole.symm)
    subst same
    exact ⟨canon, List.prefix_refl _, ⟨rest, by simpa using whole⟩, inv.charted, inv.frontier⟩

theorem passed_inv {attempt : Attempt δ} {visit : Visit δ} {after' : Int} (started : s.attempt = some attempt)
    (free : attempt.running = none) (unlatched : s.latch = none) (unstuck : ¬ stuck attempt.trace)
    (kept : Kept ctx body fact left stuck s.store attempt.trace visit)
    (unique : ∀ other, Kept ctx body fact left stuck s.store attempt.trace other → other = visit)
    (counted : after' = after attempt.seq visit) (inv : Inv ctx body proper fact left stuck canon s) :
    ∃ canon', canon <+: canon' ∧ Inv ctx body proper fact left stuck canon'
      { s with attempt := some { attempt with trace := attempt.trace ++ [visit], seq := after' } } := by
  obtain ⟨within, seq⟩ := inv.idle attempt started free unlatched
  obtain ⟨canon', longer, inside, charted, frontier⟩ := handed inv within unstuck kept unique
  refine ⟨canon', longer, { inv with
    charted := charted
    frontier := frontier
    idle := ?_
    inFlight := ?_
    log := fun entry member => (inv.log entry member).extend longer }⟩
  · intro a same _ _
    cases same
    refine ⟨inside, ?_⟩
    rw [counted, seq, counter_snoc]
  · intro a running same runs
    cases same
    rw [free] at runs
    cases runs

/-- Nothing an interrupted execution is handed is part of the course. -/
theorem latched_inv {attempt' : Attempt δ} {cause : Error} (free : attempt'.running = none)
    (latched : s.latch = some cause) (inv : Inv ctx body proper fact left stuck canon s) :
    Inv ctx body proper fact left stuck canon { s with attempt := some attempt' } := by
  refine { inv with idle := ?_, inFlight := ?_ }
  · intro a _ _ unlatched
    rw [latched] at unlatched
    cases unlatched
  · intro a running same runs
    cases same
    rw [free] at runs
    cases runs

theorem admits_ok {latch : Option Error} {durable : Durable δ} (admitted : admits latch durable = .ok ()) :
    latch = none ∧ durable.accepts none = .ok () := by
  cases latch with
  | none =>
    refine ⟨rfl, ?_⟩
    cases accepted : durable.accepts none with
    | ok _ => rfl
    | error e =>
      rw [admits, accepted] at admitted
      cases admitted
  | some cause =>
    rw [admits] at admitted
    cases accepted : durable.accepts (some cause) with
    | ok _ =>
      rw [accepted] at admitted
      cases admitted
    | error e =>
      rw [accepted] at admitted
      cases admitted

theorem admits_refused {durable : Durable δ} {e : Error} (refused : admits none durable = .error e) :
    durable.accepts none = .error e := by
  cases accepted : durable.accepts none with
  | ok _ =>
    rw [admits, accepted] at refused
    cases refused
  | error e' =>
    rw [admits, accepted] at refused
    exact refused

theorem move_inv (starts : Starts ctx proper fact) (rounds : Nat) {attempt : Attempt δ} {made : Move δ}
    (started : s.attempt = some attempt) (free : attempt.running = none)
    (next : body.next (attempt.trace.map Visit.moved) = some made) (issues : Issues stuck attempt made)
    (inv : Inv ctx body proper fact left stuck canon s) :
    ∃ canon', canon <+: canon' ∧ Inv ctx body proper fact left stuck canon' (move ctx rounds attempt s made) := by
  obtain ⟨room, unstuck, fits⟩ := issues
  cases latched : s.latch with
  | some cause =>
    refine ⟨canon, List.prefix_refl _, ?_⟩
    cases made with
    | drop durable => exact latched_inv free latched inv
    | call durable =>
      simp only [move]
      split
      · exact latched_inv free latched inv
      next admitted =>
        obtain ⟨unlatched, -⟩ := admits_ok admitted
        rw [latched] at unlatched
        cases unlatched
  | none =>
    obtain ⟨within, seq⟩ := inv.idle attempt started free latched
    have room' : counter attempt.trace + 2 < 2 ^ 31 := seq ▸ room
    cases made with
    | drop durable =>
      refine passed_inv started free latched unstuck (.dropped durable next room') ?_ ?_ inv
      · intro other kept
        cases kept with
        | dropped other next' => cases next.symm.trans next'; rfl
        | refused other e next' => cases next.symm.trans next'
        | answered other outcome claims => cases next.symm.trans claims.next
      · rw [latched]
        rfl
    | call durable =>
      simp only [move]
      split
      next e refused =>
        rw [latched] at refused
        have refusal := admits_refused refused
        refine passed_inv started free latched unstuck (.refused durable e next refusal room') ?_ rfl inv
        intro other kept
        cases kept with
        | dropped other next' => cases next.symm.trans next'
        | refused other e' next' refusal' =>
          cases next.symm.trans next'
          rw [refusal] at refusal'
          cases refusal'
          rfl
        | answered other outcome claims =>
          cases next.symm.trans claims.next
          rw [claims.accepted] at refusal
          cases refusal
      next admitted =>
        obtain ⟨-, accepted⟩ := admits_ok admitted
        have claims : Claims body stuck attempt.trace durable :=
          ⟨next, accepted, room', unstuck, fits.1, seq ▸ fits.2⟩
        refine ⟨canon, List.prefix_refl _, { inv with idle := ?_, inFlight := ?_ }⟩
        · intro a same runs
          cases same
          cases runs
        · intro a running same runs
          cases same
          cases runs
          have prior := inv.prior within claims
          exact
            { within := within
              claims := claims
              seq := seq
              counter := rfl
              found := fun row there => there
              safe := call_safe starts attempt.rt rounds durable accepted fits.1 inv.runnable latched (seq ▸ prior) }

theorem asked_inv {input : Input δ} {attempt : Attempt δ} {running : Running δ} {q : Query}
    {k : q.Reply δ → Client Query (Query.Reply δ) (Except Error (Answer δ))} (started : s.attempt = some attempt)
    (runs : attempt.running = some running) (rest : running.rest = .ask q k)
    (allowed : ∀ asked, q = .ask asked → proper input s.store asked)
    (inv : Inv ctx body proper fact left stuck canon s) :
    Inv ctx body proper fact left stuck canon (tick ctx input attempt running s) := by
  have flight := inv.inFlight attempt running started runs
  have safe := flight.safe
  rw [rest] at safe
  obtain ⟨moves, next⟩ := safe.served ⟨input, allowed, rfl⟩
  simp only [tick, rest]
  change Moves _ _ _ _ (answer ctx.lib input q (s.store, s.latch)).2.1 at moves
  change Safe _ _ _ (k (answer ctx.lib input q (s.store, s.latch)).1) (answer ctx.lib input q (s.store, s.latch)).2 at next
  generalize answer ctx.lib input q (s.store, s.latch) = answered at moves next
  obtain ⟨reply, store, latch⟩ := answered
  have moved : Moves ctx (counter attempt.trace) running.call s.store store := flight.seq ▸ moves
  dsimp only
  constructor
  · exact moves.runnable inv.runnable
  · exact Charted.later inv.charted flight.claims flight.within moved
  · exact Frontier.later inv.charted flight.claims flight.within inv.frontier moved
  · exact fun p row there => moves.stays (inv.older p row there)
  · intro a same idle
    cases same
    cases idle
  · intro a r same there
    cases same
    cases there
    exact { flight with found := fun row found => moves.stays (flight.found row found), safe := next }
  · exact inv.log
  · exact fun entry member row there => moves.stays (inv.rows entry member row there)

theorem done_inv {input : Input δ} {attempt : Attempt δ} {running : Running δ} {outcome : Except Error (Answer δ)}
    (started : s.attempt = some attempt) (runs : attempt.running = some running) (rest : running.rest = .done outcome)
    (inv : Inv ctx body proper fact left stuck canon s) :
    ∃ canon', canon <+: canon' ∧ Inv ctx body proper fact left stuck canon' (tick ctx input attempt running s) := by
  have flight := inv.inFlight attempt running started runs
  have safe := flight.safe
  rw [rest] at safe
  have ended := safe.result
  have prior := inv.prior flight.within flight.claims
  simp only [tick, rest]
  have own : ∀ op row, running.call = .op op → s.store.steps.get (ctx.workflowId, running.seq) = some row →
      row.name = op.name ∧ Linked op row := by
    intro op row same present
    rw [same] at prior
    rw [flight.seq] at present
    exact ⟨prior.1.own row present, prior.2 row present⟩
  have entered : ∀ canon', canon <+: canon' →
      (s.latch.isSome = false → attempt.trace ++ [.answered running.seq running.call outcome] <+: canon') →
      ∀ entry ∈ s.log ++ [
        { trace := attempt.trace
          seq := running.seq
          call := running.call
          found := running.found
          row := s.store.steps.get (ctx.workflowId, running.seq)
          interrupted := s.latch.isSome
          outcome := outcome }], Logged body stuck canon' entry := by
    intro canon' longer part entry member
    rcases List.mem_append.mp member with earlier | last
    · exact (inv.log entry earlier).extend longer
    · rw [List.mem_singleton.mp last]
      exact ⟨flight.within.trans longer, flight.claims, flight.seq, part, flight.found, own⟩
  have stored : ∀ entry ∈ s.log ++ [
        { trace := attempt.trace
          seq := running.seq
          call := running.call
          found := running.found
          row := s.store.steps.get (ctx.workflowId, running.seq)
          interrupted := s.latch.isSome
          outcome := outcome }],
      ∀ row, entry.row = some row → s.store.steps.get (ctx.workflowId, entry.seq) = some row := by
    intro entry member row there
    rcases List.mem_append.mp member with earlier | last
    · exact inv.rows entry earlier row there
    · rw [List.mem_singleton.mp last] at there ⊢
      exact there
  cases latched : s.latch with
  | some cause =>
    rw [latched] at stored
    refine ⟨canon, List.prefix_refl _, { inv with idle := ?_, inFlight := ?_, log := ?_, rows := stored }⟩
    · intro a same _ unlatched
      cases unlatched
    · intro a r same there
      cases same
      cases there
    · rw [latched] at entered
      exact entered canon (List.prefix_refl _) fun clear => by cases clear
  | none =>
    have answers : Answers ctx fact (counter attempt.trace) s.store outcome running.call := by
      obtain interrupted | answers := ended
      · rw [latched] at interrupted
        cases interrupted
      · exact flight.seq ▸ answers
    have kept : Kept ctx body fact left stuck s.store attempt.trace (.answered (counter attempt.trace) running.call outcome) :=
      .answered _ _ flight.claims prior answers
    obtain ⟨canon', longer, inside, charted, frontier⟩ := handed inv flight.within flight.claims.unstuck kept (by
      intro other kept'
      obtain ⟨outcome', rfl, -, answers'⟩ := kept'.outcome flight.claims
      rw [Answers.unique flight.claims.onSite answers answers'])
    rw [← flight.seq] at inside
    rw [latched] at stored
    refine ⟨canon', longer, { inv with
      charted := charted
      frontier := frontier
      idle := ?_
      inFlight := ?_
      log := ?_
      rows := stored }⟩
    · intro a same _ _
      cases same
      refine ⟨inside, ?_⟩
      rw [counter_snoc, after, ← flight.seq, flight.counter]
    · intro a r same there
      cases same
      cases there
    · rw [latched] at entered
      exact entered canon' longer fun _ => inside

theorem next_inv (starts : Starts ctx proper fact) (event : Event δ) (allowed : Allowed ctx body proper stuck s event)
    (inv : Inv ctx body proper fact left stuck canon s) :
    ∃ canon', canon <+: canon' ∧ Inv ctx body proper fact left stuck canon' (next ctx body s event) := by
  have same : ∀ {s' : System δ}, Inv ctx body proper fact left stuck canon s' →
      ∃ canon', canon <+: canon' ∧ Inv ctx body proper fact left stuck canon' s' :=
    fun kept => ⟨canon, List.prefix_refl _, kept⟩
  cases event with
  | others now call => exact same (others_inv now allowed inv)
  | crash => exact same (stopped_inv inv)
  | start rt =>
    simp only [next]
    split
    · exact same inv
    · refine same { inv with idle := ?_, inFlight := ?_ }
      · intro attempt started _ _
        cases started
        exact ⟨List.nil_prefix, rfl⟩
      · intro attempt running started runs
        cases started
        cases runs
  | move rounds =>
    simp only [next]
    split
    next attempt started =>
      split
      next made free call =>
        exact move_inv starts rounds started free call (allowed attempt started (by rw [free]; rfl) made call) inv
      next => exact same inv
    next => exact same inv
  | tick input =>
    simp only [next]
    split
    next attempt started =>
      split
      next running runs =>
        cases rest : running.rest with
        | done outcome => exact done_inv started runs rest inv
        | ask q k =>
          refine same (asked_inv started runs rest ?_ inv)
          rintro asked rfl
          exact allowed asked (by simp [System.asking, started, runs, rest])
        | halt =>
          simp only [tick, rest]
          exact same (stopped_inv inv)
      next => exact same inv
    next => exact same inv

/-- Every run of executions of one body keeps to one course, and the course only goes on. -/
theorem run_inv (starts : Starts ctx proper fact) {events : List (Event δ)}
    (allowed : Runs.Along (next ctx body) (Allowed ctx body proper stuck) events s)
    (inv : Inv ctx body proper fact left stuck canon s) :
    ∃ canon', canon <+: canon' ∧ Inv ctx body proper fact left stuck canon' (run ctx body events s) := by
  refine Runs.invariant (I := fun s => ∃ canon', canon <+: canon' ∧ Inv ctx body proper fact left stuck canon' s) ?_ allowed
    ⟨canon, List.prefix_refl _, inv⟩
  rintro s event here ⟨canon', longer, inv⟩
  obtain ⟨canon'', further, kept⟩ := next_inv starts event here inv
  exact ⟨canon'', longer.trans further, kept⟩

theorem idle_inv {store : Inner} (runnable : Runnable ctx.workflowId store)
    (empty : ∀ seq, store.steps.get (ctx.workflowId, seq) = none) :
    Inv ctx body proper fact store stuck [] (System.idle store : System δ) where
  runnable := runnable
  charted := fun before visit after here => by simp at here
  frontier := .clear (le_refl _) fun p _ => empty p
  older := fun _ _ there => there
  idle := fun attempt started => by cases started
  inFlight := fun attempt running started => by cases started
  log := fun entry member => by cases member
  rows := fun entry member => by cases member

/-- The outcome of a call that was not interrupted is the one its position gives. -/
theorem Inv.settled {entry : Entry δ} (inv : Inv ctx body proper fact left stuck canon s) (member : entry ∈ s.log)
    (settled : entry.interrupted = false) :
    Prior ctx left entry.seq s.store entry.call ∧ Answers ctx fact entry.seq s.store entry.outcome entry.call := by
  have logged := inv.log entry member
  obtain ⟨rest, whole⟩ := logged.part settled
  have charted := inv.charted
  rw [← whole, List.append_assoc] at charted
  obtain ⟨outcome, same, prior, answers⟩ := charted.visit logged.claims
  rw [← logged.seq] at same prior answers
  injection same with _ _ called
  rw [← called] at answers
  exact ⟨prior, answers⟩

theorem starts_proper (ctx : Context) : Starts ctx (Proper ctx.workflowId) (fun (_ : Op δ) _ _ => True) := by
  intro rt rounds seq op s prepared ready
  refine Safe.mono (run_ends (fun input s q fits => fits) rounds prepared ready) ?_
  intro r s ends
  obtain settles | ⟨-, interrupted⟩ := ends
  · exact .inr ⟨settles, trivial⟩
  · exact .inl interrupted

end Invariant

section Returning

variable {δ : Type} {ctx : Context} {body : Body δ} {proper : Input δ → Inner → Ask → Prop}
  {stuck : List (Visit δ) → Prop}

def Event.goesOn : Event δ → Bool
  | .tick _ | .others _ _ => true
  | _ => false

def Event.isTick : Event δ → Bool
  | .tick _ => true
  | _ => false

theorem idle_log (events : List (Event δ)) (s : System δ) (onward : ∀ event ∈ events, event.goesOn = true)
    (free : ∀ attempt, s.attempt = some attempt → attempt.running = none) : (run ctx body events s).log = s.log := by
  induction events generalizing s with
  | nil => rfl
  | cons event events ih =>
    rw [run, Runs.run_cons]
    have rest := fun s => ih s fun later member => onward later (List.mem_cons_of_mem _ member)
    cases event with
    | others now call => exact rest _ free
    | tick input =>
      have same : next ctx body s (.tick input) = s := by
        simp only [next]
        split
        next attempt started => rw [free attempt started]
        next => rfl
      rw [same]
      exact rest s free
    | crash | start | move => cases onward _ List.mem_cons_self

/-- A call that returns within `n` asks hands its outcome over within `n + 1` ticks. -/
theorem finishes {post : Except Error (Answer δ) → State → Prop} (events : List (Event δ)) (s : System δ)
    {attempt : Attempt δ} {running : Running δ} {n : Nat} (started : s.attempt = some attempt)
    (runs : attempt.running = some running)
    (returns : Returns (world ctx anyAnswer) post running.rest n (s.store, s.latch))
    (onward : ∀ event ∈ events, event.goesOn = true)
    (allowed : Runs.Along (next ctx body) (Allowed ctx body proper stuck) events s)
    (enough : n < events.countP Event.isTick) :
    ∃ entry, (run ctx body events s).log = s.log ++ [entry] ∧ entry.trace = attempt.trace ∧ entry.call = running.call ∧
      ∃ store latch, post entry.outcome (store, latch) ∧ entry.interrupted = latch.isSome := by
  induction events generalizing s attempt running n with
  | nil => simp at enough
  | cons event events ih =>
    have onward' : ∀ later ∈ events, later.goesOn = true :=
      fun later member => onward later (List.mem_cons_of_mem _ member)
    rw [run, Runs.run_cons]
    cases event with
    | others now call =>
      have moved : Rely ctx.workflowId (s.store, s.latch) (step ctx.lib s.store (now, call), s.latch) :=
        others_rely allowed.1
      have later : Returns (world ctx anyAnswer) post running.rest n (step ctx.lib s.store (now, call), s.latch) :=
        Returns.later returns moved
      exact ih (next ctx body s (.others now call)) started runs later onward' allowed.2
        (by simpa [Event.isTick] using enough)
    | tick input =>
      have ticked : next ctx body s (.tick input) = tick ctx input attempt running s := by
        simp only [next, started, runs]
      have allowed' := allowed.2
      rw [ticked] at allowed' ⊢
      rw [List.countP_cons_of_pos rfl] at enough
      cases rest : running.rest with
      | halt => rw [rest] at returns; exact absurd returns id
      | done outcome =>
        rw [rest] at returns
        simp only [tick, rest]
        refine ⟨_, idle_log events _ onward' ?_, rfl, rfl, s.store, s.latch, returns _ (Rely.refl _ _), rfl⟩
        intro a same
        cases same
        rfl
      | ask q k =>
        rw [rest] at returns
        cases n with
        | zero => exact absurd returns id
        | succ n =>
          have later : Returns (world ctx anyAnswer) post (k (answer ctx.lib input q (s.store, s.latch)).1) n
              (answer ctx.lib input q (s.store, s.latch)).2 :=
            returns _ (Rely.refl _ _) _ _ ⟨input, fun _ _ => trivial, rfl⟩
          simp only [tick, rest] at allowed' ⊢
          generalize answer ctx.lib input q (s.store, s.latch) = answered at later allowed' ⊢
          have logged := ih _ rfl rfl later onward' allowed' (by omega)
          exact logged
    | crash | start | move => cases onward _ List.mem_cons_self

theorem patch_gives (rt : Runtime) (seq : Int) (name : String) {s : State} (unlatched : s.2 = none) :
    Gives (on ctx rt) (fun _ s => s.2 = none) ((on ctx rt).patch seq name : Act δ (Bool × Int)) 3 s := by
  intro s₁ moved latch s₂ served
  obtain ⟨input, -, answered⟩ := served
  have unlatched₁ : s₁.2 = none := moved.latch.trans unlatched
  simp only [Execution.answer, unlatched₁, Prod.mk.injEq] at answered
  obtain ⟨rfl, rfl⟩ := answered
  intro s₃ moved found s₄ served
  obtain ⟨input, -, answered⟩ := served
  have unlatched₃ : s₃.2 = none := moved.latch
  simp only [Execution.answer, exec, getStepName, Prod.mk.injEq] at answered
  obtain ⟨rfl, rfl⟩ := answered
  cases present : s₃.1.steps.get (ctx.workflowId, seq) with
  | some row =>
    change Returns _ _ (if row.name = marker name then pure (true, nextSeq seq) else pure (false, seq) : Act δ (Bool × Int)) 1 _
    split
    all_goals exact fun t later => later.latch.trans unlatched₃
  | none =>
    intro s₅ moved reply s₆ served
    obtain ⟨input, -, answered⟩ := served
    have unlatched₅ : s₅.2 = none := moved.latch.trans unlatched₃
    simp only [Execution.answer, exec, recordPatch, Prod.mk.injEq] at answered
    obtain ⟨rfl, rfl⟩ := answered
    exact fun t later => later.latch.trans unlatched₅

/-- A patch returns after three asks at most. -/
theorem patch_returns (rt : Runtime) (rounds : Nat) (seq : Int) (name : String) {s : State} (unlatched : s.2 = none) :
    Returns (world ctx anyAnswer) (fun _ s => s.2 = none)
      (perform (on ctx rt) none rounds seq (.patch name) : Checked δ (Answer δ)) 3 s := by
  have returns : Returns (world ctx anyAnswer) (fun _ s => s.2 = none)
      (Checked.lift ((on ctx rt).patch seq name) : Checked δ (Bool × Int)) 3 s :=
    Returns.embed (patch_gives rt seq name unlatched) (fun _ _ moved => moved)
      fun q s reply s' served => by
        obtain ⟨input, -, answered⟩ := served
        exact ⟨input, trivial, answered⟩
  rw [← Verify.patch_none] at returns
  refine Returns.bind (m := 0) returns ?_
  intro result s unlatched
  cases result with
  | ok r => exact fun t later => later.latch.trans unlatched
  | error e => exact fun t later => later.latch.trans unlatched

end Returning

end Durare.Course

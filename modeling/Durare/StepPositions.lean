import Durare.Settling

/-! Steps, races, timers and generated values settle their positions. -/
namespace Durare.Execution

open Interaction Memory

section Calls

variable {δ α β : Type} {ctx : Context} {proper : Input δ → Inner → Ask → Prop} {seq : Int} {op : Op δ}

/-- The clock, an id, a number or a pause changes nothing. -/
theorem get_keeps {P : State → Prop} (stable : Stable ctx P)
    (vacant : ∀ s, P s → s.1.steps.get (ctx.workflowId, seq) = none) {q : Ask}
    (quiet : ∀ (input : Input δ) s, (answer ctx.lib input q s).2 = s) {s : State} (holds : P s) :
    Does ctx proper seq op (fun (r : Except Error (q.Reply δ)) s => (∃ reply, r = .ok reply) ∧ P s) (Act.get q) s := by
  refine Does.supplied stable holds quiet (fun _ => vacant) ?_ ?_
  · exact fun r s s' reached moved => ⟨reached.1, stable s s' reached.2 moved⟩
  · exact fun s input here _ => ⟨⟨_, rfl⟩, here⟩

theorem get_does {q : Ask} (quiet : ∀ (input : Input δ) s, (answer ctx.lib input q s).2 = s) {s : State}
    (live : Live ctx seq op s) :
    Does ctx proper seq op (fun (r : Except Error (q.Reply δ)) s => (∃ reply, r = .ok reply) ∧ Live ctx seq op s)
      (Act.get q) s :=
  get_keeps live_stable (fun _ here => here.vacant) quiet live

/-- A closure runs while nothing is recorded, and does not end with the workflow's own
cancellation. -/
theorem body_does (clear : Clear ctx.workflowId proper) {attempt : Nat} {s : State} (live : Live ctx seq op s) :
    Does ctx proper seq op (fun (r : Except Error (BodyEnd δ)) s => Live ctx seq op s ∧ ∃ ending, r = .ok ending ∧
        ∀ e, ending = .returned (.error e) → e.isCancellationFor ctx.workflowId = false)
      (Act.get (.body seq attempt)) s := by
  refine Does.supplied live_stable live (fun input s => rfl) (fun _ s here => here.vacant) ?_ ?_
  · exact fun r s s' reached moved => ⟨live_stable s s' reached.1 moved, reached.2⟩
  · intro s input here fits
    refine ⟨here, _, rfl, ?_⟩
    intro e ended
    have kept := clear input s.1 _ fits
    have ran : input.body = .returned (.error e) := ended
    simpa only [Proper, ran] using kept

/-- The result of a closure is not its own workflow's cancellation. -/
def Kept (ctx : Context) (result : Except Error δ) : Prop :=
  ∀ e, result = .error e → e.isCancellationFor ctx.workflowId = false

theorem runStepCatching_kept {name : String} {ending : BodyEnd δ}
    (kept : ∀ e, ending = .returned (.error e) → e.isCancellationFor ctx.workflowId = false) :
    Kept ctx (Context.runStepCatching name ending) := by
  intro e failed
  cases ending with
  | returned result => exact kept e (by rw [← failed]; rfl)
  | panicked message => cases failed; rfl

theorem recordResult_ends (free : ∀ s, refusal ctx op s = none) {name : String} (named : op.name = name)
    {result : Except Error δ} (kept : Kept ctx result) (startedAtMs : Int) (codec : Codec δ) {s : State}
    (live : Live ctx seq op s) :
    Does ctx proper seq op (EndsWith ctx seq op fun row => recorded ctx codec (stepRowOutcome ctx.lib row))
      (ctx.recordResult seq name result startedAtMs codec) s := by
  cases result with
  | ok value => exact checkpoint_ends free named value (some startedAtMs) codec live
  | error e =>
    simp only [Context.recordResult, kept e rfl]
    exact recordFailure_ends free named e (some startedAtMs) codec live

theorem step_ends (clear : Clear ctx.workflowId proper) (free : ∀ s, refusal ctx op s = none) {name : String}
    (named : op.name = name)
    (codec : Codec δ) {s : State} (ready : Ready ctx seq op s) :
    Does ctx proper seq op (EndsWith ctx seq op fun row => recorded ctx codec (stepRowOutcome ctx.lib row))
      (ctx.step seq name codec) s := by
  refine Does.gated (replayOrGuard_does named codec ready) (fun row => map_id_eq _) (fun value => rfl) ?_
  intro s live
  refine Does.bind (fun e => endsWith_stable) (get_does (fun input s => rfl) live) ?_ ?_
  · rintro started s ⟨-, live⟩
    refine Does.bind (fun e => endsWith_stable) (body_does clear live) ?_ ?_
    · rintro ending s ⟨live, end', same, kept⟩
      cases same
      exact recordResult_ends free named (runStepCatching_kept kept) _ codec live
    · rintro e s ⟨-, end', same, -⟩
      cases same
  · rintro e s ⟨⟨reply, same⟩, -⟩
    cases same

/-- How retries end: with a result to record, or with the execution interrupted. -/
def Tried (ctx : Context) (seq : Int) (op : Op δ) (r : Except Error δ) (s : State) : Prop :=
  (Live ctx seq op s ∧ Kept ctx r) ∨ ((∃ e, r = .error e) ∧ Interrupted ctx seq s)

theorem tried_stable (r : Except Error δ) : Stable ctx (Tried ctx seq op r) := by
  rintro s s' (⟨here, kept⟩ | ⟨failed, interrupted⟩) moved
  · exact .inl ⟨live_stable s s' here moved, kept⟩
  · exact .inr ⟨failed, interrupted_stable s s' interrupted moved⟩

/-- One attempt. Only an ordinary error the predicate accepts goes on to `again`. -/
theorem attempt_does (clear : Clear ctx.workflowId proper) (name : String) (retryIf : Option (Error → Bool))
    (attempt : Nat) {again : Error → Act δ δ}
    (rest : ∀ e s, Live ctx seq op s → Kept ctx (.error e : Except Error δ) →
      Does ctx proper seq op (Tried ctx seq op) (again e) s) {s : State} (live : Live ctx seq op s) :
    Does ctx proper seq op (Tried ctx seq op) (do
      let ending ← Act.get (.body seq attempt)
      match Context.runStepCatching name ending with
      | .ok value => Pure.pure value
      | .error e =>
        match e with
        | .recoveryRequired _ | .observationFailed _ => Context.bodyError e
        | e =>
          if e.isCancellationFor ctx.workflowId || e.isScopeViolation then .throw e
          else if !(retryIf.all (· e)) then .throw e
          else again e) s := by
  refine Does.bind (fun e => tried_stable _) (body_does clear live) ?_ ?_
  · rintro ending s ⟨live, end', same, kept⟩
    cases same
    have final : Kept ctx (Context.runStepCatching name ending) := runStepCatching_kept kept
    split
    next value ended => exact Does.pure (tried_stable _) (.inl ⟨live, fun e failed => nomatch failed⟩)
    next e ended =>
      rw [ended] at final
      have thrown : Does ctx proper seq op (Tried ctx seq op) (Act.throw e) s :=
        Does.throw (tried_stable _) (.inl ⟨live, final⟩)
      split
      · exact Safe.mono (interrupt_does _ live) fun r s reached => .inr reached
      · exact Safe.mono (interrupt_does _ live) fun r s reached => .inr reached
      · split
        · exact thrown
        · split
          · exact thrown
          · exact rest e s live final
  · rintro e s ⟨-, end', same, -⟩
    cases same

theorem runWithRetries_does (clear : Clear ctx.workflowId proper) (name : String) (retryIf : Option (Error → Bool))
    (left attempt : Nat) {s : State}
    (live : Live ctx seq op s) :
    Does ctx proper seq op (Tried ctx seq op) (ctx.runWithRetries seq name retryIf left attempt) s := by
  induction left generalizing attempt s with
  | zero =>
    rw [Context.runWithRetries]
    exact attempt_does clear name retryIf attempt (fun e s live kept => Does.throw (tried_stable _) (.inl ⟨live, kept⟩)) live
  | succ left ih =>
    rw [Context.runWithRetries]
    refine attempt_does clear name retryIf attempt ?_ live
    intro e s live kept
    refine Does.bind (fun e => tried_stable _) (get_does (fun input s => rfl) live) ?_ ?_
    · rintro - s ⟨-, live⟩
      exact ih (attempt + 1) live
    · rintro e s ⟨⟨reply, same⟩, -⟩
      cases same

/-- Once interrupted, nothing is written: the latch is checked first. -/
theorem recordFailure_interrupted (name : String) (error : Error) (startedAtMs : Option Int) (codec : Codec α)
    {s : State} (interrupted : Interrupted ctx seq s) :
    Does ctx proper seq op (fun _ s => Interrupted ctx seq s) (ctx.recordFailure seq name error startedAtMs codec) s := by
  let refused : Except Error (Except Error Unit) → State → Prop :=
    fun r s => (∃ e, r = .ok (.error e)) ∧ Interrupted ctx seq s
  have first : Does ctx proper seq op refused (Act.get .check) s := by
    refine Does.supplied interrupted_stable interrupted (fun input s => rfl) ?_ ?_ ?_
    · rintro (⟨_, _, same⟩ | ⟨_, same⟩) <;> cases same
    · exact fun r s s' reached moved => ⟨reached.1, interrupted_stable s s' reached.2 moved⟩
    · rintro ⟨store, latch⟩ input here -
      obtain ⟨cause, latched⟩ := Option.isSome_iff_exists.mp here.2
      dsimp only at latched
      subst latched
      exact ⟨⟨_, rfl⟩, here⟩
  have checked : Does ctx proper seq op (fun r s => (∃ e, r = .error e) ∧ Interrupted ctx seq s) Context.check s := by
    refine Does.bind ?_ first ?_ ?_
    · exact fun e s s' reached moved => ⟨reached.1, interrupted_stable s s' reached.2 moved⟩
    · rintro latch s ⟨⟨e, same⟩, here⟩
      cases same
      exact fun s' moved => ⟨⟨e, rfl⟩, interrupted_stable s s' here moved⟩
    · rintro e s ⟨⟨e', same⟩, -⟩
      cases same
  refine Does.bind (fun e => interrupted_stable) checked ?_ ?_
  · rintro a s ⟨⟨e, same⟩, -⟩
    cases same
  · rintro e s ⟨-, here⟩
    exact here

theorem stepWith_ends (clear : Clear ctx.workflowId proper) (free : ∀ s, refusal ctx op s = none) {name : String}
    (named : op.name = name)
    (maxRetries : Nat) (retryIf : Option (Error → Bool)) (codec : Codec δ) {s : State}
    (ready : Ready ctx seq op s) :
    Does ctx proper seq op (EndsWith ctx seq op fun row => recorded ctx codec (stepRowOutcome ctx.lib row))
      (ctx.stepWith seq name maxRetries retryIf codec) s := by
  refine Does.gated (replayOrGuard_does named codec ready) (fun row => map_id_eq _) (fun value => rfl) ?_
  intro s live
  refine Does.bind (fun e => endsWith_stable) (get_does (fun input s => rfl) live) ?_ ?_
  · rintro started s ⟨-, live⟩
    let ended : Except Error (Except Error δ) → State → Prop := fun r s => ∃ result, r = .ok result ∧
      Tried ctx seq op result s
    have tries : Does ctx proper seq op ended (ctx.runWithRetries seq name retryIf maxRetries 0).attempt s := by
      refine Does.attempt ?_ (runWithRetries_does clear name retryIf maxRetries 0 live) fun r s tried => ⟨r, rfl, tried⟩
      rintro r s s' ⟨result, same, tried⟩ moved
      exact ⟨result, same, tried_stable result s s' tried moved⟩
    refine Does.bind (fun e => endsWith_stable) tries ?_ ?_
    · rintro r s ⟨result, same, tried⟩
      cases same
      rcases tried with ⟨live, kept⟩ | ⟨⟨e, same⟩, interrupted⟩
      · exact recordResult_ends free named kept _ codec live
      · subst same
        simp only [Context.recordResult]
        split
        · exact Does.throw endsWith_stable (.inr (.inr interrupted))
        · exact Safe.mono (recordFailure_interrupted name e _ codec interrupted) fun r s here => .inr (.inr here)
    · rintro e s ⟨result, same, -⟩
      cases same
  · rintro e s ⟨⟨reply, same⟩, -⟩
    cases same

theorem select_ends (free : ∀ s, refusal ctx op s = none) (named : op.name = "DBOS.select")
    (codec : Codec (Nat × δ)) {s : State} (ready : Ready ctx seq op s) :
    Does ctx proper seq op (EndsWith ctx seq op fun row => recorded ctx codec (stepRowOutcome ctx.lib row))
      (ctx.select seq codec) s := by
  refine Does.gated (replayOrGuard_does named codec ready) (fun row => map_id_eq _) (fun value => rfl) ?_
  intro s live
  refine Does.bind (fun e => endsWith_stable) (get_does (fun input s => rfl) live) ?_ ?_
  · rintro started s ⟨-, live⟩
    refine Does.bind (fun e => endsWith_stable) (get_does (fun input s => rfl) live) ?_ ?_
    · rintro winner s ⟨-, live⟩
      cases winner with
      | some winner => exact checkpoint_ends free named winner _ codec live
      | none => trivial
    · rintro e s ⟨⟨reply, same⟩, -⟩
      cases same
  · rintro e s ⟨⟨reply, same⟩, -⟩
    cases same

/-- How a value is drawn: it comes or never does, and what holds before holds after. -/
def Draws (ctx : Context) (proper : Input δ → Inner → Ask → Prop) (seq : Int) (op : Op δ) (P : State → Prop)
    (produce : Act δ α) : Prop :=
  ∀ s, P s → Does ctx proper seq op (fun r s => (∃ value, r = .ok value) ∧ P s) produce s

theorem wakeInstant_draws (span : Duration) {P : State → Prop} (stable : Stable ctx P)
    (vacant : ∀ s, P s → s.1.steps.get (ctx.workflowId, seq) = none) :
    Draws ctx proper seq op P (Context.wakeInstant span : Act δ DateTime) := by
  intro s holds
  have keeps : ∀ r : Except Error DateTime, Stable ctx fun s => (∃ value, r = .ok value) ∧ P s :=
    fun r s s' reached moved => ⟨reached.1, stable s s' reached.2 moved⟩
  refine Does.bind (fun e => keeps _) (get_keeps stable vacant (fun input s => rfl) holds) ?_ ?_
  · rintro now s ⟨-, here⟩
    dsimp only
    generalize (if span ≤ (2 ^ 63 - 1) * 1000000 then (span : Int) else 0) = offset
    split
    · trivial
    · exact Does.pure (keeps _) ⟨⟨_, rfl⟩, here⟩
  · rintro e s ⟨⟨reply, same⟩, -⟩
    cases same

theorem durableValueAt_ends (free : ∀ s, refusal ctx op s = none) {name : String} (named : op.name = name)
    {produce : Act δ α} (draws : Draws ctx proper seq op (Live ctx seq op) produce) (codec : Codec α) {s : State}
    (ready : Ready ctx seq op s) :
    Does ctx proper seq op (EndsWith ctx seq op fun row => recorded ctx codec (stepRowOutcome ctx.lib row))
      (ctx.durableValueAt seq name produce codec) s := by
  refine Does.gated (serveRecorded_does named codec ready) (fun row => map_id_eq _) (fun value => rfl) ?_
  intro s live
  refine Does.bind (fun e => endsWith_stable) (draws s live) ?_ ?_
  · rintro value s ⟨-, live⟩
    exact checkpoint_ends free named value none codec live
  · rintro e s ⟨⟨reply, same⟩, -⟩
    cases same

theorem settled_get {again : StepRow → Except Error α} {q : Ask}
    (quiet : ∀ (input : Input δ) s, (answer ctx.lib input q s).2 = s)
    (plain : ¬ ((∃ position attempt, q = .body position attempt) ∨ ∃ position, q = .race position))
    {result : Except Error α} {s : State} (ended : EndsWith ctx seq op again result s) :
    Does ctx proper seq op (fun (r : Except Error (q.Reply δ)) s => (∃ reply, r = .ok reply) ∧
      EndsWith ctx seq op again result s) (Act.get q) s := by
  refine Does.supplied endsWith_stable ended quiet (fun body => absurd body plain) ?_ ?_
  · exact fun r s s' reached moved => ⟨reached.1, endsWith_stable s s' reached.2 moved⟩
  · exact fun s input here _ => ⟨⟨_, rfl⟩, here⟩

theorem sleep_ends (free : ∀ s, refusal ctx op s = none) (named : op.name = "DBOS.sleep") (span : Duration)
    {s : State} (ready : Ready ctx seq op s) :
    Does ctx proper seq op (EndsWith ctx seq op fun row =>
        (recorded ctx ctx.builtins.instants (stepRowOutcome ctx.lib row)).map fun _ => ())
      (ctx.sleep seq span) s := by
  have timer : Does ctx proper seq op _ (ctx.durableValueAt seq "DBOS.sleep" (Context.wakeInstant span) ctx.builtins.instants) s :=
    durableValueAt_ends free named (wakeInstant_draws span live_stable fun _ live => live.vacant) ctx.builtins.instants ready
  refine Does.bind (fun e => endsWith_stable) timer ?_ fun e s ended => ended.map _
  intro wakeAt s ended
  have plain : ∀ q : Ask, q = .now ∨ q = .wait →
      ¬ ((∃ position attempt, q = .body position attempt) ∨ ∃ position, q = .race position) := by
    rintro q (rfl | rfl) (⟨_, _, same⟩ | ⟨_, same⟩) <;> cases same
  refine Does.bind (fun e => endsWith_stable) (settled_get (fun input s => rfl) (plain _ (.inl rfl)) ended) ?_ ?_
  · rintro now s ⟨-, ended⟩
    split
    · refine Safe.mono (settled_get (fun input s => rfl) (plain _ (.inr rfl)) ended) ?_
      rintro r s ⟨⟨reply, same⟩, ended⟩
      subst same
      exact ended.map _
    · exact Does.pure endsWith_stable (ended.map _)
  · rintro e s ⟨⟨reply, same⟩, -⟩
    cases same

end Calls

end Durare.Execution

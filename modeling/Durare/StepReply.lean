import Durare.Unrivalled

/-! The transaction of a provider after a commit whose reply was lost: the row that its next attempt meets is its own. -/
namespace Durare.Transaction

open Interaction Commits Sqlite

section Provider

variable {lib : SerdeJson} {serializer : Serializer} {call : DsCall} {startedAtMs : Int} {n : Nat} {value : Option Value}
  {w : Alone} {txid : Option String} {i : Nat} {v : Value}

abbrev DsCall.at (call : DsCall) (startedAtMs : Int) : Call := ⟨call.backend, call.id, call.seq, startedAtMs, call.opts⟩

/-- The value is committed and recorded. -/
def Checked (lib : SerdeJson) (serializer : Serializer) (path : Path) (call : DsCall) (startedAtMs : Int) (n : Nat)
    (v : Value) (w : Alone) : Prop :=
  Committed lib serializer path call startedAtMs n v w ∧ ∃ row, w.state.sys.rows.get call.position = some row

/-- How an attempt ends: with what is committed, or with a failure of the body before anything was. -/
def Reached (lib : SerdeJson) (serializer : Serializer) (call : DsCall) (startedAtMs : Int) (n : Nat) :
    TransactionAttempt → Alone → Prop
  | .committed v, w => Checked lib serializer .provider call startedAtMs n v w
  | .bodyFailed _, w => Held lib serializer .provider call startedAtMs none w.state ∧ w.failures ≤ n

theorem Held.record {s : State} {row : StepRecord} {path : Path}
    (held : Held lib serializer path call startedAtMs (some v) s)
    (inside : path ≠ .external) (told : Told lib serializer call startedAtMs v row) :
    Held lib serializer path call startedAtMs (some v)
      { s with sys := { s.sys with rows := s.sys.rows.put call.position row } } := by
  constructor
  · exact held.alive
  · simpa [Path.commits, Path.ran, inside] using held.committed
  · simpa [Path.commits, inside] using held.applied
  · exact held.storable
  · intro row' stored
    simp only [Table.get_put, if_true, Option.some.injEq] at stored
    subst stored
    exact ⟨inside, v, rfl, told⟩
  · exact held.completion
  · intro u known writing
    exact ⟨fun outside => absurd outside inside, fun _ => by simp⟩

/-- A step marked as reading only is recorded behind its commit, by the attempt. -/
theorem recordRead_goes (committed : Committed lib serializer .provider call startedAtMs n v w) :
    Goes lib serializer .provider call startedAtMs n
      (fun outcome w' => outcome = .output v ∧ Checked lib serializer .provider call startedAtMs n v w')
      (ask (.recordStepResult call.id call.seq call.opts.name v none (some startedAtMs) none) rfl) w := by
  obtain ⟨held, few⟩ := committed
  have storable := held.storable v rfl
  -- the row is the first one, or it stands already
  have recorded : ∀ now, ∃ db row, Held lib serializer .provider call startedAtMs (some v) (w.state.withDb db) ∧
      (w.state.withDb db).sys.rows.get call.position = some row ∧
      recordStepResult lib serializer now call.id call.seq call.opts.name v none (some startedAtMs) none w.state.db =
        (.ok (.output v), db) := by
    intro now
    cases stored : w.state.sys.rows.get call.position with
    | some row =>
      obtain ⟨-, u, known, told⟩ := held.checkpoint row stored
      cases known
      exact ⟨w.state.db, row, held, stored, recordStepResult_again storable stored told⟩
    | none =>
      obtain ⟨flow, present, -⟩ := held.alive
      have alive : ∃ row, w.state.db.workflowStatus.get call.id = some row := ⟨flow, present⟩
      obtain ⟨row, told, answered⟩ := recordStepResult_first storable stored alive
      refine ⟨_, row, ?_, ?_, answered⟩
      · exact held.record (by decide) told
      · simp [State.withDb, refreshExecutor]
  intro w' unmoved r w'' served
  cases unmoved
  obtain ⟨input, fit, rfl, rfl⟩ := served
  intro w' unmoved
  cases unmoved
  obtain ⟨db, row, held', stored', answered⟩ := recorded input.now
  simp only [answer, answered, Input.replies]
  cases fault : input.fault with
  | none =>
    have plain : input.leaves w.state (w.state.withDb db) = w.state.withDb db := by simp [Input.leaves, fault]
    rw [plain]
    exact ⟨rfl, ⟨held', by simpa [Alone.after, spent, fault] using few⟩, row, stored'⟩
  | some e =>
    obtain ⟨⟨clears, room, -⟩, -⟩ := fit
    have few' : 0 < w.failures := room (by simp [spent, fault])
    refine ⟨(clears e fault).1, ?_, some v, ?_⟩
    · simp only [Alone.after, spent, fault, Option.isSome_some, if_true]
      omega
    · unfold Input.leaves
      split
      · exact held'
      · exact held

/-- The row that is met is one's own. -/
theorem classify_goes {text : String} (committed : Committed lib serializer .provider call startedAtMs n v w)
    (encodes : serializer.encode lib v = .ok text) {row : StepRecord} (stored : w.state.sys.rows.get call.position = some row) :
    Goes lib serializer .provider call startedAtMs n (fun _ => Checked lib serializer .provider call startedAtMs n v)
      (classifyLostTxnCheckpoint (call.at startedAtMs) (some text) none) w := by
  obtain ⟨held, few⟩ := committed
  obtain ⟨-, u, known, told⟩ := held.checkpoint row stored
  cases known
  obtain ⟨text', encodes', output⟩ := told.output
  rw [encodes] at encodes'
  cases encodes'
  have found : Goes lib serializer .provider call startedAtMs n
      (fun found w' => found = some row ∧ Checked lib serializer .provider call startedAtMs n v w')
      (ask (.selectStep call.id call.seq) rfl) w := by
    apply quiet_goes held few (fun _ => rfl) (fun _ => rfl) (fun _ => rfl)
    intro input w' _ same fewer _
    exact ⟨stored, ⟨same ▸ held, Nat.le_trans fewer few⟩, row, same ▸ stored⟩
  apply found.then
  intro found w' known
  obtain ⟨rfl, checked⟩ := known
  simp only [told.name, output, told.failure, told.started, ne_eq, not_true_eq_false, if_false, and_self, if_true]
  exact pure_goes checked

theorem insertStep_goes {path : Path} (row : StepRecord)
    (ran : BodyRan lib serializer path call startedAtMs n value txid i (.ok v) w) :
    Goes lib serializer path call startedAtMs n
      (fun won w' => won = (w'.state.sys.rows.get call.position).isNone ∧
        BodyRan lib serializer path call startedAtMs n value w'.txid i (.ok v) w')
      (ask (.insertStep call.id call.seq row) rfl) w := by
  obtain ⟨flow, present, -⟩ := ran.held.alive
  have replies : ∀ input, (answer lib serializer input (.insertStep call.id call.seq row) w.state).1 =
      input.replies (.ok (w.state.sys.rows.get (call.id, call.seq)).isNone) := by
    intro input
    simp [answer, owned, present, Except.map]
  refine quiet_goes ran.held ran.few replies (fun _ => rfl) (fun _ => rfl) ?_
  intro input w' _ same fewer _
  refine ⟨?_, ran.later same (Nat.le_trans fewer ran.few)⟩
  rw [same]
  rfl

theorem Committed.checked {path : Path} (committed : Committed lib serializer path call startedAtMs n v w)
    (inside : path ≠ .external)
    (writing : call.opts.readOnly = false) : Checked lib serializer path call startedAtMs n v w :=
  ⟨committed, Option.isSome_iff_exists.mp ((committed.1.written v rfl writing).2 inside)⟩

/-- A row that is met tells that the value is committed. -/
theorem BodyRan.met {path : Path} {row : StepRecord}
    (ran : BodyRan lib serializer path call startedAtMs n value txid i (.ok v) w)
    (stored : w.state.sys.rows.get call.position = some row) : Committed lib serializer path call startedAtMs n v w := by
  obtain ⟨-, u, known, -⟩ := ran.held.checkpoint row stored
  rcases (ran.returned v rfl).2 with unknown | same
  · rw [unknown] at known
    cases known
  · exact ⟨same ▸ ran.held, ran.few⟩

theorem finishAttempt_goes (ran : BodyRan lib serializer .provider call startedAtMs n value txid i (.ok v) w) :
    Goes lib serializer .provider call startedAtMs n (Reached lib serializer call startedAtMs n)
      (finishAttempt lib serializer (call.at startedAtMs) i v) w := by
  obtain ⟨storable, same⟩ := ran.returned v rfl
  unfold finishAttempt
  split
  next reading =>
    apply (commitStep_read (by decide) reading ran).then
    intro _ w committed
    apply (recordRead_goes committed).then
    intro outcome w recorded
    obtain ⟨rfl, checked⟩ := recorded
    exact pure_goes checked
  next writing =>
    have writing : call.opts.readOnly = false := by simpa using writing
    obtain ⟨text, encodes, -⟩ := storable.encodes
    rw [encodes]
    have clock : Succeeds lib serializer .provider call
        (fun _ w' => BodyRan lib serializer .provider call startedAtMs n value w'.txid i (.ok v) w') (request .now) w :=
      request_succeeds (fun _ => rfl) ran.few fun _ _ _ same few => ran.later same few
    apply clock.then
    intro now w ran
    apply (insertStep_goes (successRow serializer (call.at startedAtMs) text now) ran).then
    intro won w known
    obtain ⟨rfl, ran⟩ := known
    cases stored : w.state.sys.rows.get call.position with
    | none =>
      have told : Told lib serializer call startedAtMs v (successRow serializer (call.at startedAtMs) text now) :=
        ⟨rfl, rfl, rfl, rfl, text, encodes, rfl⟩
      apply (commitStep_row (by decide) ran stored told).then
      intro _ w committed
      exact pure_goes (committed.checked (by decide) writing)
    | some row =>
      -- the transaction is given up, and the row read
      have given : Succeeds lib serializer .provider call
          (fun _ w' => Committed lib serializer .provider call startedAtMs n v w' ∧
            w'.state.sys.rows.get call.position = some row) (request (.rollback .system)) w := by
        apply request_succeeds (fun _ => rfl) ran.few
        intro _ w' _ same few
        exact ⟨(ran.later same few).met (same ▸ stored), same ▸ stored⟩
      apply given.then
      intro _ w known
      apply (classify_goes known.1 encodes known.2).then
      intro _ w checked
      exact pure_goes checked

theorem ran_goes {k : Nat × Except Error Value → Tx TransactionAttempt}
    (returned : ∀ i v, k (i, .ok v) = finishAttempt lib serializer (call.at startedAtMs) i v)
    (failed : ∀ i e, k (i, .error e) = if e.shouldRetryLiveTransaction then .throw e
      else do
        ask (.rollback .system) rfl
        pure (.bodyFailed e))
    (held : Held lib serializer .provider call startedAtMs value w.state) (few : w.failures ≤ n) :
    Goes lib serializer .provider call startedAtMs n (Reached lib serializer call startedAtMs n)
      (request (.body .system call.id call.seq call.opts.readOnly) >>= k) w := by
  apply (body_goes held few).then
  intro ended w ran
  obtain ⟨i, result⟩ := ended
  cases result with
  | ok v =>
    rw [returned]
    exact finishAttempt_goes ran
  | error e =>
    rw [failed]
    rcases ran.failed e rfl with ⟨clears, fewer⟩ | ⟨final, unknown⟩
    · rw [if_pos clears]
      intro w' same
      cases same
      exact ⟨clears, fewer, value, ran.held⟩
    · rw [if_neg (by simp [final])]
      have given : Goes lib serializer .provider call startedAtMs n
          (fun _ w' => Held lib serializer .provider call startedAtMs none w'.state ∧ w'.failures ≤ n)
          (ask (.rollback .system) rfl) w := by
        apply quiet_goes ran.held ran.few (fun _ => rfl) (fun _ => rfl) (fun _ => rfl)
        intro _ w' _ same fewer _
        exact ⟨same ▸ unknown ▸ ran.held, Nat.le_trans fewer ran.few⟩
      apply given.then
      intro _ w known
      exact pure_goes known

theorem attempt_goes (held : Held lib serializer .provider call startedAtMs value w.state) (few : w.failures ≤ n) :
    Goes lib serializer .provider call startedAtMs n (Reached lib serializer call startedAtMs n)
      (attempt lib serializer (call.at startedAtMs)) w := by
  have kept : ∀ {q : Query} {same : q.Reply = Except Error Unit} (w : Alone),
      Held lib serializer .provider call startedAtMs value w.state → w.failures ≤ n →
      (∀ input, same ▸ (answer lib serializer input q w.state).1 = input.replies (.ok ())) →
      (∀ input, (answer lib serializer input q w.state).2 = w.state) → (∀ input, spent input q = input.fault.isSome) →
      Goes lib serializer .provider call startedAtMs n
        (fun _ w' => Held lib serializer .provider call startedAtMs value w'.state ∧ w'.failures ≤ n) (ask q same) w := by
    intro q same w held few replies kept plain
    exact quiet_goes held few replies kept plain fun _ _ _ same fewer _ => ⟨same ▸ held, Nat.le_trans fewer few⟩
  apply (kept w held few (fun _ => rfl) (fun _ => rfl) (fun _ => rfl)).then
  intro _ w known
  dsimp only
  split
  · apply (kept w known.1 known.2 (fun _ => rfl) (fun _ => rfl) (fun _ => rfl)).then
    intro _ w known
    exact ran_goes (fun _ _ => rfl) (fun _ _ => rfl) known.1 known.2
  · exact ran_goes (fun _ _ => rfl) (fun _ _ => rfl) known.1 known.2

theorem Reached.mono {m : Nat} {ended : TransactionAttempt}
    (reached : Reached lib serializer call startedAtMs m ended w)
    (more : m ≤ n) : Reached lib serializer call startedAtMs n ended w := by
  cases ended with
  | committed v => exact ⟨⟨reached.1.1, Nat.le_trans reached.1.2 more⟩, reached.2⟩
  | bodyFailed e => exact ⟨reached.1, Nat.le_trans reached.2 more⟩

/-- The workflow is not cancelled, so the loop goes on. -/
theorem conflictRetryWait_succeeds (held : Held lib serializer .provider call startedAtMs value w.state)
    (few : w.failures ≤ n) :
    Succeeds lib serializer .provider call
      (fun _ w' => Held lib serializer .provider call startedAtMs value w'.state ∧ w'.failures ≤ n)
      (conflictRetryWait (call.at startedAtMs)) w := by
  have read : Succeeds lib serializer .provider call
      (fun status w' => status ≠ .ok (some .cancelled) ∧
        Held lib serializer .provider call startedAtMs value w'.state ∧ w'.failures ≤ n)
      (request (.workflowStatus call.id)) w := by
    apply request_succeeds (fun _ => rfl) few
    intro input w' _ same few
    refine ⟨?_, same ▸ held, few⟩
    intro cancelled
    obtain ⟨flow, present, alive⟩ := held.alive
    simp only [answer, present, Option.map_some, Input.replies] at cancelled
    split at cancelled
    · cases cancelled
    · exact alive (Option.some.inj (Except.ok.inj cancelled))
  apply read.then
  intro status w known
  split
  · exact absurd rfl known.1
  · exact pure_succeeds known.2

/-- The inner loop outlasts the failures. -/
theorem retryConflicts_succeeds (rounds : Nat) (held : Held lib serializer .provider call startedAtMs value w.state)
    (few : w.failures ≤ n) (enough : w.failures < rounds) :
    Succeeds lib serializer .provider call (Reached lib serializer call startedAtMs n)
      (retryConflicts lib serializer (call.at startedAtMs) rounds) w := by
  induction rounds generalizing w value with
  | zero => omega
  | succ rounds ih =>
    have tried : Succeeds lib serializer .provider call
        (Handed (Reached lib serializer call startedAtMs w.failures)
          (Broke lib serializer .provider call startedAtMs w.failures))
        (attempt lib serializer (call.at startedAtMs)).attempt w := by
      apply (attempt_goes held (Nat.le_refl w.failures)).attempted
      intro result w' known w'' same
      cases same
      cases result with
      | ok ended => exact ⟨_, rfl, known⟩
      | error e => exact ⟨_, rfl, known⟩
    apply tried.then
    intro result w' known
    cases result with
    | ok ended => exact pure_succeeds (Reached.mono known few)
    | error e =>
      obtain ⟨clears, fewer, value', held'⟩ := known
      simp only [clears, if_true]
      apply (conflictRetryWait_succeeds held' (Nat.le_refl _)).then
      intro _ w'' known
      exact ih known.1 (by omega) (by omega)

theorem classify_spares {output error : Option String} (empty : Path.provider.commits w.state = []) :
    Spares lib serializer .provider call (classifyLostTxnCheckpoint (call.at startedAtMs) output error) w := by
  apply (ask_spares (q := .selectStep call.id call.seq) trivial empty).then
  intro found w empty
  cases found with
  | none => exact throw_spares empty
  | some row =>
    dsimp only
    split
    · exact throw_spares empty
    · split
      · exact pure_spares empty
      · exact throw_spares empty

theorem recordExhausted_spares {e : Error} (empty : Path.provider.commits w.state = []) :
    Spares lib serializer .provider call (recordExhausted lib serializer (call.at startedAtMs) e) w := by
  apply (ofExcept_spares empty).then
  intro encoded w empty
  apply (request_spares (q := .now) trivial empty).then
  intro now w empty
  apply (ask_spares (q := .insertFailedStep call.id call.seq _) trivial empty).then
  intro won w empty
  cases won with
  | true => exact pure_spares empty
  | false => exact (classify_spares empty).then fun _ _ empty => pure_spares empty

def Concluded (lib : SerdeJson) (serializer : Serializer) (call : DsCall) (startedAtMs : Int) (n : Nat)
    (result : Except Error Finish) (w : Alone) : Prop :=
  Path.provider.commits w.state = [] ∨
    ∃ v, result = .ok (.committed v) ∧ Checked lib serializer .provider call startedAtMs n v w

/-- What follows an attempt, where the body may be run again or its retries are spent. -/
theorem afterAttempt_ends {ended : TransactionAttempt} {retries : Nat} {again : Tx Finish}
    (reached : Reached lib serializer call startedAtMs n ended w)
    (next : ∀ e, call.opts.shouldUserRetry e retries = true → Held lib serializer .provider call startedAtMs none w.state →
      w.failures ≤ n → Ends (alone lib serializer (Fit lib serializer .provider call))
        (Concluded lib serializer call startedAtMs n) again w) :
    Ends (alone lib serializer (Fit lib serializer .provider call)) (Concluded lib serializer call startedAtMs n)
      (afterAttempt lib serializer (call.at startedAtMs) retries again ended) w := by
  have spared : ∀ {act : Tx Finish}, Spares lib serializer .provider call act w →
      Ends (alone lib serializer (Fit lib serializer .provider call)) (Concluded lib serializer call startedAtMs n) act w :=
    fun spares => spares.mono fun _ _ empty => .inl empty
  unfold afterAttempt
  split
  next v =>
    intro w' same
    cases same
    exact .inr ⟨v, rfl, reached⟩
  · exact spared (throw_spares reached.1.uncommitted)
  · exact spared (throw_spares reached.1.uncommitted)
  next e _ _ =>
    split
    next retried => exact next e retried reached.1 reached.2
    · exact spared (recordExhausted_spares reached.1.uncommitted)

theorem retryBody_ends (rounds left : Nat) (held : Held lib serializer .provider call startedAtMs none w.state)
    (few : w.failures ≤ n) (enough : n < rounds) :
    Ends (alone lib serializer (Fit lib serializer .provider call)) (Concluded lib serializer call startedAtMs n)
      (retryBody lib serializer (call.at startedAtMs) rounds left) w := by
  induction left generalizing w with
  | zero =>
    apply (retryConflicts_succeeds rounds held few (by omega)).then
    intro ended w reached
    apply afterAttempt_ends reached
    intro e retried
    rw [shouldUserRetry_spent] at retried
    cases retried
  | succ left ih =>
    apply (retryConflicts_succeeds rounds held few (by omega)).then
    intro ended w reached
    exact afterAttempt_ends reached fun e _ held few => ih held few

theorem runTransactionStep_ends (rounds : Nat) (held : Held lib serializer .provider call startedAtMs none w.state)
    (few : w.failures ≤ n) (enough : n < rounds) :
    Ends (alone lib serializer (Fit lib serializer .provider call)) (Concluded lib serializer call startedAtMs n)
      (runTransactionStep lib serializer (call.at startedAtMs) rounds) w := by
  have vacant : w.state.sys.rows.get (call.id, call.seq) = none := held.unrecorded
  have looked : Succeeds lib serializer .provider call (fun found w' => found = none ∧ w'.state = w.state ∧ w'.failures ≤ n)
      (ask (.selectStep call.id call.seq) rfl) w := by
    intro w' unmoved r w'' served
    cases unmoved
    obtain ⟨input, fit, rfl, rfl⟩ := served
    intro w' unmoved
    cases unmoved
    have faultless := fit.1.faultless (by simp [Retried, vacant])
    exact ⟨none, by simp [answer, Input.replies, faultless, vacant], rfl, rfl,
      by simpa [Alone.after, spent, faultless] using few⟩
  apply looked.then
  intro found w' known
  obtain ⟨rfl, same, few⟩ := known
  exact retryBody_ends rounds _ (same ▸ held) few enough

theorem resolve_spares {e : Error} (empty : Path.provider.commits w.state = []) :
    Spares lib serializer .provider call (transactionWith.resolve lib serializer call e) w := by
  unfold transactionWith.resolve
  split
  · apply (getStepResult_spares empty).then
    intro step w empty
    cases step with
    | none => exact record_spares empty
    | some step => exact (checkRecorded_spares empty).then fun _ _ empty => pure_spares empty
  · exact throw_spares empty

theorem Checked.recovered {path : Path} (checked : Checked lib serializer path call startedAtMs n v w) :
    Recovered lib serializer path call (.ok (.output v)) w := by
  obtain ⟨⟨held, -⟩, row, stored⟩ := checked
  obtain ⟨-, u, known, told⟩ := held.checkpoint row stored
  cases known
  intro i member run value here _ ended
  obtain ⟨run', u, there, committed, -, known⟩ := held.committed i member
  cases known
  rw [here] at there
  cases there
  rw [ended] at committed
  cases committed
  exact ⟨rfl, row, stored, told.reads (held.storable v rfl)⟩

theorem transactionWith_recovers (rounds : Nat)
    (fresh : ∀ startedAtMs, Held lib serializer .provider call startedAtMs none w.state)
    (enough : w.failures < rounds) :
    Ends (alone lib serializer (Fit lib serializer .provider call)) (Recovered lib serializer .provider call)
      (transactionWith lib serializer call rounds) w := by
  have spared : ∀ {act : Tx StepOutcome} {w : Alone}, Spares lib serializer .provider call act w →
      Ends (alone lib serializer (Fit lib serializer .provider call)) (Recovered lib serializer .provider call) act w :=
    fun spares => spares.mono fun _ _ empty => recovered_of_empty empty
  have clock : Succeeds lib serializer .provider call
      (fun _ w' => w'.state = w.state ∧ w'.failures ≤ w.failures) (request .now) w :=
    request_succeeds (fun _ => rfl) (Nat.le_refl _) fun _ _ _ same few => ⟨same, few⟩
  apply clock.then
  intro started w' known
  have held : Held lib serializer .provider call started.timestampMillis none w'.state := known.1 ▸ fresh _
  have step : Ends (alone lib serializer (Fit lib serializer .provider call))
      (Concluded lib serializer call started.timestampMillis w.failures)
      (runTransactionStep lib serializer (call.at started.timestampMillis) rounds) w' :=
    runTransactionStep_ends rounds held known.2 enough
  have tried : Succeeds lib serializer .provider call (Concluded lib serializer call started.timestampMillis w.failures)
      (runTransactionStep lib serializer (call.at started.timestampMillis) rounds).attempt w' := by
    apply step.attempted
    intro result t known t' same
    cases same
    exact ⟨result, rfl, known⟩
  apply tried.then
  intro result w' known
  rcases known with empty | ⟨v, rfl, checked⟩
  · cases result with
    | error e => exact spared (resolve_spares empty)
    | ok finish =>
      dsimp only
      cases finish.result lib serializer with
      | ok value => exact spared (pure_spares empty)
      | error e => exact spared (resolve_spares empty)
  · intro t same
    cases same
    exact checked.recovered

end Provider

end Durare.Transaction

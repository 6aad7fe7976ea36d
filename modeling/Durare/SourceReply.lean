import Durare.StepReply

/-! The transaction on a data source after a commit whose reply was lost. -/
namespace Durare.Transaction

open Interaction Commits Sqlite

section Source

variable {lib : SerdeJson} {serializer : Serializer} {path : Path} {call : DsCall} {startedAtMs : Int} {n : Nat}
  {value : Option Value} {w : Alone} {txid : Option String} {i : Nat} {v : Value}

theorem beginOn_goes (held : Held lib serializer path call startedAtMs value w.state) (few : w.failures ≤ n) :
    Goes lib serializer path call startedAtMs n
      (fun _ w' => Held lib serializer path call startedAtMs value w'.state ∧ w'.failures ≤ n ∧ w'.txid = none)
      (beginOn call path.site) w := by
  have begun : Goes lib serializer path call startedAtMs n
      (fun _ w' => Held lib serializer path call startedAtMs value w'.state ∧ w'.failures ≤ n ∧ w'.txid = none)
      (ask (.begin path.site) rfl) w := by
    apply quiet_goes held few (fun _ => rfl) (fun _ => rfl) (fun _ => rfl)
    exact fun _ _ _ same fewer closed => ⟨same ▸ held, Nat.le_trans fewer few, closed⟩
  apply begun.then
  intro _ w known
  obtain ⟨held, few, closed⟩ := known
  split
  · apply quiet_goes held few (fun _ => rfl) (fun _ => rfl) (fun _ => rfl)
    exact fun _ _ _ same fewer open_ => ⟨same ▸ held, Nat.le_trans fewer few, open_.trans closed⟩
  · exact pure_goes ⟨held, few, closed⟩

/-- The number of the transaction that was begun. -/
theorem txFingerprint_first (held : Held lib serializer path call startedAtMs value w.state) (few : w.failures ≤ n)
    (closed : w.txid = none) : Goes lib serializer path call startedAtMs n
      (fun id w' => Held lib serializer path call startedAtMs value w'.state ∧ w'.failures ≤ n ∧ w'.txid = id ∧
        (id.isSome = true → call.backend = .postgres)) (txFingerprint call) w := by
  unfold txFingerprint
  split
  next postgres =>
    apply quiet_goes held few (fun _ => rfl) (fun _ => rfl) (fun _ => rfl)
    exact fun _ _ _ same fewer number => ⟨same ▸ held, Nat.le_trans fewer few, number, fun _ => postgres⟩
  next sqlite => exact pure_goes ⟨held, few, closed, fun never => nomatch never⟩

/-- It keeps that number. -/
theorem txFingerprint_again {id : String}
    (ran : BodyRan lib serializer path call startedAtMs n value (some id) i (.ok v) w)
    (postgres : call.backend = .postgres) : Goes lib serializer path call startedAtMs n
      (fun found w' => found = some id ∧ BodyRan lib serializer path call startedAtMs n value w'.txid i (.ok v) w')
      (txFingerprint call) w := by
  unfold txFingerprint
  rw [postgres]
  apply quiet_goes ran.held ran.few (fun _ => rfl) (fun _ => rfl) (fun _ => rfl)
  intro input w' fit same fewer _
  exact ⟨fit.1.2.2 rfl id ran.txid, ran.later same (Nat.le_trans fewer ran.few)⟩

/-- How a body ends in its transaction: it returned, or it failed before anything was committed. -/
def BodyEnd (lib : SerdeJson) (serializer : Serializer) (path : Path) (call : DsCall) (startedAtMs : Int) (n : Nat)
    (value : Option Value) : Nat × Value ⊕ DsAttempt → Alone → Prop
  | .inl (i, v), w => BodyRan lib serializer path call startedAtMs n value w.txid i (.ok v) w
  | .inr ended, w => (∃ e, ended = .bodyFailed e) ∧ Held lib serializer path call startedAtMs none w.state ∧ w.failures ≤ n

theorem runBody_goes (held : Held lib serializer path call startedAtMs value w.state) (few : w.failures ≤ n) :
    Goes lib serializer path call startedAtMs n (BodyEnd lib serializer path call startedAtMs n value) (runBody call path.site) w := by
  apply (beginOn_goes held few).then
  intro _ w known
  obtain ⟨held, few, closed⟩ := known
  apply (txFingerprint_first held few closed).then
  intro expected w known
  obtain ⟨held, few, rfl, postgres⟩ := known
  apply (body_goes held few).then
  intro ended w' ran
  obtain ⟨i, result⟩ := ended
  cases result with
  | ok v =>
    cases number : w.txid with
    | none =>
      have ran : BodyRan lib serializer path call startedAtMs n value w'.txid i (.ok v) w' := ran.later rfl ran.few
      exact pure_goes ran
    | some id =>
      rw [number] at ran postgres
      apply (txFingerprint_again ran (postgres rfl)).then
      intro found w' known
      obtain ⟨rfl, ran⟩ := known
      simp only [ne_eq, not_true_eq_false, if_false]
      exact pure_goes ran
  | error e =>
    have given : Goes lib serializer path call startedAtMs n
        (fun _ w'' => w''.state = w'.state ∧ w''.failures ≤ w'.failures) (ask (.rollback path.site) rfl) w' := by
      apply quiet_goes ran.held ran.few (fun _ => rfl) (fun _ => rfl) (fun _ => rfl)
      exact fun _ _ _ same fewer _ => ⟨same, fewer⟩
    apply given.then
    intro _ w'' known
    obtain ⟨same, fewer⟩ := known
    rcases ran.failed e rfl with ⟨clears, few'⟩ | ⟨final, unknown⟩
    · rw [if_pos clears]
      intro t moved
      cases moved
      exact ⟨clears, by omega, value, same ▸ ran.held⟩
    · rw [if_neg (by simp [final])]
      exact pure_goes ⟨⟨e, rfl⟩, same ▸ unknown ▸ ran.held, Nat.le_trans fewer ran.few⟩

def Met (path : Path) (call : DsCall) (s : State) : Prop :=
  if path = .external then (s.app.rows.get call.position).isSome = true else (s.sys.rows.get call.position).isSome = true

def DsReached (lib : SerdeJson) (serializer : Serializer) (path : Path) (call : DsCall) (startedAtMs : Int) (n : Nat) :
    DsAttempt → Alone → Prop
  | .committed v, w => Committed lib serializer path call startedAtMs n v w ∧ (call.opts.readOnly = false → Met path call w.state)
  | .alreadyCompleted v, w => Committed lib serializer path call startedAtMs n v w ∧ Met path call w.state
  | .bodyFailed _, w => Held lib serializer path call startedAtMs none w.state ∧ w.failures ≤ n

theorem Committed.met (committed : Committed lib serializer path call startedAtMs n v w)
    (writing : call.opts.readOnly = false) :
    Met path call w.state := by
  obtain ⟨outside, inside⟩ := committed.1.written v rfl writing
  unfold Met
  split
  next here => exact outside here
  next here => exact inside here

theorem BodyEnd.reached {ended : DsAttempt}
    (known : BodyEnd lib serializer path call startedAtMs n value (.inr ended) w) :
    DsReached lib serializer path call startedAtMs n ended w := by
  obtain ⟨⟨e, rfl⟩, held, few⟩ := known
  exact ⟨held, few⟩

theorem datasourceAttempt_goes (held : Held lib serializer .external call startedAtMs value w.state)
    (few : w.failures ≤ n) :
    Goes lib serializer .external call startedAtMs n (DsReached lib serializer .external call startedAtMs n)
      (datasourceAttempt lib serializer call) w := by
  apply (runBody_goes held few).then
  intro ended w known
  cases ended with
  | inr ended => exact pure_goes known.reached
  | inl ended =>
    obtain ⟨i, v⟩ := ended
    have ran : BodyRan lib serializer .external call startedAtMs n value w.txid i (.ok v) w := known
    obtain ⟨storable, agrees⟩ := ran.returned v rfl
    dsimp only
    split
    next reading =>
      apply (commitCompletion_read reading ran).then
      intro _ w committed
      refine pure_goes ⟨committed, ?_⟩
      intro writing
      rw [reading] at writing
      cases writing
    next writing =>
      have writing : call.opts.readOnly = false := by simpa using writing
      obtain ⟨text, encodes, -⟩ := storable.encodes
      rw [encodes]
      have inserted : Goes lib serializer .external call startedAtMs n
          (fun won w' => won = (w'.state.app.rows.get call.position).isNone ∧
            BodyRan lib serializer .external call startedAtMs n value w'.txid i (.ok v) w')
          (ask (.insertCompletion call.id call.seq ⟨some text, none, some serializer.name⟩) rfl) w := by
        apply quiet_goes ran.held ran.few (fun _ => rfl) (fun _ => rfl) (fun _ => rfl)
        intro _ w' _ same fewer _
        refine ⟨?_, ran.later same (Nat.le_trans fewer ran.few)⟩
        rw [same]
        rfl
      apply inserted.then
      intro won w known
      obtain ⟨rfl, ran⟩ := known
      cases stored : w.state.app.rows.get call.position with
      | none =>
        apply (commitCompletion_row ran stored encodes).then
        intro _ w committed
        exact pure_goes ⟨committed, fun writing => committed.met writing⟩
      | some row =>
        have given : Succeeds lib serializer .external call
            (fun _ w' => DsReached lib serializer .external call startedAtMs n (.alreadyCompleted v) w')
            (request (.rollback .application)) w := by
          apply request_succeeds (fun _ => rfl) ran.few
          intro _ w' _ same few
          obtain ⟨u, _, known, -⟩ := ran.held.completion row stored
          have known : value = some v := by
            rcases agrees with unknown | same
            · rw [unknown] at known
              cases known
            · exact same
          refine ⟨⟨same ▸ known ▸ ran.held, few⟩, ?_⟩
          rw [same]
          exact Option.isSome_iff_exists.mpr ⟨row, stored⟩
        apply given.then
        intro _ w reached
        exact pure_goes reached

theorem systemDatasourceAttempt_goes (held : Held lib serializer .system call startedAtMs value w.state)
    (few : w.failures ≤ n) :
    Goes lib serializer .system call startedAtMs n (DsReached lib serializer .system call startedAtMs n)
      (systemDatasourceAttempt lib serializer call startedAtMs) w := by
  apply (runBody_goes held few).then
  intro ended w known
  cases ended with
  | inr ended => exact pure_goes known.reached
  | inl ended =>
    obtain ⟨i, v⟩ := ended
    have ran : BodyRan lib serializer .system call startedAtMs n value w.txid i (.ok v) w := known
    obtain ⟨storable, agrees⟩ := ran.returned v rfl
    dsimp only
    split
    next reading =>
      apply (commitStep_read (by decide) reading ran).then
      intro _ w committed
      refine pure_goes ⟨committed, ?_⟩
      intro writing
      rw [reading] at writing
      cases writing
    next writing =>
      obtain ⟨text, encodes, -⟩ := storable.encodes
      rw [encodes]
      have clock : Succeeds lib serializer .system call
          (fun _ w' => BodyRan lib serializer .system call startedAtMs n value w'.txid i (.ok v) w') (request .now) w :=
        request_succeeds (fun _ => rfl) ran.few fun _ _ _ same few => ran.later same few
      apply clock.then
      intro now w ran
      apply (insertStep_goes (successRow serializer (call.at startedAtMs) text now) ran).then
      intro won w known
      obtain ⟨rfl, ran⟩ := known
      cases stored : w.state.sys.rows.get call.position with
      | none =>
        have told : Told lib serializer call startedAtMs v (successRow serializer (call.at startedAtMs) text now) :=
          ⟨rfl, rfl, rfl, rfl, text, encodes, rfl⟩
        apply (commitStep_row (by decide) ran stored told).then
        intro _ w committed
        exact pure_goes ⟨committed, fun writing => committed.met writing⟩
      | some row =>
        have given : Succeeds lib serializer .system call
            (fun _ w' => DsReached lib serializer .system call startedAtMs n (.alreadyCompleted v) w')
            (request (.rollback .system)) w := by
          apply request_succeeds (fun _ => rfl) ran.few
          intro _ w' _ same few
          refine ⟨(ran.later same few).met (same ▸ stored), ?_⟩
          rw [same]
          exact Option.isSome_iff_exists.mpr ⟨row, stored⟩
        apply given.then
        intro _ w reached
        exact pure_goes reached

theorem DsReached.mono {m : Nat} {ended : DsAttempt}
    (reached : DsReached lib serializer path call startedAtMs m ended w)
    (more : m ≤ n) : DsReached lib serializer path call startedAtMs n ended w := by
  cases ended with
  | committed | alreadyCompleted => exact ⟨⟨reached.1.1, Nat.le_trans reached.1.2 more⟩, reached.2⟩
  | bodyFailed e => exact ⟨reached.1, Nat.le_trans reached.2 more⟩

theorem guardCancelled_succeeds (source : path ≠ .provider)
    (held : Held lib serializer path call startedAtMs value w.state) :
    Succeeds lib serializer path call (fun _ w' => w'.state = w.state ∧ w'.failures = w.failures) (guardCancelled call) w := by
  obtain ⟨flow, present, alive⟩ := held.alive
  have read : Succeeds lib serializer path call
      (fun status w' => status = .ok (some flow.status) ∧ w'.state = w.state ∧ w'.failures = w.failures)
      (request (.workflowStatus call.id)) w := by
    apply request_final (by simp [Retried, source])
    intro input _ faultless
    simp [answer, Input.replies, faultless, present, Alone.after, spent]
  apply read.then
  intro status w' known
  obtain ⟨rfl, same⟩ := known
  simp only [storage]
  generalize flow.status = status at alive ⊢
  cases status with
  | cancelled => exact absurd rfl alive
  | _ => exact pure_succeeds same

/-- The inner loop outlasts the failures. -/
theorem retryAttempts_succeeds {tried : Tx DsAttempt} (rounds : Nat) (source : path ≠ .provider)
    (goes : ∀ (w : Alone) value, Held lib serializer path call startedAtMs value w.state →
      Goes lib serializer path call startedAtMs w.failures (DsReached lib serializer path call startedAtMs w.failures) tried w)
    (held : Held lib serializer path call startedAtMs value w.state) (few : w.failures ≤ n) (enough : w.failures < rounds) :
    Succeeds lib serializer path call (DsReached lib serializer path call startedAtMs n) (retryAttempts call tried rounds) w := by
  induction rounds generalizing w value with
  | zero => omega
  | succ rounds ih =>
    have handed : Succeeds lib serializer path call
        (Handed (DsReached lib serializer path call startedAtMs w.failures)
          (Broke lib serializer path call startedAtMs w.failures)) tried.attempt w := by
      apply (goes w value held).attempted
      intro result w' known w'' same
      cases same
      cases result with
      | ok ended => exact ⟨_, rfl, known⟩
      | error e => exact ⟨_, rfl, known⟩
    apply handed.then
    intro result w' known
    cases result with
    | ok ended => exact pure_succeeds (DsReached.mono known few)
    | error e =>
      obtain ⟨clears, fewer, value', held'⟩ := known
      simp only [clears, if_true]
      apply (guardCancelled_succeeds source held').then
      intro _ w'' known
      exact ih (known.1 ▸ held') (by omega) (by omega)

/-- What a path does with the end of an attempt recovers what was committed. -/
structure Handles (lib : SerdeJson) (serializer : Serializer) (path : Path) (call : DsCall) (startedAtMs : Int)
    (committed completed : Value → Tx StepOutcome) (failed : Error → Tx StepOutcome) : Prop where
  committed : ∀ n v w, DsReached lib serializer path call startedAtMs n (.committed v) w →
    Ends (alone lib serializer (Fit lib serializer path call)) (Recovered lib serializer path call) (committed v) w
  completed : ∀ n v w, DsReached lib serializer path call startedAtMs n (.alreadyCompleted v) w →
    Ends (alone lib serializer (Fit lib serializer path call)) (Recovered lib serializer path call) (completed v) w
  failed : ∀ e w, path.commits w.state = [] → Spares lib serializer path call (failed e) w

theorem retryDsBody_recovers {tried : Tx DsAttempt} {committed completed : Value → Tx StepOutcome}
    {failed : Error → Tx StepOutcome}
    (rounds left : Nat) (source : path ≠ .provider)
    (goes : ∀ (w : Alone) value, Held lib serializer path call startedAtMs value w.state →
      Goes lib serializer path call startedAtMs w.failures (DsReached lib serializer path call startedAtMs w.failures) tried w)
    (handles : Handles lib serializer path call startedAtMs committed completed failed)
    (held : Held lib serializer path call startedAtMs none w.state) (few : w.failures ≤ n) (enough : n < rounds) :
    Ends (alone lib serializer (Fit lib serializer path call)) (Recovered lib serializer path call)
      (retryDsBody call tried committed completed failed rounds left) w := by
  have after : ∀ {retries : Nat} {again : Tx StepOutcome} {ended : DsAttempt} {w : Alone},
      DsReached lib serializer path call startedAtMs n ended w →
      (∀ e, call.opts.shouldUserRetry e retries = true → Held lib serializer path call startedAtMs none w.state →
        w.failures ≤ n → Ends (alone lib serializer (Fit lib serializer path call)) (Recovered lib serializer path call) again w) →
      Ends (alone lib serializer (Fit lib serializer path call)) (Recovered lib serializer path call)
        (afterDsAttempt call committed completed failed retries again ended) w := by
    intro retries again ended w reached next
    cases ended with
    | committed v => exact handles.committed n v w reached
    | alreadyCompleted v => exact handles.completed n v w reached
    | bodyFailed e =>
      simp only [afterDsAttempt]
      split
      next retried => exact next e retried reached.1 reached.2
      · exact (handles.failed e w reached.1.uncommitted).mono fun _ _ empty => recovered_of_empty empty
  induction left generalizing w with
  | zero =>
    apply (retryAttempts_succeeds rounds source goes held few (by omega)).then
    intro ended w reached
    apply after reached
    intro e retried
    rw [shouldUserRetry_spent] at retried
    cases retried
  | succ left ih =>
    apply (retryAttempts_succeeds rounds source goes held few (by omega)).then
    intro ended w reached
    exact after reached fun e _ held few => ih held few

/-- The checkpoint follows from what is committed. -/
theorem recordStep_recovers (source : path ≠ .provider)
    (committed : Committed lib serializer path call startedAtMs n v w) :
    Ends (alone lib serializer (Fit lib serializer path call)) (Recovered lib serializer path call)
      (recordStep call v none startedAtMs) w := by
  obtain ⟨held, -⟩ := committed
  have storable := held.storable v rfl
  have recorded : ∀ now, ∃ db row, Told lib serializer call startedAtMs v row ∧
      (w.state.withDb db).sys.rows.get call.position = some row ∧
      recordStepResult lib serializer now call.id call.seq call.opts.name v none (some startedAtMs) (some call.executorId)
        w.state.db = (.ok (.output v), db) := by
    intro now
    cases stored : w.state.sys.rows.get call.position with
    | some row =>
      obtain ⟨-, u, known, told⟩ := held.checkpoint row stored
      cases known
      exact ⟨w.state.db, row, told, stored, recordStepResult_again storable stored told⟩
    | none =>
      obtain ⟨flow, present, -⟩ := held.alive
      have alive : ∃ row, w.state.db.workflowStatus.get call.id = some row := ⟨flow, present⟩
      obtain ⟨row, told, answered⟩ := recordStepResult_first storable stored alive
      refine ⟨_, row, told, ?_, answered⟩
      simp [State.withDb, refreshExecutor]
  have asked : Succeeds lib serializer path call
      (fun reply w' => reply = .ok (.output v) ∧ Recovered lib serializer path call (.ok (.output v)) w')
      (request (.recordStepResult call.id call.seq call.opts.name v none (some startedAtMs) (some call.executorId))) w := by
    apply request_final (by simp [Retried, source])
    intro input _ faultless
    obtain ⟨db, row, told, stored, answered⟩ := recorded input.now
    simp only [answer, answered, Input.replies, faultless, Input.leaves, Option.isNone_none, Bool.true_or, if_true, true_and]
    intro i member run value here _ ended
    obtain ⟨run', u, there, committed, -, known⟩ := held.committed i member
    cases known
    cases here.symm.trans there
    rw [ended] at committed
    cases committed
    exact ⟨rfl, row, stored, told.reads storable⟩
  apply asked.then
  intro reply w' known
  obtain ⟨rfl, recovered⟩ := known
  intro t same
  cases same
  exact recovered

theorem recordStep_spares {error : Option String} (empty : path.commits w.state = []) :
    Spares lib serializer path call (recordStep call v error startedAtMs) w := by
  have asked : Spares lib serializer path call
      (request (.recordStepResult call.id call.seq call.opts.name v error (some startedAtMs) (some call.executorId))) w :=
    request_spares (q := .recordStepResult _ _ _ _ _ _ _) trivial empty
  exact asked.then fun _ _ empty => storage_spares empty

theorem recordFailure_spares {e : Error} (empty : path.commits w.state = []) :
    Spares lib serializer path call (recordFailure lib serializer call e startedAtMs) w := by
  apply (ask_spares (q := .check) trivial empty).then
  intro _ w empty
  apply (storage_spares empty).then
  exact fun _ _ empty => recordStep_spares empty

theorem mirrorFailure_spares {e : Error} (empty : path.commits w.state = []) :
    Spares lib serializer path call (mirrorFailure lib serializer call startedAtMs e) w := by
  apply (storage_spares empty).then
  intro encoded w empty
  apply (request_spares (q := .insertFailure call.id call.seq _) trivial empty).then
  exact fun _ _ empty => recordFailure_spares empty

/-- The completion row that is met is one's own. -/
theorem adoptCompletion_recovers (reached : DsReached lib serializer .external call startedAtMs n (.alreadyCompleted v) w) :
    Ends (alone lib serializer (Fit lib serializer .external call)) (Recovered lib serializer .external call)
      (adoptCompletion lib serializer call startedAtMs v) w := by
  obtain ⟨⟨held, few⟩, met⟩ := reached
  obtain ⟨row, stored⟩ := Option.isSome_iff_exists.mp met
  obtain ⟨u, text, known, encodes, rfl⟩ := held.completion row stored
  cases known
  obtain ⟨text', encodes', reads⟩ := (held.storable v rfl).encodes
  rw [encodes] at encodes'
  cases encodes'
  have fetched : Succeeds lib serializer .external call
      (fun found w' => found = .ok (some ⟨some text, none, some serializer.name⟩) ∧
        Committed lib serializer .external call startedAtMs n v w') (request (.fetchCompletion call.id call.seq)) w := by
    apply request_final rfl
    intro input _ faultless
    refine ⟨?_, held, ?_⟩
    · simp only [answer, Input.replies, faultless]
      exact congrArg _ stored
    · simpa [Alone.after, spent, faultless] using few
  apply fetched.then
  intro found w' known
  obtain ⟨rfl, committed⟩ := known
  have alike : completionRowMatches lib serializer ⟨some text, none, some serializer.name⟩ v = .ok true := by
    simp [completionRowMatches, reads, Except.map, Value.partialEq_refl]
  have replayed : replayCompletionRow lib serializer call ⟨some text, none, some serializer.name⟩ startedAtMs =
      recordStep call v none startedAtMs := by
    simp only [replayCompletionRow, reads, storage]
    rfl
  change Ends _ _ (do
    if ← storage (completionRowMatches lib serializer ⟨some text, none, some serializer.name⟩ v) then
      replayCompletionRow lib serializer call ⟨some text, none, some serializer.name⟩ startedAtMs
    else .throw (.workflowConflict call.id) : Tx StepOutcome) w'
  rw [alike, replayed]
  exact recordStep_recovers (by decide) committed

/-- The checkpoint that is met is one's own. -/
theorem adoptCheckpoint_recovers (reached : DsReached lib serializer .system call startedAtMs n (.alreadyCompleted v) w) :
    Ends (alone lib serializer (Fit lib serializer .system call)) (Recovered lib serializer .system call)
      (adoptCheckpoint lib serializer call v) w := by
  obtain ⟨committed, met⟩ := reached
  obtain ⟨row, stored⟩ := Option.isSome_iff_exists.mp met
  have checked : Checked lib serializer .system call startedAtMs n v w := ⟨committed, row, stored⟩
  obtain ⟨-, u, known, told⟩ := committed.1.checkpoint row stored
  cases known
  have reads := told.reads (committed.1.storable v rfl)
  have found : Succeeds lib serializer .system call
      (fun found w' => found = .ok (some row) ∧ Checked lib serializer .system call startedAtMs n v w')
      (request (.selectStep call.id call.seq)) w := by
    apply request_final rfl
    intro input _ faultless
    refine ⟨?_, ⟨committed.1, ?_⟩, row, stored⟩
    · simp only [answer, Input.replies, faultless]
      exact congrArg _ stored
    · simpa [Alone.after, spent, faultless] using committed.2
  have looked : Succeeds lib serializer .system call
      (fun step w' => step = some ⟨call.opts.name, .output v⟩ ∧ Checked lib serializer .system call startedAtMs n v w')
      (getStepResult lib serializer call) w := by
    apply found.then
    intro found w' known
    obtain ⟨rfl, checked⟩ := known
    change Succeeds lib serializer .system call _ (do
      let outcome ← storage (checkpointReads lib serializer row)
      pure (outcome.map fun outcome => ⟨row.functionName, outcome⟩) : Tx (Option RecordedStep)) w'
    rw [reads, told.name]
    exact pure_succeeds ⟨rfl, checked⟩
  apply looked.then
  intro step w' known
  obtain ⟨rfl, checked⟩ := known
  simp only [checkRecorded, ne_eq, not_true_eq_false, if_false, Value.partialEq_refl, if_true]
  intro t same
  cases same
  exact checked.recovered

theorem external_handles :
    Handles lib serializer .external call startedAtMs (fun value => recordStep call value none startedAtMs)
    (adoptCompletion lib serializer call startedAtMs) (mirrorFailure lib serializer call startedAtMs) where
  committed := fun _ _ _ reached => recordStep_recovers (by decide) reached.1
  completed := fun _ _ _ reached => adoptCompletion_recovers reached
  failed := fun _ _ empty => mirrorFailure_spares empty

theorem system_handles : Handles lib serializer .system call startedAtMs
    (fun value => if call.opts.readOnly then recordStep call value none startedAtMs else pure (.output value))
    (adoptCheckpoint lib serializer call) (fun e => recordFailure lib serializer call e startedAtMs) where
  committed := by
    intro n v w reached
    split
    · exact recordStep_recovers (by decide) reached.1
    next writing =>
      have checked := reached.1.checked (by decide) (by simpa using writing)
      intro t same
      cases same
      exact checked.recovered
  completed := fun _ _ _ reached => adoptCheckpoint_recovers reached
  failed := fun _ _ empty => recordFailure_spares empty

/-- Nothing is recorded yet, and the workflow is not cancelled. -/
theorem replayOrGuard_passes (source : path ≠ .provider)
    (held : Held lib serializer path call startedAtMs none w.state) :
    Succeeds lib serializer path call (fun outcome w' => outcome = none ∧ w'.state = w.state ∧ w'.failures = w.failures)
      (replayOrGuard lib serializer call) w := by
  have found : Succeeds lib serializer path call
      (fun found w' => found = .ok none ∧ w'.state = w.state ∧ w'.failures = w.failures)
      (request (.selectStep call.id call.seq)) w := by
    apply request_final (by simp [Retried, source])
    intro input _ faultless
    refine ⟨?_, rfl, by simp [Alone.after, spent, faultless]⟩
    simp only [answer, Input.replies, faultless]
    exact congrArg _ held.unrecorded
  have looked : Succeeds lib serializer path call
      (fun step w' => step = none ∧ w'.state = w.state ∧ w'.failures = w.failures) (getStepResult lib serializer call) w := by
    apply found.then
    intro found w' known
    obtain ⟨rfl, same⟩ := known
    exact pure_succeeds ⟨rfl, same⟩
  apply looked.then
  intro step w' known
  obtain ⟨rfl, same, few⟩ := known
  apply (guardCancelled_succeeds source (same ▸ held)).then
  intro _ w'' known
  exact pure_succeeds ⟨rfl, known.1.trans same, known.2.trans few⟩

theorem runDatasourceTransaction_external (rounds : Nat)
    (fresh : ∀ startedAtMs, Held lib serializer .external call startedAtMs none w.state) (enough : w.failures < rounds) :
    Ends (alone lib serializer (Fit lib serializer .external call)) (Recovered lib serializer .external call)
      (runDatasourceTransaction lib serializer call .external rounds) w := by
  apply (replayOrGuard_passes (by decide) (fresh 0)).then
  intro outcome w' known
  obtain ⟨rfl, same, few⟩ := known
  have clock : Succeeds lib serializer .external call (fun _ t => t.state = w'.state ∧ t.failures ≤ w'.failures) (request .now) w' :=
    request_succeeds (fun _ => rfl) (Nat.le_refl _) fun _ _ _ same few => ⟨same, few⟩
  apply clock.then
  intro started t known
  have held : Held lib serializer .external call started.timestampMillis none t.state := by
    rw [known.1, same]
    exact fresh _
  have vacant : t.state.app.rows.get (call.id, call.seq) = none := by
    cases stored : t.state.app.rows.get (call.id, call.seq) with
    | none => rfl
    | some row =>
      obtain ⟨_, _, known, -⟩ := held.completion row stored
      cases known
  have fetched : Succeeds lib serializer .external call
      (fun found t' => found = .ok none ∧ t'.state = t.state ∧ t'.failures = t.failures)
      (request (.fetchCompletion call.id call.seq)) t := by
    apply request_final rfl
    intro input _ faultless
    exact ⟨by simp [answer, Input.replies, faultless, vacant], rfl, by simp [Alone.after, spent, faultless]⟩
  apply fetched.then
  intro found t' known'
  obtain ⟨rfl, same', few'⟩ := known'
  apply retryDsBody_recovers (n := t'.failures) rounds _ (by decide) _ external_handles (same' ▸ held) (Nat.le_refl _) (by omega)
  exact fun w value held => datasourceAttempt_goes held (Nat.le_refl _)

theorem runDatasourceTransaction_system (rounds : Nat)
    (fresh : ∀ startedAtMs, Held lib serializer .system call startedAtMs none w.state) (enough : w.failures < rounds) :
    Ends (alone lib serializer (Fit lib serializer .system call)) (Recovered lib serializer .system call)
      (runDatasourceTransaction lib serializer call .system rounds) w := by
  apply (replayOrGuard_passes (by decide) (fresh 0)).then
  intro outcome w' known
  obtain ⟨rfl, same, few⟩ := known
  have clock : Succeeds lib serializer .system call (fun _ t => t.state = w'.state ∧ t.failures ≤ w'.failures) (request .now) w' :=
    request_succeeds (fun _ => rfl) (Nat.le_refl _) fun _ _ _ same few => ⟨same, few⟩
  apply clock.then
  intro started t known
  have held : Held lib serializer .system call started.timestampMillis none t.state := by
    rw [known.1, same]
    exact fresh _
  apply retryDsBody_recovers (n := t.failures) rounds _ (by decide) _ system_handles held (Nat.le_refl _) (by omega)
  exact fun w value held => systemDatasourceAttempt_goes held (Nat.le_refl _)

end Source

end Durare.Transaction

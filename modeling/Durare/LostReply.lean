import Durare.SourceReply

/-! A commit whose reply is lost: the driver reports a failure that may clear, the loop runs the body again on
top of what was committed, and the row it then meets is its own. -/
namespace Durare.Transaction

open Interaction Commits Sqlite

/-- Without rivals, and where the body repeats itself, what was committed behind a lost reply is what the call
returns and what is recorded. -/
theorem lost_reply_recovered (lib : SerdeJson) (serializer : Serializer) (path : Path) (call : DsCall)
    (rounds failures : Nat)
    (rows : Table Position StepRecord) (completions : Table Position CompletionRow) (workflows : Table String WorkflowRecord)
    (unrecorded : rows.get call.position = none) (uncompleted : completions.get call.position = none)
    (alive : ∃ row, workflows.get call.id = some row ∧ row.status ≠ .cancelled) (enough : failures < rounds) :
    Ends (alone lib serializer fun input q w => Driven path input q w ∧ Repeats lib serializer path call input q w)
      (Recovered lib serializer path call) (transactionCall lib serializer path call rounds)
      ⟨.fresh rows completions workflows, failures, none⟩ := by
  have fresh : ∀ startedAtMs, Held lib serializer path call startedAtMs none (.fresh rows completions workflows) := by
    intro startedAtMs
    constructor
    · exact alive
    · intro i member
      unfold Path.commits at member
      split at member <;> cases member
    · exact fun v never => nomatch never
    · exact fun v never => nomatch never
    · intro row stored
      cases unrecorded.symm.trans stored
    · intro row stored
      cases uncompleted.symm.trans stored
    · exact fun v never => nomatch never
  cases path with
  | provider => exact transactionWith_recovers rounds fresh enough
  | external => exact runDatasourceTransaction_external rounds fresh enough
  | system => exact runDatasourceTransaction_system rounds fresh enough

section Supply

variable (lib : SerdeJson) (serializer : Serializer)

instance (path : Path) (input : Input) (q : Query) (w : Alone) : Decidable (Driven path input q w) :=
  inferInstanceAs (Decidable ((∀ e ∈ input.fault, e.shouldRetryLiveTransaction = true ∧ Retried path w.state q = true) ∧
    (spent input q = true → 0 < w.failures) ∧ (q = .fingerprint → ∀ id ∈ w.txid, input.fingerprint = some id)))

instance (value : Value) : Decidable (Storable lib serializer value) :=
  match encoded : serializer.encode lib value with
  | .ok text => decidable_of_iff (decode lib serializer (some serializer.name) text = .ok value) (by simp [Storable, encoded])
  | .error _ => .isFalse (by simp [Storable, encoded])

instance (path : Path) (call : DsCall) (input : Input) : ∀ q w, Decidable (Repeats lib serializer path call input q w)
  | .body site id seq readOnly, w => inferInstanceAs (Decidable
      ((∀ value ∈ input.outcome.toOption, Storable lib serializer value) ∧
        ∀ i ∈ path.commits w.state, ∀ run ∈ (path.ran w.state)[i]?, run.key = call.position →
          spent input (.body site id seq readOnly) = true ∨ input.outcome = run.outcome))
  | .now, _ | .selectStep _ _, _ | .fetchCompletion _ _, _ | .begin _, _ | .setTransaction _ _, _ | .fingerprint, _
  | .insertStep _ _ _, _ | .insertCompletion _ _ _, _ | .commitStep _ _, _ | .commitCompletion _ _, _ | .rollback _, _
  | .insertFailedStep _ _ _, _ | .insertFailure _ _ _, _ | .recordStepResult _ _ _ _ _ _ _, _ | .workflowStatus _, _ | .check, _
  | .interrupt _, _ => inferInstanceAs (Decidable True)

variable (fit : Input → Query → Alone → Prop) [∀ input q w, Decidable (fit input q w)]

/-- The next of the given inputs answers, where it is fit. -/
def supply (q : Query) : Alone × List Input → Option (q.Reply × (Alone × List Input))
  | (_, []) => none
  | (w, input :: inputs) =>
    if fit input q w then
      let (reply, s) := answer lib serializer input q w.state
      some (reply, (w.after input q s, inputs))
    else none

theorem supply_ran {α : Type} (c : Client Query Query.Reply α) (w : Alone) (inputs : List Input) {t : Alone}
    {rest : List Input}
    {a : α} (played : c.eval (supply lib serializer fit) (w, inputs) = some (a, (t, rest))) : Ran (alone lib serializer fit) c w a t := by
  induction c generalizing w inputs with
  | done a =>
    cases played
    exact .done rfl
  | ask q k ih =>
    cases inputs with
    | nil => cases played
    | cons input inputs =>
      simp only [Client.eval, supply] at played
      by_cases ok : fit input q w
      · rw [if_pos ok] at played
        exact .ask rfl ⟨input, ok, rfl, rfl⟩ (ih _ _ _ played)
      · rw [if_neg ok] at played
        cases played
  | halt => cases played

end Supply

/-- A driver that loses its connection before the reply. -/
def connectionLost : Error := .db
  { message := "error communicating with database: connection reset by peer"
    retryable := true
    txConflict := false
    uniqueViolation := false
    foreignKeyViolation := false }

/-- A transaction on a Postgres database of the application. -/
def billing : DsCall := ⟨.postgres, "w", 0, "e", { name := "charge" }⟩

/-- The commit takes effect, and its reply is lost; the body is then run again, with this end. -/
def lostReply (again : Except Error Value) : List Input :=
  let first : Input := { fingerprint := some "700" }
  let second : Input := { fingerprint := some "701" }
  List.replicate 9 first ++ { fault := some connectionLost, effective := true } :: second :: second :: second ::
    { outcome := again } :: List.replicate 5 second

theorem repeated_body_recovered : ∃ t,
    Ran (alone (.reading []) .json fun input q w => Driven .external input q w ∧
        Repeats (.reading []) .json .external billing input q w)
      (transactionCall (.reading []) .json .external billing 2) ⟨.fresh ∅ ∅ running, 1, none⟩ (.ok (.output .null)) t ∧
    t.state.app.commits = [0] ∧ Recovered (.reading []) .json .external billing (.ok (.output .null)) t := by
  have ran := supply_ran (.reading []) .json
    (fun input q w => Driven .external input q w ∧ Repeats (.reading []) .json .external billing input q w)
    (transactionCall (.reading []) .json .external billing 2) ⟨.fresh ∅ ∅ running, 1, none⟩ (lostReply (.ok .null)) (by rfl)
  refine ⟨_, ran, rfl, ?_⟩
  exact (lost_reply_recovered (.reading []) .json .external billing 2 1 ∅ ∅ running rfl rfl ⟨_, rfl, by decide⟩
    (by decide)).ran ran

/-- The body fails on what its first run left, and the failure is recorded over the commit. -/
theorem failed_body_unrecovered :
    ¬ ∀ (lib : SerdeJson) (serializer : Serializer) (path : Path) (call : DsCall) (rounds failures : Nat)
      (workflows : Table String WorkflowRecord) (result : Except Error StepOutcome) (t : Alone),
      failures < rounds → (∃ row, workflows.get call.id = some row ∧ row.status ≠ .cancelled) →
      Ran (alone lib serializer (Driven path)) (transactionCall lib serializer path call rounds)
        ⟨.fresh ∅ ∅ workflows, failures, none⟩ result t → Recovered lib serializer path call result t := by
  intro recovers
  have ran := supply_ran (.reading []) .json (Driven .external) (transactionCall (.reading []) .json .external billing 2)
    ⟨.fresh ∅ ∅ running, 1, none⟩ (lostReply (.error duplicateCharge)) (by rfl)
  have recovered := recovers _ _ .external _ 2 1 running _ _ (by decide) ⟨_, rfl, by decide⟩ ran
  cases (recovered 0 (by decide) _ .null rfl rfl rfl).1

end Durare.Transaction

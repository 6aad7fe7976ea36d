import Durare.Construction
import Durare.Datasource

/-! A transaction on a data source stays at the position of its call: every statement that names a position, in the
system database or in the application's, names this one. -/
namespace Durare.Transaction

open Interaction

/-- The position that a statement reads, writes or runs a body for. -/
def Query.position : Query → Option Position
  | .selectStep id seq | .fetchCompletion id seq | .body _ id seq _ | .insertStep id seq _ | .insertCompletion id seq _
  | .insertFailedStep id seq _ | .insertFailure id seq _ | .recordStepResult id seq _ _ _ _ _ => some (id, seq)
  | .commitStep _ row => row.map (·.1)
  | .commitCompletion _ row => row.map (·.1)
  | _ => none

/-- Whatever is replied, the statements are those of the call's position. -/
def Stays (call : DsCall) {α : Type} (act : Tx α) : Prop :=
  Client.Keeps (fun q => ∀ p ∈ q.position, p = call.position) (fun _ => True) act

section Parts

variable {α β : Type} {call : DsCall} (lib : SerdeJson) (serializer : Serializer)

theorem Stays.seq {act : Tx α} {f : α → Tx β} (first : Stays call act) (rest : ∀ a, Stays call (f a)) :
    Stays call (act >>= f : Tx β) := by
  refine Client.Keeps.bind first fun result _ => ?_
  cases result with
  | ok a => exact rest a
  | error e => trivial

theorem Stays.attempt {act : Tx α} (stays : Stays call act) : Stays call act.attempt :=
  Client.Keeps.bind stays fun _ _ => trivial

theorem request_stays {q : Query} (own : ∀ p ∈ q.position, p = call.position) : Stays call (request q) :=
  ⟨own, fun _ => trivial⟩

theorem ask_stays {q : Query} {same : q.Reply = Except Error α} (own : ∀ p ∈ q.position, p = call.position) :
    Stays call (ask q same) :=
  ⟨own, fun _ => trivial⟩

theorem unplaced {q : Query} (none : q.position = none) : ∀ p ∈ q.position, p = call.position := by
  rw [none]
  exact fun p never => nomatch never

theorem placed {q : Query} (own : q.position = some call.position) : ∀ p ∈ q.position, p = call.position := by
  rw [own]
  exact fun p same => (Option.some.inj same).symm

theorem ofExcept_stays (result : Except Error α) : Stays call (Fallible.ofExcept result : Tx α) := trivial

theorem interrupt_stays (e : Error) : Stays call (interrupt e : Tx α) :=
  (request_stays (unplaced rfl)).seq fun _ => trivial

theorem record_stays (e : Error) : Stays call (record e : Tx α) := by
  unfold record
  split
  · exact interrupt_stays e
  · trivial

theorem storage_stays (result : Except Error α) : Stays call (storage result : Tx α) := by
  cases result with
  | ok a => trivial
  | error e => exact record_stays e

theorem getStepResult_stays : Stays call (getStepResult lib serializer call) := by
  refine (request_stays (placed rfl)).seq fun reply => (storage_stays reply).seq fun row => ?_
  cases row with
  | none => trivial
  | some row => exact (storage_stays _).seq fun _ => trivial

theorem checkRecorded_stays (recorded : String) : Stays call (checkRecorded call recorded) := by
  unfold checkRecorded
  split <;> trivial

theorem guardCancelled_stays : Stays call (guardCancelled call) := by
  refine (request_stays (unplaced rfl)).seq fun reply => (storage_stays reply).seq fun status => ?_
  split <;> trivial

theorem recordStep_stays (value : Value) (error : Option String) (startedAtMs : Int) :
    Stays call (recordStep call value error startedAtMs) :=
  (request_stays (placed rfl)).seq fun stored => storage_stays stored

theorem recordFailure_stays (error : Error) (startedAtMs : Int) :
    Stays call (recordFailure lib serializer call error startedAtMs) :=
  (ask_stays (unplaced rfl)).seq fun _ => (storage_stays _).seq fun _ => recordStep_stays ..

theorem replayCompletionRow_stays (row : CompletionRow) (startedAtMs : Int) :
    Stays call (replayCompletionRow lib serializer call row startedAtMs) := by
  unfold replayCompletionRow
  split
  · exact (storage_stays _).seq fun _ => (storage_stays _).seq fun _ => recordStep_stays ..
  · split
    · exact interrupt_stays _
    · exact (storage_stays _).seq fun _ => recordStep_stays ..

end Parts

section Attempts

variable {call : DsCall} (lib : SerdeJson) (serializer : Serializer)

theorem beginOn_stays (site : Site) : Stays call (beginOn call site) := by
  refine (ask_stays (unplaced rfl)).seq fun _ => ?_
  split
  · exact ask_stays (unplaced rfl)
  · trivial

theorem txFingerprint_stays : Stays call (txFingerprint call) := by
  unfold txFingerprint
  split
  · exact ask_stays (unplaced rfl)
  · trivial

theorem runBody_stays (site : Site) : Stays call (runBody call site) := by
  refine (beginOn_stays site).seq fun _ => txFingerprint_stays.seq fun expected =>
    (request_stays (placed rfl)).seq fun ran => ?_
  obtain ⟨run, result⟩ := ran
  cases result with
  | ok value =>
    have again : Stays call (if expected.isSome then txFingerprint call else pure none : Tx (Option String)) := by
      split
      · exact txFingerprint_stays
      · trivial
    refine again.seq fun found => ?_
    split
    · exact (ask_stays (unplaced rfl)).seq fun _ => trivial
    · trivial
  | error e =>
    refine (ask_stays (unplaced rfl)).seq fun _ => ?_
    split <;> trivial

theorem datasourceAttempt_stays : Stays call (datasourceAttempt lib serializer call) := by
  refine (runBody_stays .application).seq fun ended => ?_
  cases ended with
  | inr ended => trivial
  | inl ran =>
    dsimp only
    split
    · exact (ask_stays (unplaced rfl)).seq fun _ => trivial
    · refine (ofExcept_stays _).seq fun encoded => (ask_stays (placed rfl)).seq fun inserted => ?_
      split
      · exact (ask_stays (placed rfl)).seq fun _ => trivial
      · exact (request_stays (unplaced rfl)).seq fun _ => trivial

theorem systemDatasourceAttempt_stays (startedAtMs : Int) :
    Stays call (systemDatasourceAttempt lib serializer call startedAtMs) := by
  refine (runBody_stays .system).seq fun ended => ?_
  cases ended with
  | inr ended => trivial
  | inl ran =>
    dsimp only
    split
    · exact (ask_stays (unplaced rfl)).seq fun _ => trivial
    · refine (ofExcept_stays _).seq fun encoded => (request_stays (unplaced rfl)).seq fun now =>
        (ask_stays (placed rfl)).seq fun inserted => ?_
      split
      · exact (ask_stays (placed rfl)).seq fun _ => trivial
      · exact (request_stays (unplaced rfl)).seq fun _ => trivial

theorem retryAttempts_stays {attempt : Tx DsAttempt} (stays : Stays call attempt) (rounds : Nat) :
    Stays call (retryAttempts call attempt rounds) := by
  induction rounds with
  | zero => trivial
  | succ rounds ih =>
    refine stays.attempt.seq fun result => ?_
    cases result with
    | ok ended => trivial
    | error e =>
      dsimp only
      split
      · exact guardCancelled_stays.seq fun _ => ih
      · exact record_stays e

/-- The loop stays at the position if its attempt and what follows it do. -/
theorem retryDsBody_stays {attempt : Tx DsAttempt} {committed completed : Value → Tx StepOutcome}
    {failed : Error → Tx StepOutcome} (stays : Stays call attempt) (commits : ∀ value, Stays call (committed value))
    (completes : ∀ value, Stays call (completed value)) (fails : ∀ e, Stays call (failed e)) (rounds left : Nat) :
    Stays call (retryDsBody call attempt committed completed failed rounds left) := by
  have after (retries : Nat) {again : Tx StepOutcome} (rest : Stays call again) (ended : DsAttempt) :
      Stays call (afterDsAttempt call committed completed failed retries again ended) := by
    cases ended with
    | committed value => exact commits value
    | alreadyCompleted value => exact completes value
    | bodyFailed e =>
      rw [afterDsAttempt]
      split
      · exact rest
      · exact fails e
  induction left with
  | zero => exact (retryAttempts_stays stays rounds).seq (after _ trivial)
  | succ left ih => exact (retryAttempts_stays stays rounds).seq (after _ ih)

end Attempts

section DsStep

variable {call : DsCall} (lib : SerdeJson) (serializer : Serializer)

theorem runExternal_stays (rounds : Nat) (startedAtMs : Int) :
    Stays call (runExternal lib serializer call rounds startedAtMs) := by
  refine (request_stays (placed rfl)).seq fun reply => (storage_stays reply).seq fun completion => ?_
  cases completion with
  | some row => exact replayCompletionRow_stays ..
  | none =>
    refine retryDsBody_stays (datasourceAttempt_stays lib serializer) (fun value => recordStep_stays ..) ?_ ?_ ..
    · refine fun value => (request_stays (placed rfl)).seq fun reply => (storage_stays reply).seq fun found => ?_
      cases found with
      | none => exact interrupt_stays _
      | some row =>
        refine (storage_stays _).seq fun same => ?_
        split
        · exact replayCompletionRow_stays ..
        · trivial
    · exact fun e => (storage_stays _).seq fun encoded => (request_stays (placed rfl)).seq fun _ => recordFailure_stays ..

theorem runSystemDatasourceTransaction_stays (rounds : Nat) (startedAtMs : Int) :
    Stays call (runSystemDatasourceTransaction lib serializer call rounds startedAtMs) := by
  refine retryDsBody_stays (systemDatasourceAttempt_stays lib serializer startedAtMs) ?_ ?_
    (fun e => recordFailure_stays ..) ..
  · intro value
    split
    · exact recordStep_stays ..
    · trivial
  · refine fun value => (getStepResult_stays lib serializer).seq fun found => ?_
    cases found with
    | none => exact interrupt_stays _
    | some step =>
      refine (checkRecorded_stays step.name).seq fun _ => ?_
      cases step.outcome with
      | output stored =>
        dsimp only
        split <;> trivial
      | failure message info => trivial

/-- What is left of the transaction where nothing is recorded. -/
def runUnrecorded (call : DsCall) (kind : Kind) (rounds : Nat) : Tx StepOutcome := do
  let started ← request .now
  match kind with
  | .system => runSystemDatasourceTransaction lib serializer call rounds started.timestampMillis
  | .foreign => .throw (.ofMessage ("this system data source was minted by a different provider than the " ++
      "one this workflow runs on; use system_datasource() from this engine's own provider (or an external data source)"))
  | .external => runExternal lib serializer call rounds started.timestampMillis

theorem runDatasourceTransaction_eq (kind : Kind) (rounds : Nat) :
    runDatasourceTransaction lib serializer call kind rounds = (do
      match ← replayOrGuard lib serializer call with
      | some outcome => pure outcome
      | none => runUnrecorded lib serializer call kind rounds) := rfl

/-- A transaction on a data source makes no statement about any other position. -/
theorem runUnrecorded_stays (kind : Kind) (rounds : Nat) :
    Stays call (runUnrecorded lib serializer call kind rounds) := by
  refine (request_stays (unplaced rfl)).seq fun started => ?_
  cases kind with
  | system => exact runSystemDatasourceTransaction_stays ..
  | foreign => trivial
  | external => exact runExternal_stays ..

end DsStep

section Source

variable {δ : Type} (lib : SerdeJson) (serializer : Serializer)

def Query.asked (name : String) : Query → Verify.Query
  | .now => .ask .now
  | .check => .ask .check
  | .interrupt cause => .ask (.interrupt cause)
  | .workflowStatus id => .ask (.call (.getWorkflowStatus id))
  | .selectStep id seq => .ask (.call (.getStepResult id seq))
  | .recordStepResult id seq name value error startedAtMs executor =>
    .ask (.call (.recordStepResult id seq name value error startedAtMs executor))
  | .body _ _ seq _ | .fetchCompletion _ seq | .insertStep _ seq _ | .insertCompletion _ seq _
  | .insertFailedStep _ seq _ | .insertFailure _ seq _ => .transact seq name
  | .commitStep _ row => (row.map (·.1.2)).elim .beginTransaction (.transact · name)
  | .commitCompletion _ row => (row.map (·.1.2)).elim .beginTransaction (.transact · name)
  | .begin _ | .setTransaction _ _ | .fingerprint | .rollback _ => .beginTransaction

theorem asked_own {call : DsCall} (name : String) {q : Query} (own : ∀ p ∈ q.position, p = call.position) :
    Construction.Own [call.seq] (q.asked name) := by
  intro p here
  have same : q.position.map (·.2) = some p := by
    cases q with
    | commitStep run row | commitCompletion run row =>
      cases row with
      | none => cases here
      | some entry => exact here
    | _ => exact here
  obtain ⟨position, stated, rfl⟩ := Option.map_eq_some_iff.mp same
  rw [own position stated]
  exact List.mem_singleton_self _

/-- The data source of a call on a database, whose answers are read off the replies. -/
def source (call : Int → DsCall) (there : ∀ seq, (call seq).seq = seq) (kind : Kind) (rounds : Nat) (codec : Codec δ)
    (reading : (q : Query) → (name : String) → Verify.Query.Reply δ (q.asked name) → q.Reply) :
    Construction.Source δ where
  run seq := Client.bind
    ((runUnrecorded lib serializer (call seq) kind rounds).embed (Query.asked (call seq).opts.name)
      (reading · (call seq).opts.name))
    fun result => .done (result.bind fun outcome => (outcome.intoValueResult lib).bind fun value =>
      serdeResult (codec.fromValue value))
  stays seq := by
    have stays : Stays (call seq) (runUnrecorded lib serializer (call seq) kind rounds) := runUnrecorded_stays ..
    have asks := stays.imp fun q own => asked_own (call seq).opts.name own
    rw [there seq] at asks
    exact Client.Keeps.bind (Client.Keeps.embed asks) fun _ _ => trivial

end Source

end Durare.Transaction

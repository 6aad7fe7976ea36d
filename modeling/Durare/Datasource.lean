import Durare.Atomic

/-! Transactions on data sources. In a database of the application the body is committed with a
completion row, and the checkpoint follows in the system database; a data source of the system
database itself commits the checkpoint with the body. -/
namespace Durare.Transaction

open Interaction Commits Sqlite

/-- `transaction_on` at its position: the backend of the data source, and the executor. -/
structure DsCall where
  backend : Backend
  id : String
  seq : Int
  executorId : String
  opts : TransactionOptions

def DsCall.position (call : DsCall) : Position := (call.id, call.seq)

/-- `DataSourceKind`, as the engine sees it: of its own system database, of another provider's, or
of the application. -/
inductive Kind where
  | system
  | foreign
  | external
deriving DecidableEq, Repr

inductive DsAttempt where
  | committed (value : Value)
  | bodyFailed (error : Error)
  | alreadyCompleted (value : Value)
deriving DecidableEq, Repr

section Failures

variable {α : Type}

def interrupt (e : Error) : Tx α := do
  let latched ← request (.interrupt e.cause)
  .throw latched

def record (e : Error) : Tx α := if e.isStorageFailure then interrupt e else .throw e

def storage (result : Except Error α) : Tx α :=
  match result with
  | .ok a => pure a
  | .error e => record e

end Failures

section Records

variable (lib : SerdeJson) (serializer : Serializer) (call : DsCall)

def getStepResult : Tx (Option RecordedStep) := do
  match ← storage (← request (.selectStep call.id call.seq)) with
  | none => pure none
  | some row =>
    let outcome ← storage (stepOutcomeFrom lib serializer row.serialization row.output row.error)
    pure (outcome.map fun outcome => ⟨row.functionName, outcome⟩)

def checkRecorded (recorded : String) : Tx Unit :=
  if recorded ≠ call.opts.name then .throw (.unexpectedStep call.id call.seq call.opts.name recorded) else pure ()

/-- The status of the workflow, which stops fresh work and the retries of a cancelled one. -/
def guardCancelled : Tx Unit := do
  match ← storage (← request (.workflowStatus call.id)) with
  | some .cancelled => .throw (.cancelled call.id)
  | _ => pure ()

def replayOrGuard : Tx (Option StepOutcome) := do
  match ← getStepResult lib serializer call with
  | some step =>
    checkRecorded call step.name
    pure (some step.outcome)
  | none =>
    guardCancelled call
    pure none

/-- `record_step_result`, its failure classified. -/
def recordStep (value : Value) (error : Option String) (startedAtMs : Int) : Tx StepOutcome := do
  let stored ← request
    (.recordStepResult call.id call.seq call.opts.name value error (some startedAtMs) (some call.executorId))
  storage stored

def recordFailure (error : Error) (startedAtMs : Int) : Tx StepOutcome := do
  ask .check rfl
  let encoded ← storage (encodeError lib serializer error)
  recordStep call .null (some encoded) startedAtMs

/-- `replay_completion_row`: the checkpoint is filled in from the completion row. -/
def replayCompletionRow (row : CompletionRow) (startedAtMs : Int) : Tx StepOutcome :=
  match row.error with
  | some text => do
    let (message, info) := decodeError lib row.serialization text
    let error ← storage (tryFromParts lib message info)
    let encoded ← storage (encodeError lib serializer error)
    recordStep call .null (some encoded) startedAtMs
  | none =>
    match row.output with
    | none => interrupt (.ofMessage "transaction completion row has neither output nor error")
    | some output => do
      let value ← storage (decode lib serializer row.serialization output)
      recordStep call value none startedAtMs

def completionRowMatches (row : CompletionRow) (value : Value) : Except Error Bool :=
  match row.output with
  | none => .ok false
  | some output =>
    if row.error.isSome then .ok false
    else (decode lib serializer row.serialization output).map fun stored => stored.partialEq value

end Records

section Attempts

variable (lib : SerdeJson) (serializer : Serializer) (call : DsCall)

/-- `DataSource::begin`. -/
def beginOn (site : Site) : Tx Unit := do
  ask (.begin site) rfl
  if call.backend = .postgres ∧ (call.opts.isolation ≠ .readCommitted ∨ call.opts.readOnly = true) then
    ask (.setTransaction call.opts.isolation call.opts.readOnly) rfl

/-- `tx_fingerprint`: SQLite has none. -/
def txFingerprint : Tx (Option String) :=
  match call.backend with
  | .postgres => ask .fingerprint rfl
  | .sqlite => pure none

def TX_TERMINATED_MSG : String :=
  "the transaction body terminated the surrounding database transaction (a raw COMMIT or ROLLBACK?), " ++
    "so its writes cannot be committed atomically with the durability record"

/-- The body in its transaction, and what is left to do when it returned: its run and its value. -/
def runBody (site : Site) : Tx (Nat × Value ⊕ DsAttempt) := do
  beginOn call site
  let expected ← txFingerprint call
  let (run, result) ← request (.body site call.id call.seq call.opts.readOnly)
  match result with
  | .ok value =>
    let found ← (if expected.isSome then txFingerprint call else pure none : Tx (Option String))
    if found ≠ expected then
      ask (.rollback site) rfl
      pure (.inr (.bodyFailed (.ofMessage TX_TERMINATED_MSG)))
    else pure (.inl (run, value))
  | .error e =>
    ask (.rollback site) rfl
    if e.shouldRetryLiveTransaction then .throw e else pure (.inr (.bodyFailed e))

def datasourceAttempt : Tx DsAttempt := do
  match ← runBody call .application with
  | .inr ended => pure ended
  | .inl (run, value) =>
    if call.opts.readOnly then
      ask (.commitCompletion run none) rfl
      pure (.committed value)
    else
      let encoded ← .ofExcept (serializer.encode lib value)
      let row : CompletionRow := ⟨some encoded, none, some serializer.name⟩
      if ← ask (.insertCompletion call.id call.seq row) rfl then
        ask (.commitCompletion run (some (call.position, row))) rfl
        pure (.committed value)
      else
        let _ ← request (.rollback .application)
        pure (.alreadyCompleted value)

def systemDatasourceAttempt (startedAtMs : Int) : Tx DsAttempt := do
  match ← runBody call .system with
  | .inr ended => pure ended
  | .inl (run, value) =>
    if call.opts.readOnly then
      commitStep run none
      pure (.committed value)
    else
      let encoded ← .ofExcept (serializer.encode lib value)
      let now ← request .now
      let row := successRow serializer ⟨call.backend, call.id, call.seq, startedAtMs, call.opts⟩ encoded now
      if ← insertStep call.id call.seq row then
        commitStep run (some (call.position, row))
        pure (.committed value)
      else
        let _ ← request (.rollback .system)
        pure (.alreadyCompleted value)

/-- The inner loop: conflicts and failures that may clear are tried again, for so many rounds. -/
def retryAttempts (attempt : Tx DsAttempt) : Nat → Tx DsAttempt
  | 0 => .halt
  | rounds + 1 => do
    match ← attempt.attempt with
    | .ok ended => pure ended
    | .error e =>
      if e.shouldRetryLiveTransaction then
        guardCancelled call
        retryAttempts attempt rounds
      else record e

/-- What follows an attempt: what was committed, a row that was there before, or a failure of the
body under its retry policy. -/
def afterDsAttempt (committed completed : Value → Tx StepOutcome) (failed : Error → Tx StepOutcome) (retries : Nat)
    (again : Tx StepOutcome) : DsAttempt → Tx StepOutcome
  | .committed value => committed value
  | .alreadyCompleted value => completed value
  | .bodyFailed e => if call.opts.shouldUserRetry e retries then again else failed e

/-- The outer loop, with what is left of the retries. -/
def retryDsBody (attempt : Tx DsAttempt) (committed completed : Value → Tx StepOutcome)
    (failed : Error → Tx StepOutcome)
    (rounds : Nat) : Nat → Tx StepOutcome
  | 0 => do
    let ended ← retryAttempts call attempt rounds
    afterDsAttempt call committed completed failed call.opts.maxRetries .halt ended
  | left + 1 => do
    let ended ← retryAttempts call attempt rounds
    afterDsAttempt call committed completed failed (call.opts.maxRetries - (left + 1))
      (retryDsBody attempt committed completed failed rounds left) ended

end Attempts

section DsStep

variable (lib : SerdeJson) (serializer : Serializer) (call : DsCall)

/-- A completion row was there: the same success is adopted, anything else is a rival's. -/
def adoptCompletion (startedAtMs : Int) (value : Value) : Tx StepOutcome := do
  match ← storage (← request (.fetchCompletion call.id call.seq)) with
  | none => interrupt (.ofMessage "transaction_completion row vanished after a duplicate insert")
  | some row =>
    if ← storage (completionRowMatches lib serializer row value) then
      replayCompletionRow lib serializer call row startedAtMs
    else .throw (.workflowConflict call.id)

def mirrorFailure (startedAtMs : Int) (e : Error) : Tx StepOutcome := do
  let encoded ← storage (encodeError lib serializer e)
  let _ ← request (.insertFailure call.id call.seq ⟨none, some encoded, some serializer.name⟩)
  recordFailure lib serializer call e startedAtMs

/-- The two commits. -/
def runExternal (rounds : Nat) (startedAtMs : Int) : Tx StepOutcome := do
  match ← storage (← request (.fetchCompletion call.id call.seq)) with
  | some row => replayCompletionRow lib serializer call row startedAtMs
  | none =>
    retryDsBody call (datasourceAttempt lib serializer call) (fun value => recordStep call value none startedAtMs)
      (adoptCompletion lib serializer call startedAtMs) (mirrorFailure lib serializer call startedAtMs) rounds
      call.opts.maxRetries

/-- A checkpoint was there: the same output is adopted, anything else is a rival's. -/
def adoptCheckpoint (value : Value) : Tx StepOutcome := do
  match ← getStepResult lib serializer call with
  | none => interrupt (.ofMessage "checkpoint row vanished after a duplicate insert")
  | some step =>
    checkRecorded call step.name
    match step.outcome with
    | .output stored => if stored.partialEq value then pure (.output value) else .throw (.workflowConflict call.id)
    | .failure _ _ => .throw (.workflowConflict call.id)

def runSystemDatasourceTransaction (rounds : Nat) (startedAtMs : Int) : Tx StepOutcome :=
  retryDsBody call (systemDatasourceAttempt lib serializer call startedAtMs)
    (fun value => if call.opts.readOnly then recordStep call value none startedAtMs else pure (.output value))
    (adoptCheckpoint lib serializer call) (fun e => recordFailure lib serializer call e startedAtMs) rounds call.opts.maxRetries

/-- `run_datasource_transaction`, up to the decoding of the outcome it hands over. -/
def runDatasourceTransaction (kind : Kind) (rounds : Nat) : Tx StepOutcome := do
  match ← replayOrGuard lib serializer call with
  | some outcome => pure outcome
  | none =>
    let started ← request .now
    match kind with
    | .system => runSystemDatasourceTransaction lib serializer call rounds started.timestampMillis
    | .foreign => .throw (.ofMessage ("this system data source was minted by a different provider than the " ++
        "one this workflow runs on; use system_datasource() from this engine's own provider (or an external data source)"))
    | .external => runExternal lib serializer call rounds started.timestampMillis

end DsStep

end Durare.Transaction

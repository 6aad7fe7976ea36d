import Durare.Commits
import Durare.Context
import Durare.Crowd
import Durare.Sqlite

/-! Transactional steps of the SQL providers: a body of SQL statements that is committed with the
checkpoint of its step, under two retry loops, while rivals run the same step. -/
namespace Durare

/-- `should_retry_live_transaction`: a failure of the driver that may clear. -/
def Error.shouldRetryLiveTransaction : Error → Bool
  | .db error => error.txConflict || error.retryable
  | _ => false

inductive IsolationLevel where
  | readCommitted
  | repeatableRead
  | serializable
deriving DecidableEq, Repr

/-- The options of a transactional step, less the delays between its attempts. -/
structure TransactionOptions where
  name : String
  isolation : IsolationLevel := .readCommitted
  readOnly : Bool := false
  maxRetries : Nat := 0
  retryIf : Option (Error → Bool) := none

def TransactionOptions.shouldUserRetry (opts : TransactionOptions) (error : Error) (attempt : Nat) : Bool :=
  let bypasses := match error with
    | .recoveryRequired _ | .observationFailed _ | .outputSerialization _ => true
    | .db failure => failure.txConflict
    | _ => false
  !bypasses && !error.isScopeViolation && decide (attempt < opts.maxRetries) && opts.retryIf.all fun accepts => accepts error

namespace Transaction

open Interaction Commits Sqlite

/-- No retry is left after the last. -/
theorem shouldUserRetry_spent (opts : TransactionOptions) (e : Error) :
    opts.shouldUserRetry e opts.maxRetries = false := by
  simp [TransactionOptions.shouldUserRetry]

abbrev Position := String × Int

abbrev Statements := List String

/-- A row of `transaction_completion`. -/
structure CompletionRow where
  output : Option String
  error : Option String
  serialization : Option String
deriving DecidableEq, Repr

/-- Where a transaction runs: in the system database, or in one of the application's own. -/
inductive Site where
  | system
  | application
deriving DecidableEq, Repr

/-- Both databases, each with its table and the transactions that ran on it. -/
structure State where
  sys : Base Position StepRecord Statements Error Value := { rows := ∅ }
  app : Base Position CompletionRow Statements Error Value := { rows := ∅ }
  workflows : Table String WorkflowRecord := ∅

def State.db (s : State) : Db := { Db.new with workflowStatus := s.workflows, operationOutputs := s.sys.rows }

def State.withDb (s : State) (db : Db) : State :=
  { s with sys := { s.sys with rows := db.operationOutputs }, workflows := db.workflowStatus }

/-- What a transactional step asks for. An insert is made in the open transaction and seen by
nobody else; the commit carries it. -/
inductive Query where
  | now
  | selectStep (id : String) (seq : Int)
  | fetchCompletion (id : String) (seq : Int)
  | begin (site : Site)
  | setTransaction (isolation : IsolationLevel) (readOnly : Bool)
  | fingerprint
  | body (site : Site) (id : String) (seq : Int) (readOnly : Bool)
  | insertStep (id : String) (seq : Int) (row : StepRecord)
  | insertCompletion (id : String) (seq : Int) (row : CompletionRow)
  | commitStep (run : Nat) (row : Option (Position × StepRecord))
  | commitCompletion (run : Nat) (row : Option (Position × CompletionRow))
  | rollback (site : Site)
  | insertFailedStep (id : String) (seq : Int) (row : StepRecord)
  | insertFailure (id : String) (seq : Int) (row : CompletionRow)
  | recordStepResult (id : String) (seq : Int) (name : String) (value : Value) (error : Option String)
      (startedAtMs : Option Int) (executor : Option String)
  | workflowStatus (id : String)
  | check
  | interrupt (cause : Error)
deriving DecidableEq

abbrev Query.Reply : Query → Type
  | .now => DateTime
  | .selectStep _ _ => Except Error (Option StepRecord)
  | .fetchCompletion _ _ => Except Error (Option CompletionRow)
  | .begin _ | .setTransaction _ _ | .commitStep _ _ | .commitCompletion _ _ | .rollback _ | .insertFailure _ _ _
  | .check => Except Error Unit
  | .fingerprint => Except Error (Option String)
  | .body _ _ _ _ => Nat × Except Error Value
  | .insertStep _ _ _ | .insertCompletion _ _ _ | .insertFailedStep _ _ _ => Except Error Bool
  | .recordStepResult _ _ _ _ _ _ _ => Except Error StepOutcome
  | .workflowStatus _ => Except Error (Option Status)
  | .interrupt _ => Error

/-- What the outside supplies to one statement: the clock, how a body ends and what it wrote, and
a failure of the driver, behind which a write may have taken effect all the same. -/
structure Input where
  now : DateTime := 0
  fault : Option Error := none
  effective : Bool := false
  writes : Statements := []
  outcome : Except Error Value := .ok .null
  fingerprint : Option String := none
  latch : Option Error := none

namespace Input

variable {α : Type} (input : Input)

/-- The reply, unless the driver fails. -/
def replies (reply : Except Error α) : Except Error α :=
  match input.fault with
  | some e => .error e
  | none => reply

/-- The state after a write that may be lost. -/
def leaves (s s' : State) : State := if input.fault.isNone || input.effective then s' else s

end Input

def serializationFailure : Error := .db
  { message := "error returned from database: could not serialize access due to concurrent update"
    retryable := false
    txConflict := true
    uniqueViolation := false
    foreignKeyViolation := false }

/-- The foreign key of `operation_outputs`. -/
def owned (s : State) (id : String) : Except Error Unit :=
  if (s.workflows.get id).isSome then .ok () else .error foreignKeyViolation

def answer (lib : SerdeJson) (serializer : Serializer) (input : Input) : (q : Query) → State → q.Reply × State
  | .now, s => (input.now, s)
  | .selectStep id seq, s => (input.replies (.ok (s.sys.rows.get (id, seq))), s)
  | .fetchCompletion id seq, s => (input.replies (.ok (s.app.rows.get (id, seq))), s)
  | .begin _, s | .setTransaction _ _, s | .rollback _, s => (input.replies (.ok ()), s)
  | .fingerprint, s => (input.replies (.ok input.fingerprint), s)
  | .body .system id seq readOnly, s =>
    let (i, sys) := s.sys.push ⟨(id, seq), readOnly, input.writes, input.outcome⟩
    ((i, input.outcome), { s with sys := sys })
  | .body .application id seq readOnly, s =>
    let (i, app) := s.app.push ⟨(id, seq), readOnly, input.writes, input.outcome⟩
    ((i, input.outcome), { s with app := app })
  | .insertStep id seq _, s => (input.replies ((owned s id).map fun _ => (s.sys.rows.get (id, seq)).isNone), s)
  | .insertCompletion id seq _, s => (input.replies (.ok (s.app.rows.get (id, seq)).isNone), s)
  | .commitStep run row, s =>
    match s.sys.commit run row with
    | some sys => (input.replies (.ok ()), input.leaves s { s with sys := sys })
    | none => (.error (input.fault.getD serializationFailure), s)
  | .commitCompletion run row, s =>
    match s.app.commit run row with
    | some app => (input.replies (.ok ()), input.leaves s { s with app := app })
    | none => (.error (input.fault.getD serializationFailure), s)
  | .insertFailedStep id seq row, s =>
    match owned s id with
    | .error e => (.error (input.fault.getD e), s)
    | .ok _ =>
      let (won, sys) := s.sys.insert (id, seq) row
      (input.replies (.ok won), input.leaves s { s with sys := sys })
  | .insertFailure id seq row, s =>
    (input.replies (.ok ()), input.leaves s { s with app := (s.app.insert (id, seq) row).2 })
  | .recordStepResult id seq name value error startedAtMs executor, s =>
    let (reply, db) := Sqlite.recordStepResult lib serializer input.now id seq name value error startedAtMs executor s.db
    (input.replies reply, input.leaves s (s.withDb db))
  | .workflowStatus id, s => (input.replies (.ok ((s.workflows.get id).map (·.status))), s)
  | .check, s =>
    (match input.latch with
      | none => .ok ()
      | some cause => .error (.recoveryRequired cause), s)
  | .interrupt cause, s => (.recoveryRequired (input.latch.getD cause), s)

/-- The SQL providers differ in what a transaction is opened with. -/
inductive Backend where
  | sqlite
  | postgres
deriving DecidableEq, Repr

structure Call where
  backend : Backend
  id : String
  seq : Int
  startedAtMs : Int
  opts : TransactionOptions

def Call.position (call : Call) : Position := (call.id, call.seq)

abbrev Tx (α : Type) := Fallible Error Query Query.Reply α

/-- A statement, with whatever is replied to it. -/
def request (q : Query) : Tx q.Reply := Fallible.get q

/-- A statement whose failure ends the part it is in. -/
def ask {α : Type} (q : Query) (same : q.Reply = Except Error α) : Tx α :=
  Client.ask q fun reply => .done (same ▸ reply)

abbrev commitStep (run : Nat) (row : Option (Position × StepRecord)) : Tx Unit := ask (.commitStep run row) rfl

abbrev insertStep (id : String) (seq : Int) (row : StepRecord) : Tx Bool := ask (.insertStep id seq row) rfl

inductive TransactionAttempt where
  | committed (value : Value)
  | bodyFailed (error : Error)
deriving DecidableEq, Repr

/-- How the step ends: with a record, with its own commit, or with a failure of the body that it
recorded. -/
inductive Finish where
  | replayed (outcome : StepOutcome)
  | committed (value : Value)
  | exhausted (encoded : String)
deriving DecidableEq, Repr

section Step

variable (lib : SerdeJson) (serializer : Serializer) (call : Call)

def successRow (encoded : String) (now : DateTime) : StepRecord where
  functionName := call.opts.name
  output := some encoded
  serialization := some serializer.name
  startedAtMs := some call.startedAtMs
  completedAtMs := some now.timestampMillis

def failureRow (encoded : String) (now : DateTime) : StepRecord where
  functionName := call.opts.name
  error := some encoded
  serialization := some serializer.name
  startedAtMs := some call.startedAtMs
  completedAtMs := some now.timestampMillis

def classifyLostTxnCheckpoint (output error : Option String) : Tx Unit := do
  match ← ask (.selectStep call.id call.seq) rfl with
  | none => .throw (.workflowConflict call.id)
  | some row =>
    if row.functionName ≠ call.opts.name then
      .throw (.unexpectedStep call.id call.seq call.opts.name row.functionName)
    else if row.output = output ∧ row.error = error ∧ row.startedAtMs = some call.startedAtMs then pure ()
    else .throw (.workflowConflict call.id)

/-- A body that returned: a step marked as reading only is recorded behind its commit, every other
one in its transaction. -/
def finishAttempt (run : Nat) (value : Value) : Tx TransactionAttempt :=
  if call.opts.readOnly then do
    commitStep run none
    let outcome ← ask (.recordStepResult call.id call.seq call.opts.name value none (some call.startedAtMs) none) rfl
    let value ← .ofExcept (outcome.intoValueResult lib)
    pure (.committed value)
  else do
    let encoded ← .ofExcept (serializer.encode lib value)
    let now ← request .now
    let row := successRow serializer call encoded now
    if ← insertStep call.id call.seq row then
      commitStep run (some (call.position, row))
      pure (.committed value)
    else
      -- a rollback that fails is only warned of
      let _ ← request (.rollback .system)
      classifyLostTxnCheckpoint call (some encoded) none
      pure (.committed value)

def attempt : Tx TransactionAttempt := do
  ask (.begin .system) rfl
  if call.backend = .postgres ∧ (call.opts.isolation ≠ .readCommitted ∨ call.opts.readOnly = true) then
    ask (.setTransaction call.opts.isolation call.opts.readOnly) rfl
  let (run, result) ← request (.body .system call.id call.seq call.opts.readOnly)
  match result with
  | .ok value => finishAttempt lib serializer call run value
  | .error e =>
    if e.shouldRetryLiveTransaction then .throw e
    else
      ask (.rollback .system) rfl
      pure (.bodyFailed e)

/-- `conflict_retry_wait`: a status that cannot be read is taken for not cancelled. -/
def conflictRetryWait : Tx Unit := do
  match ← request (.workflowStatus call.id) with
  | .ok (some .cancelled) => .throw (.cancelled call.id)
  | _ => pure ()

def retryConflicts : Nat → Tx TransactionAttempt
  | 0 => .halt
  | rounds + 1 => do
    match ← (attempt lib serializer call).attempt with
    | .ok ended => pure ended
    | .error e =>
      if e.shouldRetryLiveTransaction then
        conflictRetryWait call
        retryConflicts rounds
      else .throw e

/-- The failure of a body whose retries are spent. -/
def recordExhausted (error : Error) : Tx Finish := do
  let encoded ← .ofExcept (encodeError lib serializer error)
  let now ← request .now
  if ← ask (.insertFailedStep call.id call.seq (failureRow serializer call encoded now)) rfl then pure (.exhausted encoded)
  else
    classifyLostTxnCheckpoint call none (some encoded)
    pure (.exhausted encoded)

def afterAttempt (retries : Nat) (again : Tx Finish) : TransactionAttempt → Tx Finish
  | .committed value => pure (.committed value)
  | .bodyFailed (.workflowConflict id) => .throw (.workflowConflict id)
  | .bodyFailed (.unexpectedStep id seq expected found) => .throw (.unexpectedStep id seq expected found)
  | .bodyFailed e => if call.opts.shouldUserRetry e retries then again else recordExhausted lib serializer call e

/-- The outer loop, with what is left of the retries. The last one is not followed by another. -/
def retryBody (rounds : Nat) : Nat → Tx Finish
  | 0 => do
    let ended ← retryConflicts lib serializer call rounds
    afterAttempt lib serializer call call.opts.maxRetries .halt ended
  | left + 1 => do
    let ended ← retryConflicts lib serializer call rounds
    afterAttempt lib serializer call (call.opts.maxRetries - (left + 1)) (retryBody rounds left) ended

/-- `run_transaction_step`, with the inner loop bounded. -/
def runTransactionStep (rounds : Nat) : Tx Finish := do
  match ← ask (.selectStep call.id call.seq) rfl with
  | none => retryBody lib serializer call rounds call.opts.maxRetries
  | some row =>
    match ← .ofExcept (stepOutcomeFrom lib serializer row.serialization row.output row.error) with
    | some outcome =>
      if row.functionName ≠ call.opts.name then
        .throw (.unexpectedStep call.id call.seq call.opts.name row.functionName)
      else pure (.replayed outcome)
    | none => retryBody lib serializer call rounds call.opts.maxRetries

def Finish.result : Finish → Except Error Value
  | .replayed outcome => outcome.intoValueResult lib
  | .committed value => .ok value
  | .exhausted encoded =>
    let (message, info) := decodeError lib (some serializer.name) encoded
    .error (fromParts lib message info)

end Step

section Statements

variable (lib : SerdeJson) (serializer : Serializer)

/-- The row records the success of the run. -/
def StepWitness : Base.Witness Position StepRecord Statements Error Value := fun run row =>
  row.error = none ∧ ∃ value encoded, run.outcome = .ok value ∧ serializer.encode lib value = .ok encoded ∧
    row.output = some encoded

def CompletionWitness : Base.Witness Position CompletionRow Statements Error Value := fun run row =>
  row.error = none ∧ ∃ value encoded, run.outcome = .ok value ∧ serializer.encode lib value = .ok encoded ∧
    row.output = some encoded

structure Sound (s : State) : Prop where
  sys : s.sys.Atomic (StepWitness lib serializer)
  app : s.app.Atomic (CompletionWitness lib serializer)

/-- Both databases only grow. -/
structure Kept (s s' : State) : Prop where
  sys : s.sys.Grows s'.sys
  app : s.app.Grows s'.app

theorem Kept.refl (s : State) : Kept s s := ⟨.refl s.sys, .refl s.app⟩

theorem Kept.trans {a b c : State} (first : Kept a b) (second : Kept b c) : Kept a c :=
  ⟨first.sys.trans second.sys, first.app.trans second.app⟩

/-- A commit is asked for by the transaction of a run that ended well, with the row that records it,
or without one when the run was marked as reading only. -/
def Sanctioned (s : State) : Query → Prop
  | .commitStep i row => ∃ run value, s.sys.ran[i]? = some run ∧ run.outcome = .ok value ∧
      ((row = none ∧ run.readOnly = true) ∨ ∃ stored, row = some (run.key, stored) ∧ StepWitness lib serializer run stored)
  | .commitCompletion i row => ∃ run value, s.app.ran[i]? = some run ∧ run.outcome = .ok value ∧
      ((row = none ∧ run.readOnly = true) ∨
        ∃ stored, row = some (run.key, stored) ∧ CompletionWitness lib serializer run stored)
  | _ => True

/-- What a statement of a transactional step may do. -/
structure May (s s' : State) : Prop where
  kept : Kept s s'
  sound : Sound lib serializer s → Sound lib serializer s'

variable {lib serializer}

theorem May.refl (s : State) : May lib serializer s s := ⟨.refl s, id⟩

theorem May.leaves {s s' : State} (may : May lib serializer s s') (input : Input) :
    May lib serializer s (input.leaves s s') := by
  unfold Input.leaves
  split
  · exact may
  · exact .refl s

theorem May.sys {s : State} {sys : Base Position StepRecord Statements Error Value} (grows : s.sys.Grows sys)
    (atomic : s.sys.Atomic (StepWitness lib serializer) → sys.Atomic (StepWitness lib serializer)) :
    May lib serializer s { s with sys := sys } :=
  ⟨⟨grows, .refl s.app⟩, fun sound => ⟨atomic sound.sys, sound.app⟩⟩

theorem May.app {s : State} {app : Base Position CompletionRow Statements Error Value} (grows : s.app.Grows app)
    (atomic : s.app.Atomic (CompletionWitness lib serializer) → app.Atomic (CompletionWitness lib serializer)) :
    May lib serializer s { s with app := app } :=
  ⟨⟨.refl s.sys, grows⟩, fun sound => ⟨sound.sys, atomic sound.app⟩⟩

theorem refreshExecutor_outputs (id : String) (executor : Option String) (db : Db) :
    (refreshExecutor id executor db).operationOutputs = db.operationOutputs := by
  cases executor <;> rfl

theorem recordStepResult_rows (now : DateTime) (id : String) (seq : Int) (name : String) (value : Value)
    (error : Option String) (startedAtMs : Option Int) (executor : Option String) (db : Db) :
    (recordStepResult lib serializer now id seq name value error startedAtMs executor db).2.operationOutputs =
        db.operationOutputs ∨
    ∃ row, db.operationOutputs.get (id, seq) = none ∧
      (recordStepResult lib serializer now id seq name value error startedAtMs executor db).2.operationOutputs =
        db.operationOutputs.put (id, seq) row ∧
      outputColumn lib serializer value error = .ok row.output ∧ row.error = error ∧
      row.serialization = some serializer.name := by
  unfold recordStepResult
  split
  · exact .inl rfl
  next column =>
    split
    next vacant =>
      split
      · exact .inl rfl
      · exact .inr ⟨_, vacant, refreshExecutor_outputs .., column, rfl, rfl⟩
    · split
      · exact .inl rfl
      · split <;> exact .inl rfl

theorem withDb_may {s : State} {db : Db} {key : Position}
    (rows : db.operationOutputs = s.sys.rows ∨
      ∃ row, s.sys.rows.get key = none ∧ db.operationOutputs = s.sys.rows.put key row) :
    May lib serializer s (s.withDb db) := by
  have base : ∃ row, { s.sys with rows := db.operationOutputs } = (s.sys.insert key row).2 ∨
      { s.sys with rows := db.operationOutputs } = s.sys := by
    rcases rows with same | ⟨row, vacant, put⟩
    · exact ⟨⟨"", none, none, none, none, none, none⟩, .inr (by rw [same])⟩
    · exact ⟨row, .inl (by simp [Base.insert, vacant, put])⟩
  obtain ⟨row, inserted | same⟩ := base
  · refine ⟨⟨?_, .refl s.app⟩, fun sound => ⟨?_, sound.app⟩⟩
    · change s.sys.Grows { s.sys with rows := db.operationOutputs }
      rw [inserted]
      exact Base.grows_insert key row
    · change Base.Atomic _ { s.sys with rows := db.operationOutputs }
      rw [inserted]
      exact sound.sys.insert key row
  · refine ⟨⟨?_, .refl s.app⟩, fun sound => ⟨?_, sound.app⟩⟩
    · change s.sys.Grows { s.sys with rows := db.operationOutputs }
      rw [same]
      exact .refl s.sys
    · change Base.Atomic _ { s.sys with rows := db.operationOutputs }
      rw [same]
      exact sound.sys

/-- A sanctioned statement keeps both databases atomic, whatever the driver reports. -/
theorem answer_may (input : Input) {q : Query} {s : State} (sanctioned : Sanctioned lib serializer s q) :
    May lib serializer s (answer lib serializer input q s).2 := by
  cases q with
  | now | selectStep | fetchCompletion | begin | setTransaction | fingerprint | insertStep | insertCompletion | rollback
  | workflowStatus | check | interrupt => exact .refl s
  | body site id seq readOnly =>
    cases site with
    | system => exact .sys (Base.grows_push _) fun atomic => atomic.push _
    | application => exact .app (Base.grows_push _) fun atomic => atomic.push _
  | commitStep i row =>
    obtain ⟨run, value, here, ended, with_⟩ := sanctioned
    simp only [answer]
    cases done : s.sys.commit i row with
    | none => exact .refl s
    | some sys =>
      apply May.leaves
      apply May.sys (Base.grows_commit done)
      intro atomic
      rcases with_ with ⟨rfl, reading⟩ | ⟨stored, rfl, told⟩
      · exact atomic.commit_read here ended reading done
      · exact atomic.commit_row here ended told done
  | commitCompletion i row =>
    obtain ⟨run, value, here, ended, with_⟩ := sanctioned
    simp only [answer]
    cases done : s.app.commit i row with
    | none => exact .refl s
    | some app =>
      apply May.leaves
      apply May.app (Base.grows_commit done)
      intro atomic
      rcases with_ with ⟨rfl, reading⟩ | ⟨stored, rfl, told⟩
      · exact atomic.commit_read here ended reading done
      · exact atomic.commit_row here ended told done
  | insertFailedStep id seq row =>
    simp only [answer]
    cases owned s id with
    | error e => exact .refl s
    | ok _ => exact (May.sys (Base.grows_insert (id, seq) row) fun atomic => atomic.insert (id, seq) row).leaves input
  | insertFailure id seq row =>
    exact (May.app (Base.grows_insert (id, seq) row) fun atomic => atomic.insert (id, seq) row).leaves input
  | recordStepResult id seq name value error startedAtMs executor =>
    have rows := @recordStepResult_rows lib serializer input.now id seq name value error startedAtMs executor s.db
    exact (withDb_may (rows.imp_right fun ⟨row, vacant, put, _⟩ => ⟨row, vacant, put⟩)).leaves input

end Statements

end Transaction

end Durare

import Durare.MemorySteps

/-! The SQLite state provider: rows hold encoded texts. A call is one transaction, or a few
statements that a serialised database runs as one. -/
namespace Durare.Sqlite

/-- A row of `workflow_status`, less the columns no operation of this model touches. -/
structure WorkflowRecord where
  status : Status
  name : String
  inputs : Option String
  serialization : Option String
  executorId : Option String
  applicationVersion : Option String
  applicationId : Option String := none
  queueName : Option String := none
  queuePartitionKey : Option String := none
  deduplicationId : Option String := none
  recoveryAttempts : Int := 0
  timeoutMs : Option Int := none
  forkedFrom : Option String := none
  wasForkedFrom : Bool := false
  parentWorkflowId : Option String := none
  authenticatedUser : Option String := none
  assumedRole : Option String := none
  authenticatedRoles : Option String := none
  className : Option String := none
  configName : Option String := none
  attributes : Option String := none
  createdAt : Int
  updatedAt : Int
  output : Option String := none
  error : Option String := none
  priority : Int := 0
  deadlineMs : Option Int := none
  startedAtMs : Option Int := none
  rateLimited : Bool := false
  delayUntilMs : Option Int := none
  completedAt : Option Int := none
deriving DecidableEq, Repr

structure StepRecord where
  functionName : String
  output : Option String := none
  error : Option String := none
  childWorkflowId : Option String := none
  serialization : Option String := none
  startedAtMs : Option Int := none
  completedAtMs : Option Int := none
deriving DecidableEq, Repr

structure NotificationRecord where
  messageUuid : String
  destinationUuid : String
  topic : String
  message : String
  serialization : Option String
  consumed : Bool := false
  createdAtMs : Int
deriving DecidableEq, Repr

structure StreamRecord where
  value : String
  functionId : Int := 0
  serialization : Option String := none
deriving DecidableEq, Repr

/-- Events are keyed by workflow and key, their history by the writing step too, stream
entries by key and offset. An event is its value and the format of it. -/
structure Db where
  workflowStatus : Table String WorkflowRecord
  operationOutputs : Table (String × Int) StepRecord
  notifications : List NotificationRecord
  workflowEvents : Table (String × String) (String × Option String)
  workflowEventsHistory : Table (String × Int × String) (String × Option String)
  streams : Table (String × String × Int) StreamRecord
deriving DecidableEq

def Db.new : Db := ⟨∅, ∅, [], ∅, ∅, ∅⟩

/-- The foreign key of `operation_outputs`: a step belongs to a stored workflow. -/
def Db.StepsOwned (db : Db) : Prop :=
  ∀ key row, db.operationOutputs.get key = some row → (db.workflowStatus.get key.1).isSome = true

abbrev Answer (α : Type) := Except Error α × Db

def foreignKeyViolation : Error := .db
  { message := "error returned from database: (code: 787) FOREIGN KEY constraint failed"
    retryable := false
    txConflict := false
    uniqueViolation := false
    foreignKeyViolation := true }

def uniqueViolation (columns : String) : Error := .db
  { message := "error returned from database: (code: 1555) UNIQUE constraint failed: " ++ columns
    retryable := false
    txConflict := false
    uniqueViolation := true
    foreignKeyViolation := false }

/-- The database's own limits: the error of a statement that binds so many parameters, if it is one. -/
abbrev Limit := Nat → Option Error

/-- SQLite's default `SQLITE_MAX_VARIABLE_NUMBER`. -/
def maxVariableNumber : Nat := 32766

def variableLimit : Limit := fun bound =>
  if maxVariableNumber < bound then
    some (.db
      { message := "error returned from database: (code: 1) too many SQL variables"
        retryable := false
        txConflict := false
        uniqueViolation := false
        foreignKeyViolation := false })
  else none

/-- `step_outcome_from`: a row with neither an error nor an output has no outcome. -/
def stepOutcomeFrom (lib : SerdeJson) (serializer : Serializer) (format output error : Option String) :
    Except Error (Option StepOutcome) :=
  match error with
  | some text =>
    let (message, info) := decodeError lib format text
    .ok (some (.failure message info))
  | none =>
    match output with
    | some text => (decode lib serializer format text).map fun value => some (.output value)
    | none => .ok none

def getStepResult (lib : SerdeJson) (serializer : Serializer) (id : String) (seq : Int) (db : Db) :
    Answer (Option RecordedStep) :=
  (match db.operationOutputs.get (id, seq) with
    | none => .ok none
    | some row => (stepOutcomeFrom lib serializer row.serialization row.output row.error).map
        fun outcome => outcome.map fun outcome => ⟨row.functionName, outcome⟩, db)

def checkChildWorkflow (parent : String) (seq : Int) (db : Db) : Answer (Option (String × String)) :=
  (.ok ((db.operationOutputs.get (parent, seq)).bind fun row => row.childWorkflowId.map fun id => (id, row.functionName)), db)

def getStepName (id : String) (seq : Int) (db : Db) : Answer (Option String) :=
  (.ok ((db.operationOutputs.get (id, seq)).map (·.functionName)), db)

/-- The outcome a checkpoint call reports; a bare row reads as null. -/
def outcomeOrNull (lib : SerdeJson) (serializer : Serializer) (format output error : Option String) :
    Except Error StepOutcome :=
  (stepOutcomeFrom lib serializer format output error).map (·.getD (.output .null))

/-- The output column: a failure records no output. -/
def outputColumn (lib : SerdeJson) (serializer : Serializer) (value : Value) (error : Option String) :
    Except Error (Option String) :=
  match error with
  | some _ => .ok none
  | none => (serializer.encode lib value).map some

def refreshExecutor (id : String) (executor : Option String) (db : Db) : Db :=
  match executor with
  | some executor =>
    { db with workflowStatus := db.workflowStatus.modify id fun row => { row with executorId := some executor } }
  | none => db

def recordStepResult (lib : SerdeJson) (serializer : Serializer) (now : DateTime) (id : String) (seq : Int)
    (name : String) (value : Value) (error : Option String) (startedAtMs : Option Int)
    (executor : Option String) (db : Db) : Answer StepOutcome :=
  match outputColumn lib serializer value error with
  | .error e => (.error e, db)
  | .ok output =>
    match db.operationOutputs.get (id, seq) with
    | none =>
      if (db.workflowStatus.get id).isNone then (.error foreignKeyViolation, db)
      else
        let row : StepRecord :=
          { functionName := name
            output := output
            error := error
            serialization := some serializer.name
            startedAtMs := startedAtMs
            completedAtMs := some now.timestampMillis }
        (outcomeOrNull lib serializer (some serializer.name) output error,
          refreshExecutor id executor
            { db with operationOutputs := db.operationOutputs.put (id, seq) row })
    | some row =>
      if row.functionName ≠ name then (.error (.unexpectedStep id seq name row.functionName), db)
      else if row.output = output ∧ row.error = error ∧ row.startedAtMs = startedAtMs then
        (outcomeOrNull lib serializer row.serialization row.output row.error, db)
      else (.error (.workflowConflict id), db)

def forkRecord (now : DateTime) (params : ForkParams) (timeoutMs : Option Int) (original : WorkflowRecord) :
    WorkflowRecord where
  status := .enqueued
  name := original.name
  inputs := original.inputs
  serialization := original.serialization
  executorId := some ""
  applicationVersion := (nonEmpty params.appVersion).or original.applicationVersion
  applicationId := original.applicationId
  forkedFrom := some params.originalId
  authenticatedUser := original.authenticatedUser
  assumedRole := original.assumedRole
  authenticatedRoles := original.authenticatedRoles
  className := original.className
  configName := original.configName
  queueName := some params.queueName
  queuePartitionKey := params.partitionKey
  attributes := original.attributes
  createdAt := now.timestampMillis
  updatedAt := now.timestampMillis
  timeoutMs := timeoutMs

def copiedRecords (params : ForkParams) (db : Db) : List ((String × Int) × StepRecord) :=
  if params.startStep ≤ 0 then []
  else db.operationOutputs.toList.filterMap fun entry =>
    if entry.1.1 = params.originalId ∧ entry.1.2 < params.startStep then
      some ((params.newId, entry.1.2), { entry.2 with startedAtMs := none, completedAtMs := none })
    else none

/-- `fork_workflow_with_timeout`: the primary keys refuse an id that is in use, and the
transaction rolls back. -/
def forkWorkflowWithTimeout (now : DateTime) (params : ForkParams) (timeoutMs : Option Int) (db : Db) :
    Answer Unit :=
  if timeoutMs.any (· < 0) then (.error (.ofMessage "fork timeout cannot be negative"), db)
  else match db.workflowStatus.get params.originalId with
    | none => (.error (.nonExistentWorkflow params.originalId), db)
    | some original =>
      if (db.workflowStatus.get params.newId).isSome then
        (.error (uniqueViolation "workflow_status.workflow_uuid"), db)
      else
        let copies := copiedRecords params db
        if copies.any fun row => (db.operationOutputs.get row.1).isSome then
          (.error (uniqueViolation "operation_outputs.workflow_uuid, operation_outputs.function_id"), db)
        else
          (.ok (), { db with
            workflowStatus := (db.workflowStatus.put params.newId (forkRecord now params timeoutMs original)).modify
              params.originalId fun row => { row with wasForkedFrom := true }
            operationOutputs := copies.foldl (fun t row => t.put row.1 row.2) db.operationOutputs })

/-- `as_envelope`: an object with an array of positional arguments and, if any, an object of named ones. -/
def asEnvelope : Value → Option (List Value × List (String × Value))
  | .object fields =>
    match fields.lookup "positionalArgs" with
    | some (.array args) =>
      match fields.lookup "namedArgs" with
      | some (.object named) => some (args, named)
      | none | some .null => some (args, [])
      | some _ => none
    | _ => none
  | _ => none

def encodeInput (lib : SerdeJson) (serializer : Serializer) (value : Value) : Except Error String :=
  match serializer with
  | .portable =>
    let (args, named) := (asEnvelope value).getD ([value], [])
    .ok (lib.toString (.object [("positionalArgs", .array args), ("namedArgs", .object named)]))
  | _ => serializer.encode lib value

def firstPositional (value : Value) : Value :=
  match asEnvelope value with
  | some (args, _) => args.head?.getD .null
  | none => value

def decodeInput (lib : SerdeJson) (serializer : Serializer) (format : Option String) (stored : String) :
    Except Error Value :=
  (decode lib serializer format stored).map fun value => if format = some PORTABLE then firstPositional value else value

def encodeRoles (lib : SerdeJson) (roles : List String) : Option String :=
  if roles = [] then none else some (lib.toString (.array (roles.map .string)))

/-- The columns a start writes. -/
def statusRecord (lib : SerdeJson) (serializer : Serializer) (inputs : String) (s : WorkflowStatus) :
    WorkflowRecord where
  status := s.status
  name := s.name
  inputs := some inputs
  serialization := some serializer.name
  executorId := some s.executorId
  applicationVersion := nonEmpty (some s.appVersion)
  queueName := s.queueName
  queuePartitionKey := s.queuePartitionKey
  deduplicationId := s.dedupId
  timeoutMs := s.timeoutMs
  parentWorkflowId := s.parentWorkflowId
  authenticatedUser := s.authenticatedUser
  assumedRole := s.assumedRole
  authenticatedRoles := encodeRoles lib s.authenticatedRoles
  className := s.className
  configName := s.configName
  attributes := s.attributes.map lib.toString
  createdAt := s.createdAt.timestampMillis
  updatedAt := s.updatedAt.timestampMillis
  priority := s.priority
  deadlineMs := s.deadlineMs
  delayUntilMs := s.delayUntilMs

/-- `row_to_status`: a text that cannot be read is no value. -/
def rowToStatus (lib : SerdeJson) (serializer : Serializer) (now : DateTime) (id : String) (r : WorkflowRecord) :
    WorkflowStatus :=
  let decoded := r.error.map (decodeError lib r.serialization)
  { id := id
    name := r.name
    status := r.status
    input := (r.inputs.bind fun text => (decodeInput lib serializer r.serialization text).toOption).getD .null
    output := r.output.bind fun text => (decode lib serializer r.serialization text).toOption
    error := decoded.map (·.1)
    errorInfo := decoded.bind (·.2)
    executorId := r.executorId.getD ""
    appVersion := r.applicationVersion.getD ""
    queueName := r.queueName
    queuePartitionKey := r.queuePartitionKey
    priority := asI32 r.priority
    dedupId := r.deduplicationId
    recoveryAttempts := asI32 r.recoveryAttempts
    parentWorkflowId := r.parentWorkflowId
    timeoutMs := r.timeoutMs
    deadlineMs := r.deadlineMs
    startedAtMs := r.startedAtMs
    rateLimited := r.rateLimited
    delayUntilMs := r.delayUntilMs
    completedAtMs := r.completedAt
    forkedFrom := r.forkedFrom
    authenticatedUser := r.authenticatedUser
    assumedRole := r.assumedRole
    authenticatedRoles := Memory.decodeRoles lib r.authenticatedRoles
    className := r.className
    configName := r.configName
    createdAt := Memory.msToDt now (some r.createdAt)
    updatedAt := Memory.msToDt now (some r.updatedAt)
    attributes := r.attributes.bind fun text => (lib.fromStr text).toOption }

/-- The partial unique index: a row holds the deduplication id on the queue. -/
def slotTaken (s : WorkflowStatus) (db : Db) : Bool :=
  match s.queueName, s.dedupId with
  | some queue, some dedup => db.workflowStatus.values.any fun r =>
      r.queueName == some queue && r.deduplicationId == some dedup
  | _, _ => false

/-- `insert_status_on`: the conflict on the id is looked at first and is no error; `adopt` makes the
one on the slot none either. -/
def insertStatusOn (lib : SerdeJson) (serializer : Serializer) (now : DateTime) (s : WorkflowStatus) (adopt : Bool)
    (db : Db) : Answer (Option (WorkflowStatus × Bool)) :=
  match encodeInput lib serializer s.input with
  | .error e => (.error e, db)
  | .ok inputs =>
    match db.workflowStatus.get s.id with
    | some row => (.ok (some (rowToStatus lib serializer now s.id row, false)), db)
    | none =>
      if slotTaken s db then
        if adopt then (.ok none, db)
        else (.error (.queueDeduplicated (s.queueName.getD "") (s.dedupId.getD "")), db)
      else
        let row := statusRecord lib serializer inputs s
        (.ok (some (rowToStatus lib serializer now s.id row, true)),
          { db with workflowStatus := db.workflowStatus.put s.id row })

def insertWorkflowStatus (lib : SerdeJson) (serializer : Serializer) (now : DateTime) (s : WorkflowStatus) (db : Db) :
    Answer (WorkflowStatus × Bool) :=
  match insertStatusOn lib serializer now s false db with
  | (.error e, db') => (.error e, db')
  | (.ok (some run), db') => (.ok run, db')
  | (.ok none, db') => (.error (.recoveryRequired (.ofMessage "inserted workflow is missing")), db')

theorem insertStatusOn_cases (lib : SerdeJson) (serializer : Serializer) (now : DateTime) (s : WorkflowStatus)
    (adopt : Bool) (db : Db) :
    (∃ e, insertStatusOn lib serializer now s adopt db = (.error e, db)) ∨
    (∃ row, db.workflowStatus.get s.id = some row ∧
      insertStatusOn lib serializer now s adopt db = (.ok (some (rowToStatus lib serializer now s.id row, false)), db)) ∨
    (adopt = true ∧ slotTaken s db = true ∧ insertStatusOn lib serializer now s adopt db = (.ok none, db)) ∨
    ∃ inputs, db.workflowStatus.get s.id = none ∧
      insertStatusOn lib serializer now s adopt db =
        (.ok (some (rowToStatus lib serializer now s.id (statusRecord lib serializer inputs s), true)),
          { db with workflowStatus := db.workflowStatus.put s.id (statusRecord lib serializer inputs s) }) := by
  unfold insertStatusOn
  split
  · exact .inl ⟨_, rfl⟩
  next inputs _ =>
    split
    next row stored => exact .inr (.inl ⟨row, stored, rfl⟩)
    next absent =>
      split
      next taken =>
        split
        next adopted => exact .inr (.inr (.inl ⟨adopted, taken, rfl⟩))
        · exact .inl ⟨_, rfl⟩
      · exact .inr (.inr (.inr ⟨inputs, absent, rfl⟩))

def rowNotFound : Error := .db
  { message := "no rows returned by a query that expected to return at least one row"
    retryable := false
    txConflict := false
    uniqueViolation := false
    foreignKeyViolation := false }

/-- The row that holds the slot of an adopted child. -/
def slotHolder (lib : SerdeJson) (serializer : Serializer) (now : DateTime) (child : WorkflowStatus) (db : Db) :
    Except Error WorkflowStatus :=
  match db.workflowStatus.toList.find? fun entry =>
      entry.2.queueName == child.queueName && entry.2.deduplicationId == child.dedupId with
  | some (id, row) => .ok (rowToStatus lib serializer now id row)
  | none => .error rowNotFound

/-- `insert_child_workflow`: one transaction, undone by every error. -/
def insertChildWorkflow (lib : SerdeJson) (serializer : Serializer) (now : DateTime) (child : WorkflowStatus)
    (parent : String) (seq : Int) (returnExisting : Bool) (db : Db) : Answer (Option ChildInsert) :=
  match db.workflowStatus.get parent with
  | none => (.error (.nonExistentWorkflow parent), db)
  | some parentRow =>
    match db.operationOutputs.get (parent, seq) with
    | some step =>
      match step.childWorkflowId with
      | some id =>
        if step.functionName ≠ child.name then (.error (.workflowConflict parent), db)
        else (.ok (some (.replayed id)), db)
      | none => (.error (.workflowConflict parent), db)
    | none =>
      if parentRow.status = .cancelled then (.error (.cancelled parent), db)
      else match insertStatusOn lib serializer now child returnExisting db with
        | (.error e, _) => (.error e, db)
        | (.ok found, db') =>
          let settled : Except Error (WorkflowStatus × Bool) := match found with
            | some run => .ok run
            | none => (slotHolder lib serializer now child db').map fun row => (row, false)
          match settled with
          | .error e => (.error e, db)
          | .ok (row, created) =>
            match checkChildTarget row child with
            | .error e => (.error e, db)
            | .ok _ =>
              let link : StepRecord := { functionName := child.name, childWorkflowId := some row.id }
              (.ok (some (.resolved row created)),
                { db' with operationOutputs := db'.operationOutputs.put (parent, seq) link })

end Durare.Sqlite

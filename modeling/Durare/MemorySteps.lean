import Durare.Memory

/-! The in-memory provider's recorded operations: checkpoints, messages, events, streams,
child links, patch markers, and the two operations that write a whole history. -/
namespace Durare.Memory

/-- `step_row_outcome`: an error is a failure, anything else its output or null. -/
def stepRowOutcome (lib : SerdeJson) (row : StepRow) : StepOutcome :=
  match row.error with
  | some text =>
    let (message, info) := decodeError lib none text
    .failure message info
  | none => .output (row.output.getD .null)

def getStepResult (lib : SerdeJson) (id : String) (seq : Int) (s : Inner) : Answer (Option RecordedStep) :=
  (.ok ((s.steps.get (id, seq)).map fun row => ⟨row.name, stepRowOutcome lib row⟩), s)

/-- The columns one checkpoint write fills: a failure has no output. -/
def checkpointRow (now : DateTime) (name : String) (value : Value) (error : Option String)
    (startedAtMs : Option Int) : StepRow where
  name := name
  output := if error.isSome then none else some value
  error := error
  startedAtMs := startedAtMs
  completedAtMs := some now.timestampMillis

/-- Identical content and start instant: a replay or a retry of the same write. -/
def sameWrite (row written : StepRow) : Bool :=
  Value.optPartialEq row.output written.output && row.error == written.error &&
    row.startedAtMs == written.startedAtMs

/-- The winner of a checkpoint is the executor that runs the workflow. -/
def refreshExecutor (id : String) (executor : Option String) (s : Inner) : Inner :=
  match executor with
  | some executor => { s with workflows := s.workflows.modify id fun row => { row with executorId := executor } }
  | none => s

def recordStepResult (lib : SerdeJson) (now : DateTime) (id : String) (seq : Int) (name : String)
    (value : Value) (error : Option String) (startedAtMs : Option Int) (executor : Option String)
    (s : Inner) : Answer StepOutcome :=
  let written := checkpointRow now name value error startedAtMs
  match s.steps.get (id, seq) with
  | some row =>
    if row.name ≠ name then (.error (.unexpectedStep id seq name row.name), s)
    else if sameWrite row written then (.ok (stepRowOutcome lib row), s)
    else (.error (.workflowConflict id), s)
  | none => (.ok (stepRowOutcome lib written), refreshExecutor id executor (s.putStep id seq written))

def recordedAt (id : String) (seq : Int) (name : String) (s : Inner) : Except Error (Option StepRow) :=
  match s.steps.get (id, seq) with
  | none => .ok none
  | some row => if row.name ≠ name then .error (.unexpectedStep id seq name row.name) else .ok (some row)

def checkpoint (now : DateTime) (id : String) (seq : Int) (name : String) (output : Value) (s : Inner) :
    Inner :=
  s.putStep id seq { name := name, output := some output, completedAtMs := some now.timestampMillis }

def getStepName (id : String) (seq : Int) (s : Inner) : Answer (Option String) :=
  (.ok ((s.steps.get (id, seq)).map (·.name)), s)

/-- `or_insert`: writes a row only where there is none. -/
def Inner.insertStep (s : Inner) (id : String) (seq : Int) (row : StepRow) : Inner :=
  match s.steps.get (id, seq) with
  | some _ => s
  | none => s.putStep id seq row

def recordPatch (id : String) (seq : Int) (name : String) (s : Inner) : Answer Unit :=
  (.ok (), s.insertStep id seq { name := name })

def recordChildWorkflow (parent : String) (seq : Int) (name child : String) (s : Inner) : Answer Unit :=
  (.ok (), s.insertStep parent seq { name := name, childWorkflowId := some child })

def checkChildWorkflow (parent : String) (seq : Int) (s : Inner) : Answer (Option (String × String)) :=
  (.ok ((s.steps.get (parent, seq)).bind fun row => row.childWorkflowId.map fun id => (id, row.name)), s)

/-- A keyed message derives its id, so a retry of the send finds it. -/
def messageUuid (row : NotificationInsert) (fresh : String) : String :=
  match row.idempotencyKey with
  | some key => key ++ "::" ++ row.destinationId
  | none => fresh

def alreadySent (row : NotificationInsert) (fresh : String) (sent : List NotificationRow) : Bool :=
  row.idempotencyKey.isSome && sent.any fun n => n.messageUuid == messageUuid row fresh

def acceptNotification (now : DateTime) (row : NotificationInsert) (fresh : String)
    (sent : List NotificationRow) : List NotificationRow :=
  if alreadySent row fresh sent then sent
  else sent ++ [
    { messageUuid := messageUuid row fresh
      destinationId := row.destinationId
      topic := row.topic
      message := row.message
      consumed := false
      createdAtMs := now.timestampMillis }]

def acceptNotifications (now : DateTime) (rows : List (NotificationInsert × String))
    (sent : List NotificationRow) : List NotificationRow :=
  rows.foldl (fun sent row => acceptNotification now row.1 row.2 sent) sent

/-- `push_notifications`: every destination is checked before the first insert. Each row
comes with the fresh id it takes when it has no key. -/
def pushNotifications (now : DateTime) (rows : List (NotificationInsert × String)) (s : Inner) : Answer Unit :=
  match rows.find? fun row => (s.workflows.get row.1.destinationId).isNone with
  | some missing => (.error (.nonExistentWorkflow missing.1.destinationId), s)
  | none => (.ok (), { s with notifications := acceptNotifications now rows s.notifications })

def insertNotification (now : DateTime) (row : NotificationInsert) (fresh : String) (s : Inner) : Answer Unit :=
  pushNotifications now [(row, fresh)] s

def insertNotifications (now : DateTime) (rows : List (NotificationInsert × String)) (s : Inner) : Answer Unit :=
  pushNotifications now rows s

def sendFromWorkflow (now : DateTime) (id : String) (seq : Int) (name : String)
    (rows : List (NotificationInsert × String)) (s : Inner) : Answer Unit :=
  match recordedAt id seq name s with
  | .error e => (.error e, s)
  | .ok (some _) => (.ok (), s)
  | .ok none =>
    match pushNotifications now rows s with
    | (.error e, s') => (.error e, s')
    | (.ok _, s') => (.ok (), checkpoint now id seq name .null s')

def awaiting (id topic : String) (n : NotificationRow) : Bool :=
  !n.consumed && n.destinationId == id && n.topic == topic

def oldest (id topic : String) (sent : List NotificationRow) : Option (NotificationRow × Nat) :=
  minBy (fun n => n.1.createdAtMs) (sent.zipIdx.filter fun n => awaiting id topic n.1)

def consumeNotification (lib : SerdeJson) (now : DateTime) (id topic : String) (seq : Int) (name : String)
    (s : Inner) : Answer (Option Value) :=
  match recordedAt id seq name s with
  | .error e => (.error e, s)
  | .ok (some row) => (((stepRowOutcome lib row).intoValueResult lib).map some, s)
  | .ok none =>
    match oldest id topic s.notifications with
    | none => (.ok none, s)
    | some (row, place) =>
      let sent := s.notifications.modify place fun n => { n with consumed := true }
      (.ok (some row.message), checkpoint now id seq name row.message { s with notifications := sent })

def upsertEvent (id key : String) (value : Value) (s : Inner) : Answer Unit :=
  (.ok (), { s with events := s.events.put (id, key) value })

def getEventValue (id key : String) (s : Inner) : Answer (Option Value) := (.ok (s.events.get (id, key)), s)

def closed (entries : List (Option Value)) : Bool := entries.any (·.isNone)

/-- `append_stream`: nothing follows the close sentinel. -/
def appendStream (id key : String) (value : Option Value) (s : Inner) : Answer Unit :=
  let entries := (s.streams.get (id, key)).getD []
  if closed entries then (.error (.ofMessage s!"stream `{key}` is already closed"), s)
  else (.ok (), { s with streams := s.streams.put (id, key) (entries ++ [value]) })

def writeStream (id key : String) (value : Option Value) (s : Inner) : Answer Unit := appendStream id key value s

def writeStreamFromWorkflow (now : DateTime) (id : String) (seq : Int) (name key : String)
    (value : Option Value) (s : Inner) : Answer Unit :=
  match recordedAt id seq name s with
  | .error e => (.error e, s)
  | .ok (some _) => (.ok (), s)
  | .ok none =>
    match appendStream id key value s with
    | (.error e, s') => (.error e, s')
    | (.ok _, s') => (.ok (), checkpoint now id seq name .null s')

/-- The row a child start settles on before it creates one: its own id, or the holder of
its deduplication slot. -/
def chosenChild (child : WorkflowStatus) (returnExisting : Bool) (s : Inner) :
    Except Error (Option WorkflowStatus) :=
  match s.workflows.get child.id with
  | some row => .ok (some row)
  | none =>
    match child.queueName, child.dedupId with
    | some queue, some dedup =>
      match s.workflows.values.find? (holdsDedup queue dedup) with
      | none => .ok none
      | some row => if returnExisting then .ok (some row) else .error (.queueDeduplicated queue dedup)
    | _, _ => .ok none

def insertChildWorkflow (child : WorkflowStatus) (parent : String) (seq : Int) (returnExisting : Bool)
    (s : Inner) : Answer (Option ChildInsert) :=
  match s.steps.get (parent, seq) with
  | some step =>
    match step.childWorkflowId with
    | some id =>
      if step.name ≠ child.name then (.error (.workflowConflict parent), s)
      else (.ok (some (.replayed id)), s)
    | none => (.error (.workflowConflict parent), s)
  | none =>
    match s.workflows.get parent with
    | none => (.error (.nonExistentWorkflow parent), s)
    | some parentRow =>
      if parentRow.status = .cancelled then (.error (.cancelled parent), s)
      else match chosenChild child returnExisting s with
        | .error e => (.error e, s)
        | .ok chosen =>
          let row := chosen.getD child
          match checkChildTarget row child with
          | .error e => (.error e, s)
          | .ok _ =>
            let s' := if chosen.isNone then s.putRow row.id row else s
            (.ok (some (.resolved row chosen.isNone)),
              s'.putStep parent seq { name := child.name, childWorkflowId := some row.id })

def forkRow (now : DateTime) (params : ForkParams) (timeoutMs : Option Int) (original : WorkflowStatus) :
    WorkflowStatus :=
  { WorkflowStatus.new now params.newId original.name original.input .enqueued ""
      (params.appVersion.getD original.appVersion) with
    timeoutMs := timeoutMs
    forkedFrom := some params.originalId
    authenticatedUser := original.authenticatedUser
    assumedRole := original.assumedRole
    authenticatedRoles := original.authenticatedRoles
    className := original.className
    configName := original.configName
    attributes := original.attributes
    queueName := some params.queueName
    queuePartitionKey := params.partitionKey }

/-- The original's rows below the step the fork starts at. -/
def copiedSteps (originalId : String) (startStep : Int) (s : Inner) : List (Int × StepRow) :=
  s.steps.toList.filterMap fun entry =>
    if entry.1.1 = originalId ∧ entry.1.2 < startStep then some (entry.1.2, entry.2) else none

def Inner.putSteps (s : Inner) (id : String) (rows : List (Int × StepRow)) : Inner :=
  rows.foldl (fun s row => s.putStep id row.1 row.2) s

/-- `fork_workflow_with_timeout`: the row and the copies are stored under the new id
whether or not it is in use. -/
def forkWorkflowWithTimeout (now : DateTime) (params : ForkParams) (timeoutMs : Option Int) (s : Inner) :
    Answer Unit :=
  if timeoutMs.any (· < 0) then (.error (.ofMessage "fork timeout cannot be negative"), s)
  else match s.workflows.get params.originalId with
    | none => (.error (.nonExistentWorkflow params.originalId), s)
    | some original =>
      (.ok (), (s.putRow params.newId (forkRow now params timeoutMs original)).putSteps params.newId
        (copiedSteps params.originalId params.startStep s))

/-- `decode_roles`: a malformed column is no roles. -/
def decodeRoles (lib : SerdeJson) (stored : Option String) : List String :=
  match stored.bind fun text => (lib.fromStr text).toOption with
  | some (.array items) => if items.all fun item => item.asStr.isSome then items.filterMap Value.asStr else []
  | _ => []

def parsed (lib : SerdeJson) (columns : Columns) (key : String) : Option Value :=
  (colStr columns key).bind fun text => (lib.fromStr text).toOption

def msToDt (now : DateTime) (ms : Option Int) : DateTime :=
  (ms.bind DateTime.fromTimestampMillis).getD now

def mapToStatus (lib : SerdeJson) (now : DateTime) (c : Columns) : WorkflowStatus :=
  let decoded := (colStr c "error").map (decodeError lib (colStr c "serialization"))
  { id := (colStr c "workflow_uuid").getD ""
    name := (colStr c "name").getD ""
    status := .ofString ((colStr c "status").getD "")
    input := (parsed lib c "inputs").getD .null
    output := parsed lib c "output"
    error := decoded.map (·.1)
    errorInfo := decoded.bind (·.2)
    executorId := (colStr c "executor_id").getD ""
    appVersion := (colStr c "application_version").getD ""
    queueName := colStr c "queue_name"
    queuePartitionKey := colStr c "queue_partition_key"
    priority := asI32 ((colI64 c "priority").getD 0)
    dedupId := colStr c "deduplication_id"
    recoveryAttempts := asI32 ((colI64 c "recovery_attempts").getD 0)
    parentWorkflowId := colStr c "parent_workflow_id"
    timeoutMs := colI64 c "workflow_timeout_ms"
    deadlineMs := colI64 c "workflow_deadline_epoch_ms"
    startedAtMs := colI64 c "started_at_epoch_ms"
    delayUntilMs := colI64 c "delay_until_epoch_ms"
    completedAtMs := colI64 c "completed_at"
    forkedFrom := colStr c "forked_from"
    authenticatedUser := colStr c "authenticated_user"
    assumedRole := colStr c "assumed_role"
    authenticatedRoles := decodeRoles lib (colStr c "authenticated_roles")
    className := colStr c "class_name"
    configName := colStr c "config_name"
    createdAt := msToDt now (colI64 c "created_at")
    updatedAt := msToDt now (colI64 c "updated_at") }

def importedStep (lib : SerdeJson) (c : Columns) : Int × StepRow :=
  (asI32 ((colI64 c "function_id").getD 0),
    { name := (colStr c "function_name").getD ""
      output := parsed lib c "output"
      error := (colStr c "error").map fun stored =>
        let (message, info) := decodeError lib (colStr c "serialization") stored
        encodeStoredError lib .json message info
      childWorkflowId := colStr c "child_workflow_id"
      startedAtMs := colI64 c "started_at_epoch_ms"
      completedAtMs := colI64 c "completed_at_epoch_ms" })

def STREAM_CLOSED_SENTINEL : String := "__DBOS_STREAM_CLOSED__"

/-- A stream entry with its offset cast to `usize`. -/
def importedEntry (lib : SerdeJson) (c : Columns) : String × Nat × Option Value :=
  ((colStr c "key").getD "", ((colI64 c "offset").getD 0 % 2 ^ 64).toNat,
    match colStr c "value" with
    | some text => if text = STREAM_CLOSED_SENTINEL then none else (lib.fromStr text).toOption
    | none => none)

/-- No vector of optional values is longer: its bytes would pass `isize::MAX`. -/
def MAX_STREAM_LEN : Nat := (2 ^ 63 - 1) / 72

def streamBuffer (rows : List (Nat × Option Value)) : Option (List (Option Value)) :=
  let length := rows.foldl (fun length row => max length (row.1 + 1)) 0
  if MAX_STREAM_LEN < length then none
  else some (rows.foldl (fun buffer row => buffer.set row.1 row.2) (List.replicate length none))

/-- How an import without an error ends: it returns, or panics at a stream offset it
cannot index and leaves what it has stored. -/
inductive ImportEnd where
  | returned
  | panicked
deriving DecidableEq, Repr

def importStreams (id : String) (rows : List (String × Nat × Option Value)) : List String → Inner →
    ImportEnd × Inner
  | [], s => (.returned, s)
  | key :: keys, s =>
    match streamBuffer (rows.filterMap fun row => if row.1 = key then some row.2 else none) with
    | none => (.panicked, s)
    | some buffer => importStreams id rows keys { s with streams := s.streams.put (id, key) buffer }

def importOne (lib : SerdeJson) (now : DateTime) (wf : ExportedWorkflow) (s : Inner) : ImportEnd × Inner :=
  let id := (colStr wf.workflowStatus "workflow_uuid").getD ""
  let s := (s.putRow id (mapToStatus lib now wf.workflowStatus)).putSteps id
    (wf.operationOutputs.map (importedStep lib))
  let events := wf.workflowEvents.foldl (fun events c =>
    events.put (id, (colStr c "key").getD "") ((parsed lib c "value").getD .null)) s.events
  let entries := wf.streams.map (importedEntry lib)
  importStreams id entries (entries.map (·.1)).dedup { s with events := events }

def importAll (lib : SerdeJson) (now : DateTime) : List ExportedWorkflow → Inner → ImportEnd × Inner
  | [], s => (.returned, s)
  | wf :: rest, s =>
    match importOne lib now wf s with
    | (.panicked, s') => (.panicked, s')
    | (.returned, s') => importAll lib now rest s'

/-- `import_workflow`: ids are checked up front against the stored workflows only. -/
def importWorkflow (lib : SerdeJson) (now : DateTime) (wfs : List ExportedWorkflow) (s : Inner) :
    Answer ImportEnd :=
  match wfs.findSome? fun wf => (colStr wf.workflowStatus "workflow_uuid").filter fun id =>
      (s.workflows.get id).isSome with
  | some id => (.error (.ofMessage s!"workflow {id} already exists"), s)
  | none =>
    let (ending, s') := importAll lib now wfs s
    (.ok ending, s')

end Durare.Memory

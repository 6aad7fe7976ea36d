import Durare.Calls
import Durare.Interaction
import Durare.Starts

/-! The durable operations a workflow body calls. Each is a client of the provider: it
asks it one call at a time, and in between anything may happen. The body's own closures,
the clock and the failure latch of the execution are asked for in the same way. -/
namespace Durare

open Interaction

/-- How `serde` converts a type to JSON and back. A failure carries its message. -/
structure Codec (α : Type) where
  toValue : α → Except String Value
  fromValue : Value → Except String α

def Codec.value : Codec Value := ⟨.ok, .ok⟩

/-- `Option<T>`: null is no value, everything else is read as a `T`. -/
def Codec.optional (codec : Codec α) : Codec (Option α) where
  toValue
    | none => .ok .null
    | some a => codec.toValue a
  fromValue value := if value.isNull then .ok none else (codec.fromValue value).map some

/-- The conversions of library types. An instant is written and read back unchanged. -/
structure Builtins where
  instants : Codec DateTime
  strings : Codec String
  floats : Codec Number
  instants_back : ∀ t, ∃ value, instants.toValue t = .ok value ∧ instants.fromValue value = .ok t

/-- How a step's closure ends. -/
inductive BodyEnd (δ : Type) where
  | returned (result : Except Error δ)
  | panicked (message : String)

/-- What a durable call asks of its surroundings: a provider call, the clock, randomness,
the body's closures, a pause, and the latch of its execution. -/
inductive Ask where
  | call (call : Memory.Call)
  | now
  | fresh
  | random
  | body (seq : Int) (attempt : Nat)
  | race (seq : Int)
  | wait
  | check
  | interrupt (cause : Error)
deriving DecidableEq, Repr

/-- The provider call an ask makes. -/
def Ask.provider : Ask → Option Memory.Call
  | .call c => some c
  | _ => none

/-- A race ends with the first branch that is ready, or a branch panics. -/
abbrev Ask.Reply (δ : Type) : Ask → Type
  | .call c => Except Error c.Reply
  | .now => DateTime
  | .fresh => String
  | .random => Number
  | .body _ _ => BodyEnd δ
  | .race _ => Option (Nat × δ)
  | .wait => Unit
  | .check => Except Error Unit
  | .interrupt _ => Error

/-- A fallible client: `do` gives up at the first error, as `?` does. -/
def Act (δ α : Type) : Type := Client Ask (Ask.Reply δ) (Except Error α)

namespace Act

variable {δ α β : Type}

def bind (act : Act δ α) (f : α → Act δ β) : Act δ β :=
  Client.bind act fun
    | .ok a => f a
    | .error e => Client.done (.error e)

instance : Monad (Act δ) where
  pure a := Client.done (.ok a)
  bind := bind

def throw (error : Error) : Act δ α := Client.done (.error error)

def ofExcept (result : Except Error α) : Act δ α := Client.done result

def get (q : Ask) : Act δ (q.Reply δ) := Client.ask q fun reply => Client.done (.ok reply)

def attempt (act : Act δ α) : Act δ (Except Error α) := Client.bind act fun result => Client.done (.ok result)

def halt : Act δ α := Client.halt

end Act

structure Context where
  lib : SerdeJson
  builtins : Builtins
  rt : Runtime
  workflowId : String
  auth : AuthContext
  serializer : Serializer

/-- The provider boundary's storage failures. -/
def Error.isStorageFailure : Error → Bool
  | .db _ | .migrate _ | .serde _ | .serialization _ | .recoveryRequired _ | .observationFailed _ => true
  | _ => false

/-- The cause the latch keeps: an interruption is unwrapped. -/
def Error.cause : Error → Error
  | .recoveryRequired cause | .observationFailed cause => cause
  | error => error

def recoveryError : Error → Error
  | .recoveryRequired cause => .recoveryRequired cause
  | .observationFailed cause => .recoveryRequired cause
  | other => .recoveryRequired other

def observationError (error : Error) : Error :=
  match error with
  | .observationFailed cause => .observationFailed cause
  | .recoveryRequired cause => .observationFailed cause
  | error => if error.isStorageFailure then .observationFailed error else error

/-- `next_seq`: the position after this one. -/
def nextSeq (seq : Int) : Int := asI32 (seq + 1)

theorem nextSeq_ne (seq : Int) : nextSeq seq ≠ seq := by
  unfold nextSeq asI32
  intro same
  have mod := Int.bmod_emod (x := seq + 1) (m := 2 ^ 32)
  rw [same] at mod
  omega

namespace Context

variable {δ α : Type} (ctx : Context)

/-- `Execution::interrupt`: latches the cause and fails with the interruption. -/
def interrupt (error : Error) : Act δ α := do
  let first ← Act.get (.interrupt error.cause)
  .throw first

/-- `Execution::record`: a storage failure interrupts, a rejection stays an ordinary error. -/
def record (error : Error) : Act δ α :=
  if error.isStorageFailure then interrupt error else .throw error

/-- `Execution::body_error`: adopts another execution's interruption. -/
def bodyError (error : Error) : Act δ α :=
  match error with
  | .recoveryRequired _ | .observationFailed _ => interrupt error
  | error => .throw error

def storage (result : Except Error α) : Act δ α :=
  match result with
  | .ok a => pure a
  | .error e => record e

def call (c : Memory.Call) : Act δ c.Reply := do
  let result ← Act.get (.call c)
  storage result

def check : Act δ Unit := do
  let latch ← Act.get .check
  .ofExcept latch

/-- `recorded_value`: what a recorded outcome gives the body. -/
def recordedValue (codec : Codec α) (outcome : StepOutcome) : Act δ α :=
  match outcome with
  | .output value => .ofExcept (serdeResult (codec.fromValue value))
  | .failure message info => do
    let error ← storage (tryFromParts ctx.lib message info)
    .throw error

def checkRecorded (seq : Int) (expected recorded : String) : Act δ Unit :=
  if recorded ≠ expected then .throw (.unexpectedStep ctx.workflowId seq expected recorded) else pure ()

/-- `serve_recorded`: the gate every durable call passes before it does any work. -/
def serveRecorded (seq : Int) (expected : String) (codec : Codec α) : Act δ (Option α) := do
  match ← call (.getStepResult ctx.workflowId seq) with
  | some step =>
    ctx.checkRecorded seq expected step.name
    let value ← ctx.recordedValue codec step.outcome
    pure (some value)
  | none => pure none

/-- Fresh work is refused on a cancelled workflow. -/
def guardCancelled : Act δ Unit := do
  match ← call (.getWorkflowStatus ctx.workflowId) with
  | some status => if status.status = .cancelled then .throw (.cancelled ctx.workflowId) else pure ()
  | none => pure ()

def replayOrGuard (seq : Int) (expected : String) (codec : Codec α) : Act δ (Option α) := do
  match ← ctx.serveRecorded seq expected codec with
  | some stored => pure (some stored)
  | none =>
    ctx.guardCancelled
    pure none

def recordStep (seq : Int) (name : String) (value : Value) (encodedError : Option String)
    (startedAtMs : Option Int) : Act δ StepOutcome :=
  call (.recordStepResult ctx.workflowId seq name value encodedError startedAtMs (some ctx.rt.executorId))

def writeStepOutcome (seq : Int) (name : String) (value : Value) (encodedError : Option String)
    (startedAtMs : Option Int) (codec : Codec α) : Act δ α := do
  let outcome ← ctx.recordStep seq name value encodedError startedAtMs
  ctx.recordedValue codec outcome

def recordFailure (seq : Int) (name : String) (error : Error) (startedAtMs : Option Int) (codec : Codec α) :
    Act δ α := do
  check
  let encoded ← storage (encodeError ctx.lib ctx.serializer error)
  ctx.writeStepOutcome seq name .null (some encoded) startedAtMs codec

/-- `checkpoint`: a result that does not serialize is recorded as that failure. -/
def checkpoint (seq : Int) (name : String) (result : α) (startedAtMs : Option Int) (codec : Codec α) :
    Act δ α := do
  check
  match codec.toValue result with
  | .ok value => ctx.writeStepOutcome seq name value none startedAtMs codec
  | .error message => ctx.recordFailure seq name (.serde message) startedAtMs codec

def runStepCatching (name : String) : BodyEnd δ → Except Error δ
  | .returned result => result
  | .panicked message => .error (.ofMessage s!"step `{name}` panicked: {message}")

/-- A step records what its closure ended with, except its own workflow's cancellation. -/
def recordResult (seq : Int) (name : String) (result : Except Error δ) (startedAtMs : Int) (codec : Codec δ) :
    Act δ δ :=
  match result with
  | .ok value => ctx.checkpoint seq name value (some startedAtMs) codec
  | .error e =>
    if e.isCancellationFor ctx.workflowId then .throw e
    else ctx.recordFailure seq name e (some startedAtMs) codec

def step (seq : Int) (name : String) (codec : Codec δ) : Act δ δ := do
  match ← ctx.replayOrGuard seq name codec with
  | some stored => pure stored
  | none =>
    let started ← Act.get .now
    let ending ← Act.get (.body seq 0)
    ctx.recordResult seq name (runStepCatching name ending) started.timestampMillis codec

/-- `run_with_retries`, with the retries that are left. A missing predicate retries every error. -/
def runWithRetries (seq : Int) (name : String) (retryIf : Option (Error → Bool)) : Nat → Nat → Act δ δ
  | left, attempt => do
    let ending ← Act.get (.body seq attempt)
    match runStepCatching name ending with
    | .ok value => pure value
    | .error e =>
      match e with
      | .recoveryRequired _ | .observationFailed _ => bodyError e
      | e =>
        if e.isCancellationFor ctx.workflowId || e.isScopeViolation then .throw e
        else if !(retryIf.all (· e)) then .throw e
        else match left with
          | 0 => .throw e
          | left + 1 => do
            Act.get .wait
            runWithRetries seq name retryIf left (attempt + 1)

def stepWith (seq : Int) (name : String) (maxRetries : Nat) (retryIf : Option (Error → Bool))
    (codec : Codec δ) : Act δ δ := do
  match ← ctx.replayOrGuard seq name codec with
  | some stored => pure stored
  | none =>
    let started ← Act.get .now
    let result ← (ctx.runWithRetries seq name retryIf maxRetries 0).attempt
    ctx.recordResult seq name result started.timestampMillis codec

/-- A panic in a branch unwinds the workflow body. -/
def select (seq : Int) (codec : Codec (Nat × δ)) : Act δ (Nat × δ) := do
  match ← ctx.replayOrGuard seq "DBOS.select" codec with
  | some stored => pure stored
  | none =>
    let started ← Act.get .now
    match ← Act.get (.race seq) with
    | some winner => ctx.checkpoint seq "DBOS.select" winner (some started.timestampMillis) codec
    | none => .halt

def durableValueAt (seq : Int) (name : String) (produce : Act δ α) (codec : Codec α) : Act δ α := do
  match ← ctx.serveRecorded seq name codec with
  | some value => pure value
  | none =>
    let value ← produce
    ctx.checkpoint seq name value none codec

def MAX_INSTANT : DateTime := 8210266876799999 * 1000000 + 999999

/-- `wake_instant`: a span beyond `TimeDelta` counts as none, and a sum past the last
instant panics. -/
def wakeInstant (span : Duration) : Act δ DateTime := do
  let now ← Act.get .now
  let wake := now + if span ≤ (2 ^ 63 - 1) * 1000000 then (span : Int) else 0
  if MAX_INSTANT < wake then .halt else pure wake

def sleep (seq : Int) (span : Duration) : Act δ Unit := do
  let wakeAt ← ctx.durableValueAt seq "DBOS.sleep" (wakeInstant span) ctx.builtins.instants
  let now ← Act.get .now
  if now < wakeAt then Act.get .wait else pure ()

def now (seq : Int) : Act δ DateTime := ctx.durableValueAt seq "DBOS.now" (Act.get .now) ctx.builtins.instants

def uuid (seq : Int) : Act δ String := ctx.durableValueAt seq "DBOS.uuid" (Act.get .fresh) ctx.builtins.strings

def random (seq : Int) : Act δ Number :=
  ctx.durableValueAt seq "DBOS.random" (Act.get .random) ctx.builtins.floats

/-- The provider draws an id for each message. -/
def addressed : List NotificationInsert → Act δ (List (NotificationInsert × String))
  | [] => pure []
  | row :: rows => do
    let fresh ← Act.get .fresh
    let rest ← addressed rows
    pure ((row, fresh) :: rest)

/-- `send` and `send_bulk` differ in the name and the rows. -/
def sendRows (seq : Int) (name : String) (rows : List NotificationInsert) : Act δ Unit := do
  match ← ctx.replayOrGuard seq name .value with
  | some _ => pure ()
  | none =>
    let rows ← addressed rows
    call (.sendFromWorkflow ctx.workflowId seq name rows)

def send (seq : Int) (destination topic : String) (message : Value) : Act δ Unit :=
  ctx.sendRows seq "DBOS.send" [⟨destination, topic, message, none⟩]

def sendBulk (seq : Int) (rows : List NotificationInsert) : Act δ Unit :=
  ctx.sendRows seq "DBOS.send_bulk" rows

def setWorkflowAttributes (seq : Int) (id : String) (attributes : Option Columns) : Act δ Unit := do
  match ← ctx.replayOrGuard seq "DBOS.updateWorkflowAttributes" .value with
  | some _ => pure ()
  | none =>
    call (.setWorkflowAttributes id attributes)
    let _ ← ctx.recordStep seq "DBOS.updateWorkflowAttributes" .null none none
    pure ()

/-- The deadline of a wait is a timer at the position after the wait's own, fixed at the
first miss. -/
def deadlineOf (seq : Int) (timeout : Duration) : Option DateTime → Act δ DateTime
  | some deadline => pure deadline
  | none => ctx.durableValueAt (nextSeq seq) "DBOS.sleep" (wakeInstant timeout) ctx.builtins.instants

/-- The loop of `recv`. `rounds` bounds how often the wait is woken before the process
stops. -/
def recvLoop (seq : Int) (topic : String) (timeout : Duration) (codec : Codec δ) :
    Nat → Option DateTime → Act δ (Option δ)
  | 0, _ => .halt
  | rounds + 1, deadline => do
    match ← call (.consumeNotification ctx.workflowId topic seq "DBOS.recv") with
    | some message => ctx.recordedValue codec.optional (.output message)
    | none =>
      let deadline ← ctx.deadlineOf seq timeout deadline
      let now ← Act.get .now
      if deadline ≤ now then
        let _ ← ctx.recordStep seq "DBOS.recv" .null none none
        pure none
      else
        Act.get .wait
        recvLoop seq topic timeout codec rounds (some deadline)

def recv (rounds : Nat) (seq : Int) (topic : String) (timeout : Duration) (codec : Codec δ) :
    Act δ (Option δ) := do
  match ← ctx.replayOrGuard seq "DBOS.recv" codec.optional with
  | some stored => pure stored
  | none => ctx.recvLoop seq topic timeout codec rounds none

def setEvent (seq : Int) (key : String) (value : Value) : Act δ Unit := do
  match ← ctx.replayOrGuard seq "DBOS.setEvent" .value with
  | some _ => pure ()
  | none =>
    call (.upsertEvent ctx.workflowId key value)
    let _ ← ctx.recordStep seq "DBOS.setEvent" .null none none
    pure ()

/-- The loop of `get_event`: the first reading decodes the value as a `T` and wraps it. -/
def getEventLoop (seq : Int) (target key : String) (timeout : Duration) (codec : Codec δ) :
    Nat → Option DateTime → Act δ (Option δ)
  | 0, _ => .halt
  | rounds + 1, deadline => do
    match ← call (.getEventValue target key) with
    | some value =>
      let outcome ← ctx.recordStep seq "DBOS.getEvent" value none none
      let value ← ctx.recordedValue codec outcome
      pure (some value)
    | none =>
      let deadline ← ctx.deadlineOf seq timeout deadline
      let now ← Act.get .now
      if deadline ≤ now then
        let _ ← ctx.recordStep seq "DBOS.getEvent" .null none none
        pure none
      else
        Act.get .wait
        getEventLoop seq target key timeout codec rounds (some deadline)

def getEvent (rounds : Nat) (seq : Int) (target key : String) (timeout : Duration) (codec : Codec δ) :
    Act δ (Option δ) := do
  match ← ctx.replayOrGuard seq "DBOS.getEvent" codec.optional with
  | some stored => pure stored
  | none => ctx.getEventLoop seq target key timeout codec rounds none

/-- `write_stream`, and `close_stream` with no value. -/
def appendStream (seq : Int) (name key : String) (value : Option Value) : Act δ Unit := do
  match ← ctx.replayOrGuard seq name .value with
  | some _ => pure ()
  | none => call (.writeStreamFromWorkflow ctx.workflowId seq name key value)

def writeStream (seq : Int) (key : String) (value : Value) : Act δ Unit :=
  ctx.appendStream seq "DBOS.writeStream" key (some value)

def closeStream (seq : Int) (key : String) : Act δ Unit :=
  ctx.appendStream seq "DBOS.closeStream" key none

/-- The child inherits each auth field its options leave open. -/
def childAuth (opts : WorkflowOptions) : AuthContext where
  authenticatedUser := opts.authenticatedUser.or ctx.auth.authenticatedUser
  assumedRole := opts.assumedRole.or ctx.auth.assumedRole
  authenticatedRoles := if opts.authenticatedRoles = [] then ctx.auth.authenticatedRoles else opts.authenticatedRoles

def childId (seq : Int) (opts : WorkflowOptions) : String :=
  (nonEmpty opts.workflowId).getD s!"{ctx.workflowId}-{seq}"

/-- A provider failure of a child start is one this execution could not observe. -/
def observed (result : Except Error α) : Act δ α := .ofExcept (result.mapError observationError)

/-- `spawn_child`. A provider without the atomic insert takes the two-call path. -/
def spawnChild (seq : Int) (name : String) (input : Value) (opts : WorkflowOptions) : Act δ String := do
  let now ← Act.get .now
  let created ← Act.get .now
  let (row, _) ← Act.ofExcept (ctx.rt.buildRun now created (ctx.childId seq opts) name input
    { opts with workflowId := some (ctx.childId seq opts) } (some ctx.workflowId) (ctx.childAuth opts))
  let reply ← Act.get
    (.call (.insertChildWorkflow row ctx.workflowId seq (opts.dedupPolicy = .returnExisting)))
  match ← observed reply with
  | some (.replayed id) => pure id
  | some (.resolved child _) => pure child.id
  | none =>
    if opts.dedupPolicy = .returnExisting then
      .throw (recoveryError (.ofMessage "provider must implement atomic child deduplication"))
    else
      let reply ← Act.get (.call (.insertWorkflowStatus row))
      let (canonical, _) ← observed reply
      Act.ofExcept (checkChildTarget canonical row)
      let reply ← Act.get (.call (.recordChildWorkflow ctx.workflowId seq name canonical.id))
      observed reply
      pure canonical.id

/-- The rejections of an insert that are outcomes of the call. -/
def durableRejection : Error → Bool
  | .queueDeduplicated _ _ => true
  | .portable info => (Error.portable info).code == .workflowTargetConflict
  | _ => false

/-- A start that finds nothing recorded: it checks its arguments, then the configuration
of this process, then inserts the child and the link in one call. -/
def startFresh (seq : Int) (name : String) (input : Value) (opts : WorkflowOptions) : Act δ String := do
  Act.ofExcept (Runtime.validateChildArguments name opts)
  match ctx.rt.validateChildConfiguration name opts with
  | .error e => interrupt e
  | .ok _ =>
    ctx.guardCancelled
    match ← (ctx.spawnChild seq name input opts).attempt with
    | .ok id => pure id
    | .error e =>
      if e.isStorageFailure then interrupt e
      else if durableRejection e then ctx.recordFailure seq name e none ctx.builtins.strings
      else .throw e

def startWorkflow (seq : Int) (name : String) (input : Value) (opts : WorkflowOptions) : Act δ String := do
  match ← call (.checkChildWorkflow ctx.workflowId seq) with
  | some (child, recorded) =>
    ctx.checkRecorded seq name recorded
    pure child
  | none =>
    match ← call (.getStepResult ctx.workflowId seq) with
    | some step =>
      ctx.checkRecorded seq name step.name
      let _ ← ctx.recordedValue .value step.outcome
      .throw (.unexpectedStep ctx.workflowId seq "child workflow" "ordinary step")
    | none => ctx.startFresh seq name input opts

end Context

/-- A message with its payload as `serde` encodes it. -/
structure SendMessage where
  destinationId : String
  topic : String
  message : Except String Value
  idempotencyKey : Option String

def adjacentDuplicates : List String → List String
  | a :: b :: rest => if a = b then a :: adjacentDuplicates (b :: rest) else adjacentDuplicates (b :: rest)
  | _ => []

def prepareBulk (messages : List SendMessage) : Except Error (List NotificationInsert) :=
  let keys := (messages.filterMap (·.idempotencyKey)).mergeSort (· ≤ ·)
  let duplicates := (adjacentDuplicates keys).dedup
  if duplicates ≠ [] then
    .error (.ofMessage ("send_bulk received duplicate idempotency keys: " ++ ", ".intercalate duplicates))
  else messages.mapM fun m => do
    let message ← serdeResult m.message
    pure ⟨m.destinationId, m.topic, message, m.idempotencyKey⟩

/-- A durable call with its arguments. Values the call writes come as `serde` encodes them,
values it returns with the conversion of their type. -/
inductive Op (δ : Type) where
  | step (name : String) (codec : Codec δ)
  | stepWith (name : String) (maxRetries : Nat) (retryIf : Option (Error → Bool)) (codec : Codec δ)
  | select (branches : Nat) (codec : Codec (Nat × δ))
  | sleep (span : Duration)
  | now
  | uuid
  | random
  | send (destination topic : String) (message : Except String Value)
  | sendBulk (messages : List SendMessage)
  | setWorkflowAttributes (id : String) (attributes : Option Columns)
  | recv (topic : String) (timeout : Duration) (codec : Codec δ)
  | setEvent (key : String) (value : Except String Value)
  | getEvent (target key : String) (timeout : Duration) (codec : Codec δ)
  | writeStream (key : String) (value : Except String Value)
  | closeStream (key : String)
  | startWorkflow (name : String) (input : Except String Value) (opts : WorkflowOptions)

/-- What a call hands to the body. -/
inductive Reply (δ : Type) where
  | unit
  | value (value : δ)
  | winner (index : Nat) (value : δ)
  | instant (instant : DateTime)
  | text (text : String)
  | number (number : Number)
  | message (message : Option δ)
  | child (id : String)
deriving DecidableEq, Repr

abbrev Outcome (δ : Type) := Except Error (Reply δ)

namespace Op

variable {δ : Type}

def name : Op δ → String
  | .step name _ | .stepWith name _ _ _ | .startWorkflow name _ _ => name
  | .select _ _ => "DBOS.select"
  | .sleep _ => "DBOS.sleep"
  | .now => "DBOS.now"
  | .uuid => "DBOS.uuid"
  | .random => "DBOS.random"
  | .send _ _ _ => "DBOS.send"
  | .sendBulk _ => "DBOS.send_bulk"
  | .setWorkflowAttributes _ _ => "DBOS.updateWorkflowAttributes"
  | .recv _ _ _ => "DBOS.recv"
  | .setEvent _ _ => "DBOS.setEvent"
  | .getEvent _ _ _ _ => "DBOS.getEvent"
  | .writeStream _ _ => "DBOS.writeStream"
  | .closeStream _ => "DBOS.closeStream"

def prepare : Op δ → Except Error Unit
  | .select branches _ =>
    if branches = 0 then .error (.ofMessage "select requires at least one branch") else .ok ()
  | .send _ _ value | .setEvent _ value | .writeStream _ value | .startWorkflow _ value _ =>
    (serdeResult value).map fun _ => ()
  | .sendBulk messages => (prepareBulk messages).map fun _ => ()
  | _ => .ok ()

/-- Waits claim a second position for their deadline. -/
def waits : Op δ → Bool
  | .recv _ _ _ | .getEvent _ _ _ _ => true
  | _ => false

def claim (op : Op δ) (seq : Int) : Int := if op.waits then nextSeq (nextSeq seq) else nextSeq seq

def run (ctx : Context) (rounds : Nat) (seq : Int) : Op δ → Act δ (Reply δ)
  | .step name codec => do pure (.value (← ctx.step seq name codec))
  | .stepWith name maxRetries retryIf codec => do
    pure (.value (← ctx.stepWith seq name maxRetries retryIf codec))
  | .select _ codec => do
    let (index, value) ← ctx.select seq codec
    pure (.winner index value)
  | .sleep span => do
    ctx.sleep seq span
    pure .unit
  | .now => do pure (.instant (← ctx.now seq))
  | .uuid => do pure (.text (← ctx.uuid seq))
  | .random => do pure (.number (← ctx.random seq))
  | .send destination topic message => do
    let message ← Act.ofExcept (serdeResult message)
    ctx.send seq destination topic message
    pure .unit
  | .sendBulk messages => do
    let rows ← Act.ofExcept (prepareBulk messages)
    ctx.sendBulk seq rows
    pure .unit
  | .setWorkflowAttributes id attributes => do
    ctx.setWorkflowAttributes seq id attributes
    pure .unit
  | .recv topic timeout codec => do pure (.message (← ctx.recv rounds seq topic timeout codec))
  | .setEvent key value => do
    let value ← Act.ofExcept (serdeResult value)
    ctx.setEvent seq key value
    pure .unit
  | .getEvent target key timeout codec => do
    pure (.message (← ctx.getEvent rounds seq target key timeout codec))
  | .writeStream key value => do
    let value ← Act.ofExcept (serdeResult value)
    ctx.writeStream seq key value
    pure .unit
  | .closeStream key => do
    ctx.closeStream seq key
    pure .unit
  | .startWorkflow name input opts => do
    let input ← Act.ofExcept (serdeResult input)
    pure (.child (← ctx.startWorkflow seq name input opts))

end Op

/-- Strings and numbers as `serde` writes them. Of the instants the epoch has its own text;
the others are counted. -/
def Builtins.epoch : Builtins where
  instants :=
    { toValue := fun t =>
        .ok (if t = 0 then .string "1970-01-01T00:00:00Z" else .array (.bool (t < 0) :: List.replicate t.natAbs .null))
      fromValue := fun
        | .string "1970-01-01T00:00:00Z" => .ok 0
        | .array (.bool negative :: units) => .ok (if negative then -units.length else units.length)
        | _ => .error "input contains invalid characters" }
  strings :=
    { toValue := fun text => .ok (.string text)
      fromValue := fun
        | .string text => .ok text
        | _ => .error "invalid type, expected a string" }
  floats :=
    { toValue := fun n => .ok (.number n)
      fromValue := fun
        | .number n => .ok n
        | _ => .error "invalid type, expected f64" }
  instants_back := by
    intro t
    by_cases zero : t = 0
    · exact ⟨.string "1970-01-01T00:00:00Z", by simp [zero], by simp [zero]⟩
    · refine ⟨.array (.bool (t < 0) :: List.replicate t.natAbs .null), by simp [zero], ?_⟩
      have back : ∀ n : Int, (if decide (n < 0) = true then -(n.natAbs : Int) else n.natAbs) = n := by
        intro n
        simp only [decide_eq_true_eq]
        split <;> omega
      have same := back t
      simpa using same

def Context.plain : Context where
  lib := .reading []
  builtins := .epoch
  rt := { executorId := "e1", appVersion := "v1", workflows := ["job"], queues := [] }
  workflowId := "w"
  auth := {}
  serializer := .json

end Durare

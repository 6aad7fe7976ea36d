import Durare.Provider

/-! How a run of a workflow is built: the caller's options, the checks they pass, and the
row a start inserts. -/
namespace Durare

/-- A non-negative span of nanoseconds. -/
abbrev Duration := Nat

/-- `Duration::MAX`: a span is 64-bit seconds and the nanoseconds of one. -/
def Duration.MAX : Duration := (2 ^ 64 - 1) * 1000000000 + 999999999

def Duration.asMillis (span : Duration) : Int := asI64 (span / 1000000 : Nat)

structure AuthContext where
  authenticatedUser : Option String := none
  assumedRole : Option String := none
  authenticatedRoles : List String := []
deriving DecidableEq, Repr

inductive DeduplicationPolicy where
  | reject
  | returnExisting
deriving DecidableEq, Repr

structure WorkflowOptions where
  workflowId : Option String := none
  dedupId : Option String := none
  dedupPolicy : DeduplicationPolicy := .reject
  appVersion : Option String := none
  queue : Option String := none
  priority : Int := 0
  partitionKey : Option String := none
  timeout : Option Duration := none
  delay : Option Duration := none
  authenticatedUser : Option String := none
  assumedRole : Option String := none
  authenticatedRoles : List String := []
  attributes : Option Columns := none
  configName : Option String := none
  className : Option String := none
deriving DecidableEq, Repr

def WorkflowOptions.validateDeduplication (opts : WorkflowOptions) (queue : Option String) :
    Except Error Unit :=
  if opts.partitionKey.isSome ∧ opts.dedupId.isSome then
    .error (.ofMessage "partition key and deduplication id cannot be used together")
  else if opts.dedupPolicy ≠ .reject ∧ opts.dedupId.isNone then
    .error (.ofMessage "a deduplication policy requires a deduplication id")
  else if opts.dedupPolicy ≠ .reject ∧ (nonEmpty queue).isNone then
    .error (.ofMessage "a deduplication policy requires a queue name")
  else .ok ()

def attributesForRow (opts : WorkflowOptions) : Option Value :=
  (opts.attributes.filter (· ≠ [])).map .object

def INTERNAL_QUEUE : String := "_dbos_internal_queue"

/-- What a process is configured with: the handlers it registered by key, the queues it
knows, and the ones it listens on when that is restricted. -/
structure Runtime where
  executorId : String
  appVersion : String
  workflows : List String
  queues : List String
  listenFilter : Option (List String) := none
  maxRecoveryAttempts : Int := 100
deriving DecidableEq, Repr

def registryKey (name : String) (configName : Option String) : String :=
  match nonEmpty configName with
  | some config => name ++ "/" ++ config
  | none => name

namespace Runtime

def isProducerOnly (rt : Runtime) (queue : String) : Bool :=
  queue != INTERNAL_QUEUE && rt.listenFilter.any fun listen => queue ∉ listen

def validateChildArguments (name : String) (opts : WorkflowOptions) : Except Error Unit := do
  if name = "" then throw (.ofMessage "workflow name is required")
  if opts.queue = some "" then throw (.ofMessage "queue name is required")
  opts.validateDeduplication opts.queue
  if opts.delay.isSome ∧ opts.queue.isNone then
    throw (.ofMessage "WorkflowOptions.delay requires a queue; direct runs start immediately")

def validateChildConfiguration (rt : Runtime) (name : String) (opts : WorkflowOptions) : Except Error Unit :=
  let handled := registryKey name opts.configName ∈ rt.workflows
  match opts.queue with
  | none => if handled then .ok () else .error (.unknownWorkflow name)
  | some queue =>
    if queue ∉ rt.queues then .error (.unknownQueue queue)
    else if handled then .ok ()
    else if (nonEmpty opts.appVersion).isNone then
      .error (.ofMessage
        "remote child requires an explicit nonempty app_version naming its worker version")
    else if opts.appVersion = some rt.appVersion ∧ !rt.isProducerOnly queue then
      .error (.ofMessage
        "same-version remote child queues must be excluded from local dispatch using listen_queues")
    else .ok ()

/-- The row of a new run and whether it waits on a queue. `now` and `created` are the two
clock readings: a queued row is unowned and has no deadline yet. -/
def buildRun (rt : Runtime) (now created : DateTime) (id name : String) (input : Value)
    (opts : WorkflowOptions) (parent : Option String) (auth : AuthContext) :
    Except Error (WorkflowStatus × Bool) := do
  opts.validateDeduplication opts.queue
  let queued := opts.queue.isSome
  if opts.queue.any (· ∉ rt.queues) then throw (.unknownQueue (opts.queue.getD ""))
  if opts.delay.isSome ∧ !queued then
    throw (.ofMessage "WorkflowOptions.delay requires a queue; direct runs start immediately")
  let status := if !queued then Status.pending else if opts.delay.isNone then .enqueued else .delayed
  let timeoutMs := opts.timeout.map Duration.asMillis
  let createdMs := created.timestampMillis
  pure
    ({ WorkflowStatus.new created id name input status (if queued then "" else rt.executorId)
        (opts.appVersion.getD rt.appVersion) with
      queueName := opts.queue
      priority := opts.priority
      queuePartitionKey := opts.partitionKey
      dedupId := opts.dedupId
      parentWorkflowId := parent
      authenticatedUser := auth.authenticatedUser
      assumedRole := auth.assumedRole
      authenticatedRoles := auth.authenticatedRoles
      className := opts.className
      configName := opts.configName
      attributes := attributesForRow opts
      timeoutMs := timeoutMs
      delayUntilMs := opts.delay.map fun d => asI64 (now.timestampMillis + d.asMillis)
      startedAtMs := if queued then none else some createdMs
      deadlineMs := if queued then none else timeoutMs.map fun t => asI64 (createdMs + t) }, queued)

/-- A row just built has never been recovered, and it is PENDING exactly when it runs now. -/
theorem buildRun_fresh {rt : Runtime} {now created : DateTime} {id name : String} {input : Value}
    {opts : WorkflowOptions} {parent : Option String} {auth : AuthContext} {row : WorkflowStatus}
    {queued : Bool} (built : rt.buildRun now created id name input opts parent auth = .ok (row, queued)) :
    row.id = id ∧ row.recoveryAttempts = 0 ∧ row.queueName.isSome = queued ∧
      row.status = if queued then (if opts.delay.isNone then .enqueued else .delayed) else .pending := by
  simp only [buildRun, bind, Except.bind, pure, Except.pure] at built
  split at built
  · cases built
  split at built
  · cases built
  split at built
  · cases built
  cases built
  refine ⟨rfl, rfl, rfl, ?_⟩
  cases opts.queue <;> simp [WorkflowStatus.new]

/-- A child whose arguments and configuration were checked is always built. -/
theorem buildRun_checked {rt : Runtime} {now created : DateTime} {id name : String} {input : Value}
    {opts : WorkflowOptions} {given parent : Option String} {auth : AuthContext}
    (arguments : validateChildArguments name opts = .ok ())
    (configured : rt.validateChildConfiguration name opts = .ok ()) :
    ∃ row, rt.buildRun now created id name input { opts with workflowId := given } parent auth =
      .ok (row, opts.queue.isSome) ∧ row.name = name := by
  simp only [validateChildArguments, bind, Except.bind] at arguments
  split at arguments
  · cases arguments
  split at arguments
  · cases arguments
  split at arguments
  · cases arguments
  next deduplication =>
  have undelayed : ¬ (opts.delay.isSome = true ∧ opts.queue.isNone = true) := by
    intro delayed
    simp [delayed] at arguments
  have known : opts.queue.any (· ∉ rt.queues) = false := by
    cases queue : opts.queue with
    | none => rfl
    | some queue' =>
      simp only [validateChildConfiguration, queue] at configured
      split at configured
      · cases configured
      next member => simpa using member
  have checked : WorkflowOptions.validateDeduplication { opts with workflowId := given } opts.queue = .ok () :=
    deduplication
  have direct : ¬ (opts.delay.isSome = true ∧ (!opts.queue.isSome) = true) := by
    simpa [Option.isNone_iff_eq_none, Option.not_isSome] using undelayed
  simp only [buildRun, bind, Except.bind, pure, Except.pure, checked, known, direct, if_false]
  exact ⟨_, rfl, rfl⟩

end Runtime

end Durare

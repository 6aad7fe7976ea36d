import Durare.Runs
import Durare.Sqlite
import Durare.Starts
import Durare.Successor

/-! Cron schedules: the firing loops, the reconciler that installs them with a backfill, and the
manual backfills, any number of each on one store of workflows, in any order of steps. -/
namespace Durare

/-- What the loops use of a persisted schedule. -/
structure WorkflowSchedule where
  scheduleName : String
  workflowName : String
  schedule : String
  context : Option Value := none
  lastFiredAt : Option DateTime := none
  automaticBackfill : Bool := false
  cronTimezone : Option String := none
  queueName : Option String := none
deriving DecidableEq, Repr

/-- The libraries for cron specs and clock texts: a spec that parses gives for each timezone
the next instant after another one; `serialized` is the form of an instant inside a value. -/
structure Cron where
  parse : String → Option (Option String → DateTime → Option DateTime)
  toRfc3339 : DateTime → String
  serialized : DateTime → String

/-- Where workflow rows are stored: an insert finds the row of the id or creates it, and leaves
the others. -/
structure RowStore (σ : Type) where
  insert : WorkflowStatus → σ → Except Error (WorkflowStatus × Bool) × σ
  stored : σ → String → Bool
  creates : ∀ row s canonical, (insert row s).1 = .ok (canonical, true) →
    stored s row.id = false ∧ stored (insert row s).2 row.id = true
  finds : ∀ row s canonical, (insert row s).1 = .ok (canonical, false) → stored s row.id = true
  keeps : ∀ row s id, stored s id = true → stored (insert row s).2 id = true

def Memory.rowStore : RowStore Memory.Inner where
  insert := Memory.insertWorkflowStatus
  stored s id := (s.workflows.get id).isSome
  creates row s canonical created := by
    unfold Memory.insertWorkflowStatus at created ⊢
    split at created
    · cases created
    · split at created
      · cases created
      · next vacant => simp [vacant, Memory.Inner.putRow]
  finds row s canonical found := by
    unfold Memory.insertWorkflowStatus at found
    split at found
    · cases found
    · split at found
      · next present => simp [present]
      · cases found
  keeps row s id present := by
    unfold Memory.insertWorkflowStatus
    split
    · exact present
    · split
      · exact present
      · by_cases same : id = row.id <;> simp [Memory.Inner.putRow, same, present]

def Sqlite.rowStore (lib : SerdeJson) (serializer : Serializer) (now : DateTime) : RowStore Sqlite.Db where
  insert := Sqlite.insertWorkflowStatus lib serializer now
  stored db id := (db.workflowStatus.get id).isSome
  creates row db canonical created := by
    unfold Sqlite.insertWorkflowStatus Sqlite.insertStatusOn at created ⊢
    cases encoded : encodeInput lib serializer row.input with
    | error e => simp [encoded] at created
    | ok inputs =>
      cases present : db.workflowStatus.get row.id with
      | some r => simp [encoded, present] at created
      | none =>
        by_cases taken : slotTaken row db = true
        · simp [encoded, present, taken] at created
        · simp [taken]
  finds row db canonical found := by
    unfold Sqlite.insertWorkflowStatus Sqlite.insertStatusOn at found
    cases encoded : encodeInput lib serializer row.input with
    | error e => simp [encoded] at found
    | ok inputs =>
      cases present : db.workflowStatus.get row.id with
      | some r => rfl
      | none => by_cases taken : slotTaken row db = true <;> simp [encoded, present, taken] at found
  keeps row db id present := by
    unfold Sqlite.insertWorkflowStatus Sqlite.insertStatusOn
    cases encodeInput lib serializer row.input with
    | error e => exact present
    | ok inputs =>
      cases vacant : db.workflowStatus.get row.id with
      | some r => exact present
      | none =>
        by_cases taken : slotTaken row db = true
        · simp [taken, present]
        · by_cases same : id = row.id <;> simp [taken, same, present]

namespace Scheduler

def tickId (cron : Cron) (name : String) (instant : DateTime) : String :=
  "sched-" ++ name ++ "-" ++ cron.toRfc3339 instant

def tickInput (cron : Cron) (schedule : WorkflowSchedule) (instant : DateTime) : Value :=
  .object (("scheduled_time", .string (cron.serialized instant)) ::
    match schedule.context with
    | some context => [("context", context)]
    | none => [])

inductive Origin where
  | automatic
  | manual
  | client
deriving DecidableEq, Repr

/-- The canonical row of a persisted tick, whether it is queued and whether this call created it. -/
structure Tick where
  canonical : WorkflowStatus
  queued : Bool
  created : Bool
deriving DecidableEq, Repr

/-- The row a client enqueues: a direct schedule's tick goes to the internal queue. -/
def clientRow (cron : Cron) (rt : Runtime) (now : DateTime) (schedule : WorkflowSchedule) (instant : DateTime) :
    WorkflowStatus :=
  { WorkflowStatus.new now (tickId cron schedule.scheduleName instant) schedule.workflowName
      (tickInput cron schedule instant) .enqueued "" rt.appVersion with
    queueName := some (schedule.queueName.getD INTERNAL_QUEUE) }

/-- `check_target`, of options that name neither a class nor a configuration. -/
def isTarget (row : WorkflowStatus) (name : String) : Bool :=
  row.name == name && (nonEmpty row.className).isNone && (nonEmpty row.configName).isNone

/-- The row a tick inserts, and whether it is queued. -/
def tickRow (cron : Cron) (origin : Origin) (rt : Runtime) (now : DateTime) (schedule : WorkflowSchedule)
    (instant : DateTime) :
    Except Error (WorkflowStatus × Bool) :=
  match origin with
  | .client => .ok (clientRow cron rt now schedule instant, true)
  | _ =>
    rt.buildRun now now (tickId cron schedule.scheduleName instant) schedule.workflowName (tickInput cron schedule instant)
      { workflowId := some (tickId cron schedule.scheduleName instant), queue := schedule.queueName } none {}

/-- What becomes of a call: its reply arrives, it fails before it has done anything, or the reply is lost. -/
inductive Reply where
  | delivered
  | failed (e : Error)
  | lost (e : Error)
deriving DecidableEq, Repr

/-- `persist_scheduled_tick`, and the client's way to do it. Besides the reply and the store it
tells whether the call created the row. -/
def persist {σ : Type} (store : RowStore σ) (cron : Cron) (origin : Origin) (rt : Runtime) (now : DateTime)
    (schedule : WorkflowSchedule) (instant : DateTime) (reply : Reply) (s : σ) : Except Error Tick × σ × Bool :=
  match reply, tickRow cron origin rt now schedule instant with
  | .failed e, _ => (.error e, s, false)
  | _, .error e => (.error e, s, false)
  | reply, .ok (row, queued) =>
    match store.insert row s with
    | (.error e, s') => (.error e, s', false)
    | (.ok (canonical, created), s') =>
      match reply with
      | .lost e => (.error e, s', created)
      | _ =>
        if origin = .client ∧ !isTarget canonical schedule.workflowName then
          (.error (.workflowTargetConflict canonical.id), s', created)
        else (.ok ⟨canonical, queued, created⟩, s', created)

/-- `launch_scheduled_tick` starts the handler. -/
def launches (rt : Runtime) (schedule : WorkflowSchedule) (tick : Tick) : Bool :=
  !(tick.queued || !tick.created || tick.canonical.status.isTerminal) && rt.workflows.contains schedule.workflowName

inductive Control where
  | listed
  | ranging (origin : Origin) (start stop : DateTime)
  | filling (origin : Origin) (todo : List DateTime)
  | filled (origin : Origin) (instant : DateTime) (tick : Tick) (todo : List DateTime)
  | top
  | sleeping (next : DateTime)
  | persisting (next : DateTime)
  | launching (next : DateTime) (tick : Tick)
  | stamping (next : DateTime)
  | returned
deriving DecidableEq, Repr

/-- One installation of a schedule, or one backfill. The last two are no values of the program: the
time of an installation that had a cursor to catch up from, and the instant the loop has come to,
this time at first and then the one just after the tick last fired. -/
structure Agent where
  rt : Runtime
  schedule : WorkflowSchedule
  control : Control
  installed : Option DateTime := none
  mark : Option DateTime := none
deriving DecidableEq, Repr

/-- The store, the cursors of the schedules, and logs of the ticks created, launched and fired. -/
structure State (σ : Type) where
  store : σ
  lastFired : String → Option DateTime
  created : List (String × DateTime)
  launched : List (String × DateTime)
  fired : List (String × DateTime)
  agents : List Agent

/-- What one step meets: the clock, how long it may compute, whether a sleep ran its time, whether
the loop was told to stop, and the fate of its call. -/
structure Input where
  clock : DateTime := 0
  fuel : Nat := 0
  slept : Bool := true
  stopped : Bool := false
  reply : Reply := .delivered
deriving DecidableEq, Repr

/-- A backfill is over: the reconciler goes on to install the loop. -/
def leave : Origin → Control
  | .automatic => .top
  | _ => .returned

variable {σ : Type} (store : RowStore σ) (cron : Cron)

def attempt (origin : Origin) (input : Input) (agent : Agent) (instant : DateTime) (s : State σ) :
    Except Error Tick × State σ :=
  let (answer, rows, created) :=
    persist store cron origin agent.rt input.clock agent.schedule instant input.reply s.store
  (answer, { s with
    store := rows
    created := if created then s.created ++ [(agent.schedule.scheduleName, instant)] else s.created })

def launch (agent : Agent) (instant : DateTime) (tick : Tick) (s : State σ) : State σ :=
  if launches agent.rt agent.schedule tick then
    { s with launched := s.launched ++ [(agent.schedule.scheduleName, instant)] }
  else s

def stamp (reply : Reply) (agent : Agent) (instant : DateTime) (s : State σ) : State σ :=
  match reply with
  | .failed _ => s
  | _ =>
    { s with
      lastFired := Function.update s.lastFired agent.schedule.scheduleName
        (DateTime.fromTimestampMillis instant.timestampMillis) }

def fire (agent : Agent) (instant : DateTime) (s : State σ) : State σ :=
  { s with fired := s.fired ++ [(agent.schedule.scheduleName, instant)] }

def advance (input : Input) (agent : Agent) (s : State σ) : Agent × State σ :=
  match agent.control with
  | .listed =>
    match agent.schedule.automaticBackfill, agent.schedule.lastFiredAt with
    | true, some last =>
      -- One second after the tick fired last.
      let start := last + 1000000000
      let control := if start < input.clock then .ranging .automatic start input.clock else .top
      ({ agent with control := control, installed := some input.clock, mark := some input.clock }, s)
    | _, _ => ({ agent with control := .top }, s)
  | .ranging origin start stop =>
    match cron.parse agent.schedule.schedule with
    | none => ({ agent with control := leave origin }, s)
    | some next =>
      match Successor.between (next agent.schedule.cronTimezone) input.fuel start stop with
      | none => (agent, s)
      | some ticks => ({ agent with control := .filling origin ticks }, s)
  | .filling origin [] => ({ agent with control := leave origin }, s)
  | .filling origin (instant :: todo) =>
    match attempt store cron origin input agent instant s with
    | (.ok tick, s) => ({ agent with control := .filled origin instant tick todo }, s)
    | (.error _, s) => ({ agent with control := leave origin }, s)
  | .filled origin instant tick todo => ({ agent with control := .filling origin todo }, launch agent instant tick s)
  | .top =>
    if input.stopped then ({ agent with control := .returned }, s)
    else
      match cron.parse agent.schedule.schedule with
      | none => ({ agent with control := .returned }, s)
      | some next =>
        match next agent.schedule.cronTimezone input.clock with
        | none => ({ agent with control := .returned }, s)
        | some instant => ({ agent with control := .sleeping instant }, s)
  | .sleeping instant => ({ agent with control := if input.slept then .persisting instant else .returned }, s)
  | .persisting instant =>
    match attempt store cron .automatic input agent instant (fire agent instant s) with
    | (.ok tick, s) => ({ agent with control := .launching instant tick }, s)
    | (.error _, s) => ({ agent with control := .stamping instant }, s)
  | .launching instant tick => ({ agent with control := .stamping instant }, launch agent instant tick s)
  | .stamping instant => ({ agent with control := .top, mark := some (instant + 1) }, stamp input.reply agent instant s)
  | .returned => (agent, s)

inductive Event (σ : Type) where
  | outside (rows : σ)
  | recreate (name : String)
  | reconcile (rt : Runtime) (schedule : WorkflowSchedule)
  | backfill (rt : Runtime) (schedule : WorkflowSchedule) (client : Bool) (start stop : DateTime)
  | tick (i : Nat) (input : Input)
  | crash (i : Nat)

/-- A reconciler takes up a schedule as it is listed, others use the store, a schedule is created
anew, an agent takes a step or is gone. -/
def next (s : State σ) : Event σ → State σ
  | .outside rows => { s with store := rows }
  | .recreate name => { s with lastFired := Function.update s.lastFired name none }
  | .reconcile rt schedule =>
    { s with agents := s.agents ++
      [{ rt := rt, schedule := { schedule with lastFiredAt := s.lastFired schedule.scheduleName }, control := .listed }] }
  | .backfill rt schedule client start stop =>
    { s with agents := s.agents ++
      [{ rt := rt, schedule := schedule, control := .ranging (if client then .client else .manual) start stop }] }
  | .tick i input =>
    match s.agents[i]? with
    | none => s
    | some agent =>
      let (agent, s) := advance store cron input agent s
      { s with agents := s.agents.set i agent }
  | .crash i => { s with agents := s.agents.eraseIdx i }

/-- No workflow is deleted. -/
def Allowed (s : State σ) : Event σ → Prop
  | .outside rows => ∀ id, store.stored s.store id = true → store.stored rows id = true
  | _ => True

def start (rows : σ) (lastFired : String → Option DateTime) : State σ := ⟨rows, lastFired, [], [], [], []⟩

abbrev run (events : List (Event σ)) (s : State σ) : State σ := Runs.run (next store cron) events s

end Scheduler

end Durare

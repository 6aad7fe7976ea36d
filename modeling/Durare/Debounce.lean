import Durare.Context
import Durare.Runs
import Durare.Scheduler

/-! Debouncing: the workflow that collects pushed-back inputs, and the producers that start it or
push to it, any number of each. -/
namespace Durare.Debounce

/-- Registered name of the internal debouncer workflow. -/
def DEBOUNCER_WF : String := "_dbos_debouncer"

/-- The options carried to the collector for the target. -/
structure TargetOptions where
  queue : Option String := none
  priority : Int := 0
  partitionKey : Option String := none
  appVersion : Option String := none
  timeoutMs : Option Int := none
  authenticatedUser : Option String := none
  assumedRole : Option String := none
  authenticatedRoles : List String := []
deriving DecidableEq, Repr

namespace TargetOptions

def fromOptions (o : WorkflowOptions) : TargetOptions where
  queue := o.queue
  priority := o.priority
  partitionKey := o.partitionKey
  appVersion := o.appVersion
  timeoutMs := o.timeout.map Duration.asMillis
  authenticatedUser := o.authenticatedUser
  assumedRole := o.assumedRole
  authenticatedRoles := o.authenticatedRoles

/-- The milliseconds come back as an unsigned number. -/
def intoOptions (o : TargetOptions) (targetId : String) : WorkflowOptions where
  workflowId := some targetId
  queue := o.queue
  priority := o.priority
  partitionKey := o.partitionKey
  appVersion := o.appVersion
  timeout := o.timeoutMs.map fun ms => (ms % 2 ^ 64).toNat * 1000000
  authenticatedUser := o.authenticatedUser
  assumedRole := o.assumedRole
  authenticatedRoles := o.authenticatedRoles

end TargetOptions

structure DebouncerInput where
  targetName : String
  targetId : String
  delayMs : Int
  timeoutMs : Int
  initialInput : Value
  targetOpts : TargetOptions
deriving DecidableEq, Repr

structure DebounceMessage where
  input : Value
  delayMs : Int
  id : String
deriving DecidableEq, Repr

/-- A debouncer: the target it runs, how far calls may push it back, and its options. -/
structure Debouncer where
  target : String
  timeout : Duration := 0
  options : WorkflowOptions := {}
deriving DecidableEq, Repr

structure Ask where
  debouncer : Debouncer
  key : String
  delay : Duration
  input : Value
deriving DecidableEq, Repr

def Ask.debouncerInput (ask : Ask) (targetId : String) : DebouncerInput where
  targetName := ask.debouncer.target
  targetId := targetId
  delayMs := ask.delay.asMillis
  timeoutMs := ask.debouncer.timeout.asMillis
  initialInput := ask.input
  targetOpts := .fromOptions ask.debouncer.options

def Ask.message (ask : Ask) (id : String) : DebounceMessage where
  input := ask.input
  delayMs := ask.delay.asMillis
  id := id

/-- A message in a mailbox. The call it came from is kept beside it. -/
structure Letter where
  message : DebounceMessage
  ask : Ask
deriving DecidableEq, Repr

structure Locals where
  start : Int
  current : Value
  target : Int
deriving DecidableEq, Repr

inductive Control where
  | starting
  | top (l : Locals)
  | receiving (l : Locals) (now : Int)
  | acking (l : Locals) (id : String)
  | launching (l : Locals)
  | returned (l : Locals)
deriving DecidableEq, Repr

inductive Outcome where
  | time (ms : Int)
  | received (letter : Option Letter)
  | acked
  | started
deriving DecidableEq, Repr

inductive Call where
  | time (name : String)
  | recv (span : Duration)
  | setEvent (key : String)
  | startWorkflow (name : String) (input : Value) (opts : WorkflowOptions)
  | finish
deriving DecidableEq, Repr

section Body

variable (input : DebouncerInput)

def cap (start t : Int) : Int :=
  let max := asI64 (start + input.timeoutMs)
  if 0 < input.timeoutMs ∧ max < t then max else t

def remaining (l : Locals) (now : Int) : Int := asI64 (l.target - now)

def call : Control → Call
  | .starting => .time "DBOS.debounce.startTime"
  | .top _ => .time "DBOS.debounce.loopTime"
  | .receiving l now => .recv ((remaining l now).toNat * 1000000)
  | .acking _ id => .setEvent id
  | .launching l => .startWorkflow input.targetName l.current (input.targetOpts.intoOptions input.targetId)
  | .returned _ => .finish

/-- How `internal_debouncer` goes on from a call that returned. -/
def resume : Control → Outcome → Control
  | .starting, .time start => .top ⟨start, input.initialInput, cap input start (asI64 (start + input.delayMs))⟩
  | .top l, .time now => if remaining l now ≤ 0 then .launching l else .receiving l now
  | .receiving l _, .received none => .launching l
  | .receiving l now, .received (some ⟨message, _⟩) =>
    let l := { l with current := message.input, target := cap input l.start (asI64 (now + message.delayMs)) }
    if message.id = "" then .top l else .acking l message.id
  | .acking l _, .acked => .top l
  | .launching l, .started => .returned l
  | control, _ => control

end Body

/-- What stands at a position of the history, and when it was recorded. -/
structure Entry where
  outcome : Outcome
  recordedAt : DateTime
deriving DecidableEq, Repr

/-- Where a durable call stands that nothing is recorded for yet. -/
inductive Stage where
  | begun
  | read (clock : DateTime)
  | missed
  | wakes (clock : DateTime)
  | timed (deadline : DateTime)
  | due
  | upserted
deriving DecidableEq, Repr

/-- A running body: the point it has come to and how much of the history it has behind it. -/
structure Execution where
  control : Control := .starting
  seen : Nat := 0
  stage : Stage := .begun
deriving DecidableEq, Repr

structure Launch where
  name : String
  input : Value
  opts : WorkflowOptions
  launchedAt : DateTime
deriving DecidableEq, Repr

/-- A run of the internal debouncer workflow. The call that enqueued it is kept beside it. -/
structure Collector where
  ask : Ask
  input : DebouncerInput
  status : Status := .enqueued
  recoveryAttempts : Int := 0
  history : List Entry := []
  deadline : Option DateTime := none
  mail : List Letter := []
  events : List String := []
  launches : List Launch := []
  execution : Option Execution := none
deriving DecidableEq, Repr

namespace Collector

/-- A durable call returns, and the body goes on. -/
def record (c : Collector) (e : Execution) (entry : Entry) : Collector :=
  { c with
    history := c.history ++ [entry]
    deadline := none
    execution := some { control := resume c.input e.control entry.outcome, seen := e.seen + 1 } }

/-- One step of an execution: it is served what is recorded, and works where nothing is. -/
def advance (now : DateTime) (c : Collector) (e : Execution) : Collector :=
  match c.history[e.seen]? with
  | some entry =>
    { c with execution := some { control := resume c.input e.control entry.outcome, seen := e.seen + 1 } }
  | none =>
    match call c.input e.control, e.stage with
    | .time _, .begun => { c with execution := some { e with stage := .read now } }
    | .time _, .read clock => c.record e ⟨.time clock.timestampMillis, now⟩
    | .recv _, .begun =>
      match c.mail with
      | letter :: mail =>
        { c with mail := mail }.record e ⟨.received (some letter), now⟩
      | [] => { c with execution := some { e with stage := .missed } }
    | .recv _, .missed =>
      match c.deadline with
      | some deadline => { c with execution := some { e with stage := .timed deadline } }
      | none => { c with execution := some { e with stage := .wakes now } }
    | .recv span, .wakes clock =>
      -- A sum past the last instant panics.
      if Context.MAX_INSTANT < clock + span then { c with execution := none }
      else { c with deadline := some (clock + span), execution := some { e with stage := .timed (clock + span) } }
    | .recv _, .timed deadline => { c with execution := some { e with stage := if deadline ≤ now then .due else .begun } }
    | .recv _, .due => c.record e ⟨.received none, now⟩
    | .setEvent key, .begun => { c with events := c.events ++ [key], execution := some { e with stage := .upserted } }
    | .setEvent _, .upserted => c.record e ⟨.acked, now⟩
    | .startWorkflow name input opts, _ =>
      let launch : Launch := ⟨name, input, opts, now⟩
      { c with launches := c.launches ++ [launch] }.record e ⟨.started, now⟩
    | .finish, _ => { c with status := .success, execution := none }
    | _, _ => c

def dispatch (c : Collector) : Collector :=
  if c.status = .enqueued then { c with status := .pending, execution := some {} } else c

def crash (c : Collector) : Collector := { c with execution := none }

/-- The recovery of a collector whose execution is gone: back on its queue, or parked. -/
def recover (maxAttempts : Int) (c : Collector) : Collector :=
  if c.status = .pending ∧ c.execution = none then
    { c with
      recoveryAttempts := c.recoveryAttempts + 1
      status := if maxAttempts < c.recoveryAttempts + 1 then .maxRecoveryAttemptsExceeded else .enqueued }
  else c

end Collector

/-- Where a `debounce` call stands. Collectors are named by their place. -/
inductive Standing where
  | enqueuing
  | looking
  | reading (existing : Nat)
  | sending (existing : Nat) (targetId : String)
  | awaiting (existing : Nat) (targetId messageId : String)
  | answered (result : Except Error String)
deriving DecidableEq, Repr

structure Producer where
  ask : Ask
  standing : Standing := .enqueuing
deriving DecidableEq, Repr

structure State where
  clock : DateTime
  drawn : Nat := 0
  collectors : List Collector := []
  producers : List Producer := []

/-- The collector that holds the deduplication slot of the key on the internal queue. -/
def State.holder (s : State) (key : String) : Option Nat :=
  s.collectors.findIdx? fun c => c.ask.key == key && !c.status.isTerminal

section Machine

-- The ids that `Uuid::new_v4` draws, one after another.
variable (uuid : Nat → String)

/-- One step of `run_debounce`: what its next provider call does. -/
def produce (reply : Scheduler.Reply) (expired : Bool) (p : Producer) (s : State) : Producer × State :=
  match p.standing with
  | .enqueuing =>
    let targetId := uuid s.drawn
    let s := { s with drawn := s.drawn + 1 }
    match reply, s.holder p.ask.key with
    | .failed e, _ => ({ p with standing := .answered (.error e) }, s)
    | .lost e, some _ => ({ p with standing := .answered (.error e) }, s)
    | .delivered, some _ => ({ p with standing := .looking }, s)
    | reply, none =>
      let result := match reply with
        | .lost e => .error e
        | _ => .ok targetId
      ({ p with standing := .answered result },
        { s with collectors := s.collectors ++ [{ ask := p.ask, input := p.ask.debouncerInput targetId }] })
  | .looking =>
    match reply, s.holder p.ask.key with
    | .failed e, _ | .lost e, _ => ({ p with standing := .answered (.error e) }, s)
    | .delivered, none => ({ p with standing := .enqueuing }, s)
    | .delivered, some existing => ({ p with standing := .reading existing }, s)
  | .reading existing =>
    match reply, s.collectors[existing]? with
    | .failed e, _ | .lost e, _ => ({ p with standing := .answered (.error e) }, s)
    | .delivered, none => ({ p with standing := .enqueuing }, s)
    | .delivered, some c => ({ p with standing := .sending existing c.input.targetId }, s)
  | .sending existing targetId =>
    let messageId := uuid s.drawn
    let s := { s with drawn := s.drawn + 1 }
    let delivered := { s with collectors := s.collectors.modify existing fun c =>
      { c with mail := c.mail ++ [⟨p.ask.message messageId, p.ask⟩] } }
    match reply with
    | .failed e => ({ p with standing := .answered (.error e) }, s)
    | .lost e => ({ p with standing := .answered (.error e) }, delivered)
    | .delivered => ({ p with standing := .awaiting existing targetId messageId }, delivered)
  | .awaiting existing targetId messageId =>
    match reply with
    | .failed e | .lost e => ({ p with standing := .answered (.error e) }, s)
    | .delivered =>
      if (s.collectors[existing]?).any fun c => messageId ∈ c.events then
        ({ p with standing := .answered (.ok targetId) }, s)
      else if expired then ({ p with standing := .enqueuing }, s)
      else (p, s)
  | .answered _ => (p, s)

inductive Event where
  | pass (span : Duration)
  | ask (ask : Ask)
  | produce (i : Nat) (reply : Scheduler.Reply) (expired : Bool)
  | dispatch (i : Nat)
  | advance (i : Nat)
  | crash (i : Nat)
  | recover (i : Nat) (maxAttempts : Int)
deriving DecidableEq, Repr

def next (s : State) : Event → State
  | .pass span => if s.clock + span ≤ Context.MAX_INSTANT then { s with clock := s.clock + span } else s
  | .ask ask => { s with producers := s.producers ++ [{ ask := ask }] }
  | .produce i reply expired =>
    match s.producers[i]? with
    | none => s
    | some p =>
      let (p, s) := produce uuid reply expired p s
      { s with producers := s.producers.set i p }
  | .dispatch i => { s with collectors := s.collectors.modify i Collector.dispatch }
  | .advance i => { s with collectors := s.collectors.modify i fun c =>
      match c.execution with
      | none => c
      | some e => c.advance s.clock e }
  | .crash i => { s with collectors := s.collectors.modify i Collector.crash }
  | .recover i maxAttempts => { s with collectors := s.collectors.modify i (Collector.recover maxAttempts) }

def start (clock : DateTime) : State := { clock := clock }

abbrev run (events : List Event) (s : State) : State := Runs.run (next uuid) events s

end Machine

end Durare.Debounce

import Durare.Checkpoints
import Durare.Debounce
import Durare.Enqueue
import Durare.Postgres
import Durare.Release

/-! Spans given as timeouts and delays become 64-bit milliseconds, which are added to a clock reading where the
wait begins. Both the cast and the addition wrap. -/
namespace Durare.Deadlines

def I64_MAX : Int := 2 ^ 63 - 1

def dueAt (reading : Int) (span : Duration) : Int := min (reading * 1000000 + (span : Nat)) (I64_MAX * 1000000)

/-- What is stored for it: the sum without overflow, and no earlier instant. -/
structure OnTime (reading : Int) (span : Duration) (stored : Int) : Prop where
  sum : stored = reading + span.asMillis
  late : dueAt reading span ≤ stored * 1000000

/-- The span is in whole milliseconds and the sum can be stored, or the sum is the last instant that can, up to what
both operations wrap away. -/
def Fits (reading : Int) (span : Duration) : Prop :=
  span % 1000000 = 0 ∧ (span / 1000000 : Nat) ≤ I64_MAX ∧ reading + (span / 1000000 : Nat) ≤ I64_MAX ∨
    0 ≤ reading ∧ (reading + (span / 1000000 : Nat) - I64_MAX) % 2 ^ 64 = 0

def IsI64 (n : Int) : Prop := -2 ^ 63 ≤ n ∧ n ≤ I64_MAX

theorem asI64_isI64 (n : Int) : IsI64 (asI64 n) := by
  have range := asI64_range n
  unfold IsI64 I64_MAX
  omega

/-- A wrapped number differs from it by a multiple of the range. -/
theorem asI64_wraps (n : Int) : ∃ k : Int, n = asI64 n + 2 ^ 64 * k := by
  refine ⟨Int.bdiv n (2 ^ 64), ?_⟩
  exact (Int.bmod_add_bdiv n (2 ^ 64)).symm

theorem asI64_self {n : Int} (range : IsI64 n) : asI64 n = n := by
  obtain ⟨low, high⟩ := range
  unfold I64_MAX at high
  exact asI64_of_fits low (by omega)

/-- The sum of a reading and `n` nanoseconds, cast to `t` milliseconds and added up to `due`. -/
theorem sum_iff {reading t due k j : Int} {n : Nat} (range : IsI64 reading) (narrow : IsI64 t) (stored : IsI64 due)
    (cast : ((n / 1000000 : Nat) : Int) = t + 2 ^ 64 * k) (added : reading + t = due + 2 ^ 64 * j) :
    (due = reading + t ∧ min (reading * 1000000 + n) (I64_MAX * 1000000) ≤ due * 1000000) ↔
      (n % 1000000 = 0 ∧ (n / 1000000 : Nat) ≤ I64_MAX ∧ reading + (n / 1000000 : Nat) ≤ I64_MAX ∨
        0 ≤ reading ∧ (reading + (n / 1000000 : Nat) - I64_MAX) % 2 ^ 64 = 0) := by
  unfold IsI64 I64_MAX at *
  rw [min_le_iff]
  constructor
  · rintro ⟨sum, late⟩
    omega
  · intro fits
    omega

theorem onTime_iff {reading : Int} (range : IsI64 reading) (span : Duration) :
    OnTime reading span (asI64 (reading + span.asMillis)) ↔ Fits reading span := by
  obtain ⟨k, cast⟩ := asI64_wraps (span / 1000000 : Nat)
  obtain ⟨j, added⟩ := asI64_wraps (reading + span.asMillis)
  have sum := sum_iff range (asI64_isI64 (span / 1000000 : Nat)) (asI64_isI64 (reading + span.asMillis)) cast added
  exact ⟨fun timely => sum.mp ⟨timely.sum, timely.late⟩, fun fits => ⟨(sum.mpr fits).1, (sum.mpr fits).2⟩⟩

/-- A sum on time is no earlier than the reading. -/
theorem OnTime.nonneg {reading due : Int} {span : Duration} (range : IsI64 reading) (timely : OnTime reading span due) :
    0 ≤ span.asMillis := by
  have late := timely.late
  have sum := timely.sum
  unfold dueAt at late
  rw [min_le_iff] at late
  have high := range.2
  omega

section Places

open Debounce (DebouncerInput Locals TargetOptions cap resume)
open Memory (Inner)

/-- The wait of `run_to_completion` for a deadline. -/
def remainingMs (deadline now : Int) : Int := max (asI64 (deadline - now)) 0

/-- The timeout and the deadline of a run that starts at the reading: an execution that begins then or later waits
until the span is over. -/
structure TimesOut (reading : Int) (span : Duration) (timeoutMs deadlineMs : Option Int) : Prop where
  timeout : ∃ t, timeoutMs = some t ∧ 0 ≤ t
  deadline : ∃ due, deadlineMs = some due ∧ OnTime reading span due ∧
    ∀ now, reading ≤ now → dueAt reading span ≤ (now + remainingMs due now) * 1000000

inductive Asks (span : Duration) : WorkflowOptions → Prop
  | given {opts : WorkflowOptions} (asked : opts.timeout = some span) : Asks span opts
  | debounced {opts : WorkflowOptions} (asked : opts.timeout = some span) (targetId : String) :
    Asks span ((TargetOptions.fromOptions opts).intoOptions targetId)

inductive Queued (span : Duration) : WorkflowStatus → Prop
  | engine {rt : Runtime} {now created : DateTime} {id name : String} {input : Value} {opts : WorkflowOptions}
    {parent : Option String} {auth : AuthContext} {row : WorkflowStatus} (asks : Asks span opts)
    (built : rt.buildRun now created id name input opts parent auth = .ok (row, true)) : Queued span row
  | client (client : Enqueue.Client) (now : DateTime) (queue id name : String) (input : Value) {opts : WorkflowOptions}
    (asked : opts.timeout = some span) : Queued span (client.row now queue id name input opts)

inductive Delayed (now : DateTime) (span : Duration) : WorkflowStatus → Prop
  | engine {rt : Runtime} {created : DateTime} {id name : String} {input : Value} {opts : WorkflowOptions}
    {parent : Option String} {auth : AuthContext} {row : WorkflowStatus} {queued : Bool}
    (asked : opts.delay = some span)
    (built : rt.buildRun now created id name input opts parent auth = .ok (row, queued)) : Delayed now span row
  | client (client : Enqueue.Client) (queue id name : String) (input : Value) {opts : WorkflowOptions}
    (asked : opts.delay = some span) : Delayed now span (client.row now queue id name input opts)

def setWorkflowDelay (now : DateTime) (id : String) (delay : Duration) : Memory.Call :=
  .setWorkflowDelay id (asI64 (now.timestampMillis + delay.asMillis))

/-- The places that add a span to a clock reading. -/
inductive Site where
  | directStart
  | dequeue
  | sqliteDequeue
  | postgresDequeue
  | delayedStart
  | setDelay
  | debounceStart
  | debouncePush
  | debounceTimeout
deriving DecidableEq, Repr

/-- The deadline that `row_to_status` reads off a row which a SQLite dequeue has claimed: a sum beyond the integers
is stored as a real number, and read as none. -/
def sqliteDeadline (now : DateTime) (row : Sqlite.WorkflowRecord) : Option Int :=
  if Postgres.deadlineInRange now row then Postgres.claimDeadline now row.timeoutMs row.deadlineMs else none

/-- No place fires before the reading and the span. -/
def Site.Keeps (now : DateTime) (span : Duration) : Site → Prop
  | .directStart => ∀ (rt : Runtime) earlier id name input opts parent auth row, Asks span opts →
      rt.buildRun earlier now id name input opts parent auth = .ok (row, false) →
      TimesOut now.timestampMillis span row.timeoutMs row.deadlineMs
  | .dequeue => ∀ lib s row events req rows wf, Memory.Reachable lib s → Queued span row →
      s.workflows.get row.id = some row → Checkpoints.Spared lib row.id events s →
      (∀ found, (Memory.run lib events s).workflows.get row.id = some found → found.deadlineMs = none) →
      (Memory.dequeueWorkflows now req (Memory.run lib events s)).1 = .ok rows → wf ∈ rows → wf.id = row.id →
      TimesOut now.timestampMillis span wf.timeoutMs wf.deadlineMs
  | .sqliteDequeue => ∀ row : Sqlite.WorkflowRecord, row.timeoutMs = some span.asMillis → row.deadlineMs = none →
      TimesOut now.timestampMillis span row.timeoutMs (sqliteDeadline now row)
  | .postgresDequeue =>
    ∀ req (row : Sqlite.WorkflowRecord), row.timeoutMs = some span.asMillis → row.deadlineMs = none →
      Postgres.deadlineInRange now row ∧
        TimesOut now.timestampMillis span row.timeoutMs (Postgres.claimRecord now req row).deadlineMs
  | .delayedStart => ∀ row, Delayed now span row →
      ∃ due, row.delayUntilMs = some due ∧ OnTime now.timestampMillis span due
  | .setDelay => ∀ lib (s : Inner) id row later, s.workflows.get id = some row → row.status = .delayed →
      ∃ row' due, (Memory.step lib s (later, setWorkflowDelay now id span)).workflows.get id = some row' ∧
        row'.delayUntilMs = some due ∧ OnTime now.timestampMillis span due
  | .debounceStart => ∀ (ask : Debounce.Ask) targetId, ask.delay = span →
      let input := ask.debouncerInput targetId
      ∃ l due, resume input .starting (.time now.timestampMillis) = .top l ∧ OnTime now.timestampMillis span due ∧
        l.target = cap input now.timestampMillis due
  | .debouncePush => ∀ (ask : Debounce.Ask) id (input : DebouncerInput) l, ask.delay = span →
      ∃ l' due, (resume input (.receiving l now.timestampMillis) (.received (some ⟨ask.message id, ask⟩)) = .top l' ∨
          resume input (.receiving l now.timestampMillis) (.received (some ⟨ask.message id, ask⟩)) = .acking l' id) ∧
        OnTime now.timestampMillis span due ∧ l'.target = cap input l.start due
  | .debounceTimeout => ∀ (ask : Debounce.Ask) targetId, ask.debouncer.timeout = span →
      let input := ask.debouncerInput targetId
      asI64 (now.timestampMillis + input.timeoutMs) = now.timestampMillis + input.timeoutMs ∧
        ∀ due, min (due * 1000000) (dueAt now.timestampMillis span) ≤ cap input now.timestampMillis due * 1000000

/-- A timeout that is cast to no cap at all does no harm either. -/
def Site.Fits (reading : Int) (span : Duration) : Site → Prop
  | .debounceTimeout => Deadlines.Fits reading span ∨ (span / 1000000 : Nat) % 2 ^ 64 = 0 ∨
      2 ^ 63 ≤ (span / 1000000 : Nat) % 2 ^ 64 ∧ 2 ^ 63 ≤ reading + ((span / 1000000 : Nat) % 2 ^ 64 : Nat)
  | _ => Deadlines.Fits reading span

end Places

section Fixing

variable {reading : Int} {now : DateTime} {span : Duration} {opts : WorkflowOptions}

/-- A wait for a deadline on time is no shorter than the span. -/
theorem OnTime.waited {due : Int} (timely : OnTime reading span due) (later : Int) (since : reading ≤ later) :
    dueAt reading span ≤ (later + remainingMs due later) * 1000000 := by
  obtain ⟨sum, late⟩ := timely
  have wait : due ≤ later + remainingMs due later := by
    unfold remainingMs
    by_cases beyond : due ≤ later
    · exact Int.le_trans beyond (Int.le_add_of_nonneg_right (Int.le_max_right ..))
    · have narrow : span.asMillis ≤ I64_MAX := (asI64_isI64 _).2
      have fits : IsI64 (due - later) := ⟨by omega, by omega⟩
      rw [asI64_self fits, max_eq_left (by omega)]
      omega
  omega

/-- What a run that starts at the reading is left with. -/
theorem timesOut_iff (range : IsI64 reading) :
    TimesOut reading span (some span.asMillis) (some (asI64 (reading + span.asMillis))) ↔ Fits reading span := by
  rw [← onTime_iff range]
  constructor
  · rintro ⟨-, due, same, timely, -⟩
    cases same
    exact timely
  · intro timely
    exact ⟨⟨_, rfl, timely.nonneg range⟩, _, rfl, timely, timely.waited⟩

/-- A timeout survives the way through a collector as its milliseconds. -/
theorem asMillis_ofMillis (ms : Int) : Duration.asMillis ((ms % 2 ^ 64).toNat * 1000000) = asI64 ms := by
  have nonneg : 0 ≤ ms % 2 ^ 64 := Int.emod_nonneg ms (by decide)
  rw [Duration.asMillis, Nat.mul_div_cancel _ (by decide), Int.toNat_of_nonneg nonneg]
  exact Int.emod_bmod ms (2 ^ 64)

theorem Asks.millis (asks : Asks span opts) : opts.timeout.map Duration.asMillis = some span.asMillis := by
  cases asks with
  | given asked => rw [asked, Option.map_some]
  | debounced asked targetId =>
    simp only [Debounce.TargetOptions.intoOptions, Debounce.TargetOptions.fromOptions, asked, Option.map_some,
      asMillis_ofMillis]
    exact congrArg some (asI64_self (asI64_isI64 _))

theorem buildRun_times {rt : Runtime} {earlier created : DateTime} {id name : String} {input : Value}
    {parent : Option String}
    {auth : AuthContext} {row : WorkflowStatus} {queued : Bool}
    (built : rt.buildRun earlier created id name input opts parent auth = .ok (row, queued)) :
    row.timeoutMs = opts.timeout.map Duration.asMillis ∧
      row.delayUntilMs = opts.delay.map (fun d => asI64 (earlier.timestampMillis + d.asMillis)) ∧
      row.deadlineMs = if queued then none else row.timeoutMs.map fun t => asI64 (created.timestampMillis + t) := by
  simp only [Runtime.buildRun, bind, Except.bind, pure, Except.pure] at built
  split at built
  · cases built
  split at built
  · cases built
  split at built
  · cases built
  cases built
  exact ⟨rfl, rfl, rfl⟩

theorem Queued.timeoutMs {row : WorkflowStatus} (queued : Queued span row) : row.timeoutMs = some span.asMillis := by
  cases queued with
  | engine asks built => rw [(buildRun_times built).1, asks.millis]
  | client client now queue id name input asked => simp only [Enqueue.Client.row, asked, Option.map_some]

theorem Delayed.delayUntilMs {row : WorkflowStatus} (delayed : Delayed now span row) :
    row.delayUntilMs = some (asI64 (now.timestampMillis + span.asMillis)) := by
  cases delayed with
  | engine asked built => rw [(buildRun_times built).2.1, asked, Option.map_some]
  | client client queue id name input asked => simp only [Enqueue.Client.row, asked, Option.map_some]

end Fixing

section Stored

variable {lib : SerdeJson} {now : DateTime} {s : Memory.Inner} {id : String}

theorem writeStatus_timeoutMs (lib : SerdeJson) (now : DateTime) (status : Status) (output : Option Value)
    (error : Option String) (row : WorkflowStatus) :
    (Memory.writeStatus lib now status output error row).timeoutMs = row.timeoutMs := by
  unfold Memory.writeStatus
  cases output <;> cases error <;> (dsimp only; split <;> rfl)

theorem move_timeoutMs {call : Memory.Call} {row : WorkflowStatus} {after : Option WorkflowStatus}
    (move : Memory.RowMove lib now s id call (some row) after) :
    ∃ row', after = some row' ∧ row'.timeoutMs = row.timeoutMs := by
  cases move with
  | written status output error allowed => exact ⟨_, rfl, writeStatus_timeoutMs ..⟩
  | cancelled ids options member =>
    refine ⟨_, rfl, ?_⟩
    unfold Memory.cancelRow
    split <;> rfl
  | recovered req own pending executor attempts =>
    refine ⟨_, rfl, ?_⟩
    unfold Memory.recoveredRow
    dsimp only
    split
    · rfl
    split <;> rfl
  | _ => exact ⟨_, rfl, rfl⟩

/-- Whatever happens to a workflow that is not deleted or overwritten, its timeout stays. -/
theorem timeoutMs_kept {row : WorkflowStatus} {events : List (DateTime × Memory.Call)}
    (stored : s.workflows.get id = some row) (spared : Checkpoints.Spared lib id events s) :
    ∃ found, (Memory.run lib events s).workflows.get id = some found ∧ found.timeoutMs = row.timeoutMs := by
  refine Runs.invariant (I := fun s => ∃ found, s.workflows.get id = some found ∧ found.timeoutMs = row.timeoutMs) ?_
    spared ⟨row, stored, rfl⟩
  rintro s ⟨now, call⟩ outside ⟨found, here, same⟩
  have move := Memory.step_row lib now call s id outside
  rw [here] at move
  obtain ⟨next, after, kept⟩ := move_timeoutMs move
  exact ⟨next, after, kept.trans same⟩

end Stored

section Sites

variable {now : DateTime} {span : Duration}

theorem directStart_iff (range : IsI64 now.timestampMillis) :
    Site.directStart.Keeps now span ↔ Fits now.timestampMillis span := by
  rw [← timesOut_iff range]
  constructor
  · intro keeps
    exact keeps ⟨"", "", [], [], none, 0⟩ now "w" "w" .null { timeout := some span } none {} _ (.given rfl) rfl
  · intro timely rt earlier id name input opts parent auth row asks built
    obtain ⟨timeout, -, deadline⟩ := buildRun_times built
    rw [asks.millis] at timeout
    rw [deadline, timeout]
    exact timely

def waiting (span : Duration) : WorkflowStatus := ({} : Enqueue.Client).row 0 "q" "w" "w" .null { timeout := some span }

def polling : DequeueRequest := { queueName := "q", executorId := "local", appVersion := "", maxTasks := 1 }

def stocked (span : Duration) : Memory.Inner := Memory.step (.reading []) .new (0, .insertWorkflowStatus (waiting span))

theorem stocked_waiting (span : Duration) : (stocked span).workflows.get "w" = some (waiting span) := rfl

theorem dequeue_stocked (now : DateTime) (span : Duration) :
    (Memory.dequeueWorkflows now polling (stocked span)).1 = .ok [Memory.claimRow now polling (waiting span)] := rfl

theorem dequeue_iff (range : IsI64 now.timestampMillis) :
    Site.dequeue.Keeps now span ↔ Fits now.timestampMillis span := by
  rw [← timesOut_iff range]
  constructor
  · intro keeps
    have reachable : Memory.Reachable (.reading []) (stocked span) := ⟨[(0, .insertWorkflowStatus (waiting span))], rfl⟩
    have queued : Queued span (waiting span) := .client {} 0 "q" "w" "w" .null rfl
    refine keeps (.reading []) (stocked span) (waiting span) [] polling _
      (Memory.claimRow now polling (waiting span)) reachable
      queued (stocked_waiting span) trivial ?_ (dequeue_stocked now span) (List.mem_singleton_self _) rfl
    intro found here
    change (stocked span).workflows.get "w" = some found at here
    cases (stocked_waiting span).symm.trans here
    rfl
  · intro timely lib s row events req rows wf reachable queued stored spared unset answer handed same
    obtain ⟨found, here, kept⟩ := timeoutMs_kept stored spared
    obtain ⟨before, there, -, rfl, -⟩ := Release.claimed_row (reachable.run events).keyed answer handed
    rw [same, here, Option.some.injEq] at there
    subst there
    rw [queued.timeoutMs] at kept
    simp only [Memory.claimRow, unset found here, kept, Option.none_or, Option.map_some]
    exact timely

/-- A row with a timeout and no deadline is claimed with a deadline in range when the sum does not wrap. -/
theorem deadlineInRange_iff {row : Sqlite.WorkflowRecord} (timed : row.timeoutMs = some span.asMillis)
    (unset : row.deadlineMs = none) :
    Postgres.deadlineInRange now row = true ↔
      asI64 (now.timestampMillis + span.asMillis) = now.timestampMillis + span.asMillis := by
  simp [Postgres.deadlineInRange, timed, unset]

def timedRow (span : Duration) : Sqlite.WorkflowRecord :=
  { status := .enqueued, name := "w", inputs := none, serialization := none, executorId := none,
    applicationVersion := none, createdAt := 0, updatedAt := 0, timeoutMs := some span.asMillis }

theorem sqliteDequeue_iff (range : IsI64 now.timestampMillis) :
    Site.sqliteDequeue.Keeps now span ↔ Fits now.timestampMillis span := by
  rw [← timesOut_iff range]
  constructor
  · intro keeps
    have times := keeps (timedRow span) rfl rfl
    obtain ⟨due, same, -⟩ := times.deadline
    by_cases wraps : Postgres.deadlineInRange now (timedRow span) = true
    · rw [sqliteDeadline, if_pos wraps] at times
      rw [(deadlineInRange_iff rfl rfl).mp wraps]
      exact times
    · rw [sqliteDeadline, if_neg wraps] at same
      cases same
  · intro times row timed unset
    have sum : asI64 (now.timestampMillis + span.asMillis) = now.timestampMillis + span.asMillis :=
      ((onTime_iff range span).mpr ((timesOut_iff range).mp times)).sum
    rw [sqliteDeadline, if_pos ((deadlineInRange_iff timed unset).mpr sum), timed, unset, Postgres.claimDeadline, ← sum]
    exact times

theorem postgresDequeue_iff (range : IsI64 now.timestampMillis) :
    Site.postgresDequeue.Keeps now span ↔ Fits now.timestampMillis span := by
  have claimed (req : DequeueRequest) {row : Sqlite.WorkflowRecord} (timed : row.timeoutMs = some span.asMillis)
      (unset : row.deadlineMs = none) :
      (Postgres.claimRecord now req row).deadlineMs = some (now.timestampMillis + span.asMillis) := by
    simp only [Postgres.claimRecord, timed, unset, Postgres.claimDeadline]
  rw [← timesOut_iff range]
  constructor
  · intro keeps
    have timed : (timedRow span).timeoutMs = some span.asMillis := rfl
    have unset : (timedRow span).deadlineMs = none := rfl
    obtain ⟨checked, times⟩ := keeps polling (timedRow span) timed unset
    rw [claimed polling timed unset, timed] at times
    rw [(deadlineInRange_iff timed unset).mp checked]
    exact times
  · intro times req row timed unset
    have sum : asI64 (now.timestampMillis + span.asMillis) = now.timestampMillis + span.asMillis :=
      ((onTime_iff range span).mpr ((timesOut_iff range).mp times)).sum
    refine ⟨(deadlineInRange_iff timed unset).mpr sum, ?_⟩
    rw [claimed req timed unset, timed, ← sum]
    exact times

theorem delayedStart_iff (range : IsI64 now.timestampMillis) :
    Site.delayedStart.Keeps now span ↔ Fits now.timestampMillis span := by
  rw [← onTime_iff range]
  constructor
  · intro keeps
    have asked : ({ delay := some span } : WorkflowOptions).delay = some span := rfl
    have delayed : Delayed now span _ := .client {} "q" "w" "w" .null asked
    obtain ⟨due, same, timely⟩ := keeps _ delayed
    rw [delayed.delayUntilMs] at same
    cases same
    exact timely
  · intro timely row delayed
    exact ⟨_, delayed.delayUntilMs, timely⟩

theorem setDelay_iff (range : IsI64 now.timestampMillis) :
    Site.setDelay.Keeps now span ↔ Fits now.timestampMillis span := by
  have moved (lib : SerdeJson) {s : Memory.Inner} {id : String} {row : WorkflowStatus} (later : DateTime)
      (stored : s.workflows.get id = some row) (waits : row.status = .delayed) :
      (Memory.step lib s (later, setWorkflowDelay now id span)).workflows.get id =
        some { row with delayUntilMs := some (asI64 (now.timestampMillis + span.asMillis)), updatedAt := later } := by
    simp [Memory.step, setWorkflowDelay, Memory.exec, Memory.setWorkflowDelay, stored, waits, Memory.Inner.putRow]
  rw [← onTime_iff range]
  constructor
  · intro keeps
    let row : WorkflowStatus := WorkflowStatus.new 0 "w" "w" .null .delayed "" ""
    have stored : (Memory.Inner.new.putRow "w" row).workflows.get "w" = some row := rfl
    obtain ⟨row', due, after, same, timely⟩ := keeps (.reading []) _ "w" row now stored rfl
    rw [moved (.reading []) now stored rfl] at after
    cases after
    cases same
    exact timely
  · intro timely lib s id row later stored waits
    exact ⟨_, _, moved lib later stored waits, rfl, timely⟩

/-- A call that starts a collector, and what its body makes of a first reading and of a message. -/
def asking (span : Duration) : Debounce.Ask :=
  { debouncer := { target := "w" }, key := "k", delay := span, input := .null }

theorem asking_delay (span : Duration) : (asking span).delay = span := rfl

theorem asMillis_zero : Duration.asMillis 0 = 0 := by decide +kernel

theorem cap_asking (span : Duration) (start due : Int) :
    Debounce.cap ((asking span).debouncerInput "t") start due = due := by
  simp only [Debounce.cap, Debounce.Ask.debouncerInput, asking, asMillis_zero, Int.lt_irrefl, false_and, if_false]

theorem resume_starting (ask : Debounce.Ask) (targetId : String) (start : Int) :
    Debounce.resume (ask.debouncerInput targetId) .starting (.time start) =
      .top ⟨start, ask.input, Debounce.cap (ask.debouncerInput targetId) start
        (asI64 (start + ask.delay.asMillis))⟩ := by
  simp only [Debounce.resume, Debounce.Ask.debouncerInput]

/-- The variables after a message that was taken in the round of the reading. -/
def pushed (ask : Debounce.Ask) (input : Debounce.DebouncerInput) (l : Debounce.Locals) (now : Int) : Debounce.Locals :=
  { l with current := ask.input, target := Debounce.cap input l.start (asI64 (now + ask.delay.asMillis)) }

theorem resume_message (ask : Debounce.Ask) (id : String) (input : Debounce.DebouncerInput) (l : Debounce.Locals)
    (now : Int) :
    let after := Debounce.resume input (.receiving l now) (.received (some ⟨ask.message id, ask⟩))
    (id = "" → after = .top (pushed ask input l now)) ∧ (id ≠ "" → after = .acking (pushed ask input l now) id) := by
  constructor
  · intro unnamed
    simp only [Debounce.resume, Debounce.Ask.message, unnamed, if_true, pushed]
  · intro named
    simp only [Debounce.resume, Debounce.Ask.message, named, if_false, pushed]

theorem debounceStart_iff (range : IsI64 now.timestampMillis) :
    Site.debounceStart.Keeps now span ↔ Fits now.timestampMillis span := by
  rw [← onTime_iff range]
  constructor
  · intro keeps
    obtain ⟨l, due, first, timely, same⟩ := keeps (asking span) "t" (asking_delay span)
    rw [cap_asking] at same
    rw [resume_starting, cap_asking, Debounce.Control.top.injEq] at first
    rw [← first, asking_delay] at same
    rw [← same] at timely
    exact timely
  · intro timely ask targetId asked
    subst asked
    refine ⟨_, asI64 (now.timestampMillis + ask.delay.asMillis), resume_starting .., timely, ?_⟩
    simp only

theorem debouncePush_iff (range : IsI64 now.timestampMillis) :
    Site.debouncePush.Keeps now span ↔ Fits now.timestampMillis span := by
  rw [← onTime_iff range]
  constructor
  · intro keeps
    obtain ⟨l, due, after, timely, same⟩ :=
      keeps (asking span) "" ((asking span).debouncerInput "t") ⟨0, .null, 0⟩ (asking_delay span)
    rw [cap_asking] at same
    rw [(resume_message (asking span) "" _ ⟨0, .null, 0⟩ _).1 rfl] at after
    obtain top | acking := after
    · rw [Debounce.Control.top.injEq, pushed, cap_asking] at top
      rw [← top, asking_delay] at same
      rw [← same] at timely
      exact timely
    · cases acking
  · intro timely ask id input l asked
    subst asked
    have read := resume_message ask id input l now.timestampMillis
    refine ⟨pushed ask input l now.timestampMillis, asI64 (now.timestampMillis + ask.delay.asMillis), ?_,
      timely, by rw [pushed]⟩
    by_cases unnamed : id = ""
    · exact .inl (read.1 unnamed)
    · exact .inr (read.2 unnamed)

/-- A cast that is zero or negative, with a sum that can be stored. -/
theorem negative_iff {reading t k : Int} {n : Nat} (range : IsI64 reading) (narrow : IsI64 t)
    (cast : (n : Int) = t + 2 ^ 64 * k) :
    t ≤ 0 ∧ asI64 (reading + t) = reading + t ↔ n % 2 ^ 64 = 0 ∨ 2 ^ 63 ≤ n % 2 ^ 64 ∧
      2 ^ 63 ≤ reading + (n % 2 ^ 64 : Nat) := by
  have whole := asI64_isI64 (reading + t)
  have self := @asI64_self (reading + t)
  unfold IsI64 I64_MAX at *
  constructor
  · rintro ⟨past, sum⟩
    omega
  · intro off
    exact ⟨by omega, self (by omega)⟩

theorem uncapped_iff (range : IsI64 now.timestampMillis) :
    (span.asMillis ≤ 0 ∧ asI64 (now.timestampMillis + span.asMillis) = now.timestampMillis + span.asMillis) ↔
      (span / 1000000 : Nat) % 2 ^ 64 = 0 ∨ 2 ^ 63 ≤ (span / 1000000 : Nat) % 2 ^ 64 ∧
        2 ^ 63 ≤ now.timestampMillis + ((span / 1000000 : Nat) % 2 ^ 64 : Nat) := by
  obtain ⟨k, cast⟩ := asI64_wraps (span / 1000000 : Nat)
  exact negative_iff range (asI64_isI64 _) cast

/-- A time is cut to the cap, or it is none to cut. -/
theorem cap_cases {input : Debounce.DebouncerInput} {t : Int} (cast : input.timeoutMs = t) (start due : Int) :
    (0 < t ∧ Debounce.cap input start due = asI64 (start + t)) ∨
      (0 < t → due ≤ asI64 (start + t)) ∧ Debounce.cap input start due = due := by
  subst cast
  by_cases cut : 0 < input.timeoutMs ∧ asI64 (start + input.timeoutMs) < due
  · exact .inl ⟨cut.1, if_pos cut⟩
  · exact .inr ⟨fun on => by omega, if_neg cut⟩

theorem debounceTimeout_iff (range : IsI64 now.timestampMillis) :
    Site.debounceTimeout.Keeps now span ↔ Site.debounceTimeout.Fits now.timestampMillis span := by
  have fits : Site.debounceTimeout.Fits now.timestampMillis span ↔
      OnTime now.timestampMillis span (asI64 (now.timestampMillis + span.asMillis)) ∨
        span.asMillis ≤ 0 ∧ asI64 (now.timestampMillis + span.asMillis) = now.timestampMillis + span.asMillis := by
    rw [onTime_iff range, uncapped_iff range, Site.Fits]
  have below : dueAt now.timestampMillis span ≤ I64_MAX * 1000000 := min_le_right ..
  rw [fits]
  constructor
  · intro keeps
    let ask : Debounce.Ask := { asking 0 with debouncer := { target := "w", timeout := span } }
    have given : ask.debouncer.timeout = span := by simp only [ask]
    have milliseconds : (ask.debouncerInput "t").timeoutMs = span.asMillis := by
      simp only [Debounce.Ask.debouncerInput, ask]
    obtain ⟨sum, caps⟩ := keeps ask "t" given
    rw [milliseconds] at sum
    by_cases off : span.asMillis ≤ 0
    · exact .inr ⟨off, sum⟩
    refine .inl ⟨sum, ?_⟩
    have high := (asI64_isI64 (now.timestampMillis + span.asMillis)).2
    -- the last instant that can be stored is cut to the cap
    have last := caps I64_MAX
    rw [min_eq_right below] at last
    obtain ⟨-, cut⟩ | ⟨reached, -⟩ := cap_cases milliseconds now.timestampMillis I64_MAX
    · rwa [cut] at last
    · have := reached (by omega)
      omega
  · rintro timely ask targetId rfl
    have milliseconds : (ask.debouncerInput targetId).timeoutMs = ask.debouncer.timeout.asMillis := by
      simp only [Debounce.Ask.debouncerInput]
    dsimp only
    rw [milliseconds]
    obtain timely | ⟨off, sum⟩ := timely
    · refine ⟨timely.sum, fun due => ?_⟩
      obtain ⟨-, cut⟩ | ⟨-, same⟩ := cap_cases milliseconds now.timestampMillis due
      · rw [cut]
        exact Int.le_trans (min_le_right ..) timely.late
      · rw [same]
        exact min_le_left ..
    · refine ⟨sum, fun due => ?_⟩
      obtain ⟨on, -⟩ | ⟨-, same⟩ := cap_cases milliseconds now.timestampMillis due
      · omega
      · rw [same]
        exact min_le_left ..

end Sites

/-- A span given as a timeout or a delay fires no earlier than it says, at each place that adds it to a clock reading,
exactly when it `Fits` there. -/
theorem keeps_iff (site : Site) (now : DateTime) (span : Duration) (reading : IsI64 now.timestampMillis) :
    site.Keeps now span ↔ site.Fits now.timestampMillis span := by
  cases site with
  | directStart => exact directStart_iff reading
  | dequeue => exact dequeue_iff reading
  | sqliteDequeue => exact sqliteDequeue_iff reading
  | postgresDequeue => exact postgresDequeue_iff reading
  | delayedStart => exact delayedStart_iff reading
  | setDelay => exact setDelay_iff reading
  | debounceStart => exact debounceStart_iff reading
  | debouncePush => exact debouncePush_iff reading
  | debounceTimeout => exact debounceTimeout_iff reading

/-- A timeout of a second, on a direct start. -/
theorem second_kept :
    (Site.directStart.Keeps 0 1000000000 ↔ Site.directStart.Fits (DateTime.timestampMillis 0) 1000000000) ∧
      Site.directStart.Fits (DateTime.timestampMillis 0) 1000000000 :=
  ⟨keeps_iff .directStart 0 1000000000 ⟨by decide, by decide⟩, .inl (by decide)⟩

/-- The longest span is stored as minus one millisecond: a run with that timeout is over before it starts. -/
theorem longest_fires : ¬ Site.directStart.Keeps 0 Duration.MAX := by
  intro keeps
  have runs : ∃ row,
      (⟨"", "", [], [], none, 0⟩ : Runtime).buildRun 0 0 "w" "w" .null { timeout := some Duration.MAX } none {} =
      .ok (row, false) ∧ row.timeoutMs = some Duration.MAX.asMillis := ⟨_, rfl, rfl⟩
  obtain ⟨row, built, stored⟩ := runs
  obtain ⟨t, same, nonneg⟩ := (keeps _ 0 "w" "w" .null _ none {} row (.given rfl) built).timeout
  have cast : Duration.MAX.asMillis = -1 := by decide +kernel
  rw [stored, cast, Option.some.injEq] at same
  omega

end Durare.Deadlines

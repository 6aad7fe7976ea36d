import Durare.Dequeue
import Durare.Window

/-! The rate limit of a queue over whole runs. A dequeue counts the starts of its window from the rows
as they stand, so a start counts only as long as its row shows it. -/
namespace Durare.RateLimit

open Memory Dequeue

structure RateLimiter where
  limit : Int
  periodMs : Int
deriving DecidableEq, Repr

structure WorkflowQueue where
  name : String
  rateLimit : RateLimiter
  partitioned : Bool := false
deriving DecidableEq, Repr

/-- What the dispatchers of the queue ask for: its rate limit, of one partition where it is partitioned. -/
def Asked (queue : WorkflowQueue) (call : Call) : Prop :=
  ∀ req ∈ dequeueRequest call, req.queueName = queue.name →
    req.rateLimitMax = some queue.rateLimit.limit ∧ req.rateLimitPeriodMs = some queue.rateLimit.periodMs ∧
      req.partitionKey.isSome = queue.partitioned

instance (queue : WorkflowQueue) (call : Call) : Decidable (Asked queue call) :=
  inferInstanceAs (Decidable (∀ req ∈ dequeueRequest call, _))

def inScope (name : String) (key : Option String) (w : WorkflowStatus) : Bool :=
  w.queueName == some name && (key.isNone || w.queuePartitionKey == key)

/-- A start of the scope after the cutoff that the limiter counts. -/
def isCounted (name : String) (key : Option String) (cutoff : Int) (w : WorkflowStatus) : Bool :=
  inScope name key w && w.rateLimited && w.status != .enqueued && w.status != .delayed &&
    w.startedAtMs.any (cutoff < ·)

def countedStarts (name : String) (key : Option String) (cutoff : Int) (s : Inner) : Nat :=
  s.workflows.values.countP (isCounted name key cutoff)

/-- The call takes the start off the row stored under `id`: it cancels, resumes, requeues or releases the
workflow, or replaces or deletes it. -/
def forgets (s : Inner) (id : String) (row : WorkflowStatus) : Call → Bool
  | .cancelWorkflowsWithOptions ids options =>
    decide (id ∈ if options.cancelChildren then targetsWithChildren ids s else ids) &&
      !(row.status.isCompleted || row.status == .cancelled)
  | .resumeWorkflow target => target == id && !row.status.isCompleted
  | .resumeWorkflows ids => ids.contains id && !row.status.isCompleted
  | .enqueueExisting target _ => target == id
  | .setWorkflowStatus target status _ _ => target == id && (status == .enqueued || status == .delayed)
  | .claimForRecovery req =>
    req.workflowId == id && req.requeue && row.executorId == req.expectedExecutor &&
      row.recoveryAttempts == req.expectedAttempts && decide (asI32 (row.recoveryAttempts + 1) ≤ req.maxAttempts)
  | .deleteWorkflows ids deleteChildren =>
    decide (id ∈ if deleteChildren then targetsWithChildren ids s else ids)
  | .forkWorkflowWithTimeout params timeoutMs =>
    params.newId == id && !timeoutMs.any (· < 0) && (s.workflows.get params.originalId).isSome
  | .importWorkflow wfs =>
    (importedIds wfs).contains id && wfs.all fun wf =>
      ((colStr wf.workflowStatus "workflow_uuid").filter fun stored => (s.workflows.get stored).isSome).isNone
  | _ => false

/-- No start of the scope within the period is forgotten. -/
def Remembers (queue : WorkflowQueue) (key : Option String) (s : Inner) (event : DateTime × Call) : Prop :=
  ∀ entry ∈ s.workflows.toList,
    isCounted queue.name key (event.1.timestampMillis - queue.rateLimit.periodMs) entry.2 = true →
    forgets s entry.1 entry.2 event.2 = false

instance (queue : WorkflowQueue) (key : Option String) (s : Inner) (event : DateTime × Call) :
    Decidable (Remembers queue key s event) := inferInstanceAs (Decidable (∀ entry ∈ _, _))

section Counted

variable {lib : SerdeJson} {now : DateTime} {call : Call} {s : Inner} {name id : String} {key : Option String}
  {cutoff : Int} {row row' : WorkflowStatus}

theorem isCounted_iff : isCounted name key cutoff row = true ↔
    inScope name key row = true ∧ row.rateLimited = true ∧ row.status ≠ .enqueued ∧ row.status ≠ .delayed ∧
      row.startedAtMs.any (cutoff < ·) = true := by
  simp only [isCounted, Bool.and_eq_true, bne_iff_ne, and_assoc]

/-- A row that does not wait counts for what its queue, its partition, its flag and its start say. -/
theorem isCounted_of_same (counted : isCounted name key cutoff row = true) (queue : row'.queueName = row.queueName)
    (partition : row'.queuePartitionKey = row.queuePartitionKey) (flag : row'.rateLimited = row.rateLimited)
    (start : row'.startedAtMs = row.startedAtMs) (busy : row'.status ≠ .enqueued ∧ row'.status ≠ .delayed) :
    isCounted name key cutoff row' = true := by
  rw [isCounted_iff, inScope] at *
  rw [queue, partition, flag, start]
  exact ⟨counted.1, counted.2.1, busy.1, busy.2, counted.2.2.2.2⟩

theorem isCounted_earlier {earlier : Int} (le : earlier ≤ cutoff) (counted : isCounted name key cutoff row = true) :
    isCounted name key earlier row = true := by
  rw [isCounted_iff] at *
  obtain ⟨within, flag, queued, delayed, start⟩ := counted
  refine ⟨within, flag, queued, delayed, ?_⟩
  cases started : row.startedAtMs with
  | none =>
    rw [started] at start
    cases start
  | some time =>
    rw [started, Option.any_some, decide_eq_true_eq] at start
    rw [Option.any_some, decide_eq_true_eq]
    omega

/-- A counted start that a call does not forget still counts after it. -/
theorem RowMove.counted (move : RowMove lib now s id call (some row) (some row'))
    (counted : isCounted name key cutoff row = true) (remembered : forgets s id row call = false)
    (keyed : Keyed s) (stored : s.workflows.get id = some row) : isCounted name key cutoff row' = true := by
  have busy := (isCounted_iff.mp counted).2.2
  cases move with
  | same => exact counted
  | written _ status output error allowed =>
    have queue := writeStatus_queueName lib now status output error row
    obtain ⟨partition, flag, start⟩ := writeStatus_start lib now status output error row
    have status_ := writeStatus_status lib now status output error row
    simp only [forgets, beq_self_eq_true, Bool.true_and, Bool.or_eq_false_iff, beq_eq_false_iff_ne] at remembered
    exact isCounted_of_same counted queue partition flag start (by rwa [status_])
  | refreshed => exact isCounted_of_same counted rfl rfl rfl rfl ⟨busy.1, busy.2.1⟩
  | dequeued _ req member => exact absurd (dequeueCandidates_enqueued keyed stored member) busy.1
  | promoted _ nowMs isDue => exact absurd (due_delayed isDue) busy.2.1
  | resumed _ unfinished => simp [forgets, unfinished] at remembered
  | resumedMany _ ids member unfinished => simp [forgets, unfinished, member] at remembered
  | requeued => simp [forgets] at remembered
  | cancelled _ ids options member =>
    simp only [forgets, member, decide_true, Bool.true_and, Bool.not_eq_false'] at remembered
    rw [cancelRow, if_pos remembered]
    exact counted
  | delayed _ delayUntilMs waiting => exact absurd waiting busy.2.1
  | attributed => exact isCounted_of_same counted rfl rfl rfl rfl ⟨busy.1, busy.2.1⟩
  | recovered _ req own pending executor attempts =>
    have busy' : row.status ≠ .enqueued ∧ row.status ≠ .delayed := ⟨busy.1, busy.2.1⟩
    unfold recoveredRow
    dsimp only
    split
    · exact isCounted_of_same counted rfl rfl rfl rfl ⟨by simp, by simp⟩
    next within =>
      split
      next requeue =>
        have allowed : asI32 (row.recoveryAttempts + 1) ≤ req.maxAttempts := not_lt.mp within
        simp [forgets, own, requeue, executor, ← attempts, allowed] at remembered
      next => exact isCounted_of_same counted rfl rfl rfl rfl busy'

/-- A call that replaces a history and does not forget its start leaves the row as it is. -/
theorem replaced_unchanged (replaced : id ∈ call.histories s) (remembered : forgets s id row call = false) :
    (step lib s (now, call)).workflows.get id = s.workflows.get id := by
  cases call with
  | deleteWorkflows ids deleteChildren =>
    rw [forgets, decide_eq_false_iff_not] at remembered
    exact absurd replaced remembered
  | forkWorkflowWithTimeout params timeoutMs =>
    obtain rfl := List.mem_singleton.mp replaced
    rw [step, exec, forkWorkflowWithTimeout]
    split
    · rfl
    next valid =>
      split
      · rfl
      next original present => simp [forgets, valid, present] at remembered
  | importWorkflow wfs =>
    rw [step, exec, importWorkflow]
    split
    · rfl
    next free =>
      rw [List.findSome?_eq_none_iff] at free
      simp only [forgets, Bool.and_eq_false_iff, List.contains_eq_mem, decide_eq_false_iff_not] at remembered
      rcases remembered with absent | refused
      · exact absurd replaced absent
      · rw [List.all_eq_false] at refused
        obtain ⟨wf, member, taken⟩ := refused
        simp [free wf member] at taken
  | _ => cases replaced

theorem step_counted (keyed : Keyed s) (stored : s.workflows.get id = some row)
    (counted : isCounted name key cutoff row = true) (remembered : forgets s id row call = false) :
    ∃ row', (step lib s (now, call)).workflows.get id = some row' ∧ isCounted name key cutoff row' = true := by
  by_cases replaced : id ∈ call.histories s
  · exact ⟨row, (replaced_unchanged replaced remembered).trans stored, counted⟩
  · have move := step_row lib now call s id replaced
    rw [stored] at move
    cases after : (step lib s (now, call)).workflows.get id with
    | none =>
      rw [after] at move
      cases move
    | some row' =>
      rw [after] at move
      exact ⟨row', rfl, RowMove.counted move counted remembered keyed stored⟩

end Counted

def claims (name : String) (key : Option String) (s : Inner) (event : DateTime × Call) : Nat :=
  match dequeueRequest event.2 with
  | some req => ((dequeueWorkflows event.1 req s).1.toOption.getD []).countP (inScope name key)
  | none => 0

/-- The provider with the last instant its clock has shown and the time of every claim of the scope. -/
structure Watched where
  store : Inner
  clock : DateTime
  log : List Int
deriving DecidableEq

def Watched.new (clock : DateTime) : Watched := ⟨Inner.new, clock, []⟩

def watch (lib : SerdeJson) (name : String) (key : Option String) (sys : Watched) (event : DateTime × Call) :
    Watched where
  store := step lib sys.store event
  clock := event.1
  log := sys.log ++ List.replicate (claims name key sys.store event) event.1.timestampMillis

/-- The clock does not run back, the dispatchers ask with the rate limit of the queue, no recent start is
forgotten, and the dequeues compute without overflow. -/
structure Steady (queue : WorkflowQueue) (key : Option String) (sys : Watched) (event : DateTime × Call) : Prop where
  monotone : sys.clock ≤ event.1
  asked : Asked queue event.2
  remembers : Remembers queue key sys.store event
  fits : FitsAt sys.store event

instance (queue : WorkflowQueue) (key : Option String) (sys : Watched) (event : DateTime × Call) :
    Decidable (Steady queue key sys event) :=
  decidable_of_iff (sys.clock ≤ event.1 ∧ Asked queue event.2 ∧ Remembers queue key sys.store event ∧
      FitsAt sys.store event)
    ⟨fun ⟨monotone, asked, remembers, fits⟩ => ⟨monotone, asked, remembers, fits⟩,
      fun steady => ⟨steady.monotone, steady.asked, steady.remembers, steady.fits⟩⟩

/-- Starts may be forgotten, but each dequeue of the scope that finds a row to claim counts all claims of the window
that ends with it. -/
structure Counting (queue : WorkflowQueue) (key : Option String) (sys : Watched) (event : DateTime × Call) : Prop where
  asked : Asked queue event.2
  counts : ∀ req ∈ dequeueRequest event.2, req.queueName = queue.name → req.partitionKey = key →
    eligible req sys.store ≠ [] →
    Window.after (event.1.timestampMillis - queue.rateLimit.periodMs) sys.log ≤
      countedStarts queue.name key (event.1.timestampMillis - queue.rateLimit.periodMs) sys.store
  fits : FitsAt sys.store event

instance (queue : WorkflowQueue) (key : Option String) (sys : Watched) (event : DateTime × Call) :
    Decidable (Counting queue key sys event) :=
  decidable_of_iff (Asked queue event.2 ∧
      (∀ req ∈ dequeueRequest event.2, req.queueName = queue.name → req.partitionKey = key →
        eligible req sys.store ≠ [] →
        Window.after (event.1.timestampMillis - queue.rateLimit.periodMs) sys.log ≤
          countedStarts queue.name key (event.1.timestampMillis - queue.rateLimit.periodMs) sys.store) ∧
      FitsAt sys.store event)
    ⟨fun ⟨asked, counts, fits⟩ => ⟨asked, counts, fits⟩,
      fun counting => ⟨counting.asked, counting.counts, counting.fits⟩⟩

/-- Every claim of the last period still counts, and no window holds more claims than the limit. -/
structure Inv (queue : WorkflowQueue) (key : Option String) (sys : Watched) : Prop where
  keyed : Keyed sys.store
  shown : ∀ cutoff, sys.clock.timestampMillis - queue.rateLimit.periodMs ≤ cutoff →
    Window.after cutoff sys.log ≤ countedStarts queue.name key cutoff sys.store
  limited : Window.Limited queue.rateLimit.limit.toNat queue.rateLimit.periodMs sys.log

section Watch

variable {lib : SerdeJson} {queue : WorkflowQueue} {key : Option String} {sys : Watched} {now : DateTime} {s : Inner}
  {req : DequeueRequest}

theorem claims_dequeue (keyed : Keyed s) (name : String) (key : Option String) :
    claims name key s (now, .dequeueWorkflows req) =
      (firstRows (dequeueLimit now req s).toNat req s).countP (inScope name key) := by
  have answer : claims name key s (now, .dequeueWorkflows req) =
      ((dequeueWorkflows now req s).1.toOption.getD []).countP (inScope name key) := rfl
  rw [answer, dequeueWorkflows_handed keyed]
  exact List.countP_map

/-- The dequeues that claim rows of a scope of the queue are those that ask for this scope. -/
theorem claims_scope (keyed : Keyed s) (asked : Asked queue (.dequeueWorkflows req))
    (shape : key.isSome = queue.partitioned)
    (claimed : claims queue.name key s (now, .dequeueWorkflows req) ≠ 0) :
    req.queueName = queue.name ∧ req.partitionKey = key := by
  rw [claims_dequeue keyed] at claimed
  obtain ⟨row, taken, within⟩ := List.countP_pos_iff.mp (Nat.pos_of_ne_zero claimed)
  have waits := eligible_onQueue (mem_firstRows taken)
  have ours : row.queueName = some queue.name ∧ (key = none ∨ row.queuePartitionKey = key) := by
    simpa [inScope] using within
  have theirs : row.queueName = some req.queueName ∧
      (req.partitionKey = none ∨ row.queuePartitionKey = req.partitionKey) := by
    simpa [onQueue, inPartition] using waits
  have same : req.queueName = queue.name := Option.some.inj (theirs.1.symm.trans ours.1)
  refine ⟨same, ?_⟩
  have form : req.partitionKey.isSome = key.isSome := (asked req rfl same).2.2.trans shape.symm
  exact partition_eq form ours.2 theirs.2

theorem claims_le (keyed : Keyed s) (name : String) (key : Option String) :
    claims name key s (now, .dequeueWorkflows req) ≤ (dequeueCandidates now req s).length := by
  rw [claims_dequeue keyed, dequeueCandidates_eq, List.length_map]
  exact List.countP_le_length

/-- What the rate limit leaves of the window that ends now. -/
theorem candidates_le (fits : Fits now req s) {limit period : Int} (max : req.rateLimitMax = some limit)
    (window : req.rateLimitPeriodMs = some period) :
    ((dequeueCandidates now req s).length : Int) ≤
      Max.max (limit - recentCount req (now.timestampMillis - period) s) 0 := by
  have room : (allowance now req s : Int) ≤ Max.max (limit - recentCount req (now.timestampMillis - period) s) 0 := by
    unfold allowance startsLeft
    rw [max, window]
    cases slotsLeft req s <;> simp only [cappedBy] <;> omega
  have many : (dequeueCandidates now req s).length ≤ allowance now req s := by
    rw [dequeueCandidates_eq, dequeueLimit_allowance fits, List.length_map, firstRows, List.length_take]
    omega
  omega

/-- The rows that a rate-limited dequeue claims count from now on, beside those that did. -/
theorem dequeue_counted (keyed : Keyed s) (limited : req.rateLimitMax.isSome = true) {cutoff : Int}
    (recent : cutoff < now.timestampMillis) :
    (dequeueCandidates now req s).length + countedStarts req.queueName req.partitionKey cutoff s ≤
      countedStarts req.queueName req.partitionKey cutoff (dequeueWorkflows now req s).2 := by
  apply Table.length_add_countP_values_le (dequeueCandidates_nodup keyed)
  · intro id member
    obtain ⟨row, stored, waits⟩ := dequeueCandidates_claimable keyed member
    have here : onQueue req row = true := by
      rw [claimable, Bool.and_eq_true, Bool.and_eq_true] at waits
      exact waits.1.1
    refine ⟨claimRow now req row, by rw [dequeueWorkflows_get, if_pos member, stored]; rfl, ?_⟩
    rw [isCounted_iff]
    exact ⟨here, limited, by simp [claimRow], by simp [claimRow], by simpa [claimRow] using recent⟩
  · intro id row stored counted
    have busy := (isCounted_iff.mp counted).2.2.1
    have passed : id ∉ dequeueCandidates now req s := fun member =>
      busy (dequeueCandidates_enqueued keyed stored member)
    exact ⟨passed, row, by rw [dequeueWorkflows_get, if_neg passed, stored], counted⟩

/-- The starts of the last period that count before a call count after it. -/
theorem countedStarts_mono (lib : SerdeJson) {event : DateTime × Call} {cutoff : Int} (keyed : Keyed s)
    (remembers : Remembers queue key s event)
    (recent : event.1.timestampMillis - queue.rateLimit.periodMs ≤ cutoff) :
    countedStarts queue.name key cutoff s ≤ countedStarts queue.name key cutoff (step lib s event) := by
  apply (Table.countP_values_le ([] : List String) ?_).trans_eq (Nat.zero_add _)
  intro id row stored counted
  have member := (Table.mem_toList s.workflows id row).mpr stored
  have remembered := remembers (id, row) member (isCounted_earlier recent counted)
  exact .inr (step_counted keyed stored counted remembered)

/-- A dequeue that counts the claims of its window claims no more than the window has room for. -/
theorem claimed_room {log : List Int} (keyed : Keyed s) (asked : Asked queue (.dequeueWorkflows req))
    (fits : FitsAt s (now, .dequeueWorkflows req)) (name : req.queueName = queue.name) (part : req.partitionKey = key)
    (claimed : claims queue.name key s (now, .dequeueWorkflows req) ≠ 0)
    (counts : Window.after (now.timestampMillis - queue.rateLimit.periodMs) log ≤
      countedStarts queue.name key (now.timestampMillis - queue.rateLimit.periodMs) s) :
    Window.after (now.timestampMillis - queue.rateLimit.periodMs) log +
      claims queue.name key s (now, .dequeueWorkflows req) ≤ queue.rateLimit.limit.toNat := by
  obtain ⟨max, window, -⟩ := asked req rfl name
  have le : claims queue.name key s (now, .dequeueWorkflows req) ≤ (dequeueCandidates now req s).length :=
    claims_le keyed queue.name key
  have small : Fits now req s := fits req rfl
  have room := candidates_le small max window
  have same : recentCount req (now.timestampMillis - queue.rateLimit.periodMs) s =
      countedStarts req.queueName req.partitionKey (now.timestampMillis - queue.rateLimit.periodMs) s := rfl
  rw [same, name, part] at room
  omega

/-- A dequeue of the scope claims no more than its window has room for, and its claims count at once. -/
theorem claimed_inv (inv : Inv queue key sys) (steady : Steady queue key sys (now, .dequeueWorkflows req))
    (name : req.queueName = queue.name) (part : req.partitionKey = key)
    (claimed : claims queue.name key sys.store (now, .dequeueWorkflows req) ≠ 0) :
    Inv queue key (watch lib queue.name key sys (now, .dequeueWorkflows req)) := by
  obtain ⟨max, -⟩ := steady.asked req rfl name
  have le : claims queue.name key sys.store (now, .dequeueWorkflows req) ≤
      (dequeueCandidates now req sys.store).length :=
    claims_le inv.keyed queue.name key
  have clock : sys.clock.timestampMillis ≤ now.timestampMillis := timestampMillis_mono steady.monotone
  constructor
  case keyed => exact step_keyed lib sys.store _ inv.keyed
  case shown =>
    intro cutoff recent
    dsimp only [watch] at recent ⊢
    have before := inv.shown cutoff (by omega)
    rw [Window.after_append, Window.after_replicate]
    split
    next later =>
      have counted := dequeue_counted inv.keyed (by rw [max]; rfl : req.rateLimitMax.isSome = true) later
      rw [name, part] at counted
      have same : step lib sys.store (now, .dequeueWorkflows req) = (dequeueWorkflows now req sys.store).2 := rfl
      rw [same]
      omega
    next =>
      have kept := countedStarts_mono lib inv.keyed steady.remembers recent
      omega
  case limited =>
    have before := inv.shown (now.timestampMillis - queue.rateLimit.periodMs) (by omega)
    exact inv.limited.append (claimed_room inv.keyed steady.asked steady.fits name part claimed before)

theorem watch_inv {event : DateTime × Call} (shape : key.isSome = queue.partitioned)
    (steady : Steady queue key sys event)
    (inv : Inv queue key sys) : Inv queue key (watch lib queue.name key sys event) := by
  by_cases idle : claims queue.name key sys.store event = 0
  · have log : (watch lib queue.name key sys event).log = sys.log := by simp [watch, idle]
    constructor
    case keyed => exact step_keyed lib sys.store _ inv.keyed
    case shown =>
      intro cutoff recent
      have clock := timestampMillis_mono steady.monotone
      have before := inv.shown cutoff (by dsimp only [watch] at recent; omega)
      have kept := countedStarts_mono lib inv.keyed steady.remembers recent
      rw [log]
      exact before.trans kept
    case limited => rw [log]; exact inv.limited
  · obtain ⟨now, call⟩ := event
    cases call with
    | dequeueWorkflows req =>
      obtain ⟨name, part⟩ := claims_scope inv.keyed steady.asked shape idle
      exact claimed_inv inv steady name part idle
    | _ => exact absurd rfl idle

theorem watch_limited {event : DateTime × Call} (shape : key.isSome = queue.partitioned)
    (counting : Counting queue key sys event)
    (inv : Keyed sys.store ∧ Window.Limited queue.rateLimit.limit.toNat queue.rateLimit.periodMs sys.log) :
    Keyed (watch lib queue.name key sys event).store ∧
      Window.Limited queue.rateLimit.limit.toNat queue.rateLimit.periodMs (watch lib queue.name key sys event).log := by
  obtain ⟨keyed, limited⟩ := inv
  refine ⟨step_keyed lib sys.store event keyed, ?_⟩
  by_cases idle : claims queue.name key sys.store event = 0
  · have log : (watch lib queue.name key sys event).log = sys.log := by simp [watch, idle]
    rw [log]
    exact limited
  · obtain ⟨now, call⟩ := event
    cases call with
    | dequeueWorkflows req =>
      obtain ⟨name, part⟩ := claims_scope keyed counting.asked shape idle
      have waiting : eligible req sys.store ≠ [] := by
        intro none
        rw [claims_dequeue keyed] at idle
        obtain ⟨row, taken, -⟩ := List.countP_pos_iff.mp (Nat.pos_of_ne_zero idle)
        have member := mem_firstRows taken
        rw [none] at member
        cases member
      have counts := counting.counts req rfl name part waiting
      exact limited.append (claimed_room keyed counting.asked counting.fits name part idle counts)
    | _ => exact absurd rfl idle

/-- From the empty provider, every run with a monotone clock in which the queue's recent starts are not
forgotten keeps the rate limit in every window; and so does every run in which a dequeue that finds a row to
claim counts the claims of its window. -/
theorem rate_limit_kept (lib : SerdeJson) (queue : WorkflowQueue) (key : Option String)
    (shape : key.isSome = queue.partitioned) (start : DateTime) (events : List (DateTime × Call)) :
    (Runs.Along (watch lib queue.name key) (Steady queue key) events (.new start) →
      Window.Limited queue.rateLimit.limit.toNat queue.rateLimit.periodMs
        (Runs.run (watch lib queue.name key) events (.new start)).log) ∧
    (Runs.Along (watch lib queue.name key) (Counting queue key) events (.new start) →
      Window.Limited queue.rateLimit.limit.toNat queue.rateLimit.periodMs
        (Runs.run (watch lib queue.name key) events (.new start)).log) := by
  constructor
  · intro steady
    have fresh : Inv queue key (.new start) := by
      constructor
      case keyed => exact reached_keyed lib []
      case shown => exact fun cutoff _ => Nat.zero_le _
      case limited => exact Window.limited_nil _ _
    exact (Runs.invariant (fun sys event steady inv => watch_inv shape steady inv) steady fresh).limited
  · intro counting
    have fresh : Keyed (Watched.new start).store := reached_keyed lib []
    have kept := Runs.invariant (I := fun sys => Keyed sys.store ∧
        Window.Limited queue.rateLimit.limit.toNat queue.rateLimit.periodMs sys.log)
      (fun sys event counting inv => watch_limited shape counting inv) counting ⟨fresh, Window.limited_nil _ _⟩
    exact kept.2

/-- A queue that may start one workflow a second. -/
def oneASecond : WorkflowQueue := { name := "q", rateLimit := { limit := 1, periodMs := 1000 } }

def waitingRow (id : String) : WorkflowStatus :=
  { WorkflowStatus.new 0 id "job" .null .enqueued "" "v1" with queueName := some "q" }

def oneASecondRequest : DequeueRequest where
  queueName := "q"
  executorId := "e1"
  appVersion := "v1"
  maxTasks := 10
  rateLimitMax := some 1
  rateLimitPeriodMs := some 1000

/-- Two rows wait; the dispatcher polls until the second has started. -/
def patientPolls : List (DateTime × Call) :=
  [(0, .insertWorkflowStatus (waitingRow "a")), (0, .insertWorkflowStatus (waitingRow "b")),
    (0, .dequeueWorkflows oneASecondRequest), (500000000, .dequeueWorkflows oneASecondRequest),
    (600000000, .setWorkflowStatus "a" .success none none), (1000000000, .dequeueWorkflows oneASecondRequest)]

/-- The workflow that has started is cancelled, and the next poll waits for the end of the second. -/
def waitedOut : List (DateTime × Call) :=
  [(0, .insertWorkflowStatus (waitingRow "a")), (0, .insertWorkflowStatus (waitingRow "b")),
    (0, .dequeueWorkflows oneASecondRequest), (500000, .cancelWorkflowsWithOptions ["a"] {}),
    (1000000000, .dequeueWorkflows oneASecondRequest)]

theorem rate_limit_kept_patientPolls :
    Window.Limited 1 1000 (Runs.run (watch (.reading []) "q" none) patientPolls (.new 0)).log ∧
      (Runs.run (watch (.reading []) "q" none) patientPolls (.new 0)).log = [0, 1000] ∧
      Window.Limited 1 1000 (Runs.run (watch (.reading []) "q" none) waitedOut (.new 0)).log ∧
      (Runs.run (watch (.reading []) "q" none) waitedOut (.new 0)).log = [0, 1000] :=
  ⟨(rate_limit_kept (.reading []) oneASecond none rfl 0 patientPolls).1 (by decide +kernel), by decide +kernel,
    (rate_limit_kept (.reading []) oneASecond none rfl 0 waitedOut).2 (by decide +kernel), by decide +kernel⟩

/-- The workflow that has started is cancelled, and the next poll comes a millisecond later. -/
def cancelledStart : List (DateTime × Call) :=
  [(0, .insertWorkflowStatus (waitingRow "a")), (0, .insertWorkflowStatus (waitingRow "b")),
    (0, .dequeueWorkflows oneASecondRequest), (500000, .cancelWorkflowsWithOptions ["a"] {}),
    (1000000, .dequeueWorkflows oneASecondRequest)]

/-- A cancellation clears the queue and the start of its row, so the limiter starts a second workflow
within the second. -/
theorem cancelled_start_forgotten :
    (∀ event ∈ cancelledStart, Asked oneASecond event.2) ∧ (cancelledStart.map (·.1)).Pairwise (· ≤ ·) ∧
      (Runs.run (watch (.reading []) "q" none) cancelledStart (.new 0)).log = [0, 1] ∧
      ¬ Window.Limited 1 1000 (Runs.run (watch (.reading []) "q" none) cancelledStart (.new 0)).log := by
  have log : (Runs.run (watch (.reading []) "q" none) cancelledStart (.new 0)).log = [0, 1] := by decide +kernel
  refine ⟨by decide +kernel, by decide, log, ?_⟩
  rw [log]
  intro limited
  exact absurd (limited (-1)) (by decide)

end Watch

end Durare.RateLimit

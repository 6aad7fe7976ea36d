import Durare.Contention
import Durare.RateLimit

/-! The rate limit of a queue that several executors share on Postgres. Each counts the recent starts in
its own snapshot, and a claim that another commits meanwhile is not among them. -/
namespace Durare.SharedRate

open Postgres Contention
open Sqlite (WorkflowRecord)
open RateLimit (WorkflowQueue)

/-- Every executor asks for the queue with its rate limit, and for one partition where it is partitioned. -/
def Asks (queue : WorkflowQueue) (req : DequeueRequest) : Prop :=
  req.queueName = queue.name →
    req.rateLimitMax = some queue.rateLimit.limit ∧ req.rateLimitPeriodMs = some queue.rateLimit.periodMs ∧
      req.partitionKey.isSome = queue.partitioned

instance (queue : WorkflowQueue) (req : DequeueRequest) : Decidable (Asks queue req) :=
  inferInstanceAs (Decidable (_ → _))

def cutoff (queue : WorkflowQueue) (now : DateTime) : Int := now.timestampMillis - queue.rateLimit.periodMs

/-- The database with the last instant the clock has shown and the start of every claim of the scope. -/
structure Watched where
  db : Database
  clock : DateTime
  log : List Int
deriving DecidableEq

def Watched.new (clock : DateTime) : Watched := ⟨.new, clock, []⟩

def claims (name : String) (key : Option String) (db : Database) : Event → List String
  | .commit session => claimed name key db session
  | _ => []

/-- The starts of the rows of the scope that the event claims, whichever dequeue claims them. -/
def starts (name : String) (key : Option String) (db : Database) : Event → List Int
  | .commit session =>
    match db.store.views.get session with
    | some view =>
      if Database.finished view ∧ db.accepts view then
        List.replicate (view.locked.countP fun id => (db.store.rows.get id).any (inScope name key))
          view.data.now.timestampMillis
      else []
    | none => []
  | _ => []

def watch (name : String) (key : Option String) (sys : Watched) (event : DateTime × Event) : Watched where
  db := next sys.db event
  clock := event.1
  log := sys.log ++ starts name key sys.db event.2

/-- The start of the row is still there after the write. -/
def keepsStart (name : String) (key : Option String) (row : WorkflowRecord) (written : Option WorkflowRecord) : Bool :=
  row.startedAtMs.all fun start => written.any (isRecent name key (start - 1))

/-- The windows that a dequeue may still count: those that end now or later, and those of the dequeues of the
scope that have read the clock and have no snapshot yet. -/
def Horizon (queue : WorkflowQueue) (key : Option String) (clock : DateTime) (db : Database) (opens : Int) : Prop :=
  cutoff queue clock ≤ opens ∨ ∃ session req now, db.begun.get session = some (req, now) ∧
    req.queueName = queue.name ∧ req.partitionKey = key ∧ cutoff queue now ≤ opens

def cutoffs (queue : WorkflowQueue) (key : Option String) (clock : DateTime) (db : Database) : List Int :=
  cutoff queue clock :: (db.begun.values.filter fun asked =>
    asked.1.queueName == queue.name && asked.1.partitionKey == key).map fun asked => cutoff queue asked.2

/-- A write by another transaction takes no start of these windows away. -/
def Remembers (queue : WorkflowQueue) (key : Option String) (sys : Watched) : DateTime × Event → Prop
  | (now, .write id row) => sys.db.store.held id = false → ∀ old ∈ sys.db.store.rows.get id,
      ∀ opens ∈ cutoffs queue key now sys.db, isRecent queue.name key opens old = true →
        keepsStart queue.name key old row = true
  | _ => True

instance (queue : WorkflowQueue) (key : Option String) (sys : Watched) :
    ∀ event, Decidable (Remembers queue key sys event)
  | (_, .write id _) =>
    inferInstanceAs (Decidable (_ → ∀ old ∈ sys.db.store.rows.get id, ∀ opens ∈ _, _ → _))
  | (_, .begin ..) | (_, .count ..) | (_, .lock _) | (_, .busy _) | (_, .commit _) | (_, .fail _) | (_, .register _) =>
    inferInstanceAs (Decidable True)

/-- One step of the executors that share the queue: the clock does not run back, they ask with its rate
limit, the starts that are left fit in 64 bits, a transaction that claims rows meets every other open one of
the scope that may claim some at a row, and no start that may still be counted is taken away. -/
structure Shared (queue : WorkflowQueue) (key : Option String) (sys : Watched) (event : DateTime × Event) : Prop where
  monotone : sys.clock ≤ event.1
  asks : ∀ req ∈ beginning event.2, Asks queue req
  fits : ∀ asked ∈ counted sys.db event.2, asked.1.queueName = queue.name → asked.1.partitionKey = key →
    asI64 (cutoff queue asked.2) = cutoff queue asked.2 ∧
    asI64 (queue.rateLimit.limit - recentCount queue.name key (cutoff queue asked.2) sys.db.store.rows) =
      queue.rateLimit.limit - recentCount queue.name key (cutoff queue asked.2) sys.db.store.rows
  meets : Meets queue.name key sys.db event.2 (claims queue.name key sys.db event.2)
  remembers : Remembers queue key sys event

instance (queue : WorkflowQueue) (key : Option String) (sys : Watched) (event : DateTime × Event) :
    Decidable (Shared queue key sys event) :=
  decidable_of_iff (sys.clock ≤ event.1 ∧ (∀ req ∈ beginning event.2, Asks queue req) ∧
      (∀ asked ∈ counted sys.db event.2, asked.1.queueName = queue.name → asked.1.partitionKey = key →
        asI64 (cutoff queue asked.2) = cutoff queue asked.2 ∧
        asI64 (queue.rateLimit.limit - recentCount queue.name key (cutoff queue asked.2) sys.db.store.rows) =
          queue.rateLimit.limit - recentCount queue.name key (cutoff queue asked.2) sys.db.store.rows) ∧
      Meets queue.name key sys.db event.2 (claims queue.name key sys.db event.2) ∧ Remembers queue key sys event)
    ⟨fun ⟨monotone, asks, fits, meets, remembers⟩ => ⟨monotone, asks, fits, meets, remembers⟩,
      fun shared => ⟨shared.monotone, shared.asks, shared.fits, shared.meets, shared.remembers⟩⟩

/-- Every claim of a window that may still be counted shows in its row, and an open dequeue of the scope fails,
claims nothing or has counted them all. -/
structure Inv (queue : WorkflowQueue) (key : Option String) (sys : Watched) : Prop where
  base : Base (Asks queue) sys.db
  shown : ∀ opens, Horizon queue key sys.clock sys.db opens →
    Window.after opens sys.log ≤ recentCount queue.name key opens sys.db.store.rows
  room : ∀ session view, sys.db.store.views.get session = some view → Ours queue.name key view →
    (view.data.limit : Int) ≤
      queue.rateLimit.limit - recentCount queue.name key (cutoff queue view.data.now) view.snapshot
  current : ∀ session view, sys.db.store.views.get session = some view → Ours queue.name key view →
    Harmless view ∨ Window.after (cutoff queue view.data.now) sys.log ≤
      recentCount queue.name key (cutoff queue view.data.now) view.snapshot
  limited : Window.Limited queue.rateLimit.limit.toNat queue.rateLimit.periodMs sys.log

section Watch

variable {queue : WorkflowQueue} {key : Option String} {sys : Watched} {event : DateTime × Event} {name : String}
  {db db' : Database} {opens : Int} {row : WorkflowRecord}

theorem isRecent_iff : isRecent name key opens row = true ↔
    inScope name key row = true ∧ row.rateLimited = true ∧ row.status ≠ .enqueued ∧ row.status ≠ .delayed ∧
      ∃ start, row.startedAtMs = some start ∧ opens < start := by
  simp only [isRecent, Bool.and_eq_true, bne_iff_ne, and_assoc]
  cases row.startedAtMs with
  | none => simp
  | some start => simp

theorem isRecent_earlier {earlier : Int} (le : earlier ≤ opens) (recent : isRecent name key opens row = true) :
    isRecent name key earlier row = true := by
  rw [isRecent_iff] at *
  obtain ⟨scope, flag, queued, delayed, start, started, later⟩ := recent
  exact ⟨scope, flag, queued, delayed, start, started, by omega⟩

theorem Horizon.mem_cutoffs {clock : DateTime} (horizon : Horizon queue key clock db opens) :
    ∃ earlier ∈ cutoffs queue key clock db, earlier ≤ opens := by
  rcases horizon with now | ⟨session, req, now, begun, name, part, le⟩
  · exact ⟨_, List.mem_cons_self, now⟩
  · have member := (Table.mem_values db.begun (req, now)).mpr ⟨session, begun⟩
    refine ⟨cutoff queue now, List.mem_cons_of_mem _ (List.mem_map.mpr ⟨(req, now), ?_, rfl⟩), le⟩
    simp [member, name, part]

/-- A window that may be counted after the event might have been counted before it. -/
theorem Horizon.before (step : Step db event db') (horizon : Horizon queue key event.1 db' opens) :
    Horizon queue key event.1 db opens := by
  rcases horizon with now | ⟨session, req, now, begun, name, part, le⟩
  · exact .inl now
  · rcases step_begun step begun with rfl | before
    · exact .inl le
    · exact .inr ⟨session, req, now, before, name, part, le⟩

theorem Horizon.earlier {clock : DateTime} (le : clock ≤ event.1) (horizon : Horizon queue key event.1 db opens) :
    Horizon queue key clock db opens := by
  have mono := timestampMillis_mono le
  refine horizon.imp_left fun now => ?_
  unfold cutoff at *
  omega

theorem keepsStart_recent {written : Option WorkflowRecord} (recent : isRecent name key opens row = true)
    (kept : keepsStart name key row written = true) :
    ∃ new, written = some new ∧ isRecent name key opens new = true := by
  obtain ⟨-, -, -, -, start, started, later⟩ := isRecent_iff.mp recent
  rw [keepsStart, started, Option.all_some] at kept
  cases written with
  | none => cases kept
  | some new => exact ⟨new, rfl, isRecent_earlier (by omega) kept⟩

/-- What a transaction has locked waits, and does not count as started. -/
theorem recent_unlocked {session : Nat} {view : View} {id : String} (base : Base (Asks queue) db)
    (present : db.store.views.get session = some view) (stored : db.store.rows.get id = some row)
    (recent : isRecent name key opens row = true) : id ∉ view.locked := by
  intro member
  obtain ⟨old, before, -, waits⟩ := base.locked present member
  cases stored.symm.trans before
  exact (isRecent_iff.mp recent).2.2.1 waits

/-- The starts of a window that may be counted stay. -/
theorem step_recent (step : Step sys.db event db') (base : Base (Asks queue) sys.db)
    (remembers : Remembers queue key sys event) (horizon : Horizon queue key event.1 sys.db opens) :
    recentCount queue.name key opens sys.db.store.rows ≤ recentCount queue.name key opens db'.store.rows := by
  cases step with
  | committed time session view present finished accepted =>
    apply (Table.countP_values_le ([] : List String) ?_).trans_eq (Nat.zero_add _)
    intro id row stored recent
    have passed := recent_unlocked base present stored recent
    have after := Snapshot.Store.commit_rows (claimRecord_idem view.data.now view.data.req) present id
    exact .inr ⟨row, by rw [after, if_neg passed, stored], recent⟩
  | written time target row free =>
    apply (Table.countP_values_le ([] : List String) ?_).trans_eq (Nat.zero_add _)
    intro id old stored recent
    rw [Snapshot.Store.write_rows]
    split
    next same =>
      subst same
      obtain ⟨earlier, member, le⟩ := horizon.mem_cutoffs
      have kept := remembers free old stored earlier member (isRecent_earlier le recent)
      obtain ⟨new, rfl, recent'⟩ := keepsStart_recent recent kept
      exact .inr ⟨new, rfl, recent'⟩
    next => exact .inr ⟨old, stored, recent⟩
  | _ => exact le_rfl

/-- A commit of the scope adds its claims to the recent starts of every window that has opened. -/
theorem commit_recent {session : Nat} {view : View} (base : Base (Asks queue) db)
    (present : db.store.views.get session = some view) (ours : Ours queue.name key view)
    (opened : opens < view.data.now.timestampMillis) :
    view.locked.length + recentCount queue.name key opens db.store.rows ≤
      recentCount queue.name key opens (db.store.commit session (claimRecord view.data.now view.data.req)).rows := by
  have proper := base.proper session view present
  have limited := (base.asking session view present ours.1).1
  apply Table.length_add_countP_values_le (proper.distinct.sublist (List.sublist_append_left _ _))
  · intro id member
    obtain ⟨row, stored, scope, -⟩ := base.locked present member
    refine ⟨claimRecord view.data.now view.data.req row, ?_, ?_⟩
    · rw [Snapshot.Store.commit_rows (claimRecord_idem _ _) present, if_pos member, stored]
      rfl
    · rw [ours.1, ours.2] at scope
      rw [isRecent_iff]
      exact ⟨scope, by rw [claimRecord, limited]; rfl, by simp [claimRecord], by simp [claimRecord], _, rfl, opened⟩
  · intro id row stored recent
    have passed := recent_unlocked base present stored recent
    have after := Snapshot.Store.commit_rows (claimRecord_idem view.data.now view.data.req) present id
    exact ⟨passed, row, by rw [after, if_neg passed, stored], recent⟩

theorem dequeueLimit_le (now : DateTime) {req : DequeueRequest} (rows : Table String WorkflowRecord)
    {limit period : Int} (max : req.rateLimitMax = some limit) (window : req.rateLimitPeriodMs = some period) :
    dequeueLimit now req rows ≤ Max.max (asI64 (limit -
      recentCount req.queueName req.partitionKey (asI64 (now.timestampMillis - period)) rows)) 0 := by
  unfold dequeueLimit
  rw [max, window]
  cases req.globalConcurrency with
  | none => exact min_le_right _ _
  | some cap => exact (min_le_left _ _).trans (min_le_right _ _)

theorem opened_room {session : Nat} {req : DequeueRequest} {now : DateTime} (base : Base (Asks queue) db)
    (begun : db.begun.get session = some (req, now)) (name : req.queueName = queue.name) (part : req.partitionKey = key)
    (some_ : 0 < dequeueLimit now req db.store.rows)
    (fits : asI64 (cutoff queue now) = cutoff queue now ∧
      asI64 (queue.rateLimit.limit - recentCount queue.name key (cutoff queue now) db.store.rows) =
        queue.rateLimit.limit - recentCount queue.name key (cutoff queue now) db.store.rows) :
    ((dequeueLimit now req db.store.rows).toNat : Int) ≤
      queue.rateLimit.limit - recentCount queue.name key (cutoff queue now) db.store.rows := by
  obtain ⟨max, window, -⟩ := base.asked session req now begun name
  have limit := dequeueLimit_le now db.store.rows max window
  have opens : asI64 (now.timestampMillis - queue.rateLimit.periodMs) = cutoff queue now := fits.1
  rw [opens, name, part, fits.2] at limit
  omega

/-- A dequeue of another scope claims no row of this one. -/
theorem locked_elsewhere (shape : key.isSome = queue.partitioned) (base : Base (Asks queue) db) {session : Nat}
    {view : View} (present : db.store.views.get session = some view) (elsewhere : ¬ Ours queue.name key view) :
    (view.locked.countP fun id => (db.store.rows.get id).any (inScope queue.name key)) = 0 := by
  rw [List.countP_eq_zero]
  intro id member within
  obtain ⟨row, stored, scope, -⟩ := base.locked present member
  rw [stored, Option.any_some] at within
  exact elsewhere (ours_of_row shape (fun same => (base.asking session view present same).2.2) within scope)

theorem locked_here (base : Base (Asks queue) db) {session : Nat} {view : View}
    (present : db.store.views.get session = some view) (ours : Ours queue.name key view) :
    (view.locked.countP fun id => (db.store.rows.get id).any (inScope queue.name key)) = view.locked.length := by
  rw [List.countP_eq_length]
  intro id member
  obtain ⟨row, stored, scope, -⟩ := base.locked present member
  rwa [stored, Option.any_some, ← ours.1, ← ours.2]

theorem starts_nil (shape : key.isSome = queue.partitioned) (base : Base (Asks queue) db)
    (none : claims queue.name key db event.2 = []) : starts queue.name key db event.2 = [] := by
  obtain ⟨now, act⟩ := event
  cases act with
  | commit session =>
    have empty : claimed queue.name key db session = [] := none
    simp only [starts]
    cases present : db.store.views.get session with
    | none => rfl
    | some view =>
      dsimp only
      split
      next committed =>
        by_cases ours : Ours queue.name key view
        · rw [claimed, present] at empty
          simp only [ours, committed, and_self, if_true] at empty
          simp [empty]
        · rw [locked_elsewhere shape base present ours]
          rfl
      next => rfl
  | _ => rfl

/-- The limit of every open dequeue of the scope is what its snapshot leaves. -/
theorem step_room (shared : Shared queue key sys event) (inv : Inv queue key sys) {session : Nat} {view' : View}
    (there : (next sys.db event).store.views.get session = some view') (ours : Ours queue.name key view') :
    (view'.data.limit : Int) ≤
      queue.rateLimit.limit - recentCount queue.name key (cutoff queue view'.data.now) view'.snapshot := by
  rcases step_view (next_step sys.db event) there with
    ⟨order, req, now, count, begun, some_, -, -, rfl⟩ | ⟨view, present, onward⟩
  · exact opened_room inv.base begun ours.1 ours.2 some_
      (shared.fits (req, now) (by rw [count]; exact begun) ours.1 ours.2)
  · obtain ⟨req, now, limit, snapshot⟩ := onward.request
    rw [limit, snapshot, now]
    exact inv.room session view present (by rwa [Ours, req] at ours)

theorem idle_inv (shape : key.isSome = queue.partitioned) (shared : Shared queue key sys event)
    (inv : Inv queue key sys)
    (none : claims queue.name key sys.db event.2 = []) : Inv queue key (watch queue.name key sys event) := by
  have step := next_step sys.db event
  have log : (watch queue.name key sys event).log = sys.log := by
    rw [watch, starts_nil shape inv.base none, List.append_nil]
  constructor
  case base => exact base_step step shared.asks inv.base
  case shown =>
    intro opens horizon
    have earlier := horizon.before step
    rw [log]
    exact (inv.shown opens (earlier.earlier shared.monotone)).trans (step_recent step inv.base shared.remembers earlier)
  case room => exact fun session view' there ours => step_room shared inv there ours
  case current =>
    intro session view' there ours
    rw [log]
    rcases step_view step there with ⟨order, req, now, -, begun, -, -, rows, rfl⟩ | ⟨view, present, onward⟩
    · exact .inr (inv.shown _ (.inr ⟨session, req, now, begun, ours.1, ours.2, le_rfl⟩))
    · obtain ⟨req, now, -, snapshot⟩ := onward.request
      rw [snapshot, now]
      exact (inv.current session view present (by rwa [Ours, req] at ours)).imp_left onward.harmless
  case limited => rw [log]; exact inv.limited

/-- A commit that claims rows of the scope: they fit into the window that ends with its reading of the clock,
and the other open dequeues of the scope fail. -/
theorem claimed_inv {now : DateTime} {session : Nat} {view : View}
    (shared : Shared queue key sys (now, .commit session))
    (inv : Inv queue key sys) (present : sys.db.store.views.get session = some view) (ours : Ours queue.name key view)
    (finished : Database.finished view = true) (accepted : sys.db.accepts view = true)
    (some_ : claims queue.name key sys.db (.commit session) ≠ []) :
    Inv queue key (watch queue.name key sys (now, .commit session)) := by
  have step := next_step sys.db (now, .commit session)
  have rows : claimed queue.name key sys.db session = view.locked := by
    simp [claimed, present, ours, finished, accepted]
  have committed : (next sys.db (now, .commit session)).store =
      sys.db.store.commit session (claimRecord view.data.now view.data.req) := by
    simp [next, Database.commit, present, finished, accepted]
  have log : (watch queue.name key sys (now, .commit session)).log =
      sys.log ++ List.replicate view.locked.length view.data.now.timestampMillis := by
    simp only [watch, starts, present, finished, accepted, and_self, if_true, locked_here inv.base present ours]
  have limit := inv.room session view present ours
  have locked := (inv.base.proper session view present).room
  constructor
  case base => exact base_step step shared.asks inv.base
  case shown =>
    intro opens horizon
    have earlier := horizon.before step
    have before := inv.shown opens (earlier.earlier shared.monotone)
    rw [log, Window.after_append, Window.after_replicate]
    split
    next opened =>
      have more := commit_recent inv.base present ours opened
      rw [watch, committed]
      omega
    next => exact before.trans (step_recent step inv.base shared.remembers earlier)
  case room => exact fun session view' there ours => step_room shared inv there ours
  case current =>
    intro other view' there ours'
    rw [watch, committed] at there
    obtain ⟨differs, old, before, rfl⟩ := (Snapshot.Store.commit_views present other view').mp there
    have here := shared.meets.resolve_left some_ (other, old) ((Table.mem_toList _ other old).mpr before)
    obtain idle | ⟨id, member, written⟩ := here (by simpa using Ne.symm differs) ours'
    · exact .inl (.inr idle)
    · exact .inl (.inl (doomed_miss ⟨id, member, written.imp_right fun taken => rows ▸ taken⟩))
  case limited =>
    rw [log]
    apply inv.limited.append
    rcases inv.current session view present ours with harmless | counted
    · exact absurd (rows.trans (harmless.locked finished)) some_
    · unfold cutoff at limit counted
      have taken : view.locked ≠ [] := rows ▸ some_
      have one := List.length_pos_iff.mpr taken
      omega

theorem watch_inv (shape : key.isSome = queue.partitioned) (shared : Shared queue key sys event)
    (inv : Inv queue key sys) : Inv queue key (watch queue.name key sys event) := by
  by_cases none : claims queue.name key sys.db event.2 = []
  · exact idle_inv shape shared inv none
  · obtain ⟨now, act⟩ := event
    cases act with
    | commit session =>
      cases present : sys.db.store.views.get session with
      | none => simp [claims, claimed, present] at none
      | some view =>
        by_cases commits : Ours queue.name key view ∧ Database.finished view ∧ sys.db.accepts view
        · exact claimed_inv shared inv present commits.1 commits.2.1 commits.2.2 none
        · simp [claims, claimed, present, commits] at none
    | _ => exact absurd rfl none

theorem Inv.new (queue : WorkflowQueue) (key : Option String) (start : DateTime) : Inv queue key (.new start) where
  base := .new _
  shown := fun _ _ => Nat.zero_le _
  room := fun _ _ present => nomatch present
  current := fun _ _ present => nomatch present
  limited := Window.limited_nil _ _

/-- In every interleaving of the executors' transactions in which each that claims rows of the scope meets
every other open one that may claim some at a row, and no start is taken away while it may be counted, no
window holds more claims than the limit. -/
theorem rate_limit_shared (queue : WorkflowQueue) (key : Option String) (shape : key.isSome = queue.partitioned)
    (start : DateTime) (events : List (DateTime × Event))
    (shared : Runs.Along (watch queue.name key) (Shared queue key) events (.new start)) :
    Window.Limited queue.rateLimit.limit.toNat queue.rateLimit.periodMs
      (Runs.run (watch queue.name key) events (.new start)).log :=
  (Runs.invariant (fun _ _ shared inv => watch_inv shape shared inv) shared (.new queue key start)).limited

/-! Runs of two executors. -/

def oneASecond : WorkflowQueue := { name := "q", rateLimit := { limit := 1, periodMs := 1000 } }

def oneASecondRequest (executor : String) : DequeueRequest where
  queueName := "q"
  executorId := executor
  appVersion := "v1"
  maxTasks := 10
  rateLimitMax := some 1
  rateLimitPeriodMs := some 1000

/-- The second executor takes its snapshot before the first commits, and then finds the first row claimed. -/
def latePoll : List (DateTime × Event) :=
  [(0, .write "a" (some (waitingRecord "v1" 0))), (0, .write "b" (some (waitingRecord "v1" 1))),
    (0, .begin 1 (oneASecondRequest "e1")), (1000000, .begin 2 (oneASecondRequest "e2")),
    (1000000, .count 1 ["a", "b"]), (1000000, .lock 1), (2000000, .count 2 ["a", "b"]), (2000000, .commit 1),
    (3000000, .lock 2), (3000000, .commit 2), (1000000000, .begin 3 (oneASecondRequest "e1")),
    (1000000000, .count 3 ["b"]), (1000000000, .lock 3), (1000000000, .commit 3)]

theorem rate_limit_shared_latePoll :
    Window.Limited 1 1000 (Runs.run (watch "q" none) latePoll (.new 0)).log ∧
      (Runs.run (watch "q" none) latePoll (.new 0)).log = [0, 1000] :=
  ⟨rate_limit_shared oneASecond none rfl 0 latePoll (by decide +kernel), by decide +kernel⟩

/-- The second executor passes by the row that the first has locked. -/
def passingPoll : List (DateTime × Event) :=
  [(0, .write "a" (some (waitingRecord "v1" 0))), (0, .write "b" (some (waitingRecord "v1" 1))),
    (0, .begin 1 (oneASecondRequest "e1")), (1000000, .begin 2 (oneASecondRequest "e2")),
    (1000000, .count 1 ["a", "b"]), (1000000, .count 2 ["a", "b"]), (2000000, .lock 1), (2000000, .lock 2),
    (2000000, .lock 2), (3000000, .commit 1), (3000000, .commit 2)]

/-- Neither snapshot shows the other's claim, and SKIP LOCKED keeps the two from meeting: both start a
workflow within the second. -/
theorem skipped_lock_exceeds :
    (∀ event ∈ passingPoll, ∀ req ∈ beginning event.2, Asks oneASecond req) ∧
      (passingPoll.map (·.1)).Pairwise (· ≤ ·) ∧
      (Runs.run (watch "q" none) passingPoll (.new 0)).log = [0, 1] ∧
      ¬ Window.Limited 1 1000 (Runs.run (watch "q" none) passingPoll (.new 0)).log := by
  have log : (Runs.run (watch "q" none) passingPoll (.new 0)).log = [0, 1] := by decide +kernel
  refine ⟨by decide +kernel, by decide, log, ?_⟩
  rw [log]
  intro limited
  exact absurd (limited (-1)) (by decide)

end Watch

end Durare.SharedRate

import Durare.Snapshot
import Durare.Sqlite
import Durare.Runs

/-! Dequeues on Postgres. A request with a cap runs in one REPEATABLE READ transaction: it counts and
scans in its snapshot, locks its candidates one by one and claims what it has locked. -/
namespace Durare.Postgres

open Sqlite (WorkflowRecord)

def inScope (name : String) (key : Option String) (row : WorkflowRecord) : Bool :=
  row.queueName == some name && (key.isNone || row.queuePartitionKey == key)

def isPending (name : String) (key : Option String) (row : WorkflowRecord) : Bool :=
  inScope name key row && row.status == .pending

def isRecent (name : String) (key : Option String) (cutoff : Int) (row : WorkflowRecord) : Bool :=
  inScope name key row && row.rateLimited && row.status != .enqueued && row.status != .delayed &&
    row.startedAtMs.any (cutoff < ·)

def pendingCount (name : String) (key : Option String) (rows : Table String WorkflowRecord) : Nat :=
  rows.values.countP (isPending name key)

def recentCount (name : String) (key : Option String) (cutoff : Int) (rows : Table String WorkflowRecord) : Nat :=
  rows.values.countP (isRecent name key cutoff)

/-- The LIMIT of the candidate scan. -/
def dequeueLimit (now : DateTime) (req : DequeueRequest) (rows : Table String WorkflowRecord) : Int :=
  let byRate := match req.rateLimitMax, req.rateLimitPeriodMs with
    | some limit, some period =>
      let recent := recentCount req.queueName req.partitionKey (asI64 (now.timestampMillis - period)) rows
      min req.maxTasks (max (asI64 (limit - recent)) 0)
    | _, _ => req.maxTasks
  match req.globalConcurrency with
  | some global => min byRate (max (asI64 (global - pendingCount req.queueName req.partitionKey rows)) 0)
  | none => byRate

def isLatest (req : DequeueRequest) (versions : Table String VersionInfo) : Bool :=
  match Memory.minBy (fun v => -v.versionTimestamp) versions.values with
  | some latest => latest.versionName == req.appVersion
  | none => true

/-- An unversioned row is NULL, and no version equals NULL. -/
def claimable (req : DequeueRequest) (latest : Bool) (row : WorkflowRecord) : Bool :=
  inScope req.queueName req.partitionKey row && row.status == .enqueued &&
    (row.applicationVersion == some req.appVersion || (row.applicationVersion.isNone && latest))

def inOrder (rows : Table String WorkflowRecord) (a b : String) : Bool :=
  match rows.get a, rows.get b with
  | some a, some b =>
    decide (a.priority < b.priority) || a.priority == b.priority && decide (a.createdAt ≤ b.createdAt)
  | _, _ => false

/-- A result of the candidate scan before its locks and its limit. -/
def Scans (req : DequeueRequest) (latest : Bool) (rows : Table String WorkflowRecord) (order : List String) : Prop :=
  order.Perm (rows.keysOf (claimable req latest)) ∧ order.Pairwise fun a b => inOrder rows a b = true

instance (req : DequeueRequest) (latest : Bool) (rows : Table String WorkflowRecord) (order : List String) :
    Decidable (Scans req latest rows order) := inferInstanceAs (Decidable (_ ∧ _))

/-- `CASE WHEN workflow_timeout_ms IS NOT NULL AND workflow_deadline_epoch_ms IS NULL`. -/
def claimDeadline (now : DateTime) : Option Int → Option Int → Option Int
  | some timeout, none => some (now.timestampMillis + timeout)
  | _, deadline => deadline

def claimRecord (now : DateTime) (req : DequeueRequest) (row : WorkflowRecord) : WorkflowRecord :=
  { row with
    status := .pending
    executorId := some req.executorId
    applicationVersion := nonEmpty (some req.appVersion)
    startedAtMs := some now.timestampMillis
    rateLimited := req.rateLimitMax.isSome
    updatedAt := now.timestampMillis
    deadlineMs := claimDeadline now row.timeoutMs row.deadlineMs }

theorem claimRecord_idem (now : DateTime) (req : DequeueRequest) (row : WorkflowRecord) :
    claimRecord now req (claimRecord now req row) = claimRecord now req row := by
  have deadline : claimDeadline now row.timeoutMs (claimDeadline now row.timeoutMs row.deadlineMs) =
      claimDeadline now row.timeoutMs row.deadlineMs := by
    cases row.timeoutMs <;> cases row.deadlineMs <;> rfl
  simp only [claimRecord, deadline]

/-- The database refuses a deadline out of range. -/
def deadlineInRange (now : DateTime) (row : WorkflowRecord) : Bool :=
  row.deadlineMs.isSome || row.timeoutMs.all fun timeout =>
    let deadline := now.timestampMillis + timeout
    asI64 deadline == deadline

/-- A dequeue after its counts: its limit and the candidates that it has not yet tried to lock. -/
structure Claim where
  req : DequeueRequest
  now : DateTime
  limit : Nat
  scan : List String
deriving DecidableEq

abbrev View := Snapshot.View String WorkflowRecord Claim

/-- The committed rows and the transactions of the dequeues: `begun` has those that have read the clock
and not yet queried. -/
structure Database where
  store : Snapshot.Store Nat String WorkflowRecord Claim
  begun : Table Nat (DequeueRequest × DateTime)
  versions : Table String VersionInfo
deriving DecidableEq

def Database.new : Database := ⟨.new, ∅, ∅⟩

/-- The steps of the dequeue transactions, and what other transactions commit. -/
inductive Event where
  | begin (session : Nat) (req : DequeueRequest)
  | count (session : Nat) (order : List String)
  | lock (session : Nat)
  | busy (session : Nat)
  | commit (session : Nat)
  | fail (session : Nat)
  | write (id : String) (row : Option WorkflowRecord)
  | register (versions : Table String VersionInfo)
deriving DecidableEq

namespace Database

variable (db : Database) (session : Nat)

def fresh : Bool := (db.store.views.get session).isNone && (db.begun.get session).isNone

/-- Without a cap the transaction is READ COMMITTED and none of these. -/
def begin (now : DateTime) (req : DequeueRequest) : Database :=
  if db.fresh session ∧ (req.globalConcurrency.isSome ∨ req.rateLimitMax.isSome) then
    { db with begun := db.begun.put session (req, now) }
  else db

def count (order : List String) : Database :=
  match db.begun.get session with
  | none => db
  | some (req, now) =>
    let limit := dequeueLimit now req db.store.rows
    if limit ≤ 0 then { db with begun := db.begun.erase session }
    else if Scans req (isLatest req db.versions) db.store.rows order then
      { db with
        store := db.store.begin session { req := req, now := now, limit := limit.toNat, scan := order }
        begun := db.begun.erase session }
    else db

def abort : Database := { db with store := db.store.close session, begun := db.begun.erase session }

/-- The next candidate is locked by another transaction: NOWAIT fails, SKIP LOCKED passes it by. -/
def refused (view : View) (rest : List String) : Database :=
  if view.data.req.globalConcurrency.isSome then db.abort session
  else { db with store := db.store.update session fun view => { view with data := { view.data with scan := rest } } }

/-- Tries the next candidate, where `taken` tells which rows are locked. A row that has been written since
the snapshot fails the transaction. -/
def tryNext (taken : String → Bool) : Database :=
  match db.store.views.get session with
  | none => db
  | some view =>
    match view.data.scan with
    | [] => db
    | id :: rest =>
      if view.locked.length < view.data.limit then
        if id ∈ view.overwritten then db.abort session
        else if taken id then db.refused session view rest
        else { db with store := db.store.update session fun view =>
          { view with locked := view.locked ++ [id], data := { view.data with scan := rest } } }
      else db

def lock : Database := db.tryNext session (db.store.heldByOther session)

/-- A transaction that is not a dequeue holds the next candidate. -/
def busy : Database := db.tryNext session fun _ => true

def finished (view : View) : Bool := view.locked.length == view.data.limit || view.data.scan.isEmpty

/-- The database accepts the claims of the transaction. -/
def accepts (view : View) : Bool :=
  view.locked.all fun id => (db.store.rows.get id).all (deadlineInRange view.data.now)

def commit : Database :=
  match db.store.views.get session with
  | none => db
  | some view =>
    if finished view then
      if db.accepts view then { db with store := db.store.commit session (claimRecord view.data.now view.data.req) }
      else db.abort session
    else db

def write (id : String) (row : Option WorkflowRecord) : Database :=
  if db.store.held id then db else { db with store := db.store.write id row }

end Database

def next (db : Database) (event : DateTime × Event) : Database :=
  match event.2 with
  | .begin session req => db.begin session event.1 req
  | .count session order => db.count session order
  | .lock session => db.lock session
  | .busy session => db.busy session
  | .commit session => db.commit session
  | .fail session => db.abort session
  | .write id row => db.write id row
  | .register versions => { db with versions := versions }

abbrev run (events : List (DateTime × Event)) (db : Database) : Database := Runs.run next events db

def advance (id : String) (rest : List String) (view : View) : View :=
  { view with locked := view.locked ++ [id], data := { view.data with scan := rest } }

def skip (rest : List String) (view : View) : View := { view with data := { view.data with scan := rest } }

inductive Step (db : Database) : DateTime × Event → Database → Prop where
  | same (event) : Step db event db
  | begun (now session req) : Step db (now, .begin session req) { db with begun := db.begun.put session (req, now) }
  | declined (time session order) : Step db (time, .count session order) { db with begun := db.begun.erase session }
  | opened (time session order req now) (ready : db.begun.get session = some (req, now))
      (room : 0 < dequeueLimit now req db.store.rows)
      (scans : Scans req (isLatest req db.versions) db.store.rows order) :
    Step db (time, .count session order)
      { db with
        store := db.store.begin session
          { req := req, now := now, limit := (dequeueLimit now req db.store.rows).toNat, scan := order }
        begun := db.begun.erase session }
  | aborted (event session)
      (here : event.2 = .lock session ∨ event.2 = .busy session ∨ event.2 = .commit session ∨ event.2 = .fail session) :
    Step db event (db.abort session)
  | locked (time session view id rest) (present : db.store.views.get session = some view)
      (scanned : view.data.scan = id :: rest) (short : view.locked.length < view.data.limit)
      (kept : id ∉ view.overwritten) (free : db.store.heldByOther session id = false) :
    Step db (time, .lock session) { db with store := db.store.update session (advance id rest) }
  | skipped (event session view id rest) (here : event.2 = .lock session ∨ event.2 = .busy session)
      (present : db.store.views.get session = some view) (scanned : view.data.scan = id :: rest)
      (short : view.locked.length < view.data.limit) (kept : id ∉ view.overwritten)
      (skips : view.data.req.globalConcurrency = none) :
    Step db event { db with store := db.store.update session (skip rest) }
  | committed (time session view) (present : db.store.views.get session = some view)
      (finished : Database.finished view = true) (accepted : db.accepts view = true) :
    Step db (time, .commit session)
      { db with store := db.store.commit session (claimRecord view.data.now view.data.req) }
  | written (time id row) (free : db.store.held id = false) :
    Step db (time, .write id row) { db with store := db.store.write id row }
  | registered (time versions) : Step db (time, .register versions) { db with versions := versions }

theorem refused_step {db : Database} {event : DateTime × Event} {session : Nat} {view : View} {id : String}
    {rest : List String} (here : event.2 = .lock session ∨ event.2 = .busy session)
    (present : db.store.views.get session = some view) (scanned : view.data.scan = id :: rest)
    (short : view.locked.length < view.data.limit) (kept : id ∉ view.overwritten) :
    Step db event (db.refused session view rest) := by
  unfold Database.refused
  split
  · exact .aborted event session (here.imp_right .inl)
  next skips => exact .skipped event session view id rest here present scanned short kept (by simpa using skips)

theorem tryNext_step {db : Database} {event : DateTime × Event} {session : Nat} {taken : String → Bool}
    (here : event.2 = .lock session ∨ event.2 = .busy session)
    (locks : ∀ id, taken id = false → event.2 = .lock session ∧ db.store.heldByOther session id = false) :
    Step db event (db.tryNext session taken) := by
  unfold Database.tryNext
  split
  · exact .same event
  next view present =>
  split
  · exact .same event
  next id rest scanned =>
  split
  next short =>
    split
    · exact .aborted event session (here.imp_right .inl)
    next kept =>
      split
      · exact refused_step here present scanned short kept
      next untaken =>
        obtain ⟨time, act⟩ := event
        obtain ⟨rfl, free⟩ := locks id (by simpa using untaken)
        exact .locked time session view id rest present scanned short kept free
  · exact .same event

theorem next_step (db : Database) (event : DateTime × Event) : Step db event (next db event) := by
  obtain ⟨now, event⟩ := event
  cases event with
  | begin session req =>
    simp only [next, Database.begin]
    split
    · exact .begun now session req
    · exact .same _
  | count session order =>
    simp only [next, Database.count]
    split
    · exact .same _
    next req time ready =>
      split
      · exact .declined now session order
      next room =>
        split
        next scans => exact .opened now session order req time ready (by omega) scans
        · exact .same _
  | lock session =>
    exact tryNext_step (.inl rfl) fun id untaken => ⟨rfl, untaken⟩
  | busy session =>
    exact tryNext_step (.inr rfl) fun id untaken => nomatch untaken
  | commit session =>
    simp only [next, Database.commit]
    split
    · exact .same _
    next view present =>
      split
      next finished =>
        split
        next accepted => exact .committed now session view present finished accepted
        · exact .aborted _ session (.inr (.inr (.inl rfl)))
      · exact .same _
  | fail session => exact .aborted _ session (.inr (.inr (.inr rfl)))
  | write id row =>
    simp only [next, Database.write]
    split
    · exact .same _
    next free => exact .written now id row (by simpa using free)
  | register versions => exact .registered now versions

end Durare.Postgres

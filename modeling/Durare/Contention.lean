import Durare.Postgres

/-! What the dequeue transactions of one queue do to each other. A transaction whose counts another has
made stale is harmless if it has still to lock a row that the other has written. -/
namespace Durare.Contention

open Postgres
open Sqlite (WorkflowRecord)

/-- The candidates that the transaction has to lock before its scan is over. -/
def toLock (view : View) : List String := view.data.scan.take (view.data.limit - view.locked.length)

/-- The transaction has still to lock a row that has been written since its snapshot, and fails there. -/
def Doomed (view : View) : Prop := ∃ id ∈ toLock view, id ∈ view.overwritten

instance (view : View) : Decidable (Doomed view) := inferInstanceAs (Decidable (∃ id ∈ _, _))

def Idle (view : View) : Prop := view.locked = [] ∧ toLock view = []

instance (view : View) : Decidable (Idle view) := inferInstanceAs (Decidable (_ ∧ _))

/-- The transaction fails, or claims nothing. -/
def Harmless (view : View) : Prop := Doomed view ∨ Idle view

/-- The candidates are distinct rows that wait on the queue in the transaction's snapshot. -/
structure Proper (view : View) : Prop where
  distinct : (view.locked ++ view.data.scan).Nodup
  waiting : ∀ id ∈ view.locked ++ view.data.scan, ∃ row, view.snapshot.get id = some row ∧
    inScope view.data.req.queueName view.data.req.partitionKey row = true ∧ row.status = .enqueued
  room : view.locked.length ≤ view.data.limit

section Views

variable {db db' : Database} {event : DateTime × Event} {session : Nat} {view view' : View}

theorem Doomed.unfinished (doomed : Doomed view) : Database.finished view = false := by
  obtain ⟨id, member, -⟩ := doomed
  by_contra overrun
  simp only [Database.finished, Bool.not_eq_false, Bool.or_eq_true, beq_iff_eq, List.isEmpty_iff] at overrun
  rcases overrun with full | empty
  · simp [toLock, full] at member
  · simp [toLock, empty] at member

/-- A transaction that finishes while it is harmless claims nothing. -/
theorem Harmless.locked (harmless : Harmless view) (finished : Database.finished view = true) : view.locked = [] := by
  rcases harmless with doomed | idle
  · rw [doomed.unfinished] at finished
    cases finished
  · exact idle.1

theorem Idle.scanned {id : String} {rest : List String} (idle : Idle view)
    (short : view.locked.length < view.data.limit) : view.data.scan ≠ id :: rest := by
  intro scanned
  obtain ⟨left, more⟩ := Nat.exists_eq_succ_of_ne_zero (Nat.sub_ne_zero_of_lt short)
  have empty := idle.2
  rw [toLock, scanned, more, List.take_succ_cons] at empty
  cases empty

/-- A candidate that is passed by does not save the transaction. -/
theorem Doomed.next {id : String} {rest : List String} (scanned : view.data.scan = id :: rest)
    (short : view.locked.length < view.data.limit) (kept : id ∉ view.overwritten) (doomed : Doomed view) :
    ∃ key ∈ rest.take (view.data.limit - view.locked.length - 1), key ∈ view.overwritten := by
  obtain ⟨key, member, written⟩ := doomed
  obtain ⟨left, more⟩ := Nat.exists_eq_succ_of_ne_zero (Nat.sub_ne_zero_of_lt short)
  rw [toLock, scanned, more, List.take_succ_cons] at member
  rcases List.mem_cons.mp member with rfl | member
  · exact absurd written kept
  · exact ⟨key, by rwa [more], written⟩

theorem Doomed.advance {id : String} {rest : List String} (scanned : view.data.scan = id :: rest)
    (short : view.locked.length < view.data.limit) (kept : id ∉ view.overwritten) (doomed : Doomed view) :
    Doomed (advance id rest view) := by
  obtain ⟨key, member, written⟩ := doomed.next scanned short kept
  refine ⟨key, ?_, written⟩
  rw [toLock, Postgres.advance, List.length_append, List.length_singleton]
  rwa [Nat.sub_sub] at member

theorem Doomed.skip {id : String} {rest : List String} (scanned : view.data.scan = id :: rest)
    (short : view.locked.length < view.data.limit) (kept : id ∉ view.overwritten) (doomed : Doomed view) :
    Doomed (skip rest view) := by
  obtain ⟨key, member, written⟩ := doomed.next scanned short kept
  exact ⟨key, List.take_subset_take_left rest (Nat.sub_le ..) member, written⟩

theorem doomed_miss {keys : List String} (contended : ∃ id ∈ toLock view, id ∈ view.overwritten ∨ id ∈ keys) :
    Doomed (view.miss keys) := by
  obtain ⟨id, member, written⟩ := contended
  exact ⟨id, member, List.mem_append.mpr written⟩

/-- A transaction with its snapshot and its limit, before it has locked a row. -/
def opened (req : DequeueRequest) (now : DateTime) (order : List String) (rows : Table String WorkflowRecord) :
    View where
  snapshot := rows
  data := { req := req, now := now, limit := (dequeueLimit now req rows).toNat, scan := order }

theorem get_update {f : View → View} {other : Nat}
    (there : (db.store.update session f).views.get other = some view') :
    db.store.views.get other = some view' ∨
      other = session ∧ ∃ view, db.store.views.get session = some view ∧ view' = f view := by
  simp only [Snapshot.Store.update, Table.get_modify] at there
  split at there
  next same =>
    obtain ⟨view, present, rfl⟩ := Option.map_eq_some_iff.mp there
    exact .inr ⟨same, view, present, rfl⟩
  next => exact .inl there

theorem get_abort {other : Nat} (there : (db.abort session).store.views.get other = some view') :
    db.store.views.get other = some view' := by
  simp only [Database.abort, Snapshot.Store.close, Table.get_erase] at there
  split at there
  · cases there
  · exact there

end Views

/-- What one event makes of an open transaction. -/
inductive Onward (db db' : Database) (event : DateTime × Event) (session : Nat) (view : View) : View → Prop where
  | kept (rows : db'.store.rows = db.store.rows) : Onward db db' event session view view
  | locked (id rest) (rows : db'.store.rows = db.store.rows) (scanned : view.data.scan = id :: rest)
      (short : view.locked.length < view.data.limit) (clean : id ∉ view.overwritten) :
    Onward db db' event session view (advance id rest view)
  | skipped (id rest) (rows : db'.store.rows = db.store.rows) (scanned : view.data.scan = id :: rest)
      (short : view.locked.length < view.data.limit) (clean : id ∉ view.overwritten) :
    Onward db db' event session view (skip rest view)
  | committed (other view') (differs : session ≠ other) (here : event.2 = .commit other)
      (present : db.store.views.get other = some view') (finished : Database.finished view' = true)
      (accepted : db.accepts view' = true)
      (store : db'.store = db.store.commit other (claimRecord view'.data.now view'.data.req)) :
    Onward db db' event session view (view.miss view'.locked)
  | written (id row) (here : event.2 = .write id row) (free : db.store.held id = false)
      (store : db'.store = db.store.write id row) : Onward db db' event session view (view.miss [id])

section Steps

variable {db db' : Database} {event : DateTime × Event}

/-- An open transaction has opened with the event, or was open before it. -/
theorem step_view (step : Step db event db') {session : Nat} {view' : View}
    (there : db'.store.views.get session = some view') :
    (∃ order req now, event.2 = .count session order ∧ db.begun.get session = some (req, now) ∧
      0 < dequeueLimit now req db.store.rows ∧ Scans req (isLatest req db.versions) db.store.rows order ∧
      db'.store.rows = db.store.rows ∧ view' = opened req now order db.store.rows) ∨
    ∃ view, db.store.views.get session = some view ∧ Onward db db' event session view view' := by
  cases step with
  | same | begun | declined | registered => exact .inr ⟨view', there, .kept rfl⟩
  | opened time one order req now ready room scans =>
    simp only [Snapshot.Store.begin, Table.get_put] at there
    split at there
    next same =>
      subst same
      exact .inl ⟨order, req, now, rfl, ready, room, scans, rfl, (Option.some.inj there).symm⟩
    next => exact .inr ⟨view', there, .kept rfl⟩
  | aborted event one here => exact .inr ⟨view', get_abort there, .kept rfl⟩
  | locked time one view id rest present scanned short clean free =>
    rcases get_update there with old | ⟨rfl, view, old, rfl⟩
    · exact .inr ⟨view', old, .kept rfl⟩
    · cases present.symm.trans old
      exact .inr ⟨view, old, .locked id rest rfl scanned short clean⟩
  | skipped event one view id rest here present scanned short clean skips =>
    rcases get_update there with old | ⟨rfl, view, old, rfl⟩
    · exact .inr ⟨view', old, .kept rfl⟩
    · cases present.symm.trans old
      exact .inr ⟨view, old, .skipped id rest rfl scanned short clean⟩
  | committed time other claim present finished accepted =>
    obtain ⟨differs, old, before, rfl⟩ := (Snapshot.Store.commit_views present session view').mp there
    exact .inr ⟨old, before, .committed other claim differs rfl present finished accepted rfl⟩
  | written time id row free =>
    obtain ⟨old, before, rfl⟩ := Snapshot.Store.write_views.mp there
    exact .inr ⟨old, before, .written id row rfl free rfl⟩

def beginning : Event → Option DequeueRequest
  | .begin _ req => some req
  | _ => none

/-- The store is sound, the open transactions are proper, and all requests are of one kind. -/
structure Base (P : DequeueRequest → Prop) (db : Database) : Prop where
  sound : db.store.Sound
  proper : ∀ session view, db.store.views.get session = some view → Proper view
  asked : ∀ session req now, db.begun.get session = some (req, now) → P req
  asking : ∀ session view, db.store.views.get session = some view → P view.data.req

variable {P : DequeueRequest → Prop}

theorem Base.new (P : DequeueRequest → Prop) : Base P .new where
  sound := .new
  proper := fun _ _ present => nomatch present
  asked := fun _ _ _ present => nomatch present
  asking := fun _ _ present => nomatch present

theorem step_sound (step : Step db event db') (sound : db.store.Sound) : db'.store.Sound := by
  cases step with
  | same | begun | declined | registered => exact sound
  | opened => exact sound.begin _
  | aborted => exact sound.close
  | locked time session view id rest present scanned short clean free =>
    exact sound.acquire present free clean fun data => { data with scan := rest }
  | skipped event session view id rest => exact sound.keep fun data => { data with scan := rest }
  | committed time session view present => exact sound.commit (claimRecord_idem _ _) present
  | written time id row free => exact sound.write free

theorem opened_proper {req : DequeueRequest} {now : DateTime} {latest : Bool} {rows : Table String WorkflowRecord}
    {order : List String} (scans : Scans req latest rows order) : Proper (opened req now order rows) where
  distinct := (scans.1.nodup_iff).mpr (Table.nodup_keysOf ..)
  waiting := by
    intro id member
    obtain ⟨row, stored, eligible⟩ := (Table.mem_keysOf rows _ id).mp (scans.1.mem_iff.mp member)
    simp only [claimable, Bool.and_eq_true, beq_iff_eq] at eligible
    exact ⟨row, stored, eligible.1.1, eligible.1.2⟩
  room := Nat.zero_le _

theorem Onward.proper {session : Nat} {view view' : View} (onward : Onward db db' event session view view')
    (proper : Proper view) : Proper view' := by
  cases onward with
  | kept => exact proper
  | committed | written => exact ⟨proper.distinct, proper.waiting, proper.room⟩
  | locked id rest rows scanned short clean =>
    have order : view.locked ++ view.data.scan = (advance id rest view).locked ++ rest := by
      simp [advance, scanned]
    refine ⟨order ▸ proper.distinct, ?_, ?_⟩
    · intro key member
      exact proper.waiting key (order ▸ member)
    · rw [advance, List.length_append]
      exact short
  | skipped id rest rows scanned short clean =>
    have shorter : List.Sublist (view.locked ++ rest) (view.locked ++ view.data.scan) := by
      rw [scanned]
      exact (List.sublist_cons_self id rest).append_left _
    have waiting := fun key member => proper.waiting key (shorter.subset member)
    exact ⟨proper.distinct.sublist shorter, waiting, proper.room⟩

theorem Onward.request {session : Nat} {view view' : View} (onward : Onward db db' event session view view') :
    view'.data.req = view.data.req ∧ view'.data.now = view.data.now ∧ view'.data.limit = view.data.limit ∧
      view'.snapshot = view.snapshot := by
  cases onward <;> exact ⟨rfl, rfl, rfl, rfl⟩

theorem step_begun (step : Step db event db') {session : Nat} {req : DequeueRequest} {now : DateTime}
    (there : db'.begun.get session = some (req, now)) :
    event = (now, .begin session req) ∨ db.begun.get session = some (req, now) := by
  cases step with
  | begun time one asks =>
    simp only [Table.get_put] at there
    split at there
    next same =>
      cases there
      exact .inl (by rw [same])
    next => exact .inr there
  | declined | opened | aborted =>
    simp only [Database.abort, Table.get_erase] at there
    split at there
    · cases there
    · exact .inr there
  | _ => exact .inr there

theorem base_step (step : Step db event db') (asks : ∀ req ∈ beginning event.2, P req)
    (base : Base P db) : Base P db' where
  sound := step_sound step base.sound
  proper := by
    intro session view' there
    rcases step_view step there with ⟨order, req, now, -, -, -, scans, -, rfl⟩ | ⟨view, present, onward⟩
    · exact opened_proper scans
    · exact onward.proper (base.proper session view present)
  asked := by
    intro session req now there
    rcases step_begun step there with rfl | before
    · exact asks req rfl
    · exact base.asked session req now before
  asking := by
    intro session view' there
    rcases step_view step there with ⟨order, req, now, -, begun, -, -, -, rfl⟩ | ⟨view, present, onward⟩
    · exact base.asked session req now begun
    · rw [onward.request.1]
      exact base.asking session view present

/-- A transaction that the event leaves open fails after it if it was to fail before, or if the event
writes a row that it has still to lock. -/
theorem Onward.doomed {session : Nat} {view view' : View} (onward : Onward db db' event session view view')
    (doomed : Doomed view) : Doomed view' := by
  cases onward with
  | kept => exact doomed
  | locked id rest rows scanned short clean => exact doomed.advance scanned short clean
  | skipped id rest rows scanned short clean => exact doomed.skip scanned short clean
  | committed | written =>
    obtain ⟨id, member, written⟩ := doomed
    exact doomed_miss ⟨id, member, .inl written⟩

theorem Onward.harmless {session : Nat} {view view' : View} (onward : Onward db db' event session view view')
    (harmless : Harmless view) : Harmless view' := by
  refine harmless.imp onward.doomed fun idle => ?_
  cases onward with
  | locked id rest rows scanned short clean | skipped id rest rows scanned short clean =>
    exact absurd scanned (idle.scanned short)
  | kept | committed | written => exact idle

end Steps

structure CappedQueue where
  name : String
  globalConcurrency : Int
  partitioned : Bool := false
deriving DecidableEq, Repr

/-- Every executor asks for the queue with its cap, and for one partition where it is partitioned. -/
def Asks (queue : CappedQueue) (req : DequeueRequest) : Prop :=
  req.queueName = queue.name →
    req.globalConcurrency = some queue.globalConcurrency ∧ req.partitionKey.isSome = queue.partitioned

instance (queue : CappedQueue) (req : DequeueRequest) : Decidable (Asks queue req) :=
  inferInstanceAs (Decidable (_ → _))

def Ours (name : String) (key : Option String) (view : View) : Prop :=
  view.data.req.queueName = name ∧ view.data.req.partitionKey = key

instance (name : String) (key : Option String) (view : View) : Decidable (Ours name key view) :=
  inferInstanceAs (Decidable (_ ∧ _))

/-- The rows of the scope that the session's commit claims. -/
def claimed (name : String) (key : Option String) (db : Database) (session : Nat) : List String :=
  match db.store.views.get session with
  | some view => if Ours name key view ∧ Database.finished view ∧ db.accepts view then view.locked else []
  | none => []

/-- The rows of the scope that the event adds to the PENDING ones: the claims of a dequeue that commits, or
a row that another transaction writes. -/
def adds (name : String) (key : Option String) (db : Database) : Event → List String
  | .commit session => claimed name key db session
  | .write id row =>
    if db.store.held id = false ∧ row.any (isPending name key) ∧ !(db.store.rows.get id).any (isPending name key)
    then [id] else []
  | _ => []

/-- If there are such rows, every other open dequeue of the scope claims nothing, or has still to lock one of
them, or one that has been written since its snapshot. -/
def Meets (name : String) (key : Option String) (db : Database) (event : Event) (rows : List String) : Prop :=
  rows = [] ∨ ∀ entry ∈ db.store.views.toList, event ≠ .commit entry.1 → Ours name key entry.2 →
    Idle entry.2 ∨ ∃ id ∈ toLock entry.2, id ∈ entry.2.overwritten ∨ id ∈ rows

instance (name : String) (key : Option String) (db : Database) (event : Event) (rows : List String) :
    Decidable (Meets name key db event rows) := inferInstanceAs (Decidable (_ ∨ ∀ entry ∈ _, _ → _ → _ ∨ _))

def counted (db : Database) : Event → Option (DequeueRequest × DateTime)
  | .count session _ => db.begun.get session
  | _ => none

/-- One step of the executors that share the queue: they ask with its cap, the slots that are left fit in
64 bits, and a transaction that claims rows meets every other open one of the scope that may claim some at a
row. -/
structure Shared (queue : CappedQueue) (key : Option String) (db : Database) (event : DateTime × Event) : Prop where
  asks : ∀ req ∈ beginning event.2, Asks queue req
  fits : ∀ asked ∈ counted db event.2, asked.1.queueName = queue.name → asked.1.partitionKey = key →
    asI64 (queue.globalConcurrency - pendingCount queue.name key db.store.rows) =
      queue.globalConcurrency - pendingCount queue.name key db.store.rows
  contended : Meets queue.name key db event.2 (adds queue.name key db event.2)

instance (queue : CappedQueue) (key : Option String) (db : Database) (event : DateTime × Event) :
    Decidable (Shared queue key db event) :=
  decidable_of_iff ((∀ req ∈ beginning event.2, Asks queue req) ∧
      (∀ asked ∈ counted db event.2, asked.1.queueName = queue.name → asked.1.partitionKey = key →
        asI64 (queue.globalConcurrency - pendingCount queue.name key db.store.rows) =
          queue.globalConcurrency - pendingCount queue.name key db.store.rows) ∧
      Meets queue.name key db event.2 (adds queue.name key db event.2))
    ⟨fun ⟨asks, fits, contended⟩ => ⟨asks, fits, contended⟩,
      fun shared => ⟨shared.asks, shared.fits, shared.contended⟩⟩

/-- An open dequeue of the scope fails or claims nothing, or its snapshot shows all that is PENDING now. -/
structure CapInv (queue : CappedQueue) (key : Option String) (db : Database) : Prop where
  base : Base (Asks queue) db
  room : ∀ session view, db.store.views.get session = some view → Ours queue.name key view →
    (view.data.limit : Int) ≤ queue.globalConcurrency - pendingCount queue.name key view.snapshot
  current : ∀ session view, db.store.views.get session = some view → Ours queue.name key view →
    Harmless view ∨ pendingCount queue.name key db.store.rows ≤ pendingCount queue.name key view.snapshot

section Cap

variable {db db' : Database} {event : DateTime × Event} {queue : CappedQueue} {key : Option String}

/-- What a transaction has locked stands in its scope, as its snapshot shows it. -/
theorem Base.locked {P : DequeueRequest → Prop} (base : Base P db) {session : Nat} {view : View}
    (present : db.store.views.get session = some view) {id : String} (member : id ∈ view.locked) :
    ∃ row, db.store.rows.get id = some row ∧
      inScope view.data.req.queueName view.data.req.partitionKey row = true ∧ row.status = .enqueued := by
  have proper := base.proper session view present
  obtain ⟨row, stored, scope, waits⟩ := proper.waiting id (List.mem_append_left _ member)
  exact ⟨row, (base.sound.locked_current present member).trans stored, scope, waits⟩

/-- The claims of a transaction on a row of the scope are claims of a dequeue of the scope. -/
theorem ours_of_row {view : View} {row : WorkflowRecord} {partitioned : Bool} {name : String}
    (shape : key.isSome = partitioned)
    (form : view.data.req.queueName = name → view.data.req.partitionKey.isSome = partitioned)
    (here : inScope name key row = true)
    (theirs : inScope view.data.req.queueName view.data.req.partitionKey row = true) : Ours name key view := by
  simp only [inScope, Bool.and_eq_true, Bool.or_eq_true, beq_iff_eq, Option.isNone_iff_eq_none] at here theirs
  have same : view.data.req.queueName = name := Option.some.inj (theirs.1.symm.trans here.1)
  exact ⟨same, partition_eq ((form same).trans shape.symm) here.2 theirs.2⟩

theorem step_pending (shape : key.isSome = queue.partitioned) (step : Step db event db') (base : Base (Asks queue) db) :
    pendingCount queue.name key db'.store.rows ≤
      (adds queue.name key db event.2).length + pendingCount queue.name key db.store.rows := by
  cases step with
  | committed time session view present finished accepted =>
    apply Table.countP_values_le
    intro id row stored pending
    rw [Snapshot.Store.commit_rows (claimRecord_idem _ _) present] at stored
    split at stored
    next member =>
      obtain ⟨old, before, scope, waits⟩ := base.locked present member
      rw [before] at stored
      cases stored
      have here : inScope queue.name key old = true := (Bool.and_eq_true _ _ ▸ pending).1
      have ours := ours_of_row shape (fun same => (base.asking session view present same).2) here scope
      left
      simpa [adds, claimed, present, ours, finished, accepted] using member
    next => exact .inr ⟨row, stored, pending⟩
  | written time id row free =>
    apply Table.countP_values_le
    intro id' row' stored pending
    rw [Snapshot.Store.write_rows] at stored
    split at stored
    next same =>
      subst same
      cases before : db.store.rows.get id' with
      | none => exact .inl (by simp [adds, free, stored, pending, before])
      | some old =>
        by_cases was : isPending queue.name key old = true
        · exact .inr ⟨old, rfl, was⟩
        · exact .inl (by simp [adds, free, stored, pending, before, was])
    next => exact .inr ⟨row', stored, pending⟩
  | _ => exact Nat.le_add_left ..

theorem dequeueLimit_le (now : DateTime) {req : DequeueRequest} (rows : Table String WorkflowRecord) {cap : Int}
    (global : req.globalConcurrency = some cap) :
    dequeueLimit now req rows ≤ max (asI64 (cap - pendingCount req.queueName req.partitionKey rows)) 0 := by
  unfold dequeueLimit
  rw [global]
  exact min_le_right _ _

theorem mem_claimed {session : Nat} {view : View} {name id : String} (present : db.store.views.get session = some view)
    (member : id ∈ claimed name key db session) : id ∈ view.locked := by
  simp only [claimed, present] at member
  split at member
  · exact member
  · cases member

theorem adds_write {target id : String} {row : Option WorkflowRecord} {name : String}
    (member : id ∈ adds name key db (.write target row)) : id ∈ [target] := by
  simp only [adds] at member
  split at member
  · exact member
  · cases member

/-- An open transaction fails after an event whose rows it meets, unless the event writes nothing. -/
theorem Onward.meets {session : Nat} {view view' : View} {name : String} {rows : List String}
    (onward : Onward db db' event session view view') (present : db.store.views.get session = some view)
    (ours : Ours name key view) (meets : Meets name key db event.2 rows) (some_ : rows ≠ [])
    (commits : ∀ other claim, event.2 = .commit other → db.store.views.get other = some claim →
      ∀ id ∈ rows, id ∈ claim.locked)
    (writes : ∀ target row, event.2 = .write target row → ∀ id ∈ rows, id ∈ [target]) :
    Harmless view' ∨ db'.store.rows = db.store.rows := by
  have here := meets.resolve_left some_ (session, view) ((Table.mem_toList _ session view).mpr present)
  cases onward with
  | kept same | locked _ _ same | skipped _ _ same => exact .inr same
  | committed other claim differs is there finished accepted store =>
    obtain idle | ⟨id, member, written⟩ := here (by rw [is]; simpa using Ne.symm differs) ours
    · exact .inl (.inr idle)
    · exact .inl (.inl (doomed_miss ⟨id, member, written.imp_right (commits other claim is there id)⟩))
  | written target row is free store =>
    obtain idle | ⟨id, member, written⟩ := here (by rw [is]; simp) ours
    · exact .inl (.inr idle)
    · exact .inl (.inl (doomed_miss ⟨id, member, written.imp_right (writes target row is id)⟩))

theorem step_cap (shape : key.isSome = queue.partitioned) (step : Step db event db')
    (shared : Shared queue key db event) (inv : CapInv queue key db) : CapInv queue key db' where
  base := base_step step shared.asks inv.base
  room := by
    intro session view' there ours
    rcases step_view step there with ⟨order, req, now, count, begun, some_, -, -, rfl⟩ | ⟨view, present, onward⟩
    · obtain ⟨name, part⟩ := ours
      have fits := shared.fits (req, now) (by rw [count]; exact begun) name part
      have limit := dequeueLimit_le now db.store.rows (inv.base.asked session req now begun name).1
      dsimp only [opened] at name part ⊢
      rw [name, part, fits] at limit
      omega
    · obtain ⟨req, -, limit, snapshot⟩ := onward.request
      rw [limit, snapshot]
      exact inv.room session view present (by rwa [Ours, req] at ours)
  current := by
    intro session view' there ours
    rcases step_view step there with ⟨order, req, now, -, -, -, -, rows, rfl⟩ | ⟨view, present, onward⟩
    · exact .inr (rows ▸ le_rfl)
    obtain ⟨req, -, -, snapshot⟩ := onward.request
    have ours' : Ours queue.name key view := by rwa [Ours, req] at ours
    rcases inv.current session view present ours' with harmless | fresh
    · exact .inl (onward.harmless harmless)
    · have more := step_pending shape step inv.base
      by_cases none : adds queue.name key db event.2 = []
      · rw [none, List.length_nil, Nat.zero_add] at more
        exact .inr (snapshot ▸ more.trans fresh)
      · have meets := onward.meets present ours' shared.contended none
          (fun other claim is there id member => mem_claimed there (by rwa [is] at member))
          (fun target row is id member => adds_write (by rwa [is] at member))
        rcases meets with harmless | rows
        · exact .inl harmless
        · exact .inr (by rwa [rows, snapshot])

theorem CapInv.new (queue : CappedQueue) (key : Option String) : CapInv queue key .new where
  base := .new _
  room := fun _ _ present => nomatch present
  current := fun _ _ present => nomatch present

/-- A dequeue that commits leaves no more rows PENDING than there were or than the cap allows. -/
theorem commit_capped (shape : key.isSome = queue.partitioned) (inv : CapInv queue key db) (now : DateTime)
    (session : Nat) :
    (pendingCount queue.name key (next db (now, .commit session)).store.rows : Int) ≤
      max (pendingCount queue.name key db.store.rows : Int) queue.globalConcurrency := by
  have step := next_step db (now, .commit session)
  have more := step_pending shape step inv.base
  by_cases none : adds queue.name key db (.commit session) = []
  · rw [none, List.length_nil] at more
    omega
  · cases present : db.store.views.get session with
    | none => simp [adds, claimed, present] at none
    | some view =>
      simp only [adds, claimed, present] at none more
      split at none
      next committed =>
        rw [if_pos committed] at more
        obtain ⟨ours, finished, -⟩ := committed
        have room := inv.room session view present ours
        have locked := (inv.base.proper session view present).room
        rcases inv.current session view present ours with harmless | fresh
        · exact absurd (harmless.locked finished) none
        · omega
      next => exact absurd rfl none

/-- In every interleaving of the executors' transactions in which each that claims rows of the scope meets
every other open one that may claim some at a row, no dequeue raises the PENDING count above the cap. -/
theorem global_cap_shared (queue : CappedQueue) (key : Option String) (shape : key.isSome = queue.partitioned)
    (events : List (DateTime × Event)) (shared : Runs.Along next (Shared queue key) events .new) :
    ∀ before now session after, events = before ++ (now, .commit session) :: after →
      (pendingCount queue.name key (run (before ++ [(now, .commit session)]) .new).store.rows : Int) ≤
        max (pendingCount queue.name key (run before .new).store.rows : Int) queue.globalConcurrency := by
  rintro before now session after rfl
  rw [Runs.along_append] at shared
  have inv : CapInv queue key (run before .new) :=
    Runs.invariant (fun db event shared inv => step_cap shape (next_step db event) shared inv) shared.1 (.new queue key)
  have last : run (before ++ [(now, .commit session)]) .new = next (run before .new) (now, .commit session) :=
    Runs.run_append ..
  rw [last]
  exact commit_capped shape inv now session

/-! Runs of two executors. -/

def onceQueue : CappedQueue := { name := "q", globalConcurrency := 1 }

def onceRequest (executor version : String) : DequeueRequest where
  queueName := "q"
  executorId := executor
  appVersion := version
  maxTasks := 10
  globalConcurrency := some 1

def waitingRecord (version : String) (createdAt : Int) : WorkflowRecord where
  status := .enqueued
  name := "job"
  inputs := none
  serialization := none
  executorId := none
  applicationVersion := some version
  queueName := some "q"
  createdAt := createdAt
  updatedAt := createdAt

/-- Two executors of one version poll at once: the second meets the first at the first row. -/
def rivalPolls : List (DateTime × Event) :=
  [(0, .write "a" (some (waitingRecord "v1" 0))), (0, .write "b" (some (waitingRecord "v1" 1))),
    (1, .begin 1 (onceRequest "e1" "v1")), (2, .begin 2 (onceRequest "e2" "v1")),
    (3, .count 1 ["a", "b"]), (4, .count 2 ["a", "b"]), (5, .lock 1), (6, .commit 1), (7, .lock 2), (8, .commit 2)]

theorem global_cap_shared_rivalPolls :
    (pendingCount "q" none (run (rivalPolls.take 7 ++ [(6, .commit 1)]) .new).store.rows : Int) ≤
        max (pendingCount "q" none (run (rivalPolls.take 7) .new).store.rows : Int) 1 ∧
      pendingCount "q" none (run rivalPolls .new).store.rows = 1 :=
  ⟨global_cap_shared onceQueue none rfl rivalPolls (by decide +kernel) (rivalPolls.take 7) 6 1
      (rivalPolls.drop 8) rfl,
    by decide +kernel⟩

/-- Two executors of different versions poll at once: their candidates are different rows. -/
def versionedPolls : List (DateTime × Event) :=
  [(0, .write "a" (some (waitingRecord "v1" 0))), (0, .write "b" (some (waitingRecord "v2" 1))),
    (1, .begin 1 (onceRequest "e1" "v1")), (2, .begin 2 (onceRequest "e2" "v2")),
    (3, .count 1 ["a"]), (4, .count 2 ["b"]), (5, .lock 1), (6, .lock 2), (7, .commit 1)]

/-- Each counts no row PENDING in its snapshot and locks its own row, and the second commit is one too many. -/
theorem versions_pass_by :
    (∀ event ∈ versionedPolls, ∀ req ∈ beginning event.2, Asks onceQueue req) ∧
      ¬ (pendingCount "q" none (run (versionedPolls ++ [(8, .commit 2)]) .new).store.rows : Int) ≤
        max (pendingCount "q" none (run versionedPolls .new).store.rows : Int) onceQueue.globalConcurrency :=
  ⟨by decide +kernel, by decide +kernel⟩

end Cap

end Durare.Contention

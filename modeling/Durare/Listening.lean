import Durare.Checkpoints
import Durare.Deletion
import Durare.SqlMail
import Durare.SqlStreams
import Durare.Watching
import Mathlib.Data.List.MinMax

/-! Wakeups on Postgres: the schema's triggers announce new messages and events, one listener per provider hears them
and signals the `recv` and `get_event` calls that wait. Each statement sees what is committed when it begins. -/
namespace Durare.Wakeups

open Signals Sqlite

inductive ChangeWait where
  | notification (workflowId topic : String)
  | event (workflowId key : String)
deriving DecidableEq, Repr

def NOTIFICATIONS_CHANNEL : String := "dbos_notifications_channel"
def WORKFLOW_EVENTS_CHANNEL : String := "dbos_workflow_events_channel"

def hubKey (channel payload : String) : String := channel ++ "\x00" ++ payload

namespace ChangeWait

def channel : ChangeWait → String
  | notification _ _ => NOTIFICATIONS_CHANNEL
  | event _ _ => WORKFLOW_EVENTS_CHANNEL

def payload : ChangeWait → String
  | notification workflowId topic => workflowId ++ "::" ++ topic
  | event workflowId key => workflowId ++ "::" ++ key

/-- The key that `watch_change` subscribes to. -/
def hubKey (wait : ChangeWait) : String := Wakeups.hubKey wait.channel wait.payload

/-- What a check of the database would find. -/
def ready (db : Db) : ChangeWait → Bool
  | notification workflowId topic => db.notifications.any (waiting workflowId topic)
  | event workflowId key => (db.workflowEvents.get (workflowId, key)).isSome

end ChangeWait

/-- The channel and payload of each new row: the triggers fire for rows that are inserted, not for those that are
updated, and `pg_notify` delivers with the commit. -/
def announced (before after : Db) : List String :=
  let isNew (n : NotificationRecord) := !before.notifications.any (·.messageUuid == n.messageUuid)
  let messages := (after.notifications.filter isNew).map fun n =>
    hubKey NOTIFICATIONS_CHANNEL (n.destinationUuid ++ "::" ++ n.topic)
  let events := (after.workflowEvents.toList.filter fun row => (before.workflowEvents.get row.1).isNone).map fun row =>
    hubKey WORKFLOW_EVENTS_CHANNEL (row.1.1 ++ "::" ++ row.1.2)
  messages ++ events

def conditions : Watching.Conditions Db ChangeWait String where
  ready wait db := wait.ready db
  topic := ChangeWait.hubKey
  announced := announced

/-- The claim of the message that the statement's snapshot gave, with the checkpoint: a message that a rival has
taken since matches nothing. `none` is a mailbox that the statement found empty. -/
def claimNotification (lib : SerdeJson) (serializer : Serializer) (now : DateTime) (id : String) (seq : Int)
    (name picked : String) (db : Db) : Option (Answer (Option Value)) :=
  match db.notifications.find? fun n => n.messageUuid == picked && !n.consumed with
  | none => none
  | some row =>
    let claim (n : NotificationRecord) := if n.messageUuid == picked then consume n else n
    let claimed := { db with notifications := db.notifications.map claim }
    match checkpointOn now id seq name row.message row.serialization claimed with
    | (.ok true, taken) => some ((decode lib serializer row.serialization row.message).map some, taken)
    | (.ok false, _) => none
    | (.error e, _) => some (.error e, db)

/-- Transactions of this provider and of others. -/
inductive Transaction where
  | insertNotifications (refuses : Limit) (now : DateTime) (rows : List (NotificationInsert × String))
  | sendFromWorkflow (refuses : Limit) (now : DateTime) (id : String) (seq : Int) (name : String)
    (rows : List (NotificationInsert × String))
  | claimNotification (now : DateTime) (id : String) (seq : Int) (name picked : String)
  | upsertEvent (id key : String) (value : Value)
  | deleteRows (targets : List String)
  | elsewhere (transaction : Db → Db)

def Transaction.run (lib : SerdeJson) (serializer : Serializer) (db : Db) : Transaction → Db
  | .insertNotifications refuses now rows => (insertNotificationsOn refuses lib serializer now rows db).2
  | .sendFromWorkflow refuses now id seq name rows =>
    (Sqlite.sendFromWorkflow refuses lib serializer now id seq name rows db).2
  | .claimNotification now id seq name picked =>
    ((Wakeups.claimNotification lib serializer now id seq name picked db).map (·.2)).getD db
  | .upsertEvent id key value => (Sqlite.upsertEvent lib serializer id key value db).2
  | .deleteRows targets => Sqlite.deleteRows targets db
  | .elsewhere transaction => transaction db

/-- What the other transactions leave alone: the mailboxes. -/
def Transaction.Proper (db : Db) : Transaction → Prop
  | .elsewhere transaction => (transaction db).notifications = db.notifications
  | _ => True

/-- A message that waits was waiting before, or is new. -/
def Forward (before after : Db) : Prop :=
  ∀ n ∈ after.notifications, n.consumed = false →
    n ∈ before.notifications ∨ before.notifications.any (·.messageUuid == n.messageUuid) = false

theorem Forward.announces {before after : Db} (forward : Forward before after) :
    conditions.Announces before after := by
  intro wait ready
  cases wait with
  | notification workflowId topic =>
    obtain ⟨n, member, waits⟩ := List.any_eq_true.mp ready
    have fields : (n.consumed = false ∧ n.destinationUuid = workflowId) ∧ n.topic = topic := by
      simpa [waiting] using waits
    obtain ⟨⟨unread, rfl⟩, rfl⟩ := fields
    rcases forward n member unread with old | new
    · exact .inl (List.any_eq_true.mpr ⟨n, old, waits⟩)
    · refine .inr (List.mem_append_left _ (List.mem_map.mpr ⟨n, List.mem_filter.mpr ⟨member, ?_⟩, rfl⟩))
      simp [new]
  | event workflowId key =>
    obtain ⟨value, stored⟩ := Option.isSome_iff_exists.mp ready
    by_cases old : (before.workflowEvents.get (workflowId, key)).isSome = true
    · exact .inl old
    · refine .inr (List.mem_append_right _ (List.mem_map.mpr ⟨((workflowId, key), value), List.mem_filter.mpr ⟨?_, ?_⟩,
        rfl⟩))
      · exact (Table.mem_toList _ _ _).mpr stored
      · simpa using old

theorem forward_of_subset {before after : Db} (kept : ∀ n ∈ after.notifications, n ∈ before.notifications) :
    Forward before after := fun n member _ => .inl (kept n member)

/-- The rows that an insert adds are new, one by one. -/
theorem mem_foldl_insertOrIgnore {row : NotificationRecord} {mail : List NotificationRecord}
    (records : List NotificationRecord) (member : row ∈ records.foldl insertOrIgnore mail) :
    row ∈ mail ∨ mail.any (·.messageUuid == row.messageUuid) = false := by
  induction records generalizing mail with
  | nil => exact .inl member
  | cons record records ih =>
    rcases ih member with before | new
    · unfold insertOrIgnore at before
      split at before
      · exact .inl before
      next absent =>
        rcases List.mem_append.mp before with old | same
        · exact .inl old
        · rw [List.mem_singleton.mp same]
          exact .inr (by simpa using absent)
    · refine .inr ?_
      unfold insertOrIgnore at new
      split at new
      · exact new
      · rw [List.any_append, Bool.or_eq_false_iff] at new
        exact new.1

variable {lib : SerdeJson} {serializer : Serializer}

variable (lib serializer) in
theorem forward_insertNotificationsOn (refuses : Limit) (now : DateTime) (rows : List (NotificationInsert × String))
    (db : Db) : Forward db (insertNotificationsOn refuses lib serializer now rows db).2 := by
  rcases insertNotificationsOn_cases refuses lib serializer now rows db with ⟨e, refused⟩ | inserted
  · rw [refused]
    exact forward_of_subset fun _ member => member
  · rw [inserted]
    intro n member _
    rw [← List.foldl_map] at member
    exact mem_foldl_insertOrIgnore _ member

/-- A claim takes no message back. -/
theorem claimNotification_cases (lib : SerdeJson) (serializer : Serializer) (now : DateTime) (id : String) (seq : Int)
    (name picked : String) (db : Db) :
    claimNotification lib serializer now id seq name picked db = none ∨
    (∃ e, claimNotification lib serializer now id seq name picked db = some (.error e, db)) ∨
    ∃ answer row, claimNotification lib serializer now id seq name picked db = some (answer, { db with
      notifications := db.notifications.map fun n => if n.messageUuid == picked then consume n else n
      operationOutputs := db.operationOutputs.put (id, seq) row }) := by
  unfold claimNotification
  split
  · exact .inl rfl
  next row _ =>
    dsimp only
    rcases checkpointOn_cases now id seq name row.message row.serialization { db with
      notifications := db.notifications.map fun n => if n.messageUuid == picked then consume n else n } with
      ⟨_, -, wrote⟩ | ⟨e, wrote⟩ | ⟨record, -, -, -, -, -, wrote⟩
    · rw [wrote]
      exact .inl rfl
    · rw [wrote]
      exact .inr (.inl ⟨e, rfl⟩)
    · rw [wrote]
      exact .inr (.inr ⟨_, record, rfl⟩)

theorem forward_claimed (db : Db) (picked : String) (outputs : Table (String × Int) StepRecord) :
    Forward db { db with
      notifications := db.notifications.map fun n => if n.messageUuid == picked then consume n else n
      operationOutputs := outputs } := by
  intro n member unread
  obtain ⟨m, old, rfl⟩ := List.mem_map.mp member
  split
  next taken => simp [taken, consume] at unread
  · exact .inl old

theorem Transaction.forward (t : Transaction) {db : Db} (proper : t.Proper db) :
    Forward db (t.run lib serializer db) := by
  cases t with
  | insertNotifications refuses now rows => exact forward_insertNotificationsOn lib serializer refuses now rows db
  | sendFromWorkflow refuses now id seq name rows =>
    simp only [Transaction.run]
    rcases sendFromWorkflow_cases refuses lib serializer now id seq name rows db with ⟨same, -⟩ | ⟨row, -, -, -, sent⟩
    · rw [same]
      exact forward_of_subset fun _ member => member
    · rw [sent]
      exact forward_insertNotificationsOn lib serializer refuses now rows
        { db with operationOutputs := db.operationOutputs.put (id, seq) row }
  | claimNotification now id seq name picked =>
    simp only [Transaction.run]
    rcases claimNotification_cases lib serializer now id seq name picked db with none | ⟨e, failed⟩ | ⟨answer, row,
      taken⟩
    · rw [none]
      exact forward_of_subset fun _ member => member
    · rw [failed]
      exact forward_of_subset fun _ member => member
    · rw [taken]
      exact forward_claimed db picked _
  | upsertEvent id key value =>
    refine forward_of_subset fun n member => ?_
    simp only [Transaction.run, Sqlite.upsertEvent] at member
    split at member
    · exact member
    · split at member <;> exact member
  | deleteRows targets => exact forward_of_subset fun n member => List.mem_of_mem_filter member
  | elsewhere transaction => exact forward_of_subset fun n member => by rwa [← proper]

def LISTENER_BACKOFF_MIN : Nat := 100
def LISTENER_BACKOFF_MAX : Nat := 30000

/-- Where `run_listener` stands. While its session listens, the announcements wait in an inbox. `reconnecting` is
inside `try_recv`, which answers once it listens again. -/
inductive Phase where
  | looping
  | connecting
  | subscribing
  | nudging (inbox : List String)
  | receiving (inbox : List String)
  | reconnecting
  | renudging (inbox : List String)
  | sleeping
  | stopped
deriving DecidableEq, Repr

/-- The session that listens, if there is one. -/
def Phase.link : Phase → Watching.Link String
  | nudging inbox | renudging inbox => .listening inbox true
  | receiving inbox => .listening inbox false
  | _ => .away

def Phase.receive (announced : List String) : Phase → Phase
  | nudging inbox => nudging (inbox ++ announced)
  | receiving inbox => receiving (inbox ++ announced)
  | renudging inbox => renudging (inbox ++ announced)
  | phase => phase

structure Listener where
  phase : Phase
  backoff : Nat
deriving DecidableEq, Repr

inductive Outcome where
  | ok
  | lost
  | err
  | cancelled
deriving DecidableEq, Repr

def Listener.new : Listener := ⟨.looping, LISTENER_BACKOFF_MIN⟩

/-- One step of the listener: what is left of it, and of the hub. -/
def Listener.step (token : Bool) (hub : Board String) (l : Listener) (outcome : Outcome) : Listener × Board String :=
  match l.phase, outcome with
  | .looping, _ => ({ l with phase := if token then .stopped else .connecting }, hub)
  | .connecting, .ok => ({ l with phase := .subscribing }, hub)
  | .connecting, .err => ({ l with phase := .sleeping }, hub)
  | .subscribing, .ok => ({ l with phase := .nudging [] }, hub)
  | .subscribing, .err => ({ l with phase := .sleeping }, hub)
  | .nudging inbox, .ok => ({ l with phase := .receiving inbox }, hub.signalAll)
  | .receiving (key :: inbox), .ok => (⟨.receiving inbox, LISTENER_BACKOFF_MIN⟩, hub.signal key)
  | .receiving _, .lost => ({ l with phase := .reconnecting }, hub)
  | .receiving _, .err => ({ l with phase := .sleeping }, hub)
  | .receiving inbox, .cancelled => ({ l with phase := if token then .stopped else .receiving inbox }, hub)
  | .reconnecting, .ok => ({ l with phase := .renudging [] }, hub)
  | .reconnecting, .err => ({ l with phase := .sleeping }, hub)
  | .reconnecting, .cancelled => ({ l with phase := if token then .stopped else .reconnecting }, hub)
  | .renudging inbox, .ok => (⟨.receiving inbox, LISTENER_BACKOFF_MIN⟩, hub.signalAll)
  | .sleeping, .ok => (⟨.looping, min (l.backoff * 2) LISTENER_BACKOFF_MAX⟩, hub)
  | .sleeping, .cancelled => ({ l with phase := if token then .stopped else .sleeping }, hub)
  | _, _ => (l, hub)

inductive Waits where
  | recv (id topic : String) (seq : Int)
  | getEvent (target key : String)
deriving DecidableEq, Repr

/-- The condition the call watches. -/
def Waits.change : Waits → ChangeWait
  | recv id topic _ => .notification id topic
  | getEvent target key => .event target key

/-- Where the loop of a call stands, with its subscription. `recv` reads its position (`watching`), looks for the
oldest message (`reading`), claims it (`picked`), and where there was none reads its position again (`rereading`).
`blind` is no part of the program: what the call waits for was there when it missed. -/
inductive Control where
  | looping
  | watching (subscription : Nat)
  | reading (subscription : Nat)
  | picked (subscription : Nat) (message : String)
  | rereading (subscription : Nat) (blind : Bool)
  | missed (subscription : Nat) (blind : Bool)
  | parked (subscription : Nat) (blind : Bool)
deriving DecidableEq, Repr

structure Waiter where
  waits : Waits
  control : Control
deriving DecidableEq, Repr

/-- The subscription the call holds, and whether it has missed. -/
def Control.stage : Control → Option (Nat × Watching.Stage)
  | looping => none
  | watching n | reading n | picked n _ => some (n, .watching)
  | rereading n blind | missed n blind | parked n blind => some (n, .missed blind)

def Waiter.watch (w : Waiter) : Option (Watching.Watch ChangeWait) :=
  w.control.stage.map fun stage => ⟨w.waits.change, stage.1, stage.2⟩

structure Provider where
  db : Db
  hub : Board String
  listener : Listener
  token : Bool
  waiters : Nat → Option Waiter

def Provider.start (db : Db) : Provider := ⟨db, Board.new, Listener.new, false, fun _ => none⟩

/-- What happens next: a transaction commits, the provider is dropped, the listener goes on, or a call does. A call
may be dropped anywhere; it returns by being dropped. -/
inductive Event where
  | commit (transaction : Transaction)
  | cancel
  | listener (outcome : Outcome)
  | start (waiter : Nat) (waits : Waits)
  | watch (waiter : Nat)
  | read (waiter : Nat)
  | pick (waiter : Nat) (choice : Nat)
  | claim (waiter : Nat) (now : DateTime)
  | reread (waiter : Nat)
  | park (waiter : Nat)
  | wake (waiter : Nat)
  | elapse (waiter : Nat)
  | drop (waiter : Nat)

namespace Provider

def put (waiter : Nat) (w : Option Waiter) (s : Provider) : Provider :=
  { s with waiters := fun other => if other = waiter then w else s.waiters other }

/-- The call lets go of its subscription. -/
def release (w : Waiter) (s : Provider) : Provider :=
  match w.control.stage with
  | some (n, _) => { s with hub := s.hub.drop w.waits.change.hubKey n }
  | none => s

def leave (waiter : Nat) (w : Waiter) (s : Provider) : Provider := (s.release w).put waiter none

def commit (after : Db) (s : Provider) : Provider :=
  { s with
    db := after
    listener := { s.listener with phase := s.listener.phase.receive (announced s.db after) } }

variable (lib : SerdeJson) (serializer : Serializer)

/-- The check at a call's position: something there, or an error, ends the call. -/
def settled (id : String) (seq : Int) (db : Db) : Bool :=
  !(recordedOutputOn lib serializer id seq "DBOS.recv" db matches .ok none)

def next (s : Provider) : Event → Provider
  | .commit transaction => s.commit (transaction.run lib serializer s.db)
  | .cancel => { s with token := true }
  | .listener outcome =>
    let (listener, hub) := s.listener.step s.token s.hub outcome
    { s with listener := listener, hub := hub }
  | .start waiter waits => if (s.waiters waiter).isSome then s else s.put waiter (some ⟨waits, .looping⟩)
  | .watch waiter =>
    match s.waiters waiter with
    | some ⟨waits, .looping⟩ =>
      let (n, hub) := s.hub.subscribe waits.change.hubKey
      { s with hub := hub }.put waiter (some ⟨waits, .watching n⟩)
    | _ => s
  | .read waiter =>
    match s.waiters waiter with
    | some ⟨.recv id topic seq, .watching n⟩ =>
      if settled lib serializer id seq s.db then s.leave waiter ⟨.recv id topic seq, .watching n⟩
      else s.put waiter (some ⟨.recv id topic seq, .reading n⟩)
    | some ⟨.getEvent target key, .watching n⟩ =>
      if (getEventValue lib serializer target key s.db).1 matches .ok none then
        s.put waiter (some ⟨.getEvent target key, .missed n false⟩)
      else s.leave waiter ⟨.getEvent target key, .watching n⟩
    | _ => s
  | .pick waiter choice =>
    match s.waiters waiter with
    | some ⟨.recv id topic seq, .reading n⟩ =>
      let oldest := oldestTied id topic s.db.notifications
      match oldest[choice % oldest.length]? with
      | some (row, _) => s.put waiter (some ⟨.recv id topic seq, .picked n row.messageUuid⟩)
      | none => s.put waiter (some ⟨.recv id topic seq, .rereading n false⟩)
    | _ => s
  | .claim waiter now =>
    match s.waiters waiter with
    | some ⟨.recv id topic seq, .picked n message⟩ =>
      match claimNotification lib serializer now id seq "DBOS.recv" message s.db with
      | some (_, after) => (s.commit after).leave waiter ⟨.recv id topic seq, .picked n message⟩
      | none =>
        s.put waiter (some ⟨.recv id topic seq, .rereading n (ChangeWait.ready s.db (.notification id topic))⟩)
    | _ => s
  | .reread waiter =>
    match s.waiters waiter with
    | some ⟨.recv id topic seq, .rereading n blind⟩ =>
      if settled lib serializer id seq s.db then s.leave waiter ⟨.recv id topic seq, .rereading n blind⟩
      else s.put waiter (some ⟨.recv id topic seq, .missed n blind⟩)
    | _ => s
  | .park waiter =>
    match s.waiters waiter with
    | some ⟨waits, .missed n blind⟩ => s.put waiter (some ⟨waits, .parked n blind⟩)
    | _ => s
  | .wake waiter =>
    match s.waiters waiter with
    | some ⟨waits, .parked n blind⟩ =>
      if s.hub.permits n then (s.release ⟨waits, .parked n blind⟩).put waiter (some ⟨waits, .looping⟩) else s
    | _ => s
  | .elapse waiter =>
    match s.waiters waiter with
    | some ⟨waits, .parked n blind⟩ => (s.release ⟨waits, .parked n blind⟩).put waiter (some ⟨waits, .looping⟩)
    | _ => s
  | .drop waiter =>
    match s.waiters waiter with
    | some w => s.leave waiter w
    | none => s

def Proper (s : Provider) : Event → Prop
  | .commit transaction => transaction.Proper s.db
  | _ => True

/-- The provider as a system of waiters and a link. -/
def system (s : Provider) : Watching.System Db ChangeWait String where
  store := s.db
  board := s.hub
  link := s.listener.phase.link
  watches waiter := (s.waiters waiter).bind Waiter.watch

end Provider

end Durare.Wakeups

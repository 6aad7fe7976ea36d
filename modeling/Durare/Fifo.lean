import Durare.Delivery
import Durare.SqlMail

/-! The order of messages. A consumption takes a message that was stored in the earliest millisecond;
which of those it takes is the mailbox's order in memory, and the database's choice on SQL. -/
namespace Durare.Fifo

open Memory

section InMemory

/-- The provider, the last reading of the clock, and the messages of one mailbox: those that came in the
order of their sends, and those that were handed out. -/
structure System where
  store : Inner
  clock : DateTime
  sent : List Value
  received : List Value

def System.new (start : DateTime) : System := ⟨Inner.new, start, [], []⟩

variable (lib : SerdeJson) (id topic : String)

def mine (n : NotificationRow) : Bool := n.destinationId == id && n.topic == topic

/-- What a `recv` hands out that finds its position free. A replay hands out its record again. -/
def handed (s : Inner) : (call : Call) → Except Error call.Reply → List Value
  | .consumeNotification w t seq _, answer =>
    if w = id ∧ t = topic ∧ s.steps.get (w, seq) = none then (answer.toOption.getD none).toList else []
  | _, _ => []

def next (sys : System) (event : DateTime × Call) : System where
  store := step lib sys.store event
  clock := event.1
  sent := sys.sent ++ Mailbox.came (mine id topic) (·.message) sys.store.notifications
    (step lib sys.store event).notifications
  received := sys.received ++ handed id topic sys.store event.2 (exec lib event.1 event.2 sys.store).1

abbrev run (start : DateTime) (events : List (DateTime × Call)) : System :=
  Runs.run (next lib id topic) events (System.new start)

/-- The clock never runs backwards, and the receiver is not deleted. -/
def Allowed (sys : System) (event : DateTime × Call) : Prop :=
  sys.clock ≤ event.1 ∧
    match event.2 with
    | .deleteWorkflows ids deleteChildren =>
      id ∉ if deleteChildren then targetsWithChildren ids sys.store else ids
    | _ => True

def Inv (sys : System) : Prop :=
  Mailbox.InOrder (mine id topic) (·.consumed) (·.message) (·.createdAtMs) sys.store.notifications sys.sent sys.received
    sys.clock.timestampMillis

variable {lib id topic}

/-- The oldest message that waits is the first one. -/
theorem oldest_first {mail : List NotificationRow} {limit : Int} {n : NotificationRow} {place : Nat}
    (aged : Mailbox.Aged (·.createdAtMs) mail limit) (found : oldest id topic mail = some (n, place)) :
    Mailbox.First (mine id topic) (·.consumed) mail place n := by
  obtain ⟨before, after, split, older⟩ := minBy_split _ found
  have listed : Mailbox.waiting (awaiting id topic) mail = before ++ (n, place) :: after := split
  have places := listed ▸ Mailbox.waiting_places (awaiting id topic) mail
  obtain ⟨-, behind, ahead⟩ := List.pairwise_append.mp places
  apply Mailbox.first_of_waiting (awaiting id topic)
  · intro m
    simp [awaiting, mine, and_comm, and_assoc]
  · simp [listed]
  · intro other member
    rw [listed, List.mem_append, List.mem_cons] at member
    rcases member with early | rfl | late
    · -- One that stands before is older than the oldest.
      have here : other ∈ Mailbox.waiting (awaiting id topic) mail := by simp [listed, early]
      have chosen : (n, place) ∈ Mailbox.waiting (awaiting id topic) mail := by simp [listed]
      have le := aged.waiting_le here chosen (ahead other early (n, place) (by simp))
      have lt := older other early
      omega
    · exact le_refl _
    · exact (List.pairwise_cons.mp behind).1 other late |>.le

/-- A consumption hands out nothing from the mailbox, or takes the oldest message. -/
theorem consumeNotification_cases (lib : SerdeJson) (now : DateTime) (w t : String) (seq : Int) (name : String)
    (s : Inner) :
    ((consumeNotification lib now w t seq name s).2 = s ∧
      (s.steps.get (w, seq) = none → (consumeNotification lib now w t seq name s).1 = .ok none)) ∨
    ∃ n place, oldest w t s.notifications = some (n, place) ∧ s.steps.get (w, seq) = none ∧
      (consumeNotification lib now w t seq name s).1 = .ok (some n.message) ∧
      (consumeNotification lib now w t seq name s).2.notifications = s.notifications.modify place Delivery.consume := by
  unfold consumeNotification
  obtain ⟨row, present, -, found⟩ | ⟨row, present, -, found⟩ | ⟨vacant, found⟩ := recordedAt_eq w seq name s
  · rw [found]
    exact .inl ⟨rfl, fun none => by simp [present] at none⟩
  · rw [found]
    exact .inl ⟨rfl, fun none => by simp [present] at none⟩
  · rw [found]
    dsimp only
    cases chosen : oldest w t s.notifications with
    | none => exact .inl ⟨rfl, fun _ => rfl⟩
    | some first => exact .inr ⟨first.1, first.2, rfl, vacant, rfl, rfl⟩

theorem marks : Mailbox.Marks Delivery.consume (mine id topic) (·.consumed) (·.message) (·.createdAtMs) :=
  ⟨fun _ => rfl, fun _ => rfl, fun _ => rfl, fun _ => rfl⟩

theorem next_inv (sys : System) (event : DateTime × Call) (allowed : Allowed id sys event) (inv : Inv id topic sys) :
    Inv id topic (next lib id topic sys event) := by
  obtain ⟨now, call⟩ := event
  obtain ⟨forth, spared⟩ := allowed
  have later := timestampMillis_mono forth
  have appended : ∀ fresh, (∀ n ∈ fresh, Delivery.New now n) →
      (step lib sys.store (now, call)).notifications = sys.store.notifications ++ fresh →
      handed id topic sys.store call (exec lib now call sys.store).1 = [] → Inv id topic (next lib id topic sys (now, call)) := by
    intro fresh new mail nothing
    simp only [Inv, next, mail, nothing, List.append_nil]
    exact inv.append later new
  by_cases mails : Delivery.mails call = false
  · refine appended [] (by simp) (by rw [Delivery.step_mail_same lib now call sys.store mails, List.append_nil]) ?_
    cases call <;> first
      | rfl
      | cases mails
  have sent := Delivery.step_mail lib now call sys.store
  cases call with
  | consumeNotification w t seq name =>
    clear sent
    rcases consumeNotification_cases lib now w t seq name sys.store with
      ⟨same, silent⟩ | ⟨n, place, chosen, vacant, answered, took⟩
    · apply appended [] (by simp) (by rw [step, exec, same, List.append_nil])
      simp only [handed, exec]
      split
      next own => simp [silent own.2.2, Except.toOption]
      · rfl
    · have first := oldest_first inv.aged chosen
      have mail : (step lib sys.store (now, .consumeNotification w t seq name)).notifications =
          sys.store.notifications.modify place Delivery.consume := took
      by_cases own : w = id ∧ t = topic
      · obtain ⟨rfl, rfl⟩ := own
        have returned : handed w t sys.store (.consumeNotification w t seq name)
            (exec lib now (.consumeNotification w t seq name) sys.store).1 = [n.message] := by
          simp [handed, exec, vacant, answered, Except.toOption]
        simp only [Inv, next, mail, returned]
        exact inv.take later marks first
      · have nothing : handed id topic sys.store (.consumeNotification w t seq name)
            (exec lib now (.consumeNotification w t seq name) sys.store).1 = [] := by
          simp [handed, own, ← and_assoc]
        have foreign : mine id topic n = false := by
          have theirs := first.own
          simp only [mine, Bool.and_eq_true, beq_iff_eq] at theirs
          simpa [mine, theirs.1, theirs.2] using own
        simp only [Inv, next, mail, nothing, List.append_nil]
        exact inv.other later marks first.here foreign
  | deleteWorkflows ids deleteChildren =>
    -- What goes is addressed to the deleted.
    have kept : ∀ n, mine id topic n = true → decide (n.destinationId ∉
        if deleteChildren then targetsWithChildren ids sys.store else ids) = true := by
      intro n own
      simp only [mine, Bool.and_eq_true, beq_iff_eq] at own
      rw [own.1]
      simpa using spared
    simpa [Inv, next, handed, step, exec, deleteWorkflows, deleteTargets] using inv.retain later kept
  | insertNotification _ _ | insertNotifications _ | sendFromWorkflow _ _ _ _ =>
    obtain ⟨-, fresh, mail, new⟩ | ⟨w, t, seq, name, place, n, same, -⟩ := sent (by simp)
    · exact appended fresh new mail rfl
    · cases same
  | _ => exact absurd rfl mails

/-- What was handed out of the mailbox is the beginning of what came into it. -/
theorem run_begins {start : DateTime} {events : List (DateTime × Call)}
    (allowed : Runs.Along (next lib id topic) (Allowed id) events (System.new start)) :
    (run lib id topic start events).received <+: (run lib id topic start events).sent := by
  have inv : Inv id topic (run lib id topic start events) :=
    Runs.invariant next_inv allowed (Mailbox.InOrder.empty _ _ _ _ _)
  exact inv.begins

end InMemory

section Sql

open Sqlite (Db NotificationRecord MailEvent)

structure SqlSystem where
  db : Db
  clock : DateTime
  sent : List (Except Error (Option Value))
  received : List (Except Error (Option Value))

def SqlSystem.new (start : DateTime) : SqlSystem := ⟨Db.new, start, [], []⟩

variable (refuses : Sqlite.Limit) (lib : SerdeJson) (serializer : Serializer) (id topic : String)

def sqlMine (n : NotificationRecord) : Bool := n.destinationUuid == id && n.topic == topic

def content (n : NotificationRecord) : Except Error (Option Value) :=
  (decode lib serializer n.serialization n.message).map some

/-- A `recv` hands out a message where it records its position. -/
def sqlHanded (now : DateTime) (db : Db) : MailEvent → List (Except Error (Option Value))
  | .consumeNotification w t seq name pick =>
    let (answer, after) := Sqlite.consumeNotification lib serializer now w t seq name pick db
    if w = id ∧ t = topic ∧ db.operationOutputs.get (w, seq) = none ∧ (after.operationOutputs.get (w, seq)).isSome then
      [answer]
    else []
  | _ => []

def sqlNext (sys : SqlSystem) (event : DateTime × MailEvent) : SqlSystem where
  db := Sqlite.mailStep refuses lib serializer sys.db event
  clock := event.1
  sent := sys.sent ++ Mailbox.came (sqlMine id topic) (content lib serializer) sys.db.notifications
    (Sqlite.mailStep refuses lib serializer sys.db event).notifications
  received := sys.received ++ sqlHanded lib serializer id topic event.1 sys.db event.2

abbrev sqlRun (start : DateTime) (events : List (DateTime × MailEvent)) : SqlSystem :=
  Runs.run (sqlNext refuses lib serializer id topic) events (SqlSystem.new start)

/-- The clock never runs backwards, and the other transactions take at most messages of other mailboxes away. -/
def SqlAllowed (sys : SqlSystem) (event : DateTime × MailEvent) : Prop :=
  sys.clock ≤ event.1 ∧
    match event.2 with
    | .other transaction => ∃ keep : NotificationRecord → Bool,
      (∀ n, sqlMine id topic n = true → keep n = true) ∧
        (transaction sys.db).notifications = sys.db.notifications.filter keep
    | _ => True

/-- Where the receiver takes a message, one waits alone with the earliest millisecond. -/
def Untied (sys : SqlSystem) (event : DateTime × MailEvent) : Prop :=
  match event.2 with
  | .consumeNotification w t _ _ _ => w = id → t = topic → (Sqlite.oldestTied w t sys.db.notifications).length ≤ 1
  | _ => True

def SqlInv (sys : SqlSystem) : Prop :=
  Mailbox.InOrder (sqlMine id topic) (·.consumed) (content lib serializer) (·.createdAtMs) sys.db.notifications sys.sent
    sys.received sys.clock.timestampMillis

variable {refuses lib serializer id topic}

theorem sqlMarks :
    Mailbox.Marks Sqlite.consume (sqlMine id topic) (·.consumed) (content lib serializer) (·.createdAtMs) :=
  ⟨fun _ => rfl, fun _ => rfl, fun _ => rfl, fun _ => rfl⟩

/-- Rows that are taken in come last, unread and with the time of the call. -/
theorem insertOrIgnore_appends (lib : SerdeJson) (serializer : Serializer) (now : DateTime)
    (rows : List (NotificationInsert × String)) (mail : List NotificationRecord) :
    ∃ fresh, rows.foldl (fun mail row => Sqlite.insertOrIgnore mail (Sqlite.mailEntry lib serializer now row)) mail =
      mail ++ fresh ∧ ∀ n ∈ fresh, n.consumed = false ∧ n.createdAtMs = now.timestampMillis := by
  induction rows generalizing mail with
  | nil => exact ⟨[], by simp, by simp⟩
  | cons row rows ih =>
    rw [List.foldl_cons]
    by_cases held : mail.any (·.messageUuid == (Sqlite.mailEntry lib serializer now row).messageUuid) = true
    · rw [Sqlite.insertOrIgnore, if_pos held]
      exact ih mail
    · rw [Sqlite.insertOrIgnore, if_neg held]
      obtain ⟨fresh, same, new⟩ := ih (mail ++ [Sqlite.mailEntry lib serializer now row])
      refine ⟨Sqlite.mailEntry lib serializer now row :: fresh, by rw [same, List.append_assoc, List.singleton_append], ?_⟩
      intro n member
      rcases List.mem_cons.mp member with rfl | later
      · exact ⟨rfl, rfl⟩
      · exact new n later

theorem oldestTied_first {mail : List NotificationRecord} {limit : Int} {n : NotificationRecord} {place : Nat}
    (aged : Mailbox.Aged (·.createdAtMs) mail limit) (oldest : (n, place) ∈ Sqlite.oldestTied id topic mail)
    (alone : (Sqlite.oldestTied id topic mail).length ≤ 1) :
    Mailbox.First (sqlMine id topic) (·.consumed) mail place n := by
  have only : ∀ other ∈ Sqlite.oldestTied id topic mail, other = (n, place) := by
    intro other member
    obtain ⟨one, same⟩ := List.length_eq_one_iff.mp (le_antisymm alone (List.length_pos_of_mem oldest))
    rw [same, List.mem_singleton] at oldest member
    rw [oldest, member]
  obtain ⟨listed, least⟩ := List.mem_filter.mp oldest
  rw [List.all_eq_true] at least
  apply Mailbox.first_of_waiting (Sqlite.waiting id topic)
  · intro m
    simp [Sqlite.waiting, sqlMine, and_comm, and_assoc]
  · exact listed
  · intro other member
    by_contra before
    -- One that stands before has the same time, and is among the oldest itself.
    have le : other.1.createdAtMs ≤ n.createdAtMs := aged.waiting_le member listed (by omega)
    have tied : other ∈ Sqlite.oldestTied id topic mail := by
      refine List.mem_filter.mpr ⟨member, List.all_eq_true.mpr fun m waits => ?_⟩
      have least' := least m waits
      simp only [decide_eq_true_eq] at least' ⊢
      omega
    have same := congrArg Prod.snd (only other tied)
    dsimp only at same
    omega

theorem sqlNext_inv (sys : SqlSystem) (event : DateTime × MailEvent)
    (allowed : SqlAllowed id topic sys event ∧ Untied id topic sys event) (inv : SqlInv lib serializer id topic sys) :
    SqlInv lib serializer id topic (sqlNext refuses lib serializer id topic sys event) := by
  obtain ⟨now, event⟩ := event
  obtain ⟨⟨forth, spared⟩, untied⟩ := allowed
  have later := timestampMillis_mono forth
  have appended : ∀ fresh, (∀ n ∈ fresh, n.consumed = false ∧ n.createdAtMs = now.timestampMillis) →
      (Sqlite.mailStep refuses lib serializer sys.db (now, event)).notifications = sys.db.notifications ++ fresh →
      sqlHanded lib serializer id topic now sys.db event = [] →
      SqlInv lib serializer id topic (sqlNext refuses lib serializer id topic sys (now, event)) := by
    intro fresh new mail nothing
    simp only [SqlInv, sqlNext, mail, nothing, List.append_nil]
    exact inv.append later new
  have quiet := appended [] (by simp)
  rw [List.append_nil] at quiet
  have inserted : ∀ (rows : List (NotificationInsert × String)) (db : Db), db.notifications = sys.db.notifications →
      Sqlite.mailStep refuses lib serializer sys.db (now, event) =
        (Sqlite.insertNotificationsOn refuses lib serializer now rows db).2 →
      sqlHanded lib serializer id topic now sys.db event = [] →
      SqlInv lib serializer id topic (sqlNext refuses lib serializer id topic sys (now, event)) := by
    intro rows db same step nothing
    rcases Sqlite.insertNotificationsOn_cases refuses lib serializer now rows db with ⟨e, failed⟩ | took
    · exact quiet (by rw [step, failed, same]) nothing
    · obtain ⟨fresh, mail, new⟩ := insertOrIgnore_appends lib serializer now rows db.notifications
      exact appended fresh new (by rw [step, took, ← same]; exact mail) nothing
  cases event with
  | insertNotifications rows => exact inserted rows sys.db rfl rfl rfl
  | sendFromWorkflow w seq name rows =>
    rcases Sqlite.sendFromWorkflow_cases refuses lib serializer now w seq name rows sys.db with
      ⟨same, -⟩ | ⟨row, -, -, -, sent⟩
    · exact quiet (congrArg Db.notifications same) rfl
    · exact inserted rows { sys.db with operationOutputs := sys.db.operationOutputs.put (w, seq) row } rfl
        (congrArg Prod.snd sent) rfl
  | consumeNotification w t seq name pick =>
    rcases Sqlite.consumeNotification_cases lib serializer now w t seq name pick sys.db with
      same | ⟨n, place, row, oldest, vacant, -, -, -, -, took⟩
    · refine quiet (congrArg Db.notifications same) ?_
      simp only [sqlHanded, same]
      split
      next own => simp [own.2.2.1] at own
      · rfl
    · have mail : (Sqlite.mailStep refuses lib serializer sys.db
          (now, .consumeNotification w t seq name pick)).notifications =
          sys.db.notifications.modify place Sqlite.consume := by simp only [Sqlite.mailStep, took]
      by_cases own : w = id ∧ t = topic
      · obtain ⟨rfl, rfl⟩ := own
        have returned : sqlHanded lib serializer w t now sys.db (.consumeNotification w t seq name pick) =
            [content lib serializer n] := by
          simp [sqlHanded, took, vacant, content]
        simp only [SqlInv, sqlNext, mail, returned]
        exact inv.take later sqlMarks (oldestTied_first inv.aged oldest (untied rfl rfl))
      · have nothing : sqlHanded lib serializer id topic now sys.db (.consumeNotification w t seq name pick) = [] := by
          simp [sqlHanded, own, ← and_assoc]
        obtain ⟨here, waits⟩ := Mailbox.mem_waiting.mp (List.mem_filter.mp oldest).1
        have foreign : sqlMine id topic n = false := by
          simp only [Sqlite.waiting, Bool.and_eq_true, beq_iff_eq] at waits
          simpa [sqlMine, waits.1.2, waits.2] using own
        simp only [SqlInv, sqlNext, mail, nothing, List.append_nil]
        exact inv.other later sqlMarks here foreign
  | other transaction =>
    obtain ⟨keep, kept, same⟩ := spared
    simp only [SqlInv, sqlNext, Sqlite.mailStep, sqlHanded, List.append_nil, same]
    exact inv.retain later kept

theorem sqlRun_begins {start : DateTime} {events : List (DateTime × MailEvent)}
    (allowed : Runs.Along (sqlNext refuses lib serializer id topic)
      (fun sys event => SqlAllowed id topic sys event ∧ Untied id topic sys event) events (SqlSystem.new start)) :
    (sqlRun refuses lib serializer id topic start events).received <+:
      (sqlRun refuses lib serializer id topic start events).sent := by
  have inv : SqlInv lib serializer id topic (sqlRun refuses lib serializer id topic start events) :=
    Runs.invariant sqlNext_inv allowed (Mailbox.InOrder.empty _ _ _ _ _)
  exact inv.begins

end Sql

def batch (message message' : Value) : List (NotificationInsert × String) :=
  [(⟨"w", "t", message, none⟩, "f1"), (⟨"w", "t", message', none⟩, "f2")]

def receiver : Sqlite.WorkflowRecord where
  status := .pending
  name := "main"
  inputs := none
  serialization := none
  executorId := none
  applicationVersion := none
  createdAt := 0
  updatedAt := 0

def started (db : Sqlite.Db) : Sqlite.Db := { db with workflowStatus := db.workflowStatus.put "w" receiver }

def texts : SerdeJson := .reading [.bool true, .bool false]

def calls : List (DateTime × Call) :=
  [(0, .insertWorkflowStatus (.new 0 "w" "main" .null .pending "e" "v")), (1, .insertNotifications (batch (.bool true) .null)),
    (1, .consumeNotification "w" "t" 0 "DBOS.recv"), (2, .consumeNotification "w" "t" 1 "DBOS.recv")]

def spaced : List (DateTime × Sqlite.MailEvent) :=
  [(0, .other started), (1000000, .insertNotifications [(⟨"w", "t", .bool true, none⟩, "f1")]),
    (2000000, .insertNotifications [(⟨"w", "t", .bool false, none⟩, "f2")]),
    (2000000, .consumeNotification "w" "t" 0 "DBOS.recv" 1), (2000000, .consumeNotification "w" "t" 1 "DBOS.recv" 0)]

/-- The batch is sent in one millisecond, and Postgres returns the second message first. -/
def tied : List (DateTime × Sqlite.MailEvent) :=
  [(0, .other started), (1000000, .insertNotifications (batch (.bool true) (.bool false))),
    (1000000, .consumeNotification "w" "t" 0 "DBOS.recv" 1)]

end Durare.Fifo

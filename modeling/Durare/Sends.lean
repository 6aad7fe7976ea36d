import Durare.Delivery
import Durare.SqlMail

/-! Keyed sends: a message whose sender names a key is stored under an id joined from the key and the
destination, and a send under a stored id delivers nothing. -/
namespace Durare.Sends

open Memory

/-- A keyed message of an accepted send, and whether the send delivered it. -/
structure Posting where
  key : String
  destination : String
  delivered : Bool
deriving DecidableEq, Repr

def joined (sent : String × String) : String := sent.1 ++ "::" ++ sent.2

def Posting.sent (p : Posting) : String × String := (p.key, p.destination)

def Posting.id (p : Posting) : String := joined p.sent

section Boxes

variable {E : Type} [DecidableEq E]

/-- The keyed ones among rows that a mailbox takes one by one, each delivered when its entry is
appended. -/
def postings (entry : NotificationInsert × String → E) (accept : NotificationInsert × String → List E → List E) :
    List (NotificationInsert × String) → List E → List Posting
  | [], _ => []
  | row :: rows, mail =>
    let posting : Option Posting := row.1.idempotencyKey.map fun key =>
      ⟨key, row.1.destinationId, decide (accept row mail = mail ++ [entry row])⟩
    posting.toList ++ postings entry accept rows (accept row mail)

/-- Each message is delivered exactly when nobody sent one of its key to its destination before. -/
def Faithful (log : List Posting) : Prop :=
  ∀ earlier p later, log = earlier ++ p :: later → (p.delivered = true ↔ p.sent ∉ earlier.map Posting.sent)

def Apart (log : List Posting) : Prop := ∀ p ∈ log, ∀ q ∈ log, p.id = q.id → p.sent = q.sent

/-- The ids that keyed messages have. -/
def Keyed (id : String) : Prop := ∃ sent, id = joined sent

/-- A fresh id has no colon. -/
def Plain (fresh : String) : Prop := ':' ∉ fresh.toList

theorem Plain.not_keyed {fresh : String} (plain : Plain fresh) : ¬ Keyed fresh := by
  rintro ⟨sent, rfl⟩
  exact plain (by simp [joined])

/-- The log of keyed messages against the ids of a mailbox. -/
def Logged (log : List Posting) (ids : List String) : Prop :=
  Mailbox.Posted Keyed (log.map fun p => (p.id, p.delivered)) ids

theorem Logged.faithful_iff {log : List Posting} {ids : List String} (logged : Logged log ids) :
    Faithful log ↔ Apart log := by
  have delivered : ∀ earlier p later, log = earlier ++ p :: later →
      (p.delivered = true ↔ p.id ∉ earlier.map Posting.id) := by
    intro earlier p later split
    have first := logged.first (earlier.map fun p => (p.id, p.delivered)) (p.id, p.delivered)
      (later.map fun p => (p.id, p.delivered)) (by simp [split])
    simpa using first
  have injective := Mailbox.new_iff_injOn joined (log.map Posting.sent)
  have ids : ∀ ps : List Posting, (ps.map Posting.sent).map joined = ps.map Posting.id := by
    intro ps
    simp [Posting.id]
  constructor
  · intro faithful p first q second same
    refine (injective.mp ?_) (List.mem_map_of_mem first) (List.mem_map_of_mem second) same
    intro earlier name later split
    obtain ⟨before, rest, rfl, rfl, tail⟩ := List.map_eq_append_iff.mp split
    obtain ⟨p, after, rfl, rfl, rfl⟩ := List.map_eq_cons_iff.mp tail
    rw [ids, ← faithful before p after rfl]
    exact (delivered before p after rfl).symm
  · intro apart earlier p later split
    rw [delivered earlier p later split]
    have agree := injective.mpr ?_ (earlier.map Posting.sent) p.sent (later.map Posting.sent) (by simp [split])
    · rwa [ids] at agree
    · rintro a first b second same
      obtain ⟨p, member, rfl⟩ := List.mem_map.mp first
      obtain ⟨q, member', rfl⟩ := List.mem_map.mp second
      exact apart p member q member' same

structure Accepts (ids : List E → List String) (entry : NotificationInsert × String → E)
    (accept : NotificationInsert × String → List E → List E) (row : NotificationInsert × String) : Prop where
  keyed : ∀ mail, row.1.idempotencyKey.isSome = true →
    (accept row mail = mail ++ [entry row] ↔ messageUuid row.1 row.2 ∉ ids mail) ∧
      ∀ id, id ∈ ids (accept row mail) ↔ id ∈ ids mail ∨ id = messageUuid row.1 row.2
  plain : ∀ mail, row.1.idempotencyKey = none → ∀ id, id ≠ row.2 → (id ∈ ids (accept row mail) ↔ id ∈ ids mail)

/-- Rows taken in one by one keep the log and the mailbox together. -/
theorem Logged.taken {ids : List E → List String} {entry : NotificationInsert × String → E}
    {accept : NotificationInsert × String → List E → List E} {rows : List (NotificationInsert × String)}
    (accepts : ∀ row ∈ rows, Accepts ids entry accept row) (plain : ∀ row ∈ rows, Plain row.2) {log : List Posting}
    {mail : List E} (logged : Logged log (ids mail)) :
    Logged (log ++ postings entry accept rows mail) (ids (rows.foldl (fun mail row => accept row mail) mail)) := by
  induction rows generalizing log mail with
  | nil => simpa [postings] using logged
  | cons row rows ih =>
    have here := accepts row (by simp)
    have rest := fun row member => accepts row (List.mem_cons_of_mem _ member)
    have unlike := fun row member => plain row (List.mem_cons_of_mem _ member)
    rw [List.foldl_cons, postings, ← List.append_assoc]
    apply ih rest unlike
    cases keyed : row.1.idempotencyKey with
    | none =>
      have fresh := plain row (by simp)
      have same : Logged log (ids (accept row mail)) := Mailbox.Posted.beside logged fun id counted =>
        here.plain mail keyed id fun equal => fresh.not_keyed (equal ▸ counted)
      simpa using same
    | some key =>
      obtain ⟨appended, after⟩ := here.keyed mail (by simp [keyed])
      have id : messageUuid row.1 row.2 = joined (key, row.1.destinationId) := by simp [messageUuid, keyed, joined]
      have post := Mailbox.Posted.post logged (decide (accept row mail = mail ++ [entry row])) ⟨_, id⟩
        (by simpa using appended) after
      rw [id] at post
      simpa [Logged, Posting.id, Posting.sent] using post

end Boxes

/-- The provider, and what was sent to it under a key. -/
structure System where
  store : Inner
  log : List Posting

def System.new : System := ⟨Inner.new, []⟩

def entry (now : DateTime) (row : NotificationInsert × String) : NotificationRow where
  messageUuid := messageUuid row.1 row.2
  destinationId := row.1.destinationId
  topic := row.1.topic
  message := row.1.message
  consumed := false
  createdAtMs := now.timestampMillis

def accept (now : DateTime) (row : NotificationInsert × String) : List NotificationRow → List NotificationRow :=
  acceptNotification now row.1 row.2

def next (lib : SerdeJson) (sys : System) (event : DateTime × Call) : System where
  store := step lib sys.store event
  log := sys.log ++
    if (exec lib event.1 event.2 sys.store).1.isOk then
      postings (entry event.1) (accept event.1) (Delivery.sends sys.store event.2) sys.store.notifications
    else []

abbrev run (lib : SerdeJson) (events : List (DateTime × Call)) : System := Runs.run (next lib) events System.new

/-- The fresh ids a send brings for its messages. -/
def freshIds : Call → List String
  | .insertNotification _ fresh => [fresh]
  | .insertNotifications rows => rows.map (·.2)
  | .sendFromWorkflow _ _ _ rows => rows.map (·.2)
  | _ => []

/-- No mailbox is removed, and fresh ids are UUID texts, which have no colon. -/
def Allowed (_ : System) (event : DateTime × Call) : Prop :=
  (∀ ids children, event.2 ≠ .deleteWorkflows ids children) ∧ ∀ fresh ∈ freshIds event.2, Plain fresh

def uuids (mail : List NotificationRow) : List String := mail.map (·.messageUuid)

theorem accepts (now : DateTime) (row : NotificationInsert × String) : Accepts uuids (entry now) (accept now) row where
  keyed mail keyed := by
    have held : alreadySent row.1 row.2 mail = true ↔ messageUuid row.1 row.2 ∈ uuids mail := by
      simp [alreadySent, keyed, uuids]
    unfold accept acceptNotification
    by_cases sent : alreadySent row.1 row.2 mail = true
    · have member := held.mp sent
      rw [if_pos sent]
      refine ⟨⟨fun same => absurd (congrArg List.length same) (by simp), fun absent => absurd member absent⟩, ?_⟩
      intro id
      exact ⟨.inl, fun either => either.elim (fun held => held) fun same => same ▸ member⟩
    · have absent := mt held.mpr sent
      rw [if_neg sent]
      refine ⟨⟨fun _ => absent, fun _ => rfl⟩, ?_⟩
      intro id
      simp [uuids]
  plain mail unkeyed id other := by
    have unsent : alreadySent row.1 row.2 mail = false := by simp [alreadySent, unkeyed]
    have mine : messageUuid row.1 row.2 = row.2 := by simp [messageUuid, unkeyed]
    simp [accept, acceptNotification, unsent, uuids, mine, other]

theorem acceptNotifications_eq (now : DateTime) (rows : List (NotificationInsert × String))
    (mail : List NotificationRow) :
    acceptNotifications now rows mail = rows.foldl (fun mail row => accept now row mail) mail := rfl

/-- A batch that is pushed enters its keyed messages, one that is refused changes nothing. -/
theorem Logged.push {log : List Posting} {s : Inner} (logged : Logged log (uuids s.notifications)) (now : DateTime)
    (rows : List (NotificationInsert × String)) (plain : ∀ row ∈ rows, Plain row.2) :
    ((pushNotifications now rows s).1.isOk = true ∧
      Logged (log ++ postings (entry now) (accept now) rows s.notifications)
        (uuids (pushNotifications now rows s).2.notifications)) ∨
    ((pushNotifications now rows s).1.isOk = false ∧ (pushNotifications now rows s).2 = s) := by
  unfold pushNotifications
  split
  · exact .inr ⟨rfl, rfl⟩
  · refine .inl ⟨rfl, ?_⟩
    dsimp only
    rw [acceptNotifications_eq]
    exact logged.taken (fun row _ => accepts now row) plain

theorem next_logged (lib : SerdeJson) (sys : System) (event : DateTime × Call) (allowed : Allowed sys event)
    (logged : Logged sys.log (uuids sys.store.notifications)) :
    Logged (next lib sys event).log (uuids (next lib sys event).store.notifications) := by
  obtain ⟨now, call⟩ := event
  obtain ⟨kept, plain⟩ := allowed
  have quiet : Delivery.sends sys.store call = [] →
      uuids (step lib sys.store (now, call)).notifications = uuids sys.store.notifications →
      Logged (next lib sys (now, call)).log (uuids (next lib sys (now, call)).store.notifications) := by
    intro nothing same
    simpa [next, nothing, postings, same] using logged
  cases call with
  | insertNotification row fresh =>
    rcases logged.push now [(row, fresh)] (by simpa [freshIds] using plain) with
      ⟨ok, after⟩ | ⟨failed, same⟩
    · simpa [next, step, exec, insertNotification, Delivery.sends, ok] using after
    · simpa [next, step, exec, insertNotification, Delivery.sends, failed, same] using logged
  | insertNotifications rows =>
    rcases logged.push now rows (List.forall_mem_map.mp plain) with ⟨ok, after⟩ | ⟨failed, same⟩
    · simpa [next, step, exec, insertNotifications, Delivery.sends, ok] using after
    · simpa [next, step, exec, insertNotifications, Delivery.sends, failed, same] using logged
  | sendFromWorkflow id seq name rows =>
    obtain ⟨row, present, -, found⟩ | ⟨row, present, -, found⟩ | ⟨vacant, found⟩ := recordedAt_eq id seq name sys.store
    · exact quiet (by simp [Delivery.sends, present]) (by simp [step, exec, sendFromWorkflow, found])
    · exact quiet (by simp [Delivery.sends, present]) (by simp [step, exec, sendFromWorkflow, found])
    · rcases logged.push now rows (List.forall_mem_map.mp plain) with ⟨ok, after⟩ | ⟨failed, same⟩
      · cases pushed : pushNotifications now rows sys.store with
        | mk answer store =>
          rw [pushed] at ok after
          cases answer with
          | error e => cases ok
          | ok _ =>
            simpa [next, step, exec, sendFromWorkflow, found, pushed, Delivery.sends, vacant, Except.isOk, Except.toBool,
              checkpoint, Inner.putStep] using after
      · cases pushed : pushNotifications now rows sys.store with
        | mk answer store =>
          rw [pushed] at failed same
          cases answer with
          | error e =>
            obtain rfl : store = sys.store := same
            simpa [next, step, exec, sendFromWorkflow, found, pushed, Except.isOk, Except.toBool] using logged
          | ok _ => cases failed
  | consumeNotification id topic seq name =>
    apply quiet rfl
    obtain same | ⟨place, n, took⟩ := Delivery.consumeNotification_took lib now id topic seq name sys.store
    · rw [step, exec, same]
    · rw [step, exec, took.mail]
      exact Mailbox.map_modify _ Delivery.consume (fun _ => rfl) _ _
  | deleteWorkflows ids children => exact absurd rfl (kept ids children)
  | _ => exact quiet rfl (congrArg uuids (Delivery.step_mail_same lib now _ sys.store rfl))

theorem run_logged (lib : SerdeJson) {events : List (DateTime × Call)}
    (allowed : Runs.Along (next lib) Allowed events System.new) :
    Logged (run lib events).log (uuids (run lib events).store.notifications) :=
  Runs.invariant (I := fun sys : System => Logged sys.log (uuids sys.store.notifications)) (next_logged lib) allowed
    (Mailbox.Posted.empty Keyed)

section Sql

open Sqlite (Db NotificationRecord MailEvent)

variable (refuses : Sqlite.Limit) (lib : SerdeJson) (serializer : Serializer)

structure SqlSystem where
  db : Db
  log : List Posting

def SqlSystem.new : SqlSystem := ⟨Db.new, []⟩

def sqlAccept (now : DateTime) (row : NotificationInsert × String) (mail : List NotificationRecord) :
    List NotificationRecord := Sqlite.insertOrIgnore mail (Sqlite.mailEntry lib serializer now row)

/-- The keyed messages that an answered insert carried. -/
def sqlPostings (now : DateTime) (rows : List (NotificationInsert × String)) (answer : Except Error Unit) (db : Db) :
    List Posting :=
  if answer.isOk then postings (Sqlite.mailEntry lib serializer now) (sqlAccept lib serializer now) rows db.notifications
  else []

/-- The keyed messages of one transaction; a position that is taken carries none. -/
def sqlCarried (now : DateTime) (db : Db) : MailEvent → List Posting
  | .insertNotifications rows =>
    sqlPostings lib serializer now rows (Sqlite.insertNotificationsOn refuses lib serializer now rows db).1 db
  | .sendFromWorkflow id seq name rows =>
    sqlPostings lib serializer now (if (db.operationOutputs.get (id, seq)).isSome then [] else rows)
      (Sqlite.sendFromWorkflow refuses lib serializer now id seq name rows db).1 db
  | .consumeNotification _ _ _ _ _ | .other _ => []

def nextSql (sys : SqlSystem) (event : DateTime × MailEvent) : SqlSystem where
  db := Sqlite.mailStep refuses lib serializer sys.db event
  log := sys.log ++ sqlCarried refuses lib serializer event.1 sys.db event.2

abbrev runSql (events : List (DateTime × MailEvent)) : SqlSystem := Runs.run (nextSql refuses lib serializer) events SqlSystem.new

/-- The other transactions leave the mailbox alone, and fresh ids have no colon. -/
def AllowedSql (sys : SqlSystem) (event : DateTime × MailEvent) : Prop :=
  match event.2 with
  | .insertNotifications rows | .sendFromWorkflow _ _ _ rows => ∀ row ∈ rows, Plain row.2
  | .consumeNotification _ _ _ _ _ => True
  | .other transaction => (transaction sys.db).notifications = sys.db.notifications

def sqlUuids (mail : List NotificationRecord) : List String := mail.map (·.messageUuid)

variable {refuses lib serializer}

theorem sqlAccepts (lib : SerdeJson) (serializer : Serializer) (now : DateTime) (row : NotificationInsert × String) :
    Accepts sqlUuids (Sqlite.mailEntry lib serializer now) (sqlAccept lib serializer now) row where
  keyed mail _ := by
    have held : mail.any (·.messageUuid == (Sqlite.mailEntry lib serializer now row).messageUuid) = true ↔
        messageUuid row.1 row.2 ∈ sqlUuids mail := by simp [Sqlite.mailEntry, sqlUuids]
    unfold sqlAccept Sqlite.insertOrIgnore
    by_cases sent : mail.any (·.messageUuid == (Sqlite.mailEntry lib serializer now row).messageUuid) = true
    · have member := held.mp sent
      rw [if_pos sent]
      refine ⟨⟨fun same => absurd (congrArg List.length same) (by simp), fun absent => absurd member absent⟩, ?_⟩
      intro id
      exact ⟨.inl, fun either => either.elim (fun held => held) fun same => same ▸ member⟩
    · have absent := mt held.mpr sent
      rw [if_neg sent]
      refine ⟨⟨fun _ => absent, fun _ => rfl⟩, ?_⟩
      intro id
      simp [sqlUuids, Sqlite.mailEntry]
  plain mail unkeyed id other := by
    have mine : messageUuid row.1 row.2 = row.2 := by simp [messageUuid, unkeyed]
    unfold sqlAccept Sqlite.insertOrIgnore
    split
    · exact Iff.rfl
    · simp [sqlUuids, Sqlite.mailEntry, mine, other]

/-- An insert that is answered enters its keyed messages, one that is refused changes nothing. -/
theorem Logged.insert (refuses : Sqlite.Limit) (lib : SerdeJson) (serializer : Serializer) (now : DateTime)
    (rows : List (NotificationInsert × String)) (db : Db) {log : List Posting}
    (logged : Logged log (sqlUuids db.notifications)) (plain : ∀ row ∈ rows, Plain row.2) :
    Logged (log ++ sqlPostings lib serializer now rows (Sqlite.insertNotificationsOn refuses lib serializer now rows db).1 db)
      (sqlUuids (Sqlite.insertNotificationsOn refuses lib serializer now rows db).2.notifications) := by
  rcases Sqlite.insertNotificationsOn_cases refuses lib serializer now rows db with ⟨e, failed⟩ | inserted
  · rw [failed]
    simpa [sqlPostings, Except.isOk, Except.toBool] using logged
  · rw [inserted]
    exact logged.taken (fun row _ => sqlAccepts lib serializer now row) plain

theorem nextSql_logged (sys : SqlSystem) (event : DateTime × MailEvent) (allowed : AllowedSql sys event)
    (logged : Logged sys.log (sqlUuids sys.db.notifications)) :
    Logged (nextSql refuses lib serializer sys event).log (sqlUuids (nextSql refuses lib serializer sys event).db.notifications) := by
  obtain ⟨now, event⟩ := event
  cases event with
  | insertNotifications rows => exact Logged.insert refuses lib serializer now rows sys.db logged allowed
  | sendFromWorkflow id seq name rows =>
    rcases Sqlite.sendFromWorkflow_cases refuses lib serializer now id seq name rows sys.db with
      ⟨same, silent⟩ | ⟨row, free, -, answered, sent⟩
    · have nothing : sqlCarried refuses lib serializer now sys.db (.sendFromWorkflow id seq name rows) = [] := by
        rcases silent with ⟨-, row, taken, -⟩ | failed
        · simp [sqlCarried, sqlPostings, taken, postings]
        · simp [sqlCarried, sqlPostings, failed]
      simpa [nextSql, Sqlite.mailStep, same, nothing] using logged
    · have after := Logged.insert refuses lib serializer now rows
        { sys.db with operationOutputs := sys.db.operationOutputs.put (id, seq) row } logged allowed
      simpa [nextSql, Sqlite.mailStep, sqlCarried, free, sent, sqlPostings] using after
  | consumeNotification id topic seq name pick =>
    have same : sqlUuids (Sqlite.consumeNotification lib serializer now id topic seq name pick sys.db).2.notifications =
        sqlUuids sys.db.notifications := by
      rcases Sqlite.consumeNotification_cases lib serializer now id topic seq name pick sys.db with
        kept | ⟨n, place, row, -, -, -, -, -, -, took⟩
      · rw [kept]
      · rw [took]
        exact Mailbox.map_modify _ Sqlite.consume (fun _ => rfl) _ _
    simpa [nextSql, Sqlite.mailStep, sqlCarried, same] using logged
  | other transaction =>
    have same : (transaction sys.db).notifications = sys.db.notifications := allowed
    simpa [nextSql, Sqlite.mailStep, sqlCarried, same] using logged

theorem runSql_logged {events : List (DateTime × MailEvent)}
    (allowed : Runs.Along (nextSql refuses lib serializer) AllowedSql events SqlSystem.new) :
    Logged (runSql refuses lib serializer events).log (sqlUuids (runSql refuses lib serializer events).db.notifications) :=
  Runs.invariant (I := fun sys : SqlSystem => Logged sys.log (sqlUuids sys.db.notifications)) nextSql_logged allowed
    (Mailbox.Posted.empty Keyed)

end Sql

/-- In every run, in memory or on SQL, each keyed message is delivered unless its key was sent to its
destination before, if and only if no two different pairs of the run join to one id. -/
theorem keyed_sends_faithful (refuses : Sqlite.Limit) (lib : SerdeJson) (serializer : Serializer)
    (events : List (DateTime × Call))
    (transactions : List (DateTime × Sqlite.MailEvent)) (allowed : Runs.Along (next lib) Allowed events System.new)
    (allowedSql : Runs.Along (nextSql refuses lib serializer) AllowedSql transactions SqlSystem.new) :
    (Faithful (run lib events).log ↔ Apart (run lib events).log) ∧
      (Faithful (runSql refuses lib serializer transactions).log ↔ Apart (runSql refuses lib serializer transactions).log) :=
  ⟨(run_logged lib allowed).faithful_iff, (runSql_logged allowedSql).faithful_iff⟩

/-- Two keyed messages from outside, the second once more after its mailbox was read. -/
def send (key destination : String) (message : Value) : NotificationInsert := ⟨destination, "", message, some key⟩

def starts (ids : List String) : List (DateTime × Call) :=
  ids.map fun id => (0, .insertWorkflowStatus (.new 0 id "main" .null .pending "e" "v"))

def ordinary : List (DateTime × Call) := starts ["c", "d"] ++
  [(1, .insertNotification (send "k" "c" (.bool true)) "f1"), (2, .insertNotification (send "k" "d" .null) "f2"),
    (3, .consumeNotification "d" "" 0 "DBOS.recv"), (4, .insertNotification (send "k" "d" .null) "f3")]

/-- The rows of two workflows, stored by some transaction. -/
def stores (ids : List String) (db : Sqlite.Db) : Sqlite.Db :=
  { db with workflowStatus := ids.foldl (fun t id => t.put id
      { status := .pending, name := "main", inputs := none, serialization := none, executorId := none,
        applicationVersion := none, createdAt := 0, updatedAt := 0 }) db.workflowStatus }

def ordinarySql : List (DateTime × Sqlite.MailEvent) :=
  [(0, .other (stores ["c", "d"])), (1, .insertNotifications [(send "k" "c" .null, "f1")]),
    (2, .insertNotifications [(send "k" "d" .null, "f2")]), (3, .consumeNotification "d" "" 0 "DBOS.recv" 0),
    (4, .insertNotifications [(send "k" "d" .null, "f3")])]

theorem keyed_sends_faithful_ordinary :
    (run (.reading []) ordinary).log = [⟨"k", "c", true⟩, ⟨"k", "d", true⟩, ⟨"k", "d", false⟩] ∧
      (Faithful (run (.reading []) ordinary).log ↔ Apart (run (.reading []) ordinary).log) ∧
      (Faithful (runSql Sqlite.variableLimit (.reading []) .json ordinarySql).log ↔ Apart (runSql Sqlite.variableLimit (.reading []) .json ordinarySql).log) :=
  ⟨by decide, keyed_sends_faithful Sqlite.variableLimit (.reading []) .json ordinary ordinarySql
    (by simp [Runs.Along, ordinary, starts, Allowed, freshIds, Plain])
    (by simp [Runs.Along, ordinarySql, AllowedSql, Plain, stores])⟩

/-- Two pairs that join to one id. -/
def ambiguous : List (DateTime × Call) := starts ["b::c", "c"] ++
  [(1, .insertNotification (send "a" "b::c" .null) "f1"), (2, .insertNotification (send "a::b" "c" .null) "f2")]

def ambiguousSql : List (DateTime × Sqlite.MailEvent) :=
  [(0, .other (stores ["b::c", "c"])), (1, .insertNotifications [(send "a" "b::c" .null, "f1")]),
    (2, .insertNotifications [(send "a::b" "c" .null, "f2")])]

/-- The second of them is accepted and never delivered. -/
theorem second_pair_dropped : ¬ Faithful (run (.reading []) ambiguous).log ∧
    ¬ Faithful (runSql Sqlite.variableLimit (.reading []) .json ambiguousSql).log := by
  have log : (run (.reading []) ambiguous).log = [⟨"a", "b::c", true⟩, ⟨"a::b", "c", false⟩] := by decide
  have logSql : (runSql Sqlite.variableLimit (.reading []) .json ambiguousSql).log = [⟨"a", "b::c", true⟩, ⟨"a::b", "c", false⟩] := by decide
  have dropped : ¬ Faithful [⟨"a", "b::c", true⟩, ⟨"a::b", "c", false⟩] := by
    intro faithful
    have delivered := (faithful [⟨"a", "b::c", true⟩] ⟨"a::b", "c", false⟩ [] rfl).mpr (by decide)
    cases delivered
  exact ⟨log ▸ dropped, logSql ▸ dropped⟩

end Durare.Sends

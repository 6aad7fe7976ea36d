import Durare.Sqlite
import Mathlib.Data.List.Dedup

/-! The mailbox of the SQL providers. A call is one transaction; its statements are the same on
SQLite and on Postgres. Among messages of one millisecond the order of a `SELECT` is the database's. -/
namespace Durare.Sqlite

variable (refuses : Limit) (lib : SerdeJson) (serializer : Serializer)

/-- `recorded_output_on`: the outcome at a position, of the step that is expected there. -/
def recordedOutputOn (id : String) (seq : Int) (name : String) (db : Db) : Except Error (Option Value) :=
  match db.operationOutputs.get (id, seq) with
  | none => .ok none
  | some row =>
    if row.functionName ≠ name then .error (.unexpectedStep id seq name row.functionName)
    else match stepOutcomeFrom lib serializer row.serialization row.output row.error with
      | .error e => .error e
      | .ok outcome => ((outcome.getD (.output .null)).intoValueResult lib).map some

/-- `checkpoint_on`: whether this call wrote the position. -/
def checkpointOn (now : DateTime) (id : String) (seq : Int) (name output : String) (format : Option String) (db : Db) :
    Answer Bool :=
  match db.operationOutputs.get (id, seq) with
  | some _ => (.ok false, db)
  | none =>
    if (db.workflowStatus.get id).isNone then (.error foreignKeyViolation, db)
    else
      let row : StepRecord :=
        { functionName := name
          output := some output
          serialization := format
          completedAtMs := some now.timestampMillis }
      (.ok true, { db with operationOutputs := db.operationOutputs.put (id, seq) row })

/-- The row of a message: a keyed one derives its id, another takes a fresh one. -/
def notificationRecord (now : DateTime) (row : NotificationInsert × String) : Except Error NotificationRecord :=
  (serializer.encode lib row.1.message).map fun encoded =>
    { messageUuid := Memory.messageUuid row.1 row.2
      destinationUuid := row.1.destinationId
      topic := row.1.topic
      message := encoded
      serialization := some serializer.name
      createdAtMs := now.timestampMillis }

/-- `INSERT .. ON CONFLICT (message_uuid) DO NOTHING` of one row. -/
def insertOrIgnore (mail : List NotificationRecord) (record : NotificationRecord) : List NotificationRecord :=
  if mail.any (·.messageUuid == record.messageUuid) then mail else mail ++ [record]

/-- `insert_notifications_on`: one statement for all rows, six columns each, with the foreign key on
the destination. -/
def insertNotificationsOn (now : DateTime) (rows : List (NotificationInsert × String)) (db : Db) : Answer Unit :=
  if rows.isEmpty then (.ok (), db)
  else match rows.mapM (notificationRecord lib serializer now) with
    | .error e => (.error e, db)
    | .ok records =>
      match refuses (6 * rows.length) with
      | some e => (.error e, db)
      | none =>
        let mail := records.foldl insertOrIgnore db.notifications
        if (mail.drop db.notifications.length).all fun n => (db.workflowStatus.get n.destinationUuid).isSome then
          (.ok (), { db with notifications := mail })
        else
          let destinations := ((rows.map (·.1.destinationId)).mergeSort (· ≤ ·)).dedup
          (.error (.nonExistentWorkflow (", ".intercalate destinations)), db)

def insertNotification (now : DateTime) (row : NotificationInsert) (fresh : String) (db : Db) : Answer Unit :=
  insertNotificationsOn refuses lib serializer now [(row, fresh)] db

/-- The checkpoint goes first: a position that is taken delivers nothing. -/
def sendFromWorkflow (now : DateTime) (id : String) (seq : Int) (name : String)
    (rows : List (NotificationInsert × String)) (db : Db) : Answer Unit :=
  match serializer.encode lib .null with
  | .error e => (.error e, db)
  | .ok output =>
    match checkpointOn now id seq name output (some serializer.name) db with
    | (.error e, _) => (.error e, db)
    | (.ok false, _) => ((recordedOutputOn lib serializer id seq name db).map fun _ => (), db)
    | (.ok true, marked) =>
      match insertNotificationsOn refuses lib serializer now rows marked with
      | (.error e, _) => (.error e, db)
      | (.ok _, sent) => (.ok (), sent)

def waiting (id topic : String) (n : NotificationRecord) : Bool :=
  !n.consumed && n.destinationUuid == id && n.topic == topic

/-- The messages that `ORDER BY created_at_epoch_ms ASC LIMIT 1` may return, with their places. -/
def oldestTied (id topic : String) (mail : List NotificationRecord) : List (NotificationRecord × Nat) :=
  let candidates := mail.zipIdx.filter fun n => waiting id topic n.1
  candidates.filter fun n => candidates.all fun m => decide (n.1.createdAtMs ≤ m.1.createdAtMs)

def consume (n : NotificationRecord) : NotificationRecord := { n with consumed := true }

/-- `consume_notification`. `pick` stands for the database's choice among messages of one age. -/
def consumeNotification (now : DateTime) (id topic : String) (seq : Int) (name : String) (pick : Nat) (db : Db) :
    Answer (Option Value) :=
  match recordedOutputOn lib serializer id seq name db with
  | .error e => (.error e, db)
  | .ok (some recorded) => (.ok (some recorded), db)
  | .ok none =>
    let tied := oldestTied id topic db.notifications
    match tied[pick % tied.length]? with
    | none => (.ok none, db)
    | some (row, place) =>
      let claimed := { db with notifications := db.notifications.modify place consume }
      match checkpointOn now id seq name row.message row.serialization claimed with
      | (.ok true, taken) =>
        -- The claim stands even where the message does not decode.
        ((decode lib serializer row.serialization row.message).map some, taken)
      | (.ok false, _) => (recordedOutputOn lib serializer id seq name db, db)
      | (.error e, _) => (.error e, db)

/-- Transactions that send or consume messages, and any other. -/
inductive MailEvent where
  | insertNotifications (rows : List (NotificationInsert × String))
  | sendFromWorkflow (id : String) (seq : Int) (name : String) (rows : List (NotificationInsert × String))
  | consumeNotification (id topic : String) (seq : Int) (name : String) (pick : Nat)
  | other (transaction : Db → Db)

def mailStep (db : Db) (event : DateTime × MailEvent) : Db :=
  match event.2 with
  | .insertNotifications rows => (insertNotificationsOn refuses lib serializer event.1 rows db).2
  | .sendFromWorkflow id seq name rows => (sendFromWorkflow refuses lib serializer event.1 id seq name rows db).2
  | .consumeNotification id topic seq name pick =>
    (consumeNotification lib serializer event.1 id topic seq name pick db).2
  | .other transaction => transaction db

/-- The row of a message whose payload was encoded. -/
def mailEntry (now : DateTime) (row : NotificationInsert × String) : NotificationRecord where
  messageUuid := Memory.messageUuid row.1 row.2
  destinationUuid := row.1.destinationId
  topic := row.1.topic
  message := (serializer.encode lib row.1.message).toOption.getD ""
  serialization := some serializer.name
  createdAtMs := now.timestampMillis

variable {lib serializer}

theorem mapM_notificationRecord {now : DateTime} {rows : List (NotificationInsert × String)}
    {records : List NotificationRecord} (prepared : rows.mapM (notificationRecord lib serializer now) = .ok records) :
    records = rows.map (mailEntry lib serializer now) := by
  induction rows generalizing records with
  | nil =>
    cases prepared
    rfl
  | cons row rows ih =>
    rw [List.mapM_cons] at prepared
    cases first : notificationRecord lib serializer now row with
    | error e =>
      rw [first] at prepared
      cases prepared
    | ok record =>
      cases rest : rows.mapM (notificationRecord lib serializer now) with
      | error e =>
        rw [first, rest] at prepared
        cases prepared
      | ok others =>
        rw [first, rest] at prepared
        cases prepared
        have here : record = mailEntry lib serializer now row := by
          unfold notificationRecord at first
          cases encoded : serializer.encode lib row.1.message with
          | error e =>
            rw [encoded] at first
            cases first
          | ok text =>
            rw [encoded] at first
            cases first
            simp [mailEntry, encoded, Except.toOption]
        rw [List.map_cons, ih rest, here]

/-- An insert is refused and changes nothing, or takes its rows in one by one. -/
theorem insertNotificationsOn_cases (refuses : Limit) (lib : SerdeJson) (serializer : Serializer) (now : DateTime)
    (rows : List (NotificationInsert × String)) (db : Db) :
    (∃ e, insertNotificationsOn refuses lib serializer now rows db = (.error e, db)) ∨
    insertNotificationsOn refuses lib serializer now rows db = (.ok (), { db with
      notifications := rows.foldl (fun mail row => insertOrIgnore mail (mailEntry lib serializer now row)) db.notifications }) := by
  unfold insertNotificationsOn
  split
  next none =>
    rw [List.isEmpty_iff] at none
    subst none
    exact .inr rfl
  · split
    · exact .inl ⟨_, rfl⟩
    next records prepared =>
      split
      · exact .inl ⟨_, rfl⟩
      · dsimp only
        split
        · rw [mapM_notificationRecord prepared, List.foldl_map]
          exact .inr rfl
        · exact .inl ⟨_, rfl⟩

/-- A checkpoint finds its position taken, fails, or writes its row there. -/
theorem checkpointOn_cases (now : DateTime) (id : String) (seq : Int) (name output : String) (format : Option String)
    (db : Db) :
    (∃ row, db.operationOutputs.get (id, seq) = some row ∧
      checkpointOn now id seq name output format db = (.ok false, db)) ∨
    (∃ e, checkpointOn now id seq name output format db = (.error e, db)) ∨
    (∃ row, db.operationOutputs.get (id, seq) = none ∧ row.functionName = name ∧ row.output = some output ∧
      row.error = none ∧ row.serialization = format ∧ checkpointOn now id seq name output format db =
        (.ok true, { db with operationOutputs := db.operationOutputs.put (id, seq) row })) := by
  unfold checkpointOn
  cases taken : db.operationOutputs.get (id, seq) with
  | some row => exact .inl ⟨row, rfl, rfl⟩
  | none =>
    dsimp only
    split
    · exact .inr (.inl ⟨_, rfl⟩)
    · exact .inr (.inr ⟨_, rfl, rfl, rfl, rfl, rfl, rfl⟩)

/-- A recorded output is of the step that is asked for. -/
theorem recordedOutputOn_named {id : String} {seq : Int} {name : String} {db : Db} {row : StepRecord}
    (taken : db.operationOutputs.get (id, seq) = some row) {found : Option Value}
    (served : recordedOutputOn lib serializer id seq name db = .ok found) : row.functionName = name := by
  simp only [recordedOutputOn, taken] at served
  split at served
  · cases served
  next named => simpa using named

/-- A workflow's send changes nothing, or inserts its rows beside its checkpoint. -/
theorem sendFromWorkflow_cases (refuses : Limit) (lib : SerdeJson) (serializer : Serializer) (now : DateTime)
    (id : String) (seq : Int) (name : String) (rows : List (NotificationInsert × String)) (db : Db) :
    ((sendFromWorkflow refuses lib serializer now id seq name rows db).2 = db ∧
      (((sendFromWorkflow refuses lib serializer now id seq name rows db).1.isOk = true ∧
          ∃ row, db.operationOutputs.get (id, seq) = some row ∧ row.functionName = name) ∨
        (sendFromWorkflow refuses lib serializer now id seq name rows db).1.isOk = false)) ∨
    ∃ row, db.operationOutputs.get (id, seq) = none ∧ row.functionName = name ∧
      (insertNotificationsOn refuses lib serializer now rows
        { db with operationOutputs := db.operationOutputs.put (id, seq) row }).1 = .ok () ∧
      sendFromWorkflow refuses lib serializer now id seq name rows db =
        insertNotificationsOn refuses lib serializer now rows
          { db with operationOutputs := db.operationOutputs.put (id, seq) row } := by
  unfold sendFromWorkflow
  split
  · exact .inl ⟨rfl, .inr rfl⟩
  next output _ =>
  rcases checkpointOn_cases now id seq name output (some serializer.name) db with
    ⟨row, taken, wrote⟩ | ⟨e, wrote⟩ | ⟨row, free, named, -, -, -, wrote⟩
  · rw [wrote]
    refine .inl ⟨rfl, ?_⟩
    dsimp only
    cases served : recordedOutputOn lib serializer id seq name db with
    | error e => exact .inr rfl
    | ok found => exact .inl ⟨rfl, row, taken, recordedOutputOn_named taken served⟩
  · rw [wrote]
    exact .inl ⟨rfl, .inr rfl⟩
  · rw [wrote]
    dsimp only
    rcases insertNotificationsOn_cases refuses lib serializer now rows
      { db with operationOutputs := db.operationOutputs.put (id, seq) row } with ⟨e, failed⟩ | inserted
    · rw [failed]
      exact .inl ⟨rfl, .inr rfl⟩
    · exact .inr ⟨row, free, named, by rw [inserted], by rw [inserted]⟩

theorem recordedOutputOn_none {id : String} {seq : Int} {name : String} {db : Db} :
    recordedOutputOn lib serializer id seq name db = .ok none ↔ db.operationOutputs.get (id, seq) = none := by
  unfold recordedOutputOn
  cases db.operationOutputs.get (id, seq) with
  | none => simp
  | some row =>
    dsimp only
    split
    · simp
    · split
      · simp
      next outcome _ => cases (outcome.getD (.output .null)).intoValueResult lib <;> simp [Except.map]

/-- A consumption leaves the database as it is, or marks one of the oldest messages and records it at
its position. -/
theorem consumeNotification_cases (lib : SerdeJson) (serializer : Serializer) (now : DateTime) (id topic : String)
    (seq : Int) (name : String) (pick : Nat) (db : Db) :
    (consumeNotification lib serializer now id topic seq name pick db).2 = db ∨
    ∃ n place row, (n, place) ∈ oldestTied id topic db.notifications ∧ db.operationOutputs.get (id, seq) = none ∧
      row.functionName = name ∧ row.output = some n.message ∧ row.error = none ∧ row.serialization = n.serialization ∧
      consumeNotification lib serializer now id topic seq name pick db =
        ((decode lib serializer n.serialization n.message).map some,
          { db with
            notifications := db.notifications.modify place consume
            operationOutputs := db.operationOutputs.put (id, seq) row }) := by
  unfold consumeNotification
  split
  · exact .inl rfl
  · exact .inl rfl
  next vacant =>
  dsimp only
  split
  · exact .inl rfl
  next n place found =>
  rcases checkpointOn_cases now id seq name n.message n.serialization
    { db with notifications := db.notifications.modify place consume } with
    ⟨row, taken, wrote⟩ | ⟨e, wrote⟩ | ⟨row, free, named, output, clean, format, wrote⟩
  · rw [recordedOutputOn_none] at vacant
    rw [vacant] at taken
    cases taken
  · rw [wrote]
    exact .inl rfl
  · refine .inr ⟨n, place, row, List.mem_of_getElem? found, free, named, output, clean, format, ?_⟩
    rw [wrote]

end Durare.Sqlite

import Durare.Runs
import Durare.StreamRows

/-! Sends and stream writes on SQLite over whole runs, with rival executions: each position commits once, the rows of
a stream stay numbered, and a read returns what was written unless a value was stored as the text of the close. -/
namespace Durare.StreamWrites

open Sqlite
open Memory (STREAM_CLOSED_SENTINEL)

variable (refuses : Limit) (lib : SerdeJson) (serializer : Serializer)

inductive Call where
  | sendFromWorkflow (id : String) (seq : Int) (name : String) (rows : List (NotificationInsert × String))
  | writeStreamFromWorkflow (id : String) (seq : Int) (name key : String) (value : Option Value)
  | writeStream (id key : String) (value : Option Value) (functionId : Int)
  | other (transaction : Db → Db)

def exec (now : DateTime) (call : Call) (db : Db) : Answer Unit :=
  match call with
  | .sendFromWorkflow id seq name rows => sendFromWorkflow refuses lib serializer now id seq name rows db
  | .writeStreamFromWorkflow id seq name key value => writeStreamFromWorkflow lib serializer now id seq name key value db
  | .writeStream id key value functionId => writeStream lib serializer id key value functionId db
  | .other transaction => (.ok (), transaction db)

def step (db : Db) (event : DateTime × Call) : Db := (exec refuses lib serializer event.1 event.2 db).2

def commits : Call → Option (String × Int)
  | .sendFromWorkflow id seq _ _ | .writeStreamFromWorkflow id seq _ _ _ => some (id, seq)
  | _ => none

def entry : Call → Option ((String × String) × Option Value)
  | .writeStreamFromWorkflow id _ _ key value | .writeStream id key value _ => some ((id, key), value)
  | _ => none

/-- Nothing is imported: the others leave a stream as it is or delete it. -/
def Unimported (db : Db) (event : DateTime × Call) : Prop :=
  match event.2 with
  | .other transaction => ∀ id key,
      (∀ offset, (transaction db).streams.get (id, key, offset) = db.streams.get (id, key, offset)) ∨
        ∀ offset, (transaction db).streams.get (id, key, offset) = none
  | _ => True

/-- The others keep the steps and the streams of a workflow. -/
def Spares (id : String) (db : Db) (event : DateTime × Call) : Prop :=
  match event.2 with
  | .other transaction =>
    (∀ seq row, db.operationOutputs.get (id, seq) = some row →
      (transaction db).operationOutputs.get (id, seq) = some row) ∧
      ∀ key offset, (transaction db).streams.get (id, key, offset) = db.streams.get (id, key, offset)
  | _ => True

def Distinct (_ : Db) (event : DateTime × Call) : Prop :=
  ∀ stream value, entry event.2 = some (stream, some value) → serializer.encode lib value ≠ .ok STREAM_CLOSED_SENTINEL

def Ends (now : DateTime) (db : Db) (call : Call) (answer : Except Error Unit) (db' : Db) : Prop :=
  match call with
  | .sendFromWorkflow id seq name rows => Committed (Delivers lib serializer now rows) id seq name db answer db'
  | .writeStreamFromWorkflow id seq name key value =>
    Committed (Appends lib serializer id key value seq) id seq name db answer db'
  | .writeStream id key value functionId =>
    answer = .ok () ∧ Appends lib serializer id key value functionId db db' ∨ answer.isOk = false ∧ db' = db
  | .other _ => True

def Holds (record : StreamRecord) (value : Option Value) : Prop :=
  streamText lib serializer value = .ok (record.value, record.serialization)

/-- The stream was open and has one row more, that of the entry. -/
def Grows (id key : String) (value : Option Value) (db db' : Db) : Prop :=
  ¬ Shut db id key ∧ ∃ record, Holds lib serializer record value ∧
    db'.streams = db.streams.put (id, key, nextOffset id key db) record

variable {refuses lib serializer} {db : Db}

theorem call_ends (refuses : Limit) (lib : SerdeJson) (serializer : Serializer) (now : DateTime) (db : Db) (call : Call) :
    Ends lib serializer now db call (exec refuses lib serializer now call db).1
      (step refuses lib serializer db (now, call)) := by
  cases call with
  | sendFromWorkflow id seq name rows => exact send_committed refuses lib serializer now id seq name rows db
  | writeStreamFromWorkflow id seq name key value => exact write_committed lib serializer now id seq name key value db
  | writeStream id key value functionId =>
    obtain ⟨e, failed⟩ | ⟨db', done, happened⟩ := writeStreamOn_cases lib serializer id key value functionId db
    · exact .inr ⟨by rw [exec, writeStream, failed]; rfl, by rw [step, exec, writeStream, failed]⟩
    · exact .inl ⟨by rw [exec, writeStream, done], by rw [step, exec, writeStream, done]; exact happened⟩
  | other => trivial

theorem call_recorded {now : DateTime} {call : Call} {position : String × Int} (here : commits call = some position)
    (returned : (exec refuses lib serializer now call db).1.isOk = true) :
    ∃ row, (step refuses lib serializer db (now, call)).operationOutputs.get position = some row := by
  have ends := call_ends refuses lib serializer now db call
  cases call with
  | sendFromWorkflow =>
    cases here
    exact Option.isSome_iff_exists.mp (Committed.recorded ends (fun _ _ delivers => delivers.steps) returned)
  | writeStreamFromWorkflow =>
    cases here
    exact Option.isSome_iff_exists.mp (Committed.recorded ends (fun _ _ appends => appends.steps) returned)
  | writeStream | other => cases here

theorem recorded_unchanged {now : DateTime} {call : Call} {position : String × Int} {row : StepRecord}
    (here : commits call = some position) (present : db.operationOutputs.get position = some row) :
    step refuses lib serializer db (now, call) = db := by
  have ends := call_ends refuses lib serializer now db call
  cases call with
  | sendFromWorkflow | writeStreamFromWorkflow =>
    cases here
    exact Committed.unchanged ends (by rw [present]; rfl)
  | writeStream | other => cases here

theorem grows_of_appends {id key : String} {value : Option Value} {functionId : Int} {a b : Db}
    (appends : Appends lib serializer id key value functionId a b) (same : a.streams = db.streams) :
    Grows lib serializer id key value db b := by
  obtain ⟨open_, stored, format, encoded, rfl⟩ := appends
  have rows : entryRows id key a = entryRows id key db := by
    rw [entryRows, entryRows, streamRows, streamRows, same]
  refine ⟨?_, ⟨stored, functionId, format⟩, encoded, ?_⟩
  · rwa [Shut, rows] at open_
  · rw [appended, nextOffset, nextOffset, rows, same]

/-- A call leaves all streams as they are, lets one grow, or is another. -/
theorem step_streams (refuses : Limit) (lib : SerdeJson) (serializer : Serializer) (now : DateTime) (db : Db)
    (call : Call) :
    (step refuses lib serializer db (now, call)).streams = db.streams ∨
      (∃ id key value, entry call = some ((id, key), value) ∧
        Grows lib serializer id key value db (step refuses lib serializer db (now, call))) ∨
      ∃ transaction, call = .other transaction := by
  have ends := call_ends refuses lib serializer now db call
  cases call with
  | sendFromWorkflow id seq name rows =>
    refine .inl ?_
    generalize (exec refuses lib serializer now _ db).1 = answer at ends
    generalize step refuses lib serializer db _ = db' at ends ⊢
    obtain ⟨vacant, row, named, db', delivers⟩ | _ | _ := ends
    · rw [delivers]
    · rfl
    · rfl
  | writeStreamFromWorkflow id seq name key value =>
    generalize (exec refuses lib serializer now _ db).1 = answer at ends
    generalize step refuses lib serializer db _ = db' at ends ⊢
    obtain ⟨vacant, row, named, db', appends⟩ | _ | _ := ends
    · exact .inr (.inl ⟨id, key, value, rfl, grows_of_appends appends rfl⟩)
    · exact .inl rfl
    · exact .inl rfl
  | writeStream id key value functionId =>
    obtain ⟨-, appends⟩ | ⟨-, same⟩ := ends
    · exact .inr (.inl ⟨id, key, value, rfl, grows_of_appends appends rfl⟩)
    · exact .inl (by rw [same])
  | other transaction => exact .inr (.inr ⟨transaction, rfl⟩)

section Laid

variable {id key : String} {records : List StreamRecord} {db' : Db}

theorem laid_congr (same : ∀ offset, db'.streams.get (id, key, offset) = db.streams.get (id, key, offset))
    (laid : Laid db id key records) : Laid db' id key records := by
  intro offset record
  rw [same]
  exact laid offset record

theorem laid_nil (gone : ∀ offset, db.streams.get (id, key, offset) = none) : Laid db id key [] := by
  intro offset record
  simp [gone]

/-- A stream that grows has the record behind the others; the other streams keep theirs. -/
theorem laid_grows {id' key' : String} {value : Option Value} (grows : Grows lib serializer id' key' value db db')
    (laid : Laid db id key records) :
    Laid db' id key records ∨ (id', key') = (id, key) ∧ ¬ Shut db id key ∧
      ∃ record, Holds lib serializer record value ∧ Laid db' id key (records ++ [record]) := by
  obtain ⟨open_, record, holds, put⟩ := grows
  by_cases here : id' = id ∧ key' = key
  · obtain ⟨rfl, rfl⟩ := here
    rw [laid.nextOffset_eq] at put
    exact .inr ⟨rfl, open_, record, holds, laid.append record put⟩
  · exact .inl (laid.other put here)

/-- One call and one stream: the records stay, or one is appended, or the call is another. -/
theorem call_laid (refuses : Limit) (lib : SerdeJson) (serializer : Serializer) (now : DateTime) (call : Call)
    (laid : Laid db id key records) :
    Laid (step refuses lib serializer db (now, call)) id key records ∨
      (¬ Shut db id key ∧ ∃ value record, entry call = some ((id, key), value) ∧ Holds lib serializer record value ∧
        Laid (step refuses lib serializer db (now, call)) id key (records ++ [record])) ∨
      ∃ transaction, call = .other transaction := by
  obtain same | ⟨id', key', value, written, grows⟩ | other := step_streams refuses lib serializer now db call
  · exact .inl (laid_congr (fun offset => by rw [same]) laid)
  · obtain kept | ⟨stream, open_, record, holds, more⟩ := laid_grows grows laid
    · exact .inl kept
    · rw [stream] at written
      exact .inr (.inl ⟨open_, value, record, written, holds, more⟩)
  · exact .inr (.inr other)

theorem step_laid (refuses : Limit) (lib : SerdeJson) (serializer : Serializer) {event : DateTime × Call}
    (unimported : Unimported db event) (laid : Laid db id key records) :
    Laid (step refuses lib serializer db event) id key records ∨
      Laid (step refuses lib serializer db event) id key [] ∨
      ¬ Shut db id key ∧ ∃ value record, entry event.2 = some ((id, key), value) ∧ Holds lib serializer record value ∧
        Laid (step refuses lib serializer db event) id key (records ++ [record]) := by
  obtain ⟨now, call⟩ := event
  obtain same | more | ⟨transaction, rfl⟩ := call_laid refuses lib serializer now call laid
  · exact .inl same
  · exact .inr (.inr more)
  · exact (unimported id key).imp (laid_congr · laid) fun gone => .inl (laid_nil gone)

theorem spared_laid (refuses : Limit) (lib : SerdeJson) (serializer : Serializer) {event : DateTime × Call}
    (spared : Spares id db event) (laid : Laid db id key records) :
    Laid (step refuses lib serializer db event) id key records ∨
      ¬ Shut db id key ∧ ∃ value record, entry event.2 = some ((id, key), value) ∧ Holds lib serializer record value ∧
        Laid (step refuses lib serializer db event) id key (records ++ [record]) := by
  obtain ⟨now, call⟩ := event
  obtain same | more | ⟨transaction, rfl⟩ := call_laid refuses lib serializer now call laid
  · exact .inl same
  · exact .inr more
  · exact .inl (laid_congr (spared.2 key) laid)

end Laid

/-- A step row of a spared workflow stays. -/
theorem step_spares (refuses : Limit) (lib : SerdeJson) (serializer : Serializer) {db : Db} {event : DateTime × Call}
    {id : String} {seq : Int} {row : StepRecord} (spared : Spares id db event)
    (present : db.operationOutputs.get (id, seq) = some row) :
    (step refuses lib serializer db event).operationOutputs.get (id, seq) = some row := by
  obtain ⟨now, call⟩ := event
  have ends := call_ends refuses lib serializer now db call
  have committed {effect : Db → Db → Prop} {id' : String} {seq' : Int} {name : String} {answer : Except Error Unit}
      {db' : Db} (steps : ∀ a b, effect a b → b.operationOutputs = a.operationOutputs)
      (done : Committed effect id' seq' name db answer db') : db'.operationOutputs.get (id, seq) = some row := by
    cases done with
    | applied vacant written named db' happened =>
      have other : (id, seq) ≠ (id', seq') := by
        intro same
        rw [← same, present] at vacant
        cases vacant
      rw [steps _ _ happened, Table.get_put, if_neg other, present]
    | already | failed => exact present
  cases call with
  | sendFromWorkflow => exact committed (fun _ _ delivers => delivers.steps) ends
  | writeStreamFromWorkflow => exact committed (fun _ _ appends => appends.steps) ends
  | writeStream =>
    obtain ⟨-, appends⟩ | ⟨-, same⟩ := ends
    · rw [appends.steps, present]
    · rw [same, present]
  | other transaction => exact spared.1 seq row present

def reread (lib : SerdeJson) (serializer : Serializer) (value : Value) : Except Error Value :=
  serializer.encode lib value >>= decode lib serializer (some serializer.name)

def Lists (lib : SerdeJson) (serializer : Serializer) (db : Db) (id key : String) (values : List Value) (shut : Bool) :
    Prop :=
  (∀ value ∈ values, serializer.encode lib value ≠ .ok STREAM_CLOSED_SENTINEL) ∧ ∃ records, Laid db id key records ∧
    List.Forall₂ (Holds lib serializer) records (Streams.entries values shut)

theorem holds_some {record : StreamRecord} {value : Value} (holds : Holds lib serializer record (some value)) :
    serializer.encode lib value = .ok record.value ∧ record.serialization = some serializer.name := by
  change (serializer.encode lib value).map _ = _ at holds
  cases encoded : serializer.encode lib value with
  | error e =>
    rw [encoded] at holds
    cases holds
  | ok text =>
    rw [encoded] at holds
    injection holds with pair
    injection pair with stored format
    exact ⟨by rw [stored], format.symm⟩

theorem holds_none {record : StreamRecord} (holds : Holds lib serializer record none) :
    record.value = STREAM_CLOSED_SENTINEL := by
  injection holds with pair
  injection pair with stored
  exact stored.symm

section Entries

variable {records : List StreamRecord} {values : List Value} {shut : Bool}
  (apart : ∀ value ∈ values, serializer.encode lib value ≠ .ok STREAM_CLOSED_SENTINEL)
  (holds : List.Forall₂ (Holds lib serializer) records (Streams.entries values shut))
include apart holds

theorem shut_entries : (records.any fun record => record.value == STREAM_CLOSED_SENTINEL) = shut := by
  induction values generalizing records with
  | nil =>
    cases shut with
    | false =>
      cases holds
      rfl
    | true =>
      obtain ⟨record, rest, close, none, rfl⟩ := List.forall₂_cons_right_iff.mp holds
      simp [holds_none close]
  | cons value values ih =>
    obtain ⟨record, rest, here, others, rfl⟩ := List.forall₂_cons_right_iff.mp holds
    have differs : record.value ≠ STREAM_CLOSED_SENTINEL := by
      intro same
      refine apart value List.mem_cons_self ?_
      rw [(holds_some here).1, same]
    rw [List.any_cons, ih (fun other member => apart other (List.mem_cons_of_mem _ member)) others]
    simp [differs]

theorem readRows_entries :
    readRows lib serializer records = (values.mapM (reread lib serializer)).map fun read => (read, shut) := by
  induction values generalizing records with
  | nil =>
    cases shut with
    | false =>
      cases holds
      rfl
    | true =>
      obtain ⟨record, rest, close, none, rfl⟩ := List.forall₂_cons_right_iff.mp holds
      simp [readRows, holds_none close, pure, Except.pure, Except.map]
  | cons value values ih =>
    obtain ⟨record, rest, here, others, rfl⟩ := List.forall₂_cons_right_iff.mp holds
    obtain ⟨stored, format⟩ := holds_some here
    have differs : record.value ≠ STREAM_CLOSED_SENTINEL := by
      intro same
      refine apart value List.mem_cons_self ?_
      rw [stored, same]
    have first : reread lib serializer value = decode lib serializer record.serialization record.value := by
      rw [reread, stored, format]
      rfl
    rw [readRows, if_neg differs, ih (fun other member => apart other (List.mem_cons_of_mem _ member)) others,
      List.mapM_cons, first]
    cases decode lib serializer record.serialization record.value with
    | error e => rfl
    | ok read =>
      cases values.mapM (reread lib serializer) with
      | error e => rfl
      | ok others => rfl

end Entries

theorem mapM_returned {values : List Value} (back : ∀ value ∈ values, reread lib serializer value = .ok value) :
    values.mapM (reread lib serializer) = .ok values := by
  induction values with
  | nil => rfl
  | cons value values ih =>
    rw [List.mapM_cons, back value List.mem_cons_self, ih fun other member => back other (List.mem_cons_of_mem _ member)]
    rfl

/-- A read from an offset on returns the values from there on, and the close if it lies there. -/
theorem Lists.readStream {id key : String} {values : List Value} {shut : Bool}
    (lists : Lists lib serializer db id key values shut) (offset : Int) :
    (Sqlite.readStream lib serializer id key offset db).1 =
      ((values.drop (max offset 0).toNat).mapM (reread lib serializer)).map fun read =>
        (read, shut && decide ((max offset 0).toNat ≤ values.length)) := by
  obtain ⟨apart, records, laid, holds⟩ := lists
  rw [Sqlite.readStream, laid.entryRows_eq, numbered_from]
  have rest := List.forall₂_drop (max offset 0).toNat holds
  rw [Streams.drop_entries] at rest
  exact readRows_entries (fun value member => apart value (List.mem_of_mem_drop member)) rest

/-- What the sends and stream writes of a run keep, whatever else goes on in between. -/
structure CommitsOnce (refuses : Limit) (lib : SerdeJson) (serializer : Serializer) (db : Db)
    (events : List (DateTime × Call)) : Prop where
  ends : ∀ before now call after, events = before ++ (now, call) :: after →
    Ends lib serializer now (Runs.run (step refuses lib serializer) before db) call
      (exec refuses lib serializer now call (Runs.run (step refuses lib serializer) before db)).1
      (Runs.run (step refuses lib serializer) (before ++ [(now, call)]) db)
  once : ∀ id, Runs.Along (step refuses lib serializer) (Spares id) events db →
    ∀ before now call middle now' call' after, events = before ++ (now, call) :: (middle ++ (now', call') :: after) →
    ∀ seq, commits call = some (id, seq) → commits call' = some (id, seq) →
    (exec refuses lib serializer now call (Runs.run (step refuses lib serializer) before db)).1.isOk = true →
    Runs.run (step refuses lib serializer) (before ++ (now, call) :: middle ++ [(now', call')]) db =
      Runs.run (step refuses lib serializer) (before ++ (now, call) :: middle) db
  numbered : ∀ before after, events = before ++ after → ∀ id key,
    ∃ records, Laid (Runs.run (step refuses lib serializer) before db) id key records
  appends : ∀ before event after, events = before ++ event :: after → ∀ id key,
    Spares id (Runs.run (step refuses lib serializer) before db) event →
    ∀ records, Laid (Runs.run (step refuses lib serializer) before db) id key records →
    Laid (Runs.run (step refuses lib serializer) (before ++ [event]) db) id key records ∨
      ¬ Shut (Runs.run (step refuses lib serializer) before db) id key ∧
        ∃ value record, entry event.2 = some ((id, key), value) ∧ Holds lib serializer record value ∧
          Laid (Runs.run (step refuses lib serializer) (before ++ [event]) db) id key (records ++ [record])

/-- Every stream is a list of values that may be shut, and is read as that. -/
structure Reads (lib : SerdeJson) (serializer : Serializer) (db : Db) (id key : String) (values : List Value)
    (shut : Bool) : Prop where
  lists : Lists lib serializer db id key values shut
  decoded : ∀ offset, (readStream lib serializer id key offset db).1 =
    ((values.drop (max offset 0).toNat).mapM (reread lib serializer)).map fun read =>
      (read, shut && decide ((max offset 0).toNat ≤ values.length))
  returned : (∀ value ∈ values, reread lib serializer value = .ok value) → ∀ offset,
    (readStream lib serializer id key offset db).1 =
      .ok (values.drop (max offset 0).toNat, shut && decide ((max offset 0).toNat ≤ values.length))

theorem Lists.reads {id key : String} {values : List Value} {shut : Bool}
    (lists : Lists lib serializer db id key values shut) : Reads lib serializer db id key values shut where
  lists := lists
  decoded := lists.readStream
  returned := by
    intro back offset
    rw [lists.readStream, mapM_returned fun value member => back value (List.mem_of_mem_drop member)]
    rfl

theorem step_numbered (refuses : Limit) (lib : SerdeJson) (serializer : Serializer) {db : Db} {event : DateTime × Call}
    (unimported : Unimported db event) (laid : ∀ id key, ∃ records, Laid db id key records) (id key : String) :
    ∃ records, Laid (step refuses lib serializer db event) id key records := by
  obtain ⟨records, here⟩ := laid id key
  obtain same | gone | ⟨-, _, record, -, -, more⟩ :=
    step_laid refuses lib serializer unimported here
  · exact ⟨records, same⟩
  · exact ⟨[], gone⟩
  · exact ⟨records ++ [record], more⟩

/-- As long as no value is stored as the close, a stream that grows was not shut, and it stays a list. -/
theorem step_lists (refuses : Limit) (lib : SerdeJson) (serializer : Serializer) {db : Db} {event : DateTime × Call}
    (unimported : Unimported db event) (distinct : Distinct lib serializer db event)
    (formed : ∀ id key, ∃ values shut, Lists lib serializer db id key values shut) (id key : String) :
    ∃ values shut, Lists lib serializer (step refuses lib serializer db event) id key values shut := by
  obtain ⟨values, shut, apart, records, laid, holds⟩ := formed id key
  obtain same | gone | ⟨open_, value, record, written, here, more⟩ := step_laid refuses lib serializer unimported
    laid
  · exact ⟨values, shut, apart, records, same, holds⟩
  · exact ⟨[], false, by simp, [], gone, .nil⟩
  · have unshut : shut = false := by
      have any := laid.any fun record => record.value == STREAM_CLOSED_SENTINEL
      rw [Shut, any, shut_entries apart holds] at open_
      simpa using open_
    subst unshut
    have whole : Streams.entries values false = values.map some := by simp [Streams.entries]
    rw [whole] at holds
    cases value with
    | none =>
      refine ⟨values, true, apart, records ++ [record], more, ?_⟩
      exact List.rel_append holds (.cons here .nil)
    | some value =>
      refine ⟨values ++ [value], false, ?_, records ++ [record], more, ?_⟩
      · intro other member
        obtain earlier | rfl := by simpa using member
        · exact apart other earlier
        · exact distinct (id, key) other written
      · have longer : Streams.entries (values ++ [value]) false = values.map some ++ [some value] := by
          simp [Streams.entries]
        rw [longer]
        exact List.rel_append holds (.cons here .nil)

theorem commits_run (refuses : Limit) (lib : SerdeJson) (serializer : Serializer) (db : Db)
    (events : List (DateTime × Call)) (laid : ∀ id key, ∃ records, Laid db id key records)
    (unimported : Runs.Along (step refuses lib serializer) Unimported events db) :
    CommitsOnce refuses lib serializer db events where
  ends := by
    intro before now call after _
    rw [Runs.run_append]
    exact call_ends refuses lib serializer now _ call
  once := by
    rintro id spared before now call middle now' call' after rfl seq here here' ok
    have keeps : ∀ db event, Spares id db event → ∀ row, db.operationOutputs.get (id, seq) = some row →
        (step refuses lib serializer db event).operationOutputs.get (id, seq) = some row :=
      fun db event spared row present => step_spares refuses lib serializer spared present
    obtain ⟨row, left⟩ := call_recorded here ok
    rw [Runs.run_append]
    exact recorded_unchanged here' (Runs.kept_between keeps spared left)
  numbered := by
    rintro before after rfl id key
    refine Runs.invariant (I := fun db => ∀ id key, ∃ records, Laid db id key records)
      (fun db event here laid => step_numbered refuses lib serializer here laid) ?_ laid id key
    exact ((Runs.along_append ..).mp unimported).1
  appends := by
    rintro before event after rfl id key spared records laid
    rw [Runs.run_append]
    exact spared_laid refuses lib serializer spared laid

/-- From the empty database, without an import. -/
theorem reads_run (refuses : Limit) (lib : SerdeJson) (serializer : Serializer) (events : List (DateTime × Call))
    (unimported : Runs.Along (step refuses lib serializer) Unimported events Db.new)
    (distinct : Runs.Along (step refuses lib serializer) (Distinct lib serializer) events Db.new) (id key : String) :
    ∃ values shut, Reads lib serializer (Runs.run (step refuses lib serializer) events Db.new) id key values shut := by
  have formed : ∀ id key, ∃ values shut,
      Lists lib serializer (Runs.run (step refuses lib serializer) events Db.new) id key values shut := by
    refine Runs.invariant (I := fun db => ∀ id key, ∃ values shut, Lists lib serializer db id key values shut)
      (fun db event here formed => step_lists refuses lib serializer here.1 here.2 formed)
      (Runs.along_and _ unimported distinct) ?_
    intro id key
    exact ⟨[], false, by simp, [], laid_nil fun _ => rfl, .nil⟩
  obtain ⟨values, shut, lists⟩ := formed id key
  exact ⟨values, shut, lists.reads⟩

end Durare.StreamWrites

namespace Durare.Streams

open Memory

/-- Two executions of `w` write and close a stream, and each repeats what the other has done. -/
def rivalWriters : List (DateTime × Call) :=
  [(0, .writeStreamFromWorkflow "w" 0 "DBOS.writeStream" "log" (some (.bool true))),
    (1, .writeStreamFromWorkflow "w" 0 "DBOS.writeStream" "log" (some (.bool true))),
    (2, .writeStreamFromWorkflow "w" 1 "DBOS.closeStream" "log" none),
    (3, .writeStream "w" "log" (some .null)),
    (4, .sendFromWorkflow "w" 2 "DBOS.send" [(⟨"w", "news", .null, none⟩, "m1")]),
    (5, .sendFromWorkflow "w" 2 "DBOS.send" [(⟨"w", "news", .null, none⟩, "m2")])]

def stores (id : String) (db : Sqlite.Db) : Sqlite.Db :=
  let row : Sqlite.WorkflowRecord :=
    { status := .pending, name := "job", inputs := none, serialization := none, executorId := some "e1",
      applicationVersion := none, createdAt := 0, updatedAt := 0 }
  { db with workflowStatus := db.workflowStatus.put id row }

def rivalWritersSql : List (DateTime × StreamWrites.Call) :=
  [(0, .writeStreamFromWorkflow "w" 0 "DBOS.writeStream" "log" (some (.bool true))),
    (1, .writeStreamFromWorkflow "w" 0 "DBOS.writeStream" "log" (some (.bool true))),
    (2, .writeStreamFromWorkflow "w" 1 "DBOS.closeStream" "log" none),
    (3, .writeStream "w" "log" (some .null) 7),
    (4, .sendFromWorkflow "w" 2 "DBOS.send" [(⟨"w", "news", .null, none⟩, "m1")]),
    (5, .sendFromWorkflow "w" 2 "DBOS.send" [(⟨"w", "news", .null, none⟩, "m2")])]

/-- A format that leaves words with an underscore in front as they are. -/
def wordCodec (lib : SerdeJson) : SerializerCodec where
  name := "word"
  encode := fun value =>
    match value with
    | .string text => .ok (if text.toList.head? = some '_' then text else lib.toString value)
    | _ => .ok (lib.toString value)
  decode := fun text =>
    if text.toList.head? = some '_' then .ok (.string text) else (lib.fromStr text).mapError .serialization

end Durare.Streams

import Durare.Dequeue
import Durare.Formats
import Durare.Portability
import Durare.RoundTrip
import Durare.SqlQueue

/-! A SQLite database that holds the workflows of the in-memory provider: its rows and theirs side by side, and the
writes that keep them so. -/
namespace Durare.Backends

open Memory Dequeue

variable (lib : SerdeJson) (serializer : Serializer)

def columnsOf (w : WorkflowStatus) (r : Sqlite.WorkflowRecord) : Sqlite.WorkflowRecord :=
  { r with
    status := w.status
    name := w.name
    serialization := some serializer.name
    executorId := some w.executorId
    applicationVersion := nonEmpty (some w.appVersion)
    queueName := w.queueName
    queuePartitionKey := w.queuePartitionKey
    deduplicationId := w.dedupId
    recoveryAttempts := w.recoveryAttempts
    timeoutMs := w.timeoutMs
    forkedFrom := w.forkedFrom
    parentWorkflowId := w.parentWorkflowId
    authenticatedUser := w.authenticatedUser
    assumedRole := w.assumedRole
    className := w.className
    configName := w.configName
    createdAt := w.createdAt.timestampMillis
    updatedAt := w.updatedAt.timestampMillis
    priority := w.priority
    deadlineMs := w.deadlineMs
    startedAtMs := w.startedAtMs
    rateLimited := w.rateLimited
    delayUntilMs := w.delayUntilMs
    completedAt := w.completedAtMs }

/-- A stored row and the one it stands for: the same columns, texts that read as the values, and numbers that fit. -/
structure SameRow (id : String) (r : Sqlite.WorkflowRecord) (w : WorkflowStatus) : Prop where
  id : w.id = id
  columns : columnsOf serializer w r = r
  input : ∃ text, r.inputs = some text ∧ Sqlite.decodeInput lib serializer (some serializer.name) text = .ok w.input
  output : Option.Rel (fun text value => decode lib serializer (some serializer.name) text =
    .ok value) r.output w.output
  error : r.error.map (decodeError lib (some serializer.name)) = w.error.map fun message => (message, w.errorInfo)
  errorInfo : w.error = none → w.errorInfo = none
  roles : decodeRoles lib r.authenticatedRoles = w.authenticatedRoles
  attributes : (r.attributes.bind fun text => (lib.fromStr text).toOption) = w.attributes
  priority : asI32 w.priority = w.priority
  attempts : asI32 w.recoveryAttempts = w.recoveryAttempts

/-- A row as a start gives it: nothing of an execution, a priority that fits, an input that its text is read back as. -/
structure Startable (w : WorkflowStatus) (text : String) : Prop where
  untouched : w.output = none ∧ w.error = none ∧ w.errorInfo = none ∧ w.recoveryAttempts = 0 ∧ w.forkedFrom = none ∧
    w.startedAtMs = none ∧ w.rateLimited = false ∧ w.completedAtMs = none
  priority : asI32 w.priority = w.priority
  written : Sqlite.encodeInput lib serializer w.input = .ok text
  read : Sqlite.decodeInput lib serializer (some serializer.name) text = .ok w.input

/-- What is left of a row that has gone through the database: its instants to the millisecond. -/
def seen (now : DateTime) (w : WorkflowStatus) : WorkflowStatus :=
  { w with
    createdAt := msToDt now (some w.createdAt.timestampMillis)
    updatedAt := msToDt now (some w.updatedAt.timestampMillis) }

/-- No two rows hold one deduplication id on one queue: the unique index. -/
def Indexed (db : Sqlite.Db) : Prop :=
  ∀ {queue dedup : String} {id other : String} {r r' : Sqlite.WorkflowRecord}, db.workflowStatus.get id = some r →
    db.workflowStatus.get other = some r' → r.queueName = some queue → r'.queueName = some queue →
    r.deduplicationId = some dedup → r'.deduplicationId = some dedup → id = other

/-- The database holds the workflows of the in-memory provider. -/
structure Holds (db : Sqlite.Db) (s : Inner) : Prop where
  rows : ∀ id, Option.Rel (SameRow lib serializer id) (db.workflowStatus.get id) (s.workflows.get id)
  indexed : Indexed db

/-- The rewritten row takes no slot. -/
def Frees (r r' : Sqlite.WorkflowRecord) : Prop :=
  r'.deduplicationId = none ∨ r'.queueName = r.queueName ∧ r'.deduplicationId = r.deduplicationId

inductive Moved (id : String) (r : Sqlite.WorkflowRecord) : Option Sqlite.WorkflowRecord → Option WorkflowStatus → Prop
  | gone : Moved id r none none
  | kept {r' w'} (same : SameRow lib serializer id r' w') (frees : Frees r r') : Moved id r (some r') (some w')

variable {lib serializer} {db : Sqlite.Db} {s : Inner}

theorem nonEmpty_getD (text : String) : (nonEmpty (some text)).getD "" = text := by
  by_cases empty : text = "" <;> simp [nonEmpty, Option.filter, empty]

theorem decoded_option {reads : String → Except Error Value} {text : Option String} {value : Option Value}
    (rel : Option.Rel (fun text value => reads text = .ok value) text value) :
    (text.bind fun text => (reads text).toOption) = value := by
  cases rel with
  | none => rfl
  | some read => simp [read, Except.toOption]

theorem SameRow.read {id : String} {r : Sqlite.WorkflowRecord} {w : WorkflowStatus}
    (same : SameRow lib serializer id r w)
    (now : DateTime) : Sqlite.rowToStatus lib serializer now id r = seen now w := by
  obtain ⟨rfl, columns, ⟨text, stored, reads⟩, output, error, info, roles, attributes, priority, attempts⟩ := same
  obtain ⟨texts, rfl⟩ : ∃ texts, r = columnsOf serializer w texts := ⟨r, columns.symm⟩
  have input : (texts.inputs.bind fun text =>
      (Sqlite.decodeInput lib serializer (some serializer.name) text).toOption).getD .null = w.input := by
    have stored : texts.inputs = some text := stored
    simp [stored, reads, Except.toOption]
  have message : (texts.error.map (decodeError lib (some serializer.name))).map (·.1) = w.error := by
    have error : texts.error.map (decodeError lib (some serializer.name)) = _ := error
    rw [error]
    simp [Function.comp_def]
  have detail : (texts.error.map (decodeError lib (some serializer.name))).bind (·.2) = w.errorInfo := by
    have error : texts.error.map (decodeError lib (some serializer.name)) = _ := error
    rw [error]
    cases failed : w.error with
    | none => exact (info failed).symm
    | some message => rfl
  have written := decoded_option output
  simp only [columnsOf] at written roles attributes
  simp only [Sqlite.rowToStatus, columnsOf, seen, input, message, detail, written, roles, attributes, priority,
    attempts,
    nonEmpty_getD, Option.getD_some]

section Rewritten

variable {id : String} {r : Sqlite.WorkflowRecord} {w : WorkflowStatus} (same : SameRow lib serializer id r w)

include same

/-- An update of columns that leaves the texts alone. -/
theorem SameRow.update {w' : WorkflowStatus} {r' : Sqlite.WorkflowRecord} (columns : columnsOf serializer w' r' = r')
    (texts : r'.inputs = r.inputs ∧ r'.output = r.output ∧ r'.error = r.error ∧
      r'.authenticatedRoles = r.authenticatedRoles ∧ r'.attributes = r.attributes)
    (kept : w'.id = w.id ∧ w'.input = w.input ∧ w'.output = w.output ∧ w'.error = w.error ∧ w'.errorInfo = w.errorInfo ∧
      w'.authenticatedRoles = w.authenticatedRoles ∧ w'.attributes = w.attributes)
    (priority : w'.priority = w.priority) (attempts : asI32 w'.recoveryAttempts = w'.recoveryAttempts) :
    SameRow lib serializer id r' w' := by
  obtain ⟨inputs, output, error, roles, attributes⟩ := texts
  obtain ⟨own, input, out, failure, info, held, attrs⟩ := kept
  constructor
  case id => rw [own, same.id]
  case columns => exact columns
  case input => rw [inputs, input]; exact same.input
  case output => rw [output, out]; exact same.output
  case error => rw [error, failure, info]; exact same.error
  case errorInfo => rw [failure, info]; exact same.errorInfo
  case roles => rw [roles, held]; exact same.roles
  case attributes => rw [attributes, attrs]; exact same.attributes
  case priority => rw [priority]; exact same.priority
  case attempts => exact attempts

theorem SameRow.cancelled (now : DateTime) :
    SameRow lib serializer id (Sqlite.cancelRecord now r) (cancelRow now w) := by
  have status : r.status = w.status := by rw [← same.columns]; rfl
  unfold Sqlite.cancelRecord cancelRow
  rw [status]
  split
  · exact same
  · refine same.update ?_ ⟨rfl, rfl, rfl, rfl, rfl⟩ ⟨rfl, rfl, rfl, rfl, rfl, rfl, rfl⟩ rfl same.attempts
    rw [← same.columns]
    rfl

theorem SameRow.resumed (now : DateTime) : SameRow lib serializer id (Sqlite.resumeRecord now r) (resumeRow now w) := by
  refine same.update ?_ ⟨rfl, rfl, rfl, rfl, rfl⟩ ⟨rfl, rfl, rfl, rfl, rfl, rfl, rfl⟩ rfl rfl
  rw [← same.columns]
  rfl

theorem SameRow.claimed (now : DateTime) (req : DequeueRequest) (inRange : Postgres.deadlineInRange now r = true) :
    SameRow lib serializer id (Postgres.claimRecord now req r) (claimRow now req w) := by
  refine same.update ?_ ⟨rfl, rfl, rfl, rfl, rfl⟩ ⟨rfl, rfl, rfl, rfl, rfl, rfl, rfl⟩ rfl same.attempts
  rw [← same.columns] at inRange ⊢
  have deadline : (claimRow now req w).deadlineMs = Postgres.claimDeadline now w.timeoutMs w.deadlineMs := by
    simp only [Postgres.deadlineInRange, columnsOf] at inRange
    cases limit : w.timeoutMs <;> cases due : w.deadlineMs <;> simp_all [claimRow, Postgres.claimDeadline]
  simp only [columnsOf, Postgres.claimRecord, deadline]
  rfl

theorem SameRow.promoted (now : DateTime) :
    SameRow lib serializer id { r with status := .enqueued, delayUntilMs := none, updatedAt := now.timestampMillis }
      { w with status := .enqueued, delayUntilMs := none, updatedAt := now } := by
  refine same.update ?_ ⟨rfl, rfl, rfl, rfl, rfl⟩ ⟨rfl, rfl, rfl, rfl, rfl, rfl, rfl⟩ rfl same.attempts
  rw [← same.columns]
  rfl

theorem SameRow.requeued (now : DateTime) (queue : String) :
    SameRow lib serializer id
      { r with
        status := .enqueued
        queueName := some queue
        executorId := some ""
        startedAtMs := none
        updatedAt := now.timestampMillis }
      { w with status := .enqueued, queueName := some queue, executorId := "", startedAtMs := none, updatedAt :=
        now } := by
  refine same.update ?_ ⟨rfl, rfl, rfl, rfl, rfl⟩ ⟨rfl, rfl, rfl, rfl, rfl, rfl, rfl⟩ rfl same.attempts
  rw [← same.columns]
  rfl

theorem SameRow.delayed (now : DateTime) (delayUntilMs : Int) :
    SameRow lib serializer id { r with delayUntilMs := some delayUntilMs, updatedAt := now.timestampMillis }
      { w with delayUntilMs := some delayUntilMs, updatedAt := now } := by
  refine same.update ?_ ⟨rfl, rfl, rfl, rfl, rfl⟩ ⟨rfl, rfl, rfl, rfl, rfl, rfl, rfl⟩ rfl same.attempts
  rw [← same.columns]
  rfl

theorem SameRow.recovered (now : DateTime) (req : RecoveryClaimRequest)
    (fits : asI32 (w.recoveryAttempts + 1) = w.recoveryAttempts + 1) (expected : w.recoveryAttempts =
    req.expectedAttempts) :
    SameRow lib serializer id (Sqlite.recoverRecord now req r) (recoveredRow now req w) := by
  have counted : r.recoveryAttempts = w.recoveryAttempts := by rw [← same.columns]; rfl
  unfold Sqlite.recoverRecord recoveredRow
  simp only [← expected, fits]
  split
  next beyond =>
    refine same.update ?_ ⟨rfl, rfl, rfl, rfl, rfl⟩ ⟨rfl, rfl, rfl, rfl, rfl, rfl, rfl⟩ rfl fits
    rw [← same.columns]
    rfl
  next within =>
    split
    all_goals
      refine same.update ?_ ⟨rfl, rfl, rfl, rfl, rfl⟩ ⟨rfl, rfl, rfl, rfl, rfl, rfl, rfl⟩ rfl fits
      rw [← same.columns]
      rfl

theorem SameRow.attributed (lawful : lib.Lawful) (now : DateTime) (attributes : Option Columns) :
    SameRow lib serializer id
      { r with
        attributes := (attributes.filter (· ≠ [])).map fun map => lib.toString (.object map)
        updatedAt := now.timestampMillis }
      { w with attributes := (attributes.filter (· ≠ [])).map .object, updatedAt := now } := by
  constructor
  case id => exact same.id
  case columns =>
    rw [← same.columns]
    rfl
  case attributes =>
    cases attributes.filter (· ≠ []) with
    | none => rfl
    | some map => exact parsed_text lib lawful (.object map)
  case input => exact same.input
  case output => exact same.output
  case error => exact same.error
  case errorInfo => exact same.errorInfo
  case roles => exact same.roles
  case priority => exact same.priority
  case attempts => exact same.attempts

/-- A status write: the text of the output reads as the value, and the one of the error as without a format. -/
theorem SameRow.finished (now : DateTime) (status : Status) {output : Option Value} {text error : Option String}
    (written : Option.Rel (fun text value => decode lib serializer (some serializer.name) text = .ok value) text output)
    (alike : ∀ e, error = some e → decodeError lib (some serializer.name) e = decodeError lib none e) :
    SameRow lib serializer id (Sqlite.finishRecord now status text error r)
      (writeStatus lib now status output error w) := by
  have counted : (writeStatus lib now status output error w).recoveryAttempts = w.recoveryAttempts ∧
      (writeStatus lib now status output error w).priority = w.priority ∧
      (writeStatus lib now status output error w).id = w.id ∧
      (writeStatus lib now status output error w).input = w.input ∧
      (writeStatus lib now status output error w).authenticatedRoles = w.authenticatedRoles ∧
      (writeStatus lib now status output error w).attributes = w.attributes := by
    unfold writeStatus
    cases output <;> cases error <;> dsimp only <;> split <;> exact ⟨rfl, rfl, rfl, rfl, rfl, rfl⟩
  obtain ⟨attempts, priority, own, input, roles, attributes⟩ := counted
  have failed : (Sqlite.finishRecord now status text error r).error.map (decodeError lib (some serializer.name)) =
      (writeStatus lib now status output error w).error.map
        fun message => (message, (writeStatus lib now status output error w).errorInfo) := by
    cases error with
    | none =>
      have same := same.error
      unfold writeStatus
      cases output <;> dsimp only <;> split <;> exact same
    | some e =>
      have read : (Sqlite.finishRecord now status text (some e) r).error = some e := rfl
      rw [read, Option.map_some, alike e rfl]
      unfold writeStatus
      cases output <;> dsimp only <;> split <;> rfl
  have undetailed : (writeStatus lib now status output error w).error = none →
      (writeStatus lib now status output error w).errorInfo = none := by
    have before := same.errorInfo
    unfold writeStatus
    cases output <;> cases error <;> dsimp only <;> split <;> first | exact before | exact nofun
  constructor
  case id => rw [own, same.id]
  case columns =>
    rw [← same.columns]
    unfold writeStatus Sqlite.finishRecord
    cases output <;> cases error <;> dsimp only <;> split <;> rfl
  case input => rw [input]; exact same.input
  case output =>
    cases written with
    | none =>
      have same := same.output
      unfold writeStatus
      cases error <;> dsimp only <;> split <;> exact same
    | some read =>
      unfold writeStatus
      cases error <;> dsimp only <;> split <;> exact .some read
  case error => exact failed
  case errorInfo => exact undetailed
  case roles => rw [roles]; exact same.roles
  case attributes => rw [attributes]; exact same.attributes
  case priority => rw [priority]; exact same.priority
  case attempts => rw [attempts]; exact same.attempts

end Rewritten

theorem Startable.row (lawful : lib.Lawful) {w : WorkflowStatus} {text : String}
    (startable : Startable lib serializer w text) :
    SameRow lib serializer w.id (Sqlite.statusRecord lib serializer text w) w := by
  obtain ⟨output, error, info, attempts, forked, start, limited, completed⟩ := startable.untouched
  constructor
  case id => rfl
  case columns => simp only [columnsOf, Sqlite.statusRecord, attempts, forked, start, limited, completed]
  case input => exact ⟨text, rfl, startable.read⟩
  case output => rw [output]; exact .none
  case error => rw [error]; rfl
  case errorInfo => exact fun _ => info
  case roles => exact decodeRoles_encodeRoles lib lawful w.authenticatedRoles
  case attributes =>
    cases stored : w.attributes with
    | none => simp [Sqlite.statusRecord, stored]
    | some value => simp [Sqlite.statusRecord, stored, parsed_text lib lawful]
  case priority => exact startable.priority
  case attempts => rw [attempts]; rfl

section Tables

variable (holds : Holds lib serializer db s)

include holds

theorem Holds.row {id : String} {w : WorkflowStatus} (stored : s.workflows.get id = some w) :
    ∃ r, db.workflowStatus.get id = some r ∧ SameRow lib serializer id r w := by
  have rel := holds.rows id
  rw [stored] at rel
  generalize db.workflowStatus.get id = record at rel ⊢
  cases rel with
  | some same => exact ⟨_, rfl, same⟩

theorem Holds.record {id : String} {r : Sqlite.WorkflowRecord} (stored : db.workflowStatus.get id = some r) :
    ∃ w, s.workflows.get id = some w ∧ SameRow lib serializer id r w := by
  have rel := holds.rows id
  rw [stored] at rel
  generalize s.workflows.get id = row at rel ⊢
  cases rel with
  | some same => exact ⟨_, rfl, same⟩

theorem Holds.absent {id : String} : db.workflowStatus.get id = none ↔ s.workflows.get id = none := by
  have rel := holds.rows id
  generalize db.workflowStatus.get id = record, s.workflows.get id = row at rel
  cases rel <;> simp

theorem Holds.keyed : Keyed s := by
  intro id w stored
  obtain ⟨r, -, same⟩ := holds.row stored
  exact same.id

theorem Holds.mirrors : Memory.Mirrors s db where
  rows id := by
    have rel := holds.rows id
    generalize db.workflowStatus.get id = record, s.workflows.get id = row at rel ⊢
    cases rel with
    | none => rfl
    | some same =>
      rw [← same.columns]
      rfl

theorem Holds.get (now : DateTime) (id : String) :
    (db.workflowStatus.get id).map (Sqlite.rowToStatus lib serializer now id) =
    (s.workflows.get id).map (seen now) := by
  have rel := holds.rows id
  generalize db.workflowStatus.get id = record, s.workflows.get id = row at rel
  cases rel with
  | none => rfl
  | some same => exact congrArg some (same.read now)

theorem Holds.mem_keysOf {p : Sqlite.WorkflowRecord → Bool} {q : WorkflowStatus → Bool}
    (alike : ∀ id r w, SameRow lib serializer id r w → p r = q w) (id : String) :
    id ∈ db.workflowStatus.keysOf p ↔ id ∈ s.workflows.keysOf q := by
  simp only [Table.mem_keysOf]
  constructor
  · rintro ⟨r, stored, accepted⟩
    obtain ⟨w, found, same⟩ := holds.record stored
    exact ⟨w, found, alike id r w same ▸ accepted⟩
  · rintro ⟨w, stored, accepted⟩
    obtain ⟨r, found, same⟩ := holds.row stored
    exact ⟨r, found, alike id r w same ▸ accepted⟩

theorem Holds.countP {p : Sqlite.WorkflowRecord → Bool} {q : WorkflowStatus → Bool}
    (alike : ∀ id r w, SameRow lib serializer id r w → p r = q w) :
    db.workflowStatus.values.countP p = s.workflows.values.countP q := by
  have perm : (db.workflowStatus.keysOf p).Perm (s.workflows.keysOf q) :=
    (List.perm_ext_iff_of_nodup (Table.nodup_keysOf ..) (Table.nodup_keysOf ..)).mpr (holds.mem_keysOf alike)
  rw [← Table.length_keysOf, ← Table.length_keysOf, perm.length_eq]

/-- Rows rewritten or deleted on both sides alike. -/
theorem Holds.rewritten {db' : Sqlite.Db} {s' : Inner}
    (moved : ∀ id r w, db.workflowStatus.get id = some r → s.workflows.get id = some w → SameRow lib serializer id r w →
      Moved lib serializer id r (db'.workflowStatus.get id) (s'.workflows.get id))
    (absent : ∀ id, db.workflowStatus.get id = none → s.workflows.get id = none →
      db'.workflowStatus.get id = none ∧ s'.workflows.get id = none) :
    Holds lib serializer db' s' := by
  have came {id : String} {r' : Sqlite.WorkflowRecord} (stored : db'.workflowStatus.get id = some r') :
      ∃ r, db.workflowStatus.get id = some r ∧ Frees r r' := by
    cases before : db.workflowStatus.get id with
    | none =>
      rw [(absent id before (holds.absent.mp before)).1] at stored
      cases stored
    | some r =>
      obtain ⟨w, found, same⟩ := holds.record before
      have after := moved id r w before found same
      rw [stored] at after
      generalize s'.workflows.get id = row at after
      cases after with
      | kept same frees => exact ⟨r, rfl, frees⟩
  constructor
  case rows =>
    intro id
    cases before : db.workflowStatus.get id with
    | none =>
      obtain ⟨gone, lost⟩ := absent id before (holds.absent.mp before)
      rw [gone, lost]
      exact .none
    | some r =>
      obtain ⟨w, found, same⟩ := holds.record before
      have after := moved id r w before found same
      generalize db'.workflowStatus.get id = record, s'.workflows.get id = row at after
      cases after with
      | gone => exact .none
      | kept same frees => exact .some same
  case indexed =>
    intro queue dedup id other r₁ r₂ first second queue₁ queue₂ dedup₁ dedup₂
    obtain ⟨r, before, frees⟩ := came first
    obtain ⟨r', before', frees'⟩ := came second
    obtain ⟨sameQueue, sameDedup⟩ := frees.resolve_left (by simp [dedup₁])
    obtain ⟨sameQueue', sameDedup'⟩ := frees'.resolve_left (by simp [dedup₂])
    exact holds.indexed before before' (sameQueue ▸ queue₁) (sameQueue' ▸ queue₂) (sameDedup ▸ dedup₁)
      (sameDedup' ▸ dedup₂)

/-- A row put under an id, where no other one holds its slot. -/
theorem Holds.put {id : String} {r : Sqlite.WorkflowRecord} {w : WorkflowStatus} (same : SameRow lib serializer id r w)
    (free : ∀ queue dedup, r.queueName = some queue → r.deduplicationId = some dedup → ∀ other r',
      db.workflowStatus.get other = some r' → r'.queueName = some queue → r'.deduplicationId = some dedup → other =
        id) :
    Holds lib serializer { db with workflowStatus := db.workflowStatus.put id r } (s.putRow id w) := by
  constructor
  case rows =>
    intro key
    simp only [Inner.putRow, Table.get_put]
    split
    next here => exact here ▸ .some same
    · exact holds.rows key
  case indexed =>
    intro queue dedup one other r₁ r₂ first second queue₁ queue₂ dedup₁ dedup₂
    rw [Table.get_put] at first second
    split at first
    next here =>
      cases first
      split at second
      next there => rw [here, there]
      · rw [here, free queue dedup queue₁ dedup₁ other r₂ second queue₂ dedup₂]
    · split at second
      next there =>
        cases second
        rw [there, free queue dedup queue₂ dedup₂ one r₁ first queue₁ dedup₁]
      · exact holds.indexed first second queue₁ queue₂ dedup₁ dedup₂

/-- A row rewritten under its id. -/
theorem Holds.putFreed {id : String} {r r' : Sqlite.WorkflowRecord} {w' : WorkflowStatus}
    (stored : db.workflowStatus.get id = some r) (same : SameRow lib serializer id r' w') (frees : Frees r r') :
    Holds lib serializer { db with workflowStatus := db.workflowStatus.put id r' } (s.putRow id w') := by
  refine holds.put same fun queue dedup onQueue held other r'' found there also => ?_
  obtain ⟨sameQueue, sameDedup⟩ := frees.resolve_left (by simp [held])
  exact holds.indexed found stored there (sameQueue ▸ onQueue) also (sameDedup ▸ held)

theorem Holds.missing {id : String} {condition : Sqlite.WorkflowRecord → Bool}
    {update : Sqlite.WorkflowRecord → Sqlite.WorkflowRecord} (absent : s.workflows.get id = none) :
    Sqlite.updateWhere id condition update db = (false, db) := by
  simp only [Sqlite.updateWhere, holds.absent.mpr absent]

theorem Holds.spared {id : String} {w : WorkflowStatus} {condition : Sqlite.WorkflowRecord → Bool}
    {update : Sqlite.WorkflowRecord → Sqlite.WorkflowRecord} (stored : s.workflows.get id = some w)
    (unmet : ∀ r, SameRow lib serializer id r w → condition r = false) :
    Sqlite.updateWhere id condition update db = (false, db) := by
  obtain ⟨r, found, same⟩ := holds.row stored
  simp [Sqlite.updateWhere, found, unmet r same]

/-- An update whose condition is met, on both sides. -/
theorem Holds.updated {id : String} {w w' : WorkflowStatus} (condition : Sqlite.WorkflowRecord → Bool)
    (update : Sqlite.WorkflowRecord → Sqlite.WorkflowRecord) (stored : s.workflows.get id = some w)
    (met : ∀ r, SameRow lib serializer id r w → condition r = true)
    (same : ∀ r, SameRow lib serializer id r w → SameRow lib serializer id (update r) w')
    (frees : ∀ r, Frees r (update r)) :
    ∃ db', Sqlite.updateWhere id condition update db = (true, db') ∧ Holds lib serializer db' (s.putRow id w') := by
  obtain ⟨r, found, before⟩ := holds.row stored
  refine ⟨_, by simp only [Sqlite.updateWhere, found, met r before, if_true]; rfl, ?_⟩
  exact holds.putFreed found (same r before) (frees r)

end Tables

end Durare.Backends

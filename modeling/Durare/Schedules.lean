import Durare.Listing
import Durare.Records
import Durare.Scheduler
import Durare.SqlListing

/-! The registry of schedules, in memory and on SQLite, as an engine or a client uses it. -/
namespace Durare

inductive ScheduleStatus where
  | active
  | paused
deriving DecidableEq, Repr

namespace ScheduleStatus

def asStr : ScheduleStatus → String
  | .active => "ACTIVE"
  | .paused => "PAUSED"

def parse (text : String) : ScheduleStatus := if text = "PAUSED" then .paused else .active

end ScheduleStatus

structure ScheduleRow extends WorkflowSchedule where
  scheduleId : String
  status : ScheduleStatus := .active
deriving DecidableEq, Repr

/-- The cursor and the status are no part of the definition. -/
def ScheduleRow.sameDefinition (s other : ScheduleRow) : Bool :=
  s.scheduleId == other.scheduleId && s.workflowName == other.workflowName && s.schedule == other.schedule &&
    Value.optPartialEq s.context other.context && s.automaticBackfill == other.automaticBackfill &&
    s.cronTimezone == other.cronTimezone && s.queueName == other.queueName

structure ScheduleUpdate where
  schedule : Option String := none
  context : Option (Option Value) := none
  automaticBackfill : Option Bool := none
  cronTimezone : Option (Option String) := none
  queueName : Option (Option String) := none
deriving DecidableEq, Repr

structure ScheduleFilter where
  statuses : List ScheduleStatus := []
  workflowNames : List String := []
  namePrefixes : List String := []
deriving DecidableEq, Repr

structure ScheduleOptions where
  context : Option Value := none
  automaticBackfill : Bool := false
  cronTimezone : Option String := none
  queueName : Option String := none
deriving DecidableEq, Repr

structure ApplySchedule where
  scheduleName : String
  workflowName : String
  schedule : String
  options : ScheduleOptions := {}
deriving DecidableEq, Repr

/-- What the libraries say of a cron spec, the reason of a refusal, and of a timezone. -/
structure Specs where
  refusal : String → Option String
  knowsZone : String → Bool

def parseCron (specs : Specs) (spec : String) : Except Error Unit :=
  match specs.refusal spec with
  | some reason => .error (.ofMessage s!"invalid cron schedule `{spec}`: {reason}")
  | none => .ok ()

def parseTimezone (specs : Specs) (tz : String) : Except Error Unit :=
  if specs.knowsZone tz then .ok () else .error (.ofMessage s!"invalid cron timezone `{tz}`")

def ScheduleUpdate.validate (specs : Specs) (update : ScheduleUpdate) (name : String) : Except Error Unit := do
  if name = "" then throw (.ofMessage "schedule_name is required")
  update.schedule.forM (parseCron specs)
  (update.cronTimezone.bind id).forM (parseTimezone specs)

def scheduleNotFound (name : String) : Error := .ofMessage s!"schedule `{name}` not found"

structure ScheduleProvider (τ : Type) where
  createSchedule : ScheduleRow → τ → Except Error Unit × τ
  updateSchedule : String → ScheduleUpdate → τ → Except Error Unit × τ
  applySchedules : List ScheduleRow → τ → Except Error Unit × τ
  listSchedules : ScheduleFilter → τ → Except Error (List ScheduleRow)
  setScheduleStatus : String → ScheduleStatus → τ → Except Error Bool × τ
  setScheduleLastFired : String → Int → τ → Except Error Unit × τ
  deleteSchedule : String → τ → Except Error Bool × τ

namespace Memory

abbrev Schedules := Table String ScheduleRow

def createSchedule (schedule : ScheduleRow) (t : Schedules) : Except Error Unit × Schedules :=
  match t.get schedule.scheduleName with
  | some _ => (.error (.ofMessage s!"schedule `{schedule.scheduleName}` already exists"), t)
  | none => (.ok (), t.put schedule.scheduleName schedule)

/-- A JSON null clears the context as well. -/
def updatedRow (update : ScheduleUpdate) (s : ScheduleRow) : ScheduleRow :=
  { s with
    schedule := update.schedule.getD s.schedule
    context := (update.context.map (·.filter fun v => !v.isNull)).getD s.context
    automaticBackfill := update.automaticBackfill.getD s.automaticBackfill
    cronTimezone := update.cronTimezone.getD s.cronTimezone
    queueName := update.queueName.getD s.queueName }

def updateSchedule (specs : Specs) (name : String) (update : ScheduleUpdate) (t : Schedules) :
    Except Error Unit × Schedules :=
  match update.validate specs name with
  | .error e => (.error e, t)
  | .ok () =>
    match t.get name with
    | none => (.error (scheduleNotFound name), t)
    | some s => (.ok (), t.put name (updatedRow update s))

def applySchedules (schedules : List ScheduleRow) (t : Schedules) : Except Error Unit × Schedules :=
  (.ok (), schedules.foldl (fun t s => t.put s.scheduleName s) t)

def matchesSchedule (filter : ScheduleFilter) (s : ScheduleRow) : Bool :=
  (filter.statuses.isEmpty || filter.statuses.contains s.status) &&
  (filter.workflowNames.isEmpty || filter.workflowNames.contains s.workflowName) &&
  (filter.namePrefixes.isEmpty || filter.namePrefixes.any (startsWith s.scheduleName))

def listSchedules (filter : ScheduleFilter) (t : Schedules) : Except Error (List ScheduleRow) :=
  .ok (((t.toList.filter fun row => matchesSchedule filter row.2).insertionSort fun a b => a.1 ≤ b.1).map (·.2))

def setScheduleStatus (name : String) (status : ScheduleStatus) (t : Schedules) : Except Error Bool × Schedules :=
  (.ok (t.get name).isSome, t.modify name fun s => { s with status := status })

def setScheduleLastFired (name : String) (atMs : Int) (t : Schedules) : Except Error Unit × Schedules :=
  (.ok (), t.modify name fun s => { s with lastFiredAt := DateTime.fromTimestampMillis atMs })

def deleteSchedule (name : String) (t : Schedules) : Except Error Bool × Schedules :=
  (.ok (t.get name).isSome, t.erase name)

def scheduleProvider (specs : Specs) : ScheduleProvider Schedules where
  createSchedule := createSchedule
  updateSchedule := updateSchedule specs
  applySchedules := applySchedules
  listSchedules := listSchedules
  setScheduleStatus := setScheduleStatus
  setScheduleLastFired := setScheduleLastFired
  deleteSchedule := deleteSchedule

end Memory

/-- The text form of an instant, and its reading. -/
structure Rfc3339 where
  toText : DateTime → String
  parse : String → Option DateTime

namespace Sqlite

structure ScheduleRecord where
  scheduleId : String
  workflowName : String
  schedule : String
  status : String
  context : String
  lastFiredAt : Option String
  automaticBackfill : Bool
  cronTimezone : Option String
  queueName : Option String
deriving DecidableEq, Repr

abbrev Schedules := Table String ScheduleRecord

variable (lib : SerdeJson) (clock : Rfc3339) (specs : Specs)

def encodeScheduleContext (context : Option Value) : String := (context.map lib.toString).getD "null"

def decodeScheduleContext (text : String) : Option Value :=
  match lib.fromStr text with
  | .ok .null => none
  | .ok v => some v
  | .error _ => none

def scheduleRecord (s : ScheduleRow) : ScheduleRecord where
  scheduleId := s.scheduleId
  workflowName := s.workflowName
  schedule := s.schedule
  status := s.status.asStr
  context := encodeScheduleContext lib s.context
  lastFiredAt := s.lastFiredAt.map clock.toText
  automaticBackfill := s.automaticBackfill
  cronTimezone := s.cronTimezone
  queueName := s.queueName

def rowToSchedule (name : String) (r : ScheduleRecord) : ScheduleRow where
  scheduleId := r.scheduleId
  scheduleName := name
  workflowName := r.workflowName
  schedule := r.schedule
  status := .parse r.status
  context := decodeScheduleContext lib r.context
  lastFiredAt := r.lastFiredAt.bind clock.parse
  automaticBackfill := r.automaticBackfill
  cronTimezone := r.cronTimezone
  queueName := r.queueName

/-- An insert into the table, under its primary key and its unique name. -/
def insertSchedule (s : ScheduleRow) (t : Schedules) : Except Error Schedules :=
  if t.values.any fun r => r.scheduleId == s.scheduleId then
    .error (uniqueViolation "workflow_schedules.schedule_id")
  else if (t.get s.scheduleName).isSome then .error (uniqueViolation "workflow_schedules.schedule_name")
  else .ok (t.put s.scheduleName (scheduleRecord lib clock s))

def createSchedule (s : ScheduleRow) (t : Schedules) : Except Error Unit × Schedules :=
  match insertSchedule lib clock s t with
  | .error e => (.error e, t)
  | .ok t' => (.ok (), t')

/-- The columns that the `SET` clauses name. -/
def updatedRecord (update : ScheduleUpdate) (r : ScheduleRecord) : ScheduleRecord :=
  { r with
    schedule := update.schedule.getD r.schedule
    context := (update.context.map (encodeScheduleContext lib)).getD r.context
    automaticBackfill := update.automaticBackfill.getD r.automaticBackfill
    cronTimezone := update.cronTimezone.getD r.cronTimezone
    queueName := update.queueName.getD r.queueName }

def updateSchedule (name : String) (update : ScheduleUpdate) (t : Schedules) : Except Error Unit × Schedules :=
  match update.validate specs name with
  | .error e => (.error e, t)
  | .ok () =>
    if (t.get name).isSome then (.ok (), t.modify name (updatedRecord lib update))
    else (.error (scheduleNotFound name), t)

/-- One transaction: a statement that fails undoes those before it. -/
def applySchedules (schedules : List ScheduleRow) (t : Schedules) : Except Error Unit × Schedules :=
  match schedules.foldlM (fun t s => insertSchedule lib clock s (t.erase s.scheduleName)) t with
  | .error e => (.error e, t)
  | .ok t' => (.ok (), t')

def pushScheduleFilters (filter : ScheduleFilter) (name : String) (r : ScheduleRecord) : Bool :=
  (filter.statuses.isEmpty || (filter.statuses.map ScheduleStatus.asStr).contains r.status) &&
  (filter.workflowNames.isEmpty || filter.workflowNames.contains r.workflowName) &&
  (filter.namePrefixes.isEmpty || filter.namePrefixes.any fun start => like name (start ++ "%"))

/-- `refuses` are the statements beyond the database's own limits. -/
def listSchedules (refuses : ScheduleFilter → Option Error) (filter : ScheduleFilter) (t : Schedules) :
    Except Error (List ScheduleRow) :=
  match refuses filter with
  | some e => .error e
  | none =>
    .ok (((t.toList.filter fun row => pushScheduleFilters filter row.1 row.2).insertionSort fun a b => a.1 ≤ b.1).map
      fun row => rowToSchedule lib clock row.1 row.2)

def setScheduleStatus (name : String) (status : ScheduleStatus) (t : Schedules) : Except Error Bool × Schedules :=
  (.ok (t.get name).isSome, t.modify name fun r => { r with status := status.asStr })

def setScheduleLastFired (name : String) (atMs : Int) (t : Schedules) : Except Error Unit × Schedules :=
  (.ok (), t.modify name fun r => { r with lastFiredAt := (DateTime.fromTimestampMillis atMs).map clock.toText })

def deleteSchedule (name : String) (t : Schedules) : Except Error Bool × Schedules :=
  (.ok (t.get name).isSome, t.erase name)

def scheduleProvider (refuses : ScheduleFilter → Option Error) : ScheduleProvider Schedules where
  createSchedule := createSchedule lib clock
  updateSchedule := updateSchedule lib specs
  applySchedules := applySchedules lib clock
  listSchedules := listSchedules lib clock refuses
  setScheduleStatus := setScheduleStatus
  setScheduleLastFired := setScheduleLastFired clock
  deleteSchedule := deleteSchedule

end Sqlite

namespace Registry

variable {τ : Type} (provider : ScheduleProvider τ) (specs : Specs)

/-- `workflows` are those registered with an engine; a client asks for none. -/
def checkSchedule (workflows : Option (List String)) (request : ApplySchedule) : Except Error Unit := do
  if request.scheduleName = "" then throw (.ofMessage "schedule_name is required")
  parseCron specs request.schedule
  request.options.cronTimezone.forM (parseTimezone specs)
  if !(workflows.all (·.contains request.workflowName)) then throw (.unknownWorkflow request.workflowName)

/-- The row of a request, under an id of its own. -/
def newSchedule (request : ApplySchedule) (fresh : String) : ScheduleRow where
  scheduleId := fresh
  scheduleName := request.scheduleName
  workflowName := request.workflowName
  schedule := request.schedule
  context := request.options.context
  automaticBackfill := request.options.automaticBackfill
  cronTimezone := request.options.cronTimezone
  queueName := request.options.queueName

def createSchedule (workflows : Option (List String)) (request : ApplySchedule) (fresh : String) (t : τ) :
    Except Error Unit × τ :=
  match checkSchedule specs workflows request with
  | .error e => (.error e, t)
  | .ok () => provider.createSchedule (newSchedule request fresh) t

/-- Every entry is checked before any write. -/
def applySchedules (workflows : Option (List String)) (requests : List (ApplySchedule × String)) (t : τ) :
    Except Error Unit × τ :=
  match requests.forM fun request => checkSchedule specs workflows request.1 with
  | .error e => (.error e, t)
  | .ok () => provider.applySchedules (requests.map fun request => newSchedule request.1 request.2) t

def updateSchedule (name : String) (update : ScheduleUpdate) (t : τ) : Except Error Unit × τ :=
  match update.validate specs name with
  | .error e => (.error e, t)
  | .ok () => provider.updateSchedule name update t

/-- The schedules that start with the name, searched for the one of the name. -/
def getSchedule (name : String) (t : τ) : Except Error (Option ScheduleRow) :=
  (provider.listSchedules { namePrefixes := [name] } t).map fun schedules =>
    schedules.find? fun s => s.scheduleName == name

/-- The calls on the registry: of engines and clients, and of the loops that fire. -/
inductive Call where
  | createSchedule (workflows : Option (List String)) (request : ApplySchedule) (fresh : String)
  | applySchedules (workflows : Option (List String)) (requests : List (ApplySchedule × String))
  | updateSchedule (name : String) (update : ScheduleUpdate)
  | getSchedule (name : String)
  | listSchedules (filter : ScheduleFilter)
  | setScheduleStatus (name : String) (status : ScheduleStatus)
  | setScheduleLastFired (name : String) (atMs : Int)
  | deleteSchedule (name : String)
deriving DecidableEq, Repr

inductive Reply where
  | done
  | found (schedule : Option ScheduleRow)
  | listed (schedules : List ScheduleRow)
  | matched (any : Bool)
deriving DecidableEq, Repr

def replied {α : Type} (form : α → Reply) (result : Except Error α × τ) : Except Error Reply × τ :=
  (result.1.map form, result.2)

def exec (call : Call) (t : τ) : Except Error Reply × τ :=
  match call with
  | .createSchedule workflows request fresh =>
    replied (fun _ => .done) (createSchedule provider specs workflows request fresh t)
  | .applySchedules workflows requests => replied (fun _ => .done) (applySchedules provider specs workflows requests t)
  | .updateSchedule name update => replied (fun _ => .done) (updateSchedule provider specs name update t)
  | .getSchedule name => replied .found (getSchedule provider name t, t)
  | .listSchedules filter => replied .listed (provider.listSchedules filter t, t)
  | .setScheduleStatus name status => replied .matched (provider.setScheduleStatus name status t)
  | .setScheduleLastFired name atMs => replied (fun _ => .done) (provider.setScheduleLastFired name atMs t)
  | .deleteSchedule name => replied .matched (provider.deleteSchedule name t)

def replies : List Call → τ → List (Except Error Reply)
  | [], _ => []
  | call :: calls, t => (exec provider specs call t).1 :: replies calls (exec provider specs call t).2

variable (lib : SerdeJson) (clock : Rfc3339) (refuses : ScheduleFilter → Option Error)

/-- The instant comes back from its text. -/
def Returns (instant : Option DateTime) : Prop := ∀ i ∈ instant, clock.parse (clock.toText i) = some i

/-- A row under its own name, with a context that is not null and a cursor that its text gives back. -/
structure Plain (name : String) (s : ScheduleRow) : Prop where
  named : s.scheduleName = name
  context : s.context ≠ some .null
  cursor : Returns clock s.lastFiredAt

structure Corresponds (db : Sqlite.Schedules) (t : Memory.Schedules) : Prop where
  rows : ∀ name, db.get name = (t.get name).map (Sqlite.scheduleRecord lib clock)
  plain : ∀ {name s}, t.get name = some s → Plain clock name s
  ids : ∀ {name other s s'}, t.get name = some s → t.get other = some s' → s.scheduleId = s'.scheduleId → name = other

/-- Fresh ids are fresh, no new context is null, the instants have texts, no prefix is taken for a pattern, and the
database takes the statement of a listing. -/
def Call.Proper (t : Memory.Schedules) : Call → Prop
  | .createSchedule _ request fresh => request.options.context ≠ some .null ∧
      ∀ name s, t.get name = some s → s.scheduleId ≠ fresh
  | .applySchedules _ requests => (∀ request ∈ requests, request.1.options.context ≠ some .null) ∧
      (requests.map (·.2)).Nodup ∧ ∀ request ∈ requests, ∀ name s, t.get name = some s → s.scheduleId ≠ request.2
  | .getSchedule name => refuses { namePrefixes := [name] } = none
  | .listSchedules filter => refuses filter = none ∧ ∀ start ∈ filter.namePrefixes, ∀ name s, t.get name = some s →
      Sqlite.like name (start ++ "%") = Memory.startsWith name start
  | .setScheduleLastFired _ atMs => Returns clock (DateTime.fromTimestampMillis atMs)
  | _ => True

variable {lib clock specs refuses} {db : Sqlite.Schedules} {t : Memory.Schedules}

theorem Plain.read (lawful : lib.Lawful) {name : String} {s : ScheduleRow} (plain : Plain clock name s) :
    Sqlite.rowToSchedule lib clock name (Sqlite.scheduleRecord lib clock s) = s := by
  obtain ⟨rfl, context, cursor⟩ := plain
  have status : ScheduleStatus.parse s.status.asStr = s.status := by cases s.status <;> rfl
  have fired : (s.lastFiredAt.map clock.toText).bind clock.parse = s.lastFiredAt := by
    cases held : s.lastFiredAt with
    | none => rfl
    | some i => exact cursor i held
  have value : Sqlite.decodeScheduleContext lib (Sqlite.encodeScheduleContext lib s.context) = s.context := by
    unfold Sqlite.decodeScheduleContext Sqlite.encodeScheduleContext
    cases held : s.context with
    | none =>
      rw [Option.map_none, Option.getD_none, ← lawful.null_text, lawful.fromStr_toString]
    | some v =>
      rw [Option.map_some, Option.getD_some, lawful.fromStr_toString]
      cases v <;> simp_all
  simp only [Sqlite.rowToSchedule, Sqlite.scheduleRecord, status, fired, value]

theorem startsWith_self (name : String) : Memory.startsWith name name = true :=
  List.isPrefixOf_iff_prefix.mpr List.prefix_rfl

theorem sorted_strict {ν : Type} (t : Table String ν) (p : String × ν → Bool) :
    ((t.toList.filter p).insertionSort fun a b => a.1 ≤ b.1).Pairwise fun a b => id a.1 < id b.1 := by
  have total : Std.Total fun a b : String × ν => a.1 ≤ b.1 := ⟨fun _ _ => le_total _ _⟩
  have trans : IsTrans (String × ν) fun a b => a.1 ≤ b.1 := ⟨fun _ _ _ => le_trans⟩
  have sorted : ((t.toList.filter p).insertionSort fun a b => a.1 ≤ b.1).Pairwise fun a b => a.1 ≤ b.1 :=
    List.pairwise_insertionSort _ _
  have keys : t.toList.map (·.1) = t.rows.keys := by simp [Table.toList, AList.keys, List.keys, Function.comp_def]
  have nodup : (t.toList.map (·.1)).Nodup := keys ▸ t.rows.keys_nodup
  have kept : ((t.toList.filter p).map (·.1)).Nodup := nodup.sublist (List.filter_sublist.map _)
  have perm := (List.perm_insertionSort (fun a b : String × ν => a.1 ≤ b.1) (t.toList.filter p)).map (·.1)
  have distinct := List.pairwise_map.mp (perm.nodup_iff.mpr kept)
  exact (sorted.and distinct).imp fun both => lt_of_le_of_ne both.1 both.2

theorem mem_sorted {ν : Type} {t : Table String ν} {p : String × ν → Bool} {name : String} {v : ν} :
    (name, v) ∈ (t.toList.filter p).insertionSort (fun a b => a.1 ≤ b.1) ↔ t.get name = some v ∧ p (name, v) = true := by
  rw [List.mem_insertionSort, List.mem_filter, Table.mem_toList]

/-- Rows that are chosen and read alike are listed alike. -/
theorem sorted_map {ν μ : Type} {t : Table String ν} {u : Table String μ} {p : String × ν → Bool} {q : String × μ → Bool}
    {write : ν → μ} (rows : ∀ name, u.get name = (t.get name).map write)
    (alike : ∀ name v, t.get name = some v → q (name, write v) = p (name, v)) :
    (u.toList.filter q).insertionSort (fun a b => a.1 ≤ b.1) =
      ((t.toList.filter p).insertionSort fun a b => a.1 ≤ b.1).map fun row => (row.1, write row.2) := by
  refine eq_of_sorted _ (sorted_strict u q) (List.pairwise_map.mpr (sorted_strict t p)) ?_
  rintro ⟨name, w⟩
  rw [mem_sorted, rows, List.mem_map]
  constructor
  · rintro ⟨stored, chosen⟩
    obtain ⟨v, found, rfl⟩ := Option.map_eq_some_iff.mp stored
    exact ⟨(name, v), mem_sorted.mpr ⟨found, alike name v found ▸ chosen⟩, rfl⟩
  · rintro ⟨⟨other, v⟩, member, same⟩
    obtain ⟨found, chosen⟩ := mem_sorted.mp member
    cases same
    exact ⟨by rw [found]; rfl, (alike _ v found).trans chosen⟩

section Tables

variable (corresponds : Corresponds lib clock db t)

include corresponds

theorem Corresponds.isSome (name : String) : (db.get name).isSome = (t.get name).isSome := by
  rw [corresponds.rows, Option.isSome_map]

theorem Corresponds.listSchedules (lawful : lib.Lawful) (filter : ScheduleFilter) (accepted : refuses filter = none)
    (exactly : ∀ start ∈ filter.namePrefixes, ∀ name s, t.get name = some s →
      Sqlite.like name (start ++ "%") = Memory.startsWith name start) :
    Sqlite.listSchedules lib clock refuses filter db = Memory.listSchedules filter t := by
  have alike (name : String) (s : ScheduleRow) (stored : t.get name = some s) :
      Sqlite.pushScheduleFilters filter name (Sqlite.scheduleRecord lib clock s) = Memory.matchesSchedule filter s := by
    have status : (filter.statuses.map ScheduleStatus.asStr).contains s.status.asStr = filter.statuses.contains s.status := by
      rw [Bool.eq_iff_iff, List.contains_iff_mem, List.contains_iff_mem, List.mem_map]
      constructor
      · rintro ⟨status, member, same⟩
        have equal : status = s.status := by cases status <;> cases held : s.status <;> simp_all [ScheduleStatus.asStr]
        exact equal ▸ member
      · exact fun member => ⟨s.status, member, rfl⟩
    have starts : (filter.namePrefixes.any fun start => Sqlite.like name (start ++ "%")) =
        filter.namePrefixes.any (Memory.startsWith s.scheduleName) := by
      rw [(corresponds.plain stored).named, Bool.eq_iff_iff, List.any_eq_true, List.any_eq_true]
      refine exists_congr fun start => and_congr_right fun member => ?_
      rw [exactly start member name s stored]
    simp only [Sqlite.pushScheduleFilters, Memory.matchesSchedule, Sqlite.scheduleRecord, status, starts]
  rw [Sqlite.listSchedules, accepted, Memory.listSchedules]
  refine congrArg Except.ok ?_
  have sorted := sorted_map (p := fun row => Memory.matchesSchedule filter row.2)
    (q := fun row => Sqlite.pushScheduleFilters filter row.1 row.2) corresponds.rows alike
  rw [sorted, List.map_map]
  refine List.map_congr_left ?_
  rintro ⟨name, s⟩ member
  exact (corresponds.plain (mem_sorted.mp member).1).read lawful

omit corresponds in
/-- The first row of the name is the only one. -/
theorem find_sorted {ν : Type} {t : Table String ν} {p : String × ν → Bool} {read : String × ν → ScheduleRow} {name : String}
    (named : ∀ row : String × ν, t.get row.1 = some row.2 → (read row).scheduleName = row.1)
    (chosen : ∀ v, t.get name = some v → p (name, v) = true) :
    (((t.toList.filter p).insertionSort fun a b => a.1 ≤ b.1).map read).find? (fun s => s.scheduleName == name) =
      (t.get name).map fun v => read (name, v) := by
  cases first : (((t.toList.filter p).insertionSort fun a b => a.1 ≤ b.1).map read).find? fun s => s.scheduleName == name with
  | some s =>
    have own := List.find?_some first
    obtain ⟨⟨other, v⟩, member, rfl⟩ := List.mem_map.mp (List.mem_of_find?_eq_some first)
    obtain ⟨stored, -⟩ := mem_sorted.mp member
    rw [beq_iff_eq, named (other, v) stored] at own
    subst own
    rw [stored]
    rfl
  | none =>
    rw [List.find?_eq_none] at first
    cases stored : t.get name with
    | none => rfl
    | some v =>
      have listed : read (name, v) ∈ ((t.toList.filter p).insertionSort fun a b => a.1 ≤ b.1).map read :=
        List.mem_map.mpr ⟨(name, v), mem_sorted.mpr ⟨stored, chosen v stored⟩, rfl⟩
      exact absurd (by simp [named (name, v) stored]) (first (read (name, v)) listed)

/-- A schedule is found under its name, whatever the name reads as for a pattern. -/
theorem Corresponds.getSchedule (lawful : lib.Lawful) (specs : Specs) (name : String)
    (accepted : refuses { namePrefixes := [name] } = none) :
    Registry.getSchedule (Sqlite.scheduleProvider lib clock specs refuses) name db = .ok (t.get name) ∧
      Registry.getSchedule (Memory.scheduleProvider specs) name t = .ok (t.get name) := by
  constructor
  · simp only [Registry.getSchedule, Sqlite.scheduleProvider, Sqlite.listSchedules, accepted, Except.map]
    refine congrArg Except.ok ?_
    rw [find_sorted (fun row _ => by rfl), corresponds.rows, Option.map_map]
    · cases stored : t.get name with
      | none => rfl
      | some s => exact congrArg some ((corresponds.plain stored).read lawful)
    · intro r _
      simp [Sqlite.pushScheduleFilters, Listings.like_of_startsWith (startsWith_self name)]
  · refine congrArg Except.ok ?_
    dsimp only
    rw [find_sorted fun row stored => (corresponds.plain stored).named]
    · simp
    · intro s stored
      simp [Memory.matchesSchedule, (corresponds.plain stored).named, startsWith_self name]

theorem Corresponds.modify {name : String} {f : ScheduleRow → ScheduleRow} {g : Sqlite.ScheduleRecord → Sqlite.ScheduleRecord}
    (written : ∀ s, Sqlite.scheduleRecord lib clock (f s) = g (Sqlite.scheduleRecord lib clock s))
    (plain : ∀ s, Plain clock name s → Plain clock name (f s)) (own : ∀ s, (f s).scheduleId = s.scheduleId) :
    Corresponds lib clock (db.modify name g) (t.modify name f) := by
  have came {other : String} {s : ScheduleRow} (stored : (t.modify name f).get other = some s) :
      ∃ s', t.get other = some s' ∧ s.scheduleId = s'.scheduleId ∧ Plain clock other s := by
    rw [Table.get_modify] at stored
    split at stored
    next here =>
      subst here
      obtain ⟨s', found, rfl⟩ := Option.map_eq_some_iff.mp stored
      exact ⟨s', found, own s', plain s' (corresponds.plain found)⟩
    · exact ⟨s, stored, rfl, corresponds.plain stored⟩
  constructor
  case rows =>
    intro other
    rw [Table.get_modify, Table.get_modify]
    split
    · rw [corresponds.rows, Option.map_map, Option.map_map]
      exact congrFun (congrArg Option.map (funext fun s => (written s).symm)) _
    · exact corresponds.rows other
  case plain =>
    intro other s stored
    obtain ⟨-, -, -, plain⟩ := came stored
    exact plain
  case ids =>
    intro one other s s' first second same
    obtain ⟨r, found, id, -⟩ := came first
    obtain ⟨r', found', id', -⟩ := came second
    exact corresponds.ids found found' (id.symm.trans (same.trans id'))

theorem Corresponds.unused {db' : Sqlite.Schedules} {fresh : String}
    (inside : ∀ name r, db'.get name = some r → db.get name = some r)
    (apart : ∀ name s, t.get name = some s → s.scheduleId ≠ fresh) :
    (db'.values.any fun r => r.scheduleId == fresh) = false := by
  rw [List.any_eq_false]
  intro r member
  obtain ⟨name, stored⟩ := (Table.mem_values _ _).mp member
  have held := inside name r stored
  rw [corresponds.rows] at held
  obtain ⟨s, found, rfl⟩ := Option.map_eq_some_iff.mp held
  exact fun same => apart name s found (beq_iff_eq.mp same)

/-- A row inserted under a name that is free, or freed for it. -/
theorem Corresponds.insert {db' : Sqlite.Schedules} {s : ScheduleRow} (vacant : db'.get s.scheduleName = none)
    (others : ∀ name, name ≠ s.scheduleName → db'.get name = db.get name) (plain : Plain clock s.scheduleName s)
    (fresh : ∀ name s', t.get name = some s' → s'.scheduleId ≠ s.scheduleId) :
    Sqlite.insertSchedule lib clock s db' = .ok (db'.put s.scheduleName (Sqlite.scheduleRecord lib clock s)) ∧
      Corresponds lib clock (db'.put s.scheduleName (Sqlite.scheduleRecord lib clock s)) (t.put s.scheduleName s) := by
  have unused : (db'.values.any fun r => r.scheduleId == s.scheduleId) = false := by
    refine corresponds.unused (fun name r stored => ?_) fresh
    rw [← others name ?_, stored]
    rintro rfl
    rw [vacant] at stored
    cases stored
  refine ⟨by simp [Sqlite.insertSchedule, unused, vacant], ?_⟩
  constructor
  case rows =>
    intro name
    rw [Table.get_put, Table.get_put]
    split
    · rfl
    next other => rw [others name other, corresponds.rows]
  case plain =>
    intro name s' stored
    rw [Table.get_put] at stored
    split at stored
    next here =>
      cases stored
      exact here ▸ plain
    · exact corresponds.plain stored
  case ids =>
    intro one other s₁ s₂ first second same
    rw [Table.get_put] at first second
    split at first
    next here =>
      cases first
      split at second
      next there => exact here.trans there.symm
      · exact absurd same.symm (fresh other s₂ second)
    · split at second
      next there =>
        cases second
        exact absurd same (fresh one s₁ first)
      · exact corresponds.ids first second same

theorem Corresponds.applied (schedules : List ScheduleRow) (plain : ∀ s ∈ schedules, Plain clock s.scheduleName s)
    (distinct : (schedules.map (·.scheduleId)).Nodup)
    (fresh : ∀ s ∈ schedules, ∀ name s', t.get name = some s' → s'.scheduleId ≠ s.scheduleId) :
    ∃ db', schedules.foldlM (fun t s => Sqlite.insertSchedule lib clock s (t.erase s.scheduleName)) db = .ok db' ∧
      Corresponds lib clock db' (schedules.foldl (fun t s => t.put s.scheduleName s) t) := by
  induction schedules generalizing db t with
  | nil => exact ⟨db, rfl, corresponds⟩
  | cons s schedules ih =>
    obtain ⟨apart, distinct⟩ := List.nodup_cons.mp distinct
    obtain ⟨inserts, after⟩ := corresponds.insert
      (show (db.erase s.scheduleName).get s.scheduleName = none by simp) (fun name other => by simp [other]) (plain s List.mem_cons_self) (fresh s List.mem_cons_self)
    rw [List.foldlM_cons, inserts]
    refine ih after (fun other listed => plain other (List.mem_cons_of_mem _ listed)) distinct ?_
    intro other listed name s' stored
    rw [Table.get_put] at stored
    split at stored
    · cases stored
      exact fun same => apart (List.mem_map.mpr ⟨other, listed, same.symm⟩)
    · exact fresh other (List.mem_cons_of_mem _ listed) name s' stored

theorem Corresponds.erase (name : String) : Corresponds lib clock (db.erase name) (t.erase name) := by
  have came {other : String} {s : ScheduleRow} (stored : (t.erase name).get other = some s) : t.get other = some s := by
    rw [Table.get_erase] at stored
    split at stored
    · cases stored
    · exact stored
  constructor
  case rows =>
    intro other
    rw [Table.get_erase, Table.get_erase, corresponds.rows]
    split <;> rfl
  case plain => exact fun stored => corresponds.plain (came stored)
  case ids => exact fun first second same => corresponds.ids (came first) (came second) same

end Tables

/-- The answers agree, values and errors; only a name that is taken the database reports by its unique key. -/
def Agree (first second : Except Error Reply) : Prop :=
  first = second ∨ ∃ name : String, first = .error (Sqlite.uniqueViolation "workflow_schedules.schedule_name") ∧
    second = .error (.ofMessage s!"schedule `{name}` already exists")

theorem newSchedule_plain (request : ApplySchedule) (fresh : String) (context : request.options.context ≠ some .null) :
    Plain clock (newSchedule request fresh).scheduleName (newSchedule request fresh) :=
  ⟨rfl, context, fun i held => by cases held⟩

theorem updated_written (lawful : lib.Lawful) (update : ScheduleUpdate) (s : ScheduleRow) :
    Sqlite.scheduleRecord lib clock (Memory.updatedRow update s) =
      Sqlite.updatedRecord lib update (Sqlite.scheduleRecord lib clock s) := by
  have context : Sqlite.encodeScheduleContext lib (Memory.updatedRow update s).context =
      (update.context.map (Sqlite.encodeScheduleContext lib)).getD (Sqlite.encodeScheduleContext lib s.context) := by
    unfold Memory.updatedRow
    cases update.context with
    | none => rfl
    | some context =>
      cases context with
      | none => rfl
      | some v => cases v <;> simp [Sqlite.encodeScheduleContext, Value.isNull, Option.filter, lawful.null_text]
  simp only [Sqlite.scheduleRecord, context, Sqlite.updatedRecord]
  rfl

theorem updated_plain {name : String} {s : ScheduleRow} (plain : Plain clock name s) (update : ScheduleUpdate) :
    Plain clock name (Memory.updatedRow update s) := by
  refine ⟨plain.named, ?_, plain.cursor⟩
  unfold Memory.updatedRow
  cases update.context with
  | none => exact plain.context
  | some context =>
    cases context with
    | none => exact nofun
    | some v => cases v <;> simp [Value.isNull, Option.filter]

theorem Corresponds.call (corresponds : Corresponds lib clock db t) (lawful : lib.Lawful) (specs : Specs) {call : Call}
    (proper : call.Proper clock refuses t) :
    Agree (exec (Sqlite.scheduleProvider lib clock specs refuses) specs call db).1
        (exec (Memory.scheduleProvider specs) specs call t).1 ∧
      Corresponds lib clock (exec (Sqlite.scheduleProvider lib clock specs refuses) specs call db).2
        (exec (Memory.scheduleProvider specs) specs call t).2 := by
  cases call with
  | createSchedule workflows request fresh =>
    simp only [exec, replied, Registry.createSchedule]
    cases checkSchedule specs workflows request with
    | error e => exact ⟨.inl rfl, corresponds⟩
    | ok _ =>
      simp only [Sqlite.scheduleProvider, Memory.scheduleProvider, Sqlite.createSchedule, Memory.createSchedule]
      cases stored : t.get (newSchedule request fresh).scheduleName with
      | some s =>
        have unused : (db.values.any fun r => r.scheduleId == (newSchedule request fresh).scheduleId) = false :=
          corresponds.unused (fun _ _ stored => stored) proper.2
        have refused : Sqlite.insertSchedule lib clock (newSchedule request fresh) db =
            .error (Sqlite.uniqueViolation "workflow_schedules.schedule_name") := by
          simp [Sqlite.insertSchedule, unused, corresponds.isSome, stored]
        rw [refused]
        exact ⟨.inr ⟨_, rfl, rfl⟩, corresponds⟩
      | none =>
        have vacant : db.get (newSchedule request fresh).scheduleName = none := by rw [corresponds.rows, stored]; rfl
        obtain ⟨inserts, after⟩ := corresponds.insert vacant (fun _ _ => rfl) (newSchedule_plain request fresh proper.1)
          proper.2
        rw [inserts]
        exact ⟨.inl rfl, after⟩
  | applySchedules workflows requests =>
    simp only [exec, replied, Registry.applySchedules]
    cases requests.forM fun request => checkSchedule specs workflows request.1 with
    | error e => exact ⟨.inl rfl, corresponds⟩
    | ok _ =>
      obtain ⟨contexts, distinct, fresh⟩ := proper
      obtain ⟨db', applies, after⟩ := corresponds.applied
        (requests.map fun request => newSchedule request.1 request.2)
        (fun s listed => by
          obtain ⟨request, member, rfl⟩ := List.mem_map.mp listed
          exact newSchedule_plain request.1 request.2 (contexts request member))
        (by rw [List.map_map]; exact distinct)
        (fun s listed => by
          obtain ⟨request, member, rfl⟩ := List.mem_map.mp listed
          exact fresh request member)
      simp only [Sqlite.scheduleProvider, Memory.scheduleProvider, Sqlite.applySchedules, Memory.applySchedules, applies]
      exact ⟨.inl rfl, after⟩
  | updateSchedule name update =>
    simp only [exec, replied, Registry.updateSchedule]
    cases valid : update.validate specs name with
    | error e => exact ⟨.inl rfl, corresponds⟩
    | ok _ =>
      simp only [Sqlite.scheduleProvider, Memory.scheduleProvider, Sqlite.updateSchedule, Memory.updateSchedule, valid,
        corresponds.isSome]
      cases stored : t.get name with
      | none => exact ⟨.inl rfl, corresponds⟩
      | some s =>
        have rewritten : t.put name (Memory.updatedRow update s) = t.modify name (Memory.updatedRow update) := by
          simp only [Table.modify, stored]
        simp only [Option.isSome_some, if_true, rewritten]
        exact ⟨.inl rfl, corresponds.modify (updated_written lawful update) (fun s plain => updated_plain plain update)
          fun s => rfl⟩
  | getSchedule name =>
    obtain ⟨first, second⟩ := corresponds.getSchedule lawful specs name proper
    exact ⟨.inl (by simp only [exec, replied, first, second]), corresponds⟩
  | listSchedules filter =>
    have listed := corresponds.listSchedules lawful filter proper.1 proper.2
    refine ⟨.inl ?_, corresponds⟩
    simp only [exec, replied, Sqlite.scheduleProvider, Memory.scheduleProvider, listed]
  | setScheduleStatus name status =>
    refine ⟨.inl ?_, corresponds.modify (fun s => rfl) (fun s plain => ⟨plain.named, plain.context, plain.cursor⟩) fun s => rfl⟩
    simp only [exec, replied, Sqlite.scheduleProvider, Memory.scheduleProvider, Sqlite.setScheduleStatus,
      Memory.setScheduleStatus, corresponds.isSome]
  | setScheduleLastFired name atMs =>
    exact ⟨.inl rfl, corresponds.modify (fun s => rfl) (fun s plain => ⟨plain.named, plain.context, proper⟩) fun s => rfl⟩
  | deleteSchedule name =>
    refine ⟨.inl ?_, corresponds.erase name⟩
    simp only [exec, replied, Sqlite.scheduleProvider, Memory.scheduleProvider, Sqlite.deleteSchedule,
      Memory.deleteSchedule, corresponds.isSome]

theorem empty_corresponds (lib : SerdeJson) (clock : Rfc3339) : Corresponds lib clock ∅ ∅ where
  rows _ := rfl
  plain stored := by cases stored
  ids stored := by cases stored

def epoch : Rfc3339 where
  toText _ := "1970-01-01T00:00:10+00:00"
  parse _ := some 10000000000

def anySpec : Specs where
  refusal spec := if spec = "" then some "empty" else none
  knowsZone _ := true

/-- Names that are patterns of one another. -/
def patterned : List Call :=
  let every name : ApplySchedule := { scheduleName := name, workflowName := "report", schedule := "10 * * * * *" }
  [.createSchedule none (every "a_b") "1", .createSchedule none (every "axb") "2", .createSchedule none (every "a_b") "3",
    .setScheduleLastFired "a_b" 10000, .setScheduleStatus "a_b" .paused, .getSchedule "a%b",
    .updateSchedule "axb" { context := some (some .null) }, .deleteSchedule "axb", .setScheduleStatus "axb" .paused]

end Registry

end Durare

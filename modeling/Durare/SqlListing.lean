import Durare.Filters
import Durare.Sqlite
import Mathlib.Tactic.Tauto

/-! The listing of workflows by filter on SQLite, where the filter is the text of a query, and how far it is the
listing of the in-memory backend. -/
namespace Durare

namespace Sqlite

/-- `LIKE`: `%` is any run of characters, `_` is any one, and an ASCII letter is either case of it. -/
def likeChars : List Char → List Char → Bool
  | [], text => text.isEmpty
  | c :: pattern, text =>
    if c = '%' then text.tails.any (likeChars pattern)
    else match text with
      | [] => false
      | t :: rest => (c == '_' || c.toLower == t.toLower) && likeChars pattern rest

/-- What `LIKE` reads of a text: it ends at the first NUL. -/
def cString (text : String) : List Char := text.toList.takeWhile (· != Char.ofNat 0)

def like (text pattern : String) : Bool := likeChars (cString pattern) (cString text)

/-- `col IN (..)` for a set that is not empty: NULL is in none. -/
def pushIn [BEq α] (vals : List α) (col : Option α) : Bool := vals.isEmpty || col.any fun v => vals.contains v

/-- `push_list_filters`: the rows for which the clause is true. -/
def pushListFilters (filter : ListFilter) (id : String) (r : WorkflowRecord) : Bool :=
  pushIn filter.workflowIds (some id) &&
  pushIn filter.name (some r.name) &&
  pushIn filter.status (some r.status) &&
  pushIn filter.queueName r.queueName &&
  pushIn filter.appVersion r.applicationVersion &&
  pushIn filter.executorIds r.executorId &&
  pushIn filter.authenticatedUsers r.authenticatedUser &&
  pushIn filter.forkedFrom r.forkedFrom &&
  pushIn filter.parentWorkflowIds r.parentWorkflowId &&
  (filter.workflowIdPrefix.isEmpty || filter.workflowIdPrefix.any fun start => like id (start ++ "%")) &&
  filter.wasForkedFrom.all (fun wanted => r.wasForkedFrom == wanted) &&
  filter.startTimeMs.all (fun t => decide (t ≤ r.createdAt)) &&
  filter.endTimeMs.all (fun t => decide (r.createdAt ≤ t)) &&
  filter.completedAfterMs.all (fun t => r.completedAt.any fun c => decide (t ≤ c)) &&
  filter.completedBeforeMs.all (fun t => r.completedAt.any fun c => decide (c ≤ t)) &&
  filter.dequeuedAfterMs.all (fun t => r.startedAtMs.any fun c => decide (t ≤ c)) &&
  filter.dequeuedBeforeMs.all (fun t => r.startedAtMs.any fun c => decide (c ≤ t)) &&
  filter.hasParent.all (fun wanted => r.parentWorkflowId.isSome == wanted) &&
  (!filter.queuesOnly || r.queueName.isSome)

/-- `list_select_cols`: the payloads that the caller opted out of are read as NULL. -/
def listSelectCols (filter : ListFilter) (r : WorkflowRecord) : WorkflowRecord :=
  { r with
    inputs := if filter.loadInput then r.inputs else none
    output := if filter.loadOutput then r.output else none }

def attributesUnsupported : Error := .ofMessage
  "filtering workflows by attributes is not supported on SQLite; use a Postgres system database to filter by attributes"

/-- The grammar has an `OFFSET` only after a `LIMIT`. -/
def offsetSyntax : Error := .db
  { message := "error returned from database: (code: 1) near \"OFFSET\": syntax error"
    retryable := false
    txConflict := false
    uniqueViolation := false
    foreignKeyViolation := false }

/-- `list_workflows`, where `found` are the matching rows in the order in which the database has them.
`refuses` are the statements beyond the database's own limits. -/
def listWorkflows (refuses : ListFilter → Option Error) (lib : SerdeJson) (serializer : Serializer) (now : DateTime)
    (filter : ListFilter) (found : List (String × WorkflowRecord)) : Except Error (List WorkflowStatus) :=
  if filter.attributes.isSome then .error attributesUnsupported
  else if filter.limit.isNone && filter.offset.isSome then .error offsetSyntax
  else match refuses filter with
    | some e => .error e
    | none =>
      let rows := found.drop (filter.offset.getD 0).toNat
      -- a negative bound is none
      let rows := match filter.limit with
        | some limit => if limit < 0 then rows else rows.take limit.toNat
        | none => rows
      .ok (rows.map fun row => rowToStatus lib serializer now row.1 (listSelectCols filter row.2))

end Sqlite

namespace Listings

open Memory (Inner matchesFilter isForkSource anyOf anyOfOption startsWith sortedMatches loaded)
open Sqlite (Db WorkflowRecord likeChars cString like pushIn pushListFilters rowToStatus listSelectCols)

def matching (filter : ListFilter) (db : Db) : List (String × WorkflowRecord) :=
  db.workflowStatus.toList.filter fun row => pushListFilters filter row.1 row.2

/-- The time that comes first in the requested direction. -/
def before (filter : ListFilter) (a b : Int) : Prop := if filter.sortDesc then b ≤ a else a ≤ b

/-- What the query finds: the matching rows by their creation, equal times in any order. -/
structure Found (filter : ListFilter) (db : Db) (found : List (String × WorkflowRecord)) : Prop where
  rows : found.Perm (matching filter db)
  ordered : found.Pairwise fun a b => before filter a.2.createdAt b.2.createdAt

/-- The two backends hold the same rows, created within the calendar. -/
structure Stores (lib : SerdeJson) (serializer : Serializer) (now : DateTime) (s : Inner) (db : Db) : Prop where
  rows : ∀ id, s.workflows.get id = (db.workflowStatus.get id).map (rowToStatus lib serializer now id)
  times : ∀ id r, db.workflowStatus.get id = some r →
    (Memory.msToDt now (some r.createdAt)).timestampMillis = r.createdAt

def Ordered (filter : ListFilter) (rows : List WorkflowStatus) : Prop :=
  rows.Pairwise fun a b => before filter a.createdAt b.createdAt

/-- Both list the same rows, each in the requested direction, or both fail. -/
def Alike (filter : ListFilter) : Except Error (List WorkflowStatus) → Except Error (List WorkflowStatus) → Prop
  | .ok mine, .ok theirs => mine.Perm theirs ∧ Ordered filter mine ∧ Ordered filter theirs
  | .error _, .error _ => True
  | _, _ => False

section
variable (refuses : ListFilter → Option Error) (lib : SerdeJson) (serializer : Serializer) (now : DateTime)

/-- However the database orders equal times, the listings are alike. -/
def Agree (filter : ListFilter) (s : Inner) (db : Db) : Prop :=
  ∀ found, Found filter db found →
    Alike filter (Memory.listWorkflows filter s).1 (Sqlite.listWorkflows refuses lib serializer now filter found)

end

/-- A bound that both grammars read in the same way. -/
def Proper (limit offset : Option Int) : Prop := (offset.isSome → limit.isSome) ∧ ∀ n ∈ limit, 0 ≤ n

/-- The rows on which predicate and query are the same test: a row that the predicate takes has a version and an
executor stored where they are asked for, a row that the query takes begins with one of the prefixes as they
are written, and the forks of a row that either takes are those its mark is about. -/
structure SameTest (filter : ListFilter) (s : Inner) (id : String) (w : WorkflowStatus) (r : WorkflowRecord) :
    Prop where
  version : matchesFilter filter s w = true → r.applicationVersion = none → filter.appVersion = []
  executor : matchesFilter filter s w = true → r.executorId = none → filter.executorIds = []
  starts : pushListFilters filter id r = true → filter.workflowIdPrefix = [] ∨
    ∃ start ∈ filter.workflowIdPrefix, startsWith id start = true
  mark : matchesFilter filter s w = true ∨ pushListFilters filter id r = true → filter.wasForkedFrom.isSome →
    r.wasForkedFrom = isForkSource s id

def Untied (filter : ListFilter) (db : Db) : Prop :=
  ∀ a ∈ matching filter db, ∀ b ∈ matching filter db, a.2.createdAt = b.2.createdAt → a = b

theorem likeChars_all (text : List Char) : likeChars ['%'] text = true := by
  simp only [likeChars, if_true, List.any_eq_true, List.mem_tails]
  exact ⟨[], List.nil_suffix, rfl⟩

/-- Every text is like itself with anything after it. -/
theorem likeChars_append (start rest pattern : List Char) (tail : likeChars pattern rest = true) :
    likeChars (start ++ pattern) (start ++ rest) = true := by
  induction start with
  | nil => exact tail
  | cons c start ih =>
    simp only [List.cons_append, likeChars]
    split
    · refine List.any_eq_true.mpr ⟨start ++ rest, ?_, ih⟩
      exact (List.mem_tails _ _).mpr (List.suffix_cons c _)
    · simp [ih]

theorem takeWhile_prefix_cases (p : Char → Bool) (start rest : List Char) :
    (start ++ rest).takeWhile p = start.takeWhile p ∧ start.takeWhile p ≠ start ∨
      (start ++ rest).takeWhile p = start ++ rest.takeWhile p ∧ start.takeWhile p = start := by
  induction start with
  | nil => exact .inr ⟨rfl, rfl⟩
  | cons c start ih =>
    by_cases keep : p c = true
    · rcases ih with ⟨cut, short⟩ | ⟨whole, all⟩
      · exact .inl (by simp [keep, cut, short])
      · exact .inr (by simp [keep, whole, all])
    · exact .inl (by simp [keep])

/-- A text that starts with a prefix is like its pattern. -/
theorem like_of_startsWith {text start : String} (starts : startsWith text start = true) :
    like text (start ++ "%") = true := by
  obtain ⟨rest, whole⟩ := List.isPrefixOf_iff_prefix.mp starts
  have pattern : (start ++ "%").toList = start.toList ++ ['%'] := by simp
  have percent : ['%'].takeWhile (· != Char.ofNat 0) = ['%'] := by decide
  simp only [like, cString, pattern, ← whole]
  rcases takeWhile_prefix_cases (· != Char.ofNat 0) start.toList rest with ⟨text', short⟩ | ⟨text', all⟩
  · rcases takeWhile_prefix_cases (· != Char.ofNat 0) start.toList ['%'] with ⟨pattern', _⟩ | ⟨_, all⟩
    · rw [text', pattern']
      simpa using likeChars_append (start.toList.takeWhile (· != Char.ofNat 0)) [] [] rfl
    · exact absurd all short
  · rcases takeWhile_prefix_cases (· != Char.ofNat 0) start.toList ['%'] with ⟨_, short⟩ | ⟨pattern', _⟩
    · exact absurd all short
    · rw [text', pattern', percent]
      exact likeChars_append _ _ _ (likeChars_all _)

/-- The tests that the predicate and the query make in the same way. -/
def common (filter : ListFilter) (id : String) (r : WorkflowRecord) : Bool :=
  pushIn filter.workflowIds (some id) &&
  pushIn filter.name (some r.name) &&
  pushIn filter.status (some r.status) &&
  pushIn filter.queueName r.queueName &&
  pushIn filter.authenticatedUsers r.authenticatedUser &&
  pushIn filter.forkedFrom r.forkedFrom &&
  pushIn filter.parentWorkflowIds r.parentWorkflowId &&
  filter.startTimeMs.all (fun t => decide (t ≤ r.createdAt)) &&
  filter.endTimeMs.all (fun t => decide (r.createdAt ≤ t)) &&
  filter.completedAfterMs.all (fun t => r.completedAt.any fun c => decide (t ≤ c)) &&
  filter.completedBeforeMs.all (fun t => r.completedAt.any fun c => decide (c ≤ t)) &&
  filter.dequeuedAfterMs.all (fun t => r.startedAtMs.any fun c => decide (t ≤ c)) &&
  filter.dequeuedBeforeMs.all (fun t => r.startedAtMs.any fun c => decide (c ≤ t)) &&
  filter.hasParent.all (fun wanted => r.parentWorkflowId.isSome == wanted) &&
  (!filter.queuesOnly || r.queueName.isSome)

variable {refuses : ListFilter → Option Error} {lib : SerdeJson} {serializer : Serializer} {now : DateTime}
  {filter : ListFilter} {s : Inner} {db : Db} {id : String} {r : WorkflowRecord}

theorem pushIn_some [BEq α] (vals : List α) (v : α) : pushIn vals (some v) = anyOf vals v := rfl

theorem pushListFilters_iff : pushListFilters filter id r = true ↔
    common filter id r = true ∧ pushIn filter.appVersion r.applicationVersion = true ∧
      pushIn filter.executorIds r.executorId = true ∧
      (filter.workflowIdPrefix.isEmpty || filter.workflowIdPrefix.any fun start => like id (start ++ "%")) = true ∧
      filter.wasForkedFrom.all (fun wanted => r.wasForkedFrom == wanted) = true := by
  simp only [pushListFilters, common, Bool.and_eq_true]
  tauto

theorem matchesFilter_iff (unattributed : filter.attributes = none)
    (time : (Memory.msToDt now (some r.createdAt)).timestampMillis = r.createdAt) :
    matchesFilter filter s (rowToStatus lib serializer now id r) = true ↔
    common filter id r = true ∧ anyOf filter.appVersion (r.applicationVersion.getD "") = true ∧
      anyOf filter.executorIds (r.executorId.getD "") = true ∧
      (filter.workflowIdPrefix.isEmpty || filter.workflowIdPrefix.any (startsWith id)) = true ∧
      filter.wasForkedFrom.all (fun wanted => isForkSource s id == wanted) = true := by
  simp only [matchesFilter, common, Bool.and_eq_true, rowToStatus, time, unattributed, Option.all_none, pushIn_some]
  tauto

theorem pushIn_getD {vals : List String} {col : Option String} (named : pushIn vals col = true) :
    anyOf vals (col.getD "") = true := by
  cases col with
  | some v => exact named
  | none => simp_all [pushIn, anyOf]

theorem pushIn_of_anyOf {vals : List String} {col : Option String} (named : anyOf vals (col.getD "") = true)
    (unset : col = none → vals = []) : pushIn vals col = true := by
  cases col with
  | some v => exact named
  | none => simp [pushIn, unset rfl]

theorem pushIn_none {vals : List String} (named : pushIn vals none = true) : vals = [] := by
  simpa [pushIn] using named

/-- Predicate and query agree on a row exactly if they are the same test on it. -/
theorem sameTest_iff (unattributed : filter.attributes = none)
    (time : (Memory.msToDt now (some r.createdAt)).timestampMillis = r.createdAt) :
    (matchesFilter filter s (rowToStatus lib serializer now id r) = true ↔ pushListFilters filter id r = true) ↔
      SameTest filter s id (rowToStatus lib serializer now id r) r := by
  have predicate := @matchesFilter_iff lib serializer now filter s id r unattributed time
  have query := @pushListFilters_iff filter id r
  constructor
  · intro same
    refine ⟨fun takes unset => ?_, fun takes unset => ?_, fun takes => ?_, fun takes asked => ?_⟩
    · exact pushIn_none (unset ▸ (query.mp (same.mp takes)).2.1)
    · exact pushIn_none (unset ▸ (query.mp (same.mp takes)).2.2.1)
    · have starts := (predicate.mp (same.mpr takes)).2.2.2.1
      simpa using starts
    · obtain ⟨wanted, asked⟩ := Option.isSome_iff_exists.mp asked
      have both : matchesFilter filter s (rowToStatus lib serializer now id r) = true ∧
          pushListFilters filter id r = true := by
        rcases takes with takes | takes
        · exact ⟨takes, same.mp takes⟩
        · exact ⟨same.mpr takes, takes⟩
      have source := (predicate.mp both.1).2.2.2.2
      have mark := (query.mp both.2).2.2.2.2
      simp only [asked, Option.all_some, beq_iff_eq] at source mark
      rw [source, mark]
  · intro test
    have marked (takes : matchesFilter filter s (rowToStatus lib serializer now id r) = true ∨
        pushListFilters filter id r = true) (wanted : Bool) (asked : filter.wasForkedFrom = some wanted) :
        r.wasForkedFrom = isForkSource s id := test.mark takes (by rw [asked]; rfl)
    constructor
    · intro takes
      obtain ⟨rest, version, executor, starts, source⟩ := predicate.mp takes
      refine query.mpr ⟨rest, pushIn_of_anyOf version (test.version takes),
        pushIn_of_anyOf executor (test.executor takes), ?_, ?_⟩
      · simp only [Bool.or_eq_true, List.any_eq_true] at starts ⊢
        refine starts.imp_right ?_
        rintro ⟨start, named, begins⟩
        exact ⟨start, named, like_of_startsWith begins⟩
      · cases asked : filter.wasForkedFrom with
        | none => rfl
        | some wanted =>
          rw [asked] at source
          simpa only [Option.all_some, marked (.inl takes) wanted asked] using source
    · intro takes
      obtain ⟨rest, version, executor, _, mark⟩ := query.mp takes
      refine predicate.mpr ⟨rest, pushIn_getD version, pushIn_getD executor, ?_, ?_⟩
      · simpa using test.starts takes
      · cases asked : filter.wasForkedFrom with
        | none => rfl
        | some wanted =>
          rw [asked] at mark
          simpa only [Option.all_some, marked (.inr takes) wanted asked] using mark

theorem mem_matching (filter : ListFilter) (db : Db) (row : String × WorkflowRecord) :
    row ∈ matching filter db ↔
      db.workflowStatus.get row.1 = some row.2 ∧ pushListFilters filter row.1 row.2 = true := by
  rw [matching, List.mem_filter, Table.mem_toList]

theorem nodup_matching (filter : ListFilter) (db : Db) : (matching filter db).Nodup := by
  have keys : db.workflowStatus.toList.map (·.1) = db.workflowStatus.rows.keys := by
    simp [Table.toList, AList.keys, List.keys, Function.comp_def]
  have distinct : (db.workflowStatus.toList.map (·.1)).Nodup := keys ▸ db.workflowStatus.rows.nodupKeys
  exact (List.Nodup.of_map _ distinct).filter _

theorem Stores.row_id (stores : Stores lib serializer now s db) {w : WorkflowStatus}
    (there : s.workflows.get id = some w) :
    w.id = id := by
  rw [stores.rows] at there
  obtain ⟨r, _, rfl⟩ := Option.map_eq_some_iff.mp there
  rfl

/-- The rows that the in-memory backend lists, before the window. -/
theorem mem_sortedMatches_iff (stores : Stores lib serializer now s db) (w : WorkflowStatus) :
    w ∈ sortedMatches filter s ↔ ∃ r, db.workflowStatus.get w.id = some r ∧ w = rowToStatus lib serializer now w.id r ∧
      matchesFilter filter s w = true := by
  rw [Memory.mem_sortedMatches]
  constructor
  · rintro ⟨⟨id, there⟩, takes⟩
    obtain rfl := stores.row_id there
    rw [stores.rows] at there
    obtain ⟨r, found, read⟩ := Option.map_eq_some_iff.mp there
    exact ⟨r, found, read.symm, takes⟩
  · rintro ⟨r, found, read, takes⟩
    exact ⟨⟨w.id, by rw [stores.rows, found, read]; rfl⟩, takes⟩

def reads (lib : SerdeJson) (serializer : Serializer) (now : DateTime) (row : String × WorkflowRecord) :
    WorkflowStatus :=
  rowToStatus lib serializer now row.1 row.2

/-- Predicate and query are the same test on every stored row. -/
def SameTests (filter : ListFilter) (s : Inner) (db : Db) : Prop :=
  ∀ id w r, s.workflows.get id = some w → db.workflowStatus.get id = some r → SameTest filter s id w r

variable {found : List (String × WorkflowRecord)}

theorem Found.mem (answers : Found filter db found) (row : String × WorkflowRecord) :
    row ∈ found ↔ db.workflowStatus.get row.1 = some row.2 ∧ pushListFilters filter row.1 row.2 = true :=
  answers.rows.mem_iff.trans (mem_matching filter db row)

theorem Found.nodup (answers : Found filter db found) : found.Nodup :=
  answers.rows.nodup_iff.mpr (nodup_matching filter db)

/-- Two rows found under one id are the same. -/
theorem Found.inj (answers : Found filter db found) {a b : String × WorkflowRecord} (here : a ∈ found)
    (there : b ∈ found)
    (same : a.1 = b.1) : a = b := by
  have first := ((answers.mem a).mp here).1
  have second := ((answers.mem b).mp there).1
  rw [same, second] at first
  exact Prod.ext same (Option.some.inj first).symm

theorem Found.nodup_reads (answers : Found filter db found) : (found.map (reads lib serializer now)).Nodup :=
  List.Nodup.map_on (fun _ here _ there same => answers.inj here there (congrArg WorkflowStatus.id same)) answers.nodup

theorem nodup_sortedMatches (stores : Stores lib serializer now s db) : (sortedMatches filter s).Nodup :=
  List.Nodup.of_map _ (Memory.nodup_sortedMatches (fun _ _ there => stores.row_id there) filter)

/-- The two backends list the same rows exactly if predicate and query are the same test on all of them. -/
theorem perm_iff (unattributed : filter.attributes = none) (stores : Stores lib serializer now s db)
    (answers : Found filter db found) :
    (sortedMatches filter s).Perm (found.map (reads lib serializer now)) ↔ SameTests filter s db := by
  rw [List.perm_ext_iff_of_nodup (nodup_sortedMatches stores) answers.nodup_reads]
  have listed (w : WorkflowStatus) : w ∈ found.map (reads lib serializer now) ↔
      ∃ r, db.workflowStatus.get w.id = some r ∧ w = rowToStatus lib serializer now w.id r ∧
        pushListFilters filter w.id r = true := by
    rw [List.mem_map]
    constructor
    · rintro ⟨⟨id, r⟩, here, rfl⟩
      obtain ⟨there, takes⟩ := (answers.mem _).mp here
      exact ⟨r, there, rfl, takes⟩
    · rintro ⟨r, there, read, takes⟩
      exact ⟨(w.id, r), (answers.mem _).mpr ⟨there, takes⟩, read.symm⟩
  have test (id : String) (r : WorkflowRecord) (there : db.workflowStatus.get id = some r) :=
    @sameTest_iff lib serializer now filter s id r unattributed (stores.times id r there)
  constructor
  · intro same id w r here there
    obtain rfl : rowToStatus lib serializer now id r = w := by
      rw [stores.rows, there] at here
      exact Option.some.inj here
    have row := same (rowToStatus lib serializer now id r)
    rw [mem_sortedMatches_iff stores, listed] at row
    have own : (rowToStatus lib serializer now id r).id = id := rfl
    rw [own, there] at row
    refine (test id r there).mp ⟨fun takes => ?_, fun takes => ?_⟩
    · obtain ⟨r', found', _, takes'⟩ := row.mp ⟨r, rfl, rfl, takes⟩
      exact Option.some.inj found' ▸ takes'
    · obtain ⟨_, _, _, takes'⟩ := row.mpr ⟨r, rfl, rfl, takes⟩
      exact takes'
  · intro same w
    rw [mem_sortedMatches_iff stores, listed]
    refine exists_congr fun r => and_congr_right fun there => and_congr_right fun read => ?_
    have here : s.workflows.get w.id = some (rowToStatus lib serializer now w.id r) := by
      rw [stores.rows, there]
      rfl
    have both := (test w.id r there).mpr (same w.id _ r here there)
    rwa [← read] at both

theorem timestampMillis_lt {a b : DateTime} (less : a.timestampMillis < b.timestampMillis) : a < b :=
  Int.lt_of_not_ge fun le => absurd less (Int.not_lt.mpr (timestampMillis_mono le))

theorem before_desc (desc : filter.sortDesc = true) (a b : Int) : before filter a b ↔ b ≤ a := by simp [before, desc]

theorem before_asc (asc : filter.sortDesc = false) (a b : Int) : before filter a b ↔ a ≤ b := by simp [before, asc]

theorem before_antisymm {a b : Int} (forth : before filter a b) (back : before filter b a) : a = b := by
  cases direction : filter.sortDesc with
  | true => exact Int.le_antisymm ((before_desc direction b a).mp back) ((before_desc direction a b).mp forth)
  | false => exact Int.le_antisymm ((before_asc direction a b).mp forth) ((before_asc direction b a).mp back)

theorem before_of_ms {a b : DateTime} (same : a.timestampMillis = b.timestampMillis → a = b)
    (ordered : before filter a.timestampMillis b.timestampMillis) : before filter a b := by
  cases direction : filter.sortDesc with
  | true =>
    refine (before_desc direction a b).mpr ?_
    rcases Int.lt_or_eq_of_le ((before_desc direction _ _).mp ordered) with less | equal
    · exact Int.le_of_lt (timestampMillis_lt less)
    · exact Int.le_of_eq (same equal.symm).symm
  | false =>
    refine (before_asc direction a b).mpr ?_
    rcases Int.lt_or_eq_of_le ((before_asc direction _ _).mp ordered) with less | equal
    · exact Int.le_of_lt (timestampMillis_lt less)
    · exact Int.le_of_eq (same equal)

theorem sortedMatches_ordered (filter : ListFilter) (s : Inner) : Ordered filter (sortedMatches filter s) := by
  have sorted := List.pairwise_insertionSort (fun a b : WorkflowStatus => a.createdAt ≤ b.createdAt)
    (s.workflows.values.filter (matchesFilter filter s))
  unfold sortedMatches Ordered before
  cases filter.sortDesc with
  | true => exact List.pairwise_reverse.mpr sorted
  | false => exact sorted

theorem Found.reads_ordered (stores : Stores lib serializer now s db) (answers : Found filter db found) :
    Ordered filter (found.map (reads lib serializer now)) := by
  refine List.pairwise_map.mpr (answers.ordered.imp_of_mem fun {a b} here there ordered => ?_)
  have first := stores.times a.1 a.2 ((answers.mem a).mp here).1
  have second := stores.times b.1 b.2 ((answers.mem b).mp there).1
  change before filter (Memory.msToDt now (some a.2.createdAt)) (Memory.msToDt now (some b.2.createdAt))
  refine before_of_ms (fun equal => ?_) ?_
  · rw [first, second] at equal
    rw [equal]
  · rw [first, second]
    exact ordered

/-- Without ties there is one order. -/
theorem sortedMatches_eq (unattributed : filter.attributes = none) (stores : Stores lib serializer now s db)
    (same : SameTests filter s db) (untied : Untied filter db) (answers : Found filter db found) :
    sortedMatches filter s = found.map (reads lib serializer now) := by
  have perm := (perm_iff unattributed stores answers).mpr same
  refine List.Perm.eq_of_pairwise (fun a b here there forth back => ?_) (sortedMatches_ordered filter s)
    (answers.reads_ordered stores) perm
  obtain ⟨row, first, rfl⟩ := List.mem_map.mp (perm.mem_iff.mp here)
  obtain ⟨other, second, rfl⟩ := List.mem_map.mp there
  have ms := congrArg DateTime.timestampMillis (before_antisymm forth back)
  simp only [reads, rowToStatus, stores.times row.1 row.2 ((answers.mem row).mp first).1,
    stores.times other.1 other.2 ((answers.mem other).mp second).1] at ms
  rw [untied row (answers.rows.mem_iff.mp first) other (answers.rows.mem_iff.mp second) ms]

def cut (limit offset : Option Int) (rows : List α) : List α :=
  match limit with
  | some limit => (rows.drop (offset.getD 0).toNat).take limit.toNat
  | none => rows.drop (offset.getD 0).toNat

theorem map_cut (limit offset : Option Int) (f : α → β) (rows : List α) :
    (cut limit offset rows).map f = cut limit offset (rows.map f) := by
  cases limit <;> simp [cut, List.map_take, List.map_drop]

theorem cut_sublist (limit offset : Option Int) (rows : List α) : List.Sublist (cut limit offset rows) rows := by
  cases limit with
  | none => exact List.drop_sublist _ _
  | some limit => exact (List.take_sublist _ _).trans (List.drop_sublist _ _)

theorem memory_listing (filter : ListFilter) (s : Inner) :
    (Memory.listWorkflows filter s).1 =
      .ok ((cut filter.limit filter.offset (sortedMatches filter s)).map (loaded filter)) := by
  unfold Memory.listWorkflows cut
  cases filter.limit <;> rfl

theorem reads_selected (row : String × WorkflowRecord) :
    rowToStatus lib serializer now row.1 (listSelectCols filter row.2) =
      loaded filter (reads lib serializer now row) := by
  cases input : filter.loadInput <;> cases output : filter.loadOutput <;>
    simp [reads, rowToStatus, listSelectCols, loaded, input, output]

theorem sql_listing (unattributed : filter.attributes = none) (proper : Proper filter.limit filter.offset)
    (accepted : refuses filter = none) (found : List (String × WorkflowRecord)) :
    Sqlite.listWorkflows refuses lib serializer now filter found =
      .ok ((cut filter.limit filter.offset (found.map (reads lib serializer now))).map (loaded filter)) := by
  have grammar : (filter.limit.isNone && filter.offset.isSome) = false := by
    cases offset : filter.offset with
    | none => simp
    | some n => simpa [Option.isNone_iff_eq_none, Option.isSome_iff_ne_none] using proper.1 (by rw [offset]; rfl)
  unfold Sqlite.listWorkflows
  simp only [unattributed, Option.isSome_none, Bool.false_eq_true, if_false, grammar, accepted, reads_selected]
  rw [map_cut, List.map_map]
  cases bound : filter.limit with
  | none => simp [cut, Function.comp_def]
  | some limit =>
    have positive : ¬ limit < 0 := Int.not_lt.mpr (proper.2 limit bound)
    simp [cut, positive, Function.comp_def]

theorem ordered_loaded {rows : List WorkflowStatus} (ordered : Ordered filter rows) (limit offset : Option Int) :
    Ordered filter ((cut limit offset rows).map (loaded filter)) :=
  List.pairwise_map.mpr (ordered.sublist (cut_sublist limit offset rows))

theorem exists_found (filter : ListFilter) (db : Db) : ∃ found, Found filter db found := by
  let sorted := (matching filter db).insertionSort fun a b => a.2.createdAt ≤ b.2.createdAt
  have perm : sorted.Perm (matching filter db) := List.perm_insertionSort _ _
  have ascending : sorted.Pairwise fun a b => a.2.createdAt ≤ b.2.createdAt := List.pairwise_insertionSort _ _
  cases direction : filter.sortDesc with
  | true =>
    refine ⟨sorted.reverse, (List.reverse_perm _).trans perm, List.pairwise_reverse.mpr ?_⟩
    exact ascending.imp fun le => (before_desc direction _ _).mpr le
  | false => exact ⟨sorted, perm, ascending.imp fun le => (before_asc direction _ _).mpr le⟩

/-- Through a window that both read alike and the database accepts, the listings are alike exactly if they show
the same rows. -/
theorem agree_iff_perm (unattributed : filter.attributes = none) (stores : Stores lib serializer now s db)
    (proper : Proper filter.limit filter.offset) :
    Agree refuses lib serializer now filter s db ↔ refuses filter = none ∧ ∀ found, Found filter db found →
      ((cut filter.limit filter.offset (sortedMatches filter s)).map (loaded filter)).Perm
        ((cut filter.limit filter.offset (found.map (reads lib serializer now))).map (loaded filter)) := by
  constructor
  · intro agree
    have accepted : refuses filter = none := by
      obtain ⟨found, answers⟩ := exists_found filter db
      have alike := agree found answers
      cases refused : refuses filter with
      | none => rfl
      | some e =>
        exfalso
        rw [memory_listing] at alike
        unfold Sqlite.listWorkflows at alike
        simp only [unattributed, Option.isSome_none, Bool.false_eq_true, if_false, refused] at alike
        split at alike <;> exact alike
    refine ⟨accepted, fun found answers => ?_⟩
    have alike := agree found answers
    rw [memory_listing, sql_listing unattributed proper accepted] at alike
    exact alike.1
  · rintro ⟨accepted, same⟩ found answers
    rw [memory_listing, sql_listing unattributed proper accepted]
    exact ⟨same found answers, ordered_loaded (sortedMatches_ordered filter s) _ _,
      ordered_loaded (answers.reads_ordered stores) _ _⟩

theorem agree_window_iff {limit offset : Option Int} (unattributed : filter.attributes = none)
    (stores : Stores lib serializer now s db) (proper : Proper limit offset) :
    Agree refuses lib serializer now { filter with limit := limit, offset := offset } s db ↔
      refuses { filter with limit := limit, offset := offset } = none ∧ ∀ found, Found filter db found →
        ((cut limit offset (sortedMatches filter s)).map (loaded filter)).Perm
          ((cut limit offset (found.map (reads lib serializer now))).map (loaded filter)) := by
  let window : ListFilter := { filter with limit := limit, offset := offset }
  have plain : window.attributes = none := unattributed
  have proper' : Proper window.limit window.offset := proper
  rw [agree_iff_perm plain stores proper']
  exact and_congr_right fun _ => forall_congr' fun _ =>
    ⟨fun same answers => same ⟨answers.rows, answers.ordered⟩, fun same answers => same ⟨answers.rows, answers.ordered⟩⟩

/-- Stored rows without their payloads are the same rows if they have the same ids. -/
theorem perm_of_loaded {mine theirs : List WorkflowStatus} (stored : ∀ w ∈ mine, s.workflows.get w.id = some w)
    (others : ∀ w ∈ theirs, s.workflows.get w.id = some w)
    (same : (mine.map (loaded filter)).Perm (theirs.map (loaded filter))) : mine.Perm theirs := by
  have back {rows : List WorkflowStatus} (held : ∀ w ∈ rows, s.workflows.get w.id = some w) :
      (rows.map (loaded filter)).filterMap (fun w => s.workflows.get w.id) = rows := by
    induction rows with
    | nil => rfl
    | cons w rows ih =>
      have here : s.workflows.get (loaded filter w).id = some w := held w List.mem_cons_self
      rw [List.map_cons, List.filterMap_cons, here, ih fun w there => held w (List.mem_cons_of_mem _ there)]
  rw [← back stored, ← back others]
  exact same.filterMap _

theorem sortedMatches_stored (stores : Stores lib serializer now s db) :
    ∀ w ∈ sortedMatches filter s, s.workflows.get w.id = some w := by
  intro w listed
  obtain ⟨⟨id, there⟩, _⟩ := (Memory.mem_sortedMatches filter s w).mp listed
  exact stores.row_id there ▸ there

theorem Found.reads_stored (stores : Stores lib serializer now s db) (answers : Found filter db found) :
    ∀ w ∈ found.map (reads lib serializer now), s.workflows.get w.id = some w := by
  intro w listed
  obtain ⟨row, here, rfl⟩ := List.mem_map.mp listed
  have own : (reads lib serializer now row).id = row.1 := rfl
  rw [own, stores.rows, ((answers.mem row).mp here).1]
  rfl

/-- The listing of all matching rows. -/
theorem agree_all_iff (unattributed : filter.attributes = none) (stores : Stores lib serializer now s db) :
    let all := { filter with limit := none, offset := none }
    Agree refuses lib serializer now all s db ↔ refuses all = none ∧ SameTests filter s db := by
  have proper : Proper none none := ⟨fun given => given, fun _ absent => by cases absent⟩
  intro all
  rw [agree_window_iff unattributed stores proper]
  refine and_congr_right fun _ => ⟨fun same => ?_, fun same found answers => ?_⟩
  · obtain ⟨found, answers⟩ := exists_found filter db
    have perm := perm_of_loaded (sortedMatches_stored stores) (answers.reads_stored stores) (same found answers)
    exact (perm_iff unattributed stores answers).mp perm
  · exact ((perm_iff unattributed stores answers).mpr same).map _

theorem eq_of_take_perm {l l' : List α} (same : ∀ n, (l.take n).Perm (l'.take n)) : l = l' := by
  induction l generalizing l' with
  | nil =>
    cases l' with
    | nil => rfl
    | cons b l' => exact absurd (same 1).length_eq (by simp)
  | cons a l ih =>
    cases l' with
    | nil => exact absurd (same 1).length_eq (by simp)
    | cons b l' =>
      have first : a = b := by simpa using same 1
      subst first
      rw [ih fun n => by simpa using same (n + 1)]

/-- Where two rows tie, the database may have either first. -/
theorem Found.swap (answers : Found filter db found) {a b : String × WorkflowRecord} (here : a ∈ found)
    (there : b ∈ found)
    (tied : a.2.createdAt = b.2.createdAt) : Found filter db (found.map (Equiv.swap a b)) := by
  have time (row : String × WorkflowRecord) : (Equiv.swap a b row).2.createdAt = row.2.createdAt := by
    by_cases first : row = a
    · rw [first, Equiv.swap_apply_left, tied]
    · by_cases second : row = b
      · rw [second, Equiv.swap_apply_right, tied]
      · rw [Equiv.swap_apply_of_ne_of_ne first second]
  have member (row : String × WorkflowRecord) (listed : row ∈ found) : Equiv.swap a b row ∈ found := by
    by_cases first : row = a
    · rw [first, Equiv.swap_apply_left]
      exact there
    · by_cases second : row = b
      · rw [second, Equiv.swap_apply_right]
        exact here
      · rw [Equiv.swap_apply_of_ne_of_ne first second]
        exact listed
  refine ⟨List.Perm.trans ?_ answers.rows, List.pairwise_map.mpr (answers.ordered.imp fun ordered => ?_)⟩
  · rw [List.perm_ext_iff_of_nodup (answers.nodup.map (Equiv.swap a b).injective) answers.nodup]
    intro row
    rw [List.mem_map]
    constructor
    · rintro ⟨other, listed, rfl⟩
      exact member other listed
    · intro listed
      exact ⟨Equiv.swap a b row, member row listed, Equiv.swap_apply_self a b row⟩
  · rw [time, time]
    exact ordered

/-- The listings through all windows. -/
theorem agree_windows_iff (unattributed : filter.attributes = none) (stores : Stores lib serializer now s db) :
    (∀ limit offset, Proper limit offset →
      Agree refuses lib serializer now { filter with limit := limit, offset := offset } s db) ↔
    (∀ limit offset, Proper limit offset → refuses { filter with limit := limit, offset := offset } = none) ∧
      SameTests filter s db ∧ Untied filter db := by
  constructor
  · intro agree
    have shown (limit offset : Option Int) (proper : Proper limit offset) :=
      (agree_window_iff unattributed stores proper).mp (agree limit offset proper)
    have all : Proper none none := ⟨fun given => given, fun _ absent => by cases absent⟩
    refine ⟨fun limit offset proper => (shown limit offset proper).1,
      ((agree_all_iff unattributed stores).mp (agree none none all)).2, ?_⟩
    intro a first b second tied
    obtain ⟨found, answers⟩ := exists_found filter db
    have here := answers.rows.mem_iff.mpr first
    have there := answers.rows.mem_iff.mpr second
    have swapped := answers.swap here there tied
    -- the first n rows of both orders are the first n rows of the in-memory listing
    have firsts (n : Nat) : ((found.map (reads lib serializer now)).take n).Perm
        (((found.map (Equiv.swap a b)).map (reads lib serializer now)).take n) := by
      have proper : Proper (some (n : Int)) none := by
        refine ⟨fun _ => rfl, fun m bound => ?_⟩
        cases bound
        omega
      have same := (shown _ _ proper).2
      refine @perm_of_loaded filter s _ _ (fun w listed => ?_) (fun w listed => ?_)
        ((same found answers).symm.trans (same _ swapped))
      · exact answers.reads_stored stores w (List.mem_of_mem_take listed)
      · exact swapped.reads_stored stores w (List.mem_of_mem_take listed)
    have equal := eq_of_take_perm firsts
    rw [List.map_map] at equal
    have same := List.map_inj_left.mp equal a here
    simp only [Function.comp_apply, Equiv.swap_apply_left] at same
    exact answers.inj here there (congrArg WorkflowStatus.id same)
  · rintro ⟨accepted, same, untied⟩ limit offset proper
    rw [agree_window_iff unattributed stores proper]
    refine ⟨accepted limit offset proper, fun found answers => ?_⟩
    rw [sortedMatches_eq unattributed stores same untied answers]

/-- Through a window that the grammars read differently, the listings are alike only if a negative bound finds
nothing left to show. -/
theorem agree_improper_iff {limit offset : Option Int} (unattributed : filter.attributes = none)
    (improper : ¬ Proper limit offset) :
    Agree refuses lib serializer now { filter with limit := limit, offset := offset } s db ↔
      refuses { filter with limit := limit, offset := offset } = none ∧ limit.isSome = true ∧
        (matching filter db).length ≤ (offset.getD 0).toNat := by
  have window (found : List (String × WorkflowRecord)) :
      Found { filter with limit := limit, offset := offset } db found ↔ Found filter db found :=
    ⟨fun answers => ⟨answers.rows, answers.ordered⟩, fun answers => ⟨answers.rows, answers.ordered⟩⟩
  have attributes : ({ filter with limit := limit, offset := offset } : ListFilter).attributes = none := unattributed
  obtain ⟨some_, found'⟩ := exists_found filter db
  cases limit with
  | none =>
    have skips : offset.isSome = true := by
      cases offset with
      | none => exact absurd ⟨fun given => given, fun _ absent => by cases absent⟩ improper
      | some n => rfl
    simp only [Option.isSome_none, Bool.false_eq_true, false_and, and_false, iff_false]
    intro agree
    have alike := agree some_ ((window some_).mpr found')
    rw [memory_listing] at alike
    unfold Sqlite.listWorkflows at alike
    simp only [unattributed, Option.isSome_none, Bool.false_eq_true, if_false, Option.isNone_none, skips, Bool.and_true,
      if_true] at alike
    exact alike
  | some n =>
    have negative : n < 0 := by
      by_contra positive
      exact improper ⟨fun _ => rfl, fun m bound => by cases bound; omega⟩
    have nothing : n.toNat = 0 := by omega
    have mine : (Memory.listWorkflows { filter with limit := some n, offset := offset } s).1 = .ok [] := by
      rw [memory_listing]
      simp [cut, nothing]
    have theirs (found : List (String × WorkflowRecord)) :
        Sqlite.listWorkflows refuses lib serializer now { filter with limit := some n, offset := offset } found =
          match refuses { filter with limit := some n, offset := offset } with
          | some e => .error e
          | none => .ok ((found.drop (offset.getD 0).toNat).map fun row =>
              rowToStatus lib serializer now row.1
                (listSelectCols { filter with limit := some n, offset := offset } row.2)) := by
      unfold Sqlite.listWorkflows
      simp only [unattributed, Option.isSome_none, Bool.false_eq_true, if_false, Option.isNone_some, Bool.false_and,
        negative, if_true]
    constructor
    · intro agree
      have alike := agree some_ ((window some_).mpr found')
      rw [mine, theirs] at alike
      split at alike
      · exact absurd alike id
      next accepted =>
        refine ⟨accepted, rfl, ?_⟩
        have none_left := alike.1.length_eq
        rw [List.length_map, List.length_drop, List.length_nil] at none_left
        rw [← found'.rows.length_eq]
        omega
    · rintro ⟨accepted, _, skipped⟩ found answers
      have left : found.drop (offset.getD 0).toNat = [] := by
        rw [List.drop_eq_nil_iff, (((window found).mp answers).rows).length_eq]
        exact skipped
      rw [mine, theirs, accepted, left]
      exact ⟨List.Perm.refl _, List.Pairwise.nil, List.Pairwise.nil⟩

/-- The listings of the two backends. Of all matching rows they are alike exactly if predicate and query are the
same test on every row and the database accepts the statement; of every window that both grammars read alike,
exactly if in addition no two matching rows were created at the same time; and of another window only if there is
nothing to show. -/
theorem listings_agree_iff (refuses : ListFilter → Option Error) (lib : SerdeJson) (serializer : Serializer)
    (now : DateTime) (filter : ListFilter) (unattributed : filter.attributes = none) (s : Inner) (db : Db)
    (stores : Stores lib serializer now s db) :
    (Agree refuses lib serializer now { filter with limit := none, offset := none } s db ↔
      refuses { filter with limit := none, offset := none } = none ∧ SameTests filter s db) ∧
    ((∀ limit offset, Proper limit offset →
        Agree refuses lib serializer now { filter with limit := limit, offset := offset } s db) ↔
      (∀ limit offset, Proper limit offset → refuses { filter with limit := limit, offset := offset } = none) ∧
        SameTests filter s db ∧ Untied filter db) ∧
    ∀ limit offset, ¬ Proper limit offset →
      (Agree refuses lib serializer now { filter with limit := limit, offset := offset } s db ↔
        refuses { filter with limit := limit, offset := offset } = none ∧ limit.isSome = true ∧
          (matching filter db).length ≤ (offset.getD 0).toNat) :=
  ⟨agree_all_iff unattributed stores, agree_windows_iff unattributed stores,
    fun _ _ improper => agree_improper_iff unattributed improper⟩

/-- A workflow that was started by an engine without a version. -/
def unversioned : WorkflowRecord where
  status := .pending
  name := "w"
  inputs := none
  serialization := none
  executorId := some "e"
  applicationVersion := none
  createdAt := 0
  updatedAt := 0

def oneRow : Db := { Db.new with workflowStatus := Table.put ∅ "ab" unversioned }

def oneRead : Inner :=
  { Inner.new with workflows := Table.put ∅ "ab" (rowToStatus (.reading []) .json 0 "ab" unversioned) }

theorem oneRow_stores : Stores (.reading []) .json 0 oneRead oneRow := by
  constructor
  · intro id
    by_cases same : id = "ab" <;> simp [oneRead, oneRow, Db.new, Inner.new, same]
  · intro id r there
    by_cases same : id = "ab"
    · obtain rfl : unversioned = r := by simpa [oneRow, same] using there
      decide
    · simp [oneRow, Db.new, same] at there

theorem unversioned_agrees :
    let filter : ListFilter := { workflowIdPrefix := ["a"] }
    (Agree (fun _ => none) (.reading []) .json 0 { filter with limit := none, offset := none } oneRead oneRow ↔
      (none : Option Error) = none ∧ SameTests filter oneRead oneRow) ∧
    ((∀ limit offset, Proper limit offset →
        Agree (fun _ => none) (.reading []) .json 0 { filter with limit := limit, offset := offset } oneRead oneRow) ↔
      (∀ limit offset, Proper limit offset → (none : Option Error) = none) ∧
        SameTests filter oneRead oneRow ∧ Untied filter oneRow) ∧
    ∀ limit offset, ¬ Proper limit offset →
      (Agree (fun _ => none) (.reading []) .json 0 { filter with limit := limit, offset := offset } oneRead oneRow ↔
        (none : Option Error) = none ∧ limit.isSome = true ∧ (matching filter oneRow).length ≤ (offset.getD 0).toNat) :=
  listings_agree_iff (fun _ => none) (.reading []) .json 0 { workflowIdPrefix := ["a"] } rfl
    oneRead oneRow oneRow_stores

/-- A pattern character in a prefix, the empty version, an offset alone and a negative bound. -/
theorem listings_differ :
    ¬ Agree (fun _ => none) (.reading []) .json 0 { workflowIdPrefix := ["a_"] } oneRead oneRow ∧
    ¬ Agree (fun _ => none) (.reading []) .json 0 { appVersion := [""] } oneRead oneRow ∧
    ¬ Agree (fun _ => none) (.reading []) .json 0 { offset := some 0 } oneRead oneRow ∧
    ¬ Agree (fun _ => none) (.reading []) .json 0 { limit := some (-1) } oneRead oneRow := by
  have here : oneRead.workflows.get "ab" =
      some (rowToStatus (.reading []) .json 0 "ab" unversioned) := by simp [oneRead]
  have there : oneRow.workflowStatus.get "ab" = some unversioned := by simp [oneRow]
  have all (filter : ListFilter) (unattributed : filter.attributes = none) :=
    @agree_all_iff (fun _ => none) (.reading []) .json 0 filter oneRead oneRow unattributed oneRow_stores
  have outside (limit offset : Option Int) (improper : ¬ Proper limit offset) :=
    @agree_improper_iff (fun _ => none) (.reading []) .json 0 {} oneRead oneRow limit offset rfl improper
  refine ⟨fun agree => ?_, fun agree => ?_, fun agree => ?_, fun agree => ?_⟩
  · have same := ((all { workflowIdPrefix := ["a_"] } rfl).mp agree).2 "ab" _ _ here there
    rcases same.starts (by decide) with none_ | ⟨start, named, begins⟩
    · cases none_
    · obtain rfl := List.mem_singleton.mp named
      exact absurd begins (by decide)
  · have same := ((all { appVersion := [""] } rfl).mp agree).2 "ab" _ _ here there
    exact absurd (same.version (by decide) rfl) (by decide)
  · have improper : ¬ Proper none (some 0) := fun proper => absurd (proper.1 rfl) (by decide)
    exact absurd ((outside none (some 0) improper).mp agree).2.1 (by decide)
  · have improper : ¬ Proper (some (-1)) none := fun proper => absurd (proper.2 (-1) rfl) (by decide)
    exact absurd ((outside (some (-1)) none improper).mp agree).2.2 (by decide)

end Listings

end Durare

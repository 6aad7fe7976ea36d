import Durare.SqlListing
import Durare.WorkflowAggregates
import Mathlib.Algebra.Order.Field.Rat

/-! Steps counted and measured in groups: a reference grouping, what the in-memory backend and SQLite make of it, and
when both are the reference. -/
namespace Durare

/-- An empty list filters nothing, and neither does an absent bound. -/
structure StepAggregateQuery where
  byFunctionName : Bool := false
  byStatus : Bool := false
  selectCount : Bool := false
  selectMaxDurationMs : Bool := false
  timeBucketMs : Option Int := none
  status : List String := []
  functionName : List String := []
  workflowIdPrefix : Option String := none
  completedAfterMs : Option Int := none
  completedBeforeMs : Option Int := none
  limit : Option Int := none

def StepAggregateQuery.groupExprs (q : StepAggregateQuery) : List String :=
  (if q.byFunctionName then ["function_name"] else []) ++ if q.byStatus then ["status"] else []

def StepAggregateQuery.noSelect (q : StepAggregateQuery) : Bool := !q.selectCount && !q.selectMaxDurationMs

structure StepAggregate where
  group : Group
  count : Option Int
  maxDurationMs : Option Int
deriving DecidableEq, Repr

namespace Memory

/-- The loop's status of every row. -/
def STEP_STATUS : String := "SUCCESS"

def stepSkipped (q : StepAggregateQuery) (id : String) (row : StepRow) : Bool :=
  (!q.status.isEmpty && !q.status.any fun s => s == STEP_STATUS) ||
  (!q.functionName.isEmpty && !q.functionName.contains row.name) ||
  q.workflowIdPrefix.any (fun start => !startsWith id start) ||
  q.completedAfterMs.any (fun t => row.completedAtMs.all fun c => decide (c < t)) ||
  q.completedBeforeMs.any (fun t => row.completedAtMs.all fun c => decide (t < c))

def stepDimension (row : StepRow) (dim : String) : Option String :=
  if dim = "function_name" then some row.name
  else if dim = "status" then some STEP_STATUS
  else none

def stepKey (q : StepAggregateQuery) (row : StepRow) : List (String × Option String) :=
  q.groupExprs.map (fun dim => (dim, stepDimension row dim)) ++
    (bucketSize q.timeBucketMs).toList.map fun bucket => ("time_bucket", row.completedAtMs.map (bucketStart bucket))

def stepDuration (row : StepRow) : Option Int :=
  row.startedAtMs.bind fun start => row.completedAtMs.map fun stop => asI64 (stop - start)

def addStep (acc : Int × Option Int) (row : StepRow) : Int × Option Int :=
  (acc.1 + 1, Grouping.raise acc.2 (stepDuration row))

def stepAggregate (q : StepAggregateQuery) (key : List (String × Option String)) (acc : Int × Option Int) :
    StepAggregate where
  group := Group.collect key
  count := if q.selectCount then some acc.1 else none
  maxDurationMs := if q.selectMaxDurationMs then acc.2 else none

def getStepAggregates (q : StepAggregateQuery) (s : Inner) : Answer (List StepAggregate) :=
  let rows := s.steps.toList.filter fun row => !stepSkipped q row.1.1 row.2
  let accs := Grouping.groupBy (fun row => stepKey q row.2) (fun acc row => addStep acc row.2) (0, none) rows
  (.ok (Group.arrange (·.group) q.limit (accs.toList.map fun entry => stepAggregate q entry.1 entry.2)), s)

end Memory

namespace Sqlite

/-- A number in a result: a difference beyond 64 bits is a floating one. -/
inductive SqlNumber where
  | integer (n : Int)
  | real (x : ℚ)

def SqlNumber.value : SqlNumber → ℚ
  | .integer n => n
  | .real x => x

def minus (real : Int → Int → ℚ) (a b : Int) : SqlNumber :=
  if -2 ^ 63 ≤ a - b ∧ a - b < 2 ^ 63 then .integer (a - b) else .real (real a b)

/-- `MAX`, one row after another: NULL is no value, and of equal ones the first stays. -/
def larger (best value : Option SqlNumber) : Option SqlNumber :=
  match best, value with
  | best, none => best
  | none, some x => some x
  | some b, some x => if b.value < x.value then some x else some b

/-- A column read as `i64`: neither NULL nor a floating number is one. -/
def readI64 : Option SqlNumber → Option Int
  | some (.integer n) => some n
  | _ => none

def stepStatusExpr (r : StepRecord) : String := if r.error.isNone then "SUCCESS" else "ERROR"

/-- `push_step_agg_filters`: the rows for which the clause is true. -/
def pushStepAggFilters (q : StepAggregateQuery) (id : String) (r : StepRecord) : Bool :=
  pushIn q.status (some (stepStatusExpr r)) &&
  pushIn q.functionName (some r.functionName) &&
  q.workflowIdPrefix.all (fun start => like id (start ++ "%")) &&
  q.completedAfterMs.all (fun t => r.completedAtMs.any fun c => decide (t ≤ c)) &&
  q.completedBeforeMs.all (fun t => r.completedAtMs.any fun c => decide (c ≤ t))

def stepExpr (r : StepRecord) (key : String) : Option String :=
  if key = "function_name" then some r.functionName
  else if key = "status" then some (stepStatusExpr r)
  else none

/-- The values that a row is grouped by, as `row_to_step_aggregate` reads them. -/
def stepColumns (q : StepAggregateQuery) (r : StepRecord) : List (String × Option String) :=
  q.groupExprs.map (fun key => (key, stepExpr r key)) ++
    (bucketSize q.timeBucketMs).toList.map fun bucket => ("time_bucket", r.completedAtMs.map (bucketStart bucket))

def stepMinus (real : Int → Int → ℚ) (r : StepRecord) : Option SqlNumber :=
  r.completedAtMs.bind fun c => r.startedAtMs.map fun s => minus real c s

def rowToStepAggregate (real : Int → Int → ℚ) (q : StepAggregateQuery) (columns : List (String × Option String))
    (rows : List ((String × Int) × StepRecord)) : StepAggregate where
  group := Group.collect columns
  count := if q.selectCount then some rows.length else none
  maxDurationMs :=
    if q.selectMaxDurationMs then
      readI64 (rows.foldl (fun best row => larger best (stepMinus real row.2)) none)
    else none

def syntaxError (message : String) : Error := .db
  { message := "error returned from database: (code: 1) " ++ message
    retryable := false
    txConflict := false
    uniqueViolation := false
    foreignKeyViolation := false }

/-- `get_step_aggregates`, where `found` are the matching rows in the order of the scan. The text has no expression
after `GROUP BY` for a bucket that is not positive and no other dimension. `refuses` are the statements beyond the
database's own limits. -/
def getStepAggregates (refuses : StepAggregateQuery → Option Error) (real : Int → Int → ℚ) (q : StepAggregateQuery)
    (found : List ((String × Int) × StepRecord)) : Except Error (List StepAggregate) :=
  if q.noSelect then .error (syntaxError "near \"FROM\": syntax error")
  else if q.groupExprs.isEmpty && (bucketSize q.timeBucketMs).isNone then
    .error (syntaxError (if q.limit.isSome then "near \"LIMIT\": syntax error" else "incomplete input"))
  else match refuses q with
    | some e => .error e
    | none =>
      let groups := (found.map fun row => stepColumns q row.2).dedup.map fun columns =>
        rowToStepAggregate real q columns (Grouping.members (fun row => stepColumns q row.2) found columns)
      -- a negative bound is none
      .ok (match q.limit with
        | some limit => if limit < 0 then groups else groups.take limit.toNat
        | none => groups)

end Sqlite

structure StepLine where
  workflowId : String
  functionName : String
  failed : Bool
  startedAtMs : Option Int
  completedAtMs : Option Int
deriving DecidableEq, Repr

namespace StepLine

/-- A step with a recorded error has failed. -/
def status (l : StepLine) : String := if l.failed then "ERROR" else "SUCCESS"

def duration (l : StepLine) : Option Int := l.completedAtMs.bind fun c => l.startedAtMs.map fun s => c - s

def succeeded (l : StepLine) : StepLine := { l with failed := false }

def minus (real : Int → Int → ℚ) (l : StepLine) : Option Sqlite.SqlNumber :=
  l.completedAtMs.bind fun c => l.startedAtMs.map fun s => Sqlite.minus real c s

end StepLine

namespace StepGroups

open Memory (Inner StepRow anyOf startsWith stepKey stepSkipped addStep stepAggregate)
open Sqlite (Db StepRecord SqlNumber like pushStepAggFilters stepColumns rowToStepAggregate larger readI64)
open Grouping

def passes (q : StepAggregateQuery) (l : StepLine) : Bool :=
  anyOf q.functionName l.functionName &&
  q.completedAfterMs.all (fun t => l.completedAtMs.any fun c => decide (t ≤ c)) &&
  q.completedBeforeMs.all (fun t => l.completedAtMs.any fun c => decide (c ≤ t))

def accepts (q : StepAggregateQuery) (l : StepLine) : Bool :=
  anyOf q.status l.status && q.workflowIdPrefix.all (startsWith l.workflowId) && passes q l

def clause (q : StepAggregateQuery) (l : StepLine) : Bool :=
  anyOf q.status l.status && q.workflowIdPrefix.all (fun start => like l.workflowId (start ++ "%")) && passes q l

def groupOf (q : StepAggregateQuery) (l : StepLine) : Group :=
  (if q.byFunctionName then [("function_name", some l.functionName)] else []) ++
  (if q.byStatus then [("status", some l.status)] else []) ++
  (bucketSize q.timeBucketMs).toList.map fun bucket => ("time_bucket", l.completedAtMs.map (bucketStart bucket))

def reference (q : StepAggregateQuery) (lines : List StepLine) : List StepLine := lines.filter (accepts q)

/-- One entry for each group of the accepted lines, with their exact count and longest duration. -/
structure IsGroupBy (q : StepAggregateQuery) (lines : List StepLine) (out : List StepAggregate) : Prop where
  distinct : (out.map (·.group)).Nodup
  groups : ∀ group, (∃ a ∈ out, a.group = group) ↔ ∃ l ∈ reference q lines, groupOf q l = group
  counted : ∀ a ∈ out, a.count =
    if q.selectCount then some ((members (groupOf q) (reference q lines) a.group).length : Int) else none
  longest : ∀ a ∈ out, a.maxDurationMs =
    if q.selectMaxDurationMs then ((members (groupOf q) (reference q lines) a.group).filterMap (·.duration)).max?
    else none

def ofRow (id : String) (row : StepRow) : StepLine :=
  ⟨id, row.name, row.error.isSome, row.startedAtMs, row.completedAtMs⟩

def ofRecord (id : String) (r : StepRecord) : StepLine :=
  ⟨id, r.functionName, r.error.isSome, r.startedAtMs, r.completedAtMs⟩

def stepLines (s : Inner) : List StepLine := s.steps.toList.map fun row => ofRow row.1.1 row.2

def matching (q : StepAggregateQuery) (db : Db) : List ((String × Int) × StepRecord) :=
  db.operationOutputs.toList.filter fun row => pushStepAggFilters q row.1.1 row.2

structure SameRows (s : Inner) (db : Db) : Prop where
  rows : ∀ key, (s.steps.get key).map (ofRow key.1) = (db.operationOutputs.get key).map (ofRecord key.1)
  starts : ∀ key row, s.steps.get key = some row → ∀ t ∈ row.startedAtMs, -2 ^ 63 ≤ t ∧ t < 2 ^ 63
  stops : ∀ key row, s.steps.get key = some row → ∀ t ∈ row.completedAtMs, -2 ^ 63 ≤ t ∧ t < 2 ^ 63

/-- Both answers are the reference grouping, in whatever order SQLite scans, and so have the same entries. -/
def Agree (refuses : StepAggregateQuery → Option Error) (real : Int → Int → ℚ) (q : StepAggregateQuery) (s : Inner)
    (db : Db) : Prop :=
  ∃ mine, Memory.getStepAggregates q s = (.ok mine, s) ∧ IsGroupBy q (stepLines s) mine ∧
    ∀ found, found.Perm (matching q db) → ∃ theirs, Sqlite.getStepAggregates refuses real q found = .ok theirs ∧
      IsGroupBy q (stepLines s) theirs ∧ mine.Perm theirs

/-- A difference below all integers is negative as a floating number too. -/
def Signed (real : Int → Int → ℚ) : Prop :=
  ∀ a b, -2 ^ 63 ≤ a ∧ a < 2 ^ 63 → -2 ^ 63 ≤ b ∧ b < 2 ^ 63 → a - b < -2 ^ 63 → real a b < 0

/-- A number that is not read in place of an integer, even if it comes first. -/
def Below : SqlNumber → Int → Prop
  | .integer m, n => m ≤ n
  | .real x, n => x < n

/-- An accepted line of a group with this duration. -/
def Lasts (q : StepAggregateQuery) (lines : List StepLine) (group : Group) (n : Int) : Prop :=
  ∃ l ∈ reference q lines, groupOf q l = group ∧ n ∈ l.duration

/-- A line that is counted beside the accepted ones does not show: its group has such, and none is counted. -/
def Hidden (q : StepAggregateQuery) (lines : List StepLine) (group : Group) : Prop :=
  q.selectCount = false ∧ ∃ l ∈ reference q lines, groupOf q l = group

/-- When both backends answer with the reference grouping. -/
structure Faithful (refuses : StepAggregateQuery → Option Error) (real : Int → Int → ℚ) (q : StepAggregateQuery)
    (lines : List StepLine) : Prop where
  measured : q.noSelect = false
  grouped : q.groupExprs ≠ [] ∨ (bucketSize q.timeBucketMs).isSome = true
  answered : refuses q = none
  /-- A failed step that is asked for is asked for as a success too, and in one group with these. -/
  failed : ∀ l ∈ reference q lines, l.failed = true → q.byStatus = false ∧ anyOf q.status "SUCCESS" = true
  /-- A failed step that is not asked for but would be as a success. -/
  misread : ∀ l ∈ lines, accepts q l = false → accepts q l.succeeded = true →
    Hidden q lines (groupOf q l.succeeded) ∧ (q.selectMaxDurationMs = true → ∀ n ∈ l.duration,
      ∃ m, Lasts q lines (groupOf q l.succeeded) m ∧ asI64 n ≤ m)
  /-- A step of a workflow that is like the pattern of a prefix it does not begin with. -/
  alike : ∀ l ∈ lines, accepts q l = false → clause q l = true →
    Hidden q lines (groupOf q l) ∧ (q.selectMaxDurationMs = true → ∀ x ∈ l.minus real,
      (∃ m, Lasts q lines (groupOf q l) m ∧ Below x m) ∨
        -- no duration is expected, and a floating number is the greatest
        (∀ m, ¬ Lasts q lines (groupOf q l) m) ∧ ∀ n, x = .integer n → ∃ l' ∈ lines, clause q l' = true ∧
          groupOf q l' = groupOf q l ∧ ∃ r, l'.minus real = some (.real r) ∧ (n : ℚ) < r)
  fits : q.selectMaxDurationMs = true → ∀ l ∈ reference q lines, ∀ n ∈ l.duration,
    n < 2 ^ 63 ∧ ∃ m, Lasts q lines (groupOf q l) m ∧ asI64 n ≤ m

end StepGroups

end Durare

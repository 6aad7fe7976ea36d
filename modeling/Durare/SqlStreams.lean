import Durare.Checkpoints
import Durare.Listing
import Durare.SqlMail
import Durare.SqlStatus
import Durare.Streams
import Mathlib.Data.Prod.Lex

/-! What a workflow publishes, on SQLite: its events, and its streams as rows with offsets. Both backends answer
alike, however the calls are mixed. -/
namespace Durare.Sqlite

variable (lib : SerdeJson) (serializer : Serializer)

/-- `INSERT .. ON CONFLICT (workflow_uuid, key) DO UPDATE`, with the foreign key on the workflow. -/
def upsertEvent (id key : String) (value : Value) (db : Db) : Answer Unit :=
  match serializer.encode lib value with
  | .error e => (.error e, db)
  | .ok text =>
    if (db.workflowStatus.get id).isNone then (.error foreignKeyViolation, db)
    else (.ok (), { db with workflowEvents := db.workflowEvents.put (id, key) (text, some serializer.name) })

def getEventValue (id key : String) (db : Db) : Answer (Option Value) :=
  (match db.workflowEvents.get (id, key) with
    | some (text, format) => (decode lib serializer format text).map some
    | none => .ok none, db)

def listWorkflowEvents (id : String) (db : Db) : Answer (List (String × Value)) :=
  ((db.workflowEvents.listing id fun key => key).mapM fun row =>
    (decode lib serializer row.2.2 row.2.1).map fun value => (row.1, value), db)

/-- The entries of a workflow's streams, by key and offset. -/
def streamRows (id : String) (db : Db) : List ((String × Int) × StreamRecord) :=
  db.streams.listing id fun key => toLex key

def entryRows (id key : String) (db : Db) : List ((String × Int) × StreamRecord) :=
  (streamRows id db).filter fun row => row.1.1 == key

def nextOffset (id key : String) (db : Db) : Int :=
  (((entryRows id key db).map fun row => row.1.2).max?).getD (-1) + 1

/-- The text of an entry with its format; the close sentinel has none. -/
def streamText (value : Option Value) : Except Error (String × Option String) :=
  match value with
  | some v => (serializer.encode lib v).map fun text => (text, some serializer.name)
  | none => .ok (Memory.STREAM_CLOSED_SENTINEL, none)

def writeStreamOn (id key : String) (value : Option Value) (functionId : Int) (db : Db) : Answer Unit :=
  match streamText lib serializer value with
  | .error e => (.error e, db)
  | .ok (stored, format) =>
    if (entryRows id key db).any fun row => row.2.value == Memory.STREAM_CLOSED_SENTINEL then
      (.error (.ofMessage s!"stream `{key}` is already closed"), db)
    else if (db.workflowStatus.get id).isNone then (.error (.nonExistentWorkflow id), db)
    else
      let row : StreamRecord := { value := stored, functionId := functionId, serialization := format }
      (.ok (), { db with streams := db.streams.put (id, key, nextOffset id key db) row })

def writeStream (id key : String) (value : Option Value) (functionId : Int) (db : Db) : Answer Unit :=
  writeStreamOn lib serializer id key value functionId db

/-- The checkpoint goes first; what fails after it takes it back. -/
def writeStreamFromWorkflow (now : DateTime) (id : String) (seq : Int) (name key : String) (value : Option Value)
    (db : Db) : Answer Unit :=
  match serializer.encode lib .null with
  | .error e => (.error e, db)
  | .ok output =>
    match checkpointOn now id seq name output (some serializer.name) db with
    | (.error e, _) => (.error e, db)
    | (.ok false, _) => ((recordedOutputOn lib serializer id seq name db).map fun _ => (), db)
    | (.ok true, marked) =>
      match writeStreamOn lib serializer id key value seq marked with
      | (.error e, _) => (.error e, db)
      | (.ok _, written) => (.ok (), written)

/-- The values up to the close sentinel, and whether there is one. -/
def readRows : List StreamRecord → Except Error (List Value × Bool)
  | [] => .ok ([], false)
  | row :: rows =>
    if row.value = Memory.STREAM_CLOSED_SENTINEL then .ok ([], true)
    else
      match decode lib serializer row.serialization row.value with
      | .error e => .error e
      | .ok value => (readRows rows).map fun (values, closed) => (value :: values, closed)

def readStream (id key : String) (fromOffset : Int) (db : Db) : Answer (List Value × Bool) :=
  (readRows lib serializer (((entryRows id key db).filter fun row => fromOffset ≤ row.1.2).map (·.2)), db)

/-- One row of `group_stream_rows`: it joins the last group, or opens one. -/
def groupRow (out : List (String × List Value)) (row : (String × Int) × StreamRecord) :
    Except Error (List (String × List Value)) :=
  let current := out.getLast?.any fun group => group.1 == row.1.1
  if row.2.value = Memory.STREAM_CLOSED_SENTINEL then .ok (if current then out else out ++ [(row.1.1, [])])
  else
    (decode lib serializer row.2.serialization row.2.value).map fun decoded =>
      match out.getLast? with
      | some (key, values) =>
        if key = row.1.1 then out.dropLast ++ [(key, values ++ [decoded])] else out ++ [(row.1.1, [decoded])]
      | none => out ++ [(row.1.1, [decoded])]

def listWorkflowStreams (id : String) (db : Db) : Answer (List (String × List Value)) :=
  ((streamRows id db).foldlM (groupRow lib serializer) [], db)

end Durare.Sqlite

namespace Durare.Memory

def listWorkflowEvents (id : String) (s : Inner) : Answer (List (String × Value)) :=
  (.ok (s.events.listing id fun key => key), s)

def listWorkflowStreams (id : String) (s : Inner) : Answer (List (String × List Value)) :=
  (.ok ((s.streams.listing id fun key => key).map fun row =>
    (row.1, (row.2.takeWhile (·.isSome)).filterMap fun entry => entry)), s)

end Durare.Memory

import Durare.Checkpoints
import Durare.Records

/-! The status of a workflow on SQLite, and the values of a lawful format. -/
namespace Durare

/-- A custom codec has a name of its own, writes every value and reads back what it wrote. -/
def Serializer.Lawful (serializer : Serializer) : Prop :=
  serializer.Named ∧ match serializer with
    | .custom codec => ∀ v, ∃ text, codec.encode v = .ok text ∧ codec.decode text = .ok v
    | _ => True

theorem Serializer.Lawful.stored {lib : SerdeJson} (lawful : lib.Lawful) {serializer : Serializer}
    (sound : serializer.Lawful) (v : Value) : ∃ text, Checkpoints.Stored lib serializer v text := by
  cases serializer with
  | json =>
    by_cases null : v.isNull
    · refine ⟨NIL_MARKER, by simp [encode, null], ?_⟩
      cases v <;> simp_all [Value.isNull, decode, name, DBOS_JSON, PORTABLE]
    · refine ⟨lib.base64Encode (lib.toString v), by simp [encode, null], ?_⟩
      simp [decode, name, DBOS_JSON, PORTABLE, lawful.base64_not_nil, lawful.base64Decode_encode,
        lawful.fromStr_toString, serdeResult, Except.mapError]
  | portable =>
    by_cases null : v.isNull
    · refine ⟨"null", by simp [encode, null], ?_⟩
      cases v <;> simp_all [Value.isNull, decode, name]
    · have other : lib.toString v ≠ "null" := by
        intro same
        rw [← lawful.null_text] at same
        rw [lawful.toString_inj same] at null
        exact null rfl
      refine ⟨lib.toString v, by simp [encode, null], ?_⟩
      simp [decode, name, other, lawful.fromStr_toString, serdeResult, Except.mapError]
  | custom codec =>
    obtain ⟨named, codes⟩ := sound
    obtain ⟨text, written, reads⟩ := codes v
    refine ⟨text, written, ?_⟩
    simp [decode, name, named.1, reads]

namespace Sqlite

/-- The columns that a status write leaves: an absent value keeps what is there. -/
def finishRecord (now : DateTime) (status : Status) (output error : Option String) (row : WorkflowRecord) :
    WorkflowRecord :=
  { row with
    status := status
    output := output.or row.output
    error := error.or row.error
    completedAt := (if status.isTerminal then some now.timestampMillis else none).or row.completedAt
    deduplicationId := if status.isTerminal then none else row.deduplicationId
    updatedAt := now.timestampMillis }

def encodeOpt (lib : SerdeJson) (serializer : Serializer) : Option Value → Except Error (Option String)
  | none => .ok none
  | some v => (serializer.encode lib v).map some

/-- The prior states a target status may come from are those of the in-memory guard. -/
def setWorkflowStatus (lib : SerdeJson) (serializer : Serializer) (now : DateTime) (id : String) (status : Status)
    (output : Option Value) (error : Option String) (db : Db) : Answer Bool :=
  match encodeOpt lib serializer output with
  | .error e => (.error e, db)
  | .ok text =>
    match db.workflowStatus.get id with
    | none => (.ok false, db)
    | some row =>
      if Memory.statusAllowed status row.status then
        (.ok true, { db with workflowStatus := db.workflowStatus.put id (finishRecord now status text error row) })
      else (.ok false, db)

def getWorkflowStatus (lib : SerdeJson) (serializer : Serializer) (now : DateTime) (id : String) (db : Db) :
    Answer (Option WorkflowStatus) :=
  (.ok ((db.workflowStatus.get id).map (rowToStatus lib serializer now id)), db)

end Sqlite

end Durare

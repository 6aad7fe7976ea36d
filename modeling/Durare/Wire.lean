import Durare.Serialize
import Mathlib.Logic.Equiv.List

/-! The JSON forms that the derives of `recorded_error.rs` give an error and its parts:
`ErrorWire` is adjacently tagged, `DivergenceWire` internally, the rest are plain structs.
A reader here accepts only the shapes that the writer makes. -/
namespace Durare

namespace Value

def get (v : Value) (key : String) : Option Value :=
  match v with
  | .object fields => fields.lookup key
  | _ => none

def asBool : Value → Option Bool
  | .bool b => some b
  | _ => none

def getStr (v : Value) (key : String) : Option String := (v.get key).bind asStr

def getBool (v : Value) (key : String) : Option Bool := (v.get key).bind asBool

def IsI32 (i : Int) : Prop := -2 ^ 31 ≤ i ∧ i < 2 ^ 31

instance (i : Int) : Decidable (IsI32 i) := inferInstanceAs (Decidable (_ ∧ _))

def ofI32 (i : Int) : Value :=
  if 0 ≤ i then .number (.posInt (Fin.ofNat _ i.toNat))
  else .number (.negInt (Fin.ofNat _ (-i - 1).toNat))

def getI32 (v : Value) (key : String) : Option Int :=
  ((v.get key).bind asI64).filter fun i => decide (IsI32 i)

theorem asI64_ofI32 {i : Int} (fits : IsI32 i) : (ofI32 i).asI64 = some i := by
  obtain ⟨low, high⟩ := fits
  by_cases sign : 0 ≤ i
  · have small : i.toNat % 2 ^ 64 = i.toNat := by omega
    have below : i.toNat < 2 ^ 63 := by omega
    simp only [ofI32, sign, if_true, asI64, Fin.ofNat, small, below]
    simp; omega
  · have small : (-i - 1).toNat % 2 ^ 63 = (-i - 1).toNat := by omega
    simp only [ofI32, sign, if_false, asI64, Fin.ofNat, small]
    simp; omega

/-- How an `Option<Value>` field is read: an explicit null is an absent field. -/
def absent (field : Option Value) : Option Value := field.filter fun v => !v.isNull

@[simp] theorem absent_none : absent none = none := rfl

@[simp] theorem absent_absent (field : Option Value) : absent (absent field) = absent field := by
  cases field with
  | none => rfl
  | some v => by_cases null : v.isNull <;> simp [absent, Option.filter, null]

end Value

open Value

/-- `rename_all = "snake_case"`. -/
def ErrorCode.wireName : ErrorCode → String
  | .recoveryRequired => "recovery_required"
  | .database => "database"
  | .initialization => "initialization"
  | .serialization => "serialization"
  | .workflowNotRegistered => "workflow_not_registered"
  | .queueNotRegistered => "queue_not_registered"
  | .nonExistentWorkflow => "non_existent_workflow"
  | .queueDeduplicated => "queue_deduplicated"
  | .notAuthorized => "not_authorized"
  | .workflowCancelled => "workflow_cancelled"
  | .maxRecoveryAttemptsExceeded => "max_recovery_attempts_exceeded"
  | .conflictingRegistration => "conflicting_registration"
  | .timeout => "timeout"
  | .unexpectedStep => "unexpected_step"
  | .nestedDurableCall => "nested_durable_call"
  | .durableCallOutsideExecution => "durable_call_outside_execution"
  | .workflowConflict => "workflow_conflict"
  | .replayDiverged => "replay_diverged"
  | .application => "application"
  | .workflowTargetConflict => "workflow_target_conflict"

def ErrorCode.ofWireName : String → Option ErrorCode
  | "recovery_required" => some .recoveryRequired
  | "database" => some .database
  | "initialization" => some .initialization
  | "serialization" => some .serialization
  | "workflow_not_registered" => some .workflowNotRegistered
  | "queue_not_registered" => some .queueNotRegistered
  | "non_existent_workflow" => some .nonExistentWorkflow
  | "queue_deduplicated" => some .queueDeduplicated
  | "not_authorized" => some .notAuthorized
  | "workflow_cancelled" => some .workflowCancelled
  | "max_recovery_attempts_exceeded" => some .maxRecoveryAttemptsExceeded
  | "conflicting_registration" => some .conflictingRegistration
  | "timeout" => some .timeout
  | "unexpected_step" => some .unexpectedStep
  | "nested_durable_call" => some .nestedDurableCall
  | "durable_call_outside_execution" => some .durableCallOutsideExecution
  | "workflow_conflict" => some .workflowConflict
  | "replay_diverged" => some .replayDiverged
  | "application" => some .application
  | "workflow_target_conflict" => some .workflowTargetConflict
  | _ => none

@[simp] theorem ErrorCode.ofWireName_wireName (code : ErrorCode) :
    ErrorCode.ofWireName code.wireName = some code := by
  cases code <;> rfl

namespace RecordedError

def toValue (error : RecordedError) : Value :=
  .object [("code", .string error.code.wireName), ("message", .string error.message),
    ("retryable", .bool error.retryable), ("tx_conflict", .bool error.txConflict),
    ("unique_violation", .bool error.uniqueViolation),
    ("foreign_key_violation", .bool error.foreignKeyViolation)]

def ofValue (v : Value) : Option RecordedError := do
  let code ← (v.getStr "code").bind ErrorCode.ofWireName
  let message ← v.getStr "message"
  let retryable ← v.getBool "retryable"
  let txConflict ← v.getBool "tx_conflict"
  let uniqueViolation ← v.getBool "unique_violation"
  let foreignKeyViolation ← v.getBool "foreign_key_violation"
  some { code, message, retryable, txConflict, uniqueViolation, foreignKeyViolation }

@[simp] theorem ofValue_toValue (error : RecordedError) : ofValue error.toValue = some error := by
  have code : error.toValue.getStr "code" = some error.code.wireName := rfl
  have message : error.toValue.getStr "message" = some error.message := rfl
  have retryable : error.toValue.getBool "retryable" = some error.retryable := rfl
  have txConflict : error.toValue.getBool "tx_conflict" = some error.txConflict := rfl
  have unique : error.toValue.getBool "unique_violation" = some error.uniqueViolation := rfl
  have foreign : error.toValue.getBool "foreign_key_violation" = some error.foreignKeyViolation := rfl
  simp only [ofValue, code, message, retryable, txConflict, unique, foreign, Option.bind_some,
    ErrorCode.ofWireName_wireName, Option.bind_eq_bind]

end RecordedError

namespace PortableWorkflowError

/-- `skip_serializing_if = "Option::is_none"`: an absent field is left out, an explicit
null is written. -/
def toValue (info : PortableWorkflowError) : Value :=
  .object ([("name", .string info.name), ("message", .string info.message)] ++
    (info.code.map fun v => ("code", v)).toList ++ (info.data.map fun v => ("data", v)).toList)

def ofValue (v : Value) : Option PortableWorkflowError := do
  let name ← v.getStr "name"
  let message ← v.getStr "message"
  some { name, message, code := absent (v.get "code"), data := absent (v.get "data") }

def read (info : PortableWorkflowError) : PortableWorkflowError :=
  { info with code := absent info.code, data := absent info.data }

theorem ofValue_toValue (info : PortableWorkflowError) : ofValue info.toValue = some info.read := by
  obtain ⟨name, message, code, data⟩ := info
  cases code <;> cases data <;>
    simp [ofValue, toValue, read, getStr, Value.get, List.lookup_cons, List.lookup_nil, asStr]

@[simp] theorem read_name (info : PortableWorkflowError) : info.read.name = info.name := rfl

@[simp] theorem read_message (info : PortableWorkflowError) : info.read.message = info.message := rfl

@[simp] theorem read_read (info : PortableWorkflowError) : info.read.read = info.read := by
  simp [read]

theorem toValue_injective {info other : PortableWorkflowError} (same : info.toValue = other.toValue) :
    info = other := by
  obtain ⟨name, message, code, data⟩ := info
  obtain ⟨name', message', code', data'⟩ := other
  cases code <;> cases data <;> cases code' <;> cases data' <;> simp_all [toValue]

end PortableWorkflowError

namespace Divergence

def toValue : Divergence → Value
  | .mismatch position expected recorded =>
    .object [("kind", .string "mismatch"), ("position", ofI32 position),
      ("expected", .string expected), ("recorded", .string recorded)]
  | .extra position operation =>
    .object [("kind", .string "extra"), ("position", ofI32 position), ("operation", .string operation)]
  | .missing position recorded =>
    .object [("kind", .string "missing"), ("position", ofI32 position), ("recorded", .string recorded)]
  | .failed error => .object [("kind", .string "failed"), ("error", .string error)]

def ofValue (v : Value) : Option Divergence := do
  match ← v.getStr "kind" with
  | "mismatch" => return .mismatch (← v.getI32 "position") (← v.getStr "expected") (← v.getStr "recorded")
  | "extra" => return .extra (← v.getI32 "position") (← v.getStr "operation")
  | "missing" => return .missing (← v.getI32 "position") (← v.getStr "recorded")
  | "failed" => return .failed (← v.getStr "error")
  | _ => none

/-- The position is an `i32`. -/
def Fits : Divergence → Prop
  | .mismatch position _ _ | .extra position _ | .missing position _ => IsI32 position
  | .failed _ => True

theorem ofValue_toValue (divergence : Divergence) (fits : divergence.Fits) :
    ofValue divergence.toValue = some divergence := by
  cases divergence <;>
    simp_all [ofValue, toValue, Fits, getStr, getI32, Value.get, List.lookup_cons, List.lookup_nil, asStr, asI64_ofI32,
      Option.filter]

end Divergence

namespace ErrorWire

def tagged (kind : String) (data : Value) : Value := .object [("kind", .string kind), ("data", data)]

/-- `none` for a skipped variant, which cannot be written. -/
def toValue : Error → Option Value
  | .recoveryRequired _ | .observationFailed _ | .db _ | .migrate _ | .serde _
  | .outputSerialization _ => none
  | .recorded error => some (tagged "recorded" error.toValue)
  | .serialization message => some (tagged "serialization" (.string message))
  | .unknownWorkflow name => some (tagged "unknown_workflow" (.string name))
  | .unknownQueue name => some (tagged "unknown_queue" (.string name))
  | .nonExistentWorkflow id => some (tagged "non_existent_workflow" (.string id))
  | .notAuthorized message => some (tagged "not_authorized" (.string message))
  | .queueDeduplicated queueName dedupId =>
    some (tagged "queue_deduplicated"
      (.object [("queue_name", .string queueName), ("dedup_id", .string dedupId)]))
  | .cancelled id => some (tagged "cancelled" (.string id))
  | .maxRecoveryAttemptsExceeded id => some (tagged "max_recovery_attempts_exceeded" (.string id))
  | .conflictingRegistration name => some (tagged "conflicting_registration" (.string name))
  | .timeout => some (.object [("kind", .string "timeout")])
  | .unexpectedStep workflowId stepId expected recorded =>
    some (tagged "unexpected_step" (.object [("workflow_id", .string workflowId),
      ("step_id", ofI32 stepId), ("expected", .string expected), ("recorded", .string recorded)]))
  | .nestedDurableCall workflowId operation =>
    some (tagged "nested_durable_call"
      (.object [("workflow_id", .string workflowId), ("operation", .string operation)]))
  | .durableCallCrossedBody operation => some (tagged "durable_call_crossed_body" (.string operation))
  | .durableCallOutsideExecution workflowId operation =>
    some (tagged "durable_call_outside_execution"
      (.object [("workflow_id", .string workflowId), ("operation", .string operation)]))
  | .workflowConflict id => some (tagged "workflow_conflict" (.string id))
  | .replayDiverged workflowId divergence =>
    some (tagged "replay_diverged"
      (.object [("workflow_id", .string workflowId), ("divergence", divergence.toValue)]))
  | .app message _ => some (tagged "app" (.object [("message", .string message)]))
  | .portable info => some (tagged "portable" info.toValue)

def ofContent (kind : String) (data : Value) : Option Error := do
  match kind with
  | "recorded" => return .recorded (← RecordedError.ofValue data)
  | "serialization" => return .serialization (← data.asStr)
  | "unknown_workflow" => return .unknownWorkflow (← data.asStr)
  | "unknown_queue" => return .unknownQueue (← data.asStr)
  | "non_existent_workflow" => return .nonExistentWorkflow (← data.asStr)
  | "not_authorized" => return .notAuthorized (← data.asStr)
  | "queue_deduplicated" =>
    return .queueDeduplicated (← data.getStr "queue_name") (← data.getStr "dedup_id")
  | "cancelled" => return .cancelled (← data.asStr)
  | "max_recovery_attempts_exceeded" => return .maxRecoveryAttemptsExceeded (← data.asStr)
  | "conflicting_registration" => return .conflictingRegistration (← data.asStr)
  | "timeout" => if data.isNull then return .timeout else none
  | "unexpected_step" =>
    return .unexpectedStep (← data.getStr "workflow_id") (← data.getI32 "step_id")
      (← data.getStr "expected") (← data.getStr "recorded")
  | "nested_durable_call" =>
    return .nestedDurableCall (← data.getStr "workflow_id") (← data.getStr "operation")
  | "durable_call_crossed_body" => return .durableCallCrossedBody (← data.asStr)
  | "durable_call_outside_execution" =>
    return .durableCallOutsideExecution (← data.getStr "workflow_id") (← data.getStr "operation")
  | "workflow_conflict" => return .workflowConflict (← data.asStr)
  | "replay_diverged" =>
    return .replayDiverged (← data.getStr "workflow_id")
      (← Divergence.ofValue ((data.get "divergence").getD .null))
  | "app" => return .ofMessage (← data.getStr "message")
  | "portable" => return .portable (← PortableWorkflowError.ofValue data)
  | _ => none

def ofValue (v : Value) : Option Error :=
  (v.getStr "kind").bind fun kind => ofContent kind ((v.get "data").getD .null)

@[simp] theorem ofValue_tagged (kind : String) (data : Value) :
    ofValue (tagged kind data) = ofContent kind data := rfl

/-- The numbered fields of an error are `i32`. -/
def Fits : Error → Prop
  | .unexpectedStep _ stepId _ _ => IsI32 stepId
  | .replayDiverged _ divergence => divergence.Fits
  | _ => True

/-- The error that reading its wire form gives: no live cause, and no explicit null. -/
def read : Error → Error
  | .app message _ => .ofMessage message
  | .portable info => .portable info.read
  | error => error

theorem ofValue_toValue (error : Error) (fits : Fits error) (v : Value) (written : toValue error = some v) :
    ofValue v = some (read error) := by
  cases error <;> simp only [toValue, Option.some.injEq, reduceCtorEq] at written <;> subst written
  case recorded error =>
    have content : ∀ data, ofContent "recorded" data = (RecordedError.ofValue data).bind fun error => some (.recorded error) :=
      fun _ => rfl
    rw [ofValue_tagged, content, RecordedError.ofValue_toValue]
    rfl
  case unexpectedStep workflowId stepId expected recorded =>
    have kept : (Value.object [("workflow_id", .string workflowId), ("step_id", ofI32 stepId),
        ("expected", .string expected), ("recorded", .string recorded)]).getI32 "step_id" = some stepId := by
      simp [getI32, Value.get, List.lookup_cons, asI64_ofI32 fits, Option.filter, show IsI32 stepId from fits]
    have content : ∀ data, ofContent "unexpected_step" data = (data.getStr "workflow_id").bind fun workflowId =>
        (data.getI32 "step_id").bind fun stepId => (data.getStr "expected").bind fun expected =>
          (data.getStr "recorded").bind fun recorded => some (.unexpectedStep workflowId stepId expected recorded) :=
      fun _ => rfl
    rw [ofValue_tagged, content, kept]
    rfl
  case replayDiverged workflowId divergence =>
    have content : ∀ data, ofContent "replay_diverged" data = (data.getStr "workflow_id").bind fun workflowId =>
        (Divergence.ofValue ((data.get "divergence").getD .null)).bind fun divergence =>
          some (.replayDiverged workflowId divergence) :=
      fun _ => rfl
    have divergent : ((Value.object [("workflow_id", .string workflowId), ("divergence", divergence.toValue)]).get
        "divergence").getD .null = divergence.toValue := rfl
    rw [ofValue_tagged, content, divergent, Divergence.ofValue_toValue divergence fits]
    rfl
  case portable info =>
    have content : ∀ data, ofContent "portable" data = (PortableWorkflowError.ofValue data).bind fun info => some (.portable info) :=
      fun _ => rfl
    rw [ofValue_tagged, content, PortableWorkflowError.ofValue_toValue]
    rfl
  all_goals rfl

end ErrorWire

/-- What the program relies on of the JSON and base64 libraries: a printed value reads
back, also as one of the derived types, and an object is printed in braces. The values are
those the library reads back: of the floats not those whose last digit its parser changes,
and no nesting beyond its limit. -/
structure SerdeJson.Lawful (lib : SerdeJson) : Prop where
  fromStr_toString (v : Value) : lib.fromStr (lib.toString v) = .ok v
  null_text : lib.toString .null = "null"
  object_brace (fields : List (String × Value)) : (lib.toString (.object fields)).toList.head? = some '\x7b'
  envelopeToString_eq (info : PortableWorkflowError) : lib.envelopeToString info = lib.toString info.toValue
  envelopeFromStr_eq (v : Value) (info : PortableWorkflowError) :
    PortableWorkflowError.ofValue v = some info → lib.envelopeFromStr (lib.toString v) = .ok info
  errorToValue_eq (error : Error) (v : Value) : ErrorWire.toValue error = some v → lib.errorToValue error = v
  errorFromValue_eq (v : Value) (error : Error) :
    ErrorWire.ofValue v = some error → lib.errorFromValue v = .ok error
  payload_object (version : Fin (2 ^ 64)) (payload : Value) : version.val < 2 ^ 32 →
    lib.payloadFromValue (.object [("version", .number (.posInt version)), ("error", payload)]) =
      .ok (version.val, payload)
  payload_null : ∃ message, lib.payloadFromValue .null = .error message
  base64Decode_encode (text : String) : lib.base64Decode (lib.base64Encode text) = .ok text
  base64_not_nil (text : String) : lib.base64Encode text ≠ NIL_MARKER

theorem SerdeJson.Lawful.toString_inj {lib : SerdeJson} (lawful : lib.Lawful) {v w : Value}
    (same : lib.toString v = lib.toString w) : v = w := by
  have first := lawful.fromStr_toString v
  rw [same, lawful.fromStr_toString w] at first
  exact (Except.ok.inj first).symm

theorem SerdeJson.Lawful.envelope_read {lib : SerdeJson} (lawful : lib.Lawful) (info : PortableWorkflowError) :
    lib.envelopeFromStr (lib.envelopeToString info) = .ok info.read := by
  rw [lawful.envelopeToString_eq]
  exact lawful.envelopeFromStr_eq _ _ info.ofValue_toValue

/-! It prints the known values as JSON and every other one as a row of tildes. -/

def Number.index : Number → Nat
  | .posInt n => Nat.pair 0 n.val
  | .negInt n => Nat.pair 1 n.val
  | .float negative magnitude => Nat.pair (if negative then 2 else 3) magnitude.val

theorem Number.index_injective {m n : Number} (same : m.index = n.index) : m = n := by
  cases m <;> cases n <;> simp only [index, Nat.pair_eq_pair] at same
  case posInt.posInt => rw [Fin.ext same.2]
  case negInt.negInt => rw [Fin.ext same.2]
  case float.float s m t n => cases s <;> cases t <;> simp_all [Fin.ext_iff]
  all_goals
    obtain ⟨tags, -⟩ := same
    try split at tags
    all_goals omega

def textIndex (s : String) : Nat := Encodable.encode (s.toList.map Char.toNat)

theorem textIndex_injective {s t : String} (same : textIndex s = textIndex t) : s = t := by
  have chars := Encodable.encode_injective same
  have inj : Function.Injective Char.toNat := fun a b equal => Char.toNat_inj.mp equal
  exact String.toList_inj.mp (inj.list_map chars)

namespace Value

mutual

def index : Value → Nat
  | .null => Nat.pair 0 0
  | .bool b => Nat.pair 1 (if b then 0 else 1)
  | .number n => Nat.pair 2 n.index
  | .string s => Nat.pair 3 (textIndex s)
  | .array items => Nat.pair 4 (indexItems items)
  | .object fields => Nat.pair 5 (indexFields fields)

def indexItems : List Value → Nat
  | [] => Nat.pair 0 0
  | v :: items => Nat.pair 1 (Nat.pair (index v) (indexItems items))

def indexFields : List (String × Value) → Nat
  | [] => Nat.pair 0 0
  | (key, v) :: fields => Nat.pair 1 (Nat.pair (textIndex key) (Nat.pair (index v) (indexFields fields)))

end

mutual

theorem index_injective : ∀ a b : Value, index a = index b → a = b
  | .null, b, same => by cases b <;> simp_all [index, Nat.pair_eq_pair]
  | .bool a, b, same => by
    cases b <;> simp_all [index, Nat.pair_eq_pair]
    cases a <;> simp_all
  | .number a, b, same => by
    cases b <;> simp_all [index, Nat.pair_eq_pair]
    exact Number.index_injective same
  | .string a, b, same => by
    cases b <;> simp_all [index, Nat.pair_eq_pair]
    exact textIndex_injective same
  | .array xs, b, same => by
    cases b <;> simp_all [index, Nat.pair_eq_pair]
    exact indexItems_injective xs _ same
  | .object xs, b, same => by
    cases b <;> simp_all [index, Nat.pair_eq_pair]
    exact indexFields_injective xs _ same

theorem indexItems_injective : ∀ a b : List Value, indexItems a = indexItems b → a = b
  | [], b, same => by cases b <;> simp_all [indexItems, Nat.pair_eq_pair]
  | x :: xs, b, same => by
    cases b with
    | nil => simp [indexItems, Nat.pair_eq_pair] at same
    | cons y ys =>
      simp only [indexItems, Nat.pair_eq_pair] at same
      rw [index_injective x y same.2.1, indexItems_injective xs ys same.2.2]

theorem indexFields_injective : ∀ a b : List (String × Value), indexFields a = indexFields b → a = b
  | [], b, same => by cases b <;> simp_all [indexFields, Nat.pair_eq_pair]
  | (key, x) :: xs, b, same => by
    cases b with
    | nil => simp [indexFields, Nat.pair_eq_pair] at same
    | cons y ys =>
      obtain ⟨key', y⟩ := y
      simp only [indexFields, Nat.pair_eq_pair] at same
      obtain ⟨-, keys, values, rest⟩ := same
      rw [textIndex_injective keys, index_injective x y values, indexFields_injective xs ys rest]

end

/-- A text of tildes for a value that is not among the known ones. -/
def tildes (v : Value) : String :=
  match v with
  | .object fields => String.ofList ('\x7b' :: List.replicate (index (.object fields) + 1) '~')
  | v => String.ofList (List.replicate (index v + 1) '~')

theorem tildes_mem (v : Value) : '~' ∈ v.tildes.toList := by
  cases v <;> simp [tildes]

theorem tildes_injective {v w : Value} (same : v.tildes = w.tildes) : v = w := by
  have braced : ∀ fields : List (String × Value), ∀ n : Nat,
      '\x7b' :: List.replicate (index (.object fields) + 1) '~' ≠ List.replicate (n + 1) '~' := by
    intro fields n equal
    rw [List.replicate_succ (n := n)] at equal
    simp at equal
  have chars := congrArg String.toList same
  apply index_injective
  cases v <;> cases w <;> simp only [tildes, String.toList_ofList] at chars
  case object.object =>
    have lengths := congrArg List.length chars
    simp at lengths
    omega
  case object.null | object.bool | object.number | object.string | object.array => exact absurd chars (braced _ _)
  case null.object | bool.object | number.object | string.object | array.object =>
    exact absurd chars.symm (braced _ _)
  case null.null => rfl
  all_goals
    have lengths := congrArg List.length chars
    simp at lengths
    omega

end Value

/-- Values whose JSON texts are told apart from each other and from every text of tildes,
and texts of which the same holds in base64. -/
structure Printable (known : List Value) (texts : List String) : Prop where
  null : .null ∈ known
  distinct : (known.map printValue).Nodup
  plain : ∀ v ∈ known, '~' ∉ (printValue v).toList
  encodings : (texts.map base64Ascii).Nodup
  base64 : ∀ text ∈ texts, '~' ∉ (base64Ascii text).toList ∧ base64Ascii text ≠ NIL_MARKER

namespace SerdeJson

section Printing

variable (known : List Value) (texts : List String)

def print (v : Value) : String := if v ∈ known then printValue v else v.tildes

def armor (text : String) : String :=
  if text ∈ texts then base64Ascii text else String.ofList ('~' :: text.toList)

/-- The reading of a text is whatever was printed as it. -/
noncomputable def unprint [Nonempty α] (print : α → String) (text : String) : Except String α :=
  open Classical in if printed : ∃ v, print v = text then .ok printed.choose else .error "expected value"

theorem unprint_print [Nonempty α] {print : α → String} (injective : Function.Injective print) (v : α) :
    unprint print (print v) = .ok v := by
  have printed : ∃ w, print w = print v := ⟨v, rfl⟩
  simp only [unprint, printed, dif_pos]
  rw [injective printed.choose_spec]

noncomputable def printing : SerdeJson where
  toString := print known
  fromStr := unprint (print known)
  envelopeToString := fun info => print known info.toValue
  envelopeFromStr := fun text =>
    match unprint (print known) text with
    | .error e => .error e
    | .ok v => (PortableWorkflowError.ofValue v).elim (.error "missing field `name`") .ok
  errorToValue := fun error => (ErrorWire.toValue error).getD .null
  errorFromValue := fun v => (ErrorWire.ofValue v).elim (.error "unknown variant") .ok
  payloadFromValue := fun v =>
    match v.get "version" with
    | some (.number (.posInt version)) => .ok (version.val, (v.get "error").getD .null)
    | _ => .error "missing field `version`"
  base64Encode := armor texts
  base64Decode := unprint (armor texts)

variable {known texts}

theorem print_injective (printable : Printable known texts) : Function.Injective (print known) := by
  intro v w same
  have apart : ∀ a ∈ known, ∀ b : Value, printValue a ≠ b.tildes := by
    intro a member b equal
    exact printable.plain a member (equal ▸ b.tildes_mem)
  by_cases first : v ∈ known <;> by_cases second : w ∈ known <;>
    simp only [print, first, second, if_true, if_false] at same
  · exact List.inj_on_of_nodup_map printable.distinct first second same
  · exact absurd same (apart v first w)
  · exact absurd same.symm (apart w second v)
  · exact Value.tildes_injective same

theorem armor_injective (printable : Printable known texts) : Function.Injective (armor texts) := by
  intro v w same
  have apart : ∀ a ∈ texts, ∀ rest : List Char, base64Ascii a ≠ String.ofList ('~' :: rest) := by
    intro a member rest equal
    have free := (printable.base64 a member).1
    rw [equal] at free
    simp at free
  by_cases first : v ∈ texts <;> by_cases second : w ∈ texts <;>
    simp only [armor, first, second, if_true, if_false] at same
  · exact List.inj_on_of_nodup_map printable.encodings first second same
  · exact absurd same (apart v first _)
  · exact absurd same.symm (apart w second _)
  · simpa [String.ofList_inj, String.toList_inj] using same

theorem printing_lawful (printable : Printable known texts) : (printing known texts).Lawful where
  fromStr_toString := unprint_print (print_injective printable)
  null_text := if_pos printable.null
  object_brace := by
    intro fields
    by_cases member : Value.object fields ∈ known
    · simp [printing, print, member, printValue]
    · simp [printing, print, member, Value.tildes]
  envelopeToString_eq := fun _ => rfl
  envelopeFromStr_eq := by
    intro v info reads
    have back := unprint_print (print_injective printable) v
    simp only [printing, back, reads, Option.elim]
  errorToValue_eq := by
    intro error v written
    simp [printing, written]
  errorFromValue_eq := by
    intro v error reads
    simp [printing, reads]
  payload_object := fun _ _ _ => rfl
  payload_null := ⟨_, rfl⟩
  base64Decode_encode := unprint_print (armor_injective printable)
  base64_not_nil := by
    intro text nil
    by_cases member : text ∈ texts
    · simp only [printing, armor, member, if_true] at nil
      exact (printable.base64 text member).2 nil
    · simp only [printing, armor, member, if_false] at nil
      have chars := congrArg (fun s => s.toList.head?) nil
      simp [NIL_MARKER] at chars

/-- One known object beside null. -/
theorem printing_object (fields : List (String × Value)) (plain : '~' ∉ (printValue (.object fields)).toList) :
    (printing [.null, .object fields] []).Lawful := by
  have apart : printValue .null ≠ printValue (.object fields) := by
    intro same
    have heads := congrArg (fun text => text.toList.head?) same
    simp [printValue] at heads
  apply printing_lawful
  refine ⟨by simp, by simp [apart], ?_, by simp, by simp⟩
  intro v member
  rcases List.mem_cons.mp member with rfl | object
  · simp [printValue]
  · rw [List.mem_singleton.mp object]
    exact plain

end Printing

end SerdeJson

end Durare

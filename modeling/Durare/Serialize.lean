import Durare.Error

/-! Stored texts: the formats of values, and the versioned records of errors. The JSON
and base64 libraries are a parameter; everything the program decides around them is
spelled out. -/
namespace Durare

/-- What the program uses of `serde_json`, of the derived wire forms of its own types,
and of base64. A failed reading returns the library's message. -/
structure SerdeJson where
  toString : Value → String
  fromStr : String → Except String Value
  envelopeToString : PortableWorkflowError → String
  envelopeFromStr : String → Except String PortableWorkflowError
  errorToValue : Error → Value
  errorFromValue : Value → Except String Error
  payloadFromValue : Value → Except String (Nat × Value)
  base64Encode : String → String
  base64Decode : String → Except String String

/-- A user-supplied format. -/
structure SerializerCodec where
  name : String
  encode : Value → Except Error String
  decode : String → Except Error Value

inductive Serializer where
  | json
  | portable
  | custom (codec : SerializerCodec)

def PORTABLE : String := "portable_json"
def DBOS_JSON : String := "DBOS_JSON"
def NIL_MARKER : String := "__DBOS_NIL"
def PORTABLE_ERROR_NAME : String := "Portable Error"

namespace Serializer

def name : Serializer → String
  | .json => DBOS_JSON
  | .portable => PORTABLE
  | .custom codec => codec.name

def isPortable : Serializer → Bool
  | .portable => true
  | _ => false

def encode (lib : SerdeJson) (serializer : Serializer) (value : Value) : Except Error String :=
  match serializer with
  | .portable => if value.isNull then .ok "null" else .ok (lib.toString value)
  | .json => if value.isNull then .ok NIL_MARKER else .ok (lib.base64Encode (lib.toString value))
  | .custom codec => codec.encode value

end Serializer

def serdeResult (result : Except String α) : Except Error α := result.mapError .serde

/-- `serialize::decode`: the stored format decides, the configured codec only claims the
texts tagged with its own name. -/
def decode (lib : SerdeJson) (serializer : Serializer) (format : Option String) (stored : String) :
    Except Error Value :=
  let tag := format.getD ""
  let builtin : Except Error Value :=
    if tag = "" ∨ tag = DBOS_JSON then
      if stored = NIL_MARKER then .ok .null
      else match lib.base64Decode stored with
        | .error e => .error (.serialization ("invalid base64 in DBOS_JSON value: " ++ e))
        | .ok bytes => serdeResult (lib.fromStr bytes)
    else .error (.serialization ("value uses serialization format " ++ tag.quote ++
      ", which this SDK cannot decode; use portable_json for cross-language interop, " ++
      "or configure a matching custom serializer"))
  if tag = PORTABLE then
    if stored = "null" then .ok .null else serdeResult (lib.fromStr stored)
  else match serializer with
    | .custom codec => if codec.name = tag then codec.decode stored else builtin
    | _ => builtin

/-- The reserved marker of a versioned error record in a non-portable column. -/
def RECORD_MARKER : String := "__DURARE_ERROR__:"
def RECORD_NAME : String := "durare.RecordedError"

/-- The text after the marker, when the text carries it. -/
def stripMarker (stored : String) : Option String :=
  if RECORD_MARKER.toList.isPrefixOf stored.toList then
    some (String.ofList (stored.toList.drop RECORD_MARKER.toList.length))
  else none

def notAuthorizedEnvelope (info : PortableWorkflowError) : Bool :=
  info.name == "DBOSNotAuthorizedError" && info.code.isNone && info.data.isNone

/-- Driver and parser errors are captured before they are written. -/
def recordable (error : Error) : Error :=
  match error with
  | .db _ | .migrate _ | .serde _ | .outputSerialization _ => .recorded (RecordedError.capture error)
  | other => other

def recordEnvelope (lib : SerdeJson) (error : Error) : PortableWorkflowError where
  name := RECORD_NAME
  message := error.toString
  code := none
  data := some (.object [("version", .number (.posInt 1)), ("error", lib.errorToValue (recordable error))])

/-- `recorded_error::encode`: `none` where the plain text or envelope loses nothing. -/
def encodeRecord (lib : SerdeJson) (serializer : Serializer) (error : Error) :
    Except Error (Option String) :=
  let record : Except Error (Option String) :=
    let encoded := lib.envelopeToString (recordEnvelope lib error)
    .ok (some (if serializer.isPortable then encoded else RECORD_MARKER ++ encoded))
  match error with
  | .recoveryRequired cause => .error (.recoveryRequired cause)
  | .observationFailed cause => .error (.observationFailed cause)
  | error =>
    if error.code = .recoveryRequired then
      .error (.serialization "an execution interruption is not a recordable outcome")
    else match error with
      | .app message _ => if (stripMarker message).isNone then .ok none else record
      | .portable info =>
        if serializer.isPortable ∧ info.name ≠ RECORD_NAME ∧ ¬ notAuthorizedEnvelope info then .ok none
        else record
      | .notAuthorized _ => if serializer.isPortable then .ok none else record
      | _ => record

def encodeError (lib : SerdeJson) (serializer : Serializer) (error : Error) : Except Error String :=
  match encodeRecord lib serializer error with
  | .error e => .error e
  | .ok (some recorded) => .ok recorded
  | .ok none =>
    if serializer.isPortable then
      .ok (lib.envelopeToString (match error with
        | .portable info => info
        | .notAuthorized message =>
          { name := "DBOSNotAuthorizedError", message := message, code := none, data := none }
        | other =>
          { name := PORTABLE_ERROR_NAME, message := other.toString, code := none, data := none }))
    else .ok error.toString

/-- `value.get("name").and_then(Value::as_str)`. -/
def envelopeName : Value → Option String
  | .object fields => (fields.lookup "name").bind Value.asStr
  | _ => none

/-- `serialize::decode_error`: the message, and the envelope of a structured record. -/
def decodeError (lib : SerdeJson) (format : Option String) (stored : String) :
    String × Option PortableWorkflowError :=
  match stripMarker stored with
  | some encoded =>
    match lib.envelopeFromStr encoded with
    | .ok info => if info.name = RECORD_NAME then (info.message, some info) else (stored, none)
    | .error _ => (stored, none)
  | none =>
    if format = some PORTABLE then
      match lib.envelopeFromStr stored with
      | .ok info => (info.message, some info)
      | .error _ =>
        match lib.fromStr stored with
        | .ok value =>
          if envelopeName value = some RECORD_NAME then
            (stored, some { name := RECORD_NAME, message := stored, code := none, data := none })
          else (stored, none)
        | .error _ => (stored, none)
    else (stored, none)

def decodeRecord (lib : SerdeJson) (info : PortableWorkflowError) : Except Error Error :=
  match lib.payloadFromValue (info.data.getD .null) with
  | .error e => .error (.serde e)
  | .ok (version, payload) =>
    if version ≠ 1 then .error (.serialization s!"unsupported recorded error version {version}")
    else match lib.errorFromValue payload with
      | .error e => .error (.serde e)
      | .ok error =>
        if error.code = .recoveryRequired then
          .error (.serialization "record contains an execution interruption, not a business outcome")
        else .ok error

/-- The branch of `try_from_parts` for an envelope. -/
def errorFromEnvelope (lib : SerdeJson) (info : PortableWorkflowError) : Except Error Error :=
  if info.name = RECORD_NAME then
    match decodeRecord lib info with
    | .ok error => .ok error
    | .error e => .error (.serialization ("cannot decode recorded error: " ++ e.toString))
  else if notAuthorizedEnvelope info then .ok (.notAuthorized info.message)
  else .ok (.portable info)

/-- `recorded_error::try_from_parts`: an unreadable record is told apart from the error a
valid record holds. -/
def tryFromParts (lib : SerdeJson) (message : String) (info : Option PortableWorkflowError) :
    Except Error Error :=
  match info with
  | some info => errorFromEnvelope lib info
  | none =>
    match stripMarker message with
    | none => .ok (.ofMessage message)
    | some encoded =>
      match lib.envelopeFromStr encoded with
      | .ok info =>
        if info.name = RECORD_NAME then errorFromEnvelope lib info
        else .error (.serialization "cannot decode recorded error envelope")
      | .error _ => .error (.serialization "cannot decode recorded error envelope")

def fromParts (lib : SerdeJson) (message : String) (info : Option PortableWorkflowError) : Error :=
  match tryFromParts lib message info with
  | .ok error => error
  | .error error => error

/-- `serialize::encode_stored_error`: a decoded record copied to another format without
reading its payload. A foreign envelope is always recordable. -/
def encodeStoredError (lib : SerdeJson) (serializer : Serializer) (message : String)
    (info : Option PortableWorkflowError) : String :=
  match info with
  | none => message
  | some info =>
    if info.name = RECORD_NAME then
      let encoded := lib.envelopeToString info
      if serializer.isPortable then encoded else RECORD_MARKER ++ encoded
    else match encodeError lib serializer (fromParts lib message (some info)) with
      | .ok text => text
      | .error _ => message

mutual

/-- The JSON text of a value whose strings need no escape and whose floats are zeros. -/
def printValue : Value → String
  | .null => "null"
  | .bool b => if b then "true" else "false"
  | .number (.posInt n) => toString n.val
  | .number (.negInt n) => "-" ++ toString (n.val + 1)
  | .number (.float negative _) => if negative then "-0.0" else "0.0"
  | .string s => "\"" ++ s ++ "\""
  | .array items => "[" ++ printItems items ++ "]"
  | .object fields => "\x7b" ++ printFields fields ++ "\x7d"

def printItems : List Value → String
  | [] => ""
  | [item] => printValue item
  | item :: items => printValue item ++ "," ++ printItems items

def printFields : List (String × Value) → String
  | [] => ""
  | [(key, value)] => "\"" ++ key ++ "\":" ++ printValue value
  | (key, value) :: fields => "\"" ++ key ++ "\":" ++ printValue value ++ "," ++ printFields fields

end

def base64Char (sextet : Nat) : Char :=
  "ABCDEFGHIJKLMNOPQRSTUVWXYZabcdefghijklmnopqrstuvwxyz0123456789+/".toList.getD sextet '='

def base64Bytes : List Nat → List Char
  | a :: b :: c :: rest =>
    base64Char (a / 4) :: base64Char (a % 4 * 16 + b / 16) :: base64Char (b % 16 * 4 + c / 64) ::
      base64Char (c % 64) :: base64Bytes rest
  | [a, b] => [base64Char (a / 4), base64Char (a % 4 * 16 + b / 16), base64Char (b % 16 * 4), '=']
  | [a] => [base64Char (a / 4), base64Char (a % 4 * 16), '=', '=']
  | [] => []

/-- The base64 form of an ASCII text. -/
def base64Ascii (text : String) : String := String.ofList (base64Bytes (text.toList.map (·.toNat)))

/-- A library that prints simple values and reads back the texts of the listed ones. -/
def SerdeJson.reading (values : List Value) : SerdeJson where
  toString := printValue
  fromStr := fun text =>
    match values.find? fun value => printValue value == text with
    | some value => .ok value
    | none => .error "expected value"
  envelopeToString := fun info =>
    printValue (.object [("name", .string info.name), ("message", .string info.message)])
  envelopeFromStr := fun _ => .error "expected value"
  errorToValue := fun _ => .null
  errorFromValue := fun _ => .error "missing field `kind`"
  payloadFromValue := fun _ => .error "missing field `version`"
  base64Encode := base64Ascii
  base64Decode := fun text =>
    match values.find? fun value => base64Ascii (printValue value) == text with
    | some value => .ok (printValue value)
    | none => .error "Invalid symbol"

end Durare

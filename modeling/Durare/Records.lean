import Durare.Wire

/-! The life of an error record: what `encode_error` writes, `restore_error` reads, and
writing the restored error gives again. -/
namespace Durare

def restoreError (lib : SerdeJson) (format : Option String) (stored : String) : Error :=
  let (message, info) := decodeError lib format stored
  fromParts lib message info

def readError (lib : SerdeJson) (format : Option String) (stored : String) : Except Error Error :=
  let (message, info) := decodeError lib format stored
  tryFromParts lib message info

theorem restoreError_of_read {lib : SerdeJson} {format : Option String} {stored : String} {error : Error}
    (reads : readError lib format stored = .ok error) : restoreError lib format stored = error := by
  simp only [readError] at reads
  simp only [restoreError, fromParts, reads]

/-- A codec must not take a built-in name. -/
def Serializer.Named : Serializer → Prop
  | .custom codec => codec.name ≠ PORTABLE ∧ codec.name ≠ DBOS_JSON
  | _ => True

theorem Serializer.Named.portable_iff {serializer : Serializer} (named : serializer.Named) :
    serializer.name = PORTABLE ↔ serializer.isPortable = true := by
  cases serializer with
  | json => decide
  | portable => simp [name, isPortable]
  | custom codec => simpa [name, isPortable] using named.1

namespace Error

/-- A stopped execution or a failed observation. A recorded diagnostic keeps no more of
one than its code. -/
def Interruption : Error → Prop
  | .recoveryRequired _ | .observationFailed _ => True
  | error => error.code = .recoveryRequired

/-- The variants with a wire form of their own, `App` and `Portable` apart. -/
def BuiltIn : Error → Prop
  | .recoveryRequired _ | .observationFailed _ | .db _ | .migrate _ | .serde _
  | .outputSerialization _ | .app _ _ | .portable _ => False
  | _ => True

/-- A `code` or a `data` that is there and null. -/
def ExplicitNull : Error → Prop
  | .portable info => info.code = some .null ∨ info.data = some .null
  | _ => False

end Error

namespace Records

section Shape

/-- The error a caller of `code`, `to_string` and the `is_*` helpers cannot tell from
another one. -/
structure Alike (error restored : Error) : Prop where
  code : restored.code = error.code
  message : restored.toString = error.toString
  unique : restored.isUniqueViolation = error.isUniqueViolation
  foreign : restored.isForeignKeyViolation = error.isForeignKeyViolation
  retryable : restored.isRetryable = error.isRetryable
  conflict : restored.isTxConflict = error.isTxConflict
  scope : restored.isScopeViolation = error.isScopeViolation
  cancellation : ∀ id, restored.isCancellationFor id = error.isCancellationFor id

/-- A plain message as the portable format holds it. -/
def plainEnvelope (message : String) : PortableWorkflowError where
  name := PORTABLE_ERROR_NAME
  message := message
  code := none
  data := none

/-- What a record has to keep of an error. -/
structure Faithful (error restored : Error) : Prop extends Alike error restored where
  builtIn : error.BuiltIn → restored = error
  portable : ∀ info, error = .portable info → restored = .portable info.read
  application : ∀ message source, error = .app message source →
    restored = .ofMessage message ∨ restored = .portable (plainEnvelope message)

/-- A structured application error that the portable format writes in the words of a
fieldless role denial. -/
def Misread (serializer : Serializer) (error : Error) : Prop :=
  serializer.isPortable = true ∧ ∃ info, error = .portable info ∧
    notAuthorizedEnvelope info.read = true ∧ notAuthorizedEnvelope info = false

def restored (serializer : Serializer) (error : Error) : Error :=
  match error with
  | .app message _ =>
    if serializer.isPortable ∧ (stripMarker message).isNone then .portable (plainEnvelope message)
    else .ofMessage message
  | .portable info =>
    if serializer.isPortable ∧ notAuthorizedEnvelope info.read ∧ ¬ notAuthorizedEnvelope info then
      .notAuthorized info.message
    else .portable info.read
  | error => recordable error

theorem read_eq_iff (info : PortableWorkflowError) : info.read = info ↔ ¬ Error.ExplicitNull (.portable info) := by
  obtain ⟨name, message, code, data⟩ := info
  have field : ∀ value : Option Value, Value.absent value = value ↔ value ≠ some .null := by
    intro value
    cases value with
    | none => simp
    | some v => cases v <;> simp [Value.absent, Option.filter, Value.isNull]
  simp [PortableWorkflowError.read, Error.ExplicitNull, field]

theorem absent_str (field : Option Value) : (Value.absent field).bind Value.asStr = field.bind Value.asStr := by
  cases field with
  | none => rfl
  | some v => cases v <;> rfl

theorem read_alike (error : Error) : Alike error (ErrorWire.read error) := by
  have portable : ∀ info : PortableWorkflowError, (Error.portable info.read).code = (Error.portable info).code := by
    intro info
    simp [Error.code, PortableWorkflowError.read, absent_str]
  cases error <;> constructor <;> first | rfl | exact fun _ => rfl | exact portable _ | skip
  case portable.scope info => simp only [Error.isScopeViolation, ErrorWire.read, portable]

theorem Misread.explicitNull {serializer : Serializer} {error : Error} (misread : Misread serializer error) :
    error.ExplicitNull := by
  obtain ⟨-, info, rfl, reads, apart⟩ := misread
  by_contra kept
  rw [(read_eq_iff info).mpr kept, apart] at reads
  exact Bool.false_ne_true reads

end Shape

section Marker

theorem stripMarker_marked (text : String) : stripMarker (RECORD_MARKER ++ text) = some text := by
  have stands : RECORD_MARKER.toList.isPrefixOf (RECORD_MARKER ++ text).toList = true := by
    rw [List.isPrefixOf_iff_prefix, String.toList_append]
    exact List.prefix_append _ _
  simp only [stripMarker, stands, if_true]
  simp

theorem stripMarker_braced {text : String} (braced : text.toList.head? = some '\x7b') : stripMarker text = none := by
  have apart : RECORD_MARKER.toList.isPrefixOf text.toList = false := by
    cases chars : text.toList with
    | nil => rfl
    | cons head tail =>
      rw [chars, List.head?_cons, Option.some_inj] at braced
      rw [braced]
      rfl
  simp [stripMarker, apart]

end Marker

section Reading

variable {lib : SerdeJson} (lawful : lib.Lawful)

def recordText (lib : SerdeJson) (serializer : Serializer) (error : Error) : String :=
  let encoded := lib.envelopeToString (recordEnvelope lib error)
  if serializer.isPortable then encoded else RECORD_MARKER ++ encoded

include lawful

theorem envelope_braced (info : PortableWorkflowError) : stripMarker (lib.envelopeToString info) = none := by
  rw [lawful.envelopeToString_eq]
  exact stripMarker_braced (lawful.object_brace _)

/-- A record is read from its envelope in either format. -/
theorem read_envelope (info : PortableWorkflowError) :
    readError lib (some PORTABLE) (lib.envelopeToString info) =
      tryFromParts lib info.message (some info.read) := by
  simp [readError, decodeError, envelope_braced lawful, lawful.envelope_read]

omit lawful in
theorem read_text {format : Option String} (other : format ≠ some PORTABLE) {message : String}
    (free : stripMarker message = none) : readError lib format message = .ok (.ofMessage message) := by
  have decoded : decodeError lib format message = (message, none) := by
    simp only [decodeError, free, other, if_false]
  simp only [readError, decoded, tryFromParts, free]

theorem read_marked (format : Option String) {info : PortableWorkflowError} (named : info.name = RECORD_NAME) :
    readError lib format (RECORD_MARKER ++ lib.envelopeToString info) =
      tryFromParts lib info.message (some info.read) := by
  simp [readError, decodeError, stripMarker_marked, lawful.envelope_read, named]

theorem decodeRecord_record {error : Error} {wire : Value} (fits : ErrorWire.Fits (recordable error))
    (written : ErrorWire.toValue (recordable error) = some wire)
    (business : (recordable error).code ≠ .recoveryRequired) :
    decodeRecord lib (recordEnvelope lib error).read = .ok (ErrorWire.read (recordable error)) := by
  have value : lib.errorToValue (recordable error) = wire := lawful.errorToValue_eq _ _ written
  have back : lib.errorFromValue wire = .ok (ErrorWire.read (recordable error)) :=
    lawful.errorFromValue_eq _ _ (ErrorWire.ofValue_toValue _ fits _ written)
  have payload := lawful.payload_object 1 wire (by decide)
  have code : (ErrorWire.read (recordable error)).code ≠ .recoveryRequired := by
    rw [(read_alike _).code]
    exact business
  have data : (recordEnvelope lib error).read.data =
      some (.object [("version", .number (.posInt 1)), ("error", wire)]) := by
    simp [recordEnvelope, PortableWorkflowError.read, Value.absent, Option.filter, Value.isNull, value]
  simp only [decodeRecord, data, Option.getD_some, payload, back]
  simp [code]

/-- Reading a record gives the recorded error, without its live cause and without explicit
nulls. -/
theorem read_record {serializer : Serializer} (named : serializer.Named) {error : Error} {wire : Value}
    (fits : ErrorWire.Fits (recordable error)) (written : ErrorWire.toValue (recordable error) = some wire)
    (business : (recordable error).code ≠ .recoveryRequired) :
    readError lib (some serializer.name) (recordText lib serializer error) =
      .ok (ErrorWire.read (recordable error)) := by
  have record : (recordEnvelope lib error).name = RECORD_NAME := rfl
  have reads : readError lib (some serializer.name) (recordText lib serializer error) =
      tryFromParts lib (recordEnvelope lib error).message (some (recordEnvelope lib error).read) := by
    by_cases portable : serializer.isPortable
    · rw [recordText, if_pos portable, named.portable_iff.mpr portable]
      exact read_envelope lawful _
    · rw [recordText, if_neg portable]
      exact read_marked lawful _ record
  rw [reads]
  simp [tryFromParts, errorFromEnvelope, record, decodeRecord_record lawful fits written business]

end Reading

section Writing

/-- The errors whose plain text or envelope loses nothing. -/
def plain (serializer : Serializer) : Error → Bool
  | .app message _ => (stripMarker message).isNone
  | .portable info => serializer.isPortable && info.name != RECORD_NAME && !notAuthorizedEnvelope info
  | .notAuthorized _ => serializer.isPortable
  | _ => false

theorem plain_app (serializer : Serializer) (message : String) (source : Option String) :
    plain serializer (.app message source) = (stripMarker message).isNone := rfl

def envelope : Error → PortableWorkflowError
  | .portable info => info
  | .notAuthorized message =>
    { name := "DBOSNotAuthorizedError", message := message, code := none, data := none }
  | other => plainEnvelope other.toString

def plainText (lib : SerdeJson) (serializer : Serializer) (error : Error) : String :=
  if serializer.isPortable then lib.envelopeToString (envelope error) else error.toString

theorem recordable_alike (error : Error) : Alike error (recordable error) := by
  cases error <;> constructor <;> first | rfl | exact fun _ => rfl

theorem recordable_fits {error : Error} (fits : ErrorWire.Fits error) : ErrorWire.Fits (recordable error) := by
  cases error <;> exact fits

theorem recordable_written {error : Error} (business : ¬ error.Interruption) :
    ∃ wire, ErrorWire.toValue (recordable error) = some wire := by
  cases error <;> first | exact ⟨_, rfl⟩ | exact absurd trivial business

theorem business_code {error : Error} (business : ¬ error.Interruption) : error.code ≠ .recoveryRequired := by
  cases error <;> first | exact business | exact absurd trivial business

/-- An error that is no interruption is written, as its plain form or as a record. -/
theorem encodeError_eq (lib : SerdeJson) (serializer : Serializer) {error : Error} (business : ¬ error.Interruption) :
    encodeError lib serializer error =
      .ok (if plain serializer error then plainText lib serializer error else recordText lib serializer error) := by
  have code := business_code business
  cases error with
  | recoveryRequired cause => exact absurd trivial business
  | observationFailed cause => exact absurd trivial business
  | app message source =>
    by_cases free : (stripMarker message).isNone <;> by_cases portable : serializer.isPortable <;>
      simp_all [encodeError, encodeRecord, plain, plainText, recordText, envelope, plainEnvelope]
  | portable info =>
    by_cases portable : serializer.isPortable <;> by_cases name : info.name = RECORD_NAME <;>
      by_cases denial : notAuthorizedEnvelope info <;>
      simp_all [encodeError, encodeRecord, plain, plainText, recordText, envelope]
  | notAuthorized message =>
    by_cases portable : serializer.isPortable <;>
      simp_all [encodeError, encodeRecord, plain, plainText, recordText, envelope]
  | _ => simp_all [encodeError, encodeRecord, plain, recordText]

/-- An interruption is refused, in whatever it is wrapped. -/
theorem encodeError_interruption (lib : SerdeJson) (serializer : Serializer) {error : Error}
    (interrupted : error.Interruption) : ∃ refusal, encodeError lib serializer error = .error refusal := by
  cases error with
  | recoveryRequired cause => exact ⟨_, rfl⟩
  | observationFailed cause => exact ⟨_, rfl⟩
  | _ =>
    exact ⟨.serialization "an execution interruption is not a recordable outcome", by
      simp_all [encodeError, encodeRecord, Error.Interruption]⟩

end Writing

section RoundTrip

variable {lib : SerdeJson} (lawful : lib.Lawful) {serializer : Serializer} (named : serializer.Named)

include lawful named

theorem read_plain {error : Error} (short : plain serializer error = true) :
    readError lib (some serializer.name) (plainText lib serializer error) = .ok (restored serializer error) := by
  by_cases portable : serializer.isPortable
  · have reads : ∀ info : PortableWorkflowError, info.name ≠ RECORD_NAME →
        readError lib (some serializer.name) (lib.envelopeToString info) =
          .ok (if notAuthorizedEnvelope info.read then .notAuthorized info.message else .portable info.read) := by
      intro info other
      rw [named.portable_iff.mpr portable, read_envelope lawful]
      by_cases denial : notAuthorizedEnvelope info.read <;> simp [tryFromParts, errorFromEnvelope, other, denial]
    rw [plainText, if_pos portable]
    cases error with
    | app message source =>
      rw [plain_app] at short
      have other : (plainEnvelope message).name ≠ RECORD_NAME := by
        simp [plainEnvelope, PORTABLE_ERROR_NAME, RECORD_NAME]
      have apart : notAuthorizedEnvelope (plainEnvelope message).read = false := by
        simp [notAuthorizedEnvelope, plainEnvelope, PORTABLE_ERROR_NAME]
      have reading := reads (plainEnvelope message) other
      rw [apart] at reading
      simp only [restored, portable, short, and_self, if_true]
      exact reading
    | portable info =>
      simp only [plain, portable, Bool.true_and, Bool.and_eq_true, bne_iff_ne, Bool.not_eq_true'] at short
      rw [envelope, reads _ short.1]
      by_cases denial : notAuthorizedEnvelope info.read <;> simp [restored, portable, denial, short.2]
    | notAuthorized message =>
      rw [reads _ (by simp [envelope, RECORD_NAME])]
      simp [envelope, restored, recordable, PortableWorkflowError.read, notAuthorizedEnvelope]
    | _ => simp [plain] at short
  · rw [plainText, if_neg portable]
    have other : some serializer.name ≠ some PORTABLE := fun same =>
      portable (named.portable_iff.mp (Option.some_inj.mp same))
    cases error with
    | app message source =>
      rw [plain_app, Option.isNone_iff_eq_none] at short
      have text : (Error.app message source).toString = message := rfl
      rw [text, read_text other short]
      simp [restored, portable]
    | _ => simp_all [plain]

/-- What is written of an error reads as the restored one. -/
theorem read_encode (error : Error) (fits : ErrorWire.Fits error) (business : ¬ error.Interruption) :
    ∃ text, encodeError lib serializer error = .ok text ∧
      readError lib (some serializer.name) text = .ok (restored serializer error) := by
  refine ⟨_, encodeError_eq lib serializer business, ?_⟩
  by_cases short : plain serializer error
  · rw [if_pos short]
    exact read_plain lawful named short
  · rw [if_neg short]
    obtain ⟨wire, written⟩ := recordable_written business
    rw [read_record lawful named (recordable_fits fits) written
      (by rw [(recordable_alike error).code]; exact business_code business)]
    cases error with
    | app message source =>
      rw [plain_app] at short
      rw [restored, if_neg fun both => short both.2]
      rfl
    | portable info =>
      have apart : ¬ (serializer.isPortable ∧ notAuthorizedEnvelope info.read ∧ ¬ notAuthorizedEnvelope info) := by
        rintro ⟨portable, reads, apart⟩
        have name : info.name = RECORD_NAME := by simpa [plain, portable, apart] using short
        simp [notAuthorizedEnvelope, name, RECORD_NAME] at reads
      rw [restored, if_neg apart]
      rfl
    | _ => rfl

theorem restore_encode (error : Error) (fits : ErrorWire.Fits error) (business : ¬ error.Interruption) :
    ∃ text, encodeError lib serializer error = .ok text ∧
      restoreError lib (some serializer.name) text = restored serializer error := by
  obtain ⟨text, written, reads⟩ := read_encode lawful named error fits business
  exact ⟨text, written, restoreError_of_read reads⟩

end RoundTrip

section Again

/-- Two errors that print alike and are captured alike have one record. -/
theorem recordText_congr (lib : SerdeJson) (serializer : Serializer) (error other : Error)
    (message : other.toString = error.toString)
    (value : lib.errorToValue (recordable other) = lib.errorToValue (recordable error)) :
    recordText lib serializer other = recordText lib serializer error := by
  simp only [recordText, recordEnvelope, message, value]

variable {lib : SerdeJson} (lawful : lib.Lawful)

include lawful

theorem envelope_inj {info other : PortableWorkflowError}
    (same : lib.envelopeToString info = lib.envelopeToString other) : info = other := by
  rw [lawful.envelopeToString_eq, lawful.envelopeToString_eq] at same
  exact PortableWorkflowError.toValue_injective (lawful.toString_inj same)

theorem portable_record_inj {serializer : Serializer} {info other : PortableWorkflowError}
    (same : recordText lib serializer (.portable info) = recordText lib serializer (.portable other)) :
    info = other := by
  have encoded : lib.envelopeToString (recordEnvelope lib (.portable info)) =
      lib.envelopeToString (recordEnvelope lib (.portable other)) := by
    by_cases portable : serializer.isPortable
    · simpa only [recordText, portable, if_true] using same
    · simpa only [recordText, portable, Bool.false_eq_true, if_false, String.append_right_inj] using same
  have data := congrArg PortableWorkflowError.data (envelope_inj lawful encoded)
  simp only [recordEnvelope, recordable, Option.some.injEq, Value.object.injEq, List.cons.injEq, Prod.mk.injEq,
    true_and, and_true] at data
  rw [lawful.errorToValue_eq _ _ rfl, lawful.errorToValue_eq _ _ rfl] at data
  simp only [ErrorWire.tagged, Value.object.injEq, List.cons.injEq, Prod.mk.injEq, true_and, and_true] at data
  exact PortableWorkflowError.toValue_injective data

omit lawful in
theorem encode_captured (lib : SerdeJson) (serializer : Serializer) {error : Error} (business : ¬ error.Interruption)
    (driver : recordable error = .recorded (RecordedError.capture error)) (short : plain serializer error = false) :
    encodeError lib serializer (.recorded (RecordedError.capture error)) = encodeError lib serializer error := by
  have code : error.code ≠ .recoveryRequired := business_code business
  have captured : ¬ (Error.recorded (RecordedError.capture error)).Interruption := code
  have record : plain serializer (.recorded (RecordedError.capture error)) = false := rfl
  rw [encodeError_eq lib serializer business, encodeError_eq lib serializer captured, short, record]
  simp only [Bool.false_eq_true, if_false, Except.ok.injEq]
  exact recordText_congr lib serializer _ _ rfl (by rw [driver]; rfl)

theorem encode_restored_app (serializer : Serializer) (message : String) (source : Option String) :
    encodeError lib serializer (restored serializer (.app message source)) =
      encodeError lib serializer (.app message source) := by
  have business : ∀ source, ¬ (Error.app message source).Interruption := fun _ same => by cases same
  by_cases short : serializer.isPortable ∧ (stripMarker message).isNone
  · have envelope : ¬ (Error.portable (plainEnvelope message)).Interruption := fun same => by cases same
    have free : plain serializer (.portable (plainEnvelope message)) = true := by
      simp [plain, short.1, plainEnvelope, PORTABLE_ERROR_NAME, RECORD_NAME, notAuthorizedEnvelope]
    rw [restored, if_pos short, encodeError_eq lib serializer envelope, encodeError_eq lib serializer (business source),
      free, plain_app, short.2]
    simp only [if_true, plainText, short.1]
    rfl
  · rw [restored, if_neg short, Error.ofMessage, encodeError_eq lib serializer (business none),
      encodeError_eq lib serializer (business source), plain_app, plain_app]
    have record := recordText_congr lib serializer (.app message source) (.app message none) rfl (by
      simp only [recordable]
      rw [lawful.errorToValue_eq _ _ rfl, lawful.errorToValue_eq _ _ rfl])
    by_cases free : (stripMarker message).isNone
    · have other : ¬ serializer.isPortable := fun portable => short ⟨portable, free⟩
      simp only [free, if_true, plainText, other]
      rfl
    · simp only [free, Bool.false_eq_true, if_false, record]

theorem encode_restored_portable (serializer : Serializer) (info : PortableWorkflowError) :
    encodeError lib serializer (restored serializer (.portable info)) = encodeError lib serializer (.portable info) ↔
      ¬ (Error.portable info).ExplicitNull := by
  have business : ∀ info, ¬ (Error.portable info).Interruption := by
    intro info same
    simp only [Error.Interruption, Error.code] at same
    split at same <;> cases same
  constructor
  · intro same null
    have changed : info.read ≠ info := fun kept => (read_eq_iff info).mp kept null
    have structured : notAuthorizedEnvelope info = false := by
      rcases null with null | null <;> simp [notAuthorizedEnvelope, null]
    rw [encodeError_eq lib serializer (business info)] at same
    by_cases misread : serializer.isPortable ∧ notAuthorizedEnvelope info.read ∧ ¬ notAuthorizedEnvelope info
    · have denial : ¬ (Error.notAuthorized info.message).Interruption := fun same => by cases same
      have name : info.name ≠ RECORD_NAME := by
        intro name
        simp [notAuthorizedEnvelope, name, RECORD_NAME] at misread
      rw [restored, if_pos misread, encodeError_eq lib serializer denial] at same
      simp only [plain, misread.1, structured, plainText, envelope, if_true, Bool.true_and, Bool.not_false,
        Bool.and_true, bne_iff_ne, ne_eq, name, not_false_eq_true, Except.ok.injEq] at same
      have equal := envelope_inj lawful same
      rw [← equal] at null
      rcases null with null | null <;> cases null
    · rw [restored, if_neg misread, encodeError_eq lib serializer (business info.read)] at same
      have together : plain serializer (.portable info.read) = plain serializer (.portable info) := by
        by_cases portable : serializer.isPortable
        · have apart : notAuthorizedEnvelope info.read = false := by simpa [portable, structured] using misread
          simp [plain, portable, apart, structured]
        · simp [plain, portable]
      rw [together] at same
      by_cases short : plain serializer (.portable info)
      · have portable : serializer.isPortable := by simp [plain] at short; exact short.1.1
        simp only [short, if_true, plainText, portable, envelope, Except.ok.injEq] at same
        exact changed (envelope_inj lawful same)
      · simp only [short, Bool.false_eq_true, if_false, Except.ok.injEq] at same
        exact changed (portable_record_inj lawful same)
  · intro kept
    have same := (read_eq_iff info).mpr kept
    have apart : ¬ (serializer.isPortable ∧ notAuthorizedEnvelope info.read ∧ ¬ notAuthorizedEnvelope info) := by
      rw [same]
      exact fun misread => misread.2.2 misread.2.1
    rw [restored, if_neg apart, same]

/-- Writing the restored error gives the same text exactly when no null was explicit. -/
theorem encode_restored_iff (serializer : Serializer) {error : Error} (business : ¬ error.Interruption) :
    encodeError lib serializer (restored serializer error) = encodeError lib serializer error ↔
      ¬ error.ExplicitNull := by
  cases error with
  | recoveryRequired cause => exact absurd trivial business
  | observationFailed cause => exact absurd trivial business
  | db error => exact iff_of_true (encode_captured lib serializer business rfl rfl) id
  | migrate message => exact iff_of_true (encode_captured lib serializer business rfl rfl) id
  | serde message => exact iff_of_true (encode_captured lib serializer business rfl rfl) id
  | outputSerialization message => exact iff_of_true (encode_captured lib serializer business rfl rfl) id
  | app message source => exact iff_of_true (encode_restored_app lawful serializer message source) id
  | portable info => exact encode_restored_portable lawful serializer info
  | _ => exact iff_of_true rfl id

end Again

section Marks

variable (lib : SerdeJson)

/-- A version-one record that holds `error`. -/
def ValidRecord (encoded : String) (error : Error) : Prop :=
  ∃ info payload, lib.envelopeFromStr encoded = .ok info ∧ info.name = RECORD_NAME ∧
    lib.payloadFromValue (info.data.getD .null) = .ok (1, payload) ∧
    lib.errorFromValue payload = .ok error ∧ error.code ≠ .recoveryRequired

/-- The text announces a record: by the marker in any column, or by the reserved name in a
portable one. -/
def Carries (format : Option String) (stored : String) : Prop :=
  (stripMarker stored).isSome ∨ format = some PORTABLE ∧
    ((∃ info, lib.envelopeFromStr stored = .ok info ∧ info.name = RECORD_NAME) ∨
      (∃ e, lib.envelopeFromStr stored = .error e) ∧
        ∃ v, lib.fromStr stored = .ok v ∧ envelopeName v = some RECORD_NAME)

/-- The text of the record itself. -/
def recordPart (stored : String) : String := (stripMarker stored).getD stored

variable {lib}

/-- A record is read as the error it holds, or as an unreadable record. -/
theorem restore_named {encoded : String} {info : PortableWorkflowError} (reads : lib.envelopeFromStr encoded = .ok info)
    (name : info.name = RECORD_NAME) (message : String) :
    (∃ error, ValidRecord lib encoded error ∧ fromParts lib message (some info) = error) ∨
      (¬ ∃ error, ValidRecord lib encoded error) ∧
        ∃ text, fromParts lib message (some info) = .serialization text := by
  have valid : ∀ error, ValidRecord lib encoded error ↔ decodeRecord lib info = .ok error := by
    intro error
    simp only [ValidRecord, reads, Except.ok.injEq, decodeRecord]
    constructor
    · rintro ⟨_, payload, rfl, -, one, held, business⟩
      simp [one, held, business]
    · intro decoded
      split at decoded
      · cases decoded
      · next version payload one =>
        split at decoded
        · cases decoded
        · next isOne =>
          split at decoded
          · cases decoded
          · next held =>
            split at decoded
            · cases decoded
            · next business =>
              cases decoded
              exact ⟨info, payload, rfl, name, by rw [one, of_not_not isOne], held, business⟩
  simp only [valid]
  cases decoded : decodeRecord lib info with
  | ok error => exact .inl ⟨error, rfl, by simp [fromParts, tryFromParts, errorFromEnvelope, name, decoded]⟩
  | error failure =>
    exact .inr ⟨by simp, _, by simp only [fromParts, tryFromParts, errorFromEnvelope, name, if_true, decoded]; rfl⟩

/-- A text that announces a record restores to what the record holds, and to a
serialization error where the record is not valid. -/
theorem restore_carried (lawful : lib.Lawful) (format : Option String) (stored : String)
    (carries : Carries lib format stored) :
    (∃ error, ValidRecord lib (recordPart stored) error ∧ restoreError lib format stored = error) ∨
      (¬ ∃ error, ValidRecord lib (recordPart stored) error) ∧
        ∃ text, restoreError lib format stored = .serialization text := by
  cases stripped : stripMarker stored with
  | some encoded =>
    have part : recordPart stored = encoded := by simp [recordPart, stripped]
    rw [part]
    by_cases envelope : ∃ info, lib.envelopeFromStr encoded = .ok info ∧ info.name = RECORD_NAME
    · obtain ⟨info, reads, name⟩ := envelope
      have restores : restoreError lib format stored = fromParts lib info.message (some info) := by
        simp only [restoreError, decodeError, stripped, reads, name, if_true]
      rw [restores]
      exact restore_named reads name _
    · refine .inr ⟨fun ⟨_, info, _, reads, name, _⟩ => envelope ⟨info, reads, name⟩,
        "cannot decode recorded error envelope", ?_⟩
      cases reads : lib.envelopeFromStr encoded with
      | error e => simp only [restoreError, decodeError, stripped, reads, fromParts, tryFromParts]
      | ok info =>
        have other : info.name ≠ RECORD_NAME := fun name => envelope ⟨info, reads, name⟩
        simp only [restoreError, decodeError, stripped, reads, other, if_false, fromParts, tryFromParts]
  | none =>
    have part : recordPart stored = stored := by simp [recordPart, stripped]
    rw [part]
    rcases carries with marked | ⟨rfl, ⟨info, reads, name⟩ | ⟨⟨e, failed⟩, v, reads, name⟩⟩
    · simp [stripped] at marked
    · have restores : restoreError lib (some PORTABLE) stored = fromParts lib info.message (some info) := by
        simp only [restoreError, decodeError, stripped, reads, if_true]
      rw [restores]
      exact restore_named reads name _
    · obtain ⟨absent, missing⟩ := lawful.payload_null
      have invalid : ¬ ∃ error, ValidRecord lib stored error := by
        rintro ⟨_, info, _, back, _⟩
        rw [failed] at back
        cases back
      refine .inr ⟨invalid, ?_⟩
      refine ⟨"cannot decode recorded error: " ++ (Error.serde absent).toString, ?_⟩
      simp only [restoreError, decodeError, stripped, failed, reads, name, if_true, fromParts, tryFromParts,
        errorFromEnvelope, decodeRecord, Option.getD_none, missing]

end Marks

section Result

/-- The record of `error` is read as the error, in all that a caller can ask of it. -/
def Restores (lib : SerdeJson) (serializer : Serializer) (error : Error) : Prop :=
  ∃ text, encodeError lib serializer error = .ok text ∧
    Faithful error (restoreError lib (some serializer.name) text)

/-- The same, and writing the restored error gives the same record. -/
def RoundTrips (lib : SerdeJson) (serializer : Serializer) (error : Error) : Prop :=
  ∃ text, encodeError lib serializer error = .ok text ∧
    Faithful error (restoreError lib (some serializer.name) text) ∧
    encodeError lib serializer (restoreError lib (some serializer.name) text) = .ok text

theorem Alike.trans {first second third : Error} (left : Alike first second) (right : Alike second third) :
    Alike first third where
  code := right.code.trans left.code
  message := right.message.trans left.message
  unique := right.unique.trans left.unique
  foreign := right.foreign.trans left.foreign
  retryable := right.retryable.trans left.retryable
  conflict := right.conflict.trans left.conflict
  scope := right.scope.trans left.scope
  cancellation := fun id => (right.cancellation id).trans (left.cancellation id)

/-- The other variants are restored as they were captured. -/
theorem recordable_faithful {error : Error} (application : ∀ message source, error ≠ .app message source)
    (portable : ∀ info, error ≠ .portable info) : Faithful error (recordable error) :=
  { recordable_alike error with
    builtIn := fun inside => by cases error <;> first | rfl | exact inside.elim
    portable := fun info shape => absurd shape (portable info)
    application := fun message source shape => absurd shape (application message source) }

theorem restored_faithful_iff (serializer : Serializer) (error : Error) :
    Faithful error (restored serializer error) ↔ ¬ Misread serializer error := by
  cases error with
  | app message source =>
    have kept : ¬ Misread serializer (.app message source) := by
      rintro ⟨-, info, shape, -⟩
      cases shape
    refine iff_of_true ?_ kept
    by_cases short : serializer.isPortable ∧ (stripMarker message).isNone
    · rw [restored, if_pos short]
      have alike : Alike (.app message source) (.portable (plainEnvelope message)) := by
        constructor <;> first | rfl | exact fun _ => rfl
      exact { alike with
        builtIn := fun inside => inside.elim
        portable := fun _ shape => by cases shape
        application := fun _ _ shape => by cases shape; exact .inr rfl }
    · rw [restored, if_neg short]
      exact { read_alike (.app message source) with
        builtIn := fun inside => inside.elim
        portable := fun _ shape => by cases shape
        application := fun _ _ shape => by cases shape; exact .inl rfl }
  | portable info =>
    by_cases misread : serializer.isPortable ∧ notAuthorizedEnvelope info.read ∧ ¬ notAuthorizedEnvelope info
    · rw [restored, if_pos misread]
      have lost : Misread serializer (.portable info) :=
        ⟨misread.1, info, rfl, misread.2.1, by simpa using misread.2.2⟩
      refine iff_of_false (fun faithful => ?_) (not_not.mpr lost)
      have shape := faithful.portable info rfl
      cases shape
    · rw [restored, if_neg misread]
      have kept : ¬ Misread serializer (.portable info) := by
        rintro ⟨portable, _, shape, reads, apart⟩
        cases shape
        exact misread ⟨portable, reads, by simp [apart]⟩
      refine iff_of_true ?_ kept
      exact { read_alike (.portable info) with
        builtIn := fun inside => inside.elim
        portable := fun _ shape => by cases shape; rfl
        application := fun _ _ shape => by cases shape }
  | _ =>
    refine iff_of_true (recordable_faithful (fun _ _ shape => by cases shape) (fun _ shape => by cases shape)) ?_
    rintro ⟨-, info, shape, -⟩
    cases shape

variable {lib : SerdeJson} (lawful : lib.Lawful)

include lawful

omit lawful

def timeoutEnvelope : PortableWorkflowError where
  name := RECORD_NAME
  message := "operation timed out"
  code := none
  data := some (.object [("version", .number (.posInt 1)), ("error", .object [("kind", .string "timeout")])])

noncomputable def timeoutLibrary : SerdeJson := .printing [.null, timeoutEnvelope.toValue] []

theorem timeoutLibrary_lawful : timeoutLibrary.Lawful := by
  apply SerdeJson.printing_object
  simp [printValue, printFields]
  decide

/-- An application error in the class of role denials, with its code given as null. -/
def nullDenial : PortableWorkflowError where
  name := "DBOSNotAuthorizedError"
  message := "denied"
  code := some .null
  data := none

noncomputable def denialLibrary : SerdeJson := .printing [.null, nullDenial.toValue] []

end Result

end Records

end Durare

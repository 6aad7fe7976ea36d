import Durare.Export
import Durare.Imports
import Durare.Rows

/-! An in-memory workflow through its portable form and back: which of its data comes back, and
that a second export says the same. -/
namespace Durare

/-- What is relied on of `serde_json` besides its laws: an envelope read back has no explicit null, and no
value is printed as the close of a stream. -/
structure SerdeJson.Exact (lib : SerdeJson) : Prop where
  lawful : lib.Lawful
  envelope : ∀ text info, lib.envelopeFromStr text = .ok info → info.read = info
  open_stream : ∀ v, lib.toString v ≠ Memory.STREAM_CLOSED_SENTINEL

theorem PortableWorkflowError.read_of_ofValue {v : Value} {info : PortableWorkflowError}
    (reads : ofValue v = some info) :
    info.read = info := by
  simp only [ofValue, Option.bind_eq_bind, Option.bind_eq_some_iff] at reads
  obtain ⟨name, -, message, -, same⟩ := reads
  cases same
  simp [read]

theorem SerdeJson.printing_exact {known : List Value} {texts : List String} (lawful : (printing known texts).Lawful)
    (open_stream : ∀ v ∈ known, printValue v ≠ Memory.STREAM_CLOSED_SENTINEL) : (printing known texts).Exact where
  lawful := lawful
  envelope text info read := by
    simp only [printing] at read
    split at read
    · cases read
    next v _ =>
      cases reads : PortableWorkflowError.ofValue v with
      | none =>
        rw [reads] at read
        cases read
      | some other =>
        rw [reads] at read
        cases read
        exact PortableWorkflowError.read_of_ofValue reads
  open_stream v same := by
    by_cases member : v ∈ known
    · exact open_stream v member (by simpa [printing, print, member] using same)
    · have tilde := v.tildes_mem
      have text : v.tildes = Memory.STREAM_CLOSED_SENTINEL := by simpa [printing, print, member] using same
      rw [text] at tilde
      exact absurd tilde (by decide)

namespace Records

variable {lib : SerdeJson}

/-- A stored text is kept as it is, whatever it says, or holds an envelope. -/
theorem decodeError_shape (exactly : lib.Exact) (format : Option String) (stored : String) :
    (decodeError lib format stored = (stored, none) ∧ decodeError lib none stored = (stored, none)) ∨
      ∃ info : PortableWorkflowError, decodeError lib format stored = (info.message, some info) ∧ info.read = info := by
  cases marked : stripMarker stored with
  | some encoded =>
    cases read : lib.envelopeFromStr encoded with
    | error e => exact .inl (by simp [decodeError, marked, read])
    | ok info =>
      by_cases named : info.name = RECORD_NAME
      · exact .inr ⟨info, by simp [decodeError, marked, read, named], exactly.envelope encoded info read⟩
      · exact .inl (by simp [decodeError, marked, read, named])
  | none =>
    have plain : decodeError lib none stored = (stored, none) := by simp [decodeError, marked]
    by_cases portable : format = some PORTABLE
    · subst portable
      cases read : lib.envelopeFromStr stored with
      | ok info => exact .inr ⟨info, by simp [decodeError, marked, read], exactly.envelope stored info read⟩
      | error e =>
        cases parsed : lib.fromStr stored with
        | error e => exact .inl ⟨by simp [decodeError, marked, read, parsed], plain⟩
        | ok value =>
          by_cases named : envelopeName value = some RECORD_NAME
          · refine .inr ⟨⟨RECORD_NAME, stored, none, none⟩, ?_, rfl⟩
            simp [decodeError, marked, read, parsed, named]
          · exact .inl ⟨by simp [decodeError, marked, read, parsed, named], plain⟩
    · exact .inl ⟨by simp [decodeError, marked, portable], plain⟩

def recoded (lib : SerdeJson) (decoded : String × Option PortableWorkflowError) : String :=
  encodeStoredError lib .json decoded.1 decoded.2

/-- A record is decoded from its text in any format. -/
theorem decode_marked (exactly : lib.Exact) (format : Option String) {info : PortableWorkflowError}
    (read : info.read = info)
    (named : info.name = RECORD_NAME) :
    decodeError lib format (RECORD_MARKER ++ lib.envelopeToString info) = (info.message, some info) := by
  simp [decodeError, stripMarker_marked, exactly.lawful.envelope_read, read, named]

theorem recoded_record {info : PortableWorkflowError} (named : info.name = RECORD_NAME) :
    recoded lib (info.message, some info) = RECORD_MARKER ++ lib.envelopeToString info := by
  simp [recoded, encodeStoredError, named, Serializer.isPortable]

/-- What an error that has been decoded restores to after its portable form has been decoded, and that the
form is then the same. -/
structure Survives (lib : SerdeJson) (decoded : String × Option PortableWorkflowError) : Prop where
  restored : restoreError lib none (recoded lib decoded) = fromParts lib decoded.1 decoded.2
  same : recoded lib (decodeError lib none (recoded lib decoded)) = recoded lib decoded

theorem recordEnvelope_read (lib : SerdeJson) (error : Error) :
    (recordEnvelope lib error).read = recordEnvelope lib error := by
  simp [recordEnvelope, PortableWorkflowError.read, Value.absent, Option.filter, Value.isNull]

/-- A foreign envelope becomes a record of the error it stands for. -/
theorem survives_error (exactly : lib.Exact) {message : String} {info : PortableWorkflowError}
    (foreign : info.name ≠ RECORD_NAME)
    (error : Error) (stands : fromParts lib message (some info) = error) (short : plain .json error = false)
    (fits : ErrorWire.Fits error) (business : ¬ error.Interruption) (exact_read : ErrorWire.read (recordable error) = error) :
    Survives lib (message, some info) := by
  have text : recoded lib (message, some info) = RECORD_MARKER ++ lib.envelopeToString (recordEnvelope lib error) := by
    have written := encodeError_eq lib .json business
    simp only [short, Bool.false_eq_true, if_false] at written
    simp only [recoded, encodeStoredError, foreign, if_false, stands, written]
    rfl
  have decoded := decode_marked exactly none (recordEnvelope_read lib error) rfl
  constructor
  · obtain ⟨wire, wired⟩ := recordable_written business
    have code : (recordable error).code ≠ .recoveryRequired := by
      rw [(recordable_alike error).code]
      exact business_code business
    have record := decodeRecord_record exactly.lawful (recordable_fits fits) wired code
    rw [recordEnvelope_read] at record
    have named : (recordEnvelope lib error).name = RECORD_NAME := rfl
    rw [text, restoreError, decoded]
    simp only [fromParts, tryFromParts, errorFromEnvelope, named, if_true, record, exact_read]
    exact stands.symm
  · rw [text, decoded, recoded_record rfl]

theorem survives (exactly : lib.Exact) (format : Option String) (stored : String) :
    Survives lib (decodeError lib format stored) := by
  rcases decodeError_shape exactly format stored with ⟨kept, again⟩ | ⟨info, decoded, read⟩
  · have text : recoded lib (stored, none) = stored := rfl
    rw [kept]
    constructor
    · rw [text, restoreError, again]
    · rw [text, again, text]
  · rw [decoded]
    by_cases named : info.name = RECORD_NAME
    · have again := decode_marked exactly none read named
      constructor
      · rw [recoded_record named, restoreError, again]
      · rw [recoded_record named, again, recoded_record named]
    · by_cases denied : notAuthorizedEnvelope info
      · exact survives_error exactly named (.notAuthorized info.message)
          (by simp [fromParts, tryFromParts, errorFromEnvelope, named, denied]) rfl trivial (by simp [Error.Interruption, Error.code]) rfl
      · have code : (Error.portable info).code ≠ .recoveryRequired := by
          simp only [Error.code]
          split <;> simp
        refine survives_error exactly named (.portable info)
          (by simp [fromParts, tryFromParts, errorFromEnvelope, named, denied]) rfl trivial code ?_
        simp [recordable, ErrorWire.read, read]

end Records

/-- The whole milliseconds of an instant. -/
def DateTime.truncated (t : DateTime) : DateTime := t.timestampMillis * 1000000

def DateTime.Known (t : DateTime) : Prop := -8334601228800000 ≤ t.timestampMillis ∧ t.timestampMillis ≤ 8210266876799999

instance (t : DateTime) : Decidable t.Known := inferInstanceAs (Decidable (_ ∧ _))

namespace Memory

open Value Records

section Rows

variable (lib : SerdeJson)

/-- The values that the machine types of a row hold; a status is a text. -/
structure Typed (w : WorkflowStatus) : Prop where
  status : Status.ofString w.status.toString = w.status
  priority : IsI32 w.priority
  recoveryAttempts : IsI32 w.recoveryAttempts
  timeoutMs : ∀ i ∈ w.timeoutMs, IsI64 i
  deadlineMs : ∀ i ∈ w.deadlineMs, IsI64 i
  startedAtMs : ∀ i ∈ w.startedAtMs, IsI64 i
  delayUntilMs : ∀ i ∈ w.delayUntilMs, IsI64 i
  completedAtMs : ∀ i ∈ w.completedAtMs, IsI64 i
  createdAt : w.createdAt.Known
  updatedAt : w.updatedAt.Known

/-- The row that comes back: without its attributes and its mark, in whole milliseconds, its error decoded
from the portable form. -/
def restoredRow (w : WorkflowStatus) : WorkflowStatus :=
  let decoded := w.error.map fun message => decodeError lib none (recoded lib (message, w.errorInfo))
  { w with
    createdAt := w.createdAt.truncated
    updatedAt := w.updatedAt.truncated
    attributes := none
    rateLimited := false
    error := decoded.map (·.1)
    errorInfo := decoded.bind (·.2) }

theorem msToDt_ofI64 (now : DateTime) {t : DateTime} (known : t.Known) :
    msToDt now (Value.ofI64 t.timestampMillis).asI64 = t.truncated := by
  have fits : IsI64 t.timestampMillis := by
    obtain ⟨low, high⟩ := known
    constructor <;> omega
  rw [asI64_ofI64 fits]
  simp only [msToDt, Option.bind_some, DateTime.fromTimestampMillis]
  rw [if_pos (And.intro known.1 known.2)]
  rfl

theorem parsed_text (lawful : lib.Lawful) (v : Value) : (lib.fromStr (lib.toString v)).toOption = some v := by
  rw [lawful.fromStr_toString]
  rfl

theorem decodeRoles_encodeRoles (lawful : lib.Lawful) (roles : List String) :
    decodeRoles lib (Sqlite.encodeRoles lib roles) = roles := by
  by_cases empty : roles = []
  · simp [decodeRoles, Sqlite.encodeRoles, empty]
  · simp only [decodeRoles, Sqlite.encodeRoles, empty, if_false, Option.bind_some, parsed_text lib lawful]
    have all : ((roles.map Value.string).all fun item => item.asStr.isSome) = true := by simp [asStr]
    rw [if_pos all, List.filterMap_map]
    simp [Function.comp_def, asStr]

theorem mapToStatus_statusToMap (lawful : lib.Lawful) (now : DateTime) {w : WorkflowStatus} (typed : Typed w)
    (forked : Value) :
    mapToStatus lib now (statusToMap lib w ++ [("was_forked_from", forked)]) = restoredRow lib w := by
  have columns : mapToStatus lib now (statusToMap lib w ++ [("was_forked_from", forked)]) =
      let decoded := (textColumn (w.error.map fun message => recoded lib (message, w.errorInfo))).asStr.map (decodeError lib none)
      { id := w.id
        name := w.name
        status := .ofString w.status.toString
        input := (lib.fromStr (lib.toString w.input)).toOption.getD .null
        output := (textColumn (w.output.map lib.toString)).asStr.bind fun text => (lib.fromStr text).toOption
        error := decoded.map (·.1)
        errorInfo := decoded.bind (·.2)
        executorId := w.executorId
        appVersion := w.appVersion
        queueName := (textColumn w.queueName).asStr
        queuePartitionKey := (textColumn w.queuePartitionKey).asStr
        priority := asI32 ((ofI64 w.priority).asI64.getD 0)
        dedupId := (textColumn w.dedupId).asStr
        recoveryAttempts := asI32 ((ofI64 w.recoveryAttempts).asI64.getD 0)
        parentWorkflowId := (textColumn w.parentWorkflowId).asStr
        timeoutMs := (intColumn w.timeoutMs).asI64
        deadlineMs := (intColumn w.deadlineMs).asI64
        startedAtMs := (intColumn w.startedAtMs).asI64
        delayUntilMs := (intColumn w.delayUntilMs).asI64
        completedAtMs := (intColumn w.completedAtMs).asI64
        forkedFrom := (textColumn w.forkedFrom).asStr
        authenticatedUser := (textColumn w.authenticatedUser).asStr
        assumedRole := (textColumn w.assumedRole).asStr
        authenticatedRoles := decodeRoles lib (textColumn (Sqlite.encodeRoles lib w.authenticatedRoles)).asStr
        className := (textColumn w.className).asStr
        configName := (textColumn w.configName).asStr
        createdAt := msToDt now (ofI64 w.createdAt.timestampMillis).asI64
        updatedAt := msToDt now (ofI64 w.updatedAt.timestampMillis).asI64 } := rfl
  have output : (w.output.map lib.toString).bind (fun text => (lib.fromStr text).toOption) = w.output := by
    cases w.output with
    | none => rfl
    | some v => exact parsed_text lib lawful v
  rw [columns]
  simp only [asStr_textColumn, asI64_intColumn typed.timeoutMs, asI64_intColumn typed.deadlineMs,
    asI64_intColumn typed.startedAtMs, asI64_intColumn typed.delayUntilMs, asI64_intColumn typed.completedAtMs,
    asI64_ofI64 typed.priority.wide, asI64_ofI64 typed.recoveryAttempts.wide, Option.getD_some,
    asI32_of_fits typed.priority, asI32_of_fits typed.recoveryAttempts, msToDt_ofI64 now typed.createdAt,
    msToDt_ofI64 now typed.updatedAt, decodeRoles_encodeRoles lib lawful, parsed_text lib lawful, typed.status, output,
    restoredRow, Option.map_map]
  rfl

/-- The error of a row survives. -/
def Settled (w : WorkflowStatus) : Prop := ∀ message, w.error = some message → Survives lib (message, w.errorInfo)

/-- What the error of a row restores to. -/
def restoredError (w : WorkflowStatus) : Option Error := w.error.map fun message => fromParts lib message w.errorInfo

theorem restoredRow_error {w : WorkflowStatus} (settled : Settled lib w) :
    restoredError lib (restoredRow lib w) = restoredError lib w := by
  cases failed : w.error with
  | none => simp [restoredError, restoredRow, failed]
  | some message =>
    have survives := (settled message failed).restored
    simp only [restoredError, restoredRow, failed, Option.map_some, Option.bind_some, Option.some.injEq]
    exact survives

theorem statusToMap_restoredRow {w : WorkflowStatus} (settled : Settled lib w) :
    statusToMap lib (restoredRow lib w) = statusToMap lib w := by
  have created (t : DateTime) : t.truncated.timestampMillis = t.timestampMillis := by
    simp only [DateTime.truncated, DateTime.timestampMillis]
    exact Int.mul_ediv_cancel _ (by decide)
  have error : (restoredRow lib w).error.map (fun message => encodeStoredError lib .json message (restoredRow lib w).errorInfo) =
      w.error.map fun message => encodeStoredError lib .json message w.errorInfo := by
    cases failed : w.error with
    | none => simp [restoredRow, failed]
    | some message =>
      have same := (settled message failed).same
      simp only [restoredRow, failed, Option.map_some, Option.bind_some, Option.some.injEq]
      exact same
  simp only [statusToMap, error]
  simp only [restoredRow, created]

/-- The error text of a step is in the form an import leaves it in. -/
def Canonical (r : StepRow) : Prop := ∀ text, r.error = some text → recoded lib (decodeError lib none text) = text

structure TypedStep (seq : Int) (r : StepRow) : Prop where
  seq : IsI32 seq
  startedAtMs : ∀ i ∈ r.startedAtMs, IsI64 i
  completedAtMs : ∀ i ∈ r.completedAtMs, IsI64 i

theorem importedStep_stepToMap (lawful : lib.Lawful) (id : String) {seq : Int} {r : StepRow} (typed : TypedStep seq r)
    (canonical : Canonical lib r) : importedStep lib (stepToMap lib id seq r) = (seq, r) := by
  have columns : importedStep lib (stepToMap lib id seq r) =
      (asI32 ((ofI64 seq).asI64.getD 0),
        { name := r.name
          output := (textColumn (r.output.map lib.toString)).asStr.bind fun text => (lib.fromStr text).toOption
          error := (textColumn r.error).asStr.map fun stored => recoded lib (decodeError lib none stored)
          childWorkflowId := (textColumn r.childWorkflowId).asStr
          startedAtMs := (intColumn r.startedAtMs).asI64
          completedAtMs := (intColumn r.completedAtMs).asI64 }) := rfl
  have output : (r.output.map lib.toString).bind (fun text => (lib.fromStr text).toOption) = r.output := by
    cases r.output with
    | none => rfl
    | some v => exact parsed_text lib lawful v
  have error : (r.error.map fun stored => recoded lib (decodeError lib none stored)) = r.error := by
    cases failed : r.error with
    | none => rfl
    | some text => exact congrArg some (canonical text failed)
  rw [columns]
  simp only [asStr_textColumn, asI64_intColumn typed.startedAtMs, asI64_intColumn typed.completedAtMs,
    asI64_ofI64 typed.seq.wide, Option.getD_some, asI32_of_fits typed.seq, output, error]

theorem parsed_eventToMap (lawful : lib.Lawful) (id key : String) (value : Value) :
    (colStr (eventToMap lib id key value) "key").getD "" = key ∧
      (parsed lib (eventToMap lib id key value) "value").getD .null = value := by
  have columns : parsed lib (eventToMap lib id key value) "value" = (lib.fromStr (lib.toString value)).toOption := rfl
  rw [columns, parsed_text lib lawful]
  exact ⟨rfl, rfl⟩

theorem importedEntry_streamToMap (exactly : lib.Exact) (id key : String) {offset : Nat} (entry : Option Value)
    (small : offset < 2 ^ 63) : importedEntry lib (streamToMap lib id key offset entry) = (key, offset, entry) := by
  have fits : IsI64 (offset : Int) := by
    constructor <;> omega
  have columns : importedEntry lib (streamToMap lib id key offset entry) =
      (key, ((ofI64 offset).asI64.getD 0 % 2 ^ 64).toNat,
        if (entry.map lib.toString).getD STREAM_CLOSED_SENTINEL = STREAM_CLOSED_SENTINEL then none
        else (lib.fromStr ((entry.map lib.toString).getD STREAM_CLOSED_SENTINEL)).toOption) := rfl
  have place : ((offset : Int) % 2 ^ 64).toNat = offset := by omega
  rw [columns, asI64_ofI64 fits, Option.getD_some, place]
  cases entry with
  | none => rfl
  | some v =>
    rw [Option.map_some, Option.getD_some, if_neg (exactly.open_stream v), parsed_text lib exactly.lawful]

end Rows

end Memory

end Durare

import Durare.SqlStatus

/-! Stored values and workflow inputs read back, by whatever process reads them. -/
namespace Durare

/-- A custom codec with a name of its own that reads back every value it writes. -/
def Serializer.Undoes : Serializer → Prop
  | .custom codec => codec.name ≠ "" ∧ codec.name ≠ PORTABLE ∧ codec.name ≠ DBOS_JSON ∧
      ∀ v text, codec.encode v = .ok text → codec.decode text = .ok v
  | _ => True

def Serializer.isBuiltin : Serializer → Bool
  | .custom _ => false
  | _ => true

def Serializer.ReadBy (serializer reader : Serializer) : Prop :=
  reader = serializer ∨ (serializer.isBuiltin = true ∧ reader.Undoes)

/-- The value that the handler of a workflow gets for an input: a portable one in the shape of an argument
envelope is taken for one. -/
def received (serializer : Serializer) (input : Value) : Value :=
  if serializer.isPortable then
    match Sqlite.asEnvelope input with
    | some (args, _) => args.head?.getD .null
    | none => input
  else input

section Reading

variable {lib : SerdeJson} (lawful : lib.Lawful) {reader : Serializer} (own : reader.Undoes)

include own

/-- The default format is read alike whatever the reader is configured with. -/
theorem decode_default_format {format : Option String}
    (default : format = none ∨ format = some "" ∨ format = some DBOS_JSON)
    (text : String) : decode lib reader format text =
      if text = NIL_MARKER then .ok .null
      else match lib.base64Decode text with
        | .error e => .error (.serialization ("invalid base64 in DBOS_JSON value: " ++ e))
        | .ok bytes => serdeResult (lib.fromStr bytes) := by
  have named : format.getD "" = "" ∨ format.getD "" = DBOS_JSON := by
    rcases default with rfl | rfl | rfl <;> simp
  have other : format.getD "" ≠ PORTABLE := by
    rcases named with same | same <;> rw [same] <;> decide
  cases reader with
  | custom codec =>
    have apart : codec.name ≠ format.getD "" := by
      rcases named with same | same
      · rw [same]
        exact own.1
      · rw [same]
        exact own.2.2.1
    unfold decode
    cases lib.base64Decode text <;> simp only [other, apart, named, if_true, if_false]
  | _ =>
    unfold decode
    cases lib.base64Decode text <;> simp only [other, named, if_true, if_false]

omit own

theorem decode_portable (text : String) : decode lib reader (some PORTABLE) text =
    if text = "null" then .ok .null else serdeResult (lib.fromStr text) := by
  simp [decode]

include own lawful

theorem decode_encode_json {format : Option String}
    (default : format = none ∨ format = some "" ∨ format = some DBOS_JSON)
    {v : Value} {text : String} (written : Serializer.json.encode lib v = .ok text) :
    decode lib reader format text = .ok v := by
  rw [decode_default_format own default]
  by_cases null : v.isNull
  · simp only [Serializer.encode, null, if_true, Except.ok.injEq] at written
    cases v <;> simp_all [Value.isNull]
  · simp only [Serializer.encode, null, Bool.false_eq_true, if_false, Except.ok.injEq] at written
    subst written
    simp [lawful.base64_not_nil, lawful.base64Decode_encode, lawful.fromStr_toString, serdeResult, Except.mapError]

omit own

theorem toString_ne_null {v : Value} (other : v ≠ .null) : lib.toString v ≠ "null" := by
  intro same
  rw [← lawful.null_text] at same
  exact other (lawful.toString_inj same)

theorem decode_encode_portable {v : Value} {text : String} (written : Serializer.portable.encode lib v = .ok text) :
    decode lib reader (some PORTABLE) text = .ok v := by
  rw [decode_portable]
  by_cases null : v.isNull
  · simp only [Serializer.encode, null, if_true, Except.ok.injEq] at written
    cases v <;> simp_all [Value.isNull]
  · have other : v ≠ .null := by
      rintro rfl
      exact null rfl
    simp only [Serializer.encode, null, Bool.false_eq_true, if_false, Except.ok.injEq] at written
    subst written
    simp [toString_ne_null lawful other, lawful.fromStr_toString, serdeResult, Except.mapError]

/-- What is written is read back under the name of its format. -/
theorem decode_encode {serializer : Serializer} (own : serializer.Undoes) (reads : serializer.ReadBy reader) {v : Value}
    {text : String} (written : serializer.encode lib v = .ok text) :
    decode lib reader (some serializer.name) text = .ok v := by
  cases serializer with
  | json =>
    have undoes : reader.Undoes := by
      rcases reads with rfl | ⟨-, undoes⟩
      · exact own
      · exact undoes
    exact decode_encode_json lawful undoes (.inr (.inr rfl)) written
  | portable => exact decode_encode_portable lawful written
  | custom codec =>
    rcases reads with rfl | ⟨builtin, -⟩
    · obtain ⟨-, portable, -, undoes⟩ := own
      simp [decode, Serializer.name, portable, undoes v text written]
    · cases builtin

/-- The envelope of an input is unwrapped to the value that was wrapped. -/
theorem decodeInput_portable (v : Value) {text : String} (written : Sqlite.encodeInput lib .portable v = .ok text) :
    Sqlite.decodeInput lib reader (some PORTABLE) text = .ok (Sqlite.firstPositional v) := by
  have envelope (args : List Value) (named : List (String × Value)) :
      Sqlite.firstPositional (.object [("positionalArgs", .array args), ("namedArgs", .object named)]) =
        args.head?.getD .null := rfl
  have reads (fields : List (String × Value)) :
      decode lib reader (some PORTABLE) (lib.toString (.object fields)) = .ok (.object fields) := by
    have other : Value.object fields ≠ .null := by simp
    rw [decode_portable, if_neg (toString_ne_null lawful other), lawful.fromStr_toString]
    rfl
  simp only [Sqlite.encodeInput, Except.ok.injEq] at written
  subst written
  rw [Sqlite.decodeInput, reads]
  simp only [Except.map, if_true, envelope, Except.ok.injEq]
  cases shape : Sqlite.asEnvelope v with
  | none => simp [Sqlite.firstPositional, shape]
  | some parts => simp [Sqlite.firstPositional, shape]

theorem decodeInput_encodeInput {serializer : Serializer} (own : serializer.Undoes) (reads : serializer.ReadBy reader)
    {v : Value} {text : String} (written : Sqlite.encodeInput lib serializer v = .ok text) :
    Sqlite.decodeInput lib reader (some serializer.name) text = .ok (received serializer v) := by
  cases serializer with
  | json =>
    have back := decode_encode lawful own reads written
    have other : Serializer.json.name ≠ PORTABLE := by decide
    simp [Sqlite.decodeInput, back, Except.map, other, received, Serializer.isPortable]
  | portable => exact decodeInput_portable lawful v written
  | custom codec =>
    have back := decode_encode lawful own reads written
    have other : (Serializer.custom codec).name ≠ PORTABLE := own.2.1
    simp [Sqlite.decodeInput, back, Except.map, other, received, Serializer.isPortable]

end Reading

/-- Every value and every input reads back as it was written, by the process that wrote it and, in a built-in
format, by every other one; what the default format wrote also without the name of the format. -/
theorem stored_values_return {lib : SerdeJson} (lawful : lib.Lawful) {serializer reader : Serializer}
    (own : serializer.Undoes)
    (reads : serializer.ReadBy reader) (v : Value) :
    (serializer.isBuiltin = true → ∃ text, serializer.encode lib v = .ok text) ∧
    (∀ text, serializer.encode lib v = .ok text →
      decode lib reader (some serializer.name) text = .ok v ∧
        (serializer = .json → decode lib reader none text = .ok v ∧ decode lib reader (some "") text = .ok v)) ∧
    ∀ text, Sqlite.encodeInput lib serializer v = .ok text →
      Sqlite.decodeInput lib reader (some serializer.name) text = .ok (received serializer v) ∧
        (serializer = .json → Sqlite.decodeInput lib reader none text = .ok v ∧
          Sqlite.decodeInput lib reader (some "") text = .ok v) := by
  have undoes : serializer = .json → reader.Undoes := by
    rintro rfl
    rcases reads with rfl | ⟨-, undoes⟩
    · exact own
    · exact undoes
  have untagged {format : Option String} (default : format = none ∨ format = some "") {text : String}
      (json : serializer = .json) (written : serializer.encode lib v = .ok text) :
      decode lib reader format text = .ok v := by
    have known : format = none ∨ format = some "" ∨ format = some DBOS_JSON := by
      rcases default with same | same
      · exact .inl same
      · exact .inr (.inl same)
    subst json
    exact decode_encode_json lawful (undoes rfl) known written
  refine ⟨fun builtin => ?_, fun text written => ⟨decode_encode lawful own reads written, fun json => ?_⟩,
    fun text written => ⟨decodeInput_encodeInput lawful own reads written, fun json => ?_⟩⟩
  · cases serializer with
    | json => by_cases null : v.isNull <;> simp [Serializer.encode, null]
    | portable => by_cases null : v.isNull <;> simp [Serializer.encode, null]
    | custom codec => cases builtin
  · exact ⟨untagged (.inl rfl) json written, untagged (.inr rfl) json written⟩
  · have plain : serializer.encode lib v = .ok text := by
      rw [← written, json]
      rfl
    constructor
    · simp [Sqlite.decodeInput, untagged (.inl rfl) json plain, Except.map]
    · have other : "" ≠ PORTABLE := by decide
      simp [Sqlite.decodeInput, untagged (.inr rfl) json plain, Except.map, other]

/-- A codec that writes plain JSON under a name of its own. -/
noncomputable def plainJson : Serializer := .custom
  { name := "plain"
    encode := fun v => .ok (Records.timeoutLibrary.toString v)
    decode := fun text => serdeResult (Records.timeoutLibrary.fromStr text) }

theorem plainJson_undoes : plainJson.Undoes := by
  refine ⟨by decide, by decide, by decide, fun v text written => ?_⟩
  cases written
  dsimp only
  rw [Records.timeoutLibrary_lawful.fromStr_toString]
  rfl

/-- A process with that codec reads a row of the default format whose format is missing. -/
theorem plainJson_reads_default : decode Records.timeoutLibrary plainJson none
    (Records.timeoutLibrary.base64Encode (Records.timeoutLibrary.toString (.bool true))) = .ok (.bool true) :=
  ((stored_values_return Records.timeoutLibrary_lawful (show Serializer.json.Undoes from trivial)
    (.inr ⟨rfl, plainJson_undoes⟩) (.bool true)).2.1 _ rfl).2 rfl |>.1

end Durare

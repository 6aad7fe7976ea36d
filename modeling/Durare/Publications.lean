import Durare.Formats
import Durare.Portability
import Durare.StreamRows

/-! The publications of the two backends side by side: a SQLite database holds what the in-memory provider holds, the
streams as numbered rows. -/
namespace Durare.Publications

open Memory Sqlite Checkpoints

variable (lib : SerdeJson) (serializer : Serializer)

/-- A stored entry and the one it stands for. -/
def Written (record : StreamRecord) : Option Value → Prop
  | some value => record.value ≠ STREAM_CLOSED_SENTINEL ∧
      decode lib serializer record.serialization record.value = .ok value
  | none => record.value = STREAM_CLOSED_SENTINEL

def entryAt (entries : Option (List (Option Value))) (offset : Int) : Option (Option Value) :=
  if 0 ≤ offset then (entries.getD [])[offset.toNat]? else none

/-- The database holds the workflows, steps, events and streams of the in-memory provider. Nothing follows the close
of a stream. -/
structure Mirrors (db : Db) (s : Inner) : Prop where
  workflows : ∀ id, (db.workflowStatus.get id).map (·.executorId.getD "") = (s.workflows.get id).map (·.executorId)
  steps : ∀ key, Option.Rel (SameStep lib serializer) (db.operationOutputs.get key) (s.steps.get key)
  events : ∀ key, Option.Rel (fun stored value => decode lib serializer stored.2 stored.1 = .ok value)
    (db.workflowEvents.get key) (s.events.get key)
  streams : ∀ id key offset, Option.Rel (Written lib serializer) (db.streams.get (id, key, offset))
    (entryAt (s.streams.get (id, key)) offset)
  inOrder : ∀ id key entries, s.streams.get (id, key) = some entries →
    entries ≠ [] ∧ ∃ values shut, entries = Streams.entries values shut

/-- Every value has a text that is read back as it, and none has the text of the close sentinel. -/
structure Apart : Prop where
  stored : ∀ value, ∃ text, Stored lib serializer value text
  open_stream : ∀ value text, serializer.encode lib value = .ok text → text ≠ STREAM_CLOSED_SENTINEL

variable {lib serializer} {db : Db} {s : Inner}

theorem Apart.of_exact (exactly : lib.Exact) (builtin : serializer.isBuiltin = true)
    (base64 : serializer = .json → ∀ text, lib.base64Encode text ≠ STREAM_CLOSED_SENTINEL) : Apart lib serializer where
  stored := Serializer.Lawful.stored exactly.lawful (by
    cases serializer <;> first | exact ⟨trivial, trivial⟩ | cases builtin)
  open_stream value text encoded := by
    cases serializer with
    | portable =>
      simp only [Serializer.encode] at encoded
      split at encoded
      · cases encoded
        decide
      · cases encoded
        exact exactly.open_stream value
    | json =>
      simp only [Serializer.encode] at encoded
      split at encoded
      · cases encoded
        decide
      · cases encoded
        exact base64 rfl _
    | custom codec => cases builtin

theorem Mirrors.corresponds (mirrors : Mirrors lib serializer db s) : Corresponds lib serializer db s :=
  ⟨mirrors.steps, mirrors.workflows⟩

theorem Mirrors.owner (mirrors : Mirrors lib serializer db s) {id : String} (stored : (s.workflows.get id).isSome =
    true) :
    (db.workflowStatus.get id).isNone = false := by
  have rows := congrArg Option.isSome (mirrors.workflows id)
  simp only [Option.isSome_map, stored] at rows
  simp [← Option.not_isSome, rows]

theorem rel_none_left {α β : Type} {R : α → β → Prop} {b : Option β} (rel : Option.Rel R none b) : b = none := by
  cases rel
  rfl

theorem rel_some_right {α β : Type} {R : α → β → Prop} {a : Option α} {b : β} (rel : Option.Rel R a (some b)) :
    ∃ x, a = some x ∧ R x b := by
  cases rel with
  | some related => exact ⟨_, rfl, related⟩

def recordsOf (db : Db) (id key : String) (n : Nat) : List StreamRecord :=
  (List.range n).filterMap fun i => db.streams.get (id, key, (i : Int))

section Stream

variable {id key : String} {entries : List (Option Value)}

theorem recordsOf_take (fits : ∀ offset, Option.Rel (Written lib serializer) (db.streams.get (id, key, offset))
      (entryAt (some entries) offset)) {n : Nat} (bound : n ≤ entries.length) :
    List.Forall₂ (Written lib serializer) (recordsOf db id key n) (entries.take n) ∧
      ∀ i, (recordsOf db id key n)[i]? = if i < n then db.streams.get (id, key, (i : Int)) else none := by
  induction n with
  | zero => simp [recordsOf]
  | succ n ih =>
    obtain ⟨before, lookup⟩ := ih (by omega)
    have here : entries[n]? = some entries[n] := List.getElem?_eq_getElem (by omega)
    obtain ⟨record, found, written⟩ := rel_some_right (by simpa [entryAt, here] using fits (n : Int))
    have last : recordsOf db id key (n + 1) = recordsOf db id key n ++ [record] := by
      simp [recordsOf, List.range_succ, List.filterMap_append, found]
    have length : (recordsOf db id key n).length = n := by
      rw [before.length_eq, List.length_take]
      omega
    refine ⟨?_, ?_⟩
    · rw [last, List.take_succ_eq_append_getElem (by omega)]
      exact List.rel_append before (.cons written .nil)
    · intro i
      rw [last, List.getElem?_append, length]
      by_cases earlier : i < n
      · rw [if_pos earlier, lookup i, if_pos earlier, if_pos (by omega)]
      · rw [if_neg earlier]
        by_cases same : i = n
        · subst same
          simp [found]
        · rw [if_neg (by omega)]
          have positive : i - n ≠ 0 := by omega
          simp [positive]

theorem recordsOf_written (fits : ∀ offset, Option.Rel (Written lib serializer) (db.streams.get (id, key, offset))
      (entryAt (some entries) offset)) :
    List.Forall₂ (Written lib serializer) (recordsOf db id key entries.length) entries := by
  simpa using (recordsOf_take fits (Nat.le_refl _)).1

/-- The rows of a stream are its numbered records. -/
theorem mem_numbered_recordsOf (fits : ∀ offset, Option.Rel (Written lib serializer) (db.streams.get (id, key, offset))
      (entryAt (some entries) offset)) {row : (String × Int) × StreamRecord} :
    row ∈ numbered key (recordsOf db id key entries.length) ↔
      row.1.1 = key ∧ db.streams.get (id, key, row.1.2) = some row.2 := by
  rw [mem_numbered]
  have lookup := (recordsOf_take fits (Nat.le_refl _)).2
  constructor
  · rintro ⟨named, i, offset, stored⟩
    rw [lookup i] at stored
    split at stored
    · exact ⟨named, by rw [offset]; exact stored⟩
    · cases stored
  · rintro ⟨named, stored⟩
    have here := fits row.1.2
    rw [stored] at here
    cases at_offset : entryAt (some entries) row.1.2 with
    | none =>
      rw [at_offset] at here
      cases here
    | some entry =>
      simp only [entryAt, Option.getD_some] at at_offset
      split at at_offset
      next positive =>
        have bound := (List.getElem?_eq_some_iff.mp at_offset).1
        refine ⟨named, row.1.2.toNat, by omega, ?_⟩
        rw [lookup, if_pos bound, Int.toNat_of_nonneg positive, stored]
      · cases at_offset

theorem readRows_written {records : List StreamRecord}
    (written : List.Forall₂ (Written lib serializer) records entries) :
    readRows lib serializer records = .ok (Streams.readEntries entries) := by
  induction written with
  | nil => rfl
  | @cons record entry records entries here _ ih =>
    cases entry with
    | none =>
      have sentinel : record.value = STREAM_CLOSED_SENTINEL := here
      simp [readRows, sentinel, Streams.readEntries]
    | some value =>
      obtain ⟨apart, reads⟩ := here
      simp [readRows, apart, reads, ih, Except.map, Streams.readEntries]

theorem closed_written {records : List StreamRecord} (written : List.Forall₂ (Written lib serializer) records entries) :
    (records.any fun record => record.value == STREAM_CLOSED_SENTINEL) = closed entries := by
  induction written with
  | nil => rfl
  | @cons record entry records entries here _ ih =>
    cases entry with
    | none =>
      have sentinel : record.value = STREAM_CLOSED_SENTINEL := here
      simp [sentinel, closed]
    | some value =>
      simp only [closed] at ih
      simp [here.1, closed, ih]

end Stream

abbrev entriesOf (s : Inner) (id key : String) : List (Option Value) := (s.streams.get (id, key)).getD []

abbrev recordsFor (db : Db) (s : Inner) (id key : String) : List StreamRecord :=
  recordsOf db id key (entriesOf s id key).length

section Rows

variable (mirrors : Mirrors lib serializer db s) (id key : String)
include mirrors

theorem Mirrors.written : List.Forall₂ (Written lib serializer) (recordsFor db s id key) (entriesOf s id key) :=
  recordsOf_written fun offset => mirrors.streams id key offset

theorem Mirrors.mem_rows {row : (String × Int) × StreamRecord} :
    row ∈ numbered key (recordsFor db s id key) ↔ row.1.1 = key ∧ db.streams.get (id, key, row.1.2) = some row.2 :=
  mem_numbered_recordsOf fun offset => mirrors.streams id key offset

theorem Mirrors.entryRows_eq : entryRows id key db = numbered key (recordsFor db s id key) := by
  have sorted : (entryRows id key db).Pairwise fun x y => toLex x.1 < toLex y.1 :=
    (db.streams.listing_sorted id (fun key => toLex key) toLex.injective).sublist List.filter_sublist
  refine eq_of_sorted (fun k => toLex k) sorted (numbered_sorted key _) ?_
  rintro ⟨⟨key', offset⟩, record⟩
  rw [mirrors.mem_rows, entryRows, List.mem_filter, Sqlite.streamRows, Table.mem_listing, beq_iff_eq]
  constructor
  · rintro ⟨stored, rfl⟩
    exact ⟨rfl, stored⟩
  · rintro ⟨rfl, stored⟩
    exact ⟨stored, rfl⟩

theorem Mirrors.closed : ((entryRows id key db).any fun row => row.2.value == STREAM_CLOSED_SENTINEL) =
    closed (entriesOf s id key) := by
  rw [← closed_written (mirrors.written id key), mirrors.entryRows_eq, numbered, List.any_map]
  have records : recordsFor db s id key = (recordsFor db s id key).zipIdx.map (·.1) := by
    exact (List.zipIdx_map_fst 0 _).symm
  conv => rhs; rw [records, List.any_map]
  rfl

theorem Mirrors.nextOffset : nextOffset id key db = (entriesOf s id key).length := by
  rw [Sqlite.nextOffset, mirrors.entryRows_eq, numbered_next, (mirrors.written id key).length_eq]

theorem Mirrors.readStream (fromOffset : Int) :
    (Sqlite.readStream lib serializer id key fromOffset db).1 = (Streams.readStream id key fromOffset s).1 := by
  rw [Sqlite.readStream, mirrors.entryRows_eq, numbered_from]
  exact readRows_written (List.forall₂_drop _ (mirrors.written id key))

end Rows

/-- The rows of one stream open a group, and its values come into it. -/
theorem groupRow_stream {key : String} {values : List Value} {shut : Bool} {records : List StreamRecord} {start : Nat}
    (out : List (String × List Value)) (seen : List Value)
    (written : List.Forall₂ (Written lib serializer) records (Streams.entries values shut)) :
    ((records.zipIdx start).map fun record => ((key, (record.2 : Int)), record.1)).foldlM (groupRow lib serializer)
      (out ++ [(key, seen)]) = .ok (out ++ [(key, seen ++ values)]) := by
  induction values generalizing records start seen with
  | nil =>
    cases shut with
    | false =>
      cases written
      simp [pure, Except.pure]
    | true =>
      cases written with
      | @cons record _ records _ here rest =>
        cases rest
        have sentinel : record.value = STREAM_CLOSED_SENTINEL := here
        simp [groupRow, sentinel, pure, Except.pure, bind, Except.bind]
  | cons value values ih =>
    cases written with
    | @cons record _ records _ here rest =>
      obtain ⟨apart, reads⟩ := here
      rw [List.zipIdx_cons, List.map_cons, List.foldlM_cons]
      have one : groupRow lib serializer (out ++ [(key, seen)]) ((key, (start : Int)), record) =
          .ok (out ++ [(key, seen ++ [value])]) := by
        simp [groupRow, apart, reads, Except.map]
      rw [one]
      refine (ih (seen ++ [value]) rest).trans ?_
      rw [List.append_assoc, List.singleton_append]

/-- The first row of a stream opens its group. -/
theorem groupRow_block {key : String} {values : List Value} {shut : Bool} {records : List StreamRecord}
    (out : List (String × List Value)) (other : ∀ group ∈ out.getLast?, group.1 ≠ key)
    (some_entry : Streams.entries values shut ≠ [])
    (written : List.Forall₂ (Written lib serializer) records (Streams.entries values shut)) :
    (numbered key records).foldlM (groupRow lib serializer) out = .ok (out ++ [(key, values)]) := by
  have apart : (out.getLast?.any fun group => group.1 == key) = false := by
    rw [Option.any_eq_false]
    intro group last
    simpa using other group last
  cases values with
  | nil =>
    cases shut with
    | false => exact absurd rfl some_entry
    | true =>
      cases written with
      | @cons record _ records _ here rest =>
        cases rest
        have sentinel : record.value = STREAM_CLOSED_SENTINEL := here
        simp [numbered, groupRow, sentinel, apart, pure, Except.pure, bind, Except.bind]
  | cons value values =>
    cases written with
    | @cons record _ records _ here rest =>
      obtain ⟨differs, reads⟩ := here
      rw [numbered, List.zipIdx_cons, List.map_cons, List.foldlM_cons]
      have one : groupRow lib serializer out ((key, ((0 : Nat) : Int)), record) = .ok (out ++ [(key, [value])]) := by
        cases last : out.getLast? with
        | none => simp [groupRow, differs, reads, last, Except.map]
        | some group =>
          have named := other group (by simp [last])
          obtain ⟨key', values'⟩ := group
          simp [groupRow, differs, reads, last, Except.map, named]
      rw [one]
      exact groupRow_stream out [value] rest

/-- What stands before the close. -/
theorem values_entries (values : List Value) (shut : Bool) :
    ((Streams.entries values shut).takeWhile (·.isSome)).filterMap (fun entry => entry) = values := by
  induction values with
  | nil => cases shut <;> rfl
  | cons value values ih =>
    simp only [Streams.entries, List.map_cons, List.cons_append] at ih ⊢
    rw [List.takeWhile_cons_of_pos rfl, List.filterMap_cons, ih]

theorem Mirrors.streamRows_eq (mirrors : Mirrors lib serializer db s) (id : String) :
    Sqlite.streamRows id db =
      (s.streams.listing id fun key => key).flatMap fun row => numbered row.1 (recordsFor db s id row.1) := by
  have keys := s.streams.listing_sorted id (fun key => key) fun _ _ same => same
  refine eq_of_sorted (fun k => toLex k) (db.streams.listing_sorted id (fun key => toLex key) toLex.injective)
    ?_ ?_
  · rw [List.pairwise_flatMap]
    refine ⟨fun row _ => numbered_sorted row.1 _, keys.imp ?_⟩
    intro row later less x first y second
    rw [Prod.Lex.toLex_lt_toLex, (mem_numbered.mp first).1, (mem_numbered.mp second).1]
    exact .inl less
  · rintro ⟨⟨key, offset⟩, record⟩
    rw [Sqlite.streamRows, Table.mem_listing, List.mem_flatMap]
    constructor
    · intro stored
      have here := mirrors.streams id key offset
      rw [stored] at here
      cases held : s.streams.get (id, key) with
      | none =>
        rw [held] at here
        simp [entryAt] at here
      | some entries =>
        exact ⟨(key, entries), (Table.mem_listing _ _ _ _ _).mpr held, (mirrors.mem_rows id key).mpr ⟨rfl, stored⟩⟩
    · rintro ⟨row, -, member⟩
      obtain ⟨named, stored⟩ := (mirrors.mem_rows id row.1).mp member
      rw [← named] at stored
      exact stored

theorem Mirrors.fold_groups (mirrors : Mirrors lib serializer db s) (id : String)
    {rows : List (String × List (Option Value))} (out : List (String × List Value))
    (held : ∀ row ∈ rows, s.streams.get (id, row.1) = some row.2) (ordered : rows.Pairwise fun x y => x.1 < y.1)
    (other : ∀ group ∈ out.getLast?, ∀ row ∈ rows, group.1 ≠ row.1) :
    (rows.flatMap fun row => numbered row.1 (recordsFor db s id row.1)).foldlM (groupRow lib serializer) out =
      .ok (out ++ rows.map fun row => (row.1, (row.2.takeWhile (·.isSome)).filterMap fun entry => entry)) := by
  induction rows generalizing out with
  | nil => simp [pure, Except.pure]
  | cons row rows ih =>
    obtain ⟨key, entries⟩ := row
    obtain ⟨before, rest⟩ := List.pairwise_cons.mp ordered
    have here := held (key, entries) List.mem_cons_self
    obtain ⟨filled, values, shut, formed⟩ := mirrors.inOrder id key entries here
    have written := mirrors.written id key
    have same : entriesOf s id key = Streams.entries values shut := by rw [entriesOf, here, Option.getD_some, formed]
    rw [same] at written
    have block := groupRow_block out (fun group last => other group last (key, entries) List.mem_cons_self)
      (formed ▸ filled) written
    rw [List.flatMap_cons, List.foldlM_append, block]
    refine (ih (out ++ [(key, values)]) (fun row member => held row (List.mem_cons_of_mem _ member)) rest ?_).trans ?_
    · intro group last row member
      rw [List.getLast?_concat, Option.mem_some_iff] at last
      subst last
      exact ne_of_lt (before row member)
    · rw [formed, List.map_cons, values_entries, List.append_assoc, List.singleton_append]

theorem Mirrors.listWorkflowStreams (mirrors : Mirrors lib serializer db s) (id : String) :
    (Sqlite.listWorkflowStreams lib serializer id db).1 = (Memory.listWorkflowStreams id s).1 := by
  rw [Sqlite.listWorkflowStreams, mirrors.streamRows_eq, mirrors.fold_groups id []]
  · rfl
  · exact fun row member => (Table.mem_listing _ _ _ _ _).mp member
  · exact s.streams.listing_sorted id (fun key => key) fun _ _ same => same
  · intro group last
    cases last

theorem Mirrors.getEventValue (mirrors : Mirrors lib serializer db s) (id key : String) :
    (Sqlite.getEventValue lib serializer id key db).1 = (Memory.getEventValue id key s).1 := by
  have here := mirrors.events (id, key)
  unfold Sqlite.getEventValue Memory.getEventValue
  cases stored : db.workflowEvents.get (id, key) with
  | none =>
    rw [stored] at here
    rw [rel_none_left here]
  | some row =>
    rw [stored] at here
    cases held : s.events.get (id, key) with
    | none =>
      rw [held] at here
      cases here
    | some value =>
      rw [held] at here
      cases here with
      | some reads => simp [reads, Except.map]

theorem mapM_ok {α β ε : Type} {f : α → Except ε β} {g : α → β} {xs : List α} (each : ∀ x ∈ xs, f x = .ok (g x)) :
    xs.mapM f = .ok (xs.map g) := by
  induction xs with
  | nil => rfl
  | cons x xs ih =>
    rw [List.mapM_cons, each x List.mem_cons_self, ih fun y member => each y (List.mem_cons_of_mem _ member)]
    rfl

theorem Mirrors.listWorkflowEvents (mirrors : Mirrors lib serializer db s) (id : String) :
    (Sqlite.listWorkflowEvents lib serializer id db).1 = (Memory.listWorkflowEvents id s).1 := by
  have rows : ∀ key, s.events.get (id, key) = (db.workflowEvents.get (id, key)).map
      fun stored => (decode lib serializer stored.2 stored.1).toOption.getD .null := by
    intro key
    have here := mirrors.events (id, key)
    cases stored : db.workflowEvents.get (id, key) with
    | none =>
      rw [stored] at here
      exact rel_none_left here
    | some row =>
      rw [stored] at here
      cases held : s.events.get (id, key) with
      | none =>
        rw [held] at here
        cases here
      | some value =>
        rw [held] at here
        cases here with
        | some reads => simp [reads, Except.toOption]
  have listed := db.workflowEvents.listing_map id (fun key => key) (fun _ _ same => same)
    (fun _ stored => (decode lib serializer stored.2 stored.1).toOption.getD .null) rows
  rw [Sqlite.listWorkflowEvents, Memory.listWorkflowEvents, listed]
  refine mapM_ok ?_
  rintro ⟨key, text, format⟩ member
  have here := mirrors.events (id, key)
  rw [(Table.mem_listing _ _ _ _ _).mp member] at here
  cases held : s.events.get (id, key) with
  | none =>
    rw [held] at here
    cases here
  | some value =>
    rw [held] at here
    cases here with
    | some reads =>
      have decoded : decode lib serializer format text = .ok value := reads
      simp [decoded, Except.map, Except.toOption]

theorem Mirrors.upsertEvent (mirrors : Mirrors lib serializer db s) (apart : Apart lib serializer) {id : String}
    (key : String) (value : Value) (owner : (s.workflows.get id).isSome = true) :
    (Sqlite.upsertEvent lib serializer id key value db).1 = (Memory.upsertEvent id key value s).1 ∧
      Mirrors lib serializer (Sqlite.upsertEvent lib serializer id key value db).2
        (Memory.upsertEvent id key value s).2 := by
  obtain ⟨text, encoded, reads⟩ := apart.stored value
  have sql : Sqlite.upsertEvent lib serializer id key value db =
      (.ok (), { db with workflowEvents := db.workflowEvents.put (id, key) (text, some serializer.name) }) := by
    simp [Sqlite.upsertEvent, encoded, mirrors.owner owner]
  rw [sql]
  refine ⟨rfl, mirrors.workflows, mirrors.steps, ?_, mirrors.streams, mirrors.inOrder⟩
  intro key'
  simp only [Memory.upsertEvent, Table.get_put]
  split
  · exact .some reads
  · exact mirrors.events key'

theorem entryAt_append (entries : List (Option Value)) (entry : Option Value) (offset : Int) :
    entryAt (some (entries ++ [entry])) offset =
      if offset = entries.length then some entry else entryAt (some entries) offset := by
  unfold entryAt
  by_cases last : offset = entries.length
  · subst last
    simp
  · rw [if_neg last]
    by_cases positive : 0 ≤ offset
    · have other : offset.toNat ≠ entries.length := by omega
      simp only [if_pos positive, Option.getD_some, List.getElem?_append]
      by_cases inside : offset.toNat < entries.length
      · rw [if_pos inside]
      · have before : entries[offset.toNat]? = none := List.getElem?_eq_none (by omega)
        have after : [entry][offset.toNat - entries.length]? = none :=
          List.getElem?_eq_none (by rw [List.length_singleton]; omega)
        rw [if_neg inside, before, after]
    · rw [if_neg positive, if_neg positive]

/-- The record a write stores stands for the entry. -/
theorem streamText_written (apart : Apart lib serializer) (value : Option Value) :
    ∃ stored format, streamText lib serializer value = .ok (stored, format) ∧
      ∀ functionId, Written lib serializer { value := stored, functionId := functionId, serialization :=
        format } value := by
  cases value with
  | none => exact ⟨_, _, rfl, fun _ => rfl⟩
  | some v =>
    obtain ⟨text, encoded, reads⟩ := apart.stored v
    exact ⟨text, some serializer.name, by simp [streamText, encoded, Except.map],
      fun _ => ⟨apart.open_stream v text encoded, reads⟩⟩

theorem Mirrors.writeStreamOn (mirrors : Mirrors lib serializer db s) (apart : Apart lib serializer) {id : String}
    (key : String) (value : Option Value) (functionId : Int) (owner : (s.workflows.get id).isSome = true) :
    ((Sqlite.writeStreamOn lib serializer id key value functionId db).1 = (appendStream id key value s).1 ∧
      Mirrors lib serializer (Sqlite.writeStreamOn lib serializer id key value functionId db).2
        (appendStream id key value s).2) := by
  obtain ⟨stored, format, encoded, written⟩ := streamText_written apart value
  have shut := mirrors.closed id key
  by_cases closes : Memory.closed (entriesOf s id key) = true
  · rw [closes] at shut
    simp only [Sqlite.writeStreamOn, encoded, shut, if_true, appendStream]
    rw [if_pos closes]
    exact ⟨rfl, mirrors⟩
  · rw [Bool.not_eq_true] at closes
    rw [closes] at shut
    have sql : Sqlite.writeStreamOn lib serializer id key value functionId db = (.ok (), { db with
        streams := db.streams.put (id, key, ((entriesOf s id key).length : Int))
          { value := stored, functionId := functionId, serialization := format } }) := by
      simp [Sqlite.writeStreamOn, encoded, shut, mirrors.owner owner, mirrors.nextOffset id key]
    have memory : appendStream id key value s =
        (.ok (), { s with streams := s.streams.put (id, key) (entriesOf s id key ++ [value]) }) := by
      unfold appendStream
      rw [if_neg (by rw [closes]; simp)]
    rw [sql, memory]
    refine ⟨rfl, mirrors.workflows, mirrors.steps, mirrors.events, ?_, ?_⟩
    · intro id' key' offset
      have before := mirrors.streams id' key' offset
      simp only [Table.get_put, Prod.mk.injEq]
      by_cases same : id' = id ∧ key' = key
      · obtain ⟨rfl, rfl⟩ := same
        simp only [true_and, and_self, if_true, entryAt_append]
        split
        · exact .some (written functionId)
        · exact before
      · have other : ¬ (id' = id ∧ key' = key ∧ offset = ((entriesOf s id key).length : Int)) := by
          rintro ⟨rfl, rfl, -⟩
          exact same ⟨rfl, rfl⟩
        rw [if_neg other, if_neg same]
        exact before
    · intro id' key' entries found
      simp only [Table.get_put, Prod.mk.injEq] at found
      by_cases same : id' = id ∧ key' = key
      · rw [if_pos same, Option.some_inj] at found
        subst found
        refine ⟨by simp, ?_⟩
        have formed : ∃ values, entriesOf s id key = Streams.entries values false := by
          cases held : s.streams.get (id, key) with
          | none => exact ⟨[], by simp [entriesOf, held, Streams.entries]⟩
          | some entries =>
            obtain ⟨-, values, ended, formed⟩ := mirrors.inOrder id key entries held
            rw [entriesOf, held, Option.getD_some] at closes
            rw [formed, Streams.closed_entries] at closes
            exact ⟨values, by rw [entriesOf, held, Option.getD_some, formed, closes]⟩
        obtain ⟨values, formed⟩ := formed
        cases value with
        | none => exact ⟨values, true, by simp [formed, Streams.entries]⟩
        | some v => exact ⟨values ++ [v], false, by simp [formed, Streams.entries]⟩
      · rw [if_neg same] at found
        exact mirrors.inOrder id' key' entries found

variable (serializer) in
def outputRecord (now : DateTime) (name output : String) : StepRecord where
  functionName := name
  output := some output
  serialization := some serializer.name
  completedAtMs := some now.timestampMillis

theorem Mirrors.checkpoint (mirrors : Mirrors lib serializer db s) (now : DateTime) (id : String) (seq : Int)
    (name : String) {value : Value} {output : String} (stored : Stored lib serializer value output) :
    Mirrors lib serializer
      { db with operationOutputs := db.operationOutputs.put (id, seq) (outputRecord serializer now name output) }
      (Memory.checkpoint now id seq name value s) := by
  refine ⟨mirrors.workflows, ?_, mirrors.events, mirrors.streams, mirrors.inOrder⟩
  intro key
  simp only [Memory.checkpoint, putStep_steps, Table.get_put]
  split
  · exact .some ⟨rfl, .some stored, rfl, rfl, rfl, rfl, fun _ => rfl⟩
  · exact mirrors.steps key

/-- A position that is taken in memory is taken in the database. -/
theorem Mirrors.checkpointOn_taken (mirrors : Mirrors lib serializer db s) (now : DateTime) {id : String} {seq : Int}
    {row : StepRow} (held : s.steps.get (id, seq) = some row) (name output : String) (format : Option String) :
    checkpointOn now id seq name output format db = (.ok false, db) := by
  have here := mirrors.steps (id, seq)
  rw [held] at here
  obtain ⟨record, found, -⟩ := rel_some_right here
  simp [checkpointOn, found]

theorem Mirrors.vacant (mirrors : Mirrors lib serializer db s) {key : String × Int} (free : s.steps.get key = none) :
    db.operationOutputs.get key = none := by
  have here := mirrors.steps key
  rw [free] at here
  cases kept : db.operationOutputs.get key with
  | none => rfl
  | some record =>
    rw [kept] at here
    cases here

theorem Mirrors.checkpointOn_free (mirrors : Mirrors lib serializer db s) (now : DateTime) {id : String} {seq : Int}
    (free : s.steps.get (id, seq) = none) (owner : (s.workflows.get id).isSome = true) (name output : String) :
    checkpointOn now id seq name output (some serializer.name) db = (.ok true,
      { db with operationOutputs := db.operationOutputs.put (id, seq) (outputRecord serializer now name output) }) := by
  simp [checkpointOn, mirrors.vacant free, mirrors.owner owner, outputRecord]

/-- A position that a write finds taken by its own name holds no failure. -/
def Unfailed (id : String) (seq : Int) (name : String) (s : Inner) : Prop :=
  ∀ row, s.steps.get (id, seq) = some row → row.name = name → row.error = none

/-- A recorded step is served or diverges, as in memory. -/
theorem Mirrors.served (mirrors : Mirrors lib serializer db s) {id : String} {seq : Int} {name : String}
    {row : StepRow}
    (held : s.steps.get (id, seq) = some row) (unfailed : row.name = name → row.error = none) :
    recordedOutputOn lib serializer id seq name db =
      if row.name ≠ name then .error (.unexpectedStep id seq name row.name)
      else .ok (some (row.output.getD .null)) := by
  have here := mirrors.steps (id, seq)
  rw [held] at here
  obtain ⟨record, found, same⟩ := rel_some_right here
  unfold recordedOutputOn
  rw [found]
  by_cases named : row.name = name
  · have clean : record.error = none := same.error.trans (unfailed named)
    have shown := same.output
    simp only [same.name, named, ne_eq, not_true_eq_false, if_false, stepOutcomeFrom, clean]
    cases text : record.output with
    | none =>
      rw [text] at shown
      cases kept : row.output with
      | none => rfl
      | some value =>
        rw [kept] at shown
        cases shown
    | some text' =>
      rw [text] at shown
      cases kept : row.output with
      | none =>
        rw [kept] at shown
        cases shown
      | some value =>
        rw [kept] at shown
        cases shown with
        | some both =>
          rw [same.format (.inl (by simp [text]))]
          simp [both.2, Except.map, StepOutcome.intoValueResult]
  · simp [same.name, named]

theorem Mirrors.recorded (mirrors : Mirrors lib serializer db s) {id : String} {seq : Int} {name : String}
    {row : StepRow}
    (held : s.steps.get (id, seq) = some row) (unfailed : row.name = name → row.error = none) :
    (recordedOutputOn lib serializer id seq name db).map (fun _ => ()) =
      if row.name ≠ name then .error (.unexpectedStep id seq name row.name) else .ok () := by
  rw [mirrors.served held unfailed]
  split <;> rfl

/-- In memory the entry is appended before the checkpoint, in the transaction after it. -/
theorem appendStream_checkpoint (now : DateTime) (id id' key : String) (seq : Int) (name : String) (output : Value)
    (value : Option Value) (s : Inner) :
    appendStream id key value (Memory.checkpoint now id' seq name output s) =
      ((appendStream id key value s).1, Memory.checkpoint now id' seq name output (appendStream id key value s).2) := by
  by_cases closes : Memory.closed ((s.streams.get (id, key)).getD []) = true
  · simp [appendStream, Memory.checkpoint, Inner.putStep, closes]
  · simp [appendStream, Memory.checkpoint, Inner.putStep, closes]

theorem appendStream_refused {id key : String} {value : Option Value} {s s' : Inner} {e : Error}
    (refused : appendStream id key value s = (.error e, s')) : s' = s := by
  by_cases closes : Memory.closed ((s.streams.get (id, key)).getD []) = true
  · simp only [appendStream, closes, if_true, Prod.mk.injEq] at refused
    exact refused.2.symm
  · simp [appendStream, closes] at refused

theorem Mirrors.writeStreamFromWorkflow (mirrors : Mirrors lib serializer db s) (apart : Apart lib serializer)
    (now : DateTime) {id : String} {seq : Int} {name : String} (key : String) (value : Option Value)
    (owner : (s.workflows.get id).isSome = true) (unfailed : Unfailed id seq name s) :
    (Sqlite.writeStreamFromWorkflow lib serializer now id seq name key value db).1 =
        (Memory.writeStreamFromWorkflow now id seq name key value s).1 ∧
      Mirrors lib serializer (Sqlite.writeStreamFromWorkflow lib serializer now id seq name key value db).2
        (Memory.writeStreamFromWorkflow now id seq name key value s).2 := by
  obtain ⟨output, stored⟩ := apart.stored .null
  unfold Sqlite.writeStreamFromWorkflow Memory.writeStreamFromWorkflow recordedAt
  cases held : s.steps.get (id, seq) with
  | some row =>
    have taken := mirrors.checkpointOn_taken now held name output (some serializer.name)
    have served := mirrors.recorded held (unfailed row held)
    simp only [stored.1, taken, served]
    by_cases named : row.name = name
    · simp [named, mirrors]
    · simp [named, mirrors]
  | none =>
    have marked := mirrors.checkpoint now id seq name stored
    have wrote := mirrors.checkpointOn_free now held owner name output
    obtain ⟨answers, states⟩ := marked.writeStreamOn apart key value seq owner
    rw [appendStream_checkpoint] at answers states
    simp only [stored.1, wrote]
    generalize Sqlite.writeStreamOn lib serializer id key value seq _ = sql at answers states
    obtain ⟨answer, written⟩ := sql
    generalize memory : appendStream id key value s = appended at answers states
    obtain ⟨_ | _, after⟩ := appended
    · cases answers
      have unchanged : after = s := appendStream_refused memory
      subst unchanged
      exact ⟨rfl, mirrors⟩
    · cases answers
      exact ⟨rfl, states⟩

inductive Call where
  | writeStream (id key : String) (value : Option Value) (functionId : Int)
  | writeStreamFromWorkflow (now : DateTime) (id : String) (seq : Int) (name key : String) (value : Option Value)
  | readStream (id key : String) (fromOffset : Int)
  | listWorkflowStreams (id : String)
  | upsertEvent (id key : String) (value : Value)
  | getEventValue (id key : String)
  | listWorkflowEvents (id : String)
  | recordStepResult (attempt : Attempt) (id : String) (seq : Int)

inductive Reply where
  | done
  | outcome (outcome : StepOutcome)
  | entries (values : List Value) (closed : Bool)
  | streams (streams : List (String × List Value))
  | event (value : Option Value)
  | events (events : List (String × Value))
deriving DecidableEq, Repr

def answered {α σ : Type} (reply : α → Reply) (answer : Except Error α × σ) : Except Error Reply × σ :=
  (answer.1.map reply, answer.2)

def Call.memory (lib : SerdeJson) (s : Inner) : Call → Except Error Reply × Inner
  | .writeStream id key value _ => answered (fun _ => .done) (Memory.writeStream id key value s)
  | .writeStreamFromWorkflow now id seq name key value =>
    answered (fun _ => .done) (Memory.writeStreamFromWorkflow now id seq name key value s)
  | .readStream id key fromOffset =>
    answered (fun (values, closed) => .entries values closed) (Streams.readStream id key fromOffset s)
  | .listWorkflowStreams id => answered .streams (Memory.listWorkflowStreams id s)
  | .upsertEvent id key value => answered (fun _ => .done) (Memory.upsertEvent id key value s)
  | .getEventValue id key => answered .event (Memory.getEventValue id key s)
  | .listWorkflowEvents id => answered .events (Memory.listWorkflowEvents id s)
  | .recordStepResult attempt id seq => answered .outcome (attempt.record lib id seq s)

def Call.sqlite (lib : SerdeJson) (serializer : Serializer) (db : Db) : Call → Except Error Reply × Db
  | .writeStream id key value functionId =>
    answered (fun _ => .done) (Sqlite.writeStream lib serializer id key value functionId db)
  | .writeStreamFromWorkflow now id seq name key value =>
    answered (fun _ => .done) (Sqlite.writeStreamFromWorkflow lib serializer now id seq name key value db)
  | .readStream id key fromOffset =>
    answered (fun (values, closed) => .entries values closed) (Sqlite.readStream lib serializer id key fromOffset db)
  | .listWorkflowStreams id => answered .streams (Sqlite.listWorkflowStreams lib serializer id db)
  | .upsertEvent id key value => answered (fun _ => .done) (Sqlite.upsertEvent lib serializer id key value db)
  | .getEventValue id key => answered .event (Sqlite.getEventValue lib serializer id key db)
  | .listWorkflowEvents id => answered .events (Sqlite.listWorkflowEvents lib serializer id db)
  | .recordStepResult attempt id seq => answered .outcome (attempt.recordSql lib id seq serializer db)

/-- What a call relies on: a writer is a stored workflow, and what it records can be compared. -/
def Call.Proper (lib : SerdeJson) (serializer : Serializer) (s : Inner) : Call → Prop
  | .writeStream id _ _ _ => (s.workflows.get id).isSome = true
  | .writeStreamFromWorkflow _ id seq name _ _ => (s.workflows.get id).isSome = true ∧ Unfailed id seq name s
  | .upsertEvent id _ _ => (s.workflows.get id).isSome = true
  | .recordStepResult attempt id seq => Comparable lib serializer attempt id seq s
  | _ => True

variable (lib) in
theorem record_unpublished (attempt : Attempt) (id : String) (seq : Int) (s : Inner) :
    (attempt.record lib id seq s).2.events = s.events ∧ (attempt.record lib id seq s).2.streams = s.streams := by
  have refreshed (s : Inner) : (Memory.refreshExecutor id attempt.executor s).events = s.events ∧
      (Memory.refreshExecutor id attempt.executor s).streams = s.streams := by
    cases attempt.executor <;> exact ⟨rfl, rfl⟩
  obtain ⟨-, answer⟩ | ⟨row, -, cases⟩ := record_cases lib attempt id seq s
  · rw [answer]
    exact refreshed _
  · obtain ⟨-, answer⟩ | ⟨-, -, answer⟩ | ⟨-, -, answer⟩ := cases <;> rw [answer] <;> exact ⟨rfl, rfl⟩

variable (lib serializer) in
theorem recordSql_unpublished (attempt : Attempt) (id : String) (seq : Int) (db : Db) :
    (attempt.recordSql lib id seq serializer db).2.workflowEvents = db.workflowEvents ∧
      (attempt.recordSql lib id seq serializer db).2.streams = db.streams := by
  have refreshed (db : Db) : (Sqlite.refreshExecutor id attempt.executor db).workflowEvents = db.workflowEvents ∧
      (Sqlite.refreshExecutor id attempt.executor db).streams = db.streams := by
    cases attempt.executor <;> exact ⟨rfl, rfl⟩
  unfold Attempt.recordSql Sqlite.recordStepResult
  split
  · exact ⟨rfl, rfl⟩
  · split
    · split
      · exact ⟨rfl, rfl⟩
      · exact refreshed _
    · split_ifs <;> exact ⟨rfl, rfl⟩

theorem Mirrors.recordStepResult (mirrors : Mirrors lib serializer db s) {attempt : Attempt} {id : String} {seq : Int}
    (comparable : Comparable lib serializer attempt id seq s) :
    (attempt.recordSql lib id seq serializer db).1 = (attempt.record lib id seq s).1 ∧
      Mirrors lib serializer (attempt.recordSql lib id seq serializer db).2 (attempt.record lib id seq s).2 := by
  obtain ⟨answers, after⟩ := record_sqlite lib mirrors.corresponds comparable
  obtain ⟨events, streams⟩ := record_unpublished lib attempt id seq s
  obtain ⟨rows, entries⟩ := recordSql_unpublished lib serializer attempt id seq db
  refine ⟨answers, after.rows, after.steps, ?_, ?_, ?_⟩
  · rw [events, rows]
    exact mirrors.events
  · rw [streams, entries]
    exact mirrors.streams
  · rw [streams]
    exact mirrors.inOrder

/-- A call is answered alike, and keeps the two sides together. -/
theorem Mirrors.call (mirrors : Mirrors lib serializer db s) (apart : Apart lib serializer) {call : Call}
    (proper : call.Proper lib serializer s) :
    (call.sqlite lib serializer db).1 = (call.memory lib s).1 ∧
      Mirrors lib serializer (call.sqlite lib serializer db).2 (call.memory lib s).2 := by
  cases call with
  | writeStream id key value functionId =>
    obtain ⟨answers, after⟩ := mirrors.writeStreamOn apart key value functionId proper
    exact ⟨congrArg (Except.map _) answers, after⟩
  | writeStreamFromWorkflow now id seq name key value =>
    obtain ⟨answers, after⟩ := mirrors.writeStreamFromWorkflow apart now key value proper.1 proper.2
    exact ⟨congrArg (Except.map _) answers, after⟩
  | readStream id key fromOffset =>
    exact ⟨congrArg (Except.map _) (mirrors.readStream id key fromOffset), mirrors⟩
  | listWorkflowStreams id => exact ⟨congrArg (Except.map _) (mirrors.listWorkflowStreams id), mirrors⟩
  | upsertEvent id key value =>
    obtain ⟨answers, after⟩ := mirrors.upsertEvent apart key value proper
    exact ⟨congrArg (Except.map _) answers, after⟩
  | getEventValue id key => exact ⟨congrArg (Except.map _) (mirrors.getEventValue id key), mirrors⟩
  | listWorkflowEvents id => exact ⟨congrArg (Except.map _) (mirrors.listWorkflowEvents id), mirrors⟩
  | recordStepResult attempt id seq =>
    obtain ⟨answers, after⟩ := mirrors.recordStepResult proper
    exact ⟨congrArg (Except.map _) answers, after⟩

def replies {σ : Type} (answer : σ → Call → Except Error Reply × σ) : List Call → σ → List (Except Error Reply)
  | [], _ => []
  | call :: calls, s => (answer s call).1 :: replies answer calls (answer s call).2

/-- However the calls are mixed, SQLite gives the answers of the in-memory provider and holds what it holds. -/
theorem sqlite_publishes (apart : Apart lib serializer) {calls : List Call} (mirrors : Mirrors lib serializer db s)
    (proper : Runs.Along (fun s call => (Call.memory lib s call).2) (Call.Proper lib serializer) calls s) :
    replies (Call.sqlite lib serializer) calls db = replies (Call.memory lib) calls s ∧
      Mirrors lib serializer (Runs.run (fun db call => (Call.sqlite lib serializer db call).2) calls db)
        (Runs.run (fun s call => (Call.memory lib s call).2) calls s) := by
  induction calls generalizing db s with
  | nil => exact ⟨rfl, mirrors⟩
  | cons call calls ih =>
    obtain ⟨answers, after⟩ := mirrors.call apart proper.1
    obtain ⟨rest, ended⟩ := ih after proper.2
    exact ⟨congrArg₂ List.cons answers rest, ended⟩

theorem started_mirrors (lib : SerdeJson) (serializer : Serializer) : Mirrors lib serializer startedDb started where
  workflows := (started_corresponds lib serializer).rows
  steps := (started_corresponds lib serializer).steps
  events _ := .none
  streams id key offset := by
    have empty : entryAt (started.streams.get (id, key)) offset = none := by
      unfold entryAt
      split <;> rfl
    rw [empty]
    exact .none
  inOrder _ _ _ found := by cases found

def published : List Call :=
  [.writeStream "w" "out" (some (.bool true)) 0, .writeStreamFromWorkflow 1 "w" 0 "DBOS.writeStream" "out" (some .null),
    .writeStreamFromWorkflow 2 "w" 0 "DBOS.writeStream" "out" (some .null), .upsertEvent "w" "phase" (.string "paid"),
    .recordStepResult (charge 3 (.bool true)) "w" 1, .writeStreamFromWorkflow 4 "w" 2 "DBOS.closeStream" "out" none,
    .writeStreamFromWorkflow 5 "w" 3 "DBOS.writeStream" "out" (some .null), .writeStream "w" "log" (some .null) 0,
    .readStream "w" "out" 1, .listWorkflowStreams "w", .listWorkflowEvents "w", .getEventValue "w" "other"]

/-- A replayed write, and one after the close. -/
theorem sqlite_publishes_portable :
    replies (Call.sqlite Records.timeoutLibrary .portable) published startedDb =
      [.ok .done, .ok .done, .ok .done, .ok .done, .ok (.outcome (.output (.bool true))), .ok .done,
        .error (.ofMessage "stream `out` is already closed"), .ok .done, .ok (.entries [.null] true),
        .ok (.streams [("log", [.null]), ("out", [.bool true, .null])]), .ok (.events [("phase", .string "paid")]),
        .ok (.event none)] := by
  have apart : Apart Records.timeoutLibrary .portable :=
    .of_exact Memory.timeoutLibrary_exact rfl fun other => by cases other
  have comparable : Comparable Records.timeoutLibrary .portable (charge 3 (.bool true)) "w" 1 
      (Runs.run (fun s call => (Call.memory Records.timeoutLibrary s call).2) (published.take 4) started) := by
    refine ⟨rfl, fun _ => apart.stored _, fun failed => ?_, fun _ row value found => ?_⟩
    · cases failed
    · cases found
  refine (sqlite_publishes apart (started_mirrors _ _) ?_).1.trans rfl
  refine ⟨rfl, ⟨rfl, ?_⟩, ⟨rfl, ?_⟩, rfl, comparable, ⟨rfl, ?_⟩, ⟨rfl, ?_⟩, rfl, trivial, trivial, trivial, trivial,
    trivial⟩
  all_goals
    intro row found named
    cases found
  rfl

end Durare.Publications

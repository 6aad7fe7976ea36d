import Durare.SqlStreams

/-! Streams on SQLite: the rows of a stream under their offsets, and what a run of sends and stream writes
makes of them. -/
namespace Durare.Sqlite

def numbered (key : String) (records : List StreamRecord) : List ((String × Int) × StreamRecord) :=
  records.zipIdx.map fun record => ((key, (record.2 : Int)), record.1)

theorem mem_numbered {key : String} {records : List StreamRecord} {row : (String × Int) × StreamRecord} :
    row ∈ numbered key records ↔ row.1.1 = key ∧ ∃ i : Nat, row.1.2 = i ∧ records[i]? = some row.2 := by
  simp only [numbered, List.mem_map, Prod.exists, List.mk_mem_zipIdx_iff_getElem?]
  constructor
  · rintro ⟨record, i, stored, rfl⟩
    exact ⟨rfl, i, rfl, stored⟩
  · rintro ⟨rfl, i, offset, stored⟩
    exact ⟨row.2, i, stored, by rw [← offset]⟩

theorem numbered_sorted (key : String) (records : List StreamRecord) :
    (numbered key records).Pairwise fun x y => toLex x.1 < toLex y.1 := by
  rw [numbered, List.pairwise_map, List.pairwise_iff_getElem]
  intro i j _ _ before
  rw [Prod.Lex.toLex_lt_toLex]
  exact .inr ⟨rfl, by simpa using before⟩

theorem numbered_append (key : String) (records : List StreamRecord) (last : StreamRecord) :
    numbered key (records ++ [last]) = numbered key records ++ [((key, (records.length : Int)), last)] := by
  simp [numbered, List.zipIdx_append]

/-- The rows from an offset on. -/
theorem numbered_from (key : String) (records : List StreamRecord) (fromOffset : Int) :
    ((numbered key records).filter fun row => fromOffset ≤ row.1.2).map (·.2) =
      records.drop (max fromOffset 0).toNat := by
  have general (start : Nat) : ((records.zipIdx start).filter fun record => decide (fromOffset ≤ (record.2 : Int))).map
      (·.1) = records.drop (fromOffset - start).toNat := by
    induction records generalizing start with
    | nil => simp
    | cons record records ih =>
      rw [List.zipIdx_cons]
      by_cases reached : fromOffset ≤ start
      · have none : (fromOffset - start).toNat = 0 := by omega
        have later : (fromOffset - (start + 1 : Nat)).toNat = 0 := by omega
        rw [List.filter_cons_of_pos (by simpa using reached), List.map_cons, ih, none, later]
        rfl
      · have more : (fromOffset - start).toNat = (fromOffset - (start + 1 : Nat)).toNat + 1 := by omega
        rw [List.filter_cons_of_neg (by simpa using reached), ih, more, List.drop_succ_cons]
  have zero := general 0
  rw [numbered, List.filter_map, List.map_map]
  have bound : (max fromOffset 0).toNat = (fromOffset - ((0 : Nat) : Int)).toNat := by omega
  rw [bound, ← zero]
  rfl

theorem numbered_next (key : String) (records : List StreamRecord) :
    (((numbered key records).map fun row => row.1.2).max?).getD (-1) + 1 = records.length := by
  induction records using List.reverseRecOn with
  | nil => rfl
  | append_singleton records last ih =>
    rw [numbered_append, List.map_append]
    have below : ∀ n ∈ (numbered key records).map fun row => row.1.2, n ≤ (records.length : Int) := by
      intro n member
      obtain ⟨row, inside, rfl⟩ := List.mem_map.mp member
      obtain ⟨-, i, offset, stored⟩ := mem_numbered.mp inside
      have := (List.getElem?_eq_some_iff.mp stored).1
      omega
    have greatest : (((numbered key records).map fun row => row.1.2) ++ [(records.length : Int)]).max? =
        some (records.length : Int) := by
      rw [List.max?_eq_some_iff]
      refine ⟨by simp, ?_⟩
      intro n member
      rcases List.mem_append.mp member with earlier | newest
      · exact below n earlier
      · exact (List.mem_singleton.mp newest).le
    simp only [List.map_cons, List.map_nil, greatest, Option.getD_some, List.length_append, List.length_singleton]
    omega

def Laid (db : Db) (id key : String) (records : List StreamRecord) : Prop :=
  ∀ offset record, db.streams.get (id, key, offset) = some record ↔ ∃ i : Nat, offset = i ∧ records[i]? = some record

section Laid

variable {db : Db} {id key : String} {records : List StreamRecord}

theorem Laid.entryRows_eq (laid : Laid db id key records) : entryRows id key db = numbered key records := by
  have sorted : (entryRows id key db).Pairwise fun x y => toLex x.1 < toLex y.1 :=
    (db.streams.listing_sorted id (fun key => toLex key) toLex.injective).sublist List.filter_sublist
  refine eq_of_sorted (fun k => toLex k) sorted (numbered_sorted key _) ?_
  rintro ⟨⟨key', offset⟩, record⟩
  rw [mem_numbered, entryRows, List.mem_filter, streamRows, Table.mem_listing, beq_iff_eq]
  constructor
  · rintro ⟨stored, rfl⟩
    exact ⟨rfl, (laid offset record).mp stored⟩
  · rintro ⟨rfl, stored⟩
    exact ⟨(laid offset record).mpr stored, rfl⟩

theorem Laid.any (laid : Laid db id key records) (test : StreamRecord → Bool) :
    ((entryRows id key db).any fun row => test row.2) = records.any test := by
  rw [laid.entryRows_eq, numbered, List.any_map]
  have all : records = records.zipIdx.map (·.1) := (List.zipIdx_map_fst 0 _).symm
  conv => rhs; rw [all, List.any_map]
  rfl

theorem Laid.nextOffset_eq (laid : Laid db id key records) : nextOffset id key db = records.length := by
  rw [nextOffset, laid.entryRows_eq, numbered_next]

/-- A row under the next offset comes last. -/
theorem Laid.append (laid : Laid db id key records) (record : StreamRecord) {after : Db}
    (put : after.streams = db.streams.put (id, key, (records.length : Int)) record) :
    Laid after id key (records ++ [record]) := by
  intro offset found
  rw [put, Table.get_put]
  by_cases last : offset = records.length
  · rw [last, if_pos rfl]
    constructor
    · rintro same
      cases same
      exact ⟨records.length, rfl, by simp⟩
    · rintro ⟨i, same, stored⟩
      obtain rfl : records.length = i := by exact_mod_cast same
      simpa using stored
  · rw [if_neg (by simpa using last), laid]
    refine exists_congr fun i => and_congr_right ?_
    rintro rfl
    have other : i ≠ records.length := fun same => last (by rw [same])
    rw [List.getElem?_append]
    split
    · rfl
    next beyond =>
      have positive : i - records.length ≠ 0 := by omega
      have none : records[i]? = none := List.getElem?_eq_none (by omega)
      simp [none, positive]

theorem Laid.other (laid : Laid db id key records) {key' : String × String × Int} {record : StreamRecord} {after : Db}
    (put : after.streams = db.streams.put key' record) (elsewhere : ¬ (key'.1 = id ∧ key'.2.1 = key)) :
    Laid after id key records := by
  intro offset found
  rw [put, Table.get_put, if_neg]
  · exact laid offset found
  · rintro rfl
    exact elsewhere ⟨rfl, rfl⟩

end Laid

variable (refuses : Limit) (lib : SerdeJson) (serializer : Serializer)

/-- A stream that the write finds closed: the text of one of its rows is the sentinel, whatever its format. -/
def Shut (db : Db) (id key : String) : Prop :=
  ((entryRows id key db).any fun row => row.2.value == Memory.STREAM_CLOSED_SENTINEL) = true

def appended (id key : String) (record : StreamRecord) (db : Db) : Db :=
  { db with streams := db.streams.put (id, key, nextOffset id key db) record }

/-- An entry was encoded and went to the end of an open stream. -/
def Appends (id key : String) (value : Option Value) (functionId : Int) (db db' : Db) : Prop :=
  ¬ Shut db id key ∧ ∃ stored format, streamText lib serializer value = .ok (stored, format) ∧
    db' = appended id key { value := stored, functionId := functionId, serialization := format } db

/-- The rows of a send went into the mailbox, each id once. -/
def Delivers (now : DateTime) (rows : List (NotificationInsert × String)) (db db' : Db) : Prop :=
  db' = { db with
    notifications := rows.foldl (fun mail row => insertOrIgnore mail (mailEntry lib serializer now row)) db.notifications }

/-- How a call that commits an effect with its checkpoint ends: both are there, or a row of its name was there
before and nothing happens, or it fails and nothing happens. -/
inductive Committed (effect : Db → Db → Prop) (id : String) (seq : Int) (name : String) (db : Db) :
    Except Error Unit → Db → Prop where
  | applied (vacant : db.operationOutputs.get (id, seq) = none) (row : StepRecord) (named : row.functionName = name)
    (db' : Db) (happened : effect { db with operationOutputs := db.operationOutputs.put (id, seq) row } db') :
    Committed effect id seq name db (.ok ()) db'
  | already (row : StepRecord) (present : db.operationOutputs.get (id, seq) = some row)
    (named : row.functionName = name) : Committed effect id seq name db (.ok ()) db
  | failed (e : Error) : Committed effect id seq name db (.error e) db

variable {refuses lib serializer} {db : Db}

theorem writeStreamOn_cases (lib : SerdeJson) (serializer : Serializer) (id key : String) (value : Option Value)
    (functionId : Int) (db : Db) :
    (∃ e, writeStreamOn lib serializer id key value functionId db = (.error e, db)) ∨
      ∃ db', writeStreamOn lib serializer id key value functionId db = (.ok (), db') ∧
        Appends lib serializer id key value functionId db db' := by
  unfold writeStreamOn
  split
  · exact .inl ⟨_, rfl⟩
  next stored format encoded =>
    split
    · exact .inl ⟨_, rfl⟩
    next open_ =>
      split
      · exact .inl ⟨_, rfl⟩
      · exact .inr ⟨_, rfl, open_, stored, format, encoded, rfl⟩

theorem send_committed (refuses : Limit) (lib : SerdeJson) (serializer : Serializer) (now : DateTime) (id : String)
    (seq : Int) (name : String) (rows : List (NotificationInsert × String)) (db : Db) :
    Committed (Delivers lib serializer now rows) id seq name db
      (sendFromWorkflow refuses lib serializer now id seq name rows db).1
      (sendFromWorkflow refuses lib serializer now id seq name rows db).2 := by
  obtain ⟨same, ⟨done, row, present, named⟩ | refused⟩ | ⟨row, vacant, named, done, sent⟩ :=
    sendFromWorkflow_cases refuses lib serializer now id seq name rows db
  · rw [same]
    cases answer : (sendFromWorkflow refuses lib serializer now id seq name rows db).1 with
    | ok => exact .already row present named
    | error e => exact .failed e
  · rw [same]
    cases answer : (sendFromWorkflow refuses lib serializer now id seq name rows db).1 with
    | ok =>
      rw [answer] at refused
      cases refused
    | error e => exact .failed e
  · rw [sent]
    obtain ⟨e, failed⟩ | inserted := insertNotificationsOn_cases refuses lib serializer now rows
      { db with operationOutputs := db.operationOutputs.put (id, seq) row }
    · rw [failed] at done
      cases done
    · rw [inserted]
      exact .applied vacant row named _ rfl

theorem write_committed (lib : SerdeJson) (serializer : Serializer) (now : DateTime) (id : String) (seq : Int)
    (name key : String) (value : Option Value) (db : Db) :
    Committed (Appends lib serializer id key value seq) id seq name db
      (writeStreamFromWorkflow lib serializer now id seq name key value db).1
      (writeStreamFromWorkflow lib serializer now id seq name key value db).2 := by
  unfold writeStreamFromWorkflow
  split
  · exact .failed _
  next output _ =>
    obtain ⟨row, taken, wrote⟩ | ⟨e, wrote⟩ | ⟨row, vacant, named, -, -, -, wrote⟩ :=
      checkpointOn_cases now id seq name output (some serializer.name) db
    · rw [wrote]
      dsimp only
      cases served : recordedOutputOn lib serializer id seq name db with
      | error e => exact .failed e
      | ok found => exact .already row taken (recordedOutputOn_named taken served)
    · rw [wrote]
      exact .failed e
    · rw [wrote]
      dsimp only
      obtain ⟨e, failed⟩ | ⟨db', done, happened⟩ := writeStreamOn_cases lib serializer id key value seq
        { db with operationOutputs := db.operationOutputs.put (id, seq) row }
      · rw [failed]
        exact .failed e
      · rw [done]
        exact .applied vacant row named db' happened

/-- A call that returned leaves a row at its position, and where one stands nothing changes. -/
theorem Committed.recorded {effect : Db → Db → Prop} {id : String} {seq : Int} {name : String}
    {answer : Except Error Unit} {db' : Db} (committed : Committed effect id seq name db answer db')
    (steps : ∀ a b, effect a b → b.operationOutputs = a.operationOutputs) (returned : answer.isOk = true) :
    (db'.operationOutputs.get (id, seq)).isSome = true := by
  cases committed with
  | applied vacant row named db' happened => simp [steps _ _ happened]
  | already row present named => simp [present]
  | failed e => cases returned

theorem Committed.unchanged {effect : Db → Db → Prop} {id : String} {seq : Int} {name : String}
    {answer : Except Error Unit} {db' : Db} (committed : Committed effect id seq name db answer db')
    (present : (db.operationOutputs.get (id, seq)).isSome = true) : db' = db := by
  cases committed with
  | applied vacant => simp [vacant] at present
  | already | failed => rfl

theorem Appends.steps {id key : String} {value : Option Value} {functionId : Int} {a b : Db}
    (appends : Appends lib serializer id key value functionId a b) : b.operationOutputs = a.operationOutputs := by
  obtain ⟨-, _, _, -, rfl⟩ := appends
  rfl

theorem Delivers.steps {now : DateTime} {rows : List (NotificationInsert × String)} {a b : Db}
    (delivers : Delivers lib serializer now rows a b) : b.operationOutputs = a.operationOutputs := by
  obtain rfl := delivers
  rfl

end Durare.Sqlite

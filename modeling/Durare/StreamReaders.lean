import Durare.Streams

/-! The two live readers of a stream, against any backend: one returns the whole stream at its end, the other hands
out the values one by one. Each step of a reader is one call of the backend, so that anything can happen between two. -/
namespace Durare.StreamReaders

/-- What a backend answers at one moment: the entries from an offset on, and the producer's status. -/
structure Answers where
  entries : Int → Except Error (List Value × Bool)
  status : Except Error (Option Status)

def inactive (status : Status) : Bool := status != .pending && status != .enqueued

def advance (offset : Int) (values : List Value) : Int := asI32 (offset + asI32 values.length)

/-- `drain_stream_from`: about to read entries, about to read the status, or back. -/
inductive Drain (τ : Type) where
  | reading (all : List τ) (offset : Int) (finalRead : Bool)
  | checking (all : List τ) (offset : Int)
  | returned (result : Except Error (List τ × Bool))

def Drain.checks {τ : Type} : Drain τ → Bool
  | .checking _ _ => true
  | _ => false

/-- `stream_values` between two steps. After an error the next pull ends it. -/
inductive Pull where
  | reading (offset : Int) (buffer : List Value) (finalRead : Bool)
  | checking (offset : Int)
  | failed
  | ended

section Readers

variable {τ : Type} (decode : Value → Except String τ) (id : String)

def pushAll (all : List τ) : List Value → Except Error (List τ)
  | [] => .ok all
  | v :: values =>
    match decode v with
    | .error message => .error (.serde message)
    | .ok t => pushAll (all ++ [t]) values

def Drain.start : Drain τ := .reading [] 0 false

def Drain.next (a : Answers) : Drain τ → Drain τ
  | .reading all offset finalRead =>
    match a.entries offset with
    | .error e => .returned (.error e)
    | .ok (values, closed) =>
      match pushAll decode all values with
      | .error e => .returned (.error e)
      | .ok all =>
        if closed then .returned (.ok (all, true))
        else if finalRead then .returned (.ok (all, true))
        else .checking all (advance offset values)
  | .checking all offset =>
    match a.status with
    | .error e => .returned (.error e)
    | .ok none => .returned (.error (.nonExistentWorkflow id))
    | .ok (some status) => .reading all offset (inactive status)
  | .returned result => .returned result

def Pull.start : Pull := .reading 0 [] false

/-- What a step hands to the consumer, and where it leaves the reader. -/
def Pull.next (a : Answers) : Pull → Option (Except Error τ) × Pull
  | .reading offset (v :: buffer) finalRead =>
    match decode v with
    | .ok t => (some (.ok t), .reading offset buffer finalRead)
    | .error message => (some (.error (.serde message)), .failed)
  | .reading offset [] finalRead =>
    match a.entries offset with
    | .error e => (some (.error e), .failed)
    | .ok (values, closed) =>
      if values ≠ [] then (none, .reading (advance offset values) values finalRead)
      else if closed || finalRead then (none, .ended)
      else (none, .checking (advance offset values))
  | .checking offset =>
    match a.status with
    | .error e => (some (.error e), .failed)
    | .ok none => (some (.error (.nonExistentWorkflow id)), .failed)
    | .ok (some status) => (none, .reading offset [] (inactive status))
  | .failed | .ended => (none, .ended)

def Answers.missing (a : Answers) : Option Error :=
  match a.status with
  | .error e => some e
  | .ok none => some (.nonExistentWorkflow id)
  | .ok (some _) => none

def Answers.unread (a : Answers) (offset : Int) : Option Error :=
  match a.entries offset with
  | .error e => some e
  | .ok _ => none

def Drain.failure (a : Answers) : Drain τ → Option Error
  | .reading _ offset _ => a.unread offset
  | .checking _ _ => a.missing id
  | .returned _ => none

def Pull.failure (a : Answers) : Pull → Option Error
  | .reading offset [] _ => a.unread offset
  | .checking _ => a.missing id
  | _ => none

end Readers

structure Live where
  values : List Value
  shut : Bool
  halted : Bool
deriving DecidableEq

/-- Values come at the end, and none once the stream is closed or its producer over. -/
structure Live.Onward (w w' : Live) : Prop where
  grown : w.values <+: w'.values
  still : w.shut = true ∨ w.halted = true → w'.values = w.values
  shut : w.shut = true → w'.shut = true
  halted : w.halted = true → w'.halted = true

theorem Live.Onward.refl (w : Live) : w.Onward w := ⟨List.prefix_refl _, fun _ => rfl, id, id⟩

/-- A read is answered with what the stream holds at that moment, or with a failure. -/
def Answers.Shows (w : Live) (a : Answers) : Prop :=
  ∀ k : Nat, k ≤ w.values.length → ∀ reply, a.entries k = .ok reply → reply = (w.values.drop k, w.shut)

/-- The status tells whether the producer is over. -/
def Answers.Tells (w : Live) (a : Answers) : Prop := ∀ s, a.status = .ok (some s) → inactive s = w.halted

section Reading

variable {τ : Type} (decode : Value → Except String τ)

abbrev Decoded (values : List Value) (ts : List τ) : Prop := List.Forall₂ (fun v t => decode v = .ok t) values ts

/-- The first values of the stream, decoded. -/
def Begins (values : List Value) (ts : List τ) : Prop := ∃ read, read <+: values ∧ Decoded decode read ts

/-- The values before the first that does not decode, and the error of that one. -/
def Spoilt (values : List Value) (ts : List τ) (e : Error) : Prop :=
  ∃ read bad message, read ++ [bad] <+: values ∧ Decoded decode read ts ∧ decode bad = .error message ∧
    e = .serde message

variable {decode}

theorem Begins.mono {values values' : List Value} {ts : List τ} (begins : Begins decode values ts)
    (grown : values <+: values') : Begins decode values' ts := by
  obtain ⟨read, within, decoded⟩ := begins
  exact ⟨read, within.trans grown, decoded⟩

theorem Spoilt.mono {values values' : List Value} {ts : List τ} {e : Error} (spoilt : Spoilt decode values ts e)
    (grown : values <+: values') : Spoilt decode values' ts e := by
  obtain ⟨read, bad, message, within, rest⟩ := spoilt
  exact ⟨read, bad, message, within.trans grown, rest⟩

theorem Spoilt.begins {values : List Value} {ts : List τ} {e : Error} (spoilt : Spoilt decode values ts e) :
    Begins decode values ts := by
  obtain ⟨read, bad, message, within, decoded, -⟩ := spoilt
  exact ⟨read, (List.prefix_append read [bad]).trans within, decoded⟩

/-- The loop decodes what follows, or stops at the first value that does not decode. -/
theorem pushAll_spec (all : List τ) (values : List Value) :
    (∃ ts, pushAll decode all values = .ok (all ++ ts) ∧ Decoded decode values ts) ∨
      ∃ ts e, pushAll decode all values = .error e ∧ Spoilt decode values ts e := by
  induction values generalizing all with
  | nil => exact .inl ⟨[], by simp [pushAll], .nil⟩
  | cons v values ih =>
    cases first : decode v with
    | error message =>
      refine .inr ⟨[], .serde message, by simp [pushAll, first], [], v, message, ?_, .nil, first, rfl⟩
      simp
    | ok t =>
      obtain ⟨ts, same, decoded⟩ | ⟨ts, e, same, read, bad, message, within, decoded, rest⟩ := ih (all ++ [t])
      · exact .inl ⟨t :: ts, by simp [pushAll, first, same], .cons first decoded⟩
      · refine .inr ⟨t :: ts, e, by simp [pushAll, first, same], v :: read, bad, message, ?_, .cons first decoded,
          rest⟩
        simpa using within

/-- Two decodings of one list are the same. -/
theorem Decoded.unique {values : List Value} {ts ts' : List τ} (first : Decoded decode values ts)
    (second : Decoded decode values ts') : ts = ts' := by
  induction first generalizing ts' with
  | nil => cases second; rfl
  | cons head _ ih =>
    cases second with
    | cons head' tail' =>
      rw [head] at head'
      cases head'
      rw [ih tail']

/-- What is read and decodes ends before the first value that does not decode. -/
theorem Spoilt.bound {values read : List Value} {ts us : List τ} {e : Error} (spoilt : Spoilt decode values ts e)
    (within : read <+: values) (decoded : Decoded decode read us) : read.length ≤ ts.length := by
  obtain ⟨good, bad, message, before, goods, wrong, -⟩ := spoilt
  by_contra more
  have longer : good.length < read.length := by
    have same := goods.length_eq
    omega
  have here : read.get ⟨good.length, longer⟩ = bad := by
    obtain ⟨rest, whole⟩ := before
    obtain ⟨rest', whole'⟩ := within
    have at_ : (good ++ [bad] ++ rest)[good.length]? = some bad := by simp
    rw [whole, ← whole', List.getElem?_append_left longer, List.getElem?_eq_getElem longer] at at_
    exact Option.some.inj at_
  have fine := decoded.get longer (decoded.length_eq ▸ longer)
  rw [here, wrong] at fine
  cases fine

/-- The values before the first that does not decode are the same whenever one looks. -/
theorem Spoilt.unique {values : List Value} {ts ts' : List τ} {e e' : Error} (first : Spoilt decode values ts e)
    (second : Spoilt decode values ts' e') : ts = ts' ∧ e = e' := by
  have le {us us' : List τ} {d d' : Error} (one : Spoilt decode values us d) (other : Spoilt decode values us' d') :
      us'.length ≤ us.length := by
    obtain ⟨read, bad, message, within, decoded, -⟩ := other
    rw [← decoded.length_eq]
    exact one.bound ((List.prefix_append read [bad]).trans within) decoded
  have length : ts.length = ts'.length := Nat.le_antisymm (le second first) (le first second)
  obtain ⟨read, bad, message, within, decoded, wrong, rfl⟩ := first
  obtain ⟨read', bad', message', within', decoded', wrong', rfl⟩ := second
  have same : read ++ [bad] = read' ++ [bad'] := by
    refine (List.prefix_of_prefix_length_le within within' ?_).eq_of_length ?_ <;>
    · have one := decoded.length_eq
      have other := decoded'.length_eq
      simp only [List.length_append, List.length_singleton]
      omega
  obtain ⟨rfl, last⟩ := List.append_inj' same rfl
  cases last
  rw [wrong] at wrong'
  cases wrong'
  exact ⟨decoded.unique decoded', rfl⟩

/-- A stream that decodes to its end holds no value that does not. -/
theorem Spoilt.not_decoded {values : List Value} {ts us : List τ} {e : Error} (spoilt : Spoilt decode values ts e) :
    ¬ Decoded decode values us := by
  intro decoded
  have bound := spoilt.bound (List.prefix_refl _) decoded
  obtain ⟨read, bad, message, within, goods, -⟩ := spoilt
  have length := within.length_le
  rw [List.length_append, List.length_singleton, goods.length_eq] at length
  omega

variable (decode)

/-- What the blocking reader keeps to; `failed` is the failure it was answered with. -/
def Drain.Keeps (w : Live) (failed : Option Error) : Drain τ → Prop
  | .reading all offset finalRead =>
    failed = none ∧ (finalRead = true → w.halted = true) ∧
      ∃ read, read <+: w.values ∧ Decoded decode read all ∧ offset = read.length
  | .checking all offset => failed = none ∧ ∃ read, read <+: w.values ∧ Decoded decode read all ∧ offset = read.length
  | .returned (.ok (all, closed)) =>
    failed = none ∧ closed = true ∧ Decoded decode w.values all ∧ (w.shut = true ∨ w.halted = true)
  | .returned (.error e) => failed = some e ∨ failed = none ∧ ∃ ts, Spoilt decode w.values ts e

/-- The consumer has been handed the first values and then an error. -/
def Erred (w : Live) (failed : Option Error) (yielded : List (Except Error τ)) : Prop :=
  ∃ ts e, yielded = ts.map .ok ++ [.error e] ∧ Begins decode w.values ts ∧
    (failed = some e ∨ failed = none ∧ Spoilt decode w.values ts e)

/-- What the incremental reader keeps to, with what it has handed out so far. -/
def Pull.Keeps (w : Live) (failed : Option Error) (yielded : List (Except Error τ)) : Pull → Prop
  | .reading offset buffer finalRead =>
    failed = none ∧ (finalRead = true → w.halted = true) ∧ ∃ read ts, yielded = ts.map .ok ∧ Decoded decode read ts ∧
      read ++ buffer <+: w.values ∧ offset = (read ++ buffer).length
  | .checking offset =>
    failed = none ∧ ∃ read ts, yielded = ts.map .ok ∧ Decoded decode read ts ∧ read <+: w.values ∧ offset = read.length
  | .failed => Erred decode w failed yielded
  | .ended => Erred decode w failed yielded ∨
    failed = none ∧ (∃ ts, yielded = ts.map .ok ∧ Decoded decode w.values ts) ∧ (w.shut = true ∨ w.halted = true)

variable {decode} {w w' : Live} {failed : Option Error} {yielded : List (Except Error τ)}

theorem Live.Onward.complete (onward : w.Onward w') (complete : w.shut = true ∨ w.halted = true) :
    w'.shut = true ∨ w'.halted = true := complete.imp onward.shut onward.halted

/-- Reading on does not depend on how the stream goes on. -/
theorem Drain.Keeps.onward {drain : Drain τ} (keeps : drain.Keeps decode w failed) (onward : w.Onward w') :
    drain.Keeps decode w' failed := by
  cases drain with
  | reading all offset finalRead =>
    obtain ⟨fine, final, read, within, rest⟩ := keeps
    exact ⟨fine, fun last => onward.halted (final last), read, within.trans onward.grown, rest⟩
  | checking all offset =>
    obtain ⟨fine, read, within, rest⟩ := keeps
    exact ⟨fine, read, within.trans onward.grown, rest⟩
  | returned result =>
    cases result with
    | ok reply =>
      obtain ⟨fine, closed, decoded, complete⟩ := keeps
      refine ⟨fine, closed, ?_, onward.complete complete⟩
      rw [onward.still complete]
      exact decoded
    | error e => exact keeps.imp id fun ⟨fine, ts, spoilt⟩ => ⟨fine, ts, spoilt.mono onward.grown⟩

theorem Erred.onward (erred : Erred decode w failed yielded) (onward : w.Onward w') :
    Erred decode w' failed yielded := by
  obtain ⟨ts, e, same, begins, cause⟩ := erred
  exact ⟨ts, e, same, begins.mono onward.grown, cause.imp id (.imp id (·.mono onward.grown))⟩

theorem Pull.Keeps.onward {pull : Pull} (keeps : pull.Keeps decode w failed yielded) (onward : w.Onward w') :
    pull.Keeps decode w' failed yielded := by
  cases pull with
  | reading offset buffer finalRead =>
    obtain ⟨fine, final, read, ts, same, decoded, within, counted⟩ := keeps
    exact ⟨fine, fun last => onward.halted (final last), read, ts, same, decoded, within.trans onward.grown, counted⟩
  | checking offset =>
    obtain ⟨fine, read, ts, same, decoded, within, counted⟩ := keeps
    exact ⟨fine, read, ts, same, decoded, within.trans onward.grown, counted⟩
  | failed => exact Erred.onward keeps onward
  | ended =>
    obtain erred | ⟨fine, ⟨ts, same, decoded⟩, complete⟩ := keeps
    · exact .inl (erred.onward onward)
    · refine .inr ⟨fine, ⟨ts, same, ?_⟩, onward.complete complete⟩
      rw [onward.still complete]
      exact decoded

/-- While the stream fits the counter, the offset is how many values have been read. -/
theorem advance_length {read values : List Value} (fits : (read ++ values).length < 2 ^ 31) :
    advance read.length values = (read ++ values).length := by
  rw [List.length_append] at fits ⊢
  unfold advance
  rw [@asI32_of_lt values.length (by omega) (by omega), asI32_of_lt (by omega) (by omega)]
  exact (Nat.cast_add ..).symm

/-- The first values and what the backend answers from behind them on. -/
theorem Answers.Shows.read {a : Answers} {read : List Value} {reply : List Value × Bool} (shows : a.Shows w)
    (within : read <+: w.values) (answered : a.entries read.length = .ok reply) :
    read ++ reply.1 = w.values ∧ reply.2 = w.shut := by
  have same := shows read.length within.length_le reply answered
  obtain ⟨rest, whole⟩ := within
  rw [same, ← whole, List.drop_left]
  exact ⟨rfl, rfl⟩

theorem Spoilt.after {read values : List Value} {all ts : List τ} {e : Error} (decoded : Decoded decode read all)
    (spoilt : Spoilt decode values ts e) : Spoilt decode (read ++ values) (all ++ ts) e := by
  obtain ⟨good, bad, message, within, later, wrong, same⟩ := spoilt
  refine ⟨read ++ good, bad, message, ?_, List.rel_append decoded later, wrong, same⟩
  rw [List.append_assoc]
  exact (List.prefix_append_right_inj read).mpr within

theorem Drain.Keeps.next_keeps {id : String} {a : Answers} {drain : Drain τ} (keeps : drain.Keeps decode w failed)
    (fits : w.values.length < 2 ^ 31) (shown : a.Shows w)
    (told : ∀ all offset, drain = .checking all offset → a.Tells w) :
    (drain.next decode id a).Keeps decode w (failed.or (drain.failure id a)) := by
  cases drain with
  | reading all offset finalRead =>
    obtain ⟨rfl, final, read, within, decoded, rfl⟩ := keeps
    rw [Option.none_or]
    cases answered : a.entries read.length with
    | error e => simp [next, failure, Answers.unread, answered, Keeps]
    | ok reply =>
      obtain ⟨values, closed⟩ := reply
      have fine : failure id a (.reading all read.length finalRead) = none := by
        simp [failure, Answers.unread, answered]
      obtain ⟨whole, same⟩ := shown.read within answered
      rw [fine]
      simp only [next, answered]
      obtain ⟨ts, pushed, more⟩ | ⟨ts, e, pushed, spoilt⟩ := @pushAll_spec τ decode all values
      · have every : Decoded decode w.values (all ++ ts) := by
          rw [← whole]
          exact List.rel_append decoded more
        rw [pushed]
        dsimp only
        split
        next shut => exact ⟨rfl, rfl, every, .inl (same ▸ shut)⟩
        split
        next last => exact ⟨rfl, rfl, every, .inr (final last)⟩
        · refine ⟨rfl, w.values, List.prefix_refl _, every, ?_⟩
          dsimp only at whole
          rw [advance_length (by rw [whole]; exact fits), whole]
      · rw [pushed]
        exact .inr ⟨rfl, _, whole ▸ spoilt.after decoded⟩
  | checking all offset =>
    obtain ⟨rfl, read, within, decoded, rfl⟩ := keeps
    rw [Option.none_or]
    cases answered : a.status with
    | error e => simp [next, failure, Answers.missing, answered, Keeps]
    | ok status =>
      cases status with
      | none => simp [next, failure, Answers.missing, answered, Keeps]
      | some status =>
        simp only [next, failure, Answers.missing, answered]
        refine ⟨rfl, fun last => ?_, read, within, decoded, rfl⟩
        rw [← told all read.length rfl status answered]
        exact last
  | returned result =>
    rw [failure, Option.or_none]
    exact keeps

theorem Pull.Keeps.next_keeps {id : String} {a : Answers} {pull : Pull} (keeps : pull.Keeps decode w failed yielded)
    (fits : w.values.length < 2 ^ 31) (shown : a.Shows w) (told : a.Tells w) :
    (pull.next decode id a).2.Keeps decode w (failed.or (pull.failure id a))
      (yielded ++ (pull.next decode id a).1.toList) := by
  cases pull with
  | reading offset buffer finalRead =>
    obtain ⟨rfl, final, read, ts, rfl, decoded, within, rfl⟩ := keeps
    rw [Option.none_or]
    cases buffer with
    | cons v buffer =>
      have here : read ++ [v] <+: w.values := by
        rw [List.append_cons] at within
        exact (List.prefix_append ..).trans within
      cases first : decode v with
      | error message =>
        simp only [next, first]
        exact ⟨ts, _, rfl, ⟨read, (List.prefix_append read [v]).trans here, decoded⟩,
          .inr ⟨rfl, read, v, message, here, decoded, first, rfl⟩⟩
      | ok t =>
        simp only [next, first]
        refine ⟨rfl, final, read ++ [v], ts ++ [t], by simp, List.rel_append decoded (.cons first .nil), ?_, ?_⟩
        · simpa using within
        · simp
    | nil =>
      rw [List.append_nil] at within ⊢
      cases answered : a.entries read.length with
      | error e =>
        simp only [next, failure, Answers.unread, answered]
        exact ⟨ts, e, rfl, ⟨read, within, decoded⟩, .inl rfl⟩
      | ok reply =>
        obtain ⟨values, closed⟩ := reply
        have fine : failure id a (.reading read.length [] finalRead) = none := by
          simp [failure, Answers.unread, answered]
        obtain ⟨whole, same⟩ := shown.read within answered
        dsimp only at whole same
        have counted : advance read.length values = (read ++ values).length := by
          rw [advance_length (by rw [whole]; exact fits)]
        rw [fine]
        simp only [next, answered]
        split
        next more =>
          refine ⟨rfl, final, read, ts, by simp, decoded, ?_, counted⟩
          rw [whole]
        next empty =>
          have nothing : values = [] := by simpa using empty
          rw [nothing, List.append_nil] at whole
          split
          next last =>
            refine .inr ⟨rfl, ⟨ts, by simp, whole ▸ decoded⟩, ?_⟩
            rcases Bool.or_eq_true .. ▸ last with closed | final_
            · exact .inl (same ▸ closed)
            · exact .inr (final final_)
          · refine ⟨rfl, read, ts, by simp, decoded, within, ?_⟩
            rw [nothing, List.append_nil] at counted
            rw [nothing]
            exact counted
  | checking offset =>
    obtain ⟨rfl, read, ts, rfl, decoded, within, rfl⟩ := keeps
    rw [Option.none_or]
    have begins : Begins decode w.values ts := ⟨read, within, decoded⟩
    cases answered : a.status with
    | error e =>
      simp only [next, failure, Answers.missing, answered]
      exact ⟨ts, e, rfl, begins, .inl rfl⟩
    | ok status =>
      cases status with
      | none =>
        simp only [next, failure, Answers.missing, answered]
        exact ⟨ts, _, rfl, begins, .inl rfl⟩
      | some status =>
        simp only [next, failure, Answers.missing, answered]
        refine ⟨rfl, fun last => ?_, read, ts, by simp, decoded, by simpa using within, by simp⟩
        rw [← told status answered]
        exact last
  | failed =>
    change Keeps decode w (failed.or none) (yielded ++ []) .ended
    rw [Option.or_none, List.append_nil]
    exact .inl keeps
  | ended =>
    change Keeps decode w (failed.or none) (yielded ++ []) .ended
    rw [Option.or_none, List.append_nil]
    exact keeps

end Reading

end Durare.StreamReaders

import Durare.Effects

/-! Sends and stream writes of a workflow commit with their checkpoint, and so happen once for each
position. What the writers make of a stream: values in order, and at most one close behind them. -/
namespace Durare.Streams

open Memory

/-- The values up to the close sentinel, and whether there is one. -/
def readEntries : List (Option Value) → List Value × Bool
  | [] => ([], false)
  | some value :: rest => (value :: (readEntries rest).1, (readEntries rest).2)
  | none :: _ => ([], true)

/-- `read_stream`: an offset below zero reads from the start. -/
def readStream (id key : String) (fromOffset : Int) (s : Inner) : Answer (List Value × Bool) :=
  (.ok (readEntries (((s.streams.get (id, key)).getD []).drop (max fromOffset 0).toNat)), s)

/-- A stream of values that may be closed. -/
def entries (values : List Value) (shut : Bool) : List (Option Value) :=
  values.map some ++ if shut then [none] else []

theorem readEntries_entries (values : List Value) (shut : Bool) :
    readEntries (entries values shut) = (values, shut) := by
  induction values with
  | nil => cases shut <;> rfl
  | cons value values ih =>
    simp only [entries, List.map_cons, List.cons_append, readEntries] at ih ⊢
    rw [ih]

theorem drop_entries (values : List Value) (shut : Bool) (k : Nat) :
    (entries values shut).drop k = entries (values.drop k) (shut && decide (k ≤ values.length)) := by
  rw [entries, List.drop_append, ← List.map_drop, List.length_map, entries]
  congr 1
  by_cases within : k ≤ values.length
  · have zero : k - values.length = 0 := by omega
    simp [within, zero]
  · have beyond : 0 < k - values.length := by omega
    cases shut with
    | false => simp
    | true =>
      obtain ⟨n, more⟩ := Nat.exists_eq_succ_of_ne_zero beyond.ne'
      simp [within, more]

theorem closed_entries (values : List Value) (shut : Bool) : closed (entries values shut) = shut := by
  cases shut <;> simp [closed, entries]

section Calls

variable (now : DateTime) (id : String) (seq : Int) (name : String)

/-- How a call that commits an effect with its checkpoint ends: both are there, or a row of its name was
there before and nothing happens, or it fails and nothing happens. -/
inductive Committed (effect : Inner → Inner) (s : Inner) : Except Error Unit → Inner → Prop where
  | applied (vacant : s.steps.get (id, seq) = none) :
    Committed effect s (.ok ()) (checkpoint now id seq name .null (effect s))
  | already (row : StepRow) (present : s.steps.get (id, seq) = some row) (named : row.name = name) :
    Committed effect s (.ok ()) s
  | failed (e : Error) : Committed effect s (.error e) s

/-- The messages of a send, each key once. -/
def delivered (rows : List (NotificationInsert × String)) (s : Inner) : Inner :=
  { s with notifications := acceptNotifications now rows s.notifications }

def appended (id key : String) (value : Option Value) (s : Inner) : Inner :=
  { s with streams := s.streams.put (id, key) ((s.streams.get (id, key)).getD [] ++ [value]) }

variable {now id seq name} {s : Inner}

theorem pushNotifications_cases (now : DateTime) (rows : List (NotificationInsert × String)) (s : Inner) :
    ((∀ row ∈ rows, (s.workflows.get row.1.destinationId).isSome = true) ∧
      pushNotifications now rows s = (.ok (), delivered now rows s)) ∨
    ∃ row ∈ rows, s.workflows.get row.1.destinationId = none ∧
      pushNotifications now rows s = (.error (.nonExistentWorkflow row.1.destinationId), s) := by
  unfold pushNotifications
  split
  next missing found =>
    refine .inr ⟨missing, List.mem_of_find?_eq_some found, ?_, rfl⟩
    simpa using List.find?_some found
  next known =>
    refine .inl ⟨?_, rfl⟩
    intro row member
    simpa [Option.isSome_iff_ne_none] using List.find?_eq_none.mp known row member

theorem appendStream_cases (id key : String) (value : Option Value) (s : Inner) :
    (¬ Closed s id key ∧ appendStream id key value s = (.ok (), appended id key value s)) ∨
      ∃ e, Closed s id key ∧ appendStream id key value s = (.error e, s) := by
  unfold appendStream
  dsimp only
  split
  next shut => exact .inr ⟨_, shut, rfl⟩
  next open_ => exact .inl ⟨open_, rfl⟩

theorem send_committed (rows : List (NotificationInsert × String)) :
    Committed now id seq name (delivered now rows) s (sendFromWorkflow now id seq name rows s).1
      (sendFromWorkflow now id seq name rows s).2 := by
  unfold sendFromWorkflow
  obtain ⟨row, -, -, found⟩ | ⟨row, present, named, found⟩ | ⟨vacant, found⟩ := recordedAt_eq id seq name s
  · rw [found]
    exact .failed _
  · rw [found]
    exact .already row present named
  · rw [found]
    obtain ⟨-, pushed⟩ | ⟨row, -, -, pushed⟩ := pushNotifications_cases now rows s
    · rw [pushed]
      exact .applied vacant
    · rw [pushed]
      exact .failed _

theorem write_committed (key : String) (value : Option Value) :
    Committed now id seq name (appended id key value) s (writeStreamFromWorkflow now id seq name key value s).1
      (writeStreamFromWorkflow now id seq name key value s).2 := by
  unfold writeStreamFromWorkflow
  obtain ⟨row, -, -, found⟩ | ⟨row, present, named, found⟩ | ⟨vacant, found⟩ := recordedAt_eq id seq name s
  · rw [found]
    exact .failed _
  · rw [found]
    exact .already row present named
  · rw [found]
    obtain ⟨-, pushed⟩ | ⟨e, -, pushed⟩ := appendStream_cases id key value s
    · rw [pushed]
      exact .applied vacant
    · rw [pushed]
      exact .failed _

theorem Committed.recorded {effect : Inner → Inner} {answer : Except Error Unit} {s' : Inner}
    (committed : Committed now id seq name effect s answer s') (returned : answer = .ok ()) :
    (s'.steps.get (id, seq)).isSome = true := by
  cases committed with
  | applied vacant => simp [checkpoint]
  | already row present named => simp [present]
  | failed e => cases returned

theorem Committed.unchanged {effect : Inner → Inner} {answer : Except Error Unit} {s' : Inner}
    (committed : Committed now id seq name effect s answer s') (present : (s.steps.get (id, seq)).isSome = true) :
    s' = s := by
  cases committed with
  | applied vacant => simp [vacant] at present
  | already | failed => rfl

end Calls

section Runs

def Unimported (_ : Inner) (event : DateTime × Call) : Prop :=
  match event.2 with
  | .importWorkflow _ => False
  | _ => True

instance (s : Inner) (event : DateTime × Call) : Decidable (Unimported s event) := by
  apply Call.casesOn (motive := fun call => Decidable (Unimported s (event.1, call))) event.2 <;> intros <;>
    (dsimp only [Unimported]; infer_instance)

/-- Every stream is a list of values that may be closed. -/
def WellFormed (s : Inner) : Prop :=
  ∀ id key, ∃ values shut, (s.streams.get (id, key)).getD [] = entries values shut

theorem step_wellFormed {lib : SerdeJson} {s : Inner} {event : DateTime × Call} (unimported : Unimported s event)
    (formed : WellFormed s) : WellFormed (step lib s event) := by
  obtain ⟨now, call⟩ := event
  have unimported : ∀ wfs, call ≠ .importWorkflow wfs := by
    rintro wfs rfl
    exact unimported
  intro id key
  obtain ⟨values, shut, here⟩ := formed id key
  by_cases history : id ∈ call.histories s
  · rcases step_stream_removed lib now call s id key history unimported with same | gone
    · exact ⟨values, shut, by rw [same, here]⟩
    · exact ⟨[], false, by rw [gone]; rfl⟩
  · rcases step_stream lib now call s id key history with same | ⟨open_, entry, more⟩
    · exact ⟨values, shut, by rw [same, here]⟩
    · rw [Closed, here, closed_entries, Bool.not_eq_true] at open_
      subst open_
      rw [more, here]
      cases entry with
      | some value => exact ⟨values ++ [value], false, by simp [entries]⟩
      | none => exact ⟨values, true, by simp [entries]⟩

def Ends (lib : SerdeJson) (now : DateTime) (s : Inner) : Call → Prop
  | .sendFromWorkflow id seq name rows =>
    Committed now id seq name (delivered now rows) s (sendFromWorkflow now id seq name rows s).1
      (step lib s (now, .sendFromWorkflow id seq name rows))
  | .writeStreamFromWorkflow id seq name key value =>
    Committed now id seq name (appended id key value) s (writeStreamFromWorkflow now id seq name key value s).1
      (step lib s (now, .writeStreamFromWorkflow id seq name key value))
  | .writeStream id key value =>
    ((writeStream id key value s).1 = .ok () ∧ step lib s (now, .writeStream id key value) = appended id key value s) ∨
      ((writeStream id key value s).1.isOk = false ∧ step lib s (now, .writeStream id key value) = s)
  | _ => True

def commits : Call → Option (String × Int)
  | .sendFromWorkflow id seq _ _ | .writeStreamFromWorkflow id seq _ _ _ => some (id, seq)
  | _ => none

def returned (now : DateTime) (s : Inner) : Call → Bool
  | .sendFromWorkflow id seq name rows => (sendFromWorkflow now id seq name rows s).1.isOk
  | .writeStreamFromWorkflow id seq name key value => (writeStreamFromWorkflow now id seq name key value s).1.isOk
  | _ => false

/-- What the sends and stream writes of a run keep, whatever else goes on in between. -/
structure CommitsOnce (lib : SerdeJson) (s : Inner) (events : List (DateTime × Call)) : Prop where
  ends : ∀ before now call after, events = before ++ (now, call) :: after → Ends lib now (run lib before s) call
  once : ∀ id, Runs.Along (step lib) (Spares id) events s → ∀ before now call middle now' call' after,
    events = before ++ (now, call) :: (middle ++ (now', call') :: after) →
    ∀ seq, commits call = some (id, seq) → commits call' = some (id, seq) → returned now (run lib before s) call = true →
    step lib (run lib (before ++ (now, call) :: middle) s) (now', call') = run lib (before ++ (now, call) :: middle) s
  appends : ∀ before event after, events = before ++ event :: after → ∀ id key, Spares id (run lib before s) event →
    (run lib (before ++ [event]) s).streams.get (id, key) = (run lib before s).streams.get (id, key) ∨
      ¬ Closed (run lib before s) id key ∧ ∃ entry, (run lib (before ++ [event]) s).streams.get (id, key) =
        some (((run lib before s).streams.get (id, key)).getD [] ++ [entry])
  reads : ∀ id key, ∃ values shut, ((run lib events s).streams.get (id, key)).getD [] = entries values shut ∧
    ∀ offset, readStream id key offset (run lib events s) =
      (.ok (values.drop (max offset 0).toNat, shut && decide ((max offset 0).toNat ≤ values.length)), run lib events s)

theorem call_ends (lib : SerdeJson) (now : DateTime) (s : Inner) (call : Call) : Ends lib now s call := by
  cases call with
  | sendFromWorkflow id seq name rows => exact send_committed rows
  | writeStreamFromWorkflow id seq name key value => exact write_committed key value
  | writeStream id key value =>
    obtain ⟨-, same⟩ | ⟨e, -, same⟩ := appendStream_cases id key value s
    · exact .inl ⟨by rw [writeStream, same], by rw [step, exec, writeStream, same]⟩
    · exact .inr ⟨by rw [writeStream, same]; rfl, by rw [step, exec, writeStream, same]⟩
  | _ => trivial

theorem returned_recorded {lib : SerdeJson} {now : DateTime} {s : Inner} {call : Call} {position : String × Int}
    (here : commits call = some position) (ok : returned now s call = true) :
    ∃ row, (step lib s (now, call)).steps.get position = some row := by
  have ends := call_ends lib now s call
  have unit : ∀ answer : Except Error Unit, answer.isOk = true → answer = .ok () := by
    intro answer ok
    cases answer with
    | ok => rfl
    | error => cases ok
  cases call with
  | sendFromWorkflow | writeStreamFromWorkflow =>
    cases here
    exact Option.isSome_iff_exists.mp (Committed.recorded ends (unit _ ok))
  | _ => cases here

theorem recorded_unchanged {lib : SerdeJson} {now : DateTime} {s : Inner} {call : Call} {position : String × Int}
    {row : StepRow} (here : commits call = some position) (present : s.steps.get position = some row) :
    step lib s (now, call) = s := by
  have ends := call_ends lib now s call
  cases call with
  | sendFromWorkflow | writeStreamFromWorkflow =>
    cases here
    exact Committed.unchanged ends (by simp [present])
  | _ => cases here

/-- From any state reached without an import, every interleaving commits each send and stream write with
its checkpoint, at most once for a position, and every stream stays a list of values that may be closed. -/
theorem memory_commits (lib : SerdeJson) (earlier events : List (DateTime × Call))
    (unimported : Runs.Along (step lib) Unimported (earlier ++ events) Inner.new) :
    CommitsOnce lib (run lib earlier Inner.new) events where
  ends := fun before now call after _ => call_ends lib now _ call
  once := by
    rintro id spared before now call middle now' call' after rfl seq here here' ok
    have keeps : ∀ s event, Spares id s event → ∀ row, s.steps.get (id, seq) = some row →
        (step lib s event).steps.get (id, seq) = some row :=
      fun s event spared row present => step_spares event spared row present
    obtain ⟨row, left⟩ := returned_recorded here ok
    exact recorded_unchanged here' (Runs.kept_between keeps spared left)
  appends := by
    intro before event after _ id key spared
    have after_ : run lib (before ++ [event]) (run lib earlier Inner.new) =
        step lib (run lib before (run lib earlier Inner.new)) event := Runs.run_append ..
    rw [after_]
    exact step_stream lib event.1 event.2 _ id key spared
  reads := by
    have formed : WellFormed (run lib (earlier ++ events) Inner.new) := by
      refine Runs.invariant (fun s event here formed => step_wellFormed here formed) unimported ?_
      intro id key
      exact ⟨[], false, rfl⟩
    have whole : run lib (earlier ++ events) Inner.new = run lib events (run lib earlier Inner.new) := Runs.run_append ..
    rw [whole] at formed
    intro id key
    obtain ⟨values, shut, here⟩ := formed id key
    refine ⟨values, shut, here, ?_⟩
    intro offset
    rw [readStream, here, drop_entries, readEntries_entries]

end Runs

end Durare.Streams

import Durare.Context
import Durare.Lifecycle
import Durare.StreamReaders
import Mathlib.Data.List.ReduceOption

/-! A blocking reader beside the engine: what it returns when its producer runs through the engine's calls. -/
namespace Durare.StreamReads

open Memory StreamReaders

/-- The engine's calls and one reader; `log` is every entry that was ever appended to the stream. -/
structure State (τ : Type) where
  sys : Lifecycle.System
  drain : Drain τ
  log : List (Option Value)

inductive Event where
  | engine (now : DateTime) (event : Lifecycle.Event)
  | read (failure : Option Error)
deriving DecidableEq, Repr

def stream (id key : String) (s : Inner) : List (Option Value) := (s.streams.get (id, key)).getD []

def answers (id key : String) (failure : Option Error) (s : Inner) : Answers :=
  match failure with
  | some e => ⟨fun _ => .error (observationError e), .error (observationError e)⟩
  | none =>
    ⟨fun offset => (Streams.readStream id key offset s).1.mapError observationError,
      ((getWorkflowStatus id s).1.mapError observationError).map fun row => row.map (·.status)⟩

section Machine

variable {τ : Type} (lib : SerdeJson) (decode : Value → Except String τ) (id key : String)

def start : State τ := ⟨.new, .start, []⟩

def next (s : State τ) : Event → State τ
  | .engine now event =>
    let sys := Lifecycle.next lib s.sys (now, event)
    { s with sys := sys, log := s.log ++ (stream id key sys.store).drop (stream id key s.sys.store).length }
  | .read failure => { s with drain := s.drain.next decode id (answers id key failure s.sys.store) }

abbrev run (events : List Event) : State τ := Runs.run (next lib decode id key) events start

end Machine

abbrev written {τ : Type} (s : State τ) : List Value := s.log.reduceOption

def halted (id : String) (s : Inner) : Bool := (s.workflows.get id).any (·.status.isTerminal)

/-- The call appends a value to the stream. -/
def lands (id key : String) (s : Inner) : Call → Bool
  | .writeStream target stream (some _) => target == id && stream == key && !decide (Closed s id key)
  | .writeStreamFromWorkflow target seq _ stream (some _) =>
    target == id && stream == key && !decide (Closed s id key) && (s.steps.get (id, seq)).isNone
  | _ => false

/-- The producer is run on: its history is not removed or replaced and it is not resumed, and once it has a terminal
status no claim on it is released and no value is appended. -/
def RunsOn (id key : String) (sys : Lifecycle.System) (call : Call) : Prop :=
  id ∉ call.histories sys.store ∧ ¬ Lifecycle.resumes id (.call call) ∧
    (halted id sys.store = true → Lifecycle.Spares id call ∧ lands id key sys.store call = false)

/-- What the reader meets: a stream that fits its offset, and, when it asks for the status, a producer that may still be
claimed or that has a terminal status. -/
def Meets {τ : Type} (id key : String) (s : State τ) : Prop :=
  (stream id key s.sys.store).length < 2 ^ 31 ∧
    (s.drain.checks = true →
      (s.sys.store.workflows.get id).all (fun row => !inactive row.status || row.status.isTerminal) = true)

def Steady {τ : Type} (id key : String) (s : State τ) : Event → Prop
  | .engine _ event =>
    match Lifecycle.effective s.sys event with
    | none => True
    | some call => RunsOn id key s.sys call
  | .read _ => Meets id key s

instance (id : String) (call : Call) : Decidable (Lifecycle.resumes id (.call call)) := by
  apply Call.casesOn (motive := fun call => Decidable (Lifecycle.resumes id (.call call))) call <;> intros <;>
    (dsimp only [Lifecycle.resumes]; infer_instance)

instance (id : String) (call : Call) : Decidable (Lifecycle.Spares id call) := by
  apply Call.casesOn (motive := fun call => Decidable (Lifecycle.Spares id call)) call <;> intros <;>
    (dsimp only [Lifecycle.Spares]; infer_instance)

instance (id key : String) (sys : Lifecycle.System) (call : Call) : Decidable (RunsOn id key sys call) :=
  inferInstanceAs (Decidable (_ ∧ _ ∧ _))

instance {τ : Type} (id key : String) (s : State τ) (event : Event) : Decidable (Steady id key s event) :=
  match event with
  | .engine _ event =>
    match made : Lifecycle.effective s.sys event with
    | none => .isTrue (by simp [Steady, made])
    | some call => decidable_of_iff (RunsOn id key s.sys call) (by simp [Steady, made])
  | .read _ => inferInstanceAs (Decidable (_ ∧ _))

section Calls

variable {lib : SerdeJson} {now : DateTime} {call : Call} {s : Inner} {id key : String}

theorem stream_appended (target other : String) (value : Option Value) :
    stream id key (Streams.appended target other value s) =
      if (id, key) = (target, other) then stream id key s ++ [value] else stream id key s := by
  unfold stream Streams.appended
  by_cases here : (id, key) = (target, other)
  · cases here
    simp
  · simp [here]

/-- A call that is not over the history leaves the stream or appends one entry to it while it is open, and a value only
where it lands. -/
theorem step_entries (lib : SerdeJson) (now : DateTime) (kept : id ∉ call.histories s) :
    stream id key (step lib s (now, call)) = stream id key s ∨
      ¬ Closed s id key ∧ ∃ entry, stream id key (step lib s (now, call)) = stream id key s ++ [entry] ∧
        (entry.isSome = true → lands id key s call = true) := by
  have appending {target other : String} {value : Option Value} (open_ : ¬ Closed s target other)
      (landed : target = id → other = key → value.isSome = true → lands id key s call = true) :
      stream id key (Streams.appended target other value s) = stream id key s ∨
        ¬ Closed s id key ∧
          ∃ entry, stream id key (Streams.appended target other value s) = stream id key s ++ [entry] ∧
          (entry.isSome = true → lands id key s call = true) := by
    rw [stream_appended]
    split
    next here =>
      cases here
      exact .inr ⟨open_, value, rfl, landed rfl rfl⟩
    · exact .inl rfl
  cases call with
  | writeStream target other value =>
    obtain ⟨open_, pushed⟩ | ⟨e, -, pushed⟩ := Streams.appendStream_cases target other value s
    · have after : step lib s (now, .writeStream target other value) = Streams.appended target other value s :=
        congrArg Prod.snd pushed
      rw [after]
      refine appending open_ ?_
      rintro rfl rfl some_
      obtain ⟨v, rfl⟩ := Option.isSome_iff_exists.mp some_
      simp [lands, open_]
    · have after : step lib s (now, .writeStream target other value) = s := congrArg Prod.snd pushed
      rw [after]
      exact .inl rfl
  | writeStreamFromWorkflow target seq name other value =>
    have after : step lib s (now, .writeStreamFromWorkflow target seq name other value) =
      (writeStreamFromWorkflow now target seq name other value s).2 := rfl
    rw [after]
    unfold writeStreamFromWorkflow
    obtain ⟨row, -, -, found⟩ | ⟨row, present, named, found⟩ | ⟨vacant, found⟩ := recordedAt_eq target seq name s
    · rw [found]
      exact .inl rfl
    · rw [found]
      exact .inl rfl
    · rw [found]
      obtain ⟨open_, pushed⟩ | ⟨e, -, pushed⟩ := Streams.appendStream_cases target other value s
      · rw [pushed]
        refine appending open_ ?_
        rintro rfl rfl some_
        obtain ⟨v, rfl⟩ := Option.isSome_iff_exists.mp some_
        simp [lands, open_, vacant]
      · rw [pushed]
        exact .inl rfl
  | _ => exact .inl (congrArg (·.getD []) (step_stream_unwritten lib now _ s id key kept (by simp) (by simp)))

/-- A call under which the producer is run on leaves its terminal status. -/
theorem step_over {sys : Lifecycle.System} (keyed : Keyed sys.store) (on : RunsOn id key sys call)
    (ended : halted id sys.store = true) : halted id (step lib sys.store (now, call)) = true := by
  obtain ⟨kept, unresumed, quiet⟩ := on
  obtain ⟨row, stored, terminal⟩ := Option.any_eq_true _ _ |>.mp ended
  have move := step_row lib now call sys.store id kept
  rw [stored] at move
  obtain ⟨row', stored', same⟩ | ⟨row', stored', cancelled, -⟩ | ⟨-, resumed⟩ :=
    Lifecycle.move_terminal keyed stored move (quiet ended).1 terminal
  · have status : row'.status = row.status := congrArg (·.1) same
    rw [halted, stored', Option.any_some, status, terminal]
  · rw [halted, stored', Option.any_some, cancelled]
    rfl
  · exact absurd resumed unresumed

end Calls

def live (id key : String) (s : Inner) : Live where
  values := (Streams.readEntries (stream id key s)).1
  shut := (Streams.readEntries (stream id key s)).2
  halted := halted id s

theorem live_of_entries {s : Inner} {id key : String} {values : List Value} {shut : Bool}
    (formed : stream id key s = Streams.entries values shut) : live id key s = ⟨values, shut, halted id s⟩ := by
  unfold live
  rw [formed, Streams.readEntries_entries]

/-- The provider shows the stream as it is. -/
theorem answers_shows {s : Inner} {id key : String} {values : List Value} {shut : Bool} (failure : Option Error)
    (formed : stream id key s = Streams.entries values shut) :
    (answers id key failure s).Shows ⟨values, shut, halted id s⟩ := by
  intro k within reply answered
  cases failure with
  | some e => cases answered
  | none =>
    have offset : (max (k : Int) 0).toNat = k := by omega
    have read : (Streams.readStream id key k s).1 = .ok (values.drop k, shut) := by
      change Except.ok (Streams.readEntries ((stream id key s).drop (max (k : Int) 0).toNat)) = _
      rw [offset, formed, Streams.drop_entries, Streams.readEntries_entries]
      simp only [decide_eq_true within, Bool.and_true]
    simp only [answers, read] at answered
    cases answered
    rfl

theorem answers_tells {s : Inner} {id key : String} {values : List Value} {shut : Bool} (failure : Option Error)
    (known : (s.workflows.get id).all (fun row => !inactive row.status || row.status.isTerminal) = true) :
    (answers id key failure s).Tells ⟨values, shut, halted id s⟩ := by
  intro status answered
  cases failure with
  | some e => cases answered
  | none =>
    have same : (s.workflows.get id).map (·.status) = some status := by
      have read : (answers id key none s).status = .ok ((s.workflows.get id).map (·.status)) := rfl
      rw [read] at answered
      exact Except.ok.inj answered
    obtain ⟨row, stored, rfl⟩ := Option.map_eq_some_iff.mp same
    rw [stored, Option.all_some] at known
    simp only [halted, stored, Option.any_some]
    cases here : row.status <;> simp_all [inactive, Status.isTerminal]

section Runs

variable {τ : Type} {lib : SerdeJson} {decode : Value → Except String τ} {id key : String} {s : State τ}

structure Inv (decode : Value → Except String τ) (id key : String) (s : State τ) : Prop where
  keyed : Keyed s.sys.store
  log : s.log = stream id key s.sys.store
  formed : ∃ values shut, stream id key s.sys.store = Streams.entries values shut
  reads : ∃ failed, s.drain.Keeps decode (live id key s.sys.store) failed

theorem start_inv : Inv decode id key (start : State τ) where
  keyed := by intro id row stored; cases stored
  log := rfl
  formed := ⟨[], false, rfl⟩
  reads := ⟨none, rfl, by simp, [], List.nil_prefix, .nil, rfl⟩

/-- A call of the engine: the stream goes on, and nothing but what it gains is logged. -/
theorem step_onward {sys : Lifecycle.System} {store : Inner} {now : DateTime} {call : Call} {values : List Value}
    {shut : Bool} (keyed : Keyed sys.store) (formed : stream id key sys.store = Streams.entries values shut)
    (on : RunsOn id key sys call) (after : step lib sys.store (now, call) = store) :
    (∃ values' shut', stream id key store = Streams.entries values' shut') ∧
      (live id key sys.store).Onward (live id key store) ∧
      stream id key sys.store <+: stream id key store := by
  have ended := @step_over lib now call id key sys keyed on
  have moved := @step_entries call sys.store id key lib now on.1
  rw [after] at ended moved
  obtain same | ⟨open_, entry, more, landed⟩ := moved
  · have formed' : stream id key store = Streams.entries values shut := same.trans formed
    refine ⟨⟨values, shut, formed'⟩, ?_, same ▸ List.prefix_refl _⟩
    rw [live_of_entries formed, live_of_entries formed']
    exact ⟨List.prefix_refl _, fun _ => rfl, fun still => still, ended⟩
  · have shut_ : shut = false := by
      change closed (stream id key sys.store) ≠ true at open_
      rwa [formed, Streams.closed_entries, ne_eq, Bool.not_eq_true] at open_
    subst shut_
    have prefix_ : stream id key sys.store <+: stream id key store := more ▸ List.prefix_append ..
    rw [formed] at more
    cases entry with
    | none =>
      have formed' : stream id key store = Streams.entries values true := by simp [more, Streams.entries]
      refine ⟨⟨_, _, formed'⟩, ?_, prefix_⟩
      rw [live_of_entries formed, live_of_entries formed']
      exact ⟨List.prefix_refl _, fun _ => rfl, fun _ => rfl, ended⟩
    | some value =>
      have formed' : stream id key store = Streams.entries (values ++ [value]) false := by
        simp [more, Streams.entries]
      refine ⟨⟨_, _, formed'⟩, ?_, prefix_⟩
      rw [live_of_entries formed, live_of_entries formed']
      refine ⟨List.prefix_append .., ?_, fun still => still, ended⟩
      rintro (closed | halted_)
      · cases closed
      · have quiet := (on.2.2 halted_).2
        rw [landed rfl] at quiet
        cases quiet

theorem next_inv (inv : Inv decode id key s) (event : Event) (steady : Steady id key s event) :
    Inv decode id key (next lib decode id key s event) := by
  obtain ⟨keyed, log, ⟨values, shut, formed⟩, failed, reads⟩ := inv
  cases event with
  | read failure =>
    obtain ⟨fits, known⟩ := steady
    rw [live_of_entries formed] at reads
    have within : values.length < 2 ^ 31 := by
      rw [formed, Streams.entries, List.length_append, List.length_map] at fits
      omega
    have stepped : (s.drain.next decode id (answers id key failure s.sys.store)).Keeps decode
        ⟨values, shut, halted id s.sys.store⟩ _ :=
      reads.next_keeps within (answers_shows failure formed)
        fun all offset checking => answers_tells failure (known (by rw [checking]; rfl))
    rw [← live_of_entries formed] at stepped
    exact ⟨keyed, log, ⟨values, shut, formed⟩, _, stepped⟩
  | engine now event =>
    have keyed' := Lifecycle.next_keyed lib s.sys (now, event) keyed
    have after := Lifecycle.next_store lib s.sys now event
    cases made : Lifecycle.effective s.sys event with
    | none =>
      rw [made] at after
      dsimp only at after
      refine ⟨keyed', ?_, ⟨values, shut, ?_⟩, failed, ?_⟩
      · simp only [next, after, List.drop_length, List.append_nil, log]
      · simp only [next, after, formed]
      · simp only [next, after]
        exact reads
    | some call =>
      rw [made] at after
      dsimp only at after
      have on : RunsOn id key s.sys call := by simpa only [Steady, made] using steady
      obtain ⟨formed', onward, grown⟩ := step_onward keyed formed on after.symm
      refine ⟨keyed', ?_, ?_, failed, ?_⟩
      · obtain ⟨more, whole⟩ := grown
        simp only [next, log]
        rw [← whole, List.drop_left]
      · exact formed'
      · exact reads.onward onward

theorem run_returned {result : Except Error (List τ × Bool)} (events : List Event) (done : s.drain = .returned result) :
    (Runs.run (next lib decode id key) events s).drain = .returned result := by
  induction events generalizing s with
  | nil => exact done
  | cons event events ih =>
    apply ih
    cases event with
    | engine now event => exact done
    | read failure =>
      simp only [next, done]
      rfl

/-- What the reader has returned is everything that is ever written, however the run goes on, along runs of a producer
that is run on and is seen either claimable or with a terminal status. -/
theorem returned_all (lib : SerdeJson) (decode : Value → Except String τ) (id key : String) (before after : List Event)
    (steady : Runs.Along (next lib decode id key) (Steady id key) (before ++ after) start) (all : List τ)
    (closed : Bool)
    (returned : (run lib decode id key before).drain = .returned (.ok (all, closed))) :
    Decoded decode (written (run lib decode id key (before ++ after))) all := by
  have inv := Runs.invariant (I := Inv decode id key) (fun _ event steady inv => next_inv inv event steady) steady
    start_inv
  have kept : (run lib decode id key (before ++ after)).drain = .returned (.ok (all, closed)) := by
    rw [run, Runs.run_append]
    exact run_returned after returned
  obtain ⟨values, shut, formed⟩ := inv.formed
  obtain ⟨failed, reads⟩ := inv.reads
  rw [kept, live_of_entries formed] at reads
  have entries : written (run lib decode id key (before ++ after)) = values := by
    rw [written, inv.log, formed]
    cases shut <;> simp [List.reduceOption, Streams.entries]
  rw [entries]
  exact reads.2.2.1

/-- A value that is written right before its producer finishes is returned. -/
theorem finished_returned :
    let before : List Event :=
      [.engine 0 (.call (.insertWorkflowStatus (.new 0 "w" "job" .null .pending "e1" "v1"))), .read none, .read none,
        .engine 1 (.call (.writeStreamFromWorkflow "w" 0 "DBOS.writeStream" "s" (some (.bool true)))), .read none,
        .engine 2 (.call (.setWorkflowStatus "w" .success (some .null) none)), .read none, .read none]
    let after : List Event := [.engine 3 (.call (.writeStream "w" "t" (some .null)))]
    Decoded .ok (written (run (.reading []) .ok "w" "s" (before ++ after))) [Value.bool true] :=
  returned_all (.reading []) .ok "w" "s" _ _ (by decide) [.bool true] true rfl

/-- A producer that is enqueued for later when the reader comes. -/
def delayedProducer : List Event :=
  [.engine 0 (.call (.insertWorkflowStatus
      { WorkflowStatus.new 0 "w" "job" .null .delayed "" "v1" with queueName := some "q", delayUntilMs := some 5 })),
    .read none, .read none, .read none,
    .engine 6 (.call (.transitionDelayedWorkflows 6)),
    .engine 7 (.call (.dequeueWorkflows { queueName := "q", executorId := "e1", appVersion := "v1", maxTasks := 10 })),
    .engine 8 (.call (.writeStreamFromWorkflow "w" 0 "DBOS.writeStream" "s" (some (.bool true))))]

/-- The reader takes the delayed producer for an inactive one, and misses its value. -/
theorem delayed_missed :
    ¬ ∀ (before after : List Event), before ++ after = delayedProducer → ∀ (all : List Value) (closed : Bool),
      (run (.reading []) .ok "w" "s" before).drain = .returned (.ok (all, closed)) →
      Decoded .ok (written (run (.reading []) .ok "w" "s" (before ++ after))) all := by
  intro complete
  have missed := complete (delayedProducer.take 4) (delayedProducer.drop 4) rfl [] true rfl
  have landed : written (run (.reading []) (.ok : Value → Except String Value) "w" "s"
      (delayedProducer.take 4 ++ delayedProducer.drop 4)) = [.bool true] := by decide
  rw [landed] at missed
  cases missed

end Runs

end Durare.StreamReads

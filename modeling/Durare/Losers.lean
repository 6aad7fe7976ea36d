import Durare.Latch

/-! An execution that has lost the race for a checkpoint. Its body may go on, as nothing is latched; what it still
does then depends on the calls that it polls and on how its future is left. -/
namespace Durare.Latch

open Interaction Memory Execution

section Lost

variable {δ : Type} {ctx : Context}

def reads : Call → Bool
  | .getDeduplicatedWorkflow _ _ | .getWorkflowStatus _ | .getStepResult _ _ | .getEventValue _ _
  | .checkChildWorkflow _ _ | .getStepName _ _ => true
  | _ => false

/-- A provider write, or a closure of the body. -/
def effect : Ask → Bool
  | .call c => !reads c
  | .body _ _ | .race _ => true
  | _ => false

/-- A durable call of the running execution has returned a conflict on its own workflow. -/
def Lost (ctx : Context) (s : Run δ) : Prop :=
  s.closing = none ∧ ∃ call ∈ s.calls, call.rest = .done (.error (.workflowConflict ctx.workflowId))

def Idle (s t : Run δ) : Prop :=
  t.finals = s.finals ∧ ∃ more, t.begun = s.begun ++ more ∧ ∀ q ∈ more, effect q = false

def Recorded : (q : Ask) → Ask.Reply δ q → Prop
  | .call (.getStepResult _ _), reply => ∃ row, reply = .ok (some row)
  | _, _ => True

/-- As long as its checkpoint is there the call only reads, whatever else it is answered, and what it returns has
the property. -/
def Served {α : Type} (P : α → Prop) : Client Ask (Ask.Reply δ) (Except Error α) → Prop
  | .done (.ok a) => P a
  | .ask q k => effect q = false ∧ ∀ reply, Recorded q reply → Served P (k reply)
  | _ => True

/-- Every answer of the poll gives the call its recorded row. -/
def Replays (moves : List (Move δ)) : Prop := ∀ reply, .answer reply ∈ moves → ∀ q, Recorded q (reply q)

/-- The body does no fresh work: it polls calls that are refused or served from their records, and its future is left
with a conflict, by a panic, or after an interruption. -/
def Yields (s : Run δ) : Event δ → Prop
  | .poll i moves =>
    s.latch.isSome = true ∨ ∀ call, s.calls[i]? = some call → Served (fun _ => True) call.rest ∧ Replays moves
  | .leave (.returned (.error (.workflowConflict _))) _ => True
  | .leave (.panicked _) _ => True
  | .leave _ _ => s.latch.isSome = true
  | _ => True

/-- No answer leads to a status write. -/
def Silent {α : Type} : Client Ask (Ask.Reply δ) α → Prop
  | .ask q k => statusWrite q = [] ∧ ∀ reply, Silent (k reply)
  | _ => True

theorem Silent.bind {α β : Type} {c : Client Ask (Ask.Reply δ) α} {f : α → Client Ask (Ask.Reply δ) β}
    (first : Silent c) (rest : ∀ a, Silent (f a)) : Silent (c.bind f) := by
  induction c with
  | done a => exact rest a
  | ask q k ih => exact ⟨first.1, fun reply => ih reply (first.2 reply)⟩
  | halt => trivial

theorem Silent.act {α β : Type} {act : Act δ α} {f : α → Act δ β} (first : Silent act) (rest : ∀ a, Silent (f a)) :
    Silent (act >>= f : Act δ β) := by
  refine Silent.bind first ?_
  intro result
  cases result with
  | ok a => exact rest a
  | error e => trivial

theorem act_get_silent {q : Ask} (none : statusWrite q = []) : Silent (Act.get q : Act δ (q.Reply δ)) :=
  ⟨none, fun _ => trivial⟩

theorem observed_silent {α : Type} (result : Except Error α) : Silent (Context.observed result : Act δ α) := trivial

theorem adoptRecordedOutcome_silent (rounds : Nat) : Silent (adoptRecordedOutcome ctx rounds : Act δ Value) := by
  induction rounds with
  | zero => trivial
  | succ rounds ih =>
    refine Silent.act (act_get_silent rfl) fun read => ?_
    refine Silent.act (observed_silent read) fun found => ?_
    cases found with
    | none => trivial
    | some status =>
      dsimp only
      split
      · trivial
      · trivial
      · trivial
      · exact Silent.act (observed_silent _) fun error => trivial
      · exact Silent.act (act_get_silent rfl) fun _ => ih

theorem check_silent {f : Unit → Act δ Value} (rest : Silent (f ())) :
    Silent ((Context.check : Act δ Unit) >>= f : Act δ Value) := by
  refine Silent.act (Silent.act (act_get_silent rfl) fun latch => ?_) fun _ => rest
  cases latch <;> trivial

/-- A lost race ends with the recorded outcome of the winner: the loser only reads. -/
theorem conclude_conflict_silent (rounds : Nat) (id : String) :
    Silent (conclude ctx rounds (.returned (.error (.workflowConflict id))) : Act δ Value) :=
  check_silent (adoptRecordedOutcome_silent rounds)

theorem conclude_panicked_silent (rounds : Nat) (message : String) :
    Silent (conclude ctx rounds (.panicked message) : Act δ Value) := check_silent trivial

/-- The asks begun after the loss are no effects. -/
def Harmless (before after : List Ask) : Prop := ∃ more, after = before ++ more ∧ ∀ q ∈ more, effect q = false

theorem Harmless.refl (begun : List Ask) : Harmless begun begun := ⟨[], by simp, by simp⟩

theorem Harmless.trans {a b c : List Ask} (first : Harmless a b) (second : Harmless b c) : Harmless a c := by
  obtain ⟨more, rfl, quiet⟩ := first
  obtain ⟨rest, rfl, quiet'⟩ := second
  refine ⟨more ++ rest, List.append_assoc .., fun q member => ?_⟩
  exact (List.mem_append.mp member).elim (quiet q) (quiet' q)

section Serving

variable {α β : Type} {P : α → Prop} {Q : β → Prop}

theorem Served.bind {c : Client Ask (Ask.Reply δ) (Except Error α)} {f : α → Act δ β} (first : Served P c)
    (rest : ∀ a, P a → Served Q (f a)) : Served Q (Act.bind c f) := by
  induction c with
  | done result =>
    cases result with
    | ok a => exact rest a first
    | error e => trivial
  | ask q k ih => exact ⟨first.1, fun reply recorded => ih reply (first.2 reply recorded)⟩
  | halt => trivial

theorem get_served {q : Ask} (quiet : effect q = false) : Served (Recorded q) (Act.get q : Act δ (q.Reply δ)) :=
  ⟨quiet, fun _ recorded => recorded⟩

theorem record_served (e : Error) : Served P (Context.record e : Act δ α) := by
  unfold Context.record
  split
  · exact ⟨rfl, fun _ _ => trivial⟩
  · trivial

theorem storage_served {result : Except Error α} (given : ∀ a, result = .ok a → P a) :
    Served P (Context.storage result : Act δ α) := by
  cases result with
  | ok a => exact given a rfl
  | error e => exact record_served e

theorem argument_served (result : Except Error α) : Served (fun _ => True) (Act.ofExcept result : Act δ α) := by
  cases result <;> trivial

theorem checkRecorded_served (seq : Int) (expected recorded : String) :
    Served (fun _ => True) (ctx.checkRecorded seq expected recorded : Act δ Unit) := by
  unfold Context.checkRecorded
  split <;> trivial

theorem recordedValue_served (codec : Codec α) (outcome : StepOutcome) :
    Served (fun _ => True) (ctx.recordedValue codec outcome : Act δ α) := by
  cases outcome with
  | output value =>
    exact argument_served (serdeResult (codec.fromValue value))
  | failure message info => exact Served.bind (storage_served fun _ _ => trivial) fun error _ => trivial

theorem read_served (id : String) (seq : Int) :
    Served (fun found => found.isSome = true) (Context.call (.getStepResult id seq) : Act δ (Option RecordedStep)) := by
  refine Served.bind (get_served rfl) fun reply recorded => storage_served fun found same => ?_
  obtain ⟨step, here⟩ := recorded
  rw [here] at same
  cases same
  rfl

/-- The gate of a durable call lets nothing pass but the recorded value. -/
theorem serveRecorded_served (seq : Int) (expected : String) (codec : Codec α) :
    Served (fun found => found.isSome = true) (ctx.serveRecorded seq expected codec : Act δ (Option α)) := by
  refine Served.bind (read_served ctx.workflowId seq) fun found there => ?_
  obtain ⟨step, rfl⟩ := Option.isSome_iff_exists.mp there
  exact Served.bind (checkRecorded_served seq expected step.name) fun _ _ =>
    Served.bind (recordedValue_served codec step.outcome) fun _ _ => rfl

theorem serve_served {seq : Int} {expected : String} {codec : Codec α} {f : Option α → Act δ β}
    (rest : ∀ a, Served Q (f (some a))) : Served Q (ctx.serveRecorded seq expected codec >>= f : Act δ β) := by
  refine Served.bind (serveRecorded_served seq expected codec) fun found there => ?_
  obtain ⟨a, rfl⟩ := Option.isSome_iff_exists.mp there
  exact rest a

theorem replay_served {seq : Int} {expected : String} {codec : Codec α} {f : Option α → Act δ β}
    (rest : ∀ a, Served Q (f (some a))) : Served Q (ctx.replayOrGuard seq expected codec >>= f : Act δ β) := by
  have gate : Served (fun found => found.isSome = true) (ctx.replayOrGuard seq expected codec : Act δ (Option α)) :=
    serve_served fun a => rfl
  refine Served.bind gate fun found there => ?_
  obtain ⟨a, rfl⟩ := Option.isSome_iff_exists.mp there
  exact rest a

/-- Every durable call is served from its record. -/
theorem run_served (op : Op δ) (rounds : Nat) (seq : Int) :
    Served (fun _ => True) (op.run ctx rounds seq : Act δ (Reply δ)) := by
  cases op with
  | step | stepWith | select | recv | getEvent =>
    exact Served.bind (P := fun _ => True) (replay_served fun a => trivial) fun _ _ => trivial
  | now | uuid | random =>
    exact Served.bind (P := fun _ => True) (serve_served fun a => trivial) fun _ _ => trivial
  | sleep span =>
    have wake : Served (fun _ => True)
        (ctx.durableValueAt seq "DBOS.sleep" (Context.wakeInstant span) ctx.builtins.instants : Act δ DateTime) :=
      serve_served fun a => trivial
    refine Served.bind (P := fun _ => True) ?_ fun _ _ => trivial
    refine Served.bind wake fun wakeAt _ => Served.bind (P := fun _ => True) (get_served rfl) fun now _ => ?_
    split
    · exact ⟨rfl, fun _ _ => trivial⟩
    · trivial
  | setWorkflowAttributes | closeStream =>
    exact Served.bind (P := fun _ => True) (replay_served fun a => trivial) fun _ _ => trivial
  | send _ _ value | setEvent _ value | writeStream _ value =>
    refine Served.bind (argument_served (serdeResult value)) fun value _ => ?_
    exact Served.bind (P := fun _ => True) (replay_served fun a => trivial) fun _ _ => trivial
  | sendBulk messages =>
    refine Served.bind (argument_served (prepareBulk messages)) fun rows _ => ?_
    exact Served.bind (P := fun _ => True) (replay_served fun a => trivial) fun _ _ => trivial
  | startWorkflow name input opts =>
    refine Served.bind (argument_served (serdeResult input)) fun input _ => ?_
    refine Served.bind (P := fun _ => True) ?_ fun _ _ => trivial
    refine Served.bind (P := fun _ => True) ⟨rfl, fun reply _ => storage_served fun _ _ => trivial⟩ fun child _ => ?_
    cases child with
    | some link => exact Served.bind (checkRecorded_served seq name link.2) fun _ _ => trivial
    | none =>
      refine Served.bind (read_served ctx.workflowId seq) fun found there => ?_
      obtain ⟨step, rfl⟩ := Option.isSome_iff_exists.mp there
      exact Served.bind (checkRecorded_served seq name step.name) fun _ _ =>
        Served.bind (recordedValue_served .value step.outcome) fun _ _ => trivial

/-- A poll that answers with the record begins nothing but reads. -/
theorem move_served {p : Poll δ} {move : Move δ} (served : Served (fun _ => True) p.call.rest)
    (recorded : ∀ reply, move = .answer reply → ∀ q, Recorded q (reply q)) :
    Served (fun _ => True) (p.move move).call.rest ∧ Harmless p.begun (p.move move).begun := by
  have begins {q : Ask} (quiet : effect q = false) : Harmless p.begun (p.begins q) := by
    unfold Poll.begins
    split
    · exact .refl _
    · exact ⟨[q], rfl, by simpa using quiet⟩
  cases move with
  | observe cause => exact ⟨served, .refl _⟩
  | start =>
    cases here : p.call.rest with
    | ask q k =>
      simp only [Poll.move, here] at served ⊢
      exact ⟨served, begins served.1⟩
    | done | halt =>
      simp only [Poll.move, here] at served ⊢
      exact ⟨served, .refl _⟩
  | answer reply =>
    cases here : p.call.rest with
    | ask q k =>
      simp only [Poll.move, here] at served ⊢
      refine ⟨served.2 _ ?_, begins served.1⟩
      have given := recorded reply rfl q
      cases q with
      | check | interrupt => trivial
      | _ => exact given
    | done | halt =>
      simp only [Poll.move, here] at served ⊢
      exact ⟨served, .refl _⟩

theorem moves_served {moves : List (Move δ)} {p : Poll δ} (served : Served (fun _ => True) p.call.rest)
    (replays : Replays moves) : Harmless p.begun (moves.foldl Poll.move p).begun := by
  induction moves generalizing p with
  | nil => exact .refl _
  | cons move rest ih =>
    have recorded (reply) (same : move = .answer reply) := replays reply (by simp [same])
    obtain ⟨after, quiet⟩ := move_served served recorded
    exact quiet.trans (ih after fun reply member => replays reply (List.mem_cons_of_mem _ member))

theorem poll_yields {s : Run δ} {i : Nat} {moves : List (Move δ)} {call : Pending δ} (here : s.calls[i]? = some call)
    (yields : Yields s (.poll i moves)) : Harmless s.begun (poll call moves s).begun := by
  unfold poll
  cases latched : s.latch with
  | some cause => exact .refl _
  | none =>
    obtain stopped | served := yields
    · simp [latched] at stopped
    · obtain ⟨served, replays⟩ := served call here
      exact moves_served (p := ⟨none, call, s.begun⟩) served replays

/-- A poll of a durable call whose record is there is no fresh work. -/
theorem yields_replayed {s : Run δ} {i : Nat} {moves : List (Move δ)} {op : Op δ} {rounds : Nat} {seq : Int}
    {latch : Option Error} (here : s.calls[i]? = some (build ctx (.op op rounds seq) latch)) (replays : Replays moves) :
    Yields s (.poll i moves) := by
  refine .inr fun call same => ⟨?_, replays⟩
  rw [here] at same
  cases same
  unfold build
  dsimp only
  split
  · exact run_served op rounds seq
  · trivial

end Serving

/-- After the loss: nothing begun but reads, and whatever is left of the run writes no status. -/
structure Yielded (lost s : Run δ) : Prop where
  begun : Harmless lost.begun s.begun
  finals : s.finals = lost.finals
  left : ∀ rest, s.closing = some rest → Silent rest ∨ ∃ cause, s.latch = some cause ∧ Closing cause rest

theorem Yielded.close {lost s : Run δ} {q : Ask} {k : Ask.Reply δ q → Client Ask (Ask.Reply δ) (Except Error Value)}
    (yielded : Yielded lost s) (here : s.closing = some (.ask q k)) (reply : (q : Ask) → Ask.Reply δ q) :
    Yielded lost (next ctx s (.close reply)) := by
  have after : next ctx s (.close reply) =
      { s with
        latch := latchAfter s.latch q
        closing := some (k (respond s.latch reply q))
        finals := s.finals ++ statusWrite q } := by
    simp only [next, here]
  rw [after]
  have quiet : statusWrite q = [] := by
    obtain silent | ⟨cause, -, closing⟩ := yielded.left _ here
    · exact silent.1
    · exact (closing.close reply).2.1
  refine ⟨yielded.begun, by rw [← yielded.finals, quiet, List.append_nil], ?_⟩
  rintro rest same
  cases same
  obtain silent | ⟨cause, latched, closing⟩ := yielded.left _ here
  · exact .inl (silent.2 _)
  · right
    obtain ⟨kept, -, later⟩ := closing.close reply
    exact ⟨cause, by rw [latched]; exact kept, by rw [latched]; exact later⟩

theorem next_yielded {lost : Run δ} (s : Run δ) (event : Event δ) (yields : Yields s event)
    (yielded : Yielded lost s) : Yielded lost (next ctx s event) := by
  cases closing : s.closing with
  | some rest =>
    cases event with
    | close reply =>
      cases rest with
      | ask q k => exact yielded.close closing reply
      | done result | halt => simpa only [next, closing] using yielded
    | observe cause =>
      obtain ⟨begun, finals, left⟩ := yielded
      refine ⟨begun, finals, fun rest here => (left rest here).imp id ?_⟩
      rintro ⟨first, latched, closing⟩
      exact ⟨first, by simp [next, latched], closing⟩
    | build | poll | drop | leave | failed => simpa only [next, closing] using yielded
  | none =>
    obtain ⟨begun, finals, -⟩ := yielded
    cases event with
    | poll i moves =>
      simp only [next, closing]
      split
      · exact ⟨begun, finals, fun rest same => by rw [closing] at same; cases same⟩
      next call here =>
        exact ⟨begun.trans (poll_yields here yields), finals, fun rest same => by cases same⟩
    | build work =>
      simp only [next, closing]
      exact ⟨begun, finals, fun rest same => by cases same⟩
    | drop i =>
      simp only [next, closing]
      exact ⟨begun, finals, fun rest same => by cases same⟩
    | observe cause =>
      exact ⟨begun, finals, fun rest same => by simp only [next] at same; rw [closing] at same; cases same⟩
    | leave ending rounds =>
      simp only [next, closing]
      refine ⟨begun, finals, ?_⟩
      rintro rest same
      cases same
      unfold Yields at yields
      split at yields
      next impossible => cases impossible
      next id again same => cases same; exact .inl (conclude_conflict_silent ..)
      next message again same => cases same; exact .inl (conclude_panicked_silent ..)
      next =>
        obtain ⟨cause, latched⟩ := Option.isSome_iff_exists.mp yields
        exact .inr ⟨cause, latched, conclude_closing _ _ cause⟩
      next other => exact absurd rfl (other ending rounds)
    | failed rounds =>
      cases latched : s.latch with
      | none =>
        simp only [next, closing, latched]
        exact ⟨begun, finals, fun rest same => by rw [closing] at same; cases same⟩
      | some cause =>
        simp only [next, closing, latched]
        refine ⟨begun, finals, ?_⟩
        rintro rest same
        cases same
        exact .inr ⟨cause, rfl, conclude_closing _ _ cause⟩
    | close reply =>
      simp only [next, closing]
      exact ⟨begun, finals, fun rest same => by rw [closing] at same; cases same⟩

/-- An execution that lost a checkpoint race and whose body does no fresh work begins no closure, no provider write
and no terminal status. -/
theorem loser_stops (name : String) (required : Option (List String)) (rounds : Nat)
    (before after : List (Event δ)) (lost : Lost ctx (run ctx before (launch ctx name required rounds)))
    (yields : Runs.Along (next ctx) Yields after (run ctx before (launch ctx name required rounds))) :
    Idle (run ctx before (launch ctx name required rounds))
      (run ctx (before ++ after) (launch ctx name required rounds)) := by
  have start : Yielded (run ctx before (launch ctx name required rounds : Run δ))
      (run ctx before (launch ctx name required rounds)) :=
    ⟨.refl _, rfl, fun rest same => by rw [lost.1] at same; cases same⟩
  have yielded := Runs.invariant next_yielded yields start
  rw [run, run, Runs.run_append]
  exact ⟨yielded.finals, yielded.begun⟩

end Lost

/-- A provider on which a rival has just recorded the step. -/
def taken : (q : Ask) → Ask.Reply Value q
  | .call (.getStepResult _ _) => .ok none
  | .call (.getWorkflowStatus _) => .ok none
  | .call _ => .error (.workflowConflict "w")
  | .now => 0
  | .fresh => ""
  | .random => .posInt 0
  | .body _ _ => .returned (.ok .null)
  | .race _ => none
  | .wait => ()
  | .check => .ok ()
  | .interrupt cause => cause

/-- A step runs its body and loses the race for its checkpoint. -/
def outrun : List (Event Value) :=
  [.build (.op (.step "charge" .value) 1 0), .poll 0 (List.replicate 6 (.answer taken))]

/-- The body returns the conflict, and the run takes over the outcome of the winner. -/
def surrender :
    List (Event Value) := [.leave (.returned (.error (.workflowConflict "w"))) 1, .close taken, .close taken]

theorem loser_stops_surrender :
    (run .plain outrun (launch .plain "job" none 1)).begun =
      [.call (.getStepResult "w" 0), .call (.getWorkflowStatus "w"), .now, .body 0 0, .check,
        .call (.recordStepResult "w" 0 "charge" .null none (some 0) (some "e1"))] ∧
      (run .plain (outrun ++ surrender) (launch .plain "job" none 1)).result =
        some (.error (.nonExistentWorkflow "w")) ∧
      Idle (run .plain outrun (launch .plain "job" none 1))
        (run .plain (outrun ++ surrender) (launch .plain "job" none 1)) :=
  ⟨rfl, rfl, loser_stops "job" none 1 outrun surrender ⟨rfl, _, List.mem_singleton.mpr rfl, rfl⟩
    ⟨trivial, trivial, trivial, trivial⟩⟩

/-- A body that catches the conflict goes on to run the next step. -/
theorem loser_runs_on : ¬ ∀ (before after : List (Event Value)),
    Lost .plain (run .plain before (launch .plain "job" none 1)) →
      Idle (run .plain before (launch .plain "job" none 1))
        (run .plain (before ++ after) (launch .plain "job" none 1)) := by
  intro stops
  have idle := stops outrun [.build (.op (.step "ship" .value) 1 1), .poll 1 (List.replicate 4 (.answer taken))]
    ⟨rfl, _, List.mem_singleton.mpr rfl, rfl⟩
  obtain ⟨-, more, begun, harmless⟩ := idle
  have ran : Ask.body 1 0 ∈ more := by
    have counted : (run .plain outrun (launch .plain "job" none 1)).begun ++
        [.call (.getStepResult "w" 1), .call (.getWorkflowStatus "w"), .now, .body 1 0] =
        (run .plain outrun (launch .plain "job" none 1)).begun ++ more := begun
    rw [← List.append_cancel_left counted]
    simp
  exact absurd (harmless _ ran) (by decide)

end Durare.Latch

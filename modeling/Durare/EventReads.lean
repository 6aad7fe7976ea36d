import Durare.Serving

/-! Reading an event and replaying the reading. The first execution decodes the value as a `T`
and wraps it, a replay decodes the recorded value as an `Option<T>`: the two part on null. -/
namespace Durare.EventReads

open Interaction Memory Execution

variable {δ : Type} {ctx : Context} {seq : Int} {target key : String} {timeout : Duration} {codec : Codec δ}

/-- Whenever the call reads the event, it is not set or its value is `v`. -/
def Shows (target key : String) (v : Value) (_ : Input δ) (s : Inner) (q : Ask) : Prop :=
  q = .call (.getEventValue target key) → s.events.get (target, key) = none ∨ s.events.get (target, key) = some v

/-- There is a row at the position, and every execution that finds it there returns `result`. -/
def Replayed (ctx : Context) (seq : Int) (op : Op δ) (result : Outcome δ) (t : State) : Prop :=
  ∃ row, Stands ctx seq row t ∧ ∀ rounds t', Stands ctx seq row t' → t'.2 = none →
    Gives ctx (fun again _ => again = result) (op.run ctx rounds seq) 4 t'

/-- The first execution of a call hands over what every replay hands over. -/
def Faithful (ctx : Context) (seq : Int) (op : Op δ) (proper : Input δ → Inner → Ask → Prop) : Prop :=
  ∀ rounds s result t, Live ctx seq op s → Ran (world ctx proper) (op.run ctx rounds seq) s result t →
    Replayed ctx seq op result t

/-- A value that is not null is read back as it was first decoded. -/
theorem faithful_of_filled {v : Value} (filled : v ≠ .null) :
    Faithful ctx seq (.getEvent target key timeout codec) (Shows target key v) := by
  intro rounds s result t live ran
  have seen : ∀ (input : Input δ) s, Shows target key v input s (.call (.getEventValue target key)) →
      s.events.get (target, key) ≠ some .null := by
    intro input s shows null
    rcases shows rfl with unset | there
    · rw [unset] at null
      cases null
    · rw [there] at null
      exact filled (Option.some.inj null)
  have reads : Does ctx (Shows target key v) seq _ _ (ctx.getEvent rounds seq target key timeout codec) s :=
    getEvent_served (fun s => rfl) rfl rfl rounds target key seen timeout codec live.toReady
  let op : Op δ := .getEvent target key timeout codec
  have whole : Does ctx (Shows target key v) seq op (Served ctx seq op (replay ctx seq op)) (op.run ctx rounds seq) s := by
    refine Does.bind (fun _ => served_stable) reads ?_ ?_
    · rintro message s ⟨row, holds, same⟩
      refine Does.pure served_stable ⟨row, holds, ?_⟩
      simp only [op, replay, ← same]
      rfl
    · rintro e s ⟨row, holds, same⟩
      refine ⟨row, holds, ?_⟩
      simp only [op, replay, ← same]
      rfl
  obtain ⟨row, holds, same⟩ := whole.ran ran
  refine ⟨row, holds.1, ?_⟩
  intro rounds t' stands unlatched
  rw [same]
  exact recorded_gives rounds rfl holds.2 unlatched stands

/-- A workflow that runs for the first time, and an event that is null. -/
def nullEvent (ctx : Context) (target key : String) : Inner :=
  { Inner.new.putRow ctx.workflowId (.new 0 ctx.workflowId "job" .null .pending "e1" "v1") with
    events := Table.empty.put (target, key) .null }

theorem nullEvent_live (op : Op δ) : Live ctx seq op (nullEvent ctx target key, none) := by
  refine ⟨⟨⟨_, by simp [nullEvent]; rfl, by simp [WorkflowStatus.new]⟩, rfl, ?_, ?_⟩, rfl⟩
  · exact fun row present => by cases present
  · exact fun _ row present => by cases present

def nullRow : StepRow := checkpointRow 0 "DBOS.getEvent" .null none none

/-- The reading of a null event: the value decodes as a `T` or does not. -/
theorem nullEvent_ran : Ran (world ctx (Shows target key .null))
    (Op.run ctx 1 seq (.getEvent target key timeout codec)) (nullEvent ctx target key, none)
    ((serdeResult (codec.fromValue .null)).map fun value => .message (some value))
    (refreshExecutor ctx.workflowId (some ctx.rt.executorId)
      ((nullEvent ctx target key).putStep ctx.workflowId seq nullRow), none) := by
  have here : ∀ s, Rely ctx.workflowId s s := Rely.refl ctx.workflowId
  have plain : ∀ (c : Call) s, c ≠ .getEventValue target key → Shows target key .null ({} : Input δ) s (.call c) := by
    rintro c s other same
    cases same
    exact absurd rfl other
  let row : WorkflowStatus := .new 0 ctx.workflowId "job" .null .pending "e1" "v1"
  have stored : (nullEvent ctx target key).workflows.get ctx.workflowId = some row := by simp [nullEvent, row]
  have event : (nullEvent ctx target key).events.get (target, key) = some .null := by simp [nullEvent]
  -- The gate finds nothing, the workflow may run, and the event is read and recorded.
  have vacant : (world ctx (Shows (δ := δ) target key .null)).serves (.call (.getStepResult ctx.workflowId seq))
      (nullEvent ctx target key, none) (.ok none) (nullEvent ctx target key, none) := ⟨{}, plain _ _ (by simp), rfl⟩
  have running : (world ctx (Shows (δ := δ) target key .null)).serves (.call (.getWorkflowStatus ctx.workflowId))
      (nullEvent ctx target key, none) (.ok (some row)) (nullEvent ctx target key, none) :=
    ⟨{}, plain _ _ (by simp), by simp [answer, exec, getWorkflowStatus, stored]⟩
  have read : (world ctx (Shows (δ := δ) target key .null)).serves (.call (.getEventValue target key))
      (nullEvent ctx target key, none) (.ok (some .null)) (nullEvent ctx target key, none) :=
    ⟨{}, fun _ => .inr event, by simp [answer, exec, getEventValue, event]⟩
  refine .ask (here _) vacant ?_
  refine .ask (here _) running ?_
  refine .ask (here _) read ?_
  refine .ask (here _) ⟨{}, plain _ _ (by simp), rfl⟩ ?_
  have ends : ∀ (x : Except Error δ) s, Ran (world ctx (Shows (δ := δ) target key .null))
      (Act.bind (Act.bind (.ofExcept x) fun value => (pure (some value) : Act δ (Option δ))) fun message =>
        (pure (.message message) : Act δ (Reply δ))) s (x.map fun value => .message (some value)) s := by
    intro x s
    have stays : (world ctx (Shows (δ := δ) target key .null)).rely s s := here s
    cases x with
    | ok value => exact .done stays
    | error e => exact .done stays
  exact ends (serdeResult (codec.fromValue .null)) _

/-- A null event is handed over as a value or a decoding error, and replayed as no event. -/
theorem null_unfaithful : ¬ Faithful ctx seq (.getEvent target key timeout codec) (Shows target key .null) := by
  intro faithful
  obtain ⟨row, stands, again⟩ := faithful 1 _ _ _ (nullEvent_live _) nullEvent_ran
  have same : row = nullRow := by
    have stored : Stands ctx seq nullRow (refreshExecutor ctx.workflowId (some ctx.rt.executorId)
        ((nullEvent ctx target key).putStep ctx.workflowId seq nullRow), none) := by simp [Stands]
    exact Option.some.inj (stands.symm.trans stored)
  subst same
  have first := again 1 _ stands rfl
  have total : ∀ q s, ∃ r s', (world ctx (anyAnswer (δ := δ))).serves q s r s' :=
    fun q s => ⟨_, _, {}, trivial, rfl⟩
  obtain ⟨result, t, ran⟩ := first.runs total
  have handed := first.ran ran
  have replayed := (recorded_gives 1 rfl rfl rfl stands).ran ran
  rw [handed] at replayed
  revert replayed
  simp only [replay, recorded, stepRowOutcome, nullRow, checkpointRow, Codec.optional]
  cases codec.fromValue .null <;> simp [serdeResult, Except.map, Except.mapError, Value.isNull]

/-- Replay fidelity of `get_event`: it holds exactly for the values that are not null. -/
theorem getEvent_faithful_iff (ctx : Context) (seq : Int) (target key : String) (timeout : Duration)
    (codec : Codec δ) (v : Value) :
    Faithful ctx seq (.getEvent target key timeout codec) (Shows target key v) ↔ v ≠ .null := by
  constructor
  · rintro faithful rfl
    exact null_unfaithful faithful
  · exact faithful_of_filled

/-- A JSON value is requested and null is set: it is handed over as a value and replayed as none. -/
theorem null_event_replays_none :
    ¬ Faithful .plain 0 (.getEvent "a" "k" 0 Codec.value) (Shows "a" "k" .null) ∧
    ∃ t, Ran (world .plain (Shows "a" "k" .null)) (Op.run .plain 1 0 (.getEvent "a" "k" 0 Codec.value))
        (nullEvent .plain "a" "k", none) (.ok (.message (some .null))) t ∧
      Gives .plain (fun again _ => again = .ok (.message none)) (Op.run .plain 1 0 (.getEvent "a" "k" 0 Codec.value)) 4 t := by
  refine ⟨null_unfaithful, _, nullEvent_ran, ?_⟩
  have stands : Stands .plain 0 nullRow (refreshExecutor "w" (some "e1")
      ((nullEvent .plain "a" "k").putStep "w" 0 nullRow), none) := by
    simp [Stands, Context.plain]
  have replayed : Gives .plain _ (Op.run .plain 1 0 (.getEvent "a" "k" 0 Codec.value)) 4 _ :=
    recorded_gives 1 rfl rfl rfl stands
  exact replayed

end Durare.EventReads

import Durare.Positions

/-! A call whose row stands at its position is served from it: it returns after a few asks what
the row replays, whatever the others do. -/
namespace Durare.Execution

open Interaction Memory

variable {δ α β : Type} {ctx : Context} {seq : Int} {row : StepRow}

def anyAnswer (_ : Input δ) (_ : Inner) (_ : Ask) : Prop := True

instance (input : Input δ) (store : Inner) (q : Ask) : Decidable (anyAnswer input store q) :=
  inferInstanceAs (Decidable True)

/-- The call ends within so many asks as `post` says. -/
abbrev Gives (ctx : Context) (post : Except Error α → State → Prop) (act : Act δ α) (n : Nat) (s : State) : Prop :=
  Returns (world ctx (anyAnswer (δ := δ))) post act n s

/-- The row stands at the position. -/
def Stands (ctx : Context) (seq : Int) (row : StepRow) (s : State) : Prop :=
  s.1.steps.get (ctx.workflowId, seq) = some row

theorem Gives.bind {post : Except Error α → State → Prop} {goal : Except Error β → State → Prop} {act : Act δ α}
    {f : α → Act δ β} {n m : Nat} {s : State} (first : Gives ctx post act n s)
    (rest : ∀ a s, post (.ok a) s → Gives ctx goal (f a) m s)
    (fail : ∀ e s s', post (.error e) s → Rely ctx.workflowId s s' → goal (.error e) s') :
    Gives ctx goal (act >>= f) (n + m) s := by
  refine Returns.bind first ?_
  intro result s reached
  cases result with
  | ok a => exact rest a s reached
  | error e => exact fun s' moved => fail e s s' reached moved

/-- A read of the store while the row stands. -/
theorem read_gives {c : Call} (reply : c.Reply) {s : State} (unlatched : s.2 = none) (stands : Stands ctx seq row s)
    (reads : ∀ (s : State) now, Stands ctx seq row s → exec ctx.lib now c s.1 = (.ok reply, s.1)) :
    Gives ctx (fun r s => r = .ok reply ∧ s.2 = none ∧ Stands ctx seq row s) (Context.call c : Act δ c.Reply) 1 s := by
  rintro s' moved r s'' ⟨input, -, answered⟩
  have here : Stands ctx seq row s' := (moved.steps seq).trans stands
  have read := reads s' input.now here
  have same : answer ctx.lib input (.call c) s' = (.ok reply, s') := by
    rw [answer, read]
  rw [same] at answered
  cases answered
  exact fun t later => ⟨rfl, later.latch.trans (moved.latch.trans unlatched), (later.steps seq).trans here⟩

theorem recordedValue_gives (codec : Codec α) (outcome : StepOutcome) {s : State} (unlatched : s.2 = none) :
    Gives ctx (fun r _ => r = recorded ctx codec outcome) (ctx.recordedValue codec outcome : Act δ α) 1 s := by
  cases outcome with
  | output value => exact fun _ _ => rfl
  | failure message info =>
    cases read : tryFromParts ctx.lib message info with
    | ok error =>
      simp only [Context.recordedValue, read, Context.storage, recorded]
      exact fun _ _ => rfl
    | error error =>
      simp only [Context.recordedValue, read, Context.storage, Context.record, recorded]
      split
      next storage =>
        rintro s' moved reply s'' ⟨input, -, answered⟩
        have first : s'.2.getD error.cause = error.cause := by rw [moved.latch, unlatched]; rfl
        have replied : reply = .recoveryRequired (s'.2.getD error.cause) := (congrArg Prod.fst answered).symm
        subst replied
        rw [first]
        exact fun _ _ => rfl
      next => exact fun _ _ => rfl

/-- A recorded call passes the gate with its outcome: it never goes on to live work. -/
theorem serveRecorded_gives (codec : Codec α) {s : State} (unlatched : s.2 = none) (stands : Stands ctx seq row s) :
    Gives ctx (fun r _ => r = (recorded ctx codec (stepRowOutcome ctx.lib row)).map some)
      (ctx.serveRecorded seq row.name codec : Act δ (Option α)) 2 s := by
  have read : Gives ctx _ (Context.call (.getStepResult ctx.workflowId seq) : Act δ (Option RecordedStep)) 1 s :=
    read_gives (some ⟨row.name, stepRowOutcome ctx.lib row⟩) unlatched stands
      fun s now here => by simp only [exec, getStepResult, show s.1.steps.get _ = _ from here]; rfl
  refine Gives.bind (m := 1) read ?_ ?_
  · rintro step s ⟨same, unlatched, -⟩
    cases same
    have passed : (ctx.checkRecorded seq row.name row.name : Act δ Unit) = Pure.pure () := by
      simp [Context.checkRecorded]
    dsimp only
    rw [passed, pure_bind_eq]
    refine Gives.bind (n := 1) (m := 0) (recordedValue_gives codec _ unlatched) ?_ ?_
    · intro v s same s' moved
      rw [← same]
      rfl
    · intro e s s' same moved
      rw [← same]
      rfl
  · rintro e s s' ⟨same, -⟩
    cases same

theorem replayOrGuard_gives (codec : Codec α) {s : State} (unlatched : s.2 = none) (stands : Stands ctx seq row s) :
    Gives ctx (fun r _ => r = (recorded ctx codec (stepRowOutcome ctx.lib row)).map some)
      (ctx.replayOrGuard seq row.name codec : Act δ (Option α)) 2 s := by
  refine Gives.bind (m := 0) (serveRecorded_gives codec unlatched stands) ?_ fun e s s' same _ => same
  intro stored s same
  cases stored with
  | none =>
    revert same
    cases recorded ctx codec (stepRowOutcome ctx.lib row) <;> simp [Except.map]
  | some value => exact fun _ _ => same

/-- A call behind the gate whose row stands only wraps the outcome. -/
theorem gated_gives {codec : Codec α} {gate : Act δ (Option α)} {f : Option α → Act δ β} {g : α → β} {s : State}
    (first : Gives ctx (fun r _ => r = (recorded ctx codec (stepRowOutcome ctx.lib row)).map some) gate 2 s)
    (served : ∀ value, f (some value) = Pure.pure (g value)) :
    Gives ctx (fun r _ => r = (recorded ctx codec (stepRowOutcome ctx.lib row)).map g) (gate >>= f) 2 s := by
  refine Gives.bind (m := 0) first ?_ ?_
  · intro stored s same
    revert same
    cases recorded ctx codec (stepRowOutcome ctx.lib row) with
    | error e => intro same; cases same
    | ok value =>
      intro same
      cases same
      rw [served]
      exact fun _ _ => rfl
  · intro e s s' same _
    revert same
    cases recorded ctx codec (stepRowOutcome ctx.lib row) with
    | error e' => intro same; cases same; rfl
    | ok value => intro same; cases same

theorem get_gives (q : Ask) (s : State) :
    Gives ctx (fun r _ => ∃ reply, r = .ok reply) (Act.get q : Act δ (q.Reply δ)) 1 s :=
  fun _ _ _ _ _ _ _ => ⟨_, rfl⟩

theorem sleep_gives (span : Duration) {s : State} (named : row.name = "DBOS.sleep") (unlatched : s.2 = none)
    (stands : Stands ctx seq row s) :
    Gives ctx (fun r _ => r = (recorded ctx ctx.builtins.instants (stepRowOutcome ctx.lib row)).map fun _ => ())
      (ctx.sleep seq span : Act δ Unit) 4 s := by
  have timer : Gives ctx _
      (ctx.durableValueAt seq "DBOS.sleep" (Context.wakeInstant span) ctx.builtins.instants : Act δ DateTime) 2 s :=
    gated_gives (g := id) (named ▸ serveRecorded_gives ctx.builtins.instants unlatched stands) fun value => rfl
  rw [← map_id_eq] at timer
  refine Gives.bind (m := 2) timer ?_ ?_
  · intro wakeAt s same
    rw [← same]
    refine Gives.bind (n := 1) (m := 1) (get_gives .now s) ?_ ?_
    · intro now s _
      split
      · exact (get_gives .wait s).mono fun r s ⟨reply, same⟩ => same
      · exact fun _ _ => rfl
    · rintro e s s' ⟨reply, same⟩
      cases same
  · intro e s s' same _
    rw [← same]
    rfl

theorem startWorkflow_gives {name : String} (input : Value) (opts : WorkflowOptions) {s : State}
    (named : row.name = name) (unlatched : s.2 = none) (stands : Stands ctx seq row s) :
    Gives ctx (fun r _ => r = childFrom ctx seq row) (ctx.startWorkflow seq name input opts : Act δ String) 3 s := by
  have passed : (ctx.checkRecorded seq name row.name : Act δ Unit) = Pure.pure () := by
    simp [Context.checkRecorded, named]
  have link : Gives ctx _ (Context.call (.checkChildWorkflow ctx.workflowId seq) : Act δ (Option (String × String))) 1 s :=
    read_gives (row.childWorkflowId.map fun id => (id, row.name)) unlatched stands
      fun s now here => by simp only [exec, checkChildWorkflow, show s.1.steps.get _ = _ from here]; rfl
  refine Gives.bind (m := 2) link ?_ ?_
  · rintro found s ⟨same, unlatched, stands⟩
    cases same
    cases child : row.childWorkflowId with
    | some id =>
      dsimp only [Option.map_some]
      rw [passed]
      intro s' moved
      simp only [childFrom, child]
    | none =>
      have read : Gives ctx _ (Context.call (.getStepResult ctx.workflowId seq) : Act δ (Option RecordedStep)) 1 s :=
        read_gives (some ⟨row.name, stepRowOutcome ctx.lib row⟩) unlatched stands
          fun s now here => by simp only [exec, getStepResult, show s.1.steps.get _ = _ from here]; rfl
      refine Gives.bind (m := 1) read ?_ ?_
      · rintro step s ⟨same, unlatched, -⟩
        cases same
        dsimp only
        rw [passed, pure_bind_eq]
        refine Gives.bind (n := 1) (m := 0) (recordedValue_gives Codec.value _ unlatched) ?_ ?_
        · intro v s same s' moved
          simp only [childFrom, child, ← same]
        · intro e s s' same moved
          simp only [childFrom, child, ← same]
      · rintro e s s' ⟨same, -⟩
        cases same
  · rintro e s s' ⟨same, -⟩
    cases same

/-- A call whose row stands at its position returns what the row replays. -/
theorem recorded_gives {op : Op δ} (rounds : Nat) (prepared : op.prepare = .ok ()) {s : State}
    (named : row.name = op.name) (unlatched : s.2 = none) (stands : Stands ctx seq row s) :
    Gives ctx (fun r _ => r = replay ctx seq op row) (op.run ctx rounds seq) 4 s := by
  have wrapped : ∀ {α : Type} {act : Act δ α} {n : Nat} {f : α → Reply δ} {result : Except Error α},
      Gives ctx (fun r _ => r = result) act n s → n ≤ 4 → replay ctx seq op row = result.map f →
      Gives ctx (fun r _ => r = replay ctx seq op row) (act >>= fun a => Pure.pure (f a)) 4 s := by
    intro α act n f result gives short agree
    have whole : Gives ctx (fun r _ => r = replay ctx seq op row) (act >>= fun a => Pure.pure (f a)) (n + 0) s := by
      refine Gives.bind (m := 0) gives ?_ ?_
      · intro a s same s' moved
        rw [agree, ← same]
        rfl
      · intro e s s' same moved
        rw [agree, ← same]
        rfl
    exact whole.longer short
  have gate : ∀ {α : Type} (codec : Codec α),
      Gives ctx (fun r _ => r = (recorded ctx codec (stepRowOutcome ctx.lib row)).map some)
        (ctx.replayOrGuard seq op.name codec : Act δ (Option α)) 2 s :=
    fun codec => named ▸ replayOrGuard_gives codec unlatched stands
  have served : ∀ {α : Type} (codec : Codec α),
      Gives ctx (fun r _ => r = (recorded ctx codec (stepRowOutcome ctx.lib row)).map some)
        (ctx.serveRecorded seq op.name codec : Act δ (Option α)) 2 s :=
    fun codec => named ▸ serveRecorded_gives codec unlatched stands
  cases op with
  | step name codec | stepWith name maxRetries retryIf codec | select branches codec =>
    exact wrapped (gated_gives (g := id) (gate codec) fun value => rfl) (by omega) (by rw [← map_id_eq]; rfl)
  | sleep span => exact wrapped (sleep_gives span named unlatched stands) (by omega) (map_const _ _)
  | now =>
    exact wrapped (gated_gives (g := id) (served ctx.builtins.instants) fun value => rfl) (by omega)
      (by rw [← map_id_eq]; rfl)
  | uuid =>
    exact wrapped (gated_gives (g := id) (served ctx.builtins.strings) fun value => rfl) (by omega)
      (by rw [← map_id_eq]; rfl)
  | random =>
    exact wrapped (gated_gives (g := id) (served ctx.builtins.floats) fun value => rfl) (by omega)
      (by rw [← map_id_eq]; rfl)
  | send destination topic message =>
    obtain ⟨v, rfl⟩ := encoded_of_prepared prepared
    exact wrapped (gated_gives (gate .value) fun value => rfl) (by omega) (map_const _ _)
  | sendBulk messages =>
    cases rows : prepareBulk messages with
    | ok sent =>
      simp only [Op.run, rows, ofExcept_bind]
      exact wrapped (gated_gives (gate .value) fun value => rfl) (by omega) (map_const _ _)
    | error e =>
      simp only [Op.prepare, rows] at prepared
      cases prepared
  | setWorkflowAttributes id attributes =>
    exact wrapped (gated_gives (gate .value) fun value => rfl) (by omega) (map_const _ _)
  | recv topic timeout codec | getEvent target key timeout codec =>
    exact wrapped (gated_gives (g := id) (gate codec.optional) fun value => rfl) (by omega)
      (by rw [← map_id_eq]; rfl)
  | setEvent key value =>
    obtain ⟨v, rfl⟩ := encoded_of_prepared prepared
    exact wrapped (gated_gives (gate .value) fun value => rfl) (by omega) (map_const _ _)
  | writeStream key value =>
    obtain ⟨v, rfl⟩ := encoded_of_prepared prepared
    exact wrapped (gated_gives (gate .value) fun value => rfl) (by omega) (map_const _ _)
  | closeStream key => exact wrapped (gated_gives (gate .value) fun value => rfl) (by omega) (map_const _ _)
  | startWorkflow name input opts =>
    obtain ⟨v, rfl⟩ := encoded_of_prepared prepared
    exact wrapped (startWorkflow_gives v opts named unlatched stands) (by omega) (replay_startWorkflow ..)

end Durare.Execution

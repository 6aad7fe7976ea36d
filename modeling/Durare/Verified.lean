import Durare.Reexecution

/-! What a passed verification says of the real re-execution: both read the same history with the
same code, one with the verification cell and one without. -/
namespace Durare.Verify

open Interaction

section Rows

variable {δ : Type} (ctx : Context) (h : History) (seq : Int)

/-- The call returns what the row at its position says, under the call's own name. -/
inductive Served : Durable δ → Except Error (Answer δ) → Prop where
  | step (op : Op δ) (found : RecordedStep) (ordinary : Op.starts op = false) (row : Found ctx h seq op.name found) :
    Served (.op op) ((given ctx seq op found.outcome).map .reply)
  | link (name : String) (input : Except String Value) (opts : WorkflowOptions) (child : String)
      (here : h.child seq = .ok (some (child, name))) :
    Served (.op (.startWorkflow name input opts)) (.ok (.reply (.child child)))
  | rejection (name : String) (input : Except String Value) (opts : WorkflowOptions) (found : RecordedStep) (e : Error)
      (unlinked : h.child seq = .ok none) (row : Found ctx h seq name found)
      (rejected : Execution.recorded ctx .value found.outcome = .error e) :
    Served (.op (.startWorkflow name input opts)) (.error e)
  | marker (name : String) (here : h.name seq = .ok (some (marker name))) :
    Served (.patch name) (.ok (.patched true (nextSeq seq)))
  | deprecated (name : String) (here : h.name seq = .ok (some (Durare.marker name))) :
    Served (.deprecatePatch name) (.ok (.deprecated (nextSeq seq)))
  | transaction (name : String) (codec : Codec δ) (found : RecordedStep) (transacts : h.transacts = true)
      (row : Found ctx h seq name found) :
    Served (.transactionWith name codec) ((Execution.recorded ctx codec found.outcome).map fun value => .reply (.value value))
  | datasource (name : String) (codec : Codec δ) (source : Checked δ δ) (found : RecordedStep)
      (row : Found ctx h seq name found) :
    Served (.transactionOn name codec source)
      ((Execution.recorded ctx codec found.outcome).map fun value => .reply (.value value))

/-- The call takes no row: a patch on the old path, a patch that was never recorded, a child start
whose own arguments are refused. -/
inductive Free : Durable δ → Except Error (Answer δ) → Prop where
  | old (name recorded : String) (here : h.name seq = .ok (some recorded)) (other : recorded ≠ marker name) :
    Free (.patch name) (.ok (.patched false seq))
  | undeprecated (name : String) (recorded : Option String) (here : h.name seq = .ok recorded)
      (other : recorded ≠ some (marker name)) : Free (.deprecatePatch name) (.ok (.deprecated seq))
  | arguments (name : String) (input : Except String Value) (opts : WorkflowOptions) (e : Error)
      (unlinked : h.child seq = .ok none) (vacant : h.step seq = .ok none)
      (refused : Runtime.validateChildArguments name opts = .error e) :
    Free (.op (.startWorkflow name input opts)) (.error e)

/-- A child start does not come upon a successful outcome under its own name that is no link, and a
transaction is run by a provider that has transactions. -/
def Fits : Durable δ → Prop
  | .op (.startWorkflow name _ _) =>
    ∀ found value, h.child seq = .ok none → h.step seq = .ok (some found) → found.name = name →
      found.outcome ≠ .output value
  | .transactionWith _ _ => h.transacts = true
  | _ => True

end Rows

section Passing

variable {δ : Type} {ctx : Context} {h : History} {now : DateTime} {seq : Int} {cell cell' : Cell}

theorem recorded_failure {outcome : StepOutcome} {e : Error}
    (failed : Execution.recorded ctx .value outcome = .error e) : ∀ value, outcome ≠ .output value := by
  intro value same
  subst same
  cases failed

/-- A call that misses its row in an execution is not served there. -/
theorem unserved_start {name : String} {input : Except String Value} {opts : WorkflowOptions}
    {outcome : Except Error (Answer δ)} {found : RecordedStep} {value : Value} (unlinked : h.child seq = .ok none)
    (here : h.step seq = .ok (some found)) (succeeded : found.outcome = .output value) :
    ¬ (Served ctx h seq (.op (.startWorkflow name input opts)) outcome ∨
      Free h seq (.op (.startWorkflow name input opts)) outcome) := by
  intro either
  rcases either with served | free
  · cases served with
    | step _ _ ordinary => cases ordinary
    | link _ _ _ child linked =>
      rw [unlinked] at linked
      cases linked
    | rejection _ _ _ other e _ row rejected =>
      have same := row.here
      rw [here] at same
      cases same
      exact recorded_failure rejected value succeeded
  · cases free with
    | arguments _ _ _ e _ vacant =>
      rw [here] at vacant
      cases vacant

/-- A provider without transactions refuses, whatever is recorded. -/
theorem unserved_transaction {name : String} {codec : Codec δ} {outcome : Except Error (Answer δ)}
    (refusing : h.transacts = false) : ¬ (Served ctx h seq (.transactionWith name codec) outcome ∨
      Free h seq (.transactionWith name codec) outcome) := by
  intro either
  rcases either with served | free
  · cases served with
    | transaction _ _ _ transacts =>
      rw [refusing] at transacts
      cases transacts
  · cases free

theorem over_map {α β : Type} (lib : SerdeJson) (act : Checked δ α) (f : α → β) {result : Except Error α}
    (evaluated : onHistory h lib now act cell = some (result, cell')) :
    onHistory h lib now (do pure (f (← act))) cell = some (result.map f, cell') := by
  rw [over_bind, evaluated]
  cases result <;> rfl

theorem over_map_some {α β : Type} {lib : SerdeJson} {act : Checked δ α} {f : α → β} {result : Except Error β}
    (evaluated : onHistory h lib now (do pure (f (← act))) cell = some (result, cell')) :
    ∃ inner, onHistory h lib now act cell = some (inner, cell') := by
  rw [over_bind] at evaluated
  obtain ⟨⟨inner, mid⟩, here, rest⟩ := Option.bind_eq_some_iff.mp evaluated
  cases inner with
  | ok a =>
    cases rest
    exact ⟨.ok a, here⟩
  | error e =>
    cases rest
    exact ⟨.error e, here⟩

theorem check_over {lib : SerdeJson} (unlatched : cell.latch = none) :
    onHistory h lib now (.lift Context.check : Checked δ Unit) cell = some (.ok (), cell) := by
  obtain ⟨latch, seen⟩ := cell
  subst unlatched
  rfl

/-- The provider's replay check finds what the record says. -/
theorem transact_found {name : String} {found : RecordedStep} (transacts : h.transacts = true)
    (row : Found ctx h seq name found) :
    h.transact ctx.lib seq name = some (found.outcome.intoValueResult ctx.lib) := by
  unfold History.transact
  rw [if_pos transacts, row.here]
  simp [row.named]

section Reads

variable (workflow : ctx.workflowId = h.workflowId)
include workflow

theorem transactionLive_over {name : String} (codec : Codec δ) {found : RecordedStep} (transacts : h.transacts = true)
    (row : Found ctx h seq name found) :
    onHistory h ctx.lib now (transactionLive ctx none seq name codec) cell =
      some (Execution.recorded ctx codec found.outcome, cell) := by
  have asked : onHistory h ctx.lib now (Checked.get (.transact seq name) : Checked δ (Except Error Value)) cell =
      some (.ok (found.outcome.intoValueResult ctx.lib), cell) := by
    apply Client.eval_ask
    simp [History.answer, transact_found transacts row]
  unfold transactionLive
  change onHistory h ctx.lib now (Checked.get (.transact seq name) >>= _) cell = _
  rw [over_bind, asked]
  simp only [Option.bind_some]
  cases outcome : found.outcome with
  | output value => rfl
  | failure message info =>
    have readable := row.readable
    rw [outcome] at readable
    obtain ⟨e, read⟩ := readable
    have thrown : Execution.recorded ctx codec (.failure message info) = .error e := by simp [Execution.recorded, read]
    simp only [StepOutcome.intoValueResult, fromParts, read, thrown]
    by_cases failure : e.isStorageFailure = true
    · -- a recorded storage failure is read once more, and is there
      rw [if_pos failure, over_bind, call_ok (by rw [step_answer workflow, row.here])]
      simp only [Option.bind_some]
      rw [over_bind, checkRecorded_over none row.named]
      simp only [Option.bind_some]
      rw [recordedValue_over codec row.readable, outcome, thrown]
      rfl
    · rw [if_neg failure]
      rfl

omit workflow in
/-- A provider without transactions refuses before it looks at its rows. -/
theorem transactionLive_refused {name : String} (codec : Codec δ) (refusing : h.transacts = false) :
    onHistory h ctx.lib now (transactionLive ctx none seq name codec) cell =
      some (.error (.ofMessage "transactional steps require a SQL backend (Postgres or SQLite)"), cell) := by
  have asked : onHistory h ctx.lib now (Checked.get (.transact seq name) : Checked δ (Except Error Value)) cell =
      some (.ok (.error (.ofMessage "transactional steps require a SQL backend (Postgres or SQLite)")), cell) := by
    apply Client.eval_ask
    simp [History.answer, History.transact, refusing]
  unfold transactionLive
  change onHistory h ctx.lib now (Checked.get (.transact seq name) >>= _) cell = _
  rw [over_bind, asked]
  rfl

theorem transactionWith_over (verify : Option Bool) {name : String} (codec : Codec δ) {found : RecordedStep}
    (transacts : h.transacts = true) (row : Found ctx h seq name found) :
    onHistory h ctx.lib now (transactionWith ctx verify seq name codec) cell =
      some (Execution.recorded ctx codec found.outcome, marked verify seq cell) := by
  cases verify with
  | none => exact transactionLive_over workflow codec transacts row
  | some complete =>
    unfold transactionWith
    dsimp only
    rw [over_bind, replayOrGuard_over workflow (some complete) codec row]
    cases Execution.recorded ctx codec found.outcome <;> rfl

theorem transactionOn_over (verify : Option Bool) {name : String} (codec : Codec δ) (source : Checked δ δ)
    {found : RecordedStep} (row : Found ctx h seq name found) :
    onHistory h ctx.lib now (transactionOn ctx verify seq name codec source) cell =
      some (Execution.recorded ctx codec found.outcome, marked verify seq cell) := by
  unfold transactionOn
  change onHistory h ctx.lib now (replayOrGuard ctx verify seq name codec >>= _) cell = _
  rw [over_bind, replayOrGuard_over workflow verify codec row]
  cases Execution.recorded ctx codec found.outcome <;> rfl

theorem startWorkflow_linked (verify : Option Bool) {name child : String} {opts : WorkflowOptions}
    {live : Act δ (Reply δ)} (linked : h.child seq = .ok (some (child, name))) :
    onHistory h ctx.lib now (startWorkflow ctx verify seq name opts live) cell =
      some (.ok (.child child), marked verify seq cell) := by
  unfold startWorkflow
  rw [over_bind, call_ok (by rw [child_answer workflow, linked])]
  simp only [Option.bind_some]
  rw [over_bind, checkRecorded_over verify rfl]
  rfl

/-- A child start over an ordinary row of its own name: the recorded failure, or a refusal that no
verification books. -/
theorem startWorkflow_ordinary (verify : Option Bool) {name : String} {opts : WorkflowOptions}
    {live : Act δ (Reply δ)} {found : RecordedStep} (unlinked : h.child seq = .ok none)
    (row : Found ctx h seq name found) :
    onHistory h ctx.lib now (startWorkflow ctx verify seq name opts live) cell =
      some ((Execution.recorded ctx .value found.outcome).bind fun _ =>
        .error (.unexpectedStep ctx.workflowId seq "child workflow" "ordinary step"), marked verify seq cell) := by
  unfold startWorkflow
  rw [over_bind, call_ok (by rw [child_answer workflow, unlinked])]
  simp only [Option.bind_some]
  rw [over_bind, call_ok (by rw [step_answer workflow, row.here])]
  simp only [Option.bind_some]
  rw [over_bind, checkRecorded_over verify row.named]
  simp only [Option.bind_some]
  rw [over_bind, recordedValue_over .value row.readable]
  cases Execution.recorded ctx .value found.outcome <;> rfl

theorem startWorkflow_refused (verify : Option Bool) {name : String} {opts : WorkflowOptions}
    {live : Act δ (Reply δ)} {e : Error} (unlinked : h.child seq = .ok none) (vacant : h.step seq = .ok none)
    (refused : Runtime.validateChildArguments name opts = .error e) :
    onHistory h ctx.lib now (startWorkflow ctx verify seq name opts live) cell = some (.error e, cell) := by
  unfold startWorkflow
  rw [over_bind, call_ok (by rw [child_answer workflow, unlinked])]
  simp only [Option.bind_some]
  rw [over_bind, call_ok (by rw [step_answer workflow, vacant])]
  simp only [Option.bind_some, refused]
  rfl

theorem patch_marked (verify : Option Bool) {name : String} (unlatched : cell.latch = none)
    (here : h.name seq = .ok (some (marker name))) :
    onHistory h ctx.lib now (patch ctx verify seq name : Checked δ (Bool × Int)) cell =
      some (.ok (true, nextSeq seq), marked verify seq cell) := by
  unfold patch
  rw [over_bind, check_over unlatched]
  simp only [Option.bind_some]
  rw [over_bind, call_ok (by rw [name_answer workflow, here])]
  simp only [Option.bind_some, if_true]
  cases verify <;> rfl

theorem patch_old (verify : Option Bool) {name recorded : String} (unlatched : cell.latch = none)
    (here : h.name seq = .ok (some recorded)) (other : recorded ≠ marker name) :
    onHistory h ctx.lib now (patch ctx verify seq name : Checked δ (Bool × Int)) cell = some (.ok (false, seq), cell) := by
  unfold patch
  rw [over_bind, check_over unlatched]
  simp only [Option.bind_some]
  rw [over_bind, call_ok (by rw [name_answer workflow, here])]
  simp only [Option.bind_some, if_neg other]
  rfl

theorem deprecatePatch_marked (verify : Option Bool) {name : String} (unlatched : cell.latch = none)
    (here : h.name seq = .ok (some (marker name))) :
    onHistory h ctx.lib now (deprecatePatch ctx verify seq name : Checked δ Int) cell =
      some (.ok (nextSeq seq), marked verify seq cell) := by
  unfold deprecatePatch
  rw [over_bind, check_over unlatched]
  simp only [Option.bind_some]
  rw [over_bind, call_ok (by rw [name_answer workflow, here])]
  simp only [Option.bind_some, if_true]
  cases verify <;> rfl

theorem deprecatePatch_other (verify : Option Bool) {name : String} {recorded : Option String}
    (unlatched : cell.latch = none) (here : h.name seq = .ok recorded) (other : recorded ≠ some (marker name)) :
    onHistory h ctx.lib now (deprecatePatch ctx verify seq name : Checked δ Int) cell = some (.ok seq, cell) := by
  unfold deprecatePatch
  rw [over_bind, check_over unlatched]
  simp only [Option.bind_some]
  rw [over_bind, call_ok (by rw [name_answer workflow, here])]
  simp only [Option.bind_some, if_neg other]
  rfl

omit workflow in
theorem expecting_still (verify : Option Bool) : expecting verify seq false cell = cell := by
  simp [expecting]

/-- A served call returns what its row says, in either mode. -/
theorem perform_served (verify : Option Bool) (rounds : Nat) {durable : Durable δ} {outcome : Except Error (Answer δ)}
    (unlatched : cell.latch = none) (served : Served ctx h seq durable outcome) :
    onHistory h ctx.lib now (perform ctx verify rounds seq durable) cell =
      some (outcome, marked verify seq (expecting verify seq durable.waits cell)) := by
  cases served with
  | step op found ordinary row => exact over_map _ _ _ (performOp_over workflow verify rounds ordinary row)
  | link name input opts child here =>
    simp only [Durable.waits, Op.waits, expecting_still]
    exact over_map _ _ _ (startWorkflow_linked workflow verify here)
  | rejection name input opts found e unlinked row rejected =>
    simp only [Durable.waits, Op.waits, expecting_still]
    have error : .error e = ((Execution.recorded ctx .value found.outcome).bind fun _ =>
        .error (.unexpectedStep ctx.workflowId seq "child workflow" "ordinary step") : Outcome δ).map Answer.reply := by
      rw [rejected]
      rfl
    rw [error]
    exact over_map _ _ _ (startWorkflow_ordinary workflow verify unlinked row)
  | marker name here =>
    simp only [Durable.waits, expecting_still]
    exact over_map _ _ (fun (turned : Bool × Int) => Answer.patched turned.1 turned.2)
      (patch_marked workflow verify unlatched here)
  | deprecated name here =>
    simp only [Durable.waits, expecting_still]
    exact over_map _ _ _ (deprecatePatch_marked workflow verify unlatched here)
  | transaction name codec found transacts row =>
    simp only [Durable.waits, expecting_still]
    exact over_map _ _ _ (transactionWith_over workflow verify codec transacts row)
  | datasource name codec source found row =>
    simp only [Durable.waits, expecting_still]
    exact over_map _ _ _ (transactionOn_over workflow verify codec source row)

/-- A call that takes no row leaves no trace, in either mode. -/
theorem perform_free (verify : Option Bool) (rounds : Nat) {durable : Durable δ} {outcome : Except Error (Answer δ)}
    (unlatched : cell.latch = none) (free : Free h seq durable outcome) :
    onHistory h ctx.lib now (perform ctx verify rounds seq durable) cell = some (outcome, cell) := by
  cases free with
  | old name recorded here other =>
    exact over_map _ _ (fun (turned : Bool × Int) => Answer.patched turned.1 turned.2)
      (patch_old workflow verify unlatched here other)
  | undeprecated name recorded here other =>
    exact over_map _ _ _ (deprecatePatch_other workflow verify unlatched here other)
  | arguments name input opts e unlinked vacant refused =>
    exact over_map _ _ _ (startWorkflow_refused workflow verify unlinked vacant refused)

omit workflow in
theorem interrupt_latches {α : Type} {lib : SerdeJson} {e : Error} {result : Except Error α}
    (evaluated : onHistory h lib now (.lift (Context.interrupt e) : Checked δ α) cell = some (result, cell')) :
    cell'.latch.isSome = true := by
  cases evaluated
  rfl

theorem startWorkflow_passed {name : String} {opts : WorkflowOptions} {live : Act δ (Reply δ)} {result : Outcome δ}
    (evaluated : onHistory h ctx.lib now (startWorkflow ctx (some true) seq name opts live) cell = some (result, cell'))
    (calm : Calm cell') :
    (∃ child, h.child seq = .ok (some (child, name))) ∨
    (h.child seq = .ok none ∧ ∃ found, Found ctx h seq name found) ∨
    (h.child seq = .ok none ∧ h.step seq = .ok none ∧ ∃ e, Runtime.validateChildArguments name opts = .error e) := by
  rcases over_bind_some evaluated calm with ⟨link, _, read, quiet, rest⟩ | ⟨_, read, -⟩
  · obtain ⟨_, linked, same, -⟩ := call_calm (child_answer workflow) (h.child_fails seq) read quiet
    cases same
    cases link with
    | some link =>
      obtain ⟨_, _, checked, quiet⟩ := over_first rest calm
      have named := checkRecorded_same checked quiet
      exact .inl ⟨link.1, by rw [linked, ← named]⟩
    | none =>
      rcases over_bind_some rest calm with ⟨found, _, read, quiet, rest⟩ | ⟨_, read, -⟩
      · obtain ⟨_, here, same, -⟩ := call_calm (step_answer workflow) (h.step_fails seq) read quiet
        cases same
        cases found with
        | some step =>
          rcases over_bind_some rest calm with ⟨_, _, checked, quiet, rest⟩ | ⟨_, checked, _⟩
          · have named := checkRecorded_same checked quiet
            obtain ⟨_, _, value, quiet⟩ := over_first rest calm
            exact .inr (.inl ⟨linked, step, here, named, recordedValue_readable value quiet⟩)
          · have named := checkRecorded_same checked calm
            rw [checkRecorded_over _ named] at checked
            cases checked
        | none =>
          -- valid arguments lead to a refusal that is latched or booked
          rcases over_bind_some rest calm with ⟨_, _, valid, -, rest⟩ | ⟨e, refused, -⟩
          · cases configured : ctx.rt.validateChildConfiguration name opts with
            | error e =>
              simp only [configured] at rest
              have latched := interrupt_latches rest
              rw [calm.latch] at latched
              cases latched
            | ok _ =>
              simp only [configured] at rest
              obtain ⟨_, _, refused, quiet⟩ := over_first rest calm
              exact (refuseLiveWork_booked refused quiet).elim
          · refine .inr (.inr ⟨linked, here, e, ?_⟩)
            cases arguments : Runtime.validateChildArguments name opts with
            | ok _ =>
              rw [arguments] at refused
              cases refused
            | error e' =>
              rw [arguments] at refused
              cases refused
              rfl
      · obtain ⟨_, _, same, -⟩ := call_calm (step_answer workflow) (h.step_fails seq) read calm
        cases same
  · obtain ⟨_, _, same, -⟩ := call_calm (child_answer workflow) (h.child_fails seq) read calm
    cases same

/-- The name at the position, as a calm re-run reads it. -/
theorem name_passed {α : Type} {rest : Option String → Checked δ α} {result : Except Error α}
    (evaluated : onHistory h ctx.lib now (do
      .lift Context.check
      rest (← .lift (Context.call (.getStepName ctx.workflowId seq)))) cell = some (result, cell'))
    (calm : Calm cell') :
    ∃ recorded, h.name seq = .ok recorded ∧ onHistory h ctx.lib now (rest recorded) cell = some (result, cell') := by
  have unlatched := (over_calm evaluated calm).latch
  rw [over_bind, check_over unlatched] at evaluated
  rcases over_bind_some evaluated calm with ⟨recorded, mid, read, quiet, rest⟩ | ⟨_, read, -⟩
  · obtain ⟨_, here, same, still⟩ := call_calm (name_answer workflow) (h.name_fails seq) read quiet
    cases same
    subst still
    exact ⟨recorded, here, rest⟩
  · obtain ⟨_, _, same, -⟩ := call_calm (name_answer workflow) (h.name_fails seq) read calm
    cases same

theorem patch_passed {name : String} {result : Except Error (Bool × Int)}
    (evaluated : onHistory h ctx.lib now (patch ctx (some true) seq name : Checked δ (Bool × Int)) cell = some (result, cell'))
    (calm : Calm cell') : ∃ recorded, h.name seq = .ok (some recorded) := by
  obtain ⟨recorded, here, rest⟩ := name_passed workflow evaluated calm
  cases recorded with
  | some recorded => exact ⟨recorded, here⟩
  | none =>
    obtain ⟨_, _, refused, quiet⟩ := over_first rest calm
    exact (refuseLiveWork_booked refused quiet).elim

/-- A call that the verification of a complete history lets pass is served or takes no row. -/
theorem perform_passed {rounds : Nat} {durable : Durable δ} {outcome : Except Error (Answer δ)}
    (evaluated : onHistory h ctx.lib now (perform ctx (some true) rounds seq durable) cell = some (outcome, cell'))
    (calm : Calm cell') (fits : Fits h seq durable) :
    ∃ outcome, Served ctx h seq durable outcome ∨ Free h seq durable outcome := by
  cases durable with
  | op operation =>
    obtain ⟨_, evaluated⟩ := over_map_some evaluated
    by_cases ordinary : Op.starts operation = false
    · obtain ⟨found, row⟩ := performOp_found workflow ordinary evaluated calm
      exact ⟨_, .inl (.step operation found ordinary row)⟩
    · cases operation with
      | startWorkflow name input opts =>
        rcases startWorkflow_passed workflow evaluated calm with ⟨child, linked⟩ | ⟨unlinked, found, row⟩ |
          ⟨unlinked, vacant, e, refused⟩
        · exact ⟨_, .inl (.link name input opts child linked)⟩
        · cases outcome : found.outcome with
          | output value => exact (fits found value unlinked row.here row.named outcome).elim
          | failure message info =>
            have readable := row.readable
            rw [outcome] at readable
            obtain ⟨e, read⟩ := readable
            have rejected : Execution.recorded ctx .value found.outcome = .error e := by
              simp [outcome, Execution.recorded, read]
            exact ⟨_, .inl (.rejection name input opts found e unlinked row rejected)⟩
        · exact ⟨_, .inr (.arguments name input opts e unlinked vacant refused)⟩
      | _ => exact absurd rfl ordinary
  | patch name =>
    obtain ⟨_, evaluated⟩ := over_map_some (f := fun (turned : Bool × Int) => Answer.patched turned.1 turned.2) evaluated
    obtain ⟨recorded, here⟩ := patch_passed workflow evaluated calm
    by_cases same : recorded = marker name
    · subst same
      exact ⟨_, .inl (.marker name here)⟩
    · exact ⟨_, .inr (.old name recorded here same)⟩
  | deprecatePatch name =>
    obtain ⟨_, evaluated⟩ := over_map_some evaluated
    obtain ⟨recorded, here, -⟩ := name_passed workflow evaluated calm
    by_cases same : recorded = some (marker name)
    · subst same
      exact ⟨_, .inl (.deprecated name here)⟩
    · exact ⟨_, .inr (.undeprecated name recorded here same)⟩
  | transactionWith name codec =>
    obtain ⟨_, evaluated⟩ := over_map_some evaluated
    obtain ⟨_, _, gate, quiet⟩ := over_first evaluated calm
    obtain ⟨found, row⟩ := replayOrGuard_found workflow gate quiet
    exact ⟨_, .inl (.transaction name codec found fits row)⟩
  | transactionOn name codec source =>
    obtain ⟨_, evaluated⟩ := over_map_some evaluated
    rcases over_bind_some evaluated calm with ⟨_, _, begun, -, rest⟩ | ⟨_, begun, -⟩
    · cases begun
      rcases over_bind_some rest calm with ⟨_, _, -, -, rest⟩ | ⟨_, flag, -⟩
      · obtain ⟨_, _, gate, quiet⟩ := over_first rest calm
        obtain ⟨found, row⟩ := replayOrGuard_found workflow gate quiet
        exact ⟨_, .inl (.datasource name codec source found row)⟩
      · cases flag
    · cases begun

/-- An execution is refused where the call does not fit its row. -/
theorem perform_unfit (rounds : Nat) {durable : Durable δ} (unfit : ¬ Fits h seq durable) :
    ∃ outcome, onHistory h ctx.lib now (perform ctx none rounds seq durable) cell = some (outcome, cell) ∧
      ¬ (Served ctx h seq durable outcome ∨ Free h seq durable outcome) := by
  cases durable with
  | op operation =>
    cases operation with
    | startWorkflow name input opts =>
      simp only [Fits, not_forall, not_not] at unfit
      obtain ⟨found, value, unlinked, here, named, succeeded⟩ := unfit
      have readable : Readable ctx.lib found.outcome := by
        rw [succeeded]
        trivial
      exact ⟨_, over_map _ _ _ (startWorkflow_ordinary workflow none unlinked ⟨here, named, readable⟩),
        unserved_start unlinked here succeeded⟩
    | _ => exact absurd trivial unfit
  | transactionWith name codec =>
    have refusing : h.transacts = false := by simpa [Fits] using unfit
    exact ⟨_, over_map _ _ _ (transactionLive_refused codec refusing), unserved_transaction refusing⟩
  | patch | deprecatePatch | transactionOn => exact absurd trivial unfit

end Reads

end Passing

end Durare.Verify

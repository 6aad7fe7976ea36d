import Durare.Histories

/-! A body run again over a recorded history, with the verification cell and without: its gate, its calls and the
report. -/
namespace Durare.Verify

open Interaction

inductive Move (δ : Type) where
  | call (durable : Durable δ)
  | drop (durable : Durable δ)

inductive Moved (δ : Type) where
  | answered (outcome : Except Error (Answer δ))
  | dropped

/-- A deterministic body on its input: what it was handed decides its next move, and how it ends. -/
structure Body (δ : Type) where
  next : List (Moved δ) → Option (Move δ)
  ending : List (Moved δ) → BodyEnd Value

/-- What became of one move. -/
inductive Visit (δ : Type) where
  | refused (durable : Durable δ) (error : Error)
  | dropped (durable : Durable δ)
  | answered (seq : Int) (durable : Durable δ) (outcome : Except Error (Answer δ))

def Visit.moved {δ : Type} : Visit δ → Moved δ
  | .refused _ e => .answered (.error e)
  | .dropped _ => .dropped
  | .answered _ _ outcome => .answered outcome

namespace Durable

variable {δ : Type}

/-- `claim_position`. A patch takes its position when it is polled. -/
def accepts (latch : Option Error) : Durable δ → Except Error Unit
  | .op operation => Execution.accepts operation latch
  | .patch _ | .deprecatePatch _ => .ok ()
  | .transactionWith .. | .transactionOn .. => Execution.check latch

def claim (seq : Int) : Durable δ → Int
  | .op operation => operation.claim seq
  | .patch _ | .deprecatePatch _ => seq
  | .transactionWith .. | .transactionOn .. => nextSeq seq

def name : Durable δ → String
  | .op operation => operation.name
  | .patch name | .deprecatePatch name => marker name
  | .transactionWith name _ | .transactionOn name _ _ => name

def waits : Durable δ → Bool
  | .op operation => operation.waits
  | _ => false

end Durable

def advanced {δ : Type} (claimed : Int) : Except Error (Answer δ) → Int
  | .ok (.patched _ counter) | .ok (.deprecated counter) => counter
  | _ => claimed

section Reruns

variable {δ : Type} (ctx : Context) (h : History) (verify : Option Bool) (rounds : Nat) (body : Body δ)

def visit (now : DateTime) (durable : Durable δ) (seq : Int) (cell : Cell) : Option (Visit δ × Int × Cell) :=
  match durable.accepts cell.latch with
  | .error e => some (.refused durable e, seq, cell)
  | .ok _ =>
    match Client.eval (h.answer ctx.lib now) (perform ctx verify rounds seq durable) cell with
    | none => none
    | some (outcome, cell) =>
      some (.answered seq durable outcome, advanced (durable.claim seq) outcome, cell)

/-- The body re-run over the history, with the readings of its clock: how it went, and the cell at
its end. An interruption ends it. It goes no further when a call needs more than the history. -/
def rerun : Nat → List DateTime → List (Visit δ) → Int → Cell → Option (List (Visit δ) × Cell)
  | 0, _, _, _, _ => none
  | fuel + 1, clock, trace, seq, cell =>
    if cell.latch.isSome then some (trace, cell)
    else match body.next (trace.map Visit.moved) with
      | none => some (trace, cell)
      | some (.drop durable) =>
        let claimed := match durable.accepts cell.latch with
          | .ok _ => durable.claim seq
          | .error _ => seq
        rerun fuel clock (trace ++ [.dropped durable]) claimed cell
      | some (.call durable) =>
        match visit ctx h verify rounds (clock.headD 0) durable seq cell with
        | none => none
        | some (visited, seq, cell) => rerun fuel clock.tail (trace ++ [visited]) seq cell

end Reruns

structure ReplayReport where
  workflowId : String
  workflowName : String
  recorded : Nat
  matched : Nat
  complete : Bool
  divergence : Option Divergence
deriving DecidableEq, Repr

def ReplayReport.passes (report : ReplayReport) : Bool := report.divergence.isNone

/-- `failed`: a run against a history that ended in `ERROR` is not reported. -/
def failed (status : Status) (ending : BodyEnd Value) : Option Divergence :=
  if status = .error then none
  else match ending with
    | .panicked message => some (.failed ("workflow panicked: " ++ message))
    | .returned (.error e) => some (.failed e.toString)
    | .returned (.ok _) => none

/-- `unaccounted`: the first recorded operation the re-run did not account for. -/
def unaccounted (recorded : List StepInfo) (seen : Seen) : Option Divergence :=
  (recorded.find? fun op => !seen.accountsFor op).map fun op =>
    match seen.reserved.get op.stepId with
    | some expected => .mismatch op.stepId expected op.name
    | none => .missing op.stepId op.name

/-- A history is complete when its run reached its own end. -/
def isComplete (status : Status) : Bool := status.isCompleted

def report (h : History) (status : WorkflowStatus) (seen : Seen) (ending : BodyEnd Value) : ReplayReport where
  workflowId := h.workflowId
  workflowName := status.name
  recorded := h.recorded.length
  matched := h.recorded.countP seen.accountsFor
  complete := isComplete status.status
  divergence := (seen.divergence.or
    (if seen.stoppedAt.isSome then none else failed status.status ending)).or (unaccounted h.recorded seen)

/-- `verify_replay` of the body, once the history is read. -/
def verifyReplay {δ : Type} (ctx : Context) (h : History) (status : WorkflowStatus) (rounds : Nat) (body : Body δ)
    (fuel : Nat) (clock : List DateTime) : Option (Except Error ReplayReport) :=
  match rerun ctx h (some (isComplete status.status)) rounds body fuel clock [] 0 {} with
  | none => none
  | some (trace, cell) =>
    match cell.latch with
    | some cause => some (.error (.recoveryRequired cause))
    | none =>
      match body.ending (trace.map Visit.moved) with
      | .returned (.error (.recoveryRequired cause)) => some (.error (.recoveryRequired cause))
      | .returned (.error (.observationFailed cause)) => some (.error (.observationFailed cause))
      | ending => some (.ok (report h status cell.seen ending))

section Evaluation

variable {δ α β : Type} {ctx : Context} {h : History} {now : DateTime} {seq : Int} {cell cell' : Cell}

/-- The call over the history at rest. -/
abbrev onHistory (h : History) (lib : SerdeJson) (now : DateTime) (act : Checked δ α) (cell : Cell) :
    Option (Except Error α × Cell) := Client.eval (h.answer lib now) act cell

theorem over_bind (lib : SerdeJson) (act : Checked δ α) (f : α → Checked δ β) (cell : Cell) :
    onHistory h lib now (act >>= f) cell = (onHistory h lib now act cell).bind fun ended =>
      match ended.1 with
      | .ok a => onHistory h lib now (f a) ended.2
      | .error e => some (.error e, ended.2) := by
  apply (Client.eval_bind ..).trans
  congr
  funext ended
  obtain ⟨result, cell⟩ := ended
  cases result <;> rfl

structure Calm (cell : Cell) : Prop where
  latch : cell.latch = none
  divergence : cell.seen.divergence = none

theorem book_calm {note : Note} (calm : Calm { cell with seen := cell.seen.book note }) : Calm cell := by
  constructor
  · exact calm.latch
  · cases note with
    | saw divergence => exact (Option.or_eq_none_iff.mp calm.divergence).1
    | stopped | served | reserved => exact calm.divergence

theorem answer_calm {lib : SerdeJson} {q : Query} {reply : q.Reply δ}
    (answered : h.answer lib now q cell = some (reply, cell')) (calm : Calm cell') : Calm cell := by
  cases q with
  | ask q =>
    cases q with
    | call c =>
      cases c
      case getStepResult | checkChildWorkflow | getStepName =>
        simp only [History.answer, Option.ite_none_right_eq_some, Option.some.injEq, Prod.mk.injEq] at answered
        rw [answered.2.2]
        exact calm
      all_goals cases answered
    | now | wait | check =>
      cases answered
      exact calm
    | interrupt cause =>
      cases answered
      cases calm.latch
    | fresh | random | body | race => cases answered
  | book note =>
    cases answered
    exact book_calm calm
  | beginTransaction =>
    cases answered
    exact calm
  | transact seq name =>
    simp only [History.answer, Option.map_eq_some_iff, Prod.mk.injEq] at answered
    obtain ⟨_, _, _, same⟩ := answered
    rw [same]
    exact calm
  | history => cases answered

/-- What goes wrong stays so. -/
theorem over_calm {lib : SerdeJson} {act : Checked δ α} {result : Except Error α}
    (evaluated : onHistory h lib now act cell = some (result, cell')) (calm : Calm cell') : Calm cell := by
  have all : ∀ (c : Client Query (Query.Reply δ) (Except Error α)) (cell : Cell),
      Client.eval (h.answer lib now) c cell = some (result, cell') → Calm cell := by
    intro c
    induction c with
    | done a =>
      intro cell ended
      cases ended
      exact calm
    | ask q k ih =>
      intro cell ended
      cases answered : h.answer (δ := δ) lib now q cell with
      | none => simp [Client.eval, answered] at ended
      | some replied =>
        simp only [Client.eval, answered] at ended
        exact answer_calm answered (ih replied.1 replied.2 ended)
    | halt =>
      intro cell ended
      cases ended
  exact all act cell evaluated

/-- A call in two parts that ends calmly: the second part ends it, or the first one with an error. -/
theorem over_bind_some {lib : SerdeJson} {act : Checked δ α} {f : α → Checked δ β} {result : Except Error β}
    (evaluated : onHistory h lib now (act >>= f) cell = some (result, cell')) (calm : Calm cell') :
    (∃ a mid, onHistory h lib now act cell = some (.ok a, mid) ∧ Calm mid ∧ onHistory h lib now (f a) mid = some (result, cell')) ∨
    (∃ e, onHistory h lib now act cell = some (.error e, cell') ∧ result = .error e) := by
  rw [over_bind] at evaluated
  obtain ⟨⟨first, mid⟩, here, rest⟩ := Option.bind_eq_some_iff.mp evaluated
  cases first with
  | ok a => exact .inl ⟨a, mid, here, over_calm rest calm, rest⟩
  | error e =>
    cases rest
    exact .inr ⟨e, here, rfl⟩

/-- Its first part ended calmly too. -/
theorem over_first {lib : SerdeJson} {act : Checked δ α} {f : α → Checked δ β} {result : Except Error β}
    (evaluated : onHistory h lib now (act >>= f) cell = some (result, cell')) (calm : Calm cell') :
    ∃ first mid, onHistory h lib now act cell = some (first, mid) ∧ Calm mid := by
  rcases over_bind_some evaluated calm with ⟨a, mid, first, quiet, -⟩ | ⟨e, first, -⟩
  · exact ⟨.ok a, mid, first, quiet⟩
  · exact ⟨.error e, cell', first, calm⟩

/-- The recorded outcome can be handed to a body. -/
def Readable (lib : SerdeJson) : StepOutcome → Prop
  | .output _ => True
  | .failure message info => ∃ e, tryFromParts lib message info = .ok e

theorem tryFromParts_fails {lib : SerdeJson} {message : String} {info : Option PortableWorkflowError} {e : Error}
    (unreadable : tryFromParts lib message info = .error e) : e.isStorageFailure = true := by
  have envelope : ∀ info, errorFromEnvelope lib info = .error e → e.isStorageFailure = true := by
    intro info failed
    unfold errorFromEnvelope at failed
    split at failed
    · split at failed
      · cases failed
      · cases failed
        rfl
    · split at failed <;> cases failed
  unfold tryFromParts at unreadable
  split at unreadable
  · exact envelope _ unreadable
  · split at unreadable
    · cases unreadable
    · split at unreadable
      · split at unreadable
        · exact envelope _ unreadable
        · cases unreadable
          rfl
      · cases unreadable
        rfl

/-- A storage failure is latched. -/
theorem record_over {lib : SerdeJson} {e : Error} (failure : e.isStorageFailure = true) {result : Except Error α}
    (evaluated : onHistory h lib now (.lift (Context.record e) : Checked δ α) cell = some (result, cell')) :
    cell'.latch.isSome = true := by
  unfold Context.record at evaluated
  rw [if_pos failure] at evaluated
  cases evaluated
  rfl

theorem recordedValue_over (codec : Codec α) {outcome : StepOutcome} (readable : Readable ctx.lib outcome) :
    onHistory h ctx.lib now (.lift (ctx.recordedValue codec outcome) : Checked δ α) cell =
      some (Execution.recorded ctx codec outcome, cell) := by
  cases outcome with
  | output value => rfl
  | failure message info =>
    obtain ⟨e, read⟩ := readable
    simp only [Context.recordedValue, Execution.recorded, read]
    rfl

theorem recordedValue_readable {codec : Codec α} {outcome : StepOutcome} {result : Except Error α}
    (evaluated : onHistory h ctx.lib now (.lift (ctx.recordedValue codec outcome) : Checked δ α) cell =
      some (result, cell')) (calm : Calm cell') : Readable ctx.lib outcome := by
  cases outcome with
  | output value => trivial
  | failure message info =>
    cases read : tryFromParts ctx.lib message info with
    | ok e => exact ⟨e, read⟩
    | error e =>
      simp only [Context.recordedValue, Context.storage, read, Checked.lift_bind] at evaluated
      obtain ⟨_, _, first, quiet⟩ := over_first evaluated calm
      have latched := record_over (tryFromParts_fails read) first
      rw [quiet.latch] at latched
      cases latched

/-- The row at the position is the call's, and can be read. -/
structure Found (ctx : Context) (h : History) (seq : Int) (name : String) (found : RecordedStep) : Prop where
  here : h.step seq = .ok (some found)
  named : found.name = name
  readable : Readable ctx.lib found.outcome

def marked (verify : Option Bool) (seq : Int) (cell : Cell) : Cell :=
  if verify.isSome then { cell with seen := cell.seen.book (.served seq) } else cell

theorem checkRecorded_over {lib : SerdeJson} (verify : Option Bool) {expected recorded : String}
    (same : recorded = expected) :
    onHistory h lib now (checkRecorded ctx verify seq expected recorded : Checked δ Unit) cell =
      some (.ok (), marked verify seq cell) := by
  subst same
  unfold checkRecorded marked
  cases verify <;> simp <;> rfl

theorem checkRecorded_same {lib : SerdeJson} {complete : Bool} {expected recorded : String} {result : Except Error Unit}
    (evaluated : onHistory h lib now (checkRecorded ctx (some complete) seq expected recorded : Checked δ Unit) cell =
      some (result, cell')) (calm : Calm cell') : recorded = expected := by
  by_contra other
  unfold checkRecorded at evaluated
  rw [if_pos other] at evaluated
  cases evaluated
  have booked := calm.divergence
  simp [Seen.book] at booked

/-- A complete history leaves a verification nothing to do where nothing is recorded. -/
theorem refuseLiveWork_booked {lib : SerdeJson} {operation : String} {result : Except Error Unit}
    (evaluated : onHistory h lib now (refuseLiveWork ctx (some true) seq operation : Checked δ Unit) cell =
      some (result, cell')) (calm : Calm cell') : False := by
  cases evaluated
  have booked := calm.divergence
  simp [Seen.book] at booked

/-- A provider read: its reply, or its storage failure. -/
theorem call_over {lib : SerdeJson} {c : Memory.Call} {reply : Except Error c.Reply}
    (answered : h.answer (δ := δ) lib now (.ask (.call c)) cell = some (reply, cell)) :
    onHistory h lib now (.lift (Context.call c) : Checked δ c.Reply) cell =
      onHistory h lib now (.lift (Context.storage reply) : Checked δ c.Reply) cell :=
  Client.eval_ask answered

theorem call_ok {lib : SerdeJson} {c : Memory.Call} {found : c.Reply}
    (answered : h.answer (δ := δ) lib now (.ask (.call c)) cell = some (.ok found, cell)) :
    onHistory h lib now (.lift (Context.call c) : Checked δ c.Reply) cell = some (.ok found, cell) :=
  call_over answered

/-- A read of a calm re-run succeeds. -/
theorem call_calm {lib : SerdeJson} {c : Memory.Call} {reply result : Except Error c.Reply}
    (answered : h.answer (δ := δ) lib now (.ask (.call c)) cell = some (reply, cell))
    (fails : ∀ e, reply = .error e → e.isStorageFailure = true)
    (evaluated : onHistory h lib now (.lift (Context.call c) : Checked δ c.Reply) cell = some (result, cell'))
    (calm : Calm cell') : ∃ found, reply = .ok found ∧ result = .ok found ∧ cell' = cell := by
  rw [call_over answered] at evaluated
  cases reply with
  | ok found =>
    cases evaluated
    exact ⟨found, rfl, rfl, rfl⟩
  | error e =>
    have latched := record_over (fails e rfl) evaluated
    rw [calm.latch] at latched
    cases latched

section Reads

variable (workflow : ctx.workflowId = h.workflowId)
include workflow

theorem step_answer : h.answer (δ := δ) ctx.lib now (.ask (.call (.getStepResult ctx.workflowId seq))) cell =
    some (h.step seq, cell) := by
  simp [History.answer, workflow]

theorem child_answer : h.answer (δ := δ) ctx.lib now (.ask (.call (.checkChildWorkflow ctx.workflowId seq))) cell =
    some (h.child seq, cell) := by
  simp [History.answer, workflow]

theorem name_answer : h.answer (δ := δ) ctx.lib now (.ask (.call (.getStepName ctx.workflowId seq))) cell =
    some (h.name seq, cell) := by
  simp [History.answer, workflow]

/-- A served call, in either mode. -/
theorem serveRecorded_over (verify : Option Bool) {name : String} (codec : Codec α) {found : RecordedStep}
    (row : Found ctx h seq name found) :
    onHistory h ctx.lib now (serveRecorded ctx verify seq name codec : Checked δ (Option α)) cell =
      some ((Execution.recorded ctx codec found.outcome).map some, marked verify seq cell) := by
  unfold serveRecorded
  rw [over_bind, call_ok (by rw [step_answer workflow, row.here])]
  simp only [Option.bind_some]
  rw [over_bind, checkRecorded_over verify row.named]
  simp only [Option.bind_some]
  rw [over_bind, recordedValue_over codec row.readable]
  cases Execution.recorded ctx codec found.outcome <;> rfl

/-- A call that a verification of a complete history lets pass has its row. -/
theorem serveRecorded_found {name : String} {codec : Codec α} {result : Except Error (Option α)}
    (evaluated : onHistory h ctx.lib now (serveRecorded ctx (some true) seq name codec : Checked δ (Option α)) cell =
      some (result, cell')) (calm : Calm cell') : ∃ found, Found ctx h seq name found := by
  rcases over_bind_some evaluated calm with ⟨found, mid, read, quiet, rest⟩ | ⟨e, read, -⟩
  · obtain ⟨stored, here, same, -⟩ := call_calm (step_answer workflow) (h.step_fails seq) read quiet
    cases same
    cases found with
    | none =>
      obtain ⟨_, _, refused, quiet⟩ := over_first rest calm
      exact (refuseLiveWork_booked refused quiet).elim
    | some step =>
      rcases over_bind_some rest calm with ⟨_, _, checked, quiet, rest⟩ | ⟨_, checked, _⟩
      · have named := checkRecorded_same checked quiet
        obtain ⟨_, _, value, quiet⟩ := over_first rest calm
        exact ⟨step, here, named, recordedValue_readable value quiet⟩
      · have named := checkRecorded_same checked calm
        rw [checkRecorded_over _ named] at checked
        cases checked
  · obtain ⟨_, _, same, -⟩ := call_calm (step_answer workflow) (h.step_fails seq) read calm
    cases same

theorem replayOrGuard_over (verify : Option Bool) {name : String} (codec : Codec α) {found : RecordedStep}
    (row : Found ctx h seq name found) :
    onHistory h ctx.lib now (replayOrGuard ctx verify seq name codec : Checked δ (Option α)) cell =
      some ((Execution.recorded ctx codec found.outcome).map some, marked verify seq cell) := by
  unfold replayOrGuard
  rw [over_bind, serveRecorded_over workflow verify codec row]
  cases Execution.recorded ctx codec found.outcome <;> rfl

theorem replayOrGuard_found {name : String} {codec : Codec α} {result : Except Error (Option α)}
    (evaluated : onHistory h ctx.lib now (replayOrGuard ctx (some true) seq name codec : Checked δ (Option α)) cell =
      some (result, cell')) (calm : Calm cell') : ∃ found, Found ctx h seq name found := by
  obtain ⟨_, _, served, quiet⟩ := over_first evaluated calm
  exact serveRecorded_found workflow served quiet

/-- What an operation hands over from a recorded outcome. A child start has no use for one that
succeeded. -/
def given (ctx : Context) (seq : Int) (op : Op δ) (outcome : StepOutcome) : Outcome δ :=
  match op with
  | .step _ codec | .stepWith _ _ _ codec => (Execution.recorded ctx codec outcome).map .value
  | .select _ codec => (Execution.recorded ctx codec outcome).map fun winner => .winner winner.1 winner.2
  | .sleep _ => (Execution.recorded ctx ctx.builtins.instants outcome).map fun _ => .unit
  | .now => (Execution.recorded ctx ctx.builtins.instants outcome).map .instant
  | .uuid => (Execution.recorded ctx ctx.builtins.strings outcome).map .text
  | .random => (Execution.recorded ctx ctx.builtins.floats outcome).map .number
  | .recv _ _ codec | .getEvent _ _ _ codec => (Execution.recorded ctx codec.optional outcome).map .message
  | .startWorkflow _ _ _ =>
    (Execution.recorded ctx .value outcome).bind fun _ =>
      .error (.unexpectedStep ctx.workflowId seq "child workflow" "ordinary step")
  | .send .. | .sendBulk _ | .setWorkflowAttributes .. | .setEvent .. | .writeStream .. | .closeStream _ =>
    (Execution.recorded ctx .value outcome).map fun _ => .unit

def expecting (verify : Option Bool) (seq : Int) (waits : Bool) (cell : Cell) : Cell :=
  if verify.isSome ∧ waits then { cell with seen := cell.seen.book (.reserved (nextSeq seq) "DBOS.sleep") } else cell

omit workflow in
theorem behind_over {lib : SerdeJson} {gate : Checked δ (Option α)} {served : α → Checked δ β} (f : α → β)
    (live : Act δ β) {value : Except Error α} (gated : onHistory h lib now gate cell = some (value.map some, cell'))
    (rest : ∀ a, onHistory h lib now (served a) cell' = some (.ok (f a), cell')) :
    onHistory h lib now (behind gate served live) cell = some (value.map f, cell') := by
  unfold behind
  rw [over_bind, gated]
  cases value with
  | ok a => exact rest a
  | error e => rfl

def Op.starts : Op δ → Bool
  | .startWorkflow .. => true
  | _ => false

omit workflow in
/-- A timer that is read: an execution waits for the rest of it. -/
theorem pause_over {lib : SerdeJson} (verify : Option Bool) (wakeAt : DateTime) :
    onHistory h lib now (do
      let now ← .get (.ask .now)
      let _ ← (if now < wakeAt ∧ verify.isNone then .get (.ask .wait) else pure () : Checked δ Unit)
      pure .unit : Checked δ (Reply δ)) cell = some (.ok .unit, cell) := by
  have read : onHistory h lib now (Checked.get (.ask .now) : Checked δ DateTime) cell = some (.ok now, cell) := rfl
  rw [over_bind, read]
  by_cases pausing : now < wakeAt ∧ verify.isNone = true
  · simp only [Option.bind_some, pausing]
    rfl
  · simp only [Option.bind_some, pausing]
    rfl

omit workflow in
theorem reserve_over {lib : SerdeJson} (verify : Option Bool) :
    onHistory h lib now (reserve verify seq : Checked δ Unit) cell = some (.ok (), expecting verify seq true cell) := by
  cases verify <;> rfl

/-- A call whose row is there returns what the row says, in either mode. -/
theorem performOp_over (verify : Option Bool) (rounds : Nat) {op : Op δ} (ordinary : Op.starts op = false)
    {found : RecordedStep} (row : Found ctx h seq op.name found) :
    onHistory h ctx.lib now (performOp ctx verify rounds seq op) cell =
      some (given ctx seq op found.outcome, marked verify seq (expecting verify seq op.waits cell)) := by
  by_cases waiting : op.waits = true
  · rw [waiting]
    cases op with
    | recv topic timeout codec =>
      simp only [performOp]
      rw [over_bind, reserve_over]
      exact behind_over _ _ (replayOrGuard_over workflow verify _ row) fun _ => rfl
    | getEvent target key timeout codec =>
      simp only [performOp]
      rw [over_bind, reserve_over]
      exact behind_over _ _ (replayOrGuard_over workflow verify _ row) fun _ => rfl
    | _ => cases waiting
  · have still : expecting verify seq op.waits cell = cell := by simp [expecting, waiting]
    rw [still]
    cases op with
    | step | stepWith | select | send | sendBulk | setWorkflowAttributes | setEvent | writeStream | closeStream =>
      exact behind_over _ _ (replayOrGuard_over workflow verify _ row) fun _ => rfl
    | now | uuid | random => exact behind_over _ _ (serveRecorded_over workflow verify _ row) fun _ => rfl
    | sleep span => exact behind_over _ _ (serveRecorded_over workflow verify _ row) fun wakeAt => pause_over verify wakeAt
    | recv | getEvent => exact absurd rfl waiting
    | startWorkflow => cases ordinary

theorem performOp_found {rounds : Nat} {op : Op δ} (ordinary : Op.starts op = false) {result : Outcome δ}
    (evaluated : onHistory h ctx.lib now (performOp ctx (some true) rounds seq op) cell = some (result, cell'))
    (calm : Calm cell') : ∃ found, Found ctx h seq op.name found := by
  cases op with
  | step | stepWith | select | send | sendBulk | setWorkflowAttributes | setEvent | writeStream | closeStream =>
    obtain ⟨_, _, gate, quiet⟩ := over_first evaluated calm
    exact replayOrGuard_found workflow gate quiet
  | now | uuid | random | sleep =>
    obtain ⟨_, _, gate, quiet⟩ := over_first evaluated calm
    exact serveRecorded_found workflow gate quiet
  | recv | getEvent =>
    rcases over_bind_some evaluated calm with ⟨_, _, -, -, rest⟩ | ⟨_, reserved, -⟩
    · obtain ⟨_, _, gate, quiet⟩ := over_first rest calm
      exact replayOrGuard_found workflow gate quiet
    · rw [reserve_over] at reserved
      cases reserved
  | startWorkflow => cases ordinary

end Reads

end Evaluation

end Durare.Verify

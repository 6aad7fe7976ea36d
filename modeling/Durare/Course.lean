import Durare.Observed
import Durare.Soundness

/-! Executions of a body that awaits durable calls, drops some of them and branches on patches, on
the in-memory provider. They crash between any two provider calls and start again; all of them go
through one course. -/
namespace Durare.Course

open Interaction Execution
open Memory hiding Answer
open Replay (on width width_pos nextSeq_eq claim_eq)
open Verify (Query Durable Answer Move Moved Body Visit advanced perform)

def unsupported : Error := .ofMessage "transactional steps require a SQL backend (Postgres or SQLite)"

/-- What a call of an execution is answered. The provider has no transactions. -/
def answer {δ : Type} (lib : SerdeJson) (input : Input δ) : (q : Query) → State → q.Reply δ × State
  | .ask q, s => Execution.answer lib input q s
  | .book _, s => ((), s)
  | .history id, s => (.ok (Verify.workflowSteps id s.1), s)
  | .beginTransaction, s => (.ok (), s)
  | .transact _ _, s => (.error unsupported, s)

/-- An awaited call of an interrupted execution is refused, whether it is built or polled. -/
def admits {δ : Type} (latch : Option Error) (durable : Durable δ) : Except Error Unit :=
  (durable.accepts latch).bind fun _ => check latch

structure Running (δ : Type) where
  call : Durable δ
  seq : Int
  found : Option StepRow
  rest : Client Query (Query.Reply δ) (Except Error (Answer δ))

structure Attempt (δ : Type) where
  rt : Runtime
  trace : List (Visit δ)
  seq : Int
  running : Option (Running δ)

/-- An outcome handed to the body: what the body had been handed before, and the rows at the position
when the call was issued and when it returned. -/
structure Entry (δ : Type) where
  trace : List (Visit δ)
  seq : Int
  call : Durable δ
  found : Option StepRow
  row : Option StepRow
  interrupted : Bool
  outcome : Except Error (Answer δ)

structure System (δ : Type) where
  store : Inner
  latch : Option Error
  attempt : Option (Attempt δ)
  log : List (Entry δ)

def System.idle {δ : Type} (store : Inner) : System δ := ⟨store, none, none, []⟩

def System.asking {δ : Type} (s : System δ) : Option Ask :=
  (s.attempt.bind (·.running)).bind fun running =>
    match running.rest with
    | .ask (.ask q) _ => some q
    | _ => none

inductive Event (δ : Type) where
  | others (now : DateTime) (call : Call)
  | crash
  | start (rt : Runtime)
  | move (rounds : Nat)
  | tick (input : Input δ)

section Machine

variable {δ : Type} (ctx : Context) (body : Body δ)

/-- The next move of the body: a call that is awaited, or one that is built and dropped. -/
def move (rounds : Nat) (attempt : Attempt δ) (s : System δ) : Move δ → System δ
  | .drop durable => { s with attempt := some { attempt with
      trace := attempt.trace ++ [.dropped durable]
      seq := match durable.accepts s.latch with
        | .ok _ => durable.claim attempt.seq
        | .error _ => attempt.seq } }
  | .call durable =>
    match admits s.latch durable with
    | .error e => { s with attempt := some { attempt with trace := attempt.trace ++ [.refused durable e] } }
    | .ok _ => { s with attempt := some { attempt with
        seq := durable.claim attempt.seq
        running := some
          { call := durable
            seq := attempt.seq
            found := s.store.steps.get (ctx.workflowId, attempt.seq)
            rest := perform (on ctx attempt.rt) none rounds attempt.seq durable } } }

/-- One ask of the running call, or the outcome it ends with. A call that goes no further takes its
execution with it. -/
def tick (input : Input δ) (attempt : Attempt δ) (running : Running δ) (s : System δ) : System δ :=
  match running.rest with
  | .done outcome => { s with
      attempt := some { attempt with
        trace := attempt.trace ++ [.answered running.seq running.call outcome]
        seq := advanced attempt.seq outcome
        running := none }
      log := s.log ++ [
        { trace := attempt.trace
          seq := running.seq
          call := running.call
          found := running.found
          row := s.store.steps.get (ctx.workflowId, running.seq)
          interrupted := s.latch.isSome
          outcome := outcome }] }
  | .ask q k =>
    let (reply, store, latch) := answer ctx.lib input q (s.store, s.latch)
    { s with
      store := store
      latch := latch
      attempt := some { attempt with running := some { running with rest := k reply } } }
  | .halt => { s with latch := none, attempt := none }

def next (s : System δ) : Event δ → System δ
  | .others now call => { s with store := step ctx.lib s.store (now, call) }
  | .crash => { s with latch := none, attempt := none }
  | .start rt =>
    match s.attempt with
    | some _ => s
    | none => { s with latch := none, attempt := some ⟨rt, [], 0, none⟩ }
  | .move rounds =>
    match s.attempt with
    | some attempt =>
      match attempt.running, body.next (attempt.trace.map Visit.moved) with
      | none, some made => move ctx rounds attempt s made
      | _, _ => s
    | none => s
  | .tick input =>
    match s.attempt with
    | some attempt =>
      match attempt.running with
      | some running => tick ctx input attempt running s
      | none => s
    | none => s

abbrev run (events : List (Event δ)) (s : System δ) : System δ := Runs.run (next ctx body) events s

end Machine

section Allowed

variable {δ : Type} (ctx : Context) (body : Body δ)

/-- The patch that a visit found deprecated at a position without its marker. -/
def deprecates (seq : Int) : Visit δ → Option String
  | .answered at_ (.deprecatePatch name) (.ok (.deprecated counter)) =>
    if at_ = seq ∧ counter = seq then some name else none
  | _ => none

/-- The call may be recorded under the marker of the patch. -/
def marks (name : String) : Durable δ → Bool
  | .op op => op.name = marker name
  | .patch other => other = name
  | _ => false

/-- A patch that was deprecated is not made again at that position. -/
def Undeprecated (trace : List (Visit δ)) (seq : Int) (durable : Durable δ) : Prop :=
  ∀ visit ∈ trace, ∀ name ∈ deprecates seq visit, marks name durable = false

instance (trace : List (Visit δ)) (seq : Int) (durable : Durable δ) : Decidable (Undeprecated trace seq durable) :=
  inferInstanceAs (Decidable (∀ visit ∈ trace, ∀ name ∈ deprecates seq visit, _ = _))

/-- Data sources keep their rows in databases of their own. -/
def onSource : Durable δ → Bool
  | .transactionOn .. => true
  | _ => false

/-- What a move of an execution meets: the counter does not overflow, the body has not come where it
may not go on, its calls are those of this provider, and a deprecated patch stays so. -/
def Issues (stuck : List (Visit δ) → Prop) (attempt : Attempt δ) (made : Move δ) : Prop :=
  attempt.seq + 2 < 2 ^ 31 ∧ ¬ stuck attempt.trace ∧
    match made with
    | .call durable => onSource durable = false ∧ Undeprecated attempt.trace attempt.seq durable
    | .drop _ => True

instance (stuck : List (Visit δ) → Prop) [DecidablePred stuck] (attempt : Attempt δ) :
    ∀ made, Decidable (Issues stuck attempt made)
  | .call _ => inferInstanceAs (Decidable (_ ∧ ¬ _ ∧ _ ∧ _))
  | .drop _ => inferInstanceAs (Decidable (_ ∧ ¬ _ ∧ True))

/-- The others do not replace the workflow's history or cancel it, and every ask of a call is
answered properly. -/
def Allowed (proper : Input δ → Inner → Ask → Prop) (stuck : List (Visit δ) → Prop) (s : System δ) : Event δ → Prop
  | .others _ call => Others ctx.workflowId s.store call
  | .move _ => ∀ attempt ∈ s.attempt, attempt.running.isNone = true →
      ∀ made ∈ body.next (attempt.trace.map Visit.moved), Issues stuck attempt made
  | .tick input => ∀ q ∈ s.asking, proper input s.store q
  | .crash | .start _ => True

instance (proper : Input δ → Inner → Ask → Prop) [∀ input store q, Decidable (proper input store q)]
    (stuck : List (Visit δ) → Prop) [DecidablePred stuck] (s : System δ) :
    ∀ event, Decidable (Allowed ctx body proper stuck s event)
  | .others _ call => inferInstanceAs (Decidable (Others ctx.workflowId s.store call))
  | .move _ => inferInstanceAs (Decidable (∀ attempt ∈ s.attempt, _ = _ →
      ∀ made ∈ body.next (attempt.trace.map Visit.moved), Issues stuck attempt made))
  | .tick input => inferInstanceAs (Decidable (∀ q ∈ s.asking, proper input s.store q))
  | .crash | .start _ => .isTrue trivial

end Allowed

section Course

variable {δ : Type}

def after (seq : Int) : Visit δ → Int
  | .refused _ _ => seq
  | .dropped durable => durable.taken seq
  | .answered _ durable outcome => advanced (durable.claim seq) outcome

/-- The counter of an execution that went through these visits. -/
def counter (trace : List (Visit δ)) : Int := trace.foldl after 0

@[simp] theorem counter_nil : counter ([] : List (Visit δ)) = 0 := rfl

@[simp] theorem counter_snoc (trace : List (Visit δ)) (visit : Visit δ) :
    counter (trace ++ [visit]) = after (counter trace) visit := by
  simp [counter, List.foldl_append]

/-- What is shown of the outcome of an operation beside its place in the course: a fact of the call,
its result and the row at its position. -/
abbrev Fact (δ : Type) := Op δ → Outcome δ → Option StepRow → Prop

/-- A child start is recorded as a link, or as a rejection. -/
def Linked (op : Op δ) (row : StepRow) : Prop :=
  Verify.Op.starts op = true → row.childWorkflowId.isSome = true ∨ row.error.isSome = true

section Rows

variable (ctx : Context) (fact : Fact δ) (left : Inner) (seq : Int)

/-- What can stand at the positions of a call: an operation's own rows, the marker of a patch or a
row that was there from the outset, no marker of a deprecated patch. -/
def Prior (store : Inner) : Durable δ → Prop
  | .op op => Begun ctx seq op store ∧ ∀ row, store.steps.get (ctx.workflowId, seq) = some row → Linked op row
  | .patch name => ∀ row, store.steps.get (ctx.workflowId, seq) = some row →
      row.name = marker name ∨ left.steps.get (ctx.workflowId, seq) = some row
  | .deprecatePatch name => ∀ row, store.steps.get (ctx.workflowId, seq) = some row → row.name ≠ marker name
  | _ => True

def Answers (store : Inner) (outcome : Except Error (Answer δ)) : Durable δ → Prop
  | .op op => ∃ result : Outcome δ, outcome = result.map .reply ∧ Settles ctx seq op result store ∧
      fact op result (store.steps.get (ctx.workflowId, seq))
  | .patch name => ∃ row, store.steps.get (ctx.workflowId, seq) = some row ∧
      outcome = .ok (if row.name = marker name then .patched true (nextSeq seq) else .patched false seq)
  | .deprecatePatch name => outcome = .ok (.deprecated
      (if (store.steps.get (ctx.workflowId, seq)).map (·.name) = some (marker name) then nextSeq seq else seq))
  | .transactionWith .. => outcome = .error unsupported
  | .transactionOn .. => True

/-- A row that the call may add. -/
def Writes (store : Inner) (p : Int) (row : StepRow) : Durable δ → Prop
  | .op op => p = seq ∧ row.name = op.name ∧ refusal ctx op store = none ∧ Linked op row ∨
      p = nextSeq seq ∧ op.waits = true ∧ Deadline ctx row
  | .patch name => p = seq ∧ row.name = marker name
  | _ => False

/-- How the store may move while a call runs. -/
structure Moves (durable : Durable δ) (store store' : Inner) : Prop where
  steps : ∀ p, store'.steps.get (ctx.workflowId, p) = store.steps.get (ctx.workflowId, p) ∨
    (store.steps.get (ctx.workflowId, p) = none ∧ ∃ row, store'.steps.get (ctx.workflowId, p) = some row ∧
      Writes ctx seq store p row durable)
  runnable : Runnable ctx.workflowId store → Runnable ctx.workflowId store'
  closed : ∀ key, Closed store ctx.workflowId key → Closed store' ctx.workflowId key

end Rows

variable (ctx : Context) (body : Body δ) (fact : Fact δ) (left : Inner) (stuck : List (Visit δ) → Prop)

/-- The call is the body's next one, and it is made. -/
structure Claims (trace : List (Visit δ)) (durable : Durable δ) : Prop where
  next : body.next (trace.map Visit.moved) = some (.call durable)
  accepted : durable.accepts none = .ok ()
  room : counter trace + 2 < 2 ^ 31
  unstuck : ¬ stuck trace
  onSite : onSource durable = false
  undeprecated : Undeprecated trace (counter trace) durable

/-- What a visit of the course stands for: every execution makes it, and it goes the same way. -/
inductive Kept (store : Inner) (trace : List (Visit δ)) : Visit δ → Prop where
  | dropped (durable : Durable δ) (next : body.next (trace.map Visit.moved) = some (.drop durable))
      (room : counter trace + 2 < 2 ^ 31) : Kept store trace (.dropped durable)
  | refused (durable : Durable δ) (e : Error) (next : body.next (trace.map Visit.moved) = some (.call durable))
      (refusal : durable.accepts none = .error e) (room : counter trace + 2 < 2 ^ 31) :
    Kept store trace (.refused durable e)
  | answered (durable : Durable δ) (outcome : Except Error (Answer δ)) (claims : Claims body stuck trace durable)
      (prior : Prior ctx left (counter trace) store durable)
      (answers : Answers ctx fact (counter trace) store outcome durable) :
    Kept store trace (.answered (counter trace) durable outcome)

/-- The course of all executions so far. -/
def Charted (store : Inner) (canon : List (Visit δ)) : Prop :=
  ∀ before visit after, canon = before ++ visit :: after → Kept ctx body fact left stuck store before visit

/-- A row beyond the course belongs to the call that comes next. -/
def Belongs (seq p : Int) (row : StepRow) : Durable δ → Prop
  | .op op => p = seq ∨ op.waits = true ∧ p = nextSeq seq
  | .patch name => p = seq ∧ row.name = marker name
  | _ => False

structure Frontier (store : Inner) (canon : List (Visit δ)) : Prop where
  prior : ∀ durable, Claims body stuck canon durable → Prior ctx left (counter canon) store durable
  beyond : ¬ stuck canon → ∀ p row, counter canon ≤ p → store.steps.get (ctx.workflowId, p) = some row →
    ∃ durable, Claims body stuck canon durable ∧ Belongs (counter canon) p row durable

end Course

section Positions

variable {δ : Type} {ctx : Context} {body : Body δ} {fact : Fact δ} {left : Inner} {stuck : List (Visit δ) → Prop}
  {store store' : Inner} {canon trace results : List (Visit δ)} {durable : Durable δ} {seq : Int}

theorem advanced_reply (claimed : Int) (result : Outcome δ) : advanced claimed (result.map Answer.reply) = claimed := by
  cases result <;> rfl

theorem claim_ge (low : 0 ≤ seq) (room : seq + 2 < 2 ^ 31) (durable : Durable δ) : seq ≤ durable.claim seq := by
  have one := nextSeq_eq low room
  cases durable with
  | op op =>
    have wide := width_pos op
    have claimed := claim_eq op low room
    simp only [Durable.claim]
    omega
  | patch | deprecatePatch => exact le_refl _
  | transactionWith | transactionOn =>
    simp only [Durable.claim]
    omega

def reach : Durable δ → Int
  | .op op => width op
  | .patch _ => 1
  | _ => 0

/-- A call of the course takes its positions, a patch where it found nothing before. -/
theorem answered_after {outcome : Except Error (Answer δ)} (low : 0 ≤ seq) (room : seq + 2 < 2 ^ 31)
    (onSite : onSource durable = false) (answers : Answers ctx fact seq store outcome durable) :
    seq ≤ advanced (durable.claim seq) outcome ∧
      ((∀ name, durable = .patch name → store.steps.get (ctx.workflowId, seq) = none) →
        seq + reach durable ≤ advanced (durable.claim seq) outcome) := by
  have one := nextSeq_eq low room
  have more := claim_ge low room durable
  cases durable with
  | op op =>
    obtain ⟨result, rfl, -⟩ := answers
    rw [advanced_reply]
    refine ⟨more, fun _ => ?_⟩
    simp only [Durable.claim, reach, claim_eq op low room]
    exact le_refl _
  | patch name =>
    obtain ⟨row, present, rfl⟩ := answers
    constructor
    · split <;> simp only [advanced] <;> omega
    · intro vacant
      rw [vacant name rfl] at present
      cases present
  | deprecatePatch name =>
    cases answers
    simp only [advanced, reach]
    constructor
    · split <;> omega
    · intro _
      split <;> omega
  | transactionWith name codec =>
    cases answers
    exact ⟨more, fun _ => by simpa [reach, advanced] using more⟩
  | transactionOn => cases onSite

theorem Kept.grows {visit : Visit δ} (low : 0 ≤ counter trace)
    (kept : Kept ctx body fact left stuck store trace visit) : counter trace ≤ after (counter trace) visit := by
  cases kept with
  | dropped durable next room =>
    simp only [after, Durable.taken]
    split
    · exact claim_ge low room durable
    · exact le_refl _
  | refused durable e next refusal room => exact le_refl _
  | answered durable outcome claims prior answers => exact (answered_after low claims.room claims.onSite answers).1

theorem Charted.before {rest : List (Visit δ)} (charted : Charted ctx body fact left stuck store (canon ++ rest)) :
    Charted ctx body fact left stuck store canon := by
  intro before visit after split
  subst split
  exact charted before visit (after ++ rest) (by simp)

theorem Charted.within (charted : Charted ctx body fact left stuck store canon) (within : results <+: canon) :
    Charted ctx body fact left stuck store results := by
  obtain ⟨rest, rfl⟩ := within
  exact charted.before

/-- The counter starts at zero and never goes back. -/
theorem Charted.low (charted : Charted ctx body fact left stuck store canon) : 0 ≤ counter canon := by
  induction canon using List.reverseRecOn with
  | nil => simp
  | append_singleton before visit ih =>
    have low := ih charted.before
    have grows := (charted before visit [] rfl).grows low
    rw [counter_snoc]
    omega

theorem Charted.counter_le {rest : List (Visit δ)} (charted : Charted ctx body fact left stuck store (canon ++ rest)) :
    counter canon ≤ counter (canon ++ rest) := by
  induction rest using List.reverseRecOn with
  | nil => simp
  | append_singleton rest visit ih =>
    rw [← List.append_assoc] at charted ⊢
    have earlier := ih charted.before
    have grows := (charted (canon ++ rest) visit [] rfl).grows charted.before.low
    rw [counter_snoc]
    omega

/-- A call of the course has its visit there. -/
theorem Kept.outcome {visit : Visit δ} (kept : Kept ctx body fact left stuck store trace visit)
    (claims : Claims body stuck trace durable) :
    ∃ outcome, visit = .answered (counter trace) durable outcome ∧ Prior ctx left (counter trace) store durable ∧
      Answers ctx fact (counter trace) store outcome durable := by
  cases kept with
  | dropped other next room =>
    rw [claims.next] at next
    cases next
  | refused other e next refusal room =>
    rw [claims.next] at next
    cases next
    rw [claims.accepted] at refusal
    cases refusal
  | answered other outcome claims' prior answers =>
    have next := claims'.next
    rw [claims.next] at next
    cases next
    exact ⟨outcome, rfl, prior, answers⟩

theorem Charted.visit {rest : List (Visit δ)} {visit : Visit δ}
    (charted : Charted ctx body fact left stuck store (trace ++ visit :: rest)) (claims : Claims body stuck trace durable) :
    ∃ outcome, visit = .answered (counter trace) durable outcome ∧ Prior ctx left (counter trace) store durable ∧
      Answers ctx fact (counter trace) store outcome durable := (charted trace visit rest rfl).outcome claims

/-- A position gives one outcome. -/
theorem Answers.unique {first second : Except Error (Answer δ)} (onSite : onSource durable = false)
    (one : Answers ctx fact seq store first durable) (other : Answers ctx fact seq store second durable) :
    first = second := by
  cases durable with
  | op op =>
    obtain ⟨result, rfl, settles, -⟩ := one
    obtain ⟨result', rfl, settles', -⟩ := other
    rw [Replay.settles_unique settles settles']
  | patch name =>
    obtain ⟨row, present, rfl⟩ := one
    obtain ⟨row', present', rfl⟩ := other
    rw [present] at present'
    cases present'
    rfl
  | deprecatePatch | transactionWith => exact one.trans other.symm
  | transactionOn => cases onSite

theorem Charted.passes {far : Int} (charted : Charted ctx body fact left stuck store canon)
    (claims : Claims body stuck trace durable) (within : trace <+: canon) (later : results <+: canon)
    (shorter : trace.length < results.length)
    (past : ∀ outcome, Prior ctx left (counter trace) store durable → Answers ctx fact (counter trace) store outcome durable →
      far ≤ advanced (durable.claim (counter trace)) outcome) :
    far ≤ counter results := by
  obtain ⟨rest, rfl⟩ := List.prefix_of_prefix_length_le within later shorter.le
  cases rest with
  | nil => simp at shorter
  | cons visit rest =>
    have here := charted.within later
    obtain ⟨outcome, rfl, prior, answers⟩ := here.visit claims
    have shifted : trace ++ Visit.answered (counter trace) durable outcome :: rest =
        trace ++ [Visit.answered (counter trace) durable outcome] ++ rest := by simp
    rw [shifted] at here ⊢
    have onward := here.counter_le
    rw [counter_snoc] at onward
    exact le_trans (past outcome prior answers) onward

/-- What comes after a call comes after all its positions. -/
theorem Charted.precedes (charted : Charted ctx body fact left stuck store canon)
    (claims : Claims body stuck trace durable)
    (within : trace <+: canon) (later : results <+: canon) (shorter : trace.length < results.length)
    (vacant : ∀ name, durable = .patch name → store.steps.get (ctx.workflowId, counter trace) = none) :
    counter trace + reach durable ≤ counter results := by
  refine charted.passes claims within later shorter ?_
  intro outcome _ answers
  exact (answered_after (charted.within within).low claims.room claims.onSite answers).2 vacant

end Positions

section Later

variable {δ : Type} {ctx : Context} {body : Body δ} {fact : Fact δ} {left : Inner} {stuck : List (Visit δ) → Prop}
  {store store' : Inner} {canon before trace : List (Visit δ)} {op : Op δ} {durable : Durable δ} {seq : Int}

theorem Moves.stays {p : Int} {row : StepRow} (moved : Moves ctx seq durable store store')
    (present : store.steps.get (ctx.workflowId, p) = some row) : store'.steps.get (ctx.workflowId, p) = some row := by
  obtain same | ⟨vacant, -⟩ := moved.steps p
  · exact same.trans present
  · rw [present] at vacant
    cases vacant

theorem sleep_unmarked (name : String) : "DBOS.sleep" ≠ marker name := by
  intro same
  have first := congrArg (fun text : String => text.toList.take 6) same
  simp [marker, PATCH_PREFIX] at first

theorem marker_inj {name other : String} : marker name = marker other ↔ name = other := by
  simp [marker]

theorem reach_waits (waits : op.waits = true) : reach (Durable.op op) = 2 := by
  rw [reach, width, waits]
  rfl

theorem claims_same (first : Claims body stuck trace (.op op)) (second : Claims body stuck trace durable) :
    durable = .op op := by
  have same := second.next.symm.trans first.next
  cases same
  rfl

variable (charted : Charted ctx body fact left stuck store canon) (first : Claims body stuck before (.op op))
  (inside : before <+: canon) (second : Claims body stuck trace durable) (within : trace <+: canon)
include charted first inside second within

/-- A row that appears at the own position of an operation is its own. -/
theorem own_row (moved : Moves ctx (counter trace) durable store store') :
    store'.steps.get (ctx.workflowId, counter before) = store.steps.get (ctx.workflowId, counter before) ∨
      (store.steps.get (ctx.workflowId, counter before) = none ∧ refusal ctx op store = none ∧
        ∃ row, store'.steps.get (ctx.workflowId, counter before) = some row ∧ row.name = op.name ∧ Linked op row) := by
  obtain same | ⟨vacant, row, present, writes⟩ := moved.steps (counter before)
  · exact .inl same
  have early := charted.precedes first inside within
  have late := charted.precedes second within inside
  have wide := width_pos op
  have one := nextSeq_eq (charted.within within).low second.room
  rcases lt_trichotomy before.length trace.length with shorter | same | longer
  · have past := early shorter fun _ patch => by cases patch
    simp only [reach] at past
    cases durable with
    | op other =>
      obtain ⟨here, -⟩ | ⟨here, -⟩ := writes
      · omega
      · omega
    | patch name =>
      obtain ⟨here, -⟩ := writes
      omega
    | deprecatePatch | transactionWith | transactionOn => cases writes
  · obtain rfl : before = trace := (List.prefix_of_prefix_length_le inside within same.le).eq_of_length same
    cases claims_same first second
    obtain ⟨-, named, free, linked⟩ | ⟨here, -⟩ := writes
    · exact .inr ⟨vacant, free, row, present, named, linked⟩
    · omega
  · cases durable with
    | op other =>
      have past := late longer fun _ patch => by cases patch
      have wide' := width_pos other
      simp only [reach] at past
      obtain ⟨here, -⟩ | ⟨here, waits, -⟩ := writes
      · omega
      · have two : width other = 2 := reach_waits waits
        omega
    | patch name =>
      obtain ⟨here, -⟩ := writes
      have past := late longer fun _ _ => here ▸ vacant
      simp only [reach] at past
      omega
    | deprecatePatch | transactionWith | transactionOn => cases writes

/-- A row that appears at the timer's position of a wait is its timer. -/
theorem timer_row (waits : op.waits = true) (moved : Moves ctx (counter trace) durable store store') :
    store'.steps.get (ctx.workflowId, nextSeq (counter before)) =
        store.steps.get (ctx.workflowId, nextSeq (counter before)) ∨
      ∃ row, store'.steps.get (ctx.workflowId, nextSeq (counter before)) = some row ∧ Deadline ctx row := by
  obtain same | ⟨vacant, row, present, writes⟩ := moved.steps (nextSeq (counter before))
  · exact .inl same
  have one := nextSeq_eq (charted.within inside).low first.room
  have two := reach_waits waits
  -- only a timer is written there: every other row is at the own position of its call
  have timer : ∀ p, nextSeq (counter before) = p → p = counter trace →
      (∀ name, durable = .patch name → store.steps.get (ctx.workflowId, counter trace) = none) → 1 ≤ reach durable →
      before.length ≠ trace.length → False := by
    intro p here own vacant wide apart
    rcases lt_or_gt_of_ne apart with shorter | longer
    · have past := charted.precedes first inside within shorter fun _ patch => by cases patch
      omega
    · have past := charted.precedes second within inside longer vacant
      omega
  have same : before.length = trace.length → durable = .op op ∧ counter before = counter trace := by
    intro same
    obtain rfl : before = trace := (List.prefix_of_prefix_length_le inside within same.le).eq_of_length same
    exact ⟨claims_same first second, rfl⟩
  cases durable with
  | op other =>
    obtain ⟨here, -⟩ | ⟨-, -, timer'⟩ := writes
    · refine (timer _ rfl here (fun _ patch => by cases patch) (width_pos other) ?_).elim
      intro equal
      have counters := (same equal).2
      omega
    · exact .inr ⟨row, present, timer'⟩
  | patch name =>
    obtain ⟨here, -⟩ := writes
    refine (timer _ rfl here (fun _ _ => here ▸ vacant) (le_refl _) ?_).elim
    intro equal
    cases (same equal).1
  | deprecatePatch | transactionWith | transactionOn => cases writes

/-- What can stand at the positions of an operation still does. -/
theorem begun_later (moved : Moves ctx (counter trace) durable store store')
    (prior : Prior ctx left (counter before) store (.op op)) : Prior ctx left (counter before) store' (.op op) := by
  obtain ⟨begun, linked⟩ := prior
  have own := own_row charted first inside second within moved
  refine ⟨⟨?_, ?_⟩, ?_⟩
  · intro row present
    obtain same | ⟨-, -, row', present', named, -⟩ := own
    · exact begun.own row (same ▸ present)
    · rw [present'] at present
      cases present
      exact named
  · intro waits row present
    obtain same | ⟨row', present', timer⟩ := timer_row charted first inside second within waits moved
    · exact begun.timer waits row (same ▸ present)
    · rw [present'] at present
      cases present
      exact timer
  · intro row present
    obtain same | ⟨-, -, row', present', -, linked'⟩ := own
    · exact linked row (same ▸ present)
    · rw [present'] at present
      cases present
      exact linked'

/-- A settled operation stays as it is, and so does its own position. -/
theorem settles_later {result : Outcome δ} (moved : Moves ctx (counter trace) durable store store')
    (settles : Settles ctx (counter before) op result store) :
    Settles ctx (counter before) op result store' ∧
      store'.steps.get (ctx.workflowId, counter before) = store.steps.get (ctx.workflowId, counter before) := by
  rcases settles with ⟨row, present, named, same⟩ | ⟨vacant, e, refused, same⟩
  · have stays := moved.stays present
    exact ⟨.inl ⟨row, stays, named, same⟩, stays.trans present.symm⟩
  · obtain stays | ⟨-, free, -⟩ := own_row charted first inside second within moved
    · have refused' : refusal ctx op (store', (none : Option Error)).1 = some e :=
        refusal_later (s := (store, none)) refused moved.closed
      exact ⟨.inr ⟨stays.trans vacant, e, refused', same⟩, stays⟩
    · rw [refused] at free
      cases free

omit first inside in
/-- No marker of a deprecated patch appears where it was deprecated. -/
theorem unmarked_later {name : String} {rest : List (Visit δ)}
    (here : canon = before ++ .answered (counter before) (.deprecatePatch name) (.ok (.deprecated (counter before))) :: rest)
    (claims : Claims body stuck before (.deprecatePatch name)) (moved : Moves ctx (counter trace) durable store store')
    (unmarked : ∀ row, store.steps.get (ctx.workflowId, counter before) = some row → row.name ≠ marker name) :
    ∀ row, store'.steps.get (ctx.workflowId, counter before) = some row → row.name ≠ marker name := by
  intro row present
  obtain same | ⟨vacant, row', present', writes⟩ := moved.steps (counter before)
  · exact unmarked row (same ▸ present)
  rw [present'] at present
  cases present
  -- a call that records there comes after the deprecation, and is recorded under another name
  have own : counter before = counter trace → 1 ≤ reach durable → marks name durable = false := by
    intro at_ wide
    have inside : before <+: canon := here ▸ List.prefix_append _ _
    rcases lt_trichotomy before.length trace.length with shorter | same | longer
    · have earlier : before ++ [.answered (counter before) (.deprecatePatch name) (.ok (.deprecated (counter before)))] <+: trace := by
        refine List.prefix_of_prefix_length_le ?_ within (by simp; omega)
        exact ⟨rest, by simp [here]⟩
      have visited : .answered (counter before) (.deprecatePatch name) (.ok (.deprecated (counter before))) ∈ trace :=
        earlier.subset (by simp)
      exact second.undeprecated _ visited name (by simp [deprecates, at_])
    · obtain rfl : before = trace := (List.prefix_of_prefix_length_le inside within same.le).eq_of_length same
      have next := second.next.symm.trans claims.next
      cases next
      cases writes
    · have past := charted.precedes second within inside longer fun _ _ => at_ ▸ vacant
      omega
  cases durable with
  | op op =>
    obtain ⟨at_, named, -⟩ | ⟨-, -, timer⟩ := writes
    · have apart := own at_ (width_pos op)
      rw [named]
      simpa [marks] using apart
    · rw [timer.1]
      exact sleep_unmarked name
  | patch other =>
    obtain ⟨at_, named⟩ := writes
    have apart := own at_ (le_refl _)
    rw [named]
    exact fun same => by simp [marks, marker_inj.mp same] at apart
  | deprecatePatch | transactionWith | transactionOn => cases writes

omit first inside in
theorem Kept.later {visit : Visit δ} {rest : List (Visit δ)} (here : canon = before ++ visit :: rest)
    (moved : Moves ctx (counter trace) durable store store') : Kept ctx body fact left stuck store' before visit := by
  have inside : before <+: canon := here ▸ List.prefix_append _ _
  have kept := charted before visit rest here
  cases kept with
  | dropped durable next room => exact .dropped durable next room
  | refused durable e next refusal room => exact .refused durable e next refusal room
  | answered call outcome claims prior answers =>
    cases call with
    | op op =>
      obtain ⟨result, same, settles, shown⟩ := answers
      obtain ⟨settles, stays⟩ := settles_later charted claims inside second within moved settles
      exact .answered _ _ claims (begun_later charted claims inside second within moved prior)
        ⟨result, same, settles, by rw [stays]; exact shown⟩
    | patch name =>
      obtain ⟨row, present, same⟩ := answers
      have stays := moved.stays present
      refine .answered _ _ claims ?_ ⟨row, stays, same⟩
      intro row' present'
      rw [stays] at present'
      cases present'
      exact prior row present
    | deprecatePatch name =>
      cases answers
      have passed : ∀ {s : Inner}, (∀ row, s.steps.get (ctx.workflowId, counter before) = some row → row.name ≠ marker name) →
          (s.steps.get (ctx.workflowId, counter before)).map (·.name) ≠ some (marker name) := by
        intro s unmarked same
        obtain ⟨row, present, named⟩ := Option.map_eq_some_iff.mp same
        exact unmarked row present named
      rw [if_neg (passed prior)] at here ⊢
      have unmarked := unmarked_later charted second within here claims moved prior
      refine .answered _ _ claims unmarked ?_
      rw [Answers, if_neg (passed unmarked)]
    | transactionWith name codec => exact .answered _ _ claims trivial answers
    | transactionOn => cases claims.onSite

omit first inside in
theorem Charted.later (moved : Moves ctx (counter trace) durable store store') :
    Charted ctx body fact left stuck store' canon :=
  fun _ _ _ here => Kept.later charted second within here moved

omit first inside in
/-- A row that appears beyond the course is written by the call that comes next. -/
theorem far_row {p : Int} {row : StepRow} (moved : Moves ctx (counter trace) durable store store')
    (far : counter canon ≤ p)
    (present : store'.steps.get (ctx.workflowId, p) = some row) :
    store.steps.get (ctx.workflowId, p) = some row ∨ (trace = canon ∧ Writes ctx (counter trace) store p row durable) := by
  obtain same | ⟨vacant, row', present', writes⟩ := moved.steps p
  · exact .inl (same ▸ present)
  rw [present'] at present
  cases present
  refine .inr ⟨within.eq_of_length_le ?_, writes⟩
  by_contra shorter
  have one := nextSeq_eq (charted.within within).low second.room
  have past := charted.precedes second within (List.prefix_refl canon) (not_le.mp shorter)
  cases durable with
  | op op =>
    have past := past fun _ patch => by cases patch
    have wide := width_pos op
    simp only [reach] at past
    obtain ⟨here, -⟩ | ⟨here, waits, -⟩ := writes
    · omega
    · have two : width op = 2 := reach_waits waits
      omega
  | patch name =>
    obtain ⟨here, -⟩ := writes
    have past := past fun _ _ => here ▸ vacant
    simp only [reach] at past
    omega
  | deprecatePatch | transactionWith | transactionOn => cases writes

omit first inside in
theorem Frontier.later (frontier : Frontier ctx body left stuck store canon)
    (moved : Moves ctx (counter trace) durable store store') : Frontier ctx body left stuck store' canon where
  prior := by
    intro call claims
    have prior := frontier.prior call claims
    have far : ∀ row, store'.steps.get (ctx.workflowId, counter canon) = some row →
        store.steps.get (ctx.workflowId, counter canon) = some row ∨ Writes ctx (counter canon) store (counter canon) row call := by
      intro row present
      obtain old | ⟨rfl, writes⟩ := far_row charted second within moved (le_refl _) present
      · exact .inl old
      · have next := second.next.symm.trans claims.next
        cases next
        exact .inr writes
    cases call with
    | op op => exact begun_later charted claims (List.prefix_refl _) second within moved prior
    | patch name =>
      intro row present
      obtain old | ⟨-, named⟩ := far row present
      · exact prior row old
      · exact .inl named
    | deprecatePatch name =>
      intro row present
      obtain old | writes := far row present
      · exact prior row old
      · cases writes
    | transactionWith | transactionOn => trivial
  beyond := by
    intro unstuck p row far present
    obtain old | ⟨rfl, writes⟩ := far_row charted second within moved far present
    · exact frontier.beyond unstuck p row far old
    · refine ⟨durable, second, ?_⟩
      cases durable with
      | op op =>
        obtain ⟨here, -⟩ | ⟨here, waits, -⟩ := writes
        · exact .inl here
        · exact .inr ⟨waits, here⟩
      | patch name => exact writes
      | deprecatePatch | transactionWith | transactionOn => cases writes

end Later

section Extend

variable {δ : Type} {ctx : Context} {body : Body δ} {fact : Fact δ} {left : Inner} {stuck : List (Visit δ) → Prop}
  {store : Inner} {canon : List (Visit δ)} {visit : Visit δ}

theorem Frontier.clear (low : 0 ≤ counter canon)
    (vacant : ∀ p, counter canon ≤ p → store.steps.get (ctx.workflowId, p) = none) :
    Frontier ctx body left stuck store canon where
  prior := by
    intro durable claims
    have own : ∀ row, store.steps.get (ctx.workflowId, counter canon) ≠ some row := by simp [vacant]
    cases durable with
    | op op =>
      refine ⟨⟨fun row present => absurd present (own row), ?_⟩, fun row present => absurd present (own row)⟩
      intro _ row present
      rw [vacant _ (by rw [nextSeq_eq low claims.room]; omega)] at present
      cases present
    | patch | deprecatePatch => exact fun row present => absurd present (own row)
    | transactionWith | transactionOn => trivial
  beyond := by
    intro _ p row far present
    rw [vacant p far] at present
    cases present

theorem Charted.extend (charted : Charted ctx body fact left stuck store canon)
    (kept : Kept ctx body fact left stuck store canon visit) :
    Charted ctx body fact left stuck store (canon ++ [visit]) := by
  intro before visit' after here
  induction after using List.reverseRecOn with
  | nil =>
    obtain ⟨rfl, last⟩ := List.append_inj' here rfl
    cases last
    exact kept
  | append_singleton after last _ =>
    have shifted : canon ++ [visit] = (before ++ visit' :: after) ++ [last] := by simpa using here
    exact charted before visit' after (List.append_inj' shifted rfl).1

/-- Nothing stands beyond a course that has just gone on. -/
theorem Frontier.extend (frontier : Frontier ctx body left stuck store canon)
    (charted : Charted ctx body fact left stuck store canon) (unstuck : ¬ stuck canon)
    (kept : Kept ctx body fact left stuck store canon visit) :
    Frontier ctx body left stuck store (canon ++ [visit]) := by
  have low := charted.low
  have grows := kept.grows low
  refine .clear ((charted.extend kept).low) ?_
  intro p far
  rw [counter_snoc] at far
  by_contra present
  obtain ⟨row, present⟩ := Option.ne_none_iff_exists'.mp present
  obtain ⟨durable, claims, belongs⟩ := frontier.beyond unstuck p row (le_trans grows far) present
  have one := nextSeq_eq low claims.room
  have whole : Charted ctx body fact left stuck store (canon ++ visit :: []) := charted.extend kept
  obtain ⟨outcome, rfl, -, answers⟩ := whole.visit claims
  simp only [after] at far
  cases durable with
  | op op =>
    obtain ⟨result, rfl, -⟩ := answers
    have wide := width_pos op
    rw [advanced_reply, Durable.claim, claim_eq op low claims.room] at far
    obtain here | ⟨waits, here⟩ := belongs
    · omega
    · have two : width op = 2 := reach_waits waits
      omega
  | patch name =>
    obtain ⟨here, named⟩ := belongs
    obtain ⟨row', present', rfl⟩ := answers
    rw [← here, present] at present'
    cases present'
    rw [if_pos named, advanced] at far
    omega
  | deprecatePatch | transactionWith | transactionOn => cases belongs

end Extend

section Others

variable {δ : Type} {ctx : Context} {body : Body δ} {fact : Fact δ} {left : Inner} {stuck : List (Visit δ) → Prop}
  {canon trace : List (Visit δ)} {durable : Durable δ} {seq : Int} {s s' : State} (moved : Rely ctx.workflowId s s')
include moved

theorem Prior.others (prior : Prior ctx left seq s.1 durable) : Prior ctx left seq s'.1 durable := by
  cases durable with
  | op op => exact ⟨prior.1.later moved, by rw [moved.steps]; exact prior.2⟩
  | patch | deprecatePatch =>
    simp only [Prior, moved.steps]
    exact prior
  | transactionWith | transactionOn => trivial

theorem Answers.others {outcome : Except Error (Answer δ)} (answers : Answers ctx fact seq s.1 outcome durable) :
    Answers ctx fact seq s'.1 outcome durable := by
  cases durable with
  | op op =>
    obtain ⟨result, same, settles, shown⟩ := answers
    exact ⟨result, same, Replay.settles_others settles moved, by rw [moved.steps]; exact shown⟩
  | patch | deprecatePatch =>
    simp only [Answers, moved.steps]
    exact answers
  | transactionWith | transactionOn => exact answers

theorem Charted.others (charted : Charted ctx body fact left stuck s.1 canon) :
    Charted ctx body fact left stuck s'.1 canon := by
  intro before visit after here
  have kept := charted before visit after here
  cases kept with
  | dropped durable next room => exact .dropped durable next room
  | refused durable e next refusal room => exact .refused durable e next refusal room
  | answered durable outcome claims prior answers =>
    exact .answered durable outcome claims (prior.others moved) (answers.others moved)

theorem Frontier.others (frontier : Frontier ctx body left stuck s.1 canon) :
    Frontier ctx body left stuck s'.1 canon where
  prior := fun durable claims => (frontier.prior durable claims).others moved
  beyond := fun unstuck p row far present => frontier.beyond unstuck p row far ((moved.steps p).symm.trans present)

end Others

end Durare.Course

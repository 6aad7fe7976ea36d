import Durare.Verify

/-! Durable calls take their positions when they are built, and run at them when they are polled, in any order and
any number of times or never. -/
namespace Durare.Construction

open Interaction
open Verify (Query Checked Answer Note)

/-- What the task-locals hold at a point: the execution, and whether a durable body is being polled. -/
structure Scope where
  execution : Option Nat
  inBody : Bool
deriving DecidableEq, Repr

/-- A context at that point: the execution it belongs to, its workflow and the failure that is latched. -/
structure Site where
  own : Nat
  workflowId : String
  failure : Option Error
  scope : Scope

namespace Site

variable (site : Site)

def checkPlacement (operation : String) : Except Error Unit :=
  if site.scope.execution = some site.own then .ok ()
  else .error (.durableCallOutsideExecution site.workflowId operation)

def check : Except Error Unit :=
  match site.failure with
  | some error => .error (.recoveryRequired error)
  | none => .ok ()

def checkCall (operation : String) (bodyError : Error) : Except Error Unit := do
  site.checkPlacement operation
  site.check
  if site.scope.inBody then throw bodyError

def checkCallPoll (operation : String) : Except Error Unit :=
  site.checkCall operation (.durableCallCrossedBody operation)

def refuseInsideBody (operation : String) : Except Error Unit :=
  site.checkCall operation (.nestedDurableCall site.workflowId operation)

end Site

structure Position where
  seq : Int
  operation : String
deriving DecidableEq, Repr

/-- `Position::claim`: a refusal leaves the counter where it is. -/
def claim (site : Site) (operation : String) (seq : Int) : Except Error Position × Int :=
  match site.refuseInsideBody operation with
  | .error e => (.error e, seq)
  | .ok _ => (.ok ⟨seq, operation⟩, nextSeq seq)

/-- A call that was built. A refused one has no position and fails wherever it is awaited. -/
structure PendingStep (δ : Type) where
  position : Option Position
  deadlineSeq : Option Int := none
  running : Client Query (Query.Reply δ) (Except Error (Answer δ))

def PendingStep.failed {δ : Type} (e : Error) : PendingStep δ := { position := none, running := .done (.error e) }

/-- The position at which an ask reads, records or runs something of the execution. -/
def position : Query → Option Int
  | .ask (.call (.getStepResult _ seq)) | .ask (.call (.checkChildWorkflow _ seq))
  | .ask (.call (.getStepName _ seq)) =>
    some seq
  | .ask (.call call) => call.position.map (·.2)
  | .ask (.body seq _) | .ask (.race seq) | .transact seq _ => some seq
  | .book (.served seq) | .book (.stopped seq _) | .book (.reserved seq _) => some seq
  | _ => none

def Own (slots : List Int) (q : Query) : Prop := ∀ p, position q = some p → p ∈ slots

/-- Whatever it is answered, the client stays at the positions it was given. -/
def Stays {δ α : Type} (slots : List Int) (act : Checked δ α) : Prop := Client.Keeps (Own slots) (fun _ => True) act

/-- What a data source does at a position where nothing is recorded (`Transaction.source`). -/
structure Source (δ : Type) where
  run : Int → Checked δ δ
  stays : ∀ seq, Stays [seq] (run seq)

section Constructors

variable {δ : Type} (ctx : Context) (verify : Option Bool) (rounds : Nat) (site : Site)

def claimed (operation : String) (run : Int → Checked δ (Answer δ)) (seq : Int) : PendingStep δ × Int :=
  match claim site operation seq with
  | (.error e, seq) => (.failed e, seq)
  | (.ok position, seq) => ({ position := some position, running := run position.seq }, seq)

/-- A wait, which takes the next position for its deadline. -/
def claimedWait (operation : String) (run : Int → Checked δ (Answer δ)) (seq : Int) : PendingStep δ × Int :=
  match claim site operation seq with
  | (.error e, seq) => (.failed e, seq)
  | (.ok position, seq) =>
    ({ position := some position, deadlineSeq := some seq, running := run position.seq }, nextSeq seq)

/-- A call whose arguments are checked before it claims. -/
def claimedWith (arguments : Except Error α) (operation : String) (run : Int → Checked δ (Answer δ)) (seq : Int) :
    PendingStep δ × Int :=
  match arguments with
  | .error e => (.failed e, seq)
  | .ok _ => claimed site operation run seq

def at_ (op : Op δ) (seq : Int) : Checked δ (Answer δ) := Verify.perform ctx verify rounds seq (.op op)

def step (name : String) (codec : Codec δ) : Int → PendingStep δ × Int :=
  claimed site "step" (at_ ctx verify rounds (.step name codec))

def stepWith (name : String) (maxRetries : Nat) (retryIf : Option (Error → Bool)) (codec : Codec δ) :
    Int → PendingStep δ × Int :=
  claimed site "step" (at_ ctx verify rounds (.stepWith name maxRetries retryIf codec))

def transactionWith (name : String) (codec : Codec δ) : Int → PendingStep δ × Int :=
  claimed site "transaction" fun seq => Verify.perform ctx verify rounds seq (.transactionWith name codec)

def transactionOnWith (name : String) (codec : Codec δ) (source : Source δ) : Int → PendingStep δ × Int :=
  claimed site "transaction" fun seq =>
    Verify.perform ctx verify rounds seq (.transactionOn name codec (source.run seq))

def select (branches : Nat) (codec : Codec (Nat × δ)) : Int → PendingStep δ × Int :=
  claimedWith site (if branches = 0 then .error (.ofMessage "select requires at least one branch") else .ok ()) "select"
    (at_ ctx verify rounds (.select branches codec))

def sleep (span : Duration) : Int → PendingStep δ × Int := claimed site "sleep" (at_ ctx verify rounds (.sleep span))

def now : Int → PendingStep δ × Int := claimed site "DBOS.now" (at_ ctx verify rounds .now)

def uuid : Int → PendingStep δ × Int := claimed site "DBOS.uuid" (at_ ctx verify rounds .uuid)

def random : Int → PendingStep δ × Int := claimed site "DBOS.random" (at_ ctx verify rounds .random)

def send (destination topic : String) (message : Except String Value) : Int → PendingStep δ × Int :=
  claimedWith site (serdeResult message) "send" (at_ ctx verify rounds (.send destination topic message))

def setWorkflowAttributes (id : String) (attributes : Option Columns) : Int → PendingStep δ × Int :=
  claimed site "set_workflow_attributes" (at_ ctx verify rounds (.setWorkflowAttributes id attributes))

def sendBulk (messages : List SendMessage) : Int → PendingStep δ × Int :=
  claimedWith site (prepareBulk messages) "send_bulk" (at_ ctx verify rounds (.sendBulk messages))

def recv (topic : String) (timeout : Duration) (codec : Codec δ) : Int → PendingStep δ × Int :=
  claimedWait site "recv" (at_ ctx verify rounds (.recv topic timeout codec))

def setEvent (key : String) (value : Except String Value) : Int → PendingStep δ × Int :=
  claimedWith site (serdeResult value) "set_event" (at_ ctx verify rounds (.setEvent key value))

def getEvent (target key : String) (timeout : Duration) (codec : Codec δ) : Int → PendingStep δ × Int :=
  claimedWait site "get_event" (at_ ctx verify rounds (.getEvent target key timeout codec))

def writeStream (key : String) (value : Except String Value) : Int → PendingStep δ × Int :=
  claimedWith site (serdeResult value) "write_stream" (at_ ctx verify rounds (.writeStream key value))

def closeStream (key : String) : Int → PendingStep δ × Int :=
  claimed site "close_stream" (at_ ctx verify rounds (.closeStream key))

def startWorkflowImpl (name : String) (input : Except String Value) (opts : WorkflowOptions) (operation : String)
    (seq : Int) : PendingStep δ × Int :=
  match site.refuseInsideBody operation with
  | .error e => (.failed e, seq)
  | .ok _ =>
    claimedWith site (serdeResult input) operation (at_ ctx verify rounds (.startWorkflow name input opts)) seq

def startWorkflow (name : String) (input : Except String Value) (opts : WorkflowOptions) : Int → PendingStep δ × Int :=
  startWorkflowImpl ctx verify rounds site name input opts "start_workflow"

def enqueueWorkflow (queue name : String) (input : Except String Value) (opts : WorkflowOptions) :
    Int → PendingStep δ × Int :=
  startWorkflowImpl ctx verify rounds site name input { opts with queue := some queue } "enqueue_workflow"

end Constructors

/-- The durable calls that claim a position where they are built. -/
inductive Call (δ : Type) where
  | op (op : Op δ)
  | enqueueWorkflow (queue name : String) (input : Except String Value) (opts : WorkflowOptions)
  | transactionWith (name : String) (codec : Codec δ)
  | transactionOn (name : String) (codec : Codec δ) (source : Source δ)

namespace Call

variable {δ : Type}

def construct (ctx : Context) (verify : Option Bool) (rounds : Nat) (site : Site) : Call δ → Int → PendingStep δ × Int
  | .op (.step name codec) => step ctx verify rounds site name codec
  | .op (.stepWith name maxRetries retryIf codec) => stepWith ctx verify rounds site name maxRetries retryIf codec
  | .op (.select branches codec) => select ctx verify rounds site branches codec
  | .op (.sleep span) => sleep ctx verify rounds site span
  | .op .now => now ctx verify rounds site
  | .op .uuid => uuid ctx verify rounds site
  | .op .random => random ctx verify rounds site
  | .op (.send destination topic message) => send ctx verify rounds site destination topic message
  | .op (.sendBulk messages) => sendBulk ctx verify rounds site messages
  | .op (.setWorkflowAttributes id attributes) => setWorkflowAttributes ctx verify rounds site id attributes
  | .op (.recv topic timeout codec) => recv ctx verify rounds site topic timeout codec
  | .op (.setEvent key value) => setEvent ctx verify rounds site key value
  | .op (.getEvent target key timeout codec) => getEvent ctx verify rounds site target key timeout codec
  | .op (.writeStream key value) => writeStream ctx verify rounds site key value
  | .op (.closeStream key) => closeStream ctx verify rounds site key
  | .op (.startWorkflow name input opts) => startWorkflow ctx verify rounds site name input opts
  | .enqueueWorkflow queue name input opts => Construction.enqueueWorkflow ctx verify rounds site queue name input opts
  | .transactionWith name codec => Construction.transactionWith ctx verify rounds site name codec
  | .transactionOn name codec source => transactionOnWith ctx verify rounds site name codec source

def run (ctx : Context) (verify : Option Bool) (rounds : Nat) (seq : Int) : Call δ → Checked δ (Answer δ)
  | .op own => at_ ctx verify rounds own seq
  | .enqueueWorkflow queue name input opts =>
    at_ ctx verify rounds (.startWorkflow name input { opts with queue := some queue }) seq
  | .transactionWith name codec => Verify.perform ctx verify rounds seq (.transactionWith name codec)
  | .transactionOn name codec source =>
    Verify.perform ctx verify rounds seq (.transactionOn name codec (source.run seq))

def prepare : Call δ → Except Error Unit
  | .op own => own.prepare
  | .enqueueWorkflow _ _ input _ => (serdeResult input).map fun _ => ()
  | .transactionWith _ _ | .transactionOn _ _ _ => .ok ()

def waits : Call δ → Bool
  | .op own => own.waits
  | _ => false

def width (call : Call δ) : Nat := if call.waits then 2 else 1

end Call

/-- A place where every durable call is refused: outside its execution, after a latched failure, or in a body. -/
def Site.Closed (site : Site) : Prop :=
  site.scope.execution ≠ some site.own ∨ site.failure.isSome = true ∨ site.scope.inBody = true

/-- A call is refused for its place or for its arguments. -/
def Site.Refuses {δ : Type} (site : Site) (call : Call δ) : Prop := site.Closed ∨ ∃ e, call.prepare = .error e

section Spec

variable {δ : Type} {ctx : Context} {verify : Option Bool} {rounds : Nat} {site : Site}

/-- The check before a claim looks at the place alone. -/
theorem checkCall_refuses (operation : String) (bodyError : Error) :
    (∃ e, site.checkCall operation bodyError = .error e) ↔ site.Closed := by
  unfold Site.checkCall Site.checkPlacement Site.check Site.Closed
  by_cases placed : site.scope.execution = some site.own <;> cases failure : site.failure <;>
    cases nested : site.scope.inBody <;>
    simp [placed, bind, Except.bind, throw, throwThe, MonadExceptOf.throw, pure, Except.pure]

/-- What a constructor leaves: a refused call without a position and the counter as it was, or the call at the next
position, with the one after it for the deadline of a wait, and the counter behind them. -/
structure Spec (bad : Prop) (waits : Bool) (run : Int → Checked δ (Answer δ)) (seq : Int)
    (built : PendingStep δ × Int) : Prop where
  refused : bad → (∃ e, built.1 = .failed e) ∧ built.2 = seq
  accepted : ¬ bad → ∃ operation,
    built.1 = ⟨some ⟨seq, operation⟩, if waits then some (nextSeq seq) else none, run seq⟩ ∧
      built.2 = if waits then nextSeq (nextSeq seq) else nextSeq seq

theorem Spec.congr {bad bad' : Prop} {waits : Bool} {run : Int → Checked δ (Answer δ)} {seq : Int}
    {built : PendingStep δ × Int} (spec : Spec bad waits run seq built) (same : bad ↔ bad') :
    Spec bad' waits run seq built :=
  ⟨fun here => spec.refused (same.mpr here), fun none => spec.accepted fun here => none (same.mp here)⟩

variable (operation : String) (run : Int → Checked δ (Answer δ)) (seq : Int)

theorem claimed_spec : Spec site.Closed false run seq (claimed site operation run seq) := by
  refine Spec.congr ?_ (checkCall_refuses operation (.nestedDurableCall site.workflowId operation))
  unfold claimed claim Site.refuseInsideBody
  cases checked : site.checkCall operation (.nestedDurableCall site.workflowId operation) with
  | error e => exact ⟨fun _ => ⟨⟨e, rfl⟩, rfl⟩, fun accepted => absurd ⟨e, rfl⟩ accepted⟩
  | ok _ =>
    refine ⟨?_, fun _ => ⟨operation, rfl, rfl⟩⟩
    rintro ⟨e, refused⟩
    cases refused

theorem claimedWait_spec : Spec site.Closed true run seq (claimedWait site operation run seq) := by
  refine Spec.congr ?_ (checkCall_refuses operation (.nestedDurableCall site.workflowId operation))
  unfold claimedWait claim Site.refuseInsideBody
  cases checked : site.checkCall operation (.nestedDurableCall site.workflowId operation) with
  | error e => exact ⟨fun _ => ⟨⟨e, rfl⟩, rfl⟩, fun accepted => absurd ⟨e, rfl⟩ accepted⟩
  | ok _ =>
    refine ⟨?_, fun _ => ⟨operation, rfl, rfl⟩⟩
    rintro ⟨e, refused⟩
    cases refused

/-- Bad arguments are refused wherever the call is built. -/
theorem claimedWith_spec {α : Type} (arguments : Except Error α) :
    Spec (site.Closed ∨ ∃ e, (arguments.map fun _ => ()) = .error e) false run seq
      (claimedWith site arguments operation run seq) := by
  cases arguments with
  | error e => exact ⟨fun _ => ⟨⟨e, rfl⟩, rfl⟩, fun accepted => absurd (.inr ⟨e, rfl⟩) accepted⟩
  | ok a =>
    have fine : ¬ ∃ e, ((.ok a : Except Error α).map fun _ => ()) = .error e := fun ⟨e, bad⟩ => by cases bad
    exact (claimed_spec operation run seq).congr ⟨.inl, fun bad => bad.resolve_right fine⟩

theorem startWorkflowImpl_spec (name : String) (input : Except String Value) (opts : WorkflowOptions) :
    Spec (site.Closed ∨ ∃ e, ((serdeResult input).map fun _ => ()) = .error e) false
      (at_ ctx verify rounds (.startWorkflow name input opts)) seq
      (startWorkflowImpl ctx verify rounds site name input opts operation seq : PendingStep δ × Int) := by
  unfold startWorkflowImpl
  cases checked : site.refuseInsideBody operation with
  | ok _ => exact claimedWith_spec ..
  | error e =>
    have closed : site.Closed := (checkCall_refuses ..).mp ⟨e, checked⟩
    exact ⟨fun _ => ⟨⟨e, rfl⟩, rfl⟩, fun accepted => absurd (.inl closed) accepted⟩

theorem construct_spec (call : Call δ) :
    Spec (site.Refuses call) call.waits (fun seq => call.run ctx verify rounds seq) seq
      (call.construct ctx verify rounds site seq) := by
  have argless {waits : Bool} {run : Int → Checked δ (Answer δ)} {built : PendingStep δ × Int}
      (spec : Spec site.Closed waits run seq built) (fine : call.prepare = .ok ()) :
      Spec (site.Refuses call) waits run seq built := by
    refine spec.congr ⟨.inl, fun bad => bad.resolve_right ?_⟩
    rintro ⟨e, refused⟩
    rw [fine] at refused
    cases refused
  cases call with
  | enqueueWorkflow queue name input opts => exact startWorkflowImpl_spec ..
  | transactionWith name codec => exact argless (claimed_spec ..) rfl
  | transactionOn name codec source => exact argless (claimed_spec ..) rfl
  | op op =>
    cases op with
    | startWorkflow name input opts => exact startWorkflowImpl_spec ..
    | send destination topic message => exact claimedWith_spec ..
    | setEvent key value => exact claimedWith_spec ..
    | writeStream key value => exact claimedWith_spec ..
    | sendBulk messages => exact claimedWith_spec ..
    | recv topic timeout codec => exact argless (claimedWait_spec ..) rfl
    | getEvent target key timeout codec => exact argless (claimedWait_spec ..) rfl
    | select branches codec =>
      refine (claimedWith_spec ..).congr (or_congr Iff.rfl ?_)
      by_cases none : branches = 0 <;> simp [none, Call.prepare, Op.prepare, Except.map]
    | step name codec => exact argless (claimed_spec ..) rfl
    | stepWith name maxRetries retryIf codec => exact argless (claimed_spec ..) rfl
    | sleep span => exact argless (claimed_spec ..) rfl
    | now => exact argless (claimed_spec ..) rfl
    | uuid => exact argless (claimed_spec ..) rfl
    | random => exact argless (claimed_spec ..) rfl
    | setWorkflowAttributes id attributes => exact argless (claimed_spec ..) rfl
    | closeStream key => exact argless (claimed_spec ..) rfl

end Spec

namespace Stays

variable {δ α β : Type} {slots : List Int} {ctx : Context} {verify : Option Bool} {seq : Int} {name : String}

theorem mono {slots' : List Int} {act : Checked δ α} (stays : Stays slots act) (more : slots ⊆ slots') :
    Stays slots' act := by
  unfold Stays at *
  induction act with
  | done a => trivial
  | ask q k ih => exact ⟨fun p here => more (stays.1 p here), fun r => ih r (stays.2 r)⟩
  | halt => trivial

theorem bind {act : Checked δ α} {f : α → Checked δ β} (first : Stays slots act) (rest : ∀ a, Stays slots (f a)) :
    Stays slots (act >>= f) := by
  apply Client.Keeps.bind first
  intro result _
  cases result with
  | ok a => exact rest a
  | error e => trivial

theorem pure (a : α) : Stays slots (Pure.pure a : Checked δ α) := trivial

theorem ofExcept (result : Except Error α) : Stays slots (Checked.ofExcept result : Checked δ α) := trivial

theorem get {q : Query} (own : Own slots q) : Stays slots (Checked.get q : Checked δ (q.Reply δ)) :=
  ⟨own, fun _ => trivial⟩

end Stays

/-- The same of a part that is alike in every mode. -/
def Within {δ α : Type} (slots : List Int) (act : Act δ α) : Prop :=
  Client.Keeps (fun q => Own slots (.ask q)) (fun _ => True) act

theorem Stays.lift {δ α : Type} {slots : List Int} {act : Act δ α} (within : Within slots act) :
    Stays slots (.lift act : Checked δ α) := Client.Keeps.embed within

section Acts

variable {δ α β : Type} {slots : List Int} {ctx : Context} {seq : Int} {name : String}

theorem Within.bind {act : Act δ α} {f : α → Act δ β} (first : Within slots act) (rest : ∀ a, Within slots (f a)) :
    Within slots (act >>= f) := by
  apply Client.Keeps.bind first
  intro result _
  cases result with
  | ok a => exact rest a
  | error e => trivial

theorem Within.attempt {act : Act δ α} (first : Within slots act) : Within slots act.attempt :=
  Client.Keeps.bind first fun _ _ => trivial

theorem Within.get {q : Ask} (own : Own slots (.ask q)) : Within slots (Act.get q : Act δ (q.Reply δ)) :=
  ⟨own, fun _ => trivial⟩

/-- An ask that is at no position. -/
theorem own_none {q : Query} (none : position q = none) : Own slots q := by
  intro p here
  rw [none] at here
  cases here

theorem own_some {q : Query} {p : Int} (here : position q = some p) (member : p ∈ slots) : Own slots q := by
  intro p' there
  rw [here] at there
  cases there
  exact member

theorem storage_within (result : Except Error α) : Within slots (Context.storage result : Act δ α) := by
  cases result with
  | ok a => trivial
  | error e =>
    simp only [Context.storage, Context.record]
    split
    · exact ⟨own_none rfl, fun _ => trivial⟩
    · trivial

theorem call_within {c : Memory.Call} (own : Own slots (.ask (.call c))) :
    Within slots (Context.call c : Act δ c.Reply) :=
  (Within.get own).bind fun reply => storage_within reply

theorem check_within : Within slots (Context.check : Act δ Unit) := ⟨own_none rfl, fun _ => trivial⟩

theorem recordedValue_within (codec : Codec α) (outcome : StepOutcome) :
    Within slots (ctx.recordedValue codec outcome : Act δ α) := by
  cases outcome with
  | output value => trivial
  | failure message info => exact (storage_within _).bind fun _ => trivial

theorem guardCancelled_within : Within slots (ctx.guardCancelled : Act δ Unit) := by
  refine (call_within (own_none rfl)).bind fun found => ?_
  cases found with
  | none => trivial
  | some status =>
    dsimp only
    split <;> trivial

theorem serveRecorded_within (member : seq ∈ slots) (codec : Codec α) :
    Within slots (ctx.serveRecorded seq name codec : Act δ (Option α)) := by
  refine (call_within (own_some rfl member)).bind fun found => ?_
  cases found with
  | none => trivial
  | some step =>
    refine Within.bind ?_ fun _ => (recordedValue_within codec step.outcome).bind fun _ => trivial
    unfold Context.checkRecorded
    split <;> trivial

theorem recordStep_within (member : seq ∈ slots) (value : Value) (error : Option String) (started : Option Int) :
    Within slots (ctx.recordStep seq name value error started : Act δ StepOutcome) :=
  call_within (own_some rfl member)

theorem writeStepOutcome_within (member : seq ∈ slots) (value : Value) (error : Option String) (started : Option Int)
    (codec : Codec α) : Within slots (ctx.writeStepOutcome seq name value error started codec : Act δ α) :=
  (recordStep_within member value error started).bind fun outcome => recordedValue_within codec outcome

theorem recordFailure_within (member : seq ∈ slots) (error : Error) (started : Option Int) (codec : Codec α) :
    Within slots (ctx.recordFailure seq name error started codec : Act δ α) :=
  check_within.bind fun _ => (storage_within _).bind fun _ => writeStepOutcome_within member ..

theorem checkpoint_within (member : seq ∈ slots) (result : α) (started : Option Int) (codec : Codec α) :
    Within slots (ctx.checkpoint seq name result started codec : Act δ α) := by
  refine check_within.bind fun _ => ?_
  cases codec.toValue result with
  | ok value => exact writeStepOutcome_within member ..
  | error message => exact recordFailure_within member ..

theorem recordResult_within (member : seq ∈ slots) (result : Except Error δ) (started : Int) (codec : Codec δ) :
    Within slots (ctx.recordResult seq name result started codec : Act δ δ) := by
  cases result with
  | ok value => exact checkpoint_within member ..
  | error e =>
    unfold Context.recordResult
    dsimp only
    split
    · trivial
    · exact recordFailure_within member ..

theorem runWithRetries_within (member : seq ∈ slots) (retryIf : Option (Error → Bool)) (left attempt : Nat) :
    Within slots (ctx.runWithRetries seq name retryIf left attempt : Act δ δ) := by
  induction left generalizing attempt with
  | zero =>
    unfold Context.runWithRetries
    refine (Within.get (own_some rfl member)).bind fun ending => ?_
    dsimp only
    split
    · trivial
    split
    · exact ⟨own_none rfl, fun _ => trivial⟩
    · exact ⟨own_none rfl, fun _ => trivial⟩
    split
    · trivial
    split <;> trivial
  | succ left ih =>
    unfold Context.runWithRetries
    refine (Within.get (own_some rfl member)).bind fun ending => ?_
    dsimp only
    split
    · trivial
    split
    · exact ⟨own_none rfl, fun _ => trivial⟩
    · exact ⟨own_none rfl, fun _ => trivial⟩
    split
    · trivial
    split
    · trivial
    · exact (Within.get (own_none rfl)).bind fun _ => ih (attempt + 1)

theorem wakeInstant_within (span : Duration) : Within slots (Context.wakeInstant span : Act δ DateTime) := by
  refine (Within.get (own_none rfl)).bind fun now => ?_
  dsimp only
  split <;> split <;> trivial

theorem durableValueAt_within (member : seq ∈ slots) {produce : Act δ α} (draws : Within slots produce)
    (codec : Codec α) :
    Within slots (ctx.durableValueAt seq name produce codec : Act δ α) := by
  refine (serveRecorded_within member codec).bind fun found => ?_
  cases found with
  | some value => trivial
  | none => exact draws.bind fun value => checkpoint_within member ..

theorem deadlineOf_within (member : nextSeq seq ∈ slots) (timeout : Duration) (deadline : Option DateTime) :
    Within slots (ctx.deadlineOf seq timeout deadline : Act δ DateTime) := by
  cases deadline with
  | some deadline => trivial
  | none => exact durableValueAt_within member (wakeInstant_within timeout) _

theorem addressed_within (rows : List NotificationInsert) :
    Within slots (Context.addressed rows : Act δ (List (NotificationInsert × String))) := by
  induction rows with
  | nil => trivial
  | cons row rows ih => exact (Within.get (own_none rfl)).bind fun _ => ih.bind fun _ => trivial

theorem recvLoop_within (member : seq ∈ slots) (second : nextSeq seq ∈ slots) (topic : String) (timeout : Duration)
    (codec : Codec δ) (rounds : Nat) (deadline : Option DateTime) :
    Within slots (ctx.recvLoop seq topic timeout codec rounds deadline : Act δ (Option δ)) := by
  induction rounds generalizing deadline with
  | zero => trivial
  | succ rounds ih =>
    refine (call_within (own_some rfl member)).bind fun found => ?_
    cases found with
    | some message => exact recordedValue_within ..
    | none =>
      refine (deadlineOf_within second timeout deadline).bind fun deadline =>
        (Within.get (own_none rfl)).bind fun now => ?_
      split
      · exact (recordStep_within member ..).bind fun _ => trivial
      · exact (Within.get (own_none rfl)).bind fun _ => ih (some deadline)

theorem getEventLoop_within (member : seq ∈ slots) (second : nextSeq seq ∈ slots) (target key : String)
    (timeout : Duration) (codec : Codec δ) (rounds : Nat) (deadline : Option DateTime) :
    Within slots (ctx.getEventLoop seq target key timeout codec rounds deadline : Act δ (Option δ)) := by
  induction rounds generalizing deadline with
  | zero => trivial
  | succ rounds ih =>
    refine (call_within (own_none rfl)).bind fun found => ?_
    cases found with
    | some value =>
      exact (recordStep_within member ..).bind fun outcome => (recordedValue_within codec outcome).bind fun _ => trivial
    | none =>
      refine (deadlineOf_within second timeout deadline).bind fun deadline =>
        (Within.get (own_none rfl)).bind fun now => ?_
      split
      · exact (recordStep_within member ..).bind fun _ => trivial
      · exact (Within.get (own_none rfl)).bind fun _ => ih (some deadline)

theorem spawnChild_within (member : seq ∈ slots) (input : Value) (opts : WorkflowOptions) :
    Within slots (ctx.spawnChild seq name input opts : Act δ String) := by
  refine (Within.get (own_none rfl)).bind fun now => (Within.get (own_none rfl)).bind fun created => ?_
  refine Within.bind trivial fun built => (Within.get (own_some rfl member)).bind fun reply =>
    Within.bind trivial fun found => ?_
  cases found with
  | some insert => cases insert <;> trivial
  | none =>
    dsimp only
    split
    · trivial
    · refine (Within.get (own_none rfl)).bind fun reply => Within.bind trivial fun canonical =>
        Within.bind trivial fun _ => ?_
      exact (Within.get (own_some rfl member)).bind fun _ => Within.bind trivial fun _ => trivial

theorem live_within (member : seq ∈ slots) (rounds : Nat) {op : Op δ} (second : op.waits = true → nextSeq seq ∈ slots) :
    Within slots (Verify.live ctx rounds seq op : Act δ (Reply δ)) := by
  have clock {α : Type} {f : DateTime → Act δ α} (rest : ∀ now, Within slots (f now)) :
      Within slots (Act.get .now >>= f : Act δ α) := (Within.get (own_none rfl)).bind rest
  cases op with
  | step name codec =>
    exact clock fun started => (Within.get (own_some rfl member)).bind fun ending =>
      (recordResult_within member ..).bind fun _ => trivial
  | stepWith name maxRetries retryIf codec =>
    exact clock fun started => (runWithRetries_within member retryIf maxRetries 0).attempt.bind fun result =>
      (recordResult_within member ..).bind fun _ => trivial
  | select branches codec =>
    refine clock fun started => (Within.get (own_some rfl member)).bind fun winner => ?_
    cases winner with
    | some winner => exact (checkpoint_within member ..).bind fun _ => trivial
    | none => trivial
  | sleep span =>
    refine (wakeInstant_within span).bind fun value => (checkpoint_within member ..).bind fun wakeAt =>
      clock fun now => ?_
    refine Within.bind ?_ fun _ => trivial
    split
    · exact Within.get (own_none rfl)
    · trivial
  | now => exact clock fun value => (checkpoint_within member ..).bind fun _ => trivial
  | uuid => exact (Within.get (own_none rfl)).bind fun value => (checkpoint_within member ..).bind fun _ => trivial
  | random => exact (Within.get (own_none rfl)).bind fun value => (checkpoint_within member ..).bind fun _ => trivial
  | send destination topic message =>
    exact Within.bind trivial fun _ => (addressed_within _).bind fun rows =>
      (call_within (own_some rfl member)).bind fun _ => trivial
  | sendBulk messages =>
    exact Within.bind trivial fun _ => (addressed_within _).bind fun rows =>
      (call_within (own_some rfl member)).bind fun _ => trivial
  | setWorkflowAttributes id attributes =>
    exact (call_within (own_none rfl)).bind fun _ => (recordStep_within member ..).bind fun _ => trivial
  | recv topic timeout codec =>
    exact (recvLoop_within member (second rfl) ..).bind fun _ => trivial
  | setEvent key value =>
    exact Within.bind trivial fun _ => (call_within (own_none rfl)).bind fun _ =>
      (recordStep_within member ..).bind fun _ => trivial
  | getEvent target key timeout codec =>
    exact (getEventLoop_within member (second rfl) ..).bind fun _ => trivial
  | writeStream key value =>
    exact Within.bind trivial fun _ => (call_within (own_some rfl member)).bind fun _ => trivial
  | closeStream key => exact (call_within (own_some rfl member)).bind fun _ => trivial
  | startWorkflow name input opts =>
    refine Within.bind trivial fun input => guardCancelled_within.bind fun _ =>
      (spawnChild_within member input opts).attempt.bind fun result => ?_
    cases result with
    | ok id => trivial
    | error e =>
      dsimp only
      split
      · exact ⟨own_none rfl, fun _ => trivial⟩
      split
      · exact (recordFailure_within member ..).bind fun _ => trivial
      · trivial

end Acts

section Gates

variable {δ α β : Type} {slots : List Int} {ctx : Context} {verify : Option Bool} {seq : Int} {name : String}

theorem checkRecorded_stays (member : seq ∈ slots) (recorded : String) :
    Stays slots (Verify.checkRecorded ctx verify seq name recorded : Checked δ Unit) := by
  unfold Verify.checkRecorded
  split
  · dsimp only
    split
    · exact ⟨own_none rfl, fun _ => trivial⟩
    · trivial
  · split
    · exact ⟨own_some rfl member, fun _ => trivial⟩
    · trivial

theorem refuseLiveWork_stays (member : seq ∈ slots) :
    Stays slots (Verify.refuseLiveWork ctx verify seq name : Checked δ Unit) := by
  unfold Verify.refuseLiveWork
  split
  · trivial
  · refine Stays.bind ⟨own_none rfl, fun _ => trivial⟩ fun _ => ?_
    trivial
  · refine Stays.bind ⟨own_some rfl member, fun _ => trivial⟩ fun _ => ?_
    trivial

theorem serveRecorded_stays (member : seq ∈ slots) (codec : Codec α) :
    Stays slots (Verify.serveRecorded ctx verify seq name codec : Checked δ (Option α)) := by
  refine (Stays.lift (call_within (own_some rfl member))).bind fun found => ?_
  cases found with
  | none => exact (refuseLiveWork_stays member).bind fun _ => trivial
  | some step =>
    exact (checkRecorded_stays member step.name).bind fun _ =>
      (Stays.lift (recordedValue_within codec step.outcome)).bind fun _ => trivial

theorem replayOrGuard_stays (member : seq ∈ slots) (codec : Codec α) :
    Stays slots (Verify.replayOrGuard ctx verify seq name codec : Checked δ (Option α)) := by
  refine (serveRecorded_stays member codec).bind fun found => ?_
  cases found with
  | some stored => trivial
  | none => exact (Stays.lift guardCancelled_within).bind fun _ => trivial

theorem behind_stays {gate : Checked δ (Option α)} {served : α → Checked δ β} {live : Act δ β}
    (gated : Stays slots gate)
    (served_ : ∀ a, Stays slots (served a)) (within : Within slots live) :
    Stays slots (Verify.behind gate served live) := by
  refine gated.bind fun found => ?_
  cases found with
  | some stored => exact served_ stored
  | none => exact Stays.lift within

theorem startWorkflow_stays (member : seq ∈ slots) (opts : WorkflowOptions) {live : Act δ (Reply δ)}
    (within : Within slots live) : Stays slots (Verify.startWorkflow ctx verify seq name opts live) := by
  refine (Stays.lift (call_within (own_some rfl member))).bind fun child => ?_
  cases child with
  | some child => exact (checkRecorded_stays member child.2).bind fun _ => trivial
  | none =>
    refine (Stays.lift (call_within (own_some rfl member))).bind fun recorded => ?_
    cases recorded with
    | some step =>
      exact (checkRecorded_stays member step.name).bind fun _ =>
        (Stays.lift (recordedValue_within _ step.outcome)).bind fun _ => trivial
    | none =>
      refine Stays.bind trivial fun _ => ?_
      cases ctx.rt.validateChildConfiguration name opts with
      | error e => exact ⟨own_none rfl, fun _ => trivial⟩
      | ok _ => exact (refuseLiveWork_stays member).bind fun _ => Stays.lift within

theorem performOp_stays (member : seq ∈ slots) (rounds : Nat) {op : Op δ}
    (second : op.waits = true → nextSeq seq ∈ slots) :
    Stays slots (Verify.performOp ctx verify rounds seq op) := by
  have within := @live_within δ slots ctx seq member rounds op second
  have wait {codec : Codec (Option δ)} (waits : op.waits = true) :
      Stays slots (do
        Verify.reserve verify seq
        Verify.behind (Verify.replayOrGuard ctx verify seq op.name codec) (fun found => pure (.message found))
          (Verify.live ctx rounds seq op) : Checked δ (Reply δ)) := by
    refine Stays.bind ?_ fun _ => behind_stays (replayOrGuard_stays member codec) (fun _ => trivial) within
    unfold Verify.reserve
    split
    · exact ⟨own_some rfl (second waits), fun _ => trivial⟩
    · trivial
  cases op with
  | step name codec => exact behind_stays (replayOrGuard_stays member codec) (fun _ => trivial) within
  | stepWith name maxRetries retryIf codec =>
    exact behind_stays (replayOrGuard_stays member codec) (fun _ => trivial) within
  | select branches codec => exact behind_stays (replayOrGuard_stays member codec) (fun _ => trivial) within
  | sleep span =>
    refine behind_stays (serveRecorded_stays member _) (fun wakeAt => ?_) within
    refine (Stays.get (own_none rfl)).bind fun now => Stays.bind ?_ fun _ => trivial
    split
    · exact Stays.get (own_none rfl)
    · trivial
  | now => exact behind_stays (serveRecorded_stays member _) (fun _ => trivial) within
  | uuid => exact behind_stays (serveRecorded_stays member _) (fun _ => trivial) within
  | random => exact behind_stays (serveRecorded_stays member _) (fun _ => trivial) within
  | recv topic timeout codec => exact wait rfl
  | getEvent target key timeout codec => exact wait rfl
  | startWorkflow name input opts => exact startWorkflow_stays member opts within
  | send destination topic message => exact behind_stays (replayOrGuard_stays member _) (fun _ => trivial) within
  | sendBulk messages => exact behind_stays (replayOrGuard_stays member _) (fun _ => trivial) within
  | setWorkflowAttributes id attributes => exact behind_stays (replayOrGuard_stays member _) (fun _ => trivial) within
  | setEvent key value => exact behind_stays (replayOrGuard_stays member _) (fun _ => trivial) within
  | writeStream key value => exact behind_stays (replayOrGuard_stays member _) (fun _ => trivial) within
  | closeStream key => exact behind_stays (replayOrGuard_stays member _) (fun _ => trivial) within

theorem transactionWith_stays (member : seq ∈ slots) (codec : Codec δ) :
    Stays slots (Verify.transactionWith ctx verify seq name codec : Checked δ δ) := by
  have runs : Stays slots (Verify.transactionLive ctx verify seq name codec : Checked δ δ) := by
    refine (Stays.get (own_none rfl)).bind fun flag => Stays.bind trivial fun _ =>
      (Stays.get (own_none rfl)).bind fun _ =>
      (Stays.get (own_some rfl member)).bind fun result => ?_
    cases result with
    | ok value => exact Stays.lift (recordedValue_within codec _)
    | error e =>
      dsimp only
      split
      · refine (Stays.lift (call_within (own_some rfl member))).bind fun found => ?_
        cases found with
        | some step =>
          exact (checkRecorded_stays member step.name).bind fun _ =>
            Stays.lift (recordedValue_within codec step.outcome)
        | none => exact Stays.lift (storage_within (.error e))
      · trivial
  unfold Verify.transactionWith
  split
  · exact runs
  · refine (replayOrGuard_stays member codec).bind fun found => ?_
    cases found with
    | some stored => trivial
    | none => exact runs

theorem transactionOn_stays (member : seq ∈ slots) (codec : Codec δ) {source : Checked δ δ}
    (within : Stays slots source) :
    Stays slots (Verify.transactionOn ctx verify seq name codec source : Checked δ δ) := by
  refine (Stays.get (own_none rfl)).bind fun flag => Stays.bind trivial fun _ =>
    (replayOrGuard_stays member codec).bind fun found => ?_
  cases found with
  | some stored => trivial
  | none => exact within

/-- A call asks for nothing outside the positions it claimed. -/
theorem run_stays (rounds : Nat) (call : Call δ) (seq : Int) :
    Stays (if call.waits then [seq, nextSeq seq] else [seq]) (call.run ctx verify rounds seq) := by
  cases call with
  | op op =>
    refine (performOp_stays ?_ rounds ?_).bind fun _ => trivial
    · split <;> exact List.mem_cons_self
    · intro waits
      rw [if_pos (show (Call.op op).waits = true from waits)]
      exact List.mem_cons_of_mem _ (List.mem_singleton_self _)
  | enqueueWorkflow queue name input opts =>
    exact (performOp_stays (List.mem_singleton_self _) rounds fun waits => by cases waits).bind fun _ => trivial
  | transactionWith name codec =>
    exact (transactionWith_stays (List.mem_singleton_self _) codec).bind fun _ => trivial
  | transactionOn name codec source =>
    exact (transactionOn_stays (List.mem_singleton_self _) codec (source.stays seq)).bind fun _ => trivial

end Gates

end Durare.Construction

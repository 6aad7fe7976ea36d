import Durare.Crowd
import Durare.Execution
import Durare.Patch

/-! Replay verification. Every durable call runs the same code in an execution and in a
verification; a verification books what it saw and is refused where live work would begin. -/
namespace Durare.Verify

open Interaction

/-- One entry a call makes in the verification cell. -/
inductive Note where
  | saw (divergence : Divergence)
  | stopped (seq : Int) (operation : String)
  | served (seq : Int)
  | reserved (seq : Int) (operation : String)
deriving DecidableEq, Repr

structure Seen where
  divergence : Option Divergence := none
  stoppedAt : Option (Int × String) := none
  served : List Int := []
  reserved : Table Int String := ∅

/-- The first divergence and the first stop stay. -/
def Seen.book (seen : Seen) : Note → Seen
  | .saw divergence => { seen with divergence := seen.divergence.or (some divergence) }
  | .stopped seq operation => { seen with stoppedAt := seen.stoppedAt.or (some (seq, operation)) }
  | .served seq => { seen with served := seen.served ++ [seq] }
  | .reserved seq operation => { seen with reserved := seen.reserved.put seq operation }

/-- A recorded operation, as the verifier reads it. -/
structure StepInfo where
  stepId : Int
  name : String
deriving DecidableEq, Repr

def Seen.accountsFor (seen : Seen) (op : StepInfo) : Bool :=
  seen.served.contains op.stepId || seen.reserved.get op.stepId == some op.name

/-- A durable call asks its surroundings, or makes an entry. A transaction is run by the provider or
by a data source; its body runs inside. -/
inductive Query where
  | ask (q : Ask)
  | book (note : Note)
  | history (id : String)
  | beginTransaction
  | transact (seq : Int) (name : String)
deriving DecidableEq, Repr

abbrev Query.Reply (δ : Type) : Query → Type
  | .ask q => q.Reply δ
  | .book _ => Unit
  | .history _ => Except Error (List StepInfo)
  | .beginTransaction => Except Error Unit
  | .transact _ _ => Except Error Value

/-- A fallible client that may book. -/
def Checked (δ α : Type) : Type := Client Query (Query.Reply δ) (Except Error α)

namespace Checked

variable {δ α β : Type}

def bind (act : Checked δ α) (f : α → Checked δ β) : Checked δ β :=
  Client.bind act fun
    | .ok a => f a
    | .error e => Client.done (.error e)

instance : Monad (Checked δ) where
  pure a := Client.done (.ok a)
  bind := bind

def throw (error : Error) : Checked δ α := Client.done (.error error)

def ofExcept (result : Except Error α) : Checked δ α := Client.done result

def get (q : Query) : Checked δ (q.Reply δ) := Client.ask q fun reply => Client.done (.ok reply)

def book (note : Note) : Checked δ Unit := get (.book note)

/-- What the call does in every mode. -/
def lift (act : Act δ α) : Checked δ α :=
  (Client.embed Query.ask (fun _ reply => reply) act : Client Query (Query.Reply δ) (Except Error α))

theorem bind_assoc {γ : Type} (act : Checked δ α) (f : α → Checked δ β) (g : β → Checked δ γ) :
    act >>= f >>= g = act >>= fun a => f a >>= g := by
  apply (Client.bind_assoc ..).trans
  apply congrArg (Client.bind act)
  funext result
  cases result <;> rfl

theorem lift_bind (act : Act δ α) (f : α → Act δ β) : lift (act >>= f) = lift act >>= fun a => lift (f a) := by
  apply (Client.embed_bind ..).trans
  apply congrArg (Client.bind (lift act))
  funext result
  cases result <;> rfl

end Checked

section Gate

variable {δ α : Type} (ctx : Context) (verify : Option Bool)

def checkRecorded (seq : Int) (expected recorded : String) : Checked δ Unit :=
  if recorded ≠ expected then do
    if verify.isSome then .book (.saw (.mismatch seq expected recorded)) else pure ()
    .throw (.unexpectedStep ctx.workflowId seq expected recorded)
  else if verify.isSome then .book (.served seq) else pure ()

def refuseLiveWork (seq : Int) (operation : String) : Checked δ Unit :=
  match verify with
  | none => pure ()
  | some true => do
    .book (.saw (.extra seq operation))
    .throw (.replayDiverged ctx.workflowId (.extra seq operation))
  | some false => do
    .book (.stopped seq operation)
    .throw (.ofMessage
      s!"replay verification of workflow `{ctx.workflowId}` reached the end of the recorded history at step {seq}")

def serveRecorded (seq : Int) (expected : String) (codec : Codec α) : Checked δ (Option α) := do
  match ← .lift (Context.call (.getStepResult ctx.workflowId seq)) with
  | some step =>
    checkRecorded ctx verify seq expected step.name
    let value ← .lift (ctx.recordedValue codec step.outcome)
    pure (some value)
  | none =>
    refuseLiveWork ctx verify seq expected
    pure none

def replayOrGuard (seq : Int) (expected : String) (codec : Codec α) : Checked δ (Option α) := do
  match ← serveRecorded ctx verify seq expected codec with
  | some stored => pure (some stored)
  | none =>
    .lift ctx.guardCancelled
    pure none

/-- A call behind its gate: what was recorded, or its live work. -/
def behind (gate : Checked δ (Option α)) (served : α → Checked δ β) (live : Act δ β) : Checked δ β := do
  match ← gate with
  | some stored => served stored
  | none => .lift live

end Gate

section Calls

variable {δ : Type} (ctx : Context)

/-- What a call does once nothing is recorded at its position and the workflow is not cancelled. -/
def live (rounds : Nat) (seq : Int) : Op δ → Act δ (Reply δ)
  | .step name codec => do
    let started ← Act.get .now
    let ending ← Act.get (.body seq 0)
    let value ← ctx.recordResult seq name (Context.runStepCatching name ending) started.timestampMillis codec
    pure (.value value)
  | .stepWith name maxRetries retryIf codec => do
    let started ← Act.get .now
    let result ← (ctx.runWithRetries seq name retryIf maxRetries 0).attempt
    let value ← ctx.recordResult seq name result started.timestampMillis codec
    pure (.value value)
  | .select _ codec => do
    let started ← Act.get .now
    match ← Act.get (.race seq) with
    | some winner =>
      let (index, value) ← ctx.checkpoint seq "DBOS.select" winner (some started.timestampMillis) codec
      pure (.winner index value)
    | none => .halt
  | .sleep span => do
    let value ← Context.wakeInstant span
    let wakeAt ← ctx.checkpoint seq "DBOS.sleep" value none ctx.builtins.instants
    let now ← Act.get .now
    let _ ← (if now < wakeAt then Act.get .wait else pure () : Act δ Unit)
    pure .unit
  | .now => do
    let value ← Act.get .now
    let instant ← ctx.checkpoint seq "DBOS.now" value none ctx.builtins.instants
    pure (.instant instant)
  | .uuid => do
    let value ← Act.get .fresh
    let text ← ctx.checkpoint seq "DBOS.uuid" value none ctx.builtins.strings
    pure (.text text)
  | .random => do
    let value ← Act.get .random
    let number ← ctx.checkpoint seq "DBOS.random" value none ctx.builtins.floats
    pure (.number number)
  | .send destination topic message => do
    let message ← Act.ofExcept (serdeResult message)
    let rows ← Context.addressed [⟨destination, topic, message, none⟩]
    Context.call (.sendFromWorkflow ctx.workflowId seq "DBOS.send" rows)
    pure .unit
  | .sendBulk messages => do
    let rows ← Act.ofExcept (prepareBulk messages)
    let rows ← Context.addressed rows
    Context.call (.sendFromWorkflow ctx.workflowId seq "DBOS.send_bulk" rows)
    pure .unit
  | .setWorkflowAttributes id attributes => do
    Context.call (.setWorkflowAttributes id attributes)
    let _ ← ctx.recordStep seq "DBOS.updateWorkflowAttributes" .null none none
    pure .unit
  | .recv topic timeout codec => do
    let found ← ctx.recvLoop seq topic timeout codec rounds none
    pure (.message found)
  | .setEvent key value => do
    let value ← Act.ofExcept (serdeResult value)
    Context.call (.upsertEvent ctx.workflowId key value)
    let _ ← ctx.recordStep seq "DBOS.setEvent" .null none none
    pure .unit
  | .getEvent target key timeout codec => do
    let found ← ctx.getEventLoop seq target key timeout codec rounds none
    pure (.message found)
  | .writeStream key value => do
    let value ← Act.ofExcept (serdeResult value)
    Context.call (.writeStreamFromWorkflow ctx.workflowId seq "DBOS.writeStream" key (some value))
    pure .unit
  | .closeStream key => do
    Context.call (.writeStreamFromWorkflow ctx.workflowId seq "DBOS.closeStream" key none)
    pure .unit
  | .startWorkflow name input opts => do
    let input ← Act.ofExcept (serdeResult input)
    ctx.guardCancelled
    match ← (ctx.spawnChild seq name input opts).attempt with
    | .ok id => pure (.child id)
    | .error e =>
      if e.isStorageFailure then Context.interrupt e
      else if Context.durableRejection e then
        let id ← ctx.recordFailure seq name e none ctx.builtins.strings
        pure (.child id)
      else .throw e

variable (verify : Option Bool)

/-- A wait accounts for its deadline as soon as it is polled. -/
def reserve (seq : Int) : Checked δ Unit :=
  if verify.isSome then .book (.reserved (nextSeq seq) "DBOS.sleep") else pure ()

/-- `start_workflow`: the link, then a recorded rejection, then the checks of arguments and
configuration, and only then the gate. -/
def startWorkflow (seq : Int) (name : String) (opts : WorkflowOptions) (live : Act δ (Reply δ)) :
    Checked δ (Reply δ) := do
  match ← .lift (Context.call (.checkChildWorkflow ctx.workflowId seq)) with
  | some (child, recorded) =>
    checkRecorded ctx verify seq name recorded
    pure (.child child)
  | none =>
    match ← .lift (Context.call (.getStepResult ctx.workflowId seq)) with
    | some step =>
      checkRecorded ctx verify seq name step.name
      let _ ← .lift (ctx.recordedValue .value step.outcome)
      .throw (.unexpectedStep ctx.workflowId seq "child workflow" "ordinary step")
    | none =>
      .ofExcept (Runtime.validateChildArguments name opts)
      match ctx.rt.validateChildConfiguration name opts with
      | .error e => .lift (Context.interrupt e)
      | .ok _ =>
        refuseLiveWork ctx verify seq name
        .lift live

def performOp (rounds : Nat) (seq : Int) (op : Op δ) : Checked δ (Reply δ) :=
  match op with
  | .step _ codec | .stepWith _ _ _ codec =>
    behind (replayOrGuard ctx verify seq op.name codec) (fun value => pure (.value value)) (live ctx rounds seq op)
  | .select _ codec =>
    behind (replayOrGuard ctx verify seq op.name codec) (fun winner => pure (.winner winner.1 winner.2))
      (live ctx rounds seq op)
  | .sleep _ =>
    behind (serveRecorded ctx verify seq op.name ctx.builtins.instants)
      (fun wakeAt => do
        let now ← .get (.ask .now)
        let _ ← (if now < wakeAt ∧ verify.isNone then .get (.ask .wait) else pure () : Checked δ Unit)
        pure .unit)
      (live ctx rounds seq op)
  | .now =>
    behind (serveRecorded ctx verify seq op.name ctx.builtins.instants) (fun instant => pure (.instant instant))
      (live ctx rounds seq op)
  | .uuid =>
    behind (serveRecorded ctx verify seq op.name ctx.builtins.strings) (fun text => pure (.text text))
      (live ctx rounds seq op)
  | .random =>
    behind (serveRecorded ctx verify seq op.name ctx.builtins.floats) (fun number => pure (.number number))
      (live ctx rounds seq op)
  | .recv _ _ codec | .getEvent _ _ _ codec => do
    reserve verify seq
    behind (replayOrGuard ctx verify seq op.name codec.optional) (fun found => pure (.message found))
      (live ctx rounds seq op)
  | .startWorkflow name _ opts => startWorkflow ctx verify seq name opts (live ctx rounds seq op)
  | .send .. | .sendBulk _ | .setWorkflowAttributes .. | .setEvent .. | .writeStream .. | .closeStream _ =>
    behind (replayOrGuard ctx verify seq op.name .value) (fun _ => pure .unit) (live ctx rounds seq op)

/-- `patch`: a verification passes its marker, and stops where it would write it. -/
def patch (seq : Int) (name : String) : Checked δ (Bool × Int) := do
  .lift Context.check
  match ← .lift (Context.call (.getStepName ctx.workflowId seq)) with
  | none =>
    refuseLiveWork ctx verify seq (marker name)
    .lift (Context.call (.recordPatch ctx.workflowId seq (marker name)))
    pure (true, nextSeq seq)
  | some recorded =>
    if recorded = marker name then do
      if verify.isSome then .book (.served seq) else pure ()
      pure (true, nextSeq seq)
    else pure (false, seq)

def deprecatePatch (seq : Int) (name : String) : Checked δ Int := do
  .lift Context.check
  let recorded ← .lift (Context.call (.getStepName ctx.workflowId seq))
  if recorded = some (marker name) then do
    if verify.isSome then .book (.served seq) else pure ()
    pure (nextSeq seq)
  else pure seq

/-- `transaction_with` past its verification gate: the provider runs the body, and a storage
failure is resolved by what is recorded. -/
def transactionLive (seq : Int) (name : String) (codec : Codec δ) : Checked δ δ := do
  let flag ← .get .beginTransaction
  .ofExcept flag
  let _ ← .get (.ask .now)
  match ← .get (.transact seq name) with
  | .ok value => .lift (ctx.recordedValue codec (.output value))
  | .error e =>
    if e.isStorageFailure then
      match ← .lift (Context.call (.getStepResult ctx.workflowId seq)) with
      | some step =>
        checkRecorded ctx verify seq name step.name
        .lift (ctx.recordedValue codec step.outcome)
      | none => .lift (Context.record e)
    else .throw e

/-- `transaction_with` asks for the record itself only when it verifies: an execution's replay check
is made by the provider. -/
def transactionWith (seq : Int) (name : String) (codec : Codec δ) : Checked δ δ :=
  match verify with
  | none => transactionLive ctx verify seq name codec
  | some _ => do
    match ← replayOrGuard ctx verify seq name codec with
    | some stored => pure stored
    | none => transactionLive ctx verify seq name codec

/-- `transaction_on`, with what its data source does when nothing is recorded: the two commits, or
the one of a system data source. -/
def transactionOn (seq : Int) (name : String) (codec : Codec δ) (source : Checked δ δ) : Checked δ δ := do
  let flag ← .get .beginTransaction
  .ofExcept flag
  match ← replayOrGuard ctx verify seq name codec with
  | some stored => pure stored
  | none => source

end Calls

inductive Durable (δ : Type) where
  | op (op : Op δ)
  | patch (name : String)
  | deprecatePatch (name : String)
  | transactionWith (name : String) (codec : Codec δ)
  | transactionOn (name : String) (codec : Codec δ) (source : Checked δ δ)

/-- What a durable call hands to the body. A patch moves the counter when it returns. -/
inductive Answer (δ : Type) where
  | reply (reply : Reply δ)
  | patched (branch : Bool) (counter : Int)
  | deprecated (counter : Int)
deriving DecidableEq, Repr

def perform {δ : Type} (ctx : Context) (verify : Option Bool) (rounds : Nat) (seq : Int) :
    Durable δ → Checked δ (Answer δ)
  | .op op => do pure (.reply (← performOp ctx verify rounds seq op))
  | .patch name => do
    let (branch, counter) ← patch ctx verify seq name
    pure (.patched branch counter)
  | .deprecatePatch name => do pure (.deprecated (← deprecatePatch ctx verify seq name))
  | .transactionWith name codec => do pure (.reply (.value (← transactionWith ctx verify seq name codec)))
  | .transactionOn name codec source => do
    pure (.reply (.value (← transactionOn ctx verify seq name codec source)))

section Execution

variable {δ α β : Type} (ctx : Context)

theorem checkRecorded_none (seq : Int) (expected recorded : String) :
    (checkRecorded ctx none seq expected recorded : Checked δ Unit) = .lift (ctx.checkRecorded seq expected recorded) := by
  unfold checkRecorded Context.checkRecorded
  split <;> rfl

theorem serveRecorded_none (seq : Int) (expected : String) (codec : Codec α) :
    (serveRecorded ctx none seq expected codec : Checked δ (Option α)) = .lift (ctx.serveRecorded seq expected codec) := by
  unfold serveRecorded Context.serveRecorded
  rw [Checked.lift_bind]
  congr
  funext found
  cases found with
  | none => rfl
  | some step =>
    simp only [checkRecorded_none, Checked.lift_bind]
    rfl

theorem replayOrGuard_none (seq : Int) (expected : String) (codec : Codec α) :
    (replayOrGuard ctx none seq expected codec : Checked δ (Option α)) = .lift (ctx.replayOrGuard seq expected codec) := by
  unfold replayOrGuard Context.replayOrGuard
  rw [serveRecorded_none, Checked.lift_bind]
  congr
  funext found
  cases found with
  | some stored => rfl
  | none => exact (Checked.lift_bind ctx.guardCancelled fun _ => pure none).symm

/-- A call of an execution behind its gate. -/
theorem behind_lift (gate : Act δ (Option α)) (served : α → Checked δ β) (live : Act δ β)
    (whole : Option α → Act δ β) (found : ∀ a, served a = .lift (whole (some a))) (fresh : whole none = live) :
    behind (.lift gate) served live = .lift (gate >>= whole) := by
  rw [Checked.lift_bind]
  unfold behind
  congr
  funext stored
  cases stored with
  | none => exact congrArg Checked.lift fresh.symm
  | some a => exact found a

theorem act_bind_assoc {γ : Type} (act : Act δ α) (f : α → Act δ β) (g : β → Act δ γ) :
    act >>= f >>= g = act >>= fun a => f a >>= g := by
  apply (Client.bind_assoc ..).trans
  apply congrArg (Client.bind act)
  funext result
  cases result <;> rfl

/-- Outside a verification a durable call is the operation of the execution. -/
theorem performOp_none (rounds : Nat) (seq : Int) {op : Op δ} (prepared : op.prepare = .ok ()) :
    performOp ctx none rounds seq op = .lift (op.run ctx rounds seq) := by
  cases op with
  | step name codec =>
    simp only [performOp, replayOrGuard_none, Op.name, Op.run, Context.step, act_bind_assoc]
    exact behind_lift _ _ _ _ (fun _ => rfl) rfl
  | stepWith name maxRetries retryIf codec =>
    simp only [performOp, replayOrGuard_none, Op.name, Op.run, Context.stepWith, act_bind_assoc]
    apply behind_lift
    · exact fun _ => rfl
    · simp only [act_bind_assoc]
      rfl
  | select branches codec =>
    simp only [performOp, replayOrGuard_none, Op.name, Op.run, Context.select, act_bind_assoc]
    apply behind_lift
    · exact fun _ => rfl
    · simp only [act_bind_assoc]
      apply congrArg (Bind.bind _)
      funext started
      apply congrArg (Bind.bind _)
      funext winner
      cases winner <;> rfl
  | sleep span =>
    simp only [performOp, serveRecorded_none, Op.name, Op.run, Context.sleep, Context.durableValueAt, act_bind_assoc]
    apply behind_lift
    · intro wakeAt
      apply congrArg (Client.ask _)
      funext now
      by_cases early : now < wakeAt
      · simp [Client.bind, early]
        rfl
      · simp [Client.bind, early]
        rfl
    · simp only [act_bind_assoc]
      rfl
  | now =>
    simp only [performOp, serveRecorded_none, Op.name, Op.run, Context.now, Context.durableValueAt, act_bind_assoc]
    exact behind_lift _ _ _ _ (fun _ => rfl) rfl
  | uuid =>
    simp only [performOp, serveRecorded_none, Op.name, Op.run, Context.uuid, Context.durableValueAt, act_bind_assoc]
    exact behind_lift _ _ _ _ (fun _ => rfl) rfl
  | random =>
    simp only [performOp, serveRecorded_none, Op.name, Op.run, Context.random, Context.durableValueAt, act_bind_assoc]
    exact behind_lift _ _ _ _ (fun _ => rfl) rfl
  | recv topic timeout codec =>
    simp only [performOp, replayOrGuard_none, Op.name, Op.run, Context.recv, act_bind_assoc]
    exact behind_lift _ _ _ _ (fun _ => rfl) rfl
  | getEvent target key timeout codec =>
    simp only [performOp, replayOrGuard_none, Op.name, Op.run, Context.getEvent, act_bind_assoc]
    exact behind_lift _ _ _ _ (fun _ => rfl) rfl
  | send destination topic message =>
    cases message with
    | error message => cases prepared
    | ok message =>
      simp only [performOp, replayOrGuard_none, Op.name, Op.run, Context.send, Context.sendRows, act_bind_assoc]
      apply behind_lift
      · exact fun _ => rfl
      · rfl
  | sendBulk messages =>
    cases rows : prepareBulk messages with
    | error e => simp [Op.prepare, rows, Except.map] at prepared
    | ok rows' =>
      simp only [performOp, replayOrGuard_none, Op.name, Op.run, Context.sendBulk, Context.sendRows, rows]
      change _ = Checked.lift (Bind.bind (Bind.bind _ _) _)
      simp only [act_bind_assoc]
      apply behind_lift
      · exact fun _ => rfl
      · simp only [live, rows, act_bind_assoc]
        rfl
  | setWorkflowAttributes id attributes =>
    simp only [performOp, replayOrGuard_none, Op.name, Op.run, Context.setWorkflowAttributes, act_bind_assoc]
    exact behind_lift _ _ _ _ (fun _ => rfl) (by simp only [act_bind_assoc]; rfl)
  | setEvent key value =>
    cases value with
    | error message => cases prepared
    | ok value =>
      simp only [performOp, replayOrGuard_none, Op.name, Op.run, Context.setEvent, act_bind_assoc]
      exact behind_lift _ _ _ _ (fun _ => rfl) (by simp only [act_bind_assoc]; rfl)
  | writeStream key value =>
    cases value with
    | error message => cases prepared
    | ok value =>
      simp only [performOp, replayOrGuard_none, Op.name, Op.run, Context.writeStream, Context.appendStream, act_bind_assoc]
      exact behind_lift _ _ _ _ (fun _ => rfl) rfl
  | closeStream key =>
    simp only [performOp, replayOrGuard_none, Op.name, Op.run, Context.closeStream, Context.appendStream, act_bind_assoc]
    exact behind_lift _ _ _ _ (fun _ => rfl) rfl
  | startWorkflow name input opts =>
    cases input with
    | error message => cases prepared
    | ok input =>
      change startWorkflow ctx none seq name opts _ = Checked.lift (Bind.bind (ctx.startWorkflow seq name input opts) _)
      simp only [startWorkflow, Context.startWorkflow, act_bind_assoc]
      rw [Checked.lift_bind]
      apply congrArg (Bind.bind _)
      funext link
      cases link with
      | some link =>
        simp only [checkRecorded_none, Checked.lift_bind, act_bind_assoc]
        rfl
      | none =>
        simp only [act_bind_assoc]
        rw [Checked.lift_bind]
        apply congrArg (Bind.bind _)
        funext found
        cases found with
        | some step =>
          simp only [checkRecorded_none, Checked.lift_bind, act_bind_assoc]
          rfl
        | none =>
          simp only [Context.startFresh]
          cases Runtime.validateChildArguments name opts with
          | error e => rfl
          | ok _ =>
            change _ = Checked.lift (Bind.bind (match ctx.rt.validateChildConfiguration name opts with
              | .error e => Context.interrupt e
              | .ok _ => _ : Act δ String) _)
            cases ctx.rt.validateChildConfiguration name opts with
            | error e => rfl
            | ok _ =>
              simp only [act_bind_assoc]
              apply congrArg Checked.lift
              change ctx.guardCancelled >>= _ = _
              apply congrArg (Bind.bind _)
              funext _
              apply congrArg (Bind.bind _)
              funext ended
              cases ended with
              | ok id => rfl
              | error e =>
                dsimp only
                split
                · rfl
                · split <;> rfl

theorem patch_none (seq : Int) (name : String) :
    (patch ctx none seq name : Checked δ (Bool × Int)) = .lift (ctx.patch seq name) := by
  unfold patch Context.patch
  simp only [Checked.lift_bind]
  apply congrArg (Bind.bind _)
  funext _
  apply congrArg (Bind.bind _)
  funext found
  cases found with
  | none =>
    exact (Checked.lift_bind (Context.call (.recordPatch ctx.workflowId seq (marker name)))
      fun _ => pure (true, nextSeq seq)).symm
  | some recorded =>
    dsimp only
    split <;> rfl

theorem deprecatePatch_none (seq : Int) (name : String) :
    (deprecatePatch ctx none seq name : Checked δ Int) = .lift (ctx.deprecatePatch seq name) := by
  unfold deprecatePatch Context.deprecatePatch
  simp only [Checked.lift_bind]
  apply congrArg (Bind.bind _)
  funext _
  apply congrArg (Bind.bind _)
  funext recorded
  split <;> rfl

end Execution

section Runs

open Memory Execution

variable {δ : Type}

/-- `verify_replay` before the body: the status row, the handler, and the recorded operations. -/
def readHistory (rt : Runtime) (id : String) : Checked δ (WorkflowStatus × List StepInfo) := do
  let found ← .get (.ask (.call (.getWorkflowStatus id)))
  match ← .ofExcept (found.mapError observationError) with
  | none => .throw (.unknownWorkflow id)
  | some status =>
    if registryKey status.name status.configName ∉ rt.workflows then .throw (.unknownWorkflow status.name)
    else do
      let recorded ← .get (.history id)
      let recorded ← .ofExcept (recorded.mapError observationError)
      pure (status, recorded)

/-- `get_workflow_steps`. -/
def workflowSteps (id : String) (s : Inner) : List StepInfo :=
  ((s.steps.toList.filter fun entry => entry.1.1 = id).map fun entry => ⟨entry.1.2, entry.2.name⟩).insertionSort
    fun a b => a.stepId ≤ b.stepId

structure State where
  store : Inner
  latch : Option Error
  seen : Seen
  ran : List Query

/-- What the outside supplies to one query: besides the input of an ask, the transaction flag, and what
a transaction commits and returns. -/
structure Input (δ : Type) where
  ask : Execution.Input δ := {}
  flag : Except Error Unit := .ok ()
  commits : Inner → Inner := id
  outcome : Except Error Value := .ok .null

def runsBody : Ask → Bool
  | .body _ _ | .race _ => true
  | _ => false

def answer (lib : SerdeJson) (input : Input δ) : (q : Query) → State → q.Reply δ × State
  | .ask q, s =>
    let (reply, store, latch) := Execution.answer lib input.ask q (s.store, s.latch)
    (reply, { s with
      store := store
      latch := latch
      ran := if runsBody q then s.ran ++ [.ask q] else s.ran })
  | .book note, s => ((), { s with seen := s.seen.book note })
  | .history id, s => (.ok (workflowSteps id s.store), s)
  | .beginTransaction, s => (input.flag, s)
  | .transact seq name, s =>
    (input.outcome, { s with store := input.commits s.store, ran := s.ran ++ [.transact seq name] })

/-- What `verify_replay` runs: its own reading of the history, and the durable calls of the body. The
body is any code: it decides when it makes which call, at which position the counter is then, and
which calls it drops. -/
inductive Part (δ : Type) where
  | opening
  | call (rounds : Nat) (seq : Int) (call : Durable δ)

inductive Done (δ : Type) where
  | opened (status : WorkflowStatus) (recorded : List StepInfo)
  | answered (answer : Answer δ)

def Part.program (ctx : Context) (complete : Bool) : Part δ → Checked δ (Done δ)
  | .opening => do
    let (status, recorded) ← readHistory ctx.rt ctx.workflowId
    pure (.opened status recorded)
  | .call rounds seq durable => do pure (.answered (← perform ctx (some complete) rounds seq durable))

def setting (lib : SerdeJson) (ctx : Context) (complete : Bool) :
    Crowd.Setting State (Part δ) (DateTime × Call) (Input δ) Query (Query.Reply δ) (Except Error (Done δ)) where
  program := Part.program ctx complete
  move s event := { s with store := step lib s.store event }
  answer := answer lib

abbrev Event (δ : Type) := Crowd.Event (DateTime × Call) (Part δ) (Input δ)

def outside : List (Event δ) → List (DateTime × Call) :=
  List.filterMap fun
    | .outside event => some event
    | _ => none

/-- The provider calls that change nothing. -/
def reads : Call → Bool
  | .getWorkflowStatus _ | .getStepResult _ _ | .checkChildWorkflow _ _ | .getStepName _ _ => true
  | _ => false

def quiet : Query → Bool
  | .ask (.call c) => reads c
  | .ask q => !runsBody q
  | .book _ | .history _ | .beginTransaction => true
  | .transact _ _ => false

/-- A quiet query runs no body and leaves the provider as it is. -/
theorem answer_quiet (lib : SerdeJson) (input : Input δ) {q : Query} (s : State) (silent : quiet q = true) :
    (answer lib input q s).2.store = s.store ∧ (answer lib input q s).2.ran = s.ran := by
  cases q with
  | ask q =>
    cases q with
    | call c => cases c <;> first | exact ⟨rfl, rfl⟩ | cases silent
    | body | race => cases silent
    | now | fresh | random | wait | check | interrupt => exact ⟨rfl, rfl⟩
  | book | history | beginTransaction => exact ⟨rfl, rfl⟩
  | transact => cases silent

/-- The call only reads, and what it returns meets `post`. -/
def Reads {α : Type} (post : α → Prop) (act : Checked δ α) : Prop :=
  Client.Keeps (fun q => quiet q = true) (fun result => ∀ a, result = .ok a → post a) act

section Reads

variable {α β : Type} {ctx : Context} {complete : Bool} {seq : Int}

theorem Reads.bind {post : α → Prop} {goal : β → Prop} {act : Checked δ α} {f : α → Checked δ β}
    (reads : Reads post act) (rest : ∀ a, post a → Reads goal (f a)) : Reads goal (act >>= f) := by
  apply Client.Keeps.bind reads
  intro result known
  cases result with
  | ok a => exact rest a (known a rfl)
  | error e => exact fun _ same => nomatch same

theorem Reads.pure {post : α → Prop} {a : α} (holds : post a) : Reads post (Pure.pure a : Checked δ α) := by
  intro b same
  cases same
  exact holds

theorem Reads.throw {post : α → Prop} (e : Error) : Reads post (Checked.throw e : Checked δ α) :=
  fun _ same => nomatch same

theorem Reads.ofExcept (result : Except Error α) : Reads (fun _ => True) (Checked.ofExcept result : Checked δ α) :=
  fun _ _ => trivial

theorem Reads.get {q : Query} (silent : quiet q = true) :
    Reads (fun _ => True) (Checked.get q : Checked δ (q.Reply δ)) := ⟨silent, fun _ _ _ => trivial⟩

theorem Reads.mono {post goal : α → Prop} {act : Checked δ α} (reads : Reads post act)
    (weaker : ∀ a, post a → goal a) : Reads goal act :=
  Client.Keeps.mono reads fun _ known a same => weaker a (known a same)

/-- An interruption returns nothing. -/
theorem interrupt_reads (e : Error) : Reads (fun _ => False) (.lift (Context.interrupt e) : Checked δ α) :=
  ⟨rfl, fun _ _ same => nomatch same⟩

theorem record_reads (e : Error) : Reads (fun _ => False) (.lift (Context.record e) : Checked δ α) := by
  unfold Context.record
  split
  · exact interrupt_reads e
  · exact .throw e

theorem storage_reads (result : Except Error α) :
    Reads (fun _ => True) (.lift (Context.storage result) : Checked δ α) := by
  cases result with
  | ok a => exact Reads.pure trivial
  | error e => exact (record_reads e).mono fun _ _ => trivial

theorem call_reads {c : Call} (read : reads c = true) :
    Reads (fun _ => True) (.lift (Context.call c) : Checked δ c.Reply) :=
  ⟨read, fun reply => storage_reads reply⟩

theorem check_reads : Reads (fun _ => True) (.lift Context.check : Checked δ Unit) :=
  ⟨rfl, fun _ _ _ => trivial⟩

theorem recordedValue_reads (codec : Codec α) (outcome : StepOutcome) :
    Reads (fun _ => True) (.lift (ctx.recordedValue codec outcome) : Checked δ α) := by
  cases outcome with
  | output value => exact fun _ _ => trivial
  | failure message info =>
    unfold Context.recordedValue
    rw [Checked.lift_bind]
    exact (storage_reads _).bind fun e _ => .throw e

theorem checkRecorded_reads (expected recorded : String) :
    Reads (fun _ => True) (checkRecorded ctx (some complete) seq expected recorded : Checked δ Unit) := by
  unfold checkRecorded
  split
  · exact (Reads.get rfl).bind fun _ _ => .throw _
  · exact Reads.get rfl

theorem refuseLiveWork_reads (operation : String) :
    Reads (fun _ => False) (refuseLiveWork ctx (some complete) seq operation : Checked δ Unit) := by
  cases complete with
  | true => exact (Reads.get rfl).bind fun _ _ => .throw _
  | false => exact (Reads.get rfl).bind fun _ _ => .throw _

theorem serveRecorded_reads (expected : String) (codec : Codec α) :
    Reads (fun found => found.isSome = true)
      (serveRecorded ctx (some complete) seq expected codec : Checked δ (Option α)) := by
  apply (call_reads rfl).bind
  intro found _
  cases found with
  | none => exact (refuseLiveWork_reads expected).bind fun _ never => never.elim
  | some step =>
    apply (checkRecorded_reads expected step.name).bind
    intro _ _
    exact (recordedValue_reads codec step.outcome).bind fun value _ => .pure rfl

theorem replayOrGuard_reads (expected : String) (codec : Codec α) :
    Reads (fun found => found.isSome = true)
      (replayOrGuard ctx (some complete) seq expected codec : Checked δ (Option α)) := by
  apply (serveRecorded_reads expected codec).bind
  intro found some
  cases found with
  | none => cases some
  | some stored => exact .pure rfl

theorem behind_reads {gate : Checked δ (Option α)} {served : α → Checked δ β} (live : Act δ β)
    (gated : Reads (fun found => found.isSome = true) gate) (rest : ∀ a, Reads (fun _ => True) (served a)) :
    Reads (fun _ => True) (behind gate served live) := by
  apply gated.bind
  intro found some
  cases found with
  | none => cases some
  | some stored => exact rest stored

theorem startWorkflow_reads (name : String) (opts : WorkflowOptions) (live : Act δ (Reply δ)) :
    Reads (fun _ => True) (startWorkflow ctx (some complete) seq name opts live) := by
  apply (call_reads rfl).bind
  intro link _
  cases link with
  | some link => exact (checkRecorded_reads name link.2).bind fun _ _ => .pure trivial
  | none =>
    apply (call_reads rfl).bind
    intro found _
    cases found with
    | some step =>
      apply (checkRecorded_reads name step.name).bind
      intro _ _
      exact (recordedValue_reads .value step.outcome).bind fun _ _ => .throw _
    | none =>
      apply (Reads.ofExcept _).bind
      intro _ _
      split
      · exact (interrupt_reads _).mono fun _ _ => trivial
      · exact (refuseLiveWork_reads name).bind fun _ never => never.elim

theorem performOp_reads (rounds : Nat) (op : Op δ) :
    Reads (fun _ => True) (performOp ctx (some complete) rounds seq op) := by
  cases op with
  | step | stepWith | select | send | sendBulk | setWorkflowAttributes | setEvent | writeStream | closeStream =>
    exact behind_reads _ (replayOrGuard_reads _ _) fun _ => .pure trivial
  | now | uuid | random => exact behind_reads _ (serveRecorded_reads _ _) fun _ => .pure trivial
  | sleep span =>
    apply behind_reads _ (serveRecorded_reads _ _)
    intro wakeAt
    apply (Reads.get rfl).bind
    intro now _
    -- a timer is read, never waited out
    have still : ¬ (now < wakeAt ∧ (some complete).isNone = true) := by simp
    simp only [still, if_false]
    exact .pure trivial
  | recv | getEvent =>
    apply (Reads.get rfl : Reads (fun _ => True) (reserve (some complete) seq)).bind
    intro _ _
    exact behind_reads _ (replayOrGuard_reads _ _) fun _ => .pure trivial
  | startWorkflow name input opts => exact startWorkflow_reads name opts _

theorem patch_reads (name : String) :
    Reads (fun _ => True) (patch ctx (some complete) seq name : Checked δ (Bool × Int)) := by
  apply check_reads.bind
  intro _ _
  apply (call_reads rfl).bind
  intro found _
  cases found with
  | none => exact (refuseLiveWork_reads _).bind fun _ never => never.elim
  | some recorded =>
    dsimp only
    split
    · exact (Reads.get rfl).bind fun _ _ => .pure trivial
    · exact .pure trivial

theorem deprecatePatch_reads (name : String) :
    Reads (fun _ => True) (deprecatePatch ctx (some complete) seq name : Checked δ Int) := by
  apply check_reads.bind
  intro _ _
  apply (call_reads rfl).bind
  intro recorded _
  split
  · exact (Reads.get rfl).bind fun _ _ => .pure trivial
  · exact .pure trivial

/-- Both kinds of transaction stop at the record. -/
theorem gate_reads {β : Type} {live : Checked δ β} {gate : Checked δ (Option β)}
    (gated : Reads (fun found => found.isSome = true) gate) :
    Reads (fun _ => True) (gate >>= fun found => match found with
      | some stored => pure stored
      | none => live) := by
  apply gated.bind
  intro found some
  cases found with
  | none => cases some
  | some stored => exact .pure trivial

theorem transactionOn_reads (name : String) (codec : Codec δ) (source : Checked δ δ) :
    Reads (fun _ => True) (transactionOn ctx (some complete) seq name codec source) := by
  apply (Reads.get rfl).bind
  intro flag _
  apply (Reads.ofExcept flag).bind
  intro _ _
  exact gate_reads (replayOrGuard_reads name codec)

theorem perform_reads (rounds : Nat) (durable : Durable δ) :
    Reads (fun _ => True) (perform ctx (some complete) rounds seq durable) := by
  cases durable with
  | op op => exact (performOp_reads rounds op).bind fun _ _ => .pure trivial
  | patch name => exact (patch_reads name).bind fun _ _ => .pure trivial
  | deprecatePatch name => exact (deprecatePatch_reads name).bind fun _ _ => .pure trivial
  | transactionWith name codec =>
    exact (gate_reads (replayOrGuard_reads name codec)).bind fun _ _ => .pure trivial
  | transactionOn name codec source =>
    exact (transactionOn_reads name codec source).bind fun _ _ => .pure trivial

theorem readHistory_reads (rt : Runtime) (id : String) :
    Reads (fun _ => True) (readHistory rt id : Checked δ (WorkflowStatus × List StepInfo)) := by
  apply (Reads.get rfl).bind
  intro reply _
  apply (Reads.ofExcept _).bind
  intro found _
  cases found with
  | none => exact .throw _
  | some status =>
    dsimp only
    split
    · exact .throw _
    · apply (Reads.get rfl).bind
      intro recorded _
      exact (Reads.ofExcept _).bind fun _ _ => .pure trivial

theorem program_reads (part : Part δ) : Reads (fun _ => True) (part.program ctx complete) := by
  cases part with
  | opening => exact (readHistory_reads ctx.rt ctx.workflowId).bind fun _ _ => .pure trivial
  | call rounds seq durable => exact (perform_reads rounds durable).bind fun _ _ => .pure trivial

end Reads

/-- The surroundings of a verification, which counts on nothing. -/
def world (lib : SerdeJson) : World State Query (Query.Reply δ) where
  rely _ _ := True
  serves q s reply s' := ∃ input, answer lib input q s = (reply, s')
  refl _ := trivial
  trans _ _ := trivial

/-- What a call of a verification may do with one query. -/
def Untouched (s s' : State) : Prop := s'.store = s.store ∧ s'.ran = s.ran

theorem verification_rule (lib : SerdeJson) (ctx : Context) (complete : Bool) :
    Crowd.Sound.Rule (setting (δ := δ) lib ctx complete) (world lib) (fun _ _ => Untouched) (fun _ _ _ => True)
      (fun _ _ => True) (fun _ _ _ => True) where
  safe part s := by
    apply Safe.mono (Safe.of_keeps (program_reads part) _ s) fun _ _ _ => trivial
    intro q s reply s' silent served
    obtain ⟨input, answered⟩ := served
    have untouched := answer_quiet lib input s silent
    rw [answered] at untouched
    exact untouched
  served input q s _ := ⟨input, rfl⟩
  guarantee _ _ _ _ _ := trivial
  moved _ _ _ := trivial
  stable _ _ _ _ _ _ := trivial

theorem run_untouched {lib : SerdeJson} {ctx : Context} {complete : Bool} (events : List (Event δ))
    (scene : Crowd.Scene State (Part δ) Query (Query.Reply δ) (Except Error (Done δ)))
    (sound : Crowd.Sound (world lib) (fun _ _ => Untouched) (fun _ _ _ => True) scene) :
    (Crowd.run (setting lib ctx complete) events scene).state.store =
        Memory.run lib (outside events) scene.state.store ∧
      (Crowd.run (setting lib ctx complete) events scene).state.ran = scene.state.ran := by
  induction events generalizing scene with
  | nil => exact ⟨rfl, rfl⟩
  | cons event events ih =>
    have allowed : Crowd.Allowed (fun _ _ => True) (fun _ _ _ => True) scene event := by
      cases event <;> simp [Crowd.Allowed]
    obtain ⟨store, ran⟩ := ih _ (sound.next (verification_rule lib ctx complete) scene event allowed)
    have change := sound.change (verification_rule lib ctx complete) scene event allowed
    rw [Crowd.run, Runs.run_cons, store, ran]
    cases event with
    | outside move => exact ⟨rfl, rfl⟩
    | enter | crash => exact ⟨rfl, rfl⟩
    | tick i input =>
      generalize (Crowd.next (setting lib ctx complete) scene (.tick i input)).state = after at change
      cases change with
      | ticked => exact ⟨rfl, rfl⟩
      | asked _ _ tag q _ did =>
        rw [did.1, did.2]
        exact ⟨rfl, rfl⟩

/-- However the body makes its calls, and whatever the others do meanwhile, a verification leaves the
provider to the others and runs no body. -/
theorem verification_reads_only (lib : SerdeJson) (ctx : Context) (complete : Bool) (s : State)
    (events : List (Event δ)) :
    (Crowd.run (setting lib ctx complete) events (Crowd.start s)).state.store =
        Memory.run lib (outside events) s.store ∧
      (Crowd.run (setting lib ctx complete) events (Crowd.start s)).state.ran = s.ran :=
  run_untouched events _ (.start s)

end Runs

end Durare.Verify

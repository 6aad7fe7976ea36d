import Durare.Execution

/-! The failure latch of an execution: the durable calls a body builds and polls in any order,
what `run_to_completion` does when the body ends, and that an execution which recorded an
interruption does nothing more. The provider answers as it likes, failures included. -/
namespace Durare.Latch

open Interaction Memory Execution

/-- How the future of the handler is left: it returns, it panics, or the deadline passes. -/
inductive Ending where
  | returned (result : Except Error Value)
  | panicked (message : String)
  | elapsed
deriving Repr

def checkRequiredRoles (name : String) (required : List String) (auth : AuthContext) : Except Error String :=
  if auth.authenticatedRoles = [] then
    .error (.notAuthorized
      s!"workflow `{name}` requires a role, but was invoked without authentication information")
  else match required.find? (· ∈ auth.authenticatedRoles) with
    | some role => .ok role
    | none => .error (.notAuthorized
        s!"workflow `{name}` has required roles, but the caller is not authenticated for any of them")

section Conclude

variable {δ : Type} (ctx : Context)

/-- `write_terminal_status`: after a storage failure only a terminal row that is read back
counts, and it is left to the caller to adopt. -/
def writeTerminalStatus (status : Status) (output : Option Value) (error : Option String) : Act δ Bool := do
  match ← Act.get (.call (.setWorkflowStatus ctx.workflowId status output error)) with
  | .ok landed => pure landed
  | .error e =>
    if !e.isStorageFailure then .throw e
    else match ← Act.get (.call (.getWorkflowStatus ctx.workflowId)) with
      | .ok (some recorded) => if recorded.status.isTerminal then pure false else .throw (recoveryError e)
      | _ => .throw (recoveryError e)

/-- `adopt_recorded_outcome`: waits for the row to be terminal and takes its outcome. `rounds`
bounds how often it is read before the process stops. -/
def adoptRecordedOutcome : Nat → Act δ Value
  | 0 => .halt
  | rounds + 1 => do
    let read ← Act.get (.call (.getWorkflowStatus ctx.workflowId))
    match ← Context.observed read with
    | none => .throw (.nonExistentWorkflow ctx.workflowId)
    | some status =>
      match status.status with
      | .success => pure (status.output.getD .null)
      | .cancelled => .throw (.cancelled ctx.workflowId)
      | .maxRecoveryAttemptsExceeded => .throw (.maxRecoveryAttemptsExceeded ctx.workflowId)
      | .error => do
        let error ← Context.observed
          (tryFromParts ctx.lib (status.error.getD "workflow failed") status.errorInfo)
        .throw error
      | _ => do
        Act.get .wait
        adoptRecordedOutcome rounds

/-- A terminal write that did not land gives way to the recorded outcome. -/
def finalize (rounds : Nat) (status : Status) (output : Option Value) (error : Option String)
    (result : Except Error Value) : Act δ Value := do
  if ← writeTerminalStatus ctx status output error then .ofExcept result
  else adoptRecordedOutcome ctx rounds

/-- The outcome of a body that returned, with the latch clear. -/
def recordOutcome (rounds : Nat) : Except Error Value → Act δ Value
  | .ok output => finalize ctx rounds .success (some output) none (.ok output)
  | .error (.workflowConflict _) => adoptRecordedOutcome ctx rounds
  | .error e =>
    if e.isCancellationFor ctx.workflowId then
      finalize ctx rounds .cancelled none (some "cancelled") (.error (.cancelled ctx.workflowId))
    else
      match encodeError ctx.lib ctx.serializer e with
      | .error failure => .throw (recoveryError failure)
      | .ok stored =>
        let (message, info) := decodeError ctx.lib (some ctx.serializer.name) stored
        finalize ctx rounds .error none (some stored) (.error (fromParts ctx.lib message info))

/-- `run_to_completion` from the moment the handler's future is left. -/
def conclude (rounds : Nat) : Ending → Act δ Value
  | .elapsed => do
    Context.check
    finalize ctx rounds .cancelled none (some "deadline exceeded") (.error .timeout)
  | .panicked message => do
    Context.check
    .throw (recoveryError (.ofMessage s!"workflow panicked: {message}"))
  | .returned (.ok output) => do
    Context.check
    recordOutcome ctx rounds (.ok output)
  | .returned (.error e) => do
    let adopted ← (Context.bodyError e : Act δ Value).attempt
    Context.check
    recordOutcome ctx rounds adopted

end Conclude

section Machine

variable {δ : Type} (ctx : Context)

/-- The future of a durable call: one of the modelled operations, or any other program over the
same asks (a patch, a transaction). -/
inductive Work (δ : Type) where
  | op (op : Op δ) (rounds : Nat) (seq : Int)
  | other (act : Act δ (Reply δ))

/-- A call the body holds. Its next ask may have been begun by an earlier poll. -/
structure Pending (δ : Type) where
  begun : Bool
  rest : Client Ask (Ask.Reply δ) (Outcome δ)

/-- The latch, the calls the body holds, the asks they have begun, and once the handler's
future is left what remains of `run_to_completion`, with the status writes it has begun. -/
structure Run (δ : Type) where
  latch : Option Error
  calls : List (Pending δ)
  begun : List Ask
  closing : Option (Client Ask (Ask.Reply δ) (Except Error Value))
  finals : List Call

/-- How a latched ask is answered, and what it does to the latch: the first cause stays. -/
def respond (latch : Option Error) (reply : (q : Ask) → Ask.Reply δ q) : (q : Ask) → Ask.Reply δ q
  | .check => check latch
  | .interrupt cause => .recoveryRequired (latch.getD cause)
  | q => reply q

def latchAfter (latch : Option Error) : Ask → Option Error
  | .interrupt cause => some (latch.getD cause)
  | _ => latch

/-- What happens within one poll: the next ask begins, or it is answered and the call goes on,
or a step context that watches for cancellation fails to read and records that. -/
inductive Move (δ : Type) where
  | start
  | answer (reply : (q : Ask) → Ask.Reply δ q)
  | observe (cause : Error)

structure Poll (δ : Type) where
  latch : Option Error
  call : Pending δ
  begun : List Ask

def Poll.begins (p : Poll δ) (q : Ask) : List Ask := if p.call.begun then p.begun else p.begun ++ [q]

def Poll.move (p : Poll δ) : Move δ → Poll δ
  | .observe cause => { p with latch := some (p.latch.getD cause) }
  | .start =>
    match p.call.rest with
    | .ask q k => { p with call := ⟨true, .ask q k⟩, begun := p.begins q }
    | _ => p
  | .answer reply =>
    match p.call.rest with
    | .ask q k => ⟨latchAfter p.latch q, ⟨false, k (respond p.latch reply q)⟩, p.begins q⟩
    | _ => p

/-- The body builds a call, polls one or drops one; its future is left, or the `select` takes
the latch's branch; `run_to_completion` goes on by an ask. A step context fails to watch the
status: a task that the body spawned may hold one, and keeps it when the body has ended. -/
inductive Event (δ : Type) where
  | build (work : Work δ)
  | poll (i : Nat) (moves : List (Move δ))
  | drop (i : Nat)
  | observe (cause : Error)
  | leave (ending : Ending) (rounds : Nat)
  | failed (rounds : Nat)
  | close (reply : (q : Ask) → Ask.Reply δ q)

/-- A call refused when it is built holds no position and only reports why. -/
def build (work : Work δ) (latch : Option Error) : Pending δ :=
  match work with
  | .op op rounds seq =>
    match accepts op latch with
    | .ok _ => ⟨false, op.run ctx rounds seq⟩
    | .error e => ⟨false, .done (.error e)⟩
  | .other act =>
    match check latch with
    | .ok _ => ⟨false, act⟩
    | .error e => ⟨false, .done (.error e)⟩

/-- `PendingStep::poll`: the latch is checked first, and a latched execution's call is not run. -/
def poll (call : Pending δ) (moves : List (Move δ)) (s : Run δ) : Poll δ :=
  match check s.latch with
  | .error _ => ⟨s.latch, call, s.begun⟩
  | .ok _ => moves.foldl Poll.move ⟨s.latch, call, s.begun⟩

/-- The status writes among the asks of `run_to_completion`. -/
def statusWrite : Ask → List Call
  | .call (.setWorkflowStatus id status output error) => [.setWorkflowStatus id status output error]
  | _ => []

def next (s : Run δ) (event : Event δ) : Run δ :=
  match s.closing, event with
  | _, .observe cause => { s with latch := some (s.latch.getD cause) }
  | none, .build work => { s with calls := s.calls ++ [build ctx work s.latch] }
  | none, .poll i moves =>
    match s.calls[i]? with
    | none => s
    | some call =>
      let polled := poll call moves s
      { s with latch := polled.latch, calls := s.calls.set i polled.call, begun := polled.begun }
  | none, .drop i => { s with calls := s.calls.eraseIdx i }
  | none, .leave ending rounds => { s with calls := [], closing := some (conclude ctx rounds ending) }
  | none, .failed rounds =>
    match s.latch with
    | none => s
    | some cause =>
      { s with calls := [], closing := some (conclude ctx rounds (.returned (.error (.recoveryRequired cause)))) }
  | some (.ask q k), .close reply =>
    { s with
      latch := latchAfter s.latch q
      closing := some (k (respond s.latch reply q))
      finals := s.finals ++ statusWrite q }
  | _, _ => s

def Run.result (s : Run δ) : Option (Except Error Value) :=
  match s.closing with
  | some (.done result) => some result
  | _ => none

/-- A run of the workflow `name`: a caller without a required role never reaches the body. -/
def launch (name : String) (required : Option (List String)) (rounds : Nat) : Run δ :=
  match required.map fun roles => checkRequiredRoles name roles ctx.auth with
  | some (.error denial) => ⟨none, [], [], some (conclude ctx rounds (.returned (.error denial))), []⟩
  | _ => ⟨none, [], [], none, []⟩

/-- Only the latch is asked, and with this cause in it the program ends with the interruption. -/
def Closing (cause : Error) : Client Ask (Ask.Reply δ) (Except Error Value) → Prop
  | .done result => result = .error (.recoveryRequired cause)
  | .ask .check k => Closing cause (k (.error (.recoveryRequired cause)))
  | .ask (.interrupt _) k => Closing cause (k (.recoveryRequired cause))
  | _ => False

def latching : Ask → Bool
  | .check | .interrupt _ => true
  | _ => false

/-- The latch is not asked any more. -/
def Quiet {α : Type} : Client Ask (Ask.Reply δ) α → Prop
  | .ask q k => latching q = false ∧ ∀ reply, Quiet (k reply)
  | _ => True

/-- With the latch clear, an interruption comes before every provider call and ends the run,
and so does a check that finds one. -/
def Orderly : Client Ask (Ask.Reply δ) (Except Error Value) → Prop
  | .ask .check k => Orderly (k (.ok ())) ∧ ∀ cause, Closing cause (k (.error (.recoveryRequired cause)))
  | .ask (.interrupt cause) k => Closing cause (k (.recoveryRequired cause))
  | .ask _ k => ∀ reply, Quiet (k reply)
  | _ => True

theorem Quiet.bind {α β : Type} {c : Client Ask (Ask.Reply δ) α} {f : α → Client Ask (Ask.Reply δ) β}
    (first : Quiet c) (rest : ∀ a, Quiet (f a)) : Quiet (c.bind f) := by
  induction c with
  | done a => exact rest a
  | ask q k ih => exact ⟨first.1, fun reply => ih reply (first.2 reply)⟩
  | halt => trivial

theorem Quiet.act {α β : Type} {act : Act δ α} {f : α → Act δ β} (first : Quiet act) (rest : ∀ a, Quiet (f a)) :
    Quiet (act >>= f : Act δ β) := by
  refine Quiet.bind first ?_
  intro result
  cases result with
  | ok a => exact rest a
  | error e => trivial

theorem Quiet.orderly {c : Client Ask (Ask.Reply δ) (Except Error Value)} (quiet : Quiet c) : Orderly c := by
  induction c with
  | done a => trivial
  | halt => trivial
  | ask q k =>
    cases q with
    | interrupt | check => cases quiet.1
    | call | now | fresh | random | body | race | wait => exact quiet.2

theorem get_quiet {q : Ask} (other : latching q = false) : Quiet (Act.get q : Act δ (q.Reply δ)) :=
  ⟨other, fun _ => trivial⟩

theorem observed_quiet {α : Type} (result : Except Error α) : Quiet (Context.observed result : Act δ α) := trivial

variable {ctx}

theorem adoptRecordedOutcome_quiet (rounds : Nat) : Quiet (adoptRecordedOutcome ctx rounds : Act δ Value) := by
  induction rounds with
  | zero => trivial
  | succ rounds ih =>
    refine Quiet.act (get_quiet rfl) fun read => ?_
    refine Quiet.act (observed_quiet read) fun found => ?_
    cases found with
    | none => trivial
    | some status =>
      dsimp only
      split
      · trivial
      · trivial
      · trivial
      · exact Quiet.act (observed_quiet _) fun error => trivial
      · exact Quiet.act (get_quiet rfl) fun _ => ih

theorem finalize_quiet (rounds : Nat) (status : Status) (output : Option Value) (error : Option String)
    (result : Except Error Value) : Quiet (finalize ctx rounds status output error result : Act δ Value) := by
  have wrote : Quiet (writeTerminalStatus ctx status output error : Act δ Bool) := by
    refine Quiet.act (get_quiet rfl) fun reply => ?_
    cases reply with
    | ok landed => trivial
    | error e =>
      dsimp only
      split
      · trivial
      · refine Quiet.act (get_quiet rfl) fun read => ?_
        split
        · split <;> trivial
        · trivial
  refine Quiet.act wrote fun landed => ?_
  cases landed with
  | true => trivial
  | false => exact adoptRecordedOutcome_quiet rounds

theorem recordOutcome_quiet (rounds : Nat) (result : Except Error Value) :
    Quiet (recordOutcome ctx rounds result : Act δ Value) := by
  unfold recordOutcome
  split
  · exact finalize_quiet ..
  · exact adoptRecordedOutcome_quiet rounds
  · split
    · exact finalize_quiet ..
    · split
      · trivial
      · exact finalize_quiet ..

/-- With the latch clear the run interrupts first, if at all. -/
theorem conclude_orderly (rounds : Nat) (ending : Ending) : Orderly (conclude ctx rounds ending : Act δ Value) := by
  cases ending with
  | elapsed => exact ⟨(finalize_quiet ..).orderly, fun cause => rfl⟩
  | panicked message => exact ⟨trivial, fun cause => rfl⟩
  | returned result =>
    cases result with
    | ok output => exact ⟨(recordOutcome_quiet rounds (.ok output)).orderly, fun cause => rfl⟩
    | error e =>
      have checked : ∀ e, Orderly
          ((Context.check : Act δ Unit) >>= fun _ => recordOutcome ctx rounds (.error e) : Act δ Value) :=
        fun e => ⟨(recordOutcome_quiet rounds (.error e)).orderly, fun cause => rfl⟩
      cases e with
      | recoveryRequired cause | observationFailed cause => rfl
      | _ => exact checked _

/-- A latched run ends with the recorded cause, however the handler's future was left. -/
theorem conclude_closing (rounds : Nat) (ending : Ending) (cause : Error) :
    Closing cause (conclude ctx rounds ending : Act δ Value) := by
  cases ending with
  | elapsed => rfl
  | panicked message => rfl
  | returned result =>
    cases result with
    | ok output => rfl
    | error e => cases e <;> rfl

/-- A step context records its failure before `run_to_completion` has passed its check of the
latch, unless the execution was interrupted already. -/
def Timely (s : Run δ) : Event δ → Prop
  | .observe _ => s.closing = none ∨ s.latch.isSome = true ∨ ∃ k, s.closing = some (.ask .check k)
  | _ => True

/-- No status write has begun when the latch is set, and what is left then is to say so. -/
def Inv (s : Run δ) : Prop :=
  match s.closing with
  | none => s.finals = []
  | some rest =>
    match s.latch with
    | some cause => s.finals = [] ∧ Closing cause rest
    | none => (s.finals = [] ∧ Orderly rest) ∨ Quiet rest

/-- What one event leaves of a latched execution. -/
def Frozen (s s' : Run δ) : Prop := ∀ cause, s.latch = some cause → s'.latch = some cause ∧ s'.begun = s.begun

theorem Closing.close {cause : Error} {q : Ask} {k : Ask.Reply δ q → Client Ask (Ask.Reply δ) (Except Error Value)}
    (closing : Closing cause (.ask q k)) (reply : (q : Ask) → Ask.Reply δ q) :
    latchAfter (some cause) q = some cause ∧ statusWrite q = [] ∧
      Closing cause (k (respond (some cause) reply q)) := by
  cases q with
  | check => exact ⟨rfl, rfl, closing⟩
  | interrupt other => exact ⟨rfl, rfl, closing⟩
  | call | now | fresh | random | body | race | wait => exact absurd closing id

theorem latchAfter_quiet {q : Ask} (other : latching q = false) (latch : Option Error) :
    latchAfter latch q = latch := by
  cases q with
  | interrupt cause => cases other
  | call | now | fresh | random | body | race | wait | check => rfl

theorem latchAfter_kept (cause : Error) (q : Ask) : latchAfter (some cause) q = some cause := by
  cases q <;> rfl

theorem close_inv {s : Run δ} {q : Ask} {k : Ask.Reply δ q → Client Ask (Ask.Reply δ) (Except Error Value)}
    (closing : s.closing = some (.ask q k)) (reply : (q : Ask) → Ask.Reply δ q) (inv : Inv s) :
    Inv (next ctx s (.close reply)) := by
  have after : next ctx s (.close reply) =
      { s with
        latch := latchAfter s.latch q
        closing := some (k (respond s.latch reply q))
        finals := s.finals ++ statusWrite q } := by
    simp only [next, closing]
  rw [after]
  rw [Inv, closing] at inv
  cases latched : s.latch with
  | some cause =>
    rw [latched] at inv
    obtain ⟨kept, nothing, rest⟩ := inv.2.close reply
    simp only [Inv, kept]
    exact ⟨by rw [inv.1, nothing]; rfl, rest⟩
  | none =>
    rw [latched] at inv
    obtain ⟨empty, orderly⟩ | quiet := inv
    · cases q with
      | interrupt cause => exact ⟨by rw [empty]; rfl, orderly⟩
      | check => exact .inl ⟨by rw [empty]; rfl, orderly.1⟩
      | call | now | fresh | random | body | race | wait => exact .inr (orderly _)
    · simp only [Inv, latchAfter_quiet quiet.1]
      exact .inr (quiet.2 _)

/-- A step context's failure before the check of the latch leaves the run to say so. -/
theorem observe_inv {s : Run δ} {cause : Error} (timely : Timely s (.observe cause)) (inv : Inv s) :
    Inv (next ctx s (.observe cause)) := by
  obtain alive | latched | ⟨k, here⟩ := timely
  · simpa only [Inv, next, alive] using inv
  · obtain ⟨first, latched⟩ := Option.isSome_iff_exists.mp latched
    simpa only [Inv, next, latched, Option.getD_some] using inv
  · cases latched : s.latch with
    | some first => simpa only [Inv, next, latched, Option.getD_some] using inv
    | none =>
      simp only [Inv, next, latched, here, Option.getD_none] at inv ⊢
      obtain ⟨empty, orderly⟩ | quiet := inv
      · exact ⟨empty, orderly.2 cause⟩
      · cases quiet.1

theorem leave_inv {s : Run δ} (running : s.closing = none) (rounds : Nat) (ending : Ending) (inv : Inv s) :
    Inv ({ s with calls := [], closing := some (conclude ctx rounds ending) } : Run δ) := by
  rw [Inv, running] at inv
  cases latched : s.latch with
  | some cause =>
    simp only [Inv]
    exact ⟨inv, conclude_closing rounds ending cause⟩
  | none =>
    simp only [Inv]
    exact .inl ⟨inv, conclude_orderly rounds ending⟩

/-- No status write begins under a latch that was set before the check. -/
theorem next_inv (s : Run δ) (event : Event δ) (timely : Timely s event) (inv : Inv s) :
    Inv (next ctx s event) := by
  cases closing : s.closing with
  | some rest =>
    cases event with
    | close reply =>
      cases rest with
      | ask q k => exact close_inv closing reply inv
      | done result | halt => simpa only [next, closing] using inv
    | observe cause => exact observe_inv timely inv
    | build | poll | drop | leave | failed => simpa only [next, closing] using inv
  | none =>
    have empty : s.finals = [] := by simpa only [Inv, closing] using inv
    cases event with
    | build | drop | observe => simpa only [Inv, next, closing] using empty
    | poll i moves =>
      cases found : s.calls[i]? with
      | none => simpa only [next, closing, found] using inv
      | some call => simpa only [Inv, next, closing, found] using empty
    | leave ending rounds => simpa only [next, closing] using leave_inv closing rounds ending inv
    | failed rounds =>
      cases latched : s.latch with
      | none => simpa only [next, closing, latched] using inv
      | some cause =>
        have left : next ctx s (.failed rounds) = { s with
            calls := []
            closing := some (conclude ctx rounds (.returned (.error (.recoveryRequired cause)))) } := by
          simp only [next, closing, latched]
        rw [left]
        exact leave_inv closing rounds _ inv
    | close reply => simpa only [next, closing] using inv

/-- A latched execution stays latched by its first cause, and its calls begin nothing. -/
theorem next_frozen (s : Run δ) (event : Event δ) : Frozen s (next ctx s event) := by
  intro cause latched
  cases closing : s.closing with
  | some rest =>
    cases event with
    | close reply =>
      cases rest with
      | ask q k =>
        simp only [next, closing, latched]
        exact ⟨latchAfter_kept cause q, trivial⟩
      | done result | halt => simpa only [next, closing, and_true] using latched
    | observe => simp [next, latched]
    | build | poll | drop | leave | failed => simpa only [next, closing, and_true] using latched
  | none =>
    cases event with
    | build | drop | leave | close => simpa only [next, closing, and_true] using latched
    | observe => simp [next, latched]
    | poll i moves =>
      cases found : s.calls[i]? with
      | none => simpa only [next, closing, found, and_true] using latched
      -- the gate of every poll: a latched execution does not run the call
      | some call => simp [next, closing, found, poll, check, latched]
    | failed rounds => simp [next, closing, latched]

variable (ctx) in
abbrev run (events : List (Event δ)) (s : Run δ) : Run δ := Runs.run (next ctx) events s

theorem launch_inv (name : String) (required : Option (List String)) (rounds : Nat) :
    Inv (launch ctx name required rounds : Run δ) := by
  unfold launch
  split
  · exact .inl ⟨rfl, conclude_orderly rounds _⟩
  · rfl

theorem run_inv {s : Run δ} {events : List (Event δ)} (timely : Runs.Along (next ctx) Timely events s)
    (inv : Inv s) : Inv (run ctx events s) := Runs.invariant next_inv timely inv

theorem run_frozen (s : Run δ) (events : List (Event δ)) : Frozen s (run ctx events s) := by
  refine Runs.moves (P := fun _ _ => True) (I := fun _ => True) (R := Frozen)
    (fun s cause latched => ⟨latched, rfl⟩) ?_ (fun _ _ _ _ => trivial) (fun s event _ _ => next_frozen s event)
    (Runs.along_of_forall _ (fun _ _ => trivial) _ _) trivial
  intro a b c first second cause latched
  obtain ⟨kept, same⟩ := first cause latched
  obtain ⟨kept', same'⟩ := second cause kept
  exact ⟨kept', same'.trans same⟩

/-- A latched execution's step contexts record nothing new. -/
theorem latched_timely {s : Run δ} {cause : Error} (latched : s.latch = some cause) (events : List (Event δ)) :
    Runs.Along (next ctx) Timely events s := by
  induction events generalizing s with
  | nil => trivial
  | cons event events ih =>
    refine ⟨?_, ih (next_frozen s event cause latched).1⟩
    cases event with
    | observe => exact .inr (.inl (by rw [latched]; rfl))
    | _ => trivial

/-- What is left of a latched run takes a few asks and no answer of the provider. -/
theorem Closing.ends {cause : Error} {rest : Client Ask (Ask.Reply δ) (Except Error Value)}
    (closing : Closing cause rest) : ∃ n, ∀ (s : Run δ) (reply : (q : Ask) → Ask.Reply δ q),
      s.latch = some cause → s.closing = some rest →
        (run ctx (List.replicate n (.close reply)) s).result = some (.error (.recoveryRequired cause)) := by
  induction rest with
  | done result =>
    refine ⟨0, fun s reply latched here => ?_⟩
    simp only [List.replicate_zero, Runs.run_nil, Run.result, here]
    exact congrArg some closing
  | halt => exact absurd closing id
  | ask q k ih =>
    have goes : ∀ answer, Closing cause (k answer) → (∀ reply, respond (some cause) reply q = answer) →
        latchAfter (some cause) q = some cause → ∃ n, ∀ (s : Run δ) (reply : (q : Ask) → Ask.Reply δ q),
          s.latch = some cause → s.closing = some (.ask q k) →
            (run ctx (List.replicate n (.close reply)) s).result = some (.error (.recoveryRequired cause)) := by
      intro answer later answered kept
      obtain ⟨n, ends⟩ := ih answer later
      refine ⟨n + 1, fun s reply latched here => ?_⟩
      rw [List.replicate_succ, run, Runs.run_cons]
      refine ends _ reply ?_ ?_
      · simp only [next, here, latched, kept]
      · simp only [next, here, latched, answered]
    cases q with
    | check => exact goes _ closing (fun _ => rfl) rfl
    | interrupt other => exact goes _ closing (fun _ => rfl) rfl
    | call | now | fresh | random | body | race | wait => exact absurd closing id

/-- What an execution that recorded an interruption has done since: nothing. It has written no
status at all, and if it returned, then the interruption with its first cause. -/
structure Stopped (cause : Error) (s t : Run δ) : Prop where
  latch : t.latch = some cause
  begun : t.begun = s.begun
  finals : t.finals = []
  result : ∀ r, t.result = some r → r = .error (.recoveryRequired cause)

theorem Inv.stopped {s t : Run δ} {cause : Error} (inv : Inv t) (latched : t.latch = some cause)
    (begun : t.begun = s.begun) : Stopped cause s t where
  latch := latched
  begun := begun
  finals := by
    cases here : t.closing with
    | none => simpa only [Inv, here] using inv
    | some rest =>
      simp only [Inv, here, latched] at inv
      exact inv.1
  result := by
    intro r returned
    unfold Run.result at returned
    split at returned
    next result here =>
      cases returned
      simp only [Inv, here, latched] at inv
      exact inv.2
    next => cases returned

/-- The latch's branch of the `select` is there to be taken, and whatever is left of a latched
run comes to its end. -/
theorem Inv.returns (ctx : Context) {t : Run δ} {cause : Error} (inv : Inv t) (latched : t.latch = some cause) :
    ∃ n, ∀ (rounds : Nat) (reply : (q : Ask) → Ask.Reply δ q),
      (run ctx (.failed rounds :: List.replicate n (.close reply)) t).result =
        some (.error (.recoveryRequired cause)) := by
  cases here : t.closing with
  | none =>
    refine ⟨2, fun rounds reply => ?_⟩
    have left : next ctx t (.failed rounds) = { t with
        calls := []
        closing := some (conclude ctx rounds (.returned (.error (.recoveryRequired cause)))) } := by
      simp only [next, here, latched]
    rw [run, Runs.run_cons, left, latched]
    rfl
  | some rest =>
    simp only [Inv, here, latched] at inv
    obtain ⟨n, ends⟩ := inv.2.ends
    refine ⟨n, fun rounds reply => ?_⟩
    have unmoved : next ctx t (.failed rounds) = t := by
      unfold next
      rw [here]
    rw [run, Runs.run_cons, unmoved]
    exact ends t reply latched here

/-- Once an execution has recorded an interruption no poll begins anything. If it was recorded
before `run_to_completion` had passed its check of the latch, no terminal status is written,
and `run_to_completion` returns the first cause as soon as it is run on. -/
theorem interruption_stops (name : String) (required : Option (List String)) (rounds : Nat)
    (before after : List (Event δ)) (cause : Error)
    (latched : (run ctx before (launch ctx name required rounds)).latch = some cause) :
    ((run ctx (before ++ after) (launch ctx name required rounds)).latch = some cause ∧
      (run ctx (before ++ after) (launch ctx name required rounds)).begun =
        (run ctx before (launch ctx name required rounds)).begun) ∧
    (Runs.Along (next ctx) Timely before (launch ctx name required rounds) →
      Stopped cause (run ctx before (launch ctx name required rounds))
          (run ctx (before ++ after) (launch ctx name required rounds)) ∧
        ∃ n, ∀ (again : Nat) (reply : (q : Ask) → Ask.Reply δ q),
          (run ctx (before ++ after ++ .failed again :: List.replicate n (.close reply))
            (launch ctx name required rounds)).result = some (.error (.recoveryRequired cause))) := by
  have frozen : Frozen (run ctx before (launch ctx name required rounds : Run δ))
      (run ctx (before ++ after) (launch ctx name required rounds)) := by
    rw [run, run, Runs.run_append]
    exact run_frozen _ after
  obtain ⟨kept, begun⟩ := frozen cause latched
  refine ⟨⟨kept, begun⟩, fun timely => ?_⟩
  have inv : Inv (run ctx (before ++ after) (launch ctx name required rounds : Run δ)) :=
    run_inv ((Runs.along_append ..).mpr ⟨timely, latched_timely latched after⟩) (launch_inv name required rounds)
  refine ⟨inv.stopped kept begun, ?_⟩
  obtain ⟨n, returns⟩ := inv.returns ctx kept
  refine ⟨n, fun again reply => ?_⟩
  rw [run, Runs.run_append]
  exact returns again reply

end Machine

def down (failure : Error) : (q : Ask) → Ask.Reply Value q
  | .call _ => .error failure
  | .now => 0
  | .fresh => ""
  | .random => .posInt 0
  | .body _ _ => .panicked ""
  | .race _ => none
  | .wait => ()
  | .check => .ok ()
  | .interrupt cause => cause

def poolTimedOut : Error := .db ⟨"pool timed out while waiting for an open connection", true, false, false, false⟩

/-- The body races two steps, and the read of the first one fails. -/
def raced : List (Event Value) :=
  [.build (.op (.step "charge" .value) 1 0), .build (.op (.step "ship" .value) 1 1), .poll 1 [.start],
    .poll 0 [.answer (down poolTimedOut), .answer (down poolTimedOut)]]

def caught : List (Event Value) :=
  [.poll 1 [.answer (down .timeout), .answer (down .timeout)], .build (.op .now 1 2), .poll 2 [.start],
    .leave (.returned (.ok .null)) 1, .close (down .timeout)]

theorem interruption_stops_caught :
    (run .plain raced (launch .plain "job" none 1)).latch = some poolTimedOut ∧
      (run .plain raced (launch .plain "job" none 1)).begun =
        [.call (.getStepResult "w" 1), .call (.getStepResult "w" 0), .interrupt poolTimedOut] ∧
      (run .plain (raced ++ caught) (launch .plain "job" none 1)).result =
        some (.error (.recoveryRequired poolTimedOut)) ∧
      Stopped poolTimedOut (run .plain raced (launch .plain "job" none 1))
        (run .plain (raced ++ caught) (launch .plain "job" none 1)) :=
  ⟨rfl, rfl, rfl, ((interruption_stops "job" none 1 raced caught poolTimedOut rfl).2
    ⟨trivial, trivial, trivial, trivial, trivial⟩).1⟩

def up : (q : Ask) → Ask.Reply Value q
  | .call (.setWorkflowStatus _ _ _ _) => .ok true
  | q => down poolTimedOut q

/-- The body spawns a task that watches for the cancellation with its step's context, and
returns. The task's read fails after the check of the latch and before the status write. -/
def watched : List (Event Value) :=
  [.leave (.returned (.ok .null)) 1, .close up, .observe poolTimedOut]

/-- The interrupted execution writes SUCCESS and returns the output. -/
theorem late_interruption_ignored :
    (run .plain watched (launch .plain "job" none 1)).latch = some poolTimedOut ∧
      (run .plain watched (launch .plain "job" none 1)).finals = [] ∧
      (run .plain (watched ++ [.close up]) (launch .plain "job" none 1)).finals =
        [.setWorkflowStatus "w" .success (some .null) none] ∧
      (run .plain (watched ++ [.close up]) (launch .plain "job" none 1)).result = some (.ok .null) :=
  ⟨rfl, rfl, rfl, rfl⟩

end Durare.Latch

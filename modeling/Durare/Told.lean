import Durare.Crowd
import Durare.Finalize

/-! Everyone who learns the result of a workflow: the executions that run it, the ones that
lost it and adopt the recorded outcome, and the handles that poll. Each of them is a client
of the provider; whoever else uses the store moves it as it likes between any two calls,
and calls may fail before or after they take effect. -/
namespace Durare.Observers

open Interaction Latch Records Finalize

/-- What the row of the workflow says of its outcome. -/
inductive Standing (ρ : Type) where
  | missing
  | running
  | recorded (outcome : ρ)
deriving DecidableEq

/-- The result that a terminal row stands for. -/
def recordedResult (lib : SerdeJson) (id : String) (status : WorkflowStatus) : Except Error Value :=
  match status.status with
  | .cancelled => .error (.cancelled id)
  | .maxRecoveryAttemptsExceeded => .error (.maxRecoveryAttemptsExceeded id)
  | .error =>
    match tryFromParts lib (status.error.getD "workflow failed") status.errorInfo with
    | .ok error => .error error
    | .error failure => .error (observationError failure)
  | _ => .ok (status.output.getD .null)

/-- How a handle reads an output. -/
def typed {α : Type} (codec : Codec α) (result : Except Error Value) : Except Error α :=
  result.bind fun v => serdeResult (codec.fromValue v)

/-- Not the report of a stopped execution or of a failed observation. -/
def Uninterrupted {α : Type} (result : Except Error α) : Prop :=
  ∀ cause, result ≠ .error (.recoveryRequired cause) ∧ result ≠ .error (.observationFailed cause)

section Handles

variable {δ α : Type} (ctx : Context) (codec : Codec α)

def terminalToResult (status : WorkflowStatus) : Except Error α :=
  match status.status with
  | .cancelled => .error (.cancelled ctx.workflowId)
  | .maxRecoveryAttemptsExceeded => .error (.maxRecoveryAttemptsExceeded ctx.workflowId)
  | .error =>
    match tryFromParts ctx.lib (status.error.getD "workflow failed") status.errorInfo with
    | .ok error => .error error
    | .error failure => .error (observationError failure)
  | _ => serdeResult (codec.fromValue (status.output.getD .null))

def getStatus (read : Except Error (Option WorkflowStatus)) : Except Error WorkflowStatus :=
  match read.mapError observationError with
  | .ok (some status) => .ok status
  | .ok none => .error (.unknownWorkflow ctx.workflowId)
  | .error e => .error e

/-- `wait_for_result` of a polling handle: a workflow that is not there yet is waited for.
`rounds` bounds how often the row is read before the waiter gives up. -/
def waitForResult : Nat → Act δ α
  | 0 => .halt
  | rounds + 1 => do
    let read ← Act.get (.call (.getWorkflowStatus ctx.workflowId))
    match getStatus ctx read with
    | .ok status =>
      if status.status.isTerminal then .ofExcept (terminalToResult ctx codec status)
      else do
        Act.get .wait
        waitForResult rounds
    | .error (.unknownWorkflow _) => do
      Act.get .wait
      waitForResult rounds
    | .error e => .throw e

/-- A local handle awaits the task: `run_to_completion` from the end of the body. -/
def awaitTask (rounds : Nat) (ending : Ending) : Act δ α := do
  let result ← (conclude ctx rounds ending : Act δ Value).attempt
  .ofExcept (typed codec result)

theorem terminalToResult_eq (status : WorkflowStatus) :
    terminalToResult ctx codec status = typed codec (recordedResult ctx.lib ctx.workflowId status) := by
  unfold terminalToResult recordedResult
  split
  · rfl
  · rfl
  · split <;> rfl
  · rfl

end Handles

/-- The errors a body can return have numbers in range. -/
def FitsEnding : Ending → Prop
  | .returned (.error error) => ErrorWire.Fits error
  | _ => True

inductive Role where
  | owner (ending : Ending) (rounds : Nat)
  | polling (rounds : Nat)

structure Observer where
  serializer : Serializer
  role : Role
  lawful : serializer.Lawful
  fits : ∀ ending rounds, role = .owner ending rounds → FitsEnding ending

/-- The status calls of a provider on one workflow, for executors of every serializer, what
its row says, and which outcomes it takes. -/
structure Backend (σ ρ : Type) where
  set : Serializer → DateTime → Status → Option Value → Option String → σ → Except Error Bool × σ
  row : Serializer → DateTime → σ → Option WorkflowStatus
  standing : σ → Standing ρ
  result : Serializer → ρ → Except Error Value
  takes : Status → σ → Bool
  inFormat : Serializer → Status → σ → Prop

/-- What the observers count on. A row that is written in its own format says what was
written, and every reading is of what the row says. -/
structure Backend.Sound {σ ρ : Type} (backend : Backend σ ρ) (lib : SerdeJson) (id : String) : Prop where
  terminal : ∀ serializer now s status, backend.row serializer now s = some status → status.status.isTerminal = true →
    ∃ outcome, backend.standing s = .recorded outcome ∧
      recordedResult lib id status = backend.result serializer outcome
  absent : ∀ serializer now s, backend.row serializer now s = none → backend.standing s = .missing
  refused : ∀ serializer now status output error s e, serializer.Lawful →
    (backend.set serializer now status output error s).1 = .error e → e.isStorageFailure = true
  taken : ∀ serializer now status output error s,
    (backend.set serializer now status output error s).1 = .ok true → backend.takes status s = true
  succeeds : ∀ serializer now v s, serializer.Lawful → backend.inFormat serializer .success s →
    (backend.set serializer now .success (some v) none s).1 = .ok true →
    ∃ outcome, backend.standing (backend.set serializer now .success (some v) none s).2 = .recorded outcome ∧
      backend.result serializer outcome = .ok v
  cancels : ∀ serializer now text s, (backend.set serializer now .cancelled none (some text) s).1 = .ok true →
    ∃ outcome, backend.standing (backend.set serializer now .cancelled none (some text) s).2 = .recorded outcome ∧
      backend.result serializer outcome = .error (.cancelled id)
  fails : ∀ serializer now text error s, serializer.Lawful → backend.inFormat serializer .error s →
    readError lib (some serializer.name) text = .ok error →
    (backend.set serializer now .error none (some text) s).1 = .ok true →
    ∃ outcome, backend.standing (backend.set serializer now .error none (some text) s).2 = .recorded outcome ∧
      backend.result serializer outcome = .error error

section Scene

variable {δ σ ρ : Type} (backend : Backend σ ρ) (id : String)

/-- The store and what its row said before. -/
structure History (σ ρ : Type) where
  store : σ
  past : List (Standing ρ)

/-- All that the row has said. -/
def stood (h : History σ ρ) : List (Standing ρ) := backend.standing h.store :: h.past

def History.move (h : History σ ρ) (store : σ) : History σ ρ := ⟨store, stood backend h⟩

/-- The clock, a failure of the call (after it took effect, or before), and the latch of the
execution that asks. -/
structure Input where
  now : DateTime
  fault : Option (Error × Bool)
  latch : Option Error

abbrev Asked := Serializer × Ask

abbrev Asked.Reply (δ : Type) (q : Asked) : Type := Ask.Reply δ q.2

def faulty {β : Type} (fault : Option (Error × Bool)) (served : Except Error β × σ) (h : History σ ρ) :
    Except Error β × History σ ρ :=
  match fault with
  | none => (served.1, h.move backend served.2)
  | some (e, true) => (.error e, h.move backend served.2)
  | some (e, false) => (.error e, h)

/-- The two status calls reach the provider, and the latch answers for itself. No observer
asks for anything else. -/
def answer (input : Input) : (q : Asked) → History σ ρ → Asked.Reply δ q × History σ ρ
  | (serializer, .call (.setWorkflowStatus _ status output error)), h =>
    faulty backend input.fault (backend.set serializer input.now status output error h.store) h
  | (serializer, .call (.getWorkflowStatus _)), h =>
    faulty backend input.fault (.ok (backend.row serializer input.now h.store), h.store) h
  | (_, .check), h => (Execution.check input.latch, h)
  | (_, .interrupt cause), h => (.recoveryRequired (input.latch.getD cause), h)
  | (_, .call _), h => (.error (.db ⟨"pool timed out", true, false, false, false⟩), h)
  | (_, .now), h => (input.now, h)
  | (_, .fresh), h => ("", h)
  | (_, .random), h => (.posInt 0, h)
  | (_, .body _ _), h => (.panicked "", h)
  | (_, .race _), h => (none, h)
  | (_, .wait), h => ((), h)

/-- Calls fail by storage failures, and the row takes no outcome of a deadline and none that
is not written in its own format. -/
def Proper (input : Input) (q : Asked) (h : History σ ρ) : Prop :=
  (∀ fault ∈ input.fault, fault.1.isStorageFailure = true) ∧
  match q with
  | (serializer, .call (.setWorkflowStatus _ status _ error)) =>
    input.fault = none → backend.takes status h.store = true →
      (status, error) ≠ (.cancelled, some "deadline exceeded") ∧ backend.inFormat serializer status h.store
  | _ => True

def world (serializer : Serializer) : World (History σ ρ) Ask (Ask.Reply δ) where
  rely h h' := ∀ x ∈ stood backend h, x ∈ stood backend h'
  serves q h reply h' := ∃ input, Proper backend input (serializer, q) h ∧
    answer backend input (serializer, q) h = (reply, h')
  refl _ _ member := member
  trans first second x member := second x (first x member)

/-- The asks of all executors. -/
def worlds : World (History σ ρ) Asked (Asked.Reply δ) where
  rely h h' := ∀ x ∈ stood backend h, x ∈ stood backend h'
  serves q h reply h' := (world backend q.1).serves q.2 h reply h'
  refl _ _ member := member
  trans first second x member := second x (first x member)

theorem stood_move (h : History σ ρ) (store : σ) : ∀ x ∈ stood backend h, x ∈ stood backend (h.move backend store) :=
  fun _ member => List.mem_cons_of_mem _ member

theorem faulty_grows {β : Type} (fault : Option (Error × Bool)) (served : Except Error β × σ) (h : History σ ρ) :
    ∀ x ∈ stood backend h, x ∈ stood backend (faulty backend fault served h).2 := by
  match fault with
  | none => exact stood_move backend h served.2
  | some (e, true) => exact stood_move backend h served.2
  | some (e, false) => exact fun _ member => member

theorem answer_grows (input : Input) (q : Asked) (h : History σ ρ) :
    ∀ x ∈ stood backend h, x ∈ stood backend (answer (δ := δ) backend input q h).2 := by
  obtain ⟨serializer, ask⟩ := q
  cases ask with
  | call call =>
    cases call with
    | setWorkflowStatus => exact faulty_grows backend _ _ h
    | getWorkflowStatus => exact faulty_grows backend _ _ h
    | _ => exact fun _ member => member
  | _ => exact fun _ member => member

/-- What a result has to come from. -/
def Told (serializer : Serializer) (result : Except Error Value) (h : History σ ρ) : Prop :=
  Uninterrupted result →
    (∃ outcome, .recorded outcome ∈ stood backend h ∧ result = backend.result serializer outcome) ∨
    .missing ∈ stood backend h ∧ result = .error (.nonExistentWorkflow id)

theorem Told.later {serializer : Serializer} {result : Except Error Value} {h h' : History σ ρ}
    (told : Told backend id serializer result h) (grows : ∀ x ∈ stood backend h, x ∈ stood backend h') :
    Told backend id serializer result h' := by
  intro free
  rcases told free with ⟨outcome, member, same⟩ | ⟨member, same⟩
  · exact .inl ⟨outcome, grows _ member, same⟩
  · exact .inr ⟨grows _ member, same⟩

end Scene

section Told

variable {δ σ ρ : Type} {backend : Backend σ ρ} {ctx : Context}

theorem told_recovery (cause : Error) (h : History σ ρ) :
    Told backend ctx.workflowId ctx.serializer (.error (recoveryError cause)) h := by
  intro free
  cases cause <;> exact absurd rfl (free _).1

theorem observationError_storage {e : Error} (storage : e.isStorageFailure = true) :
    ∃ cause, observationError e = .observationFailed cause := by
  cases e <;> first | exact ⟨_, rfl⟩ | cases storage

theorem told_observation {e : Error} (storage : e.isStorageFailure = true) (h : History σ ρ) :
    Told backend ctx.workflowId ctx.serializer (.error (observationError e)) h := by
  obtain ⟨cause, same⟩ := observationError_storage storage
  intro free
  exact absurd (congrArg Except.error same) (free cause).2

/-- An unreadable record is a storage failure. -/
theorem tryFromParts_error {lib : SerdeJson} {message : String} {info : Option PortableWorkflowError} {failure : Error}
    (unreadable : tryFromParts lib message info = .error failure) : failure.isStorageFailure = true := by
  have envelope : ∀ info failure, errorFromEnvelope lib info = .error failure → failure.isStorageFailure = true := by
    intro info failure same
    unfold errorFromEnvelope at same
    split at same
    · split at same
      · cases same
      · cases same; rfl
    · split at same <;> cases same
  unfold tryFromParts at unreadable
  split at unreadable
  · exact envelope _ _ unreadable
  · split at unreadable
    · cases unreadable
    · split at unreadable
      · split at unreadable
        · exact envelope _ _ unreadable
        · cases unreadable; rfl
      · cases unreadable; rfl

/-- A reading of the row fails, finds no row, or shows what the row says now. -/
theorem read_served (sound : backend.Sound ctx.lib ctx.workflowId) {serializer : Serializer} {h h' : History σ ρ}
    {target : String} {reply : Except Error (Option WorkflowStatus)}
    (served : (world (δ := δ) backend serializer).serves (.call (.getWorkflowStatus target)) h reply h') :
    (∃ e, reply = .error e ∧ e.isStorageFailure = true) ∨
    (reply = .ok none ∧ .missing ∈ stood backend h') ∨
    ∃ status, reply = .ok (some status) ∧ (status.status.isTerminal = true →
      ∃ outcome, .recorded outcome ∈ stood backend h' ∧
        recordedResult ctx.lib ctx.workflowId status = backend.result serializer outcome) := by
  obtain ⟨input, proper, answered⟩ := served
  simp only [answer] at answered
  rcases fault : input.fault with _ | ⟨e, landed⟩
  · rw [fault] at answered
    simp only [faulty, Prod.mk.injEq] at answered
    obtain ⟨rfl, rfl⟩ := answered
    have current : backend.standing h.store ∈ stood backend (h.move backend h.store) := List.mem_cons_self
    cases found : backend.row serializer input.now h.store with
    | none => exact .inr (.inl ⟨rfl, sound.absent _ _ _ found ▸ current⟩)
    | some status =>
      refine .inr (.inr ⟨status, rfl, fun terminal => ?_⟩)
      obtain ⟨outcome, standing, same⟩ := sound.terminal _ _ _ _ found terminal
      exact ⟨outcome, standing ▸ current, same⟩
  · have storage := proper.1 (e, landed) (by simp [fault])
    rw [fault] at answered
    cases landed <;> (simp only [faulty, Prod.mk.injEq] at answered; exact .inl ⟨e, answered.1.symm, storage⟩)

/-- A status write fails, does not land, or lands in the row's own format. -/
theorem write_served (sound : backend.Sound ctx.lib ctx.workflowId) (lawful : ctx.serializer.Lawful)
    {h h' : History σ ρ} {target : String} {status : Status} {output : Option Value} {error : Option String}
    {reply : Except Error Bool}
    (served : (world (δ := δ) backend ctx.serializer).serves
      (.call (.setWorkflowStatus target status output error)) h reply h') :
    (∃ e, reply = .error e ∧ e.isStorageFailure = true) ∨ reply = .ok false ∨
    ∃ now, reply = .ok true ∧ (status, error) ≠ (.cancelled, some "deadline exceeded") ∧
      backend.inFormat ctx.serializer status h.store ∧
      (backend.set ctx.serializer now status output error h.store).1 = .ok true ∧
      h' = h.move backend (backend.set ctx.serializer now status output error h.store).2 := by
  obtain ⟨input, proper, answered⟩ := served
  simp only [answer] at answered
  rcases fault : input.fault with _ | ⟨e, landed⟩
  · rw [fault] at answered
    simp only [faulty, Prod.mk.injEq] at answered
    obtain ⟨rfl, rfl⟩ := answered
    cases done : (backend.set ctx.serializer input.now status output error h.store).1 with
    | error e => exact .inl ⟨e, rfl, sound.refused _ _ _ _ _ _ _ lawful done⟩
    | ok landed =>
      cases landed with
      | false => exact .inr (.inl rfl)
      | true =>
        obtain ⟨deadline, format⟩ := proper.2 fault (sound.taken _ _ _ _ _ _ done)
        exact .inr (.inr ⟨input.now, rfl, deadline, format, done, rfl⟩)
  · have storage := proper.1 (e, landed) (by simp [fault])
    rw [fault] at answered
    cases landed <;> (simp only [faulty, Prod.mk.injEq] at answered; exact .inl ⟨e, answered.1.symm, storage⟩)

/-- The client is told only what stood, however the calls are answered. -/
abbrev Tells (backend : Backend σ ρ) (ctx : Context) (act : Act δ Value) (h : History σ ρ) : Prop :=
  Safe (world backend ctx.serializer) (fun _ _ _ => True) (Told backend ctx.workflowId ctx.serializer) act h

theorem tells_done {result : Except Error Value} {h : History σ ρ}
    (told : Told backend ctx.workflowId ctx.serializer result h) :
    Tells backend ctx (.done result : Client Ask (Ask.Reply δ) (Except Error Value)) h :=
  fun _ later => told.later backend ctx.workflowId later

theorem tells_recorded {result : Except Error Value} {h : History σ ρ}
    (found : ∃ outcome, .recorded outcome ∈ stood backend h ∧ result = backend.result ctx.serializer outcome) :
    Tells backend ctx (.done result : Client Ask (Ask.Reply δ) (Except Error Value)) h :=
  tells_done fun _ => .inl found

theorem tells_throw {e : Error} {h : History σ ρ}
    (told : Told backend ctx.workflowId ctx.serializer (.error e) h) :
    Tells backend ctx (.throw e : Act δ Value) h := tells_done told

theorem adopt_tells (sound : backend.Sound ctx.lib ctx.workflowId) (rounds : Nat) (h : History σ ρ) :
    Tells backend ctx (adoptRecordedOutcome ctx rounds : Act δ Value) h := by
  induction rounds generalizing h with
  | zero => trivial
  | succ rounds ih =>
    intro h' _ reply h'' served
    refine ⟨trivial, ?_⟩
    rcases read_served sound served with ⟨e, rfl, storage⟩ | ⟨rfl, missing⟩ | ⟨status, rfl, terminal⟩
    · exact tells_throw (told_observation storage h'')
    · exact tells_throw fun _ => .inr ⟨missing, rfl⟩
    · cases status with
      | mk id name status =>
        cases status with
        | success | cancelled | maxRecoveryAttemptsExceeded => exact tells_recorded (terminal rfl)
        | error =>
          have found := terminal rfl
          simp only [recordedResult] at found
          show Tells backend ctx ((Context.observed (tryFromParts ctx.lib _ _) : Act δ Error) >>=
            fun error => (.throw error : Act δ Value) : Act δ Value) h''
          generalize outcome : tryFromParts ctx.lib _ _ = read at found ⊢
          cases read with
          | ok error => exact tells_recorded found
          | error failure => exact tells_throw (told_observation (tryFromParts_error outcome) h'')
        | pending | enqueued | delayed | other => exact fun later _ _ after _ => ⟨trivial, ih after⟩

/-- `finalize`: a write that lands is told as what it wrote, every other one as what stands. -/
theorem finalize_tells (sound : backend.Sound ctx.lib ctx.workflowId) (lawful : ctx.serializer.Lawful)
    {status : Status} {output : Option Value} {error : Option String} {result : Except Error Value}
    (lands : ∀ now s, (status, error) ≠ (.cancelled, some "deadline exceeded") →
      backend.inFormat ctx.serializer status s →
      (backend.set ctx.serializer now status output error s).1 = .ok true →
      ∃ outcome, backend.standing (backend.set ctx.serializer now status output error s).2 = .recorded outcome ∧
        backend.result ctx.serializer outcome = result)
    (rounds : Nat) (h : History σ ρ) :
    Tells backend ctx (finalize ctx rounds status output error result : Act δ Value) h := by
  intro h' _ reply h'' served
  refine ⟨trivial, ?_⟩
  rcases write_served sound lawful served with ⟨e, rfl, storage⟩ | rfl | ⟨now, rfl, deadline, format, done, rfl⟩
  · -- only a terminal row that is read back counts
    cases e
    case db | migrate | serde | serialization | recoveryRequired | observationFailed =>
      intro _ _ read last _
      refine ⟨trivial, ?_⟩
      cases read with
      | error failure => exact tells_throw (told_recovery _ last)
      | ok found =>
        cases found with
        | none => exact tells_throw (told_recovery _ last)
        | some recorded =>
          cases recorded with
          | mk id name status =>
            cases status with
            | success | cancelled | maxRecoveryAttemptsExceeded | error => exact adopt_tells sound rounds last
            | pending | enqueued | delayed | other => exact tells_throw (told_recovery _ last)
    all_goals cases storage
  · exact adopt_tells sound rounds h''
  · obtain ⟨outcome, standing, same⟩ := lands now h'.store deadline format done
    have current : backend.standing (backend.set ctx.serializer now status output error h'.store).2 ∈
        stood backend (h'.move backend (backend.set ctx.serializer now status output error h'.store).2) :=
      List.mem_cons_self
    exact tells_recorded ⟨outcome, standing ▸ current, same.symm⟩

/-- The latch is clear, or the execution is interrupted. -/
theorem check_tells {act : Act δ Value} (tells : ∀ h, Tells backend ctx act h) (h : History σ ρ) :
    Tells backend ctx ((Context.check : Act δ Unit) >>= fun _ => act : Act δ Value) h := by
  intro h' _ reply h'' served
  refine ⟨trivial, ?_⟩
  obtain ⟨input, -, answered⟩ := served
  simp only [answer, Prod.mk.injEq] at answered
  obtain ⟨rfl, rfl⟩ := answered
  cases input.latch with
  | none => exact tells h'
  | some cause => exact tells_throw (told_recovery (.recoveryRequired cause) h')

variable (lib_lawful : ctx.lib.Lawful)

include lib_lawful

theorem recordOutcome_tells (sound : backend.Sound ctx.lib ctx.workflowId) (lawful : ctx.serializer.Lawful)
    {result : Except Error Value} (fits : FitsEnding (.returned result)) (rounds : Nat) (h : History σ ρ) :
    Tells backend ctx (recordOutcome ctx rounds result : Act δ Value) h := by
  cases result with
  | ok v =>
    exact finalize_tells sound lawful (fun now s _ format done => sound.succeeds _ now v s lawful format done) rounds h
  | error error =>
    by_cases conflict : ∃ id, error = .workflowConflict id
    · obtain ⟨id, rfl⟩ := conflict
      exact adopt_tells sound rounds h
    · have other : ∀ id, error ≠ .workflowConflict id := fun id same => conflict ⟨id, same⟩
      by_cases own : error.isCancellationFor ctx.workflowId = true
      · have shape : (recordOutcome ctx rounds (.error error) : Act δ Value) =
            finalize ctx rounds .cancelled none (some "cancelled") (.error (.cancelled ctx.workflowId)) := by
          cases error <;> first | exact absurd rfl (other _) | simp only [recordOutcome, own, if_true]
        rw [shape]
        exact finalize_tells sound lawful (fun now s _ _ done => sound.cancels _ now "cancelled" s done) rounds h
      · have foreign : error.isCancellationFor ctx.workflowId = false := by simpa using own
        by_cases interrupted : error.Interruption
        · obtain ⟨refusal, refused⟩ := encodeError_interruption ctx.lib ctx.serializer interrupted
          have shape : (recordOutcome ctx rounds (.error error) : Act δ Value) = .throw (recoveryError refusal) := by
            cases error <;> first
              | exact absurd rfl (other _)
              | simp only [recordOutcome, foreign, refused, Bool.false_eq_true, if_false]
          rw [shape]
          exact tells_throw (told_recovery refusal h)
        · obtain ⟨text, encoded, reads⟩ := read_encode lib_lawful lawful.1 error fits interrupted
          have shape : (recordOutcome ctx rounds (.error error) : Act δ Value) =
              finalize ctx rounds .error none (some text)
                (.error (restoreError ctx.lib (some ctx.serializer.name) text)) := by
            cases error <;> first
              | exact absurd rfl (other _)
              | (simp only [recordOutcome, foreign, encoded, Bool.false_eq_true, if_false]; rfl)
          rw [shape, restoreError_of_read reads]
          exact finalize_tells sound lawful
            (fun now s _ format done => sound.fails _ now text _ s lawful format reads done) rounds h

/-- The future of an execution is told only what stood: a deadline's own write never lands. -/
theorem conclude_tells (sound : backend.Sound ctx.lib ctx.workflowId) (lawful : ctx.serializer.Lawful)
    {ending : Ending} (fits : FitsEnding ending) (rounds : Nat) (h : History σ ρ) :
    Tells backend ctx (conclude ctx rounds ending : Act δ Value) h := by
  cases ending with
  | elapsed =>
    exact check_tells (fun h => finalize_tells sound lawful (fun _ _ deadline => absurd rfl deadline) rounds h) h
  | panicked message => exact check_tells (fun h => tells_throw (told_recovery (.ofMessage _) h)) h
  | returned result =>
    cases result with
    | ok output => exact check_tells (recordOutcome_tells lib_lawful sound lawful fits rounds) h
    | error error =>
      have checked : ∀ error, FitsEnding (.returned (.error error)) → ∀ h, Tells backend ctx
          ((Context.check : Act δ Unit) >>= fun _ => recordOutcome ctx rounds (.error error) : Act δ Value) h :=
        fun error fits => check_tells (recordOutcome_tells lib_lawful sound lawful fits rounds)
      cases error
      case recoveryRequired | observationFailed =>
        intro h' _ reply h'' served
        refine ⟨trivial, ?_⟩
        obtain ⟨input, -, answered⟩ := served
        simp only [answer, Prod.mk.injEq] at answered
        obtain ⟨rfl, rfl⟩ := answered
        exact checked (.recoveryRequired _) trivial h'
      all_goals exact checked _ fits h

/-- A result is told to a handle as it reads. -/
def Heard {α : Type} (backend : Backend σ ρ) (id : String) (codec : Codec α) (serializer : Serializer)
    (result : Except Error α) (h : History σ ρ) : Prop :=
  Uninterrupted result →
    (∃ outcome, .recorded outcome ∈ stood backend h ∧ result = typed codec (backend.result serializer outcome)) ∨
    .missing ∈ stood backend h ∧ result = .error (.nonExistentWorkflow id)

omit lib_lawful in
theorem Heard.later {α : Type} {codec : Codec α} {serializer : Serializer} {result : Except Error α} {id : String}
    {h h' : History σ ρ} (heard : Heard backend id codec serializer result h)
    (grows : ∀ x ∈ stood backend h, x ∈ stood backend h') : Heard backend id codec serializer result h' := by
  intro free
  rcases heard free with ⟨outcome, member, same⟩ | ⟨member, same⟩
  · exact .inl ⟨outcome, grows _ member, same⟩
  · exact .inr ⟨grows _ member, same⟩

omit lib_lawful in
theorem Told.heard {α : Type} (codec : Codec α) {serializer : Serializer} {result : Except Error Value} {id : String}
    {h : History σ ρ} (told : Told backend id serializer result h) :
    Heard backend id codec serializer (typed codec result) h := by
  intro free
  have plain : Uninterrupted result := by
    intro cause
    constructor <;> (rintro rfl; first | exact (free cause).1 rfl | exact (free cause).2 rfl)
  rcases told plain with ⟨outcome, member, same⟩ | ⟨member, same⟩
  · exact .inl ⟨outcome, member, by rw [same]⟩
  · exact .inr ⟨member, by rw [same]; rfl⟩

theorem awaitTask_heard {α : Type} (codec : Codec α) (sound : backend.Sound ctx.lib ctx.workflowId)
    (lawful : ctx.serializer.Lawful) {ending : Ending} (fits : FitsEnding ending) (rounds : Nat) (h : History σ ρ) :
    Safe (world backend ctx.serializer) (fun _ _ _ => True) (Heard backend ctx.workflowId codec ctx.serializer)
      (awaitTask ctx codec rounds ending : Act δ α) h := by
  have shape : (awaitTask ctx codec rounds ending : Act δ α) =
      Client.bind (conclude ctx rounds ending : Act δ Value) fun result => .done (typed codec result) :=
    Client.bind_assoc _ _ _
  rw [shape]
  refine Safe.bind (conclude_tells lib_lawful sound lawful fits rounds h) ?_
  intro result h' told
  exact fun _ later => (told.heard codec).later later

omit lib_lawful in
theorem waitForResult_heard {α : Type} (codec : Codec α) (sound : backend.Sound ctx.lib ctx.workflowId) (rounds : Nat)
    (h : History σ ρ) :
    Safe (world backend ctx.serializer) (fun _ _ _ => True) (Heard backend ctx.workflowId codec ctx.serializer)
      (waitForResult ctx codec rounds : Act δ α) h := by
  induction rounds generalizing h with
  | zero => trivial
  | succ rounds ih =>
    have waits : ∀ h, Safe (world backend ctx.serializer) (fun _ _ _ => True)
        (Heard backend ctx.workflowId codec ctx.serializer)
        (Client.ask .wait fun _ => waitForResult ctx codec rounds : Act δ α) h :=
      fun h _ _ _ after _ => ⟨trivial, ih after⟩
    intro h' _ reply h'' served
    refine ⟨trivial, ?_⟩
    rcases read_served sound served with ⟨e, rfl, storage⟩ | ⟨rfl, missing⟩ | ⟨status, rfl, terminal⟩
    · have failed : ∀ cause,
          Heard backend ctx.workflowId codec ctx.serializer (.error (.observationFailed cause)) h'' :=
        fun cause free => absurd rfl (free cause).2
      cases e
      case db | migrate | serde | serialization | recoveryRequired | observationFailed =>
        exact fun _ later => (failed _).later later
      all_goals cases storage
    · exact waits h''
    · have told : status.status.isTerminal = true →
          Heard backend ctx.workflowId codec ctx.serializer (terminalToResult ctx codec status) h'' := by
        intro ended free
        obtain ⟨outcome, member, same⟩ := terminal ended
        exact .inl ⟨outcome, member, by rw [terminalToResult_eq, same]⟩
      cases status with
      | mk id name status =>
        cases status with
        | success | cancelled | maxRecoveryAttemptsExceeded | error => exact fun _ later => (told rfl).later later
        | pending | enqueued | delayed | other => exact waits h''

end Told

end Durare.Observers

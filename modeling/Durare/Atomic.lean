import Durare.Transaction

/-! Transactional steps under rivals and faults: a contract for their statements, the parts of a step that keep to it,
and the runs of any number of executions. -/
namespace Durare.Transaction

open Interaction Commits Sqlite

section Safety

/-- A discipline for transactional steps: the replies it counts on, the statements it allows in a
state, and what these keep. -/
structure Contract (lib : SerdeJson) (serializer : Serializer) where
  proper : Input → Query → State → Prop
  sanctioned : State → Query → Prop
  inv : State → Prop
  served : ∀ input q s, proper input q s → sanctioned s q →
    Kept s (answer lib serializer input q s).2 ∧ (inv s → inv (answer lib serializer input q s).2)

variable {lib : SerdeJson} {serializer : Serializer} (contract : Contract lib serializer)

/-- Rivals, other steps and the driver. -/
def world : World State Query Query.Reply where
  rely := Kept
  serves q s reply s' := ∃ input, contract.proper input q s ∧ answer lib serializer input q s = (reply, s')
  refl := Kept.refl
  trans := Kept.trans

/-- The part keeps to the contract while others act, and where it does not fail its result
meets `post`. -/
abbrev Does {α : Type} (post : α → State → Prop) (act : Tx α) (s : State) : Prop :=
  Safe (world contract) (fun _ s s' => Kept s s' ∧ (contract.inv s → contract.inv s'))
    (fun result s => ∀ a, result = .ok a → post a s) act s

/-- What nobody can undo. -/
def Stable (P : State → Prop) : Prop := ∀ s s', P s → Kept s s' → P s'

variable {contract} {α β : Type} {P : State → Prop} {s : State}

theorem stable_true : Stable fun _ => True := fun _ _ _ _ => trivial

theorem stable_row {position : Position} {p : StepRecord → Prop} :
    Stable fun s => ∃ row, s.sys.rows.get position = some row ∧ p row := by
  intro s s' stored kept
  obtain ⟨row, here, meets⟩ := stored
  exact ⟨row, kept.sys.rows position row here, meets⟩

theorem stable_run {i : Nat} {p : Run Position Statements Error Value → Prop} :
    Stable fun s => ∃ run, s.sys.ran[i]? = some run ∧ p run := by
  intro s s' ran kept
  obtain ⟨run, here, meets⟩ := ran
  exact ⟨run, kept.sys.numbered here, meets⟩

theorem pure_does {post : α → State → Prop} {a : α} (stable : Stable (post a)) (here : post a s) :
    Does contract post (pure a : Tx α) s := by
  intro s' moved a' same
  cases same
  exact stable s s' here moved

theorem throw_does {post : α → State → Prop} {e : Error} : Does contract post (.throw e : Tx α) s := by
  intro s' _ a same
  cases same

theorem Does.then {post : α → State → Prop} {goal : β → State → Prop} {act : Tx α} {f : α → Tx β}
    (first : Does contract post act s) (second : ∀ a s, post a s → Does contract goal (f a) s) :
    Does contract goal (act >>= f) s := by
  apply Safe.seq first
  · intro a s known
    exact second a s (known a rfl)
  · intro e s _ s' _ b same
    cases same

/-- A statement, with what its reply lets the client know. -/
theorem ask_knows {q : Query} {same : q.Reply = Except Error α} {post : α → State → Prop}
    (stable : ∀ a, Stable (post a)) (sanctioned : ∀ s', Kept s s' → contract.sanctioned s' q)
    (told : ∀ s' input a, Kept s s' → contract.proper input q s' → same ▸ (answer lib serializer input q s').1 = .ok a →
      post a (answer lib serializer input q s').2) :
    Does contract post (ask q same) s := by
  intro s' moved reply s'' served
  obtain ⟨input, fit, answered⟩ := served
  have may := contract.served input q s' fit (sanctioned s' moved)
  have knows := told s' input
  rw [answered] at may knows
  exact ⟨may, fun t later a ended => stable a _ _ (knows a moved fit ended) later⟩

theorem request_knows {q : Query} {post : q.Reply → State → Prop} (stable : ∀ a, Stable (post a))
    (sanctioned : ∀ s', Kept s s' → contract.sanctioned s' q)
    (told : ∀ s' input, Kept s s' → contract.proper input q s' →
      post (answer lib serializer input q s').1 (answer lib serializer input q s').2) :
    Does contract post (request q) s := by
  intro s' moved reply s'' served
  obtain ⟨input, fit, answered⟩ := served
  have may := contract.served input q s' fit (sanctioned s' moved)
  have knows := told s' input moved fit
  rw [answered] at may knows
  refine ⟨may, ?_⟩
  intro t later a ended
  cases ended
  exact stable _ _ _ knows later

/-- A statement that needs no sanction leaves what is known. -/
theorem ask_then {q : Query} {same : q.Reply = Except Error α} {goal : β → State → Prop} {f : α → Tx β}
    (stable : Stable P)
    (here : P s) (rest : ∀ a s, P s → Does contract goal (f a) s) (free : ∀ s, contract.sanctioned s q) :
    Does contract goal (ask q same >>= f) s := by
  have asked : Does contract (fun _ s => P s) (ask q same) s := by
    apply ask_knows (fun _ => stable)
    · exact fun s' _ => free s'
    · intro s' input _ moved fit _
      exact stable _ _ (stable _ _ here moved) (contract.served input q s' fit (free s')).1
  exact asked.then rest

theorem request_then {q : Query} {goal : β → State → Prop} {f : q.Reply → Tx β} (stable : Stable P) (here : P s)
    (rest : ∀ a s, P s → Does contract goal (f a) s) (free : ∀ s, contract.sanctioned s q) :
    Does contract goal (request q >>= f) s := by
  have asked : Does contract (fun _ s => P s) (request q) s := by
    apply request_knows (fun _ => stable)
    · exact fun s' _ => free s'
    · intro s' input moved fit
      exact stable _ _ (stable _ _ here moved) (contract.served input q s' fit (free s')).1
  exact asked.then rest

theorem ofExcept_then {result : Except Error α} {goal : β → State → Prop} {f : α → Tx β}
    (rest : ∀ a, result = .ok a → Does contract goal (f a) s) : Does contract goal (.ofExcept result >>= f) s := by
  cases result with
  | ok a => exact rest a rfl
  | error e => exact throw_does

variable (lib serializer) in
def atomic : Contract lib serializer where
  proper _ _ _ := True
  sanctioned := Sanctioned lib serializer
  inv := Sound lib serializer
  served input _ _ _ sanctioned := ⟨(answer_may input sanctioned).kept, (answer_may input sanctioned).sound⟩

variable {call : Call}

def Holds (call : Call) (p : StepRecord → Prop) (s : State) : Prop :=
  ∃ row, s.sys.rows.get call.position = some row ∧ p row

theorem selectStep_does : Does (atomic lib serializer) (fun found s => ∀ row, found = some row → Holds call (· = row) s)
    (ask (.selectStep call.id call.seq) rfl) s := by
  apply ask_knows
  · intro found s s' known kept row same
    exact stable_row s s' (known row same) kept
  · exact fun _ _ => trivial
  · intro s' input found _ _ replied row same
    simp only [answer, Input.replies] at replied
    split at replied
    · cases replied
    · rw [same] at replied
      exact ⟨row, Except.ok.inj replied, rfl⟩

theorem classify_does (output error : Option String) : Does (atomic lib serializer)
    (fun _ s => Holds call (fun row => row.output = output ∧ row.error = error) s)
    (classifyLostTxnCheckpoint call output error) s := by
  apply selectStep_does.then
  intro found s known
  cases found with
  | none => exact throw_does
  | some row =>
    dsimp only
    split
    · exact throw_does
    · split
      next alike =>
        obtain ⟨row', here, rfl⟩ := known row rfl
        exact pure_does stable_row ⟨row', here, alike.1, alike.2.1⟩
      · exact throw_does

def Succeeded (call : Call) : State → Prop := Holds call fun row => row.error = none ∧ row.output.isSome = true

def Attempted (call : Call) : TransactionAttempt → State → Prop
  | .committed _, s => Succeeded call s
  | .bodyFailed _, _ => True

/-- The commit of a run with its row puts the row there. -/
theorem commitStep_does {i : Nat} {run : Run Position Statements Error Value} {value : Value} {row : StepRecord}
    (here : s.sys.ran[i]? = some run) (ended : run.outcome = .ok value) (own : run.key = call.position)
    (told : StepWitness lib serializer run row) : Does (atomic lib serializer) (fun _ s => Holds call (· = row) s)
      (ask (.commitStep i (some (call.position, row))) rfl) s := by
  apply ask_knows (fun _ => stable_row)
  · intro s' kept
    exact ⟨run, value, kept.sys.numbered here, ended, .inr ⟨row, by rw [own], told⟩⟩
  · intro s' input u _ _ replied
    simp only [answer] at replied ⊢
    cases done : s'.sys.commit i (some (call.position, row)) with
    | none =>
      rw [done] at replied
      cases replied
    | some sys =>
      rw [done] at replied
      simp only [Input.replies] at replied
      split at replied
      · cases replied
      next faultless =>
        simp only [Input.leaves, faultless, Option.isNone_none, Bool.true_or, if_true]
        unfold Base.commit at done
        dsimp only at done
        split at done
        · cases done
        · cases done
          exact ⟨row, by simp, rfl⟩

/-- A success that `record_step_result` accepts is the row at its position. -/
theorem recordStepResult_success {now : DateTime} {id : String} {seq : Int} {name : String} {value : Value}
    {startedAtMs : Option Int} {executor : Option String} {db : Db} {outcome : StepOutcome}
    (accepted : (recordStepResult lib serializer now id seq name value none startedAtMs executor db).1 = .ok outcome) :
    ∃ row, (recordStepResult lib serializer now id seq name value none startedAtMs executor db).2.operationOutputs.get
      (id, seq) = some row ∧ row.error = none ∧ row.output.isSome = true := by
  cases encoded : serializer.encode lib value with
  | error e =>
    simp only [recordStepResult, outputColumn, encoded, Except.map] at accepted
    cases accepted
  | ok text =>
    simp only [recordStepResult, outputColumn, encoded, Except.map] at accepted ⊢
    cases present : db.operationOutputs.get (id, seq) with
    | none =>
      simp only [present] at accepted ⊢
      split at accepted
      · cases accepted
      next stored =>
        rw [if_neg stored]
        simp [refreshExecutor_outputs]
    | some row =>
      simp only [present] at accepted ⊢
      split at accepted
      · cases accepted
      next named =>
        split at accepted
        next alike =>
          simp only [if_neg named, if_pos alike]
          exact ⟨row, present, alike.2.1, by simp [alike.1]⟩
        · cases accepted

theorem recordStepResult_does {value : Value} {executor : Option String} :
    Does (atomic lib serializer) (fun _ => Succeeded call)
      (ask (.recordStepResult call.id call.seq call.opts.name value none (some call.startedAtMs) executor) rfl) s := by
  apply ask_knows (fun _ => stable_row)
  · exact fun _ _ => trivial
  · intro s' input outcome _ _ replied
    simp only [answer, Input.replies] at replied ⊢
    split at replied
    · cases replied
    next faultless =>
      simp only [Input.leaves, faultless, Option.isNone_none, Bool.true_or, if_true]
      exact recordStepResult_success replied

theorem finishAttempt_does {i : Nat} {writes : Statements} {value : Value}
    (here : s.sys.ran[i]? = some ⟨call.position, call.opts.readOnly, writes, .ok value⟩) :
    Does (atomic lib serializer) (Attempted call) (finishAttempt lib serializer call i value) s := by
  unfold finishAttempt
  split
  next reading =>
    have committed : Does (atomic lib serializer) (fun _ _ => True) (ask (.commitStep i none) rfl) s := by
      apply ask_knows (fun _ => stable_true)
      · intro s' kept
        exact ⟨_, value, kept.sys.numbered here, rfl, .inl ⟨rfl, reading⟩⟩
      · exact fun _ _ _ _ _ _ => trivial
    apply committed.then
    intro _ s _
    apply recordStepResult_does.then
    intro outcome s recorded
    apply ofExcept_then
    intro value _
    exact pure_does stable_row recorded
  · apply ofExcept_then
    intro encoded encodes
    apply request_then stable_run ⟨_, here, rfl⟩
    · intro now s known
      apply ask_then stable_run known
      · intro won s known
        obtain ⟨run, here, rfl⟩ := known
        cases won with
        | true =>
          have told : StepWitness lib serializer ⟨call.position, call.opts.readOnly, writes, .ok value⟩
              (successRow serializer call encoded now) := ⟨rfl, value, encoded, rfl, encodes, rfl⟩
          apply (commitStep_does here rfl rfl told).then
          intro _ s stored
          obtain ⟨row, stored, rfl⟩ := stored
          exact pure_does stable_row ⟨_, stored, rfl, rfl⟩
        | false =>
          apply request_then stable_true trivial
          · intro _ s _
            apply (classify_does (some encoded) none).then
            intro _ s stored
            obtain ⟨row, stored, output, failure⟩ := stored
            exact pure_does stable_row ⟨row, stored, failure, by simp [output]⟩
          · exact fun _ => trivial
      · exact fun _ => trivial
    · exact fun _ => trivial

theorem body_does : Does (atomic lib serializer)
    (fun ended s => ∃ run, s.sys.ran[ended.1]? = some run ∧
      ∃ writes, run = ⟨call.position, call.opts.readOnly, writes, ended.2⟩)
    (request (.body .system call.id call.seq call.opts.readOnly)) s := by
  apply request_knows (fun _ => stable_run)
  · exact fun _ _ => trivial
  · intro s' input _ _
    exact ⟨⟨call.position, call.opts.readOnly, input.writes, input.outcome⟩,
      by simp [answer, Base.push, Call.position], input.writes, rfl⟩

/-- What follows the body: the attempt is finished, given up or rolled back. -/
theorem ran_does {k : Nat × Except Error Value → Tx TransactionAttempt}
    (returned : ∀ i v, k (i, .ok v) = finishAttempt lib serializer call i v)
    (failed : ∀ i e, k (i, .error e) = if e.shouldRetryLiveTransaction then .throw e
      else do
        ask (.rollback .system) rfl
        pure (.bodyFailed e)) :
    Does (atomic lib serializer) (Attempted call)
      (request (.body .system call.id call.seq call.opts.readOnly) >>= k) s := by
  apply body_does.then
  intro ended s known
  obtain ⟨i, result⟩ := ended
  obtain ⟨run, here, writes, rfl⟩ := known
  cases result with
  | ok value =>
    rw [returned]
    exact finishAttempt_does here
  | error e =>
    rw [failed]
    split
    · exact throw_does
    · apply ask_then stable_true trivial
      · exact fun _ s _ => pure_does stable_true trivial
      · exact fun _ => trivial

theorem attempt_does : Does (atomic lib serializer) (Attempted call) (attempt lib serializer call) s := by
  apply ask_then stable_true trivial
  · intro _ s _
    dsimp only
    split
    · apply ask_then stable_true trivial
      · exact fun _ s _ => ran_does (fun _ _ => rfl) fun _ _ => rfl
      · exact fun _ => trivial
    · exact ran_does (fun _ _ => rfl) fun _ _ => rfl
  · exact fun _ => trivial

theorem conflictRetryWait_does : Does (atomic lib serializer) (fun _ _ => True) (conflictRetryWait call) s := by
  apply request_then stable_true trivial
  · intro status s _
    split
    · exact throw_does
    · exact pure_does stable_true trivial
  · exact fun _ => trivial

theorem attempted_stable (ended : TransactionAttempt) : Stable (Attempted call ended) := by
  cases ended with
  | committed value => exact stable_row
  | bodyFailed e => exact stable_true

theorem retryConflicts_does (rounds : Nat) :
    Does (atomic lib serializer) (Attempted call) (retryConflicts lib serializer call rounds) s := by
  induction rounds generalizing s with
  | zero => trivial
  | succ rounds ih =>
    have handed : Does (atomic lib serializer) (fun result s => ∀ ended, result = .ok ended → Attempted call ended s)
        (attempt lib serializer call).attempt s := by
      apply attempt_does.attempted
      intro result s known s' kept handed same ended succeeded
      cases same
      exact attempted_stable ended s s' (known ended succeeded) kept
    apply handed.then
    intro ended s known
    cases ended with
    | ok ended => exact pure_does (attempted_stable ended) (known ended rfl)
    | error e =>
      dsimp only
      split
      · apply conflictRetryWait_does.then
        exact fun _ s _ => ih
      · exact throw_does

/-- What the end of the step says of the row at its position. -/
def Finished (call : Call) : Finish → State → Prop
  | .committed _, s => Succeeded call s
  | .exhausted encoded, s => Holds call (fun row => row.output = none ∧ row.error = some encoded) s
  | .replayed _, _ => True

theorem finished_stable (ended : Finish) : Stable (Finished call ended) := by
  cases ended with
  | committed | exhausted => exact stable_row
  | replayed => exact stable_true

theorem insertFailedStep_does (row : StepRecord) :
    Does (atomic lib serializer) (fun won s => won = true → Holds call (· = row) s)
    (ask (.insertFailedStep call.id call.seq row) rfl) s := by
  apply ask_knows
  · intro won s s' known kept same
    exact stable_row s s' (known same) kept
  · exact fun _ _ => trivial
  · intro s' input won _ _ replied same
    simp only [answer] at replied ⊢
    cases owner : owned s' call.id with
    | error e =>
      rw [owner] at replied
      cases replied
    | ok _ =>
      simp only [owner, Input.replies] at replied
      split at replied
      · cases replied
      next faultless =>
        simp only [Input.leaves, faultless, Option.isNone_none, Bool.true_or, if_true]
        rw [same] at replied
        unfold Base.insert at replied ⊢
        split at replied
        · cases replied
        next vacant =>
          rw [if_neg vacant]
          exact ⟨row, by simp [Call.position], rfl⟩

theorem recordExhausted_does (e : Error) :
    Does (atomic lib serializer) (Finished call) (recordExhausted lib serializer call e) s := by
  apply ofExcept_then
  intro encoded _
  apply request_then stable_true trivial
  · intro now s _
    apply (insertFailedStep_does (failureRow serializer call encoded now)).then
    intro won s known
    cases won with
    | true =>
      obtain ⟨row, stored, rfl⟩ := known rfl
      exact pure_does stable_row ⟨_, stored, rfl, rfl⟩
    | false =>
      apply (classify_does none (some encoded)).then
      intro _ s stored
      exact pure_does stable_row stored
  · exact fun _ => trivial

theorem afterAttempt_does {retries : Nat} {again : Tx Finish} {ended : TransactionAttempt}
    (known : Attempted call ended s) (next : ∀ s, Does (atomic lib serializer) (Finished call) again s) :
    Does (atomic lib serializer) (Finished call) (afterAttempt lib serializer call retries again ended) s := by
  unfold afterAttempt
  split
  · exact pure_does stable_row known
  · exact throw_does
  · exact throw_does
  · split
    · exact next s
    · exact recordExhausted_does _

theorem retryBody_does (rounds left : Nat) :
    Does (atomic lib serializer) (Finished call) (retryBody lib serializer call rounds left) s := by
  induction left generalizing s with
  | zero =>
    apply (retryConflicts_does rounds).then
    intro ended s known
    exact afterAttempt_does known fun _ => trivial
  | succ left ih =>
    apply (retryConflicts_does rounds).then
    intro ended s known
    exact afterAttempt_does known fun _ => ih

theorem runTransactionStep_does (rounds : Nat) :
    Does (atomic lib serializer) (Finished call) (runTransactionStep lib serializer call rounds) s := by
  apply ask_then stable_true trivial
  · intro found s _
    cases found with
    | none => exact retryBody_does rounds _
    | some row =>
      apply ofExcept_then
      intro outcome _
      cases outcome with
      | none => exact retryBody_does rounds _
      | some outcome =>
        dsimp only
        split
        · exact throw_does
        · exact pure_does stable_true trivial
  · exact fun _ => trivial

end Safety

section Runs

variable {τ α : Type} (lib : SerdeJson) (serializer : Serializer) (program : τ → Tx α)

/-- What happens besides: a step of another kind is recorded, or a workflow's row is written. -/
inductive Move where
  | recorded (input : Input) (id : String) (seq : Int) (name : String) (value : Value) (error : Option String)
      (startedAtMs : Option Int) (executor : Option String)
  | workflow (id : String) (row : WorkflowRecord)

def move (s : State) : Move → State
  | .recorded input id seq name value error startedAtMs executor =>
    (answer lib serializer input (.recordStepResult id seq name value error startedAtMs executor) s).2
  | .workflow id row => { s with workflows := s.workflows.put id row }

/-- Any number of executions at their transactional steps. -/
def setting : Crowd.Setting State τ Move Input Query Query.Reply (Except Error α) where
  program := program
  move := move lib serializer
  answer := answer lib serializer

abbrev Event (τ : Type) := Crowd.Event Move τ Input

def State.fresh (rows : Table Position StepRecord) (completions : Table Position CompletionRow)
    (workflows : Table String WorkflowRecord) : State :=
  ⟨{ rows := rows }, { rows := completions }, workflows⟩

variable {lib serializer program}

theorem fresh_sound (rows : Table Position StepRecord) (completions : Table Position CompletionRow)
    (workflows : Table String WorkflowRecord) : Sound lib serializer (.fresh rows completions workflows) := by
  constructor
  · constructor
    · intro i member
      cases member
    · intro i member
      cases member
    · intro key i written
      cases written
  · constructor
    · intro i member
      cases member
    · intro i member
      cases member
    · intro key i written
      cases written

theorem move_may (s : State) (m : Move) : May lib serializer s (move lib serializer s m) := by
  cases m with
  | recorded input id seq name value error startedAtMs executor => exact answer_may input trivial
  | workflow id row => exact ⟨⟨.refl s.sys, .refl s.app⟩, fun sound => ⟨sound.sys, sound.app⟩⟩

/-- In every run of steps that keep to the contract by themselves its invariant holds, and every result
meets its postcondition. -/
theorem run_keeps {contract : Contract lib serializer} {others : State → Move → Prop} {post : τ → α → State → Prop}
    (stable : ∀ tag a, Stable (post tag a)) (safe : ∀ tag s, Does contract (post tag) (program tag) s)
    (moved : ∀ s m, others s m → contract.inv s → contract.inv (move lib serializer s m)) {events : List (Event τ)} {s : State}
    (allowed : Runs.Along (Crowd.next (setting lib serializer program)) (Crowd.Allowed others contract.proper) events
      (Crowd.start s)) (start : contract.inv s) :
    contract.inv (Crowd.run (setting lib serializer program) events (Crowd.start s)).state ∧
      ∀ r ∈ (Crowd.run (setting lib serializer program) events (Crowd.start s)).returned, ∀ a, r.2 = .ok a →
        post r.1 a (Crowd.run (setting lib serializer program) events (Crowd.start s)).state := by
  have rule : Crowd.Sound.Rule (setting lib serializer program) (world contract)
      (fun _ _ s s' => Kept s s' ∧ (contract.inv s → contract.inv s'))
      (fun tag result s => ∀ a, result = .ok a → post tag a s) others contract.proper :=
    { safe := safe
      served := fun input q s fit => ⟨input, fit, rfl⟩
      guarantee := fun _ _ _ _ may => may.1
      moved := fun s m _ => (move_may s m).kept
      stable := fun tag result s s' known kept a same => stable tag a s s' (known a same) kept }
  have both : Crowd.Sound (world contract) (fun _ _ s s' => Kept s s' ∧ (contract.inv s → contract.inv s'))
      (fun tag result s => ∀ a, result = .ok a → post tag a s)
      (Crowd.run (setting lib serializer program) events (Crowd.start s)) ∧
      contract.inv (Crowd.run (setting lib serializer program) events (Crowd.start s)).state := by
    apply Runs.invariant (I := fun scene => Crowd.Sound _ _ _ scene ∧ contract.inv scene.state) _ allowed
    · exact ⟨.start s, start⟩
    · intro scene event fit both
      refine ⟨both.1.next rule scene event fit, ?_⟩
      have change := both.1.change rule scene event fit
      generalize (Crowd.next (setting lib serializer program) scene event).state = t at change ⊢
      cases change with
      | moved m => exact moved scene.state m fit both.2
      | asked i input tag q s' did => exact did.2 both.2
      | ticked | entered | crashed => exact both.2
  exact ⟨both.2, both.1.returned⟩

theorem allowed_always {proper : Input → Query → State → Prop} (free : ∀ input q s, proper input q s)
    (events : List (Event τ)) (s : State) :
    Runs.Along (Crowd.next (setting lib serializer program)) (Crowd.Allowed (fun _ _ => True) proper) events
      (Crowd.start s) := by
  apply Runs.along_of_forall
  intro scene event
  cases event with
  | tick => exact fun _ _ => free _ _ _
  | outside | enter | crash => trivial

end Runs

abbrev Steps := Call × Nat

abbrev Scene := Crowd.Scene State Steps Query Query.Reply (Except Error Finish)

def Checkpointed (s : State) (position : Position) (i : Nat) : Prop :=
  s.sys.writer.get position = some i ∧
    ∃ row, s.sys.rows.get position = some row ∧ row.error = none ∧ row.output.isSome = true

/-- What the transactions that are not marked as reading only have come to. The writes of the committed
runs are what the database shows. -/
structure Undivided (scene : Scene) : Prop where
  seen : ∀ i run, scene.state.sys.ran[i]? = some run → run.readOnly = false →
    (i ∈ scene.state.sys.commits ↔ Checkpointed scene.state run.key i)
  once : ∀ i j run run', scene.state.sys.ran[i]? = some run → scene.state.sys.ran[j]? = some run' →
    run.readOnly = false → run'.readOnly = false → run.key = run'.key →
    i ∈ scene.state.sys.commits → j ∈ scene.state.sys.commits → i = j
  rolledBack : ∀ i run, scene.state.sys.ran[i]? = some run → run.readOnly = false →
    scene.state.sys.writer.get run.key ≠ some i → i ∉ scene.state.sys.commits
  failed : ∀ i run e, scene.state.sys.ran[i]? = some run → run.outcome = .error e → i ∉ scene.state.sys.commits
  exhausted : ∀ step encoded, (step, .ok (.exhausted encoded)) ∈ scene.returned →
    (∃ row, scene.state.sys.rows.get step.1.position = some row ∧ row.output = none ∧ row.error = some encoded) ∧
    ∀ i ∈ scene.state.sys.commits, ∀ run, scene.state.sys.ran[i]? = some run → run.readOnly = false →
      run.key ≠ step.1.position

theorem transactions_undivided (lib : SerdeJson) (serializer : Serializer) (rows : Table Position StepRecord)
    (completions : Table Position CompletionRow) (workflows : Table String WorkflowRecord) (events : List (Event Steps)) :
    Undivided (Crowd.run (setting lib serializer fun step => runTransactionStep lib serializer step.1 step.2) events
      (Crowd.start (.fresh rows completions workflows))) := by
  have safe : ∀ (step : Steps) s, Does (atomic lib serializer) (Finished step.1)
      (runTransactionStep lib serializer step.1 step.2) s := fun step s => runTransactionStep_does step.2
  obtain ⟨sound, finished⟩ := run_keeps (fun _ => finished_stable) safe (fun s m _ => (move_may s m).sound)
    (allowed_always (fun _ _ _ => trivial) events _) (fresh_sound rows completions workflows)
  change Sound lib serializer _ at sound
  generalize Crowd.run (setting lib serializer fun step : Steps => runTransactionStep lib serializer step.1 step.2) events
    (Crowd.start (.fresh rows completions workflows)) = scene at sound finished ⊢
  have seen : ∀ i run, scene.state.sys.ran[i]? = some run → run.readOnly = false → i ∈ scene.state.sys.commits →
      Checkpointed scene.state run.key i := by
    intro i run here writing member
    obtain ⟨written, row, stored, failure, _, _, _, _, output⟩ := sound.sys.witnessed i member run here writing
    exact ⟨written, row, stored, failure, by simp [output]⟩
  constructor
  · intro i run here writing
    constructor
    · exact seen i run here writing
    · intro checkpointed
      exact (sound.sys.written run.key i checkpointed.1).1
  · intro i j run run' here there writing writing' same first second
    exact sound.sys.once first second here there writing writing' same
  · intro i run here writing other member
    exact other (seen i run here writing member).1
  · intro i run e here ended
    exact sound.sys.failed here ended
  · intro step encoded member
    obtain ⟨row, stored, output, failure⟩ := finished _ member (.exhausted encoded) rfl
    refine ⟨⟨row, stored, output, failure⟩, ?_⟩
    intro i committed run here writing same
    obtain ⟨-, row', stored', failure', -⟩ := seen i run here writing committed
    rw [same, stored] at stored'
    cases stored'
    rw [failure] at failure'
    cases failure'

/-- A step that is marked as reading only and writes, on SQLite. -/
def hinted : Steps := (⟨.sqlite, "w", 0, 1, { name := "charge", readOnly := true }⟩, 1)

/-- It crashes behind its commit. -/
def crashedBehindCommit : List (Event Steps) :=
  [.enter hinted, .tick 0 {}, .tick 0 {}, .tick 0 { writes := ["UPDATE account SET balance = balance - 10"] }, .tick 0 {},
    .crash 0]

theorem hinted_write_unrecorded :
    ¬ ∀ (lib : SerdeJson) (serializer : Serializer) (events : List (Event Steps)) (i : Nat)
      (run : Run Position Statements Error Value), ∀ s, s = (Crowd.run
        (setting lib serializer fun step => runTransactionStep lib serializer step.1 step.2) events
          (Crowd.start (.fresh ∅ ∅ ∅))).state →
        s.sys.ran[i]? = some run → (i ∈ s.sys.commits ↔ Checkpointed s run.key i) := by
  intro atomic
  have seen := atomic (.reading []) .json crashedBehindCommit 0
    ⟨("w", 0), true, ["UPDATE account SET balance = balance - 10"], .ok .null⟩ _ rfl rfl
  have written := (seen.mp (by decide)).1
  cases written

end Durare.Transaction

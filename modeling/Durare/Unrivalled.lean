import Durare.TwoCommit

/-! A transactional call without rivals, on each of its three paths: what is known of its position while it runs, and
what its attempts do before one of them is committed. -/
namespace Durare.Transaction

open Interaction Commits Sqlite

section Definitions

variable (lib : SerdeJson) (serializer : Serializer)

/-- `transaction_with` past its guard, up to the decoding of the outcome: a storage failure is resolved by
what is recorded. -/
def transactionWith (call : DsCall) (rounds : Nat) : Tx StepOutcome := do
  let started ← request .now
  let step : Call := ⟨call.backend, call.id, call.seq, started.timestampMillis, call.opts⟩
  match ← (runTransactionStep lib serializer step rounds).attempt with
  | .error e => resolve e
  | .ok finish =>
    match finish.result lib serializer with
    | .ok value => pure (.output value)
    | .error e => resolve e
where
  resolve (e : Error) : Tx StepOutcome :=
    if e.isStorageFailure then do
      match ← getStepResult lib serializer call with
      | some recorded =>
        checkRecorded call recorded.name
        pure recorded.outcome
      | none => record e
    else .throw e

/-- The ways to a transaction: in the provider, or on a data source of either kind. -/
inductive Path where
  | provider
  | external
  | system
deriving DecidableEq, Repr

def transactionCall (path : Path) (call : DsCall) (rounds : Nat) : Tx StepOutcome :=
  match path with
  | .provider => transactionWith lib serializer call rounds
  | .external => runDatasourceTransaction lib serializer call .external rounds
  | .system => runDatasourceTransaction lib serializer call .system rounds

def Path.ran (path : Path) (s : State) : List (Run Position Statements Error Value) :=
  if path = .external then s.app.ran else s.sys.ran

def Path.commits (path : Path) (s : State) : List Nat := if path = .external then s.app.commits else s.sys.commits

/-- The databases as one execution leaves them, how many more statements and bodies may fail, and the transaction
that is open. -/
structure Alone where
  state : State
  failures : Nat
  txid : Option String := none

def spent (input : Input) : Query → Bool
  | .body _ _ _ _ =>
    match input.outcome with
    | .error e => e.shouldRetryLiveTransaction
    | .ok _ => false
  | _ => input.fault.isSome

def Alone.after (w : Alone) (input : Input) (q : Query) (s : State) : Alone where
  state := s
  failures := if spent input q then w.failures - 1 else w.failures
  txid := match q with
    | .begin _ => none
    | .fingerprint => input.fingerprint
    | _ => w.txid

/-- The statements whose failure the retries of the path make up for. -/
def Retried (path : Path) (s : State) : Query → Bool
  | .begin _ | .setTransaction _ _ | .fingerprint | .insertStep _ _ _ | .insertCompletion _ _ _ | .commitStep _ _
  | .commitCompletion _ _ | .rollback _ => true
  | .selectStep id seq => path == .provider && (s.sys.rows.get (id, seq)).isSome
  | .recordStepResult _ _ _ _ _ _ _ | .workflowStatus _ => path == .provider
  | _ => false

/-- The driver fails with errors that may clear, where they are tried again, and only so often. A transaction
keeps its number. -/
def Driven (path : Path) (input : Input) (q : Query) (w : Alone) : Prop :=
  (∀ e ∈ input.fault, e.shouldRetryLiveTransaction = true ∧ Retried path w.state q = true) ∧
  (spent input q = true → 0 < w.failures) ∧ (q = .fingerprint → ∀ id ∈ w.txid, input.fingerprint = some id)

/-- The value is written as a text that reads back as the value. -/
def Storable (value : Value) : Prop :=
  match serializer.encode lib value with
  | .ok text => decode lib serializer (some serializer.name) text = .ok value
  | .error _ => False

/-- The body returns what reads back as it was written, and once a run is committed the same value again, or a
failure that may clear. -/
def Repeats (path : Path) (call : DsCall) (input : Input) (q : Query) (w : Alone) : Prop :=
  match q with
  | .body _ _ _ _ =>
    (∀ value ∈ input.outcome.toOption, Storable lib serializer value) ∧
      ∀ i ∈ path.commits w.state, ∀ run ∈ (path.ran w.state)[i]?, run.key = call.position →
        spent input q = true ∨ input.outcome = run.outcome
  | _ => True

/-- One execution with the driver and its body, as far as they are fit. -/
def alone (fit : Input → Query → Alone → Prop) : World Alone Query Query.Reply where
  rely := (· = ·)
  serves q w reply w' := ∃ input, fit input q w ∧
    (answer lib serializer input q w.state).1 = reply ∧ w.after input q (answer lib serializer input q w.state).2 = w'
  refl := fun _ => rfl
  trans := fun same same' => same.trans same'

/-- A run of the body that was committed is what the call returns, and what is recorded. -/
def Recovered (path : Path) (call : DsCall) (result : Except Error StepOutcome) (w : Alone) : Prop :=
  ∀ i ∈ path.commits w.state, ∀ run value, (path.ran w.state)[i]? = some run → run.key = call.position →
    run.outcome = .ok value → result = .ok (.output value) ∧
      ∃ row, w.state.sys.rows.get call.position = some row ∧
        checkpointReads lib serializer row = .ok (some (.output value))

end Definitions

section Standing

variable (lib : SerdeJson) (serializer : Serializer) (path : Path) (call : DsCall)

structure Told (startedAtMs : Int) (value : Value) (row : StepRecord) : Prop where
  name : row.functionName = call.opts.name
  failure : row.error = none
  format : row.serialization = some serializer.name
  started : row.startedAtMs = some startedAtMs
  output : ∃ text, serializer.encode lib value = .ok text ∧ row.output = some text

/-- The workflow is not cancelled, and the rows of the position are those of the value that was committed. A step
marked as reading only is committed without one. -/
structure Held (startedAtMs : Int) (value : Option Value) (s : State) : Prop where
  alive : ∃ row, s.workflows.get call.id = some row ∧ row.status ≠ .cancelled
  committed : ∀ i ∈ path.commits s, ∃ run v, (path.ran s)[i]? = some run ∧ run.outcome = .ok v ∧ run.key = call.position ∧
    value = some v
  applied : ∀ v, value = some v → path.commits s ≠ []
  storable : ∀ v, value = some v → Storable lib serializer v
  checkpoint : ∀ row, s.sys.rows.get call.position = some row → path ≠ .external ∧
    ∃ v, value = some v ∧ Told lib serializer call startedAtMs v row
  completion : ∀ row, s.app.rows.get call.position = some row →
    ∃ v text, value = some v ∧ serializer.encode lib v = .ok text ∧ row = ⟨some text, none, some serializer.name⟩
  written : ∀ v, value = some v → call.opts.readOnly = false →
    (path = .external → (s.app.rows.get call.position).isSome = true) ∧
    (path ≠ .external → (s.sys.rows.get call.position).isSome = true)

/-- The driver and the body of the call. -/
def Fit (input : Input) (q : Query) (w : Alone) : Prop :=
  Driven path input q w ∧ Repeats lib serializer path call input q w

/-- A failure that may clear, and of which there are fewer to come. -/
def Broke (startedAtMs : Int) (n : Nat) (e : Error) (w : Alone) : Prop :=
  e.shouldRetryLiveTransaction = true ∧ w.failures < n ∧ ∃ value, Held lib serializer path call startedAtMs value w.state

/-- What is handed on as a value: the result of a part meets the one condition or its failure the other. -/
def Handed (post : α → Alone → Prop) (broke : Error → Alone → Prop) : Except Error α → Alone → Prop
  | .ok a, w => post a w
  | .error e, w => broke e w

/-- The part ends as said, or with a failure that may clear. -/
abbrev Goes {α : Type} (startedAtMs : Int) (n : Nat) (post : α → Alone → Prop) (act : Tx α) (w : Alone) : Prop :=
  Ends (alone lib serializer (Fit lib serializer path call))
    (fun result w => match result with
      | .ok a => post a w
      | .error e => Broke lib serializer path call startedAtMs n e w) act w

/-- The part returns as said. -/
abbrev Succeeds {α : Type} (post : α → Alone → Prop) (act : Tx α) (w : Alone) : Prop :=
  Ends (alone lib serializer (Fit lib serializer path call)) (fun result w => ∃ a, result = .ok a ∧ post a w) act w

end Standing

section Rules

variable {lib : SerdeJson} {serializer : Serializer} {path : Path} {call : DsCall} {startedAtMs : Int} {n : Nat}
  {value : Option Value} {w : Alone} {α β : Type}

theorem pure_goes {post : α → Alone → Prop} {a : α} (here : post a w) :
    Goes lib serializer path call startedAtMs n post (pure a : Tx α) w := by
  intro w' same
  cases same
  exact here

theorem Goes.then {post : α → Alone → Prop} {goal : β → Alone → Prop} {act : Tx α} {f : α → Tx β}
    (first : Goes lib serializer path call startedAtMs n post act w)
    (second : ∀ a w, post a w → Goes lib serializer path call startedAtMs n goal (f a) w) :
    Goes lib serializer path call startedAtMs n goal (act >>= f) w := by
  apply Ends.seq first
  · exact second
  · intro e w broke w' same
    cases same
    exact broke

theorem Succeeds.goes {post : α → Alone → Prop} {act : Tx α} (succeeds : Succeeds lib serializer path call post act w) :
    Goes lib serializer path call startedAtMs n post act w := by
  apply Ends.mono succeeds
  intro result w' known
  obtain ⟨a, rfl, here⟩ := known
  exact here

theorem pure_succeeds {post : α → Alone → Prop} {a : α} (here : post a w) :
    Succeeds lib serializer path call post (pure a : Tx α) w := by
  intro w' same
  cases same
  exact ⟨a, rfl, here⟩

theorem Succeeds.then {post : α → Alone → Prop} {goal : Except Error β → Alone → Prop} {act : Tx α} {f : α → Tx β}
    (first : Succeeds lib serializer path call post act w)
    (second : ∀ a w, post a w → Ends (alone lib serializer (Fit lib serializer path call)) goal (f a) w) :
    Ends (alone lib serializer (Fit lib serializer path call)) goal (act >>= f : Tx β) w := by
  apply Ends.seq first
  · intro a w known
    obtain ⟨a', same, here⟩ := known
    cases same
    exact second a w here
  · intro e w known
    obtain ⟨a, same, -⟩ := known
    cases same

/-- A statement that leaves the databases, and is tried again where it fails. -/
theorem quiet_goes {q : Query} {same : q.Reply = Except Error α} {reply : Input → α} {post : α → Alone → Prop}
    (held : Held lib serializer path call startedAtMs value w.state) (few : w.failures ≤ n)
    (replies : ∀ input, same ▸ (answer lib serializer input q w.state).1 = input.replies (.ok (reply input)))
    (kept : ∀ input, (answer lib serializer input q w.state).2 = w.state) (plain : ∀ input, spent input q = input.fault.isSome)
    (told : ∀ input w', Fit lib serializer path call input q w → w'.state = w.state → w'.failures ≤ w.failures →
      w'.txid = (w.after input q w.state).txid → post (reply input) w') :
    Goes lib serializer path call startedAtMs n post (ask q same) w := by
  intro w' unmoved r w'' served
  cases unmoved
  obtain ⟨input, fit, rfl, rfl⟩ := served
  intro w' unmoved
  cases unmoved
  rw [kept]
  simp only [replies, Input.replies]
  cases fault : input.fault with
  | none =>
    refine told input _ fit rfl ?_ rfl
    simp [Alone.after, plain, fault]
  | some e =>
    obtain ⟨⟨clears, room, -⟩, -⟩ := fit
    have few' : 0 < w.failures := room (by simp [plain, fault])
    refine ⟨(clears e fault).1, ?_, value, held⟩
    simp only [Alone.after, plain, fault, Option.isSome_some, if_true]
    omega

def Path.site (path : Path) : Site := if path = .external then .application else .system

/-- A state that differs in the runs it has seen. -/
theorem Held.of_rows {s s' : State} (held : Held lib serializer path call startedAtMs value s)
    (flows : s'.workflows = s.workflows)
    (sys : s'.sys.rows.get call.position = s.sys.rows.get call.position)
    (app : s'.app.rows.get call.position = s.app.rows.get call.position) (commits : path.commits s' = path.commits s)
    (ran : ∀ (i : Nat) run, (path.ran s)[i]? = some run → (path.ran s')[i]? = some run) :
    Held lib serializer path call startedAtMs value s' := by
  constructor
  · rw [flows]
    exact held.alive
  · intro i member
    rw [commits] at member
    obtain ⟨run, v, here, ended, own, known⟩ := held.committed i member
    exact ⟨run, v, ran i run here, ended, own, known⟩
  · rw [commits]
    exact held.applied
  · exact held.storable
  · rw [sys]
    exact held.checkpoint
  · rw [app]
    exact held.completion
  · rw [sys, app]
    exact held.written

/-- The body has run as number `i`. Once a run is committed it ends with the same value, or with a failure
that may clear. -/
structure BodyRan (lib : SerdeJson) (serializer : Serializer) (path : Path) (call : DsCall) (startedAtMs : Int) (n : Nat)
    (value : Option Value) (txid : Option String) (i : Nat) (result : Except Error Value) (w : Alone) : Prop where
  held : Held lib serializer path call startedAtMs value w.state
  ran : ∃ writes, (path.ran w.state)[i]? = some ⟨call.position, call.opts.readOnly, writes, result⟩
  few : w.failures ≤ n
  txid : w.txid = txid
  returned : ∀ v, result = .ok v → Storable lib serializer v ∧ (value = none ∨ value = some v)
  failed : ∀ e, result = .error e → (e.shouldRetryLiveTransaction = true ∧ w.failures < n) ∨
    (e.shouldRetryLiveTransaction = false ∧ value = none)

theorem pushed_held {s : State} (run : Run Position Statements Error Value)
    (held : Held lib serializer path call startedAtMs value s) :
    Held lib serializer path call startedAtMs value (match path.site with
      | .application => { s with app := (s.app.push run).2 }
      | .system => { s with sys := (s.sys.push run).2 }) := by
  cases path with
  | provider | system =>
    refine held.of_rows rfl rfl rfl rfl ?_
    intro i run' here
    exact (Base.grows_push run).numbered here
  | external =>
    refine held.of_rows rfl rfl rfl rfl ?_
    intro i run' here
    exact (Base.grows_push run).numbered here

theorem answer_body (input : Input) (s : State) (id : String) (seq : Int) (readOnly : Bool) :
    answer lib serializer input (.body path.site id seq readOnly) s =
      (((path.ran s).length, input.outcome), match path.site with
        | .application => { s with app := (s.app.push ⟨(id, seq), readOnly, input.writes, input.outcome⟩).2 }
        | .system => { s with sys := (s.sys.push ⟨(id, seq), readOnly, input.writes, input.outcome⟩).2 }) := by
  cases path <;> rfl

/-- Once a value is committed the body returns it again, or a failure that may clear. -/
theorem repeats_committed {input : Input} {site : Site} {id : String} {seq : Int} {readOnly : Bool} {v : Value}
    (held : Held lib serializer path call startedAtMs (some v) w.state)
    (repeats : Repeats lib serializer path call input (.body site id seq readOnly) w) :
    spent input (.body site id seq readOnly) = true ∨ input.outcome = .ok v := by
  obtain ⟨i, member⟩ := List.exists_mem_of_ne_nil _ (held.applied v rfl)
  obtain ⟨run, v', here, committed, own, known⟩ := held.committed i member
  cases known
  rw [← committed]
  exact repeats.2 i member run here own

theorem body_goes (held : Held lib serializer path call startedAtMs value w.state) (few : w.failures ≤ n) :
    Goes lib serializer path call startedAtMs n
      (fun ended w' => BodyRan lib serializer path call startedAtMs n value w.txid ended.1 ended.2 w')
      (request (.body path.site call.id call.seq call.opts.readOnly)) w := by
  intro w' unmoved r w'' served
  cases unmoved
  obtain ⟨input, fit, rfl, rfl⟩ := served
  intro w' unmoved
  cases unmoved
  obtain ⟨⟨-, room, -⟩, repeats⟩ := fit
  rw [answer_body]
  constructor
  · exact pushed_held _ held
  · refine ⟨input.writes, ?_⟩
    cases path <;> simp [Alone.after, Path.ran, Path.site, Base.push, DsCall.position]
  · simp only [Alone.after]
    split <;> omega
  · rfl
  · intro v ended
    have ended : input.outcome = .ok v := ended
    refine ⟨repeats.1 v (by simp [Except.toOption, ended]), ?_⟩
    cases value with
    | none => exact .inl rfl
    | some u =>
      rcases repeats_committed held repeats with spends | same
      · simp [spent, ended] at spends
      · rw [ended] at same
        cases same
        exact .inr rfl
  · intro e ended
    have ended : input.outcome = .error e := ended
    cases clears : e.shouldRetryLiveTransaction with
    | true =>
      have spends : spent input (.body path.site call.id call.seq call.opts.readOnly) = true := by simp [spent, ended, clears]
      have room := room spends
      refine .inl ⟨rfl, ?_⟩
      simp only [Alone.after, spends, if_true]
      omega
    | false =>
      refine .inr ⟨rfl, ?_⟩
      cases value with
      | none => rfl
      | some u =>
        rcases repeats_committed held repeats with spends | same
        · simp [spent, ended, clears] at spends
        · rw [ended] at same
          cases same

/-- What a commit comes to. -/
theorem Held.commit {s s' : State} {v : Value} {i : Nat} {run : Run Position Statements Error Value}
    (held : Held lib serializer path call startedAtMs value s) (same : value = none ∨ value = some v)
    (storable : Storable lib serializer v) (here : (path.ran s)[i]? = some run) (ended : run.outcome = .ok v)
    (own : run.key = call.position) (flows : s'.workflows = s.workflows) (commits : path.commits s' = path.commits s ++ [i])
    (ran : path.ran s' = path.ran s)
    (checkpoint : ∀ row, s'.sys.rows.get call.position = some row →
      s.sys.rows.get call.position = some row ∨ (path ≠ .external ∧ Told lib serializer call startedAtMs v row))
    (completion : ∀ row, s'.app.rows.get call.position = some row → s.app.rows.get call.position = some row ∨
      ∃ text, serializer.encode lib v = .ok text ∧ row = ⟨some text, none, some serializer.name⟩)
    (written : call.opts.readOnly = false → (path = .external → (s'.app.rows.get call.position).isSome = true) ∧
      (path ≠ .external → (s'.sys.rows.get call.position).isSome = true)) :
    Held lib serializer path call startedAtMs (some v) s' := by
  have agree : ∀ u, value = some u → u = v := by
    intro u known
    rcases same with unknown | same
    · rw [unknown] at known
      cases known
    · rw [same] at known
      exact (Option.some.inj known).symm
  constructor
  · rw [flows]
    exact held.alive
  · intro j member
    rw [commits, List.mem_append, List.mem_singleton] at member
    rw [ran]
    rcases member with member | rfl
    · obtain ⟨run', u, there, ended', own', known⟩ := held.committed j member
      rw [agree u known] at ended'
      exact ⟨run', v, there, ended', own', rfl⟩
    · exact ⟨run, v, here, ended, own, rfl⟩
  · intro u _
    simp [commits]
  · intro u known
    cases known
    exact storable
  · intro row stored
    rcases checkpoint row stored with before | told
    · obtain ⟨inside, u, known, told⟩ := held.checkpoint row before
      rw [agree u known] at told
      exact ⟨inside, v, rfl, told⟩
    · exact ⟨told.1, v, rfl, told.2⟩
  · intro row stored
    rcases completion row stored with before | ⟨text, encodes, rfl⟩
    · obtain ⟨u, text, known, encodes, rfl⟩ := held.completion row before
      rw [agree u known] at encodes
      exact ⟨v, text, rfl, encodes, rfl⟩
    · exact ⟨v, text, rfl, encodes, rfl⟩
  · exact fun u _ writing => written writing

def Committed (lib : SerdeJson) (serializer : Serializer) (path : Path) (call : DsCall) (startedAtMs : Int) (n : Nat)
    (v : Value) (w : Alone) : Prop :=
  Held lib serializer path call startedAtMs (some v) w.state ∧ w.failures ≤ n

/-- A commit that takes effect may be reported as a failure. -/
theorem commit_goes {q : Query} {same : q.Reply = Except Error Unit} {s : State} {v : Value}
    (held : Held lib serializer path call startedAtMs value w.state) (few : w.failures ≤ n)
    (replies : ∀ input, same ▸ (answer lib serializer input q w.state).1 = input.replies (.ok ()))
    (left : ∀ input, (answer lib serializer input q w.state).2 = input.leaves w.state s)
    (plain : ∀ input, spent input q = input.fault.isSome) (held' : Held lib serializer path call startedAtMs (some v) s) :
    Goes lib serializer path call startedAtMs n (fun _ => Committed lib serializer path call startedAtMs n v) (ask q same) w := by
  intro w' unmoved r w'' served
  cases unmoved
  obtain ⟨input, fit, rfl, rfl⟩ := served
  intro w' unmoved
  cases unmoved
  rw [left]
  simp only [replies, Input.replies]
  cases fault : input.fault with
  | none =>
    constructor
    · simpa [Alone.after, Input.leaves, fault] using held'
    · simpa [Alone.after, plain, fault] using few
  | some e =>
    obtain ⟨⟨clears, room, -⟩, -⟩ := fit
    have few' : 0 < w.failures := room (by simp [plain, fault])
    refine ⟨(clears e fault).1, ?_, ?_⟩
    · simp only [Alone.after, plain, fault, Option.isSome_some, if_true]
      omega
    · cases effective : input.effective with
      | true => exact ⟨some v, by simpa [Alone.after, Input.leaves, fault, effective] using held'⟩
      | false => exact ⟨value, by simpa [Alone.after, Input.leaves, fault, effective] using held⟩

section Commits

variable {txid : Option String} {i : Nat} {v : Value}

theorem commitStep_read (inside : path ≠ .external) (reading : call.opts.readOnly = true)
    (ran : BodyRan lib serializer path call startedAtMs n value txid i (.ok v) w) :
    Goes lib serializer path call startedAtMs n (fun _ => Committed lib serializer path call startedAtMs n v)
      (ask (.commitStep i none) rfl) w := by
  obtain ⟨storable, same⟩ := ran.returned v rfl
  obtain ⟨writes, here⟩ := ran.ran
  have held : Held lib serializer path call startedAtMs (some v)
      { w.state with sys := { w.state.sys with commits := w.state.sys.commits ++ [i] } } := by
    refine ran.held.commit same storable here rfl rfl rfl ?_ ?_ ?_ ?_ ?_
    · simp [Path.commits, inside]
    · simp [Path.ran, inside]
    · exact fun row stored => .inl stored
    · exact fun row stored => .inl stored
    · intro writing
      rw [reading] at writing
      cases writing
  exact commit_goes ran.held ran.few (fun _ => rfl) (fun _ => rfl) (fun _ => rfl) held

theorem commitCompletion_read (reading : call.opts.readOnly = true)
    (ran : BodyRan lib serializer .external call startedAtMs n value txid i (.ok v) w) :
    Goes lib serializer .external call startedAtMs n (fun _ => Committed lib serializer .external call startedAtMs n v)
      (ask (.commitCompletion i none) rfl) w := by
  obtain ⟨storable, same⟩ := ran.returned v rfl
  obtain ⟨writes, here⟩ := ran.ran
  have held : Held lib serializer .external call startedAtMs (some v)
      { w.state with app := { w.state.app with commits := w.state.app.commits ++ [i] } } := by
    refine ran.held.commit same storable here rfl rfl rfl rfl rfl ?_ ?_ ?_
    · exact fun row stored => .inl stored
    · exact fun row stored => .inl stored
    · intro writing
      rw [reading] at writing
      cases writing
  exact commit_goes ran.held ran.few (fun _ => rfl) (fun _ => rfl) (fun _ => rfl) held

theorem commitStep_row {row : StepRecord} (inside : path ≠ .external)
    (ran : BodyRan lib serializer path call startedAtMs n value txid i (.ok v) w)
    (vacant : w.state.sys.rows.get call.position = none) (told : Told lib serializer call startedAtMs v row) :
    Goes lib serializer path call startedAtMs n (fun _ => Committed lib serializer path call startedAtMs n v)
      (ask (.commitStep i (some (call.position, row))) rfl) w := by
  obtain ⟨storable, same⟩ := ran.returned v rfl
  obtain ⟨writes, here⟩ := ran.ran
  have done : w.state.sys.commit i (some (call.position, row)) = some { w.state.sys with
      rows := w.state.sys.rows.put call.position row
      commits := w.state.sys.commits ++ [i]
      writer := w.state.sys.writer.put call.position i } := by
    simp [Base.commit, vacant]
  have held : Held lib serializer path call startedAtMs (some v) { w.state with sys := { w.state.sys with
      rows := w.state.sys.rows.put call.position row
      commits := w.state.sys.commits ++ [i]
      writer := w.state.sys.writer.put call.position i } } := by
    refine ran.held.commit same storable here rfl rfl rfl ?_ ?_ ?_ ?_ ?_
    · simp [Path.commits, inside]
    · simp [Path.ran, inside]
    · intro row' stored
      simp only [Table.get_put, if_true, Option.some.injEq] at stored
      subst stored
      exact .inr ⟨inside, told⟩
    · exact fun row stored => .inl stored
    · intro _
      exact ⟨fun outside => absurd outside inside, by simp⟩
  apply commit_goes ran.held ran.few _ _ (fun _ => rfl) held
  · intro input
    simp only [answer, done]
  · intro input
    simp only [answer, done]

theorem commitCompletion_row {text : String}
    (ran : BodyRan lib serializer .external call startedAtMs n value txid i (.ok v) w)
    (vacant : w.state.app.rows.get call.position = none) (encodes : serializer.encode lib v = .ok text) :
    Goes lib serializer .external call startedAtMs n (fun _ => Committed lib serializer .external call startedAtMs n v)
      (ask (.commitCompletion i (some (call.position, ⟨some text, none, some serializer.name⟩))) rfl) w := by
  obtain ⟨storable, same⟩ := ran.returned v rfl
  obtain ⟨writes, here⟩ := ran.ran
  have done : w.state.app.commit i (some (call.position, ⟨some text, none, some serializer.name⟩)) = some { w.state.app with
      rows := w.state.app.rows.put call.position ⟨some text, none, some serializer.name⟩
      commits := w.state.app.commits ++ [i]
      writer := w.state.app.writer.put call.position i } := by
    simp [Base.commit, vacant]
  have held : Held lib serializer .external call startedAtMs (some v) { w.state with app := { w.state.app with
      rows := w.state.app.rows.put call.position ⟨some text, none, some serializer.name⟩
      commits := w.state.app.commits ++ [i]
      writer := w.state.app.writer.put call.position i } } := by
    refine ran.held.commit same storable here rfl rfl rfl rfl rfl ?_ ?_ ?_
    · exact fun row stored => .inl stored
    · intro row' stored
      simp only [Table.get_put, if_true, Option.some.injEq] at stored
      exact .inr ⟨text, encodes, stored.symm⟩
    · intro _
      exact ⟨fun _ => by simp, fun inside => absurd rfl inside⟩
  apply commit_goes ran.held ran.few _ _ (fun _ => rfl) held
  · intro input
    simp only [answer, done]
  · intro input
    simp only [answer, done]

end Commits

theorem request_succeeds {q : Query} {post : q.Reply → Alone → Prop}
    (kept : ∀ input, (answer lib serializer input q w.state).2 = w.state) (few : w.failures ≤ n)
    (told : ∀ input w', Fit lib serializer path call input q w → w'.state = w.state → w'.failures ≤ n →
      post (answer lib serializer input q w.state).1 w') :
    Succeeds lib serializer path call post (request q) w := by
  intro w' unmoved r w'' served
  cases unmoved
  obtain ⟨input, fit, rfl, rfl⟩ := served
  intro w' unmoved
  cases unmoved
  rw [kept]
  refine ⟨_, rfl, told input _ fit rfl ?_⟩
  simp only [Alone.after]
  split <;> omega

theorem BodyRan.later {txid : Option String} {i : Nat} {v : Value} {w' : Alone}
    (ran : BodyRan lib serializer path call startedAtMs n value txid i (.ok v) w) (same : w'.state = w.state)
    (few : w'.failures ≤ n) : BodyRan lib serializer path call startedAtMs n value w'.txid i (.ok v) w' where
  held := same ▸ ran.held
  ran := same ▸ ran.ran
  few := few
  txid := rfl
  returned := ran.returned
  failed := fun _ never => nomatch never

/-- Where a failure is not made up for, the driver does not fail. -/
theorem Driven.faultless {input : Input} {q : Query} (driven : Driven path input q w)
    (final : Retried path w.state q = false) :
    input.fault = none := by
  cases fault : input.fault with
  | none => rfl
  | some e =>
    have retried := (driven.1 e fault).2
    rw [final] at retried
    cases retried

theorem request_final {q : Query} {post : q.Reply → Alone → Prop} (final : Retried path w.state q = false)
    (told : ∀ input, Fit lib serializer path call input q w → input.fault = none →
      post (answer lib serializer input q w.state).1 (w.after input q (answer lib serializer input q w.state).2)) :
    Succeeds lib serializer path call post (request q) w := by
  intro w' unmoved r w'' served
  cases unmoved
  obtain ⟨input, fit, rfl, rfl⟩ := served
  intro w' unmoved
  cases unmoved
  exact ⟨_, rfl, told input fit (fit.1.faultless final)⟩

theorem Storable.encodes {v : Value} (storable : Storable lib serializer v) :
    ∃ text, serializer.encode lib v = .ok text ∧ decode lib serializer (some serializer.name) text = .ok v := by
  unfold Storable at storable
  split at storable
  next text encodes => exact ⟨text, encodes, storable⟩
  · exact storable.elim

theorem Told.reads {v : Value} {row : StepRecord} (told : Told lib serializer call startedAtMs v row)
    (storable : Storable lib serializer v) : checkpointReads lib serializer row = .ok (some (.output v)) := by
  obtain ⟨text, encodes, reads⟩ := storable.encodes
  obtain ⟨text', encodes', output⟩ := told.output
  rw [encodes] at encodes'
  cases encodes'
  simp only [checkpointReads, stepOutcomeFrom, told.failure, told.format, output, reads, Except.map]

/-- The first record of a value. -/
theorem recordStepResult_first {v : Value} {now : DateTime} {executor : Option String} {db : Db}
    (storable : Storable lib serializer v) (vacant : db.operationOutputs.get call.position = none)
    (alive : ∃ row, db.workflowStatus.get call.id = some row) :
    ∃ row, Told lib serializer call startedAtMs v row ∧
      recordStepResult lib serializer now call.id call.seq call.opts.name v none (some startedAtMs) executor db =
        (.ok (.output v), refreshExecutor call.id executor
          { db with operationOutputs := db.operationOutputs.put call.position row }) := by
  obtain ⟨text, encodes, reads⟩ := storable.encodes
  obtain ⟨flow, present⟩ := alive
  have vacant : db.operationOutputs.get (call.id, call.seq) = none := vacant
  refine ⟨⟨call.opts.name, some text, none, none, some serializer.name, some startedAtMs, some now.timestampMillis⟩,
    ⟨rfl, rfl, rfl, rfl, text, encodes, rfl⟩, ?_⟩
  simp [recordStepResult, outputColumn, encodes, vacant, present, outcomeOrNull, stepOutcomeFrom, reads, Except.map,
    DsCall.position]

/-- The record of the same value once more. -/
theorem recordStepResult_again {v : Value} {now : DateTime} {executor : Option String} {db : Db} {row : StepRecord}
    (storable : Storable lib serializer v) (stored : db.operationOutputs.get call.position = some row)
    (told : Told lib serializer call startedAtMs v row) :
    recordStepResult lib serializer now call.id call.seq call.opts.name v none (some startedAtMs) executor db =
      (.ok (.output v), db) := by
  obtain ⟨text, encodes, reads⟩ := storable.encodes
  obtain ⟨text', encodes', output⟩ := told.output
  rw [encodes] at encodes'
  cases encodes'
  have stored : db.operationOutputs.get (call.id, call.seq) = some row := stored
  simp [recordStepResult, outputColumn, encodes, stored, told.name, output, told.failure, told.started, told.format,
    outcomeOrNull, stepOutcomeFrom, reads, Except.map]

end Rules

section Unapplied

variable {lib : SerdeJson} {serializer : Serializer} {path : Path} {call : DsCall} {startedAtMs : Int} {w : Alone}
  {α β : Type}

abbrev Spares (lib : SerdeJson) (serializer : Serializer) (path : Path) (call : DsCall) (act : Tx α) (w : Alone) : Prop :=
  Ends (alone lib serializer (Fit lib serializer path call)) (fun _ w => path.commits w.state = []) act w

theorem Held.uncommitted {s : State} (held : Held lib serializer path call startedAtMs none s) :
    path.commits s = [] := by
  apply List.eq_nil_iff_forall_not_mem.mpr
  intro i member
  obtain ⟨_, _, _, _, _, known⟩ := held.committed i member
  cases known

theorem Held.unrecorded {s : State} (held : Held lib serializer path call startedAtMs none s) :
    s.sys.rows.get call.position = none := by
  cases stored : s.sys.rows.get call.position with
  | none => rfl
  | some row =>
    obtain ⟨-, _, known, -⟩ := held.checkpoint row stored
    cases known

theorem idle_commits {input : Input} {q : Query} {s : State} (idle : q.idle) :
    path.commits (answer lib serializer input q s).2 = path.commits s := by
  have kept : ∀ s', path.commits s' = path.commits s → path.commits (input.leaves s s') = path.commits s := by
    intro s' same
    unfold Input.leaves
    split
    · exact same
    · rfl
  cases q with
  | now | selectStep | fetchCompletion | begin | setTransaction | fingerprint | insertStep | insertCompletion | rollback
  | workflowStatus | check | interrupt => rfl
  | body | commitStep | commitCompletion => exact idle.elim
  | insertFailedStep id seq row =>
    simp only [answer]
    cases owned s id with
    | error e => rfl
    | ok _ =>
      apply kept
      unfold Path.commits Base.insert
      split
      · rfl
      · split <;> rfl
  | insertFailure id seq row =>
    apply kept
    unfold Path.commits Base.insert
    split
    · split <;> rfl
    · rfl
  | recordStepResult => exact kept _ rfl

theorem pure_spares {a : α} (empty : path.commits w.state = []) :
    Spares lib serializer path call (pure a : Tx α) w := by
  intro w' same
  cases same
  exact empty

theorem throw_spares {e : Error} (empty : path.commits w.state = []) :
    Spares lib serializer path call (.throw e : Tx α) w := by
  intro w' same
  cases same
  exact empty

theorem Spares.then {act : Tx α} {f : α → Tx β} (first : Spares lib serializer path call act w)
    (second : ∀ a w, path.commits w.state = [] → Spares lib serializer path call (f a) w) :
    Spares lib serializer path call (act >>= f) w := by
  apply Ends.seq first
  · exact second
  · intro e w empty w' same
    cases same
    exact empty

theorem ask_spares {q : Query} {same : q.Reply = Except Error α} (idle : q.idle) (empty : path.commits w.state = []) :
    Spares lib serializer path call (ask q same) w := by
  intro w' unmoved r w'' served
  cases unmoved
  obtain ⟨input, -, -, rfl⟩ := served
  intro w' unmoved
  cases unmoved
  exact (idle_commits idle).trans empty

theorem request_spares {q : Query} (idle : q.idle) (empty : path.commits w.state = []) :
    Spares lib serializer path call (request q) w := by
  intro w' unmoved r w'' served
  cases unmoved
  obtain ⟨input, -, -, rfl⟩ := served
  intro w' unmoved
  cases unmoved
  exact (idle_commits idle).trans empty

theorem record_spares {e : Error} (empty : path.commits w.state = []) :
    Spares lib serializer path call (record e : Tx α) w := by
  unfold record
  split
  · exact (request_spares (q := .interrupt e.cause) trivial empty).then fun _ _ empty => throw_spares empty
  · exact throw_spares empty

theorem storage_spares {result : Except Error α} (empty : path.commits w.state = []) :
    Spares lib serializer path call (storage result) w := by
  cases result with
  | ok a => exact pure_spares empty
  | error e => exact record_spares empty

theorem ofExcept_spares {result : Except Error α} (empty : path.commits w.state = []) :
    Spares lib serializer path call (.ofExcept result : Tx α) w := by
  intro w' same
  cases same
  exact empty

theorem getStepResult_spares (empty : path.commits w.state = []) :
    Spares lib serializer path call (getStepResult lib serializer call) w := by
  apply (request_spares (q := .selectStep call.id call.seq) trivial empty).then
  intro found w empty
  apply (storage_spares empty).then
  intro row w empty
  cases row with
  | none => exact pure_spares empty
  | some row => exact (storage_spares empty).then fun _ _ empty => pure_spares empty

theorem checkRecorded_spares {name : String} (empty : path.commits w.state = []) :
    Spares lib serializer path call (checkRecorded call name) w := by
  unfold checkRecorded
  split
  · exact throw_spares empty
  · exact pure_spares empty

/-- Where nothing is committed there is nothing to recover. -/
theorem recovered_of_empty {result : Except Error StepOutcome} (empty : path.commits w.state = []) :
    Recovered lib serializer path call result w := by
  intro i member
  rw [empty] at member
  cases member

end Unapplied

end Durare.Transaction

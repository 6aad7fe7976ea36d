import Durare.Context
import Durare.Sqlite
import Durare.Starts

/-! Two ways to put a workflow on a queue: a client without an engine, and an engine's own start. Each builds the
row by itself; both meet a taken deduplication slot in the same way. -/
namespace Durare.Enqueue

/-- The rows differ in nothing but their application version. -/
def Alike (row other : WorkflowStatus) : Prop := { row with appVersion := other.appVersion } = other

/-- What a start uses of a state provider. An insert does not look at the version: it fails, finds a stored row or
creates one, and only what creates a row changes the store. It never wraps a taken slot into an interruption. -/
structure Backend (σ : Type) where
  insert : WorkflowStatus → σ → Except Error (WorkflowStatus × Bool) × σ
  getDeduplicated : String → String → σ → Except Error (Option String)
  getStatus : String → σ → Except Error (Option WorkflowStatus)
  failed : ∀ {row other s e}, Alike row other → (insert row s).1 = .error e → insert other s = (.error e, s)
  found : ∀ {row other s canonical}, Alike row other → (insert row s).1 = .ok (canonical, false) →
    insert other s = (.ok (canonical, false), s)
  created : ∀ {row other s canonical}, Alike row other → (insert row s).1 = .ok (canonical, true) →
    ∃ canonical', (insert other s).1 = .ok (canonical', true) ∧ canonical'.name = other.name ∧
      canonical'.className = other.className ∧ canonical'.configName = other.configName
  plain : ∀ {row s cause}, (insert row s).1 = .error (.recoveryRequired cause) → cause.code ≠ .queueDeduplicated

theorem Alike.refl (row : WorkflowStatus) : Alike row row := rfl

theorem Alike.symm {row other : WorkflowStatus} (alike : Alike row other) : Alike other row := by
  unfold Alike at *
  rw [← alike]

theorem Alike.id {row other : WorkflowStatus} (alike : Alike row other) : row.id = other.id := by rw [← alike]

theorem Alike.queueName {row other : WorkflowStatus} (alike : Alike row other) : row.queueName = other.queueName := by
  rw [← alike]

theorem Alike.dedupId {row other : WorkflowStatus} (alike : Alike row other) : row.dedupId = other.dedupId := by
  rw [← alike]

theorem Alike.input {row other : WorkflowStatus} (alike : Alike row other) : row.input = other.input := by rw [← alike]

theorem memory_conflict {row other : WorkflowStatus} (alike : Alike row other) (s : Memory.Inner) :
    Memory.dedupConflict row s = Memory.dedupConflict other s := by
  simp only [Memory.dedupConflict, alike.queueName, alike.dedupId, alike.id]

def memory : Backend Memory.Inner where
  insert := Memory.insertWorkflowStatus
  getDeduplicated queue key s := (Memory.getDeduplicatedWorkflow queue key s).1
  getStatus id s := (Memory.getWorkflowStatus id s).1
  failed {row other s e} alike fails := by
    unfold Memory.insertWorkflowStatus at *
    rw [memory_conflict alike, alike.id] at fails
    split at fails
    next queue key taken =>
      cases fails
      rfl
    · split at fails <;> cases fails
  found {row other s canonical} alike finds := by
    unfold Memory.insertWorkflowStatus at *
    rw [memory_conflict alike, alike.id] at finds
    split at finds
    · cases finds
    · split at finds
      · cases finds
        rfl
      · cases finds
  created {row other s canonical} alike creates := by
    unfold Memory.insertWorkflowStatus at *
    rw [memory_conflict alike, alike.id] at creates
    split at creates
    · cases creates
    · split at creates
      · cases creates
      · exact ⟨other, rfl, rfl, rfl, rfl⟩
  plain {row s cause} fails := by
    unfold Memory.insertWorkflowStatus at fails
    split at fails
    · cases fails
    · split at fails <;> cases fails

theorem sqlite_taken {row other : WorkflowStatus} (alike : Alike row other) (db : Sqlite.Db) :
    Sqlite.slotTaken row db = Sqlite.slotTaken other db := by
  simp only [Sqlite.slotTaken, alike.queueName, alike.dedupId]

/-- A codec does not fail with an interruption about a taken slot. -/
def PlainCodec (lib : SerdeJson) (serializer : Serializer) : Prop :=
  ∀ value cause, Sqlite.encodeInput lib serializer value = .error (.recoveryRequired cause) →
    cause.code ≠ .queueDeduplicated

def sqlite (lib : SerdeJson) (serializer : Serializer) (codec : PlainCodec lib serializer) (now : DateTime) :
    Backend Sqlite.Db where
  insert := Sqlite.insertWorkflowStatus lib serializer now
  getDeduplicated queue key db :=
    .ok ((db.workflowStatus.toList.find? fun row =>
      row.2.queueName == some queue && row.2.deduplicationId == some key).map (·.1))
  getStatus id db := .ok ((db.workflowStatus.get id).map (Sqlite.rowToStatus lib serializer now id))
  failed {row other db e} alike fails := by
    unfold Sqlite.insertWorkflowStatus Sqlite.insertStatusOn at *
    rw [sqlite_taken alike, alike.id, alike.queueName, alike.dedupId, alike.input] at fails
    cases encoded : Sqlite.encodeInput lib serializer other.input with
    | error e' => simp_all
    | ok inputs =>
      cases stored : db.workflowStatus.get other.id with
      | some record => simp [encoded, stored] at fails
      | none => by_cases taken : Sqlite.slotTaken other db = true <;> simp_all
  found {row other db canonical} alike finds := by
    unfold Sqlite.insertWorkflowStatus Sqlite.insertStatusOn at *
    rw [sqlite_taken alike, alike.id, alike.input] at finds
    cases encoded : Sqlite.encodeInput lib serializer other.input with
    | error e' => simp [encoded] at finds
    | ok inputs =>
      cases stored : db.workflowStatus.get other.id with
      | some record => simp_all
      | none => by_cases taken : Sqlite.slotTaken other db = true <;> simp [encoded, stored, taken] at finds
  created {row other db canonical} alike creates := by
    unfold Sqlite.insertWorkflowStatus Sqlite.insertStatusOn at *
    rw [sqlite_taken alike, alike.id, alike.input] at creates
    cases encoded : Sqlite.encodeInput lib serializer other.input with
    | error e' => simp [encoded] at creates
    | ok inputs =>
      cases stored : db.workflowStatus.get other.id with
      | some record => simp [encoded, stored] at creates
      | none =>
        by_cases taken : Sqlite.slotTaken other db = true
        · simp [encoded, stored, taken] at creates
        · refine ⟨Sqlite.rowToStatus lib serializer now other.id (Sqlite.statusRecord lib serializer inputs other),
            ?_, rfl,
            rfl, rfl⟩
          simp [taken]
  plain {row db cause} fails := by
    unfold Sqlite.insertWorkflowStatus Sqlite.insertStatusOn at fails
    cases encoded : Sqlite.encodeInput lib serializer row.input with
    | error e' =>
      refine codec row.input cause ?_
      simpa [encoded] using fails
    | ok inputs =>
      cases stored : db.workflowStatus.get row.id with
      | some record => simp [encoded, stored] at fails
      | none => by_cases taken : Sqlite.slotTaken row db = true <;> simp [encoded, stored, taken] at fails

def checkWorkflowTarget (row : WorkflowStatus) (name : String) (opts : WorkflowOptions) : Except Error Unit :=
  if row.name ≠ name ∨ nonEmpty row.className ≠ nonEmpty opts.className ∨
      nonEmpty row.configName ≠ nonEmpty opts.configName then
    .error (.workflowTargetConflict row.id)
  else .ok ()

section Calls
variable {σ : Type} (b : Backend σ)

def findDedupTarget (queue name : String) (opts : WorkflowOptions) (s : σ) : Except Error (Option WorkflowStatus) := do
  let key := opts.dedupId.getD ""
  let some id ← (b.getDeduplicated queue key s).mapError observationError | pure none
  let some row ← (b.getStatus id s).mapError observationError | pure none
  if row.status.isTerminal ∨ row.dedupId ≠ some key ∨ row.queueName ≠ some queue then pure none
  else
    checkWorkflowTarget row name opts
    pure (some row)

def MAX_DEDUP_ATTEMPTS : Nat := 8

def retryDedup (attempt : σ → Except Error (Option α) × σ) : Nat → σ → Except Error α × σ
  | 0, s => (.error (.observationFailed (.ofMessage "enqueue deduplication race retry limit exceeded")), s)
  | attempts + 1, s =>
    match attempt s with
    | (.error e, s') => (.error e, s')
    | (.ok (some value), s') => (.ok value, s')
    | (.ok none, s') => retryDedup attempt attempts s'

/-- A collision that `ReturnExisting` looks behind. -/
def adopts (opts : WorkflowOptions) (e : Error) : Bool :=
  opts.dedupPolicy == .returnExisting && e.code == .queueDeduplicated

structure Client where
  appVersion : String := ""
deriving DecidableEq, Repr

def Client.row (client : Client) (now : DateTime) (queue id name : String) (input : Value) (opts : WorkflowOptions) :
    WorkflowStatus :=
  { WorkflowStatus.new now id name input (if opts.delay.isSome then .delayed else .enqueued) ""
      (opts.appVersion.getD client.appVersion) with
    queueName := some queue
    priority := opts.priority
    queuePartitionKey := opts.partitionKey
    dedupId := opts.dedupId
    authenticatedUser := opts.authenticatedUser
    assumedRole := opts.assumedRole
    authenticatedRoles := opts.authenticatedRoles
    className := opts.className
    configName := opts.configName
    attributes := attributesForRow opts
    timeoutMs := opts.timeout.map Duration.asMillis
    delayUntilMs := opts.delay.map fun d => asI64 (now.timestampMillis + d.asMillis) }

def Client.attempt (queue name : String) (opts : WorkflowOptions) (row : WorkflowStatus) (s : σ) :
    Except Error (Option WorkflowStatus) × σ :=
  match b.insert row s with
  | (.ok (canonical, _), s') => ((checkWorkflowTarget canonical name opts).map fun _ => some canonical, s')
  | (.error e, s') =>
    if adopts opts e then (findDedupTarget b queue name opts s', s') else (.error (observationError e), s')

/-- `Client::enqueue`. The input is a value or the reason why it has none; `fresh` is a generated id. -/
def Client.enqueue (client : Client) (now : DateTime) (fresh queue name : String) (input : Except String Value)
    (opts : WorkflowOptions) (s : σ) : Except Error WorkflowStatus × σ :=
  if queue = "" then (.error (.ofMessage "queue name is required"), s)
  else if name = "" then (.error (.ofMessage "workflow name is required"), s)
  else
    match opts.validateDeduplication (some queue), input with
    | .error e, _ => (.error e, s)
    | .ok _, .error message => (.error (.serde message), s)
    | .ok _, .ok value =>
      let row := client.row now queue (opts.workflowId.getD fresh) name value opts
      retryDedup (Client.attempt b queue name opts row) MAX_DEDUP_ATTEMPTS s

def insertRun (rt : Runtime) (now : DateTime) (id name : String) (input : Value) (opts : WorkflowOptions)
    (auth : AuthContext) (s : σ) : Except Error (WorkflowStatus × Bool × Bool) × σ :=
  match rt.buildRun now now id name input opts none auth with
  | .error e => (.error e, s)
  | .ok (row, queued) =>
    match b.insert row s with
    | (.ok (canonical, created), s') => (.ok (canonical, queued, created), s')
    | (.error e, s') => (.error (observationError e), s')

def insertAttempt (rt : Runtime) (now : DateTime) (id name : String) (input : Value) (opts : WorkflowOptions)
    (auth : AuthContext) (s : σ) : Except Error (Option (WorkflowStatus × Bool × Bool)) × σ :=
  match insertRun b rt now id name input opts auth s with
  | (.ok run, s') => ((checkWorkflowTarget run.1 name opts).map fun _ => some run, s')
  | (.error e, s') =>
    if adopts opts e then
      ((findDedupTarget b (opts.queue.getD "") name opts s').map (·.map fun row => (row, true, false)), s')
    else (.error e, s')

/-- `DurableEngine::start` up to the handle: the canonical row, and whether this process runs it. -/
def start (rt : Runtime) (now : DateTime) (fresh name : String) (input : Except String Value) (opts : WorkflowOptions)
    (s : σ) : Except Error (WorkflowStatus × Bool) × σ :=
  -- an empty id asks for a fresh one
  let id := (nonEmpty opts.workflowId).getD fresh
  match input, opts.validateDeduplication opts.queue with
  | .error message, _ => (.error (.serde message), s)
  | .ok _, .error e => (.error e, s)
  | .ok value, .ok _ =>
    if registryKey name opts.configName ∉ rt.workflows then (.error (.unknownWorkflow name), s)
    else
      let auth : AuthContext :=
        { authenticatedUser := opts.authenticatedUser
          assumedRole := opts.assumedRole
          authenticatedRoles := opts.authenticatedRoles }
      match retryDedup (insertAttempt b rt now id name value opts auth) MAX_DEDUP_ATTEMPTS s with
      | (.error e, s') => (.error e, s')
      | (.ok (canonical, queued, created), s') =>
        (.ok (canonical, !(queued || !created || canonical.status.isTerminal)), s')

end Calls

/-- One row, but for the default version of who stores it. -/
structure SameRow (opts : WorkflowOptions) (row other : WorkflowStatus) : Prop where
  alike : Alike row other
  version : opts.appVersion.isSome → row.appVersion = other.appVersion

/-- Both fail with one code and change nothing, both find one stored workflow, or both insert one row under an id
that is not empty. The engine leaves the run to the queue. -/
inductive Agree {σ : Type} (b : Backend σ) (opts : WorkflowOptions) (s : σ) :
    Except Error WorkflowStatus × σ → Except Error (WorkflowStatus × Bool) × σ → Prop
  | failed {e e' : Error} (code : e.code = e'.code) : Agree b opts s (.error e, s) (.error e', s)
  | found {w w' : WorkflowStatus} (same : w.id = w'.id) : Agree b opts s (.ok w, s) (.ok (w', false), s)
  | inserted {row row' w w' : WorkflowStatus} {s₁ s₂ : σ} (client : b.insert row s = (.ok (w, true), s₁))
      (engine : b.insert row' s = (.ok (w', true), s₂)) (same : SameRow opts row row') (named : row.id ≠ "") :
      Agree b opts s (.ok w, s₁) (.ok (w', false), s₂)

/-- The two starts of one request agree, whatever the provider, its state, the clock and the fresh id. -/
def Agrees (client : Client) (rt : Runtime) (queue name : String) (input : Except String Value)
    (opts : WorkflowOptions) :
    Prop :=
  ∀ (σ : Type) (b : Backend σ) (s : σ) (now : DateTime) (fresh : String), fresh ≠ "" →
    Agree b opts s (client.enqueue b now fresh queue name input opts s)
      (start b rt now fresh name input { opts with queue := some queue } s)

/-- The requests that both treat alike: an input without a value comes with options that are in order, and one with
a value comes with names and no empty id, or with options that both refuse. -/
def Uniform (queue name : String) (input : Except String Value) (opts : WorkflowOptions) : Prop :=
  match input with
  | .error _ => queue ≠ "" ∧ name ≠ "" ∧ opts.validateDeduplication (some queue) = .ok ()
  | .ok _ => opts.validateDeduplication (some queue) = .ok () → queue ≠ "" ∧ name ≠ "" ∧ opts.workflowId ≠ some ""

theorem code_observationError {e : Error} (plain : ∀ cause, e ≠ .recoveryRequired cause) :
    (observationError e).code = e.code := by
  unfold observationError
  split
  · rfl
  next cause => exact absurd rfl (plain cause)
  · split <;> rfl

/-- The client looks for a collision in the error as the provider gives it, the engine in what it makes of it. -/
theorem adopts_observationError {σ : Type} (b : Backend σ) {row : WorkflowStatus} {s : σ} {e : Error}
    (fails : (b.insert row s).1 = .error e) (opts : WorkflowOptions) :
    adopts opts (observationError e) = adopts opts e := by
  unfold adopts
  by_cases interrupted : ∃ cause, e = .recoveryRequired cause
  · obtain ⟨cause, rfl⟩ := interrupted
    have other := b.plain fails
    have unwrapped : (observationError (.recoveryRequired cause)).code = cause.code := rfl
    have wrapped : (Error.recoveryRequired cause).code = .recoveryRequired := rfl
    rw [unwrapped, wrapped, beq_eq_false_iff_ne.mpr other]
    rfl
  · rw [code_observationError fun cause same => interrupted ⟨cause, same⟩]

theorem code_validateDeduplication {opts : WorkflowOptions} {queue : Option String} {e : Error}
    (refused : opts.validateDeduplication queue = .error e) : e.code = .application := by
  unfold WorkflowOptions.validateDeduplication at refused
  split at refused
  · cases refused
    rfl
  split at refused
  · cases refused
    rfl
  split at refused
  · cases refused
    rfl
  · cases refused

theorem checkWorkflowTarget_own {row : WorkflowStatus} {name : String} {opts : WorkflowOptions}
    (named : row.name = name)
    (class_ : row.className = opts.className) (config : row.configName = opts.configName) :
    checkWorkflowTarget row name opts = .ok () := by
  simp [checkWorkflowTarget, named, class_, config]

def queuedRow (rt : Runtime) (now : DateTime) (queue id name : String) (input : Value) (opts : WorkflowOptions) :
    WorkflowStatus :=
  ({ appVersion := rt.appVersion } : Client).row now queue id name input opts

theorem row_alike (client : Client) (rt : Runtime) (now : DateTime) (queue id name : String) (input : Value)
    (opts : WorkflowOptions) :
    SameRow opts (client.row now queue id name input opts) (queuedRow rt now queue id name input opts) := by
  refine ⟨rfl, fun given => ?_⟩
  obtain ⟨version, same⟩ := Option.isSome_iff_exists.mp given
  simp [queuedRow, Client.row, WorkflowStatus.new, same]

theorem buildRun_queued {rt : Runtime} {opts : WorkflowOptions} {queue : String} (known : queue ∈ rt.queues)
    (valid : opts.validateDeduplication (some queue) = .ok ()) (now : DateTime) (id name : String) (input : Value) :
    rt.buildRun now now id name input { opts with queue := some queue } none
        { authenticatedUser := opts.authenticatedUser
          assumedRole := opts.assumedRole
          authenticatedRoles := opts.authenticatedRoles } =
      .ok (queuedRow rt now queue id name input opts, true) := by
  have valid' : ({ opts with queue := some queue } : WorkflowOptions).validateDeduplication (some queue) = .ok () :=
    valid
  simp only [Runtime.buildRun, bind, Except.bind, valid', Option.any_some, known, not_true, decide_false,
    Bool.false_eq_true, if_false, Option.isSome_some, Bool.not_true, and_false, pure, Except.pure]
  cases delay : opts.delay <;> simp [queuedRow, Client.row, WorkflowStatus.new, attributesForRow, delay]

section Attempts

variable {σ : Type} {b : Backend σ} {client : Client} {rt : Runtime} {now : DateTime} {queue id name : String}
    {input : Value}
  {opts : WorkflowOptions} {s : σ}

/-- One attempt of the client beside one of the engine. -/
inductive Attempts (b : Backend σ) (opts : WorkflowOptions) (s : σ) (id : String) :
    Except Error (Option WorkflowStatus) × σ → Except Error (Option (WorkflowStatus × Bool × Bool)) × σ → Prop
  | failed (e : Error) : Attempts b opts s id (.error e, s) (.error e, s)
  | raced : Attempts b opts s id (.ok none, s) (.ok none, s)
  | found (w : WorkflowStatus) : Attempts b opts s id (.ok (some w), s) (.ok (some (w, true, false)), s)
  | inserted {row row' w w' : WorkflowStatus} {s₁ s₂ : σ} (client : b.insert row s = (.ok (w, true), s₁))
      (engine : b.insert row' s = (.ok (w', true), s₂)) (same : SameRow opts row row') (own : row.id = id) :
      Attempts b opts s id (.ok (some w), s₁) (.ok (some (w', true, true)), s₂)

/-- `start` of the handle from what the deduplicated insert gives. -/
def handled (result : Except Error (WorkflowStatus × Bool × Bool) × σ) : Except Error (WorkflowStatus × Bool) × σ :=
  match result with
  | (.error e, s') => (.error e, s')
  | (.ok (canonical, queued, created), s') =>
    (.ok (canonical, !(queued || !created || canonical.status.isTerminal)), s')

theorem attempts (known : queue ∈ rt.queues) (valid : opts.validateDeduplication (some queue) = .ok ()) :
    Attempts b opts s id
      (Client.attempt b queue name opts (client.row now queue id name input opts) s)
      (insertAttempt b rt now id name input { opts with queue := some queue }
        { authenticatedUser := opts.authenticatedUser
          assumedRole := opts.assumedRole
          authenticatedRoles := opts.authenticatedRoles } s) := by
  have built := buildRun_queued known valid now id name input
  have same := row_alike client rt now queue id name input opts
  unfold Client.attempt insertAttempt insertRun
  simp only [built]
  generalize mine : client.row now queue id name input opts = row at same
  generalize theirs : queuedRow rt now queue id name input opts = row' at same
  rcases inserted : b.insert row s with ⟨e | ⟨w, _ | _⟩, s₁⟩
  · have fails : (b.insert row s).1 = .error e := by rw [inserted]
    have own := b.failed (.refl row) fails
    have other := b.failed same.alike fails
    rw [inserted] at own
    cases own
    rw [other]
    have adopted : adopts { opts with queue := some queue } (observationError e) = adopts opts e :=
      adopts_observationError b fails opts
    have finder : findDedupTarget b (({ opts with queue := some queue } : WorkflowOptions).queue.getD "") name
        { opts with queue := some queue } s = findDedupTarget b queue name opts s := rfl
    dsimp only
    rw [adopted, finder]
    by_cases collides : adopts opts e = true
    · rw [if_pos collides, if_pos collides]
      rcases findDedupTarget b queue name opts s with e' | _ | w
      · exact .failed e'
      · exact .raced
      · exact .found w
    · rw [if_neg collides, if_neg collides]
      exact .failed _
  · have finds : (b.insert row s).1 = .ok (w, false) := by rw [inserted]
    have own := b.found (.refl row) finds
    have other := b.found same.alike finds
    rw [inserted] at own
    cases own
    have target : checkWorkflowTarget w name { opts with queue := some queue } = checkWorkflowTarget w name opts := rfl
    rw [other]
    dsimp only
    rw [target]
    rcases checkWorkflowTarget w name opts with e | _
    · exact .failed e
    · exact .found w
  · have creates : (b.insert row s).1 = .ok (w, true) := by rw [inserted]
    obtain ⟨c, own, named, class_, config⟩ := b.created (.refl row) creates
    obtain ⟨c', other, named', class', config'⟩ := b.created same.alike creates
    rw [inserted] at own
    cases own
    rcases inserted' : b.insert row' s with ⟨answer, s₂⟩
    rw [inserted'] at other
    cases other
    subst mine theirs
    have target : checkWorkflowTarget w name opts = .ok () := checkWorkflowTarget_own named class_ config
    have target' : checkWorkflowTarget c' name { opts with queue := some queue } = .ok () :=
      checkWorkflowTarget_own named' class' config'
    dsimp only
    rw [target, target']
    exact .inserted inserted inserted' same rfl

/-- The repeated attempts meet the same store, so all of them come out alike. -/
theorem retries {mine : σ → Except Error (Option WorkflowStatus) × σ}
    {theirs : σ → Except Error (Option (WorkflowStatus × Bool × Bool)) × σ}
    (beside : Attempts b opts s id (mine s) (theirs s)) (named : id ≠ "") (n : Nat) :
    Agree b opts s (retryDedup mine n s) (handled (retryDedup theirs n s)) := by
  induction n with
  | zero => exact .failed rfl
  | succ n ih =>
    unfold retryDedup
    generalize first : mine s = mine' at beside
    generalize second : theirs s = theirs' at beside
    cases beside with
    | failed e => exact .failed rfl
    | raced => exact ih
    | found w => exact .found rfl
    | inserted client engine same own => exact .inserted client engine same (own ▸ named)

end Attempts

section Necessity

variable {client : Client} {rt : Runtime} {queue name : String} {input : Except String Value} {opts : WorkflowOptions}

/-- The prechecks in the order of the client. -/
theorem enqueue_valid {σ : Type} {b : Backend σ} {now : DateTime} {fresh : String} {s : σ} {value : Value}
    (named : queue ≠ "" ∧ name ≠ "") (valid : opts.validateDeduplication (some queue) = .ok ()) :
    client.enqueue b now fresh queue name (.ok value) opts s =
      retryDedup (Client.attempt b queue name opts (client.row now queue (opts.workflowId.getD fresh) name value opts))
        MAX_DEDUP_ATTEMPTS s := by
  simp only [Client.enqueue, if_neg named.1, if_neg named.2, valid]

theorem start_valid {σ : Type} {b : Backend σ} {now : DateTime} {fresh : String} {s : σ} {value : Value}
    (registered : registryKey name opts.configName ∈ rt.workflows)
    (valid : opts.validateDeduplication (some queue) = .ok ()) :
    start b rt now fresh name (.ok value) { opts with queue := some queue } s =
      handled (retryDedup (insertAttempt b rt now ((nonEmpty opts.workflowId).getD fresh) name value
        { opts with queue := some queue }
        { authenticatedUser := opts.authenticatedUser
          assumedRole := opts.assumedRole
          authenticatedRoles := opts.authenticatedRoles }) MAX_DEDUP_ATTEMPTS s) := by
  have valid' : ({ opts with queue := some queue } : WorkflowOptions).validateDeduplication (some queue) = .ok () :=
    valid
  have registered' : ¬ registryKey name opts.configName ∉ rt.workflows := not_not.mpr registered
  simp only [start, valid', if_neg registered', handled]

theorem enqueue_no_queue {σ : Type} {b : Backend σ} {now : DateTime} {fresh : String} {s : σ} (empty : queue = "") :
    client.enqueue b now fresh queue name input opts s = (.error (.ofMessage "queue name is required"), s) := by
  simp only [Client.enqueue, if_pos empty]

theorem enqueue_no_name {σ : Type} {b : Backend σ} {now : DateTime} {fresh : String} {s : σ} (queued : queue ≠ "")
    (empty : name = "") :
    client.enqueue b now fresh queue name input opts s = (.error (.ofMessage "workflow name is required"), s) := by
  simp only [Client.enqueue, if_neg queued, if_pos empty]

theorem agrees_of_uniform (registered : registryKey name opts.configName ∈ rt.workflows) (known : queue ∈ rt.queues)
    (uniform : Uniform queue name input opts) : Agrees client rt queue name input opts := by
  intro σ b s now fresh generated
  cases input with
  | error message =>
    obtain ⟨queued, named, valid⟩ := uniform
    have mine : client.enqueue b now fresh queue name (.error message) opts s = (.error (.serde message), s) := by
      simp only [Client.enqueue, if_neg queued, if_neg named, valid]
    rw [mine]
    exact .failed rfl
  | ok value =>
    cases checked : opts.validateDeduplication (some queue) with
    | error e =>
      have checked' : ({ opts with queue := some queue } : WorkflowOptions).validateDeduplication (some queue) =
          .error e :=
        checked
      have theirs : start b rt now fresh name (.ok value) { opts with queue := some queue } s = (.error e, s) := by
        simp only [start, checked']
      have mine : ∃ e', e'.code = .application ∧ client.enqueue b now fresh queue name (.ok value) opts s =
          (.error e', s) := by
        unfold Client.enqueue
        split
        · exact ⟨_, rfl, rfl⟩
        split
        · exact ⟨_, rfl, rfl⟩
        · exact ⟨e, code_validateDeduplication checked, by simp only [checked]⟩
      obtain ⟨e', code, mine⟩ := mine
      rw [mine, theirs]
      exact .failed (code.trans (code_validateDeduplication checked).symm)
    | ok _ =>
      obtain ⟨queued, named, given⟩ := uniform checked
      have same : (nonEmpty opts.workflowId).getD fresh = opts.workflowId.getD fresh := by
        cases asked : opts.workflowId with
        | none => rfl
        | some id =>
          have filled : id ≠ "" := fun empty => given (by rw [asked, empty])
          simp [nonEmpty, Option.filter, filled]
      have kept : opts.workflowId.getD fresh ≠ "" := by
        cases asked : opts.workflowId with
        | none => exact generated
        | some id => exact fun empty => given (by rw [asked, ← empty]; rfl)
      rw [enqueue_valid ⟨queued, named⟩ checked, start_valid registered checked, same]
      exact retries (attempts known checked) kept MAX_DEDUP_ATTEMPTS

/-- On an empty store a row is created. -/
theorem insert_new (row : WorkflowStatus) :
    memory.insert row Memory.Inner.new = (.ok (row, true), Memory.Inner.new.putRow row.id row) := by
  have free : Memory.dedupConflict row Memory.Inner.new = none := by
    unfold Memory.dedupConflict
    split <;> rfl
  simp only [memory, Memory.insertWorkflowStatus, free]
  rfl

theorem enqueue_new {value : Value} (named : queue ≠ "" ∧ name ≠ "")
    (valid : opts.validateDeduplication (some queue) = .ok ()) (fresh : String) :
    let row := client.row 0 queue (opts.workflowId.getD fresh) name value opts
    client.enqueue memory 0 fresh queue name (.ok value) opts Memory.Inner.new =
      (.ok row, Memory.Inner.new.putRow row.id row) := by
  intro row
  rw [enqueue_valid named valid, MAX_DEDUP_ATTEMPTS, retryDedup, Client.attempt, insert_new]
  have target : checkWorkflowTarget row name opts = .ok () := checkWorkflowTarget_own rfl rfl rfl
  simp only [target, row, Except.map]

theorem start_new {value : Value} (registered : registryKey name opts.configName ∈ rt.workflows)
    (known : queue ∈ rt.queues)
    (valid : opts.validateDeduplication (some queue) = .ok ()) (fresh : String) :
    ∃ row s, start memory rt 0 fresh name (.ok value) { opts with queue := some queue } Memory.Inner.new =
      (.ok (row, false), s) := by
  rw [start_valid registered valid, MAX_DEDUP_ATTEMPTS, retryDedup, insertAttempt, insertRun,
    buildRun_queued known valid]
  simp only [insert_new]
  have target : checkWorkflowTarget (queuedRow rt 0 queue ((nonEmpty opts.workflowId).getD fresh) name value opts) name
      { opts with queue := some queue } = .ok () := checkWorkflowTarget_own rfl rfl rfl
  simp only [target, Except.map]
  exact ⟨_, _, rfl⟩

theorem uniform_of_agrees (registered : registryKey name opts.configName ∈ rt.workflows) (known : queue ∈ rt.queues)
    (agrees : Agrees client rt queue name input opts) : Uniform queue name input opts := by
  have met := agrees _ memory Memory.Inner.new 0 "fresh" (by decide)
  cases input with
  | error message =>
    have theirs : start memory rt 0 "fresh" name (.error message) { opts with queue := some queue } Memory.Inner.new =
        (.error (.serde message), Memory.Inner.new) := rfl
    rw [theirs] at met
    have refused {e : Error} (mine : client.enqueue memory 0 "fresh" queue name (.error message) opts Memory.Inner.new =
        (.error e, Memory.Inner.new)) : e.code ≠ .application := by
      rw [mine] at met
      cases met with
      | failed code =>
        rw [code]
        exact ErrorCode.noConfusion
    have queued : queue ≠ "" := fun empty =>
      refused (enqueue_no_queue empty) rfl
    have named : name ≠ "" := fun empty =>
      refused (enqueue_no_name queued empty) rfl
    refine ⟨queued, named, ?_⟩
    cases checked : opts.validateDeduplication (some queue) with
    | ok _ => rfl
    | error e =>
      have mine : client.enqueue memory 0 "fresh" queue name (.error message) opts Memory.Inner.new =
          (.error e, Memory.Inner.new) := by
        simp only [Client.enqueue, if_neg queued, if_neg named, checked]
      exact absurd (code_validateDeduplication checked) (refused mine)
  | ok value =>
    intro valid
    obtain ⟨row, s, theirs⟩ := @start_new rt queue name opts value registered known valid "fresh"
    have accepted {e : Error} : client.enqueue memory 0 "fresh" queue name (.ok value) opts Memory.Inner.new ≠
        (.error e, Memory.Inner.new) := by
      intro mine
      rw [mine, theirs] at met
      cases met
    have queued : queue ≠ "" := fun empty => accepted (enqueue_no_queue empty)
    have named : name ≠ "" := fun empty => accepted (enqueue_no_name queued empty)
    refine ⟨queued, named, fun empty => ?_⟩
    -- the client stores the row under the empty id
    have mine := @enqueue_new client queue name opts value ⟨queued, named⟩ valid "fresh"
    have own : (client.row 0 queue (opts.workflowId.getD "fresh") name value opts).id = "" := by
      rw [empty]
      rfl
    rw [mine, theirs, own] at met
    generalize put : Memory.Inner.new.putRow "" (client.row 0 queue (opts.workflowId.getD "fresh") name value opts) =
      s₁ at met
    have stored : (s₁.workflows.get "").isSome = true := by
      rw [← put]
      simp [Memory.Inner.putRow]
    cases met with
    | found same => simp [Memory.Inner.new] at stored
    | inserted client engine same named =>
      rw [insert_new] at client
      cases client
      simp [Memory.Inner.putRow, Memory.Inner.new, Ne.symm named] at stored

end Necessity

/-- A request enqueued by a client and one started by an engine with its queue set agree, for every provider, state,
clock reading and fresh id, exactly when it is `Uniform`. -/
theorem agrees_iff (client : Client) (rt : Runtime) (queue name : String) (input : Except String Value)
    (opts : WorkflowOptions) (registered : registryKey name opts.configName ∈ rt.workflows)
    (known : queue ∈ rt.queues) :
    Agrees client rt queue name input opts ↔ Uniform queue name input opts :=
  ⟨uniform_of_agrees registered known, agrees_of_uniform registered known⟩

def biller : Runtime :=
  { executorId := "local"
    appVersion := "1"
    workflows := ["bill"]
    queues := ["invoices"] }

/-- A request with a slot that joins what holds it. -/
theorem deduplicated_agrees :
    let opts : WorkflowOptions := { dedupId := some "customer", dedupPolicy := .returnExisting }
    registryKey "bill" opts.configName ∈ biller.workflows ∧ "invoices" ∈ biller.queues ∧
      (Agrees {} biller "invoices" "bill" (.ok .null) opts ↔ Uniform "invoices" "bill" (.ok .null) opts) ∧
      Uniform "invoices" "bill" (.ok .null) opts :=
  ⟨by decide, by decide, agrees_iff _ _ _ _ _ _ (by decide) (by decide), fun _ => by decide⟩

/-- Asked for an empty id, the client stores the row under it, the engine under a fresh one. -/
theorem empty_id_differs :
    ¬ Agrees {} biller "invoices" "bill" (.ok .null) { workflowId := some "" } := by
  intro agrees
  have uniform := uniform_of_agrees (by decide) (by decide) agrees
  exact (uniform (by decide)).2.2 rfl

end Durare.Enqueue

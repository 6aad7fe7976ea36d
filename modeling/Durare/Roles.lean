import Durare.Latch
import Durare.Ownership

/-! Required roles: an engine built from a list of registrations, every path by which a row reaches
execution, and the gate before the body. Handlers are found by a key joined from two names, the
roles they require by the first of them. -/
namespace Durare.Roles

open Memory Ownership

def DEBOUNCER_WF : String := "_dbos_debouncer"

/-- What a caller registers a handler as: a workflow, or one of its configured instances. -/
structure Registration where
  name : String
  configName : Option String
deriving DecidableEq, Repr

def Registration.key (reg : Registration) : String := registryKey reg.name reg.configName

section Engines

variable {H : Type}

structure DurableEngineBuilder (H : Type) where
  workflows : List (String × H) := []
  queues : List String := []
  listenFilter : Option (List String) := none
  maxRecoveryAttempts : Int := 100
  requiredRoles : Table String (List String) := ∅

/-- The calls on a builder that this model follows. -/
inductive BuilderCall (H : Type) where
  | register (name : String) (f : H)
  | registerConfigured (name configName : String) (f : H)
  | registerQueue (name : String)
  | requireRoles (name : String) (roles : List String)

def DurableEngineBuilder.apply (b : DurableEngineBuilder H) : BuilderCall H → DurableEngineBuilder H
  | .register name f => { b with workflows := b.workflows ++ [(name, f)] }
  | .registerConfigured name configName f =>
    { b with workflows := b.workflows ++ [(registryKey name (some configName), f)] }
  | .registerQueue name => { b with queues := b.queues ++ [name] }
  | .requireRoles name roles => { b with requiredRoles := b.requiredRoles.put name roles }

def builder (calls : List (BuilderCall H)) : DurableEngineBuilder H := calls.foldl .apply {}

structure DurableEngine (H : Type) where
  workflows : Table String H
  requiredRoles : Table String (List String)
  rt : Runtime

def insertAll {ν : Type} (t : Table String ν) : List (String × ν) → Except Error (Table String ν)
  | [] => .ok t
  | (key, v) :: rest =>
    match t.get key with
    | some _ => .error (.conflictingRegistration key)
    | none => insertAll (t.put key v) rest

/-- A declaration must name a workflow that is registered, by itself or as an instance. -/
def declares (workflows : Table String H) (name : String) : Bool :=
  (workflows.get name).isSome ||
    workflows.toList.any fun entry => (name ++ "/").toList.isPrefixOf entry.1.toList

/-- `DurableEngineBuilder::build`: `auto` are the workflows collected from the binary. -/
def DurableEngineBuilder.build (b : DurableEngineBuilder H) (executorId appVersion : String) (debouncer : H)
    (auto : List (String × H)) : Except Error (DurableEngine H) := do
  let workflows ← insertAll ∅ ((DEBOUNCER_WF, debouncer) :: auto ++ b.workflows)
  if let some (name, _) := b.requiredRoles.toList.find? fun entry => !declares workflows entry.1 then
    throw (.unknownWorkflow name)
  let queues ← insertAll ∅ ((INTERNAL_QUEUE :: b.queues).map fun name => (name, ()))
  pure
    { workflows := workflows
      requiredRoles := b.requiredRoles
      rt :=
        { executorId := executorId
          appVersion := appVersion
          workflows := workflows.toList.map (·.1)
          queues := queues.toList.map (·.1)
          listenFilter := b.listenFilter
          maxRecoveryAttempts := b.maxRecoveryAttempts } }

def BuilderCall.registration : BuilderCall H → Option (Registration × H)
  | .register name f => some (⟨name, none⟩, f)
  | .registerConfigured name configName f => some (⟨name, some configName⟩, f)
  | .registerQueue _ | .requireRoles _ _ => none

def registered (debouncer : H) (auto : List (String × H)) (calls : List (BuilderCall H)) : List (Registration × H) :=
  (⟨DEBOUNCER_WF, none⟩, debouncer) :: auto.map (fun entry => (⟨entry.1, none⟩, entry.2)) ++
    calls.filterMap BuilderCall.registration

def fromStatus (row : WorkflowStatus) : AuthContext :=
  ⟨row.authenticatedUser, row.assumedRole, row.authenticatedRoles⟩

/-- The gate of `run_to_completion`: the body starts when there is no denial. -/
def denial (engine : DurableEngine H) (record : WorkflowStatus) : Option Error :=
  match engine.requiredRoles.get record.name with
  | some required =>
    match Latch.checkRequiredRoles record.name required (fromStatus record) with
    | .ok _ => none
    | .error e => some e
  | none => none

/-- A handler handed to `run_to_completion` with the row it runs. -/
structure Launch (H : Type) where
  handler : H
  record : WorkflowStatus

/-- The store, the rows a dispatcher has claimed or a sweep has listed and not yet dealt with, and
every launch so far. -/
structure System (H : Type) where
  store : Inner
  claimed : List WorkflowStatus
  listed : List WorkflowStatus
  launches : List (Launch H)

def System.new : System H := ⟨Inner.new, [], [], []⟩

/-- The paths to execution, step by step, and any other provider call. -/
inductive Event where
  | start (created : DateTime) (id name : String) (input : Value) (opts : WorkflowOptions)
  | startChild (created : DateTime) (id name : String) (input : Value) (opts : WorkflowOptions) (auth : AuthContext)
      (parent : String) (seq : Int)
  | tick (created : DateTime) (scheduleName workflowName : String) (queueName : Option String) (instant : String)
      (input : Value)
  | dequeue (req : DequeueRequest)
  | dispatch (place : Nat)
  | sweep (record : WorkflowStatus)
  | recover (place : Nat)
  | settle (place : Nat) (disposition : RecoveryDisposition)
  | call (call : Call)

/-- Only the caller whose insert created a direct run launches it. -/
def launchCreated (handler : Option H) (canonical : WorkflowStatus) (queued isNew : Bool) : List (Launch H) :=
  if queued || !isNew || canonical.status.isTerminal then [] else (handler.map fun h => ⟨h, canonical⟩).toList

def identity (opts : WorkflowOptions) : AuthContext :=
  ⟨opts.authenticatedUser, opts.assumedRole, opts.authenticatedRoles⟩

variable (engine : DurableEngine H)

/-- `rt.workflows.get(&registry_key(..))`. -/
def DurableEngine.handler (name : String) (configName : Option String) : Option H :=
  engine.workflows.get (registryKey name configName)

def claim (now : DateTime) (record : WorkflowStatus) (maxAttempts : Int) (handler : Option H) (sys : System H) :
    System H :=
  let (answer, store) := claimForRecovery now (recoveryRequest engine.rt record maxAttempts) sys.store
  match answer with
  | .ok (.claimed attempts) =>
    let record := { record with executorId := engine.rt.executorId, recoveryAttempts := attempts }
    { sys with store := store, launches := sys.launches ++ (handler.map fun h => ⟨h, record⟩).toList }
  | _ => { sys with store := store }

def next (lib : SerdeJson) (sys : System H) (event : DateTime × Event) : System H :=
  match event.2 with
  | .start created id name input opts =>
    match engine.handler name opts.configName with
    | none => sys
    | some handler =>
      match engine.rt.buildRun event.1 created id name input opts none (identity opts) with
      | .error _ => sys
      | .ok (row, queued) =>
        -- A start that meets a stored id or a taken slot observes and launches nothing.
        let (answer, store) := insertWorkflowStatus row sys.store
        match answer with
        | .ok (canonical, isNew) =>
          { sys with store := store, launches := sys.launches ++ launchCreated (some handler) canonical queued isNew }
        | .error _ => { sys with store := store }
  | .startChild created id name input opts auth parent seq =>
    match Runtime.validateChildArguments name opts, engine.rt.validateChildConfiguration name opts,
        engine.rt.buildRun event.1 created id name input opts (some parent) auth with
    | .ok _, .ok _, .ok (row, queued) =>
      let (answer, store) := insertChildWorkflow row parent seq (opts.dedupPolicy = .returnExisting) sys.store
      match answer with
      | .ok (some (.resolved canonical isNew)) =>
        { sys with
          store := store
          launches := sys.launches ++ launchCreated (engine.handler name opts.configName) canonical queued isNew }
      | _ => { sys with store := store }
    | _, _, _ => sys
  | .tick created scheduleName workflowName queueName instant input =>
    let id := s!"sched-{scheduleName}-{instant}"
    match engine.rt.buildRun event.1 created id workflowName input { workflowId := some id, queue := queueName } none {} with
    | .error _ => sys
    | .ok (row, queued) =>
      let (answer, store) := insertWorkflowStatus row sys.store
      match answer with
      | .ok (canonical, isNew) =>
        { sys with
          store := store
          launches := sys.launches ++ launchCreated (engine.workflows.get workflowName) canonical queued isNew }
      | .error _ => { sys with store := store }
  | .dequeue req =>
    let (answer, store) := dequeueWorkflows event.1 req sys.store
    { sys with store := store, claimed := sys.claimed ++ answer.toOption.getD [] }
  | .dispatch place =>
    match sys.claimed[place]? with
    | none => sys
    | some record =>
      match engine.handler record.name record.configName with
      | some handler =>
        { sys with claimed := sys.claimed.eraseIdx place, launches := sys.launches ++ [⟨handler, record⟩] }
      | none =>
        { sys with
          store := (setWorkflowStatus lib event.1 record.id .enqueued none none sys.store).2
          claimed := sys.claimed.eraseIdx place }
  | .sweep record =>
    if sys.store.workflows.get record.id = some record ∧ record.status = .pending then
      { sys with listed := sys.listed ++ [record] }
    else sys
  | .recover place =>
    match sys.listed[place]? with
    | none => sys
    | some record =>
      -- A queued row goes back to its queue, whoever has its handler.
      if record.queueName.isSome then claim engine event.1 record engine.rt.maxRecoveryAttempts none sys
      else match engine.handler record.name record.configName with
        | some handler => claim engine event.1 record engine.rt.maxRecoveryAttempts (some handler) sys
        | none => sys
  | .settle place disposition =>
    match sys.launches[place]? with
    | none => sys
    | some launch =>
      claim engine event.1 launch.record (settlementCap engine.rt launch.record disposition) (some launch.handler) sys
  | .call call => { sys with store := step lib sys.store (event.1, call) }

abbrev run (lib : SerdeJson) (events : List (DateTime × Event)) : System H :=
  Runs.run (next engine lib) events System.new

/-- A body that starts for a handler of a workflow with required roles runs for a row that holds one
of them. -/
def Enforced (entries : List (Registration × H)) (launch : Launch H) : Prop :=
  ∀ reg, (reg, launch.handler) ∈ entries → reg.key = registryKey launch.record.name launch.record.configName →
    ∀ roles, engine.requiredRoles.get reg.name = some roles → denial engine launch.record = none →
      ∃ role ∈ roles, role ∈ launch.record.authenticatedRoles

/-- However the key of a handler is read as a pair of names, the first of them requires roles
that the workflow of the handler accepts. -/
def Unambiguous (entries : List (Registration × H)) : Prop :=
  ∀ entry ∈ entries, ∀ roles, engine.requiredRoles.get entry.1.name = some roles →
    ∀ name configName, registryKey name configName = entry.1.key →
      ∃ own, engine.requiredRoles.get name = some own ∧ ∀ role ∈ own, role ∈ roles

theorem insertAll_ok {ν : Type} {t t' : Table String ν} {entries : List (String × ν)}
    (inserted : insertAll t entries = .ok t') :
    (entries.map (·.1)).Nodup ∧ (∀ entry ∈ entries, t.get entry.1 = none) ∧
      ∀ key v, t'.get key = some v ↔ t.get key = some v ∨ (key, v) ∈ entries := by
  induction entries generalizing t with
  | nil =>
    cases inserted
    exact ⟨List.nodup_nil, by simp, by simp⟩
  | cons entry rest ih =>
    obtain ⟨key, v⟩ := entry
    rw [insertAll] at inserted
    split at inserted
    · cases inserted
    next vacant =>
    obtain ⟨distinct, absent, holds⟩ := ih inserted
    have apart : ∀ other ∈ rest, other.1 ≠ key := by
      intro other member same
      have none := absent other member
      simp [same] at none
    refine ⟨?_, ?_, ?_⟩
    · simp only [List.map_cons, List.nodup_cons, List.mem_map, not_exists, not_and]
      exact ⟨apart, distinct⟩
    · intro other member
      rcases List.mem_cons.mp member with rfl | later
      · exact vacant
      · have none := absent other later
        rwa [Table.get_put, if_neg (apart other later)] at none
    · intro key' v'
      rw [holds, Table.get_put, List.mem_cons]
      by_cases same : key' = key
      · subst same
        have none : (key', v') ∉ rest := fun member => apart _ member rfl
        simp [vacant, none, eq_comm]
      · simp [same]

/-- The handlers a builder holds are the explicitly registered ones under their keys. -/
theorem apply_workflows (calls : List (BuilderCall H)) (b : DurableEngineBuilder H) :
    (calls.foldl .apply b).workflows =
      b.workflows ++ (calls.filterMap BuilderCall.registration).map fun entry => (entry.1.key, entry.2) := by
  induction calls generalizing b with
  | nil => simp
  | cons call calls ih =>
    rw [List.foldl_cons, ih]
    cases call with
    | register name f => simp [DurableEngineBuilder.apply, BuilderCall.registration, Registration.key, registryKey, nonEmpty]
    | registerConfigured name configName f =>
      simp [DurableEngineBuilder.apply, BuilderCall.registration, Registration.key]
    | registerQueue name => simp [DurableEngineBuilder.apply, List.filterMap_cons, BuilderCall.registration]
    | requireRoles name roles => simp [DurableEngineBuilder.apply, List.filterMap_cons, BuilderCall.registration]

variable {engine : DurableEngine H} {executorId appVersion : String} {debouncer : H} {auto : List (String × H)}
  {calls : List (BuilderCall H)}

/-- An engine's handlers are those registered, each under a key of its own. -/
theorem build_ok (built : (builder calls).build executorId appVersion debouncer auto = .ok engine) :
    ((registered debouncer auto calls).map (·.1.key)).Nodup ∧
      ∀ key h, engine.workflows.get key = some h ↔
        ∃ reg, (reg, h) ∈ registered debouncer auto calls ∧ reg.key = key := by
  simp only [DurableEngineBuilder.build, bind, Except.bind] at built
  split at built
  · cases built
  next workflows inserted =>
  have holds : engine.workflows = workflows := by
    split at built
    · cases built
    · split at built
      · cases built
      · cases built
        rfl
  have entries : (DEBOUNCER_WF, debouncer) :: auto ++ (builder calls).workflows =
      (registered debouncer auto calls).map fun entry => (entry.1.key, entry.2) := by
    rw [builder, apply_workflows]
    simp [registered, Registration.key, registryKey, nonEmpty, Function.comp_def]
  rw [entries] at inserted
  obtain ⟨distinct, -, stored⟩ := insertAll_ok inserted
  refine ⟨by simpa [Function.comp_def] using distinct, ?_⟩
  intro key h
  rw [holds, stored]
  simp only [Table.get_empty, reduceCtorEq, false_or, List.mem_map, Prod.mk.injEq, Prod.exists]
  constructor
  · rintro ⟨reg, h', member, same, rfl⟩
    exact ⟨reg, member, same⟩
  · rintro ⟨reg, member, same⟩
    exact ⟨reg, h, member, same, rfl⟩

/-- Each launch runs the handler that is stored under the key of its row. -/
def Keyed (engine : DurableEngine H) (sys : System H) : Prop :=
  ∀ launch ∈ sys.launches, engine.handler launch.record.name launch.record.configName = some launch.handler

theorem Keyed.append {sys : System H} {more : List (Launch H)} (keyed : Keyed engine sys)
    (added : ∀ launch ∈ more, engine.handler launch.record.name launch.record.configName = some launch.handler)
    (claimed listed : List WorkflowStatus) (store : Inner) :
    Keyed engine ⟨store, claimed, listed, sys.launches ++ more⟩ := by
  intro launch member
  rcases List.mem_append.mp member with old | new
  · exact keyed launch old
  · exact added launch new

theorem mem_launchCreated {handler : Option H} {canonical : WorkflowStatus} {queued isNew : Bool} {launch : Launch H}
    (member : launch ∈ launchCreated handler canonical queued isNew) :
    isNew = true ∧ launch.record = canonical ∧ handler = some launch.handler := by
  unfold launchCreated at member
  split at member
  · cases member
  next runs =>
    simp only [Bool.not_eq_true, Bool.or_eq_false_iff, Bool.not_eq_false'] at runs
    cases handler with
    | none => cases member
    | some h =>
      have same : launch = ⟨h, canonical⟩ := by simpa using member
      subst same
      exact ⟨runs.1.2, rfl, rfl⟩

/-- A built row carries the two names it was built with. -/
theorem buildRun_names {rt : Runtime} {now created : DateTime} {id name : String} {input : Value}
    {opts : WorkflowOptions} {parent : Option String} {auth : AuthContext} {row : WorkflowStatus} {queued : Bool}
    (built : rt.buildRun now created id name input opts parent auth = .ok (row, queued)) :
    row.name = name ∧ row.configName = opts.configName ∧ row.authenticatedRoles = auth.authenticatedRoles := by
  simp only [Runtime.buildRun, bind, Except.bind, pure, Except.pure] at built
  split at built
  · cases built
  split at built
  · cases built
  split at built
  · cases built
  cases built
  exact ⟨rfl, rfl, rfl⟩

/-- A claim relaunches the handler it was given for the row as it was observed. -/
theorem Keyed.claim {sys : System H} (keyed : Keyed engine sys) (now : DateTime) (record : WorkflowStatus)
    (maxAttempts : Int) (handler : Option H)
    (found : ∀ h, handler = some h → engine.handler record.name record.configName = some h) :
    Keyed engine (claim engine now record maxAttempts handler sys) := by
  unfold Roles.claim
  dsimp only
  split
  · refine keyed.append ?_ _ _ _
    intro launch member
    cases handler with
    | none => cases member
    | some h =>
      have same : launch.record.name = record.name ∧ launch.record.configName = record.configName ∧
          launch.handler = h := by
        simp only [Option.map_some, Option.toList_some, List.mem_singleton] at member
        subst member
        exact ⟨rfl, rfl, rfl⟩
      rw [same.1, same.2.1, same.2.2]
      exact found h rfl
  · exact keyed

theorem next_keyed (lib : SerdeJson) (sys : System H) (event : DateTime × Event) (keyed : Keyed engine sys) :
    Keyed engine (next engine lib sys event) := by
  obtain ⟨now, event⟩ := event
  cases event with
  | start created id name input opts =>
    simp only [next]
    split
    · exact keyed
    next handler found =>
    split
    · exact keyed
    next row queued built =>
    split
    next canonical isNew answered =>
      refine keyed.append ?_ _ _ _
      intro launch member
      obtain ⟨rfl, rfl, here⟩ := mem_launchCreated member
      rcases insertWorkflowStatus_cases row sys.store with ⟨-, inserted⟩ | ⟨-, never⟩
      · rw [inserted] at answered
        have same : row = launch.record := by
          cases answered
          rfl
        obtain ⟨name', config', -⟩ := buildRun_names built
        rw [← same, name', config', found, here]
      · exact absurd answered (never _)
    · exact keyed
  | startChild created id name input opts auth parent seq =>
    simp only [next]
    split
    next row queued _ _ built =>
      split
      next canonical isNew answered =>
        refine keyed.append ?_ _ _ _
        intro launch member
        obtain ⟨rfl, rfl, here⟩ := mem_launchCreated member
        rcases Ownership.insertChildWorkflow_cases row parent seq (opts.dedupPolicy = .returnExisting) sys.store with
          ⟨-, inserted, -⟩ | ⟨-, never⟩
        · rw [inserted] at answered
          have same : row = launch.record := by
            cases answered
            rfl
          obtain ⟨name', config', -⟩ := buildRun_names built
          rw [← same, name', config', here]
        · exact absurd answered (never _)
      · exact keyed
    · exact keyed
  | tick created scheduleName workflowName queueName instant input =>
    simp only [next]
    split
    · exact keyed
    next row queued built =>
    split
    next canonical isNew answered =>
      refine keyed.append ?_ _ _ _
      intro launch member
      obtain ⟨rfl, rfl, here⟩ := mem_launchCreated member
      rcases insertWorkflowStatus_cases row sys.store with ⟨-, inserted⟩ | ⟨-, never⟩
      · rw [inserted] at answered
        have same : row = launch.record := by
          cases answered
          rfl
        obtain ⟨name', config', -⟩ := buildRun_names built
        rw [← same, name', config', ← here]
        rfl
      · exact absurd answered (never _)
    · exact keyed
  | dequeue req => exact keyed
  | dispatch place =>
    simp only [next]
    split
    · exact keyed
    next record _ =>
    split
    next handler found =>
      refine keyed.append ?_ _ _ _
      intro launch member
      have same : launch = ⟨handler, record⟩ := by simpa using member
      rw [same]
      exact found
    · exact keyed
  | sweep record =>
    simp only [next]
    split <;> exact keyed
  | recover place =>
    simp only [next]
    split
    · exact keyed
    split
    · exact keyed.claim _ _ _ none nofun
    · split
      next handler found =>
        apply keyed.claim
        intro h same
        rw [← same]
        exact found
      · exact keyed
  | settle place disposition =>
    simp only [next]
    split
    · exact keyed
    next launch here =>
      apply keyed.claim
      intro h same
      rw [← same]
      exact keyed launch (List.mem_of_getElem? here)
  | call call => exact keyed

theorem run_keyed (lib : SerdeJson) (events : List (DateTime × Event)) : Keyed engine (run engine lib events) :=
  Runs.invariant (P := fun _ _ => True) (fun sys event _ keyed => next_keyed lib sys event keyed)
    (Runs.along_of_forall _ (fun _ _ => trivial) ..) (by simp [Keyed, System.new])

theorem checkRequiredRoles_ok (name : String) (required : List String) (auth : AuthContext) :
    (∃ role, Latch.checkRequiredRoles name required auth = .ok role) ↔
      ∃ role ∈ required, role ∈ auth.authenticatedRoles := by
  unfold Latch.checkRequiredRoles
  by_cases bare : auth.authenticatedRoles = []
  · simp [bare]
  · rw [if_neg bare]
    split
    next role found =>
      have held := List.find?_some found
      exact ⟨fun _ => ⟨role, List.mem_of_find?_eq_some found, by simpa using held⟩, fun _ => ⟨role, rfl⟩⟩
    next nobody =>
      have none := List.find?_eq_none.mp nobody
      simpa using none

/-- The gate lets a row pass exactly when its name requires nothing or the row holds a required role. -/
theorem denial_none {record : WorkflowStatus} :
    denial engine record = none ↔ ∀ required, engine.requiredRoles.get record.name = some required →
      ∃ role ∈ required, role ∈ record.authenticatedRoles := by
  unfold denial
  cases declared : engine.requiredRoles.get record.name with
  | none => simp
  | some required =>
    have checked := checkRequiredRoles_ok record.name required (fromStatus record)
    simp only [Option.some.injEq, forall_eq']
    refine Iff.trans ?_ checked
    cases Latch.checkRequiredRoles record.name required (fromStatus record) <;> simp

/-- Once its workflow's roles are required under each reading of a key, the gate enforces them. -/
theorem Unambiguous.enforced {entries : List (Registration × H)} (unambiguous : Unambiguous engine entries)
    (launch : Launch H) : Enforced engine entries launch := by
  intro reg member same roles declared passed
  obtain ⟨own, required, within⟩ :=
    unambiguous (reg, launch.handler) member roles declared launch.record.name launch.record.configName same.symm
  obtain ⟨role, listed, held⟩ := denial_none.mp passed own required
  exact ⟨role, within role listed, held⟩

/-- What a caller may start: any pair of names whose key has a handler, with any roles. -/
def started (engine : DurableEngine H) (id name : String) (configName : Option String) (roles : List String) :
    WorkflowStatus :=
  { WorkflowStatus.new 0 id name .null .pending engine.rt.executorId engine.rt.appVersion with
    authenticatedRoles := roles
    configName := configName
    startedAtMs := some 0 }

theorem run_start (lib : SerdeJson) {name : String} {configName : Option String} {handler : H}
    (found : engine.handler name configName = some handler) (roles : List String) :
    (run engine lib [(0, .start 0 "w" name .null { authenticatedRoles := roles, configName := configName })]).launches =
      [⟨handler, started engine "w" name configName roles⟩] := by
  simp only [Runs.run_cons, Runs.run_nil, next, found]
  rfl

/-- The roles a workflow requires are enforced in every run exactly when no key can be read as a pair
of names that requires less; distinct registrations never share a key. -/
theorem roles_enforced (lib : SerdeJson) (executorId appVersion : String) (debouncer : H) (auto : List (String × H))
    (calls : List (BuilderCall H)) (engine : DurableEngine H)
    (built : (builder calls).build executorId appVersion debouncer auto = .ok engine) :
    ((registered debouncer auto calls).map (·.1.key)).Nodup ∧
      ((∀ events, ∀ launch ∈ (run engine lib events).launches, Enforced engine (registered debouncer auto calls) launch) ↔
        Unambiguous engine (registered debouncer auto calls)) := by
  obtain ⟨distinct, stored⟩ := build_ok built
  refine ⟨distinct, ?_, fun unambiguous events launch _ => unambiguous.enforced launch⟩
  intro enforced entry member roles declared name configName same
  have found : engine.handler name configName = some entry.2 := (stored _ _).mpr ⟨entry.1, member, same.symm⟩
  -- A caller starts the handler under the other names, with the roles these require and no more.
  have run (held : List String) := enforced _ _ (run_start lib found held ▸ List.mem_singleton_self _) entry.1 member
    same.symm roles declared
  cases required : engine.requiredRoles.get name with
  | none =>
    obtain ⟨role, -, held⟩ := run [] (denial_none.mpr fun own declared => by simp [started, WorkflowStatus.new, required] at declared)
    simp [started] at held
  | some own =>
    refine ⟨own, rfl, fun role listed => ?_⟩
    have passed : denial engine (started engine "w" name configName [role]) = none := by
      apply denial_none.mpr
      intro required' declared
      have agree : own = required' := by
        simpa [started, WorkflowStatus.new, required] using declared
      exact ⟨role, agree ▸ listed, by simp [started]⟩
    obtain ⟨role', within, held⟩ := run [role] passed
    have same : role' = role := by simpa [started] using held
    exact same ▸ within

end Engines

/-- A workflow that requires a role, with one configured instance and a plain neighbour. -/
def payments : List (BuilderCall Nat) :=
  [.registerConfigured "pay" "eu" 1, .register "report" 2, .requireRoles "pay" ["admin"]]

/-- The same with the instance's whole key declared as well. -/
def guardedPayments : List (BuilderCall Nat) := payments ++ [.requireRoles "pay/eu" ["admin"]]

theorem roles_enforced_guardedPayments : ∃ engine, (builder guardedPayments).build "e" "v" 0 [] = .ok engine ∧
    ((registered 0 [] guardedPayments).map (·.1.key)).Nodup ∧
      ((∀ events, ∀ launch ∈ (run engine (.reading []) events).launches,
          Enforced engine (registered 0 [] guardedPayments) launch) ↔
        Unambiguous engine (registered 0 [] guardedPayments)) :=
  ⟨_, rfl, roles_enforced (.reading []) "e" "v" 0 [] guardedPayments _ rfl⟩

/-- A caller without roles names the instance by its key, and its body runs. -/
theorem gate_bypassed : ∃ engine, (builder payments).build "e" "v" 0 [] = .ok engine ∧
    ∃ events, ∃ launch ∈ (run engine (.reading []) events).launches,
      ¬ Enforced engine (registered 0 [] payments) launch := by
  refine ⟨_, rfl, [(0, .start 0 "w" "pay/eu" .null {})], ⟨1, _⟩, List.mem_singleton.mpr rfl, ?_⟩
  intro enforced
  obtain ⟨role, -, held⟩ := enforced ⟨"pay", some "eu"⟩ (by decide) (by decide) ["admin"] (by decide) (by decide)
  cases held

end Durare.Roles

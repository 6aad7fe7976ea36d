import Durare.Rows
import Durare.Starts

/-! Who may run a workflow. Four paths hand out the right to run an id: the insert that
creates its row, a dequeue, a recovery sweep's claim and an interrupted run's own
settlement. Sweeps act on rows listed earlier, replies get lost and processes stop. -/
namespace Durare.Ownership

open Memory

inductive RecoveryDisposition where
  | retry
  | parkAfterPanic
deriving DecidableEq, Repr

/-- The store, the records of the executions of one workflow that may run, the claims of
dispatchers that lack its handler and have yet to give them back, the rows sweeps have
listed, the runs that stopped without an outcome, and the observed pairs whose claim
succeeded. A listed row or an interrupted run may be acted on at any later time, and again. -/
structure System where
  store : Inner
  live : List WorkflowStatus
  held : List WorkflowStatus
  listed : List WorkflowStatus
  interrupted : List (WorkflowStatus × RecoveryDisposition)
  claims : List (String × Int)

def System.new (s : Inner) : System := ⟨s, [], [], [], [], []⟩

/-- What happens to the workflow `w`. `delivered` says whether the caller gets the reply. -/
inductive Event where
  | start (rt : Runtime) (created : DateTime) (name : String) (input : Value) (opts : WorkflowOptions)
      (auth : AuthContext) (delivered : Bool)
  | startChild (rt : Runtime) (created : DateTime) (name : String) (input : Value) (opts : WorkflowOptions)
      (auth : AuthContext) (parent : String) (seq : Int) (delivered : Bool)
  | dequeue (rt : Runtime) (req : DequeueRequest) (delivered : Bool)
  | release (place : Nat)
  | abandon (place : Nat)
  | sweep
  | recover (place : Nat) (rt : Runtime) (delivered : Bool)
  | stop (place : Nat)
  | interrupt (place : Nat) (disposition : RecoveryDisposition)
  | settle (place : Nat) (rt : Runtime) (delivered : Bool)
  | finish (place : Nat) (status : Status) (output : Option Value) (error : Option String)
  | call (call : Call)
deriving DecidableEq, Repr

/-- The request of `dispatch_pending_workflows` and of `recover_interrupted_run`. -/
def recoveryRequest (rt : Runtime) (record : WorkflowStatus) (maxAttempts : Int) : RecoveryClaimRequest where
  workflowId := record.id
  expectedExecutor := record.executorId
  expectedAttempts := record.recoveryAttempts
  newExecutor := rt.executorId
  maxAttempts := maxAttempts
  requeue := record.queueName.isSome

/-- A panic has no retry budget: its cap is the count it started with. -/
def settlementCap (rt : Runtime) (record : WorkflowStatus) : RecoveryDisposition → Int
  | .retry => rt.maxRecoveryAttempts
  | .parkAfterPanic => record.recoveryAttempts

def claim (now : DateTime) (rt : Runtime) (record : WorkflowStatus) (maxAttempts : Int) (delivered : Bool)
    (sys : System) : System :=
  let (answer, store) := claimForRecovery now (recoveryRequest rt record maxAttempts) sys.store
  let spent := sys.claims ++ [(record.executorId, record.recoveryAttempts)]
  match answer with
  | .ok (.claimed attempts) =>
    let record := { record with executorId := rt.executorId, recoveryAttempts := attempts }
    { sys with store := store, claims := spent, live := sys.live ++ if delivered then [record] else [] }
  | .ok .requeued | .ok (.parked _) => { sys with store := store, claims := spent }
  | .ok .lost | .error _ => { sys with store := store }

def handles (rt : Runtime) (record : WorkflowStatus) : Bool :=
  registryKey record.name record.configName ∈ rt.workflows

/-- A sweep dispatches a row itself only when it has the handler; a queued one goes back
to its queue. -/
def dispatchable (rt : Runtime) (record : WorkflowStatus) : Bool :=
  record.queueName.isSome || handles rt record

def next (lib : SerdeJson) (w : String) (sys : System) (event : DateTime × Event) : System :=
  match event.2 with
  | .start rt created name input opts auth delivered =>
    match rt.buildRun event.1 created w name input opts none auth with
    | .error _ => sys
    | .ok (row, queued) =>
      let (answer, store) := insertWorkflowStatus row sys.store
      match answer with
      | .ok (canonical, true) =>
        let runs := delivered && !queued && !canonical.status.isTerminal
        { sys with store := store, live := sys.live ++ if runs then [canonical] else [] }
      | _ => { sys with store := store }
  | .startChild rt created name input opts auth parent seq delivered =>
    match rt.buildRun event.1 created w name input opts (some parent) auth with
    | .error _ => sys
    | .ok (row, queued) =>
      let (answer, store) := insertChildWorkflow row parent seq (opts.dedupPolicy = .returnExisting) sys.store
      match answer with
      | .ok (some (.resolved canonical true)) =>
        let runs := delivered && !queued && !canonical.status.isTerminal
        { sys with store := store, live := sys.live ++ if runs then [canonical] else [] }
      | _ => { sys with store := store }
  | .dequeue rt req delivered =>
    let (answer, store) := dequeueWorkflows event.1 req sys.store
    let rows := answer.toOption.getD []
    let claimed := if delivered then rows.filter (·.id = w) else []
    { sys with
      store := store
      live := sys.live ++ claimed.filter (handles rt)
      held := sys.held ++ claimed.filter (!handles rt ·) }
  | .release place =>
    -- The write that gives the claim back asks nothing of the row.
    if place < sys.held.length then
      { sys with
        store := (setWorkflowStatus lib event.1 w .enqueued none none sys.store).2
        held := sys.held.eraseIdx place }
    else sys
  | .abandon place => { sys with held := sys.held.eraseIdx place }
  | .sweep =>
    match sys.store.workflows.get w with
    | some row => if row.status = .pending then { sys with listed := sys.listed ++ [row] } else sys
    | none => sys
  | .recover place rt delivered =>
    match sys.listed[place]? with
    | some record =>
      if dispatchable rt record then claim event.1 rt record rt.maxRecoveryAttempts delivered sys else sys
    | none => sys
  | .stop place => { sys with live := sys.live.eraseIdx place }
  | .interrupt place disposition =>
    match sys.live[place]? with
    | some record =>
      { sys with
        live := sys.live.eraseIdx place
        interrupted := sys.interrupted ++ [(record, disposition)] }
    | none => sys
  | .settle place rt delivered =>
    match sys.interrupted[place]? with
    | some (record, disposition) =>
      claim event.1 rt record (settlementCap rt record disposition) delivered sys
    | none => sys
  | .finish place status output error =>
    if place < sys.live.length ∧ status ∈ [Status.success, .error, .cancelled] then
      { sys with store := (setWorkflowStatus lib event.1 w status output error sys.store).2 }
    else sys
  | .call call => { sys with store := step lib sys.store (event.1, call) }

abbrev run (lib : SerdeJson) (w : String) (events : List (DateTime × Event)) (s : Inner) : System :=
  Runs.run (next lib w) events (System.new s)

/-- The provider calls of everything else. Starts, claims, status writes and dequeues of
`w` are events of their own; `w` is not resumed, deleted, forked onto or imported. -/
def outside (w : String) (s : Inner) : Call → Bool
  | .insertWorkflowStatus status => status.id ≠ w
  | .insertChildWorkflow child _ _ _ => child.id ≠ w
  | .setWorkflowStatus id _ _ _ => id ≠ w
  | .dequeueWorkflows _ => false
  | .claimForRecovery req => req.workflowId ≠ w
  | .resumeWorkflow id => id ≠ w
  | .resumeWorkflows ids => w ∉ ids
  | .enqueueExisting id _ => id ≠ w
  | call => w ∉ call.histories s

/-- What the claim asks of a run: a sweep lists `w` only when its executions have stopped. -/
def Stopped (w : String) (sys : System) (event : DateTime × Event) : Prop :=
  match event.2 with
  | .sweep => sys.live = []
  | .call call => outside w sys.store call = true
  | _ => True

/-- A sweep lists `w` only when its executions have stopped and no claim on it waits to be
given back, and no process passes a recovery cap above `cap`. -/
def Allowed (w : String) (cap : Int) (sys : System) (event : DateTime × Event) : Prop :=
  match event.2 with
  | .sweep => sys.live = [] ∧ sys.held = []
  | .recover _ rt _ => rt.maxRecoveryAttempts ≤ cap
  | .settle _ rt _ => rt.maxRecoveryAttempts ≤ cap
  | .call call => outside w sys.store call = true
  | _ => True

instance (w : String) (sys : System) : ∀ event, Decidable (Stopped w sys event)
  | (_, .sweep) => inferInstanceAs (Decidable (sys.live = []))
  | (_, .call call) => inferInstanceAs (Decidable (outside w sys.store call = true))
  | (_, .start ..) | (_, .startChild ..) | (_, .dequeue ..) | (_, .release ..) | (_, .abandon ..)
  | (_, .recover ..) | (_, .stop ..) | (_, .interrupt ..) | (_, .settle ..) | (_, .finish ..) =>
    inferInstanceAs (Decidable True)

instance (w : String) (cap : Int) (sys : System) :
    ∀ event, Decidable (Allowed w cap sys event)
  | (_, .sweep) => inferInstanceAs (Decidable (sys.live = [] ∧ sys.held = []))
  | (_, .recover _ rt _) => inferInstanceAs (Decidable (rt.maxRecoveryAttempts ≤ cap))
  | (_, .settle _ rt _) => inferInstanceAs (Decidable (rt.maxRecoveryAttempts ≤ cap))
  | (_, .call call) => inferInstanceAs (Decidable (outside w sys.store call = true))
  | (_, .start ..) | (_, .startChild ..) | (_, .dequeue ..) | (_, .release ..) | (_, .abandon ..)
  | (_, .stop ..) | (_, .interrupt ..) | (_, .finish ..) => inferInstanceAs (Decidable True)

/-- A row no execution runs yet: a dispatcher may still hand it out. -/
def waits : Status → Bool
  | .enqueued | .delayed => true
  | _ => false

def unfinished : Status → Bool
  | .enqueued | .delayed | .pending => true
  | _ => false

/-- Everyone who may still claim with a record observed earlier. -/
def observers (sys : System) : List WorkflowStatus := sys.listed ++ sys.interrupted.map (·.1)

/-- Everyone who holds the right to run, whether to run the workflow or to give it back. -/
def holders (sys : System) : List WorkflowStatus := sys.live ++ sys.held

/-- The recovery count is the generation of the right to run: while the right is held or the
row waits for a dispatcher, every record observed earlier is of an older generation. -/
structure Generation (cap : Int) (sys : System) (row : WorkflowStatus) : Prop where
  counted : 0 ≤ row.recoveryAttempts ∧ row.recoveryAttempts ≤ cap + 1
  below : unfinished row.status = true ∨ holders sys ≠ [] → row.recoveryAttempts ≤ cap
  idle : waits row.status = true → holders sys = []
  observed : ∀ record ∈ observers sys, record.recoveryAttempts ≤ row.recoveryAttempts
  stale : waits row.status = true ∨ holders sys ≠ [] →
    ∀ record ∈ observers sys, record.recoveryAttempts < row.recoveryAttempts
  started : ∀ record ∈ holders sys, record.recoveryAttempts ≤ row.recoveryAttempts
  spent : ∀ pair ∈ sys.claims, pair.2 < row.recoveryAttempts

structure Inv (w : String) (cap : Int) (sys : System) : Prop where
  keyed : Keyed sys.store
  single : (holders sys).length ≤ 1
  own : ∀ record ∈ holders sys ++ observers sys, record.id = w
  distinct : (sys.claims.map (·.2)).Nodup
  vacant : sys.store.workflows.get w = none → holders sys = [] ∧ observers sys = [] ∧ sys.claims = []
  generation : ∀ row, sys.store.workflows.get w = some row → Generation cap sys row

section Moves

variable {w : String} {cap : Int} {sys : System} {row moved : WorkflowStatus} {store : Inner}

/-- A write that keeps the count and neither reopens the row nor puts it back in line. -/
theorem Generation.quiet (gen : Generation cap sys row)
    (count : moved.recoveryAttempts = row.recoveryAttempts)
    (line : waits moved.status = true → waits row.status = true)
    (reopen : unfinished moved.status = true → unfinished row.status = true) :
    Generation cap { sys with store := store } moved where
  counted := count ▸ gen.counted
  below := fun still => count ▸ gen.below (still.imp reopen id)
  idle := fun waiting => gen.idle (line waiting)
  observed := count ▸ gen.observed
  stale := fun held => count ▸ gen.stale (held.imp line id)
  started := count ▸ gen.started
  spent := count ▸ gen.spent

/-- A store in which the row of `w` took a quiet move keeps the invariant. -/
theorem Inv.quiet (inv : Inv w cap sys) (keyed : Keyed store)
    (effect : store.workflows.get w = sys.store.workflows.get w ∨
      ∃ row moved, sys.store.workflows.get w = some row ∧ store.workflows.get w = some moved ∧
        moved.recoveryAttempts = row.recoveryAttempts ∧
        (waits moved.status = true → waits row.status = true) ∧
        (unfinished moved.status = true → unfinished row.status = true)) :
    Inv w cap { sys with store := store } where
  keyed := keyed
  single := inv.single
  own := inv.own
  distinct := inv.distinct
  vacant := by
    intro vacant
    rcases effect with same | ⟨row, moved, -, present, -⟩
    · exact inv.vacant (same ▸ vacant)
    · rw [vacant] at present
      cases present
  generation := by
    intro final present
    rcases effect with same | ⟨row, moved, stored, after, count, line, reopen⟩
    · exact (inv.generation final (same ▸ present)).quiet rfl id id
    · rw [present] at after
      cases after
      exact (inv.generation row stored).quiet count line reopen

@[simp] theorem holders_eq_nil : holders sys = [] ↔ sys.live = [] ∧ sys.held = [] := List.append_eq_nil_iff

/-- The insert that creates the row starts the first generation. -/
theorem Inv.inserted (inv : Inv w cap sys) (nonneg : 0 ≤ cap) (keyed : Keyed store)
    (vacant : sys.store.workflows.get w = none) (present : store.workflows.get w = some row)
    (fresh : row.recoveryAttempts = 0) (runs : Bool) (direct : runs = true → waits row.status = false) :
    Inv w cap { sys with store := store, live := sys.live ++ if runs then [row] else [] } := by
  obtain ⟨idle, noneObserved, noneSpent⟩ := inv.vacant vacant
  obtain ⟨noneLive, noneHeld⟩ := holders_eq_nil.mp idle
  have own := keyed w row present
  have quiet : ∀ record ∈ observers sys, False := by simp [noneObserved]
  have holds : holders { sys with store := store, live := sys.live ++ if runs then [row] else [] } =
      if runs then [row] else [] := by
    simp [holders, noneLive, noneHeld]
  refine ⟨keyed, ?_, ?_, inv.distinct, ?_, ?_⟩
  · rw [holds]
    cases runs <;> simp
  · intro record member
    rw [holds] at member
    simp only [observers] at quiet member
    rcases List.mem_append.mp member with new | old
    · cases runs with
      | false => simp at new
      | true =>
        have same : record = row := by simpa using new
        exact same ▸ own
    · exact (quiet record old).elim
  · intro gone
    rw [present] at gone
    cases gone
  · intro final stored
    rw [present] at stored
    cases stored
    refine ⟨by omega, by omega, ?_, fun record member => (quiet record member).elim,
      fun _ record member => (quiet record member).elim, ?_, by simp [noneSpent]⟩
    · intro waiting
      rw [holds]
      cases runs with
      | false => rfl
      | true => rw [direct rfl] at waiting; cases waiting
    · intro record member
      rw [holds] at member
      cases runs with
      | false => simp at member
      | true =>
        have same : record = row := by simpa using member
        rw [same]

theorem Inv.dropped (inv : Inv w cap sys) {live held : List WorkflowStatus}
    (fewer : (live ++ held).Sublist (holders sys)) : Inv w cap { sys with live := live, held := held } := by
  have member : ∀ record ∈ live ++ held, record ∈ holders sys := fun record found => fewer.subset found
  refine ⟨inv.keyed, fewer.length_le.trans inv.single, ?_, inv.distinct, ?_, ?_⟩
  · intro record found
    rcases List.mem_append.mp found with holds | seen
    · exact inv.own record (List.mem_append_left _ (member record holds))
    · exact inv.own record (List.mem_append_right _ seen)
  · intro vacant
    obtain ⟨none, rest⟩ := inv.vacant vacant
    exact ⟨List.sublist_nil.mp (none ▸ fewer), rest⟩
  · intro row present
    have gen := inv.generation row present
    have holding : live ++ held ≠ [] → holders sys ≠ [] := by
      intro some none
      exact some (List.sublist_nil.mp (none ▸ fewer))
    exact ⟨gen.counted, fun still => gen.below (still.imp id holding),
      fun waiting => List.sublist_nil.mp (gen.idle waiting ▸ fewer), gen.observed,
      fun right => gen.stale (right.imp id holding),
      fun record found => gen.started record (member record found), gen.spent⟩

/-- The one execution, once taken out, leaves no holder. -/
theorem Inv.alone (inv : Inv w cap sys) {place : Nat} (here : place < sys.live.length) :
    sys.live.eraseIdx place = [] ∧ sys.held = [] := by
  have single := inv.single
  rw [holders, List.length_append] at single
  refine ⟨List.eq_nil_of_length_eq_zero ?_, List.eq_nil_of_length_eq_zero (by omega)⟩
  rw [List.length_eraseIdx_of_lt here]
  omega

theorem Inv.alone_held (inv : Inv w cap sys) {place : Nat} (here : place < sys.held.length) :
    sys.live = [] ∧ sys.held.eraseIdx place = [] := by
  have single := inv.single
  rw [holders, List.length_append] at single
  refine ⟨List.eq_nil_of_length_eq_zero (by omega), List.eq_nil_of_length_eq_zero ?_⟩
  rw [List.length_eraseIdx_of_lt here]
  omega

theorem Inv.interrupted (inv : Inv w cap sys) {place : Nat} {record : WorkflowStatus}
    (runs : sys.live[place]? = some record) (disposition : RecoveryDisposition) :
    Inv w cap { sys with
      live := sys.live.eraseIdx place
      interrupted := sys.interrupted ++ [(record, disposition)] } := by
  obtain ⟨here, rfl⟩ := List.getElem?_eq_some_iff.mp runs
  have member : sys.live[place] ∈ holders sys := List.mem_append_left _ (List.getElem_mem here)
  have nonempty : holders sys ≠ [] := List.ne_nil_of_mem member
  obtain ⟨noneLive, noneHeld⟩ := inv.alone here
  have none : holders { sys with
      live := sys.live.eraseIdx place
      interrupted := sys.interrupted ++ [(sys.live[place], disposition)] } = [] :=
    holders_eq_nil.mpr ⟨noneLive, noneHeld⟩
  have seen : ∀ r, r ∈ observers { sys with
      live := sys.live.eraseIdx place
      interrupted := sys.interrupted ++ [(sys.live[place], disposition)] } ↔
      r ∈ observers sys ∨ r = sys.live[place] := by
    intro r
    simp [observers, or_assoc]
  refine ⟨inv.keyed, by simp [none], ?_, inv.distinct, ?_, ?_⟩
  · intro r found
    rw [none, List.nil_append] at found
    rcases (seen r).mp found with old | rfl
    · exact inv.own r (List.mem_append_right _ old)
    · exact inv.own _ (List.mem_append_left _ member)
  · intro vacant
    exact absurd (inv.vacant vacant).1 nonempty
  · intro row present
    have gen := inv.generation row present
    refine ⟨gen.counted, fun _ => gen.below (.inr nonempty), fun _ => none, ?_, ?_, by simp [none], gen.spent⟩
    · intro r found
      rcases (seen r).mp found with old | rfl
      · exact gen.observed r old
      · exact gen.started _ member
    · rintro (waiting | again)
      · exact absurd (gen.idle waiting) nonempty
      · exact absurd none again

/-- A sweep lists the row while nobody holds the right to run it. -/
theorem Inv.listed (inv : Inv w cap sys) (stopped : holders sys = [])
    (present : sys.store.workflows.get w = some row) (pending : row.status = .pending) :
    Inv w cap { sys with listed := sys.listed ++ [row] } := by
  have gen := inv.generation row present
  have seen : ∀ r, r ∈ observers { sys with listed := sys.listed ++ [row] } ↔
      r ∈ observers sys ∨ r = row := by
    intro r
    simp only [observers, List.mem_append, List.mem_singleton]
    tauto
  refine ⟨inv.keyed, inv.single, ?_, inv.distinct, ?_, ?_⟩
  · intro r found
    rw [List.mem_append, seen] at found
    rcases found with runs | old | rfl
    · exact inv.own r (List.mem_append_left _ runs)
    · exact inv.own r (List.mem_append_right _ old)
    · exact inv.keyed w r present
  · intro vacant
    rw [present] at vacant
    cases vacant
  · intro final stored
    rw [present] at stored
    cases stored
    refine ⟨gen.counted, gen.below, gen.idle, ?_, ?_, gen.started, gen.spent⟩
    · intro r found
      rcases (seen r).mp found with old | rfl
      · exact gen.observed r old
      · exact le_refl _
    · rintro (waiting | runs)
      · rw [pending] at waiting
        cases waiting
      · exact absurd stopped runs

theorem Inv.released (inv : Inv w cap sys) {place : Nat} (here : place < sys.held.length)
    (keyed : Keyed store) (present : sys.store.workflows.get w = some row)
    (after : store.workflows.get w = some moved) (count : moved.recoveryAttempts = row.recoveryAttempts) :
    Inv w cap { sys with store := store, held := sys.held.eraseIdx place } := by
  have none : holders { sys with store := store, held := sys.held.eraseIdx place } = [] :=
    holders_eq_nil.mpr (inv.alone_held here)
  have gen := inv.generation row present
  have right : holders sys ≠ [] := List.ne_nil_of_mem (List.mem_append_right _ (List.getElem_mem here))
  refine ⟨keyed, by simp [none], ?_, inv.distinct, ?_, ?_⟩
  · intro r found
    rw [none, List.nil_append] at found
    exact inv.own r (List.mem_append_right _ found)
  · intro vacant
    rw [after] at vacant
    cases vacant
  · intro final stored
    rw [after] at stored
    cases stored
    exact ⟨count ▸ gen.counted, fun _ => count ▸ gen.below (.inr right), fun _ => none, count ▸ gen.observed,
      fun _ => count ▸ gen.stale (.inr right), by simp [none], count ▸ gen.spent⟩

/-- A dispatcher's claim hands the waiting row to one holder. -/
theorem Inv.dequeued (inv : Inv w cap sys) (keyed : Keyed store)
    (present : sys.store.workflows.get w = some row) (waiting : waits row.status = true)
    (after : store.workflows.get w = some moved) (count : moved.recoveryAttempts = row.recoveryAttempts)
    (taken : waits moved.status = false) {runs kept : List WorkflowStatus} (once : (runs ++ kept).length ≤ 1)
    (same : ∀ record ∈ runs ++ kept, record = moved) :
    Inv w cap { sys with store := store, live := sys.live ++ runs, held := sys.held ++ kept } := by
  have gen := inv.generation row present
  obtain ⟨noneLive, noneHeld⟩ := holders_eq_nil.mp (gen.idle waiting)
  have holds : holders { sys with store := store, live := sys.live ++ runs, held := sys.held ++ kept } =
      runs ++ kept := by
    simp [holders, noneLive, noneHeld]
  have unfinishedRow : unfinished row.status = true := by
    cases status : row.status <;> simp_all [waits, unfinished]
  refine ⟨keyed, by rwa [holds], ?_, inv.distinct, ?_, ?_⟩
  · intro record member
    rw [holds] at member
    rcases List.mem_append.mp member with new | seen
    · exact same record new ▸ keyed w moved after
    · exact inv.own record (List.mem_append_right _ seen)
  · intro vacant
    rw [after] at vacant
    cases vacant
  · intro final stored
    rw [after] at stored
    cases stored
    refine ⟨count ▸ gen.counted, fun _ => count ▸ gen.below (.inl unfinishedRow), ?_, count ▸ gen.observed,
      fun _ => count ▸ gen.stale (.inl waiting), ?_, count ▸ gen.spent⟩
    · intro again
      rw [taken] at again
      cases again
    · intro record member
      rw [holds] at member
      rw [same record member]

/-- A claim changes nothing, or it found its record current: the row moves to the next
count, and an execution starts only where the row stays PENDING. -/
theorem claim_cases (now : DateTime) (rt : Runtime) (record : WorkflowStatus) (maxAttempts : Int)
    (delivered : Bool) (sys : System) :
    claim now rt record maxAttempts delivered sys = sys ∨
    ∃ row moved records, sys.store.workflows.get record.id = some row ∧ row.status = .pending ∧
      row.recoveryAttempts = record.recoveryAttempts ∧
      claim now rt record maxAttempts delivered sys =
        { sys with
          store := sys.store.putRow record.id moved
          claims := sys.claims ++ [(record.executorId, record.recoveryAttempts)]
          live := sys.live ++ records } ∧
      moved.id = row.id ∧ moved.recoveryAttempts = asI32 (row.recoveryAttempts + 1) ∧
      (moved.status = .pending ∧ moved.recoveryAttempts ≤ maxAttempts ∧
          records = (if delivered then
            [{ record with executorId := rt.executorId, recoveryAttempts := moved.recoveryAttempts }] else []) ∨
        moved.status = .enqueued ∧ moved.recoveryAttempts ≤ maxAttempts ∧ records = [] ∨
        moved.status = .maxRecoveryAttemptsExceeded ∧ maxAttempts < moved.recoveryAttempts ∧ records = []) := by
  unfold claim
  obtain ⟨lost, -⟩ | ⟨row, present, pending, executor, attempts, answer⟩ :=
    claimForRecovery_cases now (recoveryRequest rt record maxAttempts) sys.store
  · left
    rw [lost]
  right
  refine ⟨row, recoveredRow now (recoveryRequest rt record maxAttempts) row, ?_⟩
  by_cases overrun : maxAttempts < asI32 (row.recoveryAttempts + 1)
  · refine ⟨[], present, pending, attempts, ?_⟩
    rw [answer]
    simp [recoveredRow, recoveryRequest, overrun]
  · have within : asI32 (row.recoveryAttempts + 1) ≤ maxAttempts := by omega
    by_cases queued : record.queueName.isSome
    · refine ⟨[], present, pending, attempts, ?_⟩
      rw [answer]
      simp [recoveredRow, recoveryRequest, overrun, queued, within]
    · refine ⟨_, present, pending, attempts, ?_, ?_, ?_, .inl ⟨?_, ?_, rfl⟩⟩
      · rw [answer]
        simp [recoveredRow, recoveryRequest, overrun, queued]
      all_goals simp [recoveredRow, recoveryRequest, overrun, queued, pending, within]

/-- A claim that succeeds found the current generation, so nothing was running, and it
opens the next one. -/
theorem Inv.claimed (inv : Inv w cap sys) (room : cap < 2 ^ 31 - 1) {now : DateTime} {rt : Runtime}
    {record : WorkflowStatus} {maxAttempts : Int} (member : record ∈ observers sys)
    (capped : maxAttempts ≤ cap ∨ maxAttempts ≤ record.recoveryAttempts) (delivered : Bool) :
    Inv w cap (claim now rt record maxAttempts delivered sys) := by
  have own := inv.own record (List.mem_append_right _ member)
  obtain same | ⟨row, moved, records, present, pending, attempts, effect, id, count, status⟩ :=
    claim_cases now rt record maxAttempts delivered sys
  · rw [same]
    exact inv
  rw [own] at present effect
  have gen := inv.generation row present
  have below := gen.below (.inl (by rw [pending]; rfl))
  have counted := gen.counted
  have idle : holders sys = [] := by
    by_contra runs
    have older := gen.stale (.inr runs) record member
    omega
  obtain ⟨noneLive, noneHeld⟩ := holders_eq_nil.mp idle
  rw [asI32_of_lt (by omega) (by omega)] at count
  have started : ∀ r ∈ records, r.id = w ∧ r.recoveryAttempts = moved.recoveryAttempts := by
    intro r found
    rcases status with ⟨-, -, rfl⟩ | ⟨-, -, rfl⟩ | ⟨-, -, rfl⟩
    · cases delivered with
      | false => simp at found
      | true =>
        have same := List.mem_singleton.mp found
        exact ⟨same ▸ own, same ▸ rfl⟩
    · simp at found
    · simp at found
  have once : records.length ≤ 1 := by
    rcases status with ⟨-, -, rfl⟩ | ⟨-, -, rfl⟩ | ⟨-, -, rfl⟩
    · cases delivered <;> simp
    · simp
    · simp
  have holds : holders { sys with
      store := sys.store.putRow w moved
      claims := sys.claims ++ [(record.executorId, record.recoveryAttempts)]
      live := sys.live ++ records } = records := by
    simp [holders, noneLive, noneHeld]
  rw [effect]
  refine ⟨?_, by rwa [holds], ?_, ?_, ?_, ?_⟩
  · intro key final stored
    rw [putRow_workflows, Table.get_put] at stored
    split at stored
    next here =>
      cases stored
      rw [id, here]
      exact inv.keyed w row present
    next => exact inv.keyed key final stored
  · intro r found
    rw [holds] at found
    rcases List.mem_append.mp found with runs | seen
    · exact (started r runs).1
    · exact inv.own r (List.mem_append_right _ seen)
  · rw [List.map_append, List.nodup_append]
    refine ⟨inv.distinct, by simp, ?_⟩
    intro a old b new
    obtain ⟨pair, found, rfl⟩ := List.mem_map.mp old
    have spent := gen.spent pair found
    have current : b = record.recoveryAttempts := by simpa using new
    omega
  · intro vacant
    rw [putRow_workflows, Table.get_put, if_pos rfl] at vacant
    cases vacant
  · intro final stored
    rw [putRow_workflows, Table.get_put, if_pos rfl] at stored
    cases stored
    have observed := gen.observed
    refine ⟨by omega, ?_, ?_, ?_, ?_, ?_, ?_⟩
    · rcases status with ⟨-, within, -⟩ | ⟨-, within, -⟩ | ⟨parked, -, rfl⟩
      · intro
        omega
      · intro
        omega
      · rintro (still | runs)
        · rw [parked] at still
          cases still
        · exact absurd holds runs
    · intro waiting
      rcases status with ⟨stays, -, -⟩ | ⟨-, -, rfl⟩ | ⟨-, -, rfl⟩
      · rw [stays] at waiting
        cases waiting
      · exact holds
      · exact holds
    · intro r found
      have older := observed r found
      omega
    · intro _ r found
      have older := observed r found
      omega
    · intro r found
      rw [holds] at found
      have same := (started r found).2
      omega
    · intro pair found
      rcases List.mem_append.mp found with old | new
      · have spent := gen.spent pair old
        omega
      · have same := List.mem_singleton.mp new
        rw [same]
        dsimp only
        omega

end Moves

end Durare.Ownership

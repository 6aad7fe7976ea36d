import Durare.Dequeue
import Durare.Starts

/-! A dispatcher that claims a workflow without a handler for it gives the row back to its queue. What the
claim wrote stays in the row, and whatever happened to the row in between is overwritten. -/
namespace Durare.Release

open Memory Dequeue

def asking (rt : Runtime) (req : DequeueRequest) : DequeueRequest :=
  { req with executorId := rt.executorId, appVersion := rt.appVersion }

/-- `queue_dispatch_loop` for one claimed row: a registered handler runs it, another row is released. -/
def release (rt : Runtime) (wf : WorkflowStatus) : Option Call :=
  if registryKey wf.name wf.configName ∈ rt.workflows then none
  else some (.setWorkflowStatus wf.id .enqueued none none)

/-- The two rows differ in nothing but their last update. -/
def Same (a b : WorkflowStatus) : Prop := { a with updatedAt := b.updatedAt } = b

/-- What is asked of a claim and its release: a row that the release finds as the claim left it is as it was
before the claim, with no start, and a row that changed in between stays as the release finds it. -/
structure Unnoticed (before wf : WorkflowStatus) (found after : Option WorkflowStatus) : Prop where
  restored : found = some wf → ∃ row, after = some row ∧ Same before row ∧ row.startedAtMs = none
  spared : ∀ row, found = some row → row ≠ wf → ∃ row', after = some row' ∧ Same row row'
  gone : found = none → after = none

variable {lib : SerdeJson} {rt : Runtime} {now later : DateTime} {req : DequeueRequest} {s : Inner} {wf : WorkflowStatus}

theorem Same.symm {a b : WorkflowStatus} (same : Same a b) : Same b a := by
  unfold Same at *
  rw [← same]

/-- A claimed row is the row of the store with the claim written over it. -/
theorem claimed_row (keyed : Keyed s) {rows : List WorkflowStatus} (answer : (dequeueWorkflows now req s).1 = .ok rows)
    (handed : wf ∈ rows) : ∃ row, s.workflows.get wf.id = some row ∧ row.status = .enqueued ∧ wf = claimRow now req row ∧
      (dequeueWorkflows now req s).2.workflows.get wf.id = some wf := by
  rw [dequeueWorkflows_handed keyed] at answer
  cases answer
  obtain ⟨row, taken, rfl⟩ := List.mem_map.mp handed
  have waits := mem_firstRows taken
  refine ⟨row, mem_eligible keyed waits, ?_, rfl, dequeueWorkflows_claimed keyed taken⟩
  have claimable := (List.mem_filter.mp waits).2
  simp only [Memory.claimable, Bool.and_eq_true, beq_iff_eq] at claimable
  exact claimable.1.2

/-- A release writes the status of any row it finds. -/
theorem released_row (lib : SerdeJson) (later : DateTime) (s : Inner) {call : Call}
    (given : release rt wf = some call) :
    (step lib s (later, call)).workflows.get wf.id =
      (s.workflows.get wf.id).map fun row => { row with status := .enqueued, updatedAt := later } := by
  unfold release at given
  split at given
  · cases given
  · cases given
    simp only [step, exec, setWorkflowStatus]
    cases found : s.workflows.get wf.id with
    | none => simp [found]
    | some row => simp [statusAllowed, writeStatus, Status.isTerminal]

/-- Only executors of the version that released the row are handed it from then on, and the latest ones if it
has none. -/
theorem released_claimable {row : WorkflowStatus} {req' : DequeueRequest} {latest : Bool}
    (eligible : claimable req' latest { claimRow now (asking rt req) row with status := .enqueued, updatedAt := later } = true) :
    req'.appVersion = rt.appVersion ∨ rt.appVersion = "" ∧ latest = true := by
  simp only [claimable, claimRow, asking, Bool.and_eq_true, Bool.or_eq_true, beq_iff_eq] at eligible
  rcases eligible.2 with same | unversioned
  · exact .inl same.symm
  · exact .inr unversioned

/-- The claim that starts the body does not set the deadline any more. -/
theorem released_deadline {row : WorkflowStatus} {timeout : Int} {then_ : DateTime} {req' : DequeueRequest}
    (timed : row.timeoutMs = some timeout) (unset : row.deadlineMs = none) :
    (claimRow then_ req' { claimRow now (asking rt req) row with status := .enqueued, updatedAt := later }).deadlineMs =
      some (asI64 (now.timestampMillis + timeout)) := by
  simp [claimRow, timed, unset]

/-- In every state that is reached, whatever the others do between the claim of a row and its release, the two
go unnoticed if and only if the row was changed in between and is gone or ENQUEUED by itself. -/
theorem release_unnoticed_iff (lib : SerdeJson) (rt : Runtime) (req : DequeueRequest) (now later : DateTime)
    (events between : List (DateTime × Call)) (before wf : WorkflowStatus) (rows : List WorkflowStatus) (call : Call)
    (queued : (run lib events Inner.new).workflows.get wf.id = some before)
    (answer : (dequeueWorkflows now (asking rt req) (run lib events Inner.new)).1 = .ok rows) (handed : wf ∈ rows)
    (given : release rt wf = some call) :
    let found := run lib between (dequeueWorkflows now (asking rt req) (run lib events Inner.new)).2
    Unnoticed before wf (found.workflows.get wf.id) ((step lib found (later, call)).workflows.get wf.id) ↔
      found.workflows.get wf.id ≠ some wf ∧ ∀ row, found.workflows.get wf.id = some row → row.status = .enqueued := by
  intro found
  obtain ⟨row, stored, waits, claimed, -⟩ := claimed_row (reached_keyed lib events) answer handed
  obtain rfl : row = before := Option.some.inj (stored.symm.trans queued)
  rw [released_row lib later found given]
  constructor
  · intro unnoticed
    have changed : found.workflows.get wf.id ≠ some wf := by
      intro same
      obtain ⟨after, left, -, unstarted⟩ := unnoticed.restored same
      rw [same, Option.map_some, Option.some.injEq] at left
      rw [← left, claimed] at unstarted
      cases unstarted
    refine ⟨changed, ?_⟩
    intro other here
    obtain ⟨after, left, same⟩ := unnoticed.spared other here fun equal => changed (here.trans (congrArg some equal))
    rw [here, Option.map_some, Option.some.injEq] at left
    have status : after.status = .enqueued := by rw [← left]
    unfold Same at same
    rw [← status, ← same]
  · rintro ⟨changed, enqueued⟩
    refine ⟨fun same => absurd same changed, ?_, fun none => by rw [none]; rfl⟩
    intro other here _
    refine ⟨_, by rw [here]; rfl, ?_⟩
    have status := enqueued other here
    unfold Same
    cases other
    cases status
    rfl

/-- A client's job without a version, and a dispatcher of version `v1` that has no handler for it. -/
def job : WorkflowStatus :=
  { WorkflowStatus.new 0 "a" "job" .null .enqueued "" "" with queueName := some "q", timeoutMs := some 100 }

def enqueues : List (DateTime × Call) := [(0, .insertWorkflowStatus job)]

def without : Runtime := { executorId := "e1", appVersion := "v1", workflows := ["other"], queues := ["q"] }

def polled : DequeueRequest := { queueName := "q", executorId := "", appVersion := "", maxTasks := 10 }

def claimedJob : WorkflowStatus := claimRow 1000000 (asking without polled) job

/-- A recovery gives the row back before the release does. -/
def requeues : List (DateTime × Call) :=
  [(2000000, .claimForRecovery
    { workflowId := "a", expectedExecutor := "e1", expectedAttempts := 0, newExecutor := "e2", maxAttempts := 10,
      requeue := true })]

theorem release_unnoticed_iff_requeued :
    let found := run (.reading []) requeues
      (dequeueWorkflows 1000000 (asking without polled) (run (.reading []) enqueues Inner.new)).2
    Unnoticed job claimedJob (found.workflows.get "a")
        ((step (.reading []) found (3000000, .setWorkflowStatus "a" .enqueued none none)).workflows.get "a") ↔
      found.workflows.get "a" ≠ some claimedJob ∧ ∀ row, found.workflows.get "a" = some row → row.status = .enqueued :=
  release_unnoticed_iff (.reading []) without polled 1000000 3000000 enqueues requeues job claimedJob [claimedJob]
    (.setWorkflowStatus "a" .enqueued none none) (by decide +kernel) (by decide +kernel) (by decide +kernel)
    (by decide +kernel)

/-- The job is released at once and keeps the claim's version, deadline and start; it is cancelled before the
release and waits on the queue again. -/
theorem release_noticed :
    let claimed := (dequeueWorkflows 1000000 (asking without polled) (run (.reading []) enqueues Inner.new)).2
    let released := step (.reading []) claimed (2000000, .setWorkflowStatus "a" .enqueued none none)
    let cancelled := step (.reading []) claimed (2000000, .setWorkflowStatus "a" .cancelled none none)
    let revived := step (.reading []) cancelled (3000000, .setWorkflowStatus "a" .enqueued none none)
    ¬ Unnoticed job claimedJob (claimed.workflows.get "a") (released.workflows.get "a") ∧
      ¬ Unnoticed job claimedJob (cancelled.workflows.get "a") (revived.workflows.get "a") := by
  intro claimed released cancelled revived
  constructor
  · intro unnoticed
    obtain ⟨row, after, -, unstarted⟩ := unnoticed.restored (by decide +kernel)
    have started : (released.workflows.get "a").map (·.startedAtMs) = some (some 1) := by decide +kernel
    rw [after, Option.map_some, unstarted] at started
    cases started
  · intro unnoticed
    have found : cancelled.workflows.get "a" = some { claimedJob with
        status := .cancelled, updatedAt := 2000000, completedAtMs := some 2 } := by decide +kernel
    obtain ⟨row, after, same⟩ := unnoticed.spared _ found (by decide +kernel)
    have revives : (revived.workflows.get "a").map (·.status) = some .enqueued := by decide +kernel
    rw [after, Option.map_some, ← same] at revives
    cases revives

end Durare.Release

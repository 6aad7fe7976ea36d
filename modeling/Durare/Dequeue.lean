import Durare.Rows
import Mathlib.Data.String.Basic

/-! One dequeue of the in-memory provider against its limits: which waiting rows it claims, in what
order, how many, and what it leaves alone. -/
namespace Durare.Dequeue

open Memory

def isPending (req : DequeueRequest) (w : WorkflowStatus) : Bool := onQueue req w && w.status == .pending

/-- A rate-limited start of the queue after the cutoff. -/
def isRecent (req : DequeueRequest) (cutoff : Int) (w : WorkflowStatus) : Bool :=
  onQueue req w && w.rateLimited && w.status != .enqueued && w.status != .delayed && w.startedAtMs.any (cutoff < ·)

def pendingCount (req : DequeueRequest) (s : Inner) : Nat := s.workflows.values.countP (isPending req)

def recentCount (req : DequeueRequest) (cutoff : Int) (s : Inner) : Nat :=
  s.workflows.values.countP (isRecent req cutoff)

def slotsLeft (req : DequeueRequest) (s : Inner) : Option Int :=
  req.globalConcurrency.map fun global => max (global - pendingCount req s) 0

def startsLeft (now : DateTime) (req : DequeueRequest) (s : Inner) : Option Int :=
  match req.rateLimitMax, req.rateLimitPeriodMs with
  | some limit, some period => some (max (limit - recentCount req (now.timestampMillis - period) s) 0)
  | _, _ => none

def cappedBy (n : Int) : Option Int → Int
  | some cap => min n cap
  | none => n

/-- The least of the request's bound and the caps that it has. -/
def allowance (now : DateTime) (req : DequeueRequest) (s : Inner) : Nat :=
  (cappedBy (cappedBy req.maxTasks (startsLeft now req s)) (slotsLeft req s)).toNat

/-- The differences that a dequeue computes fit in 64 bits. -/
def Fits (now : DateTime) (req : DequeueRequest) (s : Inner) : Prop :=
  (∀ global ∈ req.globalConcurrency, asI64 (global - pendingCount req s) = global - pendingCount req s) ∧
  ∀ limit ∈ req.rateLimitMax, ∀ period ∈ req.rateLimitPeriodMs,
    asI64 (now.timestampMillis - period) = now.timestampMillis - period ∧
    asI64 (limit - recentCount req (now.timestampMillis - period) s) =
      limit - recentCount req (now.timestampMillis - period) s

instance (now : DateTime) (req : DequeueRequest) (s : Inner) : Decidable (Fits now req s) :=
  inferInstanceAs (Decidable (_ ∧ _))

theorem dequeueLimit_eq (now : DateTime) (req : DequeueRequest) (s : Inner) :
    dequeueLimit now req s =
      let byRate := match req.rateLimitMax, req.rateLimitPeriodMs with
        | some limit, some period =>
          min req.maxTasks (max (asI64 (limit - recentCount req (asI64 (now.timestampMillis - period)) s)) 0)
        | _, _ => req.maxTasks
      match req.globalConcurrency with
      | some global => min byRate (max (asI64 (global - pendingCount req s)) 0)
      | none => byRate := rfl

theorem dequeueLimit_allowance {now : DateTime} {req : DequeueRequest} {s : Inner} (fits : Fits now req s) :
    (dequeueLimit now req s).toNat = allowance now req s := by
  obtain ⟨global, rate⟩ := fits
  have byRate : (match req.rateLimitMax, req.rateLimitPeriodMs with
      | some limit, some period =>
        min req.maxTasks (max (asI64 (limit - recentCount req (asI64 (now.timestampMillis - period)) s)) 0)
      | _, _ => req.maxTasks) = cappedBy req.maxTasks (startsLeft now req s) := by
    unfold startsLeft
    split
    next limit period max_ window =>
      obtain ⟨cutoff, left⟩ := rate limit max_ period window
      rw [cutoff, left]
      rfl
    · rfl
  rw [dequeueLimit_eq, byRate, allowance, slotsLeft]
  cases cap : req.globalConcurrency with
  | none => rfl
  | some cap' =>
    dsimp only
    rw [global cap' cap]
    rfl

/-- `a` is claimed before `b`. -/
def Ahead (a b : WorkflowStatus) : Prop := queueOrder a b ∧ a.id ≠ b.id

instance : DecidableRel Ahead := fun _ _ => inferInstanceAs (Decidable (_ ∧ _))

instance : Std.Total queueOrder where
  total a b := by
    unfold queueOrder
    rcases lt_trichotomy a.priority b.priority with low | same | high
    · exact .inl (.inl low)
    · rcases lt_trichotomy a.createdAt.timestampMillis b.createdAt.timestampMillis with early | tied | late
      · exact .inl (.inr ⟨same, .inl early⟩)
      · rcases le_total a.id b.id with le | le
        · exact .inl (.inr ⟨same, .inr ⟨tied, le⟩⟩)
        · exact .inr (.inr ⟨same.symm, .inr ⟨tied.symm, le⟩⟩)
      · exact .inr (.inr ⟨same.symm, .inl late⟩)
    · exact .inr (.inl high)

instance : IsTrans WorkflowStatus queueOrder where
  trans a b c first second := by
    unfold queueOrder at *
    rcases first with low | ⟨same, early | ⟨tied, le⟩⟩ <;> rcases second with low' | ⟨same', early' | ⟨tied', le'⟩⟩
    · exact .inl (low.trans low')
    · exact .inl (same' ▸ low)
    · exact .inl (same' ▸ low)
    · exact .inl (same ▸ low')
    · exact .inr ⟨same.trans same', .inl (early.trans early')⟩
    · exact .inr ⟨same.trans same', .inl (tied' ▸ early)⟩
    · exact .inl (same ▸ low')
    · exact .inr ⟨same.trans same', .inl (tied ▸ early')⟩
    · exact .inr ⟨same.trans same', .inr ⟨tied.trans tied', le.trans le'⟩⟩

def eligible (req : DequeueRequest) (s : Inner) : List WorkflowStatus :=
  s.workflows.values.filter (claimable req (isLatest req s))

/-- What a dequeue that claims `rows` does: it hands out the first eligible rows, as many as the caps
leave, and changes nothing else. -/
structure Dispatched (now : DateTime) (req : DequeueRequest) (s : Inner) (answer : Answer (List WorkflowStatus))
    (rows : List WorkflowStatus) : Prop where
  ordered : rows.Pairwise Ahead
  stored : ∀ row ∈ rows, s.workflows.get row.id = some row ∧ row ∈ eligible req s
  first : ∀ other ∈ eligible req s, other ∉ rows → ∀ row ∈ rows, Ahead row other
  count : rows.length = min (allowance now req s) (eligible req s).length
  handed : answer.1 = .ok (rows.map (claimRow now req))
  claimed : ∀ row ∈ rows, answer.2.workflows.get row.id = some (claimRow now req row)
  unclaimed : ∀ id, (∀ row ∈ rows, row.id ≠ id) → answer.2.workflows.get id = s.workflows.get id
  elsewhere : answer.2 = { s with workflows := answer.2.workflows }
  deadline : ∀ row ∈ rows, ∀ deadline, row.deadlineMs = some deadline →
    (claimRow now req row).deadlineMs = some deadline
  capped : ∀ global, req.globalConcurrency = some global →
    (pendingCount req answer.2 : Int) ≤ max (pendingCount req s : Int) global

section Dispatch

variable {now : DateTime} {req : DequeueRequest} {s : Inner}

def firstRows (limit : Nat) (req : DequeueRequest) (s : Inner) : List WorkflowStatus :=
  ((eligible req s).insertionSort queueOrder).take limit

theorem dequeueCandidates_eq (now : DateTime) (req : DequeueRequest) (s : Inner) :
    dequeueCandidates now req s = (firstRows (dequeueLimit now req s).toNat req s).map (·.id) := by
  unfold dequeueCandidates firstRows eligible
  dsimp only
  split
  next none => simp [Int.toNat_of_nonpos none]
  next some => rw [List.map_take]

theorem mem_eligible {row : WorkflowStatus} (keyed : Keyed s) (member : row ∈ eligible req s) :
    s.workflows.get row.id = some row := by
  rw [eligible, List.mem_filter] at member
  obtain ⟨key, stored⟩ := (Table.mem_values s.workflows row).mp member.1
  rwa [keyed key row stored]

theorem mem_firstRows {limit : Nat} {row : WorkflowStatus} (member : row ∈ firstRows limit req s) :
    row ∈ eligible req s := by
  have sorted := List.mem_of_mem_take member
  rwa [List.mem_insertionSort] at sorted

theorem eligible_onQueue {row : WorkflowStatus} (member : row ∈ eligible req s) : onQueue req row = true := by
  rw [eligible, List.mem_filter, claimable, Bool.and_eq_true, Bool.and_eq_true] at member
  exact member.2.1.1

/-- Eligible rows with one id are one row. -/
theorem eligible_id_inj {row other : WorkflowStatus} (keyed : Keyed s) (here : row ∈ eligible req s)
    (there : other ∈ eligible req s) (same : row.id = other.id) : row = other := by
  have stored := mem_eligible keyed here
  rw [same, mem_eligible keyed there] at stored
  exact (Option.some.inj stored).symm

theorem sorted_ahead (keyed : Keyed s) : ((eligible req s).insertionSort queueOrder).Pairwise Ahead := by
  have ordered := List.pairwise_insertionSort queueOrder (eligible req s)
  have waiting : ((eligible req s).map (·.id)).Nodup := keyed.nodup_ids.sublist (List.filter_sublist.map _)
  have distinct := ((List.perm_insertionSort queueOrder (eligible req s)).map (·.id)).nodup_iff.mpr waiting
  exact ordered.and (List.pairwise_map.mp distinct)

theorem firstRows_first {limit : Nat} (keyed : Keyed s) {other : WorkflowStatus} (waits : other ∈ eligible req s)
    (passed : other ∉ firstRows limit req s) {row : WorkflowStatus} (taken : row ∈ firstRows limit req s) :
    Ahead row other := by
  have sorted : ((eligible req s).insertionSort queueOrder).Pairwise Ahead := sorted_ahead keyed
  rw [← List.take_append_drop limit ((eligible req s).insertionSort queueOrder), List.pairwise_append] at sorted
  have rest : other ∈ ((eligible req s).insertionSort queueOrder).drop limit := by
    rw [← List.mem_insertionSort queueOrder, ← List.take_append_drop limit (List.insertionSort _ _),
      List.mem_append] at waits
    exact waits.resolve_left passed
  exact sorted.2.2 row taken other rest

theorem mem_candidates (keyed : Keyed s) {row : WorkflowStatus} (waits : row ∈ eligible req s) :
    row.id ∈ dequeueCandidates now req s ↔ row ∈ firstRows (dequeueLimit now req s).toNat req s := by
  rw [dequeueCandidates_eq, List.mem_map]
  constructor
  · rintro ⟨other, taken, same⟩
    rwa [← eligible_id_inj keyed (mem_firstRows taken) waits same]
  · intro taken
    exact ⟨row, taken, rfl⟩

theorem dequeueWorkflows_get (now : DateTime) (req : DequeueRequest) (s : Inner) (id : String) :
    (dequeueWorkflows now req s).2.workflows.get id =
      if id ∈ dequeueCandidates now req s then (s.workflows.get id).map (claimRow now req) else s.workflows.get id :=
  Table.get_foldl_modify _ (claimRow_idem now req) ..

theorem dequeueWorkflows_claimed (keyed : Keyed s) {row : WorkflowStatus}
    (taken : row ∈ firstRows (dequeueLimit now req s).toNat req s) :
    (dequeueWorkflows now req s).2.workflows.get row.id = some (claimRow now req row) := by
  have waits := mem_firstRows taken
  rw [dequeueWorkflows_get, if_pos ((mem_candidates keyed waits).mpr taken), mem_eligible keyed waits]
  rfl

theorem dequeueWorkflows_handed (keyed : Keyed s) :
    (dequeueWorkflows now req s).1 =
      .ok ((firstRows (dequeueLimit now req s).toNat req s).map (claimRow now req)) := by
  have rows : (dequeueWorkflows now req s).1 =
      .ok ((dequeueCandidates now req s).filterMap (dequeueWorkflows now req s).2.workflows.get) := rfl
  rw [rows, dequeueCandidates_eq, List.filterMap_map, ← List.filterMap_eq_map]
  congr 1
  apply List.filterMap_congr
  intro row taken
  exact dequeueWorkflows_claimed keyed taken

/-- A claim adds at most its own rows to the PENDING ones. -/
theorem dequeueWorkflows_pending (now : DateTime) (req : DequeueRequest) (s : Inner) :
    pendingCount req (dequeueWorkflows now req s).2 ≤ (dequeueCandidates now req s).length + pendingCount req s := by
  apply Table.countP_values_le
  intro id row stored pending
  rw [dequeueWorkflows_get] at stored
  split at stored
  next taken => exact .inl taken
  next => exact .inr ⟨row, stored, pending⟩

theorem allowance_le (now : DateTime) (s : Inner) {global : Int} (cap : req.globalConcurrency = some global) :
    (allowance now req s : Int) ≤ max (global - pendingCount req s) 0 := by
  unfold allowance slotsLeft
  rw [cap]
  simp only [Option.map_some, cappedBy]
  omega

theorem dequeue_dispatched (keyed : Keyed s) (fits : Fits now req s) :
    Dispatched now req s (dequeueWorkflows now req s) (firstRows (allowance now req s) req s) := by
  have limit := dequeueLimit_allowance fits
  have many : (firstRows (allowance now req s) req s).length = min (allowance now req s) (eligible req s).length := by
    rw [firstRows, List.length_take, List.length_insertionSort]
  constructor
  case ordered => exact (sorted_ahead keyed).sublist (List.take_sublist ..)
  case stored => exact fun row taken => ⟨mem_eligible keyed (mem_firstRows taken), mem_firstRows taken⟩
  case first => exact fun other waits passed row taken => firstRows_first keyed waits passed taken
  case count => exact many
  case handed => rw [dequeueWorkflows_handed keyed, limit]
  case claimed =>
    intro row taken
    exact dequeueWorkflows_claimed keyed (by rwa [limit])
  case unclaimed =>
    intro id passed
    rw [dequeueWorkflows_get, dequeueCandidates_eq, limit, if_neg]
    intro taken
    obtain ⟨row, member, same⟩ := List.mem_map.mp taken
    exact passed row member same
  case elsewhere => rfl
  case deadline =>
    intro row taken deadline set
    rw [claimRow, set]
    rfl
  case capped =>
    intro global cap
    have after := dequeueWorkflows_pending now req s
    rw [dequeueCandidates_eq, List.length_map, limit, many] at after
    have room := allowance_le now s cap
    omega

end Dispatch

section Runs

def dequeueRequest : Call → Option DequeueRequest
  | .dequeueWorkflows req => some req
  | _ => none

def FitsAt (s : Inner) (event : DateTime × Call) : Prop := ∀ req ∈ dequeueRequest event.2, Fits event.1 req s

instance (s : Inner) (event : DateTime × Call) : Decidable (FitsAt s event) :=
  inferInstanceAs (Decidable (∀ req ∈ dequeueRequest event.2, Fits event.1 req s))

def Enqueued (id : String) (s : Inner) : Prop := ∃ row, s.workflows.get id = some row ∧ row.status = .enqueued

/-- The dequeue hands the workflow to its caller. -/
def Hands (now : DateTime) (req : DequeueRequest) (s : Inner) (id : String) : Prop :=
  ∃ rows, (dequeueWorkflows now req s).1 = .ok rows ∧ id ∈ rows.map (·.id)

/-- Every dequeue of the run claims the first eligible rows that its caps leave, and between two
dequeues that hand out one workflow it has become ENQUEUED again. -/
structure Respected (lib : SerdeJson) (events : List (DateTime × Call)) : Prop where
  dispatched : ∀ before now req after, events = before ++ (now, .dequeueWorkflows req) :: after →
    ∃ rows, Dispatched now req (run lib before Inner.new) (dequeueWorkflows now req (run lib before Inner.new)) rows
  once : ∀ before now req middle now' req' after id,
    events = before ++ (now, .dequeueWorkflows req) :: (middle ++ (now', .dequeueWorkflows req') :: after) →
    Hands now req (run lib before Inner.new) id →
    Hands now' req' (run lib (before ++ (now, .dequeueWorkflows req) :: middle) Inner.new) id →
    ∃ first event last, middle = first ++ event :: last ∧
      ¬ Enqueued id (run lib (before ++ (now, .dequeueWorkflows req) :: first) Inner.new) ∧
      Enqueued id (run lib (before ++ (now, .dequeueWorkflows req) :: first ++ [event]) Inner.new)

variable {now : DateTime} {req : DequeueRequest} {s : Inner} {id : String}

theorem reached_keyed (lib : SerdeJson) (events : List (DateTime × Call)) : Keyed (run lib events Inner.new) := by
  have reached : Reachable lib (run lib events Inner.new) := ⟨events, rfl⟩
  exact reached.keyed

theorem Hands.candidate (keyed : Keyed s) (hands : Hands now req s id) : id ∈ dequeueCandidates now req s := by
  obtain ⟨rows, answer, member⟩ := hands
  rw [dequeueWorkflows_handed keyed] at answer
  cases answer
  rw [List.map_map] at member
  rw [dequeueCandidates_eq]
  exact member

theorem Hands.enqueued (keyed : Keyed s) (hands : Hands now req s id) :
    Enqueued id s ∧ ¬ Enqueued id (dequeueWorkflows now req s).2 := by
  have member := hands.candidate keyed
  obtain ⟨row, stored, -⟩ := dequeueCandidates_claimable keyed member
  refine ⟨⟨row, stored, dequeueCandidates_enqueued keyed stored member⟩, ?_⟩
  rintro ⟨after, there, waits⟩
  rw [dequeueWorkflows_get, if_pos member, stored] at there
  cases there
  cases waits

/-- In every run whose dequeues compute without overflow, each respects its limits and the order of
the queue. -/
theorem limits_respected (lib : SerdeJson) (events : List (DateTime × Call))
    (fits : Runs.Along (step lib) FitsAt events Inner.new) : Respected lib events where
  dispatched := by
    rintro before now req after rfl
    rw [Runs.along_append, Runs.along_cons] at fits
    exact ⟨_, dequeue_dispatched (reached_keyed lib before) (fits.2.1 req rfl)⟩
  once := by
    rintro before now req middle now' req' after id - hands hands'
    have start := (hands.enqueued (reached_keyed lib before)).2
    have finish := (hands'.enqueued (reached_keyed lib _)).1
    have split : ∀ rest, run lib (before ++ (now, .dequeueWorkflows req) :: rest) Inner.new =
        run lib rest (dequeueWorkflows now req (run lib before Inner.new)).2 := fun rest => Runs.run_append ..
    rw [split] at finish
    obtain ⟨first, event, last, rfl, waiting, woken⟩ := Runs.turned start finish
    refine ⟨first, event, last, rfl, ?_, ?_⟩
    · rwa [split]
    · rw [List.append_assoc, List.cons_append, split, run, Runs.run_append]
      exact woken

/-- `a` runs on the queue when two more rows wait there; it is released and claimed again. -/
def busyQueue : List (DateTime × Call) :=
  let waiting id priority : WorkflowStatus :=
    { WorkflowStatus.new 0 id "job" .null .enqueued "" "v1" with queueName := some "q", priority := priority }
  let req : DequeueRequest :=
    { queueName := "q", executorId := "e1", appVersion := "v1", maxTasks := 10, globalConcurrency := some 1,
      rateLimitMax := some 2, rateLimitPeriodMs := some 100 }
  [(0, .insertWorkflowStatus (waiting "b" 2)), (1, .insertWorkflowStatus (waiting "a" 1)),
    (2, .dequeueWorkflows req), (3, .dequeueWorkflows req), (4, .setWorkflowStatus "a" .enqueued none none),
    (5, .dequeueWorkflows req)]

theorem limits_respected_busyQueue :
    Respected (.reading []) busyQueue ∧
      (run (.reading []) busyQueue Inner.new).workflows.values.countP (·.status == .pending) = 1 :=
  ⟨limits_respected _ _ (by decide +kernel), by decide +kernel⟩

/-- A queue whose global cap is the least 64-bit integer, with one row resumed and one that waits. -/
def leastCap : List (DateTime × Call) :=
  let waiting id : WorkflowStatus :=
    { WorkflowStatus.new 0 id "job" .null .enqueued "" "v1" with queueName := some "q" }
  [(0, .insertWorkflowStatus (waiting "a")), (1, .resumeWorkflow "a"), (2, .insertWorkflowStatus (waiting "b"))]

def leastCapRequest : DequeueRequest where
  queueName := "q"
  executorId := "e1"
  appVersion := "v1"
  maxTasks := 10
  globalConcurrency := some (-2 ^ 63)

/-- The cap minus the running row wraps around, so the dequeue claims the other row as well. -/
theorem wrapped_cap_exceeded : ¬ Respected (.reading []) (leastCap ++ [(3, .dequeueWorkflows leastCapRequest)]) := by
  intro respected
  obtain ⟨rows, dispatched⟩ := respected.dispatched leastCap 3 leastCapRequest [] rfl
  have capped := dispatched.capped (-2 ^ 63) rfl
  revert capped
  decide +kernel

end Runs

end Durare.Dequeue

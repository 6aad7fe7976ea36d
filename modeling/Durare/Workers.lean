import Durare.Runs
import Durare.Starts

/-! The dispatcher of one queue and the runs it spawns. How many runs of a partition go on at once is
counted in the process: the loop reads the count before it asks for work and adds to it afterwards, and
each run takes itself off when its task is over. -/
namespace Durare.Workers

structure RateLimiter where
  limit : Int
  period : Duration
deriving DecidableEq, Repr

/-- What the dispatcher reads of a queue. -/
structure WorkflowQueue where
  name : String
  workerConcurrency : Option UInt64 := none
  globalConcurrency : Option Int := none
  rateLimit : Option RateLimiter := none
  maxTasksPerIteration : UInt64 := 100
  partitioned : Bool := false
deriving DecidableEq, Repr

def saturatingSub (a b : UInt64) : UInt64 := if b ≤ a then a - b else 0

def WorkflowQueue.maxTasks (queue : WorkflowQueue) (running : UInt64) : Int :=
  let free := match queue.workerConcurrency with
    | some wc => saturatingSub wc running
    | none => queue.maxTasksPerIteration
  asI64 (min free queue.maxTasksPerIteration).toNat

def WorkflowQueue.request (queue : WorkflowQueue) (rt : Runtime) (key : Option String) (maxTasks : Int) :
    DequeueRequest where
  queueName := queue.name
  executorId := rt.executorId
  appVersion := rt.appVersion
  partitionKey := key
  maxTasks := maxTasks
  globalConcurrency := queue.globalConcurrency
  rateLimitMax := queue.rateLimit.map (·.limit)
  rateLimitPeriodMs := queue.rateLimit.map (·.period.asMillis)

/-- Where the loop stands. Each of `listing`, `dequeuing` and `releasing` waits for the provider. -/
inductive Control where
  | polling
  | listing
  | visiting (keys : List (Option String))
  | dequeuing (key : Option String) (req : DequeueRequest) (keys : List (Option String))
  | claiming (key : Option String) (rows : List WorkflowStatus) (keys : List (Option String))
  | releasing (key : Option String) (rows : List WorkflowStatus) (keys : List (Option String))
  | spawning (key : Option String) (wf : WorkflowStatus) (rows : List WorkflowStatus) (keys : List (Option String))
  | sleeping
  | stopped
deriving DecidableEq, Repr

/-- A spawned task: the partition its guard counts for (`""` for a queue without partitions), its row, and
whether the handler is through. The task is over when the guard is dropped. -/
structure Run where
  part : String
  wf : WorkflowStatus
  through : Bool := false
deriving DecidableEq, Repr

structure State where
  control : Control := .polling
  counters : String → UInt64 := fun _ => 0
  runs : List Run := []

def add (counters : String → UInt64) (part : String) (n : UInt64) : String → UInt64 :=
  fun other => if other = part then counters other + n else counters other

inductive Signal where
  | transitioned
  | listed (answer : Except Error (List String))
  | dequeued (answer : Except Error (List WorkflowStatus))
  | released
  | advance
  | woke
  | cancelled
  | abandoned

/-- What happens to a task: its handler returns a value or an error or panics, or the task is dropped; a
handler that returned leaves the guard to the task's end. -/
inductive Ending where
  | returned
  | panicked
  | dropped
  | finished
deriving DecidableEq, Repr

inductive Event where
  | loop (signal : Signal)
  | task (place : Nat) (ending : Ending)

/-- `queue_dispatch_loop` from one point to the next. -/
def loopStep (rt : Runtime) (queue : WorkflowQueue) (s : State) (signal : Signal) : State :=
  match s.control, signal with
  | .polling, .transitioned =>
    { s with control := if queue.partitioned then .listing else .visiting [none] }
  | .listing, .listed (.ok keys) => { s with control := .visiting (keys.map some) }
  | .listing, .listed (.error _) => { s with control := .visiting [] }
  | .visiting [], .advance => { s with control := .sleeping }
  | .visiting (key :: keys), .advance =>
    let maxTasks := queue.maxTasks (s.counters (key.getD ""))
    { s with
      control := if maxTasks ≤ 0 then .visiting keys else .dequeuing key (queue.request rt key maxTasks) keys }
  | .dequeuing key _ keys, .dequeued (.ok rows) => { s with control := .claiming key rows keys }
  | .dequeuing _ _ keys, .dequeued (.error _) => { s with control := .visiting keys }
  | .claiming _ [] keys, .advance => { s with control := .visiting keys }
  | .claiming key (wf :: rows) keys, .advance =>
    if registryKey wf.name wf.configName ∈ rt.workflows then
      { s with counters := add s.counters (key.getD "") 1, control := .spawning key wf rows keys }
    else { s with control := .releasing key rows keys }
  | .releasing key rows keys, .released => { s with control := .claiming key rows keys }
  | .spawning key wf rows keys, .advance =>
    { s with runs := s.runs ++ [{ part := key.getD "", wf }], control := .claiming key rows keys }
  | .sleeping, .woke => { s with control := .polling }
  | .polling, .cancelled => { s with control := .stopped }
  | .sleeping, .cancelled => { s with control := .stopped }
  -- the loop's own task is dropped where it waits
  | .polling, .abandoned => { s with control := .stopped }
  | .listing, .abandoned => { s with control := .stopped }
  | .dequeuing _ _ _, .abandoned => { s with control := .stopped }
  | .releasing _ _ _, .abandoned => { s with control := .stopped }
  | .sleeping, .abandoned => { s with control := .stopped }
  | _, _ => s

/-- `RunningGuard::drop`: the task is over. -/
def letGo (s : State) (place : Nat) (run : Run) : State :=
  { s with counters := add s.counters run.part (-1), runs := s.runs.eraseIdx place }

def taskStep (s : State) (place : Nat) (ending : Ending) : State :=
  match s.runs[place]? with
  | none => s
  | some run =>
    match ending with
    | .returned => { s with runs := s.runs.set place { run with through := true } }
    | .panicked => if run.through then s else letGo s place run
    | .finished => if run.through then letGo s place run else s
    | .dropped => letGo s place run

def next (rt : Runtime) (queue : WorkflowQueue) (s : State) : Event → State
  | .loop signal => loopStep rt queue s signal
  | .task place ending => taskStep s place ending

/-- What the provider keeps to: a dequeue hands out no more rows than it was asked for. -/
def Within (s : State) (event : Event) : Bool :=
  match s.control, event with
  | .dequeuing _ req _, .loop (.dequeued (.ok rows)) => rows.length ≤ req.maxTasks
  | _, _ => true

/-- The runs of the partition that were spawned and are not over. -/
def State.unfinished (s : State) (part : String) : Nat := (s.runs.map (·.part)).count part

/-- The runs that the loop has still to spawn of what it asked for or was handed. -/
def Control.owed (part : String) : Control → Nat
  | .dequeuing key req _ => if key.getD "" = part then req.maxTasks.toNat else 0
  | .claiming key rows _ => if key.getD "" = part then rows.length else 0
  | .releasing key rows _ => if key.getD "" = part then rows.length else 0
  | .spawning key _ rows _ => if key.getD "" = part then rows.length + 1 else 0
  | _ => 0

def Control.begun (part : String) : Control → Nat
  | .spawning key _ _ _ => if key.getD "" = part then 1 else 0
  | _ => 0

def Control.midSpawn : Control → Bool
  | .spawning _ _ _ _ => true
  | _ => false

/-- Every counter is exact, and what is owed still fits under the bound. -/
structure Inv (bound : UInt64) (s : State) : Prop where
  counted : ∀ part, (s.counters part).toNat = s.unfinished part + s.control.begun part
  fits : ∀ part, s.unfinished part + s.control.owed part ≤ bound.toNat

variable {rt : Runtime} {queue : WorkflowQueue} {bound running : UInt64} {s : State}

theorem toNat_saturatingSub (a b : UInt64) : (saturatingSub a b).toNat = a.toNat - b.toNat := by
  unfold saturatingSub
  split
  next le => exact UInt64.toNat_sub_of_le a b le
  next more =>
    have : a.toNat < b.toNat := UInt64.lt_iff_toNat_lt.mp (UInt64.not_le.mp more)
    simp only [UInt64.toNat_zero]
    omega

theorem toNat_min_le (a b : UInt64) : (min a b).toNat ≤ a.toNat := by
  change (if a ≤ b then a else b).toNat ≤ a.toNat
  split
  · exact Nat.le_refl _
  next more => exact Nat.le_of_lt (UInt64.lt_iff_toNat_lt.mp (UInt64.not_le.mp more))

theorem maxTasks_free (capped : queue.workerConcurrency = some bound) :
    (queue.maxTasks running).toNat ≤ bound.toNat - running.toNat := by
  have least := toNat_min_le (saturatingSub bound running) queue.maxTasksPerIteration
  rw [toNat_saturatingSub] at least
  simp only [WorkflowQueue.maxTasks, capped]
  generalize (min (saturatingSub bound running) queue.maxTasksPerIteration).toNat = n at least
  have wrapped : asI64 (n : Int) ≤ n := by
    rw [asI64, Int.bmod_def]
    split <;> omega
  omega

@[simp] theorem add_same (counters : String → UInt64) (part : String) (n : UInt64) :
    add counters part n part = counters part + n := if_pos rfl

theorem add_other {counters : String → UInt64} {part other : String} {n : UInt64} (apart : other ≠ part) :
    add counters part n other = counters other := if_neg apart

theorem toNat_add_one {counter : UInt64} (room : counter.toNat < bound.toNat) :
    (counter + 1).toNat = counter.toNat + 1 := by
  have below := bound.toNat_lt
  rw [UInt64.toNat_add, UInt64.toNat_one, Nat.mod_eq_of_lt (by omega)]

theorem toNat_sub_one {counter : UInt64} (some_ : 0 < counter.toNat) : (counter + -1).toNat = counter.toNat - 1 := by
  have below := counter.toNat_lt
  have wrapped : (-1 : UInt64).toNat = 2 ^ 64 - 1 := by decide
  rw [UInt64.toNat_add, wrapped]
  omega

theorem unfinished_spawn (s : State) (run : Run) (part : String) :
    ({ s with runs := s.runs ++ [run] } : State).unfinished part =
      s.unfinished part + if run.part = part then 1 else 0 := by
  simp [State.unfinished, List.count_singleton, beq_eq_decide]

theorem count_eraseIdx {parts : List String} {place : Nat} {found : String} (there : parts[place]? = some found)
    (part : String) : (parts.eraseIdx place).count part + (if found = part then 1 else 0) = parts.count part := by
  induction parts generalizing place with
  | nil => simp at there
  | cons first rest ih =>
    cases place with
    | zero =>
      simp only [List.getElem?_cons_zero, Option.some.injEq] at there
      subst there
      simp [List.count_cons, beq_eq_decide]
    | succ place =>
      simp only [List.getElem?_cons_succ] at there
      simp only [List.eraseIdx_cons_succ, List.count_cons, ← ih there]
      omega

/-- A task that is over is no longer unfinished, and nothing else changes. -/
theorem unfinished_letGo {place : Nat} {run : Run} (there : s.runs[place]? = some run) (part : String) :
    (letGo s place run).unfinished part + (if run.part = part then 1 else 0) = s.unfinished part := by
  have found : (s.runs.map (·.part))[place]? = some run.part := by simp [there]
  simpa only [State.unfinished, letGo, List.eraseIdx_map] using count_eraseIdx found part

/-- A handler that returned leaves its task unfinished. -/
theorem unfinished_returned {place : Nat} {run : Run} (there : s.runs[place]? = some run) (part : String) :
    ({ s with runs := s.runs.set place { run with through := true } } : State).unfinished part = s.unfinished part := by
  have same : (s.runs.set place { run with through := true }).map (·.part) = s.runs.map (·.part) := by
    obtain ⟨below, found⟩ := List.getElem?_eq_some_iff.mp there
    refine List.ext_getElem (by simp) fun i _ _ => ?_
    by_cases at_ : place = i
    · subst at_
      simp [found]
    · simp [at_]
  simp only [State.unfinished, same]

theorem letGo_inv {place : Nat} {run : Run} (inv : Inv bound s) (there : s.runs[place]? = some run) :
    Inv bound (letGo s place run) := by
  have gone := unfinished_letGo there
  constructor
  · intro part
    have left := gone part
    have exact_ := inv.counted part
    by_cases same : part = run.part
    · subst same
      simp only [if_true] at left
      have one : 0 < (s.counters run.part).toNat := by omega
      simp only [letGo, add_same, toNat_sub_one one] at left ⊢
      omega
    · rw [if_neg (Ne.symm same)] at left
      simp only [letGo, add_other same] at left ⊢
      omega
  · intro part
    have left := gone part
    have room := inv.fits part
    simp only [letGo] at left ⊢
    omega

theorem taskStep_inv (inv : Inv bound s) (place : Nat) (ending : Ending) : Inv bound (taskStep s place ending) := by
  unfold taskStep
  split
  · exact inv
  next run there =>
    have beyond := letGo_inv inv there
    cases ending with
    | returned =>
      have same := unfinished_returned there
      exact ⟨fun part => (inv.counted part).trans (by rw [same]), fun part => by simpa only [same] using inv.fits part⟩
    | panicked =>
      dsimp only
      split
      · exact inv
      · exact beyond
    | finished =>
      dsimp only
      split
      · exact beyond
      · exact inv
    | dropped => exact beyond

section Claims
variable {key : Option String} {wf : WorkflowStatus} {rows : List WorkflowStatus} {keys : List (Option String)}
  {counters : String → UInt64} {runs : List Run}

theorem loopStep_poll : loopStep rt queue ⟨.polling, counters, runs⟩ .transitioned =
    ⟨if queue.partitioned then .listing else .visiting [none], counters, runs⟩ := rfl

theorem loopStep_visit : loopStep rt queue ⟨.visiting (key :: keys), counters, runs⟩ .advance =
    let maxTasks := queue.maxTasks (counters (key.getD ""))
    ⟨if maxTasks ≤ 0 then .visiting keys else .dequeuing key (queue.request rt key maxTasks) keys, counters, runs⟩ :=
      rfl

theorem loopStep_claim : loopStep rt queue ⟨.claiming key (wf :: rows) keys, counters, runs⟩ .advance =
    if registryKey wf.name wf.configName ∈ rt.workflows then
      ⟨.spawning key wf rows keys, add counters (key.getD "") 1, runs⟩
    else ⟨.releasing key rows keys, counters, runs⟩ := rfl

/-- What is asked for fits beside the runs that were counted. -/
theorem visit_inv (capped : queue.workerConcurrency = some bound)
    (inv : Inv bound ⟨.visiting (key :: keys), counters, runs⟩) :
    Inv bound (loopStep rt queue ⟨.visiting (key :: keys), counters, runs⟩ .advance) := by
  have free : (queue.maxTasks (counters (key.getD ""))).toNat ≤ bound.toNat - (counters (key.getD "")).toNat :=
    maxTasks_free capped
  rw [loopStep_visit]
  dsimp only
  generalize queue.maxTasks (counters (key.getD "")) = maxTasks at free
  by_cases none_ : maxTasks ≤ 0
  · rw [if_pos none_]
    exact ⟨fun part => inv.counted part, fun part => inv.fits part⟩
  · rw [if_neg none_]
    refine ⟨fun part => inv.counted part, fun part => ?_⟩
    have exact_ := inv.counted part
    have room := inv.fits part
    simp only [Control.begun, Control.owed, WorkflowQueue.request, Nat.add_zero, State.unfinished] at exact_ room ⊢
    by_cases same : key.getD "" = part
    · subst same
      rw [if_pos rfl]
      omega
    · rw [if_neg same]
      exact room

theorem count_inv (inv : Inv bound ⟨.claiming key (wf :: rows) keys, counters, runs⟩) :
    Inv bound ⟨.spawning key wf rows keys, add counters (key.getD "") 1, runs⟩ := by
  constructor
  · intro part
    have exact_ := inv.counted part
    have room := inv.fits part
    simp only [Control.begun, Control.owed, State.unfinished, List.length_cons] at exact_ room ⊢
    by_cases same : key.getD "" = part
    · rw [if_pos same] at room ⊢
      have below : (counters part).toNat < bound.toNat := by omega
      rw [same, add_same, toNat_add_one below]
      omega
    · rw [if_neg same, add_other (Ne.symm same)]
      exact exact_
  · exact inv.fits

theorem spawn_inv (inv : Inv bound ⟨.spawning key wf rows keys, counters, runs⟩) :
    Inv bound ⟨.claiming key rows keys, counters, runs ++ [{ part := key.getD "", wf }]⟩ := by
  have more := unfinished_spawn ⟨.claiming key rows keys, counters, runs⟩ { part := key.getD "", wf }
  constructor
  · intro part
    have exact_ := inv.counted part
    rw [more]
    simpa only [Control.begun, State.unfinished, Nat.add_zero] using exact_
  · intro part
    have room := inv.fits part
    rw [more]
    simp only [Control.owed, State.unfinished] at room ⊢
    by_cases same : key.getD "" = part
    · simp only [if_pos same] at room ⊢
      omega
    · simp only [if_neg same] at room ⊢
      omega

end Claims

theorem loopStep_inv (capped : queue.workerConcurrency = some bound) (inv : Inv bound s) {signal : Signal}
    (within : Within s (.loop signal) = true) : Inv bound (loopStep rt queue s signal) := by
  obtain ⟨counted, fits⟩ := inv
  rcases s with ⟨control, counters, runs⟩
  have quiet (control' : Control) (begun : ∀ part, control'.begun part = control.begun part)
      (owed : ∀ part, control'.owed part ≤ control.owed part) : Inv bound ⟨control', counters, runs⟩ :=
    ⟨fun part => (counted part).trans (congrArg _ (begun part).symm),
      fun part => Nat.le_trans (Nat.add_le_add_left (owed part) _) (fits part)⟩
  have still : Inv bound ⟨control, counters, runs⟩ := ⟨counted, fits⟩
  have stop (idle : ∀ part, control.begun part = 0) : Inv bound ⟨.stopped, counters, runs⟩ :=
    quiet _ (fun part => (idle part).symm) fun _ => Nat.zero_le _
  cases control with
  | polling =>
    cases signal with
    | transitioned =>
      refine quiet _ ?_ ?_ <;> intro part <;> split <;> simp [Control.begun, Control.owed]
    | cancelled => exact stop fun _ => rfl
    | abandoned => exact stop fun _ => rfl
    | _ => exact still
  | listing =>
    cases signal with
    | listed answer => cases answer <;> exact quiet _ (fun _ => rfl) fun _ => Nat.le_refl _
    | abandoned => exact stop fun _ => rfl
    | _ => exact still
  | visiting keys =>
    cases signal with
    | advance =>
      cases keys with
      | nil => exact quiet _ (fun _ => rfl) fun _ => Nat.le_refl _
      | cons key keys => exact visit_inv capped still
    | _ => cases keys <;> exact still
  | dequeuing key req keys =>
    cases signal with
    | dequeued answer =>
      cases answer with
      | error e => exact quiet _ (fun _ => rfl) fun _ => Nat.zero_le _
      | ok rows =>
        have most : (rows.length : Int) ≤ req.maxTasks := of_decide_eq_true within
        refine quiet _ (fun _ => rfl) fun part => ?_
        simp only [Control.owed]
        split <;> omega
    | abandoned => exact stop fun _ => rfl
    | _ => exact still
  | claiming key rows keys =>
    cases signal with
    | advance =>
      cases rows with
      | nil => exact quiet _ (fun _ => rfl) fun _ => Nat.zero_le _
      | cons wf rows =>
        rw [loopStep_claim]
        split
        · exact count_inv still
        · refine quiet _ (fun _ => rfl) fun part => ?_
          simp only [Control.owed, List.length_cons]
          split <;> omega
    | _ => cases rows <;> exact still
  | releasing key rows keys =>
    cases signal with
    | released => exact quiet _ (fun _ => rfl) fun _ => Nat.le_refl _
    | abandoned => exact stop fun _ => rfl
    | _ => exact still
  | spawning key wf rows keys =>
    cases signal with
    | advance => exact spawn_inv still
    | _ => exact still
  | sleeping =>
    cases signal with
    | woke => exact quiet _ (fun _ => rfl) fun _ => Nat.le_refl _
    | cancelled => exact stop fun _ => rfl
    | abandoned => exact stop fun _ => rfl
    | _ => exact still
  | stopped => cases signal <;> exact still

theorem next_inv (capped : queue.workerConcurrency = some bound) {event : Event} (within : Within s event = true)
    (inv : Inv bound s) : Inv bound (next rt queue s event) := by
  cases event with
  | loop signal => exact loopStep_inv capped inv within
  | task place ending => exact taskStep_inv inv place ending

/-- The partitions that the loop has still to do with. -/
def Control.keys : Control → List (Option String)
  | .visiting keys => keys
  | .dequeuing key _ keys => key :: keys
  | .claiming key _ keys => key :: keys
  | .releasing key _ keys => key :: keys
  | .spawning key _ _ keys => key :: keys
  | _ => []

/-- All passes are unscoped, and so all runs count for the same partition. -/
structure Whole (s : State) : Prop where
  listing : s.control ≠ .listing
  keys : ∀ key ∈ s.control.keys, key = none
  runs : ∀ run ∈ s.runs, run.part = ""

theorem loopStep_whole (unscoped : queue.partitioned = false) (whole : Whole s) (signal : Signal) :
    Whole (loopStep rt queue s signal) := by
  obtain ⟨listing, keys, runs⟩ := whole
  rcases s with ⟨control, counters, tasks⟩
  have still : Whole ⟨control, counters, tasks⟩ := ⟨listing, keys, runs⟩
  have move (control' : Control) (counters' : String → UInt64) (unlisted : control' ≠ .listing)
      (fewer : control'.keys ⊆ control.keys) : Whole ⟨control', counters', tasks⟩ :=
    ⟨unlisted, fun key has => keys key (fewer has), runs⟩
  have stop : Whole ⟨.stopped, counters, tasks⟩ := move _ _ (by simp) (List.nil_subset _)
  cases control with
  | polling =>
    cases signal with
    | transitioned =>
      rw [loopStep_poll, unscoped, if_neg Bool.false_ne_true]
      exact ⟨by simp, fun key has => List.mem_singleton.mp has, runs⟩
    | cancelled => exact stop
    | abandoned => exact stop
    | _ => exact still
  | listing => exact absurd rfl listing
  | visiting pending =>
    cases pending with
    | nil =>
      cases signal with
      | advance => exact move _ _ (by simp) (List.nil_subset _)
      | _ => exact still
    | cons key pending =>
      cases signal with
      | advance =>
        rw [loopStep_visit]
        dsimp only
        split
        · exact move _ _ (by simp) (List.subset_cons_self _ _)
        · exact move _ _ (by simp) (List.Subset.refl _)
      | _ => exact still
  | dequeuing key req pending =>
    cases signal with
    | dequeued answer =>
      cases answer with
      | error e => exact move _ _ (by simp) (List.subset_cons_self _ _)
      | ok rows => exact move _ _ (by simp) (List.Subset.refl _)
    | abandoned => exact stop
    | _ => exact still
  | claiming key rows pending =>
    cases rows with
    | nil =>
      cases signal with
      | advance => exact move _ _ (by simp) (List.subset_cons_self _ _)
      | _ => exact still
    | cons wf rows =>
      cases signal with
      | advance =>
        rw [loopStep_claim]
        split
        · exact move _ _ (by simp) (List.Subset.refl _)
        · exact move _ _ (by simp) (List.Subset.refl _)
      | _ => exact still
  | releasing key rows pending =>
    cases signal with
    | released => exact move _ _ (by simp) (List.Subset.refl _)
    | abandoned => exact stop
    | _ => exact still
  | spawning key wf rows pending =>
    cases signal with
    | advance =>
      have here : key = none := keys key List.mem_cons_self
      refine ⟨Control.noConfusion, keys, fun run has => ?_⟩
      rcases List.mem_append.mp has with old | new
      · exact runs run old
      · rw [List.mem_singleton.mp new, here]
        rfl
    | _ => exact still
  | sleeping =>
    cases signal with
    | woke => exact move _ _ (by simp) (List.nil_subset _)
    | cancelled => exact stop
    | abandoned => exact stop
    | _ => exact still
  | stopped => cases signal <;> exact still

theorem taskStep_whole (whole : Whole s) (place : Nat) (ending : Ending) : Whole (taskStep s place ending) := by
  obtain ⟨listing, keys, runs⟩ := whole
  have still : Whole s := ⟨listing, keys, runs⟩
  have beyond (run : Run) : Whole (letGo s place run) :=
    ⟨listing, keys, fun other has => runs other (List.mem_of_mem_eraseIdx has)⟩
  unfold taskStep
  split
  · exact still
  next run there =>
    cases ending with
    | returned =>
      refine ⟨listing, keys, fun other has => ?_⟩
      rcases List.mem_or_eq_of_mem_set has with old | new
      · exact runs other old
      · rw [new]
        exact runs run (List.mem_of_getElem? there)
    | panicked =>
      dsimp only
      split
      · exact still
      · exact beyond run
    | finished =>
      dsimp only
      split
      · exact beyond run
      · exact still
    | dropped => exact beyond run

theorem next_whole (unscoped : queue.partitioned = false) (event : Event) (whole : Whole s) :
    Whole (next rt queue s event) := by
  cases event with
  | loop signal => exact loopStep_whole unscoped whole signal
  | task place ending => exact taskStep_whole whole place ending

/-- In every interleaving of the loop with the runs it spawned, no partition has more unfinished runs than the
queue's worker concurrency, nor has a queue without partitions, and the counter is their number unless the loop
has just counted a claim that it has not spawned yet. -/
theorem worker_concurrency_kept (rt : Runtime) (queue : WorkflowQueue) (bound : UInt64)
    (capped : queue.workerConcurrency = some bound) (events : List Event)
    (within : Runs.Along (next rt queue) (Within · · = true) events {}) :
    let s := Runs.run (next rt queue) events {}
    (∀ part, s.unfinished part ≤ bound.toNat ∧
      (s.control.midSpawn = false → (s.counters part).toNat = s.unfinished part)) ∧
    (queue.partitioned = false → s.unfinished "" = s.runs.length) := by
  intro s
  have start : Inv bound {} := ⟨fun _ => rfl, fun _ => Nat.zero_le _⟩
  have inv : Inv bound s := Runs.invariant (fun _ _ within inv => next_inv capped within inv) within start
  refine ⟨fun part => ⟨by have := inv.fits part; omega, fun outside => ?_⟩, fun unscoped => ?_⟩
  · have idle : s.control.begun part = 0 := by
      cases at_ : s.control <;> simp_all [Control.midSpawn, Control.begun]
    rw [inv.counted part, idle]
    rfl
  · have whole : Whole s := Runs.invariant (fun _ event _ whole => next_whole unscoped event whole) within
      ⟨Control.noConfusion, fun _ has => absurd has List.not_mem_nil, fun _ has => absurd has List.not_mem_nil⟩
    have all : ∀ part ∈ s.runs.map (·.part), "" = part := by
      intro part has
      obtain ⟨run, there, rfl⟩ := List.mem_map.mp has
      exact (whole.runs run there).symm
    rw [State.unfinished, List.count_eq_length.mpr all, List.length_map]

/-- A queue that runs one workflow at a time. -/
def oneAtATime : WorkflowQueue := { name := "q", workerConcurrency := some 1 }

def worker : Runtime := { executorId := "e", appVersion := "v", workflows := ["w"], queues := ["q"] }

/-- Two iterations, the first of which claims a row whose handler panics later. -/
def twoIterations (row : WorkflowStatus) : List Event :=
  [.loop .transitioned, .loop .advance, .loop (.dequeued (.ok [row])), .loop .advance, .loop .advance, .loop .advance,
    .loop .advance, .loop .woke, .loop .transitioned, .loop .advance, .task 0 .panicked]

theorem one_at_a_time :
    let row := WorkflowStatus.new 0 "id" "w" .null .pending "e" "v"
    let s := Runs.run (next worker oneAtATime) (twoIterations row) {}
    (∀ part, s.unfinished part ≤ 1 ∧ (s.control.midSpawn = false → (s.counters part).toNat = s.unfinished part)) ∧
    (oneAtATime.partitioned = false → s.unfinished "" = s.runs.length) :=
  worker_concurrency_kept worker oneAtATime 1 rfl (twoIterations _) (by decide)

end Durare.Workers

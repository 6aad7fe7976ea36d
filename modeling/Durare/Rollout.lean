import Durare.Memory
import Durare.Workers

/-! Engines of several application versions launch against one registry of versions and queues. -/
namespace Durare.Rollout

open Memory

/-- A queue as an engine registers it: what its dispatcher reads, and the rest. -/
structure RegisteredQueue extends Workers.WorkflowQueue where
  priorityEnabled : Bool := false
  basePollingInterval : Duration := 1000000000
  maxPollingInterval : Duration := 120000000000
deriving DecidableEq, Repr

/-- The columns of a SQL provider: two settings are not stored, and are read as their defaults. -/
def rowToQueue (queue : RegisteredQueue) : RegisteredQueue :=
  { queue with maxTasksPerIteration := 100, maxPollingInterval := 120000000000 }

def getLatestApplicationVersion (s : Inner) : Option VersionInfo :=
  minBy (fun v => -v.versionTimestamp) s.versions.values

inductive Stage where
  | registering
  | resolving
  | upserting (updateExisting : Bool) (todo : List RegisteredQueue)
  | launched (updateExisting : Bool)
deriving DecidableEq, Repr

structure Launch where
  appVersion : String
  queues : List RegisteredQueue
  stage : Stage := .registering
deriving DecidableEq, Repr

structure System where
  store : Inner
  queues : Table String RegisteredQueue
  launches : List Launch

/-- What a call of a launch meets. One that fails is only logged. -/
structure Input where
  now : DateTime := 0
  fresh : String := ""
  works : Bool := true
deriving DecidableEq, Repr

section Launches

-- What a provider keeps of a queue: the in-memory one everything, a SQL one its columns.
variable (kept : RegisteredQueue → RegisteredQueue)

def upsertQueue (queue : RegisteredQueue) (updateExisting : Bool) (queues : Table String RegisteredQueue) :
    Table String RegisteredQueue :=
  if updateExisting || (queues.get queue.name).isNone then queues.put queue.name (kept queue) else queues

def attempt (input : Input) (l : Launch) (s : System) : Launch × System :=
  match l.stage with
  | .registering =>
    ({ l with stage := .resolving },
      if input.works then
        { s with store := (createApplicationVersion input.now l.appVersion input.fresh s.store).2 }
      else s)
  | .resolving =>
    let updateExisting :=
      if input.works then
        match getLatestApplicationVersion s.store with
        | some latest => latest.versionName == l.appVersion
        | none => true
      -- Unknown: no row is overwritten.
      else false
    ({ l with stage := .upserting updateExisting (l.queues.filter fun queue => queue.name != INTERNAL_QUEUE) }, s)
  | .upserting updateExisting (queue :: todo) =>
    ({ l with stage := .upserting updateExisting todo },
      if input.works then { s with queues := upsertQueue kept queue updateExisting s.queues } else s)
  | .upserting updateExisting [] => ({ l with stage := .launched updateExisting }, s)
  | .launched _ => (l, s)

inductive Event where
  | launch (appVersion : String) (queues : List RegisteredQueue)
  | tick (i : Nat) (input : Input)
  | setLatest (now : DateTime) (name : String)

def next (s : System) : Event → System
  | .launch appVersion queues => { s with launches := s.launches ++ [{ appVersion := appVersion, queues := queues }] }
  | .tick i input =>
    match s.launches[i]? with
    | none => s
    | some l => { (attempt kept input l s).2 with launches := s.launches.set i (attempt kept input l s).1 }
  | .setLatest now name => { s with store := (setLatestApplicationVersion now name s.store).2 }

abbrev run (events : List Event) (s : System) : System := Runs.run (next kept) events s

def latestName (s : System) : Option String := (getLatestApplicationVersion s.store).map (·.versionName)

/-- What a launch has left to write is its own, and it overwrites rows only where it is of the version. -/
def Launch.Sound (w : String) (l : Launch) : Prop :=
  ∀ u todo, l.stage = .upserting u todo → todo ⊆ l.queues ∧ (u = true → l.appVersion = w)

/-- The version is the latest, and no launch of another one is about to overwrite rows. -/
structure Settled (w : String) (s : System) : Prop where
  latest : latestName s = some w
  sound : ∀ l ∈ s.launches, l.Sound w

/-- The row of the queue is one that a launch of the version has registered. -/
def Declares (w : String) (s : System) (name : String) : Prop :=
  ∃ l ∈ s.launches, l.appVersion = w ∧ ∃ queue ∈ l.queues, queue.name = name ∧ s.queues.get name = some (kept queue)

/-- The event leaves the version the latest, and a call of the launch works. -/
def Quiet (w : String) (i : Nat) (s : System) (event : Event) : Prop :=
  latestName (next kept s event) = some w ∧ ∀ input, event = .tick i input → input.works = true

variable {kept} {w : String} {s : System}

variable (kept) in
theorem attempt_same (input : Input) (l : Launch) (s : System) :
    (attempt kept input l s).1.appVersion = l.appVersion ∧ (attempt kept input l s).1.queues = l.queues := by
  unfold attempt
  split <;> exact ⟨rfl, rfl⟩

variable (kept) in
/-- A launch resolves to overwrite rows only where it is of the latest version. -/
theorem attempt_resolves (input : Input) {l : Launch} (latest : latestName s = some w) (here : l.stage = .resolving) :
    ∃ u, (attempt kept input l s).1.stage =
        .upserting u (l.queues.filter fun queue => queue.name != INTERNAL_QUEUE) ∧
      (u = true → l.appVersion = w) ∧ (input.works = true → l.appVersion = w → u = true) := by
  obtain ⟨info, found, named⟩ := Option.map_eq_some_iff.mp latest
  refine ⟨input.works && info.versionName == l.appVersion, ?_, ?_, ?_⟩
  · simp only [attempt, here, found]
    cases input.works <;> rfl
  · intro chosen
    rw [Bool.and_eq_true, beq_iff_eq] at chosen
    exact chosen.2.symm.trans named
  · intro works version
    rw [works, version, Bool.true_and, beq_iff_eq]
    exact named

theorem attempt_sound (input : Input) {l : Launch} (latest : latestName s = some w) (sound : l.Sound w) :
    (attempt kept input l s).1.Sound w := by
  obtain ⟨version, queues⟩ := attempt_same kept input l s
  intro u todo here
  rw [version, queues]
  cases stage : l.stage with
  | registering => simp [attempt, stage] at here
  | resolving =>
    obtain ⟨u', next, current, -⟩ := attempt_resolves kept input latest stage
    rw [next] at here
    cases here
    exact ⟨fun queue member => (List.mem_filter.mp member).1, current⟩
  | upserting u' rest =>
    obtain ⟨inside, current⟩ := sound u' rest stage
    cases rest with
    | nil => simp [attempt, stage] at here
    | cons queue rest =>
      simp only [attempt, stage, Stage.upserting.injEq] at here
      obtain ⟨rfl, rfl⟩ := here
      exact ⟨fun other member => inside (List.mem_cons_of_mem queue member), current⟩
  | launched u' => simp [attempt, stage] at here

variable (kept) in
/-- A call leaves the rows of queues, or writes the next one that the launch has to. -/
theorem attempt_queues (input : Input) (l : Launch) (s : System) :
    (attempt kept input l s).2.queues = s.queues ∨
    ∃ u queue todo, l.stage = .upserting u (queue :: todo) ∧
      (attempt kept input l s).2.queues = upsertQueue kept queue u s.queues := by
  unfold attempt
  split
  · split <;> exact .inl rfl
  · exact .inl rfl
  next u queue todo here =>
    split
    · exact .inr ⟨u, queue, todo, here, rfl⟩
    · exact .inl rfl
  · exact .inl rfl
  · exact .inl rfl

theorem upsertQueue_get (queue : RegisteredQueue) (u : Bool) (queues : Table String RegisteredQueue) (name : String) :
    (upsertQueue kept queue u queues).get name =
      if name = queue.name ∧ (u = true ∨ queues.get queue.name = none) then some (kept queue) else queues.get name := by
  unfold upsertQueue
  cases u <;> cases held : queues.get queue.name <;> by_cases same : name = queue.name <;> simp [held, same]

variable (kept) in
/-- Launches stay, with their versions and queues. -/
theorem next_keeps (event : Event) {l : Launch} (member : l ∈ s.launches) :
    ∃ l' ∈ (next kept s event).launches, l'.appVersion = l.appVersion ∧ l'.queues = l.queues := by
  cases event with
  | setLatest now name => exact ⟨l, member, rfl, rfl⟩
  | launch appVersion queues => exact ⟨l, List.mem_append_left _ member, rfl, rfl⟩
  | tick i input =>
    simp only [next]
    cases found : s.launches[i]? with
    | none => exact ⟨l, member, rfl, rfl⟩
    | some m =>
      obtain ⟨k, here⟩ := List.mem_iff_getElem?.mp member
      by_cases own : i = k
      · subst own
        cases found.symm.trans here
        obtain ⟨inside, -⟩ := List.getElem?_eq_some_iff.mp here
        exact ⟨_, List.mem_iff_getElem?.mpr ⟨i, List.getElem?_set_self inside⟩, attempt_same kept input l s⟩
      · exact ⟨l, List.mem_iff_getElem?.mpr ⟨k, (List.getElem?_set_ne own).trans here⟩, rfl, rfl⟩

theorem next_settled (settled : Settled w s) {event : Event} (latest : latestName (next kept s event) = some w) :
    Settled w (next kept s event) := by
  refine ⟨latest, ?_⟩
  cases event with
  | setLatest now name => exact settled.sound
  | launch appVersion queues =>
    intro l member
    rcases List.mem_append.mp member with earlier | last
    · exact settled.sound l earlier
    · rw [List.mem_singleton.mp last]
      intro u todo here
      cases here
  | tick i input =>
    intro l member
    simp only [next] at member
    cases found : s.launches[i]? with
    | none =>
      rw [found] at member
      exact settled.sound l member
    | some m =>
      rw [found] at member
      obtain inside | rfl := List.mem_or_eq_of_mem_set member
      · exact settled.sound l inside
      · exact attempt_sound input settled.latest (settled.sound m (List.mem_of_getElem? found))

/-- Once the row of a queue is one of the latest version, it stays one. -/
theorem next_declares (settled : Settled w s) (event : Event) {name : String} (declares : Declares kept w s name) :
    Declares kept w (next kept s event) name := by
  obtain ⟨l, member, version, queue, inside, named, row⟩ := declares
  have stays (same : (next kept s event).queues.get name = s.queues.get name) :
      Declares kept w (next kept s event) name := by
    obtain ⟨l', there, version', queues⟩ := next_keeps kept event member
    exact ⟨l', there, version'.trans version, queue, queues ▸ inside, named, same.trans row⟩
  cases event with
  | setLatest now name' => exact stays rfl
  | launch appVersion queues => exact stays rfl
  | tick i input =>
    cases found : s.launches[i]? with
    | none => exact stays (by simp only [next, found])
    | some m =>
      have after : (next kept s (.tick i input)).queues = (attempt kept input m s).2.queues := by
        simp only [next, found]
      obtain same | ⟨u, written, todo, here, wrote⟩ := attempt_queues kept input m s
      · exact stays (by rw [after, same])
      · rw [wrote] at after
        have looked := congrArg (Table.get · name) after
        simp only [upsertQueue_get] at looked
        by_cases lands : name = written.name ∧ (u = true ∨ s.queues.get written.name = none)
        · rw [if_pos lands] at looked
          obtain ⟨rfl, chosen | vacant⟩ := lands
          · have own := List.mem_of_getElem? found
            obtain ⟨left, current⟩ := settled.sound m own u _ here
            obtain ⟨m', there, version', queues⟩ := next_keeps kept (.tick i input) own
            exact ⟨m', there, version'.trans (current chosen), written, queues ▸ left List.mem_cons_self, rfl, looked⟩
          · cases vacant.symm.trans row
        · rw [if_neg lands] at looked
          exact stays looked

variable (kept) in
def Reaches (w : String) (s : System) (l : Launch) : Prop :=
  match l.stage with
  | .upserting u todo =>
    u = true ∧ ∀ queue ∈ l.queues, queue.name ≠ INTERNAL_QUEUE → queue ∈ todo ∨ Declares kept w s queue.name
  | .launched u => u = true ∧ ∀ queue ∈ l.queues, queue.name ≠ INTERNAL_QUEUE → Declares kept w s queue.name
  | _ => True

theorem reaches_next (settled : Settled w s) (event : Event) {l : Launch} (reaches : Reaches kept w s l) :
    Reaches kept w (next kept s event) l := by
  unfold Reaches at reaches ⊢
  split
  next u todo here =>
    rw [here] at reaches
    refine ⟨reaches.1, fun queue member outside => ?_⟩
    exact (reaches.2 queue member outside).imp_right (next_declares settled event)
  next u here =>
    rw [here] at reaches
    exact ⟨reaches.1, fun queue member outside => next_declares settled event (reaches.2 queue member outside)⟩
  next => trivial

theorem reaches_attempt (settled : Settled w s) {i : Nat} {input : Input} {l : Launch} (here : s.launches[i]? = some l)
    (version : l.appVersion = w) (works : input.works = true) (reaches : Reaches kept w s l) :
    Reaches kept w (next kept s (.tick i input)) (attempt kept input l s).1 := by
  have later := reaches_next settled (.tick i input) reaches
  cases stage : l.stage with
  | registering => simp [Reaches, attempt, stage]
  | resolving =>
    obtain ⟨u, resolved, -, current⟩ := attempt_resolves kept input settled.latest stage
    have queues := (attempt_same kept input l s).2
    simp only [Reaches, resolved, queues]
    refine ⟨current works version, fun queue member outside => .inl ?_⟩
    exact List.mem_filter.mpr ⟨member, by simpa using outside⟩
  | launched u =>
    have same : (attempt kept input l s).1 = l := by simp only [attempt, stage]
    rw [same]
    exact later
  | upserting u todo =>
    simp only [Reaches, stage] at later
    cases todo with
    | nil =>
      have done : (attempt kept input l s).1 = { l with stage := .launched u } := by
        simp only [attempt, stage]
      rw [done]
      refine ⟨later.1, fun queue member outside => ?_⟩
      exact (later.2 queue member outside).resolve_left (List.not_mem_nil)
    | cons first todo =>
      have moved : (attempt kept input l s).1 = { l with stage := .upserting u todo } := by
        simp only [attempt, stage]
      rw [moved]
      refine ⟨later.1, fun queue member outside => ?_⟩
      obtain left | declared := later.2 queue member outside
      · obtain rfl | left := List.mem_cons.mp left
        · refine .inr ?_
          obtain ⟨l', there, version', queues⟩ := next_keeps kept (.tick i input) (List.mem_of_getElem? here)
          refine ⟨l', there, version'.trans version, queue, queues ▸ member, rfl, ?_⟩
          simp only [next, here, attempt, stage, works, if_true, upsertQueue_get, later.1, true_or,
            and_self]
        · exact .inl left
      · exact .inr declared

theorem run_reaches {i : Nat} {l : Launch} (settled : Settled w s) (here : s.launches[i]? = some l)
    (version : l.appVersion = w) (reaches : Reaches kept w s l) {events : List Event}
    (along : Runs.Along (next kept) (Quiet kept w i) events s) :
    Settled w (run kept events s) ∧ ∃ l', (run kept events s).launches[i]? = some l' ∧ l'.appVersion = w ∧
      l'.queues = l.queues ∧ Reaches kept w (run kept events s) l' := by
  refine Runs.invariant (I := fun s => Settled w s ∧ ∃ l', s.launches[i]? = some l' ∧ l'.appVersion = w ∧
    l'.queues = l.queues ∧ Reaches kept w s l') ?_ along ⟨settled, l, here, version, rfl, reaches⟩
  rintro s event ⟨latest, works⟩ ⟨settled, m, here, version, queues, reaches⟩
  refine ⟨next_settled settled latest, ?_⟩
  have later := reaches_next settled event reaches
  cases event with
  | setLatest now name => exact ⟨m, here, version, queues, later⟩
  | launch appVersion registered =>
    obtain ⟨inside, -⟩ := List.getElem?_eq_some_iff.mp here
    exact ⟨m, (List.getElem?_append_left inside).trans here, version, queues, later⟩
  | tick j input =>
    by_cases own : j = i
    · subst own
      have moved := reaches_attempt settled here version (works input rfl) reaches
      obtain ⟨inside, -⟩ := List.getElem?_eq_some_iff.mp here
      obtain ⟨version', queues'⟩ := attempt_same kept input m s
      refine ⟨_, ?_, version'.trans version, queues'.trans queues, moved⟩
      simp only [next, here]
      exact List.getElem?_set_self inside
    · refine ⟨m, ?_, version, queues, later⟩
      simp only [next]
      cases found : s.launches[j]? with
      | none => exact here
      | some other => exact (List.getElem?_set_ne own).trans here

/-- As long as its version stays the latest, what a launch has registered is not lost to another version: the rows of
its queues are those of launches of its version. -/
theorem latest_configures {i : Nat} {l : Launch} (settled : Settled w s) (here : s.launches[i]? = some l)
    (version : l.appVersion = w) (starts : l.stage = .registering ∨ l.stage = .resolving) {events : List Event}
    (along : Runs.Along (next kept) (Quiet kept w i) events s) {l' : Launch} {u : Bool}
    (there : (run kept events s).launches[i]? = some l') (done : l'.stage = .launched u) :
    ∀ queue ∈ l.queues, queue.name ≠ INTERNAL_QUEUE → Declares kept w (run kept events s) queue.name := by
  have reaches : Reaches kept w s l := by
    obtain stage | stage := starts <;> simp [Reaches, stage]
  obtain ⟨-, m, found, -, queues, reached⟩ := run_reaches settled here version reaches along
  cases there.symm.trans found
  simp only [Reaches, done] at reached
  rw [← queues]
  exact reached.2

end Launches

def mail : RegisteredQueue := { name := "mail" }

def newMail : RegisteredQueue := { name := "mail", priorityEnabled := true }

def calls (i : Nat) (now : DateTime) : List Event := List.replicate 4 (.tick i { now := now })

/-- An engine of the old version runs, one of the new version has registered. -/
def deployed : System :=
  run rowToQueue (.launch "v1" [mail] :: calls 0 1 ++ [.launch "v2" [newMail], .tick 1 { now := 2 }])
    ⟨Inner.new, ∅, []⟩

/-- The new engine goes on, and another old one starts. -/
def restarted : List Event := List.replicate 3 (.tick 1 {}) ++ .launch "v1" [mail] :: calls 2 3

theorem latest_configures_deployment :
    (run rowToQueue restarted deployed).queues.get "mail" = some newMail ∧
    ∀ queue ∈ [newMail], queue.name ≠ INTERNAL_QUEUE →
      Declares rowToQueue "v2" (run rowToQueue restarted deployed) queue.name := by
  have stages : deployed.launches.map (·.stage) = [.launched true, .resolving] := by decide
  have settled : Settled "v2" deployed := by
    refine ⟨by decide, ?_⟩
    intro l member u todo here
    have listed := List.mem_map_of_mem (f := Launch.stage) member
    rw [stages, here] at listed
    simp at listed
  have quiet : Runs.Along (next rowToQueue) (Quiet rowToQueue "v2" 1) restarted deployed := by
    refine ⟨⟨by decide, ?_⟩, ⟨by decide, ?_⟩, ⟨by decide, ?_⟩, ⟨by decide, ?_⟩, ⟨by decide, ?_⟩, ⟨by decide, ?_⟩,
      ⟨by decide, ?_⟩, ⟨by decide, ?_⟩, trivial⟩
    all_goals
      intro input same
      cases same <;> rfl
  have here : deployed.launches[1]? = some ⟨"v2", [newMail], .resolving⟩ := by decide
  have there : (run rowToQueue restarted deployed).launches[1]? = some ⟨"v2", [newMail], .launched true⟩ := by decide
  exact ⟨by decide, latest_configures settled here rfl (.inr rfl) quiet there rfl⟩

/-- A launch of the old version resolves, the new version launches, and the old one goes on. -/
def overtaken : System :=
  run rowToQueue [.launch "v1" [mail], .tick 0 { now := 1 }, .tick 0 {}, .launch "v2" [newMail], .tick 1 { now := 2 },
    .tick 1 {}, .tick 1 {}, .tick 1 {}, .tick 0 {}] ⟨Inner.new, ∅, []⟩

/-- A launch that has resolved before the new version registers overwrites its rows afterwards. -/
theorem stale_overwrites : latestName overtaken = some "v2" ∧
    overtaken.launches.map (·.stage) = [.upserting true [], .launched true] ∧
    overtaken.queues.get "mail" = some mail := by
  decide

end Durare.Rollout

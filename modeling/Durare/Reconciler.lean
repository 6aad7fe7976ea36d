import Durare.Backfill
import Durare.Reconciling
import Durare.Schedules

/-! The reconciler of an engine: it lists the schedules that are active, tells the loops of the others to stop, and
installs the loops that are missing, each after its backfill, while the loops fire and the registry changes. -/
namespace Durare.Reconciler

open Reconciling
open Scheduler (Agent Input)

def macroSchedules (scheduled : List (String × String)) : List ScheduleRow :=
  scheduled.map fun (name, spec) =>
    { scheduleName := name
      workflowName := name
      schedule := spec
      scheduleId := "macro:" ++ name ++ ":" ++ spec }

/-- The schedules of the code that no persisted one shadows are added to the persisted ones. -/
def desired (scheduled : List (String × String)) (persisted : List ScheduleRow) : List ScheduleRow :=
  persisted ++ (macroSchedules scheduled).filter fun m => !persisted.any fun s => s.scheduleName == m.scheduleName

/-- `InstalledSchedule`: the definition that a loop was installed with, and the agent that runs the loop. -/
structure Loop where
  definition : ScheduleRow
  agent : Nat
deriving DecidableEq, Repr

def Loop.name (l : Loop) : String := l.definition.scheduleName

def matching (s : ScheduleRow) (l : Loop) : Bool := s.sameDefinition l.definition

/-- Where the reconciler is in a pass. -/
inductive Control where
  | top
  | installing (todo : List ScheduleRow)
  | catching (agent : Nat) (schedule : ScheduleRow) (todo : List ScheduleRow)
  | asleep
  | returned
deriving DecidableEq, Repr

/-- The loops and backfills with the workflows they store, the registry, the loops that were installed, the token of
the shutdown, and the schedules that the last pass found desired. -/
structure State (σ : Type) where
  machine : Scheduler.State σ
  registry : Memory.Schedules
  fleet : Fleet String Loop
  control : Control
  cancelled : Bool
  listed : List ScheduleRow

def start {σ : Type} (rows : σ) (registry : Memory.Schedules) : State σ where
  machine := Scheduler.start rows fun _ => none
  registry := registry
  fleet := .empty
  control := .top
  cancelled := false
  listed := []

section Machine

variable {σ : Type} (store : RowStore σ) (cron : Cron) (rt : Runtime) (scheduled : List (String × String))
    (specs : Specs)

/-- One step of the reconciler. The filter of the listing is on the status alone. -/
def pass (input : Input) (s : State σ) : State σ :=
  match s.control with
  | .top =>
    if s.cancelled then { s with fleet := s.fleet.retire fun _ _ => false, control := .returned }
    else
      match input.reply, Memory.listSchedules { statuses := [.active] } s.registry with
      | .delivered, .ok persisted =>
        let desired := desired scheduled persisted
        { s with
          fleet := s.fleet.retire (Fleet.keeps (fun s => s.scheduleName) matching desired)
          control := .installing desired
          listed := desired }
      | _, _ => { s with control := .asleep }
  | .installing [] => { s with control := .asleep }
  | .installing (schedule :: todo) =>
    if (s.fleet.installed.get schedule.scheduleName).isSome then { s with control := .installing todo }
    else
      let agent : Agent := { rt := rt, schedule := schedule.toWorkflowSchedule, control := .listed }
      { s with
        machine := { s.machine with agents := s.machine.agents ++ [agent] }
        control := .catching s.machine.agents.length schedule todo }
  | .catching a schedule todo =>
    -- A loop is installed once its backfill is over, however that ended.
    match s.machine.agents[a]? with
    | none => s
    | some agent =>
      if agent.control = .top then
        { s with fleet := s.fleet.start schedule.scheduleName ⟨schedule, a⟩, control := .installing todo }
      else { s with machine := Scheduler.next store cron s.machine (.tick a input) }
  | .asleep => { s with control := .top }
  | .returned => s

/-- What a loop meets: its flag and the token are read before it sleeps and while it sleeps, and a sleep that a
shutdown meets at its end may still run its time. -/
def heard (stop cancelled : Bool) (input : Input) : Input :=
  { input with
    stopped := stop || cancelled
    slept := !stop && (!cancelled || input.slept) }

def step (i : Nat) (input : Input) (s : State σ) : State σ :=
  match s.fleet.workers[i]? with
  | none => s
  | some (l, stop) =>
    let stamped := match (s.machine.agents[l.agent]?).map (·.control), input.reply with
      | some (.stamping _), .failed _ => s.registry
      | some (.stamping instant), _ => (Memory.setScheduleLastFired l.name instant.timestampMillis s.registry).2
      | _, _ => s.registry
    { s with
      machine := Scheduler.next store cron s.machine (.tick l.agent (heard stop s.cancelled input))
      registry := stamped }

inductive Event (σ : Type) where
  | call (call : Registry.Call)
  | outside (rows : σ)
  | reconcile (input : Input)
  | fire (i : Nat) (input : Input)
  | cancel
  | abort

/-- Engines and clients call the registry, others use the store, the reconciler or a loop takes a step, the engine
shuts down, or it is deactivated, which aborts the reconciler and no loop. -/
def next (s : State σ) : Event σ → State σ
  | .call call => { s with registry := (Registry.exec (Memory.scheduleProvider specs) specs call s.registry).2 }
  | .outside rows => { s with machine := { s.machine with store := rows } }
  | .reconcile input => pass store cron rt scheduled input s
  | .fire i input => step store cron i input s
  | .cancel => { s with cancelled := true }
  | .abort => { s with control := .returned }

abbrev run (events : List (Event σ)) (s : State σ) : State σ := Runs.run (next store cron rt scheduled specs) events s

end Machine

/-- The steps that a loop still takes once it was told to stop. -/
def rank : Scheduler.Control → Option Nat
  | .returned => some 0
  | .top => some 1
  | .stamping _ => some 2
  | .launching _ _ => some 3
  | .persisting _ => some 4
  | .sleeping _ => some 5
  | _ => none

def backfills : Scheduler.Control → Bool
  | .listed | .top => true
  | control => Scheduler.isCatching control

def isPersisting : Scheduler.Control → Bool
  | .persisting _ => true
  | _ => false

section Agents

variable {σ : Type} (store : RowStore σ) (cron : Cron)

theorem advance_agents (input : Input) (agent : Agent) (m : Scheduler.State σ) :
    (Scheduler.advance store cron input agent m).2.agents = m.agents := by
  obtain ⟨rt, schedule, control, installed, mark⟩ := agent
  have launched (agent : Agent) (instant : DateTime) (tick : Scheduler.Tick) :
      (Scheduler.launch agent instant tick m).agents = m.agents := by
    unfold Scheduler.launch
    split <;> rfl
  cases control with
  | listed =>
    simp only [Scheduler.advance]
    split <;> rfl
  | ranging origin begins stop =>
    simp only [Scheduler.advance]
    split
    · rfl
    · split <;> rfl
  | filling origin todo =>
    cases todo with
    | nil => rfl
    | cons instant todo =>
      simp only [Scheduler.advance]
      split
      next tried => exact (Scheduler.attempt_logs tried).2.2.1
      next tried => exact (Scheduler.attempt_logs tried).2.2.1
  | filled origin instant tick todo => exact launched _ _ _
  | top =>
    simp only [Scheduler.advance]
    split
    · rfl
    · split
      · rfl
      · split <;> rfl
  | sleeping instant => rfl
  | persisting instant =>
    simp only [Scheduler.advance]
    split
    next tried => exact (Scheduler.attempt_logs tried).2.2.1
    next tried => exact (Scheduler.attempt_logs tried).2.2.1
  | launching instant tick => exact launched _ _ _
  | stamping instant =>
    simp only [Scheduler.advance, Scheduler.stamp]
    split <;> rfl
  | returned => rfl

theorem advance_looping (input : Input) {agent : Agent} {n : Nat} (looping : rank agent.control = some n)
    (m : Scheduler.State σ) : ∃ k, rank (Scheduler.advance store cron input agent m).1.control = some k ∧
      (input.stopped = true → k ≤ n - 1) := by
  obtain ⟨rt, schedule, control, installed, mark⟩ := agent
  cases control with
  | returned =>
    cases looping
    exact ⟨0, rfl, fun _ => Nat.le_refl _⟩
  | top =>
    cases looping
    simp only [Scheduler.advance]
    split
    · exact ⟨0, rfl, fun _ => Nat.le_refl _⟩
    next goes_on =>
      split
      · exact ⟨0, rfl, fun _ => Nat.le_refl _⟩
      · split
        · exact ⟨0, rfl, fun _ => Nat.le_refl _⟩
        · exact ⟨5, rfl, fun stopped => absurd stopped goes_on⟩
  | stamping instant =>
    cases looping
    exact ⟨1, rfl, fun _ => Nat.le_refl _⟩
  | launching instant tick =>
    cases looping
    exact ⟨2, rfl, fun _ => Nat.le_refl _⟩
  | persisting instant =>
    cases looping
    simp only [Scheduler.advance]
    split
    · exact ⟨3, rfl, fun _ => Nat.le_refl _⟩
    · exact ⟨2, rfl, fun _ => by decide⟩
  | sleeping instant =>
    cases looping
    simp only [Scheduler.advance]
    split
    · exact ⟨4, rfl, fun _ => Nat.le_refl _⟩
    · exact ⟨0, rfl, fun _ => by decide⟩
  | _ => cases looping

theorem advance_backfills (input : Input) {agent : Agent} (catching : backfills agent.control = true)
    (going : agent.control ≠ .top) (m : Scheduler.State σ) :
    backfills (Scheduler.advance store cron input agent m).1.control = true := by
  obtain ⟨rt, schedule, control, installed, mark⟩ := agent
  cases control with
  | listed =>
    simp only [Scheduler.advance]
    split
    · dsimp only
      split <;> rfl
    · rfl
  | ranging origin begins stop =>
    cases origin with
    | automatic =>
      simp only [Scheduler.advance]
      split
      · rfl
      · split <;> rfl
    | _ => cases catching
  | filling origin todo =>
    cases origin with
    | automatic =>
      cases todo with
      | nil => rfl
      | cons instant todo =>
        simp only [Scheduler.advance]
        split <;> rfl
    | _ => cases catching
  | filled origin instant tick todo =>
    cases origin with
    | automatic => rfl
    | _ => cases catching
  | top => exact absurd rfl going
  | _ => cases catching

/-- Only a sleep that ran its time leads to a tick. -/
theorem advance_calm {input : Input} (waking : input.slept = false) (agent : Agent) (m : Scheduler.State σ) :
    isPersisting (Scheduler.advance store cron input agent m).1.control = false := by
  obtain ⟨rt, schedule, control, installed, mark⟩ := agent
  have left (origin : Scheduler.Origin) : isPersisting (Scheduler.leave origin) = false := by cases origin <;> rfl
  cases control with
  | listed =>
    simp only [Scheduler.advance]
    split
    · dsimp only
      split <;> rfl
    · rfl
  | ranging origin begins stop =>
    simp only [Scheduler.advance]
    split
    · exact left origin
    · split <;> rfl
  | filling origin todo =>
    cases todo with
    | nil => exact left origin
    | cons instant todo =>
      simp only [Scheduler.advance]
      split
      · rfl
      · exact left origin
  | top =>
    simp only [Scheduler.advance]
    split
    · rfl
    · split
      · rfl
      · split <;> rfl
  | sleeping instant => simp only [Scheduler.advance, waking, Bool.false_eq_true, if_false, isPersisting]
  | persisting instant =>
    simp only [Scheduler.advance]
    split <;> rfl
  | _ => rfl

theorem next_tick {a : Nat} (input : Input) {agent : Agent} {m : Scheduler.State σ} (found : m.agents[a]? =
    some agent) :
    (Scheduler.next store cron m (.tick a input)).agents =
        m.agents.set a (Scheduler.advance store cron input agent m).1 ∧
      (Scheduler.next store cron m (.tick a input)).fired = (Scheduler.advance store cron input agent m).2.fired := by
  simp only [Scheduler.next, found, advance_agents]
  exact ⟨trivial, trivial⟩

variable (name : String)

/-- The ticks of the schedules of a name that loops have fired. -/
def fires (m : Scheduler.State σ) : Nat := m.fired.countP fun p => p.1 == name

def aboutToFire (agent : Agent) : Nat :=
  if agent.schedule.scheduleName = name ∧ isPersisting agent.control = true then 1 else 0

def firing (m : Scheduler.State σ) : Nat := (m.agents.map (aboutToFire name)).sum

variable {name}

/-- A step fires what was about to fire, and nothing comes to it but by a step of a schedule of the name. -/
theorem tick_spends {a : Nat} {input : Input} {agent : Agent} {m : Scheduler.State σ} (found : m.agents[a]? =
    some agent)
    (calm : agent.schedule.scheduleName = name →
      isPersisting (Scheduler.advance store cron input agent m).1.control = false) :
    fires name (Scheduler.next store cron m (.tick a input)) + firing name
      (Scheduler.next store cron m (.tick a input)) ≤
      fires name m + firing name m := by
  obtain ⟨agents, fired⟩ := next_tick store cron input found
  have moved : Scheduler.Moved agent m (Scheduler.advance store cron input agent m) :=
    Scheduler.advance_moved input agent m
  have after : aboutToFire name (Scheduler.advance store cron input agent m).1 = 0 := by
    rw [aboutToFire, moved.schedule]
    refine if_neg fun ready => ?_
    rw [calm ready.1] at ready
    exact Bool.false_ne_true ready.2
  have spent := Scheduler.sum_set (aboutToFire name) found (Scheduler.advance store cron input agent m).1
  simp only [fires, firing, agents, fired]
  rcases moved.fired with ⟨-, same⟩ | ⟨i, persisting, logged⟩
  · rw [same]
    omega
  · have ready : aboutToFire name agent = if agent.schedule.scheduleName = name then 1 else 0 := by
      simp [aboutToFire, persisting, isPersisting]
    rw [logged, List.countP_append, List.countP_singleton]
    simp only [beq_iff_eq]
    omega

end Agents

section Passes

variable {σ : Type} {store : RowStore σ} {cron : Cron} {rt : Runtime} {scheduled : List (String × String)}
    {specs : Specs}

def Control.pending : Control → Option (List ScheduleRow)
  | .installing todo => some todo
  | .catching _ schedule todo => some (schedule :: todo)
  | _ => none

abbrev Reaching (listed todo : List ScheduleRow) (fleet : Fleet String Loop) : Prop :=
  Fleet.Reaching (fun s => s.scheduleName) matching listed todo fleet

/-- What holds between the steps: every loop has an agent of its own that runs its definition, the reconciler's
backfill has another one, and a pass is on its way from what it listed. -/
structure Inv (s : State σ) : Prop where
  sound : s.fleet.Sound Loop.name
  runs : ∀ {i : Nat} {l : Loop} {stop : Bool}, s.fleet.workers[i]? = some (l, stop) → ∃ agent,
    s.machine.agents[l.agent]? = some agent ∧
    agent.schedule = l.definition.toWorkflowSchedule ∧ ∃ n, rank agent.control = some n
  apart : ∀ {i j : Nat} {l m : Loop} {stop stop' : Bool}, s.fleet.workers[i]? = some (l, stop) → s.fleet.workers[j]? =
    some (m, stop') →
    l.agent = m.agent → i = j
  passing : ∀ todo, s.control.pending = some todo → (∀ e ∈ todo, e ∈ s.listed) ∧ Reaching s.listed todo s.fleet
  catching : ∀ {a schedule todo}, s.control = .catching a schedule todo →
    s.fleet.installed.get schedule.scheduleName = none ∧
    (∃ agent, s.machine.agents[a]? = some agent ∧ agent.schedule = schedule.toWorkflowSchedule ∧
      backfills agent.control = true) ∧
    ∀ (i : Nat) (l : Loop) (stop : Bool), s.fleet.workers[i]? = some (l, stop) → l.agent ≠ a

theorem start_inv (rows : σ) (registry : Memory.Schedules) : Inv (start rows registry) where
  sound := Fleet.empty_sound
  runs found := by cases found
  apart found := by cases found
  passing todo found := by cases found
  catching same := by cases same

theorem Inv.ticked {s : State σ} (inv : Inv s) {a : Nat} {agent agent' : Agent} {machine : Scheduler.State σ}
    (found : s.machine.agents[a]? = some agent) (agents : machine.agents = s.machine.agents.set a agent')
    (schedule : agent'.schedule = agent.schedule)
    (loops : ∀ (i : Nat) (l : Loop) (stop : Bool), s.fleet.workers[i]? = some (l, stop) → l.agent = a → ∃ n,
    rank agent'.control = some n)
    (catches : ∀ e todo, s.control = .catching a e todo → backfills agent'.control = true)
    (registry : Memory.Schedules) : Inv { s with machine := machine, registry := registry } where
  sound := inv.sound
  runs {i l stop} worker := by
    obtain ⟨runner, held, own, looping⟩ := inv.runs worker
    by_cases same : l.agent = a
    · rw [same, found, Option.some_inj] at held
      subst held
      refine ⟨agent', ?_, schedule.trans own, loops i l stop worker same⟩
      rw [agents, same, List.getElem?_set_self (List.getElem?_eq_some_iff.mp found).1]
    · exact ⟨runner, by rw [agents, List.getElem?_set_ne (Ne.symm same), held], own, looping⟩
  apart := inv.apart
  passing := inv.passing
  catching {b e todo} control := by
    obtain ⟨missing, ⟨runner, held, own, backfill⟩, unowned⟩ := inv.catching control
    refine ⟨missing, ?_, unowned⟩
    by_cases same : b = a
    · subst same
      rw [found, Option.some_inj] at held
      subst held
      refine ⟨agent', ?_, schedule.trans own, catches e todo control⟩
      rw [agents, List.getElem?_set_self (List.getElem?_eq_some_iff.mp found).1]
    · exact ⟨runner, by rw [agents, List.getElem?_set_ne (Ne.symm same), held], own, backfill⟩

theorem Inv.step {s : State σ} (inv : Inv s) (i : Nat) (input : Input) : Inv (step store cron i input s) := by
  unfold Reconciler.step
  split
  · exact inv
  next l stop worker =>
    obtain ⟨agent, found, own, n, looping⟩ := inv.runs worker
    have ticked := next_tick store cron (heard stop s.cancelled input) found
    have moved : Scheduler.Moved agent s.machine
        (Scheduler.advance store cron (heard stop s.cancelled input) agent s.machine) :=
      Scheduler.advance_moved (heard stop s.cancelled input) agent s.machine
    obtain ⟨k, still, -⟩ := advance_looping store cron (heard stop s.cancelled input) looping s.machine
    refine inv.ticked found ticked.1 moved.schedule (fun j m stop' other same => ⟨k, still⟩) ?_ _
    intro e todo control
    exact absurd rfl ((inv.catching control).2.2 i l stop worker)

theorem Inv.retired {s : State σ} (inv : Inv s) (keep : String → Loop → Bool) (control : Control)
    (listed : List ScheduleRow) (passing : ∀ todo, control.pending = some todo → (∀ e ∈ todo, e ∈ listed) ∧
      Reaching listed todo (s.fleet.retire keep))
    (calm : ∀ a schedule todo, control ≠ .catching a schedule todo) :
    Inv { s with fleet := s.fleet.retire keep, control := control, listed := listed } where
  sound := inv.sound.retire keep
  runs worker := by
    obtain ⟨stop, before⟩ := Fleet.retired_worker worker
    exact inv.runs before
  apart first second same := by
    obtain ⟨stop, before⟩ := Fleet.retired_worker first
    obtain ⟨stop', before'⟩ := Fleet.retired_worker second
    exact inv.apart before before' same
  passing := passing
  catching same := absurd same (calm _ _ _)

theorem Inv.moved {s : State σ} (inv : Inv s) (control : Control) (passing : ∀ todo, control.pending = some todo →
      (∀ e ∈ todo, e ∈ s.listed) ∧ Reaching s.listed todo s.fleet)
    (calm : ∀ a schedule todo, control ≠ .catching a schedule todo) : Inv { s with control := control } where
  sound := inv.sound
  runs := inv.runs
  apart := inv.apart
  passing := passing
  catching same := absurd same (calm _ _ _)

theorem Inv.pass {s : State σ} (inv : Inv s) (input : Input) : Inv (pass store cron rt scheduled input s) := by
  unfold Reconciler.pass
  split
  next control =>
    split
    · exact inv.retired _ _ _ (fun todo none => by cases none) fun _ _ _ => nofun
    · split
      · refine inv.retired _ _ _ (fun todo found => ?_) fun _ _ _ => nofun
        cases found
        exact ⟨fun _ member => member, Fleet.reaching_retire⟩
      · exact inv.moved _ (fun todo none => by cases none) fun _ _ _ => nofun
  next control => exact inv.moved _ (fun todo none => by cases none) fun _ _ _ => nofun
  next schedule todo control =>
    obtain ⟨within, reaching⟩ := inv.passing _ (congrArg Control.pending control)
    split
    next present =>
      refine inv.moved _ (fun todo' found => ?_) fun _ _ _ => nofun
      cases found
      exact ⟨fun e member => within e (List.mem_cons_of_mem _ member), reaching.skip present⟩
    next missing =>
      refine ⟨inv.sound, fun worker => ?_, inv.apart, fun todo' found => ?_, fun same => ?_⟩
      · obtain ⟨agent, held, rest⟩ := inv.runs worker
        exact ⟨agent, by rw [List.getElem?_append_left (List.getElem?_eq_some_iff.mp held).1, held], rest⟩
      · cases found
        exact ⟨within, reaching⟩
      · cases same
        refine ⟨by simpa using missing, ⟨_, List.getElem?_concat_length, rfl, rfl⟩, fun i l stop worker => ?_⟩
        obtain ⟨agent, held, -⟩ := inv.runs worker
        exact Nat.ne_of_lt (List.getElem?_eq_some_iff.mp held).1
  next a schedule todo control =>
    obtain ⟨within, reaching⟩ := inv.passing _ (congrArg Control.pending control)
    obtain ⟨missing, ⟨agent, found, own, backfill⟩, unowned⟩ := inv.catching control
    simp only [found]
    split
    next ended =>
      have own_name : (Loop.mk schedule a).name = schedule.scheduleName := rfl
      refine ⟨inv.sound.start (d := ⟨schedule, a⟩) missing, fun worker => ?_, fun first second same => ?_,
        fun todo' found => ?_, fun same => by cases same⟩
      · rcases Fleet.started_worker worker with before | ⟨-, rfl, -⟩
        · exact inv.runs before
        · exact ⟨agent, found, own, 1, by rw [ended]; rfl⟩
      · rcases Fleet.started_worker first with before | ⟨rfl, rfl, -⟩ <;>
          rcases Fleet.started_worker second with before' | ⟨rfl, rfl, -⟩
        · exact inv.apart before before' same
        · exact absurd same (unowned _ _ _ before)
        · exact absurd same.symm (unowned _ _ _ before')
        · rfl
      · cases found
        refine ⟨fun e member => within e (List.mem_cons_of_mem _ member), ?_⟩
        exact reaching.start (within schedule List.mem_cons_self) own_name (by simp [matching, ScheduleRow.sameDefinition])
    next going =>
      have moved : Scheduler.Moved agent s.machine (Scheduler.advance store cron input agent s.machine) :=
        Scheduler.advance_moved input agent s.machine
      refine inv.ticked found (next_tick store cron input found).1 moved.schedule
        (fun i l stop worker same => absurd same (unowned i l stop worker)) (fun e todo' same => ?_) _
      exact advance_backfills store cron input backfill going s.machine
  next control => exact inv.moved _ (fun todo none => by cases none) fun _ _ _ => nofun
  next => exact inv

theorem Inv.next {s : State σ} (inv : Inv s) (event : Event σ) : Inv (next store cron rt scheduled specs s event) := by
  cases event with
  | call call => exact ⟨inv.sound, inv.runs, inv.apart, inv.passing, inv.catching⟩
  | outside rows => exact ⟨inv.sound, inv.runs, inv.apart, inv.passing, inv.catching⟩
  | reconcile input => exact inv.pass input
  | fire i input => exact inv.step i input
  | cancel => exact ⟨inv.sound, inv.runs, inv.apart, inv.passing, inv.catching⟩
  | abort => exact inv.moved _ (fun todo none => by cases none) fun _ _ _ => nofun

theorem run_inv (rows : σ) (registry : Memory.Schedules) (events : List (Event σ)) :
    Inv (run store cron rt scheduled specs events (start rows registry)) :=
  Runs.invariant (P := fun _ _ => True) (fun _ event _ inv => inv.next event)
    (Runs.along_of_forall _ (fun _ _ => trivial) events _) (start_inv rows registry)

/-- No two loops of a schedule run on side by side, and when a pass is through the loops that run on are those of
the schedules it listed, under their definitions. -/
theorem loops_reconciled (rows : σ) (registry : Memory.Schedules) (events : List (Event σ)) :
    let s := run store cron rt scheduled specs events (start rows registry)
    (∀ (i j : Nat) (l m : Loop), s.fleet.workers[i]? = some (l, false) → s.fleet.workers[j]? = some (m, false) →
      l.name = m.name → i = j) ∧
    (s.control = .installing [] →
      (∀ (i : Nat) (l : Loop), s.fleet.workers[i]? = some (l, false) → ∃ e ∈ s.listed, e.scheduleName = l.name ∧
        e.sameDefinition l.definition = true) ∧
      ∀ e ∈ s.listed, ∃ (i : Nat) (l : Loop), s.fleet.workers[i]? = some (l, false) ∧ l.name = e.scheduleName) := by
  intro s
  have inv : Inv s := run_inv rows registry events
  refine ⟨fun i j l m first second same => inv.sound.unique first second same, fun control => ?_⟩
  exact (inv.passing [] (congrArg Control.pending control)).2.reached inv.sound

/-- Every schedule is registered under its own name. -/
def Named (registry : Memory.Schedules) : Prop := ∀ name row, registry.get name = some row → row.scheduleName = name

theorem Named.put {registry : Memory.Schedules} (named : Named registry) (row : ScheduleRow) :
    Named (registry.put row.scheduleName row) := by
  intro name found stored
  rw [Table.get_put] at stored
  split at stored
  next same =>
    cases stored
    exact same.symm
  · exact named name found stored

theorem Named.modify {registry : Memory.Schedules} (named : Named registry) (name : String) {f : ScheduleRow → ScheduleRow}
    (keeps : ∀ row, (f row).scheduleName = row.scheduleName) : Named (registry.modify name f) := by
  intro other found stored
  rw [Table.get_modify] at stored
  split at stored
  next same =>
    obtain ⟨row, held, rfl⟩ := Option.map_eq_some_iff.mp stored
    rw [keeps, same]
    exact named name row held
  · exact named other found stored

theorem Named.exec {registry : Memory.Schedules} (named : Named registry) (call : Registry.Call) :
    Named (Registry.exec (Memory.scheduleProvider specs) specs call registry).2 := by
  cases call with
  | createSchedule workflows request fresh =>
    simp only [Registry.exec, Registry.replied, Registry.createSchedule]
    split
    · exact named
    · simp only [Memory.scheduleProvider, Memory.createSchedule]
      split
      · exact named
      · exact named.put _
  | applySchedules workflows requests =>
    simp only [Registry.exec, Registry.replied, Registry.applySchedules]
    split
    · exact named
    · simp only [Memory.scheduleProvider, Memory.applySchedules]
      generalize requests.map (fun request => Registry.newSchedule request.1 request.2) = rows
      induction rows generalizing registry with
      | nil => exact named
      | cons row rows ih => exact ih (named.put row)
  | updateSchedule name update =>
    simp only [Registry.exec, Registry.replied, Registry.updateSchedule]
    split
    · exact named
    · simp only [Memory.scheduleProvider, Memory.updateSchedule]
      split
      · exact named
      · split
        · exact named
        next row held =>
          have own : (Memory.updatedRow update row).scheduleName = name := named name row held
          have kept := named.put (Memory.updatedRow update row)
          rwa [own] at kept
  | getSchedule name => exact named
  | listSchedules filter => exact named
  | setScheduleStatus name status => exact named.modify name fun _ => rfl
  | setScheduleLastFired name atMs => exact named.modify name fun _ => rfl
  | deleteSchedule name =>
    intro other found stored
    simp only [Registry.exec, Registry.replied, Memory.scheduleProvider, Memory.deleteSchedule, Table.get_erase] at stored
    split at stored
    · cases stored
    · exact named other found stored

theorem Named.next {s : State σ} (named : Named s.registry) (event : Event σ) :
    Named (next store cron rt scheduled specs s event).registry := by
  cases event with
  | call call => exact named.exec call
  | reconcile input =>
    simp only [Reconciler.next, pass]
    split
    · split
      · exact named
      · split <;> exact named
    · exact named
    · split <;> exact named
    · split
      · exact named
      · split <;> exact named
    · exact named
    · exact named
  | fire i input =>
    simp only [Reconciler.next, step]
    split
    · exact named
    · dsimp only
      split
      · exact named
      · exact named.modify _ fun _ => rfl
      · exact named
  | _ => exact named

/-- No schedule of the name is active. -/
def Inactive (name : String) (registry : Memory.Schedules) : Prop :=
  ∀ row, registry.get name = some row → row.status ≠ .active

variable {name : String}

/-- What is inactive, and no schedule of the code, is not desired. -/
theorem not_desired {registry : Memory.Schedules} (named : Named registry) (inactive : Inactive name registry)
    (bare : ∀ spec, (name, spec) ∉ scheduled) {persisted : List ScheduleRow}
    (listed : Memory.listSchedules { statuses := [.active] } registry = .ok persisted) :
    ∀ e ∈ desired scheduled persisted, e.scheduleName ≠ name := by
  rintro e member rfl
  cases listed
  rcases List.mem_append.mp member with active | coded
  · obtain ⟨⟨key, row⟩, here, rfl⟩ := List.mem_map.mp active
    obtain ⟨stored, chosen⟩ := Registry.mem_sorted.mp here
    have own := named key row stored
    simp only [Memory.matchesSchedule] at chosen
    subst own
    exact inactive row stored (by simpa using chosen)
  · obtain ⟨⟨workflow, spec⟩, here, rfl⟩ := List.mem_map.mp (List.mem_filter.mp coded).1
    exact bare spec here

/-- The loops of the name were told to stop, and no pass is about to install one. -/
structure Quiet (name : String) (s : State σ) : Prop where
  told : ∀ {i : Nat} {l : Loop} {stop : Bool}, s.fleet.workers[i]? = some (l, stop) → l.name = name → stop = true
  pending : ∀ todo, s.control.pending = some todo → ∀ e ∈ todo, e.scheduleName ≠ name

def spent (name : String) (s : State σ) : Nat := fires name s.machine + firing name s.machine

/-- A pass that lists the schedules tells the loops of an inactive one. -/
theorem listed_quiet {s : State σ} (inv : Inv s) {desired : List ScheduleRow}
    (absent : ∀ e ∈ desired, e.scheduleName ≠ name) :
    Quiet name { s with
      fleet := s.fleet.retire (Fleet.keeps (fun s => s.scheduleName) matching desired)
      control := .installing desired
      listed := desired } where
  told {i l stop} worker own := by
    obtain ⟨before, held⟩ := Fleet.retired_worker worker
    have retired := Fleet.retire_worker inv.sound (Fleet.keeps (fun s => s.scheduleName) matching desired) held
    rw [retired, Option.some_inj, Prod.mk.injEq] at worker
    have gone : Fleet.keeps (fun s : ScheduleRow => s.scheduleName) matching desired l.name l = false := by
      simp only [Fleet.keeps, List.any_eq_false, Bool.and_eq_true, beq_iff_eq, not_and]
      exact fun e member same => absurd (same.trans own) (absent e member)
    rw [← worker.2, gone]
    exact Bool.or_true before
  pending todo same := by
    cases same
    exact absent

/-- While the schedule stays inactive nothing comes to fire for it. -/
theorem Quiet.next {s : State σ} (quiet : Quiet name s) (inv : Inv s) (named : Named s.registry)
    (bare : ∀ spec, (name, spec) ∉ scheduled) (inactive : Inactive name s.registry) (event : Event σ) :
    Quiet name (next store cron rt scheduled specs s event) ∧
      spent name (next store cron rt scheduled specs s event) ≤ spent name s := by
  cases event with
  | call call => exact ⟨⟨quiet.told, quiet.pending⟩, Nat.le_refl _⟩
  | outside rows => exact ⟨⟨quiet.told, quiet.pending⟩, Nat.le_refl _⟩
  | cancel => exact ⟨⟨quiet.told, quiet.pending⟩, Nat.le_refl _⟩
  | abort => exact ⟨⟨quiet.told, fun todo none => by cases none⟩, Nat.le_refl _⟩
  | fire i input =>
    simp only [Reconciler.next, step]
    split
    · exact ⟨quiet, Nat.le_refl _⟩
    next l stop worker =>
      obtain ⟨agent, found, own, -⟩ := inv.runs worker
      refine ⟨⟨quiet.told, quiet.pending⟩, tick_spends store cron found fun same => ?_⟩
      have told : stop = true := quiet.told worker (by rw [← same, own]; rfl)
      subst told
      exact advance_calm store cron rfl agent s.machine
  | reconcile input =>
    simp only [Reconciler.next, pass]
    split
    next control =>
      split
      · refine ⟨⟨fun worker own => ?_, fun todo none => by cases none⟩, Nat.le_refl _⟩
        obtain ⟨before, held⟩ := Fleet.retired_worker worker
        rw [Fleet.retire_worker inv.sound _ held, quiet.told held own] at worker
        cases worker
        rfl
      · split
        next listed => exact ⟨listed_quiet inv (not_desired named inactive bare listed), Nat.le_refl _⟩
        · exact ⟨⟨quiet.told, fun todo none => by cases none⟩, Nat.le_refl _⟩
    next control => exact ⟨⟨quiet.told, fun todo none => by cases none⟩, Nat.le_refl _⟩
    next schedule todo control =>
      have later := quiet.pending _ (congrArg Control.pending control)
      split
      · refine ⟨⟨quiet.told, fun todo' same => ?_⟩, Nat.le_refl _⟩
        cases same
        exact fun e member => later e (List.mem_cons_of_mem _ member)
      · refine ⟨⟨quiet.told, fun todo' same => ?_⟩, ?_⟩
        · cases same
          exact later
        · simp [spent, fires, firing, aboutToFire, isPersisting]
    next a schedule todo control =>
      have later := quiet.pending _ (congrArg Control.pending control)
      obtain ⟨-, ⟨agent, found, own, -⟩, -⟩ := inv.catching control
      simp only [found]
      split
      · refine ⟨⟨fun worker own => ?_, fun todo' same => ?_⟩, Nat.le_refl _⟩
        · rcases Fleet.started_worker worker with before | ⟨-, rfl, -⟩
          · exact quiet.told before own
          · exact absurd own (later schedule List.mem_cons_self)
        · cases same
          exact fun e member => later e (List.mem_cons_of_mem _ member)
      · refine ⟨⟨quiet.told, quiet.pending⟩, tick_spends store cron found fun same => ?_⟩
        rw [own] at same
        exact absurd same (later schedule List.mem_cons_self)
    next control => exact ⟨⟨quiet.told, fun todo none => by cases none⟩, Nat.le_refl _⟩
    next => exact ⟨quiet, Nat.le_refl _⟩

/-- Once a pass has listed the schedules without it, a paused or deleted schedule fires no more than the ticks that its
loops were about to fire. -/
theorem pause_silences (rows : σ) {registry : Memory.Schedules} (named : Named registry) {events later : List (Event σ)}
    (bare : ∀ spec, (name, spec) ∉ scheduled) {s : State σ}
    (reached : run store cron rt scheduled specs events (start rows registry) = s) (top : s.control = .top)
    (going : s.cancelled = false) {input : Input} (delivered : input.reply = .delivered)
    (inactive : Runs.Along (next store cron rt scheduled specs) (fun s _ => Inactive name s.registry)
      (.reconcile input :: later) s) :
    let s' := run store cron rt scheduled specs (.reconcile input :: later) s
    (∀ (i : Nat) (l : Loop) (stop : Bool), s'.fleet.workers[i]? = some (l, stop) → l.name = name → stop = true) ∧
      fires name s'.machine ≤ fires name s.machine + firing name s.machine := by
  have inv : Inv s := reached ▸ run_inv rows registry events
  have registered : Named s.registry := reached ▸ Runs.invariant (P := fun _ _ => True) (I := fun s : State σ => Named s.registry)
    (fun _ event _ named => named.next event) (Runs.along_of_forall _ (fun _ _ => trivial) events _) named
  obtain ⟨paused, rest⟩ := inactive
  have listed : Quiet name (next store cron rt scheduled specs s (.reconcile input)) ∧
      spent name (next store cron rt scheduled specs s (.reconcile input)) = spent name s := by
    obtain ⟨persisted, listed⟩ : ∃ persisted, Memory.listSchedules { statuses := [.active] } s.registry = .ok persisted :=
      ⟨_, rfl⟩
    have passed : next store cron rt scheduled specs s (.reconcile input) =
        { s with
          fleet := s.fleet.retire (Fleet.keeps (fun s => s.scheduleName) matching (desired scheduled persisted))
          control := .installing (desired scheduled persisted)
          listed := desired scheduled persisted } := by
      simp only [Reconciler.next, pass, top, going, Bool.false_eq_true, if_false, delivered, listed]
    rw [passed]
    exact ⟨listed_quiet inv (not_desired registered paused bare listed), rfl⟩
  have kept : ∀ s event, Inactive name s.registry → Inv s ∧ Named s.registry ∧ Quiet name s →
      Inv (next store cron rt scheduled specs s event) ∧ Named (next store cron rt scheduled specs s event).registry ∧
        Quiet name (next store cron rt scheduled specs s event) := fun s event inactive all =>
    ⟨all.1.next event, all.2.1.next event, (all.2.2.next all.1 all.2.1 bare inactive event).1⟩
  have first : Inv (next store cron rt scheduled specs s (.reconcile input)) ∧
      Named (next store cron rt scheduled specs s (.reconcile input)).registry ∧
        Quiet name (next store cron rt scheduled specs s (.reconcile input)) :=
    ⟨inv.next _, registered.next _, listed.1⟩
  intro s'
  have quiet := Runs.invariant (I := fun s => Inv s ∧ Named s.registry ∧ Quiet name s) kept rest first
  have less : spent name s' ≤ spent name (next store cron rt scheduled specs s (.reconcile input)) :=
    Runs.moves (R := fun s s' => spent name s' ≤ spent name s) (fun _ => Nat.le_refl _)
      (fun _ _ _ before after => after.trans before) kept
      (fun s event inactive all => (all.2.2.next all.1 all.2.1 bare inactive event).2) rest first
  refine ⟨fun i l stop worker own => quiet.2.2.told worker own, ?_⟩
  rw [listed.2] at less
  exact (Nat.le_add_right _ _).trans less

def Event.turns (i : Nat) : Event σ → Nat
  | .fire j _ => if j = i then 1 else 0
  | _ => 0

/-- The loop was told to stop, by its flag or by the shutdown, and has at most so many steps to go. -/
def Ending (i : Nat) (l : Loop) (steps : Nat) (s : State σ) : Prop :=
  (∃ stop, s.fleet.workers[i]? = some (l, stop) ∧ (stop = true ∨ s.cancelled = true)) ∧
    ∃ agent n, s.machine.agents[l.agent]? = some agent ∧ rank agent.control = some n ∧ n ≤ steps

/-- The agent of a loop moves by the steps of the loop alone. -/
theorem agent_kept {s : State σ} (inv : Inv s) {i : Nat} {l : Loop} {stop : Bool}
    (worker : s.fleet.workers[i]? = some (l, stop)) {event : Event σ} (other : event.turns i = 0) :
    (next store cron rt scheduled specs s event).machine.agents[l.agent]? = s.machine.agents[l.agent]? := by
  have elsewhere {a : Nat} (input : Input) (apart : l.agent ≠ a) :
      (Scheduler.next store cron s.machine (.tick a input)).agents[l.agent]? = s.machine.agents[l.agent]? := by
    cases found : s.machine.agents[a]? with
    | none => simp only [Scheduler.next, found]
    | some agent => rw [(next_tick store cron input found).1, List.getElem?_set_ne (Ne.symm apart)]
  cases event with
  | fire j input =>
    simp only [Reconciler.next, step]
    split
    · rfl
    next m stop' rival =>
      refine elsewhere _ fun same => ?_
      have here := inv.apart worker rival same
      simp [Event.turns, here] at other
  | reconcile input =>
    simp only [Reconciler.next, pass]
    split
    · split
      · rfl
      · split <;> rfl
    · rfl
    · split
      · rfl
      · obtain ⟨agent, held, -⟩ := inv.runs worker
        exact List.getElem?_append_left (List.getElem?_eq_some_iff.mp held).1
    next a schedule todo control =>
      split
      · rfl
      · split
        · rfl
        · exact elsewhere input ((inv.catching control).2.2 i l stop worker)
    · rfl
    · rfl
  | _ => rfl

/-- A loop stays, and what it was told stands. -/
theorem told_kept {s : State σ} (inv : Inv s) {i : Nat} {l : Loop} {stop : Bool}
    (worker : s.fleet.workers[i]? = some (l, stop)) (told : stop = true ∨ s.cancelled = true) (event : Event σ) :
    ∃ stop', (next store cron rt scheduled specs s event).fleet.workers[i]? = some (l, stop') ∧
      (stop' = true ∨ (next store cron rt scheduled specs s event).cancelled = true) := by
  have retired (keep : String → Loop → Bool) : ∃ stop', (s.fleet.retire keep).workers[i]? = some (l, stop') ∧
      (stop' = true ∨ s.cancelled = true) :=
    ⟨_, Fleet.retire_worker inv.sound keep worker, told.imp_left fun stopped => by rw [stopped, Bool.true_or]⟩
  cases event with
  | cancel => exact ⟨stop, worker, .inr rfl⟩
  | fire j input =>
    simp only [Reconciler.next, step]
    split <;> exact ⟨stop, worker, told⟩
  | reconcile input =>
    simp only [Reconciler.next, pass]
    split
    · split
      · exact retired _
      · split
        · exact retired _
        · exact ⟨stop, worker, told⟩
    · exact ⟨stop, worker, told⟩
    · split <;> exact ⟨stop, worker, told⟩
    · split
      · exact ⟨stop, worker, told⟩
      · split
        · exact ⟨stop, Fleet.start_worker _ _ worker, told⟩
        · exact ⟨stop, worker, told⟩
    · exact ⟨stop, worker, told⟩
    · exact ⟨stop, worker, told⟩
  | _ => exact ⟨stop, worker, told⟩

theorem Ending.next {s : State σ} (inv : Inv s) {i : Nat} {l : Loop} {steps : Nat} (ending : Ending i l steps s)
    (event : Event σ) : Ending i l (steps - event.turns i) (next store cron rt scheduled specs s event) := by
  obtain ⟨⟨stop, worker, told⟩, agent, n, found, looping, few⟩ := ending
  refine ⟨told_kept inv worker told event, ?_⟩
  by_cases other : event.turns i = 0
  · rw [agent_kept inv worker other, other]
    exact ⟨agent, n, found, looping, few⟩
  · cases event with
    | fire j input =>
      have here : j = i := by
        by_contra differs
        simp [Event.turns, differs] at other
      subst here
      obtain ⟨k, still, fewer⟩ := advance_looping store cron (heard stop s.cancelled input) looping s.machine
      have stopped : (heard stop s.cancelled input).stopped = true := by
        rcases told with rfl | cancelled
        · rfl
        · rw [heard, cancelled, Bool.or_true]
      refine ⟨_, k, ?_, still, (fewer stopped).trans (by simp [Event.turns]; omega)⟩
      simp only [Reconciler.next, step, worker]
      rw [(next_tick store cron _ found).1, List.getElem?_set_self (List.getElem?_eq_some_iff.mp found).1]
    | _ => exact absurd rfl other

theorem Ending.run {i : Nat} {l : Loop} {steps : Nat} (events : List (Event σ)) {s : State σ} (inv : Inv s)
    (ending : Ending i l steps s) :
    Ending i l (steps - (events.map (Event.turns i)).sum) (run store cron rt scheduled specs events s) := by
  induction events generalizing s steps with
  | nil => exact ending
  | cons event events ih =>
    have rest := @ih (steps - event.turns i) (Reconciler.next store cron rt scheduled specs s event) (inv.next event)
      (ending.next inv event)
    rw [List.map_cons, List.sum_cons, ← Nat.sub_sub]
    exact rest

/-- A loop that was told to stop, or that the shutdown meets, returns within five steps of its own. -/
theorem winds_up (rows : σ) (registry : Memory.Schedules) {events later : List (Event σ)} {i : Nat} {l : Loop}
    {stop : Bool} (worker : (run store cron rt scheduled specs events (start rows registry)).fleet.workers[i]? =
      some (l, stop))
    (told : stop = true ∨ (run store cron rt scheduled specs events (start rows registry)).cancelled = true)
    (enough : 5 ≤ (later.map (Event.turns i)).sum) :
    ∃ agent, (run store cron rt scheduled specs (events ++ later) (start rows registry)).machine.agents[l.agent]? =
      some agent ∧ agent.control = .returned := by
  have inv : Inv (run store cron rt scheduled specs events (start rows registry)) := run_inv rows registry events
  obtain ⟨agent, found, -, n, looping⟩ := inv.runs worker
  have few : n ≤ 5 := by
    cases control : agent.control <;> rw [control] at looping <;> cases looping <;> decide
  have ending : Ending i l 5 _ := ⟨⟨stop, worker, told⟩, agent, n, found, looping, few⟩
  obtain ⟨-, agent, k, held, ended, done⟩ := ending.run later inv
  refine ⟨agent, by rw [run, Runs.run_append, held], ?_⟩
  have none_left : k = 0 := by omega
  subst none_left
  cases control : agent.control <;> rw [control] at ended <;> first | rfl | cases ended

end Passes

def lenient : Specs := ⟨fun _ => none, fun _ => true⟩

def registered : Memory.Schedules :=
  Table.put ∅ "nightly" { toWorkflowSchedule := Scheduler.nightly, scheduleId := "s1" }

/-- The loop is installed, sleeps until its tick and is past its sleep when the schedule is paused. -/
def pausing : List (Event Memory.Inner) :=
  [.reconcile {}, .reconcile {}, .reconcile {}, .reconcile {}, .reconcile {}, .fire 0 {}, .fire 0 {},
    .call (.setScheduleStatus "nightly" .paused), .reconcile {}]

def paused : State Memory.Inner :=
  run Memory.rowStore Scheduler.twoTicks (Scheduler.executor "a") [] lenient pausing (start Memory.Inner.new registered)

theorem pause_silences_nightly :
    let s' := run Memory.rowStore Scheduler.twoTicks (Scheduler.executor "a") [] lenient
      [.reconcile {}, .fire 0 {}, .fire 0 {}, .fire 0 {}, .fire 0 {}] paused
    (∀ (i : Nat) (l : Loop) (stop : Bool), s'.fleet.workers[i]? = some (l, stop) → l.name = "nightly" → stop = true) ∧
      fires "nightly" s'.machine ≤ fires "nightly" paused.machine + firing "nightly" paused.machine := by
  have none_yet : Named ∅ := fun name row stored => by cases stored
  have named : Named registered := none_yet.put { toWorkflowSchedule := Scheduler.nightly, scheduleId := "s1" }
  have bare : ∀ spec, ("nightly", spec) ∉ ([] : List (String × String)) := nofun
  refine pause_silences Memory.Inner.new named bare rfl rfl rfl rfl ?_
  refine ⟨?_, ?_, ?_, ?_, ?_, trivial⟩ <;>
    · intro row stored
      cases stored
      decide

example : fires "nightly" paused.machine + firing "nightly" paused.machine = 1 := rfl

theorem winds_up_nightly : ∃ agent,
    (run Memory.rowStore Scheduler.twoTicks (Scheduler.executor "a") [] lenient
      ((pausing ++ [.reconcile {}]) ++ [.fire 0 {}, .fire 0 {}, .fire 0 {}, .fire 0 {}, .fire 0 {}])
      (start Memory.Inner.new registered)).machine.agents[0]? = some agent ∧ agent.control = .returned := by
  have worker : (run Memory.rowStore Scheduler.twoTicks (Scheduler.executor "a") [] lenient (pausing ++ [.reconcile {}])
      (start Memory.Inner.new registered)).fleet.workers[0]? =
        some (⟨{ toWorkflowSchedule := Scheduler.nightly, scheduleId := "s1" }, 0⟩, true) := rfl
  exact winds_up Memory.Inner.new registered worker (.inl rfl) (by decide)

end Durare.Reconciler

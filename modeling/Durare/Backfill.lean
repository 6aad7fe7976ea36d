import Durare.Ticks

/-! Which ticks of a schedule with automatic backfill have a row once a reconciler has caught up
with them. -/
namespace Durare.Scheduler

/-- The instants of cron are whole seconds of years with four digits. -/
def WholeSeconds (Matches : String → Option String → DateTime → Prop) : Prop :=
  ∀ spec zone i, Matches spec zone i → ∃ seconds : Int, 0 ≤ seconds ∧ seconds < 253402300800 ∧ i = seconds * 1000000000

/-- The cursor keeps milliseconds, so it keeps such an instant. -/
theorem cursor_exact {seconds : Int} (low : 0 ≤ seconds) (high : seconds < 253402300800) :
    DateTime.fromTimestampMillis (DateTime.timestampMillis (seconds * 1000000000)) = some (seconds * 1000000000) := by
  have millis : DateTime.timestampMillis (seconds * 1000000000) = seconds * 1000 := by
    unfold DateTime.timestampMillis
    omega
  have nanos : seconds * 1000 * 1000000 = seconds * 1000000000 := by omega
  rw [millis, DateTime.fromTimestampMillis, if_pos (by omega), nanos]

section Plan

variable {σ : Type} (store : RowStore σ) (cron : Cron) (Matches : String → Option String → DateTime → Prop)
  (plan : WorkflowSchedule)

def HasRow (rows : σ) (i : DateTime) : Prop := store.stored rows (tickId cron plan.scheduleName i) = true

/-- The rows of all ticks of the schedule from `low` on and before `high` are there. -/
def Covered (rows : σ) (low high : DateTime) : Prop :=
  ∀ i, Matches plan.schedule plan.cronTimezone i → low ≤ i → i < high → HasRow store cron plan rows i

def firstFired (s : State σ) : Option DateTime := (s.fired.find? fun p => p.1 == plan.scheduleName).map Prod.snd

/-- Between the reading of the clock and the installation of the loop. -/
def isCatching : Control → Bool
  | .ranging .automatic _ _ | .filling .automatic _ | .filled .automatic _ _ _ => true
  | _ => false

/-- The tick a loop waits for or is about to persist. -/
def awaited : Control → Option DateTime
  | .sleeping i | .persisting i => some i
  | _ => none

/-- A loop installed with a cursor finds no gap from the first firing up to the time of its installation,
and the cursor has none behind it. -/
def CaughtUp (s : State σ) : Prop :=
  ∀ first, firstFired plan s = some first →
    (∀ agent ∈ s.agents, agent.schedule.scheduleName = plan.scheduleName → ∀ t, agent.installed = some t →
      isCatching agent.control = false → Covered store cron Matches plan s.store first t) ∧
    ∀ last, s.lastFired plan.scheduleName = some last → Covered store cron Matches plan s.store first (last + 1)

/-- What a step of the schedule's loops and backfills must not meet for a tick to be left out. -/
def Timely (s : State σ) (agent : Agent) (input : Input) : Prop :=
  match agent.control with
  | .listed =>
    -- The backfill begins a whole second after the cursor.
    ∀ first, firstFired plan s = some first → ∀ last, agent.schedule.lastFiredAt = some last →
      ∀ i, Matches plan.schedule plan.cronTimezone i → first ≤ i → last < i → i ≤ last + 1000000000 → i < input.clock →
        HasRow store cron plan s.store i
  | .filling .automatic (instant :: todo) =>
    -- A failure ends the backfill, and the loop is installed all the same.
    (∃ tick, (persist store cron .automatic agent.rt input.clock agent.schedule instant input.reply s.store).1 = .ok tick) ∨
      ∀ first, firstFired plan s = some first → ∀ i ∈ instant :: todo, first ≤ i → HasRow store cron plan
        (persist store cron .automatic agent.rt input.clock agent.schedule instant input.reply s.store).2.1 i
  | .top =>
    -- The loop goes on from the time it is, not from the tick it fired.
    ∀ first, firstFired plan s = some first →
      Covered store cron Matches plan s.store (max first (agent.mark.getD first)) (input.clock + 1)
  | .persisting instant =>
    -- The cursor moves on although the tick could not be persisted.
    match firstFired plan s with
    | some first => instant < first ∨ HasRow store cron plan
        (persist store cron .automatic agent.rt input.clock agent.schedule instant input.reply s.store).2.1 instant
    | none => HasRow store cron plan
        (persist store cron .automatic agent.rt input.clock agent.schedule instant input.reply s.store).2.1 instant ∧
      -- Nor is the first firing so late that another loop waits beyond the tick after it.
      ∀ other ∈ s.agents, other.schedule.scheduleName = plan.scheduleName → ∀ j, awaited other.control = some j →
        Covered store cron Matches plan s.store (instant + 1) j
  | _ => True

/-- A definition under the schedule's name is the schedule's. -/
def Planned (schedule : WorkflowSchedule) : Prop :=
  schedule.scheduleName = plan.scheduleName →
    schedule.schedule = plan.schedule ∧ schedule.cronTimezone = plan.cronTimezone ∧ schedule.automaticBackfill = true

/-- No workflow is deleted, the schedule keeps its definition, and its steps are timely. -/
def Meets (s : State σ) : Event σ → Prop
  | .outside rows => ∀ id, store.stored s.store id = true → store.stored rows id = true
  | .recreate name => name ≠ plan.scheduleName
  | .reconcile _ schedule | .backfill _ schedule _ _ _ => Planned plan schedule
  | .tick i input => ∀ agent, s.agents[i]? = some agent → agent.schedule.scheduleName = plan.scheduleName →
      Timely store cron Matches plan s agent input
  | .crash _ => True

/-- How far an agent has come: all ticks before an instant have their rows, or are still in hand. -/
def frontier (agent : Agent) : Option (DateTime × List DateTime) :=
  match agent.control with
  | .listed => agent.schedule.lastFiredAt.map fun last => (last + 1, [])
  | .ranging .automatic begins _ => some (begins + 1, [])
  | .filling .automatic todo | .filled .automatic _ _ todo => agent.mark.map (·, todo)
  | .top => agent.mark.map (·, [])
  | .sleeping i | .persisting i => some (i, [])
  | .launching i _ | .stamping i => some (i + 1, [])
  | _ => none

/-- What holds of an agent of the schedule once a first tick was fired. -/
structure Sound (first : DateTime) (rows : σ) (agent : Agent) : Prop where
  reach : ∀ bound todo, frontier agent = some (bound, todo) → ∀ i, Matches plan.schedule plan.cronTimezone i →
    first ≤ i → i < bound → i ∈ todo ∨ HasRow store cron plan rows i
  listed : agent.control = .listed → agent.mark = none
  ranging : ∀ begins stop, agent.control = .ranging .automatic begins stop → agent.mark = some stop
  installed : ∀ t, agent.installed = some t → isCatching agent.control = true ∧ agent.mark = some t ∨
    Covered store cron Matches plan rows first t

/-- What holds of it before. -/
structure Unfired (agent : Agent) : Prop where
  mark : agent.mark = none
  installed : agent.installed = none
  reach : ∀ bound todo, frontier agent = some (bound, todo) → awaited agent.control = some bound

end Plan

section Step

variable {σ : Type} {store : RowStore σ} {cron : Cron} {Matches : String → Option String → DateTime → Prop}
  {plan : WorkflowSchedule}

theorem Covered.mono {rows rows' : σ} {low high : DateTime} (covered : Covered store cron Matches plan rows low high)
    (kept : ∀ id, store.stored rows id = true → store.stored rows' id = true) :
    Covered store cron Matches plan rows' low high :=
  fun i matched le lt => kept _ (covered i matched le lt)

theorem Sound.mono {first : DateTime} {rows rows' : σ} {agent : Agent}
    (sound : Sound store cron Matches plan first rows agent)
    (kept : ∀ id, store.stored rows id = true → store.stored rows' id = true) :
    Sound store cron Matches plan first rows' agent where
  reach bound todo found i matched le lt := (sound.reach bound todo found i matched le lt).imp_right (kept _)
  listed := sound.listed
  ranging := sound.ranging
  installed t found := (sound.installed t found).imp_right fun covered => covered.mono kept

/-- The step keeps the definition, logs a firing when it persists a live tick, and moves the cursor
when it stamps. -/
structure Moved (agent : Agent) (s : State σ) (after : Agent × State σ) : Prop where
  schedule : after.1.schedule = agent.schedule
  fired : (∀ i, agent.control ≠ .persisting i) ∧ after.2.fired = s.fired ∨
    ∃ i, agent.control = .persisting i ∧ after.2.fired = s.fired ++ [(agent.schedule.scheduleName, i)]
  lastFired : after.2.lastFired = s.lastFired ∨
    ∃ i, agent.control = .stamping i ∧ after.2.lastFired =
      Function.update s.lastFired agent.schedule.scheduleName (DateTime.fromTimestampMillis i.timestampMillis)

theorem attempt_logs {origin : Origin} {input : Input} {agent : Agent} {s s' : State σ} {instant : DateTime}
    {answer : Except Error Tick} (tried : attempt store cron origin input agent instant s = (answer, s')) :
    s'.fired = s.fired ∧ s'.lastFired = s.lastFired ∧ s'.agents = s.agents ∧
      (answer, s'.store) = ((persist store cron origin agent.rt input.clock agent.schedule instant input.reply s.store).1,
        (persist store cron origin agent.rt input.clock agent.schedule instant input.reply s.store).2.1) := by
  simp only [attempt, Prod.mk.injEq] at tried
  obtain ⟨rfl, rfl⟩ := tried
  exact ⟨rfl, rfl, rfl, rfl⟩

theorem launch_logs (agent : Agent) (instant : DateTime) (tick : Tick) (s : State σ) :
    (launch agent instant tick s).fired = s.fired ∧ (launch agent instant tick s).lastFired = s.lastFired ∧
      (launch agent instant tick s).store = s.store := by
  unfold launch
  split <;> exact ⟨rfl, rfl, rfl⟩

theorem advance_moved (input : Input) (agent : Agent) (s : State σ) :
    Moved agent s (advance store cron input agent s) := by
  obtain ⟨rt, schedule, control, installed, mark⟩ := agent
  cases control with
  | listed =>
    simp only [advance]
    split <;> exact ⟨rfl, .inl ⟨by simp, rfl⟩, .inl rfl⟩
  | ranging origin begins stop =>
    simp only [advance]
    cases cron.parse schedule.schedule with
    | none => exact ⟨rfl, .inl ⟨by simp, rfl⟩, .inl rfl⟩
    | some next =>
      cases found : Successor.between (next schedule.cronTimezone) input.fuel begins stop <;>
        (simp only [found]; exact ⟨rfl, .inl ⟨by simp, rfl⟩, .inl rfl⟩)
  | filling origin todo =>
    cases todo with
    | nil => exact ⟨rfl, .inl ⟨by simp, rfl⟩, .inl rfl⟩
    | cons instant todo =>
      simp only [advance]
      cases tried : attempt store cron origin input ⟨rt, schedule, .filling origin (instant :: todo), installed, mark⟩ instant s with
      | mk answer s' =>
        obtain ⟨fired, lastFired, -⟩ := attempt_logs tried
        cases answer <;> exact ⟨rfl, .inl ⟨by simp, fired⟩, .inl lastFired⟩
  | filled origin instant tick todo =>
    obtain ⟨fired, lastFired, -⟩ := launch_logs ⟨rt, schedule, .filled origin instant tick todo, installed, mark⟩ instant tick s
    exact ⟨rfl, .inl ⟨by simp, fired⟩, .inl lastFired⟩
  | top =>
    simp only [advance]
    split
    · exact ⟨rfl, .inl ⟨by simp, rfl⟩, .inl rfl⟩
    · cases cron.parse schedule.schedule with
      | none => exact ⟨rfl, .inl ⟨by simp, rfl⟩, .inl rfl⟩
      | some next =>
        cases found : next schedule.cronTimezone input.clock <;> (simp only [found]; exact ⟨rfl, .inl ⟨by simp, rfl⟩, .inl rfl⟩)
  | sleeping instant => exact ⟨rfl, .inl ⟨by simp, rfl⟩, .inl rfl⟩
  | persisting instant =>
    simp only [advance]
    cases tried : attempt store cron .automatic input ⟨rt, schedule, .persisting instant, installed, mark⟩ instant
      (fire ⟨rt, schedule, .persisting instant, installed, mark⟩ instant s) with
    | mk answer s' =>
      obtain ⟨fired, lastFired, -⟩ := attempt_logs tried
      cases answer <;> exact ⟨rfl, .inr ⟨instant, rfl, fired⟩, .inl lastFired⟩
  | launching instant tick =>
    obtain ⟨fired, lastFired, -⟩ := launch_logs ⟨rt, schedule, .launching instant tick, installed, mark⟩ instant tick s
    exact ⟨rfl, .inl ⟨by simp, fired⟩, .inl lastFired⟩
  | stamping instant =>
    cases reply : input.reply with
    | failed e => exact ⟨rfl, .inl ⟨by simp, by simp [advance, stamp, reply]⟩, .inl (by simp [advance, stamp, reply])⟩
    | delivered => exact ⟨rfl, .inl ⟨by simp, by simp [advance, stamp, reply]⟩, .inr ⟨instant, rfl, by simp [advance, stamp, reply]⟩⟩
    | lost e => exact ⟨rfl, .inl ⟨by simp, by simp [advance, stamp, reply]⟩, .inr ⟨instant, rfl, by simp [advance, stamp, reply]⟩⟩
  | returned => exact ⟨rfl, .inl ⟨by simp, rfl⟩, .inl rfl⟩

/-- A live tick that left its row moves the loop past it. -/
theorem reach_past {rows rows' : σ} {first i : DateTime} (reached : Covered store cron Matches plan rows first i)
    (kept : ∀ id, store.stored rows id = true → store.stored rows' id = true)
    (left : first ≤ i → HasRow store cron plan rows' i) : Covered store cron Matches plan rows' first (i + 1) := by
  intro j matched le lt
  by_cases same : j = i
  · subst same
    exact left le
  · exact kept _ (reached j matched le (lt_of_le_of_ne (Int.lt_add_one_iff.mp lt) same))

theorem Sound.covered {first bound : DateTime} {rows : σ} {agent : Agent}
    (sound : Sound store cron Matches plan first rows agent)
    (found : frontier agent = some (bound, [])) : Covered store cron Matches plan rows first bound := by
  intro i matched le lt
  rcases sound.reach bound [] found i matched le lt with member | row
  · cases member
  · exact row

/-- An agent that is not catching up moves on to a control in which it is not either. -/
theorem Sound.moves {first : DateTime} {rows rows' : σ} {agent : Agent}
    (sound : Sound store cron Matches plan first rows agent)
    (kept : ∀ id, store.stored rows id = true → store.stored rows' id = true) (idle : isCatching agent.control = false)
    (control : Control) (mark : Option DateTime) (idle' : isCatching control = false ∧ control ≠ .listed)
    (reach : ∀ bound todo, frontier { agent with control := control, mark := mark } = some (bound, todo) →
      Covered store cron Matches plan rows' first bound) :
    Sound store cron Matches plan first rows' { agent with control := control, mark := mark } where
  reach bound todo found i matched le lt := .inr (reach bound todo found i matched le lt)
  listed same := absurd same idle'.2
  ranging begins stop same := by
    have same : control = .ranging .automatic begins stop := same
    simp [same, isCatching] at idle'
  installed t found := by
    rcases sound.installed t found with ⟨catching, -⟩ | covered
    · rw [idle] at catching
      cases catching
    · exact .inr (covered.mono kept)

/-- The backfill is over: what was in hand at the time of the installation has its rows. -/
theorem Sound.leaves {first : DateTime} {rows rows' : σ} {agent : Agent}
    (sound : Sound store cron Matches plan first rows agent)
    (kept : ∀ id, store.stored rows id = true → store.stored rows' id = true)
    (filled : ∀ mark, agent.mark = some mark → Covered store cron Matches plan rows' first mark) :
    Sound store cron Matches plan first rows' { agent with control := .top } where
  reach bound todo found := by
    simp only [frontier, Option.map_eq_some_iff, Prod.mk.injEq] at found
    obtain ⟨mark, marked, rfl, rfl⟩ := found
    exact fun i matched le lt => .inr (filled mark marked i matched le lt)
  listed same := by cases same
  ranging begins stop same := by cases same
  installed t found := by
    rcases sound.installed t found with ⟨-, marked⟩ | covered
    · exact .inr (filled t marked)
    · exact .inr (covered.mono kept)

/-- A step of the schedule's agent once a first tick was fired. -/
theorem advance_sound (law : CronLaw cron Matches) {next : Option String → DateTime → Option DateTime}
    (parsed : cron.parse plan.schedule = some next) {first : DateTime} {input : Input} {agent : Agent} {s : State σ}
    (named : agent.schedule.scheduleName = plan.scheduleName) (planned : Planned plan agent.schedule)
    (fired : firstFired plan s = some first) (timely : Timely store cron Matches plan s agent input)
    (sound : Sound store cron Matches plan first s.store agent) :
    Sound store cron Matches plan first (advance store cron input agent s).2.store (advance store cron input agent s).1 := by
  have kept : ∀ id, store.stored s.store id = true → store.stored (advance store cron input agent s).2.store id = true :=
    (advance_advanced law input agent s).rows
  obtain ⟨spec, zone, automatic⟩ := planned named
  have least := law.least parsed plan.cronTimezone
  obtain ⟨rt, schedule, control, installed, mark⟩ := agent
  simp only at spec zone automatic named
  cases control with
  | listed =>
    have unmarked : mark = none := sound.listed rfl
    subst unmarked
    cases cursor : schedule.lastFiredAt with
    | none =>
      simp only [advance, automatic, cursor]
      exact sound.moves (fun _ present => present) rfl .top none ⟨rfl, by simp⟩ fun bound todo found => by cases found
    | some last =>
      have behind : Covered store cron Matches plan s.store first (last + 1) :=
        sound.covered (by simp [frontier, cursor])
      have skipped := timely first fired last cursor
      simp only [advance, automatic, cursor]
      by_cases ahead : last + 1000000000 < input.clock
      · simp only [ahead, if_true]
        constructor
        · intro bound todo found i matched le lt
          cases found
          by_cases old : i ≤ last
          · exact .inr (behind i matched le (Int.lt_add_one_iff.mpr old))
          · have close := Int.lt_add_one_iff.mp lt
            exact .inr (skipped i matched le (not_le.mp old) close (lt_of_le_of_lt close ahead))
        · intro same
          cases same
        · intro begins stop same
          cases same
          rfl
        · intro t found
          cases found
          exact .inl ⟨rfl, rfl⟩
      · have covered : Covered store cron Matches plan s.store first input.clock := by
          intro i matched le lt
          by_cases old : i ≤ last
          · exact behind i matched le (Int.lt_add_one_iff.mpr old)
          · exact skipped i matched le (not_le.mp old) (le_trans (le_of_lt lt) (not_lt.mp ahead)) lt
        simp only [ahead, if_false]
        constructor
        · intro bound todo found i matched le lt
          cases found
          exact .inr (covered i matched le lt)
        · intro same
          cases same
        · intro begins stop same
          cases same
        · intro t found
          cases found
          exact .inr covered
  | ranging origin begins stop =>
    cases origin with
    | automatic =>
      simp only [advance, spec, parsed, zone]
      cases ended : Successor.between (next plan.cronTimezone) input.fuel begins stop with
      | none => exact sound
      | some ticks =>
        have marked := sound.ranging begins stop rfl
        constructor
        · intro bound todo found i matched le lt
          simp only [frontier, Option.map_eq_some_iff, Prod.mk.injEq] at found
          obtain ⟨bound, same, rfl, rfl⟩ := found
          cases marked.symm.trans same
          by_cases near : i < begins + 1
          · exact .inr ((sound.reach _ _ rfl i matched le near).resolve_left List.not_mem_nil)
          · exact .inl ((Successor.mem_between least ended i).mpr ⟨matched, not_le.mp (mt Int.lt_add_one_iff.mpr near), lt⟩)
        · intro same
          cases same
        · intro begins stop same
          cases same
        · intro t found
          exact (sound.installed t found).imp_left (And.imp_left fun _ => rfl)
    | _ =>
      simp only [advance, spec, parsed, zone]
      cases ended : Successor.between (next plan.cronTimezone) input.fuel begins stop with
      | none => exact sound
      | some ticks =>
        exact sound.moves (fun _ present => present) rfl (.filling _ ticks) mark ⟨rfl, by simp⟩ fun bound todo found => by
          cases found
  | filling origin todo =>
    cases origin with
    | automatic =>
      cases todo with
      | nil =>
        refine sound.leaves kept fun bound marked => ?_
        obtain rfl : mark = some bound := marked
        exact (sound.covered rfl).mono kept
      | cons instant todo =>
        simp only [advance] at kept ⊢
        cases tried : attempt store cron .automatic input ⟨rt, schedule, .filling .automatic (instant :: todo), installed, mark⟩
          instant s with
        | mk answer s' =>
          obtain ⟨-, -, -, same⟩ := attempt_logs tried
          have rows : s'.store = _ := congrArg Prod.snd same
          rw [tried] at kept
          cases answer with
          | error e =>
            have left : ∀ i ∈ instant :: todo, first ≤ i → HasRow store cron plan s'.store i := by
              rcases timely with ⟨tick, done⟩ | rest
              · rw [← (Prod.mk.inj same).1] at done
                cases done
              · exact rows ▸ rest first fired
            refine sound.leaves kept fun bound marked i matched le lt => ?_
            obtain rfl : mark = some bound := marked
            rcases sound.reach bound (instant :: todo) rfl i matched le lt with member | row
            · exact left i member le
            · exact kept _ row
          | ok tick =>
            have done := (@persisted _ store cron .automatic rt input.clock schedule instant input.reply s.store).reply tick
              (Prod.mk.inj same).1.symm
            have here : HasRow store cron plan s'.store instant := by
              rw [HasRow, ← named, rows]
              exact done.2
            constructor
            · intro bound rest found i matched le lt
              simp only [frontier, Option.map_eq_some_iff, Prod.mk.injEq] at found
              obtain ⟨bound, rfl, rfl, rfl⟩ := found
              rcases sound.reach bound (instant :: todo) rfl i matched le lt with member | row
              · rcases List.mem_cons.mp member with rfl | later
                · exact .inr here
                · exact .inl later
              · exact .inr (kept _ row)
            · intro same
              cases same
            · intro begins stop same
              cases same
            · intro t found
              exact (sound.installed t found).imp (And.imp_left fun _ => rfl) fun covered => covered.mono kept
    | _ =>
      cases todo with
      | nil => exact sound.moves kept rfl .returned mark ⟨rfl, by simp⟩ fun bound todo found => by cases found
      | cons instant todo =>
        simp only [advance] at kept ⊢
        split at kept
        · exact sound.moves kept rfl (.filled _ instant _ todo) mark ⟨rfl, by simp⟩ fun bound todo found => by cases found
        · exact sound.moves kept rfl .returned mark ⟨rfl, by simp⟩ fun bound todo found => by cases found
  | filled origin instant tick todo =>
    cases origin with
    | automatic =>
      constructor
      · intro bound rest found i matched le lt
        exact (sound.reach bound rest found i matched le lt).imp_right (kept _)
      · intro same
        cases same
      · intro begins stop same
        cases same
      · intro t found
        exact (sound.installed t found).imp (And.imp_left fun _ => rfl) fun covered => covered.mono kept
    | _ => exact sound.moves kept rfl (.filling _ todo) mark ⟨rfl, by simp⟩ fun bound todo found => by cases found
  | top =>
    simp only [advance]
    split
    · exact sound.moves (fun _ present => present) rfl .returned mark ⟨rfl, by simp⟩ fun bound todo found => by cases found
    · simp only [spec, parsed]
      cases found : next schedule.cronTimezone input.clock with
      | none => exact sound.moves (fun _ present => present) rfl .returned mark ⟨rfl, by simp⟩ fun bound todo found => by cases found
      | some instant =>
        refine sound.moves (fun _ present => present) rfl (.sleeping instant) mark ⟨rfl, by simp⟩ fun bound todo reached => ?_
        cases reached
        intro i matched le lt
        have soonest := (least.some (zone ▸ found)).2.2 i matched
        by_cases ahead : input.clock < i
        · exact absurd lt (not_lt.mpr (soonest ahead))
        · by_cases come : max first (mark.getD first) ≤ i
          · exact timely first fired i matched come (Int.lt_add_one_iff.mpr (not_lt.mp ahead))
          · cases mark with
            | none =>
              simp only [Option.getD_none, max_self] at come
              exact absurd le come
            | some mark => exact sound.covered rfl i matched le (lt_of_not_ge fun past => come (max_le le past))
  | sleeping instant =>
    by_cases slept : input.slept = true
    · simp only [advance, slept, if_true]
      exact sound.moves kept rfl (.persisting instant) mark ⟨rfl, by simp⟩ fun bound todo found => by
        cases found
        exact sound.covered rfl
    · simp only [advance, slept, Bool.false_eq_true, if_false]
      exact sound.moves kept rfl .returned mark ⟨rfl, by simp⟩ fun bound todo found => by cases found
  | persisting instant =>
    simp only [Timely, fired] at timely
    simp only [advance] at kept ⊢
    cases tried : attempt store cron .automatic input ⟨rt, schedule, .persisting instant, installed, mark⟩ instant
      (fire ⟨rt, schedule, .persisting instant, installed, mark⟩ instant s) with
    | mk answer s' =>
      obtain ⟨-, -, -, same⟩ := attempt_logs tried
      have rows : s'.store = _ := congrArg Prod.snd same
      rw [tried] at kept
      have past : Covered store cron Matches plan s'.store first (instant + 1) :=
        reach_past (sound.covered rfl) (by cases answer <;> exact kept) fun le => by
          rcases timely with before | row
          · exact absurd le (not_le.mpr before)
          · rw [rows]
            exact row
      cases answer with
      | error e =>
        exact sound.moves kept rfl (.stamping instant) mark ⟨rfl, by simp⟩ fun bound todo found => by
          cases found
          exact past
      | ok tick =>
        exact sound.moves kept rfl (.launching instant tick) mark ⟨rfl, by simp⟩ fun bound todo found => by
          cases found
          exact past
  | launching instant tick =>
    exact sound.moves kept rfl (.stamping instant) mark ⟨rfl, by simp⟩ fun bound todo found => by
      cases found
      exact (sound.covered rfl).mono kept
  | stamping instant =>
    exact sound.moves kept rfl .top (some (instant + 1)) ⟨rfl, by simp⟩ fun bound todo found => by
      cases found
      exact (sound.covered rfl).mono kept
  | returned => exact sound

/-- A step of the schedule's agent that fires nothing, before anything was fired. -/
theorem advance_unfired {input : Input} {agent : Agent} {s : State σ} (unfired : Unfired agent)
    (quiet : ∀ i, agent.control ≠ .persisting i) : Unfired (advance store cron input agent s).1 := by
  obtain ⟨rt, schedule, control, installed, mark⟩ := agent
  obtain ⟨rfl, rfl, reach⟩ : mark = none ∧ installed = none ∧ _ := ⟨unfired.mark, unfired.installed, unfired.reach⟩
  have nowhere {control' : Control} (empty : frontier ⟨rt, schedule, control', none, none⟩ = none) :
      Unfired ⟨rt, schedule, control', none, none⟩ := by
    refine ⟨rfl, rfl, fun bound todo found => ?_⟩
    rw [empty] at found
    cases found
  cases control with
  | listed =>
    cases cursor : schedule.lastFiredAt with
    | none =>
      cases automatic : schedule.automaticBackfill <;>
        (simp only [advance, automatic, cursor]; exact nowhere rfl)
    | some last =>
      have waiting := reach (last + 1) [] (by simp [frontier, cursor])
      cases waiting
  | ranging origin begins stop =>
    cases origin with
    | automatic =>
      have waiting := reach _ _ rfl
      cases waiting
    | _ =>
      simp only [advance]
      cases cron.parse schedule.schedule with
      | none => exact nowhere rfl
      | some next =>
        cases ended : Successor.between (next schedule.cronTimezone) input.fuel begins stop with
        | none =>
          simp only [ended]
          exact nowhere rfl
        | some ticks =>
          simp only [ended]
          exact nowhere rfl
  | filling origin todo =>
    cases todo with
    | nil => cases origin <;> exact nowhere rfl
    | cons instant todo =>
      simp only [advance]
      split <;> cases origin <;> exact nowhere rfl
  | filled origin instant tick todo => cases origin <;> exact nowhere rfl
  | top =>
    simp only [advance]
    split
    · exact nowhere rfl
    · cases cron.parse schedule.schedule with
      | none => exact nowhere rfl
      | some next =>
        cases found : next schedule.cronTimezone input.clock with
        | none =>
          simp only [found]
          exact nowhere rfl
        | some instant =>
          simp only [found]
          exact ⟨rfl, rfl, fun bound todo reached => by cases reached; rfl⟩
  | sleeping instant =>
    by_cases slept : input.slept = true
    · simp only [advance, slept, if_true]
      exact ⟨rfl, rfl, fun bound todo reached => by cases reached; rfl⟩
    · simp only [advance, slept, Bool.false_eq_true, if_false]
      exact nowhere rfl
  | persisting instant => exact absurd rfl (quiet instant)
  | launching instant tick =>
    have waiting := reach _ _ rfl
    cases waiting
  | stamping instant =>
    have waiting := reach _ _ rfl
    cases waiting
  | returned => exact unfired

/-- The first firing: its tick has its row, and so have those that other loops have left behind. -/
theorem Unfired.sound {rows rows' : σ} {instant : DateTime} {agent : Agent} (unfired : Unfired agent)
    (kept : ∀ id, store.stored rows id = true → store.stored rows' id = true) (row : HasRow store cron plan rows' instant)
    (between : ∀ j, awaited agent.control = some j → Covered store cron Matches plan rows (instant + 1) j) :
    Sound store cron Matches plan instant rows' agent where
  reach bound todo found i matched le lt := by
    by_cases same : i = instant
    · exact .inr (same ▸ row)
    · have later : instant + 1 ≤ i := lt_of_le_of_ne le (Ne.symm same)
      exact .inr (kept _ (between bound (unfired.reach bound todo found) i matched later lt))
  listed _ := unfired.mark
  ranging begins stop same := by
    have waiting := unfired.reach (begins + 1) [] (by simp [frontier, same])
    simp [same, awaited] at waiting
  installed t found := by
    rw [unfired.installed] at found
    cases found

theorem advance_first {input : Input} {agent : Agent} {s : State σ} {instant : DateTime}
    (named : agent.schedule.scheduleName = plan.scheduleName) (at_firing : agent.control = .persisting instant)
    (none_yet : firstFired plan s = none) (timely : Timely store cron Matches plan s agent input) (unfired : Unfired agent) :
    HasRow store cron plan (advance store cron input agent s).2.store instant ∧
      Sound store cron Matches plan instant (advance store cron input agent s).2.store (advance store cron input agent s).1 := by
  obtain ⟨rt, schedule, control, installed, mark⟩ := agent
  obtain ⟨rfl, rfl, rfl⟩ : mark = none ∧ installed = none ∧ control = .persisting instant :=
    ⟨unfired.mark, unfired.installed, at_firing⟩
  simp only [Timely, none_yet] at timely
  simp only [advance]
  cases tried : attempt store cron .automatic input ⟨rt, schedule, .persisting instant, none, none⟩ instant
    (fire ⟨rt, schedule, .persisting instant, none, none⟩ instant s) with
  | mk answer s' =>
    obtain ⟨-, -, -, same⟩ := attempt_logs tried
    have row : HasRow store cron plan s'.store instant := by
      have rows : s'.store = _ := congrArg Prod.snd same
      rw [rows]
      exact timely.1
    have sound (control' : Control) (past : frontier ⟨rt, schedule, control', none, none⟩ = some (instant + 1, []))
        (idle : isCatching control' = false) : Sound store cron Matches plan instant s'.store ⟨rt, schedule, control', none, none⟩ := by
      refine ⟨fun bound todo found i matched le lt => ?_, fun _ => rfl, fun begins stop same => ?_, fun t found => by cases found⟩
      · cases past.symm.trans found
        exact .inr (le_antisymm (Int.lt_add_one_iff.mp lt) le ▸ row)
      · obtain rfl : control' = .ranging .automatic begins stop := same
        cases idle
    cases answer with
    | error e => exact ⟨row, sound (.stamping instant) rfl rfl⟩
    | ok tick => exact ⟨row, sound (.launching instant tick) rfl rfl⟩

theorem firstFired_grown {s s' : State σ} {name : String} {i : DateTime} (grown : s'.fired = s.fired ++ [(name, i)]) :
    firstFired plan s' = (firstFired plan s).or (if name = plan.scheduleName then some i else none) := by
  simp only [firstFired, grown, List.find?_append]
  cases found : s.fired.find? fun p => p.1 == plan.scheduleName with
  | some p => simp
  | none => by_cases same : name = plan.scheduleName <;> simp [same]

structure Catches (store : RowStore σ) (cron : Cron) (Matches : String → Option String → DateTime → Prop)
    (plan : WorkflowSchedule) (s : State σ) : Prop where
  planned : ∀ agent ∈ s.agents, Planned plan agent.schedule
  before : firstFired plan s = none → s.lastFired plan.scheduleName = none ∧
    ∀ agent ∈ s.agents, agent.schedule.scheduleName = plan.scheduleName → Unfired agent
  since : ∀ first, firstFired plan s = some first →
    (∀ last, s.lastFired plan.scheduleName = some last → Covered store cron Matches plan s.store first (last + 1)) ∧
    ∀ agent ∈ s.agents, agent.schedule.scheduleName = plan.scheduleName → Sound store cron Matches plan first s.store agent

theorem next_catches (law : CronLaw cron Matches) (whole : WholeSeconds Matches)
    {after : Option String → DateTime → Option DateTime} (parsed : cron.parse plan.schedule = some after) {s : State σ}
    {event : Event σ} (meets : Meets store cron Matches plan s event) (inv : Inv store cron Matches s)
    (catches : Catches store cron Matches plan s) : Catches store cron Matches plan (next store cron s event) := by
  have entered (agent : Agent) (planned : Planned plan agent.schedule)
      (new : agent.schedule.scheduleName = plan.scheduleName → (firstFired plan s = none → Unfired agent) ∧
        ∀ first, firstFired plan s = some first → Sound store cron Matches plan first s.store agent) :
      Catches store cron Matches plan { s with agents := s.agents ++ [agent] } := by
    refine ⟨fun other member => ?_, fun none_yet => ⟨(catches.before none_yet).1, fun other member named => ?_⟩,
      fun first fired => ⟨(catches.since first fired).1, fun other member named => ?_⟩⟩
    · rcases List.mem_append.mp member with old | added
      · exact catches.planned other old
      · exact List.mem_singleton.mp added ▸ planned
    · rcases List.mem_append.mp member with old | added
      · exact (catches.before none_yet).2 other old named
      · obtain rfl := List.mem_singleton.mp added
        exact (new named).1 none_yet
    · rcases List.mem_append.mp member with old | added
      · exact (catches.since first fired).2 other old named
      · obtain rfl := List.mem_singleton.mp added
        exact (new named).2 first fired
  cases event with
  | outside rows =>
    exact ⟨catches.planned, catches.before, fun first fired =>
      ⟨fun last cursor => ((catches.since first fired).1 last cursor).mono meets,
        fun agent member named => ((catches.since first fired).2 agent member named).mono meets⟩⟩
  | recreate name =>
    have other : plan.scheduleName ≠ name := Ne.symm meets
    refine ⟨catches.planned, fun none_yet => ⟨?_, (catches.before none_yet).2⟩, fun first fired => ⟨fun last cursor => ?_,
      (catches.since first fired).2⟩⟩
    · simp only [next, Function.update_of_ne other]
      exact (catches.before none_yet).1
    · simp only [next, Function.update_of_ne other] at cursor
      exact (catches.since first fired).1 last cursor
  | reconcile rt schedule =>
    refine entered _ meets fun named => ⟨fun none_yet => ⟨rfl, rfl, fun bound todo found => ?_⟩,
      fun first fired => ⟨fun bound todo found i matched le lt => ?_, fun _ => rfl, fun begins stop same => ?_,
        fun t found => by cases found⟩⟩
    · have cursor := (catches.before none_yet).1
      rw [← named] at cursor
      simp [frontier, cursor] at found
    · simp only [frontier, Option.map_eq_some_iff, Prod.mk.injEq] at found
      obtain ⟨last, cursor, rfl, rfl⟩ := found
      exact .inr ((catches.since first fired).1 last (named ▸ cursor) i matched le lt)
    · cases same
  | backfill rt schedule client begins stop =>
    have aside : frontier ⟨rt, schedule, .ranging (if client then .client else .manual) begins stop, none, none⟩ = none := by
      cases client <;> rfl
    refine entered _ meets fun named => ⟨fun none_yet => ⟨rfl, rfl, fun bound todo found => ?_⟩,
      fun first fired => ⟨fun bound todo found i matched le lt => ?_, fun _ => rfl, fun begins stop same => ?_,
        fun t found => by cases found⟩⟩
    · cases aside.symm.trans found
    · cases aside.symm.trans found
    · cases client <;> cases same
  | crash i =>
    exact ⟨fun agent member => catches.planned agent (List.mem_of_mem_eraseIdx member),
      fun none_yet => ⟨(catches.before none_yet).1, fun agent member =>
        (catches.before none_yet).2 agent (List.mem_of_mem_eraseIdx member)⟩,
      fun first fired => ⟨(catches.since first fired).1, fun agent member =>
        (catches.since first fired).2 agent (List.mem_of_mem_eraseIdx member)⟩⟩
  | tick i input =>
    simp only [next]
    cases found : s.agents[i]? with
    | none => exact catches
    | some agent =>
      have member := List.mem_of_getElem? found
      obtain ⟨kept, -, -, agents, -⟩ : Advanced store cron Matches agent s (advance store cron input agent s) :=
        advance_advanced law input agent s
      have moved : Moved agent s (advance store cron input agent s) := advance_moved input agent s
      have either {other : Agent} (there : other ∈ s.agents.set i (advance store cron input agent s).1) :
          other ∈ s.agents ∨ other = (advance store cron input agent s).1 := List.mem_or_eq_of_mem_set there
      have planned : ∀ other ∈ s.agents.set i (advance store cron input agent s).1, Planned plan other.schedule := by
        intro other there
        rcases either there with old | rfl
        · exact catches.planned other old
        · exact moved.schedule ▸ catches.planned agent member
      simp only [agents]
      by_cases named : agent.schedule.scheduleName = plan.scheduleName
      · cases beginning : firstFired plan s with
        | some first =>
          obtain ⟨behind, sound⟩ := catches.since first beginning
          have fired : firstFired plan (advance store cron input agent s).2 = some first := by
            rcases moved.fired with ⟨-, same⟩ | ⟨_, -, grown⟩
            · simpa only [firstFired, same] using beginning
            · rw [firstFired_grown grown, beginning, Option.some_or]
          refine ⟨planned, fun absent => ?_, fun first' some_fired => ?_⟩
          · cases fired.symm.trans absent
          · cases fired.symm.trans some_fired
            refine ⟨fun last cursor => ?_, fun other there named' => ?_⟩
            · rcases moved.lastFired with same | ⟨instant, at_stamp, stamped⟩
              · exact (behind last (same ▸ cursor)).mono kept
              · obtain ⟨spec, zone, matched⟩ := inv.ticks agent member instant (by simp [instants, at_stamp])
                obtain ⟨seconds, low, high, rfl⟩ := whole spec zone instant matched
                simp only [stamped, named, Function.update_self, cursor_exact low high] at cursor
                cases cursor
                exact ((sound agent member named).covered (by simp [frontier, at_stamp])).mono kept
            · rcases either there with old | rfl
              · exact (sound other old named').mono kept
              · exact advance_sound law parsed named (catches.planned agent member) beginning (meets agent found named)
                  (sound agent member named)
        | none =>
          obtain ⟨vacant, unfired⟩ := catches.before beginning
          rcases moved.fired with ⟨quiet, same⟩ | ⟨instant, at_firing, grown⟩
          · have none_yet : firstFired plan (advance store cron input agent s).2 = none := by
              simpa only [firstFired, same] using beginning
            refine ⟨planned, fun _ => ⟨?_, fun other there named' => ?_⟩, fun first some_fired => ?_⟩
            · rcases moved.lastFired with same | ⟨instant, at_stamp, -⟩
              · exact same ▸ vacant
              · have waiting := (unfired agent member named).reach (instant + 1) [] (by simp [frontier, at_stamp])
                simp [at_stamp, awaited] at waiting
            · rcases either there with old | rfl
              · exact unfired other old named'
              · exact advance_unfired (unfired agent member named) quiet
            · cases none_yet.symm.trans some_fired
          · have timely := meets agent found named
            obtain ⟨row, own⟩ := advance_first named at_firing beginning timely (unfired agent member named)
            have fired : firstFired plan (advance store cron input agent s).2 = some instant := by
              rw [firstFired_grown grown, beginning, if_pos named, Option.none_or]
            refine ⟨planned, fun absent => ?_, fun first some_fired => ?_⟩
            · cases fired.symm.trans absent
            · cases fired.symm.trans some_fired
              refine ⟨fun last cursor => ?_, fun other there named' => ?_⟩
              · rcases moved.lastFired with same | ⟨_, at_stamp, -⟩
                · rw [same, vacant] at cursor
                  cases cursor
                · cases at_firing.symm.trans at_stamp
              · rcases either there with old | rfl
                · simp only [Timely, at_firing, beginning] at timely
                  exact (unfired other old named').sound kept row (timely.2 other old named')
                · exact own
      · have fired : firstFired plan (advance store cron input agent s).2 = firstFired plan s := by
          rcases moved.fired with ⟨-, same⟩ | ⟨_, -, grown⟩
          · simp only [firstFired, same]
          · rw [firstFired_grown grown, if_neg named, Option.or_none]
        have cursor : (advance store cron input agent s).2.lastFired plan.scheduleName = s.lastFired plan.scheduleName := by
          rcases moved.lastFired with same | ⟨_, -, stamped⟩
          · rw [same]
          · rw [stamped, Function.update_of_ne (Ne.symm named)]
        have own {other : Agent} (named' : other.schedule.scheduleName = plan.scheduleName)
            (there : other ∈ s.agents.set i (advance store cron input agent s).1) : other ∈ s.agents := by
          rcases either there with old | rfl
          · exact old
          · exact absurd (moved.schedule ▸ named') named
        refine ⟨planned, fun none_yet => ?_, fun first some_fired => ?_⟩
        · obtain ⟨vacant, unfired⟩ := catches.before (fired ▸ none_yet)
          exact ⟨cursor.trans vacant, fun other there named' => unfired other (own named' there) named'⟩
        · obtain ⟨behind, sound⟩ := catches.since first (fired ▸ some_fired)
          exact ⟨fun last at_cursor => (behind last (cursor ▸ at_cursor)).mono kept,
            fun other there named' => (sound other (own named' there) named').mono kept⟩

/-- In every run that starts before the schedule was first fired and takes only timely steps, a loop
installed with a cursor leaves no tick behind. -/
theorem misses_none (law : CronLaw cron Matches) (whole : WholeSeconds Matches)
    {after : Option String → DateTime → Option DateTime} (parsed : cron.parse plan.schedule = some after) (rows : σ)
    (lastFired : String → Option DateTime) (unfired : lastFired plan.scheduleName = none) (events : List (Event σ))
    (meets : Runs.Along (next store cron) (Meets store cron Matches plan) events (start rows lastFired)) :
    CaughtUp store cron Matches plan (run store cron events (start rows lastFired)) := by
  have initial : Catches store cron Matches plan (start rows lastFired) :=
    ⟨fun agent member => absurd member List.not_mem_nil,
      fun _ => ⟨unfired, fun agent member => absurd member List.not_mem_nil⟩, fun first fired => by cases fired⟩
  have keeps (s : State σ) (event : Event σ) (meets : Meets store cron Matches plan s event)
      (kept : Inv store cron Matches s ∧ Catches store cron Matches plan s) :
      Inv store cron Matches (next store cron s event) ∧ Catches store cron Matches plan (next store cron s event) := by
    have allowed : Allowed store s event := by
      cases event with
      | outside rows => exact meets
      | _ => exact trivial
    exact ⟨next_inv law s event allowed kept.1, next_catches law whole parsed meets kept.1 kept.2⟩
  obtain ⟨-, catches⟩ := Runs.invariant keeps meets ⟨start_inv rows lastFired, initial⟩
  intro first fired
  obtain ⟨behind, sound⟩ := catches.since first fired
  refine ⟨fun agent member named t installed idle => ?_, behind⟩
  rcases (sound agent member named).installed t installed with ⟨catching, -⟩ | covered
  · rw [idle] at catching
    cases catching
  · exact covered

end Step

def report : WorkflowSchedule where
  scheduleName := "nightly"
  workflowName := "report"
  schedule := "10,20 0 0 1 1 * 1970"
  automaticBackfill := true

theorem twoTicks_whole : WholeSeconds TwoTicks := by
  intro spec zone i matched
  rcases matched.2.2 with rfl | rfl
  · exact ⟨10, by decide, by decide, rfl⟩
  · exact ⟨20, by decide, by decide, rfl⟩

/-- The loop fires the first tick. -/
def firing : List (Event Memory.Inner) :=
  [.reconcile (executor "a") report, .tick 0 {}, .tick 0 {}, .tick 0 {}, .tick 0 {}, .tick 0 {}, .tick 0 {}]

/-- Then its process stops, and an installation at 25 seconds finds the second one. -/
def stopped : List (Event Memory.Inner) :=
  firing ++ [.crash 0, .reconcile (executor "a") report, .tick 0 { clock := 25000000000 }, .tick 0 { fuel := 3 }, .tick 0 {},
    .tick 0 {}, .tick 0 {}]

/-- Or the second one is not persisted, and the cursor moves past it before the process stops. -/
def missed : List (Event Memory.Inner) :=
  firing ++ [.tick 0 { clock := 11000000000 }, .tick 0 {}, .tick 0 { reply := .failed .timeout }, .tick 0 {}, .crash 0,
    .reconcile (executor "a") report, .tick 0 { clock := 25000000000 }, .tick 0 { fuel := 3 }, .tick 0 {}]

/-- What a step meets is asked of the one agent there is. -/
theorem meets_tick {s : State Memory.Inner} {agent : Agent} {input : Input} (only : s.agents = [agent])
    (timely : Timely Memory.rowStore twoTicks TwoTicks report s agent input) :
    Meets Memory.rowStore twoTicks TwoTicks report s (.tick 0 input) := by
  intro other found named
  rw [only] at found
  cases found
  exact timely

theorem stopped_caught_up :
    let s := run Memory.rowStore twoTicks stopped (start Memory.Inner.new fun _ => none)
    firstFired report s = some 10000000000 ∧ HasRow Memory.rowStore twoTicks report s.store 10000000000 ∧
      HasRow Memory.rowStore twoTicks report s.store 20000000000 := by
  intro s
  have planned (s : State Memory.Inner) : Meets Memory.rowStore twoTicks TwoTicks report s (.reconcile (executor "a") report) :=
    fun _ => ⟨rfl, rfl, rfl⟩
  have meets : Runs.Along (next Memory.rowStore twoTicks) (Meets Memory.rowStore twoTicks TwoTicks report) stopped
      (start Memory.Inner.new fun _ => none) := by
    refine ⟨planned _, meets_tick rfl fun first fired => ?_, meets_tick rfl fun first fired => ?_, meets_tick rfl trivial,
      meets_tick rfl ⟨rfl, fun other member _ j waits i matched le lt => ?_⟩, meets_tick rfl trivial, meets_tick rfl trivial,
      trivial, planned _, meets_tick rfl fun first fired last cursor i matched _ after close _ => ?_, meets_tick rfl trivial,
      meets_tick rfl (.inl ⟨_, rfl⟩), meets_tick rfl trivial, meets_tick rfl trivial, trivial⟩
    · have fired : none = some first := fired
      cases fired
    · have fired : none = some first := fired
      cases fired
    · obtain rfl := List.mem_singleton.mp member
      obtain rfl : (10000000000 : DateTime) = j := Option.some.inj waits
      exact absurd lt (not_lt.mpr (le_trans (by decide) le))
    · obtain rfl : (10000000000 : DateTime) = last := Option.some.inj cursor
      rcases matched.2.2 with rfl | rfl
      · exact absurd after (by decide)
      · exact absurd close (by decide)
  have fired : firstFired report s = some 10000000000 := rfl
  have caught := misses_none twoTicks_law twoTicks_whole rfl Memory.Inner.new (fun _ => none) rfl stopped meets
  have agents : s.agents = [⟨executor "a", { report with lastFiredAt := some 10000000000 }, .top, some 25000000000,
    some 25000000000⟩] := rfl
  have covered := (caught 10000000000 fired).1 _ (agents ▸ List.mem_singleton.mpr rfl) rfl 25000000000 rfl rfl
  exact ⟨fired, covered _ ⟨rfl, rfl, .inl rfl⟩ (by decide) (by decide), covered _ ⟨rfl, rfl, .inr rfl⟩ (by decide) (by decide)⟩

/-- The second tick never gets its row, although the loop was installed after it. -/
theorem missed_for_good :
    let s := run Memory.rowStore twoTicks missed (start Memory.Inner.new fun _ => none)
    Runs.Along (next Memory.rowStore twoTicks) (Allowed Memory.rowStore) missed (start Memory.Inner.new fun _ => none) ∧
      firstFired report s = some 10000000000 ∧ s.lastFired "nightly" = some 20000000000 ∧
      ¬ CaughtUp Memory.rowStore twoTicks TwoTicks report s := by
  intro s
  have fired : firstFired report s = some 10000000000 := rfl
  have cursor : s.lastFired "nightly" = some 20000000000 := rfl
  refine ⟨?_, fired, cursor, fun caught => ?_⟩
  · exact ⟨trivial, trivial, trivial, trivial, trivial, trivial, trivial, trivial, trivial, trivial, trivial, trivial,
      trivial, trivial, trivial, trivial, trivial⟩
  · have agents : s.agents = [⟨executor "a", { report with lastFiredAt := some 20000000000 }, .top, some 25000000000,
      some 25000000000⟩] := rfl
    have covered := (caught 10000000000 fired).1 _ (agents ▸ List.mem_singleton.mpr rfl) rfl 25000000000 rfl rfl 20000000000
      ⟨rfl, rfl, .inr rfl⟩ (by decide) (by decide)
    have absent : ¬ HasRow Memory.rowStore twoTicks report s.store 20000000000 := by
      unfold HasRow
      rw [Bool.not_eq_true]
      rfl
    exact absent covered

end Durare.Scheduler

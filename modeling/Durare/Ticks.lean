import Durare.Scheduler

/-! A tick of a schedule is created and launched at most once, however many loops and backfills see it. -/
namespace Durare.Scheduler

/-- What is assumed of the cron library and the texts of its instants: the next instant is the least
matching one after its argument, and, as the years of a cron instant have four digits, its
text has 25 characters and tells it from every other one. -/
structure CronLaw (cron : Cron) (Matches : String → Option String → DateTime → Prop) : Prop where
  least : ∀ {spec next}, cron.parse spec = some next → ∀ zone, Successor.Least (next zone) (Matches spec zone)
  width : ∀ {spec zone i}, Matches spec zone i → (cron.toRfc3339 i).length = 25
  distinct : ∀ {spec zone i spec' zone' j}, Matches spec zone i → Matches spec' zone' j →
    cron.toRfc3339 i = cron.toRfc3339 j → i = j

section Law

variable {σ : Type} {store : RowStore σ} {cron : Cron} {Matches : String → Option String → DateTime → Prop}

def IsTick (Matches : String → Option String → DateTime → Prop) (i : DateTime) :
    Prop := ∃ spec zone, Matches spec zone i

/-- The width of the text keeps names and instants apart in an id. -/
theorem tickId_injective (law : CronLaw cron Matches) {name name' : String} {i j : DateTime} (tick : IsTick Matches i)
    (tick' : IsTick Matches j) (same : tickId cron name i = tickId cron name' j) : name = name' ∧ i = j := by
  obtain ⟨spec, zone, matched⟩ := tick
  obtain ⟨spec', zone', matched'⟩ := tick'
  have chars := congrArg String.toList same
  simp only [tickId, String.toList_append, List.append_assoc] at chars
  have chars := List.append_cancel_left chars
  have widths : ("-".toList ++ (cron.toRfc3339 i).toList).length = ("-".toList ++ (cron.toRfc3339 j).toList).length := by
    simp only [List.length_append, String.length_toList, law.width matched, law.width matched']
  obtain ⟨names, texts⟩ := List.append_inj' chars widths
  have texts := List.append_cancel_left texts
  exact ⟨String.toList_inj.mp names, law.distinct matched matched' (String.toList_inj.mp texts)⟩

/-- The enumeration of a range ends, and gives the instants strictly inside it once each, in order. -/
theorem ticks_between (law : CronLaw cron Matches) {spec : String} {next : Option String → DateTime → Option DateTime}
    (parsed : cron.parse spec = some next) (zone : Option String) (start stop : DateTime) (fuel : Nat)
    (enough : (stop - start).toNat < fuel) :
    ∃ found, Successor.between (next zone) fuel start stop = some found ∧ found.Pairwise (· < ·) ∧
      ∀ i, i ∈ found ↔ Matches spec zone i ∧ start < i ∧ i < stop := by
  have least := law.least parsed zone
  obtain ⟨found, ends⟩ := Option.isSome_iff_exists.mp (Successor.between_ends least fuel start stop enough)
  exact ⟨found, ends, Successor.sorted_between least ends, Successor.mem_between least ends⟩

theorem tickRow_id {origin : Origin} {rt : Runtime} {now : DateTime} {schedule : WorkflowSchedule} {instant : DateTime}
    {row : WorkflowStatus} {queued : Bool} (built : tickRow cron origin rt now schedule instant = .ok (row, queued)) :
    row.id = tickId cron schedule.scheduleName instant := by
  cases origin with
  | client =>
    cases built
    rfl
  | automatic => exact (Runtime.buildRun_fresh built).1
  | manual => exact (Runtime.buildRun_fresh built).1

/-- Whatever becomes of the call, it leaves the rows there are, it says of a creation what happened, and
a reply means that the row is there. -/
structure Persisted (store : RowStore σ) (id : String) (s : σ) (answer : Except Error Tick × σ × Bool) : Prop where
  kept : ∀ other, store.stored s other = true → store.stored answer.2.1 other = true
  created : answer.2.2 = true → store.stored s id = false ∧ store.stored answer.2.1 id = true
  reply : ∀ tick, answer.1 = .ok tick → tick.created = answer.2.2 ∧ store.stored answer.2.1 id = true

theorem inserted {row : WorkflowStatus} {s s' : σ} {canonical : WorkflowStatus} {created : Bool}
    (done : store.insert row s = (.ok (canonical, created), s')) (answer : Except Error Tick)
    (replied : ∀ tick, answer = .ok tick → tick.created = created) :
    Persisted store row.id s (answer, s', created) := by
  have keeps := store.keeps row s
  rw [done] at keeps
  constructor
  · exact keeps
  · rintro rfl
    have creates := store.creates row s canonical
    rw [done] at creates
    exact creates rfl
  · intro tick arrived
    refine ⟨replied tick arrived, ?_⟩
    cases created with
    | true =>
      have creates := store.creates row s canonical
      rw [done] at creates
      exact (creates rfl).2
    | false =>
      have finds := store.finds row s canonical
      rw [done] at finds
      exact keeps row.id (finds rfl)

theorem not_inserted {row : WorkflowStatus} {s s' : σ} {e : Error} (done : store.insert row s = (.error e, s'))
    (id : String) :
    Persisted store id s (.error e, s', false) := by
  have keeps := store.keeps row s
  rw [done] at keeps
  exact ⟨keeps, fun created => absurd created Bool.false_ne_true, fun tick returned => by cases returned⟩

theorem persisted (origin : Origin) (rt : Runtime) (now : DateTime) (schedule : WorkflowSchedule) (instant : DateTime)
    (reply : Reply) (s : σ) : Persisted store (tickId cron schedule.scheduleName instant) s
      (persist store cron origin rt now schedule instant reply s) := by
  have nothing (e : Error) : Persisted store (tickId cron schedule.scheduleName instant) s (.error e, s, false) :=
    ⟨fun _ present => present, fun created => absurd created Bool.false_ne_true, fun tick returned => by cases returned⟩
  cases reply with
  | failed e => exact nothing e
  | delivered =>
    unfold persist
    cases built : tickRow cron origin rt now schedule instant with
    | error e => exact nothing e
    | ok made =>
      obtain ⟨row, queued⟩ := made
      rw [← tickRow_id built]
      cases done : store.insert row s with
      | mk answer s' =>
        cases answer with
        | error e =>
          simp only [done]
          exact not_inserted done _
        | ok found =>
          obtain ⟨canonical, created⟩ := found
          simp only [done]
          split
          · exact inserted done _ fun tick returned => by cases returned
          · exact inserted done _ fun tick returned => by
              cases returned
              rfl
  | lost e =>
    unfold persist
    cases built : tickRow cron origin rt now schedule instant with
    | error e => exact nothing e
    | ok made =>
      obtain ⟨row, queued⟩ := made
      rw [← tickRow_id built]
      cases done : store.insert row s with
      | mk answer s' =>
        cases answer with
        | error e =>
          simp only [done]
          exact not_inserted done _
        | ok found =>
          simp only [done]
          exact inserted done _ fun tick returned => by cases returned

/-- The launch that an agent still has in hand. -/
def inHand (agent : Agent) : Option (String × DateTime) :=
  match agent.control with
  | .filled _ instant tick _ | .launching instant tick =>
    if tick.created then some (agent.schedule.scheduleName, instant) else none
  | _ => none

def handful (agent : Agent) (p : String × DateTime) : Nat := if inHand agent = some p then 1 else 0

def instants : Control → List DateTime
  | .filling _ todo => todo
  | .filled _ instant _ todo => instant :: todo
  | .sleeping instant | .persisting instant | .launching instant _ | .stamping instant => [instant]
  | _ => []

/-- What an agent's step does to the rows and the logs: a creation is of an instant that has had no row,
and a launch uses up a creation that the agent had in hand. -/
structure Advanced (store : RowStore σ) (cron : Cron) (Matches : String → Option String → DateTime → Prop)
    (agent : Agent) (s : State σ) (after : Agent × State σ) : Prop where
  rows : ∀ id, store.stored s.store id = true → store.stored after.2.store id = true
  created : after.2.created = s.created ∨ ∃ i ∈ instants agent.control,
    after.2.created = s.created ++ [(agent.schedule.scheduleName, i)] ∧
      store.stored s.store (tickId cron agent.schedule.scheduleName i) = false ∧
      store.stored after.2.store (tickId cron agent.schedule.scheduleName i) = true
  launched : ∀ p, after.2.launched.count p + handful after.1 p + s.created.count p ≤
    s.launched.count p + handful agent p + after.2.created.count p
  agents : after.2.agents = s.agents
  ticks : (∀ i ∈ instants agent.control, IsTick Matches i) → ∀ i ∈ instants after.1.control, IsTick Matches i

theorem Advanced.moved {agent : Agent} {s : State σ} (control : Control) (installed mark : Option DateTime)
    (empty : ∀ p, handful { agent with control := control, installed := installed, mark := mark } p = 0)
    (ticks : (∀ i ∈ instants agent.control, IsTick Matches i) → ∀ i ∈ instants control, IsTick Matches i) :
    Advanced store cron Matches agent s ({ agent with control := control, installed := installed, mark := mark }, s) where
  rows _ present := present
  created := .inl rfl
  launched p := by
    rw [empty p]
    dsimp only
    omega
  agents := rfl
  ticks := ticks

theorem Advanced.of_fire {agent : Agent} {s : State σ} {instant : DateTime} {after : Agent × State σ}
    (advanced : Advanced store cron Matches agent (fire agent instant s) after) : Advanced store cron Matches agent s after :=
  ⟨advanced.rows, advanced.created, advanced.launched, advanced.agents, advanced.ticks⟩

theorem handful_empty {agent : Agent} (none_inHand : inHand agent = none) (p : String × DateTime) :
    handful agent p = 0 := by
  simp [handful, none_inHand]

theorem leave_empty (origin : Origin) : instants (leave origin) = [] ∧ ∀ agent : Agent, agent.control = leave origin →
    inHand agent = none := by
  cases origin <;> exact ⟨rfl, fun agent same => by simp [inHand, same, leave]⟩

/-- A launch takes what is in hand. -/
theorem launch_advanced {agent : Agent} {s : State σ} {instant : DateTime} {tick : Tick} (control : Control)
    (holds : inHand agent = if tick.created then some (agent.schedule.scheduleName, instant) else none)
    (empty : inHand { agent with control := control } = none)
    (ticks : (∀ i ∈ instants agent.control, IsTick Matches i) → ∀ i ∈ instants control, IsTick Matches i) :
    Advanced store cron Matches agent s ({ agent with control := control }, launch agent instant tick s) where
  rows id present := by
    unfold launch
    split <;> exact present
  created := .inl (by
    unfold launch
    split <;> rfl)
  launched p := by
    have same : (launch agent instant tick s).created = s.created := by
      unfold launch
      split <;> rfl
    rw [handful_empty empty, same]
    by_cases launched : launches agent.rt agent.schedule tick = true
    · have fresh : tick.created = true := by
        simp only [launches, Bool.and_eq_true, Bool.not_eq_true', Bool.or_eq_false_iff, Bool.not_eq_false'] at launched
        exact launched.1.1.2
      rw [launch, if_pos launched, handful, holds, if_pos fresh]
      by_cases here : (agent.schedule.scheduleName, instant) = p
      · simp [here, List.count_append]
      · simp [here, List.count_append]
    · rw [launch, if_neg launched]
      dsimp only
      omega
  agents := by
    unfold launch
    split <;> rfl
  ticks := ticks

/-- An attempt creates a row that was not there, and a reply puts no more in hand than was created. -/
theorem attempt_advanced {origin : Origin} {input : Input} {agent : Agent} {s s' : State σ} {instant : DateTime}
    {answer : Except Error Tick} (tried : attempt store cron origin input agent instant s = (answer, s'))
    (member : instant ∈ instants agent.control) (control : Control)
    (hand : ∀ p, handful { agent with control := control } p = 0 ∨ ∃ tick, answer = .ok tick ∧ tick.created = true ∧
      (agent.schedule.scheduleName, instant) = p ∧ handful { agent with control := control } p = 1)
    (ticks : (∀ i ∈ instants agent.control, IsTick Matches i) → ∀ i ∈ instants control, IsTick Matches i) :
    Advanced store cron Matches agent s ({ agent with control := control }, s') := by
  have facts := @persisted _ store cron origin agent.rt input.clock agent.schedule instant input.reply s.store
  simp only [attempt] at tried
  cases outcome : persist store cron origin agent.rt input.clock agent.schedule instant input.reply s.store with
  | mk reply rest =>
    obtain ⟨rows, created⟩ := rest
    rw [outcome] at tried facts
    simp only [Prod.mk.injEq] at tried
    obtain ⟨rfl, rfl⟩ := tried
    refine ⟨facts.kept, ?_, fun p => ?_, rfl, ticks⟩
    · cases created with
      | false => exact .inl rfl
      | true => exact .inr ⟨instant, member, rfl, facts.created rfl⟩
    · have grown : s.created.count p ≤
          (if created = true then s.created ++ [(agent.schedule.scheduleName, instant)] else s.created).count p := by
        split
        · rw [List.count_append]
          omega
        · exact Nat.le_refl _
      rcases hand p with empty | ⟨tick, arrived, fresh, same, one⟩
      · rw [empty]
        dsimp only
        omega
      · have created_eq : created = true := ((facts.reply tick arrived).1).symm.trans fresh
        subst created_eq
        rw [one]
        simp only [if_true, List.count_append, same, List.count_singleton_self]
        omega

theorem advance_advanced (law : CronLaw cron Matches) (input : Input) (agent : Agent) (s : State σ) :
    Advanced store cron Matches agent s (advance store cron input agent s) := by
  obtain ⟨rt, schedule, control, installed, mark⟩ := agent
  -- A step that neither persists nor launches.
  have moved (control' : Control) (installed' mark' : Option DateTime)
      (empty : inHand ⟨rt, schedule, control', installed', mark'⟩ = none)
      (ticks : (∀ i ∈ instants control, IsTick Matches i) → ∀ i ∈ instants control', IsTick Matches i) :
      Advanced store cron Matches ⟨rt, schedule, control, installed, mark⟩ s (⟨rt, schedule, control', installed', mark'⟩, s) :=
    Advanced.moved control' installed' mark' (handful_empty empty) ticks
  have left (origin : Origin) : Advanced store cron Matches ⟨rt, schedule, control, installed, mark⟩ s
      (⟨rt, schedule, leave origin, installed, mark⟩, s) :=
    moved _ _ _ ((leave_empty origin).2 _ rfl) fun _ i member => by simp [(leave_empty origin).1] at member
  cases control with
  | listed =>
    simp only [advance]
    split
    · next last _ _ =>
      by_cases ahead : last + 1000000000 < input.clock
      · simp only [ahead, if_true]
        exact moved (.ranging .automatic (last + 1000000000) input.clock) (some input.clock) (some input.clock) rfl fun _ i member => by cases member
      · simp only [ahead, if_false]
        exact moved .top (some input.clock) (some input.clock) rfl fun _ i member => by cases member
    · exact moved .top installed mark rfl fun _ i member => by cases member
  | ranging origin begins stop =>
    simp only [advance]
    cases parsed : cron.parse schedule.schedule with
    | none => exact left origin
    | some next =>
      cases found : Successor.between (next schedule.cronTimezone) input.fuel begins stop with
      | none =>
        simp only [found]
        exact moved (.ranging origin begins stop) installed mark rfl fun _ i member => by cases member
      | some ticks =>
        simp only [found]
        refine moved (.filling origin ticks) installed mark rfl fun _ i member => ?_
        exact ⟨_, _, ((Successor.mem_between (law.least parsed _) found i).mp member).1⟩
  | filling origin todo =>
    cases todo with
    | nil => exact left origin
    | cons instant todo =>
      simp only [advance]
      cases tried : attempt store cron origin input ⟨rt, schedule, .filling origin (instant :: todo), installed, mark⟩ instant s with
      | mk answer s' =>
        cases answer with
        | error e =>
          refine attempt_advanced tried (by simp [instants]) _ (fun p => .inl ?_) fun _ i member => ?_
          · exact handful_empty ((leave_empty origin).2 _ rfl) p
          · simp [(leave_empty origin).1] at member
        | ok tick =>
          refine attempt_advanced tried (by simp [instants]) _ (fun p => ?_) fun all i member => all i member
          by_cases fresh : tick.created = true
          · by_cases same : (schedule.scheduleName, instant) = p
            · exact .inr ⟨tick, rfl, fresh, same, by simp [handful, inHand, fresh, same]⟩
            · exact .inl (by simp [handful, inHand, fresh, same])
          · exact .inl (by simp [handful, inHand, fresh])
  | filled origin instant tick todo =>
    exact launch_advanced _ rfl rfl fun all i member => all i (by simp [instants] at member ⊢; exact .inr member)
  | top =>
    simp only [advance]
    split
    · exact moved .returned installed mark rfl fun _ i member => by cases member
    · cases parsed : cron.parse schedule.schedule with
      | none => exact moved .returned installed mark rfl fun _ i member => by cases member
      | some next =>
        cases found : next schedule.cronTimezone input.clock with
        | none =>
          simp only [found]
          exact moved .returned installed mark rfl fun _ i member => by cases member
        | some instant =>
          simp only [found]
          refine moved (.sleeping instant) installed mark rfl fun _ i member => ?_
          have same : i = instant := List.mem_singleton.mp member
          exact same ▸ ⟨_, _, ((law.least parsed _).some found).2.1⟩
  | sleeping instant =>
    by_cases slept : input.slept = true
    · simp only [advance, slept, if_true]
      exact moved (.persisting instant) installed mark rfl fun all i member => all i member
    · simp only [advance, slept, if_false, Bool.false_eq_true]
      exact moved .returned installed mark rfl fun _ i member => by cases member
  | persisting instant =>
    simp only [advance]
    cases tried : attempt store cron .automatic input ⟨rt, schedule, .persisting instant, installed, mark⟩ instant
      (fire ⟨rt, schedule, .persisting instant, installed, mark⟩ instant s) with
    | mk answer s' =>
      cases answer with
      | error e => exact (attempt_advanced tried (by simp [instants]) (.stamping instant) (fun p => .inl rfl) fun all i member => all i member).of_fire
      | ok tick =>
        refine (attempt_advanced tried (by simp [instants]) (.launching instant tick) (fun p => ?_) fun all i member => all i member).of_fire
        by_cases fresh : tick.created = true
        · by_cases same : (schedule.scheduleName, instant) = p
          · exact .inr ⟨tick, rfl, fresh, same, by simp [handful, inHand, fresh, same]⟩
          · exact .inl (by simp [handful, inHand, fresh, same])
        · exact .inl (by simp [handful, inHand, fresh])
  | launching instant tick => exact launch_advanced _ rfl rfl fun all i member => all i member
  | stamping instant =>
    have same : (stamp input.reply ⟨rt, schedule, .stamping instant, installed, mark⟩ instant s).store = s.store ∧
        (stamp input.reply ⟨rt, schedule, .stamping instant, installed, mark⟩ instant s).created = s.created ∧
        (stamp input.reply ⟨rt, schedule, .stamping instant, installed, mark⟩ instant s).launched = s.launched ∧
        (stamp input.reply ⟨rt, schedule, .stamping instant, installed, mark⟩ instant s).agents = s.agents := by
      cases input.reply <;> exact ⟨rfl, rfl, rfl, rfl⟩
    obtain ⟨rows, created, launched, agents⟩ := same
    refine ⟨fun id present => ?_, .inl created, fun p => ?_, agents, fun _ i member => by cases member⟩
    · simp only [advance, rows]
      exact present
    · simp only [advance, created, launched, @handful_empty ⟨rt, schedule, .top, installed, some (instant + 1)⟩ rfl]
      omega
  | returned => exact moved .returned installed mark rfl fun _ i member => by cases member

theorem sum_set {α : Type} (f : α → Nat) {xs : List α} {i : Nat} {x : α} (found : xs[i]? = some x) (y : α) :
    ((xs.set i y).map f).sum + f x = (xs.map f).sum + f y := by
  induction xs generalizing i with
  | nil => simp at found
  | cons z xs ih =>
    cases i with
    | zero =>
      simp only [List.getElem?_cons_zero, Option.some.injEq] at found
      simp only [List.set_cons_zero, List.map_cons, List.sum_cons, found]
      omega
    | succ i =>
      have rest := ih (List.getElem?_cons_succ ▸ found)
      simp only [List.set_cons_succ, List.map_cons, List.sum_cons]
      omega

theorem sum_eraseIdx_le {α : Type} (f : α → Nat) (xs : List α) (i : Nat) :
    ((xs.eraseIdx i).map f).sum ≤ (xs.map f).sum := by
  induction xs generalizing i with
  | nil => simp
  | cons x xs ih =>
    cases i with
    | zero => simp
    | succ i =>
      have rest := ih i
      simp only [List.eraseIdx_cons_succ, List.map_cons, List.sum_cons]
      omega

/-- What every state of a run meets: a created tick has its row, none is created twice, launches and
those in hand are within the creations, and only instants of schedules are dealt with. -/
structure Inv (store : RowStore σ) (cron : Cron) (Matches : String → Option String → DateTime → Prop) (s : State σ) : Prop where
  stored : ∀ p ∈ s.created, store.stored s.store (tickId cron p.1 p.2) = true
  once : s.created.Nodup
  fair : ∀ p, s.launched.count p + (s.agents.map fun agent => handful agent p).sum ≤ s.created.count p
  created : ∀ p ∈ s.created, IsTick Matches p.2
  ticks : ∀ agent ∈ s.agents, ∀ i ∈ instants agent.control, IsTick Matches i

theorem next_inv (law : CronLaw cron Matches) (s : State σ) (event : Event σ) (allowed : Allowed store s event)
    (inv : Inv store cron Matches s) : Inv store cron Matches (next store cron s event) := by
  have entered (agent : Agent) (idle : inHand agent = none) (none_yet : instants agent.control = []) :
      Inv store cron Matches { s with agents := s.agents ++ [agent] } := by
    refine ⟨inv.stored, inv.once, fun p => ?_, inv.created, fun other member => ?_⟩
    · have fair := inv.fair p
      simp only [List.map_append, List.map_cons, List.map_nil, List.sum_append, List.sum_cons, List.sum_nil,
        handful_empty idle]
      omega
    · rcases List.mem_append.mp member with old | new
      · exact inv.ticks other old
      · rw [List.mem_singleton.mp new, none_yet]
        exact fun i absent => absurd absent List.not_mem_nil
  cases event with
  | outside rows => exact ⟨fun p member => allowed _ (inv.stored p member), inv.once, inv.fair, inv.created, inv.ticks⟩
  | recreate name => exact ⟨inv.stored, inv.once, inv.fair, inv.created, inv.ticks⟩
  | reconcile rt schedule => exact entered _ rfl rfl
  | backfill rt schedule client begins stop => exact entered _ rfl rfl
  | crash i =>
    refine ⟨inv.stored, inv.once, fun p => ?_, inv.created, fun agent member => inv.ticks agent (List.mem_of_mem_eraseIdx member)⟩
    exact Nat.le_trans (Nat.add_le_add_left (sum_eraseIdx_le (fun agent => handful agent p) s.agents i) _) (inv.fair p)
  | tick i input =>
    simp only [next]
    cases found : s.agents[i]? with
    | none => exact inv
    | some agent =>
      have member := List.mem_of_getElem? found
      obtain ⟨rows, created, launched, agents, ticks⟩ := advance_advanced law input agent s
      have own := inv.ticks agent member
      refine ⟨fun p made => ?_, ?_, fun p => ?_, fun p made => ?_, fun other there => ?_⟩
      · rcases created with same | ⟨instant, -, grown, -, fresh⟩
        · exact rows _ (inv.stored p (same ▸ made))
        · rcases List.mem_append.mp (grown ▸ made) with old | new
          · exact rows _ (inv.stored p old)
          · rw [List.mem_singleton.mp new]
            exact fresh
      · rcases created with same | ⟨instant, -, grown, vacant, -⟩
        · exact same ▸ inv.once
        · have absent : (agent.schedule.scheduleName, instant) ∉ s.created := fun made => by
            have present := inv.stored _ made
            rw [vacant] at present
            cases present
          simp only [grown]
          exact List.nodup_append.mpr ⟨inv.once, by simp, by rintro p old q new rfl; exact absent (List.mem_singleton.mp new ▸ old)⟩
      · have fair := inv.fair p
        have step := launched p
        have moved := sum_set (fun agent => handful agent p) found (advance store cron input agent s).1
        simp only [agents]
        omega
      · rcases created with same | ⟨instant, at_hand, grown, -⟩
        · exact inv.created p (same ▸ made)
        · rcases List.mem_append.mp (grown ▸ made) with old | new
          · exact inv.created p old
          · rw [List.mem_singleton.mp new]
            exact own instant at_hand
      · have there : other ∈ s.agents.set i (advance store cron input agent s).1 := agents ▸ there
        rcases List.mem_or_eq_of_mem_set there with old | same
        · exact inv.ticks other old
        · exact same ▸ ticks own

theorem start_inv (rows : σ) (lastFired : String → Option DateTime) :
    Inv store cron Matches (start rows lastFired) where
  stored _ member := absurd member List.not_mem_nil
  once := List.nodup_nil
  fair _ := Nat.le_refl 0
  created _ member := absurd member List.not_mem_nil
  ticks _ member := absurd member List.not_mem_nil

/-- In every run without a deletion a tick of a schedule is created at most once and launched at
most once, by the one who created it, its row stays, and two ticks never share a row; and a
range's instants are enumerated exactly. -/
theorem ticks_at_most_once (law : CronLaw cron Matches) (rows : σ) (lastFired : String → Option DateTime)
    (events : List (Event σ)) (allowed : Runs.Along (next store cron) (Allowed store) events (start rows lastFired)) :
    let s := run store cron events (start rows lastFired)
    (∀ p, s.created.count p ≤ 1 ∧ s.launched.count p ≤ s.created.count p) ∧
    (∀ p ∈ s.created, store.stored s.store (tickId cron p.1 p.2) = true) ∧
    (∀ name i name' j, IsTick Matches i → IsTick Matches j → tickId cron name i = tickId cron name' j →
      name = name' ∧ i = j) ∧
    (∀ p ∈ s.created, ∀ q ∈ s.created, tickId cron p.1 p.2 = tickId cron q.1 q.2 → p = q) ∧
    (∀ spec at_zone, cron.parse spec = some at_zone → ∀ zone begins stop fuel, (stop - begins).toNat < fuel →
      ∃ found, Successor.between (at_zone zone) fuel begins stop = some found ∧ found.Pairwise (· < ·) ∧
        ∀ i, i ∈ found ↔ Matches spec zone i ∧ begins < i ∧ i < stop) := by
  have inv : Inv store cron Matches (run store cron events (start rows lastFired)) :=
    Runs.invariant (fun s event allowed inv => next_inv law s event allowed inv) allowed (start_inv rows lastFired)
  refine ⟨fun p => ⟨List.nodup_iff_count_le_one.mp inv.once p, ?_⟩, inv.stored, fun name i name' j => tickId_injective law,
    fun p made q made' same => ?_, fun spec at_zone parsed zone begins stop fuel => ticks_between law parsed zone begins stop fuel⟩
  · have fair := inv.fair p
    omega
  · obtain ⟨names, times⟩ := tickId_injective law (inv.created p made) (inv.created q made') same
    exact Prod.ext names times

end Law

/-- The first ten and the first twenty seconds of the epoch. -/
def TwoTicks (spec : String) (zone : Option String) (i : DateTime) : Prop :=
  spec = "10,20 0 0 1 1 * 1970" ∧ zone = none ∧ (i = 10000000000 ∨ i = 20000000000)

def twoTicks : Cron where
  parse spec :=
    if spec = "10,20 0 0 1 1 * 1970" then some fun zone after =>
      if zone.isSome then none
      else if after < 10000000000 then some 10000000000
      else if after < 20000000000 then some 20000000000
      else none
    else none
  toRfc3339 i := if i = 10000000000 then "1970-01-01T00:00:10+00:00" else "1970-01-01T00:00:20+00:00"
  serialized i := if i = 10000000000 then "1970-01-01T00:00:10Z" else "1970-01-01T00:00:20Z"

theorem twoTicks_law : CronLaw twoTicks TwoTicks where
  least {spec next} parsed zone := by
    unfold twoTicks at parsed
    simp only at parsed
    split at parsed
    · next same =>
      cases parsed
      cases zone with
      | some zone => exact ⟨fun found => by simp at found, fun _ c matched => by simp [TwoTicks] at matched⟩
      | none =>
        constructor
        · intro a b found
          simp only [Option.isSome_none, Bool.false_eq_true, if_false] at found
          by_cases first : a < 10000000000
          · simp only [first, if_true] at found
            cases found
            refine ⟨first, ⟨same, rfl, .inl rfl⟩, fun c matched after => ?_⟩
            rcases matched.2.2 with rfl | rfl <;> decide
          · by_cases second : a < 20000000000
            · simp only [first, second, if_true, if_false] at found
              cases found
              refine ⟨second, ⟨same, rfl, .inr rfl⟩, fun c matched after => ?_⟩
              rcases matched.2.2 with rfl | rfl
              · exact absurd after first
              · exact Int.le_refl _
            · simp only [first, second, if_false] at found
              cases found
        · intro a found c matched after
          simp only [Option.isSome_none, Bool.false_eq_true, if_false] at found
          by_cases first : a < 10000000000
          · simp only [first, if_true] at found
            cases found
          · by_cases second : a < 20000000000
            · simp only [first, second, if_true, if_false] at found
              cases found
            · rcases matched.2.2 with rfl | rfl
              · exact first after
              · exact second after
    · cases parsed
  width matched := by rcases matched.2.2 with rfl | rfl <;> rfl
  distinct matched matched' same := by
    rcases matched.2.2 with rfl | rfl <;> rcases matched'.2.2 with rfl | rfl <;> simp_all [twoTicks]

def executor (id : String) : Runtime where
  executorId := id
  appVersion := "v1"
  workflows := ["report"]
  queues := []

def nightly : WorkflowSchedule where
  scheduleName := "nightly"
  workflowName := "report"
  schedule := "10,20 0 0 1 1 * 1970"

/-- Two executors install the schedule and both fire the first tick; a backfill covers it once more. -/
def race : List (Event Memory.Inner) :=
  [.reconcile (executor "a") nightly, .reconcile (executor "b") nightly, .tick 0 {}, .tick 1 {}, .tick 0 {}, .tick 1 {},
    .tick 0 {}, .tick 1 {}, .tick 0 {}, .tick 1 {}, .tick 0 {}, .tick 1 {},
    .backfill (executor "a") nightly false 0 20000000000, .tick 2 { fuel := 3 }, .tick 2 {}, .tick 2 {}]

theorem race_once :
    let s := run Memory.rowStore twoTicks race (start Memory.Inner.new fun _ => none)
    ("nightly", 10000000000) ∈ s.created ∧ ("nightly", 10000000000) ∈ s.launched ∧
      s.launched.count ("nightly", 10000000000) ≤ 1 := by
  intro s
  have allowed : Runs.Along (next Memory.rowStore twoTicks) (Allowed Memory.rowStore) race
      (start Memory.Inner.new fun _ => none) :=
    ⟨trivial, trivial, trivial, trivial, trivial, trivial, trivial, trivial, trivial, trivial, trivial, trivial, trivial,
      trivial, trivial, trivial, trivial⟩
  obtain ⟨counts, -⟩ := ticks_at_most_once twoTicks_law Memory.Inner.new (fun _ => none) race allowed
  have created : s.created = [("nightly", 10000000000)] := rfl
  have launched : s.launched = [("nightly", 10000000000)] := rfl
  refine ⟨by simp [created], by simp [launched], ?_⟩
  exact (counts ("nightly", 10000000000)).2.trans (counts ("nightly", 10000000000)).1

end Durare.Scheduler

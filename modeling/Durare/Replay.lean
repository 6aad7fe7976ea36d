import Durare.Attempts

/-! Every execution of a workflow body goes through one history, whatever it was when the one before it crashed. -/
namespace Durare.Replay

open Interaction Memory Execution

section Invariant

variable {δ : Type}

/-- What is shown of each result beside its place in the history: a fact of the call, the row
at its position and whether the execution is interrupted. -/
abbrev Fact (δ : Type) := Op δ → Option StepRow → Bool → Prop

/-- Every call that is issued ends as it should. -/
def Starts (ctx : Context) (proper : Input δ → Inner → Ask → Prop) (fact : Fact δ) : Prop :=
  ∀ rt rounds seq (op : Op δ) s, op.prepare = .ok () → Ready (on ctx rt) seq op s →
    Safe (world (on ctx rt) proper) (May (on ctx rt) seq op)
      (fun r s => Ends (on ctx rt) seq op r s ∧ fact op (s.1.steps.get (ctx.workflowId, seq)) s.2.isSome)
      (op.run (on ctx rt) rounds seq) s

variable (ctx : Context) (body : Body δ) (proper : Input δ → Inner → Ask → Prop) (fact : Fact δ)

/-- A call in progress is the history's next one for its execution, and ends as it should. -/
structure InFlight (canon : List (Outcome δ)) (s : System δ) (attempt : Attempt δ) (running : Running δ) : Prop where
  claims : Claims body canon attempt.results running.op
  seq : running.seq = counter body attempt.results
  counter : attempt.seq = running.op.claim running.seq
  found : ∀ row, running.found = some row → s.store.steps.get (ctx.workflowId, running.seq) = some row
  safe : Safe (world (on ctx attempt.rt) proper) (May (on ctx attempt.rt) running.seq running.op)
    (fun r s => Ends (on ctx attempt.rt) running.seq running.op r s ∧
      fact running.op (s.1.steps.get (ctx.workflowId, running.seq)) s.2.isSome) running.rest (s.store, s.latch)

structure Logged (canon : List (Outcome δ)) (entry : Entry δ) : Prop where
  part : entry.row.isSome = true ∨ entry.interrupted = false → ∃ before, Claims body canon before entry.op ∧
    entry.seq = counter body before ∧ before ++ [entry.result] <+: canon
  kept : ∀ row, entry.found = some row → entry.row = some row
  replayed : ∀ row, entry.row = some row → entry.result = replay ctx entry.seq entry.op row
  fact : fact entry.op entry.row entry.interrupted

/-- Every execution so far went through `canon`. -/
structure Inv (canon : List (Outcome δ)) (s : System δ) : Prop where
  runnable : Runnable ctx.workflowId s.store
  settled : Settled ctx body s.store canon
  frontier : Frontier ctx body s.store canon
  idle : ∀ attempt, s.attempt = some attempt → attempt.running = none → s.latch = none →
    attempt.results <+: canon ∧ attempt.seq = counter body attempt.results
  inFlight : ∀ attempt running, s.attempt = some attempt → attempt.running = some running →
    InFlight ctx body proper fact canon s attempt running
  log : ∀ entry ∈ s.log, Logged ctx body fact canon entry
  closures : ∀ closure ∈ s.closures, closure.row = none

variable {ctx body proper fact} {canon : List (Outcome δ)} {s : System δ}

theorem Claims.extend {before : List (Outcome δ)} {op : Op δ} {canon' : List (Outcome δ)}
    (claims : Claims body canon before op) (longer : canon <+: canon') : Claims body canon' before op :=
  { claims with within := claims.within.trans longer }

theorem Logged.extend {entry : Entry δ} {canon' : List (Outcome δ)} (logged : Logged ctx body fact canon entry)
    (longer : canon <+: canon') : Logged ctx body fact canon' entry :=
  { logged with
    part := fun settled => by
      obtain ⟨before, claims, seq, inside⟩ := logged.part settled
      exact ⟨before, claims.extend longer, seq, inside.trans longer⟩ }

theorem fresh_inv {store : Inner} (runnable : Runnable ctx.workflowId store)
    (empty : ∀ seq, store.steps.get (ctx.workflowId, seq) = none) :
    Inv ctx body proper fact [] (System.fresh store : System δ) where
  runnable := runnable
  settled := ⟨fun before result after split => by simp at split, fun before result after split => by simp at split⟩
  frontier := by
    have vacant : ∀ seq row, store.steps.get (ctx.workflowId, seq) ≠ some row := by simp [empty]
    constructor
    · intro op claims
      exact ⟨fun row present => absurd present (vacant _ row), fun _ row present => absurd present (vacant _ row)⟩
    · exact fun p row _ present => absurd present (vacant p row)
  idle := fun attempt started => by cases started
  inFlight := fun attempt running started => by cases started
  log := fun entry member => by cases member
  closures := fun closure member => by cases member

theorem others_inv (now : DateTime) {call : Call} (others : Others ctx.workflowId s.store call)
    (inv : Inv ctx body proper fact canon s) :
    Inv ctx body proper fact canon { s with store := step ctx.lib s.store (now, call) } := by
  have moved : Rely ctx.workflowId (s.store, s.latch) (step ctx.lib s.store (now, call), s.latch) := others_rely others
  refine { inv with
    runnable := moved.runnable inv.runnable
    settled := inv.settled.others moved
    frontier := inv.frontier.others moved
    inFlight := ?_ }
  intro attempt running started runs
  have flight := inv.inFlight attempt running started runs
  exact { flight with
    found := fun row there => (moved.steps _).trans (flight.found row there)
    safe := flight.safe.later moved }

theorem stopped_inv (inv : Inv ctx body proper fact canon s) :
    Inv ctx body proper fact canon { s with latch := none, attempt := none } :=
  { inv with
    idle := fun attempt started => by cases started
    inFlight := fun attempt running started => by cases started }

theorem Past.position {store : Inner} {before : List (Outcome δ)} {result : Outcome δ} {op : Op δ}
    (past : Past ctx body store before result) (call : body before = some op) (prepared : op.prepare = .ok ()) :
    Begun ctx (counter body before) op store ∧ Settles ctx (counter body before) op result store := by
  cases past with
  | refused op' e call' refused =>
    have ops := Option.some.inj (call.symm.trans call')
    rw [← ops, prepared] at refused
    cases refused
  | settled op' call' _ begun settles =>
    have ops := Option.some.inj (call.symm.trans call')
    rw [ops]
    exact ⟨begun, settles⟩

theorem Past.refusal {store : Inner} {before : List (Outcome δ)} {result : Outcome δ} {op : Op δ} {e : Error}
    (past : Past ctx body store before result) (call : body before = some op) (refused : op.prepare = .error e) :
    result = .error e := by
  cases past with
  | refused op' e' call' refused' same =>
    have ops := Option.some.inj (call.symm.trans call')
    rw [← ops, refused] at refused'
    cases refused'
    exact same
  | settled op' call' prepared =>
    have ops := Option.some.inj (call.symm.trans call')
    rw [← ops, refused] at prepared
    cases prepared

/-- What stands at the positions of a call is its own. -/
theorem Inv.begun {results : List (Outcome δ)} {op : Op δ} (inv : Inv ctx body proper fact canon s)
    (claims : Claims body canon results op) : Begun ctx (counter body results) op s.store := by
  obtain ⟨rest, whole⟩ := claims.within
  cases rest with
  | nil =>
    simp only [List.append_nil] at whole
    rw [whole] at claims ⊢
    exact inv.frontier.begun op claims
  | cons other rest =>
    exact ((inv.settled.past results other rest whole.symm).position claims.call claims.prepared).1

/-- The result a settled call hands over, in the history or as its next. -/
theorem handed {results : List (Outcome δ)} {result : Outcome δ} (inv : Inv ctx body proper fact canon s)
    (within : results <+: canon) (room : counter body results + 2 < 2 ^ 31)
    (past : Past ctx body s.store results result)
    (unique : ∀ other, Past ctx body s.store results other → other = result) :
    ∃ canon', canon <+: canon' ∧ results ++ [result] <+: canon' ∧ Settled ctx body s.store canon' ∧
      Frontier ctx body s.store canon' := by
  obtain ⟨rest, whole⟩ := within
  cases rest with
  | nil =>
    simp only [List.append_nil] at whole
    subst whole
    have settled := inv.settled.extend room past
    exact ⟨_, List.prefix_append _ _, List.prefix_refl _, settled, inv.frontier.extend settled.roomy⟩
  | cons other rest =>
    have same := unique other (inv.settled.past results other rest whole.symm)
    subst same
    refine ⟨canon, List.prefix_refl _, ⟨rest, by simpa using whole⟩, inv.settled, inv.frontier⟩

theorem accepts_eq (op : Op δ) (latch : Option Error) :
    accepts op latch = ((check latch).bind fun _ => op.prepare) ∨
      accepts op latch = (op.prepare.bind fun _ => check latch) := by
  cases op with
  | startWorkflow name input opts => exact .inl rfl
  | _ => exact .inr rfl

theorem accepts_ok {op : Op δ} {latch : Option Error} (admitted : accepts op latch = .ok ()) :
    latch = none ∧ op.prepare = .ok () := by
  obtain same | same := accepts_eq op latch <;> rw [same] at admitted <;> revert admitted <;>
    cases op.prepare <;> cases latch <;> simp [check, Except.bind]

theorem accepts_unlatched (op : Op δ) : accepts op none = op.prepare := by
  obtain same | same := accepts_eq op none <;> rw [same] <;> cases op.prepare <;> rfl

theorem issue_inv (starts : Starts ctx proper fact) (rounds : Nat) {attempt : Attempt δ} {op : Op δ}
    (started : s.attempt = some attempt) (free : attempt.running = none) (call : body attempt.results = some op)
    (room : attempt.seq + 2 < 2 ^ 31) (inv : Inv ctx body proper fact canon s) :
    ∃ canon', canon <+: canon' ∧ Inv ctx body proper fact canon' (issue ctx rounds attempt op s) := by
  unfold issue
  split
  next e refused =>
    cases latched : s.latch with
    | some cause =>
      -- Interrupted: nothing the body is handed from here on is part of the history.
      refine ⟨canon, List.prefix_refl _, { inv with idle := ?_, inFlight := ?_ }⟩
      · intro a _ _ unlatched
        cases unlatched
      · intro a running same runs
        cases same
        rw [free] at runs
        cases runs
    | none =>
      rw [latched, accepts_unlatched] at refused
      obtain ⟨within, seq⟩ := inv.idle attempt started free latched
      obtain ⟨canon', longer, inside, settled, frontier⟩ := handed inv within (seq ▸ room)
        (.refused op e call refused rfl) fun other past => past.refusal call refused
      refine ⟨canon', longer, { inv with
        settled := settled
        frontier := frontier
        idle := ?_
        inFlight := ?_
        log := fun entry member => (inv.log entry member).extend longer }⟩
      · intro a same _ _
        cases same
        refine ⟨inside, ?_⟩
        rw [counter_snoc, call, claimed, refused]
        exact seq
      · intro a running same runs
        cases same
        rw [free] at runs
        cases runs
  next admitted =>
    obtain ⟨unlatched, prepared⟩ := accepts_ok admitted
    obtain ⟨within, seq⟩ := inv.idle attempt started free unlatched
    have claims : Claims body canon attempt.results op := ⟨within, call, prepared, seq ▸ room⟩
    refine ⟨canon, List.prefix_refl _, { inv with idle := ?_, inFlight := ?_ }⟩
    · intro a same runs
      cases same
      cases runs
    · intro a running same runs
      cases same
      cases runs
      have begun : Begun ctx attempt.seq op s.store := seq ▸ inv.begun claims
      exact
        { claims := claims
          seq := seq
          counter := rfl
          found := fun row there => there
          safe := starts attempt.rt rounds attempt.seq op _ prepared ⟨inv.runnable, unlatched, begun.own, begun.timer⟩ }

theorem asked_inv {input : Input δ} {attempt : Attempt δ} {running : Running δ} {q : Ask}
    {k : q.Reply δ → Client Ask (Ask.Reply δ) (Outcome δ)} (started : s.attempt = some attempt)
    (runs : attempt.running = some running) (rest : running.rest = .ask q k) (allowed : proper input s.store q)
    (inv : Inv ctx body proper fact canon s) :
    Inv ctx body proper fact canon (tick ctx input attempt running s) := by
  have flight := inv.inFlight attempt running started runs
  have safe := flight.safe
  rw [rest] at safe
  obtain ⟨may, next⟩ := safe.served ⟨input, allowed, rfl⟩
  simp only [tick, rest]
  change May _ _ _ _ _ (answer ctx.lib input q (s.store, s.latch)).2 at may
  change Safe _ _ _ (k (answer ctx.lib input q (s.store, s.latch)).1) (answer ctx.lib input q (s.store, s.latch)).2 at next
  generalize answer ctx.lib input q (s.store, s.latch) = answered at may next
  obtain ⟨reply, store, latch⟩ := answered
  have moved : Moved ctx (counter body attempt.results) running.op s.store store := by
    rw [← flight.seq]
    exact ⟨may.steps, may.closed⟩
  dsimp only
  constructor
  · exact may.runnable inv.runnable
  · exact inv.settled.later flight.claims moved
  · exact inv.frontier.later inv.settled.roomy flight.claims moved
  · intro a same idle
    cases same
    cases idle
  · intro a r same there
    cases same
    cases there
    refine { flight with found := ?_, safe := next }
    intro row found
    have present := flight.found row found
    obtain stays | ⟨vacant, -⟩ := may.steps running.seq
    · exact stays.trans present
    · cases vacant.symm.trans present
  · exact inv.log
  · intro closure member
    split at member
    next closure' =>
      rcases List.mem_append.mp member with earlier | last
      · exact inv.closures closure earlier
      · rw [List.mem_singleton.mp last]
        refine may.bodies ?_
        cases q with
        | body position attempt => exact .inl ⟨position, attempt, rfl⟩
        | race position => exact .inr ⟨position, rfl⟩
        | _ => cases closure'
    · exact inv.closures closure member

theorem done_inv {input : Input δ} {attempt : Attempt δ} {running : Running δ} {result : Outcome δ}
    (started : s.attempt = some attempt) (runs : attempt.running = some running) (rest : running.rest = .done result)
    (inv : Inv ctx body proper fact canon s) :
    ∃ canon', canon <+: canon' ∧ Inv ctx body proper fact canon' (tick ctx input attempt running s) := by
  have flight := inv.inFlight attempt running started runs
  have safe := flight.safe
  rw [rest] at safe
  obtain ⟨ends, shown⟩ := safe.result
  simp only [tick, rest]
  have kept : ∀ row, running.found = some row → s.store.steps.get (ctx.workflowId, running.seq) = some row :=
    flight.found
  have counted : attempt.seq = counter body (attempt.results ++ [result]) := by
    rw [counter_snoc, flight.claims.call, claimed, flight.claims.prepared, ← flight.seq]
    exact flight.counter
  rcases ends with settles | ⟨vacant, interrupted⟩
  · have settles : Settles ctx (counter body attempt.results) running.op result s.store := flight.seq ▸ settles
    have unique : ∀ other, Past ctx body s.store attempt.results other → other = result := by
      intro other past
      exact settles_unique (past.position flight.claims.call flight.claims.prepared).2 settles
    obtain ⟨canon', longer, inside, settled, frontier⟩ := handed inv flight.claims.within flight.claims.room
      (.settled running.op flight.claims.call flight.claims.prepared (inv.begun flight.claims) settles) unique
    refine ⟨canon', longer, { inv with
      settled := settled
      frontier := frontier
      idle := ?_
      inFlight := ?_
      log := ?_ }⟩
    · intro a same _ _
      cases same
      exact ⟨inside, counted⟩
    · intro a r same there
      cases same
      cases there
    · intro entry member
      rcases List.mem_append.mp member with earlier | last
      · exact (inv.log entry earlier).extend longer
      · rw [List.mem_singleton.mp last]
        refine ⟨fun _ => ⟨attempt.results, flight.claims.extend longer, flight.seq, inside⟩, kept, ?_, shown⟩
        intro row present
        rcases settles with ⟨row', present', -, same⟩ | ⟨vacant, -⟩
        · rw [← flight.seq] at present' same
          cases present.symm.trans present'
          exact same
        · rw [← flight.seq] at vacant
          cases present.symm.trans vacant
  · refine ⟨canon, List.prefix_refl _, { inv with idle := ?_, inFlight := ?_, log := ?_ }⟩
    · intro a same _ unlatched
      dsimp only at unlatched
      rw [unlatched] at interrupted
      cases interrupted
    · intro a r same there
      cases same
      cases there
    · intro entry member
      rcases List.mem_append.mp member with earlier | last
      · exact inv.log entry earlier
      · rw [List.mem_singleton.mp last]
        refine ⟨?_, kept, ?_, shown⟩
        · rintro (there | clear)
          · dsimp only at there
            have vacant' : s.store.steps.get (ctx.workflowId, running.seq) = none := vacant
            rw [vacant'] at there
            cases there
          · dsimp only at clear interrupted
            rw [interrupted] at clear
            cases clear
        · intro row present
          cases present.symm.trans vacant

theorem next_inv (starts : Starts ctx proper fact) (event : Event δ) (allowed : Allowed ctx proper s event)
    (inv : Inv ctx body proper fact canon s) :
    ∃ canon', canon <+: canon' ∧ Inv ctx body proper fact canon' (next ctx body s event) := by
  have same : ∀ {s' : System δ}, Inv ctx body proper fact canon s' →
      ∃ canon', canon <+: canon' ∧ Inv ctx body proper fact canon' s' :=
    fun kept => ⟨canon, List.prefix_refl _, kept⟩
  cases event with
  | others now call => exact same (others_inv now allowed inv)
  | crash => exact same (stopped_inv inv)
  | start rt =>
    simp only [next]
    split
    · exact same inv
    · refine same { inv with idle := ?_, inFlight := ?_ }
      · intro attempt started _ _
        cases started
        exact ⟨List.nil_prefix, rfl⟩
      · intro attempt running started runs
        cases started
        cases runs
  | issue rounds =>
    simp only [next]
    split
    next attempt started =>
      split
      next op free call =>
        have room : attempt.seq + 2 < 2 ^ 31 := by simpa [Allowed, started] using allowed
        exact issue_inv starts rounds started free call room inv
      next => exact same inv
    next => exact same inv
  | tick input =>
    simp only [next]
    split
    next attempt started =>
      split
      next running runs =>
        cases rest : running.rest with
        | done result => exact done_inv started runs rest inv
        | ask q k =>
          have proper : proper input s.store q := by
            simpa [Allowed, System.asking, started, runs, rest] using allowed
          exact same (asked_inv started runs rest proper inv)
        | halt =>
          simp only [tick, rest]
          exact same (stopped_inv inv)
      next => exact same inv
    next => exact same inv

/-- Every run of executions of one body keeps to one history. -/
theorem run_inv (starts : Starts ctx proper fact) {store : Inner} (runnable : Runnable ctx.workflowId store)
    (empty : ∀ seq, store.steps.get (ctx.workflowId, seq) = none) {events : List (Event δ)}
    (allowed : Runs.Along (next ctx body) (Allowed ctx proper) events (System.fresh store)) :
    ∃ canon, Inv ctx body proper fact canon (run ctx body events (System.fresh store)) := by
  refine Runs.invariant (I := fun s => ∃ canon, Inv ctx body proper fact canon s) ?_ allowed
    ⟨[], fresh_inv runnable empty⟩
  rintro s event here ⟨canon, inv⟩
  obtain ⟨canon', -, kept⟩ := next_inv starts event here inv
  exact ⟨canon', kept⟩

/-- Two results of one settled position are the same. -/
theorem Inv.agree {first second : Entry δ} (inv : Inv ctx body proper fact canon s) (one : first ∈ s.log)
    (other : second ∈ s.log) (seq : first.seq = second.seq)
    (settled : first.row.isSome = true ∨ first.interrupted = false)
    (settled' : second.row.isSome = true ∨ second.interrupted = false) :
    first.op = second.op ∧ first.result = second.result := by
  obtain ⟨before, claims, at_, inside⟩ := (inv.log first one).part settled
  obtain ⟨before', claims', at', inside'⟩ := (inv.log second other).part settled'
  have wide := width_pos first.op
  have wide' := width_pos second.op
  obtain same | apart | apart := positions_apart inv.settled.roomy claims claims'
  · subst same
    have ends := List.prefix_of_prefix_length_le inside inside' (by simp)
    have results := (List.append_inj (ends.eq_of_length (by simp)) rfl).2
    exact ⟨Option.some.inj (claims.call.symm.trans claims'.call), List.singleton_inj.mp results⟩
  · omega
  · omega

end Invariant

section Returning

variable {δ : Type} {ctx : Context} {row : StepRow}

def Event.goesOn : Event δ → Bool
  | .tick _ | .others _ _ => true
  | _ => false

def Event.isTick : Event δ → Bool
  | .tick _ => true
  | _ => false

variable {body : Body δ} {proper : Input δ → Inner → Ask → Prop}

theorem idle_log (events : List (Event δ)) (s : System δ) (onward : ∀ event ∈ events, event.goesOn = true)
    (free : ∀ attempt, s.attempt = some attempt → attempt.running = none) : (run ctx body events s).log = s.log := by
  induction events generalizing s with
  | nil => rfl
  | cons event events ih =>
    rw [run, Runs.run_cons]
    have rest := fun s => ih s fun later member => onward later (List.mem_cons_of_mem _ member)
    cases event with
    | others now call => exact rest _ free
    | tick input =>
      have same : next ctx body s (.tick input) = s := by
        simp only [next]
        split
        next attempt started => rw [free attempt started]
        next => rfl
      rw [same]
      exact rest s free
    | crash | start | issue => cases onward _ List.mem_cons_self

/-- A call that returns within `n` asks hands its result over within `n + 1` ticks. -/
theorem finishes (events : List (Event δ)) (s : System δ) {attempt : Attempt δ} {running : Running δ} {n : Nat}
    (started : s.attempt = some attempt) (runs : attempt.running = some running)
    (gives : Gives (on ctx attempt.rt) (fun _ _ => True) running.rest n (s.store, s.latch))
    (onward : ∀ event ∈ events, event.goesOn = true)
    (allowed : Runs.Along (next ctx body) (Allowed ctx proper) events s) (enough : n < events.countP Event.isTick) :
    ∃ entry, (run ctx body events s).log = s.log ++ [entry] ∧ entry.seq = running.seq ∧ entry.found = running.found := by
  induction events generalizing s attempt running n with
  | nil => simp at enough
  | cons event events ih =>
    have onward' : ∀ later ∈ events, later.goesOn = true :=
      fun later member => onward later (List.mem_cons_of_mem _ member)
    rw [run, Runs.run_cons]
    cases event with
    | others now call =>
      have moved : Rely ctx.workflowId (s.store, s.latch) (step ctx.lib s.store (now, call), s.latch) :=
        others_rely allowed.1
      have later : Gives (on ctx attempt.rt) (fun _ _ => True) running.rest n
          (step ctx.lib s.store (now, call), s.latch) := Returns.later gives moved
      exact ih (next ctx body s (.others now call)) started runs later onward' allowed.2
        (by simpa [Event.isTick] using enough)
    | tick input =>
      have ticked : next ctx body s (.tick input) = tick ctx input attempt running s := by
        simp only [next, started, runs]
      have allowed' := allowed.2
      rw [ticked] at allowed' ⊢
      rw [List.countP_cons_of_pos rfl] at enough
      cases rest : running.rest with
      | halt => rw [rest] at gives; exact absurd gives id
      | done result =>
        simp only [tick, rest]
        refine ⟨_, idle_log events _ onward' ?_, rfl, rfl⟩
        intro a same
        cases same
        rfl
      | ask q k =>
        rw [rest] at gives
        cases n with
        | zero => exact absurd gives id
        | succ n =>
          have later : Gives (on ctx attempt.rt) (fun _ _ => True) (k (answer ctx.lib input q (s.store, s.latch)).1) n
              (answer ctx.lib input q (s.store, s.latch)).2 := gives _ (Rely.refl _ _) _ _ ⟨input, trivial, rfl⟩
          simp only [tick, rest] at allowed' ⊢
          generalize answer ctx.lib input q (s.store, s.latch) = answered at later allowed' ⊢
          have logged := ih _ rfl rfl later onward' allowed' (by omega)
          exact logged
    | crash | start | issue => cases onward _ List.mem_cons_self

/-- A call issued at a position that holds a row is served from it. -/
theorem Inv.returns {fact : Fact δ} {canon : List (Outcome δ)} {s : System δ} {attempt : Attempt δ} {op : Op δ}
    (inv : Inv ctx body proper fact canon s) (started : s.attempt = some attempt) (free : attempt.running = none)
    (unlatched : s.latch = none) (call : body attempt.results = some op) (prepared : op.prepare = .ok ())
    (room : attempt.seq + 2 < 2 ^ 31) (present : s.store.steps.get (ctx.workflowId, attempt.seq) = some row)
    (rounds : Nat) {later : List (Event δ)} (onward : ∀ event ∈ later, event.goesOn = true)
    (allowed : Runs.Along (next ctx body) (Allowed ctx proper) later (next ctx body s (.issue rounds)))
    (enough : 4 < later.countP Event.isTick) :
    ∃ entry, (run ctx body (.issue rounds :: later) s).log = s.log ++ [entry] ∧ entry.seq = attempt.seq ∧
      entry.found = some row := by
  obtain ⟨within, seq⟩ := inv.idle attempt started free unlatched
  have begun : Begun ctx attempt.seq op s.store := seq ▸ inv.begun ⟨within, call, prepared, seq ▸ room⟩
  have issued : next ctx body s (.issue rounds) = { s with attempt := some { attempt with
      seq := op.claim attempt.seq
      running := some ⟨op, attempt.seq, some row, op.run (on ctx attempt.rt) rounds attempt.seq⟩ } } := by
    simp only [next, started, free, call, issue, unlatched, accepts_unlatched, prepared, present]
  have gives : Gives (on ctx attempt.rt) (fun _ _ => True) (op.run (on ctx attempt.rt) rounds attempt.seq) 4
      (s.store, s.latch) := by
    have stands : Stands (on ctx attempt.rt) attempt.seq row (s.store, s.latch) := present
    exact (recorded_gives rounds prepared (begun.own row present) unlatched stands).mono fun _ _ _ => trivial
  rw [run, Runs.run_cons]
  rw [issued] at allowed ⊢
  exact finishes later _ rfl rfl gives onward allowed enough

end Returning

section Fidelity

variable {δ : Type} {ctx : Context} {body : Body δ}

theorem starts_proper (ctx : Context) : Starts ctx (Proper ctx.workflowId) (fun (_ : Op δ) _ _ => True) := by
  intro rt rounds seq op s prepared ready
  exact Safe.mono (run_ends (fun input s q fits => fits) rounds prepared ready) fun r s ends => ⟨ends, trivial⟩

/-- A call that found a row at its position handed over the result of every execution that had
the row, the one that wrote it among them. -/
def Faithful (log : List (Entry δ)) : Prop :=
  ∀ first ∈ log, ∀ again ∈ log, first.seq = again.seq → first.row.isSome = true → again.found.isSome = true →
    again.result = first.result

instance [DecidableEq δ] (log : List (Entry δ)) : Decidable (Faithful log) :=
  inferInstanceAs (Decidable (∀ first ∈ log, ∀ again ∈ log, _ = _ → _ = _ → _ = _ → _ = _))

/-- Replay fidelity. A call that finds a row at its position hands over the result that every
execution which had the row handed over, runs no closure, and returns. -/
theorem replay_fidelity {store : Inner} (runnable : Runnable ctx.workflowId store)
    (empty : ∀ seq, store.steps.get (ctx.workflowId, seq) = none) (events : List (Event δ)) {s : System δ}
    (allowed : Runs.Along (next ctx body) (Allowed ctx (Proper ctx.workflowId)) events (System.fresh store))
    (reached : run ctx body events (System.fresh store) = s) :
    Faithful s.log ∧
    (∀ closure ∈ s.closures, closure.row = none) ∧
    ∀ attempt op row rounds later, s.attempt = some attempt → attempt.running = none → s.latch = none →
      body attempt.results = some op → op.prepare = .ok () → attempt.seq + 2 < 2 ^ 31 →
      s.store.steps.get (ctx.workflowId, attempt.seq) = some row → (∀ event ∈ later, event.goesOn = true) →
      Runs.Along (next ctx body) (Allowed ctx (Proper ctx.workflowId)) later (next ctx body s (.issue rounds)) →
      4 < later.countP Event.isTick →
      ∃ entry, (run ctx body (.issue rounds :: later) s).log = s.log ++ [entry] ∧ entry.seq = attempt.seq ∧
        entry.found = some row := by
  subst reached
  obtain ⟨canon, inv⟩ := run_inv (starts_proper ctx) runnable empty allowed
  refine ⟨?_, inv.closures, ?_⟩
  · intro first one again other seq there found
    have kept : again.row.isSome = true := by
      obtain ⟨row, found⟩ := Option.isSome_iff_exists.mp found
      rw [(inv.log again other).kept row found]
      rfl
    exact (inv.agree one other seq (.inl there) (.inl kept)).2.symm
  · intro attempt op row rounds later started free unlatched call prepared room present onward along enough
    exact inv.returns started free unlatched call prepared room present rounds onward along enough

def stored : Inner := Inner.new.putRow "w" (.new 0 "w" "job" .null .pending "e1" "v1")

theorem stored_empty (seq : Int) : stored.steps.get ("w", seq) = none := rfl

def execution (calls : List (List (Input Value))) : List (Event Value) :=
  .start Context.plain.rt :: calls.flatMap fun inputs => .issue 1 :: inputs.map .tick

def returning (value : Value) : Input Value := { body := .returned (.ok value) }

def chargeOnce : Body Value
  | [] => some (.step "charge" .value)
  | _ => none

/-- The step runs and is recorded, the process crashes, and the next one is served. -/
def crashedOnce : List (Event Value) :=
  execution [List.replicate 7 (returning (.bool true))] ++ .crash ::
    execution [List.replicate 7 (returning (.bool false))]

theorem replay_fidelity_crashed_once :
    ((run .plain chargeOnce crashedOnce (System.fresh stored)).log.map fun entry =>
      (entry.seq, entry.found.isSome, entry.result)) =
        [(0, false, .ok (.value (.bool true))), (0, true, .ok (.value (.bool true)))] ∧
    Faithful (run .plain chargeOnce crashedOnce (System.fresh stored)).log :=
  ⟨by decide, (replay_fidelity (by decide) stored_empty crashedOnce (by decide) rfl).1⟩

def catching : Body Value
  | [] => some (.step "charge" .value)
  | [.error _] => some .now
  | [.ok _] => some .uuid
  | _ => none

/-- The step ends with its own workflow's cancellation, which is not recorded, and the clock is
read; after a crash the step succeeds. -/
def cancelledStep : List (Event Value) :=
  execution [List.replicate 5 { body := .returned (.error (.cancelled "w")) }, List.replicate 5 {}] ++ .crash ::
    execution [List.replicate 7 (returning (.bool true)), List.replicate 7 {}]

/-- A row whose result a later execution does not get. -/
theorem cancelled_step_diverges :
    Runs.Along (next .plain catching) (Allowed .plain anyAnswer) cancelledStep (System.fresh stored) ∧
    ¬ Faithful (run .plain catching cancelledStep (System.fresh stored)).log ∧
    ((run .plain catching cancelledStep (System.fresh stored)).log.map fun entry =>
      (entry.seq, entry.found.map (·.name), entry.row.isSome, entry.result)) =
        [(0, none, false, .error (.cancelled "w")), (1, none, true, .ok (.instant 0)),
          (0, none, true, .ok (.value (.bool true))),
          (1, some "DBOS.now", true, .error (.unexpectedStep "w" 1 "DBOS.uuid" "DBOS.now"))] := by
  decide

end Fidelity

end Durare.Replay

import Durare.Executions
import Durare.WriteOnce

/-! A fork goes through what the original recorded below the step it starts at, and runs none of it
again. -/
namespace Durare.Forks

open Interaction Execution Replay
open Memory hiding Answer run step
open Course (Linked Linking)

def forkTimeout : Option Duration → Except Error (Option Int)
  | none => .ok none
  | some span =>
    if span / 1000000 < 2 ^ 63 then .ok (some (span / 1000000 : Nat))
    else .error (.ofMessage "fork timeout exceeds the supported millisecond range")

/-- `fork_workflow` of the engine and of the client, with the id of the handle it returns. -/
def forkWorkflow (now : DateTime) (fresh originalId : String) (startStep : Int) (opts : WorkflowOptions) (s : Inner) :
    Memory.Answer String :=
  if opts.partitionKey.isSome ∧ opts.queue.isNone then
    (.error (.ofMessage "a queue partition key requires a queue name"), s)
  else match forkTimeout opts.timeout with
    | .error e => (.error e, s)
    | .ok timeoutMs =>
      let newId := (nonEmpty opts.workflowId).getD fresh
      let (forked, s) := forkWorkflowWithTimeout now
        { originalId := originalId
          newId := newId
          startStep := startStep
          appVersion := nonEmpty opts.appVersion
          queueName := opts.queue.getD INTERNAL_QUEUE
          partitionKey := opts.partitionKey } timeoutMs s
      (forked.map fun _ => newId, s)

def Unused (id : String) (s : Inner) : Prop :=
  s.workflows.get id = none ∧ ∀ entry ∈ s.steps.toList, entry.1.1 ≠ id

instance (id : String) (s : Inner) : Decidable (Unused id s) := inferInstanceAs (Decidable (_ ∧ _))

theorem forked_enqueued {now : DateTime} {params : ForkParams} {timeoutMs : Option Int} {s : Inner}
    (forked : (forkWorkflowWithTimeout now params timeoutMs s).1 = .ok ()) :
    Runnable params.newId (forkWorkflowWithTimeout now params timeoutMs s).2 := by
  unfold forkWorkflowWithTimeout at forked ⊢
  split at forked
  · cases forked
  next inTime =>
    rw [if_neg inTime]
    split at forked
    · cases forked
    next original present =>
      refine ⟨forkRow now params timeoutMs original, ?_, by simp [forkRow, WorkflowStatus.new]⟩
      simp [putSteps_eq]

/-- What a fork under an unused id leaves: the original's rows below the start. -/
theorem forkWorkflow_ok {now : DateTime} {fresh originalId id : String} {startStep : Int} {opts : WorkflowOptions}
    {s s' : Inner} (forked : forkWorkflow now fresh originalId startStep opts s = (.ok id, s')) (unused : Unused id s) :
    Runnable id s' ∧ ∀ p, s'.steps.get (id, p) = if p < startStep then s.steps.get (originalId, p) else none := by
  unfold forkWorkflow at forked
  split at forked
  · cases forked
  split at forked
  · cases forked
  next timeoutMs _ =>
    simp only [Prod.mk.injEq] at forked
    obtain ⟨made, rfl⟩ := forked
    cases taken : (forkWorkflowWithTimeout now ⟨originalId, (nonEmpty opts.workflowId).getD fresh, startStep,
        nonEmpty opts.appVersion, opts.queue.getD INTERNAL_QUEUE, opts.partitionKey⟩ timeoutMs s).1 with
    | error e =>
      rw [taken] at made
      cases made
    | ok _ =>
      rw [taken] at made
      cases made
      have accepted : WriteOnce.refused ⟨originalId, (nonEmpty opts.workflowId).getD fresh, startStep,
          nonEmpty opts.appVersion, opts.queue.getD INTERNAL_QUEUE, opts.partitionKey⟩ timeoutMs s = false := by
        by_contra refused
        have denied := (WriteOnce.fork_refused now (Bool.not_eq_false _ ▸ refused)).1
        rw [taken] at denied
        cases denied
      refine ⟨forked_enqueued taken, (WriteOnce.fork_unused now accepted ⟨unused.1, ?_⟩).copies⟩
      intro entry member here
      exact absurd here (unused.2 entry member)

section Owners

variable {δ : Type} {ctx : Context} {body : Body δ} {proper : Input δ → Inner → Ask → Prop} {fact : Fact δ}
  {canon : List (Outcome δ)} {s : System δ}

variable (ctx body) in
/-- Every row of the workflow is a call's own or the timer of a wait; a child start has a link or a
rejection. -/
def Owned (canon : List (Outcome δ)) (store : Inner) : Prop :=
  ∀ p row, store.steps.get (ctx.workflowId, p) = some row → ∃ before op, Claims body canon before op ∧
    (p = counter body before ∧ Linked op row ∨ op.waits = true ∧ p = nextSeq (counter body before))

/-- A child start in progress goes on to a link or a rejection. -/
def Links (ctx : Context) (s : System δ) : Prop :=
  ∀ attempt running, s.attempt = some attempt → attempt.running = some running → Verify.Op.starts running.op = true →
    Linking ctx.workflowId running.seq running.rest

theorem Owned.extend {store : Inner} {canon' : List (Outcome δ)} (owned : Owned ctx body canon store)
    (longer : canon <+: canon') : Owned ctx body canon' store := by
  intro p row present
  obtain ⟨before, op, claims, here⟩ := owned p row present
  exact ⟨before, op, claims.extend longer, here⟩

/-- The row at the position of a child start is linked or a rejection. -/
theorem Owned.linked {store : Inner} {before : List (Outcome δ)} {op : Op δ} {row : StepRow}
    (owned : Owned ctx body canon store) (roomy : Roomy body canon) (claims : Claims body canon before op)
    (present : store.steps.get (ctx.workflowId, counter body before) = some row) : Linked op row := by
  obtain ⟨other, owner, claims', ⟨here, linked⟩ | ⟨waits, here⟩⟩ := owned _ row present
  · have wide := width_pos op
    have wide' := width_pos owner
    obtain same | apart | apart := positions_apart roomy claims claims'
    · subst same
      rw [Option.some.inj (claims.call.symm.trans claims'.call)]
      exact linked
    · omega
    · omega
  · have two : width owner = 2 := by rw [width, waits]; rfl
    have wide := width_pos op
    rw [nextSeq_eq (counter_low (roomy.within claims'.within)) claims'.room] at here
    obtain same | apart | apart := positions_apart roomy claims claims'
    · subst same; omega
    · omega
    · omega

theorem startWorkflow_links (rt : Runtime) (rounds : Nat) {op : Op δ} (starts : Verify.Op.starts op = true)
    (seq : Int) : Linking ctx.workflowId seq (op.run (on ctx rt) rounds seq) := by
  cases op with
  | startWorkflow name input opts =>
    refine Linking.bind trivial fun input => ?_
    have started : Linking (on ctx rt).workflowId seq ((on ctx rt).startWorkflow seq name input opts : Act δ String) :=
      Course.startWorkflow_linking input opts
    exact started.bind fun _ => trivial
  | _ => cases starts

/-- One step of the machine adds a row of the running call at most. -/
theorem next_rows (event : Event δ) (allowed : Allowed ctx proper s event) (inv : Inv ctx body proper fact canon s)
    (links : Links ctx s) (p : Int) :
    (next ctx body s event).store.steps.get (ctx.workflowId, p) = s.store.steps.get (ctx.workflowId, p) ∨
      (s.store.steps.get (ctx.workflowId, p) = none ∧
        ∃ attempt running row, s.attempt = some attempt ∧ attempt.running = some running ∧
          (next ctx body s event).store.steps.get (ctx.workflowId, p) = some row ∧
          (p = running.seq ∧ Linked running.op row ∨ running.op.waits = true ∧ p = nextSeq running.seq)) := by
  cases event with
  | others now call =>
    have moved : Rely ctx.workflowId (s.store, s.latch) (Memory.step ctx.lib s.store (now, call), s.latch) :=
      others_rely allowed
    exact .inl (moved.steps p)
  | crash => exact .inl rfl
  | start rt =>
    simp only [next]
    split <;> exact .inl rfl
  | issue rounds =>
    simp only [next]
    split
    · split
      · simp only [issue]
        split <;> exact .inl rfl
      · exact .inl rfl
    · exact .inl rfl
  | tick input =>
    simp only [next]
    split
    next attempt started =>
      split
      next running runs =>
        have flight := inv.inFlight attempt running started runs
        have safe := flight.safe
        have linking := links attempt running started runs
        cases rest : running.rest with
        | done result => exact .inl (by simp only [tick, rest])
        | halt => exact .inl (by simp only [tick, rest])
        | ask q k =>
          have fits : proper input s.store q := by
            simpa [Allowed, System.asking, started, runs, rest] using allowed
          rw [rest] at safe linking
          obtain ⟨may, -⟩ := safe.served ⟨input, fits, rfl⟩
          simp only [tick, rest]
          obtain same | ⟨vacant, row, present, ⟨rfl, -, -⟩ | ⟨here, waits, -⟩⟩ := may.steps p
          · exact .inl same
          · refine .inr ⟨vacant, attempt, running, row, started, runs, present, .inl ⟨rfl, ?_⟩⟩
            intro starts
            have linked := (linking starts).1
            cases q with
            | call c => exact linked ctx.lib input.now s.store row vacant present
            | now | fresh | random | body | race | wait | check | interrupt =>
              cases vacant.symm.trans present
          · exact .inr ⟨vacant, attempt, running, row, started, runs, present, .inr ⟨waits, here⟩⟩
      next => exact .inl rfl
    next => exact .inl rfl

theorem next_links (event : Event δ) (links : Links ctx s) : Links ctx (next ctx body s event) := by
  cases event with
  | others now call => exact links
  | crash => exact fun attempt running started => by cases started
  | start rt =>
    simp only [next]
    split
    · exact links
    · intro attempt running started runs
      cases started
      cases runs
  | issue rounds =>
    simp only [next]
    split
    next attempt _ =>
      split
      next op free _ =>
        simp only [issue]
        split
        · intro a running same runs
          cases same
          rw [free] at runs
          cases runs
        · intro a running same runs starts
          cases same
          cases runs
          exact startWorkflow_links attempt.rt rounds starts attempt.seq
      next => exact links
    next => exact links
  | tick input =>
    simp only [next]
    split
    next attempt started =>
      split
      next running runs =>
        cases rest : running.rest with
        | done result =>
          simp only [tick, rest]
          intro a r same there
          cases same
          cases there
        | halt =>
          simp only [tick, rest]
          exact fun a r same => by cases same
        | ask q k =>
          simp only [tick, rest]
          intro a r same there starts
          cases same
          cases there
          have linking := links attempt running started runs starts
          rw [rest] at linking
          exact linking.2 _
      next => exact links
    next => exact links

/-- The history, with an owner for every row. -/
structure Traced (ctx : Context) (body : Body δ) (proper : Input δ → Inner → Ask → Prop) (fact : Fact δ)
    (canon : List (Outcome δ)) (s : System δ) : Prop where
  inv : Inv ctx body proper fact canon s
  owned : Owned ctx body canon s.store
  links : Links ctx s

theorem next_traced (starts : Starts ctx proper fact) (event : Event δ) (allowed : Allowed ctx proper s event)
    (traced : Traced ctx body proper fact canon s) :
    ∃ canon', canon <+: canon' ∧ Traced ctx body proper fact canon' (next ctx body s event) := by
  obtain ⟨canon', longer, inv⟩ := next_inv starts event allowed traced.inv
  refine ⟨canon', longer, inv, ?_, next_links event traced.links⟩
  intro p row present
  obtain same | ⟨-, attempt, running, row', started, runs, there, here⟩ :=
    next_rows event allowed traced.inv traced.links p
  · exact (traced.owned.extend longer) p row (same ▸ present)
  · rw [there] at present
    cases present
    have flight := traced.inv.inFlight attempt running started runs
    refine ⟨attempt.results, running.op, flight.claims.extend longer, ?_⟩
    rw [← flight.seq]
    exact here

theorem run_traced (starts : Starts ctx proper fact) {store : Inner} (runnable : Runnable ctx.workflowId store)
    (empty : ∀ seq, store.steps.get (ctx.workflowId, seq) = none) {events : List (Event δ)}
    (allowed : Runs.Along (next ctx body) (Allowed ctx proper) events (System.fresh store)) :
    ∃ canon, Traced ctx body proper fact canon (run ctx body events (System.fresh store)) := by
  refine Runs.invariant (I := fun s => ∃ canon, Traced ctx body proper fact canon s) ?_ allowed
    ⟨[], fresh_inv runnable empty, ?_, fun attempt running started => by cases started⟩
  · rintro s event here ⟨canon, traced⟩
    obtain ⟨canon', -, kept⟩ := next_traced starts event here traced
    exact ⟨canon', kept⟩
  · intro p row present
    have vacant : store.steps.get (ctx.workflowId, p) = none := empty p
    cases vacant.symm.trans present

end Owners

section Outset

variable {δ : Type} {ctx : Context} {body : Body δ} {proper : Input δ → Inner → Ask → Prop} {fact : Fact δ}
  {canon : List (Outcome δ)} {s : System δ}

/-- The rows of the outset stay, each call at such a position finds its row, and no closure ran there. -/
structure Outset (ctx : Context) (left : Inner) (s : System δ) : Prop where
  older : ∀ p row, left.steps.get (ctx.workflowId, p) = some row → s.store.steps.get (ctx.workflowId, p) = some row
  running : ∀ attempt running, s.attempt = some attempt → attempt.running = some running →
    ∀ row, left.steps.get (ctx.workflowId, running.seq) = some row → running.found = some row
  entries : ∀ entry ∈ s.log, ∀ row, left.steps.get (ctx.workflowId, entry.seq) = some row → entry.found = some row
  closures : ∀ closure ∈ s.closures, left.steps.get (ctx.workflowId, closure.seq) = none

variable {left : Inner}

/-- A tick of the running call hands over what it found, or runs a closure where nothing stands. -/
theorem tick_outset {input : Input δ} {attempt : Attempt δ} {running : Running δ} (started : s.attempt = some attempt)
    (runs : attempt.running = some running)
    (older : ∀ p row, left.steps.get (ctx.workflowId, p) = some row →
      (tick ctx input attempt running s).store.steps.get (ctx.workflowId, p) = some row)
    (ran : ∀ closure ∈ (tick ctx input attempt running s).closures, closure.row = none) (outset : Outset ctx left s) :
    Outset ctx left (tick ctx input attempt running s) := by
  have found := outset.running attempt running started runs
  refine ⟨older, ?_, ?_, ?_⟩
  · intro a r same there
    unfold tick at same
    split at same
    · cases same
      cases there
    · cases same
      cases there
      exact found
    · cases same
  · intro entry member
    unfold tick at member
    split at member
    · rcases List.mem_append.mp member with earlier | last
      · exact outset.entries entry earlier
      · rw [List.mem_singleton.mp last]
        exact found
    · exact outset.entries entry member
    · exact outset.entries entry member
  · intro closure member
    have vacant := ran closure member
    unfold tick at member
    split at member
    · exact outset.closures closure member
    · dsimp only at member
      split at member
      · rcases List.mem_append.mp member with earlier | last
        · exact outset.closures closure earlier
        · rw [List.mem_singleton.mp last] at vacant ⊢
          by_contra present
          obtain ⟨row, present⟩ := Option.ne_none_iff_exists'.mp present
          cases vacant.symm.trans (outset.older _ row present)
      · exact outset.closures closure member
    · exact outset.closures closure member

theorem next_outset (event : Event δ) (allowed : Allowed ctx proper s event) (inv : Inv ctx body proper fact canon s)
    (links : Links ctx s) (ran : ∀ closure ∈ (next ctx body s event).closures, closure.row = none)
    (outset : Outset ctx left s) : Outset ctx left (next ctx body s event) := by
  have older : ∀ p row, left.steps.get (ctx.workflowId, p) = some row →
      (next ctx body s event).store.steps.get (ctx.workflowId, p) = some row := by
    intro p row there
    have present := outset.older p row there
    obtain same | ⟨vacant, -⟩ := next_rows event allowed inv links p
    · exact same.trans present
    · cases vacant.symm.trans present
  cases event with
  | others now call => exact { outset with older := older }
  | crash => exact { outset with running := fun a r same => by cases same }
  | start rt =>
    simp only [next] at older ⊢
    split
    · exact outset
    · refine { outset with running := ?_ }
      intro a r same there
      cases same
      cases there
  | issue rounds =>
    simp only [next]
    split
    next attempt started =>
      split
      next op free _ =>
        simp only [issue]
        split
        · refine { outset with running := ?_ }
          intro a r same there
          cases same
          rw [free] at there
          cases there
        · refine { outset with running := ?_ }
          intro a r same there row present
          cases same
          cases there
          exact outset.older _ row present
      next => exact outset
    next => exact outset
  | tick input =>
    simp only [next] at older ran ⊢
    split
    next attempt started =>
      simp only [started] at older ran
      split
      next running runs =>
        simp only [runs] at older ran
        exact tick_outset started runs older ran outset
      next => exact outset
    next => exact outset

/-- Executions that start with a history go on from it. -/
theorem run_outset (starts : Starts ctx proper fact) {store : Inner}
    (inv : Inv ctx body proper fact canon (System.fresh store : System δ)) {events : List (Event δ)}
    (allowed : Runs.Along (next ctx body) (Allowed ctx proper) events (System.fresh store)) :
    Outset ctx store (run ctx body events (System.fresh store)) ∧
      ∃ canon', canon <+: canon' ∧ Inv ctx body proper fact canon' (run ctx body events (System.fresh store)) := by
  have kept := Runs.invariant (I := fun s : System δ => Outset ctx store s ∧ Links ctx s ∧
      ∃ canon', canon <+: canon' ∧ Inv ctx body proper fact canon' s) ?_ allowed
    ⟨⟨fun _ _ there => there, fun a r same => (by cases same), fun entry member => (by cases member),
      fun closure member => (by cases member)⟩, fun a r same => (by cases same), canon, List.prefix_refl _, inv⟩
  · exact ⟨kept.1, kept.2.2⟩
  · rintro s event here ⟨outset, links, canon', longer, inv⟩
    obtain ⟨canon'', further, kept⟩ := next_inv starts event here inv
    exact ⟨next_outset event here inv links kept.closures outset, next_links event links, canon'',
      longer.trans further, kept⟩

end Outset

section Cut

variable {δ : Type} {body : Body δ} {canon part : List (Outcome δ)} {start : Int}

/-- The part of a history whose calls stand below a position. -/
structure Cut (body : Body δ) (start : Int) (canon part : List (Outcome δ)) : Prop where
  within : part <+: canon
  below : ∀ before, before <+: part → before ≠ part → counter body before < start
  ends : part = canon ∨ start ≤ counter body part

theorem cut_exists (body : Body δ) (start : Int) (canon : List (Outcome δ)) : ∃ part, Cut body start canon part := by
  induction canon using List.reverseRecOn with
  | nil =>
    refine ⟨[], List.prefix_refl _, ?_, .inl rfl⟩
    intro before within other
    exact absurd (List.prefix_nil.mp within) other
  | append_singleton canon result ih =>
    obtain ⟨part, cut⟩ := ih
    by_cases short : part = canon ∧ counter body canon < start
    · obtain ⟨rfl, low⟩ := short
      refine ⟨part ++ [result], List.prefix_refl _, ?_, .inl rfl⟩
      intro before within other
      have inside := (List.prefix_concat_iff.mp within).resolve_left other
      by_cases whole : before = part
      · rw [whole]
        exact low
      · exact cut.below before inside whole
    · refine ⟨part, cut.within.trans (List.prefix_append _ _), cut.below, .inr ?_⟩
      obtain same | far := cut.ends
      · rw [not_and, not_lt] at short
        rw [same]
        exact short same
      · exact far

/-- A call below the position is in the part, and its result too. -/
theorem Cut.inside {before : List (Outcome δ)} {result : Outcome δ} (cut : Cut body start canon part)
    (roomy : Roomy body canon) (within : before ++ [result] <+: canon) (below : counter body before < start) :
    before ++ [result] <+: part := by
  obtain rfl | far := cut.ends
  · exact within
  · obtain inside | shorter := List.prefix_or_prefix_of_prefix within cut.within
    · exact inside
    · obtain rfl | shorter := List.prefix_concat_iff.mp shorter
      · exact List.prefix_refl _
      · obtain ⟨rest, rfl⟩ := shorter
        have low := counter_le (roomy.within ((List.prefix_append _ _).trans within))
        omega

end Cut

section Fork

variable {δ : Type} {ctx : Context} {body : Body δ} {proper : Input δ → Inner → Ask → Prop} {fact : Fact δ}
  {canon part : List (Outcome δ)} {s : System δ} {store' : Inner} {id : String} {start : Int}

abbrev forkOf (ctx : Context) (id : String) : Context := { ctx with workflowId := id }

variable (ctx) in
/-- A linked row replays alike in both workflows. -/
theorem replay_forked (id : String) (seq : Int) {op : Op δ} {row : StepRow} (linked : Linked op row) :
    replay (forkOf ctx id) seq op row = replay ctx seq op row := by
  cases op with
  | startWorkflow name input opts =>
    cases child : row.childWorkflowId with
    | some link => simp only [replay, child]
    | none =>
      obtain there | failed := linked rfl
      · rw [child] at there
        cases there
      · obtain ⟨text, failed⟩ := Option.isSome_iff_exists.mp failed
        have rejected : ∃ e, recorded ctx Codec.value (stepRowOutcome ctx.lib row) = .error e := by
          simp only [stepRowOutcome, failed, recorded]
          split <;> exact ⟨_, rfl⟩
        obtain ⟨e, rejected⟩ := rejected
        have again : recorded (forkOf ctx id) Codec.value (stepRowOutcome ctx.lib row) = .error e := rejected
        simp only [replay, child, rejected, again]
  | _ => rfl

/-- Without a closed stream, the refusals of a call are those of its arguments. -/
theorem refusal_forked {op : Op δ} {e : Error} {store : Inner} (live : ∀ key, ¬ Closed store ctx.workflowId key)
    (refused : refusal ctx op store = some e) : refusal (forkOf ctx id) op store' = some e := by
  cases op with
  | writeStream key value => simp [refusal, live] at refused
  | closeStream key => simp [refusal, live] at refused
  | startWorkflow name input opts => exact refused
  | _ => cases refused

variable (copies : ∀ p, store'.steps.get (id, p) = if p < start then s.store.steps.get (ctx.workflowId, p) else none)
include copies

theorem copied_of {p : Int} {row : StepRow} (present : store'.steps.get (id, p) = some row) :
    p < start ∧ s.store.steps.get (ctx.workflowId, p) = some row := by
  rw [copies] at present
  split at present
  next below => exact ⟨below, present⟩
  next => cases present

theorem begun_forked {seq : Int} {op : Op δ} (begun : Begun ctx seq op s.store) :
    Begun (forkOf ctx id) seq op store' where
  own := fun row present => begun.own row (copied_of copies present).2
  timer := fun waits row present => begun.timer waits row (copied_of copies present).2

theorem settles_forked {seq : Int} {op : Op δ} {result : Outcome δ} (below : seq < start)
    (live : ∀ key, ¬ Closed s.store ctx.workflowId key)
    (linked : ∀ row, s.store.steps.get (ctx.workflowId, seq) = some row → Linked op row)
    (settles : Settles ctx seq op result s.store) : Settles (forkOf ctx id) seq op result store' := by
  have copied : store'.steps.get (id, seq) = s.store.steps.get (ctx.workflowId, seq) := by rw [copies, if_pos below]
  obtain ⟨row, present, named, same⟩ | ⟨vacant, e, refused, same⟩ := settles
  · refine .inl ⟨row, copied.trans present, named, ?_⟩
    rw [same, replay_forked ctx id seq (linked row present)]
  · exact .inr ⟨copied.trans vacant, e, refusal_forked live refused, same⟩

/-- The executions of a fork start with what the original's went through below its start. -/
theorem forked_inv {proper' : Input δ → Inner → Ask → Prop} (traced : Traced ctx body proper fact canon s)
    (cut : Cut body start canon part) (live : ∀ key, ¬ Closed s.store ctx.workflowId key)
    (runnable : Runnable id store') :
    Inv (forkOf ctx id) body proper' (fun _ _ _ => True) part (System.fresh store' : System δ) where
  runnable := runnable
  settled := by
    have roomy := traced.inv.settled.roomy
    refine ⟨?_, roomy.within cut.within⟩
    intro before result after split
    have inside : before <+: part := split ▸ List.prefix_append _ _
    have below := cut.below before inside (by rw [split]; simp)
    obtain ⟨rest, whole⟩ := cut.within
    rw [split, List.append_assoc] at whole
    cases traced.inv.settled.past before result (after ++ rest) whole.symm with
    | refused op e call refused same => exact .refused op e call refused same
    | settled op call prepared begun settles =>
      have claims : Claims body canon before op :=
        ⟨inside.trans cut.within, call, prepared, roomy before result (after ++ rest) whole.symm⟩
      exact .settled op call prepared (begun_forked copies begun) (settles_forked copies below live
        (fun row present => traced.owned.linked roomy claims present) settles)
  frontier := by
    obtain rfl | far := cut.ends
    · have frontier := traced.inv.frontier
      refine ⟨fun op claims => begun_forked copies (frontier.begun op claims), ?_⟩
      intro p row beyond present
      exact frontier.beyond p row beyond (copied_of copies present).2
    · have vacant : ∀ p row, counter body part ≤ p → store'.steps.get (id, p) ≠ some row := by
        intro p row beyond present
        have below := (copied_of copies present).1
        omega
      have low := counter_low (traced.inv.settled.roomy.within cut.within)
      refine ⟨?_, fun p row beyond present => absurd present (vacant p row beyond)⟩
      intro op claims
      refine ⟨fun row present => absurd present (vacant _ row (le_refl _)), ?_⟩
      intro _ row present
      exact absurd present (vacant _ row (by rw [nextSeq_eq low claims.room]; omega))
  idle := fun attempt started => by cases started
  inFlight := fun attempt running started => by cases started
  log := fun entry member => by cases member
  closures := fun closure member => by cases member

end Fork

section Fidelity

variable {δ : Type} {ctx : Context} {body : Body δ}

/-- The call was answered by the position, not by an interruption. -/
def Answered (entry : Entry δ) : Prop := entry.row.isSome = true ∨ entry.interrupted = false

instance (entry : Entry δ) : Decidable (Answered entry) := inferInstanceAs (Decidable (_ ∨ _))

/-- Below the start, the fork's executions make the calls of the original's and get their results; where
the original has a row they find it, and run no closure. -/
structure Resumes (start : Int) (w : String) (original fork : System δ) : Prop where
  results : ∀ first ∈ original.log, ∀ again ∈ fork.log, first.seq = again.seq → first.seq < start →
    Answered first → Answered again → again.op = first.op ∧ again.result = first.result
  found : ∀ again ∈ fork.log, again.seq < start → ∀ row, original.store.steps.get (w, again.seq) = some row →
    again.found = some row
  closures : ∀ closure ∈ fork.closures, closure.seq < start → original.store.steps.get (w, closure.seq) = none

/-- Two results at one position of a history are the same. -/
theorem results_agree {canon before before' : List (Outcome δ)} {op op' : Op δ} {result result' : Outcome δ}
    (roomy : Roomy body canon) (claims : Claims body canon before op) (claims' : Claims body canon before' op')
    (same : counter body before = counter body before') (inside : before ++ [result] <+: canon)
    (inside' : before' ++ [result'] <+: canon) : op = op' ∧ result = result' := by
  have wide := width_pos op
  have wide' := width_pos op'
  obtain rfl | apart | apart := positions_apart roomy claims claims'
  · have ends := List.prefix_of_prefix_length_le inside inside' (by simp)
    have results := (List.append_inj (ends.eq_of_length (by simp)) rfl).2
    exact ⟨Option.some.inj (claims.call.symm.trans claims'.call), List.singleton_inj.mp results⟩
  · omega
  · omega

/-- Fork fidelity. A fork under an unused id, of a workflow that closed no stream, resumes what its
executions have gone through below the start. -/
theorem fork_resumes {store : Inner} (runnable : Runnable ctx.workflowId store)
    (empty : ∀ seq, store.steps.get (ctx.workflowId, seq) = none) (events : List (Event δ)) {s : System δ}
    (allowed : Runs.Along (next ctx body) (Allowed ctx (Proper ctx.workflowId)) events (System.fresh store))
    (reached : run ctx body events (System.fresh store) = s) (live : ∀ key, ¬ Closed s.store ctx.workflowId key)
    {now : DateTime} {fresh id : String} {start : Int} {opts : WorkflowOptions} {store' : Inner}
    (forked : forkWorkflow now fresh ctx.workflowId start opts s.store = (.ok id, store')) (unused : Unused id s.store)
    (later : List (Event δ))
    (allowed' : Runs.Along (next (forkOf ctx id) body) (Allowed (forkOf ctx id) (Proper id)) later
      (System.fresh store')) :
    Resumes start ctx.workflowId s (run (forkOf ctx id) body later (System.fresh store')) := by
  subst reached
  obtain ⟨enqueued, copies⟩ := forkWorkflow_ok forked unused
  obtain ⟨canon, traced⟩ := run_traced (starts_proper ctx) runnable empty allowed
  obtain ⟨part, cut⟩ := cut_exists body start canon
  have inv : Inv (forkOf ctx id) body (Proper id) (fun _ _ _ => True) part (System.fresh store') :=
    forked_inv copies traced cut live enqueued
  obtain ⟨outset, canon', longer, inv'⟩ := run_outset (starts_proper (forkOf ctx id)) inv allowed'
  have copied : ∀ {p row}, p < start →
      (run ctx body events (System.fresh store)).store.steps.get (ctx.workflowId, p) = some row →
      store'.steps.get (id, p) = some row := by
    intro p row below present
    rw [copies, if_pos below, present]
  refine ⟨?_, ?_, ?_⟩
  · intro first one again other seq below settled settled'
    obtain ⟨before, claims, here, inside⟩ := (traced.inv.log first one).part settled
    obtain ⟨before', claims', here', inside'⟩ := (inv'.log again other).part settled'
    have kept := (cut.inside traced.inv.settled.roomy inside (here ▸ below)).trans longer
    have carried : Claims body canon' before first.op :=
      { claims with within := (List.prefix_append _ _).trans kept }
    have agree := results_agree inv'.settled.roomy carried claims' (by rw [← here, ← here', seq]) kept inside'
    exact ⟨agree.1.symm, agree.2.symm⟩
  · intro again member below row present
    exact outset.entries again member row (copied below present)
  · intro closure member below
    by_contra present
    obtain ⟨row, present⟩ := Option.ne_none_iff_exists'.mp present
    have vacant := outset.closures closure member
    cases vacant.symm.trans (copied below present)

def chargeAndShip : Body Value
  | [] => some (.step "charge" .value)
  | [_] => some (.step "ship" .value)
  | _ => none

def shipped : List (Event Value) :=
  execution [List.replicate 7 (returning (.bool true)), List.replicate 7 (returning (.bool true))]

/-- The steps of the fork, which would return something else. -/
def shippedAgain : List (Event Value) :=
  execution [List.replicate 7 (returning (.bool false)), List.replicate 7 (returning (.bool false))]

def forkedFrom (start : Int) (s : Inner) : Inner := (forkWorkflow 1 "f" "w" start {} s).2

theorem fork_resumes_shipped :
    ((run (forkOf .plain "f") chargeAndShip shippedAgain
        (System.fresh (forkedFrom 1 (run .plain chargeAndShip shipped (System.fresh stored)).store))).log.map
      fun entry => (entry.seq, entry.found.isSome, entry.result)) =
        [(0, true, .ok (.value (.bool true))), (1, false, .ok (.value (.bool false)))] ∧
    Resumes 1 "w" (run .plain chargeAndShip shipped (System.fresh stored))
      (run (forkOf .plain "f") chargeAndShip shippedAgain
        (System.fresh (forkedFrom 1 (run .plain chargeAndShip shipped (System.fresh stored)).store))) := by
  have live : (run .plain chargeAndShip shipped (System.fresh stored)).store.streams.toList = [] := by decide
  have vacant : ∀ key, ¬ Closed (run .plain chargeAndShip shipped (System.fresh stored)).store "w" key := by
    intro key shut
    cases stream : (run .plain chargeAndShip shipped (System.fresh stored)).store.streams.get ("w", key) with
    | none => simp [Closed, stream, closed] at shut
    | some entries =>
      have member := (Table.mem_toList ..).mpr stream
      rw [live] at member
      cases member
  have forked : forkWorkflow 1 "f" "w" 1 {} (run .plain chargeAndShip shipped (System.fresh stored)).store =
      (.ok "f", forkedFrom 1 (run .plain chargeAndShip shipped (System.fresh stored)).store) := rfl
  exact ⟨by decide, fork_resumes (by decide) stored_empty shipped (by decide) rfl vacant forked (by decide)
    shippedAgain (by decide)⟩

/-- A body that writes to a stream it has closed. -/
def closing : Body Value
  | [] => some (.closeStream "out")
  | [_] => some (.writeStream "out" (.ok .null))
  | _ => none

def closedOnce : List (Event Value) := execution [List.replicate 7 {}, List.replicate 7 {}]

/-- The write that a closed stream refuses goes through in a fork, whose own stream is open. -/
theorem fork_writes_refused :
    ((run .plain closing closedOnce (System.fresh stored)).log.map fun entry => (entry.seq, entry.result)) =
      [(0, .ok .unit), (1, .error (.ofMessage "stream `out` is already closed"))] ∧
    ((run (forkOf .plain "f") closing closedOnce (System.fresh
        (forkedFrom 2 (run .plain closing closedOnce (System.fresh stored)).store))).log.map
      fun entry => (entry.seq, entry.result)) = [(0, .ok .unit), (1, .ok .unit)] := by
  decide

end Fidelity

end Durare.Forks

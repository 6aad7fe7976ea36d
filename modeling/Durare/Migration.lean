import Durare.Executions

/-! A patch inserted into a body whose executions have already left a history. The patch decides by the
single row at its position; where that row tells the two cases apart, the old rows keep serving the old
code and a workflow that has not come this far takes the new one. -/
namespace Durare.Migration

open Interaction Execution Course
open Memory hiding Answer
open Replay (on)
open Verify (Durable Answer Move Moved Body Visit)

section Patched

variable {δ : Type}

/-- How far the patched body has come: on the old path, with the patch of this point answered or not
yet; on the new path; or the patch itself failed. -/
inductive Stage (δ : Type) where
  | old (history : List (Moved δ)) (asked : Bool)
  | fresh (history since : List (Moved δ))
  | failed (error : Error)

variable (old : Body δ) (point : List (Moved δ) → Bool) (name : String) (new : List (Moved δ) → Body δ)

def Stage.due : Stage δ → Bool
  | .old history asked => point history && !asked
  | _ => false

def Stage.after (stage : Stage δ) (moved : Moved δ) : Stage δ :=
  match stage with
  | .old history asked =>
    if point history && !asked then
      match moved with
      | .answered (.ok (.patched true _)) => .fresh history []
      | .answered (.error e) => .failed e
      | _ => .old history true
    else .old (history ++ [moved]) false
  | .fresh history since => .fresh history (since ++ [moved])
  | .failed e => .failed e

def stage (moved : List (Moved δ)) : Stage δ := moved.foldl (Stage.after point) (.old [] false)

/-- `if ctx.patch(name).await? { new } else { old }` wherever the old code comes to `point`. -/
def patched : Body δ where
  next moved :=
    match stage point moved with
    | .old history asked => if point history && !asked then some (.call (.patch name)) else old.next history
    | .fresh history since => (new history).next since
    | .failed _ => none
  ending moved :=
    match stage point moved with
    | .old history _ => old.ending history
    | .fresh history since => (new history).ending since
    | .failed e => .returned (.error e)

/-- The row at the position tells whether the old code went past it: it is another call's, or there is
none there and none later. -/
def Decisive (left : Inner) (w : String) (seq : Int) (name : String) : Prop :=
  match left.steps.get (w, seq) with
  | some row => row.name ≠ marker name
  | none => ∀ entry ∈ left.steps.toList, entry.1.1 = w → entry.1.2 < seq

instance (left : Inner) (w : String) (seq : Int) (name : String) : Decidable (Decisive left w seq name) := by
  unfold Decisive
  split <;> infer_instance

/-- The inserted patch comes next, at a position that does not tell, or where the old code itself has
it deprecated. -/
def Undecided (w : String) (left : Inner) (trace : List (Visit δ)) : Prop :=
  (stage point (trace.map Visit.moved)).due point = true ∧
    ¬ (Decisive left w (counter trace) name ∧ Undeprecated trace (counter trace) (.patch name))

instance (w : String) (left : Inner) : DecidablePred (Undecided point name w left) :=
  fun _ => inferInstanceAs (Decidable (_ ∧ ¬ _))

end Patched

section Kept

variable {δ : Type} (ctx : Context) (point : List (Moved δ) → Bool) (name : String)

/-- The gate turns the call away: another name, or an ordinary outcome where a child start looks for its
link. -/
def Diverges (op : Op δ) (row : StepRow) : Prop :=
  row.name ≠ op.name ∨ Verify.Op.starts op = true ∧ row.childWorkflowId = none ∧ row.error = none

/-- The call records at its own position. -/
def records : Durable δ → Bool
  | .op _ | .patch _ => true
  | _ => false

/-- The old code left a row at the position or after it. -/
def Past (left : Inner) (w : String) (seq : Int) : Prop := ∃ p row, seq ≤ p ∧ left.steps.get (w, p) = some row

/-- The executions of a patched body over the history that the old body left: `first` are the calls the
old executions made. -/
structure Migrates (left : Inner) (first : List (Entry δ)) (s : System δ) : Prop where
  expected : ∀ entry ∈ s.log, ∀ op row, entry.call = .op op → entry.found = some row → ¬ Diverges op row
  told : ∀ entry ∈ s.log, ∀ e, entry.interrupted = false → entry.outcome = .error e → e.code = .unexpectedStep →
    ∃ row message info, s.store.steps.get (ctx.workflowId, entry.seq) = some row ∧
      stepRowOutcome ctx.lib row = .failure message info ∧ tryFromParts ctx.lib message info = .ok e
  old : ∀ entry ∈ s.log, entry.interrupted = false → (stage point (entry.trace.map Visit.moved)).due point = true →
    Past left ctx.workflowId entry.seq → entry.outcome = .ok (.patched false entry.seq)
  new : ∀ entry ∈ s.log, entry.interrupted = false → (stage point (entry.trace.map Visit.moved)).due point = true →
    ¬ Past left ctx.workflowId entry.seq → entry.outcome = .ok (.patched true (nextSeq entry.seq)) ∧
      ∃ row, s.store.steps.get (ctx.workflowId, entry.seq) = some row ∧ row.name = marker name
  serves : ∀ early ∈ first, ∀ entry ∈ s.log, early.interrupted = false → entry.interrupted = false →
    records early.call = true → records entry.call = true →
    (stage point (entry.trace.map Visit.moved)).due point = false → entry.seq = early.seq → early.row.isSome = true →
    entry.call = early.call ∧ entry.outcome = early.outcome

/-- An inserted patch returns after a few asks, whatever the others do meanwhile. -/
def Prompt (body : Body δ) (allowed : System δ → Event δ → Prop) (s : System δ) : Prop :=
  ∀ attempt rounds events, s.attempt = some attempt → attempt.running = none → s.latch = none →
    (stage point (attempt.trace.map Visit.moved)).due point = true →
    (∀ event ∈ events, event.goesOn = true) → 3 < events.countP Event.isTick →
    Runs.Along (next ctx body) allowed (.move rounds :: events) s →
    ∃ entry ∈ (run ctx body (.move rounds :: events) s).log, entry.trace = attempt.trace ∧ entry.interrupted = false

end Kept

section Weaving

variable {δ : Type} {ctx : Context} {old : Body δ} {point : List (Moved δ) → Bool} {name : String}
  {new : List (Moved δ) → Body δ} {fact : Fact δ} {nothing left store : Inner}

theorem stage_snoc (moved : List (Moved δ)) (last : Moved δ) :
    stage point (moved ++ [last]) = (stage point moved).after point last := by
  simp [stage, List.foldl_append]

theorem stage_free {history : List (Moved δ)} {asked : Bool} {moved : List (Moved δ)}
    (here : stage point moved = .old history asked) (free : (stage point moved).due point = false) (last : Moved δ) :
    stage point (moved ++ [last]) = .old (history ++ [last]) false := by
  rw [here, Stage.due] at free
  rw [stage_snoc, here]
  simp only [Stage.after, free]
  rfl

theorem stage_passed {history : List (Moved δ)} {asked : Bool} {moved : List (Moved δ)} (seq : Int)
    (here : stage point moved = .old history asked) (due : (stage point moved).due point = true) :
    stage point (moved ++ [.answered (.ok (.patched false seq))]) = .old history true := by
  rw [here, Stage.due] at due
  rw [stage_snoc, here]
  simp only [Stage.after, due, if_true]

theorem next_free {history : List (Moved δ)} {asked : Bool} {moved : List (Moved δ)}
    (here : stage point moved = .old history asked) (free : (stage point moved).due point = false) :
    (patched old point name new).next moved = old.next history := by
  rw [here, Stage.due] at free
  simp only [patched, here, free]
  rfl

theorem next_due {moved : List (Moved δ)} (due : (stage point moved).due point = true) :
    (patched old point name new).next moved = some (.call (.patch name)) := by
  cases here : stage point moved with
  | old history asked =>
    rw [here, Stage.due] at due
    simp only [patched, here, due, if_true]
  | fresh | failed =>
    rw [here] at due
    cases due

variable (ctx point name left) in
/-- A course of the old code, and the same course with the patches that came upon old rows. -/
inductive Woven : List (Visit δ) → List (Visit δ) → Prop where
  | start : Woven [] []
  | kept {before lifted : List (Visit δ)} (visit : Visit δ) (woven : Woven before lifted)
      (free : (stage point (lifted.map Visit.moved)).due point = false) : Woven (before ++ [visit]) (lifted ++ [visit])
  | passed {before lifted : List (Visit δ)} (row : StepRow) (woven : Woven before lifted)
      (due : (stage point (lifted.map Visit.moved)).due point = true) (room : counter lifted + 2 < 2 ^ 31)
      (undeprecated : Undeprecated lifted (counter lifted) (.patch name))
      (present : left.steps.get (ctx.workflowId, counter lifted) = some row) (other : row.name ≠ marker name) :
    Woven before (lifted ++ [.answered (counter lifted) (.patch name) (.ok (.patched false (counter lifted)))])

variable {before lifted : List (Visit δ)} (woven : Woven ctx point name left before lifted)
include woven

theorem Woven.stage : ∃ asked, stage point (lifted.map Visit.moved) = .old (before.map Visit.moved) asked := by
  induction woven with
  | start => exact ⟨false, rfl⟩
  | kept visit woven free ih =>
    obtain ⟨asked, here⟩ := ih
    refine ⟨false, ?_⟩
    simp only [List.map_append, List.map_cons, List.map_nil]
    exact stage_free here free visit.moved
  | @passed _ lifted row woven due room undeprecated present other ih =>
    obtain ⟨asked, here⟩ := ih
    refine ⟨true, ?_⟩
    simp only [List.map_append, List.map_cons, List.map_nil, Visit.moved]
    exact stage_passed (counter lifted) here due

theorem Woven.counter : counter lifted = counter before := by
  induction woven with
  | start => rfl
  | kept visit woven free ih => rw [counter_snoc, counter_snoc, ih]
  | passed row woven due room undeprecated present other ih => rw [counter_snoc, after, Verify.advanced, ih]

theorem Woven.next (free : (Migration.stage point (lifted.map Visit.moved)).due point = false) :
    (patched old point name new).next (lifted.map Visit.moved) = old.next (before.map Visit.moved) := by
  obtain ⟨asked, here⟩ := woven.stage
  exact next_free here free

/-- Both courses hold the same deprecations. -/
theorem Woven.undeprecated {seq : Int} {durable : Durable δ} :
    Undeprecated lifted seq durable ↔ Undeprecated before seq durable := by
  induction woven with
  | start => exact Iff.rfl
  | kept visit woven free ih =>
    simp only [Undeprecated, List.mem_append, List.mem_singleton, or_imp, forall_and, forall_eq] at ih ⊢
    rw [ih]
  | passed row woven due room undeprecated present other ih =>
    simp only [Undeprecated, List.mem_append, List.mem_singleton, or_imp, forall_and, forall_eq] at ih ⊢
    rw [ih]
    simp [deprecates]

theorem Woven.claims {durable : Durable δ} (free : (Migration.stage point (lifted.map Visit.moved)).due point = false) :
    Claims (patched old point name new) (Undecided point name ctx.workflowId left) lifted durable ↔
      Claims old (fun _ => False) before durable := by
  have next : (patched old point name new).next (lifted.map Visit.moved) = old.next (before.map Visit.moved) :=
    woven.next free
  constructor
  · intro claims
    refine ⟨next ▸ claims.next, claims.accepted, woven.counter ▸ claims.room, id, claims.onSite, ?_⟩
    rw [← woven.counter]
    exact woven.undeprecated.mp claims.undeprecated
  · intro claims
    refine ⟨next.trans claims.next, claims.accepted, woven.counter ▸ claims.room, ?_, claims.onSite, ?_⟩
    · intro undecided
      rw [undecided.1] at free
      cases free
    · rw [woven.counter]
      exact woven.undeprecated.mpr claims.undeprecated

omit woven in
/-- Where nothing stood at the outset, every patch of the old code has its own marker. -/
theorem prior_mono {seq : Int} {durable : Durable δ} (empty : ∀ p, nothing.steps.get (ctx.workflowId, p) = none)
    (prior : Prior ctx nothing seq store durable) : Prior ctx left seq store durable := by
  cases durable with
  | patch other =>
    intro row present
    obtain own | there := prior row present
    · exact .inl own
    · rw [empty] at there
      cases there
  | op | deprecatePatch | transactionWith | transactionOn => exact prior

theorem Woven.visit {visit : Visit δ} (empty : ∀ p, nothing.steps.get (ctx.workflowId, p) = none)
    (free : (Migration.stage point (lifted.map Visit.moved)).due point = false)
    (kept : Kept ctx old fact nothing (fun _ => False) store before visit) :
    Kept ctx (patched old point name new) fact left (Undecided point name ctx.workflowId left) store lifted visit := by
  have next : (patched old point name new).next (lifted.map Visit.moved) = old.next (before.map Visit.moved) :=
    woven.next free
  cases kept with
  | dropped durable made room => exact .dropped durable (next.trans made) (woven.counter ▸ room)
  | refused durable e made refusal room => exact .refused durable e (next.trans made) refusal (woven.counter ▸ room)
  | answered durable outcome claims prior answers =>
    have kept : Kept ctx (patched old point name new) fact left (Undecided point name ctx.workflowId left) store lifted
        (.answered (Course.counter lifted) durable outcome) := by
      refine .answered durable outcome ((woven.claims free).mpr claims) ?_ ?_
      · rw [woven.counter]
        exact prior_mono empty prior
      · rw [woven.counter]
        exact answers
    rw [woven.counter] at kept
    exact kept

omit woven in
theorem decisive_some {w : String} {seq : Int} {row : StepRow} (decisive : Decisive left w seq name)
    (present : left.steps.get (w, seq) = some row) : row.name ≠ marker name := by
  rw [Decisive, present] at decisive
  exact decisive

omit woven in
theorem decisive_none {w : String} {seq : Int} (decisive : Decisive left w seq name)
    (vacant : left.steps.get (w, seq) = none) : ∀ p, seq ≤ p → left.steps.get (w, p) = none := by
  intro p far
  rw [Decisive, vacant] at decisive
  by_contra present
  obtain ⟨row, present⟩ := Option.ne_none_iff_exists'.mp present
  have near : p < seq := decisive ((w, p), row) ((Table.mem_toList ..).mpr present) rfl
  omega

theorem Woven.charted (empty : ∀ p, nothing.steps.get (ctx.workflowId, p) = none)
    (charted : Charted ctx old fact nothing (fun _ => False) left before) :
    Charted ctx (patched old point name new) fact left (Undecided point name ctx.workflowId left) left lifted := by
  induction woven with
  | start =>
    intro before visit after here
    simp at here
  | @kept before lifted visit woven free ih =>
    exact (ih charted.before).extend (woven.visit empty free (charted before visit [] rfl))
  | @passed before lifted row woven due room undeprecated present other ih =>
    refine (ih charted).extend (.answered _ _ ⟨next_due due, rfl, room, ?_, rfl, undeprecated⟩ ?_ ⟨row, present, ?_⟩)
    · intro undecided
      refine undecided.2 ⟨?_, undeprecated⟩
      rw [Decisive, present]
      exact other
    · exact fun row there => .inr there
    · rw [if_neg other]

/-- The patch is passed, or the patched body cannot go on over the old rows. -/
theorem Woven.settle (room : ∀ row, left.steps.get (ctx.workflowId, Course.counter before) = some row →
      Course.counter before + 2 < 2 ^ 31) :
    (∃ lifted', Woven ctx point name left before lifted' ∧
        (Migration.stage point (lifted'.map Visit.moved)).due point = false) ∨
      ((Migration.stage point (lifted.map Visit.moved)).due point = true ∧
        (Undecided point name ctx.workflowId left lifted ∨
          ∀ p, Course.counter lifted ≤ p → left.steps.get (ctx.workflowId, p) = none)) := by
  by_cases due : (Migration.stage point (lifted.map Visit.moved)).due point = true
  · by_cases undecided : Undecided point name ctx.workflowId left lifted
    · exact .inr ⟨due, .inl undecided⟩
    · obtain ⟨decisive, undeprecated⟩ := not_not.mp fun unclear => undecided ⟨due, unclear⟩
      cases present : left.steps.get (ctx.workflowId, Course.counter lifted) with
      | none => exact .inr ⟨due, .inr (decisive_none decisive present)⟩
      | some row =>
        refine .inl ⟨_, .passed row woven due ?_ undeprecated present (decisive_some decisive present), ?_⟩
        · rw [woven.counter] at present ⊢
          exact room row present
        · obtain ⟨asked, here⟩ := woven.stage
          simp only [List.map_append, List.map_cons, List.map_nil, Visit.moved]
          rw [stage_passed _ here due]
          simp [Stage.due]
  · exact .inl ⟨lifted, woven, by simpa using due⟩

/-- The old course carried as far as the patched body follows it. -/
theorem Woven.carry (rest : List (Visit δ))
    (charted : Charted ctx old fact nothing (fun _ => False) left (before ++ rest))
    (frontier : Frontier ctx old nothing (fun _ => False) left (before ++ rest)) :
    ∃ before' lifted', before' <+: before ++ rest ∧ Woven ctx point name left before' lifted' ∧
      ((before' = before ++ rest ∧ (Migration.stage point (lifted'.map Visit.moved)).due point = false) ∨
        ((Migration.stage point (lifted'.map Visit.moved)).due point = true ∧
          (Undecided point name ctx.workflowId left lifted' ∨
            ∀ p, Course.counter lifted' ≤ p → left.steps.get (ctx.workflowId, p) = none))) := by
  induction rest generalizing before lifted with
  | nil =>
    simp only [List.append_nil] at charted frontier ⊢
    have room : ∀ row, left.steps.get (ctx.workflowId, Course.counter before) = some row →
        Course.counter before + 2 < 2 ^ 31 := by
      intro row present
      obtain ⟨durable, claims, -⟩ := frontier.beyond id _ row (le_refl _) present
      exact claims.room
    obtain ⟨lifted', woven', free⟩ | stops := woven.settle room
    · exact ⟨before, lifted', List.prefix_refl _, woven', .inl ⟨rfl, free⟩⟩
    · exact ⟨before, lifted, List.prefix_refl _, woven, .inr stops⟩
  | cons visit rest ih =>
    have kept := charted before visit rest rfl
    have room : Course.counter before + 2 < 2 ^ 31 := by
      cases kept with
      | dropped _ _ room => exact room
      | refused _ _ _ _ room => exact room
      | answered _ _ claims => exact claims.room
    obtain ⟨lifted', woven', free⟩ | stops := woven.settle fun _ _ => room
    · have shifted : before ++ visit :: rest = before ++ [visit] ++ rest := by simp
      rw [shifted] at charted frontier ⊢
      exact ih (.kept visit woven' free) charted frontier
    · exact ⟨before, lifted, List.prefix_append _ _, woven, .inr stops⟩

omit woven in
/-- A visit of the woven course that is no inserted patch is the old course's. -/
theorem Woven.split {trace rest : List (Visit δ)} {visit : Visit δ} {whole : List (Visit δ)}
    (woven : Woven ctx point name left before whole) (here : whole = trace ++ visit :: rest)
    (free : (Migration.stage point (trace.map Visit.moved)).due point = false) :
    ∃ earlier, earlier ++ [visit] <+: before ∧ Woven ctx point name left earlier trace := by
  induction woven generalizing rest with
  | start => simp at here
  | @kept before lifted last woven _ ih =>
    induction rest using List.reverseRecOn with
    | nil =>
      obtain ⟨rfl, same⟩ := List.append_inj' here rfl
      cases same
      exact ⟨before, List.prefix_refl _, woven⟩
    | append_singleton rest end_ _ =>
      have shifted : lifted ++ [last] = (trace ++ visit :: rest) ++ [end_] := by simpa using here
      obtain ⟨earlier, inside, woven'⟩ := ih (List.append_inj' shifted rfl).1
      exact ⟨earlier, inside.trans (List.prefix_append _ _), woven'⟩
  | @passed before lifted row woven due _ _ _ _ ih =>
    induction rest using List.reverseRecOn with
    | nil =>
      obtain ⟨rfl, -⟩ := List.append_inj' here rfl
      rw [due] at free
      cases free
    | append_singleton rest end_ _ =>
      have shifted := here
      rw [← List.cons_append, ← List.append_assoc] at shifted
      exact ih (List.append_inj' shifted rfl).1

end Weaving

section Runs

variable {δ : Type} {ctx : Context} {old : Body δ} {point : List (Moved δ) → Bool} {name : String}
  {new : List (Moved δ) → Body δ} {proper : Input δ → Inner → Ask → Prop} {fact : Fact δ} {nothing : Inner}
  {canon : List (Visit δ)} {s : System δ}

variable (point name new) in
/-- What the old executions left is where the patched body starts. -/
theorem migrated_inv (empty : ∀ p, nothing.steps.get (ctx.workflowId, p) = none)
    (inv : Inv ctx old proper fact nothing (fun _ => False) canon s) :
    ∃ before lifted, before <+: canon ∧ Woven ctx point name s.store before lifted ∧
      (before = canon ∨ (stage point (lifted.map Visit.moved)).due point = true ∧
        (Undecided point name ctx.workflowId s.store lifted ∨
          ∀ p, counter lifted ≤ p → s.store.steps.get (ctx.workflowId, p) = none)) ∧
      Inv ctx (patched old point name new) proper fact s.store (Undecided point name ctx.workflowId s.store) lifted
        (System.idle s.store) := by
  have bare : Woven ctx point name s.store [] [] := .start
  obtain ⟨before, lifted, within, woven, stops⟩ := bare.carry canon inv.charted inv.frontier
  rw [List.nil_append] at within stops
  have charted : Charted ctx (patched old point name new) fact s.store (Undecided point name ctx.workflowId s.store)
      s.store lifted := woven.charted empty (inv.charted.within within)
  have frontier : Frontier ctx (patched old point name new) s.store (Undecided point name ctx.workflowId s.store)
      s.store lifted := by
    obtain ⟨rfl, free⟩ | ⟨due, undecided | clear⟩ := stops
    · -- the old code goes on as it would have
      constructor
      · intro durable claims
        have prior := inv.frontier.prior durable ((woven.claims free).mp claims)
        rw [woven.counter]
        exact prior_mono empty prior
      · intro _ p row far present
        rw [woven.counter] at far ⊢
        obtain ⟨durable, claims, belongs⟩ := inv.frontier.beyond id p row far present
        exact ⟨durable, (woven.claims free).mpr claims, belongs⟩
    · exact ⟨fun durable claims => absurd undecided claims.unstuck, fun unstuck => absurd undecided unstuck⟩
    · exact .clear charted.low clear
  refine ⟨before, lifted, within, woven, stops.imp_left (·.1), ?_⟩
  exact
    { runnable := inv.runnable
      charted := charted
      frontier := frontier
      older := fun _ _ there => there
      idle := fun attempt started => by cases started
      inFlight := fun attempt running started => by cases started
      log := fun entry member => by cases member
      rows := fun entry member => by cases member }

/-- An operation is told of a non-deterministic body by its own record only. -/
theorem replay_unexpected {seq : Int} {op : Op δ} {row : StepRow} {e : Error} (linked : Linked op row)
    (failed : replay ctx seq op row = .error e) (unexpected : e.code = .unexpectedStep) :
    ∃ message info, stepRowOutcome ctx.lib row = .failure message info ∧ tryFromParts ctx.lib message info = .ok e := by
  cases op with
  | startWorkflow name input opts =>
    simp only [replay] at failed
    split at failed
    · cases failed
    next unlinked =>
      split at failed
      next value read =>
        -- a start that is no link is a rejection, which cannot be read as a value
        obtain link | rejected := linked rfl
        · rw [unlinked] at link
          cases link
        · obtain ⟨text, rejected⟩ := Option.isSome_iff_exists.mp rejected
          rw [stepRowOutcome, rejected] at read
          simp only [recorded] at read
          split at read <;> cases read
      next e' read =>
        cases failed
        exact Verify.recorded_unexpected read unexpected
  | _ => exact Verify.recorded_unexpected (Verify.map_error failed) unexpected

theorem refusal_expected {op : Op δ} {store : Inner} {e : Error} (refused : refusal ctx op store = some e) :
    e.code ≠ .unexpectedStep := by
  cases op with
  | writeStream key value | closeStream key =>
    simp only [refusal] at refused
    split at refused
    · cases refused
      exact fun same => by cases same
    · cases refused
  | startWorkflow name input opts =>
    simp only [refusal] at refused
    split at refused
    next e' invalid =>
      cases refused
      intro same
      rw [Verify.arguments_code invalid] at same
      cases same
    · cases refused
  | _ => cases refused

theorem answers_expected {seq : Int} {durable : Durable δ} {store left : Inner} {e : Error}
    (onSite : onSource durable = false)
    (prior : Prior ctx left seq store durable) (answers : Answers ctx fact seq store (.error e) durable)
    (unexpected : e.code = .unexpectedStep) :
    ∃ row message info, store.steps.get (ctx.workflowId, seq) = some row ∧
      stepRowOutcome ctx.lib row = .failure message info ∧ tryFromParts ctx.lib message info = .ok e := by
  cases durable with
  | op op =>
    obtain ⟨result, same, settles, -⟩ := answers
    have failed : result = .error e := Verify.map_error same.symm
    rcases settles with ⟨row, present, named, replayed⟩ | ⟨vacant, e', refused, same⟩
    · rw [failed] at replayed
      obtain ⟨message, info, outcome, read⟩ := replay_unexpected (prior.2 row present) replayed.symm unexpected
      exact ⟨row, message, info, present, outcome, read⟩
    · rw [failed] at same
      cases same
      exact absurd unexpected (refusal_expected refused)
  | patch name =>
    obtain ⟨row, present, same⟩ := answers
    cases same
  | deprecatePatch name => cases answers
  | transactionWith name codec =>
    cases answers
    cases unexpected
  | transactionOn => cases onSite

/-- Where nothing stood at the outset, a patch takes its position too. -/
theorem fresh_after {seq : Int} {store : Inner} {durable : Durable δ} {outcome : Except Error (Answer δ)}
    (empty : ∀ p, nothing.steps.get (ctx.workflowId, p) = none) (low : 0 ≤ seq) (room : seq + 2 < 2 ^ 31)
    (onSite : onSource durable = false) (prior : Prior ctx nothing seq store durable)
    (answers : Answers ctx fact seq store outcome durable) :
    seq + reach durable ≤ Verify.advanced (durable.claim seq) outcome := by
  by_cases patch : ∃ name, durable = .patch name
  · obtain ⟨name, rfl⟩ := patch
    obtain ⟨row, present, rfl⟩ := answers
    obtain own | there := prior row present
    · rw [if_pos own, Verify.advanced, reach, Replay.nextSeq_eq low room]
    · rw [empty] at there
      cases there
  · refine (answered_after low room onSite answers).2 ?_
    intro name same
    exact absurd ⟨name, same⟩ patch

theorem fresh_precedes {store : Inner} {stuck : List (Visit δ) → Prop} {trace results : List (Visit δ)}
    {durable : Durable δ} (empty : ∀ p, nothing.steps.get (ctx.workflowId, p) = none)
    (charted : Charted ctx old fact nothing stuck store canon) (claims : Claims old stuck trace durable)
    (within : trace <+: canon) (later : results <+: canon) (shorter : trace.length < results.length) :
    counter trace + reach durable ≤ counter results := by
  refine charted.passes claims within later shorter ?_
  intro outcome prior answers
  exact fresh_after empty (charted.within within).low claims.room claims.onSite prior answers

theorem records_reach {durable : Durable δ} (recorded : records durable = true) : 1 ≤ reach durable := by
  cases durable with
  | op op => exact Replay.width_pos op
  | patch => exact le_refl _
  | deprecatePatch | transactionWith | transactionOn => cases recorded

/-- The old executions, the course they went through, and the course of the patched body over their rows. -/
structure Before (ctx : Context) (old : Body δ) (point : List (Moved δ) → Bool) (name : String)
    (proper : Input δ → Inner → Ask → Prop) (fact : Fact δ) (nothing : Inner) (s : System δ)
    (canon before lifted : List (Visit δ)) : Prop where
  empty : ∀ p, nothing.steps.get (ctx.workflowId, p) = none
  inv : Inv ctx old proper fact nothing (fun _ => False) canon s
  within : before <+: canon
  woven : Woven ctx point name s.store before lifted
  stops : before = canon ∨ (stage point (lifted.map Visit.moved)).due point = true ∧
    (Undecided point name ctx.workflowId s.store lifted ∨
      ∀ p, counter lifted ≤ p → s.store.steps.get (ctx.workflowId, p) = none)

section Migrated

variable {past : System δ} {canon before lifted canon' : List (Visit δ)} {entry early : Entry δ}
  (was : Before ctx old point name proper fact nothing past canon before lifted) (further : lifted <+: canon')
  (inv : Inv ctx (patched old point name new) proper fact past.store (Undecided point name ctx.workflowId past.store) canon' s)

include inv in
/-- A patch that came next was decided by a telling row. -/
theorem inserted (member : entry ∈ s.log) (due : (stage point (entry.trace.map Visit.moved)).due point = true) :
    entry.call = .patch name ∧ Decisive past.store ctx.workflowId entry.seq name := by
  have logged := inv.log entry member
  have called := logged.claims.next
  rw [next_due due] at called
  injection called with called
  injection called with called
  refine ⟨called.symm, ?_⟩
  by_contra unclear
  rw [logged.seq] at unclear
  exact logged.claims.unstuck ⟨due, fun clear => unclear clear.1⟩

include inv in
theorem inserted_answer (member : entry ∈ s.log) (settled : entry.interrupted = false)
    (due : (stage point (entry.trace.map Visit.moved)).due point = true) :
    ∃ row, s.store.steps.get (ctx.workflowId, entry.seq) = some row ∧
      (row.name = marker name ∨ past.store.steps.get (ctx.workflowId, entry.seq) = some row) ∧
      entry.outcome = .ok (if row.name = marker name then .patched true (nextSeq entry.seq) else .patched false entry.seq) := by
  obtain ⟨prior, answers⟩ := inv.settled member settled
  rw [(inserted inv member due).1] at prior answers
  obtain ⟨row, present, outcome⟩ := answers
  exact ⟨row, present, prior row present, outcome⟩

include inv in
theorem passes_old (member : entry ∈ s.log) (settled : entry.interrupted = false)
    (due : (stage point (entry.trace.map Visit.moved)).due point = true) (gone : Past past.store ctx.workflowId entry.seq) :
    entry.outcome = .ok (.patched false entry.seq) := by
  obtain ⟨row, present, -, outcome⟩ := inserted_answer inv member settled due
  obtain ⟨-, decisive⟩ := inserted inv member due
  cases there : past.store.steps.get (ctx.workflowId, entry.seq) with
  | none =>
    obtain ⟨p, row', far, present'⟩ := gone
    rw [decisive_none decisive there p far] at present'
    cases present'
  | some row' =>
    have same := inv.older _ _ there
    rw [present] at same
    cases same
    rw [outcome, if_neg (decisive_some decisive there)]

include inv in
theorem enters_new (member : entry ∈ s.log) (settled : entry.interrupted = false)
    (due : (stage point (entry.trace.map Visit.moved)).due point = true) (fresh : ¬ Past past.store ctx.workflowId entry.seq) :
    entry.outcome = .ok (.patched true (nextSeq entry.seq)) ∧
      ∃ row, s.store.steps.get (ctx.workflowId, entry.seq) = some row ∧ row.name = marker name := by
  obtain ⟨row, present, own | there, outcome⟩ := inserted_answer inv member settled due
  · rw [if_pos own] at outcome
    exact ⟨outcome, row, present, own⟩
  · exact absurd ⟨_, row, le_refl _, there⟩ fresh

/-- Of two recorded calls of one course, both at one position, there is only one. -/
theorem fresh_unique {store : Inner} {stuck : List (Visit δ) → Prop} {one other : List (Visit δ)}
    {first second : Durable δ}
    (empty : ∀ p, nothing.steps.get (ctx.workflowId, p) = none) (charted : Charted ctx old fact nothing stuck store canon)
    (claims : Claims old stuck one first) (claims' : Claims old stuck other second) (inside : one <+: canon)
    (inside' : other <+: canon) (recorded : 1 ≤ reach first) (recorded' : 1 ≤ reach second)
    (same : counter one = counter other) : one = other := by
  rcases lt_trichotomy one.length other.length with shorter | equal | longer
  · have later := fresh_precedes empty charted claims inside inside' shorter
    omega
  · exact (List.prefix_of_prefix_length_le inside inside' equal.le).eq_of_length equal
  · have later := fresh_precedes empty charted claims' inside' inside longer
    omega

include was inv in
/-- No call that the patched body makes past the old course stands where the old code recorded one. -/
theorem beyond_old (member : entry ∈ s.log) (first : early ∈ past.log) (finished : early.interrupted = false)
    (recorded : records early.call = true) (free : (stage point (entry.trace.map Visit.moved)).due point = false)
    (same : entry.seq = early.seq) (left : early.row.isSome = true) (far : lifted <+: entry.trace) : False := by
  have logged := inv.log entry member
  have logged' := was.inv.log early first
  have onward : counter lifted ≤ entry.seq := by
    obtain ⟨rest, whole⟩ := far
    rw [logged.seq, ← whole]
    exact (inv.charted.within (whole ▸ logged.within)).counter_le
  obtain ⟨row, present⟩ := Option.isSome_iff_exists.mp left
  have there := was.inv.rows early first row present
  obtain rfl | ⟨due, undecided | clear⟩ := was.stops
  · -- the old code was carried to its end, and the call comes after it
    have past := fresh_precedes was.empty was.inv.charted logged'.claims logged'.within (List.prefix_refl _) (by
      have whole := (logged'.part finished).length_le
      simp only [List.length_append, List.length_singleton] at whole
      omega)
    have wide := records_reach recorded
    have counters := was.woven.counter
    have here := logged'.seq
    omega
  · -- where the row does not tell, the patched body goes no further
    obtain ⟨rest, whole⟩ := far
    cases rest with
    | nil =>
      rw [List.append_nil] at whole
      rw [whole, free] at due
      cases due
    | cons visit rest =>
      obtain ⟨rest', whole'⟩ := logged.within
      have kept := inv.charted lifted visit (rest ++ rest') (by rw [← whole', ← whole]; simp)
      have called : (patched old point name new).next (lifted.map Visit.moved) = some (.call (.patch name)) := next_due due
      cases kept with
      | dropped durable next room =>
        rw [called] at next
        cases next
      | refused durable e next refusal room =>
        rw [called] at next
        cases next
        cases refusal
      | answered durable outcome claims => exact claims.unstuck undecided
  · rw [clear _ (same ▸ onward)] at there
    cases there

include was inv further in
theorem serves_old (member : entry ∈ s.log) (first : early ∈ past.log) (settled : entry.interrupted = false)
    (finished : early.interrupted = false) (recorded : records entry.call = true) (recorded' : records early.call = true)
    (free : (stage point (entry.trace.map Visit.moved)).due point = false) (same : entry.seq = early.seq)
    (left : early.row.isSome = true) : entry.call = early.call ∧ entry.outcome = early.outcome := by
  have logged := inv.log entry member
  have logged' := was.inv.log early first
  rcases Nat.lt_or_ge entry.trace.length lifted.length with inside | outside
  · obtain ⟨rest, whole⟩ := List.prefix_of_prefix_length_le logged.within further inside.le
    cases rest with
    | nil =>
      rw [List.append_nil] at whole
      rw [whole] at inside
      omega
    | cons visit rest =>
      -- the visit stands in the old course, where the early call made it
      obtain ⟨earlier, part, woven⟩ := was.woven.split whole.symm free
      have claims := (woven.claims free).mp logged.claims
      have part' := part.trans was.within
      obtain rfl : earlier = early.trace := by
        refine fresh_unique was.empty was.inv.charted claims logged'.claims ((List.prefix_append _ _).trans part')
          logged'.within (records_reach recorded) (records_reach recorded') ?_
        rw [← woven.counter, ← logged.seq, ← logged'.seq, same]
      have here := logged.part settled
      have there := logged'.part finished
      have one : entry.trace ++ [visit] = entry.trace ++ [.answered entry.seq entry.call entry.outcome] :=
        (List.prefix_of_prefix_length_le ((show entry.trace ++ [visit] <+: lifted from ⟨rest, by simp [whole]⟩).trans further)
          here (by simp)).eq_of_length (by simp)
      have two : early.trace ++ [visit] = early.trace ++ [.answered early.seq early.call early.outcome] :=
        (List.prefix_of_prefix_length_le part' there (by simp)).eq_of_length (by simp)
      have answered := (List.append_cancel_left one).symm.trans (List.append_cancel_left two)
      simp only [List.cons.injEq, Visit.answered.injEq, and_true] at answered
      exact answered.2
  · have far := List.prefix_of_prefix_length_le further logged.within outside
    exact (beyond_old was inv member first finished recorded' free same left far).elim

include was inv further in
/-- A patched body keeps to the history that the old one left. -/
theorem Before.migrates : Migrates ctx point name past.store past.log s where
  expected := by
    intro entry member op row called found diverges
    have logged := inv.log entry member
    obtain ⟨named, linked⟩ := logged.own op row called (logged.kept row found)
    obtain other | ⟨starts, unlinked, unrejected⟩ := diverges
    · exact other named
    · simp [Linked, starts, unlinked, unrejected] at linked
  told := by
    intro entry member e settled failed unexpected
    obtain ⟨prior, answers⟩ := inv.settled member settled
    rw [failed] at answers
    exact answers_expected (inv.log entry member).claims.onSite prior answers unexpected
  old := fun entry member settled due gone => passes_old inv member settled due gone
  new := fun entry member settled due fresh => enters_new inv member settled due fresh
  serves := fun early first entry member finished settled recorded' recorded free same left =>
    serves_old was further inv member first settled finished recorded recorded' free same left

end Migrated

theorem patched_prompt (stuck : List (Visit δ) → Prop) (s : System δ) :
    Prompt ctx point (patched old point name new) (Allowed ctx (patched old point name new) proper stuck) s := by
  intro attempt rounds events started free unlatched due onward enough allowed
  have called : (patched old point name new).next (attempt.trace.map Visit.moved) = some (.call (.patch name)) := next_due due
  have moved : next ctx (patched old point name new) s (.move rounds) =
      { s with attempt := some { attempt with
        seq := attempt.seq
        running := some
          { call := .patch name
            seq := attempt.seq
            found := s.store.steps.get (ctx.workflowId, attempt.seq)
            rest := Verify.perform (on ctx attempt.rt) none rounds attempt.seq (.patch name) } } } := by
    simp only [next, started, free, called, move, unlatched]
    rfl
  have onward' := allowed.2
  rw [moved] at onward'
  have returns : Returns (Course.world ctx anyAnswer) (fun _ s => s.2 = none)
      (Verify.perform (on ctx attempt.rt) none rounds attempt.seq (.patch name) : Verify.Checked δ (Answer δ)) 3 (s.store, s.latch) :=
    patch_returns attempt.rt rounds attempt.seq name unlatched
  obtain ⟨entry, logged, trace, -, store, latch, ended, interrupted⟩ :=
    finishes events _ rfl rfl returns onward onward' enough
  refine ⟨entry, ?_, trace, ?_⟩
  · rw [Course.run, Runs.run_cons, moved]
    rw [Course.run] at logged
    rw [logged]
    exact List.mem_append_right _ List.mem_cons_self
  · have open_ : latch = none := ended
    rw [interrupted, open_]
    rfl

/-- Executions of a body that crashed anywhere, then executions of the same body with a patch inserted at
any point: where each row the patch is decided by tells whether the old code went past it, nothing
diverges, old rows serve the calls that recorded them and the rest of the workflow takes the new code. -/
theorem patch_migrates (ctx : Context) (old : Body δ) (point : List (Moved δ) → Bool) (name : String)
    (new : List (Moved δ) → Body δ) (store : Inner) (first second : List (Event δ))
    (runnable : Runnable ctx.workflowId store) (empty : ∀ p, store.steps.get (ctx.workflowId, p) = none)
    (ran : Runs.Along (next ctx old) (Allowed ctx old (Proper ctx.workflowId) fun _ => False) first (System.idle store))
    (decided : Runs.Along (next ctx (patched old point name new))
      (Allowed ctx (patched old point name new) (Proper ctx.workflowId)
        (Undecided point name ctx.workflowId (run ctx old first (System.idle store)).store))
      second (System.idle (run ctx old first (System.idle store)).store)) :
    let past := run ctx old first (System.idle store)
    let body := patched old point name new
    let s := run ctx body second (System.idle past.store)
    Migrates ctx point name past.store past.log s ∧
      Prompt ctx point body (Allowed ctx body (Proper ctx.workflowId) (Undecided point name ctx.workflowId past.store)) s := by
  obtain ⟨canon, -, inv⟩ := run_inv (starts_proper ctx) ran (idle_inv runnable empty)
  obtain ⟨before, lifted, within, woven, stops, begins⟩ :=
    migrated_inv point name new empty inv
  obtain ⟨canon', further, inv'⟩ := run_inv (starts_proper ctx) decided begins
  exact ⟨Before.migrates ⟨empty, inv, within, woven, stops⟩ further inv', patched_prompt _ _⟩

end Runs

section Runs

def execution (calls : List (List (Input Value))) : List (Event Value) :=
  .start Context.plain.rt :: calls.flatMap fun inputs => .move 1 :: inputs.map .tick

def once (op : Op Value) : Body Value where
  next
    | [] => some (.call (.op op))
    | _ => none
  ending _ := .returned (.ok .null)

def charging : Body Value := once (.step "charge" .value)

def awaiting : Body Value := once (.recv "reply" 60000000 .value)

/-- The step is recorded and the process crashes. -/
def charged : List (Event Value) := execution [List.replicate 9 (Replay.returning (.bool true))] ++ [.crash]

/-- The step's row turns the patch down, and then serves the step. -/
theorem patch_migrates_charged :
    let past := Course.run .plain charging charged (System.idle Replay.stored)
    let body := patched charging List.isEmpty "receive" fun _ => awaiting
    let s := Course.run .plain body (execution [List.replicate 5 {}, List.replicate 9 {}]) (System.idle past.store)
    s.log.map (fun entry => (entry.seq, entry.found.map (·.name), entry.outcome)) =
        [(0, some "charge", .ok (.patched false 0)), (0, some "charge", .ok (.reply (.value (.bool true))))] ∧
      Migrates .plain List.isEmpty "receive" past.store past.log s :=
  ⟨by decide, (patch_migrates .plain charging List.isEmpty "receive" (fun _ => awaiting) Replay.stored charged
    (execution [List.replicate 5 {}, List.replicate 9 {}]) (by decide) Replay.stored_empty (by decide) (by decide)).1⟩

/-- The receive has recorded its deadline at the second of its positions when the process crashes. -/
def awaited : List (Event Value) := execution [List.replicate 8 {}] ++ [.crash]

/-- The patch finds nothing at the first position of the receive and takes the new code, whose step then
meets the deadline. -/
theorem deadline_overlooked :
    let past := Course.run .plain awaiting awaited (System.idle Replay.stored)
    let body := patched awaiting List.isEmpty "charge" fun _ => charging
    let again := execution [List.replicate 5 {}, List.replicate 9 {}]
    let s := Course.run .plain body again (System.idle past.store)
    Runs.Along (next .plain awaiting) (Allowed .plain awaiting (Proper "w") fun _ => False) awaited
        (System.idle Replay.stored) ∧
      Runs.Along (next .plain body) (Allowed .plain body (Proper "w") fun _ => False) again (System.idle past.store) ∧
      s.log.map (fun entry => (entry.seq, entry.found.map (·.name), entry.outcome)) =
        [(0, none, .ok (.patched true 1)),
          (1, some "DBOS.sleep", .error (.unexpectedStep "w" 1 "charge" "DBOS.sleep"))] ∧
      Past past.store "w" 0 ∧ ¬ Migrates .plain List.isEmpty "charge" past.store past.log s := by
  intro past body again s
  have gone : Past past.store "w" 0 := by
    obtain ⟨row, there⟩ := Option.isSome_iff_exists.mp (show (past.store.steps.get ("w", 1)).isSome = true by decide)
    exact ⟨1, row, by decide, there⟩
  refine ⟨by decide, by decide, by decide, gone, ?_⟩
  intro migrates
  have taken : ∃ entry ∈ s.log, entry.seq = 0 ∧ entry.interrupted = false ∧
      (stage List.isEmpty (entry.trace.map Visit.moved)).due List.isEmpty = true ∧
      entry.outcome = .ok (.patched true 1) := by decide
  obtain ⟨entry, member, first, settled, due, outcome⟩ := taken
  have refused := migrates.old entry member settled due (first ▸ gone)
  rw [outcome] at refused
  cases refused

end Runs

end Durare.Migration

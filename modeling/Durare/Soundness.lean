import Durare.Verified

/-! A body that passed the verification of a complete history, re-run for real over the same rows. -/
namespace Durare.Verify

open Interaction

section Follow

variable {δ : Type} (ctx : Context) (h : History) (body : Body δ)

def Durable.taken (seq : Int) (durable : Durable δ) : Int :=
  match durable.accepts none with
  | .ok _ => durable.claim seq
  | .error _ => seq

/-- How far the rows carry the body: its visits, and the counter after them. -/
inductive Follows : List (Visit δ) → Int → Prop where
  | start : Follows [] 0
  | dropped {trace : List (Visit δ)} {seq : Int} {durable : Durable δ} (before : Follows trace seq)
      (next : body.next (trace.map Visit.moved) = some (.drop durable)) :
    Follows (trace ++ [.dropped durable]) (durable.taken seq)
  | refused {trace : List (Visit δ)} {seq : Int} {durable : Durable δ} {e : Error} (before : Follows trace seq)
      (next : body.next (trace.map Visit.moved) = some (.call durable)) (refusal : durable.accepts none = .error e) :
    Follows (trace ++ [.refused durable e]) seq
  | answered {trace : List (Visit δ)} {seq : Int} {durable : Durable δ} {outcome : Except Error (Answer δ)}
      (before : Follows trace seq) (next : body.next (trace.map Visit.moved) = some (.call durable))
      (accepted : durable.accepts none = .ok ())
      (kept : Served ctx h seq durable outcome ∨ Free h seq durable outcome) :
    Follows (trace ++ [.answered seq durable outcome]) (advanced (durable.claim seq) outcome)

/-- Where the rows carry the body to a call, the call fits its row. -/
def Fitting : Prop :=
  ∀ trace seq durable, Follows ctx h body trace seq → body.next (trace.map Visit.moved) = some (.call durable) →
    durable.accepts none = .ok () → Fits h seq durable

def Records (seq : Int) (e : Error) : Prop :=
  ∃ found message info, h.step seq = .ok (some found) ∧ found.outcome = .failure message info ∧
    tryFromParts ctx.lib message info = .ok e

/-- The re-run took every answer from the row of its call, or needed no row for it, and came by every
row of the history. It is told of a non-deterministic body only by a row that says so. -/
structure Faithful (trace : List (Visit δ)) : Prop where
  kept : ∀ seq durable outcome, .answered seq durable outcome ∈ trace →
    Served ctx h seq durable outcome ∨ Free h seq durable outcome
  refused : ∀ durable e, .refused durable e ∈ trace → durable.accepts none = .error e ∧ e.code ≠ .unexpectedStep
  expected : ∀ seq durable e, .answered seq durable (.error e) ∈ trace → e.code = .unexpectedStep → Records ctx h seq e
  rows : ∀ op ∈ h.recorded,
    (∃ durable outcome, .answered op.stepId durable outcome ∈ trace ∧ Served ctx h op.stepId durable outcome ∧
      durable.name = op.name) ∨
    (op.name = "DBOS.sleep" ∧ ∃ seq durable outcome, .answered seq durable outcome ∈ trace ∧ durable.waits = true ∧
      nextSeq seq = op.stepId)

/-- The real re-execution reads its rows to its end: nothing is written, no body runs. -/
def Replays (rounds fuel : Nat) (clock : List DateTime) : Prop :=
  ∃ trace, rerun ctx h none rounds body fuel clock [] 0 {} = some (trace, {}) ∧
    body.next (trace.map Visit.moved) = none ∧ Faithful ctx h trace

end Follow

section Errors

variable {δ α : Type} {ctx : Context} {h : History} {seq : Int}

theorem recorded_unexpected {codec : Codec α} {outcome : StepOutcome} {e : Error}
    (failed : Execution.recorded ctx codec outcome = .error e) (unexpected : e.code = .unexpectedStep) :
    ∃ message info, outcome = .failure message info ∧ tryFromParts ctx.lib message info = .ok e := by
  cases outcome with
  | output value =>
    simp only [Execution.recorded, serdeResult] at failed
    cases read : codec.fromValue value with
    | ok a =>
      rw [read] at failed
      cases failed
    | error message =>
      rw [read] at failed
      cases failed
      cases unexpected
  | failure message info =>
    cases read : tryFromParts ctx.lib message info with
    | ok e' =>
      simp only [Execution.recorded, read] at failed
      cases failed
      exact ⟨message, info, rfl, read⟩
    | error e' =>
      simp only [Execution.recorded, read, tryFromParts_fails read, if_true] at failed
      cases failed
      cases unexpected

theorem map_error {β : Type} {result : Except Error α} {f : α → β} {e : Error} (failed : result.map f = .error e) :
    result = .error e := by
  cases result with
  | ok a => cases failed
  | error e' =>
    cases failed
    rfl

theorem bind_error {result : Except Error α} {e : Error} (failed : (result.bind fun _ => .ok ()) = .error e) :
    result = .error e := by
  cases result with
  | ok a => cases failed
  | error e' =>
    cases failed
    rfl

/-- An operation fails as its row does. -/
theorem given_error {op : Op δ} {outcome : StepOutcome} {e : Error} (ordinary : Op.starts op = false)
    (failed : given ctx seq op outcome = .error e) : ∃ (α : Type) (codec : Codec α), Execution.recorded ctx codec outcome = .error e := by
  cases op with
  | startWorkflow => cases ordinary
  | _ => exact ⟨_, _, map_error failed⟩

theorem Found.records {name : String} {found : RecordedStep} {codec : Codec α} {e : Error}
    (row : Found ctx h seq name found) (failed : Execution.recorded ctx codec found.outcome = .error e)
    (unexpected : e.code = .unexpectedStep) : Records ctx h seq e := by
  obtain ⟨message, info, outcome, read⟩ := recorded_unexpected failed unexpected
  exact ⟨found, message, info, row.here, outcome, read⟩

theorem served_unexpected {durable : Durable δ} {e : Error} (served : Served ctx h seq durable (.error e))
    (unexpected : e.code = .unexpectedStep) : Records ctx h seq e := by
  generalize same : Except.error e = outcome at served
  cases served with
  | step op found ordinary row =>
    obtain ⟨_, _, failed⟩ := given_error ordinary (map_error same.symm)
    exact row.records failed unexpected
  | link => cases same
  | rejection name input opts found e' unlinked row rejected =>
    cases same
    exact row.records rejected unexpected
  | marker | deprecated => cases same
  | transaction name codec found transacts row => exact row.records (map_error same.symm) unexpected
  | datasource name codec source found row => exact row.records (map_error same.symm) unexpected

theorem deduplication_code {opts : WorkflowOptions} {queue : Option String} {e : Error}
    (refused : opts.validateDeduplication queue = .error e) : e.code = .application := by
  unfold WorkflowOptions.validateDeduplication at refused
  split at refused
  · cases refused
    rfl
  split at refused
  · cases refused
    rfl
  split at refused
  · cases refused
    rfl
  · cases refused

theorem arguments_code {name : String} {opts : WorkflowOptions} {e : Error}
    (refused : Runtime.validateChildArguments name opts = .error e) : e.code = .application := by
  simp only [Runtime.validateChildArguments, bind, Except.bind] at refused
  split at refused
  · cases refused
    rfl
  split at refused
  · cases refused
    rfl
  split at refused
  next duplicated =>
    cases refused
    exact deduplication_code duplicated
  split at refused
  · cases refused
    rfl
  · cases refused

theorem free_unexpected {durable : Durable δ} {e : Error} (free : Free h seq durable (.error e)) :
    e.code ≠ .unexpectedStep := by
  cases free with
  | arguments name input opts _ unlinked vacant refused =>
    rw [arguments_code refused]
    decide

theorem serdeResult_code {result : Except String α} {e : Error} (failed : serdeResult result = .error e) :
    e.code = .serialization := by
  cases result with
  | ok a => cases failed
  | error message =>
    cases failed
    rfl

/-- A list is refused for one of its items. -/
theorem mapM_error {β ε : Type} {f : α → Except ε β} {xs : List α} {e : ε} (failed : xs.mapM f = .error e) :
    ∃ x ∈ xs, f x = .error e := by
  induction xs with
  | nil => cases failed
  | cons x xs ih =>
    rw [List.mapM_cons] at failed
    cases first : f x with
    | error e' =>
      rw [first] at failed
      cases failed
      exact ⟨x, by simp, first⟩
    | ok y =>
      cases rest : xs.mapM f with
      | error e' =>
        simp only [first, rest, bind, Except.bind] at failed
        cases failed
        obtain ⟨x', member, refused⟩ := ih rest
        exact ⟨x', by simp [member], refused⟩
      | ok ys =>
        simp only [first, rest, bind, Except.bind] at failed
        cases failed

theorem prepareBulk_code {messages : List SendMessage} {e : Error} (refused : prepareBulk messages = .error e) :
    e.code ≠ .unexpectedStep := by
  unfold prepareBulk at refused
  dsimp only at refused
  split at refused
  · cases refused
    simp [Error.ofMessage, Error.code]
  · obtain ⟨m, -, failed⟩ := mapM_error refused
    rw [serdeResult_code (map_error failed)]
    decide

/-- A call is refused before its position for what it was given. -/
theorem accepts_code {durable : Durable δ} {e : Error} (refused : durable.accepts none = .error e) :
    e.code ≠ .unexpectedStep := by
  have prepared : ∀ op : Op δ, op.prepare = .error e → e.code ≠ .unexpectedStep := by
    intro op failed
    cases op with
    | select branches =>
      simp only [Op.prepare] at failed
      split at failed
      · cases failed
        decide
      · cases failed
    | send | setEvent | writeStream | startWorkflow =>
      rw [serdeResult_code (map_error failed)]
      decide
    | sendBulk messages => exact prepareBulk_code (map_error failed)
    | _ => cases failed
  cases durable with
  | op operation =>
    apply prepared operation
    cases operation with
    | startWorkflow => exact refused
    | _ => exact bind_error refused
  | patch | deprecatePatch | transactionWith | transactionOn => cases refused

end Errors

section Steps

variable {δ : Type} {ctx : Context} {h : History} {verify : Option Bool} {rounds : Nat} {body : Body δ}
  {fuel : Nat} {clock : List DateTime} {trace full : List (Visit δ)} {seq : Int} {cell last : Cell}
  {durable : Durable δ}

theorem rerun_done (unlatched : cell.latch = none) (next : body.next (trace.map Visit.moved) = none) :
    rerun ctx h verify rounds body (fuel + 1) clock trace seq cell = some (trace, cell) := by
  simp [rerun, unlatched, next]

theorem rerun_drop (unlatched : cell.latch = none) (next : body.next (trace.map Visit.moved) = some (.drop durable)) :
    rerun ctx h verify rounds body (fuel + 1) clock trace seq cell =
      rerun ctx h verify rounds body fuel clock (trace ++ [.dropped durable]) (durable.taken seq) cell := by
  cases accepted : durable.accepts none <;> simp [rerun, unlatched, next, Durable.taken, accepted]

theorem rerun_call (unlatched : cell.latch = none) (next : body.next (trace.map Visit.moved) = some (.call durable)) :
    rerun ctx h verify rounds body (fuel + 1) clock trace seq cell =
      (visit ctx h verify rounds (clock.headD 0) durable seq cell).bind fun visited =>
        rerun ctx h verify rounds body fuel clock.tail (trace ++ [visited.1]) visited.2.1 visited.2.2 := by
  simp only [rerun, unlatched, next, Option.isSome_none, Bool.false_eq_true, if_false]
  cases visit ctx h verify rounds (clock.headD 0) durable seq cell <;> rfl

theorem visit_refused {now : DateTime} {e : Error} (unlatched : cell.latch = none)
    (refusal : durable.accepts none = .error e) :
    visit ctx h verify rounds now durable seq cell = some (.refused durable e, seq, cell) := by
  simp [visit, unlatched, refusal]

theorem visit_accepted {now : DateTime} (unlatched : cell.latch = none) (accepted : durable.accepts none = .ok ()) :
    visit ctx h verify rounds now durable seq cell =
      (onHistory h ctx.lib now (perform ctx verify rounds seq durable) cell).map fun ended =>
        (.answered seq durable ended.1, advanced (durable.claim seq) ended.1, ended.2) := by
  unfold visit
  rw [unlatched, accepted]
  cases evaluated : onHistory h ctx.lib now (perform ctx verify rounds seq durable) cell with
  | none =>
    change Client.eval _ _ _ = none at evaluated
    dsimp only
    rw [evaluated]
    rfl
  | some ended =>
    change Client.eval _ _ _ = some ended at evaluated
    dsimp only
    rw [evaluated]
    rfl

/-- A move of a re-run that came to an end. -/
theorem rerun_cases (unlatched : cell.latch = none)
    (ended : rerun ctx h verify rounds body (fuel + 1) clock trace seq cell = some (full, last)) :
    (body.next (trace.map Visit.moved) = none ∧ full = trace ∧ last = cell) ∨
    (∃ durable, body.next (trace.map Visit.moved) = some (.drop durable) ∧
      rerun ctx h verify rounds body fuel clock (trace ++ [.dropped durable]) (durable.taken seq) cell =
        some (full, last)) ∨
    (∃ durable e, body.next (trace.map Visit.moved) = some (.call durable) ∧ durable.accepts none = .error e ∧
      rerun ctx h verify rounds body fuel clock.tail (trace ++ [.refused durable e]) seq cell = some (full, last)) ∨
    (∃ durable outcome cell', body.next (trace.map Visit.moved) = some (.call durable) ∧
      durable.accepts none = .ok () ∧
      onHistory h ctx.lib (clock.headD 0) (perform ctx verify rounds seq durable) cell = some (outcome, cell') ∧
      rerun ctx h verify rounds body fuel clock.tail (trace ++ [.answered seq durable outcome])
        (advanced (durable.claim seq) outcome) cell' = some (full, last)) := by
  cases next : body.next (trace.map Visit.moved) with
  | none =>
    rw [rerun_done unlatched next] at ended
    cases ended
    exact .inl ⟨rfl, rfl, rfl⟩
  | some move =>
    cases move with
    | drop durable =>
      rw [rerun_drop unlatched next] at ended
      exact .inr (.inl ⟨durable, rfl, ended⟩)
    | call durable =>
      rw [rerun_call unlatched next] at ended
      cases accepted : durable.accepts none with
      | error e =>
        rw [visit_refused unlatched accepted] at ended
        exact .inr (.inr (.inl ⟨durable, e, rfl, accepted, ended⟩))
      | ok _ =>
        rw [visit_accepted unlatched accepted] at ended
        cases evaluated : onHistory h ctx.lib (clock.headD 0) (perform ctx verify rounds seq durable) cell with
        | none =>
          rw [evaluated] at ended
          cases ended
        | some answered =>
          rw [evaluated] at ended
          exact .inr (.inr (.inr ⟨durable, answered.1, answered.2, rfl, accepted, evaluated, ended⟩))

theorem rerun_latched (latched : cell.latch ≠ none)
    (ended : rerun ctx h verify rounds body fuel clock trace seq cell = some (full, last)) :
    full = trace ∧ last = cell := by
  cases fuel with
  | zero => cases ended
  | succ fuel =>
    have stopped : cell.latch.isSome = true := Option.isSome_iff_ne_none.mpr latched
    simp only [rerun, stopped, if_true] at ended
    cases ended
    exact ⟨rfl, rfl⟩

/-- A re-run only adds to what it has seen. -/
theorem rerun_extends (ended : rerun ctx h verify rounds body fuel clock trace seq cell = some (full, last)) :
    trace <+: full := by
  induction fuel generalizing clock trace seq cell with
  | zero => cases ended
  | succ fuel ih =>
    by_cases unlatched : cell.latch = none
    · rcases rerun_cases unlatched ended with ⟨-, rfl, -⟩ | ⟨_, -, rest⟩ | ⟨_, _, -, -, rest⟩ | ⟨_, _, _, -, -, -, rest⟩
      · exact List.prefix_rfl
      all_goals exact (List.prefix_append ..).trans (ih rest)
    · rw [(rerun_latched unlatched ended).1]

/-- What goes wrong in a re-run stays so. -/
theorem rerun_calm (ended : rerun ctx h verify rounds body fuel clock trace seq cell = some (full, last))
    (calm : Calm last) : Calm cell := by
  induction fuel generalizing clock trace seq cell with
  | zero => cases ended
  | succ fuel ih =>
    by_cases unlatched : cell.latch = none
    · rcases rerun_cases unlatched ended with ⟨-, -, rfl⟩ | ⟨_, -, rest⟩ | ⟨_, _, -, -, rest⟩ | ⟨_, _, _, -, -, evaluated, rest⟩
      · exact calm
      · exact ih rest
      · exact ih rest
      · exact over_calm evaluated (ih rest)
    · rw [← (rerun_latched unlatched ended).2]
      exact calm

end Steps

section Cells

variable {δ : Type} {ctx : Context} {h : History} {trace : List (Visit δ)} {seq : Int} {cell : Cell}
  {durable : Durable δ} {outcome : Except Error (Answer δ)}

/-- Everything the cell accounts for was visited. -/
structure Booked (ctx : Context) (h : History) (trace : List (Visit δ)) (seen : Seen) : Prop where
  served : ∀ seq ∈ seen.served, ∃ durable outcome, .answered seq durable outcome ∈ trace ∧ Served ctx h seq durable outcome
  reserved : ∀ at' name, seen.reserved.get at' = some name → name = "DBOS.sleep" ∧
    ∃ seq durable outcome, .answered seq durable outcome ∈ trace ∧ durable.waits = true ∧ nextSeq seq = at'

theorem Booked.later (booked : Booked ctx h trace cell.seen) (visited : Visit δ) :
    Booked ctx h (trace ++ [visited]) cell.seen := by
  constructor
  · intro seq member
    obtain ⟨durable, outcome, before, served⟩ := booked.served seq member
    exact ⟨durable, outcome, List.mem_append_left _ before, served⟩
  · intro at' name found
    obtain ⟨named, seq, durable, outcome, before, waits⟩ := booked.reserved at' name found
    exact ⟨named, seq, durable, outcome, List.mem_append_left _ before, waits⟩

theorem Booked.expecting (booked : Booked ctx h trace cell.seen) (visited : .answered seq durable outcome ∈ trace) :
    Booked ctx h trace (Verify.expecting (some true) seq durable.waits cell).seen := by
  unfold Verify.expecting
  split
  next waiting =>
    constructor
    · exact booked.served
    · intro at' name found
      simp only [Seen.book, Table.get_put] at found
      split at found
      next same =>
        cases found
        exact ⟨rfl, seq, durable, outcome, visited, waiting.2, same.symm⟩
      · exact booked.reserved at' name found
  · exact booked

theorem Booked.marked (booked : Booked ctx h trace cell.seen) (visited : .answered seq durable outcome ∈ trace)
    (served : Served ctx h seq durable outcome) : Booked ctx h trace (Verify.marked (some true) seq cell).seen := by
  constructor
  · intro seq' member
    simp only [Verify.marked, Option.isSome_some, if_true, Seen.book, List.mem_append, List.mem_singleton] at member
    rcases member with member | rfl
    · exact booked.served seq' member
    · exact ⟨durable, outcome, visited, served⟩
  · exact booked.reserved

/-- A served call has its row under its name. -/
theorem served_listed (served : Served ctx h seq durable outcome) : ⟨seq, durable.name⟩ ∈ h.recorded := by
  cases served with
  | step op found ordinary row =>
    have listed := h.step_listed seq found row.here
    rw [row.named] at listed
    exact listed
  | link name input opts child here => exact h.child_listed seq child name here
  | rejection name input opts found e unlinked row rejected =>
    have listed := h.step_listed seq found row.here
    rw [row.named] at listed
    exact listed
  | marker name here | deprecated name here => exact h.name_listed seq _ here
  | transaction name codec found transacts row =>
    have listed := h.step_listed seq found row.here
    rw [row.named] at listed
    exact listed
  | datasource name codec source found row =>
    have listed := h.step_listed seq found row.here
    rw [row.named] at listed
    exact listed

/-- Where the cell accounts for a row, the re-run came by it. -/
theorem Booked.rows (booked : Booked ctx h trace cell.seen) {row : StepInfo} (member : row ∈ h.recorded)
    (accounted : cell.seen.accountsFor row = true) :
    (∃ durable outcome, .answered row.stepId durable outcome ∈ trace ∧ Served ctx h row.stepId durable outcome ∧
      durable.name = row.name) ∨
    (row.name = "DBOS.sleep" ∧ ∃ seq durable outcome, .answered seq durable outcome ∈ trace ∧ durable.waits = true ∧
      nextSeq seq = row.stepId) := by
  simp only [Seen.accountsFor, Bool.or_eq_true, List.contains_iff_mem, beq_iff_eq] at accounted
  rcases accounted with served | reserved
  · obtain ⟨durable, outcome, visited, served⟩ := booked.served row.stepId served
    have same := h.unique _ (served_listed served) row member rfl
    exact .inl ⟨durable, outcome, visited, served, congrArg StepInfo.name same⟩
  · exact .inr (booked.reserved row.stepId row.name reserved)

end Cells

section Passed

variable {δ : Type} {ctx : Context} {h : History} {rounds : Nat} {body : Body δ} {fuel : Nat} {clock : List DateTime}
  {trace full : List (Visit δ)} {seq : Int} {cell last : Cell}

theorem follows_kept (followed : Follows ctx h body trace seq) :
    (∀ seq durable outcome, .answered seq durable outcome ∈ trace →
      Served ctx h seq durable outcome ∨ Free h seq durable outcome) ∧
    (∀ durable e, .refused durable e ∈ trace → durable.accepts none = .error e) := by
  induction followed with
  | start => simp
  | dropped before next ih => simpa using ih
  | refused before next refusal ih =>
    constructor
    · simpa using ih.1
    · intro durable e member
      rcases List.mem_append.mp member with member | member
      · exact ih.2 durable e member
      · cases List.mem_singleton.mp member
        exact refusal
  | answered before next accepted kept ih =>
    constructor
    · intro seq durable outcome member
      rcases List.mem_append.mp member with member | member
      · exact ih.1 seq durable outcome member
      · cases List.mem_singleton.mp member
        exact kept
    · simpa using ih.2

variable (workflow : ctx.workflowId = h.workflowId)
include workflow

/-- The body goes the way of its verification, in a real re-run at any time. -/
theorem rerun_follows (fitting : Fitting ctx h body) (again : List DateTime) (followed : Follows ctx h body trace seq)
    (calm : Calm last) (booked : Booked ctx h trace cell.seen)
    (ended : rerun ctx h (some true) rounds body fuel clock trace seq cell = some (full, last)) :
    rerun ctx h none rounds body fuel again trace seq {} = some (full, {}) ∧
      body.next (full.map Visit.moved) = none ∧ Booked ctx h full last.seen ∧ ∃ seq, Follows ctx h body full seq := by
  induction fuel generalizing clock again trace seq cell with
  | zero => cases ended
  | succ fuel ih =>
    have quiet := rerun_calm ended calm
    rcases rerun_cases quiet.latch ended with ⟨next, rfl, rfl⟩ | ⟨durable, next, rest⟩ | ⟨durable, e, next, refusal, rest⟩ |
      ⟨durable, outcome, cell', next, accepted, evaluated, rest⟩
    · exact ⟨rerun_done rfl next, next, booked, seq, followed⟩
    · rw [rerun_drop rfl next]
      exact ih again (.dropped followed next) (booked.later _) rest
    · rw [rerun_call rfl next, visit_refused rfl refusal]
      exact ih again.tail (.refused followed next refusal) (booked.later _) rest
    · have fits := fitting trace seq durable followed next accepted
      obtain ⟨outcome', kept⟩ := perform_passed workflow evaluated (rerun_calm rest calm) fits
      rw [rerun_call rfl next, visit_accepted rfl accepted]
      rcases kept with served | free
      · rw [perform_served workflow (some true) rounds quiet.latch served] at evaluated
        cases evaluated
        rw [perform_served workflow none rounds rfl served]
        have visited : Visit.answered seq durable outcome ∈ trace ++ [.answered seq durable outcome] := by simp
        exact ih again.tail (.answered followed next accepted (.inl served))
          (((booked.later _).expecting visited).marked visited served) rest
      · rw [perform_free workflow (some true) rounds quiet.latch free] at evaluated
        cases evaluated
        rw [perform_free workflow none rounds rfl free]
        exact ih again.tail (.answered followed next accepted (.inr free)) (booked.later _) rest

/-- A real re-run comes where the rows lead. -/
theorem rerun_reaches (followed : Follows ctx h body trace seq)
    (ended : rerun ctx h none rounds body fuel clock [] 0 {} = some (full, last)) :
    ∃ fuel clock, rerun ctx h none rounds body fuel clock trace seq {} = some (full, last) := by
  induction followed with
  | start => exact ⟨fuel, clock, ended⟩
  | dropped before next ih =>
    obtain ⟨fuel, clock, ended⟩ := ih
    cases fuel with
    | zero => cases ended
    | succ fuel =>
      rw [rerun_drop rfl next] at ended
      exact ⟨fuel, clock, ended⟩
  | refused before next refusal ih =>
    obtain ⟨fuel, clock, ended⟩ := ih
    cases fuel with
    | zero => cases ended
    | succ fuel =>
      rw [rerun_call rfl next, visit_refused rfl refusal] at ended
      exact ⟨fuel, clock.tail, ended⟩
  | answered before next accepted kept ih =>
    obtain ⟨fuel, clock, ended⟩ := ih
    cases fuel with
    | zero => cases ended
    | succ fuel =>
      rw [rerun_call rfl next, visit_accepted rfl accepted] at ended
      rcases kept with served | free
      · rw [perform_served workflow none rounds rfl served] at ended
        exact ⟨fuel, clock.tail, ended⟩
      · rw [perform_free workflow none rounds rfl free] at ended
        exact ⟨fuel, clock.tail, ended⟩

/-- A re-run that is kept to its rows meets no call that does not fit. -/
theorem replays_fitting (replayed : Replays ctx h body rounds fuel clock) : Fitting ctx h body := by
  obtain ⟨full, ended, -, faithful⟩ := replayed
  intro trace seq durable followed next accepted
  by_contra unfit
  obtain ⟨fuel, clock, ended⟩ := rerun_reaches workflow followed ended
  cases fuel with
  | zero => cases ended
  | succ fuel =>
    obtain ⟨outcome, refused, unserved⟩ := perform_unfit workflow rounds unfit
    rw [rerun_call rfl next, visit_accepted rfl accepted, refused] at ended
    have extended := rerun_extends ended
    have visited : Visit.answered seq durable outcome ∈ full := by
      apply extended.subset
      simp
    exact unserved (faithful.kept seq durable outcome visited)

omit workflow in
theorem passes_accounts {status : WorkflowStatus} {ending : BodyEnd Value}
    (passes : (report h status last.seen ending).passes = true) :
    last.seen.divergence = none ∧ ∀ row ∈ h.recorded, last.seen.accountsFor row = true := by
  simp only [report, ReplayReport.passes, Option.isNone_iff_eq_none, Option.or_eq_none_iff] at passes
  constructor
  · exact passes.1.1
  · have every := passes.2
    simp only [unaccounted, Option.map_eq_none_iff, List.find?_eq_none, Bool.not_eq_true', Bool.not_eq_false] at every
    exact every

omit workflow in
theorem verifyReplay_passed {status : WorkflowStatus} {passed : ReplayReport}
    (verified : verifyReplay ctx h status rounds body fuel clock = some (.ok passed)) (passes : passed.passes = true) :
    ∃ trace last, rerun ctx h (some (isComplete status.status)) rounds body fuel clock [] 0 {} = some (trace, last) ∧
      Calm last ∧ ∀ row ∈ h.recorded, last.seen.accountsFor row = true := by
  unfold verifyReplay at verified
  cases ended : rerun ctx h (some (isComplete status.status)) rounds body fuel clock [] 0 {} with
  | none => simp [ended] at verified
  | some outcome =>
    obtain ⟨trace, last⟩ := outcome
    simp only [ended] at verified
    cases latch : last.latch with
    | some cause => simp [latch] at verified
    | none =>
      simp only [latch] at verified
      split at verified
      · cases verified
      · cases verified
      · cases verified
        obtain ⟨undiverged, accounted⟩ := passes_accounts passes
        exact ⟨trace, last, rfl, ⟨latch, undiverged⟩, accounted⟩

/-- The re-run of a body that passed the verification of a complete history. -/
theorem passed_verification_replays (status : WorkflowStatus) (again : List DateTime) (passed : ReplayReport)
    (complete : isComplete status.status = true)
    (verified : verifyReplay ctx h status rounds body fuel clock = some (.ok passed)) (passes : passed.passes = true) :
    Replays ctx h body rounds fuel again ↔ Fitting ctx h body := by
  constructor
  · exact replays_fitting workflow
  · intro fitting
    obtain ⟨trace, last, ended, calm, accounted⟩ := verifyReplay_passed verified passes
    rw [complete] at ended
    have unbooked : Booked ctx h ([] : List (Visit δ)) ({} : Cell).seen := by
      constructor
      · simp
      · intro at' name found
        cases found
    obtain ⟨replayed, ending, booked, seq, followed⟩ := rerun_follows workflow fitting again .start calm unbooked ended
    obtain ⟨kept, refused⟩ := follows_kept followed
    refine ⟨trace, replayed, ending, ⟨kept, ?_, ?_, ?_⟩⟩
    · intro durable e member
      exact ⟨refused durable e member, accepts_code (refused durable e member)⟩
    · intro seq durable e member unexpected
      rcases kept seq durable (.error e) member with served | free
      · exact served_unexpected served unexpected
      · exact absurd unexpected (free_unexpected free)
    · intro row member
      exact booked.rows member (accounted row member)

omit workflow

/-- One successful step `job` was recorded. -/
def oneJob : History :=
  .ofMemory (.reading []) "w" { Memory.Inner.new with
    steps := Table.put ∅ ("w", 0) { name := "job", output := some .null, startedAtMs := some 0, completedAtMs := some 0 } }

def succeeded : WorkflowStatus := { WorkflowStatus.new 0 "w" "main" .null .success "e1" "v1" with output := some .null }

/-- A body of one call whose outcome it does not look at. -/
def single (durable : Durable Unit) : Body Unit where
  next
    | [] => some (.call durable)
    | _ => none
  ending _ := .returned (.ok .null)

def unitCodec : Codec Unit := ⟨fun _ => .ok .null, fun _ => .ok ()⟩

def allMatched : ReplayReport := ⟨"w", "main", 1, 1, true, none⟩

theorem unchanged_step_replays : Replays .plain oneJob (single (.op (.step "job" unitCodec))) 0 3 [7] := by
  have verified : verifyReplay .plain oneJob succeeded 0 (single (.op (.step "job" unitCodec))) 3 [] =
    some (.ok allMatched) := rfl
  apply (passed_verification_replays rfl succeeded [7] allMatched rfl verified rfl).mpr
  intro trace seq durable followed next accepted
  cases trace with
  | nil =>
    cases next
    trivial
  | cons visited trace => cases next

/-- A step turned into a child start of the same name. The verification counts its row as served and
books nothing when the call fails. -/
theorem converted_step_passes :
    ¬ ∀ (ctx : Context) (h : History) (status : WorkflowStatus) (rounds fuel : Nat) (body : Body Unit)
      (clock again : List DateTime) (passed : ReplayReport), ctx.workflowId = h.workflowId →
      isComplete status.status = true → verifyReplay ctx h status rounds body fuel clock = some (.ok passed) →
      passed.passes = true → Replays ctx h body rounds fuel again := by
  intro sound
  have replays := sound .plain oneJob succeeded 0 3 (single (.op (.startWorkflow "job" (.ok .null) {}))) [] [] allMatched
    rfl rfl rfl rfl
  have unfit := replays_fitting rfl replays [] 0 (.op (.startWorkflow "job" (.ok .null) {})) .start rfl rfl
  exact unfit ⟨"job", .output .null⟩ .null rfl rfl rfl rfl

end Passed

end Durare.Verify

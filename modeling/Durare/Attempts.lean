import Durare.Serving

/-! Executions of one workflow body that crash and start again. Only one lives at a time; the
others use the provider at any moment, and every crash falls between two provider calls. -/
namespace Durare.Replay

open Interaction Memory Execution

/-- A deterministic body: the results it was handed decide its next call. -/
abbrev Body (δ : Type) := List (Outcome δ) → Option (Op δ)

structure Running (δ : Type) where
  op : Op δ
  seq : Int
  found : Option StepRow
  rest : Client Ask (Ask.Reply δ) (Outcome δ)

structure Attempt (δ : Type) where
  rt : Runtime
  results : List (Outcome δ)
  seq : Int
  running : Option (Running δ)

/-- A result handed to the body, with the rows at its position when the call was issued and
when it returned. -/
structure Entry (δ : Type) where
  seq : Int
  op : Op δ
  found : Option StepRow
  row : Option StepRow
  interrupted : Bool
  result : Outcome δ

structure Closure where
  seq : Int
  row : Option StepRow

structure System (δ : Type) where
  store : Inner
  latch : Option Error
  attempt : Option (Attempt δ)
  log : List (Entry δ)
  closures : List Closure

def System.asking (s : System δ) : Option Ask :=
  (s.attempt.bind (·.running)).bind fun running =>
    match running.rest with
    | .ask q _ => some q
    | _ => none

/-- The workflow is stored and was never run. -/
def System.fresh (store : Inner) : System δ := ⟨store, none, none, [], []⟩

inductive Event (δ : Type) where
  | others (now : DateTime) (call : Call)
  | crash
  | start (rt : Runtime)
  | issue (rounds : Nat)
  | tick (input : Input δ)

section Machine

variable {δ : Type} (ctx : Context) (body : Body δ)

abbrev on (rt : Runtime) : Context := { ctx with rt := rt }

def issue (rounds : Nat) (attempt : Attempt δ) (op : Op δ) (s : System δ) : System δ :=
  match accepts op s.latch with
  | .error e => { s with attempt := some { attempt with results := attempt.results ++ [.error e] } }
  | .ok _ => { s with attempt := some { attempt with
      seq := op.claim attempt.seq
      running := some
        { op := op
          seq := attempt.seq
          found := s.store.steps.get (ctx.workflowId, attempt.seq)
          rest := op.run (on ctx attempt.rt) rounds attempt.seq } } }

def runsClosure : Ask → Bool
  | .body _ _ | .race _ => true
  | _ => false

/-- One ask of the running call, or the result it ends with. A call that goes no further takes
its execution with it. -/
def tick (input : Input δ) (attempt : Attempt δ) (running : Running δ) (s : System δ) : System δ :=
  match running.rest with
  | .done result => { s with
      attempt := some { attempt with results := attempt.results ++ [result], running := none }
      log := s.log ++ [
        { seq := running.seq
          op := running.op
          found := running.found
          row := s.store.steps.get (ctx.workflowId, running.seq)
          interrupted := s.latch.isSome
          result := result }] }
  | .ask q k =>
    let (reply, store, latch) := answer ctx.lib input q (s.store, s.latch)
    { s with
      store := store
      latch := latch
      attempt := some { attempt with running := some { running with rest := k reply } }
      closures := if runsClosure q then
          s.closures ++ [⟨running.seq, s.store.steps.get (ctx.workflowId, running.seq)⟩]
        else s.closures }
  | .halt => { s with latch := none, attempt := none }

def next (s : System δ) : Event δ → System δ
  | .others now call => { s with store := step ctx.lib s.store (now, call) }
  | .crash => { s with latch := none, attempt := none }
  | .start rt =>
    match s.attempt with
    | some _ => s
    | none => { s with latch := none, attempt := some ⟨rt, [], 0, none⟩ }
  | .issue rounds =>
    match s.attempt with
    | some attempt =>
      match attempt.running, body attempt.results with
      | none, some op => issue ctx rounds attempt op s
      | _, _ => s
    | none => s
  | .tick input =>
    match s.attempt with
    | some attempt =>
      match attempt.running with
      | some running => tick ctx input attempt running s
      | none => s
    | none => s

abbrev run (events : List (Event δ)) (s : System δ) : System δ := Runs.run (next ctx body) events s

/-- What the runs keep to: the others do not replace the workflow's history or cancel it, the
position counter does not overflow, and every ask of a call is answered properly. -/
def Allowed (proper : Input δ → Inner → Ask → Prop) (s : System δ) : Event δ → Prop
  | .others _ call => Others ctx.workflowId s.store call
  | .issue _ =>
    match s.attempt with
    | some attempt => attempt.seq + 2 < 2 ^ 31
    | none => True
  | .tick input =>
    match s.asking with
    | some q => proper input s.store q
    | none => True
  | .crash | .start _ => True

instance (proper : Input δ → Inner → Ask → Prop) [∀ input store q, Decidable (proper input store q)] (s : System δ) :
    ∀ event, Decidable (Allowed ctx proper s event)
  | .others _ call => inferInstanceAs (Decidable (Others ctx.workflowId s.store call))
  | .issue _ =>
    match started : s.attempt with
    | some attempt => decidable_of_iff (attempt.seq + 2 < 2 ^ 31) (by simp [Allowed, started])
    | none => .isTrue (by simp [Allowed, started])
  | .tick input =>
    match asked : s.asking with
    | some q => decidable_of_iff (proper input s.store q) (by simp [Allowed, asked])
    | none => .isTrue (by simp [Allowed, asked])
  | .crash | .start _ => .isTrue trivial

end Machine

section History

variable {δ : Type} {ctx : Context} {body : Body δ}

def claimed (call : Option (Op δ)) (seq : Int) : Int :=
  match call with
  | none => seq
  | some op =>
    match op.prepare with
    | .ok _ => op.claim seq
    | .error _ => seq

def advance (body : Body δ) (at_ : List (Outcome δ) × Int) (result : Outcome δ) : List (Outcome δ) × Int :=
  (at_.1 ++ [result], claimed (body at_.1) at_.2)

def counter (body : Body δ) (results : List (Outcome δ)) : Int := (results.foldl (advance body) ([], 0)).2

@[simp] theorem counter_nil : counter body [] = 0 := rfl

theorem counter_snoc (results : List (Outcome δ)) (result : Outcome δ) :
    counter body (results ++ [result]) = claimed (body results) (counter body results) := by
  have seen : ∀ results : List (Outcome δ), (results.foldl (advance body) ([], 0)).1 = results := by
    intro results
    induction results using List.reverseRecOn with
    | nil => rfl
    | append_singleton results result ih => simp [advance, ih]
  simp only [counter, List.foldl_append, List.foldl_cons, List.foldl_nil, advance, seen]

/-- What an earlier call of the history stands for: a refusal of its arguments, or a settled
position. -/
inductive Past (ctx : Context) (body : Body δ) (store : Inner) (before : List (Outcome δ)) (result : Outcome δ) :
    Prop where
  | refused (op : Op δ) (e : Error) (call : body before = some op) (refused : op.prepare = .error e)
      (same : result = .error e)
  | settled (op : Op δ) (call : body before = some op) (prepared : op.prepare = .ok ())
      (begun : Begun ctx (counter body before) op store) (settles : Settles ctx (counter body before) op result store)

/-- No call of the history comes near the end of the counter. -/
def Roomy (body : Body δ) (canon : List (Outcome δ)) : Prop :=
  ∀ before result after, canon = before ++ result :: after → counter body before + 2 < 2 ^ 31

/-- The history every execution goes through: each of its calls is settled. -/
structure Settled (ctx : Context) (body : Body δ) (store : Inner) (canon : List (Outcome δ)) : Prop where
  past : ∀ before result after, canon = before ++ result :: after → Past ctx body store before result
  roomy : Roomy body canon

/-- A call of the history, or the next one, that takes a position. -/
structure Claims (body : Body δ) (canon before : List (Outcome δ)) (op : Op δ) : Prop where
  within : before <+: canon
  call : body before = some op
  prepared : op.prepare = .ok ()
  room : counter body before + 2 < 2 ^ 31

structure Frontier (ctx : Context) (body : Body δ) (store : Inner) (canon : List (Outcome δ)) : Prop where
  begun : ∀ op, Claims body canon canon op → Begun ctx (counter body canon) op store
  beyond : ∀ p row, counter body canon ≤ p → store.steps.get (ctx.workflowId, p) = some row →
    ∃ op, Claims body canon canon op ∧
      (p = counter body canon ∨ op.waits = true ∧ p = nextSeq (counter body canon))

def width (op : Op δ) : Int := if op.waits then 2 else 1

theorem nextSeq_eq {seq : Int} (low : 0 ≤ seq) (room : seq + 2 < 2 ^ 31) : nextSeq seq = seq + 1 :=
  asI32_of_lt (by omega) (by omega)

theorem claim_eq (op : Op δ) {seq : Int} (low : 0 ≤ seq) (room : seq + 2 < 2 ^ 31) :
    op.claim seq = seq + width op := by
  have second : nextSeq (seq + 1) = seq + 2 := by
    unfold nextSeq
    rw [asI32_of_lt (by omega) (by omega)]
    omega
  unfold Op.claim width
  rw [nextSeq_eq low room, second]
  split <;> rfl

theorem width_pos (op : Op δ) : 1 ≤ width op := by
  unfold width
  split <;> omega

theorem Roomy.before {before after : List (Outcome δ)} (roomy : Roomy body (before ++ after)) : Roomy body before := by
  intro first result rest here
  subst here
  exact roomy first result (rest ++ after) (by simp)

/-- The counter starts at zero and never goes back. -/
theorem counter_low {canon : List (Outcome δ)} (roomy : Roomy body canon) : 0 ≤ counter body canon := by
  induction canon using List.reverseRecOn with
  | nil => simp
  | append_singleton before result ih =>
    have low := ih roomy.before
    have room := roomy before result [] rfl
    rw [counter_snoc, claimed.eq_def]
    split
    · exact low
    next op _ =>
      split
      · rw [claim_eq op low room]
        have wide := width_pos op
        omega
      · exact low

theorem counter_snoc_eq {before : List (Outcome δ)} {result : Outcome δ} {op : Op δ}
    (roomy : Roomy body (before ++ [result])) (call : body before = some op) (prepared : op.prepare = .ok ()) :
    counter body (before ++ [result]) = counter body before + width op := by
  rw [counter_snoc, call, claimed, prepared]
  exact claim_eq op (counter_low roomy.before) (roomy before result [] rfl)

theorem counter_le {before after : List (Outcome δ)} (roomy : Roomy body (before ++ after)) :
    counter body before ≤ counter body (before ++ after) := by
  induction after using List.reverseRecOn with
  | nil => simp
  | append_singleton after result ih =>
    rw [← List.append_assoc] at roomy ⊢
    have earlier := ih roomy.before
    have low := counter_low roomy.before
    have room := roomy (before ++ after) result [] rfl
    refine le_trans earlier ?_
    rw [counter_snoc, claimed.eq_def]
    split
    · exact le_refl _
    next op _ =>
      split
      · rw [claim_eq op low room]
        have wide := width_pos op
        omega
      · exact le_refl _

theorem Roomy.within {canon results : List (Outcome δ)} (roomy : Roomy body canon) (within : results <+: canon) :
    Roomy body results := by
  obtain ⟨rest, whole⟩ := within
  rw [← whole] at roomy
  exact roomy.before

/-- What comes after a call comes after all its positions. -/
theorem counter_precedes {canon before results : List (Outcome δ)} {op : Op δ} (roomy : Roomy body canon)
    (claims : Claims body canon before op) (within : results <+: canon) (shorter : before.length < results.length) :
    counter body before + width op ≤ counter body results := by
  obtain ⟨rest, split⟩ := List.prefix_of_prefix_length_le claims.within within shorter.le
  cases rest with
  | nil =>
    simp at split
    subst split
    omega
  | cons result rest =>
    have whole : before ++ [result] ++ rest = results := by simpa using split
    have room : Roomy body (before ++ [result] ++ rest) := whole ▸ roomy.within within
    rw [← counter_snoc_eq room.before claims.call claims.prepared, ← whole]
    exact counter_le room

/-- Two calls of one history that take positions are the same call, or one takes its
positions before the other. -/
theorem positions_apart {canon before results : List (Outcome δ)} {earlier later : Op δ} (roomy : Roomy body canon)
    (first : Claims body canon before earlier) (second : Claims body canon results later) :
    before = results ∨ counter body before + width earlier ≤ counter body results ∨
      counter body results + width later ≤ counter body before := by
  rcases lt_trichotomy before.length results.length with shorter | same | longer
  · exact .inr (.inl (counter_precedes roomy first second.within shorter))
  · exact .inl ((List.prefix_of_prefix_length_le first.within second.within same.le).eq_of_length same)
  · exact .inr (.inr (counter_precedes roomy second first.within longer))

/-- How the store may move while a call runs. -/
structure Moved (ctx : Context) (seq : Int) (op : Op δ) (store store' : Inner) : Prop where
  steps : ∀ p, store'.steps.get (ctx.workflowId, p) = store.steps.get (ctx.workflowId, p) ∨
    (store.steps.get (ctx.workflowId, p) = none ∧ ∃ row, store'.steps.get (ctx.workflowId, p) = some row ∧
      (p = seq ∧ row.name = op.name ∧ refusal ctx op store = none ∨
        p = nextSeq seq ∧ op.waits = true ∧ Deadline ctx row))
  closed : ∀ key, Closed store ctx.workflowId key → Closed store' ctx.workflowId key

section Steps

variable {canon before results : List (Outcome δ)} {earlier op : Op δ} {store store' : Inner}

/-- A row that appears at the own position of a call is the running call's. -/
theorem own_row (roomy : Roomy body canon) (first : Claims body canon before earlier)
    (second : Claims body canon results op) (moved : Moved ctx (counter body results) op store store') :
    store'.steps.get (ctx.workflowId, counter body before) = store.steps.get (ctx.workflowId, counter body before) ∨
      (before = results ∧ store.steps.get (ctx.workflowId, counter body before) = none ∧
        refusal ctx op store = none ∧
        ∃ row, store'.steps.get (ctx.workflowId, counter body before) = some row ∧ row.name = op.name) := by
  obtain same | ⟨vacant, row, present, ⟨here, named, free⟩ | ⟨here, waits, -⟩⟩ := moved.steps (counter body before)
  · exact .inl same
  · right
    have wide := width_pos earlier
    have wide' := width_pos op
    obtain same | apart | apart := positions_apart roomy first second
    · exact ⟨same, vacant, free, row, present, named⟩
    · omega
    · omega
  · rw [nextSeq_eq (counter_low (roomy.within second.within)) second.room] at here
    have wide := width_pos earlier
    have two : width op = 2 := by rw [width, waits]; rfl
    obtain same | apart | apart := positions_apart roomy first second
    · subst same; omega
    · omega
    · omega

/-- A row that appears at the timer's position of a wait is its timer. -/
theorem timer_row (roomy : Roomy body canon) (first : Claims body canon before earlier) (waits : earlier.waits = true)
    (second : Claims body canon results op) (moved : Moved ctx (counter body results) op store store') :
    store'.steps.get (ctx.workflowId, nextSeq (counter body before)) =
        store.steps.get (ctx.workflowId, nextSeq (counter body before)) ∨
      ∃ row, store'.steps.get (ctx.workflowId, nextSeq (counter body before)) = some row ∧ Deadline ctx row := by
  obtain same | ⟨-, row, present, ⟨here, -⟩ | ⟨-, -, timer⟩⟩ := moved.steps (nextSeq (counter body before))
  · exact .inl same
  · rw [nextSeq_eq (counter_low (roomy.within first.within)) first.room] at here
    have two : width earlier = 2 := by rw [width, waits]; rfl
    have wide := width_pos op
    obtain same | apart | apart := positions_apart roomy first second
    · subst same; omega
    · omega
    · omega
  · exact .inr ⟨row, present, timer⟩

theorem begun_later (roomy : Roomy body canon) (first : Claims body canon before earlier)
    (second : Claims body canon results op) (moved : Moved ctx (counter body results) op store store')
    (begun : Begun ctx (counter body before) earlier store) : Begun ctx (counter body before) earlier store' where
  own := by
    intro row present
    obtain same | ⟨rfl, -, -, row', present', named⟩ := own_row roomy first second moved
    · exact begun.own row (same ▸ present)
    · rw [present'] at present
      cases present
      have ops : earlier = op := Option.some.inj (first.call.symm.trans second.call)
      rw [ops]
      exact named
  timer := by
    intro waits row present
    obtain same | ⟨row', present', timer⟩ := timer_row roomy first waits second moved
    · exact begun.timer waits row (same ▸ present)
    · rw [present'] at present
      cases present
      exact timer

theorem settles_later {result : Outcome δ} (roomy : Roomy body canon) (first : Claims body canon before earlier)
    (second : Claims body canon results op) (moved : Moved ctx (counter body results) op store store')
    (settles : Settles ctx (counter body before) earlier result store) :
    Settles ctx (counter body before) earlier result store' := by
  have kept := own_row roomy first second moved
  rcases settles with ⟨row, present, named, same⟩ | ⟨vacant, e, refused, same⟩
  · obtain stays | ⟨-, vacant, -⟩ := kept
    · exact .inl ⟨row, stays.trans present, named, same⟩
    · rw [present] at vacant
      cases vacant
  · obtain stays | ⟨rfl, -, free, -⟩ := kept
    · refine .inr ⟨stays.trans vacant, e, ?_, same⟩
      have later : refusal ctx earlier (store', (none : Option Error)).1 = some e :=
        refusal_later (s := (store, none)) refused moved.closed
      exact later
    · have ops : earlier = op := Option.some.inj (first.call.symm.trans second.call)
      rw [ops, free] at refused
      cases refused

theorem Settled.later (settled : Settled ctx body store canon) (running : Claims body canon results op)
    (moved : Moved ctx (counter body results) op store store') : Settled ctx body store' canon where
  roomy := settled.roomy
  past := by
    intro before result after split
    cases settled.past before result after split with
    | refused op' e call refused same => exact .refused op' e call refused same
    | settled earlier call prepared begun settles =>
      have first : Claims body canon before earlier :=
        ⟨split ▸ List.prefix_append _ _, call, prepared, settled.roomy before result after split⟩
      exact .settled earlier call prepared (begun_later settled.roomy first running moved begun)
        (settles_later settled.roomy first running moved settles)

theorem Frontier.later (frontier : Frontier ctx body store canon) (roomy : Roomy body canon)
    (running : Claims body canon results op) (moved : Moved ctx (counter body results) op store store') :
    Frontier ctx body store' canon where
  begun := fun next first => begun_later roomy first running moved (frontier.begun next first)
  beyond := by
    intro p row far present
    obtain same | ⟨-, row', -, here⟩ := moved.steps p
    · exact frontier.beyond p row far (same ▸ present)
    · -- A new row this far out belongs to a call at the end of the history.
      have atEnd : results = canon := by
        refine running.within.eq_of_length_le ?_
        by_contra shorter
        have past := counter_precedes roomy running (List.prefix_refl canon) (not_le.mp shorter)
        obtain ⟨here, -⟩ | ⟨here, waits, -⟩ := here
        · have wide := width_pos op
          omega
        · rw [nextSeq_eq (counter_low (roomy.within running.within)) running.room] at here
          have two : width op = 2 := by rw [width, waits]; rfl
          omega
      subst atEnd
      obtain ⟨here, -⟩ | ⟨here, waits, -⟩ := here
      · exact ⟨op, running, .inl here⟩
      · exact ⟨op, running, .inr ⟨waits, here⟩⟩

/-- The history goes on with the result of the next call. -/
theorem Settled.extend {result : Outcome δ} (settled : Settled ctx body store canon)
    (room : counter body canon + 2 < 2 ^ 31)
    (past : Past ctx body store canon result) : Settled ctx body store (canon ++ [result]) := by
  have cases : ∀ before result' after, canon ++ [result] = before ++ result' :: after →
      (before = canon ∧ result' = result) ∨ ∃ after', canon = before ++ result' :: after' := by
    intro before result' after split
    induction after using List.reverseRecOn with
    | nil =>
      have ends := List.append_inj' split rfl
      exact .inl ⟨ends.1.symm, (List.singleton_inj.mp ends.2).symm⟩
    | append_singleton after last _ =>
      have shifted : canon ++ [result] = (before ++ result' :: after) ++ [last] := by simpa using split
      exact .inr ⟨after, (List.append_inj' shifted rfl).1⟩
  constructor
  · intro before result' after split
    obtain ⟨rfl, rfl⟩ | ⟨after', inside⟩ := cases before result' after split
    · exact past
    · exact settled.past before result' after' inside
  · intro before result' after split
    obtain ⟨rfl, rfl⟩ | ⟨after', inside⟩ := cases before result' after split
    · exact room
    · exact settled.roomy before result' after' inside

theorem Frontier.extend {result : Outcome δ} (frontier : Frontier ctx body store canon)
    (roomy : Roomy body (canon ++ [result])) :
    Frontier ctx body store (canon ++ [result]) := by
  have vacant : ∀ p, counter body (canon ++ [result]) ≤ p → store.steps.get (ctx.workflowId, p) = none := by
    intro p far
    by_contra present
    obtain ⟨row, present⟩ := Option.ne_none_iff_exists'.mp present
    have behind := counter_le roomy
    obtain ⟨op, claims, here⟩ := frontier.beyond p row (le_trans behind far) present
    have moved := counter_snoc_eq roomy claims.call claims.prepared
    obtain here | ⟨waits, here⟩ := here
    · have wide := width_pos op
      omega
    · rw [nextSeq_eq (counter_low roomy.before) claims.room] at here
      have two : width op = 2 := by rw [width, waits]; rfl
      omega
  constructor
  · intro op claims
    constructor
    · intro row present
      rw [vacant _ (le_refl _)] at present
      cases present
    · intro _ row present
      rw [vacant _ (by rw [nextSeq_eq (counter_low roomy) claims.room]; omega)] at present
      cases present
  · intro p row far present
    rw [vacant p far] at present
    cases present

theorem settles_others {seq : Int} {result : Outcome δ} {s s' : State} (settles : Settles ctx seq op result s.1)
    (moved : Rely ctx.workflowId s s') : Settles ctx seq op result s'.1 := by
  rcases settles with ⟨row, present, named, same⟩ | ⟨vacant, e, refused, same⟩
  · exact .inl ⟨row, (moved.steps seq).trans present, named, same⟩
  · exact .inr ⟨(moved.steps seq).trans vacant, e, refusal_later refused moved.closed, same⟩

theorem Settled.others {s s' : State} (settled : Settled ctx body s.1 canon) (moved : Rely ctx.workflowId s s') :
    Settled ctx body s'.1 canon where
  roomy := settled.roomy
  past := by
    intro before result after split
    cases settled.past before result after split with
    | refused op e call refused same => exact .refused op e call refused same
    | settled op call prepared begun settles =>
      exact .settled op call prepared (begun.later moved) (settles_others settles moved)

theorem Frontier.others {s s' : State} (frontier : Frontier ctx body s.1 canon) (moved : Rely ctx.workflowId s s') :
    Frontier ctx body s'.1 canon where
  begun := fun op claims => (frontier.begun op claims).later moved
  beyond := fun p row far present => frontier.beyond p row far ((moved.steps p).symm.trans present)

/-- A position gives one result. -/
theorem settles_unique {seq : Int} {first second : Outcome δ} (one : Settles ctx seq op first store)
    (other : Settles ctx seq op second store) : first = second := by
  rcases one with ⟨row, present, -, same⟩ | ⟨vacant, e, refused, same⟩
  · rcases other with ⟨row', present', -, same'⟩ | ⟨vacant, -⟩
    · rw [present] at present'
      cases present'
      rw [same, same']
    · rw [present] at vacant
      cases vacant
  · rcases other with ⟨row', present', -, same'⟩ | ⟨-, e', refused', same'⟩
    · rw [vacant] at present'
      cases present'
    · rw [refused] at refused'
      cases refused'
      rw [same, same']

end Steps

end History

end Durare.Replay

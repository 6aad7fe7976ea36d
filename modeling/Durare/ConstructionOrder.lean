import Durare.Construction

/-! One execution builds durable calls and polls them, in any order: the positions of the calls follow from the
order in which they were built. -/
namespace Durare.Construction

open Interaction
open Verify (Query Checked Answer)

instance {δ : Type} (site : Site) (call : Call δ) : Decidable (site.Refuses call) :=
  have : Decidable (∃ e, call.prepare = .error e) :=
    decidable_of_iff (call.prepare.isOk = false) (by cases call.prepare <;> simp [Except.isOk, Except.toBool])
  inferInstanceAs (Decidable ((_ ∨ _ ∨ _) ∨ _))

/-- A construction: where the call was built and what came of it. -/
structure Built (δ : Type) where
  site : Site
  call : Call δ
  pending : PendingStep δ

def Built.width {δ : Type} (b : Built δ) : Nat := if b.site.Refuses b.call then 0 else b.call.width

def PendingStep.slots {δ : Type} (p : PendingStep δ) :
    List Int := (p.position.map (·.seq)).toList ++ p.deadlineSeq.toList

def asked {δ : Type} (built : List (Built δ)) : Nat := (built.map Built.width).sum

/-- An execution: the rest of the world, its counter, the constructions so far, what is left of each call, and what
each call has asked. -/
structure State (δ σ : Type) where
  world : σ
  seq : Int := 0
  built : List (Built δ) := []
  left : Nat → Client Query (Query.Reply δ) (Except Error (Answer δ)) := fun _ => .halt
  ran : List (Nat × Query) := []

/-- A call is built, polled or dropped, in any scope; or something else happens. -/
inductive Event (δ σ ι : Type) where
  | construct (scope : Scope) (rounds : Nat) (call : Call δ)
  | poll (i : Nat) (scope : Scope) (input : ι)
  | drop (i : Nat)
  | others (world : σ)

/-- A provider and its surroundings, with the failure that is latched in them. -/
structure Service (δ σ ι : Type) where
  serve : ι → (q : Query) → σ → q.Reply δ × σ
  failure : σ → Option Error

section Machine

variable {δ σ ι : Type} (ctx : Context) (verify : Option Bool) (own : Nat) (service : Service δ σ ι)

def State.site (s : State δ σ) (scope : Scope) : Site := ⟨own, ctx.workflowId, service.failure s.world, scope⟩

def poll (i : Nat) (scope : Scope) (input : ι) (s : State δ σ) : State δ σ :=
  match (s.built[i]?).bind (·.pending.position) with
  | none => s
  | some position =>
    match (s.site ctx own service scope).checkCallPoll position.operation with
    | .error _ => s
    | .ok _ =>
      match s.left i with
      | .ask q k =>
        let (reply, world) := service.serve input q s.world
        { s with world := world, left := Function.update s.left i (k reply), ran := s.ran ++ [(i, q)] }
      | _ => s

def next (s : State δ σ) : Event δ σ ι → State δ σ
  | .construct scope rounds call =>
    let site := s.site ctx own service scope
    let (pending, seq) := call.construct ctx verify rounds site s.seq
    { s with
      seq := seq
      built := s.built ++ [⟨site, call, pending⟩]
      left := Function.update s.left s.built.length pending.running }
  | .poll i scope input => poll ctx own service i scope input s
  | .drop i => { s with left := Function.update s.left i .halt }
  | .others world => { s with world := world }

abbrev run (events : List (Event δ σ ι)) (s : State δ σ) : State δ σ := Runs.run (next ctx verify own service) events s

end Machine

/-- Each accepted construction takes the next positions, and they are free; a refused one takes none. No two calls ask
at one position. -/
structure Ordered {δ σ : Type} (s : State δ σ) : Prop where
  slots : ∀ i (b : Built δ), s.built[i]? = some b →
    b.pending.slots = (List.range b.width).map fun k => asI32 (asked (s.built.take i) + k : Nat)
  free : ∀ (i j : Nat) (b b' : Built δ), i < j → s.built[i]? = some b → s.built[j]? = some b' →
    ∀ p ∈ b'.pending.slots, p ∉ b.pending.slots
  apart : ∀ i j q q' p, (i, q) ∈ s.ran → (j, q') ∈ s.ran → position q = some p → position q' = some p → i = j

theorem nextSeq_asI32 (n : Nat) : nextSeq (asI32 n) = asI32 (n + 1 : Nat) := by
  unfold nextSeq asI32
  rw [Int.bmod_add_bmod]
  rfl

/-- Up to the range of the counter no position comes twice. -/
theorem asI32_inj {m n : Nat} (low : m < 2 ^ 32) (low' : n < 2 ^ 32) (same : asI32 m = asI32 n) : m = n := by
  unfold asI32 at same
  have first := Int.bmod_emod (x := m) (m := 2 ^ 32)
  have second := Int.bmod_emod (x := n) (m := 2 ^ 32)
  rw [same] at first
  omega

section Asked

variable {δ : Type} {built : List (Built δ)} {b : Built δ}

theorem asked_append (built : List (Built δ)) (b : Built δ) : asked (built ++ [b]) = asked built + b.width := by
  simp [asked]

theorem asked_take_succ {i : Nat} (here : built[i]? = some b) :
    asked (built.take (i + 1)) = asked (built.take i) + b.width := by
  rw [List.take_add_one, here, Option.toList_some, asked_append]

theorem asked_take_mono {i j : Nat} (le : i ≤ j) : asked (built.take i) ≤ asked (built.take j) := by
  rw [← List.take_append_drop i (built.take j), List.take_take, min_eq_left le]
  simp [asked]

theorem asked_take_le (i : Nat) : asked (built.take i) ≤ asked built := by
  have le : i ≤ max i built.length := le_max_left ..
  have all := @asked_take_mono δ built i (max i built.length) le
  rwa [List.take_of_length_le (le_max_right ..)] at all

/-- Every position below the count belongs to some construction. -/
theorem exists_slot {n : Nat} (less : n < asked built) :
    ∃ i b, built[i]? = some b ∧ asked (built.take i) ≤ n ∧ n < asked (built.take i) + b.width := by
  induction built generalizing n with
  | nil => simp [asked] at less
  | cons b built ih =>
    by_cases first : n < b.width
    · exact ⟨0, b, rfl, by simp [asked], by simpa [asked] using first⟩
    · have rest : n - b.width < asked built := by
        simp only [asked, List.map_cons, List.sum_cons] at less ⊢
        omega
      obtain ⟨i, b', here, above, below⟩ := ih rest
      refine ⟨i + 1, b', here, ?_, ?_⟩ <;>
      · simp only [asked, List.take_succ_cons, List.map_cons, List.sum_cons] at above below ⊢
        omega

end Asked

section Runs

variable {δ σ ι : Type} {ctx : Context} {verify : Option Bool} {own : Nat} {service : Service δ σ ι} {s : State δ σ}

/-- What a construction leaves: its positions from the counter on, the counter behind them, and a call that stays at
them. -/
theorem construct_slots (site : Site) (rounds : Nat) (call : Call δ) (n : Nat) {pending : PendingStep δ} {seq : Int}
    (built : call.construct ctx verify rounds site (asI32 n) = (pending, seq)) :
    let b : Built δ := ⟨site, call, pending⟩
    pending.slots = (List.range b.width).map (fun k => asI32 (n + k : Nat)) ∧ seq = asI32 (n + b.width : Nat) ∧
      Stays pending.slots pending.running := by
  have spec := @construct_spec δ ctx verify rounds site (asI32 n) call
  rw [built] at spec
  intro b
  by_cases refuses : site.Refuses call
  · obtain ⟨⟨e, failed⟩, same⟩ := spec.refused refuses
    have none : b.width = 0 := if_pos refuses
    dsimp only at failed same
    rw [none, failed, same]
    exact ⟨by simp [PendingStep.failed, PendingStep.slots], by rw [Nat.add_zero], trivial⟩
  · obtain ⟨operation, accepted, same⟩ := spec.accepted refuses
    have taken : b.width = call.width := if_neg refuses
    have stays := @run_stays δ ctx verify rounds call (asI32 n)
    dsimp only at accepted same
    rw [taken, accepted, same, Call.width]
    cases waits : call.waits with
    | false =>
      simp only [waits, Bool.false_eq_true, if_false, nextSeq_asI32] at stays ⊢
      have slots (running : Checked δ (Answer δ)) :
          PendingStep.slots ⟨some ⟨asI32 n, operation⟩, none, running⟩ = [asI32 n] := by
        simp [PendingStep.slots]
      rw [slots]
      exact ⟨by simp, trivial, stays⟩
    | true =>
      simp only [waits, if_true, nextSeq_asI32] at stays ⊢
      have slots (running : Checked δ (Answer δ)) :
          PendingStep.slots ⟨some ⟨asI32 n, operation⟩, some (asI32 (n + 1 : Nat)), running⟩ =
            [asI32 n, asI32 (n + 1 : Nat)] := by
        simp [PendingStep.slots]
      rw [slots]
      exact ⟨by simp [List.range_succ], trivial, stays⟩

structure Inv (s : State δ σ) : Prop where
  counter : s.seq = asI32 (asked s.built)
  slots : ∀ i (b : Built δ), s.built[i]? = some b →
    b.pending.slots = (List.range b.width).map fun k => asI32 (asked (s.built.take i) + k : Nat)
  stays : ∀ i (b : Built δ), s.built[i]? = some b → Stays b.pending.slots (s.left i)
  ran : ∀ i q, (i, q) ∈ s.ran → ∃ b, s.built[i]? = some b ∧ Own b.pending.slots q

theorem start_inv (world : σ) : Inv (⟨world, 0, [], fun _ => .halt, []⟩ : State δ σ) where
  counter := by simp [asked, asI32]
  slots i b here := by cases here
  stays i b here := by cases here
  ran i q here := by cases here

theorem poll_inv (inv : Inv s) (i : Nat) (scope : Scope) (input : ι) : Inv (poll ctx own service i scope input s) := by
  unfold poll
  split
  · exact inv
  next position here =>
    split
    · exact inv
    split
    next q k asking =>
      obtain ⟨b, there, -⟩ := Option.bind_eq_some_iff.mp here
      have stays := inv.stays i b there
      rw [asking] at stays
      refine ⟨inv.counter, inv.slots, ?_, ?_⟩
      · intro j b' present
        dsimp only
        by_cases same : j = i
        · subst same
          rw [there] at present
          cases present
          rw [Function.update_self]
          exact stays.2 _
        · rw [Function.update_of_ne same]
          exact inv.stays j b' present
      · intro j q' member
        rcases List.mem_append.mp member with before | new
        · exact inv.ran j q' before
        · cases List.mem_singleton.mp new
          exact ⟨b, there, stays.1⟩
    · exact inv

theorem construct_inv (inv : Inv s) (scope : Scope) (rounds : Nat) (call : Call δ) :
    Inv (next ctx verify own service s (.construct scope rounds call)) := by
  have spec := @construct_slots δ ctx verify (s.site ctx own service scope) rounds call (asked s.built)
  rw [← inv.counter] at spec
  rcases built : call.construct ctx verify rounds (s.site ctx own service scope) s.seq with ⟨pending, seq⟩
  obtain ⟨slots, counter, stays⟩ := spec built
  simp only [next, built]
  -- an earlier construction, or the new one
  have cases_ {j : Nat} {b : Built δ}
      (here : (s.built ++ [⟨s.site ctx own service scope, call, pending⟩])[j]? = some b) :
      (j < s.built.length ∧ s.built[j]? = some b) ∨
        j = s.built.length ∧ b = ⟨s.site ctx own service scope, call, pending⟩ := by
    rcases Nat.lt_trichotomy j s.built.length with before | last | after
    · rw [List.getElem?_append_left before] at here
      exact .inl ⟨before, here⟩
    · subst last
      rw [List.getElem?_concat_length] at here
      cases here
      exact .inr ⟨rfl, rfl⟩
    · rw [List.getElem?_eq_none (by simp; omega)] at here
      cases here
  refine ⟨?_, ?_, ?_, ?_⟩
  · rw [asked_append]
    exact counter
  · intro j b here
    dsimp only
    obtain ⟨before, there⟩ | ⟨last, new⟩ := cases_ here
    · rw [List.take_append_of_le_length (Nat.le_of_lt before)]
      exact inv.slots j b there
    · subst last new
      rw [List.take_left]
      exact slots
  · intro j b here
    dsimp only
    obtain ⟨before, there⟩ | ⟨last, new⟩ := cases_ here
    · rw [Function.update_of_ne (Nat.ne_of_lt before)]
      exact inv.stays j b there
    · subst last new
      rw [Function.update_self]
      exact stays
  · intro j q member
    obtain ⟨b, there, own_⟩ := inv.ran j q member
    obtain ⟨before, -⟩ := List.getElem?_eq_some_iff.mp there
    exact ⟨b, by rw [List.getElem?_append_left before]; exact there, own_⟩

theorem next_inv (inv : Inv s) (event : Event δ σ ι) : Inv (next ctx verify own service s event) := by
  cases event with
  | construct scope rounds call => exact construct_inv inv scope rounds call
  | poll i scope input => exact poll_inv inv i scope input
  | others world => exact ⟨inv.counter, inv.slots, inv.stays, inv.ran⟩
  | drop i =>
    refine ⟨inv.counter, inv.slots, ?_, inv.ran⟩
    intro j b here
    change Stays _ (Function.update s.left i .halt j)
    by_cases same : j = i
    · subst same
      rw [Function.update_self]
      trivial
    · rw [Function.update_of_ne same]
      exact inv.stays j b here

theorem run_inv (events : List (Event δ σ ι)) (world : σ) :
    Inv (run ctx verify own service events ⟨world, 0, [], fun _ => .halt, []⟩) := by
  have along := Runs.along_of_forall (next ctx verify own service) (P := fun _ _ => True) (fun _ _ => trivial) events
    ⟨world, 0, [], fun _ => .halt, []⟩
  exact Runs.invariant (I := Inv) (fun _ event _ inv => next_inv inv event) along (start_inv world)

theorem mem_slots (inv : Inv s) {i : Nat} {b : Built δ} (here : s.built[i]? = some b) {p : Int} :
    p ∈ b.pending.slots ↔ ∃ k, k < b.width ∧ asI32 (asked (s.built.take i) + k : Nat) = p := by
  rw [inv.slots i b here]
  simp

/-- While the counter has not come round, every position is taken once. -/
theorem Inv.disjoint (inv : Inv s) (few : asked s.built ≤ 2 ^ 32) {i j : Nat} {b b' : Built δ} (before : i < j)
    (here : s.built[i]? = some b) (there : s.built[j]? = some b') : ∀ p ∈ b'.pending.slots, p ∉ b.pending.slots := by
  intro p later earlier
  obtain ⟨k, less, same⟩ := (mem_slots inv here).mp earlier
  obtain ⟨k', less', same'⟩ := (mem_slots inv there).mp later
  -- the first construction ends before the second begins, and that one ends within the range
  have apart := @asked_take_mono δ s.built (i + 1) j before
  have last := @asked_take_le δ s.built (j + 1)
  rw [asked_take_succ here] at apart
  rw [asked_take_succ there] at last
  have equal := asI32_inj (by omega) (by omega) (same.trans same'.symm)
  omega

theorem Inv.ordered (inv : Inv s) (few : asked s.built ≤ 2 ^ 32) : Ordered s where
  slots := inv.slots
  free i j b b' before here there := inv.disjoint few before here there
  apart i j q q' p asked asked' at_ at_' := by
    obtain ⟨b, here, within⟩ := inv.ran i q asked
    obtain ⟨b', there, within'⟩ := inv.ran j q' asked'
    have mine := within p at_
    have yours := within' p at_'
    rcases Nat.lt_trichotomy i j with before | same | after
    · exact absurd mine (inv.disjoint few before here there p yours)
    · exact same
    · exact absurd yours (inv.disjoint few after there here p mine)

/-- The position that follows a full round is the first one again. -/
theorem asI32_round : asI32 (2 ^ 32 : Nat) = asI32 (0 : Nat) := by
  decide +kernel

theorem Inv.round (inv : Inv s) (many : 2 ^ 32 < asked s.built) : ¬ Ordered s := by
  intro ordered
  obtain ⟨i, b, here, above, below⟩ := exists_slot (Nat.lt_of_le_of_lt (Nat.zero_le (2 ^ 32)) many)
  obtain ⟨j, b', there, above', below'⟩ := exists_slot many
  have earlier : asI32 (0 : Nat) ∈ b.pending.slots := (mem_slots inv here).mpr ⟨0, by omega, by congr 1; omega⟩
  have later : asI32 (0 : Nat) ∈ b'.pending.slots := by
    refine (mem_slots inv there).mpr ⟨2 ^ 32 - asked (s.built.take j), by omega, ?_⟩
    rw [Nat.add_sub_of_le above']
    exact asI32_round
  by_cases before : i < j
  · exact ordered.free i j b b' before here there _ later earlier
  · -- a construction takes two positions at most
    have narrow : b'.width ≤ 2 := by
      unfold Built.width Call.width
      split <;> try split
      all_goals omega
    have order := @asked_take_mono δ s.built j i (by omega)
    have last := @asked_take_succ δ s.built b' j there
    by_cases same : i = j
    · subst same
      omega
    · have next := @asked_take_mono δ s.built (j + 1) i (by omega)
      omega

/-- The positions of every run follow the order of construction, exactly while they have not all been taken. -/
theorem ordered_iff (ctx : Context) (verify : Option Bool) (own : Nat) (service : Service δ σ ι)
    (events : List (Event δ σ ι)) (world : σ) :
    let s := run ctx verify own service events ⟨world, 0, [], fun _ => .halt, []⟩
    Ordered s ↔ asked s.built ≤ 2 ^ 32 := by
  have inv := @run_inv δ σ ι ctx verify own service events world
  refine ⟨fun ordered => ?_, inv.ordered⟩
  by_contra many
  exact inv.round (Nat.lt_of_not_le many) ordered

theorem asked_nows (fine : service.failure s.world = none) (n : Nat) :
    asked (run ctx verify own service (List.replicate n (.construct ⟨some own, false⟩ 0 (.op .now))) s).built =
      asked s.built + n := by
  induction n generalizing s with
  | zero => rfl
  | succ n ih =>
    have accepted : ¬ (s.site ctx own service ⟨some own, false⟩).Refuses (.op .now : Call δ) := by
      rintro ((elsewhere | failed | nested) | ⟨e, bad⟩)
      · exact elsewhere rfl
      · simp [State.site, fine] at failed
      · cases nested
      · cases bad
    have one (pending : PendingStep δ) :
        Built.width ⟨s.site ctx own service ⟨some own, false⟩, .op .now, pending⟩ = 1 := if_neg accepted
    rw [List.replicate_succ]
    change asked (run ctx verify own service _ (next ctx verify own service s _)).built = _
    rw [ih (by exact fine)]
    simp only [next, asked_append, one]
    omega

def memory (lib : SerdeJson) : Service δ Verify.State (Verify.Input δ) := ⟨Verify.answer lib, Verify.State.latch⟩

/-- The failing execution: one construction more than there are positions. -/
theorem reused_position :
    ¬ Ordered (run Context.plain none 0 (memory Context.plain.lib : Service Unit _ _)
      (List.replicate (2 ^ 32 + 1) (.construct ⟨some 0, false⟩ 0 (.op .now)))
      ⟨⟨Memory.Inner.new, none, {}, []⟩, 0, [], fun _ => .halt, []⟩) := by
  have count := @asked_nows Unit _ _ Context.plain none 0 (memory Context.plain.lib)
    ⟨⟨Memory.Inner.new, none, {}, []⟩, 0, [], fun _ => .halt, []⟩ rfl (2 ^ 32 + 1)
  refine Inv.round (run_inv ..) ?_
  rw [count]
  omega

end Runs

end Durare.Construction

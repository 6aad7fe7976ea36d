import Durare.Runs
import Durare.Signals
import Mathlib.Algebra.GroupWithZero.Nat

/-! Waiting for conditions of a shared store. A commit announces what it makes hold, a link that comes and goes
carries the announcements, and a waiter subscribes before it looks. -/
namespace Durare.Watching

open Signals

structure Conditions (σ : Type u) (ω : Type v) (κ : Type w) where
  ready : ω → σ → Bool
  topic : ω → κ
  announced : σ → σ → List κ

/-- What the commit makes hold, it announces. -/
def Conditions.Announces (c : Conditions σ ω κ) (before after : σ) : Prop :=
  ∀ w, c.ready w after = true → c.ready w before = true ∨ c.topic w ∈ c.announced before after

/-- While the link is up it holds what was announced; it comes up owing every waiter a signal. -/
inductive Link (κ : Type w) where
  | away
  | listening (inbox : List κ) (nudge : Bool)
deriving DecidableEq, Repr

namespace Link

def receive (announced : List κ) : Link κ → Link κ
  | away => away
  | listening inbox nudge => listening (inbox ++ announced) nudge

/-- A signal on the topic is to come, within so many turns of the link. -/
def Owes (topic : κ) (turns : Nat) : Link κ → Prop
  | away => False
  | listening inbox nudge => 0 < turns ∧ (nudge = true ∨ topic ∈ inbox.take turns)

/-- A signal on the topic is to come, now or once the link is up again. -/
def Promises (topic : κ) : Link κ → Prop
  | away => True
  | listening inbox nudge => nudge = true ∨ topic ∈ inbox

theorem Promises.receive {topic : κ} {link : Link κ} (promises : link.Promises topic) (announced : List κ) :
    (link.receive announced).Promises topic := by
  cases link with
  | away => trivial
  | listening inbox nudge => exact promises.imp_right (List.mem_append_left _)

theorem promises_announced {topic : κ} {announced : List κ} (member : topic ∈ announced) (link : Link κ) :
    (link.receive announced).Promises topic := by
  cases link with
  | away => trivial
  | listening inbox nudge => exact .inr (List.mem_append_right _ member)

theorem Owes.receive {topic : κ} {turns : Nat} {link : Link κ} (owes : link.Owes topic turns) (announced : List κ) :
    (link.receive announced).Owes topic turns := by
  cases link with
  | away => exact owes
  | listening inbox nudge =>
    refine ⟨owes.1, owes.2.imp_right fun member => ?_⟩
    rw [List.take_append]
    exact List.mem_append_left _ member

theorem not_owes_zero (topic : κ) (link : Link κ) : ¬ link.Owes topic 0 := by
  cases link with
  | away => exact id
  | listening inbox nudge => exact fun owes => absurd owes.1 (Nat.lt_irrefl 0)

/-- A link that is up keeps its promise within the length of its inbox, or at its next turn. -/
theorem Promises.owes {topic : κ} {inbox : List κ} {nudge : Bool} (promises : (listening inbox nudge).Promises topic) :
    (listening inbox nudge).Owes topic (max 1 inbox.length) := by
  refine ⟨by omega, promises.imp_right fun member => ?_⟩
  rw [List.take_of_length_le (Nat.le_max_right 1 _)]
  exact member

end Link

/-- A waiter that has subscribed, and one that has also looked and missed. One that missed what was there is
blind. -/
inductive Stage where
  | watching
  | missed (blind : Bool)
deriving DecidableEq, Repr

structure Watch (ω : Type v) where
  condition : ω
  subscription : Nat
  stage : Stage
deriving DecidableEq, Repr

structure System (σ : Type u) (ω : Type v) (κ : Type w) where
  store : σ
  board : Board κ
  link : Link κ
  watches : Nat → Option (Watch ω)

inductive Event (σ : Type u) (ω : Type v) where
  | commit (after : σ)
  | listen
  | lose
  | turn
  | watch (waiter : Nat) (condition : ω)
  | miss (waiter : Nat)
  | leave (waiter : Nat)

variable {σ : Type u} {ω : Type v} {κ : Type w} [DecidableEq κ] (c : Conditions σ ω κ)

def System.start (store : σ) : System σ ω κ := ⟨store, Board.new, .away, fun _ => none⟩

/-- One turn of the link: the signals it owes everyone, or the first announcement. -/
def System.turn (s : System σ ω κ) : System σ ω κ :=
  match s.link with
  | .listening inbox true => { s with board := s.board.signalAll, link := .listening inbox false }
  | .listening (topic :: inbox) false => { s with board := s.board.signal topic, link := .listening inbox false }
  | _ => s

def System.put (waiter : Nat) (watch : Option (Watch ω)) (s : System σ ω κ) : System σ ω κ :=
  { s with watches := fun other => if other = waiter then watch else s.watches other }

def next (s : System σ ω κ) : Event σ ω → System σ ω κ
  | .commit after => { s with store := after, link := s.link.receive (c.announced s.store after) }
  | .listen => if s.link matches .away then { s with link := .listening [] true } else s
  | .lose => { s with link := .away }
  | .turn => s.turn
  | .watch waiter condition =>
    if (s.watches waiter).isSome then s
    else
      let (subscription, board) := s.board.subscribe (c.topic condition)
      { s with board := board }.put waiter (some ⟨condition, subscription, .watching⟩)
  | .miss waiter =>
    match s.watches waiter with
    | some ⟨condition, subscription, .watching⟩ =>
      s.put waiter (some ⟨condition, subscription, .missed (c.ready condition s.store)⟩)
    | _ => s
  | .leave waiter =>
    match s.watches waiter with
    | some watch => { s with board := s.board.drop (c.topic watch.condition) watch.subscription }.put waiter none
    | none => s

/-- What the store's commits keep to. -/
def Lawful (s : System σ ω κ) : Event σ ω → Prop
  | .commit after => c.Announces s.store after
  | _ => True

def System.live (s : System σ ω κ) (n : Nat) (topic : κ) : Prop :=
  ∃ waiter watch, s.watches waiter = some watch ∧ watch.subscription = n ∧ c.topic watch.condition = topic

/-- The waiter holds a signal, or is promised one. -/
def System.Promised (s : System σ ω κ) (watch : Watch ω) : Prop :=
  s.board.permits watch.subscription = true ∨ s.link.Promises (c.topic watch.condition)

structure Kept (s : System σ ω κ) : Prop where
  tidy : Tidy s.board (s.live c)
  apart : ∀ waiter other watch watch', s.watches waiter = some watch → s.watches other = some watch' →
    watch.subscription = watch'.subscription → waiter = other
  promised : ∀ waiter watch, s.watches waiter = some watch → watch.stage = .missed false →
    c.ready watch.condition s.store = true → s.Promised c watch

variable {c} {s : System σ ω κ}

omit [DecidableEq κ] in
/-- A waiter of the new state is the one put in, or another that was there. -/
theorem put_cases {waiter other : Nat} {put : Option (Watch ω)} {watch : Watch ω}
    (found : (s.put waiter put).watches other = some watch) :
    (other = waiter ∧ put = some watch) ∨ (other ≠ waiter ∧ s.watches other = some watch) := by
  simp only [System.put] at found
  split at found
  next same => exact .inl ⟨same, found⟩
  next differs => exact .inr ⟨differs, found⟩

theorem kept_start (store : σ) : Kept c (System.start store) where
  tidy := Tidy.new.congr fun n topic => by
    constructor
    · rintro ⟨waiter, watch, found, -⟩
      cases found
    · exact False.elim
  apart _ _ _ _ found := by cases found
  promised _ _ found := by cases found

namespace Kept

variable (kept : Kept c s)

include kept

theorem listed {waiter : Nat} {watch : Watch ω} (found : s.watches waiter = some watch) :
    watch.subscription ∈ s.board.listed (c.topic watch.condition) :=
  (kept.tidy.lists _ _).mpr ⟨waiter, watch, found, rfl, rfl⟩

theorem older {waiter : Nat} {watch : Watch ω} (found : s.watches waiter = some watch) :
    watch.subscription < s.board.fresh :=
  kept.tidy.bounded _ _ ⟨waiter, watch, found, rfl, rfl⟩

theorem commit {after : σ} (announces : c.Announces s.store after) : Kept c (next c s (.commit after)) where
  tidy := kept.tidy
  apart := kept.apart
  promised waiter watch found missed ready := by
    rcases announces _ ready with before | announced
    · exact (kept.promised waiter watch found missed before).imp_right fun promises => promises.receive _
    · exact .inr (Link.promises_announced announced _)

theorem listen : Kept c (next c s .listen) := by
  simp only [next]
  split
  · exact ⟨kept.tidy, kept.apart, fun _ _ _ _ _ => .inr (.inl rfl)⟩
  · exact kept

theorem lose : Kept c (next c s .lose) :=
  ⟨kept.tidy, kept.apart, fun _ _ _ _ _ => .inr trivial⟩

theorem turn : Kept c (next c s .turn) := by
  simp only [next, System.turn]
  split
  · refine ⟨kept.tidy.notify _, kept.apart, fun waiter watch found _ _ => .inl ?_⟩
    exact Board.permits_signalAll (kept.listed found)
  next topic inbox linked =>
    refine ⟨kept.tidy.notify _, kept.apart, fun waiter watch found missed ready => ?_⟩
    rcases kept.promised waiter watch found missed ready with held | promises
    · refine .inl ?_
      simp only [Board.signal, Board.permits_notify, held, Bool.or_true]
    · rw [linked] at promises
      rcases promises with nudge | member
      · cases nudge
      · rcases List.mem_cons.mp member with same | later
        · exact .inl (Board.permits_signal (same ▸ kept.listed found))
        · exact .inr (.inr later)
  · exact kept

theorem watch (waiter : Nat) (condition : ω) : Kept c (next c s (.watch waiter condition)) := by
  simp only [next]
  split
  · exact kept
  next vacant =>
  rw [Option.not_isSome_iff_eq_none] at vacant
  refine ⟨(kept.tidy.subscribe (c.topic condition)).congr fun n topic => ?_, ?_, ?_⟩
  · constructor
    · rintro ⟨other, watch, found, numbered, named⟩
      rcases put_cases found with ⟨-, new⟩ | ⟨-, old⟩
      · cases new
        exact .inl ⟨numbered.symm, named.symm⟩
      · exact .inr ⟨other, watch, old, numbered, named⟩
    · rintro (⟨rfl, rfl⟩ | ⟨other, watch, found, numbered, named⟩)
      · exact ⟨waiter, _, if_pos rfl, rfl, rfl⟩
      · have differs : other ≠ waiter := by
          rintro rfl
          rw [vacant] at found
          cases found
        exact ⟨other, watch, (if_neg differs).trans found, numbered, named⟩
  · intro one other watch watch' found found' same
    rcases put_cases found with ⟨here, new⟩ | ⟨-, old⟩ <;> rcases put_cases found' with ⟨here', new'⟩ | ⟨-, old'⟩
    · rw [here, here']
    · cases new
      exact absurd same (Nat.ne_of_gt (kept.older old'))
    · cases new'
      exact absurd same (Nat.ne_of_lt (kept.older old))
    · exact kept.apart one other watch watch' old old' same
  · intro other watch found missed ready
    rcases put_cases found with ⟨-, new⟩ | ⟨-, old⟩
    · cases new
      cases missed
    · refine (kept.promised other watch old missed ready).imp_left fun held => ?_
      exact (Board.permits_subscribe (kept.older old)).trans held

theorem miss (waiter : Nat) : Kept c (next c s (.miss waiter)) := by
  simp only [next]
  split
  next condition subscription found =>
    refine ⟨kept.tidy.congr fun n topic => ?_, ?_, ?_⟩
    · constructor
      · rintro ⟨other, watch, found', numbered, named⟩
        rcases put_cases found' with ⟨-, new⟩ | ⟨-, old⟩
        · cases new
          exact ⟨waiter, _, found, numbered, named⟩
        · exact ⟨other, watch, old, numbered, named⟩
      · rintro ⟨other, watch, found', numbered, named⟩
        by_cases same : other = waiter
        · rw [same, found, Option.some_inj] at found'
          subst found'
          exact ⟨waiter, _, if_pos rfl, numbered, named⟩
        · exact ⟨other, watch, (if_neg same).trans found', numbered, named⟩
    · intro one other watch watch' found₁ found₂ same
      rcases put_cases found₁ with ⟨here₁, new₁⟩ | ⟨-, old₁⟩ <;>
        rcases put_cases found₂ with ⟨here₂, new₂⟩ | ⟨-, old₂⟩
      · rw [here₁, here₂]
      · cases new₁
        rw [here₁]
        exact kept.apart waiter other _ watch' found old₂ same
      · cases new₂
        rw [here₂]
        exact kept.apart one waiter watch _ old₁ found same
      · exact kept.apart one other watch watch' old₁ old₂ same
    · intro other watch found' missed ready
      rcases put_cases found' with ⟨-, new⟩ | ⟨-, old⟩
      · cases new
        rw [Stage.missed.injEq] at missed
        exact absurd ready (by simp [System.put, missed])
      · exact kept.promised other watch old missed ready
  · exact kept

theorem leave (waiter : Nat) : Kept c (next c s (.leave waiter)) := by
  simp only [next]
  split
  next watch found =>
    have only : ∀ topic, s.live c watch.subscription topic → topic = c.topic watch.condition := by
      rintro topic ⟨other, watch', found', numbered, rfl⟩
      have same := kept.apart other waiter watch' watch found' found numbered
      rw [same, found, Option.some_inj] at found'
      rw [found']
    refine ⟨(kept.tidy.drop only).congr fun n topic => ?_, ?_, ?_⟩
    · constructor
      · rintro ⟨other, watch', found', numbered, named⟩
        rcases put_cases found' with ⟨-, gone⟩ | ⟨differs, old⟩
        · cases gone
        · refine ⟨?_, other, watch', old, numbered, named⟩
          intro same
          exact differs (kept.apart other waiter watch' watch old found (numbered.trans same))
      · rintro ⟨differs, other, watch', found', numbered, named⟩
        have apart : other ≠ waiter := by
          rintro rfl
          rw [found, Option.some_inj] at found'
          subst found'
          exact differs numbered.symm
        exact ⟨other, watch', (if_neg apart).trans found', numbered, named⟩
    · intro one other watch₁ watch₂ found₁ found₂ same
      rcases put_cases found₁ with ⟨-, gone⟩ | ⟨-, old₁⟩
      · cases gone
      rcases put_cases found₂ with ⟨-, gone⟩ | ⟨-, old₂⟩
      · cases gone
      exact kept.apart one other watch₁ watch₂ old₁ old₂ same
    · intro other watch' found' missed ready
      rcases put_cases found' with ⟨-, gone⟩ | ⟨-, old⟩
      · cases gone
      · refine (kept.promised other watch' old missed ready).imp_left fun held => ?_
        exact (congrFun (Board.permits_drop ..) _).trans held
  · exact kept

theorem step {event : Event σ ω} (lawful : Lawful c s event) : Kept c (next c s event) := by
  cases event with
  | commit after => exact kept.commit lawful
  | listen => exact kept.listen
  | lose => exact kept.lose
  | turn => exact kept.turn
  | watch waiter condition => exact kept.watch waiter condition
  | miss waiter => exact kept.miss waiter
  | leave waiter => exact kept.leave waiter

theorem run {events : List (Event σ ω)} (lawful : Runs.Along (next c) (Lawful c) events s) :
    Kept c (Runs.run (next c) events s) :=
  Runs.invariant (fun _ _ lawful kept => kept.step lawful) lawful kept

end Kept

variable (c) in
/-- The waiter holds a signal, or is owed one within so many turns. -/
def System.Due (s : System σ ω κ) (watch : Watch ω) (turns : Nat) : Prop :=
  s.board.permits watch.subscription = true ∨ s.link.Owes (c.topic watch.condition) turns

/-- A signal that is held stays until its subscription goes. -/
theorem permits_turn {n : Nat} (held : s.board.permits n = true) : s.turn.board.permits n = true := by
  unfold System.turn
  split <;> simp [Board.signalAll, Board.signal, held]

theorem turn_due (kept : Kept c s) {waiter : Nat} {watch : Watch ω} (found : s.watches waiter = some watch) {turns : Nat}
    (due : s.Due c watch (turns + 1)) : s.turn.Due c watch turns := by
  obtain held | owes := due
  · exact .inl (permits_turn held)
  have listed := kept.listed found
  cases linked : s.link with
  | away =>
    rw [linked] at owes
    exact owes.elim
  | listening inbox nudge =>
    rw [linked] at owes
    obtain ⟨-, owes⟩ := owes
    cases nudge with
    | true =>
      refine .inl ?_
      simp only [System.turn, linked]
      exact Board.permits_signalAll listed
    | false =>
      have member := owes.resolve_left Bool.false_ne_true
      cases inbox with
      | nil => cases member
      | cons topic inbox =>
        simp only [System.Due, System.turn, linked]
        rw [List.take_succ_cons] at member
        rcases List.mem_cons.mp member with same | later
        · exact .inl (Board.permits_signal (same ▸ listed))
        · refine .inr ⟨?_, .inr later⟩
          by_contra none
          rw [Nat.eq_zero_of_not_pos none] at later
          cases later

def Event.turns : Event σ ω → Nat
  | .turn => 1
  | _ => 0

/-- The link is not lost, and the waiter does not leave. -/
def Lasting (waiter : Nat) : Event σ ω → Prop
  | .lose => False
  | .leave other => other ≠ waiter
  | _ => True

/-- A link that is up stays up until it is lost. -/
theorem step_up {waiter : Nat} {event : Event σ ω} (lasting : Lasting waiter event) (up : s.link ≠ .away) :
    (next c s event).link ≠ .away := by
  cases event with
  | commit after =>
    simp only [next]
    cases linked : s.link with
    | away => exact absurd linked up
    | listening inbox nudge => simp [Link.receive]
  | listen =>
    simp only [next]
    split
    · simp
    · exact up
  | lose => exact lasting.elim
  | turn =>
    simp only [next, System.turn]
    split
    · simp
    · simp
    · exact up
  | watch other condition =>
    simp only [next]
    split <;> exact up
  | miss other =>
    simp only [next]
    split <;> exact up
  | leave other =>
    simp only [next]
    split <;> exact up

theorem run_up {waiter : Nat} {events : List (Event σ ω)} (lasting : ∀ event ∈ events, Lasting waiter event)
    (up : s.link ≠ .away) : (Runs.run (next c) events s).link ≠ .away := by
  induction events generalizing s with
  | nil => exact up
  | cons event events ih =>
    exact ih (fun e member => lasting e (List.mem_cons_of_mem _ member)) (step_up (lasting event List.mem_cons_self) up)

omit [DecidableEq κ] in
theorem due_zero {watch : Watch ω} (due : s.Due c watch 0) : s.board.permits watch.subscription = true :=
  due.resolve_right (Link.not_owes_zero _ _)

/-- The waiter stays where it is, and each turn brings its signal nearer. -/
theorem step_due (kept : Kept c s) {waiter : Nat} {watch : Watch ω} (found : s.watches waiter = some watch) {blind : Bool}
    (missed : watch.stage = .missed blind) {event : Event σ ω} (lasting : Lasting waiter event) {turns : Nat}
    (due : s.Due c watch turns) :
    (next c s event).watches waiter = some watch ∧ (next c s event).Due c watch (turns - event.turns) := by
  cases event with
  | commit after => exact ⟨found, due.imp_right fun owes => owes.receive _⟩
  | listen =>
    simp only [next]
    split
    next linked =>
      refine ⟨found, due.imp_right fun owes => ?_⟩
      cases away : s.link with
      | away =>
        rw [away] at owes
        exact owes.elim
      | listening inbox nudge => simp [away] at linked
    · exact ⟨found, due⟩
  | lose => exact lasting.elim
  | turn =>
    have stays : s.turn.watches waiter = some watch := by
      unfold System.turn
      split <;> exact found
    refine ⟨stays, ?_⟩
    cases turns with
    | zero => exact .inl (permits_turn (due_zero due))
    | succ turns => exact turn_due kept found due
  | watch other condition =>
    simp only [next]
    split
    · exact ⟨found, due⟩
    next vacant =>
      have differs : waiter ≠ other := by
        rintro rfl
        simp [found] at vacant
      refine ⟨(if_neg differs).trans found, due.imp_left fun held => ?_⟩
      exact (Board.permits_subscribe (kept.older found)).trans held
  | miss other =>
    simp only [next]
    split
    next watching =>
      have differs : waiter ≠ other := by
        rintro rfl
        rw [watching, Option.some_inj] at found
        rw [← found] at missed
        cases missed
      exact ⟨(if_neg differs).trans found, due⟩
    · exact ⟨found, due⟩
  | leave other =>
    have differs : waiter ≠ other := Ne.symm lasting
    simp only [next]
    split
    · refine ⟨(if_neg differs).trans found, due.imp_left fun held => ?_⟩
      exact (congrFun (Board.permits_drop ..) _).trans held
    · exact ⟨found, due⟩

omit [DecidableEq κ] in
theorem System.Due.mono {watch : Watch ω} {turns more : Nat} (due : s.Due c watch turns) (le : turns ≤ more) :
    s.Due c watch more := by
  refine due.imp_right fun owes => ?_
  cases linked : s.link with
  | away =>
    rw [linked] at owes
    exact owes.elim
  | listening inbox nudge =>
    rw [linked] at owes
    exact ⟨by have := owes.1; omega, owes.2.imp_right fun member => (List.take_subset_take_left inbox le) member⟩

/-- Whatever else goes on, each turn of the link brings the signal nearer. -/
theorem run_due {events : List (Event σ ω)} (kept : Kept c s) (lawful : Runs.Along (next c) (Lawful c) events s)
    {waiter : Nat} {watch : Watch ω} (found : s.watches waiter = some watch) {blind : Bool}
    (missed : watch.stage = .missed blind) (lasting : ∀ event ∈ events, Lasting waiter event) {turns : Nat}
    (due : s.Due c watch turns) :
    (Runs.run (next c) events s).watches waiter = some watch ∧
      (Runs.run (next c) events s).Due c watch (turns - (events.map Event.turns).sum) := by
  induction events generalizing s turns with
  | nil => exact ⟨found, due⟩
  | cons event events ih =>
    obtain ⟨stays, nearer⟩ := step_due kept found missed (lasting event List.mem_cons_self) due
    have rest := ih (kept.step lawful.1) lawful.2 stays (fun e member => lasting e (List.mem_cons_of_mem _ member)) nearer
    rw [Nat.sub_sub] at rest
    exact rest

end Durare.Watching

import Durare.Listening

/-! The provider with its listener and its callers is a system of waiters and a link, and so no wakeup is lost. -/
namespace Durare.Wakeups

open Signals Sqlite

namespace Provider

variable {lib : SerdeJson} {serializer : Serializer} {s : Provider}

/-- The event leaves a parked call and the listener's session alone. -/
def Spares (waiter : Nat) : Event → Prop
  | .listener outcome => outcome = .ok
  | .wake other | .elapse other | .drop other => other ≠ waiter
  | _ => True

/-- The step is a run of the system, in which a parked call that is spared stays. -/
structure Moves (event : Event) (s s' : Provider) (moves : List (Watching.Event Db ChangeWait)) : Prop where
  system : s'.system = Runs.run (Watching.next conditions) moves s.system
  lawful : Runs.Along (Watching.next conditions) (Watching.Lawful conditions) moves s.system
  spared : ∀ waiter waits n blind, s.waiters waiter = some ⟨waits, .parked n blind⟩ → Spares waiter event →
    ∀ move ∈ moves, Watching.Lasting waiter move

variable {event : Event}

theorem moves_none {s' : Provider} (same : s'.system = s.system) : Moves event s s' [] :=
  ⟨same, trivial, fun _ _ _ _ _ _ _ member => by cases member⟩

theorem link_receive (phase : Phase) (announced : List String) :
    (phase.receive announced).link = phase.link.receive announced := by
  cases phase <;> rfl

theorem system_put (waiter : Nat) (w : Option Waiter) (s : Provider) :
    (s.put waiter w).system = s.system.put waiter (w.bind Waiter.watch) := by
  simp only [put, system, Watching.System.put, Watching.System.mk.injEq, true_and]
  funext other
  split <;> rfl

/-- To write back what is there changes nothing. -/
theorem system_put_same {waiter : Nat} {watch : Option (Watching.Watch ChangeWait)} (same : s.system.watches waiter =
    watch) :
    s.system.put waiter watch = s.system := by
  subst same
  simp only [Watching.System.put]
  congr
  funext other
  split
  next here =>
    rw [here]
    rfl
  · rfl

theorem system_commit (after : Db) :
    (s.commit after).system = Watching.next conditions s.system (.commit after) := by
  simp only [commit, system, Watching.next, link_receive]
  rfl

theorem system_leave {waiter : Nat} {w : Waiter} (w' : Waiter) (found : s.waiters waiter = some w)
    (without : w'.control = .looping) :
    ((s.release w).put waiter (some w')).system = Watching.next conditions s.system (.leave waiter) ∧
      (s.leave waiter w).system = Watching.next conditions s.system (.leave waiter) := by
  have gone : w'.watch = none := by simp [Waiter.watch, without, Control.stage]
  have watched : s.system.watches waiter = w.watch := by simp [system, found]
  have both (rest : Option Waiter) (none : rest.bind Waiter.watch = none) :
      ((s.release w).put waiter rest).system = Watching.next conditions s.system (.leave waiter) := by
    rw [system_put, none]
    cases stage : w.control.stage with
    | none =>
      have absent : w.watch = Option.none := by simp [Waiter.watch, stage]
      rw [absent] at watched
      simp only [Watching.next, watched, release, stage]
      exact system_put_same watched
    | some held =>
      have present : w.watch = some ⟨w.waits.change, held.1, held.2⟩ := by simp [Waiter.watch, stage]
      rw [present] at watched
      simp only [Watching.next, watched, release, stage]
      rfl
  exact ⟨both (some w') gone, both none rfl⟩

theorem unparked {waits : Waits} {control : Control} {goal : Prop} (elsewhere : ∀ n blind,
    control ≠ .parked n blind := by simp) :
    (∃ n blind, (⟨waits, control⟩ : Waiter).control = .parked n blind) → goal := by
  rintro ⟨n, blind, parked⟩
  exact absurd parked (elsewhere n blind)

theorem lasting_leave {waiter : Nat} {w : Waiter} (found : s.waiters waiter = some w)
    (ends : (∃ n blind, w.control = .parked n blind) →
    ¬ Spares waiter event) {other n : Nat} {waits : Waits} {blind : Bool}
    (parked : s.waiters other = some ⟨waits, .parked n blind⟩) (spares : Spares other event) :
    Watching.Lasting (σ := Db) (ω := ChangeWait) other (.leave waiter) := by
  rintro rfl
  rw [found, Option.some_inj] at parked
  exact ends ⟨n, blind, by rw [parked]⟩ spares

theorem moves_leave {waiter : Nat} {w : Waiter} (found : s.waiters waiter = some w)
    (ends : (∃ n blind, w.control = .parked n blind) → ¬ Spares waiter event) :
    Moves event s (s.leave waiter w) [.leave waiter] where
  system := (system_leave ⟨w.waits, .looping⟩ found rfl).2
  lawful := ⟨trivial, trivial⟩
  spared other waits n blind parked spares move member := by
    rw [List.mem_singleton.mp member]
    exact lasting_leave found ends parked spares

theorem moves_loop {waiter : Nat} {w : Waiter} (found : s.waiters waiter = some w)
    (ends : (∃ n blind, w.control = .parked n blind) → ¬ Spares waiter event) :
    Moves event s ((s.release w).put waiter (some ⟨w.waits, .looping⟩)) [.leave waiter] :=
  { moves_leave found ends with system := (system_leave _ found rfl).1 }

/-- A claim that took its message ends the call. -/
theorem moves_claimed {waiter : Nat} {w : Waiter} (found : s.waiters waiter = some w)
    (ends : (∃ n blind, w.control = .parked n blind) →
    ¬ Spares waiter event) {after : Db} (forward : Forward s.db after) :
    Moves event s ((s.commit after).leave waiter w) [.commit after, .leave waiter] where
  system := by
    have left := (system_leave (s := s.commit after) ⟨w.waits, .looping⟩ found rfl).2
    rw [left, system_commit]
    rfl
  lawful := ⟨forward.announces, trivial, trivial⟩
  spared other waits n blind parked spares move member := by
    rcases List.mem_cons.mp member with rfl | left
    · trivial
    · rw [List.mem_singleton.mp left]
      exact lasting_leave found ends parked spares

theorem moves_on {waiter : Nat} {w w' : Waiter} (found : s.waiters waiter = some w) (same : w'.watch = w.watch) :
    Moves event s (s.put waiter (some w')) [] := by
  refine moves_none ?_
  rw [system_put, Option.bind_some, same]
  exact system_put_same (by simp [system, found])

theorem moves_miss {waiter n : Nat} {w w' : Waiter} (found : s.waiters waiter = some w)
    (watching : w.control.stage = some (n, .watching)) (waits : w'.waits = w.waits)
    (missed : w'.control.stage = some (n, .missed (w.waits.change.ready s.db))) :
    Moves event s (s.put waiter (some w')) [.miss waiter] := by
  refine ⟨?_, ⟨trivial, trivial⟩, fun _ _ _ _ _ _ move member => by rw [List.mem_singleton.mp member]; trivial⟩
  have before : s.system.watches waiter = some ⟨w.waits.change, n, .watching⟩ := by
    simp [system, found, Waiter.watch, watching]
  have after : w'.watch = some ⟨w.waits.change, n, .missed (w.waits.change.ready s.db)⟩ := by
    simp [Waiter.watch, missed, waits]
  rw [system_put, Option.bind_some, after]
  simp only [Runs.run_cons, Runs.run_nil, Watching.next, before]
  rfl

theorem oldestTied_none {id topic : String} {mail : List NotificationRecord} {choice : Nat}
    (none : (oldestTied id topic mail)[choice % (oldestTied id topic mail).length]? = none) :
    mail.any (waiting id topic) = false := by
  have empty : oldestTied id topic mail = [] := by
    by_contra nonempty
    have bound := Nat.mod_lt choice (List.length_pos_iff.mpr nonempty)
    exact absurd none (by simp [List.getElem?_eq_getElem bound])
  rw [← Bool.not_eq_true, List.any_eq_true]
  rintro ⟨n, member, waits⟩
  obtain ⟨place, inside, rfl⟩ := List.getElem_of_mem member
  have candidate : (mail[place], place) ∈ mail.zipIdx.filter fun n => waiting id topic n.1 :=
    List.mem_filter.mpr ⟨List.mk_mem_zipIdx_iff_getElem?.mpr (List.getElem?_eq_getElem inside), waits⟩
  obtain ⟨oldest, least⟩ := Option.ne_none_iff_exists'.mp fun none =>
    List.ne_nil_of_mem candidate (List.argmin_eq_none (f := fun n : NotificationRecord × Nat =>
      n.1.createdAtMs).mp none)
  have tied : oldest ∈ oldestTied id topic mail := by
    refine List.mem_filter.mpr ⟨List.argmin_mem least, List.all_eq_true.mpr fun other among => ?_⟩
    have below := List.le_of_mem_argmin (f := fun n : NotificationRecord × Nat => n.1.createdAtMs) among least
    exact decide_eq_true below
  rw [empty] at tied
  cases tied

def linkMoves (phase : Phase) (token : Bool) (outcome : Outcome) : List (Watching.Event Db ChangeWait) :=
  match phase, outcome with
  | .subscribing, .ok | .reconnecting, .ok => [.listen]
  | .nudging _, .ok | .receiving _, .ok | .renudging _, .ok => [.turn]
  | .receiving _, .lost | .receiving _, .err => [.lose]
  | .receiving _, .cancelled => if token then [.lose] else []
  | _, _ => []

theorem moves_listener (outcome : Outcome) : Moves (.listener outcome) s (next lib serializer s (.listener outcome))
    (linkMoves s.listener.phase s.token outcome) := by
  obtain ⟨db, hub, ⟨phase, backoff⟩, token, waiters⟩ := s
  have lasts : outcome = .ok → ∀ waiter, ∀ move ∈ linkMoves phase token outcome, Watching.Lasting waiter move := by
    rintro rfl waiter move member
    cases phase <;> simp [linkMoves] at member <;> subst member <;> trivial
  refine ⟨?_, ?_, fun waiter _ _ _ _ spares => lasts spares waiter⟩
  all_goals
    cases phase with
    | receiving inbox => cases outcome <;> cases inbox <;> cases token <;> first | rfl | simp [linkMoves,
      Watching.Lawful]
    | _ => cases outcome <;> cases token <;> first | rfl | simp [linkMoves, Watching.Lawful]

variable (lib serializer) in
theorem simulates (event : Event) (proper : s.Proper event) :
    ∃ moves, Moves event s (s.next lib serializer event) moves := by
  cases event with
  | commit transaction =>
    exact ⟨[.commit (transaction.run lib serializer s.db)], system_commit _,
      ⟨(transaction.forward proper).announces, trivial⟩,
      fun _ _ _ _ _ _ move member => by rw [List.mem_singleton.mp member]; trivial⟩
  | cancel => exact ⟨[], moves_none rfl⟩
  | listener outcome => exact ⟨_, moves_listener outcome⟩
  | start waiter waits =>
    simp only [next]
    split
    · exact ⟨[], moves_none rfl⟩
    next vacant =>
      refine ⟨[], moves_none ?_⟩
      rw [system_put]
      refine system_put_same ?_
      simp [system, Option.not_isSome_iff_eq_none.mp vacant, Waiter.watch, Control.stage]
  | watch waiter =>
    simp only [next]
    split
    next waits found =>
      refine ⟨[.watch waiter waits.change], ?_, ⟨trivial, trivial⟩,
        fun _ _ _ _ _ _ move member => by rw [List.mem_singleton.mp member]; trivial⟩
      have vacant : s.system.watches waiter = none := by simp [system, found, Waiter.watch, Control.stage]
      simp only [system_put, Runs.run_cons, Runs.run_nil, Watching.next, vacant]
      rfl
    · exact ⟨[], moves_none rfl⟩
  | read waiter =>
    simp only [next]
    split
    next id topic seq n found =>
      split
      · exact ⟨_, moves_leave found unparked⟩
      · exact ⟨_, moves_on found rfl⟩
    next target key n found =>
      split
      next absent =>
        refine ⟨_, moves_miss found rfl rfl ?_⟩
        have none : s.db.workflowEvents.get (target, key) = none := by
          cases stored : s.db.workflowEvents.get (target, key) with
          | none => rfl
          | some value => 
            simp only [getEventValue, stored] at absent
            cases decoded : decode lib serializer value.2 value.1 <;> simp [decoded, Except.map] at absent
        simp [Control.stage, Waits.change, ChangeWait.ready, none]
      · exact ⟨_, moves_leave found unparked⟩
    · exact ⟨[], moves_none rfl⟩
  | pick waiter choice =>
    simp only [next]
    split
    next id topic seq n found =>
      split
      · exact ⟨_, moves_on found rfl⟩
      next none =>
        refine ⟨_, moves_miss found rfl rfl ?_⟩
        simp [Control.stage, Waits.change, ChangeWait.ready, oldestTied_none none]
    · exact ⟨[], moves_none rfl⟩
  | claim waiter now =>
    simp only [next]
    split
    next id topic seq n message found =>
      split
      next answer after claimed =>
        have forward := @Transaction.forward lib serializer (.claimNotification now id seq "DBOS.recv" message)
          s.db trivial
        simp only [Transaction.run, claimed, Option.map_some, Option.getD_some] at forward
        exact ⟨_, moves_claimed found unparked forward⟩
      next none => exact ⟨_, moves_miss found rfl rfl rfl⟩
    · exact ⟨[], moves_none rfl⟩
  | reread waiter =>
    simp only [next]
    split
    next id topic seq n blind found =>
      split
      · exact ⟨_, moves_leave found unparked⟩
      · exact ⟨_, moves_on found rfl⟩
    · exact ⟨[], moves_none rfl⟩
  | park waiter =>
    simp only [next]
    split
    next waits n blind found => exact ⟨_, moves_on found rfl⟩
    · exact ⟨[], moves_none rfl⟩
  | wake waiter =>
    simp only [next]
    split
    next waits n blind found =>
      split
      · exact ⟨_, moves_loop found fun _ spares => spares rfl⟩
      · exact ⟨[], moves_none rfl⟩
    · exact ⟨[], moves_none rfl⟩
  | elapse waiter =>
    simp only [next]
    split
    next waits n blind found => exact ⟨_, moves_loop found fun _ spares => spares rfl⟩
    · exact ⟨[], moves_none rfl⟩
  | drop waiter =>
    simp only [next]
    split
    next w found => exact ⟨_, moves_leave found fun _ spares => spares rfl⟩
    · exact ⟨[], moves_none rfl⟩

variable (lib serializer) in
def run (events : List Event) (s : Provider) : Provider := Runs.run (next lib serializer) events s

variable (lib serializer) in
/-- Only the transactions named here touch the mailboxes. -/
def ProperRun (events : List Event) (s : Provider) : Prop := Runs.Along (next lib serializer) Proper events s

theorem kept_run {events : List Event} (proper : ProperRun lib serializer events s)
    (kept : Watching.Kept conditions s.system) : Watching.Kept conditions (run lib serializer events s).system :=
  Runs.invariant (I := fun s => Watching.Kept conditions s.system) (fun _ event proper kept => by
    obtain ⟨moves, moved⟩ := simulates lib serializer event proper
    rw [moved.system]
    exact kept.run moved.lawful) proper kept

/-- A `get_event` misses nothing that is there; a `recv` does where a rival takes the message it was about to. -/
def Sighted (w : Waiter) : Prop :=
  match w with
  | ⟨.recv _ _ _, _⟩ => True
  | ⟨.getEvent _ _, .missed _ blind⟩ | ⟨.getEvent _ _, .parked _ blind⟩ => blind = false
  | ⟨.getEvent _ _, .looping⟩ | ⟨.getEvent _ _, .watching _⟩ => True
  | _ => False

def AllSighted (s : Provider) : Prop := ∀ waiter w, s.waiters waiter = some w → Sighted w

theorem AllSighted.put {s : Provider} (sighted : AllSighted s) {waiter : Nat} {w : Option Waiter}
    (here : ∀ w' ∈ w, Sighted w') : AllSighted (s.put waiter w) := by
  intro other w' found
  simp only [Provider.put] at found
  split at found
  · exact here w' found
  · exact sighted other w' found

@[simp] theorem waiters_release (w : Waiter) (s : Provider) : (s.release w).waiters = s.waiters := by
  unfold release
  split <;> rfl

theorem AllSighted.loop {s : Provider} (sighted : AllSighted s) (waiter : Nat) (w : Waiter) :
    AllSighted ((s.release w).put waiter (some ⟨w.waits, .looping⟩)) := by
  have released : AllSighted (s.release w) := by
    intro other w' found
    rw [waiters_release] at found
    exact sighted other w' found
  refine released.put fun w' same => ?_
  rw [Option.mem_some_iff] at same
  rw [← same]
  obtain ⟨_ | _, _⟩ := w <;> trivial

theorem AllSighted.leave {s : Provider} (sighted : AllSighted s) (waiter : Nat) (w : Waiter) :
    AllSighted (s.leave waiter w) := by
  refine AllSighted.put (fun other w' found => ?_) fun w' same => by cases same
  rw [waiters_release] at found
  exact sighted other w' found

theorem AllSighted.step (sighted : AllSighted s) (event : Event) : AllSighted (s.next lib serializer event) := by
  cases event with
  | commit transaction => exact sighted
  | cancel => exact sighted
  | listener outcome => exact sighted
  | start waiter waits =>
    simp only [next]
    split
    · exact sighted
    · refine sighted.put fun w' same => ?_
      rw [Option.mem_some_iff] at same
      rw [← same]
      cases waits <;> trivial
  | watch waiter =>
    simp only [next]
    split
    next waits found =>
      refine AllSighted.put (s := { s with hub := _ }) sighted fun w' same => ?_
      rw [Option.mem_some_iff] at same
      rw [← same]
      cases waits <;> trivial
    · exact sighted
  | read waiter =>
    simp only [next]
    split
    · split
      · exact sighted.leave _ _
      · exact sighted.put fun w' same => by cases same; trivial
    · split
      · exact sighted.put fun w' same => by cases same; rfl
      · exact sighted.leave _ _
    · exact sighted
  | pick waiter choice =>
    simp only [next]
    split
    · split <;> exact sighted.put fun w' same => by cases same; trivial
    · exact sighted
  | claim waiter now =>
    simp only [next]
    split
    · split
      · exact AllSighted.leave (s := s.commit _) sighted _ _
      · exact sighted.put fun w' same => by cases same; trivial
    · exact sighted
  | reread waiter =>
    simp only [next]
    split
    · split
      · exact sighted.leave _ _
      · exact sighted.put fun w' same => by cases same; trivial
    · exact sighted
  | park waiter =>
    simp only [next]
    split
    next waits n blind found =>
      refine sighted.put fun w' same => ?_
      rw [Option.mem_some_iff] at same
      rw [← same]
      have before := sighted waiter _ found
      cases waits <;> exact before
    · exact sighted
  | wake waiter =>
    simp only [next]
    split
    · split
      · exact sighted.loop _ _
      · exact sighted
    · exact sighted
  | elapse waiter =>
    simp only [next]
    split
    · exact sighted.loop _ _
    · exact sighted
  | drop waiter =>
    simp only [next]
    split
    · exact sighted.leave _ _
    · exact sighted

theorem sighted_run (events : List Event) (db : Db) : AllSighted (run lib serializer events (start db)) :=
  Runs.invariant (P := fun _ _ => True) (fun _ event _ sighted => sighted.step event)
    (Runs.along_of_forall _ (fun _ _ => trivial) _ _) fun _ _ found => by cases found

theorem watches_parked {waiter n : Nat} {waits : Waits} {blind : Bool}
    (parked : s.waiters waiter = some ⟨waits, .parked n blind⟩) :
    s.system.watches waiter = some ⟨waits.change, n, .missed blind⟩ := by
  simp [system, parked, Waiter.watch, Control.stage]

/-- A parked call whose condition holds has a signal, or is promised one. -/
theorem promised_run (db : Db) {events : List Event} (proper : ProperRun lib serializer events (start db))
    {waiter n : Nat} {waits : Waits} {blind : Bool}
    (parked : (run lib serializer events (start db)).waiters waiter = some ⟨waits, .parked n blind⟩)
    (saw : blind = false ∨ ∃ target key, waits = .getEvent target key)
    (ready : waits.change.ready (run lib serializer events (start db)).db = true) :
    (run lib serializer events (start db)).hub.permits n = true ∨
      (run lib serializer events (start db)).listener.phase.link.Promises waits.change.hubKey := by
  have clear : blind = false := by
    rcases saw with clear | ⟨target, key, rfl⟩
    · exact clear
    · exact sighted_run events db waiter _ parked
  subst clear
  exact (kept_run proper (Watching.kept_start db)).promised waiter _ (watches_parked parked) rfl ready

/-- Nobody waits in vain for what is there, unless a rival took the message that its claim had picked: while the
listener receives, a parked call holds its signal or its announcement is still in the inbox. -/
theorem no_lost_wakeup (db : Db) {events : List Event} (proper : ProperRun lib serializer events (start db))
    {waiter n : Nat} {waits : Waits} {blind : Bool}
    (parked : (run lib serializer events (start db)).waiters waiter = some ⟨waits, .parked n blind⟩)
    (saw : blind = false ∨ ∃ target key, waits = .getEvent target key)
    (ready : waits.change.ready (run lib serializer events (start db)).db = true) {inbox : List String}
    (receiving : (run lib serializer events (start db)).listener.phase = .receiving inbox) :
    (run lib serializer events (start db)).hub.permits n = true ∨ waits.change.hubKey ∈ inbox := by
  rcases promised_run db proper parked saw ready with held | promised
  · exact .inl held
  · rw [receiving] at promised
    exact promised.imp_left fun nudge => absurd nudge Bool.false_ne_true

/-- A parked call stays parked while it is spared. -/
theorem parked_stays {waiter n : Nat} {waits : Waits} {blind : Bool}
    (parked : s.waiters waiter = some ⟨waits, .parked n blind⟩) {event : Event} (spares : Spares waiter event) :
    (s.next lib serializer event).waiters waiter = some ⟨waits, .parked n blind⟩ := by
  have other (s' : Provider) (same : s'.waiters =
      s.waiters) {waiter' : Nat} (w : Option Waiter) (differs : waiter ≠ waiter') :
      (s'.put waiter' w).waiters waiter = some ⟨waits, .parked n blind⟩ := by
    simp only [Provider.put, if_neg differs, same, parked]
  have apart {waiter' : Nat} {w : Waiter} (found : s.waiters waiter' = some w) (control : w.control ≠ .parked n blind) :
      waiter ≠ waiter' := by
    rintro rfl
    rw [parked, Option.some_inj] at found
    exact control (by rw [← found])
  cases event with
  | commit transaction => exact parked
  | cancel => exact parked
  | listener outcome => exact parked
  | start waiter' waits' =>
    simp only [next]
    split
    · exact parked
    next vacant =>
      refine other _ rfl _ ?_
      rintro rfl
      simp [parked] at vacant
  | watch waiter' =>
    simp only [next]
    split
    next found => exact other _ rfl _ (apart found (by simp))
    · exact parked
  | read waiter' =>
    simp only [next]
    split
    next found =>
      split
      · exact other _ (waiters_release _ _) _ (apart found (by simp))
      · exact other _ rfl _ (apart found (by simp))
    next found =>
      split
      · exact other _ rfl _ (apart found (by simp))
      · exact other _ (waiters_release _ _) _ (apart found (by simp))
    · exact parked
  | pick waiter' choice =>
    simp only [next]
    split
    next found => split <;> exact other _ rfl _ (apart found (by simp))
    · exact parked
  | claim waiter' now =>
    simp only [next]
    split
    next found =>
      split
      · exact other (release _ (s.commit _)) (waiters_release _ _) _ (apart found (by simp))
      · exact other _ rfl _ (apart found (by simp))
    · exact parked
  | reread waiter' =>
    simp only [next]
    split
    next found =>
      split
      · exact other _ (waiters_release _ _) _ (apart found (by simp))
      · exact other _ rfl _ (apart found (by simp))
    · exact parked
  | park waiter' =>
    simp only [next]
    split
    next found => exact other _ rfl _ (apart found (by simp))
    · exact parked
  | wake waiter' =>
    simp only [next]
    split
    next found =>
      split
      · exact other _ (waiters_release _ _) _ (Ne.symm spares)
      · exact parked
    · exact parked
  | elapse waiter' =>
    simp only [next]
    split
    · exact other _ (waiters_release _ _) _ (Ne.symm spares)
    · exact parked
  | drop waiter' =>
    simp only [next]
    split
    · exact other _ (waiters_release _ _) _ (Ne.symm spares)
    · exact parked

def returns : Event → Nat
  | .listener _ => 1
  | _ => 0

/-- A call that is due a signal comes nearer to it whenever a call of the listener comes back. -/
theorem step_due {waiter n : Nat} {waits : Waits} {blind : Bool} (kept : Watching.Kept conditions s.system)
    (parked : s.waiters waiter = some ⟨waits, .parked n blind⟩) (up : s.system.link ≠ .away) {event : Event}
    (proper : s.Proper event) (spares : Spares waiter event) {turns : Nat}
    (due : s.system.Due conditions ⟨waits.change, n, .missed blind⟩ turns) :
    (s.next lib serializer event).system.link ≠ .away ∧
      (s.next lib serializer event).system.Due conditions ⟨waits.change, n, .missed blind⟩ (turns - returns event) := by
  have nearer {moves : List (Watching.Event Db ChangeWait)} (moved : Moves event s (s.next lib serializer event) moves)
      (enough : returns event ≤ (moves.map Watching.Event.turns).sum) :
      (s.next lib serializer event).system.link ≠ .away ∧
        (s.next lib serializer event).system.Due conditions ⟨waits.change, n,
          .missed blind⟩ (turns - returns event) := by
    have lasting := moved.spared waiter waits n blind parked spares
    rw [moved.system]
    have near := (Watching.run_due kept moved.lawful (watches_parked parked) rfl lasting due).2
    exact ⟨Watching.run_up lasting up, near.mono (by omega)⟩
  cases event with
  | listener outcome =>
    refine nearer (moves_listener outcome) ?_
    have ok : outcome = .ok := spares
    subst ok
    simp only [system] at up
    cases phase : s.listener.phase with
    | nudging inbox => simp [linkMoves, returns, Watching.Event.turns]
    | renudging inbox => simp [linkMoves, returns, Watching.Event.turns]
    | receiving inbox => simp [linkMoves, returns, Watching.Event.turns]
    | _ => exact absurd (congrArg Phase.link phase) up
  | _ =>
    obtain ⟨moves, moved⟩ := simulates lib serializer _ proper
    exact nearer moved (Nat.zero_le _)

theorem run_due {waiter n : Nat} {waits : Waits} {blind : Bool} (kept : Watching.Kept conditions s.system)
    (parked : s.waiters waiter = some ⟨waits, .parked n blind⟩) (up : s.system.link ≠ .away) {events : List Event}
    (proper : ProperRun lib serializer events s) (spares : ∀ event ∈ events, Spares waiter event) {turns : Nat}
    (due : s.system.Due conditions ⟨waits.change, n, .missed blind⟩ turns)
    (enough : turns ≤ (events.map returns).sum) : (run lib serializer events s).hub.permits n = true := by
  induction events generalizing s turns with
  | nil =>
    rw [Nat.le_zero.mp enough] at due
    exact Watching.due_zero due
  | cons event events ih =>
    have spared := spares event List.mem_cons_self
    obtain ⟨still, nearer⟩ := step_due kept parked up proper.1 spared due
    obtain ⟨moves, moved⟩ := simulates lib serializer event proper.1
    refine ih (moved.system ▸ kept.run moved.lawful) (parked_stays parked spared) still proper.2
      (fun e member => spares e (List.mem_cons_of_mem _ member)) nearer ?_
    rw [List.map_cons, List.sum_cons] at enough
    omega

def inboxLength : Phase → Nat
  | .nudging inbox | .renudging inbox | .receiving inbox => inbox.length
  | _ => 0

/-- While its session lasts, the listener signals a parked call whose condition holds by the time that it has gone
through its inbox, whatever else goes on. -/
theorem signalled_within (db : Db) {events later : List Event}
    (proper : ProperRun lib serializer (events ++ later) (start db)) {waiter n : Nat} {waits : Waits} {blind : Bool}
    (parked : (run lib serializer events (start db)).waiters waiter = some ⟨waits, .parked n blind⟩)
    (saw : blind = false ∨ ∃ target key, waits = .getEvent target key)
    (ready : waits.change.ready (run lib serializer events (start db)).db = true)
    (up : (run lib serializer events (start db)).listener.phase.link ≠ .away)
    (spares : ∀ event ∈ later, Spares waiter event)
    (enough : max 1 (inboxLength (run lib serializer events (start db)).listener.phase) ≤ (later.map returns).sum) :
    (run lib serializer (events ++ later) (start db)).hub.permits n = true := by
  obtain ⟨before, after⟩ := (Runs.along_append _ _ _ _ _).mp proper
  have kept := kept_run before (Watching.kept_start db)
  rw [run, Runs.run_append]
  refine run_due kept parked up after spares ?_ enough
  rcases promised_run db before parked saw ready with held | promised
  · exact .inl held
  · refine .inr ?_
    simp only [system]
    cases phase : (run lib serializer events (start db)).listener.phase with
    | nudging inbox => exact Watching.Link.Promises.owes (.inl rfl)
    | renudging inbox => exact Watching.Link.Promises.owes (.inl rfl)
    | receiving inbox =>
      rw [phase] at promised
      exact Watching.Link.Promises.owes promised
    | _ => exact absurd (congrArg Phase.link phase) up

/-- The hub lists the subscriptions that calls hold and nothing else, each of them once; without them its map is empty. -/
theorem hub_lists (db : Db) {events : List Event} (proper : ProperRun lib serializer events (start db)) :
    (∀ key n, n ∈ (run lib serializer events (start db)).hub.listed key ↔
      ∃ waiter w stage, (run lib serializer events (start db)).waiters waiter = some w ∧
        w.control.stage = some (n, stage) ∧ w.waits.change.hubKey = key) ∧
    (∀ key, ((run lib serializer events (start db)).hub.listed key).Nodup) ∧
    ((∀ waiter w, (run lib serializer events (start db)).waiters waiter = some w → w.control = .looping) →
      ∀ key, (run lib serializer events (start db)).hub.waiters.get key = none) := by
  have tidy := (kept_run proper (Watching.kept_start db)).tidy
  have lists (key : String) (n : Nat) : n ∈ (run lib serializer events (start db)).hub.listed key ↔
      ∃ waiter w stage, (run lib serializer events (start db)).waiters waiter = some w ∧
        w.control.stage = some (n, stage) ∧ w.waits.change.hubKey = key := by
    refine (tidy.lists key n).trans ?_
    constructor
    · rintro ⟨waiter, watch, found, rfl, rfl⟩
      obtain ⟨w, held, watched⟩ := Option.bind_eq_some_iff.mp found
      obtain ⟨⟨n, stage⟩, staged, rfl⟩ := Option.map_eq_some_iff.mp watched
      exact ⟨waiter, w, stage, held, staged, rfl⟩
    · rintro ⟨waiter, w, stage, held, staged, rfl⟩
      exact ⟨waiter, ⟨w.waits.change, n, stage⟩, by simp [system, held, Waiter.watch, staged], rfl, rfl⟩
  refine ⟨lists, tidy.once, fun idle key => ?_⟩
  cases stored : (run lib serializer events (start db)).hub.waiters.get key with
  | none => rfl
  | some entries =>
    cases entries with
    | nil => exact absurd stored (tidy.inhabited key)
    | cons n entries =>
      have member : n ∈ (run lib serializer events (start db)).hub.listed key := by
        simp [Board.listed, stored]
      obtain ⟨waiter, w, stage, held, staged, -⟩ := (lists key n).mp member
      rw [idle waiter w held] at staged
      cases staged

def letter (key : String) : NotificationInsert × String :=
  ({ destinationId := "w", topic := "t", message := .null, idempotencyKey := some key }, "")

def listens : List Event := [.listener .ok, .listener .ok, .listener .ok, .listener .ok]

/-- A call waits, and a message comes. -/
def delivery : List Event :=
  listens ++ [.start 0 (.recv "w" "t" 0), .watch 0, .read 0, .pick 0 0, .reread 0, .park 0,
    .commit (.insertNotifications (fun _ => none) 1 [letter "k"])]

abbrev delivered : Provider := run (.reading []) .portable delivery (start Checkpoints.startedDb)

theorem delivery_proper : ProperRun (.reading []) .portable delivery (start Checkpoints.startedDb) := by
  refine ⟨?_, ?_, ?_, ?_, ?_, ?_, ?_, ?_, ?_, ?_, ?_, ?_⟩ <;> trivial

theorem no_lost_wakeup_delivery :
    delivered.hub.permits 0 = true ∨ "dbos_notifications_channel\x00w::t" ∈ ["dbos_notifications_channel\x00w::t"] :=
  have parked : delivered.waiters 0 = some ⟨.recv "w" "t" 0, .parked 0 false⟩ := by decide
  no_lost_wakeup Checkpoints.startedDb delivery_proper parked (.inl rfl) (by decide) (by decide)

theorem signalled_within_delivery :
    (run (.reading []) .portable (delivery ++ [.listener .ok]) (start Checkpoints.startedDb)).hub.permits 0 = true := by
  have parked : delivered.waiters 0 = some ⟨.recv "w" "t" 0, .parked 0 false⟩ := by decide
  refine signalled_within Checkpoints.startedDb ?_ parked (.inl rfl) (by decide) (by decide) ?_ (by decide)
  · exact (Runs.along_append _ _ _ _ _).mpr ⟨delivery_proper, trivial, trivial⟩
  · intro event member
    rw [List.mem_singleton.mp member]
    rfl

theorem hub_lists_delivery : 0 ∈ delivered.hub.listed "dbos_notifications_channel\x00w::t" :=
  ((hub_lists Checkpoints.startedDb delivery_proper).1 _ _).mpr
    ⟨0, ⟨.recv "w" "t" 0, .parked 0 false⟩, .missed false, by decide, rfl, by decide⟩

/-- Two calls of one workflow pick the same message of two, and one of them claims it. -/
def race : List Event :=
  listens ++ [.commit (.insertNotifications (fun _ => none) 1 [letter "k", letter "l"]), .listener .ok, .listener .ok,
    .start 0 (.recv "w" "t" 0), .start 1 (.recv "w" "t" 2), .watch 0, .watch 1, .read 0, .read 1, .pick 0 0, .pick 1 0,
    .claim 0 2, .claim 1 2, .reread 1, .park 1]

/-- The other waits beside the second message, and nothing is left that would signal it. -/
theorem raced_recv_waits : ∃ s, s = run (.reading []) .portable race (start Checkpoints.startedDb) ∧
    s.waiters 1 = some ⟨.recv "w" "t" 2, .parked 1 true⟩ ∧ ChangeWait.ready s.db (.notification "w" "t") = true ∧
    s.hub.permits 1 = false ∧ s.listener.phase = .receiving [] :=
  ⟨_, rfl, by decide, by decide, by decide, by decide⟩

end Provider

end Durare.Wakeups

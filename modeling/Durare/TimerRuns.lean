import Durare.Timers

/-! Executions of a timer: one that fixes the instant, and one that finds it recorded. -/
namespace Durare

open Interaction

/-- Asks that an operation may make anywhere. -/
structure Grants (ctx : Context) (P : Ask → Prop) : Prop where
  interrupts : ∀ cause, P (.interrupt cause)
  checks : P .check
  guards : P (.call (.getWorkflowStatus ctx.workflowId))

section Parts

variable {δ α : Type} {ctx : Context} {P : Ask → Prop}

/-- The operation makes no other ask than `P` allows, and never panics. -/
abbrev Asks (P : Ask → Prop) (act : Act δ α) : Prop := Client.Only P act

theorem Asks.bind {β : Type} {act : Act δ α} {f : α → Act δ β} (asks : Asks P act)
    (rest : ∀ a, Asks P (f a)) : Asks P (act >>= f) := by
  refine Client.Only.bind asks fun result => ?_
  cases result with
  | ok a => exact rest a
  | error e => trivial

theorem record_asks (grants : Grants ctx P) (e : Error) : Asks P (Context.record e : Act δ α) := by
  unfold Context.record
  split
  · exact ⟨grants.interrupts _, fun _ => trivial⟩
  · trivial

theorem storage_asks (grants : Grants ctx P) (result : Except Error α) :
    Asks P (Context.storage result : Act δ α) := by
  cases result with
  | ok a => trivial
  | error e => exact record_asks grants e

theorem call_asks (grants : Grants ctx P) {c : Memory.Call} (asks : P (.call c)) :
    Asks P (Context.call c : Act δ c.Reply) := ⟨asks, fun reply => storage_asks grants reply⟩

theorem check_asks (grants : Grants ctx P) : Asks P (Context.check : Act δ Unit) :=
  ⟨grants.checks, fun _ => trivial⟩

theorem recordedValue_asks (grants : Grants ctx P) (codec : Codec α) (outcome : StepOutcome) :
    Asks P (ctx.recordedValue codec outcome : Act δ α) := by
  cases outcome with
  | output value => trivial
  | failure message info => exact (storage_asks grants _).bind fun _ => trivial

theorem serveRecorded_asks (grants : Grants ctx P) {seq : Int} (asks : P (.call (.getStepResult ctx.workflowId seq)))
    (name : String) (codec : Codec α) : Asks P (ctx.serveRecorded seq name codec : Act δ (Option α)) := by
  refine (call_asks grants asks).bind fun step => ?_
  cases step with
  | none => trivial
  | some step =>
    refine Asks.bind ?_ fun _ => (recordedValue_asks grants codec step.outcome).bind fun _ => trivial
    unfold Context.checkRecorded
    split <;> trivial

theorem guardCancelled_asks (grants : Grants ctx P) : Asks P (ctx.guardCancelled : Act δ Unit) := by
  refine (call_asks grants grants.guards).bind fun status => ?_
  cases status with
  | none => trivial
  | some status => dsimp only; split <;> trivial

theorem replayOrGuard_asks (grants : Grants ctx P) {seq : Int} (asks : P (.call (.getStepResult ctx.workflowId seq)))
    (name : String) (codec : Codec α) : Asks P (ctx.replayOrGuard seq name codec : Act δ (Option α)) := by
  refine (serveRecorded_asks grants asks name codec).bind fun stored => ?_
  cases stored with
  | some stored => trivial
  | none => exact (guardCancelled_asks grants).bind fun _ => trivial

theorem recordStep_asks (grants : Grants ctx P) {seq : Int} {name : String} {value : Value} {error : Option String}
    {startedAtMs : Option Int} (asks : P (.call (.recordStepResult ctx.workflowId seq name value error startedAtMs
      (some ctx.rt.executorId)))) : Asks P (ctx.recordStep seq name value error startedAtMs : Act δ StepOutcome) :=
  call_asks grants asks

end Parts

section Alone

variable {δ σ α β : Type} {world : World σ TimedAsk (TimedAsk.Reply δ)}

def Aside (world : World σ TimedAsk (TimedAsk.Reply δ)) (q : Ask) : Prop :=
  ∀ s reply s', world.serves (.ask q) s reply s' → s' = s

theorem lift_ends (alone : world.rely = Eq) {act : Act δ α} (asks : Asks (Aside world) act) (s : σ) :
    Ends world (fun _ t => t = s) (TimedAct.lift act) s := by
  induction act with
  | done result =>
    intro t same
    rw [alone] at same
    exact same.symm
  | ask q k ih =>
    intro t same reply t' served
    rw [alone] at same
    obtain rfl := same
    obtain rfl := asks.1 _ _ _ served
    exact ih reply (asks.2 reply)
  | halt => exact asks.elim

theorem lift_asked (alone : world.rely = Eq) {q : Ask} {k : q.Reply δ → Act δ α}
    {post : Except Error α → σ → Prop} {s : σ}
    (rest : ∀ reply s', world.serves (.ask q) s reply s' → Ends world post (TimedAct.lift (k reply)) s') :
    Ends world post (TimedAct.lift (Client.ask q k)) s := by
  intro t same reply t' served
  rw [alone] at same
  obtain rfl := same
  exact rest reply t' served

theorem ends_stays (alone : world.rely = Eq) {post : Except Error α → σ → Prop} {result : Except Error α}
    {s : σ} (holds : post result s) : Ends world post (Client.done result) s := by
  intro t same
  rw [alone] at same
  exact same ▸ holds

/-- Sequencing: a failed part is the end. -/
theorem ends_seq (alone : world.rely = Eq) {post : Except Error α → σ → Prop}
    {goal : Except Error β → σ → Prop} {act : TimedAct δ α} {f : α → TimedAct δ β} {s : σ}
    (ends : Ends world post act s)
    (rest : ∀ a t, post (.ok a) t → Ends world goal (f a) t)
    (failed : ∀ e t, post (.error e) t → goal (.error e) t) :
    Ends world goal (act >>= f : TimedAct δ β) s := by
  refine Ends.seq ends rest fun e t ended t' same => ?_
  rw [alone] at same
  exact same ▸ failed e t ended

end Alone

section Fixing

variable {δ : Type} (ctx : Context)

/-- What an execution has done: whether it read the clock, what it recorded at the timer's position, and how
often its wait was woken. -/
structure Seen where
  read : Bool := false
  fixed : List Value := []
  woken : Nat := 0

/-- The clock shows `now` when it is first read. Every other reading and every answer is free; the wait is woken
fewer than `rounds` times. -/
def fixing (δ : Type) (position : Int) (now : DateTime) (rounds : Nat) : World Seen TimedAsk (TimedAsk.Reply δ) where
  rely := Eq
  serves q s reply s' := match q, reply with
    | .ask .now, t => (s.read = false → t = now) ∧ s' = { s with read := true }
    | .ask (.call (.recordStepResult id seq _ value none _ _)), _ =>
      s' = if id = ctx.workflowId ∧ seq = position then { s with fixed := s.fixed ++ [value] } else s
    | .watch _, _ => s.woken + 1 < rounds ∧ s' = { s with woken := s.woken + 1 }
    | _, _ => s' = s
  refl _ := rfl
  trans := Eq.trans

variable {ctx} {P : Ask → Prop} {position : Int} {now : DateTime} {span : Duration} {rounds : Nat}

theorem fixing_grants : Grants ctx (Aside (fixing ctx δ position now rounds)) :=
  ⟨fun _ _ _ _ served => served, fun _ _ _ served => served, fun _ _ _ served => served⟩

theorem fixing_records {seq : Int} (apart : seq ≠ position) (name : String) (value : Value) (error : Option String)
    (startedAtMs : Option Int) (executor : Option String) : Aside (fixing ctx δ position now rounds)
      (.call (.recordStepResult ctx.workflowId seq name value error startedAtMs executor)) := by
  intro s reply s' served
  cases error with
  | some text => exact served
  | none => exact served.trans (if_neg fun here => apart here.2)

/-- What was recorded for the timer is the instant it is to be fixed at. -/
def Right (ctx : Context) (now : DateTime) (span : Duration) (s : Seen) : Prop :=
  ∀ v ∈ s.fixed, ctx.builtins.instants.toValue (firing now span) = .ok v

theorem wakeInstant_bind {α : Type} (f : DateTime → Act δ α) :
    Context.wakeInstant span >>= f = Client.ask .now fun t =>
      match wakeAt t span with
      | some wake => f wake
      | none => .halt := by
  refine congrArg (Client.ask Ask.now) (funext fun t => ?_)
  unfold wakeAt MAX_DELTA
  by_cases late : Context.MAX_INSTANT < t + if span ≤ (2 ^ 63 - 1) * 1000000 then (span : Int) else 0
  · simp only [Client.done_bind, late, if_true]
    rfl
  · simp only [Client.done_bind, late, if_false]
    rfl

theorem checkpoint_eq {seq : Int} {name : String} {codec : Codec α} {a : α} {value : Value}
    (encodes : codec.toValue a = .ok value) (startedAtMs : Option Int) :
    (ctx.checkpoint seq name a startedAtMs codec : Act δ α) =
      Context.check >>= fun _ => ctx.writeStepOutcome seq name value none startedAtMs codec := by
  unfold Context.checkpoint
  rw [encodes]

/-- Fixing the instant comes to its end, and records the right one. -/
theorem durableValueAt_fixes (fires : wakeAt now span = some (firing now span)) {s : Seen} (unread : s.read = false)
    (right : Right ctx now span s) :
    Ends (fixing ctx δ position now rounds) (fun _ t => Right ctx now span t ∧ t.woken = s.woken)
      (TimedAct.lift (ctx.durableValueAt position "DBOS.sleep" (Context.wakeInstant span) ctx.builtins.instants))
        s := by
  unfold Context.durableValueAt
  rw [TimedAct.lift_bind]
  refine ends_seq rfl (lift_ends rfl (serveRecorded_asks fixing_grants (fun _ _ _ served => served) ..) s) ?_ ?_
  swap
  · rintro e t rfl
    exact ⟨right, rfl⟩
  rintro stored t rfl
  cases stored with
  | some value => exact ends_stays rfl ⟨right, rfl⟩
  | none =>
    dsimp only
    rw [wakeInstant_bind]
    refine lift_asked rfl ?_
    rintro reading s ⟨first, rfl⟩
    obtain rfl := first unread
    obtain ⟨value, encodes, _⟩ := ctx.builtins.instants_back (firing reading span)
    simp only [fires, checkpoint_eq encodes]
    rw [TimedAct.lift_bind]
    refine ends_seq rfl (lift_ends rfl (check_asks fixing_grants) _) ?_ ?_
    swap
    · rintro e s rfl
      exact ⟨right, rfl⟩
    rintro _ s rfl
    refine lift_asked rfl ?_
    rintro reply s rfl
    refine Ends.mono (lift_ends rfl ((storage_asks fixing_grants reply).bind fun outcome =>
      recordedValue_asks fixing_grants ctx.builtins.instants outcome) _) ?_
    rintro result s rfl
    rw [if_pos ⟨rfl, rfl⟩]
    refine ⟨?_, rfl⟩
    intro v member
    rcases List.mem_append.mp member with before | here
    · exact right v before
    · rw [List.mem_singleton.mp here]
      exact encodes

/-- Fixed now or before, the deadline of a wait is no panic. -/
theorem deadlineOf_fixes {seq : Int} (fires : wakeAt now span = some (firing now span)) {s : Seen}
    {deadline : Option DateTime} (unread : deadline = none → s.read = false) (right : Right ctx now span s) :
    Ends (fixing ctx δ (nextSeq seq) now rounds) (fun _ t => Right ctx now span t ∧ t.woken = s.woken)
      (TimedAct.lift (ctx.deadlineOf seq span deadline)) s := by
  cases deadline with
  | some deadline => exact ends_stays rfl ⟨right, rfl⟩
  | none => exact durableValueAt_fixes fires (unread rfl) right

theorem now_fixes {s : Seen} (right : Right ctx now span s) :
    Ends (fixing ctx δ position now rounds) (fun _ t => Right ctx now span t ∧ t.woken = s.woken)
      (TimedAct.lift (Act.get .now)) s := by
  refine lift_asked rfl ?_
  rintro reading s ⟨_, rfl⟩
  exact ends_stays rfl ⟨right, rfl⟩

theorem timedLoop_fixes {β : Type} {seq : Int} {interval : Duration} {look : Act δ (Option β)} {expire : Act δ β}
    {limit : Nat} (fires : wakeAt now span = some (firing now span))
    (looks : Asks (Aside (fixing ctx δ (nextSeq seq) now limit)) look)
    (expires : Asks (Aside (fixing ctx δ (nextSeq seq) now limit)) expire) (rounds : Nat)
    {deadline : Option DateTime} {s : Seen} (unread : deadline = none → s.read = false)
    (right : Right ctx now span s) (left : s.woken < limit) (counted : s.woken + rounds = limit) :
    Ends (fixing ctx δ (nextSeq seq) now limit) (fun _ t => Right ctx now span t)
      (ctx.timedLoop seq span interval look expire rounds deadline) s := by
  induction rounds generalizing deadline s with
  | zero => omega
  | succ rounds ih =>
    rw [Context.timedLoop]
    refine ends_seq rfl (lift_ends rfl looks s) ?_ ?_
    swap
    · rintro e t rfl
      exact right
    rintro found s rfl
    cases found with
    | some found => exact ends_stays rfl right
    | none =>
      refine ends_seq rfl (deadlineOf_fixes fires unread right) ?_ fun e t ended => ended.1
      rintro deadline s' ⟨right, same⟩
      refine ends_seq rfl (now_fixes right) ?_ fun e t ended => ended.1
      rintro reading s'' ⟨right, same'⟩
      rw [same] at same'
      split
      · refine (lift_ends rfl expires s'').mono ?_
        rintro result t rfl
        exact right
      · rintro t rfl reply t' ⟨woken, rfl⟩
        refine ih (by simp) right ?_ ?_
        · exact woken
        · simp only
          omega

theorem look_asks {seq : Int} (grants : Grants ctx P) (topic : String) (codec : Codec δ)
    (asks : P (.call (.consumeNotification ctx.workflowId topic seq "DBOS.recv"))) :
    Asks P (ctx.look seq topic codec) := by
  refine (call_asks grants asks).bind fun message => ?_
  cases message with
  | none => trivial
  | some message => exact (recordedValue_asks grants codec.optional (.output message)).bind fun _ => trivial

theorem lookUp_asks {seq : Int} (grants : Grants ctx P) (target key : String) (codec : Codec δ)
    (reads : P (.call (.getEventValue target key)))
    (records : ∀ value, P (.call (.recordStepResult ctx.workflowId seq "DBOS.getEvent" value none none
      (some ctx.rt.executorId)))) : Asks P (ctx.lookUp seq target key codec) := by
  refine (call_asks grants reads).bind fun value => ?_
  cases value with
  | none => trivial
  | some value =>
    exact (recordStep_asks grants (records value)).bind fun outcome =>
      (recordedValue_asks grants codec outcome).bind fun _ => trivial

theorem expire_asks {seq : Int} (grants : Grants ctx P) (name : String)
    (records : P (.call (.recordStepResult ctx.workflowId seq name .null none none (some ctx.rt.executorId)))) :
    Asks P (ctx.expire seq name : Act δ (Option δ)) :=
  (recordStep_asks grants records).bind fun _ => trivial

theorem timedSleep_fixes (fires : wakeAt now span = some (firing now span)) {seq : Int} {s : Seen}
    (unread : s.read = false) (right : Right ctx now span s) :
    Ends (fixing ctx δ seq now rounds) (fun _ t => Right ctx now span t) (ctx.timedSleep seq span) s := by
  refine ends_seq rfl (durableValueAt_fixes fires unread right) ?_ fun e t ended => ended.1
  rintro wake s ⟨right, _⟩
  refine ends_seq rfl (now_fixes right) ?_ fun e t ended => ended.1
  rintro reading s ⟨right, _⟩
  split
  · rintro t rfl reply t' rfl
    exact ends_stays rfl right
  · exact ends_stays rfl right

theorem timedWait_fixes (fires : wakeAt now span = some (firing now span)) {seq : Int} {interval : Duration}
    {name : String} {codec : Codec δ} {look : Act δ (Option (Option δ))}
    (looks : Asks (Aside (fixing ctx δ (nextSeq seq) now (rounds + 1))) look) :
    Ends (fixing ctx δ (nextSeq seq) now (rounds + 1)) (fun _ t => Right ctx now span t)
      (ctx.timedWait seq name span interval codec look (rounds + 1)) {} := by
  have right : Right ctx now span {} := by simp [Right]
  have apart : seq ≠ nextSeq seq := (nextSeq_ne seq).symm
  refine ends_seq rfl (lift_ends rfl (replayOrGuard_asks fixing_grants (fun _ _ _ served => served) ..) {}) ?_ ?_
  swap
  · rintro e t rfl
    exact right
  rintro stored t rfl
  cases stored with
  | some stored => exact ends_stays rfl right
  | none =>
    have expires : Asks (Aside (fixing ctx δ (nextSeq seq) now (rounds + 1)))
        (ctx.expire seq name : Act δ (Option δ)) :=
      expire_asks fixing_grants name (fixing_records apart name .null none none _)
    exact timedLoop_fixes fires looks expires (rounds + 1) (fun _ => rfl) right (Nat.succ_pos rounds) (Nat.zero_add _)

/-- A timer whose instant can be fixed never panics, and records the right instant. -/
theorem Timer.run_fixes (fires : wakeAt now span = some (firing now span)) (timer : Timer δ) (interval : Duration)
    (rounds : Nat) (seq : Int) :
    Ends (fixing ctx δ (timer.position seq) now (rounds + 1)) (fun _ t => Right ctx now span t)
      (timer.run ctx interval (rounds + 1) seq span) {} := by
  have right : Right ctx now span {} := by simp [Right]
  have apart : seq ≠ nextSeq seq := (nextSeq_ne seq).symm
  cases timer with
  | sleep =>
    exact ends_seq rfl (timedSleep_fixes fires rfl right) (fun _ t right => ends_stays rfl right) fun e t right => right
  | recv topic codec =>
    exact ends_seq rfl (timedWait_fixes fires (look_asks fixing_grants topic codec fun _ _ _ served => served))
      (fun _ t right => ends_stays rfl right) fun e t right => right
  | getEvent target key codec =>
    exact ends_seq rfl (timedWait_fixes fires (lookUp_asks fixing_grants target key codec
        (fun _ _ _ served => served) fun value => fixing_records apart _ value none none _))
      (fun _ t right => ends_stays rfl right) fun e t right => right

end Fixing

section Replaying

variable {δ : Type} (ctx : Context)

/-- The time, whether the provider had an answer for the operation, and how often the wait was woken. -/
structure Elapsed where
  clock : DateTime
  arrived : Bool := false
  woken : Nat := 0

/-- Anything but that there is nothing yet. -/
def arrives {α : Type} : Except Error (Option α) → Bool
  | .ok none => false
  | _ => true

/-- Another execution fixed the timer at the instant that reads as `value`. Time passes in the pauses alone: a
sleep takes what it is asked for, and a watch may be woken before. -/
def replaying (δ : Type) (position : Int) (value : Value) (rounds : Nat) :
    World Elapsed TimedAsk (TimedAsk.Reply δ) where
  rely := Eq
  serves q s reply s' := match q, reply with
    | .ask .now, t => t = s.clock ∧ s' = s
    | .ask (.call (.getStepResult id seq)), answer =>
      if id = ctx.workflowId ∧ seq = position then
        s' = s ∧ (answer = .ok (some ⟨"DBOS.sleep", .output value⟩) ∨ ∃ e, answer = .error e)
      else s' = { s with arrived := s.arrived || arrives answer }
    | .ask (.call (.consumeNotification _ _ _ _)), answer => s' = { s with arrived := s.arrived || arrives answer }
    | .ask (.call (.getEventValue _ _)), answer => s' = { s with arrived := s.arrived || arrives answer }
    | .sleep span, _ => s' = { s with clock := s.clock + (span : Int) }
    | .watch span, _ => s.woken + 1 < rounds ∧ ∃ t, s.clock ≤ t ∧ t ≤ s.clock + (span : Int) ∧
        s' = { s with clock := t, woken := s.woken + 1 }
    | _, _ => s' = s
  refl _ := rfl
  trans := Eq.trans

variable {ctx} {position : Int} {value : Value} {rounds : Nat}

theorem replaying_grants : Grants ctx (Aside (replaying ctx δ position value rounds)) :=
  ⟨fun _ _ _ _ served => served, fun _ _ _ served => served, fun _ _ _ served => served⟩

/-- A part that takes no time; what it finds, arrived. -/
def Finds {α : Type} (world : World Elapsed TimedAsk (TimedAsk.Reply δ)) (act : Act δ (Option α)) : Prop :=
  ∀ s, Ends world
    (fun r t => t.clock = s.clock ∧ t.woken = s.woken ∧ ∀ a, r = .ok (some a) → t.arrived = true)
    (TimedAct.lift act) s

theorem finds_asked {α γ : Type} {q : Ask} (read : q.Reply δ → Except Error (Option γ))
    {k : q.Reply δ → Act δ (Option α)}
    (serves : ∀ s reply s', (replaying ctx δ position value rounds).serves (.ask q) s reply s' →
      s' = { s with arrived := s.arrived || arrives (read reply) })
    (asks : ∀ reply, Asks (Aside (replaying ctx δ position value rounds)) (k reply))
    (missed : ∀ reply s, read reply = .ok none → Ends (replaying ctx δ position value rounds)
      (fun r t => t = s ∧ ∀ a, r ≠ .ok (some a)) (TimedAct.lift (k reply)) s) :
    Finds (replaying ctx δ position value rounds) (Client.ask q k) := by
  intro s
  refine lift_asked rfl ?_
  intro reply s' served
  obtain rfl := serves s reply s' served
  by_cases nothing : read reply = .ok none
  · refine (missed reply _ nothing).mono ?_
    rintro r t ⟨rfl, none⟩
    exact ⟨rfl, rfl, fun a some => absurd some (none a)⟩
  · have arrived : arrives (read reply) = true := by
      cases answer : read reply with
      | error e => rfl
      | ok found =>
        cases found with
        | none => exact absurd answer nothing
        | some found => rfl
    refine (lift_ends rfl (asks reply) _).mono ?_
    rintro r t rfl
    exact ⟨rfl, rfl, fun a _ => by simp [arrived]⟩

theorem record_replays {α : Type} (e : Error) (s : Elapsed) :
    Ends (replaying ctx δ position value rounds) (fun r t => t = s ∧ ∀ a : α, r ≠ .ok a)
      (TimedAct.lift (Context.record e)) s := by
  unfold Context.record
  split
  · refine lift_asked rfl ?_
    rintro first t rfl
    exact ends_stays rfl ⟨rfl, by simp⟩
  · exact ends_stays rfl ⟨rfl, by simp⟩

theorem look_finds (seq : Int) (topic : String) (codec : Codec δ) :
    Finds (replaying ctx δ position value rounds) (ctx.look seq topic codec) := by
  refine finds_asked (q := .call (.consumeNotification ctx.workflowId topic seq "DBOS.recv"))
    (fun answer : Except Error (Option Value) => answer) (fun _ _ _ served => served)
    (fun answer => (storage_asks replaying_grants answer).bind fun message => ?_) ?_
  · cases message with
    | none => trivial
    | some message => exact (recordedValue_asks replaying_grants codec.optional (.output message)).bind fun _ => trivial
  · rintro answer s rfl
    exact ends_stays rfl ⟨rfl, by simp⟩

theorem lookUp_finds (seq : Int) (target key : String) (codec : Codec δ) :
    Finds (replaying ctx δ position value rounds) (ctx.lookUp seq target key codec) := by
  refine finds_asked (q := .call (.getEventValue target key))
    (fun answer : Except Error (Option Value) => answer) (fun _ _ _ served => served)
    (fun answer => (storage_asks replaying_grants answer).bind fun value => ?_) ?_
  · cases value with
    | none => trivial
    | some value =>
      exact (recordStep_asks replaying_grants fun _ _ _ served => served).bind fun outcome =>
        (recordedValue_asks replaying_grants codec outcome).bind fun _ => trivial
  · rintro answer s rfl
    exact ends_stays rfl ⟨rfl, by simp⟩

theorem replayOrGuard_finds {α : Type} {seq : Int} (apart : seq ≠ position) (name : String) (codec : Codec α) :
    Finds (replaying ctx δ position value rounds) (ctx.replayOrGuard seq name codec) := by
  have other : ¬ (ctx.workflowId = ctx.workflowId ∧ seq = position) := fun here => apart here.2
  refine finds_asked (q := .call (.getStepResult ctx.workflowId seq))
    (fun answer : Except Error (Option RecordedStep) => answer)
    (fun s answer s' served => cast (if_neg other) served)
    (fun answer => Asks.bind (Asks.bind (storage_asks replaying_grants answer) fun step => ?_) fun stored => ?_) ?_
  · cases step with
    | none => trivial
    | some step =>
      refine Asks.bind ?_ fun _ => (recordedValue_asks replaying_grants codec step.outcome).bind fun _ => trivial
      unfold Context.checkRecorded
      split <;> trivial
  · cases stored with
    | some stored => trivial
    | none => exact (guardCancelled_asks replaying_grants).bind fun _ => trivial
  · rintro answer s rfl
    show Ends _ _ (TimedAct.lift (ctx.guardCancelled >>= fun _ => pure none)) s
    rw [TimedAct.lift_bind]
    refine ends_seq rfl (lift_ends rfl (guardCancelled_asks replaying_grants) s) ?_ ?_
    · rintro _ t rfl
      exact ends_stays rfl ⟨rfl, by simp⟩
    · rintro e t rfl
      exact ⟨rfl, by simp⟩

/-- The recorded instant is read back. -/
theorem durableValueAt_replays {wake : DateTime} (reads : ctx.builtins.instants.fromValue value = .ok wake)
    (produce : Act δ DateTime) (s : Elapsed) :
    Ends (replaying ctx δ position value rounds) (fun r t => t = s ∧ ∀ d, r = .ok d → d = wake)
      (TimedAct.lift (ctx.durableValueAt position "DBOS.sleep" produce ctx.builtins.instants)) s := by
  refine lift_asked rfl ?_
  intro answer t served
  obtain ⟨rfl, rfl | ⟨e, rfl⟩⟩ := cast (if_pos ⟨rfl, rfl⟩) served
  · have passes : (ctx.checkRecorded position "DBOS.sleep" "DBOS.sleep" : Act δ Unit) = pure () := by
      simp [Context.checkRecorded]
    have decoded : (ctx.recordedValue ctx.builtins.instants (.output value) : Act δ DateTime) = pure wake := by
      simp only [Context.recordedValue, reads]
      rfl
    show Ends _ _ (TimedAct.lift ((ctx.checkRecorded position "DBOS.sleep" "DBOS.sleep" >>= fun _ =>
      ctx.recordedValue ctx.builtins.instants (.output value) >>= fun read => pure (some read)) >>= _)) t
    rw [passes, decoded]
    exact ends_stays rfl ⟨rfl, fun d same => (Except.ok.inj same).symm⟩
  · show Ends _ _ (TimedAct.lift ((Context.record e >>= _) >>= _)) t
    rw [Verify.act_bind_assoc, TimedAct.lift_bind]
    refine ends_seq rfl (record_replays e t) ?_ ?_
    · rintro step t' ⟨_, never⟩
      exact absurd rfl (never step)
    · rintro e' t' ⟨rfl, _⟩
      exact ⟨rfl, by simp⟩

theorem deadlineOf_replays {seq : Int} {wake : DateTime} (reads : ctx.builtins.instants.fromValue value = .ok wake)
    {deadline : Option DateTime} (known : ∀ d, deadline = some d → d = wake) (span : Duration) (s : Elapsed) :
    Ends (replaying ctx δ (nextSeq seq) value rounds) (fun r t => t = s ∧ ∀ d, r = .ok d → d = wake)
      (TimedAct.lift (ctx.deadlineOf seq span deadline)) s := by
  cases deadline with
  | none => exact durableValueAt_replays reads _ s
  | some deadline => exact ends_stays rfl ⟨rfl, fun d same => known d (congrArg some (Except.ok.inj same))⟩

theorem now_replays (s : Elapsed) :
    Ends (replaying ctx δ position value rounds) (fun r t => t = s ∧ ∀ d, r = .ok d → d = s.clock)
      (TimedAct.lift (Act.get .now)) s := by
  refine lift_asked rfl ?_
  rintro reading t ⟨rfl, rfl⟩
  exact ends_stays rfl ⟨rfl, fun d same => (Except.ok.inj same).symm⟩

/-- The operation waits no longer than to the instant, and if it returns with nothing found, exactly so long. -/
def Waited (start wake : DateTime) {α : Type} (r : Except Error α) (t : Elapsed) : Prop :=
  t.clock ≤ max start wake ∧ ∀ a, r = .ok a → t.arrived = false → t.clock = max start wake

theorem watched_within {clock wake later : Int} {interval : Nat} (before : clock < wake)
    (cut : later ≤ clock + (min (Context.toStd (wake - clock)) interval : Nat)) : later ≤ wake := by
  unfold Context.toStd at cut
  omega

theorem timedLoop_replays {α : Type} {seq : Int} {span interval : Duration} {start wake : DateTime}
    (reads : ctx.builtins.instants.fromValue value = .ok wake) {look : Act δ (Option α)} {expire : Act δ α}
    (finds : Finds (replaying ctx δ (nextSeq seq) value rounds) look)
    (expires : Asks (Aside (replaying ctx δ (nextSeq seq) value rounds)) expire) (left : Nat)
    {deadline : Option DateTime} {s : Elapsed} (known : ∀ d, deadline = some d → d = wake)
    (since : start ≤ s.clock) (until_ : s.clock ≤ max start wake) (woken : s.woken < rounds)
    (counted : s.woken + left = rounds) :
    Ends (replaying ctx δ (nextSeq seq) value rounds) (Waited start wake)
      (ctx.timedLoop seq span interval look expire left deadline) s := by
  induction left generalizing deadline s with
  | zero => omega
  | succ left ih =>
    rw [Context.timedLoop]
    refine ends_seq rfl (finds s) ?_ ?_
    swap
    · rintro e t ⟨same, _⟩
      exact ⟨same ▸ until_, by simp⟩
    rintro found t ⟨same, same', arrived⟩
    rw [← same] at since until_
    rw [← same'] at woken counted
    cases found with
    | some found =>
      exact ends_stays rfl ⟨until_, fun _ _ missed => absurd (arrived found rfl) (by simp [missed])⟩
    | none =>
      refine ends_seq rfl (deadlineOf_replays reads known span t) ?_ ?_
      swap
      · rintro e t ⟨rfl, _⟩
        exact ⟨until_, by simp⟩
      rintro d t ⟨rfl, due⟩
      obtain rfl := due d rfl
      refine ends_seq rfl (now_replays t) ?_ ?_
      swap
      · rintro e t ⟨rfl, _⟩
        exact ⟨until_, by simp⟩
      rintro reading t ⟨rfl, shown⟩
      obtain rfl := shown reading rfl
      split
      next passed =>
        refine (lift_ends rfl expires t).mono ?_
        rintro result t rfl
        exact ⟨until_, fun _ _ _ => le_antisymm until_ (max_le since passed)⟩
      next early =>
        rintro t' rfl reply t'' ⟨more, later, low, high, rfl⟩
        have within : later ≤ d := watched_within (lt_of_not_ge early) high
        refine ih (fun _ same => (Option.some.inj same).symm) ?_ ?_ ?_ ?_
        · exact le_trans since low
        · exact le_trans within (le_max_right _ _)
        · exact more
        · simp only
          omega

theorem timedSleep_replays {seq : Int} {start wake : DateTime}
    (reads : ctx.builtins.instants.fromValue value = .ok wake) (span : Duration) :
    Ends (replaying ctx δ seq value rounds) (Waited start wake) (ctx.timedSleep seq span) { clock := start } := by
  have early : start ≤ max start wake := le_max_left _ _
  refine ends_seq rfl (durableValueAt_replays reads _ _) ?_ ?_
  swap
  · rintro e t ⟨rfl, _⟩
    exact ⟨early, by simp⟩
  rintro d t ⟨rfl, due⟩
  obtain rfl := due d rfl
  refine ends_seq rfl (now_replays _) ?_ ?_
  swap
  · rintro e t ⟨rfl, _⟩
    exact ⟨early, by simp⟩
  rintro reading t ⟨rfl, shown⟩
  obtain rfl : start = reading := (shown reading rfl).symm
  split
  next before =>
    rintro t rfl reply t' rfl
    have whole : start + (Context.toStd (d - start) : Int) = d := by
      unfold Context.toStd
      exact add_eq_of_eq_sub' (Int.toNat_of_nonneg (sub_nonneg.mpr (le_of_lt before)))
    have ended : start + (Context.toStd (d - start) : Int) = max start d := by
      rw [whole, max_eq_right (le_of_lt before)]
    exact ends_stays rfl ⟨le_of_eq ended, fun _ _ _ => ended⟩
  next passed =>
    have ended : start = max start d := (max_eq_left (le_of_not_gt passed)).symm
    exact ends_stays rfl ⟨le_of_eq ended, fun _ _ _ => ended⟩

theorem timedWait_replays {seq : Int} {interval : Duration} {start wake : DateTime}
    (reads : ctx.builtins.instants.fromValue value = .ok wake) {name : String} {codec : Codec δ}
    {look : Act δ (Option (Option δ))} (finds : Finds (replaying ctx δ (nextSeq seq) value (rounds + 1)) look)
    (span : Duration) :
    Ends (replaying ctx δ (nextSeq seq) value (rounds + 1)) (Waited start wake)
      (ctx.timedWait seq name span interval codec look (rounds + 1)) { clock := start } := by
  have early : start ≤ max start wake := le_max_left _ _
  refine ends_seq rfl (replayOrGuard_finds (nextSeq_ne seq).symm name codec.optional _) ?_ ?_
  swap
  · rintro e t ⟨same, _⟩
    exact ⟨same ▸ early, by simp⟩
  rintro stored t ⟨same, same', arrived⟩
  have since : start = t.clock := same.symm
  cases stored with
  | some stored =>
    exact ends_stays rfl ⟨since ▸ early, fun _ _ missed => absurd (arrived stored rfl) (by simp [missed])⟩
  | none =>
    have expires : Asks (Aside (replaying ctx δ (nextSeq seq) value (rounds + 1)))
        (ctx.expire seq name : Act δ (Option δ)) :=
      expire_asks replaying_grants name fun _ _ _ served => served
    have woken : t.woken = 0 := same'
    exact timedLoop_replays reads finds expires (rounds + 1) (by simp) (le_of_eq since) (since ▸ early)
      (by rw [woken]; exact Nat.succ_pos rounds) (by rw [woken]; exact Nat.zero_add _)

/-- A timer that was fixed before waits for the remaining time, or not at all. -/
theorem Timer.run_replays {start wake : DateTime} (reads : ctx.builtins.instants.fromValue value = .ok wake)
    (timer : Timer δ) (interval : Duration) (rounds : Nat) (seq : Int) (span : Duration) :
    Ends (replaying ctx δ (timer.position seq) value (rounds + 1)) (Waited start wake)
      (timer.run ctx interval (rounds + 1) seq span) { clock := start } := by
  cases timer with
  | sleep =>
    refine ends_seq rfl (timedSleep_replays reads span) ?_ ?_
    · rintro _ t ⟨within, exact_⟩
      exact ends_stays rfl ⟨within, fun _ _ => exact_ () rfl⟩
    · rintro e t ⟨within, _⟩
      exact ⟨within, by simp⟩
  | recv topic codec =>
    refine ends_seq rfl (timedWait_replays reads (look_finds seq topic codec) span) ?_ ?_
    · rintro message t ⟨within, exact_⟩
      exact ends_stays rfl ⟨within, fun _ _ => exact_ message rfl⟩
    · rintro e t ⟨within, _⟩
      exact ⟨within, by simp⟩
  | getEvent target key codec =>
    refine ends_seq rfl (timedWait_replays reads (lookUp_finds seq target key codec) span) ?_ ?_
    · rintro found t ⟨within, exact_⟩
      exact ends_stays rfl ⟨within, fun _ _ => exact_ found rfl⟩
    · rintro e t ⟨within, _⟩
      exact ⟨within, by simp⟩

end Replaying

/-- In every execution whose clock shows `now` when the timer is fixed, the operation does not panic and records the
instant the timer is to be fixed at; and in every execution after an instant was recorded, it waits exactly for
what remains of it. -/
structure Total (δ : Type) (span : Duration) (now : DateTime) : Prop where
  fixes : ∀ (ctx : Context) (timer : Timer δ) (interval : Duration) (rounds : Nat) (seq : Int),
    Ends (fixing ctx δ (timer.position seq) now (rounds + 1)) (fun _ t => Right ctx now span t)
      (timer.run ctx interval (rounds + 1) seq span) {}
  replays : ∀ (ctx : Context) (timer : Timer δ) (interval : Duration) (rounds : Nat) (seq : Int) (value : Value)
    (start wake : DateTime), ctx.builtins.instants.fromValue value = .ok wake →
      Ends (replaying ctx δ (timer.position seq) value (rounds + 1)) (Waited start wake)
        (timer.run ctx interval (rounds + 1) seq span) { clock := start }

theorem Timer.sleep_panics {δ : Type} (ctx : Context) {span : Duration} {now : DateTime}
    (none : wakeAt now span = none) (interval : Duration) (rounds limit : Nat) (seq : Int)
    (post : Except Error (Reply δ) → Seen → Prop) :
    ¬ Ends (fixing ctx δ seq now limit) post (Timer.sleep.run ctx interval rounds seq span) {} := by
  intro ends
  have fresh : Ends (fixing ctx δ seq now limit) post
      (Client.bind (Client.bind (TimedAct.lift (Context.wakeInstant span >>= fun wake =>
        ctx.checkpoint seq "DBOS.sleep" wake Option.none ctx.builtins.instants)) _) _) {} :=
    ends {} rfl (.ok Option.none) {} rfl
  rw [wakeInstant_bind] at fresh
  have read := fresh {} rfl now { read := true } ⟨fun _ => rfl, rfl⟩
  simp only [none] at read
  exact read

theorem wakeAt_cases {now : DateTime} {span : Duration} (calendar : Calendar now) :
    wakeAt now span = none ∨ wakeAt now span = some (firing now span) := by
  by_cases fires : wakeAt now span = some (firing now span)
  · exact .inr fires
  · rw [wakeAt_iff calendar, not_or] at fires
    obtain ⟨late, short⟩ := fires
    left
    unfold wakeAt
    rw [if_pos (le_of_not_gt short), if_pos (lt_of_not_ge late)]

/-- A timer is total exactly if its end is an instant of the calendar, or its span is longer than a `TimeDelta`. -/
theorem total_iff {δ : Type} {span : Duration} {now : DateTime} (calendar : Calendar now) :
    Total δ span now ↔ now + (span : Int) ≤ Context.MAX_INSTANT ∨ MAX_DELTA < span := by
  rw [← wakeAt_iff calendar]
  constructor
  · intro total
    refine (wakeAt_cases calendar).resolve_left fun none => ?_
    exact Timer.sleep_panics Context.plain none 0 1 1 0 _ (total.fixes Context.plain .sleep 0 0 0)
  · intro fires
    exact ⟨fun _ => Timer.run_fixes fires, fun _ timer interval rounds seq _ _ _ reads =>
      Timer.run_replays reads timer interval rounds seq span⟩

theorem total_iff_epoch : Calendar 0 ∧
    (Total Unit 1000000000 0 ↔
      (0 : DateTime) + (1000000000 : Int) ≤ Context.MAX_INSTANT ∨ MAX_DELTA < 1000000000) :=
  have calendar : Calendar 0 := by decide
  ⟨calendar, total_iff calendar⟩

/-- Three hundred thousand years from the epoch on are a `TimeDelta`, but lead beyond the calendar. -/
theorem distant_timer_panics : ¬ Total Unit (300000 * 365 * 86400 * 1000000000) 0 := by
  intro total
  have none : wakeAt 0 (300000 * 365 * 86400 * 1000000000) = none := by decide
  exact Timer.sleep_panics Context.plain none 0 1 1 0 _ (total.fixes Context.plain .sleep 0 0 0)

end Durare

import Durare.Verify

/-! Durable timers: the instant that a sleep, a receive or an event wait fixes, and how long a replay of it waits.
The operations are those of the execution, with the length of each pause. -/
namespace Durare

open Interaction

def MIN_INSTANT : DateTime := -8334601228800000 * 1000000

def MAX_DELTA : Duration := (2 ^ 63 - 1) * 1000000

def Calendar (t : DateTime) : Prop := MIN_INSTANT ≤ t ∧ t ≤ Context.MAX_INSTANT

instance (t : DateTime) : Decidable (Calendar t) := inferInstanceAs (Decidable (_ ∧ _))

/-- `wake_instant` at a clock reading. The addition panics past the last instant. -/
def wakeAt (now : DateTime) (span : Duration) : Option DateTime :=
  let wake := now + if span ≤ MAX_DELTA then (span : Int) else 0
  if Context.MAX_INSTANT < wake then none else some wake

def firing (now : DateTime) (span : Duration) : DateTime :=
  if now + (span : Int) ≤ Context.MAX_INSTANT then now + (span : Int) else now

/-- The sum and its fallback, with the last instant and the longest span as parameters. -/
theorem sum_or_fallback_iff {now last : Int} {span limit : Nat} (high : now ≤ last) (wide : last < now + limit) :
    ((if last < now + (if span ≤ limit then (span : Int) else 0) then none
      else some (now + if span ≤ limit then (span : Int) else 0)) =
        some (if now + (span : Int) ≤ last then now + (span : Int) else now)) ↔
      now + (span : Int) ≤ last ∨ limit < span := by
  by_cases short : span ≤ limit
  · by_cases fits : now + (span : Int) ≤ last
    · simp [short, fits]
    · have late : last < now + (span : Int) := by omega
      have beyond : ¬ limit < span := by omega
      simp [short, fits, late, beyond]
  · have fits : ¬ now + (span : Int) ≤ last := by omega
    have fallback : ¬ last < now + 0 := by omega
    have beyond : limit < span := by omega
    simp [short, fits, beyond, high]

theorem wakeAt_iff {now : DateTime} {span : Duration} (calendar : Calendar now) :
    wakeAt now span = some (firing now span) ↔ now + (span : Int) ≤ Context.MAX_INSTANT ∨ MAX_DELTA < span := by
  have wide : Context.MAX_INSTANT < MIN_INSTANT + (MAX_DELTA : Int) := by decide
  exact sum_or_fallback_iff calendar.2 (lt_of_lt_of_le wide (Int.add_le_add_right calendar.1 _))

inductive TimedAsk where
  | ask (q : Ask)
  | sleep (span : Duration)
  | watch (span : Duration)

abbrev TimedAsk.Reply (δ : Type) : TimedAsk → Type
  | .ask q => q.Reply δ
  | .sleep _ | .watch _ => Unit

abbrev TimedAct (δ α : Type) : Type := Fallible Error TimedAsk (TimedAsk.Reply δ) α

namespace TimedAct

variable {δ α β : Type}

def lift (act : Act δ α) : TimedAct δ α := Client.embed TimedAsk.ask (fun _ reply => reply) act

def sleep (span : Duration) : TimedAct δ Unit := Client.ask (.sleep span) fun _ => .done (.ok ())

def watch (span : Duration) : TimedAct δ Unit := Client.ask (.watch span) fun _ => .done (.ok ())

def erased : TimedAsk → Ask
  | .ask q => q
  | .sleep _ | .watch _ => .wait

def answered : (q : TimedAsk) → (erased q).Reply δ → q.Reply δ
  | .ask _, reply => reply
  | .sleep _, _ | .watch _, _ => ()

/-- The operation without the lengths. -/
def erase (act : TimedAct δ α) : Act δ α := Client.embed erased answered act

theorem erase_lift (act : Act δ α) : erase (lift act) = act := by
  unfold erase lift
  induction act with
  | done a => rfl
  | ask q k ih => exact congrArg (Client.ask q) (funext ih)
  | halt => rfl

theorem act_bind_pure (act : Act δ α) : act >>= pure = act := by
  show Client.bind act _ = act
  induction act with
  | done result => cases result <;> rfl
  | ask q k ih => exact congrArg (Client.ask q) (funext ih)
  | halt => rfl

theorem lift_bind (act : Act δ α) (f : α → Act δ β) : lift (act >>= f) = lift act >>= fun a => lift (f a) := by
  refine (Client.embed_bind ..).trans (congrArg (Client.bind (lift act)) (funext fun result => ?_))
  cases result <;> rfl

theorem erase_bind (act : TimedAct δ α) (f : α → TimedAct δ β) :
    erase (act >>= f) = erase act >>= fun a => erase (f a) := by
  refine (Client.embed_bind ..).trans (congrArg (Client.bind (erase act)) (funext fun result => ?_))
  cases result <;> rfl

end TimedAct

namespace Context

variable {δ β : Type} (ctx : Context)

def toStd (delta : Int) : Duration := delta.toNat

def timedSleep (seq : Int) (span : Duration) : TimedAct δ Unit := do
  let wake ← TimedAct.lift (ctx.durableValueAt seq "DBOS.sleep" (wakeInstant span) ctx.builtins.instants)
  let now ← TimedAct.lift (Act.get .now)
  if now < wake then TimedAct.sleep (toStd (wake - now)) else pure ()

/-- The loops of `recv` and `get_event`: look, or wait for a change until the deadline, for `interval` at most. -/
def timedLoop (seq : Int) (timeout interval : Duration) (look : Act δ (Option β)) (expire : Act δ β) :
    Nat → Option DateTime → TimedAct δ β
  | 0, _ => Fallible.halt
  | rounds + 1, deadline => do
    match ← TimedAct.lift look with
    | some found => pure found
    | none =>
      let deadline ← TimedAct.lift (ctx.deadlineOf seq timeout deadline)
      let now ← TimedAct.lift (Act.get .now)
      if deadline ≤ now then TimedAct.lift expire
      else
        TimedAct.watch (min (toStd (deadline - now)) interval)
        timedLoop seq timeout interval look expire rounds (some deadline)

def look (seq : Int) (topic : String) (codec : Codec δ) : Act δ (Option (Option δ)) := do
  match ← call (.consumeNotification ctx.workflowId topic seq "DBOS.recv") with
  | some message => some <$> ctx.recordedValue codec.optional (.output message)
  | none => pure none

def lookUp (seq : Int) (target key : String) (codec : Codec δ) : Act δ (Option (Option δ)) := do
  match ← call (.getEventValue target key) with
  | some value =>
    let outcome ← ctx.recordStep seq "DBOS.getEvent" value none none
    let value ← ctx.recordedValue codec outcome
    pure (some (some value))
  | none => pure none

/-- A timeout is recorded as null. -/
def expire (seq : Int) (name : String) : Act δ (Option δ) := do
  let _ ← ctx.recordStep seq name .null none none
  pure none

/-- `recv` and `get_event`: what is recorded, or the loop. -/
def timedWait (seq : Int) (name : String) (timeout interval : Duration) (codec : Codec δ)
    (look : Act δ (Option (Option δ))) (rounds : Nat) : TimedAct δ (Option δ) := do
  match ← TimedAct.lift (ctx.replayOrGuard seq name codec.optional) with
  | some stored => pure stored
  | none => ctx.timedLoop seq timeout interval look (ctx.expire seq name) rounds none

theorem erase_sleep (seq : Int) (span : Duration) :
    TimedAct.erase (ctx.timedSleep seq span : TimedAct δ Unit) = ctx.sleep seq span := by
  unfold timedSleep Context.sleep
  simp only [TimedAct.erase_bind, TimedAct.erase_lift]
  refine congrArg (bind _) (funext fun wake => congrArg (bind _) (funext fun now => ?_))
  split <;> rfl

/-- What a loop does when it found nothing. -/
theorem erase_missed (seq : Int) (timeout interval : Duration) {look : Act δ (Option β)} {expire : Act δ β}
    (rounds : Nat) (deadline : Option DateTime) :
    (TimedAct.erase (do
      let deadline ← TimedAct.lift (ctx.deadlineOf seq timeout deadline)
      let now ← TimedAct.lift (Act.get .now)
      if deadline ≤ now then TimedAct.lift expire
      else
        TimedAct.watch (min (toStd (deadline - now)) interval)
        ctx.timedLoop seq timeout interval look expire rounds (some deadline)) : Act δ β) =
      (do
        let deadline ← ctx.deadlineOf seq timeout deadline
        let now ← Act.get .now
        if deadline ≤ now then expire
        else
          Act.get .wait
          TimedAct.erase (ctx.timedLoop seq timeout interval look expire rounds (some deadline))) := by
  simp only [TimedAct.erase_bind, TimedAct.erase_lift]
  refine congrArg (bind _) (funext fun deadline => congrArg (bind _) (funext fun now => ?_))
  split
  · exact TimedAct.erase_lift expire
  · rfl

theorem look_bind {α : Type} (seq : Int) (topic : String) (codec : Codec δ) (f : Option (Option δ) → Act δ α) :
    ctx.look seq topic codec >>= f = (do
      match ← call (.consumeNotification ctx.workflowId topic seq "DBOS.recv") with
      | some message =>
        let found ← ctx.recordedValue codec.optional (.output message)
        f (some found)
      | none => f none) := by
  refine (Verify.act_bind_assoc ..).trans (congrArg (bind _) (funext fun message => ?_))
  cases message with
  | none => rfl
  | some message => exact Verify.act_bind_assoc ..

theorem lookUp_bind {α : Type} (seq : Int) (target key : String) (codec : Codec δ)
    (f : Option (Option δ) → Act δ α) :
    ctx.lookUp seq target key codec >>= f = (do
      match ← call (.getEventValue target key) with
      | some value =>
        let outcome ← ctx.recordStep seq "DBOS.getEvent" value none none
        let value ← ctx.recordedValue codec outcome
        f (some (some value))
      | none => f none) := by
  refine (Verify.act_bind_assoc ..).trans (congrArg (bind _) (funext fun value => ?_))
  cases value with
  | none => rfl
  | some value =>
    refine (Verify.act_bind_assoc ..).trans (congrArg (bind _) (funext fun outcome => ?_))
    exact Verify.act_bind_assoc ..

theorem erase_recvLoop (seq : Int) (topic : String) (timeout interval : Duration) (codec : Codec δ) (rounds : Nat)
    (deadline : Option DateTime) :
    TimedAct.erase (ctx.timedLoop seq timeout interval (ctx.look seq topic codec) (ctx.expire seq "DBOS.recv") rounds
      deadline) = ctx.recvLoop seq topic timeout codec rounds deadline := by
  induction rounds generalizing deadline with
  | zero => rfl
  | succ rounds ih =>
    rw [timedLoop, recvLoop, TimedAct.erase_bind, TimedAct.erase_lift]
    refine (look_bind ..).trans (congrArg (bind _) (funext fun message => ?_))
    cases message with
    | some message => exact TimedAct.act_bind_pure _
    | none =>
      refine (erase_missed ..).trans ?_
      simp only [ih]
      rfl

theorem erase_getEventLoop (seq : Int) (target key : String) (timeout interval : Duration) (codec : Codec δ)
    (rounds : Nat) (deadline : Option DateTime) :
    TimedAct.erase (ctx.timedLoop seq timeout interval (ctx.lookUp seq target key codec)
      (ctx.expire seq "DBOS.getEvent") rounds deadline) =
        ctx.getEventLoop seq target key timeout codec rounds deadline := by
  induction rounds generalizing deadline with
  | zero => rfl
  | succ rounds ih =>
    rw [timedLoop, getEventLoop, TimedAct.erase_bind, TimedAct.erase_lift]
    refine (lookUp_bind ..).trans (congrArg (bind _) (funext fun value => ?_))
    cases value with
    | some value => rfl
    | none =>
      refine (erase_missed ..).trans ?_
      simp only [ih]
      rfl

end Context

/-- The operations that fix an instant. -/
inductive Timer (δ : Type) where
  | sleep
  | recv (topic : String) (codec : Codec δ)
  | getEvent (target key : String) (codec : Codec δ)

namespace Timer

variable {δ : Type}

def op (span : Duration) : Timer δ → Op δ
  | .sleep => .sleep span
  | .recv topic codec => .recv topic span codec
  | .getEvent target key codec => .getEvent target key span codec

def position (seq : Int) : Timer δ → Int
  | .sleep => seq
  | .recv _ _ | .getEvent _ _ _ => nextSeq seq

def run (ctx : Context) (interval : Duration) (rounds : Nat) (seq : Int) (span : Duration) :
    Timer δ → TimedAct δ (Reply δ)
  | .sleep => do
    ctx.timedSleep seq span
    pure .unit
  | .recv topic codec => do
    pure (.message (← ctx.timedWait seq "DBOS.recv" span interval codec (ctx.look seq topic codec) rounds))
  | .getEvent target key codec => do
    pure (.message (← ctx.timedWait seq "DBOS.getEvent" span interval codec (ctx.lookUp seq target key codec) rounds))

/-- The timers are the calls of a body, up to the length of the pauses. -/
theorem erase_run (ctx : Context) (interval : Duration) (rounds : Nat) (seq : Int) (span : Duration)
    (timer : Timer δ) : TimedAct.erase (timer.run ctx interval rounds seq span) =
    (timer.op span).run ctx rounds seq := by
  cases timer with
  | sleep =>
    refine (TimedAct.erase_bind ..).trans ?_
    rw [Context.erase_sleep]
    rfl
  | recv topic codec =>
    refine (TimedAct.erase_bind ..).trans (congrArg (bind · _) ?_)
    refine (TimedAct.erase_bind ..).trans ?_
    rw [TimedAct.erase_lift]
    refine congrArg (bind _) (funext fun stored => ?_)
    cases stored with
    | some stored => rfl
    | none => exact Context.erase_recvLoop ..
  | getEvent target key codec =>
    refine (TimedAct.erase_bind ..).trans (congrArg (bind · _) ?_)
    refine (TimedAct.erase_bind ..).trans ?_
    rw [TimedAct.erase_lift]
    refine congrArg (bind _) (funext fun stored => ?_)
    cases stored with
    | some stored => rfl
    | none => exact Context.erase_getEventLoop ..

end Timer

end Durare

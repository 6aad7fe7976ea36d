import Durare.Datasource
import Mathlib.Algebra.Order.Field.Power
import Mathlib.Data.Rat.Cast.Order
import Mathlib.Tactic.Linarith
import Mathlib.Tactic.NormNum
import Mathlib.Tactic.Ring

/-! The delays between the attempts of a retried step or transaction. Intervals and factor are exact rationals, and
a count of seconds that no `Duration` holds is a panic. -/
namespace Durare

open Interaction

structure RetryTiming where
  maxRetries : UInt32
  backoffFactor : ℚ
  baseInterval : Duration
  maxInterval : Duration
  nonneg : 0 ≤ backoffFactor

def Duration.asSecs (span : Duration) : ℚ := span / 1000000000

/-- The seconds of a `Duration` are 64-bit. -/
def Duration.SECS : ℚ := 2 ^ 64

/-- `from_secs_f64`: it fails on a count of seconds that is negative or does not fit. -/
def Duration.fromSecs (secs : ℚ) : Option ℚ := if 0 ≤ secs ∧ secs < SECS then some secs else none

/-- `powi`: a negative power of zero is no number. -/
def powi (factor : ℚ) (exponent : Int) : Option ℚ :=
  if factor = 0 ∧ exponent < 0 then none else some (factor ^ exponent)

namespace RetryTiming

variable (timing : RetryTiming)

/-- The delay before the next attempt, after the 0-based `attempt` has failed. `run_with_retries` and
`user_retry_backoff` compute it in the same way: the attempt number is cast to a 32-bit exponent, and the product
becomes a `Duration` before it is capped. -/
def backoff (attempt : Nat) : Option ℚ := do
  let power ← powi timing.backoffFactor (asI32 attempt)
  let delay ← Duration.fromSecs (timing.baseInterval.asSecs * power)
  some (min delay timing.maxInterval.asSecs)

def capped (attempt : Nat) : ℚ :=
  min (timing.baseInterval.asSecs * timing.backoffFactor ^ attempt) timing.maxInterval.asSecs

def product (exponent : Int) : ℚ := timing.baseInterval.asSecs * timing.backoffFactor ^ exponent

/-- When the delay is computed and capped. From attempt 2^31 on the exponent is negative. -/
def Fits (attempt : Nat) : Prop :=
  if attempt < 2 ^ 31 then timing.product attempt < Duration.SECS
  else
    timing.backoffFactor ≠ 0 ∧ timing.product (attempt - 2 ^ 32) < Duration.SECS ∧
      (timing.baseInterval = 0 ∨ timing.backoffFactor = 1 ∨
        timing.maxInterval.asSecs ≤ timing.product (attempt - 2 ^ 32) ∧
          timing.maxInterval.asSecs ≤ timing.product attempt)

end RetryTiming

/-- What a retry loop asks for: the body's next attempt, and a pause. -/
inductive RetryAsk where
  | attempt (k : Nat)
  | pause (delay : ℚ)

abbrev RetryAsk.Reply (α : Type) : RetryAsk → Type
  | .attempt _ => Except Error α
  | .pause _ => Unit

/-- The loop, with the retries that are left. A delay that is not computed unwinds it. -/
def retrying {α : Type} (delay : Nat → Option ℚ) (again : Nat → Error → Bool) :
    Nat → Nat → Client RetryAsk (RetryAsk.Reply α) (Except Error α)
  | 0, k => .ask (.attempt k) .done
  | left + 1, k => .ask (.attempt k) fun
    | .ok a => .done (.ok a)
    | .error e =>
      if again k e then
        match delay k with
        | none => .halt
        | some d => .ask (.pause d) fun _ => retrying delay again left (k + 1)
      else .done (.error e)

/-- The errors after which `run_with_retries` tries again. -/
def stepRetries (workflowId : String) (retryIf : Option (Error → Bool)) (e : Error) : Bool :=
  let interrupts := match e with
    | .recoveryRequired _ | .observationFailed _ => true
    | _ => false
  !interrupts && !e.isCancellationFor workflowId && !e.isScopeViolation && retryIf.all fun accepts => accepts e

/-- A lost race for the checkpoint, which `run_transaction_step` never tries again. -/
def Error.lostRace : Error → Bool
  | .workflowConflict _ | .unexpectedStep _ _ _ _ => true
  | _ => false

/-- The loops that a policy times: `run_with_retries`, and the loops around the body of `run_transaction_step` and of
a data source's transaction. -/
inductive Retrier where
  | step (workflowId : String) (retryIf : Option (Error → Bool))
  | transaction (opts : TransactionOptions)
  | dataSource (opts : TransactionOptions)

/-- After which failed attempts the loop tries again. -/
def Retrier.again (timing : RetryTiming) : Retrier → Nat → Error → Bool
  | .step workflowId retryIf, _, e => stepRetries workflowId retryIf e
  | .transaction opts, k, e =>
    !e.lostRace && { opts with maxRetries := timing.maxRetries.toNat }.shouldUserRetry e k
  | .dataSource opts, k, e => { opts with maxRetries := timing.maxRetries.toNat }.shouldUserRetry e k

def Retrier.loop {α : Type} (retrier : Retrier) (timing : RetryTiming) :
    Client RetryAsk (RetryAsk.Reply α) (Except Error α) :=
  retrying timing.backoff (retrier.again timing) timing.maxRetries.toNat 0

def endings {α : Type} (ending : Nat → Except Error α) :
    (q : RetryAsk) → List ℚ → Option (q.Reply α × List ℚ)
  | .attempt k, paused => some (ending k, paused)
  | .pause delay, paused => some ((), paused ++ [delay])

/-- The loop returns, and its pauses are the capped delays. -/
def Retrier.Paced {α : Type} (retrier : Retrier) (timing : RetryTiming) (ending : Nat → Except Error α) : Prop :=
  ∃ result n, (retrier.loop timing).eval (endings ending) [] = some (result, (List.range n).map timing.capped)

theorem Duration.asSecs_nonneg (span : Duration) : 0 ≤ span.asSecs :=
  div_nonneg (Nat.cast_nonneg span) (by norm_num)

theorem Duration.asSecs_eq_zero (span : Duration) : span.asSecs = 0 ↔ span = 0 := by
  simp [Duration.asSecs]

theorem min_eq_min_iff {a b bound : ℚ} : min a bound = min b bound ↔ a = b ∨ bound ≤ a ∧ bound ≤ b := by
  constructor
  · intro same
    rcases le_total a bound with low | high <;> rcases le_total b bound with low' | high'
    · exact .inl (by simpa [low, low'] using same)
    · have equal : a = bound := by simpa [low, high'] using same
      exact .inr ⟨equal.ge, high'⟩
    · have equal : bound = b := by simpa [high, low'] using same
      exact .inr ⟨high, equal.le⟩
    · exact .inr ⟨high, high'⟩
  · rintro (rfl | ⟨high, high'⟩)
    · rfl
    · rw [min_eq_right high, min_eq_right high']

theorem fromSecs_nonneg {secs : ℚ} (nonneg : 0 ≤ secs) :
    Duration.fromSecs secs = if secs < Duration.SECS then some secs else none := by
  simp [Duration.fromSecs, nonneg]

theorem asI32_of_ge {k : Nat} (low : 2 ^ 31 ≤ k) (high : k < 2 ^ 32) : asI32 k = (k : Int) - 2 ^ 32 := by
  rw [asI32, Int.bmod_def]
  split <;> omega

namespace RetryTiming

variable {timing : RetryTiming}

theorem product_nonneg (exponent : Int) : 0 ≤ timing.product exponent :=
  mul_nonneg (Duration.asSecs_nonneg _) (zpow_nonneg timing.nonneg _)

theorem capped_eq (k : Nat) : timing.capped k = min (timing.product k) timing.maxInterval.asSecs := by
  rw [capped, product, zpow_natCast]

theorem backoff_eq (k : Nat) (number : ¬ (timing.backoffFactor = 0 ∧ asI32 k < 0)) :
    timing.backoff k = if timing.product (asI32 k) < Duration.SECS then
      some (min (timing.product (asI32 k)) timing.maxInterval.asSecs) else none := by
  unfold backoff
  generalize asI32 k = exponent at number
  have power : powi timing.backoffFactor exponent = some (timing.backoffFactor ^ exponent) := if_neg number
  have secs : Duration.fromSecs (timing.baseInterval.asSecs * timing.backoffFactor ^ exponent) =
      if timing.product exponent < Duration.SECS then some (timing.product exponent) else none :=
    fromSecs_nonneg (timing.product_nonneg exponent)
  rw [power, Option.bind_eq_bind, Option.bind_some, secs]
  split <;> rfl

theorem product_eq_iff {m n : Int} (distinct : m ≠ n) (nonzero : timing.backoffFactor ≠ 0) :
    timing.product m = timing.product n ↔ timing.baseInterval = 0 ∨ timing.backoffFactor = 1 := by
  have positive : 0 < timing.backoffFactor := lt_of_le_of_ne timing.nonneg (Ne.symm nonzero)
  constructor
  · intro same
    by_cases zero : timing.baseInterval = 0
    · exact .inl zero
    · have base : timing.baseInterval.asSecs ≠ 0 := fun h => zero ((Duration.asSecs_eq_zero _).mp h)
      have powers : timing.backoffFactor ^ m = timing.backoffFactor ^ n := mul_left_cancel₀ base same
      by_cases one : timing.backoffFactor = 1
      · exact .inr one
      · exact absurd (zpow_right_injective₀ positive one powers) distinct
  · rintro (zero | one)
    · simp [product, (Duration.asSecs_eq_zero _).mpr zero]
    · simp [product, one]

/-- The delay is computed and capped exactly where it fits. -/
theorem backoff_iff {k : Nat} (small : k < 2 ^ 32) : timing.backoff k = some (timing.capped k) ↔ timing.Fits k := by
  rw [capped_eq, Fits]
  by_cases low : k < 2 ^ 31
  · have exponent : asI32 k = k := asI32_of_lt (by omega) (by omega)
    have number : ¬ (timing.backoffFactor = 0 ∧ asI32 k < 0) := by
      rintro ⟨_, negative⟩
      omega
    rw [if_pos low, backoff_eq k number, exponent]
    split
    next fits => simp [fits]
    next large => simp [large]
  · have exponent : asI32 k = (k : Int) - 2 ^ 32 := asI32_of_ge (by omega) small
    rw [if_neg low]
    by_cases zero : timing.backoffFactor = 0
    · have negative : asI32 k < 0 := by omega
      simp [backoff, powi, zero, negative]
    · rw [backoff_eq k fun both => zero both.1, exponent]
      have apart : (k : Int) - 2 ^ 32 ≠ k := by omega
      generalize (k : Int) - 2 ^ 32 = wrapped at apart
      by_cases fits : timing.product wrapped < Duration.SECS
      · rw [if_pos fits, Option.some_inj, min_eq_min_iff, product_eq_iff apart zero, or_assoc]
        exact ⟨fun same => ⟨zero, fits, same⟩, fun all => all.2.2⟩
      · simp [fits]

end RetryTiming

section Run

variable {α : Type} {delay : Nat → Option ℚ} {again : Nat → Error → Bool} {ending : Nat → Except Error α}

def Fails (again : Nat → Error → Bool) (ending : Nat → Except Error α) (k : Nat) : Prop :=
  ∃ e, ending k = .error e ∧ again k e = true

/-- An attempt after which the loop pauses. -/
def Retried (again : Nat → Error → Bool) (ending : Nat → Except Error α) (start limit k : Nat) : Prop :=
  start ≤ k ∧ k < limit ∧ ∀ j, start ≤ j → j ≤ k → Fails again ending j

theorem retrying_stops {k : Nat} (stops : ¬ Fails again ending k) (left : Nat) (paused : List ℚ) :
    (retrying delay again left k).eval (endings ending) paused = some (ending k, paused) := by
  cases left with
  | zero => rfl
  | succ left =>
    cases ended : ending k with
    | ok a => simp [retrying, Client.eval, endings, ended]
    | error e =>
      have given : again k e = false := by
        by_contra retries
        exact stops ⟨e, ended, by simpa using retries⟩
      simp [retrying, Client.eval, endings, ended, given]

theorem retrying_fails {k : Nat} (fails : Fails again ending k) (left : Nat) (paused : List ℚ) :
    (retrying delay again (left + 1) k).eval (endings ending) paused =
      (delay k).bind fun d => (retrying delay again left (k + 1)).eval (endings ending) (paused ++ [d]) := by
  obtain ⟨e, ended, retries⟩ := fails
  cases computed : delay k <;> simp [retrying, Client.eval, endings, ended, retries, computed]

/-- What was noted before stays noted. -/
theorem retrying_noted {left k : Nat} {paused waited : List ℚ} {result : Except Error α}
    (ran : (retrying delay again left k).eval (endings ending) paused = some (result, waited)) :
    paused <+: waited := by
  induction left generalizing k paused with
  | zero =>
    obtain ⟨_, rfl⟩ : ending k = result ∧ paused = waited := by simpa [retrying, Client.eval, endings] using ran
    exact List.prefix_rfl
  | succ left ih =>
    by_cases fails : Fails again ending k
    · rw [retrying_fails fails] at ran
      obtain ⟨d, _, rest⟩ := Option.bind_eq_some_iff.mp ran
      exact (List.prefix_append paused [d]).trans (ih rest)
    · obtain ⟨_, rfl⟩ : ending k = result ∧ paused = waited := by simpa [retrying_stops fails] using ran
      exact List.prefix_rfl

theorem Retried.here {left k : Nat} (fails : Fails again ending k) : Retried again ending k (k + (left + 1)) k := by
  refine ⟨le_rfl, by omega, ?_⟩
  intro j low high
  obtain rfl : j = k := by omega
  exact fails

theorem retried_succ {left k j : Nat} (fails : Fails again ending k) :
    Retried again ending k (k + (left + 1)) j ↔ j = k ∨ Retried again ending (k + 1) (k + 1 + left) j := by
  constructor
  · rintro ⟨start, limit, all⟩
    rcases Nat.eq_or_lt_of_le start with same | later
    · exact .inl same.symm
    · exact .inr ⟨later, by omega, fun i low high => all i (by omega) high⟩
  · rintro (rfl | ⟨start, limit, all⟩)
    · exact Retried.here fails
    · refine ⟨by omega, by omega, ?_⟩
      intro i low high
      rcases Nat.eq_or_lt_of_le low with rfl | later
      · exact fails
      · exact all i later high

/-- The loop returns with the pauses that `goal` gives exactly if each delay it asks for is the one of `goal`. -/
theorem retrying_iff (goal : Nat → ℚ) (left k : Nat) :
    (∃ result n, (retrying delay again left k).eval (endings ending) ((List.range k).map goal) =
      some (result, (List.range n).map goal)) ↔
        ∀ j, Retried again ending k (k + left) j → delay j = some (goal j) := by
  induction left generalizing k with
  | zero =>
    refine iff_of_true ⟨ending k, k, rfl⟩ ?_
    rintro j ⟨start, limit, _⟩
    omega
  | succ left ih =>
    by_cases fails : Fails again ending k
    · simp only [retrying_fails fails, retried_succ fails, forall_eq_or_imp]
      cases computed : delay k with
      | none => simp
      | some d =>
        simp only [Option.bind_some, Option.some_inj]
        by_cases right : d = goal k
        · have noted : (List.range k).map goal ++ [d] = (List.range (k + 1)).map goal := by
            rw [List.range_succ, List.map_append, right, List.map_singleton]
          rw [noted, ih, and_iff_right right]
        · refine iff_of_false ?_ fun all => right all.1
          rintro ⟨result, n, ran⟩
          obtain ⟨rest, whole⟩ := retrying_noted ran
          have there : ((List.range n).map goal)[k]? = some d := by
            rw [← whole, List.getElem?_append_left (by simp), List.getElem?_append_right (by simp)]
            simp
          rw [List.getElem?_map, List.getElem?_range] at there
          · exact right (Option.some_inj.mp there).symm
          · have length := congrArg List.length whole
            simp only [List.length_append, List.length_map, List.length_range, List.length_singleton] at length
            omega
    · refine iff_of_true ⟨ending k, k, retrying_stops fails ..⟩ ?_
      rintro j ⟨start, limit, all⟩
      exact absurd (all k le_rfl start) fails

end Run

/-- What the loop's result is in the execution: an interruption is adopted. -/
def Context.concludeRetries {δ : Type} : Except Error δ → Act δ δ
  | .ok value => pure value
  | .error e => Context.bodyError e

def RetryAsk.into (seq : Int) : RetryAsk → Ask
  | .attempt k => .body seq k
  | .pause _ => .wait

def RetryAsk.back {δ : Type} (seq : Int) (name : String) :
    (q : RetryAsk) → Ask.Reply δ (q.into seq) → RetryAsk.Reply δ q
  | .attempt _, ending => Context.runStepCatching name ending
  | .pause _, _ => ()

theorem ordinary_eq {δ : Type} {workflowId : String} {retryIf : Option (Error → Bool)} {e : Error}
    {next : Act δ δ} (ordinary : stepRetries workflowId retryIf e =
      (!e.isCancellationFor workflowId && !e.isScopeViolation && retryIf.all fun accepts => accepts e))
    (thrown : (Context.bodyError e : Act δ δ) = .throw e) :
    (if e.isCancellationFor workflowId || e.isScopeViolation then .throw e
      else if !(retryIf.all fun accepts => accepts e) then .throw e else next) =
      if stepRetries workflowId retryIf e then next else Context.concludeRetries (.error e) := by
  have stops : (Context.concludeRetries (.error e) : Act δ δ) = .throw e := thrown
  rw [ordinary, stops]
  by_cases own : (e.isCancellationFor workflowId || e.isScopeViolation) = true
  · rcases (Bool.or_eq_true _ _).mp own with cancels | leaves <;> simp [*]
  · by_cases refuses : (!(retryIf.all fun accepts => accepts e)) = true <;> simp_all

/-- One attempt of the durable call: what follows an error it tries again, and the rest. -/
theorem attempt_eq {δ : Type} (ctx : Context) (seq : Int) (name : String) (retryIf : Option (Error → Bool)) (k : Nat)
    (next : Error → Act δ δ) :
    (do
      let ending ← Act.get (.body seq k)
      match Context.runStepCatching name ending with
      | .ok value => Pure.pure value
      | .error e =>
        match e with
        | .recoveryRequired _ | .observationFailed _ => Context.bodyError e
        | e =>
          if e.isCancellationFor ctx.workflowId || e.isScopeViolation then .throw e
          else if !(retryIf.all (· e)) then .throw e
          else next e : Act δ δ) =
      Client.ask (.body seq k) fun ending =>
        match Context.runStepCatching name ending with
        | .ok value => Client.done (.ok value)
        | .error e => if stepRetries ctx.workflowId retryIf e then next e else Context.concludeRetries (.error e) := by
  refine congrArg (Client.ask (Ask.body seq k)) (funext fun ending => ?_)
  show (match Context.runStepCatching name ending with
    | .ok value => (Pure.pure value : Act δ δ)
    | .error e => _) = _
  cases Context.runStepCatching name ending with
  | ok value => rfl
  | error e =>
    cases e with
    | recoveryRequired _ => rfl
    | observationFailed _ => rfl
    | _ => exact ordinary_eq rfl rfl

theorem concludeRetries_ordinary {δ : Type} {workflowId : String} {retryIf : Option (Error → Bool)} {e : Error}
    (retries : stepRetries workflowId retryIf e = true) :
    (Context.concludeRetries (.error e) : Act δ δ) = .throw e := by
  cases e <;> first | rfl | simp [stepRetries] at retries

/-- As long as the delays are computed, the step's loop is the one of the durable call, whose pauses have no
length. -/
theorem runWithRetries_eq {δ : Type} (ctx : Context) (seq : Int) (name : String) (retryIf : Option (Error → Bool))
    {delay : Nat → Option ℚ} (left k : Nat)
    (computed : ∀ j, k ≤ j → j < k + left → (delay j).isSome = true) :
    (ctx.runWithRetries seq name retryIf left k : Act δ δ) =
      Client.bind ((retrying delay (fun _ => stepRetries ctx.workflowId retryIf) left k).embed
        (RetryAsk.into seq) (RetryAsk.back seq name)) Context.concludeRetries := by
  induction left generalizing k with
  | zero =>
    rw [Context.runWithRetries]
    refine (attempt_eq ctx seq name retryIf k Act.throw).trans ?_
    refine congrArg (Client.ask (Ask.body seq k)) (funext fun ending => ?_)
    show _ = Context.concludeRetries (Context.runStepCatching name ending)
    cases Context.runStepCatching name ending with
    | ok value => rfl
    | error e =>
      by_cases retries : stepRetries ctx.workflowId retryIf e = true
      · exact (if_pos retries).trans (concludeRetries_ordinary retries).symm
      · exact if_neg retries
  | succ left ih =>
    rw [Context.runWithRetries]
    refine (attempt_eq ctx seq name retryIf k fun _ => do
      Act.get .wait
      ctx.runWithRetries seq name retryIf left (k + 1)).trans ?_
    refine congrArg (Client.ask (Ask.body seq k)) (funext fun ending => ?_)
    obtain ⟨d, here⟩ := Option.isSome_iff_exists.mp (computed k le_rfl (by omega))
    have rest := ih (k + 1) fun j low high => computed j (by omega) (by omega)
    simp only [RetryAsk.back, here]
    cases Context.runStepCatching name ending with
    | ok value => rfl
    | error e =>
      by_cases retries : stepRetries ctx.workflowId retryIf e = true
      · simp only [retries, if_true, Client.embed]
        exact congrArg (Client.ask Ask.wait) (funext fun _ => rest)
      · simp only [retries]
        rfl

namespace Transaction

section Loops

variable {α β : Type} {timing : RetryTiming} {again : Nat → Error → Bool}
  {act : (q : RetryAsk) → Client Query Query.Reply (RetryAsk.Reply α q)}
  (attempt : Client Query Query.Reply (Except Error α)) {finish : Except Error α → Client Query Query.Reply β}
  {loop : Nat → Client Query Query.Reply β}

/-- A loop that makes the same attempt again, as long as `again` says so, and then goes on with its last result. -/
theorem loop_eq (attempts : ∀ k, act (.attempt k) = attempt) (pauses : ∀ d, act (.pause d) = .done ())
    {delay : Nat → Option ℚ} {total : Nat} (last : loop 0 = attempt.bind finish)
    (more : ∀ left k, k + (left + 1) = total → loop (left + 1) = attempt.bind fun
      | .ok a => finish (.ok a)
      | .error e => if again k e then loop left else finish (.error e))
    (left k : Nat) (spent : k + left = total) (computed : ∀ j, k ≤ j → j < total → (delay j).isSome = true) :
    loop left = ((retrying delay again left k).expand act).bind finish := by
  induction left generalizing k with
  | zero =>
    rw [last, retrying, Client.expand, attempts, Client.bind_assoc]
    rfl
  | succ left ih =>
    rw [more left k spent, retrying, Client.expand, attempts, Client.bind_assoc]
    refine congrArg (Client.bind attempt) (funext fun result => ?_)
    obtain ⟨d, here⟩ := Option.isSome_iff_exists.mp (computed k le_rfl (by omega))
    have rest := ih (k + 1) (by omega) fun j low high => computed j (by omega) high
    cases result with
    | ok a => rfl
    | error e =>
      by_cases retries : again k e = true
      · simp only [retries, if_true, here, Client.expand, pauses, Client.done_bind]
        exact rest
      · simp only [retries]
        rfl

end Loops

section Step

variable (lib : SerdeJson) (serializer : Serializer) (call : Call) (rounds : Nat)

/-- An attempt of `run_transaction_step`: what ends the step is handed on, a failure of the body is not yet. -/
def bodyAttempt : (q : RetryAsk) → Client Query Query.Reply (RetryAsk.Reply (Except Error Value) q)
  | .attempt _ => Client.bind (retryConflicts lib serializer call rounds) fun
    | .ok (.committed value) => .done (.ok (.ok value))
    | .ok (.bodyFailed e) => .done (.error e)
    | .error e => .done (.ok (.error e))
  | .pause _ => .done ()

def concludeBody : Except Error (Except Error Value) → Tx Finish
  | .ok (.ok value) => pure (.committed value)
  | .ok (.error e) => .throw e
  | .error e => if e.lostRace then .throw e else recordExhausted lib serializer call e

theorem afterAttempt_failed (retries : Nat) (again : Tx Finish) (e : Error) :
    afterAttempt lib serializer call retries again (.bodyFailed e) =
      if !e.lostRace && call.opts.shouldUserRetry e retries then again else concludeBody lib serializer call (.error e) := by
  cases e <;> rfl

/-- As long as the delays are computed, the loop of `run_transaction_step` is the one that the policy times. -/
theorem retryBody_eq {timing : RetryTiming} (same : timing.maxRetries.toNat = call.opts.maxRetries)
    (computed : ∀ j < call.opts.maxRetries, (timing.backoff j).isSome = true) :
    retryBody lib serializer call rounds call.opts.maxRetries =
      Client.bind (((Retrier.transaction call.opts).loop timing).expand (bodyAttempt lib serializer call rounds))
        (concludeBody lib serializer call) := by
  rw [Retrier.loop, same]
  refine loop_eq (bodyAttempt lib serializer call rounds (.attempt 0)) (fun _ => rfl) (fun _ => rfl) ?_ ?_ _ 0
    (Nat.zero_add _) fun j _ high => computed j high
  · rw [retryBody]
    refine Eq.trans ?_ (Client.bind_assoc _ _ _).symm
    refine congrArg (Client.bind (retryConflicts lib serializer call rounds)) (funext fun result => ?_)
    cases result with
    | error e => rfl
    | ok ended =>
      cases ended with
      | committed value => rfl
      | bodyFailed e =>
        refine (afterAttempt_failed lib serializer call call.opts.maxRetries Fallible.halt e).trans (if_neg ?_)
        rw [shouldUserRetry_spent, Bool.and_false]
        exact Bool.false_ne_true
  · intro left k spent
    rw [retryBody]
    refine Eq.trans ?_ (Client.bind_assoc _ _ _).symm
    refine congrArg (Client.bind (retryConflicts lib serializer call rounds)) (funext fun result => ?_)
    cases result with
    | error e => rfl
    | ok ended =>
      cases ended with
      | committed value => rfl
      | bodyFailed e =>
        have round : call.opts.maxRetries - (left + 1) = k := by omega
        have again : (Retrier.transaction call.opts).again timing k e =
            (!e.lostRace && call.opts.shouldUserRetry e k) := by simp only [Retrier.again, same]
        rw [round, Client.done_bind]
        dsimp only
        rw [again]
        exact afterAttempt_failed lib serializer call k (retryBody lib serializer call rounds left) e

end Step

section DataSource

variable (call : DsCall) (attempt : Tx DsAttempt) (committed completed : Value → Tx StepOutcome)
  (failed : Error → Tx StepOutcome) (rounds : Nat)

def dsAttempt : (q : RetryAsk) → Client Query Query.Reply (RetryAsk.Reply (Except Error DsAttempt) q)
  | .attempt _ => Client.bind (retryAttempts call attempt rounds) fun
    | .ok (.bodyFailed e) => .done (.error e)
    | .ok ended => .done (.ok (.ok ended))
    | .error e => .done (.ok (.error e))
  | .pause _ => .done ()

def concludeDsBody : Except Error (Except Error DsAttempt) → Tx StepOutcome
  | .ok (.ok (.committed value)) => committed value
  | .ok (.ok (.alreadyCompleted value)) => completed value
  | .ok (.error e) => .throw e
  | .ok (.ok (.bodyFailed e)) | .error e => failed e

/-- The loop of a data source's transaction is timed alike; it knows no lost race. -/
theorem retryDsBody_eq {timing : RetryTiming} (same : timing.maxRetries.toNat = call.opts.maxRetries)
    (computed : ∀ j < call.opts.maxRetries, (timing.backoff j).isSome = true) :
    retryDsBody call attempt committed completed failed rounds call.opts.maxRetries =
      Client.bind (((Retrier.dataSource call.opts).loop timing).expand (dsAttempt call attempt rounds))
        (concludeDsBody committed completed failed) := by
  rw [Retrier.loop, same]
  refine loop_eq (dsAttempt call attempt rounds (.attempt 0)) (fun _ => rfl) (fun _ => rfl) ?_ ?_ _ 0
    (Nat.zero_add _) fun j _ high => computed j high
  · rw [retryDsBody]
    refine Eq.trans ?_ (Client.bind_assoc _ _ _).symm
    refine congrArg (Client.bind (retryAttempts call attempt rounds)) (funext fun result => ?_)
    cases result with
    | error e => rfl
    | ok ended =>
      cases ended with
      | committed value | alreadyCompleted value => rfl
      | bodyFailed e =>
        refine if_neg ?_
        rw [shouldUserRetry_spent]
        exact Bool.false_ne_true
  · intro left k spent
    rw [retryDsBody]
    refine Eq.trans ?_ (Client.bind_assoc _ _ _).symm
    refine congrArg (Client.bind (retryAttempts call attempt rounds)) (funext fun result => ?_)
    cases result with
    | error e => rfl
    | ok ended =>
      cases ended with
      | committed value | alreadyCompleted value => rfl
      | bodyFailed e =>
        have round : call.opts.maxRetries - (left + 1) = k := by omega
        have again : (Retrier.dataSource call.opts).again timing k e = call.opts.shouldUserRetry e k := by
          simp only [Retrier.again, same]
        rw [round, Client.done_bind]
        dsimp only
        rw [again]
        rfl

end DataSource

end Transaction

/-- In every run of either loop, each pause is the exponential delay, capped, and the workflow does not panic, exactly
if the delay fits after every attempt that is tried again. -/
theorem paced_iff {α : Type} (retrier : Retrier) (timing : RetryTiming) (ending : Nat → Except Error α) :
    retrier.Paced timing ending ↔
      ∀ k, Retried (retrier.again timing) ending 0 timing.maxRetries.toNat k → timing.Fits k := by
  have loop := @retrying_iff α timing.backoff (retrier.again timing) ending timing.capped timing.maxRetries.toNat 0
  rw [Nat.zero_add] at loop
  refine loop.trans (forall_congr' fun k => imp_congr_right fun retried => ?_)
  have range := timing.maxRetries.toNat_lt
  exact RetryTiming.backoff_iff (lt_trans retried.2.1 range)

/-- The intervals and the factor that `StepOptions::new` and `TransactionOptions::new` set. -/
def RetryTiming.standard (maxRetries : UInt32) : RetryTiming where
  maxRetries := maxRetries
  backoffFactor := 2
  baseInterval := 100000000
  maxInterval := 5000000000
  nonneg := by norm_num

theorem standard_product (maxRetries : UInt32) (k : Nat) :
    (RetryTiming.standard maxRetries).product k = 2 ^ k / 10 := by
  simp only [RetryTiming.product, RetryTiming.standard, Duration.asSecs, zpow_natCast]
  norm_num
  ring

/-- Of the standard delays the first 68 are computed. -/
theorem standard_fits_iff (maxRetries : UInt32) {k : Nat} (low : k < 2 ^ 31) :
    (RetryTiming.standard maxRetries).Fits k ↔ k < 68 := by
  rw [RetryTiming.Fits, if_pos low, standard_product, Duration.SECS]
  constructor
  · intro fits
    by_contra high
    have large : (2 : ℚ) ^ 68 ≤ 2 ^ k := pow_le_pow_right₀ (by norm_num) (by omega)
    norm_num at fits large
    linarith
  · intro small
    have bounded : (2 : ℚ) ^ k ≤ 2 ^ 67 := pow_le_pow_right₀ (by norm_num) (by omega)
    norm_num at bounded ⊢
    linarith

/-- A step whose every attempt fails panics after the 69th, where the delay is to be five seconds. -/
theorem standard_panics :
    ¬ (Retrier.step "w" none).Paced (RetryTiming.standard 100) (fun _ =>
      (.error (.ofMessage "down") : Except Error Unit)) := by
  intro paced
  have loop := (@retrying_iff Unit (RetryTiming.standard 100).backoff
    ((Retrier.step "w" none).again (RetryTiming.standard 100)) (fun _ => .error (.ofMessage "down"))
    (RetryTiming.standard 100).capped (RetryTiming.standard 100).maxRetries.toNat 0).mp paced
  have retries : stepRetries "w" none (.ofMessage "down") = true := by decide
  have computed := loop 68 ⟨by decide, by decide, fun j _ _ => ⟨_, rfl, retries⟩⟩
  have fits := (RetryTiming.backoff_iff (by decide)).mp computed
  exact absurd ((standard_fits_iff 100 (by decide)).mp fits) (by decide)

end Durare

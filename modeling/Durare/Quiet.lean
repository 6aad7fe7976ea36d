import Durare.Collectors

/-! When a collector starts its target: no sooner than the last input has been quiet for its delay,
if that input was taken in the moment its round began. -/
namespace Durare.Debounce

def millis (span : Duration) : Int := (span / 1000000 : Nat)

namespace Collector

/-- The last input has been quiet for its delay: since the message was taken, or, without one, since
the collector's start. -/
def quietAt (c : Collector) (start : Int) : Int :=
  match c.taken.getLast? with
  | none => start + millis c.ask.delay
  | some t => t.takenAt.timestampMillis + millis t.letter.ask.delay

/-- Or the timeout has passed, where there is one. -/
def earliest (c : Collector) (start : Int) : Int :=
  let timeout := millis c.ask.debouncer.timeout
  if 0 < timeout then min (c.quietAt start) (start + timeout) else c.quietAt start

/-- Every start of the target keeps to that. -/
def Quiet (c : Collector) : Prop :=
  ∀ launch ∈ c.launches, ∃ l, c.control = .returned l ∧ c.earliest l.start ≤ launch.launchedAt.timestampMillis

/-- The last message was taken in the millisecond in which its round read the clock, or the timeout falls
within its delay from there; and its times can be counted. -/
def Prompt (c : Collector) : Prop :=
  ∀ l, c.control = .returned l →
    l.start + millis c.ask.debouncer.timeout < 2 ^ 63 ∧
    match c.taken.getLast? with
    | none => l.start + millis c.ask.delay < 2 ^ 63
    | some t => t.round + millis t.letter.ask.delay < 2 ^ 63 ∧
        (t.takenAt.timestampMillis ≤ t.round ∨ 0 < millis c.ask.debouncer.timeout ∧
          l.start + millis c.ask.debouncer.timeout ≤ t.round + millis t.letter.ask.delay)

end Collector

theorem asMillis_small {span : Duration} (fits : millis span < 2 ^ 63) : span.asMillis = millis span :=
  asI64_of_fits (Int.le_trans (by decide) (Int.natCast_nonneg _)) fits

theorem millis_nonneg (span : Duration) : 0 ≤ millis span := Int.natCast_nonneg _

/-- The loop was left after its target time, when that is a time that can be counted. -/
theorem Late.past {l : Locals} {at_time : DateTime} (late : Late l at_time) (low : 0 ≤ l.target)
    (high : l.target < 2 ^ 63)
    (calendar : at_time.timestampMillis < 2 ^ 63) : l.target ≤ at_time.timestampMillis := by
  obtain ⟨now, era, before, beyond⟩ := late
  have exact_span : remaining l now = l.target - now := asI64_of_fits (by omega) (by omega)
  rw [exact_span] at beyond
  omega

/-- A counted time capped in the source's arithmetic is the earlier one of it and the timeout. -/
theorem cap_small {input : DebouncerInput} {start t : Int} (fits : start + input.timeoutMs < 2 ^ 63) (since : 0 ≤ start)
    (some_time : 0 ≤ input.timeoutMs) :
    cap input start t = if 0 < input.timeoutMs then min t (start + input.timeoutMs) else t := by
  have exact_sum : asI64 (start + input.timeoutMs) = start + input.timeoutMs := asI64_of_fits (by omega) fits
  simp only [cap, exact_sum]
  split <;> split <;> omega

theorem run_calendar (uuid : Nat → String) (clock : DateTime) (calendar : clock ≤ Context.MAX_INSTANT)
    (events : List Event) :
    (run uuid events (start clock)).clock ≤ Context.MAX_INSTANT := by
  have keeps (s : State) (event : Event) (_ : True) (kept : s.clock ≤ Context.MAX_INSTANT) :
      (next uuid s event).clock ≤ Context.MAX_INSTANT := by
    cases event with
    | pass span =>
      simp only [next]
      split
      · assumption
      · exact kept
    | produce i reply expired =>
      simp only [next]
      cases s.producers[i]? with
      | none => exact kept
      | some p => exact (produce_produced uuid reply expired p s).clock ▸ kept
    | _ => exact kept
  exact Runs.invariant keeps (Runs.along_of_forall _ (fun _ _ => trivial) events _) calendar

/-- The target starts no sooner than the last accepted input has been quiet, or the timeout has passed. -/
theorem quiet_period (uuid : Nat → String) (clock : DateTime) (era : 0 ≤ clock) (calendar : clock ≤ Context.MAX_INSTANT)
    (events : List Event) : ∀ c ∈ (run uuid events (start clock)).collectors, c.Prompt → c.Quiet := by
  intro c member prompt launch launched
  have sane := run_sane uuid clock era events c member
  obtain ⟨l, at_control, -, last, late, carries, -⟩ := sane.launched launched
  obtain ⟨fits, prompt⟩ := prompt l at_control
  obtain ⟨id, made⟩ := sane.input
  have timeout : c.input.timeoutMs = millis c.ask.debouncer.timeout := by
    simp only [made, Ask.debouncerInput]
    exact asMillis_small (by have := carries.start; omega)
  have calendar : launch.launchedAt.timestampMillis < 2 ^ 63 := by
    have stamped := timestampMillis_mono (Int.le_trans (sane.recorded _ last) (run_calendar uuid clock calendar events))
    exact Int.lt_of_le_of_lt stamped (by decide)
  have target := carries.target
  rw [@cap_small c.input l.start _ (timeout ▸ fits) carries.start (timeout ▸ millis_nonneg c.ask.debouncer.timeout),
    timeout] at target
  refine ⟨l, at_control, ?_⟩
  have some_timeout := millis_nonneg c.ask.debouncer.timeout
  have since := carries.start
  -- The aim is that of the last input, and it has been reached.
  cases latest : c.taken.getLast? with
  | none =>
    simp only [latest] at prompt
    have delay : c.input.delayMs = millis c.ask.delay := by
      simp only [made, Ask.debouncerInput]
      exact asMillis_small (by omega)
    have some_delay := millis_nonneg c.ask.delay
    simp only [latestAim, latest, delay] at target
    rw [asI64_of_fits (by omega) prompt] at target
    have reached := late.past (by split at target <;> omega) (by split at target <;> omega) calendar
    simp only [Collector.earliest, Collector.quietAt, latest]
    split at target <;> simp_all only [if_true, if_false]
  | some t =>
    obtain ⟨fits_aim, prompt⟩ : _ ∧ _ := by simpa only [latest] using prompt
    have taken := List.mem_of_getLast? latest
    have delay : t.letter.message.delayMs = millis t.letter.ask.delay := by
      obtain ⟨messageId, genuine⟩ := sane.taken t taken
      simp only [genuine, Ask.message]
      exact asMillis_small (by have := carries.rounds t taken; omega)
    have some_delay := millis_nonneg t.letter.ask.delay
    have round := carries.rounds t taken
    simp only [latestAim, latest, delay] at target
    rw [asI64_of_fits (by omega) fits_aim] at target
    have reached := late.past (by split at target <;> omega) (by split at target <;> omega) calendar
    simp only [Collector.earliest, Collector.quietAt, latest]
    split at target <;> split <;> omega

def tally : Nat → String
  | 0 => "u"
  | n + 1 => "u" ++ tally n

def tenSeconds (input : Value) : Ask where
  debouncer := { target := "report" }
  key := "k"
  delay := 10000000000
  input := input

def opening : List Event := [.ask (tenSeconds .null), .produce 0 .delivered false]

def pushing : List Event :=
  .ask (tenSeconds (.bool true)) :: List.replicate 4 (.produce 1 .delivered false)

/-- A worker takes the collector and comes as far as its first wait, or to the message that is there. -/
def collecting : List Event := .dispatch 0 :: List.replicate 7 (.advance 0)

/-- The message comes in the ninth second of the wait. -/
def interrupted : List Event :=
  opening ++ collecting ++ [.advance 0, .pass 9000000000] ++ pushing ++ List.replicate 8 (.advance 0) ++
    [.pass 1000000000, .advance 0, .advance 0, .advance 0]

/-- Its target starts a second after it was taken. -/
theorem interrupted_early : ¬ ∀ c ∈ (run tally interrupted (start 0)).collectors, c.Quiet := by
  intro quiet
  have seen : (run tally interrupted (start 0)).collectors.map (fun c =>
      (c.launches.map (·.launchedAt), c.control, c.earliest 0)) =
      [([10000000000], .returned ⟨0, .bool true, 10000⟩, 19000)] := rfl
  obtain ⟨c, only, facts⟩ := List.map_eq_singleton_iff.mp seen
  simp only [Prod.mk.injEq] at facts
  obtain ⟨times, returned, earliest⟩ := facts
  obtain ⟨launch, launched, at_time⟩ := List.map_eq_singleton_iff.mp times
  obtain ⟨l, same, late⟩ := quiet c (only ▸ List.mem_singleton.mpr rfl) launch (launched ▸ List.mem_singleton.mpr rfl)
  cases returned.symm.trans same
  rw [earliest, at_time] at late
  exact absurd late (by decide)

/-- The message is there before its round reads the clock. -/
def waiting : List Event :=
  opening ++ pushing ++ collecting ++ List.replicate 5 (.advance 0) ++ [.pass 10000000000] ++ List.replicate 3 (.advance 0)

theorem waiting_quiet : ∃ c ∈ (run tally waiting (start 0)).collectors, c.launches.map (·.launchedAt) = [10000000000] ∧
    c.taken.length = 1 ∧ c.Quiet := by
  have seen : (run tally waiting (start 0)).collectors.map (fun c =>
      (c.launches.map (·.launchedAt), c.control, c.ask.debouncer.timeout, c.taken.map fun t => (t.letter.ask.delay, t.round, t.takenAt))) =
      [([10000000000], .returned ⟨0, .bool true, 10000⟩, 0, [(10000000000, 0, 0)])] := rfl
  obtain ⟨c, only, facts⟩ := List.map_eq_singleton_iff.mp seen
  simp only [Prod.mk.injEq] at facts
  obtain ⟨times, returned, timeout, messages⟩ := facts
  obtain ⟨t, alone, facts⟩ := List.map_eq_singleton_iff.mp messages
  simp only [Prod.mk.injEq] at facts
  obtain ⟨delay, round, takenAt⟩ := facts
  have member : c ∈ (run tally waiting (start 0)).collectors := only ▸ List.mem_singleton.mpr rfl
  refine ⟨c, member, times, by rw [alone]; rfl, ?_⟩
  refine quiet_period tally 0 (Int.le_refl 0) (by decide) waiting c member fun l same => ?_
  cases returned.symm.trans same
  simp only [alone, List.getLast?_singleton, timeout, delay, round, takenAt]
  decide

end Durare.Debounce

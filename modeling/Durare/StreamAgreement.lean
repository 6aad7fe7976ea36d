import Durare.StreamReaders
import Durare.Runs

/-! The two readers of one stream, side by side: both come to the same values and the same end, whatever happens between
their calls. -/
namespace Durare.StreamAgreement

open StreamReaders

/-- The stream and its two readers: what they were answered as a failure, and what the incremental one has
handed out. -/
structure State (τ : Type) where
  live : Live
  drain : Drain τ := .start
  drainFailed : Option Error := none
  pull : Pull := .start
  pullFailed : Option Error := none
  yielded : List (Except Error τ) := []

inductive Event where
  | world (live : Live)
  | drain (a : Answers)
  | pull (a : Answers)

section Machine

variable {τ : Type} (decode : Value → Except String τ) (id : String)

def next (s : State τ) : Event → State τ
  | .world live => { s with live := live }
  | .drain a =>
    { s with drain := s.drain.next decode id a, drainFailed := s.drainFailed.or (s.drain.failure id a) }
  | .pull a =>
    let (item, pull) := s.pull.next decode id a
    { s with pull := pull, pullFailed := s.pullFailed.or (s.pull.failure id a), yielded := s.yielded ++ item.toList }

def after (events : Nat → Event) (s : State τ) : Nat → State τ
  | 0 => s
  | n + 1 => next decode id (after events s n) (events n)

end Machine

/-- The stream is only appended to, its producer writes nothing once it is over, and a reader is answered with what the
stream holds or with a failure. -/
def Consistent {τ : Type} (s : State τ) : Event → Prop
  | .world live => s.live.Onward live
  | .drain a | .pull a => s.live.values.length < 2 ^ 31 ∧ a.Shows s.live ∧ a.Tells s.live

section Agreement

variable {τ : Type} (decode : Value → Except String τ)

/-- The two ends are alike: the same values, or those before the one that does not decode and then its error. -/
def Alike (w : Live) (yielded : List (Except Error τ)) : Except Error (List τ × Bool) → Prop
  | .ok (all, _) => yielded = all.map .ok
  | .error e => ∃ ts, Spoilt decode w.values ts e ∧ yielded = ts.map .ok ++ [.error e]

/-- What holds of the two readers at any moment. -/
structure Agree (s : State τ) : Prop where
  handed : ∃ ts, Begins decode s.live.values ts ∧
    (s.yielded = ts.map .ok ∨ ∃ e, s.yielded = ts.map .ok ++ [.error e] ∧ (s.pull = .failed ∨ s.pull = .ended))
  complete : ∀ all closed, s.drain = .returned (.ok (all, closed)) → closed = true ∧ Decoded decode s.live.values all
  alike : s.drainFailed = none → s.pullFailed = none → ∀ result, s.drain = .returned result → s.pull = .ended →
    Alike decode s.live s.yielded result
  drainFailed : ∀ e, s.drainFailed = some e → s.drain = .returned (.error e)
  pullFailed : ∀ e, s.pullFailed = some e →
    (s.pull = .failed ∨ s.pull = .ended) ∧ ∃ ts : List τ, s.yielded = ts.map .ok ++ [.error e]

variable {decode} {w : Live} {failed : Option Error} {yielded : List (Except Error τ)} {pull : Pull} {drain : Drain τ}

theorem handed_of_keeps (keeps : pull.Keeps decode w failed yielded) :
    ∃ ts, Begins decode w.values ts ∧
      (yielded = ts.map .ok ∨ ∃ e, yielded = ts.map .ok ++ [.error e] ∧ (pull = .failed ∨ pull = .ended)) := by
  cases pull with
  | reading offset buffer finalRead =>
    obtain ⟨-, -, read, ts, same, decoded, within, -⟩ := keeps
    exact ⟨ts, ⟨read, (List.prefix_append read buffer).trans within, decoded⟩, .inl same⟩
  | checking offset =>
    obtain ⟨-, read, ts, same, decoded, within, -⟩ := keeps
    exact ⟨ts, ⟨read, within, decoded⟩, .inl same⟩
  | failed =>
    obtain ⟨ts, e, same, begins, -⟩ := keeps
    exact ⟨ts, begins, .inr ⟨e, same, .inl rfl⟩⟩
  | ended =>
    obtain ⟨ts, e, same, begins, -⟩ | ⟨-, ⟨ts, same, decoded⟩, -⟩ := keeps
    · exact ⟨ts, begins, .inr ⟨e, same, .inr rfl⟩⟩
    · exact ⟨ts, ⟨w.values, List.prefix_refl _, decoded⟩, .inl same⟩

theorem pullFailed_of_keeps {e : Error} (keeps : pull.Keeps decode w (some e) yielded) :
    (pull = .failed ∨ pull = .ended) ∧ ∃ ts : List τ, yielded = ts.map .ok ++ [.error e] := by
  have erred (erred : Erred decode w (some e) yielded) : ∃ ts : List τ, yielded = ts.map .ok ++ [.error e] := by
    obtain ⟨ts, e', same, -, cause | ⟨none, -⟩⟩ := erred
    · cases cause
      exact ⟨ts, same⟩
    · cases none
  cases pull with
  | reading offset buffer finalRead => cases keeps.1
  | checking offset => cases keeps.1
  | failed => exact ⟨.inl rfl, erred keeps⟩
  | ended =>
    obtain broken | ⟨none, -⟩ := keeps
    · exact ⟨.inr rfl, erred broken⟩
    · cases none

theorem drainFailed_of_keeps {e : Error} (keeps : drain.Keeps decode w (some e)) : drain = .returned (.error e) := by
  cases drain with
  | reading all offset finalRead => cases keeps.1
  | checking all offset => cases keeps.1
  | returned result =>
    cases result with
    | ok reply => cases keeps.1
    | error e' =>
      obtain cause | ⟨none, -⟩ := keeps
      · cases cause
        rfl
      · cases none

/-- Without failures the two readers end alike. -/
theorem alike_of_keeps {result : Except Error (List τ × Bool)} (drained : (Drain.returned result).Keeps decode w none)
    (pulled : Pull.ended.Keeps decode w none yielded) : Alike decode w yielded result := by
  cases result with
  | ok reply =>
    obtain ⟨-, -, decoded, -⟩ := drained
    obtain ⟨ts, e, -, -, cause | ⟨-, spoilt⟩⟩ | ⟨-, ⟨ts, same, decoded'⟩, -⟩ := pulled
    · cases cause
    · exact absurd decoded spoilt.not_decoded
    · rw [Alike, same, decoded.unique decoded']
  | error e =>
    obtain cause | ⟨-, ts, spoilt⟩ := drained
    · cases cause
    obtain ⟨ts', e', same, -, cause | ⟨-, spoilt'⟩⟩ | ⟨-, ⟨ts', -, decoded⟩, -⟩ := pulled
    · cases cause
    · obtain ⟨rfl, rfl⟩ := spoilt.unique spoilt'
      exact ⟨ts, spoilt, same⟩
    · exact absurd decoded spoilt.not_decoded

structure Inv (decode : Value → Except String τ) (s : State τ) : Prop where
  drain : s.drain.Keeps decode s.live s.drainFailed
  pull : s.pull.Keeps decode s.live s.pullFailed s.yielded

theorem Inv.agree {s : State τ} (inv : Inv decode s) : Agree decode s where
  handed := handed_of_keeps inv.pull
  complete all closed returned := by
    have keeps := inv.drain
    rw [returned] at keeps
    exact ⟨keeps.2.1, keeps.2.2.1⟩
  alike fine fine' result returned ended := by
    have drained := inv.drain
    have pulled := inv.pull
    rw [returned, fine] at drained
    rw [ended, fine'] at pulled
    exact alike_of_keeps drained pulled
  drainFailed e failed := drainFailed_of_keeps (w := s.live) (failed ▸ inv.drain)
  pullFailed e failed := pullFailed_of_keeps (w := s.live) (failed ▸ inv.pull)

theorem start_inv (live : Live) : Inv decode ({ live := live } : State τ) where
  drain := ⟨rfl, by simp, [], List.nil_prefix, .nil, rfl⟩
  pull := ⟨rfl, by simp, [], [], rfl, .nil, List.nil_prefix, rfl⟩

theorem next_inv {id : String} {s : State τ} {event : Event} (inv : Inv decode s) (consistent : Consistent s event) :
    Inv decode (next decode id s event) := by
  cases event with
  | world live => exact ⟨inv.drain.onward consistent, inv.pull.onward consistent⟩
  | drain a =>
    obtain ⟨fits, shown, told⟩ := consistent
    exact ⟨inv.drain.next_keeps fits shown fun _ _ _ => told, inv.pull⟩
  | pull a =>
    obtain ⟨fits, shown, told⟩ := consistent
    exact ⟨inv.drain, inv.pull.next_keeps fits shown told⟩

/-- How far the readers have to go, once it is settled: through `goal` items, the last of them an error if a value is
`bad`, or to the end of the stream. -/
def Goal (decode : Value → Except String τ) (w : Live) (bad : Bool) (goal : Nat) : Prop :=
  match bad with
  | false => (w.shut = true ∨ w.halted = true) ∧ goal = w.values.length
  | true => ∃ ts e, Spoilt decode w.values ts e ∧ goal = ts.length + 1

theorem Goal.onward {w' : Live} {bad : Bool} {goal : Nat} (settled : Goal decode w bad goal) (onward : w.Onward w') :
    Goal decode w' bad goal := by
  cases bad with
  | false =>
    obtain ⟨complete, rfl⟩ := settled
    exact ⟨onward.complete complete, by rw [onward.still complete]⟩
  | true =>
    obtain ⟨ts, e, spoilt, same⟩ := settled
    exact ⟨ts, e, spoilt.mono onward.grown, same⟩

/-- A pass that reads to the end is the last one. -/
def last (w : Live) (bad finalRead : Bool) : Bool := bad || w.shut || finalRead

def drainRank (w : Live) (bad : Bool) : Drain τ → Nat
  | .returned _ => 0
  | .checking _ _ => 2
  | .reading _ _ finalRead => if last w bad finalRead then 1 else 3

def pullRank (w : Live) (bad : Bool) (goal : Nat) (handed : Nat) : Pull → Nat
  | .ended => 0
  | .failed => 1
  | .checking _ => 4 * (goal - handed) + 2
  | .reading _ (_ :: _) _ => 4 * (goal - handed)
  | .reading _ [] finalRead => 4 * (goal - handed) + if last w bad finalRead || handed < goal then 1 else 3

theorem last_onward {w' : Live} (onward : w.Onward w') {bad finalRead : Bool} (here : last w bad finalRead = true) :
    last w' bad finalRead = true := by
  simp only [last, Bool.or_eq_true] at here ⊢
  exact here.imp_left (.imp_right onward.shut)

theorem drainRank_onward {w' : Live} (onward : w.Onward w') (bad : Bool) (drain : Drain τ) :
    drainRank w' bad drain ≤ drainRank w bad drain := by
  cases drain with
  | reading all offset finalRead =>
    have kept := @last_onward w w' onward bad finalRead
    simp only [drainRank]
    split <;> split <;> simp_all
  | checking | returned => exact Nat.le_refl _

theorem pullRank_onward {w' : Live} (onward : w.Onward w') (bad : Bool) (goal handed : Nat) (pull : Pull) :
    pullRank w' bad goal handed pull ≤ pullRank w bad goal handed pull := by
  cases pull with
  | reading offset buffer finalRead =>
    cases buffer with
    | nil =>
      have kept := @last_onward w w' onward bad finalRead
      simp only [pullRank, Bool.or_eq_true, decide_eq_true_eq]
      by_cases more : handed < goal
      · simp [more]
      · simp only [more, or_false]
        split <;> split <;> simp_all
    | cons => exact Nat.le_refl _
  | checking | failed | ended => exact Nat.le_refl _

/-- A settled stream makes the next pass the last one. -/
theorem Goal.last {bad : Bool} {goal : Nat} (settled : Goal decode w bad goal) {finalRead : Bool}
    (told : finalRead = w.halted) : last w bad finalRead = true := by
  cases bad with
  | true => rfl
  | false =>
    rw [told]
    obtain shut | halted := settled.1 <;> simp [StreamAgreement.last, *]

/-- A call of the blocking reader that is answered brings it nearer to its end. -/
theorem drain_lower {id : String} {a : Answers} {bad : Bool} {goal : Nat} (settled : Goal decode w bad goal)
    (keeps : drain.Keeps decode w none) (shown : a.Shows w) (told : a.Tells w) (fine : drain.failure id a = none)
    (running : ∀ result, drain ≠ .returned result) :
    drainRank w bad (drain.next decode id a) < drainRank w bad drain := by
  cases drain with
  | returned result => exact absurd rfl (running result)
  | checking all offset =>
    cases answered : a.status with
    | error e => simp [Drain.failure, Answers.missing, answered] at fine
    | ok status =>
      cases status with
      | none => simp [Drain.failure, Answers.missing, answered] at fine
      | some status =>
        have ends := settled.last (told status answered)
        simp [Drain.next, answered, drainRank, ends]
  | reading all offset finalRead =>
    obtain ⟨-, final, read, within, decoded, rfl⟩ := keeps
    cases answered : a.entries read.length with
    | error e => simp [Drain.failure, Answers.unread, answered] at fine
    | ok reply =>
      obtain ⟨values, closed⟩ := reply
      obtain ⟨whole, same⟩ := shown.read within answered
      dsimp only at whole same
      have ends : 0 < drainRank w bad (.reading all read.length finalRead) := by
        simp only [drainRank]
        split <;> omega
      simp only [Drain.next, answered]
      obtain ⟨ts, pushed, more⟩ | ⟨ts, e, pushed, -⟩ := @pushAll_spec τ decode all values
      · rw [pushed]
        dsimp only
        have every : Decoded decode w.values (all ++ ts) := whole ▸ List.rel_append decoded more
        have good : bad = false := by
          cases bad with
          | false => rfl
          | true =>
            obtain ⟨us, e, spoilt, -⟩ := settled
            exact absurd every spoilt.not_decoded
        split
        · exact ends
        next shut =>
          split
          · exact ends
          next onward =>
            -- neither closed nor the last pass: the status comes next
            have more_ : last w bad finalRead = false := by
              rw [Bool.not_eq_true] at shut onward
              simp [last, good, ← same, shut, onward]
            simp [drainRank, more_]
      · rw [pushed]
        exact ends

theorem pullRank_reading_le (bad : Bool) (goal handed : Nat) (offset : Int) (buffer : List Value) (finalRead : Bool) :
    pullRank w bad goal handed (.reading offset buffer finalRead) ≤ 4 * (goal - handed) + 3 := by
  cases buffer with
  | nil =>
    simp only [pullRank]
    split <;> omega
  | cons => simp [pullRank]

/-- There is a value left to hand out as long as the goal is not reached. -/
theorem Goal.room {bad : Bool} {goal : Nat} (settled : Goal decode w bad goal) {read : List Value} {v : Value}
    {ts : List τ} (within : read ++ [v] <+: w.values) (decoded : Decoded decode read ts) : ts.length < goal := by
  have length := within.length_le
  rw [List.length_append, List.length_singleton, decoded.length_eq] at length
  cases bad with
  | false =>
    obtain ⟨-, rfl⟩ := settled
    omega
  | true =>
    obtain ⟨us, e, spoilt, rfl⟩ := settled
    have bound := spoilt.bound ((List.prefix_append read [v]).trans within) decoded
    rw [decoded.length_eq] at bound
    omega

/-- A pull that is answered brings the incremental reader nearer to its end. -/
theorem pull_lower {id : String} {a : Answers} {bad : Bool} {goal : Nat} (settled : Goal decode w bad goal)
    (keeps : pull.Keeps decode w none yielded) (shown : a.Shows w) (told : a.Tells w) (fine : pull.failure id a = none)
    (running : pull ≠ .ended) :
    pullRank w bad goal (yielded ++ (pull.next decode id a).1.toList).length (pull.next decode id a).2 <
      pullRank w bad goal yielded.length pull := by
  cases pull with
  | ended => exact absurd rfl running
  | failed => simp [Pull.next, pullRank]
  | checking offset =>
    cases answered : a.status with
    | error e => simp [Pull.failure, Answers.missing, answered] at fine
    | ok status =>
      cases status with
      | none => simp [Pull.failure, Answers.missing, answered] at fine
      | some status =>
        have ends := settled.last (told status answered)
        simp [Pull.next, answered, pullRank, ends]
  | reading offset buffer finalRead =>
    obtain ⟨-, final, read, ts, rfl, decoded, within, rfl⟩ := keeps
    cases buffer with
    | cons v buffer =>
      have room : ts.length < goal := by
        rw [List.append_cons] at within
        exact settled.room ((List.prefix_append ..).trans within) decoded
      cases first : decode v with
      | error message =>
        simp only [Pull.next, first, pullRank, List.length_map]
        omega
      | ok t =>
        have bound := @pullRank_reading_le w bad goal (ts.length + 1) (read ++ v :: buffer).length buffer finalRead
        have before : pullRank w bad goal (ts.map (Except.ok (ε := Error))).length
            (.reading (read ++ v :: buffer).length (v :: buffer) finalRead) = 4 * (goal - ts.length) := by
          simp [pullRank]
        rw [before]
        simp only [Pull.next, first, Option.toList_some, List.length_append, List.length_map,
          List.length_singleton] at bound ⊢
        omega
    | nil =>
      rw [List.append_nil] at within ⊢
      cases answered : a.entries read.length with
      | error e => simp [Pull.failure, Answers.unread, answered] at fine
      | ok reply =>
        obtain ⟨values, closed⟩ := reply
        obtain ⟨whole, same⟩ := shown.read within answered
        dsimp only at whole same
        have some_ : 4 * (goal - ts.length) <
            pullRank w bad goal (ts.map (Except.ok (ε := Error))).length (.reading read.length [] finalRead) := by
          simp only [pullRank, List.length_map]
          split <;> omega
        simp only [Pull.next, answered]
        split
        next more =>
          obtain ⟨v, rest, rfl⟩ := List.exists_cons_of_ne_nil more
          simpa [pullRank] using some_
        next empty =>
          have nothing : values = [] := by simpa using empty
          rw [nothing, List.append_nil] at whole
          subst whole
          split
          next => exact Nat.lt_of_le_of_lt (Nat.zero_le _) some_
          next onward =>
            -- all is handed out, and neither the close nor the last pass is reached: the status comes next
            obtain ⟨open_, not_final⟩ : closed = false ∧ finalRead = false := by simpa using onward
            have good : bad = false := by
              cases bad with
              | false => rfl
              | true =>
                obtain ⟨us, e, spoilt, -⟩ := settled
                exact absurd decoded spoilt.not_decoded
            subst good
            have all : goal = ts.length := settled.2.trans decoded.length_eq
            have more_ : last w false finalRead = false := by simp [last, ← same, open_, not_final]
            simp [pullRank, more_, all]

theorem goal_of_drain {s : State τ} (inv : Inv decode s) (fine : s.drainFailed = none)
    {result : Except Error (List τ × Bool)} (returned : s.drain = .returned result) :
    ∃ bad goal, Goal decode s.live bad goal := by
  have keeps := inv.drain
  rw [returned, fine] at keeps
  cases result with
  | ok reply => exact ⟨false, _, keeps.2.2.2, rfl⟩
  | error e =>
    obtain cause | ⟨-, ts, spoilt⟩ := keeps
    · cases cause
    · exact ⟨true, _, ts, e, spoilt, rfl⟩

theorem goal_of_pull {s : State τ} (inv : Inv decode s) (fine : s.pullFailed = none) (ended : s.pull = .ended) :
    ∃ bad goal, Goal decode s.live bad goal := by
  have keeps := inv.pull
  rw [ended, fine] at keeps
  obtain ⟨ts, e, -, -, cause | ⟨-, spoilt⟩⟩ | ⟨-, -, complete⟩ := keeps
  · cases cause
  · exact ⟨true, _, ts, e, spoilt, rfl⟩
  · exact ⟨false, _, complete, rfl⟩

section Runs

variable {id : String} {events : Nat → Event} {start : State τ}
  (consistent : ∀ n, Consistent (after decode id events start n) (events n)) (inv : Inv decode start)
include consistent

theorem after_onward (n : Nat) :
    (after decode id events start n).live.Onward (after decode id events start (n + 1)).live := by
  have here := consistent n
  rw [after]
  cases made : events n with
  | world live =>
    rw [made] at here
    exact here
  | drain a | pull a => exact Live.Onward.refl _

theorem goal_after {bad : Bool} {goal n : Nat} (settled : Goal decode (after decode id events start n).live bad goal)
    (k : Nat) : Goal decode (after decode id events start (n + k)).live bad goal := by
  induction k with
  | zero => exact settled
  | succ k ih => exact ih.onward (after_onward consistent (n + k))

include inv

theorem after_inv (n : Nat) : Inv decode (after decode id events start n) := by
  induction n with
  | zero => exact inv
  | succ n ih => exact next_inv ih (consistent n)

variable (fine : ∀ n, (after decode id events start n).drainFailed = none ∧
  (after decode id events start n).pullFailed = none)
include fine

/-- Once it is settled, a reader that is polled again and again comes to its end. -/
theorem drain_ends {bad : Bool} {goal n : Nat} (settled : Goal decode (after decode id events start n).live bad goal)
    (polled : ∀ n, ∃ m, n ≤ m ∧ ∃ a, events m = .drain a) :
    ∃ n result, (after decode id events start n).drain = .returned result := by
  have lower (m : Nat) (later : n ≤ m) (a : Answers) (made : events m = .drain a)
      (running : ∀ result, (after decode id events start m).drain ≠ .returned result) :
      drainRank (after decode id events start (m + 1)).live bad (after decode id events start (m + 1)).drain <
        drainRank (after decode id events start m).live bad (after decode id events start m).drain := by
    have keeps := (after_inv consistent inv m).drain
    have here := consistent m
    have unfailed := (fine (m + 1)).1
    rw [after, made] at unfailed ⊢
    rw [made] at here
    rw [(fine m).1] at keeps
    have goal_ := goal_after consistent settled (m - n)
    rw [Nat.add_sub_of_le later] at goal_
    exact drain_lower goal_ keeps here.2.1 here.2.2 (Option.or_eq_none_iff.mp unfailed).2 running
  refine @Runs.eventually _ _ (fun s : State τ => drainRank s.live bad s.drain)
    (fun s => ∃ result, s.drain = .returned result) _ polled n ?_ ?_
  · intro m later
    have onward := after_onward consistent m
    cases made : events m with
    | world live =>
      rw [after, made] at onward ⊢
      exact drainRank_onward onward bad _
    | pull a =>
      rw [after, made]
      exact Nat.le_refl _
    | drain a =>
      by_cases done : ∃ result, (after decode id events start m).drain = .returned result
      · obtain ⟨result, returned⟩ := done
        rw [after, made]
        simp only [next, returned]
        exact Nat.le_refl _
      · exact Nat.le_of_lt (lower m later a made fun result returned => done ⟨result, returned⟩)
  · rintro m later ⟨a, made⟩ running
    exact lower m later a made fun result returned => running ⟨result, returned⟩

theorem pull_ends {bad : Bool} {goal n : Nat} (settled : Goal decode (after decode id events start n).live bad goal)
    (polled : ∀ n, ∃ m, n ≤ m ∧ ∃ a, events m = .pull a) : ∃ n, (after decode id events start n).pull = .ended := by
  have lower (m : Nat) (later : n ≤ m) (a : Answers) (made : events m = .pull a)
      (running : (after decode id events start m).pull ≠ .ended) :
      pullRank (after decode id events start (m + 1)).live bad goal
          (after decode id events start (m + 1)).yielded.length (after decode id events start (m + 1)).pull <
        pullRank (after decode id events start m).live bad goal (after decode id events start m).yielded.length
          (after decode id events start m).pull := by
    have keeps := (after_inv consistent inv m).pull
    have here := consistent m
    have unfailed := (fine (m + 1)).2
    rw [after, made] at unfailed ⊢
    rw [made] at here
    rw [(fine m).2] at keeps
    have goal_ := goal_after consistent settled (m - n)
    rw [Nat.add_sub_of_le later] at goal_
    exact pull_lower goal_ keeps here.2.1 here.2.2 (Option.or_eq_none_iff.mp unfailed).2 running
  refine @Runs.eventually _ _ (fun s : State τ => pullRank s.live bad goal s.yielded.length s.pull)
    (fun s => s.pull = .ended) _ polled n ?_ ?_
  · intro m later
    have onward := after_onward consistent m
    cases made : events m with
    | world live =>
      rw [after, made] at onward ⊢
      exact pullRank_onward onward bad goal _ _
    | drain a =>
      rw [after, made]
      exact Nat.le_refl _
    | pull a =>
      by_cases ended : (after decode id events start m).pull = .ended
      · rw [after, made]
        simp only [next, ended]
        exact Nat.zero_le _
      · exact Nat.le_of_lt (lower m later a made ended)
  · rintro m later ⟨a, made⟩ running
    exact lower m later a made running

end Runs

/-- Whatever happens between their calls: the two readers agree at every moment, and where neither is answered with a
failure and both are polled on and on, one comes to its end exactly if the other does. -/
theorem readers_agree (decode : Value → Except String τ) (id : String) (events : Nat → Event) (live : Live)
    (consistent : ∀ n, Consistent (after decode id events { live := live } n) (events n)) :
    (∀ n, Agree decode (after decode id events { live := live } n)) ∧
      ((∀ n, (after decode id events { live := live } n).drainFailed = none ∧
          (after decode id events { live := live } n).pullFailed = none) →
        (∀ n, ∃ m, n ≤ m ∧ ∃ a, events m = .drain a) → (∀ n, ∃ m, n ≤ m ∧ ∃ a, events m = .pull a) →
        ((∃ n result, (after decode id events { live := live } n).drain = .returned result) ↔
          ∃ n, (after decode id events { live := live } n).pull = .ended)) := by
  have inv := after_inv consistent (start_inv live)
  refine ⟨fun n => (inv n).agree, fun fine drained pulled => ⟨?_, ?_⟩⟩
  · rintro ⟨n, result, returned⟩
    obtain ⟨bad, goal, settled⟩ := goal_of_drain (inv n) (fine n).1 returned
    exact pull_ends consistent (start_inv live) fine settled pulled
  · rintro ⟨n, ended⟩
    obtain ⟨bad, goal, settled⟩ := goal_of_pull (inv n) (fine n).2 ended
    exact drain_ends consistent (start_inv live) fine settled drained

end Agreement

def shown (w : Live) (status : Option Status) : Answers := ⟨fun k => .ok (w.values.drop k.toNat, w.shut), .ok status⟩

theorem shown_shows (w : Live) (status : Option Status) : (shown w status).Shows w := by
  intro k _ reply answered
  cases answered
  rw [Int.toNat_natCast]

theorem shown_tells {w : Live} {status : Option Status} (same : ∀ s, status = some s → inactive s = w.halted) :
    (shown w status).Tells w := by
  intro s answered
  cases answered
  exact same s rfl

/-- A closed stream of one value, and its readers taking turns. -/
theorem closed_agree :
    let events (n : Nat) : Event :=
      if n % 2 = 0 then .drain (shown ⟨[.null], true, true⟩ (some .success))
      else .pull (shown ⟨[.null], true, true⟩ (some .success))
    let state := after (.ok : Value → Except String Value) "w" events { live := ⟨[.null], true, true⟩ }
    (∀ n, Agree .ok (state n)) ∧ ((∃ n result, (state n).drain = .returned result) ↔ ∃ n, (state n).pull = .ended) := by
  intro events state
  have told : (shown ⟨[.null], true, true⟩ (some .success)).Tells ⟨[.null], true, true⟩ :=
    shown_tells fun s same => by cases same; rfl
  have along (n : Nat) : (state n).live = ⟨[.null], true, true⟩ ∧ (state n).drainFailed = none ∧
      (state n).pullFailed = none := by
    induction n with
    | zero => exact ⟨rfl, rfl, rfl⟩
    | succ n ih =>
      obtain ⟨live, drained, pulled⟩ := ih
      change (next .ok "w" (state n) (events n)).live = _ ∧ (next .ok "w" (state n) (events n)).drainFailed = none ∧
        (next .ok "w" (state n) (events n)).pullFailed = none
      by_cases even : n % 2 = 0
      · simp only [events, even, if_true, next, live, drained, pulled, Option.none_or, true_and, and_true]
        cases (state n).drain <;> rfl
      · simp only [events, even, if_false, next, live, drained, pulled, Option.none_or, true_and]
        cases (state n).pull with
        | reading offset buffer finalRead => cases buffer <;> rfl
        | _ => rfl
  have agree := readers_agree (.ok : Value → Except String Value) "w" events ⟨[.null], true, true⟩ (by
    intro n
    have live := (along n).1
    change Consistent (state n) (events n)
    by_cases even : n % 2 = 0
    · simp only [events, even, if_true, Consistent, live]
      exact ⟨by decide, shown_shows _ _, told⟩
    · simp only [events, even, if_false, Consistent, live]
      exact ⟨by decide, shown_shows _ _, told⟩)
  refine ⟨agree.1, agree.2 (fun n => (along n).2) ?_ ?_⟩
  · intro n
    exact ⟨2 * n, by omega, _, by simp [events]; rfl⟩
  · intro n
    exact ⟨2 * n + 1, by omega, _, by simp [events, Nat.add_mod]; rfl⟩

/-- A read may be answered with fewer values than the stream holds, and with the close only behind all of them. -/
def Partly (w : Live) (a : Answers) : Prop :=
  ∀ k : Nat, k ≤ w.values.length → ∀ values closed, a.entries k = .ok (values, closed) →
    values <+: w.values.drop k ∧ (closed = true → values = w.values.drop k ∧ w.shut = true)

def Loose {τ : Type} (s : State τ) : Event → Prop
  | .world live => s.live.Onward live
  | .drain a | .pull a => Partly s.live a ∧ a.Tells s.live

/-- The same values and the same end, whatever the two readers are answered. -/
def Same (live : Live) (events : List Event) : Prop :=
  let s := Runs.run (next (.ok : Value → Except String Value) "w") events { live := live }
  Runs.Along (next .ok "w") Loose events ({ live := live } : State Value) → s.pull = .ended →
    ∀ result, s.drain = .returned result →
    match result with
    | .ok (all, _) => s.yielded = all.map .ok
    | .error e => ∃ ts : List Value, s.yielded = ts.map .ok ++ [.error e]

theorem shown_partly (w : Live) (status : Option Status) : Partly w (shown w status) := by
  intro k within values closed answered
  cases shown_shows w status k within _ answered
  exact ⟨List.prefix_refl _, fun shut => ⟨rfl, shut⟩⟩

def lost : Error := .observationFailed (.db ⟨"connection closed", true, false, false, false⟩)

/-- A lost connection, a row that is gone after the stream was closed, and a last read that is answered short. -/
theorem answers_apart :
    ¬ Same ⟨[.null], true, false⟩
      [.drain ⟨fun _ => .error lost, .ok (some .pending)⟩, .pull (shown ⟨[.null], true, false⟩ none),
        .pull (shown ⟨[.null], true, false⟩ none), .pull (shown ⟨[.null], true, false⟩ none)] ∧
    ¬ Same ⟨[], false, false⟩
      [.drain (shown ⟨[], false, false⟩ none), .world ⟨[.null], true, false⟩,
        .drain (shown ⟨[.null], true, false⟩ none),
        .pull (shown ⟨[.null], true, false⟩ none), .pull (shown ⟨[.null], true, false⟩ none),
        .pull (shown ⟨[.null], true, false⟩ none)] ∧
    ¬ Same ⟨[.null], false, true⟩
      [.drain ⟨fun _ => .ok ([], false), .ok (some .success)⟩, .drain ⟨fun _ => .ok ([], false), .ok (some .success)⟩,
        .drain ⟨fun _ => .ok ([], false), .ok (some .success)⟩, .pull (shown ⟨[.null], false, true⟩ (some .success)),
        .pull (shown ⟨[.null], false, true⟩ (some .success)), .pull (shown ⟨[.null], false, true⟩ (some .success)),
        .pull (shown ⟨[.null], false, true⟩ (some .success)),
          .pull (shown ⟨[.null], false, true⟩ (some .success))] := by
  have unasked (w : Live) : (shown w none).Tells w := shown_tells fun s same => by cases same
  have partly (w : Live) : Partly w (shown w none) := shown_partly w none
  refine ⟨fun same => ?_, fun same => ?_, fun same => ?_⟩
  · have failing : Partly ⟨[.null], true, false⟩ ⟨fun _ => .error lost, .ok (some .pending)⟩ := by
      intro k _ values closed answered
      cases answered
    have told : Answers.Tells ⟨[.null], true, false⟩
        ⟨fun _ => .error lost, .ok (some .pending)⟩ := by
      intro s answered
      cases answered
      rfl
    obtain ⟨ts, apart⟩ := same ⟨⟨failing, told⟩, ⟨partly _, unasked _⟩, ⟨partly _, unasked _⟩, ⟨partly _, unasked _⟩,
      trivial⟩ rfl _ rfl
    replace apart : [Except.ok Value.null] = ts.map .ok ++ [.error _] := apart
    have last := congrArg List.getLast? apart
    simp at last
  · have closes : Live.Onward ⟨[], false, false⟩ ⟨[.null], true, false⟩ :=
      ⟨List.nil_prefix, by simp, by simp, by simp⟩
    obtain ⟨ts, apart⟩ := same ⟨⟨partly _, unasked _⟩, closes, ⟨partly _, unasked _⟩, ⟨partly _, unasked _⟩,
      ⟨partly _, unasked _⟩, ⟨partly _, unasked _⟩, trivial⟩ rfl _ rfl
    replace apart : [Except.ok Value.null] = ts.map .ok ++ [.error _] := apart
    have last := congrArg List.getLast? apart
    simp at last
  · have short : Partly ⟨[.null], false, true⟩ ⟨fun _ => .ok ([], false), .ok (some .success)⟩ := by
      intro k _ values closed answered
      cases answered
      exact ⟨List.nil_prefix, by simp⟩
    have told : Answers.Tells ⟨[.null], false, true⟩ ⟨fun _ => .ok ([], false), .ok (some .success)⟩ := by
      intro s answered
      cases answered
      rfl
    have full : Partly ⟨[.null], false, true⟩ (shown ⟨[.null], false, true⟩ (some .success)) := shown_partly _ _
    have told' : (shown ⟨[.null], false, true⟩ (some .success)).Tells ⟨[.null], false, true⟩ :=
      shown_tells fun s same => by cases same; rfl
    have apart := same ⟨⟨short, told⟩, ⟨short, told⟩, ⟨short, told⟩, ⟨full, told'⟩, ⟨full, told'⟩, ⟨full, told'⟩,
      ⟨full, told'⟩, ⟨full, told'⟩, trivial⟩ rfl _ rfl
    replace apart : [Except.ok (ε := Error) Value.null] = [] := apart
    cases apart

end Durare.StreamAgreement

import Durare.Targets

/-! No accepted input is lost while its collector is not parked: whose input the target starts with, and
that it can always be started. -/
namespace Durare.Debounce

/-- The steps of a collector that no producer takes part in: its workers', its recovery under one cap, and time. -/
inductive Goes (maxAttempts : Int) : DateTime → Collector → DateTime → Collector → Prop where
  | refl {t c} : Goes maxAttempts t c t c
  | dispatch {t c t' c'} : Goes maxAttempts t c.dispatch t' c' → Goes maxAttempts t c t' c'
  | advance {t c t' c' e} : c.execution = some e → Goes maxAttempts t (c.advance t e) t' c' → Goes maxAttempts t c t' c'
  | recover {t c t' c'} : Goes maxAttempts t (c.recover maxAttempts) t' c' → Goes maxAttempts t c t' c'
  | pass {t c t' c'} (span : Duration) : t + span ≤ Context.MAX_INSTANT → Goes maxAttempts (t + span) c t' c' →
    Goes maxAttempts t c t' c'

/-- The next step of the collector panics: its wait would end past the last instant. -/
def Overflows (c : Collector) : Prop :=
  ∃ e reading l now, c.execution = some e ∧ e.control = .receiving l now ∧ e.stage = .wakes reading ∧
    Context.MAX_INSTANT < reading + ((remaining l now).toNat * 1000000 : Nat)

/-- Left to itself, the collector starts its target, or comes to a wait without an end. -/
def Reaches (maxAttempts : Int) (t : DateTime) (c : Collector) : Prop :=
  ∃ t' c', Goes maxAttempts t c t' c' ∧ (c'.launches.length = 1 ∨ Overflows c')

variable {maxAttempts : Int}

theorem Reaches.dispatch {t : DateTime} {c : Collector} (reaches : Reaches maxAttempts t c.dispatch) :
    Reaches maxAttempts t c := by
  obtain ⟨t', c', goes, done⟩ := reaches
  exact ⟨t', c', .dispatch goes, done⟩

theorem Reaches.advance {t : DateTime} {c : Collector} {e : Execution} (executes : c.execution = some e)
    (reaches : Reaches maxAttempts t (c.advance t e)) : Reaches maxAttempts t c := by
  obtain ⟨t', c', goes, done⟩ := reaches
  exact ⟨t', c', .advance executes goes, done⟩

theorem Reaches.recover {t : DateTime} {c : Collector} (reaches : Reaches maxAttempts t (c.recover maxAttempts)) :
    Reaches maxAttempts t c := by
  obtain ⟨t', c', goes, done⟩ := reaches
  exact ⟨t', c', .recover goes, done⟩

theorem Reaches.pass {t : DateTime} {c : Collector} (span : Duration) (calendar : t + span ≤ Context.MAX_INSTANT)
    (reaches : Reaches maxAttempts (t + span) c) : Reaches maxAttempts t c := by
  obtain ⟨t', c', goes, done⟩ := reaches
  exact ⟨t', c', .pass span calendar goes, done⟩

structure At (t : DateTime) (c : Collector) (e : Execution) : Prop where
  era : 0 ≤ t
  sane : Sane t c
  executes : c.execution = some e
  live : c.history[e.seen]? = none

theorem At.control {t : DateTime} {c : Collector} {e : Execution} (here : At t c e) : c.control = e.control :=
  ((here.sane.replayed e here.executes).live here.live).2.symm

theorem At.next {t : DateTime} {c : Collector} {e : Execution} (here : At t c e) (e' : Execution)
    (executes : (c.advance t e).execution = some e') (live : (c.advance t e).history[e'.seen]? = none) :
    At t (c.advance t e) e' :=
  ⟨here.era, here.sane.advance here.era here.executes, executes, live⟩

theorem live_record {c : Collector} {e : Execution} (live : c.history[e.seen]? = none)
    (seen : e.seen ≤ c.history.length)
    (entry : Entry) : (c.history ++ [entry])[e.seen + 1]? = none := by
  have all : e.seen = c.history.length := Nat.le_antisymm seen (List.getElem?_eq_none_iff.mp live)
  rw [List.getElem?_eq_none_iff]
  simp [all]

theorem At.seen {t : DateTime} {c : Collector} {e : Execution} (here : At t c e) : e.seen ≤ c.history.length :=
  (here.sane.replayed e here.executes).seen

theorem reaches_launching {t : DateTime} {c : Collector} {l : Locals} {seen : Nat} {stage : Stage}
    (here : At t c ⟨.launching l, seen, stage⟩) : Reaches maxAttempts t c := by
  have dated : DatedAt c.input c.last c.deadline c.launches c.control := here.sane.dated
  rw [here.control] at dated
  refine Reaches.advance here.executes ⟨_, _, .refl, .inl ?_⟩
  have live := here.live
  simp only at live
  simp [Collector.advance, live, call, Collector.record, dated.1]

theorem reaches_returned {t : DateTime} {c : Collector} {l : Locals} {seen : Nat} {stage : Stage}
    (here : At t c ⟨.returned l, seen, stage⟩) : Reaches maxAttempts t c := by
  have dated : DatedAt c.input c.last c.deadline c.launches c.control := here.sane.dated
  rw [here.control] at dated
  obtain ⟨launch, alone, -⟩ := dated
  exact ⟨_, _, .refl, .inl (by rw [alone]; rfl)⟩

/-! The wait for a message, from its end to its beginning. -/

theorem reaches_due {t : DateTime} {c : Collector} {l : Locals} {now : Int} {seen : Nat}
    (here : At t c ⟨.receiving l now, seen, .due⟩) : Reaches maxAttempts t c := by
  have live := here.live
  simp only at live
  have after : c.advance t ⟨.receiving l now, seen, .due⟩ =
      c.record ⟨.receiving l now, seen, .due⟩ ⟨.received none, t⟩ := by
    simp only [Collector.advance, live, call]
  refine Reaches.advance here.executes ?_
  have there := here.next ⟨.launching l, seen + 1, .begun⟩ (by rw [after]; rfl)
    (by rw [after]; exact live_record here.live here.seen _)
  exact reaches_launching there

theorem reaches_timed {t : DateTime} {c : Collector} {l : Locals} {now : Int} {seen : Nat} {deadline : DateTime}
    (here : At t c ⟨.receiving l now, seen, .timed deadline⟩) : Reaches maxAttempts t c := by
  have bounded := here.sane.bounded deadline (here.sane.replayed _ here.executes).stage.2
  have live := here.live
  simp only at live
  -- The deadline comes.
  have due (t' : DateTime) (le : t ≤ t') (past : deadline ≤ t') : Reaches maxAttempts t' c := by
    have later : At t' c ⟨.receiving l now, seen, .timed deadline⟩ :=
      ⟨Int.le_trans here.era le, here.sane.later le, here.executes, here.live⟩
    have after : c.advance t' ⟨.receiving l now, seen, .timed deadline⟩ =
        { c with execution := some ⟨.receiving l now, seen, .due⟩ } := by
      simp only [Collector.advance, live, call, past, if_true]
    refine Reaches.advance here.executes ?_
    exact reaches_due (later.next ⟨.receiving l now, seen, .due⟩ (by rw [after]) (by rw [after]; exact live))
  by_cases past : deadline ≤ t
  · exact due t (Int.le_refl t) past
  · have left : t + ((deadline - t).toNat : Nat) = deadline := by
      rw [Int.toNat_of_nonneg (Int.sub_nonneg.mpr (Int.le_of_lt (Int.not_le.mp past)))]
      exact add_sub_cancel t deadline
    refine Reaches.pass (deadline - t).toNat (le_of_eq_of_le left bounded) ?_
    rw [left]
    exact due deadline (Int.le_of_lt (Int.not_le.mp past)) (Int.le_refl _)

theorem reaches_wakes {t : DateTime} {c : Collector} {l : Locals} {now : Int} {seen : Nat} {reading : DateTime}
    (here : At t c ⟨.receiving l now, seen, .wakes reading⟩) : Reaches maxAttempts t c := by
  have live := here.live
  simp only at live
  by_cases beyond : Context.MAX_INSTANT < reading + ((remaining l now).toNat * 1000000 : Nat)
  · exact ⟨t, c, .refl, .inr ⟨_, reading, l, now, here.executes, rfl, rfl, beyond⟩⟩
  · let deadline : DateTime := reading + ((remaining l now).toNat * 1000000 : Nat)
    have after : c.advance t ⟨.receiving l now, seen, .wakes reading⟩ =
        { c with deadline := some deadline, execution := some ⟨.receiving l now, seen, .timed deadline⟩ } := by
      simp only [Collector.advance, live, call, beyond, if_false]
      rfl
    refine Reaches.advance here.executes ?_
    exact reaches_timed (here.next ⟨.receiving l now, seen, .timed deadline⟩ (by rw [after]) (by rw [after]; exact live))

theorem reaches_missed {t : DateTime} {c : Collector} {l : Locals} {now : Int} {seen : Nat}
    (here : At t c ⟨.receiving l now, seen, .missed⟩) : Reaches maxAttempts t c := by
  have live := here.live
  simp only at live
  refine Reaches.advance here.executes ?_
  cases known : c.deadline with
  | some deadline =>
    have after : c.advance t ⟨.receiving l now, seen, .missed⟩ =
        { c with execution := some ⟨.receiving l now, seen, .timed deadline⟩ } := by
      simp only [Collector.advance, live, call, known]
    exact reaches_timed (here.next ⟨.receiving l now, seen, .timed deadline⟩ (by rw [after]) (by rw [after]; exact live))
  | none =>
    have after : c.advance t ⟨.receiving l now, seen, .missed⟩ =
        { c with execution := some ⟨.receiving l now, seen, .wakes t⟩ } := by
      simp only [Collector.advance, live, call, known]
    exact reaches_wakes (here.next ⟨.receiving l now, seen, .wakes t⟩ (by rw [after]) (by rw [after]; exact live))

/-- With a message left each round takes one, and without any the wait ends. -/
theorem reaches_at {n : Nat} :
    ∀ {t : DateTime} {c : Collector} {e : Execution}, At t c e → c.mail.length = n → Reaches maxAttempts t c := by
  induction n using Nat.strong_induction_on with
  | h n ih =>
    have receiving {t : DateTime} {c : Collector} {l : Locals} {now : Int} {seen : Nat}
        (here : At t c ⟨.receiving l now, seen, .begun⟩) (mails : c.mail.length = n) : Reaches maxAttempts t c := by
      have live := here.live
      simp only at live
      refine Reaches.advance here.executes ?_
      cases mail : c.mail with
      | nil =>
        have after : c.advance t ⟨.receiving l now, seen, .begun⟩ =
            { c with execution := some ⟨.receiving l now, seen, .missed⟩ } := by
          simp only [Collector.advance, live, call, mail]
        exact reaches_missed (here.next ⟨.receiving l now, seen, .missed⟩ (by rw [after]) (by rw [after]; exact live))
      | cons letter rest =>
        have after : c.advance t ⟨.receiving l now, seen, .begun⟩ =
            { c with mail := rest }.record ⟨.receiving l now, seen, .begun⟩ ⟨.received (some letter), t⟩ := by
          simp only [Collector.advance, live, call, mail]
        have there := here.next ⟨resume c.input (.receiving l now) (.received (some letter)), seen + 1, .begun⟩
          (by rw [after]; rfl) (by rw [after]; exact live_record here.live here.seen _)
        refine ih rest.length ?_ there (by rw [after]; rfl)
        rw [← mails, mail]
        exact Nat.lt_succ_self _
    have read {t : DateTime} {c : Collector} {l : Locals} {seen : Nat} {reading : DateTime}
        (here : At t c ⟨.top l, seen, .read reading⟩) (mails : c.mail.length = n) : Reaches maxAttempts t c := by
      have live := here.live
      simp only at live
      have after : c.advance t ⟨.top l, seen, .read reading⟩ =
          c.record ⟨.top l, seen, .read reading⟩ ⟨.time reading.timestampMillis, t⟩ := by
        simp only [Collector.advance, live, call]
      refine Reaches.advance here.executes ?_
      have there := here.next ⟨resume c.input (.top l) (.time reading.timestampMillis), seen + 1, .begun⟩
        (by rw [after]; rfl) (by rw [after]; exact live_record here.live here.seen _)
      by_cases past : remaining l reading.timestampMillis ≤ 0
      · simp only [resume, past, if_true] at there
        exact reaches_launching there
      · simp only [resume, past, if_false] at there
        exact receiving there (by rw [after]; exact mails)
    have top {t : DateTime} {c : Collector} {l : Locals} {seen : Nat} (here : At t c ⟨.top l, seen, .begun⟩)
        (mails : c.mail.length = n) : Reaches maxAttempts t c := by
      have live := here.live
      simp only at live
      have after : c.advance t ⟨.top l, seen, .begun⟩ = { c with execution := some ⟨.top l, seen, .read t⟩ } := by
        simp only [Collector.advance, live, call]
      refine Reaches.advance here.executes ?_
      exact read (here.next ⟨.top l, seen, .read t⟩ (by rw [after]) (by rw [after]; exact live)) (by rw [after]; exact mails)
    intro t c e here mails
    have fits := (here.sane.replayed e here.executes).fits
    have live := here.live
    obtain ⟨control, seen, stage⟩ := e
    simp only at fits live
    cases control with
    | launching l => exact reaches_launching here
    | returned l => exact reaches_returned here
    | receiving l now =>
      cases stage with
      | begun => exact receiving here mails
      | missed => exact reaches_missed here
      | wakes reading => exact reaches_wakes here
      | timed deadline => exact reaches_timed here
      | due => exact reaches_due here
      | _ => exact fits.elim
    | top l =>
      cases stage with
      | begun => exact top here mails
      | read reading => exact read here mails
      | _ => exact fits.elim
    | acking l id =>
      have upserted {c : Collector} (here : At t c ⟨.acking l id, seen, .upserted⟩) (mails : c.mail.length = n) :
          Reaches maxAttempts t c := by
        have live := here.live
        simp only at live
        have after : c.advance t ⟨.acking l id, seen, .upserted⟩ = c.record ⟨.acking l id, seen, .upserted⟩ ⟨.acked, t⟩ := by
          simp only [Collector.advance, live, call]
        refine Reaches.advance here.executes ?_
        exact top (here.next ⟨.top l, seen + 1, .begun⟩ (by rw [after]; rfl)
          (by rw [after]; exact live_record here.live here.seen _)) (by rw [after]; exact mails)
      cases stage with
      | begun =>
        have after : c.advance t ⟨.acking l id, seen, .begun⟩ =
            { c with events := c.events ++ [id], execution := some ⟨.acking l id, seen, .upserted⟩ } := by
          simp only [Collector.advance, live, call]
        refine Reaches.advance here.executes ?_
        exact upserted (here.next ⟨.acking l id, seen, .upserted⟩ (by rw [after]) (by rw [after]; exact live))
          (by rw [after]; exact mails)
      | upserted => exact upserted here mails
      | _ => exact fits.elim
    | starting =>
      have read {c : Collector} {reading : DateTime} (here : At t c ⟨.starting, seen, .read reading⟩)
          (mails : c.mail.length = n) : Reaches maxAttempts t c := by
        have live := here.live
        simp only at live
        have after : c.advance t ⟨.starting, seen, .read reading⟩ =
            c.record ⟨.starting, seen, .read reading⟩ ⟨.time reading.timestampMillis, t⟩ := by
          simp only [Collector.advance, live, call]
        refine Reaches.advance here.executes ?_
        exact top (here.next ⟨resume c.input .starting (.time reading.timestampMillis), seen + 1, .begun⟩ (by rw [after]; rfl)
          (by rw [after]; exact live_record here.live here.seen _)) (by rw [after]; exact mails)
      cases stage with
      | begun =>
        have after : c.advance t ⟨.starting, seen, .begun⟩ = { c with execution := some ⟨.starting, seen, .read t⟩ } := by
          simp only [Collector.advance, live, call]
        refine Reaches.advance here.executes ?_
        exact read (here.next ⟨.starting, seen, .read t⟩ (by rw [after]) (by rw [after]; exact live)) (by rw [after]; exact mails)
      | read reading => exact read here mails
      | _ => exact fits.elim

theorem reaches_behind {k : Nat} :
    ∀ {t : DateTime} {c : Collector} {e : Execution}, 0 ≤ t → Sane t c → c.execution = some e →
    c.history.length - e.seen = k → Reaches maxAttempts t c := by
  induction k with
  | zero =>
    intro t c e era sane executes behind
    exact reaches_at ⟨era, sane, executes, List.getElem?_eq_none_iff.mpr (Nat.sub_eq_zero_iff_le.mp behind)⟩ rfl
  | succ k ih =>
    intro t c e era sane executes behind
    have bound : e.seen < c.history.length := by omega
    have found := List.getElem?_eq_getElem bound
    have after : c.advance t e =
        { c with execution := some ⟨resume c.input e.control c.history[e.seen].outcome, e.seen + 1, .begun⟩ } := by
      simp only [Collector.advance, found]
    refine Reaches.advance executes (ih era (sane.advance era executes) (by rw [after]) ?_)
    rw [after]
    simp only
    omega

/-- Its execution is gone, and it has been recovered as often as the cap allows. -/
structure Collector.Spent (maxAttempts : Int) (c : Collector) : Prop where
  pending : c.status = .pending
  gone : c.execution = none
  used : maxAttempts ≤ c.recoveryAttempts

/-- A collector that is neither terminal nor spent can always start its target. -/
theorem reaches_active {t : DateTime} {c : Collector} (era : 0 ≤ t) (sane : Sane t c)
    (active : c.status = .enqueued ∨ c.status = .pending) (left : ¬ c.Spent maxAttempts) : Reaches maxAttempts t c := by
  have queued {c : Collector} (sane : Sane t c) (status : c.status = .enqueued) : Reaches maxAttempts t c := by
    have after : c.dispatch = { c with status := .pending, execution := some {} } := by
      simp only [Collector.dispatch, status, if_true]
    exact Reaches.dispatch (reaches_behind era sane.dispatch (by rw [after]) rfl)
  rcases active with status | status
  · exact queued sane status
  · cases executes : c.execution with
    | some e => exact reaches_behind era sane executes rfl
    | none =>
      have room : ¬ maxAttempts < c.recoveryAttempts + 1 := by
        have := mt (Collector.Spent.mk status executes) left
        omega
      refine Reaches.recover (queued (sane.recover _) ?_)
      simp [Collector.recover, status, executes, room]

/-- A step that belongs to one collector, a recovery under the cap, or time. -/
def Event.Of (maxAttempts : Int) (j : Nat) : Event → Prop
  | .pass _ => True
  | .dispatch i | .advance i => i = j
  | .recover i cap => i = j ∧ cap = maxAttempts
  | _ => False

theorem modify_at {α : Type} {xs : List α} {j : Nat} {x : α} (found : xs[j]? = some x) (f : α → α) :
    (xs.modify j f)[j]? = some (f x) := by
  simp [found]

/-- What a collector can do left to itself it can do in a run. -/
theorem Goes.run {uuid : Nat → String} {t t' : DateTime} {c c' : Collector} (goes : Goes maxAttempts t c t' c') :
    ∀ {s : State} {j : Nat}, s.clock = t → s.collectors[j]? = some c →
      ∃ more, (∀ event ∈ more, event.Of maxAttempts j) ∧ (run uuid more s).collectors[j]? = some c' := by
  induction goes with
  | refl => exact fun _ found => ⟨[], fun event member => absurd member List.not_mem_nil, found⟩
  | dispatch _ ih =>
    intro s j clock found
    obtain ⟨more, own, reached⟩ := @ih (next uuid s (.dispatch j)) j clock (modify_at found _)
    exact ⟨.dispatch j :: more, List.forall_mem_cons.mpr ⟨rfl, own⟩, reached⟩
  | advance executes _ ih =>
    intro s j clock found
    have moved : (next uuid s (.advance j)).collectors[j]? = some _ := modify_at found _
    rw [executes] at moved
    subst clock
    obtain ⟨more, own, reached⟩ := @ih (next uuid s (.advance j)) j rfl moved
    exact ⟨.advance j :: more, List.forall_mem_cons.mpr ⟨rfl, own⟩, reached⟩
  | recover _ ih =>
    intro s j clock found
    obtain ⟨more, own, reached⟩ := @ih (next uuid s (.recover j maxAttempts)) j clock (modify_at found _)
    exact ⟨.recover j maxAttempts :: more, List.forall_mem_cons.mpr ⟨⟨rfl, rfl⟩, own⟩, reached⟩
  | pass span calendar _ ih =>
    intro s j clock found
    subst clock
    have passed : next uuid s (.pass span) = { s with clock := s.clock + span } := by
      simp only [next, calendar, if_true]
    obtain ⟨more, own, reached⟩ := @ih (next uuid s (.pass span)) j (by rw [passed]) (by rw [passed]; exact found)
    exact ⟨.pass span :: more, List.forall_mem_cons.mpr ⟨trivial, own⟩, reached⟩

def Single (s : State) : Prop :=
  ∀ (i j : Nat) (c d : Collector), s.collectors[i]? = some c → s.collectors[j]? = some d → c.ask.key = d.ask.key →
    c.status.isTerminal = false → d.status.isTerminal = false → i = j

/-- A step leaves a collector's call as it is, takes back no message and wakes no terminal one. -/
structure Onward (c c' : Collector) : Prop where
  ask : c'.ask = c.ask
  input : c'.input = c.input
  taken : ∀ t ∈ c.taken, t ∈ c'.taken
  active : c'.status.isTerminal = false → c.status.isTerminal = false

theorem Onward.refl (c : Collector) : Onward c c := ⟨rfl, rfl, fun _ member => member, fun active => active⟩

theorem record_taken (c : Collector) (e : Execution) (mail : List Letter) (launches : List Launch) (entry : Entry) :
    ∀ t ∈ c.taken, t ∈ ({ c with mail := mail, launches := launches }.record e entry).taken := by
  intro t member
  have moved : ({ c with mail := mail, launches := launches }.record e entry).followed = follow c.input c.followed entry :=
    followed_record _ e entry
  simp only [Collector.taken, moved]
  rcases follow_taken c.input c.followed.1 c.followed.2 entry with same | ⟨l, now, letter, -, -, grown⟩
  · rw [same]
    exact member
  · rw [grown]
    exact List.mem_append_left _ member

theorem advance_onward (now : DateTime) (c : Collector) (e : Execution) : Onward c (c.advance now e) := by
  have recorded (mail : List Letter) (launches : List Launch) (entry : Entry) :
      Onward c ({ c with mail := mail, launches := launches }.record e entry) :=
    ⟨rfl, rfl, record_taken c e mail launches entry, fun active => active⟩
  have moved {c' : Collector} (ask : c'.ask = c.ask) (input : c'.input = c.input) (history : c'.history = c.history)
      (active : c'.status.isTerminal = false → c.status.isTerminal = false) : Onward c c' := by
    refine ⟨ask, input, fun t member => ?_, active⟩
    simp only [Collector.taken, Collector.followed, history, input]
    exact member
  unfold Collector.advance
  cases c.history[e.seen]? with
  | some entry => exact moved rfl rfl rfl fun active => active
  | none =>
    simp only
    split
    · exact moved rfl rfl rfl fun active => active
    · exact recorded c.mail c.launches _
    · split
      · next letter rest mail => exact recorded rest c.launches _
      · exact moved rfl rfl rfl fun active => active
    · split <;> exact moved rfl rfl rfl fun active => active
    · split <;> exact moved rfl rfl rfl fun active => active
    · exact moved rfl rfl rfl fun active => active
    · exact recorded c.mail c.launches _
    · exact moved rfl rfl rfl fun active => active
    · exact recorded c.mail c.launches _
    · exact recorded c.mail _ _
    · exact moved rfl rfl rfl fun active => by cases active
    · exact moved rfl rfl rfl fun active => active

theorem next_onward (uuid : Nat → String) (s : State) (event : Event) {j : Nat} {c' : Collector}
    (found : (next uuid s event).collectors[j]? = some c') :
    (∃ c, s.collectors[j]? = some c ∧ Onward c c') ∨
      ∃ ask targetId, s.holder ask.key = none ∧ j = s.collectors.length ∧ c' = enqueued ask targetId := by
  have modified {i : Nat} (f : Collector → Collector) (onward : ∀ c, Onward c (f c))
      (found : (s.collectors.modify i f)[j]? = some c') : ∃ c, s.collectors[j]? = some c ∧ Onward c c' := by
    rw [List.getElem?_modify] at found
    cases here : s.collectors[j]? with
    | none => simp [here] at found
    | some c =>
      refine ⟨c, rfl, ?_⟩
      by_cases same : i = j
      · simp only [here, same, if_true, Option.map_eq_map, Option.map_some, Option.some.injEq] at found
        exact found ▸ onward c
      · simp only [here, same, if_false, Option.map_eq_map, Option.map_some, Option.some.injEq] at found
        exact found ▸ Onward.refl c
  cases event with
  | pass span =>
    simp only [next] at found
    split at found <;> exact .inl ⟨c', found, .refl c'⟩
  | ask ask => exact .inl ⟨c', found, .refl c'⟩
  | produce i reply expired =>
    simp only [next] at found
    cases at_place : s.producers[i]? with
    | none =>
      rw [at_place] at found
      exact .inl ⟨c', found, .refl c'⟩
    | some p =>
      simp only [at_place] at found
      rcases (produce_produced uuid reply expired p s).collectors with same | ⟨vacant, -, grown⟩ | ⟨existing, _, -, -, changed⟩
      · rw [same] at found
        exact .inl ⟨c', found, .refl c'⟩
      · rw [grown] at found
        by_cases old : j < s.collectors.length
        · rw [List.getElem?_append_left old] at found
          exact .inl ⟨c', found, .refl c'⟩
        · have last : j = s.collectors.length := by
            have bound := (List.getElem?_eq_some_iff.mp found).1
            rw [List.length_append, List.length_singleton] at bound
            omega
          subst last
          rw [List.getElem?_concat_length] at found
          cases found
          exact .inr ⟨p.ask, _, vacant, rfl, rfl⟩
      · rw [changed] at found
        exact .inl (modified (fun c => c.mailed p.ask (uuid s.drawn))
          (fun c => ⟨rfl, rfl, fun _ member => member, fun active => active⟩) found)
  | dispatch i =>
    refine .inl (modified Collector.dispatch (fun c => ?_) found)
    unfold Collector.dispatch
    split
    · next status => exact ⟨rfl, rfl, fun _ member => member, fun _ => by rw [status]; rfl⟩
    · exact .refl c
  | advance i =>
    refine .inl (modified _ (fun c => ?_) found)
    cases c.execution with
    | none => exact .refl c
    | some e => exact advance_onward s.clock c e
  | crash i => exact .inl (modified Collector.crash (fun c => ⟨rfl, rfl, fun _ member => member, fun active => active⟩) found)
  | recover i maxAttempts =>
    refine .inl (modified (Collector.recover maxAttempts) (fun c => ?_) found)
    unfold Collector.recover
    split
    · next gone => exact ⟨rfl, rfl, fun _ member => member, fun _ => by rw [gone.1]; rfl⟩
    · exact .refl c

theorem next_single {uuid : Nat → String} {s : State} {event : Event} (single : Single s) :
    Single (next uuid s event) := by
  -- An active collector leaves no room for another one.
  have held {j : Nat} {d : Collector} {ask : Ask} (found : s.collectors[j]? = some d) (key : ask.key = d.ask.key)
      (active : d.status.isTerminal = false) (vacant : s.holder ask.key = none) : False := by
    have absent := List.findIdx?_eq_none_iff.mp vacant d (List.mem_of_getElem? found)
    simp [key, active] at absent
  intro i j c' d' at_i at_j key active active'
  rcases next_onward uuid s event at_i with ⟨c, here, onward⟩ | ⟨ask, _, vacant, rfl, rfl⟩
  · rcases next_onward uuid s event at_j with ⟨d, there, onward'⟩ | ⟨ask, _, vacant, rfl, rfl⟩
    · exact single i j c d here there (onward.ask ▸ onward'.ask ▸ key) (onward.active active) (onward'.active active')
    · exact (held here (key.symm.trans (congrArg Ask.key onward.ask)) (onward.active active) vacant).elim
  · rcases next_onward uuid s event at_j with ⟨d, there, onward'⟩ | ⟨ask', _, vacant', rfl, rfl⟩
    · exact (held there (key.trans (congrArg Ask.key onward'.ask)) (onward'.active active') vacant).elim
    · rfl

theorem next_forward {uuid : Nat → String} {s : State} (event : Event) {j : Nat} {c : Collector}
    (found : s.collectors[j]? = some c) : ∃ c', (next uuid s event).collectors[j]? = some c' ∧ Onward c c' := by
  obtain ⟨c', there, -⟩ := @next_at uuid s event j c found
  refine ⟨c', there, ?_⟩
  rcases next_onward uuid s event there with ⟨before, at_place, onward⟩ | ⟨_, _, -, last, -⟩
  · cases found.symm.trans at_place
    exact onward
  · have bound := (List.getElem?_eq_some_iff.mp found).1
    omega

/-- The calls whose inputs the collector has taken, in that order. -/
def Collector.accepted (c : Collector) : List Ask := c.ask :: c.taken.map (·.letter.ask)

theorem Onward.accepted {c c' : Collector} (onward : Onward c c') {ask : Ask} (member : ask ∈ c.accepted) :
    ask ∈ c'.accepted := by
  rcases List.mem_cons.mp member with rfl | taken
  · rw [Collector.accepted, onward.ask]
    exact List.mem_cons_self
  · obtain ⟨t, there, rfl⟩ := List.mem_map.mp taken
    exact List.mem_cons_of_mem _ (List.mem_map.mpr ⟨t, onward.taken t there, rfl⟩)

/-- The loop holds the input of the call accepted last. -/
theorem Sane.latest {clock : DateTime} {c : Collector} (sane : Sane clock c) :
    ∃ ask, c.accepted.getLast? = some ask ∧ latestInput c.input c.taken = ask.input := by
  have last : c.accepted.getLast? = some ((c.taken.getLast?.map (·.letter.ask)).getD c.ask) := by
    rw [Collector.accepted, List.getLast?_cons, List.getLast?_map]
  refine ⟨_, last, ?_⟩
  cases latest : c.taken.getLast? with
  | none =>
    obtain ⟨id, made⟩ := sane.input
    simp only [latestInput, latest, made, Ask.debouncerInput, Option.map_none, Option.getD_none]
  | some t =>
    obtain ⟨id, genuine⟩ := sane.taken t (List.mem_of_getLast? latest)
    simp only [latestInput, latest, genuine, Ask.message, Option.map_some, Option.getD_some]

/-- What a target is started with is no older than any input accepted. -/
theorem Sane.started {clock : DateTime} {c : Collector} (sane : Sane clock c) {launch : Launch}
    (member : launch ∈ c.launches)
    {before later : List Ask} {ask : Ask} (split : c.accepted = before ++ ask :: later) :
    ∃ other ∈ ask :: later, launch.input = other.input := by
  obtain ⟨l, -, -, -, -, holds, -, input, -⟩ := sane.launched member
  obtain ⟨other, last, same⟩ := sane.latest
  refine ⟨other, ?_, input.trans (holds.current.trans same)⟩
  rw [split, List.getLast?_append_of_ne_nil _ (List.cons_ne_nil ask later)] at last
  exact List.mem_of_getLast? last

/-- A message of the next state is an old one, or the one just sent. -/
theorem next_letters (uuid : Nat → String) (s : State) (event : Event) :
    ∀ c' ∈ (next uuid s event).collectors, ∀ letter ∈ c'.letters, (∃ c ∈ s.collectors, letter ∈ c.letters) ∨
      letter.message.id = uuid s.drawn ∧ s.drawn < (next uuid s event).drawn ∧
        ∀ i reply expired p, event = .produce i reply expired → s.producers[i]? = some p → letter.ask = p.ask := by
  refine next_collectors (P := fun _ c' => ∀ letter ∈ c'.letters, (∃ c ∈ s.collectors, letter ∈ c.letters) ∨
    letter.message.id = uuid s.drawn ∧ s.drawn < (next uuid s event).drawn ∧
      ∀ i reply expired p, event = .produce i reply expired → s.producers[i]? = some p → letter.ask = p.ask)
    (fun kept _ => kept) ?_ ?_ ?_ ?_ (fun kept => kept) ?_ (fun c member letter there => .inl ⟨c, member, there⟩)
  · exact fun i reply expired _ p _ letter member => absurd member (by simp [enqueued, Collector.letters, Collector.taken,
      Collector.followed])
  · rintro i reply expired rfl p found existing targetId sends c here kept letter member
    rcases List.mem_append.mp member with waiting | taken
    · rcases List.mem_append.mp waiting with old | new
      · exact kept letter (List.mem_append_left _ old)
      · obtain rfl := List.mem_singleton.mp new
        have grows : s.drawn < (next uuid s (.produce i reply expired)).drawn := by
          simp only [next, found, produce, sends]
          cases reply <;> exact Nat.lt_succ_self _
        refine .inr ⟨rfl, grows, fun i' reply' expired' p' same found' => ?_⟩
        cases same
        cases found.symm.trans found'
        rfl
    · exact kept letter (List.mem_append_right _ taken)
  · intro clock c kept
    unfold Collector.dispatch
    split <;> exact kept
  · exact fun {c e} kept _ letter member => kept letter (advance_letters s.clock c e letter member)
  · intro clock c maxAttempts kept
    unfold Collector.recover
    split <;> exact kept

/-- The collector a call deals with, and that a message of its own id is its own. -/
def Standing.Safe (uuid : Nat → String) (s : State) (ask : Ask) : Standing → Prop
  | .sending j targetId => ∃ c, s.collectors[j]? = some c ∧ c.input.targetId = targetId
  | .awaiting j targetId messageId => (∃ c, s.collectors[j]? = some c ∧ c.input.targetId = targetId) ∧
      (∃ n, n < s.drawn ∧ messageId = uuid n) ∧
      ∀ c ∈ s.collectors, ∀ letter ∈ c.letters, letter.message.id = messageId → letter.ask = ask
  | .answered (.ok targetId) =>
      ∃ (j : Nat) (c : Collector), s.collectors[j]? = some c ∧ c.input.targetId = targetId ∧ ask ∈ c.accepted
  | _ => True

structure Safe (uuid : Nat → String) (s : State) : Prop where
  single : Single s
  letters : ∀ c ∈ s.collectors, ∀ letter ∈ c.letters, ∃ n, n < s.drawn ∧ letter.message.id = uuid n
  standing : ∀ p ∈ s.producers, p.standing.Safe uuid s p.ask

/-- The steps of others leave a call what it knows. -/
theorem Standing.Safe.next {uuid : Nat → String} (injective : Function.Injective uuid) {s : State}
    (event : Event) {ask : Ask}
    {standing : Standing} (safe : standing.Safe uuid s ask) : standing.Safe uuid (next uuid s event) ask := by
  have named {j : Nat} {targetId : String} (here : ∃ c, s.collectors[j]? = some c ∧ c.input.targetId = targetId) :
      ∃ c, (Debounce.next uuid s event).collectors[j]? = some c ∧ c.input.targetId = targetId := by
    obtain ⟨c, found, same⟩ := here
    obtain ⟨c', found', onward⟩ := @next_forward uuid s event j c found
    exact ⟨c', found', onward.input ▸ same⟩
  cases standing with
  | sending j targetId => exact named safe
  | awaiting j targetId messageId =>
    obtain ⟨here, ⟨n, lt, drawn⟩, own⟩ := safe
    refine ⟨named here, ⟨n, Nat.lt_of_lt_of_le lt (next_drawn_le uuid s event), drawn⟩, fun c member letter there same => ?_⟩
    rcases next_letters uuid s event c member letter there with ⟨before, old, held⟩ | ⟨new, -⟩
    · exact own before old letter held same
    · -- The ids drawn later are others.
      have again : n = s.drawn := injective (drawn.symm.trans (same.symm.trans new))
      omega
  | answered result =>
    cases result with
    | error e => trivial
    | ok targetId =>
      obtain ⟨j, c, found, same, accepted⟩ := safe
      obtain ⟨c', found', onward⟩ := @next_forward uuid s event j c found
      exact ⟨j, c', found', onward.input ▸ same, onward.accepted accepted⟩
  | _ => trivial

/-- A call's own step: it is answered by its own collector, or by the one that has taken its message. -/
theorem produce_safe {uuid : Nat → String} {reply : Scheduler.Reply} {expired : Bool} {p : Producer} {s : State}
    (sane : s.Sane)
    (safe : p.standing.Safe uuid s p.ask)
    (own : ∀ c ∈ (produce uuid reply expired p s).2.collectors, ∀ letter ∈ c.letters, letter.message.id = uuid s.drawn →
      letter.ask = p.ask) :
    (produce uuid reply expired p s).1.standing.Safe uuid (produce uuid reply expired p s).2 p.ask := by
  obtain ⟨ask, standing⟩ := p
  cases standing with
  | enqueuing =>
    have holder : ({ s with drawn := s.drawn + 1 } : State).holder ask.key = s.holder ask.key := rfl
    cases held : s.holder ask.key with
    | some existing => cases reply <;> (simp only [produce, holder, held]; exact trivial)
    | none =>
      cases reply with
      | delivered =>
        simp only [produce, holder, held]
        exact ⟨s.collectors.length, enqueued ask (uuid s.drawn), List.getElem?_concat_length, rfl, List.mem_cons_self⟩
      | failed e => exact trivial
      | lost e =>
        simp only [produce, holder, held]
        exact trivial
  | looking =>
    cases held : s.holder ask.key <;> cases reply <;> (simp only [produce, held]; exact trivial)
  | reading j =>
    cases reply with
    | delivered =>
      cases found : s.collectors[j]? with
      | none =>
        simp only [produce, found]
        exact trivial
      | some c =>
        simp only [produce, found]
        exact ⟨c, found, rfl⟩
    | _ => exact trivial
  | sending j targetId =>
    cases reply with
    | delivered =>
      obtain ⟨c, found, named⟩ := safe
      refine ⟨⟨c.mailed ask (uuid s.drawn), ?_, named⟩, ⟨s.drawn, Nat.lt_succ_self _, rfl⟩, own⟩
      exact modify_at found _
    | _ => exact trivial
  | awaiting j targetId messageId =>
    cases reply with
    | delivered =>
      obtain ⟨⟨c, found, named⟩, drawn, mine⟩ := safe
      simp only [produce]
      split
      · next acked =>
        -- The event was set by a collector that had taken the message.
        have member := List.mem_of_getElem? found
        simp only [found, Option.any_some, decide_eq_true_eq] at acked
        obtain ⟨t, taken, same⟩ := (sane.2 c member).events messageId acked
        have from_call : t.letter.ask = ask :=
          mine c member t.letter (List.mem_append_right _ (List.mem_map.mpr ⟨t, taken, rfl⟩)) same
        exact ⟨j, c, found, named, List.mem_cons_of_mem _ (List.mem_map.mpr ⟨t, taken, from_call⟩)⟩
      · split
        · exact trivial
        · exact ⟨⟨c, found, named⟩, drawn, mine⟩
    | _ => exact trivial
  | answered result => exact safe

theorem next_safe {uuid : Nat → String} (injective : Function.Injective uuid) {s : State} {event : Event}
    (sane : s.Sane)
    (kept : Safe uuid s) : Safe uuid (next uuid s event) := by
  have grows := next_drawn_le uuid s event
  refine ⟨next_single kept.single, fun c member letter there => ?_, fun p member => ?_⟩
  · rcases next_letters uuid s event c member letter there with ⟨before, old, held⟩ | ⟨new, drawn, -⟩
    · obtain ⟨n, lt, same⟩ := kept.letters before old letter held
      exact ⟨n, Nat.lt_of_lt_of_le lt grows, same⟩
    · exact ⟨s.drawn, drawn, new⟩
  · have old {p : Producer} (member : p ∈ s.producers) : p.standing.Safe uuid (next uuid s event) p.ask :=
      Standing.Safe.next injective event (kept.standing p member)
    cases event with
    | ask ask =>
      rcases List.mem_append.mp member with there | new
      · exact old there
      · exact List.mem_singleton.mp new ▸ trivial
    | produce i reply expired =>
      have own (q : Producer) (found : s.producers[i]? = some q) : ∀ c ∈ (produce uuid reply expired q s).2.collectors,
          ∀ letter ∈ c.letters, letter.message.id = uuid s.drawn → letter.ask = q.ask := by
        intro c there letter held same
        have there : c ∈ (next uuid s (.produce i reply expired)).collectors := by simpa only [next, found] using there
        rcases next_letters uuid s _ c there letter held with ⟨before, old, held⟩ | ⟨-, -, mine⟩
        · obtain ⟨n, lt, drawn⟩ := kept.letters before old letter held
          have again : n = s.drawn := injective (drawn.symm.trans same)
          omega
        · exact mine i reply expired q rfl found
      simp only [next] at member old ⊢
      cases found : s.producers[i]? with
      | none =>
        rw [found] at member old
        exact old member
      | some q =>
        rw [found] at member old
        rcases List.mem_or_eq_of_mem_set member with there | rfl
        · rw [(produce_produced uuid reply expired q s).producers] at there
          exact old there
        · rw [(produce_produced uuid reply expired q s).ask]
          exact produce_safe sane (kept.standing q (List.mem_of_getElem? found)) (own q found)
    | pass span =>
      simp only [next] at member old ⊢
      split at member <;> exact old member
    | _ => exact old member

/-- The collector of a call that got an id, where recoveries are made under one cap from here on. -/
structure Kept (uuid : Nat → String) (maxAttempts : Int) (s : State) (ask : Ask) (targetId : String) (j : Nat)
    (c : Collector) : Prop where
  here : s.collectors[j]? = some c
  named : c.input.targetId = targetId
  alone : ∀ (i : Nat) (d : Collector), s.collectors[i]? = some d → d.input.targetId = targetId → i = j
  accepted : ask ∈ c.accepted
  started : ∀ launch ∈ c.launches, launch.name = c.input.targetName ∧ launch.opts.workflowId = some targetId ∧
    ∀ before later, c.accepted = before ++ ask :: later → ∃ other ∈ ask :: later, launch.input = other.input
  once : c.launches.length ≤ 1
  comes : c.launches.length = 1 ∨ c.status = .maxRecoveryAttemptsExceeded ∨ c.Spent maxAttempts ∨
    ∃ more, (∀ event ∈ more, event.Of maxAttempts j) ∧ ∃ c', (run uuid more s).collectors[j]? = some c' ∧
      (c'.launches.length = 1 ∨ Overflows c')

theorem Sane.once {clock : DateTime} {c : Collector} (sane : Sane clock c) : c.launches.length ≤ 1 := by
  cases launches : c.launches with
  | nil => exact Nat.zero_le 1
  | cons launch rest =>
    obtain ⟨_, -, alone, -⟩ := sane.launched (launches ▸ List.mem_cons_self)
    rw [← launches, alone]
    exact Nat.le_refl 1

theorem Sane.done {clock : DateTime} {c : Collector} (sane : Sane clock c) (success : c.status = .success) :
    c.launches.length = 1 := by
  have dated : DatedAt c.input c.last c.deadline c.launches c.control := sane.dated
  obtain ⟨l, returned⟩ := sane.ended success
  rw [returned] at dated
  obtain ⟨launch, alone, -⟩ := dated
  rw [alone]
  rfl

/-- A collector is taken and lost, a hundred and one times over. -/
def losing : List Event :=
  opening ++ (List.replicate 101 [.dispatch 0, .crash 0, .recover 0 100]).flatten

/-- A round of it leaves the count of recoveries one higher. -/
theorem run_lost {s : State} {c : Collector} (only : s.collectors = [c]) (queued : c.status = .enqueued)
    (idle : c.execution = none) : run tally [.dispatch 0, .crash 0, .recover 0 100] s =
      { s with collectors := [{ c with
        recoveryAttempts := c.recoveryAttempts + 1
        status := if 100 < c.recoveryAttempts + 1 then .maxRecoveryAttemptsExceeded else .enqueued }] } := by
  cases c
  cases queued
  cases idle
  simp [Runs.run, next, only, Collector.dispatch, Collector.crash, Collector.recover]

theorem run_losing {s : State} {c : Collector} (only : s.collectors = [c]) (queued : c.status = .enqueued)
    (idle : c.execution = none) (rounds : Nat) (room : c.recoveryAttempts + rounds ≤ 100) :
    run tally (List.replicate rounds [.dispatch 0, .crash 0, .recover 0 100]).flatten s =
      { s with collectors := [{ c with recoveryAttempts := c.recoveryAttempts + rounds }] } := by
  induction rounds generalizing s c with
  | zero => simp [← only]
  | succ rounds ih =>
    have low : ¬ 100 < c.recoveryAttempts + 1 := by omega
    have count : c.recoveryAttempts + 1 + rounds = c.recoveryAttempts + (rounds + 1 : Nat) := by omega
    rw [List.replicate_succ, List.flatten_cons, run, Runs.run_append]
    have first := run_lost only queued idle
    simp only [run, low, if_false] at first
    rw [first]
    have rest := @ih { s with collectors := [{ c with recoveryAttempts := c.recoveryAttempts + 1, status := .enqueued }] }
      { c with recoveryAttempts := c.recoveryAttempts + 1, status := .enqueued } rfl rfl idle (by simp only; omega)
    simp only [run, count] at rest
    cases c
    cases queued
    exact rest

/-- A parked collector is out of everyone's reach. -/
structure Collector.Parked (c : Collector) : Prop where
  status : c.status = .maxRecoveryAttemptsExceeded
  gone : c.execution = none
  launches : c.launches = []

/-- A parked collector stays so, and its id goes to no other. -/
theorem run_parked {uuid : Nat → String} (injective : Function.Injective uuid) {targetId : String} {s : State}
    (more : List Event)
    (drawn : ∃ n, n < s.drawn ∧ targetId = uuid n)
    (parked : ∀ c ∈ s.collectors, c.input.targetId = targetId → c.Parked) :
    ∀ c ∈ (run uuid more s).collectors, c.input.targetId = targetId → c.Parked := by
  have along : Runs.Along (next uuid) (fun _ _ => True) more s := Runs.along_of_forall _ (fun _ _ => trivial) more s
  refine (Runs.invariant (I := fun s => (∃ n, n < s.drawn ∧ targetId = uuid n) ∧
    ∀ c ∈ s.collectors, c.input.targetId = targetId → c.Parked) (fun s event _ kept => ?_) along ⟨drawn, parked⟩).2
  obtain ⟨⟨n, lt, drawn⟩, all⟩ := kept
  refine ⟨⟨n, Nat.lt_of_lt_of_le lt (next_drawn_le uuid s event), drawn⟩, ?_⟩
  refine next_collectors (P := fun _ c => c.input.targetId = targetId → c.Parked) (fun kept _ => kept) ?_
    (fun _ _ _ _ _ _ _ _ _ _ _ kept same => ⟨(kept same).status, (kept same).gone, (kept same).launches⟩) ?_ ?_
    (fun kept same => ⟨(kept same).status, rfl, (kept same).launches⟩) ?_ all
  · intro i reply expired _ p found same
    have again : n = s.drawn := injective (drawn.symm.trans same.symm)
    omega
  · intro clock c kept
    unfold Collector.dispatch
    split
    · next status =>
      intro same
      cases status.symm.trans (kept same).status
    · exact kept
  · intro c e kept executes same
    rw [(advance_identity s.clock c e).2] at same
    cases executes.symm.trans (kept same).gone
  · intro clock c maxAttempts kept
    unfold Collector.recover
    split
    · next pending =>
      intro same
      cases pending.1.symm.trans (kept same).status
    · exact kept

theorem losing_parks : run tally losing (start 0) =
    { run tally opening (start 0) with
      collectors := [{ enqueued (tenSeconds .null) "u" with
        recoveryAttempts := 101
        status := .maxRecoveryAttemptsExceeded }] } := by
  have opened : (run tally opening (start 0)).collectors = [enqueued (tenSeconds .null) "u"] := rfl
  have rounds : (List.replicate 101 [Event.dispatch 0, .crash 0, .recover 0 100]).flatten =
      (List.replicate 100 [.dispatch 0, .crash 0, .recover 0 100]).flatten ++ [.dispatch 0, .crash 0, .recover 0 100] := by
    rw [List.replicate_succ', List.flatten_append]
    rfl
  have hundred := run_losing opened rfl rfl 100 (by decide)
  have last := @run_lost { run tally opening (start 0) with
    collectors := [{ enqueued (tenSeconds .null) "u" with recoveryAttempts := 100 }] } _ rfl rfl rfl
  rw [losing, rounds, run, Runs.run_append, Runs.run_append]
  simp only [run] at hundred last
  rw [hundred]
  exact last

end Durare.Debounce

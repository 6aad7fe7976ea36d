import Durare.Debounce

/-! What a collector's history says of it: the messages it took, what its loop holds, and when it
was recorded. Every step of every party keeps it so. -/
namespace Durare.Debounce

def Letter.Genuine (letter : Letter) : Prop := ∃ id, letter.message = letter.ask.message id

structure Taken where
  letter : Letter
  round : Int
  takenAt : DateTime
deriving DecidableEq, Repr

/-- The body's way through one record, and the messages taken so far. -/
def follow (input : DebouncerInput) : Control × List Taken → Entry → Control × List Taken
  | (control, taken), entry =>
    (resume input control entry.outcome,
      match control, entry.outcome with
      | .receiving _ now, .received (some letter) => taken ++ [⟨letter, now, entry.recordedAt⟩]
      | _, _ => taken)

namespace Collector

def followed (c : Collector) : Control × List Taken := c.history.foldl (follow c.input) (.starting, [])

/-- Where a replay of the whole history stands. -/
def control (c : Collector) : Control := c.followed.1

def taken (c : Collector) : List Taken := c.followed.2

def last (c : Collector) : Option Entry := c.history.getLast?

end Collector

/-- The input of the message taken last, or else the first one. -/
def latestInput (input : DebouncerInput) (taken : List Taken) : Value :=
  match taken.getLast? with
  | none => input.initialInput
  | some t => t.letter.message.input

/-- The time its delay leads to, from the clock value of its round. -/
def latestAim (input : DebouncerInput) (start : Int) (taken : List Taken) : Int :=
  match taken.getLast? with
  | none => start + input.delayMs
  | some t => t.round + t.letter.message.delayMs

/-- The variables are those of the message taken last. -/
structure Holds (input : DebouncerInput) (l : Locals) (taken : List Taken) : Prop where
  start : 0 ≤ l.start
  rounds : ∀ t ∈ taken, 0 ≤ t.round
  current : l.current = latestInput input taken
  target : l.target = cap input l.start (asI64 (latestAim input l.start taken))

def Carries (input : DebouncerInput) : Control → List Taken → Prop
  | .starting, taken => taken = []
  | .top l, taken | .launching l, taken | .returned l, taken => Holds input l taken
  | .receiving l now, taken => Holds input l taken ∧ 0 ≤ now
  | .acking l id, taken => Holds input l taken ∧ ∃ t ∈ taken, t.letter.message.id = id

theorem follow_carries {input : DebouncerInput} {control : Control} {taken : List Taken}
    (carries : Carries input control taken) {entry : Entry} (counted : ∀ ms, entry.outcome = .time ms → 0 ≤ ms) :
    Carries input (follow input (control, taken) entry).1 (follow input (control, taken) entry).2 := by
  obtain ⟨outcome, recordedAt⟩ := entry
  cases control with
  | starting =>
    cases outcome with
    | time start =>
      obtain rfl : taken = [] := carries
      exact ⟨counted start rfl, fun t member => absurd member List.not_mem_nil, rfl, rfl⟩
    | _ => exact carries
  | top l =>
    cases outcome with
    | time now =>
      simp only [follow, resume]
      split
      · exact carries
      · exact ⟨carries, counted now rfl⟩
    | _ => exact carries
  | receiving l now =>
    cases outcome with
    | received found =>
      cases found with
      | none => exact carries.1
      | some letter =>
        obtain ⟨message, ask⟩ := letter
        obtain ⟨holds, since⟩ := carries
        have rounds : ∀ t ∈ taken ++ [(⟨⟨message, ask⟩, now, recordedAt⟩ : Taken)], 0 ≤ t.round := by
          intro t member
          rcases List.mem_append.mp member with old | new
          · exact holds.rounds t old
          · exact List.mem_singleton.mp new ▸ since
        have holds : Holds input
            { l with current := message.input, target := cap input l.start (asI64 (now + message.delayMs)) }
            (taken ++ [⟨⟨message, ask⟩, now, recordedAt⟩]) :=
          ⟨holds.start, rounds, by simp [latestInput], by simp [latestAim]⟩
        simp only [follow, resume]
        split
        · exact holds
        · exact ⟨holds, ⟨⟨message, ask⟩, now, recordedAt⟩, by simp, rfl⟩
    | _ => exact carries
  | acking l id =>
    cases outcome with
    | acked => exact carries.1
    | _ => exact carries
  | launching l => cases outcome <;> exact carries
  | returned l => cases outcome <;> exact carries

/-- A record adds to what was taken when it holds a message. -/
theorem follow_taken (input : DebouncerInput) (control : Control) (taken : List Taken) (entry : Entry) :
    (follow input (control, taken) entry).2 = taken ∨ ∃ l now letter, control = .receiving l now ∧
      entry.outcome = .received (some letter) ∧
      (follow input (control, taken) entry).2 = taken ++ [⟨letter, now, entry.recordedAt⟩] := by
  obtain ⟨outcome, recordedAt⟩ := entry
  cases control with
  | receiving l now =>
    cases outcome with
    | received found =>
      cases found with
      | none => exact .inl rfl
      | some letter => exact .inr ⟨l, now, letter, rfl, rfl, rfl⟩
    | _ => exact .inl rfl
  | _ => exact .inl (by cases outcome <;> rfl)

/-- The loop was left when its target time had come. -/
def Late (l : Locals) (at_time : DateTime) : Prop :=
  ∃ now : Int, 0 ≤ now ∧ now ≤ at_time.timestampMillis ∧
    (remaining l now ≤ 0 ∨ now + remaining l now ≤ at_time.timestampMillis)

/-- Late or not, by the point the body has come to. -/
def DatedAt (input : DebouncerInput) (last : Option Entry) (deadline : Option DateTime) (launches : List Launch) :
    Control → Prop
  | .starting | .top _ | .acking _ _ => launches = []
  | .receiving l now => launches = [] ∧ 0 ≤ now ∧ 0 < remaining l now ∧ ∃ entry, last = some entry ∧
      now ≤ entry.recordedAt.timestampMillis ∧
      ∀ wake, deadline = some wake → entry.recordedAt + remaining l now * 1000000 ≤ wake
  | .launching l => launches = [] ∧ ∃ entry, last = some entry ∧ Late l entry.recordedAt
  | .returned l => ∃ launch, launches = [launch] ∧ last = some ⟨.started, launch.launchedAt⟩ ∧ Late l launch.launchedAt ∧
      launch.name = input.targetName ∧ launch.input = l.current ∧ launch.opts = input.targetOpts.intoOptions input.targetId

def Dated (c : Collector) : Prop := DatedAt c.input c.last c.deadline c.launches c.control

def Fresh (clock : DateTime) (c : Collector) (reading : DateTime) : Prop :=
  0 ≤ reading ∧ reading ≤ clock ∧ ∀ entry, c.last = some entry → entry.recordedAt ≤ reading

/-- A stage past the first is reached behind the whole history only. -/
def Stands (clock : DateTime) (c : Collector) (e : Execution) : Prop :=
  match e.stage with
  | .begun => True
  | .read reading | .wakes reading => e.seen = c.history.length ∧ Fresh clock c reading
  | .timed deadline => e.seen = c.history.length ∧ c.deadline = some deadline
  | .due => e.seen = c.history.length ∧ ∃ deadline, c.deadline = some deadline ∧ deadline ≤ clock
  | .missed | .upserted => e.seen = c.history.length

/-- Every call has its own stages. -/
def Fits : Control → Stage → Prop
  | _, .begun => True
  | .starting, .read _ | .top _, .read _ => True
  | .receiving _ _, .missed | .receiving _ _, .wakes _ | .receiving _ _, .timed _ | .receiving _ _, .due => True
  | .acking _ _, .upserted => True
  | _, _ => False

structure Replayed (clock : DateTime) (c : Collector) (e : Execution) : Prop where
  seen : e.seen ≤ c.history.length
  control : e.control = ((c.history.take e.seen).foldl (follow c.input) (.starting, [])).1
  fits : Fits e.control e.stage
  stage : Stands clock c e

structure Sane (clock : DateTime) (c : Collector) : Prop where
  input : ∃ id, c.input = c.ask.debouncerInput id
  mail : ∀ letter ∈ c.mail, letter.Genuine
  taken : ∀ t ∈ c.taken, t.letter.Genuine
  carries : Carries c.input c.control c.taken
  dated : Dated c
  recorded : ∀ entry, c.last = some entry → entry.recordedAt ≤ clock
  replayed : ∀ e, c.execution = some e → Replayed clock c e
  events : ∀ id ∈ c.events, ∃ t ∈ c.taken, t.letter.message.id = id
  running : c.execution ≠ none → c.status = .pending
  ended : c.status = .success → ∃ l, c.control = .returned l
  bounded : ∀ deadline, c.deadline = some deadline → deadline ≤ Context.MAX_INSTANT
  status : c.status = .enqueued ∨ c.status = .pending ∨ c.status = .success ∨ c.status = .maxRecoveryAttemptsExceeded

@[simp] theorem followed_record (c : Collector) (e : Execution) (entry : Entry) :
    (c.record e entry).followed = follow c.input c.followed entry := by
  simp [Collector.followed, Collector.record, List.foldl_append]

@[simp] theorem last_record (c : Collector) (e : Execution) (entry : Entry) : (c.record e entry).last = some entry := by
  simp [Collector.last, Collector.record]

@[simp] theorem control_record (c : Collector) (e : Execution) (entry : Entry) :
    (c.record e entry).control = resume c.input c.control entry.outcome := by
  simp only [Collector.control, followed_record]
  rfl

theorem dated_record (c : Collector) (e : Execution) (entry : Entry) : Dated (c.record e entry) ↔
    DatedAt c.input (some entry) none c.launches (resume c.input c.control entry.outcome) := by
  rw [Dated, last_record, control_record]
  exact Iff.rfl

/-- Behind the whole history an execution stands where its replay does. -/
theorem Replayed.live {clock : DateTime} {c : Collector} {e : Execution} (replayed : Replayed clock c e)
    (fresh : c.history[e.seen]? = none) : e.seen = c.history.length ∧ e.control = c.control := by
  have all : e.seen = c.history.length := Nat.le_antisymm replayed.seen (List.getElem?_eq_none_iff.mp fresh)
  refine ⟨all, ?_⟩
  rw [replayed.control, all, List.take_length]
  rfl

/-- A live call returns: the new record moves the replay as it moves the body. -/
theorem Sane.record {clock : DateTime} {c : Collector} (sane : Sane clock c) {e : Execution}
    (executes : c.execution = some e)
    (fresh : c.history[e.seen]? = none) {outcome : Outcome} {mail : List Letter} {launches : List Launch}
    (left : ∀ letter ∈ mail, letter.Genuine) (genuine : ∀ letter, outcome = .received (some letter) → letter.Genuine)
    (counted : ∀ ms, outcome = .time ms → 0 ≤ ms)
    (dated : DatedAt c.input (some ⟨outcome, clock⟩) none launches (resume c.input c.control outcome)) :
    Sane clock ({ c with mail := mail, launches := launches }.record e ⟨outcome, clock⟩) := by
  obtain ⟨all, here⟩ := (sane.replayed e executes).live fresh
  have moved : ({ c with mail := mail, launches := launches }.record e ⟨outcome, clock⟩).followed =
      follow c.input c.followed ⟨outcome, clock⟩ := followed_record _ e _
  constructor
  · exact sane.input
  · exact left
  · intro t member
    simp only [Collector.taken, moved] at member
    rcases follow_taken c.input c.followed.1 c.followed.2 ⟨outcome, clock⟩ with same | ⟨l, now, letter, -, held, grown⟩
    · rw [same] at member
      exact sane.taken t member
    · rw [grown] at member
      rcases List.mem_append.mp member with old | new
      · exact sane.taken t old
      · rw [List.mem_singleton.mp new]
        exact genuine letter held
  · simp only [Collector.control, Collector.taken, moved]
    exact follow_carries sane.carries counted
  · exact (dated_record _ _ _).mpr dated
  · intro entry found
    rw [last_record] at found
    cases found
    exact Int.le_refl _
  · intro e' executes'
    cases executes'
    refine ⟨?_, ?_, trivial, trivial⟩
    · simp [Collector.record, all]
    · have whole : (c.history ++ [(⟨outcome, clock⟩ : Entry)]).take (e.seen + 1) = c.history ++ [⟨outcome, clock⟩] := by
        rw [all, List.take_of_length_le (by simp)]
      change resume c.input e.control outcome =
        (((c.history ++ [(⟨outcome, clock⟩ : Entry)]).take (e.seen + 1)).foldl (follow c.input) (.starting, [])).1
      rw [whole, List.foldl_append, here]
      rfl
  · intro id member
    obtain ⟨t, there, named⟩ := sane.events id member
    refine ⟨t, ?_, named⟩
    simp only [Collector.taken, moved]
    rcases follow_taken c.input c.followed.1 c.followed.2 ⟨outcome, clock⟩ with same | ⟨l, now, letter, -, -, grown⟩
    · rw [same]
      exact there
    · rw [grown]
      exact List.mem_append_left _ there
  · intro _
    exact sane.running (by simp [executes])
  · intro success
    have pending := sane.running (by simp [executes])
    have success : c.status = .success := success
    rw [pending] at success
    cases success
  · intro deadline known
    cases known
  · exact sane.status

theorem Sane.stage {clock : DateTime} {c : Collector} (sane : Sane clock c) {e : Execution}
    (executes : c.execution = some e)
    {stage : Stage} (fits : Fits e.control stage) (stands : Stands clock c { e with stage := stage }) :
    Sane clock { c with execution := some { e with stage := stage } } where
  input := sane.input
  mail := sane.mail
  taken := sane.taken
  carries := sane.carries
  dated := sane.dated
  recorded := sane.recorded
  replayed e' executes' := by
    cases executes'
    exact ⟨(sane.replayed e executes).seen, (sane.replayed e executes).control, fits, stands⟩
  events := sane.events
  running _ := sane.running (by simp [executes])
  ended := sane.ended
  bounded := sane.bounded
  status := sane.status

theorem Sane.replays {clock : DateTime} {c : Collector} (sane : Sane clock c) {e : Execution}
    (executes : c.execution = some e)
    {entry : Entry} (found : c.history[e.seen]? = some entry) :
    Sane clock { c with execution := some { control := resume c.input e.control entry.outcome, seen := e.seen + 1 } } where
  input := sane.input
  mail := sane.mail
  taken := sane.taken
  carries := sane.carries
  dated := sane.dated
  recorded := sane.recorded
  replayed e' executes' := by
    cases executes'
    obtain ⟨bound, same⟩ := List.getElem?_eq_some_iff.mp found
    refine ⟨bound, ?_, trivial, trivial⟩
    rw [List.take_add_one, found, Option.toList_some, List.foldl_append, (sane.replayed e executes).control]
    rfl
  events := sane.events
  running _ := sane.running (by simp [executes])
  ended := sane.ended
  bounded := sane.bounded
  status := sane.status

theorem Sane.crash {clock : DateTime} {c : Collector} (sane : Sane clock c) : Sane clock c.crash where
  input := sane.input
  mail := sane.mail
  taken := sane.taken
  carries := sane.carries
  dated := sane.dated
  recorded := sane.recorded
  replayed e executes := by cases executes
  events := sane.events
  running gone := absurd rfl gone
  ended := sane.ended
  bounded := sane.bounded
  status := sane.status

theorem Late.later {l : Locals} {a b : DateTime} (late : Late l a) (le : a ≤ b) : Late l b := by
  obtain ⟨now, era, early, past⟩ := late
  have mono := timestampMillis_mono le
  exact ⟨now, era, Int.le_trans early mono, past.imp_right fun beyond => Int.le_trans beyond mono⟩

/-- A wait of so many milliseconds from an instant after a reading, ended. -/
theorem waited {recorded wake clock now span : Int} (before : now ≤ recorded / 1000000)
    (from_then : recorded + span * 1000000 ≤ wake) (past : wake ≤ clock) : now + span ≤ clock / 1000000 := by
  omega

theorem set_from {recorded reading span : Int} (since : recorded ≤ reading) (left : 0 < span) :
    recorded + span * 1000000 ≤ reading + span.toNat * 1000000 := by
  omega

theorem Stands.later {clock clock' : DateTime} {c : Collector} {e : Execution} (stands : Stands clock c e)
    (le : clock ≤ clock') : Stands clock' c e := by
  have fresh {reading : DateTime} (fresh : Fresh clock c reading) : Fresh clock' c reading :=
    ⟨fresh.1, Int.le_trans fresh.2.1 le, fresh.2.2⟩
  obtain ⟨control, seen, stage⟩ := e
  cases stage with
  | read reading => exact ⟨stands.1, fresh stands.2⟩
  | wakes reading => exact ⟨stands.1, fresh stands.2⟩
  | due =>
    obtain ⟨all, deadline, known, past⟩ := stands
    exact ⟨all, deadline, known, Int.le_trans past le⟩
  | _ => exact stands

theorem Sane.later {clock clock' : DateTime} {c : Collector} (sane : Sane clock c) (le : clock ≤ clock') :
    Sane clock' c where
  input := sane.input
  mail := sane.mail
  taken := sane.taken
  carries := sane.carries
  dated := sane.dated
  recorded entry found := Int.le_trans (sane.recorded entry found) le
  replayed e executes :=
    ⟨(sane.replayed e executes).seen, (sane.replayed e executes).control, (sane.replayed e executes).fits,
      (sane.replayed e executes).stage.later le⟩
  events := sane.events
  running := sane.running
  ended := sane.ended
  bounded := sane.bounded
  status := sane.status

theorem Sane.advance {clock : DateTime} (era : 0 ≤ clock) {c : Collector} (sane : Sane clock c) {e : Execution}
    (executes : c.execution = some e) : Sane clock (c.advance clock e) := by
  unfold Collector.advance
  cases found : c.history[e.seen]? with
  | some entry => exact sane.replays executes found
  | none =>
    obtain ⟨all, here⟩ := (sane.replayed e executes).live found
    have stands := (sane.replayed e executes).stage
    have dated := sane.dated
    have running := sane.running (by simp [executes])
    obtain ⟨control, seen, stage⟩ := e
    simp only at all here
    subst here
    have dated : DatedAt c.input c.last c.deadline c.launches c.control := sane.dated
    have carries := sane.carries
    have moves (stage' : Stage) (fits : Fits c.control stage') (stands : Stands clock c ⟨c.control, seen, stage'⟩) :
        Sane clock { c with execution := some ⟨c.control, seen, stage'⟩ } := sane.stage executes fits stands
    cases at_control : c.control with
    | starting =>
      rw [at_control] at dated executes moves
      simp only [call]
      cases stage with
      | begun => exact moves _ trivial ⟨all, era, Int.le_refl _, sane.recorded⟩
      | read reading =>
        have since : 0 ≤ DateTime.timestampMillis reading := Int.ediv_nonneg stands.2.1 (by decide)
        refine sane.record executes found sane.mail (fun letter held => by cases held) (fun ms held => ?_) ?_
        · cases held
          exact since
        · rw [at_control]
          exact dated
      | _ => exact sane
    | top l =>
      rw [at_control] at dated executes moves
      simp only [call]
      cases stage with
      | begun => exact moves _ trivial ⟨all, era, Int.le_refl _, sane.recorded⟩
      | read reading =>
        have since : 0 ≤ DateTime.timestampMillis reading := Int.ediv_nonneg stands.2.1 (by decide)
        have before := timestampMillis_mono stands.2.2.1
        refine sane.record executes found sane.mail (fun letter held => by cases held) (fun ms held => ?_) ?_
        · cases held
          exact since
        simp only [at_control, resume]
        by_cases past : remaining l (DateTime.timestampMillis reading) ≤ 0
        · simp only [past, if_true]
          exact ⟨dated, _, rfl, _, since, before, .inl past⟩
        · simp only [past, if_false]
          exact ⟨dated, since, Int.not_le.mp past, _, rfl, before, fun wake known => by cases known⟩
      | _ => exact sane
    | receiving l now =>
      rw [at_control] at dated executes moves
      obtain ⟨none_yet, since, left, entry, last, before, wakes⟩ := dated
      simp only [call]
      cases stage with
      | begun =>
        simp only
        split
        · next letter rest mail =>
          have genuine := sane.mail
          rw [mail] at genuine
          refine sane.record executes found (fun other member => genuine other (List.mem_cons_of_mem _ member))
            (fun other held => ?_) (fun ms held => by cases held) ?_
          · cases held
            exact genuine letter List.mem_cons_self
          · obtain ⟨message, ask⟩ := letter
            simp only [at_control, resume]
            split <;> exact none_yet
        · exact moves .missed trivial all
      | missed =>
        simp only
        split
        · next wake known => exact moves (.timed wake) trivial ⟨all, known⟩
        · exact moves (.wakes clock) trivial ⟨all, era, Int.le_refl _, sane.recorded⟩
      | wakes reading =>
        simp only
        by_cases panics : Context.MAX_INSTANT < reading + ((remaining l now).toNat * 1000000 : Nat)
        · simp only [panics, if_true]
          exact sane.crash
        · simp only [panics, if_false]
          have fixed : DatedAt c.input c.last (some (reading + (remaining l now).toNat * 1000000)) c.launches c.control := by
            rw [at_control]
            refine ⟨none_yet, since, left, entry, last, before, fun wake known => ?_⟩
            cases known
            exact set_from (stands.2.2.2 entry last) left
          constructor
          · exact sane.input
          · exact sane.mail
          · exact sane.taken
          · exact sane.carries
          · exact fixed
          · exact sane.recorded
          · intro e executed
            cases executed
            exact ⟨Nat.le_of_eq all, at_control ▸ (sane.replayed _ executes).control, trivial, all, rfl⟩
          · exact sane.events
          · intro _
            exact running
          · exact sane.ended
          · intro deadline known
            cases known
            exact not_lt.mp panics
          · exact sane.status
      | timed wake =>
        simp only
        split
        · next past => exact moves .due trivial ⟨all, wake, stands.2, past⟩
        · exact moves .begun trivial trivial
      | due =>
        obtain ⟨-, wake, known, past⟩ := stands
        refine sane.record executes found sane.mail (fun letter held => by cases held) (fun ms held => by cases held) ?_
        simp only [at_control, resume]
        refine ⟨none_yet, _, rfl, now, since, ?_, .inr ?_⟩
        · exact Int.le_trans before (timestampMillis_mono (sane.recorded entry last))
        · exact waited before (wakes wake known) past
      | _ => exact sane
    | acking l id =>
      rw [at_control] at dated executes moves carries
      simp only [call]
      cases stage with
      | begun =>
        constructor
        · exact sane.input
        · exact sane.mail
        · exact sane.taken
        · exact sane.carries
        · exact sane.dated
        · exact sane.recorded
        · intro e executed
          cases executed
          exact ⟨Nat.le_of_eq all, (sane.replayed _ executes).control, trivial, all⟩
        · intro other member
          rcases List.mem_append.mp member with old | new
          · exact sane.events other old
          · rw [List.mem_singleton.mp new]
            exact carries.2
        · intro _
          exact running
        · exact sane.ended
        · exact sane.bounded
        · exact sane.status
      | upserted =>
        refine sane.record executes found sane.mail (fun letter held => by cases held) (fun ms held => by cases held) ?_
        rw [at_control]
        exact dated
      | _ => exact sane
    | launching l =>
      rw [at_control] at dated executes
      obtain ⟨none_yet, entry, last, late⟩ := dated
      simp only [call]
      refine sane.record executes found sane.mail (fun letter held => by cases held) (fun ms held => by cases held) ?_
      rw [at_control]
      exact ⟨_, by rw [none_yet]; rfl, rfl, late.later (sane.recorded entry last), rfl, rfl, rfl⟩
    | returned l =>
      rw [at_control] at executes
      simp only [call]
      constructor
      · exact sane.input
      · exact sane.mail
      · exact sane.taken
      · exact sane.carries
      · exact sane.dated
      · exact sane.recorded
      · intro e executes
        cases executes
      · exact sane.events
      · intro gone
        exact absurd rfl gone
      · intro _
        exact ⟨l, at_control⟩
      · exact sane.bounded
      · exact .inr (.inr (.inl rfl))

def enqueued (ask : Ask) (targetId : String) : Collector where
  ask := ask
  input := ask.debouncerInput targetId

def Collector.mailed (c : Collector) (ask : Ask) (id : String) : Collector :=
  { c with mail := c.mail ++ [⟨ask.message id, ask⟩] }

theorem enqueued_sane (clock : DateTime) (ask : Ask) (targetId : String) : Sane clock (enqueued ask targetId) where
  input := ⟨targetId, rfl⟩
  mail letter member := absurd member List.not_mem_nil
  taken t member := absurd member List.not_mem_nil
  carries := rfl
  dated := rfl
  recorded entry found := by cases found
  replayed e executes := by cases executes
  events id member := absurd member List.not_mem_nil
  running gone := absurd rfl gone
  ended success := by cases success
  bounded deadline known := by cases known
  status := .inl rfl

theorem Sane.mailed {clock : DateTime} {c : Collector} (sane : Sane clock c) (ask : Ask) (id : String) :
    Sane clock (c.mailed ask id) where
  input := sane.input
  mail letter member := by
    rcases List.mem_append.mp member with old | new
    · exact sane.mail letter old
    · rw [List.mem_singleton.mp new]
      exact ⟨id, rfl⟩
  taken := sane.taken
  carries := sane.carries
  dated := sane.dated
  recorded := sane.recorded
  replayed e executes :=
    ⟨(sane.replayed e executes).seen, (sane.replayed e executes).control, (sane.replayed e executes).fits,
      (sane.replayed e executes).stage⟩
  events := sane.events
  running := sane.running
  ended := sane.ended
  bounded := sane.bounded
  status := sane.status

theorem Sane.dispatch {clock : DateTime} {c : Collector} (sane : Sane clock c) : Sane clock c.dispatch := by
  unfold Collector.dispatch
  split
  · constructor
    · exact sane.input
    · exact sane.mail
    · exact sane.taken
    · exact sane.carries
    · exact sane.dated
    · exact sane.recorded
    · intro e executes
      cases executes
      exact ⟨Nat.zero_le _, rfl, trivial, trivial⟩
    · exact sane.events
    · intro _
      rfl
    · intro success
      cases success
    · exact sane.bounded
    · exact .inr (.inl rfl)
  · exact sane

theorem Sane.recover {clock : DateTime} {c : Collector} (sane : Sane clock c) (maxAttempts : Int) :
    Sane clock (c.recover maxAttempts) := by
  unfold Collector.recover
  split
  · next gone =>
    constructor
    · exact sane.input
    · exact sane.mail
    · exact sane.taken
    · exact sane.carries
    · exact sane.dated
    · exact sane.recorded
    · intro e executes
      exact ⟨(sane.replayed e executes).seen, (sane.replayed e executes).control, (sane.replayed e executes).fits,
        (sane.replayed e executes).stage⟩
    · exact sane.events
    · intro executes
      exact absurd gone.2 executes
    · intro success
      simp only at success
      split at success <;> cases success
    · exact sane.bounded
    · simp only
      split
      · exact .inr (.inr (.inr rfl))
      · exact .inl rfl
  · exact sane

/-- What a producer's step does to the collectors: nothing, a new one where no active one holds the key,
or a message to the one it has found. -/
structure Produced (uuid : Nat → String) (p : Producer) (s : State) (after : Producer × State) : Prop where
  ask : after.1.ask = p.ask
  clock : after.2.clock = s.clock
  producers : after.2.producers = s.producers
  drawn : s.drawn ≤ after.2.drawn
  collectors : after.2.collectors = s.collectors ∨
    (s.holder p.ask.key = none ∧ after.2.drawn = s.drawn + 1 ∧
      after.2.collectors = s.collectors ++ [enqueued p.ask (uuid s.drawn)]) ∨
    ∃ existing targetId, p.standing = .sending existing targetId ∧ after.2.drawn = s.drawn + 1 ∧
      after.2.collectors = s.collectors.modify existing fun c => c.mailed p.ask (uuid s.drawn)

theorem produce_produced (uuid : Nat → String) (reply : Scheduler.Reply) (expired : Bool) (p : Producer) (s : State) :
    Produced uuid p s (produce uuid reply expired p s) := by
  obtain ⟨ask, standing⟩ := p
  cases standing with
  | enqueuing =>
    have holder : ({ s with drawn := s.drawn + 1 } : State).holder ask.key = s.holder ask.key := rfl
    cases held : s.holder ask.key with
    | some existing =>
      cases reply <;> (simp only [produce, holder, held]; exact ⟨rfl, rfl, rfl, Nat.le_succ _, .inl rfl⟩)
    | none =>
      cases reply with
      | failed e =>
        simp only [produce]
        exact ⟨rfl, rfl, rfl, Nat.le_succ _, .inl rfl⟩
      | _ =>
        simp only [produce, holder, held]
        exact ⟨rfl, rfl, rfl, Nat.le_succ _, .inr (.inl ⟨held, rfl, rfl⟩)⟩
  | looking =>
    cases held : s.holder ask.key <;> cases reply <;>
      (simp only [produce, held]; exact ⟨rfl, rfl, rfl, Nat.le_refl _, .inl rfl⟩)
  | reading existing =>
    cases found : s.collectors[existing]? <;> cases reply <;>
      (simp only [produce, found]; exact ⟨rfl, rfl, rfl, Nat.le_refl _, .inl rfl⟩)
  | sending existing targetId =>
    cases reply with
    | failed e => exact ⟨rfl, rfl, rfl, Nat.le_succ _, .inl rfl⟩
    | _ => exact ⟨rfl, rfl, rfl, Nat.le_succ _, .inr (.inr ⟨existing, targetId, rfl, rfl, rfl⟩)⟩
  | awaiting existing targetId messageId =>
    cases reply with
    | delivered =>
      simp only [produce]
      split
      · exact ⟨rfl, rfl, rfl, Nat.le_refl _, .inl rfl⟩
      · split <;> exact ⟨rfl, rfl, rfl, Nat.le_refl _, .inl rfl⟩
    | _ => exact ⟨rfl, rfl, rfl, Nat.le_refl _, .inl rfl⟩
  | answered result => exact ⟨rfl, rfl, rfl, Nat.le_refl _, .inl rfl⟩

theorem mem_modify {α : Type} {f : α → α} {xs : List α} {i : Nat} {y : α} (member : y ∈ xs.modify i f) :
    y ∈ xs ∨ ∃ x, xs[i]? = some x ∧ y = f x := by
  obtain ⟨j, found⟩ := List.mem_iff_getElem?.mp member
  rw [List.getElem?_modify] at found
  cases here : xs[j]? with
  | none => simp [here] at found
  | some x =>
    by_cases same : i = j
    · simp only [here, same, if_true, Option.map_eq_map, Option.map_some, Option.some.injEq] at found
      exact .inr ⟨x, same ▸ here, found.symm⟩
    · simp only [here, same, if_false, Option.map_eq_map, Option.map_some, Option.some.injEq] at found
      exact .inl (found ▸ List.mem_of_getElem? here)

/-- What every party keeps of a collector holds of all of them. -/
theorem next_collectors {uuid : Nat → String} {P : DateTime → Collector → Prop} {s : State} {event : Event}
    (later : ∀ {clock clock' c}, P clock c → clock ≤ clock' → P clock' c)
    (fresh : ∀ i reply expired, event = .produce i reply expired → ∀ p, s.producers[i]? = some p →
      P s.clock (enqueued p.ask (uuid s.drawn)))
    (mailed : ∀ i reply expired, event = .produce i reply expired → ∀ p, s.producers[i]? = some p →
      ∀ existing targetId, p.standing = .sending existing targetId → ∀ c, s.collectors[existing]? = some c →
        P s.clock c → P s.clock (c.mailed p.ask (uuid s.drawn)))
    (dispatch : ∀ {clock c}, P clock c → P clock c.dispatch)
    (advance : ∀ {c e}, P s.clock c → c.execution = some e → P s.clock (c.advance s.clock e))
    (crash : ∀ {clock c}, P clock c → P clock c.crash)
    (recover : ∀ {clock c} maxAttempts, P clock c → P clock (c.recover maxAttempts))
    (all : ∀ c ∈ s.collectors, P s.clock c) : ∀ c ∈ (next uuid s event).collectors, P (next uuid s event).clock c := by
  have modified {f : Collector → Collector} {i : Nat} (keeps : ∀ c, s.collectors[i]? = some c → P s.clock c → P s.clock (f c)) :
      ∀ c ∈ s.collectors.modify i f, P s.clock c := by
    intro c member
    rcases mem_modify member with old | ⟨x, found, rfl⟩
    · exact all c old
    · exact keeps x found (all x (List.mem_of_getElem? found))
  cases event with
  | pass span =>
    simp only [next]
    split
    · exact fun c member => later (all c member) (Int.le_add_of_nonneg_right (Int.natCast_nonneg span))
    · exact all
  | ask ask => exact all
  | produce i reply expired =>
    simp only [next]
    cases found : s.producers[i]? with
    | none => exact all
    | some p =>
      obtain ⟨-, clock, -, -, collectors⟩ := produce_produced uuid reply expired p s
      intro c member
      simp only [clock] at member ⊢
      rcases collectors with same | ⟨-, -, grown⟩ | ⟨existing, targetId, sends, -, changed⟩
      · exact all c (same ▸ member)
      · rcases List.mem_append.mp (grown ▸ member) with old | new
        · exact all c old
        · exact List.mem_singleton.mp new ▸ fresh i reply expired rfl p found
      · exact modified (fun c here kept => mailed i reply expired rfl p found existing targetId sends c here kept) c
          (changed ▸ member)
  | dispatch i => exact modified fun c _ kept => dispatch kept
  | advance i =>
    refine modified fun c _ kept => ?_
    cases executes : c.execution with
    | none => exact kept
    | some e => exact advance kept executes
  | crash i => exact modified fun c _ kept => crash kept
  | recover i maxAttempts => exact modified fun c _ kept => recover maxAttempts kept

def Collector.letters (c : Collector) : List Letter := c.mail ++ c.taken.map (·.letter)

/-- A record takes a message from the mailbox at most. -/
theorem record_letters (c : Collector) (e : Execution) (mail : List Letter) (launches : List Launch) (entry : Entry)
    (fewer : ∀ letter ∈ mail, letter ∈ c.mail) (held : ∀ letter, entry.outcome = .received (some letter) → letter ∈ c.mail) :
    ∀ letter ∈ ({ c with mail := mail, launches := launches }.record e entry).letters, letter ∈ c.letters := by
  intro letter member
  have moved : ({ c with mail := mail, launches := launches }.record e entry).followed = follow c.input c.followed entry :=
    followed_record _ e entry
  rcases List.mem_append.mp member with waiting | taken
  · exact List.mem_append_left _ (fewer letter waiting)
  · obtain ⟨t, there, rfl⟩ := List.mem_map.mp taken
    simp only [Collector.taken, moved] at there
    rcases follow_taken c.input c.followed.1 c.followed.2 entry with same | ⟨l, now, letter, -, outcome, grown⟩
    · rw [same] at there
      exact List.mem_append_right _ (List.mem_map.mpr ⟨t, there, rfl⟩)
    · rcases List.mem_append.mp (grown ▸ there) with old | new
      · exact List.mem_append_right _ (List.mem_map.mpr ⟨t, old, rfl⟩)
      · rw [List.mem_singleton.mp new]
        exact List.mem_append_left _ (held letter outcome)

theorem advance_letters (now : DateTime) (c : Collector) (e : Execution) :
    ∀ letter ∈ (c.advance now e).letters, letter ∈ c.letters := by
  have kept (entry : Entry) (launches : List Launch) (empty : ∀ letter, entry.outcome ≠ .received (some letter)) :=
    record_letters c e c.mail launches entry (fun _ member => member) fun letter outcome => absurd outcome (empty letter)
  unfold Collector.advance
  cases c.history[e.seen]? with
  | some entry => exact fun letter member => member
  | none =>
    simp only
    split
    · exact fun letter member => member
    · exact kept _ c.launches (by simp)
    · split
      · next letter rest mail =>
        refine record_letters c e rest c.launches _ (fun other member => ?_) fun other outcome => ?_
        · exact mail ▸ List.mem_cons_of_mem _ member
        · cases outcome
          exact mail ▸ List.mem_cons_self
      · exact fun letter member => member
    · split <;> exact fun letter member => member
    · split <;> exact fun letter member => member
    · exact fun letter member => member
    · exact kept _ c.launches (by simp)
    · exact fun letter member => member
    · exact kept _ c.launches (by simp)
    · exact kept _ _ (by simp)
    · exact fun letter member => member
    · exact fun letter member => member

/-- No step changes whose collector it is. -/
theorem advance_identity (now : DateTime) (c : Collector) (e : Execution) :
    (c.advance now e).ask = c.ask ∧ (c.advance now e).input = c.input := by
  unfold Collector.advance
  cases c.history[e.seen]? with
  | some entry => exact ⟨rfl, rfl⟩
  | none =>
    simp only
    split
    · exact ⟨rfl, rfl⟩
    · exact ⟨rfl, rfl⟩
    · split <;> exact ⟨rfl, rfl⟩
    · split <;> exact ⟨rfl, rfl⟩
    · split <;> exact ⟨rfl, rfl⟩
    · exact ⟨rfl, rfl⟩
    · exact ⟨rfl, rfl⟩
    · exact ⟨rfl, rfl⟩
    · exact ⟨rfl, rfl⟩
    · exact ⟨rfl, rfl⟩
    · exact ⟨rfl, rfl⟩
    · exact ⟨rfl, rfl⟩

def Collector.identity (c : Collector) : Ask × DebouncerInput := (c.ask, c.input)

theorem map_modify_same {α β : Type} (f : α → β) (g : α → α) (same : ∀ x, f (g x) = f x) (xs : List α) (i : Nat) :
    (xs.modify i g).map f = xs.map f := by
  apply List.ext_getElem?
  intro j
  rw [List.getElem?_map, List.getElem?_map, List.getElem?_modify]
  cases xs[j]? with
  | none => rfl
  | some x =>
    by_cases here : i = j
    · simp [here, same]
    · simp [here]

/-- A step keeps every collector at its place, and adds one only where no active one holds the key. -/
theorem next_identities (uuid : Nat → String) (s : State) (event : Event) :
    (next uuid s event).collectors.map Collector.identity = s.collectors.map Collector.identity ∨
    ∃ i reply expired p, event = .produce i reply expired ∧ s.producers[i]? = some p ∧ s.holder p.ask.key = none ∧
      (next uuid s event).drawn = s.drawn + 1 ∧
      (next uuid s event).collectors = s.collectors ++ [enqueued p.ask (uuid s.drawn)] := by
  have kept {f : Collector → Collector} (same : ∀ c, (f c).identity = c.identity) (i : Nat) :
      (s.collectors.modify i f).map Collector.identity = s.collectors.map Collector.identity :=
    map_modify_same _ f same _ i
  cases event with
  | pass span =>
    simp only [next]
    split <;> exact .inl rfl
  | ask ask => exact .inl rfl
  | produce i reply expired =>
    simp only [next]
    cases found : s.producers[i]? with
    | none => exact .inl rfl
    | some p =>
      obtain ⟨-, -, -, -, same | ⟨vacant, drawn, grown⟩ | ⟨existing, targetId, -, -, changed⟩⟩ :=
        produce_produced uuid reply expired p s
      · exact .inl (congrArg (List.map Collector.identity) same)
      · exact .inr ⟨i, reply, expired, p, rfl, found, vacant, drawn, grown⟩
      · refine .inl ?_
        simp only [changed]
        exact map_modify_same Collector.identity (fun c => c.mailed p.ask (uuid s.drawn)) (fun _ => rfl) _ existing
  | dispatch i =>
    refine .inl (kept (fun c => ?_) i)
    unfold Collector.dispatch
    split <;> rfl
  | advance i =>
    refine .inl (kept (fun c => ?_) i)
    cases c.execution with
    | none => rfl
    | some e =>
      obtain ⟨ask, input⟩ := advance_identity s.clock c e
      exact Prod.ext ask input
  | crash i => exact .inl (map_modify_same Collector.identity Collector.crash (fun _ => rfl) _ i)
  | recover i maxAttempts =>
    refine .inl (kept (fun c => ?_) i)
    unfold Collector.recover
    split <;> rfl

theorem next_at {uuid : Nat → String} {s : State} (event : Event) {j : Nat} {c : Collector}
    (found : s.collectors[j]? = some c) :
    ∃ c', (next uuid s event).collectors[j]? = some c' ∧ c'.ask = c.ask ∧ c'.input = c.input := by
  have here : (s.collectors.map Collector.identity)[j]? = some c.identity := by rw [List.getElem?_map, found]; rfl
  rcases next_identities uuid s event with same | ⟨_, _, _, p, -, -, -, -, grown⟩
  · rw [← same, List.getElem?_map, Option.map_eq_some_iff] at here
    obtain ⟨c', at_place, identity⟩ := here
    exact ⟨c', at_place, (Prod.mk.inj identity).1, (Prod.mk.inj identity).2⟩
  · refine ⟨c, ?_, rfl, rfl⟩
    rw [grown, List.getElem?_append_left (List.getElem?_eq_some_iff.mp found).1]
    exact found

structure Drawn (uuid : Nat → String) (s : State) : Prop where
  below : ∀ c ∈ s.collectors, ∃ n, n < s.drawn ∧ c.input.targetId = uuid n
  distinct : (s.collectors.map (·.input.targetId)).Nodup

theorem next_drawn_le (uuid : Nat → String) (s : State) (event : Event) : s.drawn ≤ (next uuid s event).drawn := by
  cases event with
  | pass span =>
    simp only [next]
    split <;> exact Nat.le_refl _
  | produce i reply expired =>
    simp only [next]
    cases s.producers[i]? with
    | none => exact Nat.le_refl _
    | some p => exact (produce_produced uuid reply expired p s).drawn
  | _ => exact Nat.le_refl _

theorem run_drawn {uuid : Nat → String} (injective : Function.Injective uuid) (clock : DateTime) (events : List Event) :
    Drawn uuid (run uuid events (start clock)) := by
  have ids (s : State) : s.collectors.map (·.input.targetId) = (s.collectors.map Collector.identity).map (·.2.targetId) := by
    rw [List.map_map]
    rfl
  have keeps (s : State) (event : Event) (_ : True) (kept : Drawn uuid s) : Drawn uuid (next uuid s event) := by
    have grows := next_drawn_le uuid s event
    rcases next_identities uuid s event with same | ⟨_, _, _, p, -, -, -, drawn, grown⟩
    · have same_ids : (next uuid s event).collectors.map (·.input.targetId) = s.collectors.map (·.input.targetId) := by
        rw [ids, ids, same]
      refine ⟨fun c member => ?_, same_ids ▸ kept.distinct⟩
      have member : c.input.targetId ∈ (next uuid s event).collectors.map (·.input.targetId) := List.mem_map.mpr ⟨c, member, rfl⟩
      rw [same_ids] at member
      obtain ⟨c', there, named⟩ := List.mem_map.mp member
      obtain ⟨n, lt, drawn⟩ := kept.below c' there
      exact ⟨n, Nat.lt_of_lt_of_le lt grows, named ▸ drawn⟩
    · refine ⟨fun c member => ?_, ?_⟩
      · rcases List.mem_append.mp (grown ▸ member) with old | new
        · obtain ⟨n, lt, named⟩ := kept.below c old
          exact ⟨n, Nat.lt_of_lt_of_le lt grows, named⟩
        · rw [List.mem_singleton.mp new, drawn]
          exact ⟨s.drawn, Nat.lt_succ_self _, rfl⟩
      · rw [grown, List.map_append, List.nodup_append]
        refine ⟨kept.distinct, by simp, ?_⟩
        rintro id old other new rfl
        obtain ⟨c, there, named⟩ := List.mem_map.mp old
        obtain ⟨n, lt, drawn⟩ := kept.below c there
        have new : id = uuid s.drawn := by simpa [enqueued, Ask.debouncerInput] using new
        exact absurd (injective (drawn.symm.trans (named.trans new))) (Nat.ne_of_lt lt)
  exact Runs.invariant keeps (Runs.along_of_forall _ (fun _ _ => trivial) events _)
    ⟨fun c member => absurd member List.not_mem_nil, List.nodup_nil⟩

/-- A target was started once, when the loop had ended, with what the loop held. -/
theorem Sane.launched {clock : DateTime} {c : Collector} (sane : Sane clock c) {launch : Launch}
    (member : launch ∈ c.launches) :
    ∃ l, c.control = .returned l ∧ c.launches = [launch] ∧ c.last = some ⟨.started, launch.launchedAt⟩ ∧
      Late l launch.launchedAt ∧ Holds c.input l c.taken ∧ launch.name = c.input.targetName ∧ launch.input = l.current ∧
      launch.opts = c.input.targetOpts.intoOptions c.input.targetId := by
  have dated : DatedAt c.input c.last c.deadline c.launches c.control := sane.dated
  have carries := sane.carries
  have absurd_of (empty : c.launches = []) : False := by
    rw [empty] at member
    cases member
  cases at_control : c.control with
  | returned l =>
    rw [at_control] at dated carries
    obtain ⟨only, alone, last, late, name, input, opts⟩ := dated
    obtain rfl : launch = only := List.mem_singleton.mp (alone ▸ member)
    exact ⟨l, rfl, alone, last, late, carries, name, input, opts⟩
  | receiving l now =>
    rw [at_control] at dated
    exact (absurd_of dated.1).elim
  | launching l =>
    rw [at_control] at dated
    exact (absurd_of dated.1).elim
  | _ =>
    rw [at_control] at dated
    exact (absurd_of dated).elim

def State.Sane (s : State) : Prop := 0 ≤ s.clock ∧ ∀ c ∈ s.collectors, Debounce.Sane s.clock c

theorem next_sane {uuid : Nat → String} {s : State} {event : Event} (kept : s.Sane) : (next uuid s event).Sane := by
  constructor
  · cases event with
    | pass span =>
      simp only [next]
      split
      · exact Int.add_nonneg kept.1 (Int.natCast_nonneg span)
      · exact kept.1
    | produce i reply expired =>
      simp only [next]
      cases s.producers[i]? with
      | none => exact kept.1
      | some p => exact (produce_produced uuid reply expired p s).clock ▸ kept.1
    | _ => exact kept.1
  · exact next_collectors Sane.later (fun _ _ _ _ p _ => enqueued_sane s.clock p.ask _)
      (fun _ _ _ _ p _ _ _ _ _ _ sane => sane.mailed p.ask _) Sane.dispatch
      (fun sane executes => sane.advance kept.1 executes) Sane.crash (fun maxAttempts sane => sane.recover maxAttempts) kept.2

theorem run_sane (uuid : Nat → String) (clock : DateTime) (era : 0 ≤ clock) (events : List Event) :
    ∀ c ∈ (run uuid events (start clock)).collectors, Sane (run uuid events (start clock)).clock c := by
  have along : Runs.Along (next uuid) (fun _ _ => True) events (start clock) :=
    Runs.along_of_forall _ (fun _ _ => trivial) events _
  have initial : (start clock).Sane := ⟨era, fun c member => absurd member List.not_mem_nil⟩
  exact (Runs.invariant (fun _ _ _ kept => next_sane kept) along initial).2

end Durare.Debounce

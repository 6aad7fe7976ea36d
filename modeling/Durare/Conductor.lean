import Durare.Runs
import Mathlib.Tactic.Ring

/-! The link to the conductor: a task that dials, serves the connection and dials again. An event is one time that the
task goes on, at an instant of its clock in nanoseconds. -/
namespace Durare.Conductor

def PING_INTERVAL : Nat := 20000000000

def PING_TIMEOUT : Nat := 30000000000

def INITIAL_RECONNECT_WAIT : Nat := 1000000000

def MAX_RECONNECT_WAIT : Nat := 30000000000

def CLOSE_DRAIN_TIMEOUT : Nat := 2000000000

/-- The next tick of an interval that skips missed ones: a tick that is late by more than five milliseconds goes back
to the multiples of the period. -/
def nextTick (due now : Nat) : Nat :=
  if due + 5000000 < now then now + PING_INTERVAL - (now - due) % PING_INTERVAL else due + PING_INTERVAL

inductive Message where
  | text (text : String)
  | ping
  | close
  | other
deriving DecidableEq, Repr

/-- Where the task stands. `due` is the next tick of the ping, `since` the start of the current `select!` or of the
drain. -/
inductive Phase where
  | top
  | dialling
  | backingOff (wake : Nat)
  | selecting (since due : Nat)
  | pinging (due : Nat)
  | ponging (due : Nat)
  | handling (text : String) (due : Nat)
  | closing
  | draining (since : Nat)
  | stopped
deriving DecidableEq, Repr

inductive Reason where
  | shutdown
  | writeFailed
  | silence
  | closed
deriving DecidableEq, Repr

/-- The task. The last five are no values of the program: the texts that `serve` read and the handler finished, one
whose handler was broken off, those drained on closing, and why the connections ended. -/
structure Link where
  phase : Phase := .top
  backoff : Nat := INITIAL_RECONNECT_WAIT
  now : Nat := 0
  received : List String := []
  handled : List String := []
  broken : List String := []
  drained : List String := []
  ended : List Reason := []
deriving DecidableEq, Repr

inductive Outcome where
  | checked (cancelled : Bool)
  | connected
  | refused
  | cancelled
  | slept
  | ticked
  | lapsed
  | closed
  | received (message : Message)
  | done (ok : Bool)
  | aborted
deriving DecidableEq, Repr

section Links

-- The wait that a backoff is spread to.
variable (jittered : Nat → Nat)

def Link.move (l : Link) (phase : Phase) : Link := { l with phase := phase }

/-- The connection is over, and the task goes on elsewhere. -/
def Link.finish (l : Link) (reason : Reason) (phase : Phase) : Link :=
  { l with phase := phase, ended := l.ended ++ [reason] }

/-- One arm of the loops `connection_loop`, `serve` and `close_gracefully`, at the time of the link, or the abort that
`shutdown` makes after its grace period, at whatever await the task stands. -/
def react (l : Link) : Phase → Outcome → Link
  | .top, .checked cancelled => l.move (if cancelled then .stopped else .dialling)
  | .dialling, .connected =>
    { l with phase := .selecting l.now (l.now + PING_INTERVAL), backoff := INITIAL_RECONNECT_WAIT }
  | .dialling, .refused => l.move (.backingOff (l.now + jittered l.backoff))
  | .backingOff _, .cancelled => l.move .stopped
  | .backingOff _, .slept =>
    { l with phase := .top, backoff := min (l.backoff * 2) MAX_RECONNECT_WAIT }
  | .selecting _ _, .cancelled => l.finish .shutdown .closing
  | .selecting _ due, .ticked => l.move (.pinging (nextTick due l.now))
  | .selecting _ _, .lapsed => l.finish .silence .top
  | .selecting _ _, .closed => l.finish .closed .top
  | .selecting _ due, .received (.text text) =>
    { l with phase := .handling text due, received := l.received ++ [text] }
  | .selecting _ due, .received .ping => l.move (.ponging due)
  | .selecting _ _, .received .close => l.finish .closed .top
  | .selecting _ due, .received .other => l.move (.selecting l.now due)
  | .pinging due, .done ok => if ok then l.move (.selecting l.now due) else l.finish .writeFailed .top
  | .ponging due, .done _ => l.move (.selecting l.now due)
  -- A failure of the handler is only logged.
  | .handling text due, .done _ => { l with phase := .selecting l.now due, handled := l.handled ++ [text] }
  | .closing, .done ok => l.move (if ok then .draining l.now else .stopped)
  | .draining _, .received (.text text) => { l with drained := l.drained ++ [text] }
  | .draining _, .closed => l.move .stopped
  | .draining _, .lapsed => l.move .stopped
  | .handling text _, .aborted => { l with phase := .stopped, broken := l.broken ++ [text] }
  | _, .aborted => l.move .stopped
  | _, _ => l

def next (l : Link) (event : Nat × Outcome) : Link :=
  react jittered { l with now := event.1 } l.phase event.2

abbrev run (events : List (Nat × Outcome)) (l : Link) : Link := Runs.run (next jittered) events l

/-- Timers do not fire early, and a `select!` is polled within ten seconds of a tick that is due. -/
def Prompt (now : Nat) : Phase → Outcome → Prop
  | .backingOff wake, .slept => wake ≤ now
  | .selecting since due, outcome => (outcome ≠ .aborted → now < max since due + (PING_TIMEOUT - PING_INTERVAL)) ∧
      (outcome = .ticked → due ≤ now) ∧ (outcome = .lapsed → since + PING_TIMEOUT ≤ now)
  | .draining since, .lapsed => since + CLOSE_DRAIN_TIMEOUT ≤ now
  | _, _ => True

def Allowed (l : Link) (event : Nat × Outcome) : Prop := l.now ≤ event.1 ∧ Prompt event.1 l.phase event.2

/-- The next tick comes before the deadline of the read: every `select!` starts the deadline anew. -/
def Timed (now : Nat) : Phase → Prop
  | .selecting since due => since ≤ now ∧ due ≤ since + PING_INTERVAL
  | .pinging due => due ≤ now + PING_INTERVAL
  | .ponging due => due ≤ now + PING_INTERVAL
  | .handling _ due => due ≤ now + PING_INTERVAL
  | _ => True

theorem nextTick_le {due now : Nat} (late : due ≤ now) : nextTick due now ≤ now + PING_INTERVAL := by
  unfold nextTick
  split
  · exact Nat.sub_le _ _
  · omega

/-- No connection has been given up for silence. -/
structure Inv (l : Link) : Prop where
  timed : Timed l.now l.phase
  ended : Reason.silence ∉ l.ended

variable {jittered} {l : Link}

theorem Inv.move {phase : Phase} (inv : Inv l) (timed : Timed l.now phase) : Inv (l.move phase) := ⟨timed, inv.ended⟩

theorem Inv.finish {reason : Reason} {phase : Phase} (inv : Inv l) (other : reason ≠ .silence)
    (timed : Timed l.now phase) : Inv (l.finish reason phase) := by
  refine ⟨timed, ?_⟩
  simp only [Link.finish, List.mem_append, List.mem_singleton, not_or]
  exact ⟨inv.ended, other.symm⟩

theorem Timed.later {phase : Phase} {now now' : Nat} (later : now ≤ now') (timed : Timed now phase) :
    Timed now' phase := by
  cases phase with
  | selecting since due => exact ⟨timed.1.trans later, timed.2⟩
  | pinging due => exact timed.trans (Nat.add_le_add_right later _)
  | ponging due => exact timed.trans (Nat.add_le_add_right later _)
  | handling text due => exact timed.trans (Nat.add_le_add_right later _)
  | _ => trivial

theorem react_inv {phase : Phase} {outcome : Outcome} (timed : Timed l.now phase) (prompt : Prompt l.now phase outcome)
    (inv : Inv l) : Inv (react jittered l phase outcome) := by
  revert timed prompt
  unfold react
  split
  next cancelled =>
    intro _ _
    exact inv.move (by split <;> trivial)
  next => exact fun _ _ => ⟨⟨le_refl _, le_refl _⟩, inv.ended⟩
  next => exact fun _ _ => inv.move trivial
  next => exact fun _ _ => inv.move trivial
  next => exact fun _ _ => ⟨trivial, inv.ended⟩
  next => exact fun _ _ => inv.finish (by decide) trivial
  next => exact fun _ prompt => inv.move (nextTick_le (prompt.2.1 rfl))
  next since due =>
    -- The deadline is later than the tick by ten seconds, which the poll was within.
    rintro ⟨_, tick⟩ ⟨soon, -, lapsed⟩
    have deadline := lapsed rfl
    have soon := soon Outcome.noConfusion
    simp only [PING_INTERVAL, PING_TIMEOUT] at tick soon deadline
    omega
  next => exact fun _ _ => inv.finish (by decide) trivial
  next => exact fun timed _ => ⟨timed.2.trans (Nat.add_le_add_right timed.1 _), inv.ended⟩
  next => exact fun timed _ => inv.move (timed.2.trans (Nat.add_le_add_right timed.1 _))
  next => exact fun _ _ => inv.finish (by decide) trivial
  next => exact fun timed _ => inv.move ⟨le_refl _, timed.2.trans (Nat.add_le_add_right timed.1 _)⟩
  next =>
    intro timed _
    split
    · exact inv.move ⟨le_refl _, timed⟩
    · exact inv.finish (by decide) trivial
  next => exact fun timed _ => inv.move ⟨le_refl _, timed⟩
  next => exact fun timed _ => ⟨⟨le_refl _, timed⟩, inv.ended⟩
  next =>
    intro _ _
    exact inv.move (by split <;> trivial)
  next => exact fun _ _ => ⟨inv.timed, inv.ended⟩
  next => exact fun _ _ => inv.move trivial
  next => exact fun _ _ => inv.move trivial
  next => exact fun _ _ => ⟨trivial, inv.ended⟩
  next => exact fun _ _ => inv.move trivial
  next => exact fun _ _ => inv

theorem next_inv {event : Nat × Outcome} (allowed : Allowed l event) (inv : Inv l) :
    Inv (next jittered l event) :=
  react_inv (l := { l with now := event.1 }) (inv.timed.later allowed.1) allowed.2
    ⟨inv.timed.later allowed.1, inv.ended⟩

/-- The deadline of the read never passes: a task that is polled in time keeps a connection however long the peer is
silent. -/
theorem silence_unnoticed {events : List (Nat × Outcome)}
    (allowed : Runs.Along (next jittered) Allowed events {}) : Reason.silence ∉ (run jittered events {}).ended := by
  have start : Inv {} := ⟨trivial, List.not_mem_nil⟩
  exact (Runs.invariant (fun _ _ allowed inv => next_inv allowed inv) allowed start).ended

/-- A connection on which nothing arrives: pings alone, for so many intervals. -/
def silent : Nat → List (Nat × Outcome)
  | 0 => [(0, .checked false), (0, .connected)]
  | n + 1 => silent n ++ [((n + 1) * PING_INTERVAL, .ticked), ((n + 1) * PING_INTERVAL, .done true)]

theorem nextTick_due (due : Nat) : nextTick due due = due + PING_INTERVAL := by
  rw [nextTick, if_neg (by omega)]

variable (jittered) in
/-- It is still up at the end of them. -/
theorem run_silent (n : Nat) : run jittered (silent n) {} =
    { phase := .selecting (n * PING_INTERVAL) ((n + 1) * PING_INTERVAL), now := n * PING_INTERVAL } := by
  induction n with
  | zero => simp [silent, next, react, Link.move]
  | succ n ih =>
    have due : (n + 1) * PING_INTERVAL + PING_INTERVAL = (n + 1 + 1) * PING_INTERVAL := by ring
    simp only [silent, run, Runs.run_append] at ih ⊢
    rw [ih]
    simp [next, react, Link.move, nextTick_due, due]

variable (jittered) in
theorem silent_allowed (n : Nat) : Runs.Along (next jittered) Allowed (silent n) {} := by
  induction n with
  | zero => exact ⟨⟨le_refl _, trivial⟩, ⟨le_refl _, trivial⟩, trivial⟩
  | succ n ih =>
    have here := run_silent jittered n
    rw [silent, Runs.along_append]
    refine ⟨ih, ?_⟩
    simp only [run] at here
    rw [here]
    refine ⟨⟨?_, ?_, ?_, ?_⟩, ⟨?_, trivial⟩, trivial⟩
    · exact Nat.mul_le_mul_right _ (Nat.le_succ n)
    · intro _
      simp only [PING_INTERVAL, PING_TIMEOUT]
      omega
    · exact fun _ => le_refl _
    · intro other
      cases other
    · exact le_refl _

/-- The text whose handler runs. -/
def inHand : Phase → List String
  | .handling text _ => [text]
  | _ => []

/-- The texts that were read are those that were handled, one whose handler an abort broke off and then nothing more,
and one in hand. -/
structure Serves (l : Link) : Prop where
  order : l.received = l.handled ++ l.broken ++ inHand l.phase
  broken : l.broken = [] ∨ l.phase = .stopped ∧ ∃ text, l.broken = [text]

/-- Outside a handler only the phase may change, and to no handler. -/
theorem Serves.moved (serves : Serves l) (free : inHand l.phase = []) {l' : Link} (received : l'.received = l.received)
    (handled : l'.handled = l.handled) (broken : l'.broken = l.broken) (next : inHand l'.phase = [])
    (stopped : l.phase = .stopped → l'.phase = .stopped) : Serves l' := by
  refine ⟨by rw [received, handled, broken, next, serves.order, free], ?_⟩
  rw [broken]
  exact serves.broken.imp id fun ⟨ended, one⟩ => ⟨stopped ended, one⟩

theorem react_serves (outcome : Outcome) (serves : Serves l) : Serves (react jittered l l.phase outcome) := by
  have running (other : l.phase ≠ .stopped) : l.broken = [] := serves.broken.resolve_right fun ended => other ended.1
  unfold react
  split
  next cancelled here =>
    refine serves.moved (by rw [here]; rfl) rfl rfl rfl ?_ (by simp [here])
    cases cancelled <;> rfl
  next here => exact serves.moved (by rw [here]; rfl) rfl rfl rfl rfl (by simp [here])
  next here => exact serves.moved (by rw [here]; rfl) rfl rfl rfl rfl (by simp [here])
  next here => exact serves.moved (by rw [here]; rfl) rfl rfl rfl rfl (by simp [here])
  next here => exact serves.moved (by rw [here]; rfl) rfl rfl rfl rfl (by simp [here])
  next here => exact serves.moved (by rw [here]; rfl) rfl rfl rfl rfl (by simp [here])
  next here => exact serves.moved (by rw [here]; rfl) rfl rfl rfl rfl (by simp [here])
  next here => exact serves.moved (by rw [here]; rfl) rfl rfl rfl rfl (by simp [here])
  next here => exact serves.moved (by rw [here]; rfl) rfl rfl rfl rfl (by simp [here])
  next text here =>
    have unbroken := running (by simp [here])
    have order := serves.order
    rw [here] at order
    exact ⟨by simpa [inHand, unbroken] using order, .inl unbroken⟩
  next here => exact serves.moved (by rw [here]; rfl) rfl rfl rfl rfl (by simp [here])
  next here => exact serves.moved (by rw [here]; rfl) rfl rfl rfl rfl (by simp [here])
  next here => exact serves.moved (by rw [here]; rfl) rfl rfl rfl rfl (by simp [here])
  next due ok here => cases ok <;> exact serves.moved (by rw [here]; rfl) rfl rfl rfl rfl (by simp [here])
  next here => exact serves.moved (by rw [here]; rfl) rfl rfl rfl rfl (by simp [here])
  next text due _ here =>
    have unbroken := running (by simp [here])
    have order := serves.order
    rw [here] at order
    exact ⟨by simpa [inHand, unbroken] using order, .inl unbroken⟩
  next ok here =>
    refine serves.moved (by rw [here]; rfl) rfl rfl rfl ?_ (by simp [here])
    cases ok <;> rfl
  next here => exact serves.moved (by rw [here]; rfl) rfl rfl rfl (by rw [here]; rfl) (by simp [here])
  next here => exact serves.moved (by rw [here]; rfl) rfl rfl rfl rfl (by simp [here])
  next here => exact serves.moved (by rw [here]; rfl) rfl rfl rfl rfl (by simp [here])
  next text due here =>
    have unbroken := running (by simp [here])
    have order := serves.order
    rw [here] at order
    exact ⟨by simpa [inHand, unbroken] using order, .inr ⟨rfl, text, by simp [unbroken]⟩⟩
  next other =>
    have free : inHand l.phase = [] := by
      cases here : l.phase with
      | handling text due => exact (other text due here).elim
      | _ => rfl
    exact serves.moved free rfl rfl rfl rfl fun _ => rfl
  next => exact serves

theorem react_unbroken {phase : Phase} {outcome : Outcome} (here : outcome ≠ .aborted) (unbroken : l.broken = []) :
    (react jittered l phase outcome).broken = [] := by
  unfold react
  split
  all_goals first
    | exact unbroken
    | exact absurd rfl here
    | split <;> exact unbroken

end Links

/-- A minute without a frame. -/
theorem silence_unnoticed_minute : (run id (silent 3) {}).phase = .selecting 60000000000 80000000000 ∧
    Reason.silence ∉ (run id (silent 3) {}).ended :=
  ⟨by rw [run_silent]; rfl, silence_unnoticed (silent_allowed id 3)⟩

end Durare.Conductor

import Durare.Execution

/-! A position and its states: what is recorded there, what the others leave alone, and how a durable call writes its
row. -/
namespace Durare.Execution

open Interaction Memory

section Calls

variable {δ α β : Type} {ctx : Context} {proper : Input δ → Inner → Ask → Prop} {seq : Int} {op : Op δ}

/-- The call runs from `s` within its surroundings and ends as `post` says. -/
abbrev Does (ctx : Context) (proper : Input δ → Inner → Ask → Prop) (seq : Int) (op : Op δ)
    (post : Except Error α → State → Prop) (act : Act δ α) (s : State) : Prop :=
  Safe (world ctx proper) (May ctx seq op) post act s

/-- A fact that the others leave alone. -/
def Stable (ctx : Context) (P : State → Prop) : Prop := ∀ s s', P s → Rely ctx.workflowId s s' → P s'

theorem Does.pure {post : Except Error α → State → Prop} {a : α} {s : State}
    (stable : Stable ctx (post (.ok a))) (holds : post (.ok a) s) : Does ctx proper seq op post (pure a) s :=
  fun s' moved => stable s s' holds moved

theorem Does.throw {post : Except Error α → State → Prop} {e : Error} {s : State}
    (stable : Stable ctx (post (.error e))) (holds : post (.error e) s) :
    Does ctx proper seq op post (Act.throw e) s :=
  fun s' moved => stable s s' holds moved

theorem Does.bind {post : Except Error α → State → Prop} {goal : Except Error β → State → Prop}
    {act : Act δ α} {f : α → Act δ β} {s : State} (stable : ∀ e, Stable ctx (goal (.error e)))
    (first : Does ctx proper seq op post act s) (rest : ∀ a s, post (.ok a) s → Does ctx proper seq op goal (f a) s)
    (fail : ∀ e s, post (.error e) s → goal (.error e) s) : Does ctx proper seq op goal (act >>= f) s := by
  refine Safe.bind first ?_
  intro result s reached
  cases result with
  | ok a => exact rest a s reached
  | error e => exact fun s' moved => stable e s s' (fail e s reached) moved

theorem Does.attempt {post : Except Error α → State → Prop} {goal : Except Error (Except Error α) → State → Prop}
    {act : Act δ α} {s : State} (stable : ∀ r, Stable ctx (goal (.ok r)))
    (first : Does ctx proper seq op post act s) (holds : ∀ r s, post r s → goal (.ok r) s) :
    Does ctx proper seq op goal act.attempt s := by
  refine Safe.bind first ?_
  intro result s reached s' moved
  exact stable result s s' (holds result s reached) moved

theorem May.same {q : Ask} {s : State}
    (bodies : (∃ position attempt, q = .body position attempt) ∨ (∃ position, q = .race position) →
      s.1.steps.get (ctx.workflowId, seq) = none) (latch : Option Error) :
    May ctx seq op q s (s.1, latch) :=
  ⟨bodies, fun _ => .inl rfl, id, fun _ => id⟩

/-- An ask whose answer is supplied from outside. -/
theorem Does.supplied {q : Ask} {P : State → Prop} {s : State} (stable : Stable ctx P) (holds : P s)
    (quiet : ∀ (input : Input δ) s, (answer ctx.lib input q s).2 = s)
    (bodies : (∃ position attempt, q = .body position attempt) ∨ (∃ position, q = .race position) →
      ∀ s, P s → s.1.steps.get (ctx.workflowId, seq) = none)
    {post : Except Error (q.Reply δ) → State → Prop} (keeps : ∀ r, Stable ctx (post r))
    (reaches : ∀ s input, P s → proper input s.1 q →
      post (.ok (answer ctx.lib input q s).1) s) :
    Does ctx proper seq op post (Act.get q) s := by
  intro s' moved reply s'' ⟨input, fits, answered⟩
  have here := stable s s' holds moved
  have unchanged := quiet input s'
  rw [answered] at unchanged
  subst unchanged
  refine ⟨May.same (fun body => bodies body _ here) _, ?_⟩
  have done := reaches _ input here fits
  rw [answered] at done
  exact fun t later => keeps _ _ t done later

/-- A provider call, with its reply as it comes. -/
theorem Does.asked {c : Call} {P : State → Prop} {s : State} (stable : Stable ctx P) (holds : P s)
    {post : Except Error (Except Error c.Reply) → State → Prop} (keeps : ∀ r, Stable ctx (post r))
    (served : ∀ (s : State) (input : Input δ), P s → proper input s.1 (.call c) →
      May ctx seq op (.call c) s ((exec ctx.lib input.now c s.1).2, s.2) ∧
        post (.ok (exec ctx.lib input.now c s.1).1) ((exec ctx.lib input.now c s.1).2, s.2)) :
    Does ctx proper seq op post (Act.get (.call c)) s := by
  intro s' moved reply s'' ⟨input, fits, answered⟩
  obtain ⟨allowed, done⟩ := served s' input (stable s s' holds moved) fits
  have stored : s'' = ((exec ctx.lib input.now c s'.1).2, s'.2) := (congrArg Prod.snd answered).symm
  have replied : reply = (exec ctx.lib input.now c s'.1).1 := (congrArg Prod.fst answered).symm
  subst stored
  subst replied
  exact ⟨allowed, fun t later => keeps _ _ t done later⟩

theorem Does.call {c : Call} {P : State → Prop} {s : State} (stable : Stable ctx P) (holds : P s)
    {post : Except Error c.Reply → State → Prop} (keeps : ∀ r, Stable ctx (post r))
    (served : ∀ (s : State) (input : Input δ), P s → proper input s.1 (.call c) →
      ∃ reply, (exec ctx.lib input.now c s.1).1 = .ok reply ∧
        May ctx seq op (.call c) s ((exec ctx.lib input.now c s.1).2, s.2) ∧
        post (.ok reply) ((exec ctx.lib input.now c s.1).2, s.2)) :
    Does ctx proper seq op post (Context.call c) s := by
  let replied : Except Error (Except Error c.Reply) → State → Prop :=
    fun r s => ∃ reply, r = .ok (.ok reply) ∧ post (.ok reply) s
  have first : Does ctx proper seq op replied (Act.get (.call c)) s := by
    refine Does.asked stable holds ?_ ?_
    · exact fun r s s' ⟨reply, same, done⟩ moved => ⟨reply, same, keeps _ s s' done moved⟩
    · intro s input here fits
      obtain ⟨reply, ok, allowed, done⟩ := served s input here fits
      exact ⟨allowed, reply, by rw [ok], done⟩
  refine Does.bind (fun e => keeps _) first ?_ ?_
  · rintro result s ⟨reply, same, done⟩
    cases same
    exact Does.pure (keeps _) done
  · rintro e s ⟨reply, same, -⟩
    cases same

theorem Does.read {c : Call} {P : State → Prop} {s : State} (stable : Stable ctx P) (holds : P s)
    {post : Except Error c.Reply → State → Prop} (keeps : ∀ r, Stable ctx (post r))
    (served : ∀ (s : State) (input : Input δ), P s → proper input s.1 (.call c) →
      ∃ reply, exec ctx.lib input.now c s.1 = (.ok reply, s.1) ∧ post (.ok reply) s) :
    Does ctx proper seq op post (Context.call c) s := by
  refine Does.call stable holds keeps ?_
  intro s input here fits
  obtain ⟨reply, answered, done⟩ := served s input here fits
  rw [answered]
  refine ⟨reply, rfl, May.same ?_ _, done⟩
  rintro (⟨_, _, same⟩ | ⟨_, same⟩) <;> cases same

/-- A provider call that records at most at the call's own position, with its own name. -/
theorem May.recorded {c : Call} {s : State} {now : DateTime} (none : c.histories s.1 = [])
    (uncancelled : ¬ Cancels ctx.workflowId s.1 c)
    (steps : ∀ p, (step ctx.lib s.1 (now, c)).steps.get (ctx.workflowId, p) = s.1.steps.get (ctx.workflowId, p) ∨
      (s.1.steps.get (ctx.workflowId, p) = Option.none ∧
        ∃ row, (step ctx.lib s.1 (now, c)).steps.get (ctx.workflowId, p) = some row ∧
        (p = seq ∧ row.name = op.name ∧ refusal ctx op s.1 = Option.none ∨
          p = nextSeq seq ∧ op.waits = true ∧ Deadline ctx row))) :
    May ctx seq op (.call c) s (step ctx.lib s.1 (now, c), s.2) := by
  have kept : ctx.workflowId ∉ c.histories s.1 := by simp [none]
  refine ⟨?_, steps, step_runnable kept uncancelled, fun key => step_closed ctx.lib now c s.1 _ key kept⟩
  rintro (⟨_, _, same⟩ | ⟨_, same⟩) <;> cases same

/-- The execution is not interrupted and may run, and the position holds what an earlier
execution of the same call can have left. -/
structure Ready (ctx : Context) (seq : Int) (op : Op δ) (s : State) : Prop where
  runnable : Runnable ctx.workflowId s.1
  unlatched : s.2 = none
  begun : Begun ctx seq op s.1

structure Live (ctx : Context) (seq : Int) (op : Op δ) (s : State) : Prop extends Ready ctx seq op s where
  vacant : s.1.steps.get (ctx.workflowId, seq) = none

def Holds (ctx : Context) (seq : Int) (op : Op δ) (row : StepRow) (s : State) : Prop :=
  s.1.steps.get (ctx.workflowId, seq) = some row ∧ row.name = op.name

/-- The execution is interrupted and nothing is recorded at the position. -/
def Interrupted (ctx : Context) (seq : Int) (s : State) : Prop :=
  s.1.steps.get (ctx.workflowId, seq) = none ∧ s.2.isSome = true

def Served (ctx : Context) (seq : Int) (op : Op δ) (again : StepRow → Except Error α) (result : Except Error α)
    (s : State) : Prop :=
  ∃ row, Holds ctx seq op row s ∧ result = again row

/-- The call ends as its row replays, is refused for good, or the execution is interrupted. -/
def EndsWith (ctx : Context) (seq : Int) (op : Op δ) (again : StepRow → Except Error α)
    (result : Except Error α) (s : State) : Prop :=
  Served ctx seq op again result s ∨
  (s.1.steps.get (ctx.workflowId, seq) = none ∧ ∃ e, refusal ctx op s.1 = some e ∧ result = .error e) ∨
  Interrupted ctx seq s

theorem Begun.later {s s' : State} (begun : Begun ctx seq op s.1) (moved : Rely ctx.workflowId s s') :
    Begun ctx seq op s'.1 where
  own := by rw [moved.steps]; exact begun.own
  timer := by rw [moved.steps]; exact begun.timer

theorem ready_stable : Stable ctx (Ready ctx seq op) := fun _ _ ready moved =>
  ⟨moved.runnable ready.runnable, moved.latch.trans ready.unlatched, ready.begun.later moved⟩

theorem live_stable : Stable ctx (Live ctx seq op) := fun s s' live moved =>
  ⟨ready_stable s s' live.toReady moved, (moved.steps seq).trans live.vacant⟩

theorem holds_stable {row : StepRow} : Stable ctx (Holds ctx seq op row) := fun _ _ holds moved =>
  ⟨(moved.steps seq).trans holds.1, holds.2⟩

theorem refusal_later {s s' : State} {e : Error} (refused : refusal ctx op s.1 = some e)
    (closed : ∀ key, Closed s.1 ctx.workflowId key → Closed s'.1 ctx.workflowId key) :
    refusal ctx op s'.1 = some e := by
  cases op with
  | writeStream key value | closeStream key =>
    simp only [refusal] at refused ⊢
    split at refused
    next shut => rw [if_pos (closed key shut)]; exact refused
    next => cases refused
  | _ => exact refused

theorem interrupted_stable : Stable ctx (Interrupted ctx seq) := fun _ _ interrupted moved =>
  ⟨(moved.steps seq).trans interrupted.1, by rw [moved.latch]; exact interrupted.2⟩

theorem served_stable {again : StepRow → Except Error α} {result : Except Error α} :
    Stable ctx (Served ctx seq op again result) := by
  rintro s s' ⟨row, holds, same⟩ moved
  exact ⟨row, holds_stable s s' holds moved, same⟩

theorem endsWith_stable {again : StepRow → Except Error α} {result : Except Error α} :
    Stable ctx (EndsWith ctx seq op again result) := by
  rintro s s' (served | ⟨vacant, e, refused, same⟩ | interrupted) moved
  · exact .inl (served_stable s s' served moved)
  · exact .inr (.inl ⟨(moved.steps seq).trans vacant, e, refusal_later refused moved.closed, same⟩)
  · exact .inr (.inr (interrupted_stable s s' interrupted moved))

theorem EndsWith.map {again : StepRow → Except Error α} {result : Except Error α} {s : State} (f : α → β)
    (ended : EndsWith ctx seq op again result s) :
    EndsWith ctx seq op (fun row => (again row).map f) (result.map f) s := by
  rcases ended with ⟨row, holds, same⟩ | ⟨vacant, e, refused, same⟩ | interrupted
  · exact .inl ⟨row, holds, by rw [same]⟩
  · exact .inr (.inl ⟨vacant, e, refused, by rw [same]; rfl⟩)
  · exact .inr (.inr interrupted)

theorem Does.mapped {again : StepRow → Except Error α} {wrapped : StepRow → Except Error β} {act : Act δ α}
    {f : α → β} {s : State} (inner : Does ctx proper seq op (EndsWith ctx seq op again) act s)
    (agree : ∀ row, wrapped row = (again row).map f) :
    Does ctx proper seq op (EndsWith ctx seq op wrapped) (act >>= fun a => Pure.pure (f a)) s := by
  have ended : ∀ result s, EndsWith ctx seq op again result s → EndsWith ctx seq op wrapped (result.map f) s := by
    intro result s reached
    have done := reached.map f
    rwa [← funext agree] at done
  exact Does.bind (fun _ => endsWith_stable) inner (fun a s reached => Does.pure endsWith_stable (ended _ s reached))
    (fun e s reached => ended _ s reached)

theorem interrupt_eq (error : Error) : (Context.interrupt error : Act δ α) =
    Client.ask (.interrupt error.cause) fun first => Client.done (.error first) := rfl

/-- An interruption of an execution that was not interrupted before: it fails with its own
cause. -/
theorem Does.interrupted {P : State → Prop} {s : State} {error : Error} (stable : Stable ctx P) (holds : P s)
    (unlatched : ∀ s, P s → s.2 = none) {post : Except Error α → State → Prop} (keeps : ∀ r, Stable ctx (post r))
    (reaches : ∀ s, P s → post (.error (.recoveryRequired error.cause)) (s.1, some error.cause)) :
    Does ctx proper seq op post (Context.interrupt error) s := by
  rw [interrupt_eq]
  rintro s' moved reply s'' ⟨input, -, answered⟩
  have here := stable s s' holds moved
  have first : s'.2.getD error.cause = error.cause := by rw [unlatched s' here]; rfl
  have stored : s'' = (s'.1, some (s'.2.getD error.cause)) := (congrArg Prod.snd answered).symm
  have replied : reply = .recoveryRequired (s'.2.getD error.cause) := (congrArg Prod.fst answered).symm
  subst stored
  subst replied
  rw [first]
  refine ⟨May.same ?_ _, fun t later => keeps _ _ t (reaches s' here) later⟩
  rintro (⟨_, _, same⟩ | ⟨_, same⟩) <;> cases same

/-- Reading a recorded outcome gives what `recorded` says and leaves the store alone. -/
theorem recordedValue_does (codec : Codec α) (outcome : StepOutcome) {P : Inner → Prop} {s : State}
    (stable : Stable ctx fun s => P s.1) (holds : P s.1) (unlatched : s.2 = none) :
    Does ctx proper seq op (fun r s => P s.1 ∧ r = recorded ctx codec outcome) (ctx.recordedValue codec outcome) s := by
  have keeps : ∀ r, Stable ctx fun s => P s.1 ∧ r = recorded ctx codec outcome :=
    fun r s s' reached moved => ⟨stable s s' reached.1 moved, reached.2⟩
  cases outcome with
  | output value => exact fun s' moved => ⟨stable s s' holds moved, rfl⟩
  | failure message info =>
    cases read : tryFromParts ctx.lib message info with
    | ok error =>
      have thrown : (ctx.recordedValue codec (.failure message info) : Act δ α) = Act.throw error := by
        simp only [Context.recordedValue, read, Context.storage]
        rfl
      rw [thrown]
      refine Does.throw (keeps _) ⟨holds, ?_⟩
      simp only [recorded, read]
    | error error =>
      have failed : (ctx.recordedValue codec (.failure message info) : Act δ α) = Context.record error := by
        simp only [Context.recordedValue, read, Context.storage, Context.record]
        split <;> rfl
      rw [failed, Context.record]
      split
      next storage =>
        refine Does.interrupted (P := fun s => P s.1 ∧ s.2 = none) ?_ ⟨holds, unlatched⟩ (fun s here => here.2)
          keeps ?_
        · exact fun s s' here moved => ⟨stable s s' here.1 moved, moved.latch.trans here.2⟩
        · intro s here
          refine ⟨here.1, ?_⟩
          simp only [recorded, read, storage, if_true]
      next rejection =>
        refine Does.throw (keeps _) ⟨holds, ?_⟩
        simp only [recorded, read, rejection]
        rfl

/-- What the gate lets through: the row's outcome, or fresh work. -/
def Gate (ctx : Context) (seq : Int) (op : Op δ) (codec : Codec α) : Except Error (Option α) → State → Prop
  | .ok none, s => Live ctx seq op s
  | .ok (some value), s =>
    ∃ row, Holds ctx seq op row s ∧ recorded ctx codec (stepRowOutcome ctx.lib row) = .ok value
  | .error e, s => ∃ row, Holds ctx seq op row s ∧ recorded ctx codec (stepRowOutcome ctx.lib row) = .error e

theorem gate_stable {codec : Codec α} : ∀ r, Stable ctx (Gate ctx seq op codec r)
  | .ok none => live_stable
  | .ok (some _) => fun s s' ⟨row, holds, same⟩ moved => ⟨row, holds_stable s s' holds moved, same⟩
  | .error _ => fun s s' ⟨row, holds, same⟩ moved => ⟨row, holds_stable s s' holds moved, same⟩

theorem serveRecorded_does {name : String} (named : op.name = name) (codec : Codec α) {s : State}
    (ready : Ready ctx seq op s) :
    Does ctx proper seq op (Gate ctx seq op codec) (ctx.serveRecorded seq name codec) s := by
  -- The reply is the row as it stands, with the state the row was read in.
  let read : Except Error (Option RecordedStep) → State → Prop := fun r s => Ready ctx seq op s ∧
    r = .ok ((s.1.steps.get (ctx.workflowId, seq)).map fun row => ⟨row.name, stepRowOutcome ctx.lib row⟩)
  have first : Does ctx proper seq op read (Context.call (.getStepResult ctx.workflowId seq)) s := by
    refine Does.read ready_stable ready ?_ fun s input here _ => ⟨_, rfl, here, rfl⟩
    rintro r s s' ⟨here, same⟩ moved
    exact ⟨ready_stable s s' here moved, by rw [moved.steps]; exact same⟩
  refine Does.bind (fun e => gate_stable _) first ?_ ?_
  · rintro step s ⟨here, same⟩
    cases stored : s.1.steps.get (ctx.workflowId, seq) with
    | none =>
      rw [stored] at same
      cases same
      exact Does.pure (gate_stable _) ⟨here, stored⟩
    | some row =>
      rw [stored] at same
      cases same
      have own := here.begun.own row stored
      have passed : (ctx.checkRecorded seq name row.name : Act δ Unit) = Pure.pure () := by
        rw [Context.checkRecorded, own, named]
        simp
      dsimp only [Option.map_some]
      rw [passed]
      have value : Does ctx proper seq op _ (ctx.recordedValue codec (stepRowOutcome ctx.lib row)) s :=
        recordedValue_does codec _ (P := fun store => store.steps.get (ctx.workflowId, seq) = some row)
          (fun s s' held moved => (moved.steps seq).trans held) stored here.unlatched
      change Does ctx proper seq op _ (ctx.recordedValue codec _ >>= fun v => Pure.pure (some v)) s
      refine Does.bind (fun e => gate_stable _) value ?_ ?_
      · rintro v s ⟨held, same⟩
        exact Does.pure (gate_stable _) ⟨row, ⟨held, own⟩, same.symm⟩
      · rintro e s ⟨held, same⟩
        exact ⟨row, ⟨held, own⟩, same.symm⟩
  · rintro e s ⟨-, same⟩
    cases same

theorem guardCancelled_does {s : State} (live : Live ctx seq op s) :
    Does ctx proper seq op (fun r s => r = .ok () ∧ Live ctx seq op s) ctx.guardCancelled s := by
  have keeps : ∀ r : Except Error Unit, Stable ctx fun s => r = .ok () ∧ Live ctx seq op s :=
    fun r s s' reached moved => ⟨reached.1, live_stable s s' reached.2 moved⟩
  let read : Except Error (Option WorkflowStatus) → State → Prop := fun r s => Live ctx seq op s ∧
    ∃ row, r = .ok (some row) ∧ row.status ≠ .cancelled
  have first : Does ctx proper seq op read (Context.call (.getWorkflowStatus ctx.workflowId)) s := by
    refine Does.read live_stable live ?_ ?_
    · exact fun r s s' here moved => ⟨live_stable s s' here.1 moved, here.2⟩
    · intro s input here _
      obtain ⟨row, present, running⟩ := here.runnable
      exact ⟨s.1.workflows.get ctx.workflowId, rfl, here, row, by rw [present], running⟩
  refine Does.bind (fun e => keeps _) first ?_ ?_
  · rintro status s ⟨here, row, same, running⟩
    cases same
    simp only [running, if_false]
    exact Does.pure (keeps _) ⟨rfl, here⟩
  · rintro e s ⟨-, row, same, -⟩
    cases same

theorem replayOrGuard_does {name : String} (named : op.name = name) (codec : Codec α) {s : State}
    (ready : Ready ctx seq op s) :
    Does ctx proper seq op (Gate ctx seq op codec) (ctx.replayOrGuard seq name codec) s := by
  refine Does.bind (fun e => gate_stable _) (serveRecorded_does named codec ready) ?_ (fun e s reached => reached)
  intro stored s reached
  cases stored with
  | some value => exact Does.pure (gate_stable _) reached
  | none =>
    refine Does.bind (fun e => gate_stable _) (guardCancelled_does reached) ?_ ?_
    · rintro a s ⟨-, live⟩
      exact Does.pure (gate_stable _) live
    · rintro e s ⟨same, -⟩
      cases same

/-- A call behind the gate: served from its row, or done now. -/
theorem Does.behind {codec : Codec α} {gate : Act δ (Option α)} {f : Option α → Act δ β} {g : α → β}
    {again : StepRow → Except Error β} {post : Except Error β → State → Prop} {s : State}
    (first : Does ctx proper seq op (Gate ctx seq op codec) gate s)
    (agree : ∀ row, again row = (recorded ctx codec (stepRowOutcome ctx.lib row)).map g)
    (served : ∀ value, f (some value) = Pure.pure (g value)) (stable : ∀ r, Stable ctx (post r))
    (holds : ∀ r s, Served ctx seq op again r s → post r s)
    (live : ∀ s, Live ctx seq op s → Does ctx proper seq op post (f none) s) :
    Does ctx proper seq op post (gate >>= f) s := by
  refine Does.bind (fun e => stable _) first ?_ ?_
  · intro stored s reached
    cases stored with
    | none => exact live s reached
    | some value =>
      obtain ⟨row, held, same⟩ := reached
      rw [served]
      refine Does.pure (stable _) (holds _ s ⟨row, held, ?_⟩)
      rw [agree, same]
      rfl
  · rintro e s ⟨row, held, same⟩
    refine holds _ s ⟨row, held, ?_⟩
    rw [agree, same]
    rfl

theorem Does.gated {codec : Codec α} {gate : Act δ (Option α)} {f : Option α → Act δ β} {g : α → β}
    {again : StepRow → Except Error β} {s : State} (first : Does ctx proper seq op (Gate ctx seq op codec) gate s)
    (agree : ∀ row, again row = (recorded ctx codec (stepRowOutcome ctx.lib row)).map g)
    (served : ∀ value, f (some value) = Pure.pure (g value))
    (live : ∀ s, Live ctx seq op s → Does ctx proper seq op (EndsWith ctx seq op again) (f none) s) :
    Does ctx proper seq op (EndsWith ctx seq op again) (gate >>= f) s :=
  Does.behind first agree served (fun _ => endsWith_stable) (fun _ _ held => .inl held) live

theorem map_id_eq (x : Except Error α) : x = x.map id := by cases x <;> rfl

theorem recordStepResult_vacant {lib : SerdeJson} {now : DateTime} {id : String} {seq : Int} {name : String}
    {value : Value} {error : Option String} {startedAtMs : Option Int} {executor : Option String} {s : Inner}
    (vacant : s.steps.get (id, seq) = none) :
    recordStepResult lib now id seq name value error startedAtMs executor s =
      (.ok (stepRowOutcome lib (checkpointRow now name value error startedAtMs)),
        refreshExecutor id executor (s.putStep id seq (checkpointRow now name value error startedAtMs))) := by
  simp [recordStepResult, vacant]

/-- The row a checkpoint writes at a position where there is none. -/
theorem recordStep_may {position : Int} {name : String} {value : Value} {error : Option String}
    {startedAtMs : Option Int} {s : State} {now : DateTime}
    (vacant : s.1.steps.get (ctx.workflowId, position) = none)
    (ours : position = seq ∧ name = op.name ∧ refusal ctx op s.1 = none ∨
      position = nextSeq seq ∧ op.waits = true ∧
        Deadline ctx (checkpointRow now name value error startedAtMs)) :
    May ctx seq op
      (.call (.recordStepResult ctx.workflowId position name value error startedAtMs (some ctx.rt.executorId)))
      s (step ctx.lib s.1 (now,
        .recordStepResult ctx.workflowId position name value error startedAtMs (some ctx.rt.executorId)), s.2) := by
  refine May.recorded rfl (fun cancel => cancel) ?_
  intro p
  simp only [step, exec, recordStepResult_vacant vacant, refreshExecutor_steps, putStep_steps, Table.get_put]
  by_cases here : p = position
  · subst here
    refine .inr ⟨vacant, checkpointRow now name value error startedAtMs, by simp, ?_⟩
    rcases ours with ⟨same, named, free⟩ | timer
    · exact .inl ⟨same, named, free⟩
    · exact .inr timer
  · left
    simp [here]

/-- A checkpoint of live work: the row is written as given, and its outcome returned. -/
theorem recordStep_does (free : ∀ s, refusal ctx op s = none) {name : String} (named : op.name = name)
    (value : Value) (error : Option String) (startedAtMs : Option Int) {s : State} (live : Live ctx seq op s) :
    Does ctx proper seq op (fun r s => s.2 = none ∧ ∃ now, Holds ctx seq op (checkpointRow now name value error startedAtMs) s ∧
        r = .ok (stepRowOutcome ctx.lib (checkpointRow now name value error startedAtMs)))
      (ctx.recordStep seq name value error startedAtMs) s := by
  refine Does.call live_stable live ?_ ?_
  · rintro r s s' ⟨unlatched, now, holds, same⟩ moved
    exact ⟨moved.latch.trans unlatched, now, holds_stable s s' holds moved, same⟩
  · intro s input here _
    refine ⟨_, by simp only [exec, recordStepResult_vacant here.vacant],
      recordStep_may here.vacant (.inl ⟨rfl, named.symm, free s.1⟩), here.unlatched, input.now,
      ⟨?_, named.symm⟩, rfl⟩
    simp [exec, recordStepResult_vacant here.vacant]

/-- The row of a checkpoint and the value the body gets from it. -/
theorem writeStepOutcome_does (free : ∀ s, refusal ctx op s = none) {name : String} (named : op.name = name)
    (value : Value) (error : Option String) (startedAtMs : Option Int) (codec : Codec α) {s : State}
    (live : Live ctx seq op s) :
    Does ctx proper seq op (fun r s => ∃ now, Holds ctx seq op (checkpointRow now name value error startedAtMs) s ∧
        r = recorded ctx codec (stepRowOutcome ctx.lib (checkpointRow now name value error startedAtMs)))
      (ctx.writeStepOutcome seq name value error startedAtMs codec) s := by
  have keeps : ∀ r : Except Error α, Stable ctx fun s =>
      ∃ now, Holds ctx seq op (checkpointRow now name value error startedAtMs) s ∧
        r = recorded ctx codec (stepRowOutcome ctx.lib (checkpointRow now name value error startedAtMs)) :=
    fun r s s' ⟨now, holds, same⟩ moved => ⟨now, holds_stable s s' holds moved, same⟩
  refine Does.bind (fun e => keeps _) (recordStep_does free named value error startedAtMs live) ?_ ?_
  · rintro outcome s ⟨unlatched, now, holds, same⟩
    cases same
    refine Safe.mono (recordedValue_does codec _
      (P := fun store => store.steps.get (ctx.workflowId, seq) = some (checkpointRow now name value error startedAtMs))
      (fun s s' held moved => (moved.steps seq).trans held) holds.1 unlatched) ?_
    rintro r s ⟨held, same⟩
    exact ⟨now, ⟨held, holds.2⟩, same⟩
  · rintro e s ⟨-, now, -, same⟩
    cases same

theorem check_keeps {P : State → Prop} (stable : Stable ctx P) (unlatched : ∀ s, P s → s.2 = none) {s : State}
    (holds : P s) : Does ctx proper seq op (fun r s => r = .ok () ∧ P s) Context.check s := by
  have keeps : ∀ r : Except Error Unit, Stable ctx fun s => r = .ok () ∧ P s :=
    fun r s s' reached moved => ⟨reached.1, stable s s' reached.2 moved⟩
  let clear : Except Error (Except Error Unit) → State → Prop := fun r s => r = .ok (.ok ()) ∧ P s
  have first : Does ctx proper seq op clear (Act.get .check) s := by
    refine Does.supplied stable holds (fun input s => rfl) ?_ ?_ ?_
    · rintro (⟨_, _, same⟩ | ⟨_, same⟩) <;> cases same
    · exact fun r s s' reached moved => ⟨reached.1, stable s s' reached.2 moved⟩
    · intro s input here _
      refine ⟨?_, here⟩
      simp only [answer, unlatched s here]
  refine Does.bind (fun e => keeps _) first ?_ ?_
  · rintro latch s ⟨same, here⟩
    cases same
    exact Does.pure (keeps _) ⟨rfl, here⟩
  · rintro e s ⟨same, -⟩
    cases same

theorem check_does {s : State} (live : Live ctx seq op s) :
    Does ctx proper seq op (fun r s => r = .ok () ∧ Live ctx seq op s) Context.check s :=
  check_keeps live_stable (fun _ here => here.unlatched) live

/-- An error without a record is an interruption. -/
theorem encodeError_storage {lib : SerdeJson} {serializer : Serializer} {error e : Error}
    (failed : encodeError lib serializer error = .error e) : e.isStorageFailure = true := by
  have record : ∀ e', encodeRecord lib serializer error = .error e' → e'.isStorageFailure = true := by
    intro e' refused
    unfold encodeRecord at refused
    dsimp only at refused
    split at refused
    · cases refused; rfl
    · cases refused; rfl
    · split at refused
      · cases refused; rfl
      · split at refused
        · split at refused <;> cases refused
        · split at refused <;> cases refused
        · split at refused <;> cases refused
        · cases refused
  unfold encodeError at failed
  split at failed
  next refused => cases failed; exact record e refused
  · cases failed
  · split at failed <;> cases failed

theorem interrupt_does (error : Error) {s : State} (live : Live ctx seq op s) :
    Does ctx proper seq op (fun (r : Except Error α) s => (∃ e, r = .error e) ∧ Interrupted ctx seq s)
      (Context.interrupt error) s := by
  refine Does.interrupted live_stable live (fun s here => here.unlatched) ?_ ?_
  · exact fun r s s' reached moved => ⟨reached.1, interrupted_stable s s' reached.2 moved⟩
  · exact fun s here => ⟨⟨_, rfl⟩, here.vacant, rfl⟩

/-- A failure is recorded as an error row, unless it interrupts the execution. -/
theorem recordFailure_does (free : ∀ s, refusal ctx op s = none) {name : String} (named : op.name = name)
    (error : Error) (startedAtMs : Option Int) (codec : Codec α) {s : State} (live : Live ctx seq op s) :
    Does ctx proper seq op (fun r s => (∃ now text, Holds ctx seq op (checkpointRow now name .null (some text) startedAtMs) s ∧
        r = recorded ctx codec (stepRowOutcome ctx.lib (checkpointRow now name .null (some text) startedAtMs))) ∨
        Interrupted ctx seq s)
      (ctx.recordFailure seq name error startedAtMs codec) s := by
  have keeps : ∀ r : Except Error α, Stable ctx fun s =>
      (∃ now text, Holds ctx seq op (checkpointRow now name .null (some text) startedAtMs) s ∧
        r = recorded ctx codec (stepRowOutcome ctx.lib (checkpointRow now name .null (some text) startedAtMs))) ∨
        Interrupted ctx seq s := by
    rintro r s s' (⟨now, text, holds, same⟩ | interrupted) moved
    · exact .inl ⟨now, text, holds_stable s s' holds moved, same⟩
    · exact .inr (interrupted_stable s s' interrupted moved)
  refine Does.bind (fun e => keeps _) (check_does live) ?_ ?_
  · rintro - s ⟨-, live⟩
    cases encoded : encodeError ctx.lib ctx.serializer error with
    | ok text =>
      refine Safe.mono (writeStepOutcome_does free named .null (some text) startedAtMs codec live) ?_
      rintro r s ⟨now, holds, same⟩
      exact .inl ⟨now, text, holds, same⟩
    | error e =>
      have stops : (Context.storage (.error e) : Act δ String) = Context.interrupt e := by
        simp [Context.storage, Context.record, encodeError_storage encoded]
      rw [stops]
      refine Does.bind (fun e => keeps _) (interrupt_does e live) ?_ ?_
      · rintro a s ⟨⟨e, failed⟩, -⟩
        cases failed
      · rintro e s ⟨-, interrupted⟩
        exact .inr interrupted
  · rintro e s ⟨same, -⟩
    cases same

theorem recordFailure_ends (free : ∀ s, refusal ctx op s = none) {name : String} (named : op.name = name)
    (error : Error) (startedAtMs : Option Int) (codec : Codec α) {s : State} (live : Live ctx seq op s) :
    Does ctx proper seq op (EndsWith ctx seq op fun row => recorded ctx codec (stepRowOutcome ctx.lib row))
      (ctx.recordFailure seq name error startedAtMs codec) s := by
  refine Safe.mono (recordFailure_does free named error startedAtMs codec live) ?_
  rintro r s (⟨now, text, holds, same⟩ | interrupted)
  · exact .inl ⟨_, holds, same⟩
  · exact .inr (.inr interrupted)

theorem checkpoint_ends (free : ∀ s, refusal ctx op s = none) {name : String} (named : op.name = name)
    (result : α) (startedAtMs : Option Int) (codec : Codec α) {s : State} (live : Live ctx seq op s) :
    Does ctx proper seq op (EndsWith ctx seq op fun row => recorded ctx codec (stepRowOutcome ctx.lib row))
      (ctx.checkpoint seq name result startedAtMs codec) s := by
  refine Does.bind (fun e => endsWith_stable) (check_does live) ?_ ?_
  · rintro - s ⟨-, live⟩
    split
    next value encoded =>
      refine Safe.mono (writeStepOutcome_does free named value none startedAtMs codec live) ?_
      rintro r s ⟨now, holds, same⟩
      exact .inl ⟨_, holds, same⟩
    next => exact recordFailure_ends free named _ startedAtMs codec live
  · rintro e s ⟨same, -⟩
    cases same

end Calls

end Durare.Execution

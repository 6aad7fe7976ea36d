import Durare.StepPositions

/-! Messages, events, waits and streams settle their positions. -/
namespace Durare.Execution

open Interaction Memory

section Calls

variable {δ α β : Type} {ctx : Context} {proper : Input δ → Inner → Ask → Prop} {seq : Int} {op : Op δ}

theorem addressed_does (rows : List NotificationInsert) {s : State} (live : Live ctx seq op s) :
    Does ctx proper seq op (fun r s => (∃ sent, r = .ok sent) ∧ Live ctx seq op s)
      (Context.addressed rows : Act δ (List (NotificationInsert × String))) s := by
  have keeps : ∀ r : Except Error (List (NotificationInsert × String)),
      Stable ctx fun s => (∃ sent, r = .ok sent) ∧ Live ctx seq op s :=
    fun r s s' reached moved => ⟨reached.1, live_stable s s' reached.2 moved⟩
  induction rows generalizing s with
  | nil => exact Does.pure (keeps _) ⟨⟨_, rfl⟩, live⟩
  | cons row rows ih =>
    refine Does.bind (fun e => keeps _) (get_does (fun input s => rfl) live) ?_ ?_
    · rintro fresh s ⟨-, live⟩
      refine Does.bind (fun e => keeps _) (ih live) ?_ ?_
      · rintro rest s ⟨-, live⟩
        exact Does.pure (keeps _) ⟨⟨_, rfl⟩, live⟩
      · exact fun e s reached => reached
    · rintro e s ⟨⟨reply, same⟩, -⟩
      cases same

/-- A call that ends in a row with output null. -/
def Noted (ctx : Context) (seq : Int) (op : Op δ) (s : State) : Prop :=
  ∃ row, Holds ctx seq op row s ∧ row.error = none ∧ row.output = some .null

theorem noted_ends {s : State} (noted : Noted ctx seq op s) :
    EndsWith ctx seq op (fun row => (recorded ctx .value (stepRowOutcome ctx.lib row)).map fun _ => ()) (.ok ()) s := by
  obtain ⟨row, holds, unfailed, output⟩ := noted
  refine .inl ⟨row, holds, ?_⟩
  simp only [stepRowOutcome, unfailed, output, Option.getD_some, recorded]
  rfl

theorem noted_stable : Stable ctx (Noted ctx seq op) := fun s s' ⟨row, holds, empty⟩ moved =>
  ⟨row, holds_stable s s' holds moved, empty⟩

/-- A provider operation that checkpoints null at the call's position. -/
theorem checkpoint_may {c : Call} {s : State} {now : DateTime} {mid : Inner} {name : String} {value : Value}
    (none : c.histories s.1 = []) (uncancelled : ¬ Cancels ctx.workflowId s.1 c)
    (stored : step ctx.lib s.1 (now, c) = Memory.checkpoint now ctx.workflowId seq name value mid)
    (frame : mid.steps = s.1.steps) (vacant : s.1.steps.get (ctx.workflowId, seq) = Option.none)
    (named : op.name = name) (free : refusal ctx op s.1 = Option.none) :
    May ctx seq op (.call c) s (step ctx.lib s.1 (now, c), s.2) := by
  refine May.recorded none uncancelled ?_
  intro p
  rw [stored, Memory.checkpoint, putStep_steps, frame, Table.get_put]
  by_cases here : p = seq
  · subst here
    exact .inr ⟨vacant, _, if_pos rfl, .inl ⟨rfl, named.symm, free⟩⟩
  · left
    simp [here]

theorem sendFromWorkflow_sent {now : DateTime} {id : String} {seq : Int} {name : String}
    {rows : List (NotificationInsert × String)} {s : Inner} (vacant : s.steps.get (id, seq) = none)
    (known : ∀ row ∈ rows, (s.workflows.get row.1.destinationId).isSome = true) :
    sendFromWorkflow now id seq name rows s = (.ok (), Memory.checkpoint now id seq name .null
      { s with notifications := acceptNotifications now rows s.notifications }) := by
  have found : rows.find? (fun row => (s.workflows.get row.1.destinationId).isNone) = none := by
    rw [List.find?_eq_none]
    intro row member missing
    have present := known row member
    rw [Option.isNone_iff_eq_none.mp missing] at present
    cases present
  simp [sendFromWorkflow, recordedAt, vacant, pushNotifications, found]

theorem sendRows_ends (clear : Clear ctx.workflowId proper) (free : ∀ s, refusal ctx op s = none) {name : String}
    (named : op.name = name)
    (rows : List NotificationInsert) {s : State} (ready : Ready ctx seq op s) :
    Does ctx proper seq op (EndsWith ctx seq op fun row => (recorded ctx .value (stepRowOutcome ctx.lib row)).map fun _ => ())
      (ctx.sendRows seq name rows) s := by
  refine Does.gated (replayOrGuard_does named .value ready) (fun row => rfl) (fun value => rfl) ?_
  intro s live
  refine Does.bind (fun e => endsWith_stable) (addressed_does rows live) ?_ ?_
  · rintro sent s ⟨-, live⟩
    let noted : Except Error Unit → State → Prop := fun r s => r = .ok () ∧ Noted ctx seq op s
    have called : Does ctx proper seq op noted (Context.call (.sendFromWorkflow ctx.workflowId seq name sent)) s := by
      refine Does.call live_stable live ?_ ?_
      · exact fun r s s' reached moved => ⟨reached.1, noted_stable s s' reached.2 moved⟩
      · intro s input here fits
        have done : exec ctx.lib input.now (.sendFromWorkflow ctx.workflowId seq name sent) s.1 = _ :=
          sendFromWorkflow_sent here.vacant (clear input s.1 _ fits)
        have stored : step ctx.lib s.1 (input.now, .sendFromWorkflow ctx.workflowId seq name sent) = _ :=
          congrArg Prod.snd done
        refine ⟨(), by rw [done], checkpoint_may rfl (fun cancel => cancel) stored rfl here.vacant named (free s.1),
          rfl, ?_⟩
        rw [done]
        exact ⟨_, ⟨by simp [Memory.checkpoint]; rfl, named.symm⟩, rfl, rfl⟩
    refine Safe.mono called ?_
    rintro r s ⟨same, noted⟩
    subst same
    exact noted_ends noted
  · rintro e s ⟨⟨sent, same⟩, -⟩
    cases same

/-- A provider call that records nothing: live work stays live. -/
theorem unrecorded_does {c : Call} (position : c.position = none) (histories : ∀ s, c.histories s = [])
    (uncancelled : ∀ s, ¬ Cancels ctx.workflowId s c)
    (served : ∀ (s : State) (input : Input δ), Live ctx seq op s → proper input s.1 (.call c) →
      ∃ reply, (exec ctx.lib input.now c s.1).1 = .ok reply) {s : State} (live : Live ctx seq op s) :
    Does ctx proper seq op (fun r s => (∃ reply, r = .ok reply) ∧ Live ctx seq op s) (Context.call c) s := by
  refine Does.call live_stable live ?_ ?_
  · exact fun r s s' reached moved => ⟨reached.1, live_stable s s' reached.2 moved⟩
  · intro s input here fits
    obtain ⟨reply, replied⟩ := served s input here fits
    have others : Others ctx.workflowId s.1 c := by
      refine ⟨by simp [position], by simp [histories], uncancelled s.1⟩
    have moved : Rely ctx.workflowId s (step ctx.lib s.1 (input.now, c), s.2) := others_rely others
    refine ⟨reply, replied, May.recorded (histories s.1) (uncancelled s.1) fun p => .inl (moved.steps p), ⟨reply, rfl⟩,
      live_stable s _ here moved⟩

/-- An effect and then a row with output null. -/
theorem effect_ends (free : ∀ s, refusal ctx op s = none) {name : String} (named : op.name = name)
    {effect : Act δ Unit}
    (acts : ∀ s, Live ctx seq op s →
      Does ctx proper seq op (fun r s => (∃ reply, r = .ok reply) ∧ Live ctx seq op s) effect s) {s : State}
    (live : Live ctx seq op s) :
    Does ctx proper seq op (EndsWith ctx seq op fun row => (recorded ctx .value (stepRowOutcome ctx.lib row)).map fun _ => ())
      (do
        effect
        let _ ← ctx.recordStep seq name .null none none
        Pure.pure ()) s := by
  refine Does.bind (fun e => endsWith_stable) (acts s live) ?_ ?_
  · rintro - s ⟨-, live⟩
    refine Does.bind (fun e => endsWith_stable) (recordStep_does free named .null none none live) ?_ ?_
    · rintro - s ⟨-, now, holds, -⟩
      exact Does.pure endsWith_stable (noted_ends ⟨_, holds, rfl, rfl⟩)
    · rintro e s ⟨-, now, -, same⟩
      cases same
  · rintro e s ⟨⟨reply, same⟩, -⟩
    cases same

theorem setWorkflowAttributes_ends (clear : Clear ctx.workflowId proper) (free : ∀ s, refusal ctx op s = none)
    (named : op.name = "DBOS.updateWorkflowAttributes") (id : String) (attributes : Option Columns) {s : State}
    (ready : Ready ctx seq op s) :
    Does ctx proper seq op (EndsWith ctx seq op fun row => (recorded ctx .value (stepRowOutcome ctx.lib row)).map fun _ => ())
      (ctx.setWorkflowAttributes seq id attributes) s := by
  refine Does.gated (replayOrGuard_does named .value ready) (fun row => rfl) (fun value => rfl) ?_
  intro s live
  refine effect_ends free named ?_ live
  intro s live
  refine unrecorded_does rfl (fun s => rfl) ?_ ?_ live
  · exact fun s cancel => cancel
  · intro s input _ fits
    have known : (s.1.workflows.get id).isSome = true := clear input s.1 _ fits
    obtain ⟨row, present⟩ := Option.isSome_iff_exists.mp known
    exact ⟨(), by simp [exec, Memory.setWorkflowAttributes, present]⟩

theorem setEvent_ends (free : ∀ s, refusal ctx op s = none) (named : op.name = "DBOS.setEvent") (key : String)
    (value : Value) {s : State} (ready : Ready ctx seq op s) :
    Does ctx proper seq op (EndsWith ctx seq op fun row => (recorded ctx .value (stepRowOutcome ctx.lib row)).map fun _ => ())
      (ctx.setEvent seq key value) s := by
  refine Does.gated (replayOrGuard_does named .value ready) (fun row => rfl) (fun value => rfl) ?_
  intro s live
  refine effect_ends free named ?_ live
  intro s live
  exact unrecorded_does rfl (fun s => rfl) (fun s => id) (fun s input _ _ => ⟨(), rfl⟩) live

/-- Live work of a wait whose deadline is not fixed yet. -/
def Untimed (ctx : Context) (seq : Int) (op : Op δ) (s : State) : Prop :=
  Live ctx seq op s ∧ s.1.steps.get (ctx.workflowId, nextSeq seq) = none

theorem untimed_stable : Stable ctx (Untimed ctx seq op) := fun s s' untimed moved =>
  ⟨live_stable s s' untimed.1 moved, (moved.steps _).trans untimed.2⟩

/-- A timer an earlier execution left is read back. -/
theorem timer_does (waits : op.waits = true) {s : State} (live : Live ctx seq op s) :
    Does ctx proper seq op (fun r s => (∃ instant, r = .ok (some instant)) ∧ Live ctx seq op s ∨
        r = .ok none ∧ Untimed ctx seq op s)
      (ctx.serveRecorded (nextSeq seq) "DBOS.sleep" ctx.builtins.instants) s := by
  have keeps : ∀ r : Except Error (Option DateTime), Stable ctx fun s =>
      (∃ instant, r = .ok (some instant)) ∧ Live ctx seq op s ∨ r = .ok none ∧ Untimed ctx seq op s := by
    rintro r s s' (⟨read, here⟩ | ⟨missed, here⟩) moved
    · exact .inl ⟨read, live_stable s s' here moved⟩
    · exact .inr ⟨missed, untimed_stable s s' here moved⟩
  let read : Except Error (Option RecordedStep) → State → Prop := fun r s => Live ctx seq op s ∧
    r = .ok ((s.1.steps.get (ctx.workflowId, nextSeq seq)).map fun row => ⟨row.name, stepRowOutcome ctx.lib row⟩)
  have first : Does ctx proper seq op read (Context.call (.getStepResult ctx.workflowId (nextSeq seq))) s := by
    refine Does.read live_stable live ?_ fun s input here _ => ⟨_, rfl, here, rfl⟩
    rintro r s s' ⟨here, same⟩ moved
    exact ⟨live_stable s s' here moved, by rw [moved.steps]; exact same⟩
  refine Does.bind (fun e => keeps _) first ?_ ?_
  · rintro step s ⟨here, same⟩
    cases stored : s.1.steps.get (ctx.workflowId, nextSeq seq) with
    | none =>
      rw [stored] at same
      cases same
      exact Does.pure (keeps _) (.inr ⟨rfl, here, stored⟩)
    | some row =>
      rw [stored] at same
      cases same
      obtain ⟨named, unfailed, value, instant, output, readable⟩ := here.begun.timer waits row stored
      have outcome : stepRowOutcome ctx.lib row = .output value := by
        simp only [stepRowOutcome, unfailed, output, Option.getD_some]
      have served : (ctx.recordedValue ctx.builtins.instants (.output value) : Act δ DateTime) = Pure.pure instant := by
        simp only [Context.recordedValue, readable]
        rfl
      have passed : (ctx.checkRecorded (nextSeq seq) "DBOS.sleep" row.name : Act δ Unit) = Pure.pure () := by
        simp [Context.checkRecorded, named]
      dsimp only [Option.map_some]
      rw [passed, outcome, served]
      exact Does.pure (keeps _) (.inl ⟨⟨instant, rfl⟩, here⟩)
  · rintro e s ⟨-, same⟩
    cases same

/-- The deadline is written beside the call's own position, in a form that reads back. -/
theorem setDeadline_does (waits : op.waits = true) (instant : DateTime) {s : State} (untimed : Untimed ctx seq op s) :
    Does ctx proper seq op (fun r s => (∃ instant, r = .ok instant) ∧ Live ctx seq op s)
      (ctx.checkpoint (nextSeq seq) "DBOS.sleep" instant none ctx.builtins.instants) s := by
  have keeps : ∀ r : Except Error DateTime, Stable ctx fun s => (∃ instant, r = .ok instant) ∧ Live ctx seq op s :=
    fun r s s' reached moved => ⟨reached.1, live_stable s s' reached.2 moved⟩
  obtain ⟨value, encoded, decoded⟩ := ctx.builtins.instants_back instant
  let written : Except Error StepOutcome → State → Prop := fun r s => r = .ok (.output value) ∧ Live ctx seq op s
  refine Does.bind (fun e => keeps _) (check_keeps untimed_stable (fun s here => here.1.unlatched) untimed) ?_ ?_
  · rintro - s ⟨-, untimed⟩
    rw [encoded]
    have first : Does ctx proper seq op written (ctx.recordStep (nextSeq seq) "DBOS.sleep" value none none) s := by
      refine Does.call untimed_stable untimed ?_ ?_
      · exact fun r s s' reached moved => ⟨reached.1, live_stable s s' reached.2 moved⟩
      · intro s input here _
        have timer : Deadline ctx (checkpointRow input.now "DBOS.sleep" value none none) :=
          ⟨rfl, rfl, value, instant, rfl, decoded⟩
        have allowed : May ctx seq op _ s (step ctx.lib s.1 (input.now, _), s.2) :=
          recordStep_may here.2 (.inr ⟨rfl, waits, timer⟩)
        refine ⟨.output value, by simp only [exec, recordStepResult_vacant here.2]; rfl, allowed, rfl, ?_⟩
        have stored : (exec ctx.lib input.now (.recordStepResult ctx.workflowId (nextSeq seq) "DBOS.sleep" value none
            none (some ctx.rt.executorId)) s.1).2.steps =
              s.1.steps.put (ctx.workflowId, nextSeq seq) (checkpointRow input.now "DBOS.sleep" value none none) := by
          simp [exec, recordStepResult_vacant here.2]
        refine ⟨⟨allowed.runnable here.1.runnable, here.1.unlatched, ?_, ?_⟩, ?_⟩
        · intro row present
          rw [stored, Table.get_put, if_neg (by simp [(nextSeq_ne seq).symm])] at present
          exact here.1.begun.own row present
        · intro _ row present
          rw [stored, Table.get_put, if_pos rfl] at present
          cases present
          exact timer
        · rw [stored, Table.get_put, if_neg (by simp [(nextSeq_ne seq).symm])]
          exact here.1.vacant
    refine Does.bind (fun e => keeps _) first ?_ ?_
    · rintro outcome s ⟨same, live⟩
      cases same
      have served : (ctx.recordedValue ctx.builtins.instants (.output value) : Act δ DateTime) = Pure.pure instant := by
        simp only [Context.recordedValue, decoded]
        rfl
      rw [served]
      exact Does.pure (keeps _) ⟨⟨instant, rfl⟩, live⟩
    · rintro e s ⟨same, -⟩
      cases same
  · rintro e s ⟨same, -⟩
    cases same

theorem deadlineOf_does (waits : op.waits = true) (timeout : Duration) (deadline : Option DateTime) {s : State}
    (live : Live ctx seq op s) :
    Does ctx proper seq op (fun r s => (∃ instant, r = .ok instant) ∧ Live ctx seq op s)
      (ctx.deadlineOf seq timeout deadline) s := by
  have keeps : ∀ r : Except Error DateTime, Stable ctx fun s => (∃ instant, r = .ok instant) ∧ Live ctx seq op s :=
    fun r s s' reached moved => ⟨reached.1, live_stable s s' reached.2 moved⟩
  cases deadline with
  | some deadline => exact Does.pure (keeps _) ⟨⟨deadline, rfl⟩, live⟩
  | none =>
    refine Does.bind (fun e => keeps _) (timer_does waits live) ?_ ?_
    · rintro stored s (⟨⟨instant, same⟩, live⟩ | ⟨same, untimed⟩)
      · cases same
        exact Does.pure (keeps _) ⟨⟨instant, rfl⟩, live⟩
      · cases same
        have drawn : Does ctx proper seq op _ (Context.wakeInstant timeout : Act δ DateTime) s :=
          wakeInstant_draws timeout untimed_stable (fun s here => here.1.vacant) s untimed
        refine Does.bind (fun e => keeps _) drawn ?_ ?_
        · rintro instant s ⟨-, untimed⟩
          exact setDeadline_does waits instant untimed
        · rintro e s ⟨⟨instant, same⟩, -⟩
          cases same
    · rintro e s (⟨⟨instant, same⟩, -⟩ | ⟨same, -⟩) <;> cases same

/-- The missed round of a wait: it times out with a null row, or waits and tries again. -/
theorem miss_served (free : ∀ s, refusal ctx op s = none) (waits : op.waits = true) {name : String}
    (named : op.name = name) (timeout : Duration) (codec : Codec δ) {again : Option DateTime → Act δ (Option δ)}
    (rest : ∀ deadline s, Live ctx seq op s → Does ctx proper seq op
      (Served ctx seq op fun row => recorded ctx codec.optional (stepRowOutcome ctx.lib row)) (again deadline) s)
    (deadline : Option DateTime) {s : State} (live : Live ctx seq op s) :
    Does ctx proper seq op (Served ctx seq op fun row => recorded ctx codec.optional (stepRowOutcome ctx.lib row)) (do
      let deadline ← ctx.deadlineOf seq timeout deadline
      let now ← Act.get .now
      if deadline ≤ now then
        let _ ← ctx.recordStep seq name .null none none
        Pure.pure none
      else
        Act.get .wait
        again (some deadline)) s := by
  refine Does.bind (fun e => served_stable) (deadlineOf_does waits timeout deadline live) ?_ ?_
  · rintro deadline s ⟨-, live⟩
    refine Does.bind (fun e => served_stable) (get_does (fun input s => rfl) live) ?_ ?_
    · rintro now s ⟨-, live⟩
      split
      · refine Does.bind (fun e => served_stable) (recordStep_does free named .null none none live) ?_ ?_
        · rintro - s ⟨-, now, holds, -⟩
          exact Does.pure served_stable ⟨_, holds, rfl⟩
        · rintro e s ⟨-, now, -, same⟩
          cases same
      · refine Does.bind (fun e => served_stable) (get_does (fun input s => rfl) live) ?_ ?_
        · rintro - s ⟨-, live⟩
          exact rest (some deadline) s live
        · rintro e s ⟨⟨reply, same⟩, -⟩
          cases same
    · rintro e s ⟨⟨reply, same⟩, -⟩
      cases same
  · rintro e s ⟨⟨reply, same⟩, -⟩
    cases same

/-- A message and the row that holds it appear together, or there is no message. -/
theorem consumeNotification_does (free : ∀ s, refusal ctx op s = none) {name : String} (named : op.name = name)
    (topic : String) {s : State} (live : Live ctx seq op s) :
    Does ctx proper seq op (fun r s => r = .ok none ∧ Live ctx seq op s ∨
        ∃ message row, r = .ok (some message) ∧ Holds ctx seq op row s ∧ row.error = none ∧ row.output = some message)
      (Context.call (.consumeNotification ctx.workflowId topic seq name)) s := by
  refine Does.call live_stable live ?_ ?_
  · rintro r s s' (⟨missed, here⟩ | ⟨message, row, same, holds, content⟩) moved
    · exact .inl ⟨missed, live_stable s s' here moved⟩
    · exact .inr ⟨message, row, same, holds_stable s s' holds moved, content⟩
  · intro s input here _
    have vacant : recordedAt ctx.workflowId seq name s.1 = .ok none := by simp [recordedAt, here.vacant]
    cases waiting : oldest ctx.workflowId topic s.1.notifications with
    | none =>
      have missed : exec ctx.lib input.now (.consumeNotification ctx.workflowId topic seq name) s.1 = (.ok none, s.1) := by
        simp [exec, Memory.consumeNotification, vacant, waiting]
      rw [missed]
      refine ⟨none, rfl, May.same ?_ _, .inl ⟨rfl, here⟩⟩
      rintro (⟨_, _, same⟩ | ⟨_, same⟩) <;> cases same
    | some found =>
      obtain ⟨message, place⟩ := found
      have taken : exec ctx.lib input.now (.consumeNotification ctx.workflowId topic seq name) s.1 =
          (.ok (some message.message), Memory.checkpoint input.now ctx.workflowId seq name message.message
            { s.1 with notifications := s.1.notifications.modify place fun n => { n with consumed := true } }) := by
        simp [exec, Memory.consumeNotification, vacant, waiting]
      have stored : step ctx.lib s.1 (input.now, .consumeNotification ctx.workflowId topic seq name) = _ :=
        congrArg Prod.snd taken
      refine ⟨some message.message, by rw [taken],
        checkpoint_may rfl (fun cancel => cancel) stored rfl here.vacant named (free s.1), .inr ?_⟩
      rw [taken]
      exact ⟨_, _, rfl, ⟨by simp [Memory.checkpoint]; rfl, named.symm⟩, rfl, rfl⟩

theorem recvLoop_served (free : ∀ s, refusal ctx op s = none) (waits : op.waits = true) (named : op.name = "DBOS.recv")
    (topic : String) (timeout : Duration) (codec : Codec δ) (rounds : Nat) (deadline : Option DateTime) {s : State}
    (live : Live ctx seq op s) :
    Does ctx proper seq op (Served ctx seq op fun row => recorded ctx codec.optional (stepRowOutcome ctx.lib row))
      (ctx.recvLoop seq topic timeout codec rounds deadline) s := by
  induction rounds generalizing deadline s with
  | zero => trivial
  | succ rounds ih =>
    rw [Context.recvLoop]
    refine Does.bind (fun e => served_stable) (consumeNotification_does free named topic live) ?_ ?_
    · rintro reply s (⟨same, live⟩ | ⟨message, row, same, holds, unfailed, output⟩)
      · cases same
        exact miss_served free waits named timeout codec (fun deadline s live => ih deadline live) deadline live
      · cases same
        have ended : Served ctx seq op (fun row => recorded ctx codec.optional (stepRowOutcome ctx.lib row))
            (recorded ctx codec.optional (.output message)) s := by
          refine ⟨row, holds, ?_⟩
          simp only [stepRowOutcome, unfailed, output, Option.getD_some]
        exact fun s' moved => served_stable s s' ended moved
    · rintro e s (⟨same, -⟩ | ⟨message, row, same, -⟩) <;> cases same

theorem recv_served (free : ∀ s, refusal ctx op s = none) (waits : op.waits = true) (named : op.name = "DBOS.recv")
    (rounds : Nat) (topic : String) (timeout : Duration) (codec : Codec δ) {s : State} (ready : Ready ctx seq op s) :
    Does ctx proper seq op
      (Served ctx seq op fun row => recorded ctx codec.optional (stepRowOutcome ctx.lib row))
      (ctx.recv rounds seq topic timeout codec) s := by
  refine Does.behind (replayOrGuard_does named codec.optional ready) (fun row => map_id_eq _) (fun value => rfl)
    (fun _ => served_stable) (fun _ _ held => held) ?_
  intro s live
  exact recvLoop_served free waits named topic timeout codec rounds none live

/-- A value that is not null reads the same with and without the option around its type. -/
theorem recorded_optional (codec : Codec δ) {value : Value} (filled : value ≠ .null) :
    recorded ctx codec.optional (.output value) = (recorded ctx codec (.output value)).map some := by
  have there : value.isNull = false := by
    cases value with
    | null => exact absurd rfl filled
    | _ => rfl
  simp only [recorded, Codec.optional, there]
  cases codec.fromValue value <;> rfl

theorem getEventLoop_served (free : ∀ s, refusal ctx op s = none) (waits : op.waits = true)
    (named : op.name = "DBOS.getEvent") (target key : String) (seen : ∀ input s, proper input s (.call (.getEventValue target key)) → s.events.get (target, key) ≠ some .null)
    (timeout : Duration) (codec : Codec δ) (rounds : Nat)
    (deadline : Option DateTime) {s : State} (live : Live ctx seq op s) :
    Does ctx proper seq op (Served ctx seq op fun row => recorded ctx codec.optional (stepRowOutcome ctx.lib row))
      (ctx.getEventLoop seq target key timeout codec rounds deadline) s := by
  induction rounds generalizing deadline s with
  | zero => trivial
  | succ rounds ih =>
    rw [Context.getEventLoop]
    let read : Except Error (Option Value) → State → Prop :=
      fun r s => (∃ value, r = .ok value ∧ value ≠ some .null) ∧ Live ctx seq op s
    have first : Does ctx proper seq op read (Context.call (.getEventValue target key)) s := by
      refine Does.read live_stable live ?_ ?_
      · exact fun r s s' reached moved => ⟨reached.1, live_stable s s' reached.2 moved⟩
      · exact fun s input here fits => ⟨_, rfl, ⟨_, rfl, seen input s.1 fits⟩, here⟩
    refine Does.bind (fun e => served_stable) first ?_ ?_
    · rintro reply s ⟨⟨value, same, unnull⟩, live⟩
      cases same
      cases reply with
      | none => exact miss_served free waits named timeout codec (fun deadline s live => ih deadline live) deadline live
      | some value =>
        have filled : value ≠ .null := fun same => unnull (by rw [same])
        refine Does.bind (fun e => served_stable) (recordStep_does free named value none none live) ?_ ?_
        · rintro outcome s ⟨unlatched, now, holds, same⟩
          cases same
          have ended : ∀ s, s.1.steps.get (ctx.workflowId, seq) =
              some (checkpointRow now "DBOS.getEvent" value none none) →
              Served ctx seq op (fun row => recorded ctx codec.optional (stepRowOutcome ctx.lib row))
                ((recorded ctx codec (.output value)).map some) s :=
            fun s held => ⟨_, ⟨held, holds.2⟩, (recorded_optional codec filled).symm⟩
          have decoded : Does ctx proper seq op _ (ctx.recordedValue codec (.output value)) s :=
            recordedValue_does codec (.output value)
              (P := fun store => store.steps.get (ctx.workflowId, seq) =
                some (checkpointRow now "DBOS.getEvent" value none none))
              (fun s s' held moved => (moved.steps seq).trans held) holds.1 unlatched
          refine Does.bind (fun e => served_stable) decoded ?_ ?_
          · rintro v s ⟨held, same⟩
            have done := ended s held
            rw [← same] at done
            exact Does.pure served_stable done
          · rintro e s ⟨held, same⟩
            have done := ended s held
            rw [← same] at done
            exact done
        · rintro e s ⟨-, now, -, same⟩
          cases same
    · rintro e s ⟨⟨value, same, -⟩, -⟩
      cases same

theorem getEvent_served (free : ∀ s, refusal ctx op s = none) (waits : op.waits = true)
    (named : op.name = "DBOS.getEvent") (rounds : Nat) (target key : String) (seen : ∀ input s, proper input s (.call (.getEventValue target key)) → s.events.get (target, key) ≠ some .null)
    (timeout : Duration) (codec : Codec δ)
    {s : State} (ready : Ready ctx seq op s) :
    Does ctx proper seq op
      (Served ctx seq op fun row => recorded ctx codec.optional (stepRowOutcome ctx.lib row))
      (ctx.getEvent rounds seq target key timeout codec) s := by
  refine Does.behind (replayOrGuard_does named codec.optional ready) (fun row => map_id_eq _) (fun value => rfl)
    (fun _ => served_stable) (fun _ _ held => held) ?_
  intro s live
  exact getEventLoop_served free waits named target key seen timeout codec rounds none live

theorem writeStreamFromWorkflow_closed {now : DateTime} {id : String} {seq : Int} {name key : String}
    {value : Option Value} {s : Inner} (vacant : s.steps.get (id, seq) = none) (shut : Closed s id key) :
    writeStreamFromWorkflow now id seq name key value s =
      (.error (.ofMessage s!"stream `{key}` is already closed"), s) := by
  have full : closed ((s.streams.get (id, key)).getD []) = true := shut
  simp [writeStreamFromWorkflow, recordedAt, vacant, Memory.appendStream, full]

theorem writeStreamFromWorkflow_open {now : DateTime} {id : String} {seq : Int} {name key : String}
    {value : Option Value} {s : Inner} (vacant : s.steps.get (id, seq) = none) (unclosed : ¬ Closed s id key) :
    writeStreamFromWorkflow now id seq name key value s = (.ok (), Memory.checkpoint now id seq name .null
      { s with streams := s.streams.put (id, key) ((s.streams.get (id, key)).getD [] ++ [value]) }) := by
  have room : ¬ closed ((s.streams.get (id, key)).getD []) = true := unclosed
  simp [writeStreamFromWorkflow, recordedAt, vacant, Memory.appendStream, room]

/-- The refusals of a stream operation are those of a closed stream. -/
def StreamOf (ctx : Context) (op : Op δ) (key : String) : Prop := ∀ s, refusal ctx op s =
  if Closed s ctx.workflowId key then some (.ofMessage s!"stream `{key}` is already closed") else none

/-- A closed stream refuses for good; an open one takes the entry with its row. -/
theorem appendStream_ends {key : String} (stream : StreamOf ctx op key) {name : String} (named : op.name = name)
    (value : Option Value) {s : State} (ready : Ready ctx seq op s) :
    Does ctx proper seq op (EndsWith ctx seq op fun row => (recorded ctx .value (stepRowOutcome ctx.lib row)).map fun _ => ())
      (ctx.appendStream seq name key value) s := by
  refine Does.gated (replayOrGuard_does named .value ready) (fun row => rfl) (fun value => rfl) ?_
  intro s live
  let shut : Error := .ofMessage s!"stream `{key}` is already closed"
  let replied : Except Error (Except Error Unit) → State → Prop := fun r s =>
    r = .ok (.ok ()) ∧ Noted ctx seq op s ∨
    r = .ok (.error shut) ∧ Live ctx seq op s ∧ refusal ctx op s.1 = some shut
  have keeps : ∀ r, Stable ctx (replied r) := by
    rintro r s s' (⟨done, noted⟩ | ⟨failed, here, refused⟩) moved
    · exact .inl ⟨done, noted_stable s s' noted moved⟩
    · exact .inr ⟨failed, live_stable s s' here moved, refusal_later refused moved.closed⟩
  have first : Does ctx proper seq op replied
      (Act.get (.call (.writeStreamFromWorkflow ctx.workflowId seq name key value))) s := by
    refine Does.asked live_stable live keeps ?_
    intro s input here _
    by_cases full : Closed s.1 ctx.workflowId key
    · have answered : exec ctx.lib input.now (.writeStreamFromWorkflow ctx.workflowId seq name key value) s.1 = _ :=
        writeStreamFromWorkflow_closed here.vacant full
      rw [answered]
      refine ⟨May.same ?_ _, .inr ⟨rfl, here, by rw [stream, if_pos full]⟩⟩
      rintro (⟨_, _, same⟩ | ⟨_, same⟩) <;> cases same
    · have answered : exec ctx.lib input.now (.writeStreamFromWorkflow ctx.workflowId seq name key value) s.1 = _ :=
        writeStreamFromWorkflow_open here.vacant full
      have stored : step ctx.lib s.1 (input.now, .writeStreamFromWorkflow ctx.workflowId seq name key value) = _ :=
        congrArg Prod.snd answered
      have unrefused : refusal ctx op s.1 = none := by rw [stream, if_neg full]
      refine ⟨checkpoint_may rfl (fun cancel => cancel) stored rfl here.vacant named unrefused, ?_⟩
      rw [answered]
      exact .inl ⟨rfl, _, ⟨by simp [Memory.checkpoint]; rfl, named.symm⟩, rfl, rfl⟩
  refine Does.bind (fun e => endsWith_stable) first ?_ ?_
  · rintro result s (⟨same, noted⟩ | ⟨same, here, refused⟩)
    · cases same
      exact Does.pure endsWith_stable (noted_ends noted)
    · cases same
      exact Does.throw endsWith_stable (.inr (.inl ⟨here.vacant, shut, refused, rfl⟩))
  · rintro e s (⟨same, -⟩ | ⟨same, -⟩) <;> cases same

end Calls

end Durare.Execution

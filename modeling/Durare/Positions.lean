import Durare.MessagePositions

/-! Every durable call settles its position: whatever the others do meanwhile and whatever
an earlier execution left there, the result it hands to the body is the one its position
gives from then on. -/
namespace Durare.Execution

open Interaction Memory

section Calls

variable {δ α β : Type} {ctx : Context} {proper : Input δ → Inner → Ask → Prop} {seq : Int} {op : Op δ}

/-- What a child start hands to the body from the row at its position. -/
def childFrom (ctx : Context) (seq : Int) (row : StepRow) : Except Error String :=
  match row.childWorkflowId with
  | some id => .ok id
  | none =>
    match recorded ctx .value (stepRowOutcome ctx.lib row) with
    | .ok _ => .error (.unexpectedStep ctx.workflowId seq "child workflow" "ordinary step")
    | .error e => .error e

/-- An insert at a vacant position of a running parent: the child and its link are stored, or
the target is refused and nothing is. -/
theorem insertChildWorkflow_fresh (child : WorkflowStatus) {parent : String} {seq : Int} (returnExisting : Bool)
    {s : Inner} (vacant : s.steps.get (parent, seq) = none) (runnable : Runnable parent s) :
    (∃ e, insertChildWorkflow child parent seq returnExisting s = (.error e, s) ∧
      e.isStorageFailure = false ∧ Context.durableRejection e = true) ∨
    ∃ row created mid, insertChildWorkflow child parent seq returnExisting s =
      (.ok (some (.resolved row created)),
        Inner.putStep mid parent seq { name := child.name, childWorkflowId := some row.id }) ∧
      mid.steps = s.steps := by
  obtain ⟨parentRow, present, running⟩ := runnable
  simp only [insertChildWorkflow, vacant, present, running, if_false]
  cases chosen : chosenChild child returnExisting s with
  | error e =>
    refine .inl ⟨e, rfl, ?_⟩
    unfold chosenChild at chosen
    repeat' split at chosen
    all_goals cases chosen
    exact ⟨rfl, rfl⟩
  | ok found =>
    dsimp only
    cases target : checkChildTarget (found.getD child) child with
    | error e =>
      refine .inl ⟨e, rfl, ?_⟩
      unfold checkChildTarget at target
      split at target
      · cases target
        exact ⟨rfl, by simp [Context.durableRejection, Error.workflowTargetConflict, Error.code, Value.asStr]⟩
      · cases target
    | ok _ =>
      refine .inr ⟨found.getD child, found.isNone, _, rfl, ?_⟩
      split <;> rfl

theorem pure_bind_eq (a : α) (f : α → Act δ β) : (Pure.pure a : Act δ α) >>= f = f a := rfl

theorem ofExcept_bind (a : α) (f : α → Act δ β) : Act.ofExcept (.ok a) >>= f = f a := rfl

/-- How the insert of a child ends: linked at the position, or refused with nothing stored. -/
def Spawned (ctx : Context) (seq : Int) (op : Op δ) (r : Except Error String) (s : State) : Prop :=
  (∃ id row, r = .ok id ∧ Holds ctx seq op row s ∧ row.childWorkflowId = some id) ∨
  (∃ e, r = .error e ∧ e.isStorageFailure = false ∧ Context.durableRejection e = true ∧ Live ctx seq op s)

theorem spawned_stable (r : Except Error String) : Stable ctx (Spawned ctx seq op r) := by
  rintro s s' (⟨id, row, same, holds, link⟩ | ⟨e, same, ordinary, durable, here⟩) moved
  · exact .inl ⟨id, row, same, holds_stable s s' holds moved, link⟩
  · exact .inr ⟨e, same, ordinary, durable, live_stable s s' here moved⟩

theorem spawnChild_does (free : ∀ s, refusal ctx op s = none) {name : String} (named : op.name = name)
    (input : Value) {opts : WorkflowOptions} (arguments : Runtime.validateChildArguments name opts = .ok ())
    (configured : ctx.rt.validateChildConfiguration name opts = .ok ()) {s : State} (live : Live ctx seq op s) :
    Does ctx proper seq op (Spawned ctx seq op) (ctx.spawnChild seq name input opts) s := by
  refine Does.bind (fun e => spawned_stable _) (get_does (fun input s => rfl) live) ?_ ?_
  · rintro now s ⟨-, live⟩
    refine Does.bind (fun e => spawned_stable _) (get_does (fun input s => rfl) live) ?_ ?_
    · rintro created s ⟨-, live⟩
      obtain ⟨child, built, childName⟩ : ∃ child, ctx.rt.buildRun now created (ctx.childId seq opts) name input
          { opts with workflowId := some (ctx.childId seq opts) } (some ctx.workflowId) (ctx.childAuth opts) =
          .ok (child, opts.queue.isSome) ∧ child.name = name := Runtime.buildRun_checked arguments configured
      rw [built, ofExcept_bind]
      let replied : Except Error (Except Error (Option ChildInsert)) → State → Prop := fun r s =>
        (∃ e, r = .ok (.error e) ∧ e.isStorageFailure = false ∧ Context.durableRejection e = true ∧
          Live ctx seq op s) ∨
        ∃ row created link, r = .ok (.ok (some (.resolved row created))) ∧ Holds ctx seq op link s ∧
          link.childWorkflowId = some row.id
      have keeps : ∀ r, Stable ctx (replied r) := by
        rintro r s s' (⟨e, same, ordinary, durable, here⟩ | ⟨row, created, link, same, holds, linked⟩) moved
        · exact .inl ⟨e, same, ordinary, durable, live_stable s s' here moved⟩
        · exact .inr ⟨row, created, link, same, holds_stable s s' holds moved, linked⟩
      have first : Does ctx proper seq op replied (Act.get (.call
          (.insertChildWorkflow child ctx.workflowId seq (opts.dedupPolicy = .returnExisting)))) s := by
        refine Does.asked live_stable live keeps ?_
        intro s input here _
        rcases insertChildWorkflow_fresh child (opts.dedupPolicy = .returnExisting) here.vacant here.runnable with
          ⟨e, refused, ordinary, durable⟩ | ⟨row, created, mid, stored, frame⟩
        · have answered : exec ctx.lib input.now
              (.insertChildWorkflow child ctx.workflowId seq (opts.dedupPolicy = .returnExisting)) s.1 = _ := refused
          rw [answered]
          refine ⟨May.same ?_ _, .inl ⟨e, rfl, ordinary, durable, here⟩⟩
          rintro (⟨_, _, same⟩ | ⟨_, same⟩) <;> cases same
        · have answered : exec ctx.lib input.now
              (.insertChildWorkflow child ctx.workflowId seq (opts.dedupPolicy = .returnExisting)) s.1 = _ := stored
          have next : step ctx.lib s.1 (input.now,
              .insertChildWorkflow child ctx.workflowId seq (opts.dedupPolicy = .returnExisting)) = _ :=
            congrArg Prod.snd answered
          refine ⟨May.recorded rfl (fun cancel => cancel) ?_, ?_⟩
          · intro p
            rw [next, putStep_steps, frame, Table.get_put]
            by_cases same : p = seq
            · subst same
              exact .inr ⟨here.vacant, _, if_pos rfl, .inl ⟨rfl, childName.trans named.symm, free s.1⟩⟩
            · left
              simp [same]
          · rw [answered]
            exact .inr ⟨row, created, _, rfl, ⟨by simp; rfl, childName.trans named.symm⟩, rfl⟩
      refine Does.bind (fun e => spawned_stable _) first ?_ ?_
      · rintro reply s (⟨e, same, ordinary, durable, here⟩ | ⟨row, created, link, same, holds, linked⟩)
        · cases same
          have seen : observationError e = e := by
            cases e <;> simp_all [observationError, Error.isStorageFailure]
          refine Does.throw (spawned_stable _) (.inr ⟨e, by rw [seen], ordinary, durable, here⟩)
        · cases same
          exact Does.pure (spawned_stable _) (.inl ⟨row.id, link, rfl, holds, linked⟩)
      · rintro e s (⟨_, same, -⟩ | ⟨_, _, _, same, -⟩) <;> cases same
    · rintro e s ⟨⟨reply, same⟩, -⟩
      cases same
  · rintro e s ⟨⟨reply, same⟩, -⟩
    cases same

/-- The refusals of a child start are those of its arguments. -/
def StartOf (ctx : Context) (op : Op δ) (name : String) (opts : WorkflowOptions) : Prop := ∀ s, refusal ctx op s =
  match Runtime.validateChildArguments name opts with
  | .error e => some e
  | .ok _ => none

theorem startFresh_ends {name : String} (named : op.name = name) (input : Value) {opts : WorkflowOptions}
    (start : StartOf ctx op name opts) {s : State} (live : Live ctx seq op s) :
    Does ctx proper seq op (EndsWith ctx seq op (childFrom ctx seq)) (ctx.startFresh seq name input opts) s := by
  unfold Context.startFresh
  cases arguments : Runtime.validateChildArguments name opts with
  | error e =>
    have refused : refusal ctx op s.1 = some e := by rw [start, arguments]
    have ended : EndsWith ctx seq op (childFrom ctx seq) (.error e) s := .inr (.inl ⟨live.vacant, e, refused, rfl⟩)
    exact fun s' moved => endsWith_stable s s' ended moved
  | ok _ =>
    have free : ∀ s, refusal ctx op s = none := fun s => by rw [start, arguments]
    rw [ofExcept_bind]
    cases configured : ctx.rt.validateChildConfiguration name opts with
    | error e =>
      refine Safe.mono (interrupt_does e live) ?_
      rintro r s ⟨-, interrupted⟩
      exact .inr (.inr interrupted)
    | ok _ =>
      refine Does.bind (fun e => endsWith_stable) (guardCancelled_does live) ?_ ?_
      · rintro - s ⟨-, live⟩
        let tried : Except Error (Except Error String) → State → Prop :=
          fun r s => ∃ result, r = .ok result ∧ Spawned ctx seq op result s
        have spawns : Does ctx proper seq op tried (ctx.spawnChild seq name input opts).attempt s := by
          refine Does.attempt ?_ (spawnChild_does free named input arguments configured live)
            fun r s spawned => ⟨r, rfl, spawned⟩
          rintro r s s' ⟨result, same, spawned⟩ moved
          exact ⟨result, same, spawned_stable result s s' spawned moved⟩
        refine Does.bind (fun e => endsWith_stable) spawns ?_ ?_
        · rintro r s ⟨result, same, spawned⟩
          cases same
          rcases spawned with ⟨id, row, same, holds, link⟩ | ⟨e, same, ordinary, durable, live⟩
          · subst same
            refine Does.pure endsWith_stable (.inl ⟨row, holds, ?_⟩)
            simp only [childFrom, link]
          · subst same
            simp only [ordinary, durable, if_true]
            refine Safe.mono (recordFailure_does free named e none ctx.builtins.strings live) ?_
            rintro r s (⟨now, text, holds, same⟩ | interrupted)
            · refine .inl ⟨_, holds, ?_⟩
              rw [same]
              simp only [childFrom, checkpointRow, stepRowOutcome, recorded]
              split <;> rfl
            · exact .inr (.inr interrupted)
        · rintro e s ⟨result, same, -⟩
          cases same
      · rintro e s ⟨same, -⟩
        cases same

/-- The row a start finds, as far as it is its own. -/
theorem checkChildWorkflow_does {s : State} (ready : Ready ctx seq op s) :
    Does ctx proper seq op (fun r s => Ready ctx seq op s ∧
        r = .ok ((s.1.steps.get (ctx.workflowId, seq)).bind fun row => row.childWorkflowId.map fun id => (id, row.name)))
      (Context.call (.checkChildWorkflow ctx.workflowId seq)) s := by
  refine Does.read ready_stable ready ?_ fun s input here _ => ⟨_, rfl, here, rfl⟩
  rintro r s s' ⟨here, same⟩ moved
  exact ⟨ready_stable s s' here moved, by rw [moved.steps]; exact same⟩

theorem startWorkflow_ends {name : String} (named : op.name = name) (input : Value) {opts : WorkflowOptions}
    (start : StartOf ctx op name opts) {s : State} (ready : Ready ctx seq op s) :
    Does ctx proper seq op (EndsWith ctx seq op (childFrom ctx seq)) (ctx.startWorkflow seq name input opts) s := by
  have passes : ∀ s row, Ready ctx seq op s → s.1.steps.get (ctx.workflowId, seq) = some row →
      (ctx.checkRecorded seq name row.name : Act δ Unit) = Pure.pure () := by
    intro s row ready present
    rw [Context.checkRecorded, ready.begun.own row present, named]
    simp
  refine Does.bind (fun e => endsWith_stable) (checkChildWorkflow_does ready) ?_ ?_
  · rintro found s ⟨ready, same⟩
    cases present : s.1.steps.get (ctx.workflowId, seq) with
    | none =>
      rw [present] at same
      cases same
      have live : Live ctx seq op s := ⟨ready, present⟩
      let read : Except Error (Option RecordedStep) → State → Prop := fun r s => r = .ok none ∧ Live ctx seq op s
      have first : Does ctx proper seq op read (Context.call (.getStepResult ctx.workflowId seq)) s := by
        refine Does.read live_stable live ?_ ?_
        · exact fun r s s' reached moved => ⟨reached.1, live_stable s s' reached.2 moved⟩
        · exact fun s input here _ => ⟨none, by simp [exec, getStepResult, here.vacant], rfl, here⟩
      refine Does.bind (fun e => endsWith_stable) first ?_ ?_
      · rintro step s ⟨same, live⟩
        cases same
        exact startFresh_ends named input start live
      · rintro e s ⟨same, -⟩
        cases same
    | some row =>
      have own := ready.begun.own row present
      cases link : row.childWorkflowId with
      | some id =>
        rw [present] at same
        simp only [Option.bind_some, link, Option.map_some] at same
        cases same
        dsimp only
        rw [passes s row ready present]
        refine Does.pure endsWith_stable (.inl ⟨row, ⟨present, own⟩, ?_⟩)
        simp only [childFrom, link]
      | none =>
        rw [present] at same
        simp only [Option.bind_some, link, Option.map_none] at same
        cases same
        let held : State → Prop := fun s => Ready ctx seq op s ∧ s.1.steps.get (ctx.workflowId, seq) = some row
        have stable : Stable ctx held := fun s s' here moved =>
          ⟨ready_stable s s' here.1 moved, (moved.steps seq).trans here.2⟩
        let read : Except Error (Option RecordedStep) → State → Prop := fun r s =>
          r = .ok (some ⟨row.name, stepRowOutcome ctx.lib row⟩) ∧ held s
        have first : Does ctx proper seq op read (Context.call (.getStepResult ctx.workflowId seq)) s := by
          refine Does.read stable ⟨ready, present⟩ ?_ ?_
          · exact fun r s s' reached moved => ⟨reached.1, stable s s' reached.2 moved⟩
          · exact fun s input here _ => ⟨_, by simp [exec, getStepResult, here.2], rfl, here⟩
        refine Does.bind (fun e => endsWith_stable) first ?_ ?_
        · rintro step s ⟨same, ready, present⟩
          cases same
          dsimp only
          rw [passes s row ready present, pure_bind_eq]
          have value : Does ctx proper seq op _ (ctx.recordedValue Codec.value (stepRowOutcome ctx.lib row)) s :=
            recordedValue_does Codec.value _ (P := fun store => store.steps.get (ctx.workflowId, seq) = some row)
              (fun s s' held moved => (moved.steps seq).trans held) present ready.unlatched
          refine Does.bind (fun e => endsWith_stable) value ?_ ?_
          · rintro v s ⟨held, same⟩
            refine Does.throw endsWith_stable (.inl ⟨row, ⟨held, own⟩, ?_⟩)
            simp only [childFrom, link, ← same]
          · rintro e s ⟨held, same⟩
            refine .inl ⟨row, ⟨held, own⟩, ?_⟩
            simp only [childFrom, link, ← same]
        · rintro e s ⟨same, -⟩
          cases same
  · rintro e s ⟨-, same⟩
    cases same

theorem EndsWith.ends {result : Outcome δ} {s : State} (ended : EndsWith ctx seq op (replay ctx seq op) result s) :
    Ends ctx seq op result s := by
  rcases ended with ⟨row, ⟨present, own⟩, same⟩ | refused | interrupted
  · exact .inl (.inl ⟨row, present, own, same⟩)
  · exact .inl (.inr refused)
  · exact .inr interrupted

theorem replay_startWorkflow (ctx : Context) (seq : Int) (name : String) (input : Except String Value)
    (opts : WorkflowOptions) (row : StepRow) :
    replay (δ := δ) ctx seq (.startWorkflow name input opts) row = (childFrom ctx seq row).map .child := by
  simp only [replay, childFrom]
  cases row.childWorkflowId with
  | some id => rfl
  | none => cases recorded ctx .value (stepRowOutcome ctx.lib row) <;> rfl

theorem map_const (x : Except Error α) (b : β) : x.map (fun _ => b) = (x.map fun _ => ()).map fun _ => b := by
  cases x <;> rfl

theorem encoded_of_prepared {value : Except String Value} (prepared : (serdeResult value).map (fun _ => ()) = .ok ()) :
    ∃ v, value = .ok v := by
  cases value with
  | ok v => exact ⟨v, rfl⟩
  | error message => cases prepared

/-- Every durable call that is issued ends with its position settled, or with the execution
interrupted and nothing recorded there. -/
theorem run_ends (clear : Clear ctx.workflowId proper) (rounds : Nat) (prepared : op.prepare = .ok ()) {s : State}
    (ready : Ready ctx seq op s) :
    Does ctx proper seq op (Ends ctx seq op) (op.run ctx rounds seq) s := by
  suffices ends : Does ctx proper seq op (EndsWith ctx seq op (replay ctx seq op)) (op.run ctx rounds seq) s from
    Safe.mono ends fun r s ended => ended.ends
  cases op with
  | step name codec => exact Does.mapped (step_ends clear (fun s => rfl) rfl codec ready) fun row => rfl
  | stepWith name maxRetries retryIf codec =>
    exact Does.mapped (stepWith_ends clear (fun s => rfl) rfl maxRetries retryIf codec ready) fun row => rfl
  | select branches codec => exact Does.mapped (select_ends (fun s => rfl) rfl codec ready) fun row => rfl
  | sleep span => exact Does.mapped (sleep_ends (fun s => rfl) rfl span ready) fun row => map_const _ _
  | now =>
    have draws : Draws ctx proper seq .now (Live ctx seq .now) (Act.get .now : Act δ DateTime) :=
      fun s live => get_does (fun input s => rfl) live
    exact Does.mapped (durableValueAt_ends (fun s => rfl) rfl draws ctx.builtins.instants ready) fun row => rfl
  | uuid =>
    have draws : Draws ctx proper seq .uuid (Live ctx seq .uuid) (Act.get .fresh : Act δ String) :=
      fun s live => get_does (fun input s => rfl) live
    exact Does.mapped (durableValueAt_ends (fun s => rfl) rfl draws ctx.builtins.strings ready) fun row => rfl
  | random =>
    have draws : Draws ctx proper seq .random (Live ctx seq .random) (Act.get .random : Act δ Number) :=
      fun s live => get_does (fun input s => rfl) live
    exact Does.mapped (durableValueAt_ends (fun s => rfl) rfl draws ctx.builtins.floats ready) fun row => rfl
  | send destination topic message =>
    obtain ⟨v, rfl⟩ := encoded_of_prepared prepared
    exact Does.mapped (sendRows_ends clear (fun s => rfl) rfl _ ready) fun row => map_const _ _
  | sendBulk messages =>
    cases rows : prepareBulk messages with
    | ok sent =>
      simp only [Op.run, rows, ofExcept_bind]
      exact Does.mapped (sendRows_ends clear (fun s => rfl) rfl sent ready) fun row => map_const _ _
    | error e =>
      simp only [Op.prepare, rows] at prepared
      cases prepared
  | setWorkflowAttributes id attributes =>
    exact Does.mapped (setWorkflowAttributes_ends clear (fun s => rfl) rfl id attributes ready) fun row => map_const _ _
  | recv topic timeout codec =>
    have served : Does ctx proper seq _ _ (ctx.recv rounds seq topic timeout codec) s :=
      recv_served (fun s => rfl) rfl rfl rounds topic timeout codec ready
    exact Does.mapped (served.mono fun _ _ held => .inl held) fun row => rfl
  | setEvent key value =>
    obtain ⟨v, rfl⟩ := encoded_of_prepared prepared
    exact Does.mapped (setEvent_ends (fun s => rfl) rfl key v ready) fun row => map_const _ _
  | getEvent target key timeout codec =>
    have served : Does ctx proper seq _ _ (ctx.getEvent rounds seq target key timeout codec) s :=
      getEvent_served (fun s => rfl) rfl rfl rounds target key (fun input s fits => clear input s _ fits) timeout codec
        ready
    exact Does.mapped (served.mono fun _ _ held => .inl held) fun row => rfl
  | writeStream key value =>
    obtain ⟨v, rfl⟩ := encoded_of_prepared prepared
    exact Does.mapped (appendStream_ends (fun s => rfl) rfl (some v) ready) fun row => map_const _ _
  | closeStream key => exact Does.mapped (appendStream_ends (fun s => rfl) rfl none ready) fun row => map_const _ _
  | startWorkflow name input opts =>
    obtain ⟨v, rfl⟩ := encoded_of_prepared prepared
    exact Does.mapped (startWorkflow_ends rfl v (fun s => rfl) ready) fun row => replay_startWorkflow ..

end Calls

end Durare.Execution

import Durare.Execution
import Durare.Mailbox
import Durare.WriteOnce

/-! What one call does to the mailbox, and what a receiver may count on while rivals, senders and crashes interfere. -/
namespace Durare.Delivery

open Interaction Memory Execution WriteOnce

structure Receipt where
  workflowId : String
  seq : Int
  topic : String
deriving DecidableEq, Repr

def Receipt.position (receipt : Receipt) : String × Int := (receipt.workflowId, receipt.seq)

/-- What a call consumed: one receipt when a consumption wrote the row at its position. -/
def receiptsOf (before after : Inner) : Call → List Receipt
  | .consumeNotification id topic seq _ =>
    if before.steps.get (id, seq) = none ∧ (after.steps.get (id, seq)).isSome then [⟨id, seq, topic⟩] else []
  | _ => []

/-- The notification is for the receiver and the topic of the receipt, and the row is the
`recv` that holds its message. -/
structure Fits (receipt : Receipt) (n : NotificationRow) (row : StepRow) : Prop where
  destination : n.destinationId = receipt.workflowId
  topic : n.topic = receipt.topic
  name : row.name = "DBOS.recv"
  succeeded : row.error = none
  message : row.output = some n.message

/-- The same notification, consumed or not, and never again unconsumed. -/
def Later (n n' : NotificationRow) : Prop :=
  n' = { n with consumed := n'.consumed } ∧ (n.consumed = true → n'.consumed = true)

theorem Later.refl (n : NotificationRow) : Later n n := ⟨rfl, id⟩

theorem Later.trans (a b c : NotificationRow) (first : Later a b) (second : Later b c) : Later a c := by
  obtain ⟨same, kept⟩ := first
  obtain ⟨same', kept'⟩ := second
  refine ⟨?_, kept' ∘ kept⟩
  rw [same', same]

def consume (n : NotificationRow) : NotificationRow := { n with consumed := true }

/-- A notification as a send at `now` stores it. -/
def New (now : DateTime) (n : NotificationRow) : Prop := n.consumed = false ∧ n.createdAtMs = now.timestampMillis

theorem acceptNotifications_appends (now : DateTime) (rows : List (NotificationInsert × String))
    (sent : List NotificationRow) :
    ∃ fresh, acceptNotifications now rows sent = sent ++ fresh ∧ ∀ n ∈ fresh, New now n := by
  induction rows generalizing sent with
  | nil => exact ⟨[], by simp [acceptNotifications], by simp⟩
  | cons row rows ih =>
    obtain ⟨fresh, appended, waiting⟩ := ih (acceptNotification now row.1 row.2 sent)
    have unfolded : acceptNotifications now (row :: rows) sent =
        acceptNotification now row.1 row.2 sent ++ fresh := appended
    rw [unfolded]
    unfold acceptNotification
    split
    · exact ⟨fresh, rfl, waiting⟩
    · refine ⟨_ :: fresh, by rw [List.append_assoc]; rfl, ?_⟩
      intro n member
      rcases List.mem_cons.mp member with rfl | later
      · exact ⟨rfl, rfl⟩
      · exact waiting n later

theorem pushNotifications_appends (now : DateTime) (rows : List (NotificationInsert × String)) (s : Inner) :
    ∃ fresh, (pushNotifications now rows s).2.notifications = s.notifications ++ fresh ∧ ∀ n ∈ fresh, New now n := by
  unfold pushNotifications
  split
  · exact ⟨[], by simp, by simp⟩
  · exact acceptNotifications_appends now rows s.notifications

theorem importWorkflow_notifications (lib : SerdeJson) (now : DateTime) (wfs : List ExportedWorkflow) (s : Inner) :
    (importWorkflow lib now wfs s).2.notifications = s.notifications := by
  have all : ∀ wfs s, (importAll lib now wfs s).2.notifications = s.notifications := by
    intro wfs
    induction wfs with
    | nil => exact fun _ => rfl
    | cons wf wfs ih =>
      intro s
      obtain ⟨-, -, mail⟩ := importOne_frame lib now wf s
      rw [importAll]
      split
      next ending => rw [ending] at mail; exact mail
      next s' ending => rw [ending] at mail; exact (ih s').trans mail
  unfold importWorkflow
  split
  · rfl
  · exact all wfs s

theorem forkWorkflow_notifications (now : DateTime) (params : ForkParams) (timeoutMs : Option Int) (s : Inner) :
    (forkWorkflowWithTimeout now params timeoutMs s).2.notifications = s.notifications := by
  unfold forkWorkflowWithTimeout
  split
  · rfl
  · split
    · rfl
    · simp

theorem mem_oldest {id topic : String} {sent : List NotificationRow} {n : NotificationRow} {place : Nat}
    (found : oldest id topic sent = some (n, place)) :
    sent[place]? = some n ∧ n.consumed = false ∧ n.destinationId = id ∧ n.topic = topic := by
  have member := mem_of_minBy _ found
  obtain ⟨listed, waits⟩ := List.mem_filter.mp member
  simp only [awaiting, Bool.and_eq_true, Bool.not_eq_true', beq_iff_eq] at waits
  exact ⟨List.mem_zipIdx_iff_getElem?.mp listed, waits.1.1, waits.1.2, waits.2⟩

/-- A call that consumed: it found its position vacant, took a notification that waited for
it, and recorded the message there. -/
structure Took (name : String) (receipt : Receipt) (s s' : Inner) (place : Nat) (n : NotificationRow) : Prop where
  vacant : s.steps.get receipt.position = none
  here : s.notifications[place]? = some n
  waiting : n.consumed = false
  destination : n.destinationId = receipt.workflowId
  topic : n.topic = receipt.topic
  mail : s'.notifications = s.notifications.modify place consume
  row : ∃ row, s'.steps.get receipt.position = some row ∧ row.name = name ∧ row.error = none ∧
    row.output = some n.message

theorem consumeNotification_took (lib : SerdeJson) (now : DateTime) (id topic : String) (seq : Int) (name : String)
    (s : Inner) :
    ((consumeNotification lib now id topic seq name s).2 = s) ∨
      ∃ place n, Took name ⟨id, seq, topic⟩ s (consumeNotification lib now id topic seq name s).2 place n := by
  unfold consumeNotification
  obtain ⟨row, -, -, found⟩ | ⟨row, -, -, found⟩ | ⟨vacant, found⟩ := recordedAt_eq id seq name s
  · rw [found]; exact .inl rfl
  · rw [found]; exact .inl rfl
  · rw [found]
    dsimp only
    cases waiting : oldest id topic s.notifications with
    | none => exact .inl rfl
    | some first =>
      obtain ⟨n, place⟩ := first
      obtain ⟨here, unread, destination, same⟩ := mem_oldest waiting
      refine .inr ⟨place, n, vacant, here, unread, destination, same, rfl, ?_⟩
      have stored : (checkpoint now id seq name n.message
          { s with notifications := s.notifications.modify place consume }).steps.get (id, seq) = some
            { name := name, output := some n.message, completedAtMs := some now.timestampMillis } := by
        simp [checkpoint]
      exact ⟨_, stored, rfl, rfl, rfl⟩

/-- The calls that send or consume messages, and the one that removes them. -/
def mails : Call → Bool
  | .insertNotification _ _ | .insertNotifications _ | .sendFromWorkflow _ _ _ _ | .consumeNotification _ _ _ _
  | .deleteWorkflows _ _ => true
  | _ => false

theorem step_mail_same (lib : SerdeJson) (now : DateTime) (call : Call) (s : Inner) (other : mails call = false) :
    (step lib s (now, call)).notifications = s.notifications := by
  cases call with
  | consumeNotification | insertNotification | insertNotifications | sendFromWorkflow | deleteWorkflows => cases other
  | forkWorkflowWithTimeout params timeoutMs => exact forkWorkflow_notifications ..
  | importWorkflow wfs => exact importWorkflow_notifications ..
  | resumeWorkflows ids => exact (resumeWorkflows_frame now ids s).2
  | writeStream id key value => exact (appendStream_fields id key value s).2.2
  | writeStreamFromWorkflow id seq name key value =>
    obtain ⟨-, -, mail⟩ := appendStream_fields id key value s
    simp only [step, exec, writeStreamFromWorkflow]
    split
    · rfl
    · rfl
    · split
      next pushed => rw [pushed] at mail; exact mail
      next pushed => rw [pushed] at mail; exact mail
  | recordStepResult id seq name value error startedAtMs executor =>
    simp only [step, exec, recordStepResult]
    split
    · split
      · rfl
      · split <;> rfl
    · simp
  | insertChildWorkflow child parent seq returnExisting =>
    simp only [step, exec, insertChildWorkflow]
    repeat' split
    all_goals rfl
  | _ =>
    simp only [step, exec, insertWorkflowStatus, getDeduplicatedWorkflow, getWorkflowStatus, setWorkflowStatus,
      getStepResult, dequeueWorkflows, transitionDelayedWorkflows, upsertEvent, getEventValue, resumeWorkflow,
      enqueueExisting, cancelWorkflowsWithOptions, setWorkflowDelay, setWorkflowAttributes, claimForRecovery,
      recordChildWorkflow, checkChildWorkflow, getStepName, recordPatch, createApplicationVersion,
      setLatestApplicationVersion, Inner.insertStep, Inner.putStep, Inner.putRow]
    repeat' split
    all_goals rfl

/-- Every call but a deletion appends waiting notifications, or consumes one. -/
theorem step_mail (lib : SerdeJson) (now : DateTime) (call : Call) (s : Inner)
    (notDelete : ∀ ids children, call ≠ .deleteWorkflows ids children) :
    (receiptsOf s (step lib s (now, call)) call = [] ∧
      ∃ fresh, (step lib s (now, call)).notifications = s.notifications ++ fresh ∧ ∀ n ∈ fresh, New now n) ∨
    ∃ id topic seq name place n, call = .consumeNotification id topic seq name ∧
      receiptsOf s (step lib s (now, call)) call = [⟨id, seq, topic⟩] ∧
      Took name ⟨id, seq, topic⟩ s (step lib s (now, call)) place n := by
  have quiet : ∀ {call : Call}, receiptsOf s (step lib s (now, call)) call = [] →
      (step lib s (now, call)).notifications = s.notifications →
      receiptsOf s (step lib s (now, call)) call = [] ∧
        ∃ fresh, (step lib s (now, call)).notifications = s.notifications ++ fresh ∧ ∀ n ∈ fresh, New now n :=
    fun none same => ⟨none, [], by rw [same, List.append_nil], by simp⟩
  cases call with
  | consumeNotification id topic seq name =>
    obtain same | ⟨place, n, took⟩ := consumeNotification_took lib now id topic seq name s
    · left
      refine quiet ?_ (by rw [step, exec, same])
      rw [step, exec, same, receiptsOf, if_neg]
      rintro ⟨vacant, present⟩
      rw [vacant] at present
      cases present
    · obtain ⟨row, stored, -⟩ := took.row
      refine .inr ⟨id, topic, seq, name, place, n, rfl, ?_, took⟩
      exact if_pos ⟨took.vacant, Option.isSome_iff_exists.mpr ⟨row, stored⟩⟩
  | insertNotification row fresh => exact .inl ⟨rfl, pushNotifications_appends now [(row, fresh)] s⟩
  | insertNotifications rows => exact .inl ⟨rfl, pushNotifications_appends now rows s⟩
  | sendFromWorkflow id seq name rows =>
    obtain ⟨fresh, appended, waiting⟩ := pushNotifications_appends now rows s
    obtain ⟨row, -, -, found⟩ | ⟨row, -, -, found⟩ | ⟨vacant, found⟩ := recordedAt_eq id seq name s
    · exact .inl (quiet rfl (by simp [step, exec, sendFromWorkflow, found]))
    · exact .inl (quiet rfl (by simp [step, exec, sendFromWorkflow, found]))
    · refine .inl ⟨rfl, fresh, ?_, waiting⟩
      simp only [step, exec, sendFromWorkflow, found]
      split
      next pushed => rw [pushed] at appended; exact appended
      next pushed => rw [pushed] at appended; exact appended
  | deleteWorkflows ids deleteChildren => exact absurd rfl (notDelete ids deleteChildren)
  | _ => exact .inl (quiet rfl (step_mail_same lib now _ s rfl))

section Receivers

variable {δ α β : Type} {lib : SerdeJson} {ctx : Context} {seq : Int}

/-- Rivals may do anything that keeps the recorded steps; the latch is the execution's own and
may hold anything. -/
def rivals (δ : Type) (lib : SerdeJson) : World Inner Ask (Ask.Reply δ) where
  rely := StepsKept
  serves q s reply s' := ∃ input latch latch', answer lib input q (s, latch) = (reply, (s', latch'))
  refl _ _ _ stored := stored
  trans := StepsKept.trans

/-- The provider calls `recv` makes. -/
def receives : Call → Bool
  | .getStepResult _ _ | .getWorkflowStatus _ | .recordStepResult _ _ _ _ _ _ _ => true
  | .consumeNotification _ _ _ name => name == "DBOS.recv"
  | _ => false

/-- The operation makes only the calls of a `recv`, and a result it returns meets `post`. -/
def Sure (lib : SerdeJson) (post : α → Inner → Prop) (act : Act δ α) (s : Inner) : Prop :=
  Safe (rivals δ lib) (fun q _ _ => ∀ c, q = .call c → receives c = true)
    (fun result s => ∀ a, result = .ok a → post a s) act s

theorem Sure.bind {post : α → Inner → Prop} {goal : β → Inner → Prop} {act : Act δ α} {f : α → Act δ β} {s : Inner}
    (first : Sure lib post act s) (rest : ∀ a s, post a s → Sure lib goal (f a) s) : Sure lib goal (act >>= f) s := by
  refine Safe.bind first ?_
  intro result s reached
  cases result with
  | ok a => exact rest a s (reached a rfl)
  | error e => exact fun _ _ _ same => nomatch same

theorem Sure.pure {post : α → Inner → Prop} {a : α} {s : Inner} (holds : ∀ s', StepsKept s s' → post a s') :
    Sure lib post (Pure.pure a : Act δ α) s := by
  intro s' kept b same
  cases same
  exact holds s' kept

theorem Sure.throw {post : α → Inner → Prop} (e : Error) (s : Inner) :
    Sure lib post (Act.throw e : Act δ α) s := fun _ _ _ same => nomatch same

theorem Sure.get {q : Ask} (call : ∀ c, q = .call c → receives c = true) (s : Inner) :
    Sure lib (fun _ _ => True) (Act.get q : Act δ (q.Reply δ)) s :=
  fun _ _ _ _ _ => ⟨call, fun _ _ _ _ => trivial⟩

theorem record_sure {post : α → Inner → Prop} (e : Error) (s : Inner) :
    Sure lib post (Context.record e : Act δ α) s := by
  unfold Context.record Context.interrupt
  split
  · exact Sure.bind (Sure.get (q := .interrupt e.cause) (fun c same => nomatch same) s) fun first s _ => Sure.throw first s
  · exact Sure.throw e s

theorem storage_sure {post : α → Inner → Prop} {result : Except Error α} {s : Inner}
    (holds : ∀ a, result = .ok a → ∀ s', StepsKept s s' → post a s') :
    Sure lib post (Context.storage result : Act δ α) s := by
  cases result with
  | ok a => exact Sure.pure (holds a rfl)
  | error e => exact record_sure e s

theorem storage_any (result : Except Error α) (s : Inner) :
    Sure lib (fun _ _ => True) (Context.storage result : Act δ α) s := storage_sure fun _ _ _ _ => trivial

/-- A call of the provider: what it replies, and what still holds when it has. -/
theorem call_sure {c : Call} {post : c.Reply → Inner → Prop} {s : Inner} (call : receives c = true)
    (replies : ∀ s', StepsKept s s' → ∀ now reply s'', exec lib now c s' = (.ok reply, s'') →
      ∀ t, StepsKept s'' t → post reply t) : Sure lib post (Context.call c : Act δ c.Reply) s := by
  rintro s' kept reply s'' ⟨input, latch, latch', answered⟩
  refine ⟨fun _ same => by cases same; exact call, ?_⟩
  simp only [answer, Prod.mk.injEq] at answered
  obtain ⟨rfl, rfl, -⟩ := answered
  refine storage_sure ?_
  intro a same t later
  exact replies s' kept input.now a _ (Prod.ext same rfl) t later

theorem call_any {c : Call} {s : Inner} (call : receives c = true) :
    Sure lib (fun _ _ => True) (Context.call c : Act δ c.Reply) s :=
  call_sure call fun _ _ _ _ _ _ _ _ => trivial

theorem check_any (s : Inner) : Sure lib (fun _ _ => True) (Context.check : Act δ Unit) s := by
  refine Sure.bind (Sure.get (q := .check) (fun c same => nomatch same) s) ?_
  intro latch s _
  cases latch with
  | ok u => exact Sure.pure fun _ _ => trivial
  | error e => exact Sure.throw e s

def Reads (w : String) (seq : Int) (name : String) (value : Value) (s : Inner) : Prop :=
  ∃ row, s.steps.get (w, seq) = some row ∧ row.name = name ∧ row.error = none ∧ row.output.getD .null = value

theorem Reads.later {w name : String} {value : Value} {s s' : Inner} (reads : Reads w seq name value s)
    (kept : StepsKept s s') : Reads w seq name value s' := by
  obtain ⟨row, stored, rest⟩ := reads
  exact ⟨row, kept _ _ stored, rest⟩

theorem output_of_outcome {row : StepRow} {value : Value} (outcome : stepRowOutcome lib row = .output value) :
    row.error = none ∧ row.output.getD .null = value := by
  unfold stepRowOutcome at outcome
  cases failed : row.error with
  | some text => rw [failed] at outcome; cases outcome
  | none => rw [failed] at outcome; cases outcome; exact ⟨rfl, rfl⟩

theorem recordedValue_sure (codec : Codec α) (outcome : StepOutcome) {P : Value → Inner → Prop} {s : Inner}
    (holds : ∀ value, outcome = .output value → ∀ s', StepsKept s s' → P value s') :
    Sure lib (fun a s => ∃ value, codec.fromValue value = .ok a ∧ P value s)
      (ctx.recordedValue codec outcome : Act δ α) s := by
  cases outcome with
  | output value =>
    intro s' kept a same
    cases read : codec.fromValue value with
    | ok b =>
      rw [read] at same
      cases same
      exact ⟨value, read, holds value rfl s' kept⟩
    | error e => rw [read] at same; cases same
  | failure message info =>
    exact Sure.bind (storage_any (tryFromParts ctx.lib message info) s) fun e s _ => Sure.throw e s

theorem serveRecorded_sure (name : String) (codec : Codec α) (s : Inner) :
    Sure lib (fun found s => ∀ a, found = some a →
        ∃ value, codec.fromValue value = .ok a ∧ Reads ctx.workflowId seq name value s)
      (ctx.serveRecorded seq name codec : Act δ (Option α)) s := by
  have read : Sure lib (fun found s => ∀ step, found = some step → ∀ value, step.outcome = .output value →
      Reads ctx.workflowId seq step.name value s)
      (Context.call (.getStepResult ctx.workflowId seq) : Act δ (Option RecordedStep)) s := by
    refine call_sure rfl ?_
    intro s' _ now reply s'' done t later step same value output
    simp only [exec, getStepResult, Prod.mk.injEq, Except.ok.injEq] at done
    obtain ⟨rfl, rfl⟩ := done
    obtain ⟨row, stored, rfl⟩ := Option.map_eq_some_iff.mp same
    exact ⟨row, later _ _ stored, rfl, output_of_outcome output⟩
  refine Sure.bind read ?_
  intro found s known
  cases found with
  | none =>
    apply Sure.pure
    intro _ _ _ same
    cases same
  | some step =>
    have passed : Sure lib (fun _ s => step.name = name ∧ ∀ value, step.outcome = .output value →
        Reads ctx.workflowId seq step.name value s) (ctx.checkRecorded seq name step.name : Act δ Unit) s := by
      unfold Context.checkRecorded
      split
      · exact Sure.throw _ s
      next same =>
        exact Sure.pure fun s' kept =>
          ⟨by simpa using same, fun value output => (known step rfl value output).later kept⟩
    refine Sure.bind passed ?_
    rintro - s ⟨same, reads⟩
    refine Sure.bind (recordedValue_sure codec step.outcome (P := Reads ctx.workflowId seq name) ?_) ?_
    · intro value output s' kept
      exact same ▸ (reads value output).later kept
    · rintro a s ⟨value, decoded, here⟩
      refine Sure.pure ?_
      rintro s' kept b same
      cases same
      exact ⟨value, decoded, here.later kept⟩

theorem Sure.forget {post : α → Inner → Prop} {act : Act δ α} {s : Inner} (sure : Sure lib post act s) :
    Sure lib (fun _ _ => True) act s := Safe.mono sure fun _ _ _ _ _ => trivial

theorem guardCancelled_any (s : Inner) : Sure lib (fun _ _ => True) (ctx.guardCancelled : Act δ Unit) s := by
  refine Sure.bind (call_any rfl) ?_
  intro found s _
  cases found with
  | none => exact Sure.pure fun _ _ => trivial
  | some status =>
    dsimp only
    split
    · exact Sure.throw _ s
    · exact Sure.pure fun _ _ => trivial

theorem replayOrGuard_sure (name : String) (codec : Codec α) (s : Inner) :
    Sure lib (fun found s => ∀ a, found = some a →
        ∃ value, codec.fromValue value = .ok a ∧ Reads ctx.workflowId seq name value s)
      (ctx.replayOrGuard seq name codec : Act δ (Option α)) s := by
  refine Sure.bind (serveRecorded_sure name codec s) ?_
  intro found s known
  cases found with
  | some a =>
    refine Sure.pure ?_
    rintro s' kept b same
    cases same
    obtain ⟨value, decoded, here⟩ := known a rfl
    exact ⟨value, decoded, here.later kept⟩
  | none => exact Sure.bind (guardCancelled_any s) fun _ s _ => Sure.pure fun _ _ _ same => nomatch same

theorem writeStepOutcome_any (name : String) (value : Value) (error : Option String) (startedAtMs : Option Int)
    (codec : Codec α) (s : Inner) :
    Sure lib (fun _ _ => True) (ctx.writeStepOutcome seq name value error startedAtMs codec : Act δ α) s :=
  Sure.bind (call_any rfl) fun outcome _ _ =>
    (recordedValue_sure codec outcome (P := fun _ _ => True) fun _ _ _ _ => trivial).forget

theorem recordFailure_any (name : String) (error : Error) (startedAtMs : Option Int) (codec : Codec α) (s : Inner) :
    Sure lib (fun _ _ => True) (ctx.recordFailure seq name error startedAtMs codec : Act δ α) s := by
  refine Sure.bind (check_any s) fun _ s _ => ?_
  refine Sure.bind (storage_any (encodeError ctx.lib ctx.serializer error) s) fun encoded s _ => ?_
  exact writeStepOutcome_any name .null (some encoded) startedAtMs codec s

theorem deadlineOf_any (timeout : Duration) (deadline : Option DateTime) (s : Inner) :
    Sure lib (fun _ _ => True) (ctx.deadlineOf seq timeout deadline : Act δ DateTime) s := by
  have asks : ∀ {q : Ask}, q.provider = none → ∀ c, q = .call c → receives c = true := by
    rintro q none c rfl
    cases none
  have produces : ∀ s, Sure lib (fun _ _ => True) (Context.wakeInstant timeout : Act δ DateTime) s := by
    intro s
    refine Sure.bind (Sure.get (q := .now) (asks rfl) s) fun now s _ => ?_
    generalize now + (if timeout ≤ (2 ^ 63 - 1) * 1000000 then (timeout : Int) else 0) = wake
    dsimp only
    split
    · trivial
    · exact Sure.pure fun _ _ => trivial
  cases deadline with
  | some deadline => exact Sure.pure fun _ _ => trivial
  | none =>
    refine Sure.bind (serveRecorded_sure "DBOS.sleep" ctx.builtins.instants s) fun found s _ => ?_
    cases found with
    | some value => exact Sure.pure fun _ _ => trivial
    | none =>
      refine Sure.bind (produces s) fun value s _ => ?_
      refine Sure.bind (check_any s) fun _ s _ => ?_
      split
      next encoded _ => exact writeStepOutcome_any "DBOS.sleep" encoded none none ctx.builtins.instants s
      next message _ => exact recordFailure_any "DBOS.sleep" (.serde message) none ctx.builtins.instants s

/-- What a `recv` that returned leaves: its row, with the message it returned, or a row that
reads as null when it returned none. -/
def Settled (w : String) (seq : Int) (codec : Codec δ) (found : Option δ) (s : Inner) : Prop :=
  ∃ value, codec.optional.fromValue value = .ok found ∧ Reads w seq "DBOS.recv" value s

theorem Settled.later {w : String} {codec : Codec δ} {found : Option δ} {s s' : Inner}
    (settled : Settled w seq codec found s) (kept : StepsKept s s') : Settled w seq codec found s' := by
  obtain ⟨value, decoded, here⟩ := settled
  exact ⟨value, decoded, here.later kept⟩

theorem consumption_reads {w topic : String} {s s' t : Inner} {now : DateTime} {message : Value}
    (done : exec lib now (.consumeNotification w topic seq "DBOS.recv") s = (.ok (some message), s'))
    (later : StepsKept s' t) : Reads w seq "DBOS.recv" message t := by
  simp only [exec, consumeNotification] at done
  obtain ⟨row, -, -, found⟩ | ⟨row, stored, named, found⟩ | ⟨vacant, found⟩ := recordedAt_eq w seq "DBOS.recv" s
  · rw [found] at done; cases done
  · rw [found] at done
    simp only [Prod.mk.injEq] at done
    obtain ⟨reply, rfl⟩ := done
    cases outcome : stepRowOutcome lib row with
    | failure message info => rw [outcome] at reply; cases reply
    | output value =>
      rw [outcome] at reply
      cases reply
      exact ⟨row, later _ _ stored, named, output_of_outcome outcome⟩
  · rw [found] at done
    dsimp only at done
    cases waiting : oldest w topic s.notifications with
    | none => rw [waiting] at done; cases done
    | some first =>
      rw [waiting] at done
      cases done
      refine ⟨{ name := "DBOS.recv", output := some first.1.message, completedAtMs := some now.timestampMillis },
        later _ _ ?_, rfl, rfl, rfl⟩
      simp [checkpoint]

/-- A timeout that is recorded or adopted leaves a null row. -/
theorem timeout_reads {w executor : String} {s s' t : Inner} {now : DateTime} {outcome : StepOutcome}
    (done : exec lib now (.recordStepResult w seq "DBOS.recv" .null none none (some executor)) s = (.ok outcome, s'))
    (later : StepsKept s' t) : Reads w seq "DBOS.recv" .null t := by
  simp only [exec, recordStepResult] at done
  cases present : s.steps.get (w, seq) with
  | none =>
    rw [present] at done
    cases done
    refine ⟨checkpointRow now "DBOS.recv" .null none none, later _ _ ?_, rfl, rfl, rfl⟩
    simp
  | some row =>
    rw [present] at done
    dsimp only at done
    split at done
    · cases done
    next named =>
      split at done
      next same =>
        cases done
        simp only [sameWrite, checkpointRow, Bool.and_eq_true, beq_iff_eq] at same
        obtain ⟨⟨output, error⟩, -⟩ := same
        refine ⟨row, later _ _ present, by simpa using named, error, ?_⟩
        cases content : row.output with
        | none => rfl
        | some value =>
          rw [content] at output
          cases value <;> first | rfl | cases output
      · cases done

theorem recvLoop_sure (topic : String) (timeout : Duration) (codec : Codec δ) (rounds : Nat)
    (deadline : Option DateTime) (s : Inner) :
    Sure lib (Settled ctx.workflowId seq codec) (ctx.recvLoop seq topic timeout codec rounds deadline) s := by
  induction rounds generalizing deadline s with
  | zero => trivial
  | succ rounds ih =>
    have taken : Sure lib (fun found s => ∀ message, found = some message →
        Reads ctx.workflowId seq "DBOS.recv" message s)
        (Context.call (.consumeNotification ctx.workflowId topic seq "DBOS.recv") : Act δ (Option Value)) s := by
      refine call_sure rfl ?_
      rintro s' _ now reply s'' done t later message rfl
      exact consumption_reads done later
    refine Sure.bind taken fun found s known => ?_
    cases found with
    | some message =>
      exact recordedValue_sure codec.optional (.output message) fun value same s' kept => by
        cases same
        exact (known message rfl).later kept
    | none =>
      refine Sure.bind (deadlineOf_any timeout deadline s) fun deadline s _ => ?_
      refine Sure.bind (Sure.get (q := .now) (fun c same => nomatch same) s) fun now s _ => ?_
      split
      · have recorded : Sure lib (fun _ s => Reads ctx.workflowId seq "DBOS.recv" .null s)
            (ctx.recordStep seq "DBOS.recv" .null none none : Act δ StepOutcome) s :=
          call_sure rfl fun s' _ now reply s'' done t later => timeout_reads done later
        exact Sure.bind recorded fun _ s here => Sure.pure fun s' kept => ⟨.null, rfl, here.later kept⟩
      · exact Sure.bind (Sure.get (q := .wait) (fun c same => nomatch same) s) fun _ s _ => ih (some deadline) s

theorem recv_sure (rounds : Nat) (topic : String) (timeout : Duration) (codec : Codec δ) (s : Inner) :
    Sure lib (Settled ctx.workflowId seq codec) (ctx.recv rounds seq topic timeout codec) s := by
  refine Sure.bind (replayOrGuard_sure "DBOS.recv" codec.optional s) fun found s known => ?_
  cases found with
  | some stored => exact Sure.pure fun s' kept => Settled.later (known stored rfl) kept
  | none => exact recvLoop_sure topic timeout codec rounds none s

end Receivers

end Durare.Delivery

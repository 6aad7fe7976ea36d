import Durare.Receiving

/-! Messages are delivered once: rival receivers, senders and crashes in any order, and the
pairing between the consumed notifications and the rows that consumed them. -/
namespace Durare.Delivery

open Interaction Memory Execution WriteOnce

section Runs

variable {δ : Type} (lib : SerdeJson)

/-- A `recv` that some execution has begun: where it records, and what is left of it. -/
structure Receiver (δ : Type) where
  workflowId : String
  seq : Int
  codec : Codec δ
  rest : Client Ask (Ask.Reply δ) (Except Error (Option δ))

structure Returned (δ : Type) where
  workflowId : String
  seq : Int
  codec : Codec δ
  result : Except Error (Option δ)

/-- The provider, the receipts given so far, and the receivers: any number of executions of
any workflows, rivals at one position among them. -/
structure System (δ : Type) where
  store : Inner
  receipts : List Receipt
  receivers : List (Receiver δ)
  returned : List (Returned δ)

def System.new : System δ := ⟨Inner.new, [], [], []⟩

/-- Someone calls the provider, an execution begins a `recv`, one of them goes on by a step, or
its process dies. The latch is whatever the rest of that execution has put there. -/
inductive Event (δ : Type) where
  | call (now : DateTime) (call : Call)
  | recv (ctx : Context) (rounds : Nat) (seq : Int) (topic : String) (timeout : Duration) (codec : Codec δ)
  | tick (i : Nat) (input : Input δ) (latch : Option Error)
  | crash (i : Nat)

/-- The provider moved on by a call, and its receipt if it consumed. -/
def System.moved (sys : System δ) (store : Inner) (call : Option Call) : System δ :=
  { sys with
    store := store
    receipts := sys.receipts ++ (call.map (receiptsOf sys.store store)).getD [] }

def next (sys : System δ) : Event δ → System δ
  | .call now call => sys.moved (step lib sys.store (now, call)) (some call)
  | .recv ctx rounds seq topic timeout codec =>
    { sys with receivers :=
        sys.receivers ++ [⟨ctx.workflowId, seq, codec, ctx.recv rounds seq topic timeout codec⟩] }
  | .tick i input latch =>
    match sys.receivers[i]? with
    | none => sys
    | some r =>
      match r.rest with
      | .done result =>
        { sys with
          receivers := sys.receivers.eraseIdx i
          returned := sys.returned ++ [⟨r.workflowId, r.seq, r.codec, result⟩] }
      | .ask q k =>
        let (reply, store, _) := answer lib input q (sys.store, latch)
        { sys.moved store q.provider with receivers := sys.receivers.set i { r with rest := k reply } }
      | .halt => sys
  | .crash i => { sys with receivers := sys.receivers.eraseIdx i }

abbrev run (events : List (Event δ)) (sys : System δ) : System δ := Runs.run (next lib) events sys

/-- No deletion, and consumption is what `recv` does. -/
def admitted : Call → Bool
  | .deleteWorkflows _ _ => false
  | .consumeNotification _ _ _ name => name == "DBOS.recv"
  | _ => true

/-- The calls on the provider are admitted, a fork is refused or takes an unused id, and no id
that has steps is imported. -/
def Allowed (sys : System δ) : Event δ → Prop
  | .call now call => admitted call = true ∧ Fresh sys.store (now, call)
  | _ => True

instance (sys : System δ) : ∀ event, Decidable (Allowed sys event)
  | .call _ _ => inferInstanceAs (Decidable (_ ∧ _))
  | .recv .. | .tick .. | .crash _ => inferInstanceAs (Decidable True)

/-- Consumed notifications and the rows that consumed them correspond one to one, and every
`recv` that returned has its row: with the message it returned, or with nothing consumed but a
null message when it returned none. -/
structure Corresponds (sys : System δ) (place : Receipt → Nat) : Prop where
  onto : Set.BijOn place {receipt | receipt ∈ sys.receipts}
    {spot | ∃ n, sys.store.notifications[spot]? = some n ∧ n.consumed = true}
  pairs : ∀ receipt ∈ sys.receipts, ∃ n row, sys.store.notifications[place receipt]? = some n ∧
    sys.store.steps.get receipt.position = some row ∧ Fits receipt n row
  apart : Set.InjOn Receipt.position {receipt | receipt ∈ sys.receipts}
  received : ∀ r ∈ sys.returned, ∀ m, r.result = .ok (some m) → ∃ row value,
    sys.store.steps.get (r.workflowId, r.seq) = some row ∧ row.name = "DBOS.recv" ∧ row.error = none ∧
      row.output = some value ∧ r.codec.fromValue value = .ok m
  empty : ∀ r ∈ sys.returned, r.result = .ok none → ∀ receipt ∈ sys.receipts,
    receipt.position = (r.workflowId, r.seq) → ∀ n, sys.store.notifications[place receipt]? = some n →
      n.message = .null

/-- The rows a send carries to the mailbox: none when its position is already recorded. -/
def sends (s : Inner) : Call → List (NotificationInsert × String)
  | .insertNotification row fresh => [(row, fresh)]
  | .insertNotifications rows => rows
  | .sendFromWorkflow id seq _ rows => if (s.steps.get (id, seq)).isSome then [] else rows
  | _ => []

/-- The notification goes by the row's id and to its destination. -/
def Filed (row : NotificationInsert × String) (n : NotificationRow) : Prop :=
  n.messageUuid = messageUuid row.1 row.2 ∧ n.destinationId = row.1.destinationId

/-- The notification is the row's. Only a row whose key was sent to its destination before may
find another topic or message there: `sent` is the mailbox it was sent to. -/
def Stores (sent : List NotificationRow) (row : NotificationInsert × String) (n : NotificationRow) : Prop :=
  Filed row n ∧ (n.topic = row.1.topic ∧ n.message = row.1.message ∨
    row.1.idempotencyKey.isSome = true ∧ ∃ earlier ∈ sent, Filed row earlier)

/-- Everything a send that succeeded carried is in the mailbox at the end, and what was in the
mailbox at any time is there still, unconsumed or consumed. -/
structure Stored (events : List (Event δ)) : Prop where
  accepted : ∀ before now call after, events = before ++ .call now call :: after →
    (exec lib now call (run lib before System.new).store).1.isOk = true →
    ∀ first row rest, sends (run lib before System.new).store call = first ++ row :: rest →
      ∃ n ∈ (run lib events System.new).store.notifications,
        Stores (acceptNotifications now first (run lib before System.new).store.notifications) row n
  kept : ∀ before after, events = before ++ after → Mailbox.Kept Later
    (run lib before (System.new : System δ)).store.notifications (run lib events System.new).store.notifications

/-- A keyed row that finds its id in the mailbox finds it under its own destination. -/
def Apart (now : DateTime) : List NotificationRow → List (NotificationInsert × String) → Prop
  | _, [] => True
  | sent, row :: rows =>
    (row.1.idempotencyKey.isSome = true →
      ∀ n ∈ sent, n.messageUuid = messageUuid row.1 row.2 → n.destinationId = row.1.destinationId) ∧
    Apart now (acceptNotification now row.1 row.2 sent) rows

instance (now : DateTime) : ∀ sent rows, Decidable (Apart now sent rows)
  | _, [] => inferInstanceAs (Decidable True)
  | sent, row :: rows =>
    have := instDecidableApart now (acceptNotification now row.1 row.2 sent) rows
    inferInstanceAs (Decidable (_ ∧ _))

/-- No send that succeeds carries a key and a destination that join to the id of another pair. -/
def Uncollided (sys : System δ) : Event δ → Prop
  | .call now call =>
    (exec lib now call sys.store).1.isOk = true → Apart now sys.store.notifications (sends sys.store call)
  | _ => True

instance (sys : System δ) : ∀ event, Decidable (Uncollided lib sys event)
  | .call _ _ => inferInstanceAs (Decidable (_ → _))
  | .recv .. | .tick .. | .crash _ => inferInstanceAs (Decidable True)

variable {lib}

def Paired (s : Inner) (receipts : List Receipt) : Prop :=
  Mailbox.Matched (·.consumed) Receipt.position Fits s.notifications s.steps.get receipts

structure Inv (lib : SerdeJson) (sys : System δ) : Prop where
  paired : Paired sys.store sys.receipts
  receivers : ∀ r ∈ sys.receivers, Sure lib (Settled r.workflowId r.seq r.codec) r.rest sys.store
  returned : ∀ r ∈ sys.returned, ∀ found, r.result = .ok found →
    Settled r.workflowId r.seq r.codec found sys.store

theorem admitted_not_delete {call : Call} (ok : admitted call = true) :
    ∀ ids children, call ≠ .deleteWorkflows ids children := by
  rintro ids children rfl
  cases ok

/-- One admitted call keeps the pairing: a consumption adds its pair, every other call leaves
the consumed notifications and their rows alone. -/
theorem step_paired {s : Inner} {receipts : List Receipt} {now : DateTime} {call : Call} (ok : admitted call = true)
    (fresh : Fresh s (now, call)) (paired : Paired s receipts) :
    Paired (step lib s (now, call)) (receipts ++ receiptsOf s (step lib s (now, call)) call) := by
  have kept := step_stepsKept lib s (now, call) fresh (admitted_not_delete ok)
  obtain ⟨nothing, new, appended, waiting⟩ | ⟨id, topic, seq, name, place, n, rfl, one, took⟩ :=
    step_mail lib now call s (admitted_not_delete ok)
  · rw [Paired, nothing, List.append_nil, appended]
    exact (paired.sent fun n member => (waiting n member).1).kept kept
  · obtain rfl : name = "DBOS.recv" := by simpa [admitted] using ok
    obtain ⟨row, stored, named, succeeded, message⟩ := took.row
    rw [Paired, one, took.mail]
    exact paired.took took.here took.waiting rfl took.vacant kept stored
      ⟨took.destination, took.topic, named, succeeded, message⟩

theorem step_kept {s : Inner} {now : DateTime} {call : Call} (ok : admitted call = true) :
    Mailbox.Kept Later s.notifications (step lib s (now, call)).notifications := by
  obtain ⟨-, new, appended, -⟩ | ⟨id, topic, seq, name, place, n, -, -, took⟩ :=
    step_mail lib now call s (admitted_not_delete ok)
  · rw [appended]
    exact .append Later.refl _ _
  · rw [took.mail]
    exact .modify Later.refl consume _ _ fun _ _ => ⟨rfl, fun _ => rfl⟩

theorem receives_admitted {call : Call} (receiving : receives call = true) :
    admitted call = true ∧ ∀ (s : Inner) (now : DateTime), Fresh s (now, call) := by
  cases call <;> first
    | exact ⟨rfl, fun _ _ => trivial⟩
    | exact ⟨receiving, fun _ _ => trivial⟩
    | cases receiving

/-- Where an ask of a receiver leads. -/
theorem answer_moved {sys : System δ} {q : Ask} (receiving : ∀ c, q = .call c → receives c = true) (input : Input δ)
    (latch : Option Error) (paired : Paired sys.store sys.receipts) :
    let store := (answer lib input q (sys.store, latch)).2.1
    StepsKept sys.store store ∧ Mailbox.Kept Later sys.store.notifications store.notifications ∧
      Paired store (sys.moved store q.provider).receipts := by
  cases q with
  | call c =>
    obtain ⟨ok, fresh⟩ := receives_admitted (receiving c rfl)
    exact ⟨step_stepsKept lib sys.store (input.now, c) (fresh _ _) (admitted_not_delete ok), step_kept ok,
      step_paired ok (fresh _ _) paired⟩
  | now | fresh | random | body | race | wait | check | interrupt =>
    refine ⟨fun _ _ stored => stored, .refl Later.refl _, ?_⟩
    simpa [System.moved, Ask.provider, answer] using paired

theorem Inv.moved {sys : System δ} {store : Inner} {call : Option Call} (inv : Inv lib sys)
    (kept : StepsKept sys.store store) (paired : Paired store (sys.moved store call).receipts) :
    Inv lib (sys.moved store call) where
  paired := paired
  receivers r member := Safe.later (inv.receivers r member) kept
  returned r member found same := (inv.returned r member found same).later kept

/-- What one event keeps: the invariant, and every notification at its place. -/
theorem next_inv (sys : System δ) (event : Event δ) (allowed : Allowed sys event) (inv : Inv lib sys) :
    Inv lib (next lib sys event) ∧
      Mailbox.Kept Later sys.store.notifications (next lib sys event).store.notifications := by
  have still := Mailbox.Kept.refl Later.refl sys.store.notifications
  cases event with
  | call now call =>
    obtain ⟨ok, fresh⟩ := allowed
    have kept := step_stepsKept lib sys.store (now, call) fresh (admitted_not_delete ok)
    exact ⟨inv.moved kept (step_paired ok fresh inv.paired), step_kept ok⟩
  | recv ctx rounds seq topic timeout codec =>
    refine ⟨⟨inv.paired, ?_, inv.returned⟩, still⟩
    intro r member
    rcases List.mem_append.mp member with old | last
    · exact inv.receivers r old
    · obtain rfl : r = _ := List.mem_singleton.mp last
      exact recv_sure rounds topic timeout codec sys.store
  | crash i =>
    exact ⟨⟨inv.paired, fun r member => inv.receivers r (List.mem_of_mem_eraseIdx member), inv.returned⟩, still⟩
  | tick i input latch =>
    cases found : sys.receivers[i]? with
    | none =>
      simp only [next, found]
      exact ⟨inv, still⟩
    | some r =>
      have sure := inv.receivers r (List.mem_of_getElem? found)
      cases rest : r.rest with
      | halt =>
        simp only [next, found, rest]
        exact ⟨inv, still⟩
      | done result =>
        rw [rest] at sure
        simp only [next, found, rest]
        refine ⟨⟨inv.paired, fun r member => inv.receivers r (List.mem_of_mem_eraseIdx member), ?_⟩, still⟩
        intro r' member found same
        rcases List.mem_append.mp member with old | last
        · exact inv.returned r' old found same
        · obtain rfl : r' = _ := List.mem_singleton.mp last
          exact Safe.result sure found same
      | ask q k =>
        rw [rest] at sure
        obtain ⟨receiving, later⟩ := Safe.served sure ⟨input, latch, _, rfl⟩
        obtain ⟨kept, mail, paired⟩ := answer_moved receiving input latch inv.paired
        have moved := inv.moved kept paired
        simp only [next, found, rest]
        refine ⟨⟨moved.paired, ?_, moved.returned⟩, mail⟩
        intro r' member
        rcases List.mem_or_eq_of_mem_set member with old | rfl
        · exact moved.receivers r' old
        · exact later

theorem Inv.new : Inv lib (System.new : System δ) where
  paired := .empty _
  receivers := fun _ member => nomatch member
  returned := fun _ member => nomatch member

theorem run_inv {events : List (Event δ)} (allowed : Runs.Along (next lib) Allowed events System.new) :
    Inv lib (run lib events System.new) :=
  Runs.invariant (fun sys event ok inv => (next_inv sys event ok inv).1) allowed Inv.new

theorem run_kept {sys : System δ} {events : List (Event δ)} (inv : Inv lib sys)
    (allowed : Runs.Along (next lib) Allowed events sys) :
    Mailbox.Kept Later sys.store.notifications (run lib events sys).store.notifications :=
  Runs.moves (R := fun a b => Mailbox.Kept Later a.store.notifications b.store.notifications)
    (fun _ => .refl Later.refl _) (fun _ _ _ => Mailbox.Kept.trans Later.trans)
    (fun sys event ok inv => (next_inv sys event ok inv).1) (fun sys event ok inv => (next_inv sys event ok inv).2)
    allowed inv

theorem Stores.later {sent : List NotificationRow} {row : NotificationInsert × String} {n n' : NotificationRow}
    (stores : Stores sent row n) (moved : Later n n') : Stores sent row n' := by
  rw [moved.1]
  exact stores

theorem acceptNotification_stores {now : DateTime} {row : NotificationInsert × String}
    {sent : List NotificationRow} (apart : row.1.idempotencyKey.isSome = true →
      ∀ n ∈ sent, n.messageUuid = messageUuid row.1 row.2 → n.destinationId = row.1.destinationId) :
    ∃ n ∈ acceptNotification now row.1 row.2 sent, Stores sent row n := by
  unfold acceptNotification
  split
  next again =>
    simp only [alreadySent, Bool.and_eq_true, List.any_eq_true, beq_iff_eq] at again
    obtain ⟨keyed, n, member, same⟩ := again
    have filed : Filed row n := ⟨same, apart keyed n member same⟩
    exact ⟨n, member, filed, .inr ⟨keyed, n, member, filed⟩⟩
  next => exact ⟨_, List.mem_append_right _ (List.mem_singleton.mpr rfl), ⟨rfl, rfl⟩, .inl ⟨rfl, rfl⟩⟩

theorem acceptNotifications_stores {now : DateTime} {first rest : List (NotificationInsert × String)}
    {row : NotificationInsert × String} {sent : List NotificationRow}
    (apart : Apart now sent (first ++ row :: rest)) :
    ∃ n ∈ acceptNotifications now (first ++ row :: rest) sent, Stores (acceptNotifications now first sent) row n := by
  induction first generalizing sent with
  | nil =>
    obtain ⟨n, here, stores⟩ := acceptNotification_stores apart.1
    obtain ⟨fresh, appended, -⟩ := acceptNotifications_appends now rest (acceptNotification now row.1 row.2 sent)
    have unfolded : acceptNotifications now (row :: rest) sent =
        acceptNotification now row.1 row.2 sent ++ fresh := appended
    refine ⟨n, ?_, stores⟩
    rw [List.nil_append, unfolded]
    exact List.mem_append_left _ here
  | cons _ first ih => exact ih apart.2

theorem pushNotifications_stores {now : DateTime} {first rest : List (NotificationInsert × String)}
    {row : NotificationInsert × String} {s : Inner}
    (ok : (pushNotifications now (first ++ row :: rest) s).1.isOk = true)
    (apart : Apart now s.notifications (first ++ row :: rest)) :
    ∃ n ∈ (pushNotifications now (first ++ row :: rest) s).2.notifications,
      Stores (acceptNotifications now first s.notifications) row n := by
  unfold pushNotifications at ok ⊢
  split at ok
  · cases ok
  · exact acceptNotifications_stores apart

/-- A send that succeeds leaves every row it carries in the mailbox. -/
theorem step_stores {s : Inner} {now : DateTime} {call : Call} (ok : (exec lib now call s).1.isOk = true)
    (apart : Apart now s.notifications (sends s call)) {first rest : List (NotificationInsert × String)}
    {row : NotificationInsert × String} (carried : sends s call = first ++ row :: rest) :
    ∃ n ∈ (step lib s (now, call)).notifications, Stores (acceptNotifications now first s.notifications) row n := by
  rw [carried] at apart
  cases call with
  | insertNotification inserted fresh =>
    have same : [(inserted, fresh)] = first ++ row :: rest := carried
    simp only [exec, insertNotification, step] at ok ⊢
    rw [same] at ok ⊢
    exact pushNotifications_stores ok apart
  | insertNotifications rows =>
    obtain rfl : rows = first ++ row :: rest := carried
    exact pushNotifications_stores ok apart
  | sendFromWorkflow id seq name rows =>
    simp only [exec, sendFromWorkflow, step] at ok ⊢
    obtain ⟨found, stored, -⟩ | ⟨found, stored, -⟩ | ⟨vacant, missing⟩ := recordedAt_eq id seq name s
    · simp [sends, stored] at carried
    · simp [sends, stored] at carried
    · rw [missing] at ok ⊢
      dsimp only at ok ⊢
      obtain rfl : rows = first ++ row :: rest := by simpa [sends, vacant] using carried
      cases pushed : pushNotifications now (first ++ row :: rest) s with
      | mk result after =>
        rw [pushed] at ok
        cases result with
        | error e => cases ok
        | ok u =>
          have through : (pushNotifications now (first ++ row :: rest) s).1.isOk = true := by rw [pushed]; rfl
          have stores := pushNotifications_stores through apart
          rw [pushed] at stores
          exact stores
  | _ => simp [sends] at carried

/-- In every run of sends of all kinds, rival receivers, timeouts and crashes, the consumed
notifications correspond one to one to the rows that consumed them; and everything accepted
stays stored where no key and destination join to the id of another pair. -/
theorem delivered_exactly_once (events : List (Event δ))
    (allowed : Runs.Along (next lib) Allowed events System.new) :
    (∃ place, Corresponds (run lib events System.new) place) ∧
      (Runs.Along (next lib) (Uncollided lib) events System.new → Stored lib events) := by
  have inv := run_inv allowed
  constructor
  · obtain ⟨⟨place, onto, pairs⟩, apart⟩ := inv.paired
    refine ⟨place, onto, pairs, apart, ?_, ?_⟩
    · intro r member m same
      obtain ⟨value, decoded, row, stored, named, succeeded, content⟩ := inv.returned r member _ same
      simp only [Codec.optional] at decoded
      split at decoded
      · cases decoded
      next notNull =>
        cases read : r.codec.fromValue value with
        | error e => rw [read] at decoded; cases decoded
        | ok m' =>
          rw [read] at decoded
          cases decoded
          refine ⟨row, value, stored, named, succeeded, ?_, read⟩
          cases output : row.output with
          | none => rw [output] at content; subst content; exact absurd rfl notNull
          | some v => rw [output] at content; rw [← content]; rfl
    · intro r member same receipt given here n found
      obtain ⟨value, decoded, row, stored, -, -, content⟩ := inv.returned r member _ same
      obtain ⟨n', row', found', stored', fits⟩ := pairs receipt given
      rw [found] at found'
      cases found'
      rw [here, stored] at stored'
      cases stored'
      rw [fits.message] at content
      simp only [Codec.optional] at decoded
      split at decoded
      next null =>
        rw [Option.getD_some] at content
        rw [← content] at null
        cases message : n.message <;> first | rfl | (rw [message] at null; cases null)
      next =>
        cases read : r.codec.fromValue value <;> rw [read] at decoded <;> cases decoded
  · intro apart
    constructor
    · rintro before now call after rfl ok first row rest carried
      rw [Runs.along_append, Runs.along_cons] at allowed apart
      obtain ⟨n, here, stores⟩ := step_stores ok (apart.2.1 ok) carried
      obtain ⟨place, inside⟩ := List.mem_iff_getElem?.mp here
      have start := next_inv _ _ allowed.2.1 (run_inv allowed.1)
      obtain ⟨n', there, moved⟩ := run_kept start.1 allowed.2.2 place n inside
      rw [run, Runs.run_append, Runs.run_cons]
      exact ⟨n', List.mem_of_getElem? there, stores.later moved⟩
    · rintro before after rfl
      rw [Runs.along_append] at allowed
      rw [run, run, Runs.run_append]
      exact run_kept (run_inv allowed.1) allowed.2

end Runs

/-- Two executions of `w` wait for the same message; one of them consumes it and dies, and the
other is served its row. -/
def rivalReceivers : List (Event Value) :=
  [.call 0 (.insertWorkflowStatus (.new 0 "w" "job" .null .pending "e1" "v1")),
    .recv .plain 1 0 "t" 5 .value, .recv .plain 1 0 "t" 5 .value,
    .tick 0 {} none, .tick 1 {} none, .tick 0 {} none, .tick 1 {} none,
    .call 1 (.insertNotification ⟨"w", "t", .bool true, some "k"⟩ "m1"),
    .call 2 (.insertNotification ⟨"w", "t", .bool true, some "k"⟩ "m2"),
    .call 3 (.insertNotification ⟨"w", "t", .bool false, none⟩ "m3"),
    .tick 0 {} none, .crash 0, .tick 0 {} none, .tick 0 {} none]

theorem delivered_exactly_once_rivals :
    (run (.reading []) rivalReceivers System.new).receipts = [⟨"w", 0, "t"⟩] ∧
      (run (.reading []) rivalReceivers System.new).store.notifications.map (fun n => (n.message, n.consumed)) =
        [(.bool true, true), (.bool false, false)] ∧
      (run (.reading []) rivalReceivers System.new).returned.map (·.result) = [.ok (some (.bool true))] ∧
      (∃ place, Corresponds (run (.reading []) rivalReceivers System.new) place) ∧
      Stored (.reading []) rivalReceivers :=
  ⟨by decide, by decide, by decide, (delivered_exactly_once rivalReceivers (by decide)).1,
    (delivered_exactly_once rivalReceivers (by decide)).2 (by decide)⟩

/-- Two keyed messages whose keys and destinations join to the id "a::b::c". -/
def joinedAlike : List (Event Value) :=
  [.call 0 (.insertWorkflowStatus (.new 0 "b::c" "job" .null .pending "e1" "v1")),
    .call 0 (.insertWorkflowStatus (.new 0 "c" "job" .null .pending "e1" "v1")),
    .call 1 (.insertNotification ⟨"b::c", "t", .bool true, some "a"⟩ "m1"),
    .call 2 (.insertNotification ⟨"c", "t", .bool false, some "a::b"⟩ "m2")]

/-- The second is accepted, and nothing is stored for its destination. -/
theorem accepted_message_lost :
    Runs.Along (next (.reading [])) Allowed joinedAlike System.new ∧ ¬ Stored (.reading []) joinedAlike := by
  refine ⟨by decide, fun stored => ?_⟩
  obtain ⟨n, member, filed, -⟩ := stored.accepted (joinedAlike.take 3) 2
    (.insertNotification ⟨"c", "t", .bool false, some "a::b"⟩ "m2") [] rfl (by decide) [] _ [] rfl
  have elsewhere : ∀ n ∈ (run (.reading []) joinedAlike System.new).store.notifications,
      n.destinationId ≠ "c" := by decide
  exact elsewhere n member filed.2

end Durare.Delivery

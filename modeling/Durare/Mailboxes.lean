import Durare.Mailbox
import Durare.Publications

/-! The mailboxes of the two backends side by side: sends, receives and publications, in any order, are answered by a
SQLite database as by the in-memory provider. -/
namespace Durare

/-- A message as a listing of the mailbox shows it. -/
structure NotificationInfo where
  topic : Option String
  message : Value
  createdAtMs : Int
  consumed : Bool
deriving DecidableEq, Repr

namespace Memory

def notificationInfo (n : NotificationRow) : NotificationInfo where
  topic := if n.topic = "" then none else some n.topic
  message := n.message
  createdAtMs := n.createdAtMs
  consumed := n.consumed

def listWorkflowNotifications (id : String) (s : Inner) : Answer (List NotificationInfo) :=
  (.ok (((s.notifications.filter fun n => n.destinationId == id).insertionSort fun a b =>
    a.createdAtMs ≤ b.createdAtMs).map notificationInfo), s)

end Memory

namespace Sqlite

variable (lib : SerdeJson) (serializer : Serializer)

def notificationInfo (n : NotificationRecord) : Except Error NotificationInfo :=
  (decode lib serializer n.serialization n.message).map fun message =>
    { topic := if n.topic = "" then none else some n.topic
      message := message
      createdAtMs := n.createdAtMs
      consumed := n.consumed }

/-- `rank` stands for the database's order among messages of one millisecond. -/
def listWorkflowNotifications (id : String) (rank : String → Nat) (db : Db) : Answer (List NotificationInfo) :=
  (((db.notifications.filter fun n => n.destinationUuid == id).insertionSort fun a b =>
    a.createdAtMs < b.createdAtMs ∨ a.createdAtMs = b.createdAtMs ∧ rank a.messageUuid ≤ rank b.messageUuid).mapM
      (notificationInfo lib serializer), db)

end Sqlite

end Durare

namespace Durare.Mailboxes

open Memory Sqlite Checkpoints
open Publications (Mirrors Apart Unfailed)

section Oldest

variable {α β : Type}

theorem minBy_le (key : α → Int) {xs : List α} {least : α} (found : minBy key xs = some least) :
    ∀ x ∈ xs, key least ≤ key x := by
  induction xs generalizing least with
  | nil => cases found
  | cons x xs ih =>
    rw [minBy] at found
    split at found
    next none =>
      cases found
      intro y member
      rcases List.mem_cons.mp member with rfl | later
      · exact le_refl _
      · cases xs with
        | nil => cases later
        | cons z zs =>
          rw [minBy] at none
          split at none
          · cases none
          · split at none <;> cases none
    next rest some =>
      have below := ih some
      intro y member
      split at found
      next first =>
        cases found
        rcases List.mem_cons.mp member with rfl | later
        · exact le_refl _
        · exact first.trans (below y later)
      next first =>
        cases found
        rcases List.mem_cons.mp member with rfl | later
        · exact (not_le.mp first).le
        · exact below y later

/-- Among the least, the first is the one that a scan takes. -/
theorem head?_least (key : α → Int) (xs : List α) :
    (xs.filter fun x => xs.all fun y => decide (key x ≤ key y)).head? = minBy key xs := by
  cases found : minBy key xs with
  | none =>
    cases xs with
    | nil => rfl
    | cons x xs =>
      rw [minBy] at found
      split at found
      · cases found
      · split at found <;> cases found
  | some least =>
    obtain ⟨before, after, split, larger⟩ := minBy_split key found
    have below := minBy_le key found
    have early : (before.filter fun x => xs.all fun y => decide (key x ≤ key y)) = [] := by
      rw [List.filter_eq_nil_iff]
      intro x member all
      have le := of_decide_eq_true (List.all_eq_true.mp all least (split ▸ by simp))
      have lt := larger x member
      omega
    have chosen : (xs.all fun y => decide (key least ≤ key y)) = true :=
      List.all_eq_true.mpr fun y member => decide_eq_true (below y member)
    conv_lhs => rw [split]
    rw [List.filter_append, ← split, early]
    simp only [List.nil_append, List.filter_cons, chosen, if_true, List.head?_cons]

/-- A choice among the least is the first of them, as soon as it is asked for or there is only one. -/
theorem pick_least (key : α → Int) {xs : List α} {pick : Nat} (decided : pick = 0 ∨ (xs.map key).Nodup) :
    let tied := xs.filter fun x => xs.all fun y => decide (key x ≤ key y)
    tied[pick % tied.length]? = minBy key xs := by
  intro tied
  have first : tied.head? = minBy key xs := head?_least key xs
  rw [← first]
  obtain rfl | apart := decided
  · rw [Nat.zero_mod, List.head?_eq_getElem?]
  · cases shape : tied with
    | nil => rfl
    | cons x rest =>
      cases rest with
      | nil => rw [List.length_singleton, Nat.mod_one, List.head?_eq_getElem?]
      | cons y rest =>
        have sub : (tied.map key).Nodup := apart.sublist (List.filter_sublist.map key)
        have both : ∀ z ∈ tied, ∀ w ∈ tied, key z ≤ key w := by
          intro z member w other
          have all := (List.mem_filter.mp member).2
          exact of_decide_eq_true (List.all_eq_true.mp all w (List.mem_filter.mp other).1)
        rw [shape, List.map_cons, List.nodup_cons, List.map_cons] at sub
        have le := both x (by simp [shape]) y (by simp [shape])
        have ge := both y (by simp [shape]) x (by simp [shape])
        exact absurd (by simp [le_antisymm le ge]) sub.1

variable {R : α → β → Prop}

theorem minBy_rel {key : α → Int} {key' : β → Int} (same : ∀ {x y}, R x y → key x = key' y) {xs : List α} {ys : List β}
    (related : List.Forall₂ R xs ys) : Option.Rel R (minBy key xs) (minBy key' ys) := by
  induction related with
  | nil => exact .none
  | cons first _ ih =>
    simp only [minBy]
    generalize minBy key _ = least at ih
    generalize minBy key' _ = least' at ih
    cases ih with
    | none => exact .some first
    | some rest =>
      simp only [same first, same rest]
      split
      · exact .some first
      · exact .some rest

theorem zipIdx_rel {xs : List α} {ys : List β} (related : List.Forall₂ R xs ys) (start : Nat) :
    List.Forall₂ (fun x y => R x.1 y.1 ∧ x.2 = y.2) (xs.zipIdx start) (ys.zipIdx start) := by
  induction related generalizing start with
  | nil => exact .nil
  | cons first _ ih => exact .cons ⟨first, rfl⟩ (ih (start + 1))

theorem modify_rel {f : α → α} {g : β → β} (keeps : ∀ {x y}, R x y → R (f x) (g y)) {xs : List α} {ys : List β}
    (related : List.Forall₂ R xs ys) (place : Nat) : List.Forall₂ R (xs.modify place f) (ys.modify place g) := by
  induction related generalizing place with
  | nil => simp
  | cons first rest ih =>
    cases place with
    | zero => exact .cons (keeps first) rest
    | succ place => exact .cons first (ih place)

theorem insertionSort_rel {r : α → α → Prop} {r' : β → β → Prop} [DecidableRel r] [DecidableRel r']
    (alike : ∀ {x y x' y'}, R x y → R x' y' → (r x x' ↔ r' y y')) {xs : List α} {ys : List β}
    (related : List.Forall₂ R xs ys) : List.Forall₂ R (xs.insertionSort r) (ys.insertionSort r') := by
  induction related with
  | nil => exact .nil
  | cons first _ ih =>
    rw [List.insertionSort_cons, List.insertionSort_cons]
    generalize List.insertionSort r _ = sorted at ih ⊢
    generalize List.insertionSort r' _ = sorted' at ih ⊢
    induction ih with
    | nil => exact .cons first .nil
    | cons second rest inserted =>
      simp only [List.orderedInsert_cons, alike first second]
      split
      · exact .cons first (.cons second rest)
      · exact .cons second inserted

theorem map_rel {γ : Type} {f : α → γ} {g : β → γ} (same : ∀ {x y}, R x y → f x = g y) {xs : List α} {ys : List β}
    (related : List.Forall₂ R xs ys) : xs.map f = ys.map g := by
  induction related with
  | nil => rfl
  | cons first _ ih => rw [List.map_cons, List.map_cons, same first, ih]

end Oldest

variable (lib : SerdeJson) (serializer : Serializer)

/-- A stored message and the one it stands for. -/
structure SameMail (record : NotificationRecord) (row : NotificationRow) : Prop where
  id : record.messageUuid = row.messageUuid
  destination : record.destinationUuid = row.destinationId
  topic : record.topic = row.topic
  message : Stored lib serializer row.message record.message
  format : record.serialization = some serializer.name
  consumed : record.consumed = row.consumed
  age : record.createdAtMs = row.createdAtMs

/-- The database holds what the in-memory provider holds, the messages in the order they were sent; each goes to a
stored workflow. -/
structure Delivers (db : Db) (s : Inner) : Prop where
  mirrors : Mirrors lib serializer db s
  mail : List.Forall₂ (SameMail lib serializer) db.notifications s.notifications
  owned : ∀ n ∈ s.notifications, (s.workflows.get n.destinationId).isSome = true

/-- A message whose id is in the mailbox is the same send again: it has a key, and goes to the same workflow. -/
def Again (sent : List NotificationRow) (row : NotificationInsert × String) : Prop :=
  ∀ n ∈ sent, n.messageUuid = messageUuid row.1 row.2 →
    row.1.idempotencyKey.isSome = true ∧ n.destinationId = row.1.destinationId

instance (sent : List NotificationRow) (row : NotificationInsert × String) : Decidable (Again sent row) :=
  inferInstanceAs (Decidable (∀ n ∈ sent, _ → _))

def accept (now : DateTime) (sent : List NotificationRow) (row : NotificationInsert × String) : List NotificationRow :=
  acceptNotification now row.1 row.2 sent

/-- The ids of a batch, each taken when the rows before it are in. -/
abbrev Sendable (now : DateTime) (rows : List (NotificationInsert × String)) (sent : List NotificationRow) : Prop :=
  Runs.Along (accept now) Again rows sent

def Fits (refuses : Limit) (rows : List (NotificationInsert × String)) : Prop := refuses (6 * rows.length) = none

variable {refuses : Limit} {lib serializer} {db : Db} {s : Inner} {now : DateTime} {records : List NotificationRecord}
  {sent : List NotificationRow} {row : NotificationInsert × String} {rows : List (NotificationInsert × String)}

/-- A row is in already, or comes last. -/
theorem accept_cases (now : DateTime) (again : Again sent row) :
    (∃ n ∈ sent, n.messageUuid = messageUuid row.1 row.2 ∧ n.destinationId = row.1.destinationId ∧
      accept now sent row = sent) ∨
    (∀ n ∈ sent, n.messageUuid ≠ messageUuid row.1 row.2) ∧
      accept now sent row = sent ++ [⟨messageUuid row.1 row.2, row.1.destinationId, row.1.topic, row.1.message, false,
        now.timestampMillis⟩] := by
  by_cases present : ∃ n ∈ sent, n.messageUuid = messageUuid row.1 row.2
  · obtain ⟨n, member, same⟩ := present
    obtain ⟨keyed, destination⟩ := again n member same
    refine .inl ⟨n, member, same, destination, ?_⟩
    have twice : alreadySent row.1 row.2 sent = true := by
      rw [alreadySent, keyed, Bool.true_and, List.any_eq_true]
      exact ⟨n, member, by simpa using same⟩
    rw [accept, acceptNotification, if_pos twice]
  · have absent : ∀ n ∈ sent, n.messageUuid ≠ messageUuid row.1 row.2 := fun n member same => present ⟨n, member, same⟩
    have once : ¬ alreadySent row.1 row.2 sent = true := by
      intro twice
      rw [alreadySent, Bool.and_eq_true, List.any_eq_true] at twice
      obtain ⟨n, member, same⟩ := twice.2
      exact absent n member (by simpa using same)
    exact .inr ⟨absent, by rw [accept, acceptNotification, if_neg once]⟩

theorem accept_rel (apart : Apart lib serializer) (again : Again sent row)
    (mail : List.Forall₂ (SameMail lib serializer) records sent) :
    List.Forall₂ (SameMail lib serializer) (insertOrIgnore records (mailEntry lib serializer now row))
      (accept now sent row) := by
  have ids : records.map (·.messageUuid) = sent.map (·.messageUuid) := map_rel (fun same => same.id) mail
  have held : (records.any fun r => r.messageUuid == messageUuid row.1 row.2) =
      sent.any fun n => n.messageUuid == messageUuid row.1 row.2 := by
    have through := congrArg (List.any · (· == messageUuid row.1 row.2)) ids
    simpa only [List.any_map, Function.comp_def] using through
  obtain ⟨n, member, same, -, stays⟩ | ⟨absent, grows⟩ := accept_cases now again
  · have inside : (records.any fun r => r.messageUuid == messageUuid row.1 row.2) = true := by
      rw [held, List.any_eq_true]
      exact ⟨n, member, by simpa using same⟩
    rw [stays, insertOrIgnore, if_pos (by exact inside)]
    exact mail
  · have outside : ¬ (records.any fun r => r.messageUuid == messageUuid row.1 row.2) = true := by
      rw [held, List.any_eq_true]
      rintro ⟨n, member, same⟩
      exact absent n member (by simpa using same)
    obtain ⟨text, stored⟩ := apart.stored row.1.message
    have encoded : (mailEntry lib serializer now row).message = text := by
      simp [mailEntry, stored.1, Except.toOption]
    rw [grows, insertOrIgnore, if_neg (by exact outside)]
    exact List.rel_append mail (.cons ⟨rfl, rfl, rfl, encoded ▸ stored, rfl, rfl, rfl⟩ .nil)

/-- The destinations of a mailbox that has accepted a batch are its own and those of the batch. -/
theorem accepted_destinations (P : String → Prop) (sendable : Sendable now rows sent) :
    (∀ n ∈ Runs.run (accept now) rows sent, P n.destinationId) ↔
      (∀ n ∈ sent, P n.destinationId) ∧ ∀ row ∈ rows, P row.1.destinationId := by
  induction rows generalizing sent with
  | nil => simp
  | cons row rows ih =>
    have step : (∀ n ∈ accept now sent row, P n.destinationId) ↔
        (∀ n ∈ sent, P n.destinationId) ∧ P row.1.destinationId := by
      obtain ⟨n, member, -, goes, stays⟩ | ⟨-, grows⟩ := accept_cases now sendable.1
      · rw [stays]
        exact ⟨fun all => ⟨all, goes ▸ all n member⟩, And.left⟩
      · simp [grows, or_imp, forall_and]
    rw [Runs.run_cons, ih sendable.2, step, List.forall_mem_cons, and_assoc]

theorem accepted_rel (apart : Apart lib serializer) (sendable : Sendable now rows sent)
    (mail : List.Forall₂ (SameMail lib serializer) records sent) :
    List.Forall₂ (SameMail lib serializer) ((rows.map (mailEntry lib serializer now)).foldl insertOrIgnore records)
      (Runs.run (accept now) rows sent) := by
  induction rows generalizing records sent with
  | nil => exact mail
  | cons row rows ih => exact ih sendable.2 (accept_rel apart sendable.1 mail)

theorem ignored_prefix (entries records : List NotificationRecord) :
    records <+: entries.foldl insertOrIgnore records := by
  induction entries generalizing records with
  | nil => exact List.prefix_refl _
  | cons entry entries ih =>
    refine List.IsPrefix.trans ?_ (ih _)
    unfold insertOrIgnore
    split
    · exact List.prefix_refl _
    · exact List.prefix_append _ _

/-- Every message has a text. -/
theorem encoded_batch (apart : Apart lib serializer) (now : DateTime) (rows : List (NotificationInsert × String)) :
    rows.mapM (notificationRecord lib serializer now) = .ok (rows.map (mailEntry lib serializer now)) := by
  induction rows with
  | nil => rfl
  | cons row rows ih =>
    obtain ⟨text, stored⟩ := apart.stored row.1.message
    have first : notificationRecord lib serializer now row = .ok (mailEntry lib serializer now row) := by
      simp [notificationRecord, mailEntry, stored.1, Except.map, Except.toOption]
    rw [List.mapM_cons, first, ih]
    rfl

/-- The same answer. The refusal of a batch to a missing workflow names all its destinations on SQLite, the first
missing one in memory. -/
inductive Alike {α : Type} : Except Error α → Except Error α → Prop
  | same (answer : Except Error α) : Alike answer answer
  | missing {batch : List String} {first : String} (member : first ∈ batch) :
    Alike (.error (.nonExistentWorkflow (", ".intercalate batch))) (.error (.nonExistentWorkflow first))

theorem Alike.map {α β : Type} (f : α → β) {first second : Except Error α} (alike : Alike first second) :
    Alike (first.map f) (second.map f) := by
  cases alike with
  | same => exact .same _
  | missing member => exact .missing member

theorem destinations_rel (P : String → Prop) (mail : List.Forall₂ (SameMail lib serializer) records sent) :
    (∀ r ∈ records, P r.destinationUuid) ↔ ∀ n ∈ sent, P n.destinationId := by
  induction mail with
  | nil => simp
  | cons same _ ih => rw [List.forall_mem_cons, List.forall_mem_cons, same.destination, ih]

theorem Delivers.stored (delivers : Delivers lib serializer db s) (id : String) :
    (db.workflowStatus.get id).isSome = (s.workflows.get id).isSome := by
  have rows := congrArg Option.isSome (delivers.mirrors.workflows id)
  simpa only [Option.isSome_map] using rows

theorem Delivers.insertNotifications (delivers : Delivers lib serializer db s) (apart : Apart lib serializer)
    (fits : Fits refuses rows) (sendable : Sendable now rows s.notifications) :
    Alike (insertNotificationsOn refuses lib serializer now rows db).1 (pushNotifications now rows s).1 ∧
      Delivers lib serializer (insertNotificationsOn refuses lib serializer now rows db).2
        (pushNotifications now rows s).2 := by
  by_cases empty : rows = []
  · subst empty
    exact ⟨.same _, delivers⟩
  have mail := accepted_rel apart sendable delivers.mail
  have destinations := accepted_destinations (fun id => (s.workflows.get id).isSome = true) sendable
  obtain ⟨fresh, grown⟩ := ignored_prefix (rows.map (mailEntry lib serializer now)) db.notifications
  have checked : (fresh.all fun n => (db.workflowStatus.get n.destinationUuid).isSome) = true ↔
      ∀ row ∈ rows, (s.workflows.get row.1.destinationId).isSome = true := by
    have before := (destinations_rel (fun id => (s.workflows.get id).isSome = true) delivers.mail).mpr delivers.owned
    have whole := (destinations_rel (fun id => (s.workflows.get id).isSome = true) (grown ▸ mail)).trans destinations
    rw [List.forall_mem_append] at whole
    simp only [List.all_eq_true, delivers.stored]
    exact ⟨fun all => (whole.mp ⟨before, all⟩).2, fun all => (whole.mpr ⟨delivers.owned, all⟩).2⟩
  rw [insertNotificationsOn, if_neg (by rwa [List.isEmpty_iff]), encoded_batch apart]
  dsimp only
  rw [fits]
  dsimp only
  rw [← grown, List.drop_left]
  by_cases all : ∀ row ∈ rows, (s.workflows.get row.1.destinationId).isSome = true
  · have none : (rows.find? fun row => (s.workflows.get row.1.destinationId).isNone) = none := by
      rw [List.find?_eq_none]
      intro row member
      rw [Option.isNone_iff_eq_none]
      exact Option.isSome_iff_ne_none.mp (all row member)
    rw [if_pos (checked.mpr all), pushNotifications, none]
    exact ⟨.same _, { delivers.mirrors with }, grown ▸ mail, destinations.mpr ⟨delivers.owned, all⟩⟩
  · rw [if_neg (fun passed => all (checked.mp passed)), pushNotifications]
    cases found : rows.find? fun row => (s.workflows.get row.1.destinationId).isNone with
    | none =>
      rw [List.find?_eq_none] at found
      refine absurd ?_ all
      intro row member
      exact Option.isSome_iff_ne_none.mpr fun absent => found row member (Option.isNone_iff_eq_none.mpr absent)
    | some missing =>
      have named := List.mem_map_of_mem (f := fun row => row.1.destinationId) (List.mem_of_find?_eq_some found)
      exact ⟨.missing (List.mem_dedup.mpr (List.mem_mergeSort.mpr named)), delivers⟩

/-- In memory the messages go out before the checkpoint, in the transaction after it. -/
theorem pushNotifications_checkpoint (now now' : DateTime) (rows : List (NotificationInsert × String)) (id : String)
    (seq : Int) (name : String) (output : Value) (s : Inner) :
    pushNotifications now rows (Memory.checkpoint now' id seq name output s) =
      ((pushNotifications now rows s).1,
        Memory.checkpoint now' id seq name output (pushNotifications now rows s).2) := by
  unfold pushNotifications
  simp only [Memory.checkpoint, Inner.putStep]
  split <;> rfl

theorem pushNotifications_refused {e : Error} {after : Inner}
    (refused : pushNotifications now rows s = (.error e, after)) : after = s := by
  unfold pushNotifications at refused
  split at refused
  · cases refused
    rfl
  · cases refused

theorem Delivers.sendFromWorkflow (delivers : Delivers lib serializer db s) (apart : Apart lib serializer) {id : String}
    {seq : Int} {name : String} (owner : (s.workflows.get id).isSome = true) (unfailed : Unfailed id seq name s)
    (fits : Fits refuses rows) (sendable : Sendable now rows s.notifications) :
    Alike (Sqlite.sendFromWorkflow refuses lib serializer now id seq name rows db).1
        (Memory.sendFromWorkflow now id seq name rows s).1 ∧
      Delivers lib serializer (Sqlite.sendFromWorkflow refuses lib serializer now id seq name rows db).2
        (Memory.sendFromWorkflow now id seq name rows s).2 := by
  obtain ⟨output, stored⟩ := apart.stored .null
  unfold Sqlite.sendFromWorkflow Memory.sendFromWorkflow recordedAt
  cases held : s.steps.get (id, seq) with
  | some row =>
    have taken := delivers.mirrors.checkpointOn_taken now held name output (some serializer.name)
    have served := delivers.mirrors.recorded held (unfailed row held)
    simp only [stored.1, taken, served]
    by_cases named : row.name = name
    · simp only [named, ne_eq, not_true_eq_false, if_false]
      exact ⟨.same _, delivers⟩
    · simp only [named, ne_eq, not_false_eq_true, if_true]
      exact ⟨.same _, delivers⟩
  | none =>
    have marked : Delivers lib serializer
        { db with
          operationOutputs := db.operationOutputs.put (id, seq) (Publications.outputRecord serializer now name output) }
        (Memory.checkpoint now id seq name .null s) :=
      ⟨delivers.mirrors.checkpoint now id seq name stored, delivers.mail, delivers.owned⟩
    have wrote := delivers.mirrors.checkpointOn_free now held owner name output
    obtain ⟨answers, states⟩ := marked.insertNotifications apart fits sendable
    rw [pushNotifications_checkpoint] at answers states
    simp only [stored.1, wrote]
    generalize insertNotificationsOn refuses lib serializer now rows _ = sql at answers states
    obtain ⟨answer, sent⟩ := sql
    generalize memory : pushNotifications now rows s = pushed at answers states
    obtain ⟨e | _, after⟩ := pushed
    · obtain rfl := pushNotifications_refused memory
      cases answers with
      | same => exact ⟨.same _, delivers⟩
      | missing member => exact ⟨.missing member, delivers⟩
    · cases answers
      exact ⟨.same _, states⟩

/-- The database has one message to choose, or chooses the first of one age. -/
def Decided (id topic : String) (pick : Nat) (sent : List NotificationRow) : Prop :=
  pick = 0 ∨ ((sent.filter (awaiting id topic)).map (·.createdAtMs)).Nodup

instance (id topic : String) (pick : Nat) (sent : List NotificationRow) : Decidable (Decided id topic pick sent) :=
  inferInstanceAs (Decidable (_ ∨ _))

/-- The message that the database chooses is the oldest in memory. -/
theorem chosen_rel {id topic : String} {pick : Nat} (mail : List.Forall₂ (SameMail lib serializer) records sent)
    (decided : Decided id topic pick sent) :
    Option.Rel (fun r n => SameMail lib serializer r.1 n.1 ∧ r.2 = n.2)
      ((oldestTied id topic records)[pick % (oldestTied id topic records).length]?) (oldest id topic sent) := by
  have candidates : List.Forall₂ (fun r n => SameMail lib serializer r.1 n.1 ∧ r.2 = n.2)
      (records.zipIdx.filter fun r => waiting id topic r.1) (sent.zipIdx.filter fun n => awaiting id topic n.1) := by
    refine List.rel_filter ?_ (zipIdx_rel mail 0)
    rintro r n ⟨same, -⟩
    simp only [waiting, awaiting, same.consumed, same.destination, same.topic]
  have ages : (records.zipIdx.filter fun r => waiting id topic r.1).map (·.1.createdAtMs) =
      (sent.filter (awaiting id topic)).map (·.createdAtMs) := by
    rw [map_rel (g := fun n => n.1.createdAtMs) (fun same => same.1.age) candidates]
    have places : sent.filter (awaiting id topic) =
        (sent.zipIdx.filter fun n => awaiting id topic n.1).map (·.1) := by
      conv_lhs => rw [← List.zipIdx_map_fst 0 sent, List.filter_map]
      rfl
    rw [places, List.map_map]
    rfl
  have told : pick = 0 ∨ ((records.zipIdx.filter fun r => waiting id topic r.1).map (·.1.createdAtMs)).Nodup := by
    rw [ages]
    exact decided
  have picked := pick_least (fun r : NotificationRecord × Nat => r.1.createdAtMs) told
  have least : Option.Rel (fun r n => SameMail lib serializer r.1 n.1 ∧ r.2 = n.2)
      (minBy (fun r => r.1.createdAtMs) (records.zipIdx.filter fun r => waiting id topic r.1)) (oldest id topic sent) :=
    minBy_rel (fun same => same.1.age) candidates
  rw [← picked] at least
  exact least

theorem Delivers.consumeNotification (delivers : Delivers lib serializer db s) {id topic : String} {seq : Int}
    {name : String} {pick : Nat} (owner : (s.workflows.get id).isSome = true) (unfailed : Unfailed id seq name s)
    (decided : Decided id topic pick s.notifications) :
    (Sqlite.consumeNotification lib serializer now id topic seq name pick db).1 =
        (Memory.consumeNotification lib now id topic seq name s).1 ∧
      Delivers lib serializer (Sqlite.consumeNotification lib serializer now id topic seq name pick db).2
        (Memory.consumeNotification lib now id topic seq name s).2 := by
  unfold Sqlite.consumeNotification Memory.consumeNotification recordedAt
  cases held : s.steps.get (id, seq) with
  | some row =>
    rw [delivers.mirrors.served held (unfailed row held)]
    by_cases named : row.name = name
    · simp only [named, ne_eq, not_true_eq_false, if_false, stepRowOutcome, unfailed row held named,
        StepOutcome.intoValueResult, Except.map, true_and]
      exact delivers
    · simp only [named, ne_eq, not_false_eq_true, if_true, true_and]
      exact delivers
  | none =>
    have chosen := chosen_rel delivers.mail decided
    rw [recordedOutputOn_none.mpr (delivers.mirrors.vacant held)]
    dsimp only
    generalize (oldestTied id topic db.notifications)[pick % _]? = picked at chosen
    generalize oldest id topic s.notifications = first at chosen
    cases chosen with
    | none => exact ⟨rfl, delivers⟩
    | @some r n both =>
      obtain ⟨record, place⟩ := r
      obtain ⟨row, place'⟩ := n
      obtain ⟨same, rfl⟩ : SameMail lib serializer record row ∧ place = place' := both
      have claimed : Mirrors lib serializer { db with notifications := db.notifications.modify place consume }
          { s with notifications := s.notifications.modify place fun n => { n with consumed := true } } :=
        { delivers.mirrors with }
      have wrote := claimed.checkpointOn_free now held owner name record.message
      rw [← same.format] at wrote
      have read : decode lib serializer record.serialization record.message = .ok row.message := by
        rw [same.format]
        exact same.message.2
      simp only [wrote, read]
      refine ⟨rfl, claimed.checkpoint now id seq name same.message, ?_, ?_⟩
      · exact modify_rel (fun same => { same with consumed := rfl }) delivers.mail place
      · have goes := Mailbox.map_modify NotificationRow.destinationId (fun n => { n with consumed := true })
          (fun _ => rfl) s.notifications place
        have before : ∀ id ∈ s.notifications.map (·.destinationId), (s.workflows.get id).isSome = true :=
          List.forall_mem_map.mpr delivers.owned
        rw [← goes] at before
        exact List.forall_mem_map.mp before

def Dated (id : String) (sent : List NotificationRow) : Prop :=
  ((sent.filter fun n => n.destinationId == id).map (·.createdAtMs)).Nodup

instance (id : String) (sent : List NotificationRow) : Decidable (Dated id sent) :=
  inferInstanceAs (Decidable (List.Nodup _))

theorem infos_rel (mail : List.Forall₂ (SameMail lib serializer) records sent) :
    records.mapM (Sqlite.notificationInfo lib serializer) = .ok (sent.map Memory.notificationInfo) := by
  induction mail with
  | nil => rfl
  | @cons record row _ _ same _ ih =>
    have first : Sqlite.notificationInfo lib serializer record = .ok (Memory.notificationInfo row) := by
      simp only [Sqlite.notificationInfo, Memory.notificationInfo, same.format, same.message.2, Except.map, same.topic,
        same.age, same.consumed]
    rw [List.mapM_cons, first, ih]
    rfl

/-- Ages that tell the messages apart leave the database no choice of an order. -/
theorem sorted_rel (rank : String → Nat) (mail : List.Forall₂ (SameMail lib serializer) records sent)
    (dated : (sent.map (·.createdAtMs)).Nodup) :
    List.Forall₂ (SameMail lib serializer)
      (records.insertionSort fun a b =>
        a.createdAtMs < b.createdAtMs ∨ a.createdAtMs = b.createdAtMs ∧ rank a.messageUuid ≤ rank b.messageUuid)
      (sent.insertionSort fun a b => a.createdAtMs ≤ b.createdAtMs) := by
  have ages : (records.map (·.createdAtMs)).Nodup := by
    rw [map_rel (fun same => same.age) mail]
    exact dated
  have inside : List.Forall₂ (fun record row => record ∈ records ∧ SameMail lib serializer record row) records sent :=
    (List.forall₂_and_left _ _).mpr ⟨fun _ member => member, mail⟩
  have alike : ∀ {record row record' row'}, record ∈ records ∧ SameMail lib serializer record row →
      record' ∈ records ∧ SameMail lib serializer record' row' →
      ((record.createdAtMs < record'.createdAtMs ∨ record.createdAtMs = record'.createdAtMs ∧
        rank record.messageUuid ≤ rank record'.messageUuid) ↔ row.createdAtMs ≤ row'.createdAtMs) := by
    rintro record row record' row' ⟨member, same⟩ ⟨member', same'⟩
    rw [← same.age, ← same'.age]
    constructor
    · rintro (less | ⟨equal, -⟩)
      · exact less.le
      · exact equal.le
    · intro le
      obtain less | equal := le.lt_or_eq
      · exact .inl less
      · rw [List.inj_on_of_nodup_map ages member member' equal]
        exact .inr ⟨rfl, le_refl _⟩
  have sorted := insertionSort_rel (R := fun record row => record ∈ records ∧ SameMail lib serializer record row)
    alike inside
  exact ((List.forall₂_and_left _ _).mp sorted).2

theorem Delivers.listWorkflowNotifications (delivers : Delivers lib serializer db s) {id : String} (rank : String → Nat)
    (dated : Dated id s.notifications) :
    (Sqlite.listWorkflowNotifications lib serializer id rank db).1 = (Memory.listWorkflowNotifications id s).1 := by
  have own : List.Forall₂ (SameMail lib serializer) (db.notifications.filter fun n => n.destinationUuid == id)
      (s.notifications.filter fun n => n.destinationId == id) := by
    refine List.rel_filter ?_ delivers.mail
    intro record row same
    simp only [same.destination]
  exact infos_rel (sorted_rel rank own dated)

inductive Call where
  | insertNotification (now : DateTime) (row : NotificationInsert) (fresh : String)
  | insertNotifications (now : DateTime) (rows : List (NotificationInsert × String))
  | sendFromWorkflow (now : DateTime) (id : String) (seq : Int) (name : String)
    (rows : List (NotificationInsert × String))
  | consumeNotification (now : DateTime) (id topic : String) (seq : Int) (name : String) (pick : Nat)
  | listWorkflowNotifications (id : String) (rank : String → Nat)
  | publish (call : Publications.Call)

inductive Reply where
  | sent
  | received (message : Option Value)
  | listed (messages : List NotificationInfo)
  | published (reply : Publications.Reply)
deriving DecidableEq, Repr

def answered {α σ : Type} (reply : α → Reply) (answer : Except Error α × σ) : Except Error Reply × σ :=
  (answer.1.map reply, answer.2)

def Call.memory (lib : SerdeJson) (s : Inner) : Call → Except Error Reply × Inner
  | .insertNotification now row fresh => answered (fun _ => .sent) (Memory.insertNotification now row fresh s)
  | .insertNotifications now rows => answered (fun _ => .sent) (Memory.insertNotifications now rows s)
  | .sendFromWorkflow now id seq name rows =>
    answered (fun _ => .sent) (Memory.sendFromWorkflow now id seq name rows s)
  | .consumeNotification now id topic seq name _ =>
    answered .received (Memory.consumeNotification lib now id topic seq name s)
  | .listWorkflowNotifications id _ => answered .listed (Memory.listWorkflowNotifications id s)
  | .publish call => answered .published (call.memory lib s)

def Call.sqlite (refuses : Limit) (lib : SerdeJson) (serializer : Serializer) (db : Db) :
    Call → Except Error Reply × Db
  | .insertNotification now row fresh =>
    answered (fun _ => .sent) (Sqlite.insertNotification refuses lib serializer now row fresh db)
  | .insertNotifications now rows =>
    answered (fun _ => .sent) (insertNotificationsOn refuses lib serializer now rows db)
  | .sendFromWorkflow now id seq name rows =>
    answered (fun _ => .sent) (Sqlite.sendFromWorkflow refuses lib serializer now id seq name rows db)
  | .consumeNotification now id topic seq name pick =>
    answered .received (Sqlite.consumeNotification lib serializer now id topic seq name pick db)
  | .listWorkflowNotifications id rank =>
    answered .listed (Sqlite.listWorkflowNotifications lib serializer id rank db)
  | .publish call => answered .published (call.sqlite lib serializer db)

/-- What a call relies on: a workflow that records a step is stored, a batch fits into a statement, ids are taken once,
and messages are told apart by their ages. -/
def Call.Proper (refuses : Limit) (lib : SerdeJson) (serializer : Serializer) (s : Inner) : Call → Prop
  | .insertNotification now row fresh => Fits refuses [(row, fresh)] ∧ Sendable now [(row, fresh)] s.notifications
  | .insertNotifications now rows => Fits refuses rows ∧ Sendable now rows s.notifications
  | .sendFromWorkflow now id seq name rows =>
    (s.workflows.get id).isSome = true ∧ Unfailed id seq name s ∧ Fits refuses rows ∧ Sendable now rows s.notifications
  | .consumeNotification _ id topic seq name pick =>
    (s.workflows.get id).isSome = true ∧ Unfailed id seq name s ∧ Decided id topic pick s.notifications
  | .listWorkflowNotifications id _ => Dated id s.notifications
  | .publish call => call.Proper lib serializer s

theorem publish_memory (lib : SerdeJson) (call : Publications.Call) (s : Inner) :
    (call.memory lib s).2.notifications = s.notifications ∧
      ∀ id, ((call.memory lib s).2.workflows.get id).isSome = (s.workflows.get id).isSome := by
  have appended (id key : String) (value : Option Value) (s : Inner) :
      (appendStream id key value s).2.notifications = s.notifications ∧
        (appendStream id key value s).2.workflows = s.workflows := by
    unfold appendStream
    dsimp only
    split <;> exact ⟨rfl, rfl⟩
  cases call with
  | writeStream id key value functionId =>
    obtain ⟨mail, rows⟩ := appended id key value s
    exact ⟨mail, fun id' => congrArg (fun t : Table String WorkflowStatus => (t.get id').isSome) rows⟩
  | writeStreamFromWorkflow now id seq name key value =>
    have kept : (Memory.writeStreamFromWorkflow now id seq name key value s).2.notifications = s.notifications ∧
        (Memory.writeStreamFromWorkflow now id seq name key value s).2.workflows = s.workflows := by
      unfold Memory.writeStreamFromWorkflow
      split
      · exact ⟨rfl, rfl⟩
      · exact ⟨rfl, rfl⟩
      · have after := appended id key value s
        split
        next refused =>
          rw [refused] at after
          exact after
        next done =>
          rw [done] at after
          exact after
    exact ⟨kept.1, fun id' => congrArg (fun t : Table String WorkflowStatus => (t.get id').isSome) kept.2⟩
  | recordStepResult attempt id seq =>
    have refreshed (s : Inner) : (Memory.refreshExecutor id attempt.executor s).notifications = s.notifications ∧
        ∀ id', ((Memory.refreshExecutor id attempt.executor s).workflows.get id').isSome =
          (s.workflows.get id').isSome := by
      cases attempt.executor with
      | none => exact ⟨rfl, fun _ => rfl⟩
      | some executor =>
        refine ⟨rfl, fun id' => ?_⟩
        simp only [Memory.refreshExecutor, Table.get_modify]
        split
        next same => rw [Option.isSome_map, same]
        next => rfl
    simp only [Publications.Call.memory, Publications.answered]
    obtain ⟨-, answer⟩ | ⟨row, -, cases⟩ := record_cases lib attempt id seq s
    · rw [answer]
      exact refreshed _
    · obtain ⟨-, answer⟩ | ⟨-, -, answer⟩ | ⟨-, -, answer⟩ := cases <;> rw [answer] <;> exact ⟨rfl, fun _ => rfl⟩
  | _ => exact ⟨rfl, fun _ => rfl⟩

theorem publish_sqlite (lib : SerdeJson) (serializer : Serializer) (call : Publications.Call) (db : Db) :
    (call.sqlite lib serializer db).2.notifications = db.notifications := by
  have written (id key : String) (value : Option Value) (functionId : Int) (db : Db) :
      (writeStreamOn lib serializer id key value functionId db).2.notifications = db.notifications := by
    unfold writeStreamOn
    split
    · rfl
    · split_ifs <;> rfl
  cases call with
  | writeStream id key value functionId => exact written id key value functionId db
  | writeStreamFromWorkflow now id seq name key value =>
    simp only [Publications.Call.sqlite, Publications.answered, Sqlite.writeStreamFromWorkflow]
    split
    · rfl
    next output _ =>
      obtain ⟨row, -, wrote⟩ | ⟨e, wrote⟩ | ⟨row, -, -, -, -, -, wrote⟩ :=
        checkpointOn_cases now id seq name output (some serializer.name) db
      · rw [wrote]
      · rw [wrote]
      · rw [wrote]
        dsimp only
        have after := written id key value seq { db with operationOutputs := db.operationOutputs.put (id, seq) row }
        split
        · rfl
        next done =>
          rw [done] at after
          exact after
  | upsertEvent id key value =>
    simp only [Publications.Call.sqlite, Publications.answered, Sqlite.upsertEvent]
    split
    · rfl
    · split_ifs <;> rfl
  | recordStepResult attempt id seq =>
    have refreshed (db : Db) : (Sqlite.refreshExecutor id attempt.executor db).notifications = db.notifications := by
      cases attempt.executor <;> rfl
    simp only [Publications.Call.sqlite, Publications.answered, Attempt.recordSql, Sqlite.recordStepResult]
    split
    · rfl
    · split
      · split
        · rfl
        · exact refreshed _
      · split_ifs <;> rfl
  | _ => rfl

theorem Delivers.publish (delivers : Delivers lib serializer db s) (apart : Apart lib serializer)
    {call : Publications.Call} (proper : call.Proper lib serializer s) :
    (call.sqlite lib serializer db).1 = (call.memory lib s).1 ∧
      Delivers lib serializer (call.sqlite lib serializer db).2 (call.memory lib s).2 := by
  obtain ⟨answers, mirrors⟩ := delivers.mirrors.call apart proper
  obtain ⟨mail, rows⟩ := publish_memory lib call s
  refine ⟨answers, mirrors, ?_, ?_⟩
  · rw [mail, publish_sqlite]
    exact delivers.mail
  · intro n member
    rw [rows]
    exact delivers.owned n (mail ▸ member)

theorem Delivers.call (delivers : Delivers lib serializer db s) (apart : Apart lib serializer) {call : Call}
    (proper : call.Proper refuses lib serializer s) :
    Alike (call.sqlite refuses lib serializer db).1 (call.memory lib s).1 ∧
      Delivers lib serializer (call.sqlite refuses lib serializer db).2 (call.memory lib s).2 := by
  cases call with
  | insertNotification now row fresh =>
    obtain ⟨answers, after⟩ := delivers.insertNotifications apart proper.1 proper.2
    exact ⟨answers.map _, after⟩
  | insertNotifications now rows =>
    obtain ⟨answers, after⟩ := delivers.insertNotifications apart proper.1 proper.2
    exact ⟨answers.map _, after⟩
  | sendFromWorkflow now id seq name rows =>
    obtain ⟨owner, unfailed, fits, sendable⟩ := proper
    obtain ⟨answers, after⟩ := delivers.sendFromWorkflow apart owner unfailed fits sendable
    exact ⟨answers.map _, after⟩
  | consumeNotification now id topic seq name pick =>
    obtain ⟨answers, after⟩ := delivers.consumeNotification proper.1 proper.2.1 proper.2.2
    refine ⟨?_, after⟩
    simp only [Call.sqlite, Call.memory, answered, answers]
    exact .same _
  | listWorkflowNotifications id rank =>
    refine ⟨?_, delivers⟩
    simp only [Call.sqlite, Call.memory, answered, delivers.listWorkflowNotifications rank proper]
    exact .same _
  | publish call =>
    obtain ⟨answers, after⟩ := delivers.publish apart proper
    refine ⟨?_, after⟩
    simp only [Call.sqlite, Call.memory, answered, answers]
    exact .same _

def replies {σ : Type} (answer : σ → Call → Except Error Reply × σ) : List Call → σ → List (Except Error Reply)
  | [], _ => []
  | call :: calls, s => (answer s call).1 :: replies answer calls (answer s call).2

/-- However the calls are mixed, SQLite gives the answers of the in-memory provider, and holds the messages it holds. -/
theorem sqlite_delivers (apart : Apart lib serializer) {calls : List Call} (delivers : Delivers lib serializer db s)
    (proper : Runs.Along (fun s call => (Call.memory lib s call).2) (Call.Proper refuses lib serializer) calls s) :
    List.Forall₂ Alike (replies (Call.sqlite refuses lib serializer) calls db) (replies (Call.memory lib) calls s) ∧
      Delivers lib serializer (Runs.run (fun db call => (Call.sqlite refuses lib serializer db call).2) calls db)
        (Runs.run (fun s call => (Call.memory lib s call).2) calls s) := by
  induction calls generalizing db s with
  | nil => exact ⟨.nil, delivers⟩
  | cons call calls ih =>
    obtain ⟨answers, after⟩ := delivers.call apart proper.1
    obtain ⟨rest, ended⟩ := ih after proper.2
    exact ⟨.cons answers rest, ended⟩

theorem started_delivers (lib : SerdeJson) (serializer : Serializer) : Delivers lib serializer startedDb started :=
  ⟨Publications.started_mirrors lib serializer, .nil, fun _ member => by cases member⟩

/-- A send that is repeated under its key, a batch with an unknown destination, and replayed steps. -/
def exchanged : List Call :=
  [.insertNotification 1000000 ⟨"w", "t", .bool true, some "k"⟩ "f1",
    .insertNotification 2000000 ⟨"w", "t", .bool true, some "k"⟩ "f2",
    .insertNotifications 3000000 [(⟨"w", "t", .null, none⟩, "f3"), (⟨"v", "t", .null, none⟩, "f4")],
    .sendFromWorkflow 4000000 "w" 0 "DBOS.send" [(⟨"w", "t", .null, none⟩, "f5")],
    .sendFromWorkflow 5000000 "w" 0 "DBOS.send" [(⟨"w", "t", .null, none⟩, "f6")],
    .publish (.upsertEvent "w" "phase" .null), .consumeNotification 6000000 "w" "t" 1 "DBOS.recv" 7,
    .consumeNotification 7000000 "w" "t" 1 "DBOS.recv" 7, .listWorkflowNotifications "w" fun _ => 0]

theorem sqlite_delivers_exchange :
    List.Forall₂ Alike (replies (Call.sqlite variableLimit Records.timeoutLibrary .portable) exchanged startedDb)
      [.ok .sent, .ok .sent, .error (.nonExistentWorkflow "v"), .ok .sent, .ok .sent, .ok (.published .done),
        .ok (.received (some (.bool true))), .ok (.received (some (.bool true))),
        .ok (.listed [⟨some "t", .bool true, 1, true⟩, ⟨some "t", .null, 4, false⟩])] := by
  have apart : Apart Records.timeoutLibrary .portable :=
    .of_exact Memory.timeoutLibrary_exact rfl fun other => by cases other
  have proper : Runs.Along (fun s call => (Call.memory Records.timeoutLibrary s call).2)
      (Call.Proper variableLimit Records.timeoutLibrary .portable) exchanged started := by
    refine ⟨⟨rfl, show Sendable _ _ _ by decide⟩, ⟨rfl, show Sendable _ _ _ by decide⟩,
      ⟨rfl, show Sendable _ _ _ by decide⟩, ⟨rfl, ?_, rfl, by decide⟩, ⟨rfl, ?_, rfl, by decide⟩, rfl, ⟨rfl, ?_, by decide⟩, ⟨rfl, ?_, by decide⟩,
      show Dated _ _ by decide, trivial⟩
    all_goals
      intro row found named
      cases found
    all_goals rfl
  exact (sqlite_delivers apart (started_delivers _ _) proper).1

end Durare.Mailboxes

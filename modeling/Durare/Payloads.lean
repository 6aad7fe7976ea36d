import Durare.Children
import Durare.Observers
import Durare.Postgres
import Durare.Roles

/-! What becomes of a stored payload: the bodies that are started with the input of a row and the
observers that are told its result, on every path that reads rows of the SQL tables. -/
namespace Durare

namespace Sqlite

/-- `claim_for_recovery`: its WHERE clause is a compare-and-set. NULL equals no executor. -/
def claimForRecovery (now : DateTime) (req : RecoveryClaimRequest) (db : Db) : Answer RecoveryClaim :=
  match db.workflowStatus.get req.workflowId with
  | none => (.ok .lost, db)
  | some row =>
    if row.status ≠ .pending ∨ row.executorId ≠ some req.expectedExecutor ∨
        row.recoveryAttempts ≠ req.expectedAttempts then (.ok .lost, db)
    else
      let attempts := asI32 (req.expectedAttempts + 1)
      let row := { row with recoveryAttempts := row.recoveryAttempts + 1, updatedAt := now.timestampMillis }
      let put (row : WorkflowRecord) : Db := { db with workflowStatus := db.workflowStatus.put req.workflowId row }
      if req.maxAttempts < attempts then
        (.ok (.parked attempts), put { row with status := .maxRecoveryAttemptsExceeded, deduplicationId := none })
      else if req.requeue then (.ok .requeued, put { row with status := .enqueued, startedAtMs := none })
      else (.ok (.claimed attempts), put { row with executorId := some req.newExecutor })

def claimCandidate (now : DateTime) (req : DequeueRequest) :
    List (String × WorkflowRecord) × Db → String → List (String × WorkflowRecord) × Db
  | (claimed, db), id =>
    match db.workflowStatus.get id with
    | some row =>
      if row.status = .enqueued then
        let row := Postgres.claimRecord now req row
        (claimed ++ [(id, row)], { db with workflowStatus := db.workflowStatus.put id row })
      else (claimed, db)
    | none => (claimed, db)

/-- `dequeue_workflows`, given the ids that its scan finds. Its ORDER BY leaves their order open where
rows are equal, and on Postgres rows that others have locked are left out. -/
def dequeueWorkflows (now : DateTime) (req : DequeueRequest) (scan : List String) (db : Db) :
    List (String × WorkflowRecord) × Db :=
  (scan.take (Postgres.dequeueLimit now req db.workflowStatus).toNat).foldl (claimCandidate now req) ([], db)

end Sqlite

namespace Payloads

open Sqlite (Db WorkflowRecord rowToStatus decodeInput)
open Ownership (RecoveryDisposition recoveryRequest settlementCap)
open Roles (DurableEngine launchCreated denial identity)

/-- A row that was read, beside the columns it was read from. -/
structure Read where
  record : WorkflowStatus
  row : WorkflowRecord

/-- A handler handed a row to run. -/
structure Launch (H : Type) extends Roles.Launch H where
  row : WorkflowRecord

/-- A handle or an adopter is told what a terminal row says. -/
structure Told where
  id : String
  result : Except Error Value
  row : WorkflowRecord

/-- The database, the rows claimed or listed and not yet dealt with, the launches, the verifications,
and what observers were told. -/
structure System (H : Type) where
  db : Db
  claimed : List Read := []
  listed : List Read := []
  launches : List (Launch H) := []
  verified : List (Launch H) := []
  told : List Told := []

def System.new {H : Type} : System H := { db := Db.new }

/-- The paths of a row to its readers. Everything else that changes a row, or makes or deletes one, is a write. -/
inductive Event where
  | write (id : String) (row : Option WorkflowRecord)
  | start (created : DateTime) (id name : String) (input : Value) (opts : WorkflowOptions)
  | startChild (created : DateTime) (id name : String) (input : Value) (opts : WorkflowOptions) (auth : AuthContext)
      (parent : String) (seq : Int)
  | tick (created : DateTime) (scheduleName workflowName : String) (queueName : Option String) (instant : String)
      (input : Value)
  | dequeue (req : DequeueRequest) (scan : List String)
  | dispatch (place : Nat)
  | sweep (id : String)
  | recover (place : Nat)
  | settle (place : Nat) (disposition : RecoveryDisposition)
  | verify (id : String)
  | poll (id : String)

section Machine

variable {H : Type} (engine : DurableEngine H) (lib : SerdeJson) (serializer : Serializer)

/-- The launches of a row that an insert has just read back. -/
def withRow (db : Db) (launch : Roles.Launch H) : Option (Launch H) :=
  (db.workflowStatus.get launch.record.id).map fun row => { launch with row := row }

/-- A claim on a row observed earlier, and the launch it entitles to. -/
def claim (now : DateTime) (read : Read) (maxAttempts : Int) (handler : Option H) (sys : System H) : System H :=
  let (answer, db) := Sqlite.claimForRecovery now (recoveryRequest engine.rt read.record maxAttempts) sys.db
  match answer with
  | .ok (.claimed attempts) =>
    let record := { read.record with executorId := engine.rt.executorId, recoveryAttempts := attempts }
    let launches := (handler.map fun h => ({ handler := h, record := record, row := read.row } : Launch H)).toList
    { sys with db := db, launches := sys.launches ++ launches }
  | _ => { sys with db := db }

def next (sys : System H) (event : DateTime × Event) : System H :=
  let now := event.1
  match event.2 with
  | .write id row =>
    let rows := match row with
      | some row => sys.db.workflowStatus.put id row
      | none => sys.db.workflowStatus.erase id
    { sys with db := { sys.db with workflowStatus := rows } }
  | .start created id name input opts =>
    match engine.handler name opts.configName with
    | none => sys
    | some handler =>
      match engine.rt.buildRun now created id name input opts none (identity opts) with
      | .error _ => sys
      | .ok (row, queued) =>
        match Sqlite.insertWorkflowStatus lib serializer now row sys.db with
        | (.ok (canonical, isNew), db) =>
          let launches := (launchCreated (some handler) canonical queued isNew).filterMap (withRow db)
          { sys with db := db, launches := sys.launches ++ launches }
        | (.error _, db) => { sys with db := db }
  | .startChild created id name input opts auth parent seq =>
    match Runtime.validateChildArguments name opts, engine.rt.validateChildConfiguration name opts,
        engine.rt.buildRun now created id name input opts (some parent) auth with
    | .ok _, .ok _, .ok (row, queued) =>
      match Sqlite.insertChildWorkflow lib serializer now row parent seq (opts.dedupPolicy = .returnExisting) sys.db with
      | (.ok (some (.resolved canonical isNew)), db) =>
        let launches := (launchCreated (engine.handler name opts.configName) canonical queued isNew).filterMap (withRow db)
        { sys with db := db, launches := sys.launches ++ launches }
      | (_, db) => { sys with db := db }
    | _, _, _ => sys
  | .tick created scheduleName workflowName queueName instant input =>
    let id := s!"sched-{scheduleName}-{instant}"
    match engine.rt.buildRun now created id workflowName input { workflowId := some id, queue := queueName } none {} with
    | .error _ => sys
    | .ok (row, queued) =>
      match Sqlite.insertWorkflowStatus lib serializer now row sys.db with
      | (.ok (canonical, isNew), db) =>
        let launches := (launchCreated (engine.workflows.get workflowName) canonical queued isNew).filterMap (withRow db)
        { sys with db := db, launches := sys.launches ++ launches }
      | (.error _, db) => { sys with db := db }
  | .dequeue req scan =>
    let (claimed, db) := Sqlite.dequeueWorkflows now req scan sys.db
    { sys with
      db := db
      claimed := sys.claimed ++ claimed.map fun (id, row) => ⟨rowToStatus lib serializer now id row, row⟩ }
  | .dispatch place =>
    match sys.claimed[place]? with
    | none => sys
    | some read =>
      match engine.handler read.record.name read.record.configName with
      | some handler =>
        { sys with
          claimed := sys.claimed.eraseIdx place
          launches := sys.launches ++ [{ handler := handler, record := read.record, row := read.row }] }
      | none =>
        { sys with
          db := (Sqlite.setWorkflowStatus lib serializer now read.record.id .enqueued none none sys.db).2
          claimed := sys.claimed.eraseIdx place }
  | .sweep id =>
    match sys.db.workflowStatus.get id with
    | none => sys
    | some row =>
      if row.status = .pending then
        { sys with listed := sys.listed ++ [⟨rowToStatus lib serializer now id row, row⟩] }
      else sys
  | .recover place =>
    match sys.listed[place]? with
    | none => sys
    | some read =>
      if read.record.queueName.isSome then claim engine now read engine.rt.maxRecoveryAttempts none sys
      else match engine.handler read.record.name read.record.configName with
        | some handler => claim engine now read engine.rt.maxRecoveryAttempts (some handler) sys
        | none => sys
  | .settle place disposition =>
    match sys.launches[place]? with
    | none => sys
    | some launch =>
      claim engine now ⟨launch.record, launch.row⟩ (settlementCap engine.rt launch.record disposition) (some launch.handler) sys
  | .verify id =>
    match sys.db.workflowStatus.get id with
    | none => sys
    | some row =>
      let status := rowToStatus lib serializer now id row
      match engine.handler status.name status.configName with
      | some handler => { sys with verified := sys.verified ++ [{ handler := handler, record := status, row := row }] }
      | none => sys
  | .poll id =>
    match sys.db.workflowStatus.get id with
    | none => sys
    | some row =>
      let status := rowToStatus lib serializer now id row
      if status.status.isTerminal then
        { sys with told := sys.told ++ [⟨id, Observers.recordedResult lib id status, row⟩] }
      else sys

abbrev run (events : List (DateTime × Event)) : System H :=
  Runs.run (next engine lib serializer) events System.new

def System.bodies (sys : System H) : List (Launch H) :=
  (sys.launches.filter fun launch => (denial engine launch.record).isNone) ++ sys.verified

end Machine

def readInput (lib : SerdeJson) (serializer : Serializer) (row : WorkflowRecord) : Value :=
  (row.inputs.bind fun text => (decodeInput lib serializer row.serialization text).toOption).getD .null

section Invariant

variable {H : Type} {engine : DurableEngine H} {lib : SerdeJson} {serializer : Serializer}

/-- Everything that was read and is still about meets `P`, and what was told meets `T`. -/
structure Known (P : WorkflowStatus → WorkflowRecord → Prop) (T : Told → Prop) (sys : System H) : Prop where
  claimed : ∀ read ∈ sys.claimed, P read.record read.row
  listed : ∀ read ∈ sys.listed, P read.record read.row
  launches : ∀ launch ∈ sys.launches, P launch.record launch.row
  verified : ∀ launch ∈ sys.verified, P launch.record launch.row
  told : ∀ told ∈ sys.told, T told

def Stores (db : Db) (id : String) (row : WorkflowRecord) : Prop := db.workflowStatus.get id = some row

/-- The rows that a dequeue claims are stored, and are PENDING. -/
theorem claimed_stored (now : DateTime) (req : DequeueRequest) (scan : List String) (db : Db) :
    ∀ entry ∈ (Sqlite.dequeueWorkflows now req scan db).1, Stores (Sqlite.dequeueWorkflows now req scan db).2 entry.1 entry.2 := by
  have fold (ids : List String) : ∀ acc : List (String × WorkflowRecord) × Db,
      (∀ entry ∈ acc.1, Stores acc.2 entry.1 entry.2 ∧ entry.2.status = .pending) →
      ∀ entry ∈ (ids.foldl (Sqlite.claimCandidate now req) acc).1,
        Stores (ids.foldl (Sqlite.claimCandidate now req) acc).2 entry.1 entry.2 ∧ entry.2.status = .pending := by
    induction ids with
    | nil => exact fun _ kept => kept
    | cons id ids ih =>
      intro acc kept
      refine ih _ ?_
      obtain ⟨claimed, db⟩ := acc
      simp only [Sqlite.claimCandidate]
      split
      · next row found =>
        split
        · next waits =>
          intro entry member
          rcases List.mem_append.mp member with old | new
          · obtain ⟨stored, pending⟩ := kept entry old
            have other : entry.1 ≠ id := by
              intro same
              rw [Stores, same, found, Option.some.injEq] at stored
              rw [stored, pending] at waits
              cases waits
            exact ⟨by simpa [Stores, other] using stored, pending⟩
          · obtain rfl := List.mem_singleton.mp new
            exact ⟨by simp [Stores], rfl⟩
        · exact kept
      · exact kept
  intro entry member
  exact (fold _ ([], db) (fun entry member => absurd member List.not_mem_nil) entry member).1

/-- The row an insert reads back is the one that it leaves. -/
theorem inserted_stored {now : DateTime} {status canonical : WorkflowStatus} {db db' : Db} {isNew : Bool}
    (inserted : Sqlite.insertWorkflowStatus lib serializer now status db = (.ok (canonical, isNew), db')) :
    ∃ id row, Stores db' id row ∧ canonical = rowToStatus lib serializer now id row := by
  unfold Sqlite.insertWorkflowStatus at inserted
  rcases Sqlite.insertStatusOn_cases lib serializer now status false db with
    ⟨e, failed⟩ | ⟨row, stored, found⟩ | ⟨adopts, -, -⟩ | ⟨inputs, -, made⟩
  · rw [failed] at inserted
    cases inserted
  · rw [found] at inserted
    cases inserted
    exact ⟨status.id, row, stored, rfl⟩
  · cases adopts
  · rw [made] at inserted
    cases inserted
    exact ⟨status.id, _, by simp [Stores], rfl⟩

theorem child_stored {now : DateTime} {child canonical : WorkflowStatus} {parent : String} {seq : Int}
    {adopt isNew : Bool}
    {db db' : Db} (inserted : Sqlite.insertChildWorkflow lib serializer now child parent seq adopt db =
      (.ok (some (.resolved canonical isNew)), db')) :
    ∃ id row, Stores db' id row ∧ canonical = rowToStatus lib serializer now id row := by
  have settled := @Children.child_settledSql lib serializer parent seq db now child adopt
  rw [inserted] at settled
  cases settled with
  | created inputs => exact ⟨child.id, Sqlite.statusRecord lib serializer inputs child, by simp [Stores], rfl⟩
  | adopted id row _ _ stored => exact ⟨id, row, stored, rfl⟩

/-- A launch of a row just read back has that row beside it. -/
theorem launched_known {P : WorkflowStatus → WorkflowRecord → Prop} {now : DateTime} {handler : Option H}
    {canonical : WorkflowStatus} {queued isNew : Bool} {db : Db} {id : String} {row : WorkflowRecord}
    (stored : Stores db id row) (same : canonical = rowToStatus lib serializer now id row)
    (fresh : P (rowToStatus lib serializer now id row) row) :
    ∀ launch ∈ (launchCreated handler canonical queued isNew).filterMap (withRow db), P launch.record launch.row := by
  intro launch member
  obtain ⟨base, launched, with_row⟩ := List.mem_filterMap.mp member
  have record : base.record = canonical := by
    unfold launchCreated at launched
    split at launched
    · exact absurd launched List.not_mem_nil
    · cases handler with
      | none => exact absurd launched List.not_mem_nil
      | some h => rw [List.mem_singleton.mp launched]
  subst same
  have found : db.workflowStatus.get base.record.id = some row := by rw [record]; exact stored
  rw [withRow, found, Option.map_some, Option.some.injEq] at with_row
  rw [← with_row]
  exact record ▸ fresh

theorem claim_known {P : WorkflowStatus → WorkflowRecord → Prop} {T : Told → Prop} {sys : System H} (now : DateTime)
    {read : Read} (maxAttempts : Int) (handler : Option H)
    (owned : ∀ {record row} (executor : String) (attempts : Int), P record row →
      P { record with executorId := executor, recoveryAttempts := attempts } row)
    (known : Known P T sys) (kept : P read.record read.row) : Known P T (claim engine now read maxAttempts handler sys) := by
  unfold claim
  generalize Sqlite.claimForRecovery now (recoveryRequest engine.rt read.record maxAttempts) sys.db = claimed
  obtain ⟨answer, db⟩ := claimed
  simp only
  split
  · next attempts =>
    refine ⟨known.claimed, known.listed, fun launch member => ?_, known.verified, known.told⟩
    rcases List.mem_append.mp member with old | new
    · exact known.launches launch old
    · cases handler with
      | none => exact absurd new List.not_mem_nil
      | some h =>
        rw [List.mem_singleton.mp new]
        exact owned engine.rt.executorId attempts kept
  · exact ⟨known.claimed, known.listed, known.launches, known.verified, known.told⟩

/-- Every step keeps what is known, if it is known of every row that is stored before or after it. -/
theorem next_known {P : WorkflowStatus → WorkflowRecord → Prop} {T : Told → Prop} {sys : System H}
    (event : DateTime × Event)
    (owned : ∀ {record row} (executor : String) (attempts : Int), P record row →
      P { record with executorId := executor, recoveryAttempts := attempts } row)
    (before : ∀ id row, Stores sys.db id row → ∀ now, P (rowToStatus lib serializer now id row) row)
    (after : ∀ id row, Stores (next engine lib serializer sys event).db id row →
      ∀ now, P (rowToStatus lib serializer now id row) row)
    (told : ∀ id row, Stores sys.db id row → row.status.isTerminal = true → ∀ now,
      T ⟨id, Observers.recordedResult lib id (rowToStatus lib serializer now id row), row⟩)
    (known : Known P T sys) : Known P T (next engine lib serializer sys event) := by
  obtain ⟨now, event⟩ := event
  have launching {db : Db} {more : List (Launch H)} (all : ∀ launch ∈ more, P launch.record launch.row) :
      Known P T { sys with db := db, launches := sys.launches ++ more } := by
    refine ⟨known.claimed, known.listed, fun launch member => ?_, known.verified, known.told⟩
    rcases List.mem_append.mp member with old | new
    · exact known.launches launch old
    · exact all launch new
  have inserting {db : Db} : Known P T { sys with db := db } :=
    ⟨known.claimed, known.listed, known.launches, known.verified, known.told⟩
  cases event with
  | write id row => exact inserting
  | start created id name input opts =>
    simp only [next] at after ⊢
    split
    · exact known
    · next handler registered =>
      split
      · exact known
      · next row queued built =>
        simp only [registered, built] at after
        split
        · next canonical isNew db inserted =>
          simp only [inserted] at after
          obtain ⟨id, row, stored, same⟩ := inserted_stored inserted
          exact launching (launched_known stored same (after id row stored now))
        · exact inserting
  | startChild created id name input opts auth parent seq =>
    simp only [next] at after ⊢
    split
    · next row queued arguments configuration built =>
      simp only [arguments, configuration, built] at after
      split
      · next canonical isNew db inserted =>
        simp only [inserted] at after
        obtain ⟨id, row, stored, same⟩ := child_stored inserted
        exact launching (launched_known stored same (after id row stored now))
      · exact inserting
    · exact known
  | tick created scheduleName workflowName queueName instant input =>
    simp only [next] at after ⊢
    split
    · exact known
    · next row queued built =>
      simp only [built] at after
      split
      · next canonical isNew db inserted =>
        simp only [inserted] at after
        obtain ⟨id, row, stored, same⟩ := inserted_stored inserted
        exact launching (launched_known stored same (after id row stored now))
      · exact inserting
  | dequeue req scan =>
    refine ⟨fun read member => ?_, known.listed, known.launches, known.verified, known.told⟩
    rcases List.mem_append.mp member with old | new
    · exact known.claimed read old
    · obtain ⟨entry, claimed, rfl⟩ := List.mem_map.mp new
      exact after entry.1 entry.2 (claimed_stored now req scan sys.db entry claimed) now
  | dispatch place =>
    simp only [next]
    split
    · exact known
    · next read found =>
      split
      · next handler registered =>
        refine ⟨fun read member => known.claimed read (List.mem_of_mem_eraseIdx member), known.listed,
          fun launch member => ?_, known.verified, known.told⟩
        rcases List.mem_append.mp member with old | new
        · exact known.launches launch old
        · rw [List.mem_singleton.mp new]
          exact known.claimed read (List.mem_of_getElem? found)
      · exact ⟨fun read member => known.claimed read (List.mem_of_mem_eraseIdx member), known.listed, known.launches,
          known.verified, known.told⟩
  | sweep id =>
    simp only [next]
    split
    · exact known
    · next row stored =>
      split
      · refine ⟨known.claimed, fun read member => ?_, known.launches, known.verified, known.told⟩
        rcases List.mem_append.mp member with old | new
        · exact known.listed read old
        · rw [List.mem_singleton.mp new]
          exact before id row stored now
      · exact known
  | recover place =>
    simp only [next]
    split
    · exact known
    · next read found =>
      have kept := known.listed read (List.mem_of_getElem? found)
      split
      · exact claim_known now _ none owned known kept
      · split
        · exact claim_known now _ _ owned known kept
        · exact known
  | settle place disposition =>
    simp only [next]
    split
    · exact known
    · next launch found => exact claim_known now _ _ owned known (known.launches launch (List.mem_of_getElem? found))
  | verify id =>
    simp only [next]
    split
    · exact known
    · next row stored =>
      split
      · refine ⟨known.claimed, known.listed, known.launches, fun launch member => ?_, known.told⟩
        rcases List.mem_append.mp member with old | new
        · exact known.verified launch old
        · rw [List.mem_singleton.mp new]
          exact before id row stored now
      · exact known
  | poll id =>
    simp only [next]
    split
    · exact known
    · next row stored =>
      split
      · next terminal =>
        refine ⟨known.claimed, known.listed, known.launches, known.verified, fun entry member => ?_⟩
        rcases List.mem_append.mp member with old | new
        · exact known.told entry old
        · rw [List.mem_singleton.mp new]
          exact told id row stored terminal now
      · exact known

end Invariant

section Runs

variable {H : Type} (engine : DurableEngine H) (lib : SerdeJson) (serializer : Serializer)

def InputReadable (row : WorkflowRecord) : Prop :=
  ∀ text, row.inputs = some text → ∃ v, decodeInput lib serializer row.serialization text = .ok v

def OutputReadable (row : WorkflowRecord) : Prop :=
  ∀ text, row.output = some text → ∃ v, decode lib serializer row.serialization text = .ok v

/-- A body is given the input that is stored. -/
def Launch.Honest (launch : Launch H) : Prop :=
  ∀ text, launch.row.inputs = some text → decodeInput lib serializer launch.row.serialization text = .ok launch.record.input

/-- An observer who is told a value is told the output that is stored. -/
def Told.Honest (told : Told) : Prop :=
  ∀ v, told.result = .ok v → ∀ text, told.row.output = some text → decode lib serializer told.row.serialization text = .ok v

/-- The row was stored under the id at some time of the run. -/
def Stood (events : List (DateTime × Event)) (id : String) (row : WorkflowRecord) : Prop :=
  ∃ earlier, earlier <+: events ∧ Stores (run engine lib serializer earlier).db id row

def Was (events : List (DateTime × Event)) (record : WorkflowStatus) (row : WorkflowRecord) : Prop :=
  Stood engine lib serializer events record.id row ∧ record.input = readInput lib serializer row

def Said (events : List (DateTime × Event)) (told : Told) : Prop :=
  Stood engine lib serializer events told.id told.row ∧ told.row.status.isTerminal = true ∧ ∃ now,
    told.result = Observers.recordedResult lib told.id (rowToStatus lib serializer now told.id told.row)

variable {engine lib serializer}

theorem Known.mono {P P' : WorkflowStatus → WorkflowRecord → Prop} {T T' : Told → Prop} {sys : System H}
    (known : Known P T sys) (weaker : ∀ record row, P record row → P' record row) (less : ∀ told, T told → T' told) :
    Known P' T' sys :=
  ⟨fun read member => weaker _ _ (known.claimed read member), fun read member => weaker _ _ (known.listed read member),
    fun launch member => weaker _ _ (known.launches launch member), fun launch member => weaker _ _ (known.verified launch member),
    fun told member => less told (known.told told member)⟩

/-- What is read of a run was stored in it. -/
theorem run_known (events : List (DateTime × Event)) :
    Known (Was engine lib serializer events) (Said engine lib serializer events) (run engine lib serializer events) := by
  induction events using List.reverseRecOn with
  | nil =>
    exact ⟨fun _ member => absurd member List.not_mem_nil, fun _ member => absurd member List.not_mem_nil,
      fun _ member => absurd member List.not_mem_nil, fun _ member => absurd member List.not_mem_nil,
      fun _ member => absurd member List.not_mem_nil⟩
  | append_singleton events event ih =>
    have last : run engine lib serializer (events ++ [event]) =
        next engine lib serializer (run engine lib serializer events) event := by
      rw [run, Runs.run_append]
      rfl
    have later {id : String} {row : WorkflowRecord} (stood : Stood engine lib serializer events id row) :
        Stood engine lib serializer (events ++ [event]) id row := by
      obtain ⟨earlier, first, stored⟩ := stood
      exact ⟨earlier, first.trans (List.prefix_append _ _), stored⟩
    have here {id : String} {row : WorkflowRecord} (stored : Stores (run engine lib serializer events).db id row) :
        Stood engine lib serializer (events ++ [event]) id row := later ⟨events, List.prefix_refl _, stored⟩
    rw [last]
    refine next_known event (fun _ _ was => was) (fun id row stored now => ⟨here stored, rfl⟩) (fun id row stored now => ?_)
      (fun id row stored terminal now => ⟨here stored, terminal, now, rfl⟩)
      (ih.mono (fun _ _ was => ⟨later was.1, was.2⟩) (fun _ said => ⟨later said.1, said.2⟩))
    exact ⟨⟨events ++ [event], List.prefix_refl _, last ▸ stored⟩, rfl⟩

/-- What a reader gets is what is stored exactly when that can be read. -/
theorem readInput_honest (row : WorkflowRecord) : (∀ text, row.inputs = some text →
    decodeInput lib serializer row.serialization text = .ok (readInput lib serializer row)) ↔
      InputReadable lib serializer row := by
  constructor
  · exact fun honest text stored => ⟨_, honest text stored⟩
  · intro readable text stored
    obtain ⟨v, read⟩ := readable text stored
    simp [readInput, stored, read, Except.toOption]

theorem recordedResult_honest (now : DateTime) (id : String) {row : WorkflowRecord}
    (terminal : row.status.isTerminal = true) :
    (∀ v, Observers.recordedResult lib id (rowToStatus lib serializer now id row) = .ok v → ∀ text, row.output = some text →
      decode lib serializer row.serialization text = .ok v) ↔ (row.status = .success → OutputReadable lib serializer row) := by
  have told (success : row.status = .success) : Observers.recordedResult lib id (rowToStatus lib serializer now id row) =
      .ok ((row.output.bind fun text => (decode lib serializer row.serialization text).toOption).getD .null) := by
    simp only [Observers.recordedResult, rowToStatus, success]
  constructor
  · intro honest success text stored
    exact ⟨_, honest _ (told success) text stored⟩
  · intro readable v result text stored
    cases status : row.status with
    | success =>
      obtain ⟨w, read⟩ := readable status text stored
      rw [told status, stored] at result
      simp only [Option.bind_some, read, Except.toOption, Option.getD_some, Except.ok.injEq] at result
      exact result ▸ read
    | error =>
      simp only [Observers.recordedResult, rowToStatus, status] at result
      split at result <;> cases result
    | cancelled => simp [Observers.recordedResult, rowToStatus, status] at result
    | maxRecoveryAttemptsExceeded => simp [Observers.recordedResult, rowToStatus, status] at result
    | _ => simp [status, Status.isTerminal] at terminal

/-- Every body that starts is given the stored input, and every observer of a success the stored output,
exactly where these can be read. -/
theorem payloads_honest (events : List (DateTime × Event)) :
    (∀ launch ∈ (run engine lib serializer events).bodies engine,
      Stood engine lib serializer events launch.record.id launch.row ∧
        (launch.Honest lib serializer ↔ InputReadable lib serializer launch.row)) ∧
    ∀ told ∈ (run engine lib serializer events).told, Stood engine lib serializer events told.id told.row ∧
      (told.Honest lib serializer ↔ (told.row.status = .success → OutputReadable lib serializer told.row)) := by
  have known := @run_known H engine lib serializer events
  constructor
  · intro launch member
    have was : Was engine lib serializer events launch.record launch.row := by
      rcases List.mem_append.mp member with started | verified
      · exact known.launches launch (List.mem_filter.mp started).1
      · exact known.verified launch verified
    refine ⟨was.1, ?_⟩
    rw [Launch.Honest, was.2]
    exact readInput_honest launch.row
  · intro told member
    obtain ⟨stood, terminal, now, result⟩ := known.told told member
    refine ⟨stood, ?_⟩
    rw [Told.Honest, result]
    exact recordedResult_honest now told.id terminal

end Runs

def reporting : DurableEngine Unit where
  workflows := (∅ : Table String Unit).put "report" ()
  requiredRoles := ∅
  rt := { executorId := "here", appVersion := "", workflows := ["report"], queues := ["q"] }

/-- A row whose input and output are written in a format that no serializer here reads. -/
def pickled (status : Status) : WorkflowRecord where
  status := status
  name := "report"
  inputs := some "gASVBQAAAA=="
  output := some "gASVBQAAAA=="
  serialization := some "py_pickle"
  executorId := none
  applicationVersion := none
  queueName := some "q"
  createdAt := 0
  updatedAt := 0

def anyOne : DequeueRequest where
  queueName := "q"
  executorId := "here"
  appVersion := ""
  partitionKey := none
  maxTasks := 1
  globalConcurrency := none
  rateLimitMax := none
  rateLimitPeriodMs := none

/-- One row waits on a queue and is dispatched; of another that has succeeded the result is asked. -/
def foreign : List (DateTime × Event) :=
  [(0, .write "waiting" (some (pickled .enqueued))), (0, .dequeue anyOne ["waiting"]), (0, .dispatch 0),
    (0, .write "done" (some (pickled .success))), (0, .poll "done")]

/-- The body is started with null, and the observer is told null. -/
theorem foreign_null : ¬ ((∀ launch ∈ (run reporting (.reading []) .json foreign).bodies reporting,
      launch.Honest (.reading []) .json) ∨
    ∀ told ∈ (run reporting (.reading []) .json foreign).told, told.Honest (.reading []) .json) := by
  have started : ((run reporting (.reading []) .json foreign).bodies reporting).map (fun launch =>
      (launch.record.input, launch.row.inputs, launch.row.serialization)) =
      [(.null, some "gASVBQAAAA==", some "py_pickle")] := rfl
  have heard : (run reporting (.reading []) .json foreign).told.map (fun told =>
      (told.result, told.row.output, told.row.serialization)) =
      [(.ok .null, some "gASVBQAAAA==", some "py_pickle")] := rfl
  rintro (honest | honest)
  · obtain ⟨launch, only, facts⟩ := List.map_eq_singleton_iff.mp started
    simp only [Prod.mk.injEq] at facts
    have read := honest launch (only ▸ List.mem_singleton.mpr rfl) _ facts.2.1
    rw [facts.1, facts.2.2] at read
    exact absurd read (by decide)
  · obtain ⟨told, only, facts⟩ := List.map_eq_singleton_iff.mp heard
    simp only [Prod.mk.injEq] at facts
    have read := honest told (only ▸ List.mem_singleton.mpr rfl) _ facts.1 _ facts.2.1
    rw [facts.2.2] at read
    exact absurd read (by decide)

end Payloads

end Durare

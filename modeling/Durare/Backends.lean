import Durare.HeldCalls

/-! The workflow rows of the two backends through their whole life: a SQLite database that holds the rows of the
in-memory provider answers every call as it does, and goes on holding its rows. -/
namespace Durare.Backends

open Memory Dequeue

variable {lib : SerdeJson} {serializer : Serializer} {db : Sqlite.Db} {s : Inner}

section Called

variable (holds : Holds lib serializer db s) (now : DateTime)

include holds

theorem Holds.slotTaken {w : WorkflowStatus} (absent : s.workflows.get w.id = none) :
    Sqlite.slotTaken w db = (dedupConflict w s).isSome := by
  unfold Sqlite.slotTaken dedupConflict
  cases w.queueName with
  | none => rfl
  | some queue =>
    cases w.dedupId with
    | none => rfl
    | some dedup =>
      dsimp only
      have alike : (db.workflowStatus.values.any fun r =>
          r.queueName == some queue && r.deduplicationId == some dedup) =
          s.workflows.values.any fun other => other.id != w.id && holdsDedup queue dedup other := by
        rw [Bool.eq_iff_iff]
        simp only [List.any_eq_true, Table.mem_values]
        constructor
        · rintro ⟨r, ⟨id, stored⟩, held⟩
          obtain ⟨other, found, same⟩ := holds.record stored
          refine ⟨other, ⟨id, found⟩, ?_⟩
          rw [← same.columns] at held
          have distinct : other.id ≠ w.id := by
            rintro here
            rw [← here, same.id, found] at absent
            cases absent
          simpa [distinct, holdsDedup, columnsOf] using held
        · rintro ⟨other, ⟨id, stored⟩, held⟩
          obtain ⟨r, found, same⟩ := holds.row stored
          refine ⟨r, ⟨id, found⟩, ?_⟩
          rw [← same.columns]
          exact (Bool.and_eq_true_iff.mp held).2
      rw [alike]
      split <;> simp_all

theorem Holds.insertWorkflowStatus (lawful : lib.Lawful) {w : WorkflowStatus} {text : String}
    (startable : Startable lib serializer w text)
    (apart : (s.workflows.get w.id).isSome = true → dedupConflict w s = none) :
    (Sqlite.insertWorkflowStatus lib serializer now w db).1 =
        (Memory.insertWorkflowStatus w s).1.map (fun start => (seen now start.1, start.2)) ∧
      Holds lib serializer (Sqlite.insertWorkflowStatus lib serializer now w db).2
        (Memory.insertWorkflowStatus w s).2 := by
  unfold Sqlite.insertWorkflowStatus Sqlite.insertStatusOn Memory.insertWorkflowStatus
  simp only [startable.written]
  cases stored : s.workflows.get w.id with
  | some row =>
    obtain ⟨r, found, same⟩ := holds.row stored
    rw [apart (by rw [stored]; rfl), found]
    exact ⟨congrArg (fun row => Except.ok (row, false)) (same.read now), holds⟩
  | none =>
    have slot := holds.slotTaken stored
    rw [holds.absent.mpr stored]
    dsimp only
    cases conflict : dedupConflict w s with
    | some held =>
      obtain ⟨queue, dedup⟩ := held
      have named : w.queueName = some queue ∧ w.dedupId = some dedup := by
        unfold dedupConflict at conflict
        split at conflict
        next queue' dedup' onQueue holdsId =>
          split at conflict
          · cases conflict
            exact ⟨onQueue, holdsId⟩
          · cases conflict
        · cases conflict
      rw [conflict] at slot
      rw [slot, named.1, named.2]
      exact ⟨rfl, holds⟩
    | none =>
      rw [conflict] at slot
      rw [slot]
      refine ⟨congrArg (fun row => Except.ok (row, true)) ((startable.row lawful).read now), ?_⟩
      refine holds.put (startable.row lawful) fun queue dedup onQueue held other r' there also same => ?_
      have onQueue : w.queueName = some queue := onQueue
      have held : w.dedupId = some dedup := held
      have taken : Sqlite.slotTaken w db = true := by
        simp only [Sqlite.slotTaken, onQueue, held, List.any_eq_true, Table.mem_values]
        exact ⟨r', ⟨other, there⟩, by simp [also, same]⟩
      rw [taken] at slot
      cases slot

theorem Holds.getDeduplicatedWorkflow (queue dedup : String) :
    (Sqlite.getDeduplicatedWorkflow queue dedup db).1 = (Memory.getDeduplicatedWorkflow queue dedup s).1 := by
  have slot {id : String} {r : Sqlite.WorkflowRecord} {w : WorkflowStatus} (same : SameRow lib serializer id r w) :
      (r.queueName == some queue && r.deduplicationId == some dedup) = holdsDedup queue dedup w := by
    rw [← same.columns]
    rfl
  have alone {id other : String} (here : id ∈ s.workflows.keysOf (holdsDedup queue dedup))
      (there : other ∈ s.workflows.keysOf (holdsDedup queue dedup)) : id = other := by
    obtain ⟨w, stored, held⟩ := (Table.mem_keysOf _ _ _).mp here
    obtain ⟨w', stored', held'⟩ := (Table.mem_keysOf _ _ _).mp there
    obtain ⟨r, found, same⟩ := holds.row stored
    obtain ⟨r', found', same'⟩ := holds.row stored'
    rw [← slot same, Bool.and_eq_true, beq_iff_eq, beq_iff_eq] at held
    rw [← slot same', Bool.and_eq_true, beq_iff_eq, beq_iff_eq] at held'
    exact holds.indexed found found' held.1 held'.1 held.2 held'.2
  have members := holds.mem_keysOf fun id r w same => slot same
  refine congrArg Except.ok ?_
  cases first : s.workflows.values.find? (holdsDedup queue dedup) with
  | none =>
    rw [List.find?_eq_none] at first
    rw [Option.map_none, List.head?_eq_none_iff, List.eq_nil_iff_forall_not_mem]
    intro id listed
    obtain ⟨w, stored, held⟩ := (Table.mem_keysOf _ _ _).mp ((members id).mp listed)
    exact first w ((Table.mem_values _ _).mpr ⟨id, stored⟩) held
  | some w =>
    obtain ⟨id, stored⟩ := (Table.mem_values _ _).mp (List.mem_of_find?_eq_some first)
    have here : id ∈ s.workflows.keysOf (holdsDedup queue dedup) :=
      (Table.mem_keysOf _ _ _).mpr ⟨w, stored, List.find?_some first⟩
    rw [Option.map_some, holds.keyed id w stored]
    cases listed : db.workflowStatus.keysOf fun r => r.queueName == some queue && r.deduplicationId == some dedup with
    | nil =>
      have inside := (members id).mpr here
      rw [listed] at inside
      cases inside
    | cons other rest =>
      have there := (members other).mp (by rw [listed]; exact List.mem_cons_self)
      rw [List.head?_cons, alone there here]

theorem Holds.setWorkflowStatus (lawful : lib.Lawful) (sound : serializer.Lawful) (id : String) (status : Status)
    (output : Option Value) (error : Option String)
    (alike : ∀ text, error = some text → decodeError lib (some serializer.name) text = decodeError lib none text) :
    (Sqlite.setWorkflowStatus lib serializer now id status output error db).1 =
        (Memory.setWorkflowStatus lib now id status output error s).1 ∧
      Holds lib serializer (Sqlite.setWorkflowStatus lib serializer now id status output error db).2
        (Memory.setWorkflowStatus lib now id status output error s).2 := by
  obtain ⟨text, written, reads⟩ : ∃ text, Sqlite.encodeOpt lib serializer output = .ok text ∧
      Option.Rel (fun text value => decode lib serializer (some serializer.name) text = .ok value) text output := by
    cases output with
    | none => exact ⟨none, rfl, .none⟩
    | some value =>
      obtain ⟨text, stored⟩ := Serializer.Lawful.stored lawful sound value
      exact ⟨some text, by simp [Sqlite.encodeOpt, stored.1, Except.map], .some stored.2⟩
  unfold Sqlite.setWorkflowStatus Memory.setWorkflowStatus
  rw [written]
  cases stored : s.workflows.get id with
  | none =>
    rw [holds.absent.mpr stored]
    exact ⟨rfl, holds⟩
  | some w =>
    obtain ⟨r, found, same⟩ := holds.row stored
    have current : r.status = w.status := by rw [← same.columns]; rfl
    simp only [found, current]
    split
    next allowed =>
      refine ⟨rfl, holds.putFreed found (same.finished now status reads alike) ?_⟩
      unfold Sqlite.finishRecord Frees
      dsimp only
      split
      · exact .inl rfl
      · exact .inr ⟨rfl, rfl⟩
    · exact ⟨rfl, holds⟩

theorem Holds.enqueueExisting (id queue : String)
    (free : ∀ r, db.workflowStatus.get id = some r → Sqlite.slotTakenFrom id queue db r = false) :
    (Sqlite.enqueueExisting now id queue db).1 = (Memory.enqueueExisting now id queue s).1 ∧
      Holds lib serializer (Sqlite.enqueueExisting now id queue db).2 (Memory.enqueueExisting now id queue s).2 := by
  unfold Sqlite.enqueueExisting
  cases stored : db.workflowStatus.get id with
  | none =>
    have absent := holds.absent.mp stored
    have same : (Memory.enqueueExisting now id queue s).2 = s := by
      simp only [Memory.enqueueExisting, Table.modify, absent]
    exact ⟨rfl, by rw [same]; exact holds⟩
  | some r =>
    obtain ⟨w, found, same⟩ := holds.record stored
    have written : (Memory.enqueueExisting now id queue s).2 = s.putRow id
        { w with status := .enqueued, queueName := some queue, executorId := "", startedAtMs := none, updatedAt :=
          now } := by
      simp only [Memory.enqueueExisting, Table.modify, found]
      rfl
    simp only [free r stored, Bool.false_eq_true, if_false, written]
    refine ⟨rfl, holds.put (same.requeued now queue) fun queue' dedup onQueue held other r' there also taken => ?_⟩
    cases onQueue
    have held : r.deduplicationId = some dedup := held
    by_contra another
    have unfree := free r stored
    simp only [Sqlite.slotTakenFrom, held, Option.any_some, List.any_eq_false] at unfree
    exact unfree (other, r') ((Table.mem_toList _ _ _).mpr there) (by simp [another, also, taken])

theorem Holds.cancelWorkflowsWithOptions {refuses : Sqlite.Limit} (ids : List String) (options : CancelOptions)
    (accepted : ids = [] ∨ refuses (Sqlite.cancelBinds ids options) = none) :
    ∃ db', Sqlite.cancelWorkflowsWithOptions refuses (rounds ids db) now ids options db = some (.ok (), db') ∧
      Holds lib serializer db' (Memory.cancelWorkflowsWithOptions now ids options s).2 := by
  obtain ⟨found, query, selected⟩ : ∃ found, (if options.cancelChildren then
        Closure.recursive (Sqlite.childrenOf db) (rounds ids db) (Sqlite.cancelSeeds ids db) (Sqlite.cancelSeeds ids db)
      else some ids) = some found ∧
      ∀ id, (s.workflows.get id).isSome = true →
        (id ∈ found ↔ id ∈ if options.cancelChildren then targetsWithChildren ids s else ids) := by
    cases options.cancelChildren with
    | false => exact ⟨ids, rfl, fun id _ => Iff.rfl⟩
    | true =>
      obtain ⟨found, query, selected⟩ := holds.mirrors.query_ends ids (rounds ids db) (by unfold rounds; omega)
      refine ⟨found, query, fun id present => ?_⟩
      rw [selected, if_pos rfl, mem_targetsWithChildren]
      exact and_iff_left present
  have rewritten : Holds lib serializer
      { db with workflowStatus := db.workflowStatus.mapValues fun id r =>
        if found.contains id then Sqlite.cancelRecord now r else r }
      (Memory.cancelWorkflowsWithOptions now ids options s).2 := by
    refine holds.rewritten ?_ ?_
    · intro id r w stored held same
      have targets := selected id (by rw [held]; rfl)
      simp only [Memory.cancelWorkflowsWithOptions, cancelled_get, Table.get_mapValues, stored, held, Option.map_some,
        List.contains_iff_mem, targets]
      generalize (if options.cancelChildren = true then targetsWithChildren ids s else ids) = listed
      split
      · refine .kept (same.cancelled now) ?_
        unfold Sqlite.cancelRecord
        split
        · exact .inr ⟨rfl, rfl⟩
        · exact .inl rfl
      · exact .kept same (.inr ⟨rfl, rfl⟩)
    · intro id stored held
      simp [Memory.cancelWorkflowsWithOptions, cancelled_get, stored, held]
  unfold Sqlite.cancelWorkflowsWithOptions
  split
  next none =>
    rw [List.isEmpty_iff] at none
    subst none
    have same : (Memory.cancelWorkflowsWithOptions now [] options s).2 = s := by
      unfold Memory.cancelWorkflowsWithOptions
      cases options.cancelChildren <;> rfl
    exact ⟨db, rfl, by rw [same]; exact holds⟩
  next asked =>
    rw [accepted.resolve_left (by simpa using asked), query]
    exact ⟨_, rfl, rewritten⟩

theorem Holds.deleteWorkflows {refuses : Sqlite.Limit} (ids : List String) (deleteChildren : Bool)
    (accepted : ids = [] ∨ refuses ids.length = none)
    (rooted : deleteChildren = true → ∀ root ∈ ids, s.workflows.get root = none →
      ∀ child, ParentOf s root child → StoredDescends s ids child) :
    ∃ db', Sqlite.deleteWorkflows refuses (rounds ids db) ids deleteChildren db = some (.ok (), db') ∧
      Holds lib serializer db' (Memory.deleteWorkflows ids deleteChildren s).2 := by
  obtain ⟨found, query, selected⟩ : ∃ found, (if deleteChildren then
        Closure.recursive (Sqlite.childrenOf db) (rounds ids db) (Sqlite.deleteSeeds ids db) (Sqlite.deleteSeeds ids db)
      else some ids) = some found ∧
      ∀ id, (s.workflows.get id).isSome = true →
        (id ∈ found ↔ id ∈ if deleteChildren then targetsWithChildren ids s else ids) := by
    cases deleteChildren with
    | false => exact ⟨ids, rfl, fun id _ => Iff.rfl⟩
    | true =>
      obtain ⟨found, query, selected⟩ := holds.mirrors.deletion_ends ids (rounds ids db) (by unfold rounds; omega)
      refine ⟨found, query, fun id present => ?_⟩
      rw [selected, if_pos rfl, mem_targetsWithChildren]
      exact ⟨StoredDescends.descends, fun descends => descends.stored (rooted rfl) present⟩
  have rewritten : Holds lib serializer (Sqlite.deleteRows found db)
      (Memory.deleteWorkflows ids deleteChildren s).2 := by
    refine holds.rewritten ?_ ?_
    · intro id r w stored held same
      have targets := selected id (by rw [held]; rfl)
      simp only [Memory.deleteWorkflows, deleteTargets, Sqlite.deleteRows, Table.get_retain, stored, held]
      generalize (if deleteChildren = true then targetsWithChildren ids s else ids) = listed at targets ⊢
      by_cases target : id ∈ listed
      · simpa [target, targets.mpr target] using .gone
      · simpa [target, mt targets.mp target] using .kept same (.inr ⟨rfl, rfl⟩)
    · intro id stored held
      simp [Memory.deleteWorkflows, deleteTargets, Sqlite.deleteRows, stored, held]
  unfold Sqlite.deleteWorkflows
  split
  next none =>
    rw [List.isEmpty_iff] at none
    subst none
    have same : (Memory.deleteWorkflows [] deleteChildren s).2 = deleteTargets [] s := by
      unfold Memory.deleteWorkflows
      cases deleteChildren <;> rfl
    refine ⟨db, rfl, ?_⟩
    rw [same]
    refine holds.rewritten (fun id r w stored held same => ?_) fun id stored held => ?_
    · simpa [deleteTargets, stored, held] using .kept same (.inr ⟨rfl, rfl⟩)
    · simp [deleteTargets, stored, held]
  next asked =>
    rw [accepted.resolve_left (by simpa using asked), query]
    exact ⟨_, rfl, rewritten⟩

theorem Holds.dequeueLimit (req : DequeueRequest) :
    Postgres.dequeueLimit now req db.workflowStatus = dequeueLimit now req s := by
  have pending : Postgres.pendingCount req.queueName req.partitionKey db.workflowStatus = pendingCount req s :=
    holds.countP fun id r w same => by rw [← same.columns]; rfl
  have recent (cutoff : Int) :
      Postgres.recentCount req.queueName req.partitionKey cutoff db.workflowStatus = recentCount req cutoff s :=
    holds.countP fun id r w same => by rw [← same.columns]; rfl
  simp only [Postgres.dequeueLimit, pending, recent]
  exact (dequeueLimit_eq now req s).symm

omit holds in
theorem SameRow.claimable {req : DequeueRequest} {latest : Bool} (versioned : req.appVersion = "" → latest = true)
    {id : String} {r : Sqlite.WorkflowRecord} {w : WorkflowStatus} (same : SameRow lib serializer id r w) :
    Postgres.claimable req latest r = Memory.claimable req latest w := by
  have scope : Postgres.inScope req.queueName req.partitionKey r = onQueue req w := by rw [← same.columns]; rfl
  have status : r.status = w.status := by rw [← same.columns]; rfl
  have version : r.applicationVersion = nonEmpty (some w.appVersion) := by rw [← same.columns]; rfl
  unfold Postgres.claimable Memory.claimable
  rw [scope, status, version]
  congr 1
  by_cases unversioned : w.appVersion = ""
  · by_cases blank : req.appVersion = ""
    · simp [nonEmpty, Option.filter, unversioned, versioned blank]
    · simp [nonEmpty, Option.filter, unversioned, Ne.symm blank]
  · simp [nonEmpty, Option.filter, unversioned]

/-- The scan of the database is the order of the queue. -/
theorem Holds.scan_eq {req : DequeueRequest} {latest : Option String} {scan : List String}
    (scanned : Scanned now req latest scan db s) :
    Sqlite.isLatest req latest = Memory.isLatest req s ∧
      scan = ((eligible req s).insertionSort queueOrder).map (·.id) := by
  have registered : Sqlite.isLatest req latest = Memory.isLatest req s := by
    rw [scanned.registered, Memory.isLatest]
    cases minBy (fun v => -v.versionTimestamp) s.versions.values <;> rfl
  refine ⟨registered, ?_⟩
  have alike (id : String) (r : Sqlite.WorkflowRecord) (w : WorkflowStatus) (same : SameRow lib serializer id r w) :
      Postgres.claimable req (Sqlite.isLatest req latest) r = Memory.claimable req (Memory.isLatest req s) w := by
    rw [← registered]
    exact same.claimable scanned.versioned
  have keyed := holds.keyed
  obtain ⟨perm, ordered⟩ := scanned.scans
  have waiting : ((eligible req s).map (·.id)).Nodup := keyed.nodup_ids.sublist (List.filter_sublist.map _)
  have sorted := (List.perm_insertionSort queueOrder (eligible req s)).map (·.id)
  have members (id : String) : id ∈ scan ↔ id ∈ ((eligible req s).insertionSort queueOrder).map (·.id) := by
    rw [perm.mem_iff, holds.mem_keysOf alike, sorted.mem_iff, Table.mem_keysOf, List.mem_map]
    constructor
    · rintro ⟨w, stored, claims⟩
      exact ⟨w, List.mem_filter.mpr ⟨(Table.mem_values _ _).mpr ⟨id, stored⟩, claims⟩, keyed id w stored⟩
    · rintro ⟨w, waits, rfl⟩
      exact ⟨w, mem_eligible keyed waits, (List.mem_filter.mp waits).2⟩
  have distinct : scan.Nodup := perm.nodup_iff.mpr (Table.nodup_keysOf ..)
  have ranked : scan.Pairwise fun a b => Postgres.inOrder db.workflowStatus a b = true ∧
      (Postgres.inOrder db.workflowStatus b a = true → a ≤ b) := ordered.and scanned.ties
  refine ((List.perm_ext_iff_of_nodup distinct (sorted.nodup_iff.mpr waiting)).mpr members).eq_of_pairwise ?_ ranked ?_
  · rintro a b - - ⟨ab, first⟩ ⟨ba, second⟩
    exact le_antisymm (first ba) (second ab)
  · rw [List.pairwise_map]
    have queue := List.pairwise_insertionSort queueOrder (eligible req s)
    refine queue.imp_of_mem fun {a b} here there before => ?_
    rw [List.mem_insertionSort] at here there
    obtain ⟨r, stored, same⟩ := holds.row (mem_eligible keyed here)
    obtain ⟨r', stored', same'⟩ := holds.row (mem_eligible keyed there)
    have rank {id : String} {r : Sqlite.WorkflowRecord} {w : WorkflowStatus} (same : SameRow lib serializer id r w) :
        r.priority = w.priority ∧ r.createdAt = w.createdAt.timestampMillis := by
      rw [← same.columns]
      exact ⟨rfl, rfl⟩
    obtain ⟨priority, created⟩ := rank same
    obtain ⟨priority', created'⟩ := rank same'
    simp only [Postgres.inOrder, stored, stored', priority, priority', created, created', Bool.or_eq_true,
      decide_eq_true_eq,
      Bool.and_eq_true, beq_iff_eq]
    rcases before with low | ⟨tied, early | ⟨also, le⟩⟩
    · exact ⟨.inl low, fun back => by omega⟩
    · exact ⟨.inr ⟨tied, early.le⟩, fun back => by omega⟩
    · exact ⟨.inr ⟨tied, also.le⟩, fun _ => le⟩

theorem Holds.dequeueWorkflows {req : DequeueRequest} {latest : Option String} {scan : List String}
    (scanned : Scanned now req latest scan db s) :
    (Sqlite.dequeueStatuses lib serializer now req scan db).1 =
        (Memory.dequeueWorkflows now req s).1.map (·.map (seen now)) ∧
      Holds lib serializer (Sqlite.dequeueStatuses lib serializer now req scan db).2
        (Memory.dequeueWorkflows now req s).2 := by
  obtain ⟨-, queue⟩ := holds.scan_eq now scanned
  have keyed := holds.keyed
  have limit := holds.dequeueLimit now req
  have taken : scan.take (Memory.dequeueLimit now req s).toNat = dequeueCandidates now req s := by
    rw [queue, dequeueCandidates_eq, firstRows, List.map_take]
  have distinct : (dequeueCandidates now req s).Nodup := dequeueCandidates_nodup keyed
  have inside {id : String} (listed : id ∈ dequeueCandidates now req s) : id ∈ scan := by
    rw [← taken] at listed
    exact List.mem_of_mem_take listed
  have waits : ∀ id ∈ dequeueCandidates now req s, ∃ r, db.workflowStatus.get id = some r ∧ r.status = .enqueued := by
    intro id listed
    obtain ⟨r, stored, claims⟩ := (Table.mem_keysOf _ _ _).mp (scanned.scans.1.mem_iff.mp (inside listed))
    simp only [Postgres.claimable, Bool.and_eq_true, beq_iff_eq] at claims
    exact ⟨r, stored, claims.1.2⟩
  obtain ⟨handed, rows⟩ := claimCandidate_claims now req distinct [] waits
  have answer : Sqlite.dequeueStatuses lib serializer now req scan db =
      (.ok ((dequeueCandidates now req s).filterMap fun id => (db.workflowStatus.get id).map fun r =>
          Sqlite.rowToStatus lib serializer now id (Postgres.claimRecord now req r)),
        ((dequeueCandidates now req s).foldl (Sqlite.claimCandidate now req) ([], db)).2) := by
    rw [Sqlite.dequeueStatuses, Sqlite.dequeueWorkflows, limit, taken]
    dsimp only
    rw [handed, List.nil_append, List.map_filterMap]
    simp only [Option.map_map, Function.comp_def]
  have claimed {id : String} {r : Sqlite.WorkflowRecord} {w : WorkflowStatus}
      (listed : id ∈ dequeueCandidates now req s)
      (stored : db.workflowStatus.get id = some r) (same : SameRow lib serializer id r w) :
      SameRow lib serializer id (Postgres.claimRecord now req r) (claimRow now req w) :=
    same.claimed now req (scanned.inRange id (inside listed) r stored)
  rw [answer]
  constructor
  · have answers : (Memory.dequeueWorkflows now req s).1 =
        .ok ((dequeueCandidates now req s).filterMap (Memory.dequeueWorkflows now req s).2.workflows.get) := rfl
    rw [answers]
    refine congrArg Except.ok ?_
    dsimp only
    rw [List.map_filterMap]
    refine List.filterMap_congr fun id listed => ?_
    rw [dequeueWorkflows_get, if_pos listed]
    obtain ⟨r, stored, -⟩ := waits id listed
    obtain ⟨w, found, same⟩ := holds.record stored
    simp only [stored, found, Option.map_some, (claimed listed stored same).read now]
  · refine holds.rewritten ?_ ?_
    · intro id r w stored found same
      rw [rows, dequeueWorkflows_get, stored, found]
      split
      next listed => exact .kept (claimed listed stored same) (.inr ⟨rfl, rfl⟩)
      · exact .kept same (.inr ⟨rfl, rfl⟩)
    · intro id stored found
      rw [rows, dequeueWorkflows_get, stored, found]
      simp

end Called

theorem replied_plain {α σ τ : Type} (now : DateTime) {form : α → Reply} (plain : ∀ a, (form a).seen now = form a)
    {result : Except Error α × σ} {result' : Except Error α × τ} (answers : result.1 = result'.1) :
    (replied form result).1 = (replied form result').1.map (Reply.seen now) := by
  rw [replied, replied, answers]
  cases result'.1 with
  | error e => rfl
  | ok a => exact congrArg Except.ok (plain a).symm

/-- A call ends on SQLite, answers as in memory and keeps the two sides together. -/
theorem Holds.call (holds : Holds lib serializer db s) (lawful : lib.Lawful) (sound : serializer.Lawful)
    {refuses : Sqlite.Limit} (now : DateTime) {call : Call} (proper : call.Proper lib serializer refuses now db s) :
    ∃ db', call.sqlite lib serializer refuses now db = some ((call.memory lib now s).1.map (Reply.seen now), db') ∧
      Holds lib serializer db' (call.memory lib now s).2 := by
  cases call with
  | insertWorkflowStatus w =>
    obtain ⟨⟨text, startable⟩, apart⟩ := proper
    obtain ⟨answers, after⟩ := holds.insertWorkflowStatus now lawful startable apart
    refine ⟨_, congrArg some (Prod.ext ?_ rfl), after⟩
    simp only [Call.memory, replied, answers]
    cases (Memory.insertWorkflowStatus w s).1 <;> rfl
  | getWorkflowStatus id =>
    exact ⟨db, congrArg some (Prod.ext (congrArg (fun found => Except.ok (Reply.row found)) (holds.get now id)) rfl),
      holds⟩
  | getDeduplicatedWorkflow queue dedup =>
    have answers := holds.getDeduplicatedWorkflow queue dedup
    exact ⟨db, congrArg some (Prod.ext (replied_plain now (fun _ => rfl) answers) rfl), holds⟩
  | setWorkflowStatus id status output error =>
    obtain ⟨answers, after⟩ := holds.setWorkflowStatus now lawful sound id status output error proper
    exact ⟨_, congrArg some (Prod.ext (replied_plain now (fun _ => rfl) answers) rfl), after⟩
  | dequeueWorkflows req latest scan =>
    obtain ⟨answers, after⟩ := holds.dequeueWorkflows now proper
    refine ⟨_, congrArg some (Prod.ext ?_ rfl), after⟩
    simp only [Call.memory, replied, answers]
    cases (Memory.dequeueWorkflows now req s).1 <;> rfl
  | transitionDelayedWorkflows nowMs =>
    cases proper
    obtain ⟨answers, after⟩ := holds.transitionDelayedWorkflows now
    exact ⟨_, congrArg some (Prod.ext (replied_plain now (fun _ => rfl) answers) rfl), after⟩
  | queuePartitions queue =>
    have keys := holds.queuePartitions queue _ _ rfl rfl
    exact ⟨db, congrArg some (Prod.ext (congrArg (fun keys => Except.ok (Reply.names keys)) keys) rfl), holds⟩
  | resumeWorkflow id =>
    obtain ⟨answers, after⟩ := holds.resumeWorkflow now id
    exact ⟨_, congrArg some (Prod.ext (replied_plain now (fun _ => rfl) answers) rfl), after⟩
  | resumeWorkflows ids =>
    obtain ⟨resumed, resumed', answers, answers', same, after⟩ := holds.resumeWorkflows now ids proper
    refine ⟨_, congrArg some (Prod.ext ?_ rfl), after⟩
    simp only [Call.memory, replied, answers, answers', Except.map, same]
    rfl
  | enqueueExisting id queue =>
    obtain ⟨answers, after⟩ := holds.enqueueExisting now id queue proper
    exact ⟨_, congrArg some (Prod.ext (replied_plain now (fun _ => rfl) answers) rfl), after⟩
  | cancelWorkflowsWithOptions ids options =>
    obtain ⟨db', ends, after⟩ := holds.cancelWorkflowsWithOptions now ids options proper
    exact ⟨db', by rw [Call.sqlite, ends]; rfl, after⟩
  | deleteWorkflows ids deleteChildren =>
    obtain ⟨db', ends, after⟩ := holds.deleteWorkflows ids deleteChildren proper.1 proper.2
    exact ⟨db', by rw [Call.sqlite, ends]; rfl, after⟩
  | setWorkflowDelay id delayUntilMs =>
    obtain ⟨answers, after⟩ := holds.setWorkflowDelay now id delayUntilMs
    exact ⟨_, congrArg some (Prod.ext (replied_plain now (fun _ => rfl) answers) rfl), after⟩
  | setWorkflowAttributes id attributes =>
    obtain ⟨answers, after⟩ := holds.setWorkflowAttributes now lawful id attributes
    exact ⟨_, congrArg some (Prod.ext (replied_plain now (fun _ => rfl) answers) rfl), after⟩
  | claimForRecovery req =>
    obtain ⟨answers, after⟩ := holds.claimForRecovery now req proper
    exact ⟨_, congrArg some (Prod.ext (replied_plain now (fun _ => rfl) answers) rfl), after⟩

section Run

variable (lib serializer) (refuses : Sqlite.Limit)

/-- The answers of the in-memory provider, instants to the millisecond, and what it holds in the end. -/
def inMemory : List (DateTime × Call) → Inner → List (Except Error Reply) × Inner
  | [], s => ([], s)
  | (now, call) :: calls, s =>
    let (reply, s') := call.memory lib now s
    let (replies, last) := inMemory calls s'
    (reply.map (Reply.seen now) :: replies, last)

/-- `none` has a query that does not end. -/
def onSqlite : List (DateTime × Call) → Sqlite.Db → Option (List (Except Error Reply) × Sqlite.Db)
  | [], db => some ([], db)
  | (now, call) :: calls, db => do
    let (reply, db') ← call.sqlite lib serializer refuses now db
    let (replies, last) ← onSqlite calls db'
    pure (reply :: replies, last)

def Agreed : List (DateTime × Call) → Sqlite.Db → Inner → Prop
  | [], _, _ => True
  | (now, call) :: calls, db, s => call.Proper lib serializer refuses now db s ∧
    ∀ answer, call.sqlite lib serializer refuses now db = some answer → Agreed calls answer.2 (call.memory lib now s).2

variable {lib serializer refuses}

theorem Holds.run (lawful : lib.Lawful) (sound : serializer.Lawful) {calls : List (DateTime × Call)}
    (holds : Holds lib serializer db s) (agreed : Agreed lib serializer refuses calls db s) :
    ∃ db', onSqlite lib serializer refuses calls db = some ((inMemory lib calls s).1, db') ∧
      Holds lib serializer db' (inMemory lib calls s).2 := by
  induction calls generalizing db s with
  | nil => exact ⟨db, rfl, holds⟩
  | cons event calls ih =>
    obtain ⟨now, call⟩ := event
    obtain ⟨db', answers, after⟩ := holds.call lawful sound now agreed.1
    obtain ⟨last, replies, ended⟩ := ih after (agreed.2 _ answers)
    refine ⟨last, ?_, ended⟩
    simp only [onSqlite, inMemory, answers, replies, bind, Option.bind, pure]

theorem new_holds (lib : SerdeJson) (serializer : Serializer) : Holds lib serializer Sqlite.Db.new Inner.new where
  rows _ := .none
  indexed stored := by cases stored

end Run

/-- A row that is claimed, cancelled, resumed by two names and finished, and one that finds its slot taken. -/
def history : List (DateTime × Call) :=
  let waiting id priority : WorkflowStatus :=
    { WorkflowStatus.new 0 id "job" .null .enqueued "" "v1" with
      queueName := some "q", dedupId := some "d", priority := priority, timeoutMs := some 50 }
  let req : DequeueRequest := { queueName := "q", executorId := "e1", appVersion := "v1", maxTasks := 10 }
  [(0, .insertWorkflowStatus (waiting "a" 1)), (1, .insertWorkflowStatus (waiting "b" 2)),
    (2, .getDeduplicatedWorkflow "q" "d"), (3000000, .dequeueWorkflows req none ["a"]),
    (4000000, .cancelWorkflowsWithOptions ["a", "z"] ⟨true⟩), (5000000, .resumeWorkflows ["a", "z", "a"]),
    (6000000, .setWorkflowStatus "a" .success (some (.bool true)) none), (7000000, .resumeWorkflow "a")]

theorem history_agreed : Agreed Records.timeoutLibrary .portable Sqlite.variableLimit history Sqlite.Db.new Inner.new := by
  have startable (id : String) (priority : Int) (fits : asI32 priority = priority) :
      ∃ text, Startable Records.timeoutLibrary .portable
        { WorkflowStatus.new 0 id "job" .null .enqueued "" "v1" with
          queueName := some "q", dedupId := some "d", priority := priority, timeoutMs := some 50 } text :=
    ⟨_, ⟨rfl, rfl, rfl, rfl, rfl, rfl, rfl, rfl⟩, fits, rfl,
      decodeInput_portable Memory.timeoutLibrary_exact.lawful .null rfl⟩
  refine ⟨⟨startable "a" 1 rfl, fun present => by cases present⟩, fun answer same => ?_⟩
  cases same
  refine ⟨⟨startable "b" 2 rfl, fun present => by cases present⟩, fun answer same => ?_⟩
  cases same
  refine ⟨trivial, fun answer same => ?_⟩
  cases same
  refine ⟨⟨rfl, by decide +kernel, List.pairwise_singleton _ _, fun blank => ?_, fun id listed r stored => ?_⟩,
    fun answer same => ?_⟩
  · exact absurd blank (by decide)
  · obtain rfl := List.mem_singleton.mp listed
    cases stored
    rfl
  cases same
  refine ⟨.inr rfl, fun answer same => ?_⟩
  cases same
  refine ⟨.inr rfl, fun answer same => ?_⟩
  cases same
  refine ⟨nofun, fun answer same => ?_⟩
  cases same
  exact ⟨trivial, fun answer same => trivial⟩

end Durare.Backends

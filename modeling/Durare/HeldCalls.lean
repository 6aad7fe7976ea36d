import Durare.HeldRows

/-! The calls on workflow rows of both backends, and those of them that rewrite rows by their id. -/
namespace Durare.Backends

open Memory Dequeue

variable {lib : SerdeJson} {serializer : Serializer} {db : Sqlite.Db} {s : Inner}

section Calls

variable (lib serializer)

/-- The calls on the workflow rows. A dequeue comes with what the database answers: the version its registry lists
last and the candidates in the order of its scan. -/
inductive Call where
  | insertWorkflowStatus (status : WorkflowStatus)
  | getWorkflowStatus (id : String)
  | getDeduplicatedWorkflow (queue dedup : String)
  | setWorkflowStatus (id : String) (status : Status) (output : Option Value) (error : Option String)
  | dequeueWorkflows (req : DequeueRequest) (latest : Option String) (scan : List String)
  | transitionDelayedWorkflows (nowMs : Int)
  | queuePartitions (queue : String)
  | resumeWorkflow (id : String)
  | resumeWorkflows (ids : List String)
  | enqueueExisting (id queue : String)
  | cancelWorkflowsWithOptions (ids : List String) (options : CancelOptions)
  | deleteWorkflows (ids : List String) (deleteChildren : Bool)
  | setWorkflowDelay (id : String) (delayUntilMs : Int)
  | setWorkflowAttributes (id : String) (attributes : Option Columns)
  | claimForRecovery (req : RecoveryClaimRequest)

/-- An answer; one that the database gives in no order is a set. -/
inductive Reply where
  | done
  | answer (yes : Bool)
  | count (rows : Nat)
  | holder (id : Option String)
  | names (members : Finset String)
  | started (row : WorkflowStatus) (inserted : Bool)
  | row (found : Option WorkflowStatus)
  | rows (claimed : List WorkflowStatus)
  | recovery (claim : RecoveryClaim)
deriving DecidableEq

/-- The answer with its rows as they come out of a database. -/
def Reply.seen (now : DateTime) : Reply → Reply
  | .started w inserted => .started (Backends.seen now w) inserted
  | .row found => .row (found.map (Backends.seen now))
  | .rows claimed => .rows (claimed.map (Backends.seen now))
  | reply => reply

def replied {α σ : Type} (form : α → Reply) (result : Except Error α × σ) : Except Error Reply × σ :=
    (result.1.map form, result.2)

def Call.memory (now : DateTime) (call : Call) (s : Inner) : Except Error Reply × Inner :=
  match call with
  | .insertWorkflowStatus status => replied (fun start =>
    .started start.1 start.2) (Memory.insertWorkflowStatus status s)
  | .getWorkflowStatus id => replied .row (Memory.getWorkflowStatus id s)
  | .getDeduplicatedWorkflow queue dedup => replied .holder (Memory.getDeduplicatedWorkflow queue dedup s)
  | .setWorkflowStatus id status output error =>
    replied .answer (Memory.setWorkflowStatus lib now id status output error s)
  | .dequeueWorkflows req _ _ => replied .rows (Memory.dequeueWorkflows now req s)
  | .transitionDelayedWorkflows nowMs => replied .count (Memory.transitionDelayedWorkflows now nowMs s)
  | .queuePartitions queue => replied (fun keys => .names keys.toFinset) (Memory.queuePartitions queue s)
  | .resumeWorkflow id => replied .answer (Memory.resumeWorkflow now id s)
  | .resumeWorkflows ids => replied (fun resumed => .names resumed.toFinset) (Memory.resumeWorkflows now ids s)
  | .enqueueExisting id queue => replied (fun _ => .done) (Memory.enqueueExisting now id queue s)
  | .cancelWorkflowsWithOptions ids options =>
    replied (fun _ => .done) (Memory.cancelWorkflowsWithOptions now ids options s)
  | .deleteWorkflows ids deleteChildren => replied (fun _ => .done) (Memory.deleteWorkflows ids deleteChildren s)
  | .setWorkflowDelay id delayUntilMs => replied .answer (Memory.setWorkflowDelay now id delayUntilMs s)
  | .setWorkflowAttributes id attributes => replied (fun _ => .done) (Memory.setWorkflowAttributes now id attributes s)
  | .claimForRecovery req => replied .recovery (Memory.claimForRecovery now req s)

/-- As many rounds as the recursive query over these rows can take. -/
def rounds (ids : List String) (db : Sqlite.Db) : Nat :=
  (Sqlite.cancelSeeds ids db).length + (Sqlite.deleteSeeds ids db).length + db.workflowStatus.toList.length

/-- `none` is a query that has not come to its end. -/
def Call.sqlite (refuses : Sqlite.Limit) (now : DateTime) (call : Call) (db : Sqlite.Db) : Option (Except Error Reply × Sqlite.Db) :=
  match call with
  | .insertWorkflowStatus status => some (replied (fun start => .started start.1 start.2)
      (Sqlite.insertWorkflowStatus lib serializer now status db))
  | .getWorkflowStatus id => some (replied .row (Sqlite.getWorkflowStatus lib serializer now id db))
  | .getDeduplicatedWorkflow queue dedup => some (replied .holder (Sqlite.getDeduplicatedWorkflow queue dedup db))
  | .setWorkflowStatus id status output error =>
    some (replied .answer (Sqlite.setWorkflowStatus lib serializer now id status output error db))
  | .dequeueWorkflows req _ scan => some (replied .rows (Sqlite.dequeueStatuses lib serializer now req scan db))
  | .transitionDelayedWorkflows nowMs => some (replied .count (Sqlite.transitionDelayedWorkflows nowMs db))
  | .queuePartitions queue => some (replied (fun keys => .names keys.toFinset) (Sqlite.queuePartitions queue db))
  | .resumeWorkflow id => some (replied .answer (Sqlite.resumeWorkflow now id db))
  | .resumeWorkflows ids =>
    some (replied (fun resumed => .names resumed.toFinset) (Sqlite.resumeWorkflows refuses now ids db))
  | .enqueueExisting id queue => some (replied (fun _ => .done) (Sqlite.enqueueExisting now id queue db))
  | .cancelWorkflowsWithOptions ids options =>
    (Sqlite.cancelWorkflowsWithOptions refuses (rounds ids db) now ids options db).map (replied fun _ => .done)
  | .deleteWorkflows ids deleteChildren =>
    (Sqlite.deleteWorkflows refuses (rounds ids db) ids deleteChildren db).map (replied fun _ => .done)
  | .setWorkflowDelay id delayUntilMs => some (replied .answer (Sqlite.setWorkflowDelay now id delayUntilMs db))
  | .setWorkflowAttributes id attributes =>
    some (replied (fun _ => .done) (Sqlite.setWorkflowAttributes lib now id attributes db))
  | .claimForRecovery req => some (replied .recovery (Sqlite.claimForRecovery now req db))

/-- The registries agree on the latest version, the scan is one of the database and lists rows of equal rank by id, a
request without a version comes from the latest fleet, and the deadlines of the claims are in range. -/
structure Scanned (now : DateTime) (req : DequeueRequest) (latest : Option String) (scan : List String)
    (db : Sqlite.Db) (s : Inner) : Prop where
  registered : latest = (minBy (fun v => -v.versionTimestamp) s.versions.values).map (·.versionName)
  scans : Postgres.Scans req (Sqlite.isLatest req latest) db.workflowStatus scan
  ties : scan.Pairwise fun a b => Postgres.inOrder db.workflowStatus b a = true → a ≤ b
  versioned : req.appVersion = "" → Sqlite.isLatest req latest = true
  inRange : ∀ id ∈ scan, ∀ r, db.workflowStatus.get id = some r → Postgres.deadlineInRange now r = true

def Call.Proper (refuses : Sqlite.Limit) (now : DateTime) (db : Sqlite.Db) (s : Inner) : Call → Prop
  | .insertWorkflowStatus w => (∃ text, Startable lib serializer w text) ∧
      ((s.workflows.get w.id).isSome = true → dedupConflict w s = none)
  | .setWorkflowStatus _ _ _ error =>
    ∀ text, error = some text → decodeError lib (some serializer.name) text = decodeError lib none text
  | .dequeueWorkflows req latest scan => Scanned now req latest scan db s
  | .transitionDelayedWorkflows nowMs => nowMs = now.timestampMillis
  | .enqueueExisting id queue =>
    ∀ r, db.workflowStatus.get id = some r → Sqlite.slotTakenFrom id queue db r = false
  | .resumeWorkflows ids => ids = [] ∨ refuses (ids.length + 4) = none
  | .cancelWorkflowsWithOptions ids options => ids = [] ∨ refuses (Sqlite.cancelBinds ids options) = none
  | .deleteWorkflows ids deleteChildren => (ids = [] ∨ refuses ids.length = none) ∧
      (deleteChildren = true → ∀ root ∈ ids, s.workflows.get root = none →
        ∀ child, ParentOf s root child → StoredDescends s ids child)
  | .claimForRecovery req => asI32 (req.expectedAttempts + 1) = req.expectedAttempts + 1
  | _ => True

end Calls

/-- What a resumption makes of a row. -/
theorem resumeWorkflow_after (now : DateTime) (target : String) (s : Inner) (id : String) :
    (Memory.resumeWorkflow now target s).2.workflows.get id =
      if id = target then
        (s.workflows.get id).map fun w => if w.status.isCompleted = true then w else resumeRow now w
      else s.workflows.get id := by
  unfold Memory.resumeWorkflow
  split
  next absent =>
    split
    next here => rw [here, absent]; rfl
    · rfl
  next w stored =>
    split
    next completed =>
      split
      next here => simp [here, stored, completed]
      · rfl
    next unfinished =>
      rw [Inner.putRow, Table.get_put]
      split
      next here => simp [here, stored, unfinished]
      · rfl

theorem resumeWorkflows_after (now : DateTime) (ids : List String) (s : Inner) (id : String) :
    (Memory.resumeWorkflows now ids s).2.workflows.get id =
      if id ∈ ids then
        (s.workflows.get id).map fun w => if w.status.isCompleted = true then w else resumeRow now w
      else s.workflows.get id := by
  induction ids generalizing s with
  | nil => rfl
  | cons target ids ih =>
    have rest : (Memory.resumeWorkflows now (target :: ids) s).2 =
        (Memory.resumeWorkflows now ids (Memory.resumeWorkflow now target s).2).2 := rfl
    rw [rest, ih, resumeWorkflow_after]
    by_cases here : id = target
    · cases s.workflows.get id with
      | none => simp [here]
      | some w => by_cases completed : w.status.isCompleted = true <;> simp [here, completed, resumeRow_idem]
    · simp [here]

theorem resumeWorkflows_answer (now : DateTime) (ids : List String) (s : Inner) :
    ∃ resumed, (Memory.resumeWorkflows now ids s).1 = .ok resumed ∧
      ∀ id, id ∈ resumed ↔ id ∈ ids ∧ id ∈ s.workflows.keysOf fun w => !w.status.isCompleted := by
  induction ids generalizing s with
  | nil => exact ⟨[], rfl, by simp⟩
  | cons target ids ih =>
    obtain ⟨resumed, answers, members⟩ := ih (Memory.resumeWorkflow now target s).2
    have open_after (id : String) : (id ∈ (Memory.resumeWorkflow now target s).2.workflows.keysOf
        fun w => !w.status.isCompleted) ↔ id ∈ s.workflows.keysOf fun w => !w.status.isCompleted := by
      simp only [Table.mem_keysOf, resumeWorkflow_after]
      split
      · cases s.workflows.get id with
        | none => simp
        | some w =>
          have reopened : (resumeRow now w).status.isCompleted = false := rfl
          by_cases completed : w.status.isCompleted = true <;> simp [completed, reopened]
      · rfl
    have first : (Memory.resumeWorkflow now target s).1.toOption = some true ↔
        target ∈ s.workflows.keysOf fun w => !w.status.isCompleted := by
      rw [Table.mem_keysOf]
      unfold Memory.resumeWorkflow
      cases s.workflows.get target with
      | none => simp [Except.toOption]
      | some w => by_cases completed : w.status.isCompleted = true <;> simp [completed, Except.toOption]
    refine ⟨if (Memory.resumeWorkflow now target s).1.toOption = some true then target :: resumed else resumed, ?_, ?_⟩
    · simp only [Memory.resumeWorkflows, answers]
      rfl
    · intro id
      simp only [open_after] at members
      split
      next unfinished =>
        rw [List.mem_cons, List.mem_cons, members]
        have := first.mp unfinished
        constructor
        · rintro (rfl | ⟨listed, waits⟩)
          · exact ⟨.inl rfl, this⟩
          · exact ⟨.inr listed, waits⟩
        · rintro ⟨rfl | listed, waits⟩
          · exact .inl rfl
          · exact .inr ⟨listed, waits⟩
      next completed =>
        rw [members, List.mem_cons]
        constructor
        · rintro ⟨listed, waits⟩
          exact ⟨.inr listed, waits⟩
        · rintro ⟨rfl | listed, waits⟩
          · exact absurd (first.mpr waits) completed
          · exact ⟨listed, waits⟩

/-- The claims of a scan: each row is claimed and handed out in its turn. -/
theorem claimCandidate_claims (now : DateTime) (req : DequeueRequest) {ids : List String} (distinct : ids.Nodup)
    (claimed : List (String × Sqlite.WorkflowRecord)) {db : Sqlite.Db}
    (waits : ∀ id ∈ ids, ∃ r, db.workflowStatus.get id = some r ∧ r.status = .enqueued) :
    (ids.foldl (Sqlite.claimCandidate now req) (claimed, db)).1 = claimed ++ ids.filterMap (fun id =>
        (db.workflowStatus.get id).map fun r => (id, Postgres.claimRecord now req r)) ∧
      ∀ id, (ids.foldl (Sqlite.claimCandidate now req) (claimed, db)).2.workflowStatus.get id =
        if id ∈ ids then (db.workflowStatus.get id).map (Postgres.claimRecord now req) else db.workflowStatus.get
          id := by
  induction ids generalizing claimed db with
  | nil => exact ⟨(List.append_nil _).symm, fun id => rfl⟩
  | cons first ids ih =>
    obtain ⟨fresh, distinct⟩ := List.nodup_cons.mp distinct
    obtain ⟨r, stored, enqueued⟩ := waits first List.mem_cons_self
    have other {id : String} (listed : id ∈ ids) : id ≠ first := by
      rintro rfl
      exact fresh listed
    let after : Sqlite.Db :=
      { db with workflowStatus := db.workflowStatus.put first (Postgres.claimRecord now req r) }
    have kept {id : String} (listed : id ∈ ids) : after.workflowStatus.get id = db.workflowStatus.get id := by
      simp [after, other listed]
    have claims : Sqlite.claimCandidate now req (claimed, db) first =
        (claimed ++ [(first, Postgres.claimRecord now req r)], after) := by
      simp [Sqlite.claimCandidate, stored, enqueued, after]
    obtain ⟨handed, rows⟩ := @ih distinct (claimed ++ [(first, Postgres.claimRecord now req r)]) after fun id listed => by
      rw [kept listed]
      exact waits id (List.mem_cons_of_mem _ listed)
    rw [List.foldl_cons, claims]
    refine ⟨?_, fun id => ?_⟩
    · have rest : ids.filterMap (fun id => (after.workflowStatus.get id).map fun r =>
            (id, Postgres.claimRecord now req r)) =
          ids.filterMap fun id => (db.workflowStatus.get id).map fun r => (id, Postgres.claimRecord now req r) :=
        List.filterMap_congr fun id listed => by rw [kept listed]
      rw [handed, rest, List.filterMap_cons, stored, Option.map_some, List.append_assoc]
      rfl
    · rw [rows]
      by_cases here : id = first
      · subst here
        simp [fresh, after, stored]
      · simp [here, after]

section Called

variable (holds : Holds lib serializer db s) (now : DateTime)

include holds

theorem Holds.resumeWorkflow (id : String) :
    (Sqlite.resumeWorkflow now id db).1 = (Memory.resumeWorkflow now id s).1 ∧
      Holds lib serializer (Sqlite.resumeWorkflow now id db).2 (Memory.resumeWorkflow now id s).2 := by
  unfold Sqlite.resumeWorkflow Memory.resumeWorkflow
  cases stored : s.workflows.get id with
  | none =>
    rw [holds.missing stored]
    exact ⟨rfl, holds⟩
  | some w =>
    have status {r : Sqlite.WorkflowRecord} (same : SameRow lib serializer id r w) : r.status = w.status := by
      rw [← same.columns]
      rfl
    dsimp only
    split
    next completed =>
      rw [holds.spared stored fun r same => by rw [status same, completed]; rfl]
      exact ⟨rfl, holds⟩
    next unfinished =>
      obtain ⟨db', updates, after⟩ := holds.updated (fun r => !r.status.isCompleted) (Sqlite.resumeRecord now) stored
        (fun r same => by simp [status same, unfinished]) (fun r same => same.resumed now) fun r => .inl rfl
      rw [updates]
      exact ⟨rfl, after⟩

theorem Holds.setWorkflowDelay (id : String) (delayUntilMs : Int) :
    (Sqlite.setWorkflowDelay now id delayUntilMs db).1 = (Memory.setWorkflowDelay now id delayUntilMs s).1 ∧
      Holds lib serializer (Sqlite.setWorkflowDelay now id delayUntilMs db).2
        (Memory.setWorkflowDelay now id delayUntilMs s).2 := by
  unfold Sqlite.setWorkflowDelay Memory.setWorkflowDelay
  cases stored : s.workflows.get id with
  | none =>
    dsimp only
    rw [holds.missing stored]
    exact ⟨rfl, holds⟩
  | some w =>
    have status {r : Sqlite.WorkflowRecord} (same : SameRow lib serializer id r w) : r.status = w.status := by
      rw [← same.columns]
      rfl
    dsimp only
    split
    next waiting =>
      obtain ⟨db', updates, after⟩ := holds.updated (·.status == .delayed) _ stored
        (fun r same => by simp [status same, waiting]) (fun r same => same.delayed now delayUntilMs)
        fun r => .inr ⟨rfl, rfl⟩
      rw [updates]
      exact ⟨rfl, after⟩
    next other =>
      rw [holds.spared stored fun r same => by simp [status same, other]]
      exact ⟨rfl, holds⟩

theorem Holds.setWorkflowAttributes (lawful : lib.Lawful) (id : String) (attributes : Option Columns) :
    (Sqlite.setWorkflowAttributes lib now id attributes db).1 = (Memory.setWorkflowAttributes now id attributes s).1 ∧
      Holds lib serializer (Sqlite.setWorkflowAttributes lib now id attributes db).2
        (Memory.setWorkflowAttributes now id attributes s).2 := by
  unfold Sqlite.setWorkflowAttributes Memory.setWorkflowAttributes
  cases stored : s.workflows.get id with
  | none =>
    dsimp only
    rw [holds.missing stored]
    exact ⟨rfl, holds⟩
  | some w =>
    obtain ⟨db', updates, after⟩ := holds.updated (fun _ => true) _ stored (fun r same => rfl)
      (fun r same => same.attributed lawful now attributes) fun r => .inr ⟨rfl, rfl⟩
    dsimp only
    rw [updates]
    exact ⟨rfl, after⟩

theorem Holds.claimForRecovery (req : RecoveryClaimRequest)
    (fits : asI32 (req.expectedAttempts + 1) = req.expectedAttempts + 1) :
    (Sqlite.claimForRecovery now req db).1 = (Memory.claimForRecovery now req s).1 ∧
      Holds lib serializer (Sqlite.claimForRecovery now req db).2 (Memory.claimForRecovery now req s).2 := by
  rw [Sqlite.claimForRecovery_update]
  cases stored : s.workflows.get req.workflowId with
  | none =>
    have lost : Memory.claimForRecovery now req s = (.ok .lost, s) := by simp only [Memory.claimForRecovery, stored]
    dsimp only
    rw [holds.missing stored, lost]
    exact ⟨rfl, holds⟩
  | some w =>
    have alike {r : Sqlite.WorkflowRecord} (same : SameRow lib serializer req.workflowId r w) :
        Sqlite.recoverable req r = (w.status == .pending && w.executorId == req.expectedExecutor &&
          w.recoveryAttempts == req.expectedAttempts) := by
      rw [← same.columns]
      simp [Sqlite.recoverable, columnsOf]
    by_cases met : w.status = .pending ∧ w.executorId = req.expectedExecutor ∧ w.recoveryAttempts = req.expectedAttempts
    · obtain ⟨pending, executor, attempts⟩ := met
      have counted : asI32 (w.recoveryAttempts + 1) = w.recoveryAttempts + 1 := by rw [attempts, fits]
      obtain ⟨db', updates, after⟩ := holds.updated (Sqlite.recoverable req) (Sqlite.recoverRecord now req) stored
        (fun r same => by simp [alike same, pending, executor, attempts])
        (fun r same => same.recovered now req counted attempts) fun r => by
          unfold Sqlite.recoverRecord
          dsimp only
          split
          · exact .inl rfl
          · split <;> exact .inr ⟨rfl, rfl⟩
      have answers : Memory.claimForRecovery now req s =
          (.ok (if req.maxAttempts < asI32 (req.expectedAttempts + 1) then
              .parked (asI32 (req.expectedAttempts + 1))
            else if req.requeue then .requeued else .claimed (asI32 (req.expectedAttempts + 1))),
            s.putRow req.workflowId (recoveredRow now req w)) := by
        simp only [Memory.claimForRecovery, stored, recoveredRow, pending, executor, attempts, not_true, or_self,
          if_false,
          ne_eq]
        split
        · rfl
        · split <;> rfl
      dsimp only
      rw [updates, answers]
      exact ⟨rfl, after⟩
    · have lost : Memory.claimForRecovery now req s = (.ok .lost, s) := by
        simp only [Memory.claimForRecovery, stored]
        rw [if_pos (by tauto)]
      dsimp only
      rw [holds.spared stored fun r same => by rw [alike same]; simp; tauto, lost]
      exact ⟨rfl, holds⟩

theorem Holds.transitionDelayedWorkflows :
    (Sqlite.transitionDelayedWorkflows now.timestampMillis db).1 =
        (Memory.transitionDelayedWorkflows now now.timestampMillis s).1 ∧
      Holds lib serializer (Sqlite.transitionDelayedWorkflows now.timestampMillis db).2
        (Memory.transitionDelayedWorkflows now now.timestampMillis s).2 := by
  have alike (id : String) (r : Sqlite.WorkflowRecord) (w : WorkflowStatus) (same : SameRow lib serializer id r w) :
      Sqlite.due now.timestampMillis r = due now.timestampMillis w := by
    rw [← same.columns]
    rfl
  refine ⟨congrArg Except.ok (holds.countP alike), holds.rewritten ?_ ?_⟩
  · intro id r w stored found same
    simp only [Sqlite.transitionDelayedWorkflows, Memory.transitionDelayedWorkflows, Table.get_mapValues, stored, found,
      Option.map_some, alike id r w same]
    split
    · exact .kept (same.promoted now) (.inr ⟨rfl, rfl⟩)
    · exact .kept same (.inr ⟨rfl, rfl⟩)
  · intro id stored found
    simp [Sqlite.transitionDelayedWorkflows, Memory.transitionDelayedWorkflows, stored, found]

theorem Holds.queuePartitions (queue : String) :
    ∀ keys keys', (Sqlite.queuePartitions queue db).1 = .ok keys → (Memory.queuePartitions queue s).1 = .ok keys' →
      keys.toFinset = keys'.toFinset := by
  intro keys keys' listed sorted
  cases listed
  cases sorted
  ext key
  simp only [List.mem_toFinset, List.mem_dedup, List.mem_insertionSort, List.mem_filterMap, List.mem_filter,
    Table.mem_values]
  constructor
  · rintro ⟨r, ⟨⟨id, stored⟩, waits⟩, named⟩
    obtain ⟨w, found, same⟩ := holds.record stored
    rw [← same.columns] at waits named
    exact ⟨w, ⟨⟨id, found⟩, waits⟩, named⟩
  · rintro ⟨w, ⟨⟨id, stored⟩, waits⟩, named⟩
    obtain ⟨r, found, same⟩ := holds.row stored
    refine ⟨r, ⟨⟨id, found⟩, ?_⟩, ?_⟩
    · rw [← same.columns]
      exact waits
    · rw [← same.columns]
      exact named

theorem Holds.resumeWorkflows {refuses : Sqlite.Limit} (ids : List String)
    (accepted : ids = [] ∨ refuses (ids.length + 4) = none) :
    ∃ resumed resumed', (Sqlite.resumeWorkflows refuses now ids db).1 = .ok resumed ∧
      (Memory.resumeWorkflows now ids s).1 = .ok resumed' ∧ resumed.toFinset = resumed'.toFinset ∧
      Holds lib serializer (Sqlite.resumeWorkflows refuses now ids db).2 (Memory.resumeWorkflows now ids s).2 := by
  obtain ⟨resumed', answers, members⟩ := resumeWorkflows_answer now ids s
  unfold Sqlite.resumeWorkflows
  split
  next none =>
    rw [List.isEmpty_iff] at none
    subst none
    cases answers
    exact ⟨[], [], rfl, rfl, rfl, holds⟩
  next asked =>
    rw [accepted.resolve_left (by simpa using asked)]
    have resumes (id : String) : id ∈ (db.workflowStatus.keysOf fun r => !r.status.isCompleted).filter ids.contains ↔
        id ∈ ids ∧ id ∈ s.workflows.keysOf fun w => !w.status.isCompleted := by
      rw [List.mem_filter, holds.mem_keysOf, List.contains_iff_mem, and_comm]
      intro id r w same
      rw [← same.columns]
      rfl
    refine ⟨_, resumed', rfl, answers, ?_, holds.rewritten ?_ ?_⟩
    · ext id
      rw [List.mem_toFinset, List.mem_toFinset, resumes, members]
    · intro id r w stored found same
      have after := resumeWorkflows_after now ids s id
      rw [found, Option.map_some] at after
      have waits : (id ∈ s.workflows.keysOf fun w => !w.status.isCompleted) ↔ ¬ w.status.isCompleted = true := by
        simp [Table.mem_keysOf, found]
      simp only [Table.get_mapValues, stored, Option.map_some, after, List.contains_iff_mem, resumes, waits]
      by_cases member : id ∈ ids
      · by_cases completed : w.status.isCompleted = true
        · simp only [member, completed, not_true, and_false, if_false, if_true]
          exact .kept same (.inr ⟨rfl, rfl⟩)
        · simp only [member, completed, if_true]
          exact .kept (same.resumed now) (.inl rfl)
      · simp only [member, false_and, if_false]
        exact .kept same (.inr ⟨rfl, rfl⟩)
    · intro id stored found
      have after := resumeWorkflows_after now ids s id
      simp only [found, Option.map_none, ite_self] at after
      simp [stored, after]

end Called

end Durare.Backends

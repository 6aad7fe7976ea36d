import Durare.Holders

/-! No event hands out the right to run a workflow twice, and so at most one execution of it runs in every run. -/
namespace Durare.Ownership

open Memory

section Step

variable (lib : SerdeJson) {w : String} {cap : Int} {sys : System}

theorem writeStatus_count (now : DateTime) (status : Status) (output : Option Value) (error : Option String)
    (row : WorkflowStatus) : (writeStatus lib now status output error row).recoveryAttempts = row.recoveryAttempts ∧
      (writeStatus lib now status output error row).status = status := by
  unfold writeStatus
  cases output <;> cases error <;> (dsimp only; split <;> exact ⟨rfl, rfl⟩)

theorem cancelRow_quiet (now : DateTime) (row : WorkflowStatus) :
    (cancelRow now row).recoveryAttempts = row.recoveryAttempts ∧
      (waits (cancelRow now row).status = true → waits row.status = true) ∧
      (unfinished (cancelRow now row).status = true → unfinished row.status = true) := by
  unfold cancelRow
  split
  · exact ⟨rfl, id, id⟩
  · refine ⟨rfl, ?_, ?_⟩
    · intro waiting
      cases waiting
    · intro still
      cases still

/-- A call of everything else leaves the row of `w`, or moves it quietly. -/
theorem outside_quiet (now : DateTime) (call : Call) (s : Inner) (allowed : outside w s call = true) :
    (step lib s (now, call)).workflows.get w = s.workflows.get w ∨
      ∃ row moved, s.workflows.get w = some row ∧ (step lib s (now, call)).workflows.get w = some moved ∧
        moved.recoveryAttempts = row.recoveryAttempts ∧
        (waits moved.status = true → waits row.status = true) ∧
        (unfinished moved.status = true → unfinished row.status = true) := by
  have kept : w ∉ call.histories s := by
    cases call with
    | deleteWorkflows ids deleteChildren => exact of_decide_eq_true allowed
    | forkWorkflowWithTimeout params timeoutMs => exact of_decide_eq_true allowed
    | importWorkflow wfs => exact of_decide_eq_true allowed
    | _ => simp [Call.histories]
  have move := step_row lib now call s w kept
  generalize s.workflows.get w = old at move ⊢
  generalize (step lib s (now, call)).workflows.get w = new at move ⊢
  cases move with
  | same => exact .inl rfl
  | inserted row own => simp [outside, own] at allowed
  | child row parent seq returnExisting own => simp [outside, own] at allowed
  | written row status output error guard => simp [outside] at allowed
  | dequeued row req member => simp [outside] at allowed
  | resumed row still => simp [outside] at allowed
  | resumedMany row ids member still => simp [outside, member] at allowed
  | requeued row queue => simp [outside] at allowed
  | recovered row req own => simp [outside, own] at allowed
  | cancelled row ids options member =>
    exact .inr ⟨row, _, rfl, rfl, cancelRow_quiet now row⟩
  | promoted row nowMs isDue =>
    have delayed : row.status = .delayed := by
      simp only [due, Bool.and_eq_true, beq_iff_eq] at isDue
      exact isDue.1
    refine .inr ⟨row, _, rfl, rfl, rfl, fun _ => ?_, fun _ => ?_⟩
    · rw [delayed]; rfl
    · rw [delayed]; rfl
  | refreshed row | delayed row | attributed row => exact .inr ⟨row, _, rfl, rfl, rfl, id, id⟩

/-- Only the insert that finds no row reports a created one. -/
theorem insertWorkflowStatus_cases (status : WorkflowStatus) (s : Inner) :
    (s.workflows.get status.id = none ∧
      insertWorkflowStatus status s = (.ok (status, true), s.putRow status.id status)) ∨
    ((insertWorkflowStatus status s).2 = s ∧ ∀ row, (insertWorkflowStatus status s).1 ≠ .ok (row, true)) := by
  unfold insertWorkflowStatus
  split
  · exact .inr ⟨rfl, fun row => by simp⟩
  · split
    · exact .inr ⟨rfl, fun row => by simp⟩
    next vacant => exact .inl ⟨vacant, rfl⟩

theorem insertChildWorkflow_cases (child : WorkflowStatus) (parent : String) (seq : Int) (returnExisting : Bool)
    (s : Inner) :
    (s.workflows.get child.id = none ∧
      (insertChildWorkflow child parent seq returnExisting s).1 = .ok (some (.resolved child true)) ∧
      (insertChildWorkflow child parent seq returnExisting s).2.workflows = s.workflows.put child.id child) ∨
    ((insertChildWorkflow child parent seq returnExisting s).2.workflows = s.workflows ∧
      ∀ row, (insertChildWorkflow child parent seq returnExisting s).1 ≠ .ok (some (.resolved row true))) := by
  obtain ⟨e, same⟩ | ⟨row, id, -, -, -, same⟩ | ⟨chosen, -, -, found, same⟩ :=
    Memory.insertChildWorkflow_cases child parent seq returnExisting s
  · rw [same]
    exact .inr ⟨rfl, fun row => by simp⟩
  · rw [same]
    exact .inr ⟨rfl, fun row => by simp⟩
  · rw [same]
    cases chosen with
    | some row => exact .inr ⟨rfl, fun row => by simp⟩
    | none => exact .inl ⟨chosenChild_none found, rfl, rfl⟩

variable (now : DateTime)

/-- Both starts insert a row just built; the reply says whether this call created it. -/
theorem started_inv (inv : Inv w cap sys) (nonneg : 0 ≤ cap) {rt : Runtime} {created : DateTime}
    {name : String} {input : Value} {opts : WorkflowOptions} {parent : Option String} {auth : AuthContext}
    {row : WorkflowStatus} {queued : Bool}
    (built : rt.buildRun now created w name input opts parent auth = .ok (row, queued)) {store : Inner}
    (keyed : Keyed store) (vacant : sys.store.workflows.get row.id = none)
    (stored : store.workflows = sys.store.workflows.put row.id row) (delivered : Bool) :
    Inv w cap { sys with
      store := store
      live := sys.live ++ if (delivered && !queued && !row.status.isTerminal) then [row] else [] } := by
  obtain ⟨id, fresh, -, status⟩ := Runtime.buildRun_fresh built
  rw [id] at vacant stored
  have present : store.workflows.get w = some row := by rw [stored, Table.get_put, if_pos rfl]
  refine inv.inserted nonneg keyed vacant present fresh _ ?_
  intro runs
  have direct : queued = false := by
    simp only [Bool.and_eq_true, Bool.not_eq_true'] at runs
    exact runs.1.2
  rw [status, direct]
  rfl

theorem start_inv (inv : Inv w cap sys) (nonneg : 0 ≤ cap) (rt : Runtime) (created : DateTime) (name : String)
    (input : Value) (opts : WorkflowOptions) (auth : AuthContext) (delivered : Bool) :
    Inv w cap (next lib w sys (now, .start rt created name input opts auth delivered)) := by
  simp only [next]
  split
  · exact inv
  next row queued built =>
    have keyed := step_keyed lib sys.store (now, .insertWorkflowStatus row) inv.keyed
    simp only [step, exec] at keyed
    obtain ⟨vacant, inserted⟩ | ⟨unchanged, other⟩ := insertWorkflowStatus_cases row sys.store
    · rw [inserted] at keyed ⊢
      exact started_inv now inv nonneg built keyed vacant rfl delivered
    · have quiet := inv.quiet keyed (.inl (by rw [unchanged]))
      split
      next canonical created => exact absurd created (other canonical)
      next => exact quiet

theorem startChild_inv (inv : Inv w cap sys) (nonneg : 0 ≤ cap) (rt : Runtime) (created : DateTime)
    (name : String) (input : Value) (opts : WorkflowOptions) (auth : AuthContext) (parent : String) (seq : Int)
    (delivered : Bool) :
    Inv w cap (next lib w sys (now, .startChild rt created name input opts auth parent seq delivered)) := by
  simp only [next]
  split
  · exact inv
  next row queued built =>
    have keyed := step_keyed lib sys.store
      (now, .insertChildWorkflow row parent seq (opts.dedupPolicy = .returnExisting)) inv.keyed
    simp only [step, exec] at keyed
    obtain ⟨vacant, reply, stored⟩ | ⟨unchanged, other⟩ :=
      insertChildWorkflow_cases row parent seq (opts.dedupPolicy = .returnExisting) sys.store
    · rw [reply]
      exact started_inv now inv nonneg built keyed vacant stored delivered
    · have quiet := inv.quiet keyed (.inl (by rw [unchanged]))
      split
      next canonical created => exact absurd created (other canonical)
      next => exact quiet

theorem map_filterMap_sublist {α β : Type} {f : α → Option β} {key : β → α}
    (own : ∀ a b, f a = some b → key b = a) (keys : List α) : ((keys.filterMap f).map key).Sublist keys := by
  induction keys with
  | nil => simp
  | cons a keys ih =>
    cases found : f a with
    | none => rw [List.filterMap_cons_none found]; exact ih.cons a
    | some b =>
      rw [List.filterMap_cons_some found, List.map_cons, own a b found]
      exact ih.cons_cons a

/-- The records of `w` among the rows a dequeue hands out: its claimed row, at most once. -/
theorem dequeued_records (keyed : Keyed sys.store) (req : DequeueRequest)
    (after : Keyed (dequeueWorkflows now req sys.store).2) :
    let records := ((dequeueWorkflows now req sys.store).1.toOption.getD []).filter (·.id = w)
    records.length ≤ 1 ∧ ∀ record ∈ records, w ∈ dequeueCandidates now req sys.store ∧
      (dequeueWorkflows now req sys.store).2.workflows.get w = some record := by
  intro records
  have found : ∀ record ∈ records, w ∈ dequeueCandidates now req sys.store ∧
      (dequeueWorkflows now req sys.store).2.workflows.get w = some record := by
    intro record member
    obtain ⟨claimed, own⟩ := List.mem_filter.mp member
    obtain ⟨id, candidate, stored⟩ := List.mem_filterMap.mp claimed
    have same := after id record stored
    have here : record.id = w := by simpa using own
    rw [← here, same]
    exact ⟨candidate, stored⟩
  refine ⟨?_, found⟩
  have names : (((dequeueWorkflows now req sys.store).1.toOption.getD []).map (·.id)).Nodup :=
    (dequeueCandidates_nodup keyed).sublist (map_filterMap_sublist (fun id row stored => after id row stored) _)
  have count := List.nodup_iff_count_le_one.mp names w
  rw [List.count, List.countP_map, List.countP_eq_length_filter] at count
  exact count

theorem dequeue_inv (inv : Inv w cap sys) (rt : Runtime) (req : DequeueRequest) (delivered : Bool) :
    Inv w cap (next lib w sys (now, .dequeue rt req delivered)) := by
  have keyed := step_keyed lib sys.store (now, .dequeueWorkflows req) inv.keyed
  simp only [step, exec] at keyed
  obtain ⟨once, taken⟩ := dequeued_records now inv.keyed req keyed
  have move := dequeueWorkflows_row lib now req sys.store w
  simp only [next]
  by_cases member : w ∈ dequeueCandidates now req sys.store
  · obtain ⟨row, present, claimable⟩ := dequeueCandidates_claimable inv.keyed member
    have enqueued : row.status = .enqueued := by
      simp only [Memory.claimable, Bool.and_eq_true, beq_iff_eq] at claimable
      exact claimable.1.2
    have after : (dequeueWorkflows now req sys.store).2.workflows.get w = some (claimRow now req row) := by
      simp only [dequeueWorkflows, Table.get_foldl_modify _ (claimRow_idem now req), member, if_true, present,
        Option.map_some]
    refine inv.dequeued keyed present (by rw [enqueued]; rfl) after rfl rfl ?_ ?_
    · rw [(List.filter_append_perm (handles rt) _).length_eq]
      cases delivered
      · simp
      · exact once
    · intro record found
      rw [(List.filter_append_perm (handles rt) _).mem_iff] at found
      cases delivered with
      | false => simp at found
      | true =>
        have stored := (taken record found).2
        rw [after] at stored
        exact (Option.some.inj stored).symm
  · have none : (if delivered = true then
        ((dequeueWorkflows now req sys.store).1.toOption.getD []).filter (·.id = w) else []) = [] := by
      cases delivered with
      | false => rfl
      | true =>
        apply List.eq_nil_iff_forall_not_mem.mpr
        intro record found
        exact member (taken record found).1
    have unchanged : (dequeueWorkflows now req sys.store).2.workflows.get w = sys.store.workflows.get w := by
      simp only [dequeueWorkflows, Table.get_foldl_modify _ (claimRow_idem now req), member, if_false]
    rw [none]
    simp only [List.filter_nil, List.append_nil]
    exact inv.quiet keyed (.inl unchanged)

/-- An outcome that an execution writes never puts the row back in line. -/
theorem finish_inv (inv : Inv w cap sys) (place : Nat) (status : Status) (output : Option Value)
    (error : Option String) : Inv w cap (next lib w sys (now, .finish place status output error)) := by
  simp only [next]
  split
  next outcome =>
    have keyed := step_keyed lib sys.store (now, .setWorkflowStatus w status output error) inv.keyed
    have move := setWorkflowStatus_row lib now w status output error sys.store w
    refine inv.quiet keyed ?_
    generalize (setWorkflowStatus lib now w status output error sys.store).2.workflows.get w = new at move ⊢
    generalize sys.store.workflows.get w = old at move ⊢
    cases move with
    | same => exact .inl rfl
    | written row status output error allowed =>
      obtain ⟨count, written⟩ := writeStatus_count lib now status output error row
      refine .inr ⟨row, _, rfl, rfl, count, ?_, ?_⟩
      · rw [written]
        intro waiting
        cases status <;> simp_all [waits]
      · rw [written]
        intro still
        cases status <;> simp_all [unfinished]
  · exact inv

theorem release_inv (inv : Inv w cap sys) (place : Nat) :
    Inv w cap (next lib w sys (now, .release place)) := by
  simp only [next]
  split
  next here =>
    have keyed := step_keyed lib sys.store (now, .setWorkflowStatus w .enqueued none none) inv.keyed
    simp only [step, exec] at keyed
    cases present : sys.store.workflows.get w with
    | none =>
      have idle := (holders_eq_nil.mp (inv.vacant present).1).2
      simp [idle] at here
    | some row =>
      have count := (writeStatus_count lib now .enqueued none none row).1
      refine inv.released here keyed present ?_ count
      simp [setWorkflowStatus, present, statusAllowed]
  · exact inv

/-- Every allowed event keeps the generation invariant. -/
theorem next_inv (nonneg : 0 ≤ cap) (room : cap < 2 ^ 31 - 1) (sys : System) (event : DateTime × Event)
    (allowed : Allowed w cap sys event) (inv : Inv w cap sys) : Inv w cap (next lib w sys event) := by
  obtain ⟨now, event⟩ := event
  cases event with
  | start rt created name input opts auth delivered => exact start_inv lib now inv nonneg ..
  | startChild rt created name input opts auth parent seq delivered => exact startChild_inv lib now inv nonneg ..
  | dequeue rt req delivered => exact dequeue_inv lib now inv rt req delivered
  | release place => exact release_inv lib now inv place
  | stop place => exact inv.dropped (.append (List.eraseIdx_sublist ..) (.refl _))
  | abandon place => exact inv.dropped (.append (.refl _) (List.eraseIdx_sublist ..))
  | finish place status output error => exact finish_inv lib now inv place status output error
  | sweep =>
    simp only [next]
    split
    next row present =>
      split
      next pending => exact inv.listed (holders_eq_nil.mpr allowed) present pending
      next => exact inv
    next => exact inv
  | interrupt place disposition =>
    simp only [next]
    split
    next record runs => exact inv.interrupted runs disposition
    next => exact inv
  | recover place rt delivered =>
    simp only [next]
    split
    next record listed =>
      have member : record ∈ observers sys := List.mem_append_left _ (List.mem_of_getElem? listed)
      split
      next => exact inv.claimed room member (.inl allowed) delivered
      next => exact inv
    next => exact inv
  | settle place rt delivered =>
    simp only [next]
    split
    next record disposition interrupted =>
      have member : record ∈ observers sys :=
        List.mem_append_right _ (List.mem_map.mpr ⟨_, List.mem_of_getElem? interrupted, rfl⟩)
      cases disposition with
      | retry => exact inv.claimed room member (.inl allowed) delivered
      | parkAfterPanic => exact inv.claimed room member (.inr le_rfl) delivered
    next => exact inv
  | call call =>
    exact inv.quiet (step_keyed lib sys.store (now, call) inv.keyed)
      (outside_quiet lib now call sys.store allowed)

end Step

def Current (record row : WorkflowStatus) : Prop :=
  row.status = .pending ∧ row.executorId = record.executorId ∧ row.recoveryAttempts = record.recoveryAttempts

/-- What holds of the right to run `w` at every moment of a run. -/
structure Owned (w : String) (cap : Int) (sys : System) : Prop where
  single : sys.live.length ≤ 1
  once : sys.claims.Nodup
  bounded : ∀ row, sys.store.workflows.get w = some row → row.recoveryAttempts ≤ cap + 1
  parks : ∀ now rt record maxAttempts, record.id = w →
    ((∃ attempts, (claimForRecovery now (recoveryRequest rt record maxAttempts) sys.store).1 =
        .ok (.parked attempts)) ↔
      ∃ row, sys.store.workflows.get w = some row ∧ Current record row ∧ maxAttempts < row.recoveryAttempts + 1)
  panicked : ∀ record, (record, .parkAfterPanic) ∈ sys.interrupted → ∀ now rt delivered,
    (claim now rt record (settlementCap rt record .parkAfterPanic) delivered sys).live = sys.live ∧
      ∀ row, (claim now rt record (settlementCap rt record .parkAfterPanic) delivered sys).store.workflows.get w =
        some row → row.status = .enqueued → sys.store.workflows.get w = some row

theorem Inv.parks {w : String} {cap : Int} {sys : System} (inv : Inv w cap sys) (room : cap < 2 ^ 31 - 1)
    (now : DateTime) (rt : Runtime) (record : WorkflowStatus) (maxAttempts : Int) (own : record.id = w) :
    (∃ attempts, (claimForRecovery now (recoveryRequest rt record maxAttempts) sys.store).1 =
        .ok (.parked attempts)) ↔
      ∃ row, sys.store.workflows.get w = some row ∧ Current record row ∧ maxAttempts < row.recoveryAttempts + 1 := by
  have target : (recoveryRequest rt record maxAttempts).workflowId = w := own
  obtain ⟨lost, moved⟩ | ⟨row, present, pending, executor, attempts, answer⟩ :=
    claimForRecovery_cases now (recoveryRequest rt record maxAttempts) sys.store
  · rw [target] at moved
    rw [lost]
    constructor
    · rintro ⟨attempts, parked⟩
      cases parked
    · rintro ⟨row, present, current, -⟩
      exact absurd current (moved row present)
  · rw [target] at present
    have gen := inv.generation row present
    have below := gen.below (.inl (by rw [pending]; rfl))
    have counted := gen.counted
    rw [answer, asI32_of_lt (by omega) (by omega)]
    have cap : (recoveryRequest rt record maxAttempts).maxAttempts = maxAttempts := rfl
    rw [cap]
    constructor
    · rintro ⟨n, parked⟩
      refine ⟨row, present, ⟨pending, executor, attempts⟩, ?_⟩
      by_contra under
      rw [if_neg under] at parked
      split at parked <;> cases parked
    · rintro ⟨other, stored, -, overrun⟩
      rw [present] at stored
      cases stored
      rw [if_pos overrun]
      exact ⟨_, rfl⟩

theorem Inv.panicked {w : String} {cap : Int} {sys : System} (inv : Inv w cap sys) (room : cap < 2 ^ 31 - 1)
    (record : WorkflowStatus) (member : (record, RecoveryDisposition.parkAfterPanic) ∈ sys.interrupted)
    (now : DateTime) (rt : Runtime) (delivered : Bool) :
    (claim now rt record (settlementCap rt record .parkAfterPanic) delivered sys).live = sys.live ∧
      ∀ row, (claim now rt record (settlementCap rt record .parkAfterPanic) delivered sys).store.workflows.get w =
        some row → row.status = .enqueued → sys.store.workflows.get w = some row := by
  have seen : record ∈ observers sys := List.mem_append_right _ (List.mem_map.mpr ⟨_, member, rfl⟩)
  have own := inv.own record (List.mem_append_right _ seen)
  obtain same | ⟨row, moved, records, present, pending, attempts, effect, -, count, status⟩ :=
    claim_cases now rt record (settlementCap rt record .parkAfterPanic) delivered sys
  · rw [same]
    exact ⟨rfl, fun row stored _ => stored⟩
  rw [own] at present effect
  have gen := inv.generation row present
  have below := gen.below (.inl (by rw [pending]; rfl))
  have counted := gen.counted
  rw [asI32_of_lt (by omega) (by omega)] at count
  simp only [settlementCap] at status
  rcases status with ⟨-, within, -⟩ | ⟨-, within, -⟩ | ⟨parked, -, none⟩
  · omega
  · omega
  · rw [settlementCap] at effect ⊢
    rw [effect, none, List.append_nil]
    refine ⟨rfl, ?_⟩
    intro final stored enqueued
    rw [putRow_workflows, Table.get_put, if_pos rfl] at stored
    cases stored
    rw [parked] at enqueued
    cases enqueued

theorem Inv.owned {w : String} {cap : Int} {sys : System} (inv : Inv w cap sys) (room : cap < 2 ^ 31 - 1) :
    Owned w cap sys where
  single := ((List.sublist_append_left ..).length_le).trans inv.single
  once := List.Nodup.of_map _ inv.distinct
  bounded := fun row present => (inv.generation row present).counted.2
  parks := inv.parks room
  panicked := inv.panicked room

theorem Inv.new {w : String} {cap : Int} {s : Inner} (keyed : Keyed s) (vacant : s.workflows.get w = none) :
    Inv w cap (System.new s) where
  keyed := keyed
  single := by simp [System.new, holders]
  own := by simp [System.new, holders, observers]
  distinct := by simp [System.new]
  vacant := fun _ => by simp [System.new, observers]
  generation := by
    intro row present
    have stored : s.workflows.get w = some row := present
    rw [vacant] at stored
    cases stored

/-- The recovery count of `w` does not go down from one store to a later one. -/
def Counts (w : String) (sys sys' : System) : Prop :=
  ∀ row, sys.store.workflows.get w = some row →
    ∃ row', sys'.store.workflows.get w = some row' ∧ row.recoveryAttempts ≤ row'.recoveryAttempts

theorem counts_same {w : String} {sys sys' : System}
    (same : sys'.store.workflows.get w = sys.store.workflows.get w) : Counts w sys sys' :=
  fun row present => ⟨row, same.trans present, le_refl _⟩

theorem claim_counts {w : String} {cap : Int} {sys : System} (inv : Inv w cap sys) (room : cap < 2 ^ 31 - 1)
    (now : DateTime) (rt : Runtime) {record : WorkflowStatus} (member : record ∈ observers sys)
    (maxAttempts : Int) (delivered : Bool) :
    Counts w sys (claim now rt record maxAttempts delivered sys) := by
  have own := inv.own record (List.mem_append_right _ member)
  obtain same | ⟨row, moved, records, present, pending, attempts, effect, -, count, -⟩ :=
    claim_cases now rt record maxAttempts delivered sys
  · rw [same]
    exact counts_same rfl
  intro old stored
  rw [own] at present effect
  rw [present] at stored
  cases stored
  have gen := inv.generation row present
  have below := gen.below (.inl (by rw [pending]; rfl))
  have counted := gen.counted
  rw [asI32_of_lt (by omega) (by omega)] at count
  refine ⟨moved, ?_, by omega⟩
  rw [effect, putRow_workflows, Table.get_put, if_pos rfl]

theorem setWorkflowStatus_counts (lib : SerdeJson) (w : String) (now : DateTime) (status : Status)
    (output : Option Value) (error : Option String) {sys sys' : System}
    (effect : sys'.store = (setWorkflowStatus lib now w status output error sys.store).2) :
    Counts w sys sys' := by
  intro row present
  have move := setWorkflowStatus_row lib now w status output error sys.store w
  rw [effect]
  rw [present] at move
  generalize (setWorkflowStatus lib now w status output error sys.store).2.workflows.get w = new at move ⊢
  cases move with
  | same => exact ⟨row, rfl, le_refl _⟩
  | written _ _ _ _ allowed =>
    exact ⟨_, rfl, le_of_eq (writeStatus_count lib now status output error row).1.symm⟩

theorem next_counts (lib : SerdeJson) {w : String} {cap : Int} (room : cap < 2 ^ 31 - 1) (sys : System)
    (event : DateTime × Event) (allowed : Allowed w cap sys event) (inv : Inv w cap sys) :
    Counts w sys (next lib w sys event) := by
  obtain ⟨now, event⟩ := event
  cases event with
  | start rt created name input opts auth delivered =>
    simp only [next]
    split
    · exact counts_same rfl
    next row queued built =>
      obtain ⟨vacant, inserted⟩ | ⟨unchanged, -⟩ := insertWorkflowStatus_cases row sys.store
      · rw [(Runtime.buildRun_fresh built).1] at vacant
        intro old present
        rw [vacant] at present
        cases present
      · split <;> exact counts_same (by rw [unchanged])
  | startChild rt created name input opts auth parent seq delivered =>
    simp only [next]
    split
    · exact counts_same rfl
    next row queued built =>
      obtain ⟨vacant, -⟩ | ⟨unchanged, -⟩ :=
        insertChildWorkflow_cases row parent seq (opts.dedupPolicy = .returnExisting) sys.store
      · rw [(Runtime.buildRun_fresh built).1] at vacant
        intro old present
        rw [vacant] at present
        cases present
      · split <;> exact counts_same (by rw [unchanged])
  | dequeue rt req delivered =>
    intro row present
    simp only [next, dequeueWorkflows, Table.get_foldl_modify _ (claimRow_idem now req), present]
    split
    · exact ⟨_, rfl, le_refl _⟩
    · exact ⟨row, rfl, le_refl _⟩
  | release place =>
    simp only [next]
    split
    · exact setWorkflowStatus_counts lib w now .enqueued none none rfl
    · exact counts_same rfl
  | finish place status output error =>
    simp only [next]
    split
    · exact setWorkflowStatus_counts lib w now status output error rfl
    · exact counts_same rfl
  | stop place | abandon place => exact counts_same rfl
  | sweep =>
    simp only [next]
    split
    · split <;> exact counts_same rfl
    · exact counts_same rfl
  | interrupt place disposition =>
    simp only [next]
    split <;> exact counts_same rfl
  | recover place rt delivered =>
    simp only [next]
    split
    next record listed =>
      have member : record ∈ observers sys := List.mem_append_left _ (List.mem_of_getElem? listed)
      split
      · exact claim_counts inv room now rt member rt.maxRecoveryAttempts delivered
      · exact counts_same rfl
    next => exact counts_same rfl
  | settle place rt delivered =>
    simp only [next]
    split
    next record disposition interrupted =>
      have member : record ∈ observers sys :=
        List.mem_append_right _ (List.mem_map.mpr ⟨_, List.mem_of_getElem? interrupted, rfl⟩)
      exact claim_counts inv room now rt member _ delivered
    next => exact counts_same rfl
  | call call =>
    obtain same | ⟨row, moved, present, after, count, -, -⟩ := outside_quiet lib now call sys.store allowed
    · exact counts_same same
    · intro old stored
      rw [present] at stored
      cases stored
      exact ⟨moved, after, le_of_eq count.symm⟩

/-- At every moment of a run in which sweeps list the row only while nobody holds the right
to run it, at most one execution of the workflow may run, each observed generation is claimed at most once, and
the recovery count only grows, up to one past the cap. -/
theorem single_owner (lib : SerdeJson) (w : String) (cap : Int) (nonneg : 0 ≤ cap) (room : cap < 2 ^ 31 - 1)
    (s : Inner) (reachable : Reachable lib s) (vacant : s.workflows.get w = none)
    (events : List (DateTime × Event)) (allowed : Runs.Along (next lib w) (Allowed w cap) events (System.new s)) :
    Owned w cap (run lib w events s) ∧
      ∀ before after, events = before ++ after → Counts w (run lib w before s) (run lib w events s) := by
  have start : Inv w cap (System.new s) := .new reachable.keyed vacant
  have keeps := next_inv lib (w := w) nonneg room
  refine ⟨(Runs.invariant keeps allowed start).owned room, ?_⟩
  rintro before after rfl
  obtain ⟨first, second⟩ := (Runs.along_append ..).mp allowed
  have middle := Runs.invariant keeps first start
  have moved := Runs.moves (R := Counts w) (fun sys => counts_same rfl) ?_ keeps (next_counts lib room) second middle
  · have whole : run lib w (before ++ after) s = Runs.run (next lib w) after (run lib w before s) :=
      Runs.run_append ..
    rw [whole]
    exact moved
  · intro a b c ab bc row present
    obtain ⟨row', present', le⟩ := ab row present
    obtain ⟨row'', present'', le'⟩ := bc row' present'
    exact ⟨row'', present'', le.trans le'⟩

def worker (executor : String) (cap : Int) : Runtime where
  executorId := executor
  appVersion := "v1"
  workflows := ["job"]
  queues := ["q"]
  maxRecoveryAttempts := cap

/-- A direct run loses its storage, its settlement's reply is lost, and two sweeps recover
the workflow from the same list. -/
def rivalRecovery (cap : Int) : List (DateTime × Event) :=
  [(1, .start (worker "a" cap) 1 "job" .null {} {} true), (2, .interrupt 0 .retry),
    (3, .settle 0 (worker "a" cap) false), (4, .sweep), (5, .sweep), (6, .recover 0 (worker "b" cap) true),
    (7, .recover 1 (worker "c" cap) true)]

theorem single_owner_rivalRecovery :
    Owned "w" 5 (run (.reading []) "w" (rivalRecovery 5) Inner.new) ∧
      (run (.reading []) "w" (rivalRecovery 5) Inner.new).live.map (·.executorId) = ["b"] :=
  ⟨(single_owner (.reading []) "w" 5 (by decide) (by decide) Inner.new ⟨[], rfl⟩ rfl (rivalRecovery 5)
    (by decide)).1, by decide⟩

/-- A process that polls the queue without the handler. -/
def stranger : Runtime where
  executorId := "d"
  appVersion := "v1"
  workflows := []
  queues := []
  maxRecoveryAttempts := 5

def poll (executor : String) : DequeueRequest where
  queueName := "q"
  executorId := executor
  appVersion := "v1"
  maxTasks := 1

/-- A process without the handler claims the workflow. Before it gives the claim back, a
sweep lists the row and puts it back in line, and "b" takes it. -/
def lateRelease : List (DateTime × Event) :=
  [(1, .start (worker "a" 5) 1 "job" .null { queue := some "q" } {} true), (2, .dequeue stranger (poll "d") true),
    (3, .sweep), (4, .recover 0 (worker "b" 5) true), (5, .dequeue (worker "b" 5) (poll "b") true),
    (6, .release 0), (7, .dequeue (worker "c" 5) (poll "c") true)]

/-- With a negative cap the first claim parks the row one past zero, not one past the cap.
And where no execution ran when the sweep listed the row, the late release, which does not
look at the row, hands it to a second execution. -/
theorem exceeded_and_doubled :
    (Runs.Along (next (.reading []) "w") (Allowed "w" (-1)) (rivalRecovery (-1)) (System.new Inner.new) ∧
      ∃ row, (run (.reading []) "w" (rivalRecovery (-1)) Inner.new).store.workflows.get "w" = some row ∧
        ¬ row.recoveryAttempts ≤ -1 + 1) ∧
    Runs.Along (next (.reading []) "w") (Stopped "w") lateRelease (System.new Inner.new) ∧
      (run (.reading []) "w" lateRelease Inner.new).live.map (·.executorId) = ["b", "c"] :=
  ⟨⟨by decide, _, rfl, by decide⟩, by decide, by decide⟩

end Durare.Ownership

import Durare.Effects
import Durare.Sqlite

/-! Checkpoints are written once: which operations can replace a recorded step, and what a
fork does to the id it writes. -/
namespace Durare.WriteOnce

open Memory

/-- Every recorded step is still there, column for column. -/
def StepsKept (s s' : Inner) : Prop := ∀ key row, s.steps.get key = some row → s'.steps.get key = some row

theorem StepsKept.trans {s s' t : Inner} (first : StepsKept s s') (second : StepsKept s' t) : StepsKept s t :=
  fun key row stored => second key row (first key row stored)

/-- A fork under a fresh id: one new row, the original's rows below the start, nothing else. -/
structure Forked (params : ForkParams) (s s' : Inner) : Prop where
  fresh : s.workflows.get params.newId = none
  created : (s'.workflows.get params.newId).isSome = true
  copies : ∀ seq, s'.steps.get (params.newId, seq) =
    if seq < params.startStep then s.steps.get (params.originalId, seq) else none
  rows : ∀ id, id ≠ params.newId → s'.workflows.get id = s.workflows.get id
  steps : ∀ id, id ≠ params.newId → ∀ seq, s'.steps.get (id, seq) = s.steps.get (id, seq)

/-- A database that stores the same workflows, with its foreign keys intact. -/
structure SameWorkflows (db : Sqlite.Db) (s : Inner) : Prop where
  ids : ∀ id, (db.workflowStatus.get id).isSome = (s.workflows.get id).isSome
  owned : db.StepsOwned

/-- What a fork owes: it refuses an id in use and a refusal changes nothing, it makes
exactly the fork otherwise, and the SQL backend decides alike. -/
structure ForkExact (params : ForkParams) (timeoutMs : Option Int) (now : DateTime) (s : Inner) : Prop where
  refuses : (s.workflows.get params.newId).isSome = true →
    (forkWorkflowWithTimeout now params timeoutMs s).1.isOk = false
  settled : ((forkWorkflowWithTimeout now params timeoutMs s).1.isOk = false ∧
      (forkWorkflowWithTimeout now params timeoutMs s).2 = s) ∨
    ((forkWorkflowWithTimeout now params timeoutMs s).1.isOk = true ∧
      Forked params s (forkWorkflowWithTimeout now params timeoutMs s).2)
  agrees : ∀ db, SameWorkflows db s →
    (Sqlite.forkWorkflowWithTimeout now params timeoutMs db).1.isOk =
      (forkWorkflowWithTimeout now params timeoutMs s).1.isOk

/-- The fork is refused before it looks at the new id. -/
def refused (params : ForkParams) (timeoutMs : Option Int) (s : Inner) : Bool :=
  timeoutMs.any (· < 0) || (s.workflows.get params.originalId).isNone

/-- The new id names no workflow, and any step already stored under it is the very row the
fork copies there. -/
def Unused (params : ForkParams) (s : Inner) : Prop :=
  s.workflows.get params.newId = none ∧ ∀ entry ∈ s.steps.toList, entry.1.1 = params.newId →
    entry.1.2 < params.startStep ∧ s.steps.get (params.originalId, entry.1.2) = some entry.2

/-- A fork is refused or takes an unused id, and an import is refused or brings no id that has steps. -/
def Fresh (s : Inner) (event : DateTime × Call) : Prop :=
  match event.2 with
  | .forkWorkflowWithTimeout params timeoutMs => refused params timeoutMs s = true ∨ Unused params s
  | .importWorkflow wfs => importRefused s wfs = true ∨ ∀ entry ∈ s.steps.toList, entry.1.1 ∉ importedIds wfs
  | _ => True

instance (params : ForkParams) (s : Inner) : Decidable (Unused params s) :=
  inferInstanceAs (Decidable (_ ∧ _))

instance (s : Inner) (event : DateTime × Call) : Decidable (Fresh s event) := by
  apply Call.casesOn (motive := fun call => Decidable (Fresh s (event.1, call))) event.2 <;> intros <;>
    (dsimp only [Fresh]; infer_instance)

theorem mem_copiedSteps (originalId : String) (startStep : Int) (s : Inner) (seq : Int) (row : StepRow) :
    (seq, row) ∈ copiedSteps originalId startStep s ↔
      seq < startStep ∧ s.steps.get (originalId, seq) = some row := by
  simp only [copiedSteps, List.mem_filterMap]
  constructor
  · rintro ⟨⟨⟨id, seq'⟩, row'⟩, member, found⟩
    split at found
    next selected =>
      cases found
      obtain ⟨rfl, below⟩ := selected
      exact ⟨below, (Table.mem_toList ..).mp member⟩
    next => cases found
  · rintro ⟨below, stored⟩
    exact ⟨((originalId, seq), row), (Table.mem_toList ..).mpr stored, by simp [below]⟩

/-- The steps under the new id: the copies over whatever was there. -/
theorem putSteps_copied (id originalId : String) (startStep : Int) (s s' : Inner) (seq : Int)
    (same : s'.steps = s.steps) :
    (s'.putSteps id (copiedSteps originalId startStep s)).steps.get (id, seq) =
      if seq < startStep ∧ (s.steps.get (originalId, seq)).isSome then s.steps.get (originalId, seq)
      else s.steps.get (id, seq) := by
  rw [putSteps_eq]
  split
  next selected =>
    obtain ⟨below, present⟩ := selected
    obtain ⟨row, stored⟩ := Option.isSome_iff_exists.mp present
    rw [stored]
    apply Table.get_foldl_put_mem
    · exact List.mem_map.mpr ⟨(seq, row), (mem_copiedSteps ..).mpr ⟨below, stored⟩, rfl⟩
    · intro w member
      obtain ⟨⟨seq', row'⟩, found, equal⟩ := List.mem_map.mp member
      cases equal
      rw [((mem_copiedSteps ..).mp found).2] at stored
      exact Option.some_inj.mp stored
  next other =>
    rw [← same]
    apply Table.get_foldl_put_ne
    intro entry member equal
    obtain ⟨⟨seq', row'⟩, found, rfl⟩ := List.mem_map.mp member
    cases equal
    obtain ⟨below, stored⟩ := (mem_copiedSteps ..).mp found
    exact other ⟨below, by rw [stored]; rfl⟩

theorem fork_refused {params : ForkParams} {timeoutMs : Option Int} (now : DateTime) {s : Inner}
    (refusal : refused params timeoutMs s = true) :
    (forkWorkflowWithTimeout now params timeoutMs s).1.isOk = false ∧
      (forkWorkflowWithTimeout now params timeoutMs s).2 = s := by
  unfold forkWorkflowWithTimeout
  split
  · exact ⟨rfl, rfl⟩
  next inTime =>
    split
    · exact ⟨rfl, rfl⟩
    next original present => simp [refused, inTime, present] at refusal

theorem fork_taken {params : ForkParams} {timeoutMs : Option Int} (now : DateTime) {s : Inner}
    (accepted : refused params timeoutMs s = false) :
    (forkWorkflowWithTimeout now params timeoutMs s).1.isOk = true ∧
      ∃ row, (forkWorkflowWithTimeout now params timeoutMs s).2 =
        (s.putRow params.newId row).putSteps params.newId
          (copiedSteps params.originalId params.startStep s) := by
  simp only [refused, Bool.or_eq_false_iff] at accepted
  unfold forkWorkflowWithTimeout
  simp only [accepted.1]
  cases present : s.workflows.get params.originalId with
  | none => simp [present] at accepted
  | some original => exact ⟨rfl, _, rfl⟩

theorem fork_unused {params : ForkParams} {timeoutMs : Option Int} (now : DateTime) {s : Inner}
    (accepted : refused params timeoutMs s = false) (unused : Unused params s) :
    Forked params s (forkWorkflowWithTimeout now params timeoutMs s).2 := by
  obtain ⟨-, row, after⟩ := fork_taken now accepted
  refine ⟨unused.1, ?_, ?_, ?_, ?_⟩
  · rw [after]; simp
  · intro seq
    rw [after, putSteps_copied params.newId _ _ s (s.putRow params.newId row) seq rfl]
    split
    next selected => rw [if_pos selected.1]
    next other =>
      -- an orphan under the new id would be one of the copied rows
      have vacant : s.steps.get (params.newId, seq) = none := by
        cases stored : s.steps.get (params.newId, seq) with
        | none => rfl
        | some row =>
          obtain ⟨below, copied⟩ := unused.2 ((params.newId, seq), row) ((Table.mem_toList ..).mpr stored) rfl
          exact absurd ⟨below, by rw [copied]; rfl⟩ other
      rw [vacant]
      split
      next below =>
        cases stored : s.steps.get (params.originalId, seq) with
        | none => rfl
        | some row => exact absurd ⟨below, by rw [stored]; rfl⟩ other
      · rfl
  · intro id other
    exact (forkWorkflow_frame now params timeoutMs s id other).1
  · intro id other
    exact (forkWorkflow_frame now params timeoutMs s id other).2.1

/-- The SQL backend refuses a used id by its primary key. -/
theorem sqlite_fork_isOk (params : ForkParams) (timeoutMs : Option Int) (now : DateTime) {s : Inner}
    {db : Sqlite.Db} (same : SameWorkflows db s) :
    (Sqlite.forkWorkflowWithTimeout now params timeoutMs db).1.isOk =
      (!refused params timeoutMs s && (s.workflows.get params.newId).isNone) := by
  have original := same.ids params.originalId
  have new := same.ids params.newId
  unfold Sqlite.forkWorkflowWithTimeout
  split
  next late => simp [refused, late, Except.isOk, Except.toBool]
  next inTime =>
    split
    next absent =>
      rw [absent] at original
      simp [refused, ← Option.not_isSome, ← original, Except.isOk, Except.toBool]
    next row present =>
      rw [present] at original
      have kept : refused params timeoutMs s = false := by
        simp [refused, inTime, ← Option.not_isSome, ← original]
      split
      next used => simp [kept, ← Option.not_isSome, ← new, used, Except.isOk, Except.toBool]
      next free =>
        have none : (Sqlite.copiedRecords params db).any
            (fun row => (db.operationOutputs.get row.1).isSome) = false := by
          rw [List.any_eq_false]
          intro copy member stored
          obtain ⟨row, found⟩ := Option.isSome_iff_exists.mp stored
          have own := same.owned copy.1 row found
          have key : copy.1.1 = params.newId := by
            unfold Sqlite.copiedRecords at member
            split at member
            · cases member
            · obtain ⟨entry, -, made⟩ := List.mem_filterMap.mp member
              split at made
              · cases made; rfl
              · cases made
          rw [key] at own
          exact free own
        have vacant : (s.workflows.get params.newId).isSome = false := by simpa [new] using free
        simp [none, kept, ← Option.not_isSome, vacant, Except.isOk, Except.toBool]

/-- A fork does what it owes exactly when it is refused or takes an unused id. -/
theorem forkExact_iff (params : ForkParams) (timeoutMs : Option Int) (now : DateTime) (s : Inner) :
    (ForkExact params timeoutMs now s ∧ StepsKept s (forkWorkflowWithTimeout now params timeoutMs s).2) ↔
      refused params timeoutMs s = true ∨ Unused params s := by
  have decides (db : Sqlite.Db) (same : SameWorkflows db s) :=
    sqlite_fork_isOk params timeoutMs now same
  constructor
  · rintro ⟨exactly, kept⟩
    by_cases refusal : refused params timeoutMs s = true
    · exact .inl refusal
    · right
      have accepted : refused params timeoutMs s = false := by simpa using refusal
      have made := (fork_taken now accepted).1
      have free : s.workflows.get params.newId = none := by
        cases used : s.workflows.get params.newId with
        | none => rfl
        | some row =>
          have denied := exactly.refuses (by rw [used]; rfl)
          rw [made] at denied
          cases denied
      refine ⟨free, ?_⟩
      rintro ⟨⟨id, seq⟩, row⟩ member here
      obtain rfl : id = params.newId := here
      have after := kept _ _ ((Table.mem_toList ..).mp member)
      obtain ⟨denied, -⟩ | ⟨-, forked⟩ := exactly.settled
      · rw [made] at denied; cases denied
      · rw [forked.copies seq] at after
        split at after
        next below => exact ⟨below, after⟩
        next => cases after
  · intro fresh
    by_cases refusal : refused params timeoutMs s = true
    · obtain ⟨denied, unchanged⟩ := fork_refused now refusal
      refine ⟨⟨fun _ => denied, .inl ⟨denied, unchanged⟩, ?_⟩, ?_⟩
      · intro db same
        rw [decides db same, denied, refusal]
        rfl
      · intro key row stored
        rw [unchanged]
        exact stored
    · have accepted : refused params timeoutMs s = false := by simpa using refusal
      obtain unused := fresh.resolve_left refusal
      have made := (fork_taken now accepted).1
      have forked := fork_unused now accepted unused
      refine ⟨⟨?_, .inr ⟨made, forked⟩, ?_⟩, ?_⟩
      · intro used
        rw [unused.1] at used
        cases used
      · intro db same
        rw [decides db same, made, accepted, unused.1]
        rfl
      · rintro ⟨id, seq⟩ row stored
        by_cases here : id = params.newId
        · subst here
          obtain ⟨below, copied⟩ := unused.2 ((params.newId, seq), row) ((Table.mem_toList ..).mpr stored) rfl
          rw [forked.copies seq, if_pos below]
          exact copied
        · rw [forked.steps id here seq]
          exact stored

/-- Along a run no call but a deletion changes a recorded step, and each fork is exact. -/
def WrittenOnce (lib : SerdeJson) (events : List (DateTime × Call)) : Prop :=
  ∀ before event after, events = before ++ event :: after →
    (∀ ids deleteChildren, event.2 ≠ .deleteWorkflows ids deleteChildren) →
    StepsKept (run lib before Inner.new) (step lib (run lib before Inner.new) event) ∧
      ∀ params timeoutMs, event.2 = .forkWorkflowWithTimeout params timeoutMs →
        ForkExact params timeoutMs event.1 (run lib before Inner.new)

theorem step_stepsKept (lib : SerdeJson) (s : Inner) (event : DateTime × Call) (fresh : Fresh s event)
    (notDelete : ∀ ids deleteChildren, event.2 ≠ .deleteWorkflows ids deleteChildren) :
    StepsKept s (step lib s event) := by
  obtain ⟨now, call⟩ := event
  intro key row stored
  by_cases history : key.1 ∈ call.histories s
  · cases call with
    | deleteWorkflows ids deleteChildren => exact absurd rfl (notDelete ids deleteChildren)
    | forkWorkflowWithTimeout params timeoutMs =>
      exact ((forkExact_iff params timeoutMs now s).mpr fresh).2 key row stored
    | importWorkflow wfs =>
      obtain ⟨-, same⟩ | ⟨accepted, -⟩ := importWorkflow_cases lib now wfs s
      · exact (congrArg (·.steps.get key) same).trans stored
      · have new := fresh.resolve_left (by simp [accepted])
        exact absurd history (new (key, row) ((Table.mem_toList ..).mpr stored))
    | _ => simp [Call.histories] at history
  · obtain same | ⟨vacant, -⟩ := step_steps lib now call s key history
    · rw [same]; exact stored
    · rw [vacant] at stored; cases stored

/-- When every fork of a run is refused or takes an unused id, and no accepted import brings an id
that has steps, checkpoints are written once along it. -/
theorem checkpoints_written_once (lib : SerdeJson) (events : List (DateTime × Call))
    (fresh : Runs.Along (step lib) Fresh events Inner.new) : WrittenOnce lib events := by
  rintro before event after rfl notDelete
  rw [Runs.along_append, Runs.along_cons] at fresh
  refine ⟨step_stepsKept lib _ event fresh.2.1 notDelete, ?_⟩
  intro params timeoutMs fork
  have here := fresh.2.1
  rw [Fresh, fork] at here
  exact ((forkExact_iff params timeoutMs event.1 _).mpr here).1

def recorded (id : String) (value : Value) : List (DateTime × Call) :=
  [(0, .insertWorkflowStatus (.new 0 id "job" .null .pending "e1" "v1")),
    (1, .recordStepResult id 0 "charge" value none (some 1) none)]

def forkOnto (newId : String) (startStep : Int) : DateTime × Call :=
  (2, .forkWorkflowWithTimeout ⟨"a", newId, startStep, none, "q", none⟩ none)

/-- A fork onto an id in use replaces the step recorded there. -/
theorem fork_overwrites_checkpoint :
    ¬ ∀ (lib : SerdeJson) (events : List (DateTime × Call)), WrittenOnce lib events := by
  intro once
  have kept := (once (.reading []) (recorded "a" (.bool true) ++ recorded "b" (.bool false) ++ [forkOnto "b" 1])
    (recorded "a" (.bool true) ++ recorded "b" (.bool false)) (forkOnto "b" 1) [] rfl
    (by intro ids children equal; cases equal)).1
  have before : (run (.reading []) (recorded "a" (.bool true) ++ recorded "b" (.bool false)) Inner.new).steps.get
      ("b", 0) = some ⟨"charge", some (.bool false), none, none, some 1, some 0⟩ := by decide
  have after := kept _ _ before
  revert after
  decide

/-- The fork of a run with two steps under an id that nothing uses. -/
theorem checkpoints_written_once_fork :
    WrittenOnce (.reading []) (recorded "a" (.bool true) ++ recorded "b" (.bool false) ++ [forkOnto "c" 1]) :=
  checkpoints_written_once _ _ (by decide)

end Durare.WriteOnce

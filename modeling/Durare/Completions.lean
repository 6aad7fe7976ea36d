import Durare.Datasource

/-! The completion row of a transaction and its checkpoint: how they agree, and what every statement leaves of that. -/
namespace Durare.Transaction

open Interaction Commits Sqlite

section Rows

variable (lib : SerdeJson) (serializer : Serializer)

def checkpointReads (row : StepRecord) : Except Error (Option StepOutcome) :=
  stepOutcomeFrom lib serializer row.serialization row.output row.error

def completionReads (row : CompletionRow) : Except Error (Option StepOutcome) :=
  stepOutcomeFrom lib serializer row.serialization row.output row.error

/-- The output and the error that a replay of the completion row records. -/
def replayColumns (row : CompletionRow) : Except Error (Option String × Option String) :=
  match row.error with
  | some text =>
    let (message, info) := decodeError lib row.serialization text
    match tryFromParts lib message info with
    | .ok e => (encodeError lib serializer e).map fun encoded => (none, some encoded)
    | .error e => .error e
  | none =>
    match row.output with
    | some output =>
      match decode lib serializer row.serialization output with
      | .ok value => (serializer.encode lib value).map fun encoded => (some encoded, none)
      | .error e => .error e
    | none => .ok (none, none)

/-- Read and written again, the row reads the same. -/
def Lasting (row : CompletionRow) : Prop :=
  ∀ columns, replayColumns lib serializer row = .ok columns →
    stepOutcomeFrom lib serializer (some serializer.name) columns.1 columns.2 = completionReads lib serializer row

instance (row : CompletionRow) : Decidable (Lasting lib serializer row) :=
  match replayed : replayColumns lib serializer row with
  | .ok columns => decidable_of_iff (stepOutcomeFrom lib serializer (some serializer.name) columns.1 columns.2 =
      completionReads lib serializer row) ⟨fun same columns' found => by
        rw [replayed] at found
        cases found
        exact same, fun lasting => lasting columns replayed⟩
  | .error e => .isTrue fun columns found => by
      rw [replayed] at found
      cases found

/-- The rows of one position: a checkpoint comes behind a completion row that reads the same, and a step
marked as reading only leaves no completion row. -/
structure Agrees (position : Position) (readOnly : Bool) (s : State) : Prop where
  lasting : ∀ row, s.app.rows.get position = some row → Lasting lib serializer row
  behind : ∀ row, s.sys.rows.get position = some row → readOnly = false →
    ∃ completion, s.app.rows.get position = some completion ∧
      checkpointReads lib serializer row = completionReads lib serializer completion
  unwitnessed : readOnly = true → s.app.rows.get position = none

/-- A failure is mirrored for a step that is not marked as reading only, its row is written, and it meets no
completion row, or one that reads the same; what is written reads the same once replayed. -/
def Mirrored (position : Position) (readOnly : Bool) (input : Input) : Query → State → Prop
  | .commitCompletion _ (some (key, row)), _ => key = position → Lasting lib serializer row
  | .insertFailure id seq row, s => (id, seq) = position →
      readOnly = false ∧ (input.fault = none ∨ input.effective = true) ∧ Lasting lib serializer row ∧
        ∀ stored ∈ s.app.rows.get position, completionReads lib serializer stored = completionReads lib serializer row
  | _, _ => True

instance (position : Position) (readOnly : Bool) (input : Input) :
    ∀ q s, Decidable (Mirrored lib serializer position readOnly input q s)
  | .commitCompletion _ (some (key, row)), _ => inferInstanceAs (Decidable (key = position → Lasting lib serializer row))
  | .insertFailure id seq row, s => inferInstanceAs (Decidable ((id, seq) = position →
      readOnly = false ∧ (input.fault = none ∨ input.effective = true) ∧ Lasting lib serializer row ∧
        ∀ stored ∈ s.app.rows.get position, completionReads lib serializer stored = completionReads lib serializer row))
  | .commitCompletion _ none, _ | .now, _ | .selectStep _ _, _ | .fetchCompletion _ _, _ | .begin _, _ | .setTransaction _ _, _
  | .fingerprint, _ | .body _ _ _ _, _ | .insertStep _ _ _, _ | .insertCompletion _ _ _, _ | .commitStep _ _, _ | .rollback _, _
  | .insertFailedStep _ _ _, _ | .recordStepResult _ _ _ _ _ _ _, _ | .workflowStatus _, _ | .check, _ | .interrupt _, _ =>
    inferInstanceAs (Decidable True)

/-- What the step may ask for at the position. -/
def Fitting (position : Position) (readOnly : Bool) (s : State) : Query → Prop
  | .commitStep _ (some (key, _)) => key ≠ position
  | .insertFailedStep id seq _ => (id, seq) ≠ position
  | .commitCompletion _ (some (key, _)) => key = position → readOnly = false
  | .recordStepResult id seq _ value error _ _ => (id, seq) = position → readOnly = false →
      ∃ completion, s.app.rows.get position = some completion ∧ (Lasting lib serializer completion →
        ∀ output, outputColumn lib serializer value error = .ok output →
          stepOutcomeFrom lib serializer (some serializer.name) output error = completionReads lib serializer completion)
  | _ => True

end Rows

section Agreement

variable {lib : SerdeJson} {serializer : Serializer} {position : Position} {readOnly : Bool} {s s' : State}

theorem Agrees.of_rows (agrees : Agrees lib serializer position readOnly s)
    (sys : s'.sys.rows.get position = s.sys.rows.get position) (app : s'.app.rows.get position = s.app.rows.get position) :
    Agrees lib serializer position readOnly s' := by
  constructor
  · rw [app]
    exact agrees.lasting
  · rw [app, sys]
    exact agrees.behind
  · rw [app]
    exact agrees.unwitnessed

theorem Agrees.leaves (agrees : Agrees lib serializer position readOnly s)
    (changed : Agrees lib serializer position readOnly s')
    (input : Input) : Agrees lib serializer position readOnly (input.leaves s s') := by
  unfold Input.leaves
  split
  · exact changed
  · exact agrees

/-- A completion row is added where there was none, and so no checkpoint either. -/
theorem Agrees.completed {row : CompletionRow} (agrees : Agrees lib serializer position readOnly s)
    (writing : readOnly = false)
    (lasting : Lasting lib serializer row) (vacant : s.app.rows.get position = none)
    (sys : s'.sys.rows.get position = s.sys.rows.get position) (app : s'.app.rows.get position = some row) :
    Agrees lib serializer position readOnly s' := by
  constructor
  · intro row' stored
    rw [app] at stored
    cases stored
    exact lasting
  · intro checkpoint stored _
    rw [sys] at stored
    obtain ⟨completion, there, -⟩ := agrees.behind checkpoint stored writing
    rw [vacant] at there
    cases there
  · intro reading
    rw [writing] at reading
    cases reading

/-- A checkpoint is added behind a completion row that reads the same. -/
theorem Agrees.checkpointed {row : StepRecord} (agrees : Agrees lib serializer position readOnly s)
    (behind : readOnly = false → ∃ completion, s.app.rows.get position = some completion ∧
      checkpointReads lib serializer row = completionReads lib serializer completion)
    (sys : s'.sys.rows.get position = some row) (app : s'.app.rows.get position = s.app.rows.get position) :
    Agrees lib serializer position readOnly s' := by
  constructor
  · rw [app]
    exact agrees.lasting
  · intro row' stored writing
    rw [sys] at stored
    cases stored
    rw [app]
    exact behind writing
  · rw [app]
    exact agrees.unwitnessed

theorem commit_get {key : Position} {ν : Type} {b b' : Base Position ν Statements Error Value} {i : Nat} {row : ν}
    (done : b.commit i (some (key, row)) = some b') : b.rows.get key = none ∧ b'.rows = b.rows.put key row := by
  unfold Base.commit at done
  dsimp only at done
  split at done
  · cases done
  next vacant =>
    cases done
    exact ⟨by simpa using vacant, rfl⟩

/-- A statement that fits keeps the rows of the position in agreement. -/
theorem answer_agrees {input : Input} {q : Query} (proper : Mirrored lib serializer position readOnly input q s)
    (fitting : Fitting lib serializer position readOnly s q) (agrees : Agrees lib serializer position readOnly s) :
    Agrees lib serializer position readOnly (answer lib serializer input q s).2 := by
  cases q with
  | now | selectStep | fetchCompletion | begin | setTransaction | fingerprint | insertStep | insertCompletion | rollback
  | workflowStatus | check | interrupt => exact agrees
  | body site id seq readOnly =>
    cases site with
    | system | application => exact agrees.of_rows rfl rfl
  | commitStep i row =>
    simp only [answer]
    cases done : s.sys.commit i row with
    | none => exact agrees
    | some sys =>
      apply agrees.leaves
      cases row with
      | none =>
        cases done
        exact agrees.of_rows rfl rfl
      | some stored =>
        obtain ⟨-, put⟩ := commit_get done
        refine agrees.of_rows ?_ rfl
        change sys.rows.get position = _
        rw [put, Table.get_put, if_neg (Ne.symm fitting)]
  | commitCompletion i row =>
    simp only [answer]
    cases done : s.app.commit i row with
    | none => exact agrees
    | some app =>
      apply agrees.leaves
      cases row with
      | none =>
        cases done
        exact agrees.of_rows rfl rfl
      | some stored =>
        obtain ⟨key, row⟩ := stored
        obtain ⟨vacant, put⟩ := commit_get done
        by_cases own : key = position
        · subst own
          exact agrees.completed (fitting rfl) (proper rfl) vacant rfl (by simp [put])
        · refine agrees.of_rows rfl ?_
          change app.rows.get position = _
          rw [put, Table.get_put, if_neg (Ne.symm own)]
  | insertFailedStep id seq row =>
    simp only [answer]
    cases owned s id with
    | error e => exact agrees
    | ok _ =>
      apply agrees.leaves
      refine agrees.of_rows ?_ rfl
      unfold Base.insert
      split
      · rfl
      · exact (Table.get_put ..).trans (if_neg (Ne.symm fitting))
  | insertFailure id seq row =>
    apply agrees.leaves
    unfold Base.insert
    split
    · exact agrees.of_rows rfl rfl
    next vacant =>
      by_cases own : (id, seq) = position
      · obtain ⟨writing, -, lasting, -⟩ := proper own
        subst own
        exact agrees.completed writing lasting (by simpa using vacant) rfl (by simp)
      · exact agrees.of_rows rfl ((Table.get_put ..).trans (if_neg (Ne.symm own)))
  | recordStepResult id seq name value error startedAtMs executor =>
    apply agrees.leaves
    rcases @recordStepResult_rows lib serializer input.now id seq name value error startedAtMs executor s.db with
      same | ⟨row, vacant, put, column, failure, format⟩
    · exact agrees.of_rows (congrArg (Table.get · position) same) rfl
    · by_cases own : (id, seq) = position
      · have stored : (s.withDb _).sys.rows.get position = some row :=
          (congrArg (Table.get · position) put).trans (by simp [own])
        refine agrees.checkpointed ?_ stored rfl
        intro writing
        obtain ⟨completion, stored, reads⟩ := fitting own writing
        refine ⟨completion, stored, ?_⟩
        unfold checkpointReads
        rw [format, failure]
        exact reads (agrees.lasting completion stored) row.output column
      · refine agrees.of_rows ((congrArg (Table.get · position) put).trans ?_) rfl
        exact (Table.get_put ..).trans (if_neg (Ne.symm own))

/-- A sanctioned statement commits no second run of a key. -/
theorem answer_applied {input : Input} {q : Query} (sanctioned : Sanctioned lib serializer s q)
    (sound : Sound lib serializer s)
    (once : ∀ key, (s.app.applied key).length ≤ 1) (key : Position) :
    ((answer lib serializer input q s).2.app.applied key).length ≤ 1 := by
  have kept : ∀ s' : State, (s'.app.applied key).length ≤ 1 → ((input.leaves s s').app.applied key).length ≤ 1 := by
    intro s' here
    unfold Input.leaves
    split
    · exact here
    · exact once key
  cases q with
  | now | selectStep | fetchCompletion | begin | setTransaction | fingerprint | insertStep | insertCompletion | rollback
  | workflowStatus | check | interrupt => exact once key
  | body site id seq readOnly =>
    cases site with
    | system => exact once key
    | application =>
      simp only [answer]
      rw [sound.app.applied_push]
      exact once key
  | commitStep i row =>
    simp only [answer]
    cases s.sys.commit i row with
    | none => exact once key
    | some sys => exact kept _ (once key)
  | commitCompletion i row =>
    obtain ⟨run, value, here, ended, with_⟩ := sanctioned
    simp only [answer]
    cases done : s.app.commit i row with
    | none => exact once key
    | some app =>
      apply kept
      rcases with_ with ⟨rfl, reading⟩ | ⟨stored, rfl, told⟩
      · rw [Base.applied_read here reading done]
        exact once key
      · exact sound.app.applied_row here done (once key)
  | insertFailedStep id seq row =>
    simp only [answer]
    cases owned s id with
    | error e => exact once key
    | ok _ => exact kept _ (once key)
  | insertFailure id seq row =>
    apply kept
    unfold Base.insert
    split
    · exact once key
    · exact once key
  | recordStepResult => exact kept _ (once key)

variable (lib serializer position readOnly) in
/-- Transactions are atomic and applied once, and where the failures are mirrored the rows of the position agree. -/
def agreeing (agree : Prop) : Contract lib serializer where
  proper input q s := agree → Mirrored lib serializer position readOnly input q s
  sanctioned s q := Sanctioned lib serializer s q ∧ (agree → Fitting lib serializer position readOnly s q)
  inv s := Sound lib serializer s ∧ (∀ key, (s.app.applied key).length ≤ 1) ∧
    (agree → Agrees lib serializer position readOnly s)
  served := by
    intro input q s proper sanctioned
    have may := answer_may input sanctioned.1
    refine ⟨may.kept, ?_⟩
    intro kept
    refine ⟨may.sound kept.1, answer_applied sanctioned.1 kept.1 kept.2.1, ?_⟩
    intro agree
    exact answer_agrees (proper agree) (sanctioned.2 agree) (kept.2.2 agree)

end Agreement

end Durare.Transaction

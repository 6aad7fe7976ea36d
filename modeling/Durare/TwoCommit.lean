import Durare.SourceParts

/-! The two commits of a transaction on a data source of the application: its writes are committed
once, with a completion row, and the checkpoint in the system database follows from that row. -/
namespace Durare.Transaction

open Interaction Commits Sqlite

section Later

variable {lib : SerdeJson} {serializer : Serializer} {call : DsCall} {s : State} {α : Type}

def Completed (position : Position) (s : State) : Prop := ∃ row, s.app.rows.get position = some row

/-- The position has a completion row, or a checkpoint with an outcome. -/
def Closed (position : Position) (s : State) : Prop :=
  Completed position s ∨
    ∃ row, s.sys.rows.get position = some row ∧ (row.output.isSome = true ∨ row.error.isSome = true)

/-- Neither runs a body nor commits one. -/
def Query.idle : Query → Prop
  | .body _ _ _ _ | .commitStep _ _ | .commitCompletion _ _ => False
  | _ => True

theorem completed_stable (position : Position) : Stable (Completed position) := by
  intro s s' completed kept
  obtain ⟨row, stored⟩ := completed
  exact ⟨row, kept.app.rows position row stored⟩

theorem closed_stable (position : Position) : Stable (Closed position) := by
  intro s s' closed kept
  rcases closed with completed | recorded
  · exact .inl (completed_stable position s s' completed kept)
  · exact .inr (stable_row s s' recorded kept)

abbrev anyone (lib : SerdeJson) (serializer : Serializer) : World State Query Query.Reply := world (atomic lib serializer)

variable (lib serializer) in
/-- From here on the part runs no body and commits none, whatever the others do. -/
abbrev Rests (post : α → State → Prop) (act : Tx α) (s : State) : Prop :=
  Safe (anyone lib serializer) (fun q _ _ => q.idle) (fun result s => ∀ a, result = .ok a → post a s) act s

theorem pure_rests {post : α → State → Prop} {a : α} (stable : Stable (post a)) (here : post a s) :
    Rests lib serializer post (pure a : Tx α) s := by
  intro s' moved a' same
  cases same
  exact stable s s' here moved

theorem throw_rests {post : α → State → Prop} {e : Error} : Rests lib serializer post (.throw e : Tx α) s := by
  intro s' _ a same
  cases same

theorem Rests.then {β : Type} {post : α → State → Prop} {goal : β → State → Prop} {act : Tx α} {f : α → Tx β}
    (first : Rests lib serializer post act s) (second : ∀ a s, post a s → Rests lib serializer goal (f a) s) :
    Rests lib serializer goal (act >>= f) s := by
  apply Safe.seq first
  · intro a s known
    exact second a s (known a rfl)
  · intro e s _ s' _ b same
    cases same

theorem request_rests {q : Query} {post : q.Reply → State → Prop} (idle : q.idle) (stable : ∀ a, Stable (post a))
    (told : ∀ s' input, Kept s s' → post (answer lib serializer input q s').1 (answer lib serializer input q s').2) :
    Rests lib serializer post (request q) s := by
  intro s' moved reply s'' served
  obtain ⟨input, -, answered⟩ := served
  have knows := told s' input moved
  rw [answered] at knows
  refine ⟨idle, ?_⟩
  intro t later a ended
  cases ended
  exact stable _ _ _ knows later

theorem interrupt_rests {e : Error} : Rests lib serializer (fun _ _ => False) (interrupt e : Tx α) s := by
  have asked : Rests lib serializer (fun _ _ => True) (request (.interrupt e.cause)) s :=
    request_rests trivial (fun _ => stable_true) fun _ _ _ => trivial
  exact asked.then fun _ _ _ => throw_rests

theorem storage_rests {result : Except Error α} {P : State → Prop} (stable : Stable P) (here : P s) :
    Rests lib serializer (fun a s => result = .ok a ∧ P s) (storage result) s := by
  cases result with
  | ok a =>
    apply pure_rests
    · exact fun s s' known kept => ⟨known.1, stable s s' known.2 kept⟩
    · exact ⟨rfl, here⟩
  | error e =>
    simp only [storage, record]
    split
    · exact interrupt_rests.mono fun _ _ known a same => (known a same).elim
    · exact throw_rests

theorem recordStep_rests {value : Value} {error : Option String} {startedAtMs : Int} :
    Rests lib serializer (fun _ _ => True) (recordStep call value error startedAtMs) s := by
  have asked : Rests lib serializer (fun _ _ => True) (request
      (.recordStepResult call.id call.seq call.opts.name value error (some startedAtMs) (some call.executorId))) s :=
    request_rests trivial (fun _ => stable_true) fun _ _ _ => trivial
  apply asked.then
  intro stored s _
  exact (storage_rests stable_true trivial).mono fun _ _ _ _ _ => trivial

theorem replayCompletionRow_rests {row : CompletionRow} {startedAtMs : Int} :
    Rests lib serializer (fun _ _ => True) (replayCompletionRow lib serializer call row startedAtMs) s := by
  unfold replayCompletionRow
  split
  · apply (storage_rests stable_true trivial).then
    intro e s _
    apply (storage_rests stable_true trivial).then
    exact fun _ _ _ => recordStep_rests
  · split
    · exact interrupt_rests.mono fun _ _ known a same => (known a same).elim
    · apply (storage_rests stable_true trivial).then
      exact fun _ _ _ => recordStep_rests

/-- A row with an output or an error has an outcome, where it can be read. -/
theorem outcome_of_row {row : StepRecord} {read : Option StepOutcome}
    (outcome : row.output.isSome = true ∨ row.error.isSome = true)
    (reads : stepOutcomeFrom lib serializer row.serialization row.output row.error = .ok read) : read.isSome = true := by
  unfold stepOutcomeFrom at reads
  cases failure : row.error with
  | some text =>
    rw [failure] at reads
    cases reads
    rfl
  | none =>
    cases output : row.output with
    | none => simp [failure, output] at outcome
    | some text =>
      simp only [failure, output] at reads
      cases decoded : decode lib serializer row.serialization text with
      | error e => simp [decoded, Except.map] at reads
      | ok value =>
        simp only [decoded, Except.map, Except.ok.injEq] at reads
        simp [← reads]

/-- Where the checkpoint of a closed position reads as none, there is a completion row. -/
theorem getStepResult_rests (closed : Closed call.position s) :
    Rests lib serializer (fun step s => step = none → Completed call.position s) (getStepResult lib serializer call) s := by
  have later : ∀ step : Option RecordedStep, Stable fun s => step = none → Completed call.position s :=
    fun _ s s' known kept same => completed_stable call.position s s' (known same) kept
  have asked : Rests lib serializer (fun found s => ∀ row, found = .ok row → Completed call.position s ∨
        ∃ stored, row = some stored ∧ (stored.output.isSome = true ∨ stored.error.isSome = true))
      (request (.selectStep call.id call.seq)) s := by
    apply request_rests (q := .selectStep call.id call.seq) trivial
    · intro found s s' known kept row same
      exact (known row same).imp_left fun completed => completed_stable call.position s s' completed kept
    · intro s' input kept row replied
      rcases closed_stable call.position s s' closed kept with completed | ⟨stored, here, outcome⟩
      · exact .inl completed
      · simp only [answer, Input.replies] at replied
        split at replied
        · cases replied
        · exact .inr ⟨stored, (Except.ok.inj replied).symm.trans here, outcome⟩
  apply asked.then
  intro found s known
  have settled : Stable fun s => ∀ row, found = .ok row → Completed call.position s ∨
      ∃ stored, row = some stored ∧ (stored.output.isSome = true ∨ stored.error.isSome = true) := by
    intro s s' known kept row same
    exact (known row same).imp_left fun completed => completed_stable call.position s s' completed kept
  apply (storage_rests settled known).then
  intro row s known
  rcases known.2 row known.1 with completed | ⟨stored, rfl, outcome⟩
  · cases row with
    | none => exact pure_rests (later none) fun _ => completed
    | some row =>
      apply (storage_rests (completed_stable call.position) completed).then
      intro outcome s completed
      exact pure_rests (later _) fun _ => completed.2
  · apply (storage_rests stable_true trivial).then
    intro read s known
    have some := outcome_of_row outcome known.1
    refine pure_rests (later _) ?_
    intro unread
    cases read with
    | none => cases some
    | some read => cases unread

theorem replayOrGuard_rests (closed : Closed call.position s) :
    Rests lib serializer (fun outcome s => outcome = none → Completed call.position s) (replayOrGuard lib serializer call) s := by
  have later : ∀ outcome : Option StepOutcome, Stable fun s => outcome = none → Completed call.position s :=
    fun _ s s' known kept same => completed_stable call.position s s' (known same) kept
  apply (getStepResult_rests closed).then
  intro step s known
  cases step with
  | some step =>
    unfold checkRecorded
    dsimp only
    split
    · exact throw_rests
    · exact pure_rests (later _) fun same => nomatch same
  | none =>
    have asked : Rests lib serializer (fun _ => Completed call.position) (request (.workflowStatus call.id)) s := by
      apply request_rests (q := .workflowStatus call.id) trivial fun _ => completed_stable call.position
      exact fun s' _ kept => completed_stable call.position s s' (known rfl) kept
    have guarded : Rests lib serializer (fun _ => Completed call.position) (guardCancelled call) s := by
      apply asked.then
      intro status s completed
      apply (storage_rests (completed_stable call.position) completed).then
      intro status s completed
      split
      · exact throw_rests
      · exact pure_rests (completed_stable call.position) completed.2
    apply guarded.then
    intro _ s completed
    exact pure_rests (later none) fun _ => completed

theorem runExternal_rests {startedAtMs : Int} (rounds : Nat) (completed : Completed call.position s) :
    Rests lib serializer (fun _ _ => True) (runExternal lib serializer call rounds startedAtMs) s := by
  have fetched : Rests lib serializer (fun found _ => ∀ row, found = .ok row → row.isSome = true)
      (request (.fetchCompletion call.id call.seq)) s := by
    apply request_rests (q := .fetchCompletion call.id call.seq) trivial fun _ _ _ known _ => known
    intro s' input kept row replied
    obtain ⟨stored, here⟩ := completed_stable call.position s s' completed kept
    simp only [answer, Input.replies] at replied
    split at replied
    · cases replied
    · rw [← Except.ok.inj replied]
      exact Option.isSome_iff_exists.mpr ⟨stored, here⟩
  apply fetched.then
  intro found s known
  have constant : Stable fun _ => ∀ row, found = .ok row → row.isSome = true := fun _ _ known _ => known
  apply (storage_rests constant known).then
  intro row s known
  cases row with
  | none => exact absurd (known.2 none known.1) (by decide)
  | some row => exact replayCompletionRow_rests

/-- An execution that begins where the position is closed runs no body and commits nothing. -/
theorem runDatasourceTransaction_rests (rounds : Nat) (closed : Closed call.position s) :
    Rests lib serializer (fun _ _ => True) (runDatasourceTransaction lib serializer call .external rounds) s := by
  apply (replayOrGuard_rests closed).then
  intro outcome s known
  cases outcome with
  | some outcome => exact pure_rests stable_true trivial
  | none =>
    have clock : Rests lib serializer (fun _ => Completed call.position) (request .now) s := by
      apply request_rests (q := .now) trivial fun _ => completed_stable call.position
      exact fun s' _ kept => completed_stable call.position s s' (known rfl) kept
    exact clock.then fun started s completed => runExternal_rests rounds completed

end Later

abbrev DsSteps := DsCall × Nat

/-- What the transactions on a data source of the application have come to, those aside that are marked as reading
only. The last field is about any execution that begins now, whatever the others do. -/
structure AppliedOnce (lib : SerdeJson) (serializer : Serializer) (s : State) : Prop where
  once : ∀ position, (s.app.applied position).length ≤ 1
  carried : ∀ position, ∀ i ∈ s.app.applied position, s.app.writer.get position = some i ∧
    ∃ row, s.app.rows.get position = some row ∧ row.error = none ∧ row.output.isSome = true
  later : ∀ step : DsSteps, Closed step.1.position s →
    Rests lib serializer (fun _ _ => True) (runDatasourceTransaction lib serializer step.1 .external step.2) s

/-- Nobody besides the steps writes completion rows. -/
theorem move_app (lib : SerdeJson) (serializer : Serializer) (s : State) (m : Move) :
    (move lib serializer s m).app = s.app := by
  cases m with
  | recorded input id seq name value error startedAtMs executor =>
    simp only [move, answer, Input.leaves]
    split <;> rfl
  | workflow id row => rfl

theorem applied_once (lib : SerdeJson) (serializer : Serializer) (rows : Table Position StepRecord)
    (completions : Table Position CompletionRow) (workflows : Table String WorkflowRecord) (events : List (Event DsSteps)) :
    AppliedOnce lib serializer (Crowd.run
      (setting lib serializer fun step => runDatasourceTransaction lib serializer step.1 .external step.2) events
      (Crowd.start (.fresh rows completions workflows))).state := by
  have safe : ∀ (step : DsSteps) s, Does (agreeing lib serializer ("", 0) false False) (fun _ _ => True)
      (runDatasourceTransaction lib serializer step.1 .external step.2) s :=
    fun step s => runDatasourceTransaction_does (fun never => never.elim) step.2
  have moved : ∀ s m, True → (agreeing lib serializer ("", 0) false False).inv s →
      (agreeing lib serializer ("", 0) false False).inv (move lib serializer s m) := by
    intro s m _ kept
    refine ⟨(move_may s m).sound kept.1, ?_, fun never => never.elim⟩
    rw [move_app]
    exact kept.2.1
  have free : ∀ input q s, (agreeing lib serializer ("", 0) false False).proper input q s :=
    fun _ _ _ never => never.elim
  obtain ⟨⟨sound, once, -⟩, -⟩ := run_keeps (fun _ _ => stable_true) safe moved
    (allowed_always free events (.fresh rows completions workflows))
    ⟨fresh_sound rows completions workflows, fun _ => Nat.zero_le _, fun never => never.elim⟩
  constructor
  · exact once
  · intro position i member
    obtain ⟨committed, run, here, rfl, writing⟩ := Base.mem_applied.mp member
    obtain ⟨written, row, stored, failure, _, _, _, _, output⟩ := sound.app.witnessed i committed run here writing
    exact ⟨written, row, stored, failure, by simp [output]⟩
  · intro step closed
    exact runDatasourceTransaction_rests step.2 closed

abbrev Rivals (position : Position) (readOnly : Bool) :=
  { step : DsSteps // step.1.position = position → step.1.opts.readOnly = readOnly }

/-- The steps of other kinds have positions of their own. -/
def Elsewhere (position : Position) (_ : State) : Move → Prop
  | .recorded _ id seq _ _ _ _ _ => (id, seq) ≠ position
  | .workflow _ _ => True

instance (position : Position) (s : State) : ∀ m, Decidable (Elsewhere position s m)
  | .recorded _ id seq _ _ _ _ _ => inferInstanceAs (Decidable ((id, seq) ≠ position))
  | .workflow _ _ => inferInstanceAs (Decidable True)

theorem move_agrees {lib : SerdeJson} {serializer : Serializer} {position : Position} {readOnly : Bool}
    {s : State} {m : Move}
    (elsewhere : Elsewhere position s m) (agrees : Agrees lib serializer position readOnly s) :
    Agrees lib serializer position readOnly (move lib serializer s m) := by
  cases m with
  | workflow id row => exact agrees.of_rows rfl rfl
  | recorded input id seq name value error startedAtMs executor =>
    exact answer_agrees (q := .recordStepResult id seq name value error startedAtMs executor) trivial
      (fun own => absurd own elsewhere) agrees

abbrev rivalry (lib : SerdeJson) (serializer : Serializer) (position : Position) (readOnly : Bool) :=
  setting lib serializer fun step : Rivals position readOnly =>
    runDatasourceTransaction lib serializer step.1.1 .external step.1.2

theorem two_commits_agree (lib : SerdeJson) (serializer : Serializer) (position : Position) (readOnly : Bool)
    (rows : Table Position StepRecord) (completions : Table Position CompletionRow) (workflows : Table String WorkflowRecord)
    (unrecorded : rows.get position = none) (uncompleted : completions.get position = none)
    (events : List (Event (Rivals position readOnly)))
    (mirrored : Runs.Along (Crowd.next (rivalry lib serializer position readOnly))
      (Crowd.Allowed (Elsewhere position) (Mirrored lib serializer position readOnly)) events
      (Crowd.start (.fresh rows completions workflows))) (s : State)
    (reached : s = (Crowd.run (rivalry lib serializer position readOnly) events
      (Crowd.start (.fresh rows completions workflows))).state) (checkpoint : StepRecord) (completion : CompletionRow)
    (recorded : s.sys.rows.get position = some checkpoint) (completed : s.app.rows.get position = some completion) :
    checkpointReads lib serializer checkpoint = completionReads lib serializer completion := by
  have safe : ∀ (step : Rivals position readOnly) s, Does (agreeing lib serializer position readOnly True) (fun _ _ => True)
      (runDatasourceTransaction lib serializer step.1.1 .external step.1.2) s :=
    fun step s => runDatasourceTransaction_does (fun _ => step.2) step.1.2
  have moved : ∀ s m, Elsewhere position s m → (agreeing lib serializer position readOnly True).inv s →
      (agreeing lib serializer position readOnly True).inv (move lib serializer s m) := by
    intro s m elsewhere kept
    refine ⟨(move_may s m).sound kept.1, ?_, fun _ => move_agrees elsewhere (kept.2.2 trivial)⟩
    rw [move_app]
    exact kept.2.1
  have fresh : Agrees lib serializer position readOnly (.fresh rows completions workflows) := by
    constructor
    · intro row stored
      cases uncompleted.symm.trans stored
    · intro row stored _
      cases unrecorded.symm.trans stored
    · exact fun _ => uncompleted
  have allowed : Runs.Along (Crowd.next (rivalry lib serializer position readOnly))
      (Crowd.Allowed (Elsewhere position) (agreeing lib serializer position readOnly True).proper) events
      (Crowd.start (.fresh rows completions workflows)) := by
    apply Runs.along_mono _ _ mirrored
    intro scene event fit
    cases event with
    | tick => exact fun q asked _ => fit q asked
    | outside | enter | crash => exact fit
  obtain ⟨⟨-, -, agrees⟩, -⟩ := run_keeps (fun _ _ => stable_true) safe moved allowed
    ⟨fresh_sound rows completions workflows, fun _ => Nat.zero_le _, fun _ => fresh⟩
  subst reached
  cases readOnly with
  | true => cases ((agrees trivial).unwitnessed rfl).symm.trans completed
  | false =>
    obtain ⟨completion', completed', reads⟩ := (agrees trivial).behind checkpoint recorded rfl
    rw [completed] at completed'
    cases completed'
    exact reads

def running : Table String WorkflowRecord :=
  Table.put ∅ "w"
    { status := .pending
      name := "pay"
      inputs := none
      serialization := none
      executorId := none
      applicationVersion := none
      createdAt := 0
      updatedAt := 0 }

def charging : Rivals ("w", 0) false := ⟨(⟨.sqlite, "w", 0, "e", { name := "charge" }⟩, 2), fun _ => rfl⟩

/-- Statements of the execution at `i` that are answered as they are. -/
def asking (i n : Nat) : List (Event (Rivals ("w", 0) false)) := List.replicate n (.tick i {})

/-- One execution dies between the two commits, and the next one records what was committed. -/
def adopted : List (Event (Rivals ("w", 0) false)) :=
  .enter charging :: asking 0 8 ++ .crash 0 :: .enter charging :: asking 0 6

theorem adopted_agrees : ∃ s checkpoint completion,
    s = (Crowd.run (rivalry (.reading []) .json ("w", 0) false) adopted (Crowd.start (.fresh ∅ ∅ running))).state ∧
    s.sys.rows.get ("w", 0) = some checkpoint ∧ s.app.rows.get ("w", 0) = some completion ∧
    checkpointReads (.reading []) .json checkpoint = completionReads (.reading []) .json completion := by
  refine ⟨_, ⟨"charge", some "__DBOS_NIL", none, none, some "DBOS_JSON", some 0, some 0⟩,
    ⟨some "__DBOS_NIL", none, some "DBOS_JSON"⟩, rfl, rfl, rfl, ?_⟩
  exact two_commits_agree (.reading []) .json ("w", 0) false ∅ ∅ running rfl rfl adopted (by decide) _ rfl _ _ rfl rfl

/-- What the body of the slower execution runs into. -/
def duplicateCharge : Error := .ofMessage "the charge exists"

/-- Both executions find nothing. One commits, and the body of the other fails on what was committed. -/
def overtaken : List (Event (Rivals ("w", 0) false)) :=
  .enter charging :: .enter charging :: asking 0 4 ++ asking 1 4 ++ asking 0 4 ++
    .tick 1 {} :: .tick 1 { outcome := .error duplicateCharge } :: asking 1 4

theorem overtaken_disagrees :
    ¬ ∀ (lib : SerdeJson) (serializer : Serializer) (position : Position) (readOnly : Bool)
      (workflows : Table String WorkflowRecord) (events : List (Event (Rivals position readOnly))) (s : State)
      (checkpoint : StepRecord) (completion : CompletionRow),
      Runs.Along (Crowd.next (rivalry lib serializer position readOnly))
        (Crowd.Allowed (Elsewhere position) fun _ _ _ => True) events (Crowd.start (.fresh ∅ ∅ workflows)) →
      s = (Crowd.run (rivalry lib serializer position readOnly) events (Crowd.start (.fresh ∅ ∅ workflows))).state →
      s.sys.rows.get position = some checkpoint → s.app.rows.get position = some completion →
      checkpointReads lib serializer checkpoint = completionReads lib serializer completion := by
  intro agree
  have same := agree (.reading []) .json ("w", 0) false running overtaken _
    ⟨"charge", none, some "the charge exists", none, some "DBOS_JSON", some 0, some 0⟩
    ⟨some "__DBOS_NIL", none, some "DBOS_JSON"⟩ (by decide) rfl rfl rfl
  revert same
  decide

end Durare.Transaction

import Durare.Completions

/-! The parts of a transaction on a data source of the application keep to the agreement of its rows. -/
namespace Durare.Transaction

open Interaction Commits Sqlite

section Parts

variable {lib : SerdeJson} {serializer : Serializer} {position : Position} {readOnly : Bool} {agree : Prop} {s : State}
  {α β : Type} {call : DsCall}

theorem stable_completion {p : CompletionRow → Prop} :
    Stable fun s => ∃ row, s.app.rows.get position = some row ∧ p row := by
  intro s s' stored kept
  obtain ⟨row, here, meets⟩ := stored
  exact ⟨row, kept.app.rows position row here, meets⟩

theorem stable_ran {i : Nat} {p : Run Position Statements Error Value → Prop} :
    Stable fun s => ∃ run, s.app.ran[i]? = some run ∧ p run := by
  intro s s' ran kept
  obtain ⟨run, here, meets⟩ := ran
  exact ⟨run, kept.app.numbered here, meets⟩

theorem interrupt_does {e : Error} :
    Does (agreeing lib serializer position readOnly agree) (fun _ _ => False) (interrupt e : Tx α) s := by
  apply request_then stable_true trivial
  · exact fun latched s _ => throw_does
  · exact fun _ => ⟨trivial, fun _ => trivial⟩

theorem record_does {e : Error} :
    Does (agreeing lib serializer position readOnly agree) (fun _ _ => False) (record e : Tx α) s := by
  unfold record
  split
  · exact interrupt_does
  · exact throw_does

theorem storage_then {result : Except Error α} {goal : β → State → Prop} {f : α → Tx β}
    (rest : ∀ a, result = .ok a → Does (agreeing lib serializer position readOnly agree) goal (f a) s) :
    Does (agreeing lib serializer position readOnly agree) goal (storage result >>= f) s := by
  cases result with
  | ok a => exact rest a rfl
  | error e => exact record_does.then fun _ _ never => never.elim

/-- A completion row stands there from which the checkpoint follows. -/
def Backed (lib : SerdeJson) (serializer : Serializer) (call : DsCall) (value : Value) (error : Option String)
    (s : State) :
    Prop :=
  ∃ completion, s.app.rows.get call.position = some completion ∧ (Lasting lib serializer completion →
    ∀ output, outputColumn lib serializer value error = .ok output →
      stepOutcomeFrom lib serializer (some serializer.name) output error = completionReads lib serializer completion)

variable (scope : agree → call.position = position → call.opts.readOnly = readOnly)

include scope in
theorem recordStep_does {value : Value} {error : Option String} {startedAtMs : Int}
    (backed : agree → call.position = position → call.opts.readOnly = false → Backed lib serializer call value error s) :
    Does (agreeing lib serializer position readOnly agree) (fun _ _ => True) (recordStep call value error startedAtMs) s := by
  have asked : Does (agreeing lib serializer position readOnly agree) (fun _ _ => True)
      (request (.recordStepResult call.id call.seq call.opts.name value error (some startedAtMs) (some call.executorId))) s := by
    apply request_knows (fun _ => stable_true)
    · intro s' kept
      refine ⟨trivial, ?_⟩
      intro agreed own writing
      change call.position = position at own
      obtain ⟨completion, stored, reads⟩ := backed agreed own ((scope agreed own).trans writing)
      rw [own] at stored
      exact ⟨completion, kept.app.rows position completion stored, reads⟩
    · exact fun _ _ _ _ => trivial
  apply asked.then
  intro stored s _
  cases stored with
  | ok outcome => exact pure_does stable_true trivial
  | error e => exact record_does.mono fun _ _ known a same => (known a same).elim

include scope in
theorem replayCompletionRow_does {row : CompletionRow} {startedAtMs : Int}
    (stored : s.app.rows.get call.position = some row) :
    Does (agreeing lib serializer position readOnly agree) (fun _ _ => True)
      (replayCompletionRow lib serializer call row startedAtMs) s := by
  unfold replayCompletionRow
  split
  next text failed =>
    apply storage_then
    intro e reads
    change tryFromParts lib (decodeError lib row.serialization text).1 (decodeError lib row.serialization text).2 = .ok e at reads
    apply storage_then
    intro encoded encodes
    apply recordStep_does scope
    intro _ _ _
    refine ⟨row, stored, ?_⟩
    intro lasting output column
    cases column
    apply lasting (none, some encoded)
    simp only [replayColumns, failed, reads, encodes, Except.map]
  next succeeded =>
    split
    · exact interrupt_does.mono fun _ _ known a same => (known a same).elim
    next output present =>
      apply storage_then
      intro value reads
      apply recordStep_does scope
      intro _ _ _
      refine ⟨row, stored, ?_⟩
      intro lasting text column
      apply lasting (text, none)
      cases encodes : serializer.encode lib value with
      | error e =>
        simp only [outputColumn, encodes, Except.map] at column
        cases column
      | ok encoded =>
        simp only [outputColumn, encodes, Except.map] at column
        cases column
        simp only [replayColumns, succeeded, present, reads, encodes, Except.map]

theorem fetchCompletion_does : Does (agreeing lib serializer position readOnly agree)
    (fun found s => ∀ row, found = .ok (some row) → ∃ stored, s.app.rows.get call.position = some stored ∧ stored = row)
    (request (.fetchCompletion call.id call.seq)) s := by
  apply request_knows
  · intro found s s' known kept row same
    exact stable_completion s s' (known row same) kept
  · exact fun _ _ => ⟨trivial, fun _ => trivial⟩
  · intro s' input _ _ row replied
    simp only [answer, Input.replies] at replied ⊢
    split at replied
    · cases replied
    · exact ⟨row, Except.ok.inj replied, rfl⟩

/-- The run of a body that returned. -/
def Returned (call : DsCall) : Nat × Value ⊕ DsAttempt → State → Prop
  | .inl (i, value), s => ∃ run, s.app.ran[i]? = some run ∧ ∃ writes, run = ⟨call.position, call.opts.readOnly, writes, .ok value⟩
  | .inr ended, _ => ∀ value, ended ≠ .committed value

theorem returned_stable (ended : Nat × Value ⊕ DsAttempt) : Stable (Returned call ended) := by
  cases ended with
  | inl ran => exact stable_ran
  | inr ended => exact fun _ _ known _ => known

theorem bodyOn_does : Does (agreeing lib serializer position readOnly agree)
    (fun ended s => ∃ run, s.app.ran[ended.1]? = some run ∧
      ∃ writes, run = ⟨call.position, call.opts.readOnly, writes, ended.2⟩)
    (request (.body .application call.id call.seq call.opts.readOnly)) s := by
  apply request_knows (fun _ => stable_ran)
  · exact fun _ _ => ⟨trivial, fun _ => trivial⟩
  · intro s' input _ _
    exact ⟨⟨call.position, call.opts.readOnly, input.writes, input.outcome⟩,
      by simp [answer, Base.push, DsCall.position], input.writes, rfl⟩

theorem beginOn_does :
    Does (agreeing lib serializer position readOnly agree) (fun _ _ => True) (beginOn call .application) s := by
  apply ask_then stable_true trivial
  · intro _ s _
    split
    · apply ask_knows (fun _ => stable_true)
      · exact fun _ _ => ⟨trivial, fun _ => trivial⟩
      · exact fun _ _ _ _ _ _ => trivial
    · exact pure_does stable_true trivial
  · exact fun _ => ⟨trivial, fun _ => trivial⟩

theorem txFingerprint_does {P : State → Prop} (stable : Stable P) (here : P s) :
    Does (agreeing lib serializer position readOnly agree) (fun _ s => P s) (txFingerprint call) s := by
  unfold txFingerprint
  split
  · apply ask_knows (fun _ => stable)
    · exact fun _ _ => ⟨trivial, fun _ => trivial⟩
    · exact fun s' _ _ kept _ _ => stable _ _ here kept
  · exact pure_does stable here

theorem runBody_does :
    Does (agreeing lib serializer position readOnly agree) (Returned call) (runBody call .application) s := by
  apply beginOn_does.then
  intro _ s _
  apply (txFingerprint_does stable_true trivial).then
  intro expected s _
  apply bodyOn_does.then
  intro ended s known
  obtain ⟨i, result⟩ := ended
  cases result with
  | ok value =>
    have ran : Returned call (.inl (i, value)) s := known
    have found : Does (agreeing lib serializer position readOnly agree) (fun _ s => Returned call (.inl (i, value)) s)
        (if expected.isSome then txFingerprint call else pure none : Tx (Option String)) s := by
      split
      · exact txFingerprint_does (returned_stable _) ran
      · exact pure_does (returned_stable _) ran
    apply found.then
    intro found s ran
    split
    · apply ask_then stable_true trivial
      · intro _ s _
        apply pure_does (returned_stable _)
        intro _ other
        cases other
      · exact fun _ => ⟨trivial, fun _ => trivial⟩
    · exact pure_does (returned_stable _) ran
  | error e =>
    apply ask_then stable_true trivial
    · intro _ s _
      split
      · exact throw_does
      · apply pure_does (returned_stable _)
        intro _ other
        cases other
    · exact fun _ => ⟨trivial, fun _ => trivial⟩

/-- What an attempt that was committed leaves. -/
def Ended (lib : SerdeJson) (serializer : Serializer) (call : DsCall) : DsAttempt → State → Prop
  | .committed value, s => call.opts.readOnly = false → Backed lib serializer call value none s
  | _, _ => True

theorem ended_stable (ended : DsAttempt) : Stable (Ended lib serializer call ended) := by
  cases ended with
  | committed value => exact fun s s' known kept writing => stable_completion s s' (known writing) kept
  | bodyFailed | alreadyCompleted => exact stable_true

include scope in
theorem commitCompletion_does {i : Nat} {writes : Statements} {value : Value} {encoded : String}
    (encodes : serializer.encode lib value = .ok encoded) (writing : call.opts.readOnly = false)
    (here : s.app.ran[i]? = some ⟨call.position, call.opts.readOnly, writes, .ok value⟩) :
    Does (agreeing lib serializer position readOnly agree) (fun _ s => Backed lib serializer call value none s)
      (ask (.commitCompletion i (some (call.position, ⟨some encoded, none, some serializer.name⟩))) rfl) s := by
  apply ask_knows (fun _ => stable_completion)
  · intro s' kept
    refine ⟨⟨_, value, kept.app.numbered here, rfl, .inr ⟨_, rfl, rfl, value, encoded, rfl, encodes, rfl⟩⟩, ?_⟩
    intro agreed own
    exact (scope agreed own).symm.trans writing
  · intro s' input u _ _ replied
    simp only [answer] at replied ⊢
    cases done : s'.app.commit i (some (call.position, ⟨some encoded, none, some serializer.name⟩)) with
    | none =>
      rw [done] at replied
      cases replied
    | some app =>
      rw [done] at replied
      simp only [Input.replies] at replied
      split at replied
      · cases replied
      next faultless =>
        simp only [Input.leaves, faultless, Option.isNone_none, Bool.true_or, if_true]
        obtain ⟨-, put⟩ := commit_get done
        refine ⟨⟨some encoded, none, some serializer.name⟩, by simp [put], ?_⟩
        intro _ output column
        simp only [outputColumn, encodes, Except.map] at column
        cases column
        rfl

include scope in
theorem datasourceAttempt_does : Does (agreeing lib serializer position readOnly agree) (Ended lib serializer call)
    (datasourceAttempt lib serializer call) s := by
  apply runBody_does.then
  intro ended s known
  cases ended with
  | inr ended =>
    refine pure_does (ended_stable ended) ?_
    cases ended with
    | committed value => exact absurd rfl (known value)
    | bodyFailed | alreadyCompleted => trivial
  | inl ran =>
    obtain ⟨i, value⟩ := ran
    obtain ⟨run, here, writes, rfl⟩ := known
    dsimp only
    split
    next reading =>
      have committed : Does (agreeing lib serializer position readOnly agree) (fun _ _ => True)
          (ask (.commitCompletion i none) rfl) s := by
        apply ask_knows (fun _ => stable_true)
        · intro s' kept
          exact ⟨⟨_, value, kept.app.numbered here, rfl, .inl ⟨rfl, reading⟩⟩, fun _ => trivial⟩
        · exact fun _ _ _ _ _ _ => trivial
      apply committed.then
      intro _ s _
      refine pure_does (ended_stable _) ?_
      intro writing
      rw [reading] at writing
      cases writing
    next writing =>
      have writing : call.opts.readOnly = false := by simpa using writing
      apply ofExcept_then
      intro encoded encodes
      apply ask_then stable_ran ⟨_, here, rfl⟩
      · intro won s known
        obtain ⟨run, here, rfl⟩ := known
        cases won with
        | true =>
          apply (commitCompletion_does scope encodes writing here).then
          intro _ s backed
          exact pure_does (ended_stable _) fun _ => backed
        | false =>
          apply request_then stable_true trivial
          · exact fun _ s _ => pure_does stable_true trivial
          · exact fun _ => ⟨trivial, fun _ => trivial⟩
      · exact fun _ => ⟨trivial, fun _ => trivial⟩

theorem guardCancelled_does :
    Does (agreeing lib serializer position readOnly agree) (fun _ _ => True) (guardCancelled call) s := by
  apply request_then stable_true trivial
  · intro status s _
    apply storage_then
    intro status _
    split
    · exact throw_does
    · exact pure_does stable_true trivial
  · exact fun _ => ⟨trivial, fun _ => trivial⟩

include scope in
theorem retryAttempts_does (rounds : Nat) :
    Does (agreeing lib serializer position readOnly agree) (Ended lib serializer call)
    (retryAttempts call (datasourceAttempt lib serializer call) rounds) s := by
  induction rounds generalizing s with
  | zero => trivial
  | succ rounds ih =>
    have handed : Does (agreeing lib serializer position readOnly agree)
        (fun result s => ∀ ended, result = .ok ended → Ended lib serializer call ended s)
        (datasourceAttempt lib serializer call).attempt s := by
      apply (datasourceAttempt_does scope).attempted
      intro result s known s' kept handed same ended succeeded
      cases same
      exact ended_stable ended s s' (known ended succeeded) kept
    apply handed.then
    intro ended s known
    cases ended with
    | ok ended => exact pure_does (ended_stable ended) (known ended rfl)
    | error e =>
      dsimp only
      split
      · exact guardCancelled_does.then fun _ _ _ => ih
      · exact record_does.mono fun _ _ known a same => (known a same).elim

include scope in
theorem adoptCompletion_does {startedAtMs : Int} (value : Value) :
    Does (agreeing lib serializer position readOnly agree) (fun _ _ => True)
      (adoptCompletion lib serializer call startedAtMs value) s := by
  apply fetchCompletion_does.then
  intro found s known
  apply storage_then
  intro row same
  cases row with
  | none => exact interrupt_does.mono fun _ _ known a same => (known a same).elim
  | some row =>
    obtain ⟨stored, here, rfl⟩ := known row same
    apply storage_then
    intro alike _
    split
    · exact replayCompletionRow_does scope here
    · exact throw_does

include scope in
/-- The failure is recorded behind its completion row, where the mirror is as it has to be. -/
theorem mirrorFailure_does {startedAtMs : Int} (e : Error) :
    Does (agreeing lib serializer position readOnly agree) (fun _ _ => True)
      (mirrorFailure lib serializer call startedAtMs e) s := by
  apply storage_then
  intro encoded encodes
  have mirrored : Does (agreeing lib serializer position readOnly agree)
      (fun _ s => agree → call.position = position → Backed lib serializer call .null (some encoded) s)
      (request (.insertFailure call.id call.seq ⟨none, some encoded, some serializer.name⟩)) s := by
    apply request_knows
    · intro _ s s' known kept agreed own
      exact stable_completion s s' (known agreed own) kept
    · exact fun _ _ => ⟨trivial, fun _ => trivial⟩
    · intro s' input _ proper agreed own
      obtain ⟨-, effect, -, met⟩ := proper agreed own
      have left : input.leaves s' { s' with app := (s'.app.insert (call.id, call.seq)
          ⟨none, some encoded, some serializer.name⟩).2 } = { s' with app := (s'.app.insert (call.id, call.seq)
          ⟨none, some encoded, some serializer.name⟩).2 } := by
        rcases effect with faultless | effective
        · simp [Input.leaves, faultless]
        · simp [Input.leaves, effective]
      simp only [answer, left]
      cases stored : s'.app.rows.get call.position with
      | none =>
        refine ⟨⟨none, some encoded, some serializer.name⟩, ?_, ?_⟩
        · have vacant : s'.app.rows.get (call.id, call.seq) = none := stored
          simp [Base.insert, vacant, DsCall.position]
        · intro _ output column
          cases column
          rfl
      | some completion =>
        refine ⟨completion, (Base.grows_insert (call.id, call.seq) _).rows call.position completion stored, ?_⟩
        intro _ output column
        cases column
        rw [own] at stored
        exact (met completion stored).symm
  apply mirrored.then
  intro _ s backed
  apply ask_then (P := fun s => agree → call.position = position → Backed lib serializer call .null (some encoded) s) _ backed
  · intro _ s backed
    apply storage_then
    intro encoded' encodes'
    rw [encodes] at encodes'
    cases encodes'
    exact recordStep_does scope fun agreed own _ => backed agreed own
  · exact fun _ => ⟨trivial, fun _ => trivial⟩
  · intro s s' known kept agreed own
    exact stable_completion s s' (known agreed own) kept

include scope in
theorem afterDsAttempt_does {retries : Nat} {startedAtMs : Int} {again : Tx StepOutcome} {ended : DsAttempt}
    (known : Ended lib serializer call ended s)
    (next : ∀ s, Does (agreeing lib serializer position readOnly agree) (fun _ _ => True) again s) :
    Does (agreeing lib serializer position readOnly agree) (fun _ _ => True)
      (afterDsAttempt call (fun value => recordStep call value none startedAtMs) (adoptCompletion lib serializer call startedAtMs)
        (mirrorFailure lib serializer call startedAtMs) retries again ended) s := by
  cases ended with
  | committed value => exact recordStep_does scope fun _ _ writing => known writing
  | alreadyCompleted value => exact adoptCompletion_does scope value
  | bodyFailed e =>
    simp only [afterDsAttempt]
    split
    · exact next s
    · exact mirrorFailure_does scope e

include scope in
theorem retryDsBody_does {startedAtMs : Int} (rounds left : Nat) :
    Does (agreeing lib serializer position readOnly agree) (fun _ _ => True)
      (retryDsBody call (datasourceAttempt lib serializer call) (fun value => recordStep call value none startedAtMs)
        (adoptCompletion lib serializer call startedAtMs) (mirrorFailure lib serializer call startedAtMs) rounds left) s := by
  induction left generalizing s with
  | zero =>
    apply (retryAttempts_does scope rounds).then
    intro ended s known
    exact afterDsAttempt_does scope known fun _ => trivial
  | succ left ih =>
    apply (retryAttempts_does scope rounds).then
    intro ended s known
    exact afterDsAttempt_does scope known fun _ => ih

include scope in
theorem runExternal_does {startedAtMs : Int} (rounds : Nat) :
    Does (agreeing lib serializer position readOnly agree) (fun _ _ => True)
      (runExternal lib serializer call rounds startedAtMs) s := by
  apply fetchCompletion_does.then
  intro found s known
  apply storage_then
  intro row same
  cases row with
  | none => exact retryDsBody_does scope rounds _
  | some row =>
    obtain ⟨stored, here, rfl⟩ := known row same
    exact replayCompletionRow_does scope here

theorem replayOrGuard_does :
    Does (agreeing lib serializer position readOnly agree) (fun _ _ => True) (replayOrGuard lib serializer call) s := by
  have looked : Does (agreeing lib serializer position readOnly agree) (fun _ _ => True) (getStepResult lib serializer call) s := by
    apply request_then stable_true trivial
    · intro found s _
      apply storage_then
      intro row _
      cases row with
      | none => exact pure_does stable_true trivial
      | some row =>
        apply storage_then
        exact fun outcome _ => pure_does stable_true trivial
    · exact fun _ => ⟨trivial, fun _ => trivial⟩
  apply looked.then
  intro step s _
  cases step with
  | some step =>
    unfold checkRecorded
    dsimp only
    split
    · exact throw_does
    · exact pure_does stable_true trivial
  | none => exact guardCancelled_does.then fun _ _ _ => pure_does stable_true trivial

include scope in
theorem runDatasourceTransaction_does (rounds : Nat) :
    Does (agreeing lib serializer position readOnly agree) (fun _ _ => True)
      (runDatasourceTransaction lib serializer call .external rounds) s := by
  apply replayOrGuard_does.then
  intro outcome s _
  cases outcome with
  | some outcome => exact pure_does stable_true trivial
  | none =>
    apply request_then stable_true trivial
    · exact fun started s _ => runExternal_does scope rounds
    · exact fun _ => ⟨trivial, fun _ => trivial⟩

end Parts

end Durare.Transaction

import Durare.Crowd
import Durare.Execution
import Durare.WriteOnce

/-! Patches: a branch of a workflow body on what is recorded at its position, and what
rivals at that position do to the answer. -/
namespace Durare

open Interaction

def PATCH_PREFIX : String := "DBOS.patch-"

/-- The name a patch is recorded under. -/
def marker (name : String) : String := PATCH_PREFIX ++ name

namespace Context

variable {δ : Type} (ctx : Context)

/-- `patch`: its answer and the counter after it. It reads the position first and marks it
with a second call; only the new path takes the position. -/
def patch (seq : Int) (name : String) : Act δ (Bool × Int) := do
  check
  match ← call (.getStepName ctx.workflowId seq) with
  | none =>
    call (.recordPatch ctx.workflowId seq (marker name))
    pure (true, nextSeq seq)
  | some recorded => if recorded = marker name then pure (true, nextSeq seq) else pure (false, seq)

def deprecatePatch (seq : Int) (name : String) : Act δ Int := do
  check
  let recorded ← call (.getStepName ctx.workflowId seq)
  if recorded = some (marker name) then pure (nextSeq seq) else pure seq

end Context

namespace Patch

open Memory Execution WriteOnce Crowd

/-- A patch point reached by some execution. -/
structure Point where
  ctx : Context
  seq : Int
  name : String

def Point.position (point : Point) : String × Int := (point.ctx.workflowId, point.seq)

variable {δ : Type} (lib : SerdeJson)

/-- Executions at their patch points. Whatever else they and their rivals do, patched or not, are
calls on the provider; the latch is what the rest of that execution has put there. -/
def setting : Setting Inner Point (DateTime × Call) (Input δ × Option Error) Ask (Ask.Reply δ)
    (Except Error (Bool × Int)) where
  program point := point.ctx.patch point.seq point.name
  move := step lib
  answer input q s :=
    let (reply, store, _) := answer lib input.1 q (s, input.2)
    (reply, store)

abbrev System (δ : Type) := Scene Inner Point Ask (Ask.Reply δ) (Except Error (Bool × Int))

abbrev Event (δ : Type) := Crowd.Event (DateTime × Call) Point (Input δ × Option Error)

def deletes : Call → Bool
  | .deleteWorkflows _ _ => true
  | _ => false

/-- The calls executions make: none deletes a history, and none replaces one. -/
def Lives (s : Inner) (event : DateTime × Call) : Prop := deletes event.2 = false ∧ Fresh s event

instance (s : Inner) (event : DateTime × Call) : Decidable (Lives s event) := inferInstanceAs (Decidable (_ ∧ _))

/-- A marker is written where there is no row, or where it stands already. -/
def unrivalled (s : Inner) : Ask → Bool
  | .call (.recordPatch id seq name) => (s.steps.get (id, seq)).all (·.name = name)
  | _ => true

def Unrivalled (sys : System δ) (event : Event δ) : Prop :=
  Allowed Lives (fun _ q s => unrivalled s q = true) sys event

instance (sys : System δ) (event : Event δ) : Decidable (Unrivalled sys event) :=
  inferInstanceAs (Decidable (Allowed ..))

/-- Steps of executions and rivals in any order. -/
def Lively (sys : System δ) (event : Event δ) : Prop := Allowed Lives (fun _ _ _ => True) sys event

instance (sys : System δ) (event : Event δ) : Decidable (Lively sys event) :=
  inferInstanceAs (Decidable (Allowed ..))

/-- What the patches of a run have answered so far: on the new path the marker stands at the
position, and executions at one point took one path. -/
structure Agreed (sys : System δ) : Prop where
  marked : ∀ r ∈ sys.returned, ∀ counter, r.2 = .ok (true, counter) →
    ∃ row, sys.state.steps.get r.1.position = some row ∧ row.name = marker r.1.name
  together : ∀ a ∈ sys.returned, ∀ b ∈ sys.returned, a.1.position = b.1.position → a.1.name = b.1.name →
    ∀ branch branch' counter counter', a.2 = .ok (branch, counter) → b.2 = .ok (branch', counter') →
      branch = branch'

def world : World Inner Ask (Ask.Reply δ) where
  rely := StepsKept
  serves q s reply s' := unrivalled s q = true ∧ ∃ input latch latch', answer lib input q (s, latch) = (reply, s', latch')
  refl _ _ _ stored := stored
  trans := StepsKept.trans

def Decided (point : Point) (result : Except Error (Bool × Int)) (s : Inner) : Prop :=
  ∀ branch counter, result = .ok (branch, counter) →
    ∃ row, s.steps.get point.position = some row ∧ (branch = true ↔ row.name = marker point.name)

variable {lib}

theorem Decided.later {point : Point} {result : Except Error (Bool × Int)} {s s' : Inner}
    (decided : Decided point result s) (kept : StepsKept s s') : Decided point result s' := by
  intro branch counter same
  obtain ⟨row, stored, reads⟩ := decided branch counter same
  exact ⟨row, kept _ _ stored, reads⟩

theorem Decided.refused (point : Point) (e : Error) (s : Inner) : Decided point (.error e) s := by
  intro branch counter same
  cases same

theorem insertStep_marks {s : Inner} {w name : String} {seq : Int}
    (own : (s.steps.get (w, seq)).all (·.name = name) = true) :
    StepsKept s (s.insertStep w seq { name := name }) ∧
      ∃ row, (s.insertStep w seq { name := name }).steps.get (w, seq) = some row ∧ row.name = name := by
  unfold Inner.insertStep
  cases present : s.steps.get (w, seq) with
  | some row => exact ⟨fun _ _ stored => stored, row, present, by simpa [present] using own⟩
  | none =>
    constructor
    · intro key row stored
      by_cases here : key = (w, seq)
      · rw [here, present] at stored
        cases stored
      · simpa [here] using stored
    · exact ⟨{ name := name }, by simp, rfl⟩

/-- An ask of a patch leaves every recorded row. -/
theorem patch_safe (point : Point) (s : Inner) :
    Safe (world lib) (fun _ => StepsKept) (Decided point)
      (point.ctx.patch point.seq point.name : Act δ (Bool × Int)) s := by
  intro s₁ _ latch s₂ served
  obtain ⟨-, input, before, after, answered⟩ := served
  simp only [answer, Prod.mk.injEq] at answered
  obtain ⟨-, rfl, -⟩ := answered
  refine ⟨fun _ _ stored => stored, ?_⟩
  cases latch with
  | error e => exact fun t _ => .refused point e t
  | ok _ =>
    intro s₃ _ found s₄ served
    obtain ⟨-, input, before, after, answered⟩ := served
    simp only [answer, exec, getStepName, Prod.mk.injEq] at answered
    obtain ⟨rfl, rfl, -⟩ := answered
    refine ⟨fun _ _ stored => stored, ?_⟩
    cases present : s₃.steps.get (point.ctx.workflowId, point.seq) with
    | some row =>
      -- the branch is the comparison with the name that was read
      change Safe (world lib) _ _ (if row.name = marker point.name then
        pure (true, nextSeq point.seq) else pure (false, point.seq) : Act δ (Bool × Int)) s₃
      split
      all_goals
        rename_i own
        intro t kept branch counter same
        cases same
        exact ⟨row, kept _ _ present, by simp [own]⟩
    | none =>
      -- a rival may have come first, but then with the same marker
      intro s₅ _ reply s₆ served
      obtain ⟨first, input, before, after, answered⟩ := served
      simp only [answer, exec, recordPatch, Prod.mk.injEq] at answered
      obtain ⟨rfl, rfl, -⟩ := answered
      obtain ⟨kept, row, stored, named⟩ := insertStep_marks first
      refine ⟨kept, ?_⟩
      intro t later branch counter same
      cases same
      exact ⟨row, later _ _ stored, by simp [named]⟩

theorem undeleted {call : Call} (keeps : deletes call = false) :
    ∀ ids children, call ≠ .deleteWorkflows ids children := by
  intro ids children same
  rw [same] at keeps
  cases keeps

/-- In every run of any number of executions where no marker meets another row at its position,
the patches agree with the rows and with one another. -/
theorem patches_agree (lib : SerdeJson) (s : Inner) (events : List (Event δ))
    (unrivalled : Runs.Along (next (setting lib)) Unrivalled events (start s)) :
    Agreed (run (setting lib) events (start s)) := by
  have rule : Sound.Rule (setting lib) (world lib) (fun _ _ => StepsKept) Decided Lives
      (fun (_ : Input δ × Option Error) q s => Patch.unrivalled s q = true) :=
    { safe := patch_safe
      served := fun input q s proper => ⟨proper, input.1, input.2, _, rfl⟩
      guarantee := fun _ _ _ _ kept => kept
      moved := fun s event lives => step_stepsKept lib s event lives.2 (undeleted lives.1)
      stable := fun _ _ _ _ decided kept => decided.later kept }
  have sound := Sound.run rule unrivalled
  constructor
  · intro r member counter same
    obtain ⟨row, stored, reads⟩ := sound.returned r member true counter same
    exact ⟨row, stored, reads.mp rfl⟩
  · intro a here b there position name branch branch' counter counter' first second
    obtain ⟨row, stored, reads⟩ := sound.returned a here branch counter first
    obtain ⟨row', stored', reads'⟩ := sound.returned b there branch' counter' second
    rw [position, stored'] at stored
    cases stored
    rw [name] at reads
    exact Bool.eq_iff_iff.mpr (reads.trans reads'.symm)

def feature : Point := ⟨.plain, 0, "feature"⟩

def asking (i : Nat) : Event Unit := .tick i ({}, none)

def launched : Event Unit := .outside (0, .insertWorkflowStatus (.new 0 "w" "job" .null .pending "e1" "v1"))

/-- Two executions at one patch point, both asking before either has marked it. -/
def abreast : List (Event Unit) :=
  [launched, .enter feature, .enter feature, asking 0, asking 1, asking 0, asking 1, asking 0, asking 1, asking 1, asking 0]

theorem patches_agree_abreast :
    (run (setting (.reading [])) abreast (start Inner.new)).returned =
        [(feature, .ok (true, 1)), (feature, .ok (true, 1))] ∧
      Agreed (run (setting (.reading [])) abreast (start Inner.new)) :=
  ⟨by rfl, patches_agree _ _ _ (by decide)⟩

/-- A rival without the patch records its step after the patch has found the position vacant.
The marker is dropped, the patch answers as if it stood, and the next execution reads the step. -/
def overtaken : List (Event Unit) :=
  [launched, .enter feature, asking 0, asking 0,
    .outside (1, .recordStepResult "w" 0 "legacy_step" .null none (some 1) none),
    asking 0, asking 0, .enter feature, asking 0, asking 0, asking 0]

theorem patch_overtaken :
    ¬ ∀ (lib : SerdeJson) (s : Inner) (events : List (Event Unit)),
      Runs.Along (next (setting lib)) Lively events (start s) → Agreed (run (setting lib) events (start s)) := by
  intro agree
  have agreed := agree (.reading []) Inner.new overtaken (by decide)
  have answers : (run (setting (.reading [])) overtaken (start Inner.new)).returned =
      [(feature, .ok (true, 1)), (feature, .ok (false, 0))] := by rfl
  have same := agreed.together (feature, .ok (true, 1)) (by simp [answers]) (feature, .ok (false, 0))
    (by simp [answers]) rfl rfl true false 1 0 rfl rfl
  cases same

end Patch

end Durare

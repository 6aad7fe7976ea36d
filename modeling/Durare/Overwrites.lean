import Durare.Replacing

/-! In every run the replacements of a workflow come in the order of its calls, each once. -/
namespace Durare.Overwrites

open Interaction Execution Memory

section Inv

variable {δ ω : Type} (ctx : Context) (cell : Cell ω) (calls : List (Int × ω))

/-- An execution has passed only recorded calls, and its own call is at one of its places. -/
structure Stands (m : Nat) (runner : Runner δ) : Prop where
  passed : (∀ result ∈ runner.results, result.isOk = true) → runner.results.length ≤ m
  running : ∀ act, runner.rest = some act → runner.results.length ≤ m ∧ ∃ call ∈ calls[runner.results.length]?,
    Phase ctx cell call.1 call.2 (runner.results.length < m) act

/-- The calls that were recorded come first, and at most the next one is replaced and owed. -/
def Applied (sys : System δ) (m : Nat) : Prop :=
  (sys.replaced = List.range m ∧ ∀ i runner, sys.runner i = some runner → ¬ runner.Owes) ∨
    (sys.replaced = List.range (m + 1) ∧ ∃ i owner, sys.runner i = some owner ∧ owner.Owes ∧
      owner.results.length = m ∧ ∀ j runner, sys.runner j = some runner → runner.Owes → j = i)

structure Inv (sys : System δ) (m : Nat) : Prop where
  rows : ∀ k call, calls[k]? = some call → ((sys.store.steps.get (ctx.workflowId, call.1)).isSome = true ↔ k < m)
  runners : ∀ i runner, sys.runner i = some runner → Stands ctx cell calls m runner
  applied : Applied sys m
  shown : ∀ k, sys.shown = some k → sys.replaced.getLast? = some k ∧
    ∃ call ∈ calls[k]?, cell.visible sys.store = cell.shows call.2

variable {ctx cell calls} {sys : System δ} {m : Nat} {i : Nat} {runner : Runner δ}

theorem runner_lt (here : sys.runner i = some runner) : i < sys.runners.length := by
  by_contra out
  rw [System.runner, List.getElem?_eq_none (by omega)] at here
  cases here

theorem runner_set (here : sys.runner i = some runner) (x : Option (Runner δ)) (j : Nat) :
    ((sys.runners.set i x)[j]?).join = if j = i then x else sys.runner j := by
  by_cases same : j = i
  · subst same
    simp [runner_lt here]
  · rw [if_neg same, List.getElem?_set_ne (by omega)]
    rfl

theorem Runner.owes_iff (act : Act δ Unit) (running : runner.rest = some act) : runner.Owes ↔ ¬ Clear act := by
  simp only [Runner.Owes, Runner.asks, running, Option.bind_some, Clear]
  constructor
  · rintro ⟨q, asks, recorded⟩ clear
    rw [clear q asks] at recorded
    cases recorded
  · intro unclear
    by_contra none
    refine unclear fun q asks => ?_
    by_contra recorded
    exact none ⟨q, asks, by simpa using recorded⟩

theorem Runner.not_owes (idle : runner.rest = none) : ¬ runner.Owes := by
  rintro ⟨q, asks, -⟩
  simp [Runner.asks, idle] at asks

theorem Inv.last (inv : Inv ctx cell calls sys m) (store : Inner) (k : Nat) (same : stays cell sys store = some k) :
    sys.replaced.getLast? = some k ∧ ∃ call ∈ calls[k]?, cell.visible store = cell.shows call.2 := by
  unfold stays at same
  split at same
  next visible =>
    obtain ⟨last, call, listed, holds⟩ := inv.shown k same
    exact ⟨last, call, listed, visible.trans holds⟩
  · cases same

/-- The execution whose runner is put down stands where it may, and nobody's debt changes. -/
theorem Inv.put (inv : Inv ctx cell calls sys m) (here : sys.runner i = some runner) (free : ¬ runner.Owes)
    (store : Inner) (x : Option (Runner δ)) (rows : ∀ call ∈ calls, store.steps.get (ctx.workflowId, call.1) =
      sys.store.steps.get (ctx.workflowId, call.1))
    (stands : ∀ runner', x = some runner' → Stands ctx cell calls m runner' ∧ ¬ runner'.Owes) :
    Inv ctx cell calls { sys with store := store, runners := sys.runners.set i x, shown := stays cell sys store } m where
  rows k call listed := by
    rw [rows call (List.mem_of_getElem? listed)]
    exact inv.rows k call listed
  runners j runner' found := by
    rw [System.runner, runner_set here] at found
    split at found
    · exact (stands runner' found).1
    · exact inv.runners j runner' found
  applied := by
    have owing : ∀ j runner', ((sys.runners.set i x)[j]?).join = some runner' → runner'.Owes →
        sys.runner j = some runner' := by
      intro j runner' found owes
      rw [runner_set here] at found
      split at found
      · exact absurd owes (stands runner' found).2
      · exact found
    rcases inv.applied with ⟨done, none⟩ | ⟨done, j, owner, held, owes, last, only⟩
    · exact .inl ⟨done, fun j runner' found owes => none j runner' (owing j runner' found owes) owes⟩
    · refine .inr ⟨done, j, owner, ?_, owes, last, fun j' runner' found owes' =>
        only j' runner' (owing j' runner' found owes') owes'⟩
      have other : j ≠ i := by
        rintro rfl
        rw [here] at held
        exact free (Option.some.inj held ▸ owes)
      rw [System.runner, runner_set here, if_neg other]
      exact held
  shown := inv.last store

/-- The execution made the replacement, and owes its record. -/
theorem Inv.replace (lawful : cell.Lawful ctx.lib) (inv : Inv ctx cell calls sys m) (here : sys.runner i = some runner)
    {call : Int × ω} (listed : calls[runner.results.length]? = some call)
    (bound : runner.results.length ≤ m) (unrecorded : sys.store.steps.get (ctx.workflowId, call.1) = none)
    (alone : ∀ j < sys.runners.length, ∀ other ∈ sys.runner j, other.results.length = runner.results.length → ¬ other.Owes)
    (now : DateTime) (latch : Option Error) (ok : (exec ctx.lib now (cell.replace call.2) sys.store).1.isOk = true) :
    Inv ctx cell calls
      { store := (exec ctx.lib now (cell.replace call.2) sys.store).2
        runners := sys.runners.set i (some { runner with latch := latch, rest := some (recording ctx cell call.1) })
        replaced := sys.replaced ++ [runner.results.length]
        shown := some runner.results.length } m := by
  have place : runner.results.length = m := by
    have rows := inv.rows _ call listed
    rw [unrecorded] at rows
    simp only [Option.isSome_none, Bool.false_eq_true, false_iff, not_lt] at rows
    omega
  have done : sys.replaced = List.range m ∧ ∀ j other, sys.runner j = some other → ¬ other.Owes := by
    rcases inv.applied with left | ⟨-, j, owner, held, owes, last, -⟩
    · exact left
    · exact absurd owes (alone j (runner_lt held) owner held (by omega))
  have owner : { runner with latch := latch, rest := some (recording ctx cell call.1) : Runner δ }.Owes := by
    rw [Runner.owes_iff (recording ctx cell call.1) rfl]
    intro clear
    have recorded := clear _ rfl
    cases recorded
  refine ⟨?_, ?_, ?_, ?_⟩
  · intro k call' listed'
    rw [lawful.steps]
    exact inv.rows k call' listed'
  · intro j other found
    rw [System.runner, runner_set here] at found
    split at found
    · cases found
      refine ⟨(inv.runners i runner here).passed, ?_⟩
      intro act running
      cases running
      exact ⟨bound, call, listed, .record rfl⟩
    · exact inv.runners j other found
  · refine .inr ⟨by rw [done.1, place, List.range_succ], i, _, ?_, owner, place, ?_⟩
    · rw [System.runner, runner_set here, if_pos rfl]
    · intro j other found owes
      by_contra apart
      rw [System.runner, runner_set here, if_neg apart] at found
      exact done.2 j other found owes
  · intro k same
    cases same
    exact ⟨by simp, call, listed, lawful.shows now call.2 sys.store ok⟩

theorem Stands.later {m' : Nat} (stands : Stands ctx cell calls m runner) (le : m ≤ m') :
    Stands ctx cell calls m' runner where
  passed ok := (stands.passed ok).trans le
  running act running := by
    obtain ⟨bound, call, listed, phase⟩ := stands.running act running
    exact ⟨bound.trans le, call, listed, phase.later fun lt => lt.trans_le le⟩

theorem position_inj (apart : (calls.map (·.1)).Nodup) {k k' : Nat} {call call' : Int × ω}
    (listed : calls[k]? = some call) (listed' : calls[k']? = some call') (same : call.1 = call'.1) : k = k' := by
  obtain ⟨inside, rfl⟩ := List.getElem?_eq_some_iff.mp listed
  obtain ⟨inside', rfl⟩ := List.getElem?_eq_some_iff.mp listed'
  have bound : k < (calls.map (·.1)).length := by simpa using inside
  have bound' : k' < (calls.map (·.1)).length := by simpa using inside'
  have equal : (calls.map (·.1))[k] = (calls.map (·.1))[k'] := by simpa using same
  exact apart.getElem_inj_iff.mp equal

/-- An execution that owes a record owes it for the next call, and no other owes one. -/
theorem Inv.owed (inv : Inv ctx cell calls sys m) (here : sys.runner i = some runner) (owes : runner.Owes) :
    sys.replaced = List.range (m + 1) ∧ runner.results.length = m ∧
      ∀ j other, sys.runner j = some other → other.Owes → j = i := by
  rcases inv.applied with ⟨-, none⟩ | ⟨done, j, owner, held, owing, last, only⟩
  · exact absurd owes (none i runner here)
  · obtain rfl := only i runner here owes
    rw [here] at held
    cases held
    exact ⟨done, last, only⟩

theorem Inv.unrecorded (inv : Inv ctx cell calls sys m) (here : sys.runner i = some runner) (owes : runner.Owes)
    {call : Int × ω} (listed : calls[runner.results.length]? = some call) :
    sys.store.steps.get (ctx.workflowId, call.1) = none := by
  have rows := inv.rows _ call listed
  rw [(inv.owed here owes).2.1] at rows
  simpa using rows

/-- The execution that owes a record makes it. -/
theorem Inv.record (apart : (calls.map (·.1)).Nodup) (inv : Inv ctx cell calls sys m)
    (here : sys.runner i = some runner) (owes : runner.Owes) {call : Int × ω}
    (listed : calls[runner.results.length]? = some call) (now : DateTime) (latch : Option Error)
    (act : Act δ Unit) (clear : Clear act)
    (phase : ∀ done, done → Phase ctx cell call.1 call.2 done act) :
    Inv ctx cell calls
      { sys with
        store := (recordStepResult ctx.lib now ctx.workflowId call.1 cell.name .null none none
          (some ctx.rt.executorId) sys.store).2
        runners := sys.runners.set i (some { runner with latch := latch, rest := some act })
        shown := stays cell sys (recordStepResult ctx.lib now ctx.workflowId call.1 cell.name .null none none
          (some ctx.rt.executorId) sys.store).2 } (m + 1) := by
  obtain ⟨done, place, only⟩ := inv.owed here owes
  have free := inv.unrecorded here owes listed
  have idle : ¬ ({ runner with latch := latch, rest := some act } : Runner δ).Owes := by
    rw [Runner.owes_iff act rfl]
    exact fun unclear => unclear clear
  refine ⟨?_, ?_, ?_, ?_⟩
  · intro k call' listed'
    rw [recordStepResult_vacant free, refreshExecutor_steps, putStep_steps, Table.get_put]
    by_cases same : k = m
    · subst same
      rw [← place, listed] at listed'
      cases listed'
      simp
    · have other : call'.1 ≠ call.1 := fun equal =>
        same ((position_inj apart listed' listed equal).trans place)
      rw [if_neg (by simpa using other), inv.rows k call' listed']
      omega
  · intro j other found
    rw [System.runner, runner_set here] at found
    split at found
    · cases found
      refine ⟨fun ok => ((inv.runners i runner here).passed ok).trans (by omega), ?_⟩
      intro act' running
      cases running
      exact ⟨by dsimp only; omega, call, listed, phase _ (by dsimp only; omega)⟩
    · exact (inv.runners j other found).later (by omega)
  · refine .inl ⟨done, fun j other found owing => ?_⟩
    rw [System.runner, runner_set here] at found
    split at found
    · cases found
      exact idle owing
    next apart => exact apart (only j other found owing)
  · exact inv.last _

theorem stays_same : stays cell sys sys.store = sys.shown := if_pos rfl

theorem tick_inv (lawful : cell.Lawful ctx.lib) (apart : (calls.map (·.1)).Nodup) (inv : Inv ctx cell calls sys m)
    (here : sys.runner i = some runner) {act : Act δ Unit} (running : runner.rest = some act) (input : Input δ)
    (undisturbed : Undisturbed ctx cell calls sys (.tick i input)) :
    ∃ m', Inv ctx cell calls (tick ctx cell calls i input runner act sys) m' := by
  obtain ⟨bound, call, listed, phase⟩ := (inv.runners i runner here).running act running
  have passed := (inv.runners i runner here).passed
  cases act with
  | done result =>
    have free : ¬ runner.Owes := by
      rw [Runner.owes_iff _ running]
      exact fun unclear => unclear fun q asks => by cases asks
    have after := inv.put here free sys.store (some { runner with
      results := runner.results ++ [result], rest := none }) (fun _ _ => rfl) (by
        intro runner' same
        cases same
        refine ⟨⟨fun ok => ?_, fun act running => by cases running⟩, Runner.not_owes rfl⟩
        have last := phase.returned (ok result (by simp))
        simp only [List.length_append, List.length_singleton]
        omega)
    rw [stays_same] at after
    exact ⟨m, after⟩
  | halt =>
    have free : ¬ runner.Owes := by
      rw [Runner.owes_iff _ running]
      exact fun unclear => unclear fun q asks => by cases asks
    have after := inv.put here free sys.store none (fun _ _ => rfl) (fun _ same => by cases same)
    rw [stays_same] at after
    exact ⟨m, after⟩
  | ask q k =>
    have found : (sys.store.steps.get (ctx.workflowId, call.1)).isSome = true → runner.results.length < m :=
      (inv.rows _ call listed).mp
    rcases phase.looks lawful input sys.store runner.latch found with ⟨other, unchanged, next, clear, unlike⟩ | at_ | at_
    · have free : ¬ runner.Owes := by
        rw [Runner.owes_iff _ running]
        exact fun unclear => unclear (.ask unlike)
      have looking : ¬ replaces cell calls runner.results.length q := by
        rintro ⟨call', -, asks⟩
        exact other call'.2 asks
      rcases replied : answer ctx.lib input q (sys.store, runner.latch) with ⟨reply, store, latch⟩
      rw [replied] at unchanged next clear
      obtain rfl : store = sys.store := unchanged
      refine ⟨m, ?_⟩
      simp only [tick, replied, looking, false_and, if_false]
      refine inv.put here free _ _ (fun _ _ => rfl) ?_
      intro runner' same
      cases same
      refine ⟨⟨passed, ?_⟩, ?_⟩
      · intro act' running'
        cases running'
        exact ⟨bound, call, listed, next⟩
      · rw [Runner.owes_iff _ rfl]
        exact fun unclear => unclear clear
    · obtain ⟨k', same, taken, refused⟩ :=
        replacing_eq (δ := δ) ctx cell call.1 call.2
      have free : ¬ runner.Owes := by
        rw [Runner.owes_iff _ running, at_]
        exact fun unclear => unclear (replacing_clear lawful)
      rw [same] at at_
      cases at_
      have own : replaces cell calls runner.results.length (.call (cell.replace call.2)) := ⟨call, listed, rfl⟩
      obtain ⟨unrecorded, alone⟩ := undisturbed runner here _ (by rw [Runner.asks, running]; rfl) own
      refine ⟨m, ?_⟩
      simp only [tick, answer, own, true_and, accepted]
      cases replied : exec ctx.lib input.now (cell.replace call.2) sys.store with
      | mk reply store =>
        cases reply with
        | error e =>
          simp only [Except.isOk, Except.toBool, Bool.false_eq_true, if_false]
          have steps := lawful.steps input.now call.2 sys.store
          rw [replied] at steps
          refine inv.put here free _ _ (fun other _ => by rw [steps]) ?_
          intro runner' same
          cases same
          refine ⟨⟨passed, ?_⟩, ?_⟩
          · intro act' running'
            cases running'
            exact ⟨bound, call, listed, .quiet (refused _ e)⟩
          · rw [Runner.owes_iff _ rfl]
            exact fun unclear => unclear (clear_of_quiet (refused False e))
        | ok u =>
          have after := inv.replace lawful here listed bound (unrecorded call listed) alone input.now runner.latch
            (by rw [replied]; rfl)
          simp only [replied] at after
          simpa only [Except.isOk, Except.toBool, if_true, taken] using after
    · obtain ⟨k', same, taken, refused⟩ := recording_eq (δ := δ) ctx cell call.1
      have owes : runner.Owes := by
        rw [Runner.owes_iff _ running, at_]
        intro clear
        have recorded := clear _ rfl
        cases recorded
      rw [same] at at_
      cases at_
      have recording : ¬ replaces cell calls runner.results.length (.call
          (.recordStepResult ctx.workflowId call.1 cell.name .null none none (some ctx.rt.executorId))) := by
        rintro ⟨call', -, asks⟩
        have own := lawful.own call'.2
        rw [← Ask.call.inj asks] at own
        cases own
      refine ⟨m + 1, ?_⟩
      simp only [tick, recording, false_and, if_false, answer, exec]
      have free := inv.unrecorded here owes listed
      have after := inv.record apart here owes listed input.now runner.latch (.done (.ok ()))
        (fun q asks => by cases asks) fun done holds => .quiet fun _ => holds
      rw [recordStepResult_vacant free] at after ⊢
      rw [taken]
      exact after

theorem Inv.others (inv : Inv ctx cell calls sys m) {store : Inner}
    (rows : ∀ call ∈ calls, store.steps.get (ctx.workflowId, call.1) = sys.store.steps.get (ctx.workflowId, call.1)) :
    Inv ctx cell calls { sys with store := store, shown := stays cell sys store } m where
  rows k call listed := by
    rw [rows call (List.mem_of_getElem? listed)]
    exact inv.rows k call listed
  runners := inv.runners
  applied := inv.applied
  shown := inv.last store

theorem Inv.seat (inv : Inv ctx cell calls sys m) {runners : List (Option (Runner δ))}
    (seated : ∀ j, (runners[j]?).join = sys.runner j ∨ sys.runner j = none ∧ (runners[j]?).join = some (Runner.new δ)) :
    Inv ctx cell calls { sys with runners := runners } m where
  rows := inv.rows
  runners j runner found := by
    rcases seated j with same | ⟨-, new⟩
    · exact inv.runners j runner (same ▸ found)
    · obtain rfl : Runner.new δ = runner := Option.some.inj (new.symm.trans found)
      exact ⟨fun _ => Nat.zero_le m, fun act running => by cases running⟩
  applied := by
    have owing : ∀ j runner, (runners[j]?).join = some runner → runner.Owes → sys.runner j = some runner := by
      intro j runner found owes
      rcases seated j with same | ⟨-, new⟩
      · exact same ▸ found
      · obtain rfl : Runner.new δ = runner := Option.some.inj (new.symm.trans found)
        exact absurd owes (Runner.not_owes rfl)
    rcases inv.applied with ⟨done, none⟩ | ⟨done, i, owner, held, owes, last, only⟩
    · exact .inl ⟨done, fun j runner found owes => none j runner (owing j runner found owes) owes⟩
    · refine .inr ⟨done, i, owner, ?_, owes, last, fun j runner found owes' => only j runner (owing j runner found owes') owes'⟩
      rcases seated i with same | ⟨none, -⟩
      · exact same.trans held
      · rw [none] at held
        cases held
  shown := inv.shown

theorem next_inv (lawful : cell.Lawful ctx.lib) (apart : (calls.map (·.1)).Nodup) (sys : System δ) (event : Event δ)
    (permitted : Allowed ctx calls sys event ∧ Undisturbed ctx cell calls sys event)
    (inv : ∃ m, Inv ctx cell calls sys m) : ∃ m, Inv ctx cell calls (next ctx cell calls sys event) m := by
  obtain ⟨allowed, undisturbed⟩ := permitted
  obtain ⟨m, inv⟩ := inv
  cases event with
  | others now c => exact ⟨m, inv.others allowed⟩
  | start =>
    refine ⟨m, inv.seat fun j => ?_⟩
    rcases lt_trichotomy j sys.runners.length with before | here | beyond
    · exact .inl (by rw [List.getElem?_append_left before]; rfl)
    · subst here
      exact .inr ⟨by simp [System.runner], by simp⟩
    · refine .inl ?_
      rw [System.runner, List.getElem?_eq_none (by simp; omega), List.getElem?_eq_none (by omega)]
  | call i =>
    simp only [next]
    split
    · next runner here =>
      have fine := undisturbed runner here
      split
      next call idle listed =>
        have free := Runner.not_owes idle
        have stands := inv.runners i runner here
        unfold issue
        split
        next e refused =>
          have after := inv.put here free sys.store (some { runner with
            results := runner.results ++ [.error e] }) (fun _ _ => rfl) (by
              intro runner' same
              cases same
              refine ⟨⟨fun ok => ?_, ?_⟩, Runner.not_owes idle⟩
              · have failed := ok (.error e) (by simp)
                cases failed
              · intro act running
                rw [idle] at running
                cases running)
          rw [stays_same] at after
          exact ⟨m, after⟩
        · have after := inv.put here free sys.store (some { runner with
            rest := some (replaceCall ctx cell call.1 call.2) }) (fun _ _ => rfl) (by
              intro runner' same
              cases same
              refine ⟨⟨stands.passed, ?_⟩, ?_⟩
              · intro act running
                cases running
                exact ⟨stands.passed fine, call, listed, .look rfl⟩
              · rw [Runner.owes_iff _ rfl]
                exact fun unclear => unclear replaceCall_clear)
          rw [stays_same] at after
          exact ⟨m, after⟩
      · exact ⟨m, inv⟩
    · exact ⟨m, inv⟩
  | tick i input =>
    simp only [next]
    split
    next runner here =>
      split
      next act running => exact tick_inv lawful apart inv here running input undisturbed
      · exact ⟨m, inv⟩
    · exact ⟨m, inv⟩
  | crash i =>
    cases here : sys.runner i with
    | none =>
      refine ⟨m, inv.seat fun j => .inl ?_⟩
      by_cases same : j = i
      · subst same
        rw [here, List.getElem?_set]
        split
        · split <;> rfl
        · contradiction
      · rw [List.getElem?_set_ne (by omega)]
        rfl
    | some runner =>
      have after := inv.put here (undisturbed runner here) sys.store none (fun _ _ => rfl)
        (fun _ same => by cases same)
      rw [stays_same] at after
      exact ⟨m, after⟩

theorem Inv.start {store : Inner} (fresh : ∀ call ∈ calls, store.steps.get (ctx.workflowId, call.1) = none) :
    Inv ctx cell calls (System.start δ store) 0 where
  rows k call listed := by simp [System.start, fresh call (List.mem_of_getElem? listed)]
  runners i runner found := by simp [System.start, System.runner] at found
  applied := .inl ⟨rfl, fun i runner found => by simp [System.start, System.runner] at found⟩
  shown k same := by cases same

/-- What is recorded was replaced once, and only the next call can stand above it. -/
theorem Inv.forward (inv : Inv ctx cell calls sys m) : Forward ctx cell calls sys where
  shown k same := (inv.shown k same).2
  later number call listed recorded k same := by
    have passed := (inv.rows number call listed).mp recorded
    obtain ⟨last, -⟩ := inv.shown k same
    rcases inv.applied with ⟨done, -⟩ | ⟨done, -⟩
    · rw [done, List.getLast?_range] at last
      split at last <;> grind
    · rw [done, List.getLast?_range] at last
      split at last <;> grind
  once number call listed recorded := by
    have passed := (inv.rows number call listed).mp recorded
    rcases inv.applied with ⟨done, -⟩ | ⟨done, -⟩
    · rw [done, List.count_range, if_pos passed]
    · rw [done, List.count_range, if_pos (by omega)]

theorem run_forward (lawful : cell.Lawful ctx.lib) (apart : (calls.map (·.1)).Nodup) {store : Inner}
    (fresh : ∀ call ∈ calls, store.steps.get (ctx.workflowId, call.1) = none) {events : List (Event δ)}
    (permitted : Runs.Along (next ctx cell calls)
      (fun sys event => Allowed ctx calls sys event ∧ Undisturbed ctx cell calls sys event) events (System.start δ store)) :
    Forward ctx cell calls (run ctx cell calls events (System.start δ store)) := by
  obtain ⟨m, inv⟩ := Runs.invariant (I := fun sys => ∃ m, Inv ctx cell calls sys m) (next_inv lawful apart) permitted
    ⟨0, Inv.start fresh⟩
  exact inv.forward

end Inv

/-- The values a body puts under one key and the attributes it gives one row never go backwards, and each
recorded replacement was made once, in every run in which no execution is overtaken between its look at a
position and the record there. -/
theorem replacements_forward {δ : Type} (ctx : Context) (key target : String) (values : List (Int × Value))
    (replacements : List (Int × Option Columns)) (store : Inner) (events events' : List (Event δ))
    (apart : (values.map (·.1)).Nodup ∧ (replacements.map (·.1)).Nodup)
    (fresh : ∀ p ∈ values.map (·.1) ++ replacements.map (·.1), store.steps.get (ctx.workflowId, p) = none)
    (permitted : Runs.Along (next ctx (event ctx.workflowId key) values) (fun sys event => Allowed ctx values sys event ∧
      Undisturbed ctx (Overwrites.event ctx.workflowId key) values sys event) events (System.start δ store))
    (permitted' : Runs.Along (next ctx (attributes target) replacements) (fun sys event =>
      Allowed ctx replacements sys event ∧ Undisturbed ctx (attributes target) replacements sys event) events'
      (System.start δ store)) :
    Forward ctx (event ctx.workflowId key) values
        (run ctx (event ctx.workflowId key) values events (System.start δ store)) ∧
      Forward ctx (attributes target) replacements
        (run ctx (attributes target) replacements events' (System.start δ store)) := by
  have free : ∀ {p : Int}, p ∈ values.map (·.1) ∨ p ∈ replacements.map (·.1) →
      store.steps.get (ctx.workflowId, p) = none := fun listed => fresh _ (List.mem_append.mpr listed)
  exact ⟨run_forward (event_lawful ctx.lib ctx.workflowId key) apart.1
      (fun call listed => free (.inl (List.mem_map_of_mem listed))) permitted,
    run_forward (attributes_lawful ctx.lib target) apart.2
      (fun call listed => free (.inr (List.mem_map_of_mem listed))) permitted'⟩

def created :
    Inner := step Context.plain.lib Inner.new (0, .insertWorkflowStatus (.new 0 "w" "job" .null .pending "e1" "v1"))

def twice : List (Int × Value) := [(0, .bool false), (1, .bool true)]

def twiceAttributes : List (Int × Option Columns) := [(0, some [("k", .bool false)]), (1, some [("k", .bool true)])]

/-- A call that is made and run to its end, by as many asks. -/
def whole (i asks : Nat) : List (Event Unit) := .call i :: List.replicate asks (.tick i {})

/-- An execution makes both calls, and one that starts later is served its records. -/
def replayed : List (Event Unit) := .start :: whole 0 5 ++ whole 0 5 ++ .crash 0 :: .start :: whole 1 2 ++ whole 1 2

theorem replacements_forward_replayed :
    (run Context.plain (event "w" "k") twice replayed (System.start Unit created)).replaced = [0, 1] ∧
      Forward Context.plain (event "w" "k") twice
        (run Context.plain (event "w" "k") twice replayed (System.start Unit created)) ∧
      Forward Context.plain (attributes "w") twiceAttributes
        (run Context.plain (attributes "w") twiceAttributes replayed (System.start Unit created)) :=
  ⟨by decide, replacements_forward Context.plain "k" "w" twice twiceAttributes created replayed replayed (by decide)
    (by decide) (by decide) (by decide)⟩

/-- One execution is held up behind its look at the first position while another makes both calls. -/
def overtaken : List (Event Unit) := .start :: .start :: whole 0 2 ++ whole 1 5 ++ whole 1 5 ++ [.tick 0 {}]

theorem overtaken_goes_back :
    ¬ Forward Context.plain (event "w" "k") twice
        (run Context.plain (event "w" "k") twice overtaken (System.start Unit created)) ∧
      ¬ Forward Context.plain (attributes "w") twiceAttributes
        (run Context.plain (attributes "w") twiceAttributes overtaken (System.start Unit created)) := by
  refine ⟨fun forward => ?_, fun forward => ?_⟩
  · have later := forward.later 1 (1, .bool true) rfl (by decide) 0 (by decide)
    cases later
  · have later := forward.later 1 (1, some [("k", .bool true)]) rfl (by decide) 0 (by decide)
    cases later

end Durare.Overwrites

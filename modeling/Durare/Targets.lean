import Durare.Quiet

/-! Whose target a `debounce` call gets: its own debouncer's, if every collector it finds was enqueued
for the same one. -/
namespace Durare.Debounce

/-- The options a debouncer's target is to run with. Its id is the debouncer's to set, and it neither waits
nor is deduplicated. -/
def Debouncer.own (d : Debouncer) (targetId : String) : WorkflowOptions :=
  { d.options with workflowId := some targetId, dedupId := none, dedupPolicy := .reject, delay := none }

structure SameRun (a b : WorkflowOptions) : Prop where
  row : ∀ (rt : Runtime) now created id name input parent auth,
    rt.buildRun now created id name input a parent auth = rt.buildRun now created id name input b parent auth
  auth : ∀ ctx : Context, ctx.childAuth a = ctx.childAuth b

/-- The options that a collector has no place for are not set. -/
def Plain (o : WorkflowOptions) : Prop := o.attributes = none ∧ o.configName = none ∧ o.className = none

/-- Through an unsigned number and back. -/
theorem asMillis_back (span : Duration) :
    Duration.asMillis ((span.asMillis % 2 ^ 64).toNat * 1000000) = span.asMillis := by
  have whole : (span.asMillis % 2 ^ 64).toNat * 1000000 / 1000000 = (span.asMillis % 2 ^ 64).toNat :=
    Nat.mul_div_cancel _ (by decide)
  have back : (((span.asMillis % 2 ^ 64).toNat : Nat) : Int) = span.asMillis % ((2 ^ 64 : Nat) : Int) :=
    Int.toNat_of_nonneg (Int.emod_nonneg _ (by decide))
  rw [Duration.asMillis, whole, back]
  unfold asI64 Duration.asMillis asI64
  rw [Int.emod_bmod, Int.bmod_bmod]

/-- A row keeps the whole milliseconds of a timeout. -/
theorem buildRun_timeout (rt : Runtime) (now created : DateTime) (id name : String) (input : Value)
    (opts : WorkflowOptions)
    (parent : Option String) (auth : AuthContext) {timeout timeout' : Option Duration}
    (same : timeout.map Duration.asMillis = timeout'.map Duration.asMillis) :
    rt.buildRun now created id name input { opts with timeout := timeout } parent auth =
      rt.buildRun now created id name input { opts with timeout := timeout' } parent auth := by
  simp only [Runtime.buildRun, same]
  rfl

/-- What the collector carries of a debouncer's options makes the row its own would make. -/
theorem carried_same (d : Debouncer) (plain : Plain d.options) (targetId : String) :
    SameRun ((TargetOptions.fromOptions d.options).intoOptions targetId) (d.own targetId) := by
  obtain ⟨attributes, config, klass⟩ := plain
  have carried : (TargetOptions.fromOptions d.options).intoOptions targetId =
      { d.own targetId with timeout := ((TargetOptions.fromOptions d.options).intoOptions targetId).timeout } := by
    simp only [TargetOptions.intoOptions, TargetOptions.fromOptions, Debouncer.own, attributes, config, klass]
  have timeout : ((TargetOptions.fromOptions d.options).intoOptions targetId).timeout.map Duration.asMillis =
      d.options.timeout.map Duration.asMillis := by
    simp only [TargetOptions.intoOptions, TargetOptions.fromOptions]
    cases d.options.timeout with
    | none => rfl
    | some span => simp only [Option.map_some, asMillis_back]
  constructor
  · intro rt now created id name input parent auth
    rw [carried, buildRun_timeout rt now created id name input (d.own targetId) parent auth timeout]
    rfl
  · intro ctx
    rfl

def State.asks (s : State) : List Ask := s.producers.map (·.ask)

/-- The id a call got names a run of its own target, with its own options, and with an input given to a
debouncer of that target. -/
def RunsOwn (s : State) : Prop :=
  ∀ p ∈ s.producers, ∀ targetId, p.standing = .answered (.ok targetId) →
    (∃ c ∈ s.collectors, c.input.targetId = targetId) ∧
    ∀ c ∈ s.collectors, c.input.targetId = targetId → c.input.targetName = p.ask.debouncer.target ∧
      ∀ launch ∈ c.launches, launch.name = p.ask.debouncer.target ∧ SameRun launch.opts (p.ask.debouncer.own targetId) ∧
        ∃ ask ∈ s.asks, ask.debouncer.target = p.ask.debouncer.target ∧ launch.input = ask.input

/-- The collector was enqueued for the call's target with the call's options. -/
def Alike (ask : Ask) (c : Collector) : Prop :=
  c.ask.debouncer.target = ask.debouncer.target ∧
    TargetOptions.fromOptions c.ask.debouncer.options = .fromOptions ask.debouncer.options

/-- A call that finds a collector finds one of its own kind; and no debouncer has options that are not carried. -/
def Meets (s : State) : Event → Prop
  | .ask ask => Plain ask.debouncer.options
  | .produce i _ _ => ∀ p ∈ s.producers[i]?, p.standing = .looking →
      ∀ j ∈ s.holder p.ask.key, ∀ c ∈ s.collectors[j]?, Alike p.ask c
  | _ => True

instance (o : WorkflowOptions) : Decidable (Plain o) := inferInstanceAs (Decidable (_ ∧ _ ∧ _))

instance (ask : Ask) (c : Collector) : Decidable (Alike ask c) := inferInstanceAs (Decidable (_ ∧ _))

instance (s : State) : ∀ event, Decidable (Meets s event)
  | .ask ask => inferInstanceAs (Decidable (Plain ask.debouncer.options))
  | .produce i _ _ => inferInstanceAs (Decidable (∀ p ∈ s.producers[i]?, p.standing = .looking →
      ∀ j ∈ s.holder p.ask.key, ∀ c ∈ s.collectors[j]?, Alike p.ask c))
  | .pass _ | .dispatch _ | .advance _ | .crash _ | .recover _ _ => inferInstanceAs (Decidable True)

def Standing.Own (s : State) (ask : Ask) : Standing → Prop
  | .reading j => ∃ c, s.collectors[j]? = some c ∧ Alike ask c
  | .sending j targetId | .awaiting j targetId _ => ∃ c, s.collectors[j]? = some c ∧ c.input.targetId = targetId ∧ Alike ask c
  | .answered (.ok targetId) => ∃ (j : Nat) (c : Collector), s.collectors[j]? = some c ∧ c.input.targetId = targetId ∧ Alike ask c
  | _ => True

structure OwnKind (s : State) : Prop where
  plain : ∀ ask ∈ s.asks, Plain ask.debouncer.options
  known : ∀ c ∈ s.collectors, c.ask ∈ s.asks
  letters : ∀ c ∈ s.collectors, ∀ letter ∈ c.letters,
    letter.ask ∈ s.asks ∧ letter.ask.debouncer.target = c.ask.debouncer.target
  standing : ∀ p ∈ s.producers, p.standing.Own s p.ask

/-- A call's standing is not touched by the steps of others. -/
theorem Standing.Own.next {uuid : Nat → String} {s : State} (event : Event) {ask : Ask} {standing : Standing}
    (own : standing.Own s ask) : standing.Own (next uuid s event) ask := by
  have alike {c c' : Collector} (same : c'.ask = c.ask) (alike : Alike ask c) : Alike ask c' := by
    rw [Alike, same]
    exact alike
  cases standing with
  | reading j =>
    obtain ⟨c, found, kind⟩ := own
    obtain ⟨c', found', same, -⟩ := next_at event found
    exact ⟨c', found', alike same kind⟩
  | sending j targetId =>
    obtain ⟨c, found, named, kind⟩ := own
    obtain ⟨c', found', same, input⟩ := next_at event found
    exact ⟨c', found', input ▸ named, alike same kind⟩
  | awaiting j targetId messageId =>
    obtain ⟨c, found, named, kind⟩ := own
    obtain ⟨c', found', same, input⟩ := next_at event found
    exact ⟨c', found', input ▸ named, alike same kind⟩
  | answered result =>
    cases result with
    | error e => trivial
    | ok targetId =>
      obtain ⟨j, c, found, named, kind⟩ := own
      obtain ⟨c', found', same, input⟩ := next_at event found
      exact ⟨j, c', found', input ▸ named, alike same kind⟩
  | _ => trivial

/-- A call's own step finds collectors of its kind only. -/
theorem produce_own {uuid : Nat → String} {reply : Scheduler.Reply} {expired : Bool} {p : Producer} {s : State}
    (own : p.standing.Own s p.ask) (alike : p.standing = .looking → ∀ j, s.holder p.ask.key = some j →
      ∀ c, s.collectors[j]? = some c → Alike p.ask c) :
    (produce uuid reply expired p s).1.standing.Own (produce uuid reply expired p s).2 p.ask := by
  obtain ⟨ask, standing⟩ := p
  cases standing with
  | enqueuing =>
    have holder : ({ s with drawn := s.drawn + 1 } : State).holder ask.key = s.holder ask.key := rfl
    cases held : s.holder ask.key with
    | some existing => cases reply <;> (simp only [produce, holder, held]; exact trivial)
    | none =>
      cases reply with
      | delivered =>
        simp only [produce, holder, held]
        exact ⟨s.collectors.length, enqueued ask (uuid s.drawn), List.getElem?_concat_length, rfl, rfl, rfl⟩
      | failed e => exact trivial
      | lost e =>
        simp only [produce, holder, held]
        exact trivial
  | looking =>
    cases held : s.holder ask.key with
    | none => cases reply <;> (simp only [produce, held]; exact trivial)
    | some j =>
      cases reply with
      | delivered =>
        simp only [produce, held]
        obtain ⟨bound, -⟩ := List.findIdx?_eq_some_iff_getElem.mp held
        have found := List.getElem?_eq_getElem bound
        exact ⟨_, found, alike rfl j held _ found⟩
      | _ => exact trivial
  | reading j =>
    obtain ⟨c, found, kind⟩ := own
    cases reply with
    | delivered =>
      simp only [produce, found]
      exact ⟨c, found, rfl, kind⟩
    | _ => exact trivial
  | sending j targetId =>
    obtain ⟨c, found, named, kind⟩ := own
    cases reply with
    | delivered =>
      refine ⟨c.mailed ask (uuid s.drawn), ?_, named, kind⟩
      simp only [produce, List.getElem?_modify, found, if_true, Option.map_eq_map, Option.map_some]
      rfl
    | _ => exact trivial
  | awaiting j targetId messageId =>
    cases reply with
    | delivered =>
      simp only [produce]
      split
      · exact ⟨j, own⟩
      · split
        · exact trivial
        · exact own
    | _ => exact trivial
  | answered result => exact own

theorem next_asks (uuid : Nat → String) (s : State) (event : Event) :
    (next uuid s event).asks = s.asks ∨ ∃ ask, event = .ask ask ∧ (next uuid s event).asks = s.asks ++ [ask] := by
  cases event with
  | pass span =>
    simp only [next]
    split <;> exact .inl rfl
  | ask ask => exact .inr ⟨ask, rfl, by simp [next, State.asks]⟩
  | produce i reply expired =>
    simp only [next]
    cases found : s.producers[i]? with
    | none => exact .inl rfl
    | some p =>
      obtain ⟨ask, -, producers, -⟩ := produce_produced uuid reply expired p s
      refine .inl ?_
      simp only [State.asks, producers]
      apply List.ext_getElem?
      intro j
      rw [List.getElem?_map, List.getElem?_map, List.getElem?_set]
      by_cases here : i = j
      · subst here
        obtain ⟨bound, same⟩ := List.getElem?_eq_some_iff.mp found
        simp [bound, ask, same]
      · simp [here]
  | _ => exact .inl rfl

theorem next_kind {uuid : Nat → String} {s : State} {event : Event} (meets : Meets s event) (kept : OwnKind s) :
    OwnKind (next uuid s event) := by
  have more : ∀ ask ∈ s.asks, ask ∈ (next uuid s event).asks := by
    intro ask member
    rcases next_asks uuid s event with same | ⟨_, -, grown⟩
    · exact same ▸ member
    · exact grown ▸ List.mem_append_left _ member
  -- Messages and collectors keep to the calls there have been.
  have kinds : ∀ c ∈ (next uuid s event).collectors, c.ask ∈ s.asks ∧ ∀ letter ∈ c.letters,
      letter.ask ∈ s.asks ∧ letter.ask.debouncer.target = c.ask.debouncer.target := by
    have asks {i : Nat} {p : Producer} (found : s.producers[i]? = some p) : p.ask ∈ s.asks :=
      List.mem_map.mpr ⟨p, List.mem_of_getElem? found, rfl⟩
    refine next_collectors (P := fun _ c => c.ask ∈ s.asks ∧ ∀ letter ∈ c.letters,
      letter.ask ∈ s.asks ∧ letter.ask.debouncer.target = c.ask.debouncer.target) (fun kept _ => kept) ?_ ?_ ?_ ?_
      (fun kept => kept) ?_ (fun c member => ⟨kept.known c member, kept.letters c member⟩)
    · intro i reply expired _ p found
      exact ⟨asks found, fun letter member => absurd member (by simp [enqueued, Collector.letters, Collector.taken,
        Collector.followed])⟩
    · rintro i reply expired _ p found existing targetId sends c here ⟨known, letters⟩
      refine ⟨known, fun letter member => ?_⟩
      have standing := kept.standing p (List.mem_of_getElem? found)
      rw [sends] at standing
      obtain ⟨c', here', -, target, -⟩ := standing
      cases here.symm.trans here'
      rcases List.mem_append.mp member with waiting | taken
      · rcases List.mem_append.mp waiting with old | new
        · exact letters letter (List.mem_append_left _ old)
        · rw [List.mem_singleton.mp new]
          exact ⟨asks found, target.symm⟩
      · exact letters letter (List.mem_append_right _ taken)
    · intro clock c own
      unfold Collector.dispatch
      split <;> exact own
    · intro c e own _
      rw [(advance_identity s.clock c e).1]
      exact ⟨own.1, fun letter member => own.2 letter (advance_letters s.clock c e letter member)⟩
    · intro clock c maxAttempts own
      unfold Collector.recover
      split <;> exact own
  refine ⟨fun ask member => ?_, fun c member => more _ (kinds c member).1, fun c member letter there => ?_,
    fun p member => ?_⟩
  · rcases next_asks uuid s event with same | ⟨new, rfl, grown⟩
    · exact kept.plain ask (same ▸ member)
    · rcases List.mem_append.mp (grown ▸ member) with old | added
      · exact kept.plain ask old
      · exact List.mem_singleton.mp added ▸ meets
  · obtain ⟨known, target⟩ := (kinds c member).2 letter there
    exact ⟨more _ known, target⟩
  · have old {p : Producer} (member : p ∈ s.producers) : p.standing.Own (next uuid s event) p.ask :=
      (kept.standing p member).next event
    cases event with
    | ask ask =>
      rcases List.mem_append.mp member with there | new
      · exact old there
      · exact List.mem_singleton.mp new ▸ trivial
    | produce i reply expired =>
      simp only [next] at member old ⊢
      cases found : s.producers[i]? with
      | none =>
        rw [found] at member old
        exact old member
      | some q =>
        rw [found] at member old
        rcases List.mem_or_eq_of_mem_set member with there | rfl
        · rw [(produce_produced uuid reply expired q s).producers] at there
          exact old there
        · have own := @produce_own uuid reply expired q s (kept.standing q (List.mem_of_getElem? found)) (meets q found)
          rw [(produce_produced uuid reply expired q s).ask]
          exact own
    | pass span =>
      simp only [next] at member old ⊢
      split at member <;> exact old member
    | _ => exact old member

/-- In every run whose calls find collectors of their own kind only, the ids they get are their own targets'. -/
theorem runs_own {uuid : Nat → String} (injective : Function.Injective uuid) (clock : DateTime) (era : 0 ≤ clock)
    (events : List Event) (meets : Runs.Along (next uuid) Meets events (start clock)) :
    RunsOwn (run uuid events (start clock)) := by
  have initial : OwnKind (start clock) := ⟨fun ask member => absurd member List.not_mem_nil,
    fun c member => absurd member List.not_mem_nil, fun c member => absurd member List.not_mem_nil,
    fun p member => absurd member List.not_mem_nil⟩
  have kept := Runs.invariant (fun s event meets kept => next_kind meets kept) meets initial
  have drawn := run_drawn injective clock events
  have all_sane := run_sane uuid clock era events
  intro p member targetId answered
  have standing := kept.standing p member
  rw [answered] at standing
  obtain ⟨j, mine, found, named, target, options⟩ := standing
  have there := List.mem_of_getElem? found
  refine ⟨⟨mine, there, named⟩, fun c held same => ?_⟩
  obtain rfl : c = mine := List.inj_on_of_nodup_map drawn.distinct held there (same.trans named.symm)
  have sane := all_sane c held
  obtain ⟨id, made⟩ := sane.input
  have name : c.input.targetName = p.ask.debouncer.target := by
    rw [made]
    exact target
  refine ⟨name, fun launch launched => ?_⟩
  obtain ⟨l, -, -, -, -, holds, target_name, input, opts⟩ := sane.launched launched
  refine ⟨target_name.trans name, ?_, ?_⟩
  · rw [opts, named, made]
    simp only [Ask.debouncerInput, options]
    exact carried_same p.ask.debouncer (kept.plain p.ask (List.mem_map.mpr ⟨p, member, rfl⟩)) targetId
  · rw [input, holds.current]
    cases latest : c.taken.getLast? with
    | none =>
      refine ⟨c.ask, kept.known c held, target, ?_⟩
      simp only [latestInput, latest, made, Ask.debouncerInput]
    | some t =>
      have taken := List.mem_of_getLast? latest
      obtain ⟨known, same_target⟩ := kept.letters c held t.letter (List.mem_append_right _ (List.mem_map.mpr ⟨t, taken, rfl⟩))
      obtain ⟨messageId, genuine⟩ := sane.taken t taken
      refine ⟨t.letter.ask, known, same_target.trans target, ?_⟩
      simp only [latestInput, latest, genuine, Ask.message]

theorem tally_injective : Function.Injective tally := by
  have length (n : Nat) : (tally n).length = n + 1 := by
    induction n with
    | zero => rfl
    | succ n ih =>
      have one : "u".length = 1 := rfl
      rw [tally, String.length_append, ih, one, Nat.add_comm]
  intro m n same
  have lengths := congrArg String.length same
  rw [length, length] at lengths
  omega

theorem waiting_own : ∃ c ∈ (run tally (waiting ++ [.produce 1 .delivered false]) (start 0)).collectors,
    c.launches.map (fun launch => (launch.name, launch.input)) = [("report", .bool true)] ∧
      RunsOwn (run tally (waiting ++ [.produce 1 .delivered false]) (start 0)) := by
  have seen : (run tally (waiting ++ [.produce 1 .delivered false]) (start 0)).collectors.map (fun c =>
      c.launches.map fun launch => (launch.name, launch.input)) = [[("report", .bool true)]] := rfl
  obtain ⟨c, only, launches⟩ := List.map_eq_singleton_iff.mp seen
  refine ⟨c, only ▸ List.mem_singleton.mpr rfl, launches, ?_⟩
  exact runs_own tally_injective 0 (Int.le_refl 0) _ (by decide)

/-- A call on another debouncer with the same key, while the collector of the first waits. -/
def crossing : List Event :=
  opening ++ .ask { tenSeconds (.bool true) with debouncer := { target := "invoice" } } ::
    List.replicate 4 (.produce 1 .delivered false) ++ collecting ++ [.produce 1 .delivered false]

/-- It is answered with the id of the first one's target. -/
theorem crossing_other : ¬ RunsOwn (run tally crossing (start 0)) := by
  intro own
  have seen : (run tally crossing (start 0)).producers[1]?.map (fun p => (p.ask.debouncer.target, p.standing)) =
      some ("invoice", .answered (.ok "u")) := rfl
  obtain ⟨p, found, facts⟩ := Option.map_eq_some_iff.mp seen
  simp only [Prod.mk.injEq] at facts
  have collectors : (run tally crossing (start 0)).collectors.map (fun c => (c.input.targetId, c.input.targetName)) =
      [("u", "report")] := rfl
  obtain ⟨c, only, names⟩ := List.map_eq_singleton_iff.mp collectors
  simp only [Prod.mk.injEq] at names
  have mine := ((own p (List.mem_of_getElem? found) "u" facts.2).2 c (only ▸ List.mem_singleton.mpr rfl) names.1).1
  rw [names.2, facts.1] at mine
  exact absurd mine (by decide)

end Durare.Debounce

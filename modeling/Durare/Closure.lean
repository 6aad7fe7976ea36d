import Mathlib.Data.List.Nodup
import Mathlib.Data.List.Perm.Subperm
import Mathlib.Logic.Relation

/-! What a list of seeds leads to, and three ways to collect it: a queue beside the nodes
seen so far, a list that grows while an index runs over it, and sweeps that look at a whole
frontier at once. Each of them marks what it has seen, so cycles do not keep it going. -/
namespace Durare.Closure

section Reached

variable {ι : Type} (children : ι → List ι)

def Leads (parent child : ι) : Prop := child ∈ children parent

/-- One child after another leads from a seed to the node. -/
def Reached (seeds : List ι) (x : ι) : Prop := ∃ s ∈ seeds, Relation.ReflTransGen (Leads children) s x

variable {children}

theorem Reached.seed {seeds : List ι} {x : ι} (member : x ∈ seeds) : Reached children seeds x := ⟨x, member, .refl⟩

theorem Reached.child {seeds : List ι} {p c : ι} (reached : Reached children seeds p) (child : c ∈ children p) :
    Reached children seeds c := by
  obtain ⟨s, member, path⟩ := reached
  exact ⟨s, member, path.tail child⟩

theorem Reached.through {seeds middle : List ι} (all : ∀ m ∈ middle, Reached children seeds m) {x : ι}
    (reached : Reached children middle x) : Reached children seeds x := by
  obtain ⟨m, member, path⟩ := reached
  obtain ⟨s, seed, first⟩ := all m member
  exact ⟨s, seed, first.trans path⟩

/-- A list closed under children that holds the seeds and nothing unreached holds just what is
reached. -/
theorem mem_iff_reached {seeds all : List ι} (start : ∀ s ∈ seeds, s ∈ all)
    (sound : ∀ x ∈ all, Reached children seeds x) (closed : ∀ p ∈ all, ∀ c ∈ children p, c ∈ all) (x : ι) :
    x ∈ all ↔ Reached children seeds x := by
  constructor
  · exact sound x
  · rintro ⟨s, member, path⟩
    induction path with
    | refl => exact start s member
    | tail _ child ih => exact closed _ ih _ child

end Reached

section Collect

variable {ι : Type} [DecidableEq ι]

def inserted (seen : List ι) : List ι → List ι
  | [] => []
  | c :: more => if c ∈ seen then inserted seen more else c :: inserted (seen ++ [c]) more

theorem mem_inserted (seen more : List ι) (x : ι) : x ∈ inserted seen more ↔ x ∈ more ∧ x ∉ seen := by
  induction more generalizing seen with
  | nil => simp [inserted]
  | cons c more ih =>
    rw [inserted]
    by_cases known : c ∈ seen
    · rw [if_pos known, ih]
      by_cases same : x = c
      · subst same; simp [known]
      · simp [same]
    · rw [if_neg known, List.mem_cons, ih]
      by_cases same : x = c
      · subst same; simp [known]
      · simp [same]

theorem nodup_inserted (seen more : List ι) : (inserted seen more).Nodup := by
  induction more generalizing seen with
  | nil => simp [inserted]
  | cons c more ih =>
    rw [inserted]
    split
    · exact ih seen
    · exact List.nodup_cons.mpr ⟨fun member => by simp [mem_inserted] at member, ih _⟩

theorem foldl_inserted (seen more : List ι) :
    more.foldl (fun seen c => if c ∈ seen then seen else seen ++ [c]) seen = seen ++ inserted seen more := by
  induction more generalizing seen with
  | nil => simp [inserted]
  | cons c more ih =>
    rw [List.foldl_cons, inserted]
    split
    · exact ih seen
    · rw [ih]
      simp

/-- What a collection has found beyond its seeds is one of the nodes. -/
structure Grown (seeds nodes seen : List ι) : Prop where
  grown : ∃ extra, seen = seeds ++ extra ∧ extra.Nodup ∧ ∀ x ∈ extra, x ∈ nodes

omit [DecidableEq ι] in
theorem Grown.start (seeds nodes : List ι) : Grown seeds nodes seeds := ⟨[], by simp⟩

omit [DecidableEq ι] in
theorem Grown.length_le {seeds nodes seen : List ι} (grown : Grown seeds nodes seen) :
    seen.length ≤ seeds.length + nodes.length := by
  obtain ⟨extra, rfl, distinct, inside⟩ := grown.grown
  have bound := (List.subperm_of_subset distinct inside).length_le
  rw [List.length_append]
  omega

theorem Grown.more {seeds nodes seen cs : List ι} (grown : Grown seeds nodes seen) (inside : ∀ c ∈ cs, c ∈ nodes) :
    Grown seeds nodes (seen ++ inserted seen cs) := by
  obtain ⟨extra, rfl, distinct, known⟩ := grown.grown
  refine ⟨extra ++ inserted (seeds ++ extra) cs, by simp, ?_, ?_⟩
  · refine List.nodup_append.mpr ⟨distinct, nodup_inserted _ _, ?_⟩
    rintro x old _ new rfl
    exact ((mem_inserted _ _ _).mp new).2 (by simp [old])
  · intro x member
    rcases List.mem_append.mp member with old | new
    · exact known x old
    · exact inside x ((mem_inserted _ _ _).mp new).1

variable (children : ι → List ι)

/-- What is collected is reached, and what is not pending has its children collected. -/
structure Collected (seeds pending seen : List ι) : Prop where
  start : ∀ s ∈ seeds, s ∈ seen
  sound : ∀ x ∈ seen, Reached children seeds x
  closed : ∀ p ∈ seen, p ∈ pending ∨ ∀ c ∈ children p, c ∈ seen

variable {children}

omit [DecidableEq ι] in
theorem Collected.init (seeds : List ι) : Collected children seeds seeds seeds where
  start _ member := member
  sound _ member := .seed member
  closed _ member := .inl member

omit [DecidableEq ι] in
theorem Collected.mem {seeds seen : List ι} (collected : Collected children seeds [] seen) (x : ι) :
    x ∈ seen ↔ Reached children seeds x :=
  mem_iff_reached collected.start collected.sound
    (fun p member => (collected.closed p member).resolve_left List.not_mem_nil) x

theorem Collected.look {seeds looked rest seen cs : List ι} (collected : Collected children seeds (looked ++ rest) seen)
    (known : ∀ p ∈ looked, p ∈ seen) (found : ∀ c, c ∈ cs ↔ ∃ p ∈ looked, c ∈ children p) :
    Collected children seeds (rest ++ inserted seen cs) (seen ++ inserted seen cs) where
  start s member := List.mem_append_left _ (collected.start s member)
  sound x member := by
    rcases List.mem_append.mp member with old | new
    · exact collected.sound x old
    · obtain ⟨p, pending, child⟩ := (found x).mp ((mem_inserted _ _ _).mp new).1
      exact (collected.sound p (known p pending)).child child
  closed p member := by
    rcases List.mem_append.mp member with old | new
    · rcases collected.closed p old with pending | closed
      · rcases List.mem_append.mp pending with here | later
        · refine .inr fun c child => ?_
          by_cases there : c ∈ seen
          · exact List.mem_append_left _ there
          · exact List.mem_append_right _ ((mem_inserted _ _ _).mpr ⟨(found c).mpr ⟨p, here, child⟩, there⟩)
        · exact .inl (List.mem_append_left _ later)
      · exact .inr fun c child => List.mem_append_left _ (closed c child)
    · exact .inl (List.mem_append_right _ new)

variable (children)

/-- A recursive query: one row at a time leaves the queue, and the rows that it brings in for
the first time are queued. -/
def recursive : Nat → List ι → List ι → Option (List ι)
  | _, [], seen => some seen
  | 0, _ :: _, _ => none
  | fuel + 1, p :: queue, seen =>
    recursive fuel (queue ++ inserted seen (children p)) (seen ++ inserted seen (children p))

def grow : Nat → Nat → List ι → List ι
  | 0, _, seen => seen
  | fuel + 1, i, seen =>
    match seen[i]? with
    | none => seen
    | some p => grow fuel (i + 1) (seen ++ inserted seen (children p))

/-- Sweeps over whole frontiers: `scan` lists the children of all of its nodes. -/
def sweep (scan : List ι → List ι) : Nat → List ι → List ι → Option (List ι)
  | _, [], seen => some seen
  | 0, _ :: _, _ => none
  | fuel + 1, p :: frontier, seen =>
    sweep scan fuel (inserted seen (scan (p :: frontier))) (seen ++ inserted seen (scan (p :: frontier)))

variable {children} {nodes : List ι} (inside : ∀ p, ∀ c ∈ children p, c ∈ nodes)

include inside

theorem recursive_ends {seeds : List ι} (fuel : Nat) (queue seen : List ι) (grown : Grown seeds nodes seen)
    (collected : Collected children seeds queue seen) (known : ∀ p ∈ queue, p ∈ seen)
    (enough : seeds.length + nodes.length + queue.length ≤ fuel + seen.length) :
    ∃ all, recursive children fuel queue seen = some all ∧ Collected children seeds [] all := by
  induction fuel generalizing queue seen with
  | zero =>
    cases queue with
    | nil => exact ⟨seen, rfl, collected⟩
    | cons p queue =>
      have bound := grown.length_le
      rw [List.length_cons] at enough
      omega
  | succ fuel ih =>
    cases queue with
    | nil => exact ⟨seen, rfl, collected⟩
    | cons p queue =>
      rw [recursive]
      apply ih
      · exact grown.more (inside p)
      · have looked : Collected children seeds ([p] ++ queue) seen := collected
        exact looked.look (fun q single => known q (List.mem_cons.mpr (.inl (List.mem_singleton.mp single))))
          fun c => by simp
      · intro q member
        rcases List.mem_append.mp member with old | new
        · exact List.mem_append_left _ (known q (by simp [old]))
        · exact List.mem_append_right _ new
      · rw [List.length_cons] at enough
        rw [List.length_append, List.length_append]
        omega

omit inside in
theorem recursive_more {fuel more : Nat} {queue seen all : List ι}
    (ends : recursive children fuel queue seen = some all) (le : fuel ≤ more) :
    recursive children more queue seen = some all := by
  induction fuel generalizing more queue seen with
  | zero =>
    cases queue with
    | nil => cases more <;> exact ends
    | cons p queue => cases ends
  | succ fuel ih =>
    obtain ⟨more, rfl⟩ : ∃ m, more = m + 1 := ⟨more - 1, by omega⟩
    cases queue with
    | nil => exact ends
    | cons p queue =>
      rw [recursive] at ends ⊢
      exact ih ends (by omega)

omit inside in
/-- The index runs over the list as the queue empties. -/
theorem grow_of_recursive (fuel i : Nat) (seen : List ι) {all : List ι}
    (ends : recursive children fuel (seen.drop i) seen = some all) : grow children fuel i seen = all := by
  induction fuel generalizing i seen with
  | zero =>
    cases rest : seen.drop i with
    | nil =>
      rw [rest] at ends
      exact Option.some_inj.mp ends
    | cons p queue =>
      rw [rest] at ends
      cases ends
  | succ fuel ih =>
    cases rest : seen.drop i with
    | nil =>
      rw [rest] at ends
      have past : seen[i]? = none := List.getElem?_eq_none (List.drop_eq_nil_iff.mp rest)
      rw [grow, past]
      exact Option.some_inj.mp ends
    | cons p queue =>
      rw [rest] at ends
      have here : seen[i]? = some p := by
        rw [← List.head?_drop, rest]
        rfl
      have later : (seen ++ inserted seen (children p)).drop (i + 1) = queue ++ inserted seen (children p) := by
        have within : i + 1 ≤ seen.length := (List.getElem?_eq_some_iff.mp here).1
        rw [List.drop_append_of_le_length within]
        have tail : seen.drop (i + 1) = queue := by
          rw [← List.drop_drop, rest]
          rfl
        rw [tail]
      rw [grow, here]
      apply ih
      rw [later]
      exact ends

theorem mem_recursive {seeds : List ι} {fuel : Nat} (enough : seeds.length + nodes.length ≤ fuel) :
    ∃ all, recursive children fuel seeds seeds = some all ∧ ∀ x, x ∈ all ↔ Reached children seeds x := by
  obtain ⟨all, ends, collected⟩ := recursive_ends inside fuel seeds seeds (.start seeds nodes) (.init seeds)
    (fun _ member => member) (by omega)
  exact ⟨all, ends, collected.mem⟩

theorem mem_grow {seeds : List ι} {fuel : Nat} (enough : seeds.length + nodes.length ≤ fuel) (x : ι) :
    x ∈ grow children fuel 0 seeds ↔ Reached children seeds x := by
  obtain ⟨all, ends, same⟩ := mem_recursive inside enough
  rw [grow_of_recursive fuel 0 seeds ends]
  exact same x

/-- With that much fuel the list has come to its end. -/
theorem grow_more {seeds : List ι} {fuel more : Nat} (enough : seeds.length + nodes.length ≤ fuel) (le : fuel ≤ more) :
    grow children more 0 seeds = grow children fuel 0 seeds := by
  obtain ⟨all, ends, -⟩ := mem_recursive inside enough
  rw [grow_of_recursive fuel 0 seeds ends, grow_of_recursive more 0 seeds (recursive_more ends le)]

theorem sweep_ends {scan : List ι → List ι}
    (scans : ∀ ps c, ps ≠ [] → (c ∈ scan ps ↔ ∃ p ∈ ps, c ∈ children p)) {seeds : List ι}
    (fuel : Nat) (frontier seen : List ι) (grown : Grown seeds nodes seen)
    (collected : Collected children seeds frontier seen) (known : ∀ p ∈ frontier, p ∈ seen)
    (enough : frontier = [] ∨ seeds.length + nodes.length < fuel + seen.length) :
    ∃ all, sweep scan fuel frontier seen = some all ∧ Collected children seeds [] all := by
  induction fuel generalizing frontier seen with
  | zero =>
    cases frontier with
    | nil => exact ⟨seen, rfl, collected⟩
    | cons p frontier =>
      have bound := grown.length_le
      have enough := enough.resolve_left (List.cons_ne_nil _ _)
      omega
  | succ fuel ih =>
    cases frontier with
    | nil => exact ⟨seen, rfl, collected⟩
    | cons p frontier =>
      have enough := enough.resolve_left (List.cons_ne_nil _ _)
      rw [sweep]
      apply ih
      · refine grown.more fun c member => ?_
        obtain ⟨q, -, child⟩ := (scans _ c (List.cons_ne_nil _ _)).mp member
        exact inside q c child
      · have looked : Collected children seeds ((p :: frontier) ++ []) seen := by simpa using collected
        simpa using looked.look known fun c => scans (p :: frontier) c (List.cons_ne_nil _ _)
      · exact fun q member => List.mem_append_right _ member
      · by_cases none : inserted seen (scan (p :: frontier)) = []
        · exact .inl none
        · have some_new := List.length_pos_iff.mpr none
          right
          rw [List.length_append]
          omega

/-- The sweeps come to an end after at most one for each node and two more, and later ones
change nothing. -/
theorem mem_sweep {scan : List ι → List ι}
    (scans : ∀ ps c, ps ≠ [] → (c ∈ scan ps ↔ ∃ p ∈ ps, c ∈ children p)) {seeds : List ι}
    {fuel : Nat} (enough : nodes.length < fuel) :
    ∃ all, sweep scan fuel seeds seeds = some all ∧ ∀ x, x ∈ all ↔ Reached children seeds x := by
  obtain ⟨all, ends, collected⟩ := sweep_ends inside scans fuel seeds seeds (.start seeds nodes) (.init seeds)
    (fun _ member => member) (.inr (by omega))
  exact ⟨all, ends, collected.mem⟩

end Collect

end Durare.Closure

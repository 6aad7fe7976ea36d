import Mathlib.Data.List.Nodup
import Mathlib.Data.List.Sort
import Mathlib.Data.Finite.Defs
import Mathlib.Logic.Relation
import Mathlib.Order.RelClasses
import Mathlib.Order.WellFoundedSet

/-! A walk below a node with a stack and without marks: the children of each node taken off
the stack are listed and pushed. It comes to an end where the tree below the node is well
founded, and there it lists every node below once. -/
namespace Durare.Descent

section Walk

variable {ι : Type} (children : ι → List ι)

/-- The top of the stack stands first; `fuel` bounds the nodes taken off it. -/
def walk : Nat → List ι → List ι → Option (List ι)
  | _, [], found => some found
  | 0, _ :: _, _ => none
  | fuel + 1, parent :: rest, found =>
    walk fuel ((children parent).reverse ++ rest) (found ++ children parent)

def Child (child parent : ι) : Prop := child ∈ children parent

/-- `Below x p`: one child after another leads from `p` down to `x`. -/
abbrev Below : ι → ι → Prop := Relation.TransGen (Child children)

variable {children}

theorem walk_more {fuel : Nat} {stack found all : List ι} (ends : walk children fuel stack found = some all)
    (extra : Nat) : walk children (fuel + extra) stack found = some all := by
  induction fuel generalizing stack found with
  | zero =>
    cases stack with
    | nil =>
      rw [walk] at ends
      cases extra <;> exact ends
    | cons => cases ends
  | succ fuel ih =>
    cases stack with
    | nil =>
      rw [walk] at ends
      rw [walk]
      exact ends
    | cons parent rest =>
      rw [Nat.add_right_comm, walk]
      exact ih ends

theorem walk_unique {fuel fuel' : Nat} {stack found all all' : List ι}
    (ends : walk children fuel stack found = some all) (ends' : walk children fuel' stack found = some all') :
    all = all' := by
  have more := walk_more ends fuel'
  rw [Nat.add_comm, walk_more ends' fuel] at more
  exact (Option.some_inj.mp more).symm

/-- A walk that ends has met nothing but well-founded trees. -/
theorem acc_of_walk {fuel : Nat} {stack found all : List ι} (ends : walk children fuel stack found = some all) :
    ∀ p ∈ stack, Acc (Child children) p := by
  induction fuel generalizing stack found with
  | zero =>
    cases stack with
    | nil => exact fun _ member => absurd member List.not_mem_nil
    | cons => cases ends
  | succ fuel ih =>
    cases stack with
    | nil => exact fun _ member => absurd member List.not_mem_nil
    | cons parent rest =>
      have deeper := ih ends
      intro p member
      rcases List.mem_cons.mp member with rfl | later
      · exact Acc.intro p fun child below => deeper child (by simp [show child ∈ children p from below])
      · exact deeper p (by simp [later])

/-- Taking these nodes off the stack lists what stands below them, in `spent` steps. -/
def Lists (children : ι → List ι) (nodes : List ι) (spent : Nat) (below : List ι) : Prop :=
  ∀ fuel rest found, walk children (fuel + spent) (nodes ++ rest) found = walk children fuel rest (found ++ below)

theorem Lists.none : Lists children [] 0 [] := by
  intro fuel rest found
  simp

theorem Lists.more {p : ι} {ps : List ι} {spent spent' : Nat} {below below' : List ι}
    (first : Lists children [p] spent below) (later : Lists children ps spent' below') :
    Lists children (p :: ps) (spent + spent') (below ++ below') := by
  intro fuel rest found
  have head := first (fuel + spent') (ps ++ rest) found
  have tail := later fuel rest (found ++ below)
  rw [show fuel + (spent + spent') = fuel + spent' + spent by omega]
  rw [List.singleton_append] at head
  rw [List.cons_append, head, tail, List.append_assoc]

theorem Lists.node {p : ι} {spent : Nat} {below : List ι} (under : Lists children (children p).reverse spent below) :
    Lists children [p] (spent + 1) (children p ++ below) := by
  intro fuel rest found
  rw [← Nat.add_assoc, List.singleton_append, walk, under, List.append_assoc]

theorem below_iff {x p : ι} : Below children x p ↔ x ∈ children p ∨ ∃ c ∈ children p, Below children x c := by
  constructor
  · intro below
    obtain ⟨c, reach, child⟩ := Relation.TransGen.tail'_iff.mp below
    rcases Relation.reflTransGen_iff_eq_or_transGen.mp reach with rfl | deeper
    · exact .inl child
    · exact .inr ⟨c, child, deeper⟩
  · rintro (child | ⟨c, child, deeper⟩)
    · exact .single child
    · exact deeper.tail child

theorem not_below_self {p : ι} (acc : Acc (Child children) p) : ¬ Below children p p := by
  have deeper := acc.transGen
  clear acc
  induction deeper with
  | intro p _ ih => exact fun cycle => ih p cycle cycle

structure Forest (children : ι → List ι) : Prop where
  nodup : ∀ p, (children p).Nodup
  parent : ∀ {x p p'}, x ∈ children p → x ∈ children p' → p = p'

/-- Two nodes above a third stand one above the other. -/
theorem Forest.comparable (forest : Forest children) {x a b : ι} (first : Below children x a)
    (second : Below children x b) : a = b ∨ Below children a b ∨ Below children b a := by
  induction first using Relation.TransGen.head_induction_on with
  | single child =>
    obtain ⟨p, child', reach⟩ := Relation.TransGen.head'_iff.mp second
    cases forest.parent child child'
    rcases Relation.reflTransGen_iff_eq_or_transGen.mp reach with rfl | higher
    · exact .inl rfl
    · exact .inr (.inl higher)
  | head child above ih =>
    obtain ⟨p, child', reach⟩ := Relation.TransGen.head'_iff.mp second
    cases forest.parent child child'
    rcases Relation.reflTransGen_iff_eq_or_transGen.mp reach with rfl | higher
    · exact .inr (.inr above)
    · exact ih higher

theorem Forest.not_below_sibling (forest : Forest children) {p a b : ι} (acc : Acc (Child children) p)
    (here : a ∈ children p) (there : b ∈ children p) : ¬ Below children a b := by
  intro below
  obtain ⟨p', child, reach⟩ := Relation.TransGen.head'_iff.mp below
  cases forest.parent here child
  rcases Relation.reflTransGen_iff_eq_or_transGen.mp reach with rfl | higher
  · exact not_below_self acc (.single there)
  · exact not_below_self acc (higher.tail there)

theorem Forest.apart (forest : Forest children) {p a b : ι} (acc : Acc (Child children) p) (here : a ∈ children p)
    (there : b ∈ children p) (distinct : a ≠ b) (x : ι) (first : Below children x a) : ¬ Below children x b := by
  intro second
  rcases forest.comparable first second with same | below | below
  · exact distinct same
  · exact forest.not_below_sibling acc here there below
  · exact forest.not_below_sibling acc there here below

structure Listed (children : ι → List ι) (nodes : List ι) (spent : Nat) (below : List ι) : Prop where
  lists : Lists children nodes spent below
  mem : ∀ x, x ∈ below ↔ ∃ p ∈ nodes, Below children x p
  nodup : Forest children → nodes.Pairwise (fun a b => ∀ x, Below children x a → ¬ Below children x b) → below.Nodup

theorem listed_all {nodes : List ι} (each : ∀ p ∈ nodes, ∃ spent below, Listed children [p] spent below) :
    ∃ spent below, Listed children nodes spent below := by
  induction nodes with
  | nil => exact ⟨0, [], Lists.none, by simp, by simp⟩
  | cons p ps ih =>
    obtain ⟨spent, below, first⟩ := each p (by simp)
    obtain ⟨spent', below', later⟩ := ih fun q member => each q (by simp [member])
    refine ⟨spent + spent', below ++ below', first.lists.more later.lists, ?_, ?_⟩
    · intro x
      simp [first.mem, later.mem]
    · intro forest pairwise
      obtain ⟨apart, rest⟩ := List.pairwise_cons.mp pairwise
      refine List.nodup_append.mpr ⟨first.nodup forest (by simp), later.nodup forest rest, ?_⟩
      rintro x here _ there rfl
      obtain ⟨q, single, above⟩ := (first.mem x).mp here
      cases List.mem_singleton.mp single
      obtain ⟨q, member, above'⟩ := (later.mem x).mp there
      exact apart q member x above above'

theorem listed_node {p : ι} (acc : Acc (Child children) p) : ∃ spent below, Listed children [p] spent below := by
  induction acc with
  | intro p under ih =>
    have root : Acc (Child children) p := .intro p under
    have all : ∃ spent below, Listed children (children p).reverse spent below :=
      listed_all fun q member => ih q (List.mem_reverse.mp member)
    obtain ⟨spent, below, listed⟩ := all
    refine ⟨spent + 1, children p ++ below, listed.lists.node, ?_, ?_⟩
    · intro x
      simp [listed.mem, below_iff (x := x) (p := p)]
    · intro forest _
      have distinct : (children p).reverse.Nodup := List.nodup_reverse.mpr (forest.nodup p)
      have apart := List.Pairwise.imp_of_mem (l := (children p).reverse)
        (S := fun a b => ∀ x, Below children x a → ¬ Below children x b)
        (fun here there different => forest.apart root (List.mem_reverse.mp here) (List.mem_reverse.mp there) different)
        distinct
      refine List.nodup_append.mpr ⟨forest.nodup p, listed.nodup forest apart, ?_⟩
      rintro x here _ there rfl
      obtain ⟨q, member, above⟩ := (listed.mem x).mp there
      exact forest.not_below_sibling root here (List.mem_reverse.mp member) above

section Root

variable {root : ι} {fuel : Nat} {ids : List ι}

theorem walk_ends (acc : Acc (Child children) root) : ∃ fuel below,
    walk children fuel [root] [root] = some (root :: below) ∧ Listed children [root] fuel below := by
  obtain ⟨spent, below, listed⟩ := listed_node acc
  refine ⟨spent, below, ?_, listed⟩
  have ends := listed.lists 0 [] [root]
  rw [Nat.zero_add] at ends
  exact ends

theorem walk_ends_iff : (∃ fuel ids, walk children fuel [root] [root] = some ids) ↔ Acc (Child children) root := by
  constructor
  · rintro ⟨fuel, ids, ends⟩
    exact acc_of_walk ends root (by simp)
  · intro acc
    obtain ⟨fuel, below, ends, -⟩ := walk_ends acc
    exact ⟨fuel, _, ends⟩

theorem walk_listed (ends : walk children fuel [root] [root] = some ids) :
    ∃ spent below, ids = root :: below ∧ Listed children [root] spent below := by
  obtain ⟨fuel', below, ends', listed⟩ := walk_ends (acc_of_walk ends root (by simp))
  exact ⟨fuel', below, walk_unique ends ends', listed⟩

theorem mem_walk (ends : walk children fuel [root] [root] = some ids) (x : ι) :
    x ∈ ids ↔ x = root ∨ Below children x root := by
  obtain ⟨spent, below, rfl, listed⟩ := walk_listed ends
  simp [listed.mem]

theorem nodup_walk (forest : Forest children) (ends : walk children fuel [root] [root] = some ids) : ids.Nodup := by
  have acc := acc_of_walk ends root (by simp)
  obtain ⟨spent, below, rfl, listed⟩ := walk_listed ends
  refine List.nodup_cons.mpr ⟨?_, listed.nodup forest (by simp)⟩
  intro member
  obtain ⟨q, single, cycle⟩ := (listed.mem root).mp member
  cases List.mem_singleton.mp single
  exact not_below_self acc cycle

end Root

/-- Only the children of the nodes it meets matter to a walk. -/
theorem walk_congr {children' : ι → List ι} {met : ι → Prop} (closed : ∀ p, met p → ∀ c ∈ children p, met c)
    (agree : ∀ p, met p → children' p = children p) (fuel : Nat) (stack found : List ι) (start : ∀ p ∈ stack, met p) :
    walk children' fuel stack found = walk children fuel stack found := by
  induction fuel generalizing stack found with
  | zero => cases stack <;> rfl
  | succ fuel ih =>
    cases stack with
    | nil => rfl
    | cons p rest =>
      have here := start p (by simp)
      rw [walk, walk, agree p here]
      apply ih
      intro q member
      rcases List.mem_append.mp member with child | later
      · exact closed p here q (List.mem_reverse.mp child)
      · exact start q (by simp [later])

/-- Among finitely many children a tree without cycles is well founded. -/
theorem acc_of_acyclic (finite : {x | ∃ p, x ∈ children p}.Finite) (acyclic : ∀ x, ¬ Below children x x) (p : ι) :
    Acc (Child children) p := by
  have strict : IsStrictOrder ι (Below children) :=
    { irrefl := acyclic, trans := fun _ _ _ => Relation.TransGen.trans }
  have founded := finite.wellFoundedOn (r := Below children)
  have inside : ∀ x : {x | ∃ p, x ∈ children p}, Acc (Child children) x.1 := by
    intro x
    induction founded.apply x with
    | intro x _ ih => exact .intro _ fun c child => ih ⟨c, x.1, child⟩ (.single child)
  exact .intro p fun c child => inside ⟨c, p, child⟩

/-- It is enough that no cycle leads through the node or what is below it. -/
theorem acc_of_uncycled {p : ι} (finite : {x | Below children x p}.Finite)
    (uncycled : ∀ x, x = p ∨ Below children x p → ¬ Below children x x) : Acc (Child children) p := by
  let inside (x y : ι) : Prop := Below children x y ∧ Below children y p
  have strict : IsStrictOrder ι inside :=
    { irrefl := fun x cycle => uncycled x (.inr cycle.2) cycle.1
      trans := fun _ _ _ first second => ⟨first.1.trans second.1, second.2⟩ }
  have founded := finite.wellFoundedOn (r := inside)
  have below : ∀ x : {x | Below children x p}, Acc (Child children) x.1 := by
    intro x
    induction founded.apply x with
    | intro x _ ih => exact .intro _ fun c child => ih ⟨c, .head child x.2⟩ ⟨.single child, x.2⟩
  exact .intro p fun c child => below ⟨c, .single child⟩

/-- A walk from a node ends exactly where no cycle leads through it or what is below it. -/
theorem acc_iff_uncycled {p : ι} (finite : {x | Below children x p}.Finite) : Acc (Child children) p ↔
    ∀ x, x = p ∨ Below children x p → ¬ Below children x x := by
  constructor
  · rintro acc x (rfl | below)
    · exact not_below_self acc
    · exact not_below_self (acc.inv_of_transGen below)
  · exact acc_of_uncycled finite

end Walk

end Durare.Descent

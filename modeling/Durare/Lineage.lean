import Durare.Descendants
import Durare.Reimport
import Durare.SqlExport

/-! When the export of a workflow with its children comes to an end, and that it then lists the whole family. -/
namespace Durare

/-- The export returns: the root first and then everyone below it, each of them once. -/
def ListsFamily (below : String → String → Prop) (answer : Nat → Option (Except Error (List ExportedWorkflow)))
    (root : String) : Prop :=
  ∃ fuel wfs rest, answer fuel = some (.ok wfs) ∧ wfs.map Memory.importId = root :: rest ∧ (root :: rest).Nodup ∧
    ∀ x, x ∈ rest ↔ below x root

/-- No workflow that is the root or below it is below itself. -/
def Uncycled (below : String → String → Prop) (root : String) : Prop :=
  ∀ x, x = root ∨ below x root → ¬ below x x

section Family

variable {children : String → List String} {root : String}
    {answer : Nat → Option (Except Error (List ExportedWorkflow))}

/-- An export that walks below its root, and lists what is stored, lists the family exactly when it ends. -/
theorem listsFamily_iff (stored : String → Prop) (all : List String → Except Error (List ExportedWorkflow))
    (forest : Descent.Forest children) (finite : {x | ∃ p, x ∈ children p}.Finite)
    (exports : ∀ fuel, answer fuel = (Descent.walk children fuel [root] [root]).map all)
    (listed : ∀ ids, (∀ id ∈ ids, stored id) → ∃ wfs, all ids = .ok wfs ∧ wfs.map Memory.importId = ids)
    (child_stored : ∀ p, ∀ x ∈ children p, stored x) (root_stored : stored root) :
    ListsFamily (Descent.Below children) answer root ↔ Uncycled (Descent.Below children) root := by
  have below_child {x : String} (below : Descent.Below children x root) : ∃ p, x ∈ children p := by
    obtain ⟨p, child, -⟩ := Relation.TransGen.head'_iff.mp below
    exact ⟨p, child⟩
  rw [Uncycled, ← Descent.acc_iff_uncycled (finite.subset fun x => below_child), ← Descent.walk_ends_iff]
  constructor
  · rintro ⟨fuel, wfs, rest, answered, -⟩
    rw [exports] at answered
    cases ends : Descent.walk children fuel [root] [root] with
    | none =>
      rw [ends] at answered
      cases answered
    | some ids => exact ⟨fuel, ids, ends⟩
  · rintro ⟨fuel, ids, ends⟩
    have members := Descent.mem_walk ends
    have distinct := Descent.nodup_walk forest ends
    have root_apart := Descent.not_below_self (Descent.acc_of_walk ends root List.mem_cons_self)
    obtain ⟨spent, rest, rfl, -⟩ := Descent.walk_listed ends
    have present : ∀ id ∈ root :: rest, stored id := by
      intro id member
      rcases (members id).mp member with rfl | below
      · exact root_stored
      · obtain ⟨p, child⟩ := below_child below
        exact child_stored p id child
    obtain ⟨wfs, done, named⟩ := listed _ present
    refine ⟨fuel, wfs, rest, ?_, named, distinct, fun x => ?_⟩
    · rw [exports, ends, Option.map_some, done]
    · have member := members x
      rw [List.mem_cons] at member
      constructor
      · intro here
        rcases member.mp (.inr here) with rfl | below
        · exact absurd here (List.nodup_cons.mp distinct).1
        · exact below
      · intro below
        rcases member.mpr (.inr below) with rfl | here
        · exact absurd below root_apart
        · exact here

end Family

namespace Memory

/-- One parent link after another leads from `x` up to `root`. -/
def Descendant (s : Inner) : String → String → Prop := Relation.TransGen fun child parent => ParentOf s parent child

theorem below_childIds {s : Inner} (keyed : Keyed s) : Descent.Below (childIds s) = Descendant s := by
  have same : Descent.Child (childIds s) = fun child parent => ParentOf s parent child := by
    funext child parent
    exact propext (mem_childIds keyed)
  rw [Descent.Below, same, Descendant]

theorem export_family_iff (lib : SerdeJson) {s : Inner} (keyed : Keyed s) {root : String}
    (stored : (s.workflows.get root).isSome) :
    ListsFamily (Descendant s) (fun fuel => (exportWorkflow lib s fuel root true).map (·.1)) root ↔
      Uncycled (Descendant s) root := by
  rw [← below_childIds keyed]
  refine listsFamily_iff (fun id => (s.workflows.get id).isSome) (exportAll lib s) (childIds_forest keyed)
    (childIds_finite keyed) (fun fuel => ?_) (fun ids present => ?_) (fun p x child => ?_) stored
  · rw [exportWorkflow.eq_def, exportIds, if_pos rfl, Option.map_map]
    rfl
  · exact ⟨_, exportAll_eq present, importIds_exported keyed present⟩
  · obtain ⟨w, here, -⟩ := (mem_childIds keyed).mp child
    rw [here]
    rfl

end Memory

namespace Sqlite

/-- The row of `child` names `parent`. -/
def ParentOf (db : Db) (parent child : String) : Prop :=
  ∃ r, db.workflowStatus.get child = some r ∧ r.parentWorkflowId = some parent

def Descendant (db : Db) : String → String → Prop := Relation.TransGen fun child parent => ParentOf db parent child

theorem below_childIds (db : Db) : Descent.Below (childIds db) = Descendant db := by
  have same : Descent.Child (childIds db) = fun child parent => ParentOf db parent child := by
    funext child parent
    exact propext mem_childIds
  rw [Descent.Below, same, Descendant]

theorem importIds_exported {db : Db} {ids : List String} (stored : ∀ id ∈ ids, (db.workflowStatus.get id).isSome) :
    (ids.filterMap (exported db)).map Memory.importId = ids := by
  induction ids with
  | nil => rfl
  | cons id ids ih =>
    obtain ⟨r, here⟩ := Option.isSome_iff_exists.mp (stored id List.mem_cons_self)
    have one : exported db id = some (exportOne db id r) := by rw [exported, here, Option.map_some]
    have named : Memory.importId (exportOne db id r) = id := rfl
    rw [List.filterMap_cons_some one, List.map_cons, named, ih fun other member =>
      stored other (List.mem_cons_of_mem _ member)]

theorem export_family_iff (db : Db) {root : String} (stored : (db.workflowStatus.get root).isSome) :
    ListsFamily (Descendant db) (fun fuel => (exportWorkflow db fuel root true).map (·.1)) root ↔
      Uncycled (Descendant db) root := by
  rw [← below_childIds db]
  refine listsFamily_iff (fun id => (db.workflowStatus.get id).isSome) (exportAll db) (childIds_forest db)
    (childIds_finite db) (fun fuel => ?_) (fun ids present => ?_) (fun p x child => ?_) stored
  · rw [exportWorkflow.eq_def, exportIds, if_pos rfl, Option.map_map]
    rfl
  · exact ⟨_, exportAll_eq present, importIds_exported present⟩
  · obtain ⟨r, here, -⟩ := mem_childIds.mp child
    rw [here]
    rfl

end Sqlite

/-- On both backends, in every state reached: the export of a stored workflow with its children returns its
family exactly when no cycle of parent links leads through it or a descendant. -/
theorem families_exported_iff (lib : SerdeJson) :
    (∀ events root, let s := Memory.run lib events Memory.Inner.new
      (s.workflows.get root).isSome →
        (ListsFamily (Memory.Descendant s) (fun fuel => (Memory.exportWorkflow lib s fuel root true).map (·.1)) root ↔
          Uncycled (Memory.Descendant s) root)) ∧
    ∀ (db : Sqlite.Db) root, (db.workflowStatus.get root).isSome →
      (ListsFamily (Sqlite.Descendant db) (fun fuel => (Sqlite.exportWorkflow db fuel root true).map (·.1)) root ↔
        Uncycled (Sqlite.Descendant db) root) :=
  ⟨fun events _ stored => Memory.export_family_iff lib (Memory.Reachable.keyed ⟨events, rfl⟩) stored,
    fun db _ stored => Sqlite.export_family_iff db stored⟩

namespace Memory

def adopted (id parent : String) : WorkflowStatus :=
  { WorkflowStatus.new 0 id "main" .null .pending "e" "v" with parentWorkflowId := some parent }

def pair : List (DateTime × Call) :=
  [(0, .insertWorkflowStatus (.new 0 "p" "main" .null .pending "e" "v")),
    (0, .insertChildWorkflow (adopted "c" "p") "p" 0 false)]

theorem pair_rows : (run (.reading []) pair Inner.new).workflows.toList =
    [("c", adopted "c" "p"), ("p", .new 0 "p" "main" .null .pending "e" "v")] := rfl

theorem pair_links {x y : String} (link : ParentOf (run (.reading []) pair Inner.new) y x) : x = "c" ∧ y = "p" := by
  obtain ⟨w, stored, under⟩ := link
  have member := (Table.mem_toList _ _ _).mpr stored
  rw [pair_rows] at member
  simp only [List.mem_cons, Prod.mk.injEq, List.not_mem_nil, or_false] at member
  rcases member with ⟨rfl, rfl⟩ | ⟨rfl, rfl⟩
  · exact ⟨rfl, (Option.some_inj.mp under).symm⟩
  · cases under

theorem pair_uncycled : Uncycled (Descendant (run (.reading []) pair Inner.new)) "p" := by
  have links : ∀ {x y}, Descendant (run (.reading []) pair Inner.new) x y → x = "c" ∧ y = "p" := by
    intro x y below
    induction below with
    | single link => exact pair_links link
    | tail _ link ih => exact absurd (ih.2.symm.trans (pair_links link).1) (by decide)
  intro x _ cycle
  obtain ⟨here, there⟩ := links cycle
  exact absurd (here.symm.trans there) (by decide)

theorem pair_exported : ListsFamily (Descendant (run (.reading []) pair Inner.new))
    (fun fuel => (exportWorkflow (.reading []) (run (.reading []) pair Inner.new) fuel "p" true).map (·.1)) "p" :=
  ((families_exported_iff (.reading [])).1 pair "p" rfl).mpr pair_uncycled

/-- The parent is deleted, and the child that is left starts it again as its own child. -/
def looped : List (DateTime × Call) :=
  pair ++ [(0, .deleteWorkflows ["p"] false), (0, .insertChildWorkflow (adopted "p" "c") "c" 0 false)]

theorem looped_never_exported : let s := run (.reading []) looped Inner.new
    (s.workflows.get "p").isSome ∧ (∀ fuel, exportWorkflow (.reading []) s fuel "p" true = none) ∧
      ¬ ListsFamily (Descendant s) (fun fuel => (exportWorkflow (.reading []) s fuel "p" true).map (·.1)) "p" := by
  intro s
  have keyed : Keyed s := Reachable.keyed ⟨looped, rfl⟩
  have up : ParentOf s "p" "c" := ⟨_, rfl, rfl⟩
  have down : ParentOf s "c" "p" := ⟨_, rfl, rfl⟩
  have cycle : Descent.Below (childIds s) "p" "p" := by
    rw [below_childIds keyed]
    exact .head down (.single up)
  have endless (fuel : Nat) : exportWorkflow (.reading []) s fuel "p" true = none := by
    rw [exportWorkflow.eq_def, exportIds, if_pos rfl, Option.map_eq_none_iff]
    cases ends : Descent.walk (childIds s) fuel ["p"] ["p"] with
    | none => rfl
    | some ids => exact absurd cycle (Descent.not_below_self (Descent.acc_of_walk ends "p" List.mem_cons_self))
  refine ⟨rfl, endless, ?_⟩
  rintro ⟨fuel, wfs, rest, answered, -⟩
  dsimp only at answered
  rw [endless] at answered
  cases answered

end Memory

end Durare

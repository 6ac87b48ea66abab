import Mathlib.Algebra.GroupWithZero.Nat
import Mathlib.Algebra.BigOperators.Group.List.Basic
import Mathlib.Data.List.Count
import Mathlib.Data.List.Nodup
import Mathlib.Data.List.Pairwise
import Mathlib.Data.List.Perm.Basic
import Mathlib.Logic.Relation

namespace Univiz.Data

/-! Ordered trees, and trees that unfold a graph.

A tree unfolds a graph when the children of each node are the successors of its key.  The keys
of a forest that does so are its roots and the successors of its keys, with their
multiplicities, so they are distinct just if the graph below the roots is a forest itself. -/

inductive Rose (α : Type) where
  | node (label : α) (children : List (Rose α))

namespace Rose

variable {α κ : Type}

def label : Rose α → α
  | node label _ => label

def children : Rose α → List (Rose α)
  | node _ children => children

@[simp] theorem label_node (label : α) (children : List (Rose α)) :
    (node label children).label = label := rfl

@[simp] theorem children_node (label : α) (children : List (Rose α)) :
    (node label children).children = children := rfl

mutual

/-- The nodes of a tree, each with what is below it. -/
def nodes : Rose α → List (Rose α)
  | .node label children => .node label children :: nodesAll children

def nodesAll : List (Rose α) → List (Rose α)
  | [] => []
  | tree :: rest => nodes tree ++ nodesAll rest

end

variable {tree node : Rose α} {forest other : List (Rose α)}

theorem nodes_eq (tree : Rose α) : nodes tree = tree :: nodesAll tree.children := by
  cases tree
  rfl

theorem nodesAll_singleton (tree : Rose α) : nodesAll [tree] = nodes tree := by
  rw [nodesAll, nodesAll, List.append_nil]

theorem nodesAll_eq_flatMap (forest : List (Rose α)) : nodesAll forest = forest.flatMap nodes := by
  induction forest with
  | nil => rfl
  | cons tree rest ih => rw [nodesAll, ih, List.flatMap_cons]

theorem nodesAll_append : nodesAll (forest ++ other) = nodesAll forest ++ nodesAll other := by
  simp only [nodesAll_eq_flatMap, List.flatMap_append]

theorem nodesAll_perm (perm : forest.Perm other) : (nodesAll forest).Perm (nodesAll other) := by
  rw [nodesAll_eq_flatMap, nodesAll_eq_flatMap]
  exact perm.flatMap_right nodes

theorem mem_nodesAll : node ∈ nodesAll forest ↔ ∃ tree ∈ forest, node ∈ nodes tree := by
  rw [nodesAll_eq_flatMap, List.mem_flatMap]

theorem mem_nodesAll_of_mem (member : tree ∈ forest) : tree ∈ nodesAll forest := by
  refine mem_nodesAll.mpr ⟨tree, member, ?_⟩
  rw [nodes_eq]
  exact List.mem_cons_self

mutual

theorem nodes_perm_children (tree : Rose α) :
    (nodes tree).Perm (tree :: (nodes tree).flatMap children) := by
  cases tree with
  | node label kids =>
      rw [nodes, List.flatMap_cons]
      exact (nodesAll_perm_children kids).cons _

/-- Every node is a root or a child of one node. -/
theorem nodesAll_perm_children (forest : List (Rose α)) :
    (nodesAll forest).Perm (forest ++ (nodesAll forest).flatMap children) := by
  cases forest with
  | nil => exact .rfl
  | cons tree rest =>
      have first := nodes_perm_children tree
      have later := nodesAll_perm_children rest
      rw [nodesAll, List.flatMap_append, List.cons_append]
      refine (first.append later).trans ?_
      rw [List.cons_append]
      refine .cons _ ?_
      rw [← List.append_assoc, ← List.append_assoc]
      exact List.perm_append_comm.append_right _

end

theorem mem_nodesAll_of_child (parent : tree ∈ nodesAll forest) (child : node ∈ tree.children) :
    node ∈ nodesAll forest :=
  (nodesAll_perm_children forest).mem_iff.mpr
    (List.mem_append_right _ (List.mem_flatMap.mpr ⟨tree, parent, child⟩))

mutual

theorem mem_nodes_trans (tree : Rose α) {other : Rose α} (member : node ∈ nodes tree)
    (below : other ∈ nodes node) : other ∈ nodes tree := by
  cases tree with
  | node label kids =>
      rcases List.mem_cons.mp member with rfl | inside
      · exact below
      · exact List.mem_cons_of_mem _ (mem_nodesAll_trans kids inside below)

/-- What is below a node of a forest is in the forest. -/
theorem mem_nodesAll_trans (forest : List (Rose α)) {other : Rose α}
    (member : node ∈ nodesAll forest) (below : other ∈ nodes node) : other ∈ nodesAll forest := by
  cases forest with
  | nil => cases member
  | cons tree rest =>
      rcases List.mem_append.mp member with first | later
      · exact List.mem_append_left _ (mem_nodes_trans tree first below)
      · exact List.mem_append_right _ (mem_nodesAll_trans rest later below)

end

variable {step : κ → κ → Prop} {key : α → κ}

mutual

theorem reached_of_mem_nodes (tree : Rose α)
    (steps : ∀ node ∈ nodes tree, ∀ child ∈ node.children, step (key node.label) (key child.label))
    (member : node ∈ nodes tree) :
    Relation.ReflTransGen step (key tree.label) (key node.label) := by
  cases tree with
  | node label kids =>
      rcases List.mem_cons.mp member with rfl | below
      · exact .refl
      · obtain ⟨root, isRoot, path⟩ := reached_of_mem_nodesAll kids
          (fun other inside => steps other (List.mem_cons_of_mem _ inside)) below
        exact .head (steps _ List.mem_cons_self root isRoot) path

/-- Where children are steps, every node is reached from a root. -/
theorem reached_of_mem_nodesAll (forest : List (Rose α))
    (steps : ∀ node ∈ nodesAll forest, ∀ child ∈ node.children,
      step (key node.label) (key child.label))
    (member : node ∈ nodesAll forest) :
    ∃ root ∈ forest, Relation.ReflTransGen step (key root.label) (key node.label) := by
  cases forest with
  | nil => cases member
  | cons tree rest =>
      rcases List.mem_append.mp member with first | later
      · exact ⟨tree, List.mem_cons_self, reached_of_mem_nodes tree
          (fun other inside => steps other (List.mem_append_left _ inside)) first⟩
      · obtain ⟨root, isRoot, path⟩ := reached_of_mem_nodesAll rest
          (fun other inside => steps other (List.mem_append_right _ inside)) later
        exact ⟨root, List.mem_cons_of_mem _ isRoot, path⟩

end

def keys (key : α → κ) (forest : List (Rose α)) : List κ :=
  (nodesAll forest).map fun node => key node.label

theorem keys_nil : keys key [] = [] := rfl

theorem keys_append (forest rest : List (Rose α)) :
    keys key (forest ++ rest) = keys key forest ++ keys key rest := by
  rw [keys, nodesAll_append, List.map_append, keys, keys]

theorem keys_cons (tree : Rose α) (rest : List (Rose α)) :
    keys key (tree :: rest) = keys key [tree] ++ keys key rest := by
  rw [← keys_append, List.singleton_append]

theorem keys_node (label : α) (children : List (Rose α)) :
    keys key [.node label children] = key label :: keys key children := by
  simp only [keys, nodesAll, nodes, List.append_nil, List.map_cons, Rose.label]

/-- The children of each node are the successors of its key. -/
def Unfolds (key : α → κ) (next : κ → List κ) (forest : List (Rose α)) : Prop :=
  ∀ node ∈ nodesAll forest,
    (node.children.map fun child => key child.label).Perm (next (key node.label))

variable {next : κ → List κ}

theorem Unfolds.keys_perm (unfolds : Unfolds key next forest) :
    (keys key forest).Perm
      ((forest.map fun root => key root.label) ++ (keys key forest).flatMap next) := by
  have all := (nodesAll_perm_children forest).map fun node => key node.label
  rw [List.map_append, List.map_flatMap] at all
  refine all.trans (List.Perm.append_left _ ?_)
  rw [keys, List.flatMap_map]
  exact List.Perm.flatMap_left _ unfolds

end Rose

section Counts

variable {κ : Type} {next : κ → List κ} {keys roots : List κ}

/-- Distinct keys have one source each: they are roots, or successors of one key. -/
theorem sources_of_nodup (perm : keys.Perm (roots ++ keys.flatMap next)) (distinct : keys.Nodup) :
    (∀ source ∈ keys, ∀ key ∈ next source, key ∉ roots) ∧
      ∀ source ∈ keys, ∀ other ∈ keys, ∀ key, key ∈ next source → key ∈ next other →
        source = other := by
  obtain ⟨_, below, apart⟩ := List.nodup_append.mp (perm.nodup_iff.mp distinct)
  constructor
  · intro source member key follows isRoot
    exact apart key isRoot key (List.mem_flatMap.mpr ⟨source, member, follows⟩) rfl
  · intro source member other member' key follows follows'
    by_contra different
    have disjoint := (List.nodup_flatMap.mp below).2
    have symmetric : Std.Symm (Function.onFun List.Disjoint next) := ⟨fun _ _ => List.disjoint_symm⟩
    exact disjoint.forall member member' different follows follows'

variable [DecidableEq κ]

theorem sum_count_single {source key : κ} (once : (next source).count key = 1)
    (none : ∀ other ∈ keys, other ≠ source → key ∉ next other) :
    (keys.map fun other => (next other).count key).sum = keys.count source := by
  induction keys with
  | nil => rfl
  | cons first rest ih =>
      obtain ⟨here, later⟩ := List.forall_mem_cons.mp none
      rw [List.map_cons, List.sum_cons, ih later, List.count_cons]
      by_cases same : first = source
      · subst same
        rw [once, beq_self_eq_true, if_pos rfl, Nat.add_comm]
      · rw [List.count_eq_zero_of_not_mem (here same), beq_eq_false_iff_ne.mpr same,
          if_neg Bool.false_ne_true, Nat.zero_add, Nat.add_zero]

/-- Where each key has one source, what is reached from a root is there once. -/
theorem count_of_reached (perm : keys.Perm (roots ++ keys.flatMap next)) (distinct : roots.Nodup)
    (distinctNext : ∀ source, (next source).Nodup)
    (notRoot : ∀ source ∈ keys, ∀ key ∈ next source, key ∉ roots)
    (unique : ∀ source ∈ keys, ∀ other ∈ keys, ∀ key, key ∈ next source → key ∈ next other →
      source = other)
    {root key : κ} (isRoot : root ∈ roots)
    (reached : Relation.ReflTransGen (fun source key => key ∈ next source) root key) :
    keys.count key = 1 := by
  have counts (key : κ) : keys.count key =
      roots.count key + (keys.map fun source => (next source).count key).sum := by
    rw [perm.count_eq, List.count_append, List.count_flatMap]
    rfl
  induction reached with
  | refl =>
      have none : (keys.map fun source => (next source).count root).sum = 0 := by
        refine List.sum_eq_zero fun count member => ?_
        obtain ⟨source, inside, rfl⟩ := List.mem_map.mp member
        exact List.count_eq_zero_of_not_mem fun follows => notRoot source inside root follows isRoot
      rw [counts, none, List.count_eq_one_of_mem distinct isRoot]
  | @tail source key _ follows ih =>
      have inside : source ∈ keys := List.count_pos_iff.mp (ih ▸ Nat.one_pos)
      have outside := notRoot source inside key follows
      rw [counts, List.count_eq_zero_of_not_mem outside, Nat.zero_add,
        sum_count_single (List.count_eq_one_of_mem (distinctNext source) follows), ih]
      intro other member different follows'
      exact different (unique other member source inside key follows' follows)

end Counts

end Univiz.Data

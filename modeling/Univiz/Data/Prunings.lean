import Mathlib.Data.List.Basic
import Univiz.Data.Rose

namespace Univiz.Data

namespace Rose

/-! Pruning a forest to the marked nodes and those above them.

A node that is relaxed, because it is marked and opened and nothing below it is marked, keeps all
that is below it. -/

variable {α κ : Type} (marked opened : α → Bool)

mutual

def prune : Rose α → Option (Rose α)
  | .node label children =>
      let kept := pruneAll children
      if marked label ∧ opened label ∧ kept = [] ∧ children ≠ [] then some (.node label children)
      else if ¬ marked label ∧ kept = [] then none
      else some (.node label kept)

def pruneAll : List (Rose α) → List (Rose α)
  | [] => []
  | tree :: rest => (prune tree).toList ++ pruneAll rest

end

variable {marked opened} {key : α → κ} {name : κ} {node tree : Rose α} {forest : List (Rose α)}

mutual

theorem prune_eq_none (tree : Rose α) :
    prune marked opened tree = none ↔ ∀ node ∈ nodes tree, marked node.label = false := by
  cases tree with
  | node label children =>
      have below := pruneAll_eq_nil children
      simp only [prune, nodes, List.forall_mem_cons, label_node, ← below]
      split
      · rename_i relaxed
        simp [relaxed.1]
      · split
        · rename_i unmarked
          simpa using unmarked
        · rename_i kept
          simpa using kept

theorem pruneAll_eq_nil (forest : List (Rose α)) :
    pruneAll marked opened forest = [] ↔ ∀ node ∈ nodesAll forest, marked node.label = false := by
  cases forest with
  | nil => simp [pruneAll, nodesAll]
  | cons tree rest =>
      rw [pruneAll, List.append_eq_nil_iff, Option.toList_eq_nil_iff, prune_eq_none tree,
        pruneAll_eq_nil rest, nodesAll, List.forall_mem_append]

end

/-- The node is marked, or something below it is. -/
def Leads (marked : α → Bool) (node : Rose α) : Prop :=
  ∃ other ∈ nodes node, marked other.label = true

/-- All below the node is kept for its own sake. -/
structure Relaxed (marked opened : α → Bool) (node : Rose α) : Prop where
  isMarked : marked node.label = true
  isOpened : opened node.label = true
  alone : ∀ child ∈ node.children, ¬ Leads marked child

def Kept (marked opened : α → Bool) (forest : List (Rose α)) (node : Rose α) : Prop :=
  Leads marked node ∨
    ∃ above ∈ nodesAll forest, Relaxed marked opened above ∧ node ∈ nodesAll above.children

theorem leads_node (opened : α → Bool) (label : α) (children : List (Rose α)) :
    Leads marked (.node label children) ↔ marked label = true ∨ pruneAll marked opened children ≠ [] := by
  rw [ne_eq, pruneAll_eq_nil]
  simp only [Leads, nodes, List.mem_cons, exists_eq_or_imp, label_node, not_forall,
    Bool.not_eq_false, exists_prop]

theorem alone_iff : (∀ child ∈ tree.children, ¬ Leads marked child) ↔
    pruneAll marked opened tree.children = [] := by
  rw [pruneAll_eq_nil, nodesAll_eq_flatMap]
  simp only [Leads, List.mem_flatMap, not_exists, not_and, Bool.not_eq_true]
  constructor
  · rintro alone node ⟨child, member, below⟩
    exact alone child member node below
  · intro alone child member node below
    exact alone node ⟨child, member, below⟩

theorem leads_of_mem {below : Rose α} (member : below ∈ nodes tree)
    (leads : Leads marked below) : Leads marked tree := by
  obtain ⟨other, inside, isMarked⟩ := leads
  exact ⟨other, mem_nodes_trans tree member inside, isMarked⟩

theorem leads_of_kept (kept : Kept marked opened [tree] node) (member : node ∈ nodes tree) :
    Leads marked tree := by
  rcases kept with leads | ⟨above, inside, relaxed, _⟩
  · exact leads_of_mem member leads
  · exact ⟨above, nodesAll_singleton tree ▸ inside, relaxed.isMarked⟩

theorem Kept.mono {other : List (Rose α)} (kept : Kept marked opened forest node)
    (inside : nodesAll forest ⊆ nodesAll other) : Kept marked opened other node :=
  kept.imp_right fun ⟨above, member, relaxed, below⟩ => ⟨above, inside member, relaxed, below⟩

/-- What is kept below a node that leads to a marked one and is not relaxed. -/
theorem kept_node_iff {label : α} {children : List (Rose α)}
    (unrelaxed : ¬ (Relaxed marked opened (.node label children) ∧ children ≠ []))
    (member : node ∈ nodesAll children) :
    Kept marked opened [.node label children] node ↔ Kept marked opened children node := by
  constructor
  · rintro (leads | ⟨above, inside, relaxed, below⟩)
    · exact .inl leads
    · rw [nodesAll_singleton, nodes, List.mem_cons] at inside
      rcases inside with rfl | inside
      · refine absurd ⟨relaxed, ?_⟩ unrelaxed
        rintro rfl
        cases member
      · exact .inr ⟨above, inside, relaxed, below⟩
  · intro kept
    refine kept.mono ?_
    rw [nodesAll_singleton, nodes]
    exact List.subset_cons_self _ _

mutual

theorem mem_keys_prune (tree : Rose α) :
    name ∈ keys key (prune marked opened tree).toList ↔
      ∃ node ∈ nodes tree, key node.label = name ∧ Kept marked opened [tree] node := by
  cases tree with
  | node label children =>
      have below := mem_keys_pruneAll children
      rw [prune]
      split
      · rename_i relaxed
        obtain ⟨isMarked, isOpened, empty, _⟩ := relaxed
        have isRelaxed : Relaxed marked opened (.node label children) :=
          ⟨isMarked, isOpened, alone_iff.mpr empty⟩
        have all (node : Rose α) (member : node ∈ nodes (.node label children)) :
            Kept marked opened [.node label children] node := by
          rcases List.mem_cons.mp member with rfl | inside
          · exact .inl ⟨_, List.mem_cons_self, isMarked⟩
          · exact .inr ⟨_, List.mem_append_left _ List.mem_cons_self, isRelaxed, inside⟩
        rw [Option.toList_some, keys, nodesAll_singleton, List.mem_map]
        constructor
        · rintro ⟨node, member, named⟩
          exact ⟨node, member, named, all node member⟩
        · rintro ⟨node, member, named, _⟩
          exact ⟨node, member, named⟩
      · rename_i unrelaxed
        split
        · rename_i nothing
          have nowhere : ¬ Leads marked (.node label children) := by
            rw [leads_node opened]
            simpa using nothing
          refine iff_of_false List.not_mem_nil ?_
          rintro ⟨node, member, _, kept⟩
          exact nowhere (leads_of_kept kept member)
        · rename_i something
          have leads : Leads marked (.node label children) := by
            rw [leads_node opened]
            by_contra neither
            simp only [not_or, not_not] at neither
            exact something neither
          have isFree : ¬ (Relaxed marked opened (.node label children) ∧ children ≠ []) :=
            fun ⟨relaxed, some'⟩ => unrelaxed
              ⟨relaxed.isMarked, relaxed.isOpened, alone_iff.mp relaxed.alone, some'⟩
          rw [Option.toList_some, keys_node, List.mem_cons, below, nodes]
          simp only [List.mem_cons, exists_eq_or_imp, label_node]
          refine or_congr ?_ (exists_congr fun node => and_congr_right fun member =>
            and_congr_right fun _ => (kept_node_iff isFree member).symm)
          constructor
          · rintro rfl
            exact ⟨rfl, .inl leads⟩
          · intro ⟨named, _⟩
            exact named.symm

theorem mem_keys_pruneAll (forest : List (Rose α)) :
    name ∈ keys key (pruneAll marked opened forest) ↔
      ∃ node ∈ nodesAll forest, key node.label = name ∧ Kept marked opened forest node := by
  cases forest with
  | nil => simp [pruneAll, keys, nodesAll]
  | cons tree rest =>
      rw [pruneAll, keys_append, List.mem_append, mem_keys_prune tree, mem_keys_pruneAll rest]
      constructor
      · rintro (⟨node, member, named, kept⟩ | ⟨node, member, named, kept⟩)
        · refine ⟨node, List.mem_append_left _ member, named, kept.mono ?_⟩
          rw [nodesAll_singleton]
          exact List.subset_append_left _ _
        · exact ⟨node, List.mem_append_right _ member, named,
            kept.mono (List.subset_append_right _ _)⟩
      · rintro ⟨node, member, named, leads | ⟨above, inside, relaxed, below⟩⟩
        · rcases List.mem_append.mp member with first | later
          · exact .inl ⟨node, first, named, .inl leads⟩
          · exact .inr ⟨node, later, named, .inl leads⟩
        · rcases List.mem_append.mp inside with first | later
          · refine .inl ⟨node, ?_, named, .inr ⟨above, List.mem_append_left _ first, relaxed, below⟩⟩
            refine mem_nodes_trans tree first ?_
            rw [nodes_eq]
            exact List.mem_cons_of_mem _ below
          · refine .inr ⟨node, ?_, named, .inr ⟨above, later, relaxed, below⟩⟩
            refine mem_nodesAll_trans rest later ?_
            rw [nodes_eq]
            exact List.mem_cons_of_mem _ below

end

mutual

theorem keys_prune_sublist (tree : Rose α) :
    (keys key (prune marked opened tree).toList).Sublist (keys key [tree]) := by
  cases tree with
  | node label children =>
      rw [prune]
      split
      · exact .refl _
      · split
        · exact List.nil_sublist _
        · rw [Option.toList_some, keys_node, keys_node]
          exact (keys_pruneAll_sublist children).cons_cons _

/-- What is kept stays in its order. -/
theorem keys_pruneAll_sublist (forest : List (Rose α)) :
    (keys key (pruneAll marked opened forest)).Sublist (keys key forest) := by
  cases forest with
  | nil => exact .refl _
  | cons tree rest =>
      rw [pruneAll, keys_append, keys_cons]
      exact (keys_prune_sublist tree).append (keys_pruneAll_sublist rest)

end

mutual

theorem comparable_nodes (tree : Rose α) (distinct : (keys key [tree]).Nodup)
    {first second : Rose α} (member : first ∈ nodes tree) (member' : second ∈ nodes tree)
    (below : node ∈ nodesAll first.children) (below' : node ∈ nodesAll second.children) :
    first ∈ nodes second ∨ second ∈ nodes first := by
  cases tree with
  | node label children =>
      rw [keys_node] at distinct
      rcases List.mem_cons.mp member with rfl | inside
      · exact .inr member'
      · rcases List.mem_cons.mp member' with rfl | inside'
        · exact .inl member
        · exact comparable children (List.nodup_cons.mp distinct).2 inside inside' below below'

/-- Of two nodes above a third, one is above the other. -/
theorem comparable (forest : List (Rose α)) (distinct : (keys key forest).Nodup)
    {first second : Rose α} (member : first ∈ nodesAll forest) (member' : second ∈ nodesAll forest)
    (below : node ∈ nodesAll first.children) (below' : node ∈ nodesAll second.children) :
    first ∈ nodes second ∨ second ∈ nodes first := by
  cases forest with
  | nil => cases member
  | cons tree rest =>
      rw [keys_cons] at distinct
      obtain ⟨distinctFirst, distinctRest, apart⟩ := List.nodup_append.mp distinct
      have clash {above above' : Rose α} (inTree : above ∈ nodes tree)
          (inRest : above' ∈ nodesAll rest) (below : node ∈ nodesAll above.children)
          (below' : node ∈ nodesAll above'.children) : False := by
        have inTree : node ∈ nodesAll [tree] := by
          rw [nodesAll_singleton]
          exact mem_nodes_trans tree inTree (nodes_eq above ▸ List.mem_cons_of_mem _ below)
        have inRest : node ∈ nodesAll rest :=
          mem_nodesAll_trans rest inRest (nodes_eq above' ▸ List.mem_cons_of_mem _ below')
        exact apart _ (List.mem_map_of_mem inTree) _ (List.mem_map_of_mem inRest) rfl
      rcases List.mem_append.mp member with inFirst | inRest
      · rcases List.mem_append.mp member' with inFirst' | inRest'
        · exact comparable_nodes tree distinctFirst inFirst inFirst' below below'
        · exact absurd below' fun below' => clash inFirst inRest' below below'
      · rcases List.mem_append.mp member' with inFirst' | inRest'
        · exact absurd below' fun below' => clash inFirst' inRest below' below
        · exact comparable rest distinctRest inRest inRest' below below'

end

theorem mem_pruned_iff (distinct : (keys key forest).Nodup) (member : node ∈ nodesAll forest) :
    key node.label ∈ keys key (pruneAll marked opened forest) ↔ Kept marked opened forest node := by
  rw [mem_keys_pruneAll]
  constructor
  · rintro ⟨other, member', named, kept⟩
    have same : other = node := List.inj_on_of_nodup_map distinct member' member named
    exact same ▸ kept
  · intro kept
    exact ⟨node, member, rfl, kept⟩

/-- A node is kept if it is marked, if something below it is kept, or below a relaxed one. -/
theorem mem_pruned_cases (distinct : (keys key forest).Nodup) (member : node ∈ nodesAll forest) :
    key node.label ∈ keys key (pruneAll marked opened forest) ↔
      marked node.label = true ∨
      (∃ below ∈ nodesAll node.children,
        key below.label ∈ keys key (pruneAll marked opened forest)) ∨
      ∃ above ∈ nodesAll forest, Relaxed marked opened above ∧ node ∈ nodesAll above.children := by
  have inside {below : Rose α} (under : below ∈ nodesAll node.children) :
      below ∈ nodesAll forest :=
    mem_nodesAll_trans forest member (nodes_eq node ▸ List.mem_cons_of_mem _ under)
  rw [mem_pruned_iff distinct member]
  constructor
  · rintro (⟨other, under, isMarked⟩ | relaxed)
    · rw [nodes_eq, List.mem_cons] at under
      rcases under with rfl | under
      · exact .inl isMarked
      · refine .inr (.inl ⟨other, under, (mem_pruned_iff distinct (inside under)).mpr (.inl ?_)⟩)
        exact ⟨other, nodes_eq other ▸ List.mem_cons_self, isMarked⟩
    · exact .inr (.inr relaxed)
  · rintro (isMarked | ⟨below, under, kept⟩ | relaxed)
    · exact .inl ⟨node, nodes_eq node ▸ List.mem_cons_self, isMarked⟩
    · have isBelow : below ∈ nodes node := nodes_eq node ▸ List.mem_cons_of_mem _ under
      rcases (mem_pruned_iff distinct (inside under)).mp kept with leads | ⟨above, member', relaxed,
        under'⟩
      · exact .inl (leads_of_mem isBelow leads)
      · rcases comparable forest distinct member' member under' under with higher | lower
        · exact .inl ⟨above, higher, relaxed.isMarked⟩
        · rw [nodes_eq, List.mem_cons] at lower
          rcases lower with rfl | lower
          · exact .inl ⟨node, nodes_eq node ▸ List.mem_cons_self, relaxed.isMarked⟩
          · exact .inr ⟨above, member', relaxed, lower⟩
    · exact .inr relaxed

end Rose

end Univiz.Data

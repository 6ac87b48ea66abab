import Mathlib.Data.Finset.Card
import Mathlib.Logic.Function.Iterate
import Mathlib.Logic.Relation
import Mathlib.Order.Lattice.Nat

namespace Univiz.Data

/-! Relaxation of levels along a parent relation.

A node takes the largest level of its parents and one more, wherever a parent has a level.
Nodes are visited in rounds, in some order.  If no cycle can be reached from a root, the
levels come to the lengths of the longest descents; if one can, no levels are fixed. -/

variable {α : Type}

/-- A descent of some length along a relation. -/
inductive Steps (relation : α → α → Prop) : Nat → α → α → Prop
  | here (node : α) : Steps relation 0 node node
  | down {length : Nat} {top node next : α} (above : Steps relation length top node)
      (step : relation node next) : Steps relation (length + 1) top next

/-- Nodes with their parents, which are nodes too. -/
structure Hierarchy (α : Type) where
  nodes : List α
  parents : α → List α
  closed : ∀ {parent child}, parent ∈ parents child → parent ∈ nodes ∧ child ∈ nodes
  irreflexive : ∀ node, node ∉ parents node

namespace Hierarchy

variable (hierarchy : Hierarchy α)

def Above (parent child : α) : Prop := parent ∈ hierarchy.parents child

def Root (node : α) : Prop := node ∈ hierarchy.nodes ∧ hierarchy.parents node = []

/-- The lengths of the descents from a root to a node. -/
def descents (node : α) : Set Nat :=
  { length | ∃ root, hierarchy.Root root ∧ Steps hierarchy.Above length root node }

/-- No node that can be reached from a root is below itself. -/
def Grounded : Prop :=
  ∀ node, (hierarchy.descents node).Nonempty → ¬ Relation.TransGen hierarchy.Above node node

variable {hierarchy} {node parent child : α} {length : Nat}

theorem descents_root (root : hierarchy.Root node) : 0 ∈ hierarchy.descents node :=
  ⟨node, root, .here node⟩

theorem descents_below (above : hierarchy.Above parent child)
    (descends : length ∈ hierarchy.descents parent) : length + 1 ∈ hierarchy.descents child := by
  obtain ⟨root, isRoot, steps⟩ := descends
  exact ⟨root, isRoot, .down steps above⟩

theorem descents_cases (descends : length ∈ hierarchy.descents node) :
    length = 0 ∧ hierarchy.Root node ∨ ∃ parent shorter, length = shorter + 1 ∧
      hierarchy.Above parent node ∧ shorter ∈ hierarchy.descents parent := by
  obtain ⟨root, isRoot, steps⟩ := descends
  cases steps with
  | here => exact .inl ⟨rfl, isRoot⟩
  | down above step => exact .inr ⟨_, _, rfl, step, root, isRoot, above⟩

theorem mem_nodes (descends : length ∈ hierarchy.descents node) : node ∈ hierarchy.nodes := by
  rcases descents_cases descends with ⟨-, root⟩ | ⟨parent, shorter, -, above, -⟩
  · exact root.1
  · exact (hierarchy.closed above).2

open Classical in
/-- The nodes above a node that can be reached from a root. -/
noncomputable def ancestors (hierarchy : Hierarchy α) (node : α) : Finset α :=
  hierarchy.nodes.toFinset.filter fun other =>
    (hierarchy.descents other).Nonempty ∧ Relation.TransGen hierarchy.Above other node

theorem mem_ancestors {other : α} : other ∈ hierarchy.ancestors node ↔
    (hierarchy.descents other).Nonempty ∧ Relation.TransGen hierarchy.Above other node := by
  classical
  simp only [ancestors, Finset.mem_filter, List.mem_toFinset, and_iff_right_iff_imp]
  intro ⟨⟨length, descends⟩, _⟩
  exact mem_nodes descends

theorem Grounded.card_ancestors (grounded : hierarchy.Grounded)
    (reached : (hierarchy.descents parent).Nonempty) (above : hierarchy.Above parent child) :
    (hierarchy.ancestors parent).card + 1 ≤ (hierarchy.ancestors child).card := by
  classical
  have absent : parent ∉ hierarchy.ancestors parent :=
    fun member => grounded parent reached (mem_ancestors.mp member).2
  rw [← Finset.card_insert_of_notMem absent]
  refine Finset.card_le_card ?_
  intro other member
  rcases Finset.mem_insert.mp member with rfl | further
  · exact mem_ancestors.mpr ⟨reached, .single above⟩
  · have ⟨reached', over'⟩ := mem_ancestors.mp further
    exact mem_ancestors.mpr ⟨reached', .tail over' above⟩

theorem Grounded.le_card (grounded : hierarchy.Grounded)
    (descends : length ∈ hierarchy.descents node) :
    length ≤ (hierarchy.ancestors node).card := by
  induction length generalizing node with
  | zero => exact Nat.zero_le _
  | succ length ih =>
      rcases descents_cases descends with ⟨zero, -⟩ | ⟨parent, shorter, same, above, descends'⟩
      · cases zero
      · cases same
        have bound := ih descends'
        have grows := grounded.card_ancestors ⟨_, descends'⟩ above
        omega

theorem Grounded.lt_length (grounded : hierarchy.Grounded)
    (descends : length ∈ hierarchy.descents node) : length < hierarchy.nodes.length := by
  classical
  have bound := grounded.le_card descends
  have absent : node ∉ hierarchy.ancestors node :=
    fun member => grounded node ⟨_, descends⟩ (mem_ancestors.mp member).2
  have inside : insert node (hierarchy.ancestors node) ⊆ hierarchy.nodes.toFinset := by
    intro other member
    rcases Finset.mem_insert.mp member with rfl | further
    · exact List.mem_toFinset.mpr (mem_nodes descends)
    · obtain ⟨⟨_, descends'⟩, -⟩ := mem_ancestors.mp further
      exact List.mem_toFinset.mpr (mem_nodes descends')
  have counted := Finset.card_le_card inside
  rw [Finset.card_insert_of_notMem absent] at counted
  have distinct := hierarchy.nodes.toFinset_card_le
  omega

/-- The length of the longest descent. -/
noncomputable def depth (hierarchy : Hierarchy α) (node : α) : Nat :=
  sSup (hierarchy.descents node)

theorem Grounded.isGreatest (grounded : hierarchy.Grounded)
    (reached : (hierarchy.descents node).Nonempty) :
    IsGreatest (hierarchy.descents node) (hierarchy.depth node) := by
  have bounded : BddAbove (hierarchy.descents node) :=
    ⟨hierarchy.nodes.length, fun _ descends => Nat.le_of_lt (grounded.lt_length descends)⟩
  exact ⟨Nat.sSup_mem reached bounded, fun _ descends => le_csSup bounded descends⟩

theorem Grounded.depth_lt (grounded : hierarchy.Grounded)
    (reached : (hierarchy.descents parent).Nonempty) (above : hierarchy.Above parent child) :
    hierarchy.depth parent < hierarchy.depth child := by
  have deepest := (grounded.isGreatest reached).1
  have reached' : (hierarchy.descents child).Nonempty := ⟨_, descents_below above deepest⟩
  exact (grounded.isGreatest reached').2 (descents_below above deepest)

/-- Without cycles every node is below a root. -/
theorem descents_nonempty (acyclic : ∀ node, ¬ Relation.TransGen hierarchy.Above node node)
    (listed : node ∈ hierarchy.nodes) : (hierarchy.descents node).Nonempty := by
  classical
  let above (node : α) := hierarchy.nodes.toFinset.filter fun other =>
    Relation.TransGen hierarchy.Above other node
  generalize size : (above node).card = count
  induction count using Nat.strongRecOn generalizing node with
  | ind count ih =>
      cases parents : hierarchy.parents node with
      | nil => exact ⟨0, descents_root ⟨listed, parents⟩⟩
      | cons parent rest =>
          have step : hierarchy.Above parent node := by simp [Above, parents]
          have isNode := (hierarchy.closed step).1
          have fewer : (above parent).card < (above node).card := by
            refine Finset.card_lt_card (Finset.ssubset_iff_subset_ne.mpr ⟨?_, ?_⟩)
            · intro other member
              have ⟨inside, over'⟩ := Finset.mem_filter.mp member
              exact Finset.mem_filter.mpr ⟨inside, .tail over' step⟩
            · intro same
              have member : parent ∈ above node :=
                Finset.mem_filter.mpr ⟨List.mem_toFinset.mpr isNode, .single step⟩
              rw [← same] at member
              exact acyclic parent (Finset.mem_filter.mp member).2
          obtain ⟨length, descends⟩ := ih _ (size ▸ fewer) isNode rfl
          exact ⟨length + 1, descents_below step descends⟩

/-! Rounds of relaxation. -/

variable [DecidableEq α] {levels : α → Option Nat} {order : List α}

/-- The level of a node by those of its parents. -/
def relaxed (parents : α → List α) (levels : α → Option Nat) (node : α) : Option Nat :=
  match ((parents node).filterMap levels).max? with
  | none => levels node
  | some highest => some (highest + 1)

def relax (parents : α → List α) (levels : α → Option Nat) (node : α) : α → Option Nat :=
  Function.update levels node (relaxed parents levels node)

def sweep (parents : α → List α) (order : List α) (levels : α → Option Nat) : α → Option Nat :=
  order.foldl (relax parents) levels

def start (hierarchy : Hierarchy α) (node : α) : Option Nat :=
  if node ∈ hierarchy.nodes ∧ hierarchy.parents node = [] then some 0 else none

omit [DecidableEq α] in
theorem relaxed_eq_some {parents : α → List α} (next : relaxed parents levels node = some length) :
    levels node = some length ∨ ∃ parent ∈ parents node, ∃ highest,
      levels parent = some highest ∧ length = highest + 1 := by
  simp only [relaxed] at next
  split at next
  · exact .inl next
  · rename_i highest found
    cases next
    have member := (List.max?_eq_some_iff.mp found).1
    obtain ⟨parent, listed, level⟩ := List.mem_filterMap.mp member
    exact .inr ⟨parent, listed, highest, level, rfl⟩

omit [DecidableEq α] in
/-- A node with a parent that has a level gets a larger one. -/
theorem relaxed_of_parent {parents : α → List α} (listed : parent ∈ parents node)
    (level : levels parent = some length) :
    ∃ higher, relaxed parents levels node = some higher ∧ length < higher := by
  have member : length ∈ (parents node).filterMap levels :=
    List.mem_filterMap.mpr ⟨parent, listed, level⟩
  cases found : ((parents node).filterMap levels).max? with
  | none =>
      rw [List.max?_eq_none_iff.mp found] at member
      cases member
  | some highest =>
      refine ⟨highest + 1, by simp only [relaxed, found], ?_⟩
      have bound := (List.max?_eq_some_iff.mp found).2 length member
      omega

/-- Every level is the length of a descent. -/
def Sound (hierarchy : Hierarchy α) (levels : α → Option Nat) : Prop :=
  ∀ node length, levels node = some length → length ∈ hierarchy.descents node

/-- The nodes down to some depth have their final levels. -/
def SettledTo (hierarchy : Hierarchy α) (bound : Nat) (levels : α → Option Nat) : Prop :=
  ∀ node, (hierarchy.descents node).Nonempty → hierarchy.depth node ≤ bound →
    levels node = some (hierarchy.depth node)

variable {bound : Nat}

theorem relax_self {parents : α → List α} :
    relax parents levels node node = relaxed parents levels node :=
  Function.update_self ..

theorem relax_ne {parents : α → List α} {other : α} (apart : other ≠ node) :
    relax parents levels node other = levels other :=
  Function.update_of_ne apart ..

theorem Sound.relax (sound : hierarchy.Sound levels) (node : α) :
    hierarchy.Sound (relax hierarchy.parents levels node) := by
  intro other length level
  by_cases same : other = node
  · subst same
    rw [relax_self] at level
    rcases relaxed_eq_some level with before | ⟨parent, listed, highest, level', rfl⟩
    · exact sound other length before
    · exact descents_below listed (sound parent highest level')
  · rw [relax_ne same] at level
    exact sound other length level

omit [DecidableEq α] in
theorem Grounded.relaxed_eq (grounded : hierarchy.Grounded) (sound : hierarchy.Sound levels)
    (settled : hierarchy.SettledTo bound levels)
    (reached : (hierarchy.descents node).Nonempty) (near : hierarchy.depth node ≤ bound + 1) :
    relaxed hierarchy.parents levels node = some (hierarchy.depth node) := by
  have ⟨deepest, longest⟩ := grounded.isGreatest reached
  rcases descents_cases deepest with ⟨zero, root⟩ | ⟨parent, shorter, deeper, above, descends⟩
  · have level := settled node reached (by omega)
    simpa [relaxed, root.2] using level
  · have higher := grounded.depth_lt ⟨_, descends⟩ above
    have atMost := (grounded.isGreatest ⟨_, descends⟩).2 descends
    have level := settled parent ⟨_, descends⟩ (by omega)
    have largest : ((hierarchy.parents node).filterMap levels).max? = some shorter := by
      refine List.max?_eq_some_iff.mpr ⟨?_, ?_⟩
      · refine List.mem_filterMap.mpr ⟨parent, above, ?_⟩
        rw [level]
        congr 1
        omega
      · intro other member
        obtain ⟨parent', above', level'⟩ := List.mem_filterMap.mp member
        have below := longest (descents_below above' (sound parent' other level'))
        omega
    simp only [relaxed, largest, deeper]

/-- A final level stays. -/
theorem Grounded.relax_keeps (grounded : hierarchy.Grounded) (sound : hierarchy.Sound levels)
    (settled : hierarchy.SettledTo bound levels)
    (reached : (hierarchy.descents node).Nonempty) (near : hierarchy.depth node ≤ bound + 1)
    (level : levels node = some (hierarchy.depth node)) (visited : α) :
    relax hierarchy.parents levels visited node = some (hierarchy.depth node) := by
  by_cases same : node = visited
  · subst same
    rw [relax_self]
    exact grounded.relaxed_eq sound settled reached near
  · rwa [relax_ne same]

theorem Grounded.relax_settled (grounded : hierarchy.Grounded) (sound : hierarchy.Sound levels)
    (settled : hierarchy.SettledTo bound levels) (visited : α) :
    hierarchy.SettledTo bound (relax hierarchy.parents levels visited) :=
  fun node reached near => grounded.relax_keeps sound settled reached (Nat.le_succ_of_le near)
    (settled node reached near) visited

theorem Grounded.sweep_keeps (grounded : hierarchy.Grounded) (sound : hierarchy.Sound levels)
    (settled : hierarchy.SettledTo bound levels) :
    hierarchy.Sound (sweep hierarchy.parents order levels) ∧
      ∀ node, (hierarchy.descents node).Nonempty → hierarchy.depth node ≤ bound + 1 →
        node ∈ order ∨ levels node = some (hierarchy.depth node) →
          sweep hierarchy.parents order levels node = some (hierarchy.depth node) := by
  induction order generalizing levels with
  | nil =>
      refine ⟨sound, ?_⟩
      intro node _ _ level
      exact level.resolve_left List.not_mem_nil
  | cons first rest ih =>
      have ⟨sound', kept⟩ := ih (sound.relax first) (grounded.relax_settled sound settled first)
      refine ⟨sound', ?_⟩
      intro node reached near level
      refine kept node reached near ?_
      rcases level with listed | level
      · rcases List.mem_cons.mp listed with rfl | later
        · exact .inr (relax_self.trans (grounded.relaxed_eq sound settled reached near))
        · exact .inl later
      · exact .inr (grounded.relax_keeps sound settled reached near level first)

theorem Grounded.iterate_settled (grounded : hierarchy.Grounded)
    (complete : ∀ node ∈ hierarchy.nodes, node ∈ order) (rounds : Nat) :
    hierarchy.Sound ((sweep hierarchy.parents order)^[rounds] hierarchy.start) ∧
      hierarchy.SettledTo rounds ((sweep hierarchy.parents order)^[rounds] hierarchy.start) := by
  induction rounds with
  | zero =>
      refine ⟨?_, ?_⟩
      · intro node length level
        simp only [Function.iterate_zero, id, start] at level
        split at level
        · rename_i root
          cases level
          exact descents_root root
        · cases level
      · intro node reached shallow
        have deepest := (grounded.isGreatest reached).1
        have zero : hierarchy.depth node = 0 := Nat.le_zero.mp shallow
        rw [zero] at deepest ⊢
        rcases descents_cases deepest with ⟨-, root⟩ | ⟨_, _, wrong, _⟩
        · exact if_pos root
        · cases wrong
  | succ rounds ih =>
      rw [Function.iterate_succ_apply']
      refine ⟨(grounded.sweep_keeps ih.1 ih.2).1, ?_⟩
      intro node reached near
      exact (grounded.sweep_keeps ih.1 ih.2).2 node reached near
        (.inl (complete node (mem_nodes reached.some_mem)))

/-- As many rounds as there are nodes give every node the length of its longest descent,
and no level to the others. -/
theorem Grounded.iterate_eq_some (grounded : hierarchy.Grounded)
    (complete : ∀ node ∈ hierarchy.nodes, node ∈ order) {rounds : Nat}
    (enough : hierarchy.nodes.length ≤ rounds) :
    (sweep hierarchy.parents order)^[rounds] hierarchy.start node = some length ↔
      IsGreatest (hierarchy.descents node) length := by
  have ⟨sound, settled⟩ := grounded.iterate_settled complete rounds
  constructor
  · intro level
    have reached : (hierarchy.descents node).Nonempty := ⟨length, sound node length level⟩
    have greatest := grounded.isGreatest reached
    have final := settled node reached
      (Nat.le_trans (Nat.le_of_lt (grounded.lt_length greatest.1)) enough)
    cases level.symm.trans final
    exact greatest
  · intro longest
    have reached : (hierarchy.descents node).Nonempty := ⟨length, longest.1⟩
    have greatest := grounded.isGreatest reached
    rw [longest.unique greatest]
    exact settled node reached
      (Nat.le_trans (Nat.le_of_lt (grounded.lt_length greatest.1)) enough)

/-! Levels that no visit changes. -/

omit [DecidableEq α] in
/-- Levels that are fixed at every node leave no room for a cycle below a root. -/
theorem grounded_of_fixed
    (rooted : ∀ node, hierarchy.Root node → ∃ length, levels node = some length)
    (fixed : ∀ node ∈ hierarchy.nodes, relaxed hierarchy.parents levels node = levels node) :
    hierarchy.Grounded := by
  have climbs : ∀ {parent child length}, hierarchy.Above parent child →
      levels parent = some length → ∃ higher, levels child = some higher ∧ length < higher := by
    intro parent child length above level
    obtain ⟨higher, next, above'⟩ := relaxed_of_parent above level
    rw [fixed child (hierarchy.closed above).2] at next
    exact ⟨higher, next, above'⟩
  have levelled : ∀ {length node}, length ∈ hierarchy.descents node →
      ∃ level, levels node = some level := by
    intro length
    induction length with
    | zero =>
        intro node descends
        rcases descents_cases descends with ⟨-, root⟩ | ⟨_, _, wrong, _⟩
        · exact rooted node root
        · cases wrong
    | succ length ih =>
        intro node descends
        rcases descents_cases descends with ⟨wrong, -⟩ | ⟨parent, shorter, same, above, descends'⟩
        · cases wrong
        · cases same
          obtain ⟨level, found⟩ := ih descends'
          obtain ⟨higher, found', -⟩ := climbs above found
          exact ⟨higher, found'⟩
  intro node ⟨length, descends⟩ cycle
  obtain ⟨level, found⟩ := levelled descends
  have higher : ∀ {other}, Relation.TransGen hierarchy.Above node other →
      ∃ level', levels other = some level' ∧ level < level' := by
    intro other below
    induction below with
    | single above => exact climbs above found
    | tail _ above ih =>
        obtain ⟨middle, found', less⟩ := ih
        obtain ⟨top, found'', less'⟩ := climbs above found'
        exact ⟨top, found'', Nat.lt_trans less less'⟩
  obtain ⟨level', found', less⟩ := higher cycle
  cases found.symm.trans found'
  exact Nat.lt_irrefl _ less

theorem isSome_relax {parents : α → List α} {other : α}
    (level : ∃ length, levels node = some length) :
    ∃ length, relax parents levels other node = some length := by
  by_cases same : node = other
  · subst same
    rw [relax_self]
    simp only [relaxed]
    split
    · exact level
    · exact ⟨_, rfl⟩
  · rwa [relax_ne same]

theorem isSome_sweep {parents : α → List α} (level : ∃ length, levels node = some length) :
    ∃ length, sweep parents order levels node = some length := by
  induction order generalizing levels with
  | nil => exact level
  | cons first rest ih => exact ih (isSome_relax level)

theorem isSome_iterate {parents : α → List α} (level : ∃ length, levels node = some length)
    (rounds : Nat) : ∃ length, (sweep parents order)^[rounds] levels node = some length := by
  induction rounds generalizing levels with
  | zero => exact level
  | succ rounds ih => exact ih (isSome_sweep level)

/-- The node visited last is as its parents make it. -/
theorem relaxed_sweep_concat (rounds : Nat) :
    relaxed hierarchy.parents
        ((sweep hierarchy.parents (order ++ [node]))^[rounds + 1] levels) node =
      (sweep hierarchy.parents (order ++ [node]))^[rounds + 1] levels node := by
  rw [Function.iterate_succ_apply', sweep, List.foldl_append, List.foldl_cons, List.foldl_nil,
    relax_self]
  have parents : ∀ former : α → Option Nat, (hierarchy.parents node).filterMap
      (relax hierarchy.parents former node) = (hierarchy.parents node).filterMap former := by
    intro former
    refine List.filterMap_congr ?_
    intro parent listed
    refine relax_ne ?_
    intro same
    exact hierarchy.irreflexive node (same ▸ listed)
  simp only [relaxed, parents]
  split
  · rw [relax_self]
    simp only [relaxed]
    rename_i lacking
    rw [lacking]
  · rfl

/-- If the levels do not depend on the order of the visits, no cycle can be reached from a
root. -/
theorem grounded_of_alike {rounds : Nat} {final : α → Option Nat}
    (alike : ∀ order, order.Perm hierarchy.nodes →
      (sweep hierarchy.parents order)^[rounds + 1] hierarchy.start = final) :
    hierarchy.Grounded := by
  have rooted : ∀ node, hierarchy.Root node → ∃ length, final node = some length := by
    intro node root
    have level : hierarchy.start node = some 0 := if_pos root
    rw [← alike hierarchy.nodes (.refl _)]
    exact isSome_iterate ⟨0, level⟩ _
  have fixed : ∀ node ∈ hierarchy.nodes, relaxed hierarchy.parents final node = final node := by
    intro node listed
    obtain ⟨front, back, split⟩ := List.append_of_mem listed
    have last : (front ++ back ++ [node]).Perm hierarchy.nodes := by
      rw [split]
      exact (List.perm_append_singleton node _).trans List.perm_middle.symm
    have visited := @relaxed_sweep_concat _ hierarchy node _ hierarchy.start (front ++ back) rounds
    rwa [alike _ last] at visited
  exact grounded_of_fixed rooted fixed

end Hierarchy

end Univiz.Data

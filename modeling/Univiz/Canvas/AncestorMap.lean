import Univiz.Canvas.EdgeProjection

namespace Univiz.Canvas

/-! The `ancestorMap` that a full rebuild computes. -/

/-- The node under which a node is shown: itself if all its ancestors are expanded, and
else the topmost one that is not. -/
def visibleAnchor (expandedNodes : List String) :
    (path : List HierarchyNode) → HierarchyNode → String
  | [], node => node.id
  | ancestor :: path, node =>
      if ancestor.id ∈ expandedNodes then visibleAnchor expandedNodes path node else ancestor.id

variable {expandedNodes : List String} {entries : List Assignment} {map : AncestorMap}
  {key anchor : String} {node other : HierarchyNode} {path : List HierarchyNode}

theorem assign_of_mem (member : key ∈ node.keys) : assign map (node, anchor) key = some anchor := by
  simp only [HierarchyNode.keys] at member
  simp only [assign]
  split at member
  · simp only [List.mem_singleton] at member
    simp [member]
  · rename_i urn
    simp only [List.mem_cons, List.not_mem_nil, or_false] at member
    simp only [urn, ↓reduceIte, Function.update_apply]
    rcases member with rfl | rfl <;> simp

theorem assign_of_notMem (absent : key ∉ node.keys) : assign map (node, anchor) key = map key := by
  simp only [HierarchyNode.keys] at absent
  simp only [assign]
  split at absent
  · rename_i urn
    simp only [List.mem_singleton] at absent
    simp [urn, absent]
  · rename_i urn
    simp only [List.mem_cons, List.not_mem_nil, or_false, not_or] at absent
    simp [urn, absent]

theorem assignAll_of_notMem (absent : ∀ entry ∈ entries, key ∉ entry.1.keys) :
    assignAll map entries key = map key := by
  induction entries generalizing map with
  | nil => rfl
  | cons entry rest ih =>
      obtain ⟨first, later⟩ := List.forall_mem_cons.mp absent
      exact (ih later).trans (assign_of_notMem first)

theorem assignAll_of_mem (set : ∃ entry ∈ entries, key ∈ entry.1.keys)
    (only : ∀ entry ∈ entries, key ∈ entry.1.keys → entry.2 = anchor) :
    assignAll map entries key = some anchor := by
  induction entries generalizing map with
  | nil =>
      obtain ⟨_, member, _⟩ := set
      cases member
  | cons entry rest ih =>
      obtain ⟨first, later⟩ := List.forall_mem_cons.mp only
      by_cases again : ∃ entry ∈ rest, key ∈ entry.1.keys
      · exact ih again later
      · have absent : ∀ entry ∈ rest, key ∉ entry.1.keys :=
          fun entry member inside => again ⟨entry, member, inside⟩
        obtain ⟨found, member, inside⟩ := set
        rcases List.mem_cons.mp member with rfl | member
        · rw [← first inside]
          exact (assignAll_of_notMem absent).trans (assign_of_mem inside)
        · exact absurd inside (absent found member)

theorem assignAll_append {more : List Assignment} :
    assignAll map (entries ++ more) = assignAll (assignAll map entries) more :=
  List.foldl_append

theorem mem_collapseSubtree {root : HierarchyNode} {shown : String} :
    (node, anchor) ∈ collapseSubtree root shown ↔ node ∈ preorder root ∧ anchor = shown := by
  rw [collapseSubtree, List.mem_map]
  constructor
  · rintro ⟨_, member, ⟨⟩⟩
    exact ⟨member, rfl⟩
  · rintro ⟨member, rfl⟩
    exact ⟨node, member, rfl⟩

mutual

theorem mem_expandNode (parent : HierarchyNode) :
    (node, anchor) ∈ expandNode expandedNodes parent ↔
      ∃ path, Below parent.children path node ∧ anchor = visibleAnchor expandedNodes path node := by
  cases parent with
  | node id urn children =>
      rw [expandNode, List.mem_append, mem_expandChildren children, List.mem_flatMap]
      constructor
      · rintro (⟨child, member, set⟩ | ⟨child, member, opened, path, below, rfl⟩)
        · rcases List.mem_cons.mp set with here | deeper
          · obtain ⟨rfl, rfl⟩ := Prod.mk.inj here
            exact ⟨[], member, rfl⟩
          · split at deeper
            · cases deeper
            · rename_i shut
              obtain ⟨grandchild, inside, set⟩ := List.mem_flatMap.mp deeper
              obtain ⟨under, rfl⟩ := mem_collapseSubtree.mp set
              obtain ⟨path, below⟩ := mem_preorderAll_iff_below.mp
                (mem_preorderAll.mpr ⟨grandchild, inside, under⟩)
              exact ⟨child :: path, ⟨member, below⟩, by rw [visibleAnchor, if_neg shut]⟩
        · exact ⟨child :: path, ⟨member, below⟩, by rw [visibleAnchor, if_pos opened]⟩
      · rintro ⟨path, below, rfl⟩
        cases path with
        | nil => exact .inl ⟨node, below, List.mem_cons_self⟩
        | cons child path =>
            obtain ⟨member, below⟩ := below
            by_cases opened : child.id ∈ expandedNodes
            · rw [visibleAnchor, if_pos opened]
              exact .inr ⟨child, member, opened, path, below, rfl⟩
            · left
              obtain ⟨grandchild, inside, under⟩ :=
                mem_preorderAll.mp (mem_preorderAll_of_below below)
              refine ⟨child, member, List.mem_cons_of_mem _ ?_⟩
              rw [visibleAnchor, if_neg opened, if_neg opened]
              exact List.mem_flatMap.mpr ⟨grandchild, inside, mem_collapseSubtree.mpr ⟨under, rfl⟩⟩

theorem mem_expandChildren (children : List HierarchyNode) :
    (node, anchor) ∈ expandChildren expandedNodes children ↔
      ∃ child ∈ children, child.id ∈ expandedNodes ∧ ∃ path, Below child.children path node ∧
        anchor = visibleAnchor expandedNodes path node := by
  cases children with
  | nil => simp [expandChildren]
  | cons child rest =>
      rw [expandChildren, List.mem_append, mem_expandChildren rest]
      have first : (node, anchor) ∈ (if child.id ∈ expandedNodes then
          expandNode expandedNodes child else []) ↔
          child.id ∈ expandedNodes ∧ ∃ path, Below child.children path node ∧
            anchor = visibleAnchor expandedNodes path node := by
        split
        · rename_i opened
          rw [mem_expandNode child]
          simp [opened]
        · rename_i shut
          simp [shut]
      rw [first]
      simp [or_comm]

end

mutual

theorem mem_anchored_hidden {shown : String} (mark : shown ≠ useChildId) (root : HierarchyNode)
    (hidden : ∀ below ∈ preorder root, below.id ≠ shown) :
    (node, anchor) ∈ anchored expandedNodes shown root ↔
      node ∈ preorder root ∧ anchor = shown := by
  cases root with
  | node id urn children =>
      obtain ⟨here, deeper⟩ := List.forall_mem_cons.mp hidden
      have apart : id ≠ shown := here
      rw [anchored, List.mem_cons, if_neg apart,
        mem_anchoredChildren_hidden mark children deeper, preorder, List.mem_cons]
      constructor
      · rintro (same | ⟨member, rfl⟩)
        · obtain ⟨rfl, rfl⟩ := Prod.mk.inj same
          exact ⟨.inl rfl, rfl⟩
        · exact ⟨.inr member, rfl⟩
      · rintro ⟨rfl | member, rfl⟩
        · exact .inl rfl
        · exact .inr ⟨member, rfl⟩

theorem mem_anchoredChildren_hidden {shown : String} (mark : shown ≠ useChildId)
    (roots : List HierarchyNode) (hidden : ∀ below ∈ preorderAll roots, below.id ≠ shown) :
    (node, anchor) ∈ anchoredChildren expandedNodes shown roots ↔
      node ∈ preorderAll roots ∧ anchor = shown := by
  cases roots with
  | nil => simp [anchoredChildren, preorderAll]
  | cons root rest =>
      obtain ⟨first, later⟩ := List.forall_mem_append.mp hidden
      rw [anchoredChildren, if_neg mark, List.mem_append, mem_anchored_hidden mark root first,
        mem_anchoredChildren_hidden mark rest later, preorderAll, List.mem_append, ← or_and_right]

end

/-- No node of the forest has the id that stands for the anchors of the children. -/
def Plain (roots : List HierarchyNode) : Prop := ∀ node ∈ preorderAll roots, node.id ≠ useChildId

mutual

theorem mem_anchored (root : HierarchyNode)
    (plain : ∀ below ∈ preorder root, below.id ≠ useChildId)
    (distinct : (preorder root).Pairwise Apart) :
    (node, anchor) ∈ anchored expandedNodes root.id root ↔
      node = root ∧ anchor = root.id ∨
        ∃ path, Below root.children path node ∧
          anchor = visibleAnchor expandedNodes (root :: path) node := by
  cases root with
  | node id urn children =>
      obtain ⟨mark, plain⟩ := List.forall_mem_cons.mp plain
      obtain ⟨apart, distinct⟩ := List.pairwise_cons.mp distinct
      have first : (node, anchor) = (.node id urn children, id) ↔
          node = .node id urn children ∧ anchor = id := Prod.mk.injEq _ _ _ _ ▸ Iff.rfl
      have root_id : (HierarchyNode.node id urn children).id = id := rfl
      rw [root_id, anchored, List.mem_cons, first, if_pos rfl]
      apply or_congr_right
      by_cases opened : id ∈ expandedNodes
      · rw [if_pos opened, mem_anchoredChildren children plain distinct]
        simp only [visibleAnchor, root_id, opened, ↓reduceIte, HierarchyNode.children]
      · have hidden : ∀ below ∈ preorderAll children, below.id ≠ id := by
          intro below member same
          exact apart below member id (HierarchyNode.id_mem_keys (.node id urn children))
            (same ▸ below.id_mem_keys)
        have known : id ≠ useChildId := mark
        rw [if_neg opened, mem_anchoredChildren_hidden known children hidden]
        simp only [visibleAnchor, root_id, opened, ↓reduceIte, HierarchyNode.children,
          mem_preorderAll_iff_below, exists_and_right]

theorem mem_anchoredChildren (roots : List HierarchyNode)
    (plain : Plain roots) (distinct : (preorderAll roots).Pairwise Apart) :
    (node, anchor) ∈ anchoredChildren expandedNodes useChildId roots ↔
      ∃ path, Below roots path node ∧ anchor = visibleAnchor expandedNodes path node := by
  cases roots with
  | nil =>
      constructor
      · intro member
        cases member
      · rintro ⟨path, below, -⟩
        cases path with
        | nil => cases below
        | cons ancestor path => cases below.1
  | cons root rest =>
      obtain ⟨plainFirst, plainLater⟩ := List.forall_mem_append.mp plain
      obtain ⟨first, later, -⟩ := List.pairwise_append.mp distinct
      rw [anchoredChildren, if_pos rfl, List.mem_append, mem_anchored root plainFirst first,
        mem_anchoredChildren rest plainLater later]
      constructor
      · rintro ((⟨rfl, rfl⟩ | ⟨path, below, rfl⟩) | ⟨path, below, rfl⟩)
        · exact ⟨[], List.mem_cons_self, rfl⟩
        · exact ⟨root :: path, ⟨List.mem_cons_self, below⟩, rfl⟩
        · exact ⟨path, below.mono (List.subset_cons_self root rest), rfl⟩
      · rintro ⟨path, below, rfl⟩
        cases path with
        | nil =>
            rcases List.mem_cons.mp below with rfl | later
            · exact .inl (.inl ⟨rfl, rfl⟩)
            · exact .inr ⟨[], later, rfl⟩
        | cons ancestor path =>
            obtain ⟨member, below⟩ := below
            rcases List.mem_cons.mp member with rfl | later
            · exact .inl (.inr ⟨path, below, rfl⟩)
            · exact .inr ⟨ancestor :: path, ⟨later, below⟩, rfl⟩

end

variable {nodesByLayer : NodesByLayer} {displayFlat : List HierarchyNode} {id : String}

theorem flatMap_anchored (roots : List HierarchyNode) :
    (roots.flatMap fun root => anchored expandedNodes root.id root) =
      anchoredChildren expandedNodes useChildId roots := by
  induction roots with
  | nil => rfl
  | cons root rest ih =>
      rw [List.flatMap_cons, ih, anchoredChildren, if_pos rfl]

theorem setIfAbsent_of_some (set : map key = some anchor) (other id : String) :
    setIfAbsent map other id key = some anchor := by
  simp only [setIfAbsent]
  split
  · exact set
  · rename_i absent
    have apart : key ≠ other := by
      rintro rfl
      simp [set] at absent
    rw [Function.update_of_ne apart, set]

theorem displayFlat_of_some (set : map key = some anchor) :
    displayFlat.foldl (fun map node =>
      let withId := setIfAbsent map node.id node.id
      if node.urn = "" then withId else setIfAbsent withId node.urn node.id) map key =
        some anchor := by
  induction displayFlat generalizing map with
  | nil => exact set
  | cons node rest ih =>
      apply ih
      have withId := setIfAbsent_of_some set node.id node.id
      dsimp only
      split
      · exact withId
      · exact setIfAbsent_of_some withId node.urn node.id

/-- The full rebuild maps every id and urn of the trees to its visible anchor. -/
theorem buildFullAncestorMap_below (plain : Plain nodesByLayer.roots)
    (below : Below nodesByLayer.roots path node) (member : key ∈ node.keys) :
    buildFullAncestorMap nodesByLayer expandedNodes displayFlat key =
      some (visibleAnchor expandedNodes path node) := by
  simp only [buildFullAncestorMap]
  apply displayFlat_of_some
  rw [flatMap_anchored]
  have entry : ∀ {found : HierarchyNode} {anchor : String},
      (found, anchor) ∈ anchoredChildren expandedNodes useChildId nodesByLayer.roots ↔
        ∃ path, Below nodesByLayer.roots path found ∧
          anchor = visibleAnchor expandedNodes path found :=
    mem_anchoredChildren nodesByLayer.roots plain nodesByLayer.distinct
  apply assignAll_of_mem
  · exact ⟨(node, _), entry.mpr ⟨path, below, rfl⟩, member⟩
  · intro other set shared
    obtain ⟨path', below', same⟩ := entry.mp set
    obtain ⟨rfl, rfl⟩ := below_unique nodesByLayer.distinct below below' member shared
    exact same

end Univiz.Canvas

import Mathlib.Data.List.Basic
import Mathlib.Data.List.Induction
import Univiz.Canvas.AncestorMap
import Univiz.Data.Transition

namespace Univiz.Canvas

open Univiz.Data

/-! The patched `ancestorMap` against a full rebuild. -/

variable {expandedNodes : List String} {entries : List Assignment} {map : AncestorMap}
  {key anchor id : String} {node : HierarchyNode} {path : List HierarchyNode}
  {nodesByLayer : NodesByLayer} {displayFlat : List HierarchyNode}

theorem index_of_notMem {nodes : List HierarchyNode} {index : String → Option HierarchyNode}
    (absent : ∀ node ∈ nodes, node.id ≠ id) :
    nodes.foldl (fun (index : String → Option HierarchyNode) (node : HierarchyNode) =>
      Function.update index node.id (some node)) index id = index id := by
  induction nodes generalizing index with
  | nil => rfl
  | cons node rest ih =>
      obtain ⟨first, later⟩ := List.forall_mem_cons.mp absent
      rw [List.foldl_cons, ih later, Function.update_of_ne first.symm]

theorem index_of_mem {nodes : List HierarchyNode} {index : String → Option HierarchyNode}
    (member : node ∈ nodes) (distinct : nodes.Pairwise Apart) :
    nodes.foldl (fun (index : String → Option HierarchyNode) (node : HierarchyNode) =>
      Function.update index node.id (some node)) index node.id = some node := by
  induction nodes generalizing index with
  | nil => cases member
  | cons head rest ih =>
      obtain ⟨apart, later⟩ := List.pairwise_cons.mp distinct
      rcases List.mem_cons.mp member with rfl | member
      · have absent : ∀ other ∈ rest, other.id ≠ node.id := by
          intro other inside same
          exact apart other inside node.id node.id_mem_keys (same ▸ other.id_mem_keys)
        rw [List.foldl_cons, index_of_notMem absent, Function.update_self]
      · exact ih member later

theorem buildNodeIndex_of_mem (member : node ∈ preorderAll nodesByLayer.roots) :
    buildNodeIndex nodesByLayer node.id = some node :=
  index_of_mem member nodesByLayer.distinct

theorem buildNodeIndex_of_notMem
    (absent : ∀ node ∈ preorderAll nodesByLayer.roots, node.id ≠ id) :
    buildNodeIndex nodesByLayer id = none :=
  index_of_notMem absent

/-- The rest of a path from the node with an id on. -/
def pathFrom (id : String) (path : List HierarchyNode) : List HierarchyNode :=
  path.dropWhile fun ancestor => ancestor.id ≠ id

/-- The entries of a patch for a node: everything below it, under its visible anchor as
far as that can be told from the node. -/
def Patches (expandedNodes : List String) (changed : HierarchyNode) (entries : List Assignment) :
    Prop :=
  ∀ node anchor, (node, anchor) ∈ entries ↔
    ∃ path, Below changed.children path node ∧
      anchor = visibleAnchor expandedNodes (changed :: path) node

variable {changed : HierarchyNode}

theorem patches_collapse (shut : changed.id ∉ expandedNodes) :
    Patches expandedNodes changed
      (changed.children.flatMap fun child => collapseSubtree child changed.id) := by
  intro node anchor
  simp only [visibleAnchor, shut, ↓reduceIte, List.mem_flatMap, mem_collapseSubtree,
    exists_and_right, ← mem_preorderAll_iff_below, mem_preorderAll]
  constructor
  · rintro ⟨child, member, inside, rfl⟩
    exact ⟨⟨child, member, inside⟩, rfl⟩
  · rintro ⟨⟨child, member, inside⟩, rfl⟩
    exact ⟨child, member, inside, rfl⟩

theorem patches_expand (opened : changed.id ∈ expandedNodes) :
    Patches expandedNodes changed (expandNode expandedNodes changed) := by
  intro node anchor
  rw [mem_expandNode]
  simp only [visibleAnchor, opened, ↓reduceIte]

theorem exists_split_of_mem (above : id ∈ path.map HierarchyNode.id) :
    ∃ before after, path = before ++ pathFrom id path ∧
      ∃ ancestor, ancestor.id = id ∧ pathFrom id path = ancestor :: after := by
  induction path with
  | nil => cases above
  | cons head path ih =>
      simp only [pathFrom]
      rw [List.dropWhile_cons]
      by_cases here : head.id = id
      · rw [if_neg (by simp [here])]
        exact ⟨[], path, rfl, head, here, rfl⟩
      · rw [if_pos (by simp [here])]
        have deeper : id ∈ path.map HierarchyNode.id := by
          rcases List.mem_cons.mp above with same | deeper
          · exact absurd same.symm here
          · exact deeper
        obtain ⟨before, after, split, ancestor, same, tail⟩ := ih deeper
        exact ⟨head :: before, after, congrArg (head :: ·) split, ancestor, same, tail⟩

theorem assignAll_patches (patches : Patches expandedNodes changed entries)
    (inside : changed ∈ preorderAll nodesByLayer.roots)
    (below : Below nodesByLayer.roots path node) (member : key ∈ node.keys) :
    assignAll map entries key = if changed.id ∈ path.map HierarchyNode.id then
      some (visibleAnchor expandedNodes (pathFrom changed.id path) node) else map key := by
  obtain ⟨place, found⟩ := mem_preorderAll_iff_below.mp inside
  -- An entry with the key is for the node, so its path goes through the changed node.
  have through : ∀ {other : HierarchyNode} {rest : List HierarchyNode},
      Below changed.children rest other → key ∈ other.keys →
        path = place ++ changed :: rest ∧ node = other := by
    intro other rest deeper shared
    exact below_unique nodesByLayer.distinct below (below_append.mpr ⟨found, deeper⟩) member shared
  split
  · rename_i above
    obtain ⟨before, after, split, ancestor, same, tail⟩ := exists_split_of_mem above
    rw [tail] at split ⊢
    have parts := below
    rw [split] at parts
    obtain ⟨here, deeper⟩ := below_append.mp parts
    obtain ⟨rfl, rfl⟩ := below_unique nodesByLayer.distinct here found ancestor.id_mem_keys
      (same ▸ changed.id_mem_keys)
    apply assignAll_of_mem
    · exact ⟨(node, _), (patches node _).mpr ⟨after, deeper, rfl⟩, member⟩
    · intro ⟨other, anchor⟩ set shared
      obtain ⟨rest, deeper', rfl⟩ := (patches other anchor).mp set
      obtain ⟨whole, rfl⟩ := through deeper' shared
      rw [split] at whole
      rw [(List.append_cancel_left whole)]
  · rename_i apart
    apply assignAll_of_notMem
    intro ⟨other, anchor⟩ set shared
    obtain ⟨rest, deeper, -⟩ := (patches other anchor).mp set
    obtain ⟨rfl, -⟩ := through deeper shared
    simp at apart

namespace Projection

/-- The patch for a changed id, in either of the two loops. -/
def patch (nodesByLayer : NodesByLayer) (expandedNodes : List String) (map : AncestorMap)
    (id : String) : AncestorMap :=
  if id ∈ expandedNodes then patchExpanded nodesByLayer expandedNodes map id
  else patchCollapsed nodesByLayer map id

theorem foldl_collapseSubtreeInMap {children : List HierarchyNode} :
    children.foldl (fun map child => collapseSubtreeInMap child id map) map =
      assignAll map (children.flatMap fun child => collapseSubtree child id) := by
  induction children generalizing map with
  | nil => rfl
  | cons child rest ih =>
      rw [List.foldl_cons, ih, List.flatMap_cons, assignAll_append]
      rfl

theorem patch_below (below : Below nodesByLayer.roots path node) (member : key ∈ node.keys) :
    patch nodesByLayer expandedNodes map id key = if id ∈ path.map HierarchyNode.id then
      some (visibleAnchor expandedNodes (pathFrom id path) node) else map key := by
  by_cases known : ∃ changed ∈ preorderAll nodesByLayer.roots, changed.id = id
  · obtain ⟨changed, inside, rfl⟩ := known
    have lookup := buildNodeIndex_of_mem inside
    simp only [patch]
    split
    · rename_i opened
      rw [patchExpanded, lookup]
      exact assignAll_patches (patches_expand opened) inside below member
    · rename_i shut
      rw [patchCollapsed, lookup]
      dsimp only
      rw [foldl_collapseSubtreeInMap]
      exact assignAll_patches (patches_collapse shut) inside below member
  · have absent : ∀ other ∈ preorderAll nodesByLayer.roots, other.id ≠ id :=
      fun other inside same => known ⟨other, inside, same⟩
    have apart : id ∉ path.map HierarchyNode.id := by
      intro above
      obtain ⟨before, after, split, ancestor, same, tail⟩ := exists_split_of_mem above
      rw [split, tail] at below
      exact absent ancestor (mem_preorderAll_of_below (below_append.mp below).1) same
    have lookup := buildNodeIndex_of_notMem absent
    rw [if_neg apart, patch, patchExpanded, patchCollapsed, lookup]
    simp

/-- The ids for which a render patches the map, in this order. -/
def changes (prev expandedNodes : List String) : List String :=
  collapsed prev expandedNodes ++ expanded prev expandedNodes

theorem mem_changes {prev : List String} :
    id ∈ changes prev expandedNodes ↔
      id ∈ prev ∧ id ∉ expandedNodes ∨ id ∈ expandedNodes ∧ id ∉ prev := by
  simp [changes, collapsed, expanded]

theorem render_ancestorMap (projection : Projection) :
    (render nodesByLayer projection expandedNodes).ancestorMap =
      (changes projection.prevExpandedNodes expandedNodes).foldl
        (patch nodesByLayer expandedNodes) projection.ancestorMap := by
  have collapses : ∀ map, (collapsed projection.prevExpandedNodes expandedNodes).foldl
      (patch nodesByLayer expandedNodes) map =
      (collapsed projection.prevExpandedNodes expandedNodes).foldl
        (patchCollapsed nodesByLayer) map := by
    intro map
    apply List.foldl_ext
    intro map id member
    have shut : id ∉ expandedNodes := by simpa using (List.mem_filter.mp member).2
    rw [patch, if_neg shut]
  have expansions : ∀ map, (expanded projection.prevExpandedNodes expandedNodes).foldl
      (patch nodesByLayer expandedNodes) map =
      (expanded projection.prevExpandedNodes expandedNodes).foldl
        (patchExpanded nodesByLayer expandedNodes) map := by
    intro map
    apply List.foldl_ext
    intro map id member
    rw [patch, if_pos (List.mem_filter.mp member).1]
  rw [changes, List.foldl_append, collapses, expansions]
  simp only [render]
  split
  · rename_i same
    simp only [List.isEmpty_iff] at same
    simp [same.1, same.2]
  · rfl

def lastChange (changes : List String) (path : List HierarchyNode) : Option String :=
  changes.reverse.find? fun id => id ∈ path.map HierarchyNode.id

theorem foldl_patch_below {changes : List String} (below : Below nodesByLayer.roots path node)
    (member : key ∈ node.keys) :
    changes.foldl (patch nodesByLayer expandedNodes) map key =
      match lastChange changes path with
      | some id => some (visibleAnchor expandedNodes (pathFrom id path) node)
      | none => map key := by
  induction changes using List.reverseRecOn with
  | nil => rfl
  | append_singleton changes id ih =>
      rw [List.foldl_append, List.foldl_cons, List.foldl_nil, patch_below below member, ih]
      simp only [lastChange]
      rw [List.reverse_append, List.reverse_singleton, List.singleton_append, List.find?_cons]
      by_cases above : id ∈ path.map HierarchyNode.id
      · simp [above]
      · simp [above]

theorem visibleAnchor_mem :
    visibleAnchor expandedNodes path node ∈ (path ++ [node]).map HierarchyNode.id := by
  induction path with
  | nil => simp [visibleAnchor]
  | cons head path ih =>
      simp only [visibleAnchor]
      split
      · exact List.mem_cons_of_mem _ ih
      · exact List.mem_cons_self

theorem visibleAnchor_congr {prev : List String}
    (same : ∀ ancestor ∈ path, ancestor.id ∈ prev ↔ ancestor.id ∈ expandedNodes) :
    visibleAnchor prev path node = visibleAnchor expandedNodes path node := by
  induction path with
  | nil => rfl
  | cons head path ih =>
      obtain ⟨first, later⟩ := List.forall_mem_cons.mp same
      simp only [visibleAnchor, first, ih later]

theorem visibleAnchor_pathFrom (distinct : ((path ++ [node]).map HierarchyNode.id).Nodup)
    (above : id ∈ path.map HierarchyNode.id) :
    visibleAnchor expandedNodes (pathFrom id path) node = visibleAnchor expandedNodes path node ↔
      ∀ ancestor ∈ path.takeWhile fun ancestor => ancestor.id ≠ id,
        ancestor.id ∈ expandedNodes := by
  induction path with
  | nil => cases above
  | cons head path ih =>
      obtain ⟨fresh, distinct⟩ := List.nodup_cons.mp distinct
      simp only [pathFrom]
      rw [List.dropWhile_cons, List.takeWhile_cons]
      by_cases here : head.id = id
      · simp [here]
      · have deeper : id ∈ path.map HierarchyNode.id := by
          rcases List.mem_cons.mp above with same | deeper
          · exact absurd same.symm here
          · exact deeper
        rw [if_pos (by simp [here]), if_pos (by simp [here]), List.forall_mem_cons,
          ← ih distinct deeper, visibleAnchor]
        by_cases opened : head.id ∈ expandedNodes
        · rw [if_pos opened]
          exact (and_iff_right opened).symm
        · rw [if_neg opened]
          constructor
          · intro same
            obtain ⟨before, after, split, -⟩ := exists_split_of_mem deeper
            have found : visibleAnchor expandedNodes (pathFrom id path) node ∈
                (pathFrom id path ++ [node]).map HierarchyNode.id := visibleAnchor_mem
            have suffix : pathFrom id path ++ [node] ⊆ path ++ [node] :=
              List.append_subset.mpr ⟨fun other member =>
                List.mem_append_left _ ((List.dropWhile_suffix _).subset member),
                List.subset_append_right _ _⟩
            exact absurd (List.map_subset _ suffix (same ▸ found)) fresh
          · intro ⟨expanded, _⟩
            exact absurd expanded opened

theorem nodup_of_below {roots : List HierarchyNode} (distinct : (preorderAll roots).Pairwise Apart)
    (below : Below roots path node) : ((path ++ [node]).map HierarchyNode.id).Nodup := by
  induction path generalizing roots with
  | nil => simp
  | cons head path ih =>
      obtain ⟨member, below⟩ := below
      obtain ⟨apart, distinct⟩ := List.pairwise_cons.mp (pairwise_children distinct member)
      have inside : ∀ other ∈ path ++ [node], other ∈ preorderAll head.children := by
        intro other member
        rcases List.mem_append.mp member with early | last
        · obtain ⟨before, after, rfl⟩ := List.append_of_mem early
          exact mem_preorderAll_of_below (below_append.mp below).1
        · cases List.mem_singleton.mp last
          exact mem_preorderAll_of_below below
      refine List.nodup_cons.mpr ⟨?_, ih distinct below⟩
      intro again
      obtain ⟨other, member, same⟩ := List.mem_map.mp again
      exact apart other (inside other member) head.id head.id_mem_keys (same ▸ other.id_mem_keys)

/-- For every node, the last of the changed ids above it is itself shown: all of what is
above that id is expanded. -/
def LastChangesShown (nodesByLayer : NodesByLayer) (projection : Projection)
    (expandedNodes : List String) : Prop :=
  ∀ place ∈ places [] nodesByLayer.roots,
    ∀ id ∈ lastChange (changes projection.prevExpandedNodes expandedNodes) place.1,
      ∀ ancestor ∈ place.1.takeWhile fun ancestor => ancestor.id ≠ id, ancestor.id ∈ expandedNodes

instance {projection : Projection} : DecidablePred (LastChangesShown nodesByLayer projection) :=
  fun _ => inferInstanceAs (Decidable (∀ place ∈ places [] nodesByLayer.roots, _))

/-- The map has for every id and urn of the trees what a full rebuild has, which is the
visible anchor of the node. -/
def Agrees (nodesByLayer : NodesByLayer) (projection : Projection) : Prop :=
  ∀ place ∈ places [] nodesByLayer.roots, ∀ key ∈ place.2.keys, ∀ displayFlat,
    projection.ancestorMap key =
        buildFullAncestorMap nodesByLayer projection.prevExpandedNodes displayFlat key ∧
      projection.ancestorMap key = some (visibleAnchor projection.prevExpandedNodes place.1 place.2)

variable {projection : Projection}

theorem mem_places_nil {roots : List HierarchyNode} :
    (path, node) ∈ places [] roots ↔ Below roots path node := by
  rw [mem_places]
  simp

theorem agrees_iff (plain : Plain nodesByLayer.roots) : Agrees nodesByLayer projection ↔
    ∀ path node, Below nodesByLayer.roots path node → ∀ key ∈ node.keys,
      projection.ancestorMap key = some (visibleAnchor projection.prevExpandedNodes path node) := by
  constructor
  · intro agrees path node below key member
    exact (agrees (path, node) (mem_places_nil.mpr below) key member []).2
  · intro anchors ⟨path, node⟩ place key member displayFlat
    have below := mem_places_nil.mp place
    have anchor := anchors path node below key member
    exact ⟨anchor.trans (buildFullAncestorMap_below plain below member).symm, anchor⟩

theorem rebuild_agrees (plain : Plain nodesByLayer.roots) :
    Agrees nodesByLayer (rebuild nodesByLayer displayFlat expandedNodes) :=
  (agrees_iff plain).mpr fun _ _ below _ member => buildFullAncestorMap_below plain below member

theorem render_prevExpandedNodes :
    (render nodesByLayer projection expandedNodes).prevExpandedNodes = expandedNodes := by
  simp only [render]
  split <;> rfl

/-- A render gives a node its visible anchor if the last change above it is shown. -/
theorem render_below (below : Below nodesByLayer.roots path node) (member : key ∈ node.keys)
    (before : projection.ancestorMap key =
      some (visibleAnchor projection.prevExpandedNodes path node)) :
    (render nodesByLayer projection expandedNodes).ancestorMap key =
        some (visibleAnchor expandedNodes path node) ↔
      ∀ id ∈ lastChange (changes projection.prevExpandedNodes expandedNodes) path,
        ∀ ancestor ∈ path.takeWhile fun ancestor => ancestor.id ≠ id,
          ancestor.id ∈ expandedNodes := by
  rw [render_ancestorMap, foldl_patch_below below member]
  cases last : lastChange (changes projection.prevExpandedNodes expandedNodes) path with
  | none =>
      have kept : ∀ ancestor ∈ path,
          ancestor.id ∈ projection.prevExpandedNodes ↔ ancestor.id ∈ expandedNodes := by
        intro ancestor inside
        have unchanged : ancestor.id ∉ changes projection.prevExpandedNodes expandedNodes := by
          intro changed
          have above := List.find?_eq_none.mp last ancestor.id (List.mem_reverse.mpr changed)
          exact above (decide_eq_true (List.mem_map_of_mem inside))
        rw [mem_changes] at unchanged
        tauto
      simp [before, visibleAnchor_congr kept]
  | some id =>
      have found := List.find?_some last
      have above : id ∈ path.map HierarchyNode.id := of_decide_eq_true found
      have distinct := nodup_of_below nodesByLayer.distinct below
      simpa using visibleAnchor_pathFrom distinct above

theorem render_agrees_iff (plain : Plain nodesByLayer.roots)
    (agrees : Agrees nodesByLayer projection) :
    Agrees nodesByLayer (render nodesByLayer projection expandedNodes) ↔
      LastChangesShown nodesByLayer projection expandedNodes := by
  have before := (agrees_iff plain).mp agrees
  rw [agrees_iff plain, render_prevExpandedNodes]
  constructor
  · intro after ⟨path, node⟩ place
    have below := mem_places_nil.mp place
    have own := node.id_mem_keys
    exact (render_below below own (before path node below _ own)).mp (after path node below _ own)
  · intro shown path node below key member
    have last := shown (path, node) (mem_places_nil.mpr below)
    exact (render_below below member (before path node below key member)).mpr last

/-- The patched map is the one of a full rebuild after every render if and only if, in
every render, the last changed id above each node is shown. -/
theorem patched_iff_shown (nodesByLayer : NodesByLayer) (displayFlat : List HierarchyNode)
    (plain : Plain nodesByLayer.roots) (initial : List String) (renders : List (List String)) :
    Always (fun projection expandedNodes => some (render nodesByLayer projection expandedNodes))
        (Agrees nodesByLayer) (rebuild nodesByLayer displayFlat initial) renders ↔
      Meets (fun projection expandedNodes => some (render nodesByLayer projection expandedNodes))
        (LastChangesShown nodesByLayer) (rebuild nodesByLayer displayFlat initial) renders := by
  apply always_iff_meets fun _ => True
  · intro _ _ _ _ _
    trivial
  · intro projection expandedNodes _ agrees
    rw [← render_agrees_iff plain agrees]
    simp
  · trivial
  · exact rebuild_agrees plain

def columnInSchema : NodesByLayer where
  layers := [("source", [.node "schema" "urn:schema" [.node "table" "urn:table"
    [.node "column" "urn:column" []]]])]
  distinct := by decide

theorem columnInSchema_plain : Plain columnInSchema.roots := by
  simp only [Plain]
  decide

/-- The schema is expanded, then the table, and then they are collapsed one by one from
the inside. -/
theorem patched_stepwise :
    Meets (fun projection expandedNodes => some (render columnInSchema projection expandedNodes))
        (LastChangesShown columnInSchema) (rebuild columnInSchema [] [])
        [["schema"], ["schema", "table"], ["schema"], []] ∧
      Always (fun projection expandedNodes => some (render columnInSchema projection expandedNodes))
        (Agrees columnInSchema) (rebuild columnInSchema [] [])
        [["schema"], ["schema", "table"], ["schema"], []] := by
  have shown : Meets
      (fun projection expandedNodes => some (render columnInSchema projection expandedNodes))
      (LastChangesShown columnInSchema) (rebuild columnInSchema [] [])
      [["schema"], ["schema", "table"], ["schema"], []] := by decide
  exact ⟨shown, (patched_iff_shown columnInSchema [] columnInSchema_plain [] _).mpr shown⟩

/-- Both are collapsed at once: the column stays under the table, which is hidden. -/
theorem patched_not_collapsed :
    ¬ ∀ (nodesByLayer : NodesByLayer) (displayFlat : List HierarchyNode) (initial : List String)
      (renders : List (List String)), Plain nodesByLayer.roots →
      Always (fun projection expandedNodes => some (render nodesByLayer projection expandedNodes))
        (Agrees nodesByLayer) (rebuild nodesByLayer displayFlat initial) renders := by
  intro always
  have agrees := always columnInSchema [] ["schema", "table"] [[]] columnInSchema_plain
  have rendered := agrees.2 _ rfl
  have wrong := (agrees_iff columnInSchema_plain).mp rendered
    [.node "schema" "urn:schema" [.node "table" "urn:table" [.node "column" "urn:column" []]],
      .node "table" "urn:table" [.node "column" "urn:column" []]]
    (.node "column" "urn:column" [])
    ⟨List.mem_cons_self, List.mem_cons_self, List.mem_cons_self⟩ "column" (by decide)
  revert wrong
  decide

end Projection

end Univiz.Canvas

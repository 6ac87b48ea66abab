import Univiz.LayerTrees.Trees

namespace Univiz.LayerTrees

open Univiz.Data

/-! What the trees of a layer are: they unfold the containment within the layer, among the nodes
that are there. -/

namespace Options

variable (options : Options) (runtime : Runtime)

def ids : List String := options.nodes.map Node.id

/-- One node contains another, and both are in one layer. -/
def Holds (container nodeId : String) : Prop :=
  nodeId ∈ options.childrenOf runtime container ∧
    options.layerOf runtime nodeId = options.layerOf runtime container

instance (container nodeId : String) : Decidable (options.Holds runtime container nodeId) :=
  inferInstanceAs (Decidable (_ ∧ _))

def next (container : String) : List String :=
  (options.childrenOf runtime container).filter fun nodeId =>
    options.layerOf runtime nodeId = options.layerOf runtime container ∧ nodeId ∈ options.ids

def parentLayer (nodeId : String) : Option String :=
  (truthy (options.parentOf runtime nodeId)).bind (options.layerOf runtime)

/-- A node of a layer whose parent is not in it. -/
def IsVisualRoot (layerId nodeId : String) : Prop :=
  options.layerOf runtime nodeId = some layerId ∧
    options.parentLayer runtime nodeId ≠ some layerId

instance (layerId nodeId : String) : Decidable (options.IsVisualRoot runtime layerId nodeId) :=
  inferInstanceAs (Decidable (_ ∧ _))

def visualRoots (layerId : String) : List String :=
  options.ids.filter fun nodeId => options.IsVisualRoot runtime layerId nodeId

/-- A hierarchy node stands for a node of the layer, and its children for those that it holds. -/
structure Faithful (layerId : String) (node : HierarchyNode) : Prop where
  present : node.label.id ∈ options.ids
  layer : options.layerOf runtime node.label.id = some layerId
  plain : node.label.isLogical = false
  children : (node.children.map fun child => child.label.id).Perm
    (options.next runtime node.label.id)

def Grown (layerId : String) (forest : List HierarchyNode) : Prop :=
  ∀ node ∈ Rose.nodesAll forest, options.Faithful runtime layerId node

variable {options runtime} {container nodeId parentId layerId : String} {rounds : Nat}
  {effectiveLayer : OrderedMap String String} {tree : HierarchyNode} {forest : List HierarchyNode}

theorem mem_next : nodeId ∈ options.next runtime container ↔
    options.Holds runtime container nodeId ∧ nodeId ∈ options.ids := by
  simp only [next, Holds, List.mem_filter, decide_eq_true_eq, and_assoc]

theorem nodup_childrenOf (container : String) : (options.childrenOf runtime container).Nodup :=
  Canvas.fullRebuild_nodup _ _ _ _ _

theorem nodup_next (container : String) : (options.next runtime container).Nodup :=
  (nodup_childrenOf container).filter _

theorem represents : Canvas.Represents (options.maps runtime)
    (Canvas.containments runtime.toUpperCase (fun _ => options.isContainmentEdge) 0
      options.edges) :=
  Canvas.fullRebuild_represents _ _ _ _

theorem mem_childrenOf_of_parentOf (parent : options.parentOf runtime nodeId = some parentId) :
    nodeId ∈ options.childrenOf runtime parentId :=
  represents.mem_children.mpr (represents.pair_of_parent parent)

theorem finite_children :
    {nodeId | ∃ container, nodeId ∈ options.childrenOf runtime container}.Finite := by
  refine Set.Finite.subset (List.finite_toSet ((Canvas.containments runtime.toUpperCase
    (fun _ => options.isContainmentEdge) 0 options.edges).map Prod.snd)) ?_
  rintro nodeId ⟨container, member⟩
  exact List.mem_map.mpr ⟨_, represents.mem_children.mp member, rfl⟩

theorem nodeMap_eq_none : options.nodeMap nodeId = none ↔ nodeId ∉ options.ids := by
  simp only [nodeMap, ids, List.find?_eq_none, decide_eq_true_eq, List.mem_map, not_exists,
    not_and]

theorem id_of_nodeMap {node : Node} (found : options.nodeMap nodeId = some node) :
    node.id = nodeId := by
  simpa using List.find?_some found

/-- The children that the builder goes to below a root of a layer. -/
def childrenIn (options : Options) (runtime : Runtime) (layerId nodeId : String) : List String :=
  (options.childrenOf runtime nodeId).filter fun child =>
    options.layerOf runtime child = some layerId

def Made (options : Options) (runtime : Runtime) (layerId nodeId : String) :
    Option HierarchyNode → Prop
  | none => nodeId ∉ options.ids
  | some tree => tree.label.id = nodeId ∧ nodeId ∈ options.ids ∧
      options.Grown runtime layerId [tree]

theorem made_kids {children : List String} {kids : List (Option HierarchyNode)}
    (inLayer : ∀ child ∈ children, options.layerOf runtime child = some layerId)
    (made : List.Forall₂ (fun child kid => options.layerOf runtime child = some layerId →
      options.Made runtime layerId child kid) children kids) :
    (kids.reduceOption.map fun kid => kid.label.id) =
        children.filter (fun child => child ∈ options.ids) ∧
      options.Grown runtime layerId kids.reduceOption := by
  induction made with
  | nil => exact ⟨rfl, nofun⟩
  | @cons child kid children kids here _ ih =>
      obtain ⟨first, later⟩ := List.forall_mem_cons.mp inLayer
      obtain ⟨ids, grown⟩ := ih later
      have made := here first
      cases kid with
      | none =>
          rw [List.reduceOption_cons_of_none, List.filter_cons_of_neg (by simpa [Made] using made)]
          exact ⟨ids, grown⟩
      | some tree =>
          obtain ⟨same, present, growing⟩ := made
          rw [List.reduceOption_cons_of_some, List.filter_cons_of_pos (by simpa using present),
            List.map_cons, ids, same]
          refine ⟨rfl, ?_⟩
          intro node member
          rcases List.mem_append.mp member with first | later
          · exact growing node (List.mem_append_left _ first)
          · exact grown node later

theorem made_hierarchyNode {kids : List (Option HierarchyNode)} (depth : Nat)
    (inLayer : options.layerOf runtime nodeId = some layerId)
    (made : List.Forall₂ (fun child kid => options.layerOf runtime child = some layerId →
      options.Made runtime layerId child kid) (options.childrenIn runtime layerId nodeId) kids) :
    options.Made runtime layerId nodeId
      (options.hierarchyNode runtime nodeId depth kids.reduceOption.reverse) := by
  obtain ⟨ids, grown⟩ := made_kids (fun child member => by simpa using (List.mem_filter.mp member).2)
    made
  rw [hierarchyNode]
  cases found : options.nodeMap nodeId with
  | none => exact nodeMap_eq_none.mp found
  | some node =>
      have present : nodeId ∈ options.ids := by
        by_contra absent
        rw [nodeMap_eq_none.mpr absent] at found
        cases found
      have sorted : (runtime.sortByName kids.reduceOption.reverse).Perm kids.reduceOption :=
        (sortByName_perm _).trans (List.reverse_perm _)
      refine ⟨id_of_nodeMap found, present, ?_⟩
      intro other member
      rw [Rose.nodesAll, Rose.nodesAll, List.append_nil, Rose.nodes] at member
      rcases List.mem_cons.mp member with rfl | below
      · refine ⟨?_, ?_, rfl, ?_⟩
        · rwa [Rose.label, Node.fields, id_of_nodeMap found]
        · rwa [Rose.label, Node.fields, id_of_nodeMap found]
        · rw [Rose.label, Node.fields, id_of_nodeMap found, Rose.children]
          refine (sorted.map _).trans ?_
          rw [ids, childrenIn, List.filter_filter, next, inLayer]
          refine .of_eq (List.filter_congr fun child _ => ?_)
          rw [Bool.decide_and, Bool.and_comm]
      · exact grown other ((Rose.nodesAll_perm sorted).mem_iff.mp below)

/-- What the builder makes of a visual root. -/
theorem made_of_build (same : ∀ nodeId, effectiveLayer.get nodeId = options.layerOf runtime nodeId)
    (inLayer : options.layerOf runtime nodeId = some layerId) (present : nodeId ∈ options.ids)
    {built : Option HierarchyNode}
    (ends : options.buildHierarchyNode runtime effectiveLayer rounds nodeId = some built) :
    ∃ tree, built = some tree ∧ tree.label.id = nodeId ∧ options.Grown runtime layerId [tree] := by
  cases found : options.nodeMap nodeId with
  | none => exact absurd present (nodeMap_eq_none.mp found)
  | some node =>
      simp only [buildHierarchyNode, found, same, inLayer] at ends
      obtain ⟨order, visited, rfl⟩ := Option.map_eq_some_iff.mp ends
      obtain ⟨results, listed⟩ := listed_of_root (options.hierarchyNode runtime) visited
      have made : List.Forall₂ (fun nodeId made => options.layerOf runtime nodeId = some layerId →
          options.Made runtime layerId nodeId made) [nodeId] results :=
        listed.forall₂ fun nodeId depth kids below inLayer => made_hierarchyNode depth inLayer below
      rw [assemble_of_listed listed] at made
      cases made with
      | cons here _ =>
          have made := here inLayer
          cases result : assemble (options.hierarchyNode runtime) order with
          | none =>
              rw [result] at made
              exact absurd present made
          | some tree =>
              rw [result] at made
              exact ⟨tree, rfl, made.1, made.2.2⟩

/-- No node that is reached within its layer is reached again. -/
def Loopless (options : Options) (runtime : Runtime) (nodeId : String) : Prop :=
  ∀ other, Relation.ReflTransGen (options.Holds runtime) nodeId other →
    ¬ Relation.TransGen (options.Holds runtime) other other

theorem below_iff (inLayer : options.layerOf runtime container = some layerId) :
    Below (options.childrenIn runtime layerId) container nodeId ↔
      options.Holds runtime container nodeId := by
  simp only [Below, childrenIn, List.mem_filter, decide_eq_true_eq, Holds, inLayer]

theorem loopless_iff (inLayer : options.layerOf runtime nodeId = some layerId) :
    (∀ other, Relation.ReflTransGen (Below (options.childrenIn runtime layerId)) nodeId other →
      ¬ Relation.TransGen (Below (options.childrenIn runtime layerId)) other other) ↔
      options.Loopless runtime nodeId := by
  let inside (nodeId : String) : Prop := options.layerOf runtime nodeId = some layerId
  constructor
  · refine loopless_of_agree inside ?_ ?_ inLayer
    · intro container child _ below
      simpa using (List.mem_filter.mp below).2
    · intro container child within
      exact (below_iff within).symm
  · refine loopless_of_agree inside ?_ ?_ inLayer
    · intro container child within holds
      exact holds.2.trans within
    · intro container child within
      exact below_iff within

theorem loopless_of_build
    (same : ∀ nodeId, effectiveLayer.get nodeId = options.layerOf runtime nodeId)
    (inLayer : options.layerOf runtime nodeId = some layerId) (present : nodeId ∈ options.ids)
    {built : Option HierarchyNode}
    (ends : options.buildHierarchyNode runtime effectiveLayer rounds nodeId = some built) :
    options.Loopless runtime nodeId := by
  cases found : options.nodeMap nodeId with
  | none => exact absurd present (nodeMap_eq_none.mp found)
  | some node =>
      simp only [buildHierarchyNode, found, same, inLayer] at ends
      obtain ⟨order, visited, rfl⟩ := Option.map_eq_some_iff.mp ends
      obtain ⟨results, listed⟩ := listed_of_root (options.hierarchyNode runtime) visited
      exact (loopless_iff inLayer).mp fun other => listed.loopless List.mem_cons_self

theorem build_of_loopless
    (same : ∀ nodeId, effectiveLayer.get nodeId = options.layerOf runtime nodeId)
    (inLayer : options.layerOf runtime nodeId = some layerId)
    (loopless : options.Loopless runtime nodeId) :
    ∃ enough, ∀ more, ∃ built,
      options.buildHierarchyNode runtime effectiveLayer (enough + more) nodeId = some built := by
  cases found : options.nodeMap nodeId with
  | none => exact ⟨0, fun more => ⟨none, by rw [buildHierarchyNode, found]⟩⟩
  | some node =>
      have ends : ∃ order results, Listed (options.childrenIn runtime layerId)
          (options.hierarchyNode runtime) 0 0 none [nodeId] order results :=
        (exists_listed_iff _ finite_children fun item child member =>
          ⟨item, (List.mem_filter.mp member).1⟩).mpr ((loopless_iff inLayer).mpr loopless)
      obtain ⟨order, results, listed⟩ := ends
      refine ⟨order.length, fun more => ⟨assemble (options.hierarchyNode runtime) order, ?_⟩⟩
      simp only [buildHierarchyNode, found, same, inLayer]
      rw [Option.map_eq_some_iff]
      exact ⟨order, enumerate_root listed more, rfl⟩

theorem Grown.append {other : List HierarchyNode} (grown : options.Grown runtime layerId forest)
    (growing : options.Grown runtime layerId other) :
    options.Grown runtime layerId (forest ++ other) := by
  intro node member
  rw [Rose.nodesAll_append] at member
  rcases List.mem_append.mp member with first | later
  · exact grown node first
  · exact growing node later

/-- The trees that some nodes add to a layer: one for each visual root among them. -/
structure Adds (options : Options) (runtime : Runtime) (nodes : List Node)
    (grouped after : OrderedMap String (List HierarchyNode)) (layerId : String)
    (trees : List HierarchyNode) : Prop where
  appended : after.get layerId = (grouped.get layerId).map (· ++ trees)
  roots : (trees.map fun tree => tree.label.id) =
    (nodes.map Node.id).filter fun nodeId => options.IsVisualRoot runtime layerId nodeId
  grown : options.Grown runtime layerId trees

variable {node : Node} {nodes : List Node}
  {grouped after : OrderedMap String (List HierarchyNode)}

theorem Adds.none (kept : after.get layerId = grouped.get layerId)
    (other : ¬ options.IsVisualRoot runtime layerId node.id) :
    Adds options runtime [node] grouped after layerId [] where
  appended := by simp [kept]
  roots := by simp [other]
  grown := nofun

theorem adds_placeNode
    (same : ∀ nodeId, effectiveLayer.get nodeId = options.layerOf runtime nodeId)
    (present : node.id ∈ options.ids)
    (placed : options.placeNode runtime effectiveLayer rounds grouped node = some after) :
    (options.IsVisualRoot runtime layerId node.id → options.Loopless runtime node.id) ∧
      ∃ trees, Adds options runtime [node] grouped after layerId trees := by
  have parent : ((truthy (options.parentOf runtime node.id)).bind fun parentId =>
      effectiveLayer.get parentId) = options.parentLayer runtime node.id := by
    simp only [same, parentLayer]
  simp only [placeNode, same node.id, parent] at placed
  cases own : options.layerOf runtime node.id with
  | none =>
      rw [own] at placed
      cases placed
      have other : ¬ options.IsVisualRoot runtime layerId node.id := fun root => by
        rw [IsVisualRoot, own] at root
        cases root.1
      exact ⟨fun root => absurd root other, [], .none rfl other⟩
  | some ownId =>
      rw [own] at placed
      dsimp only at placed
      split at placed
      · rename_i within
        cases placed
        have other : ¬ options.IsVisualRoot runtime layerId node.id := fun root =>
          root.2 (within.symm.trans (own.symm.trans root.1))
        exact ⟨fun root => absurd root other, [], .none rfl other⟩
      · rename_i apart
        obtain ⟨built, ends, rfl⟩ := Option.map_eq_some_iff.mp placed
        refine ⟨fun _ => loopless_of_build same own present ends, ?_⟩
        obtain ⟨tree, rfl, root, grown⟩ := made_of_build same own present ends
        by_cases here : layerId = ownId
        · subst here
          have isRoot : options.IsVisualRoot runtime layerId node.id := ⟨own, Ne.symm apart⟩
          refine ⟨[tree], ?_, by simp [isRoot, root], grown⟩
          cases listed : grouped.get layerId with
          | none => simp [listed]
          | some list => simp [OrderedMap.get_set]
        · have other : ¬ options.IsVisualRoot runtime layerId node.id := fun root =>
            here (Option.some.inj (root.1.symm.trans own))
          refine ⟨[], .none ?_ other⟩
          cases listed : grouped.get ownId with
          | none => rfl
          | some list => exact OrderedMap.get_set.trans (if_neg (Ne.symm here))

theorem adds_nodes
    (same : ∀ nodeId, effectiveLayer.get nodeId = options.layerOf runtime nodeId)
    (present : ∀ node ∈ nodes, node.id ∈ options.ids)
    (placed : nodes.foldlM (options.placeNode runtime effectiveLayer rounds) grouped = some after) :
    (∀ node ∈ nodes, options.IsVisualRoot runtime layerId node.id →
        options.Loopless runtime node.id) ∧
      ∃ trees, Adds options runtime nodes grouped after layerId trees := by
  induction nodes generalizing grouped with
  | nil =>
      cases placed
      exact ⟨nofun, [], by simp, rfl, nofun⟩
  | cons node rest ih =>
      obtain ⟨here, later⟩ := List.forall_mem_cons.mp present
      rw [List.foldlM_cons] at placed
      obtain ⟨middle, first, placed⟩ := Option.bind_eq_some_iff.mp placed
      obtain ⟨looplessHere, trees, adds⟩ :
        (options.IsVisualRoot runtime layerId node.id → options.Loopless runtime node.id) ∧
          ∃ trees, Adds options runtime [node] grouped middle layerId trees :=
        adds_placeNode same here first
      obtain ⟨looplessLater, others, adds'⟩ := ih later placed
      refine ⟨List.forall_mem_cons.mpr ⟨looplessHere, looplessLater⟩, trees ++ others, ?_, ?_, ?_⟩
      · rw [adds'.appended, adds.appended, Option.map_map]
        simp only [Function.comp_def, List.append_assoc]
      · rw [List.map_append, adds.roots, adds'.roots, ← List.filter_append, ← List.map_append]
        rfl
      · exact adds.grown.append adds'.grown

theorem exists_placeNode
    (same : ∀ nodeId, effectiveLayer.get nodeId = options.layerOf runtime nodeId)
    (loopless : ∀ layerId, options.IsVisualRoot runtime layerId node.id →
      options.Loopless runtime node.id) :
    ∃ enough, ∀ more grouped, ∃ after,
      options.placeNode runtime effectiveLayer (enough + more) grouped node = some after := by
  simp only [placeNode, same]
  cases own : options.layerOf runtime node.id with
  | none => exact ⟨0, fun _ grouped => ⟨grouped, rfl⟩⟩
  | some ownId =>
      dsimp only
      split
      · exact ⟨0, fun _ grouped => ⟨grouped, rfl⟩⟩
      · rename_i apart
        obtain ⟨enough, ends⟩ := build_of_loopless same own (loopless ownId ⟨own, Ne.symm apart⟩)
        refine ⟨enough, fun more grouped => ?_⟩
        obtain ⟨built, ends⟩ := ends more
        rw [ends]
        exact ⟨_, rfl⟩

theorem exists_placed
    (same : ∀ nodeId, effectiveLayer.get nodeId = options.layerOf runtime nodeId)
    (loopless : ∀ node ∈ nodes, ∀ layerId, options.IsVisualRoot runtime layerId node.id →
      options.Loopless runtime node.id) :
    ∃ enough, ∀ more grouped, ∃ after,
      nodes.foldlM (options.placeNode runtime effectiveLayer (enough + more)) grouped =
        some after := by
  induction nodes with
  | nil => exact ⟨0, fun _ grouped => ⟨grouped, rfl⟩⟩
  | cons node rest ih =>
      obtain ⟨here, later⟩ := List.forall_mem_cons.mp loopless
      obtain ⟨enough, first⟩ := exists_placeNode same here
      obtain ⟨enough', next⟩ := ih later
      refine ⟨enough + enough', fun more grouped => ?_⟩
      obtain ⟨middle, placed⟩ := first (enough' + more) grouped
      obtain ⟨after, placed'⟩ := next (enough + more) middle
      refine ⟨after, ?_⟩
      have swapped : enough' + (enough + more) = enough + enough' + more := by omega
      rw [swapped] at placed'
      rw [← Nat.add_assoc] at placed
      rw [List.foldlM_cons, placed]
      exact placed'

end Options

end Univiz.LayerTrees

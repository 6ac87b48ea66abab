import Univiz.LayerTrees.Forests
import Univiz.LayerTrees.Groups

namespace Univiz.LayerTrees

open Univiz.Data

/-! The trees of all layers, and when every node has one place in them. -/

namespace Options

variable (options : Options) (runtime : Runtime)

/-- A node of a layer that is shown. -/
def IsShown (nodeId : String) : Prop :=
  ∃ layer ∈ options.sortedLayers, options.layerOf runtime nodeId = some layer.id

/-- All nodes of the trees, those of the logical groups included. -/
def displayed (trees : OrderedMap String (List HierarchyNode)) : List HierarchyNode :=
  trees.entries.flatMap fun entry => Rose.nodesAll entry.2

/-- The groups in which there is something, for each place where they are. -/
def shownGroups : List String :=
  options.sortedLayers.flatMap fun layer =>
    (options.usedGroups layer (options.visualRoots runtime layer.id)).map fun config =>
      groupId config.label.id

/-- No id occurs twice, every node of a layer that is shown occurs, and it is below its parent
if both are in one layer. -/
structure Displays (trees : OrderedMap String (List HierarchyNode)) : Prop where
  once : ((displayed trees).map fun node => node.label.id).Nodup
  placed : ∀ nodeId ∈ options.ids, options.IsShown runtime nodeId →
    ∃ node ∈ displayed trees, node.label.id = nodeId ∧ node.label.isLogical = false
  below : ∀ nodeId ∈ options.ids, options.IsShown runtime nodeId →
    ∀ parentId, options.parentOf runtime nodeId = some parentId →
      options.layerOf runtime parentId = options.layerOf runtime nodeId →
      options.entityLogicalMap.get nodeId = none →
      ∃ parent ∈ displayed trees, parent.label.id = parentId ∧ parent.label.isLogical = false ∧
        ∃ child ∈ parent.children, child.label.id = nodeId ∧ child.label.isLogical = false

/-- The computation ends, with one place for every node. -/
def PlacesOnce : Prop :=
  ∃ rounds trees, options.nodesByLayer runtime rounds = some trees ∧
    options.Displays runtime trees

/-- Within each layer the containment is a forest, with the visual roots as its roots, and the
groups have ids of their own. -/
structure IsForest : Prop where
  tested : ∀ node ∈ options.nodes, options.explicitAssignments.get node.id = none →
    runtime.resolveLayerAssignment node.graphNode options.layerRules ≠ none
  loopless : ∀ nodeId ∈ options.ids, options.IsShown runtime nodeId ∨
    (∃ layerId, options.IsVisualRoot runtime layerId nodeId) → options.Loopless runtime nodeId
  roots : ∀ layer ∈ options.sortedLayers, ∀ nodeId ∈ options.ids,
    options.IsVisualRoot runtime layer.id nodeId →
      ∀ container ∈ options.ids, ¬ options.Holds runtime container nodeId
  held : ∀ layer ∈ options.sortedLayers, ∀ nodeId ∈ options.ids,
    options.layerOf runtime nodeId = some layer.id →
      ¬ options.IsVisualRoot runtime layer.id nodeId →
      ∃ container ∈ options.ids, options.Holds runtime container nodeId ∧
        ∀ other ∈ options.ids, options.Holds runtime other nodeId → other = container
  parents : ∀ nodeId ∈ options.ids, options.IsShown runtime nodeId →
    ∀ parentId, options.parentOf runtime nodeId = some parentId →
      options.layerOf runtime parentId = options.layerOf runtime nodeId →
      options.entityLogicalMap.get nodeId = none → parentId ∈ options.ids
  groups : (options.shownGroups runtime).Nodup
  apart : ∀ nodeId ∈ options.ids, options.IsShown runtime nodeId →
    nodeId ∉ options.shownGroups runtime

/-- The trees are the forests of the layers, with the groups around some of their roots. -/
structure Laid (trees : OrderedMap String (List HierarchyNode))
    (forests : String → List HierarchyNode) : Prop where
  roots : ∀ layerId, ((forests layerId).map fun tree => tree.label.id).Perm
    (options.visualRoots runtime layerId)
  grown : ∀ layerId, options.Grown runtime layerId (forests layerId)
  entries : trees.entries.Perm (options.sortedLayers.map fun layer =>
    (layer.id, options.groupNodes runtime layer (forests layer.id)))

variable {options runtime} {rounds : Nat} {layerId nodeId : String}
  {trees grouped after : OrderedMap String (List HierarchyNode)}

theorem ruleAssignments_iff : (∃ ruleAssignments,
      options.ruleAssignments runtime = some ruleAssignments) ↔
    ∀ node ∈ options.nodes, options.explicitAssignments.get node.id = none →
      runtime.resolveLayerAssignment node.graphNode options.layerRules ≠ none := by
  have all (nodes : List Node) (start : OrderedMap String String) :
      (∃ assignments, nodes.foldlM (options.addRuleAssignment runtime) start = some assignments) ↔
        ∀ node ∈ nodes, options.explicitAssignments.get node.id = none →
          runtime.resolveLayerAssignment node.graphNode options.layerRules ≠ none := by
    induction nodes generalizing start with
    | nil => exact iff_of_true ⟨start, rfl⟩ nofun
    | cons node rest ih =>
        rw [List.foldlM_cons, List.forall_mem_cons, addRuleAssignment]
        split
        · rename_i explicit
          exact (ih start).trans (and_iff_right fun none => absurd none explicit).symm
        · rename_i implicit
          rw [ne_eq, not_not] at implicit
          cases resolved : runtime.resolveLayerAssignment node.graphNode options.layerRules with
          | none => simp [implicit]
          | some ruleLayerId =>
              refine (ih _).trans (and_iff_right fun _ => ?_).symm
              exact Option.some_ne_none _
  exact all options.nodes .empty

def layerEntries (options : Options) : List (String × ViewLayerConfig) :=
  options.sortedLayers.map fun layer => (layer.id, layer)

theorem nodup_layerEntries : (options.layerEntries.map Prod.fst).Nodup := by
  rw [layerEntries, List.map_map]
  exact options.distinctLayers

theorem get_initial : (options.sortedLayers.foldl (fun grouped layer => grouped.set layer.id [])
      (.empty : OrderedMap String (List HierarchyNode))).get layerId =
    (options.sortedLayers.find? fun layer => layer.id = layerId).map fun _ => [] := by
  let fill : ViewLayerConfig → List HierarchyNode := fun _ => []
  have filled : (options.layerEntries.foldl
      (fun grouped entry => grouped.set entry.1 (fill entry.2)) OrderedMap.empty).get layerId =
        ((OrderedMap.lookup options.layerEntries layerId).map fill).or none :=
    OrderedMap.get_foldl_entries nodup_layerEntries
  rw [layerEntries, List.foldl_map, OrderedMap.lookup_map, Option.map_map, Option.or_none] at filled
  exact filled

/-- `groupLayer` of an entry. -/
def groupEntry (options : Options) (runtime : Runtime)
    (grouped : OrderedMap String (List HierarchyNode)) (entry : String × ViewLayerConfig) :
    OrderedMap String (List HierarchyNode) :=
  match grouped.get entry.1 with
  | none => grouped
  | some layerNodes => grouped.set entry.1 (options.groupNodes runtime entry.2 layerNodes)

theorem get_groupLayers :
    (options.sortedLayers.foldl (options.groupLayer runtime) grouped).get layerId =
      match options.sortedLayers.find? fun layer => layer.id = layerId with
      | none => grouped.get layerId
      | some layer => (grouped.get layerId).map (options.groupNodes runtime layer) := by
  let act (layerNodes : Option (List HierarchyNode)) (layer : ViewLayerConfig) :
      Option (List HierarchyNode) :=
    layerNodes.map (options.groupNodes runtime layer)
  have concerns (grouped : OrderedMap String (List HierarchyNode))
      (entry : String × ViewLayerConfig) (key : String) :
      (options.groupEntry runtime grouped entry).get key =
        if entry.1 = key then act (grouped.get key) entry.2 else grouped.get key := by
    simp only [groupEntry, act]
    cases found : grouped.get entry.1 with
    | none =>
        dsimp only
        split
        · rename_i here
          rw [← here, found]
          rfl
        · rfl
    | some layerNodes =>
        dsimp only
        rw [OrderedMap.get_set]
        split
        · rename_i here
          rw [← here, found]
          rfl
        · rfl
  have written : (options.layerEntries.foldl (options.groupEntry runtime) grouped).get layerId =
      ((OrderedMap.lookup options.layerEntries layerId).map (act (grouped.get layerId))).getD
        (grouped.get layerId) :=
    OrderedMap.get_foldl_write concerns nodup_layerEntries
  rw [layerEntries, List.foldl_map, OrderedMap.lookup_map] at written
  refine Eq.trans ?_ (written.trans ?_)
  · rfl
  · cases options.sortedLayers.find? fun layer => layer.id = layerId <;> rfl

theorem laid_of_nodesByLayer (ends : options.nodesByLayer runtime rounds = some trees) :
    (∃ ruleAssignments, options.ruleAssignments runtime = some ruleAssignments) ∧
      (∀ nodeId ∈ options.ids, ∀ layerId, options.IsVisualRoot runtime layerId nodeId →
        options.Loopless runtime nodeId) ∧
      ∃ forests, options.Laid runtime trees forests := by
  obtain ⟨ruleAssignments, tested, ends⟩ := Option.bind_eq_some_iff.mp ends
  obtain ⟨effectiveLayer, assigned, ends⟩ := Option.bind_eq_some_iff.mp ends
  obtain ⟨placed, folded, ends⟩ := Option.bind_eq_some_iff.mp ends
  have same (nodeId : String) : effectiveLayer.get nodeId = options.layerOf runtime nodeId :=
    get_effectiveLayer tested assigned
  have adds (layerId : String) :
      (∀ node ∈ options.nodes, options.IsVisualRoot runtime layerId node.id →
        options.Loopless runtime node.id) ∧
      ∃ trees, options.Adds runtime options.nodes _ placed layerId trees :=
    adds_nodes same (fun node member => List.mem_map.mpr ⟨node, member, rfl⟩) folded
  refine ⟨⟨ruleAssignments, tested⟩, ?_, ?_⟩
  · intro nodeId member layerId root
    obtain ⟨node, listed, rfl⟩ := List.mem_map.mp member
    exact (adds layerId).1 node listed root
  · choose added adding using fun layerId => (adds layerId).2
    refine ⟨fun layerId => runtime.sortByName (added layerId), ?_, ?_, ?_⟩
    · intro layerId
      refine ((sortByName_perm _).map _).trans (.of_eq ?_)
      exact (adding layerId).roots
    · intro layerId node member
      exact (adding layerId).grown node ((Rose.nodesAll_perm (sortByName_perm _)).mem_iff.mp member)
    · have pairs : ((options.sortedLayers.map fun layer => (layer.id,
          options.groupNodes runtime layer (runtime.sortByName (added layer.id)))).map
          Prod.fst).Nodup := by
        rw [List.map_map]
        exact options.distinctLayers
      refine OrderedMap.entries_perm pairs fun key => ?_
      rw [OrderedMap.lookup_map]
      have sorted : (placed.mapValues runtime.sortByName).get key =
          (options.sortedLayers.find? fun layer => layer.id = key).map fun _ =>
            runtime.sortByName (added key) := by
        rw [OrderedMap.get_mapValues, (adding key).appended, get_initial, Option.map_map,
          Option.map_map]
        rfl
      split at ends
      · rename_i noGroups
        cases ends
        have nowhere (layer : ViewLayerConfig) (nodeId : String) :
            options.groupOf layer nodeId = none := by
          rw [groupOf, OrderedMap.size_eq_zero.mp noGroups nodeId]
          rfl
        simp only [groupNodes_of_ungrouped fun tree _ => nowhere _ tree.label.id]
        rw [sorted]
        cases found : options.sortedLayers.find? fun layer => layer.id = key with
        | none => rfl
        | some layer =>
            have here : layer.id = key := by simpa using List.find?_some found
            subst here
            rfl
      · cases ends
        rw [get_groupLayers, sorted]
        cases found : options.sortedLayers.find? fun layer => layer.id = key with
        | none => rfl
        | some layer =>
            have here : layer.id = key := by simpa using List.find?_some found
            subst here
            rfl

theorem exists_nodesByLayer
    (tested : ∃ ruleAssignments, options.ruleAssignments runtime = some ruleAssignments)
    (loopless : ∀ nodeId ∈ options.ids, ∀ layerId, options.IsVisualRoot runtime layerId nodeId →
      options.Loopless runtime nodeId) :
    ∃ rounds trees, options.nodesByLayer runtime rounds = some trees := by
  obtain ⟨ruleAssignments, tested⟩ := tested
  obtain ⟨effectiveLayer, assigned⟩ : ∃ effectiveLayer,
      options.effectiveLayer runtime ruleAssignments (options.rounds runtime) =
        some effectiveLayer := exists_effectiveLayer ruleAssignments
  have same (nodeId : String) : effectiveLayer.get nodeId = options.layerOf runtime nodeId :=
    get_effectiveLayer tested assigned
  obtain ⟨enough, places⟩ := exists_placed same fun node listed =>
    loopless node.id (List.mem_map.mpr ⟨node, listed, rfl⟩)
  obtain ⟨placed, folded⟩ := places (options.rounds runtime) (options.sortedLayers.foldl
    (fun grouped layer => grouped.set layer.id []) .empty)
  have more : options.effectiveLayer runtime ruleAssignments
      (enough + options.rounds runtime) = some effectiveLayer :=
    assignLayers_mono (Nat.le_add_left _ _) assigned
  refine ⟨enough + options.rounds runtime, ?_⟩
  simp only [nodesByLayer, tested, more, folded, Option.bind_eq_bind, Option.bind_some]
  split
  · exact ⟨_, rfl⟩
  · exact ⟨_, rfl⟩

/-- The trees of all layers that are shown, without the groups. -/
def wholeForest (options : Options) (forests : String → List HierarchyNode) : List HierarchyNode :=
  options.sortedLayers.flatMap fun layer => forests layer.id

def allRoots (options : Options) (runtime : Runtime) : List String :=
  options.sortedLayers.flatMap fun layer => options.visualRoots runtime layer.id

variable {forests : String → List HierarchyNode} {container : String}

theorem displayed_perm (laid : options.Laid runtime trees forests) :
    (displayed trees).Perm (options.sortedLayers.flatMap fun layer =>
      Rose.nodesAll (options.groupNodes runtime layer (forests layer.id))) := by
  refine (laid.entries.flatMap_right _).trans (.of_eq ?_)
  rw [List.flatMap_map]

theorem mem_wholeForest {node : HierarchyNode} :
    node ∈ Rose.nodesAll (options.wholeForest forests) ↔
      ∃ layer ∈ options.sortedLayers, node ∈ Rose.nodesAll (forests layer.id) := by
  rw [wholeForest, Rose.nodesAll_eq_flatMap, List.flatMap_assoc]
  simp only [← Rose.nodesAll_eq_flatMap, List.mem_flatMap]

theorem Laid.faithful (laid : options.Laid runtime trees forests) {node : HierarchyNode}
    (member : node ∈ Rose.nodesAll (options.wholeForest forests)) :
    ∃ layer ∈ options.sortedLayers, options.Faithful runtime layer.id node := by
  obtain ⟨layer, listed, member⟩ := mem_wholeForest.mp member
  exact ⟨layer, listed, laid.grown layer.id node member⟩

/-- The nodes of the trees that are no groups. -/
theorem mem_displayed (laid : options.Laid runtime trees forests) {node : HierarchyNode} :
    (node ∈ displayed trees ∧ node.label.isLogical = false) ↔
      node ∈ Rose.nodesAll (options.wholeForest forests) := by
  have each (layer : ViewLayerConfig) :
      (node ∈ Rose.nodesAll (options.groupNodes runtime layer (forests layer.id)) ∧
        node.label.isLogical = false) ↔ node ∈ Rose.nodesAll (forests layer.id) :=
    mem_groupNodes fun node member => (laid.grown layer.id node member).plain
  rw [(displayed_perm laid).mem_iff, mem_wholeForest, List.mem_flatMap]
  constructor
  · rintro ⟨⟨layer, listed, member⟩, plain⟩
    exact ⟨layer, listed, (each layer).mp ⟨member, plain⟩⟩
  · rintro ⟨layer, listed, member⟩
    obtain ⟨member, plain⟩ := (each layer).mpr member
    exact ⟨⟨layer, listed, member⟩, plain⟩

/-- The ids of the groups of a layer in which there is something. -/
def groupIds (options : Options) (runtime : Runtime) (layer : ViewLayerConfig) : List String :=
  (options.usedGroups layer (options.visualRoots runtime layer.id)).map fun config =>
    groupId config.label.id

theorem groupNodes_ids (laid : options.Laid runtime trees forests) (layer : ViewLayerConfig) :
    ∃ inside : List HierarchyNode,
      ((Rose.nodesAll (options.groupNodes runtime layer (forests layer.id))).map
        fun node => node.label.id).Perm
          (options.groupIds runtime layer ++ inside.map fun node => node.label.id) ∧
      ((options.groupIds runtime layer).Nodup →
        inside.Perm (Rose.nodesAll (forests layer.id))) := by
  obtain ⟨wrappers, perm, ids, -⟩ := groupNodes_wraps options runtime layer (forests layer.id)
  have used : options.usedGroups layer ((forests layer.id).map fun tree => tree.label.id) =
      options.usedGroups layer (options.visualRoots runtime layer.id) := by
    refine List.filter_congr fun config _ => ?_
    simp only [(laid.roots layer.id).mem_iff]
  rw [used] at ids
  refine ⟨options.nodesInGroups layer (forests layer.id) ++
    Rose.nodesAll (options.inGroup layer (forests layer.id) none), ?_, ?_⟩
  · refine (perm.map _).trans (.of_eq ?_)
    rw [List.map_append, ids, groupIds]
  · intro distinct
    apply nodesInGroups_perm
    rw [used]
    have twice : options.groupIds runtime layer =
        ((options.usedGroups layer (options.visualRoots runtime layer.id)).map fun config =>
          config.label.id).map groupId := List.map_map.symm
    rw [twice] at distinct
    exact distinct.of_map _

theorem displayed_ids (laid : options.Laid runtime trees forests)
    (distinct : ∀ layer ∈ options.sortedLayers, (options.groupIds runtime layer).Nodup) :
    ((displayed trees).map fun node => node.label.id).Perm
      (options.shownGroups runtime ++
        Rose.keys HierarchyFields.id (options.wholeForest forests)) := by
  have whole : Rose.keys HierarchyFields.id (options.wholeForest forests) =
      options.sortedLayers.flatMap fun layer =>
        (Rose.nodesAll (forests layer.id)).map fun node => node.label.id := by
    rw [Rose.keys, wholeForest, Rose.nodesAll_eq_flatMap, List.flatMap_assoc, List.map_flatMap]
    simp only [← Rose.nodesAll_eq_flatMap]
  refine ((displayed_perm laid).map _).trans ?_
  rw [List.map_flatMap, whole]
  refine .trans (List.Perm.flatMap_left _ fun layer listed => ?_)
    (List.flatMap_append_perm options.sortedLayers (options.groupIds runtime) _).symm
  obtain ⟨inside, perm, kept⟩ := groupNodes_ids laid layer
  exact perm.trans (((kept (distinct layer listed)).map _).append_left _)

theorem once_iff (laid : options.Laid runtime trees forests) :
    ((displayed trees).map fun node => node.label.id).Nodup ↔
      (options.shownGroups runtime ++
        Rose.keys HierarchyFields.id (options.wholeForest forests)).Nodup := by
  constructor
  · intro once
    refine (displayed_ids laid fun layer listed => ?_).nodup_iff.mp once
    have within := ((displayed_perm laid).map fun node => node.label.id).nodup_iff.mp once
    rw [List.map_flatMap] at within
    obtain ⟨inside, perm, -⟩ := groupNodes_ids laid layer
    have here := perm.nodup_iff.mp ((List.nodup_flatMap.mp within).1 layer listed)
    exact (List.nodup_append.mp here).1
  · intro once
    refine (displayed_ids laid fun layer listed => ?_).nodup_iff.mpr once
    exact (List.nodup_flatMap.mp (List.nodup_append.mp once).1).1 layer listed

variable {parentId : String}

theorem mem_allRoots : nodeId ∈ options.allRoots runtime ↔
    ∃ layer ∈ options.sortedLayers, nodeId ∈ options.ids ∧
      options.IsVisualRoot runtime layer.id nodeId := by
  simp only [allRoots, visualRoots, List.mem_flatMap, List.mem_filter, decide_eq_true_eq]

theorem nodup_allRoots : (options.allRoots runtime).Nodup := by
  refine List.nodup_flatMap.mpr ⟨fun layer _ => options.distinctNodes.filter _, ?_⟩
  refine List.Pairwise.imp ?_ (List.pairwise_map.mp options.distinctLayers)
  intro layer other apart nodeId here there
  have inLayer := (of_decide_eq_true (List.mem_filter.mp here).2).1
  have inOther := (of_decide_eq_true (List.mem_filter.mp there).2).1
  exact apart (Option.some.inj (inLayer.symm.trans inOther))

theorem Laid.keys_perm (laid : options.Laid runtime trees forests) :
    (Rose.keys HierarchyFields.id (options.wholeForest forests)).Perm
      (options.allRoots runtime ++
        (Rose.keys HierarchyFields.id (options.wholeForest forests)).flatMap
          (options.next runtime)) := by
  have unfolds : Rose.Unfolds HierarchyFields.id (options.next runtime)
      (options.wholeForest forests) := by
    intro node member
    obtain ⟨layer, _, faithful⟩ := laid.faithful member
    exact faithful.children
  refine unfolds.keys_perm.trans (List.Perm.append_right _ ?_)
  rw [wholeForest, List.map_flatMap]
  exact List.Perm.flatMap_left _ fun layer _ => laid.roots layer.id

theorem Laid.mem_keys (laid : options.Laid runtime trees forests)
    (member : nodeId ∈ Rose.keys HierarchyFields.id (options.wholeForest forests)) :
    nodeId ∈ options.ids ∧ options.IsShown runtime nodeId := by
  obtain ⟨node, inside, rfl⟩ := List.mem_map.mp member
  obtain ⟨layer, listed, faithful⟩ := laid.faithful inside
  exact ⟨faithful.present, layer, listed, faithful.layer⟩

theorem IsShown.of_holds (shown : options.IsShown runtime nodeId)
    (holds : options.Holds runtime container nodeId) : options.IsShown runtime container := by
  obtain ⟨layer, listed, inLayer⟩ := shown
  exact ⟨layer, listed, holds.2.symm.trans inLayer⟩

/-- Every node of a layer that is shown is in its forest. -/
def Covered (options : Options) (runtime : Runtime) (keys : List String) : Prop :=
  ∀ nodeId ∈ options.ids, options.IsShown runtime nodeId → nodeId ∈ keys

theorem placed_iff (laid : options.Laid runtime trees forests) :
    (∀ nodeId ∈ options.ids, options.IsShown runtime nodeId →
      ∃ node ∈ displayed trees, node.label.id = nodeId ∧ node.label.isLogical = false) ↔
      options.Covered runtime (Rose.keys HierarchyFields.id (options.wholeForest forests)) := by
  refine forall₃_congr fun nodeId _ _ => ?_
  rw [Rose.keys, List.mem_map]
  constructor
  · rintro ⟨node, member, same, plain⟩
    exact ⟨node, (mem_displayed laid).mp ⟨member, plain⟩, same⟩
  · rintro ⟨node, member, same⟩
    obtain ⟨member, plain⟩ := (mem_displayed laid).mpr member
    exact ⟨node, member, same, plain⟩

/-- A node is below its parent just if the parent is in the forest and holds it. -/
theorem below_parent_iff (laid : options.Laid runtime trees forests) :
    (∃ parent ∈ displayed trees, parent.label.id = parentId ∧ parent.label.isLogical = false ∧
      ∃ child ∈ parent.children, child.label.id = nodeId ∧ child.label.isLogical = false) ↔
      parentId ∈ Rose.keys HierarchyFields.id (options.wholeForest forests) ∧
        nodeId ∈ options.next runtime parentId := by
  rw [Rose.keys, List.mem_map]
  constructor
  · rintro ⟨parent, member, rfl, plain, child, isChild, rfl, -⟩
    have inside := (mem_displayed laid).mp ⟨member, plain⟩
    obtain ⟨layer, _, faithful⟩ := laid.faithful inside
    exact ⟨⟨parent, inside, rfl⟩,
      faithful.children.mem_iff.mp (List.mem_map.mpr ⟨child, isChild, rfl⟩)⟩
  · rintro ⟨⟨parent, inside, rfl⟩, follows⟩
    obtain ⟨layer, _, faithful⟩ := laid.faithful inside
    obtain ⟨child, isChild, same⟩ := List.mem_map.mp (faithful.children.mem_iff.mpr follows)
    obtain ⟨member, plain⟩ := (mem_displayed laid).mpr inside
    obtain ⟨_, _, faithfulChild⟩ := laid.faithful (Rose.mem_nodesAll_of_child inside isChild)
    exact ⟨parent, member, rfl, plain, child, isChild, same, faithfulChild.plain⟩

variable {keys : List String}

/-- What the keys of a forest over the visual roots are. -/
structure Spread (options : Options) (runtime : Runtime) (keys : List String) : Prop where
  perm : keys.Perm (options.allRoots runtime ++ keys.flatMap (options.next runtime))
  shown : ∀ nodeId ∈ keys, nodeId ∈ options.ids ∧ options.IsShown runtime nodeId
  reached : ∀ nodeId ∈ keys, ∃ root ∈ options.allRoots runtime,
    Relation.ReflTransGen (fun container nodeId => nodeId ∈ options.next runtime container) root
      nodeId

theorem Laid.spread (laid : options.Laid runtime trees forests) :
    options.Spread runtime (Rose.keys HierarchyFields.id (options.wholeForest forests)) where
  perm := laid.keys_perm
  shown _ member := laid.mem_keys member
  reached nodeId member := by
    obtain ⟨node, inside, rfl⟩ := List.mem_map.mp member
    have steps : ∀ node ∈ Rose.nodesAll (options.wholeForest forests), ∀ child ∈ node.children,
        child.label.id ∈ options.next runtime node.label.id := by
      intro node member child isChild
      obtain ⟨layer, _, faithful⟩ := laid.faithful member
      exact faithful.children.mem_iff.mp (List.mem_map.mpr ⟨child, isChild, rfl⟩)
    obtain ⟨tree, isTree, path⟩ : ∃ tree ∈ options.wholeForest forests, Relation.ReflTransGen
        (fun container nodeId => nodeId ∈ options.next runtime container) tree.label.id
        node.label.id := Rose.reached_of_mem_nodesAll _ steps inside
    obtain ⟨layer, listed, isTree⟩ := List.mem_flatMap.mp isTree
    refine ⟨tree.label.id, List.mem_flatMap.mpr ⟨layer, listed, ?_⟩, path⟩
    exact (laid.roots layer.id).mem_iff.mp (List.mem_map.mpr ⟨tree, isTree, rfl⟩)

theorem Spread.next_of_holds (covered : options.Covered runtime keys)
    (present : nodeId ∈ options.ids) (shown : options.IsShown runtime nodeId)
    (isContainer : container ∈ options.ids) (holds : options.Holds runtime container nodeId) :
    container ∈ keys ∧ nodeId ∈ options.next runtime container :=
  ⟨covered container isContainer (shown.of_holds holds), mem_next.mpr ⟨holds, present⟩⟩

theorem Spread.roots (spread : options.Spread runtime keys) (distinct : keys.Nodup)
    (covered : options.Covered runtime keys) {layer : ViewLayerConfig}
    (listed : layer ∈ options.sortedLayers) (present : nodeId ∈ options.ids)
    (root : options.IsVisualRoot runtime layer.id nodeId) (isContainer : container ∈ options.ids) :
    ¬ options.Holds runtime container nodeId := by
  intro holds
  obtain ⟨member, follows⟩ := next_of_holds covered present ⟨layer, listed, root.1⟩ isContainer holds
  exact (sources_of_nodup spread.perm distinct).1 container member nodeId follows
    (mem_allRoots.mpr ⟨layer, listed, present, root⟩)

theorem Spread.held (spread : options.Spread runtime keys) (distinct : keys.Nodup)
    (covered : options.Covered runtime keys) {layer : ViewLayerConfig}
    (listed : layer ∈ options.sortedLayers) (present : nodeId ∈ options.ids)
    (inLayer : options.layerOf runtime nodeId = some layer.id)
    (inner : ¬ options.IsVisualRoot runtime layer.id nodeId) :
    ∃ container ∈ options.ids, options.Holds runtime container nodeId ∧
      ∀ other ∈ options.ids, options.Holds runtime other nodeId → other = container := by
  have shown : options.IsShown runtime nodeId := ⟨layer, listed, inLayer⟩
  have member := spread.perm.mem_iff.mp (covered nodeId present shown)
  rcases List.mem_append.mp member with root | below
  · obtain ⟨other, _, _, root⟩ := mem_allRoots.mp root
    have same : other.id = layer.id := Option.some.inj (root.1.symm.trans inLayer)
    exact absurd (same ▸ root) inner
  · obtain ⟨container, member, follows⟩ := List.mem_flatMap.mp below
    refine ⟨container, (spread.shown container member).1, (mem_next.mp follows).1, ?_⟩
    intro other isOther holds
    obtain ⟨member', follows'⟩ := next_of_holds covered present shown isOther holds
    exact (sources_of_nodup spread.perm distinct).2 other member' container member nodeId follows'
      follows

theorem Spread.loopless (spread : options.Spread runtime keys) (member : nodeId ∈ keys)
    (roots : ∀ nodeId ∈ options.ids, ∀ layerId, options.IsVisualRoot runtime layerId nodeId →
      options.Loopless runtime nodeId) : options.Loopless runtime nodeId := by
  obtain ⟨root, isRoot, path⟩ := spread.reached nodeId member
  obtain ⟨layer, _, present, isVisual⟩ := mem_allRoots.mp isRoot
  have holds : Relation.ReflTransGen (options.Holds runtime) root nodeId :=
    Relation.ReflTransGen.mono (fun _ _ follows => (mem_next.mp follows).1) _ _ path
  intro other onward
  exact roots root present layer.id isVisual other (holds.trans onward)

theorem isForest_of_displays (ends : options.nodesByLayer runtime rounds = some trees)
    (displays : options.Displays runtime trees) : options.IsForest runtime := by
  obtain ⟨tested, loopless, forests, laid⟩ := laid_of_nodesByLayer ends
  have spread := laid.spread
  have covered := (placed_iff laid).mp displays.placed
  obtain ⟨groups, distinct, apart⟩ := List.nodup_append.mp ((once_iff laid).mp displays.once)
  constructor
  · exact ruleAssignments_iff.mp tested
  · rintro nodeId present (shown | ⟨layerId, root⟩)
    · exact spread.loopless (covered nodeId present shown) loopless
    · exact loopless nodeId present layerId root
  · intro layer listed nodeId present root container isContainer
    exact spread.roots distinct covered listed present root isContainer
  · intro layer listed nodeId present inLayer inner
    exact spread.held distinct covered listed present inLayer inner
  · intro nodeId present shown parentId parent same noGroup
    have below := displays.below nodeId present shown parentId parent same noGroup
    exact (laid.mem_keys ((below_parent_iff laid).mp below).1).1
  · exact groups
  · intro nodeId present shown isGroup
    exact apart nodeId isGroup nodeId (covered nodeId present shown) rfl

theorem IsForest.covered (isForest : options.IsForest runtime)
    (spread : options.Spread runtime keys) : options.Covered runtime keys := by
  -- from a node that is not a visual root to the one that holds it
  let above (nodeId container : String) : Prop :=
    options.IsShown runtime nodeId ∧ nodeId ∈ options.ids ∧ container ∈ options.ids ∧
      options.Holds runtime container nodeId
  have noLoop : ∀ nodeId, ¬ Relation.TransGen above nodeId nodeId := by
    intro nodeId loop
    obtain ⟨_, ⟨shown, present, _⟩, _⟩ := Relation.TransGen.head'_iff.mp loop
    have back : Relation.TransGen (options.Holds runtime) nodeId nodeId :=
      Relation.transGen_swap.mp (Relation.TransGen.mono (fun _ _ step => step.2.2.2) _ _ loop)
    exact isForest.loopless nodeId present (.inl shown) nodeId .refl back
  have finite : {nodeId | nodeId ∈ options.ids}.Finite := List.finite_toSet options.ids
  intro nodeId
  refine induction_of_loopless
    (fun nodeId => nodeId ∈ options.ids → options.IsShown runtime nodeId → nodeId ∈ keys) finite
    (fun _ _ step => step.2.2.1) noLoop ?_ nodeId
  intro nodeId ih present shown
  obtain ⟨layer, listed, inLayer⟩ := shown
  refine spread.perm.mem_iff.mpr (List.mem_append.mpr ?_)
  by_cases root : options.IsVisualRoot runtime layer.id nodeId
  · exact .inl (mem_allRoots.mpr ⟨layer, listed, present, root⟩)
  · obtain ⟨container, isContainer, holds, -⟩ :=
      isForest.held layer listed nodeId present inLayer root
    have shown : options.IsShown runtime nodeId := ⟨layer, listed, inLayer⟩
    have member := ih container ⟨shown, present, isContainer, holds⟩ isContainer
      (shown.of_holds holds)
    exact .inr (List.mem_flatMap.mpr ⟨container, member, mem_next.mpr ⟨holds, present⟩⟩)

theorem IsForest.nodup (isForest : options.IsForest runtime)
    (spread : options.Spread runtime keys) : keys.Nodup := by
  have notRoot : ∀ container ∈ keys, ∀ nodeId ∈ options.next runtime container,
      nodeId ∉ options.allRoots runtime := by
    intro container member nodeId follows isRoot
    obtain ⟨layer, listed, present, root⟩ := mem_allRoots.mp isRoot
    exact isForest.roots layer listed nodeId present root container (spread.shown container member).1
      (mem_next.mp follows).1
  have unique : ∀ container ∈ keys, ∀ other ∈ keys, ∀ nodeId,
      nodeId ∈ options.next runtime container → nodeId ∈ options.next runtime other →
        container = other := by
    intro container member other member' nodeId follows follows'
    obtain ⟨holds, present⟩ := mem_next.mp follows
    obtain ⟨isContainer, layer, listed, inLayer⟩ := spread.shown container member
    have inner : ¬ options.IsVisualRoot runtime layer.id nodeId := fun root =>
      notRoot container member nodeId follows (mem_allRoots.mpr ⟨layer, listed, present, root⟩)
    obtain ⟨_, _, _, only⟩ :=
      isForest.held layer listed nodeId present (holds.2.trans inLayer) inner
    exact (only container isContainer holds).trans
      (only other (spread.shown other member').1 (mem_next.mp follows').1).symm
  refine List.nodup_iff_count_le_one.mpr fun nodeId => ?_
  by_cases member : nodeId ∈ keys
  · obtain ⟨root, isRoot, path⟩ := spread.reached nodeId member
    exact (count_of_reached spread.perm nodup_allRoots nodup_next notRoot unique isRoot path).le
  · rw [List.count_eq_zero_of_not_mem member]
    exact Nat.zero_le 1

theorem IsForest.displays (isForest : options.IsForest runtime)
    (laid : options.Laid runtime trees forests) : options.Displays runtime trees := by
  have covered := isForest.covered laid.spread
  refine ⟨(once_iff laid).mpr ?_, (placed_iff laid).mpr covered, ?_⟩
  · refine List.nodup_append.mpr ⟨isForest.groups, isForest.nodup laid.spread, ?_⟩
    rintro nodeId isGroup _ member rfl
    obtain ⟨present, shown⟩ := laid.mem_keys member
    exact isForest.apart nodeId present shown isGroup
  · intro nodeId present shown parentId parent same noGroup
    have isContainer := isForest.parents nodeId present shown parentId parent same noGroup
    have holds : options.Holds runtime parentId nodeId :=
      ⟨mem_childrenOf_of_parentOf parent, same.symm⟩
    refine (below_parent_iff laid).mpr ⟨?_, mem_next.mpr ⟨holds, present⟩⟩
    exact covered parentId isContainer (shown.of_holds holds)

/-- The trees have one place for every node just if the containment within each layer is a forest
whose roots are the visual roots, and the groups have ids of their own. -/
theorem placesOnce_iff_isForest (options : Options) (runtime : Runtime) :
    options.PlacesOnce runtime ↔ options.IsForest runtime := by
  constructor
  · rintro ⟨rounds, trees, ends, displays⟩
    exact isForest_of_displays ends displays
  · intro isForest
    obtain ⟨rounds, trees, ends⟩ := exists_nodesByLayer
      (ruleAssignments_iff.mpr isForest.tested) fun nodeId present layerId root =>
        isForest.loopless nodeId present (.inr ⟨layerId, root⟩)
    obtain ⟨-, -, forests, laid⟩ := laid_of_nodesByLayer ends
    exact ⟨rounds, trees, ends, isForest.displays laid⟩

def plainRuntime : Runtime where
  toUpperCase text := text
  toLowerCase text := text
  localeCompare _ _ := 0
  regExp _ := some fun _ => true

/-- A node that two roots of one layer contain. -/
def sharedChild : Options where
  nodes := [{ id := "p" }, { id := "q" }, { id := "c" }]
  sortedLayers := [{
    id := "layer"
    order := 0
    entityAssignments := [{ entityId := "p" }, { entityId := "q" }, { entityId := "c" }] }]
  instanceAssignments := .empty
  effectiveAssignments := .empty
  edges := [⟨"p", "c", "CONTAINS", ""⟩, ⟨"q", "c", "CONTAINS", ""⟩]
  isContainmentEdge _ := true
  distinctNodes := by decide
  distinctLayers := by decide

theorem sharedChild_twice : ¬ sharedChild.PlacesOnce plainRuntime := by
  rintro ⟨rounds, trees, ends, displays⟩
  have isForest := isForest_of_displays ends displays
  obtain ⟨container, _, _, only⟩ := isForest.held _ List.mem_cons_self "c" (by decide) (by decide)
    (by decide)
  have first := only "p" (by decide) (by decide)
  have second := only "q" (by decide) (by decide)
  exact absurd (first.trans second.symm) (by decide)

end Options

end Univiz.LayerTrees

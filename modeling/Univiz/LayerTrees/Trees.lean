import Univiz.Data.Buckets
import Univiz.Data.Preorder
import Univiz.LayerTrees.Layers

namespace Univiz.LayerTrees

open Univiz.Data

/-! `useLayerAssignment`: the trees of each layer, and the logical groups in them. -/

/-- A hierarchy node without its children. -/
structure HierarchyFields where
  id : String
  typeId : Option String
  name : String
  depth : Nat
  urn : String
  entityTypeOption : String
  tags : List String
  isLogical : Bool := false

abbrev HierarchyNode := Rose HierarchyFields

def Node.fields (node : Node) (depth : Nat) : HierarchyFields where
  id := node.id
  typeId := node.type
  name := (node.label.or node.businessLabel).getD node.id
  depth := depth
  urn := (truthy node.urn).getD node.id
  entityTypeOption := node.type.getD ""
  tags := node.classifications

def groupId (logicalNodeId : String) : String := "logical:" ++ logicalNodeId

def LogicalNode.fields (config : LogicalNode) (depth : Nat) : HierarchyFields where
  id := groupId config.id
  typeId := some config.type.text
  name := config.name
  depth := depth
  urn := groupId config.id
  entityTypeOption := config.type.text
  tags := []
  isLogical := true

def Runtime.sortByName (runtime : Runtime) (siblings : List HierarchyNode) : List HierarchyNode :=
  siblings.mergeSort fun first second =>
    decide (runtime.localeCompare first.label.name second.label.name ≤ 0)

theorem sortByName_perm {runtime : Runtime} (siblings : List HierarchyNode) :
    (runtime.sortByName siblings).Perm siblings :=
  List.mergeSort_perm siblings _

section Groups

variable (runtime : Runtime) (logicalChildren : OrderedMap String (List HierarchyNode))

mutual

def logicalGroup (depth : Nat) : LogicalNodeConfig → HierarchyNode
  | .node config groups =>
      .node (config.fields depth) <| runtime.sortByName <|
        buildLogicalHierarchy (depth + 1) groups ++ filed logicalChildren config.id

/-- A group is kept if something is in it.  Without the text before it, its id is that of its
config. -/
def buildLogicalHierarchy (depth : Nat) : List LogicalNodeConfig → List HierarchyNode
  | [] => []
  | config :: configs =>
      let group := logicalGroup depth config
      if group.children ≠ [] ∨ logicalChildren.get config.label.id ≠ none then
        group :: buildLogicalHierarchy depth configs
      else buildLogicalHierarchy depth configs

end

end Groups

/-- The entities under each group, and those under none. -/
structure Partition where
  logicalChildren : OrderedMap String (List HierarchyNode)
  ungrouped : List HierarchyNode

namespace Options

variable (options : Options) (runtime : Runtime)

def nodeMap (nodeId : String) : Option Node := options.nodes.find? fun node => node.id = nodeId

def hierarchyNode (nodeId : String) (depth : Nat) (children : List HierarchyNode) :
    Option HierarchyNode :=
  (options.nodeMap nodeId).map fun node => .node (node.fields depth) (runtime.sortByName children)

/-- A tree, if the node is there, or nothing where the rounds do not suffice. -/
def buildHierarchyNode (effectiveLayer : OrderedMap String String) (rounds : Nat)
    (rootId : String) : Option (Option HierarchyNode) :=
  match options.nodeMap rootId with
  | none => some none
  | some _ =>
      let rootLayer := effectiveLayer.get rootId
      let children (nodeId : String) : List String :=
        (options.childrenOf runtime nodeId).filter fun child => effectiveLayer.get child = rootLayer
      (enumerate children rounds [⟨rootId, 0, none⟩] []).map
        (assemble (options.hierarchyNode runtime))

/-- A visual root of a layer gets a tree of its own there. -/
def placeNode (effectiveLayer : OrderedMap String String) (rounds : Nat)
    (grouped : OrderedMap String (List HierarchyNode)) (node : Node) :
    Option (OrderedMap String (List HierarchyNode)) :=
  match effectiveLayer.get node.id with
  | none => some grouped
  | some layerId =>
      let parentLayerId :=
        (truthy (options.parentOf runtime node.id)).bind fun parentId => effectiveLayer.get parentId
      if some layerId = parentLayerId then some grouped
      else
        (options.buildHierarchyNode runtime effectiveLayer rounds node.id).map fun built =>
          match built, grouped.get layerId with
          | some hNode, some list => grouped.set layerId (list ++ [hNode])
          | _, _ => grouped

/-- The logical node of each entity that is assigned to one. -/
def entityLogicalMap : OrderedMap String String :=
  let assign (logicalOf : OrderedMap String String) (entity : String × Option String) :=
    match truthy entity.2 with
    | none => logicalOf
    | some logicalNodeId => logicalOf.set entity.1 logicalNodeId
  let configured := options.sortedLayers.flatMap fun layer =>
    layer.entityAssignments.map fun config => (config.entityId, config.logicalNodeId)
  let dragged := options.instanceAssignments.entries.map fun entry =>
    (entry.1, entry.2.logicalNodeId)
  (configured ++ dragged).foldl assign .empty

/-- The group of an entity, among the logical nodes of a layer. -/
def groupOf (layer : ViewLayerConfig) (nodeId : String) : Option String :=
  (options.entityLogicalMap.get nodeId).filter
    (· ∈ (Rose.nodesAll layer.logicalNodes).map fun config => config.label.id)

def partition (layer : ViewLayerConfig) (parted : Partition) (hNode : HierarchyNode) : Partition :=
  match options.groupOf layer hNode.label.id with
  | some logicalId => { parted with logicalChildren := file parted.logicalChildren logicalId hNode }
  | none => { parted with ungrouped := parted.ungrouped ++ [hNode] }

def groupNodes (layer : ViewLayerConfig) (layerNodes : List HierarchyNode) : List HierarchyNode :=
  if layer.logicalNodes = [] ∨ layerNodes = [] then layerNodes
  else
    let parted := layerNodes.foldl (options.partition layer) ⟨.empty, []⟩
    if parted.logicalChildren.size = 0 then layerNodes
    else
      buildLogicalHierarchy runtime parted.logicalChildren 0 layer.logicalNodes ++ parted.ungrouped

def groupLayer (grouped : OrderedMap String (List HierarchyNode)) (layer : ViewLayerConfig) :
    OrderedMap String (List HierarchyNode) :=
  match grouped.get layer.id with
  | none => grouped
  | some layerNodes => grouped.set layer.id (options.groupNodes runtime layer layerNodes)

/-- The trees of each layer.  Nothing where the rounds do not suffice, or where a rule cannot be
tested. -/
def nodesByLayer (rounds : Nat) : Option (OrderedMap String (List HierarchyNode)) := do
  let ruleAssignments ← options.ruleAssignments runtime
  let effectiveLayer ← options.effectiveLayer runtime ruleAssignments rounds
  let initial := options.sortedLayers.foldl (fun grouped layer => grouped.set layer.id []) .empty
  let placed ← options.nodes.foldlM (options.placeNode runtime effectiveLayer rounds) initial
  let grouped := placed.mapValues runtime.sortByName
  if options.entityLogicalMap.size = 0 then some grouped
  else some (options.sortedLayers.foldl (options.groupLayer runtime) grouped)

end Options

end Univiz.LayerTrees

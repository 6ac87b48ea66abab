import Mathlib.Logic.Function.Basic
import Univiz.Canvas.Hierarchy

namespace Univiz.Canvas

/-! The `ancestorMap` of `useEdgeProjection`, which says under which visible node an id
or a urn is shown. -/

abbrev AncestorMap := String → Option String

/-- A node with the id that its entries get. -/
abbrev Assignment := HierarchyNode × String

def assign (map : AncestorMap) (entry : Assignment) : AncestorMap :=
  let withUrn := if entry.1.urn = "" then map else Function.update map entry.1.urn (some entry.2)
  Function.update withUrn entry.1.id (some entry.2)

def assignAll (map : AncestorMap) (entries : List Assignment) : AncestorMap :=
  entries.foldl assign map

/-- The layers with their roots, whose nodes have no entry in common. -/
structure NodesByLayer where
  layers : List (String × List HierarchyNode)
  distinct : (preorderAll (layers.reverse.flatMap Prod.snd)).Pairwise Apart

/-- The roots as the stack has them: the last layer comes first. -/
def NodesByLayer.roots (nodesByLayer : NodesByLayer) : List HierarchyNode :=
  nodesByLayer.layers.reverse.flatMap Prod.snd

def buildNodeIndex (nodesByLayer : NodesByLayer) : String → Option HierarchyNode :=
  (preorderAll nodesByLayer.roots).foldl
    (fun index node => Function.update index node.id (some node)) fun _ => none

def collapseSubtree (root : HierarchyNode) (anchor : String) : List Assignment :=
  (preorder root).map fun node => (node, anchor)

def collapseSubtreeInMap (root : HierarchyNode) (anchor : String) (map : AncestorMap) :
    AncestorMap := assignAll map (collapseSubtree root anchor)

mutual

/-- What `expandNodeInMap` sets: the children of the node, what is below those that are
collapsed, and then the same for the children that are expanded, the last one first. -/
def expandNode (expandedNodes : List String) : HierarchyNode → List Assignment
  | .node _ _ children =>
      (children.flatMap fun child => (child, child.id) ::
        if child.id ∈ expandedNodes then []
        else child.children.flatMap fun grandchild => collapseSubtree grandchild child.id) ++
      expandChildren expandedNodes children

def expandChildren (expandedNodes : List String) : List HierarchyNode → List Assignment
  | [] => []
  | child :: rest => expandChildren expandedNodes rest ++
      if child.id ∈ expandedNodes then expandNode expandedNodes child else []

end

def expandNodeInMap (node : HierarchyNode) (expandedNodes : List String) (map : AncestorMap) :
    AncestorMap := assignAll map (expandNode expandedNodes node)

/-- The mark in the place of an anchor under which every child has its own. -/
def useChildId : String := "USE_CHILD_ID"

mutual

/-- What `buildFullAncestorMap` sets from a node on that is on the stack with an anchor. -/
def anchored (expandedNodes : List String) : String → HierarchyNode → List Assignment
  | anchor, .node id urn children =>
      let childAnchor :=
        if id = anchor then if id ∈ expandedNodes then useChildId else id else anchor
      (.node id urn children, anchor) :: anchoredChildren expandedNodes childAnchor children

def anchoredChildren (expandedNodes : List String) : String → List HierarchyNode → List Assignment
  | _, [] => []
  | childAnchor, child :: rest =>
      anchored expandedNodes (if childAnchor = useChildId then child.id else childAnchor) child ++
        anchoredChildren expandedNodes childAnchor rest

end

/-- The pass over `displayFlat` keeps the entries that are there. -/
def setIfAbsent (map : AncestorMap) (key id : String) : AncestorMap :=
  if (map key).isSome then map else Function.update map key (some id)

def buildFullAncestorMap (nodesByLayer : NodesByLayer) (expandedNodes : List String)
    (displayFlat : List HierarchyNode) : AncestorMap :=
  let map := assignAll (fun _ => none)
    (nodesByLayer.roots.flatMap fun root => anchored expandedNodes root.id root)
  displayFlat.foldl (fun map node =>
    let withId := setIfAbsent map node.id node.id
    if node.urn = "" then withId else setIfAbsent withId node.urn node.id) map

/-- The refs of the hook, for one `nodesByLayer`. -/
structure Projection where
  prevExpandedNodes : List String
  ancestorMap : AncestorMap

namespace Projection

def rebuild (nodesByLayer : NodesByLayer) (displayFlat : List HierarchyNode)
    (expandedNodes : List String) : Projection :=
  ⟨expandedNodes, buildFullAncestorMap nodesByLayer expandedNodes displayFlat⟩

/-- The ids that are not expanded any more, in the order of the old set. -/
def collapsed (prev expandedNodes : List String) : List String :=
  prev.filter fun id => id ∉ expandedNodes

/-- The ids that have been expanded, in the order of the new set. -/
def expanded (prev expandedNodes : List String) : List String :=
  expandedNodes.filter fun id => id ∉ prev

def patchCollapsed (nodesByLayer : NodesByLayer) (map : AncestorMap) (id : String) :
    AncestorMap :=
  match buildNodeIndex nodesByLayer id with
  | some node => node.children.foldl (fun map child => collapseSubtreeInMap child id map) map
  | none => map

def patchExpanded (nodesByLayer : NodesByLayer) (expandedNodes : List String)
    (map : AncestorMap) (id : String) : AncestorMap :=
  match buildNodeIndex nodesByLayer id with
  | some node => expandNodeInMap node expandedNodes map
  | none => map

/-- A render with another set of expanded nodes: the collapses are patched first. -/
def render (nodesByLayer : NodesByLayer) (projection : Projection)
    (expandedNodes : List String) : Projection :=
  let collapsed := collapsed projection.prevExpandedNodes expandedNodes
  let expanded := expanded projection.prevExpandedNodes expandedNodes
  if expanded.isEmpty ∧ collapsed.isEmpty then
    { projection with prevExpandedNodes := expandedNodes }
  else
    let afterCollapses := collapsed.foldl (patchCollapsed nodesByLayer) projection.ancestorMap
    ⟨expandedNodes, expanded.foldl (patchExpanded nodesByLayer expandedNodes) afterCollapses⟩

end Projection

end Univiz.Canvas

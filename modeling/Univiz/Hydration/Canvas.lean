import Univiz.CanvasStore.Graph
import Univiz.Data.KeyedGraph

namespace Univiz.Hydration

open Univiz.Data

/-! The canvas as `useGraphHydration` fills it from a provider. -/

/-- A canvas node, with the fields of its `data` that the hook reads; what it does not read is of a
type `Content`. -/
structure LineageNode (Content : Type) where
  id : String
  urn : Option String
  childCount : Option Nat
  metadataChildCount : Option Nat
  content : Content

structure LineageEdge where
  id : String
  source : String
  target : String
  edgeType : String
  relationship : String
deriving DecidableEq

structure GraphNode (Content : Type) where
  urn : String
  childCount : Option Nat
  content : Content

structure GraphEdge where
  id : String
  sourceUrn : String
  targetUrn : String
  edgeType : String
deriving DecidableEq

variable {Content : Type}

def toCanvasNode (node : GraphNode Content) : LineageNode Content where
  id := node.urn
  urn := some node.urn
  childCount := node.childCount
  metadataChildCount := none
  content := node.content

def toCanvasEdge (edge : GraphEdge) : LineageEdge where
  id := edge.id
  source := edge.sourceUrn
  target := edge.targetUrn
  edgeType := edge.edgeType
  relationship := edge.edgeType

/-- What `getChildrenWithEdges` returns. -/
structure ChildrenWithEdges (Content : Type) where
  children : List (GraphNode Content)
  containmentEdges : List GraphEdge
  lineageEdges : List GraphEdge

def ChildrenWithEdges.edgesToAdd (result : ChildrenWithEdges Content) : List LineageEdge :=
  (result.containmentEdges ++ result.lineageEdges).map toCanvasEdge

/-- The children that are not among some ids, each once. -/
def nodesToAdd (existing : List String) (children : List (GraphNode Content)) :
    List (LineageNode Content) :=
  (children.foldl (fun (nodes, newIds) child =>
    if child.urn ∉ existing ∧ child.urn ∉ newIds then
      (nodes ++ [toCanvasNode child], newIds ++ [child.urn])
    else (nodes, newIds)) (([] : List (LineageNode Content)), ([] : List String))).1

def graphKeys (Content : Type) : GraphKeys (LineageNode Content) LineageEdge String where
  node := LineageNode.id
  edge := LineageEdge.id
  source := LineageEdge.source
  target := LineageEdge.target

abbrev Canvas (Content : Type) := KeyedGraph (LineageNode Content) LineageEdge String

def Canvas.nodeIds (canvas : Canvas Content) : List String := canvas.nodeKeys (graphKeys Content)

def Canvas.edgeIds (canvas : Canvas Content) : List String := canvas.edgeKeys (graphKeys Content)

/-- The edge types of the schema, and how types are compared. -/
structure EdgeTypes where
  toUpperCase : String → String
  containmentEdgeTypes : List String

namespace EdgeTypes

variable (types : EdgeTypes)

def normalizeEdgeType (edge : LineageEdge) : String :=
  types.toUpperCase (if edge.edgeType = "" then edge.relationship else edge.edgeType)

def isContainmentEdgeType (edgeType : String) : Bool :=
  types.containmentEdgeTypes.any fun type => types.toUpperCase type = types.toUpperCase edgeType

def isContainmentEdge (edge : LineageEdge) : Bool :=
  types.isContainmentEdgeType (types.normalizeEdgeType edge)

end EdgeTypes

theorem mem_nodesToAdd {existing : List String} {children : List (GraphNode Content)}
    {urn : String} : urn ∈ (nodesToAdd existing children).map LineageNode.id ↔
      urn ∈ children.map GraphNode.urn ∧ urn ∉ existing := by
  let step (state : List (LineageNode Content) × List String) (child : GraphNode Content) :=
    if child.urn ∉ existing ∧ child.urn ∉ state.2 then
      (state.1 ++ [toCanvasNode child], state.2 ++ [child.urn])
    else state
  -- the ids are those of the nodes taken so far
  have taken (state : List (LineageNode Content) × List String)
      (ids : state.1.map LineageNode.id = state.2) :
      urn ∈ (children.foldl step state).1.map LineageNode.id ↔
        urn ∈ state.2 ∨ urn ∈ children.map GraphNode.urn ∧ urn ∉ existing := by
    induction children generalizing state with
    | nil => simp [ids]
    | cons child rest ih =>
        rw [List.foldl_cons]
        by_cases fresh : child.urn ∉ existing ∧ child.urn ∉ state.2
        · have next : step state child =
              (state.1 ++ [toCanvasNode child], state.2 ++ [child.urn]) := if_pos fresh
          rw [next, ih _ (by simp [ids, toCanvasNode]), List.mem_append, List.mem_singleton,
            List.map_cons, List.mem_cons]
          constructor
          · rintro ((old | rfl) | later)
            · exact .inl old
            · exact .inr ⟨.inl rfl, fresh.1⟩
            · exact .inr ⟨.inr later.1, later.2⟩
          · rintro (old | ⟨rfl | later, absent⟩)
            · exact .inl (.inl old)
            · exact .inl (.inr rfl)
            · exact .inr ⟨later, absent⟩
        · have next : step state child = state := if_neg fresh
          rw [next, ih _ ids, List.map_cons, List.mem_cons]
          constructor
          · rintro (old | later)
            · exact .inl old
            · exact .inr ⟨.inr later.1, later.2⟩
          · rintro (old | ⟨rfl | later, absent⟩)
            · exact .inl old
            · exact .inl (by_contra fun new => fresh ⟨absent, new⟩)
            · exact .inr ⟨later, absent⟩
  refine (taken ([], []) rfl).trans ?_
  simp

section Store

open CanvasStore

def storeKeys (Value : Type) :
    GraphKeys (CanvasStore.LineageNode Value) CanvasStore.LineageEdge String where
  node := CanvasStore.LineageNode.id
  edge := CanvasStore.LineageEdge.id
  source := CanvasStore.LineageEdge.source
  target := CanvasStore.LineageEdge.target

/-- The state of the store without its version. -/
def graphOf {Value : Type} (state : CanvasState Value) :
    KeyedGraph (CanvasStore.LineageNode Value) CanvasStore.LineageEdge String :=
  ⟨state.nodes, state.edges, state.nodeIndex, state.edgeIndex⟩

variable {Value : Type} (state : CanvasState Value)

theorem graphOf_addGraph (newNodes : List (CanvasStore.LineageNode Value))
    (newEdges : List CanvasStore.LineageEdge) :
    graphOf (state.addGraph newNodes newEdges) =
      (graphOf state).add (storeKeys Value) newNodes newEdges :=
  apply_ite graphOf _ _ _

theorem graphOf_removeNodes (ids : List String) :
    graphOf (state.removeNodes ids) = (graphOf state).removeNodes (storeKeys Value) ids :=
  apply_ite graphOf _ _ _

theorem graphOf_removeEdges (ids : List String) :
    graphOf (state.removeEdges ids) = (graphOf state).removeEdges (storeKeys Value) ids :=
  apply_ite graphOf _ _ _

end Store

end Univiz.Hydration

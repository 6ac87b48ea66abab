import Univiz.Data.Indexed
import Univiz.Data.OrderedMap

namespace Univiz.CanvasStore

open Univiz.Data

/-! The nodes and edges of the canvas store, with the actions that change them. -/

structure LineageNode (Value : Type) where
  id : String
  data : OrderedMap String Value

structure LineageEdge where
  id : String
  source : String
  target : String

structure CanvasState (Value : Type) where
  nodes : List (LineageNode Value)
  edges : List LineageEdge
  nodeIndex : Finset String
  edgeIndex : Finset String
  version : Nat

namespace CanvasState

variable {Value : Type}

def initial : CanvasState Value := ⟨[], [], ∅, ∅, 0⟩

/-- `wrappedSet` of `withVersion`.  An action that returns the state itself returns its
`nodes` too, so it counts as a change. -/
def touch (state : CanvasState Value) : CanvasState Value :=
  { state with version := state.version + 1 }

variable (state : CanvasState Value)

def setNodes (nodes : List (LineageNode Value)) : CanvasState Value :=
  touch { state with nodes, nodeIndex := (nodes.map LineageNode.id).toFinset }

def setEdges (edges : List LineageEdge) : CanvasState Value :=
  touch { state with edges, edgeIndex := (edges.map LineageEdge.id).toFinset }

def addNodes (newNodes : List (LineageNode Value)) : CanvasState Value :=
  let uniqueNodes := unindexed LineageNode.id state.nodeIndex newNodes
  if uniqueNodes.length = 0 then state.touch
  else touch
    { state with
      nodes := state.nodes ++ uniqueNodes
      nodeIndex := addKeys LineageNode.id state.nodeIndex uniqueNodes }

def addEdges (newEdges : List LineageEdge) : CanvasState Value :=
  let uniqueEdges := unindexed LineageEdge.id state.edgeIndex newEdges
  if uniqueEdges.length = 0 then state.touch
  else touch
    { state with
      edges := state.edges ++ uniqueEdges
      edgeIndex := addKeys LineageEdge.id state.edgeIndex uniqueEdges }

def setGraph (nodes : List (LineageNode Value)) (edges : List LineageEdge) : CanvasState Value :=
  let (seenNodes, dedupedNodes) := dedupBy LineageNode.id nodes
  let (seenEdges, dedupedEdges) := dedupBy LineageEdge.id edges
  touch
    { state with
      nodes := dedupedNodes
      edges := dedupedEdges
      nodeIndex := seenNodes
      edgeIndex := seenEdges }

def addGraph (newNodes : List (LineageNode Value)) (newEdges : List LineageEdge) :
    CanvasState Value :=
  let uniqueNodes := unindexed LineageNode.id state.nodeIndex newNodes
  let uniqueEdges := unindexed LineageEdge.id state.edgeIndex newEdges
  if uniqueNodes.length = 0 ∧ uniqueEdges.length = 0 then state.touch
  else touch
    { state with
      nodes := state.nodes ++ uniqueNodes
      edges := state.edges ++ uniqueEdges
      nodeIndex := addKeys LineageNode.id state.nodeIndex uniqueNodes
      edgeIndex := addKeys LineageEdge.id state.edgeIndex uniqueEdges }

def updateNode (id : String) (data : OrderedMap String Value) : CanvasState Value :=
  let update (node : LineageNode Value) : LineageNode Value :=
    if node.id = id then { node with data := node.data.overlay data } else node
  touch { state with nodes := state.nodes.map update }

def removeNode (id : String) : CanvasState Value :=
  let remainingEdges := state.edges.filter fun edge => edge.source ≠ id ∧ edge.target ≠ id
  touch
    { state with
      nodes := state.nodes.filter fun node => node.id ≠ id
      edges := remainingEdges
      nodeIndex := state.nodeIndex.erase id
      edgeIndex := (remainingEdges.map LineageEdge.id).toFinset }

def removeNodes (ids : List String) : CanvasState Value :=
  if ids.length = 0 then state.touch
  else
    let remainingEdges := state.edges.filter fun edge => edge.source ∉ ids ∧ edge.target ∉ ids
    touch
      { state with
        nodes := state.nodes.filter fun node => node.id ∉ ids
        edges := remainingEdges
        nodeIndex := eraseKeys state.nodeIndex ids
        edgeIndex := (remainingEdges.map LineageEdge.id).toFinset }

def removeEdge (id : String) : CanvasState Value :=
  touch
    { state with
      edges := state.edges.filter fun edge => edge.id ≠ id
      edgeIndex := state.edgeIndex.erase id }

def removeEdges (ids : List String) : CanvasState Value :=
  if ids.length = 0 then state.touch
  else touch
    { state with
      edges := state.edges.filter fun edge => edge.id ∉ ids
      edgeIndex := eraseKeys state.edgeIndex ids }

def removeEdgesByNodeIds (nodeIds : List String) : CanvasState Value :=
  if nodeIds.length = 0 then state.touch
  else
    let removedEdges := state.edges.filter fun edge => edge.source ∈ nodeIds ∨ edge.target ∈ nodeIds
    let remainingEdges := state.edges.filter fun edge =>
      ¬ (edge.source ∈ nodeIds ∨ edge.target ∈ nodeIds)
    if remainingEdges.length = state.edges.length then state.touch
    else touch
      { state with
        edges := remainingEdges
        edgeIndex := eraseKeys state.edgeIndex (removedEdges.map LineageEdge.id) }

end CanvasState

/-- The actions with their arguments. -/
inductive Action (Value : Type) where
  | setNodes (nodes : List (LineageNode Value))
  | setEdges (edges : List LineageEdge)
  | addNodes (newNodes : List (LineageNode Value))
  | addEdges (newEdges : List LineageEdge)
  | setGraph (nodes : List (LineageNode Value)) (edges : List LineageEdge)
  | addGraph (newNodes : List (LineageNode Value)) (newEdges : List LineageEdge)
  | updateNode (id : String) (data : OrderedMap String Value)
  | removeNode (id : String)
  | removeNodes (ids : List String)
  | removeEdge (id : String)
  | removeEdges (ids : List String)
  | removeEdgesByNodeIds (nodeIds : List String)

def CanvasState.step {Value : Type} (state : CanvasState Value) :
    Action Value → Option (CanvasState Value)
  | .setNodes nodes => some (state.setNodes nodes)
  | .setEdges edges => some (state.setEdges edges)
  | .addNodes newNodes => some (state.addNodes newNodes)
  | .addEdges newEdges => some (state.addEdges newEdges)
  | .setGraph nodes edges => some (state.setGraph nodes edges)
  | .addGraph newNodes newEdges => some (state.addGraph newNodes newEdges)
  | .updateNode id data => some (state.updateNode id data)
  | .removeNode id => some (state.removeNode id)
  | .removeNodes ids => some (state.removeNodes ids)
  | .removeEdge id => some (state.removeEdge id)
  | .removeEdges ids => some (state.removeEdges ids)
  | .removeEdgesByNodeIds nodeIds => some (state.removeEdgesByNodeIds nodeIds)

end Univiz.CanvasStore

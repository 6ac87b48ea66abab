import Univiz.CanvasStore.Graph
import Univiz.Data.Transition

namespace Univiz.CanvasStore

open Univiz.Data

/-! The whole canvas store, and when its version says that the nodes or edges have changed.

An array of nodes or edges has an identity: the store keeps the array it is given, and what
it makes itself is a new one.  The other arrays are not compared, so they are lists. -/

structure JsArray (α : Type) where
  ref : Nat
  items : List α

inductive HydrationPhase where
  | idle
  | roots
  | edges
  | children
  | complete
deriving DecidableEq, Repr

inductive TraceDirection where
  | upstream
  | downstream
  | both
deriving DecidableEq, Repr

structure Viewport where
  x : Rat
  y : Rat
  zoom : Rat
deriving DecidableEq, Repr

/-- The state of the store, with the timers of the pulses and a bound of the identities so
far. -/
structure Store (Value : Type) where
  nodes : JsArray (LineageNode Value)
  edges : JsArray LineageEdge
  nodeIndex : Finset String
  edgeIndex : Finset String
  version : Nat
  visibleEdges : List LineageEdge
  pulseNodeIds : List String
  selectedNodeIds : List String
  selectedEdgeIds : List String
  drawerNodeId : Option String
  viewport : Viewport
  isLoading : Bool
  loadingRegions : List String
  hydrationPhase : HydrationPhase
  activeLensId : Option String
  traceOrigin : Option String
  traceDirection : TraceDirection
  traceDepth : Int
  cachedRegions : OrderedMap String (List (LineageNode Value))
  isEditing : Bool
  timers : List String
  allocated : Nat

/-- A partial state: the keys that an action returns, with their values. -/
structure Update (Value : Type) where
  nodes : Option (JsArray (LineageNode Value)) := none
  edges : Option (JsArray LineageEdge) := none
  nodeIndex : Option (Finset String) := none
  edgeIndex : Option (Finset String) := none
  version : Option Nat := none
  visibleEdges : Option (List LineageEdge) := none
  pulseNodeIds : Option (List String) := none
  selectedNodeIds : Option (List String) := none
  selectedEdgeIds : Option (List String) := none
  drawerNodeId : Option (Option String) := none
  viewport : Option Viewport := none
  isLoading : Option Bool := none
  loadingRegions : Option (List String) := none
  hydrationPhase : Option HydrationPhase := none
  activeLensId : Option (Option String) := none
  traceOrigin : Option (Option String) := none
  traceDirection : Option TraceDirection := none
  traceDepth : Option Int := none
  cachedRegions : Option (OrderedMap String (List (LineageNode Value))) := none
  isEditing : Option Bool := none

def Update.touchesGraph {Value : Type} (update : Update Value) : Bool :=
  update.nodes.isSome || update.edges.isSome || update.nodeIndex.isSome || update.edgeIndex.isSome

inductive StoreAction (Value : Type) where
  | setNodes (nodes : JsArray (LineageNode Value))
  | setEdges (edges : JsArray LineageEdge)
  | addNodes (newNodes : List (LineageNode Value))
  | addEdges (newEdges : List LineageEdge)
  | setGraph (nodes : List (LineageNode Value)) (edges : List LineageEdge)
  | addGraph (newNodes : List (LineageNode Value)) (newEdges : List LineageEdge)
  | setVisibleEdges (visibleEdges : List LineageEdge)
  | pulseNode (id : String)
  | pulseTimeout (id : String)
  | selectNode (id : String) (multi : Bool)
  | selectEdge (id : String) (multi : Bool)
  | clearSelection
  | openNodeDrawer (id : String)
  | closeNodeDrawer
  | setViewport (viewport : Viewport)
  | setLoading (isLoading : Bool)
  | addLoadingRegion (region : String)
  | removeLoadingRegion (region : String)
  | setHydrationPhase (hydrationPhase : HydrationPhase)
  | setActiveLens (activeLensId : Option String)
  | setTraceOrigin (traceOrigin : Option String)
  | setTraceDirection (traceDirection : TraceDirection)
  | setTraceDepth (traceDepth : Int)
  | cacheRegion (key : String) (nodes : List (LineageNode Value))
  | clearCache
  | setEditing (isEditing : Bool)
  | updateNode (id : String) (data : OrderedMap String Value)
  | removeNode (id : String)
  | removeNodes (ids : List String)
  | removeEdge (id : String)
  | removeEdges (ids : List String)
  | removeEdgesByNodeIds (nodeIds : List String)

namespace Store

variable {Value : Type}

/-- The store as it is created, with what the storage has kept. -/
def initial (viewport : Viewport) (activeLensId : Option String) : Store Value where
  nodes := ⟨0, []⟩
  edges := ⟨1, []⟩
  nodeIndex := ∅
  edgeIndex := ∅
  version := 0
  visibleEdges := []
  pulseNodeIds := []
  selectedNodeIds := []
  selectedEdgeIds := []
  drawerNodeId := none
  viewport
  isLoading := false
  loadingRegions := []
  hydrationPhase := .idle
  activeLensId
  traceOrigin := none
  traceDirection := .both
  traceDepth := 10
  cachedRegions := .empty
  isEditing := false
  timers := []
  allocated := 2

variable (state : Store Value)

def newNodes (items : List (LineageNode Value)) : JsArray (LineageNode Value) :=
  ⟨state.allocated, items⟩

def newEdges (items : List LineageEdge) : JsArray LineageEdge := ⟨state.allocated + 1, items⟩

/-- `return state`: every key is there. -/
def unchanged : Update Value where
  nodes := state.nodes
  edges := state.edges
  nodeIndex := state.nodeIndex
  edgeIndex := state.edgeIndex
  version := state.version
  visibleEdges := state.visibleEdges
  pulseNodeIds := state.pulseNodeIds
  selectedNodeIds := state.selectedNodeIds
  selectedEdgeIds := state.selectedEdgeIds
  drawerNodeId := some state.drawerNodeId
  viewport := state.viewport
  isLoading := state.isLoading
  loadingRegions := state.loadingRegions
  hydrationPhase := state.hydrationPhase
  activeLensId := some state.activeLensId
  traceOrigin := some state.traceOrigin
  traceDirection := state.traceDirection
  traceDepth := state.traceDepth
  cachedRegions := state.cachedRegions
  isEditing := state.isEditing

def addNodes (added : List (LineageNode Value)) : Update Value :=
  let uniqueNodes := unindexed LineageNode.id state.nodeIndex added
  if uniqueNodes.length = 0 then state.unchanged
  else
    { nodes := state.newNodes (state.nodes.items ++ uniqueNodes)
      nodeIndex := addKeys LineageNode.id state.nodeIndex uniqueNodes }

def addEdges (added : List LineageEdge) : Update Value :=
  let uniqueEdges := unindexed LineageEdge.id state.edgeIndex added
  if uniqueEdges.length = 0 then state.unchanged
  else
    { edges := state.newEdges (state.edges.items ++ uniqueEdges)
      edgeIndex := addKeys LineageEdge.id state.edgeIndex uniqueEdges }

def setGraph (nodes : List (LineageNode Value)) (edges : List LineageEdge) : Update Value :=
  let (seenNodes, dedupedNodes) := dedupBy LineageNode.id nodes
  let (seenEdges, dedupedEdges) := dedupBy LineageEdge.id edges
  { nodes := state.newNodes dedupedNodes
    edges := state.newEdges dedupedEdges
    nodeIndex := seenNodes
    edgeIndex := seenEdges }

def addGraph (nodes : List (LineageNode Value)) (edges : List LineageEdge) : Update Value :=
  let uniqueNodes := unindexed LineageNode.id state.nodeIndex nodes
  let uniqueEdges := unindexed LineageEdge.id state.edgeIndex edges
  if uniqueNodes.length = 0 ∧ uniqueEdges.length = 0 then state.unchanged
  else
    { nodes := state.newNodes (state.nodes.items ++ uniqueNodes)
      edges := state.newEdges (state.edges.items ++ uniqueEdges)
      nodeIndex := addKeys LineageNode.id state.nodeIndex uniqueNodes
      edgeIndex := addKeys LineageEdge.id state.edgeIndex uniqueEdges }

def pulseNode (id : String) : Update Value :=
  if id ∈ state.pulseNodeIds then state.unchanged
  else { pulseNodeIds := state.pulseNodeIds ++ [id] }

def pulseTimeout (id : String) : Update Value :=
  if id ∈ state.pulseNodeIds then { pulseNodeIds := state.pulseNodeIds.filter (· ≠ id) }
  else state.unchanged

def toggled (selected : List String) (id : String) : List String :=
  if id ∈ selected then selected.filter (· ≠ id) else selected ++ [id]

def selectNode (id : String) (multi : Bool) : Update Value where
  selectedNodeIds :=
    if multi then toggled state.selectedNodeIds id
    else if state.selectedNodeIds = [id] then some [] else some [id]
  selectedEdgeIds := if multi then state.selectedEdgeIds else some []
  drawerNodeId := if !multi && !id.startsWith "logical:" then some (some id) else none

def selectEdge (id : String) (multi : Bool) : Update Value where
  selectedEdgeIds := if multi then toggled state.selectedEdgeIds id else some [id]
  selectedNodeIds := if multi then state.selectedNodeIds else some []
  drawerNodeId := some none

def addLoadingRegion (region : String) : Update Value where
  loadingRegions :=
    if region ∈ state.loadingRegions then state.loadingRegions
    else some (state.loadingRegions ++ [region])
  isLoading := true

def removeLoadingRegion (region : String) : Update Value :=
  let newRegions := state.loadingRegions.filter (· ≠ region)
  { loadingRegions := newRegions
    isLoading := decide (newRegions.length > 0) }

def updateNode (id : String) (data : OrderedMap String Value) : Update Value :=
  let update (node : LineageNode Value) : LineageNode Value :=
    if node.id = id then { node with data := node.data.overlay data } else node
  { nodes := state.newNodes (state.nodes.items.map update) }

def removeNode (id : String) : Update Value :=
  let remainingEdges := state.edges.items.filter fun edge => edge.source ≠ id ∧ edge.target ≠ id
  { nodes := state.newNodes (state.nodes.items.filter fun node => node.id ≠ id)
    edges := state.newEdges remainingEdges
    nodeIndex := state.nodeIndex.erase id
    edgeIndex := (remainingEdges.map LineageEdge.id).toFinset }

def removeNodes (ids : List String) : Update Value :=
  if ids.length = 0 then state.unchanged
  else
    let remainingEdges := state.edges.items.filter fun edge => edge.source ∉ ids ∧ edge.target ∉ ids
    { nodes := state.newNodes (state.nodes.items.filter fun node => node.id ∉ ids)
      edges := state.newEdges remainingEdges
      nodeIndex := eraseKeys state.nodeIndex ids
      edgeIndex := (remainingEdges.map LineageEdge.id).toFinset }

def removeEdge (id : String) : Update Value where
  edges := state.newEdges (state.edges.items.filter fun edge => edge.id ≠ id)
  edgeIndex := state.edgeIndex.erase id

def removeEdges (ids : List String) : Update Value :=
  if ids.length = 0 then state.unchanged
  else
    { edges := state.newEdges (state.edges.items.filter fun edge => edge.id ∉ ids)
      edgeIndex := eraseKeys state.edgeIndex ids }

def removeEdgesByNodeIds (nodeIds : List String) : Update Value :=
  if nodeIds.length = 0 then state.unchanged
  else
    let removedEdges := state.edges.items.filter fun edge =>
      edge.source ∈ nodeIds ∨ edge.target ∈ nodeIds
    let remainingEdges := state.edges.items.filter fun edge =>
      ¬ (edge.source ∈ nodeIds ∨ edge.target ∈ nodeIds)
    if remainingEdges.length = state.edges.items.length then state.unchanged
    else
      { edges := state.newEdges remainingEdges
        edgeIndex := eraseKeys state.edgeIndex (removedEdges.map LineageEdge.id) }

/-- What an action hands to `set`. -/
def update : StoreAction Value → Update Value
  | .setNodes nodes =>
      { nodes := nodes, nodeIndex := (nodes.items.map LineageNode.id).toFinset }
  | .setEdges edges =>
      { edges := edges, edgeIndex := (edges.items.map LineageEdge.id).toFinset }
  | .addNodes added => state.addNodes added
  | .addEdges added => state.addEdges added
  | .setGraph nodes edges => state.setGraph nodes edges
  | .addGraph nodes edges => state.addGraph nodes edges
  | .setVisibleEdges visibleEdges => { visibleEdges }
  | .pulseNode id => state.pulseNode id
  | .pulseTimeout id => state.pulseTimeout id
  | .selectNode id multi => state.selectNode id multi
  | .selectEdge id multi => state.selectEdge id multi
  | .clearSelection => { selectedNodeIds := some [], selectedEdgeIds := some [] }
  | .openNodeDrawer id => { drawerNodeId := some (some id) }
  | .closeNodeDrawer => { drawerNodeId := some none }
  | .setViewport viewport => { viewport }
  | .setLoading isLoading => { isLoading }
  | .addLoadingRegion region => state.addLoadingRegion region
  | .removeLoadingRegion region => state.removeLoadingRegion region
  | .setHydrationPhase hydrationPhase => { hydrationPhase }
  | .setActiveLens activeLensId => { activeLensId := some activeLensId }
  | .setTraceOrigin traceOrigin => { traceOrigin := some traceOrigin }
  | .setTraceDirection traceDirection => { traceDirection }
  | .setTraceDepth traceDepth => { traceDepth }
  | .cacheRegion key nodes => { cachedRegions := state.cachedRegions.set key nodes }
  | .clearCache => { cachedRegions := some .empty }
  | .setEditing isEditing => { isEditing }
  | .updateNode id data => state.updateNode id data
  | .removeNode id => state.removeNode id
  | .removeNodes ids => state.removeNodes ids
  | .removeEdge id => state.removeEdge id
  | .removeEdges ids => state.removeEdges ids
  | .removeEdgesByNodeIds nodeIds => state.removeEdgesByNodeIds nodeIds

/-- The keys of the update over those of the state. -/
def merge (update : Update Value) : Store Value :=
  let nodes := update.nodes.getD state.nodes
  let edges := update.edges.getD state.edges
  { nodes
    edges
    nodeIndex := update.nodeIndex.getD state.nodeIndex
    edgeIndex := update.edgeIndex.getD state.edgeIndex
    version := update.version.getD state.version
    visibleEdges := update.visibleEdges.getD state.visibleEdges
    pulseNodeIds := update.pulseNodeIds.getD state.pulseNodeIds
    selectedNodeIds := update.selectedNodeIds.getD state.selectedNodeIds
    selectedEdgeIds := update.selectedEdgeIds.getD state.selectedEdgeIds
    drawerNodeId := update.drawerNodeId.getD state.drawerNodeId
    viewport := update.viewport.getD state.viewport
    isLoading := update.isLoading.getD state.isLoading
    loadingRegions := update.loadingRegions.getD state.loadingRegions
    hydrationPhase := update.hydrationPhase.getD state.hydrationPhase
    activeLensId := update.activeLensId.getD state.activeLensId
    traceOrigin := update.traceOrigin.getD state.traceOrigin
    traceDirection := update.traceDirection.getD state.traceDirection
    traceDepth := update.traceDepth.getD state.traceDepth
    cachedRegions := update.cachedRegions.getD state.cachedRegions
    isEditing := update.isEditing.getD state.isEditing
    timers := state.timers
    allocated := max (state.allocated + 2) (max (nodes.ref + 1) (edges.ref + 1)) }

/-- `set` of `withVersion`. -/
def wrappedSet (update : Update Value) : Store Value :=
  if update.touchesGraph then state.merge { update with version := some (state.version + 1) }
  else state.merge update

/-- A pulse starts a timer, which ends once. -/
def timersAfter : StoreAction Value → Option (List String)
  | .pulseNode id => some (state.timers ++ [id])
  | .pulseTimeout id => if id ∈ state.timers then some (state.timers.erase id) else none
  | _ => some state.timers

def step (action : StoreAction Value) : Option (Store Value) :=
  (state.timersAfter action).map fun timers =>
    { state.wrappedSet (state.update action) with timers }

/-- The version grows where an array has become another, and stays where neither has. -/
structure Counts (before after : Store Value) : Prop where
  changed : before.nodes ≠ after.nodes ∨ before.edges ≠ after.edges → before.version < after.version
  kept : before.nodes = after.nodes → before.edges = after.edges → before.version = after.version

/-- The action does not return the state itself, and does not set an array that is there. -/
def Effective (state : Store Value) : StoreAction Value → Prop
  | .setNodes nodes => state.nodes ≠ nodes
  | .setEdges edges => state.edges ≠ edges
  | .addNodes added => unindexed LineageNode.id state.nodeIndex added ≠ []
  | .addEdges added => unindexed LineageEdge.id state.edgeIndex added ≠ []
  | .addGraph nodes edges => unindexed LineageNode.id state.nodeIndex nodes ≠ [] ∨
      unindexed LineageEdge.id state.edgeIndex edges ≠ []
  | .pulseNode id => id ∉ state.pulseNodeIds
  | .pulseTimeout id => id ∈ state.timers → id ∈ state.pulseNodeIds
  | .removeNodes ids => ids ≠ []
  | .removeEdges ids => ids ≠ []
  | .removeEdgesByNodeIds nodeIds =>
      ∃ edge ∈ state.edges.items, edge.source ∈ nodeIds ∨ edge.target ∈ nodeIds
  | .setGraph _ _ | .setVisibleEdges _ | .selectNode _ _ | .selectEdge _ _ | .clearSelection
  | .openNodeDrawer _ | .closeNodeDrawer | .setViewport _ | .setLoading _ | .addLoadingRegion _
  | .removeLoadingRegion _ | .setHydrationPhase _ | .setActiveLens _ | .setTraceOrigin _
  | .setTraceDirection _ | .setTraceDepth _ | .cacheRegion _ _ | .clearCache | .setEditing _
  | .updateNode _ _ | .removeNode _ | .removeEdge _ => True

/-- The arrays of the store have been identified so far. -/
structure Bounded (state : Store Value) : Prop where
  nodes : state.nodes.ref < state.allocated
  edges : state.edges.ref < state.allocated

variable {state next : Store Value} {action : StoreAction Value} {change : Update Value}

theorem wrappedSet_nodes : (state.wrappedSet change).nodes = change.nodes.getD state.nodes := by
  unfold wrappedSet
  split <;> rfl

theorem wrappedSet_edges : (state.wrappedSet change).edges = change.edges.getD state.edges := by
  unfold wrappedSet
  split <;> rfl

theorem wrappedSet_version (touches : change.touchesGraph = true) :
    (state.wrappedSet change).version = state.version + 1 := by
  rw [wrappedSet, if_pos touches]
  rfl

theorem merge_bounded : (state.merge change).Bounded where
  nodes := lt_max_of_lt_right (lt_max_of_lt_left (Nat.lt_succ_self _))
  edges := lt_max_of_lt_right (lt_max_of_lt_right (Nat.lt_succ_self _))

theorem wrappedSet_bounded : (state.wrappedSet change).Bounded := by
  unfold wrappedSet
  split
  · exact merge_bounded
  · exact merge_bounded

/-- An update that touches the graph has to replace an array. -/
theorem counts_touching (touches : change.touchesGraph = true) :
    state.Counts (state.wrappedSet change) ↔
      state.nodes ≠ change.nodes.getD state.nodes ∨ state.edges ≠ change.edges.getD state.edges := by
  have version : (state.wrappedSet change).version = state.version + 1 :=
    wrappedSet_version touches
  rw [← wrappedSet_nodes, ← wrappedSet_edges]
  refine ⟨?_, ?_⟩
  · intro counts
    by_contra same
    push Not at same
    have kept := counts.kept same.1 same.2
    omega
  · intro differ
    refine ⟨fun _ => by omega, ?_⟩
    intro nodes edges
    exact absurd (And.intro nodes edges) (not_and_or.mpr differ)

theorem counts_quiet (quiet : change.touchesGraph = false) (version : change.version = none) :
    state.Counts (state.wrappedSet change) := by
  simp only [Update.touchesGraph, Bool.or_eq_false_iff, Option.isSome_eq_false_iff,
    Option.isNone_iff_eq_none] at quiet
  obtain ⟨⟨⟨nodes, edges⟩, _⟩, _⟩ := quiet
  have unversioned : (state.wrappedSet change).version = state.version := by
    simp [wrappedSet, Update.touchesGraph, merge, *]
  refine ⟨?_, fun _ _ => unversioned.symm⟩
  rw [wrappedSet_nodes, wrappedSet_edges, nodes, edges]
  simp

theorem not_counts_unchanged : ¬ state.Counts (state.wrappedSet state.unchanged) := by
  rw [counts_touching rfl]
  simp [unchanged]

theorem counts_newNodes (bounded : state.Bounded) {items : List (LineageNode Value)}
    (replaced : change.nodes = some (state.newNodes items)) :
    state.Counts (state.wrappedSet change) := by
  rw [counts_touching (by simp [Update.touchesGraph, replaced]), replaced, Option.getD_some]
  left
  intro same
  have below := bounded.nodes
  rw [same] at below
  exact Nat.lt_irrefl _ below

theorem counts_newEdges (bounded : state.Bounded) {items : List LineageEdge}
    (replaced : change.edges = some (state.newEdges items)) :
    state.Counts (state.wrappedSet change) := by
  rw [counts_touching (by simp [Update.touchesGraph, replaced]), replaced, Option.getD_some]
  right
  intro same
  have below := bounded.edges
  rw [same] at below
  exact absurd (Nat.lt_of_succ_lt below) (Nat.lt_irrefl _)

theorem counts_timers {timers : List String} :
    state.Counts { next with timers } ↔ state.Counts next :=
  ⟨fun ⟨changed, kept⟩ => ⟨changed, kept⟩, fun ⟨changed, kept⟩ => ⟨changed, kept⟩⟩

theorem step_bounded (stepped : state.step action = some next) : next.Bounded := by
  obtain ⟨timers, _, rfl⟩ := Option.map_eq_some_iff.mp stepped
  exact ⟨wrappedSet_bounded.nodes, wrappedSet_bounded.edges⟩

theorem forall_step_iff : (∀ next, state.step action = some next → state.Counts next) ↔
    (state.timersAfter action ≠ none →
      state.Counts (state.wrappedSet (state.update action))) := by
  unfold step
  cases state.timersAfter action with
  | none => simp
  | some timers => simp [counts_timers]

/-- An action that returns the state itself under a condition. -/
theorem counts_ite {condition : Prop} [Decidable condition]
    (counts : state.Counts (state.wrappedSet change)) :
    state.Counts (state.wrappedSet (if condition then state.unchanged else change)) ↔
      ¬ condition := by
  split
  · rename_i holds
    exact iff_of_false not_counts_unchanged (not_not.mpr holds)
  · rename_i fails
    exact iff_of_true counts fails

theorem addNodes_counts (bounded : state.Bounded) {added : List (LineageNode Value)} :
    state.Counts (state.wrappedSet (state.addNodes added)) ↔
      unindexed LineageNode.id state.nodeIndex added ≠ [] := by
  rw [Ne, ← List.length_eq_zero_iff]
  exact counts_ite (counts_newNodes bounded rfl)

theorem addEdges_counts (bounded : state.Bounded) {added : List LineageEdge} :
    state.Counts (state.wrappedSet (state.addEdges added)) ↔
      unindexed LineageEdge.id state.edgeIndex added ≠ [] := by
  rw [Ne, ← List.length_eq_zero_iff]
  exact counts_ite (counts_newEdges bounded rfl)

theorem addGraph_counts (bounded : state.Bounded) {nodes : List (LineageNode Value)}
    {edges : List LineageEdge} :
    state.Counts (state.wrappedSet (state.addGraph nodes edges)) ↔
      unindexed LineageNode.id state.nodeIndex nodes ≠ [] ∨
        unindexed LineageEdge.id state.edgeIndex edges ≠ [] := by
  rw [← not_and_or, ← List.length_eq_zero_iff, ← List.length_eq_zero_iff]
  exact counts_ite (counts_newNodes bounded rfl)

theorem removeNodes_counts (bounded : state.Bounded) {ids : List String} :
    state.Counts (state.wrappedSet (state.removeNodes ids)) ↔ ids ≠ [] := by
  rw [Ne, ← List.length_eq_zero_iff]
  exact counts_ite (counts_newNodes bounded rfl)

theorem removeEdges_counts (bounded : state.Bounded) {ids : List String} :
    state.Counts (state.wrappedSet (state.removeEdges ids)) ↔ ids ≠ [] := by
  rw [Ne, ← List.length_eq_zero_iff]
  exact counts_ite (counts_newEdges bounded rfl)

theorem removeEdgesByNodeIds_counts (bounded : state.Bounded) {nodeIds : List String} :
    state.Counts (state.wrappedSet (state.removeEdgesByNodeIds nodeIds)) ↔
      ∃ edge ∈ state.edges.items, edge.source ∈ nodeIds ∨ edge.target ∈ nodeIds := by
  simp only [removeEdgesByNodeIds]
  split
  · rename_i none
    cases List.length_eq_zero_iff.mp none
    exact iff_of_false not_counts_unchanged (by simp)
  · split
    · rename_i all
      refine iff_of_false not_counts_unchanged ?_
      rintro ⟨edge, member, attached⟩
      have kept := List.length_filter_eq_length_iff.mp all edge member
      exact of_decide_eq_true kept attached
    · rename_i some
      refine iff_of_true (counts_newEdges bounded rfl) ?_
      by_contra none
      push Not at none
      refine some (List.length_filter_eq_length_iff.mpr fun edge member => ?_)
      exact decide_eq_true (not_or.mpr (none edge member))

theorem pulseNode_counts {id : String} :
    state.Counts (state.wrappedSet (state.pulseNode id)) ↔ id ∉ state.pulseNodeIds :=
  counts_ite (counts_quiet rfl rfl)

theorem pulseTimeout_counts {id : String} :
    state.Counts (state.wrappedSet (state.pulseTimeout id)) ↔ id ∈ state.pulseNodeIds := by
  rw [pulseTimeout]
  split
  · rename_i pulsing
    exact iff_of_true (counts_quiet rfl rfl) pulsing
  · rename_i still
    exact iff_of_false not_counts_unchanged still

theorem step_counts_iff (bounded : state.Bounded) (action : StoreAction Value) :
    (∀ next, state.step action = some next → state.Counts next) ↔ state.Effective action := by
  rw [forall_step_iff]
  have total {update : Update Value} {condition : Prop}
      (exact : state.Counts (state.wrappedSet update) ↔ condition) {timers : List String} :
      (some timers ≠ none → state.Counts (state.wrappedSet update)) ↔ condition := by
    rw [← exact]
    exact forall_prop_of_true (Option.some_ne_none timers)
  cases action with
  | setNodes nodes =>
      refine total ((counts_touching rfl).trans ?_)
      simp [Effective, update]
  | setEdges edges =>
      refine total ((counts_touching rfl).trans ?_)
      simp [Effective, update]
  | addNodes added => exact total (addNodes_counts bounded)
  | addEdges added => exact total (addEdges_counts bounded)
  | setGraph nodes edges => exact total (iff_true_intro (counts_newNodes bounded rfl))
  | addGraph nodes edges => exact total (addGraph_counts bounded)
  | setVisibleEdges visibleEdges => exact total (iff_true_intro (counts_quiet rfl rfl))
  | pulseNode id => exact total pulseNode_counts
  | pulseTimeout id =>
      have pending : state.timersAfter (.pulseTimeout id) ≠ none ↔ id ∈ state.timers := by
        simp [timersAfter]
      rw [pending]
      exact imp_congr_right fun _ => pulseTimeout_counts
  | selectNode id multi => exact total (iff_true_intro (counts_quiet rfl rfl))
  | selectEdge id multi => exact total (iff_true_intro (counts_quiet rfl rfl))
  | clearSelection => exact total (iff_true_intro (counts_quiet rfl rfl))
  | openNodeDrawer id => exact total (iff_true_intro (counts_quiet rfl rfl))
  | closeNodeDrawer => exact total (iff_true_intro (counts_quiet rfl rfl))
  | setViewport viewport => exact total (iff_true_intro (counts_quiet rfl rfl))
  | setLoading isLoading => exact total (iff_true_intro (counts_quiet rfl rfl))
  | addLoadingRegion region => exact total (iff_true_intro (counts_quiet rfl rfl))
  | removeLoadingRegion region => exact total (iff_true_intro (counts_quiet rfl rfl))
  | setHydrationPhase phase => exact total (iff_true_intro (counts_quiet rfl rfl))
  | setActiveLens lensId => exact total (iff_true_intro (counts_quiet rfl rfl))
  | setTraceOrigin origin => exact total (iff_true_intro (counts_quiet rfl rfl))
  | setTraceDirection direction => exact total (iff_true_intro (counts_quiet rfl rfl))
  | setTraceDepth depth => exact total (iff_true_intro (counts_quiet rfl rfl))
  | cacheRegion key nodes => exact total (iff_true_intro (counts_quiet rfl rfl))
  | clearCache => exact total (iff_true_intro (counts_quiet rfl rfl))
  | setEditing isEditing => exact total (iff_true_intro (counts_quiet rfl rfl))
  | updateNode id data => exact total (iff_true_intro (counts_newNodes bounded rfl))
  | removeNode id => exact total (iff_true_intro (counts_newNodes bounded rfl))
  | removeNodes ids => exact total (removeNodes_counts bounded)
  | removeEdge id => exact total (iff_true_intro (counts_newEdges bounded rfl))
  | removeEdges ids => exact total (removeEdges_counts bounded)
  | removeEdgesByNodeIds nodeIds => exact total (removeEdgesByNodeIds_counts bounded)

/-- The version of the store counts the changes in every step of a run exactly if no action
of the run returns the state itself or sets an array that is there. -/
theorem version_counts_iff (viewport : Viewport) (activeLensId : Option String)
    (actions : List (StoreAction Value)) :
    Meets step (fun state action => ∀ next, state.step action = some next → state.Counts next)
        (initial viewport activeLensId) actions ↔
      Meets step Effective (initial viewport activeLensId) actions :=
  meets_congr_of Bounded (fun _ _ _ _ => step_bounded) (fun _ action bounded =>
    step_counts_iff bounded action) ⟨Nat.zero_lt_two, Nat.one_lt_two⟩

/-- Pulsing a node that pulses already counts as a change. -/
theorem pulsed_twice :
    ¬ Meets step (fun state action => ∀ next, state.step action = some next → state.Counts next)
      (initial ⟨0, 0, 1⟩ none : Store String) [.pulseNode "orders", .pulseNode "orders"] := by
  intro counts
  have kept := (counts.2 _ rfl).1 _ rfl
  exact absurd (kept.kept rfl rfl) (by decide)

/-- The nodes and edges without their identities. -/
def graph (state : Store Value) : CanvasState Value :=
  ⟨state.nodes.items, state.edges.items, state.nodeIndex, state.edgeIndex, state.version⟩

/-- An action on the graph. -/
def plain : StoreAction Value → Option (Action Value)
  | .setNodes nodes => some (.setNodes nodes.items)
  | .setEdges edges => some (.setEdges edges.items)
  | .addNodes added => some (.addNodes added)
  | .addEdges added => some (.addEdges added)
  | .setGraph nodes edges => some (.setGraph nodes edges)
  | .addGraph nodes edges => some (.addGraph nodes edges)
  | .updateNode id data => some (.updateNode id data)
  | .removeNode id => some (.removeNode id)
  | .removeNodes ids => some (.removeNodes ids)
  | .removeEdge id => some (.removeEdge id)
  | .removeEdges ids => some (.removeEdges ids)
  | .removeEdgesByNodeIds nodeIds => some (.removeEdgesByNodeIds nodeIds)
  | _ => none

theorem graph_wrappedSet_ite {condition : Prop} [Decidable condition]
    {after : CanvasState Value} (changed : (state.wrappedSet change).graph = after) :
    (state.wrappedSet (if condition then state.unchanged else change)).graph =
      if condition then state.graph.touch else after := by
  split
  · rfl
  · exact changed

theorem graph_removeEdgesByNodeIds {nodeIds : List String} :
    (state.wrappedSet (state.removeEdgesByNodeIds nodeIds)).graph =
      state.graph.removeEdgesByNodeIds nodeIds := by
  simp only [removeEdgesByNodeIds, CanvasState.removeEdgesByNodeIds]
  split
  · rfl
  · exact graph_wrappedSet_ite rfl

theorem graph_update {graphAction : Action Value} (isPlain : plain action = some graphAction) :
    state.graph.step graphAction = some (state.wrappedSet (state.update action)).graph := by
  cases action with
  | addNodes added =>
      cases isPlain
      simp only [CanvasState.step, CanvasState.addNodes, update, addNodes]
      rw [graph_wrappedSet_ite rfl]
      rfl
  | addEdges added =>
      cases isPlain
      simp only [CanvasState.step, CanvasState.addEdges, update, addEdges]
      rw [graph_wrappedSet_ite rfl]
      rfl
  | addGraph nodes edges =>
      cases isPlain
      simp only [CanvasState.step, CanvasState.addGraph, update, addGraph]
      rw [graph_wrappedSet_ite rfl]
      rfl
  | removeNodes ids =>
      cases isPlain
      simp only [CanvasState.step, CanvasState.removeNodes, update, removeNodes]
      rw [graph_wrappedSet_ite rfl]
      rfl
  | removeEdges ids =>
      cases isPlain
      simp only [CanvasState.step, CanvasState.removeEdges, update, removeEdges]
      rw [graph_wrappedSet_ite rfl]
      rfl
  | removeEdgesByNodeIds nodeIds =>
      cases isPlain
      exact congrArg some graph_removeEdgesByNodeIds.symm
  | setNodes | setEdges | setGraph | updateNode | removeNode | removeEdge =>
      cases isPlain
      rfl
  | _ => cases isPlain

/-- On the graph the whole store does what its part for the graph does. -/
theorem graph_step {graphAction : Action Value} (isPlain : plain action = some graphAction)
    (stepped : state.step action = some next) :
    state.graph.step graphAction = some next.graph := by
  obtain ⟨timers, _, rfl⟩ := Option.map_eq_some_iff.mp stepped
  exact graph_update isPlain

end Store

end Univiz.CanvasStore

import Mathlib.Data.List.Nodup
import Univiz.Hydration.Canvas

namespace Univiz.Hydration

open Univiz.Data

/-! `searchChildren`: the children of a node are replaced by those that a search finds. -/

/-- How the call of the provider ends; the task may have been aborted by then. -/
inductive Outcome (Content : Type) where
  | failed
  | aborted
  | returned (result : ChildrenWithEdges Content)

/-- The white space and line terminators that `trim` removes. -/
def isTrimmed (char : Char) : Bool :=
  char.toNat ∈ [9, 10, 11, 12, 13, 32, 160, 5760, 8192, 8193, 8194, 8195, 8196, 8197, 8198, 8199,
    8200, 8201, 8202, 8232, 8233, 8239, 8287, 12288, 65279]

def isBlank (query : String) : Bool := query.toList.all isTrimmed

variable {Content : Type}

namespace Canvas

variable (canvas : Canvas Content) (parentId : String)

def existingEdgesToRemove : List LineageEdge :=
  canvas.edges.filter fun edge => edge.source = parentId

def edgeIdsToRemove : List String := (canvas.existingEdgesToRemove parentId).map LineageEdge.id

/-- The targets of the edges from the parent that no other edge has; in the source they are a
set. -/
def nodeIdsToRemove : List String :=
  let otherEdges := canvas.edges.filter fun edge => edge.source ≠ parentId
  let safeNodesToKeep := otherEdges.map LineageEdge.target
  ((canvas.existingEdgesToRemove parentId).map LineageEdge.target).filter fun id =>
    id ∉ safeNodesToKeep

def withoutChildren : Canvas Content :=
  (canvas.removeNodes (graphKeys Content) (canvas.nodeIdsToRemove parentId)).removeEdges
    (graphKeys Content) (canvas.edgeIdsToRemove parentId)

def searchChildren (query : String) (outcome : Outcome Content) : Canvas Content :=
  if isBlank query then canvas
  else
    match outcome with
    | .failed => canvas
    | .aborted => canvas
    | .returned result =>
        if result.children.length > 0 then
          let remainingNodeIds :=
            canvas.nodeIds.filter fun id => id ∉ canvas.nodeIdsToRemove parentId
          (canvas.withoutChildren parentId).add (graphKeys Content)
            (nodesToAdd remainingNodeIds result.children) result.edgesToAdd
        else canvas.withoutChildren parentId

end Canvas

/-- A search on a canvas whose edges have distinct ids, when the call of the provider has ended. -/
structure Search (Content : Type) where
  canvas : Canvas Content
  exact : canvas.Exact (graphKeys Content)
  distinctEdges : canvas.edgeIds.Nodup
  parentId : String
  query : String
  outcome : Outcome Content

namespace Search

variable (search : Search Content) (types : EdgeTypes)

def after : Canvas Content :=
  search.canvas.searchChildren search.parentId search.query search.outcome

def Removed (id : String) : Prop :=
  id ∈ search.canvas.nodeIds ∧ id ∉ search.after.nodeIds

def ChildOf (parentId childId : String) : Prop :=
  ∃ edge ∈ search.canvas.edges, types.isContainmentEdge edge = true ∧ edge.source = parentId ∧
    edge.target = childId

/-- Only containment children without another container are gone, and only edges that contain
children or touch a node that is gone. -/
def Frames : Prop :=
  (∀ id, search.Removed id → search.ChildOf types search.parentId id ∧
    ∀ other, other ≠ search.parentId → ¬ search.ChildOf types other id) ∧
  ∀ edge ∈ search.canvas.edges, edge.id ∉ search.after.edgeIds →
    types.isContainmentEdge edge = true ∧ edge.source = search.parentId ∨
      search.Removed edge.source ∨ search.Removed edge.target

/-- The parent has an edge to the node, and nothing else has. -/
def Only (id : String) : Prop :=
  (∃ edge ∈ search.canvas.edges, edge.source = search.parentId ∧ edge.target = id) ∧
    ∀ edge ∈ search.canvas.edges, edge.source ≠ search.parentId → edge.target ≠ id

/-- A node of the canvas to which only the parent leads, and which the search does not find. -/
def Lost (result : ChildrenWithEdges Content) (id : String) : Prop :=
  id ∈ search.canvas.nodeIds ∧ search.Only id ∧ id ∉ result.children.map GraphNode.urn

/-- The ids of the edges that come with the children, if there are any. -/
def brought (result : ChildrenWithEdges Content) : List String :=
  if result.children.length > 0 then result.edgesToAdd.map LineageEdge.id else []

def Spares (result : ChildrenWithEdges Content) : Prop :=
  (∀ id, search.Lost result id → search.ChildOf types search.parentId id) ∧
  ∀ edge ∈ search.canvas.edges,
    edge.source = search.parentId ∨ search.Only edge.source ∨ search.Only edge.target →
    edge.id ∉ brought result →
    types.isContainmentEdge edge = true ∧ edge.source = search.parentId ∨
      search.Lost result edge.source ∨ search.Lost result edge.target

/-- The query is blank, the call brings no result, or the result spares what it should. -/
def Careful : Prop :=
  isBlank search.query = true ∨
    ∀ result, search.outcome = .returned result → search.Spares types result

variable {search types} {result : ChildrenWithEdges Content} {id : String} {edge : LineageEdge}

theorem mem_nodeIdsToRemove :
    id ∈ search.canvas.nodeIdsToRemove search.parentId ↔ search.Only id := by
  simp only [Canvas.nodeIdsToRemove, Canvas.existingEdgesToRemove, List.mem_filter, List.mem_map,
    decide_eq_true_eq, Only, not_exists, not_and, ne_eq, and_assoc]

theorem mem_edgeIdsToRemove (member : edge ∈ search.canvas.edges) :
    edge.id ∈ search.canvas.edgeIdsToRemove search.parentId ↔ edge.source = search.parentId := by
  simp only [Canvas.edgeIdsToRemove, Canvas.existingEdgesToRemove, List.mem_map, List.mem_filter,
    decide_eq_true_eq]
  constructor
  · rintro ⟨other, ⟨inside, outgoing⟩, same⟩
    have equal : other = edge := List.inj_on_of_nodup_map search.distinctEdges inside member same
    exact equal ▸ outgoing
  · intro outgoing
    exact ⟨edge, ⟨member, outgoing⟩, rfl⟩

theorem mem_nodeIds_without :
    id ∈ Canvas.nodeIds (search.canvas.withoutChildren search.parentId) ↔
      id ∈ search.canvas.nodeIds ∧ ¬ search.Only id := by
  rw [Canvas.nodeIds, KeyedGraph.nodeKeys, Canvas.withoutChildren, KeyedGraph.nodes_removeEdges,
    ← mem_nodeIdsToRemove]
  exact KeyedGraph.mem_nodeKeys_removeNodes

theorem mem_edgeIds_without (member : edge ∈ search.canvas.edges) :
    edge.id ∈ Canvas.edgeIds (search.canvas.withoutChildren search.parentId) ↔
      ¬ (edge.source = search.parentId ∨ search.Only edge.source ∨ search.Only edge.target) := by
  have kept (other : LineageEdge) (inside : other ∈ search.canvas.edges) :
      other ∈ (search.canvas.withoutChildren search.parentId).edges ↔
        ¬ (other.source = search.parentId ∨ search.Only other.source ∨
          search.Only other.target) := by
    simp only [Canvas.withoutChildren, KeyedGraph.mem_edges_removeEdges,
      KeyedGraph.mem_edges_removeNodes, graphKeys, mem_nodeIdsToRemove, mem_edgeIdsToRemove inside,
      inside, true_and]
    tauto
  have known (other : LineageEdge)
      (inside : other ∈ (search.canvas.withoutChildren search.parentId).edges) :
      other ∈ search.canvas.edges :=
    (KeyedGraph.mem_edges_removeNodes.mp (KeyedGraph.mem_edges_removeEdges.mp inside).1).1
  rw [← kept edge member]
  constructor
  · intro present
    obtain ⟨other, inside, same⟩ := List.mem_map.mp present
    have equal : other = edge :=
      List.inj_on_of_nodup_map search.distinctEdges (known other inside) member same
    exact equal ▸ inside
  · exact List.mem_map_of_mem

theorem exact_without :
    (search.canvas.withoutChildren search.parentId).Exact (graphKeys Content) :=
  (search.exact.removeNodes _).removeEdges _

section Returned

variable (asked : isBlank search.query = false) (returned : search.outcome = .returned result)

include asked returned

theorem after_found (found : result.children.length > 0) : search.after =
    (search.canvas.withoutChildren search.parentId).add (graphKeys Content)
      (nodesToAdd (search.canvas.nodeIds.filter fun id =>
        id ∉ search.canvas.nodeIdsToRemove search.parentId) result.children) result.edgesToAdd := by
  simp only [after, Canvas.searchChildren, asked, returned, Bool.false_eq_true, if_false,
    if_pos found]

theorem after_nothing (nothing : ¬ result.children.length > 0) :
    search.after = search.canvas.withoutChildren search.parentId := by
  simp only [after, Canvas.searchChildren, asked, returned, Bool.false_eq_true, if_false,
    if_neg nothing]

theorem mem_nodeIds_after : id ∈ search.after.nodeIds ↔
    id ∈ search.canvas.nodeIds ∧ ¬ search.Only id ∨ id ∈ result.children.map GraphNode.urn := by
  by_cases found : result.children.length > 0
  · rw [after_found asked returned found, Canvas.nodeIds,
      KeyedGraph.mem_nodeKeys_add exact_without, ← Canvas.nodeIds, mem_nodeIds_without]
    have added : id ∈ (nodesToAdd (search.canvas.nodeIds.filter fun id =>
          id ∉ search.canvas.nodeIdsToRemove search.parentId) result.children).map
          LineageNode.id ↔
        id ∈ result.children.map GraphNode.urn ∧
          ¬ (id ∈ search.canvas.nodeIds ∧ ¬ search.Only id) := by
      rw [mem_nodesToAdd, List.mem_filter, decide_eq_true_eq, mem_nodeIdsToRemove]
    rw [graphKeys, added]
    tauto
  · rw [after_nothing asked returned found, mem_nodeIds_without]
    have empty : result.children = [] := List.length_eq_zero_iff.mp (by omega)
    simp [empty]

theorem mem_edgeIds_after (member : edge ∈ search.canvas.edges) :
    edge.id ∈ search.after.edgeIds ↔
      ¬ (edge.source = search.parentId ∨ search.Only edge.source ∨ search.Only edge.target) ∨
        edge.id ∈ brought result := by
  by_cases found : result.children.length > 0
  · rw [after_found asked returned found, Canvas.edgeIds,
      KeyedGraph.mem_edgeKeys_add exact_without, ← Canvas.edgeIds, mem_edgeIds_without member,
      brought, if_pos found, graphKeys]
  · rw [after_nothing asked returned found, mem_edgeIds_without member, brought, if_neg found]
    simp

theorem removed_iff : search.Removed id ↔ search.Lost result id := by
  rw [Removed, mem_nodeIds_after asked returned, Lost]
  tauto

theorem frames_iff_spares : search.Frames types ↔ search.Spares types result := by
  simp only [Frames, Spares, removed_iff asked returned]
  refine and_congr ?_ ?_
  · refine forall_congr' fun id => ?_
    constructor
    · intro removed lost
      exact (removed lost).1
    · intro child lost
      refine ⟨child lost, ?_⟩
      rintro other different ⟨edge, inside, _, source, target⟩
      exact lost.2.1.2 edge inside (source ▸ different) target
  · refine forall_congr' fun edge => forall_congr' fun member => ?_
    rw [mem_edgeIds_after asked returned member]
    tauto

end Returned

/-- A search that brings no result changes nothing. -/
theorem frames_of_same (same : search.after = search.canvas) : search.Frames types := by
  refine ⟨?_, ?_⟩
  · rintro id ⟨present, absent⟩
    exact absurd (same ▸ present) absent
  · intro edge member absent
    refine absurd ?_ absent
    rw [same]
    exact List.mem_map_of_mem member

theorem searchChildren_frames_iff (search : Search Content) (types : EdgeTypes) :
    search.Frames types ↔ search.Careful types := by
  by_cases asked : isBlank search.query = true
  · refine iff_of_true (frames_of_same ?_) (.inl asked)
    simp only [after, Canvas.searchChildren, asked, if_true]
  · rw [Careful, or_iff_right asked]
    rw [Bool.not_eq_true] at asked
    cases outcome : search.outcome with
    | failed =>
        refine iff_of_true (frames_of_same ?_) nofun
        simp only [after, Canvas.searchChildren, asked, outcome, Bool.false_eq_true, if_false]
    | aborted =>
        refine iff_of_true (frames_of_same ?_) nofun
        simp only [after, Canvas.searchChildren, asked, outcome, Bool.false_eq_true, if_false]
    | returned result =>
        rw [frames_iff_spares asked outcome]
        constructor
        · rintro spares _ ⟨⟩
          exact spares
        · intro spares
          exact spares result rfl

end Search

/-- A node with an edge of lineage to another, and a search that finds nothing. -/
def lineageOnly : Search Unit where
  canvas := {
    nodes := [⟨"p", none, none, none, ()⟩, ⟨"x", none, none, none, ()⟩]
    edges := [⟨"e", "p", "x", "FLOWS_TO", ""⟩]
    nodeIndex := {"p", "x"}
    edgeIndex := {"e"} }
  exact := ⟨by simp [KeyedGraph.nodeKeys, graphKeys], by simp [KeyedGraph.edgeKeys, graphKeys]⟩
  distinctEdges := List.nodup_singleton _
  parentId := "p"
  query := "q"
  outcome := .returned ⟨[], [], []⟩

/-- The other node is gone, although the edge to it is of lineage. -/
theorem lineageOnly_removed : ¬ lineageOnly.Frames ⟨id, ["CONTAINS"]⟩ := by
  rintro ⟨nodes, _⟩
  have removed : lineageOnly.Removed "x" := by
    unfold Search.Removed
    decide
  obtain ⟨⟨edge, member, contains, _⟩, _⟩ := nodes "x" removed
  cases List.mem_singleton.mp member
  revert contains
  decide

end Univiz.Hydration

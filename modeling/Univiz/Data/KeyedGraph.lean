import Univiz.Data.Indexed

namespace Univiz.Data

/-! Graphs of keyed nodes and edges that are kept beside the sets of their keys. -/

/-- What tells the nodes and the edges of a graph apart, and what an edge joins. -/
structure GraphKeys (ν ε κ : Type) where
  node : ν → κ
  edge : ε → κ
  source : ε → κ
  target : ε → κ

structure KeyedGraph (ν ε κ : Type) where
  nodes : List ν
  edges : List ε
  nodeIndex : Finset κ
  edgeIndex : Finset κ

namespace KeyedGraph

variable {ν ε κ : Type} [DecidableEq κ] (keys : GraphKeys ν ε κ) (graph : KeyedGraph ν ε κ)

def nodeKeys : List κ := graph.nodes.map keys.node

def edgeKeys : List κ := graph.edges.map keys.edge

/-- The nodes and edges that the indexes do not have are added. -/
def add (newNodes : List ν) (newEdges : List ε) : KeyedGraph ν ε κ :=
  let uniqueNodes := unindexed keys.node graph.nodeIndex newNodes
  let uniqueEdges := unindexed keys.edge graph.edgeIndex newEdges
  if uniqueNodes.length = 0 ∧ uniqueEdges.length = 0 then graph
  else
    { nodes := graph.nodes ++ uniqueNodes
      edges := graph.edges ++ uniqueEdges
      nodeIndex := addKeys keys.node graph.nodeIndex uniqueNodes
      edgeIndex := addKeys keys.edge graph.edgeIndex uniqueEdges }

/-- The nodes of some keys are removed, with the edges that touch a key. -/
def removeNodes (removed : List κ) : KeyedGraph ν ε κ :=
  if removed.length = 0 then graph
  else
    let remainingEdges := graph.edges.filter fun edge =>
      keys.source edge ∉ removed ∧ keys.target edge ∉ removed
    { nodes := graph.nodes.filter fun node => keys.node node ∉ removed
      edges := remainingEdges
      nodeIndex := eraseKeys graph.nodeIndex removed
      edgeIndex := (remainingEdges.map keys.edge).toFinset }

def removeEdges (removed : List κ) : KeyedGraph ν ε κ :=
  if removed.length = 0 then graph
  else
    { graph with
      edges := graph.edges.filter fun edge => keys.edge edge ∉ removed
      edgeIndex := eraseKeys graph.edgeIndex removed }

/-- The indexes are the sets of the keys. -/
structure Exact : Prop where
  nodes : ∀ key, key ∈ graph.nodeIndex ↔ key ∈ graph.nodeKeys keys
  edges : ∀ key, key ∈ graph.edgeIndex ↔ key ∈ graph.edgeKeys keys

variable {keys graph} {removed : List κ} {newNodes : List ν} {newEdges : List ε} {key : κ}
  {node : ν} {edge : ε}

theorem nodes_add : (graph.add keys newNodes newEdges).nodes =
    graph.nodes ++ unindexed keys.node graph.nodeIndex newNodes := by
  simp only [add]
  split
  · rename_i nothing
    rw [List.length_eq_zero_iff.mp nothing.1, List.append_nil]
  · rfl

theorem edges_add : (graph.add keys newNodes newEdges).edges =
    graph.edges ++ unindexed keys.edge graph.edgeIndex newEdges := by
  simp only [add]
  split
  · rename_i nothing
    rw [List.length_eq_zero_iff.mp nothing.2, List.append_nil]
  · rfl

theorem mem_unindexed {α : Type} {name : α → κ} {index : Finset κ} {added : List α} {entry : α} :
    entry ∈ unindexed name index added ↔ entry ∈ added ∧ name entry ∉ index := by
  rw [unindexed, List.mem_filter, decide_eq_true_eq]

/-- A key that the index has is kept, and one that it does not have is added. -/
theorem mem_map_unindexed {α : Type} {name : α → κ} {index : Finset κ} {old added : List α}
    (exact' : ∀ key, key ∈ index ↔ key ∈ old.map name) :
    key ∈ (old ++ unindexed name index added).map name ↔
      key ∈ old.map name ∨ key ∈ added.map name := by
  rw [List.map_append, List.mem_append]
  constructor
  · rintro (kept | new)
    · exact .inl kept
    · obtain ⟨entry, member, rfl⟩ := List.mem_map.mp new
      exact .inr (List.mem_map_of_mem (mem_unindexed.mp member).1)
  · rintro (kept | new)
    · exact .inl kept
    · obtain ⟨entry, member, rfl⟩ := List.mem_map.mp new
      by_cases known : name entry ∈ index
      · exact .inl ((exact' _).mp known)
      · exact .inr (List.mem_map_of_mem (mem_unindexed.mpr ⟨member, known⟩))

theorem mem_nodeKeys_add (exact' : graph.Exact keys) :
    key ∈ (graph.add keys newNodes newEdges).nodeKeys keys ↔
      key ∈ graph.nodeKeys keys ∨ key ∈ newNodes.map keys.node := by
  rw [nodeKeys, nodes_add]
  exact mem_map_unindexed exact'.nodes

theorem mem_edgeKeys_add (exact' : graph.Exact keys) :
    key ∈ (graph.add keys newNodes newEdges).edgeKeys keys ↔
      key ∈ graph.edgeKeys keys ∨ key ∈ newEdges.map keys.edge := by
  rw [edgeKeys, edges_add]
  exact mem_map_unindexed exact'.edges

theorem Exact.add (exact' : graph.Exact keys) (newNodes : List ν) (newEdges : List ε) :
    (graph.add keys newNodes newEdges).Exact keys := by
  rw [KeyedGraph.add]
  split
  · exact exact'
  · constructor
    · intro key
      rw [mem_addKeys, nodeKeys, List.map_append, List.mem_append, exact'.nodes, nodeKeys]
    · intro key
      rw [mem_addKeys, edgeKeys, List.map_append, List.mem_append, exact'.edges, edgeKeys]

theorem mem_nodes_removeNodes : node ∈ (graph.removeNodes keys removed).nodes ↔
    node ∈ graph.nodes ∧ keys.node node ∉ removed := by
  rw [removeNodes]
  split
  · rename_i nothing
    rw [List.length_eq_zero_iff.mp nothing]
    simp
  · rw [List.mem_filter, decide_eq_true_eq]

theorem mem_edges_removeNodes : edge ∈ (graph.removeNodes keys removed).edges ↔
    edge ∈ graph.edges ∧ keys.source edge ∉ removed ∧ keys.target edge ∉ removed := by
  rw [removeNodes]
  split
  · rename_i nothing
    rw [List.length_eq_zero_iff.mp nothing]
    simp
  · rw [List.mem_filter, decide_eq_true_eq]

theorem mem_nodeKeys_removeNodes : key ∈ (graph.removeNodes keys removed).nodeKeys keys ↔
    key ∈ graph.nodeKeys keys ∧ key ∉ removed := by
  simp only [nodeKeys, List.mem_map, mem_nodes_removeNodes]
  constructor
  · rintro ⟨node, ⟨member, kept⟩, rfl⟩
    exact ⟨⟨node, member, rfl⟩, kept⟩
  · rintro ⟨⟨node, member, rfl⟩, kept⟩
    exact ⟨node, ⟨member, kept⟩, rfl⟩

theorem nodes_removeEdges : (graph.removeEdges keys removed).nodes = graph.nodes := by
  rw [removeEdges]
  split <;> rfl

theorem mem_edges_removeEdges : edge ∈ (graph.removeEdges keys removed).edges ↔
    edge ∈ graph.edges ∧ keys.edge edge ∉ removed := by
  rw [removeEdges]
  split
  · rename_i nothing
    rw [List.length_eq_zero_iff.mp nothing]
    simp
  · rw [List.mem_filter, decide_eq_true_eq]

theorem Exact.removeNodes (exact' : graph.Exact keys) (removed : List κ) :
    (graph.removeNodes keys removed).Exact keys := by
  constructor
  · intro key
    rw [mem_nodeKeys_removeNodes, KeyedGraph.removeNodes]
    split
    · rename_i nothing
      rw [List.length_eq_zero_iff.mp nothing, exact'.nodes]
      simp
    · rw [mem_eraseKeys, exact'.nodes]
  · intro key
    rw [KeyedGraph.removeNodes]
    split
    · exact exact'.edges key
    · exact List.mem_toFinset

theorem Exact.removeEdges (exact' : graph.Exact keys) (removed : List κ) :
    (graph.removeEdges keys removed).Exact keys := by
  rw [KeyedGraph.removeEdges]
  split
  · exact exact'
  · refine ⟨exact'.nodes, fun key => ?_⟩
    rw [mem_eraseKeys, exact'.edges]
    simp only [edgeKeys, List.mem_map, List.mem_filter, decide_eq_true_eq]
    constructor
    · rintro ⟨⟨edge, member, rfl⟩, kept⟩
      exact ⟨edge, ⟨member, kept⟩, rfl⟩
    · rintro ⟨edge, ⟨member, kept⟩, rfl⟩
      exact ⟨⟨edge, member, rfl⟩, kept⟩

end KeyedGraph

end Univiz.Data

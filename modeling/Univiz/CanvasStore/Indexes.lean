import Univiz.CanvasStore.Graph
import Univiz.Data.Transition

namespace Univiz.CanvasStore

open Univiz.Data

/-! When the indexes of the canvas store are the ids of its nodes and edges. -/

namespace CanvasState

variable {Value : Type} {state : CanvasState Value} {nodes newNodes : List (LineageNode Value)}
  {edges newEdges : List LineageEdge}

structure Consistent (state : CanvasState Value) : Prop where
  nodes : Indexed LineageNode.id state.nodes state.nodeIndex
  edges : Indexed LineageEdge.id state.edges state.edgeIndex

/-- What an action brings in has distinct ids, where the action does not see to that. -/
def BringsDistinct (state : CanvasState Value) : Action Value → Prop
  | .setNodes nodes => (nodes.map LineageNode.id).Nodup
  | .setEdges edges => (edges.map LineageEdge.id).Nodup
  | .addNodes newNodes =>
      ((unindexed LineageNode.id state.nodeIndex newNodes).map LineageNode.id).Nodup
  | .addEdges newEdges =>
      ((unindexed LineageEdge.id state.edgeIndex newEdges).map LineageEdge.id).Nodup
  | .addGraph newNodes newEdges =>
      ((unindexed LineageNode.id state.nodeIndex newNodes).map LineageNode.id).Nodup ∧
        ((unindexed LineageEdge.id state.edgeIndex newEdges).map LineageEdge.id).Nodup
  | .setGraph _ _ | .updateNode _ _ | .removeNode _ | .removeNodes _ | .removeEdge _
  | .removeEdges _ | .removeEdgesByNodeIds _ => True

theorem consistent_initial : (initial : CanvasState Value).Consistent := ⟨.nil, .nil⟩

theorem touch_consistent : state.touch.Consistent ↔ state.Consistent :=
  ⟨fun ⟨nodes, edges⟩ => ⟨nodes, edges⟩, fun ⟨nodes, edges⟩ => ⟨nodes, edges⟩⟩

theorem setNodes_consistent (consistent : state.Consistent) :
    (state.setNodes nodes).Consistent ↔ (nodes.map LineageNode.id).Nodup := by
  refine ⟨?_, ?_⟩
  · intro later
    exact later.nodes.distinct
  · intro distinct
    exact ⟨Indexed.toFinset_iff.mpr distinct, consistent.edges⟩

theorem setEdges_consistent (consistent : state.Consistent) :
    (state.setEdges edges).Consistent ↔ (edges.map LineageEdge.id).Nodup := by
  refine ⟨?_, ?_⟩
  · intro later
    exact later.edges.distinct
  · intro distinct
    exact ⟨consistent.nodes, Indexed.toFinset_iff.mpr distinct⟩

theorem addNodes_consistent (consistent : state.Consistent) :
    (state.addNodes newNodes).Consistent ↔
      ((unindexed LineageNode.id state.nodeIndex newNodes).map LineageNode.id).Nodup := by
  simp only [addNodes]
  split
  · rename_i none
    rw [touch_consistent, List.length_eq_zero_iff.mp none]
    exact ⟨fun _ => List.nodup_nil, fun _ => consistent⟩
  · rw [touch_consistent, ← consistent.nodes.append_iff]
    exact ⟨Consistent.nodes, fun nodes => ⟨nodes, consistent.edges⟩⟩

theorem addEdges_consistent (consistent : state.Consistent) :
    (state.addEdges newEdges).Consistent ↔
      ((unindexed LineageEdge.id state.edgeIndex newEdges).map LineageEdge.id).Nodup := by
  simp only [addEdges]
  split
  · rename_i none
    rw [touch_consistent, List.length_eq_zero_iff.mp none]
    exact ⟨fun _ => List.nodup_nil, fun _ => consistent⟩
  · rw [touch_consistent, ← consistent.edges.append_iff]
    exact ⟨Consistent.edges, fun edges => ⟨consistent.nodes, edges⟩⟩

theorem addGraph_consistent (consistent : state.Consistent) :
    (state.addGraph newNodes newEdges).Consistent ↔
      ((unindexed LineageNode.id state.nodeIndex newNodes).map LineageNode.id).Nodup ∧
        ((unindexed LineageEdge.id state.edgeIndex newEdges).map LineageEdge.id).Nodup := by
  simp only [addGraph]
  split
  · rename_i none
    rw [touch_consistent, List.length_eq_zero_iff.mp none.1, List.length_eq_zero_iff.mp none.2]
    exact ⟨fun _ => ⟨List.nodup_nil, List.nodup_nil⟩, fun _ => consistent⟩
  · rw [touch_consistent, ← consistent.nodes.append_iff, ← consistent.edges.append_iff]
    exact ⟨fun ⟨nodes, edges⟩ => ⟨nodes, edges⟩, fun ⟨nodes, edges⟩ => ⟨nodes, edges⟩⟩

theorem setGraph_consistent : (state.setGraph nodes edges).Consistent :=
  ⟨Indexed.dedupBy nodes, Indexed.dedupBy edges⟩

variable {id : String} {ids nodeIds : List String}

theorem updateNode_consistent (consistent : state.Consistent) {data : OrderedMap String Value} :
    (state.updateNode id data).Consistent := by
  refine ⟨consistent.nodes.of_map ?_, consistent.edges⟩
  intro node
  split <;> rfl

theorem removeNodes_consistent (consistent : state.Consistent) :
    (state.removeNodes ids).Consistent := by
  simp only [removeNodes]
  split
  · exact touch_consistent.mpr consistent
  · refine ⟨consistent.nodes.filter_erase ?_, consistent.edges.filter _⟩
    intro node _
    simp

theorem removeNode_consistent (consistent : state.Consistent) :
    (state.removeNode id).Consistent := by
  refine ⟨?_, consistent.edges.filter _⟩
  have gone : Indexed LineageNode.id (state.nodes.filter fun node => node.id ≠ id)
      (eraseKeys state.nodeIndex [id]) := by
    refine consistent.nodes.filter_erase ?_
    intro node _
    simp
  exact gone

theorem removeEdges_consistent (consistent : state.Consistent) :
    (state.removeEdges ids).Consistent := by
  simp only [removeEdges]
  split
  · exact touch_consistent.mpr consistent
  · refine ⟨consistent.nodes, consistent.edges.filter_erase ?_⟩
    intro edge _
    simp

theorem removeEdge_consistent (consistent : state.Consistent) :
    (state.removeEdge id).Consistent := by
  refine ⟨consistent.nodes, ?_⟩
  have gone : Indexed LineageEdge.id (state.edges.filter fun edge => edge.id ≠ id)
      (eraseKeys state.edgeIndex [id]) := by
    refine consistent.edges.filter_erase ?_
    intro edge _
    simp
  exact gone

theorem removeEdgesByNodeIds_consistent (consistent : state.Consistent) :
    (state.removeEdgesByNodeIds nodeIds).Consistent := by
  unfold removeEdgesByNodeIds
  split
  · exact touch_consistent.mpr consistent
  · dsimp only
    split
    · exact touch_consistent.mpr consistent
    · refine ⟨consistent.nodes, consistent.edges.filter_erase ?_⟩
      intro edge member
      rw [List.mem_map]
      refine ⟨?_, ?_⟩
      · -- An edge that is kept has an id of its own.
        intro ⟨removed, inside, same⟩
        obtain ⟨member', attached⟩ := List.mem_filter.mp inside
        cases consistent.edges.eq_of_key member' member same
        simpa [or_iff_not_imp_left] using attached
      · intro attached
        refine ⟨edge, List.mem_filter.mpr ⟨member, ?_⟩, rfl⟩
        simpa [or_iff_not_imp_left] using attached

theorem step_consistent_iff (consistent : state.Consistent) (action : Action Value) :
    (∀ next, state.step action = some next → next.Consistent) ↔ state.BringsDistinct action := by
  have total {next : CanvasState Value} {condition : Prop} (exact : next.Consistent ↔ condition) :
      (∀ later, some next = some later → later.Consistent) ↔ condition := by
    rw [← exact]
    exact ⟨fun kept => kept next rfl, fun kept later same => Option.some.inj same ▸ kept⟩
  cases action with
  | setNodes nodes => exact total (setNodes_consistent consistent)
  | setEdges edges => exact total (setEdges_consistent consistent)
  | addNodes newNodes => exact total (addNodes_consistent consistent)
  | addEdges newEdges => exact total (addEdges_consistent consistent)
  | setGraph nodes edges => exact total (iff_true_intro setGraph_consistent)
  | addGraph newNodes newEdges => exact total (addGraph_consistent consistent)
  | updateNode id data => exact total (iff_true_intro (updateNode_consistent consistent))
  | removeNode id => exact total (iff_true_intro (removeNode_consistent consistent))
  | removeNodes ids => exact total (iff_true_intro (removeNodes_consistent consistent))
  | removeEdge id => exact total (iff_true_intro (removeEdge_consistent consistent))
  | removeEdges ids => exact total (iff_true_intro (removeEdges_consistent consistent))
  | removeEdgesByNodeIds nodeIds =>
      exact total (iff_true_intro (removeEdgesByNodeIds_consistent consistent))

/-- The indexes are right throughout a run exactly if no action brings in an id twice. -/
theorem always_consistent_iff (actions : List (Action Value)) :
    Always step Consistent (initial : CanvasState Value) actions ↔
      Meets step BringsDistinct initial actions :=
  always_iff_meets (fun _ => True) (fun _ _ _ _ _ => trivial)
    (fun _ action _ consistent => step_consistent_iff consistent action) trivial
    consistent_initial

/-- `addNodes` of one new node that is given twice. -/
theorem addNodes_twice :
    ¬ Always step Consistent (initial : CanvasState String)
      [.addNodes [⟨"orders", .empty⟩, ⟨"orders", .empty⟩]] := by
  intro always
  have kept := always.2 _ rfl
  exact absurd kept.nodes.distinct (by decide)

end CanvasState

end Univiz.CanvasStore

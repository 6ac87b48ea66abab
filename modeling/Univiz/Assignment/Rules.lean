import Univiz.Assignment.Engine

namespace Univiz.Assignment

open Univiz.Data

/-! The index of the rules has those of the layers, and no others. -/

variable {runtime : Runtime} {layers : List ViewLayerConfig} {layer : ViewLayerConfig}
  {index : RuleIndex} {node : GraphNode} {candidate : Candidate} {urn layerId : String}
  {config : EntityAssignmentConfig}

namespace Runtime

/-- A rule takes a node by its type, by one of its tags or by its URN. -/
def Matches (runtime : Runtime) (rule : LayerAssignmentRuleConfig) (node : GraphNode) : Prop :=
  node.entityType ∈ rule.entityTypes.getD [] ∨ (∃ tag ∈ node.tags, tag ∈ rule.tags.getD []) ∨
    ∃ regex, runtime.compilePattern rule = some regex ∧ regex node.urn = true

/-- A layer takes a node by one of its rules or by one of its own entity types. -/
def Offers (runtime : Runtime) (layer : ViewLayerConfig) (node : GraphNode)
    (rule : LayerAssignmentRuleConfig) : Prop :=
  (rule ∈ layer.rules.getD [] ∧ runtime.Matches rule node) ∨
    (node.entityType ∈ layer.entityTypes.getD [] ∧ rule = layer.typeRule node.entityType)

theorem mem_candidates_indexRule {rule : LayerAssignmentRuleConfig} :
    candidate ∈ (runtime.indexRule layerId index rule).candidates node ↔
      candidate ∈ index.candidates node ∨
        (runtime.Matches rule node ∧ candidate = ⟨layerId, rule⟩) := by
  simp only [RuleIndex.candidates, indexRule, List.mem_append, List.mem_flatMap, mem_filed_foldl,
    List.filter_append, List.map_append, Matches]
  have byPattern : candidate ∈ (((runtime.compilePattern rule).toList.map fun regex =>
      ((⟨layerId, rule⟩ : Candidate), regex)).filter fun pattern => pattern.2 node.urn).map
        Prod.fst ↔ (∃ regex, runtime.compilePattern rule = some regex ∧ regex node.urn = true) ∧
          candidate = ⟨layerId, rule⟩ := by
    cases runtime.compilePattern rule with
    | none => simp
    | some regex =>
        by_cases fits : regex node.urn = true
        · simp [fits]
        · simp [fits]
  rw [byPattern]
  grind

theorem mem_candidates_indexLayer :
    candidate ∈ (runtime.indexLayer index layer).candidates node ↔
      candidate ∈ index.candidates node ∨
        (runtime.Offers layer node candidate.rule ∧ candidate.layerId = layer.id) := by
  have ruled (start : RuleIndex) :
      candidate ∈ ((layer.rules.getD []).foldl (runtime.indexRule layer.id) start).candidates
          node ↔
        candidate ∈ start.candidates node ∨ ∃ rule ∈ layer.rules.getD [],
          runtime.Matches rule node ∧ candidate = ⟨layer.id, rule⟩ :=
    holds_foldl_iff (fun index : RuleIndex => candidate ∈ index.candidates node) _
      fun _ _ => mem_candidates_indexRule
  have typed (start : RuleIndex) :
      candidate ∈ ({ start with
        byType := (layer.entityTypes.getD []).foldl
          (fun byType type => file byType type ⟨layer.id, layer.typeRule type⟩)
          start.byType } : RuleIndex).candidates node ↔
        candidate ∈ start.candidates node ∨ (node.entityType ∈ layer.entityTypes.getD [] ∧
          candidate = ⟨layer.id, layer.typeRule node.entityType⟩) := by
    simp only [RuleIndex.candidates, List.mem_append, mem_filed_foldl]
    grind
  rw [indexLayer, typed, ruled, or_assoc]
  apply or_congr_right
  obtain ⟨layerId, rule⟩ := candidate
  simp only [Candidate.mk.injEq, Offers]
  grind

theorem mem_candidates :
    candidate ∈ (runtime.buildRuleIndex layers).candidates node ↔
      ∃ layer ∈ layers, runtime.Offers layer node candidate.rule ∧
        candidate.layerId = layer.id := by
  have grows (index : RuleIndex) (layer : ViewLayerConfig) :
      candidate ∈ (runtime.indexLayer index layer).candidates node ↔
        candidate ∈ index.candidates node ∨
          (runtime.Offers layer node candidate.rule ∧ candidate.layerId = layer.id) :=
    mem_candidates_indexLayer
  rw [buildRuleIndex,
    holds_foldl_iff (fun index : RuleIndex => candidate ∈ index.candidates node) _ grows]
  simp [RuleIndex.candidates, RuleIndex.empty, filed]

end Runtime

def ViewLayerConfig.placements (layer : ViewLayerConfig) :
    List (String × EntityAssignmentConfig) :=
  (layer.entityAssignments.getD []).map fun config => (layer.id, config)

/-- The instance assignment of an entity: of several the last. -/
def instanceOf (layers : List ViewLayerConfig) (urn : String) :
    Option (String × EntityAssignmentConfig) :=
  (layers.flatMap ViewLayerConfig.placements).reverse.find? fun placed => placed.2.entityId = urn

theorem mem_of_instanceOf (placed : instanceOf layers urn = some (layerId, config)) :
    ∃ layer ∈ layers, layerId = layer.id := by
  have member := List.mem_reverse.mp (List.mem_of_find?_eq_some placed)
  obtain ⟨layer, listed, within⟩ := List.mem_flatMap.mp member
  obtain ⟨_, _, same⟩ := List.mem_map.mp within
  exact ⟨layer, listed, (congrArg Prod.fst same).symm⟩

namespace Runtime

theorem instances_indexLayer : (runtime.indexLayer index layer).instances =
    layer.placements.foldl (fun instances placed => instances.set placed.2.entityId placed)
      index.instances := by
  rw [ViewLayerConfig.placements, List.foldl_map]
  exact foldl_unchanged RuleIndex.instances fun _ _ => rfl

theorem get_instances :
    (runtime.buildRuleIndex layers).instances.get urn = instanceOf layers urn := by
  have placed (start : RuleIndex) : (layers.foldl runtime.indexLayer start).instances =
      (layers.flatMap ViewLayerConfig.placements).foldl
        (fun instances placed => instances.set placed.2.entityId placed) start.instances := by
    induction layers generalizing start with
    | nil => rfl
    | cons layer rest ih =>
        rw [List.foldl_cons, ih, instances_indexLayer, List.flatMap_cons, List.foldl_append]
  rw [buildRuleIndex, placed, get_foldl_last]
  simp [instanceOf, RuleIndex.empty]

end Runtime

end Univiz.Assignment

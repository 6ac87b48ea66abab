import Univiz.Canvas.ContainmentMaps
import Univiz.Data.Rose
import Univiz.Data.Worklist
import Univiz.LayerTrees.Rules

namespace Univiz.LayerTrees

open Univiz.Data

/-! `useLayerAssignment`: the layer to which each node belongs. -/

/-- A canvas node, with the fields of its `data` that the hook names. -/
structure Node where
  id : String
  urn : Option String := none
  type : Option String := none
  label : Option String := none
  businessLabel : Option String := none
  classifications : List String := []
  properties : String → Option Value := fun _ => none

structure EntityAssignmentConfig where
  entityId : String
  logicalNodeId : Option String := none

inductive LogicalNodeType where
  | container
  | system
  | group
deriving DecidableEq

def LogicalNodeType.text : LogicalNodeType → String
  | .container => "container"
  | .system => "system"
  | .group => "group"

structure LogicalNode where
  id : String
  name : String
  type : LogicalNodeType

abbrev LogicalNodeConfig := Rose LogicalNode

structure LayerAssignmentRuleConfig where
  id : String
  entityTypes : List String := []
  tags : List String := []
  urnPattern : Option String := none
  propertyMatch : Option RuleCondition := none
  priority : Int

structure ViewLayerConfig where
  id : String
  order : Int
  entityTypes : List String := []
  rules : List LayerAssignmentRuleConfig := []
  entityAssignments : List EntityAssignmentConfig := []
  logicalNodes : List LogicalNodeConfig := []

structure Assignment where
  layerId : String
  logicalNodeId : Option String := none

/-- The options of the hook, with the edges from which the containment maps are made. -/
structure Options where
  nodes : List Node
  sortedLayers : List ViewLayerConfig
  instanceAssignments : OrderedMap String Assignment
  effectiveAssignments : OrderedMap String Assignment
  edges : List Canvas.LineageEdge
  isContainmentEdge : String → Bool
  distinctNodes : (nodes.map Node.id).Nodup
  distinctLayers : (sortedLayers.map ViewLayerConfig.id).Nodup

def ViewLayerConfig.layerRules (layer : ViewLayerConfig) : List LayerAssignmentRule :=
  let explicit := layer.rules.map fun rule =>
    { id := rule.id
      layerId := layer.id
      entityTypes := rule.entityTypes
      tags := rule.tags
      urnPattern := rule.urnPattern
      propertyMatch := rule.propertyMatch
      priority := rule.priority : LayerAssignmentRule }
  let generated := layer.entityTypes.zipIdx.map fun (entityType, idx) =>
    { id := s!"{layer.id}-type-{entityType}"
      layerId := layer.id
      entityTypes := [entityType]
      priority := layer.order * 10 + idx : LayerAssignmentRule }
  explicit ++ generated

def Node.graphNode (node : Node) : GraphNode where
  urn := (truthy node.urn).getD node.id
  entityType := node.type.getD ""
  displayName := ((truthy node.label).or (truthy node.businessLabel)).getD node.id
  properties := node.properties
  tags := node.classifications

/-- A node on the stack, with the layer that it inherits from the node above it. -/
structure Pending where
  nodeId : String
  inheritedLayerId : Option String

namespace Options

variable (options : Options) (runtime : Runtime)

def maps : Canvas.Maps :=
  Canvas.fullRebuild runtime.toUpperCase (fun _ => options.isContainmentEdge) 0 options.edges

def parentOf (nodeId : String) : Option String := (options.maps runtime).parentMap.get nodeId

def childrenOf (nodeId : String) : List String :=
  ((options.maps runtime).childSets.get nodeId).getD []

def explicitAssignments : OrderedMap String String :=
  options.sortedLayers.foldl (fun assignments layer =>
    layer.entityAssignments.foldl (fun assignments config =>
      assignments.set config.entityId layer.id) assignments) .empty

def layerRules : List LayerAssignmentRule :=
  options.sortedLayers.flatMap ViewLayerConfig.layerRules

def addRuleAssignment (assignments : OrderedMap String String) (node : Node) :
    Option (OrderedMap String String) :=
  if options.explicitAssignments.get node.id ≠ none then some assignments
  else
    (runtime.resolveLayerAssignment node.graphNode options.layerRules).map fun ruleLayerId =>
      match truthy ruleLayerId with
      | none => assignments
      | some ruleLayerId => assignments.set node.id ruleLayerId

def ruleAssignments : Option (OrderedMap String String) :=
  options.nodes.foldlM (options.addRuleAssignment runtime) .empty

/-- The priority chain of a node that does not inherit. -/
def ownLayer (ruleAssignments : OrderedMap String String) (pending : Pending) : Option String :=
  (truthy ((options.effectiveAssignments.get pending.nodeId).map Assignment.layerId)).or <|
    (truthy ((options.instanceAssignments.get pending.nodeId).map Assignment.layerId)).or <|
    (truthy (options.explicitAssignments.get pending.nodeId)).or <|
    (truthy (ruleAssignments.get pending.nodeId)).or pending.inheritedLayerId

/-- A node that is contained in another inherits the layer of the one from which it is
reached. -/
def myLayer (ruleAssignments : OrderedMap String String) (pending : Pending) : Option String :=
  let layerId :=
    if options.parentOf runtime pending.nodeId ≠ none ∧ pending.inheritedLayerId ≠ none then
      pending.inheritedLayerId
    else options.ownLayer ruleAssignments pending
  layerId.filter (· ≠ "__UNASSIGNED__")

/-- The loop over the stack, or nothing where the rounds do not suffice. -/
def assignLayers (ruleAssignments : OrderedMap String String) :
    Nat → List Pending → List String → OrderedMap String String →
      Option (OrderedMap String String)
  | _, [], _, effectiveLayer => some effectiveLayer
  | 0, _ :: _, _, _ => none
  | rounds + 1, pending :: stack, processed, effectiveLayer =>
      if pending.nodeId ∈ processed then
        assignLayers ruleAssignments rounds stack processed effectiveLayer
      else
        let myLayerId := options.myLayer runtime ruleAssignments pending
        let children := (options.childrenOf runtime pending.nodeId).map fun child =>
          { nodeId := child, inheritedLayerId := myLayerId : Pending }
        assignLayers ruleAssignments rounds (children ++ stack) (processed ++ [pending.nodeId])
          (match myLayerId with
            | none => effectiveLayer
            | some layerId => effectiveLayer.set pending.nodeId layerId)

def roots : List Pending :=
  (options.nodes.filter fun node => options.parentOf runtime node.id = none).map fun node =>
    ⟨node.id, none⟩

def effectiveLayer (ruleAssignments : OrderedMap String String) (rounds : Nat) :
    Option (OrderedMap String String) :=
  options.assignLayers runtime ruleAssignments rounds (options.roots runtime) [] .empty

def rounds : Nat :=
  options.nodes.length + (edgesOf (options.maps runtime).childSets).length

/-- The effective layer of a node, if the rules can be tested. -/
def layerOf (nodeId : String) : Option String := do
  let ruleAssignments ← options.ruleAssignments runtime
  let effectiveLayer ← options.effectiveLayer runtime ruleAssignments (options.rounds runtime)
  effectiveLayer.get nodeId

variable {options runtime} {ruleAssignments effectiveLayer layers : OrderedMap String String}
  {rounds : Nat} {stack : List Pending} {processed : List String} {nodeId : String}

theorem assignLayers_ends
    (enough : stack.length + remaining (edgesOf (options.maps runtime).childSets) processed ≤
      rounds) :
    ∃ layers, options.assignLayers runtime ruleAssignments rounds stack processed effectiveLayer =
      some layers := by
  induction rounds generalizing stack processed effectiveLayer with
  | zero =>
      have empty : stack = [] := List.length_eq_zero_iff.mp (by omega)
      subst empty
      exact ⟨effectiveLayer, rfl⟩
  | succ rounds ih =>
      cases stack with
      | nil => exact ⟨effectiveLayer, rfl⟩
      | cons pending stack =>
          rw [List.length_cons] at enough
          rw [assignLayers]
          split
          · exact ih (by omega)
          · rename_i fresh
            have fewer : (options.childrenOf runtime pending.nodeId).length +
                remaining (edgesOf (options.maps runtime).childSets)
                  (processed ++ [pending.nodeId]) =
                  remaining (edgesOf (options.maps runtime).childSets) processed := by
              rw [childrenOf, ← successors_edgesOf]
              exact remaining_visit fresh
            apply ih
            rw [List.length_append, List.length_map]
            omega

theorem assignLayers_mono {more : Nat} (fewer : rounds ≤ more)
    (ends : options.assignLayers runtime ruleAssignments rounds stack processed effectiveLayer =
      some layers) :
    options.assignLayers runtime ruleAssignments more stack processed effectiveLayer =
      some layers := by
  induction rounds generalizing more stack processed effectiveLayer with
  | zero =>
      cases stack with
      | nil =>
          rw [assignLayers] at ends ⊢
          exact ends
      | cons => cases ends
  | succ rounds ih =>
      obtain ⟨more, rfl⟩ := Nat.exists_eq_add_of_le' (Nat.le_of_add_left_le fewer)
      cases stack with
      | nil => exact ends
      | cons pending stack =>
          rw [assignLayers] at ends ⊢
          split at ends
          · rename_i known
            rw [if_pos known]
            exact ih (by omega) ends
          · rename_i fresh
            rw [if_neg fresh]
            exact ih (by omega) ends

theorem exists_effectiveLayer (ruleAssignments : OrderedMap String String) :
    ∃ layers, options.effectiveLayer runtime ruleAssignments (options.rounds runtime) =
      some layers := by
  apply assignLayers_ends
  have few : (options.roots runtime).length ≤ options.nodes.length := by
    rw [roots, List.length_map]
    exact List.length_filter_le _ _
  exact Nat.add_le_add few (List.length_filter_le _ _)

/-- Any rounds that suffice lead to the same layers. -/
theorem get_effectiveLayer (tested : options.ruleAssignments runtime = some ruleAssignments)
    (ends : options.effectiveLayer runtime ruleAssignments rounds = some layers) :
    layers.get nodeId = options.layerOf runtime nodeId := by
  obtain ⟨enough, found⟩ : ∃ layers,
      options.effectiveLayer runtime ruleAssignments (options.rounds runtime) = some layers :=
    exists_effectiveLayer ruleAssignments
  have same : layers = enough := by
    rcases Nat.le_total rounds (options.rounds runtime) with fewer | more
    · exact Option.some.inj ((assignLayers_mono fewer ends).symm.trans found)
    · exact Option.some.inj (ends.symm.trans (assignLayers_mono more found))
  rw [layerOf, tested, same]
  change _ = (options.effectiveLayer runtime ruleAssignments (options.rounds runtime)).bind _
  rw [found]
  rfl

end Options

end Univiz.LayerTrees

import Mathlib.Data.List.Sort
import Univiz.Data.Buckets
import Univiz.Data.Ranking

namespace Univiz.Assignment

open Univiz.Data

/-! `AssignmentEngine`: the layer of a view to which each entity belongs. -/

structure GraphNode where
  urn : String
  entityType : String
  tags : List String
deriving DecidableEq

structure GraphEdge where
  sourceUrn : String
  targetUrn : String
  edgeType : String
deriving DecidableEq

structure LayerAssignmentRuleConfig where
  id : String
  priority : Int
  entityTypes : Option (List String)
  tags : Option (List String)
  urnPattern : Option String
deriving DecidableEq

structure EntityAssignmentConfig where
  entityId : String
  logicalNodeId : Option String
deriving DecidableEq

structure ViewLayerConfig where
  id : String
  entityTypes : Option (List String)
  rules : Option (List LayerAssignmentRuleConfig)
  entityAssignments : Option (List EntityAssignmentConfig)
deriving DecidableEq

structure LayerAssignmentRequest where
  layers : List ViewLayerConfig
  includeEdges : Bool

structure EntityAssignment where
  entityId : String
  layerId : String
  logicalNodeId : Option String := none
  ruleId : Option String := none
  isInherited : Bool := false
  inheritedFromId : Option String := none
  confidence : Rat := 1
deriving DecidableEq

structure LayerAssignmentStats where
  totalNodes : Nat
  assignedNodes : Nat

structure LayerAssignmentResult where
  assignments : OrderedMap String EntityAssignment
  parentMap : OrderedMap String String
  edges : List GraphEdge
  unassignedEntityIds : List String
  stats : LayerAssignmentStats

/-- What Python does to texts: the upper case of one, and a regular expression that ignores
case, to be matched from the start of a text.  Some texts are no regular expressions. -/
structure Runtime where
  upper : String → String
  compile : String → Option (String → Bool)

/-- A rule of a layer, under which the layer takes an entity. -/
structure Candidate where
  layerId : String
  rule : LayerAssignmentRuleConfig

structure RuleIndex where
  byType : OrderedMap String (List Candidate)
  byTag : OrderedMap String (List Candidate)
  patterns : List (Candidate × (String → Bool))
  instances : OrderedMap String (String × EntityAssignmentConfig)

def RuleIndex.empty : RuleIndex := ⟨.empty, .empty, [], .empty⟩

/-- The rule that stands for an entity type of the layer itself. -/
def ViewLayerConfig.typeRule (layer : ViewLayerConfig) (type : String) :
    LayerAssignmentRuleConfig where
  id := s!"_type_{layer.id}_{type}"
  priority := 0
  entityTypes := some [type]
  tags := none
  urnPattern := none

namespace Runtime

variable (runtime : Runtime)

/-- The pattern of a rule, like a glob, as a regular expression. -/
def compilePattern (rule : LayerAssignmentRuleConfig) : Option (String → Bool) :=
  match rule.urnPattern with
  | none => none
  | some urnPattern =>
      if urnPattern = "" then none
      else
        let pattern := ((urnPattern.replace "." "\\.").replace "*" ".*").replace "?" "."
        runtime.compile ("^" ++ pattern ++ "$")

def indexRule (layerId : String) (index : RuleIndex) (rule : LayerAssignmentRuleConfig) :
    RuleIndex where
  byType := (rule.entityTypes.getD []).foldl
    (fun byType type => file byType type ⟨layerId, rule⟩) index.byType
  byTag := (rule.tags.getD []).foldl (fun byTag tag => file byTag tag ⟨layerId, rule⟩) index.byTag
  patterns := index.patterns ++
    (runtime.compilePattern rule).toList.map fun regex => (⟨layerId, rule⟩, regex)
  instances := index.instances

def indexLayer (index : RuleIndex) (layer : ViewLayerConfig) : RuleIndex :=
  let assigned := { index with
    instances := (layer.entityAssignments.getD []).foldl
      (fun instances config => instances.set config.entityId (layer.id, config)) index.instances }
  let ruled := (layer.rules.getD []).foldl (runtime.indexRule layer.id) assigned
  { ruled with
    byType := (layer.entityTypes.getD []).foldl
      (fun byType type => file byType type ⟨layer.id, layer.typeRule type⟩) ruled.byType }

def buildRuleIndex (layers : List ViewLayerConfig) : RuleIndex :=
  layers.foldl runtime.indexLayer RuleIndex.empty

/-- The types of the edges that contain, in upper case. -/
def containmentTypes : Option (List String) → List String
  | some types => types.map runtime.upper
  | none => ["CONTAINS", "BELONGS_TO"]

def addParent (types : List String) (parentMap : OrderedMap String String) (edge : GraphEdge) :
    OrderedMap String String :=
  if runtime.upper edge.edgeType ∉ types then parentMap
  else if runtime.upper edge.edgeType = "BELONGS_TO" then
    parentMap.set edge.sourceUrn edge.targetUrn
  else parentMap.set edge.targetUrn edge.sourceUrn

def buildParentCache (edges : List GraphEdge) (containmentEdgeTypes : Option (List String)) :
    OrderedMap String String :=
  edges.foldl (runtime.addParent (runtime.containmentTypes containmentEdgeTypes)) OrderedMap.empty

end Runtime

/-- The entries of the parent map that a walk has not used yet. -/
def unvisited (parentMap : OrderedMap String String) (visited : List String) : Nat :=
  (parentMap.entries.filter fun entry => entry.1 ∉ visited).length

theorem unvisited_lt {parentMap : OrderedMap String String} {visited : List String}
    {current parent : String} (linked : parentMap.get current = some parent)
    (fresh : current ∉ visited) :
    unvisited parentMap (current :: visited) < unvisited parentMap visited := by
  have member := OrderedMap.get_eq_some.mp linked
  have fewer : parentMap.entries.filter (fun entry => entry.1 ∉ current :: visited) =
      (parentMap.entries.filter fun entry => entry.1 ∉ visited).filter
        fun entry => entry.1 ≠ current := by
    rw [List.filter_filter]
    apply List.filter_congr
    intro entry _
    simp
  rw [unvisited, unvisited, fewer]
  apply List.length_filter_lt_length_iff_exists.mpr
  exact ⟨_, List.mem_filter.mpr ⟨member, decide_eq_true fresh⟩, by simp⟩

def ancestorsFrom (parentMap : OrderedMap String String) (visited : List String)
    (current : String) : List String :=
  match linked : parentMap.get current with
  | none => []
  | some parent =>
      if fresh : current ∈ visited then []
      else
        have := unvisited_lt linked fresh
        parent :: ancestorsFrom parentMap (current :: visited) parent
termination_by unvisited parentMap visited

def getAncestors (parentMap : OrderedMap String String) (entityId : String) : List String :=
  ancestorsFrom parentMap [] entityId

def depth (parentMap : OrderedMap String String) (node : GraphNode) : Nat :=
  (getAncestors parentMap node.urn).length

/-- The rules under which the layers take an entity. -/
def RuleIndex.candidates (index : RuleIndex) (node : GraphNode) : List Candidate :=
  filed index.byType node.entityType ++ node.tags.flatMap (filed index.byTag) ++
    (index.patterns.filter fun pattern => pattern.2 node.urn).map Prod.fst

def byPriority : Descending fun candidate : Candidate => candidate.rule.priority :=
  Descending.stable _

def resolveAssignment (node : GraphNode) (parentId : Option String)
    (parentAssignment : Option EntityAssignment) (index : RuleIndex)
    (layers : List ViewLayerConfig) : Option EntityAssignment :=
  match index.instances.get node.urn with
  | some (layerId, config) =>
      some {
        entityId := node.urn
        layerId := layerId
        logicalNodeId := config.logicalNodeId }
  | none =>
      match parentAssignment.filter fun assignment => assignment.layerId ≠ "unassigned" with
      | some assignment =>
          some {
            entityId := node.urn
            layerId := assignment.layerId
            logicalNodeId := assignment.logicalNodeId
            isInherited := true
            inheritedFromId := parentId
            confidence := assignment.confidence }
      | none =>
          match byPriority.arrange (index.candidates node) with
          | winner :: _ =>
              some {
                entityId := node.urn
                layerId := winner.layerId
                ruleId := some winner.rule.id }
          | [] =>
              layers.head?.map fun first =>
                { entityId := node.urn, layerId := first.id, confidence := 1 / 2 }

/-- The parents before their children. -/
def nodesByDepth (parentMap : OrderedMap String String) (nodes : List GraphNode) :
    List GraphNode :=
  nodes.insertionSort fun node other => depth parentMap node ≤ depth parentMap other

/-- The assignments so far, and the entities that have none. -/
def assignNode (parentMap : OrderedMap String String) (index : RuleIndex)
    (layers : List ViewLayerConfig)
    (progress : OrderedMap String EntityAssignment × List String) (node : GraphNode) :
    OrderedMap String EntityAssignment × List String :=
  let parentId := parentMap.get node.urn
  let parentAssignment := (parentId.filter fun parent => parent ≠ "").bind progress.1.get
  match resolveAssignment node parentId parentAssignment index layers with
  | some assignment => (progress.1.set node.urn assignment, progress.2)
  | none => (progress.1, progress.2 ++ [node.urn])

/-- The assignments of the nodes and edges that the engine has fetched. -/
def computeAssignments (runtime : Runtime) (containmentEdgeTypes : List String)
    (request : LayerAssignmentRequest) (nodes : List GraphNode) (edges : List GraphEdge) :
    LayerAssignmentResult :=
  let index := runtime.buildRuleIndex request.layers
  let parentMap := runtime.buildParentCache edges (some containmentEdgeTypes)
  let progress := (nodesByDepth parentMap nodes).foldl (assignNode parentMap index request.layers)
    (OrderedMap.empty, [])
  { assignments := progress.1
    parentMap := parentMap
    edges := if request.includeEdges then edges else []
    unassignedEntityIds := progress.2
    stats := { totalNodes := nodes.length, assignedNodes := progress.1.size } }

end Univiz.Assignment

import Univiz.LevelTrace.Search

namespace Univiz.LevelTrace

open Univiz.Trace

/-! `FalkorDBProvider.expand_aggregated`. -/

structure DrillQuery where
  sourceUrn : Urn
  targetUrn : Urn
  nextLevel : Int
  lineageEdgeTypes : List String
  containmentEdgeTypes : List String
  maxNodes : Nat
  useRawEdges : Bool := false

/-- The rows of the four branches of the descendant query. -/
structure DescendantRows where
  sourceAnchor : List Urn
  source : List Urn
  targetAnchor : List Urn
  target : List Urn

/-- What the database answers to the two queries, unless they raise, and whether the deadline
has passed between them. -/
structure DrillReplies where
  descendants : Option DescendantRows
  edges : List Urn → List Urn → Option (List Relationship)
  expired : Bool

/-- The depth of the variable-length pattern. -/
def ProviderConfig.maxDepth (config : ProviderConfig) : Nat :=
  max config.entityTypeLevels.length 10

variable (provider : LevelProvider) (replies : DrillReplies) (query : DrillQuery)

namespace DrillQuery

def containmentTypes : List String := query.containmentEdgeTypes.map provider.config.upper

def lineageTypes : List String := query.lineageEdgeTypes.map provider.config.upper

def peerTypes : List String := provider.config.typesAtLevel query.nextLevel

def edgeQuery : EdgeQuery := ⟨query.useRawEdges, query.lineageTypes provider⟩

end DrillQuery

/-- `_collect_descendants_pair_at_level`. -/
def collectDescendantsPair : Option (List Urn × List Urn) :=
  if query.peerTypes provider = [] then some ([], [])
  else
    replies.descendants.map fun rows =>
      ((rows.sourceAnchor ++ rows.source).dedup, (rows.targetAnchor ++ rows.target).dedup)

/-- A query that raises counts as one without rows. -/
def edgesBetweenSets (sourceUrns targetUrns : List Urn) : List Relationship :=
  if sourceUrns = [] ∨ targetUrns = [] then []
  else if query.useRawEdges ∧ query.lineageTypes provider = [] then []
  else firstRows [] ((replies.edges sourceUrns targetUrns).getD [])

structure DrillResult where
  nodes : List GraphNode
  edges : List Relationship
  containmentEdges : List GraphEdge
  focus : TraceFocus
  effectiveLevel : Int
  truncated : Bool
  truncationReason : Option String

/-- The two sets of descendants, and a reason if they could not be collected in time. -/
def drillSets : List Urn × List Urn × Option String :=
  let (sets, failure) := match collectDescendantsPair provider replies query with
    | some sets => (sets, none)
    | none => (([], []), some "descendants_failed")
  (sets.1, sets.2, failure.or (if replies.expired then some "timeout" else none))

def drillEdges : List Relationship :=
  let (sourceUrns, targetUrns, reason) := drillSets provider replies query
  if sourceUrns ≠ [] ∧ targetUrns ≠ [] ∧ reason = none then
    edgesBetweenSets provider replies query sourceUrns targetUrns
  else []

/-- The nodes to return, and whether there are too many of them. -/
def drillNodes : List Urn × Bool :=
  let (sourceUrns, targetUrns, _) := drillSets provider replies query
  let edges := drillEdges provider replies query
  let urnsInEdges := (edges.flatMap fun edge => [edge.source.urn, edge.target.urn]).dedup
  let allUrns := (sourceUrns ++ targetUrns).dedup
  let kept := if edges = [] then allUrns else allUrns.filter (· ∈ urnsInEdges)
  if query.maxNodes < kept.length then (urnsInEdges.take query.maxNodes, true) else (kept, false)

def drillFetched : Except String (AList fun _ : Urn => GraphNode) := do
  let (urns, _) := drillNodes provider replies query
  let fetched ← (if urns = [] then .ok [] else provider.getNodesBatch urns)
  return putNodes ∅ fetched

def expandAggregated : Except String DrillResult := do
  let (_, _, reason) := drillSets provider replies query
  let (_, tooMany) := drillNodes provider replies query
  let fetched ← drillFetched provider replies query
  let (nodesByUrn, containmentEdges, failed) ←
    hydrateChain provider (query.containmentTypes provider) fetched
  let anchorNode ← (match nodesByUrn.lookup query.sourceUrn with
    | some node => .ok (some node)
    | none => provider.getNode query.sourceUrn)
  let truncationReason := (reason.or (if tooMany then some "max_nodes" else none)).or
    (if failed then some "ancestors_failed" else none)
  return {
    nodes := nodesByUrn.entries.map Sigma.snd
    edges := drillEdges provider replies query
    containmentEdges := containmentEdges
    focus := {
      urn := query.sourceUrn
      level := (anchorNode.bind fun node => provider.config.getNodeLevel node.entityType).getD
        query.nextLevel
      entityType := (anchorNode.map GraphNode.entityType).getD "unknown" }
    effectiveLevel := query.nextLevel
    truncated := truncationReason.isSome
    truncationReason := truncationReason }

end Univiz.LevelTrace

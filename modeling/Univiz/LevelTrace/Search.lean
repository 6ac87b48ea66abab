import Univiz.LevelTrace.Expansion

namespace Univiz.LevelTrace

open Univiz.Trace

/-! `FalkorDBProvider.trace_at_level`. -/

/-- The queries of a trace, and its clock.  The queries of the search and the deadline are
those of the first pass or of the retry, and of a hop.  The queries for an anchor have
fallbacks and do not raise. -/
structure LevelProvider where
  config : ProviderConfig
  getNode : Urn → Except String (Option GraphNode)
  resolveRootAnchor : Urn → List String → Urn × Int
  resolveAnchorAtLevel : Urn → Int → List String → Urn
  hasAggregatedAtLevel : Urn → Int → List String → Bool
  findAncestorWithLineage : Urn → Int → List String → List String → Option Urn
  replies : Bool → Nat → Replies
  expired : Bool → Nat → Bool
  collectAncestorUrns : List Urn → List String → Except String (List Urn)
  getNodesBatch : List Urn → Except String (List GraphNode)
  fetchContainmentEdges : List Urn → List String → Except String (List GraphEdge)

variable (provider : LevelProvider) (query : TraceQuery)

namespace LevelProvider

def containmentTypes : List String := query.containmentEdgeTypes.map provider.config.upper

def lineageTypes : List String := query.lineageEdgeTypes.map provider.config.upper

end LevelProvider

/-- What step 4 starts from. -/
structure Prepared where
  focusNode : Option GraphNode
  focusLevel : Option Int
  focusEntityType : String
  effectiveLevel : Int
  fallbackLevel : Option Int
  anchor : Urn
  inheritedFrom : Option Urn
  anchorNode : Option GraphNode

/-- Step 1: the anchor, the effective level and the fallback level. -/
def requestAnchor (focusLevel : Option Int) : Urn × Int × Option Int :=
  let types := provider.containmentTypes query
  let resolved := provider.resolveAnchorAtLevel query.urn query.level types
  match focusLevel with
  | some focus =>
      if query.level = 0 ∧ types ≠ [] then
        let (root, rootLevel) := provider.resolveRootAnchor query.urn types
        if rootLevel = 0 then (root, query.level, none)
        else if 0 < rootLevel then (root, rootLevel, some rootLevel)
        else if resolved = query.urn ∧ focus ≠ 0 then (resolved, focus, some focus)
        else (resolved, query.level, none)
      else (resolved, query.level, none)
  | none =>
      if query.level = 0 then (query.urn, -1, some (-1)) else (resolved, query.level, none)

/-- Step 2: where the search starts, and the requested anchor if it starts at an ancestor. -/
def inheritAnchor (anchor : Urn) (level : Int) : Urn × Option Urn :=
  let types := provider.lineageTypes query
  if query.includeInheritedLineage ∧ ¬ provider.hasAggregatedAtLevel anchor level types then
    match provider.findAncestorWithLineage anchor level (provider.containmentTypes query) types with
    | some parent => if parent ≠ "" ∧ parent ≠ anchor then (parent, some anchor) else (anchor, none)
    | none => (anchor, none)
  else (anchor, none)

def prepare : Except String Prepared := do
  let focusNode ← provider.getNode query.urn
  let focusLevel := match focusNode with
    | some node => provider.config.getNodeLevel node.entityType
    | none => some query.level
  let (requested, level, fallbackLevel) := requestAnchor provider query focusLevel
  let (anchor, inheritedFrom) := inheritAnchor provider query requested level
  let anchorNode ← provider.getNode anchor
  return {
    focusNode := focusNode
    focusLevel := focusLevel
    focusEntityType := (focusNode.map GraphNode.entityType).getD "unknown"
    effectiveLevel := level
    fallbackLevel := fallbackLevel
    anchor := anchor
    inheritedFrom := inheritedFrom
    anchorNode := anchorNode }

/-- `perSourceCount` has a node once for each aggregated edge that was found from it. -/
structure LevelSearch extends Search where
  perSourceCount : List Urn := []

/-- The values that are the same in all hops of a pass. -/
structure Pass where
  retry : Bool
  level : Int
  focusEntityType : String

/-- The label under which a frontier node is looked up. -/
def frontierLabel (config : ProviderConfig) (search : Search) (urn : Urn) : String :=
  ((search.nodesByUrn.lookup urn).map fun node => config.sanitizeLabel node.entityType).getD ""

def LevelSearch.collect (direction : Direction) (search : LevelSearch) (record : FrontierRecord) :
    LevelSearch where
  toSearch := search.toSearch.collect direction record
  perSourceCount :=
    if record.edgeId ∉ search.edgesById ∧ record.edgeType = "AGGREGATED" then
      (match direction with
        | .incoming => record.targetUrn
        | .outgoing => record.sourceUrn) :: search.perSourceCount
    else search.perSourceCount

variable (pass : Pass)

/-- The records that a side gets in a hop, if it still asks. -/
def hopRecords (hop : Nat) (search : Search) (direction : Direction) :
    Option (List FrontierRecord) :=
  if hop < query.depth direction ∧ search.frontier direction ≠ [] then
    some (expandAggregatedSet provider.config (provider.replies pass.retry hop)
      (search.frontier direction) (frontierLabel provider.config search) direction pass.level
      (provider.lineageTypes query) (query.maxNodes - search.nodesByUrn.keys.length)
      pass.focusEntityType)
  else none

def LevelSearch.absorb (direction : Direction) (search : LevelSearch)
    (records : Option (List FrontierRecord)) : LevelSearch :=
  (records.getD []).foldl (LevelSearch.collect direction) search

def levelHop (hop : Nat) (search : LevelSearch) : LevelSearch :=
  let cleared := { search with toSearch := search.toSearch.clearFrontiers }
  (cleared.absorb .incoming (hopRecords provider query pass hop search.toSearch .incoming)).absorb
    .outgoing (hopRecords provider query pass hop search.toSearch .outgoing)

/-- `for hop in range(max_depth)`, with the hops left and the number of the next one. -/
def levelLoop : Nat → Nat → LevelSearch → LevelSearch
  | 0, _, search => search
  | hopsLeft + 1, hop, search =>
      if provider.expired pass.retry hop then
        { search with truncationReason := some "timeout" }
      else if query.maxNodes ≤ search.nodesByUrn.keys.length then
        { search with truncationReason := some "max_nodes" }
      else if (hopRecords provider query pass hop search.toSearch .incoming).isNone ∧
          (hopRecords provider query pass hop search.toSearch .outgoing).isNone then search
      else
        let searched := levelHop provider query pass hop search
        if searched.upFrontier = [] ∧ searched.downFrontier = [] then searched
        else levelLoop hopsLeft (hop + 1) searched

def levelSearch (search : LevelSearch) : LevelSearch :=
  levelLoop provider query pass (max query.upstreamDepth query.downstreamDepth) 0 search

namespace Prepared

variable (prepared : Prepared)

def firstPass : Pass := ⟨false, prepared.effectiveLevel, prepared.focusEntityType⟩

def firstStart : LevelSearch :=
  { toSearch := .start query prepared.anchor prepared.anchorNode }

def firstSearch : LevelSearch :=
  levelSearch provider query prepared.firstPass (prepared.firstStart query)

/-- `needs_retry`. -/
def NeedsRetry : Prop :=
  (prepared.firstSearch provider query).edgesById.keys = [] ∧ query.level = 0 ∧
    prepared.effectiveLevel = 0 ∧ prepared.inheritedFrom = none ∧ prepared.focusLevel ≠ some 0

instance : Decidable (prepared.NeedsRetry provider query) :=
  inferInstanceAs (Decidable (_ ∧ _ ∧ _ ∧ _ ∧ _))

def retryPass : Pass := ⟨true, prepared.focusLevel.getD (-1), prepared.focusEntityType⟩

/-- The retry starts at the focus, with the truncation reason of the first pass. -/
def retryStart : LevelSearch :=
  { toSearch :=
      { Search.start query query.urn prepared.focusNode with
        truncationReason := (prepared.firstSearch provider query).truncationReason } }

/-- The search of the last pass.  The retry counts no edges. -/
def lastSearch : LevelSearch :=
  if prepared.NeedsRetry provider query then
    { levelSearch provider query prepared.retryPass (prepared.retryStart provider query) with
      perSourceCount := [] }
  else prepared.firstSearch provider query

end Prepared

structure MegaNode where
  urn : Urn
  shown : Nat
  total : Nat
  direction : String
deriving DecidableEq

structure LevelTraceResult extends TraceResult where
  megaNodes : List MegaNode
  fallbackLevel : Option Int
deriving DecidableEq

/-- Step 5, with whether the ancestors could not be collected. -/
def hydrateChain (types : List String) (nodesByUrn : AList fun _ : Urn => GraphNode) :
    Except String ((AList fun _ : Urn => GraphNode) × List GraphEdge × Bool) :=
  if types = [] ∨ nodesByUrn.keys = [] then .ok (nodesByUrn, [], false)
  else do
    let (ancestors, failed) := match provider.collectAncestorUrns nodesByUrn.keys types with
      | .ok ancestors => (ancestors, false)
      | .error _ => ([], true)
    let newAncestors := ancestors.filter (· ∉ nodesByUrn)
    let fetched ← (if newAncestors = [] then .ok [] else provider.getNodesBatch newAncestors)
    let hydrated := putNodes nodesByUrn fetched
    let edges ← (if 1 < hydrated.keys.length then
        provider.fetchContainmentEdges hydrated.keys types
      else .ok [])
    return (hydrated, edges, failed)

/-- The nodes from which at least as many aggregated edges were found as the cap. -/
def megaNodes (anchor : Urn) (search : LevelSearch) : List MegaNode :=
  (search.perSourceCount.dedup.filter fun urn =>
    provider.config.degreeCap ≤ search.perSourceCount.count urn).map fun urn =>
      { urn := urn
        shown := search.perSourceCount.count urn
        total := search.perSourceCount.count urn
        direction :=
          if urn ∈ search.downstreamUrns ∨ urn = anchor then "downstream" else "upstream" }

def traceAtLevel : Except String LevelTraceResult := do
  let prepared ← prepare provider query
  let retried := prepared.NeedsRetry provider query
  let search := prepared.lastSearch provider query
  let (nodesByUrn, containmentEdges, failed) ←
    hydrateChain provider (provider.containmentTypes query) search.nodesByUrn
  let hydrationReason := search.truncationReason.or
    (if failed then some "ancestors_failed" else none)
  let anchor := if retried then query.urn else prepared.anchor
  let mega := megaNodes provider anchor search
  let truncationReason := hydrationReason.or (if mega = [] then none else some "degree_cap")
  return {
    nodes := nodesByUrn.entries.map Sigma.snd
    edges := search.edgesById.entries.map Sigma.snd
    containmentEdges := containmentEdges
    upstreamUrns := search.upstreamUrns
    downstreamUrns := search.downstreamUrns
    focus := {
      urn := query.urn
      level := prepared.focusLevel.getD query.level
      entityType := prepared.focusEntityType }
    effectiveLevel :=
      if retried then (prepared.retryPass).level else prepared.effectiveLevel
    isInherited := prepared.inheritedFrom.isSome
    inheritedFromUrn := prepared.inheritedFrom
    truncated := truncationReason.isSome
    truncationReason := truncationReason
    megaNodes := mega
    fallbackLevel :=
      if retried then some (prepared.retryPass).level else prepared.fallbackLevel }

end Univiz.LevelTrace

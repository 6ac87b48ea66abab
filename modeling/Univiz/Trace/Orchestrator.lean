import Mathlib.Data.List.AList

namespace Univiz.Trace

/-! `TraceOrchestrator.trace_at_level`.

The provider is a record of callbacks, each of which may raise.  The clock is
read once per hop, so it is a function from hops to whether the deadline has
passed.  A Python set is the list of its members in the order they were added,
and a dictionary an association list with distinct keys; neither order is
observable.
-/

abbrev Urn := String

/-- The fields of `GraphNode` that the orchestrator reads. -/
structure GraphNode where
  urn : Urn
  entityType : String
deriving DecidableEq, Repr

structure GraphEdge where
  id : String
  sourceUrn : Urn
  targetUrn : Urn
  edgeType : String
  sourceEdgeTypes : List String
  weight : Nat
deriving DecidableEq, Repr

/-- One edge found by a hop.  `newUrn` is its end away from the frontier. -/
structure FrontierRecord where
  edgeId : String
  sourceUrn : Urn
  targetUrn : Urn
  newUrn : Urn
  edgeType : String := "AGGREGATED"
  weight : Nat := 1
  sourceEdgeTypes : List String := []
  newNode : Option GraphNode := none
deriving DecidableEq, Repr

/-- `"incoming"` leads upstream, `"outgoing"` downstream. -/
inductive Direction where
  | incoming
  | outgoing
deriving DecidableEq, Repr

/-- What a provider supplies.  `expandFrontier` takes the frontier, the
direction, the level, the lineage types and the budget. -/
structure TraceCallbacks where
  getNode : Urn → Except String (Option GraphNode)
  getNodesBatch : List Urn → Except String (List GraphNode)
  getNodeLevel : String → Except String (Option Int)
  resolveAnchorAtLevel : Urn → Int → List String → Except String Urn
  hasAggregatedAtLevel : Urn → Int → Except String Bool
  findAncestorWithLineage : Urn → Int → List String → Except String (Option Urn)
  expandFrontier : List Urn → Direction → Int → Option (List String) → Nat →
    Except String (List FrontierRecord)
  collectAncestorUrns : List Urn → List String → Except String (List Urn)
  fetchContainmentEdges : List Urn → List String → Except String (List GraphEdge)

structure TraceQuery where
  urn : Urn
  level : Int
  upstreamDepth : Nat
  downstreamDepth : Nat
  lineageEdgeTypes : List String
  containmentEdgeTypes : List String
  maxNodes : Nat
  includeInheritedLineage : Bool := true

structure TraceFocus where
  urn : Urn
  level : Int
  entityType : String
deriving DecidableEq, Repr

structure TraceResult where
  nodes : List GraphNode
  edges : List GraphEdge
  containmentEdges : List GraphEdge
  upstreamUrns : List Urn
  downstreamUrns : List Urn
  focus : TraceFocus
  effectiveLevel : Int
  isInherited : Bool
  inheritedFromUrn : Option Urn
  truncated : Bool
  truncationReason : Option String
deriving DecidableEq, Repr

/-- `ltypes`: an empty list of lineage types filters nothing. -/
def TraceQuery.lineageFilter (query : TraceQuery) : Option (List String) :=
  if query.lineageEdgeTypes.isEmpty then none else some query.lineageEdgeTypes

def TraceQuery.depth (query : TraceQuery) : Direction → Nat
  | .incoming => query.upstreamDepth
  | .outgoing => query.downstreamDepth

/-- Steps 1 and 2: where the search starts, and the requested anchor if the
search starts at an ancestor of it instead. -/
def resolveAnchor (callbacks : TraceCallbacks) (query : TraceQuery) :
    Except String (Urn × Option Urn) := do
  let anchor ← callbacks.resolveAnchorAtLevel query.urn query.level query.containmentEdgeTypes
  if query.includeInheritedLineage then
    if ← callbacks.hasAggregatedAtLevel anchor query.level then
      return (anchor, none)
    match ← callbacks.findAncestorWithLineage anchor query.level query.containmentEdgeTypes with
    | some parent =>
        if parent ≠ "" ∧ parent ≠ anchor then return (parent, some anchor)
        else return (anchor, none)
    | none => return (anchor, none)
  else
    return (anchor, none)

/-- The variables of the search loop. -/
structure Search where
  nodesByUrn : AList fun _ : Urn => GraphNode
  edgesById : AList fun _ : String => GraphEdge
  upstreamUrns : List Urn
  downstreamUrns : List Urn
  visited : List Urn
  upFrontier : List Urn
  downFrontier : List Urn
  truncationReason : Option String

namespace Search

def start (query : TraceQuery) (anchor : Urn) (anchorNode : Option GraphNode) : Search where
  nodesByUrn := match anchorNode with
    | some node => AList.singleton anchor node
    | none => ∅
  edgesById := ∅
  upstreamUrns := []
  downstreamUrns := []
  visited := [anchor]
  upFrontier := if 0 < query.upstreamDepth then [anchor] else []
  downFrontier := if 0 < query.downstreamDepth then [anchor] else []
  truncationReason := none

def addEdge (search : Search) (record : FrontierRecord) : Search :=
  { search with
    edgesById :=
      if record.edgeId ∈ search.edgesById then search.edgesById
      else search.edgesById.insert record.edgeId
        { id := record.edgeId, sourceUrn := record.sourceUrn, targetUrn := record.targetUrn,
          edgeType := record.edgeType, sourceEdgeTypes := record.sourceEdgeTypes,
          weight := record.weight } }

def addNode (search : Search) (record : FrontierRecord) : Search :=
  { search with
    nodesByUrn :=
      match record.newNode with
      | some node =>
          if record.newUrn ∈ search.nodesByUrn then search.nodesByUrn
          else search.nodesByUrn.insert record.newUrn node
      | none => search.nodesByUrn }

/-- A node belongs to the side on which it is met first. -/
def visit (direction : Direction) (search : Search) (urn : Urn) : Search :=
  if urn ∈ search.visited then search
  else
    match direction with
    | .incoming =>
        { search with
          visited := urn :: search.visited
          upFrontier := urn :: search.upFrontier
          upstreamUrns := urn :: search.upstreamUrns }
    | .outgoing =>
        { search with
          visited := urn :: search.visited
          downFrontier := urn :: search.downFrontier
          downstreamUrns := urn :: search.downstreamUrns }

/-- `new_up` and `new_down` of a hop start empty. -/
def clearFrontiers (search : Search) : Search :=
  { search with upFrontier := [], downFrontier := [] }

/-- The body of `for rec in recs`. -/
def collect (direction : Direction) (search : Search) (record : FrontierRecord) : Search :=
  ((search.addEdge record).addNode record).visit direction record.newUrn

/-- One element of `zip(tasks, results)`; a side that was given no task has no answer. -/
def absorb (direction : Direction) (search : Search) :
    Option (Except String (List FrontierRecord)) → Search
  | some (.ok records) => records.foldl (collect direction) search
  | some (.error _) => search
  | none => search

def found (search : Search) : Direction → List Urn
  | .incoming => search.upstreamUrns
  | .outgoing => search.downstreamUrns

def frontier (search : Search) : Direction → List Urn
  | .incoming => search.upFrontier
  | .outgoing => search.downFrontier

end Search

/-- The answer one side gets in a hop, if it still asks. -/
def expandTask (callbacks : TraceCallbacks) (query : TraceQuery) (hop : Nat) (search : Search)
    (direction : Direction) : Option (Except String (List FrontierRecord)) :=
  if hop < query.depth direction ∧ search.frontier direction ≠ [] then
    some (callbacks.expandFrontier (search.frontier direction) direction query.level
      query.lineageFilter (query.maxNodes - search.nodesByUrn.keys.length))
  else none

/-- One hop: both sides ask about the frontiers as the hop found them. -/
def expandHop (callbacks : TraceCallbacks) (query : TraceQuery) (hop : Nat) (search : Search) :
    Search :=
  (search.clearFrontiers.absorb .incoming
      (expandTask callbacks query hop search .incoming)).absorb .outgoing
    (expandTask callbacks query hop search .outgoing)

/-- `for hop in range(...)`, with the hops left and the number of the next one. -/
def searchLoop (callbacks : TraceCallbacks) (expired : Nat → Bool) (query : TraceQuery) :
    Nat → Nat → Search → Search
  | 0, _, search => search
  | hopsLeft + 1, hop, search =>
      if expired hop then { search with truncationReason := some "timeout" }
      else if query.maxNodes ≤ search.nodesByUrn.keys.length then
        { search with truncationReason := some "max_nodes" }
      else if (expandTask callbacks query hop search .incoming).isNone ∧
          (expandTask callbacks query hop search .outgoing).isNone then search
      else
        let searched := expandHop callbacks query hop search
        if searched.upFrontier = [] ∧ searched.downFrontier = [] then searched
        else searchLoop callbacks expired query hopsLeft (hop + 1) searched

/-- `for n in fetched: nodes_by_urn[n.urn] = n`. -/
def putNodes (nodesByUrn : AList fun _ : Urn => GraphNode) (fetched : List GraphNode) :
    AList fun _ : Urn => GraphNode :=
  fetched.foldl (fun nodes node => nodes.insert node.urn node) nodesByUrn

/-- Step 5; a failed fetch is only logged. -/
def hydrateNodes (callbacks : TraceCallbacks) (search : Search) :
    AList fun _ : Urn => GraphNode :=
  let missing := search.visited.filter (· ∉ search.nodesByUrn)
  if missing.isEmpty then search.nodesByUrn
  else
    match callbacks.getNodesBatch missing with
    | .ok fetched => putNodes search.nodesByUrn fetched
    | .error _ => search.nodesByUrn

/-- Step 6; a failed callback keeps what was hydrated before it. -/
def hydrateContainment (callbacks : TraceCallbacks) (types : List String)
    (nodesByUrn : AList fun _ : Urn => GraphNode) :
    (AList fun _ : Urn => GraphNode) × List GraphEdge :=
  if types.isEmpty ∨ nodesByUrn.keys = [] then (nodesByUrn, [])
  else
    match callbacks.collectAncestorUrns nodesByUrn.keys types with
    | .error _ => (nodesByUrn, [])
    | .ok ancestors =>
        let newAncestors := ancestors.filter (· ∉ nodesByUrn)
        match if newAncestors.isEmpty then .ok [] else callbacks.getNodesBatch newAncestors with
        | .error _ => (nodesByUrn, [])
        | .ok fetched =>
            let hydrated := putNodes nodesByUrn fetched
            match callbacks.fetchContainmentEdges hydrated.keys types with
            | .error _ => (hydrated, [])
            | .ok edges => (hydrated, edges)

/-- The search from a resolved anchor. -/
def searchFrom (callbacks : TraceCallbacks) (expired : Nat → Bool) (query : TraceQuery)
    (anchor : Urn) (anchorNode : Option GraphNode) : Search :=
  searchLoop callbacks expired query (max query.upstreamDepth query.downstreamDepth) 0
    (.start query anchor anchorNode)

def traceAtLevel (callbacks : TraceCallbacks) (expired : Nat → Bool) (query : TraceQuery) :
    Except String TraceResult := do
  let focusNode ← callbacks.getNode query.urn
  let focusEntityType := (focusNode.map GraphNode.entityType).getD "unknown"
  let (anchor, inheritedFrom) ← resolveAnchor callbacks query
  let anchorNode ← callbacks.getNode anchor
  let search := searchFrom callbacks expired query anchor anchorNode
  let (nodesByUrn, containmentEdges) := hydrateContainment callbacks query.containmentEdgeTypes
    (hydrateNodes callbacks search)
  let focusLevel ← callbacks.getNodeLevel focusEntityType
  return {
    nodes := nodesByUrn.entries.map Sigma.snd
    edges := search.edgesById.entries.map Sigma.snd
    containmentEdges := containmentEdges
    upstreamUrns := search.upstreamUrns
    downstreamUrns := search.downstreamUrns
    focus := {
      urn := query.urn
      level := match focusLevel with
        | some level => if level = 0 then query.level else level
        | none => query.level
      entityType := focusEntityType }
    effectiveLevel := query.level
    isInherited := inheritedFrom.isSome
    inheritedFromUrn := inheritedFrom
    truncated := search.truncationReason.isSome
    truncationReason := search.truncationReason }

end Univiz.Trace

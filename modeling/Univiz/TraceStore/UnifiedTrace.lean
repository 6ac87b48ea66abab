import Univiz.TraceStore.LineageTrace

namespace Univiz.TraceStore

open Univiz.Data

/-! The store of `useUnifiedTrace`.

A provider may answer a call at any time or fail it; the per-edge calls of a batch are
settled together. -/

variable {Content : Type}

structure GraphEdge (Content : Type) where
  id : String
  content : Content

structure TraceV2Result (Content : Type) where
  nodes : List (GraphNode Content)
  edges : List (GraphEdge Content)
  containmentEdges : List (GraphEdge Content)
  upstreamUrns : List String
  downstreamUrns : List String
  focus : Content
  effectiveLevel : Int
  isInherited : Bool
  inheritedFromUrn : Option String
  truncated : Bool
  truncationReason : Option String
  traceMeta : Option Content

structure LineageResult (Content : Type) where
  nodes : List (GraphNode Content)
  edges : List (GraphEdge Content)
  upstreamUrns : List String
  downstreamUrns : List String
  totalCount : Nat
  hasMore : Bool
  aggregatedEdges : Option Content
  inheritedFrom : Option String

structure TraceResult (Content : Type) where
  focusId : String
  traceNodes : List String
  upstreamNodes : List String
  downstreamNodes : List String
  traceEdges : List String
  lineageResult : LineageResult Content
  effectiveLevel : Option Int
  isInherited : Option Bool
  inheritedFromUrn : Option String
  truncated : Option Bool
  truncationReason : Option String
  containmentEdges : Option (List (GraphEdge Content))
  ancestorUrns : Option (List String)
  traceMeta : Option Content

def traceResultFromV2 (focusId focusUrn : String) (v2 : TraceV2Result Content) :
    TraceResult Content :=
  let lineageMembers := focusUrn :: v2.upstreamUrns ++ v2.downstreamUrns
  { focusId
    traceNodes := (focusId :: focusUrn :: v2.nodes.map GraphNode.urn ++ v2.upstreamUrns ++
      v2.downstreamUrns).foldl addUrn []
    upstreamNodes := v2.upstreamUrns.foldl addUrn []
    downstreamNodes := v2.downstreamUrns.foldl addUrn []
    traceEdges := (v2.edges.map GraphEdge.id).foldl addUrn []
    lineageResult := {
      nodes := v2.nodes
      edges := v2.edges
      upstreamUrns := v2.upstreamUrns
      downstreamUrns := v2.downstreamUrns
      totalCount := v2.nodes.length
      hasMore := false
      aggregatedEdges := none
      inheritedFrom := if v2.isInherited then truthy v2.inheritedFromUrn else none }
    effectiveLevel := some v2.effectiveLevel
    isInherited := some v2.isInherited
    inheritedFromUrn := v2.inheritedFromUrn
    truncated := some v2.truncated
    truncationReason := v2.truncationReason
    containmentEdges := some v2.containmentEdges
    ancestorUrns := some
      (((v2.nodes.map GraphNode.urn).filter (· ∉ lineageMembers)).foldl addUrn [])
    traceMeta := v2.traceMeta }

def traceResultFromLegacy (focusId focusUrn : String) (lineage : LineageResult Content) :
    TraceResult Content where
  focusId
  traceNodes := (focusId :: focusUrn :: lineage.nodes.map GraphNode.urn ++ lineage.upstreamUrns ++
    lineage.downstreamUrns).foldl addUrn []
  upstreamNodes := lineage.upstreamUrns.foldl addUrn []
  downstreamNodes := lineage.downstreamUrns.foldl addUrn []
  traceEdges := (lineage.edges.map GraphEdge.id).foldl addUrn []
  lineageResult := lineage
  effectiveLevel := none
  isInherited := none
  inheritedFromUrn := none
  truncated := none
  truncationReason := none
  containmentEdges := none
  ancestorUrns := none
  traceMeta := none

/-- The answer of `traceAtLevel`, or of `getFullLineage` where the provider has no other. -/
inductive TraceAnswer (Content : Type) where
  | v2 (answer : TraceV2Result Content)
  | legacy (answer : LineageResult Content)

def TraceAnswer.result (focusId focusUrn : String) : TraceAnswer Content → TraceResult Content
  | .v2 answer => traceResultFromV2 focusId focusUrn answer
  | .legacy answer => traceResultFromLegacy focusId focusUrn answer

@[simp] theorem TraceAnswer.result_focusId (focusId focusUrn : String)
    (answer : TraceAnswer Content) : (answer.result focusId focusUrn).focusId = focusId := by
  cases answer <;> rfl

def mergeDrilldownResults : List (TraceV2Result Content) → Option (TraceV2Result Content)
  | [] => none
  | [result] => some result
  | first :: second :: rest =>
      let results := first :: second :: rest
      some {
        nodes := index GraphNode.urn (results.flatMap TraceV2Result.nodes)
        edges := index GraphEdge.id (results.flatMap TraceV2Result.edges)
        containmentEdges := index GraphEdge.id (results.flatMap TraceV2Result.containmentEdges)
        upstreamUrns := (results.flatMap TraceV2Result.upstreamUrns).foldl addUrn []
        downstreamUrns := (results.flatMap TraceV2Result.downstreamUrns).foldl addUrn []
        focus := first.focus
        effectiveLevel := first.effectiveLevel
        isInherited := first.isInherited
        inheritedFromUrn := first.inheritedFromUrn
        truncated := results.any TraceV2Result.truncated
        truncationReason := none
        traceMeta := none }

theorem mergeDrilldownResults_isSome {results : List (TraceV2Result Content)} :
    (mergeDrilldownResults results).isSome = true ↔ results ≠ [] := by
  unfold mergeDrilldownResults
  split <;> simp

structure ExpandPair where
  sourceUrn : String
  targetUrn : String
  nextLevel : Int
deriving DecidableEq, Repr

def ExpandPair.pairKey (pair : ExpandPair) : String := pair.sourceUrn ++ "->" ++ pair.targetUrn

def ExpandPair.drilldownKey (pair : ExpandPair) : String :=
  pair.pairKey ++ "@" ++ toString pair.nextLevel

/-- An entry of the drill-downs, with the number of the trace in which it was requested. -/
structure Drilldown (Content : Type) where
  result : TraceV2Result Content
  requested : Nat

structure TraceHistoryEntry where
  focusId : String
  focusUrn : String
  level : Option Int
deriving DecidableEq, Repr

/-- The state of the store, without its configuration and what only the display depends on. -/
structure TraceState (Content : Type) where
  status : TraceStatus
  error : Option String
  focusId : Option String
  result : Option (TraceResult Content)
  drilldowns : OrderedMap String (Drilldown Content)
  traceHistory : List TraceHistoryEntry
  expandingPairs : List String

def TraceState.initial : TraceState Content := ⟨.idle, none, none, none, .empty, [], []⟩

structure FetchCall (Content : Type) where
  nodeId : String
  urn : String
  outcome : Awaited (TraceResult Content)

/-- What an expansion awaits; after a batch that has failed, with the message of that. -/
inductive Expansion where
  | edge
  | batch
  | perEdge (batchError : Option String)
  | ended
deriving DecidableEq, Repr

/-- A call that expands edges, with the number of the trace in which it was made. -/
structure Expand where
  requested : Nat
  pairs : List ExpandPair
  nonempty : pairs ≠ []
  awaits : Expansion

/-- The store with its calls.  The traces are counted by the calls of `fetchTrace` and
`clearTrace`, and `cleared` says that the latest was one of `clearTrace`. -/
structure UnifiedTrace (Content : Type) where
  store : TraceState Content
  fetches : List (FetchCall Content)
  expands : List Expand
  traces : Nat
  cleared : Bool

inductive TraceEvent (Content : Type) where
  | setFocus (nodeId : Option String)
  | fetchTrace (nodeId urn : String)
  | fetched (fetch : Nat) (answer : TraceAnswer Content)
  | fetchFailed (fetch : Nat) (message : Option String)
  | clearTrace
  | expandAggregatedEdge (sourceUrn targetUrn : String) (currentLevel : Int)
  | expanded (expand : Nat) (answer : TraceV2Result Content)
  | expandFailed (expand : Nat) (message : Option String)
  | expandAggregatedEdgesBatch (pairs : List (String × String × Int)) (supported : Bool)
  | batchExpanded (expand : Nat) (answer : TraceV2Result Content)
  | batchFailed (expand : Nat) (message : Option String)
  | perEdgeSettled (expand : Nat) (answers : List (Option (TraceV2Result Content)))

/-- The history has five entries at most. -/
def traceHistoryLimit : Nat := 5

def pushHistory (history : List TraceHistoryEntry) (entry : TraceHistoryEntry) :
    List TraceHistoryEntry :=
  if history.head?.map TraceHistoryEntry.focusId = some entry.focusId then history
  else (entry :: history).take traceHistoryLimit

namespace UnifiedTrace

def init : UnifiedTrace Content := ⟨.initial, [], [], 0, false⟩

variable (trace : UnifiedTrace Content)

def setFocus : Option String → UnifiedTrace Content
  | none =>
      { trace with
        store := { trace.store with
          focusId := none, result := none, status := .idle, drilldowns := .empty } }
  | some nodeId => { trace with store := { trace.store with focusId := some nodeId } }

def fetchTrace (nodeId urn : String) : UnifiedTrace Content where
  store := { trace.store with
    status := .loading, error := none, focusId := some nodeId, drilldowns := .empty }
  fetches := trace.fetches ++ [⟨nodeId, urn, .pending⟩]
  expands := trace.expands
  traces := trace.traces + 1
  cleared := false

def fetched (call : Nat) (nodeId urn : String) (answer : TraceAnswer Content) :
    UnifiedTrace Content :=
  let traceResult := answer.result nodeId urn
  { trace with
    store := { trace.store with
      status := .success
      result := some traceResult
      traceHistory :=
        pushHistory trace.store.traceHistory ⟨nodeId, urn, traceResult.effectiveLevel⟩ }
    fetches := trace.fetches.set call ⟨nodeId, urn, .answered traceResult⟩ }

def fetchFailed (call : Nat) (nodeId urn : String) (message : Option String) :
    UnifiedTrace Content :=
  { trace with
    store := { trace.store with
      status := .error, error := some (message.getD "Failed to fetch trace") }
    fetches := trace.fetches.set call ⟨nodeId, urn, .failed⟩ }

def clearTrace : UnifiedTrace Content where
  store := { trace.store with
    focusId := none, result := none, status := .idle, error := none, drilldowns := .empty
    expandingPairs := [] }
  fetches := trace.fetches
  expands := trace.expands
  traces := trace.traces + 1
  cleared := true

/-- A call of the provider for pairs that have no drill-down yet. -/
def request (pairs : List ExpandPair) (nonempty : pairs ≠ []) (awaits : Expansion) :
    UnifiedTrace Content :=
  { trace with
    store := { trace.store with
      expandingPairs := (pairs.map ExpandPair.pairKey).foldl addUrn trace.store.expandingPairs }
    expands := trace.expands ++ [⟨trace.traces, pairs, nonempty, awaits⟩] }

def cached (pair : ExpandPair) : Bool := (trace.store.drilldowns.get pair.drilldownKey).isSome

def expandAggregatedEdge (sourceUrn targetUrn : String) (currentLevel : Int) :
    UnifiedTrace Content :=
  let pair : ExpandPair := ⟨sourceUrn, targetUrn, currentLevel + 1⟩
  if trace.cached pair then trace else trace.request [pair] (List.cons_ne_nil _ _) .edge

/-- Without a batch endpoint the edges are expanded one by one. -/
def expandAggregatedEdgesBatch (pairs : List (String × String × Int)) (supported : Bool) :
    UnifiedTrace Content :=
  let uncached := (pairs.map fun (sourceUrn, targetUrn, currentLevel) =>
    (⟨sourceUrn, targetUrn, currentLevel + 1⟩ : ExpandPair)).filter fun pair => !trace.cached pair
  if nonempty : uncached ≠ [] then
    trace.request uncached nonempty (if supported then .batch else .perEdge none)
  else trace

/-- What an expansion leaves behind: its drill-downs, its error, and no pair in flight. -/
def settle (call : Nat) (expand : Expand) (merged : Option (TraceV2Result Content))
    (error : Option String) : UnifiedTrace Content :=
  { trace with
    store := { trace.store with
      drilldowns :=
        match merged with
        | none => trace.store.drilldowns
        | some result =>
            (expand.pairs.map ExpandPair.drilldownKey).foldl
              (fun drilldowns key => drilldowns.set key ⟨result, expand.requested⟩)
              trace.store.drilldowns
      error := error.or trace.store.error
      expandingPairs := trace.store.expandingPairs.filter
        (· ∉ expand.pairs.map ExpandPair.pairKey) }
    expands := trace.expands.set call { expand with awaits := .ended } }

/-- The error of the batch is reported only where no edge could be expanded either. -/
def perEdgeSettled (call : Nat) (expand : Expand) (batchError : Option String)
    (answers : List (Option (TraceV2Result Content))) : UnifiedTrace Content :=
  match mergeDrilldownResults (answers.filterMap id) with
  | some merged => trace.settle call expand (some merged) none
  | none => trace.settle call expand none batchError

def step : TraceEvent Content → Option (UnifiedTrace Content)
  | .setFocus nodeId => some (trace.setFocus nodeId)
  | .fetchTrace nodeId urn => some (trace.fetchTrace nodeId urn)
  | .fetched call answer =>
      match trace.fetches[call]? with
      | some ⟨nodeId, urn, .pending⟩ => some (trace.fetched call nodeId urn answer)
      | _ => none
  | .fetchFailed call message =>
      match trace.fetches[call]? with
      | some ⟨nodeId, urn, .pending⟩ => some (trace.fetchFailed call nodeId urn message)
      | _ => none
  | .clearTrace => some trace.clearTrace
  | .expandAggregatedEdge sourceUrn targetUrn currentLevel =>
      some (trace.expandAggregatedEdge sourceUrn targetUrn currentLevel)
  | .expanded call answer =>
      match trace.expands[call]? with
      | some ⟨requested, pairs, nonempty, .edge⟩ =>
          some (trace.settle call ⟨requested, pairs, nonempty, .edge⟩ (some answer) none)
      | _ => none
  | .expandFailed call message =>
      match trace.expands[call]? with
      | some ⟨requested, pairs, nonempty, .edge⟩ =>
          some (trace.settle call ⟨requested, pairs, nonempty, .edge⟩ none
            (some (message.getD "Failed to expand aggregated edge")))
      | _ => none
  | .expandAggregatedEdgesBatch pairs supported =>
      some (trace.expandAggregatedEdgesBatch pairs supported)
  | .batchExpanded call answer =>
      match trace.expands[call]? with
      | some ⟨requested, pairs, nonempty, .batch⟩ =>
          some (trace.settle call ⟨requested, pairs, nonempty, .batch⟩ (some answer) none)
      | _ => none
  | .batchFailed call message =>
      match trace.expands[call]? with
      | some ⟨requested, pairs, nonempty, .batch⟩ =>
          let error := message.getD "Failed to expand aggregated edges (batch)"
          some { trace with
            expands := trace.expands.set call ⟨requested, pairs, nonempty, .perEdge (some error)⟩ }
      | _ => none
  | .perEdgeSettled call answers =>
      match trace.expands[call]? with
      | some ⟨requested, pairs, nonempty, .perEdge batchError⟩ =>
          some (trace.perEdgeSettled call ⟨requested, pairs, nonempty, .perEdge batchError⟩
            batchError answers)
      | _ => none

end UnifiedTrace

end Univiz.TraceStore

import Univiz.Data.OrderedMap
import Univiz.Data.Transition

namespace Univiz.TraceStore

open Univiz.Data

/-! The store of `useLineageTrace`.

A call of `start` or `expand` makes one abort controller, which has the number of the call.
To abort it decides nothing: the response may still arrive.  What the store only carries of
a response is of a type `Content`. -/

inductive FieldValue where
  | null
  | text (value : String)
  | number (value : Int)
  | flag (value : Bool)
  | texts (values : List String)
deriving DecidableEq, Repr

/-- A request body by its fields. -/
abbrev TraceRequest := OrderedMap String FieldValue

/-- `{ ...base, ...fields }`. -/
def spread (base : OrderedMap String α) (fields : List (String × α)) : OrderedMap String α :=
  fields.foldl (fun object field => object.set field.1 field.2) base

def defaultRequest : TraceRequest :=
  spread .empty [("urn", .text ""), ("direction", .text "both"), ("upstreamDepth", .number 5),
    ("downstreamDepth", .number 5), ("targetLevel", .null), ("targetLevelMode", .null),
    ("lineageEdgeTypes", .null), ("containmentEdgeTypes", .null),
    ("includeContainment", .flag true), ("limit", .number 2000), ("cursor", .null),
    ("fields", .text "default")]

structure GraphNode (Content : Type) where
  urn : String
  content : Content

structure TraceEdge (Content : Type) where
  id : String
  content : Content

structure TraceData (Content : Type) where
  nodes : List (GraphNode Content)
  edges : List (TraceEdge Content)
  aggregatedChildCount : OrderedMap String Nat
  expandableUrns : List String
  content : Content

structure TraceMeta (Content : Type) where
  traceSessionId : Option String
  content : Content

structure TraceResultV2 (Content : Type) where
  data : TraceData Content
  traceMeta : TraceMeta Content

structure TraceDeltaData (Content : Type) where
  addedNodes : List (GraphNode Content)
  removedEdges : List String
  addedEdges : List (TraceEdge Content)
  newExpandableUrns : List String
  aggregatedChildCount : OrderedMap String Nat

structure TraceDelta (Content : Type) where
  data : TraceDeltaData Content
  traceMeta : TraceMeta Content

variable {Content : Type}

/-- The values of a `Map` that is filled from a list. -/
def index {α : Type} (key : α → String) (values : List α) : List α :=
  (values.foldl (fun map value => map.set (key value) value) OrderedMap.empty).entries.map Prod.snd

def addUrn (urns : List String) (urn : String) : List String :=
  if urn ∈ urns then urns else urns ++ [urn]

def TraceResultV2.applied (result : TraceResultV2 Content) (delta : TraceDelta Content)
    (expandedUrn : String) : TraceResultV2 Content where
  data := { result.data with
    nodes := index GraphNode.urn (result.data.nodes ++ delta.data.addedNodes)
    edges := index TraceEdge.id
      (result.data.edges.filter (fun edge => edge.id ∉ delta.data.removedEdges) ++
        delta.data.addedEdges)
    aggregatedChildCount :=
      spread result.data.aggregatedChildCount delta.data.aggregatedChildCount.entries
    expandableUrns := delta.data.newExpandableUrns.foldl addUrn
      ((result.data.expandableUrns.foldl addUrn []).filter (· ≠ expandedUrn)) }
  traceMeta := delta.traceMeta

def applyDelta (result : Option (TraceResultV2 Content)) (delta : TraceDelta Content)
    (expandedUrn : String) : Option (TraceResultV2 Content) :=
  result.map fun result => result.applied delta expandedUrn

inductive TraceStatus where
  | idle
  | loading
  | success
  | error
deriving DecidableEq, Repr

structure TraceErrorState where
  code : String
  message : String
deriving DecidableEq, Repr

/-- What a request may throw, other than that it is aborted. -/
inductive Failure where
  | api (code message : String)
  | error (message : String)
  | other
deriving DecidableEq, Repr

def Failure.state (code message : String) : Failure → TraceErrorState
  | .api code message => ⟨code, message⟩
  | .error message => ⟨code, message⟩
  | .other => ⟨code, message⟩

inductive AbortKey where
  | trace
  | expand (urn : String)
deriving DecidableEq, Repr

/-- The state of the store, without what only the display depends on. -/
structure TraceSliceState (Content : Type) where
  wsId : Option String
  focusUrn : Option String
  request : Option TraceRequest
  result : Option (TraceResultV2 Content)
  delta : List (TraceDelta Content)
  status : TraceStatus
  error : Option TraceErrorState
  abortControllers : OrderedMap AbortKey Nat
  pendingExpansionUrns : List String
  pendingFilterRetrace : Bool
  filterDebounceTimer : Bool

def TraceSliceState.initial : TraceSliceState Content where
  wsId := none
  focusUrn := none
  request := none
  result := none
  delta := []
  status := .idle
  error := none
  abortControllers := .empty
  pendingExpansionUrns := []
  pendingFilterRetrace := false
  filterDebounceTimer := false

/-- A request by what has come of it. -/
inductive Awaited (α : Type) where
  | pending
  | answered (answer : α)
  | failed
deriving DecidableEq, Repr

def Awaited.answer : Awaited α → Option α
  | .answered answer => some answer
  | .pending | .failed => none

structure TraceExpandRequest where
  traceSessionId : String
  expandUrn : String
  depthDelta : Nat
deriving DecidableEq, Repr

/-- The backend answers with the session id of the request. -/
def TraceExpandRequest.delta (request : TraceExpandRequest) (data : TraceDeltaData Content)
    (content : Content) : TraceDelta Content :=
  ⟨data, ⟨some request.traceSessionId, content⟩⟩

structure ExpandCall (Content : Type) where
  request : TraceExpandRequest
  outcome : Awaited (TraceDeltaData Content × Content)

/-- The store with the calls of `start` and `expand`, and whether no start has succeeded
since the store was cleared. -/
structure LineageTrace (Content : Type) where
  store : TraceSliceState Content
  starts : List (Awaited (TraceResultV2 Content))
  expands : List (ExpandCall Content)
  cleared : Bool

inductive LineageEvent (Content : Type) where
  | bindWorkspace (wsId : Option String)
  | start (focusUrn : String) (request : TraceRequest)
  | retrace
  | expand (urn : String)
  | clear
  | setEdgeTypeFilter (types : List String)
  | filterDebounce
  | traced (start : Nat) (response : TraceResultV2 Content)
  | traceFailed (start : Nat) (failure : Failure)
  | traceAborted (start : Nat)
  | expanded (expand : Nat) (data : TraceDeltaData Content) (content : Content)
  | expandFailed (expand : Nat) (failure : Failure)
  | expandAborted (expand : Nat)

def truthy (text : Option String) : Option String := text.filter (· ≠ "")

namespace LineageTrace

def init : LineageTrace Content := ⟨.initial, [], [], true⟩

variable (trace : LineageTrace Content)

def clear : LineageTrace Content :=
  { trace with store := { TraceSliceState.initial with wsId := trace.store.wsId }, cleared := true }

def bindWorkspace (wsId : Option String) : LineageTrace Content :=
  if trace.store.wsId = wsId then trace
  else { trace.clear with store := { trace.clear.store with wsId } }

def start (focusUrn : String) (request : TraceRequest) : LineageTrace Content :=
  match truthy trace.store.wsId with
  | none =>
      { trace with
        store := { trace.store with
          status := .error
          error := some ⟨"trace_no_workspace", "No workspace bound to trace store"⟩ }
        starts := trace.starts ++ [.failed] }
  | some _ =>
      let previous := (trace.store.request.map OrderedMap.entries).getD []
      { trace with
        store := { trace.store with
          focusUrn := some focusUrn
          request := some (spread (spread (spread defaultRequest previous) request.entries)
            [("urn", .text focusUrn)])
          status := .loading
          error := none
          delta := []
          abortControllers := trace.store.abortControllers.set .trace trace.starts.length }
        starts := trace.starts ++ [.pending] }

def retrace : LineageTrace Content :=
  match truthy trace.store.focusUrn, trace.store.request with
  | some focusUrn, some request => trace.start focusUrn request
  | _, _ => trace

def expand (urn : String) : LineageTrace Content :=
  match truthy trace.store.wsId,
      trace.store.result.bind fun result => truthy result.traceMeta.traceSessionId with
  | some _, some sessionId =>
      { trace with
        store := { trace.store with
          pendingExpansionUrns := addUrn trace.store.pendingExpansionUrns urn
          abortControllers := trace.store.abortControllers.set (.expand urn) trace.expands.length }
        expands := trace.expands ++ [⟨⟨sessionId, urn, 1⟩, .pending⟩] }
  | _, _ => trace

def setEdgeTypeFilter (types : List String) : LineageTrace Content :=
  match truthy trace.store.focusUrn, trace.store.request with
  | some _, some request =>
      { trace with
        store := { trace.store with
          request := some (request.set "lineageEdgeTypes"
            (if types.length > 0 then .texts types else .null))
          pendingFilterRetrace := true
          filterDebounceTimer := true } }
  | _, _ => trace

/-- The callback of the timer. -/
def filterDebounce : LineageTrace Content :=
  let fired : LineageTrace Content :=
    { trace with
      store := { trace.store with pendingFilterRetrace := false, filterDebounceTimer := false } }
  fired.retrace

/-- The controller of the call is still the one under the key. -/
def current (key : AbortKey) (call : Nat) : Bool :=
  trace.store.abortControllers.get key = some call

def traced (call : Nat) (response : TraceResultV2 Content) : LineageTrace Content :=
  let settled := { trace with starts := trace.starts.set call (.answered response) }
  if trace.current .trace call then
    { settled with
      store := { trace.store with result := some response, status := .success, error := none }
      cleared := false }
  else settled

def traceFailed (call : Nat) (failure : Failure) : LineageTrace Content :=
  let settled := { trace with starts := trace.starts.set call .failed }
  if trace.current .trace call then
    { settled with
      store := { trace.store with
        status := .error
        error := some (failure.state "trace_request_failed" "Trace request failed") } }
  else settled

/-- The pending URNs without the one of an expand that has ended. -/
def expansionEnded (urn : String) : List String :=
  trace.store.pendingExpansionUrns.filter (· ≠ urn)

def settleExpand (call : Nat) (request : TraceExpandRequest)
    (outcome : Awaited (TraceDeltaData Content × Content)) : LineageTrace Content :=
  { trace with expands := trace.expands.set call ⟨request, outcome⟩ }

def expanded (call : Nat) (request : TraceExpandRequest) (data : TraceDeltaData Content)
    (content : Content) : LineageTrace Content :=
  let delta := request.delta data content
  if trace.current (.expand request.expandUrn) call then
    { trace.settleExpand call request (.answered (data, content)) with
      store := { trace.store with
        result := applyDelta trace.store.result delta request.expandUrn
        delta := trace.store.delta ++ [delta]
        pendingExpansionUrns := trace.expansionEnded request.expandUrn } }
  else trace.settleExpand call request (.answered (data, content))

def expandFailed (call : Nat) (request : TraceExpandRequest) (failure : Failure) :
    LineageTrace Content :=
  if trace.current (.expand request.expandUrn) call then
    { trace.settleExpand call request .failed with
      store := { trace.store with
        error := some (failure.state "trace_expand_failed" "Trace expand failed")
        pendingExpansionUrns := trace.expansionEnded request.expandUrn } }
  else trace.settleExpand call request .failed

def expandAborted (call : Nat) (request : TraceExpandRequest) : LineageTrace Content :=
  if trace.current (.expand request.expandUrn) call then
    { trace.settleExpand call request .failed with
      store := { trace.store with
        pendingExpansionUrns := trace.expansionEnded request.expandUrn } }
  else trace.settleExpand call request .failed

/-- A request has one outcome. -/
def pendingExpand (call : Nat) : Option TraceExpandRequest :=
  match trace.expands[call]? with
  | some ⟨request, .pending⟩ => some request
  | _ => none

def step : LineageEvent Content → Option (LineageTrace Content)
  | .bindWorkspace wsId => some (trace.bindWorkspace wsId)
  | .start focusUrn request => some (trace.start focusUrn request)
  | .retrace => some trace.retrace
  | .expand urn => some (trace.expand urn)
  | .clear => some trace.clear
  | .setEdgeTypeFilter types => some (trace.setEdgeTypeFilter types)
  | .filterDebounce => if trace.store.filterDebounceTimer then some trace.filterDebounce else none
  | .traced call response =>
      match trace.starts[call]? with
      | some .pending => some (trace.traced call response)
      | _ => none
  | .traceFailed call failure =>
      match trace.starts[call]? with
      | some .pending => some (trace.traceFailed call failure)
      | _ => none
  | .traceAborted call =>
      match trace.starts[call]? with
      | some .pending => some { trace with starts := trace.starts.set call .failed }
      | _ => none
  | .expanded call data content =>
      (trace.pendingExpand call).map fun request => trace.expanded call request data content
  | .expandFailed call failure =>
      (trace.pendingExpand call).map fun request => trace.expandFailed call request failure
  | .expandAborted call =>
      (trace.pendingExpand call).map fun request => trace.expandAborted call request

end LineageTrace

end Univiz.TraceStore

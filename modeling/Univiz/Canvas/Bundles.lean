import Mathlib.Algebra.Order.Ring.Unbundled.Rat
import Univiz.Canvas.EdgeProjection
import Univiz.Data.Ascent
import Univiz.Data.Buckets
import Univiz.Data.Texts

namespace Univiz.Canvas

open Univiz.Data

/-! The `projectedEdges` of `useEdgeProjection`. -/

/-- A text without an arrow. -/
def Arrowless (text : String) : Prop := ¬ ['-', '>'] <:+: text.toList

instance (text : String) : Decidable (Arrowless text) :=
  inferInstanceAs (Decidable (¬ ['-', '>'] <:+: text.toList))

def arrow (source target : String) : String := source ++ "->" ++ target

/-- The first two parts of `text.split('->')`, the second of which may be missing. -/
def endpoints (text : String) : String × String :=
  match cut '-' '>' text.toList with
  | (source, none) => (String.ofList source, "undefined")
  | (source, some rest) => (String.ofList source, String.ofList (cut '-' '>' rest).1)

def truthy (text : Option String) : Option String := text.filter (· ≠ "")

def codeUnits (text : String) : List Nat :=
  text.toList.flatMap fun char =>
    if char.toNat < 0x10000 then [char.toNat]
    else [0xD800 + (char.toNat - 0x10000) / 0x400, 0xDC00 + (char.toNat - 0x10000) % 0x400]

/-- `a < b` of two texts, which compares their code units. -/
def less (a b : String) : Bool := codeUnits a < codeUnits b

/-- The values of a `Set` that is filled from a list. -/
def distinctValues (values : List String) : List String :=
  values.foldl (fun set value => if value ∈ set then set else set ++ [value]) []

/-- What is read of the data of an edge. -/
structure EdgeData where
  edgeType : Option String
  relationship : Option String
  isAggregated : Bool
  edgeTypes : Option (List String)
  confidence : Option Rat
deriving DecidableEq

def EdgeData.empty : EdgeData := ⟨none, none, false, none, none⟩

structure RegularEdge where
  id : String
  source : String
  target : String
  data : Option EdgeData
  originalSourceId : Option String
  originalTargetId : Option String

inductive ExpansionState where
  | collapsed
  | expanded
  | loading
deriving DecidableEq, Repr

structure AggregatedEdgeInfo where
  id : String
  sourceUrn : String
  targetUrn : String
  edgeTypes : List String
  confidence : Rat

structure DetailedEdge where
  id : String
  sourceUrn : String
  targetUrn : String
  edgeType : String
  confidence : Option Rat

structure AggregatedEdgeState where
  aggregated : AggregatedEdgeInfo
  state : ExpansionState
  detailedEdges : List DetailedEdge

/-- The type of a node, in its data or beside them. -/
structure NodeType where
  dataType : Option String
  typeId : String

/-- The options of the hook, with what it has computed from them before: the ancestor map
and the index of the nodes. -/
structure Options where
  edges : List RegularEdge
  aggregatedEdges : List AggregatedEdgeState
  expandedNodes : List String
  ancestorMap : AncestorMap
  nodeIndex : String → Option NodeType
  displayMap : OrderedMap String NodeType
  urnToIdMap : String → Option String
  showLineageFlow : Bool
  isTracing : Bool
  traceContextSet : List String
  isContainmentEdge : String → Bool
  suppressedAggEdgeKeys : Option (List String)
  traceAddedEdgeIds : Option (List String)
  traceBundleParentMap : Option (OrderedMap String String)
  entityTypeLevels : Option (String → Option Int)
  traceFocusLevel : Option Int
  browseBundleEnabled : Bool
  browseBundleParentMap : Option (String → Option String)
  browseBundleFanInThreshold : Int
  nodeLayerIndexMap : Option (String → Option Int)
  toUpperCase : String → String

structure GroupEdge where
  id : String
  source : String
  target : String
  data : EdgeData
  originalType : String
  originalSourceId : Option String
  originalTargetId : Option String
  browseBundled : Bool

abbrev EdgeGroups := OrderedMap String (List GroupEdge)

structure ProjectedEdge where
  id : String
  source : String
  target : String
  isBundled : Bool
  isBrowseBundle : Bool
  isGhost : Bool
  edgeCount : Nat
  types : List String
  confidence : Rat
  isAggregated : Bool
  isReverseFlow : Bool
  isBidirectional : Bool

namespace Options

variable (options : Options)

def normalizeEdgeType (edge : RegularEdge) : String :=
  options.toUpperCase (((edge.data.bind fun data =>
    (truthy data.edgeType).or (truthy data.relationship))).getD "")

def displayed (id : String) : Bool := (options.displayMap.get id).isSome

/-- Two endpoints that are there and differ. -/
def joined (source target : Option String) : Option (String × String) :=
  match truthy source, truthy target with
  | some source, some target => if source = target then none else some (source, target)
  | _, _ => none

def suppressed (source target : String) : Bool :=
  options.isTracing && (options.suppressedAggEdgeKeys.getD []).contains (arrow source target)

def aggregatedEndpoint (urn : String) : Option String :=
  let shown := if options.displayed urn then some urn else options.ancestorMap urn
  (truthy shown).or (options.urnToIdMap urn)

def aggregatedEndpoints (aggregated : AggregatedEdgeInfo) : Option (String × String) :=
  if options.suppressed aggregated.sourceUrn aggregated.targetUrn then none
  else joined (options.aggregatedEndpoint aggregated.sourceUrn)
    (options.aggregatedEndpoint aggregated.targetUrn)

def aggregatedGroupEdge (aggregated : AggregatedEdgeInfo) (source target : String) :
    GroupEdge where
  id := aggregated.id
  source
  target
  data := ⟨some "AGGREGATED", some "aggregated", true, some aggregated.edgeTypes,
    some aggregated.confidence⟩
  originalType := "AGGREGATED"
  originalSourceId := none
  originalTargetId := none
  browseBundled := false

/-- The configuration of the bundling of a trace, where it is complete. -/
def traceBundling : Option (OrderedMap String String × (String → Option Int) × Int) :=
  if options.isTracing then
    match options.traceBundleParentMap, options.entityTypeLevels, options.traceFocusLevel with
    | some parents, some levels, some ceiling => some (parents, levels, ceiling)
    | _, _, _ => none
  else none

def levelOf (levels : String → Option Int) (id : String) : Option Int :=
  let node := (options.nodeIndex id).or (options.displayMap.get id)
  (truthy (node.map fun node => node.dataType.getD node.typeId)).bind levels

/-- The walk stops at a node that it has met, that has no level, or whose level is coarse
enough, and before a missing parent. -/
def stopsAt (parents : OrderedMap String String) (levels : String → Option Int) (ceiling : Int)
    (seen : List String) (cursor : String) : Bool :=
  seen.contains cursor ||
    match options.levelOf levels cursor with
    | none => true
    | some level => level ≤ ceiling || (cursorAt (parents.get cursor)).isNone

/-- Every parent link is followed once at most, so these rounds are enough. -/
def traceWalk (parents : OrderedMap String String) (levels : String → Option Int)
    (ceiling : Int) (endpointId : String) : Option (Option String) :=
  let check (seen : List String) (cursor : String) : Option (Option String) :=
    if options.stopsAt parents levels ceiling seen cursor then some (some cursor) else none
  ascend (fun node => cursorAt (parents.get node)) check none (parents.size + 2) []
    (cursorAt (some endpointId))

def projectToTraceLevel (parents : OrderedMap String String) (levels : String → Option Int)
    (ceiling : Int) (endpointId : String) : Option String :=
  (options.traceWalk parents levels ceiling endpointId).join

/-- An endpoint of an edge, rolled up to the level of the trace. -/
def regularEndpoint (id : String) : Option String :=
  (truthy (options.ancestorMap id)).or (if options.displayed id then some id else none)

def rolledUp (id : String) : String :=
  match options.traceBundling with
  | none => id
  | some (parents, levels, ceiling) =>
      (truthy (options.projectToTraceLevel parents levels ceiling id)).getD id

/-- In a trace an edge has to belong to it, and must not have been drilled into. -/
def traced (edge : RegularEdge) (source target : String) : Bool :=
  !options.isTracing ||
    (((options.traceAddedEdgeIds.getD []).contains edge.id ||
        (options.traceContextSet.contains source && options.traceContextSet.contains target)) &&
      !(options.toUpperCase ((edge.data.bind EdgeData.edgeType).getD "") = "AGGREGATED" &&
        options.suppressed edge.source edge.target))

def regularEndpoints (edge : RegularEdge) : Option (String × String) :=
  if options.isContainmentEdge (options.normalizeEdgeType edge) then none
  else
    match truthy (options.regularEndpoint edge.source),
        truthy (options.regularEndpoint edge.target) with
    | some source, some target =>
        match joined (some (options.rolledUp source)) (some (options.rolledUp target)) with
        | some (source, target) =>
            if options.traced edge source target then some (source, target) else none
        | none => none
    | _, _ => none

def regularGroupEdge (edge : RegularEdge) (source target : String) : GroupEdge where
  id := edge.id
  source
  target
  data := edge.data.getD .empty
  originalType := options.normalizeEdgeType edge
  originalSourceId := edge.originalSourceId
  originalTargetId := edge.originalTargetId
  browseBundled := false

def detailedEndpoints (edge : DetailedEdge) : Option (String × String) :=
  joined (options.ancestorMap edge.sourceUrn) (options.ancestorMap edge.targetUrn)

def detailedGroupEdge (edge : DetailedEdge) (source target : String) : GroupEdge where
  id := edge.id
  source
  target
  data := ⟨some edge.edgeType, some edge.edgeType, false, none, edge.confidence⟩
  originalType := edge.edgeType
  originalSourceId := none
  originalTargetId := none
  browseBundled := false

def collapsedEdges : List AggregatedEdgeInfo :=
  (options.aggregatedEdges.filter fun edge => edge.state = .collapsed).map
    AggregatedEdgeState.aggregated

def detailedEdges : List DetailedEdge :=
  (options.aggregatedEdges.filter fun edge => edge.state = .expanded).flatMap
    AggregatedEdgeState.detailedEdges

/-- The edges in the order in which they are added to their groups. -/
def groupEdges : List GroupEdge :=
  options.collapsedEdges.filterMap (fun edge => (options.aggregatedEndpoints edge).map fun ends =>
    aggregatedGroupEdge edge ends.1 ends.2) ++
  options.edges.filterMap (fun edge => (options.regularEndpoints edge).map fun ends =>
    options.regularGroupEdge edge ends.1 ends.2) ++
  options.detailedEdges.filterMap fun edge => (options.detailedEndpoints edge).map fun ends =>
    detailedGroupEdge edge ends.1 ends.2

def addEdgeToGroup (groups : EdgeGroups) (edge : GroupEdge) : EdgeGroups :=
  file groups (arrow edge.source edge.target) edge

def edgeGroups : EdgeGroups := options.groupEdges.foldl addEdgeToGroup .empty

/-- The key one step up, where an endpoint has a parent that is not expanded. -/
def parentKey (parents : String → Option String) (key : String) : Option String :=
  let (source, target) := endpoints key
  let collapsed (id : String) := (truthy (parents id)).filter (· ∉ options.expandedNodes)
  match collapsed source, collapsed target with
  | none, none => none
  | sourceParent, targetParent =>
      let above := arrow (sourceParent.getD source) (targetParent.getD target)
      if above = key then none else some above

def parentBuckets (parents : String → Option String) (groups : EdgeGroups) :
    OrderedMap String (List String) :=
  (groups.entries.map Prod.fst).foldl (fun buckets key =>
    match options.parentKey parents key with
    | some above => file buckets above key
    | none => buckets) .empty

/-- The edges of a group below go over to the merged one. -/
def mergeChild (source target : String) (state : List GroupEdge × EdgeGroups) (childKey : String) :
    List GroupEdge × EdgeGroups :=
  match state.2.get childKey with
  | none => state
  | some child =>
      (state.1 ++ child.map (fun edge => { edge with source, target, browseBundled := true }),
        state.2.erase childKey)

def collapseBucket (state : EdgeGroups × Bool) (bucket : String × List String) :
    EdgeGroups × Bool :=
  if (bucket.2.length : Int) ≤ options.browseBundleFanInThreshold then state
  else
    let (source, target) := endpoints bucket.1
    if source = target then state
    else
      let (merged, groups) := bucket.2.foldl (mergeChild source target)
        ((state.1.get bucket.1).getD [], state.1)
      (groups.set bucket.1 merged, true)

def bundlePass (parents : String → Option String) (groups : EdgeGroups) : EdgeGroups × Bool :=
  (options.parentBuckets parents groups).entries.foldl options.collapseBucket (groups, false)

def bundlePasses (parents : String → Option String) : Nat → EdgeGroups → EdgeGroups
  | 0, groups => groups
  | passes + 1, groups =>
      let (bundled, collapsedAny) := options.bundlePass parents groups
      if collapsedAny then bundlePasses parents passes bundled else bundled

def bundledGroups : EdgeGroups :=
  if !options.isTracing && options.browseBundleEnabled then
    match options.browseBundleParentMap with
    | some parents => options.bundlePasses parents 6 options.edgeGroups
    | none => options.edgeGroups
  else options.edgeGroups

def reverseFlow (source target : String) : Bool :=
  match options.nodeLayerIndexMap with
  | none => false
  | some layers =>
      match layers source, layers target with
      | some sourceLayer, some targetLayer => targetLayer < sourceLayer
      | _, _ => false

/-- A group becomes one edge, with the endpoints of its first.  There is none in an empty
group, and the hook throws. -/
def finalize (group : String × List GroupEdge) : Option ProjectedEdge :=
  group.2.head?.map fun first =>
    let isBrowseBundle := group.2.any GroupEdge.browseBundled
    { id := "bundle-" ++ group.1
      source := first.source
      target := first.target
      isBundled := group.2.length > 1 || isBrowseBundle
      isBrowseBundle
      isGhost := group.2.any fun edge =>
        some edge.target ≠ edge.originalTargetId || some edge.source ≠ edge.originalSourceId
      edgeCount := group.2.length
      types := distinctValues (group.2.flatMap fun edge =>
        edge.data.edgeTypes.getD (truthy (some edge.originalType)).toList)
      confidence := group.2.foldl (fun most edge => max most (edge.data.confidence.getD 1)) 0
      isAggregated := group.2.any fun edge => edge.data.isAggregated
      isReverseFlow := options.reverseFlow first.source first.target
      isBidirectional := false }

/-- The edges of a pair, from its lesser end and to it. -/
structure Slot where
  fwd : Option ProjectedEdge
  rev : Option ProjectedEdge

def canonical (edge : ProjectedEdge) : String :=
  if less edge.source edge.target then arrow edge.source edge.target
  else arrow edge.target edge.source

def fillSlot (byPair : OrderedMap String Slot) (edge : ProjectedEdge) : OrderedMap String Slot :=
  if edge.source = edge.target then byPair
  else
    let slot := (byPair.get (canonical edge)).getD ⟨none, none⟩
    byPair.set (canonical edge)
      (if less edge.source edge.target then { slot with fwd := some edge }
      else { slot with rev := some edge })

def bidirectional (key : String) (fwd rev : ProjectedEdge) : ProjectedEdge where
  id := "bundle-bi-" ++ key
  source := (endpoints key).1
  target := (endpoints key).2
  isBundled := true
  isBrowseBundle := fwd.isBrowseBundle || rev.isBrowseBundle
  isGhost := fwd.isGhost && rev.isGhost
  edgeCount := fwd.edgeCount + rev.edgeCount
  types := distinctValues (fwd.types ++ rev.types)
  confidence := max fwd.confidence rev.confidence
  isAggregated := fwd.isAggregated || rev.isAggregated
  isReverseFlow := false
  isBidirectional := true

/-- The slots that hold both directions, with their keys. -/
def bothWays (projected : List ProjectedEdge) : List (String × ProjectedEdge × ProjectedEdge) :=
  (projected.foldl fillSlot OrderedMap.empty).entries.filterMap fun (key, slot) =>
    match slot.fwd, slot.rev with
    | some fwd, some rev => some (key, fwd, rev)
    | _, _ => none

/-- Where both directions are there, one edge takes the place of the two.  The ids tell the
edges of the list apart. -/
def bidirectionalCollapse (projected : List ProjectedEdge) : List ProjectedEdge :=
  let consumed := (bothWays projected).flatMap fun (_, fwd, rev) => [fwd.id, rev.id]
  projected.filter (fun edge => edge.id ∉ consumed) ++
    (bothWays projected).map fun (key, fwd, rev) => bidirectional key fwd rev

def projectedEdges : Option (List ProjectedEdge) :=
  if options.showLineageFlow then
    (options.bundledGroups.entries.mapM options.finalize).map bidirectionalCollapse
  else some []

end Options

end Univiz.Canvas

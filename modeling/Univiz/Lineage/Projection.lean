import Mathlib.Data.List.Dedup
import Univiz.Data.Reach
import Univiz.Data.Texts
import Univiz.Lineage.Aggregation

namespace Univiz.Lineage

open Univiz.Data

/-! `ContextEngine.get_lineage`: the lineage of a node, projected to a granularity. -/

inductive PropertyValue
  | text (value : String)
  | flag (value : Bool)
  | count (value : Nat)
  | other (shown : String)
deriving DecidableEq

/-- The fields of a node that no step of the projection reads are its details. -/
structure TracedNode (α : Type) extends GraphNode where
  details : α
deriving DecidableEq

structure TracedEdge extends GraphEdge where
  confidence : Rat
  properties : OrderedMap String PropertyValue

/-- The values under `aggregatedEdges`, which also holds the URN that lineage is inherited from. -/
inductive AggregatedEntry
  | edge (aggregated : AggregatedEdge)
  | urn (urn : String)

structure LineageResult (α : Type) where
  nodes : List (TracedNode α)
  edges : List TracedEdge
  upstreamUrns : List String
  downstreamUrns : List String
  totalCount : Nat
  hasMore : Bool
  aggregatedEdges : Option (OrderedMap String AggregatedEntry)

inductive TraceDirection
  | both
  | upstream
  | downstream
deriving DecidableEq

/-- What the engine asks its provider. -/
structure LineageProvider (α : Type) where
  getTraceLineage (urn : String) (direction : TraceDirection) (depth : Nat)
    (containmentEdges lineageEdges : List String) : LineageResult α
  getParent (urn : String) : Option (TracedNode α)
  getFullLineage (urn : String) (upstreamDepth downstreamDepth : Nat) : LineageResult α
  getNodes (urns : List String) : List (TracedNode α)

structure LineageRequest where
  urn : String
  upstreamDepth : Nat
  downstreamDepth : Nat
  granularity : Option String
  aggregateEdges : Bool
  includeInheritedLineage : Bool
  lineageEdgeTypes : Option (List String)

variable {α : Type}

namespace TracedEdge

/-- The edge that is drawn for an aggregated edge. -/
def synthetic (aggregated : AggregatedEdge) : TracedEdge where
  id := aggregated.id
  sourceUrn := aggregated.sourceUrn
  targetUrn := aggregated.targetUrn
  edgeType := "AGGREGATED"
  confidence := aggregated.confidence
  properties := (OrderedMap.empty.set "isAggregated" (.flag true)).set "sourceEdgeCount"
    (.count aggregated.sourceEdges.length)

end TracedEdge

namespace ContextEngine

variable (engine : ContextEngine)

def buildContainmentMap (edges : List TracedEdge) (containmentTypes : List String) :
    OrderedMap String String :=
  (edges.filter fun edge => engine.normalizeEdgeType edge.edgeType ∈ containmentTypes ∨
    edge.properties.get "relationship" = some (.text "contains")).foldl
    (fun containment edge => containment.set edge.targetUrn edge.sourceUrn) .empty

section Projection

variable (nodes : List (TracedNode α)) (containmentMap : OrderedMap String String)
  (targetGranularity : Option String) (containmentTypes : List String)

def ancestor (urn : String) : Option String :=
  engine.findAncestorAtGranularity (nodes.map TracedNode.toGraphNode) containmentMap urn
    targetGranularity

/-- Without a granularity every node is visible, and with one those that are no finer. -/
def isVisible (node : TracedNode α) : Bool :=
  engine.targetLevel targetGranularity < 0 ∨
    engine.entityLevel node.entityType ≤ engine.targetLevel targetGranularity

def visibleNodes : List (TracedNode α) := nodes.filter (engine.isVisible targetGranularity)

def visibleNodeIds : List String := (engine.visibleNodes nodes targetGranularity).map (·.urn)

/-- The aggregated edges between visible nodes. -/
def visibleAggregates (edges : List TracedEdge) : List AggregatedEdge :=
  (engine.aggregateLineageEdges (edges.map TracedEdge.toGraphEdge)
    (nodes.map TracedNode.toGraphNode) containmentMap targetGranularity
    (some containmentTypes)).filter fun aggregated =>
      aggregated.sourceUrn ∈ engine.visibleNodeIds nodes targetGranularity ∧
        aggregated.targetUrn ∈ engine.visibleNodeIds nodes targetGranularity

def visibleEdges (edges : List TracedEdge) : List TracedEdge :=
  edges.filter fun edge => edge.sourceUrn ∈ engine.visibleNodeIds nodes targetGranularity ∧
    edge.targetUrn ∈ engine.visibleNodeIds nodes targetGranularity

/-- The ancestors found for a set of URNs. -/
def ancestors (urns : List String) : List String :=
  ((urns.filterMap (engine.ancestor nodes containmentMap targetGranularity)).filter
    (· ≠ "")).dedup

end Projection

def projectGraph (result : LineageResult α) (targetGranularity : Option String)
    (aggregateEdges : Bool) (containmentMap : OrderedMap String String)
    (containmentTypes : List String) : LineageResult α :=
  let visible := engine.visibleNodes result.nodes targetGranularity
  let aggregates :=
    if aggregateEdges then
      engine.visibleAggregates result.nodes containmentMap targetGranularity containmentTypes
        result.edges
    else []
  { nodes := visible
    edges := aggregates.map .synthetic ++
      engine.visibleEdges result.nodes targetGranularity result.edges
    upstreamUrns := engine.ancestors result.nodes containmentMap targetGranularity
      result.upstreamUrns
    downstreamUrns := engine.ancestors result.nodes containmentMap targetGranularity
      result.downstreamUrns
    totalCount := visible.length
    hasMore := false
    aggregatedEdges := some (aggregates.foldl
      (fun entries aggregated => entries.set aggregated.id (.edge aggregated)) .empty) }

section Gathering

variable [DecidableEq α] (provider : LineageProvider α)

/-- A node without lineage edges inherits those of its parent. -/
def applyInheritedLineage (urn : String) (result : LineageResult α)
    (upstreamDepth downstreamDepth : Nat) (lineageTypes : List String) : LineageResult α :=
  if ∃ edge ∈ result.edges, engine.normalizeEdgeType edge.edgeType ∈ lineageTypes then result
  else
    match provider.getParent urn with
    | none => result
    | some parent =>
        let parentResult := provider.getFullLineage parent.urn upstreamDepth downstreamDepth
        let mergedNodes :=
          match result.nodes.find? fun node => node.urn = urn with
          | none => parentResult.nodes
          | some originalNode =>
              if originalNode ∈ parentResult.nodes then parentResult.nodes
              else parentResult.nodes ++ [originalNode]
        { nodes := mergedNodes
          edges := parentResult.edges
          upstreamUrns := parentResult.upstreamUrns
          downstreamUrns := parentResult.downstreamUrns
          totalCount := mergedNodes.length
          hasMore := parentResult.hasMore
          aggregatedEdges := some ((parentResult.aggregatedEdges.getD .empty).set
            "_inheritedFrom" (.urn parent.urn)) }

/-- The ancestors at the granularity that are not among the nodes. -/
def missingAncestors (nodes : List (TracedNode α)) (containmentMap : OrderedMap String String)
    (granularity : String) : List String :=
  ((nodes.filterMap fun node =>
    engine.ancestor nodes containmentMap (some granularity) node.urn).filter fun urn =>
      urn ≠ "" ∧ urn ∉ nodes.map (·.urn)).dedup

/-- A fetched node is added unless one with its URN is there. -/
def addNodes (nodes extraNodes : List (TracedNode α)) : List (TracedNode α) :=
  extraNodes.foldl (fun nodes node =>
    if node.urn ∈ nodes.map (·.urn) then nodes else nodes ++ [node]) nodes

def addAncestors (result : LineageResult α) (containmentMap : OrderedMap String String)
    (granularity : String) : LineageResult α :=
  match engine.missingAncestors result.nodes containmentMap granularity with
  | [] => result
  | missing => { result with nodes := addNodes result.nodes (provider.getNodes missing) }

variable (containmentEdgeTypes allLineageEdgeTypes : List String) (request : LineageRequest)

def upperTypes (types : List String) : List String := (types.map engine.upper).dedup

/-- The lineage types of the ontology, or those of them that the request names. -/
def activeLineageTypes : List String :=
  match request.lineageEdgeTypes with
  | none | some [] => engine.upperTypes allLineageEdgeTypes
  | some lineageEdgeTypes => (engine.upperTypes lineageEdgeTypes).filter fun type =>
      type ∈ engine.upperTypes allLineageEdgeTypes

def traceDirection : TraceDirection :=
  if request.upstreamDepth > 0 ∧ request.downstreamDepth = 0 then .upstream
  else if request.downstreamDepth > 0 ∧ request.upstreamDepth = 0 then .downstream
  else .both

/-- The result of the trace. -/
def tracedLineage : LineageResult α :=
  provider.getTraceLineage request.urn (traceDirection request)
    (max request.upstreamDepth request.downstreamDepth)
    (engine.upperTypes containmentEdgeTypes)
    (engine.activeLineageTypes allLineageEdgeTypes request)

/-- The map is of the edges that were traced, also where others are inherited. -/
def tracedContainment : OrderedMap String String :=
  engine.buildContainmentMap
    (engine.tracedLineage provider containmentEdgeTypes allLineageEdgeTypes request).edges
    (engine.upperTypes containmentEdgeTypes)

def gatheredLineage : LineageResult α :=
  let result := engine.tracedLineage provider containmentEdgeTypes allLineageEdgeTypes request
  if request.includeInheritedLineage then
    engine.applyInheritedLineage provider request.urn result request.upstreamDepth
      request.downstreamDepth (engine.activeLineageTypes allLineageEdgeTypes request)
  else result

def getLineage : LineageResult α :=
  let result := engine.gatheredLineage provider containmentEdgeTypes allLineageEdgeTypes request
  let containmentMap :=
    engine.tracedContainment provider containmentEdgeTypes allLineageEdgeTypes request
  match request.granularity with
  | none =>
      if request.aggregateEdges then
        engine.projectGraph result none true containmentMap
          (engine.upperTypes containmentEdgeTypes)
      else result
  | some granularity =>
      engine.projectGraph (engine.addAncestors provider result containmentMap granularity)
        (some granularity) request.aggregateEdges containmentMap
        (engine.upperTypes containmentEdgeTypes)

end Gathering

end ContextEngine

/-- The URN can be told from others when it is joined to one by an arrow. -/
def Plain (urn : String) : Prop := urn ≠ "" ∧ ¬ ['-', '>'] <:+: urn.toList

instance : DecidablePred Plain := fun _ => inferInstanceAs (Decidable (_ ∧ ¬ _))

theorem Placed.key_inj {placed other : Placed} (plain : Plain placed.sourceAncestor)
    (plain' : Plain other.sourceAncestor) (same : placed.key = other.key) :
    placed.sourceAncestor = other.sourceAncestor ∧
      placed.targetAncestor = other.targetAncestor := by
  have symbols := congrArg String.toList same
  simp only [Placed.key, String.toList_append, List.append_assoc] at symbols
  have parts := append_separator_inj (by decide : '-' ≠ '>') plain.2 plain'.2 symbols
  exact ⟨String.toList_inj.mp parts.1, String.toList_inj.mp parts.2⟩

theorem AggregatedEdge.counting_id {granularity : Option String} {first : Placed}
    {items : List Placed} : (counting granularity first items).id = "agg-" ++ first.key :=
  foldl_unchanged AggregatedEdge.id fun _ _ => rfl

namespace ContextEngine

variable {engine : ContextEngine} {nodes : List (TracedNode α)} {edges : List TracedEdge}
  {containmentMap : OrderedMap String String} {granularity : Option String}
  {containmentTypes : List String} {aggregated other : AggregatedEdge} {source target : String}

variable (engine containmentTypes) in
/-- An edge that is no containment edge leads from the one to the other. -/
def LineageStep (edges : List TracedEdge) (source target : String) : Prop :=
  ∃ edge ∈ edges, engine.normalizeEdgeType edge.edgeType ∉ containmentTypes ∧
    edge.sourceUrn = source ∧ edge.targetUrn = target

variable (edges containmentMap) in
/-- All URNs that the edges and the containment map lead to are plain. -/
structure PlainUrns : Prop where
  endpoints : ∀ edge ∈ edges, Plain edge.sourceUrn ∧ Plain edge.targetUrn
  parents : ∀ entry ∈ containmentMap.entries, Plain entry.2

theorem PlainUrns.ancestor (plain : PlainUrns edges containmentMap) {urn above : String}
    (start : Plain urn) (found : engine.ancestor nodes containmentMap granularity urn = some above) :
    Plain above := by
  cases granularity with
  | none =>
      cases found
      exact start
  | some granularity =>
      have climbs : ∀ node above, Plain node → cursorAt (containmentMap.get node) = some above →
          Plain above := by
        intro node above _ link
        exact plain.parents (node, above)
          (OrderedMap.get_eq_some.mp (cursorAt_eq_some.mp link).1)
      have stops : ∀ visited node answer, Plain node → engine.arrives
          (nodes.map TracedNode.toGraphNode) (some granularity) visited node = some answer →
          ∀ above ∈ answer, Plain above := by
        intro visited node answer here arrived above isAbove
        unfold arrives at arrived
        split at arrived
        · cases arrived
          cases isAbove
        · split at arrived
          · cases arrived
            cases isAbove
            exact here
          · cases arrived
      have walked := Option.join_eq_some_iff.mp found
      refine ascend_holds Plain (fun answer => ∀ above ∈ answer, Plain above) climbs stops
        (fun _ none => by cases none) ?_ walked above rfl
      intro node begins
      obtain rfl := Option.some.inj (cursorAt_eq_some.mp begins).1
      exact start

theorem contracted_iff_joins :
    Contracted (engine.LineageStep containmentTypes edges)
        (engine.ancestor nodes containmentMap granularity) source target ↔
      ∃ edge ∈ edges.map TracedEdge.toGraphEdge, engine.Joins (nodes.map TracedNode.toGraphNode)
        containmentMap granularity (some containmentTypes) edge source target := by
  constructor
  · rintro ⟨apart, _, _, ⟨edge, member, lineage, rfl, rfl⟩, here, there⟩
    exact ⟨edge.toGraphEdge, List.mem_map_of_mem member, lineage, here, there, apart⟩
  · rintro ⟨_, member, lineage, here, there, apart⟩
    obtain ⟨edge, inside, rfl⟩ := List.mem_map.mp member
    exact ⟨apart, _, _, ⟨edge, inside, lineage, rfl, rfl⟩, here, there⟩

/-- The aggregated edges that are kept are told by their ids. -/
theorem eq_of_id
    (member : aggregated ∈ engine.visibleAggregates nodes containmentMap granularity
      containmentTypes edges)
    (member' : other ∈ engine.visibleAggregates nodes containmentMap granularity
      containmentTypes edges) (same : aggregated.id = other.id) : aggregated = other := by
  obtain ⟨first, isFirst, rfl⟩ := mem_aggregateLineageEdges.mp (List.mem_filter.mp member).1
  obtain ⟨first', isFirst', rfl⟩ := mem_aggregateLineageEdges.mp (List.mem_filter.mp member').1
  rw [AggregatedEdge.counting_id, AggregatedEdge.counting_id] at same
  have keys : first.key = first'.key := by
    have symbols := congrArg String.toList same
    simp only [String.toList_append, List.append_cancel_left_eq] at symbols
    exact String.toList_inj.mp symbols
  rw [keys, isFirst'] at isFirst
  obtain rfl := Option.some.inj isFirst
  rfl

/-- There is an aggregated edge for each two ancestors between which an edge leads, and for no
others. -/
theorem exists_aggregated_iff (plain : PlainUrns edges containmentMap) :
    (∃ aggregated ∈ engine.aggregateLineageEdges (edges.map TracedEdge.toGraphEdge)
        (nodes.map TracedNode.toGraphNode) containmentMap granularity (some containmentTypes),
      aggregated.sourceUrn = source ∧ aggregated.targetUrn = target) ↔
      Contracted (engine.LineageStep containmentTypes edges)
        (engine.ancestor nodes containmentMap granularity) source target := by
  have ancestorPlain {edge : GraphEdge} {source target : String}
      (member : edge ∈ edges.map TracedEdge.toGraphEdge)
      (joins : engine.Joins (nodes.map TracedNode.toGraphNode) containmentMap granularity
        (some containmentTypes) edge source target) : Plain source ∧ Plain target := by
    obtain ⟨traced, inside, rfl⟩ := List.mem_map.mp member
    exact ⟨plain.ancestor (plain.endpoints traced inside).1 joins.2.1,
      plain.ancestor (plain.endpoints traced inside).2 joins.2.2.1⟩
  rw [contracted_iff_joins]
  constructor
  · rintro ⟨aggregated, listed, rfl, rfl⟩
    obtain ⟨first, isFirst, rfl⟩ := mem_aggregateLineageEdges.mp listed
    obtain ⟨edge, member, joins, _⟩ := mem_placed.mp (List.mem_of_find?_eq_some isFirst)
    rw [AggregatedEdge.counting_sourceUrn, AggregatedEdge.counting_targetUrn]
    exact ⟨edge, member, joins⟩
  · rintro ⟨edge, member, joins⟩
    have plainEnds := ancestorPlain member joins
    obtain ⟨first, key, isFirst, _⟩ :=
      exists_counting member joins ⟨plainEnds.1.1, plainEnds.2.1⟩
    obtain ⟨origin, member', joins', _⟩ := mem_placed.mp (List.mem_of_find?_eq_some isFirst)
    have same : first.sourceAncestor = source ∧ first.targetAncestor = target :=
      @Placed.key_inj first ⟨source, target, edge.id⟩ (ancestorPlain member' joins').1
        plainEnds.1 key
    refine ⟨_, mem_aggregateLineageEdges.mpr ⟨first, isFirst, rfl⟩, ?_⟩
    rw [AggregatedEdge.counting_sourceUrn, AggregatedEdge.counting_targetUrn]
    exact same

/-- The result has an aggregated edge between the two, and draws it. -/
def AggregatedStep (result : LineageResult α) (source target : String) : Prop :=
  ∃ entries aggregated, result.aggregatedEdges = some entries ∧
    entries.get aggregated.id = some (.edge aggregated) ∧
    .synthetic aggregated ∈ result.edges ∧
    aggregated.sourceUrn = source ∧ aggregated.targetUrn = target

theorem get_aggregatedEdges {result : LineageResult α} {entries : OrderedMap String AggregatedEntry}
    {id : String} (held : (engine.projectGraph result granularity true containmentMap
      containmentTypes).aggregatedEdges = some entries) :
    entries.get id = ((engine.visibleAggregates result.nodes containmentMap granularity
      containmentTypes result.edges).find? fun item => item.id = id).map .edge := by
  obtain rfl := Option.some.inj held
  rw [if_pos rfl, get_foldl_fill fun _ member _ member' => eq_of_id member member',
    OrderedMap.get_empty, Option.or_none]

/-- A projection has the contraction of the lineage along the ancestors, as far as those are
visible. -/
theorem aggregatedStep_iff {result : LineageResult α}
    (plain : PlainUrns result.edges containmentMap) :
    AggregatedStep (engine.projectGraph result granularity true containmentMap containmentTypes)
        source target ↔
      Contracted (engine.LineageStep containmentTypes result.edges)
        (engine.ancestor result.nodes containmentMap granularity) source target ∧
      source ∈ engine.visibleNodeIds result.nodes granularity ∧
      target ∈ engine.visibleNodeIds result.nodes granularity := by
  rw [← exists_aggregated_iff plain]
  constructor
  · rintro ⟨entries, aggregated, held, found, _, rfl, rfl⟩
    rw [get_aggregatedEdges held] at found
    obtain ⟨listed, isListed, same⟩ := Option.map_eq_some_iff.mp found
    obtain rfl := AggregatedEntry.edge.inj same
    obtain ⟨member, visible⟩ := List.mem_filter.mp (List.mem_of_find?_eq_some isListed)
    exact ⟨⟨listed, member, rfl, rfl⟩, of_decide_eq_true visible⟩
  · rintro ⟨⟨aggregated, member, rfl, rfl⟩, visible⟩
    have kept : aggregated ∈ engine.visibleAggregates result.nodes containmentMap granularity
        containmentTypes result.edges :=
      List.mem_filter.mpr ⟨member, decide_eq_true visible⟩
    refine ⟨_, aggregated, rfl, ?_, List.mem_append_left _ (List.mem_map_of_mem kept), rfl, rfl⟩
    rw [get_aggregatedEdges rfl]
    cases found : (engine.visibleAggregates result.nodes containmentMap granularity
        containmentTypes result.edges).find? fun item => item.id = aggregated.id with
    | none => exact absurd (decide_eq_true rfl) (List.find?_eq_none.mp found aggregated kept)
    | some listed =>
        have same : listed.id = aggregated.id := by simpa using List.find?_some found
        rw [eq_of_id (List.mem_of_find?_eq_some found) kept same]
        rfl

variable {extraNodes : List (TracedNode α)} {urn above : String} {granularity : String}

/-- A node that is fetched takes no place of one that is there. -/
theorem get_nodeMap_addNodes :
    (nodeMap ((addNodes nodes extraNodes).map TracedNode.toGraphNode)).get urn =
      ((nodeMap (nodes.map TracedNode.toGraphNode)).get urn).or
        ((extraNodes.find? fun node => node.urn = urn).map TracedNode.toGraphNode) := by
  induction extraNodes generalizing nodes with
  | nil => simp [addNodes]
  | cons node rest ih =>
      have known : node.urn ∈ nodes.map (·.urn) ↔
          ((nodeMap (nodes.map TracedNode.toGraphNode)).get node.urn).isSome := by
        rw [nodeMap, get_foldl_last, OrderedMap.get_empty, Option.or_none, List.find?_isSome]
        simp
      rw [addNodes, List.foldl_cons, List.find?_cons]
      change (nodeMap ((addNodes _ rest).map TracedNode.toGraphNode)).get urn = _
      rw [ih]
      by_cases here : node.urn = urn
      · subst here
        rw [decide_eq_true rfl]
        split
        · rename_i there
          obtain ⟨found, isFound⟩ := Option.isSome_iff_exists.mp (known.mp there)
          rw [isFound]
          rfl
        · rename_i missing
          rw [known, Option.not_isSome_iff_eq_none] at missing
          rw [missing, List.map_append, nodeMap, List.foldl_append]
          simp [OrderedMap.get_set]
      · rw [decide_eq_false here]
        split
        · rfl
        · rw [List.map_append, nodeMap, List.foldl_append]
          simp [OrderedMap.get_set, here, nodeMap]

theorem nodeLevel_of_missing (missing : urn ∉ nodes.map (·.urn)) :
    engine.nodeLevel (nodes.map TracedNode.toGraphNode) urn = 0 := by
  have nothing : (nodeMap (nodes.map TracedNode.toGraphNode)).get urn = none := by
    rw [nodeMap, get_foldl_last, OrderedMap.get_empty, Option.or_none, List.find?_eq_none]
    rintro node member same
    obtain ⟨traced, inside, rfl⟩ := List.mem_map.mp (List.mem_reverse.mp member)
    exact missing (List.mem_map.mpr ⟨traced, inside, of_decide_eq_true same⟩)
  rw [nodeLevel, nothing]

theorem nodeLevel_ancestor
    (found : engine.ancestor nodes containmentMap (some granularity) urn = some above) :
    engine.nodeLevel (nodes.map TracedNode.toGraphNode) above ≤
      engine.targetLevel (some granularity) := by
  have stops : ∀ visited node answer, True → engine.arrives (nodes.map TracedNode.toGraphNode)
      (some granularity) visited node = some answer → ∀ above ∈ answer,
      engine.nodeLevel (nodes.map TracedNode.toGraphNode) above ≤
        engine.targetLevel (some granularity) := by
    intro visited node answer _ arrived above isAbove
    unfold arrives at arrived
    split at arrived
    · cases arrived
      cases isAbove
    · split at arrived
      · rename_i coarse
        cases arrived
        cases isAbove
        exact coarse
      · cases arrived
  exact ascend_holds (fun _ => True) (fun answer => ∀ above ∈ answer,
    engine.nodeLevel (nodes.map TracedNode.toGraphNode) above ≤
      engine.targetLevel (some granularity)) (fun _ _ _ _ => trivial) stops
    (fun _ none => by cases none) (fun _ _ => trivial) (Option.join_eq_some_iff.mp found) above rfl

/-- Nodes that are no finer than the granularity change no ancestor. -/
theorem ancestor_addNodes (reachable : 0 ≤ engine.targetLevel (some granularity))
    (coarse : ∀ node ∈ extraNodes, engine.isVisible (some granularity) node = true) :
    engine.ancestor (addNodes nodes extraNodes) containmentMap (some granularity) =
      engine.ancestor nodes containmentMap (some granularity) := by
  have levels (urn : String) :
      engine.nodeLevel ((addNodes nodes extraNodes).map TracedNode.toGraphNode) urn ≤
          engine.targetLevel (some granularity) ↔
        engine.nodeLevel (nodes.map TracedNode.toGraphNode) urn ≤
          engine.targetLevel (some granularity) := by
    rw [nodeLevel, nodeLevel, get_nodeMap_addNodes]
    cases (nodeMap (nodes.map TracedNode.toGraphNode)).get urn with
    | some node => rfl
    | none =>
        cases fetched : extraNodes.find? fun node => node.urn = urn with
        | none => rfl
        | some node =>
            have visible := coarse node (List.mem_of_find?_eq_some fetched)
            rw [isVisible, decide_eq_true_iff] at visible
            have coarse := visible.resolve_left (Int.not_lt.mpr reachable)
            exact iff_of_true coarse reachable
  have arrivals : engine.arrives ((addNodes nodes extraNodes).map TracedNode.toGraphNode)
      (some granularity) = engine.arrives (nodes.map TracedNode.toGraphNode)
        (some granularity) := by
    funext visited urn
    unfold arrives
    simp only [levels]
  funext urn
  rw [ancestor, ancestor, findAncestorAtGranularity, findAncestorAtGranularity, arrivals]

theorem mem_missingAncestors : above ∈ engine.missingAncestors nodes containmentMap granularity ↔
    above ≠ "" ∧ above ∉ nodes.map (·.urn) ∧ ∃ node ∈ nodes,
      engine.ancestor nodes containmentMap (some granularity) node.urn = some above := by
  rw [missingAncestors, List.mem_dedup, List.mem_filter, List.mem_filterMap, decide_eq_true_iff,
    and_comm, and_assoc]

/-- The provider has the nodes that it is asked for, and those are no finer than the
granularity. -/
structure Answers (engine : ContextEngine) (provider : LineageProvider α) (granularity : String)
    (urns : List String) : Prop where
  complete : ∀ urn ∈ urns, urn ∈ (provider.getNodes urns).map (·.urn)
  coarse : ∀ node ∈ provider.getNodes urns, engine.isVisible (some granularity) node = true

theorem mem_urns_addNodes : urn ∈ (addNodes nodes extraNodes).map (·.urn) ↔
    urn ∈ nodes.map (·.urn) ∨ urn ∈ extraNodes.map (·.urn) := by
  induction extraNodes generalizing nodes with
  | nil => simp [addNodes]
  | cons node rest ih =>
      rw [addNodes, List.foldl_cons]
      change urn ∈ (addNodes _ rest).map (·.urn) ↔ _
      rw [ih, List.map_cons, List.mem_cons]
      split
      · rename_i there
        constructor
        · rintro (old | new)
          · exact .inl old
          · exact .inr (.inr new)
        · rintro (old | rfl | new)
          · exact .inl old
          · exact .inl there
          · exact .inr new
      · rw [List.map_append, List.mem_append, List.map_singleton, List.mem_singleton, or_assoc]

theorem mem_visibleNodeIds (member : urn ∈ nodes.map (·.urn))
    (coarse : engine.nodeLevel (nodes.map TracedNode.toGraphNode) urn ≤
      engine.targetLevel (some granularity)) :
    urn ∈ engine.visibleNodeIds nodes (some granularity) := by
  rw [nodeLevel, nodeMap, get_foldl_last, OrderedMap.get_empty, Option.or_none] at coarse
  cases found : (nodes.map TracedNode.toGraphNode).reverse.find? fun node => node.urn = urn with
  | none =>
      obtain ⟨node, inside, rfl⟩ := List.mem_map.mp member
      exact absurd (decide_eq_true rfl) (List.find?_eq_none.mp found node.toGraphNode
        (List.mem_reverse.mpr (List.mem_map_of_mem inside)))
  | some last =>
      rw [found] at coarse
      obtain ⟨node, inside, rfl⟩ :=
        List.mem_map.mp (List.mem_reverse.mp (List.mem_of_find?_eq_some found))
      have named : node.urn = urn := by simpa using List.find?_some found
      exact List.mem_map.mpr ⟨node, List.mem_filter.mpr ⟨inside, decide_eq_true (.inr coarse)⟩,
        named⟩

/-- With the ancestors that are fetched, the ancestors of the nodes are what they were, and all
of them are visible. -/
theorem addAncestors_spec {provider : LineageProvider α} {result : LineageResult α}
    (answers : engine.Answers provider granularity
      (engine.missingAncestors result.nodes containmentMap granularity)) :
    engine.ancestor (engine.addAncestors provider result containmentMap granularity).nodes
        containmentMap (some granularity) =
      engine.ancestor result.nodes containmentMap (some granularity) ∧
    ∀ node ∈ result.nodes, ∀ above,
      engine.ancestor result.nodes containmentMap (some granularity) node.urn = some above →
      above ≠ "" → above ∈ engine.visibleNodeIds
        (engine.addAncestors provider result containmentMap granularity).nodes
        (some granularity) := by
  cases missing : engine.missingAncestors result.nodes containmentMap granularity with
  | nil =>
      have same : engine.addAncestors provider result containmentMap granularity = result := by
        rw [addAncestors, missing]
      rw [same]
      refine ⟨rfl, ?_⟩
      intro node member above found named
      refine mem_visibleNodeIds ?_ (nodeLevel_ancestor found)
      by_contra absent
      have listed := mem_missingAncestors.mpr ⟨named, absent, node, member, found⟩
      rw [missing] at listed
      cases listed
  | cons first rest =>
      have same : (engine.addAncestors provider result containmentMap granularity).nodes =
          addNodes result.nodes (provider.getNodes (first :: rest)) := by
        rw [addAncestors, missing]
      rw [missing] at answers
      have reachable : 0 ≤ engine.targetLevel (some granularity) := by
        have listed : first ∈ engine.missingAncestors result.nodes containmentMap granularity :=
          missing ▸ List.mem_cons_self
        obtain ⟨_, absent, _, _, found⟩ := mem_missingAncestors.mp listed
        have coarse := nodeLevel_ancestor found
        rwa [nodeLevel_of_missing absent] at coarse
      have kept : engine.ancestor (addNodes result.nodes (provider.getNodes (first :: rest)))
          containmentMap (some granularity) =
            engine.ancestor result.nodes containmentMap (some granularity) :=
        ancestor_addNodes reachable answers.coarse
      rw [same, kept]
      refine ⟨rfl, ?_⟩
      intro node member above found named
      refine mem_visibleNodeIds (mem_urns_addNodes.mpr ?_) (nodeLevel_ancestor (kept ▸ found))
      by_cases there : above ∈ result.nodes.map (·.urn)
      · exact .inl there
      · have listed := mem_missingAncestors.mpr ⟨named, there, node, member, found⟩
        exact .inr (answers.complete above (missing ▸ listed))

theorem edges_addAncestors {provider : LineageProvider α} {result : LineageResult α} :
    (engine.addAncestors provider result containmentMap granularity).edges = result.edges := by
  unfold addAncestors
  split <;> rfl

/-- Each lineage edge leads between two of the nodes, and these have ancestors at the
granularity. -/
def Resolved (engine : ContextEngine) (result : LineageResult α)
    (containmentMap : OrderedMap String String) (granularity : String)
    (containmentTypes : List String) : Prop :=
  ∀ edge ∈ result.edges, engine.normalizeEdgeType edge.edgeType ∉ containmentTypes →
    ∀ urn ∈ [edge.sourceUrn, edge.targetUrn], urn ∈ result.nodes.map (·.urn) ∧
      (engine.ancestor result.nodes containmentMap (some granularity) urn).isSome

/-- The projection is the contraction of the lineage along the ancestors: there is an aggregated
edge between two ancestors just if a lineage edge leads from below the one to below the other, and
what a node reaches, its ancestor reaches. -/
structure Projects (engine : ContextEngine) (result projected : LineageResult α)
    (containmentMap : OrderedMap String String) (granularity : String)
    (containmentTypes : List String) : Prop where
  contracts : ∀ source target, AggregatedStep projected source target ↔
    Contracted (engine.LineageStep containmentTypes result.edges)
      (engine.ancestor result.nodes containmentMap (some granularity)) source target
  follows : ∀ first last origin,
    engine.ancestor result.nodes containmentMap (some granularity) first = some origin →
    Relation.ReflTransGen (engine.LineageStep containmentTypes result.edges) first last →
    ∃ target, engine.ancestor result.nodes containmentMap (some granularity) last =
        some target ∧
      Relation.ReflTransGen (AggregatedStep projected) origin target

theorem projectGraph_projects {provider : LineageProvider α} {result : LineageResult α}
    (plain : PlainUrns result.edges containmentMap)
    (resolved : engine.Resolved result containmentMap granularity containmentTypes)
    (answers : engine.Answers provider granularity
      (engine.missingAncestors result.nodes containmentMap granularity)) :
    engine.Projects result (engine.projectGraph
      (engine.addAncestors provider result containmentMap granularity) (some granularity) true
      containmentMap containmentTypes) containmentMap granularity containmentTypes := by
  have ⟨same, visible⟩ := addAncestors_spec answers
  have edgesSame : (engine.addAncestors provider result containmentMap granularity).edges =
      result.edges := edges_addAncestors
  have contracts (source target : String) :
      AggregatedStep (engine.projectGraph
          (engine.addAncestors provider result containmentMap granularity) (some granularity) true
          containmentMap containmentTypes) source target ↔
        Contracted (engine.LineageStep containmentTypes result.edges)
          (engine.ancestor result.nodes containmentMap (some granularity)) source target := by
    rw [aggregatedStep_iff (edgesSame ▸ plain), same, edgesSame]
    refine ⟨fun both => both.1, fun contracted => ⟨contracted, ?_⟩⟩
    obtain ⟨_, _, _, ⟨edge, member, lineage, rfl, rfl⟩, here, there⟩ := contracted
    have ends := resolved edge member lineage
    have fromSource := (ends edge.sourceUrn List.mem_cons_self).1
    have fromTarget := (ends edge.targetUrn (List.mem_cons_of_mem _ List.mem_cons_self)).1
    obtain ⟨sourceNode, inside, isSource⟩ := List.mem_map.mp fromSource
    obtain ⟨targetNode, inside', isTarget⟩ := List.mem_map.mp fromTarget
    have plainEnds := plain.endpoints edge member
    exact ⟨visible sourceNode inside source (isSource ▸ here) (plain.ancestor plainEnds.1 here).1,
      visible targetNode inside' target (isTarget ▸ there) (plain.ancestor plainEnds.2 there).1⟩
  refine ⟨contracts, ?_⟩
  intro first last origin begins path
  have placed : ∀ node next, engine.LineageStep containmentTypes result.edges node next →
      ∃ target, engine.ancestor result.nodes containmentMap (some granularity) next =
        some target := by
    rintro _ _ ⟨edge, member, lineage, rfl, rfl⟩
    exact Option.isSome_iff_exists.mp
      (resolved edge member lineage _ (List.mem_cons_of_mem _ List.mem_cons_self)).2
  obtain ⟨target, ends, reached⟩ := contracted_path placed begins path
  exact ⟨target, ends, Relation.ReflTransGen.mono
    (fun source target onto => (contracts source target).mpr onto) _ _ reached⟩

/-- At a granularity, lineage is projected: nothing is lost on the way, and no aggregated edge is
made up. -/
theorem getLineage_projects [DecidableEq α] (engine : ContextEngine)
    (provider : LineageProvider α) (containmentEdgeTypes allLineageEdgeTypes : List String)
    (request : LineageRequest) (granularity : String)
    (asked : request.granularity = some granularity) (aggregates : request.aggregateEdges = true)
    (plain : PlainUrns
      (engine.gatheredLineage provider containmentEdgeTypes allLineageEdgeTypes request).edges
      (engine.tracedContainment provider containmentEdgeTypes allLineageEdgeTypes request))
    (resolved : engine.Resolved
      (engine.gatheredLineage provider containmentEdgeTypes allLineageEdgeTypes request)
      (engine.tracedContainment provider containmentEdgeTypes allLineageEdgeTypes request)
      granularity (engine.upperTypes containmentEdgeTypes))
    (answers : engine.Answers provider granularity (engine.missingAncestors
      (engine.gatheredLineage provider containmentEdgeTypes allLineageEdgeTypes request).nodes
      (engine.tracedContainment provider containmentEdgeTypes allLineageEdgeTypes request)
      granularity)) :
    engine.Projects
      (engine.gatheredLineage provider containmentEdgeTypes allLineageEdgeTypes request)
      (engine.getLineage provider containmentEdgeTypes allLineageEdgeTypes request)
      (engine.tracedContainment provider containmentEdgeTypes allLineageEdgeTypes request)
      granularity (engine.upperTypes containmentEdgeTypes) := by
  simp only [getLineage, asked, aggregates]
  exact projectGraph_projects plain resolved answers

/-- Two columns, of which only the tables are asked for. -/
theorem columns_projected :
    let engine : ContextEngine := ⟨some ((OrderedMap.empty.set "table" 1).set "column" 2), id⟩
    let edge (id source target type : String) : TracedEdge :=
      ⟨⟨id, source, target, type⟩, 1, .empty⟩
    let traced : LineageResult Unit :=
      { nodes := [⟨⟨"c", "column"⟩, ()⟩, ⟨⟨"d", "column"⟩, ()⟩]
        edges := [edge "e1" "a" "c" "CONTAINS", edge "e2" "b" "d" "CONTAINS",
          edge "e3" "c" "d" "FLOWS"]
        upstreamUrns := []
        downstreamUrns := ["d"]
        totalCount := 2
        hasMore := false
        aggregatedEdges := none }
    let provider : LineageProvider Unit :=
      { getTraceLineage := fun _ _ _ _ _ => traced
        getParent := fun _ => none
        getFullLineage := fun _ _ _ => traced
        getNodes := fun urns => [⟨⟨"a", "table"⟩, ()⟩, ⟨⟨"b", "table"⟩, ()⟩].filter
          fun node => node.urn ∈ urns }
    let request : LineageRequest :=
      { urn := "c", upstreamDepth := 0, downstreamDepth := 1, granularity := some "table"
        aggregateEdges := true, includeInheritedLineage := true, lineageEdgeTypes := none }
    engine.Projects (engine.gatheredLineage provider ["CONTAINS"] ["FLOWS"] request)
      (engine.getLineage provider ["CONTAINS"] ["FLOWS"] request)
      (engine.tracedContainment provider ["CONTAINS"] ["FLOWS"] request) "table"
      (engine.upperTypes ["CONTAINS"]) := by
  intro engine edge traced provider request
  apply getLineage_projects engine provider ["CONTAINS"] ["FLOWS"] request "table" rfl rfl
  · exact ⟨by decide +kernel, by decide +kernel⟩
  · unfold Resolved
    decide +kernel
  · exact ⟨by decide +kernel, by decide +kernel⟩

end ContextEngine

end Univiz.Lineage

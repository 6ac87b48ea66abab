import Univiz.LevelTrace.Drill
import Univiz.LevelTrace.Notices

namespace Univiz.LevelTrace

open Univiz.Data Univiz.Trace

/-! Which edges `FalkorDBProvider.expand_aggregated` can miss, and both operations together. -/

/-- The graph of the provider, and the one with the aggregated edges. -/
structure Graphs where
  source : Graph
  projection : Graph

variable (provider : LevelProvider) (replies : DrillReplies) (query : DrillQuery)
  (graphs : Graphs)

namespace DrillQuery

def edgeGraph : Graph := if query.useRawEdges then graphs.source else graphs.projection

/-- The rows of the edge query between two lists of URNs, without the limit. -/
def edgeRows (sourceUrns targetUrns : List Urn) : List Relationship :=
  (query.edgeGraph graphs).edgeRows (query.edgeQuery provider) sourceUrns targetUrns

/-- The rows of the descendants of an anchor, without the limit. -/
def descendantRows (anchor : Urn) : List Urn :=
  graphs.source.descendantRows (query.containmentTypes provider) (query.peerTypes provider)
    provider.config.maxDepth anchor

def anchorRows (anchor : Urn) : List Urn :=
  graphs.source.anchorRows (query.peerTypes provider) anchor

/-- An edge that matches, from the full descendants of the source to those of the target. -/
def Between (edge : Relationship) : Prop :=
  edge ∈ (query.edgeGraph graphs).relationships ∧ (query.edgeQuery provider).Selects edge ∧
    graphs.source.FullDescendant (query.containmentTypes provider) (query.peerTypes provider)
      query.sourceUrn edge.source.urn ∧
    graphs.source.FullDescendant (query.containmentTypes provider) (query.peerTypes provider)
      query.targetUrn edge.target.urn

end DrillQuery

/-- Both queries return their matching rows cut at their limit, or raise. -/
structure DrillRepliesCut : Prop where
  descendants : ∀ rows, replies.descendants = some rows →
    rows.sourceAnchor.Perm (query.anchorRows provider graphs query.sourceUrn) ∧
    CutAt query.maxNodes (query.descendantRows provider graphs query.sourceUrn) rows.source ∧
    rows.targetAnchor.Perm (query.anchorRows provider graphs query.targetUrn) ∧
    CutAt query.maxNodes (query.descendantRows provider graphs query.targetUrn) rows.target
  edges : ∀ sourceUrns targetUrns rows, replies.edges sourceUrns targetUrns = some rows →
    CutAt query.maxNodes (query.edgeRows provider graphs sourceUrns targetUrns) rows

/-- An expansion that is not truncated has every matching edge between the full sets. -/
def DrillComplete (result : DrillResult) : Prop :=
  result.truncated = false → ∀ edge, query.Between provider graphs edge →
    ∃ found ∈ result.edges, found.id = edge.id

/-- The descendants could not be collected in time, there are too many nodes, or the ancestors
cannot be collected. -/
def DrillFlagged : Prop :=
  (drillSets provider replies query).2.2 ≠ none ∨ (drillNodes provider replies query).2 = true ∨
    ∃ nodes, drillFetched provider replies query = .ok nodes ∧
      AncestorsFail provider (query.containmentTypes provider) nodes

/-- Nothing is lost: the ends of every matching edge are among the descendants that were
returned, and the edge query does not raise, if it has rows, and has no more of them than its
limit. -/
structure DrillFits : Prop where
  collected : ∀ edge, query.Between provider graphs edge →
    edge.source.urn ∈ (drillSets provider replies query).1 ∧
      edge.target.urn ∈ (drillSets provider replies query).2.1
  answered : replies.edges (drillSets provider replies query).1
      (drillSets provider replies query).2.1 = none →
    query.edgeRows provider graphs (drillSets provider replies query).1
      (drillSets provider replies query).2.1 = []
  few : (query.edgeRows provider graphs (drillSets provider replies query).1
    (drillSets provider replies query).2.1).length ≤ query.maxNodes

def DrillConclusive : Prop :=
  DrillFlagged provider replies query ∨ DrillFits provider replies query graphs

variable {provider replies query graphs} {edge : Relationship} {sourceUrns targetUrns : List Urn}
  {query' : TraceQuery} {graph : Graph} {prepared : Prepared}

theorem mem_edgeRows :
    edge ∈ query.edgeRows provider graphs sourceUrns targetUrns ↔
      edge ∈ (query.edgeGraph graphs).relationships ∧ edge.source.urn ∈ sourceUrns ∧
        edge.target.urn ∈ targetUrns ∧ (query.edgeQuery provider).Selects edge := by
  simp only [DrillQuery.edgeRows, Graph.edgeRows, List.mem_filter, decide_eq_true_eq]

theorem collected_sound (cut : DrillRepliesCut provider replies query graphs)
    {sets : List Urn × List Urn} (collected : collectDescendantsPair provider replies query =
      some sets) (urn : Urn) :
    (urn ∈ sets.1 → graphs.source.FullDescendant (query.containmentTypes provider)
      (query.peerTypes provider) query.sourceUrn urn) ∧
    (urn ∈ sets.2 → graphs.source.FullDescendant (query.containmentTypes provider)
      (query.peerTypes provider) query.targetUrn urn) := by
  rw [collectDescendantsPair] at collected
  split at collected
  · cases collected
    exact ⟨fun none => absurd none List.not_mem_nil, fun none => absurd none List.not_mem_nil⟩
  · obtain ⟨rows, answer, rfl⟩ := Option.map_eq_some_iff.mp collected
    obtain ⟨anchor, source, anchor', target⟩ := cut.descendants rows answer
    simp only [List.mem_dedup, List.mem_append]
    refine ⟨?_, ?_⟩
    · rintro (own | below)
      · exact .inl (anchor.mem_iff.mp own)
      · exact .inr ⟨_, source.subset below⟩
    · rintro (own | below)
      · exact .inl (anchor'.mem_iff.mp own)
      · exact .inr ⟨_, target.subset below⟩

/-- The edges of the query between the sets that are collected are between descendants. -/
theorem between_of_mem_edgeRows (cut : DrillRepliesCut provider replies query graphs)
    (member : edge ∈ query.edgeRows provider graphs (drillSets provider replies query).1
      (drillSets provider replies query).2.1) : query.Between provider graphs edge := by
  obtain ⟨listed, source, target, selects⟩ := mem_edgeRows.mp member
  cases collected : collectDescendantsPair provider replies query with
  | none =>
      simp only [drillSets, collected] at source
      exact absurd source List.not_mem_nil
  | some sets =>
      simp only [drillSets, collected] at source target
      exact ⟨listed, selects, (collected_sound cut collected _).1 source,
        (collected_sound cut collected _).2 target⟩

/-- In time, the edges are the rows that the edge query returns. -/
theorem mem_drillEdges (timely : (drillSets provider replies query).2.2 = none)
    (member : edge ∈ query.edgeRows provider graphs (drillSets provider replies query).1
      (drillSets provider replies query).2.1) :
    (∃ found ∈ drillEdges provider replies query, found.id = edge.id) ↔
      ∃ found ∈ (replies.edges (drillSets provider replies query).1
        (drillSets provider replies query).2.1).getD [], found.id = edge.id := by
  obtain ⟨listed, source, target, selects⟩ := mem_edgeRows.mp member
  have someSource := List.ne_nil_of_mem source
  have someTarget := List.ne_nil_of_mem target
  have typed : ¬ (query.useRawEdges = true ∧ query.lineageTypes provider = []) := by
    rintro ⟨raw, none⟩
    simp only [EdgeQuery.Selects, DrillQuery.edgeQuery, raw, ↓reduceIte, none,
      List.not_mem_nil] at selects
  have edges : drillEdges provider replies query = firstRows []
      ((replies.edges (drillSets provider replies query).1
        (drillSets provider replies query).2.1).getD []) := by
    simp only [drillEdges, timely, someSource, someTarget, ne_eq, not_false_eq_true, and_self,
      ↓reduceIte, edgesBetweenSets, or_self, typed]
  rw [edges]
  exact mem_firstRows List.not_mem_nil

theorem drillEdges_subset : ∀ found ∈ drillEdges provider replies query,
    found ∈ (replies.edges (drillSets provider replies query).1
      (drillSets provider replies query).2.1).getD [] := by
  intro found member
  simp only [drillEdges] at member
  split at member
  · simp only [edgesBetweenSets] at member
    split at member
    · exact absurd member List.not_mem_nil
    · split at member
      · exact absurd member List.not_mem_nil
      · exact firstRows_subset member
  · exact absurd member List.not_mem_nil

theorem edgeRows_of_returned (cut : DrillRepliesCut provider replies query graphs)
    (member : edge ∈ (replies.edges sourceUrns targetUrns).getD []) :
    edge ∈ query.edgeRows provider graphs sourceUrns targetUrns := by
  cases answer : replies.edges sourceUrns targetUrns with
  | none =>
      rw [answer] at member
      exact absurd member List.not_mem_nil
  | some rows =>
      rw [answer] at member
      exact (cut.edges _ _ _ answer).subset member

theorem Graph.eq_of_id (graph : Graph) {other : Relationship}
    (listed : edge ∈ graph.relationships) (listed' : other ∈ graph.relationships)
    (same : other.id = edge.id) : other = edge :=
  List.inj_on_of_nodup_map graph.distinct listed' listed same

/-- An edge that is found is a row of the edge query. -/
theorem mem_edgeRows_of_found (cut : DrillRepliesCut provider replies query graphs)
    (between : query.Between provider graphs edge)
    (found : ∃ found ∈ drillEdges provider replies query, found.id = edge.id) :
    edge ∈ query.edgeRows provider graphs (drillSets provider replies query).1
      (drillSets provider replies query).2.1 := by
  obtain ⟨other, member, same⟩ := found
  have row := edgeRows_of_returned cut (drillEdges_subset other member)
  exact (query.edgeGraph graphs).eq_of_id between.1 (mem_edgeRows.mp row).1 same ▸ row

/-- The edges of an expansion in time have every matching edge exactly when nothing is lost. -/
theorem drillEdges_complete_iff (cut : DrillRepliesCut provider replies query graphs)
    (timely : (drillSets provider replies query).2.2 = none) :
    (∀ edge, query.Between provider graphs edge →
      ∃ found ∈ drillEdges provider replies query, found.id = edge.id) ↔
        DrillFits provider replies query graphs := by
  refine ⟨?_, ?_⟩
  · intro complete
    have returned : ∀ edge ∈ query.edgeRows provider graphs (drillSets provider replies query).1
        (drillSets provider replies query).2.1,
          edge.id ∈ ((replies.edges (drillSets provider replies query).1
            (drillSets provider replies query).2.1).getD []).map Relationship.id := by
      intro edge member
      obtain ⟨found, listed, same⟩ := (mem_drillEdges timely member).mp
        (complete edge (between_of_mem_edgeRows cut member))
      exact List.mem_map.mpr ⟨found, listed, same⟩
    refine ⟨?_, ?_, ?_⟩
    · intro edge between
      have row := mem_edgeRows_of_found cut between (complete edge between)
      obtain ⟨-, source, target, -⟩ := mem_edgeRows.mp row
      exact ⟨source, target⟩
    · intro raised
      rw [raised] at returned
      exact List.eq_nil_iff_forall_not_mem.mpr fun edge member =>
        absurd (returned edge member) List.not_mem_nil
    · cases answer : replies.edges (drillSets provider replies query).1
          (drillSets provider replies query).2.1 with
      | none =>
          rw [answer] at returned
          rw [List.eq_nil_iff_forall_not_mem.mpr fun edge member =>
            absurd (returned edge member) List.not_mem_nil]
          exact Nat.zero_le _
      | some rows =>
          rw [answer] at returned
          have distinct : ((query.edgeRows provider graphs (drillSets provider replies query).1
              (drillSets provider replies query).2.1).map Relationship.id).Nodup :=
            (query.edgeGraph graphs).distinct.sublist (List.filter_sublist.map _)
          have inside : (query.edgeRows provider graphs (drillSets provider replies query).1
              (drillSets provider replies query).2.1).map Relationship.id ⊆
                rows.map Relationship.id := by
            intro id member
            obtain ⟨edge, listed, rfl⟩ := List.mem_map.mp member
            exact returned edge listed
          have bound := (distinct.subperm inside).length_le
          rw [List.length_map, List.length_map] at bound
          exact Nat.le_trans bound (cut.edges _ _ _ answer).length_le
  · intro fits edge between
    obtain ⟨source, target⟩ := fits.collected edge between
    have row := mem_edgeRows.mpr ⟨between.1, source, target, between.2.1⟩
    refine (mem_drillEdges timely row).mpr ?_
    cases answer : replies.edges (drillSets provider replies query).1
        (drillSets provider replies query).2.1 with
    | none =>
        rw [fits.answered answer] at row
        exact absurd row List.not_mem_nil
    | some rows => exact ⟨edge, ((cut.edges _ _ _ answer).mem_iff fits.few edge).mpr row, rfl⟩

theorem expandAggregated_ran {result : DrillResult}
    (ran : expandAggregated provider replies query = .ok result) :
    (result.truncated = true ↔ DrillFlagged provider replies query) ∧
      result.edges = drillEdges provider replies query := by
  obtain ⟨fetched, fetches, ran⟩ := bind_eq_ok_iff.mp ran
  obtain ⟨hydrated, hydrates, ran⟩ := bind_eq_ok_iff.mp ran
  have failed := hydrateChain_failed hydrates
  obtain ⟨anchorNode, -, ran⟩ := bind_eq_ok_iff.mp ran
  have truncated : result.truncated = (((drillSets provider replies query).2.2.or
      (if (drillNodes provider replies query).2 then some "max_nodes" else none)).or
        (if hydrated.2.2 then some "ancestors_failed" else none)).isSome := by
    cases ran
    rfl
  have edges : result.edges = drillEdges provider replies query := by
    cases ran
    rfl
  refine ⟨?_, edges⟩
  rw [truncated]
  simp only [Option.isSome_or, Bool.or_eq_true, DrillFlagged, or_assoc]
  refine or_congr Option.isSome_iff_ne_none (or_congr ?_ ?_)
  · split
    · rename_i tooMany
      exact iff_of_true rfl tooMany
    · rename_i few
      exact iff_of_false Bool.noConfusion few
  · have ancestors : (∃ nodes, drillFetched provider replies query = .ok nodes ∧
        AncestorsFail provider (query.containmentTypes provider) nodes) ↔
          AncestorsFail provider (query.containmentTypes provider) fetched := by
      refine ⟨?_, fun fails => ⟨fetched, fetches, fails⟩⟩
      rintro ⟨nodes, same, fails⟩
      cases fetches.symm.trans same
      exact fails
    rw [ancestors, ← failed]
    split
    · rename_i fails
      exact iff_of_true rfl fails
    · rename_i fine
      exact iff_of_false Bool.noConfusion fine

/-- An expansion that is not truncated is complete exactly when nothing is lost, or a reason is
set. -/
theorem expandAggregated_complete_iff (cut : DrillRepliesCut provider replies query graphs)
    {result : DrillResult} (ran : expandAggregated provider replies query = .ok result) :
    DrillComplete provider query graphs result ↔ DrillConclusive provider replies query graphs := by
  obtain ⟨truncated, edges⟩ := expandAggregated_ran ran
  simp only [DrillComplete, DrillConclusive, ← truncated, edges]
  cases flag : result.truncated with
  | true => exact iff_of_true Bool.noConfusion (.inl rfl)
  | false =>
      have timely : (drillSets provider replies query).2.2 = none := by
        by_contra late
        cases flag.symm.trans (truncated.mpr (.inl late))
      rw [← drillEdges_complete_iff cut timely]
      simp only [forall_const, Bool.false_eq_true, false_or]

/-- Both operations. -/
theorem levelTrace_complete (provider : LevelProvider) (graphs : Graphs) :
    (∀ (query : TraceQuery) (prepared : Prepared) (result : LevelTraceResult),
      RepliesCut provider graphs.projection → prepare provider query = .ok prepared →
      traceAtLevel provider query = .ok result →
        prepared.TraceConclusive provider query graphs.projection →
          prepared.TraceComplete provider query graphs.projection result) ∧
    ∀ (replies : DrillReplies) (query : DrillQuery) (result : DrillResult),
      DrillRepliesCut provider replies query graphs →
      expandAggregated provider replies query = .ok result →
        (DrillComplete provider query graphs result ↔
          DrillConclusive provider replies query graphs) := by
  refine ⟨?_, ?_⟩
  · intro query prepared result cut ready ran conclusive
    exact traceAtLevel_complete cut ready ran conclusive
  · intro replies query result cut ran
    exact expandAggregated_complete_iff cut ran

theorem Graph.peerTypes_ne_nil {containmentTypes types : List String} {anchor urn : Urn}
    (full : graph.FullDescendant containmentTypes types anchor urn) : types ≠ [] := by
  rintro rfl
  have untyped : ∀ nodes : List Node, (nodes.filter fun node => node.HasType []) = [] := by
    intro nodes
    refine List.filter_eq_nil_iff.mpr ?_
    intro node _ typed
    obtain ⟨label, -, listed⟩ := of_decide_eq_true typed
    exact List.not_mem_nil listed
  rcases full with own | ⟨depth, below⟩
  · rw [Graph.anchorRows, untyped] at own
    exact List.not_mem_nil own
  · rw [Graph.descendantRows, untyped] at below
    exact List.not_mem_nil below

/-- The descendants are all collected if no side has more of them than the limit, and none
below the depth of the pattern. -/
theorem collected_of_few (cut : DrillRepliesCut provider replies query graphs)
    {rows : DescendantRows} (answer : replies.descendants = some rows)
    (shallow : ∀ anchor depth, graphs.source.descendantRows (query.containmentTypes provider)
      (query.peerTypes provider) depth anchor ⊆ query.descendantRows provider graphs anchor)
    (few : (query.descendantRows provider graphs query.sourceUrn).length ≤ query.maxNodes ∧
      (query.descendantRows provider graphs query.targetUrn).length ≤ query.maxNodes)
    (between : query.Between provider graphs edge) :
    edge.source.urn ∈ (drillSets provider replies query).1 ∧
      edge.target.urn ∈ (drillSets provider replies query).2.1 := by
  obtain ⟨-, -, source, target⟩ := between
  have typed := Graph.peerTypes_ne_nil source
  obtain ⟨anchor, below, anchor', below'⟩ := cut.descendants rows answer
  simp only [drillSets, collectDescendantsPair, if_neg typed, answer, Option.map_some,
    List.mem_dedup, List.mem_append]
  refine ⟨source.imp anchor.mem_iff.mpr ?_, target.imp anchor'.mem_iff.mpr ?_⟩
  · intro ⟨depth, member⟩
    exact (below.mem_iff few.1 _).mpr (shallow _ depth member)
  · intro ⟨depth, member⟩
    exact (below'.mem_iff few.2 _).mpr (shallow _ depth member)

def sampleNode (id : Nat) (urn label : String) (named : urn ≠ "" := by decide) : Node :=
  { id := id, urn := urn, labels := [label], named := named }

def aggregated (id : Nat) (source target : Node) : Relationship :=
  { id := id, type := "AGGREGATED", source := source, target := target
    sourceLevel := some 0, targetLevel := some 0 }

def edgeToC : Relationship := aggregated 2 (sampleNode 0 "a" "domain") (sampleNode 2 "c" "domain")

/-- Two aggregated edges from `a`. -/
def fanGraph : Graph where
  nodes := [sampleNode 0 "a" "domain", sampleNode 1 "b" "domain", sampleNode 2 "c" "domain"]
  relationships :=
    [aggregated 1 (sampleNode 0 "a" "domain") (sampleNode 1 "b" "domain"), edgeToC]
  distinct := by decide

/-- A provider whose queries of the search all raise, or answer in the order of the graph. -/
def sampleProvider (graph : Graph) (raises : Bool) : LevelProvider where
  config := ⟨[("domain", 0), ("dataset", 1)], 5000, id, Char.isAlphanum⟩
  getNode urn := .ok ((graph.nodes.find? fun node => node.urn = urn).bind Node.graphNode)
  resolveRootAnchor urn _ := (urn, 0)
  resolveAnchorAtLevel urn _ _ := urn
  hasAggregatedAtLevel _ _ _ := true
  findAncestorWithLineage _ _ _ _ := none
  replies _ _ subQuery limit := if raises then none else some ((graph.rows subQuery).take limit)
  expired _ _ := false
  collectAncestorUrns _ _ := .ok []
  getNodesBatch urns := .ok (urns.map fun urn => ⟨urn, "domain"⟩)
  fetchContainmentEdges _ _ := .ok []

theorem sampleProvider_repliesCut (graph : Graph) (raises : Bool) :
    RepliesCut (sampleProvider graph raises) graph := by
  intro retry hop subQuery limit rows reply
  simp only [sampleProvider] at reply
  split at reply
  · cases reply
  · cases reply
    exact cutAt_take limit (graph.rows subQuery)

/-- One hop downstream from `a`. -/
def oneHop (maxNodes : Nat) : TraceQuery where
  urn := "a"
  level := 0
  upstreamDepth := 0
  downstreamDepth := 1
  lineageEdgeTypes := []
  containmentEdgeTypes := []
  maxNodes := maxNodes

/-- Two hops downstream from `a` and one upstream. -/
def threeHops (maxNodes : Nat) : TraceQuery :=
  { oneHop maxNodes with upstreamDepth := 1, downstreamDepth := 2 }

/-- From `w` to `a`, and from there to `b`, and to `c` by way of `b`. -/
def pathGraph : Graph where
  nodes := [sampleNode 0 "a" "domain", sampleNode 1 "b" "domain", sampleNode 2 "c" "domain",
    sampleNode 3 "w" "domain"]
  relationships :=
    [aggregated 1 (sampleNode 0 "a" "domain") (sampleNode 1 "b" "domain"),
      aggregated 2 (sampleNode 1 "b" "domain") (sampleNode 2 "c" "domain"),
      aggregated 3 (sampleNode 3 "w" "domain") (sampleNode 0 "a" "domain")]
  distinct := by decide

def contains (id : Nat) (parent child : Node) : Relationship :=
  { id := id, type := "CONTAINS", source := parent, target := child }

def edgeFromR : Relationship :=
  aggregated 6 (sampleNode 4 "r" "dataset") (sampleNode 5 "s" "dataset")

/-- Two datasets of `x` have an edge to the one of `y`. -/
def nestedGraph : Graph where
  nodes := [sampleNode 0 "x" "domain", sampleNode 1 "y" "domain", sampleNode 2 "p" "dataset",
    sampleNode 3 "q" "dataset", sampleNode 4 "r" "dataset", sampleNode 5 "s" "dataset"]
  relationships :=
    [contains 1 (sampleNode 0 "x" "domain") (sampleNode 2 "p" "dataset"),
      contains 2 (sampleNode 0 "x" "domain") (sampleNode 3 "q" "dataset"),
      contains 3 (sampleNode 0 "x" "domain") (sampleNode 4 "r" "dataset"),
      contains 4 (sampleNode 1 "y" "domain") (sampleNode 5 "s" "dataset"),
      aggregated 5 (sampleNode 2 "p" "dataset") (sampleNode 5 "s" "dataset"),
      edgeFromR]
  distinct := by decide

def sampleGraphs (graph : Graph) : Graphs := ⟨graph, graph⟩

/-- From the datasets of `x` to those of `y`. -/
def drillDown (maxNodes : Nat) : DrillQuery where
  sourceUrn := "x"
  targetUrn := "y"
  nextLevel := 1
  lineageEdgeTypes := []
  containmentEdgeTypes := ["CONTAINS"]
  maxNodes := maxNodes

/-- The edge query raises, or both answer in the order of the graph. -/
def sampleReplies (query : DrillQuery) (raises : Bool) : DrillReplies where
  descendants :=
    let provider := sampleProvider nestedGraph false
    let graphs := sampleGraphs nestedGraph
    some {
      sourceAnchor := query.anchorRows provider graphs query.sourceUrn
      source := (query.descendantRows provider graphs query.sourceUrn).take query.maxNodes
      targetAnchor := query.anchorRows provider graphs query.targetUrn
      target := (query.descendantRows provider graphs query.targetUrn).take query.maxNodes }
  edges sourceUrns targetUrns :=
    if raises then none
    else some ((query.edgeRows (sampleProvider nestedGraph false) (sampleGraphs nestedGraph)
      sourceUrns targetUrns).take query.maxNodes)
  expired := false

theorem sampleReplies_cut (query : DrillQuery) (raises : Bool) :
    DrillRepliesCut (sampleProvider nestedGraph false) (sampleReplies query raises) query
      (sampleGraphs nestedGraph) := by
  refine ⟨?_, ?_⟩
  · intro rows answer
    cases answer
    exact ⟨List.Perm.refl _, cutAt_take _ _, List.Perm.refl _, cutAt_take _ _⟩
  · intro sourceUrns targetUrns rows answer
    simp only [sampleReplies] at answer
    split at answer
    · cases answer
    · cases answer
      exact cutAt_take _ _

/-- What the trace from `a` starts with. -/
def preparedAtA : Prepared :=
  ⟨some ⟨"a", "domain"⟩, some 0, "domain", 0, none, "a", none, some ⟨"a", "domain"⟩⟩

theorem path_conclusive : preparedAtA.TraceConclusive (sampleProvider pathGraph false)
    (threeHops 100) pathGraph := by
  decide +kernel

/-- The budget is one, and the second hop begins with two nodes. -/
theorem fan_conclusive : preparedAtA.TraceConclusive (sampleProvider fanGraph false)
    (threeHops 2) fanGraph := by
  decide +kernel

theorem path_fan_and_nested_complete :
    (∃ result, traceAtLevel (sampleProvider pathGraph false) (threeHops 100) = .ok result ∧
      result.truncated = false ∧
      preparedAtA.TraceComplete (sampleProvider pathGraph false) (threeHops 100) pathGraph
        result) ∧
    (∃ result, traceAtLevel (sampleProvider fanGraph false) (threeHops 2) = .ok result ∧
      result.truncated = true ∧
      preparedAtA.TraceComplete (sampleProvider fanGraph false) (threeHops 2) fanGraph result) ∧
    ∃ result, expandAggregated (sampleProvider nestedGraph false)
        (sampleReplies (drillDown 100) false) (drillDown 100) = .ok result ∧
      (DrillComplete (sampleProvider nestedGraph false) (drillDown 100)
          (sampleGraphs nestedGraph) result ↔
        DrillConclusive (sampleProvider nestedGraph false) (sampleReplies (drillDown 100) false)
          (drillDown 100) (sampleGraphs nestedGraph)) := by
  refine ⟨⟨_, rfl, by decide +kernel, ?_⟩, ⟨_, rfl, by decide +kernel, ?_⟩, _, rfl, ?_⟩
  · exact (levelTrace_complete _ (sampleGraphs pathGraph)).1 _ _ _
      (sampleProvider_repliesCut pathGraph false) rfl rfl path_conclusive
  · exact (levelTrace_complete _ (sampleGraphs fanGraph)).1 _ _ _
      (sampleProvider_repliesCut fanGraph false) rfl rfl fan_conclusive
  · exact (levelTrace_complete _ _).2 _ _ _ (sampleReplies_cut (drillDown 100) false) rfl

theorem not_drillComplete {result : DrillResult} (whole : result.truncated = false)
    (between : query.Between provider graphs edge)
    (missing : edge.id ∉ result.edges.map Relationship.id) :
    ¬ DrillComplete provider query graphs result := by
  intro complete
  obtain ⟨found, member, same⟩ := complete whole edge between
  exact missing (same ▸ List.mem_map_of_mem member)

theorem not_traceComplete {started : Started} {begun : Hop} {direction : Direction}
    {row : Relationship} {result : LevelTraceResult} (whole : result.truncated = false)
    (runs : prepared.Runs provider query' started)
    (expands : started.Expands provider query' begun direction)
    (matched : row ∈ started.matching provider query' graph begun direction)
    (missing : toString row.id ∉ result.edges.map Trace.GraphEdge.id) :
    ¬ prepared.TraceComplete provider query' graph result := by
  intro complete
  obtain ⟨edge, member, same⟩ := complete whole started runs begun direction expands row matched
  exact missing (same ▸ List.mem_map_of_mem member)

def beginAtA (maxNodes : Nat) : Hop :=
  ⟨0, (preparedAtA.firstStarted (oneHop maxNodes)).search.toSearch⟩

theorem expands_atA (raises : Bool) {maxNodes : Nat} (room : 1 < maxNodes) :
    (preparedAtA.firstStarted (oneHop maxNodes)).Expands (sampleProvider fanGraph raises)
      (oneHop maxNodes) (beginAtA maxNodes) .outgoing := by
  refine ⟨List.mem_cons_self, ?_, Nat.one_pos⟩
  rintro (late | full)
  · cases late
  · exact absurd (show maxNodes ≤ 1 from full) (Nat.not_le.mpr room)

theorem edgeFromR_between (maxNodes : Nat) : (drillDown maxNodes).Between
    (sampleProvider nestedGraph false) (sampleGraphs nestedGraph) edgeFromR := by
  refine ⟨?_, ⟨rfl, .inl rfl⟩, .inr ⟨1, ?_⟩, .inr ⟨1, ?_⟩⟩
  · exact (show edgeFromR ∈ nestedGraph.relationships by decide +kernel)
  · exact (show "r" ∈ nestedGraph.descendantRows ["CONTAINS"] ["dataset"] 1 "x" by decide +kernel)
  · exact (show "s" ∈ nestedGraph.descendantRows ["CONTAINS"] ["dataset"] 1 "y" by decide +kernel)

/-- A limit cuts a row, or a query raises, and nothing is said. -/
theorem levelTrace_incomplete :
    (∀ case ∈ [(false, 2), (true, 100)],
      RepliesCut (sampleProvider fanGraph case.1) fanGraph ∧
      prepare (sampleProvider fanGraph case.1) (oneHop case.2) = .ok preparedAtA ∧
      ∃ result, traceAtLevel (sampleProvider fanGraph case.1) (oneHop case.2) = .ok result ∧
        ¬ preparedAtA.TraceComplete (sampleProvider fanGraph case.1) (oneHop case.2) fanGraph
          result) ∧
    ∀ case ∈ [(false, 2), (true, 100)],
      DrillRepliesCut (sampleProvider nestedGraph false) (sampleReplies (drillDown case.2) case.1)
        (drillDown case.2) (sampleGraphs nestedGraph) ∧
      ∃ result, expandAggregated (sampleProvider nestedGraph false)
          (sampleReplies (drillDown case.2) case.1) (drillDown case.2) = .ok result ∧
        ¬ DrillComplete (sampleProvider nestedGraph false) (drillDown case.2)
          (sampleGraphs nestedGraph) result := by
  simp only [List.forall_mem_cons, List.not_mem_nil, false_imp_iff, implies_true, and_true]
  refine ⟨⟨⟨sampleProvider_repliesCut _ _, rfl, _, rfl, ?_⟩,
    sampleProvider_repliesCut _ _, rfl, _, rfl, ?_⟩,
    ⟨sampleReplies_cut _ _, _, rfl, ?_⟩, sampleReplies_cut _ _, _, rfl, ?_⟩
  · exact not_traceComplete (by decide +kernel) (.inl rfl) (expands_atA false (by decide))
      (show edgeToC ∈ _ by decide +kernel) (by decide +kernel)
  · exact not_traceComplete (by decide +kernel) (.inl rfl) (expands_atA true (by decide))
      (show edgeToC ∈ _ by decide +kernel) (by decide +kernel)
  · exact not_drillComplete (by decide +kernel) (edgeFromR_between 2) (by decide +kernel)
  · exact not_drillComplete (by decide +kernel) (edgeFromR_between 100) (by decide +kernel)

end Univiz.LevelTrace

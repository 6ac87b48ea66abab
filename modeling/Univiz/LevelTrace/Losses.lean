import Univiz.Data.Texts
import Univiz.LevelTrace.Search
import Univiz.Trace.Truncation

namespace Univiz.LevelTrace

open Univiz.Data Univiz.Trace

/-! Which edges `FalkorDBProvider.trace_at_level` can miss without saying so. -/

variable (provider : LevelProvider) (query : TraceQuery) (graph : Graph)

/-- A query returns its matching rows cut at its limit, or raises. -/
def RepliesCut : Prop :=
  ∀ retry hop subQuery limit rows, provider.replies retry hop subQuery limit = some rows →
    CutAt limit (graph.rows subQuery) rows

variable (pass : Pass)

def levelHops : Nat → Nat → LevelSearch → List Hop
  | 0, _, _ => []
  | hopsLeft + 1, hop, search =>
      let searched := levelHop provider query pass hop search
      ⟨hop, search.toSearch⟩ ::
        if Hop.CutOff (provider.expired pass.retry) query ⟨hop, search.toSearch⟩ ∨
            searched.upFrontier = [] ∧ searched.downFrontier = [] then []
        else levelHops hopsLeft (hop + 1) searched

/-- A pass and the variables that it starts with. -/
structure Started where
  pass : Pass
  search : LevelSearch

namespace Started

variable (started : Started)

def hops : List Hop :=
  levelHops provider query started.pass (max query.upstreamDepth query.downstreamDepth) 0
    started.search

def CutOff (begun : Hop) : Prop :=
  begun.CutOff (provider.expired started.pass.retry) query

/-- The queries of a side in a hop. -/
def queries (begun : Hop) (direction : Direction) : List SubQuery :=
  provider.config.subQueries direction started.pass.level (provider.lineageTypes query)
    started.pass.focusEntityType (begun.search.frontier direction)
    (frontierLabel provider.config begun.search)

def budget (begun : Hop) : Nat := query.maxNodes - begun.search.nodesByUrn.keys.length

/-- The rows that the queries of a side have without their limits. -/
def matching (begun : Hop) (direction : Direction) : List Relationship :=
  (started.queries provider query begun direction).flatMap graph.rows

/-- The rows that they return. -/
def returned (begun : Hop) (direction : Direction) : List Relationship :=
  (started.queries provider query begun direction).flatMap fun subQuery =>
    (provider.replies started.pass.retry begun.hop subQuery (budget query begun)).getD []

/-- A side expands a hop that is not cut off while the hop is within its depth. -/
def Expands (begun : Hop) (direction : Direction) : Prop :=
  begun ∈ started.hops provider query ∧ ¬ started.CutOff provider query begun ∧
    begun.hop < query.depth direction

end Started

def Prepared.firstStarted (prepared : Prepared) : Started :=
  ⟨prepared.firstPass, prepared.firstStart query⟩

def Prepared.retryStarted (prepared : Prepared) : Started :=
  ⟨prepared.retryPass, prepared.retryStart provider query⟩

def Prepared.lastStarted (prepared : Prepared) : Started :=
  if prepared.NeedsRetry provider query then prepared.retryStarted provider query
  else prepared.firstStarted query

/-- A pass of the trace. -/
def Prepared.Runs (prepared : Prepared) (started : Started) : Prop :=
  started = prepared.firstStarted query ∨
    prepared.NeedsRetry provider query ∧ started = prepared.retryStarted provider query

/-- A trace that is not truncated has the edges that match the frontiers within the depths. -/
def Prepared.TraceComplete (prepared : Prepared) (result : LevelTraceResult) : Prop :=
  result.truncated = false → ∀ started, prepared.Runs provider query started →
    ∀ begun direction, started.Expands provider query begun direction →
      ∀ row ∈ started.matching provider query graph begun direction,
        ∃ edge ∈ result.edges, edge.id = toString row.id

def AncestorsFail (types : List String) (nodesByUrn : AList fun _ : Urn => GraphNode) : Prop :=
  types ≠ [] ∧ nodesByUrn.keys ≠ [] ∧
    ∃ message, provider.collectAncestorUrns nodesByUrn.keys types = .error message

/-- A hop of a pass is cut off, the ancestors cannot be collected, or a node has as many
aggregated edges as the cap. -/
def Prepared.Flagged (prepared : Prepared) : Prop :=
  (∃ started, prepared.Runs provider query started ∧
    ∃ begun ∈ started.hops provider query, started.CutOff provider query begun) ∨
  AncestorsFail provider (provider.containmentTypes query)
    (prepared.lastSearch provider query).nodesByUrn ∨
  ∃ urn ∈ (prepared.lastSearch provider query).perSourceCount,
    provider.config.degreeCap ≤ (prepared.lastSearch provider query).perSourceCount.count urn

/-- Nothing is lost in an expansion: no query that has rows raises, all weights can be read,
and the queries match no more relationships than the budget. -/
structure Started.Fits (started : Started) (begun : Hop) (direction : Direction) : Prop where
  answered : ∀ subQuery ∈ started.queries provider query begun direction,
    provider.replies started.pass.retry begun.hop subQuery (Started.budget query begun) = none →
      graph.rows subQuery = []
  readable : ∀ row ∈ started.matching provider query graph begun direction,
    row.weight.read.isSome = true
  few : ((started.matching provider query graph begun direction).map
    Relationship.id).dedup.length ≤ Started.budget query begun

/-- An expansion of the pass makes a record of the relationship: of the rows that are returned
it takes one of each id, with a weight that can be read, and no more than the budget. -/
def Started.Keeps (started : Started) (row : Relationship) : Prop :=
  ∃ begun direction, started.Expands provider query begun direction ∧
    ∃ kept ∈ keptRows (Started.budget query begun)
        (started.returned provider query begun direction),
      kept.id = row.id

variable {provider query graph pass} {hop : Nat} {search : LevelSearch} {id : String}

theorem foldl_collect_toSearch (direction : Direction) (records : List FrontierRecord)
    (search : LevelSearch) :
    (records.foldl (LevelSearch.collect direction) search).toSearch =
      records.foldl (Search.collect direction) search.toSearch := by
  induction records generalizing search with
  | nil => rfl
  | cons record rest ih => exact ih (search.collect direction record)

/-- The edges of the records that a side gets in a hop. -/
def Found (provider : LevelProvider) (query : TraceQuery) (pass : Pass) (begun : Hop)
    (id : String) : Prop :=
  ∃ direction, ∃ record ∈ (hopRecords provider query pass begun.hop begun.search direction).getD [],
    record.edgeId = id

theorem levelHop_edges :
    id ∈ (levelHop provider query pass hop search).edgesById ↔
      id ∈ search.edgesById ∨ Found provider query pass ⟨hop, search.toSearch⟩ id := by
  have cleared : id ∈ search.clearFrontiers.edgesById ↔ id ∈ search.edgesById := Iff.rfl
  simp only [levelHop, LevelSearch.absorb, foldl_collect_toSearch, foldl_collect_edges, cleared,
    Found]
  refine ⟨?_, ?_⟩
  · rintro ((old | upstream) | downstream)
    · exact .inl old
    · exact .inr ⟨.incoming, upstream⟩
    · exact .inr ⟨.outgoing, downstream⟩
  · rintro (old | ⟨direction, found⟩)
    · exact .inl (.inl old)
    · cases direction with
      | incoming => exact .inl (.inr found)
      | outgoing => exact .inr found

theorem levelHop_reason :
    (levelHop provider query pass hop search).truncationReason = search.truncationReason := by
  simp only [levelHop, LevelSearch.absorb, foldl_collect_toSearch]
  rw [(foldl_collect_absorbed .outgoing _ _).reason, (foldl_collect_absorbed .incoming _ _).reason]
  rfl

/-- Without answers a hop finds nothing. -/
theorem levelHop_idle
    (idle : (hopRecords provider query pass hop search.toSearch .incoming).isNone = true ∧
      (hopRecords provider query pass hop search.toSearch .outgoing).isNone = true) :
    levelHop provider query pass hop search =
      { search with toSearch := search.toSearch.clearFrontiers } := by
  simp only [levelHop, Option.isNone_iff_eq_none.mp idle.1, Option.isNone_iff_eq_none.mp idle.2,
    LevelSearch.absorb, Option.getD_none, List.foldl_nil]

/-- A hop is cut off, or it is the last one, or the loop goes on. -/
theorem levelLoop_cases (provider : LevelProvider) (query : TraceQuery) (pass : Pass)
    (hopsLeft hop : Nat) (search : LevelSearch) :
    (Hop.CutOff (provider.expired pass.retry) query ⟨hop, search.toSearch⟩ ∧
      levelHops provider query pass (hopsLeft + 1) hop search = [⟨hop, search.toSearch⟩] ∧
      (levelLoop provider query pass (hopsLeft + 1) hop search).edgesById = search.edgesById ∧
      (levelLoop provider query pass (hopsLeft + 1) hop search).truncationReason.isSome = true) ∨
    ¬ Hop.CutOff (provider.expired pass.retry) query ⟨hop, search.toSearch⟩ ∧
      ((levelHops provider query pass (hopsLeft + 1) hop search = [⟨hop, search.toSearch⟩] ∧
        (levelLoop provider query pass (hopsLeft + 1) hop search).edgesById =
          (levelHop provider query pass hop search).edgesById ∧
        (levelLoop provider query pass (hopsLeft + 1) hop search).truncationReason =
          search.truncationReason) ∨
      levelHops provider query pass (hopsLeft + 1) hop search = ⟨hop, search.toSearch⟩ ::
          levelHops provider query pass hopsLeft (hop + 1)
            (levelHop provider query pass hop search) ∧
        levelLoop provider query pass (hopsLeft + 1) hop search =
          levelLoop provider query pass hopsLeft (hop + 1)
            (levelHop provider query pass hop search)) := by
  simp only [levelLoop, levelHops]
  by_cases late : provider.expired pass.retry hop = true
  · have cut : Hop.CutOff (provider.expired pass.retry) query ⟨hop, search.toSearch⟩ := .inl late
    rw [if_pos late, if_pos (.inl cut)]
    exact .inl ⟨cut, rfl, rfl, rfl⟩
  rw [if_neg late]
  by_cases full : query.maxNodes ≤ search.nodesByUrn.keys.length
  · have cut : Hop.CutOff (provider.expired pass.retry) query ⟨hop, search.toSearch⟩ := .inr full
    rw [if_pos full, if_pos (.inl cut)]
    exact .inl ⟨cut, rfl, rfl, rfl⟩
  rw [if_neg full]
  have whole : ¬ Hop.CutOff (provider.expired pass.retry) query ⟨hop, search.toSearch⟩ :=
    fun cut => cut.elim late full
  refine .inr ⟨whole, ?_⟩
  by_cases idle : (hopRecords provider query pass hop search.toSearch .incoming).isNone = true ∧
      (hopRecords provider query pass hop search.toSearch .outgoing).isNone = true
  · rw [if_pos idle, levelHop_idle idle, if_pos (.inr ⟨rfl, rfl⟩)]
    exact .inl ⟨rfl, rfl, rfl⟩
  rw [if_neg idle]
  by_cases ends : (levelHop provider query pass hop search).upFrontier = [] ∧
      (levelHop provider query pass hop search).downFrontier = []
  · rw [if_pos ends, if_pos (.inr ends)]
    exact .inl ⟨rfl, rfl, levelHop_reason⟩
  · rw [if_neg ends, if_neg (not_or.mpr ⟨whole, ends⟩)]
    exact .inr ⟨rfl, rfl⟩

/-- A pass has the edges it starts with and those that it finds in hops that are not cut
off. -/
theorem levelLoop_edges (hopsLeft hop : Nat) (search : LevelSearch) :
    id ∈ (levelLoop provider query pass hopsLeft hop search).edgesById ↔
      id ∈ search.edgesById ∨ ∃ begun ∈ levelHops provider query pass hopsLeft hop search,
        ¬ begun.CutOff (provider.expired pass.retry) query ∧ Found provider query pass begun id := by
  induction hopsLeft generalizing hop search with
  | zero => simp only [levelLoop, levelHops, List.not_mem_nil, false_and, exists_false, or_false]
  | succ hopsLeft ih =>
      rcases levelLoop_cases provider query pass hopsLeft hop search with
        ⟨cut, hops, edges, -⟩ | ⟨whole, ⟨hops, edges, -⟩ | ⟨hops, goes⟩⟩
      · simp only [hops, edges, List.mem_singleton, exists_eq_left, cut, not_true, false_and,
          or_false]
      · rw [edges, levelHop_edges, hops]
        simp only [List.mem_singleton, exists_eq_left, whole, not_false_eq_true, true_and]
      · rw [goes, ih, levelHop_edges, hops]
        simp only [List.exists_mem_cons_iff, whole, not_false_eq_true, true_and, or_assoc]

theorem levelLoop_truncated_iff (hopsLeft hop : Nat) (search : LevelSearch) :
    (levelLoop provider query pass hopsLeft hop search).truncationReason.isSome = true ↔
      search.truncationReason.isSome = true ∨
        ∃ begun ∈ levelHops provider query pass hopsLeft hop search,
          begun.CutOff (provider.expired pass.retry) query := by
  induction hopsLeft generalizing hop search with
  | zero => simp only [levelLoop, levelHops, List.not_mem_nil, false_and, exists_false, or_false]
  | succ hopsLeft ih =>
      rcases levelLoop_cases provider query pass hopsLeft hop search with
        ⟨cut, hops, -, reason⟩ | ⟨whole, ⟨hops, -, reason⟩ | ⟨hops, goes⟩⟩
      · simp only [hops, reason, List.mem_singleton, exists_eq_left, cut, or_true]
      · simp only [hops, reason, List.mem_singleton, exists_eq_left, whole, or_false]
      · rw [goes, ih, levelHop_reason, hops]
        simp only [List.exists_mem_cons_iff, whole, false_or]

theorem levelHop_keyed (keyed : search.Keyed) :
    (levelHop provider query pass hop search).Keyed := by
  simp only [levelHop, LevelSearch.absorb, foldl_collect_toSearch]
  have cleared : search.clearFrontiers.Keyed := keyed
  exact (cleared.foldl_collect .incoming _).foldl_collect .outgoing _

theorem levelLoop_keyed (keyed : search.Keyed) (hopsLeft hop : Nat) :
    (levelLoop provider query pass hopsLeft hop search).Keyed := by
  induction hopsLeft generalizing hop search with
  | zero => exact keyed
  | succ hopsLeft ih =>
      have next : (levelHop provider query pass hop search).Keyed := levelHop_keyed keyed
      rcases levelLoop_cases provider query pass hopsLeft hop search with
        ⟨-, -, edges, -⟩ | ⟨-, ⟨-, edges, -⟩ | ⟨-, goes⟩⟩
      · rwa [Search.Keyed, edges]
      · rwa [Search.Keyed, edges]
      · rw [goes]
        exact ih next (hop + 1)

variable {started : Started}

theorem found_iff {begun : Hop} (running : ¬ started.CutOff provider query begun) :
    Found provider query started.pass begun id ↔
      ∃ direction, begun.hop < query.depth direction ∧
        ∃ kept ∈ keptRows (Started.budget query begun)
            (started.returned provider query begun direction), toString kept.id = id := by
  have room : 0 < query.maxNodes - begun.search.nodesByUrn.keys.length := by
    have short : ¬ query.maxNodes ≤ begun.search.nodesByUrn.keys.length := fun full =>
      running (.inr full)
    omega
  refine exists_congr fun direction => ?_
  by_cases early : begun.hop < query.depth direction
  · by_cases idle : begun.search.frontier direction = []
    · have none : started.returned provider query begun direction = [] := by
        rw [Started.returned, Started.queries, idle]
        rfl
      simp [hopRecords, idle, none, keptRows, firstRows]
    · rw [hopRecords, if_pos ⟨early, idle⟩, Option.getD_some, and_iff_right early]
      exact mem_expandAggregatedSet_ids provider.config (provider.replies started.pass.retry begun.hop)
        _ direction started.pass.level (provider.lineageTypes query) started.pass.focusEntityType
        idle room id
  · simp [hopRecords, early]

/-- A pass that starts without edges has those of the rows that it keeps. -/
theorem levelSearch_edges (empty : started.search.edgesById = ∅) {row : Relationship} :
    toString row.id ∈ (levelSearch provider query started.pass started.search).edgesById ↔
      started.Keeps provider query row := by
  have none : toString row.id ∉ started.search.edgesById := by
    rw [empty]
    exact AList.notMem_empty _
  rw [levelSearch, levelLoop_edges, or_iff_right none]
  refine ⟨?_, ?_⟩
  · intro ⟨begun, member, running, found⟩
    obtain ⟨direction, early, kept, listed, same⟩ := (found_iff running).mp found
    exact ⟨begun, direction, ⟨member, running, early⟩, kept, listed, Decimal.repr_inj same⟩
  · intro ⟨begun, direction, ⟨member, running, early⟩, kept, listed, same⟩
    exact ⟨begun, member, running,
      (found_iff running).mpr ⟨direction, early, kept, listed, congrArg toString same⟩⟩

variable {prepared : Prepared}

theorem hydrateChain_failed {types : List String} {nodesByUrn : AList fun _ : Urn => GraphNode}
    {hydrated : (AList fun _ : Urn => GraphNode) × List Trace.GraphEdge × Bool}
    (ran : hydrateChain provider types nodesByUrn = .ok hydrated) :
    hydrated.2.2 = true ↔ AncestorsFail provider types nodesByUrn := by
  rw [hydrateChain] at ran
  by_cases idle : types = [] ∨ nodesByUrn.keys = []
  · rw [if_pos idle] at ran
    cases ran
    refine ⟨Bool.noConfusion, ?_⟩
    intro ⟨typed, nodes, _⟩
    exact absurd idle (not_or.mpr ⟨typed, nodes⟩)
  · rw [if_neg idle] at ran
    have ⟨typed, nodes⟩ := not_or.mp idle
    cases collected : provider.collectAncestorUrns nodesByUrn.keys types with
    | ok ancestors =>
        rw [collected] at ran
        obtain ⟨fetched, -, ran⟩ := bind_eq_ok_iff.mp ran
        obtain ⟨edges, -, ran⟩ := bind_eq_ok_iff.mp ran
        cases ran
        refine ⟨Bool.noConfusion, ?_⟩
        intro ⟨_, _, message, failed⟩
        cases collected.symm.trans failed
    | error message =>
        rw [collected] at ran
        obtain ⟨fetched, -, ran⟩ := bind_eq_ok_iff.mp ran
        obtain ⟨edges, -, ran⟩ := bind_eq_ok_iff.mp ran
        cases ran
        exact ⟨fun _ => ⟨typed, nodes, message, collected⟩, fun _ => rfl⟩

theorem degreeCapped_iff (anchor : Urn) :
    (if megaNodes provider anchor search = [] then none else some "degree_cap").isSome = true ↔
      ∃ urn ∈ search.perSourceCount,
        provider.config.degreeCap ≤ search.perSourceCount.count urn := by
  have empty : megaNodes provider anchor search = [] ↔ ¬ ∃ urn ∈ search.perSourceCount,
      provider.config.degreeCap ≤ search.perSourceCount.count urn := by
    rw [megaNodes, List.map_eq_nil_iff, List.filter_eq_nil_iff]
    simp only [List.mem_dedup, decide_eq_true_eq, not_exists, not_and]
  split
  · rename_i none
    exact iff_of_false Bool.noConfusion (empty.mp none)
  · rename_i some
    exact iff_of_true rfl (not_not.mp (mt empty.mpr some))

theorem Prepared.firstSearch_truncated_iff :
    (prepared.firstSearch provider query).truncationReason.isSome = true ↔
      ∃ begun ∈ (prepared.firstStarted query).hops provider query,
        (prepared.firstStarted query).CutOff provider query begun := by
  rw [Prepared.firstSearch, levelSearch, levelLoop_truncated_iff]
  exact or_iff_right Bool.noConfusion

theorem Prepared.lastSearch_truncated_iff :
    (prepared.lastSearch provider query).truncationReason.isSome = true ↔
      ∃ started, prepared.Runs provider query started ∧
        ∃ begun ∈ started.hops provider query, started.CutOff provider query begun := by
  rw [Prepared.lastSearch]
  split
  · rename_i retries
    simp only [levelSearch, levelLoop_truncated_iff, Prepared.retryStart,
      Prepared.firstSearch_truncated_iff]
    refine ⟨?_, ?_⟩
    · rintro (first | retry)
      · exact ⟨_, .inl rfl, first⟩
      · exact ⟨prepared.retryStarted provider query, .inr ⟨retries, rfl⟩, retry⟩
    · rintro ⟨started, rfl | ⟨-, rfl⟩, cut⟩
      · exact .inl cut
      · exact .inr cut
  · rename_i single
    rw [Prepared.firstSearch_truncated_iff]
    refine ⟨fun cut => ⟨_, .inl rfl, cut⟩, ?_⟩
    rintro ⟨started, rfl | ⟨retries, -⟩, cut⟩
    · exact cut
    · exact absurd retries single

theorem Prepared.lastSearch_edges :
    (prepared.lastSearch provider query).edgesById =
      (levelSearch provider query (prepared.lastStarted provider query).pass
        (prepared.lastStarted provider query).search).edgesById := by
  rw [Prepared.lastSearch, Prepared.lastStarted]
  split
  · rfl
  · rfl

theorem Prepared.lastStarted_empty :
    (prepared.lastStarted provider query).search.edgesById = ∅ := by
  rw [Prepared.lastStarted]
  split
  · rfl
  · rfl

theorem traceAtLevel_ran {result : LevelTraceResult}
    (ready : prepare provider query = .ok prepared)
    (ran : traceAtLevel provider query = .ok result) :
    (result.truncated = true ↔ prepared.Flagged provider query) ∧
      result.edges = (prepared.lastSearch provider query).edgesById.entries.map Sigma.snd := by
  obtain ⟨prepared', ready', ran⟩ := bind_eq_ok_iff.mp ran
  cases ready.symm.trans ready'
  obtain ⟨hydrated, hydrates, ran⟩ := bind_eq_ok_iff.mp ran
  have failed := hydrateChain_failed hydrates
  cases ran
  refine ⟨?_, rfl⟩
  simp only [Option.isSome_or, Bool.or_eq_true, Prepared.lastSearch_truncated_iff, or_assoc,
    degreeCapped_iff]
  refine or_congr_right (or_congr_left ?_)
  rw [← failed]
  split
  · rename_i fails
    exact iff_of_true rfl fails
  · rename_i fine
    exact iff_of_false Bool.noConfusion fine

theorem Started.mem_matching_of_returned (cut : RepliesCut provider graph) {begun : Hop}
    {direction : Direction} {row : Relationship}
    (member : row ∈ started.returned provider query begun direction) :
    row ∈ started.matching provider query graph begun direction := by
  obtain ⟨subQuery, asked, listed⟩ := List.mem_flatMap.mp member
  cases reply : provider.replies started.pass.retry begun.hop subQuery
      (Started.budget query begun) with
  | none =>
      rw [reply] at listed
      exact absurd listed List.not_mem_nil
  | some rows =>
      rw [reply] at listed
      exact List.mem_flatMap.mpr ⟨subQuery, asked, (cut _ _ _ _ _ reply).subset listed⟩

theorem Graph.rows_distinct (graph : Graph) (subQuery : SubQuery) :
    ((graph.rows subQuery).map Relationship.id).Nodup :=
  graph.distinct.sublist (List.filter_sublist.map _)

namespace Started.Fits

variable {begun : Hop} {direction : Direction} {row : Relationship}

theorem rows_le {subQuery : SubQuery} (fits : started.Fits provider query graph begun direction)
    (asked : subQuery ∈ started.queries provider query begun direction) :
    (graph.rows subQuery).length ≤ budget query begun := by
  have inside : (graph.rows subQuery).map Relationship.id ⊆
      ((started.matching provider query graph begun direction).map Relationship.id).dedup := by
    intro id found
    obtain ⟨other, matched, same⟩ := List.mem_map.mp found
    exact List.mem_dedup.mpr
      (List.mem_map.mpr ⟨other, List.mem_flatMap.mpr ⟨subQuery, asked, matched⟩, same⟩)
  have bound := ((graph.rows_distinct subQuery).subperm inside).length_le
  rw [List.length_map] at bound
  exact Nat.le_trans bound fits.few

/-- No query of an expansion that fits is cut. -/
theorem returned_of_matching (fits : started.Fits provider query graph begun direction)
    (cut : RepliesCut provider graph)
    (member : row ∈ started.matching provider query graph begun direction) :
    row ∈ started.returned provider query begun direction := by
  obtain ⟨subQuery, asked, listed⟩ := List.mem_flatMap.mp member
  refine List.mem_flatMap.mpr ⟨subQuery, asked, ?_⟩
  cases reply : provider.replies started.pass.retry begun.hop subQuery
      (Started.budget query begun) with
  | none =>
      rw [fits.answered subQuery asked reply] at listed
      exact absurd listed List.not_mem_nil
  | some rows => exact ((cut _ _ _ _ _ reply).mem_iff (fits.rows_le asked) row).mpr listed

theorem keeps (fits : started.Fits provider query graph begun direction)
    (cut : RepliesCut provider graph)
    (member : row ∈ started.matching provider query graph begun direction) :
    ∃ kept ∈ keptRows (budget query begun) (started.returned provider query begun direction),
      kept.id = row.id := by
  refine mem_keptRows (fits.returned_of_matching cut member) ?_ ?_
  · intro other listed
    exact fits.readable other (mem_matching_of_returned cut listed)
  · have inside : ((started.returned provider query begun direction).map
        Relationship.id).dedup ⊆ ((started.matching provider query graph begun direction).map
          Relationship.id).dedup := by
      intro id found
      obtain ⟨other, listed, same⟩ := List.mem_map.mp (List.mem_dedup.mp found)
      exact List.mem_dedup.mpr
        (List.mem_map.mpr ⟨other, mem_matching_of_returned cut listed, same⟩)
    exact Nat.le_trans ((List.nodup_dedup _).subperm inside).length_le fits.few

end Started.Fits

theorem Prepared.lastSearch_edge_iff {result : LevelTraceResult}
    (edges : result.edges = (prepared.lastSearch provider query).edgesById.entries.map Sigma.snd)
    (row : Relationship) :
    (∃ edge ∈ result.edges, edge.id = toString row.id) ↔
      (prepared.lastStarted provider query).Keeps provider query row := by
  have empty : (prepared.lastStarted provider query).search.Keyed := by
    rw [Search.Keyed, Prepared.lastStarted_empty]
    exact fun entry none => absurd none List.not_mem_nil
  have keyed : (prepared.lastSearch provider query).Keyed := by
    rw [Search.Keyed, Prepared.lastSearch_edges]
    exact levelLoop_keyed empty _ 0
  rw [exists_edge_iff keyed edges, Prepared.lastSearch_edges,
    levelSearch_edges Prepared.lastStarted_empty]

/-- Where a retry follows, the first pass has kept nothing. -/
theorem Prepared.NeedsRetry.not_keeps (retries : prepared.NeedsRetry provider query)
    (row : Relationship) : ¬ (prepared.firstStarted query).Keeps provider query row := by
  have start : (prepared.firstStarted query).search.edgesById = ∅ := rfl
  rw [← levelSearch_edges start]
  have none : (prepared.firstSearch provider query).edgesById.keys = [] := retries.1
  intro found
  have member : toString row.id ∈ (prepared.firstSearch provider query).edgesById.keys := found
  rw [none] at member
  exact List.not_mem_nil member

end Univiz.LevelTrace

import Univiz.Falkor.Hooks

namespace Univiz.Falkor

open Univiz.Data

/-! The bulk rebuild against the incremental path.

The bulk rebuild counts the edges of a pair, keeps their ids and finds out only
when it creates the edges that it does not find a node.  It therefore agrees with
the sets exactly where it finds all nodes and no pair is reached twice by one id.
-/

/-- The weight of a pair's edge, 0 without an edge. -/
def Store.weightAt (store : Store) (pair : Pair) : Nat :=
  ((store.edges pair).map AggregatedEdge.weight).getD 0

/-- Each pair has an edge exactly when its set is not empty, with the size of
the set as weight.  This is the state of the incremental path, and a hook called
later changes no weight by more than one. -/
structure Store.MatchesIncremental (graphName : String) (nodes : Urn → Prop)
    (store incremental : Store) : Prop where
  settled : store.Settled graphName nodes
  members : ∀ pair, Between nodes pair →
    store.members (membersKey graphName pair) = incremental.members (membersKey graphName pair)
  weights : ∀ pair, Between nodes pair → store.weightAt pair = incremental.weightAt pair
  written : ∀ (levels : Urn → Option Int) (digest : Option String) (chains : Chains nodes)
    (edge : WrittenEdge nodes) (pair : Pair), Between nodes pair →
      let after := (onLineageEdgeWritten graphName levels digest chains.ancestors store
        edge.sourceUrn edge.targetUrn edge.edgeId edge.edgeType).1
      after.weightAt pair ≤ store.weightAt pair + 1 ∧
        store.weightAt pair ≤ after.weightAt pair + 1
  deleted : ∀ (chains : Chains nodes) (edge : WrittenEdge nodes) (pair : Pair),
    Between nodes pair →
      let after := onLineageEdgeDeleted graphName chains.ancestors store edge.sourceUrn
        edge.targetUrn edge.edgeId
      after.weightAt pair ≤ store.weightAt pair + 1 ∧
        store.weightAt pair ≤ after.weightAt pair + 1

/-- The ends of all pairs are found by their labels, and no pair gets one id from two edges. -/
structure CountsOnce (config : RebuildConfig) (ancestors : Urn → List Urn)
    (rows : List LineageEdge) : Prop where
  found : ∀ edge ∈ rows, ∀ pair ∈ edge.pairs ancestors,
    config.findsNode pair.1 = true ∧ config.findsNode pair.2 = true
  distinct : rows.Pairwise fun first second =>
    first.edgeId = second.edgeId → ∀ pair ∈ first.pairs ancestors, pair ∉ second.pairs ancestors

variable {graphName : String} {nodes : Urn → Prop} {config : RebuildConfig}
  {ancestors : Urn → List Urn} {rows : List LineageEdge} {store : Store} {pair : Pair}

theorem map_edgeId_contributions
    (simple : ∀ edge ∈ rows, (edge.pairs ancestors).Nodup) :
    ((contributions ancestors rows).filter (·.pair = pair)).map Contribution.edgeId =
      (rows.filter (pair ∈ ·.pairs ancestors)).map LineageEdge.edgeId := by
  induction rows with
  | nil => rfl
  | cons edge rest ih =>
      have ⟨edgeSimple, restSimple⟩ := List.forall_mem_cons.mp simple
      have own : (((edge.pairs ancestors).map fun pair =>
            Contribution.mk pair edge.edgeId edge.edgeType).filter (·.pair = pair)).map
          Contribution.edgeId = if pair ∈ edge.pairs ancestors then [edge.edgeId] else [] := by
        rw [List.filter_map, List.map_map]
        have hits : (edge.pairs ancestors).filter
            ((fun contribution : Contribution => decide (contribution.pair = pair)) ∘ fun pair =>
              Contribution.mk pair edge.edgeId edge.edgeType) =
            List.replicate ((edge.pairs ancestors).count pair) pair := List.filter_eq pair
        rw [hits]
        split
        · rename_i member
          rw [List.count_eq_one_of_mem edgeSimple member]
          rfl
        · rename_i absent
          rw [List.count_eq_zero_of_not_mem absent]
          rfl
      have unfolded : contributions ancestors (edge :: rest) =
          ((edge.pairs ancestors).map fun pair =>
            Contribution.mk pair edge.edgeId edge.edgeType) ++ contributions ancestors rest := rfl
      rw [unfolded, List.filter_append, List.map_append, own, ih restSimple]
      by_cases member : pair ∈ edge.pairs ancestors
      · simp [member]
      · simp [member]

theorem forall_nodup_iff (simple : ∀ edge ∈ rows, (edge.pairs ancestors).Nodup) :
    (∀ pair, (((contributions ancestors rows).filter (·.pair = pair)).map
        Contribution.edgeId).Nodup) ↔
      rows.Pairwise fun first second => first.edgeId = second.edgeId →
        ∀ pair ∈ first.pairs ancestors, pair ∉ second.pairs ancestors := by
  have perPair : ∀ pair, (((contributions ancestors rows).filter (·.pair = pair)).map
      Contribution.edgeId).Nodup ↔ rows.Pairwise fun first second =>
        pair ∈ first.pairs ancestors → pair ∈ second.pairs ancestors →
          first.edgeId ≠ second.edgeId := by
    intro pair
    rw [map_edgeId_contributions simple, List.Nodup, List.pairwise_map, List.pairwise_filter]
    simp only [decide_eq_true_eq]
  simp only [perPair]
  constructor
  · intro apart
    apply List.pairwise_iff_forall_sublist.mpr
    intro first second sub same pair inFirst inSecond
    exact List.pairwise_iff_forall_sublist.mp (apart pair) sub inFirst inSecond same
  · intro apart pair
    exact apart.imp fun disjoint inFirst inSecond same => disjoint same pair inFirst inSecond

variable {query : PagedQuery cursorKey rows} {batchSize : Nat}

theorem exists_contributor_iff {contributed : List Contribution} {id : String} :
    (∃ entry, (contributed.foldl accumulate ∅).lookup pair = some entry ∧
      id ∈ entry.contributors) ↔ id ∈ idsAt pair contributed := by
  rw [lookup_accumulated, idsAt, List.mem_toFinset]
  by_cases none : contributed.filter (·.pair = pair) = []
  · simp [none]
  · simp [none]

theorem bulkRebuild_members (once : ProcessesExactlyOnce query batchSize)
    (unambiguous : Unambiguous graphName nodes)
    (inside : AllBetween nodes (contributions ancestors rows)) (between : Between nodes pair) :
    (bulkRebuild graphName config ancestors query batchSize store).members
        (membersKey graphName pair) = idsAt pair (contributions ancestors rows) := by
  simp only [ProcessesExactlyOnce] at once
  rw [scan_append] at once
  have perm := contributions_perm ancestors once
  have sameIds : ∀ pair, idsAt pair (contributions ancestors
      (query.pages batchSize none).flatten) = idsAt pair (contributions ancestors rows) := by
    intro pair
    ext id
    simp [perm.mem_iff]
  ext id
  simp only [bulkRebuild, scanPairs_eq, mem_rebuildIdempotency, purgeMembers_membersKey,
    Finset.notMem_empty, false_or]
  constructor
  · rintro ⟨other, entry, found, sameKey, kept⟩
    have member : id ∈ idsAt other (contributions ancestors rows) := by
      rw [← sameIds]
      exact exists_contributor_iff.mp ⟨entry, found, kept⟩
    obtain ⟨contribution, contributes, rfl, -⟩ := mem_idsAt.mp member
    exact unambiguous.eq (inside contribution contributes) between sameKey ▸ member
  · intro member
    rw [← sameIds] at member
    obtain ⟨entry, found, kept⟩ := exists_contributor_iff.mpr member
    exact ⟨pair, entry, found, rfl, kept⟩

theorem bulkRebuild_published (once : ProcessesExactlyOnce query batchSize) :
    ((bulkRebuild graphName config ancestors query batchSize store).edges pair).map
        AggregatedEdge.weight =
      let own := (contributions ancestors rows).filter (·.pair = pair)
      if own ≠ [] ∧ (config.findsNode pair.1 && config.findsNode pair.2) = true then
        some own.length
      else none := by
  simp only [ProcessesExactlyOnce] at once
  rw [scan_append] at once
  have own := (contributions_perm ancestors once).filter (·.pair = pair)
  simp only [bulkRebuild_edges, ne_eq, ← List.length_eq_zero_iff, own.length_eq]
  split <;> rfl

/-- A pair is settled exactly when nothing contributes to it, or its ends are found
and its contributions have different ids. -/
theorem bulkRebuild_settledAt_iff (once : ProcessesExactlyOnce query batchSize)
    (unambiguous : Unambiguous graphName nodes)
    (inside : AllBetween nodes (contributions ancestors rows)) (between : Between nodes pair) :
    ((bulkRebuild graphName config ancestors query batchSize store).tally graphName).SettledAt
        pair ↔
      let own := (contributions ancestors rows).filter (·.pair = pair)
      (own ≠ [] → config.findsNode pair.1 = true ∧ config.findsNode pair.2 = true) ∧
        (own.map Contribution.edgeId).Nodup := by
  simp only [Tally.settledAt_iff, Store.tally, bulkRebuild_members once unambiguous inside between,
    bulkRebuild_published once, idsAt, Tally.countOf, Bool.and_eq_true]
  generalize (contributions ancestors rows).filter (·.pair = pair) = own
  by_cases none : own = []
  · simp [none]
  · have nonempty : (own.map Contribution.edgeId).toFinset.card ≠ 0 := by
      simp [List.toFinset_eq_empty_iff, none]
    have length : (own.map Contribution.edgeId).toFinset.card = own.length ↔
        (own.map Contribution.edgeId).Nodup := by
      have sameLength : (own.map Contribution.edgeId).length = own.length := List.length_map _
      rw [← sameLength]
      exact Multiset.toFinset_card_eq_card_iff_nodup
    by_cases found : config.findsNode pair.1 = true ∧ config.findsNode pair.2 = true
    · simpa [-Finset.card_eq_zero, none, nonempty, found] using eq_comm.trans length
    · simp [-Finset.card_eq_zero, none, nonempty, found]

theorem filter_contributions_ne_nil :
    (contributions ancestors rows).filter (·.pair = pair) ≠ [] ↔
      ∃ edge ∈ rows, pair ∈ edge.pairs ancestors := by
  rw [ne_eq, List.filter_eq_nil_iff]
  simp only [decide_eq_true_eq, not_forall, not_not]
  constructor
  · intro present
    obtain ⟨contribution, contributes, same⟩ := present
    obtain ⟨edge, scanned, inPairs, -⟩ := mem_contributions.mp contributes
    exact ⟨edge, scanned, same ▸ inPairs⟩
  · intro present
    obtain ⟨edge, scanned, inPairs⟩ := present
    exact ⟨⟨pair, edge.edgeId, edge.edgeType⟩,
      mem_contributions.mpr ⟨edge, scanned, inPairs, rfl, rfl⟩, rfl⟩

theorem countsOnce_iff (simple : ∀ edge ∈ rows, (edge.pairs ancestors).Nodup) :
    CountsOnce config ancestors rows ↔ ∀ pair,
      let own := (contributions ancestors rows).filter (·.pair = pair)
      (own ≠ [] → config.findsNode pair.1 = true ∧ config.findsNode pair.2 = true) ∧
        (own.map Contribution.edgeId).Nodup := by
  simp only [filter_contributions_ne_nil]
  constructor
  · intro countsOnce pair
    constructor
    · intro ⟨edge, scanned, inPairs⟩
      exact countsOnce.found edge scanned pair inPairs
    · exact (forall_nodup_iff simple).mpr countsOnce.distinct pair
  · intro each
    constructor
    · intro edge scanned pair inPairs
      exact (each pair).1 ⟨edge, scanned, inPairs⟩
    · exact (forall_nodup_iff simple).mp fun pair => (each pair).2

theorem bulkRebuild_settled_iff (once : ProcessesExactlyOnce query batchSize)
    (unambiguous : Unambiguous graphName nodes)
    (inside : AllBetween nodes (contributions ancestors rows))
    (simple : ∀ edge ∈ rows, (edge.pairs ancestors).Nodup) :
    (bulkRebuild graphName config ancestors query batchSize store).Settled graphName nodes ↔
      CountsOnce config ancestors rows := by
  rw [countsOnce_iff simple]
  constructor
  · intro settled pair
    by_cases between : Between nodes pair
    · exact (bulkRebuild_settledAt_iff once unambiguous inside between).mp (settled pair between)
    · have none : (contributions ancestors rows).filter (·.pair = pair) = [] := by
        apply List.filter_eq_nil_iff.mpr
        intro contribution contributes same
        exact between (of_decide_eq_true same ▸ inside contribution contributes)
      simp [none]
  · intro each pair between
    exact (bulkRebuild_settledAt_iff once unambiguous inside between).mpr (each pair)

theorem weightAt_eq_card {contributors : Pair → Finset String}
    (represents : (store.tally graphName).Represents (Between nodes) contributors)
    (between : Between nodes pair) : store.weightAt pair = (contributors pair).card := by
  have published : (store.edges pair).map AggregatedEdge.weight =
      Tally.countOf (contributors pair) := (represents pair between).2
  rw [Store.weightAt, published, Tally.countOf]
  split
  · rename_i empty
    exact empty.symm
  · rfl

theorem weightAt_close {after : Store} {contributors : Pair → Finset String}
    {entry : Entry Pair String}
    (represents : (store.tally graphName).Represents (Between nodes) contributors)
    (booked : (after.tally graphName).Represents (Between nodes) (entry.apply contributors))
    (between : Between nodes pair) :
    after.weightAt pair ≤ store.weightAt pair + 1 ∧
      store.weightAt pair ≤ after.weightAt pair + 1 := by
  rw [weightAt_eq_card represents between, weightAt_eq_card booked between]
  exact Entry.card_apply

theorem Store.Settled.matchesIncremental {incremental : Store}
    (unambiguous : Unambiguous graphName nodes) (settled : store.Settled graphName nodes)
    (incrementalSettled : incremental.Settled graphName nodes)
    (members : ∀ pair, Between nodes pair → store.members (membersKey graphName pair) =
      incremental.members (membersKey graphName pair)) :
    store.MatchesIncremental graphName nodes incremental where
  settled := settled
  members := members
  weights pair between := by
    rw [weightAt_eq_card settled.represents between,
      weightAt_eq_card incrementalSettled.represents between]
    exact congrArg Finset.card (members pair between)
  written _ _ chains edge pair between :=
    weightAt_close settled.represents (onLineageEdgeWritten_represents unambiguous
      (pairsOf_between chains.closed edge.source_node edge.target_node) settled.represents) between
  deleted chains edge pair between :=
    weightAt_close settled.represents (onLineageEdgeDeleted_represents unambiguous
      (pairsOf_between chains.closed edge.source_node edge.target_node) settled.represents) between

/-- Over an acyclic containment and a scan that sees each edge once, the bulk
rebuild leaves the state of the incremental path exactly when it counts once. -/
theorem bulkRebuild_matchesIncremental_iff {containment : ContainmentConfig}
    {graph : List ContainmentEdge} (levels : Urn → Option Int)
    (unambiguous : Unambiguous graphName nodes) (acyclic : containment.Acyclic graph)
    (parents : ∀ edge ∈ graph, nodes edge.parentUrn)
    (isChain : ∀ urn, containment.IsChain graph urn (ancestors urn))
    (within : ∀ edge ∈ rows, nodes edge.sourceUrn ∧ nodes edge.targetUrn)
    (once : ProcessesExactlyOnce query batchSize) :
    (bulkRebuild graphName config ancestors query batchSize store).MatchesIncremental graphName
        nodes (materializeIncremental graphName levels ancestors query batchSize none
          .empty).store ↔
      CountsOnce config ancestors rows := by
  have closed : ∀ urn, nodes urn → ∀ ancestor ∈ ancestors urn, nodes ancestor := by
    intro urn _ ancestor member
    obtain ⟨edge, inGraph, rfl⟩ := (isChain urn).exists_edge member
    exact parents edge inGraph
  have inside : AllBetween nodes (contributions ancestors rows) :=
    contributions_between ⟨ancestors, closed⟩ within
  have simple : ∀ edge ∈ rows, (edge.pairs ancestors).Nodup := fun edge _ =>
    pairsBetween_nodup ((isChain edge.sourceUrn).nodup acyclic)
      ((isChain edge.targetUrn).nodup acyclic)
  have incremental : ((materializeIncremental graphName levels ancestors query batchSize none
      .empty).store.tally graphName).Represents (Between nodes) fun pair =>
        idsAt pair (contributions ancestors rows) := by
    rw [materializeIncremental_store]
    simp only [ProcessesExactlyOnce] at once
    rw [scan_append] at once
    exact materializePages_represents_rows once unambiguous inside
  rw [← bulkRebuild_settled_iff once unambiguous inside simple]
  constructor
  · exact fun same => same.settled
  · intro settled
    apply settled.matchesIncremental unambiguous
    · exact fun pair between => incremental.settled between
    · intro pair between
      rw [bulkRebuild_members once unambiguous inside between]
      exact (incremental pair between).1.symm

open ContainmentConfig (containsConfig nestedGraph)
open Materializer (singleEdge)

theorem nestedGraph_acyclic : containsConfig.Acyclic nestedGraph := by
  have only : ∀ parent child, containsConfig.Contains nestedGraph parent child →
      parent = "p" ∧ child = "a" := by
    intro parent child contains
    obtain ⟨edge, parentEdge, rfl⟩ := contains
    obtain ⟨inGraph, rfl, -⟩ := ContainmentConfig.mem_parentEdges.mp parentEdge
    rw [List.mem_singleton.mp inGraph]
    exact ⟨rfl, rfl⟩
  intro urn cycle
  obtain ⟨child, first, -⟩ := Relation.TransGen.head'_iff.mp cycle
  obtain ⟨parent, -, last⟩ := Relation.TransGen.tail'_iff.mp cycle
  have atTop := (only urn child first).1
  rw [atTop] at last
  exact absurd (only parent "p" last).2 (by decide)

/-- Every URN has the label `Dataset`. -/
def allDatasets : RebuildConfig := ⟨fun _ => some "Dataset", fun _ => none, none, .inSource⟩

/-- One edge with `a` inside `p`. -/
theorem bulkRebuild_matchesIncremental_single :
    (bulkRebuild "g" allDatasets (containsConfig.chosenChain nestedGraph 0) singleEdge.query 10
        .empty).MatchesIncremental "g" plainUrn
      (materializeIncremental "g" (fun _ => none) (containsConfig.chosenChain nestedGraph 0)
        singleEdge.query 10 none .empty).store := by
  have once : ProcessesExactlyOnce singleEdge.query 10 :=
    processesExactlyOnce_of_length_le singleEdge.query (by decide) (by decide)
  have within : ∀ edge ∈ singleEdge.rows, plainUrn edge.sourceUrn ∧ plainUrn edge.targetUrn := by
    simp only [plainUrn]
    decide
  apply (bulkRebuild_matchesIncremental_iff (fun _ => none) (plainUrn_unambiguous "g")
    nestedGraph_acyclic nestedGraph_plain (fun _ => ContainmentConfig.chosenChain_isChain 0) within
    once).mpr
  constructor
  · decide
  · exact List.pairwise_singleton _ _

/-- Two edges from `a` to `b` with the same id. -/
def repeatedId : List LineageEdge :=
  [⟨"a", "b", "FLOWS_TO", some "1"⟩, ⟨"a", "b", "DERIVES_FROM", some "1"⟩]

def unlabelled : RebuildConfig := ⟨fun _ => none, fun _ => none, none, .inSource⟩

def elsewhere : RebuildConfig := { allDatasets with projectionMode := .dedicated }

/-- A repeated id is counted twice and kept once; a pair without labels, or with a dedicated
projection, keeps its set and gets no edge. -/
theorem bulkRebuild_not_settled :
    ¬ ∃ input ∈ [(repeatedId, allDatasets), (singleEdge.rows, unlabelled),
        (singleEdge.rows, elsewhere)],
      ∀ (query : PagedQuery cursorKey input.1) (batchSize : Nat),
        ProcessesExactlyOnce query batchSize →
        (bulkRebuild "g" input.2 (containsConfig.chosenChain nestedGraph 0) query batchSize
          .empty).Settled "g" plainUrn := by
  have refuted : ∀ (rows : List LineageEdge) (config : RebuildConfig)
      (query : PagedQuery cursorKey rows), rows.length ≤ 10 →
      AllBetween plainUrn (contributions (containsConfig.chosenChain nestedGraph 0) rows) →
      ¬ (let own := (contributions (containsConfig.chosenChain nestedGraph 0) rows).filter
          (·.pair = ("a", "b"))
        (own ≠ [] → config.findsNode "a" = true ∧ config.findsNode "b" = true) ∧
          (own.map Contribution.edgeId).Nodup) →
      ¬ ∀ (query : PagedQuery cursorKey rows) (batchSize : Nat),
        ProcessesExactlyOnce query batchSize →
        (bulkRebuild "g" config (containsConfig.chosenChain nestedGraph 0) query batchSize
          .empty).Settled "g" plainUrn := by
    intro rows config query fits inside uncounted always
    have once := processesExactlyOnce_of_length_le query (show 0 < 10 by decide) fits
    have between : Between plainUrn ("a", "b") := ⟨edgeAB.source_node, edgeAB.target_node⟩
    exact uncounted ((bulkRebuild_settledAt_iff once (plainUrn_unambiguous "g") inside between).mp
      (always query 10 once ("a", "b") between))
  intro ⟨input, member, always⟩
  simp only [List.mem_cons, List.not_mem_nil, or_false] at member
  rcases member with rfl | rfl | rfl
  · exact refuted repeatedId allDatasets (.ofSorted _ (by decide)) (by decide)
      (by unfold AllBetween Between plainUrn; decide) (by decide) always
  · exact refuted singleEdge.rows unlabelled singleEdge.query (by decide)
      (by unfold AllBetween Between plainUrn; decide) (by decide) always
  · exact refuted singleEdge.rows elsewhere singleEdge.query (by decide)
      (by unfold AllBetween Between plainUrn; decide) (by decide) always

end Univiz.Falkor

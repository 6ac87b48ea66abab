import Mathlib.Data.String.Basic
import Univiz.Data.Paging
import Univiz.Falkor.Rebuild

namespace Univiz.Falkor

open Univiz.Data

/-! The scan loops of `materialize_aggregated_edges_batch`.

Both paths page through the lineage edges with the same query and differ in what
they do with a page.  A page is cut at `batch_size` rows and the next one starts
strictly after its last composite key, so parallel edges can be separated by the
cut, and then the rest of them is passed over.
-/

def cursorKey (edge : LineageEdge) : String :=
  edge.sourceUrn ++ "|" ++ edge.targetUrn

inductive TypeFilter where
  | lineageEdges (types : List String)
  | excludeTypes (types : List String)
deriving DecidableEq, Repr

/-- The WHERE clause, or `none` when only AGGREGATED was asked for. -/
def typeFilter (containment lineage : List String) : Option TypeFilter :=
  if lineage.isEmpty then some (.excludeTypes (containment ++ ["AGGREGATED"]))
  else
    let effective := lineage.filter (· ≠ "AGGREGATED")
    if effective.isEmpty then none else some (.lineageEdges effective)

def TypeFilter.passes : TypeFilter → LineageEdge → Bool
  | .lineageEdges types, edge => edge.edgeType ∈ types
  | .excludeTypes types, edge => edge.edgeType ∉ types

/-- The edges of the graph that the scan is about. -/
def TypeFilter.select (filter : TypeFilter) (graph : List LineageEdge) : List LineageEdge :=
  graph.filter filter.passes

/-- What the loop carries from page to page. -/
structure Progress where
  store : Store
  processed : Nat
  createdCount : Nat

def materializePage (graphName : String) (levels : Urn → Option Int) (ancestors : Urn → List Urn)
    (progress : Progress) (rows : List LineageEdge) : Progress :=
  let (store, created) := materializeEdgesBatched graphName levels ancestors progress.store rows
  { store := store
    processed := progress.processed + rows.length
    createdCount := progress.createdCount + created }

variable {rows : List LineageEdge}

/-- The loop with the bulk rebuild switched off.  An empty `last_cursor` starts
from the beginning. -/
def materializeIncremental (graphName : String) (levels : Urn → Option Int)
    (ancestors : Urn → List Urn) (query : PagedQuery cursorKey rows) (batchSize : Nat)
    (lastCursor : Option String) (store : Store) : Progress :=
  query.scan batchSize (materializePage graphName levels ancestors) ⟨store, 0, 0⟩
    (lastCursor.filter (· ≠ ""))

structure Accumulated where
  pairData : PairData
  processed : Nat

def accumulatePage (ancestors : Urn → List Urn) (accumulated : Accumulated)
    (rows : List LineageEdge) : Accumulated where
  pairData := accumulateRows ancestors accumulated.pairData rows
  processed := accumulated.processed + rows.length

/-- Phase B; it ignores `last_cursor`. -/
def scanPairs (ancestors : Urn → List Urn) (query : PagedQuery cursorKey rows) (batchSize : Nat) :
    Accumulated :=
  query.scan batchSize (accumulatePage ancestors) ⟨∅, 0⟩ none

/-- Phase A wipes both stores, the later phases fill them from the pairs.  Without
any pairs the later phases are skipped, which leaves the same store. -/
def bulkRebuild (graphName : String) (config : RebuildConfig) (ancestors : Urn → List Urn)
    (query : PagedQuery cursorKey rows) (batchSize : Nat) (store : Store) : Store :=
  let pairData := (scanPairs ancestors query batchSize).pairData
  { edges := config.bulkCreate (fun _ => none) pairData
    members := rebuildIdempotency graphName (purgeMembers graphName store.members) pairData }

variable {graphName : String} {nodes : Urn → Prop} {levels : Urn → Option Int}
  {ancestors : Urn → List Urn} {pair : Pair}

theorem contributions_append (first second : List LineageEdge) :
    contributions ancestors (first ++ second) =
      contributions ancestors first ++ contributions ancestors second :=
  List.flatMap_append

variable (ancestors) in
theorem contributions_perm {first second : List LineageEdge} (perm : first.Perm second) :
    (contributions ancestors first).Perm (contributions ancestors second) :=
  perm.flatMap_right _

theorem foldl_accumulatePage (pages : List (List LineageEdge)) (accumulated : Accumulated) :
    (pages.foldl (accumulatePage ancestors) accumulated).pairData =
      (contributions ancestors pages.flatten).foldl accumulate accumulated.pairData := by
  induction pages generalizing accumulated with
  | nil => rfl
  | cons page rest ih =>
      rw [List.foldl_cons, ih, List.flatten_cons, contributions_append, List.foldl_append]
      rfl

/-- The pairs that phase B collects are those of the pages it fetched. -/
theorem scanPairs_eq (query : PagedQuery cursorKey rows) (batchSize : Nat) :
    (scanPairs ancestors query batchSize).pairData =
      (contributions ancestors (query.pages batchSize none).flatten).foldl accumulate ∅ := by
  rw [scanPairs, query.scan_eq_foldl, foldl_accumulatePage]

/-- The batches of the incremental loop, seen on the store alone. -/
def materializePages (graphName : String) (levels : Urn → Option Int) (ancestors : Urn → List Urn)
    (store : Store) (pages : List (List LineageEdge)) : Store :=
  pages.foldl (fun store rows => (materializeEdgesBatched graphName levels ancestors store rows).1)
    store

theorem materializeIncremental_store (query : PagedQuery cursorKey rows) (batchSize : Nat)
    (lastCursor : Option String) (store : Store) :
    (materializeIncremental graphName levels ancestors query batchSize lastCursor store).store =
      materializePages graphName levels ancestors store
        (query.pages batchSize (lastCursor.filter (· ≠ ""))) := by
  rw [materializeIncremental, query.scan_eq_foldl]
  generalize query.pages batchSize (lastCursor.filter (· ≠ "")) = pages
  simp only [materializePages]
  suffices folded : ∀ progress : Progress,
      (pages.foldl (materializePage graphName levels ancestors) progress).store =
        pages.foldl
          (fun store rows => (materializeEdgesBatched graphName levels ancestors store rows).1)
          progress.store from folded ⟨store, 0, 0⟩
  induction pages with
  | nil => exact fun _ => rfl
  | cons page rest ih => exact fun progress => ih _

variable (levels) in
theorem materializePages_represents {store : Store} {contributors : Pair → Finset String}
    {pages : List (List LineageEdge)} (unambiguous : Unambiguous graphName nodes)
    (inside : AllBetween nodes (contributions ancestors pages.flatten))
    (represents : (store.tally graphName).Represents (Between nodes) contributors) :
    ((materializePages graphName levels ancestors store pages).tally graphName).Represents
      (Between nodes) fun pair =>
        contributors pair ∪ idsAt pair (contributions ancestors pages.flatten) := by
  induction pages generalizing store contributors with
  | nil => simpa [materializePages, contributions, idsAt] using represents
  | cons page rest ih =>
      rw [List.flatten_cons, contributions_append] at inside ⊢
      obtain ⟨pageInside, restInside⟩ := List.forall_mem_append.mp inside
      have next := materializeEdgesBatched_represents levels unambiguous pageInside represents
      have whole := ih restInside next
      simp only [Finset.union_assoc, ← idsAt_append] at whole
      exact whole

/-- Edges that count as the same member have the same type. -/
def IdsDetermineTypes (contributed : List Contribution) : Prop :=
  ∀ first ∈ contributed, ∀ second ∈ contributed, first.edgeId = second.edgeId →
    first.edgeType = second.edgeType

def Store.typesAt (store : Store) (pair : Pair) : List String :=
  ((store.edges pair).map AggregatedEdge.sourceEdgeTypes).getD []

/-- The edge of a pair carries exactly the types of the edges counted into it. -/
def TypesRecorded (nodes : Urn → Prop) (store : Store) (contributed : List Contribution) : Prop :=
  ∀ pair, Between nodes pair → ∀ edgeType, edgeType ∈ store.typesAt pair ↔
    ∃ contribution ∈ contributed, contribution.pair = pair ∧ contribution.edgeType = edgeType

theorem materializeEdgesBatched_typesAt {store : Store} {rows : List LineageEdge} :
    let contributed := contributions ancestors rows
    let after := (materializeEdgesBatched graphName levels ancestors store rows).1
    (unambiguous : Unambiguous graphName nodes) → (inside : AllBetween nodes contributed) →
    (between : Between nodes pair) → ∀ edgeType, edgeType ∈ after.typesAt pair ↔
      edgeType ∈ store.typesAt pair ∨
        ¬ idsAt pair contributed ⊆ store.members (membersKey graphName pair) ∧
          ∃ contribution ∈ contributed, contribution.pair = pair ∧
            contribution.edgeType = edgeType := by
  intro contributed after unambiguous inside between edgeType
  have sound : (batchWrite graphName levels ancestors store rows).Sound graphName nodes
      store.members := batchWrite_sound unambiguous inside
  have merged := sound.merged pair between
  by_cases known : idsAt pair contributed ⊆ store.members (membersKey graphName pair)
  · have unchanged : after.edges pair = store.edges pair :=
      mergeAll_of_notMem fun item member same => merged.mp ⟨item, member, same⟩ known
    simp only [Store.typesAt, unchanged, known, not_true_eq_false, false_and, or_false]
  · obtain ⟨item, member, rfl⟩ := merged.mpr known
    have changed : after.edges item.pair = some (batchSet (store.edges item.pair) item) :=
      mergeAll_of_mem sound.distinct member
    have types : item.edgeTypes =
        ((contributed.filter (·.pair = item.pair)).map Contribution.edgeType).dedup := by
      obtain ⟨pair, -, rfl⟩ := List.mem_map.mp member
      rfl
    simp only [Store.typesAt, changed, batchSet, AggregatedEdge.typesOf, Option.map_some,
      Option.getD_some, mem_addTypes, types, known, not_false_eq_true, true_and, List.mem_dedup,
      List.mem_map, List.mem_filter, decide_eq_true_eq, and_assoc]

variable (levels) in
theorem materializePages_typesRecorded {store : Store} {done : List Contribution}
    {pages : List (List LineageEdge)} (unambiguous : Unambiguous graphName nodes)
    (inside : AllBetween nodes (contributions ancestors pages.flatten))
    (represents : (store.tally graphName).Represents (Between nodes) fun pair => idsAt pair done)
    (recorded : TypesRecorded nodes store done)
    (determined : IdsDetermineTypes (done ++ contributions ancestors pages.flatten)) :
    TypesRecorded nodes (materializePages graphName levels ancestors store pages)
      (done ++ contributions ancestors pages.flatten) := by
  induction pages generalizing store done with
  | nil => simpa [materializePages, contributions] using recorded
  | cons page rest ih =>
      rw [List.flatten_cons, contributions_append, ← List.append_assoc] at determined ⊢
      rw [List.flatten_cons, contributions_append] at inside
      obtain ⟨pageInside, restInside⟩ := List.forall_mem_append.mp inside
      have next := materializeEdgesBatched_represents levels unambiguous pageInside represents
      simp only [← idsAt_append] at next
      refine ih restInside next (fun pair between edgeType => ?_) determined
      rw [materializeEdgesBatched_typesAt unambiguous pageInside between, recorded pair between]
      have members : store.members (membersKey graphName pair) = idsAt pair done :=
        (represents pair between).1
      simp only [members, List.mem_append]
      constructor
      · intro either
        rcases either with ⟨contribution, old, rest⟩ | ⟨-, contribution, new, rest⟩
        · exact ⟨contribution, .inl old, rest⟩
        · exact ⟨contribution, .inr new, rest⟩
      · rintro ⟨contribution, old | new, same, type⟩
        · exact .inl ⟨contribution, old, same, type⟩
        by_cases known : idsAt pair (contributions ancestors page) ⊆ idsAt pair done
        · have counted := known (mem_idsAt.mpr ⟨contribution, new, same, rfl⟩)
          obtain ⟨earlier, old, earlierSame, id⟩ := mem_idsAt.mp counted
          have sameType := determined earlier (by simp [old]) contribution (by simp [new]) id
          exact .inl ⟨earlier, old, earlierSame, sameType.trans type⟩
        · exact .inr ⟨known, contribution, new, same, type⟩

/-- Weight and edge types of a pair's edge, if it has one. -/
def Store.summary (store : Store) (pair : Pair) : Option (Nat × Finset String) :=
  (store.edges pair).map fun edge => (edge.weight, edge.sourceEdgeTypes.toFinset)

theorem summary_eq {first second : Store}
    (weights : (first.edges pair).map AggregatedEdge.weight =
      (second.edges pair).map AggregatedEdge.weight)
    (types : ∀ edgeType, edgeType ∈ first.typesAt pair ↔ edgeType ∈ second.typesAt pair) :
    first.summary pair = second.summary pair := by
  simp only [Store.summary]
  simp only [Store.typesAt] at types
  cases one : first.edges pair with
  | none =>
      rw [one] at weights
      rw [Option.map_eq_none_iff.mp weights.symm]
  | some edge =>
      rw [one, Option.map_some] at weights
      obtain ⟨other, two, weight⟩ := Option.map_eq_some_iff.mp weights.symm
      rw [one, two] at types
      simp only [two, Option.map_some, Option.some.injEq, Prod.mk.injEq]
      exact ⟨weight.symm, Finset.ext fun edgeType => by simpa using types edgeType⟩

/-- The loop hands every selected edge to its body exactly once. -/
def ProcessesExactlyOnce (query : PagedQuery cursorKey rows) (batchSize : Nat) : Prop :=
  (query.scan batchSize (fun processed page => processed ++ page) [] none).Perm rows

theorem scan_append (query : PagedQuery cursorKey rows) (batchSize : Nat) :
    query.scan batchSize (fun processed page => processed ++ page) [] none =
      (query.pages batchSize none).flatten := by
  have collected : ∀ (pages : List (List LineageEdge)) (processed : List LineageEdge),
      pages.foldl (fun processed page => processed ++ page) processed =
        processed ++ pages.flatten := by
    intro pages
    induction pages with
    | nil => simp
    | cons page rest ih => simp [ih]
  rw [query.scan_eq_foldl, collected, List.nil_append]

theorem processesExactlyOnce_iff_boundaries (query : PagedQuery cursorKey rows) {batchSize : Nat}
    (positive : 0 < batchSize) :
    ProcessesExactlyOnce query batchSize ↔
      BoundariesDistinct batchSize (sortedKeys cursorKey rows) := by
  rw [ProcessesExactlyOnce, scan_append, query.pages_perm_rows_iff positive]

theorem processesExactlyOnce_of_length_le (query : PagedQuery cursorKey rows) {batchSize : Nat}
    (positive : 0 < batchSize) (fits : rows.length ≤ batchSize) :
    ProcessesExactlyOnce query batchSize := by
  rw [processesExactlyOnce_iff_boundaries query positive]
  apply boundariesDistinct_of_length_le
  rw [sortedKeys, List.length_mergeSort, List.length_map]
  exact fits

/-- The edge that the bulk rebuild leaves for a pair. -/
theorem bulkRebuild_edges (config : RebuildConfig) (query : PagedQuery cursorKey rows)
    (batchSize : Nat) (store : Store) :
    (bulkRebuild graphName config ancestors query batchSize store).edges pair =
      let own := (contributions ancestors (query.pages batchSize none).flatten).filter
        (·.pair = pair)
      if own ≠ [] ∧ (config.findsNode pair.1 && config.findsNode pair.2) = true then
        some (config.createdEdge pair { PairMeta.fresh with
          weight := own.length
          edgeTypes := addTypes [] (own.map Contribution.edgeType)
          contributors := own.map Contribution.edgeId })
      else none := by
  simp only [bulkRebuild, bulkCreate_lookup, scanPairs_eq, lookup_accumulated]
  by_cases none : (contributions ancestors (query.pages batchSize none).flatten).filter
      (·.pair = pair) = []
  · simp only [none, if_true, ne_eq, not_true_eq_false, false_and, if_false]
  · simp only [none, if_false, ne_eq, not_false_eq_true, true_and]

theorem bulkRebuild_summary_eq (config : RebuildConfig) {query query' : PagedQuery cursorKey rows}
    {batchSize batchSize' : Nat} (store : Store) (once : ProcessesExactlyOnce query batchSize)
    (once' : ProcessesExactlyOnce query' batchSize') :
    (bulkRebuild graphName config ancestors query batchSize store).summary pair =
      (bulkRebuild graphName config ancestors query' batchSize' store).summary pair := by
  unfold ProcessesExactlyOnce at once once'
  rw [scan_append] at once once'
  have own := (contributions_perm ancestors (once.trans once'.symm)).filter
    (·.pair = pair)
  refine summary_eq ?_ (fun edgeType => ?_)
  · simp only [bulkRebuild_edges, own.length_eq, ne_eq, ← List.length_eq_zero_iff]
    split <;> rfl
  · simp only [Store.typesAt, bulkRebuild_edges, ne_eq, ← List.length_eq_zero_iff, own.length_eq]
    split
    · simp [RebuildConfig.createdEdge, mem_addTypes, List.mem_map, own.mem_iff]
    · rfl

theorem materializePages_represents_rows {pages : List (List LineageEdge)}
    (perm : pages.flatten.Perm rows) (unambiguous : Unambiguous graphName nodes)
    (inside : AllBetween nodes (contributions ancestors rows)) :
    ((materializePages graphName levels ancestors .empty pages).tally graphName).Represents
      (Between nodes) fun pair => idsAt pair (contributions ancestors rows) := by
  have perm := contributions_perm ancestors perm
  have pagesInside : AllBetween nodes (contributions ancestors pages.flatten) :=
    fun contribution member => inside contribution (perm.mem_iff.mp member)
  have start : (Store.empty.tally graphName).Represents (Between nodes) fun _ => ∅ :=
    fun pair between => ⟨rfl, rfl⟩
  have represents := materializePages_represents levels unambiguous pagesInside start
  have same : ∀ pair, ∅ ∪ idsAt pair (contributions ancestors pages.flatten) =
      idsAt pair (contributions ancestors rows) := by
    intro pair
    ext id
    simp [perm.mem_iff]
  simp only [same] at represents
  exact represents

theorem materializeIncremental_summary_eq {query query' : PagedQuery cursorKey rows}
    {batchSize batchSize' : Nat} (unambiguous : Unambiguous graphName nodes)
    (inside : AllBetween nodes (contributions ancestors rows))
    (determined : IdsDetermineTypes (contributions ancestors rows))
    (once : ProcessesExactlyOnce query batchSize)
    (once' : ProcessesExactlyOnce query' batchSize') (between : Between nodes pair) :
    (materializeIncremental graphName levels ancestors query batchSize none .empty).store.summary
        pair =
      (materializeIncremental graphName levels ancestors query' batchSize' none
        .empty).store.summary pair := by
  unfold ProcessesExactlyOnce at once once'
  rw [scan_append] at once once'
  have outcome : ∀ pages : List (List LineageEdge), pages.flatten.Perm rows →
      let store := materializePages graphName levels ancestors .empty pages
      (store.edges pair).map AggregatedEdge.weight =
          Tally.countOf (idsAt pair (contributions ancestors rows)) ∧
        ∀ edgeType, edgeType ∈ store.typesAt pair ↔ ∃ contribution ∈ contributions ancestors rows,
          contribution.pair = pair ∧ contribution.edgeType = edgeType := by
    intro pages perm
    have represents : ((materializePages graphName levels ancestors .empty pages).tally
        graphName).Represents (Between nodes) _ :=
      materializePages_represents_rows perm unambiguous inside
    have perm := contributions_perm ancestors perm
    have pagesInside : AllBetween nodes (contributions ancestors pages.flatten) :=
      fun contribution member => inside contribution (perm.mem_iff.mp member)
    have start : (Store.empty.tally graphName).Represents (Between nodes) fun pair =>
        idsAt pair [] := fun pair between => ⟨rfl, rfl⟩
    have recorded := materializePages_typesRecorded levels unambiguous pagesInside start
      (fun pair between edgeType => by simp [Store.typesAt, Store.empty])
      (fun first firstMember second secondMember => by
        rw [List.nil_append, perm.mem_iff] at firstMember secondMember
        exact determined first firstMember second secondMember)
    refine ⟨(represents pair between).2, fun edgeType => ?_⟩
    rw [recorded pair between]
    simp only [List.nil_append, perm.mem_iff]
  rw [materializeIncremental_store, materializeIncremental_store]
  obtain ⟨weights, types⟩ := outcome _ once
  obtain ⟨weights', types'⟩ := outcome _ once'
  exact summary_eq (weights.trans weights'.symm) fun edgeType =>
    (types edgeType).trans (types' edgeType).symm

/-- The scan processes every selected edge exactly once if and only if no page
is cut between edges with the same composite key.  Where two scans do, they
leave the same pairs, weights and edge types. -/
theorem materialize_processesExactlyOnce_iff {filter : TypeFilter} {graph : List LineageEdge}
    (query : PagedQuery cursorKey (filter.select graph)) {batchSize : Nat}
    (positive : 0 < batchSize) :
    (ProcessesExactlyOnce query batchSize ↔
      BoundariesDistinct batchSize (sortedKeys cursorKey (filter.select graph))) ∧
    ∀ (query' : PagedQuery cursorKey (filter.select graph)) (batchSize' : Nat),
      ProcessesExactlyOnce query batchSize → ProcessesExactlyOnce query' batchSize' →
      ∀ (graphName : String) (ancestors : Urn → List Urn) (pair : Pair),
        (∀ (config : RebuildConfig) (store : Store),
          (bulkRebuild graphName config ancestors query batchSize store).summary pair =
            (bulkRebuild graphName config ancestors query' batchSize' store).summary pair) ∧
        ∀ (nodes : Urn → Prop) (levels : Urn → Option Int),
          Unambiguous graphName nodes →
          AllBetween nodes (contributions ancestors (filter.select graph)) →
          IdsDetermineTypes (contributions ancestors (filter.select graph)) →
          Between nodes pair →
          (materializeIncremental graphName levels ancestors query batchSize none
              .empty).store.summary pair =
            (materializeIncremental graphName levels ancestors query' batchSize' none
              .empty).store.summary pair := by
  refine ⟨processesExactlyOnce_iff_boundaries query positive, ?_⟩
  intro query' batchSize' once once' graphName ancestors pair
  constructor
  · intro config store
    exact bulkRebuild_summary_eq config store once once'
  · intro nodes levels unambiguous inside determined between
    exact materializeIncremental_summary_eq unambiguous inside determined once once' between

def parallelEdges : List LineageEdge :=
  [⟨"a", "b", "FLOWS_TO", some "1"⟩, ⟨"a", "b", "FLOWS_TO", some "2"⟩]

def parallelQuery :
    PagedQuery cursorKey ((TypeFilter.excludeTypes ["CONTAINS"]).select parallelEdges) :=
  .ofSorted _ (by decide)

theorem parallelEdges_summary_eq :
    (ProcessesExactlyOnce parallelQuery 2 ↔ BoundariesDistinct 2
      (sortedKeys cursorKey ((TypeFilter.excludeTypes ["CONTAINS"]).select parallelEdges))) ∧
    (materializeIncremental "g" (fun _ => none) (fun _ => []) parallelQuery 2 none
        .empty).store.summary ("a", "b") =
      (materializeIncremental "g" (fun _ => none) (fun _ => []) parallelQuery 3 none
        .empty).store.summary ("a", "b") :=
  have settled := materialize_processesExactlyOnce_iff parallelQuery (show 0 < 2 by decide)
  have plain : Unambiguous "g" (fun urn => urn = "a" ∨ urn = "b") :=
    unambiguous_of_no_colon "g" fun urn node => by rcases node with rfl | rfl <;> decide
  ⟨settled.1, (settled.2 parallelQuery 3
    (processesExactlyOnce_of_length_le parallelQuery (by decide) (by decide))
    (processesExactlyOnce_of_length_le parallelQuery (by decide) (by decide)) "g" (fun _ => [])
    ("a", "b")).2 _ _ plain
    (by unfold AllBetween Between; decide) (by unfold IdsDetermineTypes; decide)
    ⟨.inl rfl, .inr rfl⟩⟩

/-- With pages of one row, the second of two parallel edges is never processed. -/
theorem parallelEdges_passed_over :
    ¬ ∀ (filter : TypeFilter) (graph : List LineageEdge)
      (query : PagedQuery cursorKey (filter.select graph)) (batchSize : Nat), 0 < batchSize →
        ProcessesExactlyOnce query batchSize := by
  intro always
  have once := always (.excludeTypes []) parallelEdges (.ofSorted _ (by decide)) 1 Nat.one_pos
  rw [processesExactlyOnce_iff_boundaries _ Nat.one_pos] at once
  have sorted : sortedKeys cursorKey ((TypeFilter.excludeTypes []).select parallelEdges) =
      ["a|b", "a|b"] := List.mergeSort_of_pairwise (by decide)
  rw [sorted] at once
  exact once 1 "a|b" Nat.one_pos rfl rfl

end Univiz.Falkor

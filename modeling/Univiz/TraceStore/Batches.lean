import Univiz.Data.Buckets
import Univiz.TraceStore.UnifiedTrace

namespace Univiz.TraceStore

open Univiz.Data

/-! What `expandAggregatedEdgesBatch` caches and what it returns.

The provider may lack either endpoint.  The per-edge calls are numbered by the places of
their pairs among the uncached ones. -/

variable {Content : Type}

structure ExpandProvider (Content : Type) where
  expandAggregatedBatch : Option (Except (Option String) (TraceV2Result Content))
  expandAggregated : Option (Nat → Option (TraceV2Result Content))

namespace ExpandProvider

variable (provider : ExpandProvider Content)

/-- How the per-edge calls are settled, where they can be made. -/
def settled (count : Nat) : List (Option (TraceV2Result Content)) :=
  match provider.expandAggregated with
  | none => []
  | some answer => (List.range count).map answer

/-- The answers that are merged. -/
def answers (count : Nat) : List (TraceV2Result Content) :=
  match provider.expandAggregatedBatch with
  | some (.ok answer) => [answer]
  | _ => (provider.settled count).filterMap id

def error : Option String :=
  match provider.expandAggregatedBatch with
  | some (.error message) => some (message.getD "Failed to expand aggregated edges (batch)")
  | _ => none

/-- The expansion of a pair has succeeded with this answer. -/
inductive Expanded (uncached : List ExpandPair) : ExpandPair → TraceV2Result Content → Prop where
  | batch {pair : ExpandPair} {answer : TraceV2Result Content} (requested : pair ∈ uncached)
      (answered : provider.expandAggregatedBatch = some (.ok answer)) :
      Expanded uncached pair answer
  | perEdge {place : Nat} {pair : ExpandPair} {answer : TraceV2Result Content}
      {call : Nat → Option (TraceV2Result Content)} (requested : uncached[place]? = some pair)
      (fallback : ∀ batch, provider.expandAggregatedBatch ≠ some (.ok batch))
      (offered : provider.expandAggregated = some call) (answered : call place = some answer) :
      Expanded uncached pair answer

end ExpandProvider

/-- The nodes and edges of a result are among those of others, by their identities. -/
structure Covered (result : TraceV2Result Content) (results : List (TraceV2Result Content)) :
    Prop where
  nodes : result.nodes.map GraphNode.urn ⊆
    (results.flatMap TraceV2Result.nodes).map GraphNode.urn
  edges : result.edges.map GraphEdge.id ⊆ (results.flatMap TraceV2Result.edges).map GraphEdge.id
  containmentEdges : result.containmentEdges.map GraphEdge.id ⊆
    (results.flatMap TraceV2Result.containmentEdges).map GraphEdge.id

namespace UnifiedTrace

def requestedPairs (pairs : List (String × String × Int)) : List ExpandPair :=
  pairs.map fun (sourceUrn, targetUrn, currentLevel) => ⟨sourceUrn, targetUrn, currentLevel + 1⟩

variable (trace : UnifiedTrace Content) (pairs : List (String × String × Int))
  (provider : ExpandProvider Content)

def uncached : List ExpandPair := (requestedPairs pairs).filter fun pair => !trace.cached pair

/-- The drill-downs of the requested pairs, each key once. -/
def cachedResults : List (TraceV2Result Content) :=
  (((requestedPairs pairs).map ExpandPair.drilldownKey).foldl addUrn []).filterMap fun key =>
    (trace.store.drilldowns.get key).map Drilldown.result

/-- A call with all its answers: the store it leaves behind, and what it returns. -/
def expandBatch : UnifiedTrace Content × Option (TraceV2Result Content) :=
  if nonempty : trace.uncached pairs ≠ [] then
    let merged := mergeDrilldownResults (provider.answers (trace.uncached pairs).length)
    let expand : Expand := ⟨trace.traces, trace.uncached pairs, nonempty, .ended⟩
    ((trace.request (trace.uncached pairs) nonempty .ended).settle trace.expands.length expand
      merged (if merged.isSome then none else provider.error), merged)
  else (trace, mergeDrilldownResults (trace.cachedResults pairs))

/-- The events of such a call. -/
def batchEvents : List (TraceEvent Content) :=
  let call := trace.expands.length
  let settled := provider.settled (trace.uncached pairs).length
  .expandAggregatedEdgesBatch pairs provider.expandAggregatedBatch.isSome ::
    if trace.uncached pairs = [] then []
    else match provider.expandAggregatedBatch with
      | some (.ok answer) => [.batchExpanded call answer]
      | some (.error message) => [.batchFailed call message, .perEdgeSettled call settled]
      | none => [.perEdgeSettled call settled]

/-- Drill-downs are added for pairs that have been expanded, and what is returned has the
nodes and edges of every pair that was cached or has been expanded. -/
structure ExpandsBatch : Prop where
  kept : ∀ key drilldown, trace.store.drilldowns.get key = some drilldown →
    (trace.expandBatch pairs provider).1.store.drilldowns.get key = some drilldown
  added : ∀ key, trace.store.drilldowns.get key = none →
    (trace.expandBatch pairs provider).1.store.drilldowns.get key ≠ none →
      (∃ pair ∈ requestedPairs pairs, pair.drilldownKey = key) ∧
        ∀ pair ∈ requestedPairs pairs, pair.drilldownKey = key →
          ∃ answer, provider.Expanded (trace.uncached pairs) pair answer
  returned : ∀ pair ∈ requestedPairs pairs, ∀ result,
    (result ∈ (trace.store.drilldowns.get pair.drilldownKey).map Drilldown.result ∨
      provider.Expanded (trace.uncached pairs) pair result) →
        Covered result (trace.expandBatch pairs provider).2.toList

/-- A batch in which nothing is uncached; or it succeeds for all uncached pairs or for none,
and its answers have what the cached pairs have. -/
def Unmixed : Prop :=
  trace.uncached pairs = [] ∨
    ((∀ pair answer, provider.Expanded (trace.uncached pairs) pair answer →
      ∀ other ∈ trace.uncached pairs,
        ∃ answer, provider.Expanded (trace.uncached pairs) other answer) ∧
    ∀ pair ∈ requestedPairs pairs, ∀ drilldown ∈ trace.store.drilldowns.get pair.drilldownKey,
      Covered drilldown.result (provider.answers (trace.uncached pairs).length))

variable {trace : UnifiedTrace Content} {pairs : List (String × String × Int)}
  {provider : ExpandProvider Content}

theorem perEdgeSettled_eq {call : Nat} {expand : Expand} {batchError : Option String}
    {settled : List (Option (TraceV2Result Content))} :
    trace.perEdgeSettled call expand batchError settled =
      trace.settle call expand (mergeDrilldownResults (settled.filterMap id))
        (if (mergeDrilldownResults (settled.filterMap id)).isSome then none else batchError) := by
  unfold perEdgeSettled
  split
  · rename_i merged
    rw [merged]
    rfl
  · rename_i nothing
    rw [nothing]
    rfl

theorem expandAggregatedEdgesBatch_eq {supported : Bool} :
    trace.expandAggregatedEdgesBatch pairs supported =
      if nonempty : trace.uncached pairs ≠ [] then
        trace.request (trace.uncached pairs) nonempty (if supported then .batch else .perEdge none)
      else trace := rfl

/-- A call is these events, with nothing in between. -/
theorem run_batchEvents : run step trace (trace.batchEvents pairs provider) =
    some (trace.expandBatch pairs provider).1 := by
  unfold batchEvents expandBatch
  rw [run, step, expandAggregatedEdgesBatch_eq, Option.bind_some]
  by_cases empty : trace.uncached pairs = []
  · rw [dif_neg (not_not.mpr empty), if_pos empty, dif_neg (not_not.mpr empty), run]
  · rw [dif_pos empty, if_neg empty, dif_pos empty]
    cases offered : provider.expandAggregatedBatch with
    | none =>
        simp [run, step, request, settle, perEdgeSettled_eq, ExpandProvider.answers,
          ExpandProvider.error, offered]
    | some outcome =>
        cases outcome with
        | ok answer =>
            simp [run, step, request, settle, mergeDrilldownResults, ExpandProvider.answers,
              offered]
        | error message =>
            simp [run, step, request, settle, perEdgeSettled_eq, ExpandProvider.answers,
              ExpandProvider.error, offered]

theorem mem_map_index {α : Type} {key : α → String} {values : List α} {name : String} :
    name ∈ (index key values).map key ↔ name ∈ values.map key := by
  have keyed {other : String} {value : α} : (other, value) ∈ (values.foldl (fun map value =>
      map.set (key value) value) OrderedMap.empty).entries ↔
        values.reverse.find? (fun value => key value = other) = some value := by
    rw [← OrderedMap.get_eq_some, get_foldl_last, OrderedMap.get_empty, Option.or_none]
  refine ⟨?_, ?_⟩
  · intro member
    obtain ⟨value, indexed, rfl⟩ := List.mem_map.mp member
    obtain ⟨⟨other, value⟩, entry, rfl⟩ := List.mem_map.mp indexed
    have last := List.mem_of_find?_eq_some (keyed.mp entry)
    exact List.mem_map_of_mem (List.mem_reverse.mp last)
  · intro member
    obtain ⟨value, given, rfl⟩ := List.mem_map.mp member
    have found : (values.reverse.find? fun other => key other = key value).isSome = true := by
      rw [List.find?_isSome]
      exact ⟨value, List.mem_reverse.mpr given, decide_eq_true rfl⟩
    obtain ⟨last, isLast⟩ := Option.isSome_iff_exists.mp found
    have same : key last = key value := by simpa using List.find?_some isLast
    refine List.mem_map.mpr ⟨last, ?_, same⟩
    exact List.mem_map.mpr ⟨(key value, last), keyed.mpr isLast, rfl⟩

theorem covered_congr {result : TraceV2Result Content}
    {results results' : List (TraceV2Result Content)}
    (nodes : ∀ urn, urn ∈ (results.flatMap TraceV2Result.nodes).map GraphNode.urn ↔
      urn ∈ (results'.flatMap TraceV2Result.nodes).map GraphNode.urn)
    (edges : ∀ id, id ∈ (results.flatMap TraceV2Result.edges).map GraphEdge.id ↔
      id ∈ (results'.flatMap TraceV2Result.edges).map GraphEdge.id)
    (containment : ∀ id,
      id ∈ (results.flatMap TraceV2Result.containmentEdges).map GraphEdge.id ↔
        id ∈ (results'.flatMap TraceV2Result.containmentEdges).map GraphEdge.id) :
    Covered result results ↔ Covered result results' where
  mp covered := {
    nodes := fun urn member => (nodes urn).mp (covered.nodes member)
    edges := fun id member => (edges id).mp (covered.edges member)
    containmentEdges := fun id member => (containment id).mp (covered.containmentEdges member) }
  mpr covered := {
    nodes := fun urn member => (nodes urn).mpr (covered.nodes member)
    edges := fun id member => (edges id).mpr (covered.edges member)
    containmentEdges := fun id member => (containment id).mpr (covered.containmentEdges member) }

/-- Merging loses no node and no edge. -/
theorem covered_merge {result : TraceV2Result Content} {results : List (TraceV2Result Content)} :
    Covered result (mergeDrilldownResults results).toList ↔ Covered result results := by
  unfold mergeDrilldownResults
  split
  · rfl
  · rfl
  · apply covered_congr
    · intro urn
      rw [Option.toList_some, List.flatMap_singleton, mem_map_index]
    · intro id
      rw [Option.toList_some, List.flatMap_singleton, mem_map_index]
    · intro id
      rw [Option.toList_some, List.flatMap_singleton, mem_map_index]

theorem covered_of_mem {result : TraceV2Result Content} {results : List (TraceV2Result Content)}
    (member : result ∈ results) : Covered result results where
  nodes := List.map_subset _ fun _ inside => List.mem_flatMap.mpr ⟨result, member, inside⟩
  edges := List.map_subset _ fun _ inside => List.mem_flatMap.mpr ⟨result, member, inside⟩
  containmentEdges :=
    List.map_subset _ fun _ inside => List.mem_flatMap.mpr ⟨result, member, inside⟩

theorem mem_settled {count : Nat} {answer : TraceV2Result Content} :
    answer ∈ (provider.settled count).filterMap id ↔ ∃ place < count, ∃ call,
      provider.expandAggregated = some call ∧ call place = some answer := by
  unfold ExpandProvider.settled
  split
  · rename_i lacking
    simp [lacking]
  · rename_i call offered
    simp [offered]

theorem mem_answers {uncached : List ExpandPair} (nonempty : uncached ≠ [])
    {answer : TraceV2Result Content} : answer ∈ provider.answers uncached.length ↔
      ∃ pair, provider.Expanded uncached pair answer := by
  unfold ExpandProvider.answers
  split
  · rename_i batch answered
    refine ⟨?_, ?_⟩
    · intro member
      obtain ⟨first, rest, rfl⟩ := List.exists_cons_of_ne_nil nonempty
      exact ⟨first, .batch List.mem_cons_self (List.mem_singleton.mp member ▸ answered)⟩
    · rintro ⟨pair, expanded⟩
      cases expanded with
      | batch requested answered' =>
          cases answered.symm.trans answered'
          exact List.mem_singleton_self _
      | perEdge requested fallback offered answered' => exact absurd answered (fallback batch)
  · rename_i fallback
    rw [mem_settled]
    refine ⟨?_, ?_⟩
    · rintro ⟨place, inside, call, offered, answered⟩
      exact ⟨uncached[place], .perEdge (List.getElem?_eq_getElem inside) fallback offered answered⟩
    · rintro ⟨pair, expanded⟩
      cases expanded with
      | batch requested answered => exact absurd answered (fallback _)
      | perEdge requested _ offered answered =>
          exact ⟨_, (List.getElem?_eq_some_iff.mp requested).1, _, offered, answered⟩

theorem not_expanded_nil {pair : ExpandPair} {answer : TraceV2Result Content} :
    ¬ provider.Expanded [] pair answer := by
  intro expanded
  cases expanded with
  | batch requested answered => cases requested
  | perEdge requested fallback offered answered => cases requested

theorem mem_uncached {pair : ExpandPair} : pair ∈ trace.uncached pairs ↔
    pair ∈ requestedPairs pairs ∧ trace.store.drilldowns.get pair.drilldownKey = none := by
  simp [uncached, cached, List.mem_filter]

theorem expandBatch_of_cached (provider : ExpandProvider Content)
    (cached : trace.uncached pairs = []) :
    trace.expandBatch pairs provider =
      (trace, mergeDrilldownResults (trace.cachedResults pairs)) :=
  dif_neg (not_not.mpr cached)

theorem expandBatch_returned (nonempty : trace.uncached pairs ≠ []) :
    (trace.expandBatch pairs provider).2 =
      mergeDrilldownResults (provider.answers (trace.uncached pairs).length) := by
  rw [expandBatch, dif_pos nonempty]

theorem get_expandBatch (nonempty : trace.uncached pairs ≠ []) {key : String} :
    (trace.expandBatch pairs provider).1.store.drilldowns.get key =
      if key ∈ (trace.uncached pairs).map ExpandPair.drilldownKey then
        ((trace.expandBatch pairs provider).2.map fun merged => ⟨merged, trace.traces⟩).or
          (trace.store.drilldowns.get key)
      else trace.store.drilldowns.get key := by
  rw [expandBatch, dif_pos nonempty]
  simp only [settle, request]
  cases mergeDrilldownResults (provider.answers (trace.uncached pairs).length) with
  | none => simp
  | some merged =>
      rw [OrderedMap.get_foldl_set]
      rfl

theorem mem_foldl_addUrn {added urns : List String} {urn : String} :
    urn ∈ added.foldl addUrn urns ↔ urn ∈ urns ∨ urn ∈ added := by
  rw [holds_foldl_iff (fun urns => urn ∈ urns) (fun other => urn = other)]
  · simp
  · intro urns other
    unfold addUrn
    split
    · rename_i present
      refine ⟨.inl, ?_⟩
      rintro (known | rfl)
      · exact known
      · exact present
    · rw [List.mem_append, List.mem_singleton]

theorem mem_cachedResults {pair : ExpandPair} {drilldown : Drilldown Content}
    (requested : pair ∈ requestedPairs pairs)
    (found : trace.store.drilldowns.get pair.drilldownKey = some drilldown) :
    drilldown.result ∈ trace.cachedResults pairs := by
  refine List.mem_filterMap.mpr ⟨pair.drilldownKey, ?_, by rw [found, Option.map_some]⟩
  exact mem_foldl_addUrn.mpr (.inr (List.mem_map_of_mem requested))

theorem added_iff (nonempty : trace.uncached pairs ≠ []) {key : String}
    (absent : trace.store.drilldowns.get key = none) :
    (trace.expandBatch pairs provider).1.store.drilldowns.get key ≠ none ↔
      key ∈ (trace.uncached pairs).map ExpandPair.drilldownKey ∧
        ∃ pair answer, provider.Expanded (trace.uncached pairs) pair answer := by
  have merged : mergeDrilldownResults (provider.answers (trace.uncached pairs).length) ≠ none ↔
      ∃ pair answer, provider.Expanded (trace.uncached pairs) pair answer := by
    rw [← Option.isSome_iff_ne_none, mergeDrilldownResults_isSome]
    refine ⟨?_, ?_⟩
    · intro answered
      obtain ⟨answer, member⟩ := List.exists_mem_of_ne_nil _ answered
      obtain ⟨pair, expanded⟩ := (mem_answers nonempty).mp member
      exact ⟨pair, answer, expanded⟩
    · rintro ⟨pair, answer, expanded⟩
      exact List.ne_nil_of_mem ((mem_answers nonempty).mpr ⟨pair, expanded⟩)
  rw [get_expandBatch nonempty, expandBatch_returned nonempty, absent, Option.or_none]
  split
  · rename_i requested
    rw [Ne, Option.map_eq_none_iff, ← Ne, merged]
    exact (and_iff_right requested).symm
  · rename_i other
    exact iff_of_false (fun added => added rfl) fun both => other both.1

theorem expandsBatch_of_cached (cached : trace.uncached pairs = []) :
    trace.ExpandsBatch pairs provider := by
  have returns := expandBatch_of_cached provider cached
  refine ⟨?_, ?_, ?_⟩
  · rw [returns]
    exact fun _ _ found => found
  · rw [returns]
    exact fun _ absent added => absurd absent added
  · rw [returns]
    rintro pair requested result (hit | expanded)
    · obtain ⟨drilldown, found, rfl⟩ := Option.map_eq_some_iff.mp hit
      exact covered_merge.mpr (covered_of_mem (mem_cachedResults requested found))
    · rw [cached] at expanded
      exact absurd expanded not_expanded_nil

/-- A batch call caches and returns what it should exactly where it does not mix cached with
uncached pairs, or pairs that fail with pairs that succeed. -/
theorem expandsBatch_iff : trace.ExpandsBatch pairs provider ↔ trace.Unmixed pairs provider := by
  by_cases empty : trace.uncached pairs = []
  · exact iff_of_true (expandsBatch_of_cached empty) (.inl empty)
  · refine ⟨?_, ?_⟩
    · intro expands
      refine .inr ⟨?_, ?_⟩
      · intro pair answer expanded other uncached
        obtain ⟨requested, absent⟩ := mem_uncached.mp uncached
        have added := (added_iff empty absent).mpr
          ⟨List.mem_map_of_mem uncached, pair, answer, expanded⟩
        exact (expands.added _ absent added).2 other requested rfl
      · intro pair requested drilldown found
        have returned := expands.returned pair requested drilldown.result
          (.inl (Option.map_eq_some_iff.mpr ⟨drilldown, found, rfl⟩))
        rwa [expandBatch_returned empty, covered_merge] at returned
    · intro unmixed
      obtain ⟨all, cached⟩ := unmixed.resolve_left empty
      refine ⟨?_, ?_, ?_⟩
      · intro key drilldown found
        rw [get_expandBatch empty, if_neg, found]
        intro requested
        obtain ⟨pair, uncached, rfl⟩ := List.mem_map.mp requested
        cases found.symm.trans (mem_uncached.mp uncached).2
      · intro key absent added
        obtain ⟨requested, pair, answer, expanded⟩ := (added_iff empty absent).mp added
        obtain ⟨first, uncached, rfl⟩ := List.mem_map.mp requested
        refine ⟨⟨first, (mem_uncached.mp uncached).1, rfl⟩, ?_⟩
        intro other asked same
        rw [← same] at absent
        exact all pair answer expanded other (mem_uncached.mpr ⟨asked, absent⟩)
      · rw [expandBatch_returned empty]
        rintro pair requested result (hit | expanded)
        · obtain ⟨drilldown, found, rfl⟩ := Option.map_eq_some_iff.mp hit
          exact covered_merge.mpr (cached pair requested drilldown found)
        · exact covered_merge.mpr (covered_of_mem ((mem_answers empty).mpr ⟨pair, expanded⟩))

def columnsOfOrders : TraceV2Result Unit :=
  ⟨[⟨"orders.id", ()⟩], [⟨"e1", ()⟩], [], [], [], (), 1, false, none, false, none, none⟩

/-- The batch endpoint fails, and so does the second of the two edges. -/
def secondFails : ExpandProvider Unit :=
  ⟨some (.error none), some fun place => if place = 0 then some columnsOfOrders else none⟩

def twoPairs : List (String × String × Int) :=
  [("orders", "customers", 0), ("orders", "items", 0)]

theorem both_cached :
    ((init.expandBatch twoPairs secondFails).1.store.drilldowns.get "orders->items@1").isSome =
      true := by
  decide +kernel

theorem failed_pair_cached : ¬ (init : UnifiedTrace Unit).ExpandsBatch twoPairs secondFails := by
  intro expands
  have added := expands.added "orders->items@1" rfl (Option.isSome_iff_ne_none.mp both_cached)
  obtain ⟨answer, expanded⟩ := added.2 ⟨"orders", "items", 1⟩ (by decide +kernel)
    (by decide +kernel)
  cases expanded with
  | batch requested answered => cases answered
  | @perEdge place pair answer call requested fallback offered answered =>
      cases offered
      match place, requested, answered with
      | 0, requested, _ => exact absurd requested (by decide +kernel)
      | _ + 1, _, answered => cases answered

end UnifiedTrace

end Univiz.TraceStore

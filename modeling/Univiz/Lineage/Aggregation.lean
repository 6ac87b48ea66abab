import Mathlib.Algebra.Order.Ring.Unbundled.Rat
import Univiz.Data.Ascent
import Univiz.Data.Buckets

namespace Univiz.Lineage

open Univiz.Data

/-! `ContextEngine`: the ancestors of lineage nodes at a granularity, and the lineage edges
between those. -/

structure GraphNode where
  urn : String
  entityType : String
deriving DecidableEq

structure GraphEdge where
  id : String
  sourceUrn : String
  targetUrn : String
  edgeType : String
deriving DecidableEq

/-- The engine with the levels of the entity types in its resolved ontology, if it has one, and
the upper case of a text. -/
structure ContextEngine where
  levels : Option (OrderedMap String Int)
  upper : String → String

structure AggregatedEdge where
  id : String
  sourceUrn : String
  targetUrn : String
  sourceEdges : List String
  confidence : Rat
  granularity : Option String
deriving DecidableEq

namespace ContextEngine

variable (engine : ContextEngine)

def normalizeEdgeType (edgeType : String) : String := engine.upper edgeType

/-- A type that is not known is treated as the finest leaf. -/
def entityLevel (entityType : String) : Int :=
  ((engine.levels.bind fun levels => levels.get entityType)).getD 9999

def targetLevel : Option String → Int
  | none => -1
  | some targetGranularity => engine.entityLevel targetGranularity

variable (nodes : List GraphNode) (containmentMap : OrderedMap String String)

def nodeMap : OrderedMap String GraphNode :=
  nodes.foldl (fun map node => map.set node.urn node) .empty

/-- An ancestor that is not among the nodes is treated as coarser. -/
def nodeLevel (urn : String) : Int :=
  match (nodeMap nodes).get urn with
  | some node => engine.entityLevel node.entityType
  | none => 0

/-- Ends a walk at a URN that it has seen, without an ancestor, and at one that is coarse
enough. -/
def arrives (targetGranularity : Option String) (visited : List String) (currentUrn : String) :
    Option (Option String) :=
  if currentUrn ∈ visited then some none
  else if engine.nodeLevel nodes currentUrn ≤ engine.targetLevel targetGranularity then
    some (some currentUrn)
  else none

def findAncestorAtGranularity (urn : String) : Option String → Option String
  | none => some urn
  | some targetGranularity =>
      (ascend (fun urn => cursorAt (containmentMap.get urn))
        (engine.arrives nodes (some targetGranularity)) none (containmentMap.size + 2) []
        (cursorAt (some urn))).join

variable {engine nodes containmentMap} {urn : String} {targetGranularity : Option String}

/-- The walk is over before its rounds are. -/
theorem ascend_arrives :
    ∃ found, ascend (fun urn => cursorAt (containmentMap.get urn))
      (engine.arrives nodes targetGranularity) none (containmentMap.size + 2) []
      (cursorAt (some urn)) = some found := by
  have guarded : Guarded (engine.arrives nodes targetGranularity) := by
    intro visited cursor met unchecked
    rw [arrives, if_pos met] at unchecked
    cases unchecked
  exact ascend_links_ends guarded (Nat.lt_succ_self _)

end ContextEngine

/-! `ContextEngine._aggregate_lineage_edges`. -/

/-- The ancestors between which an edge is counted. -/
structure Placed where
  sourceAncestor : String
  targetAncestor : String
  edgeId : String
deriving DecidableEq

def Placed.key (placed : Placed) : String :=
  placed.sourceAncestor ++ "->" ++ placed.targetAncestor

namespace ContextEngine

variable (engine : ContextEngine) (nodes : List GraphNode)
  (containmentMap : OrderedMap String String) (targetGranularity : Option String)
  (containmentTypes : Option (List String))

def place (edge : GraphEdge) : Option Placed :=
  if engine.normalizeEdgeType edge.edgeType ∈ containmentTypes.getD [] then none
  else
    match engine.findAncestorAtGranularity nodes containmentMap edge.sourceUrn targetGranularity,
      engine.findAncestorAtGranularity nodes containmentMap edge.targetUrn targetGranularity with
    | some sourceAncestor, some targetAncestor =>
        if sourceAncestor ≠ "" ∧ targetAncestor ≠ "" ∧ sourceAncestor ≠ targetAncestor then
          some ⟨sourceAncestor, targetAncestor, edge.id⟩
        else none
    | _, _ => none

end ContextEngine

/-- The entry of a pair of ancestors before an edge is counted in it. -/
def AggregatedEdge.fresh (placed : Placed) (granularity : Option String) : AggregatedEdge where
  id := "agg-" ++ placed.key
  sourceUrn := placed.sourceAncestor
  targetUrn := placed.targetAncestor
  sourceEdges := []
  confidence := 0
  granularity

def AggregatedEdge.count (aggregated : AggregatedEdge) (edgeId : String) : AggregatedEdge :=
  let sourceEdges := aggregated.sourceEdges ++ [edgeId]
  { aggregated with
    sourceEdges
    confidence := min 1 (sourceEdges.length / 5) }

def absorb (granularity : Option String) (aggregatedMap : OrderedMap String AggregatedEdge)
    (placed : Placed) : OrderedMap String AggregatedEdge :=
  let entry := (aggregatedMap.get placed.key).getD (.fresh placed granularity)
  aggregatedMap.set placed.key (entry.count placed.edgeId)

namespace ContextEngine

variable (engine : ContextEngine) (edges : List GraphEdge) (nodes : List GraphNode)
  (containmentMap : OrderedMap String String) (targetGranularity : Option String)
  (containmentTypes : Option (List String))

def aggregatedMap : OrderedMap String AggregatedEdge :=
  (edges.filterMap (engine.place nodes containmentMap targetGranularity containmentTypes)).foldl
    (absorb targetGranularity) .empty

def aggregateLineageEdges : List AggregatedEdge :=
  (engine.aggregatedMap edges nodes containmentMap targetGranularity
    containmentTypes).entries.map Prod.snd

end ContextEngine

/-- The entry of a pair after some edges have been counted in it. -/
def AggregatedEdge.counting (granularity : Option String) (first : Placed) (items : List Placed) :
    AggregatedEdge :=
  items.foldl (fun entry placed => entry.count placed.edgeId) (.fresh first granularity)

variable {granularity : Option String} {items : List Placed} {placed first : Placed}
  {aggregated : AggregatedEdge} {key : String}

theorem AggregatedEdge.counting_sourceUrn :
    (counting granularity first items).sourceUrn = first.sourceAncestor :=
  foldl_unchanged AggregatedEdge.sourceUrn fun _ _ => rfl

theorem AggregatedEdge.counting_targetUrn :
    (counting granularity first items).targetUrn = first.targetAncestor :=
  foldl_unchanged AggregatedEdge.targetUrn fun _ _ => rfl

theorem AggregatedEdge.mem_sourceEdges_counting {edgeId : String} :
    edgeId ∈ (counting granularity first items).sourceEdges ↔
      ∃ placed ∈ items, placed.edgeId = edgeId := by
  have grows (entry : AggregatedEdge) (placed : Placed) :
      edgeId ∈ (entry.count placed.edgeId).sourceEdges ↔
        edgeId ∈ entry.sourceEdges ∨ placed.edgeId = edgeId := by
    simp [count, eq_comm]
  refine (holds_foldl_iff (fun entry : AggregatedEdge => edgeId ∈ entry.sourceEdges) _
    grows).trans ?_
  simp [fresh]

/-- An entry is of the first edge placed under its key, and counts all of those. -/
theorem get_foldl_absorb :
    (items.foldl (absorb granularity) .empty).get key =
      (items.find? fun placed => placed.key = key).map fun first =>
        .counting granularity first (items.filter fun placed => placed.key = key) := by
  induction items using List.reverseRecOn with
  | nil => rfl
  | append_singleton init last ih =>
      rw [List.foldl_append, List.foldl_cons, List.foldl_nil, absorb, OrderedMap.get_set,
        List.find?_append]
      by_cases here : last.key = key
      · subst here
        rw [if_pos rfl, ih]
        cases found : init.find? fun placed => placed.key = last.key with
        | none =>
            have nothing : init.filter (fun placed => placed.key = last.key) = [] := by
              simpa using found
            simp [nothing, AggregatedEdge.counting]
        | some first => simp [AggregatedEdge.counting]
      · rw [if_neg here, ih]
        simp [here]

theorem mem_entries_iff :
    aggregated ∈ (items.foldl (absorb granularity) .empty).entries.map Prod.snd ↔
      ∃ first, items.find? (fun placed => placed.key = first.key) = some first ∧
        aggregated =
          .counting granularity first (items.filter fun placed => placed.key = first.key) := by
  constructor
  · intro member
    obtain ⟨⟨key, value⟩, entered, rfl⟩ := List.mem_map.mp member
    have found := OrderedMap.get_eq_some.mpr entered
    rw [get_foldl_absorb] at found
    obtain ⟨first, isFirst, same⟩ := Option.map_eq_some_iff.mp found
    obtain rfl : first.key = key := by simpa using List.find?_some isFirst
    exact ⟨first, isFirst, same.symm⟩
  · rintro ⟨first, isFirst, rfl⟩
    apply List.mem_map.mpr
    refine ⟨(first.key, _), OrderedMap.get_eq_some.mp ?_, rfl⟩
    rw [get_foldl_absorb, isFirst]
    rfl

/-- Every edge that has been placed is counted in the entry of its key. -/
theorem exists_entry (member : placed ∈ items) :
    ∃ first ∈ items, first.key = placed.key ∧
      items.find? (fun other => other.key = first.key) = some first ∧
      placed.edgeId ∈ (AggregatedEdge.counting granularity first
        (items.filter fun other => other.key = first.key)).sourceEdges := by
  obtain ⟨first, isFirst⟩ : ∃ first, items.find? (fun other => other.key = placed.key) =
      some first := by
    apply Option.isSome_iff_exists.mp
    rw [List.find?_isSome]
    exact ⟨placed, member, decide_eq_true rfl⟩
  have same : first.key = placed.key := by simpa using List.find?_some isFirst
  refine ⟨first, List.mem_of_find?_eq_some isFirst, same, same ▸ isFirst, ?_⟩
  apply AggregatedEdge.mem_sourceEdges_counting.mpr
  exact ⟨placed, List.mem_filter.mpr ⟨member, decide_eq_true same.symm⟩, rfl⟩

namespace ContextEngine

variable (engine : ContextEngine) (edges : List GraphEdge) (nodes : List GraphNode)
  (containmentMap : OrderedMap String String) (targetGranularity : Option String)
  (containmentTypes : Option (List String))

/-- An edge that is no containment edge, with the distinct ancestors found for its endpoints. -/
def Joins (edge : GraphEdge) (source target : String) : Prop :=
  engine.normalizeEdgeType edge.edgeType ∉ containmentTypes.getD [] ∧
    engine.findAncestorAtGranularity nodes containmentMap edge.sourceUrn targetGranularity =
      some source ∧
    engine.findAncestorAtGranularity nodes containmentMap edge.targetUrn targetGranularity =
      some target ∧
    source ≠ target

/-- The aggregated edges are a partition of the edges between distinct ancestors. -/
structure Partitions (result : List AggregatedEdge) : Prop where
  counted : ∀ edge ∈ edges, ∀ source target,
    engine.Joins nodes containmentMap targetGranularity containmentTypes edge source target →
    ∃ aggregated ∈ result, edge.id ∈ aggregated.sourceEdges ∧ aggregated.sourceUrn = source ∧
      aggregated.targetUrn = target ∧
      ∀ other ∈ result, edge.id ∈ other.sourceEdges → other = aggregated
  separate : ∀ edge ∈ edges, ∀ other ∈ edges, ∀ source target source' target',
    engine.Joins nodes containmentMap targetGranularity containmentTypes edge source target →
    engine.Joins nodes containmentMap targetGranularity containmentTypes other source' target' →
    (source, target) ≠ (source', target') →
    ∀ aggregated ∈ result, edge.id ∈ aggregated.sourceEdges →
    ∀ aggregated' ∈ result, other.id ∈ aggregated'.sourceEdges → aggregated ≠ aggregated'
  only : ∀ aggregated ∈ result, ∀ edgeId ∈ aggregated.sourceEdges,
    ∃ edge ∈ edges, edge.id = edgeId ∧ ∃ source target,
      engine.Joins nodes containmentMap targetGranularity containmentTypes edge source target

/-- No edge has the empty URN as an ancestor, and edges that share their id, or whose ancestors
read the same when they are joined, have the same ancestors. -/
structure Distinguishable : Prop where
  named : ∀ edge ∈ edges, ∀ source target,
    engine.Joins nodes containmentMap targetGranularity containmentTypes edge source target →
    source ≠ "" ∧ target ≠ ""
  apart : ∀ edge ∈ edges, ∀ other ∈ edges, ∀ source target source' target',
    engine.Joins nodes containmentMap targetGranularity containmentTypes edge source target →
    engine.Joins nodes containmentMap targetGranularity containmentTypes other source' target' →
    edge.id = other.id ∨ source ++ "->" ++ target = source' ++ "->" ++ target' →
    (source, target) = (source', target')

variable {engine edges nodes containmentMap targetGranularity containmentTypes}
  {edge : GraphEdge} {source target : String}

theorem place_eq_some :
    engine.place nodes containmentMap targetGranularity containmentTypes edge = some placed ↔
      engine.Joins nodes containmentMap targetGranularity containmentTypes edge
        placed.sourceAncestor placed.targetAncestor ∧
      placed.sourceAncestor ≠ "" ∧ placed.targetAncestor ≠ "" ∧ placed.edgeId = edge.id := by
  unfold place Joins
  split
  · rename_i contained
    simp [contained]
  · rename_i lineage
    split
    · rename_i source target foundSource foundTarget
      obtain ⟨placedSource, placedTarget, placedId⟩ := placed
      simp only [foundSource, foundTarget, Option.ite_none_right_eq_some, Option.some.injEq,
        Placed.mk.injEq]
      constructor
      · rintro ⟨⟨namedSource, namedTarget, apart⟩, rfl, rfl, rfl⟩
        exact ⟨⟨lineage, rfl, rfl, apart⟩, namedSource, namedTarget, rfl⟩
      · rintro ⟨⟨_, rfl, rfl, apart⟩, namedSource, namedTarget, rfl⟩
        exact ⟨⟨namedSource, namedTarget, apart⟩, rfl, rfl, rfl⟩
    · rename_i unresolved
      refine iff_of_false nofun ?_
      rintro ⟨⟨_, foundSource, foundTarget, _⟩, _⟩
      exact unresolved _ _ foundSource foundTarget

theorem mem_placed : placed ∈ edges.filterMap
      (engine.place nodes containmentMap targetGranularity containmentTypes) ↔
    ∃ edge ∈ edges, engine.Joins nodes containmentMap targetGranularity containmentTypes edge
        placed.sourceAncestor placed.targetAncestor ∧
      placed.sourceAncestor ≠ "" ∧ placed.targetAncestor ≠ "" ∧ placed.edgeId = edge.id := by
  simp only [List.mem_filterMap, place_eq_some]

theorem mem_aggregateLineageEdges :
    aggregated ∈ engine.aggregateLineageEdges edges nodes containmentMap targetGranularity
        containmentTypes ↔
      ∃ first, (edges.filterMap (engine.place nodes containmentMap targetGranularity
          containmentTypes)).find? (fun placed => placed.key = first.key) = some first ∧
        aggregated = .counting targetGranularity first ((edges.filterMap (engine.place nodes
          containmentMap targetGranularity containmentTypes)).filter
            fun placed => placed.key = first.key) := mem_entries_iff

/-- Every edge between named ancestors is counted in the entry of their key. -/
theorem exists_counting (member : edge ∈ edges)
    (joins : engine.Joins nodes containmentMap targetGranularity containmentTypes edge source target)
    (named : source ≠ "" ∧ target ≠ "") :
    ∃ first, first.key = source ++ "->" ++ target ∧
      (edges.filterMap (engine.place nodes containmentMap targetGranularity
        containmentTypes)).find? (fun placed => placed.key = first.key) = some first ∧
      edge.id ∈ (AggregatedEdge.counting targetGranularity first ((edges.filterMap (engine.place
        nodes containmentMap targetGranularity containmentTypes)).filter
          fun placed => placed.key = first.key)).sourceEdges := by
  have placed : (⟨source, target, edge.id⟩ : Placed) ∈ edges.filterMap
      (engine.place nodes containmentMap targetGranularity containmentTypes) :=
    mem_placed.mpr ⟨edge, member, joins, named.1, named.2, rfl⟩
  obtain ⟨first, _, key, isFirst, inside⟩ := exists_entry placed
  exact ⟨first, key, isFirst, inside⟩

theorem partitions_distinguishable
    (partitions : engine.Partitions edges nodes containmentMap targetGranularity containmentTypes
      (engine.aggregateLineageEdges edges nodes containmentMap targetGranularity
        containmentTypes)) :
    engine.Distinguishable edges nodes containmentMap targetGranularity containmentTypes := by
  have named : ∀ edge ∈ edges, ∀ source target,
      engine.Joins nodes containmentMap targetGranularity containmentTypes edge source target →
      source ≠ "" ∧ target ≠ "" := by
    intro edge member source target joins
    obtain ⟨aggregated, entered, _, rfl, rfl, _⟩ :=
      partitions.counted edge member source target joins
    obtain ⟨first, isFirst, rfl⟩ := mem_aggregateLineageEdges.mp entered
    obtain ⟨_, _, _, namedSource, namedTarget, _⟩ :=
      mem_placed.mp (List.mem_of_find?_eq_some isFirst)
    rw [AggregatedEdge.counting_sourceUrn, AggregatedEdge.counting_targetUrn]
    exact ⟨namedSource, namedTarget⟩
  refine ⟨named, ?_⟩
  intro edge member other member' source target source' target' joins joins' alike
  obtain ⟨aggregated, _, _, sameSource, sameTarget, unique⟩ :=
    partitions.counted edge member source target joins
  obtain ⟨aggregated', entered', inside', sameSource', sameTarget', unique'⟩ :=
    partitions.counted other member' source' target' joins'
  suffices same : aggregated' = aggregated by
    rw [← sameSource, ← sameTarget, ← sameSource', ← sameTarget', same]
  obtain sameId | sameKey := alike
  · exact unique aggregated' entered' (sameId ▸ inside')
  · -- the entry of the common key counts both edges
    obtain ⟨first, key, isFirst, inside⟩ :=
      exists_counting member joins (named edge member source target joins)
    obtain ⟨first', key', isFirst', inside''⟩ :=
      exists_counting member' joins' (named other member' source' target' joins')
    obtain rfl : first = first' := by
      rw [key', ← sameKey, ← key, isFirst] at isFirst'
      exact Option.some.inj isFirst'
    have entered := mem_aggregateLineageEdges.mpr ⟨first, isFirst, rfl⟩
    rw [← unique _ entered inside, unique' _ entered inside'']

theorem distinguishable_counted
    (distinguishable : engine.Distinguishable edges nodes containmentMap targetGranularity
      containmentTypes) (member : edge ∈ edges)
    (joins : engine.Joins nodes containmentMap targetGranularity containmentTypes edge source
      target) :
    ∃ aggregated ∈ engine.aggregateLineageEdges edges nodes containmentMap targetGranularity
        containmentTypes, edge.id ∈ aggregated.sourceEdges ∧ aggregated.sourceUrn = source ∧
      aggregated.targetUrn = target ∧
      ∀ other ∈ engine.aggregateLineageEdges edges nodes containmentMap targetGranularity
        containmentTypes, edge.id ∈ other.sourceEdges → other = aggregated := by
  obtain ⟨first, key, isFirst, inside⟩ :=
    exists_counting member joins (distinguishable.named edge member source target joins)
  obtain ⟨origin, member', joins', _⟩ := mem_placed.mp (List.mem_of_find?_eq_some isFirst)
  obtain ⟨rfl, rfl⟩ : source = first.sourceAncestor ∧ target = first.targetAncestor := by
    exact Prod.mk.inj
      (distinguishable.apart edge member origin member' _ _ _ _ joins joins' (.inr key.symm))
  refine ⟨_, mem_aggregateLineageEdges.mpr ⟨first, isFirst, rfl⟩, inside,
    AggregatedEdge.counting_sourceUrn, AggregatedEdge.counting_targetUrn, ?_⟩
  intro other entered listed
  obtain ⟨first', isFirst', rfl⟩ := mem_aggregateLineageEdges.mp entered
  obtain ⟨placed, among, sameId⟩ := AggregatedEdge.mem_sourceEdges_counting.mp listed
  obtain ⟨among, sameKey⟩ := List.mem_filter.mp among
  obtain ⟨origin', member'', joins'', _, _, id⟩ := mem_placed.mp among
  obtain ⟨sameSource, sameTarget⟩ := Prod.mk.inj (distinguishable.apart edge member origin'
    member'' _ _ _ _ joins joins'' (.inl (sameId.symm.trans id)))
  have keys : first'.key = first.key := by
    rw [← of_decide_eq_true sameKey, Placed.key, Placed.key, sameSource, sameTarget]
  obtain rfl : first' = first := by
    rw [keys, isFirst] at isFirst'
    exact (Option.some.inj isFirst').symm
  rfl

/-- The aggregated edges are a partition just if nothing that is grouped looks alike. -/
theorem partitions_iff (engine : ContextEngine) (edges : List GraphEdge) (nodes : List GraphNode)
    (containmentMap : OrderedMap String String) (targetGranularity : Option String)
    (containmentTypes : Option (List String)) :
    engine.Partitions edges nodes containmentMap targetGranularity containmentTypes
        (engine.aggregateLineageEdges edges nodes containmentMap targetGranularity
          containmentTypes) ↔
      engine.Distinguishable edges nodes containmentMap targetGranularity containmentTypes := by
  refine ⟨partitions_distinguishable, ?_⟩
  intro distinguishable
  refine ⟨fun edge member source target => distinguishable_counted distinguishable member, ?_, ?_⟩
  · intro edge member other member' source target source' target' joins joins' apart
      aggregated entered inside aggregated' entered' inside' same
    obtain ⟨_, _, _, rfl, rfl, unique⟩ := distinguishable_counted distinguishable member joins
    obtain ⟨_, _, _, rfl, rfl, unique'⟩ := distinguishable_counted distinguishable member' joins'
    rw [← unique aggregated entered inside, ← unique' aggregated' entered' inside', same] at apart
    exact apart rfl
  · intro aggregated entered edgeId listed
    obtain ⟨first, _, rfl⟩ := mem_aggregateLineageEdges.mp entered
    obtain ⟨placed, among, rfl⟩ := AggregatedEdge.mem_sourceEdges_counting.mp listed
    obtain ⟨edge, member, joins, _, _, id⟩ := mem_placed.mp (List.mem_filter.mp among).1
    exact ⟨edge, member, id.symm, _, _, joins⟩

/-- Two edges between four tables, of which the names of two have an arrow. -/
theorem arrows_not_partitioned :
    let engine : ContextEngine := ⟨none, id⟩
    let edges : List GraphEdge := [⟨"e1", "a->b", "c", "FLOWS"⟩, ⟨"e2", "a", "b->c", "FLOWS"⟩]
    ¬ engine.Partitions edges [] .empty none none
      (engine.aggregateLineageEdges edges [] .empty none none) := by
  intro engine edges partitions
  have distinguishable := partitions_distinguishable partitions
  have joins : engine.Joins [] .empty none none ⟨"e1", "a->b", "c", "FLOWS"⟩ "a->b" "c" :=
    ⟨List.not_mem_nil, rfl, rfl, by decide⟩
  have joins' : engine.Joins [] .empty none none ⟨"e2", "a", "b->c", "FLOWS"⟩ "a" "b->c" :=
    ⟨List.not_mem_nil, rfl, rfl, by decide⟩
  have same := distinguishable.apart _ (List.mem_cons_self) _
    (List.mem_cons_of_mem _ List.mem_cons_self) _ _ _ _ joins joins' (.inr (by decide))
  exact absurd same (by decide)

end ContextEngine

end Univiz.Lineage

import Mathlib.Data.Finset.Insert
import Mathlib.Data.List.Basic
import Mathlib.Logic.Function.Basic
import Univiz.Data.Tally

namespace Univiz.Falkor

open Univiz.Data

/-! The state behind `FalkorDBProvider`'s aggregation: the AGGREGATED edges of
the projection graph and the Redis sets of contributing edge ids. -/

abbrev Urn := String

abbrev Pair := Urn × Urn

/-- A row `s.urn, t.urn, type(r), r.id` of the lineage scan. -/
structure LineageEdge where
  sourceUrn : Urn
  targetUrn : Urn
  edgeType : String
  id : Option String
deriving DecidableEq, Repr

/-- The member that the edge adds to a set: its id, or a composite when it has none. -/
def LineageEdge.edgeId (edge : LineageEdge) : String :=
  match edge.id with
  | some id => if id = "" then edge.sourceUrn ++ "|" ++ edge.edgeType ++ "|" ++ edge.targetUrn else id
  | none => edge.sourceUrn ++ "|" ++ edge.edgeType ++ "|" ++ edge.targetUrn

/-- The pairs of `s_chain × t_chain` without self-loops, in loop order. -/
def pairsBetween (sourceChain targetChain : List Urn) : List Pair :=
  sourceChain.flatMap fun source =>
    (targetChain.filter (source ≠ ·)).map fun target => (source, target)

@[simp] theorem mem_pairsBetween {sourceChain targetChain : List Urn} {pair : Pair} :
    pair ∈ pairsBetween sourceChain targetChain ↔
      pair.1 ∈ sourceChain ∧ pair.2 ∈ targetChain ∧ pair.1 ≠ pair.2 := by
  obtain ⟨source, target⟩ := pair
  simp [pairsBetween]

theorem pairsBetween_nodup {sourceChain targetChain : List Urn} (sources : sourceChain.Nodup)
    (targets : targetChain.Nodup) : (pairsBetween sourceChain targetChain).Nodup := by
  refine List.nodup_flatMap.mpr ⟨fun source _ => ?_, ?_⟩
  · exact (targets.filter _).map fun first second same => (Prod.mk.inj same).2
  · refine sources.imp fun distinct pair left right => ?_
    obtain ⟨_, _, rfl⟩ := List.mem_map.mp left
    obtain ⟨_, _, same⟩ := List.mem_map.mp right
    exact distinct (Prod.mk.inj same).1.symm

/-- One edge counted into one pair: an element of `all_sadd_ops`. -/
structure Contribution where
  pair : Pair
  edgeId : String
  edgeType : String
deriving DecidableEq, Repr

/-- The pairs an edge is counted into: every ancestor of the source, or the
source itself, with every ancestor of the target, or the target itself. -/
def LineageEdge.pairs (ancestors : Urn → List Urn) (edge : LineageEdge) : List Pair :=
  pairsBetween (edge.sourceUrn :: ancestors edge.sourceUrn)
    (edge.targetUrn :: ancestors edge.targetUrn)

def contributions (ancestors : Urn → List Urn) (edges : List LineageEdge) : List Contribution :=
  edges.flatMap fun edge => (edge.pairs ancestors).map fun pair => ⟨pair, edge.edgeId, edge.edgeType⟩

theorem mem_contributions {ancestors : Urn → List Urn} {edges : List LineageEdge}
    {contribution : Contribution} :
    contribution ∈ contributions ancestors edges ↔
      ∃ edge ∈ edges, contribution.pair ∈ edge.pairs ancestors ∧
        contribution.edgeId = edge.edgeId ∧ contribution.edgeType = edge.edgeType := by
  obtain ⟨pair, edgeId, edgeType⟩ := contribution
  simp only [contributions, List.mem_flatMap, List.mem_map, Contribution.mk.injEq]
  constructor
  · intro ⟨edge, member, _, inPairs, rfl, id, type⟩
    exact ⟨edge, member, inPairs, id.symm, type.symm⟩
  · intro ⟨edge, member, inPairs, id, type⟩
    exact ⟨edge, member, pair, inPairs, rfl, id.symm, type.symm⟩

/-- The ids that a list of contributions adds to a pair. -/
def idsAt (pair : Pair) (contributed : List Contribution) : Finset String :=
  ((contributed.filter (·.pair = pair)).map Contribution.edgeId).toFinset

@[simp] theorem mem_idsAt {pair : Pair} {contributed : List Contribution} {id : String} :
    id ∈ idsAt pair contributed ↔
      ∃ contribution ∈ contributed, contribution.pair = pair ∧ contribution.edgeId = id := by
  simp [idsAt, and_assoc]

theorem idsAt_append (pair : Pair) (first second : List Contribution) :
    idsAt pair (first ++ second) = idsAt pair first ∪ idsAt pair second := by
  ext id
  simp [or_and_right, exists_or]

/-- The properties of an AGGREGATED edge, without its timestamp. -/
structure AggregatedEdge where
  weight : Nat
  sourceEdgeTypes : List String
  sourceLevel : Option Int
  targetLevel : Option Int
  levelDigest : Option String
deriving DecidableEq, Repr

/-- A Redis key that holds no set reads as the empty set. -/
abbrev MemberSets := String → Finset String

structure Store where
  edges : Pair → Option AggregatedEdge
  members : MemberSets

def Store.empty : Store where
  edges _ := none
  members _ := ∅

def membersKey (graphName : String) (pair : Pair) : String :=
  graphName ++ ":agg_members:" ++ pair.1 ++ ":" ++ pair.2

/-- No two pairs of nodes share a member set. -/
def Unambiguous (graphName : String) (nodes : Urn → Prop) : Prop :=
  ∀ first second : Pair, nodes first.1 → nodes first.2 → nodes second.1 → nodes second.2 →
    membersKey graphName first = membersKey graphName second → first = second

def Store.tally (graphName : String) (store : Store) : Tally Pair String where
  members pair := store.members (membersKey graphName pair)
  published pair := (store.edges pair).map AggregatedEdge.weight

/-- Both ends of the pair are nodes of the graph. -/
def Between (nodes : Urn → Prop) (pair : Pair) : Prop :=
  nodes pair.1 ∧ nodes pair.2

theorem Unambiguous.eq {graphName : String} {nodes : Urn → Prop}
    (unambiguous : Unambiguous graphName nodes) {first second : Pair}
    (firstInside : Between nodes first) (secondInside : Between nodes second)
    (same : membersKey graphName first = membersKey graphName second) : first = second :=
  unambiguous first second firstInside.1 firstInside.2 secondInside.1 secondInside.2 same

theorem unambiguous_of_no_colon (graphName : String) {nodes : Urn → Prop}
    (plain : ∀ urn, nodes urn → ':' ∉ urn.toList) : Unambiguous graphName nodes := by
  intro ⟨source, target⟩ ⟨source', target'⟩ sourceInside targetInside _ _ same
  have chars := congrArg String.toList same
  simp only [membersKey, String.toList_append, List.append_assoc, List.append_cancel_left_eq]
    at chars
  have split : source.toList ++ ':' :: target.toList = source'.toList ++ ':' :: target'.toList :=
    chars
  obtain ⟨sources, -, targets⟩ := (List.append_cons_inj_of_notMem (plain source sourceInside)
    (plain target targetInside)).mp split
  exact Prod.ext (String.toList_inj.mp sources) (String.toList_inj.mp targets)

end Univiz.Falkor

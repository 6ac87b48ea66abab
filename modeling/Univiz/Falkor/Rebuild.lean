import Mathlib.Data.List.AList
import Univiz.Data.Buckets
import Univiz.Falkor.Batched

namespace Univiz.Falkor

open Univiz.Data

/-! The bulk rebuild: `_materialize_aggregated_edges_bulk_rebuild` and the
phases it runs.  Pairs are accumulated in memory, created in the graph and then
written to the Redis sets. -/

structure PairMeta where
  weight : Nat
  edgeTypes : List String
  contributors : List String
  sourceLevel : Option Int
  targetLevel : Option Int
deriving DecidableEq, Repr

def PairMeta.fresh : PairMeta := ⟨0, [], [], none, none⟩

def PairMeta.count (entry : PairMeta) (contribution : Contribution) : PairMeta :=
  { entry with
    weight := entry.weight + 1
    edgeTypes := addTypes entry.edgeTypes [contribution.edgeType]
    contributors := entry.contributors ++ [contribution.edgeId] }

/-- A dictionary; the order of its entries does not matter. -/
abbrev PairData := AList fun _ : Pair => PairMeta

def accumulate (pairData : PairData) (contribution : Contribution) : PairData :=
  pairData.insert contribution.pair
    (((pairData.lookup contribution.pair).getD .fresh).count contribution)

/-- The body of the scan loop for one page. -/
def accumulateRows (ancestors : Urn → List Urn) (pairData : PairData) (rows : List LineageEdge) :
    PairData :=
  (contributions ancestors rows).foldl accumulate pairData

variable {pair : Pair} {contributed : List Contribution}

theorem addTypes_append (known first second : List String) :
    addTypes known (first ++ second) = addTypes (addTypes known first) second :=
  List.foldl_append

theorem lookup_foldl_accumulate (pairData : PairData) :
    (contributed.foldl accumulate pairData).lookup pair =
      (contributed.filter (·.pair = pair)).foldl
        (fun entry contribution => some ((entry.getD .fresh).count contribution))
        (pairData.lookup pair) := by
  induction contributed generalizing pairData with
  | nil => rfl
  | cons contribution rest ih =>
      rw [List.foldl_cons, ih, accumulate]
      by_cases same : contribution.pair = pair
      · subst same
        simp only [AList.lookup_insert, decide_true, List.filter_cons_of_pos, List.foldl_cons]
      · rw [AList.lookup_insert_ne (Ne.symm same), List.filter_cons_of_neg (by simpa using same)]

theorem foldl_count (contributed : List Contribution) (entry : PairMeta) :
    contributed.foldl
        (fun entry contribution => some ((entry.getD PairMeta.fresh).count contribution)) (some entry) =
      some { entry with
        weight := entry.weight + contributed.length
        edgeTypes := addTypes entry.edgeTypes (contributed.map Contribution.edgeType)
        contributors := entry.contributors ++ contributed.map Contribution.edgeId } := by
  induction contributed generalizing entry with
  | nil => simp [addTypes]
  | cons contribution rest ih =>
      rw [List.foldl_cons, Option.getD_some, ih]
      simp only [PairMeta.count, List.map_cons, List.length_cons, List.append_assoc,
        List.singleton_append, Option.some.injEq, PairMeta.mk.injEq, and_true]
      refine ⟨by omega, ?_⟩
      rw [← addTypes_append, List.singleton_append]

theorem lookup_accumulated :
    (contributed.foldl accumulate ∅).lookup pair =
      let own := contributed.filter (·.pair = pair)
      if own = [] then none
      else some
        { PairMeta.fresh with
          weight := own.length
          edgeTypes := addTypes [] (own.map Contribution.edgeType)
          contributors := own.map Contribution.edgeId } := by
  rw [lookup_foldl_accumulate, AList.lookup_empty]
  cases own : contributed.filter (·.pair = pair) with
  | nil => rfl
  | cons contribution rest =>
      rw [List.foldl_cons, foldl_count]
      simp only [Option.getD_none, PairMeta.count, PairMeta.fresh, List.nil_append, Nat.zero_add,
        reduceCtorEq, if_false, List.map_cons, List.length_cons, List.singleton_append,
        Option.some.injEq, PairMeta.mk.injEq, and_true]
      refine ⟨by omega, ?_⟩
      rw [← addTypes_append, List.singleton_append]

theorem mem_addTypes {known added : List String} {edgeType : String} :
    edgeType ∈ addTypes known added ↔ edgeType ∈ known ∨ edgeType ∈ added := by
  unfold addTypes
  induction added generalizing known with
  | nil => simp
  | cons head rest ih =>
      rw [List.foldl_cons, ih]
      split
      · rename_i present
        simp only [List.mem_cons]
        constructor
        · intro either
          exact either.imp_right .inr
        · intro either
          rcases either with old | rfl | later
          · exact .inl old
          · exact .inl present
          · exact .inr later
      · simp [or_assoc]

/-- The graph that has the AGGREGATED edges. -/
inductive ProjectionMode where
  | inSource
  | dedicated
deriving DecidableEq

/-- What phases C and D look up: `urn_label_map`, the level of an entity type
and the level digest. -/
structure RebuildConfig where
  labelOf : Urn → Option String
  entityLevels : String → Option Int
  levelDigest : Option String
  projectionMode : ProjectionMode

/-- A URN whose label could be resolved. -/
def RebuildConfig.hasLabel (config : RebuildConfig) (urn : Urn) : Bool :=
  (config.labelOf urn).getD "" ≠ ""

/-- The MATCH of a CREATE finds the node by its label.  In a dedicated projection the nodes have
none. -/
def RebuildConfig.findsNode (config : RebuildConfig) (urn : Urn) : Bool :=
  config.hasLabel urn && config.projectionMode = .inSource

/-- `_purge_aggregated_idempotency_namespace`. -/
def purgeMembers (graphName : String) (members : MemberSets) : MemberSets := fun key =>
  if (graphName ++ ":agg_members:").toList <+: key.toList then ∅ else members key

def RebuildConfig.createdEdge (config : RebuildConfig) (pair : Pair) (entry : PairMeta) :
    AggregatedEdge where
  weight := entry.weight
  sourceEdgeTypes := entry.edgeTypes
  sourceLevel := (config.labelOf pair.1).bind config.entityLevels
  targetLevel := (config.labelOf pair.2).bind config.entityLevels
  levelDigest := some (config.levelDigest.getD "")

/-- One row of a CREATE batch.  Pairs with an unresolved label are dropped, and a row whose ends
are not found creates nothing. -/
def RebuildConfig.createEdge (config : RebuildConfig) (edges : Pair → Option AggregatedEdge)
    (entry : Σ _ : Pair, PairMeta) : Pair → Option AggregatedEdge :=
  if config.findsNode entry.1.1 && config.findsNode entry.1.2 then
    Function.update edges entry.1 (some (config.createdEdge entry.1 entry.2))
  else edges

/-- `_bulk_create_aggregated_edges_from_pairs`.  Grouping by labels and cutting
into batches only reorders the rows. -/
def RebuildConfig.bulkCreate (config : RebuildConfig) (edges : Pair → Option AggregatedEdge)
    (pairData : PairData) : Pair → Option AggregatedEdge :=
  pairData.entries.foldl config.createEdge edges

def saddMany (members : MemberSets) (key : String) (ids : List String) : MemberSets :=
  ids.foldl (fun members id => sadd members key id) members

/-- `_rebuild_idempotency_state_from_pairs`. -/
def rebuildIdempotency (graphName : String) (members : MemberSets) (pairData : PairData) :
    MemberSets :=
  pairData.entries.foldl
    (fun members entry => saddMany members (membersKey graphName entry.1) entry.2.contributors)
    members

variable {graphName : String} {members : MemberSets} {config : RebuildConfig}

theorem purgeMembers_membersKey : purgeMembers graphName members (membersKey graphName pair) = ∅ := by
  refine if_pos ⟨(pair.1 ++ ":" ++ pair.2).toList, ?_⟩
  simp only [membersKey, String.toList_append, List.append_assoc]

theorem createEdge_of_ne {edges : Pair → Option AggregatedEdge} {entry : Σ _ : Pair, PairMeta}
    (distinct : entry.1 ≠ pair) : config.createEdge edges entry pair = edges pair := by
  unfold RebuildConfig.createEdge
  split
  · exact Function.update_of_ne distinct.symm _ _
  · rfl

theorem foldl_createEdge_of_notMem {entries : List (Σ _ : Pair, PairMeta)}
    {edges : Pair → Option AggregatedEdge} (absent : pair ∉ entries.keys) :
    entries.foldl config.createEdge edges pair = edges pair := by
  induction entries generalizing edges with
  | nil => rfl
  | cons entry rest ih =>
      rw [List.keys_cons, List.mem_cons, not_or] at absent
      rw [List.foldl_cons, ih absent.2, createEdge_of_ne (Ne.symm absent.1)]

/-- Phase D creates the edge of every entry whose endpoints are found. -/
theorem bulkCreate_lookup (pairData : PairData) (edges : Pair → Option AggregatedEdge) :
    config.bulkCreate edges pairData pair =
      match pairData.lookup pair with
      | some entry =>
          if config.findsNode pair.1 && config.findsNode pair.2 then
            some (config.createdEdge pair entry)
          else edges pair
      | none => edges pair := by
  obtain ⟨entries, distinct⟩ := pairData
  change entries.foldl config.createEdge edges pair = match entries.dlookup pair with
    | some entry => _
    | none => _
  induction entries generalizing edges with
  | nil => rfl
  | cons entry rest ih =>
      obtain ⟨key, entry⟩ := entry
      obtain ⟨fresh, restDistinct⟩ := List.nodupKeys_cons.mp distinct
      rw [List.foldl_cons]
      by_cases same : key = pair
      · subst same
        rw [foldl_createEdge_of_notMem fresh, List.dlookup_cons_eq]
        unfold RebuildConfig.createEdge
        split
        · exact Function.update_self _ _ _
        · rfl
      · rw [ih _ restDistinct, createEdge_of_ne same, List.dlookup_cons_ne _ _ (Ne.symm same)]

theorem mem_saddMany {key key' id : String} {ids : List String} :
    id ∈ saddMany members key ids key' ↔ id ∈ members key' ∨ key = key' ∧ id ∈ ids := by
  have grows (members : MemberSets) (other : String) :
      id ∈ sadd members key other key' ↔ id ∈ members key' ∨ key = key' ∧ other = id := by
    rw [mem_sadd, eq_comm (a := other)]
  rw [saddMany, holds_foldl_iff (fun members : MemberSets => id ∈ members key') _ grows]
  simp [and_comm]

theorem mem_rebuildIdempotency {pairData : PairData} {key id : String} :
    id ∈ rebuildIdempotency graphName members pairData key ↔
      id ∈ members key ∨ ∃ pair entry, pairData.lookup pair = some entry ∧
        membersKey graphName pair = key ∧ id ∈ entry.contributors := by
  have folded : ∀ entries : List (Σ _ : Pair, PairMeta), ∀ members : MemberSets,
      id ∈ entries.foldl (fun members entry =>
          saddMany members (membersKey graphName entry.1) entry.2.contributors) members key ↔
        id ∈ members key ∨ ∃ entry ∈ entries,
          membersKey graphName entry.1 = key ∧ id ∈ entry.2.contributors := by
    intro entries members
    exact holds_foldl_iff (fun members : MemberSets => id ∈ members key) _
      fun _ _ => mem_saddMany
  rw [rebuildIdempotency, folded]
  refine or_congr_right ?_
  constructor
  · intro ⟨⟨pair, entry⟩, member, same, contributes⟩
    exact ⟨pair, entry, AList.mem_lookup_iff.mpr member, same, contributes⟩
  · intro ⟨pair, entry, found, same, contributes⟩
    exact ⟨⟨pair, entry⟩, AList.mem_lookup_iff.mp found, same, contributes⟩

end Univiz.Falkor

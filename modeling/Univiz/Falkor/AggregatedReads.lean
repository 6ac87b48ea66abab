import Mathlib.Algebra.BigOperators.Group.List.Basic
import Mathlib.Algebra.Ring.Int.Defs
import Mathlib.Data.Nat.Cast.Basic
import Univiz.Data.Merging
import Univiz.Falkor.Rebuild
import Univiz.Providers.Additions

namespace Univiz.Falkor

open Univiz.Data
open Univiz.Providers (chunks flatten_chunks)

/-! `FalkorDBProvider.get_aggregated_edges_between`: the stored AGGREGATED edges whose source
is one of the given urns.  A long list of urns is asked for in batches, and rows of one pair
from different batches are merged. -/

/-- What a row holds of `r.sourceEdgeTypes`. -/
inductive EdgeTypes where
  | none
  | text (edgeType : String)
  | list (edgeTypes : List String)
deriving DecidableEq, Repr

def EdgeTypes.toList : EdgeTypes → List String
  | none => []
  | text edgeType => if edgeType = "" then [] else [edgeType]
  | list edgeTypes => edgeTypes

/-- A row `sUrn, tUrn, weight, types`; a property that the edge lacks is null. -/
structure AggregatedRow where
  sUrn : Urn
  tUrn : Urn
  weight : Option Int
  types : EdgeTypes
deriving DecidableEq, Repr

namespace AggregatedRow

def key (row : AggregatedRow) : Pair := (row.sUrn, row.tUrn)

/-- `int(weight) if weight else 0` -/
def weightOrZero (row : AggregatedRow) : Int := row.weight.getD 0

def merge (existing row : AggregatedRow) : AggregatedRow :=
  { existing with
    weight := some (existing.weightOrZero + row.weightOrZero)
    types := .list (addTypes [] (existing.types.toList ++ row.types.toList)) }

end AggregatedRow

structure AggregatedEdgeInfo where
  id : String
  sourceUrn : Urn
  targetUrn : Urn
  edgeCount : Int
  edgeTypes : List String
  sourceEdgeIds : List String
deriving DecidableEq, Repr

structure AggregatedEdgeResult where
  aggregatedEdges : List AggregatedEdgeInfo
  totalSourceEdges : Int
  truncated : Bool
  lastMaterializedAt : Option String
deriving DecidableEq, Repr

/-- The refusal of a list of urns that is too long. -/
structure HTTPException where
  statusCode : Nat
  code : String
  limit : Nat
  received : Nat
deriving DecidableEq, Repr

def countOf (weight : Int) : Int := if weight = 0 then 1 else weight

/-- One row of the result. -/
def AggregatedRow.toInfo (row : AggregatedRow) : AggregatedEdgeInfo where
  id := "agg-" ++ row.sUrn ++ "-" ++ row.tUrn
  sourceUrn := row.sUrn
  targetUrn := row.tUrn
  edgeCount := countOf row.weightOrZero
  edgeTypes := row.types.toList
  sourceEdgeIds := []

/-- A provider with the AGGREGATED edges of its projection graph.  A query for some sources
fails, or returns the edges that match it in any order. -/
structure AggregatedReads where
  edges : List AggregatedRow
  targetUrns : Option (List Urn)
  query : List Urn → Option (List AggregatedRow)
  batchSize : Nat
  resultCap : Nat
  batch_positive : 0 < batchSize
  answered : ∀ sources answer, query sources = some answer → answer.Perm (edges.filter fun row =>
    row.sUrn ∈ sources ∧ (targetUrns.getD [] = [] ∨ row.tUrn ∈ targetUrns.getD []) ∧
      row.sUrn ≠ row.tUrn)

namespace AggregatedReads

variable (reads : AggregatedReads)

/-- The WHERE clause, apart from the sources. -/
def Matches (row : AggregatedRow) : Prop :=
  (reads.targetUrns.getD [] = [] ∨ row.tUrn ∈ reads.targetUrns.getD []) ∧ row.sUrn ≠ row.tUrn

instance (row : AggregatedRow) : Decidable (reads.Matches row) :=
  inferInstanceAs (Decidable (_ ∧ _))

/-- A failed query counts as an empty answer. -/
def runBatch (sources : List Urn) : List AggregatedRow := (reads.query sources).getD []

def rowsToAggregatedResult (rows : List AggregatedRow) (lastMaterializedAt : Option String) :
    AggregatedEdgeResult where
  aggregatedEdges := rows.map AggregatedRow.toInfo
  totalSourceEdges := (rows.map fun row => countOf row.weightOrZero).sum
  truncated := decide (reads.resultCap ≤ rows.length)
  lastMaterializedAt

def batches (sourceUrns : List Urn) : List (List Urn) := chunks sourceUrns reads.batchSize

/-- All rows of the batches, one batch after the other. -/
def batchRows (sourceUrns : List Urn) : List AggregatedRow :=
  (reads.batches sourceUrns).flatMap reads.runBatch

def mergedRows (sourceUrns : List Urn) : List AggregatedRow :=
  ((reads.batchRows sourceUrns).foldl (mergeByKey AggregatedRow.key AggregatedRow.merge)
    OrderedMap.empty).entries.map Prod.snd

def getAggregatedEdgesBetween (sourceUrns : List Urn) (lastMaterializedAt : Option String) :
    Except HTTPException AggregatedEdgeResult :=
  if sourceUrns.length > 100000 then
    .error ⟨413, "TOO_MANY_SOURCE_URNS", 100000, sourceUrns.length⟩
  else
    let rows := if sourceUrns.length > reads.batchSize then reads.mergedRows sourceUrns
      else reads.runBatch sourceUrns
    .ok (reads.rowsToAggregatedResult rows lastMaterializedAt)

/-- No query fails. -/
def Answers : Prop := ∀ sources, reads.query sources ≠ none

end AggregatedReads

/-- Source, target, edge count and set of edge types. -/
def AggregatedEdgeInfo.record (info : AggregatedEdgeInfo) : Urn × Urn × Int × Finset String :=
  (info.sourceUrn, info.targetUrn, info.edgeCount, info.edgeTypes.toFinset)

def AggregatedEdgeResult.records (result : AggregatedEdgeResult) :
    Finset (Urn × Urn × Int × Finset String) :=
  (result.aggregatedEdges.map AggregatedEdgeInfo.record).toFinset

namespace AggregatedReads

variable (reads : AggregatedReads)

/-- The batched read returns what one query for the whole list returns. -/
def BatchesLikeOne (sourceUrns : List Urn) (lastMaterializedAt : Option String) : Prop :=
  ∃ result, reads.getAggregatedEdgesBetween sourceUrns lastMaterializedAt = .ok result ∧
    result.records =
      (reads.rowsToAggregatedResult (reads.runBatch sourceUrns) lastMaterializedAt).records

/-- The batches in which a source is asked for. -/
def timesAsked (sourceUrns : List Urn) (source : Urn) : Nat :=
  (reads.batches sourceUrns).countP fun batch => source ∈ batch

/-- The AGGREGATED edges that a query for their source returns for a pair. -/
def parallel (pair : Pair) : List AggregatedRow :=
  reads.edges.filter fun row => reads.Matches row ∧ row.key = pair

/-- A pair gets one row, or its edges have the same edge types and count for one each, and
a weight of one arrives at most once. -/
def HarmlessAt (sourceUrns : List Urn) (pair : Pair) : Prop :=
  1 < reads.timesAsked sourceUrns pair.1 * (reads.parallel pair).length →
    (∀ first ∈ reads.parallel pair, ∀ second ∈ reads.parallel pair,
      first.types.toList.toFinset = second.types.toList.toFinset) ∧
    (∀ row ∈ reads.parallel pair, row.weightOrZero = 0 ∨ row.weightOrZero = 1) ∧
    reads.timesAsked sourceUrns pair.1 *
      (reads.parallel pair).countP (fun row => row.weightOrZero = 1) ≤ 1

def MergesHarmlessly (sourceUrns : List Urn) : Prop :=
  ∀ pair, reads.HarmlessAt sourceUrns pair

end AggregatedReads

namespace AggregatedRow

variable {row existing : AggregatedRow} {rows : List AggregatedRow}

theorem foldl_merge_key : (rows.foldl merge existing).key = existing.key := by
  induction rows generalizing existing with
  | nil => rfl
  | cons row rest ih =>
      rw [List.foldl_cons, ih]
      rfl

theorem foldl_merge_weight : (rows.foldl merge existing).weightOrZero =
    existing.weightOrZero + (rows.map weightOrZero).sum := by
  induction rows generalizing existing with
  | nil => simp
  | cons row rest ih =>
      have added : (existing.merge row).weightOrZero = existing.weightOrZero + row.weightOrZero :=
        rfl
      rw [List.foldl_cons, ih, added, List.map_cons, List.sum_cons, Int.add_assoc]

theorem mem_foldl_merge_types {edgeType : String} :
    edgeType ∈ (rows.foldl merge existing).types.toList ↔
      ∃ row ∈ existing :: rows, edgeType ∈ row.types.toList := by
  induction rows generalizing existing with
  | nil => simp
  | cons row rest ih =>
      have joined : edgeType ∈ (existing.merge row).types.toList ↔
          edgeType ∈ existing.types.toList ∨ edgeType ∈ row.types.toList := by
        simp [merge, EdgeTypes.toList, mem_addTypes]
      rw [List.foldl_cons, ih, List.exists_mem_cons_iff, joined, or_assoc,
        List.exists_mem_cons_iff, List.exists_mem_cons_iff]

end AggregatedRow

theorem sum_of_zero_or_one {weights : List Int}
    (bits : ∀ weight ∈ weights, weight = 0 ∨ weight = 1) : weights.sum = weights.count 1 := by
  induction weights with
  | nil => rfl
  | cons first rest ih =>
      obtain ⟨here, later⟩ := List.forall_mem_cons.mp bits
      rw [List.sum_cons, ih later, List.count_cons]
      rcases here with rfl | rfl
      · simp
      · simp [Int.add_comm]

theorem sum_of_constant {weights : List Int} {value : Int}
    (constant : ∀ weight ∈ weights, weight = value) : weights.sum = weights.length * value := by
  rw [List.eq_replicate_of_mem constant, List.sum_replicate, List.length_replicate,
    nsmul_eq_mul]

theorem countOf_ne_zero (weight : Int) : countOf weight ≠ 0 := by
  unfold countOf
  split <;> omega

theorem countOf_eq_one {weight : Int} : countOf weight = 1 ↔ weight = 0 ∨ weight = 1 := by
  unfold countOf
  split <;> omega

theorem countOf_eq {weight count : Int} (counted : countOf weight = count) (more : count ≠ 1) :
    weight = count := by
  unfold countOf at counted
  split at counted
  · exact absurd counted.symm more
  · exact counted

/-- The sum of several weights counts as each of them only for weights that count for one. -/
theorem countOf_sum_iff {weights : List Int} (several : 1 < weights.length) :
    (∀ weight ∈ weights, countOf weights.sum = countOf weight) ↔
      (∀ weight ∈ weights, weight = 0 ∨ weight = 1) ∧ weights.count 1 ≤ 1 := by
  constructor
  · intro alike
    by_cases one : countOf weights.sum = 1
    · have bits : ∀ weight ∈ weights, weight = 0 ∨ weight = 1 := fun weight member =>
        countOf_eq_one.mp ((alike weight member).symm.trans one)
      have total := countOf_eq_one.mp one
      rw [sum_of_zero_or_one bits] at total
      exact ⟨bits, by omega⟩
    · have constant : ∀ weight ∈ weights, weight = countOf weights.sum := fun weight member =>
        countOf_eq (alike weight member).symm one
      have total : weights.sum = countOf weights.sum := countOf_eq rfl one
      have multiple : weights.sum = weights.length * countOf weights.sum := sum_of_constant constant
      rw [← total] at multiple
      have nonzero : weights.sum ≠ 0 := total ▸ countOf_ne_zero _
      have single : (weights.length : Int) = 1 :=
        Int.eq_of_mul_eq_mul_right nonzero (multiple.symm.trans (Int.one_mul _).symm)
      omega
  · rintro ⟨bits, once⟩ weight member
    have total : countOf weights.sum = 1 := by
      rw [countOf_eq_one, sum_of_zero_or_one bits]
      omega
    rw [total, countOf_eq_one.mpr (bits weight member)]

namespace AggregatedRow

variable {row : AggregatedRow} {rows : List AggregatedRow}

/-- The row that a row is merged into. -/
def mergedInto (rows : List AggregatedRow) (row : AggregatedRow) : AggregatedRow :=
  mergedAt key merge rows row

theorem mergedInto_spec (arrived : row ∈ rows) :
    (mergedInto rows row).key = row.key ∧
      (mergedInto rows row).weightOrZero =
        ((rows.filter fun other => other.key = row.key).map weightOrZero).sum ∧
      ∀ edgeType, edgeType ∈ (mergedInto rows row).types.toList ↔
        ∃ other ∈ rows.filter fun other => other.key = row.key, edgeType ∈ other.types.toList := by
  have listed : row ∈ rows.filter fun other => other.key = row.key :=
    List.mem_filter.mpr ⟨arrived, decide_eq_true rfl⟩
  rw [mergedInto, mergedAt]
  cases same : rows.filter fun other => other.key = row.key with
  | nil =>
      rw [same] at listed
      cases listed
  | cons first rest =>
      have here : first.key = row.key := by
        have member : first ∈ rows.filter fun other => other.key = row.key :=
          same ▸ List.mem_cons_self
        exact of_decide_eq_true (List.mem_filter.mp member).2
      rw [combined_cons, Option.getD_some]
      exact ⟨foldl_merge_key.trans here, foldl_merge_weight, fun _ => mem_foldl_merge_types⟩

theorem mergedInto_single (single : (rows.filter fun other => other.key = row.key) = [row]) :
    mergedInto rows row = row := by
  rw [mergedInto, mergedAt, single]
  rfl

theorem key_of_record {first second : AggregatedRow}
    (same : first.toInfo.record = second.toInfo.record) : first.key = second.key := by
  obtain ⟨sources, rest⟩ := Prod.mk.inj same
  exact Prod.ext sources (Prod.mk.inj rest).1

theorem record_eq_iff {first second : AggregatedRow} (keys : first.key = second.key) :
    first.toInfo.record = second.toInfo.record ↔
      countOf first.weightOrZero = countOf second.weightOrZero ∧
        ∀ edgeType, edgeType ∈ first.types.toList ↔ edgeType ∈ second.types.toList := by
  obtain ⟨sources, targets⟩ : first.sUrn = second.sUrn ∧ first.tUrn = second.tUrn :=
    Prod.mk.inj keys
  simp [AggregatedEdgeInfo.record, toInfo, sources, targets, Finset.ext_iff]

/-- Several rows of a pair merge into a row like each of them only if they have the same types
and count for one. -/
theorem alike_iff (pair : Pair) :
    (∀ row ∈ rows, row.key = pair →
      (mergedInto rows row).toInfo.record = row.toInfo.record) ↔
      (1 < (rows.filter fun row => row.key = pair).length →
        (∀ first ∈ rows.filter fun row => row.key = pair,
          ∀ second ∈ rows.filter fun row => row.key = pair,
            first.types.toList.toFinset = second.types.toList.toFinset) ∧
        (∀ row ∈ rows.filter fun row => row.key = pair,
          row.weightOrZero = 0 ∨ row.weightOrZero = 1) ∧
        (rows.filter fun row => row.key = pair).countP (fun row => row.weightOrZero = 1) ≤ 1) := by
  generalize own : (rows.filter fun row => row.key = pair) = together
  have mem_together (row : AggregatedRow) : row ∈ together ↔ row ∈ rows ∧ row.key = pair := by
    rw [← own, List.mem_filter, decide_eq_true_iff]
  have each : (∀ row ∈ rows, row.key = pair →
      (mergedInto rows row).toInfo.record = row.toInfo.record) ↔
      ∀ row ∈ together, (mergedInto rows row).toInfo.record = row.toInfo.record := by
    simp only [mem_together, and_imp]
  rw [each]
  by_cases several : 1 < together.length
  · have described (row : AggregatedRow) (member : row ∈ together) :
        (mergedInto rows row).toInfo.record = row.toInfo.record ↔
          countOf (together.map weightOrZero).sum = countOf row.weightOrZero ∧
            ∀ edgeType, (∃ other ∈ together, edgeType ∈ other.types.toList) ↔
              edgeType ∈ row.types.toList := by
      obtain ⟨arrived, here⟩ := (mem_together row).mp member
      obtain ⟨keys, weight, types⟩ := mergedInto_spec arrived
      rw [here, own] at weight types
      simp only [record_eq_iff keys, weight, types]
    have weights := @countOf_sum_iff (together.map weightOrZero)
      (several.trans_eq (List.length_map _).symm)
    rw [List.forall_mem_map, List.forall_mem_map, List.count, List.countP_map] at weights
    rw [forall₂_congr described, forall₂_and, weights, and_comm, imp_iff_right several]
    refine and_congr ⟨fun alike first inFirst second inSecond => ?_,
      fun alike row member edgeType => ?_⟩ Iff.rfl
    · ext edgeType
      rw [List.mem_toFinset, List.mem_toFinset, ← alike first inFirst, ← alike second inSecond]
    · refine ⟨fun ⟨other, inOther, typed⟩ => ?_, fun typed => ⟨row, member, typed⟩⟩
      rwa [← List.mem_toFinset, alike row member other inOther, List.mem_toFinset]
  · refine iff_of_true (fun row member => ?_) fun more => absurd more several
    have single : together = [row] := by
      cases together with
      | nil => cases member
      | cons first rest =>
          obtain rfl : rest = [] :=
            List.length_eq_zero_iff.mp (by rw [List.length_cons] at several; omega)
          rw [List.mem_singleton.mp member]
    obtain ⟨-, here⟩ := (mem_together row).mp member
    rw [mergedInto_single (here ▸ own.trans single)]

end AggregatedRow

namespace AggregatedReads

variable {reads : AggregatedReads} {sourceUrns : List Urn}

theorem runBatch_perm (answers : reads.Answers) (sources : List Urn) :
    (reads.runBatch sources).Perm
      (reads.edges.filter fun row => row.sUrn ∈ sources ∧ reads.Matches row) := by
  cases answer : reads.query sources with
  | none => exact absurd answer (answers sources)
  | some rows =>
      rw [runBatch, answer]
      exact reads.answered sources rows answer

theorem countP_batch (answers : reads.Answers) (sources : List Urn) (pair : Pair)
    (test : AggregatedRow → Bool) :
    ((reads.runBatch sources).filter fun row => row.key = pair).countP test =
      if pair.1 ∈ sources then (reads.parallel pair).countP test else 0 := by
  rw [((reads.runBatch_perm answers sources).filter _).countP_eq, List.filter_filter]
  split
  · rename_i asked
    rw [parallel]
    congr 1
    refine List.filter_congr fun row _ => ?_
    have source : row.key = pair → row.sUrn ∈ sources := by
      rintro rfl
      exact asked
    simp only [← Bool.decide_and, decide_eq_decide]
    exact ⟨fun ⟨here, _, fits⟩ => ⟨fits, here⟩, fun ⟨fits, here⟩ => ⟨here, source here, fits⟩⟩
  · rename_i notAsked
    rw [List.countP_eq_zero]
    intro row member
    have ⟨here, asked, _⟩ : row.key = pair ∧ row.sUrn ∈ sources ∧ reads.Matches row := by
      simpa using (List.mem_filter.mp member).2
    subst here
    exact absurd asked notAsked

/-- Every edge of a pair arrives as often as its source is asked for. -/
theorem countP_batchRows (answers : reads.Answers) (pair : Pair) (test : AggregatedRow → Bool) :
    ((reads.batchRows sourceUrns).filter fun row => row.key = pair).countP test =
      reads.timesAsked sourceUrns pair.1 * (reads.parallel pair).countP test := by
  unfold batchRows timesAsked
  induction reads.batches sourceUrns with
  | nil => simp
  | cons batch rest ih =>
      rw [List.flatMap_cons, List.filter_append, List.countP_append, ih, countP_batch answers,
        List.countP_cons, Nat.add_mul, Nat.add_comm]
      congr 1
      split
      · rename_i asked
        simp [asked]
      · rename_i notAsked
        simp [notAsked]

theorem length_batchRows (answers : reads.Answers) (pair : Pair) :
    ((reads.batchRows sourceUrns).filter fun row => row.key = pair).length =
      reads.timesAsked sourceUrns pair.1 * (reads.parallel pair).length := by
  have counted := @countP_batchRows _ sourceUrns answers pair fun _ => true
  rwa [List.countP_true] at counted

theorem timesAsked_pos {source : Urn} :
    0 < reads.timesAsked sourceUrns source ↔ source ∈ sourceUrns := by
  have covered := flatten_chunks sourceUrns reads.batch_positive
  rw [timesAsked, List.countP_pos_iff, batches]
  conv_rhs => rw [← covered, List.mem_flatten]
  simp

theorem mem_batchRows_key (answers : reads.Answers) {pair : Pair} {row : AggregatedRow} :
    (row ∈ (reads.batchRows sourceUrns).filter fun row => row.key = pair) ↔
      pair.1 ∈ sourceUrns ∧ row ∈ reads.parallel pair := by
  have counted : ((reads.batchRows sourceUrns).filter fun row => row.key = pair).count row =
      reads.timesAsked sourceUrns pair.1 * (reads.parallel pair).count row :=
    countP_batchRows answers pair (· == row)
  rw [← List.count_pos_iff, counted, Nat.pos_iff_ne_zero, Nat.mul_ne_zero_iff,
    ← Nat.pos_iff_ne_zero, ← Nat.pos_iff_ne_zero, timesAsked_pos, List.count_pos_iff]

theorem mem_runBatch (answers : reads.Answers) {row : AggregatedRow} :
    row ∈ reads.runBatch sourceUrns ↔ row ∈ reads.batchRows sourceUrns := by
  have arrived : row ∈ reads.batchRows sourceUrns ↔
      row.sUrn ∈ sourceUrns ∧ row ∈ reads.parallel row.key := by
    have own : (row ∈ (reads.batchRows sourceUrns).filter fun other => other.key = row.key) ↔ _ :=
      mem_batchRows_key answers
    rw [List.mem_filter] at own
    exact (and_iff_left (decide_eq_true rfl)).symm.trans own
  rw [(reads.runBatch_perm answers sourceUrns).mem_iff, arrived]
  simp only [parallel, List.mem_filter, Bool.decide_and, Bool.and_eq_true, decide_eq_true_eq,
    and_true]
  exact and_left_comm

/-- The batched read returns what one query would exactly when every row that arrives is
described as the row it is merged into. -/
theorem records_eq_iff (answers : reads.Answers) (lastMaterializedAt : Option String) :
    (reads.rowsToAggregatedResult (reads.mergedRows sourceUrns) lastMaterializedAt).records =
        (reads.rowsToAggregatedResult (reads.runBatch sourceUrns) lastMaterializedAt).records ↔
      ∀ row ∈ reads.batchRows sourceUrns,
        (AggregatedRow.mergedInto (reads.batchRows sourceUrns) row).toInfo.record =
          row.toInfo.record := by
  have exact := @described_iff _ _ _ AggregatedRow.key AggregatedRow.merge _
    (fun row : AggregatedRow => row.toInfo.record) (reads.batchRows sourceUrns)
    (fun _ _ => AggregatedRow.key_of_record)
    fun _ arrived => (AggregatedRow.mergedInto_spec arrived).1
  refine Iff.trans ?_ exact
  rw [Finset.ext_iff]
  refine forall_congr' fun record => ?_
  simp [AggregatedEdgeResult.records, rowsToAggregatedResult, mergedRows, mem_runBatch answers]

/-- What arrives for a pair merges into a row like each of them exactly when the merge is
harmless there. -/
theorem alike_iff (answers : reads.Answers) (pair : Pair) :
    (∀ row ∈ reads.batchRows sourceUrns, row.key = pair →
      (AggregatedRow.mergedInto (reads.batchRows sourceUrns) row).toInfo.record =
        row.toInfo.record) ↔ reads.HarmlessAt sourceUrns pair := by
  rw [AggregatedRow.alike_iff, length_batchRows answers, countP_batchRows answers]
  refine forall_congr' fun several => ?_
  have asked : pair.1 ∈ sourceUrns := by
    have some : 0 < reads.timesAsked sourceUrns pair.1 :=
      Nat.pos_of_ne_zero fun never => by simp [never] at several
    exact timesAsked_pos.mp some
  have arrives (row : AggregatedRow) :
      (row ∈ (reads.batchRows sourceUrns).filter fun row => row.key = pair) ↔
        row ∈ reads.parallel pair :=
    (mem_batchRows_key answers).trans (and_iff_right asked)
  simp only [arrives]

theorem getAggregatedEdgesBetween_batches_iff (answers : reads.Answers)
    (long : reads.batchSize < sourceUrns.length) (allowed : sourceUrns.length ≤ 100000)
    (lastMaterializedAt : Option String) :
    reads.BatchesLikeOne sourceUrns lastMaterializedAt ↔ reads.MergesHarmlessly sourceUrns := by
  have returned : reads.getAggregatedEdgesBetween sourceUrns lastMaterializedAt =
      .ok (reads.rowsToAggregatedResult (reads.mergedRows sourceUrns) lastMaterializedAt) := by
    rw [getAggregatedEdgesBetween, if_neg (Nat.not_lt.mpr allowed), if_pos long]
  have reduced : reads.BatchesLikeOne sourceUrns lastMaterializedAt ↔
      (reads.rowsToAggregatedResult (reads.mergedRows sourceUrns) lastMaterializedAt).records =
        (reads.rowsToAggregatedResult (reads.runBatch sourceUrns) lastMaterializedAt).records := by
    simp only [BatchesLikeOne, returned, Except.ok.injEq, exists_eq_left']
  rw [reduced, records_eq_iff answers, MergesHarmlessly]
  simp only [← alike_iff answers]
  exact ⟨fun alike _ row arrived _ => alike row arrived,
    fun alike row arrived => alike row.key row arrived rfl⟩

/-! A source that is named in two batches has its edge of weight 2 counted twice. -/

def doubled : AggregatedReads where
  edges := [⟨"orders", "report", some 2, .list ["FLOWS_TO"]⟩]
  targetUrns := none
  query sources := some (([⟨"orders", "report", some 2, .list ["FLOWS_TO"]⟩] :
    List AggregatedRow).filter fun row => row.sUrn ∈ sources ∧ (([] : List Urn) = [] ∨
      row.tUrn ∈ ([] : List Urn)) ∧ row.sUrn ≠ row.tUrn)
  batchSize := 1
  resultCap := 100000
  batch_positive := Nat.one_pos
  answered sources answer found := by
    cases found
    exact List.Perm.refl _

theorem doubled_weight : ¬ doubled.BatchesLikeOne ["orders", "orders"] none := by
  rintro ⟨result, returned, same⟩
  cases returned
  exact absurd same (by decide)

theorem doubled_batches_iff : doubled.BatchesLikeOne ["orders", "customers"] none ↔
    doubled.MergesHarmlessly ["orders", "customers"] :=
  getAggregatedEdgesBetween_batches_iff (fun _ => Option.some_ne_none _) (by decide) (by decide)
    none

end AggregatedReads

end Univiz.Falkor

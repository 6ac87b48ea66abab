import Mathlib.Data.List.Perm.Subperm
import Univiz.LevelTrace.Graph

namespace Univiz.LevelTrace

open Univiz.Trace

/-! `_expand_aggregated_set`: the queries of one expansion, and the merge of their rows. -/

/-- The level of each entity type, the degree cap, and two methods of strings. -/
structure ProviderConfig where
  entityTypeLevels : List (String × Int)
  degreeCap : Nat
  upper : String → String
  isAlnum : Char → Bool

namespace ProviderConfig

variable (config : ProviderConfig)

def sanitizeLabel (label : String) : String :=
  label.map fun c => if config.isAlnum c ∨ c = '_' then c else '_'

def typesAtLevel (level : Int) : List String :=
  (config.entityTypeLevels.filter fun entry => entry.2 = level).map Prod.fst

def getNodeLevel (entityType : String) : Option Int :=
  config.entityTypeLevels.lookup entityType

variable (direction : Direction) (level : Int) (lineageTypes : List String) (defaultPeer : String)

/-- The peers of the aggregated branch. -/
def aggregatedPeers (peer : String) : PeerFilter :=
  if config.entityTypeLevels ≠ [] ∧ 0 ≤ level then .atLevel level
  else if config.typesAtLevel level ≠ [] then .ofTypes (config.typesAtLevel level)
  else .labelled peer

/-- Relationships of raw lineage have no levels. -/
def rawPeers (peer : String) : PeerFilter :=
  if config.typesAtLevel level ≠ [] then .ofTypes (config.typesAtLevel level) else .labelled peer

/-- The queries for the frontier nodes of one label.  Without a label and a default there is
none. -/
def bucketQueries (label : String) (urns : List Urn) : List SubQuery :=
  let ownLabel := config.sanitizeLabel label
  let peer := if ownLabel = "" then config.sanitizeLabel defaultPeer else ownLabel
  if peer = "" then []
  else
    let aggregated : SubQuery :=
      { direction := direction, label := ownLabel, frontier := urns, relTypes := ["AGGREGATED"],
        peers := config.aggregatedPeers level peer, sourceTypes := lineageTypes }
    let raw : SubQuery :=
      { direction := direction, label := ownLabel, frontier := urns,
        relTypes := lineageTypes.map config.sanitizeLabel, peers := config.rawPeers level peer,
        sourceTypes := [] }
    if lineageTypes = [] then [aggregated] else [aggregated, raw]

/-- One bucket for each label of the frontier. -/
def subQueries (frontier : List Urn) (label : Urn → String) : List SubQuery :=
  (frontier.map label).dedup.flatMap fun bucket =>
    config.bucketQueries direction level lineageTypes defaultPeer bucket
      (frontier.filter fun urn => label urn = bucket)

end ProviderConfig

/-- The record of a row.  A weight of zero and an empty list of types count as missing when
the edge is built. -/
def frontierRecord (direction : Direction) (row : Relationship) (weight : Nat) :
    FrontierRecord where
  edgeId := toString row.id
  sourceUrn := row.source.urn
  targetUrn := row.target.urn
  newUrn := (row.far direction).urn
  edgeType := row.type
  weight := if weight = 0 then 1 else weight
  sourceEdgeTypes :=
    match row.sourceEdgeTypes with
    | some (type :: types) => type :: types
    | _ => [row.type]
  newNode := (row.far direction).graphNode

/-- The loop over the rows, with the ids seen and the records so far.  It returns as soon as
it has as many records as the limit. -/
def mergeRows (direction : Direction) (limit : Nat) :
    List Relationship → List Nat → List FrontierRecord → List FrontierRecord
  | [], _, out => out
  | row :: rows, seen, out =>
      if row.id ∈ seen then mergeRows direction limit rows seen out
      else
        match row.weight.read with
        | none => mergeRows direction limit rows (row.id :: seen) out
        | some weight =>
            let records := out ++ [frontierRecord direction row weight]
            if limit ≤ records.length then records
            else mergeRows direction limit rows (row.id :: seen) records

/-- What the database answers to a query with a limit, unless it raises. -/
abbrev Replies := SubQuery → Nat → Option (List Relationship)

/-- A query that raises counts as one without rows. -/
def expandAggregatedSet (config : ProviderConfig) (replies : Replies) (frontier : List Urn)
    (label : Urn → String) (direction : Direction) (level : Int) (lineageTypes : List String)
    (limit : Nat) (defaultPeer : String) : List FrontierRecord :=
  if frontier = [] ∨ limit = 0 then []
  else
    mergeRows direction limit
      ((config.subQueries direction level lineageTypes defaultPeer frontier label).flatMap
        fun query => (replies query limit).getD []) [] []

/-- The first row of each id that has not been seen. -/
def firstRows : List Nat → List Relationship → List Relationship
  | _, [] => []
  | seen, row :: rows =>
      if row.id ∈ seen then firstRows seen rows else row :: firstRows (row.id :: seen) rows

/-- The rows that `mergeRows` makes records of: one of each id, with a weight that can be
read, and no more than the limit. -/
def keptRows (limit : Nat) (rows : List Relationship) : List Relationship :=
  ((firstRows [] rows).filter fun row => row.weight.read.isSome).take limit

def readRecord (direction : Direction) (row : Relationship) : Option FrontierRecord :=
  row.weight.read.map (frontierRecord direction row)

theorem mergeRows_eq (direction : Direction) {limit : Nat} (rows : List Relationship)
    (seen : List Nat) {out : List FrontierRecord} (room : out.length < limit) :
    mergeRows direction limit rows seen out =
      out ++ ((firstRows seen rows).filterMap (readRecord direction)).take
        (limit - out.length) := by
  induction rows generalizing seen out with
  | nil => simp [mergeRows, firstRows]
  | cons row rows ih =>
      simp only [mergeRows, firstRows]
      by_cases known : row.id ∈ seen
      · rw [if_pos known, if_pos known]
        exact ih seen room
      · rw [if_neg known, if_neg known]
        cases read : row.weight.read with
        | none =>
            have dropped : readRecord direction row = none := by rw [readRecord, read]; rfl
            rw [List.filterMap_cons_none dropped]
            exact ih (row.id :: seen) room
        | some weight =>
            have kept : readRecord direction row = some (frontierRecord direction row weight) := by
              rw [readRecord, read]
              rfl
            have longer : (out ++ [frontierRecord direction row weight]).length =
                out.length + 1 := List.length_append
            have left : limit - out.length = limit - (out.length + 1) + 1 := by omega
            rw [List.filterMap_cons_some kept, left, List.take_succ_cons]
            simp only []
            split
            · have full : limit - (out.length + 1) = 0 := by omega
              rw [full, List.take_zero]
            · rw [ih (row.id :: seen) (by omega), longer, List.append_assoc]
              rfl

theorem filterMap_readRecord_map {γ : Type} (direction : Direction) {view : FrontierRecord → γ}
    {value : Relationship → γ}
    (same : ∀ row weight, view (frontierRecord direction row weight) = value row)
    (rows : List Relationship) (limit : Nat) :
    ((rows.filterMap (readRecord direction)).take limit).map view =
      ((rows.filter fun row => row.weight.read.isSome).take limit).map value := by
  induction rows generalizing limit with
  | nil => rw [List.filterMap_nil, List.filter_nil, List.take_nil, List.take_nil]; rfl
  | cons row rows ih =>
      cases read : row.weight.read with
      | none =>
          have dropped : readRecord direction row = none := by rw [readRecord, read]; rfl
          rw [List.filterMap_cons_none dropped, List.filter_cons_of_neg (by simp [read])]
          exact ih limit
      | some weight =>
          have kept : readRecord direction row = some (frontierRecord direction row weight) := by
            rw [readRecord, read]
            rfl
          rw [List.filterMap_cons_some kept, List.filter_cons_of_pos (by simp [read])]
          cases limit with
          | zero => rfl
          | succ limit =>
              rw [List.take_succ_cons, List.take_succ_cons, List.map_cons, List.map_cons, ih, same]

/-- What the records of an expansion show of the rows that are kept. -/
theorem expandAggregatedSet_map {γ : Type} (config : ProviderConfig) (replies : Replies)
    {frontier : List Urn} (label : Urn → String) (direction : Direction) (level : Int)
    (lineageTypes : List String) {limit : Nat} (defaultPeer : String) (asked : frontier ≠ [])
    (room : 0 < limit) {view : FrontierRecord → γ} {value : Relationship → γ}
    (same : ∀ row weight, view (frontierRecord direction row weight) = value row) :
    (expandAggregatedSet config replies frontier label direction level lineageTypes limit
        defaultPeer).map view =
      (keptRows limit ((config.subQueries direction level lineageTypes defaultPeer frontier
        label).flatMap fun query => (replies query limit).getD [])).map value := by
  have running : ¬ (frontier = [] ∨ limit = 0) := by
    rintro (none | zero)
    · exact asked none
    · omega
  rw [expandAggregatedSet, if_neg running, mergeRows_eq direction _ [] (by exact room),
    List.nil_append, List.length_nil, Nat.sub_zero, keptRows, filterMap_readRecord_map direction
    same]

theorem mem_expandAggregatedSet_ids (config : ProviderConfig) (replies : Replies)
    {frontier : List Urn} (label : Urn → String) (direction : Direction) (level : Int)
    (lineageTypes : List String) {limit : Nat} (defaultPeer : String) (asked : frontier ≠ [])
    (room : 0 < limit) (id : String) :
    (∃ record ∈ expandAggregatedSet config replies frontier label direction level lineageTypes
        limit defaultPeer, record.edgeId = id) ↔
      ∃ row ∈ keptRows limit
        ((config.subQueries direction level lineageTypes defaultPeer frontier label).flatMap
          fun query => (replies query limit).getD []), toString row.id = id := by
  simp only [← List.mem_map]
  have ids : ∀ row weight, (frontierRecord direction row weight).edgeId = toString row.id :=
    fun row weight => rfl
  rw [expandAggregatedSet_map config replies label direction level lineageTypes defaultPeer asked
    room ids]

theorem mem_firstRows {seen : List Nat} {rows : List Relationship} {id : Nat}
    (fresh : id ∉ seen) :
    (∃ row ∈ firstRows seen rows, row.id = id) ↔ ∃ row ∈ rows, row.id = id := by
  induction rows generalizing seen with
  | nil => rfl
  | cons row rows ih =>
      rw [firstRows, List.exists_mem_cons_iff]
      by_cases known : row.id ∈ seen
      · have other : row.id ≠ id := fun same => fresh (same ▸ known)
        rw [if_pos known, ih fresh]
        exact (or_iff_right other).symm
      · rw [if_neg known, List.exists_mem_cons_iff]
        by_cases same : row.id = id
        · simp only [same, true_or]
        · simp only [same, false_or]
          refine ih ?_
          intro member
          rcases List.mem_cons.mp member with rfl | before
          · exact same rfl
          · exact fresh before

theorem firstRows_subset {seen : List Nat} {rows : List Relationship} :
    firstRows seen rows ⊆ rows := by
  induction rows generalizing seen with
  | nil => exact List.Subset.refl _
  | cons row rows ih =>
      rw [firstRows]
      split
      · exact fun other member => List.mem_cons_of_mem _ (ih member)
      · intro other member
        rcases List.mem_cons.mp member with rfl | rest
        · exact List.mem_cons_self
        · exact List.mem_cons_of_mem _ (ih rest)

theorem firstRows_nodup (seen : List Nat) (rows : List Relationship) :
    ((firstRows seen rows).map Relationship.id).Nodup ∧
      ∀ row ∈ firstRows seen rows, row.id ∉ seen := by
  induction rows generalizing seen with
  | nil => exact ⟨List.nodup_nil, fun row none => absurd none List.not_mem_nil⟩
  | cons row rows ih =>
      rw [firstRows]
      split
      · exact ih seen
      · rename_i fresh
        obtain ⟨nodup, apart⟩ := ih (row.id :: seen)
        refine ⟨?_, ?_⟩
        · rw [List.map_cons, List.nodup_cons]
          refine ⟨?_, nodup⟩
          intro member
          obtain ⟨other, listed, same⟩ := List.mem_map.mp member
          exact apart other listed (same ▸ List.mem_cons_self)
        · intro other member
          rcases List.mem_cons.mp member with rfl | rest
          · exact fresh
          · exact fun before => apart other rest (List.mem_cons_of_mem _ before)

theorem firstRows_length (rows : List Relationship) :
    (firstRows [] rows).length = (rows.map Relationship.id).dedup.length := by
  have perm : ((firstRows [] rows).map Relationship.id).Perm
      (rows.map Relationship.id).dedup := by
    refine (List.perm_ext_iff_of_nodup (firstRows_nodup [] rows).1 (List.nodup_dedup _)).mpr ?_
    intro id
    rw [List.mem_dedup, List.mem_map, List.mem_map]
    exact mem_firstRows List.not_mem_nil
  rw [← perm.length_eq, List.length_map]

/-- If all weights can be read, one row of each id is kept, up to the limit. -/
theorem keptRows_length {limit : Nat} {rows : List Relationship}
    (readable : ∀ row ∈ rows, row.weight.read.isSome = true) :
    (keptRows limit rows).length = min limit (rows.map Relationship.id).dedup.length := by
  have all : (firstRows [] rows).filter (fun row => row.weight.read.isSome) =
      firstRows [] rows :=
    List.filter_eq_self.mpr fun other listed => readable other (firstRows_subset listed)
  rw [keptRows, all, List.length_take, firstRows_length]

theorem keptRows_nodup (limit : Nat) (rows : List Relationship) :
    ((keptRows limit rows).map Relationship.id).Nodup :=
  (firstRows_nodup [] rows).1.sublist
    (((List.take_sublist limit _).trans List.filter_sublist).map Relationship.id)

theorem keptRows_subset (limit : Nat) (rows : List Relationship) : keptRows limit rows ⊆ rows :=
  fun _ member => firstRows_subset (List.mem_of_mem_filter (List.mem_of_mem_take member))

/-- If all weights can be read and there are no more ids than the limit, no row is lost. -/
theorem mem_keptRows {limit : Nat} {rows : List Relationship} {row : Relationship}
    (member : row ∈ rows) (readable : ∀ row ∈ rows, row.weight.read.isSome = true)
    (fits : (rows.map Relationship.id).dedup.length ≤ limit) :
    ∃ kept ∈ keptRows limit rows, kept.id = row.id := by
  have all : (firstRows [] rows).filter (fun row => row.weight.read.isSome) =
      firstRows [] rows :=
    List.filter_eq_self.mpr fun other listed => readable other (firstRows_subset listed)
  have short : (firstRows [] rows).length ≤ limit := by
    rwa [firstRows_length]
  rw [keptRows, all, List.take_of_length_le short]
  exact (mem_firstRows List.not_mem_nil).mpr ⟨row, member, rfl⟩

end Univiz.LevelTrace

import Mathlib.Data.List.Lex
import Mathlib.Data.List.Sort
import Univiz.Data.OrderedMap

namespace Univiz.AggregatedLineage

open Univiz.Data

/-! The requests of `useAggregatedLineage`, their results, and the keys of its cache. -/

structure AggregatedEdgeInfo (α : Type) where
  id : String
  details : α
deriving DecidableEq

/-- An optional field may be missing, and a nullable one null. -/
structure AggregatedEdgeResult (α : Type) where
  aggregatedEdges : List (AggregatedEdgeInfo α)
  totalSourceEdges : Option Nat
  truncated : Option Bool
  lastMaterializedAt : Option (Option String)
  materializationTriggered : Option Bool
deriving DecidableEq

/-- A provider stands for the graph of one workspace. -/
structure AggregatedEdgeRequest (ρ : Type) where
  provider : ρ
  sourceUrns : List String
  targetUrns : Option (List String)
  granularity : Option String
deriving DecidableEq

/-- What a promise has settled with: a value, or the message if the reason is an error. -/
abbrev SettledResult (α : Type) := Except (Option String) (AggregatedEdgeResult α)

def aggregatedFetchBatchSize : Nat := 500

def cacheMaxEntries : Nat := 200

def chunks (sourceUrns : List String) : List (List String) :=
  if sourceUrns.length > aggregatedFetchBatchSize then
    (List.range ((sourceUrns.length + aggregatedFetchBatchSize - 1) / aggregatedFetchBatchSize)).map
      fun i => (sourceUrns.drop (i * aggregatedFetchBatchSize)).take aggregatedFetchBatchSize
  else [sourceUrns]

/-- The UTF-16 code units of a text. -/
def codeUnits (text : String) : List Nat :=
  text.toList.flatMap fun char =>
    if char.toNat < 0x10000 then [char.toNat]
    else [0xD800 + (char.toNat - 0x10000) / 0x400, 0xDC00 + (char.toNat - 0x10000) % 0x400]

def fnv1a64 (input : String) : String :=
  String.ofList (Nat.toDigits 16 ((codeUnits input).foldl
    (fun hash unit => ((hash ^^^ unit) * 0x100000001b3) % 2 ^ 64) 0xcbf29ce484222325))

/-- What is hashed of a list of urns. -/
def joined (urns : List String) : String :=
  String.join (urns.insertionSort fun a b => codeUnits a ≤ codeUnits b)

def targetHash : Option (List String) → String
  | none => "0"
  | some targetUrns => fnv1a64 (joined targetUrns)

section Keys

variable {ρ : Type}

namespace AggregatedEdgeRequest

def granularityText (request : AggregatedEdgeRequest ρ) : String :=
  request.granularity.getD "null"

def getCacheKey (request : AggregatedEdgeRequest ρ) : String :=
  request.granularityText ++ ":" ++ fnv1a64 (joined request.sourceUrns) ++ ":" ++
    targetHash request.targetUrns

/-- The cache sees no difference between the requests as long as the hash has no collision. -/
structure Alike (request other : AggregatedEdgeRequest ρ) : Prop where
  granularity : request.granularityText = other.granularityText
  sources : joined request.sourceUrns = joined other.sourceUrns
  targets : request.targetUrns.map joined = other.targetUrns.map joined

def SameUrns (urns others : List String) : Prop := urns ⊆ others ∧ others ⊆ urns

def SameTargets : Option (List String) → Option (List String) → Prop
  | none, none => True
  | some targetUrns, some others => SameUrns targetUrns others
  | none, some _ | some _, none => False

/-- The requests ask one provider for the same sets of urns. -/
structure Same (request other : AggregatedEdgeRequest ρ) : Prop where
  provider : request.provider = other.provider
  granularity : request.granularity = other.granularity
  sources : SameUrns request.sourceUrns other.sourceUrns
  targets : SameTargets request.targetUrns other.targetUrns

/-- No two different texts of the requests have the same hash. -/
structure Distinguished (request other : AggregatedEdgeRequest ρ) : Prop where
  sources : fnv1a64 (joined request.sourceUrns) = fnv1a64 (joined other.sourceUrns) →
    joined request.sourceUrns = joined other.sourceUrns
  targets : targetHash request.targetUrns = targetHash other.targetUrns →
    request.targetUrns.map joined = other.targetUrns.map joined

instance : DecidableRel SameUrns := fun _ _ => inferInstanceAs (Decidable (_ ∧ _))

instance : DecidableRel SameTargets
  | none, none => isTrue trivial
  | some _, some _ => inferInstanceAs (Decidable (SameUrns _ _))
  | none, some _ | some _, none => isFalse id

instance : DecidableRel (@Alike ρ) := fun request other =>
  decidable_of_iff (request.granularityText = other.granularityText ∧
    joined request.sourceUrns = joined other.sourceUrns ∧
    request.targetUrns.map joined = other.targetUrns.map joined)
    ⟨fun ⟨granularity, sources, targets⟩ => ⟨granularity, sources, targets⟩,
      fun alike => ⟨alike.granularity, alike.sources, alike.targets⟩⟩

instance [DecidableEq ρ] : DecidableRel (@Same ρ) := fun request other =>
  decidable_of_iff (request.provider = other.provider ∧ request.granularity = other.granularity ∧
    SameUrns request.sourceUrns other.sourceUrns ∧
    SameTargets request.targetUrns other.targetUrns)
    ⟨fun ⟨provider, granularity, sources, targets⟩ => ⟨provider, granularity, sources, targets⟩,
      fun same => ⟨same.provider, same.granularity, same.sources, same.targets⟩⟩

instance : DecidableRel (@Distinguished ρ) := fun request other =>
  decidable_of_iff ((fnv1a64 (joined request.sourceUrns) = fnv1a64 (joined other.sourceUrns) →
      joined request.sourceUrns = joined other.sourceUrns) ∧
    (targetHash request.targetUrns = targetHash other.targetUrns →
      request.targetUrns.map joined = other.targetUrns.map joined))
    ⟨fun ⟨sources, targets⟩ => ⟨sources, targets⟩,
      fun distinguished => ⟨distinguished.sources, distinguished.targets⟩⟩

end AggregatedEdgeRequest

theorem colon_notMem_toDigits (value : Nat) : ':' ∉ Nat.toDigits 16 value := by
  have digit {small : Nat} (below : small < 16) : small.digitChar ≠ ':' := by
    revert small
    decide
  induction value using Nat.strongRecOn with
  | ind value ih =>
      rw [Nat.toDigits_eq_if (by decide)]
      split
      · rename_i below
        exact List.not_mem_cons_of_ne_of_not_mem (digit below).symm List.not_mem_nil
      · rename_i above
        intro member
        rcases List.mem_append.mp member with front | last
        · exact ih _ (by omega) front
        · exact digit (Nat.mod_lt _ (by decide)) (List.mem_singleton.mp last).symm

theorem colon_notMem_fnv1a64 (input : String) : ':' ∉ (fnv1a64 input).toList := by
  rw [fnv1a64, String.toList_ofList]
  exact colon_notMem_toDigits _

theorem colon_notMem_targetHash (targetUrns : Option (List String)) :
    ':' ∉ (targetHash targetUrns).toList := by
  cases targetUrns with
  | none => decide
  | some targetUrns => exact colon_notMem_fnv1a64 _

/-- A list can be split again at the last separator. -/
theorem append_cons_inj {β : Type} {separator : β} {front front' back back' : List β}
    (plain : separator ∉ back) (plain' : separator ∉ back')
    (same : front ++ separator :: back = front' ++ separator :: back') :
    front = front' ∧ back = back' := by
  rcases List.append_eq_append_iff.mp same with ⟨more, longer, rest⟩ | ⟨more, longer, rest⟩
  · cases more with
    | nil =>
        rw [List.append_nil] at longer
        exact ⟨longer.symm, List.tail_eq_of_cons_eq rest⟩
    | cons first more =>
        refine absurd ?_ plain
        rw [List.tail_eq_of_cons_eq rest]
        exact List.mem_append_right _ List.mem_cons_self
  · cases more with
    | nil =>
        rw [List.append_nil] at longer
        exact ⟨longer, (List.tail_eq_of_cons_eq rest).symm⟩
    | cons first more =>
        refine absurd ?_ plain'
        rw [List.tail_eq_of_cons_eq rest]
        exact List.mem_append_right _ List.mem_cons_self

/-- Requests with one key look alike, apart from collisions. -/
theorem alike_of_getCacheKey {request other : AggregatedEdgeRequest ρ}
    (distinguished : request.Distinguished other)
    (same : request.getCacheKey = other.getCacheKey) : request.Alike other := by
  have shape (request : AggregatedEdgeRequest ρ) : request.getCacheKey.toList =
      (request.granularityText.toList ++ ':' :: (fnv1a64 (joined request.sourceUrns)).toList) ++
        ':' :: (targetHash request.targetUrns).toList := by
    simp [AggregatedEdgeRequest.getCacheKey]
  have keys := congrArg String.toList same
  rw [shape, shape] at keys
  obtain ⟨fronts, targets⟩ := append_cons_inj (colon_notMem_targetHash _)
    (colon_notMem_targetHash _) keys
  obtain ⟨granularity, sources⟩ := append_cons_inj (colon_notMem_fnv1a64 _)
    (colon_notMem_fnv1a64 _) fronts
  exact ⟨String.toList_injective granularity,
    distinguished.sources (String.toList_injective sources),
    distinguished.targets (String.toList_injective targets)⟩

end Keys

section Results

variable {α : Type}

def fulfilled (settled : List (SettledResult α)) : List (AggregatedEdgeResult α) :=
  settled.filterMap Except.toOption

def rejected (settled : List (SettledResult α)) : List (Option String) :=
  settled.filterMap fun
    | .error reason => some reason
    | .ok _ => none

/-- The oldest of the times, where a missing one says nothing and any text replaces null. -/
def mergeLastMaterializedAt :
    Option (Option String) → Option (Option String) → Option (Option String)
  | merged, none => merged
  | none, some time => some time
  | some none, some time => some time
  | some (some merged), some (some time) =>
      if time ≠ "" ∧ time < merged then some (some time) else some (some merged)
  | some (some merged), some none => some (some merged)

abbrev EdgesById (α : Type) := OrderedMap String (AggregatedEdgeInfo α)

/-- Later edges of an id replace earlier ones. -/
def addEdges (edges : EdgesById α) (aggregatedEdges : List (AggregatedEdgeInfo α)) : EdgesById α :=
  aggregatedEdges.foldl (fun edges agg => edges.set agg.id agg) edges

def mergedEdgesById (results : List (AggregatedEdgeResult α)) : EdgesById α :=
  results.foldl (fun edges result => addEdges edges result.aggregatedEdges) .empty

def mergeResults (results : List (AggregatedEdgeResult α)) : AggregatedEdgeResult α where
  aggregatedEdges := (mergedEdgesById results).entries.map Prod.snd
  totalSourceEdges := some (results.map fun result => result.totalSourceEdges.getD 0).sum
  truncated := some (results.any fun result => result.truncated = some true)
  lastMaterializedAt := some (results.foldl (fun merged result =>
    mergeLastMaterializedAt merged result.lastMaterializedAt) none).join
  materializationTriggered :=
    some (results.any fun result => result.materializationTriggered = some true)

/-- A result has the edges of the responses, one for each id, and is truncated if one is. -/
structure IsUnion (result : AggregatedEdgeResult α) (responses : List (AggregatedEdgeResult α)) :
    Prop where
  sound : ∀ agg ∈ result.aggregatedEdges, ∃ response ∈ responses, agg ∈ response.aggregatedEdges
  complete : ∀ response ∈ responses, ∀ agg ∈ response.aggregatedEdges,
    ∃ other ∈ result.aggregatedEdges, other.id = agg.id
  distinct : (result.aggregatedEdges.map AggregatedEdgeInfo.id).Nodup
  truncated : result.truncated.getD false = true ↔
    ∃ response ∈ responses, response.truncated = some true

/-- What the edges by id have of the responses so far. -/
structure Collects (edges : EdgesById α) (responses : List (AggregatedEdgeResult α)) : Prop where
  keyed : ∀ id, ∀ agg ∈ edges.get id, agg.id = id
  sound : ∀ id, ∀ agg ∈ edges.get id, ∃ response ∈ responses, agg ∈ response.aggregatedEdges
  complete : ∀ response ∈ responses, ∀ agg ∈ response.aggregatedEdges, edges.get agg.id ≠ none

theorem get_addEdges {edges : EdgesById α} {aggregatedEdges : List (AggregatedEdgeInfo α)}
    {id : String} {agg : AggregatedEdgeInfo α}
    (found : (addEdges edges aggregatedEdges).get id = some agg) :
    agg ∈ aggregatedEdges ∧ agg.id = id ∨ edges.get id = some agg := by
  induction aggregatedEdges generalizing edges with
  | nil => exact .inr found
  | cons first rest ih =>
      rcases ih found with ⟨member, same⟩ | earlier
      · exact .inl ⟨List.mem_cons_of_mem _ member, same⟩
      · rw [OrderedMap.get_set] at earlier
        split at earlier
        · rename_i same
          cases earlier
          exact .inl ⟨List.mem_cons_self, same⟩
        · exact .inr earlier

theorem get_addEdges_ne_none {edges : EdgesById α} {aggregatedEdges : List (AggregatedEdgeInfo α)}
    {id : String} (present : edges.get id ≠ none ∨ ∃ agg ∈ aggregatedEdges, agg.id = id) :
    (addEdges edges aggregatedEdges).get id ≠ none := by
  induction aggregatedEdges generalizing edges with
  | nil =>
      rcases present with held | ⟨agg, member, -⟩
      · exact held
      · cases member
  | cons first rest ih =>
      refine ih ?_
      rw [OrderedMap.get_set]
      split
      · exact .inl (Option.some_ne_none _)
      · rename_i apart
        refine present.imp_right ?_
        intro ⟨agg, member, same⟩
        rcases List.mem_cons.mp member with rfl | later
        · exact absurd same apart
        · exact ⟨agg, later, same⟩

theorem addEdges_collects {edges : EdgesById α} {responses : List (AggregatedEdgeResult α)}
    (collects : Collects edges responses) (response : AggregatedEdgeResult α) :
    Collects (addEdges edges response.aggregatedEdges) (responses ++ [response]) := by
  refine ⟨?_, ?_, ?_⟩
  · intro id agg found
    rcases get_addEdges found with ⟨-, same⟩ | earlier
    · exact same
    · exact collects.keyed id agg earlier
  · intro id agg found
    rcases get_addEdges found with ⟨member, -⟩ | earlier
    · exact ⟨response, List.mem_append_right _ List.mem_cons_self, member⟩
    · obtain ⟨former, listed, member⟩ := collects.sound id agg earlier
      exact ⟨former, List.mem_append_left _ listed, member⟩
  · intro former listed agg member
    rcases List.mem_append.mp listed with old | new
    · exact get_addEdges_ne_none (.inl (collects.complete former old agg member))
    · cases List.mem_singleton.mp new
      exact get_addEdges_ne_none (.inr ⟨agg, member, rfl⟩)

theorem mergedEdgesById_collects (responses : List (AggregatedEdgeResult α)) :
    Collects (mergedEdgesById responses) responses := by
  have start : Collects (.empty : EdgesById α) [] := ⟨nofun, nofun, nofun⟩
  suffices general : ∀ (past rest : List (AggregatedEdgeResult α)) (edges : EdgesById α),
      Collects edges past → Collects (rest.foldl (fun edges result =>
        addEdges edges result.aggregatedEdges) edges) (past ++ rest) from
    general [] responses .empty start
  intro past rest
  induction rest generalizing past with
  | nil =>
      intro edges collects
      rw [List.append_nil]
      exact collects
  | cons response rest ih =>
      intro edges collects
      have later := ih (past ++ [response]) _ (addEdges_collects collects response)
      rwa [List.append_assoc, List.singleton_append] at later

theorem mergeResults_isUnion (responses : List (AggregatedEdgeResult α)) :
    IsUnion (mergeResults responses) responses := by
  have collects := mergedEdgesById_collects responses
  refine ⟨?_, ?_, ?_, ?_⟩
  · intro agg member
    obtain ⟨⟨id, agg⟩, listed, rfl⟩ := List.mem_map.mp member
    exact collects.sound id agg (OrderedMap.get_eq_some.mpr listed)
  · intro response listed agg member
    obtain ⟨other, found⟩ := Option.ne_none_iff_exists'.mp
      (collects.complete response listed agg member)
    exact ⟨other, List.mem_map.mpr ⟨_, OrderedMap.get_eq_some.mp found, rfl⟩,
      collects.keyed agg.id other found⟩
  · have keys : (mergeResults responses).aggregatedEdges.map AggregatedEdgeInfo.id =
        (mergedEdgesById responses).entries.map Prod.fst := by
      rw [mergeResults, List.map_map]
      refine List.map_congr_left fun entry listed => ?_
      exact collects.keyed entry.1 entry.2 (OrderedMap.get_eq_some.mpr listed)
    rw [keys]
    exact (mergedEdgesById responses).distinct
  · simp [mergeResults]

end Results

end Univiz.AggregatedLineage

import Univiz.AggregatedLineage.Cache
import Univiz.Data.Transition

namespace Univiz.AggregatedLineage

open Univiz.Data

/-! `fetchAggregated` in any number of hooks, over the one cache of the module. -/

inductive ExpansionState where
  | collapsed
  | expanded
  | loading
deriving DecidableEq, Repr

variable {ρ α δ : Type}

structure AggregatedEdgeState (α δ : Type) where
  aggregated : AggregatedEdgeInfo α
  state : ExpansionState
  detailedEdges : List δ

/-- The state of one hook. -/
structure UseAggregatedLineage (α δ : Type) where
  aggregatedEdges : OrderedMap String (AggregatedEdgeState α δ)
  isLoading : Bool
  error : Option String
  truncated : Bool
  lastMaterializedAt : Option String
  materializationTriggered : Bool

namespace UseAggregatedLineage

def initial : UseAggregatedLineage α δ := ⟨.empty, false, none, false, none, false⟩

/-- An edge that is there already keeps its expansion. -/
def edgeMap (prev : OrderedMap String (AggregatedEdgeState α δ))
    (aggregatedEdges : List (AggregatedEdgeInfo α)) :
    OrderedMap String (AggregatedEdgeState α δ) :=
  aggregatedEdges.foldl (fun edges agg => edges.set agg.id {
    aggregated := agg
    state := ((prev.get agg.id).map (·.state)).getD .collapsed
    detailedEdges := ((prev.get agg.id).map (·.detailedEdges)).getD [] }) .empty

/-- Both a hit and a merged result are shown so. -/
def apply (hook : UseAggregatedLineage α δ) (result : AggregatedEdgeResult α) :
    UseAggregatedLineage α δ :=
  { hook with
    aggregatedEdges := edgeMap hook.aggregatedEdges result.aggregatedEdges
    truncated := result.truncated.getD false
    lastMaterializedAt := result.lastMaterializedAt.join
    materializationTriggered := result.materializationTriggered.getD false }

def loading (hook : UseAggregatedLineage α δ) : UseAggregatedLineage α δ :=
  { hook with isLoading := true, error := none }

/-- The first failure of a chunk is surfaced. -/
def finish (hook : UseAggregatedLineage α δ) (settled : List (SettledResult α)) :
    UseAggregatedLineage α δ :=
  let shown := hook.apply (mergeResults (fulfilled settled))
  { shown with
    isLoading := false
    error := match rejected settled with
      | [] => shown.error
      | reason :: _ => some (reason.getD "Failed to fetch some aggregated edges") }

end UseAggregatedLineage

/-- The provider and the outcomes are there for the statements only. -/
structure CacheEntry (ρ α : Type) where
  result : AggregatedEdgeResult α
  timestamp : Int
  request : AggregatedEdgeRequest ρ
  settled : List (SettledResult α)

/-- A call that waits for its chunks, or has waited for them. -/
structure Fetch (ρ α : Type) where
  hook : Nat
  request : AggregatedEdgeRequest ρ
  results : List (Option (SettledResult α))

namespace Fetch

def start (hook : Nat) (request : AggregatedEdgeRequest ρ) : Fetch ρ α :=
  ⟨hook, request, (chunks request.sourceUrns).map fun _ => none⟩

def settled (fetch : Fetch ρ α) : List (SettledResult α) := fetch.results.filterMap id

/-- All chunks have settled. -/
def Done (fetch : Fetch ρ α) : Prop := ∀ result ∈ fetch.results, result ≠ none

instance : DecidablePred (@Done ρ α) := fun fetch =>
  decidable_of_iff (fetch.results.all Option.isSome = true) (by
    simp [Done, Option.isSome_iff_ne_none])

def settle (fetch : Fetch ρ α) (chunk : Nat) (outcome : SettledResult α) : Fetch ρ α :=
  { fetch with results := fetch.results.set chunk (some outcome) }

/-- `limit` workers take the chunks in their order. -/
def InFlight (limit : Nat) (fetch : Fetch ρ α) (chunk : Nat) : Prop :=
  fetch.results[chunk]? = some none ∧ chunk < limit + fetch.settled.length

instance (limit : Nat) (fetch : Fetch ρ α) (chunk : Nat) :
    Decidable (fetch.InFlight limit chunk) :=
  decidable_of_iff ((fetch.results[chunk]?.any Option.isNone = true) ∧
    chunk < limit + fetch.settled.length) (by
      simp only [InFlight]
      cases fetch.results[chunk]? with
      | none => simp
      | some result => cases result <;> simp)

end Fetch

/-- What a call is answered with. -/
inductive Answer (α : Type) where
  | hit (result : AggregatedEdgeResult α)
  | fetch (index : Nat)
deriving DecidableEq

/-- The fetches of all hooks by number, the last call of each hook, and the hits so far. -/
structure Hooks (ρ α δ : Type) where
  aggregatedEdgeCache : OrderedMap String (CacheEntry ρ α)
  hooks : Nat → UseAggregatedLineage α δ
  fetches : List (Fetch ρ α)
  latest : Nat → Option (Answer α)
  hits : List (AggregatedEdgeRequest ρ × AggregatedEdgeResult α)

structure FetchCall (ρ : Type) where
  hook : Nat
  provider : Option ρ
  sourceUrns : List String
  targetUrns : Option (List String)
  granularity : Option String
  cacheTtl : Int

inductive HookEvent (ρ α : Type) where
  | fetchAggregated (call : FetchCall ρ) (now : Int)
  | settles (fetch chunk : Nat) (outcome : SettledResult α) (now : Int)

/-- A call without a provider or without sources asks for nothing. -/
def FetchCall.request (call : FetchCall ρ) : Option (AggregatedEdgeRequest ρ) :=
  if call.sourceUrns = [] then none
  else call.provider.map fun provider =>
    ⟨provider, call.sourceUrns, call.targetUrns, call.granularity⟩

namespace Hooks

variable (state : Hooks ρ α δ)

def start : Hooks ρ α δ := ⟨.empty, fun _ => .initial, [], fun _ => none, []⟩

/-- The entry under the key of a request, unless it is too old. -/
def cached (request : AggregatedEdgeRequest ρ) (cacheTtl now : Int) : Option (CacheEntry ρ α) :=
  (state.aggregatedEdgeCache.get request.getCacheKey).filter fun entry =>
    now - entry.timestamp < cacheTtl

def hit (hook : Nat) (request : AggregatedEdgeRequest ρ) (result : AggregatedEdgeResult α) :
    Hooks ρ α δ :=
  { state with
    hooks := Function.update state.hooks hook ((state.hooks hook).apply result)
    latest := Function.update state.latest hook (some (.hit result))
    hits := state.hits ++ [(request, result)] }

def miss (hook : Nat) (request : AggregatedEdgeRequest ρ) : Hooks ρ α δ :=
  { state with
    hooks := Function.update state.hooks hook (state.hooks hook).loading
    fetches := state.fetches ++ [.start hook request]
    latest := Function.update state.latest hook (some (.fetch state.fetches.length)) }

/-- When the cache is full its oldest entry makes room, also if the key is there already. -/
def evict (cache : OrderedMap String (CacheEntry ρ α)) : OrderedMap String (CacheEntry ρ α) :=
  if cache.size ≥ cacheMaxEntries then
    match cache.entries.head? with
    | none => cache
    | some oldest => cache.erase oldest.1
  else cache

def put (index : Nat) (fetch : Fetch ρ α) : Hooks ρ α δ :=
  { state with fetches := state.fetches.set index fetch }

/-- What the call goes on with once the last of its chunks has settled. -/
def complete (fetch : Fetch ρ α) (now : Int) : Hooks ρ α δ :=
  { state with
    aggregatedEdgeCache := (evict state.aggregatedEdgeCache).set fetch.request.getCacheKey {
      result := mergeResults (fulfilled fetch.settled)
      timestamp := now
      request := fetch.request
      settled := fetch.settled }
    hooks := Function.update state.hooks fetch.hook
      ((state.hooks fetch.hook).finish fetch.settled) }

def step (limit : Nat) (state : Hooks ρ α δ) : HookEvent ρ α → Option (Hooks ρ α δ)
  | .fetchAggregated call now => match call.request with
      | none => some state
      | some request => match state.cached request call.cacheTtl now with
          | some entry => some (state.hit call.hook request entry.result)
          | none => some (state.miss call.hook request)
  | .settles index chunk outcome now => state.fetches[index]?.bind fun fetch =>
      if fetch.InFlight limit chunk then
        let later := fetch.settle chunk outcome
        if later.Done then some ((state.put index later).complete later now)
        else some (state.put index later)
      else none

end Hooks

end Univiz.AggregatedLineage

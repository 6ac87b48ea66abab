import Mathlib.Data.List.Dedup
import Univiz.Data.Buckets
import Univiz.Data.Paging
import Univiz.Trace.Layers
import Univiz.Trace.Reachability

namespace Univiz.Trace

open Univiz.Data

/-! What `trace_at_level` says about edges that it does not have. -/

variable (callbacks : TraceCallbacks) (expired : Nat → Bool) (query : TraceQuery)

/-- A hop that the search begins, with the variables as it finds them. -/
structure Hop where
  hop : Nat
  search : Search

/-- The deadline has passed, or there are `max_nodes` nodes. -/
def Hop.CutOff (begun : Hop) : Prop :=
  expired begun.hop = true ∨ query.maxNodes ≤ begun.search.nodesByUrn.keys.length

instance : DecidablePred (Hop.CutOff expired query) := fun begun =>
  inferInstanceAs (Decidable (expired begun.hop = true ∨
    query.maxNodes ≤ begun.search.nodesByUrn.keys.length))

def hopsBegun : Nat → Nat → Search → List Hop
  | 0, _, _ => []
  | hopsLeft + 1, hop, search =>
      let searched := expandHop callbacks query hop search
      ⟨hop, search⟩ ::
        if Hop.CutOff expired query ⟨hop, search⟩ ∨
            searched.upFrontier = [] ∧ searched.downFrontier = [] then []
        else hopsBegun hopsLeft (hop + 1) searched

/-- The hops that a search from an anchor begins. -/
def hopsFrom (anchor : Urn) (anchorNode : Option GraphNode) : List Hop :=
  hopsBegun callbacks expired query (max query.upstreamDepth query.downstreamDepth) 0
    (.start query anchor anchorNode)

/-- The records of the edges at a node, in a direction. -/
abbrev Incidence := Direction → Urn → List FrontierRecord

variable (incident : Incidence)

/-- The records that match a frontier. -/
def matching (direction : Direction) (urns : List Urn) : List FrontierRecord :=
  (urns.flatMap (incident direction)).dedup

/-- An expansion raises, or returns all matching records if they are no more than the budget
and else a budget of them. -/
def ExpandsToBudget : Prop :=
  ∀ urns direction budget records,
    callbacks.expandFrontier urns direction query.level query.lineageFilter budget =
        .ok records →
      CutAt budget (matching incident direction urns) records

/-- An expansion of the hop fails or withholds a matching record. -/
def Hop.Loses (begun : Hop) : Prop :=
  ∃ direction answer,
    expandTask callbacks query begun.hop begun.search direction = some answer ∧
    ∀ records, answer = .ok records →
      ∃ record ∈ matching incident direction (begun.search.frontier direction),
        record ∉ records

/-- The lineage as a side follows it. -/
def Leads (direction : Direction) (urn next : Urn) : Prop :=
  ∃ record ∈ incident direction urn, record.newUrn = next

/-- The edge of the record starts within the depth of its side. -/
def WithinDepths (anchor : Urn) (record : FrontierRecord) : Prop :=
  ∃ direction hops urn, hops < query.depth direction ∧
    Within (Leads incident direction) hops anchor urn ∧ record ∈ incident direction urn

structure ReportsLoss (anchor : Urn) (anchorNode : Option GraphNode) (result : TraceResult) :
    Prop where
  loss : (∃ begun ∈ hopsFrom callbacks expired query anchor anchorNode,
    ¬ begun.CutOff expired query ∧ begun.Loses callbacks query incident) →
      result.truncated = true
  complete : result.truncated = false → ∀ record, WithinDepths query incident anchor record →
    ∃ edge ∈ result.edges, edge.id = record.edgeId

/-- An edge that the two sides come to while they share what they have seen. -/
def Met (anchor : Urn) (id : String) : Prop :=
  ∃ hop direction urn, hop < query.depth direction ∧
    (layerAt (Leads incident) query.depth anchor hop).frontier direction urn ∧
    ∃ record ∈ incident direction urn, record.edgeId = id

variable {callbacks expired query incident} {anchor : Urn} {hop : Nat} {search : Search}
  {direction : Direction} {id : String}

theorem mem_matching {urns : List Urn} {record : FrontierRecord} :
    record ∈ matching incident direction urns ↔ ∃ urn ∈ urns, record ∈ incident direction urn := by
  rw [matching, List.mem_dedup, List.mem_flatMap]

/-- Every edge is stored under its id. -/
def Search.Keyed (search : Search) : Prop :=
  ∀ entry ∈ search.edgesById.entries, entry.2.id = entry.1

theorem collect_edges (direction : Direction) (search : Search) (record : FrontierRecord) :
    (search.collect direction record).edgesById = (search.addEdge record).edgesById := by
  simp only [Search.collect, Search.visit]
  split
  · rfl
  · cases direction <;> rfl

theorem addEdge_edges (search : Search) (record : FrontierRecord) :
    id ∈ (search.addEdge record).edgesById ↔ id ∈ search.edgesById ∨ record.edgeId = id := by
  simp only [Search.addEdge]
  split
  · rename_i known
    refine ⟨.inl, ?_⟩
    rintro (old | rfl)
    · exact old
    · exact known
  · rw [AList.mem_insert, or_comm, eq_comm]

theorem Search.Keyed.addEdge (keyed : search.Keyed) (record : FrontierRecord) :
    (search.addEdge record).Keyed := by
  intro entry member
  simp only [Search.addEdge] at member
  split at member
  · exact keyed entry member
  · rename_i unknown
    rw [AList.entries_insert_of_notMem unknown] at member
    rcases List.mem_cons.mp member with rfl | old
    · rfl
    · exact keyed entry old

theorem foldl_collect_edges (direction : Direction) (records : List FrontierRecord)
    (search : Search) :
    id ∈ (records.foldl (Search.collect direction) search).edgesById ↔
      id ∈ search.edgesById ∨ ∃ record ∈ records, record.edgeId = id := by
  have grows (search : Search) (record : FrontierRecord) :
      id ∈ (search.collect direction record).edgesById ↔
        id ∈ search.edgesById ∨ record.edgeId = id := by
    rw [collect_edges, addEdge_edges]
  exact holds_foldl_iff (fun search : Search => id ∈ search.edgesById) _ grows

theorem collect_nodes (direction : Direction) (search : Search) (record : FrontierRecord)
    (urn : Urn) :
    urn ∈ (search.collect direction record).nodesByUrn ↔
      urn ∈ search.nodesByUrn ∨ record.newNode.isSome = true ∧ record.newUrn = urn := by
  have visited (search : Search) (other : Urn) :
      (search.visit direction other).nodesByUrn = search.nodesByUrn := by
    unfold Search.visit
    split
    · rfl
    · cases direction <;> rfl
  have before : (search.addEdge record).nodesByUrn = search.nodesByUrn := rfl
  rw [Search.collect, visited, Search.addNode, before]
  cases record.newNode with
  | none => simp
  | some node =>
      simp only [Option.isSome_some, true_and]
      split
      · rename_i known
        refine ⟨.inl, ?_⟩
        rintro (old | rfl)
        · exact old
        · exact known
      · rw [AList.mem_insert, or_comm, eq_comm]

theorem foldl_collect_nodes (direction : Direction) (records : List FrontierRecord)
    (search : Search) (urn : Urn) :
    urn ∈ (records.foldl (Search.collect direction) search).nodesByUrn ↔
      urn ∈ search.nodesByUrn ∨
        ∃ record ∈ records, record.newNode.isSome = true ∧ record.newUrn = urn :=
  holds_foldl_iff (fun search : Search => urn ∈ search.nodesByUrn)
    (fun record : FrontierRecord => record.newNode.isSome = true ∧ record.newUrn = urn)
    fun search record => collect_nodes direction search record urn

/-- Distinct nodes beside those that were there before. -/
theorem length_add_le {before new after : List Urn} (keyed : before.Nodup) (distinct : new.Nodup)
    (apart : ∀ urn ∈ before, urn ∉ new) (kept : before ⊆ after) (added : new ⊆ after) :
    before.length + new.length ≤ after.length := by
  have both : (before ++ new).Nodup := keyed.append distinct apart
  have bound := (both.subperm (List.append_subset.mpr ⟨kept, added⟩)).length_le
  rwa [List.length_append] at bound

theorem Search.Keyed.foldl_collect (keyed : search.Keyed) (direction : Direction)
    (records : List FrontierRecord) :
    (records.foldl (Search.collect direction) search).Keyed := by
  induction records generalizing search with
  | nil => exact keyed
  | cons record rest ih =>
      refine ih ?_
      rw [Search.Keyed, collect_edges]
      exact keyed.addEdge record

theorem Search.Keyed.absorb (keyed : search.Keyed) (direction : Direction)
    (answer : Option (Except String (List FrontierRecord))) :
    (search.absorb direction answer).Keyed := by
  rcases answer with _ | _ | records
  · exact keyed
  · exact keyed
  · exact keyed.foldl_collect direction records

theorem Search.Keyed.searchLoop (keyed : search.Keyed) (hopsLeft hop : Nat) :
    (searchLoop callbacks expired query hopsLeft hop search).Keyed := by
  induction hopsLeft generalizing hop search with
  | zero => exact keyed
  | succ hopsLeft ih =>
      have cleared : search.clearFrontiers.Keyed := keyed
      have next : (expandHop callbacks query hop search).Keyed :=
        (cleared.absorb .incoming _).absorb .outgoing _
      rw [Trace.searchLoop]
      split
      · exact keyed
      · split
        · exact keyed
        · split
          · exact keyed
          · simp only []
            split
            · exact next
            · exact ih next (hop + 1)

theorem absorb_reason (direction : Direction) (search : Search)
    (answer : Option (Except String (List FrontierRecord))) :
    (search.absorb direction answer).truncationReason = search.truncationReason := by
  rcases answer with _ | _ | records
  · rfl
  · rfl
  · exact (foldl_collect_absorbed direction records search).reason

theorem expandHop_reason (hop : Nat) (search : Search) :
    (expandHop callbacks query hop search).truncationReason = search.truncationReason := by
  rw [expandHop, absorb_reason, absorb_reason, Search.clearFrontiers]

theorem expandHop_idle
    (idle : (expandTask callbacks query hop search .incoming).isNone = true ∧
      (expandTask callbacks query hop search .outgoing).isNone = true) :
    expandHop callbacks query hop search = search.clearFrontiers := by
  rw [expandHop, Option.isNone_iff_eq_none.mp idle.1, Option.isNone_iff_eq_none.mp idle.2,
    Search.absorb, Search.absorb]

/-- A search is truncated if and only if it begins a hop that is cut off. -/
theorem searchLoop_truncated_iff (unbroken : search.truncationReason = none) (hopsLeft hop : Nat) :
    (searchLoop callbacks expired query hopsLeft hop search).truncationReason.isSome = true ↔
      ∃ begun ∈ hopsBegun callbacks expired query hopsLeft hop search,
        begun.CutOff expired query := by
  induction hopsLeft generalizing hop search with
  | zero => simp [searchLoop, hopsBegun, unbroken]
  | succ hopsLeft ih =>
      simp only [searchLoop, hopsBegun, List.exists_mem_cons_iff]
      by_cases late : expired hop = true
      · have cut : Hop.CutOff expired query ⟨hop, search⟩ := .inl late
        simp only [late, ↓reduceIte, Option.isSome_some, cut, true_or]
      by_cases full : query.maxNodes ≤ search.nodesByUrn.keys.length
      · have cut : Hop.CutOff expired query ⟨hop, search⟩ := .inr full
        simp only [late, full, Bool.false_eq_true, ↓reduceIte, Option.isSome_some, cut, true_or]
      have whole : ¬ Hop.CutOff expired query ⟨hop, search⟩ :=
        fun cut => cut.elim late full
      rw [if_neg late, if_neg full]
      simp only [whole, false_or]
      by_cases stuck : (expandHop callbacks query hop search).upFrontier = [] ∧
          (expandHop callbacks query hop search).downFrontier = []
      · simp only [stuck, and_self, ↓reduceIte, List.not_mem_nil, false_and, exists_false, iff_false]
        split
        · simp [unbroken]
        · simp [expandHop_reason, unbroken]
      · have busy : ¬ ((expandTask callbacks query hop search .incoming).isNone = true ∧
            (expandTask callbacks query hop search .outgoing).isNone = true) := by
          intro idle
          rw [expandHop_idle idle] at stuck
          exact stuck ⟨rfl, rfl⟩
        rw [if_neg busy, if_neg stuck, if_neg stuck]
        exact ih ((expandHop_reason hop search).trans unbroken) (hop + 1)

variable {budget : ExpandsToBudget callbacks query incident}

theorem answer_of_not_loses (budget : ExpandsToBudget callbacks query incident)
    (whole : ¬ Hop.Loses callbacks query incident ⟨hop, search⟩)
    {answer : Except String (List FrontierRecord)}
    (asked : expandTask callbacks query hop search direction = some answer) :
    ∃ records, answer = .ok records ∧ ∀ record, record ∈ records ↔
      ∃ urn ∈ search.frontier direction, record ∈ incident direction urn := by
  cases answer with
  | error message =>
      refine absurd ⟨direction, _, asked, ?_⟩ whole
      intro records same
      cases same
  | ok records =>
      refine ⟨records, rfl, ?_⟩
      intro record
      rw [← mem_matching]
      have answered : callbacks.expandFrontier (search.frontier direction) direction query.level
          query.lineageFilter (query.maxNodes - search.nodesByUrn.keys.length) = .ok records := by
        simp only [expandTask] at asked
        split at asked
        · exact Option.some.inj asked
        · cases asked
      refine ⟨fun member => (budget _ _ _ _ answered).subset member, ?_⟩
      intro member
      by_contra withheld
      refine whole ⟨direction, _, asked, ?_⟩
      intro others same
      cases same
      exact ⟨record, member, withheld⟩

/-- The search has come as far as the layers of the whole lineage. -/
structure Follows (query : TraceQuery) (incident : Incidence) (anchor : Urn) (hop : Nat)
    (search : Search) : Prop where
  seen : ∀ urn, urn ∈ search.visited ↔ (layerAt (Leads incident) query.depth anchor hop).seen urn
  frontier : ∀ direction urn, urn ∈ search.frontier direction ↔
    (layerAt (Leads incident) query.depth anchor hop).frontier direction urn
  edges : ∀ id, id ∈ search.edgesById ↔ ∃ former < hop, ∃ direction urn,
    former < query.depth direction ∧
    (layerAt (Leads incident) query.depth anchor former).frontier direction urn ∧
    ∃ record ∈ incident direction urn, record.edgeId = id

theorem start_follows (query : TraceQuery) (incident : Incidence) (anchor : Urn)
    (anchorNode : Option GraphNode) :
    Follows query incident anchor 0 (.start query anchor anchorNode) := by
  refine ⟨?_, ?_, ?_⟩
  · intro urn
    exact List.mem_singleton
  · intro direction urn
    cases direction
    · by_cases positive : 0 < query.upstreamDepth <;>
        simp [Search.start, Search.frontier, layerAt, TraceQuery.depth, positive]
    · by_cases positive : 0 < query.downstreamDepth <;>
        simp [Search.start, Search.frontier, layerAt, TraceQuery.depth, positive]
  · intro id
    simp [Search.start]

/-- The records that a side gets in a hop. -/
def received (callbacks : TraceCallbacks) (query : TraceQuery) (hop : Nat) (search : Search)
    (direction : Direction) : List FrontierRecord :=
  match expandTask callbacks query hop search direction with
  | some (.ok records) => records
  | some (.error _) | none => []

theorem absorb_received (direction : Direction) (before : Search) :
    before.absorb direction (expandTask callbacks query hop search direction) =
      (received callbacks query hop search direction).foldl (Search.collect direction) before := by
  rw [received]
  rcases expandTask callbacks query hop search direction with _ | _ | records
  · rfl
  · rfl
  · rfl

theorem expandHop_received :
    HopEffect (fun direction urn => ∃ record ∈ received callbacks query hop search direction,
      record.newUrn = urn) search (expandHop callbacks query hop search) := by
  refine hopEffect_of_absorbed ?_
  intro direction before
  rw [absorb_received]
  exact foldl_collect_absorbed direction _ before

/-- The records that a side matches in a hop. -/
def Matched (query : TraceQuery) (incident : Incidence) (hop : Nat) (search : Search)
    (direction : Direction) (record : FrontierRecord) : Prop :=
  hop < query.depth direction ∧ ∃ urn ∈ search.frontier direction, record ∈ incident direction urn

/-- A side gets what it matches in a hop that loses nothing. -/
theorem mem_received_iff (budget : ExpandsToBudget callbacks query incident)
    (whole : ¬ Hop.Loses callbacks query incident ⟨hop, search⟩) (record : FrontierRecord) :
    record ∈ received callbacks query hop search direction ↔
      Matched query incident hop search direction record := by
  rw [received]
  cases asked : expandTask callbacks query hop search direction with
  | none =>
      refine ⟨fun none => absurd none List.not_mem_nil, ?_⟩
      rintro ⟨early, urn, onFrontier, -⟩
      rw [expandTask, if_pos ⟨early, List.ne_nil_of_mem onFrontier⟩] at asked
      cases asked
  | some answer =>
      obtain ⟨records, rfl, matched⟩ := answer_of_not_loses budget whole asked
      have early : hop < query.depth direction := by
        by_contra late
        rw [expandTask, if_neg (fun both => late both.1)] at asked
        cases asked
      rw [Matched, and_iff_right early]
      exact matched record

/-- The nodes that a side matches are those that it meets in the layers. -/
theorem Follows.newUrn_iff (follows : Follows query incident anchor hop search)
    (direction : Direction) (urn : Urn) :
    (∃ record, Matched query incident hop search direction record ∧ record.newUrn = urn) ↔
      (layerAt (Leads incident) query.depth anchor hop).Meets (Leads incident) query.depth hop
        direction urn := by
  simp only [Matched, Layer.Meets, Leads, ← follows.frontier]
  refine ⟨?_, ?_⟩
  · rintro ⟨record, ⟨early, via, onFrontier, member⟩, last⟩
    exact ⟨early, via, onFrontier, record, member, last⟩
  · rintro ⟨early, via, onFrontier, record, member, last⟩
    exact ⟨record, ⟨early, via, onFrontier, member⟩, last⟩

theorem Follows.edgeId_iff (follows : Follows query incident anchor hop search)
    (direction : Direction) (id : String) :
    (∃ record, Matched query incident hop search direction record ∧ record.edgeId = id) ↔
      ∃ urn, hop < query.depth direction ∧
        (layerAt (Leads incident) query.depth anchor hop).frontier direction urn ∧
        ∃ record ∈ incident direction urn, record.edgeId = id := by
  simp only [Matched, ← follows.frontier]
  refine ⟨?_, ?_⟩
  · rintro ⟨record, ⟨early, urn, onFrontier, member⟩, same⟩
    exact ⟨urn, early, onFrontier, record, member, same⟩
  · rintro ⟨urn, early, onFrontier, record, member, same⟩
    exact ⟨record, ⟨early, urn, onFrontier, member⟩, same⟩

/-- A hop that loses nothing adds the edges that its two sides match. -/
theorem expandHop_edges (budget : ExpandsToBudget callbacks query incident)
    (whole : ¬ Hop.Loses callbacks query incident ⟨hop, search⟩) :
    id ∈ (expandHop callbacks query hop search).edgesById ↔
      id ∈ search.edgesById ∨ ∃ direction record,
        Matched query incident hop search direction record ∧ record.edgeId = id := by
  have cleared : id ∈ search.clearFrontiers.edgesById ↔ id ∈ search.edgesById := Iff.rfl
  rw [expandHop, absorb_received, absorb_received, foldl_collect_edges, foldl_collect_edges,
    cleared]
  simp only [mem_received_iff budget whole]
  refine ⟨?_, ?_⟩
  · rintro ((old | upstream) | downstream)
    · exact .inl old
    · exact .inr ⟨.incoming, upstream⟩
    · exact .inr ⟨.outgoing, downstream⟩
  · rintro (old | ⟨direction, met⟩)
    · exact .inl (.inl old)
    · cases direction with
      | incoming => exact .inl (.inr met)
      | outgoing => exact .inr met

theorem Follows.next (budget : ExpandsToBudget callbacks query incident)
    (whole : ¬ Hop.Loses callbacks query incident ⟨hop, search⟩)
    (follows : Follows query incident anchor hop search) :
    Follows query incident anchor (hop + 1) (expandHop callbacks query hop search) := by
  have effect : HopEffect
      (fun direction urn => (layerAt (Leads incident) query.depth anchor hop).Meets
        (Leads incident) query.depth hop direction urn) search
      (expandHop callbacks query hop search) := by
    have received := @expandHop_received callbacks query hop search
    simp only [mem_received_iff budget whole, follows.newUrn_iff] at received
    exact received
  refine ⟨?_, ?_, ?_⟩
  · intro urn
    rw [effect.visited, follows.seen]
    rfl
  · intro direction urn
    cases direction with
    | incoming =>
        rw [effect.upFrontier, follows.seen]
        rfl
    | outgoing =>
        rw [effect.downFrontier, follows.seen]
        rfl
  · intro id
    simp only [expandHop_edges budget whole, follows.edgeId_iff, follows.edges]
    refine ⟨?_, ?_⟩
    · rintro (⟨former, earlier, rest⟩ | ⟨direction, met⟩)
      · exact ⟨former, Nat.lt_succ_of_lt earlier, rest⟩
      · exact ⟨hop, Nat.lt_succ_self hop, direction, met⟩
    · rintro ⟨former, earlier, direction, rest⟩
      rcases Nat.lt_succ_iff_lt_or_eq.mp earlier with before | rfl
      · exact .inl ⟨former, before, direction, rest⟩
      · exact .inr ⟨direction, rest⟩

/-- What has been met when no side has a frontier, or asks any more, is all that is met. -/
theorem Follows.met_iff (follows : Follows query incident anchor hop search)
    (silent : ∀ direction, hop < query.depth direction → search.frontier direction = []) :
    id ∈ search.edgesById ↔ Met query incident anchor id := by
  rw [follows.edges]
  refine ⟨?_, ?_⟩
  · rintro ⟨former, -, direction, urn, met⟩
    exact ⟨former, direction, urn, met⟩
  · intro ⟨former, direction, urn, early, onFrontier, record⟩
    refine ⟨former, ?_, direction, urn, early, onFrontier, record⟩
    by_contra late
    refine layerAt_exhausted ?_ (Nat.not_lt.mp late) direction early urn onFrontier
    intro side asks other onSide
    rw [← follows.frontier, silent side asks] at onSide
    exact List.not_mem_nil onSide

/-- A search that is not cut off and loses nothing has the edges that the layers meet. -/
theorem searchLoop_edges (budget : ExpandsToBudget callbacks query incident)
    (follows : Follows query incident anchor hop search) {hopsLeft : Nat}
    (enough : ∀ direction, query.depth direction ≤ hop + hopsLeft)
    (whole : ∀ begun ∈ hopsBegun callbacks expired query hopsLeft hop search,
      ¬ begun.CutOff expired query ∧ ¬ begun.Loses callbacks query incident) (id : String) :
    id ∈ (searchLoop callbacks expired query hopsLeft hop search).edgesById ↔
      Met query incident anchor id := by
  induction hopsLeft generalizing hop search with
  | zero =>
      refine follows.met_iff ?_
      intro direction asks
      exact absurd (enough direction) (by omega)
  | succ hopsLeft ih =>
      simp only [hopsBegun, List.forall_mem_cons] at whole
      obtain ⟨⟨running, lossless⟩, rest⟩ := whole
      have next := follows.next budget lossless
      have late : ¬ expired hop = true := fun late => running (.inl late)
      have full : ¬ query.maxNodes ≤ search.nodesByUrn.keys.length := fun full => running (.inr full)
      rw [searchLoop, if_neg late, if_neg full]
      by_cases idle : (expandTask callbacks query hop search .incoming).isNone = true ∧
          (expandTask callbacks query hop search .outgoing).isNone = true
      · rw [if_pos idle]
        refine follows.met_iff ?_
        intro direction asks
        cases direction with
        | incoming => exact silent_of_isNone idle.1 asks
        | outgoing => exact silent_of_isNone idle.2 asks
      rw [if_neg idle]
      simp only []
      by_cases stuck : (expandHop callbacks query hop search).upFrontier = [] ∧
          (expandHop callbacks query hop search).downFrontier = []
      · rw [if_pos stuck]
        refine next.met_iff ?_
        intro direction _
        cases direction with
        | incoming => exact stuck.1
        | outgoing => exact stuck.2
      · rw [if_neg stuck]
        refine ih next ?_ ?_
        · intro direction
          have bound := enough direction
          omega
        · rwa [if_neg (fun either => either.elim running stuck)] at rest

theorem exists_edge_iff {result : TraceResult} (keyed : search.Keyed)
    (edges : result.edges = search.edgesById.entries.map Sigma.snd) :
    (∃ edge ∈ result.edges, edge.id = id) ↔ id ∈ search.edgesById := by
  rw [edges, AList.mem_keys, AList.keys, List.keys]
  simp only [List.mem_map]
  refine ⟨?_, ?_⟩
  · rintro ⟨edge, ⟨entry, member, rfl⟩, rfl⟩
    exact ⟨entry, member, (keyed entry member).symm⟩
  · rintro ⟨entry, member, rfl⟩
    exact ⟨entry.2, ⟨entry, member, rfl⟩, keyed entry member⟩

theorem traceAtLevel_ran {inherited : Option Urn} {anchorNode : Option GraphNode}
    {result : TraceResult} (resolved : resolveAnchor callbacks query = .ok (anchor, inherited))
    (found : callbacks.getNode anchor = .ok anchorNode)
    (ran : traceAtLevel callbacks expired query = .ok result) :
    let search := searchFrom callbacks expired query anchor anchorNode
    result.truncated = search.truncationReason.isSome ∧
      result.edges = search.edgesById.entries.map Sigma.snd := by
  obtain ⟨focusNode, -, ran⟩ := bind_eq_ok_iff.mp ran
  obtain ⟨start, resolved', ran⟩ := bind_eq_ok_iff.mp ran
  cases resolved.symm.trans resolved'
  obtain ⟨node, found', ran⟩ := bind_eq_ok_iff.mp ran
  cases found.symm.trans found'
  obtain ⟨focusLevel, -, ran⟩ := bind_eq_ok_iff.mp ran
  cases ran
  exact ⟨rfl, rfl⟩

theorem traceAtLevel_truncated_iff {inherited : Option Urn} {anchorNode : Option GraphNode}
    {result : TraceResult} (resolved : resolveAnchor callbacks query = .ok (anchor, inherited))
    (found : callbacks.getNode anchor = .ok anchorNode)
    (ran : traceAtLevel callbacks expired query = .ok result) :
    result.truncated = true ↔ ∃ begun ∈ hopsFrom callbacks expired query anchor anchorNode,
      begun.CutOff expired query := by
  rw [(traceAtLevel_ran resolved found ran).1]
  exact searchLoop_truncated_iff rfl _ 0

/-- A trace that is not cut off and loses nothing has the edges that its sides come to. -/
theorem traceAtLevel_edge_iff {inherited : Option Urn} {anchorNode : Option GraphNode}
    {result : TraceResult} (budget : ExpandsToBudget callbacks query incident)
    (resolved : resolveAnchor callbacks query = .ok (anchor, inherited))
    (found : callbacks.getNode anchor = .ok anchorNode)
    (ran : traceAtLevel callbacks expired query = .ok result)
    (whole : ∀ begun ∈ hopsFrom callbacks expired query anchor anchorNode,
      ¬ begun.CutOff expired query ∧ ¬ begun.Loses callbacks query incident) (id : String) :
    (∃ edge ∈ result.edges, edge.id = id) ↔ Met query incident anchor id := by
  have keyed : (searchFrom callbacks expired query anchor anchorNode).Keyed :=
    Search.Keyed.searchLoop (fun entry none => absurd none List.not_mem_nil) _ 0
  rw [exists_edge_iff keyed (traceAtLevel_ran resolved found ran).2]
  refine searchLoop_edges budget (start_follows query incident anchor anchorNode) ?_ whole id
  intro direction
  rw [Nat.zero_add]
  cases direction with
  | incoming => exact Nat.le_max_left _ _
  | outgoing => exact Nat.le_max_right _ _

/-- If no node but the anchor is reached on both sides, the layers meet every edge. -/
theorem met_of_apart (apart : SidesApart (Leads incident) query.depth anchor)
    {record : FrontierRecord} (within : WithinDepths query incident anchor record) :
    Met query incident anchor record.edgeId := by
  obtain ⟨direction, hops, urn, early, reached, member⟩ := within
  obtain ⟨own, bound, onFrontier⟩ := layerAt_reaches apart reached early
  exact ⟨own, direction, urn, Nat.lt_of_le_of_lt bound early, onFrontier, record, member, rfl⟩

end Univiz.Trace

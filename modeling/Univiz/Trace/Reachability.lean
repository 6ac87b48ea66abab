import Univiz.Data.Fallible
import Univiz.Data.Reach
import Univiz.Trace.Orchestrator

namespace Univiz.Trace

open Univiz.Data

/-! What `trace_at_level` reports, in terms of the lineage graph.

Both sides of the search share one visited set.  A node is therefore reported on
one side only, and the two sides are complete exactly when their balls meet in
nothing but the anchor.
-/

/-- The lineage relation as a side follows it. -/
def facing (edge : Urn → Urn → Prop) : Direction → Urn → Urn → Prop
  | .outgoing => edge
  | .incoming => fun urn next => edge next urn

/-- The provider answers every frontier with the edges incident to it. -/
def ExpandsExactly (callbacks : TraceCallbacks) (query : TraceQuery)
    (edge : Urn → Urn → Prop) : Prop :=
  ∀ urns direction budget, ∃ records,
    callbacks.expandFrontier urns direction query.level query.lineageFilter budget = .ok records ∧
    ∀ urn, (∃ record ∈ records, record.newUrn = urn) ↔
      ∃ via ∈ urns, facing edge direction via urn

/-- The effect on `before` of meeting the nodes `met` on one side. -/
structure Absorbed (direction : Direction) (met : Urn → Prop) (before after : Search) : Prop where
  visited : ∀ urn, urn ∈ after.visited ↔ urn ∈ before.visited ∨ met urn
  found : ∀ urn, urn ∈ after.found direction ↔
    urn ∈ before.found direction ∨ urn ∉ before.visited ∧ met urn
  frontier : ∀ urn, urn ∈ after.frontier direction ↔
    urn ∈ before.frontier direction ∨ urn ∉ before.visited ∧ met urn
  otherFound : ∀ other, other ≠ direction → after.found other = before.found other
  otherFrontier : ∀ other, other ≠ direction → after.frontier other = before.frontier other
  reason : after.truncationReason = before.truncationReason

theorem absorbed_none {direction : Direction} {met : Urn → Prop} {search : Search}
    (nothing : ∀ urn, ¬ met urn) : Absorbed direction met search search := by
  constructor <;> simp [nothing]

theorem collect_absorbed (direction : Direction) (search : Search) (record : FrontierRecord) :
    Absorbed direction (record.newUrn = ·) search (search.collect direction record) := by
  unfold Search.collect Search.visit
  by_cases known : record.newUrn ∈ search.visited
  · have noneNew : ∀ urn, ¬ (urn ∉ search.visited ∧ record.newUrn = urn) := by
      rintro urn ⟨unknown, rfl⟩
      exact unknown known
    rw [if_pos (show record.newUrn ∈ ((search.addEdge record).addNode record).visited from known)]
    refine ⟨fun urn => ?_, fun urn => ?_, fun urn => ?_, fun other _ => ?_, fun other _ => ?_, rfl⟩
    · refine ⟨.inl, ?_⟩
      rintro (old | rfl)
      · exact old
      · exact known
    · cases direction <;> simp only [noneNew, or_false] <;> rfl
    · cases direction <;> simp only [noneNew, or_false] <;> rfl
    · cases other <;> rfl
    · cases other <;> rfl
  · have onlyNew : ∀ urn, urn ∉ search.visited ∧ record.newUrn = urn ↔ urn = record.newUrn := by
      intro urn
      refine ⟨fun both => both.2.symm, ?_⟩
      rintro rfl
      exact ⟨known, rfl⟩
    rw [if_neg (show record.newUrn ∉ ((search.addEdge record).addNode record).visited from known)]
    refine ⟨fun urn => ?_, fun urn => ?_, fun urn => ?_, fun other distinct => ?_,
      fun other distinct => ?_, ?_⟩
    · rw [eq_comm]
      cases direction <;> exact List.mem_cons.trans or_comm
    · rw [onlyNew]
      cases direction <;> exact List.mem_cons.trans or_comm
    · rw [onlyNew]
      cases direction <;> exact List.mem_cons.trans or_comm
    · cases direction <;> cases other <;> first | rfl | exact absurd rfl distinct
    · cases direction <;> cases other <;> first | rfl | exact absurd rfl distinct
    · cases direction <;> rfl

theorem Absorbed.trans {direction : Direction} {met met' : Urn → Prop}
    {first second third : Search} (left : Absorbed direction met first second)
    (right : Absorbed direction met' second third) :
    Absorbed direction (fun urn => met urn ∨ met' urn) first third where
  visited urn := by rw [right.visited, left.visited, or_assoc]
  found urn := by
    rw [right.found, left.found, left.visited]
    tauto
  frontier urn := by
    rw [right.frontier, left.frontier, left.visited]
    tauto
  otherFound other distinct :=
    (right.otherFound other distinct).trans (left.otherFound other distinct)
  otherFrontier other distinct :=
    (right.otherFrontier other distinct).trans (left.otherFrontier other distinct)
  reason := right.reason.trans left.reason

theorem foldl_collect_absorbed (direction : Direction) (records : List FrontierRecord)
    (search : Search) :
    Absorbed direction (fun urn => ∃ record ∈ records, record.newUrn = urn) search
      (records.foldl (Search.collect direction) search) := by
  induction records generalizing search with
  | nil => exact absorbed_none (by simp)
  | cons record rest ih =>
      have both := (collect_absorbed direction search record).trans
        (ih (search.collect direction record))
      simpa only [List.foldl_cons, List.exists_mem_cons_iff] using both

variable {callbacks : TraceCallbacks} {query : TraceQuery} {edge : Urn → Urn → Prop}
  {expired : Nat → Bool} {anchor : Urn}

/-- The nodes a side meets in a hop. -/
def Meets (query : TraceQuery) (edge : Urn → Urn → Prop) (hop : Nat) (search : Search)
    (direction : Direction) (urn : Urn) : Prop :=
  hop < query.depth direction ∧ ∃ via ∈ search.frontier direction, facing edge direction via urn

theorem absorb_expandTask (exact : ExpandsExactly callbacks query edge) (hop : Nat)
    (direction : Direction) (asking before : Search) :
    Absorbed direction (Meets query edge hop asking direction) before
      (before.absorb direction (expandTask callbacks query hop asking direction)) := by
  unfold expandTask
  by_cases asks : hop < query.depth direction ∧ asking.frontier direction ≠ []
  · rw [if_pos asks]
    obtain ⟨records, answered, met⟩ := exact (asking.frontier direction) direction
      (query.maxNodes - asking.nodesByUrn.keys.length)
    rw [answered]
    have absorbed := foldl_collect_absorbed direction records before
    have meets : Meets query edge hop asking direction =
        fun urn => ∃ record ∈ records, record.newUrn = urn := by
      funext urn
      simp only [Meets, asks.1, true_and, met]
    exact meets ▸ absorbed
  · rw [if_neg asks]
    refine absorbed_none fun urn => ?_
    rintro ⟨early, via, onFrontier, -⟩
    exact asks ⟨early, List.ne_nil_of_mem onFrontier⟩

/-- The effect of a hop.  A node met on both sides counts as upstream, because
the upstream answer is read first. -/
structure HopEffect (met : Direction → Urn → Prop) (before after : Search) : Prop where
  visited : ∀ urn, urn ∈ after.visited ↔
    urn ∈ before.visited ∨ met .incoming urn ∨ met .outgoing urn
  upstream : ∀ urn, urn ∈ after.found .incoming ↔
    urn ∈ before.found .incoming ∨ urn ∉ before.visited ∧ met .incoming urn
  upFrontier : ∀ urn, urn ∈ after.frontier .incoming ↔
    urn ∉ before.visited ∧ met .incoming urn
  downstream : ∀ urn, urn ∈ after.found .outgoing ↔
    urn ∈ before.found .outgoing ∨
      urn ∉ before.visited ∧ ¬ met .incoming urn ∧ met .outgoing urn
  downFrontier : ∀ urn, urn ∈ after.frontier .outgoing ↔
    urn ∉ before.visited ∧ ¬ met .incoming urn ∧ met .outgoing urn
  reason : after.truncationReason = before.truncationReason

theorem hopEffect_of_absorbed {met : Direction → Urn → Prop} {hop : Nat} {search : Search}
    (absorbed : ∀ direction before, Absorbed direction (met direction) before
      (before.absorb direction (expandTask callbacks query hop search direction))) :
    HopEffect met search (expandHop callbacks query hop search) := by
  have up := absorbed .incoming search.clearFrontiers
  have down := absorbed .outgoing
    (search.clearFrontiers.absorb .incoming (expandTask callbacks query hop search .incoming))
  have upKept := down.otherFound .incoming (by decide)
  have upFrontierKept := down.otherFrontier .incoming (by decide)
  have downKept : _ = search.found .outgoing := up.otherFound .outgoing (by decide)
  have downCleared : _ = [] := up.otherFrontier .outgoing (by decide)
  have visited : ∀ urn, _ ↔ urn ∈ search.visited ∨ _ := up.visited
  refine ⟨fun urn => ?_, fun urn => ?_, fun urn => ?_, fun urn => ?_, fun urn => ?_,
    down.reason.trans up.reason⟩
  · rw [expandHop, down.visited, visited, or_assoc]
  · rw [expandHop, upKept]
    exact up.found urn
  · rw [expandHop, upFrontierKept, up.frontier]
    exact or_iff_right List.not_mem_nil
  · rw [expandHop, down.found, downKept, visited, not_or, and_assoc]
  · rw [expandHop, down.frontier, downCleared, visited, not_or, and_assoc]
    exact or_iff_right List.not_mem_nil

theorem expandHop_effect (exact : ExpandsExactly callbacks query edge) (hop : Nat)
    (search : Search) :
    HopEffect (Meets query edge hop search) search (expandHop callbacks query hop search) :=
  hopEffect_of_absorbed fun direction before => absorb_expandTask exact hop direction search before

/-- Every visited node but the anchor is reported on exactly one side. -/
structure Partitioned (anchor : Urn) (search : Search) : Prop where
  visited : ∀ urn, urn ∈ search.visited ↔
    urn = anchor ∨ urn ∈ search.found .incoming ∨ urn ∈ search.found .outgoing
  disjoint : ∀ urn, urn ∈ search.found .incoming → urn ∉ search.found .outgoing
  anchorless : ∀ direction, anchor ∉ search.found direction

theorem start_partitioned (query : TraceQuery) (anchor : Urn) (anchorNode : Option GraphNode) :
    Partitioned anchor (.start query anchor anchorNode) := by
  constructor
  · simp [Search.start, Search.found]
  · simp [Search.start, Search.found]
  · intro direction
    cases direction <;> simp [Search.start, Search.found]

theorem HopEffect.partitioned {met : Direction → Urn → Prop} {before after : Search}
    (effect : HopEffect met before after) (partitioned : Partitioned anchor before) :
    Partitioned anchor after := by
  have anchorVisited : anchor ∈ before.visited := (partitioned.visited anchor).mpr (.inl rfl)
  constructor
  · intro urn
    rw [effect.visited, effect.upstream, effect.downstream, partitioned.visited]
    tauto
  · intro urn
    rw [effect.upstream, effect.downstream, partitioned.visited]
    have := partitioned.disjoint urn
    tauto
  · intro direction
    cases direction with
    | incoming =>
        rw [effect.upstream]
        exact fun either => either.elim (partitioned.anchorless _) (fun new => new.1 anchorVisited)
    | outgoing =>
        rw [effect.downstream]
        exact fun either => either.elim (partitioned.anchorless _) (fun new => new.1 anchorVisited)

/-- No node but the anchor lies on both sides within the depths asked for. -/
def SidesMeetAtAnchor (query : TraceQuery) (edge : Urn → Urn → Prop) (anchor : Urn) : Prop :=
  ∀ urn, Within (facing edge .outgoing) query.downstreamDepth anchor urn →
    Within (facing edge .incoming) query.upstreamDepth anchor urn → urn = anchor

/-- A side that has expanded `hop` times has seen its ball of that radius, and
while it still asks its frontier is the border of that ball. -/
def SideExplored (query : TraceQuery) (edge : Urn → Urn → Prop) (anchor : Urn) (hop : Nat)
    (search : Search) (direction : Direction) : Prop :=
  ∃ frontier, Explored (facing edge direction) anchor (min hop (query.depth direction))
      (fun urn => urn = anchor ∨ urn ∈ search.found direction) frontier ∧
    (hop < query.depth direction → ∀ urn, frontier urn ↔ urn ∈ search.frontier direction)

theorem start_sideExplored (query : TraceQuery) (edge : Urn → Urn → Prop) (anchor : Urn)
    (anchorNode : Option GraphNode) (direction : Direction) :
    SideExplored query edge anchor 0 (.start query anchor anchorNode) direction := by
  refine ⟨(· = anchor), ?_, fun asks urn => ?_⟩
  · have nothing : ∀ urn, (urn = anchor ∨
        urn ∈ (Search.start query anchor anchorNode).found direction) ↔ urn = anchor := by
      cases direction <;> simp [Search.start, Search.found]
    simp only [Nat.zero_min, nothing]
    exact .start
  · cases direction with
    | incoming => simp [Search.start, Search.frontier, show 0 < query.upstreamDepth from asks]
    | outgoing => simp [Search.start, Search.frontier, show 0 < query.downstreamDepth from asks]

theorem SideExplored.within {hop : Nat} {search : Search} {direction : Direction}
    (side : SideExplored query edge anchor hop search direction) {urn : Urn}
    (found : urn ∈ search.found direction) :
    Within (facing edge direction) (query.depth direction) anchor urn := by
  obtain ⟨frontier, explored, -⟩ := side
  exact within_mono (Nat.min_le_right _ _) ((explored.seen_iff urn).mp (.inr found))

theorem SideExplored.meets_within {hop : Nat} {search : Search} {direction : Direction}
    (side : SideExplored query edge anchor hop search direction) {urn : Urn}
    (met : Meets query edge hop search direction urn) :
    Within (facing edge direction) (query.depth direction) anchor urn := by
  obtain ⟨asks, via, onFrontier, last⟩ := met
  obtain ⟨frontier, explored, same⟩ := side
  have reached := (explored.seen_iff via).mp
    (explored.frontier_seen via ((same asks via).mpr onFrontier))
  exact within_mono (show min hop _ + 1 ≤ _ by omega) (.inr ⟨via, reached, last⟩)

/-- A side that no longer asks has seen everything within its depth. -/
theorem SideExplored.finished {hop : Nat} {search : Search} {direction : Direction}
    (side : SideExplored query edge anchor hop search direction)
    (silent : hop < query.depth direction → search.frontier direction = []) (urn : Urn) :
    (urn = anchor ∨ urn ∈ search.found direction) ↔
      Within (facing edge direction) (query.depth direction) anchor urn := by
  obtain ⟨frontier, explored, same⟩ := side
  by_cases asks : hop < query.depth direction
  · refine explored.complete (fun node onFrontier => ?_) (Nat.min_le_right _ _) urn
    have member := (same asks node).mp onFrontier
    rw [silent asks] at member
    exact List.not_mem_nil member
  · rw [Nat.min_eq_right (Nat.le_of_not_lt asks)] at explored
    exact explored.seen_iff urn

theorem sideExplored_next {hop : Nat} {before after : Search} {direction : Direction}
    (side : SideExplored query edge anchor hop before direction)
    (found : ∀ urn, urn ∈ after.found direction ↔ urn ∈ before.found direction ∨
      ¬ (urn = anchor ∨ urn ∈ before.found direction) ∧
        Meets query edge hop before direction urn)
    (frontier : ∀ urn, urn ∈ after.frontier direction ↔
      ¬ (urn = anchor ∨ urn ∈ before.found direction) ∧
        Meets query edge hop before direction urn) :
    SideExplored query edge anchor (hop + 1) after direction := by
  obtain ⟨border, explored, same⟩ := side
  by_cases asks : hop < query.depth direction
  · refine ⟨(· ∈ after.frontier direction), ?_, fun _ _ => Iff.rfl⟩
    rw [show min (hop + 1) (query.depth direction) = min hop (query.depth direction) + 1 by omega]
    refine explored.advance (fun urn => ?_) (fun urn => ?_)
    · rw [frontier]
      simp only [Meets, asks, true_and, same asks]
    · rw [found, frontier]
      tauto
  · refine ⟨border, ?_, fun later => absurd (Nat.lt_of_succ_lt later) asks⟩
    have unchanged : ∀ urn, urn ∈ after.found direction ↔ urn ∈ before.found direction := by
      intro urn
      simp [found, Meets, asks]
    simp only [unchanged]
    rw [show min (hop + 1) (query.depth direction) = min hop (query.depth direction) by omega]
    exact explored

theorem HopEffect.sidesExplored {hop : Nat} {before after : Search}
    (effect : HopEffect (Meets query edge hop before) before after)
    (partitioned : Partitioned anchor before) (meet : SidesMeetAtAnchor query edge anchor)
    (sides : ∀ direction, SideExplored query edge anchor hop before direction) :
    ∀ direction, SideExplored query edge anchor (hop + 1) after direction := by
  have downUnmet : ∀ urn, urn ≠ anchor → Meets query edge hop before .incoming urn →
      urn ∉ before.found .outgoing := fun urn distinct met found =>
    distinct (meet urn ((sides .outgoing).within found) ((sides .incoming).meets_within met))
  have upUnmet : ∀ urn, urn ≠ anchor → Meets query edge hop before .outgoing urn →
      urn ∉ before.found .incoming ∧ ¬ Meets query edge hop before .incoming urn :=
    fun urn distinct met =>
      have reached := (sides .outgoing).meets_within met
      ⟨fun found => distinct (meet urn reached ((sides .incoming).within found)),
        fun metUp => distinct (meet urn reached ((sides .incoming).meets_within metUp))⟩
  intro direction
  cases direction with
  | incoming =>
      refine sideExplored_next (sides .incoming) (fun urn => ?_) (fun urn => ?_)
      · rw [effect.upstream, partitioned.visited]
        have := downUnmet urn
        tauto
      · rw [effect.upFrontier, partitioned.visited]
        have := downUnmet urn
        tauto
  | outgoing =>
      refine sideExplored_next (sides .outgoing) (fun urn => ?_) (fun urn => ?_)
      · rw [effect.downstream, partitioned.visited]
        have := upUnmet urn
        tauto
      · rw [effect.downFrontier, partitioned.visited]
        have := upUnmet urn
        tauto

theorem searchLoop_partitioned (exact : ExpandsExactly callbacks query edge)
    {search : Search} (partitioned : Partitioned anchor search) (hopsLeft hop : Nat) :
    Partitioned anchor (searchLoop callbacks expired query hopsLeft hop search) := by
  induction hopsLeft generalizing hop search with
  | zero => exact partitioned
  | succ hopsLeft ih =>
      have next := (expandHop_effect exact hop search).partitioned partitioned
      rw [searchLoop]
      split
      · exact ⟨partitioned.visited, partitioned.disjoint, partitioned.anchorless⟩
      · split
        · exact ⟨partitioned.visited, partitioned.disjoint, partitioned.anchorless⟩
        · split
          · exact partitioned
          · simp only []
            split
            · exact next
            · exact ih next (hop + 1)

theorem silent_of_isNone {hop : Nat} {search : Search} {direction : Direction}
    (none : (expandTask callbacks query hop search direction).isNone = true)
    (asks : hop < query.depth direction) : search.frontier direction = [] := by
  unfold expandTask at none
  by_contra nonempty
  rw [if_pos ⟨asks, nonempty⟩] at none
  cases none

theorem searchLoop_complete (exact : ExpandsExactly callbacks query edge)
    (meet : SidesMeetAtAnchor query edge anchor) {search : Search}
    (partitioned : Partitioned anchor search) {hopsLeft hop : Nat}
    (sides : ∀ direction, SideExplored query edge anchor hop search direction)
    (enough : ∀ direction, query.depth direction ≤ hop + hopsLeft)
    (whole : (searchLoop callbacks expired query hopsLeft hop search).truncationReason = none)
    (direction : Direction) (urn : Urn) :
    (urn = anchor ∨ urn ∈ (searchLoop callbacks expired query hopsLeft hop search).found direction)
      ↔ Within (facing edge direction) (query.depth direction) anchor urn := by
  induction hopsLeft generalizing hop search with
  | zero => exact (sides direction).finished (fun asks => absurd (enough direction) (by omega)) urn
  | succ hopsLeft ih =>
      have effect := expandHop_effect exact hop search
      have explored := effect.sidesExplored partitioned meet sides
      rw [searchLoop] at whole ⊢
      by_cases late : expired hop = true
      · rw [if_pos late] at whole
        cases whole
      by_cases full : query.maxNodes ≤ search.nodesByUrn.keys.length
      · rw [if_neg late, if_pos full] at whole
        cases whole
      rw [if_neg late, if_neg full] at whole ⊢
      by_cases idle : (expandTask callbacks query hop search .incoming).isNone = true ∧
          (expandTask callbacks query hop search .outgoing).isNone = true
      · rw [if_pos idle]
        refine (sides direction).finished (fun asks => ?_) urn
        cases direction with
        | incoming => exact silent_of_isNone idle.1 asks
        | outgoing => exact silent_of_isNone idle.2 asks
      rw [if_neg idle] at whole ⊢
      simp only [] at whole ⊢
      by_cases stuck : (expandHop callbacks query hop search).upFrontier = [] ∧
          (expandHop callbacks query hop search).downFrontier = []
      · rw [if_pos stuck]
        refine (explored direction).finished (fun _ => ?_) urn
        cases direction with
        | incoming => exact stuck.1
        | outgoing => exact stuck.2
      · rw [if_neg stuck] at whole ⊢
        refine ih (effect.partitioned partitioned) explored (fun side => ?_) whole
        have := enough side
        omega

theorem searchFrom_complete (exact : ExpandsExactly callbacks query edge)
    (meet : SidesMeetAtAnchor query edge anchor) {anchorNode : Option GraphNode}
    (whole : (searchFrom callbacks expired query anchor anchorNode).truncationReason = none)
    (direction : Direction) (urn : Urn) :
    (urn = anchor ∨ urn ∈ (searchFrom callbacks expired query anchor anchorNode).found direction)
      ↔ Within (facing edge direction) (query.depth direction) anchor urn := by
  refine searchLoop_complete exact meet (start_partitioned query anchor anchorNode)
    (start_sideExplored query edge anchor anchorNode) (fun side => ?_) whole direction urn
  rw [Nat.zero_add]
  cases side with
  | incoming => exact Nat.le_max_left _ _
  | outgoing => exact Nat.le_max_right _ _

/-- Each side of the result is its ball around the anchor, without the anchor. -/
def ExactlyReachable (edge : Urn → Urn → Prop) (anchor : Urn) (query : TraceQuery)
    (result : TraceResult) : Prop :=
  (∀ urn, urn ∈ result.downstreamUrns ↔
    urn ≠ anchor ∧ Within (facing edge .outgoing) query.downstreamDepth anchor urn) ∧
  ∀ urn, urn ∈ result.upstreamUrns ↔
    urn ≠ anchor ∧ Within (facing edge .incoming) query.upstreamDepth anchor urn

theorem traceAtLevel_search {inherited : Option Urn} {result : TraceResult}
    (resolved : resolveAnchor callbacks query = .ok (anchor, inherited))
    (ran : traceAtLevel callbacks expired query = .ok result) :
    ∃ anchorNode, let search := searchFrom callbacks expired query anchor anchorNode
      result.upstreamUrns = search.found .incoming ∧
      result.downstreamUrns = search.found .outgoing ∧
      result.truncated = search.truncationReason.isSome := by
  obtain ⟨focusNode, -, ran⟩ := bind_eq_ok_iff.mp ran
  obtain ⟨start, resolved', ran⟩ := bind_eq_ok_iff.mp ran
  cases resolved.symm.trans resolved'
  obtain ⟨anchorNode, -, ran⟩ := bind_eq_ok_iff.mp ran
  obtain ⟨focusLevel, -, ran⟩ := bind_eq_ok_iff.mp ran
  cases ran
  exact ⟨anchorNode, rfl, rfl, rfl⟩

theorem exactlyReachable_of_meet {inherited : Option Urn} {result : TraceResult}
    (exact : ExpandsExactly callbacks query edge)
    (resolved : resolveAnchor callbacks query = .ok (anchor, inherited))
    (ran : traceAtLevel callbacks expired query = .ok result)
    (whole : result.truncated = false) (meet : SidesMeetAtAnchor query edge anchor) :
    ExactlyReachable edge anchor query result := by
  obtain ⟨anchorNode, upstream, downstream, truncated⟩ := traceAtLevel_search resolved ran
  have partitioned : Partitioned anchor (searchFrom callbacks expired query anchor anchorNode) :=
    searchLoop_partitioned exact (start_partitioned query anchor anchorNode) _ 0
  have unbroken : (searchFrom callbacks expired query anchor anchorNode).truncationReason =
      none := by
    rw [whole] at truncated
    exact Option.isNone_iff_eq_none.mp (Option.isSome_eq_false_iff.mp truncated.symm)
  have side : ∀ direction urn,
      urn ∈ (searchFrom callbacks expired query anchor anchorNode).found direction ↔
        urn ≠ anchor ∧ Within (facing edge direction) (query.depth direction) anchor urn := by
    intro direction urn
    rw [← searchFrom_complete exact meet unbroken]
    constructor
    · intro found
      refine ⟨?_, .inr found⟩
      intro same
      exact partitioned.anchorless direction (same ▸ found)
    · intro ⟨distinct, either⟩
      exact either.resolve_left distinct
  rw [ExactlyReachable, upstream, downstream]
  exact ⟨side .outgoing, side .incoming⟩

theorem traceAtLevel_disjoint {inherited : Option Urn} {result : TraceResult}
    (exact : ExpandsExactly callbacks query edge)
    (resolved : resolveAnchor callbacks query = .ok (anchor, inherited))
    (ran : traceAtLevel callbacks expired query = .ok result) {urn : Urn}
    (up : urn ∈ result.upstreamUrns) : urn ∉ result.downstreamUrns := by
  obtain ⟨anchorNode, upstream, downstream, -⟩ := traceAtLevel_search resolved ran
  have partitioned : Partitioned anchor (searchFrom callbacks expired query anchor anchorNode) :=
    searchLoop_partitioned exact (start_partitioned query anchor anchorNode) _ 0
  rw [upstream] at up
  rw [downstream]
  exact partitioned.disjoint urn up

/-- A one-sided trace is exact on every graph, so a two-sided trace is the union
of the two one-sided ones exactly when it is exact itself. -/
theorem oneSided_exactlyReachable {inherited : Option Urn} {result : TraceResult}
    (exact : ExpandsExactly callbacks query edge)
    (resolved : resolveAnchor callbacks query = .ok (anchor, inherited))
    (ran : traceAtLevel callbacks expired query = .ok result)
    (whole : result.truncated = false)
    (oneSided : query.upstreamDepth = 0 ∨ query.downstreamDepth = 0) :
    ExactlyReachable edge anchor query result := by
  refine exactlyReachable_of_meet exact resolved ran whole fun urn down up => ?_
  cases oneSided with
  | inl zero =>
      rw [zero] at up
      exact up
  | inr zero =>
      rw [zero] at down
      exact down

/-- A trace that was not cut short reports both balls exactly when they meet
nowhere but at the anchor: a node in both is reported on one side only. -/
theorem traceAtLevel_exactlyReachable_iff {inherited : Option Urn} {result : TraceResult}
    (exact : ExpandsExactly callbacks query edge)
    (resolved : resolveAnchor callbacks query = .ok (anchor, inherited))
    (ran : traceAtLevel callbacks expired query = .ok result)
    (whole : result.truncated = false) :
    ExactlyReachable edge anchor query result ↔ SidesMeetAtAnchor query edge anchor := by
  constructor
  · intro ⟨down, up⟩ urn downReached upReached
    by_contra distinct
    exact traceAtLevel_disjoint exact resolved ran ((up urn).mpr ⟨distinct, upReached⟩)
      ((down urn).mpr ⟨distinct, downReached⟩)
  · exact exactlyReachable_of_meet exact resolved ran whole

/-- Callbacks that look lineage up in a list of source and target URNs. -/
def listCallbacks (edges : List (Urn × Urn)) : TraceCallbacks where
  getNode urn := .ok (some ⟨urn, "dataset"⟩)
  getNodesBatch urns := .ok (urns.map fun urn => ⟨urn, "dataset"⟩)
  getNodeLevel _ := .ok (some 3)
  resolveAnchorAtLevel urn _ _ := .ok urn
  hasAggregatedAtLevel _ _ := .ok true
  findAncestorWithLineage _ _ _ := .ok none
  expandFrontier urns direction _ _ _ := .ok <|
    match direction with
    | .outgoing => (edges.filter (·.1 ∈ urns)).map fun (source, target) =>
        { edgeId := source ++ "|" ++ target, sourceUrn := source, targetUrn := target,
          newUrn := target }
    | .incoming => (edges.filter (·.2 ∈ urns)).map fun (source, target) =>
        { edgeId := source ++ "|" ++ target, sourceUrn := source, targetUrn := target,
          newUrn := source }
  collectAncestorUrns _ _ := .ok []
  fetchContainmentEdges _ _ := .ok []

theorem listCallbacks_expandsExactly (edges : List (Urn × Urn)) (query : TraceQuery) :
    ExpandsExactly (listCallbacks edges) query fun source target => (source, target) ∈ edges := by
  intro urns direction budget
  refine ⟨_, rfl, fun urn => ?_⟩
  cases direction <;> simp [facing, and_comm]

/-- One hop in both directions from `a`. -/
def bothWays : TraceQuery where
  urn := "a"
  level := 3
  upstreamDepth := 1
  downstreamDepth := 1
  lineageEdgeTypes := []
  containmentEdgeTypes := []
  maxNodes := 100

def neverExpired (_ : Nat) : Bool := false

/-- Over `edges` between `a` and `b`, one hop each way finds `b` on the sides given. -/
def oneHopResult (edges : List GraphEdge) (upstreamUrns downstreamUrns : List Urn) :
    TraceResult where
  nodes := [⟨"b", "dataset"⟩, ⟨"a", "dataset"⟩]
  edges := edges
  containmentEdges := []
  upstreamUrns := upstreamUrns
  downstreamUrns := downstreamUrns
  focus := ⟨"a", 3, "dataset"⟩
  effectiveLevel := 3
  isInherited := false
  inheritedFromUrn := none
  truncated := false
  truncationReason := none

/-- Two nodes in a row above `a`, and two beside each other with one below both. -/
def diamond : List (Urn × Urn) :=
  [("y", "x"), ("x", "a"), ("a", "b"), ("a", "c"), ("b", "d"), ("c", "d")]

def twoHops : TraceQuery := { bothWays with upstreamDepth := 2, downstreamDepth := 2 }

theorem diamond_meets :
    SidesMeetAtAnchor twoHops (fun source target => (source, target) ∈ diamond) "a" := by
  intro urn down up
  have above : (urn = "a" ∨ urn = "x") ∨ urn = "x" ∨ urn = "y" := by
    simpa [Within, facing, twoHops, bothWays, diamond, or_and_right, exists_or] using up
  have below : (urn = "a" ∨ urn = "b" ∨ urn = "c") ∨ (urn = "b" ∨ urn = "c") ∨ urn = "d" := by
    simpa [Within, facing, twoHops, bothWays, diamond, or_and_right, exists_or] using down
  rcases above with (rfl | rfl) | rfl | rfl
  · rfl
  · exact absurd below (by decide)
  · exact absurd below (by decide)
  · exact absurd below (by decide)

theorem diamond_exactlyReachable : ∃ result,
    traceAtLevel (listCallbacks diamond) neverExpired twoHops = .ok result ∧
      result.upstreamUrns = ["y", "x"] ∧ result.downstreamUrns = ["d", "c", "b"] ∧
      ExactlyReachable (fun source target => (source, target) ∈ diamond) "a" twoHops result := by
  obtain ⟨result, ran, ended⟩ := map_eq_ok_iff.mp
    (show (traceAtLevel (listCallbacks diamond) neverExpired twoHops).map (fun result =>
      (result.truncated, result.upstreamUrns, result.downstreamUrns)) =
        .ok (false, ["y", "x"], ["d", "c", "b"]) by decide +kernel)
  obtain ⟨whole, up, down⟩ : result.truncated = false ∧ result.upstreamUrns = ["y", "x"] ∧
      result.downstreamUrns = ["d", "c", "b"] := by simpa using ended
  refine ⟨result, ran, up, down, ?_⟩
  exact (traceAtLevel_exactlyReachable_iff (listCallbacks_expandsExactly diamond twoHops)
    (show resolveAnchor _ _ = .ok ("a", none) from rfl) ran whole).mpr diamond_meets

/-- On the cycle between `a` and `b` the node `b` is downstream of `a` as well
as upstream, and is reported upstream only. -/
theorem cycle_downstream_missing :
    ¬ ∀ (callbacks : TraceCallbacks) (expired : Nat → Bool) (query : TraceQuery)
      (edge : Urn → Urn → Prop) (anchor : Urn) (inherited : Option Urn) (result : TraceResult),
      ExpandsExactly callbacks query edge →
      resolveAnchor callbacks query = .ok (anchor, inherited) →
      traceAtLevel callbacks expired query = .ok result → result.truncated = false →
      ExactlyReachable edge anchor query result := by
  intro always
  have reported := always (listCallbacks [("b", "a"), ("a", "b")]) neverExpired bothWays
    (fun source target => (source, target) ∈ [("b", "a"), ("a", "b")]) "a" none
    (oneHopResult [⟨"a|b", "a", "b", "AGGREGATED", [], 1⟩, ⟨"b|a", "b", "a", "AGGREGATED", [], 1⟩]
      ["b"] [])
    (listCallbacks_expandsExactly _ _) rfl (by decide) rfl
  have downstream := (reported.1 "b").mpr
    ⟨by decide, .inr ⟨"a", rfl, by simp [facing]⟩⟩
  exact List.not_mem_nil downstream

end Univiz.Trace

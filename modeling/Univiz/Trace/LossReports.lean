import Mathlib.Data.Set.Card
import Univiz.Trace.Truncation

namespace Univiz.Trace

open Univiz.Data

/-! Which hops of `trace_at_level` lose edges without notice.

The conditions are about the search of the whole lineage: the layers that it comes to, the records
that they match and the nodes that are known by then, without budgets and failures. -/

variable (callbacks : TraceCallbacks) (expired : Nat → Bool) (query : TraceQuery)
  (incident : Incidence)

/-- The records that a side matches in a hop. -/
def LayerRecords (anchor : Urn) (hop : Nat) (direction : Direction) : Set FrontierRecord :=
  {record | hop < query.depth direction ∧
    ∃ urn, (layerAt (Leads incident) query.depth anchor hop).frontier direction urn ∧
      record ∈ incident direction urn}

/-- The nodes that are there when a hop begins. -/
def Known (anchor : Urn) (anchorNode : Option GraphNode) (hop : Nat) : Set Urn :=
  {urn | anchorNode.isSome = true ∧ urn = anchor ∨
    ∃ former < hop, ∃ direction, ∃ record ∈ LayerRecords query incident anchor former direction,
      record.newNode.isSome = true ∧ record.newUrn = urn}

noncomputable def budgetAt (anchor : Urn) (anchorNode : Option GraphNode) (hop : Nat) : Nat :=
  query.maxNodes - (Known query incident anchor anchorNode hop).ncard

/-- The hop is past the deadline, or `max_nodes` nodes are known. -/
def Ends (anchor : Urn) (anchorNode : Option GraphNode) (hop : Nat) : Prop :=
  expired hop = true ∨ query.maxNodes ≤ (Known query incident anchor anchorNode hop).ncard

/-- The hop is within the depths, and there is a frontier. -/
def Reaches (anchor : Urn) (hop : Nat) : Prop :=
  hop < max query.upstreamDepth query.downstreamDepth ∧
    (hop = 0 ∨ ∃ direction urn,
      (layerAt (Leads incident) query.depth anchor hop).frontier direction urn)

/-- The expansion of a side does not raise. -/
def Answers (anchor : Urn) (anchorNode : Option GraphNode) (hop : Nat) (direction : Direction) :
    Prop :=
  ∀ urns : List Urn, (∀ urn, urn ∈ urns ↔
      (layerAt (Leads incident) query.depth anchor hop).frontier direction urn) →
    ∃ records, callbacks.expandFrontier urns direction query.level query.lineageFilter
      (budgetAt query incident anchor anchorNode hop) = .ok records

/-- No expansion of the hop raises or has more matching records than its budget. -/
def Lossless (anchor : Urn) (anchorNode : Option GraphNode) (hop : Nat) : Prop :=
  ∀ direction, hop < query.depth direction →
    (∃ urn, (layerAt (Leads incident) query.depth anchor hop).frontier direction urn) →
    Answers callbacks query incident anchor anchorNode hop direction ∧
      (LayerRecords query incident anchor hop direction).ncard ≤
        budgetAt query incident anchor anchorNode hop

/-- A side answers with records that all lead to new nodes, and so a further hop begins, which is
past the deadline or finds `max_nodes` nodes. -/
def Noticed (anchor : Urn) (anchorNode : Option GraphNode) (hop : Nat) : Prop :=
  hop + 1 < max query.upstreamDepth query.downstreamDepth ∧
  ∃ direction, (LayerRecords query incident anchor hop direction).Nonempty ∧
    Answers callbacks query incident anchor anchorNode hop direction ∧
    (∀ record ∈ LayerRecords query incident anchor hop direction,
      ¬ (layerAt (Leads incident) query.depth anchor hop).seen record.newUrn) ∧
    (expired (hop + 1) = true ∨
      budgetAt query incident anchor anchorNode hop ≤
          (LayerRecords query incident anchor hop direction).ncard ∧
        Set.InjOn FrontierRecord.newUrn (LayerRecords query incident anchor hop direction) ∧
        ∀ record ∈ LayerRecords query incident anchor hop direction,
          record.newNode.isSome = true)

/-- Up to the first hop that is past the deadline or finds `max_nodes` nodes, a hop loses nothing,
or the next one notices.  If there is no such hop, the sides come to every edge. -/
structure Conclusive (anchor : Urn) (anchorNode : Option GraphNode) : Prop where
  hops : ∀ hop, Reaches query incident anchor hop →
    (∀ former ≤ hop, ¬ Ends expired query incident anchor anchorNode former) →
    (∀ former < hop, Lossless callbacks query incident anchor anchorNode former) →
      Lossless callbacks query incident anchor anchorNode hop ∨
        Noticed callbacks expired query incident anchor anchorNode hop
  met : (∀ hop, Reaches query incident anchor hop →
      ¬ Ends expired query incident anchor anchorNode hop ∧
        Lossless callbacks query incident anchor anchorNode hop) →
    ∀ record, WithinDepths query incident anchor record →
      Met query incident anchor record.edgeId

/-- The expansion of a side raises. -/
def Raises (anchor : Urn) (anchorNode : Option GraphNode) (hop : Nat) (direction : Direction) :
    Prop :=
  ∀ urns : List Urn, (∀ urn, urn ∈ urns ↔
      (layerAt (Leads incident) query.depth anchor hop).frontier direction urn) →
    ∃ message, callbacks.expandFrontier urns direction query.level query.lineageFilter
      (budgetAt query incident anchor anchorNode hop) = .error message

/-- A side raises or has more matching records than its budget. -/
def Loses (anchor : Urn) (anchorNode : Option GraphNode) (hop : Nat) : Prop :=
  ∃ direction, hop < query.depth direction ∧
    (∃ urn, (layerAt (Leads incident) query.depth anchor hop).frontier direction urn) ∧
    (Raises callbacks query incident anchor anchorNode hop direction ∨
      budgetAt query incident anchor anchorNode hop <
        (LayerRecords query incident anchor hop direction).ncard)

/-- The hop is the last of the depths, or no record that it can get leads to a new node. -/
def IsLast (anchor : Urn) (anchorNode : Option GraphNode) (hop : Nat) : Prop :=
  max query.upstreamDepth query.downstreamDepth ≤ hop + 1 ∨
    ∀ direction, Raises callbacks query incident anchor anchorNode hop direction ∨
      ∀ record ∈ LayerRecords query incident anchor hop direction,
        (layerAt (Leads incident) query.depth anchor hop).seen record.newUrn

/-- A hop loses something and no further one begins, or the sides do not come to an edge. -/
def Unreported (anchor : Urn) (anchorNode : Option GraphNode) : Prop :=
  (∃ hop, Reaches query incident anchor hop ∧
    (∀ former ≤ hop, ¬ Ends expired query incident anchor anchorNode former) ∧
    (∀ former < hop, Lossless callbacks query incident anchor anchorNode former) ∧
    Loses callbacks query incident anchor anchorNode hop ∧
    IsLast callbacks query incident anchor anchorNode hop) ∨
  (∀ hop, Reaches query incident anchor hop →
      ¬ Ends expired query incident anchor anchorNode hop ∧
        Lossless callbacks query incident anchor anchorNode hop) ∧
    ∃ record, WithinDepths query incident anchor record ∧
      ¬ Met query incident anchor record.edgeId

variable {callbacks expired query incident} {anchor : Urn} {anchorNode : Option GraphNode}
  {hop : Nat} {search : Search} {direction : Direction}

theorem expandHop_nodes (urn : Urn) :
    urn ∈ (expandHop callbacks query hop search).nodesByUrn ↔
      urn ∈ search.nodesByUrn ∨ ∃ direction,
        ∃ record ∈ received callbacks query hop search direction,
          record.newNode.isSome = true ∧ record.newUrn = urn := by
  have cleared : urn ∈ search.clearFrontiers.nodesByUrn ↔ urn ∈ search.nodesByUrn := Iff.rfl
  rw [expandHop, absorb_received, absorb_received, foldl_collect_nodes, foldl_collect_nodes,
    cleared]
  refine ⟨?_, ?_⟩
  · rintro ((old | upstream) | downstream)
    · exact .inl old
    · exact .inr ⟨.incoming, upstream⟩
    · exact .inr ⟨.outgoing, downstream⟩
  · rintro (old | ⟨direction, found⟩)
    · exact .inl (.inl old)
    · cases direction with
      | incoming => exact .inl (.inr found)
      | outgoing => exact .inr found

/-- The search knows the nodes that the search of the whole lineage knows. -/
structure Tracks (query : TraceQuery) (incident : Incidence) (anchor : Urn)
    (anchorNode : Option GraphNode) (hop : Nat) (search : Search) : Prop
    extends Follows query incident anchor hop search where
  known : ∀ urn, urn ∈ search.nodesByUrn ↔ urn ∈ Known query incident anchor anchorNode hop

theorem start_tracks (query : TraceQuery) (incident : Incidence) (anchor : Urn)
    (anchorNode : Option GraphNode) :
    Tracks query incident anchor anchorNode 0 (.start query anchor anchorNode) := by
  refine ⟨start_follows query incident anchor anchorNode, ?_⟩
  intro urn
  simp only [Search.start, Known, Nat.not_lt_zero, false_and, exists_false, or_false,
    Set.mem_ofPred_eq]
  cases anchorNode with
  | none => simp
  | some node => simp [AList.mem_keys]

theorem known_next (hop : Nat) (urn : Urn) :
    urn ∈ Known query incident anchor anchorNode (hop + 1) ↔
      urn ∈ Known query incident anchor anchorNode hop ∨ ∃ direction,
        ∃ record ∈ LayerRecords query incident anchor hop direction,
          record.newNode.isSome = true ∧ record.newUrn = urn := by
  simp only [Known, Set.mem_ofPred_eq, or_assoc]
  refine or_congr_right ⟨?_, ?_⟩
  · intro ⟨former, earlier, found⟩
    rcases Nat.lt_succ_iff_lt_or_eq.mp earlier with before | rfl
    · exact .inl ⟨former, before, found⟩
    · exact .inr found
  · rintro (⟨former, before, found⟩ | found)
    · exact ⟨former, Nat.lt_succ_of_lt before, found⟩
    · exact ⟨hop, Nat.lt_succ_self hop, found⟩

theorem Follows.matched_iff (follows : Follows query incident anchor hop search)
    (record : FrontierRecord) :
    Matched query incident hop search direction record ↔
      record ∈ LayerRecords query incident anchor hop direction := by
  simp only [Matched, LayerRecords, Set.mem_ofPred_eq, follows.frontier]

theorem Tracks.next (budget : ExpandsToBudget callbacks query incident)
    (whole : ¬ Hop.Loses callbacks query incident ⟨hop, search⟩)
    (tracks : Tracks query incident anchor anchorNode hop search) :
    Tracks query incident anchor anchorNode (hop + 1) (expandHop callbacks query hop search) := by
  refine ⟨tracks.toFollows.next budget whole, ?_⟩
  intro urn
  rw [expandHop_nodes, known_next, tracks.known]
  refine or_congr_right (exists_congr fun direction => exists_congr fun record => ?_)
  refine and_congr_left fun _ => ?_
  rw [← tracks.matched_iff, mem_received_iff budget whole]

theorem known_seen {urn : Urn} (known : urn ∈ Known query incident anchor anchorNode hop) :
    (layerAt (Leads incident) query.depth anchor hop).seen urn := by
  induction hop with
  | zero =>
      rcases known with ⟨-, atAnchor⟩ | ⟨former, before, -⟩
      · exact atAnchor
      · exact absurd before (Nat.not_lt_zero former)
  | succ hop ih =>
      rcases (known_next hop urn).mp known with before |
        ⟨direction, record, ⟨early, via, onFrontier, member⟩, -, same⟩
      · exact .inl (ih before)
      · have met : (layerAt (Leads incident) query.depth anchor hop).Meets (Leads incident)
            query.depth hop direction urn := ⟨early, via, onFrontier, record, member, same⟩
        cases direction with
        | incoming => exact .inr (.inl met)
        | outgoing => exact .inr (.inr met)

theorem ncard_of_mem_iff {α : Type} {items : List α} {set : Set α} (distinct : items.Nodup)
    (same : ∀ item, item ∈ items ↔ item ∈ set) : set.ncard = items.length := by
  classical
  have finite : set = (items.toFinset : Set α) := by
    ext item
    rw [Finset.mem_coe, List.mem_toFinset, same]
  rw [finite, Set.ncard_coe_finset, List.toFinset_card_of_nodup distinct]

namespace Tracks

variable (tracks : Tracks query incident anchor anchorNode hop search)
include tracks

theorem ncard_known :
    (Known query incident anchor anchorNode hop).ncard = search.nodesByUrn.keys.length :=
  ncard_of_mem_iff search.nodesByUrn.keys_nodup tracks.known

theorem budget_eq : budgetAt query incident anchor anchorNode hop =
    query.maxNodes - search.nodesByUrn.keys.length := by
  rw [budgetAt, tracks.ncard_known]

theorem cutOff_iff : Hop.CutOff expired query ⟨hop, search⟩ ↔
    Ends expired query incident anchor anchorNode hop := by
  rw [Hop.CutOff, Ends, tracks.ncard_known]

theorem ncard_records (early : hop < query.depth direction) :
    (LayerRecords query incident anchor hop direction).ncard =
      (matching incident direction (search.frontier direction)).length := by
  refine ncard_of_mem_iff (List.nodup_dedup _) ?_
  intro record
  rw [mem_matching, ← tracks.matched_iff, Matched, and_iff_right early]

/-- The answer of a side that answers: its matching records, cut at the budget. -/
theorem answered (budget : ExpandsToBudget callbacks query incident)
    (answers : Answers callbacks query incident anchor anchorNode hop direction) :
    ∃ records, callbacks.expandFrontier (search.frontier direction) direction query.level
        query.lineageFilter (query.maxNodes - search.nodesByUrn.keys.length) = .ok records ∧
      CutAt (query.maxNodes - search.nodesByUrn.keys.length)
        (matching incident direction (search.frontier direction)) records := by
  obtain ⟨records, answered⟩ := answers (search.frontier direction) (tracks.frontier direction)
  rw [tracks.budget_eq] at answered
  exact ⟨records, answered, budget _ _ _ _ answered⟩

theorem not_loses (budget : ExpandsToBudget callbacks query incident)
    (lossless : Lossless callbacks query incident anchor anchorNode hop) :
    ¬ Hop.Loses callbacks query incident ⟨hop, search⟩ := by
  rintro ⟨direction, answer, asked, lost⟩
  simp only [expandTask] at asked
  split at asked
  · rename_i asks
    obtain ⟨early, nonempty⟩ := asks
    cases asked
    obtain ⟨urn, member⟩ := List.exists_mem_of_ne_nil _ nonempty
    obtain ⟨answers, few⟩ := lossless direction early ⟨urn, (tracks.frontier _ _).mp member⟩
    obtain ⟨records, answered, cut⟩ := tracks.answered budget answers
    obtain ⟨record, matched, withheld⟩ := lost records answered
    rw [tracks.ncard_records early, tracks.budget_eq] at few
    exact withheld ((cut.mem_iff few record).mpr matched)
  · cases asked

theorem loses (budget : ExpandsToBudget callbacks query incident)
    (lossy : Loses callbacks query incident anchor anchorNode hop) :
    Hop.Loses callbacks query incident ⟨hop, search⟩ := by
  obtain ⟨direction, early, ⟨urn, onFrontier⟩, lost⟩ := lossy
  have nonempty := List.ne_nil_of_mem ((tracks.frontier direction urn).mpr onFrontier)
  refine ⟨direction, _, by rw [expandTask, if_pos ⟨early, nonempty⟩], ?_⟩
  intro records answered
  rcases lost with raises | more
  · obtain ⟨message, raised⟩ := raises (search.frontier direction) (tracks.frontier direction)
    rw [tracks.budget_eq] at raised
    cases raised.symm.trans answered
  · rw [tracks.ncard_records early, tracks.budget_eq] at more
    exact (budget _ _ _ _ answered).withholds (List.nodup_dedup _) more

/-- What a side gets, it matches, and does not raise. -/
theorem layerRecord_of_received (budget : ExpandsToBudget callbacks query incident)
    {record : FrontierRecord} (got : record ∈ received callbacks query hop search direction) :
    record ∈ LayerRecords query incident anchor hop direction ∧
      ¬ Raises callbacks query incident anchor anchorNode hop direction := by
  rw [received] at got
  by_cases asks : hop < query.depth direction ∧ search.frontier direction ≠ []
  · rw [expandTask, if_pos asks] at got
    cases answered : callbacks.expandFrontier (search.frontier direction) direction query.level
        query.lineageFilter (query.maxNodes - search.nodesByUrn.keys.length) with
    | error message =>
        rw [answered] at got
        cases got
    | ok records =>
        rw [answered] at got
        refine ⟨?_, ?_⟩
        · rw [← tracks.matched_iff, Matched, and_iff_right asks.1, ← mem_matching]
          exact (budget _ _ _ _ answered).subset got
        · intro raises
          obtain ⟨message, raised⟩ :=
            raises (search.frontier direction) (tracks.frontier direction)
          rw [tracks.budget_eq] at raised
          cases raised.symm.trans answered
  · rw [expandTask, if_neg asks] at got
    cases got

theorem silent_iff : search.upFrontier = [] ∧ search.downFrontier = [] ↔
    ∀ side urn, ¬ (layerAt (Leads incident) query.depth anchor hop).frontier side urn := by
  simp only [← tracks.frontier]
  constructor
  · rintro ⟨up, down⟩ side urn
    cases side with
    | incoming =>
        rw [Search.frontier, up]
        exact List.not_mem_nil
    | outgoing =>
        rw [Search.frontier, down]
        exact List.not_mem_nil
  · intro silent
    exact ⟨List.eq_nil_iff_forall_not_mem.mpr (silent .incoming),
      List.eq_nil_iff_forall_not_mem.mpr (silent .outgoing)⟩

/-- After a hop with enough new nodes another one begins, and it is cut off. -/
theorem next_cutOff (budget : ExpandsToBudget callbacks query incident)
    (running : ¬ Ends expired query incident anchor anchorNode hop)
    (noticed : Noticed callbacks expired query incident anchor anchorNode hop) :
    ¬ ((expandHop callbacks query hop search).upFrontier = [] ∧
        (expandHop callbacks query hop search).downFrontier = []) ∧
      Hop.CutOff expired query ⟨hop + 1, expandHop callbacks query hop search⟩ := by
  obtain ⟨-, direction, ⟨first, matched⟩, answers, fresh, full⟩ := noticed
  obtain ⟨early, via, onFrontier, -⟩ := id matched
  obtain ⟨records, answered, cut⟩ := tracks.answered budget answers
  have got : received callbacks query hop search direction = records := by
    have nonempty := List.ne_nil_of_mem ((tracks.frontier direction via).mpr onFrontier)
    rw [received, expandTask, if_pos ⟨early, nonempty⟩, answered]
  have sound : ∀ record ∈ records, record ∈ LayerRecords query incident anchor hop direction := by
    intro record member
    rw [← tracks.matched_iff, Matched, and_iff_right early, ← mem_matching]
    exact cut.subset member
  have room : search.nodesByUrn.keys.length < query.maxNodes := by
    rw [Ends, not_or, tracks.ncard_known, Nat.not_le] at running
    exact running.2
  have some : 0 < (matching incident direction (search.frontier direction)).length := by
    refine List.length_pos_of_mem (a := first) ?_
    rw [mem_matching]
    exact (tracks.matched_iff first).mpr matched |>.2
  have length := cut.length_eq
  refine ⟨?_, ?_⟩
  · obtain ⟨record, member⟩ := List.exists_mem_of_length_pos (l := records) (by omega)
    have unseen : record.newUrn ∉ search.visited := by
      rw [tracks.seen]
      exact fresh record (sound record member)
    have effect := @expandHop_received callbacks query hop search
    have met : ∃ other ∈ received callbacks query hop search direction,
        other.newUrn = record.newUrn := ⟨record, got ▸ member, rfl⟩
    rintro ⟨up, down⟩
    by_cases upstream : ∃ other ∈ received callbacks query hop search .incoming,
        other.newUrn = record.newUrn
    · exact List.ne_nil_of_mem ((effect.upFrontier _).mpr ⟨unseen, upstream⟩) up
    · cases direction with
      | incoming => exact upstream met
      | outgoing =>
          exact List.ne_nil_of_mem ((effect.downFrontier _).mpr ⟨unseen, upstream, met⟩) down
  · refine full.imp_right ?_
    rintro ⟨many, injective, hydrated⟩
    rw [tracks.budget_eq, tracks.ncard_records early] at many
    have distinct : (records.map FrontierRecord.newUrn).Nodup := by
      refine (cut.nodup (List.nodup_dedup _)).map_on ?_
      intro record member other member' same
      exact injective (sound record member) (sound other member') same
    have apart : ∀ urn ∈ search.nodesByUrn.keys, urn ∉ records.map FrontierRecord.newUrn := by
      intro urn known new
      obtain ⟨record, member, rfl⟩ := List.mem_map.mp new
      exact fresh record (sound record member) (known_seen ((tracks.known _).mp known))
    have inside : records.map FrontierRecord.newUrn ⊆
        (expandHop callbacks query hop search).nodesByUrn.keys := by
      intro urn new
      obtain ⟨record, listed, same⟩ := List.mem_map.mp new
      exact (expandHop_nodes urn).mpr
        (.inr ⟨direction, record, got ▸ listed, hydrated record (sound record listed), same⟩)
    have bound := length_add_le search.nodesByUrn.keys_nodup distinct apart
      (fun urn old => (expandHop_nodes urn).mpr (.inl old)) inside
    rw [List.length_map] at bound
    change query.maxNodes ≤ (expandHop callbacks query hop search).nodesByUrn.keys.length
    omega

/-- No hop follows when no record leads to a new node. -/
theorem idle (budget : ExpandsToBudget callbacks query incident)
    (spent : ∀ direction, Raises callbacks query incident anchor anchorNode hop direction ∨
      ∀ record ∈ LayerRecords query incident anchor hop direction,
        (layerAt (Leads incident) query.depth anchor hop).seen record.newUrn) :
    (expandHop callbacks query hop search).upFrontier = [] ∧
      (expandHop callbacks query hop search).downFrontier = [] := by
  have effect := @expandHop_received callbacks query hop search
  have old : ∀ direction urn, (∃ record ∈ received callbacks query hop search direction,
      record.newUrn = urn) → urn ∈ search.visited := by
    rintro direction urn ⟨record, got, rfl⟩
    obtain ⟨matched, answers⟩ := tracks.layerRecord_of_received budget got
    exact (tracks.seen _).mpr ((spent direction).resolve_left answers record matched)
  refine ⟨List.eq_nil_iff_forall_not_mem.mpr ?_, List.eq_nil_iff_forall_not_mem.mpr ?_⟩
  · intro urn member
    obtain ⟨unseen, met⟩ := (effect.upFrontier urn).mp member
    exact unseen (old _ urn met)
  · intro urn member
    obtain ⟨unseen, -, met⟩ := (effect.downFrontier urn).mp member
    exact unseen (old _ urn met)

end Tracks

/-- Where every loss is noticed, a search is cut off, after a hop that is cut off or loses
something, or it follows the whole lineage to the end without a loss. -/
theorem hopsBegun_conclusive (budget : ExpandsToBudget callbacks query incident)
    (noticed : ∀ later, Reaches query incident anchor later →
      (∀ former ≤ later, ¬ Ends expired query incident anchor anchorNode former) →
      (∀ former < later, Lossless callbacks query incident anchor anchorNode former) →
        Lossless callbacks query incident anchor anchorNode later ∨
          Noticed callbacks expired query incident anchor anchorNode later)
    (tracks : Tracks query incident anchor anchorNode hop search) {hopsLeft : Nat}
    (left : hop + hopsLeft = max query.upstreamDepth query.downstreamDepth)
    (reached : hop = 0 ∨ ∃ direction urn,
      (layerAt (Leads incident) query.depth anchor hop).frontier direction urn)
    (running : ∀ former < hop, ¬ Ends expired query incident anchor anchorNode former)
    (lossless : ∀ former < hop, Lossless callbacks query incident anchor anchorNode former) :
    ((∃ begun ∈ hopsBegun callbacks expired query hopsLeft hop search,
      begun.CutOff expired query) ∧
      ∃ later, Reaches query incident anchor later ∧
        (Ends expired query incident anchor anchorNode later ∨
          ¬ Lossless callbacks query incident anchor anchorNode later)) ∨
    (∀ begun ∈ hopsBegun callbacks expired query hopsLeft hop search,
      ¬ begun.CutOff expired query ∧ ¬ begun.Loses callbacks query incident) ∧
    ∀ later, hop ≤ later → Reaches query incident anchor later →
      ¬ Ends expired query incident anchor anchorNode later ∧
        Lossless callbacks query incident anchor anchorNode later := by
  induction hopsLeft generalizing hop search with
  | zero =>
      refine .inr ⟨fun begun none => absurd none List.not_mem_nil, ?_⟩
      intro later after reaches
      have within := reaches.1
      omega
  | succ hopsLeft ih =>
      simp only [hopsBegun]
      have reaches : Reaches query incident anchor hop := ⟨by omega, reached⟩
      by_cases cut : Hop.CutOff expired query ⟨hop, search⟩
      · exact .inl ⟨⟨_, List.mem_cons_self, cut⟩, hop, reaches, .inl (tracks.cutOff_iff.mp cut)⟩
      have goes : ¬ Ends expired query incident anchor anchorNode hop := by
        rwa [← tracks.cutOff_iff]
      have all : ∀ former ≤ hop, ¬ Ends expired query incident anchor anchorNode former := by
        intro former bound
        rcases Nat.lt_or_eq_of_le bound with before | rfl
        · exact running former before
        · exact goes
      by_cases whole : Lossless callbacks query incident anchor anchorNode hop
      · have kept := tracks.not_loses budget whole
        have next := tracks.next budget kept
        by_cases stuck : (expandHop callbacks query hop search).upFrontier = [] ∧
            (expandHop callbacks query hop search).downFrontier = []
        · rw [if_pos (.inr stuck)]
          refine .inr ⟨List.forall_mem_singleton.mpr ⟨cut, kept⟩, ?_⟩
          intro later after reaches
          rcases Nat.lt_or_eq_of_le after with further | rfl
          · have silent := next.silent_iff.mp stuck
            rcases reaches.2 with rfl | ⟨side, urn, onFrontier⟩
            · exact absurd further (Nat.not_lt_zero hop)
            · exact absurd onFrontier (layerAt_silent silent further side urn)
          · exact ⟨goes, whole⟩
        · rw [if_neg (not_or.mpr ⟨cut, stuck⟩)]
          have onward : ∃ side urn,
              (layerAt (Leads incident) query.depth anchor (hop + 1)).frontier side urn := by
            by_contra none
            refine stuck (next.silent_iff.mpr ?_)
            exact fun side urn onFrontier => none ⟨side, urn, onFrontier⟩
          have lossless' : ∀ former < hop + 1,
              Lossless callbacks query incident anchor anchorNode former := by
            intro former before
            rcases Nat.lt_succ_iff_lt_or_eq.mp before with earlier | rfl
            · exact lossless former earlier
            · exact whole
          rcases ih next (by omega) (.inr onward)
            (fun former before => all former (Nat.le_of_lt_succ before)) lossless' with
              ⟨⟨begun, member, cutOff⟩, spoiled⟩ | ⟨rest, later⟩
          · exact .inl ⟨⟨begun, List.mem_cons_of_mem _ member, cutOff⟩, spoiled⟩
          · refine .inr ⟨List.forall_mem_cons.mpr ⟨⟨cut, kept⟩, rest⟩, ?_⟩
            intro further after reaches
            rcases Nat.lt_or_eq_of_le after with beyond | rfl
            · exact later further beyond reaches
            · exact ⟨goes, whole⟩
      · have notices := (noticed hop reaches all lossless).resolve_left whole
        obtain ⟨onward, cutOff⟩ := tracks.next_cutOff budget goes notices
        rw [if_neg (not_or.mpr ⟨cut, onward⟩)]
        cases hopsLeft with
        | zero =>
            have further := notices.1
            omega
        | succ hopsLeft =>
            exact .inl ⟨⟨_, List.mem_cons_of_mem _ List.mem_cons_self, cutOff⟩, hop, reaches,
              .inr whole⟩

theorem hopsFrom_conclusive (budget : ExpandsToBudget callbacks query incident)
    (noticed : ∀ later, Reaches query incident anchor later →
      (∀ former ≤ later, ¬ Ends expired query incident anchor anchorNode former) →
      (∀ former < later, Lossless callbacks query incident anchor anchorNode former) →
        Lossless callbacks query incident anchor anchorNode later ∨
          Noticed callbacks expired query incident anchor anchorNode later) :
    ((∃ begun ∈ hopsFrom callbacks expired query anchor anchorNode, begun.CutOff expired query) ∧
      ∃ later, Reaches query incident anchor later ∧
        (Ends expired query incident anchor anchorNode later ∨
          ¬ Lossless callbacks query incident anchor anchorNode later)) ∨
    (∀ begun ∈ hopsFrom callbacks expired query anchor anchorNode,
      ¬ begun.CutOff expired query ∧ ¬ begun.Loses callbacks query incident) ∧
    ∀ later, Reaches query incident anchor later →
      ¬ Ends expired query incident anchor anchorNode later ∧
        Lossless callbacks query incident anchor anchorNode later := by
  have ends := hopsBegun_conclusive budget noticed
    (start_tracks query incident anchor anchorNode) (Nat.zero_add _) (.inl rfl)
    (fun former before => absurd before (Nat.not_lt_zero former))
    (fun former before => absurd before (Nat.not_lt_zero former))
  exact ends.imp_right (And.imp_right fun later hop => later hop (Nat.zero_le hop))

/-- A search that comes without a loss to a hop that loses something, and after which no further
one begins, is not cut off. -/
theorem hopsBegun_loses (budget : ExpandsToBudget callbacks query incident)
    (tracks : Tracks query incident anchor anchorNode hop search) {hopsLeft last : Nat}
    (left : hop + hopsLeft = max query.upstreamDepth query.downstreamDepth) (after : hop ≤ last)
    (reaches : Reaches query incident anchor last)
    (running : ∀ former ≤ last, ¬ Ends expired query incident anchor anchorNode former)
    (lossless : ∀ former < last, Lossless callbacks query incident anchor anchorNode former)
    (loses : Loses callbacks query incident anchor anchorNode last)
    (isLast : IsLast callbacks query incident anchor anchorNode last) :
    (∃ begun ∈ hopsBegun callbacks expired query hopsLeft hop search,
      begun.Loses callbacks query incident) ∧
    ∀ begun ∈ hopsBegun callbacks expired query hopsLeft hop search,
      ¬ begun.CutOff expired query := by
  induction hopsLeft generalizing hop search with
  | zero =>
      have within := reaches.1
      omega
  | succ hopsLeft ih =>
      simp only [hopsBegun]
      have goes : ¬ Hop.CutOff expired query ⟨hop, search⟩ := by
        rw [tracks.cutOff_iff]
        exact running hop after
      rcases Nat.lt_or_eq_of_le after with before | rfl
      · have kept := tracks.not_loses budget (lossless hop before)
        have next := tracks.next budget kept
        have onward : ¬ ((expandHop callbacks query hop search).upFrontier = [] ∧
            (expandHop callbacks query hop search).downFrontier = []) := by
          intro stuck
          rcases reaches.2 with rfl | ⟨side, urn, onFrontier⟩
          · exact Nat.not_lt_zero hop before
          · exact layerAt_silent (next.silent_iff.mp stuck) before side urn onFrontier
        rw [if_neg (not_or.mpr ⟨goes, onward⟩)]
        obtain ⟨⟨begun, member, lost⟩, rest⟩ := ih next (by omega) before
        exact ⟨⟨begun, List.mem_cons_of_mem _ member, lost⟩,
          List.forall_mem_cons.mpr ⟨goes, rest⟩⟩
      · have lost := tracks.loses budget loses
        refine ⟨⟨_, List.mem_cons_self, lost⟩, List.forall_mem_cons.mpr ⟨goes, ?_⟩⟩
        rcases isLast with deepest | spent
        · obtain rfl : hopsLeft = 0 := by omega
          intro begun member
          split at member
          · cases member
          · cases member
        · rw [if_pos (.inr (tracks.idle budget spent))]
          exact fun begun none => absurd none List.not_mem_nil

/-- A trace reports every loss, and is complete when it is not truncated, if up to its end no hop
loses anything that the next one does not notice, and the sides come to every edge.  It does not
if no further hop begins after the first that loses something, or nothing is lost and the sides
do not come to every edge. -/
theorem traceAtLevel_reportsLoss {inherited : Option Urn} {result : TraceResult}
    (budget : ExpandsToBudget callbacks query incident)
    (resolved : resolveAnchor callbacks query = .ok (anchor, inherited))
    (found : callbacks.getNode anchor = .ok anchorNode)
    (ran : traceAtLevel callbacks expired query = .ok result) :
    (Conclusive callbacks expired query incident anchor anchorNode →
      ReportsLoss callbacks expired query incident anchor anchorNode result) ∧
    (Unreported callbacks expired query incident anchor anchorNode →
      ¬ ReportsLoss callbacks expired query incident anchor anchorNode result) := by
  have truncated_iff := traceAtLevel_truncated_iff resolved found ran
  refine ⟨?_, ?_⟩
  · intro conclusive
    rcases hopsFrom_conclusive budget conclusive.hops with ⟨cut, -⟩ | ⟨whole, all⟩
    · have truncated := truncated_iff.mpr cut
      refine ⟨fun _ => truncated, ?_⟩
      intro untruncated
      cases truncated.symm.trans untruncated
    · refine ⟨?_, ?_⟩
      · rintro ⟨begun, member, -, loses⟩
        exact absurd loses (whole begun member).2
      · intro _ record within
        have edge_iff := traceAtLevel_edge_iff budget resolved found ran whole record.edgeId
        exact edge_iff.mpr (conclusive.met all record within)
  · rintro (⟨last, reaches, running, lossless, loses, isLast⟩ | ⟨all, record, within, unmet⟩)
    · obtain ⟨⟨begun, member, lost⟩, uncut⟩ := hopsBegun_loses budget
        (start_tracks query incident anchor anchorNode) (Nat.zero_add _) (Nat.zero_le last)
        reaches running lossless loses isLast
      intro reports
      obtain ⟨other, member', cut⟩ :=
        truncated_iff.mp (reports.loss ⟨begun, member, uncut begun member, lost⟩)
      exact uncut other member' cut
    · rcases hopsFrom_conclusive budget (fun later reaches _ _ => .inl (all later reaches).2) with
        ⟨-, later, reaches, spoiled⟩ | ⟨whole, -⟩
      · rcases spoiled with stops | lossy
        · exact absurd stops (all later reaches).1
        · exact absurd (all later reaches).2 lossy
      · intro reports
        have untruncated : result.truncated = false := by
          rw [← Bool.not_eq_true, truncated_iff]
          rintro ⟨begun, member, cut⟩
          exact (whole begun member).1 cut
        have edge_iff := traceAtLevel_edge_iff budget resolved found ran whole record.edgeId
        exact unmet (edge_iff.mp (reports.complete untruncated record within))

/-! A provider over a list of edges that keeps to its budget. -/

def edgeRecord (direction : Direction) (edge : Urn × Urn) : FrontierRecord where
  edgeId := edge.1 ++ "|" ++ edge.2
  sourceUrn := edge.1
  targetUrn := edge.2
  newUrn := match direction with
    | .incoming => edge.1
    | .outgoing => edge.2
  newNode := match direction with
    | .incoming => some ⟨edge.1, "dataset"⟩
    | .outgoing => some ⟨edge.2, "dataset"⟩

def near (direction : Direction) (edge : Urn × Urn) : Urn :=
  match direction with
  | .incoming => edge.2
  | .outgoing => edge.1

def listIncident (edges : List (Urn × Urn)) : Incidence := fun direction urn =>
  (edges.filter fun edge => near direction edge = urn).map (edgeRecord direction)

def budgetCallbacks (edges : List (Urn × Urn)) : TraceCallbacks :=
  { listCallbacks edges with
    expandFrontier := fun urns direction _ _ budget => .ok <|
      ((edges.filter fun edge => near direction edge ∈ urns).map (edgeRecord direction)).take
        budget }

def failingCallbacks : TraceCallbacks :=
  { listCallbacks [] with expandFrontier := fun _ _ _ _ _ => .error "unavailable" }

theorem edgeRecord_injective (direction : Direction) :
    Function.Injective (edgeRecord direction) := by
  intro edge other same
  exact Prod.ext (congrArg FrontierRecord.sourceUrn same) (congrArg FrontierRecord.targetUrn same)

theorem budgetCallbacks_expandsToBudget {edges : List (Urn × Urn)} (distinct : edges.Nodup)
    (query : TraceQuery) :
    ExpandsToBudget (budgetCallbacks edges) query (listIncident edges) := by
  intro urns direction budget records answered
  cases answered
  refine ⟨_, (List.perm_ext_iff_of_nodup ?_ (List.nodup_dedup _)).mpr ?_, rfl⟩
  · exact (distinct.filter _).map (edgeRecord_injective direction)
  · intro record
    simp only [listIncident, List.mem_dedup, List.mem_flatMap, List.mem_map,
      List.mem_filter, decide_eq_true_eq]
    refine ⟨?_, ?_⟩
    · intro ⟨edge, ⟨member, onFrontier⟩, same⟩
      exact ⟨_, onFrontier, edge, ⟨member, rfl⟩, same⟩
    · rintro ⟨urn, onFrontier, edge, ⟨member, rfl⟩, same⟩
      exact ⟨edge, ⟨member, onFrontier⟩, same⟩

theorem failingCallbacks_expandsToBudget (query : TraceQuery) (incident : Incidence) :
    ExpandsToBudget failingCallbacks query incident := by
  intro urns direction budget records answered
  cases answered

/-- `downstreamDepth` hops down and one up from `a`. -/
def fromA (downstreamDepth maxNodes : Nat) : TraceQuery :=
  { bothWays with downstreamDepth := downstreamDepth, maxNodes := maxNodes }

/-- Two edges from `a`, of which a budget of one keeps the first. -/
def fan : List (Urn × Urn) := [("a", "b"), ("a", "c")]

/-- The node `b` is upstream and downstream of `a`, and leads to `c`. -/
def cycle : List (Urn × Urn) := [("b", "a"), ("a", "b"), ("b", "c")]

/-- The node `a` has one node upstream and two downstream, one hop after the other. -/
def chain : List (Urn × Urn) := [("x", "a"), ("a", "b"), ("b", "c")]

section Samples

variable {edges : List (Urn × Urn)}

theorem mem_listIncident {record : FrontierRecord} {urn : Urn} :
    record ∈ listIncident edges direction urn ↔
      ∃ edge ∈ edges, near direction edge = urn ∧ edgeRecord direction edge = record := by
  simp only [listIncident, List.mem_map, List.mem_filter, decide_eq_true_eq, and_assoc]

theorem leads_listIncident {urn next : Urn} :
    Leads (listIncident edges) direction urn next ↔
      facing (fun source target => (source, target) ∈ edges) direction urn next := by
  simp only [Leads, mem_listIncident]
  constructor
  · rintro ⟨record, ⟨edge, member, rfl, rfl⟩, rfl⟩
    cases direction with
    | incoming => exact member
    | outgoing => exact member
  · intro faces
    cases direction with
    | incoming => exact ⟨_, ⟨(next, urn), faces, rfl, rfl⟩, rfl⟩
    | outgoing => exact ⟨_, ⟨(urn, next), faces, rfl, rfl⟩, rfl⟩

theorem ncard_le_of_subset {α β : Type} {items : List β} {set : Set α} (make : β → α)
    (inside : ∀ element ∈ set, ∃ item ∈ items, make item = element) :
    set.Finite ∧ set.ncard ≤ items.length := by
  classical
  have subset : set ⊆ ((items.map make).toFinset : Set α) := by
    intro element member
    rw [Finset.mem_coe, List.mem_toFinset]
    exact List.mem_map.mpr (inside element member)
  have finite : ((items.map make).toFinset : Set α).Finite := Finset.finite_toSet _
  refine ⟨finite.subset subset, (Set.ncard_le_ncard subset finite).trans ?_⟩
  rw [Set.ncard_coe_finset]
  exact (List.toFinset_card_le _).trans (List.length_map make).le

/-- There are no more records than edges, and no more nodes than ends of them. -/
theorem budgetCallbacks_lossless (query : TraceQuery) (anchor : Urn)
    (anchorNode : Option GraphNode) (hop : Nat) (room : 3 * edges.length < query.maxNodes) :
    Lossless (budgetCallbacks edges) query (listIncident edges) anchor anchorNode hop := by
  intro direction early onFrontier
  refine ⟨fun urns same => ⟨_, rfl⟩, ?_⟩
  have records : (LayerRecords query (listIncident edges) anchor hop direction).ncard ≤
      edges.length := by
    refine (ncard_le_of_subset (edgeRecord direction) ?_).2
    rintro record ⟨-, urn, -, member⟩
    obtain ⟨edge, listed, -, same⟩ := mem_listIncident.mp member
    exact ⟨edge, listed, same⟩
  have nodes : (Known query (listIncident edges) anchor anchorNode hop).ncard ≤
      (anchor :: (edges.map Prod.fst ++ edges.map Prod.snd)).length := by
    refine (ncard_le_of_subset id ?_).2
    rintro urn (⟨-, rfl⟩ | ⟨former, -, side, record, ⟨-, via, -, member⟩, -, rfl⟩)
    · exact ⟨_, List.mem_cons_self, rfl⟩
    · obtain ⟨edge, listed, -, rfl⟩ := mem_listIncident.mp member
      refine ⟨_, List.mem_cons_of_mem _ (List.mem_append.mpr ?_), rfl⟩
      cases side with
      | incoming => exact .inl (List.mem_map.mpr ⟨edge, listed, rfl⟩)
      | outgoing => exact .inr (List.mem_map.mpr ⟨edge, listed, rfl⟩)
  rw [List.length_cons, List.length_append, List.length_map, List.length_map] at nodes
  rw [budgetAt]
  omega

end Samples

theorem chain_conclusive : Conclusive (budgetCallbacks chain) neverExpired (fromA 2 100)
    (listIncident chain) "a" (some ⟨"a", "dataset"⟩) := by
  refine ⟨?_, ?_⟩
  · intro hop _ _ _
    exact .inl (budgetCallbacks_lossless _ _ _ _ (by decide))
  · intro _ record within
    refine met_of_apart ?_ within
    intro urn up down
    have above : urn = "a" ∨ urn = "x" := by
      simpa [Within, leads_listIncident, facing, TraceQuery.depth, fromA, bothWays, chain] using up
    have below : (urn = "a" ∨ urn = "b") ∨ urn = "b" ∨ urn = "c" := by
      simpa [Within, leads_listIncident, facing, TraceQuery.depth, fromA, bothWays, chain,
        or_and_right, exists_or] using down
    rcases above with rfl | rfl
    · rfl
    · exact absurd below (by decide)

/-- The first hop has a budget of one, and the second begins with two nodes. -/
theorem fan_conclusive : Conclusive (budgetCallbacks fan) neverExpired (fromA 2 2)
    (listIncident fan) "a" (some ⟨"a", "dataset"⟩) := by
  have tracks := start_tracks (fromA 2 2) (listIncident fan) "a" (some ⟨"a", "dataset"⟩)
  have two : (LayerRecords (fromA 2 2) (listIncident fan) "a" 0 .outgoing).ncard = 2 :=
    tracks.ncard_records (show 0 < 2 by decide)
  have one : budgetAt (fromA 2 2) (listIncident fan) "a" (some ⟨"a", "dataset"⟩) 0 = 1 :=
    tracks.budget_eq
  have records : ∀ record ∈ LayerRecords (fromA 2 2) (listIncident fan) "a" 0 .outgoing,
      ∃ edge ∈ fan, edgeRecord .outgoing edge = record := by
    rintro record ⟨-, urn, -, member⟩
    obtain ⟨edge, listed, -, same⟩ := mem_listIncident.mp member
    exact ⟨edge, listed, same⟩
  have lossy : ¬ Lossless (budgetCallbacks fan) (fromA 2 2) (listIncident fan) "a"
      (some ⟨"a", "dataset"⟩) 0 := by
    intro lossless
    have few := (lossless .outgoing (show 0 < 2 by decide) ⟨"a", by decide, rfl⟩).2
    rw [two, one] at few
    exact absurd few (by decide)
  refine ⟨?_, fun all => absurd (all 0 ⟨by decide, .inl rfl⟩).2 lossy⟩
  intro hop _ _ lossless
  cases hop with
  | succ hop => exact absurd (lossless 0 (Nat.succ_pos hop)) lossy
  | zero =>
      refine .inr ⟨by decide, .outgoing, ?_, fun urns same => ⟨_, rfl⟩, ?_, .inr ⟨?_, ?_, ?_⟩⟩
      · exact Set.nonempty_of_ncard_ne_zero (by rw [two]; decide)
      · intro record member
        obtain ⟨edge, listed, rfl⟩ := records record member
        exact (show ∀ edge ∈ fan, (edgeRecord .outgoing edge).newUrn ≠ "a" by decide) edge listed
      · rw [two, one]
        decide
      · intro record member other member' same
        obtain ⟨edge, listed, rfl⟩ := records record member
        obtain ⟨edge', listed', rfl⟩ := records other member'
        have distinct : ∀ edge ∈ fan, ∀ edge' ∈ fan, edge.2 = edge'.2 → edge = edge' := by decide
        rw [distinct edge listed edge' listed' same]
      · intro record member
        obtain ⟨edge, -, rfl⟩ := records record member
        rfl

/-- The only hop has a budget of one. -/
theorem fan_unreported : Unreported (budgetCallbacks fan) neverExpired (fromA 1 2)
    (listIncident fan) "a" (some ⟨"a", "dataset"⟩) := by
  have tracks := start_tracks (fromA 1 2) (listIncident fan) "a" (some ⟨"a", "dataset"⟩)
  have two : (LayerRecords (fromA 1 2) (listIncident fan) "a" 0 .outgoing).ncard = 2 :=
    tracks.ncard_records (show 0 < 1 by decide)
  have one : budgetAt (fromA 1 2) (listIncident fan) "a" (some ⟨"a", "dataset"⟩) 0 = 1 :=
    tracks.budget_eq
  have known : (Known (fromA 1 2) (listIncident fan) "a" (some ⟨"a", "dataset"⟩) 0).ncard = 1 :=
    tracks.ncard_known
  refine .inl ⟨0, ⟨by decide, .inl rfl⟩, ?_,
    fun former before => absurd before (Nat.not_lt_zero former),
    ⟨.outgoing, by decide, ⟨"a", by decide, rfl⟩, .inr ?_⟩, .inl (by decide)⟩
  · intro former bound
    obtain rfl := Nat.le_zero.mp bound
    rw [Ends, known]
    decide
  · rw [two, one]
    decide

theorem chain_and_fan_reportsLoss :
    (∃ result, traceAtLevel (budgetCallbacks chain) neverExpired (fromA 2 100) = .ok result ∧
      result.truncated = false ∧
      ReportsLoss (budgetCallbacks chain) neverExpired (fromA 2 100) (listIncident chain) "a"
        (some ⟨"a", "dataset"⟩) result) ∧
    (∃ result, traceAtLevel (budgetCallbacks fan) neverExpired (fromA 2 2) = .ok result ∧
      result.truncated = true ∧
      ReportsLoss (budgetCallbacks fan) neverExpired (fromA 2 2) (listIncident fan) "a"
        (some ⟨"a", "dataset"⟩) result) ∧
    ∃ result, traceAtLevel (budgetCallbacks fan) neverExpired (fromA 1 2) = .ok result ∧
      result.truncated = false ∧
      ¬ ReportsLoss (budgetCallbacks fan) neverExpired (fromA 1 2) (listIncident fan) "a"
        (some ⟨"a", "dataset"⟩) result := by
  have budget (edges : List (Urn × Urn)) (distinct : edges.Nodup) (query : TraceQuery) :=
    budgetCallbacks_expandsToBudget distinct query
  refine ⟨⟨_, rfl, by decide, ?_⟩, ⟨_, rfl, by decide, ?_⟩, _, rfl, by decide, ?_⟩
  · exact (traceAtLevel_reportsLoss (budget chain (by decide) _)
      (show resolveAnchor _ _ = .ok ("a", none) from rfl) rfl rfl).1 chain_conclusive
  · exact (traceAtLevel_reportsLoss (budget fan (by decide) _)
      (show resolveAnchor _ _ = .ok ("a", none) from rfl) rfl rfl).1 fan_conclusive
  · exact (traceAtLevel_reportsLoss (budget fan (by decide) _)
      (show resolveAnchor _ _ = .ok ("a", none) from rfl) rfl rfl).2 fan_unreported

theorem not_reportsLoss {anchorNode : Option GraphNode} {result : TraceResult}
    {record : FrontierRecord} (whole : result.truncated = false)
    (within : WithinDepths query incident anchor record)
    (missing : record.edgeId ∉ result.edges.map GraphEdge.id) :
    ¬ ReportsLoss callbacks expired query incident anchor anchorNode result := by
  intro reports
  obtain ⟨edge, member, same⟩ := reports.complete whole record within
  exact missing (same ▸ List.mem_map_of_mem member)

/-- The last hop withholds a record; the only expansions fail; the other side has seen a node
first. -/
theorem losses_unreported :
    (ExpandsToBudget (budgetCallbacks fan) (fromA 1 2) (listIncident fan) ∧
      ∃ result, traceAtLevel (budgetCallbacks fan) neverExpired (fromA 1 2) = .ok result ∧
        ¬ ReportsLoss (budgetCallbacks fan) neverExpired (fromA 1 2) (listIncident fan) "a"
          (some ⟨"a", "dataset"⟩) result) ∧
    (ExpandsToBudget failingCallbacks (fromA 1 100) (listIncident fan) ∧
      ∃ result, traceAtLevel failingCallbacks neverExpired (fromA 1 100) = .ok result ∧
        ¬ ReportsLoss failingCallbacks neverExpired (fromA 1 100) (listIncident fan) "a"
          (some ⟨"a", "dataset"⟩) result) ∧
    ExpandsToBudget (budgetCallbacks cycle) (fromA 2 100) (listIncident cycle) ∧
      ∃ result, traceAtLevel (budgetCallbacks cycle) neverExpired (fromA 2 100) = .ok result ∧
        ¬ ReportsLoss (budgetCallbacks cycle) neverExpired (fromA 2 100) (listIncident cycle) "a"
          (some ⟨"a", "dataset"⟩) result := by
  refine ⟨⟨budgetCallbacks_expandsToBudget (by decide) _, _, rfl, ?_⟩,
    ⟨failingCallbacks_expandsToBudget _ _, _, rfl, ?_⟩,
    budgetCallbacks_expandsToBudget (by decide) _, _, rfl, ?_⟩
  · exact not_reportsLoss rfl ⟨.outgoing, 0, "a", by decide, rfl, by decide⟩
      (show (edgeRecord .outgoing ("a", "c")).edgeId ∉ _ by decide)
  · exact not_reportsLoss rfl ⟨.outgoing, 0, "a", by decide, rfl, by decide⟩
      (show (edgeRecord .outgoing ("a", "c")).edgeId ∉ _ by decide)
  · refine not_reportsLoss rfl ⟨.outgoing, 1, "b", by decide, ?_, by decide⟩
      (show (edgeRecord .outgoing ("b", "c")).edgeId ∉ _ by decide)
    exact .inr ⟨"a", rfl, edgeRecord .outgoing ("a", "b"), by decide, rfl⟩

end Univiz.Trace

import Univiz.LevelTrace.Losses

namespace Univiz.LevelTrace

open Univiz.Data Univiz.Trace

/-! When `FalkorDBProvider.trace_at_level` says that edges are missing.

The condition is about a search of the whole graph, whose queries withhold nothing. -/

variable (provider : LevelProvider) (query : TraceQuery) (graph : Graph)

instance (started : Started) (begun : Hop) (direction : Direction) :
    Decidable (started.Fits provider query graph begun direction) :=
  decidable_of_iff ((∀ subQuery ∈ started.queries provider query begun direction,
      provider.replies started.pass.retry begun.hop subQuery (Started.budget query begun) = none →
        graph.rows subQuery = []) ∧
    (∀ row ∈ started.matching provider query graph begun direction,
      row.weight.read.isSome = true) ∧
    ((started.matching provider query graph begun direction).map
      Relationship.id).dedup.length ≤ Started.budget query begun)
    ⟨fun ⟨answered, readable, few⟩ => ⟨answered, readable, few⟩,
      fun ⟨answered, readable, few⟩ => ⟨answered, readable, few⟩⟩

/-- The replies of a database that withholds nothing: a reply without all matching rows is
replaced by them. -/
def LevelProvider.whole : LevelProvider :=
  { provider with
    replies := fun retry hop subQuery limit =>
      some (((provider.replies retry hop subQuery limit).filter fun rows =>
        rows.Perm (graph.rows subQuery)).getD (graph.rows subQuery)) }

namespace Started

variable (started : Started) (begun : Hop)

def Lossless : Prop :=
  ∀ direction, begun.hop < query.depth direction →
    started.Fits provider query graph begun direction

/-- No query of the side raises if it has rows, all weights can be read, and all rows lead to new
nodes.  So a further hop begins, and it is past the deadline or finds `max_nodes` nodes. -/
structure Notices (direction : Direction) : Prop where
  early : begun.hop < query.depth direction
  answered : ∀ subQuery ∈ started.queries provider query begun direction,
    provider.replies started.pass.retry begun.hop subQuery (budget query begun) = none →
      graph.rows subQuery = []
  readable : ∀ row ∈ started.matching provider query graph begun direction,
    row.weight.read.isSome = true
  fresh : ∀ row ∈ started.matching provider query graph begun direction,
    (row.far direction).urn ∉ begun.search.visited
  meets : started.matching provider query graph begun direction ≠ []
  full : provider.expired started.pass.retry (begun.hop + 1) = true ∨
    budget query begun ≤ ((started.matching provider query graph begun direction).map
      Relationship.id).dedup.length ∧
    ∀ row ∈ started.matching provider query graph begun direction,
      (row.far direction).graphNode.isSome = true ∧
        ∀ other ∈ started.matching provider query graph begun direction,
          (other.far direction).urn = (row.far direction).urn → other.id = row.id

/-- A hop loses nothing, or the next one notices. -/
def Harmless : Prop :=
  started.Lossless provider query graph begun ∨
    begun.hop + 1 < max query.upstreamDepth query.downstreamDepth ∧
      ∃ direction, started.Notices provider query graph begun direction

/-- Where the queries withhold nothing, the pass is harmless up to the first hop that is cut off
or loses something. -/
def Safe : Prop :=
  ∀ begun ∈ started.hops (provider.whole graph) query, ¬ started.CutOff provider query begun →
    (∀ former ∈ started.hops (provider.whole graph) query, former.hop < begun.hop →
      started.Lossless provider query graph former) →
    started.Harmless provider query graph begun

theorem forall_direction {p : Direction → Prop} :
    p .incoming ∧ p .outgoing ↔ ∀ direction, p direction :=
  ⟨fun both direction => direction.casesOn both.1 both.2,
    fun all => ⟨all .incoming, all .outgoing⟩⟩

theorem exists_direction {p : Direction → Prop} :
    p .incoming ∨ p .outgoing ↔ ∃ direction, p direction :=
  ⟨fun either => either.elim (⟨.incoming, ·⟩) (⟨.outgoing, ·⟩),
    fun ⟨direction, holds⟩ => match direction with
      | .incoming => .inl holds
      | .outgoing => .inr holds⟩

instance : DecidablePred (started.Lossless provider query graph) := fun begun =>
  decidable_of_iff (_ ∧ _) (@forall_direction fun direction =>
    begun.hop < query.depth direction → started.Fits provider query graph begun direction)

instance (direction : Direction) : Decidable (started.Notices provider query graph begun direction) :=
  decidable_of_iff (begun.hop < query.depth direction ∧
    (∀ subQuery ∈ started.queries provider query begun direction,
      provider.replies started.pass.retry begun.hop subQuery (budget query begun) = none →
        graph.rows subQuery = []) ∧
    (∀ row ∈ started.matching provider query graph begun direction,
      row.weight.read.isSome = true) ∧
    (∀ row ∈ started.matching provider query graph begun direction,
      (row.far direction).urn ∉ begun.search.visited) ∧
    started.matching provider query graph begun direction ≠ [] ∧
    (provider.expired started.pass.retry (begun.hop + 1) = true ∨
      budget query begun ≤ ((started.matching provider query graph begun direction).map
        Relationship.id).dedup.length ∧
      ∀ row ∈ started.matching provider query graph begun direction,
        (row.far direction).graphNode.isSome = true ∧
          ∀ other ∈ started.matching provider query graph begun direction,
            (other.far direction).urn = (row.far direction).urn → other.id = row.id))
    ⟨fun ⟨early, answered, readable, fresh, meets, full⟩ =>
        ⟨early, answered, readable, fresh, meets, full⟩,
      fun ⟨early, answered, readable, fresh, meets, full⟩ =>
        ⟨early, answered, readable, fresh, meets, full⟩⟩

instance : DecidablePred (started.Harmless provider query graph) := fun begun =>
  have _noticed : Decidable (∃ direction, started.Notices provider query graph begun direction) :=
    decidable_of_iff _ exists_direction
  inferInstanceAs (Decidable (_ ∨ _ ∧ _))

instance : DecidablePred (started.CutOff provider query) := fun begun =>
  inferInstanceAs (Decidable (begun.CutOff (provider.expired started.pass.retry) query))

instance : Decidable (started.Safe provider query graph) :=
  inferInstanceAs (Decidable (∀ begun ∈ started.hops (provider.whole graph) query, _))

end Started

/-- Both passes are safe, in a search of the whole graph. -/
def Prepared.TraceConclusive (prepared : Prepared) : Prop :=
  (prepared.firstStarted query).Safe provider query graph ∧
    (prepared.NeedsRetry (provider.whole graph) query →
      (prepared.retryStarted (provider.whole graph) query).Safe provider query graph)

instance (prepared : Prepared) : Decidable (prepared.TraceConclusive provider query graph) :=
  inferInstanceAs (Decidable (_ ∧ _))

variable {provider query graph} {pass : Pass} {hop : Nat} {search : LevelSearch} {started : Started}
  {prepared : Prepared}

theorem levelHops_ge (provider : LevelProvider) (query : TraceQuery) (pass : Pass)
    (hopsLeft hop : Nat) (search : LevelSearch) :
    ∀ begun ∈ levelHops provider query pass hopsLeft hop search, hop ≤ begun.hop := by
  induction hopsLeft generalizing hop search with
  | zero => exact fun begun none => absurd none List.not_mem_nil
  | succ hopsLeft ih =>
      intro begun member
      rcases levelLoop_cases provider query pass hopsLeft hop search with
        ⟨-, hops, -⟩ | ⟨-, ⟨hops, -⟩ | ⟨hops, -⟩⟩
      · rw [hops] at member
        exact (List.mem_singleton.mp member ▸ Nat.le_refl hop)
      · rw [hops] at member
        exact (List.mem_singleton.mp member ▸ Nat.le_refl hop)
      · rw [hops] at member
        rcases List.mem_cons.mp member with rfl | later
        · exact Nat.le_refl hop
        · exact Nat.le_of_succ_le (ih _ _ begun later)

/-- A query that is answered and fits into its limit has the reply of the whole graph. -/
theorem whole_reply (cut : RepliesCut provider graph) {retry : Bool} {subQuery : SubQuery}
    {limit : Nat} (answered : provider.replies retry hop subQuery limit = none →
      graph.rows subQuery = []) (few : (graph.rows subQuery).length ≤ limit) :
    (provider.replies retry hop subQuery limit).getD [] =
      ((provider.whole graph).replies retry hop subQuery limit).getD [] := by
  cases reply : provider.replies retry hop subQuery limit with
  | none => simp [LevelProvider.whole, reply, answered reply]
  | some rows =>
      obtain ⟨ordered, perm, rfl⟩ := cut _ _ _ _ _ reply
      rw [← perm.length_eq] at few
      rw [List.take_of_length_le few] at reply
      simp [LevelProvider.whole, reply, Option.filter_some, perm, List.take_of_length_le few]

/-- An expansion without failures returns rows of all ids that match, or at least a budget of
them. -/
theorem Started.ids_returned (cut : RepliesCut provider graph) {begun : Hop}
    {direction : Direction}
    (answered : ∀ subQuery ∈ started.queries provider query begun direction,
      provider.replies started.pass.retry begun.hop subQuery (Started.budget query begun) = none →
        graph.rows subQuery = []) :
    min (Started.budget query begun)
        ((started.matching provider query graph begun direction).map
          Relationship.id).dedup.length ≤
      ((started.returned provider query begun direction).map Relationship.id).dedup.length := by
  by_cases short : ∀ subQuery ∈ started.queries provider query begun direction,
      (graph.rows subQuery).length ≤ Started.budget query begun
  · have inside : ((started.matching provider query graph begun direction).map
        Relationship.id).dedup ⊆
          ((started.returned provider query begun direction).map Relationship.id).dedup := by
      intro id found
      obtain ⟨row, matched, same⟩ := List.mem_map.mp (List.mem_dedup.mp found)
      obtain ⟨subQuery, asked, listed⟩ := List.mem_flatMap.mp matched
      refine List.mem_dedup.mpr (List.mem_map.mpr ⟨row, ?_, same⟩)
      refine List.mem_flatMap.mpr ⟨subQuery, asked, ?_⟩
      cases reply : provider.replies started.pass.retry begun.hop subQuery
          (Started.budget query begun) with
      | none =>
          rw [answered subQuery asked reply] at listed
          exact absurd listed List.not_mem_nil
      | some rows => exact ((cut _ _ _ _ _ reply).mem_iff (short subQuery asked) row).mpr listed
    exact Nat.le_trans (Nat.min_le_right _ _)
      ((List.nodup_dedup _).subperm inside).length_le
  · push Not at short
    obtain ⟨subQuery, asked, long⟩ := short
    cases reply : provider.replies started.pass.retry begun.hop subQuery
        (Started.budget query begun) with
    | none =>
        rw [answered subQuery asked reply, List.length_nil] at long
        exact absurd long (Nat.not_lt_zero _)
    | some rows =>
        have rows_cut := cut _ _ _ _ _ reply
        have distinct : (rows.map Relationship.id).Nodup := by
          obtain ⟨ordered, perm, rfl⟩ := rows_cut
          exact ((perm.map Relationship.id).nodup_iff.mpr (graph.rows_distinct subQuery)).sublist
            ((List.take_sublist _ ordered).map Relationship.id)
        have inside : rows.map Relationship.id ⊆
            ((started.returned provider query begun direction).map Relationship.id).dedup := by
          intro id found
          obtain ⟨row, listed, same⟩ := List.mem_map.mp found
          refine List.mem_dedup.mpr (List.mem_map.mpr ⟨row, ?_, same⟩)
          refine List.mem_flatMap.mpr ⟨subQuery, asked, ?_⟩
          rw [reply]
          exact listed
        have bound := (distinct.subperm inside).length_le
        rw [List.length_map, rows_cut.length_eq, Nat.min_eq_left (Nat.le_of_lt long)] at bound
        exact Nat.le_trans (Nat.min_le_left _ _) bound

/-- The rows that an expansion without failures keeps. -/
theorem Started.Notices.kept_length (cut : RepliesCut provider graph) {begun : Hop}
    {direction : Direction}
    (notices : started.Notices provider query graph begun direction) :
    min (Started.budget query begun)
        ((started.matching provider query graph begun direction).map
          Relationship.id).dedup.length ≤
      (keptRows (Started.budget query begun)
        (started.returned provider query begun direction)).length := by
  have readable : ∀ row ∈ started.returned provider query begun direction,
      row.weight.read.isSome = true :=
    fun row member => notices.readable row (started.mem_matching_of_returned cut member)
  have enough := started.ids_returned cut notices.answered
  rw [keptRows_length readable]
  omega

/-- The nodes that a search has are among those that it has visited. -/
def Visits (search : LevelSearch) : Prop :=
  ∀ urn ∈ search.nodesByUrn, urn ∈ search.visited

theorem levelHop_nodes (urn : Urn) :
    urn ∈ (levelHop provider query pass hop search).nodesByUrn ↔
      urn ∈ search.nodesByUrn ∨ ∃ direction,
        ∃ record ∈ (hopRecords provider query pass hop search.toSearch direction).getD [],
          record.newNode.isSome = true ∧ record.newUrn = urn := by
  have cleared : urn ∈ search.clearFrontiers.nodesByUrn ↔ urn ∈ search.nodesByUrn := Iff.rfl
  simp only [levelHop, LevelSearch.absorb, foldl_collect_toSearch, foldl_collect_nodes, cleared]
  refine ⟨?_, ?_⟩
  · rintro ((old | upstream) | downstream)
    · exact .inl old
    · exact .inr ⟨.incoming, upstream⟩
    · exact .inr ⟨.outgoing, downstream⟩
  · rintro (old | ⟨direction, found⟩)
    · exact .inl (.inl old)
    · cases direction with
      | incoming => exact .inl (.inr found)
      | outgoing => exact .inr found

/-- What the records of a hop do to the nodes that are seen, and to the frontiers. -/
structure LevelHopEffect (met : Direction → Urn → Prop) (before after : LevelSearch) : Prop where
  visited : ∀ urn, urn ∈ after.visited ↔
    urn ∈ before.visited ∨ met .incoming urn ∨ met .outgoing urn
  upFrontier : ∀ urn, urn ∉ before.visited → met .incoming urn → urn ∈ after.upFrontier
  downFrontier : ∀ urn, urn ∉ before.visited → ¬ met .incoming urn → met .outgoing urn →
    urn ∈ after.downFrontier

theorem levelHop_effect :
    LevelHopEffect (fun direction urn =>
        ∃ record ∈ (hopRecords provider query pass hop search.toSearch direction).getD [],
          record.newUrn = urn)
      search (levelHop provider query pass hop search) := by
  have up := foldl_collect_absorbed .incoming
    ((hopRecords provider query pass hop search.toSearch .incoming).getD [])
    search.toSearch.clearFrontiers
  have down := foldl_collect_absorbed .outgoing
    ((hopRecords provider query pass hop search.toSearch .outgoing).getD [])
    (((hopRecords provider query pass hop search.toSearch .incoming).getD []).foldl
      (Search.collect .incoming) search.toSearch.clearFrontiers)
  have cleared (urn : Urn) : urn ∈ search.toSearch.clearFrontiers.visited ↔
      urn ∈ search.visited := Iff.rfl
  refine ⟨?_, ?_, ?_⟩
  · intro urn
    simp only [levelHop, LevelSearch.absorb, foldl_collect_toSearch]
    rw [down.visited, up.visited, cleared, or_assoc]
  · intro urn unseen met
    have kept := down.otherFrontier .incoming (by decide)
    simp only [Search.frontier] at kept
    simp only [levelHop, LevelSearch.absorb, foldl_collect_toSearch, kept]
    exact (up.frontier urn).mpr (.inr ⟨unseen, met⟩)
  · intro urn unseen other met
    simp only [levelHop, LevelSearch.absorb, foldl_collect_toSearch]
    refine (down.frontier urn).mpr (.inr ⟨?_, met⟩)
    rw [up.visited, cleared, not_or]
    exact ⟨unseen, other⟩

theorem Visits.next (visits : Visits search) :
    Visits (levelHop provider query pass hop search) := by
  intro urn member
  rw [levelHop_effect.visited]
  rcases (levelHop_nodes urn).mp member with old | ⟨direction, record, listed, -, same⟩
  · exact .inl (visits urn old)
  · cases direction with
    | incoming => exact .inr (.inl ⟨record, listed, same⟩)
    | outgoing => exact .inr (.inr ⟨record, listed, same⟩)

/-- After a hop that the next one notices, the next one begins and is cut off. -/
theorem Started.Notices.next_cutOff (cut : RepliesCut provider graph) {direction : Direction}
    (notices : started.Notices provider query graph ⟨hop, search.toSearch⟩ direction)
    (running : ¬ started.CutOff provider query ⟨hop, search.toSearch⟩) (visits : Visits search) :
    ¬ ((levelHop provider query started.pass hop search).upFrontier = [] ∧
      (levelHop provider query started.pass hop search).downFrontier = []) ∧
      started.CutOff provider query
        ⟨hop + 1, (levelHop provider query started.pass hop search).toSearch⟩ := by
  have room : search.nodesByUrn.keys.length < query.maxNodes := by
    rw [Started.CutOff, Hop.CutOff, not_or, Nat.not_le] at running
    exact running.2
  have long := notices.kept_length cut
  have idle : search.toSearch.frontier direction ≠ [] := by
    intro none
    refine notices.meets ?_
    rw [Started.matching, Started.queries, none]
    rfl
  -- the records of the side are those of the rows that are kept
  have shows {γ : Type} {view : FrontierRecord → γ} {value : Relationship → γ}
      (same : ∀ row weight, view (frontierRecord direction row weight) = value row) :
      ((hopRecords provider query started.pass hop search.toSearch direction).getD []).map view =
        (keptRows (Started.budget query ⟨hop, search.toSearch⟩)
          (started.returned provider query ⟨hop, search.toSearch⟩ direction)).map value := by
    rw [hopRecords, if_pos ⟨notices.early, idle⟩, Option.getD_some]
    exact expandAggregatedSet_map provider.config _ _ direction started.pass.level
      (provider.lineageTypes query) started.pass.focusEntityType idle (by omega) same
  generalize kept : keptRows (Started.budget query ⟨hop, search.toSearch⟩)
    (started.returned provider query ⟨hop, search.toSearch⟩ direction) = rows at long shows
  have matched : ∀ row ∈ rows,
      row ∈ started.matching provider query graph ⟨hop, search.toSearch⟩ direction := by
    intro row member
    exact started.mem_matching_of_returned cut (keptRows_subset _ _ (kept ▸ member))
  have records : ∀ row ∈ rows,
      ∃ record ∈ (hopRecords provider query started.pass hop search.toSearch direction).getD [],
        record.newUrn = (row.far direction).urn ∧
          record.newNode = (row.far direction).graphNode := by
    intro row member
    have pair := @shows _ (fun record => (record.newUrn, record.newNode))
      (fun row => ((row.far direction).urn, (row.far direction).graphNode)) fun _ _ => rfl
    have listed : ((row.far direction).urn, (row.far direction).graphNode) ∈
        rows.map fun row => ((row.far direction).urn, (row.far direction).graphNode) :=
      List.mem_map.mpr ⟨row, member, rfl⟩
    rw [← pair] at listed
    obtain ⟨record, found, same⟩ := List.mem_map.mp listed
    exact ⟨record, found, Prod.ext_iff.mp same⟩
  have ids : 0 < ((started.matching provider query graph ⟨hop, search.toSearch⟩ direction).map
      Relationship.id).dedup.length := by
    obtain ⟨row, member⟩ := List.exists_mem_of_ne_nil _ notices.meets
    exact List.length_pos_of_mem (List.mem_dedup.mpr (List.mem_map.mpr ⟨row, member, rfl⟩))
  have budget : Started.budget query ⟨hop, search.toSearch⟩ =
      query.maxNodes - search.nodesByUrn.keys.length := rfl
  refine ⟨?_, ?_⟩
  · obtain ⟨row, member⟩ := List.exists_mem_of_length_pos (l := rows) (by omega)
    obtain ⟨record, found, same, -⟩ := records row member
    have unseen := notices.fresh row (matched row member)
    intro stuck
    by_cases upstream : ∃ record ∈ (hopRecords provider query started.pass hop search.toSearch
        .incoming).getD [], record.newUrn = (row.far direction).urn
    · have new := levelHop_effect.upFrontier _ unseen upstream
      rw [stuck.1] at new
      exact List.not_mem_nil new
    · cases direction with
      | incoming => exact upstream ⟨record, found, same⟩
      | outgoing =>
          have new := levelHop_effect.downFrontier _ unseen upstream ⟨record, found, same⟩
          rw [stuck.2] at new
          exact List.not_mem_nil new
  · refine notices.full.imp_right ?_
    rintro ⟨many, single⟩
    have distinct : (rows.map fun row => (row.far direction).urn).Nodup := by
      refine (List.Nodup.of_map Relationship.id (kept ▸ keptRows_nodup _ _)).map_on ?_
      intro row member other member' same
      exact List.inj_on_of_nodup_map (kept ▸ keptRows_nodup _ _) member member'
        ((single other (matched other member')).2 row (matched row member) same)
    have apart : ∀ urn ∈ search.nodesByUrn.keys,
        urn ∉ rows.map fun row => (row.far direction).urn := by
      intro urn known new
      obtain ⟨row, member, rfl⟩ := List.mem_map.mp new
      exact notices.fresh row (matched row member) (visits _ known)
    have inside : rows.map (fun row => (row.far direction).urn) ⊆
        (levelHop provider query started.pass hop search).nodesByUrn.keys := by
      intro urn new
      obtain ⟨row, listed, rfl⟩ := List.mem_map.mp new
      obtain ⟨record, found, same, node⟩ := records row listed
      refine (levelHop_nodes _).mpr (.inr ⟨direction, record, found, ?_, same⟩)
      rw [node]
      exact (single row (matched row listed)).1
    have bound := length_add_le search.nodesByUrn.keys_nodup distinct apart
      (fun urn old => (levelHop_nodes urn).mpr (.inl old)) inside
    rw [List.length_map] at bound
    change query.maxNodes ≤
      (levelHop provider query started.pass hop search).nodesByUrn.keys.length
    omega

theorem hopRecords_whole (cut : RepliesCut provider graph)
    (lossless : started.Lossless provider query graph ⟨hop, search.toSearch⟩)
    (direction : Direction) :
    hopRecords provider query started.pass hop search.toSearch direction =
      hopRecords (provider.whole graph) query started.pass hop search.toSearch direction := by
  rw [hopRecords, hopRecords]
  split
  · rename_i asks
    have fits := lossless direction asks.1
    rw [expandAggregatedSet, expandAggregatedSet]
    congr 3
    refine List.flatMap_congr ?_
    intro subQuery asked
    exact whole_reply cut (fits.answered subQuery asked) (fits.rows_le asked)
  · rfl

theorem levelHop_whole (cut : RepliesCut provider graph)
    (lossless : started.Lossless provider query graph ⟨hop, search.toSearch⟩) :
    levelHop provider query started.pass hop search =
      levelHop (provider.whole graph) query started.pass hop search := by
  simp only [levelHop, hopRecords_whole cut lossless]

/-- A safe pass is cut off, or it loses nothing and is the one over the whole graph. -/
theorem levelHops_whole (cut : RepliesCut provider graph) (visits : Visits search)
    {hopsLeft : Nat} (left : hop + hopsLeft = max query.upstreamDepth query.downstreamDepth)
    (safe : ∀ begun ∈ levelHops (provider.whole graph) query started.pass hopsLeft hop search,
      ¬ started.CutOff provider query begun →
      (∀ former ∈ levelHops (provider.whole graph) query started.pass hopsLeft hop search,
        former.hop < begun.hop → started.Lossless provider query graph former) →
      started.Harmless provider query graph begun) :
    (∃ begun ∈ levelHops provider query started.pass hopsLeft hop search,
      started.CutOff provider query begun) ∨
    (∀ begun ∈ levelHops provider query started.pass hopsLeft hop search,
      started.Lossless provider query graph begun) ∧
    levelLoop provider query started.pass hopsLeft hop search =
      levelLoop (provider.whole graph) query started.pass hopsLeft hop search := by
  induction hopsLeft generalizing hop search with
  | zero => exact .inr ⟨fun begun none => absurd none List.not_mem_nil, rfl⟩
  | succ hopsLeft ih =>
      by_cases stops : started.CutOff provider query ⟨hop, search.toSearch⟩
      · exact .inl ⟨_, List.mem_cons_self, stops⟩
      have first : ∀ former ∈ levelHops (provider.whole graph) query started.pass (hopsLeft + 1)
          hop search, former.hop < hop → started.Lossless provider query graph former := by
        intro former member before
        have bound := levelHops_ge _ _ _ _ _ _ former member
        omega
      rcases safe _ List.mem_cons_self stops first with lossless | ⟨further, direction, notices⟩
      · have same := levelHop_whole cut lossless
        have records := hopRecords_whole cut lossless
        by_cases stuck : (levelHop provider query started.pass hop search).upFrontier = [] ∧
            (levelHop provider query started.pass hop search).downFrontier = []
        · refine .inr ⟨?_, ?_⟩
          · rw [levelHops, if_pos (.inr stuck)]
            exact List.forall_mem_singleton.mpr lossless
          · simp only [levelLoop, records, ← same, if_pos stuck]
            rfl
        · have goes : ¬ (Hop.CutOff (provider.expired started.pass.retry) query
              ⟨hop, search.toSearch⟩ ∨
                (levelHop provider query started.pass hop search).upFrontier = [] ∧
                (levelHop provider query started.pass hop search).downFrontier = []) :=
            not_or.mpr ⟨stops, stuck⟩
          have tail : levelHops (provider.whole graph) query started.pass (hopsLeft + 1) hop search =
              ⟨hop, search.toSearch⟩ :: levelHops (provider.whole graph) query started.pass hopsLeft
                (hop + 1) (levelHop provider query started.pass hop search) := by
            rw [levelHops, ← same]
            exact congrArg (List.cons _) (if_neg goes)
          rw [tail] at safe
          have next : Visits (levelHop provider query started.pass hop search) := visits.next
          have rest_safe := fun begun member running formers =>
            safe begun (List.mem_cons_of_mem _ member) running
              (List.forall_mem_cons.mpr ⟨fun _ => lossless, formers⟩)
          rcases ih next (by omega) rest_safe with
            ⟨begun, member, stopped⟩ | ⟨rest, loop⟩
          · refine .inl ⟨begun, ?_, stopped⟩
            rw [levelHops, if_neg goes]
            exact List.mem_cons_of_mem _ member
          · refine .inr ⟨?_, ?_⟩
            · rw [levelHops, if_neg goes]
              exact List.forall_mem_cons.mpr ⟨lossless, rest⟩
            · simp only [levelLoop, records, ← same, if_neg stuck, loop]
              rfl
      · obtain ⟨onward, stopped⟩ := notices.next_cutOff cut stops visits
        cases hopsLeft with
        | zero =>
            change hop + 1 < max query.upstreamDepth query.downstreamDepth at further
            omega
        | succ hopsLeft =>
            have goes : ¬ (Hop.CutOff (provider.expired started.pass.retry) query
                ⟨hop, search.toSearch⟩ ∨
                  (levelHop provider query started.pass hop search).upFrontier = [] ∧
                  (levelHop provider query started.pass hop search).downFrontier = []) :=
              not_or.mpr ⟨stops, onward⟩
            refine .inl ⟨_, ?_, stopped⟩
            rw [levelHops, if_neg goes]
            exact List.mem_cons_of_mem _ List.mem_cons_self

theorem start_visits (query : TraceQuery) {anchor : Urn} {anchorNode : Option GraphNode} {urn : Urn}
    (member : urn ∈ (Search.start query anchor anchorNode).nodesByUrn) :
    urn ∈ (Search.start query anchor anchorNode).visited := by
  cases anchorNode with
  | none => exact absurd member (AList.notMem_empty urn)
  | some node =>
      rw [Search.start, AList.mem_keys, AList.keys_singleton] at member
      exact member

/-- A trace that is not truncated is complete if its passes are safe. -/
theorem traceAtLevel_complete (cut : RepliesCut provider graph) {result : LevelTraceResult}
    (ready : prepare provider query = .ok prepared)
    (ran : traceAtLevel provider query = .ok result)
    (conclusive : prepared.TraceConclusive provider query graph) :
    prepared.TraceComplete provider query graph result := by
  obtain ⟨truncated, edges⟩ := traceAtLevel_ran ready ran
  intro untruncated started runs begun direction expands row member
  have uncut : ∀ started, prepared.Runs provider query started →
      ¬ ∃ begun ∈ started.hops provider query, started.CutOff provider query begun := by
    intro started runs stopped
    cases (truncated.mpr (.inl ⟨started, runs, stopped⟩)).symm.trans untruncated
  obtain ⟨first, loop⟩ := (@levelHops_whole provider query graph 0 (prepared.firstStart query)
    (prepared.firstStarted query) cut (fun urn => start_visits query) _ (Nat.zero_add _)
    conclusive.1).resolve_left (uncut _ (.inl rfl))
  have same : prepared.firstSearch provider query =
      prepared.firstSearch (provider.whole graph) query := loop
  have lossless : started.Lossless provider query graph begun := by
    rcases runs with rfl | ⟨retries, rfl⟩
    · exact first begun expands.1
    · have again : prepared.retryStarted (provider.whole graph) query =
          prepared.retryStarted provider query := by
        rw [Prepared.retryStarted, Prepared.retryStart, ← same]
        rfl
      have retries' : prepared.NeedsRetry (provider.whole graph) query := by
        rw [Prepared.NeedsRetry, ← same]
        exact retries
      have safe := conclusive.2 retries'
      rw [again] at safe
      obtain ⟨rest, -⟩ := (@levelHops_whole provider query graph 0
        (prepared.retryStart provider query) (prepared.retryStarted provider query) cut
        (fun urn => start_visits query) _ (Nat.zero_add _) safe).resolve_left
          (uncut _ (.inr ⟨retries, rfl⟩))
      exact rest begun expands.1
  have kept : started.Keeps provider query row :=
    ⟨begun, direction, expands, (lossless direction expands.2.2).keeps cut member⟩
  rw [Prepared.lastSearch_edge_iff edges, Prepared.lastStarted]
  split
  · rename_i retries
    rcases runs with rfl | ⟨-, rfl⟩
    · exact absurd kept (retries.not_keeps row)
    · exact kept
  · rename_i single
    rcases runs with rfl | ⟨retries, -⟩
    · exact kept
    · exact absurd retries single

end Univiz.LevelTrace

import Mathlib.Algebra.BigOperators.Group.List.Basic
import Mathlib.Data.List.Induction
import Univiz.Canvas.Bundles

namespace Univiz.Canvas

open Univiz.Data

/-! What grouping, bundling and collapsing keep of the edges that are projected. -/

theorem endpoints_arrow {source target : String} (plain : Arrowless source)
    (plain' : Arrowless target) : endpoints (arrow source target) = (source, target) := by
  have symbols : (arrow source target).toList =
      source.toList ++ '-' :: '>' :: target.toList := by
    simp [arrow]
  have found : cut '-' '>' (arrow source target).toList =
      (source.toList, some target.toList) := by
    rw [symbols]
    exact cut_append (by decide) plain
  simp only [endpoints, found, cut_plain plain', String.ofList_toList]

theorem arrow_inj {source target source' target' : String} (plain : Arrowless source)
    (plain' : Arrowless target) (other : Arrowless source') (other' : Arrowless target')
    (same : arrow source target = arrow source' target') : source = source' ∧ target = target' := by
  have parts := endpoints_arrow plain plain'
  rw [same, endpoints_arrow other other'] at parts
  exact ⟨(Prod.mk.inj parts).1.symm, (Prod.mk.inj parts).2.symm⟩

theorem truthy_eq_some {found : Option String} {text : String} :
    truthy found = some text ↔ found = some text ∧ text ≠ "" := by
  simp [truthy, Option.filter_eq_some_iff]

namespace Options

variable {options : Options} {source target : String}

theorem joined_eq_some {first second : Option String}
    (both : joined first second = some (source, target)) :
    first = some source ∧ second = some target ∧ source ≠ target := by
  unfold joined at both
  split at both
  · rename_i isSource isTarget
    split at both
    · cases both
    · rename_i apart
      cases both
      exact ⟨(truthy_eq_some.mp isSource).1, (truthy_eq_some.mp isTarget).1, apart⟩
  · cases both

/-- No id that an edge may be projected to has an arrow in it. -/
structure PlainIds (options : Options) : Prop where
  ancestorMap : ∀ key id, options.ancestorMap key = some id → Arrowless id
  displayMap : ∀ id, options.displayed id = true → Arrowless id
  urnToIdMap : ∀ urn id, options.urnToIdMap urn = some id → Arrowless id
  traceBundleParentMap : ∀ parents ∈ options.traceBundleParentMap, ∀ child parent,
    parents.get child = some parent → Arrowless parent
  browseBundleParentMap : ∀ parents ∈ options.browseBundleParentMap, ∀ child parent,
    parents child = some parent → Arrowless parent

/-- The edges that pass the filters and have two endpoints, which differ. -/
def countedEdges (options : Options) : Nat :=
  options.collapsedEdges.countP (fun edge => (options.aggregatedEndpoints edge).isSome) +
    options.edges.countP (fun edge => (options.regularEndpoints edge).isSome) +
      options.detailedEdges.countP fun edge => (options.detailedEndpoints edge).isSome

theorem aggregatedEndpoint_plain (plain : options.PlainIds) {urn id : String}
    (found : options.aggregatedEndpoint urn = some id) : Arrowless id := by
  unfold aggregatedEndpoint at found
  rcases Option.or_eq_some_iff.mp found with shown | ⟨_, mapped⟩
  · have shown := (truthy_eq_some.mp shown).1
    split at shown
    · rename_i displayed
      cases shown
      exact plain.displayMap urn displayed
    · exact plain.ancestorMap urn id shown
  · exact plain.urnToIdMap urn id mapped

theorem regularEndpoint_plain (plain : options.PlainIds) {id endpoint : String}
    (found : options.regularEndpoint id = some endpoint) : Arrowless endpoint := by
  unfold regularEndpoint at found
  rcases Option.or_eq_some_iff.mp found with shown | ⟨_, displayed⟩
  · exact plain.ancestorMap id endpoint (truthy_eq_some.mp shown).1
  · split at displayed
    · rename_i inside
      cases displayed
      exact plain.displayMap id inside
    · cases displayed

theorem traceWalk_ends (parents : OrderedMap String String) (levels : String → Option Int)
    (ceiling : Int) (id : String) :
    ∃ answer, options.traceWalk parents levels ceiling id = some answer := by
  refine ascend_links_ends ?_ (Nat.lt_succ_self _)
  intro seen cursor met
  simp [stopsAt, met]

/-- The walk to the level of the trace ends at its start or at a parent. -/
theorem projectToTraceLevel_plain {parents : OrderedMap String String}
    {levels : String → Option Int} {ceiling : Int} {id projected : String}
    (plain : Arrowless id)
    (above : ∀ child parent, parents.get child = some parent → Arrowless parent)
    (found : options.projectToTraceLevel parents levels ceiling id = some projected) :
    Arrowless projected := by
  have walked := Option.join_eq_some_iff.mp found
  have all : ∀ id ∈ some projected, Arrowless id := by
    refine ascend_holds Arrowless (fun answer => ∀ id ∈ answer, Arrowless id) ?_ ?_ ?_ ?_ walked
    · intro node parent _ link
      exact above node parent (cursorAt_eq_some.mp link).1
    · intro seen node answer arrowless checked
      split at checked
      · cases checked
        rintro _ ⟨⟩
        exact arrowless
      · cases checked
    · rintro _ ⟨⟩
    · intro node start
      cases (cursorAt_eq_some.mp start).1
      exact plain
  exact all projected rfl

theorem rolledUp_plain (plain : options.PlainIds) {id : String} (arrowless : Arrowless id) :
    Arrowless (options.rolledUp id) := by
  unfold rolledUp
  split
  · exact arrowless
  · rename_i parents levels ceiling configured
    have given : parents ∈ options.traceBundleParentMap := by
      simp only [traceBundling] at configured
      split at configured
      · split at configured
        · rename_i isParents _ _
          cases configured
          exact isParents
        · cases configured
      · cases configured
    cases rolled : truthy (options.projectToTraceLevel parents levels ceiling id) with
    | none => exact arrowless
    | some projected =>
        exact projectToTraceLevel_plain arrowless (plain.traceBundleParentMap parents given)
          (truthy_eq_some.mp rolled).1

/-- Endpoints that an edge can have in a group. -/
structure Ends (source target : String) : Prop where
  arrowless : Arrowless source
  arrowless' : Arrowless target
  apart : source ≠ target

theorem aggregatedEndpoints_ends (plain : options.PlainIds) {aggregated : AggregatedEdgeInfo}
    (found : options.aggregatedEndpoints aggregated = some (source, target)) :
    Ends source target := by
  unfold aggregatedEndpoints at found
  split at found
  · cases found
  · obtain ⟨isSource, isTarget, apart⟩ := joined_eq_some found
    exact ⟨aggregatedEndpoint_plain plain isSource, aggregatedEndpoint_plain plain isTarget, apart⟩

theorem regularEndpoints_ends (plain : options.PlainIds) {edge : RegularEdge}
    (found : options.regularEndpoints edge = some (source, target)) : Ends source target := by
  unfold regularEndpoints at found
  split at found
  · cases found
  · split at found
    · rename_i first second isFirst isSecond
      have plain₁ := regularEndpoint_plain plain (truthy_eq_some.mp isFirst).1
      have plain₂ := regularEndpoint_plain plain (truthy_eq_some.mp isSecond).1
      split at found
      · rename_i source' target' both
        obtain ⟨isSource, isTarget, apart⟩ := joined_eq_some both
        split at found
        · cases found
          cases isSource
          cases isTarget
          exact ⟨rolledUp_plain plain plain₁, rolledUp_plain plain plain₂, apart⟩
        · cases found
      · cases found
    · cases found

theorem detailedEndpoints_ends (plain : options.PlainIds) {edge : DetailedEdge}
    (found : options.detailedEndpoints edge = some (source, target)) : Ends source target := by
  obtain ⟨isSource, isTarget, apart⟩ := joined_eq_some found
  exact ⟨plain.ancestorMap _ _ isSource, plain.ancestorMap _ _ isTarget, apart⟩

theorem groupEdges_ends (plain : options.PlainIds) {edge : GroupEdge}
    (member : edge ∈ options.groupEdges) : Ends edge.source edge.target := by
  simp only [groupEdges, List.mem_append, List.mem_filterMap, Option.map_eq_some_iff] at member
  rcases member with (⟨_, _, ⟨source, target⟩, ends, rfl⟩ | ⟨_, _, ⟨source, target⟩, ends, rfl⟩) |
    ⟨_, _, ⟨source, target⟩, ends, rfl⟩
  · exact aggregatedEndpoints_ends plain ends
  · exact regularEndpoints_ends plain ends
  · exact detailedEndpoints_ends plain ends

theorem length_groupEdges : options.groupEdges.length = options.countedEdges := by
  have counted {α β : Type} (items : List α) (ends : α → Option (String × String))
      (make : α → String × String → β) :
      (items.filterMap fun item => (ends item).map (make item)).length =
        items.countP fun item => (ends item).isSome := by
    induction items with
    | nil => rfl
    | cons item rest ih => cases found : ends item <;> simp [found, ih]
  simp only [groupEdges, countedEdges, List.length_append]
  rw [counted _ options.aggregatedEndpoints, counted _ options.regularEndpoints,
    counted _ options.detailedEndpoints]

def edgeTotal (groups : EdgeGroups) : Nat :=
  (groups.entries.map fun entry => entry.2.length).sum

/-- The edges of a group have the endpoints that its key names. -/
def Grouped (groups : EdgeGroups) : Prop :=
  ∀ key edges, groups.get key = some edges → edges ≠ [] ∧ ∃ source target, Ends source target ∧
    key = arrow source target ∧ ∀ edge ∈ edges, edge.source = source ∧ edge.target = target

variable {groups : EdgeGroups} {key : String} {edges : List GroupEdge}

theorem edgeTotal_set : edgeTotal (groups.set key edges) + ((groups.get key).getD []).length =
    edgeTotal groups + edges.length := by
  have sum := groups.sum_set key edges List.length
  cases found : groups.get key with
  | none => simpa [found, edgeTotal] using sum
  | some old => simpa [found, edgeTotal] using sum

theorem edgeTotal_erase :
    edgeTotal (groups.erase key) + ((groups.get key).getD []).length = edgeTotal groups := by
  have sum := groups.sum_erase key List.length
  cases found : groups.get key with
  | none => simpa [found, edgeTotal] using sum
  | some old => simpa [found, edgeTotal] using sum

theorem Grouped.set (grouped : Grouped groups) (ends : Ends source target) (some : edges ≠ [])
    (own : ∀ edge ∈ edges, edge.source = source ∧ edge.target = target) :
    Grouped (groups.set (arrow source target) edges) := by
  intro key found isFound
  rw [OrderedMap.get_set] at isFound
  split at isFound
  · rename_i here
    cases isFound
    exact ⟨some, source, target, ends, here.symm, own⟩
  · exact grouped key found isFound

theorem Grouped.own (grouped : Grouped groups) (ends : Ends source target) :
    ∀ edge ∈ (groups.get (arrow source target)).getD [],
      edge.source = source ∧ edge.target = target := by
  intro edge member
  cases found : groups.get (arrow source target) with
  | none => simp [found] at member
  | some edges =>
      rw [found, Option.getD_some] at member
      obtain ⟨_, source', target', ends', same, own⟩ := grouped _ edges found
      obtain ⟨rfl, rfl⟩ := arrow_inj ends.arrowless ends.arrowless' ends'.arrowless ends'.arrowless'
        same
      exact own edge member

theorem addEdgeToGroup_grouped (grouped : Grouped groups) {edge : GroupEdge}
    (ends : Ends edge.source edge.target) : Grouped (addEdgeToGroup groups edge) := by
  refine grouped.set ends (List.concat_ne_nil _ _) ?_
  intro other member
  rcases List.mem_append.mp member with old | new
  · exact grouped.own ends other old
  · cases List.mem_singleton.mp new
    exact ⟨rfl, rfl⟩

theorem addEdgeToGroup_total {edge : GroupEdge} :
    edgeTotal (addEdgeToGroup groups edge) = edgeTotal groups + 1 := by
  have sum : edgeTotal (addEdgeToGroup groups edge) +
        ((groups.get (arrow edge.source edge.target)).getD []).length =
      edgeTotal groups + (filed groups (arrow edge.source edge.target) ++ [edge]).length :=
    edgeTotal_set
  rw [List.length_append, List.length_singleton, filed] at sum
  omega

theorem edgeGroups_grouped (plain : options.PlainIds) :
    Grouped options.edgeGroups ∧ edgeTotal options.edgeGroups = options.countedEdges := by
  have added (edges : List GroupEdge) (ends : ∀ edge ∈ edges, Ends edge.source edge.target) :
      ∀ groups : EdgeGroups, Grouped groups → Grouped (edges.foldl addEdgeToGroup groups) ∧
        edgeTotal (edges.foldl addEdgeToGroup groups) = edgeTotal groups + edges.length := by
    induction edges with
    | nil => exact fun groups grouped => ⟨grouped, rfl⟩
    | cons edge rest ih =>
        intro groups grouped
        obtain ⟨here, later⟩ := List.forall_mem_cons.mp ends
        obtain ⟨grouped', total⟩ := ih later _ (addEdgeToGroup_grouped grouped here)
        refine ⟨grouped', ?_⟩
        rw [List.foldl_cons, total, addEdgeToGroup_total, List.length_cons]
        omega
  obtain ⟨grouped, total⟩ := added options.groupEdges (fun edge => groupEdges_ends plain) .empty
    nofun
  refine ⟨grouped, ?_⟩
  rw [edgeGroups, total, length_groupEdges]
  exact Nat.zero_add _

def moved (source target : String) (edge : GroupEdge) : GroupEdge :=
  { edge with source, target, browseBundled := true }

/-- What a child group leaves behind, also where it is missing. -/
theorem mergeChild_eq {state : List GroupEdge × EdgeGroups} {childKey : String} :
    mergeChild source target state childKey =
      (state.1 ++ ((state.2.get childKey).getD []).map (moved source target),
        state.2.erase childKey) := by
  unfold mergeChild
  split
  · rename_i missing
    have same : state.2.erase childKey = state.2 := OrderedMap.erase_of_get missing
    simp [missing, same]
  · rename_i child found
    rw [found]
    rfl

/-- The edges of the children go over, and their groups with them. -/
theorem mergeChildren_keeps {keys : List String} :
    ∀ state : List GroupEdge × EdgeGroups,
      let after := keys.foldl (mergeChild source target) state
      after.2 = keys.foldl OrderedMap.erase state.2 ∧
        edgeTotal after.2 + after.1.length = edgeTotal state.2 + state.1.length ∧
        state.1 <+: after.1 ∧
        ∀ edge ∈ after.1, edge ∈ state.1 ∨ (edge.source = source ∧ edge.target = target) := by
  induction keys with
  | nil => exact fun state => ⟨rfl, rfl, List.prefix_rfl, fun edge => Or.inl⟩
  | cons key rest ih =>
      intro state
      obtain ⟨erased, total, kept, own⟩ := ih (mergeChild source target state key)
      rw [mergeChild_eq] at erased total kept own
      have sum : edgeTotal (state.2.erase key) + ((state.2.get key).getD []).length =
        edgeTotal state.2 := edgeTotal_erase
      rw [List.foldl_cons, mergeChild_eq]
      refine ⟨erased, ?_, (List.prefix_append _ _).trans kept, ?_⟩
      · simp only [List.length_append, List.length_map] at total
        omega
      · intro edge member
        rcases own edge member with before | here
        · rcases List.mem_append.mp before with old | new
          · exact Or.inl old
          · obtain ⟨_, _, rfl⟩ := List.mem_map.mp new
            exact Or.inr ⟨rfl, rfl⟩
        · exact Or.inr here

/-- A key above others and the keys below it, which have groups. -/
structure Bucket (options : Options) (parents : String → Option String) (groups : EdgeGroups)
    (bucket : String × List String) : Prop where
  filled : bucket.2 ≠ []
  below : ∀ key ∈ bucket.2, options.parentKey parents key = some bucket.1
  present : ∀ key ∈ bucket.2, (groups.get key).isSome

variable {parents : String → Option String}

theorem parentKey_eq_some {above : String} (found : options.parentKey parents key = some above) :
    above ≠ key ∧ ∃ source target, above = arrow source target ∧
      (source = (endpoints key).1 ∨ ∃ child, parents child = some source) ∧
      (target = (endpoints key).2 ∨ ∃ child, parents child = some target) := by
  have up (child : String) {parent : String} (link : ((truthy (parents child)).filter
      (· ∉ options.expandedNodes)) = some parent) : parents child = some parent :=
    (truthy_eq_some.mp (Option.filter_eq_some_iff.mp link).1).1
  have either (child : String) : (((truthy (parents child)).filter
      (· ∉ options.expandedNodes)).getD child = child) ∨ ∃ other, parents other =
        some (((truthy (parents child)).filter (· ∉ options.expandedNodes)).getD child) := by
    cases link : (truthy (parents child)).filter (· ∉ options.expandedNodes) with
    | none => exact Or.inl rfl
    | some parent => exact Or.inr ⟨child, up child link⟩
  unfold parentKey at found
  simp only at found
  split at found
  · cases found
  · split at found
    · cases found
    · rename_i apart
      cases found
      exact ⟨apart, _, _, rfl, either _, either _⟩

theorem parentKey_plain (plain : options.PlainIds)
    (given : parents ∈ options.browseBundleParentMap) {above : String}
    (found : options.parentKey parents key = some above) (ends : Ends source target)
    (here : key = arrow source target) :
    above ≠ key ∧ ∃ source target, above = arrow source target ∧ Arrowless source ∧
      Arrowless target := by
  obtain ⟨apart, source', target', rfl, isSource, isTarget⟩ := parentKey_eq_some found
  have parts := endpoints_arrow ends.arrowless ends.arrowless'
  rw [here, parts] at isSource isTarget
  have above := plain.browseBundleParentMap parents given
  refine ⟨apart, source', target', rfl, ?_, ?_⟩
  · rcases isSource with rfl | ⟨child, link⟩
    · exact ends.arrowless
    · exact above child source' link
  · rcases isTarget with rfl | ⟨child, link⟩
    · exact ends.arrowless'
    · exact above child target' link

variable {bucket : String × List String}

/-- The edges of the children and those of the key are one group then. -/
theorem merged_keeps (grouped : Grouped groups) (ends : Ends source target) {child : String}
    {rest : List String} (present : (groups.get child).isSome)
    (elsewhere : arrow source target ∉ child :: rest)
    {after : List GroupEdge × EdgeGroups}
    (isAfter : after = (child :: rest).foldl (mergeChild source target)
      ((groups.get (arrow source target)).getD [], groups)) :
    Grouped (after.2.set (arrow source target) after.1) ∧
      edgeTotal (after.2.set (arrow source target) after.1) = edgeTotal groups ∧
      ∀ other ∉ child :: rest, (groups.get other).isSome →
        ((after.2.set (arrow source target) after.1).get other).isSome := by
  have kept (other : String) : after.2.get other =
      if other ∈ child :: rest then none else groups.get other := by
    rw [isAfter, (mergeChildren_keeps _).1, OrderedMap.get_foldl_erase]
  have total : edgeTotal after.2 + after.1.length =
      edgeTotal groups + ((groups.get (arrow source target)).getD []).length := by
    rw [isAfter]
    exact (mergeChildren_keeps _).2.1
  have filled : after.1 ≠ [] := by
    obtain ⟨edges, isEdges⟩ := Option.isSome_iff_exists.mp present
    have first := (grouped child edges isEdges).1
    have emptied (state : List GroupEdge × EdgeGroups)
        (empty : (rest.foldl (mergeChild source target) state).1 = []) : state.1 = [] := by
      obtain ⟨_, _, before, _⟩ := @mergeChildren_keeps source target rest state
      rwa [empty, List.prefix_nil] at before
    intro empty
    rw [isAfter, List.foldl_cons, mergeChild_eq, isEdges] at empty
    exact first (List.map_eq_nil_iff.mp (List.append_eq_nil_iff.mp (emptied _ empty)).2)
  have own : ∀ edge ∈ after.1, edge.source = source ∧ edge.target = target := by
    intro edge member
    rw [isAfter] at member
    rcases (mergeChildren_keeps _).2.2.2 edge member with before | here
    · exact grouped.own ends edge before
    · exact here
  have grouped' : Grouped after.2 := by
    intro other edges found
    rw [kept] at found
    split at found
    · cases found
    · exact grouped other edges found
  refine ⟨grouped'.set ends filled own, ?_, ?_⟩
  · have sum : edgeTotal (after.2.set (arrow source target) after.1) +
        ((after.2.get (arrow source target)).getD []).length =
      edgeTotal after.2 + after.1.length := edgeTotal_set
    rw [kept, if_neg elsewhere] at sum
    omega
  · intro other outside present
    rw [OrderedMap.get_set, kept, if_neg outside]
    split
    · rfl
    · exact present

/-- A bucket that is collapsed has all edges of its children, under its own key. -/
theorem collapseBucket_keeps (plain : options.PlainIds)
    (given : parents ∈ options.browseBundleParentMap) {state : EdgeGroups × Bool}
    (grouped : Grouped state.1) (isBucket : options.Bucket parents state.1 bucket) :
    Grouped (options.collapseBucket state bucket).1 ∧
      edgeTotal (options.collapseBucket state bucket).1 = edgeTotal state.1 ∧
      ∀ other, other ∉ bucket.2 → (state.1.get other).isSome →
        ((options.collapseBucket state bucket).1.get other).isSome := by
  have unchanged : Grouped state.1 ∧ edgeTotal state.1 = edgeTotal state.1 ∧
      ∀ other, other ∉ bucket.2 → (state.1.get other).isSome → (state.1.get other).isSome :=
    ⟨grouped, rfl, fun _ _ present => present⟩
  unfold collapseBucket
  split
  · exact unchanged
  · obtain ⟨above, keys⟩ := bucket
    obtain ⟨child, rest, rfl⟩ := List.exists_cons_of_ne_nil isBucket.filled
    -- The first child tells the endpoints of the bucket.
    obtain ⟨edges, isEdges⟩ := Option.isSome_iff_exists.mp (isBucket.present child List.mem_cons_self)
    obtain ⟨filled, source', target', ends', isKey, _⟩ := grouped child edges isEdges
    obtain ⟨_, source, target, rfl, plain₁, plain₂⟩ :=
      parentKey_plain plain given (isBucket.below child List.mem_cons_self) ends' isKey
    have elsewhere : arrow source target ∉ child :: rest := by
      intro inside
      exact (parentKey_eq_some (isBucket.below _ inside)).1 rfl
    simp only [endpoints_arrow plain₁ plain₂]
    split
    · exact unchanged
    · rename_i apart
      have ends : Ends source target := ⟨plain₁, plain₂, apart⟩
      exact merged_keeps grouped ends (isBucket.present child List.mem_cons_self) elsewhere rfl

theorem mem_filed_parentBuckets {child above : String} :
    child ∈ filed (options.parentBuckets parents groups) above ↔
      ∃ key ∈ groups.entries.map Prod.fst,
        options.parentKey parents key = some above ∧ child = key := by
  refine (holds_foldl_iff (fun buckets => child ∈ filed buckets above) _ ?_).trans
    (or_iff_right List.not_mem_nil)
  intro buckets key
  split
  · rename_i found
    rw [mem_filed_file, found, Option.some_inj]
  · rename_i missing
    simp [missing]

theorem Bucket.of_parentBuckets (isBucket : bucket ∈ (options.parentBuckets parents groups).entries) :
    options.Bucket parents groups bucket := by
  obtain ⟨above, keys⟩ := bucket
  have found := OrderedMap.get_eq_some.mpr isBucket
  have below (child : String) (member : child ∈ keys) :
      child ∈ groups.entries.map Prod.fst ∧ options.parentKey parents child = some above := by
    have inside : child ∈ filed (options.parentBuckets parents groups) above := by
      rwa [filed, found, Option.getD_some]
    obtain ⟨key, isKey, link, rfl⟩ := mem_filed_parentBuckets.mp inside
    exact ⟨isKey, link⟩
  refine ⟨?_, fun child member => (below child member).2, ?_⟩
  · have filled : ∀ above keys, (options.parentBuckets parents groups).get above = some keys →
        keys ≠ [] := by
      refine List.foldlRecOn _ _ (motive := fun buckets : OrderedMap String (List String) =>
        ∀ above keys, buckets.get above = some keys → keys ≠ [])
          (fun _ _ found => by cases found) ?_
      intro buckets filled key _ above keys found
      split at found
      · rw [file, OrderedMap.get_set] at found
        split at found
        · cases found
          exact List.concat_ne_nil _ _
        · exact filled above keys found
      · exact filled above keys found
    exact filled above keys found
  · intro child member
    obtain ⟨⟨_, edges⟩, isEntry, rfl⟩ := List.mem_map.mp (below child member).1
    rw [OrderedMap.get_eq_some.mpr isEntry]
    rfl

/-- One pass over the buckets keeps the edges: the children of a bucket are in no other. -/
theorem bundlePass_keeps (plain : options.PlainIds)
    (given : parents ∈ options.browseBundleParentMap) (grouped : Grouped groups) :
    Grouped (options.bundlePass parents groups).1 ∧
      edgeTotal (options.bundlePass parents groups).1 = edgeTotal groups := by
  have collapsed (buckets : List (String × List String)) (distinct : (buckets.map Prod.fst).Nodup) :
      ∀ state : EdgeGroups × Bool, Grouped state.1 →
        (∀ bucket ∈ buckets, options.Bucket parents state.1 bucket) →
        Grouped (buckets.foldl options.collapseBucket state).1 ∧
          edgeTotal (buckets.foldl options.collapseBucket state).1 = edgeTotal state.1 := by
    induction buckets with
    | nil => exact fun state grouped _ => ⟨grouped, rfl⟩
    | cons bucket rest ih =>
        intro state grouped isBucket
        obtain ⟨fresh, distinct⟩ := List.nodup_cons.mp distinct
        have here := isBucket bucket List.mem_cons_self
        obtain ⟨grouped', total, kept⟩ := collapseBucket_keeps plain given grouped here
        have later : ∀ other ∈ rest,
            options.Bucket parents (options.collapseBucket state bucket).1 other := by
          intro other member
          obtain ⟨filled, below, present⟩ := isBucket other (List.mem_cons_of_mem _ member)
          refine ⟨filled, below, fun key inside => kept key ?_ (present key inside)⟩
          intro shared
          have same := (here.below key shared).symm.trans (below key inside)
          exact fresh (List.mem_map.mpr ⟨other, member, (Option.some_inj.mp same).symm⟩)
        obtain ⟨grouped'', total'⟩ := ih distinct _ grouped' later
        exact ⟨grouped'', total'.trans total⟩
  exact collapsed _ (OrderedMap.distinct _) (groups, false) grouped
    fun _ isBucket => .of_parentBuckets isBucket

theorem bundlePasses_keeps (plain : options.PlainIds)
    (given : parents ∈ options.browseBundleParentMap) {passes : Nat} (grouped : Grouped groups) :
    Grouped (options.bundlePasses parents passes groups) ∧
      edgeTotal (options.bundlePasses parents passes groups) = edgeTotal groups := by
  induction passes generalizing groups with
  | zero => exact ⟨grouped, rfl⟩
  | succ passes ih =>
      obtain ⟨grouped', total⟩ := bundlePass_keeps plain given grouped
      simp only [bundlePasses]
      split
      · obtain ⟨grouped'', total'⟩ := ih grouped'
        exact ⟨grouped'', total'.trans total⟩
      · exact ⟨grouped', total⟩

theorem bundledGroups_keeps (plain : options.PlainIds) :
    Grouped options.bundledGroups ∧ edgeTotal options.bundledGroups = options.countedEdges := by
  obtain ⟨grouped, total⟩ := edgeGroups_grouped plain
  unfold bundledGroups
  split
  · split
    · rename_i parents given
      obtain ⟨grouped', total'⟩ := bundlePasses_keeps plain given grouped
      exact ⟨grouped', total'.trans total⟩
    · exact ⟨grouped, total⟩
  · exact ⟨grouped, total⟩

/-- What the steps before leave: an edge of its own for each pair of endpoints. -/
structure Finalized (projected : List ProjectedEdge) : Prop where
  ends : ∀ edge ∈ projected, Ends edge.source edge.target
  ids : ∀ edge ∈ projected, edge.id = "bundle-" ++ arrow edge.source edge.target
  distinct : (projected.map ProjectedEdge.id).Nodup

def counted (projected : List ProjectedEdge) : Nat :=
  (projected.map ProjectedEdge.edgeCount).sum

/-- A group that is not empty becomes an edge with its key and its count. -/
theorem finalize_grouped (grouped : Grouped groups) {entry : String × List GroupEdge}
    (member : entry ∈ groups.entries) :
    ∃ edge, options.finalize entry = some edge ∧ Ends edge.source edge.target ∧
      entry.1 = arrow edge.source edge.target ∧ edge.id = "bundle-" ++ entry.1 ∧
      edge.edgeCount = entry.2.length := by
  obtain ⟨key, edges⟩ := entry
  obtain ⟨filled, source, target, ends, isKey, own⟩ :=
    grouped key edges (OrderedMap.get_eq_some.mpr member)
  obtain ⟨first, rest, rfl⟩ := List.exists_cons_of_ne_nil filled
  obtain ⟨rfl, rfl⟩ := own first List.mem_cons_self
  exact ⟨_, rfl, ends, isKey, rfl, rfl⟩

theorem finalize_all (grouped : Grouped groups) :
    ∃ projected, groups.entries.mapM options.finalize = some projected ∧ Finalized projected ∧
      counted projected = edgeTotal groups := by
  have each (entries : List (String × List GroupEdge)) (inside : ∀ entry ∈ entries,
      entry ∈ groups.entries) : ∃ projected, entries.mapM options.finalize = some projected ∧
        (∀ edge ∈ projected, Ends edge.source edge.target) ∧
        (∀ edge ∈ projected, edge.id = "bundle-" ++ arrow edge.source edge.target) ∧
        projected.map ProjectedEdge.id = (entries.map Prod.fst).map ("bundle-" ++ ·) ∧
        counted projected = (entries.map fun entry => entry.2.length).sum := by
    induction entries with
    | nil => exact ⟨[], rfl, nofun, nofun, rfl, rfl⟩
    | cons entry rest ih =>
        obtain ⟨here, later⟩ := List.forall_mem_cons.mp inside
        obtain ⟨edge, made, ends, isKey, isId, count⟩ := finalize_grouped grouped here
        obtain ⟨projected, all, ends', ids, sameIds, total⟩ := ih later
        refine ⟨edge :: projected, ?_, ?_, ?_, ?_, ?_⟩
        · rw [List.mapM_cons, made, all]
          rfl
        · exact List.forall_mem_cons.mpr ⟨ends, ends'⟩
        · exact List.forall_mem_cons.mpr ⟨isKey ▸ isId, ids⟩
        · rw [List.map_cons, sameIds, isId]
          rfl
        · rw [List.map_cons, List.sum_cons, ← total, ← count]
          rfl
  obtain ⟨projected, all, ends, ids, sameIds, total⟩ := each groups.entries fun _ member => member
  refine ⟨projected, all, ⟨ends, ids, ?_⟩, total⟩
  rw [sameIds]
  exact groups.distinct.map fun _ _ same => (String.append_right_inj _).mp same

/-- The edges that a slot holds, in an edge list. -/
structure Slotted (projected : List ProjectedEdge) (key : String) (slot : Slot) : Prop where
  fwd : ∀ edge ∈ slot.fwd, edge ∈ projected ∧ canonical edge = key ∧
    less edge.source edge.target = true
  rev : ∀ edge ∈ slot.rev, edge ∈ projected ∧ canonical edge = key ∧
    less edge.source edge.target = false

theorem slots_slotted {projected : List ProjectedEdge} :
    ∀ key slot, (projected.foldl fillSlot OrderedMap.empty).get key = some slot →
      Slotted projected key slot := by
  refine List.foldlRecOn projected fillSlot (motive := fun byPair =>
    ∀ key slot, byPair.get key = some slot → Slotted projected key slot) ?_ ?_
  · rintro key slot ⟨⟩
  · intro byPair slotted edge member key slot found
    unfold fillSlot at found
    split at found
    · exact slotted key slot found
    · rw [OrderedMap.get_set] at found
      split at found
      · rename_i here
        have before : Slotted projected key ((byPair.get (canonical edge)).getD ⟨none, none⟩) := by
          rw [here]
          cases former : byPair.get key with
          | none => exact ⟨fun _ absent => (by cases absent), fun _ absent => (by cases absent)⟩
          | some slot => exact slotted key slot former
        cases found
        split
        · rename_i forward
          exact ⟨by rintro _ ⟨⟩; exact ⟨member, here, forward⟩, before.rev⟩
        · rename_i backward
          exact ⟨before.fwd, by rintro _ ⟨⟩; exact ⟨member, here, eq_false_of_ne_true backward⟩⟩
      · exact slotted key slot found

/-- Edges of the two directions between the endpoints that a key names. -/
structure BothWays (projected : List ProjectedEdge) (key : String) (fwd rev : ProjectedEdge) :
    Prop where
  fwd : fwd ∈ projected ∧ canonical fwd = key ∧ less fwd.source fwd.target = true
  rev : rev ∈ projected ∧ canonical rev = key ∧ less rev.source rev.target = false

variable {projected : List ProjectedEdge}

theorem bothWays_sound {fwd rev : ProjectedEdge} (pair : (key, fwd, rev) ∈ bothWays projected) :
    BothWays projected key fwd rev := by
  obtain ⟨⟨other, slot⟩, isEntry, both⟩ := List.mem_filterMap.mp pair
  have slotted := slots_slotted other slot (OrderedMap.get_eq_some.mpr isEntry)
  simp only at both
  split at both
  · rename_i isFwd isRev
    cases both
    exact ⟨slotted.fwd fwd isFwd, slotted.rev rev isRev⟩
  · cases both

theorem bothWays_distinct :
    (bothWays projected).Pairwise fun pair other => pair.1 ≠ other.1 := by
  have distinct := (projected.foldl fillSlot OrderedMap.empty).distinct
  refine (List.pairwise_map.mp distinct).filterMap _ ?_
  intro entry other apart pair isPair pair' isPair'
  simp only at isPair isPair'
  split at isPair
  · split at isPair'
    · cases isPair
      cases isPair'
      exact apart
    · cases isPair'
  · cases isPair

/-- The edges in whose place one edge of both directions stands. -/
def replaced (projected : List ProjectedEdge) : List ProjectedEdge :=
  (bothWays projected).flatMap fun (_, fwd, rev) => [fwd, rev]

theorem mem_replaced {edge : ProjectedEdge} (member : edge ∈ replaced projected) :
    edge ∈ projected := by
  obtain ⟨⟨key, fwd, rev⟩, pair, here⟩ := List.mem_flatMap.mp member
  have both := bothWays_sound pair
  simp only [List.mem_cons, List.not_mem_nil, or_false] at here
  rcases here with rfl | rfl
  · exact both.fwd.1
  · exact both.rev.1

theorem replaced_nodup : (replaced projected).Nodup := by
  refine List.nodup_flatMap.mpr ⟨?_, bothWays_distinct.imp_of_mem ?_⟩
  · intro ⟨key, fwd, rev⟩ pair
    have both := bothWays_sound pair
    refine List.nodup_cons.mpr ⟨fun same => ?_, List.nodup_singleton _⟩
    have forward := both.fwd.2.2
    rw [List.mem_singleton.mp same, both.rev.2.2] at forward
    cases forward
  · intro ⟨key, fwd, rev⟩ ⟨key', fwd', rev'⟩ pair pair' apart edge member member'
    have names {key : String} {fwd rev : ProjectedEdge}
        (pair : (key, fwd, rev) ∈ bothWays projected) (member : edge ∈ [fwd, rev]) :
        canonical edge = key := by
      simp only [List.mem_cons, List.not_mem_nil, or_false] at member
      rcases member with rfl | rfl
      · exact (bothWays_sound pair).fwd.2.1
      · exact (bothWays_sound pair).rev.2.1
    exact apart ((names pair member).symm.trans (names pair' member'))

theorem counted_bidirectional :
    counted ((bothWays projected).map fun (key, fwd, rev) => bidirectional key fwd rev) =
      counted (replaced projected) := by
  unfold replaced
  induction bothWays projected with
  | nil => rfl
  | cons pair rest ih =>
      obtain ⟨key, fwd, rev⟩ := pair
      simp only [counted, List.map_cons, List.sum_cons, List.flatMap_cons, List.map_append,
        List.sum_append, List.map_nil, List.sum_nil] at ih ⊢
      rw [ih]
      exact congrArg (· + _) (Nat.add_assoc _ _ 0).symm

theorem bidirectional_apart (finalized : Finalized projected) {fwd rev : ProjectedEdge}
    (pair : (key, fwd, rev) ∈ bothWays projected) :
    (bidirectional key fwd rev).source ≠ (bidirectional key fwd rev).target := by
  obtain ⟨member, isKey, forward⟩ := (bothWays_sound pair).fwd
  have ends := finalized.ends fwd member
  rw [canonical, if_pos forward] at isKey
  have parts := endpoints_arrow ends.arrowless ends.arrowless'
  rw [isKey] at parts
  simp only [bidirectional, parts]
  exact ends.apart

theorem bidirectionalCollapse_keeps (finalized : Finalized projected) :
    counted (bidirectionalCollapse projected) = counted projected ∧
      ∀ edge ∈ bidirectionalCollapse projected, edge.source ≠ edge.target := by
  have consumed : ((bothWays projected).flatMap fun (_, fwd, rev) => [fwd.id, rev.id]) =
      (replaced projected).map ProjectedEdge.id := by
    rw [replaced, List.map_flatMap]
    rfl
  -- The ids pick the replaced edges out of the list and no others.
  have chosen : (projected.filter fun edge =>
      edge.id ∈ (replaced projected).map ProjectedEdge.id).Perm (replaced projected) := by
    have distinct := (finalized.distinct.of_map _).filter fun edge =>
      edge.id ∈ (replaced projected).map ProjectedEdge.id
    refine (List.perm_ext_iff_of_nodup distinct replaced_nodup).mpr fun edge => ?_
    rw [List.mem_filter, decide_eq_true_iff]
    constructor
    · rintro ⟨member, named⟩
      obtain ⟨other, isOther, same⟩ := List.mem_map.mp named
      rwa [← List.inj_on_of_nodup_map finalized.distinct (mem_replaced isOther) member same]
    · exact fun member => ⟨mem_replaced member, List.mem_map_of_mem member⟩
  have parts := List.filter_append_perm
    (fun edge => decide (edge.id ∈ (replaced projected).map ProjectedEdge.id)) projected
  simp only [← decide_not] at parts
  unfold bidirectionalCollapse
  simp only [consumed]
  constructor
  · have total : counted (projected.filter fun edge =>
          edge.id ∉ (replaced projected).map ProjectedEdge.id) + counted (replaced projected) =
        counted projected := by
      have sums := (parts.map ProjectedEdge.edgeCount).sum_eq
      rw [List.map_append, List.sum_append, (chosen.map ProjectedEdge.edgeCount).sum_eq] at sums
      exact (Nat.add_comm _ _).trans sums
    rw [← total, ← counted_bidirectional]
    simp only [counted, List.map_append, List.sum_append]
  · intro edge member
    rcases List.mem_append.mp member with kept | new
    · exact (finalized.ends edge (List.mem_filter.mp kept).1).apart
    · obtain ⟨⟨key, fwd, rev⟩, pair, rfl⟩ := List.mem_map.mp new
      exact bidirectional_apart finalized pair

/-- Grouping, bundling and collapsing neither lose nor duplicate an edge. -/
theorem projectedEdges_conserve (shown : options.showLineageFlow = true)
    (plain : options.PlainIds) :
    ∃ projected, options.projectedEdges = some projected ∧
      (projected.map ProjectedEdge.edgeCount).sum = options.countedEdges ∧
      ∀ edge ∈ projected, edge.source ≠ edge.target := by
  obtain ⟨grouped, total⟩ := bundledGroups_keeps plain
  obtain ⟨projected, all, finalized, sum⟩ := @finalize_all options _ grouped
  obtain ⟨kept, apart⟩ := bidirectionalCollapse_keeps finalized
  refine ⟨bidirectionalCollapse projected, ?_, kept.trans (sum.trans total), apart⟩
  rw [projectedEdges, if_pos shown, all]
  rfl

/-- Two siblings below a collapsed parent, in the browse mode, and edges both ways. -/
def siblings : Options where
  edges := [⟨"e1", "a", "c", none, none, none⟩, ⟨"e2", "b", "c", none, none, none⟩,
    ⟨"e3", "c", "p", none, none, none⟩]
  aggregatedEdges := []
  expandedNodes := []
  ancestorMap id := if id ∈ ["a", "b", "c", "p"] then some id else none
  nodeIndex _ := none
  displayMap := .empty
  urnToIdMap _ := none
  showLineageFlow := true
  isTracing := false
  traceContextSet := []
  isContainmentEdge _ := false
  suppressedAggEdgeKeys := none
  traceAddedEdgeIds := none
  traceBundleParentMap := none
  entityTypeLevels := none
  traceFocusLevel := none
  browseBundleEnabled := true
  browseBundleParentMap := some fun id => if id ∈ ["a", "b"] then some "p" else none
  browseBundleFanInThreshold := 1
  nodeLayerIndexMap := none
  toUpperCase := id

theorem siblings_plain : siblings.PlainIds where
  ancestorMap := by
    intro key id mapped
    simp only [siblings, Option.ite_none_right_eq_some, Option.some_inj] at mapped
    obtain ⟨known, rfl⟩ := mapped
    have all : ∀ id ∈ ["a", "b", "c", "p"], Arrowless id := by decide +kernel
    exact all key known
  displayMap := by
    intro id shown
    cases shown
  urnToIdMap := by
    intro urn id mapped
    cases mapped
  traceBundleParentMap := by
    rintro _ ⟨⟩
  browseBundleParentMap := by
    rintro _ ⟨⟩ child parent link
    simp only [Option.ite_none_right_eq_some, Option.some_inj] at link
    obtain ⟨_, rfl⟩ := link
    decide +kernel

theorem projectedEdges_conserve_siblings :
    ∃ projected, siblings.projectedEdges = some projected ∧
      (projected.map ProjectedEdge.edgeCount).sum = 3 ∧
      ∀ edge ∈ projected, edge.source ≠ edge.target := by
  have three : siblings.countedEdges = 3 := by decide +kernel
  have conserved := projectedEdges_conserve rfl siblings_plain
  rwa [three] at conserved

end Options

end Univiz.Canvas

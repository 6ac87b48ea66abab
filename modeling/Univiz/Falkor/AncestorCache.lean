import Mathlib.Data.List.MinMax
import Mathlib.Logic.Relation
import Univiz.Data.Transition
import Univiz.Editing.Graph
import Univiz.Falkor.Store

namespace Univiz.Falkor

open Univiz.Data Univiz.Editing

/-! Ancestor chains and the Redis hash that caches them.

A chain is read off a longest containment path.  It depends only on the edges
above its node, so after a node has moved the chains that can be out of date are
those of the nodes below it.  `on_containment_changed` deletes them, if the
configured types are spelled as the relationships have them.
-/

/-- A relationship between two nodes that have a URN. -/
structure ContainmentEdge where
  id : Nat
  edgeType : String
  parentUrn : Urn
  childUrn : Urn
  parent_named : parentUrn ≠ ""
  child_named : childUrn ≠ ""
deriving DecidableEq

/-- `entityTypeLevels` is the number of entity types that have a level, `isAlnum` is Python's
for a character. -/
structure ContainmentConfig where
  containmentTypes : List String
  entityTypeLevels : Nat
  isAlnum : Char → Bool

namespace ContainmentConfig

variable (config : ContainmentConfig) (graph : List ContainmentEdge)

def maxDepth : Nat := max config.entityTypeLevels 10

/-- The types that the variable-length patterns name. -/
def relationshipTypes : List String :=
  config.containmentTypes.map (sanitizeLabel config.isAlnum)

/-- The relationships that the pattern can follow upward from a node. -/
def parentEdges (urn : Urn) : List ContainmentEdge :=
  graph.filter fun edge => edge.childUrn = urn ∧ edge.edgeType ∈ config.relationshipTypes

/-- The query of `on_containment_changed` compares `type(r)` with the types as configured. -/
def childUrns (urn : Urn) : List Urn :=
  (graph.filter fun edge =>
    edge.parentUrn = urn ∧ edge.edgeType ∈ config.containmentTypes).map ContainmentEdge.childUrn

/-- The paths of the variable-length pattern, and the empty one.  No
relationship occurs twice in a path. -/
def paths : Nat → List ContainmentEdge → Urn → List (List ContainmentEdge)
  | 0, _, _ => [[]]
  | depth + 1, used, urn =>
      [] :: ((config.parentEdges graph urn).filter (· ∉ used)).flatMap fun edge =>
        (paths depth (edge :: used) edge.parentUrn).map (edge :: ·)

/-- What `ORDER BY length(path) DESC LIMIT 1` can return. -/
def longestChains (urn : Urn) : List (List Urn) :=
  let candidates := config.paths graph config.maxDepth [] urn
  (candidates.filter fun path => candidates.all (·.length ≤ path.length)).map fun path =>
    path.map ContainmentEdge.parentUrn

def IsChain (urn : Urn) (chain : List Urn) : Prop :=
  chain ∈ config.longestChains graph urn

instance (urn : Urn) (chain : List Urn) : Decidable (config.IsChain graph urn chain) :=
  inferInstanceAs (Decidable (chain ∈ config.longestChains graph urn))

/-- One of the longest chains; `choice` decides between chains of one length. -/
def chosenChain (choice : Nat) (urn : Urn) : List Urn :=
  ((config.longestChains graph urn)[choice]?).getD ((config.longestChains graph urn).headD [])

/-- `_compute_ancestor_chain`, where `reply` is `none` if the query fails. -/
def computeAncestorChain (reply : Option Nat) (urn : Urn) : Option (List Urn) :=
  if config.containmentTypes.isEmpty then some []
  else reply.map fun choice => config.chosenChain graph choice urn

/-- `_compute_ancestor_chains_bulk_cypher`.  Its chunks are one query each, and
a query that fails ends it.  What is not a key reads as `[]`. -/
def computeAncestorChainsBulkCypher (replies : Option (Urn → Nat)) (urns : List Urn) :
    Option (Urn → List Urn) :=
  if config.containmentTypes.isEmpty then some fun _ => []
  else replies.map fun choices urn =>
    if urn ∈ urns then (config.chosenChain graph (choices urn) urn).filter (· ≠ "") else []

end ContainmentConfig

abbrev AncestorCache := Urn → Option (List Urn)

/-- What the bulk query and the queries of its fallback return. -/
structure BulkReplies where
  bulk : Option (Urn → Nat)
  fallback : Urn → Option Nat

namespace ContainmentConfig

variable (config : ContainmentConfig) (graph : List ContainmentEdge) (cache : AncestorCache)

/-- `_get_ancestor_chain`: the cache after it, and the chain unless it raises. -/
def getAncestorChain (reply : Option Nat) (urn : Urn) : AncestorCache × Option (List Urn) :=
  match cache urn with
  | some chain => (cache, some chain)
  | none =>
      match config.computeAncestorChain graph reply urn with
      | none => (cache, none)
      | some chain => (Function.update cache urn (some chain), some chain)

/-- The chains of the missing URNs.  A fallback query that fails counts as `[]`. -/
def computedChains (replies : BulkReplies) (missingUrns : List Urn) : Urn → List Urn :=
  match config.computeAncestorChainsBulkCypher graph replies.bulk missingUrns with
  | some computed => computed
  | none => fun urn =>
      if urn ∈ missingUrns then
        (config.computeAncestorChain graph (replies.fallback urn) urn).getD []
      else []

/-- `_compute_and_store_ancestors_bulk`: the cache after it, and its result. -/
def computeAndStoreAncestorsBulk (replies : BulkReplies) (urns : List Urn) :
    AncestorCache × (Urn → List Urn) :=
  let missingUrns := urns.filter fun urn => (cache urn).isNone
  let computed := config.computedChains graph replies missingUrns
  (fun urn => if urn ∈ missingUrns then some (computed urn) else cache urn,
    fun urn => if urn ∈ urns then (cache urn).getD (computed urn) else [])

/-- HDEL of several fields. -/
def hdelAll (cache : AncestorCache) (urns : List Urn) : AncestorCache := fun urn =>
  if urn ∈ urns then none else cache urn

/-- The loop of `on_containment_changed`.  It ends when the queue is empty or
when a query fails. -/
def invalidateDescendants (fails : Urn → Bool) :
    Nat → List Urn → List Urn → AncestorCache → AncestorCache
  | 0, _, _, cache => cache
  | _, [], _, cache => cache
  | fuel + 1, current :: queue, visited, cache =>
      if fails current then cache
      else
        let childUrns := (config.childUrns graph current).filter (fun urn => urn ≠ "" ∧ urn ∉ visited)
        invalidateDescendants fails fuel (queue ++ childUrns) (visited ++ childUrns)
          (hdelAll cache childUrns)

/-- `on_containment_changed`.  Every pass but the first belongs to a relationship. -/
def onContainmentChanged (fails : Urn → Bool) (urn : Urn) : AncestorCache :=
  config.invalidateDescendants graph fails (graph.length + 1) [urn] [urn] (hdelAll cache [urn])

end ContainmentConfig

/-- The parents of a node are replaced. -/
def reparent (graph : List ContainmentEdge) (urn : Urn) (parents : List ContainmentEdge) :
    List ContainmentEdge :=
  graph.filter (·.childUrn ≠ urn) ++ parents.filter (·.childUrn = urn)

variable {config : ContainmentConfig} {graph : List ContainmentEdge} {cache : AncestorCache}
  {urn : Urn} {chain : List Urn}

namespace ContainmentConfig

theorem mem_parentEdges {edge : ContainmentEdge} :
    edge ∈ config.parentEdges graph urn ↔
      edge ∈ graph ∧ edge.childUrn = urn ∧ edge.edgeType ∈ config.relationshipTypes := by
  simp [parentEdges]

theorem mem_childUrns {child : Urn} :
    child ∈ config.childUrns graph urn ↔
      ∃ edge ∈ graph, edge.childUrn = child ∧ edge.edgeType ∈ config.containmentTypes ∧
        edge.parentUrn = urn := by
  simp only [childUrns, List.mem_map, List.mem_filter, decide_eq_true_eq]
  constructor
  · intro ⟨edge, ⟨member, parent, type⟩, child⟩
    exact ⟨edge, member, child, type, parent⟩
  · intro ⟨edge, member, child, type, parent⟩
    exact ⟨edge, ⟨member, parent, type⟩, child⟩

theorem nil_mem_paths (depth : Nat) (used : List ContainmentEdge) :
    [] ∈ config.paths graph depth used urn := by
  cases depth <;> simp [paths]

theorem cons_mem_paths {depth : Nat} {used path : List ContainmentEdge} {edge : ContainmentEdge} :
    edge :: path ∈ config.paths graph depth used urn ↔
      ∃ less, depth = less + 1 ∧ edge ∈ config.parentEdges graph urn ∧ edge ∉ used ∧
        path ∈ config.paths graph less (edge :: used) edge.parentUrn := by
  cases depth with
  | zero => simp [paths]
  | succ depth => simp [paths, and_assoc]

theorem mem_longestChains : chain ∈ config.longestChains graph urn ↔
    ∃ path ∈ config.paths graph config.maxDepth [] urn,
      (∀ other ∈ config.paths graph config.maxDepth [] urn, other.length ≤ path.length) ∧
      path.map ContainmentEdge.parentUrn = chain := by
  simp [longestChains, and_assoc]

theorem longestChains_ne_nil : config.longestChains graph urn ≠ [] := by
  cases longest : (config.paths graph config.maxDepth [] urn).argmax List.length with
  | none =>
      have empty := List.argmax_eq_none.mp longest
      exact absurd (empty ▸ nil_mem_paths config.maxDepth []) List.not_mem_nil
  | some path =>
      apply List.ne_nil_of_mem (mem_longestChains.mpr ⟨path, List.argmax_mem longest, ?_, rfl⟩)
      exact fun other member => List.le_of_mem_argmax member longest

theorem chosenChain_isChain (choice : Nat) :
    config.IsChain graph urn (config.chosenChain graph choice urn) := by
  unfold IsChain chosenChain
  cases found : (config.longestChains graph urn)[choice]? with
  | some chain => exact List.mem_of_getElem? found
  | none =>
      cases chains : config.longestChains graph urn with
      | nil => exact absurd chains longestChains_ne_nil
      | cons first rest => simp

theorem mem_graph_of_mem_path {depth : Nat} {used path : List ContainmentEdge}
    (matched : path ∈ config.paths graph depth used urn) : path ⊆ graph := by
  induction path generalizing depth used urn with
  | nil => exact List.nil_subset graph
  | cons edge rest ih =>
      obtain ⟨less, -, parent, -, later⟩ := cons_mem_paths.mp matched
      exact List.cons_subset.mpr ⟨(mem_parentEdges.mp parent).1, ih later⟩

theorem IsChain.exists_edge (isChain : config.IsChain graph urn chain) {ancestor : Urn}
    (member : ancestor ∈ chain) : ∃ edge ∈ graph, edge.parentUrn = ancestor := by
  obtain ⟨path, matched, -, rfl⟩ := mem_longestChains.mp isChain
  obtain ⟨edge, inPath, parent⟩ := List.mem_map.mp member
  exact ⟨edge, mem_graph_of_mem_path matched inPath, parent⟩

theorem IsChain.filter_named (isChain : config.IsChain graph urn chain) :
    chain.filter (· ≠ "") = chain := by
  apply List.filter_eq_self.mpr
  intro ancestor member
  obtain ⟨edge, -, rfl⟩ := isChain.exists_edge member
  exact decide_eq_true edge.parent_named

theorem isChain_nil_of_flat (flat : config.containmentTypes.isEmpty) :
    config.IsChain graph urn [] := by
  have only : ∀ path ∈ config.paths graph config.maxDepth [] urn, path = [] := by
    intro path matched
    cases path with
    | nil => rfl
    | cons edge rest =>
        obtain ⟨-, -, parent, -⟩ := cons_mem_paths.mp matched
        have listed := (mem_parentEdges.mp parent).2.2
        rw [relationshipTypes, List.isEmpty_iff.mp flat] at listed
        cases listed
  apply mem_longestChains.mpr ⟨[], nil_mem_paths _ _, ?_, rfl⟩
  intro other matched
  rw [only other matched]

theorem computeAncestorChain_isChain {reply : Option Nat}
    (computed : config.computeAncestorChain graph reply urn = some chain) :
    config.IsChain graph urn chain := by
  simp only [computeAncestorChain] at computed
  split at computed
  · rename_i flat
    cases computed
    exact isChain_nil_of_flat flat
  · obtain ⟨choice, -, rfl⟩ := Option.map_eq_some_iff.mp computed
    exact chosenChain_isChain choice

/-- A relationship leads from the parent to the child that the patterns can follow. -/
def Contains (config : ContainmentConfig) (graph : List ContainmentEdge) (parent child : Urn) :
    Prop :=
  ∃ edge ∈ config.parentEdges graph child, edge.parentUrn = parent

/-- `node` is the moved node or lies below it. -/
def Below (config : ContainmentConfig) (graph : List ContainmentEdge) : Urn → Urn → Prop :=
  Relation.ReflTransGen (config.Contains graph)

theorem parentEdges_reparent {moved : Urn} {parents : List ContainmentEdge}
    (other : urn ≠ moved) :
    config.parentEdges (reparent graph moved parents) urn = config.parentEdges graph urn := by
  simp only [parentEdges, reparent, List.filter_append, List.filter_filter]
  have none : parents.filter (fun edge => decide (edge.childUrn = urn ∧
      edge.edgeType ∈ config.relationshipTypes) && decide (edge.childUrn = moved)) = [] := by
    apply List.filter_eq_nil_iff.mpr
    intro edge _ both
    simp only [Bool.and_eq_true, decide_eq_true_eq] at both
    exact other (both.1.1.symm.trans both.2)
  rw [none, List.append_nil]
  apply List.filter_congr
  intro edge _
  by_cases child : edge.childUrn = urn
  · simp [child, other]
  · simp [child]

/-- A move changes only the paths of the nodes below the moved one. -/
theorem paths_reparent {moved : Urn} {parents : List ContainmentEdge} (depth : Nat)
    (used : List ContainmentEdge)
    (apart : ¬ config.Below (reparent graph moved parents) moved urn) :
    config.paths (reparent graph moved parents) depth used urn =
      config.paths graph depth used urn := by
  have other : urn ≠ moved := fun same => apart (same ▸ .refl)
  induction depth generalizing used urn with
  | zero => rfl
  | succ depth ih =>
      simp only [paths, parentEdges_reparent other]
      congr 1
      apply List.flatMap_congr
      intro edge member
      have parent := List.mem_of_mem_filter member
      have above : ¬ config.Below (reparent graph moved parents) moved edge.parentUrn := by
        intro below
        rw [← parentEdges_reparent other] at parent
        exact apart (below.tail ⟨edge, parent, rfl⟩)
      rw [ih (edge :: used) above fun same => above (same ▸ .refl)]

theorem isChain_reparent {moved : Urn} {parents : List ContainmentEdge}
    (apart : ¬ config.Below (reparent graph moved parents) moved urn) :
    config.IsChain (reparent graph moved parents) urn chain ↔ config.IsChain graph urn chain := by
  unfold IsChain longestChains
  rw [paths_reparent config.maxDepth [] apart]

/-- Containment without cycles. -/
def Acyclic (config : ContainmentConfig) (graph : List ContainmentEdge) : Prop :=
  ∀ urn, ¬ Relation.TransGen (config.Contains graph) urn urn

theorem transGen_of_mem_path {depth : Nat} {used path : List ContainmentEdge}
    (matched : path ∈ config.paths graph depth used urn) {ancestor : Urn}
    (member : ancestor ∈ path.map ContainmentEdge.parentUrn) :
    Relation.TransGen (config.Contains graph) ancestor urn := by
  induction path generalizing depth used urn with
  | nil => cases member
  | cons edge rest ih =>
      obtain ⟨less, -, parent, -, later⟩ := cons_mem_paths.mp matched
      have isChild : config.Contains graph edge.parentUrn urn := ⟨edge, parent, rfl⟩
      rw [List.map_cons] at member
      rcases List.mem_cons.mp member with same | above
      · exact same ▸ .single isChild
      · exact (ih later above).tail isChild

theorem IsChain.nodup (isChain : config.IsChain graph urn chain)
    (acyclic : config.Acyclic graph) : (urn :: chain).Nodup := by
  obtain ⟨path, matched, -, rfl⟩ := mem_longestChains.mp isChain
  clear isChain
  generalize config.maxDepth = depth, ([] : List ContainmentEdge) = used at matched
  induction path generalizing depth used urn with
  | nil => exact List.nodup_singleton urn
  | cons edge rest ih =>
      obtain ⟨less, -, -, -, later⟩ := cons_mem_paths.mp matched
      apply List.nodup_cons.mpr
      constructor
      · intro member
        exact acyclic urn (transGen_of_mem_path matched member)
      · exact ih _ _ later

/-- The queries of `on_containment_changed` lead from the moved node to `node`. -/
def Visits (config : ContainmentConfig) (graph : List ContainmentEdge) : Urn → Urn → Prop :=
  Relation.ReflTransGen fun parent child => child ∈ config.childUrns graph parent

theorem hdelAll_of_mem {urns : List Urn} (member : urn ∈ urns) : hdelAll cache urns urn = none :=
  if_pos member

theorem eq_some_of_hdelAll {urns : List Urn} (kept : hdelAll cache urns urn = some chain) :
    cache urn = some chain := by
  simp only [hdelAll] at kept
  split at kept
  · cases kept
  · exact kept

theorem eq_some_of_invalidateDescendants {fails : Urn → Bool} {fuel : Nat}
    {queue visited : List Urn}
    (kept : config.invalidateDescendants graph fails fuel queue visited cache urn = some chain) :
    cache urn = some chain := by
  induction fuel generalizing queue visited cache with
  | zero =>
      simp only [invalidateDescendants] at kept
      exact kept
  | succ fuel ih =>
      cases queue with
      | nil =>
          simp only [invalidateDescendants] at kept
          exact kept
      | cons current queue =>
          simp only [invalidateDescendants] at kept
          split at kept
          · exact kept
          · exact eq_some_of_hdelAll (ih kept)

/-- The relationships whose child has not been visited. -/
def unvisited (graph : List ContainmentEdge) (visited : List Urn) : Nat :=
  graph.countP (·.childUrn ∉ visited)

theorem length_add_unvisited_le {visited childUrns : List Urn} {current : Urn}
    (queued : childUrns =
      (config.childUrns graph current).filter (fun urn => urn ≠ "" ∧ urn ∉ visited)) :
    childUrns.length + unvisited graph (visited ++ childUrns) ≤ unvisited graph visited := by
  have split := List.countP_eq_countP_filter_add graph
    (fun edge => decide (edge.childUrn ∉ visited)) (fun edge => decide (edge.childUrn ∈ childUrns))
  have fresh : childUrns.length ≤ (graph.filter (·.childUrn ∈ childUrns)).countP
      (·.childUrn ∉ visited) := by
    have counted : childUrns.length = graph.countP fun edge =>
        decide (edge.childUrn ≠ "" ∧ edge.childUrn ∉ visited) &&
          decide (edge.parentUrn = current ∧ edge.edgeType ∈ config.containmentTypes) := by
      rw [queued, ContainmentConfig.childUrns, List.filter_map, List.length_map, List.filter_filter,
        List.countP_eq_length_filter]
      rfl
    rw [List.countP_filter, counted]
    apply List.countP_mono_left
    intro edge member found
    simp only [Bool.and_eq_true, decide_eq_true_eq] at found ⊢
    refine ⟨found.1.2, ?_⟩
    rw [queued]
    apply List.mem_filter.mpr ⟨List.mem_map_of_mem (List.mem_filter.mpr ⟨member, ?_⟩), ?_⟩
    · exact decide_eq_true found.2
    · exact decide_eq_true found.1
  have rest : unvisited graph (visited ++ childUrns) ≤
      (graph.filter fun edge => !decide (edge.childUrn ∈ childUrns)).countP
        (·.childUrn ∉ visited) := by
    rw [List.countP_filter]
    apply List.countP_mono_left
    intro edge _ absent
    simpa using absent
  unfold unvisited at rest ⊢
  omega

/-- Every child of a visited node has been visited, unless the node is queued. -/
def Border (config : ContainmentConfig) (graph : List ContainmentEdge) (queue visited : List Urn) :
    Prop :=
  ∀ node ∈ visited, ∀ child ∈ config.childUrns graph node, node ∈ queue ∨ child ∈ visited

theorem Border.mem_of_visits {visited : List Urn} {origin : Urn}
    (border : config.Border graph [] visited) (start : origin ∈ visited)
    (reached : config.Visits graph origin urn) : urn ∈ visited := by
  induction reached with
  | refl => exact start
  | tail _ child ih => exact (border _ ih _ child).resolve_left List.not_mem_nil

theorem named_of_mem_childUrns {child : Urn} (member : child ∈ config.childUrns graph urn) :
    child ≠ "" := by
  obtain ⟨edge, -, rfl, -⟩ := mem_childUrns.mp member
  exact edge.child_named

theorem Border.next {current : Urn} {queue visited childUrns : List Urn}
    (border : config.Border graph (current :: queue) visited)
    (found : (config.childUrns graph current).filter (fun urn => urn ≠ "" ∧ urn ∉ visited) =
      childUrns) :
    config.Border graph (queue ++ childUrns) (visited ++ childUrns) := by
  intro node member child isChild
  rcases List.mem_append.mp member with old | new
  · rcases border node old child isChild with waiting | known
    · rcases List.mem_cons.mp waiting with same | later
      · right
        apply List.mem_append.mpr
        by_cases known : child ∈ visited
        · exact .inl known
        · have unseen : child ≠ "" ∧ child ∉ visited := ⟨named_of_mem_childUrns isChild, known⟩
          exact .inr (found ▸ List.mem_filter.mpr ⟨same ▸ isChild, decide_eq_true unseen⟩)
      · exact .inl (List.mem_append_left _ later)
    · exact .inr (List.mem_append_left _ known)
  · exact .inl (List.mem_append_right _ new)

/-- If no query fails, nothing that the queries lead to keeps its chain. -/
theorem invalidateDescendants_visited {fails : Urn → Bool} {origin : Urn} {fuel : Nat}
    {queue visited : List Urn}
    (answered : ∀ node, config.Visits graph origin node → fails node = false)
    (enough : queue.length + unvisited graph visited ≤ fuel) (start : origin ∈ visited)
    (led : ∀ node ∈ visited, config.Visits graph origin node) (queued : queue ⊆ visited)
    (border : config.Border graph queue visited) (deleted : ∀ node ∈ visited, cache node = none)
    (reached : config.Visits graph origin urn) :
    config.invalidateDescendants graph fails fuel queue visited cache urn = none := by
  induction fuel generalizing queue visited cache with
  | zero =>
      obtain rfl : queue = [] := List.length_eq_zero_iff.mp (by omega)
      exact deleted urn (border.mem_of_visits start reached)
  | succ fuel ih =>
      cases queue with
      | nil => exact deleted urn (border.mem_of_visits start reached)
      | cons current queue =>
          have ⟨currentVisited, laterVisited⟩ := List.cons_subset.mp queued
          have currentLed := led current currentVisited
          simp only [invalidateDescendants, answered current currentLed, Bool.false_eq_true,
            if_false]
          generalize found : (config.childUrns graph current).filter
            (fun urn => urn ≠ "" ∧ urn ∉ visited) = childUrns
          have shrinks := length_add_unvisited_le found.symm
          apply ih _ (List.mem_append_left _ start) _ _ (border.next found) _
          · rw [List.length_cons] at enough
            rw [List.length_append]
            omega
          · intro node member
            rcases List.mem_append.mp member with old | new
            · exact led node old
            · exact currentLed.tail (List.mem_of_mem_filter (found ▸ new))
          · exact List.append_subset.mpr ⟨List.subset_append_of_subset_left _ laterVisited,
              List.subset_append_right _ _⟩
          · intro node member
            simp only [hdelAll]
            split
            · rfl
            · rename_i notNew
              exact deleted node ((List.mem_append.mp member).resolve_right notNew)

theorem onContainmentChanged_visited {fails : Urn → Bool} {moved : Urn}
    (answered : ∀ node, config.Visits graph moved node → fails node = false)
    (reached : config.Visits graph moved urn) :
    config.onContainmentChanged graph cache fails moved urn = none := by
  apply invalidateDescendants_visited answered _ (List.mem_singleton_self moved) _
    (List.Subset.refl _) _ _ reached
  · have bounded : unvisited graph [moved] ≤ graph.length := List.countP_le_length
    simp only [List.length_singleton]
    omega
  · intro node same
    rw [List.mem_singleton.mp same]
    exact .refl
  · intro node same child _
    exact .inl same
  · intro node same
    exact hdelAll_of_mem same

theorem eq_some_of_onContainmentChanged {fails : Urn → Bool} {moved : Urn}
    (kept : config.onContainmentChanged graph cache fails moved urn = some chain) :
    urn ≠ moved ∧ cache urn = some chain := by
  have old := eq_some_of_invalidateDescendants kept
  constructor
  · intro same
    rw [same, hdelAll_of_mem (List.mem_singleton_self moved)] at old
    cases old
  · exact eq_some_of_hdelAll old

theorem invalidateDescendants_apart {fails : Urn → Bool} {origin : Urn} {fuel : Nat}
    {queue visited : List Urn} (led : ∀ node ∈ queue, config.Visits graph origin node)
    (apart : ¬ config.Visits graph origin urn) :
    config.invalidateDescendants graph fails fuel queue visited cache urn = cache urn := by
  induction fuel generalizing queue visited cache with
  | zero => rfl
  | succ fuel ih =>
      cases queue with
      | nil => rfl
      | cons current queue =>
          obtain ⟨currentLed, queueLed⟩ := List.forall_mem_cons.mp led
          have children : ∀ child ∈ (config.childUrns graph current).filter
              (fun urn => urn ≠ "" ∧ urn ∉ visited), config.Visits graph origin child :=
            fun child found => currentLed.tail (List.mem_of_mem_filter found)
          simp only [invalidateDescendants]
          split
          · rfl
          · rw [ih (List.forall_mem_append.mpr ⟨queueLed, children⟩)]
            exact if_neg fun found => apart (children urn found)

/-- The chain of a node that the queries do not lead to stays. -/
theorem onContainmentChanged_apart {fails : Urn → Bool} {moved : Urn}
    (apart : ¬ config.Visits graph moved urn) :
    config.onContainmentChanged graph cache fails moved urn = cache urn := by
  have start : ∀ node ∈ [moved], config.Visits graph moved node := by
    intro node same
    rw [List.mem_singleton.mp same]
    exact .refl
  refine (invalidateDescendants_apart start apart).trans (if_neg ?_)
  intro same
  exact apart (start urn same)

/-- Every cached chain is a chain of its node in the graph. -/
def Current (config : ContainmentConfig) (graph : List ContainmentEdge) (cache : AncestorCache) :
    Prop :=
  ∀ urn chain, cache urn = some chain → config.IsChain graph urn chain

theorem Current.update (current : config.Current graph cache)
    (isChain : config.IsChain graph urn chain) :
    config.Current graph (Function.update cache urn (some chain)) := by
  intro node cached found
  by_cases same : node = urn
  · subst same
    rw [Function.update_self] at found
    cases found
    exact isChain
  · rw [Function.update_of_ne same] at found
    exact current node cached found

theorem getAncestorChain_current {reply : Option Nat} (current : config.Current graph cache) :
    config.Current graph (config.getAncestorChain graph cache reply urn).1 := by
  simp only [getAncestorChain]
  split
  · exact current
  · split
    · exact current
    · rename_i computed
      exact current.update (computeAncestorChain_isChain computed)

theorem getAncestorChain_isChain {reply : Option Nat} (current : config.Current graph cache)
    (returned : (config.getAncestorChain graph cache reply urn).2 = some chain) :
    config.IsChain graph urn chain := by
  simp only [getAncestorChain] at returned
  split at returned
  · rename_i cached
    exact current urn chain (cached.trans returned)
  · split at returned
    · cases returned
    · rename_i computed
      exact computeAncestorChain_isChain (computed.trans returned)

/-- A fallback query fails only for nodes that have no ancestors. -/
def FallbackHarmless (config : ContainmentConfig) (graph : List ContainmentEdge)
    (cache : AncestorCache) (replies : BulkReplies) (urns : List Urn) : Prop :=
  replies.bulk = none → ∀ urn ∈ urns, cache urn = none → replies.fallback urn = none →
    config.IsChain graph urn []

theorem computedChains_isChain_iff {replies : BulkReplies} {missingUrns : List Urn}
    (missing : urn ∈ missingUrns) :
    config.IsChain graph urn (config.computedChains graph replies missingUrns urn) ↔
      (replies.bulk = none → replies.fallback urn = none → config.IsChain graph urn []) := by
  by_cases flat : config.containmentTypes.isEmpty
  · have empty : config.computedChains graph replies missingUrns urn = [] := by
      simp [computedChains, computeAncestorChainsBulkCypher, flat]
    simp [empty, isChain_nil_of_flat flat]
  · cases bulk : replies.bulk with
    | some choices =>
        have chosen : config.computedChains graph replies missingUrns urn =
            config.chosenChain graph (choices urn) urn := by
          have isChain : config.IsChain graph urn (config.chosenChain graph (choices urn) urn) :=
            chosenChain_isChain (choices urn)
          simpa [computedChains, computeAncestorChainsBulkCypher, flat, bulk, missing]
            using isChain.filter_named
        simp [chosen, chosenChain_isChain]
    | none =>
        have alone : config.computedChains graph replies missingUrns urn =
            (config.computeAncestorChain graph (replies.fallback urn) urn).getD [] := by
          simp [computedChains, computeAncestorChainsBulkCypher, flat, bulk, missing]
        rw [alone]
        cases reply : replies.fallback urn with
        | some choice => simp [computeAncestorChain, flat, chosenChain_isChain]
        | none => simp [computeAncestorChain, flat]

/-- The bulk call keeps the chains current exactly when its failures are harmless. -/
theorem computeAndStoreAncestorsBulk_current_iff {replies : BulkReplies} {urns : List Urn}
    (current : config.Current graph cache) :
    config.Current graph (config.computeAndStoreAncestorsBulk graph cache replies urns).1 ↔
      config.FallbackHarmless graph cache replies urns := by
  simp only [computeAndStoreAncestorsBulk]
  generalize isMissing : urns.filter (fun urn => (cache urn).isNone) = missingUrns
  have mem_missing : ∀ urn, urn ∈ missingUrns ↔ urn ∈ urns ∧ cache urn = none := by
    intro urn
    rw [← isMissing, List.mem_filter, Option.isNone_iff_eq_none]
  constructor
  · intro after failed urn asked uncached noAnswer
    have missing := (mem_missing urn).mpr ⟨asked, uncached⟩
    have isChain := after urn _ (if_pos missing)
    exact (computedChains_isChain_iff missing).mp isChain failed noAnswer
  · intro harmless urn chain found
    dsimp only at found
    split at found
    · rename_i missing
      cases found
      have ⟨asked, uncached⟩ := (mem_missing urn).mp missing
      apply (computedChains_isChain_iff missing).mpr
      exact fun failed noAnswer => harmless failed urn asked uncached noAnswer
    · exact current urn chain found

/-- A node below the moved one is reached by the queries, none of which fails, or the move has
left the chain that is cached for it as it was. -/
def MoveHarmless (config : ContainmentConfig) (graph : List ContainmentEdge)
    (cache : AncestorCache) (moved : Urn) (fails : Urn → Bool) : Prop :=
  ∀ node chain, node ≠ moved → config.Below graph moved node → cache node = some chain →
    (config.Visits graph moved node ∧
      ∀ other, config.Visits graph moved other → fails other = false) ∨
    config.IsChain graph node chain

/-- The configured types are spelled as relationships have them. -/
def Spelled (config : ContainmentConfig) : Prop :=
  ∀ type ∈ config.containmentTypes, sanitizeLabel config.isAlnum type = type

instance (config : ContainmentConfig) : Decidable config.Spelled :=
  inferInstanceAs (Decidable (∀ type ∈ config.containmentTypes, _))

theorem Spelled.visits_iff (spelled : config.Spelled) {origin : Urn} :
    config.Visits graph origin urn ↔ config.Below graph origin urn := by
  have same : config.relationshipTypes = config.containmentTypes := by
    rw [relationshipTypes, List.map_congr_left spelled, List.map_id']
  have steps : (fun parent child => child ∈ config.childUrns graph parent) =
      config.Contains graph := by
    funext parent child
    apply propext
    simp only [mem_childUrns, Contains, mem_parentEdges, same, and_assoc]
  rw [Visits, Below, steps]

theorem Spelled.moveHarmless (spelled : config.Spelled) (moved : Urn) :
    config.MoveHarmless graph cache moved fun _ => false :=
  fun _ _ _ below _ => .inl ⟨spelled.visits_iff.mpr below, fun _ _ => rfl⟩

theorem onContainmentChanged_current {moved : Urn} {parents : List ContainmentEdge}
    {fails : Urn → Bool} (current : config.Current graph cache)
    (harmless : config.MoveHarmless (reparent graph moved parents) cache moved fails) :
    config.Current (reparent graph moved parents)
      (config.onContainmentChanged (reparent graph moved parents) cache fails moved) := by
  intro urn chain kept
  have ⟨other, old⟩ := eq_some_of_onContainmentChanged kept
  by_cases below : config.Below (reparent graph moved parents) moved urn
  · rcases harmless urn chain other below old with ⟨visited, answered⟩ | same
    · rw [onContainmentChanged_visited answered visited] at kept
      cases kept
    · exact same
  · exact (isChain_reparent below).mpr (current urn chain old)

end ContainmentConfig

structure ContainmentState where
  graph : List ContainmentEdge
  cache : AncestorCache

/-- The calls and what their queries return.  A move replaces the parents of a
node and calls `on_containment_changed`. -/
inductive CacheEvent where
  | ancestorChain (urn : Urn) (reply : Option Nat)
  | ancestorsBulk (urns : List Urn) (replies : BulkReplies)
  | moved (urn : Urn) (parents : List ContainmentEdge) (fails : Urn → Bool)

namespace ContainmentConfig

variable (config)

def step (state : ContainmentState) : CacheEvent → Option ContainmentState
  | .ancestorChain urn reply =>
      some { state with cache := (config.getAncestorChain state.graph state.cache reply urn).1 }
  | .ancestorsBulk urns replies =>
      some { state with
        cache := (config.computeAndStoreAncestorsBulk state.graph state.cache replies urns).1 }
  | .moved urn parents fails =>
      let graph := reparent state.graph urn parents
      some { graph, cache := config.onContainmentChanged graph state.cache fails urn }

/-- Failures that leave every cached chain current. -/
def Harmless (state : ContainmentState) : CacheEvent → Prop
  | .ancestorChain _ _ => True
  | .ancestorsBulk urns replies => config.FallbackHarmless state.graph state.cache replies urns
  | .moved urn parents fails =>
      config.MoveHarmless (reparent state.graph urn parents) state.cache urn fails

variable {config}

theorem step_current {state next : ContainmentState} {event : CacheEvent}
    (current : config.Current state.graph state.cache) (harmless : config.Harmless state event)
    (stepped : config.step state event = some next) :
    config.Current next.graph next.cache := by
  cases event with
  | ancestorChain urn reply =>
      cases stepped
      exact getAncestorChain_current current
  | ancestorsBulk urns replies =>
      cases stepped
      exact (computeAndStoreAncestorsBulk_current_iff current).mpr harmless
  | moved urn parents fails =>
      cases stepped
      exact onContainmentChanged_current current harmless

/-- Between two operations every cached chain is current, as long as the queries
that fail are harmless. -/
theorem run_current {graph : List ContainmentEdge} {events : List CacheEvent}
    {last : ContainmentState}
    (harmless : Meets config.step config.Harmless ⟨graph, fun _ => none⟩ events)
    (ran : run config.step ⟨graph, fun _ => none⟩ events = some last) :
    config.Current last.graph last.cache := by
  apply run_invariant (fun state => config.Current state.graph state.cache) _ _ harmless ran
  · exact fun _ _ _ current allowed stepped => step_current current allowed stepped
  · exact fun urn chain cached => nomatch cached

/-- Chains over relationships of type `CONTAINS`. -/
def containsConfig : ContainmentConfig := ⟨["CONTAINS"], 0, Char.isAlphanum⟩

/-- `p` contains `a`. -/
def nestedGraph : List ContainmentEdge := [⟨1, "CONTAINS", "p", "a", by decide, by decide⟩]

/-- `top` contains `p`. -/
def topEdge : ContainmentEdge := ⟨2, "CONTAINS", "top", "p", by decide, by decide⟩

/-- The bulk query fails, the fallback answers, and then `p` is moved under `top`. -/
def bulkFailedThenMoved : List CacheEvent :=
  [.ancestorsBulk ["a"] ⟨none, fun _ => some 0⟩, .moved "p" [topEdge] fun _ => false]

theorem run_current_bulkFailed :
    ∃ last, run containsConfig.step ⟨nestedGraph, fun _ => none⟩ bulkFailedThenMoved = some last ∧
      containsConfig.Current last.graph last.cache := by
  have harmless : Meets containsConfig.step containsConfig.Harmless
      ⟨nestedGraph, fun _ => none⟩ bulkFailedThenMoved := by
    constructor
    · exact fun _ _ _ _ noAnswer => nomatch noAnswer
    · have spelled : containsConfig.Spelled := by decide
      exact fun next _ => ⟨spelled.moveHarmless "p", fun _ _ => True.intro⟩
  exact ⟨_, rfl, run_current harmless rfl⟩

/-- The type is stored as `PART_OF`. -/
def partOfConfig : ContainmentConfig := ⟨["PART-OF"], 0, Char.isAlphanum⟩

def partOf (id : Nat) (parentUrn childUrn : Urn) (parent_named : parentUrn ≠ "")
    (child_named : childUrn ≠ "") : ContainmentEdge :=
  ⟨id, sanitizeLabel Char.isAlphanum "PART-OF", parentUrn, childUrn, parent_named, child_named⟩

/-- Where the bulk query and the fallback fail, `[]` is stored for `a`.  Where the first query of
`on_containment_changed` fails, or the type has another spelling, `a` keeps its old chain. -/
theorem failedQueries_not_current :
    (¬ ∃ events ∈ [[CacheEvent.ancestorsBulk ["a"] ⟨none, fun _ => none⟩],
        [CacheEvent.ancestorChain "a" (some 0), CacheEvent.moved "p" [topEdge] fun _ => true]],
      ∀ last, run containsConfig.step ⟨nestedGraph, fun _ => none⟩ events = some last →
        containsConfig.Current last.graph last.cache) ∧
    ¬ ∀ last, run partOfConfig.step
        ⟨[partOf 1 "p" "a" (by decide) (by decide)], fun _ => none⟩
        [.ancestorChain "a" (some 0),
          .moved "p" [partOf 2 "top" "p" (by decide) (by decide)] fun _ => false] = some last →
      partOfConfig.Current last.graph last.cache := by
  constructor
  · intro ⟨events, member, always⟩
    rcases List.mem_pair.mp member with rfl | rfl
    · exact absurd (always _ rfl "a" [] rfl) (by decide)
    · exact absurd (always _ rfl "a" ["p"] (by decide)) (by decide)
  · intro always
    exact absurd (always _ rfl "a" ["p"] (by decide)) (by decide)

end ContainmentConfig

end Univiz.Falkor

import Univiz.Data.Ledger
import Univiz.Falkor.AncestorCache
import Univiz.Falkor.Interruptions

namespace Univiz.Falkor

open Univiz.Data

/-! The hooks of a mutable graph: `on_lineage_edge_written`,
`on_lineage_edge_deleted` and `on_containment_changed`.

A write adds its edge to the pairs of the chains that it finds, a deletion takes
it out of the pairs of the chains that it finds.  A move between the two changes
the chains.
-/

/-- The SREM pipeline. -/
def sremAll (graphName : String) (members : MemberSets) (pairs : List Pair) (edgeId : String) :
    MemberSets :=
  (pairs.map (membersKey graphName)).foldl
    (fun members key => Function.update members key ((members key).erase edgeId)) members

/-- `SET r.weight` on the edge of a pair, if there is one. -/
def setWeight (weight : Nat) (edge : Option AggregatedEdge) : Option AggregatedEdge :=
  edge.map fun edge => { edge with weight := weight }

/-- The pairs of an edge under some chains. -/
def pairsOf (ancestors : Urn → List Urn) (sourceUrn targetUrn : Urn) : List Pair :=
  pairsBetween (sourceUrn :: ancestors sourceUrn) (targetUrn :: ancestors targetUrn)

/-- `on_lineage_edge_deleted`: SREM and SCARD for every pair, then DELETE or SET. -/
def onLineageEdgeDeleted (graphName : String) (ancestors : Urn → List Urn) (store : Store)
    (sourceUrn targetUrn : Urn) (edgeId : String) : Store :=
  let pairs := pairsOf ancestors sourceUrn targetUrn
  let members := sremAll graphName store.members pairs edgeId
  let remaining := fun pair => (members (membersKey graphName pair)).card
  let deleteBatch := pairs.filter fun pair => remaining pair = 0
  let updateBatch := pairs.filter fun pair => remaining pair ≠ 0
  let kept := deleteBatch.foldl (fun edges pair => Function.update edges pair none) store.edges
  { edges := updateBatch.foldl
      (fun edges pair => Function.update edges pair (setWeight (remaining pair) (edges pair))) kept
    members := (deleteBatch.map (membersKey graphName)).foldl
      (fun members key => Function.update members key ∅) members }

section Deletion

variable {graphName : String} {nodes : Urn → Prop} {ancestors : Urn → List Urn} {store : Store}
  {sourceUrn targetUrn : Urn} {edgeId : String} {pair : Pair} {pairs : List Pair}

theorem sremAll_apply (members : MemberSets) (key : String) :
    sremAll graphName members pairs edgeId key =
      if key ∈ pairs.map (membersKey graphName) then (members key).erase edgeId
      else members key :=
  foldl_update (fun _ => (Finset.erase · edgeId)) (fun _ _ => Finset.erase_idem) _ members key

theorem sremAll_of_between {members : MemberSets} (unambiguous : Unambiguous graphName nodes)
    (inside : ∀ pair ∈ pairs, Between nodes pair) (between : Between nodes pair) :
    sremAll graphName members pairs edgeId (membersKey graphName pair) =
      if pair ∈ pairs then (members (membersKey graphName pair)).erase edgeId
      else members (membersKey graphName pair) := by
  have same : membersKey graphName pair ∈ pairs.map (membersKey graphName) ↔ pair ∈ pairs := by
    constructor
    · intro member
      obtain ⟨other, inPairs, sameKey⟩ := List.mem_map.mp member
      exact unambiguous.eq (inside other inPairs) between sameKey ▸ inPairs
    · exact List.mem_map_of_mem
  simp only [sremAll_apply, same]

theorem onLineageEdgeDeleted_members :
    (onLineageEdgeDeleted graphName ancestors store sourceUrn targetUrn edgeId).members =
      sremAll graphName store.members (pairsOf ancestors sourceUrn targetUrn) edgeId := by
  funext key
  simp only [onLineageEdgeDeleted]
  rw [foldl_update (fun _ _ => ∅) (fun _ _ => rfl)]
  split
  · rename_i cleaned
    obtain ⟨pair, inBatch, rfl⟩ := List.mem_map.mp cleaned
    have empty := of_decide_eq_true (List.mem_filter.mp inBatch).2
    exact (Finset.card_eq_zero.mp empty).symm
  · rfl

theorem onLineageEdgeDeleted_edges :
    (onLineageEdgeDeleted graphName ancestors store sourceUrn targetUrn edgeId).edges pair =
      let pairs := pairsOf ancestors sourceUrn targetUrn
      let remaining := (sremAll graphName store.members pairs edgeId
        (membersKey graphName pair)).card
      if pair ∈ pairs then
        if remaining = 0 then none else setWeight remaining (store.edges pair)
      else store.edges pair := by
  have again : ∀ (weight : Pair → Nat) (pair : Pair) (edge : Option AggregatedEdge),
      setWeight (weight pair) (setWeight (weight pair) edge) = setWeight (weight pair) edge := by
    intro weight pair edge
    cases edge <;> rfl
  simp only [onLineageEdgeDeleted]
  rw [foldl_update (fun pair => setWeight _) (again _),
    foldl_update (fun _ _ => none) (fun _ _ => rfl)]
  generalize pairsOf ancestors sourceUrn targetUrn = pairs
  by_cases inPairs : pair ∈ pairs
  · by_cases empty : (sremAll graphName store.members pairs edgeId
        (membersKey graphName pair)).card = 0
    · simp [-Finset.card_eq_zero, inPairs, empty]
    · simp [-Finset.card_eq_zero, inPairs, empty]
  · simp [inPairs]

/-- A deletion takes the edge out of the tally of its pairs. -/
theorem onLineageEdgeDeleted_represents {contributors : Pair → Finset String}
    (unambiguous : Unambiguous graphName nodes)
    (inside : ∀ pair ∈ pairsOf ancestors sourceUrn targetUrn, Between nodes pair)
    (represents : (store.tally graphName).Represents (Between nodes) contributors) :
    ((onLineageEdgeDeleted graphName ancestors store sourceUrn targetUrn edgeId).tally
      graphName).Represents (Between nodes)
        (Entry.mk false edgeId (pairsOf ancestors sourceUrn targetUrn) |>.apply contributors) := by
  have removed : ∀ pair, Between nodes pair →
      sremAll graphName store.members (pairsOf ancestors sourceUrn targetUrn) edgeId
          (membersKey graphName pair) =
        (Entry.mk false edgeId (pairsOf ancestors sourceUrn targetUrn)).apply contributors pair := by
    intro pair between
    have before : store.members (membersKey graphName pair) = contributors pair :=
      (represents pair between).1
    simp only [sremAll_of_between unambiguous inside between, before, Entry.apply,
      Bool.false_eq_true, if_false]
  apply represents.next
  · intro pair between
    simp only [Store.tally, onLineageEdgeDeleted_members, removed pair between]
  · intro pair between
    have published : (store.edges pair).map AggregatedEdge.weight =
        Tally.countOf (contributors pair) := (represents pair between).2
    simp only [Store.tally, onLineageEdgeDeleted_edges, removed pair between]
    by_cases inPairs : pair ∈ pairsOf ancestors sourceUrn targetUrn
    · left
      simp only [Entry.apply, inPairs, if_true, Bool.false_eq_true, if_false]
      by_cases empty : ((contributors pair).erase edgeId).card = 0
      · simp [Tally.countOf, empty]
      · have nonempty : (contributors pair).card ≠ 0 := by
          have fewer := Finset.card_erase_le (s := contributors pair) (a := edgeId)
          omega
        rw [Tally.countOf, if_neg nonempty] at published
        obtain ⟨edge, found, -⟩ := Option.map_eq_some_iff.mp published
        simp [Tally.countOf, empty, found, setWeight]
    · right
      simp [Entry.apply, inPairs]

theorem pairsOf_between (closed : ∀ urn, nodes urn → ∀ ancestor ∈ ancestors urn, nodes ancestor)
    (source_node : nodes sourceUrn) (target_node : nodes targetUrn) :
    ∀ pair ∈ pairsOf ancestors sourceUrn targetUrn, Between nodes pair :=
  fun _ => pairsBetween_between ⟨ancestors, closed⟩ source_node target_node

theorem idsAt_edgeContributions {edgeType : String} :
    idsAt pair (edgeContributions ancestors sourceUrn targetUrn edgeId edgeType) =
      if pair ∈ pairsOf ancestors sourceUrn targetUrn then {edgeId} else ∅ := by
  ext id
  simp only [mem_idsAt, edgeContributions, List.mem_map, exists_exists_and_eq_and]
  split
  · rename_i inPairs
    rw [Finset.mem_singleton]
    constructor
    · rintro ⟨_, _, _, same⟩
      exact same.symm
    · intro same
      exact ⟨pair, inPairs, rfl, same.symm⟩
  · rename_i outside
    constructor
    · rintro ⟨_, inPairs, rfl, _⟩
      exact absurd inPairs outside
    · intro none
      exact absurd none (Finset.notMem_empty id)

/-- A write adds the edge to the tally of its pairs. -/
theorem onLineageEdgeWritten_represents {levels : Urn → Option Int} {digest : Option String}
    {edgeType : String} {contributors : Pair → Finset String}
    (unambiguous : Unambiguous graphName nodes)
    (inside : ∀ pair ∈ pairsOf ancestors sourceUrn targetUrn, Between nodes pair)
    (represents : (store.tally graphName).Represents (Between nodes) contributors) :
    ((onLineageEdgeWritten graphName levels digest ancestors store sourceUrn targetUrn edgeId
      edgeType).1.tally graphName).Represents (Between nodes)
        ((Entry.mk true edgeId (pairsOf ancestors sourceUrn targetUrn)).apply contributors) := by
  have allBetween : AllBetween nodes
      (edgeContributions ancestors sourceUrn targetUrn edgeId edgeType) := by
    intro contribution member
    obtain ⟨pair, inPairs, rfl⟩ := List.mem_map.mp member
    exact inside pair inPairs
  have sound : (edgeWrite graphName levels digest ancestors store sourceUrn targetUrn edgeId
      edgeType).Sound graphName nodes store.members := edgeWrite_sound unambiguous allBetween
  have added := sound.represents unambiguous represents
  have same : (fun pair => contributors pair ∪
      idsAt pair (edgeContributions ancestors sourceUrn targetUrn edgeId edgeType)) =
      (Entry.mk true edgeId (pairsOf ancestors sourceUrn targetUrn)).apply contributors := by
    funext pair
    rw [idsAt_edgeContributions, Entry.apply]
    split
    · rw [if_pos rfl, Finset.union_comm, Finset.insert_eq]
    · exact Finset.union_empty _
  exact same ▸ added

/-- There are edges and sets only for pairs of nodes. -/
structure Store.Confined (graphName : String) (nodes : Urn → Prop) (store : Store) : Prop where
  edges : ∀ pair, ¬ Between nodes pair → store.edges pair = none
  members : ∀ key, (∀ pair, Between nodes pair → membersKey graphName pair ≠ key) →
    store.members key = ∅

theorem onLineageEdgeDeleted_confined (confined : store.Confined graphName nodes)
    (inside : ∀ pair ∈ pairsOf ancestors sourceUrn targetUrn, Between nodes pair) :
    (onLineageEdgeDeleted graphName ancestors store sourceUrn targetUrn edgeId).Confined graphName
      nodes where
  edges pair outside := by
    have notIn : pair ∉ pairsOf ancestors sourceUrn targetUrn := mt (inside pair) outside
    rw [onLineageEdgeDeleted_edges]
    simp only [notIn, if_false, confined.edges pair outside]
  members key outside := by
    rw [onLineageEdgeDeleted_members, sremAll_apply, confined.members key outside,
      Finset.erase_empty, ite_self]

theorem onLineageEdgeWritten_confined {levels : Urn → Option Int} {digest : Option String}
    {edgeType : String} (confined : store.Confined graphName nodes)
    (inside : ∀ pair ∈ pairsOf ancestors sourceUrn targetUrn, Between nodes pair) :
    (onLineageEdgeWritten graphName levels digest ancestors store sourceUrn targetUrn edgeId
      edgeType).1.Confined graphName nodes where
  edges pair outside := by
    refine (mergeAll_of_notMem fun item member same => outside ?_).trans
      (confined.edges pair outside)
    have added : item.pair ∈ addedPairs
        (edgeContributions ancestors sourceUrn targetUrn edgeId edgeType)
        (saddAll graphName store.members
          (edgeContributions ancestors sourceUrn targetUrn edgeId edgeType)).2 := by
      rw [← edgeWrite_pairs]
      exact List.mem_map_of_mem member
    obtain ⟨contribution, contributes, samePair, -⟩ := exists_of_mem_addedPairs added
    obtain ⟨other, inPairs, rfl⟩ := List.mem_map.mp contributes
    exact same ▸ samePair ▸ inside other inPairs
  members key outside := by
    apply Finset.eq_empty_of_forall_notMem
    intro id member
    rcases mem_saddAll.mp member with old | ⟨contribution, contributes, sameKey, -⟩
    · exact absurd (confined.members key outside ▸ old) (Finset.notMem_empty id)
    · obtain ⟨other, inPairs, rfl⟩ := List.mem_map.mp contributes
      exact outside other (inside other inPairs) sameKey

end Deletion

structure HookState where
  containment : ContainmentState
  store : Store

/-- The hooks, called one after another.  `choices` decides between longest
chains of one length.  A move is followed by `on_containment_changed`. -/
inductive HookEvent (nodes : Urn → Prop) where
  | written (edge : WrittenEdge nodes) (choices : Nat × Nat)
  | deleted (edge : WrittenEdge nodes) (choices : Nat × Nat)
  | moved (urn : Urn) (parents : List ContainmentEdge)
      (inside : ∀ edge ∈ parents, nodes edge.parentUrn)

/-- The chains of both ends of an edge, and the cache after they were looked up.
No query fails, so there is a chain for both. -/
def endpointChains (config : ContainmentConfig) (state : ContainmentState)
    (sourceUrn targetUrn : Urn) (choices : Nat × Nat) : AncestorCache × (Urn → List Urn) :=
  let (cache, sourceChain) :=
    config.getAncestorChain state.graph state.cache (some choices.1) sourceUrn
  let (cache, targetChain) := config.getAncestorChain state.graph cache (some choices.2) targetUrn
  (cache, fun urn => if urn = sourceUrn then sourceChain.getD [] else targetChain.getD [])

structure Hooks where
  graphName : String
  levels : Urn → Option Int
  levelDigest : Option String
  containment : ContainmentConfig

namespace Hooks

variable {nodes : Urn → Prop}

def after (hooks : Hooks) (state : HookState) : HookEvent nodes → HookState
  | .written edge choices =>
      let (cache, ancestors) := endpointChains hooks.containment state.containment edge.sourceUrn
        edge.targetUrn choices
      { containment := { state.containment with cache := cache }
        store := (onLineageEdgeWritten hooks.graphName hooks.levels hooks.levelDigest ancestors
          state.store edge.sourceUrn edge.targetUrn edge.edgeId edge.edgeType).1 }
  | .deleted edge choices =>
      let (cache, ancestors) := endpointChains hooks.containment state.containment edge.sourceUrn
        edge.targetUrn choices
      { containment := { state.containment with cache := cache }
        store := onLineageEdgeDeleted hooks.graphName ancestors state.store edge.sourceUrn
          edge.targetUrn edge.edgeId }
  | .moved urn parents _ =>
      let graph := reparent state.containment.graph urn parents
      { state with
        containment :=
          { graph := graph
            cache := hooks.containment.onContainmentChanged graph state.containment.cache
              (fun _ => false) urn } }

def step (hooks : Hooks) (state : HookState) (event : HookEvent nodes) : Option HookState :=
  some (hooks.after state event)

/-- What a call books: its edge, and the pairs of the chains of the moment. -/
def entry (hooks : Hooks) (state : HookState) : HookEvent nodes → Option (Entry Pair String)
  | .written edge choices =>
      some ⟨true, edge.edgeId, pairsOf (endpointChains hooks.containment state.containment
        edge.sourceUrn edge.targetUrn choices).2 edge.sourceUrn edge.targetUrn⟩
  | .deleted edge choices =>
      some ⟨false, edge.edgeId, pairsOf (endpointChains hooks.containment state.containment
        edge.sourceUrn edge.targetUrn choices).2 edge.sourceUrn edge.targetUrn⟩
  | .moved _ _ _ => none

def journal (hooks : Hooks) : HookState → List (HookEvent nodes) → List (Entry Pair String)
  | _, [] => []
  | state, event :: rest =>
      (hooks.entry state event).toList ++ journal hooks (hooks.after state event) rest

end Hooks

section Run

variable {hooks : Hooks} {nodes : Urn → Prop} {containment : ContainmentState}

theorem endpointChains_current {config : ContainmentConfig} {sourceUrn targetUrn : Urn}
    {choices : Nat × Nat} (current : config.Current containment.graph containment.cache) :
    config.Current containment.graph
      (endpointChains config containment sourceUrn targetUrn choices).1 :=
  ContainmentConfig.getAncestorChain_current (ContainmentConfig.getAncestorChain_current current)

theorem endpointChains_closed {config : ContainmentConfig} {sourceUrn targetUrn : Urn}
    {choices : Nat × Nat} (current : config.Current containment.graph containment.cache)
    (parents : ∀ edge ∈ containment.graph, nodes edge.parentUrn) (urn : Urn) :
    ∀ ancestor ∈ (endpointChains config containment sourceUrn targetUrn choices).2 urn,
      nodes ancestor := by
  have isNode : ∀ {cache : AncestorCache} {reply : Option Nat} {urn : Urn},
      config.Current containment.graph cache →
      ∀ ancestor ∈ (config.getAncestorChain containment.graph cache reply urn).2.getD [],
        nodes ancestor := by
    intro cache reply urn current ancestor member
    cases returned : (config.getAncestorChain containment.graph cache reply urn).2 with
    | none =>
        rw [returned] at member
        cases member
    | some chain =>
        rw [returned] at member
        have isChain := ContainmentConfig.getAncestorChain_isChain current returned
        obtain ⟨edge, inGraph, rfl⟩ := isChain.exists_edge member
        exact parents edge inGraph
  intro ancestor member
  simp only [endpointChains] at member
  split at member
  · exact isNode current ancestor member
  · exact isNode (ContainmentConfig.getAncestorChain_current current) ancestor member

/-- The state has booked these contributors, and nothing outside the graph. -/
structure Tracks (hooks : Hooks) (nodes : Urn → Prop) (state : HookState)
    (contributors : Pair → Finset String) : Prop where
  current : hooks.containment.Current state.containment.graph state.containment.cache
  parents : ∀ edge ∈ state.containment.graph, nodes edge.parentUrn
  represents : (state.store.tally hooks.graphName).Represents (Between nodes) contributors
  confined : state.store.Confined hooks.graphName nodes
  outside : ∀ pair, ¬ Between nodes pair → contributors pair = ∅

variable {state : HookState} {contributors : Pair → Finset String}

theorem apply_outside {entry : Entry Pair String}
    (inside : ∀ pair ∈ entry.slots, Between nodes pair)
    (outside : ∀ pair, ¬ Between nodes pair → contributors pair = ∅) (pair : Pair)
    (notBetween : ¬ Between nodes pair) : entry.apply contributors pair = ∅ := by
  rw [Entry.apply, if_neg (mt (inside pair) notBetween), outside pair notBetween]

theorem Tracks.after (tracks : Tracks hooks nodes state contributors)
    (unambiguous : Unambiguous hooks.graphName nodes) (spelled : hooks.containment.Spelled)
    (event : HookEvent nodes) :
    Tracks hooks nodes (hooks.after state event)
      (replay contributors (hooks.entry state event).toList) := by
  have between : ∀ (edge : WrittenEdge nodes) (choices : Nat × Nat),
      ∀ pair ∈ pairsOf (endpointChains hooks.containment state.containment edge.sourceUrn
        edge.targetUrn choices).2 edge.sourceUrn edge.targetUrn, Between nodes pair :=
    fun edge choices => pairsOf_between
      (fun urn _ => endpointChains_closed tracks.current tracks.parents urn)
      edge.source_node edge.target_node
  cases event with
  | written edge choices =>
      have inside := between edge choices
      exact {
        current := endpointChains_current tracks.current
        parents := tracks.parents
        represents := onLineageEdgeWritten_represents unambiguous inside tracks.represents
        confined := onLineageEdgeWritten_confined tracks.confined inside
        outside := apply_outside inside tracks.outside }
  | deleted edge choices =>
      have inside := between edge choices
      exact {
        current := endpointChains_current tracks.current
        parents := tracks.parents
        represents := onLineageEdgeDeleted_represents unambiguous inside tracks.represents
        confined := onLineageEdgeDeleted_confined tracks.confined inside
        outside := apply_outside inside tracks.outside }
  | moved urn parents inside =>
      exact {
        current := ContainmentConfig.onContainmentChanged_current tracks.current
          (spelled.moveHarmless urn)
        parents := by
          intro edge member
          rcases List.mem_append.mp member with old | new
          · exact tracks.parents edge (List.mem_of_mem_filter old)
          · exact inside edge (List.mem_of_mem_filter new)
        represents := tracks.represents
        confined := tracks.confined
        outside := tracks.outside }

theorem Tracks.run (tracks : Tracks hooks nodes state contributors)
    (unambiguous : Unambiguous hooks.graphName nodes) (spelled : hooks.containment.Spelled)
    {events : List (HookEvent nodes)} {last : HookState} (ran : run hooks.step state events = some last) :
    Tracks hooks nodes last (replay contributors (hooks.journal state events)) := by
  induction events generalizing state contributors with
  | nil =>
      cases ran
      exact tracks
  | cons event rest ih =>
      obtain ⟨next, stepped, finished⟩ := run_cons.mp ran
      cases stepped
      have later := ih (tracks.after unambiguous spelled event) finished
      rw [← replay_append] at later
      exact later

structure Store.Clean (store : Store) : Prop where
  edges : ∀ pair, store.edges pair = none
  members : ∀ key, store.members key = ∅

theorem Tracks.clean_iff (tracks : Tracks hooks nodes state contributors) :
    state.store.Clean ↔ ∀ pair, contributors pair = ∅ := by
  constructor
  · intro clean pair
    by_cases between : Between nodes pair
    · exact (tracks.represents pair between).1.symm.trans (clean.members _)
    · exact tracks.outside pair between
  · intro none
    constructor
    · intro pair
      by_cases between : Between nodes pair
      · have published : (state.store.edges pair).map AggregatedEdge.weight =
            Tally.countOf (contributors pair) := (tracks.represents pair between).2
        rw [none pair] at published
        exact Option.map_eq_none_iff.mp published
      · exact tracks.confined.edges pair between
    · intro key
      by_cases used : ∃ pair, Between nodes pair ∧ membersKey hooks.graphName pair = key
      · obtain ⟨pair, between, rfl⟩ := used
        exact (tracks.represents pair between).1.trans (none pair)
      · exact tracks.confined.members key fun pair between same => used ⟨pair, between, same⟩

/-- A run from an empty store leaves nothing behind exactly when each pair that
a write counted its edge into is among the pairs of a later deletion. -/
theorem clean_iff_retracted {graph : List ContainmentEdge} {events : List (HookEvent nodes)}
    {last : HookState} (unambiguous : Unambiguous hooks.graphName nodes)
    (spelled : hooks.containment.Spelled) (parents : ∀ edge ∈ graph, nodes edge.parentUrn)
    (ran : run hooks.step ⟨⟨graph, fun _ => none⟩, .empty⟩ events = some last) :
    last.store.Clean ↔ Retracted (hooks.journal ⟨⟨graph, fun _ => none⟩, .empty⟩ events) := by
  have start : Tracks hooks nodes ⟨⟨graph, fun _ => none⟩, .empty⟩ fun _ => ∅ := {
    current := fun urn chain cached => nomatch cached
    parents := parents
    represents := fun pair _ => ⟨rfl, rfl⟩
    confined := ⟨fun _ _ => rfl, fun _ _ => rfl⟩
    outside := fun _ _ => rfl }
  rw [(start.run unambiguous spelled ran).clean_iff, replay_empty_eq_empty_iff]

end Run

def AllDeleted {nodes : Urn → Prop} : List (HookEvent nodes) → Prop
  | [] => True
  | .written edge _ :: later =>
      (∃ choices, .deleted edge choices ∈ later) ∧ AllDeleted later
  | _ :: later => AllDeleted later

/-- Every chain that the node can have in the one graph is part of every chain that it can have in
the other. -/
def ContainmentConfig.Extends (config : ContainmentConfig) (graph after : List ContainmentEdge)
    (urn : Urn) : Prop :=
  ∀ chain ∈ config.longestChains graph urn, ∀ chain' ∈ config.longestChains after urn,
    chain ⊆ chain'

instance (config : ContainmentConfig) (graph after : List ContainmentEdge) (urn : Urn) :
    Decidable (config.Extends graph after urn) :=
  inferInstanceAs (Decidable (∀ chain ∈ config.longestChains graph urn,
    ∀ chain' ∈ config.longestChains after urn, chain ⊆ chain'))

/-- Until the edge is deleted, no move at or above one of its ends takes ancestors from it. -/
def KeptUntilDeleted {nodes : Urn → Prop} (config : ContainmentConfig) (edge : WrittenEdge nodes) :
    List ContainmentEdge → List (HookEvent nodes) → Prop
  | _, [] => True
  | graph, .written _ _ :: later => KeptUntilDeleted config edge graph later
  | graph, .deleted other _ :: later => other = edge ∨ KeptUntilDeleted config edge graph later
  | graph, .moved urn parents _ :: later =>
      (∀ node ∈ [edge.sourceUrn, edge.targetUrn],
        config.Below (reparent graph urn parents) urn node →
          config.Extends graph (reparent graph urn parents) node) ∧
      KeptUntilDeleted config edge (reparent graph urn parents) later

/-- So it is for every edge from its write on. -/
def ChainsKept {nodes : Urn → Prop} (config : ContainmentConfig) :
    List ContainmentEdge → List (HookEvent nodes) → Prop
  | _, [] => True
  | graph, .written edge _ :: later =>
      KeptUntilDeleted config edge graph later ∧ ChainsKept config graph later
  | graph, .deleted _ _ :: later => ChainsKept config graph later
  | graph, .moved urn parents _ :: later => ChainsKept config (reparent graph urn parents) later

section Kept

variable {config : ContainmentConfig} {graph : List ContainmentEdge} {cache : AncestorCache}
  {urn : Urn} {chain : List Urn}

/-- Whatever chain the node has when it is looked up next contains this one. -/
structure Carries (config : ContainmentConfig) (graph : List ContainmentEdge)
    (cache : AncestorCache) (urn : Urn) (chain : List Urn) : Prop where
  cached : ∀ found, cache urn = some found → chain ⊆ found
  computed : cache urn = none → ∀ found ∈ config.longestChains graph urn, chain ⊆ found

theorem getAncestorChain_cached (config : ContainmentConfig) (graph : List ContainmentEdge)
    (cache : AncestorCache) (choice : Nat) (other : Urn) :
    ∃ found, (config.getAncestorChain graph cache (some choice) other).2 = some found ∧
      (config.getAncestorChain graph cache (some choice) other).1 other = some found := by
  unfold ContainmentConfig.getAncestorChain
  cases cached : cache other with
  | some found => exact ⟨found, rfl, cached⟩
  | none =>
      simp only
      cases computed : config.computeAncestorChain graph (some choice) other with
      | some found => exact ⟨found, rfl, Function.update_self _ _ _⟩
      | none =>
          unfold ContainmentConfig.computeAncestorChain at computed
          split at computed
          · cases computed
          · cases computed

theorem Carries.lookup (carries : Carries config graph cache urn chain) (choice : Nat)
    (other : Urn) : Carries config graph
      (config.getAncestorChain graph cache (some choice) other).1 urn chain := by
  unfold ContainmentConfig.getAncestorChain
  cases cached : cache other with
  | some known => exact carries
  | none =>
      cases computed : config.computeAncestorChain graph (some choice) other with
      | none => exact carries
      | some known =>
          dsimp only
          by_cases same : urn = other
          · subst same
            refine ⟨?_, ?_⟩
            · intro found stored
              rw [Function.update_self] at stored
              cases stored
              exact carries.computed cached known
                (ContainmentConfig.computeAncestorChain_isChain computed)
            · intro absent
              rw [Function.update_self] at absent
              cases absent
          · refine ⟨?_, ?_⟩
            · intro found stored
              rw [Function.update_of_ne same] at stored
              exact carries.cached found stored
            · intro absent
              rw [Function.update_of_ne same] at absent
              exact carries.computed absent

theorem Carries.found (carries : Carries config graph cache urn chain) {choice : Nat}
    {found : List Urn}
    (returned : (config.getAncestorChain graph cache (some choice) urn).2 = some found) :
    chain ⊆ found := by
  obtain ⟨other, same, cached⟩ := getAncestorChain_cached config graph cache choice urn
  cases returned.symm.trans same
  exact (carries.lookup choice urn).cached found cached

/-- A move that takes no ancestors from the node leaves it a chain that contains the old one. -/
theorem Carries.moved {moved : Urn} {parents : List ContainmentEdge}
    (carries : Carries config graph cache urn chain) (spelled : config.Spelled)
    (current : config.Current graph cache)
    (grown : config.Below (reparent graph moved parents) moved urn →
      config.Extends graph (reparent graph moved parents) urn) :
    Carries config (reparent graph moved parents)
      (config.onContainmentChanged (reparent graph moved parents) cache (fun _ => false) moved)
      urn chain := by
  refine ⟨?_, ?_⟩
  · intro found cached
    exact carries.cached found (ContainmentConfig.eq_some_of_onContainmentChanged cached).2
  · intro missing found longest
    by_cases below : config.Below (reparent graph moved parents) moved urn
    · cases before : cache urn with
      | some old =>
          have isChain := current urn old before
          exact List.Subset.trans (carries.cached old before)
            (grown below old isChain found longest)
      | none =>
          obtain ⟨old, isChain⟩ := List.exists_mem_of_ne_nil _
            (@ContainmentConfig.longestChains_ne_nil config graph urn)
          exact List.Subset.trans (carries.computed before old isChain)
            (grown below old isChain found longest)
    · have apart : ¬ config.Visits (reparent graph moved parents) moved urn :=
        mt spelled.visits_iff.mp below
      have kept : cache urn = none :=
        (ContainmentConfig.onContainmentChanged_apart apart).symm.trans missing
      exact carries.computed kept found ((ContainmentConfig.isChain_reparent below).mp longest)

variable {containment : ContainmentState} {sourceUrn targetUrn : Urn} {choices : Nat × Nat}

/-- The chains of both ends are carried on. -/
theorem endpointChains_carries :
    ∀ node ∈ [sourceUrn, targetUrn], Carries config containment.graph
      (endpointChains config containment sourceUrn targetUrn choices).1 node
      ((endpointChains config containment sourceUrn targetUrn choices).2 node) := by
  have own (cache : AncestorCache) (node : Urn) (choice : Nat) :
      Carries config containment.graph
        (config.getAncestorChain containment.graph cache (some choice) node).1 node
        ((config.getAncestorChain containment.graph cache (some choice) node).2.getD []) := by
    obtain ⟨found, returned, cached⟩ :=
      getAncestorChain_cached config containment.graph cache choice node
    rw [returned]
    refine ⟨?_, ?_⟩
    · intro other same
      cases cached.symm.trans same
      exact List.Subset.refl _
    · intro missing
      cases cached.symm.trans missing
  intro node member
  simp only [endpointChains]
  split
  · rename_i same
    subst same
    exact (own containment.cache node choices.1).lookup choices.2 targetUrn
  · rename_i other
    obtain rfl : node = targetUrn := by simpa [other] using member
    exact own _ node choices.2

theorem Carries.endpoint {node : Urn}
    (carries : Carries config containment.graph containment.cache node chain)
    (isEnd : node ∈ [sourceUrn, targetUrn]) :
    chain ⊆ (endpointChains config containment sourceUrn targetUrn choices).2 node := by
  simp only [endpointChains]
  split
  · rename_i same
    subst same
    obtain ⟨found, returned, -⟩ :=
      getAncestorChain_cached config containment.graph containment.cache choices.1 node
    rw [returned]
    exact carries.found returned
  · rename_i other
    obtain rfl : node = targetUrn := by simpa [other] using isEnd
    have later := carries.lookup choices.1 sourceUrn
    obtain ⟨found, returned, -⟩ := getAncestorChain_cached config containment.graph
      (config.getAncestorChain containment.graph containment.cache (some choices.1) sourceUrn).1
      choices.2 node
    rw [returned]
    exact later.found returned

theorem Carries.endpoints
    (carries : Carries config containment.graph containment.cache urn chain) :
    Carries config containment.graph
      (endpointChains config containment sourceUrn targetUrn choices).1 urn chain :=
  (carries.lookup choices.1 sourceUrn).lookup choices.2 targetUrn

variable {hooks : Hooks} {nodes : Urn → Prop} {state : HookState}

theorem after_current (spelled : hooks.containment.Spelled)
    (current : hooks.containment.Current state.containment.graph state.containment.cache)
    (event : HookEvent nodes) : hooks.containment.Current
      (hooks.after state event).containment.graph (hooks.after state event).containment.cache := by
  cases event with
  | written edge choices => exact endpointChains_current current
  | deleted edge choices => exact endpointChains_current current
  | moved urn parents inside =>
      exact ContainmentConfig.onContainmentChanged_current current (spelled.moveHarmless urn)

/-- The next deletion of the edge takes it out of all pairs of chains that are carried on. -/
theorem removed_of_carries {edge : WrittenEdge nodes} {ancestors : Urn → List Urn}
    {later : List (HookEvent nodes)} (spelled : hooks.containment.Spelled)
    (current : hooks.containment.Current state.containment.graph state.containment.cache)
    (carries : ∀ node ∈ [edge.sourceUrn, edge.targetUrn],
      Carries hooks.containment state.containment.graph state.containment.cache node
        (ancestors node))
    (kept : KeptUntilDeleted hooks.containment edge state.containment.graph later)
    (deleted : ∃ choices, .deleted edge choices ∈ later) :
    ∀ pair ∈ pairsOf ancestors edge.sourceUrn edge.targetUrn,
      ∃ entry ∈ hooks.journal state later, entry.Removes pair edge.edgeId := by
  intro pair inside
  induction later generalizing state with
  | nil =>
      obtain ⟨choices, member⟩ := deleted
      cases member
  | cons event rest ih =>
      obtain ⟨choices, member⟩ := deleted
      have current' := after_current spelled current event
      have rests (known : HookEvent.deleted edge choices ∈ rest)
          (carries' : ∀ node ∈ [edge.sourceUrn, edge.targetUrn],
            Carries hooks.containment (hooks.after state event).containment.graph
              (hooks.after state event).containment.cache node (ancestors node))
          (kept' : KeptUntilDeleted hooks.containment edge
            (hooks.after state event).containment.graph rest) :
          ∃ entry ∈ hooks.journal state (event :: rest), entry.Removes pair edge.edgeId := by
        obtain ⟨entry, listed, removes⟩ := ih current' carries' kept' ⟨choices, known⟩
        exact ⟨entry, List.mem_append_right _ listed, removes⟩
      cases event with
      | written other choices' =>
          have known := (List.mem_cons.mp member).resolve_left fun same => (by cases same)
          exact rests known (fun node isEnd => (carries node isEnd).endpoints) kept
      | deleted other choices' =>
          by_cases same : other = edge
          · subst same
            refine ⟨_, List.mem_append_left _ (List.mem_singleton_self _), rfl, rfl, ?_⟩
            have grown (node : Urn) (isEnd : node ∈ [other.sourceUrn, other.targetUrn]) :
                node :: ancestors node ⊆ node :: (endpointChains hooks.containment
                  state.containment other.sourceUrn other.targetUrn choices').2 node :=
              List.cons_subset_cons _ ((carries node isEnd).endpoint isEnd)
            obtain ⟨source, target, apart⟩ := mem_pairsBetween.mp inside
            exact mem_pairsBetween.mpr
              ⟨grown _ (by simp) source, grown _ (by simp) target, apart⟩
          · have known : HookEvent.deleted edge choices ∈ rest :=
              (List.mem_cons.mp member).resolve_left fun equal => same (by cases equal; rfl)
            exact rests known (fun node isEnd => (carries node isEnd).endpoints)
              (kept.resolve_left same)
      | moved urn parents inGraph =>
          have known := (List.mem_cons.mp member).resolve_left fun same => (by cases same)
          exact rests known
            (fun node isEnd => (carries node isEnd).moved spelled current (kept.1 node isEnd))
            kept.2

theorem retracted_of_chainsKept {events : List (HookEvent nodes)}
    (spelled : hooks.containment.Spelled)
    (current : hooks.containment.Current state.containment.graph state.containment.cache)
    (kept : ChainsKept hooks.containment state.containment.graph events)
    (deleted : AllDeleted events) : Retracted (hooks.journal state events) := by
  induction events generalizing state with
  | nil => trivial
  | cons event rest ih =>
      have current' := after_current spelled current event
      cases event with
      | written edge choices =>
          refine ⟨fun _ => ?_, ih current' kept.2 deleted.2⟩
          have carried := @endpointChains_carries hooks.containment state.containment
            edge.sourceUrn edge.targetUrn choices
          exact removed_of_carries spelled current' carried kept.1 deleted.1
      | deleted edge choices =>
          exact ⟨fun added => (by cases added), ih current' kept deleted⟩
      | moved urn parents inside => exact ih current' kept deleted

/-- Nothing is left of edges that have all been deleted again, if no move between a write and the
deletion has taken ancestors from an end of the edge. -/
theorem clean_of_chainsKept {graph : List ContainmentEdge} {events : List (HookEvent nodes)}
    {last : HookState} (unambiguous : Unambiguous hooks.graphName nodes)
    (spelled : hooks.containment.Spelled) (parents : ∀ edge ∈ graph, nodes edge.parentUrn)
    (kept : ChainsKept hooks.containment graph events) (deleted : AllDeleted events)
    (ran : run hooks.step ⟨⟨graph, fun _ => none⟩, .empty⟩ events = some last) :
    last.store.Clean := by
  refine (clean_iff_retracted unambiguous spelled parents ran).mpr ?_
  exact retracted_of_chainsKept spelled (fun _ _ cached => nomatch cached) kept deleted

end Kept

open ContainmentConfig (containsConfig nestedGraph topEdge)

/-- URNs without the separator of the keys. -/
def plainUrn (urn : Urn) : Prop := ':' ∉ urn.toList

theorem plainUrn_unambiguous (graphName : String) : Unambiguous graphName plainUrn :=
  unambiguous_of_no_colon graphName fun _ plain => plain

def nestedHooks : Hooks := ⟨"g", fun _ => none, none, containsConfig⟩

def edgeAB : WrittenEdge plainUrn where
  sourceUrn := "a"
  targetUrn := "b"
  edgeId := "1"
  edgeType := "FLOWS_TO"
  source_node := by unfold plainUrn; decide
  target_node := by unfold plainUrn; decide

/-- The edge is written, `urn` gets new parents, and the edge is deleted. -/
def movedBetween (urn : Urn) (parents : List ContainmentEdge)
    (inside : ∀ edge ∈ parents, plainUrn edge.parentUrn) : List (HookEvent plainUrn) :=
  [.written edgeAB (0, 0), .moved urn parents inside, .deleted edgeAB (0, 0)]

theorem topEdge_plain : ∀ edge ∈ [topEdge], plainUrn edge.parentUrn := by
  unfold plainUrn
  decide

theorem nestedGraph_plain : ∀ edge ∈ nestedGraph, plainUrn edge.parentUrn := by
  unfold plainUrn
  decide

/-- With `p` moved under `top` in between, the deletion finds more pairs. -/
theorem clean_moved_up :
    ∃ last, run nestedHooks.step ⟨⟨nestedGraph, fun _ => none⟩, .empty⟩
        (movedBetween "p" [topEdge] topEdge_plain) = some last ∧ last.store.Clean := by
  have kept : ChainsKept nestedHooks.containment nestedGraph
      (movedBetween "p" [topEdge] topEdge_plain) := by
    have grown : ∀ node ∈ ["a", "b"], nestedHooks.containment.Extends nestedGraph
        (reparent nestedGraph "p" [topEdge]) node := by decide
    exact ⟨⟨fun node isEnd _ => grown node isEnd, .inl rfl⟩, trivial⟩
  obtain ⟨last, ran⟩ : ∃ last, run nestedHooks.step ⟨⟨nestedGraph, fun _ => none⟩, .empty⟩
      (movedBetween "p" [topEdge] topEdge_plain) = some last := ⟨_, rfl⟩
  have unambiguous : Unambiguous nestedHooks.graphName plainUrn := plainUrn_unambiguous _
  have spelled : nestedHooks.containment.Spelled := by decide
  exact ⟨last, ran, clean_of_chainsKept unambiguous spelled nestedGraph_plain kept
    ⟨⟨(0, 0), by simp⟩, trivial⟩ ran⟩

/-- With `a` taken out of `p` in between, the pair of `p` and `b` is left. -/
theorem residue_moved_out :
    ¬ ∀ (nodes : Urn → Prop) (hooks : Hooks) (graph : List ContainmentEdge)
      (events : List (HookEvent nodes)) (last : HookState),
      Unambiguous hooks.graphName nodes → (∀ edge ∈ graph, nodes edge.parentUrn) →
      AllDeleted events →
      run hooks.step ⟨⟨graph, fun _ => none⟩, .empty⟩ events = some last → last.store.Clean := by
  intro always
  have clean := always plainUrn nestedHooks nestedGraph (movedBetween "a" [] (by simp)) _
    (plainUrn_unambiguous "g") nestedGraph_plain ⟨⟨(0, 0), by simp⟩, True.intro⟩ rfl
  exact absurd (clean.edges ("p", "b")) (by decide)

end Univiz.Falkor

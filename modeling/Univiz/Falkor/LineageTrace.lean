import Mathlib.Logic.Relation
import Univiz.Data.Reach
import Univiz.Data.OrderedMap
import Univiz.Falkor.Store
import Univiz.LevelTrace.Expansion

namespace Univiz.Falkor

open Univiz.Data
open Univiz.LevelTrace (ProviderConfig)

/-! `FalkorDBProvider.get_trace_lineage`: a trace level by level.  With the direction `both`
each level is expanded upstream and then downstream, and what the two find is one frontier
for the next level. -/

inductive TraceDirection
  | upstream
  | downstream
  | both
deriving DecidableEq, Repr

/-- The label of a query. -/
inductive Side
  | upstream
  | downstream
deriving DecidableEq, Repr

/-- The end of an edge at which a query meets the frontier. -/
def Side.near : Side → LineageEdge → Urn
  | upstream, edge => edge.targetUrn
  | downstream, edge => edge.sourceUrn

def Side.neighbor : Side → LineageEdge → Urn
  | upstream, edge => edge.sourceUrn
  | downstream, edge => edge.targetUrn

def TraceDirection.sides : TraceDirection → List Side
  | upstream => [.upstream]
  | downstream => [.downstream]
  | both => [.upstream, .downstream]

/-- The relationships of the graph, of which a query returns those that match it in any order,
and the nodes that `get_node` finds.  A `GraphNode` can be built for the readable ones.  Edges
with one id have the same ends. -/
structure TraceGraph where
  edges : List LineageEdge
  answer : (LineageEdge → Bool) → List LineageEdge
  answered : ∀ test, (answer test).Perm (edges.filter test)
  readable : Urn → Bool
  nodes : List Urn
  identified : ∀ first ∈ edges, ∀ second ∈ edges, first.edgeId = second.edgeId →
    first.sourceUrn = second.sourceUrn ∧ first.targetUrn = second.targetUrn

/-- The nodes and edges collected so far, the nodes that have been in a frontier, and for each
side the urns of the result and of the next frontier. -/
structure Traversal where
  collectedNodes : List Urn
  collectedEdges : OrderedMap String LineageEdge
  visitedLineage : List Urn
  urns : Side → List Urn
  nextFrontier : Side → List Urn

structure LineageResult where
  nodes : List Urn
  edges : List LineageEdge
  upstreamUrns : List Urn
  downstreamUrns : List Urn
  totalCount : Nat
  hasMore : Bool

def collect (nodes : List Urn) (urn : Urn) : List Urn :=
  if urn ∈ nodes then nodes else nodes ++ [urn]

namespace Traversal

def reach (traversal : Traversal) (side : Side) (urn : Urn) : Traversal :=
  { traversal with
    visitedLineage := traversal.visitedLineage ++ [urn]
    urns := Function.update traversal.urns side (traversal.urns side ++ [urn])
    nextFrontier := Function.update traversal.nextFrontier side
      (traversal.nextFrontier side ++ [urn]) }

end Traversal

namespace TraceGraph

variable (graph : TraceGraph)

def IsReadable (edge : LineageEdge) : Prop :=
  graph.readable edge.sourceUrn = true ∧ graph.readable edge.targetUrn = true

instance (edge : LineageEdge) : Decidable (graph.IsReadable edge) :=
  inferInstanceAs (Decidable (_ ∧ _))

/-- One row of a query. -/
def visit (side : Side) (traversal : Traversal) (edge : LineageEdge) : Traversal :=
  if graph.IsReadable edge then
    match traversal.collectedEdges.get edge.edgeId with
    | some _ => traversal
    | none =>
        let collected := { traversal with
          collectedEdges := traversal.collectedEdges.set edge.edgeId edge
          collectedNodes := collect (collect traversal.collectedNodes edge.sourceUrn)
            edge.targetUrn }
        if side.neighbor edge ∈ traversal.visitedLineage then collected
        else collected.reach side (side.neighbor edge)
  else traversal

section Levels

variable (safeLineage : List String) (sides : List Side)

def expand (frontier : List Urn) (traversal : Traversal) (side : Side) : Traversal :=
  (graph.answer fun edge => side.near edge ∈ frontier ∧ edge.edgeType ∈ safeLineage).foldl
    (graph.visit side) traversal

def expandLevel (frontier : List Urn) (traversal : Traversal) : Traversal :=
  sides.foldl (graph.expand safeLineage frontier) { traversal with nextFrontier := fun _ => [] }

def traceLevels : Nat → List Urn → Traversal → Traversal
  | 0, _, traversal => traversal
  | depth + 1, frontier, traversal =>
      if frontier = [] then traversal
      else
        let expanded := graph.expandLevel safeLineage sides frontier traversal
        traceLevels depth (expanded.nextFrontier .upstream ++ expanded.nextFrontier .downstream)
          expanded

end Levels

/-- One row of the query for parents; the list are the parents of the next level. -/
def climbRow (climbed : Traversal × List Urn × List Urn) (edge : LineageEdge) :
    Traversal × List Urn × List Urn :=
  let (traversal, seenParents, nextLevel) := climbed
  if graph.IsReadable edge then
    let kept := { traversal with
      collectedNodes := collect traversal.collectedNodes edge.targetUrn
      collectedEdges := traversal.collectedEdges.set edge.edgeId edge }
    if edge.sourceUrn ∈ seenParents then (kept, seenParents, nextLevel)
    else ({ kept with collectedNodes := collect kept.collectedNodes edge.sourceUrn },
      seenParents ++ [edge.sourceUrn], nextLevel ++ [edge.sourceUrn])
  else climbed

/-- The levels of containment above the given nodes. -/
def climb (safeContainment : List String) :
    Nat → List Urn → List Urn → Traversal → Traversal
  | 0, _, _, traversal => traversal
  | levels + 1, current, seenParents, traversal =>
      if current = [] then traversal
      else
        let (climbed, seen, nextLevel) := (graph.answer fun edge =>
          edge.targetUrn ∈ current ∧ edge.edgeType ∈ safeContainment).foldl graph.climbRow
            (traversal, seenParents, [])
        climb safeContainment levels nextLevel seen climbed

/-- The urn and, where there are containment types, its children. -/
def startUrns (safeContainment : List String) (urn : Urn) : List Urn :=
  ((graph.answer fun edge => edge.sourceUrn = urn ∧ edge.edgeType ∈ safeContainment).map
    LineageEdge.targetUrn).foldl collect [urn]

def getNode (urn : Urn) : List Urn :=
  if urn ∈ graph.nodes ∧ graph.readable urn = true then [urn] else []

def Traversal.start (startUrns : List Urn) : Traversal where
  collectedNodes := []
  collectedEdges := OrderedMap.empty
  visitedLineage := startUrns
  urns _ := []
  nextFrontier _ := []

def getTraceLineage (config : ProviderConfig) (urn : Urn) (direction : TraceDirection)
    (depth : Nat) (containmentEdges lineageEdges : List String) : LineageResult :=
  let safeContainment := containmentEdges.map config.sanitizeLabel
  let safeLineage := lineageEdges.map config.sanitizeLabel
  if safeLineage = [] then
    { nodes := graph.getNode urn, edges := [], upstreamUrns := [], downstreamUrns := [],
      totalCount := (graph.getNode urn).length, hasMore := false }
  else
    let starts := graph.startUrns safeContainment urn
    let traced := graph.traceLevels safeLineage direction.sides depth starts
      (Traversal.start starts)
    let context :=
      if traced.collectedNodes = [] ∨ safeContainment = [] then traced
      else graph.climb safeContainment 5 traced.collectedNodes traced.collectedNodes traced
    let nodes := if urn ∈ context.collectedNodes then context.collectedNodes
      else context.collectedNodes ++ graph.getNode urn
    { nodes, edges := context.collectedEdges.entries.map Prod.snd
      upstreamUrns := traced.urns .upstream, downstreamUrns := traced.urns .downstream
      totalCount := nodes.length, hasMore := false }

variable {graph} {safeLineage : List String} {start : Urn → Prop}

/-- A lineage edge leads from the first node to the second. -/
def Flows (graph : TraceGraph) (safeLineage : List String) (source target : Urn) : Prop :=
  ∃ edge ∈ graph.edges, edge.edgeType ∈ safeLineage ∧
    edge.sourceUrn = source ∧ edge.targetUrn = target

/-- A lineage edge that the trace can follow: both of its nodes are readable. -/
def Follows (graph : TraceGraph) (safeLineage : List String) (source target : Urn) : Prop :=
  ∃ edge ∈ graph.edges, edge.edgeType ∈ safeLineage ∧ graph.IsReadable edge ∧
    edge.sourceUrn = source ∧ edge.targetUrn = target

/-- The step of the side towards a neighbor. -/
def Leads (graph : TraceGraph) (safeLineage : List String) : Side → Urn → Urn → Prop
  | .upstream, node, neighbor => graph.Follows safeLineage neighbor node
  | .downstream, node, neighbor => graph.Follows safeLineage node neighbor

def Adjacent (graph : TraceGraph) (safeLineage : List String) (node neighbor : Urn) : Prop :=
  graph.Follows safeLineage neighbor node ∨ graph.Follows safeLineage node neighbor

/-- Both ends of every edge that counts as collected have been visited. -/
def Settled (graph : TraceGraph) (traversal : Traversal) : Prop :=
  ∀ edge ∈ graph.edges, traversal.collectedEdges.get edge.edgeId ≠ none →
    edge.sourceUrn ∈ traversal.visitedLineage ∧ edge.targetUrn ∈ traversal.visitedLineage

/-- A side has reached the new nodes that had not been visited. -/
structure Expands (graph : TraceGraph) (side : Side) (new : Urn → Prop)
    (before after : Traversal) : Prop where
  visited : ∀ urn, urn ∈ after.visitedLineage ↔ urn ∈ before.visitedLineage ∨ new urn
  urns : ∀ other urn, urn ∈ after.urns other ↔
    urn ∈ before.urns other ∨ (other = side ∧ new urn ∧ urn ∉ before.visitedLineage)
  next : ∀ other urn, urn ∈ after.nextFrontier other ↔
    urn ∈ before.nextFrontier other ∨ (other = side ∧ new urn ∧ urn ∉ before.visitedLineage)
  settled : graph.Settled after

variable {side : Side} {before middle after : Traversal} {first second : Urn → Prop}

/-- Nothing new is found: only what has been collected may change. -/
theorem expands_of_known (settled : graph.Settled after)
    (visited : after.visitedLineage = before.visitedLineage) (urns : after.urns = before.urns)
    (next : after.nextFrontier = before.nextFrontier)
    (known : ∀ urn, first urn → urn ∈ before.visitedLineage) :
    graph.Expands side first before after where
  visited urn := by
    rw [visited]
    exact (or_iff_left_of_imp (known urn)).symm
  urns other urn := by
    rw [urns]
    exact (or_iff_left fun ⟨_, new, fresh⟩ => fresh (known urn new)).symm
  next other urn := by
    rw [next]
    exact (or_iff_left fun ⟨_, new, fresh⟩ => fresh (known urn new)).symm
  settled := settled

theorem Expands.trans (expands : graph.Expands side first before middle)
    (further : graph.Expands side second middle after) :
    graph.Expands side (fun urn => first urn ∨ second urn) before after where
  visited urn := by rw [further.visited, expands.visited, or_assoc]
  urns other urn := by
    rw [further.urns, expands.urns, expands.visited]
    by_cases old : urn ∈ before.visitedLineage
    · simp [old]
    · by_cases one : first urn
      · simp [old, one]
      · simp [old, one]
  next other urn := by
    rw [further.next, expands.next, expands.visited]
    by_cases old : urn ∈ before.visitedLineage
    · simp [old]
    · by_cases one : first urn
      · simp [old, one]
      · simp [old, one]
  settled := further.settled

theorem ends_visited {edge : LineageEdge} {visited : List Urn}
    (near : side.near edge ∈ visited) (neighbor : side.neighbor edge ∈ visited) :
    edge.sourceUrn ∈ visited ∧ edge.targetUrn ∈ visited := by
  cases side with
  | upstream => exact ⟨neighbor, near⟩
  | downstream => exact ⟨near, neighbor⟩

/-- Collecting an edge whose ends are both visited. -/
theorem settled_collect {edge : LineageEdge} (settled : graph.Settled before)
    (listed : edge ∈ graph.edges)
    (kept : ∀ urn ∈ before.visitedLineage, urn ∈ after.visitedLineage)
    (collected : after.collectedEdges = before.collectedEdges.set edge.edgeId edge)
    (ends : edge.sourceUrn ∈ after.visitedLineage ∧ edge.targetUrn ∈ after.visitedLineage) :
    graph.Settled after := by
  intro other otherListed present
  rw [collected, OrderedMap.get_set] at present
  by_cases same : edge.edgeId = other.edgeId
  · obtain ⟨sources, targets⟩ := graph.identified edge listed other otherListed same
    exact sources ▸ targets ▸ ends
  · rw [if_neg same] at present
    exact (settled other otherListed present).imp (kept _) (kept _)

theorem mem_update_append {lists : Side → List Urn} {urn added : Urn} {other : Side} :
    urn ∈ Function.update lists side (lists side ++ [added]) other ↔
      urn ∈ lists other ∨ (other = side ∧ urn = added) := by
  by_cases own : other = side
  · subst own
    simp
  · simp [own]

theorem visit_expands {edge : LineageEdge} (settled : graph.Settled before)
    (listed : edge ∈ graph.edges) (near : side.near edge ∈ before.visitedLineage) :
    graph.Expands side (fun urn => graph.IsReadable edge ∧ urn = side.neighbor edge) before
      (graph.visit side before edge) := by
  unfold visit
  split
  · rename_i readable
    split
    · rename_i present
      have ends := settled edge listed (by rw [present]; exact Option.some_ne_none _)
      have known : side.neighbor edge ∈ before.visitedLineage := by
        cases side with
        | upstream => exact ends.1
        | downstream => exact ends.2
      exact expands_of_known settled rfl rfl rfl fun urn reads => reads.2 ▸ known
    · dsimp only
      split
      · rename_i known
        exact expands_of_known
          (settled_collect settled listed (fun _ old => old) rfl (ends_visited near known))
          rfl rfl rfl fun urn reads => reads.2 ▸ known
      · rename_i fresh
        have added (other : Side) (urn : Urn) :
            (other = side ∧ urn = side.neighbor edge) ↔ other = side ∧
              (graph.IsReadable edge ∧ urn = side.neighbor edge) ∧
                urn ∉ before.visitedLineage := by
          refine and_congr_right fun _ => ⟨fun here => ⟨⟨readable, here⟩, here ▸ fresh⟩, ?_⟩
          exact fun reached => reached.1.2
        constructor
        · intro urn
          simp [Traversal.reach, readable]
        · intro other urn
          rw [Traversal.reach, mem_update_append, added]
        · intro other urn
          rw [Traversal.reach, mem_update_append, added]
        · exact settled_collect settled listed (fun urn old => List.mem_append_left _ old) rfl
            (ends_visited (List.mem_append_left _ near)
              (List.mem_append_right _ List.mem_cons_self))
  · rename_i unreadable
    exact expands_of_known settled rfl rfl rfl fun urn reads => absurd reads.1 unreadable

theorem foldl_visit_expands {rows : List LineageEdge} (settled : graph.Settled before)
    (listed : ∀ edge ∈ rows, edge ∈ graph.edges)
    (near : ∀ edge ∈ rows, side.near edge ∈ before.visitedLineage) :
    graph.Expands side
      (fun urn => ∃ edge ∈ rows, graph.IsReadable edge ∧ urn = side.neighbor edge) before
      (rows.foldl (graph.visit side) before) := by
  induction rows generalizing before with
  | nil => exact expands_of_known settled rfl rfl rfl fun _ ⟨_, member, _⟩ => by cases member
  | cons edge rest ih =>
      obtain ⟨here, later⟩ := List.forall_mem_cons.mp listed
      obtain ⟨nearHere, nearLater⟩ := List.forall_mem_cons.mp near
      have first := visit_expands settled here nearHere
      have further := ih first.settled later fun other member =>
        (first.visited _).mpr (.inl (nearLater other member))
      simp only [List.exists_mem_cons_iff, List.foldl_cons]
      exact first.trans further

theorem expand_expands {frontier : List Urn} (settled : graph.Settled before)
    (visited : ∀ urn ∈ frontier, urn ∈ before.visitedLineage) :
    graph.Expands side (fun urn => ∃ via ∈ frontier, graph.Leads safeLineage side via urn) before
      (graph.expand safeLineage frontier before side) := by
  have answered (edge : LineageEdge) :
      edge ∈ graph.answer (fun edge => side.near edge ∈ frontier ∧ edge.edgeType ∈ safeLineage) ↔
        edge ∈ graph.edges ∧ side.near edge ∈ frontier ∧ edge.edgeType ∈ safeLineage := by
    rw [(graph.answered _).mem_iff, List.mem_filter, decide_eq_true_iff]
  have listed : ∀ edge ∈ graph.answer fun edge =>
      side.near edge ∈ frontier ∧ edge.edgeType ∈ safeLineage, edge ∈ graph.edges :=
    fun edge member => ((answered edge).mp member).1
  have near : ∀ edge ∈ graph.answer fun edge =>
      side.near edge ∈ frontier ∧ edge.edgeType ∈ safeLineage,
        side.near edge ∈ before.visitedLineage :=
    fun edge member => visited _ ((answered edge).mp member).2.1
  have expands := foldl_visit_expands settled listed near
  have found : (fun urn => ∃ edge ∈ graph.answer fun edge =>
      side.near edge ∈ frontier ∧ edge.edgeType ∈ safeLineage,
        graph.IsReadable edge ∧ urn = side.neighbor edge) =
      fun urn => ∃ via ∈ frontier, graph.Leads safeLineage side via urn := by
    funext urn
    simp only [answered, eq_iff_iff]
    cases side with
    | upstream =>
        constructor
        · rintro ⟨edge, ⟨listed, near, typed⟩, readable, rfl⟩
          exact ⟨_, near, edge, listed, typed, readable, rfl, rfl⟩
        · rintro ⟨_, near, edge, listed, typed, readable, rfl, rfl⟩
          exact ⟨edge, ⟨listed, near, typed⟩, readable, rfl⟩
    | downstream =>
        constructor
        · rintro ⟨edge, ⟨listed, near, typed⟩, readable, rfl⟩
          exact ⟨_, near, edge, listed, typed, readable, rfl, rfl⟩
        · rintro ⟨_, near, edge, listed, typed, readable, rfl, rfl⟩
          exact ⟨edge, ⟨listed, near, typed⟩, readable, rfl⟩
  exact found ▸ expands

/-- An upstream edge leads from the node to the level before it. -/
def FlowsBack (graph : TraceGraph) (safeLineage : List String) (start : Urn → Prop)
    (level : Nat) (urn : Urn) : Prop :=
  ∃ via, AtDistance (graph.Adjacent safeLineage) start level via ∧ graph.Follows safeLineage urn via

/-- After some levels: what has been visited, the next frontier and the labels. -/
structure AtLevel (graph : TraceGraph) (safeLineage : List String) (start : Urn → Prop)
    (level : Nat) (frontier : List Urn) (traversal : Traversal) : Prop where
  visited : ∀ urn, urn ∈ traversal.visitedLineage ↔
    WithinFrom (graph.Adjacent safeLineage) start level urn
  frontier : ∀ urn, urn ∈ frontier ↔ AtDistance (graph.Adjacent safeLineage) start level urn
  upstream : ∀ urn, urn ∈ traversal.urns .upstream ↔ ∃ before < level,
    AtDistance (graph.Adjacent safeLineage) start (before + 1) urn ∧
      graph.FlowsBack safeLineage start before urn
  downstream : ∀ urn, urn ∈ traversal.urns .downstream ↔ ∃ before < level,
    AtDistance (graph.Adjacent safeLineage) start (before + 1) urn ∧
      ¬ graph.FlowsBack safeLineage start before urn
  settled : graph.Settled traversal

variable {level : Nat} {frontier : List Urn} {traversal : Traversal}

theorem atDistance_next {urn : Urn} :
    AtDistance (graph.Adjacent safeLineage) start (level + 1) urn ↔
      (graph.FlowsBack safeLineage start level urn ∨
        ∃ via, AtDistance (graph.Adjacent safeLineage) start level via ∧
          graph.Follows safeLineage via urn) ∧
        ¬ WithinFrom (graph.Adjacent safeLineage) start level urn := by
  rw [atDistance_succ_iff, FlowsBack, ← exists_or]
  simp only [Adjacent, and_or_left]

/-- Expanding the frontier in both directions makes the next level. -/
theorem AtLevel.expandLevel (reached : graph.AtLevel safeLineage start level frontier traversal) :
    graph.AtLevel safeLineage start (level + 1)
      ((graph.expandLevel safeLineage [.upstream, .downstream] frontier traversal).nextFrontier
          .upstream ++
        (graph.expandLevel safeLineage [.upstream, .downstream] frontier traversal).nextFrontier
          .downstream)
      (graph.expandLevel safeLineage [.upstream, .downstream] frontier traversal) := by
  have onFrontier : ∀ urn ∈ frontier, urn ∈ traversal.visitedLineage := fun urn member =>
    (reached.visited urn).mpr ((reached.frontier urn).mp member).1
  have up := @expand_expands _ safeLineage .upstream { traversal with nextFrontier := fun _ => [] }
    frontier reached.settled onFrontier
  have down := @expand_expands _ safeLineage .downstream _ frontier up.settled
    fun urn member => (up.visited urn).mpr (.inl (onFrontier urn member))
  have back (urn : Urn) : (∃ via ∈ frontier, graph.Leads safeLineage .upstream via urn) ↔
      graph.FlowsBack safeLineage start level urn := by
    simp only [reached.frontier, Leads, FlowsBack]
  have forth (urn : Urn) : (∃ via ∈ frontier, graph.Leads safeLineage .downstream via urn) ↔
      ∃ via, AtDistance (graph.Adjacent safeLineage) start level via ∧
        graph.Follows safeLineage via urn := by
    simp only [reached.frontier, Leads]
  have visited (urn : Urn) := (down.visited urn).trans (or_congr_left (up.visited urn))
  have next (side : Side) (urn : Urn) :=
    (down.next side urn).trans (or_congr_left (up.next side urn))
  have labelled (side : Side) (urn : Urn) :=
    (down.urns side urn).trans (or_congr_left (up.urns side urn))
  simp only [back, forth, up.visited, reached.visited, List.not_mem_nil, false_or]
    at visited next labelled
  constructor
  · intro urn
    refine (visited urn).trans ?_
    rw [withinFrom_succ_iff, or_assoc, FlowsBack, ← exists_or]
    simp only [Adjacent, and_or_left]
  · intro urn
    rw [List.mem_append]
    refine (or_congr (next .upstream urn) (next .downstream urn)).trans ?_
    rw [atDistance_next]
    simp only [reduceCtorEq, false_and, or_false, false_or, true_and]
    tauto
  · intro urn
    refine (labelled .upstream urn).trans ?_
    rw [Nat.exists_lt_succ_right, reached.upstream, atDistance_next]
    simp only [reduceCtorEq, false_and, or_false, true_and]
    refine or_congr_right ⟨fun found => ⟨⟨.inl found.1, found.2⟩, found.1⟩, ?_⟩
    exact fun found => ⟨found.2, found.1.2⟩
  · intro urn
    refine (labelled .downstream urn).trans ?_
    rw [Nat.exists_lt_succ_right, reached.downstream, atDistance_next]
    simp only [reduceCtorEq, false_and, or_false, true_and, not_or]
    refine or_congr_right ⟨fun found => ⟨⟨.inr found.1, found.2.1⟩, found.2.2⟩, ?_⟩
    intro found
    obtain ⟨⟨either, fresh⟩, no⟩ := found
    exact ⟨either.resolve_left no, fresh, no⟩
  · exact down.settled

/-- Without a frontier no further level has a node. -/
theorem AtLevel.exhausted (reached : graph.AtLevel safeLineage start level frontier traversal)
    (empty : ∀ urn, ¬ AtDistance (graph.Adjacent safeLineage) start level urn) {more : Nat}
    (further : level ≤ more) : graph.AtLevel safeLineage start more [] traversal := by
  have later (before : Nat) (beyond : level ≤ before) (urn : Urn) :
      ¬ AtDistance (graph.Adjacent safeLineage) start before urn :=
    not_atDistance_of_empty empty beyond urn
  have bounded {labelled : Nat → Prop} {urn : Urn} :
      (∃ before < more, AtDistance (graph.Adjacent safeLineage) start (before + 1) urn ∧
        labelled before) ↔ ∃ before < level,
          AtDistance (graph.Adjacent safeLineage) start (before + 1) urn ∧ labelled before := by
    constructor
    · rintro ⟨before, -, distance, label⟩
      exact ⟨before, Nat.lt_of_not_le fun beyond =>
        later _ (Nat.le_succ_of_le beyond) urn distance, distance, label⟩
    · rintro ⟨before, below, distance, label⟩
      exact ⟨before, Nat.lt_of_lt_of_le below further, distance, label⟩
  constructor
  · intro urn
    rw [reached.visited]
    refine ⟨withinFrom_mono further, fun near => ?_⟩
    obtain ⟨fewest, -, distance⟩ := exists_atDistance near
    have early : fewest ≤ level := Nat.le_of_not_le fun beyond => later _ beyond urn distance
    exact withinFrom_mono early distance.1
  · intro urn
    exact iff_of_false List.not_mem_nil (later more further urn)
  · intro urn
    rw [reached.upstream, bounded]
  · intro urn
    rw [reached.downstream, bounded]
  · exact reached.settled

theorem AtLevel.traceLevels (reached : graph.AtLevel safeLineage start level frontier traversal)
    (depth : Nat) : ∃ frontier', graph.AtLevel safeLineage start (level + depth) frontier'
      (graph.traceLevels safeLineage [.upstream, .downstream] depth frontier traversal) := by
  induction depth generalizing level frontier traversal with
  | zero => exact ⟨frontier, reached⟩
  | succ depth ih =>
      rw [TraceGraph.traceLevels]
      split
      · rename_i ended
        have empty (urn : Urn) : ¬ AtDistance (graph.Adjacent safeLineage) start level urn := by
          rw [← reached.frontier, ended]
          exact List.not_mem_nil
        exact ⟨[], reached.exhausted empty (Nat.le_add_right _ _)⟩
      · have further := ih reached.expandLevel
        rwa [Nat.add_right_comm, Nat.add_assoc] at further

/-- The traced urn, or a containment child of it. -/
def IsStart (graph : TraceGraph) (safeContainment : List String) (urn node : Urn) : Prop :=
  node = urn ∨ graph.Flows safeContainment urn node

variable {safeContainment : List String} {urn node : Urn}

theorem mem_collect {nodes : List Urn} : node ∈ collect nodes urn ↔ node ∈ nodes ∨ node = urn := by
  unfold collect
  split
  · rename_i present
    exact (or_iff_left_of_imp fun same => same ▸ present).symm
  · rw [List.mem_append, List.mem_singleton]

theorem mem_foldl_collect {nodes urns : List Urn} :
    node ∈ urns.foldl collect nodes ↔ node ∈ nodes ∨ node ∈ urns := by
  induction urns generalizing nodes with
  | nil => simp
  | cons first rest ih => rw [List.foldl_cons, ih, mem_collect, List.mem_cons, or_assoc]

theorem mem_startUrns :
    node ∈ graph.startUrns safeContainment urn ↔ graph.IsStart safeContainment urn node := by
  rw [startUrns, mem_foldl_collect, List.mem_singleton, IsStart]
  refine or_congr_right ?_
  rw [List.mem_map]
  constructor
  · rintro ⟨edge, found, target⟩
    obtain ⟨listed, fits⟩ := List.mem_filter.mp ((graph.answered _).mem_iff.mp found)
    obtain ⟨source, typed⟩ := of_decide_eq_true fits
    exact ⟨edge, listed, typed, source, target⟩
  · rintro ⟨edge, listed, typed, source, target⟩
    exact ⟨edge, (graph.answered _).mem_iff.mpr
      (List.mem_filter.mpr ⟨listed, decide_eq_true ⟨source, typed⟩⟩), target⟩

theorem atLevel_start : graph.AtLevel safeLineage (graph.IsStart safeContainment urn) 0
    (graph.startUrns safeContainment urn)
    (Traversal.start (graph.startUrns safeContainment urn)) where
  visited node := mem_startUrns.trans withinFrom_zero.symm
  frontier node := mem_startUrns.trans atDistance_zero.symm
  upstream node := by simp [Traversal.start]
  downstream node := by simp [Traversal.start]
  settled edge _ present := absurd rfl present

section Labels

variable (graph) (config : ProviderConfig) (urn : Urn) (depth : Nat)
  (containmentEdges lineageEdges : List String)

/-- Every node that is called upstream has a lineage path to a start node, and every node that
is called downstream has one from a start node. -/
def TracesDirected : Prop :=
  (∀ node ∈ (graph.getTraceLineage config urn .both depth containmentEdges
      lineageEdges).upstreamUrns,
    ∃ start, graph.IsStart (containmentEdges.map config.sanitizeLabel) urn start ∧
      Relation.ReflTransGen (graph.Flows (lineageEdges.map config.sanitizeLabel)) node start) ∧
  ∀ node ∈ (graph.getTraceLineage config urn .both depth containmentEdges
      lineageEdges).downstreamUrns,
    ∃ start, graph.IsStart (containmentEdges.map config.sanitizeLabel) urn start ∧
      Relation.ReflTransGen (graph.Flows (lineageEdges.map config.sanitizeLabel)) start node

/-- A node two or more hops away from which an edge leads to a nearer level has a lineage path
to a start node, and each other one has a lineage path from a start node. -/
def TurnsNowhere (safeContainment safeLineage : List String) : Prop :=
  ∀ level, level + 2 ≤ depth → ∀ node,
    AtDistance (graph.Adjacent safeLineage) (graph.IsStart safeContainment urn) (level + 2) node →
      (graph.FlowsBack safeLineage (graph.IsStart safeContainment urn) (level + 1) node →
        ∃ start, graph.IsStart safeContainment urn start ∧
          Relation.ReflTransGen (graph.Flows safeLineage) node start) ∧
      (¬ graph.FlowsBack safeLineage (graph.IsStart safeContainment urn) (level + 1) node →
        ∃ start, graph.IsStart safeContainment urn start ∧
          Relation.ReflTransGen (graph.Flows safeLineage) start node)

end Labels

theorem Follows.flows {source target : Urn} (follows : graph.Follows safeLineage source target) :
    graph.Flows safeLineage source target := by
  obtain ⟨edge, listed, typed, _, ends⟩ := follows
  exact ⟨edge, listed, typed, ends⟩

/-- The labels of the first level are right. -/
theorem directed_of_first (begins : AtDistance (graph.Adjacent safeLineage) start 1 node) :
    (graph.FlowsBack safeLineage start 0 node →
      ∃ origin, start origin ∧ Relation.ReflTransGen (graph.Flows safeLineage) node origin) ∧
    (¬ graph.FlowsBack safeLineage start 0 node →
      ∃ origin, start origin ∧ Relation.ReflTransGen (graph.Flows safeLineage) origin node) := by
  constructor
  · rintro ⟨via, distance, follows⟩
    exact ⟨via, atDistance_zero.mp distance, .single follows.flows⟩
  · intro away
    obtain ⟨via, distance, follows⟩ := (atDistance_next.mp begins).1.resolve_left away
    exact ⟨via, atDistance_zero.mp distance, .single follows.flows⟩

theorem getTraceLineage_directed_iff (config : ProviderConfig) (urn : Urn) (depth : Nat)
    (containmentEdges lineageEdges : List String) :
    graph.TracesDirected config urn depth containmentEdges lineageEdges ↔
      graph.TurnsNowhere urn depth (containmentEdges.map config.sanitizeLabel)
        (lineageEdges.map config.sanitizeLabel) := by
  rw [TracesDirected]
  generalize lineage : lineageEdges.map config.sanitizeLabel = safeLineage
  generalize containment : containmentEdges.map config.sanitizeLabel = safeContainment
  by_cases untyped : safeLineage = []
  · subst untyped
    refine iff_of_true ?_ ?_
    · simp [getTraceLineage, lineage]
    · intro level _ node distance
      obtain ⟨via, _, _, _, typed, _⟩ | ⟨via, _, _, _, typed, _⟩ :=
        (atDistance_next.mp distance).1 <;> cases typed
  · have started : graph.AtLevel safeLineage (graph.IsStart safeContainment urn) 0
        (graph.startUrns safeContainment urn)
        (Traversal.start (graph.startUrns safeContainment urn)) := atLevel_start
    obtain ⟨_, ended⟩ := started.traceLevels depth
    rw [Nat.zero_add] at ended
    have upstream : (graph.getTraceLineage config urn .both depth containmentEdges
        lineageEdges).upstreamUrns = (graph.traceLevels safeLineage [.upstream, .downstream] depth
          (graph.startUrns safeContainment urn)
          (Traversal.start (graph.startUrns safeContainment urn))).urns .upstream := by
      simp [getTraceLineage, lineage, containment, untyped, TraceDirection.sides]
    have downstream : (graph.getTraceLineage config urn .both depth containmentEdges
        lineageEdges).downstreamUrns = (graph.traceLevels safeLineage [.upstream, .downstream] depth
          (graph.startUrns safeContainment urn)
          (Traversal.start (graph.startUrns safeContainment urn))).urns .downstream := by
      simp [getTraceLineage, lineage, containment, untyped, TraceDirection.sides]
    rw [upstream, downstream]
    constructor
    · rintro ⟨up, down⟩ level within node distance
      refine ⟨fun back => up node ?_, fun away => down node ?_⟩
      · exact (ended.upstream node).mpr ⟨level + 1, within, distance, back⟩
      · exact (ended.downstream node).mpr ⟨level + 1, within, distance, away⟩
    · intro straight
      constructor
      · intro node labelled
        obtain ⟨level, within, distance, back⟩ := (ended.upstream node).mp labelled
        cases level with
        | zero => exact (directed_of_first distance).1 back
        | succ level => exact (straight level within node distance).1 back
      · intro node labelled
        obtain ⟨level, within, distance, away⟩ := (ended.downstream node).mp labelled
        cases level with
        | zero => exact (directed_of_first distance).2 away
        | succ level => exact (straight level within node distance).2 away

end TraceGraph

/-! A node that the traced one shares an upstream neighbor with is called downstream of it. -/

def forkEdges : List LineageEdge :=
  [⟨"source", "traced", "FLOWS_TO", none⟩, ⟨"source", "sibling", "FLOWS_TO", none⟩]

def fork : TraceGraph where
  edges := forkEdges
  answer test := forkEdges.filter test
  answered _ := List.Perm.refl _
  readable _ := true
  nodes := ["source", "traced", "sibling"]
  identified := by decide

def plainConfig : ProviderConfig where
  entityTypeLevels := []
  degreeCap := 0
  upper text := text
  isAlnum := Char.isAlphanum

theorem sibling_downstream : ¬ fork.TracesDirected plainConfig "traced" 2 [] ["FLOWS_TO"] := by
  intro ⟨_, down⟩
  obtain ⟨start, begins, path⟩ := down "sibling" (by decide +kernel)
  obtain rfl : start = "traced" :=
    begins.resolve_right fun ⟨_, _, typed, _⟩ => List.not_mem_nil typed
  rcases path.cases_head with same | ⟨_, ⟨edge, listed, _, leaves, _⟩, _⟩
  · exact absurd same (by decide)
  · have sources : ∀ edge ∈ forkEdges, edge.sourceUrn ≠ "traced" := by decide
    exact sources edge listed leaves

end Univiz.Falkor

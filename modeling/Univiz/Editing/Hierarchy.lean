import Univiz.Data.Ascent
import Univiz.Editing.Conformance

namespace Univiz.Editing

open Univiz.Data

/-! What nodes contain.  A created node gets one parent, which was there before it, so the nodes
stay a forest as long as no edge is created that contains. -/

variable {α β : Type}

namespace StoredGraph

/-- `isContainment` selects the relationship types that contain. -/
def ParentOf (isContainment : String → Bool) (graph : StoredGraph α β) (child parent : NodeKey) :
    Prop :=
  ∃ type, isContainment type = true ∧ graph.Related ⟨parent, type, child⟩

structure Forest (isContainment : String → Bool) (graph : StoredGraph α β) : Prop where
  single : ∀ child parent other, graph.ParentOf isContainment child parent →
    graph.ParentOf isContainment child other → parent = other
  acyclic : ∀ node, ¬ Relation.TransGen (graph.ParentOf isContainment) node node

end StoredGraph

/-- The relationship type of the edge that a call may still create. -/
def Progress.edgeType : Progress α β → Option String
  | .reading request _ => some request.edgeType
  | .creating edge _ => some edge.edgeType
  | .writing .. | .linking .. | .replied _ => none

/-- The URN of the node that a call is about to link. -/
def Progress.unlinked : Progress α β → Option String
  | .linking node _ _ => some node.urn
  | .writing .. | .reading .. | .creating .. | .replied _ => none

/-- Two calls are not about to link one node. -/
def Progress.LinksApart (progress other : Progress α β) : Prop :=
  ∀ urn ∈ progress.unlinked, urn ∉ other.unlinked

namespace ContextEngine

variable (engine : ContextEngine β) (isContainment : String → Bool)

/-- No edge is asked for that contains. -/
def Flat : Event α β → Prop
  | .createEdge request => isContainment (engine.label request.edgeType) = false
  | .createNode .. | .updateEdge .. | .deleteEdge .. | .advance .. => True

instance : (event : Event α β) → Decidable (engine.Flat isContainment event)
  | .createEdge _ => inferInstanceAs (Decidable (_ = _))
  | .createNode .. | .updateEdge .. | .deleteEdge .. | .advance .. => isTrue trivial

/-- The nodes in the order in which they came: those of the start have rank 0, and a node that
came later is of a higher rank than its parent. -/
structure Grown (start : StoredGraph α β) (rank : NodeKey → Nat) (bound : Nat)
    (state : State α β) : Prop where
  bounded : ∀ key ∈ state.graph.nodeKeys, rank key < bound
  old : ∀ key ∈ start.nodeKeys, rank key = 0
  parents : ∀ child parent, state.graph.ParentOf isContainment child parent →
    start.ParentOf isContainment child parent ∨ rank parent < rank child
  single : ∀ child parent other, state.graph.ParentOf isContainment child parent →
    state.graph.ParentOf isContainment child other → parent = other
  flat : ∀ progress ∈ state.calls, ∀ type ∈ progress.edgeType,
    isContainment (engine.label type) = false
  unlinked : ∀ progress ∈ state.calls, ∀ urn ∈ progress.unlinked, ∀ child parent,
    child.urn = urn → ¬ state.graph.ParentOf isContainment child parent
  later : ∀ node edge warnings, .linking node edge warnings ∈ state.calls →
    ∀ parent ∈ state.graph.nodeKeys, parent.urn = edge.sourceUrn →
      rank parent < rank ⟨engine.label node.entityType, node.urn⟩
  apart : Mutually Progress.LinksApart state.calls

end ContextEngine

section Growth

variable {engine : ContextEngine β} {isContainment : String → Bool} {start : StoredGraph α β}
  {rank : NodeKey → Nat} {bound call : Nat} {graph changed : StoredGraph α β}
  {calls : List (Progress α β)} {progress : Progress α β} {key child parent : NodeKey}
  {details : α}

namespace ContextEngine.Grown

theorem set (grown : engine.Grown isContainment start rank bound ⟨graph, calls⟩)
    (flat : ∀ type ∈ progress.edgeType, isContainment (engine.label type) = false)
    (nothing : progress.unlinked = none) :
    engine.Grown isContainment start rank bound ⟨graph, calls.set call progress⟩ where
  bounded := grown.bounded
  old := grown.old
  parents := grown.parents
  single := grown.single
  flat := by
    intro other member
    rcases List.mem_or_eq_of_mem_set member with there | rfl
    · exact grown.flat other there
    · exact flat
  unlinked := by
    intro other member urn isUnlinked
    rcases List.mem_or_eq_of_mem_set member with there | rfl
    · exact grown.unlinked other there urn isUnlinked
    · rw [nothing] at isUnlinked
      cases isUnlinked
  later := by
    intro node edge warnings member
    rcases List.mem_or_eq_of_mem_set member with there | rfl
    · exact grown.later node edge warnings there
    · cases nothing
  apart := by
    apply grown.apart.set
    · intro _ other _ _ urn isUnlinked
      rw [nothing] at isUnlinked
      cases isUnlinked
    · intro _ other _ _ urn _ isUnlinked
      rw [nothing] at isUnlinked
      cases isUnlinked

theorem concat (grown : engine.Grown isContainment start rank bound ⟨graph, calls⟩)
    (flat : ∀ type ∈ progress.edgeType, isContainment (engine.label type) = false)
    (nothing : progress.unlinked = none) :
    engine.Grown isContainment start rank bound ⟨graph, calls ++ [progress]⟩ where
  bounded := grown.bounded
  old := grown.old
  parents := grown.parents
  single := grown.single
  flat := by
    intro other member
    rcases List.mem_append.mp member with there | new
    · exact grown.flat other there
    · rwa [List.mem_singleton.mp new]
  unlinked := by
    intro other member urn isUnlinked
    rcases List.mem_append.mp member with there | new
    · exact grown.unlinked other there urn isUnlinked
    · rw [List.mem_singleton.mp new, nothing] at isUnlinked
      cases isUnlinked
  later := by
    intro node edge warnings member
    rcases List.mem_append.mp member with there | new
    · exact grown.later node edge warnings there
    · rw [← List.mem_singleton.mp new] at nothing
      cases nothing
  apart := by
    apply grown.apart.concat
    · intro other _ urn isUnlinked
      rw [nothing] at isUnlinked
      cases isUnlinked
    · intro other _ urn _ isUnlinked
      rw [nothing] at isUnlinked
      cases isUnlinked

/-- Relations that contain nothing, or that are gone, change nothing. -/
theorem fewer (grown : engine.Grown isContainment start rank bound ⟨graph, calls⟩)
    (inside : changed.nodeKeys ⊆ graph.nodeKeys)
    (only : ∀ child parent, changed.ParentOf isContainment child parent →
      graph.ParentOf isContainment child parent) :
    engine.Grown isContainment start rank bound ⟨changed, calls⟩ where
  bounded := fun key member => grown.bounded key (inside member)
  old := grown.old
  parents := fun child parent above => grown.parents child parent (only child parent above)
  single := fun child parent other above above' =>
    grown.single child parent other (only child parent above) (only child other above')
  flat := grown.flat
  unlinked := fun progress member urn isUnlinked child parent isChild above =>
    grown.unlinked progress member urn isUnlinked child parent isChild (only child parent above)
  later := fun node edge warnings member parent there =>
    grown.later node edge warnings member parent (inside there)
  apart := grown.apart

theorem finish {state : State α β} {reply : Reply α β}
    (grown : engine.Grown isContainment start rank bound state)
    (inside : changed.nodeKeys ⊆ state.graph.nodeKeys)
    (only : ∀ child parent, changed.ParentOf isContainment child parent →
      state.graph.ParentOf isContainment child parent) :
    engine.Grown isContainment start rank bound (state.finish (changed, reply)) :=
  (grown.fewer inside only).concat (fun _ none => by cases none) rfl

/-- A node that is linked to its parent had none. -/
theorem link (grown : engine.Grown isContainment start rank bound ⟨graph, calls⟩)
    (inside : changed.nodeKeys ⊆ graph.nodeKeys)
    (only : ∀ node above, changed.ParentOf isContainment node above →
      graph.ParentOf isContainment node above ∨ node = child ∧ above = parent)
    (orphan : ∀ above, ¬ graph.ParentOf isContainment child above)
    (higher : rank parent < rank child)
    (alone : ∀ progress ∈ calls, child.urn ∉ progress.unlinked) :
    engine.Grown isContainment start rank bound ⟨changed, calls⟩ where
  bounded := fun key member => grown.bounded key (inside member)
  old := grown.old
  parents := by
    intro node above isAbove
    rcases only node above isAbove with there | ⟨rfl, rfl⟩
    · exact grown.parents node above there
    · exact .inr higher
  single := by
    intro node above other isAbove isAbove'
    rcases only node above isAbove with there | ⟨rfl, rfl⟩
    · rcases only node other isAbove' with there' | ⟨rfl, rfl⟩
      · exact grown.single node above other there there'
      · exact absurd there (orphan above)
    · rcases only node other isAbove' with there' | ⟨_, rfl⟩
      · exact absurd there' (orphan other)
      · rfl
  flat := grown.flat
  unlinked := by
    intro progress member urn isUnlinked node above isNode isAbove
    rcases only node above isAbove with there | ⟨rfl, rfl⟩
    · exact grown.unlinked progress member urn isUnlinked node above isNode there
    · exact alone progress member (isNode ▸ isUnlinked)
  later := fun node edge warnings member parent there =>
    grown.later node edge warnings member parent (inside there)
  apart := grown.apart

/-- A new node is of a higher rank than all that are there. -/
theorem mergeNode (grown : engine.Grown isContainment start rank bound ⟨graph, calls⟩)
    (conforms : engine.Conforms graph)
    (pending : ∀ progress ∈ calls, engine.Pending graph progress)
    (inside : start.nodeKeys ⊆ graph.nodeKeys)
    (fresh : key.urn ∉ graph.nodeKeys.map NodeKey.urn) :
    engine.Grown isContainment start (Function.update rank key bound) (bound + 1)
      ⟨graph.mergeNode key details, calls⟩ := by
  have absent : key ∉ graph.nodeKeys := fun there => fresh (List.mem_map_of_mem there)
  have kept : ∀ other ∈ graph.nodeKeys, Function.update rank key bound other = rank other := by
    intro other member
    refine Function.update_of_ne ?_ _ _
    rintro rfl
    exact absent member
  have ends : ∀ child parent, graph.ParentOf isContainment child parent →
      child ∈ graph.nodeKeys ∧ parent ∈ graph.nodeKeys := by
    rintro child parent ⟨type, _, related⟩
    exact (conforms.ends _ related).symm
  refine ⟨?_, ?_, ?_, grown.single, grown.flat, grown.unlinked, ?_, grown.apart⟩
  · intro other member
    rcases StoredGraph.mem_nodeKeys_mergeNode.mp member with there | rfl
    · rw [kept other there]
      exact Nat.lt_succ_of_lt (grown.bounded other there)
    · rw [Function.update_self]
      exact Nat.lt_succ_self _
  · intro other member
    rw [kept other (inside member)]
    exact grown.old other member
  · intro child parent above
    have ⟨childThere, parentThere⟩ := ends child parent above
    rw [kept child childThere, kept parent parentThere]
    exact grown.parents child parent above
  · intro node edge warnings member parent there isParent
    obtain ⟨linking, _, _, above, aboveThere, isAbove, _⟩ := pending _ member
    rcases StoredGraph.mem_nodeKeys_mergeNode.mp there with old | rfl
    · rw [kept _ linking, kept parent old]
      exact grown.later node edge warnings member parent old isParent
    · -- a URN that leads to a parent is not free
      exact absurd (List.mem_map.mpr ⟨above, aboveThere, isAbove.trans isParent.symm⟩) fresh

/-- The node of a call that is about to link it is alone with its URN. -/
theorem setLinking (grown : engine.Grown isContainment start rank bound ⟨graph, calls⟩)
    {node : GraphNode α} {edge : GraphEdge β} {warnings : List String}
    (orphan : ∀ child above, child.urn = node.urn → ¬ graph.ParentOf isContainment child above)
    (higher : ∀ parent ∈ graph.nodeKeys, parent.urn = edge.sourceUrn →
      rank parent < rank ⟨engine.label node.entityType, node.urn⟩)
    (alone : ∀ progress ∈ calls, node.urn ∉ progress.unlinked) :
    engine.Grown isContainment start rank bound
      ⟨graph, calls.set call (.linking node edge warnings)⟩ where
  bounded := grown.bounded
  old := grown.old
  parents := grown.parents
  single := grown.single
  flat := by
    intro other member type isType
    rcases List.mem_or_eq_of_mem_set member with there | rfl
    · exact grown.flat other there type isType
    · cases isType
  unlinked := by
    intro other member urn isUnlinked
    rcases List.mem_or_eq_of_mem_set member with there | rfl
    · exact grown.unlinked other there urn isUnlinked
    · cases isUnlinked
      exact orphan
  later := by
    intro other edge' warnings' member
    rcases List.mem_or_eq_of_mem_set member with there | same
    · exact grown.later other edge' warnings' there
    · cases same
      exact higher
  apart := by
    apply grown.apart.set
    · intro place other _ lookup urn isUnlinked isUnlinked'
      cases isUnlinked
      exact alone other (List.mem_of_getElem? lookup) isUnlinked'
    · intro place other _ lookup urn isUnlinked isUnlinked'
      cases isUnlinked'
      exact alone other (List.mem_of_getElem? lookup) isUnlinked

end ContextEngine.Grown

variable {state next : State α β} {event : Event α β} {after : Progress α β}

/-- Each query keeps the ranks, or ranks a node that it writes above all others. -/
theorem grown_advance (sound : engine.Sound ⟨graph, calls⟩) (inside : start.nodeKeys ⊆ graph.nodeKeys)
    (grown : engine.Grown isContainment start rank bound ⟨graph, calls⟩)
    (lookup : calls[call]? = some progress)
    (advances : Advances engine graph progress changed after) :
    ∃ rank bound, engine.Grown isContainment start rank bound
      ⟨changed, calls.set call after⟩ := by
  have member := List.mem_of_getElem? lookup
  have pending := sound.pending progress member
  have remaining (reply : Reply α β) (other : Progress α β)
      (inside : other ∈ calls.set call (.replied reply)) : engine.Pending graph other := by
    rcases List.mem_or_eq_of_mem_set inside with there | rfl
    · exact sound.pending other there
    · trivial
  have done (reply : Reply α β) : engine.Grown isContainment start rank bound
      ⟨graph, calls.set call (.replied reply)⟩ :=
    grown.set (fun _ none => by cases none) rfl
  cases advances with
  | wrote node edge warnings =>
      obtain ⟨_, fresh, linked⟩ := pending
      obtain ⟨_, _, above, aboveThere, isAbove, _⟩ := linked edge rfl
      let key : NodeKey := ⟨engine.label node.entityType, node.urn⟩
      have apart : ∀ other ∈ graph.nodeKeys, other.urn ≠ node.urn :=
        fun other there same => fresh (List.mem_map.mpr ⟨other, there, same⟩)
      have merged : engine.Grown isContainment start (Function.update rank key bound) (bound + 1)
          ⟨graph.mergeNode key node.details, calls.set call (.replied .raised)⟩ :=
        (done .raised).mergeNode sound.conforms (remaining .raised) inside fresh
      refine ⟨Function.update rank key bound, bound + 1, ?_⟩
      rw [← List.set_set (.replied .raised)]
      refine merged.setLinking ?_ ?_ ?_
      · rintro child parent isChild ⟨type, _, related⟩
        exact apart child (sound.conforms.ends _ related).2 isChild
      · intro parent there isParent
        rcases StoredGraph.mem_nodeKeys_mergeNode.mp there with old | rfl
        · have different : parent ≠ key := by
            rintro rfl
            exact apart _ old rfl
          rw [Function.update_of_ne different, Function.update_self]
          exact grown.bounded parent old
        · exact absurd (isAbove.trans isParent.symm) (apart above aboveThere)
      · intro other there isUnlinked
        have linking := remaining .raised other there
        cases other with
        | linking node' edge' warnings' =>
            exact apart _ linking.1 (Option.some.inj isUnlinked)
        | writing | reading | creating | replied => cases isUnlinked
  | wroteLast node containmentEdge warnings reply =>
      exact ⟨_, _, (done reply).mergeNode sound.conforms (remaining reply) inside pending.2.1⟩
  | linked node edge warnings reply =>
      obtain ⟨there, isTarget, _, parent, parentThere, isSource, _⟩ := pending
      let key : NodeKey := ⟨engine.label node.entityType, node.urn⟩
      have higher : rank parent < rank key :=
        grown.later node edge warnings member parent parentThere isSource
      refine ⟨rank, bound, (done reply).link (List.Subset.refl _) ?_ ?_ higher ?_⟩
      · rintro child above ⟨type, contains, related⟩
        rcases StoredGraph.related_mergeRelations.mp related with old | new
        · exact .inl ⟨type, contains, old⟩
        · obtain ⟨source, _, target⟩ := StoredGraph.mem_mergedKeys.mp new
          rw [← isSource, StoredGraph.named_of_unique sound.conforms.unique parentThere] at source
          rw [isTarget] at target
          have only : graph.named node.urn = [key] :=
            StoredGraph.named_of_unique sound.conforms.unique there
          rw [only] at target
          exact .inr ⟨List.mem_singleton.mp target, List.mem_singleton.mp source⟩
      · exact fun above => grown.unlinked _ member node.urn rfl key above rfl
      · intro other inside isUnlinked
        obtain ⟨place, lookup'⟩ := List.getElem?_of_mem inside
        rcases getElem?_set_cases lookup' with ⟨_, rfl⟩ | ⟨elsewhere, old⟩
        · cases isUnlinked
        · exact grown.apart _ _ _ _ lookup old elsewhere node.urn rfl isUnlinked
  | read request sourceType hex =>
      have flat := grown.flat _ member request.edgeType rfl
      refine ⟨rank, bound, ?_⟩
      unfold ContextEngine.checkEdge
      split
      · exact done _
      · exact done _
      · simp only
        split
        · refine grown.set ?_ rfl
          intro type isType
          cases isType
          exact flat
        · exact done _
  | created edge warnings reply =>
      have flat := grown.flat _ member edge.edgeType rfl
      refine ⟨rank, bound, (done reply).fewer (List.Subset.refl _) ?_⟩
      rintro child above ⟨type, contains, related⟩
      rcases StoredGraph.related_mergeRelations.mp related with old | new
      · exact ⟨type, contains, old⟩
      · obtain ⟨_, rfl, _⟩ := StoredGraph.mem_mergedKeys.mp new
        rw [flat] at contains
        cases contains
  | ended progress reply => exact ⟨rank, bound, done reply⟩

theorem grown_step (sound : engine.Sound state) (inside : start.nodeKeys ⊆ state.graph.nodeKeys)
    (grown : engine.Grown isContainment start rank bound state)
    (flat : engine.Flat isContainment event) (stepped : state.step engine event = some next) :
    (∃ rank bound, engine.Grown isContainment start rank bound next) ∧
      start.nodeKeys ⊆ next.graph.nodeKeys := by
  cases event with
  | createNode request hex =>
      cases stepped
      refine ⟨⟨rank, bound, ?_⟩, inside⟩
      rcases createNode_cases with ⟨node, containmentEdge, warnings, checked⟩ | rejected
      · rw [checked]
        exact grown.concat (fun _ none => by cases none) rfl
      · rw [rejected]
        exact grown.concat (fun _ none => by cases none) rfl
  | createEdge request =>
      cases stepped
      refine ⟨⟨rank, bound, grown.concat ?_ rfl⟩, inside⟩
      intro type isType
      cases isType
      exact flat
  | updateEdge edgeId properties outcome =>
      cases stepped
      unfold ContextEngine.updateEdge
      refine ⟨⟨rank, bound, grown.finish ?_ ?_⟩, ?_⟩
      · split <;> exact List.Subset.refl _
      · split
        · rintro child above ⟨type, contains, related⟩
          exact ⟨type, contains, StoredGraph.related_setProperties.mp related⟩
        · exact fun _ _ above => above
      · split <;> exact inside
  | deleteEdge edgeId outcome =>
      cases stepped
      unfold ContextEngine.deleteEdge
      refine ⟨⟨rank, bound, grown.finish ?_ ?_⟩, ?_⟩
      · split <;> exact List.Subset.refl _
      · split
        · rintro child above ⟨type, contains, related⟩
          exact ⟨type, contains, StoredGraph.related_of_deleteRelations related⟩
        · exact fun _ _ above => above
      · split <;> exact inside
  | advance call hex outcome =>
      obtain ⟨progress, lookup, stepped⟩ := Option.bind_eq_some_iff.mp stepped
      obtain ⟨⟨changed, after⟩, advanced, rfl⟩ := Option.map_eq_some_iff.mp stepped
      have advances := advances_of_advance advanced
      exact ⟨grown_advance sound inside grown lookup advances,
        List.Subset.trans inside (nodeKeys_advance advances).1⟩

theorem forest_of_grown (conforms : engine.Conforms start)
    (forest : start.Forest isContainment)
    (grown : engine.Grown isContainment start rank bound state) :
    state.graph.Forest isContainment where
  single := grown.single
  acyclic := by
    refine loopless_growing ?_ grown.parents forest.acyclic
    rintro child parent ⟨type, _, related⟩
    exact grown.old parent (conforms.ends _ related).1

end Growth

/-- As long as no edge is asked for that contains, nodes have one parent at most and none is above
itself, in whatever order the queries of the calls come. -/
theorem runs_stay_forests (engine : ContextEngine β) (active : engine.Active)
    (isContainment : String → Bool) (graph : StoredGraph α β) (conforms : engine.Conforms graph)
    (forest : graph.Forest isContainment) (events : List (Event α β))
    (allowed : Meets (State.step engine)
      (fun state event => engine.Draws state event ∧ engine.Flat isContainment event)
      ⟨graph, []⟩ events) :
    Always (State.step engine) (fun state => state.graph.Forest isContainment) ⟨graph, []⟩
      events := by
  let invariant (state : State α β) : Prop :=
    engine.Sound state ∧ graph.nodeKeys ⊆ state.graph.nodeKeys ∧
      ∃ rank bound, engine.Grown isContainment graph rank bound state
  have start : invariant ⟨graph, []⟩ := by
    refine ⟨⟨conforms, fun _ member => (by cases member), Mutually.nil⟩, List.Subset.refl _,
      fun _ => 0, 1, ?_⟩
    exact
      { bounded := fun _ _ => Nat.zero_lt_one
        old := fun _ _ => rfl
        parents := fun _ _ above => .inl above
        single := forest.single
        flat := fun _ member => (by cases member)
        unlinked := fun _ member => (by cases member)
        later := fun _ _ _ member => (by cases member)
        apart := Mutually.nil }
  refine always_of_meets invariant ?_ ?_ start allowed
  · rintro state event next ⟨sound, inside, rank, bound, grown⟩ ⟨draws, flat⟩ stepped
    obtain ⟨later, more⟩ := grown_step sound inside grown flat stepped
    exact ⟨sound_step active sound draws stepped, more, later⟩
  · rintro state ⟨_, _, rank, bound, grown⟩
    exact forest_of_grown conforms forest grown

theorem forest_empty {isContainment : String → Bool} :
    (StoredGraph.empty : StoredGraph α β).Forest isContainment := by
  have bare (child parent : NodeKey) :
      ¬ (StoredGraph.empty : StoredGraph α β).ParentOf isContainment child parent := by
    rintro ⟨type, _, related⟩
    exact related rfl
  refine ⟨fun child parent _ above => absurd above (bare child parent), ?_⟩
  intro node loop
  obtain ⟨above, first, _⟩ := Relation.TransGen.head'_iff.mp loop
  exact bare node above first

theorem domain_holds_datasets :
    (∃ last, run (State.step domainsEngine) ⟨StoredGraph.empty, []⟩ filling = some last ∧
      last.graph.relations.entries.map (fun entry => entry.1.type) =
        ["CONTAINS", "CONTAINS", "flows"]) ∧
    Always (State.step domainsEngine) (fun state => state.graph.Forest (· = "CONTAINS"))
      ⟨StoredGraph.empty, []⟩ filling := by
  constructor
  · exact ⟨(run (State.step domainsEngine) ⟨StoredGraph.empty, []⟩ filling).get
      (by decide +kernel), (Option.some_get _).symm, by decide +kernel⟩
  · exact runs_stay_forests domainsEngine ⟨by decide +kernel, by decide +kernel⟩ _
      StoredGraph.empty (conforms_empty _) forest_empty filling (by decide +kernel)

end Univiz.Editing

import Mathlib.Order.Bounds.Defs
import Univiz.Data.Prunings
import Univiz.Data.Trails
import Univiz.LayerTrees.Trees

namespace Univiz.TraceStore

open Univiz.Data Univiz.LayerTrees

/-! `useTraceFilteredHierarchy`: the trees of the layers while a trace is active. -/

/-- No id or urn of one node is one of the other. -/
def Apart (first second : HierarchyNode) : Prop :=
  first.label.id ≠ second.label.id ∧ first.label.id ≠ second.label.urn ∧
    first.label.urn ≠ second.label.id ∧ first.label.urn ≠ second.label.urn

instance : DecidableRel Apart := fun _ _ => inferInstanceAs (Decidable (_ ∧ _ ∧ _ ∧ _))

/-- The options of the hook, without the child map, which it does not read.  Of each drill-down
there are the urns of its nodes. -/
structure FilterOptions where
  nodesByLayer : OrderedMap String (List HierarchyNode)
  displayFlat : List HierarchyNode
  displayMap : OrderedMap String HierarchyNode
  isTracing : Bool
  traceNodes : List String
  drilldowns : OrderedMap String (List String)
  parentMap : OrderedMap String String
  expandedNodes : Finset String
  apart : (nodesByLayer.entries.flatMap fun entry => Rose.nodesAll entry.2).Pairwise Apart

structure FilterResult where
  filteredByLayer : OrderedMap String (List HierarchyNode)
  filteredFlat : List HierarchyNode
  filteredMap : OrderedMap String HierarchyNode
  contextSet : Finset String

def addWithAncestors (rounds : Nat) (parentMap : OrderedMap String String)
    (contextSet : Finset String) (id : String) : Option (Finset String) :=
  if id = "" ∨ id ∈ contextSet then some contextSet
  else
    (trail parentMap.get (fun parent => parent = "" ∨ parent ∈ contextSet) rounds [id]
      (parentMap.get id)).map fun (chain, _) => insert id (contextSet ∪ chain.toFinset)

/-- The traced urns, and those of the drill-downs. -/
def FilterOptions.seeds (options : FilterOptions) : List String :=
  options.traceNodes ++ options.drilldowns.entries.flatMap Prod.snd

def FilterOptions.contextBefore (options : FilterOptions) (rounds : Nat) :
    Option (Finset String) :=
  options.seeds.foldlM (addWithAncestors rounds options.parentMap) ∅

/-- What the pruning has written so far. -/
structure Filtering where
  contextSet : Finset String
  filteredFlat : List HierarchyNode
  filteredMap : OrderedMap String HierarchyNode

def Filtering.recordKept (filtering : Filtering) (node : HierarchyNode) : Filtering :=
  { filtering with
    filteredFlat := filtering.filteredFlat ++ [node]
    filteredMap := filtering.filteredMap.set node.label.id node }

def Filtering.addToContext (filtering : Filtering) (fields : HierarchyFields) : Filtering :=
  let contextSet := insert fields.id filtering.contextSet
  { filtering with
    contextSet :=
      if fields.urn ≠ "" ∧ fields.urn ≠ fields.id then insert fields.urn contextSet
      else contextSet }

mutual

def collectSubtree : HierarchyNode → Filtering → Filtering
  | .node fields children, filtering =>
      collectSubtrees children
        ((filtering.addToContext fields).recordKept (.node fields children))

def collectSubtrees : List HierarchyNode → Filtering → Filtering
  | [], filtering => filtering
  | child :: rest, filtering => collectSubtrees rest (collectSubtree child filtering)

end

def inContext (contextSet : Finset String) (fields : HierarchyFields) : Bool :=
  fields.id ∈ contextSet ∨ fields.urn ∈ contextSet

section Prune

variable (expandedNodes : Finset String)

mutual

def pruneTree : HierarchyNode → Filtering → Option HierarchyNode × Filtering
  | .node fields children, before =>
      let (filteredChildren, filtering) := pruneTrees children before
      let isInContext := inContext filtering.contextSet fields
      if isInContext ∧ fields.id ∈ expandedNodes ∧ filteredChildren = [] ∧ children ≠ [] then
        -- everything below it is shown as it is
        (some (.node fields children),
          (collectSubtrees children filtering).recordKept (.node fields children))
      else if ¬ isInContext ∧ filteredChildren = [] then (none, filtering)
      else
        (some (.node fields filteredChildren),
          filtering.recordKept (.node fields filteredChildren))

def pruneTrees : List HierarchyNode → Filtering → List HierarchyNode × Filtering
  | [], filtering => ([], filtering)
  | root :: rest, filtering =>
      let (kept, filtering) := pruneTree root filtering
      let (others, filtering) := pruneTrees rest filtering
      (kept.toList ++ others, filtering)

end

def filterLayer (state : OrderedMap String (List HierarchyNode) × Filtering)
    (layer : String × List HierarchyNode) :
    OrderedMap String (List HierarchyNode) × Filtering :=
  let (kept, filtering) := pruneTrees expandedNodes layer.2 state.2
  (state.1.set layer.1 kept, filtering)

end Prune

def FilterOptions.useTraceFilteredHierarchy (options : FilterOptions) (rounds : Nat) :
    Option FilterResult :=
  if options.isTracing = false ∨ options.traceNodes = [] ∧ options.drilldowns.size = 0 then
    some {
      filteredByLayer := options.nodesByLayer
      filteredFlat := options.displayFlat
      filteredMap := options.displayMap
      contextSet := ∅ }
  else
    (options.contextBefore rounds).map fun contextSet =>
      let (filteredByLayer, filtering) := options.nodesByLayer.entries.foldl
        (filterLayer options.expandedNodes) (.empty, ⟨contextSet, [], .empty⟩)
      { filteredByLayer
        filteredFlat := filtering.filteredFlat
        filteredMap := filtering.filteredMap
        contextSet := filtering.contextSet }

/-- The set has the seeds, and the parents of what it has. -/
def ClosedUnder (seeds : List String) (parent : String → Option String) (set : Set String) : Prop :=
  (∀ urn ∈ seeds, urn ∈ set) ∧ ∀ child ∈ set, ∀ above, Above parent child above → above ∈ set

/-- The parent that the walk takes, as an empty one is none. -/
def parentOf (parentMap : OrderedMap String String) (child : String) : Option String :=
  cursorAt (parentMap.get child)

variable {parentMap : OrderedMap String String} {contextSet : Finset String}

/-- What one id adds: itself and all above it. -/
theorem exists_withAncestors (id : String)
    (closed : ∀ child ∈ contextSet, ∀ above, Above (parentOf parentMap) child above →
      above ∈ contextSet) :
    ∃ after,
      (∀ more, addWithAncestors (parentMap.entries.length + 2 + more) parentMap contextSet id =
        some after) ∧
      contextSet ⊆ after ∧ (id ≠ "" → id ∈ after) ∧
      (∀ child ∈ after, ∀ above, Above (parentOf parentMap) child above → above ∈ after) ∧
      ∀ urn ∈ after, urn ∈ contextSet ∨
        id ≠ "" ∧ Relation.ReflTransGen (Above (parentOf parentMap)) id urn := by
  by_cases skipped : id = "" ∨ id ∈ contextSet
  · refine ⟨contextSet, fun more => by rw [addWithAncestors, if_pos skipped],
      Finset.Subset.refl _, fun named => skipped.resolve_left named, closed, fun _ => .inl⟩
  · obtain ⟨named, fresh⟩ := not_or.mp skipped
    let stops (parent : String) : Bool := parent = "" ∨ parent ∈ contextSet
    have known : ∀ node, parentMap.get node ≠ none → node ∈ parentMap.entries.map Prod.fst := by
      intro node climbs
      obtain ⟨above, link⟩ := Option.ne_none_iff_exists'.mp climbs
      exact List.mem_map_of_mem (OrderedMap.get_eq_some.mp link)
    obtain ⟨⟨chain, last⟩, walks⟩ : ∃ result, ∀ more, trail parentMap.get stops
        ((parentMap.entries.map Prod.fst).length + 2 + more) [id] (parentMap.get id) =
          some result := exists_trail known id
    rw [List.length_map] at walks
    have walked := trail_spec (walks 0)
    have onto (above : String) (named : above ≠ "")
        (next : above ∈ chain ∨ above ∈ [id] ∨ last = some above) :
        above ∈ insert id (contextSet ∪ chain.toFinset) := by
      simp only [Finset.mem_insert, Finset.mem_union, List.mem_toFinset]
      rcases next with member | here | isLast
      · exact .inr (.inr member)
      · exact .inl (List.mem_singleton.mp here)
      · rcases walked.ended above isLast with stopped | here | member
        · simp only [stops, decide_eq_true_eq] at stopped
          exact .inr (.inl (stopped.resolve_left named))
        · exact .inl (List.mem_singleton.mp here)
        · exact .inr (.inr member)
    refine ⟨insert id (contextSet ∪ chain.toFinset), ?_, ?_, fun _ => Finset.mem_insert_self _ _,
      ?_, ?_⟩
    · intro more
      rw [addWithAncestors, if_neg skipped]
      simp only [stops] at walks
      rw [walks, Option.map_some]
    · intro urn member
      exact Finset.mem_insert_of_mem (Finset.mem_union_left _ member)
    · intro child member above link
      obtain ⟨link', isNamed⟩ := cursorAt_eq_some.mp link
      simp only [Finset.mem_insert, Finset.mem_union, List.mem_toFinset] at member
      rcases member with rfl | old | member
      · exact onto above isNamed (walked.entered above link')
      · exact Finset.mem_insert_of_mem (Finset.mem_union_left _ (closed child old above link))
      · exact onto above isNamed (walked.closed child member above link')
    · intro urn member
      simp only [Finset.mem_insert, Finset.mem_union, List.mem_toFinset] at member
      rcases member with rfl | old | member
      · exact .inr ⟨named, .refl⟩
      · exact .inl old
      · refine .inr ⟨named, (Relation.TransGen.mono ?_ _ _ (walked.path member)).to_reflTransGen⟩
        rintro child above ⟨link, free⟩
        simp only [stops, decide_eq_false_iff_not, not_or] at free
        exact cursorAt_eq_some.mpr ⟨link, free.1⟩

theorem exists_grown (seeds : List String)
    (closed : ∀ child ∈ contextSet, ∀ above, Above (parentOf parentMap) child above →
      above ∈ contextSet) :
    ∃ after,
      (∀ more, seeds.foldlM (addWithAncestors (parentMap.entries.length + 2 + more) parentMap)
        contextSet = some after) ∧
      contextSet ⊆ after ∧ (∀ urn ∈ seeds, urn ≠ "" → urn ∈ after) ∧
      (∀ child ∈ after, ∀ above, Above (parentOf parentMap) child above → above ∈ after) ∧
      ∀ urn ∈ after, urn ∈ contextSet ∨ ∃ seed ∈ seeds,
        seed ≠ "" ∧ Relation.ReflTransGen (Above (parentOf parentMap)) seed urn := by
  induction seeds generalizing contextSet with
  | nil => exact ⟨contextSet, fun _ => rfl, Finset.Subset.refl _, nofun, closed, fun _ => .inl⟩
  | cons seed rest ih =>
      obtain ⟨next, adds, grows, named, closed', origin⟩ := exists_withAncestors seed closed
      obtain ⟨after, ran, grows', named', closed'', origin'⟩ := ih closed'
      refine ⟨after, ?_, grows.trans grows', ?_, closed'', ?_⟩
      · intro more
        rw [List.foldlM_cons, adds]
        exact ran more
      · refine List.forall_mem_cons.mpr ⟨fun isNamed => grows' (named isNamed), named'⟩
      · intro urn member
        rcases origin' urn member with old | ⟨other, inside, reached⟩
        · rcases origin urn old with old | reached
          · exact .inl old
          · exact .inr ⟨seed, List.mem_cons_self, reached⟩
        · exact .inr ⟨other, List.mem_cons_of_mem _ inside, reached⟩

/-- The context is the smallest closed set with the seeds that are not empty. -/
theorem exists_contextBefore (options : FilterOptions) : ∃ contextSet,
    (∀ more, options.contextBefore (options.parentMap.entries.length + 2 + more) =
      some contextSet) ∧
    IsLeast {set | ClosedUnder (options.seeds.filter fun urn => urn ≠ "")
      (parentOf options.parentMap) set} ↑contextSet := by
  have nothing : ∀ child ∈ (∅ : Finset String), ∀ above,
      Above (parentOf options.parentMap) child above → above ∈ (∅ : Finset String) := nofun
  obtain ⟨contextSet, ran, _, named, closed, origin⟩ := exists_grown options.seeds nothing
  refine ⟨contextSet, ran, ⟨?_, closed⟩, ?_⟩
  · intro urn member
    obtain ⟨member, isNamed⟩ := List.mem_filter.mp member
    exact named urn member (of_decide_eq_true isNamed)
  · rintro set ⟨seeds, closed⟩ urn member
    rcases origin urn member with absent | ⟨seed, inside, isNamed, path⟩
    · cases absent
    · clear member
      induction path with
      | refl => exact seeds seed (List.mem_filter.mpr ⟨inside, decide_eq_true isNamed⟩)
      | tail _ link ih => exact closed _ ih _ link

variable {filtering before after : Filtering} {expandedNodes : Finset String}
  {node tree : HierarchyNode} {others forest : List HierarchyNode}

def Names (name : String) (node : HierarchyNode) : Prop :=
  name = node.label.id ∨ name = node.label.urn

/-- Some nodes have been written as they are. -/
structure Collected (nodes : List HierarchyNode) (before after : Filtering) : Prop where
  flat : after.filteredFlat = before.filteredFlat ++ nodes
  grows : before.contextSet ⊆ after.contextSet
  named : ∀ name ∈ after.contextSet, name ∈ before.contextSet ∨ ∃ node ∈ nodes, Names name node

theorem Collected.trans {nodes more : List HierarchyNode} {last : Filtering}
    (first : Collected nodes before after) (next : Collected more after last) :
    Collected (nodes ++ more) before last where
  flat := by rw [next.flat, first.flat, List.append_assoc]
  grows := first.grows.trans next.grows
  named name member := by
    simp only [List.mem_append, or_and_right, exists_or]
    rcases next.named name member with old | new
    · rcases first.named name old with older | new
      · exact .inl older
      · exact .inr (.inl new)
    · exact .inr (.inr new)

theorem collected_node (node : HierarchyNode) : Collected [node] filtering
    ((filtering.addToContext node.label).recordKept node) := by
  refine ⟨rfl, ?_, ?_⟩
  · intro name member
    simp only [Filtering.recordKept, Filtering.addToContext]
    split
    · exact Finset.mem_insert_of_mem (Finset.mem_insert_of_mem member)
    · exact Finset.mem_insert_of_mem member
  · intro name member
    simp only [Filtering.recordKept, Filtering.addToContext] at member
    simp only [List.mem_singleton, exists_eq_left, Names]
    split at member
    · simp only [Finset.mem_insert] at member
      tauto
    · simp only [Finset.mem_insert] at member
      tauto

mutual

theorem collected_subtree (tree : HierarchyNode) (before : Filtering) :
    Collected (Rose.nodes tree) before (collectSubtree tree before) := by
  cases tree with
  | node fields children =>
      rw [collectSubtree, Rose.nodes]
      exact (collected_node (.node fields children)).trans (collected_subtrees children _)

theorem collected_subtrees (forest : List HierarchyNode) (before : Filtering) :
    Collected (Rose.nodesAll forest) before (collectSubtrees forest before) := by
  cases forest with
  | nil =>
      rw [collectSubtrees]
      exact ⟨(List.append_nil _).symm, Finset.Subset.refl _, fun _ => .inl⟩
  | cons child rest =>
      rw [collectSubtrees, Rose.nodesAll]
      exact (collected_subtree child before).trans (collected_subtrees rest _)

end

/-- The context has grown by names of some nodes. -/
structure Grown (contextSet : Finset String) (others : List HierarchyNode) (filtering : Filtering) :
    Prop where
  grows : contextSet ⊆ filtering.contextSet
  named : ∀ name ∈ filtering.contextSet, name ∈ contextSet ∨ ∃ node ∈ others, Names name node

/-- The names of other nodes say nothing about a node. -/
theorem Grown.inContext_eq (grown : Grown contextSet others filtering)
    (apart : ∀ other ∈ others, Apart other node) :
    inContext filtering.contextSet node.label = inContext contextSet node.label := by
  have old (name : String) (isName : Names name node) (member : name ∈ filtering.contextSet) :
      name ∈ contextSet := by
    refine (grown.named name member).resolve_right ?_
    rintro ⟨other, inside, isName'⟩
    obtain ⟨idId, idUrn, urnId, urnUrn⟩ := apart other inside
    rcases isName with rfl | rfl
    · rcases isName' with same | same
      · exact idId same.symm
      · exact urnId same.symm
    · rcases isName' with same | same
      · exact idUrn same.symm
      · exact urnUrn same.symm
  have same (name : String) (isName : Names name node) :
      name ∈ filtering.contextSet ↔ name ∈ contextSet :=
    ⟨old name isName, fun member => grown.grows member⟩
  simp only [inContext, same _ (.inl rfl), same _ (.inr rfl)]

theorem Apart.symm {first second : HierarchyNode} (apart : Apart first second) :
    Apart second first :=
  ⟨apart.1.symm, apart.2.2.1.symm, apart.2.1.symm, apart.2.2.2.symm⟩

/-- The nodes have been pruned, and what is kept of them has been written. -/
structure Written (contextSet : Finset String) (others nodes kept : List HierarchyNode)
    (before after : Filtering) : Prop where
  grown : Grown contextSet (others ++ nodes) after
  records : ∃ records, after.filteredFlat = before.filteredFlat ++ records ∧
    records.Perm (Rose.nodesAll kept)

theorem Written.trans {nodes more kept kept' : List HierarchyNode} {last : Filtering}
    (first : Written contextSet others nodes kept before after)
    (next : Written contextSet (others ++ nodes) more kept' after last) :
    Written contextSet others (nodes ++ more) (kept ++ kept') before last where
  grown := List.append_assoc others nodes more ▸ next.grown
  records := by
    obtain ⟨records, flat, perm⟩ := first.records
    obtain ⟨records', flat', perm'⟩ := next.records
    refine ⟨records ++ records', by rw [flat', flat, List.append_assoc], ?_⟩
    rw [Rose.nodesAll_append]
    exact perm.append perm'

/-- The filter that ignores what the pruning adds to the context. -/
def filterOf (contextSet expandedNodes : Finset String) : HierarchyNode → Option HierarchyNode :=
  Rose.prune (inContext contextSet) fun fields => fields.id ∈ expandedNodes

def filterAll (contextSet expandedNodes : Finset String) :
    List HierarchyNode → List HierarchyNode :=
  Rose.pruneAll (inContext contextSet) fun fields => fields.id ∈ expandedNodes

mutual

theorem written_tree (tree : HierarchyNode) (others : List HierarchyNode) (before : Filtering)
    (grown : Grown contextSet others before)
    (apart : (others ++ Rose.nodes tree).Pairwise Apart) :
    (pruneTree expandedNodes tree before).1 = filterOf contextSet expandedNodes tree ∧
      Written contextSet others (Rose.nodes tree) (pruneTree expandedNodes tree before).1.toList
        before (pruneTree expandedNodes tree before).2 := by
  cases tree with
  | node fields children =>
      rw [Rose.nodes] at apart
      obtain ⟨_, inside, across⟩ := List.pairwise_append.mp apart
      obtain ⟨below, _⟩ := List.pairwise_cons.mp inside
      have apartBelow : (others ++ Rose.nodesAll children).Pairwise Apart :=
        apart.sublist ((List.Sublist.refl others).append (List.sublist_cons_self _ _))
      obtain ⟨same, written⟩ := written_trees children others before grown apartBelow
      rw [pruneTree, filterOf, Rose.prune, Rose.nodes]
      rw [filterAll] at same
      generalize pruneTrees expandedNodes children before = out at same written ⊢
      obtain ⟨filteredChildren, filtering⟩ := out
      dsimp only at same written ⊢
      have apartHere (other : HierarchyNode) (member : other ∈ others ++ Rose.nodesAll children) :
          Apart other (.node fields children) := by
        rcases List.mem_append.mp member with old | under
        · exact across other old _ List.mem_cons_self
        · exact (below other under).symm
      have agrees : inContext filtering.contextSet fields = inContext contextSet fields :=
        written.grown.inContext_eq apartHere
      have further : Grown contextSet (others ++ .node fields children :: Rose.nodesAll children)
          filtering :=
        ⟨written.grown.grows, fun name member => (written.grown.named name member).imp_right
          fun ⟨node, member, isName⟩ => ⟨node, List.mem_append.mpr ((List.mem_append.mp member).imp_right
            (List.mem_cons_of_mem _)), isName⟩⟩
      obtain ⟨records, flat, perm⟩ := written.records
      simp only [agrees, ← same, decide_eq_true_eq]
      split
      · rename_i relaxed
        have collected := collected_subtrees children filtering
        have empty : records = [] := by
          rw [relaxed.2.2.1] at perm
          exact List.perm_nil.mp perm
        refine ⟨rfl, ⟨?_, ?_⟩, ?_⟩
        · exact further.grows.trans collected.grows
        · intro name member
          rcases collected.named name member with old | ⟨node, inside, isName⟩
          · exact further.named name old
          · exact .inr ⟨node, List.mem_append_right _ (List.mem_cons_of_mem _ inside), isName⟩
        · refine ⟨Rose.nodesAll children ++ [.node fields children], ?_, ?_⟩
          · simp only [Filtering.recordKept, collected.flat, flat, empty, List.append_nil,
              List.append_assoc]
          · rw [Option.toList_some, Rose.nodesAll_singleton, Rose.nodes]
            exact List.perm_append_comm
      · split
        · rename_i nothing
          refine ⟨rfl, further, records, flat, ?_⟩
          rw [nothing.2] at perm
          exact perm
        · refine ⟨rfl, ⟨further.grows, further.named⟩,
            records ++ [.node fields filteredChildren], ?_, ?_⟩
          · simp only [Filtering.recordKept, flat, List.append_assoc]
          · rw [Option.toList_some, Rose.nodesAll_singleton, Rose.nodes]
            exact List.perm_append_comm.trans (perm.cons _)

theorem written_trees (forest others : List HierarchyNode) (before : Filtering)
    (grown : Grown contextSet others before)
    (apart : (others ++ Rose.nodesAll forest).Pairwise Apart) :
    (pruneTrees expandedNodes forest before).1 = filterAll contextSet expandedNodes forest ∧
      Written contextSet others (Rose.nodesAll forest) (pruneTrees expandedNodes forest before).1
        before (pruneTrees expandedNodes forest before).2 := by
  cases forest with
  | nil =>
      refine ⟨rfl, ?_, ⟨[], (List.append_nil _).symm, .refl _⟩⟩
      rwa [Rose.nodesAll, List.append_nil]
  | cons root rest =>
      rw [Rose.nodesAll, ← List.append_assoc] at apart
      obtain ⟨same, written⟩ := written_tree root others before grown (List.pairwise_append.mp apart).1
      obtain ⟨same', written'⟩ := written_trees rest _ _ written.grown apart
      refine ⟨?_, ?_⟩
      · simp only [pruneTrees, same, same', filterAll, filterOf, Rose.pruneAll]
      · simp only [pruneTrees]
        exact written.trans written'

end

theorem written_layers (layers : List (String × List HierarchyNode)) (others : List HierarchyNode)
    (map : OrderedMap String (List HierarchyNode)) (before : Filtering)
    (grown : Grown contextSet others before)
    (apart : (others ++ layers.flatMap fun layer => Rose.nodesAll layer.2).Pairwise Apart) :
    (layers.foldl (filterLayer expandedNodes) (map, before)).1 =
        layers.foldl (fun map layer =>
          map.set layer.1 (filterAll contextSet expandedNodes layer.2)) map ∧
      Written contextSet others (layers.flatMap fun layer => Rose.nodesAll layer.2)
        (layers.flatMap fun layer => filterAll contextSet expandedNodes layer.2) before
        (layers.foldl (filterLayer expandedNodes) (map, before)).2 := by
  induction layers generalizing others map before with
  | nil =>
      refine ⟨rfl, ?_, ⟨[], (List.append_nil _).symm, .refl _⟩⟩
      rwa [List.flatMap_nil, List.append_nil]
  | cons layer rest ih =>
      rw [List.flatMap_cons, ← List.append_assoc] at apart
      let kept := filterAll contextSet expandedNodes layer.2
      let after := (pruneTrees expandedNodes layer.2 before).2
      obtain ⟨same, written⟩ : (pruneTrees expandedNodes layer.2 before).1 = kept ∧
          Written contextSet others (Rose.nodesAll layer.2)
            (pruneTrees expandedNodes layer.2 before).1 before after :=
        written_trees layer.2 others before grown (List.pairwise_append.mp apart).1
      have step : filterLayer expandedNodes (map, before) layer = (map.set layer.1 kept, after) := by
        simp only [filterLayer, same, after]
      obtain ⟨same', written'⟩ := ih _ (map.set layer.1 kept) after written.grown apart
      rw [List.foldl_cons, List.foldl_cons, step, List.flatMap_cons, List.flatMap_cons]
      rw [same] at written
      exact ⟨same', written.trans written'⟩

def nodeIds (forest : List HierarchyNode) : List String := Rose.keys HierarchyFields.id forest

/-- The hook ends with the smallest closed context, keeps a node for its own sake, for what is
below it or below a relaxed node, and lists what it keeps once. -/
def FilterOptions.Filters (options : FilterOptions) (seeds : List String)
    (parent : String → Option String) : Prop :=
  ∃ enough contextSet result,
    (∀ more, options.contextBefore (enough + more) = some contextSet ∧
      options.useTraceFilteredHierarchy (enough + more) = some result) ∧
    IsLeast {set | ClosedUnder seeds parent set} ↑contextSet ∧
    (∀ layerId forest, options.nodesByLayer.get layerId = some forest →
      ∃ kept, result.filteredByLayer.get layerId = some kept ∧
        (nodeIds kept).Sublist (nodeIds forest) ∧
        ∀ node ∈ Rose.nodesAll forest, node.label.id ∈ nodeIds kept ↔
          inContext contextSet node.label = true ∨
          (∃ below ∈ Rose.nodesAll node.children, below.label.id ∈ nodeIds kept) ∨
          ∃ above ∈ Rose.nodesAll forest, Rose.Relaxed (inContext contextSet)
            (fun fields => fields.id ∈ options.expandedNodes) above ∧
            node ∈ Rose.nodesAll above.children) ∧
    result.filteredFlat.Perm
      (result.filteredByLayer.entries.flatMap fun entry => Rose.nodesAll entry.2) ∧
    (result.filteredFlat.map fun node => node.label.id).Nodup

namespace FilterOptions

variable {options : FilterOptions} {layerId : String}

theorem distinct_ids (options : FilterOptions) :
    (options.nodesByLayer.entries.flatMap fun layer => nodeIds layer.2).Nodup := by
  have ids : ((options.nodesByLayer.entries.flatMap fun layer => Rose.nodesAll layer.2).map
      fun node => node.label.id).Nodup :=
    options.apart.map _ fun _ _ apart => apart.1
  rwa [List.map_flatMap] at ids

theorem distinct_layer (found : options.nodesByLayer.get layerId = some forest) :
    (nodeIds forest).Nodup :=
  (List.nodup_flatMap.mp options.distinct_ids).1 (layerId, forest)
    (OrderedMap.get_eq_some.mp found)

/-- What the pruning makes of the layers. -/
def pruned (options : FilterOptions) (contextSet : Finset String) :
    OrderedMap String (List HierarchyNode) × Filtering :=
  options.nodesByLayer.entries.foldl (filterLayer options.expandedNodes)
    (.empty, ⟨contextSet, [], .empty⟩)

theorem pruned_written (options : FilterOptions) (contextSet : Finset String) :
    (options.pruned contextSet).1 = options.nodesByLayer.entries.foldl (fun map layer =>
        map.set layer.1 (filterAll contextSet options.expandedNodes layer.2)) .empty ∧
      Written contextSet [] (options.nodesByLayer.entries.flatMap fun layer => Rose.nodesAll layer.2)
        (options.nodesByLayer.entries.flatMap fun layer =>
          filterAll contextSet options.expandedNodes layer.2)
        ⟨contextSet, [], .empty⟩ (options.pruned contextSet).2 :=
  written_layers _ [] .empty _ ⟨Finset.Subset.refl _, fun _ => .inl⟩ options.apart

theorem get_pruned : (options.pruned contextSet).1.get layerId =
    (options.nodesByLayer.get layerId).map (filterAll contextSet options.expandedNodes) := by
  rw [(options.pruned_written contextSet).1,
    OrderedMap.get_foldl_entries options.nodesByLayer.distinct, OrderedMap.get_empty, Option.or_none]
  rfl

/-- The flat list has the nodes of the filtered trees. -/
theorem flat_perm : (options.pruned contextSet).2.filteredFlat.Perm
    ((options.pruned contextSet).1.entries.flatMap fun entry => Rose.nodesAll entry.2) := by
  obtain ⟨records, flat, perm⟩ := (options.pruned_written contextSet).2.records
  have entries : (options.pruned contextSet).1.entries.Perm
      (options.nodesByLayer.mapValues (filterAll contextSet options.expandedNodes)).entries := by
    refine OrderedMap.entries_perm (OrderedMap.distinct _) fun key => ?_
    rw [get_pruned, ← OrderedMap.get_mapValues]
    rfl
  rw [flat, List.nil_append]
  refine perm.trans (List.Perm.trans ?_ (entries.flatMap_right _).symm)
  rw [OrderedMap.mapValues, List.flatMap_map, Rose.nodesAll_eq_flatMap, List.flatMap_assoc]
  simp only [Rose.nodesAll_eq_flatMap]
  exact .refl _

theorem distinct_flat (options : FilterOptions) (contextSet : Finset String) :
    ((options.pruned contextSet).2.filteredFlat.map fun node => node.label.id).Nodup := by
  obtain ⟨records, flat, perm⟩ := (options.pruned_written contextSet).2.records
  rw [flat, List.nil_append]
  refine (perm.map _).nodup_iff.mpr ?_
  rw [Rose.nodesAll_eq_flatMap, List.flatMap_assoc, List.map_flatMap]
  refine options.distinct_ids.sublist (List.Sublist.flatMap_right _ fun layer _ => ?_)
  rw [← Rose.nodesAll_eq_flatMap]
  exact Rose.keys_pruneAll_sublist layer.2

/-- The hook is on: it traces, and there is a traced urn or a drill-down. -/
def Tracing (options : FilterOptions) : Prop :=
  options.isTracing = true ∧ (options.traceNodes ≠ [] ∨ options.drilldowns.size ≠ 0)

theorem useTraceFilteredHierarchy_eq {rounds : Nat} (tracing : options.Tracing)
    (ran : options.contextBefore rounds = some contextSet) :
    options.useTraceFilteredHierarchy rounds = some {
      filteredByLayer := (options.pruned contextSet).1
      filteredFlat := (options.pruned contextSet).2.filteredFlat
      filteredMap := (options.pruned contextSet).2.filteredMap
      contextSet := (options.pruned contextSet).2.contextSet } := by
  have isOn : ¬ (options.isTracing = false ∨
      options.traceNodes = [] ∧ options.drilldowns.size = 0) := by
    rintro (off | ⟨noTraced, noDrilled⟩)
    · rw [tracing.1] at off
      cases off
    · exact tracing.2.elim (· noTraced) (· noDrilled)
  rw [useTraceFilteredHierarchy, if_neg isOn, ran]
  rfl

/-- With empty urns taken for none. -/
theorem useTraceFilteredHierarchy_exact (options : FilterOptions) (tracing : options.Tracing) :
    options.Filters (options.seeds.filter fun urn => urn ≠ "") (parentOf options.parentMap) := by
  obtain ⟨contextSet, ran, least⟩ := exists_contextBefore options
  refine ⟨_, contextSet, _, fun more =>
    ⟨ran more, useTraceFilteredHierarchy_eq tracing (ran more)⟩, least, ?_, flat_perm,
    options.distinct_flat contextSet⟩
  intro layerId forest found
  refine ⟨filterAll contextSet options.expandedNodes forest, ?_, Rose.keys_pruneAll_sublist forest,
    ?_⟩
  · rw [get_pruned, found, Option.map_some]
  · intro node member
    exact Rose.mem_pruned_cases (distinct_layer found) member

end FilterOptions

def sampleFields (id urn : String) : HierarchyFields :=
  ⟨id, none, id, 0, urn, "", [], false⟩

/-- The traced column is in a table of a domain, and the drill-down is at a view that is
expanded.  Neither column of the view is traced. -/
def tracedForest : FilterOptions where
  nodesByLayer := (OrderedMap.empty.set "source" [
    .node (sampleFields "domain" "urn:domain") [
      .node (sampleFields "table" "urn:table") [
        .node (sampleFields "traced" "urn:traced") [],
        .node (sampleFields "sibling" "urn:sibling") []],
      .node (sampleFields "other" "urn:other") [
        .node (sampleFields "cousin" "urn:cousin") []]]]).set "target" [
    .node (sampleFields "view" "urn:view") [
      .node (sampleFields "first" "urn:first") [],
      .node (sampleFields "second" "urn:second") []]]
  displayFlat := []
  displayMap := .empty
  isTracing := true
  traceNodes := ["urn:traced"]
  drilldowns := OrderedMap.empty.set "drill" ["urn:view"]
  parentMap := ((OrderedMap.empty.set "urn:traced" "urn:table").set "urn:table" "urn:domain").set
    "urn:cousin" "urn:other"
  expandedNodes := {"table", "view"}
  apart := by decide +kernel

/-- The walk adds the table and the domain; the other table and the sibling of the column are
pruned; the view keeps its columns. -/
theorem tracedForest_filters :
    tracedForest.Filters (tracedForest.seeds.filter fun urn => urn ≠ "")
      (parentOf tracedForest.parentMap) ∧
    (tracedForest.useTraceFilteredHierarchy 9).map (fun result =>
        result.filteredFlat.map fun node => node.label.id) =
      some ["traced", "table", "domain", "first", "second", "view"] :=
  ⟨tracedForest.useTraceFilteredHierarchy_exact ⟨rfl, .inl nofun⟩, by decide +kernel⟩

/-- One node in one layer, with some traced urns. -/
def singleNode (traceNodes : List String) : FilterOptions where
  nodesByLayer := OrderedMap.empty.set "layer" [.node ⟨"a", none, "A", 0, "urn", "", [], false⟩ []]
  displayFlat := [.node ⟨"a", none, "A", 0, "urn", "", [], false⟩ []]
  displayMap := OrderedMap.empty.set "a" (.node ⟨"a", none, "A", 0, "urn", "", [], false⟩ [])
  isTracing := true
  traceNodes := traceNodes
  drilldowns := .empty
  parentMap := .empty
  expandedNodes := ∅
  apart := List.pairwise_singleton _ _

/-- Without a traced urn the node is passed on, although the context is empty. -/
theorem singleNode_untraced :
    ¬ (singleNode []).Filters (singleNode []).seeds (singleNode []).parentMap.get := by
  rintro ⟨enough, contextSet, result, ran, _, kept, _⟩
  obtain ⟨before, ended⟩ := ran 0
  cases before
  cases ended
  obtain ⟨forest, found, _, exact'⟩ := kept "layer" _ rfl
  cases found
  have shown := (exact' _ List.mem_cons_self).mp List.mem_cons_self
  rcases shown with isIn | ⟨below, member, _⟩ | ⟨above, member, relaxed, _⟩
  · revert isIn
    decide
  · cases member
  · cases List.mem_singleton.mp member
    have isMarked := relaxed.isMarked
    revert isMarked
    decide

end Univiz.TraceStore

import Univiz.Assignment.Rules
import Univiz.Data.Cycle
import Univiz.Data.Filling

namespace Univiz.Assignment

open Univiz.Data

/-! The layer of an entity is that of the nearest instance assignment, at itself or above, or the
one that the rules choose for the topmost entity. -/

variable {runtime : Runtime} {layers : List ViewLayerConfig} {layer : ViewLayerConfig}
  {index : RuleIndex} {node : GraphNode} {nodes others : List GraphNode}
  {edges : List GraphEdge} {types : List String} {parentMap : OrderedMap String String}
  {urn child parent layerId : String}

namespace Runtime

/-- The child and the parent that an edge links. -/
def ends (runtime : Runtime) (edge : GraphEdge) : String × String :=
  if runtime.upper edge.edgeType = "BELONGS_TO" then (edge.sourceUrn, edge.targetUrn)
  else (edge.targetUrn, edge.sourceUrn)

/-- Some containment edge leads from the parent to the child. -/
def ContainedIn (runtime : Runtime) (types : List String) (edges : List GraphEdge)
    (child parent : String) : Prop :=
  ∃ edge ∈ edges, runtime.upper edge.edgeType ∈ types.map runtime.upper ∧
    runtime.ends edge = (child, parent)

theorem addParent_eq {edge : GraphEdge} : runtime.addParent types parentMap edge =
    if runtime.upper edge.edgeType ∈ types then
      parentMap.set (runtime.ends edge).1 (runtime.ends edge).2
    else parentMap := by
  rw [addParent, ends, ite_not]
  congr 1
  split <;> rfl

theorem containedIn_of_get
    (linked : (runtime.buildParentCache edges (some types)).get child = some parent) :
    runtime.ContainedIn types edges child parent := by
  let sound : OrderedMap String String → Prop := fun parentMap =>
    ∀ child parent, parentMap.get child = some parent →
      runtime.ContainedIn types edges child parent
  suffices holds : sound (runtime.buildParentCache edges (some types)) from holds _ _ linked
  apply List.foldlRecOn edges _ (motive := sound)
  · rintro child parent ⟨⟩
  · intro parentMap known edge member child parent linked
    rw [addParent_eq] at linked
    split at linked
    · rename_i contains
      rw [OrderedMap.get_set] at linked
      split at linked
      · rename_i here
        exact ⟨edge, member, contains, Prod.ext here (Option.some.inj linked)⟩
      · exact known child parent linked
    · exact known child parent linked

end Runtime

def Linked (parentMap : OrderedMap String String) (child parent : String) : Prop :=
  parentMap.get child = some parent

/-- What has been visited elsewhere has no part in the walk. -/
theorem ancestorsFrom_congr (loopless : ∀ urn, ¬ Relation.TransGen (Linked parentMap) urn urn)
    (urn : String) : ∀ visited others : List String,
      (∀ seen ∈ visited, ¬ Relation.ReflTransGen (Linked parentMap) urn seen) →
      (∀ seen ∈ others, ¬ Relation.ReflTransGen (Linked parentMap) urn seen) →
      ancestorsFrom parentMap visited urn = ancestorsFrom parentMap others urn := by
  have finite : {urn | urn ∈ parentMap.entries.map Prod.snd}.Finite := List.finite_toSet _
  apply induction_of_loopless (fun urn => ∀ visited others : List String,
    (∀ seen ∈ visited, ¬ Relation.ReflTransGen (Linked parentMap) urn seen) →
    (∀ seen ∈ others, ¬ Relation.ReflTransGen (Linked parentMap) urn seen) →
    ancestorsFrom parentMap visited urn = ancestorsFrom parentMap others urn) finite ?_ loopless
  · intro urn ih visited others apart otherApart
    have onward {parent : String} (linked : Linked parentMap urn parent) {visited : List String}
        (apart : ∀ seen ∈ visited, ¬ Relation.ReflTransGen (Linked parentMap) urn seen) :
        ∀ seen ∈ urn :: visited, ¬ Relation.ReflTransGen (Linked parentMap) parent seen := by
      intro seen member path
      obtain rfl | member := List.mem_cons.mp member
      · exact loopless seen (.head' linked path)
      · exact apart seen member (.head linked path)
    rw [ancestorsFrom, ancestorsFrom]
    split
    · rfl
    · rename_i parent linked
      have fresh : urn ∉ visited := fun seen => apart urn seen .refl
      have otherFresh : urn ∉ others := fun seen => otherApart urn seen .refl
      rw [dif_neg fresh, dif_neg otherFresh]
      rw [ih parent linked _ _ (onward linked apart) (onward linked otherApart)]
  · intro child parent linked
    exact List.mem_map.mpr ⟨_, OrderedMap.get_eq_some.mp linked, rfl⟩

/-- A child is one step further from the top than its parent. -/
theorem length_getAncestors (loopless : ∀ urn, ¬ Relation.TransGen (Linked parentMap) urn urn)
    (linked : Linked parentMap child parent) :
    (getAncestors parentMap child).length = (getAncestors parentMap parent).length + 1 := by
  have known : parentMap.get child = some parent := linked
  have walked : getAncestors parentMap child =
      parent :: ancestorsFrom parentMap [child] parent := by
    rw [getAncestors, ancestorsFrom]
    split
    · rename_i unlinked
      cases known.symm.trans unlinked
    · rename_i above here
      cases known.symm.trans here
      rw [dif_neg List.not_mem_nil]
  rw [walked, List.length_cons, getAncestors]
  congr 2
  apply ancestorsFrom_congr loopless
  · intro seen member path
    rw [List.mem_singleton] at member
    exact loopless seen (.head' (member ▸ linked) path)
  · simp

/-- The parent that the engine inherits from. -/
def parentLink (parentMap : OrderedMap String String) (urn : String) : Option String :=
  (parentMap.get urn).filter fun parent => parent ≠ ""

theorem parentLink_eq_some :
    parentLink parentMap child = some parent ↔ Linked parentMap child parent ∧ parent ≠ "" := by
  simp [parentLink, Linked, Option.filter_eq_some_iff]

def resolveFrom (parentMap : OrderedMap String String) (index : RuleIndex)
    (layers : List ViewLayerConfig) (node : GraphNode) (above : Option EntityAssignment) :
    Option EntityAssignment :=
  resolveAssignment node (parentMap.get node.urn) above index layers

/-- One round of the engine, on the assignments alone. -/
theorem assignNode_fst (progress : OrderedMap String EntityAssignment × List String) :
    (assignNode parentMap index layers progress node).1 =
      fill GraphNode.urn (parentLink parentMap) (resolveFrom parentMap index layers) progress.1
        node := by
  have same : resolveFrom parentMap index layers node
      (inherited (parentLink parentMap) progress.1 node.urn) =
        resolveAssignment node (parentMap.get node.urn)
          (((parentMap.get node.urn).filter fun parent => parent ≠ "").bind progress.1.get)
          index layers := rfl
  rw [assignNode, fill, same]
  cases resolveAssignment node (parentMap.get node.urn)
    (((parentMap.get node.urn).filter fun parent => parent ≠ "").bind progress.1.get)
    index layers with
  | some assignment => rfl
  | none => rfl

/-- The layer of the rule with the highest priority that takes a node, or the first layer. -/
def Runtime.ChosenByRule (runtime : Runtime) (layers : List ViewLayerConfig) (node : GraphNode)
    (layerId : String) : Prop :=
  (∃ layer ∈ layers, ∃ rule, runtime.Offers layer node rule ∧ layerId = layer.id ∧
    ∀ other ∈ layers, ∀ weaker, runtime.Offers other node weaker →
      weaker.priority ≤ rule.priority) ∨
  ((∀ layer ∈ layers, ∀ rule, ¬ runtime.Offers layer node rule) ∧
    ∃ first, layers.head? = some first ∧ layerId = first.id)

theorem Runtime.ChosenByRule.of_layer (chosen : runtime.ChosenByRule layers node layerId) :
    ∃ layer ∈ layers, layerId = layer.id := by
  obtain ⟨layer, listed, _, _, same, _⟩ | ⟨_, first, isFirst, same⟩ := chosen
  · exact ⟨layer, listed, same⟩
  · exact ⟨first, List.mem_of_mem_head? isFirst, same⟩

variable {parentId : Option String} {above : Option EntityAssignment}

/-- Without an instance assignment and with nothing to inherit the rules choose. -/
theorem resolveAssignment_chosen (layered : layers ≠ [])
    (unplaced : instanceOf layers node.urn = none)
    (alone : (above.filter fun assignment => assignment.layerId ≠ "unassigned") = none) :
    ∃ assignment, resolveAssignment node parentId above (runtime.buildRuleIndex layers) layers =
      some assignment ∧ runtime.ChosenByRule layers node assignment.layerId := by
  rw [resolveAssignment, Runtime.get_instances, unplaced, alone]
  cases arranged : byPriority.arrange ((runtime.buildRuleIndex layers).candidates node) with
  | cons winner rest =>
      obtain ⟨member, highest⟩ := byPriority.head_greatest arranged
      obtain ⟨layer, listed, offered, same⟩ := Runtime.mem_candidates.mp member
      refine ⟨_, rfl, .inl ⟨layer, listed, winner.rule, offered, same, ?_⟩⟩
      intro other otherListed weaker otherOffered
      exact highest ⟨other.id, weaker⟩
        (Runtime.mem_candidates.mpr ⟨other, otherListed, otherOffered, rfl⟩)
  | nil =>
      have empty := byPriority.arrange_eq_nil_iff.mp arranged
      obtain ⟨first, rest, rfl⟩ := List.exists_cons_of_ne_nil layered
      refine ⟨_, rfl, .inr ⟨?_, first, rfl, rfl⟩⟩
      intro layer listed rule offered
      have member : (⟨layer.id, rule⟩ : Candidate) ∈
          (runtime.buildRuleIndex (first :: rest)).candidates node :=
        Runtime.mem_candidates.mpr ⟨layer, listed, offered, rfl⟩
      rw [empty] at member
      cases member

theorem resolveAssignment_placed {config : EntityAssignmentConfig}
    (placed : instanceOf layers node.urn = some (layerId, config)) :
    ∃ assignment, resolveAssignment node parentId above (runtime.buildRuleIndex layers) layers =
      some assignment ∧ assignment.layerId = layerId := by
  rw [resolveAssignment, Runtime.get_instances, placed]
  exact ⟨_, rfl, rfl⟩

theorem resolveAssignment_inherits {given : EntityAssignment}
    (unplaced : instanceOf layers node.urn = none)
    (offered : (above.filter fun assignment => assignment.layerId ≠ "unassigned") = some given) :
    ∃ assignment, resolveAssignment node parentId above (runtime.buildRuleIndex layers) layers =
      some assignment ∧ assignment.layerId = given.layerId := by
  rw [resolveAssignment, Runtime.get_instances, unplaced, offered]
  exact ⟨_, rfl, rfl⟩

theorem exists_resolveAssignment (layered : layers ≠ []) :
    ∃ assignment, resolveAssignment node parentId above (runtime.buildRuleIndex layers) layers =
      some assignment := by
  cases placed : instanceOf layers node.urn with
  | some placement =>
      obtain ⟨layerId, config⟩ := placement
      obtain ⟨assignment, resolved, _⟩ := resolveAssignment_placed placed
      exact ⟨assignment, resolved⟩
  | none =>
      cases offered : above.filter fun assignment => assignment.layerId ≠ "unassigned" with
      | some given =>
          obtain ⟨assignment, resolved, _⟩ := resolveAssignment_inherits placed offered
          exact ⟨assignment, resolved⟩
      | none =>
          obtain ⟨assignment, resolved, _⟩ := resolveAssignment_chosen layered placed offered
          exact ⟨assignment, resolved⟩

/-- With layers there is no entity that has no assignment. -/
theorem assignNode_snd (layered : layers ≠ [])
    (progress : OrderedMap String EntityAssignment × List String) (node : GraphNode) :
    (assignNode parentMap (runtime.buildRuleIndex layers) layers progress node).2 = progress.2 := by
  rw [assignNode]
  obtain ⟨assignment, resolved⟩ := exists_resolveAssignment layered
  rw [resolved]

/-- A parent link that stays inside the list of nodes. -/
def Inside (parentMap : OrderedMap String String) (nodes : List GraphNode)
    (child parent : String) : Prop :=
  Linked parentMap child parent ∧ parent ∈ nodes.map GraphNode.urn

/-- One to a parent with a name. -/
def Followed (parentMap : OrderedMap String String) (nodes : List GraphNode)
    (child parent : String) : Prop :=
  Inside parentMap nodes child parent ∧ parent ≠ ""

/-- The layer of the nearest instance assignment, at the entity or above, or, if there is none,
the one that the rules choose for the topmost node. -/
def NearestLayer (runtime : Runtime) (layers : List ViewLayerConfig) (nodes : List GraphNode)
    (step : String → String → Prop) (urn layerId : String) : Prop :=
  ∃ source, Relation.ReflTransGen
      (fun child parent => instanceOf layers child = none ∧ step child parent) urn source ∧
    ((∃ config, instanceOf layers source = some (layerId, config)) ∨
      (instanceOf layers source = none ∧ (∀ parent, ¬ step source parent) ∧
        ∃ node ∈ nodes, node.urn = source ∧ runtime.ChosenByRule layers node layerId))

theorem NearestLayer.of_layer {step : String → String → Prop}
    (nearest : NearestLayer runtime layers nodes step urn layerId) :
    ∃ layer ∈ layers, layerId = layer.id := by
  obtain ⟨source, _, ⟨config, placed⟩ | ⟨_, _, node, _, _, chosen⟩⟩ := nearest
  · exact mem_of_instanceOf placed
  · exact chosen.of_layer

theorem inherited_of_followed {table : OrderedMap String EntityAssignment}
    (followed : Followed parentMap nodes child parent) :
    inherited (parentLink parentMap) table child = table.get parent := by
  rw [inherited, parentLink_eq_some.mpr ⟨followed.1.1, followed.2⟩, Option.bind_some]

/-- The topmost entity inherits nothing: its parent, if any, is no node or has no name. -/
theorem inherited_of_topmost {table : OrderedMap String EntityAssignment}
    (only : ∀ urn, urn ∉ nodes.map GraphNode.urn → table.get urn = none)
    (topmost : ∀ parent, ¬ Followed parentMap nodes child parent) :
    inherited (parentLink parentMap) table child = none := by
  rw [inherited]
  cases link : parentLink parentMap child with
  | none => rfl
  | some parent =>
      obtain ⟨linked, nonempty⟩ := parentLink_eq_some.mp link
      apply only
      intro present
      exact topmost parent ⟨⟨linked, present⟩, nonempty⟩

/-- What a filled table has for the nodes. -/
theorem nearest_of_isFilled {table : OrderedMap String EntityAssignment}
    (layered : layers ≠ []) (named : ∀ layer ∈ layers, layer.id ≠ "unassigned")
    (loopless : ∀ urn, ¬ Relation.TransGen (Linked parentMap) urn urn)
    (filled : IsFilled GraphNode.urn (parentLink parentMap)
      (resolveFrom parentMap (runtime.buildRuleIndex layers) layers) nodes table)
    (urn : String) : ∀ node ∈ nodes, node.urn = urn →
      ∃ assignment, table.get urn = some assignment ∧
        NearestLayer runtime layers nodes (Followed parentMap nodes) urn assignment.layerId := by
  have finite : {urn | urn ∈ nodes.map GraphNode.urn}.Finite := List.finite_toSet _
  have inside (child parent : String) (followed : Followed parentMap nodes child parent) :
      parent ∈ {urn | urn ∈ nodes.map GraphNode.urn} := followed.1.2
  have noLoop (urn : String) : ¬ Relation.TransGen (Followed parentMap nodes) urn urn :=
    fun loop => loopless urn (loop.lift id fun _ _ followed => followed.1.1)
  apply induction_of_loopless (fun urn => ∀ node ∈ nodes, node.urn = urn →
    ∃ assignment, table.get urn = some assignment ∧
      NearestLayer runtime layers nodes (Followed parentMap nodes) urn assignment.layerId)
    finite inside noLoop
  rintro _ ih node member rfl
  rw [filled.entry node member, resolveFrom]
  cases placed : instanceOf layers node.urn with
  | some placement =>
      obtain ⟨layerId, config⟩ := placement
      obtain ⟨assignment, resolved, rfl⟩ := resolveAssignment_placed placed
      exact ⟨assignment, resolved, node.urn, .refl, .inl ⟨config, placed⟩⟩
  | none =>
      by_cases linked : ∃ parent, Followed parentMap nodes node.urn parent
      · obtain ⟨parent, followed⟩ := linked
        obtain ⟨above, aboveMember, same⟩ := List.mem_map.mp followed.1.2
        obtain ⟨given, found, nearest⟩ := ih parent followed above aboveMember same
        obtain ⟨layer, listed, isLayer⟩ := nearest.of_layer
        have offered : ((inherited (parentLink parentMap) table node.urn).filter
            fun assignment => assignment.layerId ≠ "unassigned") = some given := by
          rw [inherited_of_followed followed, found]
          exact Option.filter_some_pos (decide_eq_true (isLayer ▸ named layer listed))
        obtain ⟨assignment, resolved, kept⟩ := resolveAssignment_inherits placed offered
        obtain ⟨source, path, ends⟩ := nearest
        exact ⟨assignment, resolved, source, .head ⟨placed, followed⟩ path, kept ▸ ends⟩
      · have topmost := not_exists.mp linked
        rw [inherited_of_topmost filled.only topmost]
        obtain ⟨assignment, resolved, chosen⟩ : ∃ assignment, resolveAssignment node
            (parentMap.get node.urn) none (runtime.buildRuleIndex layers) layers =
              some assignment ∧ runtime.ChosenByRule layers node assignment.layerId :=
          resolveAssignment_chosen layered placed rfl
        exact ⟨assignment, resolved, node.urn, .refl,
          .inr ⟨placed, topmost, node, member, rfl, chosen⟩⟩

theorem pairwise_nodesByDepth : (nodesByDepth parentMap nodes).Pairwise fun node later =>
    depth parentMap node ≤ depth parentMap later := by
  have total : Std.Total fun node later => depth parentMap node ≤ depth parentMap later :=
    ⟨fun _ _ => Nat.le_total _ _⟩
  have trans : IsTrans GraphNode fun node later => depth parentMap node ≤ depth parentMap later :=
    ⟨fun _ _ _ => Nat.le_trans⟩
  exact List.pairwise_insertionSort _ nodes

theorem ranked_resolveFrom (loopless : ∀ urn, ¬ Relation.TransGen (Linked parentMap) urn urn)
    (alike : ∀ node ∈ nodes, ∀ twin ∈ nodes, node.urn = twin.urn → node = twin) :
    Ranked GraphNode.urn (parentLink parentMap) (resolveFrom parentMap index layers)
      (fun urn => (getAncestors parentMap urn).length) nodes where
  alike node member twin twinMember same := by rw [alike node member twin twinMember same]
  below node _ above _ linked := by
    rw [length_getAncestors loopless (parentLink_eq_some.mp linked).1]
    exact Nat.lt_succ_self _

/-- As the parents come before their children, the loop fills the table. -/
theorem isFilled_assignNode (loopless : ∀ urn, ¬ Relation.TransGen (Linked parentMap) urn urn)
    (alike : ∀ node ∈ nodes, ∀ twin ∈ nodes, node.urn = twin.urn → node = twin) :
    IsFilled GraphNode.urn (parentLink parentMap) (resolveFrom parentMap index layers) nodes
      ((nodesByDepth parentMap nodes).foldl (assignNode parentMap index layers)
        (OrderedMap.empty, [])).1 := by
  have ranked : Ranked GraphNode.urn (parentLink parentMap) (resolveFrom parentMap index layers)
      (fun urn => (getAncestors parentMap urn).length) nodes := ranked_resolveFrom loopless alike
  have permuted : (nodesByDepth parentMap nodes).Perm nodes := List.perm_insertionSort _ nodes
  have same : ((nodesByDepth parentMap nodes).foldl (assignNode parentMap index layers)
      (OrderedMap.empty, [])).1 = (nodesByDepth parentMap nodes).foldl (fill GraphNode.urn
        (parentLink parentMap) (resolveFrom parentMap index layers)) OrderedMap.empty :=
    (List.foldl_hom Prod.fst fun progress node => (assignNode_fst progress).symm).symm
  rw [same]
  exact (isFilled_foldl (ranked.subset permuted.subset) pairwise_nodesByDepth).congr
    permuted.symm

/-- The same result, whatever the order in which the assignments are listed. -/
structure LayerAssignmentResult.Agrees (result other : LayerAssignmentResult) : Prop where
  assignments : ∀ urn, result.assignments.get urn = other.assignments.get urn
  parentMap : result.parentMap = other.parentMap
  edges : result.edges = other.edges
  unassigned : result.unassignedEntityIds = other.unassignedEntityIds
  stats : result.stats = other.stats

variable (runtime : Runtime) (types : List String) (request : LayerAssignmentRequest)
  (nodes : List GraphNode) (edges : List GraphEdge)

/-- Every node has an assignment, to the layer of the nearest instance assignment above it, or
else to the one of the topmost node. -/
def AssignsNearest (follows : OrderedMap String String → List GraphNode → String → String → Prop) :
    Prop :=
  let result := computeAssignments runtime types request nodes edges
  ∀ node ∈ nodes, ∃ assignment, result.assignments.get node.urn = some assignment ∧
    NearestLayer runtime request.layers nodes (follows result.parentMap nodes) node.urn
      assignment.layerId

def IgnoresOrder : Prop :=
  ∀ others : List GraphNode, others.Perm nodes →
    (computeAssignments runtime types request nodes edges).Agrees
      (computeAssignments runtime types request others edges)

/-- Containment has no cycles, and there are layers, none of which is called "unassigned". -/
structure Layered : Prop where
  acyclic : ∀ urn, ¬ Relation.TransGen (runtime.ContainedIn types edges) urn urn
  layered : request.layers ≠ []
  named : ∀ layer ∈ request.layers, layer.id ≠ "unassigned"

variable {runtime types request nodes edges}

theorem Layered.loopless (layered : Layered runtime types request edges) (urn : String) :
    ¬ Relation.TransGen (Linked (runtime.buildParentCache edges (some types))) urn urn :=
  fun loop => layered.acyclic urn
    (loop.lift id fun _ _ linked => Runtime.containedIn_of_get linked)

theorem computeAssignments_nearest (layered : Layered runtime types request edges)
    (alike : ∀ node ∈ nodes, ∀ twin ∈ nodes, node.urn = twin.urn → node = twin) :
    AssignsNearest runtime types request nodes edges Followed ∧
      IgnoresOrder runtime types request nodes edges := by
  constructor
  · intro node member
    exact nearest_of_isFilled layered.layered layered.named layered.loopless
      (isFilled_assignNode layered.loopless alike) node.urn node member rfl
  · intro others permuted
    have otherAlike : ∀ node ∈ others, ∀ twin ∈ others, node.urn = twin.urn → node = twin := by
      intro node member twin twinMember
      exact alike node (permuted.subset member) twin (permuted.subset twinMember)
    have same (urn : String) :
        (computeAssignments runtime types request nodes edges).assignments.get urn =
          (computeAssignments runtime types request others edges).assignments.get urn :=
      (isFilled_assignNode layered.loopless alike).get_eq
        (ranked_resolveFrom layered.loopless alike)
        ((isFilled_assignNode layered.loopless otherAlike).congr permuted.symm) urn
    have complete (nodes : List GraphNode) :
        (computeAssignments runtime types request nodes edges).unassignedEntityIds = [] :=
      foldl_unchanged Prod.snd (assignNode_snd layered.layered)
    constructor
    · exact same
    · rfl
    · rfl
    · rw [complete, complete]
    · have sizes := (OrderedMap.get_eq_iff.mpr same).1
      simp only [computeAssignments, permuted.length_eq] at sizes ⊢
      rw [sizes]

/-- Python on ASCII texts, where no rule has a pattern. -/
def Runtime.ascii : Runtime where
  upper text := String.ofList (text.toList.map Char.toUpper)
  compile _ := none

/-- A view with two layers, of which the second has one entity of its own. -/
def twoLayers (entityId : String) : LayerAssignmentRequest where
  layers := [
    { id := "layer_1", entityTypes := some ["table"], rules := none, entityAssignments := none },
    { id := "layer_2", entityTypes := some ["report"], rules := none,
      entityAssignments := some [{ entityId := entityId, logicalNodeId := none }] }]
  includeEdges := true

theorem twoLayers_layered {schema table entityId : String} (apart : schema ≠ table) :
    Layered Runtime.ascii ["contains"] (twoLayers entityId) [⟨schema, table, "CONTAINS"⟩] where
  acyclic urn loop := by
    have ends {child parent : String} (contained : Runtime.ascii.ContainedIn ["contains"]
        [⟨schema, table, "CONTAINS"⟩] child parent) : table = child ∧ schema = parent := by
      obtain ⟨edge, member, _, same⟩ := contained
      rw [List.mem_singleton] at member
      subst member
      have kept : Runtime.ascii.ends ⟨schema, table, "CONTAINS"⟩ = (table, schema) :=
        if_neg (by decide : ¬ Runtime.ascii.upper "CONTAINS" = "BELONGS_TO")
      exact Prod.mk.inj (kept.symm.trans same)
    obtain ⟨_, down, _⟩ := Relation.TransGen.head'_iff.mp loop
    obtain ⟨_, _, up⟩ := Relation.TransGen.tail'_iff.mp loop
    exact apart ((ends up).2.trans (ends down).1.symm)
  layered := List.cons_ne_nil _ _
  named := by
    intro layer listed
    obtain rfl | listed := List.mem_cons.mp listed
    · decide
    · obtain rfl := List.mem_singleton.mp listed
      exact (by decide : "layer_2" ≠ "unassigned")

theorem computeAssignments_nearest_table :
    Layered Runtime.ascii ["contains"] (twoLayers "s") [⟨"s", "t", "CONTAINS"⟩] ∧
      AssignsNearest Runtime.ascii ["contains"] (twoLayers "s")
        [⟨"t", "table", []⟩, ⟨"s", "schema", []⟩] [⟨"s", "t", "CONTAINS"⟩] Followed ∧
      IgnoresOrder Runtime.ascii ["contains"] (twoLayers "s")
        [⟨"t", "table", []⟩, ⟨"s", "schema", []⟩] [⟨"s", "t", "CONTAINS"⟩] :=
  ⟨twoLayers_layered (by decide), computeAssignments_nearest (twoLayers_layered (by decide))
    (by decide)⟩

/-- A table in a schema without a URN. -/
def unnamedSchema : List GraphNode := [⟨"t", "table", []⟩, ⟨"", "schema", []⟩]

/-- Two entities of different types with one URN. -/
def twins : List GraphNode := [⟨"t", "table", []⟩, ⟨"t", "report", []⟩]

/-- The table does not inherit from the schema that the second layer has. -/
theorem unnamedSchema_ignored : ¬ AssignsNearest Runtime.ascii ["contains"] (twoLayers "")
    unnamedSchema [⟨"", "t", "CONTAINS"⟩] Inside := by
  intro nearest
  obtain ⟨assignment, found, source, path, ends⟩ := nearest ⟨"t", "table", []⟩ List.mem_cons_self
  have first : assignment.layerId = "layer_1" := by
    have byType : ((computeAssignments Runtime.ascii ["contains"] (twoLayers "") unnamedSchema
        [⟨"", "t", "CONTAINS"⟩]).assignments.get "t").map (·.layerId) = some "layer_1" := by
      decide +kernel
    rw [found] at byType
    exact Option.some.inj byType
  have link : (Runtime.ascii.buildParentCache [⟨"", "t", "CONTAINS"⟩] (some ["contains"])).get
      "t" = some "" := by decide
  have inside : Inside (Runtime.ascii.buildParentCache [⟨"", "t", "CONTAINS"⟩]
      (some ["contains"])) unnamedSchema "t" "" := ⟨link, by decide⟩
  obtain rfl | ⟨parent, ⟨_, followed⟩, onward⟩ := path.cases_head
  · obtain ⟨config, placed⟩ | ⟨_, topmost, _⟩ := ends
    · cases placed
    · exact topmost "" inside
  · obtain rfl : "" = parent := Option.some.inj (link.symm.trans followed.1)
    obtain rfl | ⟨_, ⟨unplaced, _⟩, _⟩ := onward.cases_head
    · obtain ⟨config, placed⟩ | ⟨unplaced, _⟩ := ends
      · rw [first] at placed
        have same : some "layer_2" = some "layer_1" := congrArg (Option.map Prod.fst) placed
        exact absurd same (by decide)
      · cases unplaced
    · cases unplaced

theorem twins_ordered : ¬ IgnoresOrder Runtime.ascii ["contains"] (twoLayers "s") twins
    [⟨"s", "t", "CONTAINS"⟩] := by
  intro ignores
  have same := (ignores twins.reverse (List.reverse_perm twins)).assignments "t"
  revert same
  decide +kernel

theorem unnamed_or_twin :
    (Layered Runtime.ascii ["contains"] (twoLayers "") [⟨"", "t", "CONTAINS"⟩] ∧
      ¬ AssignsNearest Runtime.ascii ["contains"] (twoLayers "") unnamedSchema
        [⟨"", "t", "CONTAINS"⟩] Inside) ∧
    Layered Runtime.ascii ["contains"] (twoLayers "s") [⟨"s", "t", "CONTAINS"⟩] ∧
      ¬ IgnoresOrder Runtime.ascii ["contains"] (twoLayers "s") twins [⟨"s", "t", "CONTAINS"⟩] :=
  ⟨⟨twoLayers_layered (by decide), unnamedSchema_ignored⟩, twoLayers_layered (by decide),
    twins_ordered⟩

end Univiz.Assignment

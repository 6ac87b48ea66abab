import Univiz.Data.Exclusion
import Univiz.Editing.Engine

namespace Univiz.Editing

open Univiz.Data
open Univiz.Resolver (OntologyData ResolvedOntology canonicalType containmentErrors endpointErrors
  knownTypesUpper relById resolveOntology validateNodeMutation validateEdgeMutation)

/-! What the ontology lets into a graph, and that nothing else gets in. -/

variable {α β : Type}

namespace ContextEngine

variable (engine : ContextEngine β)

/-- The type under which the ontology knows what a request names. -/
def canonical (type : String) : String :=
  (canonicalType engine.texts.toRuntime engine.ontology type).1

/-- Some spelling of a type of the ontology has the label. -/
def Creatable (nodeLabel : String) : Prop :=
  ∃ type, engine.label type = nodeLabel ∧ engine.canonical type ∈ engine.ontology.knownTypes

/-- The parent has a definition that names no children, or this one. -/
def MayContain (parentLabel childLabel : String) : Prop :=
  ∃ parentDef, engine.ontology.entityTypeDefinitions.get parentLabel = some parentDef ∧
    ∃ type, engine.label type = childLabel ∧ engine.canonical type ∈ engine.ontology.knownTypes ∧
      (parentDef.hierarchy.canContain = [] ∨
        engine.canonical type ∈ parentDef.hierarchy.canContain)

/-- A relationship of the ontology takes the nodes at its ends. -/
def MayRelate (sourceLabel relationType targetLabel : String) : Prop :=
  ∃ edgeType relDef, engine.label edgeType = relationType ∧
    (relById engine.texts.toRuntime engine.ontology).get (engine.texts.upper edgeType) =
      some relDef ∧
    (relDef.sourceTypes = [] ∨ sourceLabel ∈ relDef.sourceTypes) ∧
    (relDef.targetTypes = [] ∨ targetLabel ∈ relDef.targetTypes)

def Allows (sourceLabel relationType targetLabel : String) : Prop :=
  engine.MayRelate sourceLabel relationType targetLabel ∨
    relationType = engine.label engine.containmentType ∧ engine.MayContain sourceLabel targetLabel

/-- URNs tell the nodes apart, nothing dangles, and what there is the ontology allows. -/
structure Conforms (graph : StoredGraph α β) : Prop where
  unique : (graph.nodeKeys.map NodeKey.urn).Nodup
  creatable : ∀ key ∈ graph.nodeKeys, engine.Creatable key.label
  ends : ∀ key, graph.Related key → key.source ∈ graph.nodeKeys ∧ key.target ∈ graph.nodeKeys
  allowed : ∀ key, graph.Related key →
    engine.Allows key.source.label key.type key.target.label

/-- Without definitions everything is let in. -/
structure Active : Prop where
  entities : engine.ontology.entityTypeDefinitions.entries ≠ []
  relationships : engine.ontology.relationshipTypeDefinitions.entries ≠ []

end ContextEngine

section Checks

variable {engine : ContextEngine β} {type parent hex : String} {node : GraphNode α}
  {containmentEdge : Option (GraphEdge β)} {edge : GraphEdge β} {warnings : List String}

theorem mem_knownTypes_of_upper {upper found : String}
    (entered : (knownTypesUpper engine.texts.toRuntime engine.ontology).get upper = some found) :
    found ∈ engine.ontology.knownTypes := by
  have values (types : List String) (known : OrderedMap String String)
      (inside : ∀ key value, known.get key = some value → value ∈ engine.ontology.knownTypes)
      (all : ∀ type ∈ types, type ∈ engine.ontology.knownTypes) (key value : String)
      (entered : (types.foldl (fun known type => known.set (engine.texts.upper type) type)
        known).get key = some value) : value ∈ engine.ontology.knownTypes := by
    induction types generalizing known with
    | nil => exact inside key value entered
    | cons first rest ih =>
        obtain ⟨here, later⟩ := List.forall_mem_cons.mp all
        refine ih _ ?_ later entered
        intro key value entered
        rw [OrderedMap.get_set] at entered
        split at entered
        · cases entered
          exact here
        · exact inside key value entered
  refine values _ _ (fun _ _ empty => by cases empty) ?_ _ _ entered
  intro type member
  exact (engine.texts.setOrder_perm _).mem_iff.mp member

theorem canonical_known_of_clean
    (clean : (canonicalType engine.texts.toRuntime engine.ontology type).2.1 = []) :
    engine.canonical type ∈ engine.ontology.knownTypes := by
  rw [ContextEngine.canonical]
  unfold canonicalType at clean ⊢
  split
  · assumption
  · rename_i unknown
    rw [if_neg unknown] at clean
    split
    · rename_i found entered
      exact mem_knownTypes_of_upper (Option.filter_eq_some_iff.mp entered).1
    · rename_i missing
      rw [missing] at clean
      cases clean

theorem errors_of_ok {errors : List String}
    (ok : (if errors ≠ [] then Resolver.MutationResult.failure errors warnings
      else .success warnings).ok = true) : errors = [] := by
  by_contra some
  rw [if_pos some] at ok
  cases ok

theorem validate_create_ok {parentType : Option String} (active : engine.Active)
    (ok : (validateNodeMutation engine.texts.toRuntime engine.ontology .create type parentType
      none).ok = true) :
    engine.canonical type ∈ engine.ontology.knownTypes ∧ ∀ parent ∈ parentType,
      containmentErrors engine.texts.toRuntime engine.ontology parent (engine.canonical type) =
        [] := by
  simp only [validateNodeMutation, if_neg active.entities] at ok
  have clean := errors_of_ok ok
  cases parentType with
  | none => exact ⟨canonical_known_of_clean clean, fun _ none => by cases none⟩
  | some parent =>
      by_cases known : engine.canonical type ∈ engine.ontology.knownTypes
      · rw [ContextEngine.canonical] at known
        simp only [if_pos known, List.append_eq_nil_iff] at clean
        refine ⟨known, ?_⟩
        intro other isParent
        cases isParent
        exact clean.2
      · have unknown := known
        rw [ContextEngine.canonical] at unknown
        simp only [if_neg unknown] at clean
        exact absurd (canonical_known_of_clean clean) known

theorem mayContain_of_clean (known : engine.canonical type ∈ engine.ontology.knownTypes)
    (clean : containmentErrors engine.texts.toRuntime engine.ontology parent
      (engine.canonical type) = []) : engine.MayContain parent (engine.label type) := by
  unfold containmentErrors at clean
  split at clean
  · cases clean
  · rename_i parentDef found
    refine ⟨parentDef, found, type, rfl, known, ?_⟩
    by_contra excluded
    rw [not_or] at excluded
    rw [if_pos excluded] at clean
    cases clean

/-- A node that is about to be written is new to the graph and may have the parent that it is to
be linked to. -/
theorem checkNode_writing {request : CreateNodeRequest α} {parentType : Option (String × String)}
    (active : engine.Active)
    (checked : engine.checkNode request hex parentType = .writing node containmentEdge warnings) :
    node = ⟨engine.makeUrn request.entityType hex, request.entityType, request.details⟩ ∧
      engine.Creatable (engine.label request.entityType) ∧
      ∀ edge ∈ containmentEdge, ∃ parent ∈ parentType,
        edge = engine.containmentEdge parent.1 node.urn ∧
          engine.MayContain parent.2 (engine.label request.entityType) := by
  simp only [ContextEngine.checkNode] at checked
  split at checked
  · rename_i ok
    obtain ⟨known, clean⟩ := validate_create_ok active ok
    obtain ⟨rfl, rfl, -⟩ := Progress.writing.inj checked
    refine ⟨rfl, ⟨_, rfl, known⟩, ?_⟩
    intro edge isEdge
    obtain ⟨parent, isParent, rfl⟩ := Option.map_eq_some_iff.mp isEdge
    obtain rfl := (Option.filter_eq_some_iff.mp isParent).1
    exact ⟨parent, rfl, rfl, mayContain_of_clean known (clean _ rfl)⟩
  · cases checked

theorem createNode_writing {graph : StoredGraph α β} {request : CreateNodeRequest α}
    (active : engine.Active)
    (checked : engine.createNode graph request hex = .writing node containmentEdge warnings) :
    node = ⟨engine.makeUrn request.entityType hex, request.entityType, request.details⟩ ∧
      engine.Creatable (engine.label request.entityType) ∧
      ∀ edge ∈ containmentEdge, ∃ parent ∈ graph.nodeKeys,
        edge = engine.containmentEdge parent.urn node.urn ∧
          engine.MayContain parent.label (engine.label request.entityType) := by
  unfold ContextEngine.createNode at checked
  split at checked
  · obtain ⟨isNode, creatable, linked⟩ := checkNode_writing active checked
    refine ⟨isNode, creatable, ?_⟩
    intro edge isEdge
    obtain ⟨_, none, _⟩ := linked edge isEdge
    cases none
  · split at checked
    · cases checked
    · rename_i parentType found
      obtain ⟨isNode, creatable, linked⟩ := checkNode_writing active checked
      refine ⟨isNode, creatable, ?_⟩
      intro edge isEdge
      obtain ⟨parent, isParent, isContainment, mayContain⟩ := linked edge isEdge
      cases isParent
      obtain ⟨key, member, rfl, rfl⟩ := StoredGraph.getNode_eq_some found
      exact ⟨key, member, isContainment, mayContain⟩

theorem createNode_cases {graph : StoredGraph α β} {request : CreateNodeRequest α} :
    (∃ node containmentEdge warnings,
      engine.createNode graph request hex = .writing node containmentEdge warnings) ∨
    engine.createNode graph request hex = .replied .raised := by
  have checks (parent : Option (String × String)) :
      (∃ node containmentEdge warnings,
        engine.checkNode request hex parent = .writing node containmentEdge warnings) ∨
      engine.checkNode request hex parent = .replied .raised := by
    simp only [ContextEngine.checkNode]
    split
    · exact .inl ⟨_, _, _, rfl⟩
    · exact .inr rfl
  unfold ContextEngine.createNode
  split
  · exact checks none
  · split
    · exact .inr rfl
    · exact checks _

theorem endpoints_of_clean {relDef : Resolver.RelationshipTypeDefEntry} {edgeType source target :
    String} (clean : endpointErrors engine.texts.toRuntime relDef edgeType source target = []) :
    (relDef.sourceTypes = [] ∨ source ∈ relDef.sourceTypes) ∧
      (relDef.targetTypes = [] ∨ target ∈ relDef.targetTypes) := by
  obtain ⟨first, second⟩ := List.append_eq_nil_iff.mp clean
  constructor
  · by_contra excluded
    rw [if_pos (not_or.mp excluded)] at first
    cases first
  · by_contra excluded
    rw [if_pos (not_or.mp excluded)] at second
    cases second

theorem checkEdge_creating {request : CreateEdgeRequest β} {sourceType targetType : Option String}
    (active : engine.Active) (checked : (engine.checkEdge request hex sourceType targetType :
      Progress α β) = .creating edge warnings) :
    edge = request.toEdge hex ∧ ∃ source ∈ sourceType, ∃ target ∈ targetType,
      engine.MayRelate source (engine.label request.edgeType) target := by
  cases sourceType with
  | none => cases checked
  | some source =>
      cases targetType with
      | none => cases checked
      | some target =>
          simp only [ContextEngine.checkEdge] at checked
          split at checked
          · rename_i ok
            obtain ⟨rfl, -⟩ := Progress.creating.inj checked
            refine ⟨rfl, source, rfl, target, rfl, ?_⟩
            simp only [validateEdgeMutation, if_neg active.relationships] at ok
            rw [if_neg (by decide)] at ok
            have clean := errors_of_ok ok
            split at clean
            · cases clean
            · rename_i relDef found
              exact ⟨request.edgeType, relDef, rfl, found, endpoints_of_clean clean⟩
          · cases checked

theorem checkEdge_cases (engine : ContextEngine β) {request : CreateEdgeRequest β}
    {sourceType targetType : Option String} :
    (∃ edge warnings, (engine.checkEdge request hex sourceType targetType : Progress α β) =
      .creating edge warnings) ∨
    ∃ result, (engine.checkEdge request hex sourceType targetType : Progress α β) =
      .replied (.edge result) := by
  cases sourceType with
  | none => exact .inr ⟨_, rfl⟩
  | some source =>
      cases targetType with
      | none => exact .inr ⟨_, rfl⟩
      | some target =>
          simp only [ContextEngine.checkEdge]
          split
          · exact .inl ⟨_, _, rfl⟩
          · exact .inr ⟨_, rfl⟩

end Checks

section Changes

variable {engine : ContextEngine β} {graph : StoredGraph α β} {key : NodeKey} {details : α}
  {sourceUrn targetUrn type edgeId : String} {write : Option (Relation β) → Relation β}

namespace ContextEngine.Conforms

theorem mergeNode (conforms : engine.Conforms graph) (creatable : engine.Creatable key.label)
    (fresh : key.urn ∉ graph.nodeKeys.map NodeKey.urn) :
    engine.Conforms (graph.mergeNode key details) where
  unique := by
    have absent : key ∉ graph.nodeKeys := fun there => fresh (List.mem_map_of_mem there)
    rw [StoredGraph.nodeKeys_mergeNode_of_fresh absent, List.map_append, List.map_singleton]
    exact List.nodup_append_comm.mp (List.nodup_cons.mpr ⟨fresh, conforms.unique⟩)
  creatable := by
    intro other member
    rcases StoredGraph.mem_nodeKeys_mergeNode.mp member with old | rfl
    · exact conforms.creatable other old
    · exact creatable
  ends := by
    intro relation related
    have ⟨source, target⟩ := conforms.ends relation related
    exact ⟨StoredGraph.mem_nodeKeys_mergeNode.mpr (.inl source),
      StoredGraph.mem_nodeKeys_mergeNode.mpr (.inl target)⟩
  allowed := conforms.allowed

theorem mergeRelations (conforms : engine.Conforms graph)
    (allowed : ∀ source ∈ graph.named sourceUrn, ∀ target ∈ graph.named targetUrn,
      engine.Allows source.label type target.label) :
    engine.Conforms (graph.mergeRelations sourceUrn type targetUrn write) where
  unique := conforms.unique
  creatable := conforms.creatable
  ends := by
    intro relation related
    rcases StoredGraph.related_mergeRelations.mp related with old | new
    · exact conforms.ends relation old
    · obtain ⟨source, _, target⟩ := StoredGraph.mem_mergedKeys.mp new
      exact ⟨(StoredGraph.mem_named.mp source).1, (StoredGraph.mem_named.mp target).1⟩
  allowed := by
    intro relation related
    rcases StoredGraph.related_mergeRelations.mp related with old | new
    · exact conforms.allowed relation old
    · obtain ⟨source, isType, target⟩ := StoredGraph.mem_mergedKeys.mp new
      rw [isType]
      exact allowed relation.source source relation.target target

theorem setProperties (conforms : engine.Conforms graph) {properties : β} :
    engine.Conforms (graph.setProperties edgeId properties) where
  unique := conforms.unique
  creatable := conforms.creatable
  ends key related := conforms.ends key (StoredGraph.related_setProperties.mp related)
  allowed key related := conforms.allowed key (StoredGraph.related_setProperties.mp related)

theorem deleteRelations (conforms : engine.Conforms graph) :
    engine.Conforms (graph.deleteRelations edgeId) where
  unique := conforms.unique
  creatable := conforms.creatable
  ends key related := conforms.ends key (StoredGraph.related_of_deleteRelations related)
  allowed key related := conforms.allowed key (StoredGraph.related_of_deleteRelations related)

end ContextEngine.Conforms

end Changes

/-- The URN of the node that a call is about to write. -/
def Progress.reserved : Progress α β → Option String
  | .writing node _ _ => some node.urn
  | .linking .. | .reading .. | .creating .. | .replied _ => none

/-- Two calls are not about to write nodes with one URN. -/
def Progress.Apart (progress other : Progress α β) : Prop :=
  ∀ urn ∈ progress.reserved, urn ∉ other.reserved

namespace ContextEngine

variable (engine : ContextEngine β)

/-- The edge links the node to one that may contain it. -/
def Links (graph : StoredGraph α β) (node : GraphNode α) (edge : GraphEdge β) : Prop :=
  edge.targetUrn = node.urn ∧ edge.edgeType = engine.containmentType ∧
    ∃ parent ∈ graph.nodeKeys, parent.urn = edge.sourceUrn ∧
      engine.MayContain parent.label (engine.label node.entityType)

/-- What a call has found out still holds of the graph. -/
def Pending (graph : StoredGraph α β) : Progress α β → Prop
  | .writing node containmentEdge _ =>
      engine.Creatable (engine.label node.entityType) ∧
        node.urn ∉ graph.nodeKeys.map NodeKey.urn ∧
        ∀ edge ∈ containmentEdge, engine.Links graph node edge
  | .linking node edge _ =>
      ⟨engine.label node.entityType, node.urn⟩ ∈ graph.nodeKeys ∧ engine.Links graph node edge
  | .reading request sourceType =>
      ∀ source ∈ sourceType, ⟨source, request.sourceUrn⟩ ∈ graph.nodeKeys
  | .creating edge _ =>
      ∃ source ∈ graph.nodeKeys, source.urn = edge.sourceUrn ∧
        ∃ target ∈ graph.nodeKeys, target.urn = edge.targetUrn ∧
          engine.MayRelate source.label (engine.label edge.edgeType) target.label
  | .replied _ => True

structure Sound (state : State α β) : Prop where
  conforms : engine.Conforms state.graph
  pending : ∀ progress ∈ state.calls, engine.Pending state.graph progress
  apart : Mutually Progress.Apart state.calls

/-- The URN of a new node is drawn so that no node has it and no other call is about to write
one with it. -/
def Draws (state : State α β) : Event α β → Prop
  | .createNode request hex =>
      engine.makeUrn request.entityType hex ∉ state.graph.nodeKeys.map NodeKey.urn ∧
        ∀ progress ∈ state.calls,
          engine.makeUrn request.entityType hex ∉ progress.reserved
  | .createEdge _ | .updateEdge .. | .deleteEdge .. | .advance .. => True

end ContextEngine

instance (engine : ContextEngine β) (state : State α β) :
    (event : Event α β) → Decidable (engine.Draws state event)
  | .createNode _ _ => inferInstanceAs (Decidable (_ ∧ ∀ progress ∈ state.calls, _))
  | .createEdge _ | .updateEdge .. | .deleteEdge .. | .advance .. => isTrue trivial

section Steps

variable {engine : ContextEngine β} {graph changed : StoredGraph α β} {progress : Progress α β}
  {state next : State α β} {event : Event α β}

/-- Nodes stay, so what calls have found out is still so while the graph grows. -/
theorem pending_grow (pending : engine.Pending graph progress)
    (more : graph.nodeKeys ⊆ changed.nodeKeys)
    (fresh : ∀ urn ∈ progress.reserved, urn ∉ changed.nodeKeys.map NodeKey.urn) :
    engine.Pending changed progress := by
  have links {node : GraphNode α} {edge : GraphEdge β} (old : engine.Links graph node edge) :
      engine.Links changed node edge := by
    obtain ⟨target, type, parent, member, rest⟩ := old
    exact ⟨target, type, parent, more member, rest⟩
  cases progress with
  | writing node containmentEdge warnings =>
      obtain ⟨creatable, _, linked⟩ := pending
      exact ⟨creatable, fresh _ rfl, fun edge isEdge => links (linked edge isEdge)⟩
  | linking node edge warnings => exact ⟨more pending.1, links pending.2⟩
  | reading request sourceType => exact fun source isSource => more (pending source isSource)
  | creating edge warnings =>
      obtain ⟨source, member, isSource, target, member', isTarget, related⟩ := pending
      exact ⟨source, more member, isSource, target, more member', isTarget, related⟩
  | replied reply => trivial

theorem pending_same (pending : engine.Pending graph progress)
    (same : changed.nodeKeys = graph.nodeKeys) : engine.Pending changed progress := by
  refine pending_grow pending (same ▸ List.Subset.refl _) ?_
  intro urn isReserved
  rw [same]
  cases progress with
  | writing node containmentEdge warnings =>
      cases isReserved
      exact pending.2.1
  | linking | reading | creating | replied => cases isReserved

/-- The nodes that a link matches are the two that it was checked for. -/
theorem conforms_linkNode (conforms : engine.Conforms graph) {node : GraphNode α}
    {edge : GraphEdge β} (there : ⟨engine.label node.entityType, node.urn⟩ ∈ graph.nodeKeys)
    (links : engine.Links graph node edge) :
    engine.Conforms (graph.linkNode (engine.label edge.edgeType) edge) := by
  obtain ⟨isTarget, isType, parent, member, isSource, mayContain⟩ := links
  apply conforms.mergeRelations
  intro source named target named'
  rw [← isSource, StoredGraph.named_of_unique conforms.unique member] at named
  rw [isTarget] at named'
  rw [StoredGraph.named_of_unique conforms.unique there] at named'
  rw [List.mem_singleton.mp named, List.mem_singleton.mp named', isType]
  exact .inr ⟨rfl, mayContain⟩

theorem conforms_createEdge (conforms : engine.Conforms graph) {edge : GraphEdge β}
    {warnings : List String} (pending : engine.Pending graph (.creating edge warnings)) :
    engine.Conforms (graph.createEdge (engine.label edge.edgeType) edge) := by
  obtain ⟨source, member, isSource, target, member', isTarget, related⟩ := pending
  apply conforms.mergeRelations
  intro source' named target' named'
  rw [← isSource, StoredGraph.named_of_unique conforms.unique member] at named
  rw [← isTarget, StoredGraph.named_of_unique conforms.unique member'] at named'
  rw [List.mem_singleton.mp named, List.mem_singleton.mp named']
  exact .inl related

/-- What a query of a call can do to the graph, and where the call is after it. -/
inductive Advances (engine : ContextEngine β) (graph : StoredGraph α β) :
    Progress α β → StoredGraph α β → Progress α β → Prop
  | wrote (node : GraphNode α) (edge : GraphEdge β) (warnings : List String) :
      Advances engine graph (.writing node (some edge) warnings)
        (graph.mergeNode ⟨engine.label node.entityType, node.urn⟩ node.details)
        (.linking node edge warnings)
  | wroteLast (node : GraphNode α) (containmentEdge : Option (GraphEdge β))
      (warnings : List String) (reply : Reply α β) :
      Advances engine graph (.writing node containmentEdge warnings)
        (graph.mergeNode ⟨engine.label node.entityType, node.urn⟩ node.details) (.replied reply)
  | linked (node : GraphNode α) (edge : GraphEdge β) (warnings : List String)
      (reply : Reply α β) :
      Advances engine graph (.linking node edge warnings)
        (graph.linkNode (engine.label edge.edgeType) edge) (.replied reply)
  | read (request : CreateEdgeRequest β) (sourceType : Option String) (hex : String) :
      Advances engine graph (.reading request sourceType) graph
        (engine.checkEdge request hex sourceType (graph.getNode request.targetUrn))
  | created (edge : GraphEdge β) (warnings : List String) (reply : Reply α β) :
      Advances engine graph (.creating edge warnings)
        (graph.createEdge (engine.label edge.edgeType) edge) (.replied reply)
  | ended (progress : Progress α β) (reply : Reply α β) :
      Advances engine graph progress graph (.replied reply)

theorem advances_of_advance {hex : String} {outcome : Outcome} {after : Progress α β}
    (advanced : engine.advance graph hex outcome progress = some (changed, after)) :
    Advances engine graph progress changed after := by
  cases progress with
  | writing node containmentEdge warnings =>
      cases outcome with
      | returned =>
          cases containmentEdge with
          | none =>
              cases advanced
              exact .wroteLast node none warnings _
          | some edge =>
              cases advanced
              exact .wrote node edge warnings
      | raised applied =>
          cases advanced
          cases applied with
          | true => exact .wroteLast node containmentEdge warnings _
          | false => exact .ended _ _
  | linking node edge warnings =>
      cases outcome with
      | returned =>
          cases advanced
          exact .linked node edge warnings _
      | raised applied =>
          cases advanced
          cases applied with
          | true => exact .linked node edge warnings _
          | false => exact .ended _ _
  | reading request sourceType =>
      cases outcome with
      | returned =>
          cases advanced
          exact .read request sourceType hex
      | raised applied =>
          cases advanced
          exact .ended _ _
  | creating edge warnings =>
      cases advanced
      cases outcome.applied with
      | true => exact .created edge warnings _
      | false => exact .ended _ _
  | replied reply => cases advanced

theorem conforms_advance (active : engine.Active) {after : Progress α β}
    (conforms : engine.Conforms graph) (pending : engine.Pending graph progress)
    (advances : Advances engine graph progress changed after) :
    engine.Conforms changed ∧ engine.Pending changed after := by
  cases advances with
  | wrote node edge warnings =>
      obtain ⟨creatable, fresh, linked⟩ := pending
      obtain ⟨target, type, parent, member, rest⟩ := linked edge rfl
      exact ⟨conforms.mergeNode creatable fresh,
        StoredGraph.mem_nodeKeys_mergeNode.mpr (.inr rfl), target, type, parent,
        StoredGraph.mem_nodeKeys_mergeNode.mpr (.inl member), rest⟩
  | wroteLast node containmentEdge warnings reply =>
      exact ⟨conforms.mergeNode pending.1 pending.2.1, trivial⟩
  | linked node edge warnings reply =>
      exact ⟨conforms_linkNode conforms pending.1 pending.2, trivial⟩
  | read request sourceType hex =>
      refine ⟨conforms, ?_⟩
      rcases checkEdge_cases engine with ⟨edge, warnings, checked⟩ | ⟨result, checked⟩
      · rw [checked]
        obtain ⟨rfl, source, isSource, target, isTarget, related⟩ :=
          checkEdge_creating active checked
        obtain ⟨key, member, isKey, rfl⟩ := StoredGraph.getNode_eq_some isTarget
        exact ⟨_, pending source isSource, rfl, key, member, isKey, related⟩
      · rw [checked]
        trivial
  | created edge warnings reply => exact ⟨conforms_createEdge conforms pending, trivial⟩
  | ended progress reply => exact ⟨conforms, trivial⟩

/-- The graph only grows, by nodes that the call has reserved. -/
theorem nodeKeys_advance {after : Progress α β}
    (advances : Advances engine graph progress changed after) :
    graph.nodeKeys ⊆ changed.nodeKeys ∧ after.reserved = none ∧
      ∀ key ∈ changed.nodeKeys, key ∈ graph.nodeKeys ∨ progress.reserved = some key.urn := by
  have merged (node : GraphNode α) :
      graph.nodeKeys ⊆ (graph.mergeNode ⟨engine.label node.entityType, node.urn⟩
          node.details).nodeKeys ∧
        ∀ key ∈ (graph.mergeNode ⟨engine.label node.entityType, node.urn⟩
          node.details).nodeKeys, key ∈ graph.nodeKeys ∨ some node.urn = some key.urn := by
    refine ⟨fun key member => StoredGraph.mem_nodeKeys_mergeNode.mpr (.inl member), ?_⟩
    intro key member
    rcases StoredGraph.mem_nodeKeys_mergeNode.mp member with old | rfl
    · exact .inl old
    · exact .inr rfl
  cases advances with
  | wrote node edge warnings => exact ⟨(merged node).1, rfl, (merged node).2⟩
  | wroteLast node containmentEdge warnings reply =>
      exact ⟨(merged node).1, rfl, (merged node).2⟩
  | linked | created | ended =>
      exact ⟨List.Subset.refl _, rfl, fun key member => .inl member⟩
  | read request sourceType hex =>
      refine ⟨List.Subset.refl _, ?_, fun key member => .inl member⟩
      rcases checkEdge_cases engine with ⟨edge, warnings, checked⟩ | ⟨result, checked⟩
      · rw [checked]
        rfl
      · rw [checked]
        rfl

theorem Progress.apart_of_none {other : Progress α β} (nothing : progress.reserved = none) :
    progress.Apart other ∧ other.Apart progress := by
  constructor
  · intro urn isReserved
    rw [nothing] at isReserved
    cases isReserved
  · intro urn _ isReserved
    rw [nothing] at isReserved
    cases isReserved

/-- A call that starts changes nothing. -/
theorem sound_start (sound : engine.Sound state) (pending : engine.Pending state.graph progress)
    (fresh : ∀ urn ∈ progress.reserved, ∀ other ∈ state.calls, urn ∉ other.reserved) :
    engine.Sound (state.start progress) where
  conforms := sound.conforms
  pending := by
    intro other member
    rcases List.mem_append.mp member with old | new
    · exact sound.pending other old
    · rwa [List.mem_singleton.mp new]
  apart := by
    apply sound.apart.concat
    · exact fun other member urn isReserved => fresh urn isReserved other member
    · exact fun other member urn isReserved isReserved' =>
        fresh urn isReserved' other member isReserved

theorem sound_finish {reply : Reply α β} (sound : engine.Sound state)
    (conforms : engine.Conforms changed) (same : changed.nodeKeys = state.graph.nodeKeys) :
    engine.Sound (state.finish (changed, reply)) where
  conforms := conforms
  pending := by
    intro other member
    rcases List.mem_append.mp member with old | new
    · exact pending_same (sound.pending other old) same
    · rw [List.mem_singleton.mp new]
      trivial
  apart := by
    have nothing : (Progress.replied reply).reserved = none := rfl
    apply sound.apart.concat
    · exact fun other _ => (Progress.apart_of_none nothing).1
    · exact fun other _ => (Progress.apart_of_none nothing).2

theorem sound_advance (active : engine.Active) {call : Nat} {after : Progress α β}
    (sound : engine.Sound state) (lookup : state.calls[call]? = some progress)
    (advances : Advances engine state.graph progress changed after) :
    engine.Sound ⟨changed, state.calls.set call after⟩ where
  conforms := (conforms_advance active sound.conforms
    (sound.pending progress (List.mem_of_getElem? lookup)) advances).1
  pending := by
    have ⟨more, _, only⟩ := nodeKeys_advance advances
    intro other member
    obtain ⟨place, lookup'⟩ := List.getElem?_of_mem member
    rcases getElem?_set_cases lookup' with ⟨_, rfl⟩ | ⟨elsewhere, old⟩
    · exact (conforms_advance active sound.conforms
        (sound.pending progress (List.mem_of_getElem? lookup)) advances).2
    · have pending := sound.pending other (List.mem_of_getElem? old)
      refine pending_grow pending more ?_
      intro urn isReserved inside
      obtain ⟨key, member, rfl⟩ := List.mem_map.mp inside
      rcases only key member with before | reserves
      · cases other with
        | writing node containmentEdge warnings =>
            have isUrn : node.urn = key.urn := Option.some.inj isReserved
            exact pending.2.1 (isUrn ▸ List.mem_map_of_mem before)
        | linking | reading | creating | replied => cases isReserved
      · exact sound.apart _ _ _ _ lookup old elsewhere key.urn reserves isReserved
  apart := by
    have nothing := (nodeKeys_advance advances).2.1
    apply sound.apart.set
    · exact fun _ other _ _ => (Progress.apart_of_none nothing).1
    · exact fun _ other _ _ => (Progress.apart_of_none nothing).2

theorem sound_step (active : engine.Active) (sound : engine.Sound state)
    (draws : engine.Draws state event) (stepped : state.step engine event = some next) :
    engine.Sound next := by
  cases event with
  | createNode request hex =>
      cases stepped
      rcases createNode_cases with ⟨node, containmentEdge, warnings, checked⟩ | rejected
      · obtain ⟨rfl, creatable, linked⟩ := createNode_writing active checked
        rw [checked]
        refine sound_start sound ⟨creatable, draws.1, ?_⟩ ?_
        · intro edge isEdge
          obtain ⟨parent, member, rfl, mayContain⟩ := linked edge isEdge
          exact ⟨rfl, rfl, parent, member, rfl, mayContain⟩
        · intro urn isReserved other member
          cases isReserved
          exact draws.2 other member
      · rw [rejected]
        exact sound_start sound trivial fun _ isReserved => by cases isReserved
  | createEdge request =>
      cases stepped
      refine sound_start sound ?_ fun _ isReserved => by cases isReserved
      intro source isSource
      obtain ⟨key, member, isUrn, rfl⟩ := StoredGraph.getNode_eq_some isSource
      exact isUrn ▸ member
  | updateEdge edgeId properties outcome =>
      cases stepped
      unfold ContextEngine.updateEdge
      split
      · exact sound_finish sound sound.conforms.setProperties rfl
      · exact sound_finish sound sound.conforms rfl
  | deleteEdge edgeId outcome =>
      cases stepped
      unfold ContextEngine.deleteEdge
      split
      · exact sound_finish sound sound.conforms.deleteRelations rfl
      · exact sound_finish sound sound.conforms rfl
  | advance call hex outcome =>
      obtain ⟨progress, lookup, stepped⟩ := Option.bind_eq_some_iff.mp stepped
      obtain ⟨⟨changed, after⟩, advanced, rfl⟩ := Option.map_eq_some_iff.mp stepped
      exact sound_advance active sound lookup (advances_of_advance advanced)

end Steps

/-- In whatever order the queries of the calls come, and whichever of them fail, the graph has
nothing but what the ontology allows. -/
theorem runs_conform (engine : ContextEngine β) (active : engine.Active) (graph : StoredGraph α β)
    (conforms : engine.Conforms graph) (events : List (Event α β))
    (draws : Meets (State.step engine) engine.Draws ⟨graph, []⟩ events) :
    Always (State.step engine) (fun state => engine.Conforms state.graph) ⟨graph, []⟩ events := by
  have start : engine.Sound (⟨graph, []⟩ : State α β) :=
    ⟨conforms, fun _ member => (by cases member), Mutually.nil⟩
  exact always_of_meets engine.Sound (fun _ _ _ sound => sound_step active sound)
    (fun _ sound => sound.conforms) start draws

def StoredGraph.empty : StoredGraph α β := ⟨OrderedMap.empty, OrderedMap.empty⟩

theorem conforms_empty (engine : ContextEngine β) :
    engine.Conforms (StoredGraph.empty : StoredGraph α β) where
  unique := List.nodup_nil
  creatable := fun _ member => (by cases member)
  ends := fun _ related => absurd rfl related
  allowed := fun _ related => absurd rfl related

/-- An ontology of domains, which contain datasets, and of flows between datasets. -/
def domains : OntologyData where
  entityTypeDefinitions :=
    (OrderedMap.empty.set "domain" { hierarchy := some { can_contain := some ["dataset"] } }).set
      "dataset" {}
  relationshipTypeDefinitions :=
    (OrderedMap.empty.set "CONTAINS" { is_containment := some true }).set
      "FLOWS" { source_types := some ["dataset"], target_types := some ["dataset"] }

def domainsEngine : ContextEngine Unit where
  texts :=
    { Resolver.Runtime.ascii with
      lower text := String.ofList (text.toList.map Char.toLower)
      isAlnum := Char.isAlphanum }
  ontology := resolveOntology .ascii (some domains) none none
  noProperties := ()

/-- Two datasets are created in a domain at once, and then a flow between them. -/
def filling : List (Event Unit Unit) :=
  let inDomain := some "urn:synodic:manual:domain:d"
  [.createNode ⟨"domain", none, ()⟩ "d", .advance 0 "" .returned,
    .createNode ⟨"dataset", inDomain, ()⟩ "e", .createNode ⟨"dataset", inDomain, ()⟩ "f",
    .advance 1 "" .returned, .advance 2 "" .returned, .advance 2 "" .returned,
    .advance 1 "" .returned,
    .createEdge ⟨"urn:synodic:manual:dataset:e", "urn:synodic:manual:dataset:f", "flows", (), none⟩,
    .advance 3 "g" .returned, .advance 3 "" (.raised true)]

theorem domain_filled :
    (run (State.step domainsEngine) ⟨StoredGraph.empty, []⟩ filling).map
        (fun state => (state.graph.nodes.entries.length, state.graph.relations.entries.length)) =
      some (3, 3) ∧
    Always (State.step domainsEngine) (fun state => domainsEngine.Conforms state.graph)
      ⟨StoredGraph.empty, []⟩ filling :=
  ⟨by decide +kernel, runs_conform domainsEngine ⟨by decide +kernel, by decide +kernel⟩
    StoredGraph.empty (conforms_empty _) filling (by decide +kernel)⟩

end Univiz.Editing

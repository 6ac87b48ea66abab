import Mathlib.Data.List.Dedup
import Univiz.Data.OrderedMap

namespace Univiz.Editing

open Univiz.Data

/-! The graph that `FalkorDBProvider` stores, and the queries that change single nodes and
edges of it. -/

/-- A query that merges a node finds it by its label and its URN. -/
structure NodeKey where
  label : String
  urn : String
deriving DecidableEq

structure RelationKey where
  source : NodeKey
  type : String
  target : NodeKey
deriving DecidableEq

/-- A relation that was created with its node has no properties yet. -/
structure Relation (β : Type) where
  id : String
  confidence : Rat
  properties : Option β
deriving DecidableEq

/-- Merging leaves at most one relation of a type between two nodes. -/
structure StoredGraph (α β : Type) where
  nodes : OrderedMap NodeKey α
  relations : OrderedMap RelationKey (Relation β)

structure GraphNode (α : Type) where
  urn : String
  entityType : String
  details : α
deriving DecidableEq

structure GraphEdge (β : Type) where
  id : String
  sourceUrn : String
  targetUrn : String
  edgeType : String
  confidence : Rat
  properties : β
deriving DecidableEq

variable {α β : Type}

/-- What can stand in a label or a relationship type. -/
def sanitizeLabel (isAlnum : Char → Bool) (text : String) : String :=
  String.ofList (text.toList.map fun c => if isAlnum c || c = '_' then c else '_')

namespace StoredGraph

variable (graph : StoredGraph α β)

def nodeKeys : List NodeKey := graph.nodes.entries.map Prod.fst

/-- The nodes with a URN. -/
def named (urn : String) : List NodeKey := graph.nodeKeys.filter fun key => key.urn = urn

/-- The label of the node that is found for a URN. -/
def getNode (urn : String) : Option String := (graph.named urn).head?.map NodeKey.label

/-- `MERGE (n:label {urn: ...}) SET n += ...`. -/
def mergeNode (key : NodeKey) (details : α) : StoredGraph α β :=
  { graph with nodes := graph.nodes.set key details }

/-- The relations of a type that a query merges between the nodes that it matches. -/
def mergedKeys (sourceUrn type targetUrn : String) : List RelationKey :=
  (graph.named sourceUrn).flatMap fun source =>
    (graph.named targetUrn).map fun target => ⟨source, type, target⟩

/-- `MATCH (a {urn: ...}) MATCH (b {urn: ...}) MERGE (a)-[r:type]->(b) SET ...`. -/
def mergeRelations (sourceUrn type targetUrn : String)
    (write : Option (Relation β) → Relation β) : StoredGraph α β :=
  { graph with
    relations := (graph.mergedKeys sourceUrn type targetUrn).foldl
      (fun relations key => relations.set key (write (relations.get key))) graph.relations }

/-- The second query of `create_node`, which sets no properties. -/
def linkNode (type : String) (edge : GraphEdge β) : StoredGraph α β :=
  graph.mergeRelations edge.sourceUrn type edge.targetUrn fun old =>
    { id := edge.id, confidence := edge.confidence, properties := old.bind Relation.properties }

/-- The query of `create_edge`. -/
def createEdge (type : String) (edge : GraphEdge β) : StoredGraph α β :=
  graph.mergeRelations edge.sourceUrn type edge.targetUrn fun _ =>
    { id := edge.id
      confidence := if edge.confidence = 0 then 1 else edge.confidence
      properties := some edge.properties }

/-- The relations that a query finds by their id. -/
def withId (edgeId : String) : List (RelationKey × Relation β) :=
  graph.relations.entries.filter fun entry => entry.2.id = edgeId

/-- The query of `update_edge`. -/
def setProperties (edgeId : String) (properties : β) : StoredGraph α β :=
  { graph with
    relations := graph.relations.mapValues fun relation =>
      if relation.id = edgeId then { relation with properties := some properties } else relation }

/-- The query of `delete_edge`. -/
def deleteRelations (edgeId : String) : StoredGraph α β :=
  { graph with
    relations := ((graph.withId edgeId).map Prod.fst).foldl OrderedMap.erase graph.relations }

end StoredGraph

/-- An edge that is read back.  Without an id it is named after its ends. -/
def edgeFromRow (empty : β) (key : RelationKey) (relation : Relation β) : GraphEdge β where
  id := if relation.id = "" then key.source.urn ++ "|" ++ key.type ++ "|" ++ key.target.urn
    else relation.id
  sourceUrn := key.source.urn
  targetUrn := key.target.urn
  edgeType := key.type
  confidence := relation.confidence
  properties := relation.properties.getD empty

namespace StoredGraph

variable {graph : StoredGraph α β} {key other : NodeKey} {relationKey : RelationKey}
  {details : α} {urn sourceUrn targetUrn type edgeId : String}
  {write : Option (Relation β) → Relation β}

theorem mem_named : key ∈ graph.named urn ↔ key ∈ graph.nodeKeys ∧ key.urn = urn := by
  rw [named, List.mem_filter, decide_eq_true_iff]

theorem mem_nodeKeys_mergeNode :
    other ∈ (graph.mergeNode key details).nodeKeys ↔ other ∈ graph.nodeKeys ∨ other = key := by
  rw [nodeKeys, mergeNode, OrderedMap.set, OrderedMap.keys_replace]
  split
  · rename_i there
    constructor
    · exact .inl
    · rintro (old | rfl)
      · exact old
      · exact there
  · rw [List.mem_append, List.mem_singleton]
    rfl

theorem nodeKeys_mergeNode_of_fresh (fresh : key ∉ graph.nodeKeys) :
    (graph.mergeNode key details).nodeKeys = graph.nodeKeys ++ [key] := by
  rw [nodeKeys, mergeNode, OrderedMap.set, OrderedMap.keys_replace]
  exact if_neg fresh

@[simp] theorem relations_mergeNode : (graph.mergeNode key details).relations =
    graph.relations := rfl

@[simp] theorem nodeKeys_mergeRelations :
    (graph.mergeRelations sourceUrn type targetUrn write).nodeKeys = graph.nodeKeys := rfl

@[simp] theorem nodeKeys_setProperties {properties : β} :
    (graph.setProperties edgeId properties).nodeKeys = graph.nodeKeys := rfl

@[simp] theorem nodeKeys_deleteRelations :
    (graph.deleteRelations edgeId).nodeKeys = graph.nodeKeys := rfl

variable (graph) in
/-- There is a relation under the key. -/
def Related (key : RelationKey) : Prop := graph.relations.get key ≠ none

theorem mem_mergedKeys : relationKey ∈ graph.mergedKeys sourceUrn type targetUrn ↔
    relationKey.source ∈ graph.named sourceUrn ∧ relationKey.type = type ∧
      relationKey.target ∈ graph.named targetUrn := by
  obtain ⟨source, type', target⟩ := relationKey
  simp only [mergedKeys, List.mem_flatMap, List.mem_map, RelationKey.mk.injEq]
  constructor
  · rintro ⟨source', inside, target', inside', rfl, rfl, rfl⟩
    exact ⟨inside, rfl, inside'⟩
  · rintro ⟨inside, rfl, inside'⟩
    exact ⟨source, inside, target, inside', rfl, rfl, rfl⟩

/-- Merging relates the nodes that it matches, and no others. -/
theorem related_mergeRelations :
    (graph.mergeRelations sourceUrn type targetUrn write).Related relationKey ↔
      graph.Related relationKey ∨ relationKey ∈ graph.mergedKeys sourceUrn type targetUrn := by
  have grows (keys : List RelationKey) (relations : OrderedMap RelationKey (Relation β)) :
      (keys.foldl (fun relations key => relations.set key (write (relations.get key)))
          relations).get relationKey ≠ none ↔
        relations.get relationKey ≠ none ∨ relationKey ∈ keys := by
    induction keys generalizing relations with
    | nil => simp
    | cons key rest ih =>
        rw [List.foldl_cons, ih, OrderedMap.get_set, List.mem_cons]
        by_cases here : key = relationKey
        · simp [here]
        · simp [here, Ne.symm here]
  exact grows _ _

theorem related_setProperties {properties : β} :
    (graph.setProperties edgeId properties).Related relationKey ↔ graph.Related relationKey := by
  rw [Related, Related, setProperties, OrderedMap.get_mapValues, ne_eq, Option.map_eq_none_iff]

theorem related_of_deleteRelations
    (related : (graph.deleteRelations edgeId).Related relationKey) :
    graph.Related relationKey := by
  rw [Related, deleteRelations, OrderedMap.get_foldl_erase] at related
  split at related
  · exact absurd rfl related
  · exact related

/-- Where URNs are not shared, a URN leads to its node. -/
theorem named_of_unique (unique : (graph.nodeKeys.map NodeKey.urn).Nodup)
    (member : key ∈ graph.nodeKeys) : graph.named key.urn = [key] := by
  have only {keys : List NodeKey} (unique : (keys.map NodeKey.urn).Nodup) (member : key ∈ keys) :
      keys.filter (fun other => other.urn = key.urn) = [key] := by
    induction keys with
    | nil => cases member
    | cons first rest ih =>
        obtain ⟨fresh, unique⟩ := List.nodup_cons.mp unique
        rcases List.mem_cons.mp member with rfl | later
        · have none : rest.filter (fun other => other.urn = key.urn) = [] := by
            apply List.filter_eq_nil_iff.mpr
            intro other inside same
            exact fresh (List.mem_map.mpr ⟨other, inside, of_decide_eq_true same⟩)
          rw [List.filter_cons, if_pos (decide_eq_true rfl), none]
        · have apart : ¬ first.urn = key.urn := fun same =>
            fresh (List.mem_map.mpr ⟨key, later, same.symm⟩)
          rw [List.filter_cons, if_neg (by simp [apart]), ih unique later]
  exact only unique member

theorem getNode_eq_some {label : String} (found : graph.getNode urn = some label) :
    ∃ key ∈ graph.nodeKeys, key.urn = urn ∧ key.label = label := by
  obtain ⟨key, isFirst, rfl⟩ := Option.map_eq_some_iff.mp found
  have member := mem_named.mp (List.mem_of_head? isFirst)
  exact ⟨key, member.1, member.2, rfl⟩

end StoredGraph

end Univiz.Editing

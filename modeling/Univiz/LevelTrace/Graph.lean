import Mathlib.Data.List.Dedup
import Univiz.Trace.Orchestrator

namespace Univiz.LevelTrace

open Univiz.Trace

/-! The graph of a FalkorDB provider, and what the queries of a trace match in it. -/

/-- A node that has a URN.  `readable`: whether a `GraphNode` can be built from its
properties. -/
structure Node where
  id : Nat
  urn : Urn
  labels : List String
  named : urn ≠ "" := by decide
  entityType : String := "unknown"
  readable : Bool := true
deriving DecidableEq

/-- `_extract_node_from_result`. -/
def Node.graphNode (node : Node) : Option GraphNode :=
  if node.readable then some ⟨node.urn, node.labels.head?.getD node.entityType⟩ else none

/-- The property `weight`; a value that `int` rejects is unreadable. -/
inductive Weight
  | missing
  | number (value : Nat)
  | unreadable
deriving DecidableEq

/-- `int` of `COALESCE(r.weight, 1)`. -/
def Weight.read : Weight → Option Nat
  | .missing => some 1
  | .number value => some value
  | .unreadable => none

structure Relationship where
  id : Nat
  type : String
  source : Node
  target : Node
  sourceEdgeTypes : Option (List String) := none
  weight : Weight := .missing
  sourceLevel : Option Int := none
  targetLevel : Option Int := none
deriving DecidableEq

structure Graph where
  nodes : List Node
  relationships : List Relationship
  distinct : (relationships.map Relationship.id).Nodup

namespace Relationship

variable (relationship : Relationship)

/-- The end on the side of the frontier. -/
def near : Direction → Node
  | .incoming => relationship.target
  | .outgoing => relationship.source

def far : Direction → Node
  | .incoming => relationship.source
  | .outgoing => relationship.target

end Relationship

/-- Which neighbours a query expands into. -/
inductive PeerFilter
  | atLevel (level : Int)
  | ofTypes (types : List String)
  | labelled (label : String)
deriving DecidableEq

/-- `labels(node)[0] IN $types`. -/
def Node.HasType (node : Node) (types : List String) : Prop :=
  ∃ label ∈ node.labels.head?, label ∈ types

instance (node : Node) (types : List String) : Decidable (node.HasType types) :=
  inferInstanceAs (Decidable (∃ label ∈ node.labels.head?, label ∈ types))

def PeerFilter.Admits (filter : PeerFilter) (relationship : Relationship) (other : Node) : Prop :=
  match filter with
  | .atLevel level =>
      relationship.sourceLevel = some level ∧ relationship.targetLevel = some level
  | .ofTypes types => other.HasType types
  | .labelled label => other.labels.head? = some label

instance (filter : PeerFilter) (relationship : Relationship) (other : Node) :
    Decidable (filter.Admits relationship other) :=
  match filter with
  | .atLevel level => inferInstanceAs (Decidable
      (relationship.sourceLevel = some level ∧ relationship.targetLevel = some level))
  | .ofTypes types => inferInstanceAs (Decidable (other.HasType types))
  | .labelled label => inferInstanceAs (Decidable (other.labels.head? = some label))

/-- One query of an expansion: the label of its frontier nodes, or none, the relationship
types it follows, and the types that the property `sourceEdgeTypes`, if there is one, must
share. -/
structure SubQuery where
  direction : Direction
  label : String
  frontier : List Urn
  relTypes : List String
  peers : PeerFilter
  sourceTypes : List String
deriving DecidableEq

/-- The `MATCH` and `WHERE` clauses. -/
def SubQuery.Matches (query : SubQuery) (relationship : Relationship) : Prop :=
  (query.label = "" ∨ query.label ∈ (relationship.near query.direction).labels) ∧
  (relationship.near query.direction).urn ∈ query.frontier ∧
  relationship.type ∈ query.relTypes ∧
  query.peers.Admits relationship (relationship.far query.direction) ∧
  (query.sourceTypes = [] ∨ relationship.sourceEdgeTypes = none ∨
    ∃ types ∈ relationship.sourceEdgeTypes, ∃ type ∈ types, type ∈ query.sourceTypes)

instance (query : SubQuery) : DecidablePred query.Matches := fun _ =>
  inferInstanceAs (Decidable (_ ∧ _ ∧ _ ∧ _ ∧ _))

/-- The rows of a query without its limit. -/
def Graph.rows (graph : Graph) (query : SubQuery) : List Relationship :=
  graph.relationships.filter fun relationship => query.Matches relationship

namespace Graph

variable (graph : Graph) (containmentTypes types : List String)

def children (node : Node) : List Node :=
  (graph.relationships.filter fun relationship =>
    relationship.source = node ∧ relationship.type ∈ containmentTypes).map Relationship.target

/-- The ends of the paths of one to `depth` relationships. -/
def below : Nat → Node → List Node
  | 0, _ => []
  | depth + 1, node =>
      (graph.children containmentTypes node).flatMap fun child => child :: below depth child

def nodesOf (urn : Urn) : List Node :=
  graph.nodes.filter fun node => node.urn = urn

/-- The rows of the anchor itself, if one of the types is its first label. -/
def anchorRows (urn : Urn) : List Urn :=
  ((graph.nodesOf urn).filter fun node => node.HasType types).map Node.urn

/-- The rows of the descendants to a depth, without the limit. -/
def descendantRows (depth : Nat) (urn : Urn) : List Urn :=
  (((graph.nodesOf urn).flatMap (graph.below containmentTypes depth)).filter
    fun node => node.HasType types).map Node.urn |>.dedup

/-- The anchor and all its descendants that have one of the types. -/
def FullDescendant (anchor urn : Urn) : Prop :=
  urn ∈ graph.anchorRows types anchor ∨
    ∃ depth, urn ∈ graph.descendantRows containmentTypes types depth anchor

end Graph

/-- `_edges_between_sets`: raw lineage edges of some types, or aggregated edges that share a
type, if there are any. -/
structure EdgeQuery where
  raw : Bool
  lineageTypes : List String

def EdgeQuery.Selects (query : EdgeQuery) (relationship : Relationship) : Prop :=
  if query.raw then relationship.type ∈ query.lineageTypes
  else relationship.type = "AGGREGATED" ∧ (query.lineageTypes = [] ∨
    ∃ types ∈ relationship.sourceEdgeTypes, ∃ type ∈ types, type ∈ query.lineageTypes)

instance (query : EdgeQuery) : DecidablePred query.Selects := fun relationship =>
  inferInstanceAs (Decidable (if query.raw then relationship.type ∈ query.lineageTypes
    else relationship.type = "AGGREGATED" ∧ (query.lineageTypes = [] ∨
      ∃ types ∈ relationship.sourceEdgeTypes, ∃ type ∈ types, type ∈ query.lineageTypes)))

/-- The rows of the edges between two lists of URNs, without the limit. -/
def Graph.edgeRows (graph : Graph) (query : EdgeQuery) (sourceUrns targetUrns : List Urn) :
    List Relationship :=
  graph.relationships.filter fun relationship =>
    relationship.source.urn ∈ sourceUrns ∧ relationship.target.urn ∈ targetUrns ∧
      query.Selects relationship

end Univiz.LevelTrace

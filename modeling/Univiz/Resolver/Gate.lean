import Mathlib.Data.Finset.Card
import Mathlib.Data.List.Sort
import Univiz.Resolver.Definitions

namespace Univiz.Resolver

open Univiz.Data

/-! The resolution gate, `gate.py`, and the coverage of a graph by an ontology. -/

/-- A relationship type without classification flags. -/
structure RelGap where
  id : String
  name : String
  isContainment : Option Bool
  isLineage : Option Bool
deriving DecidableEq

inductive HierarchyField
  | level
  | canContain
  | canBeContainedBy
deriving DecidableEq

structure HierarchyGap where
  entityType : String
  missingField : HierarchyField
deriving DecidableEq

inductive BlockingReason
  | missingEntityTypes
  | missingEdgeTypes
  | unclassifiedRelationships
  | noLineage
deriving DecidableEq

inductive AdvisoryWarning
  | noContainmentEdges
deriving DecidableEq

structure ResolutionReport where
  resolved : Bool
  ontologyId : String
  ontologyVersion : Int
  ontologyIsPublished : Bool
  missingEntityTypes : List String
  missingEdgeTypes : List String
  unclassifiedRelationships : List RelGap
  hasLineage : Bool
  hasContainment : Bool
  hierarchyWarnings : List HierarchyGap
  advisoryWarnings : List AdvisoryWarning
  blockingReasons : List BlockingReason
  fingerprint : String

/-- An ontology as the gate reads it. -/
structure OntologyRecord extends OntologyData where
  id : String
  version : Int
  isPublished : Bool
  revision : Int

def wasExplicitlyClassified (raw : RawRelationship) : Bool :=
  (raw.is_containment.isSome || raw.isContainment.isSome) &&
    (raw.is_lineage.isSome || raw.isLineage.isSome)

variable (runtime : Runtime)

/-- The ids without a definition in any letter case, sorted. -/
def missingTypes {α : Type} (defs : OrderedMap String α) (introspectedIds : List String) :
    List String :=
  (introspectedIds.filter fun id => runtime.upper id ∉ existing runtime defs).dedup.insertionSort
    (· ≤ ·)

def relGap (relDefs : RelationshipDefs) (entry : String × RawRelationship) : RelGap where
  id := entry.1
  name := ((relDefs.get entry.1).map (·.name)).getD entry.1
  isContainment := entry.2.is_containment.or entry.2.isContainment
  isLineage := entry.2.is_lineage.or entry.2.isLineage

def hierarchyGaps (raw : RawEntities) (relDefs : RelationshipDefs)
    (entry : String × EntityTypeDefEntry) : List HierarchyGap :=
  let rawHier := ((raw.get entry.1).bind (·.hierarchy)).getD {}
  let appearsAsParent := relDefs.entries.any fun rel =>
    rel.2.isContainment ∧ entry.1 ∈ rel.2.sourceTypes
  let appearsAsChild := relDefs.entries.any fun rel =>
    rel.2.isContainment ∧ entry.1 ∈ rel.2.targetTypes
  (if rawHier.level.isNone then [⟨entry.1, .level⟩] else []) ++
    (if appearsAsParent ∧ entry.2.hierarchy.canContain = [] then [⟨entry.1, .canContain⟩]
      else []) ++
    if appearsAsChild ∧ entry.2.hierarchy.canBeContainedBy = [] then
      [⟨entry.1, .canBeContainedBy⟩]
    else []

/-- `computeFingerprint` digests the id, the revision and the stored definitions. -/
def checkResolution
    (computeFingerprint : String → Int → RawEntities → RawRelationships → String)
    (ontology : OntologyRecord) (introspectedEntityIds introspectedEdgeIds : List String) :
    ResolutionReport :=
  let entityDefs := parseEntityDefinitions ontology.entityTypeDefinitions
  let relDefs := parseRelationshipDefinitions ontology.relationshipTypeDefinitions
  let missingEntityTypes := missingTypes runtime entityDefs introspectedEntityIds
  let missingEdgeTypes := missingTypes runtime relDefs introspectedEdgeIds
  let unclassified :=
    (ontology.relationshipTypeDefinitions.entries.filter fun entry =>
      runtime.upper entry.1 ∈ introspectedEdgeIds.map runtime.upper ∧
        wasExplicitlyClassified entry.2 = false).map (relGap relDefs)
  let hasLineage := relDefs.entries.any fun entry => entry.2.isLineage
  let hasContainment := relDefs.entries.any fun entry => entry.2.isContainment
  let hierarchyWarnings :=
    (entityDefs.entries.filter fun entry =>
      runtime.upper entry.1 ∈ introspectedEntityIds.map runtime.upper).flatMap
        (hierarchyGaps ontology.entityTypeDefinitions relDefs)
  let blockingReasons :=
    (if missingEntityTypes ≠ [] then [.missingEntityTypes] else []) ++
      (if missingEdgeTypes ≠ [] then [.missingEdgeTypes] else []) ++
      (if unclassified ≠ [] then [.unclassifiedRelationships] else []) ++
      if hasLineage then [] else [.noLineage]
  { resolved := blockingReasons = []
    ontologyId := ontology.id
    ontologyVersion := ontology.version
    ontologyIsPublished := ontology.isPublished
    missingEntityTypes := missingEntityTypes
    missingEdgeTypes := missingEdgeTypes
    unclassifiedRelationships := unclassified
    hasLineage := hasLineage
    hasContainment := hasContainment
    hierarchyWarnings := hierarchyWarnings
    advisoryWarnings := if hasContainment then [] else [.noContainmentEdges]
    blockingReasons := blockingReasons
    fingerprint := computeFingerprint ontology.id ontology.revision
      ontology.entityTypeDefinitions ontology.relationshipTypeDefinitions }

structure CoverageReport where
  coveragePercent : Rat
  coveredEntityTypes : Finset String
  uncoveredEntityTypes : Finset String
  extraEntityTypes : Finset String
  coveredRelationshipTypes : Finset String
  uncoveredRelationshipTypes : Finset String

def keySet {α : Type} (defs : OrderedMap String α) : Finset String :=
  (defs.entries.map Prod.fst).toFinset

def checkCoverage (entityDefs : EntityDefs) (relationshipDefs : RelationshipDefs)
    (graphEntityIds graphRelIds : List String) : CoverageReport :=
  let ontEntities := keySet entityDefs
  let ontRels := keySet relationshipDefs
  let graphEnts := graphEntityIds.toFinset
  let graphRels := graphRelIds.toFinset
  let total := graphEnts.card + graphRels.card
  let covered := (ontEntities ∩ graphEnts).card + (ontRels ∩ graphRels).card
  { coveragePercent := if 0 < total then runtime.percent covered total else 100
    coveredEntityTypes := ontEntities ∩ graphEnts
    uncoveredEntityTypes := graphEnts \ ontEntities
    extraEntityTypes := ontEntities \ graphEnts
    coveredRelationshipTypes := ontRels ∩ graphRels
    uncoveredRelationshipTypes := graphRels \ ontRels }

end Univiz.Resolver

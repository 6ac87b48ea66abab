import Mathlib.Data.List.Sort
import Univiz.Resolver.Definitions

namespace Univiz.Resolver

open Univiz.Data

/-! `mutation_validator.py`, and the children that a node is offered. -/

inductive MutationOp
  | create
  | update
  | delete
deriving DecidableEq

structure MutationResult where
  ok : Bool
  errors : List String
  warnings : List String
deriving DecidableEq

namespace MutationResult

def success (warnings : List String) : MutationResult := ⟨true, [], warnings⟩

def failure (errors warnings : List String) : MutationResult := ⟨false, errors, warnings⟩

end MutationResult

namespace ResolvedOntology

def knownTypes (ontology : ResolvedOntology) : List String :=
  ontology.entityTypeDefinitions.entries.map Prod.fst

end ResolvedOntology

section Messages

variable (runtime : Runtime)

def noOntology (entityType : String) : String :=
  s!"No ontology is active — entity type '{entityType}' accepted without validation. " ++
    "Assign an ontology to enable type checking."

def matchedCanonical (entityType canonical : String) : String :=
  s!"Entity type '{entityType}' matched '{canonical}' via case-insensitive lookup. " ++
    s!"Consider using the canonical form '{canonical}'."

def undefinedType (entityType : String) (knownTypes : List String) : String :=
  s!"Entity type '{entityType}' is not defined in the active ontology. Known types: " ++
    runtime.printed (knownTypes.insertionSort (· ≤ ·))

def undefinedParent (parentEntityType : String) : String :=
  s!"Parent entity type '{parentEntityType}' is not defined in the active ontology."

def notContained (parentEntityType entityType : String) (allowedChildren : List String) :
    String :=
  s!"Ontology does not allow '{parentEntityType}' to contain '{entityType}'. " ++
    "Allowed children: " ++ runtime.printed (allowedChildren.dedup.insertionSort (· ≤ ·))

def olderOntology (entityType : String) : String :=
  s!"Entity type '{entityType}' is not in the active ontology. " ++
    "The node may have been created with an older ontology version."

def changedType (existingEntityType entityType : String) : String :=
  s!"Changing entity type from '{existingEntityType}' to '{entityType}' is not allowed. " ++
    "Delete and recreate the node instead."

def deletedUnknown (entityType : String) : String :=
  s!"Entity type '{entityType}' is not in the active ontology; proceeding with delete."

def cannotContain (parentType typeId : String) : String :=
  s!"'{parentType}' cannot contain '{typeId}' per the active ontology"

end Messages

section Validator

variable (runtime : Runtime) (ontology : ResolvedOntology)

/-- The known types by their upper case.  Of two with the same one, the later in the set's
order stays. -/
def knownTypesUpper : OrderedMap String String :=
  (runtime.setOrder ontology.knownTypes).foldl
    (fun known type => known.set (runtime.upper type) type) OrderedMap.empty

/-- The type as the ontology spells it, with what there is to say about it. -/
def canonicalType (entityType : String) : String × List String × List String :=
  if entityType ∈ ontology.knownTypes then (entityType, [], [])
  else
    match ((knownTypesUpper runtime ontology).get (runtime.upper entityType)).filter (· ≠ "") with
    | some canonical => (canonical, [], [matchedCanonical entityType canonical])
    | none => (entityType, [undefinedType runtime entityType ontology.knownTypes], [])

/-- The containment rule.  A parent that names no child types takes every type. -/
def containmentErrors (parentEntityType entityType : String) : List String :=
  match ontology.entityTypeDefinitions.get parentEntityType with
  | none => [undefinedParent parentEntityType]
  | some parentDef =>
      let allowedChildren := parentDef.hierarchy.canContain
      if allowedChildren ≠ [] ∧ entityType ∉ allowedChildren then
        [notContained runtime parentEntityType entityType allowedChildren]
      else []

def validateNodeMutation (op : MutationOp) (entityType : String)
    (parentEntityType existingEntityType : Option String) : MutationResult :=
  if ontology.entityTypeDefinitions.entries = [] then .success [noOntology entityType]
  else
    let unknown := entityType ∉ ontology.knownTypes
    let (errors, warnings) :=
      match op with
      | .create =>
          let (canonical, errors, warnings) := canonicalType runtime ontology entityType
          match parentEntityType with
          | none => (errors, warnings)
          | some parent =>
              if canonical ∈ ontology.knownTypes then
                (errors ++ containmentErrors runtime ontology parent canonical, warnings)
              else (errors, warnings)
      | .update =>
          let errors := match existingEntityType with
            | some existing =>
                if existing ≠ "" ∧ existing ≠ entityType then [changedType existing entityType]
                else []
            | none => []
          (errors, if unknown then [olderOntology entityType] else [])
      | .delete => ([], if unknown then [deletedUnknown entityType] else [])
    if errors ≠ [] then .failure errors warnings else .success warnings

end Validator

section EdgeValidator

variable (runtime : Runtime) (ontology : ResolvedOntology)

def noRelationships (edgeType : String) : String :=
  s!"No ontology is active — relationship type '{edgeType}' accepted without validation. " ++
    "Assign an ontology to enable type checking."

def undefinedRelationship (edgeType : String) (knownTypes : List String) : String :=
  s!"Relationship type '{edgeType}' is not defined in the active ontology. Known types: " ++
    runtime.printed (knownTypes.insertionSort (· ≤ ·))

def olderRelationship (edgeType : String) : String :=
  s!"Relationship type '{edgeType}' is not in the active ontology. " ++
    "The edge may have been created with an older ontology version."

def invalidSource (sourceEntityType edgeType : String) (sourceTypes : List String) : String :=
  s!"'{sourceEntityType}' is not a valid source for relationship '{edgeType}'. " ++
    "Allowed sources: " ++ runtime.printed (sourceTypes.insertionSort (· ≤ ·))

def invalidTarget (targetEntityType edgeType : String) (targetTypes : List String) : String :=
  s!"'{targetEntityType}' is not a valid target for relationship '{edgeType}'. " ++
    "Allowed targets: " ++ runtime.printed (targetTypes.insertionSort (· ≤ ·))

/-- The relationship types by their upper case.  Of two with the same one, the later stays. -/
def relById : OrderedMap String RelationshipTypeDefEntry :=
  ontology.relationshipTypeDefinitions.entries.foldl
    (fun known entry => known.set (runtime.upper entry.1) entry.2) OrderedMap.empty

/-- A relationship that names no types takes every node at that end. -/
def endpointErrors (relDef : RelationshipTypeDefEntry) (edgeType sourceEntityType
    targetEntityType : String) : List String :=
  (if relDef.sourceTypes ≠ [] ∧ sourceEntityType ∉ relDef.sourceTypes then
    [invalidSource runtime sourceEntityType edgeType relDef.sourceTypes] else []) ++
  if relDef.targetTypes ≠ [] ∧ targetEntityType ∉ relDef.targetTypes then
    [invalidTarget runtime targetEntityType edgeType relDef.targetTypes] else []

def validateEdgeMutation (op : MutationOp) (edgeType sourceEntityType targetEntityType : String) :
    MutationResult :=
  if ontology.relationshipTypeDefinitions.entries = [] then .success [noRelationships edgeType]
  else if op = .delete then .success []
  else
    let (errors, warnings) :=
      match (relById runtime ontology).get (runtime.upper edgeType) with
      | none =>
          if op = .create then
            ([undefinedRelationship runtime edgeType
              ((relById runtime ontology).entries.map Prod.fst)], [])
          else ([], [olderRelationship edgeType])
      | some relDef =>
          (endpointErrors runtime relDef edgeType sourceEntityType targetEntityType, [])
    if errors ≠ [] then .failure errors warnings else .success warnings

end EdgeValidator

structure GraphNode where
  entityType : String

structure AllowedChildOption where
  entityType : String
  label : String
  description : Option String
  allowed : Bool
  reason : Option String
deriving DecidableEq

/-- Allowed types first, then by name. -/
def AllowedChildOption.before (option other : AllowedChildOption) : Bool :=
  if option.allowed = other.allowed then option.entityType ≤ other.entityType else option.allowed

/-- The children that a type names, none for a type without a definition. -/
def ResolvedOntology.allowedChildren (resolved : ResolvedOntology) (parentType : String) :
    List String :=
  ((resolved.entityTypeDefinitions.get parentType).map (·.hierarchy.canContain)).getD []

def childOption (parentType : String) (allowedChildren : List String)
    (entry : String × EntityTypeDefEntry) : AllowedChildOption :=
  let allowed : Bool := entry.1 ∈ allowedChildren
  { entityType := entry.1
    label := entry.2.name
    description := entry.2.description
    allowed := allowed
    reason := if allowed then none else some (cannotContain parentType entry.1) }

def getAllowedChildren (parentNode : Option GraphNode) (resolved : Option ResolvedOntology) :
    List AllowedChildOption :=
  match parentNode, resolved with
  | some parent, some resolved =>
      let options := resolved.entityTypeDefinitions.entries.map
        (childOption parent.entityType (resolved.allowedChildren parent.entityType))
      options.insertionSort fun option other => option.before other = true
  | _, _ => []

section Agreement

variable {runtime : Runtime} {ontology : ResolvedOntology} {type parent : String}

theorem mem_getAllowedChildren {option : AllowedChildOption} :
    option ∈ getAllowedChildren (some ⟨parent⟩) (some ontology) ↔
      ∃ entry ∈ ontology.entityTypeDefinitions.entries,
        childOption parent (ontology.allowedChildren parent) entry = option := by
  rw [getAllowedChildren, List.mem_insertionSort, List.mem_map]

/-- Each type of the ontology is offered once. -/
theorem getAllowedChildren_types :
    ((getAllowedChildren (some ⟨parent⟩) (some ontology)).map (·.entityType)).Perm
      ontology.knownTypes := by
  have sorted := List.perm_insertionSort
    (fun option other => AllowedChildOption.before option other = true)
    (ontology.entityTypeDefinitions.entries.map
      (childOption parent (ontology.allowedChildren parent)))
  have types := sorted.map (·.entityType)
  rwa [List.map_map] at types

theorem offered_iff (known : type ∈ ontology.knownTypes) :
    (∃ option ∈ getAllowedChildren (some ⟨parent⟩) (some ontology),
      option.entityType = type ∧ option.allowed = true) ↔
    type ∈ ontology.allowedChildren parent := by
  constructor
  · rintro ⟨option, listed, rfl, allowed⟩
    obtain ⟨entry, _, rfl⟩ := mem_getAllowedChildren.mp listed
    exact of_decide_eq_true allowed
  · intro named
    obtain ⟨entry, member, rfl⟩ := List.mem_map.mp known
    exact ⟨_, mem_getAllowedChildren.mpr ⟨entry, member, rfl⟩, rfl, decide_eq_true named⟩

theorem validate_create_known (known : type ∈ ontology.knownTypes) :
    (validateNodeMutation runtime ontology .create type (some parent) none).ok = true ↔
      containmentErrors runtime ontology parent type = [] := by
  have some_types : ontology.entityTypeDefinitions.entries ≠ [] := by
    intro empty
    rw [ResolvedOntology.knownTypes, empty] at known
    cases known
  simp only [validateNodeMutation, canonicalType, if_neg some_types, if_pos known, List.nil_append]
  by_cases clean : containmentErrors runtime ontology parent type = []
  · simp [clean, MutationResult.success]
  · simp [clean, MutationResult.failure]

/-- What is offered for a parent is what the validator lets be created under it. -/
def PreflightAgrees (runtime : Runtime) (ontology : ResolvedOntology) (parent : String) : Prop :=
  ∀ type ∈ ontology.knownTypes,
    (∃ option ∈ getAllowedChildren (some ⟨parent⟩) (some ontology),
      option.entityType = type ∧ option.allowed = true) ↔
    (validateNodeMutation runtime ontology .create type (some parent) none).ok = true

/-- The parent has no definition, or one that names a child type. -/
def ResolvedOntology.NamesChildren (ontology : ResolvedOntology) (parent : String) : Prop :=
  ∀ parentDef, ontology.entityTypeDefinitions.get parent = some parentDef →
    parentDef.hierarchy.canContain ≠ []

theorem preflight_agrees_iff (runtime : Runtime) (ontology : ResolvedOntology) (parent : String) :
    PreflightAgrees runtime ontology parent ↔ ontology.NamesChildren parent := by
  constructor
  · intro agrees parentDef found empty
    have known : parent ∈ ontology.knownTypes :=
      List.mem_map_of_mem (OrderedMap.get_eq_some.mp found)
    have unrestricted : containmentErrors runtime ontology parent parent = [] := by
      simp [containmentErrors, found, empty]
    have offered := (offered_iff known).mp
      ((agrees parent known).mpr ((validate_create_known known).mpr unrestricted))
    simp [ResolvedOntology.allowedChildren, found, empty] at offered
  · intro named type known
    rw [offered_iff known, validate_create_known known, ResolvedOntology.allowedChildren,
      containmentErrors]
    cases found : ontology.entityTypeDefinitions.get parent with
    | none => simp
    | some parentDef => simp [named parentDef found]

/-- An ontology of tables, whose definition names no child type. -/
def tables : OntologyData where
  entityTypeDefinitions := OrderedMap.empty.set "table" { name := some "Table" }
  relationshipTypeDefinitions := OrderedMap.empty

theorem childless_not_offered :
    ¬ PreflightAgrees .ascii (resolveOntology .ascii (some tables) none none) "table" := by
  intro agrees
  have created : (validateNodeMutation .ascii (resolveOntology .ascii (some tables) none none)
      .create "table" (some "table") none).ok = true := by decide
  have known : "table" ∈ (resolveOntology .ascii (some tables) none none).knownTypes := by decide
  have named := (offered_iff known).mp ((agrees "table" known).mpr created)
  exact absurd named (by decide)

end Agreement

end Univiz.Resolver

import Univiz.Resolver.Gate

namespace Univiz.Resolver

open Univiz.Data

/-! Three answers to the question which types of a graph an ontology lacks: that of the gate,
that of the resolver and that of the coverage report. -/

section

variable {α : Type} {runtime : Runtime} {defs : OrderedMap String α} {ids : List String}
  {id : String}

/-- A set of types up to letter case. -/
def folded (runtime : Runtime) (types : Finset String) : Finset String := types.image runtime.upper

/-- The types of the graph that have no definition, up to letter case. -/
def lacking (runtime : Runtime) (defs : OrderedMap String α) (ids : List String) :
    Finset String :=
  folded runtime ids.toFinset \ folded runtime (keySet defs)

theorem mem_lacking {type : String} : type ∈ lacking runtime defs ids ↔
    type ∈ ids.map runtime.upper ∧ type ∉ existing runtime defs := by
  simp only [lacking, folded, keySet, existing, Finset.mem_sdiff, Finset.mem_image,
    List.mem_toFinset, List.mem_map, exists_exists_and_eq_and]

theorem mem_missingTypes : id ∈ missingTypes runtime defs ids ↔
    id ∈ ids ∧ runtime.upper id ∉ existing runtime defs := by
  rw [missingTypes, List.mem_insertionSort, List.mem_dedup, List.mem_filter, decide_eq_true_iff]

theorem folded_missingTypes :
    folded runtime (missingTypes runtime defs ids).toFinset = lacking runtime defs ids := by
  ext type
  rw [mem_lacking, folded, Finset.mem_image, List.mem_map]
  constructor
  · rintro ⟨id, missing, rfl⟩
    obtain ⟨listed, undefined⟩ := mem_missingTypes.mp (List.mem_toFinset.mp missing)
    exact ⟨⟨id, listed, rfl⟩, undefined⟩
  · rintro ⟨⟨id, listed, rfl⟩, undefined⟩
    exact ⟨id, List.mem_toFinset.mpr (mem_missingTypes.mpr ⟨listed, undefined⟩), rfl⟩

/-- The ids for which `introspect` adds a definition: the first spelling of each. -/
def firstSpellings (runtime : Runtime) : List String → List String → List String
  | _, [] => []
  | existingUpper, id :: rest =>
      if runtime.upper id ∈ existingUpper then firstSpellings runtime existingUpper rest
      else id :: firstSpellings runtime (runtime.upper id :: existingUpper) rest

theorem keys_introspect {fallback : String → α} {existingUpper : List String}
    {sources : OrderedMap String ResolutionSource}
    (known : ∀ id ∈ defs.entries.map Prod.fst, runtime.upper id ∈ existingUpper) :
    (introspect runtime fallback existingUpper ids defs sources).1.entries.map Prod.fst =
      defs.entries.map Prod.fst ++ firstSpellings runtime existingUpper ids := by
  induction ids generalizing existingUpper defs sources with
  | nil => simp [introspect, firstSpellings]
  | cons id rest ih =>
      rw [introspect, firstSpellings]
      split
      · exact ih known
      · rename_i unseen
        have absent : id ∉ defs.entries.map Prod.fst := fun member => unseen (known id member)
        have keys : (defs.set id (fallback id)).entries.map Prod.fst =
            defs.entries.map Prod.fst ++ [id] := by
          rw [OrderedMap.set, OrderedMap.keys_replace, if_neg absent]
        rw [ih, keys, List.append_assoc, List.singleton_append]
        intro other member
        rw [keys, List.mem_append, List.mem_singleton] at member
        obtain old | rfl := member
        · exact List.mem_cons_of_mem _ (known other old)
        · exact List.mem_cons_self

theorem mem_upper_firstSpellings {existingUpper : List String} {type : String} :
    type ∈ (firstSpellings runtime existingUpper ids).map runtime.upper ↔
      type ∈ ids.map runtime.upper ∧ type ∉ existingUpper := by
  induction ids generalizing existingUpper with
  | nil => simp [firstSpellings]
  | cons id rest ih =>
      rw [firstSpellings, List.map_cons, List.mem_cons]
      split
      · rename_i seen
        rw [ih]
        constructor
        · exact fun ⟨later, fresh⟩ => ⟨.inr later, fresh⟩
        · rintro ⟨rfl | later, fresh⟩
          · exact absurd seen fresh
          · exact ⟨later, fresh⟩
      · rename_i unseen
        rw [List.map_cons, List.mem_cons, ih, List.mem_cons, not_or]
        by_cases first : type = runtime.upper id
        · subst first
          simp [unseen]
        · simp [first]

/-- What the introspection adds, up to letter case. -/
theorem folded_added {fallback : String → α} {sources : OrderedMap String ResolutionSource} :
    folded runtime (keySet (introspect runtime fallback (existing runtime defs) ids defs sources).1
      \ keySet defs) = lacking runtime defs ids := by
  have known : ∀ id ∈ defs.entries.map Prod.fst, runtime.upper id ∈ existing runtime defs := by
    intro id member
    obtain ⟨entry, present, rfl⟩ := List.mem_map.mp member
    exact List.mem_map_of_mem present
  ext type
  rw [mem_lacking, ← mem_upper_firstSpellings, folded, Finset.mem_image, List.mem_map]
  apply exists_congr
  intro id
  rw [Finset.mem_sdiff, keySet, keySet, List.mem_toFinset, List.mem_toFinset,
    keys_introspect known, List.mem_append]
  constructor
  · rintro ⟨⟨old | added, absent⟩, same⟩
    · exact absurd old absent
    · exact ⟨added, same⟩
  · rintro ⟨added, same⟩
    have fresh : runtime.upper id ∉ existing runtime defs :=
      (mem_upper_firstSpellings.mp (List.mem_map_of_mem added)).2
    exact ⟨⟨.inr added, fun old => fresh (known id old)⟩, same⟩

/-- A type of the graph that is a defined one up to letter case is spelled as a defined one. -/
def SpelledAsDefined (runtime : Runtime) (defs : OrderedMap String α) (ids : List String) : Prop :=
  ∀ id ∈ ids, ∀ type ∈ keySet defs, runtime.upper id = runtime.upper type → id ∈ keySet defs

theorem folded_uncovered_iff :
    folded runtime (ids.toFinset \ keySet defs) = lacking runtime defs ids ↔
      SpelledAsDefined runtime defs ids := by
  constructor
  · intro agrees id listed type defined same
    by_contra absent
    have uncovered : runtime.upper id ∈ folded runtime (ids.toFinset \ keySet defs) :=
      Finset.mem_image_of_mem _ (Finset.mem_sdiff.mpr ⟨List.mem_toFinset.mpr listed, absent⟩)
    rw [agrees, lacking, Finset.mem_sdiff, same] at uncovered
    exact uncovered.2 (Finset.mem_image_of_mem _ defined)
  · intro spelled
    ext type
    rw [lacking, Finset.mem_sdiff, folded, folded, folded, Finset.mem_image, Finset.mem_image]
    constructor
    · rintro ⟨id, uncovered, rfl⟩
      obtain ⟨listed, absent⟩ := Finset.mem_sdiff.mp uncovered
      refine ⟨⟨id, listed, rfl⟩, ?_⟩
      intro defined
      obtain ⟨other, present, same⟩ := Finset.mem_image.mp defined
      exact absent (spelled id (List.mem_toFinset.mp listed) other present same.symm)
    · rintro ⟨⟨id, listed, rfl⟩, undefined⟩
      have absent : id ∉ keySet defs :=
        fun defined => undefined (Finset.mem_image_of_mem _ defined)
      exact ⟨id, Finset.mem_sdiff.mpr ⟨listed, absent⟩, rfl⟩

end

section

variable (runtime : Runtime)
  (computeFingerprint : String → Int → RawEntities → RawRelationships → String)
  (ontology : OntologyRecord) (entityIds relIds : List String)

/-- The entity types that the resolver makes up a definition for. -/
def synthesizedEntityTypes : Finset String :=
  keySet (resolveOntology runtime (some ontology.toOntologyData) (some entityIds)
    (some relIds)).entityTypeDefinitions \ keySet ontology.entityTypeDefinitions

def synthesizedEdgeTypes : Finset String :=
  keySet (resolveOntology runtime (some ontology.toOntologyData) (some entityIds)
    (some relIds)).relationshipTypeDefinitions \ keySet ontology.relationshipTypeDefinitions

def coverage : CoverageReport :=
  checkCoverage runtime (parseEntityDefinitions ontology.entityTypeDefinitions)
    (parseRelationshipDefinitions ontology.relationshipTypeDefinitions) entityIds relIds

/-- Up to letter case, the types that the gate reports missing are those that the resolver makes
up and those that the coverage report has as uncovered. -/
structure CoverageAgrees : Prop where
  entities_made_up :
    folded runtime (checkResolution runtime computeFingerprint ontology entityIds
      relIds).missingEntityTypes.toFinset =
    folded runtime (synthesizedEntityTypes runtime ontology entityIds relIds)
  entities_uncovered :
    folded runtime (checkResolution runtime computeFingerprint ontology entityIds
      relIds).missingEntityTypes.toFinset =
    folded runtime (coverage runtime ontology entityIds relIds).uncoveredEntityTypes
  edges_made_up :
    folded runtime (checkResolution runtime computeFingerprint ontology entityIds
      relIds).missingEdgeTypes.toFinset =
    folded runtime (synthesizedEdgeTypes runtime ontology entityIds relIds)
  edges_uncovered :
    folded runtime (checkResolution runtime computeFingerprint ontology entityIds
      relIds).missingEdgeTypes.toFinset =
    folded runtime (coverage runtime ontology entityIds relIds).uncoveredRelationshipTypes

section Answers

variable {runtime computeFingerprint ontology entityIds relIds}

theorem keySet_mapValues {α β : Type} {defs : OrderedMap String α} {change : α → β} :
    keySet (defs.mapValues change) = keySet defs := by
  rw [keySet, keySet, OrderedMap.mapValues, List.map_map]
  rfl

theorem lacking_mapValues {α β : Type} {defs : OrderedMap String α} {change : α → β}
    {ids : List String} :
    lacking runtime (defs.mapValues change) ids = lacking runtime defs ids := by
  rw [lacking, lacking, keySet_mapValues]

theorem missingEntityTypes_lacking :
    folded runtime (checkResolution runtime computeFingerprint ontology entityIds
      relIds).missingEntityTypes.toFinset =
    lacking runtime ontology.entityTypeDefinitions entityIds :=
  folded_missingTypes.trans lacking_mapValues

theorem missingEdgeTypes_lacking :
    folded runtime (checkResolution runtime computeFingerprint ontology entityIds
      relIds).missingEdgeTypes.toFinset =
    lacking runtime ontology.relationshipTypeDefinitions relIds :=
  folded_missingTypes.trans lacking_mapValues

theorem synthesizedEntityTypes_lacking :
    folded runtime (synthesizedEntityTypes runtime ontology entityIds relIds) =
      lacking runtime ontology.entityTypeDefinitions entityIds := by
  rw [← lacking_mapValues, ← folded_added, keySet_mapValues]
  rfl

theorem synthesizedEdgeTypes_lacking :
    folded runtime (synthesizedEdgeTypes runtime ontology entityIds relIds) =
      lacking runtime ontology.relationshipTypeDefinitions relIds := by
  rw [← lacking_mapValues, ← folded_added, keySet_mapValues]
  rfl

theorem uncoveredEntityTypes_eq :
    (coverage runtime ontology entityIds relIds).uncoveredEntityTypes =
      entityIds.toFinset \ keySet ontology.entityTypeDefinitions :=
  congrArg (entityIds.toFinset \ ·) keySet_mapValues

theorem uncoveredRelationshipTypes_eq :
    (coverage runtime ontology entityIds relIds).uncoveredRelationshipTypes =
      relIds.toFinset \ keySet ontology.relationshipTypeDefinitions :=
  congrArg (relIds.toFinset \ ·) keySet_mapValues

end Answers

theorem coverage_agrees_iff :
    CoverageAgrees runtime computeFingerprint ontology entityIds relIds ↔
      SpelledAsDefined runtime ontology.entityTypeDefinitions entityIds ∧
      SpelledAsDefined runtime ontology.relationshipTypeDefinitions relIds := by
  constructor
  · intro agrees
    have entities := agrees.entities_uncovered
    have edges := agrees.edges_uncovered
    rw [missingEntityTypes_lacking, uncoveredEntityTypes_eq] at entities
    rw [missingEdgeTypes_lacking, uncoveredRelationshipTypes_eq] at edges
    exact ⟨folded_uncovered_iff.mp entities.symm, folded_uncovered_iff.mp edges.symm⟩
  · intro ⟨entities, edges⟩
    constructor
    · rw [missingEntityTypes_lacking, synthesizedEntityTypes_lacking]
    · rw [missingEntityTypes_lacking, uncoveredEntityTypes_eq, folded_uncovered_iff.mpr entities]
    · rw [missingEdgeTypes_lacking, synthesizedEdgeTypes_lacking]
    · rw [missingEdgeTypes_lacking, uncoveredRelationshipTypes_eq, folded_uncovered_iff.mpr edges]

end

/-- An ontology that defines `person`. -/
def people : OntologyRecord where
  entityTypeDefinitions := OrderedMap.empty.set "person" { name := some "Person" }
  relationshipTypeDefinitions := OrderedMap.empty
  id := "people"
  version := 1
  isPublished := true
  revision := 1

theorem other_case_uncovered :
    ¬ CoverageAgrees .ascii (fun id _ _ _ => id) people ["Person"] [] := by
  intro agrees
  have uncovered := agrees.entities_uncovered
  rw [missingEntityTypes_lacking] at uncovered
  exact absurd uncovered (by decide)

end Univiz.Resolver

import Mathlib.Data.List.Nodup

namespace Univiz.Ontology

/-! The table `ontologies` and the requests that change it. -/

/-! A value of a JSON document.  The fields of an object stand in the order in which they
are written. -/
mutual

inductive Json where
  | scalar (text : String)
  | array (items : JsonList)
  | object (fields : JsonFields)
deriving DecidableEq

inductive JsonList where
  | nil
  | cons (item : Json) (rest : JsonList)
deriving DecidableEq

inductive JsonFields where
  | nil
  | cons (key : String) (value : Json) (rest : JsonFields)
deriving DecidableEq

end

namespace JsonFields

def keys : JsonFields → List String
  | nil => []
  | cons key _ rest => key :: rest.keys

def get : JsonFields → String → Option Json
  | nil, _ => none
  | cons other value rest, key => if other = key then some value else rest.get key

end JsonFields

mutual

def deepEqual : Json → Json → Bool
  | .scalar text, other =>
      match other with
      | .scalar otherText => text = otherText
      | _ => false
  | .array items, other =>
      match other with
      | .array otherItems => itemsEqual items otherItems
      | _ => false
  | .object fields, other =>
      match other with
      | .object otherFields =>
          otherFields.keys.all (fun key => (fields.get key).isSome) &&
            fieldsEqual fields otherFields
      | _ => false

def itemsEqual : JsonList → JsonList → Bool
  | .nil, other =>
      match other with
      | .nil => true
      | .cons _ _ => false
  | .cons item rest, other =>
      match other with
      | .nil => false
      | .cons otherItem otherRest => deepEqual item otherItem && itemsEqual rest otherRest

/-- Every field has an equal field in the other object. -/
def fieldsEqual : JsonFields → JsonFields → Bool
  | .nil, _ => true
  | .cons key value rest, other =>
      (match other.get key with
        | some otherValue => deepEqual value otherValue
        | none => false) && fieldsEqual rest other

end

def dictEqual (fields other : JsonFields) : Bool := deepEqual (.object fields) (.object other)

inductive EvolutionPolicy where
  | reject
  | deprecate
  | migrate
deriving DecidableEq, Repr

/-- The columns with the types of an ontology. -/
structure Content where
  containmentEdgeTypes : List String
  lineageEdgeTypes : List String
  edgeTypeMetadata : JsonFields
  entityTypeHierarchy : JsonFields
  rootEntityTypes : List String
  entityTypeDefinitions : JsonFields
  relationshipTypeDefinitions : JsonFields
deriving DecidableEq

/-- New values of some of these columns. -/
structure ContentUpdate where
  containmentEdgeTypes : Option (List String) := none
  lineageEdgeTypes : Option (List String) := none
  edgeTypeMetadata : Option JsonFields := none
  entityTypeHierarchy : Option JsonFields := none
  rootEntityTypes : Option (List String) := none
  entityTypeDefinitions : Option JsonFields := none
  relationshipTypeDefinitions : Option JsonFields := none
deriving DecidableEq

namespace ContentUpdate

variable (update : ContentUpdate) (content : Content)

def apply : Content where
  containmentEdgeTypes := update.containmentEdgeTypes.getD content.containmentEdgeTypes
  lineageEdgeTypes := update.lineageEdgeTypes.getD content.lineageEdgeTypes
  edgeTypeMetadata := update.edgeTypeMetadata.getD content.edgeTypeMetadata
  entityTypeHierarchy := update.entityTypeHierarchy.getD content.entityTypeHierarchy
  rootEntityTypes := update.rootEntityTypes.getD content.rootEntityTypes
  entityTypeDefinitions := update.entityTypeDefinitions.getD content.entityTypeDefinitions
  relationshipTypeDefinitions :=
    update.relationshipTypeDefinitions.getD content.relationshipTypeDefinitions

/-- The ORM leaves out the columns that keep the value they were loaded with. -/
def changes : ContentUpdate where
  containmentEdgeTypes := update.containmentEdgeTypes.filter (· ≠ content.containmentEdgeTypes)
  lineageEdgeTypes := update.lineageEdgeTypes.filter (· ≠ content.lineageEdgeTypes)
  edgeTypeMetadata := update.edgeTypeMetadata.filter (· ≠ content.edgeTypeMetadata)
  entityTypeHierarchy := update.entityTypeHierarchy.filter (· ≠ content.entityTypeHierarchy)
  rootEntityTypes := update.rootEntityTypes.filter (· ≠ content.rootEntityTypes)
  entityTypeDefinitions := update.entityTypeDefinitions.filter (· ≠ content.entityTypeDefinitions)
  relationshipTypeDefinitions :=
    update.relationshipTypeDefinitions.filter (· ≠ content.relationshipTypeDefinitions)

end ContentUpdate

@[simp] theorem ContentUpdate.apply_empty (content : Content) :
    ({} : ContentUpdate).apply content = content := rfl

@[simp] theorem ContentUpdate.changes_empty (content : Content) :
    ({} : ContentUpdate).changes content = {} := rfl

structure OntologyRow where
  id : Nat
  schemaId : Option Nat
  version : Nat
  name : String
  description : Option String
  evolutionPolicy : EvolutionPolicy
  isPublished : Bool
  isSystem : Bool
  deleted : Bool
  content : Content
deriving DecidableEq

namespace OntologyRow

/-- `schema_id or id`. -/
def schema (row : OntologyRow) : Nat := row.schemaId.getD row.id

def entityTypes (row : OntologyRow) : List String := row.content.entityTypeDefinitions.keys

def relationshipTypes (row : OntologyRow) : List String :=
  row.content.relationshipTypeDefinitions.keys

end OntologyRow

/-- The columns that an UPDATE sets. -/
structure Write where
  name : Option String := none
  description : Option (Option String) := none
  evolutionPolicy : Option EvolutionPolicy := none
  content : ContentUpdate := {}
  isPublished : Bool := false
deriving DecidableEq

def Write.apply (write : Write) (row : OntologyRow) : OntologyRow :=
  { row with
    name := write.name.getD row.name
    description := write.description.getD row.description
    evolutionPolicy := write.evolutionPolicy.getD row.evolutionPolicy
    content := write.content.apply row.content
    isPublished := write.isPublished || row.isPublished }

/-- An UPDATE of one row keeps what identifies every row. -/
theorem Write.rewrite_keeps (write : Write) (id : Nat) (row : OntologyRow) :
    (if row.id = id then write.apply row else row).schemaId = row.schemaId ∧
      (if row.id = id then write.apply row else row).version = row.version ∧
      (if row.id = id then write.apply row else row).id = row.id := by
  split <;> exact ⟨rfl, rfl, rfl⟩

structure OntologyUpdateRequest where
  name : Option String := none
  description : Option String := none
  evolutionPolicy : Option EvolutionPolicy := none
  content : ContentUpdate := {}
deriving DecidableEq

namespace OntologyUpdateRequest

variable (request : OntologyUpdateRequest) (row : OntologyRow)

def isMetadataOnly : Bool := request.content = {}

def write : Write where
  name := request.name.filter (· ≠ row.name)
  description := (request.description.map some).filter (· ≠ row.description)
  evolutionPolicy := request.evolutionPolicy.filter (· ≠ row.evolutionPolicy)
  content := request.content.changes row.content

/-- The row of `_create_new_version` but for its version and identity. -/
def newVersion : OntologyRow where
  id := 0
  schemaId := some row.schema
  version := 0
  name := request.name.getD row.name
  description := request.description.or row.description
  evolutionPolicy := request.evolutionPolicy.getD row.evolutionPolicy
  isPublished := false
  isSystem := false
  deleted := false
  content := request.content.apply row.content

end OntologyUpdateRequest

structure OntologyImportRequest where
  name : String
  description : Option String
  evolutionPolicy : EvolutionPolicy
  content : Content
deriving DecidableEq

namespace OntologyImportRequest

variable (request : OntologyImportRequest) (row : OntologyRow)

/-- Whether `_compute_import_diff` finds something that has changed. -/
def changed : Bool :=
  !(dictEqual row.content.entityTypeDefinitions request.content.entityTypeDefinitions &&
    dictEqual row.content.relationshipTypeDefinitions
      request.content.relationshipTypeDefinitions &&
    row.content.containmentEdgeTypes = request.content.containmentEdgeTypes &&
    row.content.lineageEdgeTypes = request.content.lineageEdgeTypes &&
    dictEqual row.content.edgeTypeMetadata request.content.edgeTypeMetadata &&
    dictEqual row.content.entityTypeHierarchy request.content.entityTypeHierarchy &&
    row.content.rootEntityTypes = request.content.rootEntityTypes &&
    row.name = request.name &&
    row.description.getD "" = request.description.getD "" &&
    row.evolutionPolicy = request.evolutionPolicy)

def update : ContentUpdate where
  containmentEdgeTypes := some request.content.containmentEdgeTypes
  lineageEdgeTypes := some request.content.lineageEdgeTypes
  edgeTypeMetadata := some request.content.edgeTypeMetadata
  entityTypeHierarchy := some request.content.entityTypeHierarchy
  rootEntityTypes := some request.content.rootEntityTypes
  entityTypeDefinitions := some request.content.entityTypeDefinitions
  relationshipTypeDefinitions := some request.content.relationshipTypeDefinitions

/-- The UPDATE of `_apply_import_fields`. -/
def write : Write where
  name := (some request.name).filter (· ≠ row.name)
  description := (some request.description).filter (· ≠ row.description)
  evolutionPolicy := (some request.evolutionPolicy).filter (· ≠ row.evolutionPolicy)
  content := request.update.changes row.content

/-- The row of an import but for its version and identity, in a schema that is there or
in one of its own. -/
def newRow (schemaId : Option Nat) : OntologyRow where
  id := 0
  schemaId := schemaId
  version := 0
  name := request.name
  description := request.description
  evolutionPolicy := request.evolutionPolicy
  isPublished := false
  isSystem := false
  deleted := false
  content := request.content

end OntologyImportRequest

end Univiz.Ontology

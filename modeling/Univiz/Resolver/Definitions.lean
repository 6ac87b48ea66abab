import Univiz.Data.Texts
import Univiz.Data.OrderedMap

namespace Univiz.Resolver

open Univiz.Data

/-! The definitions of an ontology, as they are stored and as they are read. -/

/-- Methods of Python's strings, how it prints a list of strings, a share in percent that is
rounded to one decimal, and the order in which it goes through a set. -/
structure Runtime where
  upper : String → String
  title : String → String
  strip : String → String
  printed : List String → String
  percent : Nat → Nat → Rat
  setOrder : List String → List String
  setOrder_perm : ∀ items, (setOrder items).Perm items

def titleFrom (inWord : Bool) : List Char → List Char
  | [] => []
  | c :: rest => (if inWord then c.toLower else c.toUpper) :: titleFrom c.isAlpha rest

/-- `round` of a fraction. -/
def roundHalfEven (part whole : Nat) : Nat :=
  let below := part / whole
  let rest := 2 * (part % whole)
  if rest < whole ∨ rest = whole ∧ below % 2 = 0 then below else below + 1

/-- Python on ASCII texts. -/
def Runtime.ascii : Runtime where
  upper text := String.ofList (text.toList.map Char.toUpper)
  title text := String.ofList (titleFrom false text.toList)
  strip text := String.ofList (Decimal.strip text.toList)
  printed items := "[" ++ ", ".intercalate (items.map fun item => "'" ++ item ++ "'") ++ "]"
  percent part whole := roundHalfEven (1000 * part) whole / 10
  setOrder := id
  setOrder_perm items := List.Perm.refl items

structure RawHierarchy where
  level : Option Int := none
  can_contain : Option (List String) := none
  canContain : Option (List String) := none
  can_be_contained_by : Option (List String) := none
  canBeContainedBy : Option (List String) := none
  default_expanded : Option Bool := none
  defaultExpanded : Option Bool := none

structure RawEntity where
  name : Option String := none
  plural_name : Option String := none
  pluralName : Option String := none
  description : Option String := none
  hierarchy : Option RawHierarchy := none

structure RawVisual where
  stroke_color : Option String := none
  strokeColor : Option String := none
  stroke_style : Option String := none
  strokeStyle : Option String := none
  animated : Option Bool := none

structure RawRelationship where
  name : Option String := none
  category : Option String := none
  is_containment : Option Bool := none
  isContainment : Option Bool := none
  is_lineage : Option Bool := none
  isLineage : Option Bool := none
  direction : Option String := none
  visual : Option RawVisual := none
  source_types : Option (List String) := none
  sourceTypes : Option (List String) := none
  target_types : Option (List String) := none
  targetTypes : Option (List String) := none

structure EntityHierarchyData where
  level : Int := 0
  canContain : List String := []
  canBeContainedBy : List String := []
  defaultExpanded : Bool := false
deriving DecidableEq

structure EntityTypeDefEntry where
  name : String := ""
  pluralName : String := ""
  description : Option String := none
  hierarchy : EntityHierarchyData := {}
deriving DecidableEq

structure RelationshipVisualData where
  strokeColor : String := "#6366f1"
  strokeStyle : String := "solid"
  animated : Bool := true
deriving DecidableEq

structure RelationshipTypeDefEntry where
  name : String := ""
  category : String := "association"
  isContainment : Bool := false
  isLineage : Bool := false
  direction : String := "source-to-target"
  visual : RelationshipVisualData := {}
  sourceTypes : List String := []
  targetTypes : List String := []
deriving DecidableEq

/-- `data.get(snake, data.get(camel, default))`. -/
def keyed {α : Type} (snake camel : Option α) (default : α) : α := snake.getD (camel.getD default)

def entityDefFromDict (data : RawEntity) : EntityTypeDefEntry :=
  let hier := data.hierarchy.getD {}
  { name := data.name.getD ""
    pluralName := keyed data.plural_name data.pluralName ""
    description := data.description
    hierarchy :=
      { level := hier.level.getD 0
        canContain := keyed hier.can_contain hier.canContain []
        canBeContainedBy := keyed hier.can_be_contained_by hier.canBeContainedBy []
        defaultExpanded := keyed hier.default_expanded hier.defaultExpanded false } }

def relDefFromDict (data : RawRelationship) : RelationshipTypeDefEntry :=
  let vis := data.visual.getD {}
  { name := data.name.getD ""
    category := data.category.getD "association"
    isContainment := keyed data.is_containment data.isContainment false
    isLineage := keyed data.is_lineage data.isLineage false
    direction := data.direction.getD "source-to-target"
    visual :=
      { strokeColor := keyed vis.stroke_color vis.strokeColor "#6366f1"
        strokeStyle := keyed vis.stroke_style vis.strokeStyle "solid"
        animated := vis.animated.getD true }
    sourceTypes := keyed data.source_types data.sourceTypes []
    targetTypes := keyed data.target_types data.targetTypes [] }

abbrev RawEntities := OrderedMap String RawEntity
abbrev RawRelationships := OrderedMap String RawRelationship
abbrev EntityDefs := OrderedMap String EntityTypeDefEntry
abbrev RelationshipDefs := OrderedMap String RelationshipTypeDefEntry

def parseEntityDefinitions (raw : RawEntities) : EntityDefs := raw.mapValues entityDefFromDict

def parseRelationshipDefinitions (raw : RawRelationships) : RelationshipDefs :=
  raw.mapValues relDefFromDict

structure OntologyData where
  entityTypeDefinitions : RawEntities
  relationshipTypeDefinitions : RawRelationships

structure EdgeTypeMetadata where
  isContainment : Bool
  isLineage : Bool
  category : String
  direction : String
  color : String
  strokeStyle : String
  animated : Bool

structure DerivedLists where
  containmentEdgeTypes : List String
  lineageEdgeTypes : List String
  rootEntityTypes : List String
  entityTypeHierarchy : OrderedMap String EntityHierarchyData
  edgeTypeMetadata : OrderedMap String EdgeTypeMetadata

/-- Where a type of a resolved ontology comes from. -/
inductive ResolutionSource
  | assigned
  | introspection
deriving DecidableEq

structure ResolvedOntology extends DerivedLists where
  entityTypeDefinitions : EntityDefs
  relationshipTypeDefinitions : RelationshipDefs
  resolutionSources : OrderedMap String ResolutionSource

def RelationshipTypeDefEntry.metadata (definition : RelationshipTypeDefEntry) :
    EdgeTypeMetadata where
  isContainment := definition.isContainment
  isLineage := definition.isLineage
  category := definition.category
  direction := definition.direction
  color := definition.visual.strokeColor
  strokeStyle := definition.visual.strokeStyle
  animated := definition.visual.animated

variable (runtime : Runtime)

def deriveFlatLists (entityDefs : EntityDefs) (relDefs : RelationshipDefs) : DerivedLists where
  containmentEdgeTypes := (relDefs.entries.filter fun entry => entry.2.isContainment).map Prod.fst
  lineageEdgeTypes := (relDefs.entries.filter fun entry => entry.2.isLineage).map Prod.fst
  rootEntityTypes :=
    (entityDefs.entries.filter fun entry => entry.2.hierarchy.canBeContainedBy = []).map Prod.fst
  entityTypeHierarchy := entityDefs.mapValues (·.hierarchy)
  edgeTypeMetadata := relDefs.entries.foldl
    (fun metadata entry => metadata.set (runtime.upper entry.1) entry.2.metadata) OrderedMap.empty

/-- A blank before every capital letter. -/
def spaced (typeId : String) : String :=
  String.ofList (typeId.toList.flatMap fun c => if 'A' ≤ c ∧ c ≤ 'Z' then [' ', c] else [c])

def humanize (typeId : String) : String :=
  if '_' ∈ typeId.toList then runtime.title (typeId.map fun c => if c = '_' then ' ' else c)
  else
    match (runtime.strip (spaced typeId)).toList with
    | [] => typeId
    | first :: rest => runtime.upper (String.ofList [first]) ++ String.ofList rest

/-- The definitions with one for each id that no spelling of is there yet, and the sources.
The letter case of an id does not count. -/
def introspect {α : Type} (fallback : String → α) :
    List String → List String → OrderedMap String α → OrderedMap String ResolutionSource →
      OrderedMap String α × OrderedMap String ResolutionSource
  | _, [], defs, sources => (defs, sources)
  | existingUpper, id :: rest, defs, sources =>
      if runtime.upper id ∈ existingUpper then introspect fallback existingUpper rest defs sources
      else
        introspect fallback (runtime.upper id :: existingUpper) rest (defs.set id (fallback id))
          (sources.set id .introspection)

/-- The keys of the definitions in upper case. -/
def existing {α : Type} (defs : OrderedMap String α) : List String :=
  defs.entries.map fun entry => runtime.upper entry.1

def fallbackEntity (typeId : String) : EntityTypeDefEntry where
  name := humanize runtime typeId
  pluralName := humanize runtime typeId ++ "s"

def fallbackRelationship (typeId : String) : RelationshipTypeDefEntry where
  name := humanize runtime typeId

def resolveOntology (assigned : Option OntologyData)
    (introspectedEntityIds introspectedRelIds : Option (List String)) : ResolvedOntology :=
  let asgnEnt := (assigned.map fun data => parseEntityDefinitions data.entityTypeDefinitions).getD
    OrderedMap.empty
  let asgnRel := (assigned.map fun data =>
    parseRelationshipDefinitions data.relationshipTypeDefinitions).getD OrderedMap.empty
  let sources := (asgnEnt.entries.map Prod.fst ++ asgnRel.entries.map Prod.fst).foldl
    (fun sources id => sources.set id .assigned) OrderedMap.empty
  let (entityDefs, sources) := introspect runtime (fallbackEntity runtime)
    (existing runtime asgnEnt) (introspectedEntityIds.getD []) asgnEnt sources
  let (relDefs, sources) := introspect runtime (fallbackRelationship runtime)
    (existing runtime asgnRel) (introspectedRelIds.getD []) asgnRel sources
  { deriveFlatLists runtime entityDefs relDefs with
    entityTypeDefinitions := entityDefs
    relationshipTypeDefinitions := relDefs
    resolutionSources := sources }

end Univiz.Resolver

import Mathlib.Data.String.Basic
import Univiz.Data.OrderedMap
import Univiz.Data.Relaxation

namespace Univiz.Ontology

open Univiz.Data

/-! Levels of the entity types of an ontology: those that are declared, and those that
follow from which types contain which. -/

/-- A value under the key `level`.  Python's booleans are integers. -/
inductive LevelValue
  | number (level : Int)
  | other
deriving DecidableEq

def LevelValue.int? : LevelValue → Option Int
  | .number level => some level
  | .other => none

/-- The hierarchy of a definition as it is stored: the value under each key that is there,
where a list may be null. -/
structure RawHierarchy where
  level : Option LevelValue := none
  can_contain : Option (Option (List String)) := none
  canContain : Option (Option (List String)) := none
  can_be_contained_by : Option (Option (List String)) := none
  canBeContainedBy : Option (Option (List String)) := none
deriving DecidableEq

structure RawEntity where
  hierarchy : Option RawHierarchy := none
deriving DecidableEq

structure EntityHierarchyData where
  level : LevelValue
  canContain : Option (List String)
  canBeContainedBy : Option (List String)

structure EntityTypeDefEntry where
  hierarchy : Option EntityHierarchyData

def entityDefFromDict (data : RawEntity) : EntityTypeDefEntry :=
  let hier := data.hierarchy.getD {}
  { hierarchy := some
      { level := hier.level.getD (.number 0)
        canContain := hier.can_contain.getD (hier.canContain.getD (some []))
        canBeContainedBy :=
          hier.can_be_contained_by.getD (hier.canBeContainedBy.getD (some [])) } }

abbrev EntityDefinitions := OrderedMap String EntityTypeDefEntry

def parseEntityDefinitions (raw : OrderedMap String RawEntity) : EntityDefinitions :=
  raw.entries.foldl (fun defs entry => defs.set entry.1 (entityDefFromDict entry.2))
    OrderedMap.empty

namespace EntityDefinitions

def types (defs : EntityDefinitions) : List String := defs.entries.map Prod.fst

/-- The pairs of a type and a parent that the lists of one definition name.  An empty name,
the type itself and a name that is no type are passed over. -/
def mentions (types : List String) (entry : String × EntityTypeDefEntry) :
    List (String × String) :=
  match entry.2.hierarchy with
  | none => []
  | some hierarchy =>
      let names (list : Option (List String)) :=
        (list.getD []).filter fun name => name ≠ "" ∧ name ≠ entry.1 ∧ name ∈ types
      (names hierarchy.canBeContainedBy).map (fun parent => (entry.1, parent)) ++
        (names hierarchy.canContain).map fun child => (child, entry.1)

def addParent (parents : OrderedMap String (List String)) (pair : String × String) :
    OrderedMap String (List String) :=
  parents.set pair.1 (((parents.get pair.1).getD []).insert pair.2)

def parents (defs : EntityDefinitions) : OrderedMap String (List String) :=
  (defs.entries.flatMap (mentions defs.types)).foldl addParent OrderedMap.empty

abbrev Levels := OrderedMap String Nat

/-- A visit to a type, and whether a level has changed in the round so far. -/
def visit (parents : OrderedMap String (List String)) (round : Levels × Bool)
    (type : String) : Levels × Bool :=
  match (((parents.get type).getD []).filterMap round.1.get).max? with
  | none => round
  | some highest =>
      if round.1.get type = some (highest + 1) then round
      else (round.1.set type (highest + 1), true)

/-- Rounds over the types, in the order of their set, until nothing changes. -/
def relaxLevels (parents : OrderedMap String (List String)) (allTypes : List String) :
    Nat → Levels → Levels
  | 0, levels => levels
  | iterations + 1, levels =>
      let (next, changed) := allTypes.foldl (visit parents) (levels, false)
      if changed then relaxLevels parents allTypes iterations next else next

def rootLevels (parents : OrderedMap String (List String)) (allTypes : List String) : Levels :=
  (allTypes.filter fun type => (parents.get type).isNone).foldl
    (fun levels type => levels.set type 0) OrderedMap.empty

/-- `allTypes` is the set of types in the order in which the process iterates over it. -/
def deriveFromContainment (defs : EntityDefinitions) (allTypes : List String) : Levels :=
  let parents := defs.parents
  if parents.entries = [] then OrderedMap.empty
  else relaxLevels parents allTypes (allTypes.length + 1) (rootLevels parents allTypes)

def declareLevel (declared : OrderedMap String Int) (entry : String × EntityTypeDefEntry) :
    OrderedMap String Int :=
  match entry.2.hierarchy.bind (·.level.int?) with
  | none => declared
  | some level => declared.set entry.1 level

def declared (defs : EntityDefinitions) : OrderedMap String Int :=
  defs.entries.foldl declareLevel OrderedMap.empty

def deriveLevelMap (defs : EntityDefinitions) (allTypes : List String) :
    OrderedMap String Int :=
  if defs.entries = [] then OrderedMap.empty
  else
    let derived := (defs.deriveFromContainment allTypes).entries.foldl
      (fun levels entry => levels.set entry.1 (entry.2 : Int)) OrderedMap.empty
    derived.overlay defs.declared

end EntityDefinitions

/-! The digest: the text of the sorted items, hashed. -/

def itemLe (first second : String × Int) : Bool :=
  first.1 < second.1 || first.1 = second.1 && first.2 ≤ second.2

def computeLevelDigest (dumps : List (String × Int) → String) (sha256 : String → String)
    (levelMap : OrderedMap String Int) : String :=
  sha256 (dumps (levelMap.entries.mergeSort itemLe))

end Univiz.Ontology

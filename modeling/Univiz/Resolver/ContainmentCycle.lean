import Mathlib.Data.List.Perm.Subperm
import Univiz.Data.Cycle
import Univiz.Resolver.Definitions

namespace Univiz.Resolver

open Univiz.Data

/-! `_find_containment_cycle`: a depth-first search with three colours. -/

inductive Color
  | white
  | gray
  | black
deriving DecidableEq

abbrev ContainmentGraph := OrderedMap String (List String)

namespace ContainmentGraph

variable (graph : ContainmentGraph)

/-- `graph.get(node, [])`. -/
def neighbors (node : String) : List String := (graph.get node).getD []

def Edge (node neighbor : String) : Prop := neighbor ∈ graph.neighbors node

/-- Every node and every name in a list. -/
def names : List String := graph.entries.map Prod.fst ++ graph.entries.flatMap Prod.snd

end ContainmentGraph

structure Search where
  color : OrderedMap String Color
  parent : OrderedMap String (Option String)

namespace Search

variable (search : Search)

def start (graph : ContainmentGraph) : Search where
  color := graph.mapValues fun _ => .white
  parent := graph.mapValues fun _ => none

def paint (node : String) (color : Color) : Search :=
  { search with color := search.color.set node color }

/-- A name that is no node is added as a white one. -/
def discover (node : String) : Search :=
  if (search.color.get node).isSome then search
  else ⟨search.color.set node .white, search.parent.set node none⟩

def setParent (node parent : String) : Search :=
  { search with parent := search.parent.set node (some parent) }

/-- The nodes from `current` upwards, without it, to the one whose parent is `neighbor`.  No
parent and an empty one end the walk, too. -/
def climb (neighbor : String) : Nat → String → Option (List String)
  | 0, _ => none
  | fuel + 1, current =>
      match (search.parent.get current).join with
      | none => some []
      | some above =>
          if above = "" ∨ above = neighbor then some []
          else (climb neighbor fuel above).map (above :: ·)

/-- The path that is reported for a grey neighbor of a node. -/
def rebuild (fuel : Nat) (node neighbor : String) : Option (List String) :=
  (search.climb neighbor fuel node).map fun above =>
    (neighbor :: node :: above).reverse ++ [neighbor]

end Search

/-- The search after a visit, and the path if one was found.  Without fuel there is no result. -/
abbrev Visit := Option (Search × Option (List String))

section Algorithm

variable (graph : ContainmentGraph)

/-- More than the depth of any visit. -/
def searchFuel : Nat := graph.names.length + 1

def scan (visit : Search → String → Visit) (node : String) : List String → Search → Visit
  | [], search => some (search, none)
  | neighbor :: rest, search =>
      if neighbor = node then scan visit node rest search
      else
        let search := search.discover neighbor
        match search.color.get neighbor with
        | some .gray =>
            (search.rebuild (searchFuel graph) node neighbor).map fun path => (search, some path)
        | some .white =>
            match visit (search.setParent neighbor node) neighbor with
            | none => none
            | some (search, some path) => some (search, some path)
            | some (search, none) => scan visit node rest search
        | _ => scan visit node rest search

def dfs : Nat → Search → String → Visit
  | 0, _, _ => none
  | fuel + 1, search, node =>
      match scan graph (dfs fuel) node (graph.neighbors node) (search.paint node .gray) with
      | none => none
      | some (search, some path) => some (search, some path)
      | some (search, none) => some (search.paint node .black, none)

def dfsFrom : List String → Search → Option (Option (List String))
  | [], _ => some none
  | node :: rest, search =>
      if search.color.get node = some .white then
        match dfs graph (searchFuel graph) search node with
        | none => none
        | some (_, some cycle) => some (some cycle)
        | some (search, none) => dfsFrom rest search
      else dfsFrom rest search

def findContainmentCycle : Option (Option (List String)) :=
  dfsFrom graph (graph.entries.map Prod.fst) (Search.start graph)

end Algorithm

inductive Severity
  | error
  | warning
deriving DecidableEq

inductive IssueCode
  | missingName
  | unknownType
  | containmentCycle
deriving DecidableEq

structure ValidationIssue where
  severity : Severity
  code : IssueCode
  message : String
  affected : Option String := none

section Validation

variable (entityDefs : EntityDefs) (relationshipDefs : RelationshipDefs)

def missingNames : List ValidationIssue :=
  ((entityDefs.entries.filter fun entry => entry.2.name = "").map fun entry =>
    ⟨.warning, .missingName, s!"Entity type '{entry.1}' has no name.", some entry.1⟩) ++
  (relationshipDefs.entries.filter fun entry => entry.2.name = "").map fun entry =>
    ⟨.warning, .missingName, s!"Relationship type '{entry.1}' has no name.", some entry.1⟩

/-- The types of one end that no definition is there for. -/
def unknownIn (types : List String) : List String :=
  types.filter fun type => type ≠ "" ∧ (entityDefs.get type).isNone

def unknownTypes : List ValidationIssue :=
  relationshipDefs.entries.flatMap fun entry =>
    ((unknownIn entityDefs entry.2.sourceTypes).map fun type =>
      ⟨.warning, .unknownType,
        s!"Relationship '{entry.1}' references unknown source type '{type}'.", some entry.1⟩) ++
    (unknownIn entityDefs entry.2.targetTypes).map fun type =>
      ⟨.warning, .unknownType,
        s!"Relationship '{entry.1}' references unknown target type '{type}'.", some entry.1⟩

def containmentGraph : ContainmentGraph := entityDefs.mapValues (·.hierarchy.canContain)

def containmentCycle (cycle : List String) : ValidationIssue where
  severity := .error
  code := .containmentCycle
  message := "Containment cycle detected: " ++ " -> ".intercalate cycle

def validateOntology : Option (List ValidationIssue) :=
  (findContainmentCycle (containmentGraph entityDefs)).map fun cycle =>
    missingNames entityDefs relationshipDefs ++ unknownTypes entityDefs relationshipDefs ++
      cycle.toList.map containmentCycle

end Validation

end Univiz.Resolver

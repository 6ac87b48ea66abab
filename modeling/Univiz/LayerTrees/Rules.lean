import Mathlib.Data.List.Sort
import Mathlib.Data.Rat.Defs

namespace Univiz.LayerTrees

/-! The rules that assign nodes to layers, as `GraphDataProvider` tests them. -/

/-- What the browser does to texts.  A text that is no regular expression cannot be made one:
the constructor throws. -/
structure Runtime where
  toUpperCase : String → String
  toLowerCase : String → String
  localeCompare : String → String → Int
  regExp : String → Option (String → Bool)

/-- A text that may be missing, where an empty one counts as missing. -/
def truthy (text : Option String) : Option String := text.filter (· ≠ "")

/-- Arrays and objects have the reference by which they are compared. -/
inductive Value where
  | null
  | flag (value : Bool)
  | number (value : Rat)
  | text (value : String)
  | array (reference : Nat) (items : List Value)
  | object (reference : Nat)

/-- `===`. -/
def Value.same : Value → Value → Bool
  | .null, .null => true
  | .flag value, .flag other => value = other
  | .number value, .number other => value = other
  | .text value, .text other => value = other
  | .array reference _, .array other _ => reference = other
  | .object reference, .object other => reference = other
  | _, _ => false

/-- `===` for values that may be undefined. -/
def same : Option Value → Option Value → Bool
  | none, none => true
  | some value, some other => value.same other
  | _, _ => false

inductive Operator where
  | equals
  | notEquals
  | contains
  | startsWith
  | endsWith
  | existing
deriving DecidableEq

structure RuleCondition where
  field : String
  operator : Operator
  value : Option Value

structure GraphNode where
  urn : String
  entityType : String
  displayName : String
  properties : String → Option Value
  tags : List String

structure LayerAssignmentRule where
  id : String
  layerId : String
  entityTypes : List String := []
  tags : List String := []
  urnPattern : Option String := none
  propertyMatch : Option RuleCondition := none
  conditions : List RuleCondition := []
  priority : Int

namespace Runtime

variable (runtime : Runtime)

/-- A test of two texts that ignores case, and of nothing else. -/
def testTexts (test : List Char → List Char → Bool) : Option Value → Option Value → Bool
  | some (.text actual), some (.text target) =>
      test (runtime.toLowerCase actual).toList (runtime.toLowerCase target).toList
  | _, _ => false

/-- The property of a node, or else one of its own fields. -/
def actualValue (node : GraphNode) (field : String) : Option Value :=
  (node.properties field).or <|
    if field = "name" then some (.text node.displayName)
    else if field = "type" then some (.text node.entityType)
    else if field = "urn" then some (.text node.urn)
    else none

def evaluateCondition (node : GraphNode) (condition : RuleCondition) : Bool :=
  let actual := actualValue node condition.field
  match condition.operator with
  | .existing => !same actual none && !same actual (some .null)
  | .contains =>
      match actual, condition.value with
      | some (.array _ items), some target => items.any target.same
      | actual, target =>
          runtime.testTexts (fun text part => text.tails.any part.isPrefixOf) actual target
  | .startsWith =>
      runtime.testTexts (fun text part => part.isPrefixOf text) actual condition.value
  | .endsWith =>
      runtime.testTexts (fun text part => part.isSuffixOf text) actual condition.value
  | .notEquals => !same actual condition.value
  | .equals => same actual condition.value

/-- Nothing where the pattern of the rule is no regular expression. -/
def matchesUrn (node : GraphNode) (rule : LayerAssignmentRule) : Option Bool :=
  match truthy rule.urnPattern with
  | none => some true
  | some urnPattern =>
      (runtime.regExp (urnPattern.replace "*" ".*")).map fun regex => regex node.urn

def matchesRule (node : GraphNode) (rule : LayerAssignmentRule) : Option Bool :=
  if rule.entityTypes ≠ [] ∧ node.entityType ∉ rule.entityTypes then some false
  else if rule.tags ≠ [] ∧ ∀ tag ∈ node.tags, tag ∉ rule.tags then some false
  else
    (runtime.matchesUrn node rule).map fun urnMatches =>
      urnMatches &&
        if rule.conditions ≠ [] then rule.conditions.all (runtime.evaluateCondition node)
        else rule.propertyMatch.all (runtime.evaluateCondition node)

/-- The layer of the first rule that matches. -/
def firstMatch (node : GraphNode) : List LayerAssignmentRule → Option (Option String)
  | [] => some none
  | rule :: rest =>
      match runtime.matchesRule node rule with
      | none => none
      | some true => some (some rule.layerId)
      | some false => firstMatch node rest

/-- Rules of one priority stay in their order. -/
def resolveLayerAssignment (node : GraphNode) (rules : List LayerAssignmentRule) :
    Option (Option String) :=
  runtime.firstMatch node
    (rules.mergeSort fun first second => decide (second.priority ≤ first.priority))

end Runtime

end Univiz.LayerTrees

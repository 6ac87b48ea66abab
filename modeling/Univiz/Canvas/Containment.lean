import Univiz.Data.OrderedMap

namespace Univiz.Canvas

open Univiz.Data

/-! The memo of `useContainmentHierarchy`, with the refs that it reads and writes. -/

/-- The fields of a canvas edge that the hook reads; one that is missing is empty. -/
structure LineageEdge where
  source : String
  target : String
  edgeType : String
  relationship : String
  deriving DecidableEq

/-- The options that the memo depends on, without the nodes.  Predicates are compared by
reference, so an option has the reference of one. -/
structure UseContainmentHierarchyOptions where
  edges : List LineageEdge
  isContainmentEdge : Nat
  fingerprint : Option String

/-- What one pass over edges fills. -/
structure Maps where
  childSets : OrderedMap String (List String)
  parentMap : OrderedMap String String

/-- The refs of the hook.  `childSetsVersion` tells the objects apart that `childSetsRef`
has had, and `childMapSource` has the version from which `childMap` was derived. -/
structure Refs where
  prevEdgeLen : Nat
  prevIsContainment : Nat
  prevFingerprint : Option String
  maps : Maps
  childSetsVersion : Nat
  childMap : OrderedMap String (List String)
  childMapSource : Option Nat
  childMapKey : Option (Nat × Nat)

def Refs.initial (options : UseContainmentHierarchyOptions) : Refs where
  prevEdgeLen := 0
  prevIsContainment := options.isContainmentEdge
  prevFingerprint := options.fingerprint
  maps := ⟨.empty, .empty⟩
  childSetsVersion := 0
  childMap := .empty
  childMapSource := none
  childMapKey := none

def add (set : List String) (value : String) : List String :=
  if value ∈ set then set else set ++ [value]

variable (toUpperCase : String → String) (predicates : Nat → String → Bool)

def normalizeEdgeType (edge : LineageEdge) : String :=
  toUpperCase (if edge.edgeType = "" then edge.relationship else edge.edgeType)

/-- One round of the loop over edges. -/
def processEdge (isContainmentEdge : Nat) (maps : Maps) (edge : LineageEdge) : Maps :=
  if edge.source = "" ∨ edge.target = "" then maps
  else if predicates isContainmentEdge (normalizeEdgeType toUpperCase edge) = false then maps
  else
    let children := (maps.childSets.get edge.source).getD []
    { childSets := maps.childSets.set edge.source (add children edge.target)
      parentMap := maps.parentMap.set edge.target edge.source }

def processEdges (isContainmentEdge : Nat) (maps : Maps) (edges : List LineageEdge) : Maps :=
  edges.foldl (processEdge toUpperCase predicates isContainmentEdge) maps

def fullRebuild (isContainmentEdge : Nat) (edges : List LineageEdge) : Maps :=
  processEdges toUpperCase predicates isContainmentEdge ⟨.empty, .empty⟩ edges

def needsFullRebuild (options : UseContainmentHierarchyOptions) (refs : Refs) : Prop :=
  let predicateChanged := refs.prevIsContainment ≠ options.isContainmentEdge
  let edgesShrank := options.edges.length < refs.prevEdgeLen
  let fingerprintChanged :=
    options.fingerprint ≠ none ∧ options.fingerprint ≠ refs.prevFingerprint
  predicateChanged ∨ edgesShrank ∨ fingerprintChanged

instance (options : UseContainmentHierarchyOptions) (refs : Refs) :
    Decidable (needsFullRebuild options refs) :=
  inferInstanceAs (Decidable (_ ∨ _ ∨ _ ∧ _))

def parentMapEqual (prevPMap newPMap : OrderedMap String String) : Prop :=
  prevPMap.size = newPMap.size ∧
    ∀ entry ∈ newPMap.entries, prevPMap.get entry.1 = some entry.2

instance (prevPMap newPMap : OrderedMap String String) :
    Decidable (parentMapEqual prevPMap newPMap) :=
  inferInstanceAs (Decidable (_ ∧ _))

def totalChildren (childSets : OrderedMap String (List String)) : Nat :=
  (childSets.entries.map fun entry => entry.2.length).sum

/-- The key has both counts in one string in the source. -/
def childMapKey (childSets : OrderedMap String (List String)) : Nat × Nat :=
  (childSets.size, totalChildren childSets)

/-- The maps that a render leaves in the refs, with the version of the child sets. -/
def chooseMaps (options : UseContainmentHierarchyOptions) (refs : Refs) : Maps × Nat :=
  if needsFullRebuild options refs then
    let rebuilt := fullRebuild toUpperCase predicates options.isContainmentEdge options.edges
    if parentMapEqual refs.maps.parentMap rebuilt.parentMap then (refs.maps, refs.childSetsVersion)
    else (rebuilt, refs.childSetsVersion + 1)
  else
    let added := options.edges.drop refs.prevEdgeLen
    (processEdges toUpperCase predicates options.isContainmentEdge refs.maps added,
      refs.childSetsVersion)

/-- A render in which the memo is computed again.  The maps that it returns are the ones
it leaves in the refs. -/
def memo (options : UseContainmentHierarchyOptions) (refs : Refs) : Refs :=
  let (maps, version) := chooseMaps toUpperCase predicates options refs
  let key := childMapKey maps.childSets
  let reuse := refs.childMapSource = some version ∧ refs.childMapKey = some key
  { prevEdgeLen := options.edges.length
    prevIsContainment := options.isContainmentEdge
    prevFingerprint := options.fingerprint
    maps := maps
    childSetsVersion := version
    childMap := if reuse then refs.childMap else maps.childSets
    childMapSource := if reuse then refs.childMapSource else some version
    childMapKey := if reuse then refs.childMapKey else some key }

end Univiz.Canvas

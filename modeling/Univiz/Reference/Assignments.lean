import Univiz.Data.Transition
import Univiz.Data.Worklist
import Univiz.Reference.Store

namespace Univiz.Reference

open Univiz.Data

/-! The operations of the reference-model store that assign entities to layers. -/

variable {Config : Type}

namespace ReferenceModelState

variable (state : ReferenceModelState Config) (entityId layerId : String)

/-- The entity has an effective assignment to another layer. -/
def elsewhere : Bool :=
  match state.effectiveAssignments.get entityId with
  | some assignment => assignment.layerId ≠ layerId
  | none => false

/-- The hard rule upwards.  A parent with an empty id is none. -/
def containmentLock : Option AssignmentConflict :=
  match state.parentMap.get entityId with
  | none => none
  | some parentId =>
      if parentId = "" then none
      else
        match state.effectiveAssignments.get parentId with
        | none => none
        | some parentAssignment =>
            if parentAssignment.layerId ≠ layerId then
              some {
                entityId
                conflictingEntityId := parentId
                type := .containmentLocked
                message := "Cannot assign child to a different layer than its parent. " ++
                  "Children always inherit their parent's layer assignment."
                conflictingLayerId := parentAssignment.layerId }
            else none

/-- The edges from parents to children; `childMap` has what they lead to from a parent. -/
def containments : List (String × String) :=
  state.parentMap.entries.map fun entry => (entry.2, entry.1)

def children (parentId : String) : List String := successors state.containments parentId

/-- Everything that a search of `childMap` visits, in its order. -/
def visits (start : List String) : List String :=
  traverse state.children (start.length + state.containments.length) start []

def descendants : List String := state.visits (state.children entityId)

def descendantsToReassign : List String :=
  (state.descendants entityId).filter fun descendant => state.elsewhere descendant layerId

def assignedElsewhere (id : String) : Option EntityAssignmentConfig :=
  (state.instanceAssignments.get id).filter fun assignment => assignment.layerId ≠ layerId

def parentConflict (parentId : String) : Option AssignmentConflict :=
  ((state.assignedElsewhere layerId parentId).filter (·.inheritsChildren)).map
    fun parentAssignment => {
      entityId
      conflictingEntityId := parentId
      type := .parentAssigned
      message := "Parent entity is already assigned to a different layer with inheritance enabled"
      conflictingLayerId := parentAssignment.layerId }

/-- The nearest ancestor with an assignment to another layer.  The loop does not end where
the ancestors form a cycle without one. -/
def ancestorConflict : Option (Option AssignmentConflict) :=
  climb state.parentMap.get (state.parentConflict entityId layerId)
    (state.parentMap.entries.length + 1) entityId

variable {state entityId layerId} in
/-- What the loop finds in any number of rounds, it finds in these. -/
theorem ancestorConflict_of_climb {rounds : Nat} {found : Option AssignmentConflict}
    (returned : climb state.parentMap.get (state.parentConflict entityId layerId) rounds entityId =
      some found) : state.ancestorConflict entityId layerId = some found := by
  have known : ∀ child parentId, state.parentMap.get child = some parentId →
      child ∈ state.parentMap.entries.map Prod.fst := by
    intro child parentId contained
    exact List.mem_map.mpr ⟨_, OrderedMap.get_eq_some.mp contained, rfl⟩
  have whole := climb_of_keys known returned
  rwa [List.length_map] at whole

def descendantConflict : Option AssignmentConflict :=
  (state.visits [entityId]).findSome? fun current =>
    (state.children current).findSome? fun childId =>
      (state.assignedElsewhere layerId childId).map fun childAssignment => {
        entityId
        conflictingEntityId := childId
        type := .childAssigned
        message := "Child entity is already assigned to a different layer"
        conflictingLayerId := childAssignment.layerId }

/-- Nothing where the call does not return. -/
def checkAssignmentConflict : Option (Option AssignmentConflict) :=
  (state.ancestorConflict entityId layerId).map fun found =>
    found.or (state.descendantConflict entityId layerId)

structure AssignResult where
  success : Bool
  conflict : Option AssignmentConflict
deriving DecidableEq, Repr

/-- The conflict that the call reports; it blocks nothing. -/
def reportedConflict : Option (Option AssignmentConflict) :=
  match state.descendantsToReassign entityId layerId with
  | first :: rest =>
      some (some {
        entityId
        conflictingEntityId := first
        type := .childAssigned
        message := toString (rest.length + 1) ++ " child(ren) reassigned to follow parent's layer."
        conflictingLayerId := layerId })
  | [] => state.checkAssignmentConflict entityId layerId

def report (conflict : AssignmentConflict) : ReferenceModelState Config :=
  state.set { assignmentConflicts := some (state.assignmentConflicts ++ [conflict]) }

variable (logicalNodeId : Option String) (inheritsChildren : Bool)

def assignment : EntityAssignmentConfig :=
  ⟨entityId, layerId, logicalNodeId, inheritsChildren, 1000, some .user⟩

def descendantAssignment (descendant : String) : EntityAssignmentConfig :=
  ⟨descendant, layerId, none, true, 999, some .rule⟩

def assignedLayer (layer : ViewLayerConfig Config) : ViewLayerConfig Config :=
  let moved := entityId :: state.descendantsToReassign entityId layerId
  let filtered := (layer.entityAssignments.getD []).filter fun a => a.entityId ∉ moved
  if layer.id = layerId then
    { layer with
      entityAssignments := some (filtered ++
        assignment entityId layerId logicalNodeId inheritsChildren ::
          (state.descendantsToReassign entityId layerId).map (descendantAssignment layerId)) }
  else if filtered.length ≠ (layer.entityAssignments.getD []).length then
    { layer with entityAssignments := some filtered }
  else layer

def assignUpdate : Update Config where
  instanceAssignments := some
    ((state.descendantsToReassign entityId layerId).foldl
      (fun map descendant => map.set descendant (descendantAssignment layerId descendant))
      (state.instanceAssignments.set entityId
        (assignment entityId layerId logicalNodeId inheritsChildren)))
  layers := some
    (state.layers.map (state.assignedLayer entityId layerId logicalNodeId inheritsChildren))
  effectiveAssignments := some
    ((state.descendantsToReassign entityId layerId).foldl
      (fun map descendant => map.set descendant ⟨descendant, layerId, none, none, true, none, 1⟩)
      (state.effectiveAssignments.set entityId
        ⟨entityId, layerId, logicalNodeId, none, false, none, 1⟩))

def assignEntityToLayer : Option (ReferenceModelState Config × AssignResult) :=
  match state.containmentLock entityId layerId with
  | some conflict => some (state.report conflict, ⟨false, some conflict⟩)
  | none =>
      (state.reportedConflict entityId layerId).map fun conflict =>
        let reported :=
          match conflict with
          | some conflict => state.report conflict
          | none => state
        (reported.set (state.assignUpdate entityId layerId logicalNodeId inheritsChildren),
          ⟨true, conflict⟩)

def removeEntityAssignment : ReferenceModelState Config :=
  state.set {
    instanceAssignments := some (state.instanceAssignments.erase entityId)
    layers := some (state.layers.map fun layer =>
      if (layer.entityAssignments.getD []).any fun a => a.entityId = entityId then
        { layer with
          entityAssignments := layer.entityAssignments.map fun assignments =>
            assignments.filter fun a => a.entityId ≠ entityId }
      else layer)
    assignmentConflicts := some (state.assignmentConflicts.filter fun c =>
      c.entityId ≠ entityId && c.conflictingEntityId ≠ entityId)
    effectiveAssignments := some (state.effectiveAssignments.erase entityId) }

/-- The edges are not the store's. -/
def removeElements (nodeIds _edgeIds : List String) : ReferenceModelState Config :=
  if nodeIds = [] then state
  else
    state.set {
      instanceAssignments := some (nodeIds.foldl OrderedMap.erase state.instanceAssignments)
      effectiveAssignments := some (nodeIds.foldl OrderedMap.erase state.effectiveAssignments) }

structure BulkResult where
  successful : List String
  conflicts : List AssignmentConflict
deriving DecidableEq, Repr

variable (entityIds : List String)

/-- The containment children whose parents are elsewhere are filtered out. -/
def allowedIds : List String :=
  entityIds.filter fun id => (state.containmentLock id layerId).isNone

def bulkAssignedLayer (layer : ViewLayerConfig Config) : ViewLayerConfig Config :=
  let allowed := state.allowedIds layerId entityIds
  let kept := (layer.entityAssignments.getD []).filter fun a => a.entityId ∉ allowed
  if layer.id = layerId then
    { layer with
      entityAssignments := some (kept ++
        allowed.map fun id => assignment id layer.id none inheritsChildren) }
  else if (layer.entityAssignments.getD []).any fun a => a.entityId ∈ allowed then
    { layer with entityAssignments := some kept }
  else layer

def bulkUpdate (conflicts : List AssignmentConflict) : Update Config where
  instanceAssignments := some
    ((state.allowedIds layerId entityIds).foldl
      (fun map id => map.set id (assignment id layerId none inheritsChildren))
      state.instanceAssignments)
  effectiveAssignments := some
    ((state.allowedIds layerId entityIds).foldl
      (fun map id => map.set id ⟨id, layerId, none, none, false, none, 1⟩)
      state.effectiveAssignments)
  layers := some
    (state.layers.map (state.bulkAssignedLayer layerId inheritsChildren entityIds))
  assignmentConflicts := some (state.assignmentConflicts ++ conflicts)

def bulkAssignEntitiesToLayer : Option (ReferenceModelState Config × BulkResult) :=
  let allowed := state.allowedIds layerId entityIds
  (allowed.mapM fun id => state.checkAssignmentConflict id layerId).map fun checks =>
    let conflicts :=
      entityIds.filterMap (state.containmentLock · layerId) ++ checks.filterMap id
    (state.set (state.bulkUpdate layerId inheritsChildren entityIds conflicts),
      ⟨allowed, conflicts⟩)

end ReferenceModelState

inductive Operation where
  | assignEntityToLayer (entityId layerId : String) (logicalNodeId : Option String)
      (inheritsChildren : Bool)
  | bulkAssignEntitiesToLayer (entityIds : List String) (layerId : String)
      (inheritsChildren : Bool)
  | removeEntityAssignment (entityId : String)
  | removeElements (nodeIds edgeIds : List String)
deriving DecidableEq, Repr

namespace ReferenceModelState

variable (state : ReferenceModelState Config)

/-- There is no later state where a call does not return. -/
def step : Operation → Option (ReferenceModelState Config)
  | .assignEntityToLayer entityId layerId logicalNodeId inheritsChildren =>
      (state.assignEntityToLayer entityId layerId logicalNodeId inheritsChildren).map Prod.fst
  | .bulkAssignEntitiesToLayer entityIds layerId inheritsChildren =>
      (state.bulkAssignEntitiesToLayer layerId inheritsChildren entityIds).map Prod.fst
  | .removeEntityAssignment entityId => some (state.removeEntityAssignment entityId)
  | .removeElements nodeIds edgeIds => some (state.removeElements nodeIds edgeIds)

end ReferenceModelState

end Univiz.Reference

import Univiz.Data.OrderedMap

namespace Univiz.Reference

open Univiz.Data

/-! The reference-model store and its `set()`.

What the store only carries of a configuration (a scope filter, the edges of a scope, how
a layer looks and what it matches) is of a type `Config`. -/

inductive Assigner where
  | user
  | rule
  | inference
deriving DecidableEq, Repr

structure EntityAssignmentConfig where
  entityId : String
  layerId : String
  logicalNodeId : Option String
  inheritsChildren : Bool
  priority : Nat
  assignedBy : Option Assigner
deriving DecidableEq, Repr

structure ViewLayerConfig (Config : Type) where
  id : String
  order : Int
  sequence : Option Int
  entityAssignments : Option (List EntityAssignmentConfig)
  settings : Config
deriving DecidableEq, Repr

structure EntityAssignment where
  entityId : String
  layerId : String
  logicalNodeId : Option String
  ruleId : Option String
  isInherited : Bool
  inheritedFromId : Option String
  confidence : Rat
deriving DecidableEq, Repr

inductive ConflictType where
  | parentAssigned
  | childAssigned
  | circular
  | containmentLocked
deriving DecidableEq, Repr

structure AssignmentConflict where
  entityId : String
  conflictingEntityId : String
  type : ConflictType
  message : String
  conflictingLayerId : String
deriving DecidableEq, Repr

/-- Backend persistence state machine. -/
inductive SyncStatus where
  | synced
  | dirty
  | saving
  | error
deriving DecidableEq, Repr

structure ReferenceModelState (Config : Type) where
  layers : List (ViewLayerConfig Config)
  /-- Ordered layer IDs (left-to-right). -/
  layerSequence : List String
  scopeFilter : Option Config
  effectiveAssignments : OrderedMap String EntityAssignment
  /-- From a child to its parent. -/
  parentMap : OrderedMap String String
  instanceAssignments : OrderedMap String EntityAssignmentConfig
  assignmentConflicts : List AssignmentConflict
  scopeEdgeConfig : Option Config
  activeContextModelId : Option String
  activeContextModelName : Option String
  syncStatus : SyncStatus

/-- The argument of `set()`: a key that is missing is left alone. -/
structure Update (Config : Type) where
  layers : Option (List (ViewLayerConfig Config)) := none
  layerSequence : Option (List String) := none
  scopeFilter : Option (Option Config) := none
  effectiveAssignments : Option (OrderedMap String EntityAssignment) := none
  parentMap : Option (OrderedMap String String) := none
  instanceAssignments : Option (OrderedMap String EntityAssignmentConfig) := none
  assignmentConflicts : Option (List AssignmentConflict) := none
  scopeEdgeConfig : Option (Option Config) := none
  activeContextModelId : Option (Option String) := none
  activeContextModelName : Option (Option String) := none
  syncStatus : Option SyncStatus := none

variable {Config : Type}

/-- Whether a key of `BLUEPRINT_KEYS` is in the update. -/
def Update.touchesBlueprint (update : Update Config) : Bool :=
  update.layers.isSome || update.layerSequence.isSome || update.scopeFilter.isSome ||
    update.scopeEdgeConfig.isSome || update.instanceAssignments.isSome

namespace ReferenceModelState

def initial : ReferenceModelState Config where
  layers := []
  layerSequence := []
  scopeFilter := none
  effectiveAssignments := .empty
  parentMap := .empty
  instanceAssignments := .empty
  assignmentConflicts := []
  scopeEdgeConfig := none
  activeContextModelId := none
  activeContextModelName := none
  syncStatus := .synced

variable (state : ReferenceModelState Config) (update : Update Config)

def rawSet : ReferenceModelState Config where
  layers := update.layers.getD state.layers
  layerSequence := update.layerSequence.getD state.layerSequence
  scopeFilter := update.scopeFilter.getD state.scopeFilter
  effectiveAssignments := update.effectiveAssignments.getD state.effectiveAssignments
  parentMap := update.parentMap.getD state.parentMap
  instanceAssignments := update.instanceAssignments.getD state.instanceAssignments
  assignmentConflicts := update.assignmentConflicts.getD state.assignmentConflicts
  scopeEdgeConfig := update.scopeEdgeConfig.getD state.scopeEdgeConfig
  activeContextModelId := update.activeContextModelId.getD state.activeContextModelId
  activeContextModelName := update.activeContextModelName.getD state.activeContextModelName
  syncStatus := update.syncStatus.getD state.syncStatus

/-- `set()` in the wrapper `autoDirty`. -/
def set : ReferenceModelState Config :=
  if update.syncStatus.isSome then state.rawSet update
  else if update.touchesBlueprint && state.syncStatus ≠ .saving then
    state.rawSet { update with syncStatus := some .dirty }
  else state.rawSet update

/-- The wrapper changes nothing but the status. -/
theorem set_eq_rawSet : ∃ status, state.set update = { state.rawSet update with
    syncStatus := status } := by
  unfold set
  split
  · exact ⟨_, rfl⟩
  · split
    · exact ⟨.dirty, rfl⟩
    · exact ⟨_, rfl⟩

@[simp] theorem set_effectiveAssignments : (state.set update).effectiveAssignments =
    update.effectiveAssignments.getD state.effectiveAssignments := by
  obtain ⟨status, written⟩ := state.set_eq_rawSet update
  rw [written]
  rfl

@[simp] theorem set_parentMap :
    (state.set update).parentMap = update.parentMap.getD state.parentMap := by
  obtain ⟨status, written⟩ := state.set_eq_rawSet update
  rw [written]
  rfl

@[simp] theorem set_layers : (state.set update).layers = update.layers.getD state.layers := by
  obtain ⟨status, written⟩ := state.set_eq_rawSet update
  rw [written]
  rfl

@[simp] theorem set_instanceAssignments : (state.set update).instanceAssignments =
    update.instanceAssignments.getD state.instanceAssignments := by
  obtain ⟨status, written⟩ := state.set_eq_rawSet update
  rw [written]
  rfl

end ReferenceModelState

end Univiz.Reference

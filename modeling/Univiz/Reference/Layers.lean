import Univiz.Reference.Assignments

namespace Univiz.Reference

open Univiz.Data

/-! The operations of the reference-model store on its layers. -/

variable {Config : Type}

/-- What `addLayer` is given; the id and the place of the layer are new. -/
structure LayerData (Config : Type) where
  entityAssignments : Option (List EntityAssignmentConfig)
  settings : Config

/-- The keys that `updateLayer` is given; what is missing stays. -/
structure LayerUpdates (Config : Type) where
  order : Option Int
  sequence : Option (Option Int)
  entityAssignments : Option (Option (List EntityAssignmentConfig))
  settings : Config → Config

def ViewLayerConfig.update (layer : ViewLayerConfig Config) (updates : LayerUpdates Config) :
    ViewLayerConfig Config where
  id := layer.id
  order := updates.order.getD layer.order
  sequence := updates.sequence.getD layer.sequence
  entityAssignments := updates.entityAssignments.getD layer.entityAssignments
  settings := updates.settings layer.settings

/-- The layers with the places that they have in the list. -/
def renumbered (layers : List (ViewLayerConfig Config)) : List (ViewLayerConfig Config) :=
  layers.mapIdx fun idx layer => { layer with order := idx, sequence := some idx }

namespace ReferenceModelState

variable (state : ReferenceModelState Config) (id : String)

def layerIds : List String := state.layers.map (·.id)

def addLayer (layerData : LayerData Config) : ReferenceModelState Config :=
  let order := state.layers.length
  state.set {
    layers := some (state.layers ++ [{
      id := id
      order := order
      sequence := some order
      entityAssignments := layerData.entityAssignments
      settings := layerData.settings }])
    layerSequence := some (state.layerSequence ++ [id]) }

def removeLayer : ReferenceModelState Config :=
  if id ∈ state.layerIds then
    state.set {
      layers := some (renumbered (state.layers.filter fun layer => layer.id ≠ id))
      layerSequence := some (state.layerSequence.filter fun layerId => layerId ≠ id) }
  else state

def updateLayer (updates : LayerUpdates Config) : ReferenceModelState Config :=
  state.set {
    layers := some (state.layers.map fun layer =>
      if layer.id = id then layer.update updates else layer) }

def layerMap : OrderedMap String (ViewLayerConfig Config) :=
  state.layers.foldl (fun map layer => map.set layer.id layer) .empty

def reorderLayers (newSequence : List String) : ReferenceModelState Config :=
  state.set {
    layers := some (renumbered (newSequence.filterMap state.layerMap.get))
    layerSequence := some newSequence }

def clearAssignments : ReferenceModelState Config :=
  state.set {
    instanceAssignments := some .empty
    assignmentConflicts := some []
    layers := some (state.layers.map fun layer => { layer with entityAssignments := some [] })
    effectiveAssignments := some .empty }

end ReferenceModelState

inductive LayerOperation (Config : Type) where
  | addLayer (id : String) (layerData : LayerData Config)
  | removeLayer (id : String)
  | updateLayer (id : String) (updates : LayerUpdates Config)
  | reorderLayers (newSequence : List String)
  | assignEntityToLayer (entityId layerId : String) (logicalNodeId : Option String)
      (inheritsChildren : Bool)
  | bulkAssignEntitiesToLayer (entityIds : List String) (layerId : String)
      (inheritsChildren : Bool)
  | removeEntityAssignment (entityId : String)
  | clearAssignments

namespace ReferenceModelState

variable (state : ReferenceModelState Config)

/-- A new layer gets an id that no layer has, a new order is one of the same layers, and entities
are assigned to layers that exist. -/
def layerStep : LayerOperation Config → Option (ReferenceModelState Config)
  | .addLayer id layerData =>
      if id ∈ state.layerIds then none else some (state.addLayer id layerData)
  | .removeLayer id => some (state.removeLayer id)
  | .updateLayer id updates => some (state.updateLayer id updates)
  | .reorderLayers newSequence =>
      if newSequence.Perm state.layerIds then some (state.reorderLayers newSequence) else none
  | .assignEntityToLayer entityId layerId logicalNodeId inheritsChildren =>
      if layerId ∈ state.layerIds then
        (state.assignEntityToLayer entityId layerId logicalNodeId inheritsChildren).map Prod.fst
      else none
  | .bulkAssignEntitiesToLayer entityIds layerId inheritsChildren =>
      if layerId ∈ state.layerIds then
        (state.bulkAssignEntitiesToLayer layerId inheritsChildren entityIds).map Prod.fst
      else none
  | .removeEntityAssignment entityId => some (state.removeEntityAssignment entityId)
  | .clearAssignments => some state.clearAssignments

end ReferenceModelState

end Univiz.Reference

import Univiz.Reference.Layers

namespace Univiz.Reference

open Univiz.Data

/-! The two copies of the assignments: the map of the store and the lists of its layers. -/

variable {Config : Type}

def ViewLayerConfig.entities (layer : ViewLayerConfig Config) : List String :=
  (layer.entityAssignments.getD []).map (·.entityId)

/-- All that the copies say about a layer. -/
def ViewLayerConfig.placement (layer : ViewLayerConfig Config) : String × List String :=
  (layer.id, layer.entities)

namespace ReferenceModelState

variable {state next : ReferenceModelState Config} {layer : ViewLayerConfig Config}
  {entityId layerId id : String}

/-- The layer to which the map assigns the entity. -/
def mappedLayer (state : ReferenceModelState Config) (entityId : String) : Option String :=
  (state.instanceAssignments.get entityId).map (·.layerId)

/-- One of the layers lists the entity. -/
def Listed (state : ReferenceModelState Config) (entityId layerId : String) : Prop :=
  ∃ layer ∈ state.layers, layer.id = layerId ∧ entityId ∈ layer.entities

structure Consistent (state : ReferenceModelState Config) : Prop where
  distinct : state.layerIds.Nodup
  agree : ∀ entityId layerId,
    state.mappedLayer entityId = some layerId ↔ state.Listed entityId layerId
  apart : ∀ first ∈ state.layers, ∀ second ∈ state.layers, ∀ entityId ∈ first.entities,
    entityId ∈ second.entities → first = second

/-- An entity that the map assigns to one layer is in no other. -/
theorem Consistent.of_agree (distinct : state.layerIds.Nodup)
    (agree : ∀ entityId layerId,
      state.mappedLayer entityId = some layerId ↔ state.Listed entityId layerId) :
    state.Consistent := by
  refine ⟨distinct, agree, ?_⟩
  intro first firstMember second secondMember entityId inFirst inSecond
  have toFirst := (agree entityId first.id).mpr ⟨first, firstMember, rfl, inFirst⟩
  have toSecond := (agree entityId second.id).mpr ⟨second, secondMember, rfl, inSecond⟩
  have same : first.id = second.id := Option.some.inj (toFirst.symm.trans toSecond)
  exact List.inj_on_of_nodup_map distinct firstMember secondMember same

theorem listed_iff (distinct : state.layerIds.Nodup) (member : layer ∈ state.layers) :
    state.Listed entityId layer.id ↔ entityId ∈ layer.entities := by
  constructor
  · rintro ⟨other, listed, same, inOther⟩
    obtain rfl := List.inj_on_of_nodup_map distinct listed member same
    exact inOther
  · intro inLayer
    exact ⟨layer, member, rfl, inLayer⟩

theorem Listed.layer_mem (listed : state.Listed entityId layerId) : layerId ∈ state.layerIds := by
  obtain ⟨layer, member, rfl, _⟩ := listed
  exact List.mem_map_of_mem member

theorem placements_renumbered (layers : List (ViewLayerConfig Config)) :
    (renumbered layers).map (·.placement) = layers.map (·.placement) := by
  apply List.ext_getElem?
  intro place
  rw [List.getElem?_map, List.getElem?_map, renumbered, List.getElem?_mapIdx, Option.map_map]
  rfl

theorem layerIds_eq : state.layerIds = (state.layers.map (·.placement)).map Prod.fst := by
  rw [List.map_map]
  rfl

theorem listed_iff_placement : state.Listed entityId layerId ↔
    ∃ entities, (layerId, entities) ∈ state.layers.map (·.placement) ∧ entityId ∈ entities := by
  constructor
  · rintro ⟨layer, member, rfl, inLayer⟩
    exact ⟨_, List.mem_map_of_mem member, inLayer⟩
  · rintro ⟨entities, placed, inLayer⟩
    obtain ⟨layer, member, ⟨⟩⟩ := List.mem_map.mp placed
    exact ⟨layer, member, rfl, inLayer⟩

/-- The map stays where an update leaves it out. -/
theorem mappedLayer_set {update : Update Config} (silent : update.instanceAssignments = none) :
    (state.set update).mappedLayer entityId = state.mappedLayer entityId := by
  rw [mappedLayer, mappedLayer, set_instanceAssignments, silent, Option.getD_none]

/-- The order of the layers and what the copies do not say have no part in consistency. -/
theorem Consistent.of_perm (consistent : state.Consistent)
    (same : (next.layers.map (·.placement)).Perm (state.layers.map (·.placement)))
    (kept : ∀ entityId, next.mappedLayer entityId = state.mappedLayer entityId) :
    next.Consistent := by
  apply Consistent.of_agree
  · rw [layerIds_eq, (same.map Prod.fst).nodup_iff, ← layerIds_eq]
    exact consistent.distinct
  · intro entityId layerId
    rw [kept, consistent.agree, listed_iff_placement, listed_iff_placement]
    simp only [same.mem_iff]

theorem addLayer_consistent_iff {layerData : LayerData Config} (consistent : state.Consistent)
    (fresh : id ∉ state.layerIds) :
    (state.addLayer id layerData).Consistent ↔ layerData.entityAssignments.getD [] = [] := by
  have placements : (state.addLayer id layerData).layers.map (·.placement) =
      state.layers.map (·.placement) ++
        [(id, (layerData.entityAssignments.getD []).map (·.entityId))] := by
    rw [addLayer, set_layers, Option.getD_some, List.map_append]
    rfl
  have kept (entityId : String) :
      (state.addLayer id layerData).mappedLayer entityId = state.mappedLayer entityId :=
    mappedLayer_set rfl
  have listed (entityId layerId : String) :
      (state.addLayer id layerData).Listed entityId layerId ↔ state.Listed entityId layerId ∨
        layerId = id ∧ entityId ∈ (layerData.entityAssignments.getD []).map (·.entityId) := by
    rw [listed_iff_placement, listed_iff_placement, placements]
    simp only [List.mem_append, List.mem_singleton, Prod.mk.injEq, or_and_right, exists_or,
      and_assoc, exists_and_left, exists_eq_left]
  constructor
  · intro next
    by_contra nonempty
    obtain ⟨assignment, member⟩ := List.exists_mem_of_ne_nil _ nonempty
    have inNew := (listed assignment.entityId id).mpr
      (.inr ⟨rfl, List.mem_map_of_mem member⟩)
    have mapped := (next.agree assignment.entityId id).mpr inNew
    rw [kept] at mapped
    exact fresh ((consistent.agree _ _).mp mapped).layer_mem
  · intro empty
    rw [empty] at placements listed
    apply Consistent.of_agree
    · rw [layerIds_eq, placements, List.map_append, ← layerIds_eq]
      refine List.nodup_append.mpr ⟨consistent.distinct, List.nodup_singleton _, ?_⟩
      rintro other member _ new rfl
      obtain rfl : other = id := List.mem_singleton.mp new
      exact fresh member
    · intro entityId layerId
      rw [kept, listed, consistent.agree]
      simp

theorem removeLayer_consistent_iff (consistent : state.Consistent) :
    (state.removeLayer id).Consistent ↔
      ∀ layer ∈ state.layers, layer.id = id → layer.entityAssignments.getD [] = [] := by
  rw [removeLayer]
  split
  · generalize written : state.set _ = next
    have placements : next.layers.map (·.placement) =
        (state.layers.filter fun layer => layer.id ≠ id).map (·.placement) := by
      rw [← written, set_layers, Option.getD_some, placements_renumbered]
    have kept (entityId : String) : next.mappedLayer entityId = state.mappedLayer entityId :=
      written ▸ mappedLayer_set rfl
    have listed (entityId layerId : String) :
        next.Listed entityId layerId ↔ state.Listed entityId layerId ∧ layerId ≠ id := by
      rw [listed_iff_placement, placements, Listed]
      constructor
      · rintro ⟨entities, placed, inLayer⟩
        obtain ⟨layer, member, ⟨⟩⟩ := List.mem_map.mp placed
        obtain ⟨member, other⟩ := List.mem_filter.mp member
        exact ⟨⟨layer, member, rfl, inLayer⟩, of_decide_eq_true other⟩
      · rintro ⟨⟨layer, member, rfl, inLayer⟩, other⟩
        have stays : layer ∈ state.layers.filter fun layer => layer.id ≠ id :=
          List.mem_filter.mpr ⟨member, decide_eq_true other⟩
        exact ⟨_, List.mem_map_of_mem stays, inLayer⟩
    constructor
    · rintro removed layer member rfl
      by_contra nonempty
      obtain ⟨assignment, inLayer⟩ := List.exists_mem_of_ne_nil _ nonempty
      have mapped := (consistent.agree assignment.entityId layer.id).mpr
        ⟨layer, member, rfl, List.mem_map_of_mem inLayer⟩
      rw [← kept, removed.agree, listed] at mapped
      exact mapped.2 rfl
    · intro empty
      apply Consistent.of_agree
      · rw [layerIds_eq, placements, List.map_map]
        exact consistent.distinct.sublist (List.filter_sublist.map _)
      · intro entityId layerId
        rw [kept, listed, consistent.agree, iff_self_and]
        rintro ⟨layer, member, rfl, inLayer⟩ here
        rw [ViewLayerConfig.entities, empty layer member here] at inLayer
        cases inLayer
  · rename_i absent
    refine iff_of_true consistent ?_
    rintro layer member rfl
    exact absurd (List.mem_map_of_mem member) absent

/-- The layers stay, and each lists what the map now assigns to it. -/
theorem Consistent.of_map (consistent : state.Consistent)
    {change : ViewLayerConfig Config → ViewLayerConfig Config}
    (layers : next.layers = state.layers.map change) (keeps : ∀ layer, (change layer).id = layer.id)
    (entities : ∀ layer ∈ state.layers, ∀ entityId,
      entityId ∈ (change layer).entities ↔ next.mappedLayer entityId = some layer.id)
    (within : ∀ entityId layerId,
      next.mappedLayer entityId = some layerId → layerId ∈ state.layerIds) : next.Consistent := by
  apply Consistent.of_agree
  · have same : next.layerIds = state.layerIds := by
      rw [layerIds, layers, List.map_map]
      exact List.map_congr_left fun layer _ => keeps layer
    exact same ▸ consistent.distinct
  · intro entityId layerId
    rw [Listed, layers]
    constructor
    · intro mapped
      obtain ⟨layer, member, rfl⟩ := List.mem_map.mp (within entityId layerId mapped)
      exact ⟨_, List.mem_map_of_mem member, keeps layer,
        (entities layer member entityId).mpr mapped⟩
    · rintro ⟨_, changed, rfl, inLayer⟩
      obtain ⟨layer, member, rfl⟩ := List.mem_map.mp changed
      rw [keeps]
      exact (entities layer member entityId).mp inLayer

theorem Consistent.mem_entities_iff (consistent : state.Consistent)
    (member : layer ∈ state.layers) :
    entityId ∈ layer.entities ↔ state.mappedLayer entityId = some layer.id := by
  rw [consistent.agree, listed_iff consistent.distinct member]

theorem Consistent.layer_mem (consistent : state.Consistent)
    (mapped : state.mappedLayer entityId = some layerId) : layerId ∈ state.layerIds :=
  ((consistent.agree entityId layerId).mp mapped).layer_mem

theorem updateLayer_consistent_iff {updates : LayerUpdates Config}
    (consistent : state.Consistent) :
    (state.updateLayer id updates).Consistent ↔
      ∀ layer ∈ state.layers, layer.id = id → ∀ entityId,
        entityId ∈ (layer.update updates).entities ↔ entityId ∈ layer.entities := by
  have layers : (state.updateLayer id updates).layers = state.layers.map fun layer =>
      if layer.id = id then layer.update updates else layer := by
    rw [updateLayer, set_layers, Option.getD_some]
  have kept (entityId : String) :
      (state.updateLayer id updates).mappedLayer entityId = state.mappedLayer entityId :=
    mappedLayer_set rfl
  constructor
  · rintro next layer member rfl entityId
    have updated : layer.update updates ∈ (state.updateLayer layer.id updates).layers := by
      rw [layers]
      exact List.mem_map.mpr ⟨layer, member, if_pos rfl⟩
    rw [next.mem_entities_iff updated, kept, consistent.mem_entities_iff member]
    rfl
  · intro same
    refine consistent.of_map layers ?_ ?_ ?_
    · intro layer
      split <;> rfl
    · intro layer member entityId
      rw [kept, ← consistent.mem_entities_iff member]
      split
      · rename_i here
        exact same layer member here entityId
      · exact Iff.rfl
    · intro entityId layerId mapped
      rw [kept] at mapped
      exact consistent.layer_mem mapped

theorem get_layerMap (distinct : state.layerIds.Nodup) (member : layer ∈ state.layers) :
    state.layerMap.get layer.id = some layer := by
  let entries := state.layers.map fun layer => (layer.id, layer)
  have unique : (entries.map Prod.fst).Nodup := by
    rw [List.map_map]
    exact distinct
  have found : OrderedMap.lookup entries layer.id = some layer :=
    (OrderedMap.lookup_eq_some unique).mpr (List.mem_map_of_mem member)
  let same (layer : ViewLayerConfig Config) := layer
  have filled : (entries.foldl (fun map entry => map.set entry.1 (same entry.2))
      OrderedMap.empty).get layer.id = ((OrderedMap.lookup entries layer.id).map same).or
        (OrderedMap.empty.get layer.id) := OrderedMap.get_foldl_entries unique
  rw [List.foldl_map, found] at filled
  exact filled

theorem Consistent.reorderLayers (consistent : state.Consistent) {newSequence : List String}
    (same : newSequence.Perm state.layerIds) : (state.reorderLayers newSequence).Consistent := by
  have found : state.layerIds.filterMap state.layerMap.get = state.layers := by
    rw [layerIds, List.filterMap_map]
    have each : ∀ layer ∈ state.layers,
        (state.layerMap.get ∘ fun layer => layer.id) layer = some layer :=
      fun layer member => get_layerMap consistent.distinct member
    rw [List.filterMap_congr each, List.filterMap_some]
  apply consistent.of_perm
  · rw [ReferenceModelState.reorderLayers, set_layers, Option.getD_some, placements_renumbered]
    exact (found ▸ same.filterMap _).map _
  · exact fun _ => mappedLayer_set rfl

/-- Some entities are moved to a layer in both copies. -/
theorem Consistent.of_moved (consistent : state.Consistent) (present : layerId ∈ state.layerIds)
    {moved : List String} {change : ViewLayerConfig Config → ViewLayerConfig Config}
    (layers : next.layers = state.layers.map change) (keeps : ∀ layer, (change layer).id = layer.id)
    (entities : ∀ layer entityId, entityId ∈ (change layer).entities ↔
      if entityId ∈ moved then layer.id = layerId else entityId ∈ layer.entities)
    (mapped : ∀ entityId, next.mappedLayer entityId =
      if entityId ∈ moved then some layerId else state.mappedLayer entityId) : next.Consistent := by
  refine consistent.of_map layers keeps ?_ ?_
  · intro layer member entityId
    rw [entities, mapped]
    split
    · rw [Option.some.injEq, eq_comm]
    · exact consistent.mem_entities_iff member
  · intro entityId other assigned
    rw [mapped] at assigned
    split at assigned
    · cases assigned
      exact present
    · exact consistent.layer_mem assigned

theorem mem_without {assignments : List EntityAssignmentConfig} {moved : List String} :
    entityId ∈ (assignments.filter fun a => a.entityId ∉ moved).map (·.entityId) ↔
      entityId ∈ assignments.map (·.entityId) ∧ entityId ∉ moved := by
  constructor
  · intro member
    obtain ⟨assignment, kept, rfl⟩ := List.mem_map.mp member
    obtain ⟨present, stays⟩ := List.mem_filter.mp kept
    exact ⟨List.mem_map_of_mem present, of_decide_eq_true stays⟩
  · rintro ⟨member, stays⟩
    obtain ⟨assignment, present, rfl⟩ := List.mem_map.mp member
    exact List.mem_map_of_mem (List.mem_filter.mpr ⟨present, decide_eq_true stays⟩)

/-- The entities that are moved leave their layers, and the layer that gets them lists them. -/
theorem mem_entities_moved {entities : List String} {moved : List String} (target : Prop)
    [Decidable target]
    (lists : entityId ∈ entities ↔ (entityId ∈ layer.entities ∧ entityId ∉ moved) ∨
      target ∧ entityId ∈ moved) :
    entityId ∈ entities ↔ if entityId ∈ moved then target else entityId ∈ layer.entities := by
  rw [lists]
  split
  · rename_i leaves
    simp [leaves]
  · rename_i stays
    simp [stays]

theorem assignedLayer_id {logicalNodeId : Option String} {inheritsChildren : Bool}
    (layer : ViewLayerConfig Config) :
    (state.assignedLayer entityId layerId logicalNodeId inheritsChildren layer).id = layer.id := by
  simp only [assignedLayer]
  split
  · rfl
  · split <;> rfl

theorem mem_entities_assignedLayer {logicalNodeId : Option String} {inheritsChildren : Bool}
    {other : String} :
    other ∈ (state.assignedLayer entityId layerId logicalNodeId inheritsChildren layer).entities ↔
      if other ∈ entityId :: state.descendantsToReassign entityId layerId then layer.id = layerId
      else other ∈ layer.entities := by
  apply mem_entities_moved
  simp only [assignedLayer, ViewLayerConfig.entities]
  split
  · rename_i here
    have added : (assignment entityId layerId logicalNodeId inheritsChildren ::
        (state.descendantsToReassign entityId layerId).map (descendantAssignment layerId)).map
          (·.entityId) = entityId :: state.descendantsToReassign entityId layerId := by
      rw [List.map_cons, List.map_map]
      exact congrArg _ (List.map_id _)
    rw [Option.getD_some, List.map_append, List.mem_append, mem_without, added,
      and_iff_right here]
  · rename_i apart
    split
    · rw [Option.getD_some, mem_without]
      simp [apart]
    · rename_i whole
      have same := List.filter_eq_self.mpr (List.length_filter_eq_length_iff.mp (not_not.mp whole))
      rw [← mem_without, same]
      simp [apart]

theorem bulkAssignedLayer_id {inheritsChildren : Bool} {entityIds : List String}
    (layer : ViewLayerConfig Config) :
    (state.bulkAssignedLayer layerId inheritsChildren entityIds layer).id = layer.id := by
  simp only [bulkAssignedLayer]
  split
  · rfl
  · split <;> rfl

theorem mem_entities_bulkAssignedLayer {inheritsChildren : Bool} {entityIds : List String}
    {other : String} :
    other ∈ (state.bulkAssignedLayer layerId inheritsChildren entityIds layer).entities ↔
      if other ∈ state.allowedIds layerId entityIds then layer.id = layerId
      else other ∈ layer.entities := by
  apply mem_entities_moved
  simp only [bulkAssignedLayer, ViewLayerConfig.entities]
  split
  · rename_i here
    have added : ((state.allowedIds layerId entityIds).map fun entityId =>
        assignment entityId layer.id none inheritsChildren).map (·.entityId) =
          state.allowedIds layerId entityIds := by
      rw [List.map_map]
      exact List.map_id _
    rw [Option.getD_some, List.map_append, List.mem_append, mem_without, added,
      and_iff_right here]
  · rename_i apart
    split
    · rw [Option.getD_some, mem_without]
      simp [apart]
    · rename_i untouched
      have same : ((layer.entityAssignments.getD []).filter fun a =>
          a.entityId ∉ state.allowedIds layerId entityIds) = layer.entityAssignments.getD [] := by
        apply List.filter_eq_self.mpr
        intro assignment present
        by_contra moved
        exact untouched (List.any_eq_true.mpr ⟨assignment, present, by simpa using moved⟩)
      rw [← mem_without, same]
      simp [apart]

theorem Consistent.report {conflict : AssignmentConflict} (consistent : state.Consistent) :
    (state.report conflict).Consistent := by
  apply consistent.of_perm
  · rw [ReferenceModelState.report, set_layers]
    rfl
  · exact fun _ => mappedLayer_set rfl

theorem Consistent.assignEntityToLayer {logicalNodeId : Option String} {inheritsChildren : Bool}
    {result : AssignResult} (consistent : state.Consistent) (present : layerId ∈ state.layerIds)
    (ran : state.assignEntityToLayer entityId layerId logicalNodeId inheritsChildren =
      some (next, result)) : next.Consistent := by
  simp only [ReferenceModelState.assignEntityToLayer] at ran
  split at ran
  · cases ran
    exact consistent.report
  · obtain ⟨conflict, _, written⟩ := Option.map_eq_some_iff.mp ran
    cases written
    have layers (reported : ReferenceModelState Config) : (reported.set (state.assignUpdate entityId
        layerId logicalNodeId inheritsChildren)).layers =
          state.layers.map (state.assignedLayer entityId layerId logicalNodeId inheritsChildren) :=
      by rw [set_layers, assignUpdate, Option.getD_some]
    refine consistent.of_moved present (layers _) assignedLayer_id
      (fun _ _ => mem_entities_assignedLayer) ?_
    intro other
    simp only [mappedLayer, set_instanceAssignments, assignUpdate, Option.getD_some,
      OrderedMap.get_foldl_set, OrderedMap.get_set, List.mem_cons]
    by_cases follows : other ∈ state.descendantsToReassign entityId layerId
    · simp [follows, descendantAssignment]
    · by_cases here : other = entityId
      · subst here
        simp [follows, assignment]
      · simp [follows, here, Ne.symm here]

theorem Consistent.bulkAssignEntitiesToLayer {inheritsChildren : Bool} {entityIds : List String}
    {result : BulkResult} (consistent : state.Consistent) (present : layerId ∈ state.layerIds)
    (ran : state.bulkAssignEntitiesToLayer layerId inheritsChildren entityIds =
      some (next, result)) : next.Consistent := by
  obtain ⟨checks, _, written⟩ := Option.map_eq_some_iff.mp ran
  cases written
  have layers (conflicts : List AssignmentConflict) : (state.set (state.bulkUpdate layerId
      inheritsChildren entityIds conflicts)).layers =
        state.layers.map (state.bulkAssignedLayer layerId inheritsChildren entityIds) := by
    rw [set_layers, bulkUpdate, Option.getD_some]
  refine consistent.of_moved present (layers _) bulkAssignedLayer_id
    (fun _ _ => mem_entities_bulkAssignedLayer) ?_
  intro other
  simp only [mappedLayer, set_instanceAssignments, bulkUpdate, Option.getD_some,
    OrderedMap.get_foldl_set]
  split <;> rfl

/-- What is removed is in no layer, and in no list. -/
theorem mem_entities_removed {other : String} :
    other ∈ ViewLayerConfig.entities (if (layer.entityAssignments.getD []).any fun a =>
        a.entityId = entityId then
      { layer with
        entityAssignments := layer.entityAssignments.map fun assignments =>
          assignments.filter fun a => a.entityId ≠ entityId }
    else layer) ↔ other ≠ entityId ∧ other ∈ layer.entities := by
  have without : other ∈ ((layer.entityAssignments.getD []).filter fun a =>
      a.entityId ≠ entityId).map (·.entityId) ↔ other ≠ entityId ∧ other ∈ layer.entities := by
    have filtered : other ∈ ((layer.entityAssignments.getD []).filter fun a =>
        a.entityId ∉ [entityId]).map (·.entityId) ↔ other ∈ layer.entities ∧ other ∉ [entityId] :=
      mem_without
    simpa only [List.mem_singleton, and_comm] using filtered
  split
  · rw [← without, ViewLayerConfig.entities]
    cases layer.entityAssignments <;> rfl
  · rename_i absent
    rw [iff_and_self]
    rintro inLayer rfl
    obtain ⟨assignment, member, same⟩ := List.mem_map.mp inLayer
    exact absent (List.any_eq_true.mpr ⟨assignment, member, decide_eq_true same⟩)

theorem Consistent.removeEntityAssignment (consistent : state.Consistent) :
    (state.removeEntityAssignment entityId).Consistent := by
  have mapped (other : String) : (state.removeEntityAssignment entityId).mappedLayer other =
      if entityId = other then none else state.mappedLayer other := by
    simp only [mappedLayer, ReferenceModelState.removeEntityAssignment, set_instanceAssignments,
      Option.getD_some, OrderedMap.get_erase]
    split <;> rfl
  have layers : (state.removeEntityAssignment entityId).layers = state.layers.map fun layer =>
      if (layer.entityAssignments.getD []).any fun a => a.entityId = entityId then
        { layer with
          entityAssignments := layer.entityAssignments.map fun assignments =>
            assignments.filter fun a => a.entityId ≠ entityId }
      else layer := by
    rw [ReferenceModelState.removeEntityAssignment, set_layers, Option.getD_some]
  refine consistent.of_map layers ?_ ?_ ?_
  · intro layer
    split <;> rfl
  · intro layer member other
    rw [mem_entities_removed, mapped, consistent.mem_entities_iff member]
    split
    · rename_i same
      exact iff_of_false (fun both => both.1 same.symm) (Option.some_ne_none _).symm
    · rename_i apart
      exact and_iff_right (Ne.symm apart)
  · intro other layerId assigned
    rw [mapped] at assigned
    split at assigned
    · cases assigned
    · exact consistent.layer_mem assigned

theorem Consistent.clearAssignments (consistent : state.Consistent) :
    state.clearAssignments.Consistent := by
  have nothing (other : String) : state.clearAssignments.mappedLayer other = none := by
    simp only [mappedLayer, ReferenceModelState.clearAssignments, set_instanceAssignments,
      Option.getD_some, OrderedMap.get_empty, Option.map_none]
  have layers : state.clearAssignments.layers =
      state.layers.map fun layer => { layer with entityAssignments := some [] } := by
    rw [ReferenceModelState.clearAssignments, set_layers, Option.getD_some]
  refine consistent.of_map layers (fun _ => rfl) ?_ ?_
  · intro layer _ other
    rw [nothing]
    exact iff_of_false List.not_mem_nil (Option.some_ne_none _).symm
  · intro other layerId assigned
    rw [nothing] at assigned
    cases assigned

/-- A new layer lists no entity, nor does a layer that is removed, and an update of a layer lists
the entities that the layer has. -/
def KeepsEntities (state : ReferenceModelState Config) : LayerOperation Config → Prop
  | .addLayer id layerData => id ∉ state.layerIds → layerData.entityAssignments.getD [] = []
  | .removeLayer id =>
      ∀ layer ∈ state.layers, layer.id = id → layer.entityAssignments.getD [] = []
  | .updateLayer id updates => ∀ layer ∈ state.layers, layer.id = id → ∀ entityId,
      entityId ∈ (layer.update updates).entities ↔ entityId ∈ layer.entities
  | _ => True

theorem Consistent.layerStep_iff (consistent : state.Consistent)
    (operation : LayerOperation Config) :
    (∀ next, state.layerStep operation = some next → next.Consistent) ↔
      state.KeepsEntities operation := by
  cases operation with
  | addLayer id layerData =>
      simp only [layerStep, KeepsEntities]
      split
      · rename_i used
        exact iff_of_true nofun fun fresh => absurd used fresh
      · rename_i fresh
        simp only [Option.some.injEq, forall_eq', fresh, not_false_eq_true, forall_true_left]
        exact addLayer_consistent_iff consistent fresh
  | removeLayer id =>
      simp only [layerStep, Option.some.injEq, forall_eq']
      exact removeLayer_consistent_iff consistent
  | updateLayer id updates =>
      simp only [layerStep, Option.some.injEq, forall_eq']
      exact updateLayer_consistent_iff consistent
  | reorderLayers newSequence =>
      refine iff_of_true ?_ trivial
      intro next stepped
      simp only [layerStep] at stepped
      split at stepped
      · rename_i same
        cases stepped
        exact consistent.reorderLayers same
      · cases stepped
  | assignEntityToLayer entityId layerId logicalNodeId inheritsChildren =>
      refine iff_of_true ?_ trivial
      intro next stepped
      simp only [layerStep] at stepped
      split at stepped
      · rename_i present
        obtain ⟨⟨_, result⟩, ran, rfl⟩ := Option.map_eq_some_iff.mp stepped
        exact consistent.assignEntityToLayer present ran
      · cases stepped
  | bulkAssignEntitiesToLayer entityIds layerId inheritsChildren =>
      refine iff_of_true ?_ trivial
      intro next stepped
      simp only [layerStep] at stepped
      split at stepped
      · rename_i present
        obtain ⟨⟨_, result⟩, ran, rfl⟩ := Option.map_eq_some_iff.mp stepped
        exact consistent.bulkAssignEntitiesToLayer present ran
      · cases stepped
  | removeEntityAssignment entityId =>
      refine iff_of_true ?_ trivial
      rintro _ ⟨⟩
      exact consistent.removeEntityAssignment
  | clearAssignments =>
      refine iff_of_true ?_ trivial
      rintro _ ⟨⟩
      exact consistent.clearAssignments

/-- The copies agree throughout a run from where they agree if and only if every step keeps the
entities of the layers that it adds, removes and updates. -/
theorem consistent_iff_keepsEntities (state : ReferenceModelState Config)
    (consistent : state.Consistent) (operations : List (LayerOperation Config)) :
    Always layerStep Consistent state operations ↔ Meets layerStep KeepsEntities state operations :=
  always_iff_meets (fun _ => True) (fun _ _ _ _ _ => trivial)
    (fun _ operation _ consistent => consistent.layerStep_iff operation) trivial consistent

end ReferenceModelState

open ReferenceModelState

theorem initial_consistent : (initial : ReferenceModelState Config).Consistent where
  distinct := List.nodup_nil
  agree := by
    intro entityId layerId
    refine iff_of_false nofun ?_
    rintro ⟨layer, member, _⟩
    cases member
  apart := by
    intro first member
    cases member

/-- A layer is added, an entity is assigned to it, and the layer is removed. -/
def removal : List (LayerOperation Unit) :=
  [.addLayer "layer_1" ⟨none, ()⟩, .assignEntityToLayer "urn:a" "layer_1" none true,
    .removeLayer "layer_1"]

theorem consistent_iff_keepsEntities_removal :
    Always layerStep Consistent initial removal ↔ Meets layerStep KeepsEntities initial removal :=
  consistent_iff_keepsEntities initial initial_consistent removal

/-- The map keeps the entity in a layer that is no longer there. -/
theorem removal_dangles :
    (initial : ReferenceModelState Unit).Consistent ∧
      ¬ Always layerStep Consistent initial removal := by
  refine ⟨initial_consistent, ?_⟩
  intro always
  have last : Consistent _ := (((always.2 _ rfl).2 _ rfl).2 _ rfl)
  obtain ⟨layer, member, _⟩ := (last.agree "urn:a" "layer_1").mp (by decide)
  exact List.not_mem_nil member

end Univiz.Reference

import Mathlib.Data.List.Sort
import Univiz.Data.Transition
import Univiz.Reference.Store

namespace Univiz.Reference

open Univiz.Data

/-! The reference-model store and the backend.

A save and a load await a request.  The backend serves the requests in any order, and each
response, or its failure, arrives at any time after that. -/

variable {Config : Type}

structure Blueprint (Config : Type) where
  layers : List (ViewLayerConfig Config)
  scopeFilter : Option Config
  scopeEdgeConfig : Option Config
  instanceAssignments : OrderedMap String EntityAssignmentConfig

/-- A context model of the backend, which has it under its id. -/
structure ContextModel (Config : Type) where
  name : String
  layersConfig : List (ViewLayerConfig Config)
  scopeFilter : Option Config
  instanceAssignments : OrderedMap String EntityAssignmentConfig
  scopeEdgeConfig : Option Config

inductive SaveRequest (Config : Type) where
  | update (contextModelId : String) (name : Option String) (blueprint : Blueprint Config)
  | create (name : String) (blueprint : Blueprint Config)

def SaveRequest.blueprint : SaveRequest Config → Blueprint Config
  | .update _ _ blueprint | .create _ blueprint => blueprint

/-- A call of `saveToBackend` by what it awaits. -/
inductive Save (Config : Type) where
  | sent (request : SaveRequest Config)
  | stored (request : SaveRequest Config) (id : String) (model : ContextModel Config)
  | ended

def Save.isSent : Save Config → Bool
  | .sent _ => true
  | .stored _ _ _ | .ended => false

def Save.isAwaited : Save Config → Bool
  | .sent _ | .stored _ _ _ => true
  | .ended => false

inductive Load (Config : Type) where
  | sent (contextModelId : String)
  | answered (contextModelId : String) (model : ContextModel Config)
  | ended

/-- The store, the backend's models and the calls, with the blueprint that the backend has
last stored for the store or given to it. -/
structure Session (Config : Type) where
  store : ReferenceModelState Config
  models : OrderedMap String (ContextModel Config)
  saves : List (Save Config)
  loads : List (Load Config)
  held : Blueprint Config

/-- The backend serves a save under the id that it gives to a new model. -/
inductive Event (Config : Type) where
  | set (update : Update Config)
  | save
  | store (save : Nat) (id : String)
  | saved (save : Nat)
  | saveFailed (save : Nat)
  | load (contextModelId : String)
  | answer (load : Nat)
  | loaded (load : Nat)
  | loadFailed (load : Nat)

/-- The assignments are compared as a map. -/
structure Blueprint.Same (blueprint other : Blueprint Config) : Prop where
  layers : blueprint.layers = other.layers
  scopeFilter : blueprint.scopeFilter = other.scopeFilter
  scopeEdgeConfig : blueprint.scopeEdgeConfig = other.scopeEdgeConfig
  instanceAssignments : ∀ id,
    blueprint.instanceAssignments.get id = other.instanceAssignments.get id

theorem Blueprint.Same.refl (blueprint : Blueprint Config) : blueprint.Same blueprint :=
  ⟨rfl, rfl, rfl, fun _ => rfl⟩

theorem Blueprint.Same.symm {blueprint other : Blueprint Config} (same : blueprint.Same other) :
    other.Same blueprint :=
  ⟨same.layers.symm, same.scopeFilter.symm, same.scopeEdgeConfig.symm,
    fun id => (same.instanceAssignments id).symm⟩

theorem Blueprint.Same.trans {first second third : Blueprint Config} (same : first.Same second)
    (same' : second.Same third) : first.Same third :=
  ⟨same.layers.trans same'.layers, same.scopeFilter.trans same'.scopeFilter,
    same.scopeEdgeConfig.trans same'.scopeEdgeConfig,
    fun id => (same.instanceAssignments id).trans (same'.instanceAssignments id)⟩

def ReferenceModelState.blueprint (state : ReferenceModelState Config) : Blueprint Config :=
  ⟨state.layers, state.scopeFilter, state.scopeEdgeConfig, state.instanceAssignments⟩

/-- An empty id is none, and a model that is created without a name gets one. -/
def ReferenceModelState.saveRequest (state : ReferenceModelState Config) : SaveRequest Config :=
  match state.activeContextModelId.filter (· ≠ "") with
  | some id => .update id state.activeContextModelName state.blueprint
  | none =>
      .create (state.activeContextModelName.getD "Untitled Context Model") state.blueprint

namespace ContextModel

variable (model : ContextModel Config)

def stored : Blueprint Config :=
  ⟨model.layersConfig, model.scopeFilter, model.scopeEdgeConfig, model.instanceAssignments⟩

/-- What an update does not give, or gives as null, stays. -/
def updated (name : Option String) (blueprint : Blueprint Config) : ContextModel Config where
  name := name.getD model.name
  layersConfig := blueprint.layers
  scopeFilter := blueprint.scopeFilter.or model.scopeFilter
  instanceAssignments := blueprint.instanceAssignments
  scopeEdgeConfig := blueprint.scopeEdgeConfig.or model.scopeEdgeConfig

def created (name : String) (blueprint : Blueprint Config) : ContextModel Config :=
  ⟨name, blueprint.layers, blueprint.scopeFilter, blueprint.instanceAssignments,
    blueprint.scopeEdgeConfig⟩

end ContextModel

def ViewLayerConfig.position (layer : ViewLayerConfig Config) : Int :=
  layer.sequence.getD layer.order

/-- A load sorts the layers of the response in place. -/
def ContextModel.sortedLayers (model : ContextModel Config) : List (ViewLayerConfig Config) :=
  model.layersConfig.insertionSort fun a b => a.position ≤ b.position

def ContextModel.loaded (model : ContextModel Config) : Blueprint Config :=
  { model.stored with layers := model.sortedLayers }

/-- The model that serves a request, with its id; a new model has a new one. -/
def serve (models : OrderedMap String (ContextModel Config)) (id : String) :
    SaveRequest Config → Option (String × ContextModel Config)
  | .update contextModelId name blueprint =>
      (models.get contextModelId).map fun model => (contextModelId, model.updated name blueprint)
  | .create name blueprint =>
      if (models.get id).isNone then some (id, .created name blueprint) else none

/-- What a save sets when its request has succeeded. -/
def SaveRequest.savedUpdate (id : String) (model : ContextModel Config) :
    SaveRequest Config → Update Config
  | .update _ _ _ =>
      { syncStatus := some .synced, activeContextModelName := some (some model.name) }
  | .create _ _ =>
      { activeContextModelId := some (some id)
        activeContextModelName := some (some model.name)
        syncStatus := some .synced }

def ContextModel.loadedUpdate (model : ContextModel Config) (id : String) : Update Config where
  activeContextModelId := some (some id)
  activeContextModelName := some (some model.name)
  layers := some model.sortedLayers
  layerSequence := some (model.sortedLayers.map ViewLayerConfig.id)
  instanceAssignments := some model.instanceAssignments
  scopeFilter := some model.scopeFilter
  scopeEdgeConfig := some model.scopeEdgeConfig
  syncStatus := some .synced
  assignmentConflicts := some []

namespace Session

/-- An empty store holds what the backend has of it. -/
def start (models : OrderedMap String (ContextModel Config)) : Session Config where
  store := .initial
  models := models
  saves := []
  loads := []
  held := ReferenceModelState.initial.blueprint

variable (session : Session Config)

def saveToBackend : Session Config :=
  if session.store.syncStatus = .saving then session
  else
    { session with
      store := session.store.set { syncStatus := some .saving }
      saves := session.saves ++ [.sent session.store.saveRequest] }

def saved (save : Nat) (request : SaveRequest Config) (id : String)
    (model : ContextModel Config) : Session Config :=
  { session with
    store := session.store.set (request.savedUpdate id model)
    saves := session.saves.set save .ended }

def saveFailed (save : Nat) : Session Config :=
  { session with
    store := session.store.set { syncStatus := some .error }
    saves := session.saves.set save .ended }

def loaded (load : Nat) (id : String) (model : ContextModel Config) : Session Config :=
  { session with
    store := session.store.set (model.loadedUpdate id)
    loads := session.loads.set load .ended
    held := model.loaded }

/-- An edit leaves the status to the wrapper. -/
def step : Event Config → Option (Session Config)
  | .set update =>
      if update.syncStatus.isSome then none
      else some { session with store := session.store.set update }
  | .save => some session.saveToBackend
  | .store save id =>
      match session.saves[save]? with
      | some (.sent request) =>
          (serve session.models id request).map fun (id, model) =>
            { session with
              models := session.models.set id model
              saves := session.saves.set save (.stored request id model)
              held := model.stored }
      | _ => none
  | .saved save =>
      match session.saves[save]? with
      | some (.stored request id model) => some (session.saved save request id model)
      | _ => none
  | .saveFailed save =>
      match session.saves[save]? with
      | some (.sent _) | some (.stored _ _ _) => some (session.saveFailed save)
      | _ => none
  | .load contextModelId =>
      some { session with loads := session.loads ++ [.sent contextModelId] }
  | .answer load =>
      match session.loads[load]? with
      | some (.sent id) =>
          (session.models.get id).map fun model =>
            { session with loads := session.loads.set load (.answered id model) }
      | _ => none
  | .loaded load =>
      match session.loads[load]? with
      | some (.answered id model) => some (session.loaded load id model)
      | _ => none
  | .loadFailed load =>
      match session.loads[load]? with
      | some (.sent _) | some (.answered _ _) =>
          some { session with loads := session.loads.set load .ended }
      | _ => none

def Synced : Prop :=
  session.store.syncStatus = .synced → session.held.Same session.store.blueprint

/-- While a save is awaited no edit changes the blueprint, no load completes before the backend
has stored what was sent, and an update gives no null for what the model has. -/
def Orderly : Event Config → Prop
  | .set update => session.saves.any Save.isAwaited = true →
      (session.store.set update).blueprint.Same session.store.blueprint
  | .store save _ => ∀ contextModelId name blueprint,
      session.saves[save]? = some (.sent (.update contextModelId name blueprint)) →
        ∀ model ∈ session.models.get contextModelId,
          (blueprint.scopeFilter = none → model.scopeFilter = none) ∧
            (blueprint.scopeEdgeConfig = none → model.scopeEdgeConfig = none)
  | .loaded _ => session.saves.any Save.isSent = false
  | .save | .saved _ | .saveFailed _ | .load _ | .answer _ | .loadFailed _ => True

/-- What the backend has stored is the store's blueprint when the store says so, and also while
the answer to a save is on its way; what is still to be stored is the store's blueprint too. -/
structure Faithful : Prop where
  sent : ∀ request, Save.sent request ∈ session.saves →
    request.blueprint.Same session.store.blueprint
  held : session.store.syncStatus = .synced ∨
      (∃ request id model, Save.stored request id model ∈ session.saves) →
    session.held.Same session.store.blueprint

variable {session} {next : Session Config} {event : Event Config}

theorem rawSet_blueprint {store : ReferenceModelState Config} {update : Update Config}
    (untouched : update.touchesBlueprint = false) :
    (store.rawSet update).blueprint = store.blueprint := by
  simp only [Update.touchesBlueprint, Bool.or_eq_false_iff, Option.isSome_eq_false_iff,
    Option.isNone_iff_eq_none] at untouched
  obtain ⟨⟨⟨⟨layers, -⟩, scopeFilter⟩, scopeEdgeConfig⟩, instanceAssignments⟩ := untouched
  simp only [ReferenceModelState.blueprint, ReferenceModelState.rawSet, layers, scopeFilter,
    scopeEdgeConfig, instanceAssignments, Option.getD_none]

/-- An edit of a synced store that touches its blueprint makes it dirty. -/
theorem set_blueprint {store : ReferenceModelState Config} {update : Update Config}
    (inner : update.syncStatus = none) (synced : (store.set update).syncStatus = .synced) :
    store.syncStatus = .synced ∧ (store.set update).blueprint = store.blueprint := by
  unfold ReferenceModelState.set at synced ⊢
  simp only [inner, Option.isSome_none, Bool.false_eq_true, ↓reduceIte] at synced ⊢
  split at synced
  · cases synced
  · rename_i quiet
    have status : store.syncStatus = .synced := by
      simpa [ReferenceModelState.rawSet, inner] using synced
    rw [if_neg quiet]
    refine ⟨status, rawSet_blueprint ?_⟩
    simpa [status] using quiet

theorem mem_of_mem_ended {saves : List (Save Config)} {save : Nat} {call : Save Config}
    (awaited : call.isAwaited = true) (member : call ∈ saves.set save .ended) : call ∈ saves := by
  rcases List.mem_or_eq_of_mem_set member with before | rfl
  · exact before
  · cases awaited

theorem Faithful.set {update : Update Config} (faithful : session.Faithful)
    (orderly : session.Orderly (.set update)) (inner : update.syncStatus = none) :
    Faithful { session with store := session.store.set update } where
  sent := by
    intro request member
    have awaited : session.saves.any Save.isAwaited = true := List.any_eq_true.mpr ⟨_, member, rfl⟩
    exact (faithful.sent request member).trans (orderly awaited).symm
  held := by
    rintro (synced | ⟨request, id, model, member⟩)
    · obtain ⟨before, same⟩ := set_blueprint inner synced
      rw [same]
      exact faithful.held (.inl before)
    · have awaited : session.saves.any Save.isAwaited = true :=
        List.any_eq_true.mpr ⟨_, member, rfl⟩
      exact (faithful.held (.inr ⟨request, id, model, member⟩)).trans (orderly awaited).symm

theorem saveRequest_blueprint {store : ReferenceModelState Config} :
    store.saveRequest.blueprint = store.blueprint := by
  unfold ReferenceModelState.saveRequest
  split
  · rfl
  · rfl

theorem Faithful.saveToBackend (faithful : session.Faithful) : session.saveToBackend.Faithful := by
  unfold Session.saveToBackend
  split
  · exact faithful
  · refine ⟨fun request member => ?_, ?_⟩
    · rcases List.mem_append.mp member with before | added
      · exact faithful.sent request before
      · obtain rfl := Save.sent.inj (List.mem_singleton.mp added)
        rw [saveRequest_blueprint]
        exact .refl _
    · rintro (synced | ⟨request, id, model, member⟩)
      · cases synced
      · rcases List.mem_append.mp member with before | added
        · exact faithful.held (.inr ⟨request, id, model, before⟩)
        · cases List.mem_singleton.mp added

theorem updated_stored {model : ContextModel Config} {name : Option String}
    {blueprint : Blueprint Config}
    (filter : blueprint.scopeFilter = none → model.scopeFilter = none)
    (edges : blueprint.scopeEdgeConfig = none → model.scopeEdgeConfig = none) :
    (model.updated name blueprint).stored = blueprint := by
  obtain ⟨layers, scopeFilter, scopeEdgeConfig, instanceAssignments⟩ := blueprint
  have kept {field kept : Option Config} (null : field = none → kept = none) :
      field.or kept = field := by
    cases field with
    | none => exact null rfl
    | some value => rfl
  simp only [ContextModel.updated, ContextModel.stored, kept filter, kept edges]

/-- What the backend stores is what was sent. -/
theorem serve_stored {request : SaveRequest Config} {id key : String}
    {model : ContextModel Config} {save : Nat} (orderly : session.Orderly (.store save id))
    (found : session.saves[save]? = some (.sent request))
    (served : serve session.models id request = some (key, model)) :
    model.stored = request.blueprint := by
  cases request with
  | update contextModelId name blueprint =>
      obtain ⟨before, present, same⟩ := Option.map_eq_some_iff.mp served
      obtain ⟨filter, edges⟩ := orderly contextModelId name blueprint found before present
      cases same
      exact updated_stored filter edges
  | create name blueprint =>
      simp only [serve] at served
      split at served
      · cases served
        rfl
      · cases served

theorem Faithful.stored {request : SaveRequest Config} {id key : String}
    {model : ContextModel Config} {save : Nat} (faithful : session.Faithful)
    (orderly : session.Orderly (.store save id))
    (found : session.saves[save]? = some (.sent request))
    (served : serve session.models id request = some (key, model)) :
    Faithful { session with
      models := session.models.set key model
      saves := session.saves.set save (.stored request key model)
      held := model.stored } where
  sent := by
    intro other member
    rcases List.mem_or_eq_of_mem_set member with before | same
    · exact faithful.sent other before
    · cases same
  held := by
    intro _
    rw [serve_stored orderly found served]
    exact faithful.sent request (List.mem_of_getElem? found)

theorem Faithful.saved {save : Nat} {request : SaveRequest Config} {id : String}
    {model : ContextModel Config} (faithful : session.Faithful)
    (found : session.saves[save]? = some (.stored request id model)) :
    (session.saved save request id model).Faithful := by
  have kept : (session.saved save request id model).store.blueprint = session.store.blueprint := by
    cases request with
    | update contextModelId name blueprint => rfl
    | create name blueprint => rfl
  refine ⟨fun other member => ?_, fun _ => ?_⟩
  · rw [kept]
    exact faithful.sent other (mem_of_mem_ended rfl member)
  · rw [kept]
    exact faithful.held (.inr ⟨request, id, model, List.mem_of_getElem? found⟩)

theorem Faithful.saveFailed {save : Nat} (faithful : session.Faithful) :
    (session.saveFailed save).Faithful where
  sent request member := faithful.sent request (mem_of_mem_ended rfl member)
  held := by
    rintro (synced | ⟨request, id, model, member⟩)
    · cases synced
    · exact faithful.held (.inr ⟨request, id, model, mem_of_mem_ended rfl member⟩)

theorem Faithful.loaded {load : Nat} {id : String} {model : ContextModel Config}
    (orderly : session.Orderly (.loaded load)) : (session.loaded load id model).Faithful where
  sent := by
    intro request member
    exact absurd rfl (List.any_eq_false.mp orderly _ member)
  held _ := .refl _

theorem faithful_step (faithful : session.Faithful) (orderly : session.Orderly event)
    (stepped : session.step event = some next) : next.Faithful := by
  cases event with
  | set update =>
      simp only [step] at stepped
      split at stepped
      · cases stepped
      · rename_i inner
        cases stepped
        exact faithful.set orderly (Option.not_isSome_iff_eq_none.mp inner)
  | save =>
      cases stepped
      exact faithful.saveToBackend
  | store save id =>
      simp only [step] at stepped
      split at stepped
      · rename_i found
        obtain ⟨⟨key, model⟩, served, rfl⟩ := Option.map_eq_some_iff.mp stepped
        exact faithful.stored orderly found served
      · cases stepped
  | saved save =>
      simp only [step] at stepped
      split at stepped
      · rename_i found
        cases stepped
        exact faithful.saved found
      · cases stepped
  | saveFailed save =>
      simp only [step] at stepped
      split at stepped
      · cases stepped
        exact faithful.saveFailed
      · cases stepped
        exact faithful.saveFailed
      · cases stepped
  | load contextModelId =>
      cases stepped
      exact ⟨faithful.sent, faithful.held⟩
  | answer load =>
      simp only [step] at stepped
      split at stepped
      · obtain ⟨model, -, rfl⟩ := Option.map_eq_some_iff.mp stepped
        exact ⟨faithful.sent, faithful.held⟩
      · cases stepped
  | loaded load =>
      simp only [step] at stepped
      split at stepped
      · cases stepped
        exact .loaded orderly
      · cases stepped
  | loadFailed load =>
      simp only [step] at stepped
      split at stepped
      · cases stepped
        exact ⟨faithful.sent, faithful.held⟩
      · cases stepped
        exact ⟨faithful.sent, faithful.held⟩
      · cases stepped

/-- Synced means what it says throughout the runs in which no edit changes a blueprint that is
being saved, no load overtakes a save, and no update leaves a field to the backend. -/
theorem orderly_synced (models : OrderedMap String (ContextModel Config))
    (events : List (Event Config)) (orderly : Meets step Orderly (start models) events) :
    Always step Synced (start models) events := by
  refine always_of_meets Faithful (fun _ _ _ => faithful_step) ?_ ?_ orderly
  · intro session faithful synced
    exact faithful.held (.inl synced)
  · exact ⟨fun _ member => (by cases member), fun _ => .refl _⟩

def filtered : ContextModel String := ⟨"Sales lineage", [], some "finance only", .empty, none⟩

def bronze : ViewLayerConfig String := ⟨"bronze", 0, none, none, "amber"⟩

/-- A loaded model gets a layer and is saved. -/
def layerAdded : List (Event String) :=
  [.load "cm_1", .answer 0, .loaded 0, .set { layers := some [bronze] }, .save,
    .set { parentMap := some .empty }, .store 0 "cm_2", .saved 0]

theorem layerAdded_synced :
    (run step (start (OrderedMap.empty.set "cm_1" filtered)) layerAdded).map (fun last =>
        (last.store.syncStatus, last.held.layers.length, last.store.layers.length)) =
      some (.synced, 1, 1) ∧
    Always step Synced (start (OrderedMap.empty.set "cm_1" filtered)) layerAdded := by
  refine ⟨by decide +kernel, orderly_synced _ _ ?_⟩
  refine ⟨trivial, fun _ stepped => ?_⟩
  cases stepped
  refine ⟨trivial, fun _ stepped => ?_⟩
  cases stepped
  refine ⟨rfl, fun _ stepped => ?_⟩
  cases stepped
  refine ⟨fun awaited => (by cases awaited), fun _ stepped => ?_⟩
  cases stepped
  refine ⟨trivial, fun _ stepped => ?_⟩
  cases stepped
  refine ⟨fun _ => .refl _, fun _ stepped => ?_⟩
  cases stepped
  refine ⟨?_, fun _ stepped => ?_⟩
  · intro contextModelId name blueprint sent model found
    cases sent
    cases found
    exact ⟨fun null => (by cases null), fun _ => rfl⟩
  · cases stepped
    exact ⟨trivial, fun _ stepped => (by cases stepped; trivial)⟩

/-- A layer is added while the save of an empty store is awaited. -/
def editedMeanwhile : List (Event String) :=
  [.save, .set { layers := some [bronze] }, .store 0 "cm_1", .saved 0]

/-- The scope filter of a loaded model is removed, and the update gives it as null. -/
def filterRemoved : List (Event String) :=
  [.load "cm_1", .answer 0, .loaded 0, .set { scopeFilter := some none }, .save, .store 0 "cm_2",
    .saved 0]

/-- A load completes while the save of an empty store is on its way to the backend. -/
def overtaken : List (Event String) :=
  [.save, .load "cm_1", .answer 0, .loaded 0, .store 0 "cm_2"]

theorem unsaved_edits :
    (run step (start .empty) editedMeanwhile).map (fun last =>
        (last.store.syncStatus, last.held.layers.length, last.store.layers.length)) =
      some (.synced, 0, 1) ∧
    ∀ events ∈ [filterRemoved, overtaken],
      ∃ kept shown : Option String, kept ≠ shown ∧
        (run step (start (OrderedMap.empty.set "cm_1" filtered)) events).map (fun last =>
            (last.store.syncStatus, last.held.scopeFilter, last.store.scopeFilter)) =
          some (.synced, kept, shown) := by
  refine ⟨by decide +kernel, List.forall_mem_cons.mpr ⟨?_, List.forall_mem_singleton.mpr ?_⟩⟩
  · exact ⟨some "finance only", none, by decide, by decide +kernel⟩
  · exact ⟨none, some "finance only", by decide, by decide +kernel⟩

theorem not_synced :
    (¬ ∀ last, run step (start .empty) editedMeanwhile = some last → last.Synced) ∧
    ∀ events ∈ [filterRemoved, overtaken],
      ¬ ∀ last, run step (start (OrderedMap.empty.set "cm_1" filtered)) events = some last →
        last.Synced := by
  refine ⟨?_, ?_⟩
  · intro always
    obtain ⟨last, ran, shape⟩ := Option.map_eq_some_iff.mp unsaved_edits.1
    simp only [Prod.mk.injEq] at shape
    obtain ⟨status, held, current⟩ := shape
    have same : last.held.layers = last.store.layers := (always last ran status).layers
    rw [same, current] at held
    cases held
  · intro events listed always
    obtain ⟨kept, shown, apart, shaped⟩ := unsaved_edits.2 events listed
    obtain ⟨last, ran, shape⟩ := Option.map_eq_some_iff.mp shaped
    simp only [Prod.mk.injEq] at shape
    obtain ⟨status, rfl, rfl⟩ := shape
    exact apart (always last ran status).scopeFilter

end Session

end Univiz.Reference

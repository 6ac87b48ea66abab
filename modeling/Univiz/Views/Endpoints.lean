import Univiz.Views.Database

namespace Univiz.Views

open Univiz.Permissions

/-! The calls that change the tables of the views, with `RBAC_ENFORCE_VIEWS` on. -/

structure ViewCreateRequest where
  name : String
  description : Option String
  contextModelId : Option String
  workspaceId : String
  dataSourceId : Option String
  viewType : String
  config : String
  visibility : String
  tags : Option (List String)
  isPinned : Bool

structure ViewUpdateRequest where
  name : Option String
  description : Option String
  contextModelId : Option String
  viewType : Option String
  config : Option String
  visibility : Option String
  tags : Option (List String)
  isPinned : Option Bool

/-- What a call finds when it runs: the clock, the clock as `onupdate` reads it, the id of a new
row and the digest of the ontology, if it can be resolved. -/
structure Moment where
  now : String
  onUpdate : String
  newId : String
  ontologyDigest : Option String

namespace View

def create (req : ViewCreateRequest) (moment : Moment) (userId : String) : View where
  id := moment.newId
  workspaceId := req.workspaceId
  visibility := if req.visibility = "" then "private" else req.visibility
  createdBy := some userId
  name := req.name
  description := req.description
  contextModelId := req.contextModelId
  dataSourceId := req.dataSourceId
  viewType := if req.viewType = "" then "graph" else req.viewType
  config := req.config
  ontologyDigest := moment.ontologyDigest
  tags := if req.tags = some [] then none else req.tags
  isPinned := req.isPinned
  createdAt := moment.now
  updatedAt := moment.onUpdate
  deletedAt := none

variable (row : View)

def update (req : ViewUpdateRequest) (moment : Moment) : View :=
  { row with
    name := req.name.getD row.name
    description := req.description <|> row.description
    contextModelId := req.contextModelId <|> row.contextModelId
    viewType := req.viewType.getD row.viewType
    config := req.config.getD row.config
    visibility := req.visibility.getD row.visibility
    tags := req.tags <|> row.tags
    isPinned := req.isPinned.getD row.isPinned
    ontologyDigest := moment.ontologyDigest <|> row.ontologyDigest
    updatedAt := moment.now }

def softDelete (moment : Moment) : View :=
  { row with deletedAt := some moment.now, updatedAt := moment.onUpdate }

def restore (moment : Moment) : View :=
  { row with deletedAt := none, updatedAt := moment.onUpdate }

def setVisibility (visibility : String) (moment : Moment) : View :=
  { row with visibility := visibility, updatedAt := moment.now }

end View

namespace Database

variable (db : Database)

/-- The row replaces the one with its id. -/
def write (row : View) (valid : row.visibility ∈ visibilities) : Database :=
  { db with
    views := db.views.map fun view => if view.id = row.id then row else view
    primaryKey := by
      have same : (db.views.map fun view => if view.id = row.id then row else view).map (·.id) =
          db.views.map (·.id) := by
        rw [List.map_map]
        apply List.map_congr_left
        intro view _
        simp only [Function.comp_apply]
        split
        · rename_i equal
          exact equal.symm
        · rfl
      rw [same]
      exact db.primaryKey
    checked := by
      intro view member
      obtain ⟨old, listed, rfl⟩ := List.mem_map.mp member
      split
      · exact valid
      · exact db.checked old listed }

def flush (row : View) : Except Refusal Database :=
  if valid : row.visibility ∈ visibilities then .ok (db.write row valid) else .error .database

def insert (row : View) : Except Refusal Database :=
  if fits : row.id ∉ db.views.map (·.id) ∧ row.visibility ∈ visibilities then
    .ok { db with
      views := db.views ++ [row]
      primaryKey := by
        rw [List.map_append, List.map_singleton, List.nodup_append]
        refine ⟨db.primaryKey, List.nodup_singleton _, ?_⟩
        rintro id listed other member rfl
        exact fits.1 (List.mem_singleton.mp member ▸ listed)
      checked := by
        intro view member
        obtain listed | rfl := List.mem_append.mp member |>.imp_right List.mem_singleton.mp
        · exact db.checked view listed
        · exact fits.2 }
  else .error .database

/-- The favourites of the row go with it. -/
def remove (viewId : String) : Database :=
  { db with
    views := db.views.filter fun view => view.id ≠ viewId
    favourites := db.favourites.filter fun favourite => favourite.viewId ≠ viewId
    primaryKey := db.primaryKey.sublist (List.filter_sublist.map _)
    checked := fun view member => db.checked view (List.mem_filter.mp member).1
    favouredOnce := db.favouredOnce.filter _ }

def favouriteView (viewId userId : String) : Database :=
  if listed : ⟨viewId, userId⟩ ∈ db.favourites then db
  else
    { db with
      favourites := db.favourites ++ [⟨viewId, userId⟩]
      favouredOnce := by
        rw [List.nodup_append]
        refine ⟨db.favouredOnce, List.nodup_singleton _, ?_⟩
        rintro favourite member other same rfl
        exact listed (List.mem_singleton.mp same ▸ member) }

def unfavouriteView (viewId userId : String) : Database :=
  { db with
    favourites := db.favourites.filter fun favourite => favourite ≠ ⟨viewId, userId⟩
    favouredOnce := db.favouredOnce.filter _ }

end Database

section Endpoints

variable (db : Database) (caller : Caller) (viewId : String) (moment : Moment)

/-- A call with a token that loads the view, puts a question to the evaluator and writes. -/
def guarded (allowed : ViewerContext → View → Bool) (refusal : Refusal)
    (effect : View → Except Refusal Database) : Except Refusal Database := do
  let _claims ← getPermissionClaims caller
  let view ← loadViewOrm db viewId
  if allowed (caller.viewerContext db) view then effect view else throw refusal

/-- An UPDATE that reports a view it does not apply to. -/
def updateRow (applies : View → Bool) (missing : Refusal) (change : View → View) (view : View) :
    Except Refusal Database :=
  if applies view then db.flush (change view) else .error missing

def createViewEndpoint (req : ViewCreateRequest) : Except Refusal Database := do
  let claims ← getPermissionClaims caller
  if hasPermission claims "workspace:view:create" (some req.workspaceId) then
    db.insert (.create req moment caller.userId)
  else throw (.http 403 "Missing permission: workspace:view:create")

def updateViewEndpoint (req : ViewUpdateRequest) : Except Refusal Database :=
  guarded db caller viewId (fun ctx view => canEditView db.resourceGrants ctx view.toViewProxy)
    (.http 403 "Missing permission: workspace:view:edit")
    (updateRow db (fun _ => true) (viewNotFound viewId) fun row => row.update req moment)

def deleteViewEndpoint (permanent : Bool) : Except Refusal Database :=
  if permanent then
    guarded db caller viewId (fun ctx view => canHardDeleteView ctx view.toViewProxy)
      (.http 403 "Missing permission: workspace:admin") fun _ => .ok (db.remove viewId)
  else
    guarded db caller viewId (fun ctx view => canDeleteView ctx view.toViewProxy)
      (.http 403 "Missing permission: workspace:view:delete")
      (updateRow db (fun row => row.deletedAt = none) (viewNotFound viewId)
        fun row => row.softDelete moment)

def restoreViewEndpoint : Except Refusal Database :=
  guarded db caller viewId (fun ctx view => canRestoreView ctx view.toViewProxy)
    (.http 403 "Missing permission: workspace:admin")
    (updateRow db (fun row => row.deletedAt ≠ none)
      (.http 404 ("View '" ++ viewId ++ "' not found or not deleted"))
      fun row => row.restore moment)

def updateViewVisibilityEndpoint (visibility : String) : Except Refusal Database := do
  let _claims ← getPermissionClaims caller
  if visibility ∉ visibilities then
    throw (.http 422 "visibility must be one of: private, workspace, enterprise")
  guarded db caller viewId (fun ctx view => canChangeVisibility ctx view.toViewProxy)
    (.http 403 "Only the creator or a workspace admin can change visibility")
    (updateRow db (fun _ => true) (viewNotFound viewId) fun row =>
      row.setVisibility visibility moment)

def favouriteViewEndpoint : Except Refusal Database := do
  let _view ← loadViewOrm db viewId
  return db.favouriteView viewId caller.userId

def unfavouriteViewEndpoint : Except Refusal Database :=
  if ⟨viewId, caller.userId⟩ ∈ db.favourites then .ok (db.unfavouriteView viewId caller.userId)
  else .error (.http 404 "Favourite not found")

end Endpoints

inductive Write
  | createView (req : ViewCreateRequest)
  | updateView (viewId : String) (req : ViewUpdateRequest)
  | deleteView (viewId : String) (permanent : Bool)
  | restoreView (viewId : String)
  | updateViewVisibility (viewId visibility : String)
  | favouriteView (viewId : String)
  | unfavouriteView (viewId : String)

def handle (db : Database) (caller : Caller) (moment : Moment) : Write → Except Refusal Database
  | .createView req => createViewEndpoint db caller moment req
  | .updateView viewId req => updateViewEndpoint db caller viewId moment req
  | .deleteView viewId permanent => deleteViewEndpoint db caller viewId moment permanent
  | .restoreView viewId => restoreViewEndpoint db caller viewId moment
  | .updateViewVisibility viewId visibility =>
      updateViewVisibilityEndpoint db caller viewId moment visibility
  | .favouriteView viewId => favouriteViewEndpoint db caller viewId
  | .unfavouriteView viewId => unfavouriteViewEndpoint db caller viewId

/-- Grants and memberships are written by other endpoints. -/
inductive Event
  | call (caller : Caller) (moment : Moment) (write : Write)
  | elsewhere (resourceGrants : List ResourceGrant) (directory : Directory)

/-- A call that is refused is rolled back. -/
def step (db : Database) : Event → Option Database
  | .call caller moment write =>
      match handle db caller moment write with
      | .ok next => some next
      | .error _ => some db
  | .elsewhere resourceGrants directory =>
      some { db with resourceGrants := resourceGrants, directory := directory }

end Univiz.Views

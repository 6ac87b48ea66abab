import Mathlib.Data.Prod.Lex
import Mathlib.Data.String.Basic
import Univiz.Data.Ranking
import Univiz.Views.Evaluator

namespace Univiz.Views

open Univiz.Data
open Univiz.Permissions

/-! The tables of the views and how a row becomes a response. -/

structure View extends ViewProxy where
  name : String
  description : Option String
  contextModelId : Option String
  dataSourceId : Option String
  viewType : String
  config : String
  ontologyDigest : Option String
  tags : Option (List String)
  isPinned : Bool
  createdAt : String
  updatedAt : String
  deletedAt : Option String
deriving DecidableEq

structure Favourite where
  viewId : String
  userId : String
deriving DecidableEq

/-- What `ck_views_visibility` admits. -/
def visibilities : List String := ["private", "workspace", "enterprise"]

structure Database where
  views : List View
  favourites : List Favourite
  resourceGrants : List ResourceGrant
  directory : Directory
  primaryKey : (views.map (·.id)).Nodup
  checked : ∀ view ∈ views, view.visibility ∈ visibilities
  favouredOnce : favourites.Nodup

namespace Database

variable (db : Database)

def find? (viewId : String) : Option View := db.views.find? fun view => view.id = viewId

def getFavouriteCount (viewId : String) : Nat :=
  (db.favourites.filter fun favourite => favourite.viewId = viewId).length

def isFavourited (viewId userId : String) : Bool := userId ≠ "" ∧ ⟨viewId, userId⟩ ∈ db.favourites

variable {db} {viewId : String} {view other : View}

theorem find?_eq_some_iff : db.find? viewId = some view ↔ view ∈ db.views ∧ view.id = viewId := by
  constructor
  · intro found
    exact ⟨List.mem_of_find?_eq_some found, of_decide_eq_true (List.find?_some found :)⟩
  · rintro ⟨member, rfl⟩
    cases found : db.find? view.id with
    | none =>
        have absent := List.find?_eq_none.mp found view member
        simp at absent
    | some other =>
        have same : other.id = view.id := of_decide_eq_true (List.find?_some found :)
        have listed := List.mem_of_find?_eq_some found
        rw [List.inj_on_of_nodup_map db.primaryKey listed member same]

theorem eq_of_id (member : view ∈ db.views) (listed : other ∈ db.views)
    (same : view.id = other.id) : view = other :=
  List.inj_on_of_nodup_map db.primaryKey member listed same

end Database

/-- The ids of users are generated. -/
structure User where
  id : String
  generated : id ≠ ""

/-- What the session of a call says: the user, if there is one, and the claims of the token, if
there is a valid one. -/
structure Caller where
  user : Option User
  claims : Option PermissionClaims

namespace Caller

variable (caller : Caller)

def userId : String :=
  match caller.user with
  | some user => user.id
  | none => "anonymous"

/-- The context of a caller, who without a token has no claims. -/
def viewerContext (db : Database) : ViewerContext :=
  .build db.directory (caller.user.map (·.id))
    (caller.claims.getD { sid := "", globalPerms := [], wsPerms := .empty })

end Caller

structure ViewResponse where
  id : String
  name : String
  description : Option String
  contextModelId : Option String
  workspaceId : String
  dataSourceId : Option String
  viewType : String
  config : String
  visibility : String
  createdBy : Option String
  tags : Option (List String)
  isPinned : Bool
  favouriteCount : Nat
  isFavourited : Bool
  createdAt : String
  updatedAt : String
  deletedAt : Option String
  ontologyDigest : Option String
deriving DecidableEq

def View.toResponse (row : View) (favouriteCount : Nat) (isFavourited : Bool) : ViewResponse where
  id := row.id
  name := row.name
  description := row.description
  contextModelId := row.contextModelId
  workspaceId := row.workspaceId
  dataSourceId := row.dataSourceId
  viewType := if row.viewType = "" then "graph" else row.viewType
  config := row.config
  visibility := row.tier
  createdBy := row.createdBy
  tags := row.tags
  isPinned := row.isPinned
  favouriteCount := favouriteCount
  isFavourited := isFavourited
  createdAt := row.createdAt
  updatedAt := row.updatedAt
  deletedAt := row.deletedAt
  ontologyDigest := row.ontologyDigest

def toEnrichedResponse (db : Database) (row : View) (userId : String) : ViewResponse :=
  row.toResponse (db.getFavouriteCount row.id) (db.isFavourited row.id userId)

/-- One query for the favourites of all rows, which a caller without a user does not need. -/
def batchEnrichRows (db : Database) (rows : List View) (userId : String) : List ViewResponse :=
  rows.map fun row => row.toResponse (db.getFavouriteCount row.id)
    (userId ≠ "anonymous" && db.isFavourited row.id userId)

/-- `_ViewProxy.from_response`. -/
def ViewProxy.fromResponse (item : ViewResponse) : ViewProxy where
  id := item.id
  workspaceId := item.workspaceId
  visibility := item.visibility
  createdBy := item.createdBy

inductive Refusal
  | http (statusCode : Nat) (detail : String)
  /-- A request of the wrong shape. -/
  | validation
  /-- An error of the database. -/
  | database
deriving DecidableEq

def getPermissionClaims (caller : Caller) : Except Refusal PermissionClaims :=
  match caller.claims with
  | some claims => .ok claims
  | none => .error (.http 401 "Not authenticated")

def viewNotFound (viewId : String) : Refusal :=
  .http 404 ("View '" ++ viewId ++ "' not found")

def loadViewOrm (db : Database) (viewId : String) : Except Refusal View :=
  match db.find? viewId with
  | some view => .ok view
  | none => .error (viewNotFound viewId)

theorem getPermissionClaims_eq_ok_iff {caller : Caller} {claims : PermissionClaims} :
    getPermissionClaims caller = .ok claims ↔ caller.claims = some claims := by
  rw [getPermissionClaims]
  split
  · rename_i held found
    rw [found, Except.ok.injEq, Option.some.injEq]
  · rename_i missing
    rw [missing]
    exact iff_of_false nofun nofun

theorem loadViewOrm_eq_ok_iff {db : Database} {viewId : String} {view : View} :
    loadViewOrm db viewId = .ok view ↔ view ∈ db.views ∧ view.id = viewId := by
  rw [← Database.find?_eq_some_iff, loadViewOrm]
  split
  · rename_i found lookup
    rw [lookup, Except.ok.injEq, Option.some.injEq]
  · rename_i missing
    rw [missing]
    exact iff_of_false nofun nofun

end Univiz.Views

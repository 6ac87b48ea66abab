import Univiz.Views.Database

namespace Univiz.Views

open Univiz.Data

/-! The calls that return views, with `RBAC_ENFORCE_VIEWS` on. -/

structure ViewFilters where
  visibility : Option String
  visibilityIn : Option (List String)
  workspaceId : Option String
  workspaceIds : Option (List String)
  contextModelId : Option String
  dataSourceId : Option String
  viewType : Option String
  viewTypes : Option (List String)
  createdBy : Option String
  createdByIn : Option (List String)
  createdAfter : Option String
  search : Option String
  tags : Option (List String)
  favouritedOnly : Bool
  includeDeleted : Bool
  deletedOnly : Bool
  attentionOnly : Bool

/-- The conditions that the database decides by patterns or by the tables of the workspaces and
the data sources. -/
structure Matching where
  search : String → View → Bool
  tag : String → View → Bool
  attention : View → Bool

/-- The parameter with many values wins over the one with a single value, and one that is empty
is as good as none. -/
def among (many : Option (List String)) (single value : Option String) : Bool :=
  if many.getD [] ≠ [] then value.any (· ∈ many.getD [])
  else single.getD "" = "" || value = single

def applyViewFilters (matching : Matching) (db : Database) (filters : ViewFilters)
    (userId : String) : List View :=
  db.views.filter fun view =>
    (if filters.deletedOnly then view.deletedAt.isSome
      else filters.includeDeleted || view.deletedAt.isNone) &&
    (!filters.favouritedOnly || userId = "" || ⟨view.id, userId⟩ ∈ db.favourites) &&
    among filters.workspaceIds filters.workspaceId (some view.workspaceId) &&
    among none filters.contextModelId view.contextModelId &&
    among none filters.dataSourceId view.dataSourceId &&
    among filters.viewTypes filters.viewType (some view.viewType) &&
    among filters.createdByIn filters.createdBy view.createdBy &&
    (filters.createdAfter.getD "" = "" || filters.createdAfter.getD "" ≤ view.createdAt) &&
    among filters.visibilityIn filters.visibility (some view.visibility) &&
    (filters.tags.getD [] = [] || (filters.tags.getD []).any fun tag => matching.tag tag view) &&
    (filters.search.getD "" = "" || matching.search (filters.search.getD "") view) &&
    (!filters.attentionOnly || matching.attention view)

/-- `OFFSET … LIMIT …`, of which neither may be negative. -/
def paged (limit offset : Int) (rows : List View) : Except Refusal (List View) :=
  if limit < 0 ∨ offset < 0 then .error .database
  else .ok ((rows.drop offset.toNat).take limit.toNat)

structure ViewListResponse where
  items : List ViewResponse
  total : Nat
  hasMore : Bool
  nextOffset : Option Int
  popular : Option (List ViewResponse)

def listViewsFiltered (matching : Matching) (byUpdate : Descending View.updatedAt) (db : Database)
    (filters : ViewFilters) (limit offset : Int) (userId : String) :
    Except Refusal ViewListResponse := do
  let selected := applyViewFilters matching db filters userId
  let rows ← paged limit offset (byUpdate.arrange selected)
  let responses := batchEnrichRows db rows userId
  let hasMore := offset + responses.length < selected.length
  return {
    items := responses
    total := selected.length
    hasMore := hasMore
    nextOffset := if hasMore then some (offset + responses.length) else none
    popular := none }

/-- Views that are not private, and the views of the user. -/
def offered (db : Database) (userId : String) : List View :=
  db.views.filter fun view =>
    view.deletedAt = none && 0 < db.getFavouriteCount view.id &&
      (view.visibility ∈ ["enterprise", "workspace"] ||
        (userId ≠ "" && view.createdBy = some userId))

/-- The favourites count first, and the last update then. -/
def popularity (db : Database) (view : View) : Nat ×ₗ String :=
  toLex (db.getFavouriteCount view.id, view.updatedAt)

def listPopularViews (db : Database) (byPopularity : Descending (popularity db)) (limit : Int)
    (userId : String) : Except Refusal (List ViewResponse) := do
  let rows ← paged limit 0 (byPopularity.arrange (offered db userId))
  return batchEnrichRows db rows userId

def normalisedPrincipal (userId : String) : String := if userId = "" then "anon" else userId

/-- The key under which concurrent calls share one result. -/
def popularKey (caller : Caller) (limit : Int) : String × Int :=
  (normalisedPrincipal caller.userId, limit)

inductive Request
  | listViews (filters : ViewFilters) (limit offset : Int) (includes : List String)
      (popularLimit : Int)
  | listPopularViews (limit : Int)
  | getView (viewId : String)

/-- What a call is answered with besides its own data. -/
structure Reader (db : Database) where
  matching : Matching
  byUpdate : Descending View.updatedAt
  byPopularity : Descending (popularity db)
  /-- The caller whose call for the popular views is the one that runs. -/
  leader : Caller

section Endpoints

variable {db : Database} (reader : Reader db) (caller : Caller)

/-- What `include=popular` adds to the list. -/
def includedPopular (includes : List String) (popularLimit : Int) :
    Except Refusal (Option (List ViewResponse)) :=
  if "popular" ∈ includes then
    (listPopularViews db reader.byPopularity popularLimit caller.userId).map some
  else .ok none

def listViewsEndpoint (filters : ViewFilters) (limit offset : Int) (includes : List String)
    (popularLimit : Int) : Except Refusal ViewListResponse := do
  let _claims ← getPermissionClaims caller
  if 200 < limit ∨ 100 < popularLimit then throw .validation
  let response ←
    listViewsFiltered reader.matching reader.byUpdate db filters limit offset caller.userId
  let popular ← includedPopular reader caller includes popularLimit
  let ctx := caller.viewerContext db
  return { response with
    items := response.items.filter fun item =>
      canReadView db.resourceGrants ctx (.fromResponse item)
    popular := popular }

def listPopularViewsEndpoint (limit : Int) : Except Refusal (List ViewResponse) := do
  if 100 < limit then throw .validation
  if popularKey reader.leader limit = popularKey caller limit then
    listPopularViews db reader.byPopularity limit reader.leader.userId
  else listPopularViews db reader.byPopularity limit caller.userId

def getViewEndpoint (db : Database) (caller : Caller) (viewId : String) :
    Except Refusal ViewResponse := do
  let _claims ← getPermissionClaims caller
  let viewOrm ← loadViewOrm db viewId
  if canReadView db.resourceGrants (caller.viewerContext db) viewOrm.toViewProxy then
    return toEnrichedResponse db viewOrm caller.userId
  else throw (viewNotFound viewId)

/-- The views in the response, those under `popular` included. -/
def answer : Request → Except Refusal (List ViewResponse)
  | .listViews filters limit offset includes popularLimit =>
      (listViewsEndpoint reader caller filters limit offset includes popularLimit).map
        fun response => response.items ++ response.popular.getD []
  | .listPopularViews limit => listPopularViewsEndpoint reader caller limit
  | .getView viewId => (getViewEndpoint db caller viewId).map fun view => [view]

end Endpoints

end Univiz.Views

import Univiz.Data.Fallible
import Univiz.Views.Listing

namespace Univiz.Views

open Univiz.Data
open Univiz.Permissions

/-! Which views a caller is shown. -/

variable {db : Database} {caller : Caller} {view : View} {item : ViewResponse}

theorem tier_tier (proxy : ViewProxy) :
    ViewProxy.tier { proxy with visibility := proxy.tier } = proxy.tier := by
  by_cases unnamed : proxy.visibility = "" <;> simp [ViewProxy.tier, unnamed]

/-- The response says as much about access as the row. -/
theorem canReadView_fromResponse {grants : List ResourceGrant} {ctx : ViewerContext}
    {favouriteCount : Nat} {isFavourited : Bool} :
    canReadView grants ctx (.fromResponse (view.toResponse favouriteCount isFavourited)) =
      canReadView grants ctx view.toViewProxy := by
  have same : ViewProxy.fromResponse (view.toResponse favouriteCount isFavourited) =
      { view.toViewProxy with visibility := view.tier } := rfl
  rw [same]
  simp only [canReadView, layer2Visibility, tier_tier]
  rfl

theorem mem_batchEnrichRows {rows : List View} {userId : String}
    (member : item ∈ batchEnrichRows db rows userId) :
    ∃ view ∈ rows, view.id = item.id ∧ ∀ grants ctx,
      canReadView grants ctx (.fromResponse item) = canReadView grants ctx view.toViewProxy := by
  obtain ⟨view, listed, rfl⟩ := List.mem_map.mp member
  exact ⟨view, listed, rfl, fun _ _ => canReadView_fromResponse⟩

theorem paged_eq_ok_iff {limit offset : Int} {rows page : List View} :
    paged limit offset rows = .ok page ↔
      0 ≤ limit ∧ 0 ≤ offset ∧ (rows.drop offset.toNat).take limit.toNat = page := by
  rw [paged]
  split
  · rename_i negative
    refine iff_of_false nofun ?_
    rintro ⟨natural, start, _⟩
    omega
  · rename_i regular
    rw [Except.ok.injEq]
    have : 0 ≤ limit ∧ 0 ≤ offset := by omega
    rw [← and_assoc, and_iff_right this]

theorem mem_offered {userId : String} : view ∈ offered db userId ↔
    view ∈ db.views ∧ view.deletedAt = none ∧ 0 < db.getFavouriteCount view.id ∧
      (view.visibility ∈ ["enterprise", "workspace"] ∨
        userId ≠ "" ∧ view.createdBy = some userId) := by
  simp [offered, and_assoc]

theorem listPopularViews_eq_ok_iff {byPopularity : Descending (popularity db)} {limit : Int}
    {userId : String} {items : List ViewResponse} :
    listPopularViews db byPopularity limit userId = .ok items ↔ 0 ≤ limit ∧
      batchEnrichRows db ((byPopularity.arrange (offered db userId)).take limit.toNat) userId =
        items := by
  rw [listPopularViews, bind_eq_ok_iff]
  simp only [paged_eq_ok_iff]
  constructor
  · rintro ⟨_, ⟨natural, _, rfl⟩, ⟨⟩⟩
    exact ⟨natural, rfl⟩
  · rintro ⟨natural, rfl⟩
    exact ⟨_, ⟨natural, le_rfl, rfl⟩, rfl⟩

theorem userId_ne_empty (caller : Caller) : caller.userId ≠ "" := by
  rw [Caller.userId]
  split
  · rename_i user _
    exact user.generated
  · decide

/-- Only calls for the same user share a result. -/
theorem userId_of_popularKey {leader : Caller} {limit : Int}
    (same : popularKey leader limit = popularKey caller limit) :
    leader.userId = caller.userId := by
  have principal := congrArg Prod.fst same
  simpa [popularKey, normalisedPrincipal, userId_ne_empty] using principal

theorem listPopularViewsEndpoint_eq_ok_iff {reader : Reader db} {limit : Int}
    {items : List ViewResponse} :
    listPopularViewsEndpoint reader caller limit = .ok items ↔
      limit ≤ 100 ∧ listPopularViews db reader.byPopularity limit caller.userId = .ok items := by
  have shared : listPopularViewsEndpoint reader caller limit =
      if 100 < limit then .error .validation
      else listPopularViews db reader.byPopularity limit caller.userId := by
    rw [listPopularViewsEndpoint]
    split
    · rfl
    · split
      · rename_i same
        rw [userId_of_popularKey same]
      · rfl
  rw [shared]
  split
  · rename_i large
    exact iff_of_false nofun fun both => absurd both.1 (not_le.mpr large)
  · rename_i small
    rw [and_iff_right (not_lt.mp small)]

section List

variable {reader : Reader db} {filters : ViewFilters} {limit offset popularLimit : Int}
  {includes : List String} {userId : String} {listed response : ViewListResponse}

theorem listViewsFiltered_ok (natural : 0 ≤ limit) (start : 0 ≤ offset) :
    ∃ listed, listViewsFiltered reader.matching reader.byUpdate db filters limit offset userId =
      .ok listed := by
  rw [listViewsFiltered]
  simp only [bind_eq_ok_iff, paged_eq_ok_iff]
  exact ⟨_, _, ⟨natural, start, rfl⟩, rfl⟩

theorem of_listViewsFiltered
    (ran : listViewsFiltered reader.matching reader.byUpdate db filters limit offset userId =
      .ok listed) :
    0 ≤ limit ∧ 0 ≤ offset ∧ listed.popular = none ∧ ∀ item ∈ listed.items,
      ∃ view ∈ db.views, view.id = item.id ∧ ∀ grants ctx,
        canReadView grants ctx (.fromResponse item) = canReadView grants ctx view.toViewProxy := by
  rw [listViewsFiltered] at ran
  obtain ⟨page, fetched, ⟨⟩⟩ := bind_eq_ok_iff.mp ran
  obtain ⟨natural, start, rfl⟩ := paged_eq_ok_iff.mp fetched
  refine ⟨natural, start, rfl, ?_⟩
  intro item member
  obtain ⟨view, selected, same⟩ := mem_batchEnrichRows member
  have arranged := List.mem_of_mem_drop (List.mem_of_mem_take selected)
  exact ⟨view, (List.mem_filter.mp (reader.byUpdate.mem_arrange.mp arranged)).1, same⟩

theorem includedPopular_eq_ok_iff {popular : Option (List ViewResponse)} :
    includedPopular reader caller includes popularLimit = .ok popular ↔
      if "popular" ∈ includes then
        ∃ items, listPopularViews db reader.byPopularity popularLimit caller.userId = .ok items ∧
          some items = popular
      else popular = none := by
  rw [includedPopular]
  split
  · exact map_eq_ok_iff
  · rw [Except.ok.injEq, eq_comm]

theorem listViewsEndpoint_eq_ok_iff :
    listViewsEndpoint reader caller filters limit offset includes popularLimit = .ok response ↔
      caller.claims.isSome ∧ limit ≤ 200 ∧ popularLimit ≤ 100 ∧ ∃ listed popular,
        listViewsFiltered reader.matching reader.byUpdate db filters limit offset caller.userId =
          .ok listed ∧
        includedPopular reader caller includes popularLimit = .ok popular ∧
        { listed with
          items := listed.items.filter fun item =>
            canReadView db.resourceGrants (caller.viewerContext db) (.fromResponse item)
          popular := popular } = response := by
  rw [listViewsEndpoint, bind_eq_ok_iff, Option.isSome_iff_exists]
  simp only [getPermissionClaims_eq_ok_iff]
  by_cases large : 200 < limit ∨ 100 < popularLimit
  · rw [if_pos large]
    refine iff_of_false ?_ fun both => by omega
    rintro ⟨_, _, ⟨⟩⟩
  · rw [if_neg large]
    have small : limit ≤ 200 ∧ popularLimit ≤ 100 := by omega
    simp only [bind_eq_ok_iff, exists_and_left, exists_and_right]
    rw [and_iff_right small.1, and_iff_right small.2]
    apply and_congr_right
    intro _
    constructor
    · rintro ⟨listed, selected, popular, added, ⟨⟩⟩
      exact ⟨listed, selected, popular, added, rfl⟩
    · rintro ⟨listed, selected, popular, added, rfl⟩
      exact ⟨listed, selected, popular, added, rfl⟩

end List

/-- Some answer to the call contains the item. -/
def Returned (db : Database) (caller : Caller) (request : Request) (item : ViewResponse) : Prop :=
  ∃ (reader : Reader db) (items : List ViewResponse),
    answer reader caller request = .ok items ∧ item ∈ items

/-- The caller may read the view that the item shows. -/
def Readable (db : Database) (caller : Caller) (item : ViewResponse) : Prop :=
  ∃ view ∈ db.views, view.id = item.id ∧
    canReadView db.resourceGrants (caller.viewerContext db) view.toViewProxy = true

/-- How many popular views a call asks for, if it is answered at all. -/
def Request.popularCount (caller : Caller) : Request → Nat
  | .listViews _ limit offset includes popularLimit =>
      if caller.claims.isSome ∧ 0 ≤ limit ∧ limit ≤ 200 ∧ 0 ≤ offset ∧ popularLimit ≤ 100 ∧
        "popular" ∈ includes then popularLimit.toNat
      else 0
  | .listPopularViews limit => if limit ≤ 100 then limit.toNat else 0
  | .getView _ => 0

/-- Fewer offered views than that have to come before the view. -/
def ReachedBy (db : Database) (caller : Caller) (request : Request) (view : View) : Prop :=
  (ahead (popularity db) (offered db caller.userId) view).length < request.popularCount caller

theorem of_listPopularViews {byPopularity : Descending (popularity db)} {limit : Int}
    {items : List ViewResponse}
    (ran : listPopularViews db byPopularity limit caller.userId = .ok items)
    (member : item ∈ items) :
    ∃ view ∈ offered db caller.userId, view.id = item.id ∧
      (ahead (popularity db) (offered db caller.userId) view).length < limit.toNat := by
  obtain ⟨_, rfl⟩ := listPopularViews_eq_ok_iff.mp ran
  obtain ⟨view, early, same, _⟩ := mem_batchEnrichRows member
  exact ⟨view, byPopularity.mem_arrange.mp (List.mem_of_mem_take early), same,
    byPopularity.length_ahead_lt early⟩

theorem listPopularViews_favouring {limit : Int} (shown : view ∈ offered db caller.userId)
    (early : (ahead (popularity db) (offered db caller.userId) view).length < limit.toNat) :
    ∃ items, listPopularViews db (.favouring (popularity db) view) limit caller.userId =
      .ok items ∧ ∃ item ∈ items, item.id = view.id := by
  have natural : 0 ≤ limit := by omega
  refine ⟨_, listPopularViews_eq_ok_iff.mpr ⟨natural, rfl⟩, ?_⟩
  exact ⟨_, List.mem_map_of_mem (Descending.mem_take_favouring shown early), rfl⟩

/-- Everything outside the popular views has been checked. -/
theorem of_returned {request : Request} (returned : Returned db caller request item) :
    Readable db caller item ∨ ∃ view ∈ offered db caller.userId, view.id = item.id ∧
      ReachedBy db caller request view := by
  obtain ⟨reader, items, answered, member⟩ := returned
  cases request with
  | listViews filters limit offset includes popularLimit =>
      obtain ⟨response, ran, rfl⟩ := map_eq_ok_iff.mp answered
      obtain ⟨authenticated, small, few, listed, popular, selected, added, rfl⟩ :=
        listViewsEndpoint_eq_ok_iff.mp ran
      obtain ⟨natural, start, _, rows⟩ := of_listViewsFiltered selected
      obtain inList | inPopular := List.mem_append.mp member
      · obtain ⟨inItems, readable⟩ := List.mem_filter.mp inList
        obtain ⟨view, present, same, access⟩ := rows item inItems
        exact .inl ⟨view, present, same, access _ _ ▸ readable⟩
      · rw [includedPopular_eq_ok_iff] at added
        split at added
        · rename_i asked
          obtain ⟨popularItems, popularRan, rfl⟩ := added
          obtain ⟨view, shown, same, early⟩ := of_listPopularViews popularRan inPopular
          refine .inr ⟨view, shown, same, ?_⟩
          rwa [ReachedBy, Request.popularCount,
            if_pos ⟨authenticated, natural, small, start, few, asked⟩]
        · subst added
          cases inPopular
  | listPopularViews limit =>
      obtain ⟨small, ran⟩ := listPopularViewsEndpoint_eq_ok_iff.mp answered
      obtain ⟨view, shown, same, early⟩ := of_listPopularViews ran member
      refine .inr ⟨view, shown, same, ?_⟩
      rwa [ReachedBy, Request.popularCount, if_pos small]
  | getView viewId =>
      obtain ⟨response, ran, rfl⟩ := map_eq_ok_iff.mp answered
      obtain rfl := List.mem_singleton.mp member
      obtain ⟨claims, _, ran⟩ := bind_eq_ok_iff.mp ran
      obtain ⟨view, loaded, ran⟩ := bind_eq_ok_iff.mp ran
      split at ran
      · rename_i readable
        cases ran
        exact .inl ⟨view, (loadViewOrm_eq_ok_iff.mp loaded).1, rfl, readable⟩
      · cases ran

/-- Each popular view that is reached is in some answer. -/
theorem returned_of_reachedBy {request : Request} (shown : view ∈ offered db caller.userId)
    (reached : ReachedBy db caller request view) :
    ∃ item, Returned db caller request item ∧ item.id = view.id := by
  let reader : Reader db := {
    matching := { search := fun _ _ => true, tag := fun _ _ => true, attention := fun _ => true }
    byUpdate := .stable _
    byPopularity := .favouring _ view
    leader := caller }
  cases request with
  | listViews filters limit offset includes popularLimit =>
      rw [ReachedBy, Request.popularCount] at reached
      split at reached
      · rename_i accepted
        obtain ⟨authenticated, natural, small, start, few, asked⟩ := accepted
        obtain ⟨items, ran, item, member, same⟩ := listPopularViews_favouring shown reached
        obtain ⟨listed, selected⟩ : ∃ listed, listViewsFiltered reader.matching reader.byUpdate db
            filters limit offset caller.userId = .ok listed := listViewsFiltered_ok natural start
        have added : includedPopular reader caller includes popularLimit = .ok (some items) := by
          rw [includedPopular_eq_ok_iff, if_pos asked]
          exact ⟨items, ran, rfl⟩
        have answered := listViewsEndpoint_eq_ok_iff.mpr
          ⟨authenticated, small, few, listed, _, selected, added, rfl⟩
        exact ⟨item, ⟨reader, _, map_eq_ok_iff.mpr ⟨_, answered, rfl⟩,
          List.mem_append_right _ member⟩, same⟩
      · cases reached
  | listPopularViews limit =>
      rw [ReachedBy, Request.popularCount] at reached
      split at reached
      · rename_i small
        obtain ⟨items, ran, item, member, same⟩ := listPopularViews_favouring shown reached
        have answered : listPopularViewsEndpoint reader caller limit = .ok items :=
          listPopularViewsEndpoint_eq_ok_iff.mpr ⟨small, ran⟩
        exact ⟨item, ⟨reader, items, answered, member⟩, same⟩
      · cases reached
  | getView viewId => cases reached

/-- The caller reads views in the workspace or has a grant on this one.  Otherwise a user is
offered only views that are not for the members of a workspace, and a caller without a user only
private views of workspaces that the token administers. -/
def Cleared (db : Database) (caller : Caller) (view : View) : Prop :=
  let ctx := caller.viewerContext db
  ctx.may view.toViewProxy "workspace:view:read" = true ∨
    layer3ExplicitGrant db.resourceGrants ctx view.toViewProxy none = true ∨
    match caller.user with
    | some _ => view.visibility ≠ "workspace"
    | none => view.visibility = "private" ∧ ctx.may view.toViewProxy "workspace:admin" = true

theorem canReadView_offered (shown : view ∈ offered db caller.userId) :
    canReadView db.resourceGrants (caller.viewerContext db) view.toViewProxy = true ↔
      Cleared db caller view := by
  obtain ⟨present, _, _, visible⟩ := mem_offered.mp shown
  have tier : view.tier = view.visibility := by
    apply if_neg
    intro unnamed
    exact absurd (unnamed ▸ db.checked view present) (by decide)
  have cases : view.visibility = "private" ∨ view.visibility = "workspace" ∨
      view.visibility = "enterprise" := by simpa [visibilities] using db.checked view present
  rw [canReadView_iff, Cleared, layer2Visibility, tier, layer1WorkspaceMember]
  cases session : caller.user with
  | some user =>
      have known : (caller.viewerContext db).isAnonymous = false := by
        simp only [Caller.viewerContext, session, Option.map_some, ViewerContext.build]
      obtain isPrivate | isShared | isPublic := cases
      · have created : view.createdBy = some caller.userId := by
          simpa [isPrivate, userId_ne_empty] using visible
        have creator : (caller.viewerContext db).isCreator view.toViewProxy = true := by
          simp [ViewerContext.isCreator, created, Caller.viewerContext, Caller.userId, session,
            ViewerContext.build]
        simp [isPrivate, creator]
      · simp [isShared]
      · simp [isPublic, known]
  | none =>
      have unknown : (caller.viewerContext db).isAnonymous = true := by
        simp only [Caller.viewerContext, session, Option.map_none, ViewerContext.build]
      obtain isPrivate | isShared | isPublic := cases
      · simp [isPrivate, ViewerContext.isCreator, unknown, or_comm]
      · simp [isShared]
      · simp [isPublic, unknown]

/-- Every view that a call returns may be read if and only if the popular views it reaches are
cleared. -/
theorem returned_readable_iff (db : Database) (caller : Caller) (request : Request) :
    (∀ item, Returned db caller request item → Readable db caller item) ↔
      ∀ view ∈ offered db caller.userId, ReachedBy db caller request view →
        Cleared db caller view := by
  constructor
  · intro readable view shown reached
    obtain ⟨item, returned, same⟩ := returned_of_reachedBy shown reached
    obtain ⟨row, present, sameId, access⟩ := readable item returned
    have equal := Database.eq_of_id present (mem_offered.mp shown).1 (sameId.trans same)
    exact (canReadView_offered shown).mp (equal ▸ access)
  · intro cleared item returned
    obtain readable | ⟨view, shown, same, reached⟩ := of_returned returned
    · exact readable
    · exact ⟨view, (mem_offered.mp shown).1, same,
        (canReadView_offered shown).mpr (cleared view shown reached)⟩

/-- A view for the members of the workspace `ws_1`. -/
def membersView : View where
  id := "view_1"
  workspaceId := "ws_1"
  visibility := "workspace"
  createdBy := some "usr_1"
  name := "Customers"
  description := none
  contextModelId := none
  dataSourceId := none
  viewType := "graph"
  config := "{}"
  ontologyDigest := none
  tags := none
  isPinned := false
  createdAt := "2026-01-01T00:00:00+00:00"
  updatedAt := "2026-01-01T00:00:00+00:00"
  deletedAt := none

/-- Its creator likes it. -/
def likedDatabase : Database where
  views := [membersView]
  favourites := [⟨"view_1", "usr_1"⟩]
  resourceGrants := []
  directory := { groupMembers := [], roleBindings := [], rolePermissions := [] }
  primaryKey := by decide
  checked := by decide
  favouredOnce := by decide

/-- A user without any binding. -/
def outsider : Caller where
  user := some ⟨"usr_3", by decide⟩
  claims := some { sid := "sess_1", globalPerms := [], wsPerms := .empty }

theorem outsider_shown_membersView :
    ¬ ∀ item, Returned likedDatabase outsider (.listPopularViews 20) item →
      Readable likedDatabase outsider item := by
  intro readable
  have shown : membersView ∈ offered likedDatabase outsider.userId := by decide
  have reached : ReachedBy likedDatabase outsider (.listPopularViews 20) membersView :=
    (List.length_filter_le _ _).trans_lt (by decide)
  obtain ⟨item, returned, same⟩ := returned_of_reachedBy shown reached
  obtain ⟨view, present, _, access⟩ := readable item returned
  obtain rfl := List.mem_singleton.mp present
  exact absurd access (by decide)

end Univiz.Views

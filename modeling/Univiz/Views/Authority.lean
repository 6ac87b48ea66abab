import Univiz.Data.Fallible
import Univiz.Data.Transition
import Univiz.Views.Endpoints

namespace Univiz.Views

open Univiz.Data
open Univiz.Permissions

/-! Who has changed a view. -/

variable {db next : Database} {caller : Caller} {view row : View} {viewId : String}
  {grants : List ResourceGrant} {ctx : ViewerContext}

/-- The context may do to the view what has become of it. -/
def Entitled (grants : List ResourceGrant) (ctx : ViewerContext) (view : View) :
    Option View → Prop
  | none => canHardDeleteView ctx view.toViewProxy = true
  | some row =>
      (row.visibility ≠ view.visibility → canChangeVisibility ctx view.toViewProxy = true) ∧
      (row.deletedAt ≠ view.deletedAt → row.deletedAt ≠ none →
        canDeleteView ctx view.toViewProxy = true) ∧
      (row.deletedAt ≠ view.deletedAt → row.deletedAt = none →
        canRestoreView ctx view.toViewProxy = true) ∧
      ({ row with visibility := view.visibility, deletedAt := view.deletedAt } ≠ view →
        canEditView grants ctx view.toViewProxy = true)

/-- The caller of a step was entitled to what became of every view. -/
def Authorised (db : Database) : Event → Database → Prop
  | .call caller _ _, next =>
      ∀ view ∈ db.views,
        Entitled db.resourceGrants (caller.viewerContext db) view (next.find? view.id)
  | .elsewhere _ _, next => ∀ view ∈ db.views, next.find? view.id = some view

def StepAuthorised (db : Database) (event : Event) : Prop :=
  ∀ next, step db event = some next → Authorised db event next

theorem entitled_self : Entitled grants ctx view (some view) := by
  simp [Entitled]

theorem find?_self (member : view ∈ db.views) : db.find? view.id = some view :=
  Database.find?_eq_some_iff.mpr ⟨member, rfl⟩

/-- Where the rows stay, nobody has to be entitled to anything. -/
theorem entitled_of_mem (kept : view ∈ next.views) :
    Entitled grants ctx view (next.find? view.id) := by
  rw [find?_self kept]
  exact entitled_self

/-- The caller is entitled to all that a call does, if it is not refused. -/
def AllEntitled (db : Database) (caller : Caller) (answer : Except Refusal Database) : Prop :=
  ∀ next, answer = .ok next → ∀ view ∈ db.views,
    Entitled db.resourceGrants (caller.viewerContext db) view (next.find? view.id)

theorem find?_write {valid : row.visibility ∈ visibilities} (member : view ∈ db.views) :
    (db.write row valid).find? view.id = some (if view.id = row.id then row else view) := by
  rw [Database.find?_eq_some_iff]
  refine ⟨List.mem_map_of_mem member, ?_⟩
  split
  · rename_i same
    exact same.symm
  · rfl

theorem flush_eq_ok_iff : db.flush row = .ok next ↔
    ∃ valid : row.visibility ∈ visibilities, db.write row valid = next := by
  rw [Database.flush]
  split
  · rename_i valid
    rw [Except.ok.injEq]
    exact ⟨fun same => ⟨valid, same⟩, fun ⟨_, same⟩ => same⟩
  · rename_i invalid
    exact iff_of_false nofun fun ⟨valid, _⟩ => invalid valid

section Guarded

variable {allowed : ViewerContext → View → Bool} {refusal missing : Refusal}
  {effect : View → Except Refusal Database} {applies : View → Bool} {change : View → View}

theorem guarded_eq_ok_iff : guarded db caller viewId allowed refusal effect = .ok next ↔
    caller.claims.isSome ∧ ∃ view ∈ db.views, view.id = viewId ∧
      allowed (caller.viewerContext db) view = true ∧ effect view = .ok next := by
  rw [guarded, bind_eq_ok_iff, Option.isSome_iff_exists]
  simp only [getPermissionClaims_eq_ok_iff, bind_eq_ok_iff, loadViewOrm_eq_ok_iff,
    exists_and_right, and_assoc]
  apply and_congr_right
  intro _
  apply exists_congr
  intro view
  apply and_congr_right
  intro _
  apply and_congr_right
  intro _
  split
  · rename_i permitted
    rw [and_iff_right permitted]
  · rename_i forbidden
    refine iff_of_false ?_ fun both => forbidden both.1
    intro ran
    cases ran

theorem updateRow_eq_ok_iff : updateRow db applies missing change view = .ok next ↔
    applies view = true ∧ db.flush (change view) = .ok next := by
  rw [updateRow]
  split
  · rename_i fits
    rw [and_iff_right fits]
  · rename_i unfit
    exact iff_of_false nofun fun both => unfit both.1

/-- The caller is entitled to what a call rewrites if and only if the change of each row that the
call lets through asks for no more. -/
theorem guarded_updateRow_iff {asked : View → Prop} (keeps : ∀ view, (change view).id = view.id)
    (each : ∀ view ∈ db.views, allowed (caller.viewerContext db) view = true →
      ((applies view = true → (change view).visibility ∈ visibilities →
        Entitled db.resourceGrants (caller.viewerContext db) view (some (change view))) ↔
          asked view)) :
    AllEntitled db caller (guarded db caller viewId allowed refusal
      (updateRow db applies missing change)) ↔
      (caller.claims.isSome → ∀ view ∈ db.views, view.id = viewId →
        allowed (caller.viewerContext db) view = true → asked view) := by
  simp only [AllEntitled, guarded_eq_ok_iff, updateRow_eq_ok_iff, flush_eq_ok_iff]
  constructor
  · intro entitled authenticated view member same permitted
    rw [← each view member permitted]
    intro fits valid
    have changed := entitled (db.write (change view) valid)
      ⟨authenticated, view, member, same, permitted, fits, valid, rfl⟩ view member
    rwa [find?_write member, if_pos (keeps view).symm] at changed
  · rintro entitled next ⟨authenticated, changed, listed, same, permitted, fits, valid, rfl⟩
    intro view member
    rw [find?_write member]
    split
    · rename_i equal
      obtain rfl := Database.eq_of_id member listed (equal.trans (keeps changed))
      exact (each view member permitted).mpr (entitled authenticated view member same permitted)
        fits valid
    · exact entitled_self

end Guarded

theorem stamped_ne_iff {stamp : String} :
    { view with updatedAt := stamp } ≠ view ↔ stamp ≠ view.updatedAt := by
  apply not_congr
  constructor
  · intro same
    exact congrArg View.updatedAt same
  · rintro rfl
    rfl

theorem entitled_update_iff {req : ViewUpdateRequest} {moment : Moment}
    (edits : canEditView grants ctx view.toViewProxy = true) :
    Entitled grants ctx view (some (view.update req moment)) ↔
      ((view.update req moment).visibility ≠ view.visibility →
        canChangeVisibility ctx view.toViewProxy = true) := by
  have kept : (view.update req moment).deletedAt = view.deletedAt := rfl
  simp [Entitled, kept, edits]

/-- A change that comes with a new `updated_at` is an edit as well. -/
theorem entitled_stamped_iff {stamp : String}
    (rest : { row with visibility := view.visibility, deletedAt := view.deletedAt } =
      { view with updatedAt := stamp })
    (changes : row.visibility ≠ view.visibility → canChangeVisibility ctx view.toViewProxy = true)
    (deletes : row.deletedAt ≠ view.deletedAt → row.deletedAt ≠ none →
      canDeleteView ctx view.toViewProxy = true)
    (restores : row.deletedAt ≠ view.deletedAt → row.deletedAt = none →
      canRestoreView ctx view.toViewProxy = true) :
    Entitled grants ctx view (some row) ↔
      (stamp ≠ view.updatedAt → canEditView grants ctx view.toViewProxy = true) := by
  rw [Entitled, rest, stamped_ne_iff]
  exact ⟨fun entitled => entitled.2.2.2, fun edits => ⟨changes, deletes, restores, edits⟩⟩

theorem entitled_softDelete_iff {moment : Moment}
    (deletes : canDeleteView ctx view.toViewProxy = true) :
    Entitled grants ctx view (some (view.softDelete moment)) ↔
      (moment.onUpdate ≠ view.updatedAt → canEditView grants ctx view.toViewProxy = true) :=
  entitled_stamped_iff rfl (absurd rfl) (fun _ _ => deletes) (fun _ cleared => by cases cleared)

theorem entitled_restore_iff {moment : Moment}
    (restores : canRestoreView ctx view.toViewProxy = true) :
    Entitled grants ctx view (some (view.restore moment)) ↔
      (moment.onUpdate ≠ view.updatedAt → canEditView grants ctx view.toViewProxy = true) :=
  entitled_stamped_iff rfl (absurd rfl) (fun _ set => absurd rfl set) fun _ _ => restores

theorem entitled_setVisibility_iff {visibility : String} {moment : Moment}
    (changes : canChangeVisibility ctx view.toViewProxy = true) :
    Entitled grants ctx view (some (view.setVisibility visibility moment)) ↔
      (moment.now ≠ view.updatedAt → canEditView grants ctx view.toViewProxy = true) :=
  entitled_stamped_iff rfl (fun _ => changes) (absurd rfl) (absurd rfl)

/-- An update that changes the visibility is made by a caller who may change it, and a deletion,
a restoration or a change of the visibility, which also sets `updated_at`, by one who may edit
the view. -/
def Rightful (db : Database) (caller : Caller) (moment : Moment) (view : View) : Write → Prop
  | .updateView viewId req => view.id = viewId →
      canEditView db.resourceGrants (caller.viewerContext db) view.toViewProxy = true →
      ∀ visibility, req.visibility = some visibility → visibility ∈ visibilities →
        visibility ≠ view.visibility →
        canChangeVisibility (caller.viewerContext db) view.toViewProxy = true
  | .deleteView viewId permanent => permanent = false → view.id = viewId →
      canDeleteView (caller.viewerContext db) view.toViewProxy = true → view.deletedAt = none →
      moment.onUpdate ≠ view.updatedAt →
        canEditView db.resourceGrants (caller.viewerContext db) view.toViewProxy = true
  | .restoreView viewId => view.id = viewId →
      canRestoreView (caller.viewerContext db) view.toViewProxy = true → view.deletedAt ≠ none →
      moment.onUpdate ≠ view.updatedAt →
        canEditView db.resourceGrants (caller.viewerContext db) view.toViewProxy = true
  | .updateViewVisibility viewId visibility => view.id = viewId →
      canChangeVisibility (caller.viewerContext db) view.toViewProxy = true →
      visibility ∈ visibilities → moment.now ≠ view.updatedAt →
        canEditView db.resourceGrants (caller.viewerContext db) view.toViewProxy = true
  | _ => True

def StepRightful (db : Database) : Event → Prop
  | .call caller moment write =>
      caller.claims.isSome → ∀ view ∈ db.views, Rightful db caller moment view write
  | .elsewhere _ _ => True

/-- What is asked of a refused call is nothing: no row changes. -/
theorem stepAuthorised_call_iff {moment : Moment} {write : Write} :
    StepAuthorised db (.call caller moment write) ↔
      AllEntitled db caller (handle db caller moment write) := by
  constructor
  · intro authorised next handled
    exact authorised next (by simp only [step, handled])
  · intro authorised next stepped
    simp only [step] at stepped
    split at stepped
    · rename_i handled
      cases stepped
      exact authorised _ handled
    · cases stepped
      intro view member
      exact entitled_of_mem member

theorem setVisibility_eq_ok_iff {visibility : String} {moment : Moment} :
    updateViewVisibilityEndpoint db caller viewId moment visibility = .ok next ↔
      visibility ∈ visibilities ∧
        guarded db caller viewId (fun ctx view => canChangeVisibility ctx view.toViewProxy)
          (.http 403 "Only the creator or a workspace admin can change visibility")
          (updateRow db (fun _ => true) (viewNotFound viewId) fun row =>
            row.setVisibility visibility moment) = .ok next := by
  rw [updateViewVisibilityEndpoint, bind_eq_ok_iff]
  by_cases valid : visibility ∈ visibilities
  · rw [and_iff_right valid, if_neg (not_not.mpr valid)]
    constructor
    · rintro ⟨_, _, ran⟩
      exact ran
    · intro ran
      obtain ⟨claims, held⟩ := Option.isSome_iff_exists.mp (guarded_eq_ok_iff.mp ran).1
      exact ⟨claims, getPermissionClaims_eq_ok_iff.mpr held, ran⟩
  · refine iff_of_false ?_ fun both => valid both.1
    rintro ⟨_, _, ran⟩
    rw [if_pos valid] at ran
    cases ran

section Calls

variable {moment : Moment}

theorem createView_entitled (req : ViewCreateRequest) :
    AllEntitled db caller (createViewEndpoint db caller moment req) := by
  intro next created view member
  obtain ⟨claims, _, created⟩ := bind_eq_ok_iff.mp created
  split at created
  · rw [Database.insert] at created
    split at created
    · cases created
      exact entitled_of_mem (List.mem_append_left _ member)
    · cases created
  · cases created

theorem updateView_entitled_iff (req : ViewUpdateRequest) :
    AllEntitled db caller (updateViewEndpoint db caller viewId moment req) ↔
      (caller.claims.isSome → ∀ view ∈ db.views,
        Rightful db caller moment view (.updateView viewId req)) := by
  refine guarded_updateRow_iff (fun view => ?_) ?_
  · rfl
  · intro view member edits
    rw [entitled_update_iff edits]
    cases asked : req.visibility with
    | none => simp [View.update, asked]
    | some visibility => simp [View.update, asked]

/-- A permanent deletion, which asks for an admin. -/
theorem deleteView_permanent_entitled :
    AllEntitled db caller (deleteViewEndpoint db caller viewId moment true) := by
  intro next deleted view member
  rw [deleteViewEndpoint, if_pos rfl] at deleted
  obtain ⟨_, removed, listed, rfl, permitted, ⟨⟩⟩ := guarded_eq_ok_iff.mp deleted
  by_cases gone : view.id = removed.id
  · obtain rfl := Database.eq_of_id member listed gone
    have missing : (db.remove view.id).find? view.id = none := by
      apply List.find?_eq_none.mpr
      intro row kept
      simpa using (List.mem_filter.mp kept).2
    rw [missing]
    exact permitted
  · exact entitled_of_mem (List.mem_filter.mpr ⟨member, by simpa using gone⟩)

theorem deleteView_entitled_iff :
    AllEntitled db caller (deleteViewEndpoint db caller viewId moment false) ↔
      (caller.claims.isSome → ∀ view ∈ db.views,
        Rightful db caller moment view (.deleteView viewId false)) := by
  simp only [deleteViewEndpoint, Bool.false_eq_true, if_false, Rightful, forall_true_left]
  refine guarded_updateRow_iff (fun view => ?_) ?_
  · rfl
  · intro view member deletes
    rw [entitled_softDelete_iff deletes]
    simp [View.softDelete, db.checked view member]

theorem restoreView_entitled_iff :
    AllEntitled db caller (restoreViewEndpoint db caller viewId moment) ↔
      (caller.claims.isSome → ∀ view ∈ db.views,
        Rightful db caller moment view (.restoreView viewId)) := by
  refine guarded_updateRow_iff (fun view => ?_) ?_
  · rfl
  · intro view member restores
    rw [entitled_restore_iff restores]
    simp [View.restore, db.checked view member]

theorem updateViewVisibility_entitled_iff {visibility : String} :
    AllEntitled db caller (updateViewVisibilityEndpoint db caller viewId moment visibility) ↔
      (caller.claims.isSome → ∀ view ∈ db.views,
        Rightful db caller moment view (.updateViewVisibility viewId visibility)) := by
  by_cases valid : visibility ∈ visibilities
  · simp only [AllEntitled, setVisibility_eq_ok_iff, and_iff_right valid]
    refine guarded_updateRow_iff (fun view => ?_) ?_
    · rfl
    · intro view member changes
      rw [entitled_setVisibility_iff changes]
      simp [View.setVisibility, valid]
  · simp [AllEntitled, setVisibility_eq_ok_iff, Rightful, valid]

theorem favouriteView_entitled :
    AllEntitled db caller (favouriteViewEndpoint db caller viewId) := by
  intro next favoured view member
  obtain ⟨_, _, ⟨⟩⟩ := bind_eq_ok_iff.mp favoured
  apply entitled_of_mem
  rw [Database.favouriteView]
  split
  · exact member
  · exact member

theorem unfavouriteView_entitled :
    AllEntitled db caller (unfavouriteViewEndpoint db caller viewId) := by
  intro next unfavoured view member
  rw [unfavouriteViewEndpoint] at unfavoured
  split at unfavoured
  · cases unfavoured
    exact entitled_of_mem member
  · cases unfavoured

end Calls

theorem stepAuthorised_iff (db : Database) (event : Event) :
    StepAuthorised db event ↔ StepRightful db event := by
  cases event with
  | elsewhere resourceGrants directory =>
      refine iff_of_true ?_ trivial
      rintro _ ⟨⟩ view member
      exact find?_self member
  | call caller moment write =>
      rw [stepAuthorised_call_iff]
      cases write with
      | createView req => exact iff_of_true (createView_entitled req) fun _ _ _ => trivial
      | updateView viewId req => exact updateView_entitled_iff req
      | deleteView viewId permanent =>
          cases permanent with
          | true =>
              apply iff_of_true deleteView_permanent_entitled
              rintro _ _ _ ⟨⟩
          | false => exact deleteView_entitled_iff
      | restoreView viewId => exact restoreView_entitled_iff
      | updateViewVisibility viewId visibility => exact updateViewVisibility_entitled_iff
      | favouriteView viewId => exact iff_of_true favouriteView_entitled fun _ _ _ => trivial
      | unfavouriteView viewId => exact iff_of_true unfavouriteView_entitled fun _ _ _ => trivial

/-- In a run every change of a view is made by a caller who is entitled to it if and only if
every call of the run is rightful. -/
theorem run_authorised_iff (db : Database) (events : List Event) :
    Meets step StepAuthorised db events ↔ Meets step StepRightful db events :=
  meets_congr stepAuthorised_iff

/-- A private view. -/
def draftView : View where
  id := "view_1"
  workspaceId := "ws_1"
  visibility := "private"
  createdBy := some "usr_1"
  name := "Draft"
  description := none
  contextModelId := none
  dataSourceId := none
  viewType := "graph"
  config := "{}"
  ontologyDigest := none
  tags := none
  isPinned := false
  createdAt := "2026-01-01T00:00:00+00:00"
  updatedAt := "2026-01-01T00:00:00+00:00"
  deletedAt := none

/-- Its creator has let another user edit it. -/
def sharedDraft : Database where
  views := [draftView]
  favourites := []
  resourceGrants := [⟨"view_1", .user "usr_2", .editor⟩]
  directory := { groupMembers := [], roleBindings := [], rolePermissions := [] }
  primaryKey := by decide
  checked := by decide
  favouredOnce := by decide

def grantee : Caller where
  user := some ⟨"usr_2", by decide⟩
  claims := some { sid := "sess_1", globalPerms := [], wsPerms := .empty }

/-- The other user publishes it. -/
def publishes : Event :=
  .call grantee ⟨"2026-01-02T00:00:00+00:00", "2026-01-02T00:00:00+00:00", "view_2", none⟩
    (.updateView "view_1" {
      name := none
      description := none
      contextModelId := none
      viewType := none
      config := none
      visibility := some "enterprise"
      tags := none
      isPinned := none })

theorem grantee_not_entitled_to_publish : ¬ Meets step StepAuthorised sharedDraft [publishes] := by
  intro authorised
  have rightful := (stepAuthorised_iff sharedDraft publishes).mp authorised.1
  have changes := rightful rfl draftView (List.mem_singleton_self _) rfl (by decide) "enterprise"
    rfl (by decide) (by decide)
  exact absurd changes (by decide)

end Univiz.Views

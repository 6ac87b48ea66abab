import Univiz.Permissions.Claims

namespace Univiz.Views

open Univiz.Permissions

/-! `view_access.py`: what a caller may do with a view. -/

/-- The fields of a view that the evaluator reads. -/
structure ViewProxy where
  id : String
  workspaceId : String
  visibility : String
  createdBy : Option String
deriving DecidableEq

inductive GrantRole
  | editor
  | viewer
deriving DecidableEq

structure ResourceGrant where
  resourceId : String
  subject : Subject
  roleName : GrantRole
deriving DecidableEq

def listGrantsForUserWithGroups (grants : List ResourceGrant) (userId : String)
    (groupIds : List String) : List ResourceGrant :=
  grants.filter fun grant =>
    match grant.subject with
    | .user id => id = userId
    | .group id => id ∈ groupIds

structure ViewerContext where
  userId : String
  claims : PermissionClaims
  groupIds : List String
  isAnonymous : Bool

namespace ViewerContext

def build (directory : Directory) (user : Option String) (claims : PermissionClaims) :
    ViewerContext :=
  match user with
  | none => { userId := "", claims, groupIds := [], isAnonymous := true }
  | some userId =>
      { userId, claims, groupIds := directory.getGroupsForUser userId, isAnonymous := false }

variable (ctx : ViewerContext) (view : ViewProxy)

def isSystemAdmin : Bool := hasPermission ctx.claims "system:admin" none

/-- The claims have a permission in the workspace of the view. -/
def may (permission : String) : Bool :=
  hasPermission ctx.claims permission (some view.workspaceId)

def isCreator : Bool := !ctx.isAnonymous && view.createdBy = some ctx.userId

end ViewerContext

variable (grants : List ResourceGrant) (ctx : ViewerContext) (view : ViewProxy)

def layer1WorkspaceMember : Bool := ctx.may view "workspace:view:read"

/-- `view.visibility or "private"`. -/
def ViewProxy.tier : String := if view.visibility = "" then "private" else view.visibility

def layer2Visibility : Bool :=
  if view.tier = "private" then ctx.isCreator view || ctx.may view "workspace:admin"
  else if view.tier = "workspace" then layer1WorkspaceMember ctx view
  else if view.tier = "enterprise" then !ctx.isAnonymous
  else false

def layer3ExplicitGrant (requireRole : Option GrantRole) : Bool :=
  if ctx.isAnonymous || ctx.userId = "" then false
  else
    let relevant := (listGrantsForUserWithGroups grants ctx.userId ctx.groupIds).filter
      fun grant => grant.resourceId = view.id
    match requireRole with
    | none => !relevant.isEmpty
    | some .viewer => relevant.any fun grant => grant.roleName ∈ [.viewer, .editor]
    | some .editor => relevant.any fun grant => grant.roleName = .editor

def canReadView : Bool :=
  ctx.isSystemAdmin || layer1WorkspaceMember ctx view || layer2Visibility ctx view ||
    layer3ExplicitGrant grants ctx view none

def canEditView : Bool :=
  ctx.isSystemAdmin || ctx.isCreator view || ctx.may view "workspace:view:edit" ||
    layer3ExplicitGrant grants ctx view (some .editor)

def canDeleteView : Bool :=
  ctx.isSystemAdmin || ctx.isCreator view || ctx.may view "workspace:view:delete"

def canHardDeleteView : Bool := ctx.isSystemAdmin || ctx.may view "workspace:admin"

def canChangeVisibility : Bool :=
  ctx.isSystemAdmin || ctx.isCreator view || ctx.may view "workspace:admin"

def canRestoreView : Bool := ctx.isSystemAdmin || ctx.may view "workspace:admin"

/-! A system administrator has every permission in every workspace. -/

section

variable {grants ctx view} {permission : String}

theorem may_of_systemAdmin (admin : ctx.isSystemAdmin = true) :
    ctx.may view permission = true := by
  rw [ViewerContext.isSystemAdmin, hasPermission] at admin
  rw [ViewerContext.may, hasPermission]
  split at admin
  · rename_i listed
    rw [if_pos listed]
  · rename_i missing
    exact absurd (of_decide_eq_true admin) missing

theorem layer3_of_editor (granted : layer3ExplicitGrant grants ctx view (some .editor) = true) :
    layer3ExplicitGrant grants ctx view none = true := by
  simp only [layer3ExplicitGrant] at granted ⊢
  split at granted
  · cases granted
  · rename_i known
    rw [if_neg known]
    obtain ⟨grant, member, _⟩ := List.any_eq_true.mp granted
    simpa [List.isEmpty_iff] using List.ne_nil_of_mem member

theorem canReadView_iff : canReadView grants ctx view = true ↔
    layer1WorkspaceMember ctx view = true ∨ layer2Visibility ctx view = true ∨
      layer3ExplicitGrant grants ctx view none = true := by
  have admin : ctx.isSystemAdmin = true → layer1WorkspaceMember ctx view = true :=
    may_of_systemAdmin
  simp only [canReadView, Bool.or_eq_true]
  tauto

theorem canEditView_iff : canEditView grants ctx view = true ↔
    ctx.isCreator view = true ∨ ctx.may view "workspace:view:edit" = true ∨
      layer3ExplicitGrant grants ctx view (some .editor) = true := by
  have admin : ctx.isSystemAdmin = true → ctx.may view "workspace:view:edit" = true :=
    may_of_systemAdmin
  simp only [canEditView, Bool.or_eq_true]
  tauto

theorem canDeleteView_iff : canDeleteView ctx view = true ↔
    ctx.isCreator view = true ∨ ctx.may view "workspace:view:delete" = true := by
  have admin : ctx.isSystemAdmin = true → ctx.may view "workspace:view:delete" = true :=
    may_of_systemAdmin
  simp only [canDeleteView, Bool.or_eq_true]
  tauto

theorem canHardDeleteView_iff : canHardDeleteView ctx view = true ↔
    ctx.may view "workspace:admin" = true := by
  rw [canHardDeleteView, Bool.or_eq_true]
  exact or_iff_right_of_imp may_of_systemAdmin

theorem canChangeVisibility_iff : canChangeVisibility ctx view = true ↔
    ctx.isCreator view = true ∨ ctx.may view "workspace:admin" = true := by
  have admin : ctx.isSystemAdmin = true → ctx.may view "workspace:admin" = true :=
    may_of_systemAdmin
  simp only [canChangeVisibility, Bool.or_eq_true]
  tauto

theorem canRestoreView_iff : canRestoreView ctx view = true ↔
    ctx.may view "workspace:admin" = true := canHardDeleteView_iff

end

/-! Whether what may be changed can be read. -/

inductive Action
  | edit
  | delete
  | hardDelete
  | changeVisibility
  | restore
deriving DecidableEq

variable {grants : List ResourceGrant} {ctx : ViewerContext} {view : ViewProxy}

def permits (grants : List ResourceGrant) (ctx : ViewerContext) (view : ViewProxy) :
    Action → Bool
  | .edit => canEditView grants ctx view
  | .delete => canDeleteView ctx view
  | .hardDelete => canHardDeleteView ctx view
  | .changeVisibility => canChangeVisibility ctx view
  | .restore => canRestoreView ctx view

/-- Something other than a grant permits an action. -/
def Acts (ctx : ViewerContext) (view : ViewProxy) : Prop :=
  ctx.isCreator view = true ∨ ctx.may view "workspace:view:edit" = true ∨
    ctx.may view "workspace:view:delete" = true ∨ ctx.may view "workspace:admin" = true

theorem permits_iff : (∃ action, permits grants ctx view action = true) ↔
    Acts ctx view ∨ layer3ExplicitGrant grants ctx view (some .editor) = true := by
  constructor
  · rintro ⟨action, permitted⟩
    cases action with
    | edit =>
        obtain creator | edits | granted := canEditView_iff.mp permitted
        · exact .inl (.inl creator)
        · exact .inl (.inr (.inl edits))
        · exact .inr granted
    | delete =>
        obtain creator | deletes := canDeleteView_iff.mp permitted
        · exact .inl (.inl creator)
        · exact .inl (.inr (.inr (.inl deletes)))
    | hardDelete =>
        exact .inl (.inr (.inr (.inr (canHardDeleteView_iff.mp permitted))))
    | changeVisibility =>
        obtain creator | admin := canChangeVisibility_iff.mp permitted
        · exact .inl (.inl creator)
        · exact .inl (.inr (.inr (.inr admin)))
    | restore =>
        exact .inl (.inr (.inr (.inr (canRestoreView_iff.mp permitted))))
  · rintro ((creator | edits | deletes | admin) | granted)
    · exact ⟨.delete, canDeleteView_iff.mpr (.inl creator)⟩
    · exact ⟨.edit, canEditView_iff.mpr (.inr (.inl edits))⟩
    · exact ⟨.delete, canDeleteView_iff.mpr (.inr deletes)⟩
    · exact ⟨.restore, canRestoreView_iff.mpr admin⟩
    · exact ⟨.edit, canEditView_iff.mpr (.inr (.inr granted))⟩

/-- The viewer reads views in the workspace, or has a grant on this one.  Otherwise a private
view may be edited or deleted only by its creator and the admins of the workspace, an enterprise
view by anyone who is known, and any other view by nobody. -/
def ReadsWhereActs (grants : List ResourceGrant) (ctx : ViewerContext) (view : ViewProxy) : Prop :=
  ctx.may view "workspace:view:read" = true ∨ layer3ExplicitGrant grants ctx view none = true ∨
    if view.tier = "private" then
      (ctx.may view "workspace:view:edit" = true ∨ ctx.may view "workspace:view:delete" = true →
        ctx.isCreator view = true ∨ ctx.may view "workspace:admin" = true)
    else view.tier = "enterprise" ∧ ctx.isAnonymous = false ∨ ¬ Acts ctx view

/-- Every action that is permitted is one on a view that can be read if and only if the viewer
reads where the viewer acts. -/
theorem permits_readable_iff (grants : List ResourceGrant) (ctx : ViewerContext)
    (view : ViewProxy) :
    (∀ action, permits grants ctx view action = true → canReadView grants ctx view = true) ↔
      ReadsWhereActs grants ctx view := by
  rw [← exists_imp, permits_iff, canReadView_iff, ReadsWhereActs, layer1WorkspaceMember]
  have granted : layer3ExplicitGrant grants ctx view (some .editor) = true →
      layer3ExplicitGrant grants ctx view none = true := layer3_of_editor
  by_cases isPrivate : view.tier = "private"
  · have tier : layer2Visibility ctx view = true ↔
        ctx.isCreator view = true ∨ ctx.may view "workspace:admin" = true := by
      rw [layer2Visibility, if_pos isPrivate, Bool.or_eq_true]
    rw [tier, if_pos isPrivate, Acts]
    grind
  · have tier : layer2Visibility ctx view = true →
        ctx.may view "workspace:view:read" = true ∨
          view.tier = "enterprise" ∧ ctx.isAnonymous = false := by
      intro visible
      rw [layer2Visibility, if_neg isPrivate] at visible
      split at visible
      · exact .inl visible
      · split at visible
        · exact .inr ⟨‹_›, by simpa using visible⟩
        · cases visible
    have enterprise : view.tier = "enterprise" ∧ ctx.isAnonymous = false →
        layer2Visibility ctx view = true := by
      rintro ⟨tier, known⟩
      simp [layer2Visibility, tier, known]
    rw [if_neg isPrivate]
    grind

/-- A view for the members of its workspace. -/
def sharedView : ViewProxy := ⟨"view_1", "ws_1", "workspace", some "usr_1"⟩

/-- Its creator, who is no longer a member. -/
def formerMember : ViewerContext where
  userId := "usr_1"
  claims := { sid := "sess_1", globalPerms := [], wsPerms := .empty }
  groupIds := []
  isAnonymous := false

theorem formerMember_cannot_read :
    ¬ ∀ action, permits [] formerMember sharedView action = true →
      canReadView [] formerMember sharedView = true := by
  intro readable
  exact absurd (readable .edit (by decide)) (by decide)

end Univiz.Views

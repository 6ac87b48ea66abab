import Mathlib.Data.Finset.Union
import Univiz.Data.Fallible
import Univiz.Permissions.Roles

namespace Univiz.Permissions

open Univiz.Data Univiz.Access

/-! The previews of what a change of the roles or bindings does to the users, against what it
does. -/

namespace Tables

variable (tables : Tables)

/-- Its hooks replace the permissions of roles and leave out bindings. -/
def simulateForUser (userId : String) (rolePermOverride : OrderedMap String (List String))
    (excludedBindingId excludedRoleName : Option String) : Aggregate :=
  let groupIds := tables.directory.getGroupsForUser userId
  let affecting := tables.roleBindings.filter fun row =>
    match row.subject with
    | .user id => id = userId
    | .group id => id ∈ groupIds
  let included := affecting.filter fun row => excludedBindingId.all fun id => row.id ≠ id
  let bindings := included.filter fun row => excludedRoleName.all fun name => row.roleName ≠ name
  let roleNames := sorted (bindings.map fun row => row.roleName).toFinset
  let rolePerms := (tables.directory.getRolePermissionsForRoles roleNames).overlay rolePermOverride
  (bindings.map BindingRow.toRoleBinding).foldl (addBinding rolePerms) (∅, OrderedMap.empty)

/-- The users with the role, directly or through a group. -/
def affectedUsersForRole (roleName : String) : List String :=
  let direct := tables.roleBindings.filterMap fun row =>
    match row.subject with
    | .user id => if row.roleName = roleName then some id else none
    | .group _ => none
  let groupIds := tables.roleBindings.filterMap fun row =>
    match row.subject with
    | .user _ => none
    | .group id => if row.roleName = roleName then some id else none
  sorted (direct ++ groupIds.flatMap tables.listGroupMembers).toFinset

end Tables

structure ImpactPreviewUser where
  userId : String
  displayName : Option String
  email : Option String
  gained : List String
  lost : List String
deriving DecidableEq

structure ImpactPreviewResponse where
  affectedUsers : Nat
  affectedWorkspaces : Nat
  gainedPerms : List String
  lostPerms : List String
  userImpact : List ImpactPreviewUser
deriving DecidableEq

/-- What the loop over the users collects. -/
structure Impacts where
  gained : Finset String
  lost : Finset String
  affectedWs : Finset String
  userImpact : List ImpactPreviewUser

namespace Impacts

def none : Impacts := ⟨∅, ∅, ∅, []⟩

def response (impacts : Impacts) : ImpactPreviewResponse where
  affectedUsers := impacts.userImpact.length
  affectedWorkspaces := impacts.affectedWs.card
  gainedPerms := sorted impacts.gained
  lostPerms := sorted impacts.lost
  userImpact := impacts.userImpact

end Impacts

/-- `mapping.get(ws, set())`. -/
def permsIn (sets : Aggregate) (wsId : String) : Finset String := (sets.2.get wsId).getD ∅

/-- `before_ws.keys() | after_ws.keys()`. -/
def workspacesOf (before after : Aggregate) : Finset String :=
  (before.2.entries.map Prod.fst).toFinset ∪ (after.2.entries.map Prod.fst).toFinset

/-- What `after` has in some scope and `before` has not there. -/
def gains (before after : Aggregate) : Finset String :=
  (after.1 \ before.1) ∪
    (workspacesOf before after).biUnion fun wsId => permsIn after wsId \ permsIn before wsId

def wsChanges (before after : Aggregate) : Finset String :=
  (workspacesOf before after).filter fun wsId => permsIn before wsId ≠ permsIn after wsId

namespace Tables

variable (tables : Tables)

/-- The impact on a user with the name to show, if the user is still there. -/
def userImpact (userId : String) (gained lost : Finset String) : ImpactPreviewUser :=
  let user := tables.getUserById userId
  { userId
    displayName := user.map fun user =>
      (stripped (user.firstName ++ " " ++ user.lastName)).getD user.email
    email := user.map UserRow.email
    gained := sorted gained
    lost := sorted lost }

def hydrateUserImpact (userId : String) (before after : Aggregate) : Option ImpactPreviewUser :=
  let gained := gains before after
  let lost := gains after before
  if gained = ∅ ∧ lost = ∅ then none else some (tables.userImpact userId gained lost)

/-- The body of the loop in the previews of a role. -/
def addImpact (before after : String → Aggregate) (impacts : Impacts) (userId : String) :
    Impacts :=
  match tables.hydrateUserImpact userId (before userId) (after userId) with
  | none => impacts
  | some impact =>
      { gained := impacts.gained ∪ impact.gained.toFinset
        lost := impacts.lost ∪ impact.lost.toFinset
        affectedWs := impacts.affectedWs ∪ wsChanges (before userId) (after userId)
        userImpact := impacts.userImpact ++ [impact] }

/-- The one in the preview of a revocation notes the workspaces first. -/
def addRevokeImpact (before after : String → Aggregate) (impacts : Impacts) (userId : String) :
    Impacts :=
  let gained := gains (before userId) (after userId)
  let lost := gains (after userId) (before userId)
  let noted := { impacts with
    affectedWs := impacts.affectedWs ∪ wsChanges (before userId) (after userId) }
  if gained = ∅ ∧ lost = ∅ then noted
  else
    { noted with
      gained := impacts.gained ∪ gained
      lost := impacts.lost ∪ lost
      userImpact := impacts.userImpact ++ [tables.userImpact userId gained lost] }

/-- With nothing for the 404. -/
def previewRoleUpdate (roleName : String) (permissions : List String) :
    Option ImpactPreviewResponse :=
  (tables.getRole roleName).map fun _ =>
    let currentPerms := (tables.getRolePermissions roleName).toFinset
    let proposedPerms := permissions.toFinset
    let simulate := fun (perms : Finset String) userId =>
      tables.simulateForUser userId (OrderedMap.empty.set roleName (sorted perms)) none none
    ((tables.affectedUsersForRole roleName).foldl
      (tables.addImpact (simulate currentPerms) (simulate proposedPerms)) Impacts.none).response

def previewRoleDelete (roleName : String) : Option ImpactPreviewResponse :=
  (tables.getRole roleName).map fun _ =>
    let simulate := fun excludedRoleName userId =>
      tables.simulateForUser userId OrderedMap.empty none excludedRoleName
    ((tables.affectedUsersForRole roleName).foldl
      (tables.addImpact (simulate none) (simulate (some roleName))) Impacts.none).response

def previewRevokeBinding (wsId bindingId : String) : Option ImpactPreviewResponse :=
  match tables.getBinding bindingId with
  | none => none
  | some row =>
      if row.scope = .workspace wsId then
        let userIds :=
          match row.subject with
          | .user id => [id]
          | .group id => tables.listGroupMembers id
        let simulate := fun excludedBindingId userId =>
          tables.simulateForUser userId OrderedMap.empty excludedBindingId none
        some (userIds.foldl
          (tables.addRevokeImpact (simulate none) (simulate (some bindingId)))
          Impacts.none).response
      else none

end Tables

section Differences

@[simp] theorem mem_sorted {texts : Finset String} {text : String} :
    text ∈ sorted texts ↔ text ∈ texts := Finset.mem_sort _

@[simp] theorem toFinset_sorted {texts : Finset String} : (sorted texts).toFinset = texts :=
  Finset.sort_toFinset _ _

theorem nodup_sorted {texts : Finset String} : (sorted texts).Nodup := Finset.sort_nodup _ _

variable {before after : Aggregate} {scope : Scope} {permission wsId : String}

def Has (sets : Aggregate) (scope : Scope) (permission : String) : Prop :=
  match scope with
  | .global => permission ∈ sets.1
  | .workspace wsId => permission ∈ permsIn sets wsId

theorem mem_workspacesOf
    (has : permission ∈ permsIn before wsId ∨ permission ∈ permsIn after wsId) :
    wsId ∈ workspacesOf before after := by
  have key {sets : Aggregate} (held : permission ∈ permsIn sets wsId) :
      wsId ∈ (sets.2.entries.map Prod.fst).toFinset := by
    cases found : sets.2.get wsId with
    | none =>
        rw [permsIn, found] at held
        cases held
    | some perms =>
        have entry := OrderedMap.get_eq_some.mp found
        exact List.mem_toFinset.mpr (List.mem_map_of_mem entry)
  exact Finset.mem_union.mpr (has.imp key key)

theorem mem_gains : permission ∈ gains before after ↔
    ∃ scope, Has after scope permission ∧ ¬ Has before scope permission := by
  rw [gains, Finset.mem_union, Finset.mem_sdiff, Finset.mem_biUnion]
  constructor
  · rintro (⟨held, missing⟩ | ⟨wsId, -, gained⟩)
    · exact ⟨.global, held, missing⟩
    · exact ⟨.workspace wsId, Finset.mem_sdiff.mp gained⟩
  · rintro ⟨scope, held, missing⟩
    cases scope with
    | global => exact .inl ⟨held, missing⟩
    | workspace wsId =>
        exact .inr ⟨wsId, mem_workspacesOf (.inr held), Finset.mem_sdiff.mpr ⟨held, missing⟩⟩

theorem mem_wsChanges : wsId ∈ wsChanges before after ↔
    ∃ permission, ¬ (Has before (.workspace wsId) permission ↔
      Has after (.workspace wsId) permission) := by
  rw [wsChanges, Finset.mem_filter, Ne, Finset.ext_iff, not_forall]
  refine and_iff_right_of_imp ?_
  rintro ⟨permission, differ⟩
  by_contra absent
  refine differ (iff_of_false ?_ ?_)
  · exact fun held => absent (mem_workspacesOf (.inl held))
  · exact fun held => absent (mem_workspacesOf (.inr held))

theorem wsChanges_eq_empty (same : gains before after = ∅) (same' : gains after before = ∅) :
    wsChanges before after = ∅ := by
  refine Finset.eq_empty_of_forall_notMem fun wsId changed => ?_
  obtain ⟨permission, differ⟩ := mem_wsChanges.mp changed
  refine differ ⟨fun held => ?_, fun held => ?_⟩
  · by_contra missing
    exact Finset.notMem_empty permission (same' ▸ mem_gains.mpr ⟨_, held, missing⟩)
  · by_contra missing
    exact Finset.notMem_empty permission (same ▸ mem_gains.mpr ⟨_, held, missing⟩)

end Differences

namespace Tables

variable {tables : Tables} {before after : String → Aggregate} {impacts : Impacts}
  {userId : String}

theorem addImpact_eq : tables.addImpact before after impacts userId =
    { gained := impacts.gained ∪ gains (before userId) (after userId)
      lost := impacts.lost ∪ gains (after userId) (before userId)
      affectedWs := impacts.affectedWs ∪ wsChanges (before userId) (after userId)
      userImpact := impacts.userImpact ++
        (tables.hydrateUserImpact userId (before userId) (after userId)).toList } := by
  by_cases same : gains (before userId) (after userId) = ∅ ∧
      gains (after userId) (before userId) = ∅
  · have silent : tables.hydrateUserImpact userId (before userId) (after userId) = none :=
      if_pos same
    simp [addImpact, silent, same.1, same.2, wsChanges_eq_empty same.1 same.2]
  · have told : tables.hydrateUserImpact userId (before userId) (after userId) = some _ :=
      if_neg same
    simp [addImpact, told, userImpact]

theorem addRevokeImpact_eq : tables.addRevokeImpact before after impacts userId =
    tables.addImpact before after impacts userId := by
  rw [addImpact_eq]
  unfold addRevokeImpact hydrateUserImpact
  simp only
  split
  · rename_i same
    simp [same.1, same.2]
  · simp

theorem foldl_addImpact (users : List String) :
    users.foldl (tables.addImpact before after) impacts =
      { gained := impacts.gained ∪
          users.toFinset.biUnion fun userId => gains (before userId) (after userId)
        lost := impacts.lost ∪
          users.toFinset.biUnion fun userId => gains (after userId) (before userId)
        affectedWs := impacts.affectedWs ∪
          users.toFinset.biUnion fun userId => wsChanges (before userId) (after userId)
        userImpact := impacts.userImpact ++
          users.filterMap fun userId =>
            tables.hydrateUserImpact userId (before userId) (after userId) } := by
  induction users generalizing impacts with
  | nil => simp
  | cons userId rest ih =>
      rw [List.foldl_cons, ih, addImpact_eq]
      simp only [List.toFinset_cons, Finset.biUnion_insert, Finset.union_assoc,
        List.filterMap_cons, List.append_assoc]
      cases tables.hydrateUserImpact userId (before userId) (after userId) with
      | none => simp
      | some impact => simp

end Tables

section Simulations

variable {tables : Tables} {userId roleName permission : String} {scope : Scope}
  {rolePermOverride : OrderedMap String (List String)}
  {excludedBindingId excludedRoleName : Option String}

theorem has_foldl {rolePerms : OrderedMap String (List String)} {bindings : List RoleBinding} :
    Has (bindings.foldl (addBinding rolePerms) (∅, OrderedMap.empty)) scope permission ↔
      scope ≠ .workspace "" ∧ Adds rolePerms bindings scope permission := by
  cases scope with
  | global => simp [Has, mem_global]
  | workspace wsId =>
      by_cases named : wsId = ""
      · subst named
        simp [Has, permsIn, get_unnamed]
      · simp [Has, permsIn, mem_workspace named, named]

theorem has_aggregate {directory : Directory} : Has (aggregate directory userId) scope permission ↔
    scope ≠ .workspace "" ∧ directory.Holds userId scope permission := by
  rw [aggregate, has_foldl, adds_iff]

/-- The bindings that a simulation counts, with what it takes their roles to contain. -/
def Tables.HoldsIf (tables : Tables) (rolePermOverride : OrderedMap String (List String))
    (excludedBindingId excludedRoleName : Option String) (userId : String) (scope : Scope)
    (permission : String) : Prop :=
  ∃ row ∈ tables.roleBindings, tables.directory.Affects userId row.toRoleBinding ∧
    excludedBindingId ≠ some row.id ∧ excludedRoleName ≠ some row.roleName ∧ row.scope = scope ∧
    permission ∈ (rolePermOverride.get row.roleName).getD (tables.getRolePermissions row.roleName)

theorem Tables.affects_iff {row : BindingRow} :
    (match row.subject with
      | .user id => decide (id = userId)
      | .group id => decide (id ∈ tables.directory.getGroupsForUser userId)) = true ↔
      tables.directory.Affects userId row.toRoleBinding := by
  rw [Directory.Affects]
  cases subject : row.subject with
  | user id => simp
  | group id => simp [Directory.getGroupsForUser]

theorem Tables.mem_getRolePermissions : permission ∈ tables.getRolePermissions roleName ↔
    (roleName, permission) ∈ tables.rolePermissions := by
  simp [getRolePermissions]

theorem Tables.all_ne_iff {excluded : Option String} {name : String} :
    (excluded.all fun other => decide (name ≠ other)) = true ↔ excluded ≠ some name := by
  cases excluded with
  | none => simp
  | some other => rw [Option.all_some, decide_eq_true_iff, Ne, Ne, Option.some_inj, eq_comm]

theorem Tables.has_simulateForUser :
    Has (tables.simulateForUser userId rolePermOverride excludedBindingId excludedRoleName) scope
        permission ↔ scope ≠ .workspace "" ∧ tables.HoldsIf rolePermOverride excludedBindingId
          excludedRoleName userId scope permission := by
  unfold simulateForUser
  simp only
  generalize counted : List.filter _ (List.filter _ (List.filter _ tables.roleBindings)) = bindings
  have mem_bindings (row : BindingRow) : row ∈ bindings ↔ row ∈ tables.roleBindings ∧
      tables.directory.Affects userId row.toRoleBinding ∧ excludedBindingId ≠ some row.id ∧
        excludedRoleName ≠ some row.roleName := by
    rw [← counted]
    simp only [List.mem_filter, affects_iff, all_ne_iff, and_assoc]
  have bundle (row : BindingRow) (member : row ∈ bindings) :
      permission ∈ (((tables.directory.getRolePermissionsForRoles
        (sorted (bindings.map fun row => row.roleName).toFinset)).overlay rolePermOverride).get
          row.roleName).getD [] ↔ permission ∈ (rolePermOverride.get row.roleName).getD
            (tables.getRolePermissions row.roleName) := by
    rw [OrderedMap.get_overlay]
    cases rolePermOverride.get row.roleName with
    | some perms => rfl
    | none =>
        rw [Option.none_or, get_rolePermissions (by simpa using ⟨row, member, rfl⟩)]
        exact mem_getRolePermissions.symm
  rw [has_foldl]
  refine and_congr_right fun _ => ?_
  constructor
  · rintro ⟨binding, listed, inScope, contains⟩
    obtain ⟨row, member, rfl⟩ := List.mem_map.mp listed
    obtain ⟨stored, affects, kept, kept'⟩ := (mem_bindings row).mp member
    exact ⟨row, stored, affects, kept, kept', inScope, (bundle row member).mp contains⟩
  · rintro ⟨row, stored, affects, kept, kept', inScope, contains⟩
    have member := (mem_bindings row).mpr ⟨stored, affects, kept, kept'⟩
    exact ⟨_, List.mem_map_of_mem member, inScope, (bundle row member).mpr contains⟩

end Simulations

/-- The permission is among the user's in some scope after a change, and was not among those
there before.  A permission that another of the user's only implies does not count. -/
def Gains (before after : Directory) (userId permission : String) : Prop :=
  ∃ scope, Has (aggregate after userId) scope permission ∧
    ¬ Has (aggregate before userId) scope permission

/-- A preview says of every user what a change of the tables does. -/
structure Foretells (response : ImpactPreviewResponse) (before after : Directory) : Prop where
  distinct : (response.userImpact.map ImpactPreviewUser.userId).Nodup
  counted : response.affectedUsers = response.userImpact.length
  users : ∀ userId, userId ∈ response.userImpact.map ImpactPreviewUser.userId ↔
    ∃ permission, Gains before after userId permission ∨ Gains after before userId permission
  gained : ∀ impact ∈ response.userImpact, ∀ permission,
    permission ∈ impact.gained ↔ Gains before after impact.userId permission
  lost : ∀ impact ∈ response.userImpact, ∀ permission,
    permission ∈ impact.lost ↔ Gains after before impact.userId permission
  gainedPerms : ∀ permission,
    permission ∈ response.gainedPerms ↔ ∃ userId, Gains before after userId permission
  lostPerms : ∀ permission,
    permission ∈ response.lostPerms ↔ ∃ userId, Gains after before userId permission
  workspaces : ∃ affected : Finset String, affected.card = response.affectedWorkspaces ∧
    ∀ wsId, wsId ∈ affected ↔ ∃ userId permission,
      ¬ (Has (aggregate before userId) (.workspace wsId) permission ↔
        Has (aggregate after userId) (.workspace wsId) permission)

namespace Tables

variable {tables : Tables} {before after : Aggregate} {userId : String}

theorem hydrateUserImpact_eq_some {impact : ImpactPreviewUser} :
    tables.hydrateUserImpact userId before after = some impact ↔
      ((∃ permission, permission ∈ gains before after) ∨
        ∃ permission, permission ∈ gains after before) ∧
      tables.userImpact userId (gains before after) (gains after before) = impact := by
  have changed : ((∃ permission, permission ∈ gains before after) ∨
      ∃ permission, permission ∈ gains after before) ↔
        ¬ (gains before after = ∅ ∧ gains after before = ∅) := by
    rw [not_and_or, ← Ne, ← Ne, ← Finset.nonempty_iff_ne_empty, ← Finset.nonempty_iff_ne_empty]
    rfl
  rw [changed]
  unfold hydrateUserImpact
  simp only
  split
  · rename_i same
    exact iff_of_false (by simp) fun told => told.1 same
  · rename_i differ
    rw [Option.some_inj, and_iff_right differ]

theorem userIds_sublist (before after : String → Aggregate) (users : List String) :
    ((users.filterMap fun userId => tables.hydrateUserImpact userId (before userId)
      (after userId)).map ImpactPreviewUser.userId).Sublist users := by
  induction users with
  | nil => exact List.Sublist.refl _
  | cons userId rest ih =>
      rw [List.filterMap_cons]
      cases told : tables.hydrateUserImpact userId (before userId) (after userId) with
      | none => exact ih.cons userId
      | some impact =>
          obtain ⟨-, rfl⟩ := hydrateUserImpact_eq_some.mp told
          exact ih.cons_cons userId

end Tables

section Foretelling

variable {tables : Tables} {old new : Directory} {before after : String → Aggregate}
  {users : List String} {userId permission : String}

theorem mem_gains_iff
    (simulated : ∀ userId scope permission,
      Has (before userId) scope permission ↔ Has (aggregate old userId) scope permission)
    (simulated' : ∀ userId scope permission,
      Has (after userId) scope permission ↔ Has (aggregate new userId) scope permission) :
    permission ∈ gains (before userId) (after userId) ↔ Gains old new userId permission := by
  rw [mem_gains, Gains]
  exact exists_congr fun scope => and_congr (simulated' _ _ _) (not_congr (simulated _ _ _))

/-- It is enough that the simulations are right, and that nothing changes for the users that
are left out. -/
theorem foretells (distinct : users.Nodup)
    (simulated : ∀ userId scope permission,
      Has (before userId) scope permission ↔ Has (aggregate old userId) scope permission)
    (simulated' : ∀ userId scope permission,
      Has (after userId) scope permission ↔ Has (aggregate new userId) scope permission)
    (covers : ∀ userId ∉ users, ∀ scope permission,
      Has (aggregate old userId) scope permission ↔ Has (aggregate new userId) scope permission) :
    Foretells (users.foldl (tables.addImpact before after) Impacts.none).response old new := by
  have gained (userId permission : String) := @mem_gains_iff old new before after userId permission
    simulated simulated'
  have lost (userId permission : String) := @mem_gains_iff new old after before userId permission
    simulated' simulated
  have among {userId : String}
      (changed : ∃ scope permission, ¬ (Has (aggregate old userId) scope permission ↔
        Has (aggregate new userId) scope permission)) : userId ∈ users := by
    obtain ⟨scope, permission, differ⟩ := changed
    by_contra absent
    exact differ (covers userId absent scope permission)
  have gainer {userId permission : String} (gains : Gains old new userId permission) :
      userId ∈ users := by
    obtain ⟨scope, held, missing⟩ := gains
    exact among ⟨scope, permission, fun same => missing (same.mpr held)⟩
  have loser {userId permission : String} (gains : Gains new old userId permission) :
      userId ∈ users := by
    obtain ⟨scope, held, missing⟩ := gains
    exact among ⟨scope, permission, fun same => missing (same.mp held)⟩
  have told {impact : ImpactPreviewUser} (member : impact ∈ users.filterMap fun userId =>
      tables.hydrateUserImpact userId (before userId) (after userId)) :
      impact = tables.userImpact impact.userId (gains (before impact.userId) (after impact.userId))
        (gains (after impact.userId) (before impact.userId)) := by
    obtain ⟨userId, -, given⟩ := List.mem_filterMap.mp member
    obtain ⟨-, rfl⟩ := Tables.hydrateUserImpact_eq_some.mp given
    rfl
  rw [Tables.foldl_addImpact]
  simp only [Impacts.none, Impacts.response, List.nil_append, Finset.empty_union]
  exact
    { distinct := (Tables.userIds_sublist before after users).nodup distinct
      counted := rfl
      users := by
        intro userId
        rw [List.mem_map]
        constructor
        · rintro ⟨impact, member, rfl⟩
          obtain ⟨userId, -, given⟩ := List.mem_filterMap.mp member
          obtain ⟨changed, rfl⟩ := Tables.hydrateUserImpact_eq_some.mp given
          rcases changed with ⟨permission, member⟩ | ⟨permission, member⟩
          · exact ⟨permission, .inl ((gained _ _).mp member)⟩
          · exact ⟨permission, .inr ((lost _ _).mp member)⟩
        · rintro ⟨permission, changed⟩
          have member : userId ∈ users := changed.elim gainer loser
          refine ⟨_, List.mem_filterMap.mpr ⟨userId, member,
            Tables.hydrateUserImpact_eq_some.mpr ⟨?_, rfl⟩⟩, rfl⟩
          exact changed.imp (fun gains => ⟨permission, (gained _ _).mpr gains⟩)
            fun gains => ⟨permission, (lost _ _).mpr gains⟩
      gained := by
        intro impact member permission
        rw [told member, Tables.userImpact, mem_sorted]
        exact gained _ _
      lost := by
        intro impact member permission
        rw [told member, Tables.userImpact, mem_sorted]
        exact lost _ _
      gainedPerms := by
        intro permission
        rw [mem_sorted, Finset.mem_biUnion]
        simp only [List.mem_toFinset, gained]
        exact exists_congr fun userId => and_iff_right_of_imp gainer
      lostPerms := by
        intro permission
        rw [mem_sorted, Finset.mem_biUnion]
        simp only [List.mem_toFinset, lost]
        exact exists_congr fun userId => and_iff_right_of_imp loser
      workspaces := by
        refine ⟨_, rfl, fun wsId => ?_⟩
        rw [Finset.mem_biUnion]
        simp only [List.mem_toFinset, mem_wsChanges, simulated, simulated']
        refine exists_congr fun userId => and_iff_right_of_imp ?_
        rintro ⟨permission, differ⟩
        exact among ⟨_, permission, differ⟩ }

end Foretelling

namespace Tables

variable {tables after : Tables} {name userId permission : String} {scope : Scope}

theorem holds_directory : tables.directory.Holds userId scope permission ↔
    ∃ row ∈ tables.roleBindings, tables.directory.Affects userId row.toRoleBinding ∧
      row.scope = scope ∧ (row.roleName, permission) ∈ tables.rolePermissions := by
  simp only [Directory.Holds, directory, List.mem_map, exists_exists_and_eq_and]

theorem affects_congr {binding : RoleBinding} (same : after.groupMembers = tables.groupMembers) :
    after.directory.Affects userId binding ↔ tables.directory.Affects userId binding := by
  simp only [Directory.Affects, directory, same]

/-- Hooks that reach no binding of the user leave a simulation as it is. -/
theorem holdsIf_of_unaffected {rolePermOverride : OrderedMap String (List String)}
    {excludedBindingId excludedRoleName : Option String}
    (unaffected : ∀ row ∈ tables.roleBindings, tables.directory.Affects userId row.toRoleBinding →
      excludedBindingId ≠ some row.id ∧ excludedRoleName ≠ some row.roleName ∧
        rolePermOverride.get row.roleName = none) :
    tables.HoldsIf rolePermOverride excludedBindingId excludedRoleName userId scope permission ↔
      tables.directory.Holds userId scope permission := by
  rw [holds_directory]
  refine exists_congr fun row => and_congr_right fun stored => and_congr_right fun affects => ?_
  obtain ⟨kept, kept', plain⟩ := unaffected row stored affects
  rw [plain, Option.getD_none, mem_getRolePermissions, and_iff_right kept, and_iff_right kept']

theorem holdsIf_none : tables.HoldsIf OrderedMap.empty none none userId scope permission ↔
    tables.directory.Holds userId scope permission :=
  holdsIf_of_unaffected fun _ _ _ =>
    ⟨(Option.some_ne_none _).symm, (Option.some_ne_none _).symm, rfl⟩

theorem insertRolePermissions_eq {permissions : List String}
    (inserted : tables.insertRolePermissions name permissions = .ok after) :
    after = { tables with
      rolePermissions :=
        tables.rolePermissions ++ permissions.map fun permission => (name, permission) } := by
  simp only [insertRolePermissions] at inserted
  split at inserted
  · cases inserted
    rfl
  · cases inserted

/-- After an update the role contains the permissions that were asked for. -/
theorem updateRole_permissions {description : Option String} {permissions : List String}
    (updated : tables.updateRole name description (some permissions) = .ok after) :
    (∃ role, tables.getRole name = some role) ∧ after.groupMembers = tables.groupMembers ∧
      after.roleBindings = tables.roleBindings ∧ ∀ role permission,
        (role, permission) ∈ after.rolePermissions ↔
          if role = name then permission ∈ permissions
          else (role, permission) ∈ tables.rolePermissions := by
  unfold updateRole at updated
  cases found : tables.getRole name with
  | none =>
      rw [found] at updated
      cases updated
  | some role =>
      simp only [found] at updated
      split at updated
      · cases updated
      · obtain ⟨_, -, updated⟩ := bind_eq_ok_iff.mp updated
        obtain rfl := insertRolePermissions_eq updated
        refine ⟨⟨role, rfl⟩, rfl, rfl, fun other permission => ?_⟩
        simp only [deleteRolePermissions, List.mem_append, List.mem_filter, List.mem_map]
        by_cases same : other = name
        · simp [same]
        · simp [same, Ne.symm same]

theorem holds_updateRole {description : Option String} {permissions : List String}
    (updated : tables.updateRole name description (some permissions) = .ok after) :
    after.directory.Holds userId scope permission ↔
      tables.HoldsIf (OrderedMap.empty.set name (sorted permissions.toFinset)) none none userId
        scope permission := by
  obtain ⟨-, members, bindings, contains⟩ := updateRole_permissions updated
  rw [holds_directory, bindings]
  refine exists_congr fun row => and_congr_right fun _ => ?_
  rw [affects_congr members, contains, OrderedMap.get_set]
  by_cases same : name = row.roleName
  · simp [same]
  · simp [same, eq_comm, mem_getRolePermissions]

theorem mem_listGroupMembers {groupId : String} : userId ∈ tables.listGroupMembers groupId ↔
    (groupId, userId) ∈ tables.groupMembers := by
  simp [listGroupMembers]

theorem mem_affectedUsersForRole {row : BindingRow} (stored : row ∈ tables.roleBindings)
    (affects : tables.directory.Affects userId row.toRoleBinding) :
    userId ∈ tables.affectedUsersForRole row.roleName := by
  rw [affectedUsersForRole, mem_sorted, List.mem_toFinset, List.mem_append]
  rcases affects with own | ⟨group, through, member⟩
  · refine .inl (List.mem_filterMap.mpr ⟨row, stored, ?_⟩)
    rw [own]
    exact if_pos rfl
  · refine .inr (List.mem_flatMap.mpr ⟨group, ?_, mem_listGroupMembers.mpr member⟩)
    refine List.mem_filterMap.mpr ⟨row, stored, ?_⟩
    rw [through]
    exact if_pos rfl

theorem nodup_affectedUsersForRole : (tables.affectedUsersForRole name).Nodup :=
  nodup_sorted

/-- The current permissions of a role put in its place change nothing. -/
theorem holdsIf_current : tables.HoldsIf
    (OrderedMap.empty.set name (sorted (tables.getRolePermissions name).toFinset)) none none userId
      scope permission ↔ tables.directory.Holds userId scope permission := by
  rw [← holdsIf_none]
  refine exists_congr fun row => and_congr_right fun _ => and_congr_right fun _ => ?_
  refine and_congr_right fun _ => and_congr_right fun _ => and_congr_right fun _ => ?_
  rw [OrderedMap.get_set]
  by_cases same : name = row.roleName
  · subst same
    simp
  · simp [same]

theorem roleBindings_foldl_deleteBinding (ids : List String) :
    (ids.foldl deleteBinding tables).roleBindings =
      tables.roleBindings.filter fun row => row.id ∉ ids := by
  induction ids generalizing tables with
  | nil => simp
  | cons id rest ih =>
      rw [List.foldl_cons, ih]
      simp only [deleteBinding, deleteBindings, List.filter_filter]
      refine List.filter_congr fun row _ => ?_
      by_cases first : row.id = id <;> simp [first]

theorem frame_foldl_deleteBinding (ids : List String) :
    (ids.foldl deleteBinding tables).groupMembers = tables.groupMembers ∧
      (ids.foldl deleteBinding tables).rolePermissions = tables.rolePermissions ∧
      (ids.foldl deleteBinding tables).roles = tables.roles := by
  induction ids generalizing tables with
  | nil => exact ⟨rfl, rfl, rfl⟩
  | cons id rest ih => exact @ih (tables.deleteBinding id)

theorem deleteRole_cases (deleted : tables.deleteRole name = .ok after) :
    (∃ role, tables.getRole name = some role) ∧ (∀ row ∈ tables.roleBindings, row.roleName ≠ name) ∧
      after.groupMembers = tables.groupMembers ∧ after.roleBindings = tables.roleBindings ∧
      after.rolePermissions = tables.rolePermissions.filter fun row => row.1 ≠ name := by
  unfold deleteRole at deleted
  cases found : tables.getRole name with
  | none =>
      rw [found] at deleted
      cases deleted
  | some role =>
      simp only [found] at deleted
      split at deleted
      · cases deleted
      · split at deleted
        · cases deleted
        · rename_i unused
          cases deleted
          refine ⟨⟨role, rfl⟩, fun row stored same => ?_, rfl, rfl, rfl⟩
          refine unused fun none => ?_
          exact List.countP_eq_zero.mp none row stored (decide_eq_true same)

/-- After all its bindings are revoked and the role is deleted, what is left are the other
bindings. -/
theorem holds_deleteRole {ids : List String}
    (own : ∀ row ∈ tables.roleBindings, row.id ∈ ids → row.roleName = name)
    (deleted : (ids.foldl deleteBinding tables).deleteRole name = .ok after) :
    after.directory.Holds userId scope permission ↔
      tables.HoldsIf OrderedMap.empty none (some name) userId scope permission := by
  obtain ⟨-, unused, members, bindings, permissions⟩ := deleteRole_cases deleted
  obtain ⟨members', permissions', -⟩ := @frame_foldl_deleteBinding tables ids
  rw [roleBindings_foldl_deleteBinding] at unused bindings
  rw [holds_directory, bindings, permissions, permissions']
  refine exists_congr fun row => ?_
  rw [affects_congr (members.trans members'), List.mem_filter, and_assoc]
  refine and_congr_right fun stored => ?_
  have revoked : row.id ∈ ids ↔ row.roleName = name := by
    refine ⟨own row stored, fun same => ?_⟩
    by_contra kept
    exact unused row (List.mem_filter.mpr ⟨stored, decide_eq_true kept⟩) same
  by_cases same : row.roleName = name
  · simp [revoked, same]
  · simp [revoked, same, Ne.symm same, mem_getRolePermissions]

theorem revokeMemberBinding_cases {wsId bindingId : String}
    (revoked : tables.revokeMemberBinding wsId bindingId = some after) :
    ∃ row ∈ tables.roleBindings, tables.getBinding bindingId = some row ∧ row.id = bindingId ∧
      row.scope = .workspace wsId ∧ after = tables.deleteBinding bindingId := by
  unfold revokeMemberBinding at revoked
  cases found : tables.getBinding bindingId with
  | none =>
      rw [found] at revoked
      cases revoked
  | some row =>
      simp only [found] at revoked
      split at revoked
      · rename_i here
        cases revoked
        have same : row.id = bindingId := by simpa using List.find?_some found
        exact ⟨row, List.mem_of_find?_eq_some found, rfl, same, here, rfl⟩
      · cases revoked

theorem holds_deleteBinding {id : String} :
    (tables.deleteBinding id).directory.Holds userId scope permission ↔
      tables.HoldsIf OrderedMap.empty (some id) none userId scope permission := by
  have members : (tables.deleteBinding id).groupMembers = tables.groupMembers := rfl
  rw [holds_directory]
  refine exists_congr fun row => ?_
  rw [affects_congr members, deleteBinding, deleteBindings, List.mem_filter, and_assoc]
  refine and_congr_right fun _ => ?_
  by_cases same : row.id = id
  · simp [same]
  · simp [same, Ne.symm same, mem_getRolePermissions]

theorem getRole_congr (same : after.roles = tables.roles) :
    after.getRole name = tables.getRole name := by
  rw [getRole, getRole, same]

/-- The loop of a preview is right when its hooks describe the change, and reach no binding of
the users that are left out. -/
theorem foretells_simulated {users : List String}
    {rolePermOverride rolePermOverride' : OrderedMap String (List String)}
    {excludedBindingId excludedRoleName : Option String} (distinct : users.Nodup)
    (current : ∀ userId scope permission,
      tables.HoldsIf rolePermOverride none none userId scope permission ↔
        tables.directory.Holds userId scope permission)
    (changed : ∀ userId scope permission, after.directory.Holds userId scope permission ↔
      tables.HoldsIf rolePermOverride' excludedBindingId excludedRoleName userId scope permission)
    (covers : ∀ userId ∉ users, ∀ row ∈ tables.roleBindings,
      tables.directory.Affects userId row.toRoleBinding → excludedBindingId ≠ some row.id ∧
        excludedRoleName ≠ some row.roleName ∧ rolePermOverride'.get row.roleName = none) :
    Foretells (users.foldl (tables.addImpact
      (fun userId => tables.simulateForUser userId rolePermOverride none none)
      fun userId => tables.simulateForUser userId rolePermOverride' excludedBindingId
        excludedRoleName) Impacts.none).response tables.directory after.directory := by
  refine foretells distinct ?_ ?_ ?_
  · intro userId scope permission
    rw [has_simulateForUser, has_aggregate, current]
  · intro userId scope permission
    rw [has_simulateForUser, has_aggregate, changed]
  · intro userId absent scope permission
    rw [has_aggregate, has_aggregate, changed, holdsIf_of_unaffected (covers userId absent)]

theorem foretells_updateRole {description : Option String} {permissions : List String}
    (updated : tables.updateRole name description (some permissions) = .ok after) :
    ∃ response, tables.previewRoleUpdate name permissions = some response ∧
      Foretells response tables.directory after.directory := by
  obtain ⟨⟨role, found⟩, -⟩ := updateRole_permissions updated
  refine ⟨_, by rw [previewRoleUpdate, found, Option.map_some], ?_⟩
  refine foretells_simulated nodup_affectedUsersForRole (fun _ _ _ => holdsIf_current)
    (fun _ _ _ => holds_updateRole updated) ?_
  intro userId absent row stored affects
  refine ⟨(Option.some_ne_none _).symm, (Option.some_ne_none _).symm, ?_⟩
  rw [OrderedMap.get_set, if_neg, OrderedMap.get_empty]
  rintro rfl
  exact absent (mem_affectedUsersForRole stored affects)

theorem foretells_deleteRole {ids : List String}
    (own : ∀ row ∈ tables.roleBindings, row.id ∈ ids → row.roleName = name)
    (deleted : (ids.foldl deleteBinding tables).deleteRole name = .ok after) :
    ∃ response, tables.previewRoleDelete name = some response ∧
      Foretells response tables.directory after.directory := by
  obtain ⟨⟨role, found⟩, -⟩ := deleteRole_cases deleted
  rw [getRole_congr (frame_foldl_deleteBinding ids).2.2] at found
  refine ⟨_, by rw [previewRoleDelete, found, Option.map_some], ?_⟩
  refine foretells_simulated nodup_affectedUsersForRole (fun _ _ _ => holdsIf_none)
    (fun _ _ _ => holds_deleteRole own deleted) ?_
  intro userId absent row stored affects
  refine ⟨(Option.some_ne_none _).symm, ?_, rfl⟩
  intro same
  obtain rfl := Option.some.inj same
  exact absent (mem_affectedUsersForRole stored affects)

theorem foretells_revokeMemberBinding {wsId bindingId : String}
    (revoked : tables.revokeMemberBinding wsId bindingId = some after) :
    ∃ response, tables.previewRevokeBinding wsId bindingId = some response ∧
      Foretells response tables.directory after.directory := by
  obtain ⟨row, stored, found, rfl, here, rfl⟩ := revokeMemberBinding_cases revoked
  have same (before after : String → Aggregate) :
      tables.addRevokeImpact before after = tables.addImpact before after :=
    funext₂ fun _ _ => addRevokeImpact_eq
  simp only [previewRevokeBinding, found, if_pos here, same]
  refine ⟨_, rfl, ?_⟩
  refine foretells_simulated ?_ (fun _ _ _ => holdsIf_none) (fun _ _ _ => holds_deleteBinding) ?_
  · cases row.subject with
    | user id => exact List.nodup_singleton id
    | group id =>
        refine (tables.membersKeyed.filter _).map_on ?_
        simp +contextual [Prod.ext_iff]
  · intro userId absent other stored' affects
    refine ⟨?_, (Option.some_ne_none _).symm, rfl⟩
    intro same
    obtain rfl := List.inj_on_of_nodup_map tables.keyed stored stored' (Option.some.inj same)
    refine absent ?_
    rcases affects with own | ⟨group, through, member⟩
    · rw [own]
      exact List.mem_singleton_self userId
    · rw [through]
      exact mem_listGroupMembers.mpr member

end Tables

/-- The previews are right: each says of all users what the change that it is for does.  That
of the deletion of a role is for the deletion after all its bindings are revoked. -/
theorem previews_foretell (tables : Tables) :
    (∀ name description permissions after,
      tables.updateRole name description (some permissions) = .ok after →
      ∃ response, tables.previewRoleUpdate name permissions = some response ∧
        Foretells response tables.directory after.directory) ∧
    (∀ name (ids : List String) after,
      (∀ row ∈ tables.roleBindings, row.id ∈ ids → row.roleName = name) →
      (ids.foldl Tables.deleteBinding tables).deleteRole name = .ok after →
      ∃ response, tables.previewRoleDelete name = some response ∧
        Foretells response tables.directory after.directory) ∧
    ∀ wsId bindingId after, tables.revokeMemberBinding wsId bindingId = some after →
      ∃ response, tables.previewRevokeBinding wsId bindingId = some response ∧
        Foretells response tables.directory after.directory := by
  refine ⟨?_, ?_, ?_⟩
  · intro name description permissions after updated
    exact Tables.foretells_updateRole updated
  · intro name ids after own deleted
    exact Tables.foretells_deleteRole own deleted
  · intro wsId bindingId after revoked
    exact Tables.foretells_revokeMemberBinding revoked

/-- The stewards of a workspace, one of whom is a guest there as well. -/
def stewards : Tables where
  users := [⟨"ana", "ana@example.org", "Ana", "Lima", false⟩,
    ⟨"bo", "bo@example.org", "Bo", "Berg", false⟩]
  groupMembers := [("stewards", "ana"), ("stewards", "bo")]
  permissions := ["workspace:view:read", "workspace:view:edit"]
  roles := [⟨"steward", none, false⟩, ⟨"guest", none, false⟩]
  rolePermissions := [("steward", "workspace:view:read"), ("steward", "workspace:view:edit"),
    ("guest", "workspace:view:read")]
  roleBindings := [⟨⟨.group "stewards", "steward", .workspace "finance"⟩, "b1"⟩,
    ⟨⟨.user "ana", "guest", .workspace "finance"⟩, "b2"⟩]
  keyed := by decide
  membersKeyed := by decide

def readingStewards : Tables :=
  { stewards with
    rolePermissions := [("guest", "workspace:view:read"), ("steward", "workspace:view:read")] }

def guestsOnly : Tables :=
  { stewards with
    roleBindings := [⟨⟨.user "ana", "guest", .workspace "finance"⟩, "b2"⟩]
    keyed := by decide }

def stewardless : Tables :=
  { guestsOnly with
    roles := [⟨"guest", none, false⟩]
    rolePermissions := [("guest", "workspace:view:read")] }

theorem readingStewards_gains : Gains readingStewards.directory stewards.directory "ana"
    "workspace:view:edit" := by
  refine ⟨.workspace "finance", ?_⟩
  simp [has_aggregate, Directory.Holds, Directory.Affects, Tables.directory, readingStewards,
    stewards]

theorem guestsOnly_gains : Gains guestsOnly.directory stewards.directory "bo"
    "workspace:view:read" := by
  refine ⟨.workspace "finance", ?_⟩
  simp [has_aggregate, Directory.Holds, Directory.Affects, Tables.directory, guestsOnly, stewards]

theorem stewardless_gains : Gains stewardless.directory stewards.directory "bo"
    "workspace:view:read" := by
  refine ⟨.workspace "finance", ?_⟩
  simp [has_aggregate, Directory.Holds, Directory.Affects, Tables.directory, stewardless,
    guestsOnly, stewards]

theorem stewards_foretold :
    (∃ response,
      stewards.previewRoleUpdate "steward" ["workspace:view:read"] = some response ∧
        Foretells response stewards.directory readingStewards.directory ∧
        "workspace:view:edit" ∈ response.lostPerms) ∧
    (∃ response, stewards.previewRoleDelete "steward" = some response ∧
      Foretells response stewards.directory stewardless.directory ∧
      "workspace:view:read" ∈ response.lostPerms) ∧
    ∃ response, stewards.previewRevokeBinding "finance" "b1" = some response ∧
      Foretells response stewards.directory guestsOnly.directory ∧
      "workspace:view:read" ∈ response.lostPerms := by
  obtain ⟨ofUpdate, ofDelete, ofRevocation⟩ := previews_foretell stewards
  refine ⟨?_, ?_, ?_⟩
  · obtain ⟨response, previewed, foretells⟩ :=
      ofUpdate "steward" none ["workspace:view:read"] readingStewards rfl
    exact ⟨response, previewed, foretells, (foretells.lostPerms _).mpr ⟨_, readingStewards_gains⟩⟩
  · have own : ∀ row ∈ stewards.roleBindings, row.id ∈ ["b1"] → row.roleName = "steward" := by
      decide
    obtain ⟨response, previewed, foretells⟩ := ofDelete "steward" ["b1"] stewardless own rfl
    exact ⟨response, previewed, foretells, (foretells.lostPerms _).mpr ⟨_, stewardless_gains⟩⟩
  · obtain ⟨response, previewed, foretells⟩ := ofRevocation "finance" "b1" guestsOnly rfl
    exact ⟨response, previewed, foretells, (foretells.lostPerms _).mpr ⟨_, guestsOnly_gains⟩⟩

end Univiz.Permissions

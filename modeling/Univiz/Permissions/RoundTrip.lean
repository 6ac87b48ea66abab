import Univiz.Data.Buckets
import Univiz.Permissions.Claims

namespace Univiz.Permissions

open Univiz.Data

/-! What the claims of a login grant, against the bindings of the user. -/

variable {domain other permission granted leaf : String} {perms : Finset String}

/-- What a set of permissions grants, those that are wildcards included. -/
def Grants (perms : Finset String) (permission : String) : Prop :=
  permission ∈ perms ∨ ∃ domain, wildcard domain ∈ perms ∧ Under domain permission

/-- Every leaf of the catalogue under a prefix is there. -/
def HasAllLeaves (perms : Finset String) (domain : String) : Prop :=
  ∀ leaf ∈ knownLeavesForPrefix domain, leaf ∈ perms

theorem toList_wildcard : (wildcard domain).toList = domain.toList ++ [':', '*'] := by
  rw [wildcard, String.toList_append]
  rfl

theorem toList_colon : (domain ++ ":").toList = domain.toList ++ [':'] := by
  rw [String.toList_append]
  rfl

theorem under_wildcard : Under domain (wildcard domain) := by
  rw [Under, toList_colon, toList_wildcard]
  exact ⟨['*'], by simp⟩

theorem matchesWildcard_iff : matchesWildcard granted permission = true ↔
    ∃ domain, granted = wildcard domain ∧ Under domain permission := by
  rw [matchesWildcard, decide_eq_true_iff]
  constructor
  · rintro ⟨⟨start, ends⟩, under⟩
    have cut : granted.toList.take (granted.toList.length - 2) = start := by
      rw [← ends, List.length_append]
      exact List.take_left' (by simp)
    rw [cut] at under
    refine ⟨String.ofList start, ?_, under⟩
    apply String.toList_injective
    rw [toList_wildcard, String.toList_ofList, ends]
  · rintro ⟨domain, rfl, under⟩
    rw [toList_wildcard]
    refine ⟨List.suffix_append _ _, ?_⟩
    rwa [List.length_append, List.take_left' (by simp), String.ofList_toList]

/-- A wildcard under a prefix grants only what lies under that prefix. -/
theorem Under.trans (outer : Under domain (wildcard other)) (inner : Under other permission) :
    Under domain permission := by
  rw [Under, toList_colon] at outer inner ⊢
  rw [toList_wildcard] at outer
  have split : other.toList ++ [':', '*'] = (other.toList ++ [':']) ++ ['*'] := by simp
  rw [split] at outer
  obtain equal | within := List.prefix_concat_iff.mp outer
  · have lasts := congrArg List.getLast? equal
    rw [List.getLast?_concat, List.getLast?_concat] at lasts
    exact absurd lasts (by decide)
  · exact within.trans inner

theorem catalogued : ∀ domain ∈ wildcardPrefixes, knownLeavesForPrefix domain ≠ [] ∧
    ∀ leaf ∈ knownLeavesForPrefix domain, Under domain leaf := by decide

/-- What lies elsewhere is left alone. -/
theorem mem_collapsePrefix (apart : ¬ Under domain permission) :
    permission ∈ collapsePrefix perms domain ↔ permission ∈ perms := by
  have different : permission ≠ wildcard domain := fun same => apart (same ▸ under_wildcard)
  simp only [collapsePrefix]
  split
  · simp [different, apart]
  · exact Iff.rfl

theorem grants_collapsePrefix (known : domain ∈ wildcardPrefixes) :
    Grants (collapsePrefix perms domain) permission ↔
      Grants perms permission ∨ HasAllLeaves perms domain ∧ Under domain permission := by
  obtain ⟨nonempty, below⟩ := catalogued domain known
  have all_iff : (∀ leaf ∈ knownLeavesForPrefix domain,
      leaf ∈ perms.filter fun permission => Under domain permission) ↔
        HasAllLeaves perms domain := by
    apply forall₂_congr
    intro leaf member
    rw [Finset.mem_filter, and_iff_left (below leaf member)]
  simp only [collapsePrefix]
  by_cases all : HasAllLeaves perms domain
  · rw [if_pos ⟨nonempty, all_iff.mpr all⟩]
    have kept : ∀ item, item ∈ perms \ perms.filter (fun permission => Under domain permission) ↔
        item ∈ perms ∧ ¬ Under domain item := by
      intro item
      rw [Finset.mem_sdiff, Finset.mem_filter]
      tauto
    constructor
    · rintro (held | ⟨other, held, under⟩)
      · obtain rfl | ⟨held, _⟩ := (Finset.mem_insert.mp held).imp_right (kept _).mp
        · exact .inr ⟨all, under_wildcard⟩
        · exact .inl (.inl held)
      · obtain same | ⟨held, _⟩ := (Finset.mem_insert.mp held).imp_right (kept _).mp
        · have equal : other.toList ++ [':', '*'] = domain.toList ++ [':', '*'] := by
            rw [← toList_wildcard, ← toList_wildcard, same]
          have same : other = domain := String.toList_injective (List.append_cancel_right equal)
          exact .inr ⟨all, same ▸ under⟩
        · exact .inl (.inr ⟨other, held, under⟩)
    · have collapsed : Under domain permission →
          Grants (insert (wildcard domain)
            (perms \ perms.filter fun permission => Under domain permission)) permission :=
        fun under => .inr ⟨domain, Finset.mem_insert_self _ _, under⟩
      rintro ((held | ⟨other, held, under⟩) | ⟨_, under⟩)
      · by_cases under : Under domain permission
        · exact collapsed under
        · exact .inl (Finset.mem_insert_of_mem ((kept _).mpr ⟨held, under⟩))
      · by_cases nested : Under domain (wildcard other)
        · exact collapsed (nested.trans under)
        · exact .inr ⟨other, Finset.mem_insert_of_mem ((kept _).mpr ⟨held, nested⟩), under⟩
      · exact collapsed under
  · rw [if_neg fun both => all (all_iff.mp both.2)]
    simp [all]

/-- Collapsing adds what lies under a prefix whose catalogued leaves are all there. -/
theorem grants_collapseWildcards :
    Grants (collapseWildcards perms).toFinset permission ↔ Grants perms permission ∨
      ∃ domain ∈ wildcardPrefixes, HasAllLeaves perms domain ∧ Under domain permission := by
  have sorted : (collapseWildcards perms).toFinset =
      collapsePrefix (collapsePrefix perms "workspace:view") "workspace:datasource" :=
    Finset.sort_toFinset _ _
  have apart : ∀ leaf ∈ knownLeavesForPrefix "workspace:datasource",
      ¬ Under "workspace:view" leaf := by decide
  have leaves : HasAllLeaves (collapsePrefix perms "workspace:view") "workspace:datasource" ↔
      HasAllLeaves perms "workspace:datasource" := by
    apply forall₂_congr
    intro leaf member
    exact mem_collapsePrefix (apart leaf member)
  rw [sorted, grants_collapsePrefix (by decide), grants_collapsePrefix (by decide), leaves]
  simp [wildcardPrefixes, or_assoc]

section Bindings

variable {directory : Directory} {userId sid wsId role : String}

/-- The binding is the user's own or that of a group the user is in. -/
def Directory.Affects (directory : Directory) (userId : String) (binding : RoleBinding) : Prop :=
  binding.subject = .user userId ∨
    ∃ group, binding.subject = .group group ∧ (group, userId) ∈ directory.groupMembers

/-- Through some binding in the scope the user has a role that contains the permission. -/
def Directory.Holds (directory : Directory) (userId : String) (scope : Scope)
    (permission : String) : Prop :=
  ∃ binding ∈ directory.roleBindings, directory.Affects userId binding ∧ binding.scope = scope ∧
    (binding.roleName, permission) ∈ directory.rolePermissions

theorem mem_listForUserWithGroups {binding : RoleBinding} :
    binding ∈ directory.listForUserWithGroups userId (directory.getGroupsForUser userId) ↔
      binding ∈ directory.roleBindings ∧ directory.Affects userId binding := by
  rw [Directory.listForUserWithGroups, List.mem_filter, Directory.Affects]
  apply and_congr_right
  intro _
  cases subject : binding.subject with
  | user id => simp
  | group id => simp [Directory.getGroupsForUser]

theorem get_rolePermissions {roleNames : List String} (listed : role ∈ roleNames) :
    permission ∈ ((directory.getRolePermissionsForRoles roleNames).get role).getD [] ↔
      (role, permission) ∈ directory.rolePermissions := by
  rw [Directory.getRolePermissionsForRoles, OrderedMap.get_foldl_set, if_pos listed]
  simp

/-- The permissions that the bindings for a scope add up to. -/
def Adds (rolePerms : OrderedMap String (List String)) (bindings : List RoleBinding)
    (scope : Scope) (permission : String) : Prop :=
  ∃ binding ∈ bindings, binding.scope = scope ∧
    permission ∈ (rolePerms.get binding.roleName).getD []

section Aggregation

variable {rolePerms : OrderedMap String (List String)} {binding : RoleBinding}
  {bindings : List RoleBinding} {sets : Aggregate}

theorem mem_addBinding_global : permission ∈ (addBinding rolePerms sets binding).1 ↔
    permission ∈ sets.1 ∨
      (binding.scope = .global ∧ permission ∈ (rolePerms.get binding.roleName).getD []) := by
  cases scope : binding.scope with
  | global => simp [addBinding, scope]
  | workspace wsId =>
      by_cases unnamed : wsId = "" <;> simp [addBinding, scope, unnamed]

theorem mem_addBinding_workspace (named : wsId ≠ "") :
    permission ∈ ((addBinding rolePerms sets binding).2.get wsId).getD ∅ ↔
      permission ∈ (sets.2.get wsId).getD ∅ ∨
        (binding.scope = .workspace wsId ∧
          permission ∈ (rolePerms.get binding.roleName).getD []) := by
  cases scope : binding.scope with
  | global => simp [addBinding, scope]
  | workspace other =>
      by_cases same : other = wsId
      · subst same
        simp [addBinding, scope, named, OrderedMap.get_set]
      · by_cases unnamed : other = ""
        · simp [addBinding, scope, unnamed, named.symm]
        · simp [addBinding, scope, unnamed, OrderedMap.get_set, same]

theorem get_addBinding_unnamed : (addBinding rolePerms sets binding).2.get "" = sets.2.get "" := by
  cases scope : binding.scope with
  | global => simp [addBinding, scope]
  | workspace wsId =>
      by_cases unnamed : wsId = ""
      · simp [addBinding, scope, unnamed]
      · simp [addBinding, scope, unnamed, OrderedMap.get_set]

theorem mem_global : permission ∈ (bindings.foldl (addBinding rolePerms) sets).1 ↔
    permission ∈ sets.1 ∨ Adds rolePerms bindings .global permission :=
  holds_foldl_iff (fun sets : Aggregate => permission ∈ sets.1) _ fun _ _ => mem_addBinding_global

theorem mem_workspace (named : wsId ≠ "") :
    permission ∈ ((bindings.foldl (addBinding rolePerms) sets).2.get wsId).getD ∅ ↔
      permission ∈ (sets.2.get wsId).getD ∅ ∨
        Adds rolePerms bindings (.workspace wsId) permission :=
  holds_foldl_iff (fun sets : Aggregate => permission ∈ (sets.2.get wsId).getD ∅) _
    fun _ _ => mem_addBinding_workspace named

theorem get_unnamed :
    (bindings.foldl (addBinding rolePerms) sets).2.get "" = sets.2.get "" :=
  foldl_unchanged (fun sets : Aggregate => sets.2.get "") fun _ _ => get_addBinding_unnamed

end Aggregation

theorem adds_iff {scope : Scope} :
    Adds (directory.getRolePermissionsForRoles
        ((directory.listForUserWithGroups userId (directory.getGroupsForUser userId)).map
          (·.roleName)).toFinset.sort)
      (directory.listForUserWithGroups userId (directory.getGroupsForUser userId)) scope
      permission ↔ directory.Holds userId scope permission := by
  apply exists_congr
  intro binding
  constructor
  · rintro ⟨listed, inScope, added⟩
    obtain ⟨member, affects⟩ := mem_listForUserWithGroups.mp listed
    rw [get_rolePermissions (by simpa using ⟨binding, listed, rfl⟩)] at added
    exact ⟨member, affects, inScope, added⟩
  · rintro ⟨member, affects, inScope, contains⟩
    have listed := mem_listForUserWithGroups.mpr ⟨member, affects⟩
    refine ⟨listed, inScope, ?_⟩
    rw [get_rolePermissions (by simpa using ⟨binding, listed, rfl⟩)]
    exact contains

theorem mem_aggregate_global : permission ∈ (aggregate directory userId).1 ↔
    directory.Holds userId .global permission := by
  rw [aggregate, mem_global, adds_iff]
  simp

theorem mem_aggregate_workspace (named : wsId ≠ "") :
    permission ∈ ((aggregate directory userId).2.get wsId).getD ∅ ↔
      directory.Holds userId (.workspace wsId) permission := by
  rw [aggregate, mem_workspace named, adds_iff]
  simp

/-- What the claims grant in a workspace: the permissions that the user holds there, what lies
under a wildcard among them, and what lies under a prefix of which the user holds every leaf of
the catalogue. -/
def Directory.GrantedIn (directory : Directory) (userId wsId permission : String) : Prop :=
  wsId ≠ "" ∧
    (directory.Holds userId (.workspace wsId) permission ∨
      (∃ domain, directory.Holds userId (.workspace wsId) (wildcard domain) ∧
        Under domain permission) ∨
      ∃ domain ∈ wildcardPrefixes, Under domain permission ∧
        ∀ leaf ∈ knownLeavesForPrefix domain, directory.Holds userId (.workspace wsId) leaf)

/-- A global binding to a role with `system:admin` grants everything. -/
def Directory.Granted (directory : Directory) (userId permission : String)
    (workspaceId : Option String) : Prop :=
  directory.Holds userId .global "system:admin" ∨
    match workspaceId with
    | none => directory.Holds userId .global permission
    | some wsId => directory.GrantedIn userId wsId permission

/-- The claims after a round trip through the token. -/
def tokenClaims (directory : Directory) (userId sid : String) : PermissionClaims :=
  .fromJwtDict (resolve directory userId sid).toJwtDict

theorem get_aggregate_unnamed : (aggregate directory userId).2.get "" = none :=
  get_unnamed

/-- The permissions of a workspace as the claims list them. -/
def bucket (sets : Aggregate) (wsId : String) : List String :=
  ((sets.2.mapValues collapseWildcards).get wsId).getD []

theorem grants_bucket {sets : Aggregate} : Grants (bucket sets wsId).toFinset permission ↔
    Grants ((sets.2.get wsId).getD ∅) permission ∨
      ∃ domain ∈ wildcardPrefixes, HasAllLeaves ((sets.2.get wsId).getD ∅) domain ∧
        Under domain permission := by
  rw [bucket, OrderedMap.get_mapValues]
  cases sets.2.get wsId with
  | some perms => exact grants_collapseWildcards
  | none =>
      simp only [Option.map_none, Option.getD_none]
      have nothing : ¬ Grants ∅ permission := by simp [Grants]
      apply iff_of_false nothing
      rintro (held | ⟨domain, known, all, _⟩)
      · exact nothing held
      · obtain ⟨leaf, member⟩ := List.exists_mem_of_ne_nil _ (catalogued domain known).1
        exact absurd (all leaf member) (Finset.notMem_empty leaf)

theorem hasPermission_workspace {claims : PermissionClaims}
    (ordinary : "system:admin" ∉ claims.globalPerms) :
    hasPermission claims permission (some wsId) = true ↔
      Grants ((claims.wsPerms.get wsId).getD []).toFinset permission := by
  simp only [hasPermission, if_neg ordinary, Bool.or_eq_true, decide_eq_true_eq, List.any_eq_true,
    matchesWildcard_iff, Grants, List.mem_toFinset]
  apply or_congr Iff.rfl
  constructor
  · rintro ⟨_, held, domain, rfl, under⟩
    exact ⟨domain, held, under⟩
  · rintro ⟨domain, held, under⟩
    exact ⟨_, held, domain, rfl, under⟩

theorem grantedIn_iff : Grants (bucket (aggregate directory userId) wsId).toFinset permission ↔
    directory.GrantedIn userId wsId permission := by
  by_cases named : wsId = ""
  · subst named
    rw [bucket, OrderedMap.get_mapValues, get_aggregate_unnamed]
    exact iff_of_false (by simp [Grants]) fun granted => granted.1 rfl
  · have holds (permission : String) :
        permission ∈ ((aggregate directory userId).2.get wsId).getD ∅ ↔
          directory.Holds userId (.workspace wsId) permission := mem_aggregate_workspace named
    rw [grants_bucket, Directory.GrantedIn, and_iff_right named, Grants, or_assoc]
    simp only [HasAllLeaves, holds, and_comm]

theorem mem_globalPerms (sid : String) :
    permission ∈ (tokenClaims directory userId sid).globalPerms ↔
      directory.Holds userId .global permission :=
  (Finset.mem_sort (s := (aggregate directory userId).1) (· ≤ ·)).trans mem_aggregate_global

/-- What the claims of a login say after they have been through the token. -/
theorem hasPermission_token_iff (directory : Directory) (userId sid permission : String)
    (workspaceId : Option String) :
    hasPermission (tokenClaims directory userId sid) permission workspaceId = true ↔
      directory.Granted userId permission workspaceId := by
  by_cases admin : directory.Holds userId .global "system:admin"
  · have listed := (mem_globalPerms sid).mpr admin
    exact iff_of_true (by simp only [hasPermission, if_pos listed]) (.inl admin)
  · have ordinary := mt (mem_globalPerms sid).mp admin
    refine Iff.trans ?_ (or_iff_right admin).symm
    cases workspaceId with
    | none =>
        simp only [hasPermission, if_neg ordinary, decide_eq_true_iff]
        exact mem_globalPerms sid
    | some wsId => exact (hasPermission_workspace ordinary).trans grantedIn_iff

/-- With permissions of the catalogue alone, a permission is granted where it is held. -/
theorem granted_catalogued (directory : Directory) (userId permission : String)
    (plain : ∀ row ∈ directory.rolePermissions, ∀ domain, row.2 ≠ wildcard domain)
    (known : ∀ domain ∈ wildcardPrefixes, Under domain permission →
      permission ∈ knownLeavesForPrefix domain) {wsId : String} (named : wsId ≠ "") :
    directory.GrantedIn userId wsId permission ↔
      directory.Holds userId (.workspace wsId) permission := by
  rw [Directory.GrantedIn, and_iff_right named]
  constructor
  · rintro (held | ⟨domain, ⟨_, _, _, _, contains⟩, _⟩ | ⟨domain, listed, under, all⟩)
    · exact held
    · exact absurd rfl (plain _ contains domain)
    · exact all permission (known domain listed under)
  · exact .inl

/-- One user, whose role in the workspace `ws_a` contains the leaves of `workspace:view`. -/
def sampleDirectory : Directory where
  groupMembers := []
  roleBindings := [⟨.user "usr_1", "user", .workspace "ws_a"⟩]
  rolePermissions := (knownLeavesForPrefix "workspace:view").map fun leaf => ("user", leaf)

/-- A permission outside the catalogue is granted that no role contains. -/
theorem uncatalogued_granted :
    ¬ (hasPermission (tokenClaims sampleDirectory "usr_1" "sess_1") "workspace:view:share"
        (some "ws_a") = true ↔
      sampleDirectory.Holds "usr_1" .global "system:admin" ∨
        sampleDirectory.Holds "usr_1" (.workspace "ws_a") "workspace:view:share") := by
  have held : ∀ leaf ∈ knownLeavesForPrefix "workspace:view",
      sampleDirectory.Holds "usr_1" (.workspace "ws_a") leaf := by
    intro leaf member
    exact ⟨_, List.mem_singleton_self _, .inl rfl, rfl, List.mem_map_of_mem member⟩
  have ordinary : "system:admin" ∉ (tokenClaims sampleDirectory "usr_1" "sess_1").globalPerms := by
    intro admin
    obtain ⟨binding, member, _, scope, _⟩ := (mem_globalPerms _).mp admin
    rw [List.mem_singleton.mp member] at scope
    cases scope
  have granted : hasPermission (tokenClaims sampleDirectory "usr_1" "sess_1")
      "workspace:view:share" (some "ws_a") = true := by
    apply (hasPermission_workspace ordinary).mpr
    apply grantedIn_iff.mpr
    exact ⟨by decide, .inr (.inr ⟨"workspace:view", by decide, by decide, held⟩)⟩
  intro faithful
  obtain ⟨binding, member, _, scope, _⟩ | ⟨_, _, _, _, contains⟩ := faithful.mp granted
  · rw [List.mem_singleton.mp member] at scope
    cases scope
  · obtain ⟨leaf, member, equal⟩ := List.mem_map.mp contains
    obtain rfl : leaf = "workspace:view:share" := congrArg Prod.snd equal
    exact absurd member (by decide)

end Bindings

end Univiz.Permissions

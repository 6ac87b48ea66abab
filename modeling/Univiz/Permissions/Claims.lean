import Mathlib.Data.Finset.Sort
import Mathlib.Data.String.Basic
import Univiz.Data.OrderedMap

namespace Univiz.Permissions

open Univiz.Data

/-! `permission_service.py`: the claims of a login and the questions that are put to them. -/

inductive Subject
  | user (id : String)
  | group (id : String)
deriving DecidableEq

/-- A binding for a workspace names it, and one that is global names none. -/
inductive Scope
  | global
  | workspace (id : String)
deriving DecidableEq

structure RoleBinding where
  subject : Subject
  roleName : String
  scope : Scope
deriving DecidableEq

/-- The tables that are read at a login: pairs of a group and a member, the bindings, and pairs
of a role and a permission. -/
structure Directory where
  groupMembers : List (String × String)
  roleBindings : List RoleBinding
  rolePermissions : List (String × String)

namespace Directory

variable (directory : Directory)

def getGroupsForUser (userId : String) : List String :=
  (directory.groupMembers.filter fun member => member.2 = userId).map Prod.fst

def listForUserWithGroups (userId : String) (groupIds : List String) : List RoleBinding :=
  directory.roleBindings.filter fun binding =>
    match binding.subject with
    | .user id => id = userId
    | .group id => id ∈ groupIds

def getRolePermissionsForRoles (roleNames : List String) : OrderedMap String (List String) :=
  roleNames.foldl (fun out name => out.set name
    ((directory.rolePermissions.filter fun row => row.1 = name).map Prod.snd)) OrderedMap.empty

end Directory

structure PermissionClaims where
  sid : String
  globalPerms : List String
  wsPerms : OrderedMap String (List String)

/-- The claims as the token carries them. -/
structure JwtPayload where
  sid : Option String
  global : Option (List String)
  ws : Option (OrderedMap String (List String))

namespace PermissionClaims

def toJwtDict (claims : PermissionClaims) : JwtPayload where
  sid := some claims.sid
  global := some claims.globalPerms
  ws := some claims.wsPerms

def fromJwtDict (payload : JwtPayload) : PermissionClaims where
  sid := payload.sid.getD ""
  globalPerms := payload.global.getD []
  wsPerms := payload.ws.getD OrderedMap.empty

end PermissionClaims

/-- `permission.startswith(prefix + ":")`. -/
def Under (domain permission : String) : Prop := (domain ++ ":").toList <+: permission.toList

instance (domain permission : String) : Decidable (Under domain permission) :=
  inferInstanceAs (Decidable (_ <+: _))

def wildcard (domain : String) : String := domain ++ ":*"

def wildcardPrefixes : List String := ["workspace:view", "workspace:datasource"]

def seedLeaves : List (String × List String) :=
  [("workspace:view",
      ["workspace:view:create", "workspace:view:edit", "workspace:view:delete",
        "workspace:view:read"]),
    ("workspace:datasource", ["workspace:datasource:manage", "workspace:datasource:read"])]

def knownLeavesForPrefix (domain : String) : List String := (seedLeaves.lookup domain).getD []

def collapsePrefix (out : Finset String) (domain : String) : Finset String :=
  let leaves := out.filter fun permission => Under domain permission
  let allKnownLeaves := knownLeavesForPrefix domain
  if allKnownLeaves ≠ [] ∧ ∀ leaf ∈ allKnownLeaves, leaf ∈ leaves then
    insert (wildcard domain) (out \ leaves)
  else out

def collapseWildcards (perms : Finset String) : List String :=
  (wildcardPrefixes.foldl collapsePrefix perms).sort

/-- The permissions so far: the global ones and those of each workspace. -/
abbrev Aggregate := Finset String × OrderedMap String (Finset String)

def addBinding (rolePerms : OrderedMap String (List String)) (sets : Aggregate)
    (binding : RoleBinding) : Aggregate :=
  let permsForRole := ((rolePerms.get binding.roleName).getD []).toFinset
  match binding.scope with
  | .global => (sets.1 ∪ permsForRole, sets.2)
  | .workspace wsId =>
      if wsId = "" then sets
      else (sets.1, sets.2.set wsId ((sets.2.get wsId).getD ∅ ∪ permsForRole))

/-- `sid` is the id that is given or else a new one. -/
def resolve (directory : Directory) (userId sid : String) : PermissionClaims :=
  let groupIds := directory.getGroupsForUser userId
  let bindings := directory.listForUserWithGroups userId groupIds
  let roleNames := (bindings.map (·.roleName)).toFinset.sort
  let rolePerms := directory.getRolePermissionsForRoles roleNames
  let sets := bindings.foldl (addBinding rolePerms) (∅, OrderedMap.empty)
  { sid := sid
    globalPerms := sets.1.sort
    wsPerms := sets.2.mapValues collapseWildcards }

/-- What `resolve` aggregates for a user. -/
def aggregate (directory : Directory) (userId : String) : Aggregate :=
  let bindings := directory.listForUserWithGroups userId (directory.getGroupsForUser userId)
  bindings.foldl (addBinding (directory.getRolePermissionsForRoles
    (bindings.map (·.roleName)).toFinset.sort)) (∅, OrderedMap.empty)

/-- `sorted` of a set. -/
def sorted (texts : Finset String) : List String := texts.sort

/-- A claim that ends in `:*` grants what lies under the rest of it. -/
def matchesWildcard (granted permission : String) : Bool :=
  [':', '*'] <:+ granted.toList ∧
    Under (String.ofList (granted.toList.take (granted.toList.length - 2))) permission

def hasPermission (claims : PermissionClaims) (permission : String)
    (workspaceId : Option String) : Bool :=
  if "system:admin" ∈ claims.globalPerms then true
  else
    match workspaceId with
    | none => permission ∈ claims.globalPerms
    | some workspaceId =>
        let bucket := (claims.wsPerms.get workspaceId).getD []
        permission ∈ bucket || bucket.any fun granted => matchesWildcard granted permission

end Univiz.Permissions

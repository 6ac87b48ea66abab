import Univiz.Access.Requests
import Univiz.Permissions.RoundTrip

namespace Univiz.Permissions

open Univiz.Data Univiz.Access

/-! The tables of the roles, and what updates or deletes a role and revokes a binding. -/

structure Role where
  name : String
  description : Option String
  isSystem : Bool
deriving DecidableEq

/-- A row of `role_bindings`. -/
structure BindingRow extends RoleBinding where
  id : String
deriving DecidableEq

structure UserRow where
  id : String
  email : String
  firstName : String
  lastName : String
  deleted : Bool
deriving DecidableEq

/-- The last two fields are primary keys. -/
structure Tables where
  users : List UserRow
  groupMembers : List (String × String)
  permissions : List String
  roles : List Role
  rolePermissions : List (String × String)
  roleBindings : List BindingRow
  keyed : (roleBindings.map BindingRow.id).Nodup
  membersKeyed : groupMembers.Nodup

inductive RoleError where
  | notFound (name : String)
  | immutable (name : String)
  | inUse (name : String) (count : Nat)
  | unknownPermissions (missing : List String)
  | integrityError
deriving DecidableEq

/-- `text.strip() or None`. -/
def stripped (text : String) : Option String :=
  if strip text = "" then none else some (strip text)

namespace Tables

variable (tables : Tables)

/-- The tables as a login reads them. -/
def directory : Directory where
  groupMembers := tables.groupMembers
  roleBindings := tables.roleBindings.map BindingRow.toRoleBinding
  rolePermissions := tables.rolePermissions

def getRole (name : String) : Option Role := tables.roles.find? fun role => role.name = name

def getBinding (id : String) : Option BindingRow :=
  tables.roleBindings.find? fun row => row.id = id

def getUserById (id : String) : Option UserRow :=
  tables.users.find? fun user => user.id = id ∧ user.deleted = false

def listGroupMembers (groupId : String) : List String :=
  (tables.groupMembers.filter fun member => member.1 = groupId).map Prod.snd

def getRolePermissions (name : String) : List String :=
  (tables.rolePermissions.filter fun row => row.1 = name).map Prod.snd

def bindingCount (name : String) : Nat :=
  tables.roleBindings.countP fun row => row.roleName = name

def validatePermissionsExist (permissions : List String) : Except RoleError Unit :=
  let missing := permissions.filter fun permission => permission ∉ tables.permissions
  if missing = [] then .ok () else .error (.unknownPermissions (sorted missing.toFinset))

/-- The rows of a role; a permission that is listed twice violates their primary key. -/
def insertRolePermissions (name : String) (permissions : List String) : Except RoleError Tables :=
  let rows := permissions.map fun permission => (name, permission)
  if rows.Nodup ∧ ∀ row ∈ rows, row ∉ tables.rolePermissions then
    .ok { tables with rolePermissions := tables.rolePermissions ++ rows }
  else .error .integrityError

def deleteRolePermissions (name : String) : Tables :=
  { tables with rolePermissions := tables.rolePermissions.filter fun row => row.1 ≠ name }

def deleteBindings (dropped : BindingRow → Bool) : Tables :=
  { tables with
    roleBindings := tables.roleBindings.filter fun row => !dropped row
    keyed := (List.filter_sublist.map _).nodup tables.keyed }

def deleteBinding (id : String) : Tables := tables.deleteBindings fun row => row.id = id

def updateRole (name : String) (description : Option String)
    (permissions : Option (List String)) : Except RoleError Tables := do
  match tables.getRole name with
  | none => throw (.notFound name)
  | some role =>
      if role.isSystem = true then throw (.immutable name)
      let described : Role :=
        match description with
        | none => role
        | some text => { role with description := stripped text }
      let updated := { tables with
        roles := tables.roles.map fun other => if other.name = name then described else other }
      match permissions with
      | none => pure updated
      | some permissions =>
          tables.validatePermissionsExist permissions
          (updated.deleteRolePermissions name).insertRolePermissions name permissions

def deleteRole (name : String) : Except RoleError Tables :=
  match tables.getRole name with
  | none => .error (.notFound name)
  | some role =>
      if role.isSystem = true then .error (.immutable name)
      else if tables.bindingCount name ≠ 0 then .error (.inUse name (tables.bindingCount name))
      else
        .ok { tables.deleteRolePermissions name with
          roles := tables.roles.filter fun other => other.name ≠ name }

/-- `DELETE /admin/workspaces/{ws_id}/members/{binding_id}`, with nothing for its 404. -/
def revokeMemberBinding (wsId bindingId : String) : Option Tables :=
  match tables.getBinding bindingId with
  | none => none
  | some row => if row.scope = .workspace wsId then tables.deleteBinding bindingId else none

end Tables

end Univiz.Permissions

import Univiz.Data.Exclusion

namespace Univiz.Access

open Univiz.Data

/-! The calls that resolve an access request.

Every endpoint call is a transaction of its own at the isolation level READ COMMITTED.
Its session has a row as it was first read for as long as something holds the object of
the row, and reads it anew after that.  An UPDATE waits for the transaction that holds the
row, and an INSERT for one that has inserted a row with the same unique key. -/

inductive RequestStatus where
  | pending
  | approved
  | denied
deriving DecidableEq, Repr

def RequestStatus.text : RequestStatus → String
  | .pending => "pending"
  | .approved => "approved"
  | .denied => "denied"

structure AccessRequest where
  id : String
  requesterId : String
  targetType : String
  targetId : String
  requestedRole : String
  status : RequestStatus
  resolvedBy : Option String
  resolutionNote : Option String
deriving DecidableEq, Repr

structure RoleBinding where
  subjectType : String
  subjectId : String
  roleName : String
  scopeType : String
  scopeId : String
  grantedBy : Option String
deriving DecidableEq, Repr

structure OutboxEvent where
  eventType : String
  requestId : String
  requesterId : String
  targetType : String
  targetId : String
  requestedRole : String
  actorId : String
  note : Option String
deriving DecidableEq, Repr

inductive Verdict where
  | approve
  | deny
deriving DecidableEq, Repr

def Verdict.status : Verdict → RequestStatus
  | .approve => .approved
  | .deny => .denied

structure Call where
  verdict : Verdict
  admin : String
  note : Option String
deriving DecidableEq, Repr

/-- What the reads of the roles have found. -/
inductive RoleCheck where
  | missing
  | unbindable
  | bindable
deriving DecidableEq, Repr

inductive Outcome where
  | resolved
  | conflict (detail : String)
  | badRequest (detail : String)
  | forbidden (detail : String)
  | integrityError
  | rolledBack
deriving DecidableEq, Repr

/-- A call by what it does next, with the binding that it has inserted. -/
inductive Session where
  | begun (call : Call)
  | loaded (call : Call)
  | authorized (call : Call)
  | checked (call : Call)
  | unbound (call : Call)
  | resolving (call : Call) (inserted : Option RoleBinding)
  | flushing (call : Call) (inserted : Option RoleBinding)
  | updated (call : Call) (inserted : Option RoleBinding)
  | ended (outcome : Outcome)
deriving DecidableEq, Repr

/-- A call that has committed, with the binding that it has inserted. -/
structure Commit where
  session : Nat
  verdict : Verdict
  inserted : Option RoleBinding
deriving DecidableEq, Repr

/-- The request, the binding with its unique key, the outbox and the calls. -/
structure Workflow where
  request : AccessRequest
  binding : Option RoleBinding
  outbox : List OutboxEvent
  sessions : List Session
  commits : List Commit

inductive Event where
  | call (call : Call)
  | load (session : Nat)
  | authorize (session : Nat) (admin : Bool)
  | checkRole (session : Nat) (check : RoleCheck)
  | findBinding (session : Nat)
  | createBinding (session : Nat)
  | resolve (session : Nat)
  | flush (session : Nat)
  | commit (session : Nat)
  | rollback (session : Nat)
deriving DecidableEq, Repr

/-- `str.isspace`. -/
def isSpace (char : Char) : Bool :=
  let code := char.toNat
  (9 ≤ code && code ≤ 13) || (28 ≤ code && code ≤ 32) || (8192 ≤ code && code ≤ 8202) ||
    code ∈ [133, 160, 5760, 8232, 8233, 8239, 8287, 12288]

def strip (text : String) : String :=
  String.ofList (((text.toList.dropWhile isSpace).reverse.dropWhile isSpace).reverse)

def Call.storedNote (call : Call) : Option String := (call.note.map strip).filter (· ≠ "")

namespace AccessRequest

variable (request : AccessRequest) (call : Call)

/-- The UPDATE of `resolve`.  The note of a pending request is empty. -/
def resolved : AccessRequest :=
  { request with
    status := call.verdict.status
    resolvedBy := some call.admin
    resolutionNote := call.storedNote.or request.resolutionNote }

def newBinding : RoleBinding where
  subjectType := "user"
  subjectId := request.requesterId
  roleName := request.requestedRole
  scopeType := "workspace"
  scopeId := request.targetId
  grantedBy := some call.admin

def outboxEvent : OutboxEvent where
  eventType :=
    match call.verdict with
    | .approve => "rbac.access_request.approved"
    | .deny => "rbac.access_request.denied"
  requestId := request.id
  requesterId := request.requesterId
  targetType := request.targetType
  targetId := request.targetId
  requestedRole := request.requestedRole
  actorId := call.admin
  note :=
    match call.verdict with
    | .approve => none
    | .deny => call.storedNote

def missingRoleText : String := "Role '" ++ request.requestedRole ++ "' no longer exists."

def unbindableText : String :=
  "Role '" ++ request.requestedRole ++ "' is no longer bindable in this workspace."

def resolvedText : String :=
  "Cannot resolve request '" ++ request.id ++ "': already " ++ request.status.text

end AccessRequest

def Session.holdsRequest : Session → Bool
  | .updated _ _ => true
  | _ => false

def Session.holdsBinding : Session → Bool
  | .resolving _ inserted | .flushing _ inserted | .updated _ inserted => inserted.isSome
  | _ => false

def Session.isOpen : Session → Bool
  | .ended _ => false
  | _ => true

namespace Workflow

variable (workflow : Workflow)

def start (request : AccessRequest) (binding : Option RoleBinding) : Workflow :=
  ⟨request, binding, [], [], []⟩

def setSession (id : Nat) (session : Session) : Workflow :=
  { workflow with sessions := workflow.sessions.set id session }

/-- The checks of `_load_pending_for_admin` before it looks at the permissions. -/
def load (call : Call) : Session :=
  if workflow.request.status ≠ .pending then
    .ended (.conflict ("Access request already " ++ workflow.request.status.text))
  else if workflow.request.targetType ≠ "workspace" then
    .ended (.badRequest "Only workspace requests are resolvable")
  else .loaded call

def authorize (call : Call) (admin : Bool) : Session :=
  if admin then
    match call.verdict with
    | .approve => .authorized call
    | .deny => .resolving call none
  else .ended (.forbidden "workspace:admin required")

def checkRole (call : Call) : RoleCheck → Session
  | .missing => .ended (.badRequest workflow.request.missingRoleText)
  | .unbindable => .ended (.badRequest workflow.request.unbindableText)
  | .bindable => .checked call

def findBinding (call : Call) : Session :=
  if workflow.binding.isSome then .resolving call none else .unbound call

/-- An INSERT after the commit of a binding with the same key fails. -/
def createBinding (call : Call) : Session :=
  if workflow.binding.isSome then .ended .integrityError
  else .resolving call (some (workflow.request.newBinding call))

/-- The check of `resolve`.  The endpoint of an approval still holds the row that it has
found pending; that of a denial does not. -/
def resolve (call : Call) (inserted : Option RoleBinding) : Session :=
  if call.verdict = .deny ∧ workflow.request.status ≠ .pending then
    .ended (.badRequest workflow.request.resolvedText)
  else .flushing call inserted

def committed (id : Nat) (call : Call) (inserted : Option RoleBinding) : Workflow where
  request := workflow.request.resolved call
  binding := inserted.or workflow.binding
  outbox := workflow.outbox ++ [workflow.request.outboxEvent call]
  sessions := workflow.sessions.set id (.ended .resolved)
  commits := workflow.commits ++ [⟨id, call.verdict, inserted⟩]

def step : Event → Option Workflow
  | .call call => some { workflow with sessions := workflow.sessions ++ [.begun call] }
  | .load id =>
      match workflow.sessions[id]? with
      | some (.begun call) => some (workflow.setSession id (workflow.load call))
      | _ => none
  | .authorize id admin =>
      match workflow.sessions[id]? with
      | some (.loaded call) => some (workflow.setSession id (authorize call admin))
      | _ => none
  | .checkRole id check =>
      match workflow.sessions[id]? with
      | some (.authorized call) => some (workflow.setSession id (workflow.checkRole call check))
      | _ => none
  | .findBinding id =>
      match workflow.sessions[id]? with
      | some (.checked call) => some (workflow.setSession id (workflow.findBinding call))
      | _ => none
  | .createBinding id =>
      match workflow.sessions[id]? with
      | some (.unbound call) =>
          if workflow.sessions.any Session.holdsBinding then none
          else some (workflow.setSession id (workflow.createBinding call))
      | _ => none
  | .resolve id =>
      match workflow.sessions[id]? with
      | some (.resolving call inserted) =>
          some (workflow.setSession id (workflow.resolve call inserted))
      | _ => none
  | .flush id =>
      match workflow.sessions[id]? with
      | some (.flushing call inserted) =>
          if workflow.sessions.any Session.holdsRequest then none
          else some (workflow.setSession id (.updated call inserted))
      | _ => none
  | .commit id =>
      match workflow.sessions[id]? with
      | some (.updated call inserted) => some (workflow.committed id call inserted)
      | _ => none
  | .rollback id =>
      workflow.sessions[id]?.bind fun session =>
        if session.isOpen then some (workflow.setSession id (.ended .rolledBack)) else none

end Workflow

end Univiz.Access

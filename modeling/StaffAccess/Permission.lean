import StaffAccess.Context
import StaffAccess.Policy

/-!
# Permission checks

Whether a user may do something to a business object. The matrix of the object decides first.
A caller can name the circumstances in a request context, which can only add denials: school
staff are confined to their own establishment, and the management of users and of inspections
have rules of their own. Whatever goes wrong on the way is a denial as well.

* `Permission.judge`: the decision for a loaded security context.
* `Permission.check`, `Permission.checkMany`, `Permission.require`: the same for a context that
  may have failed to load.
* `Permission.matrixOn`, `Permission.accessible`: the permissions themselves.
-/

namespace StaffAccess.Permission

/-- Why something is not allowed. -/
inductive Denial
  /-- The user has no permissions on the object. -/
  | noEntry (object : Value)
  /-- The user's permissions do not include the action. -/
  | notGranted (action : Action) (object : Value)
  /-- School staff ask for another establishment. -/
  | otherEstablishment
  /-- Users ask to delete themselves. -/
  | ownAccount
  /-- Ministry staff ask to manage somebody who is not below them. -/
  | notSubordinate
  /-- School staff ask for an inspection. -/
  | ministryOnly
  /-- The role may not approve inspections. -/
  | notApprover
  /-- The decision could not be computed. -/
  | unavailable
  deriving Repr

/-- The words for a decision that could not be computed. -/
def unavailableMessage : String := "Security evaluation unavailable"

/-- The words for a denial. -/
def Denial.message : Denial → String
  | noEntry object => "no permission entry for object " ++ object.display
  | notGranted action object =>
    "permission " ++ action.word ++ " denied for object " ++ object.display
  | otherEstablishment => "access is limited to your own establishment"
  | ownAccount => "you cannot delete your own account"
  | notSubordinate => "management is limited to your direct subordinates"
  | ministryOnly => "inspections are reserved to ministry staff"
  | notApprover => "only inspectors and senior staff can approve inspections"
  | unavailable => unavailableMessage

/-- A decision. -/
inductive Decision
  /-- It may be done. -/
  | allowed
  /-- It may not be done. -/
  | denied (reason : Denial)
  deriving Repr

namespace Decision

/-- Whether it may be done. -/
def isAllowed : Decision → Bool
  | allowed => true
  | denied _ => false

/-- The words for a denial. -/
def reason : Decision → Option String
  | allowed => none
  | denied reason => some reason.message

/-- A denial if a condition holds. -/
def denyIf (condition : Bool) (reason : Denial) : Decision :=
  if condition then denied reason else allowed

@[simp] theorem isAllowed_denyIf (condition : Bool) (reason : Denial) :
    (denyIf condition reason).isAllowed = !condition := by cases condition <;> rfl

end Decision

open Decision

/-! ## Decisions -/

/-- The entries of a request context that name a tenant. -/
def tenantKeys : List String := ["tenant_id", "establishment_id"]

/-- Whether an entry of the request context names a tenant other than the user's. -/
def namesOther (ctx : SecurityContext) (request : Value) (key : String) :
    Except Fault Bool := do
  let requested ← request.fieldD key
  return !requested.isNull && !requested.same ctx.tenantId

/-- School staff may name their own establishment only. -/
def judgeTenant (ctx : SecurityContext) (request : Value) : Except Fault Decision := do
  if ctx.scope = .school then
    return denyIf (← tenantKeys.anyM (namesOther ctx request)) .otherEstablishment
  else return allowed

/-- Whether the user may manage all users. -/
def managesAllUsers (policy : Policy) (ctx : SecurityContext) : Bool :=
  (ctx.permissionsOn policy.objects.globalUserManagement).read

/-- Nobody deletes their own account, and ministry staff change and delete only their direct
    subordinates unless they manage all users. -/
def judgeUserManagement (policy : Policy) (ctx : SecurityContext) (action : Action)
    (request : Value) : Except Fault Decision := do
  let target ← request.fieldD "target_user_id"
  if target.isNull then return allowed
  else if action = .delete ∧ target.same (.text ctx.userId) then return denied .ownAccount
  else if ctx.scope = .ministry ∧ (action = .write ∨ action = .delete) then
    return denyIf (!ctx.subordinateIds.any (·.same target) && !managesAllUsers policy ctx)
      .notSubordinate
  else return allowed

/-- Inspections are for ministry staff, and their approval for some roles. -/
def judgeInspection (policy : Policy) (ctx : SecurityContext) (action : Action) : Decision :=
  if ctx.scope ≠ .ministry then denied .ministryOnly
  else denyIf (action = .approve && !policy.roles.inspectionApprovers.contains ctx.userType)
    .notApprover

/-- The rules that an object has of its own. -/
def judgeObject (policy : Policy) (ctx : SecurityContext) (object : Value) (action : Action)
    (request : Value) : Except Fault Decision :=
  if object.same (.text policy.objects.inspection) then
    .ok (judgeInspection policy ctx action)
  else if object.same (.text policy.objects.userManagement) then
    judgeUserManagement policy ctx action request
  else .ok allowed

/-- The decision for a security context: the matrix, then the tenant, then the object. A request
    context that does not count as given adds nothing. -/
def judge (policy : Policy) (ctx : SecurityContext) (object : Value) (action : Action)
    (request : Value) : Except Fault Decision := do
  match ← ctx.permissions.find object with
  | none => return denied (.noEntry object)
  | some granted =>
    if !granted.allows action then return denied (.notGranted action object)
    else if !request.truthy then return allowed
    else match ← judgeTenant ctx request with
      | allowed => judgeObject policy ctx object action request
      | denial => return denial

/-! ## Checks -/

/-- The answer of a computation, or that it is unavailable. -/
def orUnavailable : Except Fault Decision → Decision
  | .ok decision => decision
  | .error _ => denied .unavailable

/-- The decision for a context that may have failed to load, and for an action that may be
    unknown. -/
def check (policy : Policy) (loaded : Except Fault SecurityContext)
    (object action request : Value) : Decision :=
  orUnavailable do judge policy (← loaded) object (← Action.ofValue action) request

/-- The decision, with a denial raised. -/
def require (policy : Policy) (loaded : Except Fault SecurityContext)
    (object action request : Value) : Except Fault Unit :=
  match check policy loaded object action request with
  | allowed => .ok ()
  | denied reason => .error (.permissionDenied reason.message)

/-- One of several checks. -/
structure Check where
  /-- The business object. -/
  object : Value
  /-- The action. -/
  action : Value
  /-- The request context. -/
  request : Value
  deriving Repr

/-- The key under which the decision on a check is found. -/
def Check.key (c : Check) : String := c.object.display ++ "." ++ c.action.display

/-- The decision on one check for a context that has loaded. -/
def Check.judge (c : Check) (policy : Policy) (ctx : SecurityContext) : Except Fault Decision := do
  Permission.judge policy ctx c.object (← Action.ofValue c.action) c.request

/-- The decisions on several checks. A check that faults is denied, and those after it go on; if
    the context has not loaded, all are denied. Of two checks of one key, the last one counts. -/
def checkMany (policy : Policy) (loaded : Except Fault SecurityContext) (checks : List Check) :
    OrderedMap String Decision :=
  match loaded with
  | .ok ctx =>
    checks.foldl (fun results c => results.put c.key (orUnavailable (c.judge policy ctx))) .empty
  | .error _ =>
    checks.foldl (fun results c => results.put c.key (.denied .unavailable)) .empty

/-! ## Permissions -/

/-- The permissions on an object; none where they cannot be told. -/
def matrixOn (loaded : Except Fault SecurityContext) (object : Value) : PermissionMatrix :=
  match (do (← loaded).permissions.find object : Except Fault (Option PermissionMatrix)) with
  | .ok (some granted) => granted
  | _ => .none

/-- The names of the objects on which anything is granted, sorted; none where they cannot be
    told. -/
def accessible : Except Fault SecurityContext → List String
  | .ok ctx =>
    let objects := (ctx.permissions.entries.filter fun e => e.2.any).map Prod.fst
    objects.mergeSort fun a b => decide (a ≤ b)
  | .error _ => []

end StaffAccess.Permission

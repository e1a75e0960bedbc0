import StaffAccess.Checked
import StaffAccess.Context
import StaffAccess.Ui.Flags

/-!
# Conditions on elements

What the conditions of a rule for elements can say, and what they leave of an element for a user
and a record. Each condition that is given must be satisfied; a condition on the record is void
where the caller names no record or the record lacks the entry.

* `UiConditions`: the conditions, read by `UiConditions.check`.
* `UiConditions.flags`: what they leave.
-/

namespace StaffAccess

/-- Conditions on the status of a record. -/
structure RecordStatusCondition where
  /-- The statuses of visible records; any if there are none. -/
  allowed : List String := []
  /-- The statuses of hidden records. -/
  forbidden : List String := []
  /-- The statuses of records that are read-only. -/
  readOnlyWhen : List String := []
  deriving Repr, DecidableEq

/-- Conditions on the record that an element belongs to. -/
structure RecordCondition where
  /-- It must be the user's own. -/
  ownOnly : Bool := false
  /-- For school staff, it must be of the same establishment. -/
  sameEstablishmentOnly : Bool := false
  /-- Its status. -/
  status : Option RecordStatusCondition := none
  deriving Repr, DecidableEq

/-- The conditions of a rule for elements. -/
structure UiConditions where
  /-- The user types, of which the user's must be one. -/
  userTypes : Option (List String) := none
  /-- The scopes, of which the user's must be one. -/
  scopes : Option (List Scope) := none
  /-- The grants on some objects that the user must have. -/
  permissions : Option (List (String × List (Action × Bool))) := none
  /-- Whether the user must have subordinates. -/
  subordinates : Option Bool := none
  /-- The record. -/
  record : Option RecordCondition := none
  /-- The pages on which the rule is listed. -/
  pages : Option (List String) := none
  deriving Repr, DecidableEq

open Checked

/-! ## Reading -/

/-- The conditions in a record. -/
def RecordStatusCondition.check : Value → Checked RecordStatusCondition :=
  recordOf fun f =>
    RecordStatusCondition.mk
      <$> entry f "allowed" (listOf string) []
      <*> entry f "forbidden" (listOf string) []
      <*> entry f "read_only_when" (listOf string) []

/-- The conditions in a record. -/
def RecordCondition.check : Value → Checked RecordCondition :=
  recordOf fun f =>
    RecordCondition.mk
      <$> entry f "own_record_only" flag false
      <*> entry f "same_establishment_only" flag false
      <*> entry f "record_status" (optional RecordStatusCondition.check) none

/-- Whether subordinates are required, in a record. -/
def checkSubordinates : Value → Checked Bool :=
  recordOf fun f => entry f "requires_subordinates" flag false

/-- The conditions in the entries of a record. -/
def UiConditions.check (f : Fields) : Checked UiConditions :=
  UiConditions.mk
    <$> entry f "user_types" (optional (listOf string)) none
    <*> entry f "user_scopes" (optional (listOf (word Scope.ofWord?))) none
    <*> entry f "required_permissions"
      (optional (mapOf .valid (mapOf (fun name => word Action.ofWord? (.text name)) flag))) none
    <*> entry f "hierarchy_level" (optional checkSubordinates) none
    <*> entry f "contextual" (optional RecordCondition.check) none
    <*> entry f "pages" (optional (listOf string)) none

/-! ## Evaluation -/

/-- Whether a user has the required grants on an object; there must be an entry for it. -/
def SecurityContext.grants (ctx : SecurityContext) (object : String)
    (required : List (Action × Bool)) : Bool :=
  match ctx.permissions.get? object with
  | none => false
  | some granted => required.all fun (a, needed) => !needed || granted.allows a

/-- Whether a record has a status that a list of words names. -/
def statusIn (status : Value) (words : List String) : Bool :=
  words.any fun w => status.same (.text w)

namespace RecordStatusCondition

/-- Whether a record of some status is visible. -/
def admits (condition : RecordStatusCondition) (status : Value) : Bool :=
  (condition.allowed.isEmpty || statusIn status condition.allowed) &&
    (condition.forbidden.isEmpty || !statusIn status condition.forbidden)

end RecordStatusCondition

namespace RecordCondition

/-- What the conditions leave for a record. -/
def flags (condition : RecordCondition) (ctx : SecurityContext) (record : Value) :
    Except Fault Flags := do
  if !record.truthy then return .unrestricted
  let owner ← record.fieldD "record_owner_id"
  let establishment ← record.fieldD "record_establishment_id"
  let status ← record.fieldD "record_status"
  let ownerFits := !condition.ownOnly || owner.isNull || owner.same (.text ctx.userId)
  let establishmentFits := !condition.sameEstablishmentOnly || establishment.isNull ||
    ctx.scope ≠ .school || establishment.same ctx.tenantId
  match condition.status with
  | some statuses =>
    if status.isNull then return .shown (ownerFits && establishmentFits)
    else return ⟨ownerFits && establishmentFits && statuses.admits status, true,
      statusIn status statuses.readOnlyWhen⟩
  | none => return .shown (ownerFits && establishmentFits)

end RecordCondition

namespace UiConditions

/-- Whether a user satisfies the conditions that are not about the record. -/
def admits (conditions : UiConditions) (ctx : SecurityContext) : Bool :=
  conditions.userTypes.all (·.contains ctx.userType) &&
    conditions.scopes.all (·.contains ctx.scope) &&
    conditions.permissions.all (·.all fun (object, required) => ctx.grants object required) &&
    conditions.subordinates.all fun needed => !needed || !ctx.subordinateIds.isEmpty

/-- What the conditions leave for a user and a record. -/
def flags (conditions : UiConditions) (ctx : SecurityContext) (record : Value) :
    Except Fault Flags := do
  let ofRecord ← match conditions.record with
    | some condition => condition.flags ctx record
    | none => pure .unrestricted
  return (Flags.shown (conditions.admits ctx)).both ofRecord

/-- Whether the conditions keep a rule off a page. Without a page, none does. -/
def excludes (conditions : UiConditions) (page : Value) : Bool :=
  page.truthy && conditions.pages.any fun pages => !pages.any fun p => page.same (.text p)

end UiConditions

/-- The conditions of a rule, none if it has none. -/
def UiRule.parsedConditions (r : UiRule) : Except Fault (Option UiConditions) :=
  match r.conditions with
  | .null => .ok none
  | v => do return some (← (UiConditions.check (← v.toFields)).toExcept)

end StaffAccess

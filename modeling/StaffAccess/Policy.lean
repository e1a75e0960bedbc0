import StaffAccess.Checked

/-!
# Policies

What an installation decides once for all users: the names of the business objects that have
rules of their own, the roles with special rights, and the objects reserved to the ministry.
Everything has a default.

* `Policy`: the settings.
* `Policy.ofValue`, `Policy.toValue`: their written form.
-/

namespace StaffAccess

/-- The names of the business objects that have rules of their own. -/
structure ObjectNames where
  /-- Establishments. -/
  establishment : String := "etablissement.management"
  /-- Users. -/
  userManagement : String := "user.management"
  /-- Inspections. -/
  inspection : String := "inspection.management"
  /-- Users beyond one's own subordinates. -/
  globalUserManagement : String := "global.user.management"
  deriving DecidableEq, Repr, Inhabited

/-- The user types with special rights. -/
structure RoleSets where
  /-- Those who approve inspections. -/
  inspectionApprovers : List String := ["INSPECTOR", "DIRECTOR", "SECRETARY_GENERAL"]
  /-- Those who see financial fields. -/
  financialViewers : List String := ["DIRECTOR", "SECRETARY_GENERAL"]
  /-- Those who see administration menus. -/
  administrators : List String := ["DIRECTOR", "SECRETARY_GENERAL"]
  /-- Those who see the rows of all establishments. -/
  allEstablishments : List String := ["MINISTER", "SECRETARY_GENERAL"]
  /-- Those who see the rows of the establishments of their structure. -/
  structureEstablishments : List String := ["DIRECTOR"]
  /-- Those who are assigned to establishments. -/
  inspectors : List String := ["INSPECTOR"]
  deriving DecidableEq, Repr, Inhabited

/-- The settings of an installation. -/
structure Policy where
  /-- The names of business objects. -/
  objects : ObjectNames := {}
  /-- The roles. -/
  roles : RoleSets := {}
  /-- The objects that school staff can never see. -/
  ministryOnly : List String := ["inspection.management"]
  deriving DecidableEq, Repr, Inhabited

/-! ## Written form -/

namespace ObjectNames

/-- The names in a record. -/
def check : Value → Checked ObjectNames :=
  Checked.recordOf fun f =>
    let byDefault : ObjectNames := {}
    ObjectNames.mk
      <$> Checked.entry f "establishment" .string byDefault.establishment
      <*> Checked.entry f "user_management" .string byDefault.userManagement
      <*> Checked.entry f "inspection" .string byDefault.inspection
      <*> Checked.entry f "global_user_management" .string byDefault.globalUserManagement

/-- The record of the names. -/
def toValue (names : ObjectNames) : Value :=
  .record
    [("establishment", .text names.establishment),
     ("user_management", .text names.userManagement),
     ("inspection", .text names.inspection),
     ("global_user_management", .text names.globalUserManagement)]

end ObjectNames

/-- The list of some texts. -/
def Value.ofTexts (texts : List String) : Value := .list (texts.map .text)

namespace RoleSets

/-- The roles in a record. -/
def check : Value → Checked RoleSets :=
  Checked.recordOf fun f =>
    let byDefault : RoleSets := {}
    let types := Checked.listOf Checked.string
    RoleSets.mk
      <$> Checked.entry f "inspection_approvers" types byDefault.inspectionApprovers
      <*> Checked.entry f "financial_viewers" types byDefault.financialViewers
      <*> Checked.entry f "administrators" types byDefault.administrators
      <*> Checked.entry f "all_establishments" types byDefault.allEstablishments
      <*> Checked.entry f "structure_establishments" types byDefault.structureEstablishments
      <*> Checked.entry f "inspectors" types byDefault.inspectors

/-- The record of the roles. -/
def toValue (roles : RoleSets) : Value :=
  .record
    [("inspection_approvers", .ofTexts roles.inspectionApprovers),
     ("financial_viewers", .ofTexts roles.financialViewers),
     ("administrators", .ofTexts roles.administrators),
     ("all_establishments", .ofTexts roles.allEstablishments),
     ("structure_establishments", .ofTexts roles.structureEstablishments),
     ("inspectors", .ofTexts roles.inspectors)]

end RoleSets

namespace Policy

/-- The policy in a record. -/
def check : Value → Checked Policy :=
  Checked.recordOf fun f =>
    let byDefault : Policy := {}
    Policy.mk
      <$> Checked.entry f "objects" ObjectNames.check byDefault.objects
      <*> Checked.entry f "roles" RoleSets.check byDefault.roles
      <*> Checked.entry f "ministry_only_objects" (Checked.listOf Checked.string)
        byDefault.ministryOnly

/-- The policy that a value stands for. -/
def ofValue (v : Value) : Except Fault Policy := (check v).toExcept

/-- The record of a policy. -/
def toValue (policy : Policy) : Value :=
  .record
    [("objects", policy.objects.toValue), ("roles", policy.roles.toValue),
     ("ministry_only_objects", .ofTexts policy.ministryOnly)]

/-- Whether an object is reserved to the ministry. -/
def isMinistryOnly (policy : Policy) (object : Value) : Bool :=
  policy.ministryOnly.any fun name => object.same (.text name)

end Policy

end StaffAccess

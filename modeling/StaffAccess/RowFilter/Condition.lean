import StaffAccess.Checked
import StaffAccess.Context

/-!
# Rule conditions

What the condition of a row rule can say, by the kind of the rule: which fields of a record are
looked at, and which restrictions are switched on. Entries of other names are ignored.

* `HierarchyCondition`, `GeographyCondition`, `OwnershipCondition`, `TenantCondition`,
  `CustomCondition`: the conditions, each with a `check`.
* `VisibilityRule.conditionAs`: the condition of a rule, read as one of a kind.
-/

namespace StaffAccess

/-- For rules of the kind `hierarchy`. -/
structure HierarchyCondition where
  /-- The field that holds a user. -/
  field : String := "created_by_id"
  deriving Repr, DecidableEq

/-- For rules of the kind `geography`. -/
structure GeographyCondition where
  /-- Whether ministry staff are restricted to their structure. -/
  byStructure : Bool := false
  /-- Whether school staff are restricted to their establishment. -/
  byEstablishment : Bool := false
  /-- The field that holds a structure. -/
  structureField : String := "structure_id"
  /-- The field that holds an establishment. -/
  establishmentField : String := "establishment_id"
  deriving Repr, DecidableEq

/-- For rules of the kind `ownership`. -/
structure OwnershipCondition where
  /-- Whether the rows that the user created are included. -/
  created : Bool := false
  /-- Whether the rows that the user modified are included. -/
  modified : Bool := false
  /-- Whether the rows assigned to the user are included. -/
  assigned : Bool := false
  /-- The field that holds who created a row. -/
  createdField : String := "created_by_id"
  /-- The field that holds who modified a row. -/
  modifiedField : String := "modified_by_id"
  /-- The field that holds whom a row is assigned to. -/
  assignedField : String := "assigned_to_id"
  deriving Repr, DecidableEq

/-- For rules of the kind `tenant`. -/
structure TenantCondition where
  /-- The field that holds an establishment. -/
  field : String := "establishment_id"
  /-- Whether ministry staff see what their role lets them see of several establishments. -/
  severalEstablishments : Bool := false
  /-- The field that holds a structure. -/
  structureField : String := "structure_id"
  deriving Repr, DecidableEq

/-- For rules of the kind `custom`. -/
structure CustomCondition where
  /-- Whether the heads of structures see the establishments of theirs. -/
  byStructure : Bool := false
  /-- Whether inspectors see the establishments assigned to them. -/
  byAssignment : Bool := false
  /-- The field that holds a structure. -/
  structureField : String := "structure_id"
  /-- The field that holds the inspector of an establishment. -/
  inspectorField : String := "assigned_inspector_id"
  /-- The field that holds the inspector in charge of an inspection. -/
  principalInspectorField : String := "principal_inspector_id"
  /-- Whether ministry staff see the users of the ministry. -/
  ministryUsers : Bool := false
  /-- The field that holds the scope of a user. -/
  scopeField : String := "scope"
  /-- The field that holds an establishment. -/
  establishmentField : String := "establishment_id"
  /-- A predicate document. -/
  filter : Option Fields := none
  deriving Repr

open Checked

/-- The condition in the entries of a record. -/
def HierarchyCondition.check (f : Fields) : Checked HierarchyCondition :=
  let byDefault : HierarchyCondition := {}
  HierarchyCondition.mk <$> entry f "field" string byDefault.field

/-- The condition in the entries of a record. -/
def GeographyCondition.check (f : Fields) : Checked GeographyCondition :=
  let byDefault : GeographyCondition := {}
  GeographyCondition.mk
    <$> entry f "restrict_by_structure" flag byDefault.byStructure
    <*> entry f "restrict_by_establishment" flag byDefault.byEstablishment
    <*> entry f "structure_field" string byDefault.structureField
    <*> entry f "establishment_field" string byDefault.establishmentField

/-- The condition in the entries of a record. -/
def OwnershipCondition.check (f : Fields) : Checked OwnershipCondition :=
  let byDefault : OwnershipCondition := {}
  OwnershipCondition.mk
    <$> entry f "include_created" flag byDefault.created
    <*> entry f "include_modified" flag byDefault.modified
    <*> entry f "include_assigned" flag byDefault.assigned
    <*> entry f "created_field" string byDefault.createdField
    <*> entry f "modified_field" string byDefault.modifiedField
    <*> entry f "assigned_field" string byDefault.assignedField

/-- The condition in the entries of a record. -/
def TenantCondition.check (f : Fields) : Checked TenantCondition :=
  let byDefault : TenantCondition := {}
  TenantCondition.mk
    <$> entry f "field" string byDefault.field
    <*> entry f "allow_multiple_establishments" flag byDefault.severalEstablishments
    <*> entry f "structure_field" string byDefault.structureField

/-- The condition in the entries of a record. -/
def CustomCondition.check (f : Fields) : Checked CustomCondition :=
  let byDefault : CustomCondition := {}
  CustomCondition.mk
    <$> entry f "restrict_by_structure" flag byDefault.byStructure
    <*> entry f "restrict_by_assignment" flag byDefault.byAssignment
    <*> entry f "structure_field" string byDefault.structureField
    <*> entry f "inspector_field" string byDefault.inspectorField
    <*> entry f "principal_inspector_field" string byDefault.principalInspectorField
    <*> entry f "allow_ministry_users" flag byDefault.ministryUsers
    <*> entry f "scope_field" string byDefault.scopeField
    <*> entry f "establishment_field" string byDefault.establishmentField
    <*> entry f "where" (optional fields) byDefault.filter

/-- The condition of a rule, read as one of a kind. -/
def VisibilityRule.conditionAs {α : Type} (r : VisibilityRule) (check : Fields → Checked α) :
    Except Fault α := do
  match check (← r.condition.toFields) with
  | .valid condition => return condition
  | .wrong n => throw (.malformedRule (.invalidCondition r.kind (n + 1)))

end StaffAccess

import StaffAccess.Policy
import StaffAccess.Predicate.Document
import StaffAccess.RowFilter.Condition

/-!
# Row filters

Which rows of a business object a user sees. Each rule of the object either does not apply or
gives a predicate, and a row is visible that satisfies one of these. Without a predicate all
rows are visible; if anything goes wrong, none is.

* `VisibilityRule.predicate`: what one rule gives.
* `RowFilter.ofContext`: the filter of an object, which fails on malformed rules.
* `RowFilter.compile`: the same for a context that may have failed to load; it hides all rows
  instead of failing.
-/

namespace StaffAccess

/-! ## Rules -/

namespace VisibilityRule

/-- The user and the user's direct subordinates. -/
def ownTeam (ctx : SecurityContext) : List Value := .text ctx.userId :: ctx.subordinateIds

/-- Rows of the user's team, for users who have a place in the hierarchy. -/
def byHierarchy (r : VisibilityRule) (ctx : SecurityContext) :
    Except Fault (Option Predicate) := do
  if ctx.hierarchy.isNone then return none
  let condition ← r.conditionAs HierarchyCondition.check
  return some (← Predicate.fieldIn condition.field (ownTeam ctx))

/-- Rows of the user's structure or establishment. -/
def byGeography (r : VisibilityRule) (ctx : SecurityContext) :
    Except Fault (Option Predicate) := do
  let condition ← r.conditionAs GeographyCondition.check
  if ctx.tenantId.isNull then return none
  else if ctx.scope = .ministry ∧ condition.byStructure then
    return some (.equals condition.structureField ctx.tenantId)
  else if ctx.scope = .school ∧ condition.byEstablishment then
    return some (.equals condition.establishmentField ctx.tenantId)
  else return none

/-- The fields of an ownership condition that are switched on. -/
def ownerFields (condition : OwnershipCondition) : List String :=
  [(condition.created, condition.createdField), (condition.modified, condition.modifiedField),
    (condition.assigned, condition.assignedField)].filterMap fun (enabled, field) =>
      if enabled then some field else none

/-- Rows that the user created, modified or is assigned to. -/
def byOwnership (r : VisibilityRule) (ctx : SecurityContext) :
    Except Fault (Option Predicate) := do
  match ownerFields (← r.conditionAs OwnershipCondition.check) with
  | [] => return none
  | fields => return some (.anyOf (fields.map fun name => .equals name (.text ctx.userId)))

/-- Rows of the user's tenant. Ministry staff are restricted only if the rule is about several
    establishments, and then by their role. -/
def byTenant (r : VisibilityRule) (ctx : SecurityContext) (policy : Policy) :
    Except Fault (Option Predicate) := do
  let condition ← r.conditionAs TenantCondition.check
  if ctx.scope = .school then
    if ctx.tenantId.isNull then return some .matchNone
    else return some (.equals condition.field ctx.tenantId)
  else if !condition.severalEstablishments then return none
  else if policy.roles.allEstablishments.contains ctx.userType then return some .matchAll
  else if policy.roles.structureEstablishments.contains ctx.userType && !ctx.tenantId.isNull then
    return some (.equals condition.structureField ctx.tenantId)
  else return some .matchNone

/-- Establishments of the user's structure, and those assigned to the user. -/
def ofEstablishments (condition : CustomCondition) (ctx : SecurityContext) (policy : Policy) :
    Option Predicate :=
  let byStructure := condition.byStructure &&
    policy.roles.structureEstablishments.contains ctx.userType && ctx.tenantId.truthy
  let byAssignment := condition.byAssignment && policy.roles.inspectors.contains ctx.userType
  match (if byStructure then [Predicate.equals condition.structureField ctx.tenantId] else []) ++
      (if byAssignment then [.equals condition.inspectorField (.text ctx.userId)] else []) with
  | [] => none
  | parts => some (.anyOf parts)

/-- Inspections led by the user's team; none for school staff. -/
def ofInspections (condition : CustomCondition) (ctx : SecurityContext) :
    Except Fault Predicate :=
  if ctx.scope = .ministry then
    Predicate.fieldIn condition.principalInspectorField (ownTeam ctx)
  else .ok .matchNone

/-- Users of the ministry if the rule says so; for school staff those of the same school. -/
def ofUsers (condition : CustomCondition) (ctx : SecurityContext) : Option Predicate :=
  if ctx.scope = .ministry then
    if condition.ministryUsers then some (.equals condition.scopeField (.text Scope.ministry.word))
    else none
  else if ctx.tenantId.isNull then some .matchNone
  else some (.equals condition.establishmentField ctx.tenantId)

/-- The predicate of a document; a refused document makes the rule malformed. -/
def ofDocument (object : String) (document : Fields) : Except Fault Predicate :=
  match Predicate.ofValue (.record document) with
  | .error (.document cause) => .error (.malformedRule (.invalidDocument object cause))
  | result => result

/-- Rows as the object says, or as the predicate document of the rule does. -/
def byObject (r : VisibilityRule) (ctx : SecurityContext) (object : String) (policy : Policy) :
    Except Fault (Option Predicate) := do
  let condition ← r.conditionAs CustomCondition.check
  if object = policy.objects.userManagement then return ofUsers condition ctx
  else if object = policy.objects.inspection then return some (← ofInspections condition ctx)
  else if object = policy.objects.establishment then return ofEstablishments condition ctx policy
  else match condition.filter with
    | none => return none
    | some document => return some (← ofDocument object document)

/-- What a rule gives for the rows of an object: nothing if it does not apply. -/
def predicate (r : VisibilityRule) (ctx : SecurityContext) (object : String) (policy : Policy) :
    Except Fault (Option Predicate) :=
  match r.kind with
  | .hierarchy => r.byHierarchy ctx
  | .geography => r.byGeography ctx
  | .ownership => r.byOwnership ctx
  | .tenant => r.byTenant ctx policy
  | .custom => r.byObject ctx object policy

end VisibilityRule

/-! ## Filters -/

/-- How much a filter hides. -/
inductive RestrictionLevel
  /-- Nothing. -/
  | none
  /-- Some rows. -/
  | part
  /-- Everything. -/
  | full
  deriving DecidableEq, Repr, Inhabited

namespace RestrictionLevel

/-- The written form of a level. -/
def word : RestrictionLevel → String
  | none => "NONE"
  | part => "PARTIAL"
  | full => "FULL"

/-- The level of a predicate. -/
def ofPredicate : Predicate → RestrictionLevel
  | .matchAll => none
  | .matchNone => full
  | _ => part

end RestrictionLevel

/-- What a user sees of an object. -/
structure RowFilter where
  /-- Satisfied by the rows that are seen. -/
  predicate : Predicate
  /-- How much is hidden. -/
  level : RestrictionLevel
  /-- Why everything is hidden, if it is. -/
  message : Option String
  deriving Repr

namespace RowFilter

/-- The filter that hides nothing. -/
def unrestricted : RowFilter := ⟨.matchAll, .none, none⟩

/-- The filter that hides everything, and why. -/
def denied (message : String) : RowFilter := ⟨.matchNone, .full, some message⟩

/-- The filter of a predicate. -/
def ofPredicate (p : Predicate) : RowFilter := ⟨p, .ofPredicate p, none⟩

/-- The words for an object that school staff never see. -/
def reservedMessage : String := "this object is reserved to ministry staff"

/-- The words for rules that gave no filter. -/
def faultMessage : String := "Security filters could not be compiled"

/-- The filter of some rules: one of those that apply must be satisfied. -/
def ofRules (rules : List VisibilityRule) (ctx : SecurityContext) (object : String)
    (policy : Policy) : Except Fault RowFilter := do
  match (← rules.mapM fun r => r.predicate ctx object policy).filterMap id with
  | [] => return unrestricted
  | parts => return ofPredicate (.anyOf parts)

/-- The filter of an object for a user whose context is known. -/
def ofContext (ctx : SecurityContext) (object : Value) (policy : Policy) :
    Except Fault RowFilter := do
  if policy.isMinistryOnly object ∧ ctx.scope ≠ .ministry then return denied reservedMessage
  else match ← ctx.rowRules.find object, object with
    | some rules, .text name => ofRules rules ctx name policy
    | _, _ => return unrestricted

/-- The filter of an object for a user whose context may have failed to load. -/
def compile (policy : Policy) (loaded : Except Fault SecurityContext) (object : Value) :
    RowFilter :=
  match (do ofContext (← loaded) object policy : Except Fault RowFilter) with
  | .ok filter => filter
  | .error _ => denied faultMessage

/-- Whether a user sees a record. -/
def shows (policy : Policy) (loaded : Except Fault SecurityContext) (object record : Value) :
    Except Fault Bool :=
  (compile policy loaded object).predicate.eval record

end RowFilter

end StaffAccess

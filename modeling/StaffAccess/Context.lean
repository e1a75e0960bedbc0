import StaffAccess.PermissionMatrix

/-!
# Security contexts

All that decides about one user, gathered once: the permissions of the user's groups merged per
business object, the rules for rows and for elements of the user interface, and for ministry
staff the place in the hierarchy. A context is never changed; a new one replaces it.

* `VisibilityRule`: restricts the rows of a business object.
* `UiRule`: shows or hides elements whose names match a pattern.
* `Hierarchy`: the manager and the direct subordinates of a user.
* `SecurityContext`: everything together.
-/

namespace StaffAccess

/-- A rule for the rows of a business object. What its condition means depends on its kind and
    is found out when the rule is used. -/
structure VisibilityRule where
  /-- How it restricts. -/
  kind : RuleKind
  /-- What it restricts to. -/
  condition : Value
  /-- Rules of higher priority come first. -/
  priority : Value
  deriving Repr, Inhabited

/-- A rule for elements of the user interface. -/
structure UiRule where
  /-- The names that the rule is for; a star stands for anything. -/
  pattern : String
  /-- The type of those elements, which need not be a known one. -/
  elementType : String
  /-- Whether they are visible; any value counts by its truth. -/
  visible : Value
  /-- Whether they are enabled; any value counts by its truth. -/
  enabled : Value
  /-- The conditions under which they are visible, null if there are none. -/
  conditions : Value
  deriving Repr, Inhabited

/-- Somebody whose manager a user is. -/
structure Subordinate where
  /-- The id. -/
  id : Value
  /-- The name to show. -/
  displayName : Value
  /-- The number of levels below the manager. -/
  level : Int
  deriving Repr, Inhabited

/-- The place of a user in the hierarchy. -/
structure Hierarchy where
  /-- The manager's id, null if there is none. -/
  managerId : Value
  /-- Those whose manager the user is. -/
  subordinates : List Subordinate
  deriving Repr, Inhabited

/-- All that decides about one user. -/
structure SecurityContext where
  /-- The user's id. -/
  userId : String
  /-- The kind of staff. -/
  scope : Scope
  /-- The role within that kind. -/
  userType : String
  /-- The structure or the school, null if there is none. -/
  tenantId : Value
  /-- The permissions on each business object. -/
  permissions : OrderedMap String PermissionMatrix
  /-- The rules for the rows of each business object. -/
  rowRules : OrderedMap String (List VisibilityRule)
  /-- The rules for elements. -/
  uiRules : List UiRule
  /-- The place in the hierarchy. -/
  hierarchy : Option Hierarchy
  /-- When the context was gathered, in seconds. -/
  lastUpdated : Double

namespace SecurityContext

/-- The ids of the direct subordinates. -/
def subordinateIds (ctx : SecurityContext) : List Value :=
  match ctx.hierarchy with
  | some h => h.subordinates.map Subordinate.id
  | none => []

/-- The permissions on a named object; none if there is no entry. -/
def permissionsOn (ctx : SecurityContext) (object : String) : PermissionMatrix :=
  (ctx.permissions.get? object).getD .none

/-- The rules for the rows of a named object. -/
def rulesOn (ctx : SecurityContext) (object : String) : List VisibilityRule :=
  (ctx.rowRules.get? object).getD []

end SecurityContext

/-- The entry of a value among entries with names: only a text can name one, and lists and
    records cannot be looked up by. -/
def OrderedMap.find {α : Type} (m : OrderedMap String α) : Value → Except Fault (Option α)
  | .text s => .ok (m.get? s)
  | v => if v.isKey then .ok none else .error .wrongType

end StaffAccess

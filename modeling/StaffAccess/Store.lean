import StaffAccess.Context

/-!
# Stores of users and rules

Where users, groups, grants and rules are kept. A store is only read, by seven questions; how it
answers and how an answer can fail is left open in the monad of the answers.

* `UserIdentity`, `PermissionGrant`, `VisibilityRow`, `UiRow`, `SubordinateRow`: the rows.
* `RuleStore`: the questions.
-/

namespace StaffAccess

/-- Who a user is. -/
structure UserIdentity where
  /-- The user's id. -/
  userId : String
  /-- The kind of staff. -/
  scope : Scope
  /-- The role within that kind. -/
  userType : String
  /-- The structure or the school, null if there is none. -/
  tenantId : Value
  /-- Whether the user may do anything at all. -/
  active : Bool
  deriving Repr

/-- What a group may do to a business object. -/
structure PermissionGrant where
  /-- The group. -/
  groupId : Int
  /-- The business object. -/
  object : String
  /-- The grants. -/
  granted : PermissionMatrix
  deriving Repr

/-- A rule of a group for the rows of a business object, as stored. -/
structure VisibilityRow where
  /-- The group. -/
  groupId : Int
  /-- The business object. -/
  object : String
  /-- The kind, which need not be a known one. -/
  kind : Value
  /-- The condition. -/
  condition : Value
  /-- The priority. -/
  priority : Value
  deriving Repr

/-- A rule of a group for elements, as stored. -/
structure UiRow where
  /-- The group. -/
  groupId : Int
  /-- The rule. -/
  rule : UiRule
  deriving Repr

/-- Somebody whose manager a user is, as stored. -/
structure SubordinateRow where
  /-- The id. -/
  id : String
  /-- The name to show. -/
  displayName : String
  deriving Repr

/-- A store of users and rules. -/
structure RuleStore (m : Type → Type) where
  /-- Who a user is; none if the user does not exist. -/
  findIdentity : String → m (Option UserIdentity)
  /-- The groups of a user's active memberships that have not expired. -/
  findMemberships : String → m (List Int)
  /-- What some groups may do. -/
  findPermissions : List Int → m (List PermissionGrant)
  /-- The rules of some groups for rows. -/
  findVisibilityRules : List Int → m (List VisibilityRow)
  /-- The rules of some groups for elements. -/
  findUiRules : List Int → m (List UiRow)
  /-- A user's manager. -/
  findManager : String → m (Option String)
  /-- The active users whose manager a user is. -/
  findSubordinates : String → m (List SubordinateRow)

/-- The same store with its answers carried into another monad. -/
def RuleStore.lift {m n : Type → Type} (f : {α : Type} → m α → n α) (store : RuleStore m) :
    RuleStore n where
  findIdentity user := f (store.findIdentity user)
  findMemberships user := f (store.findMemberships user)
  findPermissions groups := f (store.findPermissions groups)
  findVisibilityRules groups := f (store.findVisibilityRules groups)
  findUiRules groups := f (store.findUiRules groups)
  findManager user := f (store.findManager user)
  findSubordinates user := f (store.findSubordinates user)

/-- The place of a user in the hierarchy: the manager and the direct subordinates. -/
def RuleStore.hierarchyOf {m : Type → Type} [Monad m] (store : RuleStore m) (user : String) :
    m Hierarchy := do
  let manager ← store.findManager user
  let rows ← store.findSubordinates user
  return { managerId := (manager.map Value.text).getD .null
           subordinates := rows.map fun r => ⟨.text r.id, .text r.displayName, 1⟩ }

end StaffAccess

import StaffAccess.Database
import StaffAccess.Store
import StaffAccess.Text.Blank

/-!
# The database as a store of users and rules

The questions of a store answered from the tables as they are at one point in time. A table that
is gone makes a question fail; a row whose contents cannot be used is another fault.

* `Database.ruleStore`: the store.
* `Database.isActiveMembership`: the memberships that count.
-/

namespace StaffAccess.Database

/-- Whether one id comes before another or is the same. -/
def idLe : Value → Value → Bool
  | .int m, .int n => m ≤ n
  | .text s, .text t => s ≤ t
  | _, _ => true

/-- Rows in the order of their ids. -/
def byId (rows : List Row) : List Row :=
  rows.mergeSort fun a b => idLe (a.get "id") (b.get "id")

/-- A question by its name. A fault of the tables is reported under that name. -/
def asking {α : Type} (name : String) : Except Fault α → Except Fault α
  | .error .missingTable => .error (.storeUnavailable (.failed name))
  | .error .statement => .error (.storeUnavailable (.failed name))
  | answer => answer

/-- The first row of a table with an id. -/
def rowWithId? (rows : List Row) (id : Value) : Option Row :=
  rows.find? fun row => (row.get "id").same id

/-! ## Users -/

/-- Who the user of a row is. -/
def identityOf (row : Row) : Except Fault UserIdentity :=
  match Scope.ofWord? (row.text "scope") with
  | some scope => .ok
      { userId := row.text "id"
        scope
        userType := row.text "user_type"
        tenantId := row.get (if scope = .school then "establishment_id" else "structure_id")
        active := row.holds "is_active" }
  | none => .error .badValue

/-- The name to show for the user of a row. -/
def displayName (row : Row) : String :=
  Text.strip (row.text "first_name" ++ " " ++ row.text "last_name")

/-- Whether a row is a user's membership that is active and has not expired. -/
def isActiveMembership (now : Double) (user : String) (row : Row) : Bool :=
  (row.get "user_id").same (.text user) && row.holds "is_active" &&
    match row.get "expires_at", now.toMicros with
    | .int expiry, some present => decide (present ≤ expiry)
    | .null, _ => true
    | _, _ => false

/-! ## Groups -/

/-- Whether a row belongs to one of some groups. -/
def isOfGroups (groups : List Int) (row : Row) : Bool :=
  groups.any fun g => (row.get "group_id").same (.int g)

/-- The rows of some groups with the names of their business objects. Rows without one are left
    out. -/
def withObjects (objects rows : List Row) : List (Row × String) :=
  rows.filterMap fun row =>
    (rowWithId? objects (row.get "business_object_id")).map fun object =>
      (row, object.text "name")

/-- What the group of a row may do. -/
def grantOf (row : Row) (object : String) : PermissionGrant :=
  ⟨row.whole "group_id", object,
    ⟨row.holds "can_read", row.holds "can_write", row.holds "can_create",
     row.holds "can_delete", row.holds "can_approve"⟩⟩

/-- The rule for rows in a row. -/
def visibilityRowOf (row : Row) (object : String) : Except Fault VisibilityRow := do
  let condition := row.get "condition"
  let fields ← if condition.truthy then condition.toFields else pure []
  return { groupId := row.whole "group_id"
           object
           kind := row.get "rule_kind"
           condition := .record fields
           priority := row.get "priority" }

/-- The rule for elements in a row. -/
def uiRowOf (row : Row) : Except Fault UiRow := do
  let conditions ← match row.get "conditions" with
    | .null => pure Value.null
    | v => pure (Value.record (← v.toFields))
  return { groupId := row.whole "group_id"
           rule := { pattern := row.text "element_pattern"
                     elementType := row.text "element_type"
                     visible := row.get "is_visible"
                     enabled := row.get "is_enabled"
                     conditions } }

/-- The rows of some groups in a table that is about business objects, by their ids. Without
    groups nothing is looked up. -/
def groupRows (db : Database) (t : TableName) (groups : List Int) (keep : Row → Bool) :
    Except Fault (List (Row × String)) := do
  if groups.isEmpty then return []
  let rows ← db.rowsOf t
  let objects ← db.rowsOf .objects
  return withObjects objects (byId (rows.filter fun row => isOfGroups groups row && keep row))

/-! ## The store -/

/-- The tables as a store, at a point in time. -/
def ruleStore (db : Database) (now : Double) : RuleStore (Except Fault) where
  findIdentity user := asking "find_user_identity" do
    (rowWithId? (← db.rowsOf .users) (.text user)).mapM identityOf
  findMemberships user := asking "find_active_memberships" do
    let rows := (← db.rowsOf .memberships).filter (isActiveMembership now user)
    return (byId rows).map (·.whole "group_id")
  findPermissions groups := asking "find_permissions" do
    let rows ← db.groupRows .grants groups fun _ => true
    return rows.map fun (row, object) => grantOf row object
  findVisibilityRules groups := asking "find_visibility_rules" do
    let rows ← db.groupRows .rules groups fun row => row.holds "is_active"
    rows.mapM fun (row, object) => visibilityRowOf row object
  findUiRules groups := asking "find_ui_rules" do
    if groups.isEmpty then return []
    (byId ((← db.rowsOf .uiRules).filter (isOfGroups groups))).mapM uiRowOf
  findManager user := asking "find_manager" do
    return (rowWithId? (← db.rowsOf .users) (.text user)).bind fun row =>
      match row.get "manager_id" with
      | .text manager => some manager
      | _ => none
  findSubordinates user := asking "find_direct_subordinates" do
    let rows := (← db.rowsOf .users).filter fun row =>
      (row.get "manager_id").same (.text user) && row.holds "is_active"
    return (byId rows).map fun row => ⟨row.text "id", displayName row⟩

end StaffAccess.Database

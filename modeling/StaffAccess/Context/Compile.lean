import StaffAccess.Store
import StaffAccess.Store.Read

/-!
# Compiling security contexts

A security context is gathered from the rows behind a user: first who the user is, then the
groups, then everything that the groups grant and rule, read at once. Either every read returns
and every row can be used, or there is no context.

* `SecurityContext.ofGrants`, `SecurityContext.ofRuleRows`: rows taken together by object.
* `SecurityContext.compile`: the context of a user.
-/

namespace StaffAccess.SecurityContext

/-! ## Taking rows together -/

/-- The permissions per business object, merged from all grants on it. -/
def ofGrants (grants : List PermissionGrant) : OrderedMap String PermissionMatrix :=
  grants.foldl (fun merged g =>
    merged.put g.object <| match merged.get? g.object with
      | some granted => granted.merge g.granted
      | none => g.granted) .empty

/-- The rule of a row. Its kind must be known and its condition a record. -/
def ruleOfRow (row : VisibilityRow) : Except Fault VisibilityRule :=
  let kind? := match row.kind with
    | .text word => RuleKind.ofWord? word
    | _ => none
  match kind?, row.condition with
  | none, _ => .error (.malformedRule (.unknownKind row.kind row.object))
  | some kind, .record condition =>
    .ok { kind, condition := .record condition, priority := row.priority }
  | some _, _ => .error (.malformedRule (.conditionNotRecord row.object))

/-- The exact size of a priority, which must be a number. -/
def prioritySize (r : VisibilityRule) : Except Fault Quantity :=
  match r.priority.quantity? with
  | some q => .ok q
  | none => .error .wrongType

/-- Rules by descending priority. Rules of one priority stay in order. -/
def byPriority (rules : List VisibilityRule) : Except Fault (List VisibilityRule) := do
  let sized ← rules.mapM fun r => do return (← prioritySize r, r)
  return (sized.mergeSort fun a b => b.1.le a.1).map Prod.snd

/-- Adds a rule to those of its object. -/
def addRule (grouped : OrderedMap String (List VisibilityRule)) (object : String)
    (rule : VisibilityRule) : OrderedMap String (List VisibilityRule) :=
  grouped.put object ((grouped.get? object).getD [] ++ [rule])

/-- The rules per business object, by descending priority. -/
def ofRuleRows (rows : List VisibilityRow) :
    Except Fault (OrderedMap String (List VisibilityRule)) := do
  let rules ← rows.mapM fun row => do return (row.object, ← ruleOfRow row)
  let grouped := rules.foldl (fun grouped e => addRule grouped e.1 e.2) .empty
  return .ofEntries (← grouped.entries.mapM fun e => do return (e.1, ← byPriority e.2))

/-- The rules for elements, with their conditions as records. -/
def ofUiRows (rows : List UiRow) : Except Fault (List UiRule) :=
  rows.mapM fun row =>
    match row.rule.conditions with
    | .null => .ok row.rule
    | v => return { row.rule with conditions := .record (← v.toFields) }

/-! ## Reading everything -/

/-- What is read for a user whose groups are known. -/
structure GroupReads where
  /-- The grants of the groups. -/
  permissions : Read (List PermissionGrant)
  /-- Their rules for rows. -/
  visibilityRules : Read (List VisibilityRow)
  /-- Their rules for elements. -/
  uiRules : Read (List UiRow)
  /-- The place in the hierarchy, for ministry staff. -/
  hierarchy : Option (Read Hierarchy)

/-- The reads for a user. -/
def GroupReads.of (store : RuleStore Read) (identity : UserIdentity) (user : String)
    (groups : List Int) : GroupReads where
  permissions := store.findPermissions groups
  visibilityRules := store.findVisibilityRules groups
  uiRules := store.findUiRules groups
  hierarchy := if identity.scope = .ministry then some (store.hierarchyOf user) else none

/-- The reads as jobs, in the order in which they are handed to the workers. -/
def GroupReads.jobs (reads : GroupReads) : List Read.Job :=
  [reads.permissions.job "permissions", reads.visibilityRules.job "visibility_rules",
    reads.uiRules.job "ui_rules"] ++ reads.hierarchy.toList.map (·.job "hierarchy")

/-- The context of a user who may do something, put together from all that was read. -/
def assemble (identity : UserIdentity) (grants : List PermissionGrant)
    (rows : List VisibilityRow) (uiRows : List UiRow) (hierarchy : Option Hierarchy)
    (now : Double) : Except Fault SecurityContext := do
  return { userId := identity.userId
           scope := identity.scope
           userType := identity.userType
           tenantId := identity.tenantId
           permissions := ofGrants grants
           rowRules := ← ofRuleRows rows
           uiRules := ← ofUiRows uiRows
           hierarchy
           lastUpdated := now }

/-- The context of a user, with `workers` reads at most being made at once. -/
def compile (store : RuleStore Read) (workers : Int) (now : Double) (user : String) :
    Except Fault SecurityContext := do
  match ← (store.findIdentity user).alone "result" with
  | none => throw (.identityNotFound (.text user))
  | some identity =>
    if !identity.active then throw (.identityNotFound (.text user))
    let groups ← (store.findMemberships user).alone "result"
    let reads := GroupReads.of store identity user groups
    Read.gather workers reads.jobs
    let hierarchy ← reads.hierarchy.mapM (·.alone "hierarchy")
    assemble identity (← reads.permissions.alone "permissions")
      (← reads.visibilityRules.alone "visibility_rules") (← reads.uiRules.alone "ui_rules")
      hierarchy now

end StaffAccess.SecurityContext

import StaffAccess.Context

/-!
# Written security contexts

The form in which a context is kept and sent: a record. Reading is strict about the kinds of
the parts and lenient about what can be converted. Where several parts are wrong, the first one
in the order of the fields is reported.

* `SecurityContext.toValue`: writing, which fails on conditions that count as no record.
* `SecurityContext.ofValue`: reading.
-/

namespace StaffAccess

/-- The members of a value that can be gone through: the items of a list, the characters of a
    text, the names of a record. -/
def Value.members : Value → Except Fault (List Value)
  | list xs => .ok xs
  | text s => .ok (s.toList.map fun c => text (String.singleton c))
  | record f => .ok (f.map fun e => text e.1)
  | _ => .error .wrongType

/-! ## Rules -/

namespace VisibilityRule

/-- The record of a rule. -/
def toValue (r : VisibilityRule) : Except Fault Value := do
  return .record [("kind", .text r.kind.word), ("condition", .record (← r.condition.toFields)),
    ("priority", r.priority)]

/-- The rule that a record stands for. A condition that does not count as given is an empty
    record. -/
def ofValue (v : Value) : Except Fault VisibilityRule := do
  let kind ← match ← v.field "kind" with
    | .text s => match RuleKind.ofWord? s with
      | some kind => pure kind
      | none => throw .badValue
    | _ => throw .badValue
  let condition ← v.fieldD "condition"
  let priority ← ((← v.field? "priority").getD (.int 0)).toInt
  return { kind, condition := if condition.truthy then condition else .record [],
           priority := .int priority }

end VisibilityRule

namespace UiRule

/-- The record of a rule. -/
def toValue (r : UiRule) : Except Fault Value := do
  let conditions ← match r.conditions with
    | .null => pure Value.null
    | v => do pure (Value.record (← v.toFields))
  return .record [("element_pattern", .text r.pattern), ("element_type", .text r.elementType),
    ("visible", r.visible), ("enabled", r.enabled), ("conditions", conditions)]

/-- The rule that a record stands for. -/
def ofValue (v : Value) : Except Fault UiRule := do
  return { pattern := (← v.field "element_pattern").display
           elementType := (← v.field "element_type").display
           visible := .bool (← v.field "visible").truthy
           enabled := .bool (← v.field "enabled").truthy
           conditions := ← v.fieldD "conditions" }

end UiRule

/-! ## Hierarchy -/

namespace Subordinate

/-- The record of a subordinate. -/
def toValue (s : Subordinate) : Value :=
  .record [("id", s.id), ("display_name", s.displayName), ("level", .int s.level)]

/-- The subordinate that a record stands for. -/
def ofValue (v : Value) : Except Fault Subordinate := do
  return { id := ← v.field "id"
           displayName := (← v.field? "display_name").getD (.text "")
           level := ← ((← v.field? "level").getD (.int 1)).toInt }

end Subordinate

namespace Hierarchy

/-- The record of a hierarchy. -/
def toValue (h : Hierarchy) : Value :=
  .record [("manager_id", h.managerId), ("subordinates", .list (h.subordinates.map (·.toValue)))]

/-- The hierarchy that a record stands for. -/
def ofValue (v : Value) : Except Fault Hierarchy := do
  let managerId ← v.fieldD "manager_id"
  let subordinates ← v.fieldD "subordinates"
  let members ← if subordinates.truthy then subordinates.members else pure []
  return { managerId, subordinates := ← members.mapM Subordinate.ofValue }

end Hierarchy

/-! ## Contexts -/

namespace SecurityContext

/-- The record of a context. -/
def toValue (ctx : SecurityContext) : Except Fault Value := do
  let rowRules ← ctx.rowRules.entries.mapM fun e => do
    return (e.1, Value.list (← e.2.mapM VisibilityRule.toValue))
  let uiRules ← ctx.uiRules.mapM UiRule.toValue
  return .record
    [("user_id", .text ctx.userId),
     ("scope", .text ctx.scope.word),
     ("user_type", .text ctx.userType),
     ("tenant_id", ctx.tenantId),
     ("permissions", .record (ctx.permissions.entries.map fun e => (e.1, e.2.toValue))),
     ("data_filters", .record rowRules),
     ("ui_rules", .list uiRules),
     ("hierarchy", (ctx.hierarchy.map Hierarchy.toValue).getD .null),
     ("last_updated", .double ctx.lastUpdated)]

/-- The four parts of a record whose kinds are checked before anything is read. -/
structure Parts where
  /-- The permissions. -/
  permissions : Fields
  /-- The rules for rows. -/
  rowRules : Fields
  /-- The rules for elements. -/
  uiRules : List Value
  /-- The hierarchy, null or a record. -/
  hierarchy : Option Value

/-- The parts of a value that is a context in outline. -/
def Parts.ofValue (v : Value) : Except Fault Parts :=
  match v with
  | .record f =>
    let recordAt (name : String) : Value := (f.lookup name).getD (.record [])
    match recordAt "permissions", recordAt "data_filters" with
    | .record permissions, .record rowRules =>
      match (f.lookup "ui_rules").getD (.list []), (f.lookup "hierarchy").getD .null with
      | .list uiRules, .null => .ok { permissions, rowRules, uiRules, hierarchy := none }
      | .list uiRules, .record h =>
        .ok { permissions, rowRules, uiRules, hierarchy := some (.record h) }
      | _, _ => .error (.context .rulesOrHierarchy)
    | _, _ => .error (.context .partsNotRecords)
  | _ => .error (.context .notRecord)

/-- The scope that a value names. -/
def scopeOf : Value → Except Fault Scope
  | .text s => match Scope.ofWord? s with
    | some scope => .ok scope
    | none => .error .badValue
  | _ => .error .badValue

/-- The context that a record stands for. -/
def ofValue (v : Value) : Except Fault SecurityContext := do
  let parts ← Parts.ofValue v
  let userId := (← v.field "user_id").display
  let scope ← scopeOf (← v.field "scope")
  let userType := (← v.field "user_type").display
  let tenantId ← v.fieldD "tenant_id"
  let permissions ← parts.permissions.mapM fun e => do
    return (e.1, ← PermissionMatrix.ofValue e.2)
  let rowRules ← parts.rowRules.mapM fun e => do
    return (e.1, ← (← e.2.members).mapM VisibilityRule.ofValue)
  let uiRules ← parts.uiRules.mapM UiRule.ofValue
  let hierarchy ← parts.hierarchy.mapM Hierarchy.ofValue
  let lastUpdated ← ((← v.field? "last_updated").getD (.double (.finite false 0))).toDouble
  if scope = .school ∧ hierarchy.isSome then throw (.context .schoolHierarchy)
  return { userId, scope, userType, tenantId, uiRules, hierarchy, lastUpdated
           permissions := .ofEntries permissions
           rowRules := .ofEntries rowRules }

end SecurityContext

end StaffAccess

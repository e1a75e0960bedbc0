import StaffAccess.Context.Codec
import StaffAccess.Proofs.Traversal

/-!
# Written contexts are read back

A context whose parts are of the kinds that rows and compiling give them can be written, and
reading what was written gives the same context: the objects and rules in the same order, no
hierarchy as well as an empty one, and conditions that are missing as well as empty ones.

* `SecurityContext.IsWellFormed`: the kinds of the parts.
* `SecurityContext.ofValue_toValue`: reading undoes writing.
-/

namespace StaffAccess

/-! ## Rules -/

/-- A rule for rows whose parts are of the right kinds. -/
structure VisibilityRule.IsWellFormed (r : VisibilityRule) : Prop where
  condition : ∃ f, r.condition = .record f
  priority : ∃ n, r.priority = .int n

theorem VisibilityRule.ofValue_toValue {r : VisibilityRule} (h : r.IsWellFormed) :
    ∃ v, r.toValue = .ok v ∧ VisibilityRule.ofValue v = .ok r := by
  obtain ⟨kind, condition, priority⟩ := r
  obtain ⟨⟨f, rfl⟩, n, rfl⟩ := h
  refine ⟨_, rfl, ?_⟩
  -- An empty condition counts as missing, and a missing one is read as empty.
  have hcondition : (if (Value.record f).truthy then Value.record f else .record []) =
      .record f := by
    cases f <;> rfl
  simp [ofValue, Value.field, Value.fieldD, Value.field?, List.lookup_cons, hcondition]

/-- A rule for elements whose parts are of the right kinds. -/
structure UiRule.IsWellFormed (r : UiRule) : Prop where
  visible : ∃ b, r.visible = .bool b
  enabled : ∃ b, r.enabled = .bool b
  conditions : r.conditions = .null ∨ ∃ f, r.conditions = .record f

theorem UiRule.ofValue_toValue {r : UiRule} (h : r.IsWellFormed) :
    ∃ v, r.toValue = .ok v ∧ UiRule.ofValue v = .ok r := by
  obtain ⟨pattern, elementType, visible, enabled, conditions⟩ := r
  obtain ⟨⟨b, rfl⟩, ⟨c, rfl⟩, hconditions⟩ := h
  rcases hconditions with rfl | ⟨f, rfl⟩
  · refine ⟨_, rfl, ?_⟩
    simp [ofValue, Value.field, Value.fieldD, List.lookup_cons, Value.truthy]
  · refine ⟨_, rfl, ?_⟩
    simp [ofValue, Value.field, Value.fieldD, List.lookup_cons, Value.truthy]

/-! ## Hierarchy -/

theorem Subordinate.ofValue_toValue (s : Subordinate) : Subordinate.ofValue s.toValue = .ok s := by
  simp [ofValue, toValue, Value.field, Value.field?, List.lookup_cons]

theorem Hierarchy.ofValue_toValue (h : Hierarchy) : Hierarchy.ofValue h.toValue = .ok h := by
  obtain ⟨managerId, subordinates⟩ := h
  have hback : (subordinates.map (·.toValue)).mapM Subordinate.ofValue = .ok subordinates := by
    rw [mapM_eq_ok_iff, List.forall₂_map_left_iff, List.forall₂_same]
    exact fun s _ => Subordinate.ofValue_toValue s
  cases subordinates with
  | nil => rfl
  | cons s rest =>
    show (((s :: rest).map (·.toValue)).mapM Subordinate.ofValue >>=
      fun members => (pure ⟨managerId, members⟩ : Except Fault Hierarchy)) = _
    rw [hback]
    rfl

/-! ## Contexts -/

/-- A context whose parts are of the kinds that rows and compiling give them. -/
structure SecurityContext.IsWellFormed (ctx : SecurityContext) : Prop where
  rowRules : ∀ e ∈ ctx.rowRules.entries, ∀ r ∈ e.2, r.IsWellFormed
  uiRules : ∀ r ∈ ctx.uiRules, r.IsWellFormed
  hierarchy : ctx.hierarchy ≠ none → ctx.scope = .ministry

namespace SecurityContext

variable {ctx : SecurityContext}

/-- The written rules of an object. -/
def rulesToValue (e : String × List VisibilityRule) : Except Fault (String × Value) := do
  return (e.1, Value.list (← e.2.mapM VisibilityRule.toValue))

/-- The rules of an object that were written. -/
def rulesOfValue (e : String × Value) : Except Fault (String × List VisibilityRule) := do
  return (e.1, ← (← e.2.members).mapM VisibilityRule.ofValue)

/-- The permissions on an object that were written. -/
def grantsOfValue (e : String × Value) : Except Fault (String × PermissionMatrix) := do
  return (e.1, ← PermissionMatrix.ofValue e.2)

/-- The entries of a written context whose rules are written already. -/
def fieldsWith (ctx : SecurityContext) (rowRules : Fields) (uiRules : List Value) : Fields :=
  [("user_id", .text ctx.userId),
   ("scope", .text ctx.scope.word),
   ("user_type", .text ctx.userType),
   ("tenant_id", ctx.tenantId),
   ("permissions", .record (ctx.permissions.entries.map fun e => (e.1, e.2.toValue))),
   ("data_filters", .record rowRules),
   ("ui_rules", .list uiRules),
   ("hierarchy", (ctx.hierarchy.map Hierarchy.toValue).getD .null),
   ("last_updated", .double ctx.lastUpdated)]

theorem toValue_eq : ctx.toValue = (do
    let rowRules ← ctx.rowRules.entries.mapM rulesToValue
    let uiRules ← ctx.uiRules.mapM UiRule.toValue
    return .record (ctx.fieldsWith rowRules uiRules)) := rfl

theorem rulesOfValue_rulesToValue {e : String × List VisibilityRule}
    (h : ∀ r ∈ e.2, r.IsWellFormed) :
    ∃ v, rulesToValue e = .ok v ∧ rulesOfValue v = .ok e := by
  obtain ⟨vs, hvs, hback⟩ :=
    exists_mapM_mapM_eq_ok fun r hr => VisibilityRule.ofValue_toValue (h r hr)
  refine ⟨(e.1, .list vs), ?_, ?_⟩
  · rw [rulesToValue, hvs]
    rfl
  · rw [rulesOfValue, Value.members, ok_bind, hback]
    rfl

theorem mapM_grantsOfValue (permissions : OrderedMap String PermissionMatrix) :
    (permissions.entries.map fun e => (e.1, e.2.toValue)).mapM grantsOfValue =
      .ok permissions.entries := by
  rw [mapM_eq_ok_iff, List.forall₂_map_left_iff, List.forall₂_same]
  intro e _
  rw [grantsOfValue, PermissionMatrix.ofValue_toValue]
  rfl

theorem ofValue_fieldsWith {rowRules : Fields} {uiRules : List Value}
    (hrows : rowRules.mapM rulesOfValue = .ok ctx.rowRules.entries)
    (huis : uiRules.mapM UiRule.ofValue = .ok ctx.uiRules)
    (hhierarchy : ctx.hierarchy ≠ none → ctx.scope = .ministry) :
    ofValue (.record (ctx.fieldsWith rowRules uiRules)) = .ok ctx := by
  obtain ⟨userId, scope, userType, tenantId, permissions, rules, uis, hierarchy, updated⟩ := ctx
  dsimp only at hrows huis hhierarchy
  -- Every part is found again under its name; only lists, records and the hierarchy are left to
  -- be read.
  have hofValue : ofValue (.record (fieldsWith ⟨userId, scope, userType, tenantId, permissions,
      rules, uis, hierarchy, updated⟩ rowRules uiRules)) = (do
        let permissions ←
          (permissions.entries.map fun e => (e.1, e.2.toValue)).mapM grantsOfValue
        let rowRules ← rowRules.mapM rulesOfValue
        let uiRules ← uiRules.mapM UiRule.ofValue
        let hierarchy ← (hierarchy.map Hierarchy.toValue).mapM Hierarchy.ofValue
        if scope = .school ∧ hierarchy.isSome then throw (.context .schoolHierarchy)
        return { userId, scope, userType, tenantId, uiRules, hierarchy, lastUpdated := updated
                 permissions := .ofEntries permissions
                 rowRules := .ofEntries rowRules }) := by
    cases scope <;> cases hierarchy <;> rfl
  have hback : (hierarchy.map Hierarchy.toValue).mapM Hierarchy.ofValue = .ok hierarchy := by
    cases hierarchy with
    | none => rfl
    | some h =>
      show (Hierarchy.ofValue h.toValue >>= fun h => pure (some h)) = _
      rw [Hierarchy.ofValue_toValue]
      rfl
  have hscope : ¬(scope = .school ∧ hierarchy.isSome = true) := by
    rintro ⟨rfl, hsome⟩
    exact nomatch hhierarchy (Option.isSome_iff_ne_none.1 hsome)
  rw [hofValue, mapM_grantsOfValue, ok_bind, hrows, ok_bind, huis, ok_bind, hback, ok_bind,
    if_neg hscope, OrderedMap.ofEntries_entries, OrderedMap.ofEntries_entries]
  rfl

/-- Reading undoes writing. -/
theorem ofValue_toValue (h : ctx.IsWellFormed) :
    ∃ v, ctx.toValue = .ok v ∧ ofValue v = .ok ctx := by
  obtain ⟨rows, hrows, hrowsBack⟩ := exists_mapM_mapM_eq_ok (f := rulesToValue) (g := rulesOfValue)
    fun e he => rulesOfValue_rulesToValue (h.rowRules e he)
  obtain ⟨uis, huis, huisBack⟩ := exists_mapM_mapM_eq_ok (f := UiRule.toValue)
    fun r hr => UiRule.ofValue_toValue (h.uiRules r hr)
  refine ⟨.record (ctx.fieldsWith rows uis), ?_, ofValue_fieldsWith hrowsBack huisBack h.hierarchy⟩
  rw [toValue_eq, hrows, ok_bind, huis]
  rfl

end SecurityContext

end StaffAccess

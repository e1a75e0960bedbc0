import StaffAccess.Proofs.Context.Codec
import StaffAccess.Proofs.Json.RoundTrip

/-!
# Payloads of contexts

A context whose parts JSON texts can stand for is written as a JSON value, so it is read back
from its payload. The record of a context puts the condition of a rule four levels deep, which is
what conditions have less of than a whole text.

* `SecurityContext.IsJson`: the contexts whose parts JSON texts can stand for.
* `SecurityContext.isJson_toValue`: what they are written as.
* `SecurityContext.decode_encode`: they are read back from their payloads.
-/

namespace StaffAccess

/-- How deep lists and records may lie in each other in a condition: not as deep as in a whole
    text, since the condition of a rule lies four levels deep in the record of a context. -/
def conditionDepth : Nat := Json.maxDepth - 4

/-- Whether a rule for rows can be written as JSON. -/
structure VisibilityRule.IsJson (r : VisibilityRule) : Prop extends r.IsWellFormed where
  condition_isJson : r.condition.IsJson conditionDepth
  priority_isJson : r.priority.IsJson conditionDepth

/-- Whether a rule for elements can be written as JSON. -/
structure UiRule.IsJson (r : UiRule) : Prop extends r.IsWellFormed where
  conditions_isJson : r.conditions.IsJson conditionDepth

/-- Whether a subordinate can be written as JSON. -/
structure Subordinate.IsJson (s : Subordinate) : Prop where
  id : s.id.IsJson conditionDepth
  displayName : s.displayName.IsJson conditionDepth
  level : (Value.int s.level).IsJson conditionDepth

/-- Whether a hierarchy can be written as JSON. -/
structure Hierarchy.IsJson (h : Hierarchy) : Prop where
  managerId : h.managerId.IsJson conditionDepth
  subordinates : ∀ s ∈ h.subordinates, s.IsJson

/-- Whether a context can be written as JSON. -/
structure SecurityContext.IsJson (ctx : SecurityContext) : Prop where
  tenantId : ctx.tenantId.IsJson conditionDepth
  rowRules : ∀ e ∈ ctx.rowRules.entries, ∀ r ∈ e.2, r.IsJson
  uiRules : ∀ r ∈ ctx.uiRules, r.IsJson
  hierarchy : ∀ h, ctx.hierarchy = some h → h.IsJson ∧ ctx.scope = .ministry
  lastUpdated : ctx.lastUpdated.IsRepresentable

/-! ## Parts -/

theorem VisibilityRule.isJson_toValue {r : VisibilityRule} (h : r.IsJson) {v : Value}
    (hv : r.toValue = .ok v) : v.IsJson (conditionDepth + 1) := by
  obtain ⟨kind, condition, priority⟩ := r
  obtain ⟨⟨⟨f, rfl⟩, n, rfl⟩, hcondition, hpriority⟩ := h
  cases hv
  refine .record (by simp) fun e he => ?_
  simp only [List.mem_cons, List.not_mem_nil, or_false] at he
  rcases he with rfl | rfl | rfl
  · exact .text _
  · exact hcondition
  · exact hpriority

theorem UiRule.isJson_toValue {r : UiRule} (h : r.IsJson) {v : Value} (hv : r.toValue = .ok v) :
    v.IsJson (conditionDepth + 1) := by
  obtain ⟨pattern, elementType, visible, enabled, conditions⟩ := r
  obtain ⟨⟨⟨b, rfl⟩, ⟨c, rfl⟩, hnull⟩, hconditions⟩ := h
  have hrecord : v = .record [("element_pattern", .text pattern),
      ("element_type", .text elementType), ("visible", .bool b), ("enabled", .bool c),
      ("conditions", conditions)] := by
    -- A record is copied on the way; only a missing one is not.
    rcases hnull with rfl | ⟨f, rfl⟩ <;> cases hv <;> rfl
  rw [hrecord]
  refine .record (by simp) fun e he => ?_
  simp only [List.mem_cons, List.not_mem_nil, or_false] at he
  rcases he with rfl | rfl | rfl | rfl | rfl
  · exact .text _
  · exact .text _
  · exact .bool b
  · exact .bool c
  · exact hconditions

theorem Subordinate.isJson_toValue {s : Subordinate} (h : s.IsJson) :
    s.toValue.IsJson (conditionDepth + 1) := by
  refine .record (by simp) fun e he => ?_
  simp only [List.mem_cons, List.not_mem_nil, or_false] at he
  rcases he with rfl | rfl | rfl
  · exact h.id
  · exact h.displayName
  · exact h.level

theorem Hierarchy.isJson_toValue {h : Hierarchy} (hjson : h.IsJson) :
    h.toValue.IsJson (conditionDepth + 3) := by
  refine .record (by simp) fun e he => ?_
  simp only [List.mem_cons, List.not_mem_nil, or_false] at he
  rcases he with rfl | rfl
  · exact hjson.managerId.mono (by omega)
  · refine .list fun v hv => ?_
    obtain ⟨s, hs, rfl⟩ := List.mem_map.1 hv
    exact Subordinate.isJson_toValue (hjson.subordinates s hs)

theorem PermissionMatrix.isJson_toValue (m : PermissionMatrix) (depth : Nat) :
    m.toValue.IsJson (depth + 1) := by
  refine .record (by simp [Action.all, Action.word]) fun e he => ?_
  obtain ⟨a, _, rfl⟩ := List.mem_map.1 he
  exact .bool _

/-! ## Contexts -/

namespace SecurityContext

variable {ctx : SecurityContext}

theorem IsJson.isWellFormed (h : ctx.IsJson) : ctx.IsWellFormed where
  rowRules e he r hr := (h.rowRules e he r hr).toIsWellFormed
  uiRules r hr := (h.uiRules r hr).toIsWellFormed
  hierarchy hsome := by
    obtain ⟨hierarchy, hh⟩ := Option.ne_none_iff_exists'.1 hsome
    exact (h.hierarchy hierarchy hh).2

theorem nodup_names {α : Type} (m : OrderedMap String α) : (m.entries.map Prod.fst).Nodup :=
  List.pairwise_map.2 (m.distinct.imp fun h heq => by simp [heq] at h)

/-- The written rules of an object keep its name. -/
theorem rulesToValue_eq_ok_iff {e : String × List VisibilityRule} {e' : String × Value} :
    rulesToValue e = .ok e' ↔
      ∃ vs, e.2.mapM VisibilityRule.toValue = .ok vs ∧ (e.1, .list vs) = e' := by
  rw [rulesToValue, bind_eq_ok_iff]
  simp only [pure_eq_ok, Except.ok.injEq]

theorem nodup_names_rows {rows : Fields}
    (hrows : ctx.rowRules.entries.mapM rulesToValue = .ok rows) : (rows.map Prod.fst).Nodup := by
  have hnames : rows.map Prod.fst = ctx.rowRules.entries.map Prod.fst := by
    refine map_eq_of_mapM_eq_ok hrows fun e e' he => ?_
    obtain ⟨vs, -, rfl⟩ := rulesToValue_eq_ok_iff.1 he
    rfl
  rw [hnames]
  exact nodup_names ctx.rowRules

/-- Under every name stand the written rules of an object. -/
theorem exists_of_mem_rows {rows : Fields}
    (hrows : ctx.rowRules.entries.mapM rulesToValue = .ok rows) {e' : String × Value}
    (he' : e' ∈ rows) : ∃ e ∈ ctx.rowRules.entries, ∃ vs, e'.2 = .list vs ∧
      ∀ v ∈ vs, ∃ r ∈ e.2, r.toValue = .ok v := by
  obtain ⟨e, he, hentry⟩ := (mem_of_mapM_eq_ok hrows).1 he'
  obtain ⟨vs, hvs, rfl⟩ := rulesToValue_eq_ok_iff.1 hentry
  exact ⟨e, he, vs, rfl, fun v hv => (mem_of_mapM_eq_ok hvs).1 hv⟩

theorem isJson_rowRules (h : ctx.IsJson) {rows : Fields}
    (hrows : ctx.rowRules.entries.mapM rulesToValue = .ok rows) :
    (Value.record rows).IsJson (conditionDepth + 3) := by
  refine .record (nodup_names_rows hrows) fun e' he' => ?_
  obtain ⟨e, he, vs, hvs, hrules⟩ := exists_of_mem_rows hrows he'
  rw [hvs]
  refine .list fun v hv => ?_
  obtain ⟨r, hr, hrule⟩ := hrules v hv
  exact VisibilityRule.isJson_toValue (h.rowRules e he r hr) hrule

theorem isJson_uiRules (h : ctx.IsJson) {uis : List Value}
    (huis : ctx.uiRules.mapM UiRule.toValue = .ok uis) :
    (Value.list uis).IsJson (conditionDepth + 3) := by
  refine .list fun v hv => ?_
  obtain ⟨r, hr, hrule⟩ := (mem_of_mapM_eq_ok huis).1 hv
  exact (UiRule.isJson_toValue (h.uiRules r hr) hrule).mono (by omega)

theorem isJson_permissions (permissions : OrderedMap String PermissionMatrix) :
    (Value.record (permissions.entries.map fun e => (e.1, e.2.toValue))).IsJson
      (conditionDepth + 3) := by
  refine .record ?_ fun e' he' => ?_
  · rw [List.map_map]
    exact nodup_names permissions
  · obtain ⟨e, _, rfl⟩ := List.mem_map.1 he'
    exact PermissionMatrix.isJson_toValue e.2 _

/-- The record of a context that can be written as JSON is a JSON value. -/
theorem isJson_toValue (h : ctx.IsJson) {v : Value} (hv : ctx.toValue = .ok v) :
    v.IsJson Json.maxDepth := by
  rw [toValue_eq] at hv
  simp only [bind_eq_ok_iff] at hv
  obtain ⟨rows, hrows, uis, huis, hv⟩ := hv
  cases hv
  have hhierarchy : ((ctx.hierarchy.map Hierarchy.toValue).getD .null).IsJson
      (conditionDepth + 3) := by
    cases hh : ctx.hierarchy with
    | none => exact .null
    | some hierarchy => exact Hierarchy.isJson_toValue (h.hierarchy hierarchy hh).1
  refine .record (by simp [fieldsWith]) fun e he => ?_
  simp only [fieldsWith, List.mem_cons, List.not_mem_nil, or_false] at he
  rcases he with rfl | rfl | rfl | rfl | rfl | rfl | rfl | rfl | rfl
  · exact .text _
  · exact .text _
  · exact .text _
  · exact h.tenantId.mono (by decide)
  · exact isJson_permissions _
  · exact isJson_rowRules h hrows
  · exact isJson_uiRules h huis
  · exact hhierarchy
  · exact .double h.lastUpdated

/-- A context that can be written as JSON is read back from its payload. -/
theorem decode_encode (h : ctx.IsJson) : ∃ v, ctx.toValue = .ok v ∧
    (PayloadFormat.json.decode (PayloadFormat.json.encode v) >>= ofValue) = .ok ctx := by
  obtain ⟨v, hv, hback⟩ := ofValue_toValue h.isWellFormed
  refine ⟨v, hv, ?_⟩
  rw [PayloadFormat.decode_encode (isJson_toValue h hv), ok_bind, hback]

end SecurityContext

end StaffAccess

import StaffAccess.Proofs.Context.Payload

/-!
# Typed contexts are read back

A context whose parts have their declared types is written as a JSON value, in which all numbers
are finite and no name stands twice in a record. Whatever reads that value back as it was written
makes the context the same again: its objects and rules in their order, conditions that are missing
kept apart from empty ones, and no place in the hierarchy from one without subordinates.

Conditions hold any JSON values here, however deep, and whole numbers are as long as they like.
Compact JSON is such a way of writing for all contexts that are not beyond its limits.

* `Value.IsPlain`: the JSON values.
* `SecurityContext.IsTyped`: the declared types of the parts.
* `SecurityContext.isPlain_toValue`: what is written.
* `SecurityContext.ofValue_of_read_write`: it is read back.
-/

namespace StaffAccess

/-! ## JSON values -/

/-- Whether a value is one of JSON: its numbers are finite, and no name stands twice in a record. -/
inductive Value.IsPlain : Value → Prop
  | null : IsPlain .null
  | bool (b : Bool) : IsPlain (.bool b)
  | int (n : Int) : IsPlain (.int n)
  | double (negative : Bool) (units : Nat) : IsPlain (.double (.finite negative units))
  | text (s : String) : IsPlain (.text s)
  | list {xs : List Value} (h : ∀ x ∈ xs, IsPlain x) : IsPlain (.list xs)
  | record {f : Fields} (hnames : (f.map Prod.fst).Nodup) (h : ∀ e ∈ f, IsPlain e.2) :
    IsPlain (.record f)

namespace Value.IsPlain

attribute [simp] null bool int double text

theorem record_iff {f : Fields} :
    (Value.record f).IsPlain ↔ (f.map Prod.fst).Nodup ∧ ∀ e ∈ f, e.2.IsPlain :=
  ⟨fun h => by cases h with | record hnames h => exact ⟨hnames, h⟩, fun h => .record h.1 h.2⟩

theorem of_null_or_text {v : Value} (h : v = .null ∨ ∃ s, v = .text s) : v.IsPlain := by
  rcases h with rfl | ⟨s, rfl⟩
  · exact .null
  · exact .text s

end Value.IsPlain

/-! ## Typed parts -/

/-- A rule for rows of the declared types. -/
structure VisibilityRule.IsTyped (r : VisibilityRule) : Prop extends r.IsWellFormed where
  condition_isPlain : r.condition.IsPlain

/-- A rule for elements of the declared types. -/
structure UiRule.IsTyped (r : UiRule) : Prop extends r.IsWellFormed where
  conditions_isPlain : r.conditions.IsPlain

/-- A subordinate of the declared types. -/
structure Subordinate.IsTyped (s : Subordinate) : Prop where
  id : ∃ id, s.id = .text id
  displayName : ∃ name, s.displayName = .text name

/-- A hierarchy of the declared types. -/
structure Hierarchy.IsTyped (h : Hierarchy) : Prop where
  managerId : h.managerId = .null ∨ ∃ id, h.managerId = .text id
  subordinates : ∀ s ∈ h.subordinates, s.IsTyped

/-- A context of the declared types. School staff have no place in the hierarchy. -/
structure SecurityContext.IsTyped (ctx : SecurityContext) : Prop where
  tenantId : ctx.tenantId = .null ∨ ∃ id, ctx.tenantId = .text id
  rowRules : ∀ e ∈ ctx.rowRules.entries, ∀ r ∈ e.2, r.IsTyped
  uiRules : ∀ r ∈ ctx.uiRules, r.IsTyped
  hierarchy : ∀ h, ctx.hierarchy = some h → h.IsTyped ∧ ctx.scope = .ministry
  lastUpdated : ∃ negative units, ctx.lastUpdated = .finite negative units

theorem VisibilityRule.isPlain_toValue {r : VisibilityRule} (h : r.IsTyped) {v : Value}
    (hv : r.toValue = .ok v) : v.IsPlain := by
  obtain ⟨kind, condition, priority⟩ := r
  obtain ⟨⟨⟨f, rfl⟩, n, rfl⟩, hcondition⟩ := h
  cases hv
  simpa [Value.IsPlain.record_iff] using hcondition

theorem UiRule.isPlain_toValue {r : UiRule} (h : r.IsTyped) {v : Value} (hv : r.toValue = .ok v) :
    v.IsPlain := by
  obtain ⟨pattern, elementType, visible, enabled, conditions⟩ := r
  obtain ⟨⟨⟨b, rfl⟩, ⟨c, rfl⟩, rfl | ⟨f, rfl⟩⟩, hconditions⟩ := h
  · cases hv
    simp [Value.IsPlain.record_iff]
  · cases hv
    simpa [Value.IsPlain.record_iff] using hconditions

theorem Subordinate.isPlain_toValue {s : Subordinate} (h : s.IsTyped) : s.toValue.IsPlain := by
  obtain ⟨id, displayName, level⟩ := s
  obtain ⟨⟨id, rfl⟩, name, rfl⟩ := h
  simp [toValue, Value.IsPlain.record_iff]

theorem Hierarchy.isPlain_toValue {h : Hierarchy} (htyped : h.IsTyped) : h.toValue.IsPlain := by
  have hsubordinates : (Value.list (h.subordinates.map (·.toValue))).IsPlain := by
    refine .list fun v hv => ?_
    obtain ⟨s, hs, rfl⟩ := List.mem_map.1 hv
    exact Subordinate.isPlain_toValue (htyped.subordinates s hs)
  simpa [toValue, Value.IsPlain.record_iff] using
    ⟨Value.IsPlain.of_null_or_text htyped.managerId, hsubordinates⟩

theorem PermissionMatrix.isPlain_toValue (m : PermissionMatrix) : m.toValue.IsPlain := by
  simp [toValue, Value.IsPlain.record_iff, Action.all, Action.word]

/-! ## Contexts -/

namespace SecurityContext

variable {ctx : SecurityContext}

theorem IsTyped.isWellFormed (h : ctx.IsTyped) : ctx.IsWellFormed where
  rowRules e he r hr := (h.rowRules e he r hr).toIsWellFormed
  uiRules r hr := (h.uiRules r hr).toIsWellFormed
  hierarchy hsome := by
    obtain ⟨hierarchy, hh⟩ := Option.ne_none_iff_exists'.1 hsome
    exact (h.hierarchy hierarchy hh).2

theorem isPlain_rowRules (h : ctx.IsTyped) {rows : Fields}
    (hrows : ctx.rowRules.entries.mapM rulesToValue = .ok rows) : (Value.record rows).IsPlain := by
  refine .record (nodup_names_rows hrows) fun e' he' => ?_
  obtain ⟨e, he, vs, hvs, hrules⟩ := exists_of_mem_rows hrows he'
  rw [hvs]
  refine .list fun v hv => ?_
  obtain ⟨r, hr, hrule⟩ := hrules v hv
  exact VisibilityRule.isPlain_toValue (h.rowRules e he r hr) hrule

theorem isPlain_uiRules (h : ctx.IsTyped) {uis : List Value}
    (huis : ctx.uiRules.mapM UiRule.toValue = .ok uis) : (Value.list uis).IsPlain := by
  refine .list fun v hv => ?_
  obtain ⟨r, hr, hrule⟩ := (mem_of_mapM_eq_ok huis).1 hv
  exact UiRule.isPlain_toValue (h.uiRules r hr) hrule

theorem isPlain_permissions (permissions : OrderedMap String PermissionMatrix) :
    (Value.record (permissions.entries.map fun e => (e.1, e.2.toValue))).IsPlain := by
  refine .record ?_ fun e' he' => ?_
  · rw [List.map_map]
    exact nodup_names permissions
  · obtain ⟨e, _, rfl⟩ := List.mem_map.1 he'
    exact PermissionMatrix.isPlain_toValue e.2

/-- The record of a typed context is a JSON value. -/
theorem isPlain_toValue (h : ctx.IsTyped) {v : Value} (hv : ctx.toValue = .ok v) : v.IsPlain := by
  rw [toValue_eq] at hv
  simp only [bind_eq_ok_iff] at hv
  obtain ⟨rows, hrows, uis, huis, hv⟩ := hv
  cases hv
  have hhierarchy : ((ctx.hierarchy.map Hierarchy.toValue).getD .null).IsPlain := by
    cases hh : ctx.hierarchy with
    | none => exact .null
    | some hierarchy => exact Hierarchy.isPlain_toValue (h.hierarchy hierarchy hh).1
  have hupdated : (Value.double ctx.lastUpdated).IsPlain := by
    obtain ⟨negative, units, hfinite⟩ := h.lastUpdated
    rw [hfinite]
    exact .double negative units
  refine .record (by simp [fieldsWith]) ?_
  simpa [fieldsWith] using ⟨Value.IsPlain.of_null_or_text h.tenantId,
    isPlain_permissions ctx.permissions, isPlain_rowRules h hrows, isPlain_uiRules h huis,
    hhierarchy, hupdated⟩

/-- A typed context is written as a JSON value, and it is made again, the same in every part, from
    what reads that value back as it was written. Compact JSON does so within its limits. -/
theorem ofValue_of_read_write (h : ctx.IsTyped) :
    ∃ v, ctx.toValue = .ok v ∧ v.IsPlain ∧
      (∀ {τ : Type} (write : Value → τ) (read : τ → Except Fault Value),
        read (write v) = .ok v → (read (write v) >>= ofValue) = .ok ctx) ∧
      (ctx.IsJson →
        (PayloadFormat.json.decode (PayloadFormat.json.encode v) >>= ofValue) = .ok ctx) := by
  obtain ⟨v, hv, hback⟩ := ofValue_toValue h.isWellFormed
  refine ⟨v, hv, isPlain_toValue h hv, fun write read hread => ?_, fun hjson => ?_⟩
  · rw [hread, ok_bind, hback]
  · obtain ⟨w, hw, hdecode⟩ := decode_encode hjson
    cases hv.symm.trans hw
    exact hdecode

/-- A rule with an empty condition. -/
def teamRule : VisibilityRule := ⟨.hierarchy, .record [], .int 5⟩

/-- A rule whose condition has records and lists in it. -/
def untitledRule : VisibilityRule where
  kind := .custom
  condition := .record [("where", .record [("field", .text "title"), ("in", .list [.null])])]
  priority := .int (-1)

/-- A ministry context with an object without rules, conditions of elements that are missing and
    empty, and a place in the hierarchy without subordinates. -/
def headOfUnit : SecurityContext where
  userId := "u1"
  scope := .ministry
  userType := "HEAD"
  tenantId := .null
  permissions := .ofEntries [("doc", ⟨true, false, false, false, true⟩), ("absence", .none)]
  rowRules := .ofEntries [("doc", [teamRule, untitledRule]), ("absence", [])]
  uiRules := [⟨"btn-*", "BUTTON", .bool true, .bool false, .null⟩,
    ⟨"menu", "MENU", .bool false, .bool true, .record []⟩]
  hierarchy := some ⟨.text "u0", []⟩
  lastUpdated := .finite false (1000 * Double.one)

theorem forall_rules_headOfUnit {p : VisibilityRule → Prop} (hteam : p teamRule)
    (huntitled : p untitledRule) : ∀ e ∈ headOfUnit.rowRules.entries, ∀ r ∈ e.2, p r := by
  intro e he r hr
  rw [show headOfUnit.rowRules.entries = [("doc", [teamRule, untitledRule]), ("absence", [])]
    from rfl] at he
  simp only [List.mem_cons, List.not_mem_nil, or_false] at he
  rcases he with rfl | rfl
  · simp only [List.mem_cons, List.not_mem_nil, or_false] at hr
    rcases hr with rfl | rfl
    · exact hteam
    · exact huntitled
  · cases hr

theorem headOfUnit_isTyped : headOfUnit.IsTyped where
  tenantId := .inl rfl
  rowRules := by
    refine forall_rules_headOfUnit ⟨⟨⟨_, rfl⟩, _, rfl⟩, ?_⟩ ⟨⟨⟨_, rfl⟩, _, rfl⟩, ?_⟩
    · simp [teamRule, Value.IsPlain.record_iff]
    · simp [untitledRule, Value.IsPlain.record_iff, Value.IsPlain.list]
  uiRules := by
    simp only [headOfUnit, List.forall_mem_cons]
    exact ⟨⟨⟨⟨_, rfl⟩, ⟨_, rfl⟩, .inl rfl⟩, .null⟩,
      ⟨⟨⟨_, rfl⟩, ⟨_, rfl⟩, .inr ⟨_, rfl⟩⟩, by simp [Value.IsPlain.record_iff]⟩, nofun⟩
  hierarchy h hh := by
    cases hh
    exact ⟨⟨.inr ⟨_, rfl⟩, nofun⟩, rfl⟩
  lastUpdated := ⟨_, _, rfl⟩

theorem headOfUnit_isJson : headOfUnit.IsJson where
  tenantId := .null
  rowRules := by
    have hempty : (Value.record []).IsJson 1 := .record .nil nofun
    have hwhere : untitledRule.condition.IsJson 3 := by
      refine .record (by simp) (List.forall_mem_singleton.2 (.record (by simp) ?_))
      exact List.forall_mem_cons.2 ⟨.text _,
        List.forall_mem_singleton.2 (.list (List.forall_mem_singleton.2 .null))⟩
    exact forall_rules_headOfUnit
      ⟨⟨⟨_, rfl⟩, _, rfl⟩, hempty.mono (by decide), .int (by decide)⟩
      ⟨⟨⟨_, rfl⟩, _, rfl⟩, hwhere.mono (by decide), .int (by decide)⟩
  uiRules := by
    have hempty : (Value.record []).IsJson 1 := .record .nil nofun
    simp only [headOfUnit, List.forall_mem_cons]
    exact ⟨⟨⟨⟨_, rfl⟩, ⟨_, rfl⟩, .inl rfl⟩, .null⟩,
      ⟨⟨⟨_, rfl⟩, ⟨_, rfl⟩, .inr ⟨_, rfl⟩⟩, hempty.mono (by decide)⟩, nofun⟩
  hierarchy h hh := by
    cases hh
    exact ⟨⟨.text _, nofun⟩, rfl⟩
  lastUpdated := by
    show Double.IsRounded (1000 * Double.one)
    rw [Double.IsRounded]
    decide +kernel

/-- The context of the head of a unit is read back from its payload. -/
theorem headOfUnit_readBack : headOfUnit.IsTyped ∧ headOfUnit.IsJson ∧
    ∃ v, headOfUnit.toValue = .ok v ∧ v.IsPlain ∧
      (PayloadFormat.json.decode (PayloadFormat.json.encode v) >>= ofValue) = .ok headOfUnit := by
  obtain ⟨v, hv, hplain, -, hjson⟩ := ofValue_of_read_write headOfUnit_isTyped
  exact ⟨headOfUnit_isTyped, headOfUnit_isJson, v, hv, hplain, hjson headOfUnit_isJson⟩

end SecurityContext

end StaffAccess

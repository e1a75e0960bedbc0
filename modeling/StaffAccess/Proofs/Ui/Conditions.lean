import StaffAccess.Proofs.Ui.Elements

/-!
# What conditions ask for

The conditions of a rule for elements say what has to be so for the rule to show anything: of the
user, and of the record if the caller names one. What a record does not have, or has as null, is
not asked about. Conditions decide nothing else, except that the status of a record can make
elements read-only. So an element with rules is seen if one of them is visible and has all that it
asks for, it is enabled if one of them is, and it is read-only if one of them says so for the
status of the record. The order of the rules does not matter.

* `RecordCondition.IsMet`, `UiConditions.AreMet`: what has to be so.
* `RecordCondition.Freezes`, `UiConditions.Freeze`: a status for which elements are read-only.
* `UiRule.Shows`, `UiRule.Freezes`: the same for a rule.
* `UiRule.exists_flags`: what a rule gives, if its conditions can be read.
* `ElementVisibility.ofContext_flags`: what an element has, if those of all its rules can be.
-/

namespace StaffAccess

/-- Whether a record has something other than null under a name. -/
def Value.Has (record : Value) (name : String) (v : Value) : Prop :=
  record.get? name = some v ∧ v ≠ .null

/-- Whether a value is what callers can name as the record: null if there is none. -/
def Value.IsRecordOrNull (v : Value) : Prop := v = .null ∨ ∃ f, v = .record f

/-- Whether a record is as some conditions ask for. -/
structure RecordCondition.IsMet (c : RecordCondition) (ctx : SecurityContext) (record : Value) :
    Prop where
  owner : c.ownOnly = true → ∀ v, record.Has "record_owner_id" v → v = .text ctx.userId
  establishment : c.sameEstablishmentOnly = true → ctx.scope = .school →
    ∀ v, record.Has "record_establishment_id" v → v.same ctx.tenantId = true
  allowed : ∀ statuses, c.status = some statuses → statuses.allowed ≠ [] →
    ∀ v, record.Has "record_status" v → ∃ w ∈ statuses.allowed, v = .text w
  forbidden : ∀ statuses, c.status = some statuses →
    ∀ v, record.Has "record_status" v → ∀ w ∈ statuses.forbidden, v ≠ .text w

/-- Whether a record has a status for which it is read-only. -/
def RecordCondition.Freezes (c : RecordCondition) (record : Value) : Prop :=
  ∃ statuses, c.status = some statuses ∧
    ∃ w ∈ statuses.readOnlyWhen, record.Has "record_status" (.text w)

/-- Whether a user and a record are as some conditions ask for. -/
structure UiConditions.AreMet (c : UiConditions) (ctx : SecurityContext) (record : Value) :
    Prop where
  userType : ∀ types, c.userTypes = some types → ctx.userType ∈ types
  scope : ∀ scopes, c.scopes = some scopes → ctx.scope ∈ scopes
  permissions : ∀ objects, c.permissions = some objects → ∀ object required,
    (object, required) ∈ objects → ∃ granted, ctx.permissions.get? object = some granted ∧
      ∀ a, (a, true) ∈ required → granted.allows a = true
  subordinates : c.subordinates = some true → ctx.subordinateIds ≠ []
  record : ∀ condition, c.record = some condition → condition.IsMet ctx record

/-- Whether some conditions make elements read-only for a record. -/
def UiConditions.Freeze (c : UiConditions) (record : Value) : Prop :=
  ∃ condition, c.record = some condition ∧ condition.Freezes record

/-- Whether a rule shows the elements that it matches. -/
structure UiRule.Shows (r : UiRule) (ctx : SecurityContext) (policy : Policy) (record : Value) :
    Prop where
  own : r.visible.truthy = true
  conditions : ∀ c, r.parsedConditions = .ok (some c) → c.AreMet ctx record
  defaults : ∀ t, ElementType.ofWord? r.elementType = some t → t.admits r.pattern ctx policy = true

/-- Whether a rule makes the elements that it matches read-only for a record. -/
def UiRule.Freezes (r : UiRule) (record : Value) : Prop :=
  ∃ c, r.parsedConditions = .ok (some c) ∧ c.Freeze record

/-! ## Records -/

namespace Value

variable {record v w : Value} {name : String}

theorem fieldD_eq_ok_iff : record.fieldD name = .ok w ↔
    ∃ f, record = .record f ∧ (f.lookup name).getD .null = w := by
  cases record <;> simp [fieldD]

theorem has_iff_of_fieldD (h : record.fieldD name = .ok w) :
    record.Has name v ↔ v = w ∧ v ≠ .null := by
  obtain ⟨f, rfl, rfl⟩ := fieldD_eq_ok_iff.1 h
  rw [Has, get?]
  cases f.lookup name with
  | none => simp
  | some u => simp [eq_comm]

/-- A record has one value at most under a name, so nothing is asked or one thing. -/
theorem forall_has_iff {p : Value → Prop} (h : record.fieldD name = .ok w) :
    (∀ v, record.Has name v → p v) ↔ w = .null ∨ p w := by
  simp only [has_iff_of_fieldD h, and_imp, forall_eq]
  exact Classical.or_iff_not_imp_left.symm

theorem not_has_of_not_truthy (hrecord : record.IsRecordOrNull) (h : ¬record.truthy = true) :
    ¬record.Has name v := by
  rintro ⟨hget, -⟩
  obtain rfl | ⟨f, rfl⟩ := hrecord
  · cases hget
  · cases f with
    | nil => cases hget
    | cons e f => exact h rfl

end Value

theorem statusIn_iff {status : Value} {words : List String} :
    statusIn status words = true ↔ ∃ w ∈ words, status = .text w := by
  simp [statusIn, Value.same_text_right_iff]

theorem RecordStatusCondition.admits_iff {statuses : RecordStatusCondition} {status : Value} :
    statuses.admits status = true ↔
      (statuses.allowed ≠ [] → ∃ w ∈ statuses.allowed, status = .text w) ∧
        ∀ w ∈ statuses.forbidden, status ≠ .text w := by
  have hforbidden : (statuses.forbidden.isEmpty || !statusIn status statuses.forbidden) = true ↔
      ∀ w ∈ statuses.forbidden, status ≠ .text w := by
    cases statuses.forbidden with
    | nil => simp
    | cons w words =>
      rw [List.isEmpty_cons, Bool.false_or, Bool.not_eq_true', ← Bool.not_eq_true, statusIn_iff]
      simp
  rw [admits, Bool.and_eq_true, hforbidden, Bool.or_eq_true, List.isEmpty_iff, statusIn_iff,
    Classical.or_iff_not_imp_left]

namespace RecordCondition

variable {c : RecordCondition} {ctx : SecurityContext} {record : Value}

/-- What is asked of a record, by its three entries. -/
theorem isMet_iff {owner establishment status : Value}
    (howner : record.fieldD "record_owner_id" = .ok owner)
    (hestablishment : record.fieldD "record_establishment_id" = .ok establishment)
    (hstatus : record.fieldD "record_status" = .ok status) : c.IsMet ctx record ↔
      (c.ownOnly = true → owner = .null ∨ owner = .text ctx.userId) ∧
      (c.sameEstablishmentOnly = true → ctx.scope = .school →
        establishment = .null ∨ establishment.same ctx.tenantId = true) ∧
      ∀ statuses, c.status = some statuses → status = .null ∨ statuses.admits status = true := by
  simp only [RecordStatusCondition.admits_iff]
  constructor
  · intro h
    refine ⟨fun hown => (Value.forall_has_iff howner).1 (h.owner hown), fun hsame hscope =>
      (Value.forall_has_iff hestablishment).1 (h.establishment hsame hscope),
      fun statuses hs => or_and_left.2 ⟨?_, (Value.forall_has_iff hstatus).1 (h.forbidden _ hs)⟩⟩
    by_cases hallowed : statuses.allowed = []
    · exact .inr fun hne => absurd hallowed hne
    · exact ((Value.forall_has_iff hstatus).1 (h.allowed _ hs hallowed)).imp_right fun h _ => h
  · rintro ⟨hown, hsame, hstatuses⟩
    refine ⟨fun h => (Value.forall_has_iff howner).2 (hown h), fun h hscope =>
      (Value.forall_has_iff hestablishment).2 (hsame h hscope), fun statuses hs hallowed => ?_,
      fun statuses hs => ?_⟩
    · exact (Value.forall_has_iff hstatus).2 ((hstatuses _ hs).imp_right fun h => h.1 hallowed)
    · exact (Value.forall_has_iff hstatus).2 ((hstatuses _ hs).imp_right And.right)

/-- Nothing is asked if there is no record, or an empty one. -/
theorem isMet_of_not_truthy (hrecord : record.IsRecordOrNull) (h : ¬record.truthy = true) :
    c.IsMet ctx record ∧ ¬c.Freezes record := by
  have hnone : ∀ name v, ¬record.Has name v := fun _ _ => Value.not_has_of_not_truthy hrecord h
  refine ⟨⟨fun _ v h => absurd h (hnone _ v), fun _ _ v h => absurd h (hnone _ v),
    fun _ _ _ v h => absurd h (hnone _ v), fun _ _ v h => absurd h (hnone _ v)⟩, ?_⟩
  rintro ⟨_, _, _, _, h⟩
  exact hnone _ _ h

/-- Conditions on a record show or hide, and make read-only, and nothing else. -/
theorem exists_flags (c : RecordCondition) (ctx : SecurityContext)
    (hrecord : record.IsRecordOrNull) : ∃ given, c.flags ctx record = .ok given ∧
      (given.visible = true ↔ c.IsMet ctx record) ∧ given.enabled = true ∧
      (given.readonly = true ↔ c.Freezes record) := by
  by_cases htruthy : record.truthy = true
  · obtain rfl | ⟨f, rfl⟩ := hrecord
    · cases htruthy
    obtain ⟨owner, howner⟩ : ∃ v, (Value.record f).fieldD "record_owner_id" = .ok v := ⟨_, rfl⟩
    obtain ⟨establishment, hestablishment⟩ :
      ∃ v, (Value.record f).fieldD "record_establishment_id" = .ok v := ⟨_, rfl⟩
    obtain ⟨status, hstatus⟩ : ∃ v, (Value.record f).fieldD "record_status" = .ok v := ⟨_, rfl⟩
    have hown : (!c.ownOnly || owner.isNull || owner.same (.text ctx.userId)) = true ↔
        (c.ownOnly = true → owner = .null ∨ owner = .text ctx.userId) := by
      simp [Value.same_text_right_iff, Classical.or_iff_not_imp_left]
    have hsame : (!c.sameEstablishmentOnly || establishment.isNull ||
        decide (ctx.scope ≠ .school) || establishment.same ctx.tenantId) = true ↔
        (c.sameEstablishmentOnly = true → ctx.scope = .school →
          establishment = .null ∨ establishment.same ctx.tenantId = true) := by
      cases c.sameEstablishmentOnly <;> by_cases hscope : ctx.scope = .school <;> simp [hscope]
    rw [isMet_iff howner hestablishment hstatus, flags, howner, hestablishment, hstatus,
      if_neg (by simp [htruthy]), ← hown, ← hsame]
    simp only [ok_bind, Freezes, Value.has_iff_of_fieldD hstatus]
    cases c.status with
    | none => exact ⟨_, rfl, by simp [Flags.shown], rfl, by simp [Flags.shown]⟩
    | some statuses =>
      cases hnull : status.isNull with
      | true =>
        obtain rfl := (Value.isNull_iff _).1 hnull
        exact ⟨_, rfl, by simp [Flags.shown], rfl, by simp [Flags.shown]⟩
      | false =>
        have hne : status ≠ .null := fun h => by simp [h, Value.isNull] at hnull
        refine ⟨_, rfl, by simp [hne, and_assoc], rfl, ?_⟩
        rw [statusIn_iff]
        simp [eq_comm]
  · obtain ⟨hmet, hfreezes⟩ : c.IsMet ctx record ∧ ¬c.Freezes record :=
      isMet_of_not_truthy hrecord htruthy
    exact ⟨.unrestricted, by simp [flags, htruthy], by simp [Flags.unrestricted, hmet], rfl,
      by simp [Flags.unrestricted, hfreezes]⟩

end RecordCondition

/-! ## Rules -/

theorem SecurityContext.grants_iff {ctx : SecurityContext} {object : String}
    {required : List (Action × Bool)} : ctx.grants object required = true ↔
      ∃ granted, ctx.permissions.get? object = some granted ∧
        ∀ a, (a, true) ∈ required → granted.allows a = true := by
  rw [grants]
  cases ctx.permissions.get? object with
  | none => simp
  | some granted => simp

/-- What is asked of a user. -/
theorem UiConditions.areMet_iff {c : UiConditions} {ctx : SecurityContext} {record : Value} :
    c.AreMet ctx record ↔ c.admits ctx = true ∧
      ∀ condition, c.record = some condition → condition.IsMet ctx record := by
  have hsubordinates : (c.subordinates.all fun needed => !needed || !ctx.subordinateIds.isEmpty) =
      true ↔ (c.subordinates = some true → ctx.subordinateIds ≠ []) := by
    obtain _ | _ | _ := c.subordinates <;> simp
  simp only [admits, Bool.and_eq_true, Option.all_eq_true, List.contains_iff_mem, List.all_eq_true,
    SecurityContext.grants_iff, hsubordinates, Prod.forall]
  exact ⟨fun h => ⟨⟨⟨⟨h.userType, h.scope⟩, h.permissions⟩, h.subordinates⟩, h.record⟩,
    fun ⟨⟨⟨⟨htype, hscope⟩, hpermissions⟩, hsubordinates⟩, hrecord⟩ =>
      ⟨htype, hscope, hpermissions, hsubordinates, hrecord⟩⟩

theorem UiConditions.exists_flags (c : UiConditions) (ctx : SecurityContext) {record : Value}
    (hrecord : record.IsRecordOrNull) : ∃ given, c.flags ctx record = .ok given ∧
      (given.visible = true ↔ c.AreMet ctx record) ∧ given.enabled = true ∧
      (given.readonly = true ↔ c.Freeze record) := by
  rw [flags, areMet_iff, Freeze]
  cases c.record with
  | none => exact ⟨_, rfl, by simp [Flags.shown], rfl, by simp [Flags.shown]⟩
  | some condition =>
    obtain ⟨given, hgiven, hvisible, henabled, hreadonly⟩ := condition.exists_flags ctx hrecord
    simp only [hgiven, ok_bind]
    exact ⟨_, rfl, by simp [Flags.both, Flags.shown, hvisible],
      by simp [Flags.both, Flags.shown, henabled], by simp [Flags.both, Flags.shown, hreadonly]⟩

/-- The defaults of a type show or hide, and nothing else. -/
theorem UiRule.defaults_eq_shown (r : UiRule) (ctx : SecurityContext) (policy : Policy) :
    ∃ b, r.defaults ctx policy = .shown b ∧ (b = true ↔
      ∀ t, ElementType.ofWord? r.elementType = some t → t.admits r.pattern ctx policy = true) := by
  rw [defaults]
  cases ElementType.ofWord? r.elementType with
  | none => exact ⟨true, rfl, by simp⟩
  | some t => exact ⟨_, rfl, by simp⟩

/-- A rule whose conditions can be read gives flags. It shows elements if it is visible and all
    that it asks for is so; whether they are enabled, it says itself; and whether they are
    read-only, the status of the record. -/
theorem UiRule.exists_flags {r : UiRule} (ctx : SecurityContext) (policy : Policy)
    {record : Value} (hrecord : record.IsRecordOrNull) {c : Option UiConditions}
    (hread : r.parsedConditions = .ok c) : ∃ given, r.flags ctx policy record = .ok given ∧
      (given.visible = true ↔ r.Shows ctx policy record) ∧ given.enabled = r.enabled.truthy ∧
      (given.readonly = true ↔ r.Freezes record) := by
  have hshows : r.Shows ctx policy record ↔ r.visible.truthy = true ∧
      (∀ c', c = some c' → c'.AreMet ctx record) ∧
      ∀ t, ElementType.ofWord? r.elementType = some t → t.admits r.pattern ctx policy = true := by
    refine ⟨fun h => ⟨h.own, fun c' hc => h.conditions c' (hc ▸ hread), h.defaults⟩,
      fun ⟨hown, hmet, hadmits⟩ => ⟨hown, fun c' hc => hmet c' ?_, hadmits⟩⟩
    exact Except.ok.inj (hread.symm.trans hc)
  have hfreezes : r.Freezes record ↔ ∃ c', c = some c' ∧ c'.Freeze record := by
    simp only [Freezes, hread, Except.ok.injEq]
  obtain ⟨given, hgiven, hvisible, henabled, hreadonly⟩ : ∃ given : Flags,
      r.flags ctx policy record = .ok ((Flags.both ⟨r.visible.truthy, r.enabled.truthy, false⟩
        given).both (r.defaults ctx policy)) ∧
      (given.visible = true ↔ ∀ c', c = some c' → c'.AreMet ctx record) ∧ given.enabled = true ∧
      (given.readonly = true ↔ ∃ c', c = some c' ∧ c'.Freeze record) := by
    cases c with
    | none =>
      exact ⟨.unrestricted, UiRule.flags_eq_ok_iff.2 ⟨_, _, hread, rfl, rfl⟩,
        by simp [Flags.unrestricted], rfl, by simp [Flags.unrestricted]⟩
    | some c =>
      obtain ⟨given, hgiven, hflags⟩ := c.exists_flags ctx hrecord
      exact ⟨given, UiRule.flags_eq_ok_iff.2 ⟨_, _, hread, hgiven, rfl⟩, by simpa using hflags⟩
  obtain ⟨shown, hdefaults, hshown⟩ := r.defaults_eq_shown ctx policy
  refine ⟨_, hgiven, ?_, ?_, ?_⟩
  · simp [hshows, hdefaults, Flags.both, Flags.shown, hvisible, hshown, and_assoc]
  · simp [hdefaults, Flags.both, Flags.shown, henabled]
  · simp [hfreezes, hdefaults, Flags.both, Flags.shown, hreadonly]

/-! ## Elements -/

namespace ElementVisibility

variable {policy : Policy} {ctx : SecurityContext} {name : String} {record : Value}

theorem ofContext_of_nil (h : ctx.uiRulesFor name = []) :
    ofContext ctx policy (.text name) record = .ok ⟨.text name, .unrestricted, none⟩ := by
  rw [ofContext, filterM_concerns, ok_bind, h]
  rfl

/-- An element answers whatever the order of the rules, and always in the same way. -/
theorem ofContext_perm {rules : List UiRule} (hperm : rules.Perm ctx.uiRules)
    {v : ElementVisibility} (h : ofContext ctx policy (.text name) record = .ok v) :
    ofContext { ctx with uiRules := rules } policy (.text name) record = .ok v := by
  have hrules : (SecurityContext.uiRulesFor { ctx with uiRules := rules } name).Perm
      (ctx.uiRulesFor name) := hperm.filter _
  cases hcase : ctx.uiRulesFor name with
  | nil =>
    rw [ofContext_of_nil hcase] at h
    rw [ofContext_of_nil (hcase ▸ hrules).eq_nil, h]
  | cons r _ =>
    have hr : r ∈ ctx.uiRulesFor name := hcase ▸ List.mem_cons_self
    rw [ofContext_of_mem hr] at h
    rw [ofContext_of_mem (hrules.mem_iff.2 hr)]
    obtain ⟨flags, hflags, hv⟩ := bind_eq_ok_iff.1 h
    obtain ⟨flags', hflags', hsame⟩ := exists_perm_of_mapM_eq_ok hrules.symm hflags
    refine bind_eq_ok_iff.2 ⟨flags', hflags', hv ▸ ?_⟩
    rw [Flags.foldl_either_closed, Flags.foldl_either_closed, hsame.any_eq, hsame.any_eq,
      hsame.any_eq]

/-- An element with rules has what they say, if the conditions of all of them can be read. -/
theorem exists_flags_of_mem (hrecord : record.IsRecordOrNull)
    (hread : ∀ r ∈ ctx.uiRulesFor name, ∃ c, r.parsedConditions = .ok c) {r : UiRule}
    (hr : r ∈ ctx.uiRulesFor name) :
    ∃ flags, ofContext ctx policy (.text name) record = .ok ⟨.text name, flags, none⟩ ∧
      (flags.visible = true ↔ ∃ r ∈ ctx.uiRulesFor name, r.Shows ctx policy record) ∧
      (flags.enabled = true ↔ ∃ r ∈ ctx.uiRulesFor name, r.enabled.truthy = true) ∧
      (flags.readonly = true ↔ ∃ r ∈ ctx.uiRulesFor name, r.Freezes record) := by
  have hgives : ∀ r ∈ ctx.uiRulesFor name, ∃ f, r.flags ctx policy record = .ok f ∧
      (f.visible = true ↔ r.Shows ctx policy record) ∧ f.enabled = r.enabled.truthy ∧
      (f.readonly = true ↔ r.Freezes record) := fun r hr =>
    (hread r hr).elim fun _ hc => UiRule.exists_flags ctx policy hrecord hc
  obtain ⟨given, hgiven⟩ :=
    exists_mapM_eq_ok_iff.2 fun r hr => (hgives r hr).imp fun _ => And.left
  have hflags : ∀ r ∈ ctx.uiRulesFor name, ∀ f, r.flags ctx policy record = .ok f →
      (f.visible = true ↔ r.Shows ctx policy record) ∧
      (f.enabled = true ↔ r.enabled.truthy = true) ∧ (f.readonly = true ↔ r.Freezes record) := by
    intro r hr f hf
    obtain ⟨f', hf', hvisible, henabled, hreadonly⟩ := hgives r hr
    obtain rfl := Except.ok.inj (hf.symm.trans hf')
    exact ⟨hvisible, by rw [henabled], hreadonly⟩
  refine ⟨given.foldl .either .closed, by rw [ofContext_of_mem hr, hgiven]; rfl, ?_⟩
  -- Every flag comes from a rule, and each rule gives what it says.
  rw [Flags.foldl_either_closed]
  exact ⟨any_of_mapM_eq_ok hgiven fun r hr f hf => (hflags r hr f hf).1,
    any_of_mapM_eq_ok hgiven fun r hr f hf => (hflags r hr f hf).2.1,
    any_of_mapM_eq_ok hgiven fun r hr f hf => (hflags r hr f hf).2.2⟩

/-- How an element shows itself to a user, for a record if there is one. Without a rule it is open.
    With rules it is seen if one of them shows it, enabled if one of them is, and read-only if one
    of them says so for the status of the record. The order of the rules does not matter. -/
theorem ofContext_flags (policy : Policy) (ctx : SecurityContext) (name : String) (record : Value)
    (hrecord : record = .null ∨ ∃ f, record = .record f)
    (hread : ∀ r ∈ ctx.uiRules, Wildcard.accepts r.pattern name = true →
      ∃ c, r.parsedConditions = .ok c) :
    ∃ flags, ofContext ctx policy (.text name) record = .ok ⟨.text name, flags, none⟩ ∧
      ((∀ r ∈ ctx.uiRules, Wildcard.accepts r.pattern name = false) → flags = .unrestricted) ∧
      ((∃ r ∈ ctx.uiRules, Wildcard.accepts r.pattern name = true) →
        (flags.visible = true ↔ ∃ r ∈ ctx.uiRules, Wildcard.accepts r.pattern name = true ∧
          r.Shows ctx policy record) ∧
        (flags.enabled = true ↔ ∃ r ∈ ctx.uiRules, Wildcard.accepts r.pattern name = true ∧
          r.enabled.truthy = true) ∧
        (flags.readonly = true ↔ ∃ r ∈ ctx.uiRules, Wildcard.accepts r.pattern name = true ∧
          r.Freezes record)) ∧
      ∀ rules : List UiRule, rules.Perm ctx.uiRules →
        ofContext { ctx with uiRules := rules } policy (.text name) record =
          .ok ⟨.text name, flags, none⟩ := by
  have hconcerns : ∀ p : UiRule → Prop, (∃ r ∈ ctx.uiRulesFor name, p r) ↔
      ∃ r ∈ ctx.uiRules, Wildcard.accepts r.pattern name = true ∧ p r := by
    simp [SecurityContext.mem_uiRulesFor, and_assoc]
  have hreadFor : ∀ r ∈ ctx.uiRulesFor name, ∃ c, r.parsedConditions = .ok c := fun r hr =>
    (SecurityContext.mem_uiRulesFor.1 hr).elim (hread r)
  by_cases hsome : ∃ r ∈ ctx.uiRules, Wildcard.accepts r.pattern name = true
  · obtain ⟨r, hr, haccepts⟩ := hsome
    obtain ⟨flags, hflags, hgiven⟩ := exists_flags_of_mem hrecord hreadFor
      (SecurityContext.mem_uiRulesFor.2 ⟨hr, haccepts⟩)
    rw [hconcerns, hconcerns, hconcerns] at hgiven
    refine ⟨flags, hflags, fun hnone => ?_, fun _ => hgiven,
      fun rules hperm => ofContext_perm hperm hflags⟩
    cases haccepts.symm.trans (hnone r hr)
  · have hnil : ctx.uiRulesFor name = [] :=
      List.filter_eq_nil_iff.2 fun r hr haccepts => hsome ⟨r, hr, haccepts⟩
    have hopen : ofContext ctx policy (.text name) record =
        .ok ⟨.text name, .unrestricted, none⟩ := ofContext_of_nil hnil
    exact ⟨.unrestricted, hopen, fun _ => rfl, fun h => absurd h hsome,
      fun rules hperm => ofContext_perm hperm hopen⟩

end ElementVisibility

/-- The conditions of a rule for reports: clerks see their own ones, and those that have been
    submitted are read-only. -/
def UiConditions.ofReports : UiConditions where
  userTypes := some ["CLERK"]
  record := some { ownOnly := true, status := some { readOnlyWhen := ["SUBMITTED"] } }

/-- A rule for reports. -/
def UiRule.reports : UiRule :=
  ⟨"form-report", "FIELD", .bool true, .bool false, .record
    [("user_types", .list [.text "CLERK"]),
      ("contextual", .record [("own_record_only", .bool true),
        ("record_status", .record [("read_only_when", .list [.text "SUBMITTED"])])])]⟩

/-- A clerk with a rule for reports and one that enables all forms without showing them. -/
def SecurityContext.withForms : SecurityContext where
  userId := "eve"
  scope := .school
  userType := "CLERK"
  tenantId := .text "north"
  permissions := .empty
  rowRules := .empty
  uiRules := [⟨"form-*", "SECTION", .bool false, .bool true, .null⟩, .reports]
  hierarchy := none
  lastUpdated := .finite false 0

/-- A report that the clerk has submitted. -/
def Value.submittedReport : Value :=
  .record [("record_owner_id", .text "eve"), ("record_status", .text "SUBMITTED")]

theorem UiRule.parsedConditions_reports :
    UiRule.reports.parsedConditions = .ok (some .ofReports) := rfl

theorem UiConditions.areMet_ofReports :
    UiConditions.ofReports.AreMet .withForms .submittedReport := by
  refine areMet_iff.2 ⟨by decide, ?_⟩
  rintro _ ⟨⟩
  refine (RecordCondition.isMet_iff rfl rfl rfl).2 ⟨fun _ => .inr rfl, nofun, ?_⟩
  rintro _ ⟨⟩
  exact .inr (by decide)

namespace ElementVisibility

/-- The submitted report is shown by the one rule, enabled by the other one, and read-only. -/
theorem submittedReport_flags :
    (∃ f, Value.submittedReport = .record f) ∧
    (∀ r ∈ SecurityContext.withForms.uiRules, Wildcard.accepts r.pattern "form-report" = true →
      ∃ c, r.parsedConditions = .ok c) ∧
    ∃ flags, ofContext .withForms {} (.text "form-report") .submittedReport =
        .ok ⟨.text "form-report", flags, none⟩ ∧
      flags.visible = true ∧ flags.enabled = true ∧ flags.readonly = true := by
  have hread : ∀ r ∈ SecurityContext.withForms.uiRules,
      Wildcard.accepts r.pattern "form-report" = true → ∃ c, r.parsedConditions = .ok c :=
    List.forall_mem_cons.2 ⟨fun _ => ⟨none, rfl⟩,
      List.forall_mem_cons.2 ⟨fun _ => ⟨_, UiRule.parsedConditions_reports⟩, nofun⟩⟩
  obtain ⟨flags, hflags, -, hrules, -⟩ := ofContext_flags {} .withForms "form-report"
    .submittedReport (.inr ⟨_, rfl⟩) hread
  have hreports : UiRule.reports ∈ SecurityContext.withForms.uiRules :=
    List.mem_cons_of_mem _ List.mem_cons_self
  have haccepts : Wildcard.accepts UiRule.reports.pattern "form-report" = true := by decide
  obtain ⟨hvisible, henabled, hreadonly⟩ := hrules ⟨_, hreports, haccepts⟩
  refine ⟨⟨_, rfl⟩, hread, flags, hflags, hvisible.2 ⟨_, hreports, haccepts, ?_⟩,
    henabled.2 ⟨_, List.mem_cons_self, by decide, rfl⟩,
    hreadonly.2 ⟨_, hreports, haccepts, ?_⟩⟩
  · refine ⟨rfl, fun c hc => ?_, fun t ht => ?_⟩
    · obtain rfl : .ofReports = c :=
        Option.some.inj (Except.ok.inj (UiRule.parsedConditions_reports.symm.trans hc))
      exact UiConditions.areMet_ofReports
    · obtain rfl : .field = t := Option.some.inj ht
      decide
  · exact ⟨_, UiRule.parsedConditions_reports, _, rfl, _, rfl, "SUBMITTED", List.mem_cons_self,
      rfl, nofun⟩

end ElementVisibility

end StaffAccess

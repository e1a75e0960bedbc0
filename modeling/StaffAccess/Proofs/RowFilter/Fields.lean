import StaffAccess.Proofs.RowFilter.FailClosed

/-!
# Where rules look

The predicate of a rule is put together from tests of a few fields, whose names stand in the
condition of the rule. Which of these fields a rule can test depends on the user: what is compared
with the user's tenant is a structure for ministry staff, and an establishment for school staff.

The names have defaults. With these, no rule has an establishment compared with the structure of
somebody at the ministry. The other way round there is an exception. A rule of the kind `custom`
for establishments asks for the role of the user and not for the scope, so that a director of a
school, like one at the ministry, sees the establishments of the structure whose id is that of the
school.

* `RuleCondition.CanTest`: the fields that a rule with the condition can test.
* `VisibilityRule.isBuiltOn_predicate`: the predicate of a rule is put together from tests of them.
* `RuleCondition.HasDefaultFields`: the conditions that leave the names of fields as they are.
* `RowFilter.ofContext_cases`: what a filter can be.
* `RowFilter.isBuiltOn_ofContext`: the predicate of a filter is put together from tests of the
  fields that the rules of the object can test.
* `RowFilter.tenantFields_keptApart`: which tenants the default fields are compared with.
* `RowFilter.headteacher_looksAtStructure`: the exception.
-/

namespace StaffAccess

open Predicate (IsBuiltOn LooksAt)

/-! ## Fields -/

/-- Whether rules of the kind `custom` take an object for establishments. A name that is given
    twice stands for the other object. -/
def Policy.IsEstablishment (policy : Policy) (object : String) : Prop :=
  object = policy.objects.establishment ∧ object ≠ policy.objects.inspection ∧
    object ≠ policy.objects.userManagement

section CanTest

variable (policy : Policy) (ctx : SecurityContext) (object field : String)

/-- Whether a rule with the condition can test a field. A predicate document can test any. -/
def CustomCondition.CanTest (c : CustomCondition) : Prop :=
  object = policy.objects.userManagement ∧
    (ctx.scope = .ministry ∧ field = c.scopeField ∨
      ctx.scope = .school ∧ field = c.establishmentField) ∨
  object = policy.objects.inspection ∧ ctx.scope = .ministry ∧
    field = c.principalInspectorField ∨
  policy.IsEstablishment object ∧
    (c.SeesStructure policy ctx ∧ field = c.structureField ∨
      c.SeesAssigned policy ctx ∧ field = c.inspectorField) ∨
  c.filter.isSome = true

/-- Whether a rule with the condition can test a field. -/
def RuleCondition.CanTest : RuleCondition → Prop
  | hierarchy c => field = c.field
  | geography c => ctx.scope = .ministry ∧ field = c.structureField ∨
      ctx.scope = .school ∧ field = c.establishmentField
  | ownership c => field ∈ VisibilityRule.ownerFields c
  | tenant c => ctx.scope = .school ∧ field = c.field ∨
      ctx.scope = .ministry ∧ field = c.structureField
  | custom c => c.CanTest policy ctx object field

end CanTest

/-! ## Rules -/

namespace VisibilityRule

variable {policy : Policy} {ctx : SecurityContext} {object : String} {rule : VisibilityRule}
  {p : Predicate} {q : String → Prop}

/-- A rule that gives a predicate has a condition. -/
theorem exists_reading_of_predicate (h : rule.predicate ctx object policy = .ok (some p)) :
    ∃ c, rule.reading = .ok c := by
  cases hreading : rule.reading with
  | ok c => exact ⟨c, rfl⟩
  | error fault =>
    by_cases hunread : rule.kind = .hierarchy ∧ ctx.hierarchy = none
    · rw [predicate, hunread.1] at h
      simp [byHierarchy, hunread.2] at h
    · rw [predicate_of_reading_error hreading hunread] at h
      cases h

theorem isBuiltOn_ownTeam {field : String} (hq : q field)
    (h : (do return some (← Predicate.fieldIn field (ownTeam ctx))) = .ok (some p)) :
    p.IsBuiltOn q := by
  obtain ⟨p', hp', h⟩ := bind_eq_ok_iff.1 h
  cases h
  exact .fieldIn hq hp'

theorem isBuiltOn_byHierarchy {c : HierarchyCondition}
    (hc : rule.conditionAs HierarchyCondition.check = .ok c)
    (h : rule.byHierarchy ctx = .ok (some p)) :
    p.IsBuiltOn ((RuleCondition.hierarchy c).CanTest policy ctx object) := by
  rw [byHierarchy] at h
  split_ifs at h
  · cases h
  · rw [hc, ok_bind] at h
    exact isBuiltOn_ownTeam rfl h

theorem isBuiltOn_byGeography {c : GeographyCondition}
    (hc : rule.conditionAs GeographyCondition.check = .ok c)
    (h : rule.byGeography ctx = .ok (some p)) :
    p.IsBuiltOn ((RuleCondition.geography c).CanTest policy ctx object) := by
  rw [byGeography] at h
  rw [hc, ok_bind] at h
  split_ifs at h with _ hstructure hestablishment
  · cases h
  · cases h
    exact .equals (.inl ⟨hstructure.1, rfl⟩) _
  · cases h
    exact .equals (.inr ⟨hestablishment.1, rfl⟩) _
  · cases h

theorem isBuiltOn_byOwnership {c : OwnershipCondition}
    (hc : rule.conditionAs OwnershipCondition.check = .ok c)
    (h : rule.byOwnership ctx = .ok (some p)) :
    p.IsBuiltOn ((RuleCondition.ownership c).CanTest policy ctx object) := by
  rw [byOwnership] at h
  rw [hc, ok_bind] at h
  split at h
  · cases h
  · cases h
    exact .anyOf (List.forall_mem_map.2 fun field hfield => .equals hfield _)

theorem isBuiltOn_byTenant {c : TenantCondition}
    (hc : rule.conditionAs TenantCondition.check = .ok c)
    (h : rule.byTenant ctx policy = .ok (some p)) :
    p.IsBuiltOn ((RuleCondition.tenant c).CanTest policy ctx object) := by
  rw [byTenant] at h
  rw [hc, ok_bind] at h
  cases hscope : ctx.scope with
  | school =>
    rw [if_pos hscope] at h
    split_ifs at h
    · cases h
      exact .matchNone
    · cases h
      exact .equals (.inl ⟨hscope, rfl⟩) _
  | ministry =>
    rw [if_neg (by simp [hscope])] at h
    split_ifs at h
    · cases h
    · cases h
      exact .matchAll
    · cases h
      exact .equals (.inr ⟨hscope, rfl⟩) _
    · cases h
      exact .matchNone

/-! ## Special objects -/

variable {c : CustomCondition}

theorem isBuiltOn_ofUsers (hobject : object = policy.objects.userManagement)
    (h : ofUsers c ctx = some p) : p.IsBuiltOn (c.CanTest policy ctx object) := by
  rw [ofUsers] at h
  cases hscope : ctx.scope with
  | school =>
    rw [if_neg (by simp [hscope])] at h
    split_ifs at h
    · cases h
      exact .matchNone
    · cases h
      exact .equals (.inl ⟨hobject, .inr ⟨hscope, rfl⟩⟩) _
  | ministry =>
    rw [if_pos hscope] at h
    split_ifs at h
    cases h
    exact .equals (.inl ⟨hobject, .inl ⟨hscope, rfl⟩⟩) _

theorem isBuiltOn_ofInspections (hobject : object = policy.objects.inspection)
    (h : (do return some (← ofInspections c ctx)) = .ok (some p)) :
    p.IsBuiltOn (c.CanTest policy ctx object) := by
  rw [ofInspections] at h
  split_ifs at h with hscope
  · exact isBuiltOn_ownTeam (.inr (.inl ⟨hobject, hscope, rfl⟩)) h
  · cases h
    exact .matchNone

theorem isBuiltOn_ofEstablishments (hobject : policy.IsEstablishment object)
    (h : ofEstablishments c ctx policy = some p) : p.IsBuiltOn (c.CanTest policy ctx object) := by
  obtain ⟨tests, htests, hgiven⟩ := exists_tests_ofEstablishments c ctx policy
  rw [hgiven] at h
  split_ifs at h
  cases h
  refine .anyOf (List.forall_mem_map.2 fun test htest => .equals ?_ _)
  rcases (htests test).1 htest with ⟨hs, rfl⟩ | ⟨ha, rfl⟩
  · exact .inr (.inr (.inl ⟨hobject, .inl ⟨hs, rfl⟩⟩))
  · exact .inr (.inr (.inl ⟨hobject, .inr ⟨ha, rfl⟩⟩))

theorem isBuiltOn_ofDocument (hq : ∀ field, q field) {document : Fields}
    (h : ofDocument object document = .ok p) : p.IsBuiltOn q := by
  rw [ofDocument] at h
  split at h
  · cases h
  · exact Predicate.isBuiltOn_ofValue hq h

theorem isBuiltOn_byObject (hc : rule.conditionAs CustomCondition.check = .ok c)
    (h : rule.byObject ctx object policy = .ok (some p)) :
    p.IsBuiltOn ((RuleCondition.custom c).CanTest policy ctx object) := by
  rw [byObject] at h
  rw [hc, ok_bind] at h
  split_ifs at h with husers hinspections hestablishments
  · exact isBuiltOn_ofUsers husers (Except.ok.inj h)
  · exact isBuiltOn_ofInspections hinspections h
  · exact isBuiltOn_ofEstablishments ⟨hestablishments, hinspections, husers⟩ (Except.ok.inj h)
  · split at h
    · cases h
    · rename_i document hdocument
      obtain ⟨p', hp', h⟩ := bind_eq_ok_iff.1 h
      cases h
      exact isBuiltOn_ofDocument
        (fun _ => .inr (.inr (.inr (by rw [hdocument, Option.isSome_some])))) hp'

/-- The predicate of a rule is put together from tests of fields that the rule can test. -/
theorem isBuiltOn_predicate {condition : RuleCondition} (hcondition : rule.reading = .ok condition)
    (h : rule.predicate ctx object policy = .ok (some p)) :
    p.IsBuiltOn (condition.CanTest policy ctx object) := by
  rw [reading] at hcondition
  rw [predicate] at h
  cases hkind : rule.kind <;> rw [hkind] at hcondition h <;> dsimp only at hcondition h <;>
    obtain ⟨c, hc, rfl⟩ := map_eq_ok_iff.1 hcondition
  · exact isBuiltOn_byHierarchy hc h
  · exact isBuiltOn_byGeography hc h
  · exact isBuiltOn_byOwnership hc h
  · exact isBuiltOn_byTenant hc h
  · exact isBuiltOn_byObject hc h

/-- The predicate of a rule is in normal form. -/
theorem isNormal_predicate (h : rule.predicate ctx object policy = .ok (some p)) : p.IsNormal := by
  obtain ⟨c, hc⟩ := exists_reading_of_predicate h
  exact (isBuiltOn_predicate hc h).isNormal

end VisibilityRule

/-! ## Default fields -/

/-- Whether a condition names the fields that are named by default, and has no predicate
    document, which would name fields of its own. -/
def RuleCondition.HasDefaultFields : RuleCondition → Prop
  | hierarchy c => c = {}
  | geography c => c = { byStructure := c.byStructure, byEstablishment := c.byEstablishment }
  | ownership c => c = { created := c.created, modified := c.modified, assigned := c.assigned }
  | tenant c => c = { severalEstablishments := c.severalEstablishments }
  | custom c => c = { byStructure := c.byStructure, byAssignment := c.byAssignment,
                      ministryUsers := c.ministryUsers }

/-- The entries of a condition that name fields, and the one for a predicate document. -/
def fieldKeys : List String :=
  ["field", "structure_field", "establishment_field", "created_field", "modified_field",
    "assigned_field", "inspector_field", "principal_inspector_field", "scope_field", "where"]

/-- Whether the entries of a condition name no field. -/
def NamesNoField (f : Fields) : Prop := ∀ key ∈ fieldKeys, f.lookup key = none

instance (f : Fields) : Decidable (NamesNoField f) :=
  inferInstanceAs (Decidable (∀ key ∈ fieldKeys, f.lookup key = none))

section NamesNoField

variable {f : Fields}

theorem NamesNoField.entry {α : Type} (hf : NamesNoField f) {key : String} (hkey : key ∈ fieldKeys)
    (shape : Value → Checked α) (fallback : α) :
    Checked.entry f key shape fallback = .valid fallback := by
  rw [Checked.entry, hf key hkey]

theorem HierarchyCondition.hasDefaultFields {c : HierarchyCondition} (hf : NamesNoField f)
    (h : check f = .valid c) : (RuleCondition.hierarchy c).HasDefaultFields := by
  simp (disch := decide) only [check, hf.entry] at h
  cases h
  rfl

theorem GeographyCondition.hasDefaultFields {c : GeographyCondition} (hf : NamesNoField f)
    (h : check f = .valid c) : (RuleCondition.geography c).HasDefaultFields := by
  simp (disch := decide) only [check, hf.entry] at h
  generalize Checked.entry f "restrict_by_structure" .flag _ = byStructure at h
  generalize Checked.entry f "restrict_by_establishment" .flag _ = byEstablishment at h
  cases byStructure <;> cases byEstablishment <;> cases h
  rfl

theorem OwnershipCondition.hasDefaultFields {c : OwnershipCondition} (hf : NamesNoField f)
    (h : check f = .valid c) : (RuleCondition.ownership c).HasDefaultFields := by
  simp (disch := decide) only [check, hf.entry] at h
  generalize Checked.entry f "include_created" .flag _ = created at h
  generalize Checked.entry f "include_modified" .flag _ = modified at h
  generalize Checked.entry f "include_assigned" .flag _ = assigned at h
  cases created <;> cases modified <;> cases assigned <;> cases h
  rfl

theorem TenantCondition.hasDefaultFields {c : TenantCondition} (hf : NamesNoField f)
    (h : check f = .valid c) : (RuleCondition.tenant c).HasDefaultFields := by
  simp (disch := decide) only [check, hf.entry] at h
  generalize Checked.entry f "allow_multiple_establishments" .flag _ = several at h
  cases several <;> cases h
  rfl

theorem CustomCondition.hasDefaultFields {c : CustomCondition} (hf : NamesNoField f)
    (h : check f = .valid c) : (RuleCondition.custom c).HasDefaultFields := by
  simp (disch := decide) only [check, hf.entry] at h
  generalize Checked.entry f "restrict_by_structure" .flag _ = byStructure at h
  generalize Checked.entry f "restrict_by_assignment" .flag _ = byAssignment at h
  generalize Checked.entry f "allow_ministry_users" .flag _ = ministryUsers at h
  cases byStructure <;> cases byAssignment <;> cases ministryUsers <;> cases h
  rfl

end NamesNoField

namespace VisibilityRule

variable {policy : Policy} {ctx : SecurityContext} {object : String} {rule : VisibilityRule}
  {p : Predicate}

theorem conditionAs_eq_ok_iff {α : Type} {check : Fields → Checked α} {c : α} :
    rule.conditionAs check = .ok c ↔
      ∃ f, rule.condition.toFields = .ok f ∧ check f = .valid c := by
  rw [conditionAs, bind_eq_ok_iff]
  refine exists_congr fun f => and_congr_right fun _ => ?_
  cases check f <;> simp

/-- A rule that names no field has the default ones. -/
theorem hasDefaultFields_of_reading {f : Fields} {condition : RuleCondition}
    (hf : rule.condition.toFields = .ok f) (hnames : NamesNoField f)
    (hcondition : rule.reading = .ok condition) : condition.HasDefaultFields := by
  rw [reading] at hcondition
  cases hkind : rule.kind <;> rw [hkind] at hcondition <;> dsimp only at hcondition <;>
    obtain ⟨c, hc, rfl⟩ := map_eq_ok_iff.1 hcondition <;>
    rw [conditionAs_eq_ok_iff, hf] at hc <;>
    obtain ⟨_, ⟨⟩, hcheck⟩ := hc
  · exact HierarchyCondition.hasDefaultFields hnames hcheck
  · exact GeographyCondition.hasDefaultFields hnames hcheck
  · exact OwnershipCondition.hasDefaultFields hnames hcheck
  · exact TenantCondition.hasDefaultFields hnames hcheck
  · exact CustomCondition.hasDefaultFields hnames hcheck

end VisibilityRule

/-! ## Tenants -/

namespace RuleCondition

variable {policy : Policy} {ctx : SecurityContext} {object : String} {c : RuleCondition}

/-- Whether a rule with the condition compares the structures of establishments with the tenant of
    a user, whatever that is. -/
def ComparesStructure (policy : Policy) (ctx : SecurityContext) (object : String) :
    RuleCondition → Prop
  | custom c => policy.IsEstablishment object ∧ c.SeesStructure policy ctx
  | _ => False

/-- By default, no rule for ministry staff looks at establishments. -/
theorem HasDefaultFields.not_canTest_establishment (hc : c.HasDefaultFields)
    (hscope : ctx.scope = .ministry) : ¬c.CanTest policy ctx object "establishment_id" := by
  cases c with
  | hierarchy c =>
    obtain rfl : c = {} := hc
    simp [CanTest]
  | geography c =>
    rw [show c = _ from hc]
    simp [CanTest, hscope]
  | ownership c =>
    rw [show c = _ from hc]
    simp [CanTest, VisibilityRule.mem_ownerFields]
  | tenant c =>
    rw [show c = _ from hc]
    simp [CanTest, hscope]
  | custom c =>
    rw [show c = _ from hc]
    simp [CanTest, CustomCondition.CanTest, hscope]

/-- By default, one rule only looks at structures for school staff. -/
theorem HasDefaultFields.canTest_structure_iff (hc : c.HasDefaultFields)
    (hscope : ctx.scope = .school) :
    c.CanTest policy ctx object "structure_id" ↔ c.ComparesStructure policy ctx object := by
  cases c with
  | hierarchy c =>
    obtain rfl : c = {} := hc
    simp [CanTest, ComparesStructure]
  | geography c =>
    rw [show c = _ from hc]
    simp [CanTest, ComparesStructure, hscope]
  | ownership c =>
    rw [show c = _ from hc]
    simp [CanTest, ComparesStructure, VisibilityRule.mem_ownerFields]
  | tenant c =>
    rw [show c = _ from hc]
    simp [CanTest, ComparesStructure, hscope]
  | custom c =>
    rw [show c = _ from hc]
    simp [CanTest, CustomCondition.CanTest, ComparesStructure, hscope]

end RuleCondition

/-- A rule that compares the structures of establishments does so in its predicate. -/
theorem VisibilityRule.looksAt_of_comparesStructure {policy : Policy} {ctx : SecurityContext}
    {object : String} {rule : VisibilityRule} {p : Predicate} {c : CustomCondition}
    (hc : rule.reading = .ok (.custom c)) (hobject : policy.IsEstablishment object)
    (hsees : c.SeesStructure policy ctx)
    (hp : rule.predicate ctx object policy = .ok (some p)) : p.LooksAt c.structureField := by
  obtain ⟨hestablishment, hinspection, husers⟩ := hobject
  obtain ⟨hkind, hc⟩ := reading_eq_custom_iff.1 hc
  rw [predicate, hkind] at hp
  dsimp only at hp
  rw [byObject, hc, ok_bind, if_neg husers, if_neg hinspection, if_pos hestablishment] at hp
  obtain ⟨tests, htests, hgiven⟩ := exists_tests_ofEstablishments c ctx policy
  have htest : (c.structureField, ctx.tenantId) ∈ tests := (htests _).2 (.inl ⟨hsees, rfl⟩)
  rw [hgiven, if_neg (by simpa using List.ne_nil_of_mem htest)] at hp
  cases hp
  have hplain : ∀ p ∈ tests.map fun test => Predicate.equals test.1 test.2, p ≠ .matchAll :=
    List.forall_mem_map.2 fun _ _ => by simp
  exact .anyOf hplain (List.mem_map_of_mem htest) (.equals _)

/-! ## Filters -/

namespace RowFilter

variable {policy : Policy} {ctx : SecurityContext} {object : Value} {filter : RowFilter}

/-- A filter hides everything from those whom the object is not for, or nothing, or it shows what
    one of the predicates shows that the rules of the object give. -/
theorem ofContext_cases (h : ofContext ctx object policy = .ok filter) :
    filter = denied reservedMessage ∨ filter = unrestricted ∨
      ∃ name parts, object = .text name ∧ filter = ofPredicate (.anyOf parts) ∧
        ∀ p ∈ parts, ∃ rule ∈ ctx.rulesOn name, rule.predicate ctx name policy = .ok (some p) := by
  rw [ofContext] at h
  split_ifs at h with hlocked
  · exact .inl (Except.ok.inj h).symm
  · rw [bind_eq_ok_iff] at h
    obtain ⟨entry, hentry, h⟩ := h
    split at h
    · rename_i rules name
      rw [OrderedMap.find, Except.ok.injEq] at hentry
      rw [ofRules] at h
      obtain ⟨given, hgiven, h⟩ := bind_eq_ok_iff.1 h
      split at h
      · exact .inr (.inl (Except.ok.inj h).symm)
      · refine .inr (.inr ⟨name, _, rfl, (Except.ok.inj h).symm, fun p hp => ?_⟩)
        rw [List.mem_filterMap] at hp
        obtain ⟨_, hmem, rfl⟩ := hp
        rw [SecurityContext.rulesOn, hentry, Option.getD_some]
        exact (mem_of_mapM_eq_ok hgiven).1 hmem
    · exact .inr (.inl (Except.ok.inj h).symm)

/-- The level of a filter is that of its predicate. -/
theorem level_ofContext (h : ofContext ctx object policy = .ok filter) :
    filter.level = .ofPredicate filter.predicate := by
  rcases ofContext_cases h with rfl | rfl | ⟨_, _, _, rfl, _⟩ <;> rfl

/-- The predicate of a filter is put together from tests of fields that the rules can test. -/
theorem isBuiltOn_ofContext (h : ofContext ctx object policy = .ok filter) :
    filter.predicate.IsBuiltOn fun field => ∃ name, object = .text name ∧
      ∃ rule ∈ ctx.rulesOn name, ∃ c, rule.reading = .ok c ∧ c.CanTest policy ctx name field := by
  rcases ofContext_cases h with rfl | rfl | ⟨name, parts, rfl, rfl, hparts⟩
  · exact .matchNone
  · exact .matchAll
  · refine .anyOf fun p hp => ?_
    obtain ⟨rule, hrule, hpredicate⟩ := hparts p hp
    obtain ⟨c, hc⟩ := VisibilityRule.exists_reading_of_predicate hpredicate
    exact (VisibilityRule.isBuiltOn_predicate hc hpredicate).mono
      fun field hfield => ⟨name, rfl, rule, hrule, c, hc, hfield⟩

/-- The predicate of a rule with the default fields looks at no establishment for ministry staff,
    and for school staff at no structure either, unless it is a rule for establishments that asks
    for the user's role only. A filter is made from such predicates, and looks at nothing else. -/
theorem tenantFields_keptApart (policy : Policy) (ctx : SecurityContext) (object : String) :
    (∀ (rule : VisibilityRule) (condition : RuleCondition) (p : Predicate),
      rule.reading = .ok condition → condition.HasDefaultFields →
      rule.predicate ctx object policy = .ok (some p) →
      (ctx.scope = .ministry → ¬p.LooksAt "establishment_id") ∧
      (ctx.scope = .school →
        (p.LooksAt "structure_id" ↔ condition.ComparesStructure policy ctx object))) ∧
    ∀ filter, ofContext ctx (.text object) policy = .ok filter →
      (∀ rule ∈ ctx.rulesOn object, ∀ condition, rule.reading = .ok condition →
        condition.HasDefaultFields) →
      (ctx.scope = .ministry → ¬filter.predicate.LooksAt "establishment_id") ∧
      (ctx.scope = .school → filter.predicate.LooksAt "structure_id" →
        ∃ rule ∈ ctx.rulesOn object, ∃ condition, rule.reading = .ok condition ∧
          condition.ComparesStructure policy ctx object) := by
  constructor
  · intro rule condition p hcondition hdefault hp
    have hbuilt := VisibilityRule.isBuiltOn_predicate hcondition hp
    refine ⟨fun hscope hlooks =>
      hdefault.not_canTest_establishment hscope (hbuilt.of_looksAt hlooks), fun hscope => ?_⟩
    constructor
    · intro hlooks
      exact (hdefault.canTest_structure_iff hscope).1 (hbuilt.of_looksAt hlooks)
    · intro hcompares
      match condition, hcompares with
      | .custom c, ⟨hobject, hsees⟩ =>
        have hlooks := VisibilityRule.looksAt_of_comparesStructure hcondition hobject hsees hp
        rw [show c = _ from hdefault] at hlooks
        exact hlooks
  · intro filter hfilter hdefault
    have hbuilt := isBuiltOn_ofContext hfilter
    constructor
    · intro hscope hlooks
      obtain ⟨_, ⟨⟩, rule, hrule, c, hc, htest⟩ := hbuilt.of_looksAt hlooks
      exact (hdefault rule hrule c hc).not_canTest_establishment hscope htest
    · intro hscope hlooks
      obtain ⟨_, ⟨⟩, rule, hrule, c, hc, htest⟩ := hbuilt.of_looksAt hlooks
      exact ⟨rule, hrule, c, hc, ((hdefault rule hrule c hc).canTest_structure_iff hscope).1 htest⟩

end RowFilter

/-- Restricts establishments to those of the user's structure. -/
def VisibilityRule.ofStructure : VisibilityRule :=
  ⟨.custom, .record [("restrict_by_structure", .bool true)], .int 1⟩

/-- Restricts rows to those of the user's tenant. -/
def VisibilityRule.ofTenant : VisibilityRule := ⟨.tenant, .record [], .int 0⟩

/-- A director of a school, who sees documents and establishments. -/
def SecurityContext.headteacher : SecurityContext where
  __ := SecurityContext.teamLead
  userId := "eve"
  scope := .school
  userType := "DIRECTOR"
  tenantId := .text "school-1"
  rowRules := .ofEntries [("doc", [.ofTenant]),
    ("etablissement.management", [.ofStructure, .ofTenant])]
  hierarchy := none

/-- A director at the ministry with the same rules. -/
def SecurityContext.director : SecurityContext where
  __ := SecurityContext.headteacher
  scope := .ministry
  tenantId := .text "structure-1"

namespace RowFilter

/-- The documents that the director of a school sees are not looked up by their structure, and the
    establishments that the one at the ministry sees not by their own id. -/
theorem directors_tenantFields :
    (∃ p, VisibilityRule.ofTenant.predicate .headteacher "doc" {} = .ok (some p) ∧
      ¬p.LooksAt "structure_id") ∧
    (∃ filter, ofContext .headteacher (.text "doc") {} = .ok filter ∧
      ¬filter.predicate.LooksAt "structure_id") ∧
    ∃ filter, ofContext .director (.text "etablissement.management") {} = .ok filter ∧
      ¬filter.predicate.LooksAt "establishment_id" := by
  have htenant : ∀ c, VisibilityRule.ofTenant.reading = .ok c → c.HasDefaultFields :=
    fun _ hc => VisibilityRule.hasDefaultFields_of_reading rfl (fun _ _ => rfl) hc
  have hstructure : ∀ c, VisibilityRule.ofStructure.reading = .ok c → c.HasDefaultFields :=
    fun _ hc => VisibilityRule.hasDefaultFields_of_reading rfl (by decide) hc
  obtain ⟨hrule, hfilter⟩ := tenantFields_keptApart {} .headteacher "doc"
  obtain ⟨-, hfilter'⟩ := tenantFields_keptApart {} .director "etablissement.management"
  refine ⟨⟨_, rfl, ?_⟩, ⟨_, rfl, ?_⟩, ⟨_, rfl, ?_⟩⟩
  · exact ((hrule .ofTenant _ _ rfl (htenant _ rfl) rfl).2 rfl).not.2 id
  · intro hlooks
    obtain ⟨rule, hmem, c, hc, hcompares⟩ :=
      (hfilter _ rfl (List.forall_mem_singleton.2 htenant)).2 rfl hlooks
    obtain rfl := List.mem_singleton.1 hmem
    obtain rfl := Except.ok.inj hc
    exact hcompares
  · exact (hfilter' _ rfl
      (List.forall_mem_cons.2 ⟨hstructure, List.forall_mem_singleton.2 htenant⟩)).1 rfl

/-- The establishments are looked up by their structure, with the id of the school. -/
theorem headteacher_looksAtStructure :
    SecurityContext.headteacher.scope = .school ∧
    (∃ c, VisibilityRule.ofStructure.reading = .ok c ∧ c.HasDefaultFields) ∧
    VisibilityRule.ofStructure.predicate .headteacher "etablissement.management" {} =
      .ok (some (.equals "structure_id" (.text "school-1"))) ∧
    LooksAt "structure_id" (.equals "structure_id" (.text "school-1")) :=
  ⟨rfl, ⟨_, rfl, rfl⟩, rfl, .equals _⟩

end RowFilter

end StaffAccess

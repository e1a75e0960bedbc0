import StaffAccess.Proofs.Predicate.Building
import StaffAccess.RowFilter

/-!
# Visible rows

What the rules of an object let a user see. A rule contributes or it does not, and a rule that
contributes matches some records. A record is visible if no rule contributes, or if one that
does matches it. A rule that contributes and matches nothing is thus very different from one
that does not contribute: the first hides all rows, the second none.

* `RuleCondition`: the condition of a rule, whatever its kind.
* `RuleCondition.Contributes`: when a rule with the condition has a say.
* `RuleCondition.Matches`: the records that it lets the user see.
* `ofContext_shows_iff`: the records that the filter of an object shows.
-/

namespace StaffAccess

open Predicate (HasValue)

/-- The condition of a row rule. -/
inductive RuleCondition
  /-- Of a rule of the kind `hierarchy`. -/
  | hierarchy (condition : HierarchyCondition)
  /-- Of a rule of the kind `geography`. -/
  | geography (condition : GeographyCondition)
  /-- Of a rule of the kind `ownership`. -/
  | ownership (condition : OwnershipCondition)
  /-- Of a rule of the kind `tenant`. -/
  | tenant (condition : TenantCondition)
  /-- Of a rule of the kind `custom`. -/
  | custom (condition : CustomCondition)

namespace CustomCondition

variable (policy : Policy) (ctx : SecurityContext) (c : CustomCondition)

/-- Whether a user sees the establishments of the user's structure. -/
def SeesStructure : Prop :=
  c.byStructure = true ∧ ctx.userType ∈ policy.roles.structureEstablishments ∧
    ctx.tenantId.truthy = true

/-- Whether a user sees the establishments that are assigned to the user. -/
def SeesAssigned : Prop :=
  c.byAssignment = true ∧ ctx.userType ∈ policy.roles.inspectors

/-- Whether a rule with the condition has a say about an object. -/
def Contributes (object : String) : Prop :=
  object = policy.objects.userManagement ∧ (ctx.scope = .ministry → c.ministryUsers = true) ∨
  object = policy.objects.inspection ∨
  object = policy.objects.establishment ∧ (c.SeesStructure policy ctx ∨ c.SeesAssigned policy ctx) ∨
  object ∉ [policy.objects.establishment, policy.objects.inspection,
    policy.objects.userManagement] ∧ c.filter.isSome = true

/-- Whether a rule with the condition lets a user see a record of an object. -/
def Matches (object : String) (record : Fields) : Prop :=
  object = policy.objects.userManagement ∧
    (ctx.scope = .ministry ∧ HasValue record c.scopeField (.text "MINISTRY") ∨
      ctx.scope = .school ∧ ctx.tenantId ≠ .null ∧
        HasValue record c.establishmentField ctx.tenantId) ∨
  object = policy.objects.inspection ∧ ctx.scope = .ministry ∧
    (∃ id ∈ VisibilityRule.ownTeam ctx, HasValue record c.principalInspectorField id) ∨
  object = policy.objects.establishment ∧
    (c.SeesStructure policy ctx ∧ HasValue record c.structureField ctx.tenantId ∨
      c.SeesAssigned policy ctx ∧ HasValue record c.inspectorField (.text ctx.userId)) ∨
  object ∉ [policy.objects.establishment, policy.objects.inspection,
      policy.objects.userManagement] ∧
    ∃ document p, c.filter = some document ∧ Predicate.ofValue (.record document) = .ok p ∧
      p.eval (.record record) = .ok true

end CustomCondition

namespace RuleCondition

variable (policy : Policy) (ctx : SecurityContext) (object : String)

/-- Whether a predicate document in the condition stands for a predicate. -/
def HasProperDocument : RuleCondition → Prop
  | custom c => ∀ document, c.filter = some document →
      ∃ p, Predicate.ofValue (.record document) = .ok p
  | _ => True

/-- Whether a rule with the condition has a say about an object. -/
def Contributes : RuleCondition → Prop
  | hierarchy _ => ctx.hierarchy.isSome = true
  | geography c => ctx.tenantId ≠ .null ∧
      (ctx.scope = .ministry ∧ c.byStructure = true ∨
        ctx.scope = .school ∧ c.byEstablishment = true)
  | ownership c => c.created = true ∨ c.modified = true ∨ c.assigned = true
  | tenant c => ctx.scope = .school ∨ c.severalEstablishments = true
  | custom c => c.Contributes policy ctx object

/-- Whether a rule with the condition, if it has a say, lets a user see a record. -/
def Matches (record : Fields) : RuleCondition → Prop
  | hierarchy c => ∃ id ∈ VisibilityRule.ownTeam ctx, HasValue record c.field id
  | geography c => ctx.scope = .ministry ∧ HasValue record c.structureField ctx.tenantId ∨
      ctx.scope = .school ∧ HasValue record c.establishmentField ctx.tenantId
  | ownership c => c.created = true ∧ HasValue record c.createdField (.text ctx.userId) ∨
      c.modified = true ∧ HasValue record c.modifiedField (.text ctx.userId) ∨
      c.assigned = true ∧ HasValue record c.assignedField (.text ctx.userId)
  | tenant c => ctx.scope = .school ∧ ctx.tenantId ≠ .null ∧ HasValue record c.field ctx.tenantId ∨
      ctx.scope = .ministry ∧ (ctx.userType ∈ policy.roles.allEstablishments ∨
        ctx.userType ∈ policy.roles.structureEstablishments ∧ ctx.tenantId ≠ .null ∧
          HasValue record c.structureField ctx.tenantId)
  | custom c => c.Matches policy ctx object record

end RuleCondition

namespace VisibilityRule

/-- The condition of a rule, read by the kind of the rule. -/
def reading (rule : VisibilityRule) : Except Fault RuleCondition :=
  match rule.kind with
  | .hierarchy => .hierarchy <$> rule.conditionAs HierarchyCondition.check
  | .geography => .geography <$> rule.conditionAs GeographyCondition.check
  | .ownership => .ownership <$> rule.conditionAs OwnershipCondition.check
  | .tenant => .tenant <$> rule.conditionAs TenantCondition.check
  | .custom => .custom <$> rule.conditionAs CustomCondition.check

variable {policy : Policy} {ctx : SecurityContext} {object : String} {record : Fields}
  {rule : VisibilityRule}

/-! ## Rules -/

/-- Whether a rule gives a predicate exactly if it contributes, and one which the record
    satisfies exactly if it matches. -/
def Gives (result : Except Fault (Option Predicate)) (record : Fields)
    (contributes matching : Prop) : Prop :=
  (result = .ok none ∧ ¬contributes) ∨
    ∃ p b, result = .ok (some p) ∧ contributes ∧ p.eval (.record record) = .ok b ∧
      (b = true ↔ matching)

variable {result : Except Fault (Option Predicate)} {contributes matching : Prop}

theorem Gives.congr {contributes' matching' : Prop}
    (h : Gives result record contributes matching) (hcontributes : contributes ↔ contributes')
    (hmatching : matching ↔ matching') : Gives result record contributes' matching' := by
  rwa [← propext hcontributes, ← propext hmatching]

theorem Gives.contributes_iff (h : Gives result record contributes matching) :
    contributes ↔ ∃ p, result = .ok (some p) := by
  rcases h with ⟨rfl, hnot⟩ | ⟨p, b, rfl, happlies, -⟩
  · simp [hnot]
  · simp [happlies]

theorem Gives.exists_eq_ok (h : Gives result record contributes matching) :
    ∃ given, result = .ok given := by
  rcases h with ⟨hnone, -⟩ | ⟨p, -, hsome, -⟩
  · exact ⟨_, hnone⟩
  · exact ⟨_, hsome⟩

theorem Gives.exists_eval (h : Gives result record contributes matching) {p : Predicate}
    (hp : result = .ok (some p)) :
    ∃ b, p.eval (.record record) = .ok b ∧ (b = true ↔ matching) := by
  rcases h with ⟨hnone, -⟩ | ⟨q, b, hq, -, hb⟩
  · cases hp.symm.trans hnone
  · cases hp.symm.trans hq
    exact ⟨b, hb⟩

theorem gives_nothing (h : ¬contributes) : Gives (.ok none) record contributes matching :=
  .inl ⟨rfl, h⟩

theorem gives_equals {field : String} {v : Value} (h : contributes)
    (hmatching : HasValue record field v ↔ matching) :
    Gives (.ok (some (.equals field v))) record contributes matching :=
  .inr ⟨_, _, rfl, h, rfl, by rw [← hmatching, Option.any_eq_true, HasValue]⟩

theorem gives_matchAll (h : contributes) (hmatching : matching) :
    Gives (.ok (some .matchAll)) record contributes matching :=
  .inr ⟨_, true, rfl, h, by rw [Predicate.eval], by simp [hmatching]⟩

theorem gives_matchNone (h : contributes) (hmatching : ¬matching) :
    Gives (.ok (some .matchNone)) record contributes matching :=
  .inr ⟨_, false, rfl, h, by rw [Predicate.eval], by simp [hmatching]⟩

/-- A test for the user's team gives the records of anybody in it. -/
theorem gives_ownTeam (hids : ∀ id ∈ ctx.subordinateIds, id.isKey = true) (field : String)
    (h : contributes)
    (hmatching : (∃ id ∈ ownTeam ctx, HasValue record field id) ↔ matching) :
    Gives (do return some (← Predicate.fieldIn field (ownTeam ctx))) record contributes
      matching := by
  have hteam : ∀ id ∈ ownTeam ctx, id.isKey = true := List.forall_mem_cons.2 ⟨rfl, hids⟩
  obtain ⟨p, hp, -, heval⟩ := Predicate.eval_fieldIn hteam field
  refine .inr ⟨p, _, by rw [hp]; rfl, h, heval record, ?_⟩
  rw [← hmatching, Option.any_eq_true]
  simp only [List.any_eq_true, HasValue]
  constructor
  · rintro ⟨x, hx, id, hid, hsame⟩
    exact ⟨id, hid, x, hx, Value.same_comm_of_isKey (hteam id hid) x ▸ hsame⟩
  · rintro ⟨id, hid, x, hx, hsame⟩
    exact ⟨x, hx, id, hid, (Value.same_comm_of_isKey (hteam id hid) x).trans hsame⟩

/-- Tests of several fields give the records that pass one of them. -/
theorem gives_anyOf (tests : List (String × Value)) (h : contributes)
    (hmatching : (∃ test ∈ tests, HasValue record test.1 test.2) ↔ matching) :
    Gives (.ok (some (.anyOf (tests.map fun test => .equals test.1 test.2)))) record contributes
      matching := by
  have htests : ∀ p ∈ tests.map fun test => Predicate.equals test.1 test.2,
      ∃ b, p.eval (.record record) = .ok b := by
    rw [List.forall_mem_map]
    exact fun test _ => ⟨_, Predicate.eval_equals record test.1 test.2⟩
  obtain ⟨b, hb, hiff⟩ := Predicate.exists_eval_anyOf htests
  refine .inr ⟨_, b, rfl, h, hb, ?_⟩
  rw [hiff, ← hmatching]
  simp only [List.mem_map, exists_exists_and_eq_and, Predicate.eval_equals_eq_true_iff]

theorem byHierarchy_gives (hids : ∀ id ∈ ctx.subordinateIds, id.isKey = true)
    {c : HierarchyCondition} (hc : rule.conditionAs HierarchyCondition.check = .ok c) :
    Gives (rule.byHierarchy ctx) record
      ((RuleCondition.hierarchy c).Contributes policy ctx object)
      ((RuleCondition.hierarchy c).Matches policy ctx object record) := by
  rw [byHierarchy]
  split_ifs with hplace
  · exact gives_nothing (by simpa [RuleCondition.Contributes] using hplace)
  · rw [hc, ok_bind]
    have hsome : ctx.hierarchy.isSome = true := by
      simpa [Option.isSome_iff_ne_none] using hplace
    exact gives_ownTeam hids _ hsome Iff.rfl

theorem byGeography_gives {c : GeographyCondition}
    (hc : rule.conditionAs GeographyCondition.check = .ok c) :
    Gives (rule.byGeography ctx) record
      ((RuleCondition.geography c).Contributes policy ctx object)
      ((RuleCondition.geography c).Matches policy ctx object record) := by
  rw [byGeography]
  rw [hc, ok_bind]
  simp only [RuleCondition.Contributes, RuleCondition.Matches]
  split_ifs with hnull hstructure hestablishment
  · exact gives_nothing fun h => h.1 ((Value.isNull_iff _).1 hnull)
  · exact gives_equals ⟨(Value.isNull_iff _).not.1 hnull, .inl hstructure⟩ (by simp [hstructure])
  · exact gives_equals ⟨(Value.isNull_iff _).not.1 hnull, .inr hestablishment⟩
      (by simp [hestablishment])
  · exact gives_nothing fun h => h.2.elim hstructure hestablishment

theorem mem_ownerFields {c : OwnershipCondition} {field : String} :
    field ∈ ownerFields c ↔
      c.created = true ∧ field = c.createdField ∨ c.modified = true ∧ field = c.modifiedField ∨
        c.assigned = true ∧ field = c.assignedField := by
  simp only [ownerFields, List.mem_filterMap, List.mem_cons, List.not_mem_nil, or_false,
    exists_eq_or_imp, exists_eq_left, Option.ite_none_right_eq_some, Option.some.injEq,
    @eq_comm _ field]

theorem byOwnership_gives {c : OwnershipCondition}
    (hc : rule.conditionAs OwnershipCondition.check = .ok c) :
    Gives (rule.byOwnership ctx) record
      ((RuleCondition.ownership c).Contributes policy ctx object)
      ((RuleCondition.ownership c).Matches policy ctx object record) := by
  have hcontributes : (RuleCondition.ownership c).Contributes policy ctx object ↔
      ∃ field, field ∈ ownerFields c := by
    simp only [RuleCondition.Contributes, mem_ownerFields, exists_or, exists_and_left,
      exists_eq, and_true]
  have hmatches : (∃ field ∈ ownerFields c, HasValue record field (.text ctx.userId)) ↔
      (RuleCondition.ownership c).Matches policy ctx object record := by
    simp only [RuleCondition.Matches, mem_ownerFields, or_and_right, exists_or, and_assoc,
      exists_and_left, exists_eq_left]
  rw [byOwnership]
  rw [hc, ok_bind]
  split
  · rename_i hnone
    rw [hnone] at hcontributes
    exact gives_nothing (hcontributes.not.2 (by simp))
  · rename_i hsome
    have happlies := hcontributes.2 (List.exists_mem_of_ne_nil _ hsome)
    have htests := gives_anyOf ((ownerFields c).map fun field => (field, .text ctx.userId)) happlies
      (by simpa using hmatches)
    rwa [List.map_map] at htests

theorem byTenant_gives {c : TenantCondition}
    (hc : rule.conditionAs TenantCondition.check = .ok c) :
    Gives (rule.byTenant ctx policy) record
      ((RuleCondition.tenant c).Contributes policy ctx object)
      ((RuleCondition.tenant c).Matches policy ctx object record) := by
  rw [byTenant]
  rw [hc, ok_bind]
  cases hscope : ctx.scope with
  | school =>
    simp only [RuleCondition.Contributes, RuleCondition.Matches, hscope, reduceCtorEq, true_and,
      false_and, true_or, or_false, if_true]
    split_ifs with hnull
    · exact gives_matchNone trivial fun h => h.1 ((Value.isNull_iff _).1 hnull)
    · exact gives_equals trivial (by simp [(Value.isNull_iff _).not.1 hnull])
  | ministry =>
    simp only [RuleCondition.Contributes, RuleCondition.Matches, hscope, reduceCtorEq, true_and,
      false_and, false_or, if_false]
    split_ifs with hsingle hall hstructure
    · exact gives_nothing (by simpa using hsingle)
    · exact gives_matchAll (by simpa using hsingle) (.inl (by simpa using hall))
    · have hrole : ctx.userType ∉ policy.roles.allEstablishments := by simpa using hall
      refine gives_equals (by simpa using hsingle) ?_
      simp only [Bool.and_eq_true, List.contains_iff_mem, Bool.not_eq_true', ← Bool.not_eq_true,
        Value.isNull_iff] at hstructure
      simp only [hrole, hstructure, ne_eq, not_false_eq_true, true_and, false_or]
    · have hrole : ctx.userType ∉ policy.roles.allEstablishments := by simpa using hall
      refine gives_matchNone (by simpa using hsingle) ?_
      simp only [Bool.and_eq_true, List.contains_iff_mem, Bool.not_eq_true', ← Bool.not_eq_true,
        Value.isNull_iff] at hstructure
      rintro (h | ⟨hin, hgiven, -⟩)
      · exact hrole h
      · exact hstructure ⟨hin, hgiven⟩

/-! ## Special objects -/

variable {c : CustomCondition}

theorem ofUsers_gives : Gives (.ok (ofUsers c ctx)) record
    (ctx.scope = .ministry → c.ministryUsers = true)
    (ctx.scope = .ministry ∧ HasValue record c.scopeField (.text "MINISTRY") ∨
      ctx.scope = .school ∧ ctx.tenantId ≠ .null ∧
        HasValue record c.establishmentField ctx.tenantId) := by
  rw [ofUsers]
  cases hscope : ctx.scope with
  | school =>
    simp only [reduceCtorEq, false_and, true_and, false_or, false_implies, if_false]
    split_ifs with hnull
    · exact gives_matchNone trivial fun h => h.1 ((Value.isNull_iff _).1 hnull)
    · exact gives_equals trivial (by simp [(Value.isNull_iff _).not.1 hnull])
  | ministry =>
    simp only [reduceCtorEq, false_and, true_and, or_false, forall_const, if_true]
    split_ifs with husers
    · exact gives_equals husers Iff.rfl
    · exact gives_nothing husers

theorem ofInspections_gives (hids : ∀ id ∈ ctx.subordinateIds, id.isKey = true) :
    Gives (do return some (← ofInspections c ctx)) record True
      (ctx.scope = .ministry ∧
        ∃ id ∈ ownTeam ctx, HasValue record c.principalInspectorField id) := by
  rw [ofInspections]
  split_ifs with hscope
  · exact gives_ownTeam hids _ trivial (by simp [hscope])
  · exact gives_matchNone trivial fun h => hscope h.1

/-- A rule for establishments tests what the user's role lets the user see, and nothing else. -/
theorem exists_tests_ofEstablishments (c : CustomCondition) (ctx : SecurityContext)
    (policy : Policy) : ∃ tests : List (String × Value),
      (∀ test, test ∈ tests ↔
        c.SeesStructure policy ctx ∧ test = (c.structureField, ctx.tenantId) ∨
        c.SeesAssigned policy ctx ∧ test = (c.inspectorField, .text ctx.userId)) ∧
      ofEstablishments c ctx policy = if tests.isEmpty then none
        else some (.anyOf (tests.map fun test => .equals test.1 test.2)) := by
  have hstructure : (c.byStructure && policy.roles.structureEstablishments.contains ctx.userType &&
      ctx.tenantId.truthy) = true ↔ c.SeesStructure policy ctx := by
    simp [CustomCondition.SeesStructure, and_assoc]
  have hassigned : (c.byAssignment && policy.roles.inspectors.contains ctx.userType) = true ↔
      c.SeesAssigned policy ctx := by
    simp [CustomCondition.SeesAssigned]
  unfold ofEstablishments
  dsimp only
  split_ifs with hs ha ha <;> rw [hstructure] at hs <;> rw [hassigned] at ha
  · exact ⟨[(c.structureField, ctx.tenantId), (c.inspectorField, .text ctx.userId)],
      by simp [hs, ha], rfl⟩
  · exact ⟨[(c.structureField, ctx.tenantId)], by simp [hs, ha], rfl⟩
  · exact ⟨[(c.inspectorField, .text ctx.userId)], by simp [hs, ha], rfl⟩
  · exact ⟨[], by simp [hs, ha], rfl⟩

theorem ofEstablishments_gives : Gives (.ok (ofEstablishments c ctx policy)) record
    (c.SeesStructure policy ctx ∨ c.SeesAssigned policy ctx)
    (c.SeesStructure policy ctx ∧ HasValue record c.structureField ctx.tenantId ∨
      c.SeesAssigned policy ctx ∧ HasValue record c.inspectorField (.text ctx.userId)) := by
  obtain ⟨tests, htests, hgiven⟩ := exists_tests_ofEstablishments c ctx policy
  have hcontributes : (∃ test, test ∈ tests) ↔
      c.SeesStructure policy ctx ∨ c.SeesAssigned policy ctx := by
    simp only [htests, exists_or, exists_and_left, exists_eq, and_true]
  have hmatches : (∃ test ∈ tests, HasValue record test.1 test.2) ↔
      c.SeesStructure policy ctx ∧ HasValue record c.structureField ctx.tenantId ∨
        c.SeesAssigned policy ctx ∧ HasValue record c.inspectorField (.text ctx.userId) := by
    simp only [htests, or_and_right, exists_or, and_assoc, exists_and_left, exists_eq_left]
  rw [hgiven]
  cases tests with
  | nil => exact gives_nothing (hcontributes.not.1 (by simp))
  | cons test tests =>
    exact gives_anyOf (test :: tests) (hcontributes.1 ⟨test, List.mem_cons_self⟩) hmatches

/-- A predicate document gives the records that satisfy it. -/
theorem ofDocument_gives
    (hdocument : ∀ document, c.filter = some document →
      ∃ p, Predicate.ofValue (.record document) = .ok p) :
    Gives (match c.filter with
      | none => return none
      | some document => return some (← ofDocument object document)) record
      (c.filter.isSome = true)
      (∃ document p, c.filter = some document ∧ Predicate.ofValue (.record document) = .ok p ∧
        p.eval (.record record) = .ok true) := by
  cases hfilter : c.filter with
  | none => exact gives_nothing (by simp)
  | some document =>
    obtain ⟨p, hp⟩ := hdocument document hfilter
    obtain ⟨b, hb⟩ := (Predicate.isProper_ofValue hp).exists_eval record
    refine .inr ⟨p, b, by simp [ofDocument, hp], rfl, hb, ?_⟩
    simp [hp, hb]

/-- With different names for the special objects, a rule does what its object says. -/
theorem byObject_gives (hids : ∀ id ∈ ctx.subordinateIds, id.isKey = true)
    (hobjects : [policy.objects.establishment, policy.objects.inspection,
      policy.objects.userManagement].Nodup)
    (hc : rule.conditionAs CustomCondition.check = .ok c)
    (hdocument : ∀ document, c.filter = some document →
      ∃ p, Predicate.ofValue (.record document) = .ok p) :
    Gives (rule.byObject ctx object policy) record
      ((RuleCondition.custom c).Contributes policy ctx object)
      ((RuleCondition.custom c).Matches policy ctx object record) := by
  simp only [List.nodup_cons, List.mem_cons, List.not_mem_nil, or_false, not_or, not_false_eq_true,
    List.nodup_nil, and_true] at hobjects
  obtain ⟨⟨hei : _ ≠ _, heu : _ ≠ _⟩, hiu : _ ≠ _⟩ := hobjects
  rw [byObject]
  rw [hc, ok_bind]
  simp only [RuleCondition.Contributes, RuleCondition.Matches, CustomCondition.Contributes,
    CustomCondition.Matches, List.mem_cons, List.not_mem_nil, or_false, not_or]
  split_ifs with husers hinspections hestablishments
  · subst husers
    exact ofUsers_gives.congr (by simp [heu.symm, hiu.symm]) (by simp [heu.symm, hiu.symm])
  · subst hinspections
    exact (ofInspections_gives hids).congr (by simp [hei.symm, hiu]) (by simp [hei.symm, hiu])
  · subst hestablishments
    exact ofEstablishments_gives.congr (by simp [hei, heu]) (by simp [hei, heu])
  · exact (ofDocument_gives hdocument).congr (by simp [*]) (by simp [*])

/-- A rule gives what its condition says. -/
theorem predicate_gives (hids : ∀ id ∈ ctx.subordinateIds, id.isKey = true)
    (hobjects : [policy.objects.establishment, policy.objects.inspection,
      policy.objects.userManagement].Nodup)
    {condition : RuleCondition} (hcondition : rule.reading = .ok condition)
    (hdocument : condition.HasProperDocument) :
    Gives (rule.predicate ctx object policy) record (condition.Contributes policy ctx object)
      (condition.Matches policy ctx object record) := by
  rw [reading] at hcondition
  rw [predicate]
  cases hkind : rule.kind <;> rw [hkind] at hcondition <;> dsimp only at hcondition ⊢ <;>
    obtain ⟨c, hc, rfl⟩ := map_eq_ok_iff.1 hcondition
  · exact byHierarchy_gives hids hc
  · exact byGeography_gives hc
  · exact byOwnership_gives hc
  · exact byTenant_gives hc
  · exact byObject_gives hids hobjects hc hdocument

end VisibilityRule

/-! ## Filters -/

namespace RowFilter

open VisibilityRule

variable {policy : Policy} {ctx : SecurityContext} {object : String} {record : Fields}

/-- Rules show a record together if none of them contributes, or one that does matches it. -/
theorem ofRules_shows {rules : List VisibilityRule} {contributes matching : VisibilityRule → Prop}
    (h : ∀ rule ∈ rules, Gives (rule.predicate ctx object policy) record (contributes rule)
      (matching rule)) :
    ∃ filter b, ofRules rules ctx object policy = .ok filter ∧
      filter.predicate.eval (.record record) = .ok b ∧
      (b = true ↔ (∀ rule ∈ rules, ¬contributes rule) ∨
        ∃ rule ∈ rules, contributes rule ∧ matching rule) := by
  obtain ⟨results, hresults⟩ := exists_mapM_eq_ok_iff.2 fun rule hrule =>
    (h rule hrule).exists_eq_ok
  have hparts : ∀ p, p ∈ results.filterMap id ↔
      ∃ rule ∈ rules, rule.predicate ctx object policy = .ok (some p) := by
    intro p
    rw [List.mem_filterMap]
    simp only [id_eq, exists_eq_right, mem_of_mapM_eq_ok hresults]
  rw [ofRules]
  rw [hresults, ok_bind]
  split
  · -- No rule gives a predicate, so none contributes.
    rename_i hnil
    have hnone : ∀ rule ∈ rules, ¬contributes rule := by
      intro rule hrule happlies
      obtain ⟨p, hp⟩ := (h rule hrule).contributes_iff.1 happlies
      exact List.not_mem_nil (hnil ▸ (hparts p).2 ⟨rule, hrule, hp⟩)
    exact ⟨_, true, rfl, by rw [unrestricted, Predicate.eval], iff_of_true rfl (.inl hnone)⟩
  · rename_i hsome
    obtain ⟨p, hp⟩ := List.exists_mem_of_ne_nil _ hsome
    obtain ⟨first, hfirst, hgives⟩ := (hparts p).1 hp
    have hsome : ¬∀ rule ∈ rules, ¬contributes rule :=
      fun hnone => hnone first hfirst ((h first hfirst).contributes_iff.2 ⟨p, hgives⟩)
    have hevals : ∀ p ∈ results.filterMap id, ∃ b, p.eval (.record record) = .ok b := by
      intro p hp
      obtain ⟨rule, hrule, hpredicate⟩ := (hparts p).1 hp
      exact ((h rule hrule).exists_eval hpredicate).imp fun _ => And.left
    obtain ⟨b, hb, hiff⟩ := Predicate.exists_eval_anyOf hevals
    refine ⟨_, b, rfl, hb, hiff.trans ?_⟩
    rw [or_iff_right hsome]
    constructor
    · rintro ⟨p, hp, htrue⟩
      obtain ⟨rule, hrule, hpredicate⟩ := (hparts p).1 hp
      obtain ⟨b', hb', hmatching⟩ := (h rule hrule).exists_eval hpredicate
      exact ⟨rule, hrule, (h rule hrule).contributes_iff.2 ⟨p, hpredicate⟩,
        hmatching.1 (Except.ok.inj (hb'.symm.trans htrue))⟩
    · rintro ⟨rule, hrule, happlies, hmatch⟩
      obtain ⟨p, hpredicate⟩ := (h rule hrule).contributes_iff.1 happlies
      obtain ⟨b', hb', hmatching⟩ := (h rule hrule).exists_eval hpredicate
      exact ⟨p, (hparts p).2 ⟨rule, hrule, hpredicate⟩, by rw [hb', hmatching.2 hmatch]⟩

end RowFilter

/-- The records of an object that a user sees, if all rules of the object can be read. -/
theorem ofContext_shows_iff (policy : Policy)
    (hobjects : [policy.objects.establishment, policy.objects.inspection,
      policy.objects.userManagement].Nodup)
    (ctx : SecurityContext) (hids : ∀ id ∈ ctx.subordinateIds, id.isKey = true) (object : String)
    (hrules : ∀ rule ∈ ctx.rulesOn object, ∃ condition, rule.reading = .ok condition ∧
      condition.HasProperDocument) (record : Fields) :
    ∃ filter b, RowFilter.ofContext ctx (.text object) policy = .ok filter ∧
      filter.predicate.eval (.record record) = .ok b ∧
      (b = true ↔ ¬(object ∈ policy.ministryOnly ∧ ctx.scope ≠ .ministry) ∧
        ((∀ rule ∈ ctx.rulesOn object, ∀ condition, rule.reading = .ok condition →
            ¬condition.Contributes policy ctx object) ∨
          ∃ rule ∈ ctx.rulesOn object, ∃ condition, rule.reading = .ok condition ∧
            condition.Contributes policy ctx object ∧
              condition.Matches policy ctx object record)) := by
  have : Nonempty RuleCondition := ⟨.hierarchy {}⟩
  choose! condition hcondition hdocument using hrules
  have hgives : ∀ rule ∈ ctx.rulesOn object, VisibilityRule.Gives
      (rule.predicate ctx object policy) record
      ((condition rule).Contributes policy ctx object)
      ((condition rule).Matches policy ctx object record) := fun rule hrule =>
    VisibilityRule.predicate_gives hids hobjects (hcondition rule hrule) (hdocument rule hrule)
  -- Every rule has one condition only.
  have hone : ∀ rule ∈ ctx.rulesOn object, ∀ c, rule.reading = .ok c ↔ c = condition rule := by
    intro rule hrule c
    rw [hcondition rule hrule, Except.ok.injEq, eq_comm]
  have hiff : ((∀ rule ∈ ctx.rulesOn object, ¬(condition rule).Contributes policy ctx object) ∨
      ∃ rule ∈ ctx.rulesOn object, (condition rule).Contributes policy ctx object ∧
        (condition rule).Matches policy ctx object record) ↔
      ((∀ rule ∈ ctx.rulesOn object, ∀ c, rule.reading = .ok c →
          ¬c.Contributes policy ctx object) ∨
        ∃ rule ∈ ctx.rulesOn object, ∃ c, rule.reading = .ok c ∧
          c.Contributes policy ctx object ∧ c.Matches policy ctx object record) := by
    refine or_congr (forall₂_congr fun rule hrule => ?_) (exists_congr fun rule =>
      and_congr_right fun hrule => ?_)
    · simp only [hone rule hrule, forall_eq]
    · simp only [hone rule hrule, exists_eq_left]
  rw [RowFilter.ofContext]
  have hreserved : policy.isMinistryOnly (.text object) = true ↔ object ∈ policy.ministryOnly := by
    simp [Policy.isMinistryOnly]
  simp only [hreserved, ← hiff]
  split_ifs with hministry
  · exact ⟨_, false, rfl, by rw [RowFilter.denied, Predicate.eval], by simp [hministry]⟩
  · simp only [hministry, not_false_eq_true, true_and, OrderedMap.find, ok_bind]
    rw [SecurityContext.rulesOn] at hgives ⊢
    cases hentry : ctx.rowRules.get? object with
    | none => exact ⟨_, true, rfl, by rw [RowFilter.unrestricted, Predicate.eval], by simp⟩
    | some rules =>
      rw [hentry] at hgives
      exact RowFilter.ofRules_shows hgives

/-- Somebody at the ministry with one direct subordinate, who sees the documents of the team and
    the open ones. -/
def SecurityContext.teamLead : SecurityContext where
  userId := "ana"
  scope := .ministry
  userType := "AGENT"
  tenantId := .null
  permissions := .empty
  rowRules := .ofEntries [("doc", [⟨.hierarchy, .record [], .int 0⟩,
    ⟨.custom, .record [("where", .record [("field", .text "status"), ("equals", .text "open")])],
      .int 0⟩])]
  uiRules := []
  hierarchy := some ⟨.null, [⟨.text "bob", .text "Bob", 1⟩]⟩
  lastUpdated := .finite false 0

theorem teamLead_seesTeam :
    ∃ filter, RowFilter.ofContext .teamLead (.text "doc") {} = .ok filter ∧
      filter.predicate.eval (.record [("created_by_id", .text "bob")]) = .ok true := by
  have hids : ∀ id ∈ SecurityContext.teamLead.subordinateIds, id.isKey = true := by decide
  have hrules : ∀ rule ∈ SecurityContext.teamLead.rulesOn "doc",
      ∃ condition, rule.reading = .ok condition ∧ condition.HasProperDocument := by
    refine List.forall_mem_cons.2 ⟨⟨_, rfl, trivial⟩, List.forall_mem_singleton.2 ⟨_, rfl, ?_⟩⟩
    rintro document ⟨⟩
    exact ⟨_, rfl⟩
  obtain ⟨filter, b, hfilter, hb, hiff⟩ := ofContext_shows_iff {} (by decide) .teamLead hids "doc"
    hrules [("created_by_id", .text "bob")]
  have htrue : b = true := hiff.2 ⟨by decide, .inr ⟨_, List.mem_cons_self, _, rfl, rfl,
    .text "bob", List.mem_cons_of_mem _ (List.mem_singleton_self _), .text "bob", rfl, by simp⟩⟩
  exact ⟨filter, hfilter, htrue ▸ hb⟩

end StaffAccess

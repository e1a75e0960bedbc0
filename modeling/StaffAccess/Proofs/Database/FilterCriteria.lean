import StaffAccess.Proofs.Database.Criteria
import StaffAccess.Proofs.RowFilter.Narrowing

/-!
# Filters in queries

A disjunction without parts is satisfied by no record, but as a criterion it says nothing at all,
and alone it selects every row. So a filter must not have one anywhere when it is turned into a
criterion. None has, because nothing that puts predicates together ever makes one: documents, tests
for several values, rules, and callers who narrow a filter all give predicates in normal form, in
which every junction has at least two parts, none of them a constant, and every list of values at
least two, all different. This is not about the outermost part only. A predicate is turned into a
criterion part by part, and all of its parts are in normal form.

* `Predicate.IsPartOf`: the parts of a predicate, at any depth.
* `Predicate.IsNormal.of_isPartOf`: those of a predicate in normal form are in normal form.
* `Predicate.IsNormal.exists_criterion`: in normal form there is a criterion, which says something.
* `Predicate.built_isNormal`: what is put together, in whichever way, is in normal form.
-/

namespace StaffAccess

namespace Predicate

variable {p part : Predicate} {parts : List Predicate} {field : String} {values : List Value}

/-! ## Parts -/

/-- Whether a predicate stands somewhere in another one, or is this one itself. -/
inductive IsPartOf (part : Predicate) : Predicate → Prop
  | self : IsPartOf part part
  | conj {p : Predicate} {parts : List Predicate} (hp : p ∈ parts) (h : IsPartOf part p) :
    IsPartOf part (conj parts)
  | disj {p : Predicate} {parts : List Predicate} (hp : p ∈ parts) (h : IsPartOf part p) :
    IsPartOf part (disj parts)

/-- Normal form is about all parts. -/
theorem IsNormal.of_isPartOf (hp : p.IsNormal) (h : part.IsPartOf p) : part.IsNormal := by
  induction h with
  | self => exact hp
  | conj hmem _ ih =>
    cases hp with
    | conj _ _ hparts => exact ih (hparts _ hmem)
  | disj hmem _ ih =>
    cases hp with
    | disj _ _ hparts => exact ih (hparts _ hmem)

/-- Whether there is more than one part, and no constant among them. -/
structure IsTight (parts : List Predicate) : Prop where
  two : 2 ≤ parts.length
  plain : ∀ p ∈ parts, p ≠ .matchAll ∧ p ≠ .matchNone

theorem IsTight.ne_nil (h : IsTight parts) : parts ≠ [] := by
  rintro rfl
  exact absurd h.two (by simp)

theorem IsNormal.isTight (hp : p.IsNormal)
    (h : (Predicate.conj parts).IsPartOf p ∨ (Predicate.disj parts).IsPartOf p) :
    IsTight parts := by
  rcases h with h | h
  · cases hp.of_isPartOf h with
    | conj htwo hplain _ => exact ⟨htwo, hplain⟩
  · cases hp.of_isPartOf h with
    | disj htwo hplain _ => exact ⟨htwo, hplain⟩

theorem IsNormal.two_values (hp : p.IsNormal)
    (h : (Predicate.among field values).IsPartOf p) :
    2 ≤ values.length ∧ values.Pairwise fun v w => v.same w = false := by
  cases hp.of_isPartOf h with
  | among _ htwo hdistinct => exact ⟨htwo, hdistinct⟩

end Predicate

/-! ## Criteria -/

namespace Database.Criterion

variable {cs : List Criterion}

theorem areBlank_eq_false_of_forall (hsome : cs ≠ []) (h : ∀ c ∈ cs, c.isBlank = false) :
    areBlank cs = false := by
  obtain ⟨c, cs, rfl⟩ := List.exists_cons_of_ne_nil hsome
  rw [areBlank, h c List.mem_cons_self, Bool.false_and]

/-- A simplified conjunction of criteria that say something says something. -/
theorem isBlank_allOf (hsome : cs ≠ []) (h : ∀ c ∈ cs, c.isBlank = false) :
    (allOf cs).isBlank = false := by
  have hkept : ∀ c ∈ cs.filter fun c => !c.isAlways, c.isBlank = false :=
    fun c hc => h c (List.mem_of_mem_filter hc)
  have hempty : cs.isEmpty = false := by simpa using hsome
  simp only [allOf, hempty, if_neg Bool.false_ne_true]
  split_ifs
  · rfl
  · split
    · rfl
    · next c hc => exact hkept c (hc ▸ List.mem_singleton_self c)
    · next hne _ => exact areBlank_eq_false_of_forall hne hkept

/-- A simplified disjunction of criteria that say something says something. -/
theorem isBlank_anyOf (hsome : cs ≠ []) (h : ∀ c ∈ cs, c.isBlank = false) :
    (anyOf cs).isBlank = false := by
  have hkept : ∀ c ∈ cs.filter fun c => !c.isNever, c.isBlank = false :=
    fun c hc => h c (List.mem_of_mem_filter hc)
  have hempty : cs.isEmpty = false := by simpa using hsome
  simp only [anyOf, hempty, if_neg Bool.false_ne_true]
  split_ifs
  · rfl
  · split
    · rfl
    · next c hc => exact hkept c (hc ▸ List.mem_singleton_self c)
    · next hne _ => exact areBlank_eq_false_of_forall hne hkept

end Database.Criterion

namespace Predicate

open Database

variable {p security : Predicate} {parts : List Predicate} {columns : List Column}

/-- The criteria of some predicates, all of which say something. -/
theorem exists_criteria (hsome : parts ≠ [])
    (h : ∀ p ∈ parts, ∃ c, p.criterion columns = .ok c ∧ c.isBlank = false) :
    ∃ cs, criteria columns parts = .ok cs ∧ cs ≠ [] ∧ ∀ c ∈ cs, c.isBlank = false := by
  have hnonempty : Nonempty Criterion := ⟨.always⟩
  choose! crit hcrit hsays using h
  exact ⟨parts.map crit, criteria_eq hcrit, by simpa using hsome, List.forall_mem_map.2 hsays⟩

/-- In normal form there is a criterion, and it says something. -/
theorem IsNormal.exists_criterion (hp : p.IsNormal) (columns : List Column) :
    ∃ c, p.criterion columns = .ok c ∧ c.isBlank = false := by
  induction hp with
  | matchAll => exact ⟨_, rfl, rfl⟩
  | matchNone => exact ⟨_, rfl, rfl⟩
  | equals field v =>
    rw [criterion]
    split
    · refine ⟨_, rfl, ?_⟩
      split_ifs <;> rfl
    · exact ⟨_, rfl, rfl⟩
  | among field _ _ =>
    rw [criterion]
    split
    · exact ⟨_, rfl, rfl⟩
    · exact ⟨_, rfl, rfl⟩
  | conj htwo hplain _ ih =>
    obtain ⟨cs, hcs, hsome, hsays⟩ := exists_criteria (IsTight.mk htwo hplain).ne_nil ih
    exact ⟨_, by rw [criterion, hcs, ok_bind]; rfl, Criterion.isBlank_allOf hsome hsays⟩
  | disj htwo hplain _ ih =>
    obtain ⟨cs, hcs, hsome, hsays⟩ := exists_criteria (IsTight.mk htwo hplain).ne_nil ih
    exact ⟨_, by rw [criterion, hcs, ok_bind]; rfl, Criterion.isBlank_anyOf hsome hsays⟩

/-! ## What is put together -/

/-- Documents stand for predicates in normal form. -/
theorem isNormal_ofValue {document : Value} (h : ofValue document = .ok p) : p.IsNormal :=
  (isBuiltOn_ofValue (fun _ => trivial) h : p.IsBuiltOn fun _ => True).isNormal

/-- A predicate in normal form that is narrowed by another one stays in normal form. -/
theorem IsNormal.withCaller {caller : Option Predicate} (hp : security.IsNormal)
    (hcaller : ∀ q ∈ caller, q.IsNormal) : (security.withCaller caller).IsNormal := by
  cases caller with
  | none => exact hp
  | some q =>
    exact .allOf (List.forall_mem_cons.2 ⟨hp, List.forall_mem_singleton.2 (hcaller q rfl)⟩)

end Predicate

/-- The predicate of a filter is in normal form. -/
theorem RowFilter.IsCompiled.isNormal {filter : RowFilter} (h : filter.IsCompiled) :
    filter.predicate.IsNormal := by
  cases h with
  | ofContext h => exact (isBuiltOn_ofContext h).isNormal
  | compile policy loaded object =>
    rcases compile_cases policy loaded object with hdenied | ⟨ctx, -, h⟩
    · rw [hdenied]
      exact .matchNone
    · exact (isBuiltOn_ofContext h).isNormal

namespace Predicate

open Database

/-- What documents stand for, what tests for some values become, and what the rules of an object
    give is in normal form, and conjunctions, disjunctions and narrowing keep it so. In normal form,
    the junctions at any depth have more than one part and no constant among them, and the lists of
    values more than one value and no two equal ones. So no junction without parts is met where a
    filter is turned into a criterion, and the criterion says something. -/
theorem built_isNormal :
    (∀ (document : Value) (p : Predicate), ofValue document = .ok p → p.IsNormal) ∧
    (∀ (field : String) (values : List Value), (∀ v ∈ values, v.IsScalar) →
      ∃ p, fieldIn field values = .ok p ∧ p.IsNormal) ∧
    (∀ filter : RowFilter, filter.IsCompiled → filter.predicate.IsNormal) ∧
    (∀ parts : List Predicate, (∀ p ∈ parts, p.IsNormal) →
      (allOf parts).IsNormal ∧ (anyOf parts).IsNormal) ∧
    (∀ (security : Predicate) (caller : Option Predicate), security.IsNormal →
      (∀ q ∈ caller, q.IsNormal) → (security.withCaller caller).IsNormal) ∧
    (∀ p : Predicate, p.IsNormal →
      (∀ parts, (conj parts).IsPartOf p ∨ (disj parts).IsPartOf p → IsTight parts) ∧
      ∀ field values, (among field values).IsPartOf p →
        2 ≤ values.length ∧ values.Pairwise fun v w => v.same w = false) ∧
    ∀ filter : RowFilter, filter.IsCompiled →
      ¬(conj []).IsPartOf filter.predicate ∧ ¬(disj []).IsPartOf filter.predicate ∧
      ∀ columns : List Column, ∃ c, filter.predicate.criterion columns = .ok c ∧
        c.isBlank = false := by
  refine ⟨fun _ _ => isNormal_ofValue, fun field values h => ?_, fun _ h => h.isNormal,
    fun parts h => ⟨.allOf h, .anyOf h⟩, fun _ _ => .withCaller,
    fun p hp => ⟨fun parts => hp.isTight, fun field values => hp.two_values⟩, fun filter h => ?_⟩
  · obtain ⟨p, hp, -⟩ := exists_fieldIn_tells (fun v hv => (h v hv).1) field
    exact ⟨p, hp, isNormal_fieldIn hp⟩
  · exact ⟨fun hpart => (h.isNormal.isTight (.inl hpart)).ne_nil rfl,
      fun hpart => (h.isNormal.isTight (.inr hpart)).ne_nil rfl, h.isNormal.exists_criterion⟩

/-- Documents that are open or late, with a repetition, an empty disjunction and a conjunction of
    one part. -/
def looseDocument : Value :=
  .record [("or", .list [.record [("or", .list [])],
    .record [("field", .text "status"), ("in", .list [.text "open", .text "late", .text "open"])],
    .record [("and", .list [.record [("field", .text "level"), ("equals", .int 1)]])]])]

/-- What the document stands for is tight. It stays so when the filter of somebody who leads a team
    is narrowed by it, and that filter has a criterion. -/
theorem looseDocument_isNormal :
    (∃ p, ofValue looseDocument = .ok p ∧ p.IsNormal ∧
      ((RowFilter.compile {} (.ok .teamLead) (.text "doc")).predicate.withCaller
        (some p)).IsNormal ∧
      ∀ parts, (conj parts).IsPartOf p ∨ (disj parts).IsPartOf p → IsTight parts) ∧
    (∃ p, fieldIn "level" [.int 1, .bool true] = .ok p ∧ p.IsNormal) ∧
    (allOf [.matchAll, isOpen]).IsNormal ∧
    ∃ c, (RowFilter.compile {} (.ok .teamLead) (.text "doc")).predicate.criterion ownerColumns =
      .ok c ∧ c.isBlank = false := by
  obtain ⟨hdocument, hfieldIn, hfilter, hjunctions, hnarrowed, hnodes, hcriterion⟩ :=
    built_isNormal
  have hread : ofValue looseDocument = .ok (.disj
      [.among "status" [.text "open", .text "late"], .equals "level" (.int 1)]) := rfl
  have hp := hdocument _ _ hread
  have hvalues : ∀ v ∈ [.int 1, .bool true], Value.IsScalar v := by
    simp [Value.IsScalar, Value.isKey]
  have hparts : ∀ p ∈ [.matchAll, isOpen], p.IsNormal :=
    List.forall_mem_cons.2 ⟨.matchAll, List.forall_mem_singleton.2 (.equals _ _)⟩
  have hteam := RowFilter.IsCompiled.compile {} (.ok .teamLead) (.text "doc")
  refine ⟨⟨_, hread, hp, hnarrowed _ _ (hfilter _ hteam) ?_, (hnodes _ hp).1⟩,
    hfieldIn _ _ hvalues, (hjunctions _ hparts).1, (hcriterion _ hteam).2.2 _⟩
  rintro _ ⟨⟩
  exact hp

end Predicate

end StaffAccess

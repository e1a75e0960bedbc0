import StaffAccess.Proofs.RowFilter.FailClosed

/-!
# Documents that are refused

A predicate document that says nothing known is refused, and a rule with such a document is
malformed. A document is stored as it was sent, so anything may stand in it, at any depth; reading
it has no limit of its own on that. There is one thing that is not refused as it should be. The
values of a test are looked up by, and lists and records cannot be. Where a test lists one of these,
reading stops with a fault of another kind, and for such a fault nobody says that the rule is
malformed.

Reading goes through the parts of a junction from first to last and stops at the first one that
stands for no predicate. So a test of that kind matters only if everything before it can be read.

* `Predicate.IsListTest`, `Predicate.IsJunction`: the two forms of documents with parts.
* `Predicate.StopsAtNonKey`: the documents at which reading stops like this.
* `Predicate.ofValue_eq_wrongType_iff`: there are no others.
* `VisibilityRule.document_refused`: what becomes of a document, and of a rule that has it.
* `Predicate.nonKey_escapes`: the smallest documents that are not refused as they should be.
-/

namespace StaffAccess

namespace Predicate

variable {document : Fields} {values parts : List Value} {v : Value} {fault : Fault}

/-! ## Forms of documents -/

theorem ofEntry_eq_map (name : String) (document : Fields) :
    ofEntry name document = (document.lookup name).map ofParts := by
  induction document with
  | nil => rfl
  | cons e document ih =>
    rw [ofEntry, List.lookup_cons, ih, Bool.beq_comm]
    cases name == e.1 <;> rfl

theorem ofItems_eq_mapM (documents : List Value) : ofItems documents = documents.mapM ofValue := by
  induction documents with
  | nil => rfl
  | cons v documents ih => rw [ofItems, ih, List.mapM_cons]

/-- Whether a document is a test for some values. -/
structure IsListTest (document : Fields) (values : List Value) : Prop where
  lookup_match : document.lookup "match" = none
  lookup_and : document.lookup "and" = none
  lookup_or : document.lookup "or" = none
  lookup_field : ∃ name, document.lookup "field" = some name
  lookup_equals : document.lookup "equals" = none
  lookup_in : document.lookup "in" = some (.list values)

/-- Whether a document joins some parts. -/
structure IsJunction (document : Fields) (parts : List Value) : Prop where
  lookup_match : document.lookup "match" = none
  lookup_parts : document.lookup "and" = some (.list parts) ∨
    document.lookup "and" = none ∧ document.lookup "or" = some (.list parts)

theorem IsListTest.exists_ofValue_eq (h : IsListTest document values) :
    ∃ name, ofValue (.record document) = fieldIn name values := by
  obtain ⟨name, hname⟩ := h.lookup_field
  refine ⟨name.display, ?_⟩
  simp only [ofValue, ofTest, ofEntry_eq_map, h.lookup_match, h.lookup_and, h.lookup_or, hname,
    h.lookup_equals, h.lookup_in, Option.map_none]

theorem IsJunction.exists_ofValue_eq (h : IsJunction document parts) :
    ∃ join : List Predicate → Predicate,
      ofValue (.record document) = (do return join (← parts.mapM ofValue)) := by
  rcases h.lookup_parts with hand | ⟨hand, hor⟩
  · refine ⟨allOf, ?_⟩
    simp only [ofValue, ofEntry_eq_map, h.lookup_match, hand, Option.map_some, ofParts,
      ofItems_eq_mapM]
  · refine ⟨anyOf, ?_⟩
    simp only [ofValue, ofEntry_eq_map, h.lookup_match, hand, hor, Option.map_some, Option.map_none,
      ofParts, ofItems_eq_mapM]

/-- A part of a document is smaller than the document. -/
theorem IsJunction.sizeOf_lt (h : IsJunction document parts) (hv : v ∈ parts) :
    sizeOf v < sizeOf (Value.record document) := by
  have hlookup : ∃ name, document.lookup name = some (.list parts) :=
    h.lookup_parts.elim (fun hand => ⟨_, hand⟩) fun hor => ⟨_, hor.2⟩
  obtain ⟨name, hname⟩ := hlookup
  have hentry := List.sizeOf_lt_of_mem (Value.mem_of_lookup hname)
  have hpart := List.sizeOf_lt_of_mem hv
  simp only [Prod.mk.sizeOf_spec, Value.list.sizeOf_spec] at hentry
  rw [Value.record.sizeOf_spec]
  omega

theorem eq_list_or_ofParts_eq (v : Value) :
    (∃ parts, v = .list parts) ∨ ofParts v = .error (.document .operandsNotList) := by
  cases v with
  | list parts => exact .inl ⟨parts, rfl⟩
  | _ => exact .inr rfl

/-- Without a constant and without a junction, a document is a test for some values, another test,
    or none of the known forms. -/
theorem ofTest_cases (hmatch : document.lookup "match" = none)
    (hand : document.lookup "and" = none) (hor : document.lookup "or" = none) :
    (∃ p, ofTest document = .ok p) ∨ (∃ cause, ofTest document = .error (.document cause)) ∨
      ∃ values, IsListTest document values := by
  rw [ofTest]
  cases hfield : document.lookup "field" with
  | none => exact .inr (.inl ⟨_, rfl⟩)
  | some name =>
    cases hequals : document.lookup "equals" with
    | some v => exact .inl ⟨_, rfl⟩
    | none =>
      cases hin : document.lookup "in" with
      | none => exact .inr (.inl ⟨_, rfl⟩)
      | some v =>
        cases v with
        | list values => exact .inr (.inr ⟨values, hmatch, hand, hor, ⟨name, hfield⟩, hequals, hin⟩)
        | _ => exact .inr (.inl ⟨_, rfl⟩)

/-- A document stands for a predicate, is refused, or has one of the two forms with parts. -/
theorem ofValue_cases (v : Value) :
    (∃ p, ofValue v = .ok p) ∨ (∃ cause, ofValue v = .error (.document cause)) ∨
      ∃ document, v = .record document ∧
        ((∃ values, IsListTest document values) ∨ ∃ parts, IsJunction document parts) := by
  cases v with
  | record document =>
    simp only [ofValue, ofEntry_eq_map]
    cases hmatch : document.lookup "match" with
    | some name =>
      dsimp only
      rw [ofConstant]
      split_ifs
      · exact .inl ⟨_, rfl⟩
      · exact .inl ⟨_, rfl⟩
      · exact .inr (.inl ⟨_, rfl⟩)
    | none =>
      cases hand : document.lookup "and" with
      | some v =>
        rcases eq_list_or_ofParts_eq v with ⟨parts, rfl⟩ | hrefused
        · exact .inr (.inr ⟨document, rfl, .inr ⟨parts, hmatch, .inl hand⟩⟩)
        · exact .inr (.inl ⟨.operandsNotList, by rw [Option.map_some, hrefused]; rfl⟩)
      | none =>
        cases hor : document.lookup "or" with
        | some v =>
          rcases eq_list_or_ofParts_eq v with ⟨parts, rfl⟩ | hrefused
          · exact .inr (.inr ⟨document, rfl, .inr ⟨parts, hmatch, .inr ⟨hand, hor⟩⟩⟩)
          · exact .inr (.inl ⟨.operandsNotList, by rw [Option.map_some, hrefused]; rfl⟩)
        | none =>
          refine (ofTest_cases hmatch hand hor).imp id (Or.imp id fun htest => ?_)
          exact ⟨document, rfl, .inl htest⟩
  | _ => exact .inr (.inl ⟨_, rfl⟩)

/-! ## Values that cannot be looked up by -/

/-- Whether reading a document stops at a test that lists a value which cannot be looked up by.
    Everything before the test is read, and what comes after it is not looked at. -/
inductive StopsAtNonKey : Value → Prop
  | test {document : Fields} {values : List Value} {v : Value} (htest : IsListTest document values)
      (hv : v ∈ values) (hkey : v.isKey = false) : StopsAtNonKey (.record document)
  | part {document : Fields} {before after : List Value} {v : Value}
      (hjunction : IsJunction document (before ++ v :: after))
      (hbefore : ∀ w ∈ before, ∃ p, ofValue w = .ok p) (hv : StopsAtNonKey v) :
      StopsAtNonKey (.record document)

theorem fieldIn_eq_error_iff {name : String} :
    fieldIn name values = .error fault ↔ fault = .wrongType ∧ ∃ v ∈ values, v.isKey = false := by
  rw [fieldIn]
  split_ifs with hkeys
  · rw [List.all_eq_true] at hkeys
    constructor
    · intro h
      cases h
    · rintro ⟨-, v, hv, hkey⟩
      exact absurd (hkeys v hv) (by simp [hkey])
  · rw [List.all_eq_true] at hkeys
    push Not at hkeys
    simp only [Except.error.injEq, eq_comm (a := Fault.wrongType)]
    exact ⟨fun h => ⟨h, by simpa using hkeys⟩, And.left⟩

/-- A fault of reading is a refusal, or reading has stopped at such a test. -/
theorem fault_of_ofValue (v : Value) {fault : Fault} (h : ofValue v = .error fault) :
    (∃ cause, fault = .document cause) ∨ fault = .wrongType ∧ StopsAtNonKey v := by
  rcases ofValue_cases v with ⟨p, hp⟩ | ⟨cause, hcause⟩ | ⟨document, rfl, ⟨values, htest⟩ |
    ⟨parts, hjunction⟩⟩
  · cases hp.symm.trans h
  · cases hcause.symm.trans h
    exact .inl ⟨cause, rfl⟩
  · obtain ⟨name, hname⟩ := htest.exists_ofValue_eq
    rw [hname, fieldIn_eq_error_iff] at h
    obtain ⟨rfl, v, hv, hkey⟩ := h
    exact .inr ⟨rfl, .test htest hv hkey⟩
  · obtain ⟨join, hjoin⟩ := hjunction.exists_ofValue_eq
    rw [hjoin, bind_eq_error_iff] at h
    obtain ⟨before, v, after, rfl, hbefore, hv⟩ := exists_of_mapM_eq_error (h.resolve_right nofun)
    have hsmaller := hjunction.sizeOf_lt (v := v) (by simp)
    exact (fault_of_ofValue v hv).imp id (And.imp id (.part hjunction hbefore))
termination_by sizeOf v

/-- Where reading stops at such a test, it does so with a fault of its own. -/
theorem StopsAtNonKey.ofValue_eq (h : StopsAtNonKey v) : ofValue v = .error .wrongType := by
  induction h with
  | test htest hv hkey =>
    obtain ⟨name, hname⟩ := htest.exists_ofValue_eq
    rw [hname]
    exact fieldIn_eq_error_iff.2 ⟨rfl, _, hv, hkey⟩
  | @part document before after v hjunction hbefore _ ih =>
    obtain ⟨join, hjoin⟩ := hjunction.exists_ofValue_eq
    obtain ⟨ps, hps⟩ := exists_mapM_eq_ok_iff.2 hbefore
    rw [hjoin, List.mapM_append, hps, ok_bind, List.mapM_cons, ih]
    rfl

theorem ofValue_eq_wrongType_iff : ofValue v = .error .wrongType ↔ StopsAtNonKey v := by
  refine ⟨fun h => ?_, StopsAtNonKey.ofValue_eq⟩
  rcases fault_of_ofValue v h with ⟨cause, hcause⟩ | ⟨-, hstops⟩
  · cases hcause
  · exact hstops

/-- A document stands for a predicate, is refused, or reading stops at such a test. -/
theorem ofValue_answers (v : Value) :
    (∃ p, ofValue v = .ok p) ∨ (∃ cause, ofValue v = .error (.document cause)) ∨
      StopsAtNonKey v ∧ ofValue v = .error .wrongType := by
  cases hv : ofValue v with
  | ok p => exact .inl ⟨p, rfl⟩
  | error fault =>
    rcases fault_of_ofValue v hv with ⟨cause, rfl⟩ | ⟨rfl, hstops⟩
    · exact .inr (.inl ⟨cause, rfl⟩)
    · exact .inr (.inr ⟨hstops, rfl⟩)

end Predicate

/-! ## Rules -/

/-- A document stands for a predicate or is refused, except exactly if it is one at which reading
    stops because some test lists a value that cannot be looked up by. A rule that has the document
    gives the predicate, or is malformed and says so, except for such a document: then the rule
    fails with a fault of another kind. -/
theorem VisibilityRule.document_refused (v : Value) :
    (((∃ p, Predicate.ofValue v = .ok p) ∨
      ∃ cause, Predicate.ofValue v = .error (.document cause)) ↔ ¬Predicate.StopsAtNonKey v) ∧
    (Predicate.ofValue v = .error .wrongType ↔ Predicate.StopsAtNonKey v) ∧
    ∀ (policy : Policy) (ctx : SecurityContext) (object : String) (rule : VisibilityRule)
      (c : CustomCondition) (document : Fields), rule.reading = .ok (.custom c) →
      object ∉ [policy.objects.establishment, policy.objects.inspection,
        policy.objects.userManagement] →
      c.filter = some document → v = .record document →
      (∃ p, Predicate.ofValue v = .ok p ∧ rule.predicate ctx object policy = .ok (some p)) ∨
      (∃ cause, Predicate.ofValue v = .error (.document cause) ∧
        rule.predicate ctx object policy =
          .error (.malformedRule (.invalidDocument object cause))) ∨
      Predicate.StopsAtNonKey v ∧ rule.predicate ctx object policy = .error .wrongType := by
  refine ⟨?_, Predicate.ofValue_eq_wrongType_iff, ?_⟩
  · rw [← Predicate.ofValue_eq_wrongType_iff]
    constructor
    · rintro (⟨p, hp⟩ | ⟨cause, hcause⟩) hwrong
      · cases hp.symm.trans hwrong
      · cases hcause.symm.trans hwrong
    · intro hright
      rcases Predicate.ofValue_answers v with hp | hcause | ⟨-, hwrong⟩
      · exact .inl hp
      · exact .inr hcause
      · exact absurd hwrong hright
  · rintro policy ctx object rule c document hc hobject hfilter rfl
    rw [predicate_of_document hc hobject hfilter, ofDocument]
    rcases Predicate.ofValue_answers (.record document) with ⟨p, hp⟩ | ⟨cause, hcause⟩ |
      ⟨hstops, hwrong⟩
    · exact .inl ⟨p, hp, by rw [hp]; rfl⟩
    · exact .inr (.inl ⟨cause, hcause, by rw [hcause]; rfl⟩)
    · exact .inr (.inr ⟨hstops, by rw [hwrong]; rfl⟩)

/-- A test for two states, given as one value. -/
def Predicate.bothStates : Value :=
  .record [("field", .text "status"), ("in", .list [.list [.text "open", .text "late"]])]

/-- A rule with this test, after a part that can be read. -/
def VisibilityRule.bothStates : VisibilityRule :=
  ⟨.custom, .record [("where", .record [("and", .list
    [.record [("match", .text "all")], Predicate.bothStates])])], .int 0⟩

/-- A rule with a constant of an unknown name. -/
def VisibilityRule.someStates : VisibilityRule :=
  ⟨.custom, .record [("where", .record [("match", .text "some")])], .int 0⟩

/-- The unknown constant makes a rule malformed, the test does not. -/
theorem VisibilityRule.bothStates_notMalformed :
    (∃ cause, someStates.predicate .teamLead "doc" {} =
      .error (.malformedRule (.invalidDocument "doc" cause))) ∧
    bothStates.predicate .teamLead "doc" {} = .error .wrongType := by
  constructor
  · obtain ⟨-, -, hrule⟩ := document_refused (.record [("match", .text "some")])
    rcases hrule {} .teamLead "doc" someStates _ _ rfl (by decide) rfl rfl with
      ⟨p, hp, -⟩ | ⟨cause, -, hcause⟩ | ⟨hstops, -⟩
    · cases hp
    · exact ⟨cause, hcause⟩
    · cases hstops.ofValue_eq
  · obtain ⟨-, -, hrule⟩ := document_refused (.record [("and", .list
      [.record [("match", .text "all")], Predicate.bothStates])])
    rcases hrule {} .teamLead "doc" bothStates _ _ rfl (by decide) rfl rfl with
      ⟨p, hp, -⟩ | ⟨cause, hcause, -⟩ | ⟨-, hwrong⟩
    · cases hp
    · cases hcause
    · exact hwrong

/-- A document that stands for no predicate need not be refused, and then the rule that has it is
    not malformed. -/
theorem Predicate.nonKey_escapes :
    (¬∀ v : Value, (∃ p, ofValue v = .ok p) ∨ ∃ cause, ofValue v = .error (.document cause)) ∧
    ¬∀ (rule : VisibilityRule) (fault : Fault),
      rule.predicate .teamLead "doc" {} = .error fault → ∃ cause, fault = .malformedRule cause := by
  constructor
  · intro h
    rcases h bothStates with ⟨p, hp⟩ | ⟨cause, hcause⟩
    · cases hp
    · cases hcause
  · intro h
    obtain ⟨cause, hcause⟩ := h VisibilityRule.bothStates .wrongType rfl
    cases hcause

end StaffAccess

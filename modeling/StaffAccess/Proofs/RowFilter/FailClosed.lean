import StaffAccess.Proofs.RowFilter.Visibility

/-!
# Rules that cannot be used

The filter of an object needs all of the object's rules. If one of them cannot be used there is no
filter, whichever place the rule has and however much the other rules would show, and whoever asks
gets the filter that hides everything. So a filter that shows something is never the remainder of
a failure: the context was there, and every rule has been used.

Conditions are read before anything else. Only the rules on the hierarchy leave theirs unread for
users who have no place in it.

* `VisibilityRule.IsBroken`: the rules that cannot be used.
* `VisibilityRule.exists_predicate_eq_error_of_isBroken`: they give no predicate.
* `RowFilter.exists_ofRules_eq_error_iff`: rules of which one gives none have no filter.
* `RowFilter.compile_failsClosed`: what is hidden, and what a filter that shows something tells.
-/

namespace StaffAccess

namespace VisibilityRule

variable {policy : Policy} {ctx : SecurityContext} {object : String} {r : VisibilityRule}

/-- Whether a rule cannot be used for an object: its condition has a wrong shape, and is not one
    on the hierarchy that goes unread; or the object has no rules of its own, and the predicate
    document of the rule is refused. -/
def IsBroken (r : VisibilityRule) (policy : Policy) (ctx : SecurityContext) (object : String) :
    Prop :=
  (∃ fault, r.reading = .error fault) ∧ ¬(r.kind = .hierarchy ∧ ctx.hierarchy = none) ∨
  ∃ c document fault, r.reading = .ok (.custom c) ∧
    object ∉ [policy.objects.establishment, policy.objects.inspection,
      policy.objects.userManagement] ∧
    c.filter = some document ∧ Predicate.ofValue (.record document) = .error fault

/-- Without its condition a rule gives nothing. -/
theorem predicate_of_reading_error {fault : Fault} (h : r.reading = .error fault)
    (hread : ¬(r.kind = .hierarchy ∧ ctx.hierarchy = none)) :
    r.predicate ctx object policy = .error fault := by
  rw [reading] at h
  rw [predicate]
  cases hkind : r.kind <;> rw [hkind] at h <;> dsimp only at h ⊢ <;> rw [map_eq_error_iff] at h
  · have hplace : ctx.hierarchy.isNone = false := by
      simpa [hkind, ← Option.isNone_iff_eq_none] using hread
    rw [byHierarchy, hplace, if_neg Bool.false_ne_true, h, error_bind]
  · rw [byGeography, h, error_bind]
  · rw [byOwnership, h, error_bind]
  · rw [byTenant, h, error_bind]
  · rw [byObject, h, error_bind]

/-- Only rules of the kind `custom` have such a condition. -/
theorem reading_eq_custom_iff {c : CustomCondition} : r.reading = .ok (.custom c) ↔
    r.kind = .custom ∧ r.conditionAs CustomCondition.check = .ok c := by
  rw [reading]
  cases r.kind <;> simp [map_eq_ok_iff]

/-- For an object without rules of its own, a rule gives what its document stands for. -/
theorem predicate_of_document {c : CustomCondition} {document : Fields}
    (hc : r.reading = .ok (.custom c))
    (hobject : object ∉ [policy.objects.establishment, policy.objects.inspection,
      policy.objects.userManagement])
    (hfilter : c.filter = some document) :
    r.predicate ctx object policy = (do return some (← ofDocument object document)) := by
  obtain ⟨hkind, hc⟩ := reading_eq_custom_iff.1 hc
  simp only [List.mem_cons, List.not_mem_nil, or_false, not_or] at hobject
  obtain ⟨hestablishment, hinspection, husers⟩ := hobject
  rw [predicate, hkind]
  dsimp only
  rw [byObject, hc, ok_bind, if_neg husers, if_neg hinspection, if_neg hestablishment, hfilter]

/-- Without its document a rule gives nothing. -/
theorem exists_predicate_of_document_error {c : CustomCondition} {document : Fields}
    {fault : Fault} (hc : r.reading = .ok (.custom c))
    (hobject : object ∉ [policy.objects.establishment, policy.objects.inspection,
      policy.objects.userManagement])
    (hfilter : c.filter = some document)
    (hdocument : Predicate.ofValue (.record document) = .error fault) :
    ∃ fault, r.predicate ctx object policy = .error fault := by
  have hrefused : ∃ fault, ofDocument object document = .error fault := by
    rw [ofDocument, hdocument]
    split
    · exact ⟨_, rfl⟩
    · exact ⟨_, rfl⟩
  obtain ⟨fault, hrefused⟩ := hrefused
  exact ⟨fault, by rw [predicate_of_document hc hobject hfilter, hrefused, error_bind]⟩

/-- A rule that cannot be used gives nothing. -/
theorem exists_predicate_eq_error_of_isBroken (h : r.IsBroken policy ctx object) :
    ∃ fault, r.predicate ctx object policy = .error fault := by
  rcases h with ⟨⟨fault, h⟩, hread⟩ | ⟨c, document, fault, hc, hobject, hfilter, hdocument⟩
  · exact ⟨fault, predicate_of_reading_error h hread⟩
  · exact exists_predicate_of_document_error hc hobject hfilter hdocument

end VisibilityRule

/-! ## Filters -/

namespace RowFilter

variable {policy : Policy} {ctx : SecurityContext} {object : String}
  {rules : List VisibilityRule}

/-- Rules have no filter together exactly if one of them gives none. -/
theorem exists_ofRules_eq_error_iff :
    (∃ fault, ofRules rules ctx object policy = .error fault) ↔
      ∃ r ∈ rules, ∃ fault, r.predicate ctx object policy = .error fault := by
  rw [← exists_mapM_eq_error_iff, ofRules]
  cases rules.mapM fun r => r.predicate ctx object policy with
  | error fault => simp
  | ok given =>
    rw [ok_bind]
    split <;> simp

/-- Whether an object is reserved to the ministry and the user is not of it. -/
def IsLocked (policy : Policy) (ctx : SecurityContext) (object : String) : Prop :=
  object ∈ policy.ministryOnly ∧ ctx.scope ≠ .ministry

instance : Decidable (IsLocked policy ctx object) :=
  inferInstanceAs (Decidable (object ∈ policy.ministryOnly ∧ ctx.scope ≠ .ministry))

theorem isLocked_iff : IsLocked policy ctx object ↔
    policy.isMinistryOnly (.text object) = true ∧ ctx.scope ≠ .ministry := by
  simp [IsLocked, Policy.isMinistryOnly]

/-- An object that is not locked has the filter of its rules. -/
theorem ofContext_eq_ofRules (hopen : ¬IsLocked policy ctx object) :
    ofContext ctx (.text object) policy = ofRules (ctx.rulesOn object) ctx object policy := by
  rw [isLocked_iff] at hopen
  rw [ofContext, if_neg hopen, OrderedMap.find, ok_bind, SecurityContext.rulesOn]
  cases ctx.rowRules.get? object with
  | none => rfl
  | some rules => rfl

/-- Only a context that has loaded has a filter other than the one that hides everything. -/
theorem compile_cases (policy : Policy) (loaded : Except Fault SecurityContext) (object : Value) :
    compile policy loaded object = denied faultMessage ∨
      ∃ ctx, loaded = .ok ctx ∧
        ofContext ctx object policy = .ok (compile policy loaded object) := by
  rw [compile]
  cases loaded with
  | error fault => exact .inl rfl
  | ok ctx =>
    rw [ok_bind]
    cases hfilter : ofContext ctx object policy with
    | error fault => exact .inl rfl
    | ok filter => exact .inr ⟨ctx, rfl, hfilter⟩

theorem compile_of_error {fault : Fault} {object : Value}
    (h : ofContext ctx object policy = .error fault) :
    compile policy (.ok ctx) object = denied faultMessage := by
  rw [compile, ok_bind, h]

/-- Rules of which one is broken have no filter, wherever it stands among them. -/
theorem exists_ofContext_eq_error (hopen : ¬IsLocked policy ctx object) {r : VisibilityRule}
    (hr : r ∈ ctx.rulesOn object) (hbroken : r.IsBroken policy ctx object) :
    ∃ fault, ofContext ctx (.text object) policy = .error fault := by
  rw [ofContext_eq_ofRules hopen]
  exact exists_ofRules_eq_error_iff.2
    ⟨r, hr, VisibilityRule.exists_predicate_eq_error_of_isBroken hbroken⟩

/-- A filter that does not hide everything comes from a context of which every rule is used. -/
theorem exists_predicates_of_level_ne_full {loaded : Except Fault SecurityContext}
    (hlevel : (compile policy loaded (.text object)).level ≠ .full) :
    ∃ ctx, loaded = .ok ctx ∧
      ∀ r ∈ ctx.rulesOn object, ∃ given, r.predicate ctx object policy = .ok given := by
  rcases compile_cases policy loaded (.text object) with hdenied | ⟨ctx, rfl, hfilter⟩
  · rw [hdenied] at hlevel
    exact absurd rfl hlevel
  · refine ⟨ctx, rfl, fun r hr => ?_⟩
    have hopen : ¬IsLocked policy ctx object := by
      intro hlocked
      rw [ofContext, if_pos (isLocked_iff.1 hlocked)] at hfilter
      rw [← Except.ok.inj hfilter] at hlevel
      exact hlevel rfl
    cases hgiven : r.predicate ctx object policy with
    | ok given => exact ⟨given, rfl⟩
    | error fault =>
      obtain ⟨fault', hfault⟩ := exists_ofRules_eq_error_iff.2 ⟨r, hr, fault, hgiven⟩
      rw [ofContext_eq_ofRules hopen, hfault] at hfilter
      cases hfilter

/-- A rule that cannot be used leaves an object without a filter, wherever the rule stands and
    whatever the other rules are, and everything is hidden with the words for a failure. Whoever
    asks for a filter gets one: that one, or what the context gives. If it does not hide
    everything, the context has loaded and every rule of the object has been used. -/
theorem compile_failsClosed (policy : Policy) :
    (∀ (ctx : SecurityContext) (object : String), ¬IsLocked policy ctx object →
      ∀ before r after, ctx.rulesOn object = before ++ r :: after →
        r.IsBroken policy ctx object →
        (∃ fault, ofContext ctx (.text object) policy = .error fault) ∧
        compile policy (.ok ctx) (.text object) = ⟨.matchNone, .full, some faultMessage⟩) ∧
    (∀ loaded object,
      compile policy loaded object = ⟨.matchNone, .full, some faultMessage⟩ ∨
        ∃ ctx, loaded = .ok ctx ∧
          ofContext ctx object policy = .ok (compile policy loaded object)) ∧
    ∀ loaded (object : String), (compile policy loaded (.text object)).level ≠ .full →
      ∃ ctx, loaded = .ok ctx ∧
        ∀ r ∈ ctx.rulesOn object, ∃ given, r.predicate ctx object policy = .ok given := by
  refine ⟨?_, compile_cases policy, fun loaded object => exists_predicates_of_level_ne_full⟩
  intro ctx object hopen before r after hrules hbroken
  have hr : r ∈ ctx.rulesOn object := hrules ▸ by simp
  obtain ⟨fault, hfault⟩ := exists_ofContext_eq_error hopen hr hbroken
  exact ⟨⟨fault, hfault⟩, compile_of_error hfault⟩

end RowFilter

/-- Rules for documents: all of them for a secretary general, those of the team, and those of an
    owner who is not told apart. -/
def VisibilityRule.samples : List VisibilityRule :=
  [⟨.tenant, .record [("allow_multiple_establishments", .bool true)], .int 3⟩,
    ⟨.hierarchy, .record [], .int 2⟩,
    ⟨.ownership, .record [("include_created", .text "definitely")], .int 1⟩]

/-- A secretary general with the rules for documents, and with those for notes that can be used. -/
def SecurityContext.secretary : SecurityContext where
  __ := SecurityContext.teamLead
  userType := "SECRETARY_GENERAL"
  rowRules := .ofEntries [("doc", VisibilityRule.samples),
    ("note", VisibilityRule.samples.take 2)]

namespace RowFilter

/-- The rule on owners hides the documents, which the first rule alone would show; the notes are
    shown, and all their rules are used. -/
theorem secretary_seesNotes :
    compile {} (.ok .secretary) (.text "doc") = ⟨.matchNone, .full, some faultMessage⟩ ∧
    (compile {} (.ok .secretary) (.text "note")).level = .none ∧
    ∀ r ∈ SecurityContext.secretary.rulesOn "note",
      ∃ given, r.predicate .secretary "note" {} = .ok given := by
  obtain ⟨hbroken, -, hshown⟩ := compile_failsClosed {}
  have hreading : ∃ fault, VisibilityRule.samples[2].reading = .error fault := ⟨_, rfl⟩
  obtain ⟨-, hdenied⟩ := hbroken .secretary "doc" (by decide) (VisibilityRule.samples.take 2)
    VisibilityRule.samples[2] [] rfl (.inl ⟨hreading, by decide⟩)
  have hlevel : (compile {} (.ok .secretary) (.text "note")).level = .none := rfl
  obtain ⟨ctx, hctx, hused⟩ := hshown (.ok .secretary) "note" (by rw [hlevel]; decide)
  cases hctx
  exact ⟨hdenied, hlevel, hused⟩

end RowFilter

end StaffAccess

import StaffAccess.Proofs.Ui.Elements
import StaffAccess.Proofs.Ui.Wildcard

/-!
# Defaults of names and of patterns

Some words in the name of an element ask something of the user, depending on the type of the
element: a field with a password is for nobody, a button to delete for those who may delete
something. A rule knows the pattern and not the name, and it is the pattern that is searched for
these words. Every word of the pattern is in the name, so a pattern asks for no more than the
names that it matches. But it may ask for less: what a star stands for is not looked at, and a
field with a password is shown by a rule for all fields.

* `ElementType.Overlooks`: a word of the name matters to the user and is not in the pattern.
* `ElementType.admits_pattern`: a pattern asks for no more than a name.
* `ElementVisibility.visible_admits`: what an element that is seen tells about its name.
* `ElementVisibility.starredField_showsPassword`: a password behind a star.
-/

namespace StaffAccess

/-- What a rule shows, the defaults of its type show. -/
theorem UiRule.visible_defaults {r : UiRule} {ctx : SecurityContext} {policy : Policy}
    {record : Value} {f : Flags} (h : r.flags ctx policy record = .ok f)
    (hvisible : f.visible = true) : (r.defaults ctx policy).visible = true := by
  obtain ⟨conditions, given, -, -, rfl⟩ := UiRule.flags_eq_ok_iff.1 h
  exact (Bool.and_eq_true_iff.1 hvisible).2

namespace ElementType

variable {t : ElementType} {ctx : SecurityContext} {policy : Policy} {pattern name : String}

/-- No word that a type asks about holds a star. -/
theorem star_notMem_word (t : ElementType) (ctx : SecurityContext) (policy : Policy) :
    ∀ demand ∈ t.demands ctx policy, ∀ word ∈ demand.words, '*' ∉ word.toList := by
  cases t <;> simp [demands]

/-- Whether a word of the name, which the pattern does not hold, asks for what the user lacks. -/
def Overlooks (t : ElementType) (ctx : SecurityContext) (policy : Policy)
    (pattern name : String) : Prop :=
  ∃ demand ∈ t.demands ctx policy, demand.satisfied = false ∧
    ∃ word ∈ demand.words, Text.contains word name = true ∧ Text.contains word pattern = false

/-- A pattern asks for no more than the names that it matches. -/
theorem admits_pattern (h : Wildcard.accepts pattern name = true)
    (hname : t.admits name ctx policy = true) : t.admits pattern ctx policy = true := by
  rw [admits, List.all_eq_true] at hname ⊢
  intro demand hdemand
  have hwords : demand.words.any (Text.contains · pattern) = true →
      demand.words.any (Text.contains · name) = true := by
    rw [List.any_eq_true, List.any_eq_true]
    rintro ⟨word, hword, hin⟩
    exact ⟨word, hword,
      Wildcard.contains_of_accepts h (t.star_notMem_word ctx policy demand hdemand word hword) hin⟩
  have hadmits := hname demand hdemand
  simp only [NameDemand.admits, Bool.or_eq_true, Bool.not_eq_true', ← Bool.not_eq_true]
    at hadmits ⊢
  exact hadmits.imp_left (mt hwords)

/-- Where a pattern asks for less than a name, it overlooks a word. -/
theorem admits_or_overlooks (hpattern : t.admits pattern ctx policy = true) (name : String) :
    t.admits name ctx policy = true ∨ t.Overlooks ctx policy pattern name := by
  cases hname : t.admits name ctx policy with
  | true => exact .inl rfl
  | false =>
    obtain ⟨demand, hdemand, hrefused⟩ := List.all_eq_false.1 hname
    have hadmits := List.all_eq_true.1 hpattern demand hdemand
    simp only [NameDemand.admits, Bool.or_eq_true, Bool.not_eq_true', not_or,
      Bool.not_eq_false, Bool.not_eq_true] at hrefused hadmits
    obtain ⟨word, hword, hin⟩ := List.any_eq_true.1 hrefused.1
    have hlacks := hadmits.resolve_right (by simp [hrefused.2])
    exact .inr ⟨demand, hdemand, hrefused.2, word, hword, hin, by
      simpa using List.any_eq_false.1 hlacks word hword⟩

/-- Only a star can overlook something. -/
theorem Overlooks.hasStar (h : t.Overlooks ctx policy pattern name)
    (haccepts : Wildcard.accepts pattern name = true) : Wildcard.hasStar pattern = true := by
  cases hstar : Wildcard.hasStar pattern with
  | true => rfl
  | false =>
    obtain ⟨_, _, _, word, _, hin, hnot⟩ := h
    obtain rfl := Wildcard.eq_of_accepts haccepts hstar
    cases hin.symm.trans hnot

end ElementType

namespace ElementVisibility

/-- Where all rules of an element are of one type, an element that is seen has a rule whose
    pattern the defaults of the type admit. They then admit the name as well, unless a star of
    the pattern stands for a word that asks for what the user lacks. Where they admit the name,
    they take nothing from what any of the rules gives. -/
theorem visible_admits (policy : Policy) (ctx : SecurityContext) (t : ElementType) (name : String)
    (record : Value) (hrule : ∃ r ∈ ctx.uiRules, Wildcard.accepts r.pattern name = true)
    (htype : ∀ r ∈ ctx.uiRules, Wildcard.accepts r.pattern name = true →
      r.elementType = t.word) :
    ((evaluate policy (.ok ctx) (.text name) record).flags.visible = true →
      ∃ r ∈ ctx.uiRules, Wildcard.accepts r.pattern name = true ∧
        t.admits r.pattern ctx policy = true ∧
        (t.admits name ctx policy = true ∨
          Wildcard.hasStar r.pattern = true ∧ t.Overlooks ctx policy r.pattern name)) ∧
    (t.admits name ctx policy = true → ∀ r ∈ ctx.uiRules,
      Wildcard.accepts r.pattern name = true → r.defaults ctx policy = .unrestricted) := by
  have hdefaults : ∀ r ∈ ctx.uiRules, Wildcard.accepts r.pattern name = true →
      r.defaults ctx policy = .shown (t.admits r.pattern ctx policy) := by
    intro r hr haccepts
    rw [UiRule.defaults, htype r hr haccepts, ElementType.ofWord?_word]
  constructor
  · intro hvisible
    obtain ⟨r₀, hr₀, haccepts₀⟩ := hrule
    obtain ⟨r, hr, f, hflags, hshown⟩ :=
      exists_rule_of_visible (SecurityContext.mem_uiRulesFor.2 ⟨hr₀, haccepts₀⟩) hvisible
    obtain ⟨hr, haccepts⟩ := SecurityContext.mem_uiRulesFor.1 hr
    have hpattern : t.admits r.pattern ctx policy = true := by
      simpa [hdefaults r hr haccepts, Flags.shown] using UiRule.visible_defaults hflags hshown
    exact ⟨r, hr, haccepts, hpattern, (ElementType.admits_or_overlooks hpattern name).imp_right
      fun h => ⟨h.hasStar haccepts, h⟩⟩
  · intro hname r hr haccepts
    rw [hdefaults r hr haccepts, ElementType.admits_pattern haccepts hname]
    rfl

end ElementVisibility

/-- A clerk with rules for fields. -/
def SecurityContext.withFields : SecurityContext where
  userId := "eve"
  scope := .school
  userType := "CLERK"
  tenantId := .text "north"
  permissions := .empty
  rowRules := .empty
  uiRules := [⟨"field-*", "FIELD", .bool true, .bool true, .null⟩,
    ⟨"field-salary", "FIELD", .bool true, .bool true, .null⟩]
  hierarchy := none
  lastUpdated := .finite false 0

namespace ElementVisibility

/-- Of the rules for a field with an address, one shows it, and nothing is asked of its name. -/
theorem addressField_admitted :
    (evaluate {} (.ok .withFields) (.text "field-address") .null).flags.visible = true ∧
    (∃ r ∈ SecurityContext.withFields.uiRules,
      Wildcard.accepts r.pattern "field-address" = true ∧
      ElementType.field.admits r.pattern .withFields {} = true) ∧
    ∀ r ∈ SecurityContext.withFields.uiRules,
      Wildcard.accepts r.pattern "field-address" = true →
        r.defaults .withFields {} = .unrestricted := by
  have hvisible :
      (evaluate {} (.ok .withFields) (.text "field-address") .null).flags.visible = true := by
    decide
  obtain ⟨hadmits, hdefaults⟩ := visible_admits {} .withFields .field "field-address" .null
    (by decide) (by decide)
  obtain ⟨r, hr, haccepts, hpattern, -⟩ := hadmits hvisible
  exact ⟨hvisible, ⟨r, hr, haccepts, hpattern⟩, hdefaults (by decide)⟩

/-- The rule for all fields shows a password, which the defaults of fields admit to nobody. -/
theorem starredField_showsPassword :
    (∃ r ∈ SecurityContext.withFields.uiRules,
      Wildcard.accepts r.pattern "field-password" = true) ∧
    (∀ r ∈ SecurityContext.withFields.uiRules,
      Wildcard.accepts r.pattern "field-password" = true →
        r.elementType = ElementType.field.word) ∧
    (evaluate {} (.ok .withFields) (.text "field-password") .null).flags.visible = true ∧
    ElementType.field.admits "field-password" .withFields {} = false := by
  decide

end ElementVisibility

end StaffAccess

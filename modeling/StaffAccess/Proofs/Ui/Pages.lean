import StaffAccess.Proofs.Ui.Elements
import StaffAccess.Proofs.Ui.TwoRuns

/-!
# The entries of a page

A page is put together rule by rule, and what a rule gives is joined to the entry of its pattern.
In the end the entry of a pattern has what all rules of this pattern give together, those apart
that are kept off the page; a pattern without such a rule has no entry.

* `UiRule.GivesOn`: a rule that can be evaluated and is not kept off a page.
* `UiConfig.flags_get?_add_self`, `UiConfig.get?_add_of_ne`: the entries after one rule more.
* `Evaluation.givenOn`: what the rules of a pattern give on a page.
* `Evaluation.flags_get?_foldl`: the entry of a pattern, after any number of rules.
-/

namespace StaffAccess

/-! ## Rules -/

/-- Whether a rule is not kept off a page and gives some flags there. -/
def UiRule.GivesOn (r : UiRule) (e : Evaluation) (page : Value) (f : Flags) : Prop :=
  ∃ conditions, r.parsedConditions = .ok conditions ∧
    conditions.any (·.excludes page) = false ∧
    r.flagsUnder conditions e.ctx e.policy e.record = .ok f

namespace UiConfig

variable {r : UiRule} {e : Evaluation} {page : Value} {f : Flags}

/-- A rule whose conditions cannot be read is locked on every page. -/
theorem ruleFlags_of_error {fault : Fault} (h : r.parsedConditions = .error fault) :
    ruleFlags r e.ctx e.policy page e.record = some .locked := by
  rw [ruleFlags, h, error_bind]

/-- A rule that is not locked gives what it does on the page. -/
theorem ruleFlags_eq_some_iff (hf : f ≠ .locked) :
    ruleFlags r e.ctx e.policy page e.record = some f ↔ r.GivesOn e page f := by
  rw [ruleFlags, UiRule.GivesOn]
  cases r.parsedConditions with
  | error fault => simp [hf.symm]
  | ok conditions =>
    cases hpage : conditions.any (·.excludes page) with
    | true => simp [hpage]
    | false =>
      cases hflags : r.flagsUnder conditions e.ctx e.policy e.record with
      | error fault => simp [hpage, hflags, hf.symm]
      | ok f' => simp [hpage, hflags]

variable {config : OrderedMap String UiElement} {pattern : String}

/-- The entry of a rule's pattern has what the rule gives, and what it had before. -/
theorem flags_get?_add_self (config : OrderedMap String UiElement) (r : UiRule) (f : Flags) :
    ((add config r f).get? r.pattern).map UiElement.flags =
      some (((config.get? r.pattern).map UiElement.flags).elim f f.either) := by
  unfold add
  dsimp only
  rw [OrderedMap.get?_put_self]
  cases config.get? r.pattern <;> rfl

/-- A rule leaves the entries of other patterns alone. -/
theorem get?_add_of_ne (h : pattern ≠ r.pattern) :
    (add config r f).get? pattern = config.get? pattern :=
  OrderedMap.get?_put_of_ne _ _ h

end UiConfig

/-! ## Pages -/

namespace Flags

/-- What some grants give together, if there are any. -/
def together : List Flags → Option Flags
  | [] => none
  | f :: flags => some ((f :: flags).foldl .either .closed)

theorem together_concat (flags : List Flags) (f : Flags) :
    together (flags ++ [f]) = some ((together flags).elim f f.either) := by
  cases flags with
  | nil => simp [together]
  | cons g flags =>
    rw [List.cons_append, together, ← List.cons_append, List.foldl_append]
    exact congrArg some (either_comm _ f)

/-- What some grants give together has every flag that one of them has. -/
theorem eq_of_together {flags : List Flags} {f : Flags} (h : together flags = some f) :
    f = ⟨flags.any visible, flags.any enabled, flags.any readonly⟩ := by
  cases flags with
  | nil => cases h
  | cons g flags =>
    rw [← foldl_either_closed]
    exact (Option.some.inj h).symm

end Flags

namespace Evaluation

variable {e : Evaluation} {page : Value} {pattern : String} {r : UiRule} {f : Flags}

/-- What the rules of a pattern give on a page, without those that are kept off it. -/
def givenOn (e : Evaluation) (page : Value) (rules : List UiRule) (pattern : String) :
    List Flags :=
  (rules.filter (·.pattern = pattern)).filterMap fun r =>
    UiConfig.ruleFlags r e.ctx e.policy page e.record

theorem mem_givenOn {rules : List UiRule} : f ∈ e.givenOn page rules pattern ↔
    ∃ r ∈ rules, r.pattern = pattern ∧
      UiConfig.ruleFlags r e.ctx e.policy page e.record = some f := by
  simp [givenOn, and_assoc]

/-- A flag that locked elements lack comes from a rule that gives it on the page. -/
theorem any_givenOn_iff {rules : List UiRule} {flag : Flags → Bool}
    (hflag : flag .locked = false) : (e.givenOn page rules pattern).any flag = true ↔
      ∃ r ∈ rules, r.pattern = pattern ∧ ∃ f, r.GivesOn e page f ∧ flag f = true := by
  have hne : ∀ f, flag f = true → f ≠ .locked := by
    rintro f hf rfl
    cases hf.symm.trans hflag
  rw [List.any_eq_true]
  constructor
  · rintro ⟨f, hmem, hf⟩
    obtain ⟨r, hr, hpattern, hgives⟩ := mem_givenOn.1 hmem
    exact ⟨r, hr, hpattern, f, (UiConfig.ruleFlags_eq_some_iff (hne f hf)).1 hgives, hf⟩
  · rintro ⟨r, hr, hpattern, f, hgives, hf⟩
    have hflags := (UiConfig.ruleFlags_eq_some_iff (hne f hf)).2 hgives
    exact ⟨f, mem_givenOn.2 ⟨r, hr, hpattern, hflags⟩, hf⟩

theorem givenOn_concat (e : Evaluation) (page : Value) (rules : List UiRule) (r : UiRule)
    (pattern : String) :
    e.givenOn page (rules ++ [r]) pattern =
      e.givenOn page rules pattern ++ e.givenOn page [r] pattern := by
  simp [givenOn]

theorem givenOn_singleton_self (e : Evaluation) (page : Value) (r : UiRule) :
    e.givenOn page [r] r.pattern =
      (UiConfig.ruleFlags r e.ctx e.policy page e.record).toList := by
  cases hflags : UiConfig.ruleFlags r e.ctx e.policy page e.record <;> simp [givenOn, hflags]

theorem givenOn_singleton_of_ne (h : pattern ≠ r.pattern) : e.givenOn page [r] pattern = [] := by
  simp [givenOn, h.symm]

/-- The entry of a pattern has what the rules of the pattern give together. -/
theorem flags_get?_foldl (e : Evaluation) (page : Value) (rules : List UiRule)
    (pattern : String) :
    ((rules.foldl (e.withRule page) .empty).get? pattern).map UiElement.flags =
      Flags.together (e.givenOn page rules pattern) := by
  -- The loop adds at the end, so the induction takes rules away there.
  induction rules using List.reverseRecOn with
  | nil => rfl
  | append_singleton rules r ih =>
    rw [List.foldl_append, List.foldl_cons, List.foldl_nil, withRule, givenOn_concat]
    by_cases hp : pattern = r.pattern
    · subst hp
      rw [givenOn_singleton_self]
      cases UiConfig.ruleFlags r e.ctx e.policy page e.record with
      | none => rw [Option.toList_none, List.append_nil, ← ih]
      | some f =>
        rw [Option.toList_some, Flags.together_concat, ← ih]
        exact UiConfig.flags_get?_add_self _ r f
    · rw [givenOn_singleton_of_ne hp, List.append_nil, ← ih]
      cases UiConfig.ruleFlags r e.ctx e.policy page e.record with
      | none => rfl
      | some f => exact congrArg (Option.map UiElement.flags) (UiConfig.get?_add_of_ne hp)

end Evaluation

end StaffAccess

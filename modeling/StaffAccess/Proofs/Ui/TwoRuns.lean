import StaffAccess.Proofs.OrderedMap
import StaffAccess.Proofs.Traversal
import StaffAccess.Ui.Config

/-!
# Two evaluations of the same rules

What elements give under two contexts, or for two records, is compared flag by flag. A relation
between flags that is kept when flags are put together, and that holds between what the two
evaluations make of one condition and of one type, holds between what they make of each rule, of
each element, and of each entry of a page.

* `Flags.IsKept`: the relations in question.
* `Evaluation`: what an evaluation depends on; `Evaluation.Compares`: what has to be compared.
* `Evaluation.Compares.element`, `Evaluation.Compares.config`: what follows for elements and pages.
-/

namespace StaffAccess

/-- Whether a relation between flags holds between the own flags of rules and is kept when flags
    are put together. -/
structure Flags.IsKept (R : Flags → Flags → Prop) : Prop where
  own : ∀ visible enabled, R ⟨visible, enabled, false⟩ ⟨visible, enabled, false⟩
  both : ∀ {a a' b b'}, R a a' → R b b' → R (a.both b) (a'.both b')
  either : ∀ {a a' b b'}, R a a' → R b b' → R (a.either b) (a'.either b')

theorem Flags.IsKept.flip {R : Flags → Flags → Prop} (h : IsKept R) : IsKept (flip R) where
  own := h.own
  both := h.both
  either := h.either

/-- Whether two entries are the same but for related flags. -/
structure UiElement.Rel (R : Flags → Flags → Prop) (a b : UiElement) : Prop where
  name : a.name = b.name
  elementType : a.elementType = b.elementType
  conditions : a.conditions = b.conditions
  flags : R a.flags b.flags

/-- What an evaluation of rules depends on. -/
structure Evaluation where
  /-- The context of the user. -/
  ctx : SecurityContext
  /-- The policy. -/
  policy : Policy
  /-- The record. -/
  record : Value

/-- Whether two evaluations have the same rules and make related flags of every condition and of
    every type. -/
structure Evaluation.Compares (R : Flags → Flags → Prop) (e e' : Evaluation) : Prop where
  rules : e'.ctx.uiRules = e.ctx.uiRules
  admits : ∀ c : UiConditions, R (.shown (c.admits e.ctx)) (.shown (c.admits e'.ctx))
  record : ∀ c : RecordCondition, AnswersWith R (c.flags e.ctx e.record) (c.flags e'.ctx e'.record)
  defaults : ∀ r : UiRule, R (r.defaults e.ctx e.policy) (r.defaults e'.ctx e'.policy)

/-- The entries of a page when one more rule is added. -/
def Evaluation.withRule (e : Evaluation) (page : Value) (config : OrderedMap String UiElement)
    (r : UiRule) : OrderedMap String UiElement :=
  match UiConfig.ruleFlags r e.ctx e.policy page e.record with
  | some flags => UiConfig.add config r flags
  | none => config

theorem Evaluation.ofContext_eq_foldl (e : Evaluation) (page : Value) :
    UiConfig.ofContext e.ctx e.policy page e.record =
      e.ctx.uiRules.foldl (e.withRule page) .empty := rfl

namespace Evaluation.Compares

variable {R : Flags → Flags → Prop} {e e' : Evaluation}

theorem conditions (hR : Flags.IsKept R) (h : Compares R e e') (c : UiConditions) :
    AnswersWith R (c.flags e.ctx e.record) (c.flags e'.ctx e'.record) := by
  unfold UiConditions.flags
  cases c.record with
  | none => exact answersWith_ok (hR.both (h.admits c) (hR.own true true))
  | some condition =>
    exact (h.record condition).bind fun a b hab => answersWith_ok (hR.both (h.admits c) hab)

theorem ruleUnder (hR : Flags.IsKept R) (h : Compares R e e') (r : UiRule)
    (conditions : Option UiConditions) :
    AnswersWith R (r.flagsUnder conditions e.ctx e.policy e.record)
      (r.flagsUnder conditions e'.ctx e'.policy e'.record) := by
  unfold UiRule.flagsUnder
  have hrule : ∀ a b, R a b →
      R (Flags.both ⟨r.visible.truthy, r.enabled.truthy, false⟩ a |>.both
          (r.defaults e.ctx e.policy))
        (Flags.both ⟨r.visible.truthy, r.enabled.truthy, false⟩ b |>.both
          (r.defaults e'.ctx e'.policy)) :=
    fun a b hab => hR.both (hR.both (hR.own _ _) hab) (h.defaults r)
  cases conditions with
  | none => exact answersWith_ok (hrule _ _ (hR.own true true))
  | some c => exact (h.conditions hR c).bind fun a b hab => answersWith_ok (hrule a b hab)

/-- The conditions of a rule are read without the user and the record. -/
theorem rule (hR : Flags.IsKept R) (h : Compares R e e') (r : UiRule) :
    AnswersWith R (r.flags e.ctx e.policy e.record) (r.flags e'.ctx e'.policy e'.record) := by
  unfold UiRule.flags
  cases r.parsedConditions with
  | error fault => exact answersWith_error _
  | ok conditions => exact h.ruleUnder hR r conditions

theorem foldl_either (hR : Flags.IsKept R) {flags flags' : List Flags}
    (h : List.Forall₂ R flags flags') {a a' : Flags} (ha : R a a') :
    R (flags.foldl .either a) (flags'.foldl .either a') := by
  induction h generalizing a a' with
  | nil => exact ha
  | cons hb _ ih => exact ih (hR.either ha hb)

/-- An element answers whenever it did, with related flags. -/
theorem element (hR : Flags.IsKept R) (h : Compares R e e') (element : Value) :
    AnswersWith (fun v v' => R v.flags v'.flags)
      (ElementVisibility.ofContext e.ctx e.policy element e.record)
      (ElementVisibility.ofContext e'.ctx e'.policy element e'.record) := by
  unfold ElementVisibility.ofContext
  -- Which rules concern the element does not depend on the user or the record.
  rw [h.rules]
  cases e.ctx.uiRules.filterM fun r => r.concerns element with
  | error fault => exact answersWith_error _
  | ok rules =>
    cases rules with
    | nil => exact answersWith_ok (hR.own true true)
    | cons r rules =>
      refine AnswersWith.bind (R := List.Forall₂ R) ?_ fun flags flags' hflags =>
        answersWith_ok (foldl_either hR hflags (hR.own false false))
      exact AnswersWith.mapM (List.forall₂_same.2 fun _ _ => rfl) fun r _ hr => hr ▸ h.rule hR r

/-! ## Pages -/

/-- A rule is kept off a page by both evaluations or by none, if each of them answers whenever
    the other one does. -/
theorem ruleFlags (hR : Flags.IsKept R) (hlocked : R .locked .locked) (h : Compares R e e')
    (h' : Compares (flip R) e' e) (r : UiRule) (page : Value) :
    Option.Rel R (UiConfig.ruleFlags r e.ctx e.policy page e.record)
      (UiConfig.ruleFlags r e'.ctx e'.policy page e'.record) := by
  unfold UiConfig.ruleFlags
  cases r.parsedConditions with
  | error fault => exact .some hlocked
  | ok conditions =>
    simp only [ok_bind]
    split_ifs with hpage
    · exact .none
    · -- Either both of them fault, and the rule locks, or neither does.
      have hforth := h.ruleUnder hR r conditions
      have hback := h'.ruleUnder hR.flip r conditions
      cases hx : r.flagsUnder conditions e.ctx e.policy e.record with
      | ok a =>
        obtain ⟨b, hb, hab⟩ := hforth a hx
        rw [hb]
        exact .some hab
      | error fault =>
        cases hy : r.flagsUnder conditions e'.ctx e'.policy e'.record with
        | ok b =>
          obtain ⟨a, ha, -⟩ := hback b hy
          cases hx.symm.trans ha
        | error fault' => exact .some hlocked

theorem add (hR : Flags.IsKept R) {config config' : OrderedMap String UiElement}
    (h : config.Forall₂ (UiElement.Rel R) config') (r : UiRule) {a b : Flags} (hab : R a b) :
    (UiConfig.add config r a).Forall₂ (UiElement.Rel R) (UiConfig.add config' r b) := by
  unfold UiConfig.add
  refine h.put r.pattern ⟨rfl, rfl, rfl, ?_⟩
  -- Both pages have an earlier rule of this pattern, or neither has.
  have hold := h.get?_rel r.pattern
  revert hold
  generalize config.get? r.pattern = old
  generalize config'.get? r.pattern = old'
  rintro (⟨hold⟩ | _)
  · exact hR.either hab hold.flags
  · exact hab

/-- One more rule keeps the entries related. -/
theorem withRule (hR : Flags.IsKept R) (hlocked : R .locked .locked) (h : Compares R e e')
    (h' : Compares (flip R) e' e) (page : Value) (r : UiRule)
    {config config' : OrderedMap String UiElement}
    (hconfig : config.Forall₂ (UiElement.Rel R) config') :
    (e.withRule page config r).Forall₂ (UiElement.Rel R) (e'.withRule page config' r) := by
  unfold Evaluation.withRule
  have hflags := h.ruleFlags hR hlocked h' r page
  revert hflags
  generalize UiConfig.ruleFlags r e.ctx e.policy page e.record = flags
  generalize UiConfig.ruleFlags r e'.ctx e'.policy page e'.record = flags'
  rintro (⟨hab⟩ | _)
  · exact add hR hconfig r hab
  · exact hconfig

/-- The entries of a page are the same but for related flags. -/
theorem config (hR : Flags.IsKept R) (hlocked : R .locked .locked) (h : Compares R e e')
    (h' : Compares (flip R) e' e) (page : Value) :
    (UiConfig.ofContext e.ctx e.policy page e.record).Forall₂ (UiElement.Rel R)
      (UiConfig.ofContext e'.ctx e'.policy page e'.record) := by
  -- The loop over the rules is followed from any two related pages.
  suffices hloop : ∀ (rules : List UiRule) {config config' : OrderedMap String UiElement},
      config.Forall₂ (UiElement.Rel R) config' →
      (rules.foldl (e.withRule page) config).Forall₂ (UiElement.Rel R)
        (rules.foldl (e'.withRule page) config') by
    rw [ofContext_eq_foldl, ofContext_eq_foldl, h.rules]
    exact hloop _ OrderedMap.forall₂_empty
  intro rules
  induction rules with
  | nil => exact id
  | cons r rules ih => exact fun hconfig => ih (h.withRule hR hlocked h' page r hconfig)

end Evaluation.Compares

end StaffAccess

import StaffAccess.Proofs.Traversal
import StaffAccess.Ui.Visibility

/-!
# The rules of an element

An element shows itself as the rules say whose patterns match its name. What they give is put
together flag by flag, so a flag is set if one of them sets it. All of them have to be evaluated:
if one cannot be, the element is locked, whatever the others give.

* `SecurityContext.uiRulesFor`: the rules that match a name.
* `Flags.foldl_either_closed`: the flags of several rules together.
* `UiRule.flags_eq_ok_iff`: what one rule gives.
* `ElementVisibility.exists_rule_of_visible`: an element that is seen has a rule that shows it.
* `ElementVisibility.evaluate_eq_locked`: one rule that faults locks the element.
-/

namespace StaffAccess

/-- The rules whose patterns match a name. -/
def SecurityContext.uiRulesFor (ctx : SecurityContext) (name : String) : List UiRule :=
  ctx.uiRules.filter fun r => Wildcard.accepts r.pattern name

theorem SecurityContext.mem_uiRulesFor {ctx : SecurityContext} {name : String} {r : UiRule} :
    r ∈ ctx.uiRulesFor name ↔ r ∈ ctx.uiRules ∧ Wildcard.accepts r.pattern name = true :=
  List.mem_filter

/-! ## Flags of several rules -/

namespace Flags

theorem foldl_either (flags : List Flags) (a : Flags) : flags.foldl either a =
    a.either ⟨flags.any visible, flags.any enabled, flags.any readonly⟩ := by
  induction flags generalizing a with
  | nil => exact (either_closed a).symm
  | cons b flags ih => rw [List.foldl_cons, ih, either_assoc]; rfl

/-- Several grants have together every flag that one of them has. -/
theorem foldl_either_closed (flags : List Flags) : flags.foldl either closed =
    ⟨flags.any visible, flags.any enabled, flags.any readonly⟩ := by
  rw [foldl_either, closed_either]

end Flags

/-! ## Rules -/

/-- A rule gives its own flags, as far as its conditions and the defaults of its type leave
    them. -/
theorem UiRule.flags_eq_ok_iff {r : UiRule} {ctx : SecurityContext} {policy : Policy}
    {record : Value} {f : Flags} : r.flags ctx policy record = .ok f ↔
      ∃ conditions given, r.parsedConditions = .ok conditions ∧
        (match conditions with
          | some c => c.flags ctx record
          | none => .ok .unrestricted) = .ok given ∧
        f = (Flags.both ⟨r.visible.truthy, r.enabled.truthy, false⟩ given).both
          (r.defaults ctx policy) := by
  rw [UiRule.flags, bind_eq_ok_iff]
  refine exists_congr fun conditions => ?_
  unfold UiRule.flagsUnder
  cases conditions with
  | none => simp [@eq_comm _ f]
  | some c =>
    simp only [bind_eq_ok_iff, pure_eq_ok, Except.ok.injEq, exists_and_left, @eq_comm _ f]

/-! ## Elements -/

namespace ElementVisibility

variable {policy : Policy} {ctx : SecurityContext} {name : String} {record : Value} {r : UiRule}

/-- A name is matched without a fault. -/
theorem filterM_concerns (ctx : SecurityContext) (name : String) :
    ctx.uiRules.filterM (fun r => r.concerns (.text name)) = .ok (ctx.uiRulesFor name) :=
  filterM_eq_ok_filter fun _ _ => rfl

/-- An element with a rule has what its rules give together. -/
theorem ofContext_of_mem (hr : r ∈ ctx.uiRulesFor name) :
    ofContext ctx policy (.text name) record = do
      let flags ← (ctx.uiRulesFor name).mapM fun r => r.flags ctx policy record
      return ⟨.text name, flags.foldl .either .closed, none⟩ := by
  rw [ofContext, filterM_concerns, ok_bind]
  cases hrules : ctx.uiRulesFor name with
  | nil => exact absurd (hrules ▸ hr) List.not_mem_nil
  | cons r' rules => rfl

/-- An element that is seen, and that has a rule, has one that shows it. -/
theorem exists_rule_of_visible (hr : r ∈ ctx.uiRulesFor name)
    (hvisible : (evaluate policy (.ok ctx) (.text name) record).flags.visible = true) :
    ∃ r ∈ ctx.uiRulesFor name, ∃ f, r.flags ctx policy record = .ok f ∧ f.visible = true := by
  rw [evaluate, ok_bind, ofContext_of_mem hr] at hvisible
  cases hflags : (ctx.uiRulesFor name).mapM fun r => r.flags ctx policy record with
  | error fault =>
    rw [hflags] at hvisible
    exact absurd hvisible Bool.false_ne_true
  | ok flags =>
    rw [hflags] at hvisible
    have hany : flags.any (·.visible) = true := by
      simpa [orLocked, Flags.foldl_either_closed] using hvisible
    obtain ⟨f, hf, hshown⟩ := List.any_eq_true.1 hany
    obtain ⟨r, hr, hrule⟩ := (mem_of_mapM_eq_ok hflags).1 hf
    exact ⟨r, hr, f, hrule, hshown⟩

/-- A rule that faults locks every element that it matches. -/
theorem evaluate_eq_locked (hr : r ∈ ctx.uiRulesFor name) {fault : Fault}
    (hfault : r.flags ctx policy record = .error fault) :
    evaluate policy (.ok ctx) (.text name) record = locked (.text name) := by
  have hsome : ∃ r ∈ ctx.uiRulesFor name, ∃ fault, r.flags ctx policy record = .error fault :=
    ⟨r, hr, fault, hfault⟩
  obtain ⟨fault', hflags⟩ := exists_mapM_eq_error_iff.2 hsome
  rw [evaluate, ok_bind, ofContext_of_mem hr, hflags]
  rfl

end ElementVisibility

end StaffAccess

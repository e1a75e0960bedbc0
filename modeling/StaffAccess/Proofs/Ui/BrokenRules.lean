import StaffAccess.Proofs.Ui.Pages

/-!
# Rules whose conditions cannot be read

A rule for elements may have conditions of a wrong shape. Such a rule locks every element that
its pattern matches, whatever other rules match the element as well. On a page it locks only
itself: the entry of its pattern is read-only, but it is shown as soon as another rule of the same
pattern shows it. Elements and pages agree where no other rule has the pattern.

* `Evaluation.exists_entry_of_broken`: the entry of the pattern on a page.
* `brokenRule_locks`: elements and pages together.
* `brokenPanel_isShown`: a broken rule beside one that shows the same pattern.
-/

namespace StaffAccess

variable {r : UiRule} {fault : Fault}

/-- On every page, the pattern of a rule whose conditions cannot be read has an entry. It is
    read-only, and has of the other flags those that another rule of the pattern gives it. -/
theorem Evaluation.exists_entry_of_broken (e : Evaluation) (hr : r ∈ e.ctx.uiRules)
    (hbroken : r.parsedConditions = .error fault) (page : Value) :
    ∃ entry, (UiConfig.ofContext e.ctx e.policy page e.record).get? r.pattern = some entry ∧
      entry.flags.readonly = true ∧
      (entry.flags.visible = true ↔ ∃ r' ∈ e.ctx.uiRules, r'.pattern = r.pattern ∧
        ∃ f, r'.GivesOn e page f ∧ f.visible = true) ∧
      (entry.flags.enabled = true ↔ ∃ r' ∈ e.ctx.uiRules, r'.pattern = r.pattern ∧
        ∃ f, r'.GivesOn e page f ∧ f.enabled = true) := by
  have hlocked : .locked ∈ e.givenOn page e.ctx.uiRules r.pattern :=
    mem_givenOn.2 ⟨r, hr, rfl, UiConfig.ruleFlags_of_error hbroken⟩
  have hflags := e.flags_get?_foldl page e.ctx.uiRules r.pattern
  rw [← e.ofContext_eq_foldl] at hflags
  cases hgiven : e.givenOn page e.ctx.uiRules r.pattern with
  | nil => exact absurd (hgiven ▸ hlocked) List.not_mem_nil
  | cons f flags =>
    rw [hgiven, Flags.together, Flags.foldl_either_closed, ← hgiven] at hflags
    obtain ⟨entry, hentry, hall⟩ := Option.map_eq_some_iff.1 hflags
    refine ⟨entry, hentry, ?_⟩
    rw [hall]
    exact ⟨List.any_eq_true.2 ⟨_, hlocked, rfl⟩, any_givenOn_iff rfl, any_givenOn_iff rfl⟩

/-- A rule whose conditions cannot be read locks every element that its pattern matches. On every
    page the entry of its pattern is read-only, and it is visible or enabled exactly if another
    rule of the same pattern makes it so. -/
theorem brokenRule_locks (policy : Policy) (ctx : SecurityContext) (r : UiRule)
    (hr : r ∈ ctx.uiRules) (fault : Fault) (hbroken : r.parsedConditions = .error fault)
    (page record : Value) :
    (∀ name, Wildcard.accepts r.pattern name = true →
      ElementVisibility.evaluate policy (.ok ctx) (.text name) record =
        .locked (.text name)) ∧
    ∃ entry, (UiConfig.generate policy (.ok ctx) page record).get? r.pattern = some entry ∧
      entry.flags.readonly = true ∧
      (entry.flags.visible = true ↔ ∃ r' ∈ ctx.uiRules, r'.pattern = r.pattern ∧
        ∃ f, r'.GivesOn ⟨ctx, policy, record⟩ page f ∧ f.visible = true) ∧
      (entry.flags.enabled = true ↔ ∃ r' ∈ ctx.uiRules, r'.pattern = r.pattern ∧
        ∃ f, r'.GivesOn ⟨ctx, policy, record⟩ page f ∧ f.enabled = true) := by
  refine ⟨fun name haccepts => ?_,
    Evaluation.exists_entry_of_broken ⟨ctx, policy, record⟩ hr hbroken page⟩
  have hfault : r.flags ctx policy record = .error fault := by
    rw [UiRule.flags, hbroken, error_bind]
  exact ElementVisibility.evaluate_eq_locked (SecurityContext.mem_uiRulesFor.2 ⟨hr, haccepts⟩)
    hfault

/-- A rule for panels that names an unknown scope. -/
def UiRule.moonPanel : UiRule :=
  ⟨"panel", "SECTION", .bool true, .bool true,
    .record [("user_scopes", .list [.text "MOON"])]⟩

/-- A clerk with two rules for a panel and one for all panels, of which one is broken. -/
def SecurityContext.withPanels : SecurityContext where
  userId := "eve"
  scope := .school
  userType := "CLERK"
  tenantId := .text "north"
  permissions := .empty
  rowRules := .empty
  uiRules := [⟨"panel", "SECTION", .bool true, .bool false, .null⟩, .moonPanel,
    ⟨"panel*", "SECTION", .bool true, .bool true, .null⟩]
  hierarchy := none
  lastUpdated := .finite false 0

theorem moonPanel_isBroken : UiRule.moonPanel.parsedConditions = .error (.invalid 1) := rfl

/-- The broken rule locks the panel, which another rule shows, and makes its entry read-only. -/
theorem moonPanel_locks :
    UiRule.moonPanel ∈ SecurityContext.withPanels.uiRules ∧
    UiRule.moonPanel.parsedConditions = .error (.invalid 1) ∧
    ElementVisibility.evaluate {} (.ok .withPanels) (.text "panel") .null =
      .locked (.text "panel") ∧
    ∃ entry, (UiConfig.generate {} (.ok .withPanels) .null .null).get? "panel" = some entry ∧
      entry.flags.readonly = true := by
  have hr : UiRule.moonPanel ∈ SecurityContext.withPanels.uiRules :=
    List.mem_cons_of_mem _ List.mem_cons_self
  obtain ⟨hlocks, entry, hentry, hreadonly, -⟩ :=
    brokenRule_locks {} .withPanels .moonPanel hr _ moonPanel_isBroken .null .null
  exact ⟨hr, moonPanel_isBroken, hlocks "panel" (by decide), entry, hentry, hreadonly⟩

/-- Another rule of the same pattern shows the entry of the panel in spite of the broken one. -/
theorem brokenPanel_isShown :
    UiRule.moonPanel ∈ SecurityContext.withPanels.uiRules ∧
    UiRule.moonPanel.parsedConditions = .error (.invalid 1) ∧
    ∃ entry, (UiConfig.generate {} (.ok .withPanels) .null .null).get?
      UiRule.moonPanel.pattern = some entry ∧ entry.flags.visible = true :=
  ⟨List.mem_cons_of_mem _ List.mem_cons_self, moonPanel_isBroken, _, rfl, rfl⟩

end StaffAccess

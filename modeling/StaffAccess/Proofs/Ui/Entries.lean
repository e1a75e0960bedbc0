import StaffAccess.Proofs.Ui.Conditions
import StaffAccess.Proofs.Ui.Pages
import StaffAccess.Proofs.Ui.Wildcard

/-!
# Entries and their rules

The patterns that have an entry on a page are those of the rules that are not kept off it, in the
order in which these rules come. The entry of a pattern belongs to all rules of the pattern that
are on the page: it has every flag that one of them gives, and the last one of them names its type
and its conditions. Elements are asked about one by one as well, and then the rules of all
patterns that match the name of the element are put together. Where no pattern matches the name
but the name itself, and no page is named, these are the same rules, so the entry tells how the
element shows itself.

* `UiRule.IsOn`: a rule that is not kept off a page.
* `Evaluation.ofContext_eq_collect`: a page is put together of the rules that are on it.
* `UiElement.IsOf`: an entry that belongs to some rules.
* `UiConfig.generate_entries`: which entries a page has, and which rules they belong to.
-/

namespace StaffAccess

/-! ## Rules on a page -/

theorem UiConditions.excludes_eq_false_iff {c : UiConditions} {page : Value} :
    c.excludes page = false ↔ (page.truthy = true → ∀ pages, c.pages = some pages →
      ∃ p ∈ pages, page = .text p) := by
  rw [excludes]
  cases page.truthy with
  | false => simp
  | true => cases c.pages <;> simp [Value.same_text_right_iff]

/-- Whether a rule is not kept off a page: its conditions list the page, or no pages at all.
    Without a page, no rule is kept off. -/
def UiRule.IsOn (r : UiRule) (page : Value) : Prop :=
  page.truthy = true → ∀ c pages, r.parsedConditions = .ok (some c) → c.pages = some pages →
    ∃ p ∈ pages, page = .text p

namespace UiConfig

variable {r : UiRule} {e : Evaluation} {page : Value}

theorem isOn_iff_of_eq_ok {conditions : Option UiConditions}
    (hread : r.parsedConditions = .ok conditions) :
    r.IsOn page ↔ conditions.any (·.excludes page) = false := by
  rw [UiRule.IsOn, hread]
  cases conditions with
  | none => simp
  | some c =>
    simp only [Option.any_some, UiConditions.excludes_eq_false_iff, Except.ok.injEq,
      Option.some.injEq]
    exact ⟨fun h htruthy pages hpages => h htruthy c pages rfl hpages,
      fun h htruthy _ pages hc hpages => h htruthy pages (hc ▸ hpages)⟩

/-- A rule gives something on the pages that it is on, be it that it is locked. -/
theorem isSome_ruleFlags_iff (e : Evaluation) (r : UiRule) (page : Value) :
    (ruleFlags r e.ctx e.policy page e.record).isSome = true ↔ r.IsOn page := by
  cases hread : r.parsedConditions with
  | error fault =>
    rw [ruleFlags_of_error hread]
    simp [UiRule.IsOn, hread]
  | ok conditions =>
    rw [isOn_iff_of_eq_ok hread, ruleFlags, hread, ok_bind]
    cases conditions.any (·.excludes page) with
    | true => simp
    | false => cases r.flagsUnder conditions e.ctx e.policy e.record <;> simp

/-- On its pages, a rule gives what it does on its own. -/
theorem ruleFlags_of_isOn (hpage : r.IsOn page) {f : Flags}
    (hflags : r.flags e.ctx e.policy e.record = .ok f) :
    ruleFlags r e.ctx e.policy page e.record = some f := by
  obtain ⟨conditions, hread, hflags⟩ := bind_eq_ok_iff.1 hflags
  rw [isOn_iff_of_eq_ok hread] at hpage
  simp [ruleFlags, hread, hpage, hflags]

end UiConfig

instance (r : UiRule) (page : Value) : Decidable (r.IsOn page) :=
  match h : r.parsedConditions with
  | .ok _ => decidable_of_iff _ (UiConfig.isOn_iff_of_eq_ok h).symm
  | .error _ => .isTrue fun _ _ _ hread => by cases h.symm.trans hread

/-! ## Entries -/

/-- The rules of a pattern that are not kept off a page. -/
def SecurityContext.uiRulesOn (ctx : SecurityContext) (page : Value) (pattern : String) :
    List UiRule :=
  (ctx.uiRules.filter (·.IsOn page)).filter (·.pattern = pattern)

/-- Without a page, the rules of a pattern that no other pattern matches are all rules that match
    it as a name. -/
theorem SecurityContext.uiRulesFor_eq_uiRulesOn {ctx : SecurityContext} {page : Value}
    {pattern : String} (hpage : page.truthy = false)
    (halone : ∀ r ∈ ctx.uiRules, Wildcard.accepts r.pattern pattern = true → r.pattern = pattern) :
    ctx.uiRulesFor pattern = ctx.uiRulesOn page pattern := by
  have hall : ctx.uiRules.filter (·.IsOn page) = ctx.uiRules :=
    List.filter_eq_self.2 fun _ _ => decide_eq_true fun htruthy => by cases hpage.symm.trans htruthy
  rw [uiRulesOn, hall, uiRulesFor]
  refine List.filter_congr fun r hr => Bool.eq_iff_iff.2 ?_
  rw [decide_eq_true_iff]
  exact ⟨halone r hr, fun h => h ▸ Wildcard.accepts_self _⟩

/-- Whether an entry is that of some rules: it has every flag that one of them gives, and the last
    one of them names its type and its conditions. -/
structure UiElement.IsOf (entry : UiElement) (e : Evaluation) (rules : List UiRule) : Prop where
  flags : ∃ given, rules.mapM (fun r => r.flags e.ctx e.policy e.record) = .ok given ∧
    entry.flags = ⟨given.any (·.visible), given.any (·.enabled), given.any (·.readonly)⟩
  last : ∃ r, rules.getLast? = some r ∧ entry.name = r.pattern ∧
    entry.elementType = r.elementType ∧ entry.conditions = r.conditions

/-- The entry of a rule's pattern once the rule is added. -/
def UiConfig.joined (config : OrderedMap String UiElement) (r : UiRule) (flags : Flags) :
    UiElement :=
  ⟨r.pattern, r.elementType, ((config.get? r.pattern).map UiElement.flags).elim flags flags.either,
    r.conditions⟩

theorem UiConfig.add_eq_put (config : OrderedMap String UiElement) (r : UiRule) (flags : Flags) :
    add config r flags = config.put r.pattern (joined config r flags) := by
  unfold add joined
  cases config.get? r.pattern <;> rfl

namespace Evaluation

variable {e : Evaluation} {page : Value} {pattern : String}

/-- The rules that give something on a page, with what they give. -/
def placed (e : Evaluation) (page : Value) : List (UiRule × Flags) :=
  e.ctx.uiRules.filterMap fun r =>
    (UiConfig.ruleFlags r e.ctx e.policy page e.record).map fun f => (r, f)

/-- The rules that give something on a page are those that are not kept off it. -/
theorem map_fst_placed (e : Evaluation) (page : Value) :
    (e.placed page).map Prod.fst = e.ctx.uiRules.filter (·.IsOn page) := by
  rw [placed, List.map_filterMap, ← List.filterMap_eq_filter]
  refine List.filterMap_congr fun r _ => ?_
  simp only [← UiConfig.isSome_ruleFlags_iff e, Option.guard]
  cases UiConfig.ruleFlags r e.ctx e.policy page e.record <;> simp

/-- A page is put together of the rules that are not kept off it. -/
theorem ofContext_eq_collect (e : Evaluation) (page : Value) :
    UiConfig.ofContext e.ctx e.policy page e.record =
      .collect (·.1.pattern) (fun config p => UiConfig.joined config p.1 p.2) (e.placed page) := by
  rw [OrderedMap.collect, placed, List.foldl_filterMap, ofContext_eq_foldl]
  congr
  funext config r
  rw [withRule]
  cases UiConfig.ruleFlags r e.ctx e.policy page e.record with
  | none => rfl
  | some f => exact UiConfig.add_eq_put config r f

/-- The patterns with an entry are those of the rules that are not kept off the page. -/
theorem keys_ofContext (e : Evaluation) (page : Value) :
    (UiConfig.ofContext e.ctx e.policy page e.record).keys =
      ((e.ctx.uiRules.filter (·.IsOn page)).map (·.pattern)).eraseDups := by
  rw [ofContext_eq_collect, OrderedMap.keys_collect, ← map_fst_placed, List.map_map]
  rfl

/-- An entry is named for its pattern, and by the last rule of this pattern. -/
theorem last_of_get? {entry : UiElement}
    (h : (UiConfig.ofContext e.ctx e.policy page e.record).get? pattern = some entry) :
    ∃ r, (e.ctx.uiRulesOn page pattern).getLast? = some r ∧ entry.name = r.pattern ∧
      entry.elementType = r.elementType ∧ entry.conditions = r.conditions := by
  have hrules : ((e.placed page).filter (·.1.pattern == pattern)).map Prod.fst =
      e.ctx.uiRulesOn page pattern := by
    rw [SecurityContext.uiRulesOn, ← map_fst_placed, List.filter_map]
    rfl
  obtain ⟨p, hp⟩ : ∃ p, ((e.placed page).filter (·.1.pattern == pattern)).getLast? = some p := by
    have hkey : pattern ∈ (UiConfig.ofContext e.ctx e.policy page e.record).keys :=
      OrderedMap.mem_keys_iff.2 ⟨entry, h⟩
    rw [ofContext_eq_collect, OrderedMap.keys_collect, List.mem_eraseDups, List.mem_map] at hkey
    obtain ⟨p, hp, rfl⟩ := hkey
    have hmem : p ∈ (e.placed page).filter (·.1.pattern == p.1.pattern) :=
      List.mem_filter.2 ⟨hp, beq_self_eq_true _⟩
    exact ⟨_, List.getLast?_eq_some_getLast (List.ne_nil_of_mem hmem)⟩
  obtain ⟨config, hentry⟩ := OrderedMap.exists_get?_collect _
    (fun config p => UiConfig.joined config p.1 p.2) hp
  rw [← ofContext_eq_collect, h, Option.some.injEq] at hentry
  rw [← hrules, List.getLast?_map, hp, hentry]
  exact ⟨p.1, rfl, rfl, rfl, rfl⟩

/-- The rules of a pattern give together what the entry has. -/
theorem flags_of_get? (hgives : ∀ r ∈ e.ctx.uiRules, ∃ f, r.flags e.ctx e.policy e.record = .ok f)
    {entry : UiElement}
    (h : (UiConfig.ofContext e.ctx e.policy page e.record).get? pattern = some entry) :
    ∃ given, (e.ctx.uiRulesOn page pattern).mapM (fun r => r.flags e.ctx e.policy e.record) =
        .ok given ∧
      entry.flags = ⟨given.any (·.visible), given.any (·.enabled), given.any (·.readonly)⟩ := by
  have hflags := e.flags_get?_foldl page e.ctx.uiRules pattern
  rw [← ofContext_eq_foldl, h] at hflags
  refine ⟨_, ?_, Flags.eq_of_together hflags.symm⟩
  rw [SecurityContext.uiRulesOn, List.filter_comm]
  refine mapM_filter_eq_ok (fun r _ hoff => ?_) fun r hr hon => ?_
  · have hnone := (UiConfig.isSome_ruleFlags_iff e r page).not.2 (of_decide_eq_false hoff)
    simpa using hnone
  · obtain ⟨f, hf⟩ := hgives r (List.mem_filter.1 hr).1
    exact ⟨f, hf, UiConfig.ruleFlags_of_isOn (of_decide_eq_true hon) hf⟩

/-- An element shows itself as an entry of the same rules says. -/
theorem evaluate_eq_of_isOf {r : UiRule} (hr : r ∈ e.ctx.uiRulesFor pattern) {entry : UiElement}
    (h : entry.IsOf e (e.ctx.uiRulesFor pattern)) :
    ElementVisibility.evaluate e.policy (.ok e.ctx) (.text pattern) e.record =
      ⟨.text pattern, entry.flags, none⟩ := by
  obtain ⟨given, hgiven, hflags⟩ := h.flags
  rw [ElementVisibility.evaluate, ok_bind, ElementVisibility.ofContext_of_mem hr, hgiven, hflags,
    ← Flags.foldl_either_closed]
  rfl

end Evaluation

/-- The entries of a page, if the conditions of all rules can be read: one for every pattern with a
    rule that is not kept off the page, in the order in which these rules come. The entry belongs
    to all such rules of its pattern, and less its details it is in the short list as well.
    Without a page, an element whose name is a pattern, and that no other pattern matches, shows
    itself as the entry says. -/
theorem UiConfig.generate_entries (e : Evaluation) (page : Value)
    (hrecord : e.record = .null ∨ ∃ f, e.record = .record f)
    (hread : ∀ r ∈ e.ctx.uiRules, ∃ c, r.parsedConditions = .ok c) :
    (generate e.policy (.ok e.ctx) page e.record).keys =
      ((e.ctx.uiRules.filter (·.IsOn page)).map (·.pattern)).eraseDups ∧
    (∀ pattern entry, (generate e.policy (.ok e.ctx) page e.record).get? pattern = some entry →
      entry.IsOf e (e.ctx.uiRulesOn page pattern)) ∧
    (elementRules e.policy (.ok e.ctx) page e.record).entries =
      (generate e.policy (.ok e.ctx) page e.record).entries.map
        (fun entry => (entry.1, ⟨entry.2.flags.visible, entry.2.flags.enabled⟩)) ∧
    (page.truthy = false → ∀ r ∈ e.ctx.uiRules,
      (∀ r' ∈ e.ctx.uiRules, Wildcard.accepts r'.pattern r.pattern = true →
        r'.pattern = r.pattern) →
      ∃ entry, (generate e.policy (.ok e.ctx) page e.record).get? r.pattern = some entry ∧
        ElementVisibility.evaluate e.policy (.ok e.ctx) (.text r.pattern) e.record =
          ⟨.text r.pattern, entry.flags, none⟩) := by
  have hgives : ∀ r ∈ e.ctx.uiRules, ∃ f, r.flags e.ctx e.policy e.record = .ok f := by
    intro r hr
    obtain ⟨c, hc⟩ := hread r hr
    exact (UiRule.exists_flags e.ctx e.policy hrecord hc).imp fun _ => And.left
  have hentry : ∀ pattern entry,
      (generate e.policy (.ok e.ctx) page e.record).get? pattern = some entry →
      entry.IsOf e (e.ctx.uiRulesOn page pattern) :=
    fun _ _ h => ⟨Evaluation.flags_of_get? hgives h, Evaluation.last_of_get? h⟩
  refine ⟨e.keys_ofContext page, hentry, rfl, fun hpage r hr halone => ?_⟩
  have hrules := SecurityContext.uiRulesFor_eq_uiRulesOn hpage halone
  have hself : r ∈ e.ctx.uiRulesFor r.pattern :=
    SecurityContext.mem_uiRulesFor.2 ⟨hr, Wildcard.accepts_self _⟩
  obtain ⟨entry, h⟩ : ∃ entry,
      (generate e.policy (.ok e.ctx) page e.record).get? r.pattern = some entry := by
    refine OrderedMap.mem_keys_iff.1 ?_
    rw [generate, e.keys_ofContext, List.mem_eraseDups]
    rw [hrules] at hself
    exact List.mem_map.2 ⟨r, (List.mem_filter.1 hself).1, rfl⟩
  exact ⟨entry, h, Evaluation.evaluate_eq_of_isOf hself (hrules ▸ hentry _ _ h)⟩

/-- Conditions that list one page. -/
def Value.onPage (page : String) : Value := .record [("pages", .list [.text page])]

/-- A user with two rules for the statistics of the dashboard, one for the audit that only
    administrators have a page for, and one for the help on every page. -/
def Evaluation.dashboard : Evaluation where
  ctx :=
    { userId := "eve"
      scope := .school
      userType := "CLERK"
      tenantId := .text "north"
      permissions := .empty
      rowRules := .empty
      uiRules :=
        [⟨"stats", "SECTION", .bool true, .bool false, .onPage "dashboard"⟩,
          ⟨"help", "SECTION", .bool true, .bool true, .null⟩,
          ⟨"audit", "SECTION", .bool true, .bool true, .onPage "admin"⟩,
          ⟨"stats", "SECTION", .bool false, .bool true, .onPage "dashboard"⟩]
      hierarchy := none
      lastUpdated := .finite false 0 }
  policy := {}
  record := .null

theorem Evaluation.parsedConditions_dashboard :
    ∀ r ∈ dashboard.ctx.uiRules, ∃ c, r.parsedConditions = .ok c := by
  simp only [dashboard, List.forall_mem_cons]
  exact ⟨⟨_, rfl⟩, ⟨_, rfl⟩, ⟨_, rfl⟩, ⟨_, rfl⟩, nofun⟩

/-- The statistics and the help are on the dashboard. Without a page, the element that shows the
    statistics is as their entry says. -/
theorem UiConfig.dashboard_entries :
    (∀ r ∈ Evaluation.dashboard.ctx.uiRules, ∃ c, r.parsedConditions = .ok c) ∧
    (generate {} (.ok Evaluation.dashboard.ctx) (.text "dashboard") .null).keys =
      ["stats", "help"] ∧
    (∃ entry, (generate {} (.ok Evaluation.dashboard.ctx) (.text "dashboard") .null).get? "stats" =
      some entry ∧ entry.flags = ⟨true, true, false⟩) ∧
    ∃ entry, (generate {} (.ok Evaluation.dashboard.ctx) .null .null).get? "stats" = some entry ∧
      ElementVisibility.evaluate {} (.ok Evaluation.dashboard.ctx) (.text "stats") .null =
        ⟨.text "stats", entry.flags, none⟩ := by
  have hread := Evaluation.parsedConditions_dashboard
  obtain ⟨hkeys, hentries, -, -⟩ :=
    generate_entries .dashboard (.text "dashboard") (.inl rfl) hread
  obtain ⟨-, -, -, helement⟩ := generate_entries .dashboard .null (.inl rfl) hread
  have hlisted : (generate {} (.ok Evaluation.dashboard.ctx) (.text "dashboard") .null).keys =
    ["stats", "help"] := hkeys.trans (by decide)
  obtain ⟨entry, hentry⟩ := OrderedMap.mem_keys_iff.1 (hlisted ▸ List.mem_cons_self)
  refine ⟨hread, hlisted, ⟨entry, hentry, ?_⟩,
    helement rfl ⟨"stats", "SECTION", .bool true, .bool false, .onPage "dashboard"⟩
      List.mem_cons_self (by decide)⟩
  obtain ⟨given, hgiven, hflags⟩ := (hentries _ _ hentry).flags
  obtain rfl : [⟨true, false, false⟩, ⟨false, true, false⟩] = given := Except.ok.inj hgiven
  exact hflags

end StaffAccess

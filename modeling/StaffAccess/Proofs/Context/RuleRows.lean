import StaffAccess.Context.Compile
import StaffAccess.Proofs.Traversal

/-!
# Usable rule rows

The rows behind a context are stored by others, so any of them may be unusable: a rule of an
unknown kind, a condition that is no record, a priority that is no number. One such row is
enough for there to be no context.

* `VisibilityRow.IsUsable`, `UiRow.IsUsable`: the rows that can be used.
* `get?_groupRules`: grouping gives every object its own rules, in order.
* `exists_ofRuleRows_iff`, `exists_ofUiRows_iff`: rows can be taken together exactly if each of
  them can be used.
-/

namespace StaffAccess

theorem RuleKind.ofWord?_eq_some_iff {word : String} {kind : RuleKind} :
    RuleKind.ofWord? word = some kind ↔ word = kind.word := by
  constructor
  · intro h
    simpa [eq_comm] using List.find?_some h
  · rintro rfl
    exact RuleKind.ofWord?_word kind

/-- A rule for rows that can be used. -/
structure VisibilityRow.IsUsable (row : VisibilityRow) : Prop where
  /-- Its kind is known. -/
  kind : ∃ kind : RuleKind, row.kind = .text kind.word
  /-- Its condition is a record. -/
  condition : ∃ f, row.condition = .record f
  /-- Its priority is a number. -/
  priority : row.priority.quantity?.isSome = true

/-- A rule for elements that can be used: it has no conditions, or conditions that count as a
    record. -/
def UiRow.IsUsable (row : UiRow) : Prop :=
  row.rule.conditions = .null ∨ ∃ f, row.rule.conditions.toFields = .ok f

namespace SecurityContext

/-! ## Single rows -/

theorem ruleOfRow_eq_ok_iff {row : VisibilityRow} {rule : VisibilityRule} :
    ruleOfRow row = .ok rule ↔ row.kind = .text rule.kind.word ∧
      (∃ f, row.condition = .record f) ∧ rule.condition = row.condition ∧
      rule.priority = row.priority := by
  obtain ⟨kind, condition, priority⟩ := rule
  rw [ruleOfRow]
  cases hkind : row.kind with
  | text word =>
    rw [Value.text.injEq, ← RuleKind.ofWord?_eq_some_iff]
    dsimp only
    cases RuleKind.ofWord? word with
    | none => simp
    | some known => cases row.condition <;> simp [eq_comm]
  | _ => simp

theorem exists_prioritySize_iff {r : VisibilityRule} :
    (∃ q, prioritySize r = .ok q) ↔ r.priority.quantity?.isSome = true := by
  rw [prioritySize]
  cases r.priority.quantity? <;> simp

theorem exists_byPriority_iff {rules : List VisibilityRule} :
    (∃ sorted, byPriority rules = .ok sorted) ↔
      ∀ r ∈ rules, r.priority.quantity?.isSome = true := by
  have hsized : (∃ sorted, byPriority rules = .ok sorted) ↔
      ∃ sized, rules.mapM (fun r => do return (← prioritySize r, r)) = .ok sized := by
    simp [byPriority, bind_eq_ok_iff]
  rw [hsized, exists_mapM_eq_ok_iff]
  simp [← exists_prioritySize_iff, bind_eq_ok_iff]

/-! ## Grouping -/

/-- The rules of one object among rules with their objects. -/
def rulesFor (object : String) (rules : List (String × VisibilityRule)) : List VisibilityRule :=
  (rules.filter fun e => e.1 = object).map Prod.snd

/-- The rules by object, in the order in which they come. -/
def groupRules (rules : List (String × VisibilityRule)) :
    OrderedMap String (List VisibilityRule) :=
  rules.foldl (fun grouped e => addRule grouped e.1 e.2) .empty

theorem rulesFor_cons (object : String) (e : String × VisibilityRule)
    (rules : List (String × VisibilityRule)) : rulesFor object (e :: rules) =
      if e.1 = object then e.2 :: rulesFor object rules else rulesFor object rules := by
  unfold rulesFor
  split <;> simp [*]

theorem mem_rulesFor {object : String} {rules : List (String × VisibilityRule)}
    {r : VisibilityRule} : r ∈ rulesFor object rules ↔ (object, r) ∈ rules := by
  simp [rulesFor]

/-- Every object with rules gets its own, in order; an object without rules gets no entry. -/
theorem get?_groupRules (rules : List (String × VisibilityRule)) (object : String) :
    (groupRules rules).get? object =
      if rulesFor object rules = [] then none else some (rulesFor object rules) := by
  suffices h : ∀ grouped : OrderedMap String (List VisibilityRule),
      (rules.foldl (fun grouped e => addRule grouped e.1 e.2) grouped).get? object =
        if rulesFor object rules = [] then grouped.get? object
        else some ((grouped.get? object).getD [] ++ rulesFor object rules) by
    simpa [groupRules] using h .empty
  induction rules with
  | nil => simp [rulesFor]
  | cons e rules ih =>
    intro grouped
    rw [List.foldl_cons, ih, rulesFor_cons]
    by_cases he : e.1 = object
    · subst he
      by_cases hrest : rulesFor e.1 rules = [] <;> simp [addRule, hrest]
    · simp [addRule, he, OrderedMap.get?_put_of_ne _ _ (Ne.symm he)]

theorem mem_entries_groupRules {rules : List (String × VisibilityRule)} {object : String}
    {own : List VisibilityRule} : (object, own) ∈ (groupRules rules).entries ↔
      own = rulesFor object rules ∧ own ≠ [] := by
  rw [OrderedMap.mem_entries_iff, get?_groupRules]
  split
  · next h =>
    rw [h]
    simp
  · next h =>
    rw [Option.some.injEq]
    exact ⟨fun heq => ⟨heq.symm, heq ▸ h⟩, fun heq => heq.1.symm⟩

/-- No rule is lost in grouping, and none is added. -/
theorem forall_mem_groupRules {rules : List (String × VisibilityRule)}
    {P : VisibilityRule → Prop} :
    (∀ e ∈ (groupRules rules).entries, ∀ r ∈ e.2, P r) ↔ ∀ e ∈ rules, P e.2 := by
  constructor
  · rintro h ⟨object, r⟩ hr
    have hmem : r ∈ rulesFor object rules := mem_rulesFor.2 hr
    exact h _ (mem_entries_groupRules.2 ⟨rfl, List.ne_nil_of_mem hmem⟩) r hmem
  · rintro h ⟨object, own⟩ he r hr
    obtain ⟨rfl, -⟩ := mem_entries_groupRules.1 he
    exact h _ (mem_rulesFor.1 hr)

/-! ## All rows -/

/-- The rule of a row with its object. -/
def objectRule (row : VisibilityRow) : Except Fault (String × VisibilityRule) := do
  return (row.object, ← ruleOfRow row)

/-- The rules of an object by descending priority. -/
def sortedEntry (e : String × List VisibilityRule) :
    Except Fault (String × List VisibilityRule) := do
  return (e.1, ← byPriority e.2)

/-- Taking rows together reads them all, groups the rules, and only then sorts them. -/
theorem ofRuleRows_eq_ok_iff {rows : List VisibilityRow}
    {m : OrderedMap String (List VisibilityRule)} : ofRuleRows rows = .ok m ↔
      ∃ rules, rows.mapM objectRule = .ok rules ∧ ∃ sorted,
        (groupRules rules).entries.mapM sortedEntry = .ok sorted ∧ .ofEntries sorted = m := by
  rw [ofRuleRows]
  simp only [bind_eq_ok_iff, pure_eq_ok, Except.ok.injEq]
  rfl

theorem objectRule_eq_ok_iff {row : VisibilityRow} {e : String × VisibilityRule} :
    objectRule row = .ok e ↔ ruleOfRow row = .ok e.2 ∧ row.object = e.1 := by
  obtain ⟨object, rule⟩ := e
  simp [objectRule, bind_eq_ok_iff, and_comm]

theorem exists_objectRule_iff {row : VisibilityRow} : (∃ e, objectRule row = .ok e) ↔
    (∃ kind : RuleKind, row.kind = .text kind.word) ∧ ∃ f, row.condition = .record f := by
  simp only [objectRule_eq_ok_iff, ruleOfRow_eq_ok_iff]
  constructor
  · rintro ⟨e, ⟨hkind, hf, -⟩, -⟩
    exact ⟨⟨_, hkind⟩, hf⟩
  · rintro ⟨⟨kind, hkind⟩, hf⟩
    exact ⟨(row.object, ⟨kind, row.condition, row.priority⟩), ⟨hkind, hf, rfl, rfl⟩, rfl⟩

theorem exists_sortedEntries_iff {rules : List (String × VisibilityRule)} :
    (∃ sorted, (groupRules rules).entries.mapM sortedEntry = .ok sorted) ↔
      ∀ e ∈ rules, e.2.priority.quantity?.isSome = true := by
  rw [← forall_mem_groupRules (P := fun r => r.priority.quantity?.isSome = true),
    exists_mapM_eq_ok_iff]
  simp [sortedEntry, ← exists_byPriority_iff, bind_eq_ok_iff]

/-- Rules for rows can be taken together exactly if each of them can be used. -/
theorem exists_ofRuleRows_iff {rows : List VisibilityRow} :
    (∃ rules, ofRuleRows rows = .ok rules) ↔ ∀ row ∈ rows, row.IsUsable := by
  have hsorted : (∃ m, ofRuleRows rows = .ok m) ↔ ∃ rules, rows.mapM objectRule = .ok rules ∧
      ∀ e ∈ rules, e.2.priority.quantity?.isSome = true := by
    simp only [← exists_sortedEntries_iff, ofRuleRows_eq_ok_iff]
    exact ⟨fun ⟨_, rules, hrules, sorted, hsorted, _⟩ => ⟨rules, hrules, sorted, hsorted⟩,
      fun ⟨rules, hrules, sorted, hsorted⟩ => ⟨_, rules, hrules, sorted, hsorted, rfl⟩⟩
  rw [hsorted]
  constructor
  · rintro ⟨rules, hrules, hpriority⟩ row hrow
    obtain ⟨e, he⟩ := exists_mapM_eq_ok_iff.1 ⟨rules, hrules⟩ row hrow
    have hmem : e ∈ rules := (mem_of_mapM_eq_ok hrules).2 ⟨row, hrow, he⟩
    obtain ⟨hkind, hcondition⟩ := exists_objectRule_iff.1 ⟨e, he⟩
    obtain ⟨-, -, -, hsame⟩ := ruleOfRow_eq_ok_iff.1 (objectRule_eq_ok_iff.1 he).1
    exact ⟨hkind, hcondition, hsame ▸ hpriority e hmem⟩
  · intro husable
    obtain ⟨rules, hrules⟩ := exists_mapM_eq_ok_iff.2 fun row hrow =>
      exists_objectRule_iff.2 ⟨(husable row hrow).kind, (husable row hrow).condition⟩
    refine ⟨rules, hrules, fun e he => ?_⟩
    obtain ⟨row, hrow, hrule⟩ := (mem_of_mapM_eq_ok hrules).1 he
    obtain ⟨-, -, -, hsame⟩ := ruleOfRow_eq_ok_iff.1 (objectRule_eq_ok_iff.1 hrule).1
    exact hsame ▸ (husable row hrow).priority

/-- Rules for elements can be taken together exactly if each of them can be used. -/
theorem exists_ofUiRows_iff {rows : List UiRow} :
    (∃ rules, ofUiRows rows = .ok rules) ↔ ∀ row ∈ rows, row.IsUsable := by
  rw [ofUiRows]
  rw [exists_mapM_eq_ok_iff]
  refine forall₂_congr fun row _ => ?_
  rw [UiRow.IsUsable]
  split
  · next h => simp [h]
  · next h => simp [show row.rule.conditions ≠ .null from h, bind_eq_ok_iff]

end SecurityContext

end StaffAccess

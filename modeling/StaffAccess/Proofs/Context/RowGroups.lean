import StaffAccess.Proofs.Context.AllOrNothing
import StaffAccess.Proofs.Double.Shortest
import StaffAccess.Proofs.OrderedMap

/-!
# Rules by object and priority

The rules for rows come in one list and are told apart by object. Every object that a row names
gets an entry, in the order in which the objects are first named. The entry has the rules of all
rows of the object: those of a higher priority before those of a lower one, and those of one
priority in the order of the rows. A single row that is malformed is enough for there to be no
entries at all; of several such rows the first one is reported.

* `VisibilityRule.rank`: the priority of a rule.
* `VisibilityRule.AreRanked`: some rules by descending priority.
* `SecurityContext.areRanked_of_byPriority`: how the rules of one object are put in order.
* `SecurityContext.ofRuleRows_eq_error_iff`: the row that is reported.
* `SecurityContext.ofRuleRows_grouped`: what is made of all rows.
-/

namespace StaffAccess

/-- The priority of a rule, zero if it is no whole number. -/
def VisibilityRule.rank (r : VisibilityRule) : Int :=
  match r.priority with
  | .int n => n
  | _ => 0

theorem VisibilityRule.rank_eq {r : VisibilityRule} {n : Int} (h : r.priority = .int n) :
    r.rank = n := by
  rw [rank, h]

/-- Whether some rules are others by descending priority, with those of one priority in order. -/
structure VisibilityRule.AreRanked (sorted rules : List VisibilityRule) : Prop where
  perm : sorted.Perm rules
  descending : sorted.Pairwise fun a b => b.rank ≤ a.rank
  stable : ∀ n, sorted.filter (·.rank = n) = rules.filter (·.rank = n)

/-- Whether a rule says what a row does. -/
structure VisibilityRule.IsOf (rule : VisibilityRule) (row : VisibilityRow) : Prop where
  kind : row.kind = .text rule.kind.word
  condition : rule.condition = row.condition
  priority : rule.priority = row.priority

/-! ## One object -/

/-- Whole numbers are compared as they are. -/
theorem Double.quantityOfInt_le (m n : Int) :
    (quantityOfInt m).le (quantityOfInt n) = decide (m ≤ n) := by
  have hone : (0 : Int) < one := by exact_mod_cast one_pos
  simp only [quantityOfInt, Quantity.le, Quantity.lt, Int.mul_lt_mul_right hone]
  by_cases h : m ≤ n <;> simp [h]
  omega

namespace SecurityContext

variable {rows : List VisibilityRow} {rules sorted : List VisibilityRule}

theorem areRanked_mergeSort (rules : List VisibilityRule) :
    VisibilityRule.AreRanked (rules.mergeSort fun a b => decide (b.rank ≤ a.rank)) rules := by
  have htrans : ∀ a b c : VisibilityRule, decide (b.rank ≤ a.rank) = true →
      decide (c.rank ≤ b.rank) = true → decide (c.rank ≤ a.rank) = true := by
    simp only [decide_eq_true_eq]
    exact fun a b c hab hbc => hbc.trans hab
  have htotal : ∀ a b : VisibilityRule,
      (decide (b.rank ≤ a.rank) || decide (a.rank ≤ b.rank)) = true := by
    simp only [Bool.or_eq_true, decide_eq_true_eq]
    exact fun a b => le_total _ _
  have hperm := List.mergeSort_perm rules fun a b => decide (b.rank ≤ a.rank)
  refine ⟨hperm, ?_, fun n => ?_⟩
  · exact (List.pairwise_mergeSort htrans htotal rules).imp fun h => of_decide_eq_true h
  · -- The rules of one priority are sorted already, so sorting leaves them in their order.
    have hequal : (rules.filter (·.rank = n)).Pairwise
        fun a b => decide (b.rank ≤ a.rank) = true := by
      refine List.pairwise_of_forall_mem_list fun a ha b hb => ?_
      simp only [List.mem_filter, decide_eq_true_eq] at ha hb ⊢
      rw [ha.2, hb.2]
    have hsub := (List.sublist_mergeSort htrans htotal hequal List.filter_sublist).filter
      (·.rank = n)
    rw [List.filter_filter] at hsub
    simp only [Bool.and_self] at hsub
    exact (hsub.eq_of_length (hperm.filter _).length_eq.symm).symm

/-- Rules with whole numbers as priorities can be sorted, and are ranked then. -/
theorem areRanked_of_byPriority (h : ∀ r ∈ rules, ∃ n, r.priority = .int n)
    (hsorted : byPriority rules = .ok sorted) : VisibilityRule.AreRanked sorted rules := by
  have hsized : rules.mapM (fun r => do return (← prioritySize r, r)) =
      .ok (rules.map fun r => (Double.quantityOfInt r.rank, r)) := by
    rw [mapM_eq_ok_iff, List.forall₂_map_right_iff, List.forall₂_same]
    intro r hr
    obtain ⟨n, hn⟩ := h r hr
    rw [prioritySize, hn, VisibilityRule.rank_eq hn]
    rfl
  rw [byPriority, hsized, ok_bind, pure_eq_ok, Except.ok.injEq] at hsorted
  have hsame := List.map_mergeSort (r := fun a b : Quantity × VisibilityRule => b.1.le a.1)
    (s := fun a b => decide (b.rank ≤ a.rank)) (f := Prod.snd)
    (l := rules.map fun r => (Double.quantityOfInt r.rank, r)) (by
      simp only [List.mem_map]
      rintro _ ⟨a, -, rfl⟩ _ ⟨b, -, rfl⟩
      exact Double.quantityOfInt_le _ _)
  rw [hsame, List.map_map] at hsorted
  have hrules : rules.map (Prod.snd ∘ fun r => (Double.quantityOfInt r.rank, r)) = rules :=
    List.map_id rules
  rw [hrules] at hsorted
  exact hsorted ▸ areRanked_mergeSort rules

/-! ## All rows -/

theorem ruleOfRow_of_isMalformed {row : VisibilityRow} {cause : RuleFault}
    (h : row.IsMalformed cause) : ruleOfRow row = .error (.malformedRule cause) := by
  cases hrule : ruleOfRow row with
  | ok rule =>
    obtain ⟨hkind, hcondition, -⟩ := ruleOfRow_eq_ok_iff.1 hrule
    cases h with
    | kind hunknown => exact absurd hkind (hunknown rule.kind)
    | condition _ _ hno => exact hcondition.elim fun f hf => absurd hf (hno f)
  | error fault =>
    obtain ⟨cause', hcause', rfl⟩ := isMalformed_of_ruleOfRow hrule
    cases h with
    | kind hunknown =>
      cases hcause' with
      | kind => rfl
      | condition kind hkind => exact absurd hkind (hunknown kind)
    | condition kind hkind =>
      cases hcause' with
      | kind hunknown => exact absurd hkind (hunknown kind)
      | condition => rfl

theorem isUsable_iff {row : VisibilityRow} (hpriority : ∃ n, row.priority = .int n) :
    row.IsUsable ↔ ∀ cause, ¬row.IsMalformed cause := by
  constructor
  · exact fun husable cause hcause => hcause.not_isUsable husable
  · intro h
    obtain ⟨n, hn⟩ := hpriority
    cases hrule : ruleOfRow row with
    | ok rule =>
      obtain ⟨hkind, hcondition, -⟩ := ruleOfRow_eq_ok_iff.1 hrule
      exact ⟨⟨_, hkind⟩, hcondition, hn ▸ rfl⟩
    | error fault =>
      obtain ⟨cause, hcause, -⟩ := isMalformed_of_ruleOfRow hrule
      exact absurd hcause (h cause)

/-- Of several malformed rows the first one is reported. -/
theorem ofRuleRows_eq_error_iff (hpriority : ∀ row ∈ rows, ∃ n, row.priority = .int n)
    {fault : Fault} : ofRuleRows rows = .error fault ↔
      ∃ before row after cause, rows = before ++ row :: after ∧
        (∀ r ∈ before, ∀ cause, ¬r.IsMalformed cause) ∧
        row.IsMalformed cause ∧ fault = .malformedRule cause := by
  constructor
  · intro hfault
    obtain ⟨before, row, after, cause, rfl, hbefore, hcause⟩ :=
      exists_of_ofRuleRows_eq_error hpriority hfault
    refine ⟨before, row, after, cause, rfl, fun r hr => ?_, hcause⟩
    exact (isUsable_iff (hpriority r (List.mem_append_left _ hr))).1 (hbefore r hr)
  · rintro ⟨before, row, after, cause, rfl, hbefore, hcause, rfl⟩
    have hread : (before ++ row :: after).mapM objectRule = .error (.malformedRule cause) := by
      refine mapM_eq_error_of_first (fun r hr => ?_) ?_
      · have husable := (isUsable_iff (hpriority r (List.mem_append_left _ hr))).2 (hbefore r hr)
        exact exists_objectRule_iff.2 ⟨husable.kind, husable.condition⟩
      · rw [objectRule, ruleOfRow_of_isMalformed hcause, error_bind]
    rw [ofRuleRows]
    exact bind_eq_error_iff.2 (.inl hread)

/-- The rules of an object are those of its rows. -/
theorem forall₂_rulesFor {grouped : List (String × VisibilityRule)}
    (h : rows.mapM objectRule = .ok grouped) (object : String) :
    List.Forall₂ (fun row rule => rule.IsOf row) (rows.filter (·.object = object))
      (rulesFor object grouped) := by
  rw [mapM_eq_ok_iff] at h
  induction h with
  | nil => exact .nil
  | @cons row e rows grouped hrow _ ih =>
    obtain ⟨hrule, hobject⟩ := objectRule_eq_ok_iff.1 hrow
    rw [rulesFor_cons, List.filter_cons, hobject]
    by_cases h : e.1 = object
    · rw [if_pos h, if_pos (decide_eq_true h)]
      obtain ⟨hkind, -, hcondition, hpriority⟩ := ruleOfRow_eq_ok_iff.1 hrule
      exact .cons ⟨hkind, hcondition, hpriority⟩ ih
    · rw [if_neg h, if_neg (by simpa using h)]
      exact ih

/-- What is made of rows with whole numbers as priorities: the entries of the objects, in the
    order in which these are named, each with the ranked rules of its rows. -/
theorem entries_of_ofRuleRows {m : OrderedMap String (List VisibilityRule)}
    (hpriority : ∀ row ∈ rows, ∃ n, row.priority = .int n) (h : ofRuleRows rows = .ok m) :
    m.keys = (rows.map (·.object)).eraseDups ∧
    ∀ object own, m.get? object = some own → ∃ rules,
      List.Forall₂ (fun row rule => VisibilityRule.IsOf rule row)
        (rows.filter (·.object = object)) rules ∧ VisibilityRule.AreRanked own rules := by
  obtain ⟨grouped, hgrouped, sorted, hsorted, rfl⟩ := ofRuleRows_eq_ok_iff.1 h
  have hkeys : sorted.map Prod.fst = (groupRules grouped).keys := by
    refine map_eq_of_mapM_eq_ok hsorted fun e e' he => ?_
    obtain ⟨own, -, hown⟩ := bind_eq_ok_iff.1 he
    exact (congrArg Prod.fst (Except.ok.inj hown)).symm
  have hentries := OrderedMap.entries_ofEntries_of_keys hkeys
  refine ⟨?_, fun object own hown => ?_⟩
  · have hobjects : grouped.map Prod.fst = rows.map (·.object) :=
      map_eq_of_mapM_eq_ok hgrouped fun row e he => (objectRule_eq_ok_iff.1 he).2.symm
    rw [OrderedMap.keys, hentries, hkeys, ← hobjects]
    exact OrderedMap.keys_collect ..
  · rw [← OrderedMap.mem_entries_iff, hentries, mem_of_mapM_eq_ok hsorted] at hown
    obtain ⟨⟨object', rules⟩, he, hentry⟩ := hown
    obtain ⟨rfl, -⟩ := mem_entries_groupRules.1 he
    obtain ⟨own', hown', hsame⟩ := bind_eq_ok_iff.1 hentry
    obtain ⟨rfl, rfl⟩ := Prod.mk.inj (Except.ok.inj hsame)
    refine ⟨_, forall₂_rulesFor hgrouped _, areRanked_of_byPriority (fun r hr => ?_) hown'⟩
    obtain ⟨row, hrow, hrule⟩ := (mem_of_mapM_eq_ok hgrouped).1 (mem_rulesFor.1 hr)
    obtain ⟨-, -, -, hpriority'⟩ := ruleOfRow_eq_ok_iff.1 (objectRule_eq_ok_iff.1 hrule).1
    exact hpriority'.symm ▸ hpriority row hrow

/-- Rules for rows with whole numbers as priorities. If a row is malformed, the first such row is
    reported and nothing else is made of the rows. Otherwise every object that is named has an
    entry, in the order in which the objects are first named, and the entry has the rules of all
    rows of the object, by descending priority and else in the order of the rows. -/
theorem ofRuleRows_grouped (rows : List VisibilityRow)
    (hpriority : ∀ row ∈ rows, ∃ n, row.priority = .int n) :
    ((∃ cause, ofRuleRows rows = .error (.malformedRule cause)) ↔
      ∃ row ∈ rows, ∃ cause, row.IsMalformed cause) ∧
    (∀ fault, ofRuleRows rows = .error fault ↔ ∃ before row after cause,
      rows = before ++ row :: after ∧ (∀ r ∈ before, ∀ cause, ¬r.IsMalformed cause) ∧
      row.IsMalformed cause ∧ fault = .malformedRule cause) ∧
    ((∀ row ∈ rows, ∀ cause, ¬row.IsMalformed cause) → ∃ m, ofRuleRows rows = .ok m ∧
      m.keys = (rows.map (·.object)).eraseDups ∧
      ∀ object own, m.get? object = some own → ∃ rules,
        List.Forall₂ (fun row rule => VisibilityRule.IsOf rule row)
          (rows.filter (·.object = object)) rules ∧ VisibilityRule.AreRanked own rules) := by
  refine ⟨⟨?_, ?_⟩, fun _ => ofRuleRows_eq_error_iff hpriority, fun h => ?_⟩
  · rintro ⟨cause, hfault⟩
    obtain ⟨before, row, after, cause, rfl, -, hcause, -⟩ :=
      (ofRuleRows_eq_error_iff hpriority).1 hfault
    exact ⟨row, by simp, cause, hcause⟩
  · rintro ⟨row, hrow, cause, hcause⟩
    cases hall : ofRuleRows rows with
    | ok m => exact absurd (exists_ofRuleRows_iff.1 ⟨m, hall⟩ row hrow) hcause.not_isUsable
    | error fault =>
      obtain ⟨-, -, -, cause, -, -, -, rfl⟩ := (ofRuleRows_eq_error_iff hpriority).1 hall
      exact ⟨cause, rfl⟩
  · obtain ⟨m, hm⟩ := exists_ofRuleRows_iff.2 fun row hrow =>
      (isUsable_iff (hpriority row hrow)).2 (h row hrow)
    exact ⟨m, hm, entries_of_ofRuleRows hpriority hm⟩

/-- Rules for documents and for reports. Two of those for documents have the same priority. -/
def mixedRows : List VisibilityRow :=
  [⟨1, "document", .text "OWNERSHIP", .record [("include_created", .bool true)], .int 1⟩,
    ⟨1, "document", .text "TENANT", .record [], .int 5⟩,
    ⟨2, "report", .text "CUSTOM", .record [], .int 0⟩,
    ⟨2, "document", .text "HIERARCHY", .record [], .int 1⟩]

theorem isUsable_mixedRows : ∀ row ∈ mixedRows, row.IsUsable := by
  simp only [mixedRows, List.forall_mem_cons]
  exact ⟨⟨⟨.ownership, rfl⟩, ⟨_, rfl⟩, rfl⟩, ⟨⟨.tenant, rfl⟩, ⟨_, rfl⟩, rfl⟩,
    ⟨⟨.custom, rfl⟩, ⟨_, rfl⟩, rfl⟩, ⟨⟨.hierarchy, rfl⟩, ⟨_, rfl⟩, rfl⟩, nofun⟩

/-- Documents have three rules by descending priority, and those of the lower priority stay in
    their order. -/
theorem mixedRows_grouped : (∀ row ∈ mixedRows, ∃ n, row.priority = .int n) ∧
    ∃ m, ofRuleRows mixedRows = .ok m ∧ m.keys = ["document", "report"] ∧
      ∃ own, m.get? "document" = some own ∧ own.length = 3 ∧
        own.Pairwise (fun a b => b.rank ≤ a.rank) ∧
        (own.filter (·.rank = 1)).map (·.kind.word) = ["OWNERSHIP", "HIERARCHY"] := by
  have hpriority : ∀ row ∈ mixedRows, ∃ n, row.priority = .int n := by simp [mixedRows]
  obtain ⟨-, -, hgrouped⟩ := ofRuleRows_grouped mixedRows hpriority
  obtain ⟨m, hm, hkeys, hentries⟩ := hgrouped fun row hrow =>
    (isUsable_iff (hpriority row hrow)).1 (isUsable_mixedRows row hrow)
  have hnamed : m.keys = ["document", "report"] := by
    rw [hkeys]
    rfl
  obtain ⟨own, hown⟩ := OrderedMap.mem_keys_iff.1 (hnamed ▸ List.mem_cons_self)
  obtain ⟨rules, hrules, hranked⟩ := hentries "document" own hown
  have hrows : mixedRows.filter (·.object = "document") =
      [mixedRows[0], mixedRows[1], mixedRows[3]] := rfl
  rw [hrows] at hrules
  obtain _ | ⟨howner, _ | ⟨htenant, _ | ⟨hteam, ⟨⟩⟩⟩⟩ := hrules
  refine ⟨hpriority, m, hm, hnamed, own, hown, hranked.perm.length_eq, hranked.descending, ?_⟩
  rw [hranked.stable 1]
  have howner' := VisibilityRule.rank_eq howner.priority
  have htenant' := VisibilityRule.rank_eq htenant.priority
  have hteam' := VisibilityRule.rank_eq hteam.priority
  simp [howner', htenant', hteam', ← Value.text.inj howner.kind, ← Value.text.inj hteam.kind]

end SecurityContext

end StaffAccess

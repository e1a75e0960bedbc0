import StaffAccess.Proofs.RowFilter.Fields

/-!
# Rules that are combined

What the rules of an object give is combined to one predicate, by a disjunction that leaves out
what decides nothing. Two things hold of a filter for this reason.

Its level is the truth. It is read off the outermost part of the predicate alone, while a filter
hides nothing if all records satisfy the predicate, whichever way it is written. But in normal form
there is one predicate only that all records satisfy, and predicate documents cannot bring in
another one, however deep they go.

Its rules have no order. Two contexts in which the rules of an object stand in different places,
with different priorities, have different predicates, but these are of one level and are satisfied
by the same records. If a rule cannot be used, neither context has a filter.

* `Predicate.IsNormal.eq_matchAll_iff`: which predicate all records satisfy.
* `RowFilter.level_tellsTruth`: what a level says about the records.
* `RestrictionLevel.ofPredicate_anyOf`: the level of what is combined.
* `SecurityContext.IsRearranged`: contexts in which the rules of an object are in another order.
* `RowFilter.ofContext_rearranged`: their filters do the same.
-/

namespace StaffAccess

/-! ## Levels -/

/-- In normal form, all records satisfy the constant only. -/
theorem Predicate.IsNormal.eq_matchAll_iff {p : Predicate} (hp : p.IsNormal) :
    p = .matchAll ↔ ∀ record : Fields, p.eval (.record record) = .ok true := by
  constructor
  · rintro rfl record
    rw [Predicate.eval]
  · intro hall
    by_contra hplain
    cases (hp.eval_empty hplain).symm.trans (hall [])

namespace RestrictionLevel

variable {p : Predicate} {parts parts' : List Predicate}

theorem ofPredicate_eq_none_iff : ofPredicate p = .none ↔ p = .matchAll := by
  cases p <;> simp [ofPredicate]

theorem ofPredicate_eq_full_iff : ofPredicate p = .full ↔ p = .matchNone := by
  cases p <;> simp [ofPredicate]

theorem ofPredicate_eq_part_iff : ofPredicate p = .part ↔ p ≠ .matchAll ∧ p ≠ .matchNone := by
  cases p <;> simp [ofPredicate]

end RestrictionLevel

namespace RowFilter

/-- A filter is of the level `NONE` exactly if all records satisfy its predicate, and of the level
    `FULL` exactly if its predicate is the constant that no record satisfies. Otherwise it is of
    the level `PARTIAL`, and hides a record without fields. -/
theorem level_tellsTruth (policy : Policy) (ctx : SecurityContext) (object : Value)
    {filter : RowFilter} (h : ofContext ctx object policy = .ok filter) :
    (filter.level = .none ↔
      ∀ record : Fields, filter.predicate.eval (.record record) = .ok true) ∧
    (filter.level = .full ↔ filter.predicate = .matchNone) ∧
    (filter.level = .full →
      ∀ record : Fields, filter.predicate.eval (.record record) = .ok false) ∧
    (filter.level = .part ↔
      ¬(∀ record : Fields, filter.predicate.eval (.record record) = .ok true) ∧
        filter.predicate ≠ .matchNone) ∧
    (filter.level = .part → filter.predicate.eval (.record []) = .ok false) := by
  have hnormal : filter.predicate.IsNormal := (isBuiltOn_ofContext h).isNormal
  rw [level_ofContext h, RestrictionLevel.ofPredicate_eq_none_iff,
    RestrictionLevel.ofPredicate_eq_full_iff, RestrictionLevel.ofPredicate_eq_part_iff,
    ← hnormal.eq_matchAll_iff]
  refine ⟨Iff.rfl, Iff.rfl, fun hnone record => ?_, Iff.rfl, fun hpart => ?_⟩
  · rw [hnone, Predicate.eval]
  · exact hnormal.eval_empty hpart.1

end RowFilter

/-- A rule with a predicate document that all records satisfy, though it does not say so at once. -/
def VisibilityRule.roundabout : VisibilityRule :=
  ⟨.custom, .record [("where", .record [("and", .list
    [.record [("match", .text "all")],
      .record [("or", .list [.record [("match", .text "none")], .record [("and", .list [])]])]])])],
    .int 0⟩

/-- Somebody at the ministry who sees the documents of the team and the open ones, and notes by a
    rule of that kind. -/
def SecurityContext.archivist : SecurityContext where
  __ := SecurityContext.teamLead
  rowRules := .ofEntries [("doc", SecurityContext.teamLead.rulesOn "doc"), ("note", [.roundabout])]

/-- The notes are all shown, and among the documents one without fields is not. -/
theorem RowFilter.archivist_levels :
    (∃ filter, ofContext .archivist (.text "note") {} = .ok filter ∧
      ∀ record : Fields, filter.predicate.eval (.record record) = .ok true) ∧
    ∃ filter, ofContext .archivist (.text "doc") {} = .ok filter ∧
      filter.predicate.eval (.record []) = .ok false :=
  ⟨⟨_, rfl, (level_tellsTruth {} .archivist (.text "note") rfl).1.1 rfl⟩,
    _, rfl, (level_tellsTruth {} .archivist (.text "doc") rfl).2.2.2.2 rfl⟩

/-! ## Order -/

/-- The level of a disjunction depends on the constants among its parts. -/
theorem RestrictionLevel.ofPredicate_anyOf (parts : List Predicate) :
    ofPredicate (.anyOf parts) =
      if parts.any Predicate.isAll then .none
      else if parts.all Predicate.isNone then .full else .part := by
  rw [Predicate.anyOf]
  split_ifs with hall hnone
  · rfl
  · have hkept : (parts.filter fun p => !p.isNone) = [] :=
      List.filter_eq_nil_iff.2 fun p hp => by simp [List.all_eq_true.1 hnone p hp]
    rw [hkept]
    rfl
  · split
    · rename_i hkept
      refine absurd (List.all_eq_true.2 fun p hp => ?_) hnone
      simpa using List.filter_eq_nil_iff.1 hkept p hp
    · rename_i p hkept
      obtain ⟨hmem, hp⟩ := List.mem_filter.1 (hkept ▸ List.mem_singleton_self p)
      have hplain := List.any_eq_false.1 (Bool.eq_false_iff.2 hall) p hmem
      exact ofPredicate_eq_part_iff.2 ⟨Predicate.isAll_eq_false_iff.1 (by simpa using hplain),
        Predicate.isNone_eq_false_iff.1 (by simpa using hp)⟩
    · rfl

/-- A rule without its priority. -/
def VisibilityRule.unranked (rule : VisibilityRule) : VisibilityRule :=
  { rule with priority := .null }

/-- Whether two contexts differ in nothing but the rules for rows, and those of an object in nothing
    but their order and their priorities. -/
structure SecurityContext.IsRearranged (object : String) (ctx ctx' : SecurityContext) : Prop where
  eq_elsewhere : ctx' = { ctx with rowRules := ctx'.rowRules }
  perm : ((ctx.rulesOn object).map VisibilityRule.unranked).Perm
    ((ctx'.rulesOn object).map VisibilityRule.unranked)

namespace RowFilter

variable {policy : Policy} {ctx ctx' : SecurityContext} {object : String}
  {parts parts' : List Predicate} {rules rules' : List VisibilityRule}

/-- Whether two filters have the same level and the same words, and show the same records. -/
def ActsLike (filter filter' : RowFilter) : Prop :=
  filter.level = filter'.level ∧ filter.message = filter'.message ∧
    ∀ record : Fields, ∃ b, filter.predicate.eval (.record record) = .ok b ∧
      filter'.predicate.eval (.record record) = .ok b

/-- A disjunction acts alike in whatever order its parts are given. -/
theorem actsLike_anyOf (hperm : parts.Perm parts') (hparts : ∀ p ∈ parts, p.IsProper) :
    (ofPredicate (.anyOf parts)).ActsLike (ofPredicate (.anyOf parts')) := by
  refine ⟨?_, rfl, fun record => ?_⟩
  · rw [ofPredicate, ofPredicate]
    simp only [RestrictionLevel.ofPredicate_anyOf, hperm.any_eq, hperm.all_eq]
  · obtain ⟨answer, hanswer⟩ :=
      Predicate.exists_answer fun p hp => (hparts p hp).exists_eval record
    refine ⟨_, Predicate.eval_anyOf hanswer, ?_⟩
    rw [hperm.any_eq]
    exact Predicate.eval_anyOf fun p hp => hanswer p (hperm.mem_iff.2 hp)

/-- What some predicates show together, and everything if there are none. -/
def together : List Predicate → RowFilter
  | [] => unrestricted
  | parts => ofPredicate (.anyOf parts)

theorem actsLike_together (hperm : parts.Perm parts') (hparts : ∀ p ∈ parts, p.IsProper) :
    (together parts).ActsLike (together parts') := by
  cases parts with
  | nil =>
    rw [← hperm.nil_eq]
    exact ⟨rfl, rfl, fun record => ⟨true, rfl, rfl⟩⟩
  | cons p ps =>
    cases parts' with
    | nil => exact absurd hperm.eq_nil (List.cons_ne_nil p ps)
    | cons p' ps' => exact actsLike_anyOf hperm hparts

theorem ofRules_of_given {given : List (Option Predicate)}
    (h : rules.mapM (fun r => r.predicate ctx object policy) = .ok given) :
    ofRules rules ctx object policy = .ok (together (given.filterMap id)) := by
  rw [ofRules]
  rw [h, ok_bind]
  cases given.filterMap id with
  | nil => rfl
  | cons p ps => rfl

/-- Rules give the same predicates in any order, and with any priorities. -/
theorem exists_given_rearranged {given : List (Option Predicate)}
    (h : (rules.map VisibilityRule.unranked).Perm (rules'.map VisibilityRule.unranked))
    (hgiven : rules.mapM (fun r => r.predicate ctx object policy) = .ok given) :
    ∃ given', rules'.mapM (fun r => r.predicate ctx object policy) = .ok given' ∧
      given.Perm given' := by
  have hunranked : ∀ rules : List VisibilityRule,
      (rules.map VisibilityRule.unranked).mapM (fun r => r.predicate ctx object policy) =
        rules.mapM fun r => r.predicate ctx object policy := fun _ => List.mapM_map
  rw [← hunranked rules] at hgiven
  rw [← hunranked rules']
  exact exists_perm_of_mapM_eq_ok h hgiven

theorem ofRules_rearranged
    (h : (rules.map VisibilityRule.unranked).Perm (rules'.map VisibilityRule.unranked)) :
    AnswersWith ActsLike (ofRules rules ctx object policy) (ofRules rules' ctx object policy) := by
  cases hgiven : rules.mapM fun r => r.predicate ctx object policy with
  | error fault =>
    rw [ofRules, hgiven]
    exact answersWith_error _
  | ok given =>
    obtain ⟨given', hgiven', hperm⟩ := exists_given_rearranged h hgiven
    rw [ofRules_of_given hgiven, ofRules_of_given hgiven']
    refine answersWith_ok (actsLike_together (hperm.filterMap id) fun p hp => ?_)
    rw [List.mem_filterMap] at hp
    obtain ⟨_, hmem, rfl⟩ := hp
    obtain ⟨r, -, hr⟩ := (mem_of_mapM_eq_ok hgiven).1 hmem
    exact (VisibilityRule.isNormal_predicate hr).isProper

theorem ofContext_answersWith (h : ctx.IsRearranged object ctx') :
    AnswersWith ActsLike (ofContext ctx (.text object) policy)
      (ofContext ctx' (.text object) policy) := by
  have hrules := h.perm
  obtain ⟨m, rfl⟩ : ∃ m, ctx' = { ctx with rowRules := m } := ⟨_, h.eq_elsewhere⟩
  -- Nothing but the rules of the object is taken from the rules for rows.
  by_cases hlocked : IsLocked policy ctx object
  · have hlocked' : IsLocked policy { ctx with rowRules := m } object := hlocked
    rw [ofContext, ofContext, if_pos (isLocked_iff.1 hlocked), if_pos (isLocked_iff.1 hlocked')]
    exact answersWith_ok ⟨rfl, rfl, fun record => ⟨false, rfl, rfl⟩⟩
  · have hopen' : ¬IsLocked policy { ctx with rowRules := m } object := hlocked
    rw [ofContext_eq_ofRules hlocked, ofContext_eq_ofRules hopen']
    exact ofRules_rearranged hrules

end RowFilter

theorem SecurityContext.IsRearranged.symm {object : String} {ctx ctx' : SecurityContext}
    (h : ctx.IsRearranged object ctx') : ctx'.IsRearranged object ctx where
  eq_elsewhere := by rw [h.eq_elsewhere]
  perm := h.perm.symm

/-- Two contexts in which the rules of an object stand in different orders and have different
    priorities both have no filter for it, or their filters act alike: they have the same level,
    the same words, and show the same records. -/
theorem RowFilter.ofContext_rearranged (policy : Policy) (object : String)
    {ctx ctx' : SecurityContext} (h : ctx.IsRearranged object ctx') :
    (∃ fault fault', ofContext ctx (.text object) policy = .error fault ∧
      ofContext ctx' (.text object) policy = .error fault') ∨
    ∃ filter filter', ofContext ctx (.text object) policy = .ok filter ∧
      ofContext ctx' (.text object) policy = .ok filter' ∧ filter.ActsLike filter' := by
  cases hfilter : ofContext ctx (.text object) policy with
  | ok filter =>
    obtain ⟨filter', hfilter', hacts⟩ := ofContext_answersWith h filter hfilter
    exact .inr ⟨filter, filter', rfl, hfilter', hacts⟩
  | error fault =>
    cases hfilter' : ofContext ctx' (.text object) policy with
    | error fault' => exact .inl ⟨fault, fault', rfl, rfl⟩
    | ok filter' =>
      obtain ⟨filter, hfilter'', -⟩ := ofContext_answersWith h.symm filter' hfilter'
      cases hfilter''.symm.trans hfilter

/-- The same person, whose rule for open documents comes first. -/
def SecurityContext.openFirst : SecurityContext where
  __ := SecurityContext.teamLead
  rowRules := .ofEntries [("doc", [⟨.custom,
      .record [("where", .record [("field", .text "status"), ("equals", .text "open")])], .int 9⟩,
    ⟨.hierarchy, .record [], .text "low"⟩])]

theorem RowFilter.openFirst_actsLike :
    SecurityContext.teamLead.IsRearranged "doc" .openFirst ∧
    ∃ filter filter', ofContext .teamLead (.text "doc") {} = .ok filter ∧
      ofContext .openFirst (.text "doc") {} = .ok filter' ∧ filter.ActsLike filter' := by
  have h : SecurityContext.teamLead.IsRearranged "doc" .openFirst := ⟨rfl, .swap _ _ _⟩
  refine ⟨h, (ofContext_rearranged {} "doc" h).resolve_left ?_⟩
  rintro ⟨fault, _, hfault, -⟩
  cases hfault

end StaffAccess

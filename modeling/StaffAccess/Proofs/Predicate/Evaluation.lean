import StaffAccess.Predicate.Document
import StaffAccess.Proofs.Traversal
import StaffAccess.Proofs.Value.Equality

/-!
# Evaluation of predicates

On a record, every predicate without foreign parts has an answer. The simplifying constructors
answer like the junctions that they stand for, and a test for some values answers whether the
field has one of them, however often each is given.

* `Predicate.IsProper`: the predicates without foreign parts.
* `Predicate.IsProper.exists_eval`: these have an answer on every record.
* `Predicate.eval_allOf`, `Predicate.eval_anyOf`, `Predicate.eval_fieldIn`: what the constructors
  answer.
-/

namespace StaffAccess

namespace Predicate

/-! ## Answers -/

/-- The predicates without foreign parts. -/
inductive IsProper : Predicate → Prop
  | matchAll : IsProper matchAll
  | matchNone : IsProper matchNone
  | equals (field : String) (v : Value) : IsProper (equals field v)
  | among (field : String) (vs : List Value) : IsProper (among field vs)
  | conj {parts : List Predicate} (h : ∀ p ∈ parts, IsProper p) : IsProper (conj parts)
  | disj {parts : List Predicate} (h : ∀ p ∈ parts, IsProper p) : IsProper (disj parts)

variable {r : Value} {answer : Predicate → Bool} {ps : List Predicate}

theorem evalAll_eq (h : ∀ p ∈ ps, p.eval r = .ok (answer p)) :
    evalAll ps r = .ok (ps.all answer) := by
  induction ps with
  | nil => rfl
  | cons p ps ih =>
    rw [List.forall_mem_cons] at h
    rw [evalAll, h.1, ok_bind, ih h.2, List.all_cons]
    cases answer p <;> rfl

theorem evalAny_eq (h : ∀ p ∈ ps, p.eval r = .ok (answer p)) :
    evalAny ps r = .ok (ps.any answer) := by
  induction ps with
  | nil => rfl
  | cons p ps ih =>
    rw [List.forall_mem_cons] at h
    rw [evalAny, h.1, ok_bind, ih h.2, List.any_cons]
    cases answer p <;> rfl

theorem exists_answer (h : ∀ p ∈ ps, ∃ b, p.eval r = .ok b) :
    ∃ answer : Predicate → Bool, ∀ p ∈ ps, p.eval r = .ok (answer p) := by
  choose! answer hanswer using h
  exact ⟨answer, hanswer⟩

/-- Whether a record has a value in a field. -/
def HasValue (record : Fields) (field : String) (v : Value) : Prop :=
  ∃ x, record.lookup field = some x ∧ x.same v = true

theorem eval_equals (record : Fields) (name : String) (v : Value) :
    (equals name v).eval (.record record) =
      .ok ((record.lookup name).any (·.same v)) := rfl

theorem eval_equals_eq_true_iff {record : Fields} {name : String} {v : Value} :
    (equals name v).eval (.record record) = .ok true ↔ HasValue record name v := by
  rw [eval_equals, Except.ok.injEq, Option.any_eq_true, HasValue]

/-- On a record, a predicate without foreign parts has an answer. -/
theorem IsProper.exists_eval {p : Predicate} (hp : p.IsProper) (record : Fields) :
    ∃ b, p.eval (.record record) = .ok b := by
  induction hp with
  | matchAll => exact ⟨_, rfl⟩
  | matchNone => exact ⟨_, rfl⟩
  | equals field v => exact ⟨_, rfl⟩
  | among field vs => exact ⟨_, rfl⟩
  | conj _ ih =>
    obtain ⟨answer, hanswer⟩ := exists_answer ih
    exact ⟨_, evalAll_eq hanswer⟩
  | disj _ ih =>
    obtain ⟨answer, hanswer⟩ := exists_answer ih
    exact ⟨_, evalAny_eq hanswer⟩

/-! ## Constructors -/

theorem eq_matchNone_of_isNone {p : Predicate} (h : p.isNone = true) : p = matchNone := by
  cases p <;> simp_all [isNone]

theorem eq_matchAll_of_isAll {p : Predicate} (h : p.isAll = true) : p = matchAll := by
  cases p <;> simp_all [isAll]

theorem all_filter_eq_all {keep : Predicate → Bool}
    (h : ∀ p ∈ ps, keep p = false → answer p = true) :
    (ps.filter keep).all answer = ps.all answer := by
  rw [Bool.eq_iff_iff, List.all_eq_true, List.all_eq_true]
  refine ⟨fun hkept p hp => ?_, fun hall p hp => hall p (List.mem_of_mem_filter hp)⟩
  cases hkeep : keep p with
  | false => exact h p hp hkeep
  | true => exact hkept p (List.mem_filter.2 ⟨hp, hkeep⟩)

theorem any_filter_eq_any {keep : Predicate → Bool}
    (h : ∀ p ∈ ps, keep p = false → answer p = false) :
    (ps.filter keep).any answer = ps.any answer := by
  rw [Bool.eq_iff_iff, List.any_eq_true, List.any_eq_true]
  refine ⟨fun ⟨p, hp, hyes⟩ => ⟨p, List.mem_of_mem_filter hp, hyes⟩, fun ⟨p, hp, hyes⟩ => ?_⟩
  cases hkeep : keep p with
  | false => exact absurd hyes (by simp [h p hp hkeep])
  | true => exact ⟨p, List.mem_filter.2 ⟨hp, hkeep⟩, hyes⟩

/-- A simplified conjunction answers like its parts together. -/
theorem eval_allOf (h : ∀ p ∈ ps, p.eval r = .ok (answer p)) :
    (allOf ps).eval r = .ok (ps.all answer) := by
  rw [allOf]
  split_ifs with hnone
  · obtain ⟨p, hp, hpnone⟩ := List.any_eq_true.1 hnone
    have hfalse : false = answer p := by
      simpa [eq_matchNone_of_isNone hpnone, eval] using h p hp
    rw [List.all_eq_false.2 ⟨p, hp, by simp [← hfalse]⟩, eval]
  · -- What is left out is satisfied by every record.
    have hkept : (ps.filter fun p => !p.isAll).all answer = ps.all answer :=
      all_filter_eq_all fun p hp hall => by
        obtain rfl := eq_matchAll_of_isAll (by simpa using hall)
        exact (Except.ok.inj (h _ hp)).symm
    have hrest : ∀ p ∈ ps.filter fun p => !p.isAll, p.eval r = .ok (answer p) :=
      fun p hp => h p (List.mem_of_mem_filter hp)
    rw [← hkept]
    split
    · rename_i hnil
      rw [hnil]
      rfl
    · rename_i p hp
      rw [hp] at hrest ⊢
      simpa using hrest p (List.mem_singleton_self p)
    · exact evalAll_eq hrest

/-- A simplified disjunction answers like its parts together. -/
theorem eval_anyOf (h : ∀ p ∈ ps, p.eval r = .ok (answer p)) :
    (anyOf ps).eval r = .ok (ps.any answer) := by
  rw [anyOf]
  split_ifs with hall
  · obtain ⟨p, hp, hpall⟩ := List.any_eq_true.1 hall
    have htrue : true = answer p := by
      simpa [eq_matchAll_of_isAll hpall, eval] using h p hp
    rw [List.any_eq_true.2 ⟨p, hp, htrue.symm⟩, eval]
  · -- What is left out is satisfied by no record.
    have hkept : (ps.filter fun p => !p.isNone).any answer = ps.any answer :=
      any_filter_eq_any fun p hp hnone => by
        obtain rfl := eq_matchNone_of_isNone (by simpa using hnone)
        exact (Except.ok.inj (h _ hp)).symm
    have hrest : ∀ p ∈ ps.filter fun p => !p.isNone, p.eval r = .ok (answer p) :=
      fun p hp => h p (List.mem_of_mem_filter hp)
    rw [← hkept]
    split
    · rename_i hnil
      rw [hnil]
      rfl
    · rename_i p hp
      rw [hp] at hrest ⊢
      simpa using hrest p (List.mem_singleton_self p)
    · exact evalAny_eq hrest

/-- A record satisfies a simplified disjunction if it satisfies one of the parts. -/
theorem exists_eval_anyOf (h : ∀ p ∈ ps, ∃ b, p.eval r = .ok b) :
    ∃ b, (anyOf ps).eval r = .ok b ∧ (b = true ↔ ∃ p ∈ ps, p.eval r = .ok true) := by
  obtain ⟨answer, hanswer⟩ := exists_answer h
  refine ⟨_, eval_anyOf hanswer, ?_⟩
  rw [List.any_eq_true]
  exact exists_congr fun p => and_congr_right fun hp => by simp [hanswer p hp]

/-! ## Values to choose from -/

theorem any_same_foldl_distinct {kept values : List Value} {v : Value}
    (hkept : ∀ k ∈ kept, k.isKey = true) (hvalues : ∀ k ∈ values, k.isKey = true) :
    (values.foldl (fun kept v => if kept.any (·.same v) then kept else kept ++ [v]) kept).any
        (·.same v) = (kept.any (·.same v) || values.any (·.same v)) := by
  induction values generalizing kept with
  | nil => simp
  | cons w values ih =>
    rw [List.forall_mem_cons] at hvalues
    rw [List.foldl_cons, List.any_cons]
    split_ifs with hknown
    · rw [ih hkept hvalues.2]
      obtain ⟨k, hk, hkw⟩ := List.any_eq_true.1 hknown
      -- A value that is left out has the content of one that was kept.
      cases hw : w.same v with
      | false => simp
      | true =>
        have hkv : kept.any (·.same v) = true :=
          List.any_eq_true.2 ⟨k, hk, (Value.same_congr_of_isKey (hkept k hk) hkw v).trans hw⟩
        simp [hkv]
    · have hmore : ∀ k ∈ kept ++ [w], k.isKey = true := by
        simpa [or_imp, forall_and] using ⟨hkept, hvalues.1⟩
      rw [ih hmore hvalues.2]
      simp [Bool.or_assoc]

theorem any_same_distinctValues {values : List Value} (h : ∀ k ∈ values, k.isKey = true)
    (v : Value) : (distinctValues values).any (·.same v) = values.any (·.same v) := by
  rw [distinctValues, any_same_foldl_distinct (fun _ hk => absurd hk List.not_mem_nil) h,
    List.any_nil, Bool.false_or]

theorem mem_of_mem_foldl_distinct {kept values : List Value} {v : Value}
    (h : v ∈ values.foldl (fun kept v => if kept.any (·.same v) then kept else kept ++ [v]) kept) :
    v ∈ kept ∨ v ∈ values := by
  induction values generalizing kept with
  | nil => exact .inl h
  | cons w values ih =>
    rw [List.foldl_cons] at h
    rcases ih h with hmem | hmem
    · split_ifs at hmem
      · exact .inl hmem
      · rcases List.mem_append.1 hmem with hkept | hw
        · exact .inl hkept
        · rw [List.mem_singleton.1 hw]
          exact .inr List.mem_cons_self
    · exact .inr (List.mem_cons_of_mem _ hmem)

theorem mem_of_mem_distinctValues {values : List Value} {v : Value}
    (h : v ∈ distinctValues values) : v ∈ values :=
  (mem_of_mem_foldl_distinct h).resolve_left List.not_mem_nil

theorem eval_ofDistinct {values : List Value} (h : ∀ k ∈ values, k.isKey = true) (name : String)
    (record : Fields) : (ofDistinct name values).eval (.record record) =
      .ok ((record.lookup name).any fun x => values.any (·.same x)) := by
  match values with
  | [] => simp [ofDistinct, eval]
  | [v] =>
    simp only [ofDistinct, eval_equals, List.any_cons, List.any_nil, Bool.or_false,
      Value.same_comm_of_isKey (h v (List.mem_singleton_self v))]
  | v :: w :: vs => rfl

theorem isProper_ofDistinct (name : String) (values : List Value) :
    (ofDistinct name values).IsProper := by
  match values with
  | [] => exact .matchNone
  | [v] => exact .equals name v
  | v :: w :: vs => exact .among name _

/-- A test for some values answers whether the field has one of them. -/
theorem eval_fieldIn {values : List Value} (h : ∀ k ∈ values, k.isKey = true) (name : String) :
    ∃ p, fieldIn name values = .ok p ∧ p.IsProper ∧ ∀ record, p.eval (.record record) =
      .ok ((record.lookup name).any fun x => values.any (·.same x)) := by
  refine ⟨_, if_pos (List.all_eq_true.2 h), isProper_ofDistinct _ _, fun record => ?_⟩
  rw [eval_ofDistinct fun k hk => h k (mem_of_mem_distinctValues hk)]
  simp only [any_same_distinctValues h]

end Predicate

end StaffAccess

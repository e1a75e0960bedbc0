import StaffAccess.Proofs.Predicate.NormalForm

/-!
# Predicates written and read back

Reading a document puts the predicate together anew, so what is read back is the simplified form
of what was written: constants are left out, junctions of one part are the part, and of equal
values only the first is listed. None of this changes an answer, and in normal form there is
nothing of the kind. This is so at any depth, as nothing limits it where predicates are written,
read and evaluated.

* `Predicate.IsStorable`: the predicates in question.
* `Predicate.ofValue_toValue_eq_simplified`: what is read back.
* `Predicate.eval_simplified`: it answers as before.
* `Predicate.document_readsBack`: both together, and that predicates in normal form come back.
-/

namespace StaffAccess

/-- Whether a value is null, a truth value, a number other than NaN, or a text. -/
def Value.IsScalar (v : Value) : Prop := v.isKey = true ∧ v ≠ .double .nan

namespace Predicate

/-- The predicates without foreign parts that list nothing but scalars. -/
inductive IsStorable : Predicate → Prop
  | matchAll : IsStorable matchAll
  | matchNone : IsStorable matchNone
  | equals (field : String) (v : Value) : IsStorable (equals field v)
  | among (field : String) {vs : List Value} (h : ∀ v ∈ vs, v.IsScalar) :
    IsStorable (among field vs)
  | conj {parts : List Predicate} (h : ∀ p ∈ parts, IsStorable p) : IsStorable (conj parts)
  | disj {parts : List Predicate} (h : ∀ p ∈ parts, IsStorable p) : IsStorable (disj parts)

theorem IsStorable.isProper {p : Predicate} (hp : p.IsStorable) : p.IsProper := by
  induction hp with
  | matchAll => exact .matchAll
  | matchNone => exact .matchNone
  | equals field v => exact .equals field v
  | among field _ => exact .among field _
  | conj _ ih => exact .conj ih
  | disj _ ih => exact .disj ih

/-! ## Writing and reading lists -/

theorem ofValue_conj {documents : List Value} {ps : List Predicate}
    (h : ofItems documents = .ok ps) :
    ofValue (.record [("and", .list documents)]) = .ok (allOf ps) := by
  simp [ofValue, ofEntry, ofParts, List.lookup_cons, h]

theorem ofValue_disj {documents : List Value} {ps : List Predicate}
    (h : ofItems documents = .ok ps) :
    ofValue (.record [("or", .list documents)]) = .ok (anyOf ps) := by
  simp [ofValue, ofEntry, ofParts, List.lookup_cons, h]

theorem ofValue_among (field : String) {vs : List Value} (h : ∀ v ∈ vs, v.isKey = true) :
    ofValue (.record [("field", .text field), ("in", .list vs)]) =
      .ok (ofDistinct field (distinctValues vs)) := by
  have hkeys : vs.all Value.isKey = true := List.all_eq_true.2 h
  simp [ofValue, ofEntry, ofTest, fieldIn, hkeys, List.lookup_cons]

/-- Parts that are read back one by one are read back together. -/
theorem ofItems_toValues {parts : List Predicate}
    (h : ∀ p ∈ parts, ∃ v, p.toValue = .ok v ∧ ofValue v = .ok p.simplified) :
    ∃ vs, toValues parts = .ok vs ∧ ofItems vs = .ok (simplifiedAll parts) := by
  induction parts with
  | nil => exact ⟨[], rfl, rfl⟩
  | cons p parts ih =>
    rw [List.forall_mem_cons] at h
    obtain ⟨⟨v, hwrite, hread⟩, h⟩ := h
    obtain ⟨vs, hwrites, hreads⟩ := ih h
    exact ⟨v :: vs, by rw [toValues, hwrite, hwrites]; rfl, by
      rw [ofItems, hread, hreads]; rfl⟩

/-! ## Predicates -/

/-- What is read back is the simplified predicate. -/
theorem ofValue_toValue_eq_simplified {p : Predicate} (hp : p.IsStorable) :
    ∃ v, p.toValue = .ok v ∧ ofValue v = .ok p.simplified := by
  induction hp with
  | matchAll => exact ⟨_, rfl, by simp [ofValue, ofConstant, simplified]⟩
  | matchNone => exact ⟨_, rfl, by simp [ofValue, ofConstant, simplified]⟩
  | equals field v => exact ⟨_, rfl, by simp [ofValue, ofEntry, ofTest, simplified, List.lookup_cons]⟩
  | among field h => exact ⟨_, rfl, ofValue_among field fun v hv => (h v hv).1⟩
  | conj _ ih =>
    obtain ⟨vs, hwrite, hread⟩ := ofItems_toValues ih
    exact ⟨_, by rw [toValue, hwrite]; rfl, ofValue_conj hread⟩
  | disj _ ih =>
    obtain ⟨vs, hwrite, hread⟩ := ofItems_toValues ih
    exact ⟨_, by rw [toValue, hwrite]; rfl, ofValue_disj hread⟩

/-- Parts that answer as before when they are simplified. -/
theorem exists_answer_simplified {parts : List Predicate} {record : Fields}
    (hproper : ∀ p ∈ parts, p.IsProper)
    (h : ∀ p ∈ parts, p.simplified.eval (.record record) = p.eval (.record record)) :
    ∃ answer : Predicate → Bool,
      (∀ p ∈ parts, p.eval (.record record) = .ok (answer p.simplified)) ∧
      ∀ q ∈ parts.map simplified, q.eval (.record record) = .ok (answer q) := by
  have hanswers : ∀ q ∈ parts.map simplified, ∃ b, q.eval (.record record) = .ok b := by
    rw [List.forall_mem_map]
    exact fun p hp => h p hp ▸ (hproper p hp).exists_eval record
  obtain ⟨answer, hanswer⟩ := exists_answer hanswers
  exact ⟨answer, fun p hp => h p hp ▸ hanswer _ (List.mem_map_of_mem hp), hanswer⟩

/-- A simplified predicate has the answers that it had before. -/
theorem eval_simplified {p : Predicate} (hp : p.IsStorable) (record : Fields) :
    p.simplified.eval (.record record) = p.eval (.record record) := by
  induction hp with
  | matchAll => rfl
  | matchNone => rfl
  | equals field v => rfl
  | @among field vs h =>
    have hkeys : ∀ v ∈ vs, v.isKey = true := fun v hv => (h v hv).1
    rw [simplified, eval_ofDistinct fun v hv => hkeys v (mem_of_mem_distinctValues hv)]
    simp only [any_same_distinctValues hkeys]
    rfl
  | @conj parts h ih =>
    obtain ⟨answer, hparts, hsimplified⟩ :=
      exists_answer_simplified (fun p hp => (h p hp).isProper) ih
    have hall : evalAll parts (.record record) = .ok (parts.all (answer ∘ simplified)) :=
      evalAll_eq hparts
    rw [simplified, simplifiedAll_eq_map, eval_allOf hsimplified, eval, hall, List.all_map]
  | @disj parts h ih =>
    obtain ⟨answer, hparts, hsimplified⟩ :=
      exists_answer_simplified (fun p hp => (h p hp).isProper) ih
    have hany : evalAny parts (.record record) = .ok (parts.any (answer ∘ simplified)) :=
      evalAny_eq hparts
    rw [simplified, simplifiedAll_eq_map, eval_anyOf hsimplified, eval, hany, List.any_map]

/-- A predicate can be written, and what is written can be read. On every record the predicate
    that is read has the answer of the one that was written, and in normal form it is the same. -/
theorem document_readsBack {p : Predicate} (hp : p.IsStorable) :
    ∃ v q, p.toValue = .ok v ∧ ofValue v = .ok q ∧
      (∀ record : Fields, ∃ b, p.eval (.record record) = .ok b ∧
        q.eval (.record record) = .ok b) ∧
      (p.IsNormal → q = p) := by
  obtain ⟨v, hwrite, hread⟩ := ofValue_toValue_eq_simplified hp
  refine ⟨v, p.simplified, hwrite, hread, fun record => ?_, IsNormal.simplified_eq⟩
  obtain ⟨b, hb⟩ := hp.isProper.exists_eval record
  exact ⟨b, hb, (eval_simplified hp record).trans hb⟩

/-- Records of the first level, or those marked in red, told in a roundabout way. -/
def roundabout : Predicate :=
  .disj [.matchNone, .conj [.among "level" [.text "first", .text "first"], .matchAll],
    .equals "marks" (.list [.text "red"])]

/-- The same told straight. -/
def straight : Predicate :=
  .disj [.equals "level" (.text "first"), .equals "marks" (.list [.text "red"])]

theorem isStorable_roundabout : roundabout.IsStorable := by
  refine .disj (List.forall_mem_cons.2 ⟨.matchNone, List.forall_mem_cons.2 ⟨.conj ?_,
    List.forall_mem_singleton.2 (.equals _ _)⟩⟩)
  refine List.forall_mem_cons.2 ⟨.among _ ?_, List.forall_mem_singleton.2 .matchAll⟩
  simp [Value.IsScalar, Value.isKey]

theorem isStorable_straight : straight.IsStorable :=
  .disj (List.forall_mem_cons.2 ⟨.equals _ _, List.forall_mem_singleton.2 (.equals _ _)⟩)

theorem isNormal_straight : straight.IsNormal :=
  .disj (by simp) (by simp)
    (List.forall_mem_cons.2 ⟨.equals _ _, List.forall_mem_singleton.2 (.equals _ _)⟩)

example : roundabout.simplified = straight := rfl

/-- The first predicate comes back with its answers, the second one as it is. -/
theorem roundabout_readsBack :
    roundabout.IsStorable ∧ straight.IsStorable ∧ straight.IsNormal ∧
    (∃ v q, roundabout.toValue = .ok v ∧ ofValue v = .ok q ∧
      q.eval (.record [("level", .text "first")]) = .ok true) ∧
    ∃ v, straight.toValue = .ok v ∧ ofValue v = .ok straight := by
  refine ⟨isStorable_roundabout, isStorable_straight, isNormal_straight, ?_, ?_⟩
  · obtain ⟨v, q, hwrite, hread, hanswers, -⟩ := document_readsBack isStorable_roundabout
    obtain ⟨b, hb, hq⟩ := hanswers [("level", .text "first")]
    obtain rfl : true = b := Except.ok.inj hb
    exact ⟨v, q, hwrite, hread, hq⟩
  · obtain ⟨v, q, hwrite, hread, -, hnormal⟩ := document_readsBack isStorable_straight
    exact ⟨v, hwrite, hnormal isNormal_straight ▸ hread⟩

end Predicate

end StaffAccess

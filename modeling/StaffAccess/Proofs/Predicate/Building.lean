import StaffAccess.Proofs.Predicate.NormalForm

/-!
# Predicates that are put together

Predicates come about by putting tests of fields together, and nothing but the simplifying
constructors does that. So whatever is read from a document or given by a rule is in normal form:
what decides nothing has been left out at every level. A predicate in normal form that is no
constant needs something from the record, and an empty record does not satisfy it.

The constructors do not invent tests either. A predicate looks at no field other than those of the
tests that it was put together from.

* `Predicate.IsBuiltOn`: the predicates put together from tests of some fields.
* `Predicate.IsBuiltOn.isNormal`: they are in normal form.
* `Predicate.IsNormal.eval_empty`: what the constants apart does to an empty record.
* `Predicate.LooksAt`: the fields that a predicate looks at.
* `Predicate.IsBuiltOn.of_looksAt`: they are among those of the tests.
* `Predicate.isBuiltOn_ofValue`: documents stand for predicates that are put together.
-/

namespace StaffAccess.Predicate

/-- Whether a predicate is put together by the simplifying constructors from tests of fields that
    satisfy `q`. -/
inductive IsBuiltOn (q : String → Prop) : Predicate → Prop
  | matchAll : IsBuiltOn q matchAll
  | matchNone : IsBuiltOn q matchNone
  | equals {field : String} (h : q field) (v : Value) : IsBuiltOn q (equals field v)
  | fieldIn {field : String} {values : List Value} {p : Predicate} (h : q field)
    (hp : Predicate.fieldIn field values = .ok p) : IsBuiltOn q p
  | allOf {parts : List Predicate} (h : ∀ p ∈ parts, IsBuiltOn q p) : IsBuiltOn q (allOf parts)
  | anyOf {parts : List Predicate} (h : ∀ p ∈ parts, IsBuiltOn q p) : IsBuiltOn q (anyOf parts)

variable {q q' : String → Prop} {p : Predicate} {parts kept : List Predicate}
  {values : List Value} {field : String}

theorem IsBuiltOn.mono (hp : p.IsBuiltOn q) (h : ∀ field, q field → q' field) :
    p.IsBuiltOn q' := by
  induction hp with
  | matchAll => exact .matchAll
  | matchNone => exact .matchNone
  | equals hq v => exact .equals (h _ hq) v
  | fieldIn hq hp => exact .fieldIn (h _ hq) hp
  | allOf _ ih => exact .allOf ih
  | anyOf _ ih => exact .anyOf ih

/-! ## Normal form -/

theorem IsNormal.isProper (hp : p.IsNormal) : p.IsProper := by
  induction hp with
  | matchAll => exact .matchAll
  | matchNone => exact .matchNone
  | equals field v => exact .equals field v
  | among field _ _ => exact .among field _
  | conj _ _ _ ih => exact .conj ih
  | disj _ _ _ ih => exact .disj ih

theorem pairwise_foldl_distinct {kept : List Value}
    (h : kept.Pairwise fun v w => v.same w = false) :
    (values.foldl (fun kept v => if kept.any (·.same v) then kept else kept ++ [v])
      kept).Pairwise fun v w => v.same w = false := by
  induction values generalizing kept with
  | nil => exact h
  | cons v values ih =>
    rw [List.foldl_cons]
    split_ifs with hknown
    · exact ih h
    · rw [Bool.not_eq_true, List.any_eq_false] at hknown
      refine ih (List.pairwise_append.2 ⟨h, List.pairwise_singleton _ _, fun k hk w hw => ?_⟩)
      rw [List.mem_singleton.1 hw]
      simpa using hknown k hk

theorem pairwise_distinctValues (values : List Value) :
    (distinctValues values).Pairwise fun v w => v.same w = false :=
  pairwise_foldl_distinct .nil

theorem isNormal_ofDistinct (field : String)
    (h : values.Pairwise fun v w => v.same w = false) : (ofDistinct field values).IsNormal := by
  match values with
  | [] => exact .matchNone
  | [v] => exact .equals field v
  | v :: w :: rest => exact .among field (by simp) h

theorem isNormal_fieldIn (h : fieldIn field values = .ok p) : p.IsNormal := by
  rw [fieldIn] at h
  split_ifs at h
  cases h
  exact isNormal_ofDistinct field (pairwise_distinctValues values)

/-- A junction of the parts that are kept is in normal form if it is so for at least two parts. -/
theorem isNormal_junction (join : List Predicate → Predicate) {unit : Predicate}
    (hunit : unit.IsNormal) (hkept : ∀ p ∈ kept, p.IsNormal)
    (hjoin : 2 ≤ kept.length → (join kept).IsNormal) :
    (match kept with
      | [] => unit
      | [p] => p
      | kept => join kept).IsNormal := by
  match kept with
  | [] => exact hunit
  | [p] => exact hkept p (List.mem_singleton_self p)
  | p :: q :: rest => exact hjoin (by simp)

theorem IsNormal.allOf (h : ∀ p ∈ parts, p.IsNormal) : (allOf parts).IsNormal := by
  rw [Predicate.allOf]
  split_ifs with hnone
  · exact .matchNone
  · have hplain : ∀ p ∈ parts.filter fun p => !p.isAll, p ≠ .matchAll ∧ p ≠ .matchNone := by
      intro p hp
      obtain ⟨hmem, hall⟩ := List.mem_filter.1 hp
      refine ⟨isAll_eq_false_iff.1 (by simpa using hall), isNone_eq_false_iff.1 ?_⟩
      simpa using List.any_eq_false.1 (Bool.eq_false_iff.2 hnone) p hmem
    have hkept : ∀ p ∈ parts.filter fun p => !p.isAll, p.IsNormal :=
      fun p hp => h p (List.mem_of_mem_filter hp)
    exact isNormal_junction .conj .matchAll hkept fun htwo => .conj htwo hplain hkept

theorem IsNormal.anyOf (h : ∀ p ∈ parts, p.IsNormal) : (anyOf parts).IsNormal := by
  rw [Predicate.anyOf]
  split_ifs with hall
  · exact .matchAll
  · have hplain : ∀ p ∈ parts.filter fun p => !p.isNone, p ≠ .matchAll ∧ p ≠ .matchNone := by
      intro p hp
      obtain ⟨hmem, hnone⟩ := List.mem_filter.1 hp
      refine ⟨isAll_eq_false_iff.1 ?_, isNone_eq_false_iff.1 (by simpa using hnone)⟩
      simpa using List.any_eq_false.1 (Bool.eq_false_iff.2 hall) p hmem
    have hkept : ∀ p ∈ parts.filter fun p => !p.isNone, p.IsNormal :=
      fun p hp => h p (List.mem_of_mem_filter hp)
    exact isNormal_junction .disj .matchNone hkept fun htwo => .disj htwo hplain hkept

/-- Predicates that are put together are in normal form. -/
theorem IsBuiltOn.isNormal (hp : p.IsBuiltOn q) : p.IsNormal := by
  induction hp with
  | matchAll => exact .matchAll
  | matchNone => exact .matchNone
  | equals _ v => exact .equals _ v
  | fieldIn _ hp => exact isNormal_fieldIn hp
  | allOf _ ih => exact .allOf ih
  | anyOf _ ih => exact .anyOf ih

/-- In normal form, only the constant is satisfied by an empty record. -/
theorem IsNormal.eval_empty (hp : p.IsNormal) (hall : p ≠ .matchAll) :
    p.eval (.record []) = .ok false := by
  induction hp with
  | matchAll => exact absurd rfl hall
  | matchNone => rfl
  | equals field v => rfl
  | among field _ _ => rfl
  | @conj parts htwo hplain _ ih =>
    -- There is a part, and it is not satisfied.
    have hparts : evalAll parts (.record []) = .ok (parts.all fun _ => false) :=
      evalAll_eq fun p hp => ih p hp (hplain p hp).1
    obtain ⟨p, q, rest, rfl⟩ := exists_eq_cons_cons htwo
    exact hparts
  | @disj parts _ hplain _ ih =>
    have hparts : evalAny parts (.record []) = .ok (parts.any fun _ => false) :=
      evalAny_eq fun p hp => ih p hp (hplain p hp).1
    rw [eval, hparts, List.any_eq_false.2 fun _ _ => Bool.false_ne_true]

/-! ## Fields -/

/-- Whether a predicate looks at a field. -/
inductive LooksAt (field : String) : Predicate → Prop
  | equals (v : Value) : LooksAt field (equals field v)
  | among (values : List Value) : LooksAt field (among field values)
  | conj {parts : List Predicate} {p : Predicate} (hp : p ∈ parts) (h : LooksAt field p) :
    LooksAt field (conj parts)
  | disj {parts : List Predicate} {p : Predicate} (hp : p ∈ parts) (h : LooksAt field p) :
    LooksAt field (disj parts)

theorem LooksAt.eq_of_fieldIn {name : String} (hp : fieldIn name values = .ok p)
    (h : p.LooksAt field) : field = name := by
  rw [fieldIn] at hp
  split_ifs at hp
  cases hp
  match hdistinct : distinctValues values with
  | [] => rw [hdistinct] at h; cases h
  | [v] => rw [hdistinct] at h; cases h; rfl
  | v :: w :: rest => rw [hdistinct] at h; cases h; rfl

theorem LooksAt.exists_of_allOf (h : (allOf parts).LooksAt field) :
    ∃ p ∈ parts, p.LooksAt field := by
  rw [Predicate.allOf] at h
  split_ifs at h
  · cases h
  · split at h
    · cases h
    · rename_i p hp
      exact ⟨p, List.mem_of_mem_filter (hp ▸ List.mem_singleton_self p), h⟩
    · cases h with
      | conj hp h => exact ⟨_, List.mem_of_mem_filter hp, h⟩

theorem LooksAt.exists_of_anyOf (h : (anyOf parts).LooksAt field) :
    ∃ p ∈ parts, p.LooksAt field := by
  rw [Predicate.anyOf] at h
  split_ifs at h
  · cases h
  · split at h
    · cases h
    · rename_i p hp
      exact ⟨p, List.mem_of_mem_filter (hp ▸ List.mem_singleton_self p), h⟩
    · cases h with
      | disj hp h => exact ⟨_, List.mem_of_mem_filter hp, h⟩

/-- A disjunction that is not satisfied by every record anyway looks where its parts look. -/
theorem LooksAt.anyOf (hall : ∀ p ∈ parts, p ≠ .matchAll) (hp : p ∈ parts)
    (h : p.LooksAt field) : (anyOf parts).LooksAt field := by
  have hnot : parts.any isAll = false :=
    List.any_eq_false.2 fun p hp => by simp [isAll_eq_false_iff.2 (hall p hp)]
  have hkept : p ∈ parts.filter fun p => !p.isNone := by
    refine List.mem_filter.2 ⟨hp, ?_⟩
    cases h <;> rfl
  rw [Predicate.anyOf, hnot, if_neg Bool.false_ne_true]
  split
  · rename_i hnil
    exact absurd hkept (hnil ▸ List.not_mem_nil)
  · rename_i p' hone
    rw [hone, List.mem_singleton] at hkept
    exact hkept ▸ h
  · exact .disj hkept h

/-- A predicate that is put together looks only where its tests look. -/
theorem IsBuiltOn.of_looksAt (hp : p.IsBuiltOn q) (h : p.LooksAt field) : q field := by
  induction hp with
  | matchAll => cases h
  | matchNone => cases h
  | equals hq v =>
    cases h
    exact hq
  | fieldIn hq hp => exact h.eq_of_fieldIn hp ▸ hq
  | allOf _ ih =>
    obtain ⟨p, hp, h⟩ := h.exists_of_allOf
    exact ih p hp h
  | anyOf _ ih =>
    obtain ⟨p, hp, h⟩ := h.exists_of_anyOf
    exact ih p hp h

/-! ## Documents -/

theorem isBuiltOn_ofConstant {name : Value} (h : ofConstant name = .ok p) : p.IsBuiltOn q := by
  rw [ofConstant] at h
  split_ifs at h
  · cases h
    exact .matchAll
  · cases h
    exact .matchNone

theorem isBuiltOn_ofTest (hq : ∀ field, q field) {document : Fields}
    (h : ofTest document = .ok p) : p.IsBuiltOn q := by
  rw [ofTest] at h
  split at h
  · cases h
  · split at h
    · cases h
      exact .equals (hq _) _
    · exact .fieldIn (hq _) h
    · cases h
    · cases h

mutual

/-- Documents stand for predicates that are put together. -/
theorem isBuiltOn_ofValue (hq : ∀ field, q field) : ∀ {v : Value} {p : Predicate},
    ofValue v = .ok p → p.IsBuiltOn q
  | .record document, p, h => by
    rw [ofValue] at h
    split at h
    · exact isBuiltOn_ofConstant h
    · split at h
      · rename_i parts hparts
        obtain ⟨ps, rfl, hps⟩ := bind_eq_ok_iff.1 h
        cases hps
        exact .allOf (isBuiltOn_ofEntry hq hparts)
      · split at h
        · rename_i parts hparts
          obtain ⟨ps, rfl, hps⟩ := bind_eq_ok_iff.1 h
          cases hps
          exact .anyOf (isBuiltOn_ofEntry hq hparts)
        · exact isBuiltOn_ofTest hq h

theorem isBuiltOn_ofEntry (hq : ∀ field, q field) : ∀ {name : String}
    {document : List (String × Value)} {ps : List Predicate},
    ofEntry name document = some (.ok ps) → ∀ p ∈ ps, p.IsBuiltOn q
  | name, (key, parts) :: rest, ps, h => by
    rw [ofEntry] at h
    split_ifs at h
    · exact isBuiltOn_ofParts hq (Option.some.inj h)
    · exact isBuiltOn_ofEntry hq h

theorem isBuiltOn_ofParts (hq : ∀ field, q field) : ∀ {v : Value} {ps : List Predicate},
    ofParts v = .ok ps → ∀ p ∈ ps, p.IsBuiltOn q
  | .list documents, ps, h => isBuiltOn_ofItems hq (by rwa [ofParts] at h)

theorem isBuiltOn_ofItems (hq : ∀ field, q field) : ∀ {documents : List Value}
    {ps : List Predicate}, ofItems documents = .ok ps → ∀ p ∈ ps, p.IsBuiltOn q
  | [], ps, h => by
    cases h
    exact fun p hp => absurd hp List.not_mem_nil
  | v :: vs, ps, h => by
    rw [ofItems] at h
    obtain ⟨p, hp, h⟩ := bind_eq_ok_iff.1 h
    obtain ⟨rest, hrest, h⟩ := bind_eq_ok_iff.1 h
    cases h
    exact List.forall_mem_cons.2 ⟨isBuiltOn_ofValue hq hp, isBuiltOn_ofItems hq hrest⟩

end

/-- Documents stand for predicates without foreign parts. -/
theorem isProper_ofValue {v : Value} (h : ofValue v = .ok p) : p.IsProper :=
  (isBuiltOn_ofValue (fun _ => trivial) h : p.IsBuiltOn fun _ => True).isNormal.isProper

end StaffAccess.Predicate

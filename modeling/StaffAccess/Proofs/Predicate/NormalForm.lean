import StaffAccess.Proofs.Predicate.Evaluation

/-!
# Normal form of predicates

The simplifying constructors leave out what decides nothing. A predicate in which there is nothing
to leave out is in normal form: every junction has at least two parts and no constant among them,
and every list of values at least two, all different. On such parts the constructors only put
together.

* `Predicate.IsNormal`: the predicates in normal form.
* `Predicate.simplified`: a predicate put together anew by the simplifying constructors.
* `Predicate.IsNormal.simplified_eq`: in normal form nothing is simplified.
-/

namespace StaffAccess.Predicate

/-- The predicates in normal form. -/
inductive IsNormal : Predicate → Prop
  | matchAll : IsNormal matchAll
  | matchNone : IsNormal matchNone
  | equals (field : String) (v : Value) : IsNormal (equals field v)
  | among (field : String) {vs : List Value} (htwo : 2 ≤ vs.length)
      (hdistinct : vs.Pairwise fun v w => v.same w = false) : IsNormal (among field vs)
  | conj {parts : List Predicate} (htwo : 2 ≤ parts.length)
      (hplain : ∀ p ∈ parts, p ≠ .matchAll ∧ p ≠ .matchNone)
      (h : ∀ p ∈ parts, IsNormal p) : IsNormal (conj parts)
  | disj {parts : List Predicate} (htwo : 2 ≤ parts.length)
      (hplain : ∀ p ∈ parts, p ≠ .matchAll ∧ p ≠ .matchNone)
      (h : ∀ p ∈ parts, IsNormal p) : IsNormal (disj parts)

/-! ## Constructors -/

theorem isAll_eq_false_iff {p : Predicate} : p.isAll = false ↔ p ≠ matchAll := by
  cases p <;> simp [isAll]

theorem isNone_eq_false_iff {p : Predicate} : p.isNone = false ↔ p ≠ matchNone := by
  cases p <;> simp [isNone]

theorem exists_eq_cons_cons {α : Type} {l : List α} (h : 2 ≤ l.length) :
    ∃ a b rest, l = a :: b :: rest := by
  obtain _ | ⟨a, _ | ⟨b, rest⟩⟩ := l
  · exact absurd h (by simp)
  · exact absurd h (by simp)
  · exact ⟨a, b, rest, rfl⟩

variable {parts : List Predicate} {values kept : List Value}

theorem allOf_eq_conj (htwo : 2 ≤ parts.length)
    (hplain : ∀ p ∈ parts, p ≠ matchAll ∧ p ≠ matchNone) : allOf parts = conj parts := by
  have hnone : parts.any isNone = false :=
    List.any_eq_false.2 fun p hp => by simp [isNone_eq_false_iff.2 (hplain p hp).2]
  have hkept : (parts.filter fun p => !p.isAll) = parts :=
    List.filter_eq_self.2 fun p hp => by simp [isAll_eq_false_iff.2 (hplain p hp).1]
  rw [allOf, hnone, if_neg Bool.false_ne_true, hkept]
  obtain ⟨p, q, rest, rfl⟩ := exists_eq_cons_cons htwo
  rfl

theorem anyOf_eq_disj (htwo : 2 ≤ parts.length)
    (hplain : ∀ p ∈ parts, p ≠ matchAll ∧ p ≠ matchNone) : anyOf parts = disj parts := by
  have hall : parts.any isAll = false :=
    List.any_eq_false.2 fun p hp => by simp [isAll_eq_false_iff.2 (hplain p hp).1]
  have hkept : (parts.filter fun p => !p.isNone) = parts :=
    List.filter_eq_self.2 fun p hp => by simp [isNone_eq_false_iff.2 (hplain p hp).2]
  rw [anyOf, hall, if_neg Bool.false_ne_true, hkept]
  obtain ⟨p, q, rest, rfl⟩ := exists_eq_cons_cons htwo
  rfl

theorem foldl_distinct_eq_append
    (h : (kept ++ values).Pairwise fun v w => v.same w = false) :
    values.foldl (fun kept v => if kept.any (·.same v) then kept else kept ++ [v]) kept =
      kept ++ values := by
  induction values generalizing kept with
  | nil => simp
  | cons v values ih =>
    have hnew : kept.any (·.same v) = false := List.any_eq_false.2 fun k hk => by
      simp [(List.pairwise_append.1 h).2.2 k hk v List.mem_cons_self]
    rw [List.foldl_cons, hnew, if_neg Bool.false_ne_true, ih (by simpa using h)]
    simp

theorem distinctValues_eq_self (h : values.Pairwise fun v w => v.same w = false) :
    distinctValues values = values :=
  foldl_distinct_eq_append h

theorem ofDistinct_eq_among (field : String) (htwo : 2 ≤ values.length) :
    ofDistinct field values = among field values := by
  obtain ⟨v, w, rest, rfl⟩ := exists_eq_cons_cons htwo
  rfl

/-! ## Simplification -/

mutual

/-- The predicate put together anew by the simplifying constructors. -/
def simplified : Predicate → Predicate
  | matchAll => matchAll
  | matchNone => matchNone
  | equals field v => equals field v
  | among field vs => ofDistinct field (distinctValues vs)
  | conj parts => allOf (simplifiedAll parts)
  | disj parts => anyOf (simplifiedAll parts)
  | foreign part => foreign part

/-- Some predicates, each put together anew. -/
def simplifiedAll : List Predicate → List Predicate
  | [] => []
  | p :: ps => p.simplified :: simplifiedAll ps

end

theorem simplifiedAll_eq_map (ps : List Predicate) : simplifiedAll ps = ps.map simplified := by
  induction ps with
  | nil => rfl
  | cons p ps ih => rw [simplifiedAll, ih, List.map_cons]

theorem simplifiedAll_eq_self (h : ∀ p ∈ parts, p.simplified = p) :
    simplifiedAll parts = parts := by
  rw [simplifiedAll_eq_map, List.map_congr_left h, List.map_id']

/-- In normal form nothing is simplified. -/
theorem IsNormal.simplified_eq {p : Predicate} (hp : p.IsNormal) : p.simplified = p := by
  induction hp with
  | matchAll => rfl
  | matchNone => rfl
  | equals field v => rfl
  | among field htwo hdistinct =>
    rw [simplified, distinctValues_eq_self hdistinct, ofDistinct_eq_among field htwo]
  | conj htwo hplain _ ih =>
    rw [simplified, simplifiedAll_eq_self ih, allOf_eq_conj htwo hplain]
  | disj htwo hplain _ ih =>
    rw [simplified, simplifiedAll_eq_self ih, anyOf_eq_disj htwo hplain]

end StaffAccess.Predicate

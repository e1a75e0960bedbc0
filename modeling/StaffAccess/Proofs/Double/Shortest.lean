import StaffAccess.Proofs.Double.Rounding

/-!
# The shortest decimal rounds to its double

The search for the shortest decimal of a double ends with a decimal in the range of the double.
Its last step is a power of ten that is no more than a quarter of a gap, so the multiple of it just
below the double is in the range. That the last step is as fine as that is a matter of one
comparison for each of the 2098 leading bits that a double can have.

Reading a decimal rounds it, after the magnitudes far outside of the range of doubles have been
settled. No decimal in the range of a double has such a magnitude.

* `Double.shortest_spec`: the decimal that is found is in the range.
* `Double.ofDecimal_of_holds`: a decimal in the range is read as the double.
-/

namespace StaffAccess.Double

/-! ## Powers of ten -/

theorem one_pos : 0 < one := by decide +kernel

theorem powerOfTen_fst_pos (exponent : Int) : 0 < (powerOfTen exponent).1 := by
  have hone : 0 < 4 * one := Nat.mul_pos (by decide) one_pos
  rw [powerOfTen]
  split_ifs
  · exact Nat.mul_pos (Nat.pow_pos (by decide)) hone
  · exact hone

theorem powerOfTen_snd_pos (exponent : Int) : 0 < (powerOfTen exponent).2 := by
  rw [powerOfTen]
  split_ifs
  · exact Nat.one_pos
  · exact Nat.pow_pos (by decide)

/-! ## The search -/

variable {u : Nat} {exponent : Int} {d : Decimal}

/-- Every multiple that is found is in the range. -/
theorem Range.multiple?_holds {r : Range} (h : r.multiple? exponent = some d) :
    d.exponent = exponent ∧
      r.Holds (d.digits * (powerOfTen exponent).1) (powerOfTen exponent).2 := by
  simp only [Range.multiple?] at h
  generalize (powerOfTen exponent).1 = num at h ⊢
  generalize (powerOfTen exponent).2 = den at h ⊢
  generalize r.middle * den / num = count at h
  cases hlower : r.contains num den count <;> cases hupper : r.contains num den (count + 1) <;>
    rw [hlower, hupper] at h <;> dsimp only at h
  · cases h
  · cases h
    exact ⟨rfl, Range.holds_iff_contains.1 hupper⟩
  · cases h
    exact ⟨rfl, Range.holds_iff_contains.1 hlower⟩
  · cases h
    refine ⟨rfl, Range.holds_iff_contains.1 ?_⟩
    dsimp only
    split_ifs
    · exact hupper
    · exact hlower

/-- Among the multiples of a power of ten that is no more than a quarter of a gap, one is found. -/
theorem Range.exists_multiple? (hu : u ≠ 0)
    (hfine : (powerOfTen exponent).1 ≤ gap u * (powerOfTen exponent).2) :
    ∃ d, (range u).multiple? exponent = some d := by
  have hnum := powerOfTen_fst_pos exponent
  have hden := powerOfTen_snd_pos exponent
  simp only [Range.multiple?]
  generalize (powerOfTen exponent).1 = num at hfine hnum ⊢
  generalize (powerOfTen exponent).2 = den at hfine hden ⊢
  have hlower : (range u).contains num den ((range u).middle * den / num) = true := by
    rw [Range.holds_iff_contains, Range.Holds]
    -- The multiple just below `u` is less than a quarter of a gap away, and every range goes down
    -- as far as that.
    have hmiddle : (range u).middle * den = 4 * (u * den) := Nat.mul_assoc ..
    have hself := Nat.mul_le_mul_right den (gap_le_self hu)
    have hpos := Nat.mul_pos (gap_pos u) hden
    have hlow : (range u).low * den ≤ 4 * (u * den) - gap u * den := by
      rw [range_low, ← Nat.mul_assoc, ← Nat.sub_mul]
      exact Nat.mul_le_mul_right den (by split_ifs <;> omega)
    have hhigh : (range u).high * den = 4 * (u * den) + 2 * (gap u * den) := by
      rw [range_high, Nat.add_mul, Nat.mul_assoc, Nat.mul_assoc]
    have hdiv := Nat.div_add_mod (4 * (u * den)) num
    have hmod := Nat.mod_lt (4 * (u * den)) hnum
    rw [hmiddle, Nat.mul_comm _ num]
    split <;> constructor <;> omega
  rw [hlower]
  cases (range u).contains num den ((range u).middle * den / num + 1) <;> exact ⟨_, rfl⟩

/-- Where the search starts for a number with so many bits behind the leading one. -/
def searchStart (bits : Nat) : Int := ((bits : Int) - 1073) * 30103 / 100000 + 2

/-- The last step of the search is no more than a quarter of a gap. -/
theorem powerOfTen_searchEnd_le : ∀ bits < 2098,
    (powerOfTen (searchStart bits - 21)).1 ≤
      2 ^ (bits + 1 - 53) * (powerOfTen (searchStart bits - 21)).2 := by
  decide +kernel

theorem one_eq : one = 2 ^ 1074 := by decide +kernel

theorem bound_eq : bound = 2 ^ 2098 := by decide +kernel

theorem log2_lt_of_lt_bound {q : Nat} (hu : u ≠ 0) (hbound : u < bound) (hq : bound = 2 ^ q) :
    u.log2 < q := (Nat.log2_lt hu).2 (hq ▸ hbound)

theorem shortest_eq (hu : u ≠ 0) : shortest u = ((List.range 22).findSome? fun i =>
    (range u).multiple? (searchStart u.log2 - (i : Nat))).getD ⟨0, 0⟩ := by
  rw [shortest, if_neg hu]
  rfl

/-- The shortest decimal of a double is in the range of the double, and its exponent is not far
    below those of doubles. -/
theorem shortest_spec (hu : u ≠ 0) (hrounded : IsRounded u) :
    (range u).Holds ((shortest u).digits * (powerOfTen (shortest u).exponent).1)
        (powerOfTen (shortest u).exponent).2 ∧
      -344 ≤ (shortest u).exponent := by
  have hlog := log2_lt_of_lt_bound hu hrounded.2 bound_eq
  rw [shortest_eq hu]
  cases hfound : (List.range 22).findSome? fun i =>
      (range u).multiple? (searchStart u.log2 - (i : Nat)) with
  | none =>
    -- The last power of ten is fine enough, so the search cannot have come to nothing.
    obtain ⟨d, hd⟩ := Range.exists_multiple? hu (powerOfTen_searchEnd_le _ hlog)
    rw [List.findSome?_eq_none_iff] at hfound
    cases hd.symm.trans (hfound 21 (by decide))
  | some d =>
    obtain ⟨i, hi, hd⟩ := List.exists_of_findSome?_eq_some hfound
    obtain ⟨hexponent, hholds⟩ := Range.multiple?_holds hd
    rw [List.mem_range] at hi
    rw [Option.getD_some, hexponent]
    refine ⟨hholds, ?_⟩
    rw [searchStart]
    omega

/-! ## Reading decimals -/

theorem range_high_le (hu : u ≠ 0) (hrounded : IsRounded u) : (range u).high ≤ 8 * bound := by
  have hself := gap_le_self hu
  have hbound := hrounded.2
  rw [range_high]
  omega

/-- A number in the range of a double is not zero. -/
theorem Range.Holds.pos {num den : Nat} (h : (range u).Holds num den) (hu : u ≠ 0)
    (hden : 0 < den) : 0 < num := by
  have hself := gap_le_self hu
  have hlow : 0 < (range u).low := by
    rw [range_low]
    split_ifs <;> omega
  exact (Nat.mul_pos hlow hden).trans_le h.le.1

/-- Only zero is written as zero, unless the search comes to nothing. -/
theorem digits_shortest_ne_zero (u : Nat) :
    (shortest u).digits ≠ 0 ∨ shortest u = shortest 0 := by
  by_cases hu : u = 0
  · exact .inr (by rw [hu])
  rw [shortest_eq hu]
  cases hfound : (List.range 22).findSome? fun i =>
      (range u).multiple? (searchStart u.log2 - (i : Nat)) with
  | none => exact .inr rfl
  | some d =>
    obtain ⟨i, -, hd⟩ := List.exists_of_findSome?_eq_some hfound
    have hpos := (Range.multiple?_holds hd).2.pos hu (powerOfTen_snd_pos _)
    exact .inl (Nat.pos_of_mul_pos_right hpos).ne'

theorem le_of_two_pow_mul_le {a b p q : Nat} (hone : one = 2 ^ p) (hbound : bound = 2 ^ q)
    (h : 2 ^ a * (4 * one) ≤ 8 * bound * 2 ^ b) : a + (2 + p) ≤ 3 + q + b := by
  rw [← Nat.pow_le_pow_iff_right (Nat.one_lt_two), Nat.pow_add, Nat.pow_add _ 2,
    Nat.pow_add _ _ b, Nat.pow_add _ 3, ← hone, ← hbound, show 2 ^ 2 = 4 from rfl,
    show 2 ^ 3 = 8 from rfl]
  exact h

/-- The estimate of a decimal in the range of a double is not far outside of the range of doubles.
    Ten lies between eight and sixteen, so that powers of two give bounds that are good enough. -/
theorem size_of_holds {digits : Nat} (hu : u ≠ 0) (hrounded : IsRounded u) (hdigits : digits ≠ 0)
    (hlow : -344 ≤ exponent) (h : (range u).Holds (digits * (powerOfTen exponent).1)
      (powerOfTen exponent).2) :
    (digits.log2 : Int) * 30103 / 100000 + exponent ≤ 400 := by
  have hhigh := h.le.2.trans (Nat.mul_le_mul_right _ (range_high_le hu hrounded))
  have hself := Nat.log2_self_le hdigits
  rw [powerOfTen] at hhigh
  split_ifs at hhigh with hnonneg
  · -- Ten is at least eight, so the decimal is no less than a power of two.
    obtain ⟨k, rfl⟩ := Int.eq_ofNat_of_zero_le hnonneg
    have hpow : 2 ^ (digits.log2 + 3 * k) * (4 * one) ≤ 8 * bound * 2 ^ 0 :=
      calc 2 ^ (digits.log2 + 3 * k) * (4 * one)
        _ = 2 ^ digits.log2 * (8 ^ k * (4 * one)) := by
          rw [Nat.pow_add, Nat.pow_mul, Nat.mul_assoc]
        _ ≤ digits * (10 ^ k * (4 * one)) :=
          Nat.mul_le_mul hself (Nat.mul_le_mul_right _ (Nat.pow_le_pow_left (by decide) k))
        _ ≤ 8 * bound * 2 ^ 0 := by rwa [Nat.pow_zero]
    have := le_of_two_pow_mul_le one_eq bound_eq hpow
    omega
  · -- Ten is at most sixteen, so the division makes it smaller by no more than a power of two.
    obtain ⟨k, rfl⟩ : ∃ k : Nat, exponent = -k := ⟨exponent.natAbs, by omega⟩
    rw [Int.neg_neg, Int.toNat_natCast] at hhigh
    have hpow : 2 ^ digits.log2 * (4 * one) ≤ 8 * bound * 2 ^ (4 * k) :=
      calc 2 ^ digits.log2 * (4 * one)
        _ ≤ digits * (4 * one) := Nat.mul_le_mul_right _ hself
        _ ≤ 8 * bound * 10 ^ k := hhigh
        _ ≤ 8 * bound * 2 ^ (4 * k) := by
          rw [Nat.pow_mul]
          exact Nat.mul_le_mul_left _ (Nat.pow_le_pow_left (by decide) k)
    have := le_of_two_pow_mul_le one_eq bound_eq hpow
    omega

/-- A decimal in the range of a double is read as the double. -/
theorem ofDecimal_of_holds (negative : Bool) {digits : Nat} (hu : u ≠ 0) (hrounded : IsRounded u)
    (hlow : -344 ≤ exponent) (h : (range u).Holds (digits * (powerOfTen exponent).1)
      (powerOfTen exponent).2) : ofDecimal negative digits exponent = finite negative u := by
  have hdigits : digits ≠ 0 := by
    rintro rfl
    have := h.pos hu (powerOfTen_snd_pos _)
    omega
  have hsize := size_of_holds hu hrounded hdigits hlow h
  -- Neither of the two estimates that settle a decimal without a quotient applies.
  rw [ofDecimal, if_neg hdigits]
  dsimp only
  rw [if_neg (by omega), if_neg (by omega)]
  rw [powerOfTen] at h
  split_ifs at h ⊢
  · refine ofRatio_of_holds negative hu hrounded Nat.one_pos ?_
    rwa [show 4 * (digits * Nat.pow 10 exponent.toNat * one) =
      digits * (Nat.pow 10 exponent.toNat * (4 * one)) by ring]
  · refine ofRatio_of_holds negative hu hrounded (Nat.pow_pos (by decide)) ?_
    rwa [show 4 * (digits * one) = digits * (4 * one) by ring]

end StaffAccess.Double

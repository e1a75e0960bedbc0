import StaffAccess.Double.Shortest
import Mathlib.Tactic.Linarith
import Mathlib.Tactic.Ring

/-!
# Rounding to a double

Rounding a quotient gives a double exactly if the quotient lies in the range of the double. Only
one direction is needed: every number in the range rounds to the double that the range is of.

A quotient in the range of `u` has the gap of `u`, except just below a power of two, where the
gap is half of that. In units of its gap, the quotient is then at most one half away from `u`,
and one half only if `u` is an even number of gaps.

* `Double.IsRepresentable`: the doubles whose leading bits are few enough.
* `Double.Range.Holds`: whether a quotient lies in a range.
* `Double.ofRatio_of_holds`: quotients in a range round to its double.
-/

namespace StaffAccess.Double

/-- Whether so many units are those of a double. -/
def IsRounded (units : Nat) : Prop := gap units ∣ units ∧ units < bound

/-- Whether a double is one of those that there are. -/
def IsRepresentable : Double → Prop
  | finite _ units => IsRounded units
  | _ => True

/-! ## Gaps -/

theorem gap_pos (n : Nat) : 0 < gap n := Nat.two_pow_pos _

theorem gap_congr {m n : Nat} (hlow : 2 ^ n.log2 ≤ m) (hhigh : m < 2 ^ (n.log2 + 1)) :
    gap m = gap n := by
  have hm : m ≠ 0 := by
    have := Nat.two_pow_pos n.log2
    omega
  rw [gap, gap, (Nat.log2_eq_iff hm).2 ⟨hlow, hhigh⟩]

theorem log2_mono {m n : Nat} (h : m ≤ n) : m.log2 ≤ n.log2 := by
  rcases Nat.eq_zero_or_pos m with rfl | hm
  · rw [Nat.log2_zero]
    exact Nat.zero_le _
  · exact (Nat.le_log2 (by omega)).2 ((Nat.log2_self_le (by omega)).trans h)

/-- Multiples of a gap are a gap apart. -/
theorem add_le_of_dvd {a b d : Nat} (ha : d ∣ a) (hb : d ∣ b) (h : a < b) : a + d ≤ b := by
  have := Nat.le_of_dvd (Nat.sub_pos_of_lt h) (Nat.dvd_sub hb ha)
  omega

variable {u num den : Nat}

theorem add_gap_le (hu : u ≠ 0) (hgap : gap u ∣ u) : u + gap u ≤ 2 ^ (u.log2 + 1) :=
  add_le_of_dvd hgap (Nat.pow_dvd_pow 2 (by omega)) ((Nat.log2_lt hu).1 (Nat.lt_succ_self _))

theorem gap_dvd_two_pow (u : Nat) : gap u ∣ 2 ^ u.log2 := Nat.pow_dvd_pow 2 (by omega)

theorem gap_le_self (hu : u ≠ 0) : gap u ≤ u :=
  (Nat.pow_le_pow_right (by decide) (by omega)).trans (Nat.log2_self_le hu)

/-! ## Nearest numbers -/

/-- The nearest whole number is one half away at most, and only an even one is one half away. -/
theorem nearest_eq {m : Nat} (hden : 0 < den) (hlow : 2 * (m * den) ≤ 2 * num + den)
    (hhigh : 2 * num ≤ 2 * (m * den) + den)
    (htie : 2 * (m * den) = 2 * num + den ∨ 2 * num = 2 * (m * den) + den → m % 2 = 0) :
    nearest num den = m := by
  have hnum := Nat.div_add_mod num den
  have hmod := Nat.mod_lt num hden
  rw [mul_comm] at hnum
  simp only [nearest]
  generalize num / den = low at hnum ⊢
  generalize num % den = rest at hnum hmod ⊢
  -- `m` can only be one of the two neighbours of the quotient: from any other number, the
  -- quotient is more than one half away.
  have hle : low ≤ m := by
    by_contra hlt
    have : (m + 1) * den ≤ low * den := Nat.mul_le_mul_right den (by omega)
    rw [Nat.add_mul] at this
    omega
  have hge : m ≤ low + 1 := by
    by_contra hlt
    have : (low + 2) * den ≤ m * den := Nat.mul_le_mul_right den (by omega)
    rw [Nat.add_mul] at this
    omega
  rcases Nat.eq_or_lt_of_le hle with rfl | hlt
  · split_ifs with h₁ h₂ h₃
    · rfl
    · omega
    · rfl
    · exact absurd (htie (.inr (by omega))) h₃
  · obtain rfl : m = low + 1 := by omega
    rw [Nat.add_mul] at hlow hhigh htie
    split_ifs with h₁ h₂ h₃
    · omega
    · rfl
    · have := htie (.inl (by omega))
      omega
    · rfl

/-! ## Ranges -/

/-- Whether the quotient `num / den`, in quarters of a unit, lies in a range. -/
def Range.Holds (r : Range) (num den : Nat) : Prop :=
  if r.closed then r.low * den ≤ num ∧ num ≤ r.high * den
  else r.low * den < num ∧ num < r.high * den

namespace Range

variable {r : Range} {count : Nat}

theorem holds_iff_contains : r.contains num den count = true ↔ r.Holds (count * num) den := by
  rw [contains, Holds]
  split <;> simp

theorem Holds.le (h : r.Holds num den) : r.low * den ≤ num ∧ num ≤ r.high * den := by
  rw [Holds] at h
  split at h
  · exact h
  · exact ⟨h.1.le, h.2.le⟩

/-- An end that is reached belongs to the range. -/
theorem Holds.closed_of_eq (h : r.Holds num den) (hend : r.low * den = num ∨ num = r.high * den) :
    r.closed = true := by
  rw [Holds] at h
  split at h
  · assumption
  · omega

/-- Whether a quotient lies in a range does not depend on how it is written. -/
theorem Holds.congr {num' den' : Nat} (h : r.Holds num den) (hden : 0 < den) (hden' : 0 < den')
    (heq : num * den' = num' * den) : r.Holds num' den' := by
  have hle {n : Nat} : n * den ≤ num ↔ n * den' ≤ num' := by
    rw [← Nat.mul_le_mul_right_iff hden', heq, ← Nat.mul_le_mul_right_iff (n := n * den') hden]
    ring_nf
  have hge {n : Nat} : num ≤ n * den ↔ num' ≤ n * den' := by
    rw [← Nat.mul_le_mul_right_iff hden', heq, ← Nat.mul_le_mul_right_iff (n := num') hden]
    ring_nf
  rw [Holds] at h ⊢
  split at h
  · rw [if_pos ‹_›]
    exact ⟨hle.1 h.1, hge.1 h.2⟩
  · rw [if_neg ‹_›]
    exact ⟨Nat.lt_of_not_le (mt hge.2 (Nat.not_le.2 h.1)),
      Nat.lt_of_not_le (mt hle.2 (Nat.not_le.2 h.2))⟩

end Range

theorem range_high (u : Nat) : (range u).high = 4 * u + 2 * gap u := rfl

theorem range_low (u : Nat) : (range u).low =
    4 * u - if u = 2 ^ u.log2 ∧ 1 < gap u then gap u else 2 * gap u := rfl

theorem range_closed (h : (range u).closed = true) : u / gap u % 2 = 0 := of_decide_eq_true h

/-! ## Quotients in a range -/

/-- The gap of a quotient in the range of `u` divides `u`, the quotient is half a gap away from
    `u` at most, and if it is, then `u` is an even number of gaps. -/
structure IsNear (u num den : Nat) : Prop where
  dvd : gap (num / den) ∣ u
  low : 2 * (u * den) ≤ 2 * num + gap (num / den) * den
  high : 2 * num ≤ 2 * (u * den) + gap (num / den) * den
  tie : 2 * (u * den) = 2 * num + gap (num / den) * den ∨
    2 * num = 2 * (u * den) + gap (num / den) * den → u / gap (num / den) % 2 = 0

section Near

variable (hu : u ≠ 0) (hgap : gap u ∣ u) (hden : 0 < den)
  (h : (range u).Holds (4 * num) den)
include hu hgap hden h

theorem isNear_of_gap_eq (hlow : (range u).low = 4 * u - 2 * gap u ∨ u * den ≤ num)
    (heq : gap (num / den) = gap u) : IsNear u num den := by
  have hle := h.le
  have hself := Nat.mul_le_mul_right den (gap_le_self hu)
  have hpos := Nat.mul_pos (gap_pos u) hden
  rw [range_high, Nat.add_mul, Nat.mul_assoc, Nat.mul_assoc] at hle
  -- The quotient is at most half a gap below `u`, and if it is half a gap below, then it is
  -- the lower end of the range, which is not reached unless the range is closed.
  have hlow' : 2 * (u * den) ≤ 2 * num + gap u * den ∧
      (2 * (u * den) = 2 * num + gap u * den → (range u).low * den = 4 * num) := by
    rcases hlow with hlow | hlow
    · rw [hlow, Nat.sub_mul, Nat.mul_assoc, Nat.mul_assoc] at hle ⊢
      omega
    · omega
  refine ⟨heq ▸ hgap, ?_, ?_, ?_⟩
  · rw [heq]
    exact hlow'.1
  · rw [heq]
    omega
  · rw [heq]
    rintro (htie | htie)
    · exact range_closed (h.closed_of_eq (.inl (hlow'.2 htie)))
    · refine range_closed (h.closed_of_eq (.inr ?_))
      rw [range_high, Nat.add_mul, Nat.mul_assoc, Nat.mul_assoc]
      omega

/-- Above `u`, the gap is that of `u`. -/
theorem isNear_of_le (hle : u * den ≤ num) : IsNear u num den := by
  refine isNear_of_gap_eq hu hgap hden h (.inr hle) (gap_congr ?_ ?_)
  · exact (Nat.log2_self_le hu).trans ((Nat.le_div_iff_mul_le hden).2 hle)
  · rw [Nat.div_lt_iff_lt_mul hden]
    have hhigh := h.le.2
    have hend := Nat.mul_le_mul_right den (add_gap_le hu hgap)
    have hpos := Nat.mul_pos (gap_pos u) hden
    rw [range_high, Nat.add_mul, Nat.mul_assoc, Nat.mul_assoc] at hhigh
    rw [Nat.add_mul] at hend
    omega

/-- Below `u`, the gap is that of `u` if there is another double with the same leading bit. -/
theorem isNear_of_lt (hlt : num < u * den) (hpow : u ≠ 2 ^ u.log2) : IsNear u num den := by
  have hlow : (range u).low = 4 * u - 2 * gap u := by rw [range_low, if_neg fun hp => hpow hp.1]
  refine isNear_of_gap_eq hu hgap hden h (.inl hlow) (gap_congr ?_ ?_)
  · rw [Nat.le_div_iff_mul_le hden]
    have hend := Nat.mul_le_mul_right den (add_le_of_dvd (gap_dvd_two_pow u) hgap
      (lt_of_le_of_ne (Nat.log2_self_le hu) hpow.symm))
    have hle := h.le.1
    rw [hlow, Nat.sub_mul, Nat.mul_assoc, Nat.mul_assoc] at hle
    rw [Nat.add_mul] at hend
    omega
  · rw [Nat.div_lt_iff_lt_mul hden]
    exact hlt.trans_le (Nat.mul_le_mul_right den ((Nat.log2_lt hu).1 (Nat.lt_succ_self _)).le)

/-- Below a power of two without a smaller gap. -/
theorem isNear_of_lt_one (hlt : num < u * den) (hone : gap u = 1) : IsNear u num den := by
  have hlow : (range u).low = 4 * u - 2 * gap u := by rw [range_low, if_neg (by omega)]
  refine isNear_of_gap_eq hu hgap hden h (.inl hlow) ?_
  have hlog : (num / den).log2 ≤ u.log2 := log2_mono ((Nat.div_lt_iff_lt_mul hden).2 hlt).le
  have hzero : u.log2 + 1 - 53 = 0 := (Nat.pow_right_injective le_rfl).eq_iff.1 hone
  rw [gap, gap, hzero, show (num / den).log2 + 1 - 53 = 0 by omega]

/-- Just below a power of two, the gap is one half of that of `u`. -/
theorem isNear_of_lt_two_pow (hlt : num < u * den) (hpow : u = 2 ^ u.log2) (hone : 1 < gap u) :
    IsNear u num den := by
  obtain ⟨k, hk⟩ : ∃ k, u.log2 + 1 - 53 = k + 1 := by
    refine Nat.exists_eq_succ_of_ne_zero fun hzero => ?_
    rw [gap, hzero] at hone
    exact absurd hone (by decide)
  have hgapu : gap u = 2 * 2 ^ k := by rw [gap, hk, Nat.pow_eq, Nat.pow_succ, mul_comm]
  have hlow : (range u).low = 4 * u - gap u := by rw [range_low, if_pos ⟨hpow, hone⟩]
  have hle := h.le.1
  have hself := Nat.mul_le_mul_right den (gap_le_self hu)
  rw [hlow, Nat.sub_mul, Nat.mul_assoc] at hle
  -- The quotient has one bit less than `u`: it is below `u`, but not as far below as the power
  -- of two before `u`.
  have heq : gap (num / den) = 2 ^ k := by
    obtain ⟨l, hl⟩ : ∃ l, u.log2 = l + 1 := ⟨u.log2 - 1, by omega⟩
    rw [hl] at hpow
    have hle' : 2 ^ l ≤ num / den := by
      rw [Nat.le_div_iff_mul_le hden]
      have hmul : u * den = 2 * (2 ^ l * den) := by rw [hpow, Nat.pow_succ', Nat.mul_assoc]
      have hsmall : gap u * den ≤ 2 ^ l * den := by
        refine Nat.mul_le_mul_right den ?_
        rw [gap]
        exact Nat.pow_le_pow_right (by decide) (by omega)
      omega
    have hlt' : num / den < 2 ^ (l + 1) := by
      rw [← hpow, Nat.div_lt_iff_lt_mul hden]
      exact hlt
    have hlog : (num / den).log2 = l := by
      refine (Nat.log2_eq_iff fun hzero => ?_).2 ⟨hle', hlt'⟩
      exact absurd (hzero ▸ hle') (Nat.not_le.2 (Nat.two_pow_pos l))
    rw [gap, hlog]
    congr 1
    omega
  -- In gaps that are half as large, `u` is an even number.
  have hclosed : u / 2 ^ k % 2 = 0 := by
    obtain ⟨q, hq⟩ := hgap
    rw [hgapu, mul_assoc, mul_left_comm] at hq
    rw [hq, Nat.mul_div_cancel_left _ (Nat.two_pow_pos k), Nat.mul_mod_right]
  rw [hgapu, Nat.mul_assoc] at hle hself
  refine ⟨?_, ?_, ?_, ?_⟩ <;> rw [heq]
  · exact (Dvd.intro_left 2 hgapu.symm).trans hgap
  · omega
  · omega
  · exact fun _ => hclosed

theorem isNear_of_holds : IsNear u num den := by
  rcases Nat.lt_or_ge num (u * den) with hlt | hle
  · by_cases hpow : u = 2 ^ u.log2
    · rcases Nat.eq_or_lt_of_le (gap_pos u) with hone | hone
      · exact isNear_of_lt_one hu hgap hden h hlt hone.symm
      · exact isNear_of_lt_two_pow hu hgap hden h hlt hpow hone
    · exact isNear_of_lt hu hgap hden h hlt hpow
  · exact isNear_of_le hu hgap hden h hle

end Near

/-- Quotients in a range round to its double. -/
theorem ofRatio_of_holds (negative : Bool) (hu : u ≠ 0) (hrounded : IsRounded u) (hden : 0 < den)
    (h : (range u).Holds (4 * num) den) : ofRatio negative num den = finite negative u := by
  have hnear := isNear_of_holds hu hrounded.1 hden h
  -- In units of its gap, the quotient is one half away from `u` at most.
  have hcount : nearest num (den * gap (num / den)) = u / gap (num / den) := by
    have hmul : u / gap (num / den) * (den * gap (num / den)) = u * den := by
      rw [mul_comm den, ← mul_assoc, Nat.div_mul_cancel hnear.dvd]
    refine nearest_eq (Nat.mul_pos hden (gap_pos _)) ?_ ?_ ?_ <;> rw [hmul, mul_comm den]
    · exact hnear.low
    · exact hnear.high
    · exact hnear.tie
  rw [ofRatio, hcount, Nat.div_mul_cancel hnear.dvd, if_neg (Nat.not_le.2 hrounded.2)]

end StaffAccess.Double

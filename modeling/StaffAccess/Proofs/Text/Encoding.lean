import StaffAccess.Text.Encoding
import Mathlib.Tactic.Common

/-!
# Octets of texts

Texts are told apart by their octets. The octets of a character say where they end, so a text
starts like another one exactly if its octets do. Characters of one octet stand for themselves: no
other character has their octet among its own. And no text is known before its last octet.

* `Text.encode_prefix_iff`: texts that start alike.
* `Text.toUInt8_mem_encode_iff`: characters of one octet.
* `Text.exists_twin`: what remains open until the last octet.
-/

namespace StaffAccess.Text

variable {c d : Char} {b : UInt8} {s t : String}

@[simp] theorem encode_append (s t : String) : encode (s ++ t) = encode s ++ encode t := by
  simp [encode]

theorem encode_ofList (cs : List Char) : encode (String.ofList cs) = cs.flatMap encodeChar := by
  rw [encode, String.toList_ofList]

/-! ## Characters -/

theorem encodeChar_ne_nil (c : Char) : encodeChar c ≠ [] := by
  rw [encodeChar]
  dsimp only
  split_ifs <;> exact List.cons_ne_nil _ _

theorem ofNat_eq_ofNat_iff {m n : Nat} : UInt8.ofNat m = UInt8.ofNat n ↔ m % 256 = n % 256 := by
  rw [← UInt8.toNat_inj]
  simp

theorem char_toNat_lt (c : Char) : c.toNat < 0x110000 := by
  rcases c.valid with h | h
  · exact Nat.lt_trans h (by decide)
  · exact h.2

/-- The octets of a character say where they end. -/
theorem encodeChar_append_inj {x y : Octets} (h : encodeChar c ++ x = encodeChar d ++ y) :
    c = d ∧ x = y := by
  have hc := char_toNat_lt c
  have hd := char_toNat_lt d
  suffices hsame : c.toNat = d.toNat by
    obtain rfl := Char.toNat_inj.1 hsame
    exact ⟨rfl, List.append_cancel_left h⟩
  -- The first octet tells how many there are, and each of them gives some of the digits.
  simp only [encodeChar] at h
  split_ifs at h <;> simp only [List.cons_append, List.nil_append, List.cons.injEq,
    ofNat_eq_ofNat_iff] at h <;> omega

theorem encodeChar_of_lt (hc : c.toNat < 0x80) : encodeChar c = [c.toUInt8] := by
  rw [encodeChar]
  dsimp only
  rw [if_pos hc]
  rfl

/-- A character of one octet is the only one that has this octet. -/
theorem toUInt8_mem_encodeChar_iff (hc : c.toNat < 0x80) : c.toUInt8 ∈ encodeChar d ↔ c = d := by
  have hd := char_toNat_lt d
  constructor
  · intro h
    rw [show c.toUInt8 = UInt8.ofNat c.toNat from rfl, encodeChar] at h
    refine Char.toNat_inj.1 ?_
    dsimp only at h
    split_ifs at h <;> simp only [List.mem_cons, List.not_mem_nil, or_false,
      ofNat_eq_ofNat_iff] at h <;> omega
  · rintro rfl
    rw [encodeChar_of_lt hc]
    exact List.mem_singleton_self _

/-- The character beside a character, which differs from it by the last digit of its number. -/
theorem exists_encodeChar_dropLast_eq (c : Char) :
    ∃ d, d ≠ c ∧ (encodeChar d).dropLast = (encodeChar c).dropLast := by
  have hnumber : ∃ n : Nat, n.isValidChar ∧ n ≠ c.toNat ∧ n / 2 = c.toNat / 2 := by
    have hvalid : c.toNat.isValidChar := c.valid
    rw [Nat.isValidChar] at hvalid
    rcases Nat.mod_two_eq_zero_or_one c.toNat with heven | hodd
    · exact ⟨c.toNat + 1, by rw [Nat.isValidChar]; omega, by omega, by omega⟩
    · exact ⟨c.toNat - 1, by rw [Nat.isValidChar]; omega, by omega, by omega⟩
  obtain ⟨n, hvalid, hne, hhalf⟩ := hnumber
  have hn : (Char.ofNat n).toNat = n := by rw [Char.ofNat, dif_pos hvalid]; rfl
  refine ⟨.ofNat n, fun h => hne (by rw [← h, hn]), ?_⟩
  rw [encodeChar, encodeChar, hn]
  dsimp only
  split_ifs <;> simp only [List.dropLast_cons_cons, List.dropLast_singleton, List.cons.injEq,
    ofNat_eq_ofNat_iff, and_true] <;> omega

/-! ## Texts -/

theorem flatMap_encodeChar_prefix_iff {cs ds : List Char} :
    cs.flatMap encodeChar <+: ds.flatMap encodeChar ↔ cs <+: ds := by
  induction cs generalizing ds with
  | nil => simp
  | cons c cs ih =>
    cases ds with
    | nil => simp [encodeChar_ne_nil]
    | cons d ds =>
      rw [List.cons_prefix_cons, ← ih]
      constructor
      · rintro ⟨rest, hrest⟩
        rw [List.flatMap_cons, List.flatMap_cons, List.append_assoc] at hrest
        obtain ⟨hc, hcs⟩ := encodeChar_append_inj hrest
        exact ⟨hc, rest, hcs⟩
      · rintro ⟨rfl, h⟩
        exact (List.prefix_append_right_inj _).2 h

/-- A text starts like another one exactly if its octets do. -/
theorem encode_prefix_iff : encode s <+: encode t ↔ s.toList <+: t.toList :=
  flatMap_encodeChar_prefix_iff

/-- The octet of a character of one octet is found where the character is. -/
theorem toUInt8_mem_encode_iff (hc : c.toNat < 0x80) : c.toUInt8 ∈ encode s ↔ c ∈ s.toList := by
  rw [encode, List.mem_flatMap]
  constructor
  · rintro ⟨d, hd, hmem⟩
    exact (toUInt8_mem_encodeChar_iff hc).1 hmem ▸ hd
  · exact fun h => ⟨c, h, (toUInt8_mem_encodeChar_iff hc).2 rfl⟩

/-- Another text of the same length, which only the last octet tells apart from this one. -/
theorem exists_twin (hs : s.toList ≠ []) : ∃ t : String, t ≠ s ∧
    t.toList.length = s.toList.length ∧ (encode t).dropLast = (encode s).dropLast := by
  obtain ⟨cs, c, hcs⟩ := (List.eq_nil_or_concat s.toList).resolve_left hs
  obtain ⟨d, hne, hd⟩ := exists_encodeChar_dropLast_eq c
  refine ⟨String.ofList (cs ++ [d]), ?_, ?_, ?_⟩
  · rw [Ne, ← String.toList_inj, String.toList_ofList, hcs]
    simpa using hne
  · simp [hcs]
  · rw [encode_ofList, encode, hcs, List.concat_eq_append, List.flatMap_append,
      List.flatMap_append, List.flatMap_singleton, List.flatMap_singleton,
      List.dropLast_append_of_ne_nil (encodeChar_ne_nil _),
      List.dropLast_append_of_ne_nil (encodeChar_ne_nil _), hd]

end StaffAccess.Text

import StaffAccess.Json.Reader
import StaffAccess.Json.Writer
import StaffAccess.Text.Encoding
import Mathlib.Tactic.Ring

/-!
# Texts in JSON texts

Every text is read back as it was written, whatever its characters are: each of them is written
as itself, as an escape, as one unit or as two units, and reading tells these apart.

* `Json.takeText_append`: texts are read back.
* `Text.decode?_encode`: octets of plain characters are read back.
-/

namespace StaffAccess

/-! ## Hexadecimal digits -/

theorem Text.hexNumber?_append (value : Nat) (cs ds : List Char) :
    hexNumber? value (cs ++ ds) = (hexNumber? value cs).bind fun v => hexNumber? v ds := by
  induction cs generalizing value with
  | nil => rfl
  | cons c cs ih =>
    rw [List.cons_append, hexNumber?, hexNumber?, Option.bind_assoc]
    simp only [ih]

/-- The last digits of a number stand for its remainder. -/
theorem Text.hexNumber?_hex (width value n : Nat) :
    hexNumber? value (hex width n) = some (value * 16 ^ width + n % 16 ^ width) := by
  induction width generalizing n with
  | zero => simp [hex, hexNumber?, Nat.mod_one]
  | succ width ih =>
    have hdigit := hexDigit?_hexDigit (n % 16) (Nat.mod_lt _ (by decide))
    rw [hex, hexNumber?_append, ih, Option.bind_some, hexNumber?, hdigit, Option.bind_some,
      hexNumber?, Nat.pow_succ', Nat.mod_mul]
    congr 1
    ring

namespace Json

/-! ## Units -/

theorem takeUnit_hex {n : Nat} (hn : n < 65536) (rest : List Char) :
    takeUnit (Text.hex 4 n ++ rest) = some (n, rest) := by
  have hnumber : Text.hexNumber? 0 (Text.hex 4 n) = some n := by
    rw [Text.hexNumber?_hex, Nat.zero_mul, Nat.zero_add,
      Nat.mod_eq_of_lt (show n < 16 ^ 4 from hn)]
  show (Text.hexNumber? 0 (Text.hex 4 n)).map (fun m => (m, rest)) = _
  rw [hnumber]
  rfl

theorem characterOf_toNat (c : Char) : characterOf c.toNat = c := by
  have hvalid : c.toNat.isValidChar := c.valid
  rw [characterOf, dif_pos hvalid]
  rfl

/-- A unit that is no first half of a pair is a character of its own. -/
theorem takeEscapedUnits_hex {n : Nat} (hn : n < 65536) (hhigh : ¬(0xd800 ≤ n ∧ n ≤ 0xdbff))
    (rest : List Char) :
    takeEscapedUnits (Text.hex 4 n ++ rest) = some (characterOf n, rest) := by
  rw [takeEscapedUnits, takeUnit_hex hn]
  show (if 0xd800 ≤ n ∧ n ≤ 0xdbff then _ else _) = _
  rw [if_neg hhigh]
  rfl

/-- A pair of units is the character beyond sixteen bits that it was made from. -/
theorem takeEscapedUnits_pair {m : Nat} (hm : m < 0x100000) (rest : List Char) :
    takeEscapedUnits (Text.hex 4 (0xd800 + m / 1024) ++ unit (0xdc00 + m % 1024) ++ rest) =
      some (characterOf (0x10000 + m), rest) := by
  have hhigh : 0xd800 ≤ 0xd800 + m / 1024 ∧ 0xd800 + m / 1024 ≤ 0xdbff := by omega
  have hlow : 0xdc00 ≤ 0xdc00 + m % 1024 ∧ 0xdc00 + m % 1024 ≤ 0xdfff := by omega
  have hunit : unit (0xdc00 + m % 1024) ++ rest =
      '\\' :: 'u' :: (Text.hex 4 (0xdc00 + m % 1024) ++ rest) := rfl
  rw [List.append_assoc, takeEscapedUnits, takeUnit_hex (by omega)]
  simp only [bind, Option.bind, hunit, takeUnit_hex (show 0xdc00 + m % 1024 < 65536 by omega),
    if_pos hhigh, if_pos hlow]
  have hm' : 0x10000 + (0xd800 + m / 1024 - 0xd800) * 1024 + (0xdc00 + m % 1024 - 0xdc00) =
      0x10000 + m := by omega
  rw [hm']
  rfl

/-! ## Characters -/

theorem takeText_character (steps : Nat) (c : Char) (rest : List Char) :
    takeText (steps + 1) (character c ++ rest) =
      (takeText steps rest).bind fun r => some (c :: r.1, r.2) := by
  have hvalid : c.toNat < 0xd800 ∨ (0xdfff < c.toNat ∧ c.toNat < 0x110000) := c.valid
  rw [character]
  split_ifs with hself hnewline hreturn htab hback hfeed hplain hsmall
  · rcases hself with rfl | rfl <;> rfl
  · subst hnewline
    rfl
  · subst hreturn
    rfl
  · subst htab
    rfl
  · obtain rfl : c = '\x08' := Char.toNat_inj.1 hback
    rfl
  · obtain rfl : c = '\x0c' := Char.toNat_inj.1 hfeed
    rfl
  · -- The character stands for itself, as it is none of those that end a text, start an escape
    -- or are refused.
    show (if c = '"' then _ else if c = '\\' then _ else if c.toNat < 0x20 then none else
      (takeText steps rest).bind fun r => some (c :: r.1, r.2)) = _
    rw [if_neg fun h => hself (.inl h), if_neg fun h => hself (.inr h), if_neg (by omega)]
  · -- No character has the number of half of a pair.
    have hhigh : ¬(0xd800 ≤ c.toNat ∧ c.toNat ≤ 0xdbff) := by omega
    show (takeEscapedUnits (Text.hex 4 c.toNat ++ rest)).bind
      (fun r => (takeText steps r.2).bind fun s => some (r.1 :: s.1, s.2)) = _
    rw [takeEscapedUnits_hex hsmall hhigh, characterOf_toNat]
    rfl
  · show (takeEscapedUnits (Text.hex 4 (0xd800 + (c.toNat - 0x10000) / 1024) ++
      unit (0xdc00 + (c.toNat - 0x10000) % 1024) ++ rest)).bind
      (fun r => (takeText steps r.2).bind fun s => some (r.1 :: s.1, s.2)) = _
    rw [takeEscapedUnits_pair (by omega), Nat.add_sub_cancel' (by omega), characterOf_toNat]
    rfl

/-- A text is read back up to its closing quote. -/
theorem takeText_append {cs rest : List Char} {steps : Nat} (hsteps : cs.length < steps) :
    takeText steps (cs.flatMap character ++ '"' :: rest) = some (cs, rest) := by
  induction cs generalizing steps with
  | nil =>
    obtain ⟨steps, rfl⟩ := Nat.exists_eq_add_one_of_ne_zero (Nat.ne_of_gt hsteps)
    rfl
  | cons c cs ih =>
    obtain ⟨steps, rfl⟩ := Nat.exists_eq_add_one_of_ne_zero (Nat.ne_zero_of_lt hsteps)
    rw [List.flatMap_cons, List.append_assoc, takeText_character,
      ih (Nat.lt_of_succ_lt_succ hsteps)]
    rfl

end Json

/-! ## Octets -/

namespace Text

/-- Whether a character is one of those that JSON texts are written with. -/
def IsPlain (c : Char) : Prop := 0x20 ≤ c.toNat ∧ c.toNat < 0x7f

instance (c : Char) : Decidable (IsPlain c) := inferInstanceAs (Decidable (_ ∧ _))

/-- Octets of plain characters are not taken for those of wider units. -/
theorem detect_eq_utf8 {bytes : Octets} (h : ∀ b ∈ bytes, 0x20 ≤ b.toNat ∧ b.toNat < 0x7f) :
    Encoding.detect bytes = (.utf8, bytes) := by
  -- Every byte order mark has an octet that is not one of a plain character.
  have hmarks : ∀ mark ∈ Encoding.marks,
      ∃ b ∈ mark.1, ¬(0x20 ≤ b.toNat ∧ b.toNat < 0x7f) := by decide
  have hnone : Encoding.marks.find? (fun mark => mark.1.isPrefixOf bytes) = none := by
    refine List.find?_eq_none.2 fun mark hmark hstart => ?_
    obtain ⟨b, hb, hplain⟩ := hmarks mark hmark
    exact hplain (h b ((List.isPrefixOf_iff_prefix.1 hstart).subset hb))
  have hne : ∀ b ∈ bytes, b ≠ 0 := by
    rintro _ hb rfl
    exact absurd (h 0 hb).1 (by decide)
  have hzeros : Encoding.ofZeros bytes = .utf8 := by
    unfold Encoding.ofZeros
    split
    · rw [if_neg (hne _ (by simp)), if_neg (hne _ (by simp))]
    · rw [if_neg (hne _ (by simp)), if_neg (hne _ (by simp))]
    · rfl
  rw [Encoding.detect, hnone, hzeros]

theorem codesUtf8?_eq_map (strict : Bool) {bytes : Octets} (h : ∀ b ∈ bytes, b.toNat < 0x80) :
    codesUtf8? strict bytes = some (bytes.map UInt8.toNat) := by
  induction bytes with
  | nil => rfl
  | cons b bytes ih =>
    rw [List.forall_mem_cons] at h
    rw [codesUtf8?.eq_def]
    dsimp only
    rw [if_pos h.1, ih h.2]
    rfl

theorem encode_eq_map {s : String} (h : ∀ c ∈ s.toList, IsPlain c) :
    encode s = s.toList.map fun c => UInt8.ofNat c.toNat := by
  rw [encode]
  generalize s.toList = cs at h
  induction cs with
  | nil => rfl
  | cons c cs ih =>
    rw [List.forall_mem_cons] at h
    have hc : encodeChar c = [.ofNat c.toNat] := by
      rw [encodeChar]
      dsimp only
      rw [if_pos (by have := h.1.2; omega)]
    rw [List.flatMap_cons, hc, ih h.2]
    rfl

theorem charOfCode_toNat (c : Char) : charOfCode c.toNat = c := Json.characterOf_toNat c

/-- A text of plain characters is read back. -/
theorem decode?_encode {s : String} (h : ∀ c ∈ s.toList, IsPlain c) :
    decode? (encode s) = some s := by
  -- Every character is one octet, with the same number.
  have htoNat : ∀ c ∈ s.toList, (UInt8.ofNat c.toNat).toNat = c.toNat := by
    intro c hc
    have := (h c hc).2
    rw [UInt8.toNat_ofNat', Nat.mod_eq_of_lt (by omega)]
  have hbytes : ∀ b ∈ encode s, 0x20 ≤ b.toNat ∧ b.toNat < 0x7f := by
    rw [encode_eq_map h, List.forall_mem_map]
    intro c hc
    rw [htoNat c hc]
    exact h c hc
  have hcodes : (encode s).map UInt8.toNat = s.toList.map Char.toNat := by
    rw [encode_eq_map h, List.map_map]
    exact List.map_congr_left htoNat
  have hback : s.toList.map (charOfCode ∘ Char.toNat) = s.toList :=
    (List.map_congr_left fun c _ => charOfCode_toNat c).trans (List.map_id _)
  rw [decode?, detect_eq_utf8 hbytes]
  dsimp only
  rw [codesUtf8?_eq_map false fun b hb => by have := (hbytes b hb).2; omega, hcodes,
    Option.map_some, List.map_map, hback, String.ofList_toList]

end Text

end StaffAccess

import StaffAccess.Proofs.Json.Numbers
import StaffAccess.Proofs.Json.Texts

/-!
# Steps of reading JSON texts

What reading does with the parts of a written value, whether or not the value as a whole can be
read: where values start, that scalars are read as such, and how a list or a record goes on after
each of its items or entries.

* `Json.StartsValue`: the texts that can start with a value; `Json.startsValue_write`.
* `Json.takeValue_list`, `Json.takeValue_record`, `Json.takeEntries_eq`: lists and records.
-/

namespace StaffAccess.Json

variable {steps depth : Nat} {cs rest : List Char} {r : Value × List Char}

/-! ## Scalars -/

/-- What starts like no text, list or record is read as a scalar. -/
theorem takeValue_eq_takeScalar {c : Char} (hc : c ∉ ['"', '[', '\x7b']) :
    takeValue (steps + 1) depth (c :: cs) = orBad (takeScalar (c :: cs)) := by
  simp only [List.mem_cons, List.not_mem_nil, or_false, not_or] at hc
  rw [takeValue]
  · rintro _ h
    cases h
    exact hc.1 rfl
  · rintro _ h
    cases h
    exact hc.2.1 rfl
  · rintro _ h
    cases h
    exact hc.2.2 rfl

theorem orBad_eq_ok_iff {α : Type} {x : Option α} {a : α} : orBad x = .ok a ↔ x = some a := by
  cases x <;> simp [orBad]

theorem takeScalar_of_takeValue {c : Char} (hc : c ∉ ['"', '[', '\x7b'])
    (h : takeValue steps depth (c :: cs) = .ok r) : takeScalar (c :: cs) = some r := by
  cases steps with
  | zero => cases h
  | succ steps =>
    rw [takeValue_eq_takeScalar hc] at h
    exact orBad_eq_ok_iff.1 h

/-- A scalar is a value. -/
theorem takeValue_of_takeScalar (h : takeScalar cs = some r) :
    takeValue (steps + 1) depth cs = .ok r := by
  cases cs with
  | nil => cases h
  | cons c cs =>
    have hc : c ∉ ['"', '[', '\x7b'] := by
      intro hc
      simp only [List.mem_cons, List.not_mem_nil, or_false] at hc
      rcases hc with rfl | rfl | rfl <;> cases h
    rw [takeValue_eq_takeScalar hc]
    exact orBad_eq_ok_iff.2 h

theorem notMem_of_isDigit {c : Char} (hc : c.isDigit = true) {others : List Char}
    (hothers : others.any Char.isDigit = false) : c ∉ others := by
  intro hmem
  exact List.any_eq_false.1 hothers c hmem hc

/-- A whole number starts with a digit, perhaps behind a sign. -/
theorem exists_toList_toString (n : Int) : ∃ c ds, AreDigits (c :: ds) ∧
    (toString n).toList = sign (decide (n < 0)) ++ c :: ds ∧
    Nat.toDigits 10 n.natAbs = c :: ds := by
  obtain ⟨c, ds, hds⟩ := List.exists_cons_of_ne_nil (Nat.toDigits_ne_nil (n := n.natAbs) (b := 10))
  exact ⟨c, ds, hds ▸ areDigits_toDigits _, by rw [toList_toString, hds], hds⟩

/-- A double is read as some double, even if it is none that there is. -/
theorem exists_takeScalar_double (d : Double) (hrest : Ends rest) :
    ∃ d', takeScalar ((double d).toList ++ rest) = some (.double d', rest) := by
  cases d with
  | nan => exact ⟨_, rfl⟩
  | infinite s => cases s <;> exact ⟨_, rfl⟩
  | finite s u =>
    rw [toList_double, List.append_assoc]
    rcases Double.digits_shortest_ne_zero u with hdigits | hzero
    · obtain ⟨digits, exponent, hread, -⟩ := takeNumber_decimalText hdigits s hrest
      exact ⟨_, takeScalar_of_takeNumber hread⟩
    · rw [hzero]
      exact ⟨_, takeScalar_of_takeNumber (takeNumber_zero s hrest)⟩

/-! ## Texts -/

theorem toList_quoted (s : String) :
    (quoted s).toList = '"' :: (s.toList.flatMap character ++ ['"']) := by
  rw [quoted, String.toList_ofList]
  rfl

theorem length_le_flatMap_character (cs : List Char) :
    cs.length ≤ (cs.flatMap character).length := by
  induction cs with
  | nil => exact le_rfl
  | cons c cs ih =>
    have hpos : 0 < (character c).length := by
      rw [character]
      split_ifs <;> exact Nat.succ_pos _
    rw [List.flatMap_cons, List.length_append, List.length_cons]
    omega

/-- A text in quotes is read back. -/
theorem takeText_quoted (s : String) (rest : List Char) :
    takeText ((s.toList.flatMap character ++ '"' :: rest).length + 1)
      (s.toList.flatMap character ++ '"' :: rest) = some (s.toList, rest) := by
  refine takeText_append ?_
  have := length_le_flatMap_character s.toList
  rw [List.length_append]
  omega

/-! ## Written forms -/

theorem toList_write_list (xs : List Value) :
    (write (.list xs)).toList = '[' :: ((writeItems xs).toList ++ [']']) := by
  simp [write]

theorem toList_write_record (f : Fields) :
    (write (.record f)).toList = '\x7b' :: ((writeFields f).toList ++ ['\x7d']) := by
  simp [write]

theorem toList_writeItems_singleton (x : Value) :
    (writeItems [x]).toList = (write x).toList := by
  simp [writeItems]

theorem toList_writeItems_cons (x y : Value) (xs : List Value) :
    (writeItems (x :: y :: xs)).toList =
      (write x).toList ++ ',' :: (writeItems (y :: xs)).toList := by
  rw [writeItems]
  simp

theorem toList_writeFields_singleton (e : String × Value) : (writeFields [e]).toList =
    '"' :: (e.1.toList.flatMap character ++ '"' :: ':' :: (write e.2).toList) := by
  rw [writeFields, writeFields]
  simp [toList_quoted]

theorem toList_writeFields_cons (e e' : String × Value) (f : Fields) :
    (writeFields (e :: e' :: f)).toList =
      '"' :: (e.1.toList.flatMap character ++ '"' :: ':' :: ((write e.2).toList ++
        ',' :: (writeFields (e' :: f)).toList)) := by
  rw [writeFields]
  simp [toList_quoted]

theorem exists_writeFields_eq (e : String × Value) (f : Fields) :
    ∃ cs, (writeFields (e :: f)).toList = '"' :: cs := by
  cases f with
  | nil => exact ⟨_, toList_writeFields_singleton e⟩
  | cons e' f => exact ⟨_, toList_writeFields_cons e e' f⟩

/-! ## Where values start -/

/-- Whether a text can start with a value: it starts with no blank and no closing bracket. -/
def StartsValue (cs : List Char) : Prop := skipBlanks cs = cs ∧ ∃ c cs', cs = c :: cs' ∧ c ≠ ']'

theorem startsValue_cons {c : Char} (hc : c ∉ [' ', '\t', '\n', '\r', ']']) :
    StartsValue (c :: cs) := by
  simp only [List.mem_cons, List.not_mem_nil, or_false, not_or] at hc
  exact ⟨List.dropWhile_cons_of_neg (by simp [hc]), c, cs, rfl, hc.2.2.2.2⟩

theorem takeValue_of_mem {c : Char} (hc : c ∈ [' ', '\t', '\n', '\r', ']']) :
    takeValue steps depth (c :: cs) = .error .badValue := by
  cases steps with
  | zero => rfl
  | succ steps =>
    simp only [List.mem_cons, List.not_mem_nil, or_false] at hc
    rcases hc with rfl | rfl | rfl | rfl | rfl <;> rfl

/-- What starts with a value does not start with a blank or a closing bracket. -/
theorem startsValue_of_takeValue (h : takeValue steps depth cs = .ok r) : StartsValue cs := by
  cases cs with
  | nil =>
    cases steps with
    | zero => cases h
    | succ steps => exact nomatch (show Except.error Fault.badValue = .ok r from h)
  | cons c cs =>
    refine startsValue_cons fun hc => ?_
    rw [takeValue_of_mem hc] at h
    cases h

theorem startsValue_of_takeScalar (h : takeScalar cs = some r) : StartsValue cs := by
  have htake : takeValue 1 0 cs = .ok r := takeValue_of_takeScalar h
  exact startsValue_of_takeValue htake

theorem startsValue_sign (negative : Bool) {c : Char} (hc : c.isDigit = true) :
    StartsValue (sign negative ++ c :: cs) := by
  cases negative with
  | true => exact startsValue_cons (by decide)
  | false => exact startsValue_cons (notMem_of_isDigit hc rfl)

theorem startsValue_write (v : Value) (hrest : Ends rest) :
    StartsValue ((write v).toList ++ rest) := by
  cases v with
  | null => exact startsValue_cons (by decide)
  | bool b => cases b <;> exact startsValue_cons (by decide)
  | int n =>
    obtain ⟨c, ds, hdigits, hlist, -⟩ := exists_toList_toString n
    rw [write, hlist, List.append_assoc]
    exact startsValue_sign _ (hdigits c List.mem_cons_self)
  | double d =>
    obtain ⟨d', hd'⟩ := exists_takeScalar_double d hrest
    exact startsValue_of_takeScalar hd'
  | text s =>
    rw [write, toList_quoted]
    exact startsValue_cons (by decide)
  | list xs =>
    rw [toList_write_list]
    exact startsValue_cons (by decide)
  | record f =>
    rw [toList_write_record]
    exact startsValue_cons (by decide)

theorem startsValue_writeItems {xs : List Value} (hne : xs ≠ []) (rest : List Char) :
    StartsValue ((writeItems xs).toList ++ ']' :: rest) := by
  match xs with
  | [x] =>
    rw [toList_writeItems_singleton]
    exact startsValue_write x (ends_bracket rest)
  | x :: y :: xs =>
    rw [toList_writeItems_cons, List.append_assoc]
    exact startsValue_write x (ends_comma _)

/-! ## Lists and records -/

/-- A list that starts with a value. -/
theorem takeValue_list (h : StartsValue cs) :
    takeValue (steps + 1) (depth + 1) ('[' :: cs) = (do
      let (items, rest) ← takeItems steps depth cs
      return (.list items, rest)) := by
  obtain ⟨hskip, c, cs, rfl, hc⟩ := h
  rw [takeValue, if_neg (Nat.succ_ne_zero depth), hskip]
  split
  · next heq =>
    cases heq
    exact absurd rfl hc
  · rfl

/-- A record that starts with a name. -/
theorem takeValue_record :
    takeValue (steps + 1) (depth + 1) ('\x7b' :: '"' :: cs) = (do
      let (entries, rest) ← takeEntries steps depth ('"' :: cs)
      return (.record (Value.fieldsOfEntries entries), rest)) := rfl

/-- An entry is read up to its value, and the value decides how it goes on. -/
theorem takeEntries_eq (e : String × Value) (hrest : Ends rest) :
    takeEntries (steps + 1) depth ('"' :: (e.1.toList.flatMap character ++
      '"' :: ':' :: ((write e.2).toList ++ rest))) = (do
      let r ← takeValue steps depth ((write e.2).toList ++ rest)
      match skipBlanks r.2 with
      | '\x7d' :: rest => .ok ([(e.1, r.1)], rest)
      | ',' :: rest => do
        let (entries, rest) ← takeEntries steps depth (skipBlanks rest)
        return ((e.1, r.1) :: entries, rest)
      | _ => .error .badValue) := by
  rw [takeEntries, takeText_quoted]
  show (takeValue steps depth (skipBlanks ((write e.2).toList ++ rest)) >>= fun r => _) = _
  rw [(startsValue_write e.2 hrest).1, String.ofList_toList]
  rfl

end StaffAccess.Json

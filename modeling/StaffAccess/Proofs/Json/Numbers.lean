import StaffAccess.Json.Reader
import StaffAccess.Json.Writer
import StaffAccess.Proofs.Double.Shortest

/-!
# Numbers in JSON texts

Whole numbers and doubles are read back as they were written. A number is followed by a comma, a
closing bracket or the end of the text, none of which goes on with it, so the digits are taken as
far as they were written.

A double is written as its shortest decimal, in one of four forms. Every form is read as some
digits and an exponent that stand for the same decimal, if perhaps with zeros appended.

* `Json.Ends`: what can follow a value.
* `Json.takeScalar_int`: whole numbers are read back.
* `Json.takeScalar_double`: doubles are read back.
-/

namespace StaffAccess.Json

/-- Whether a text is over or goes on with what can follow a value. -/
def Ends (rest : List Char) : Prop :=
  ∀ c ∈ rest.head?, c = ',' ∨ c = ']' ∨ c = '\x7d'

/-- Whether a text does not start with a digit. -/
def StopsDigits (rest : List Char) : Prop := ∀ c ∈ rest.head?, c.isDigit = false

theorem ends_comma (rest : List Char) : Ends (',' :: rest) := by
  rintro _ ⟨⟩
  exact .inl rfl

theorem ends_bracket (rest : List Char) : Ends (']' :: rest) := by
  rintro _ ⟨⟩
  exact .inr (.inl rfl)

theorem ends_brace (rest : List Char) : Ends ('\x7d' :: rest) := by
  rintro _ ⟨⟩
  exact .inr (.inr rfl)

theorem Ends.stopsDigits {rest : List Char} (h : Ends rest) : StopsDigits rest := by
  intro c hc
  rcases h c hc with rfl | rfl | rfl <;> decide

/-! ## Digits -/

/-- Whether all characters are digits. -/
def AreDigits (cs : List Char) : Prop := ∀ c ∈ cs, c.isDigit = true

theorem areDigits_toDigits (n : Nat) : AreDigits (Nat.toDigits 10 n) :=
  fun _ hc => Nat.isDigit_of_mem_toDigits (by decide) (by decide) hc

theorem areDigits_replicate (n : Nat) : AreDigits (List.replicate n '0') := by
  intro c hc
  rw [List.eq_of_mem_replicate hc]
  decide

theorem AreDigits.take {cs : List Char} (h : AreDigits cs) (n : Nat) : AreDigits (cs.take n) :=
  fun c hc => h c (List.mem_of_mem_take hc)

theorem AreDigits.drop {cs : List Char} (h : AreDigits cs) (n : Nat) : AreDigits (cs.drop n) :=
  fun c hc => h c (List.mem_of_mem_drop hc)

theorem AreDigits.append {cs ds : List Char} (hcs : AreDigits cs) (hds : AreDigits ds) :
    AreDigits (cs ++ ds) := fun c hc => (List.mem_append.1 hc).elim (hcs c) (hds c)

theorem takeDigits_append {ds rest : List Char} (hds : AreDigits ds) (hrest : StopsDigits rest) :
    Text.takeDigits (ds ++ rest) = (ds, rest) := by
  have htake : rest.takeWhile Char.isDigit = [] ∧ rest.dropWhile Char.isDigit = rest := by
    cases rest with
    | nil => exact ⟨rfl, rfl⟩
    | cons c rest =>
      have hc := hrest c rfl
      exact ⟨List.takeWhile_cons_of_neg (by simp [hc]), List.dropWhile_cons_of_neg (by simp [hc])⟩
  rw [Text.takeDigits, List.takeWhile_append_of_pos hds, List.dropWhile_append_of_pos hds,
    htake.1, htake.2, List.append_nil]

theorem natOfDigits_eq (ds : List Char) : Text.natOfDigits ds = Nat.ofDigitChars 10 ds 0 := rfl

theorem natOfDigits_toDigits (n : Nat) : Text.natOfDigits (Nat.toDigits 10 n) = n := by
  rw [natOfDigits_eq, Nat.ofDigitChars_ten_toDigits]

theorem natOfDigits_zeros_append (n : Nat) (ds : List Char) :
    Text.natOfDigits (List.replicate n '0' ++ ds) = Text.natOfDigits ds := by
  rw [natOfDigits_eq, Nat.ofDigitChars_append, Nat.ofDigitChars_replicate_zero, Nat.mul_zero,
    natOfDigits_eq]

theorem natOfDigits_append_zeros (n : Nat) (ds : List Char) :
    Text.natOfDigits (ds ++ List.replicate n '0') = Text.natOfDigits ds * 10 ^ n := by
  rw [natOfDigits_eq, Nat.ofDigitChars_append, Nat.ofDigitChars_replicate_zero, Nat.mul_comm,
    natOfDigits_eq]

/-- Only zero is written with a leading zero. -/
theorem head_toDigits_ne {n : Nat} (hn : n ≠ 0) : (Nat.toDigits 10 n).head? ≠ some '0' := by
  induction n using Nat.strongRecOn with
  | ind n ih =>
    rw [Nat.toDigits_eq_if (by decide)]
    split
    · intro h
      have hdigit : ∀ m < 10, m ≠ 0 → m.digitChar ≠ '0' := by decide
      exact hdigit n ‹_› hn (Option.some.inj h)
    · -- Without its last digit, the number is still not zero and starts in the same way.
      rw [List.head?_append, List.head?_eq_some_head Nat.toDigits_ne_nil, Option.some_or,
        ← List.head?_eq_some_head]
      exact ih (n / 10) (by omega) (by omega)

/-! ## Whole parts -/

/-- Whether some characters are the whole part of a number: digits without leading zeros. -/
structure IsWhole (ds : List Char) : Prop where
  digits : AreDigits ds
  ne_nil : ds ≠ []
  head : ds = ['0'] ∨ ds.head? ≠ some '0'

theorem isWhole_toDigits (n : Nat) : IsWhole (Nat.toDigits 10 n) where
  digits := areDigits_toDigits n
  ne_nil := Nat.toDigits_ne_nil
  head := by
    by_cases hn : n = 0
    · exact .inl (by rw [hn, Nat.toDigits_zero])
    · exact .inr (head_toDigits_ne hn)

/-- The sign of a number. -/
def sign (negative : Bool) : List Char := if negative then ['-'] else []

theorem IsWhole.takeMinus_append {negative : Bool} {whole : List Char} (h : IsWhole whole)
    (rest : List Char) :
    takeMinus (sign negative ++ (whole ++ rest)) = (negative, whole ++ rest) := by
  cases negative with
  | true => rfl
  | false =>
    obtain ⟨d, ds, rfl⟩ := List.exists_cons_of_ne_nil h.ne_nil
    show takeMinus (d :: (ds ++ rest)) = (false, d :: (ds ++ rest))
    have hd := h.digits d List.mem_cons_self
    rw [takeMinus]
    intro more hmore
    cases hmore
    exact absurd hd (by decide)

theorem IsWhole.takeWhole?_append {whole rest : List Char} (h : IsWhole whole)
    (hrest : StopsDigits rest) : takeWhole? (whole ++ rest) = some (whole, rest) := by
  rcases h.head with rfl | hhead
  · rfl
  · rw [takeWhole?, takeDigits_append h.digits hrest]
    · dsimp only
      rw [if_neg (by simpa using h.ne_nil)]
    · intro more hmore
      obtain ⟨d, ds, rfl⟩ := List.exists_cons_of_ne_nil h.ne_nil
      cases hmore
      exact hhead rfl

/-! ## Fractions and exponents -/

theorem takeFraction_append {fraction rest : List Char} (hdigits : AreDigits fraction)
    (hne : fraction ≠ []) (hrest : StopsDigits rest) :
    takeFraction ('.' :: (fraction ++ rest)) = (fraction, rest) := by
  rw [takeFraction, takeDigits_append hdigits hrest]
  dsimp only
  rw [if_neg (by simpa using hne)]

theorem takeFraction_of_ne {rest : List Char} (h : rest.head? ≠ some '.') :
    takeFraction rest = ([], rest) := by
  rw [takeFraction]
  rintro more rfl
  exact h rfl

theorem Ends.takeFraction {rest : List Char} (h : Ends rest) : takeFraction rest = ([], rest) := by
  refine takeFraction_of_ne fun hpoint => ?_
  rcases h '.' hpoint with hc | hc | hc <;> exact absurd hc (by decide)

theorem Ends.takeExponent {rest : List Char} (h : Ends rest) :
    Text.takeExponent rest = (0, rest) := by
  cases rest with
  | nil => rfl
  | cons c rest =>
    have hc : ¬(c = 'e' ∨ c = 'E') := by
      rcases h c rfl with rfl | rfl | rfl <;> decide
    rw [Text.takeExponent, if_neg hc]

/-- The digits of an exponent. -/
def exponentDigits (exponent : Int) : List Char :=
  let digits := Nat.toDigits 10 exponent.natAbs
  if digits.length < 2 then '0' :: digits else digits

theorem toList_exponentText (exponent : Int) : (Double.exponentText exponent).toList =
    'e' :: (if exponent < 0 then '-' else '+') :: exponentDigits exponent := by
  simp only [Double.exponentText, exponentDigits, String.toList_append,
    Nat.toString_eq_ofList_toDigits, String.length_ofList]
  split_ifs <;> simp

theorem takeExponent_append (exponent : Int) {rest : List Char} (hrest : StopsDigits rest) :
    Text.takeExponent ((Double.exponentText exponent).toList ++ rest) = (exponent, rest) := by
  have hdigits : AreDigits (exponentDigits exponent) := by
    rw [exponentDigits]
    split_ifs
    · exact (areDigits_replicate 1).append (areDigits_toDigits _)
    · exact areDigits_toDigits _
  have hne : (exponentDigits exponent).isEmpty = false := by
    rw [exponentDigits]
    split_ifs
    · rfl
    · simp
  have hnumber : Text.natOfDigits (exponentDigits exponent) = exponent.natAbs := by
    rw [exponentDigits]
    split_ifs
    · exact (natOfDigits_zeros_append 1 _).trans (natOfDigits_toDigits _)
    · exact natOfDigits_toDigits _
  have hsign : ∀ cs, Text.takeSign ((if exponent < 0 then '-' else '+') :: cs) =
      (decide (exponent < 0), cs) := by
    intro cs
    split_ifs with hneg
    · rw [decide_eq_true hneg]
      rfl
    · rw [decide_eq_false hneg]
      rfl
  rw [toList_exponentText, List.cons_append, List.cons_append, Text.takeExponent,
    if_pos (.inl rfl), hsign]
  dsimp only
  rw [takeDigits_append hdigits hrest]
  dsimp only
  rw [hne, if_neg Bool.false_ne_true, hnumber]
  split_ifs with hneg
  · have := of_decide_eq_true hneg
    exact Prod.ext (by dsimp only; omega) rfl
  · have := mt decide_eq_true hneg
    exact Prod.ext (by dsimp only; omega) rfl

/-! ## Numerals -/

section Numerals

variable {negative : Bool} {whole fraction rest : List Char}

theorem takeNumber_eq {cs cs₁ cs₂ cs₃ : List Char} {exponent : Int}
    (hminus : takeMinus cs = (negative, cs₁)) (hwhole : takeWhole? cs₁ = some (whole, cs₂))
    (hfraction : takeFraction cs₂ = (fraction, cs₃))
    (hexponent : Text.takeExponent cs₃ = (exponent, rest)) :
    takeNumber cs = if fraction.isEmpty && rest.length = cs₃.length then
        if Text.maxDigits < whole.length then none
        else some (.int (if negative then -(Text.natOfDigits whole : Int)
          else Text.natOfDigits whole), cs₃)
      else some (.double (Text.ofParts negative whole fraction exponent), rest) := by
  simp only [takeNumber, hminus, hwhole, hfraction, hexponent, Option.bind_eq_bind,
    Option.bind_some]
  rfl

/-- A number without a fraction and an exponent is whole. -/
theorem takeNumber_whole (hwhole : IsWhole whole) (hlength : whole.length ≤ Text.maxDigits)
    (hrest : Ends rest) : takeNumber (sign negative ++ (whole ++ rest)) = some (.int
      (if negative then -(Text.natOfDigits whole : Int) else Text.natOfDigits whole), rest) := by
  rw [takeNumber_eq (hwhole.takeMinus_append _) (hwhole.takeWhole?_append hrest.stopsDigits)
    hrest.takeFraction hrest.takeExponent, if_pos (by simp), if_neg (Nat.not_lt.2 hlength)]

/-- A number with a fraction is a double. -/
theorem takeNumber_fraction (hwhole : IsWhole whole) (hdigits : AreDigits fraction)
    (hne : fraction ≠ []) (hrest : Ends rest) :
    takeNumber (sign negative ++ (whole ++ '.' :: (fraction ++ rest))) =
      some (.double (Text.ofParts negative whole fraction 0), rest) := by
  rw [takeNumber_eq (hwhole.takeMinus_append _) (hwhole.takeWhole?_append ?_)
    (takeFraction_append hdigits hne hrest.stopsDigits) hrest.takeExponent, if_neg (by simp [hne])]
  intro c hc
  cases hc
  decide

/-- A number with an exponent is a double, with or without a fraction. -/
theorem takeNumber_exponent (hwhole : IsWhole whole) (hdigits : AreDigits fraction)
    (exponent : Int) (hrest : Ends rest) :
    takeNumber (sign negative ++ (whole ++ ((if fraction.isEmpty then [] else '.' :: fraction) ++
      ((Double.exponentText exponent).toList ++ rest)))) =
      some (.double (Text.ofParts negative whole fraction exponent), rest) := by
  have hstart : ((Double.exponentText exponent).toList ++ rest).head? = some 'e' := by
    rw [toList_exponentText]
    rfl
  have hstops : StopsDigits ((Double.exponentText exponent).toList ++ rest) := by
    intro c hc
    cases hstart.symm.trans hc
    decide
  -- Something was taken behind the digits, which is how reading knows that there is an exponent.
  have hlength : rest.length ≠ ((Double.exponentText exponent).toList ++ rest).length := by
    rw [toList_exponentText, List.length_append, List.length_cons]
    omega
  by_cases hne : fraction = []
  · subst hne
    rw [if_pos List.isEmpty_nil, List.nil_append, takeNumber_eq (hwhole.takeMinus_append _)
      (hwhole.takeWhole?_append hstops) (takeFraction_of_ne (by rw [hstart]; decide))
      (takeExponent_append exponent hrest.stopsDigits), if_neg]
    rw [Bool.and_eq_true, decide_eq_true_eq]
    exact fun h => hlength h.2
  · rw [if_neg (by simpa using hne), List.cons_append, takeNumber_eq (hwhole.takeMinus_append _)
      (hwhole.takeWhole?_append ?_) (takeFraction_append hdigits hne hstops)
      (takeExponent_append exponent hrest.stopsDigits), if_neg (by simp [hne])]
    intro c hc
    cases hc
    decide

end Numerals

/-! ## Decimals -/

section Decimals

variable {negative : Bool} {c : Char} {ds rest : List Char} (hdigits : AreDigits (c :: ds))
  (hrest : Ends rest)
include hdigits hrest

/-- All digits stand behind the point, perhaps after some zeros. -/
theorem takeNumber_behindPoint (k : Nat) :
    takeNumber (sign negative ++ (("0." ++ Double.zeros k ++ String.ofList (c :: ds)).toList ++
      rest)) = some (.double (Double.ofDecimal negative (Text.natOfDigits (c :: ds))
        (-((k : Int) + (c :: ds).length))), rest) := by
  have hlist : ("0." ++ Double.zeros k ++ String.ofList (c :: ds)).toList ++ rest =
      ['0'] ++ '.' :: ((List.replicate k '0' ++ c :: ds) ++ rest) := by
    simp [Double.zeros]
  have hwhole : IsWhole ['0'] := isWhole_toDigits 0
  have hnumber := natOfDigits_zeros_append (k + 1) (c :: ds)
  rw [hlist, takeNumber_fraction hwhole ((areDigits_replicate k).append hdigits)
    (by simp) hrest, ← hnumber, Text.ofParts, List.length_append, List.length_replicate,
    Nat.cast_add, Int.zero_sub]
  rfl

/-- All digits stand before the point, perhaps followed by some zeros. -/
theorem takeNumber_beforePoint (hhead : c ≠ '0') (k : Nat) :
    takeNumber (sign negative ++ ((String.ofList (c :: ds) ++ Double.zeros k ++ ".0").toList ++
      rest)) = some (.double (Double.ofDecimal negative
        (Text.natOfDigits (c :: ds) * 10 ^ (k + 1)) (-1)), rest) := by
  have hlist : (String.ofList (c :: ds) ++ Double.zeros k ++ ".0").toList ++ rest =
      (c :: ds ++ List.replicate k '0') ++ '.' :: (['0'] ++ rest) := by
    simp [Double.zeros]
  have hwhole : IsWhole (c :: ds ++ List.replicate k '0') :=
    ⟨hdigits.append (areDigits_replicate k), List.cons_ne_nil _ _, .inr (by simpa using hhead)⟩
  have hzero : AreDigits ['0'] := areDigits_replicate 1
  rw [hlist, takeNumber_fraction hwhole hzero (List.cons_ne_nil _ _) hrest,
    ← natOfDigits_append_zeros, List.replicate_succ', ← List.append_assoc]
  rfl

/-- The point stands between two digits. -/
theorem takeNumber_aroundPoint (hhead : c ≠ '0') {k : Nat} (hk : k < ds.length) :
    takeNumber (sign negative ++ ((String.ofList ((c :: ds).take (k + 1)) ++ "." ++
      String.ofList ((c :: ds).drop (k + 1))).toList ++ rest)) =
      some (.double (Double.ofDecimal negative (Text.natOfDigits (c :: ds))
        (-((ds.length - k : Nat) : Int))), rest) := by
  have hlist : (String.ofList ((c :: ds).take (k + 1)) ++ "." ++
      String.ofList ((c :: ds).drop (k + 1))).toList ++ rest =
      (c :: ds).take (k + 1) ++ '.' :: ((c :: ds).drop (k + 1) ++ rest) := by
    simp
  have hwhole : IsWhole ((c :: ds).take (k + 1)) :=
    ⟨hdigits.take _, List.cons_ne_nil _ _, .inr (by simpa using hhead)⟩
  rw [hlist, takeNumber_fraction hwhole (hdigits.drop _) (by simpa using hk) hrest, Text.ofParts,
    List.take_append_drop, List.length_drop, List.length_cons, Nat.add_sub_add_right,
    Int.zero_sub]

/-- The point stands behind the first digit, if there are more, and an exponent follows. -/
theorem takeNumber_scientific (hhead : c ≠ '0') (exponent : Int) :
    takeNumber (sign negative ++ ((String.ofList ((c :: ds).take 1) ++
      (if ((c :: ds).drop 1).isEmpty then "" else "." ++ String.ofList ((c :: ds).drop 1)) ++
        Double.exponentText exponent).toList ++ rest)) =
      some (.double (Double.ofDecimal negative (Text.natOfDigits (c :: ds))
        (exponent - ds.length)), rest) := by
  have hlist : (String.ofList ((c :: ds).take 1) ++ (if ((c :: ds).drop 1).isEmpty then "" else
      "." ++ String.ofList ((c :: ds).drop 1)) ++ Double.exponentText exponent).toList ++ rest =
      [c] ++ ((if ds.isEmpty then [] else '.' :: ds) ++
        ((Double.exponentText exponent).toList ++ rest)) := by
    cases ds <;> simp
  have hwhole : IsWhole [c] :=
    ⟨hdigits.take 1, List.cons_ne_nil _ _, .inr (by simpa using hhead)⟩
  have htail : AreDigits ds := hdigits.drop 1
  rw [hlist, takeNumber_exponent hwhole htail exponent hrest]
  rfl

end Decimals

/-- The text of a decimal is read as digits and an exponent for the same number: those of the
    decimal, or with zeros appended up to the first place behind the point. -/
theorem takeNumber_decimalText {d : Decimal} (hd : d.digits ≠ 0) (negative : Bool)
    {rest : List Char} (hrest : Ends rest) :
    ∃ digits exponent, takeNumber (sign negative ++ ((Double.decimalText d).toList ++ rest)) =
        some (.double (Double.ofDecimal negative digits exponent), rest) ∧
      ((digits = d.digits ∧ exponent = d.exponent) ∨
        ∃ k : Nat, d.exponent = k ∧ digits = d.digits * 10 ^ (k + 1) ∧ exponent = -1) := by
  have hlist : (toString d.digits).toList = Nat.toDigits 10 d.digits := Nat.toList_repr
  have hdigits := areDigits_toDigits d.digits
  have hnumber := natOfDigits_toDigits d.digits
  have hhead := head_toDigits_ne hd
  have hne : Nat.toDigits 10 d.digits ≠ [] := Nat.toDigits_ne_nil
  simp only [Double.decimalText, hlist]
  generalize Nat.toDigits 10 d.digits = ds at hdigits hnumber hhead hne
  obtain ⟨c, ds, rfl⟩ := List.exists_cons_of_ne_nil hne
  have hc : c ≠ '0' := by simpa using hhead
  have hlength : ((c :: ds).length : Int) = ds.length + 1 := by simp
  rw [← hnumber]
  generalize (c :: ds).length = n at hlength ⊢
  -- The place of the point decides on the form.
  by_cases hplace : -4 ≤ d.exponent + (n : Int) - 1 ∧ d.exponent + (n : Int) - 1 < 16
  · rw [if_pos hplace]
    split_ifs with hneg hshort
    · exact ⟨_, _, takeNumber_behindPoint hdigits hrest _, .inl ⟨rfl, by simp; omega⟩⟩
    · exact ⟨_, _, takeNumber_beforePoint hdigits hrest hc _, .inr ⟨_, by omega, rfl, rfl⟩⟩
    · obtain ⟨k, hk⟩ : ∃ k : Nat, (d.exponent + (n : Int) - 1 + 1).toNat = k + 1 :=
        Nat.exists_eq_succ_of_ne_zero (by omega)
      rw [hk]
      exact ⟨_, _, takeNumber_aroundPoint hdigits hrest hc (by omega), .inl ⟨rfl, by omega⟩⟩
  · rw [if_neg hplace]
    exact ⟨_, _, takeNumber_scientific hdigits hrest hc _, .inl ⟨rfl, by omega⟩⟩

/-! ## Scalars -/

theorem takeNumber_word {w : String × Value} (hw : w ∈ words) (rest : List Char) :
    takeNumber (w.1.toList ++ rest) = none := by
  simp only [words, List.mem_cons, List.not_mem_nil, or_false] at hw
  rcases hw with rfl | rfl | rfl | rfl | rfl | rfl <;> rfl

/-- A text that starts with a number starts with no word. -/
theorem takeScalar_of_takeNumber {cs : List Char} {r : Value × List Char}
    (h : takeNumber cs = some r) : takeScalar cs = some r := by
  -- Words are tried first, and one of them starts like a negative number.
  have hwords : ∀ w ∈ words, (takeWord? w.1 cs).map (fun rest => (w.2, rest)) = none := by
    intro w hw
    rw [takeWord?, if_neg, Option.map_none]
    intro hstart
    obtain ⟨rest, rfl⟩ := List.isPrefixOf_iff_prefix.1 hstart
    rw [takeNumber_word hw] at h
    cases h
  rw [takeScalar, List.findSome?_eq_none_iff.2 hwords, Option.none_or, h]

theorem toList_toString (n : Int) :
    (toString n).toList = sign (decide (n < 0)) ++ Nat.toDigits 10 n.natAbs := by
  cases n with
  | ofNat m =>
    have hsign : decide (Int.ofNat m < 0) = false :=
      decide_eq_false (Int.not_lt.2 (Int.natCast_nonneg m))
    rw [hsign]
    exact Nat.toList_repr
  | negSucc m =>
    rw [decide_eq_true (by omega)]
    show ("-" ++ Nat.repr (m + 1)).toList = _
    rw [String.toList_append, Nat.toList_repr]
    rfl

/-- A whole number is read back, unless it has too many digits. -/
theorem takeScalar_int {n : Int} {rest : List Char}
    (hlength : (Nat.toDigits 10 n.natAbs).length ≤ Text.maxDigits) (hrest : Ends rest) :
    takeScalar ((toString n).toList ++ rest) = some (.int n, rest) := by
  rw [toList_toString, List.append_assoc, takeScalar_of_takeNumber
    (takeNumber_whole (isWhole_toDigits _) hlength hrest), natOfDigits_toDigits]
  have hn : (if decide (n < 0) = true then -(n.natAbs : Int) else n.natAbs) = n := by
    split_ifs with h
    · have := of_decide_eq_true h
      omega
    · have := mt decide_eq_true h
      omega
  rw [hn]

theorem takeNumber_zero (negative : Bool) {rest : List Char} (hrest : Ends rest) :
    takeNumber (sign negative ++ ((Double.decimalText (Double.shortest 0)).toList ++ rest)) =
      some (.double (.finite negative 0), rest) := by
  have hzero : AreDigits ['0'] := areDigits_replicate 1
  have hwhole : IsWhole ['0'] := isWhole_toDigits 0
  exact takeNumber_fraction hwhole hzero (List.cons_ne_nil _ _) hrest

/-- The shortest decimal of a double is read as the double. -/
theorem takeNumber_shortest (negative : Bool) {u : Nat} (h : Double.IsRounded u)
    {rest : List Char} (hrest : Ends rest) :
    takeNumber (sign negative ++ ((Double.decimalText (Double.shortest u)).toList ++ rest)) =
      some (.double (.finite negative u), rest) := by
  by_cases hu : u = 0
  · rw [hu, takeNumber_zero negative hrest]
  obtain ⟨hholds, hlow⟩ := Double.shortest_spec hu h
  have hd : (Double.shortest u).digits ≠ 0 := by
    intro hzero
    have := hholds.pos hu (Double.powerOfTen_snd_pos _)
    rw [hzero, Nat.zero_mul] at this
    exact absurd this (lt_irrefl 0)
  obtain ⟨digits, exponent, hread, hsame⟩ := takeNumber_decimalText hd negative hrest
  rw [hread]
  rcases hsame with ⟨rfl, rfl⟩ | ⟨k, hk, rfl, rfl⟩
  · rw [Double.ofDecimal_of_holds negative hu h hlow hholds]
  · -- The zeros that were appended are taken off again by the exponent.
    rw [Double.ofDecimal_of_holds negative hu h (by decide)]
    refine hholds.congr (Double.powerOfTen_snd_pos _) (Double.powerOfTen_snd_pos _) ?_
    have hpower : Double.powerOfTen k = (10 ^ k * (4 * Double.one), 1) :=
      if_pos (Int.natCast_nonneg k)
    have htenth : Double.powerOfTen (-1) = (4 * Double.one, 10) := rfl
    rw [hk, hpower, htenth]
    ring

theorem toList_double (negative : Bool) (u : Nat) : (double (.finite negative u)).toList =
    sign negative ++ (Double.decimalText (Double.shortest u)).toList := by
  rw [double, Double.text, String.toList_append]
  · cases negative <;> rfl
  · exact nofun
  · exact nofun

/-- A double is read back. -/
theorem takeScalar_double {d : Double} {rest : List Char} (h : d.IsRepresentable)
    (hrest : Ends rest) : takeScalar ((double d).toList ++ rest) = some (.double d, rest) := by
  cases d with
  | nan => rfl
  | infinite s => cases s <;> rfl
  | finite s u =>
    rw [toList_double, List.append_assoc,
      takeScalar_of_takeNumber (takeNumber_shortest s h hrest)]

end StaffAccess.Json

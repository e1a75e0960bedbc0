import StaffAccess.Double

/-!
# The shortest decimal of a double

Every double is the nearest one to a whole range of numbers around it. Its shortest decimal is
the multiple of the largest power of ten in that range; of two such multiples, the nearer one.

Ranges and decimals are compared in quarters of a unit, where their bounds are whole numbers.

* `Double.Range`: the numbers that round to a double.
* `Double.shortest`: its shortest decimal.
* `Double.text`: the written form of that decimal, positional between `10 ^ -4` and `10 ^ 16`.
-/

namespace StaffAccess

/-- The number `digits * 10 ^ exponent`. -/
structure Decimal where
  /-- The digits, read as one whole number. -/
  digits : Nat
  /-- The power of ten of the last digit. -/
  exponent : Int
  deriving DecidableEq, Repr

namespace Double

/-- The positive numbers that round to one double, in quarters of a unit. -/
structure Range where
  /-- The double itself. -/
  middle : Nat
  /-- The lower end. -/
  low : Nat
  /-- The upper end. -/
  high : Nat
  /-- Whether the two ends belong to the range. -/
  closed : Bool

/-- The range of the double of `units` units. The gap below a power of two is half the gap
    above it, and a tie goes to the double with the even mantissa. -/
def range (units : Nat) : Range :=
  let step := gap units
  let below := if units = Nat.pow 2 units.log2 ∧ 1 < step then step else 2 * step
  { middle := 4 * units
    low := 4 * units - below
    high := 4 * units + 2 * step
    closed := (units / step) % 2 = 0 }

/-- A power of ten as a quotient of two whole numbers of quarter units. -/
def powerOfTen (exponent : Int) : Nat × Nat :=
  if 0 ≤ exponent then (Nat.pow 10 exponent.toNat * (4 * one), 1)
  else (4 * one, Nat.pow 10 (-exponent).toNat)

/-- Whether `count` times the quotient `num / den` lies in the range. -/
def Range.contains (r : Range) (num den count : Nat) : Bool :=
  if r.closed then r.low * den ≤ count * num && count * num ≤ r.high * den
  else r.low * den < count * num && count * num < r.high * den

/-- The multiple of a power of ten in the range that is nearest to its middle; of two equally
    near ones, the even one. -/
def Range.multiple? (r : Range) (exponent : Int) : Option Decimal :=
  let (num, den) := powerOfTen exponent
  let count := r.middle * den / num
  let rest := r.middle * den - count * num
  let upperIsNearer := num < 2 * rest || (num == 2 * rest && count % 2 == 1)
  match r.contains num den count, r.contains num den (count + 1) with
  | true, true => some ⟨if upperIsNearer then count + 1 else count, exponent⟩
  | true, false => some ⟨count, exponent⟩
  | false, true => some ⟨count + 1, exponent⟩
  | false, false => none

/-- The shortest decimal of the double of `units` units. The search starts above the leading
    digit and ends where the digits are finer than every range. -/
def shortest (units : Nat) : Decimal :=
  if units = 0 then ⟨0, 0⟩
  else
    let top : Int := ((units.log2 : Int) - 1073) * 30103 / 100000 + 2
    ((List.range 22).findSome? fun i => (range units).multiple? (top - (i : Nat))).getD ⟨0, 0⟩

/-! ## Text -/

/-- The exponent of scientific notation: a sign and at least two digits. -/
def exponentText (exponent : Int) : String :=
  let digits := toString exponent.natAbs
  (if exponent < 0 then "e-" else "e+") ++ (if digits.length < 2 then "0" ++ digits else digits)

/-- `count` zeros. -/
def zeros (count : Nat) : String := String.ofList (List.replicate count '0')

/-- The written form of a decimal: positional if its leading digit stands for a power of ten
    from `-4` up to `15`, scientific otherwise. The positional form always has a point. -/
def decimalText (d : Decimal) : String :=
  let digits := (toString d.digits).toList
  let lead : Int := d.exponent + (digits.length : Int) - 1
  if -4 ≤ lead ∧ lead < 16 then
    if lead < 0 then "0." ++ zeros (-lead - 1).toNat ++ String.ofList digits
    else
      let whole := (lead + 1).toNat
      if digits.length ≤ whole then
        String.ofList digits ++ zeros (whole - digits.length) ++ ".0"
      else String.ofList (digits.take whole) ++ "." ++ String.ofList (digits.drop whole)
  else
    let fraction := digits.drop 1
    String.ofList (digits.take 1)
      ++ (if fraction.isEmpty then "" else "." ++ String.ofList fraction)
      ++ exponentText lead

/-- The written form of a double, from which it can be read back. -/
def text : Double → String
  | nan => "nan"
  | infinite s => if s then "-inf" else "inf"
  | finite s u => (if s then "-" else "") ++ decimalText (shortest u)

end Double

end StaffAccess

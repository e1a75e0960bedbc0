/-!
# Double-precision numbers, exactly

A finite double is a signed whole number of *units*, the unit being the least positive
double, `2 ^ -1074`. Sums, comparisons and roundings are then integer arithmetic, so every
operation here can be computed and reasoned about without an approximation.

* `Double.ofRatio`: the double nearest to a quotient, a tie going to the even neighbour.
* `Double.exact`: the number a double stands for, as a `Quantity`; NaN stands for none.
* `Double.add`, `Double.sub`: exact sums, rounded once.
* `Double.lt`, `Double.le`: comparisons of the exact numbers; NaN compares with nothing.
-/

namespace StaffAccess

/-- A double-precision number. The two zeros differ in their sign only. -/
inductive Double
  /-- Not a number. -/
  | nan
  /-- An infinity. -/
  | infinite (negative : Bool)
  /-- A finite number, as a count of units. -/
  | finite (negative : Bool) (units : Nat)
  deriving DecidableEq, Repr, Inhabited

/-- An exact number of units, or an infinity: what numbers of all kinds are compared by. -/
inductive Quantity
  /-- Below or above every count. -/
  | infinite (negative : Bool)
  /-- A signed count of units. -/
  | units (count : Int)
  deriving DecidableEq, Repr

namespace Quantity

/-- The order of the extended numbers. -/
def lt : Quantity → Quantity → Bool
  | infinite s, infinite t => s && !t
  | infinite s, units _ => s
  | units _, infinite t => !t
  | units m, units n => m < n

/-- The reflexive order of the extended numbers. -/
def le (a b : Quantity) : Bool := !b.lt a

@[simp] theorem lt_self (a : Quantity) : a.lt a = false := by
  cases a with
  | infinite s => cases s <;> rfl
  | units n => simp [lt]

theorem le_trans {a b c : Quantity} (hab : a.le b = true) (hbc : b.le c = true) :
    a.le c = true := by
  rcases a with (_ | _) | a <;> rcases b with (_ | _) | b <;> rcases c with (_ | _) | c <;>
    simp [le, lt] at * <;> omega

theorem lt_of_lt_of_le {a b c : Quantity} (hab : a.lt b = true) (hbc : b.le c = true) :
    a.lt c = true := by
  rcases a with (_ | _) | a <;> rcases b with (_ | _) | b <;> rcases c with (_ | _) | c <;>
    simp [le, lt] at * <;> omega

theorem lt_of_le_of_lt {a b c : Quantity} (hab : a.le b = true) (hbc : b.lt c = true) :
    a.lt c = true := by
  rcases a with (_ | _) | a <;> rcases b with (_ | _) | b <;> rcases c with (_ | _) | c <;>
    simp [le, lt] at * <;> omega

end Quantity

namespace Double

/-- The number one, in units. -/
def one : Nat := Nat.pow 2 1074

/-- The magnitude from which a rounded number is infinite, in units. -/
def bound : Nat := Nat.pow 2 2098

/-- The signed count of units. -/
def signed (negative : Bool) (units : Nat) : Int := if negative then -(units : Int) else units

/-- The exact number of whole `n`. -/
def quantityOfInt (n : Int) : Quantity := .units (n * one)

/-- The number a double stands for; NaN stands for none. -/
def exact : Double → Option Quantity
  | nan => none
  | infinite s => some (.infinite s)
  | finite s u => some (.units (signed s u))

/-! ## Rounding -/

/-- The gap between a double of `n` units and the next one: 53 leading bits are kept. -/
def gap (n : Nat) : Nat := Nat.pow 2 (n.log2 + 1 - 53)

/-- The whole number nearest to `num / den`, a tie going to the even one. -/
def nearest (num den : Nat) : Nat :=
  let low := num / den
  let twice := 2 * (num % den)
  if twice < den then low
  else if den < twice then low + 1
  else if low % 2 = 0 then low else low + 1

/-- The double nearest to `num / den` units. -/
def ofRatio (negative : Bool) (num den : Nat) : Double :=
  let step := gap (num / den)
  let units := nearest num (den * step) * step
  if bound ≤ units then infinite negative else finite negative units

/-- The double nearest to a whole number. -/
def ofInt (n : Int) : Double := ofRatio (n < 0) (n.natAbs * one) 1

/-- The double nearest to a whole number, unless that is too large for a finite one. -/
def ofInt? (n : Int) : Option Double :=
  match ofInt n with
  | infinite _ => none
  | d => some d

/-- The double nearest to `digits * 10 ^ exponent`. Magnitudes far outside the range are
    settled without computing the power. -/
def ofDecimal (negative : Bool) (digits : Nat) (exponent : Int) : Double :=
  if digits = 0 then finite negative 0
  else
    let size : Int := (digits.log2 : Int) * 30103 / 100000 + exponent
    if 400 < size then infinite negative
    else if size < -400 then finite negative 0
    else if 0 ≤ exponent then ofRatio negative (digits * Nat.pow 10 exponent.toNat * one) 1
    else ofRatio negative (digits * one) (Nat.pow 10 (-exponent).toNat)

/-! ## Arithmetic and order -/

/-- The number with the other sign. -/
def neg : Double → Double
  | nan => nan
  | infinite s => infinite !s
  | finite s u => finite (!s) u

/-- The exact sum, rounded. Opposite infinities have none; an exact zero is negative only when
    both summands are negative zeros. -/
def add : Double → Double → Double
  | nan, _ => nan
  | _, nan => nan
  | infinite s, infinite t => if s = t then infinite s else nan
  | infinite s, finite _ _ => infinite s
  | finite _ _, infinite t => infinite t
  | finite s m, finite t n =>
    let sum := signed s m + signed t n
    if sum = 0 then finite (s && t) 0 else ofRatio (sum < 0) sum.natAbs 1

/-- The exact difference, rounded. -/
def sub (a b : Double) : Double := a.add b.neg

/-- Whether the exact numbers are ordered; NaN is below nothing. -/
def lt (a b : Double) : Bool :=
  match a.exact, b.exact with
  | some x, some y => x.lt y
  | _, _ => false

/-- Whether the exact numbers are ordered or equal; NaN is never so. -/
def le (a b : Double) : Bool :=
  match a.exact, b.exact with
  | some x, some y => x.le y
  | _, _ => false

/-- Whether the number is a zero, of either sign. -/
def isZero : Double → Bool
  | finite _ 0 => true
  | _ => false

/-- The whole part, cut towards zero; infinities and NaN have none. -/
def truncate? : Double → Option Int
  | finite s u => some (signed s (u / one))
  | _ => none

@[simp] theorem not_lt_nan (a : Double) : a.lt nan = false := by cases a <;> rfl

@[simp] theorem not_nan_lt (a : Double) : nan.lt a = false := rfl

@[simp] theorem not_le_nan (a : Double) : a.le nan = false := by cases a <;> rfl

@[simp] theorem not_nan_le (a : Double) : nan.le a = false := rfl

theorem lt_of_lt_of_le {a b c : Double} (hab : a.lt b = true) (hbc : b.le c = true) :
    a.lt c = true := by
  rw [lt, le] at *
  split at hab <;> split at hbc <;> simp_all
  exact Quantity.lt_of_lt_of_le hab hbc

theorem le_trans {a b c : Double} (hab : a.le b = true) (hbc : b.le c = true) :
    a.le c = true := by
  rw [le] at *
  split at hab <;> split at hbc <;> simp_all
  exact Quantity.le_trans hab hbc

end Double

end StaffAccess

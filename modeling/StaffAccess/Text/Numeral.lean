import StaffAccess.Double
import StaffAccess.Text.Blank
import StaffAccess.Text.Digit

/-!
# Numerals

Numbers as people write them: with white space around, a sign, digits of any script and single
underscores between digits.

* `Text.wholeNumber?`: the whole number that a text stands for.
* `Text.decimalNumber?`: the double that a text stands for.
-/

namespace StaffAccess.Text

/-- The number that a run of ASCII digits stands for. -/
def natOfDigits (digits : List Char) : Nat :=
  digits.foldl (fun n c => 10 * n + (c.toNat - 48)) 0

/-- A character with every digit written in ASCII. -/
def plainDigit (c : Char) : Char :=
  match digit? c with
  | some d => Char.ofNat (48 + d)
  | none => c

/-- The characters with their digits in ASCII and without the underscores between digits. An
    underscore anywhere else is refused. -/
def plainNumeral? (afterDigit : Bool) : List Char → Option (List Char)
  | [] => some []
  | '_' :: c :: cs =>
    if afterDigit && (digit? c).isSome then (plainNumeral? true cs).map (plainDigit c :: ·)
    else none
  | c :: cs =>
    if c = '_' then none
    else (plainNumeral? (digit? c).isSome cs).map (plainDigit c :: ·)

/-- The sign in front of a numeral, and the rest. -/
def takeSign : List Char → Bool × List Char
  | '-' :: cs => (true, cs)
  | '+' :: cs => (false, cs)
  | cs => (false, cs)

/-- The longest run of ASCII digits in front, and the rest. -/
def takeDigits (cs : List Char) : List Char × List Char :=
  (cs.takeWhile Char.isDigit, cs.dropWhile Char.isDigit)

theorem takeDigits_append (cs : List Char) : (takeDigits cs).1 ++ (takeDigits cs).2 = cs :=
  List.takeWhile_append_dropWhile

/-- The most digits that a numeral of a whole number may have. -/
def maxDigits : Nat := 4300

/-- The whole number that a text stands for. -/
def wholeNumber? (s : String) : Option Int := do
  let cs ← plainNumeral? false (trim isSpace s.toList)
  let (negative, cs) := takeSign cs
  let (digits, rest) := takeDigits cs
  if digits.isEmpty || !rest.isEmpty || maxDigits < digits.length then none
  else if negative then return -(natOfDigits digits : Int)
  else return natOfDigits digits

/-! ## Decimals -/

/-- The exponent at the end of a decimal, if there is a well-formed one, and the rest. -/
def takeExponent (cs : List Char) : Int × List Char :=
  match cs with
  | c :: rest =>
    if c = 'e' ∨ c = 'E' then
      let (negative, rest) := takeSign rest
      let (digits, rest) := takeDigits rest
      if digits.isEmpty then (0, cs)
      else if negative then (-(natOfDigits digits : Int), rest)
      else (natOfDigits digits, rest)
    else (0, cs)
  | [] => (0, cs)

/-- The double that digits, a fraction and an exponent stand for. -/
def ofParts (negative : Bool) (whole fraction : List Char) (exponent : Int) : Double :=
  Double.ofDecimal negative (natOfDigits (whole ++ fraction)) (exponent - fraction.length)

/-- The words for the doubles that no digits stand for. -/
def namedDouble? (negative : Bool) (word : List Char) : Option Double :=
  let word := String.ofList (word.map Char.toLower)
  if word = "inf" ∨ word = "infinity" then some (.infinite negative)
  else if word = "nan" then some .nan
  else none

/-- The double that a text stands for. -/
def decimalNumber? (s : String) : Option Double := do
  let cs ← plainNumeral? false (trim isSpace s.toList)
  let (negative, cs) := takeSign cs
  let (whole, rest) := takeDigits cs
  let (fraction, rest) :=
    match rest with
    | '.' :: rest => takeDigits rest
    | _ => ([], rest)
  if whole.isEmpty && fraction.isEmpty then namedDouble? negative cs
  else
    let (exponent, rest) := takeExponent rest
    if rest.isEmpty then return ofParts negative whole fraction exponent else none

end StaffAccess.Text

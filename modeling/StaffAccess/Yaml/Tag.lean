import StaffAccess.Text.Base64
import StaffAccess.Value.Convert
import StaffAccess.Yaml.Timestamp

/-!
# Tags

What kind of value a scalar or a collection stands for. A plain scalar without a tag has the tag
of the first grammar that its text belongs to, and is a text if there is none.

* `Tag`: the kinds.
* `Tag.ofPlain`: the tag of a plain scalar.
* `Tag.scalarValue`: the value of a scalar.
-/

namespace StaffAccess.Yaml

/-- A kind of value. -/
inductive Tag
  /-- No value. -/
  | null
  /-- A truth value. -/
  | bool
  /-- A whole number. -/
  | int
  /-- A double. -/
  | float
  /-- Octets. -/
  | binary
  /-- A day or a moment. -/
  | timestamp
  /-- The entries of other mappings. -/
  | merge
  /-- The value that a mapping has by default. -/
  | default
  /-- A text. -/
  | str
  /-- A sequence. -/
  | seq
  /-- A mapping. -/
  | map
  /-- The keys of a mapping. -/
  | set
  /-- A mapping in order. -/
  | omap
  /-- Pairs of any keys. -/
  | pairs
  /-- A kind that has no meaning here. -/
  | unknown
  deriving DecidableEq, Repr

namespace Tag

/-- What the full names of tags start with. -/
def family : String := "tag:yaml.org,2002:"

/-- The tags by their names. -/
def byName : List (String × Tag) :=
  [("null", null), ("bool", bool), ("int", int), ("float", float), ("binary", binary),
   ("timestamp", timestamp), ("merge", merge), ("value", default), ("str", str), ("seq", seq),
   ("map", map), ("set", set), ("omap", omap), ("pairs", pairs)]

/-- The tag of a full name. -/
def ofName (name : String) : Tag :=
  ((byName.find? fun e => family ++ e.1 = name).map Prod.snd).getD unknown

/-! ## Grammars of plain scalars -/

/-- The words for no value. -/
def nullWords : List String := ["", "~", "null", "Null", "NULL"]

/-- The words for truth, in lower case. -/
def trueWords : List String := ["yes", "true", "on"]

/-- The words for falsehood, in lower case. -/
def falseWords : List String := ["no", "false", "off"]

/-- A word, with its first letter large, and with all of them large. -/
def letterCases (word : String) : List String := [word, word.capitalize, word.toUpper]

/-- The characters behind a sign. -/
def unsigned (cs : List Char) : List Char := (Text.takeSign cs).2

/-- Whether a character is a digit or stands between digits. -/
def isDigitOrGap (c : Char) : Bool := c.isDigit || c = '_'

/-- A run of digits that starts with one of some. -/
def isRun (first rest : Char → Bool) : List Char → Bool
  | c :: cs => first c && cs.all rest
  | [] => false

/-- The parts between the colons of a number to the base of sixty. -/
def sixties (cs : List Char) : List (List Char) :=
  ((String.ofList cs).splitOn ":").map String.toList

/-- Whether a part is a digit to the base of sixty. -/
def isSixty : List Char → Bool
  | [d] => d.isDigit
  | [t, d] => '0' ≤ t && t ≤ '5' && d.isDigit
  | _ => false

/-- Whether a text is a whole number: to the base of two, eight, ten, sixteen or sixty. -/
def isInt (cs : List Char) : Bool :=
  match unsigned cs with
  | ['0'] => true
  | '0' :: 'b' :: ds => isRun (fun c => c = '0' || c = '1' || c = '_')
      (fun c => c = '0' || c = '1' || c = '_') ds
  | '0' :: 'x' :: ds => isRun (fun c => (Text.hexDigit? c).isSome || c = '_')
      (fun c => (Text.hexDigit? c).isSome || c = '_') ds
  | '0' :: ds => isRun (fun c => ('0' ≤ c && c ≤ '7') || c = '_')
      (fun c => ('0' ≤ c && c ≤ '7') || c = '_') ds
  | ds => match sixties ds with
    | first :: parts =>
      isRun (fun c => '1' ≤ c && c ≤ '9') isDigitOrGap first && parts.all isSixty
    | [] => false

/-- Whether a text is the exponent of a double, which must have a sign, or none. -/
def isExponent : List Char → Bool
  | [] => true
  | _ :: sign :: ds => (sign = '+' || sign = '-') && !ds.isEmpty && ds.all Char.isDigit
  | _ => false

/-- Whether a text has digits, a point, and digits if any. -/
def isPointed (cs : List Char) : Bool :=
  isRun Char.isDigit isDigitOrGap (cs.takeWhile (· ≠ '.')) &&
    match cs.dropWhile (· ≠ '.') with
    | _ :: fraction => fraction.all isDigitOrGap
    | [] => false

/-- Whether a text is a point with digits. -/
def isFraction : List Char → Bool
  | '.' :: ds => isRun Char.isDigit isDigitOrGap ds
  | _ => false

/-- Whether a text is a double to the base of sixty. -/
def isSixtyPointed (cs : List Char) : Bool :=
  match sixties (cs.takeWhile (· ≠ '.')) with
  | first :: part :: parts =>
    isRun Char.isDigit isDigitOrGap first && (part :: parts).all isSixty &&
      match cs.dropWhile (· ≠ '.') with
      | _ :: fraction => fraction.all isDigitOrGap
      | [] => false
  | _ => false

/-- Whether a text is a double. -/
def isFloat (cs : List Char) : Bool :=
  let body := unsigned cs
  let mantissa := body.takeWhile fun c => c ≠ 'e' && c ≠ 'E'
  let isSigned := body.length < cs.length
  [".inf", ".Inf", ".INF"].contains (String.ofList body) ||
    [".nan", ".NaN", ".NAN"].contains (String.ofList cs) ||
    (isExponent (body.drop mantissa.length) &&
      (isPointed mantissa || (!isSigned && isFraction mantissa))) ||
    isSixtyPointed body

/-- The tag of a plain scalar. -/
def ofPlain (s : String) : Tag :=
  if nullWords.contains s then null
  else if (trueWords ++ falseWords).any fun word => (letterCases word).contains s then bool
  else if isFloat s.toList then float
  else if isInt s.toList then int
  else if s = "<<" then merge
  else if (Timestamp.read? s).isSome then timestamp
  else if s = "=" then default
  else str

/-! ## Values of scalars -/

/-- The number that some digits to a base up to sixteen stand for. -/
def ofDigits? (base : Nat) (cs : List Char) : Option Nat :=
  if cs.isEmpty then none
  else cs.foldlM (fun n c => do
    let d ← Text.hexDigit? c
    if d < base then return n * base + d else none) 0

/-- The whole number that digits to any of the bases stand for. -/
def natural? (cs : List Char) : Option Nat :=
  let decimal? (part : List Char) : Option Nat :=
    (Text.wholeNumber? (String.ofList part)).map Int.toNat
  match cs with
  | ['0'] => some 0
  | '0' :: 'b' :: ds => ofDigits? 2 ds
  | '0' :: 'x' :: ds => ofDigits? 16 ds
  | '0' :: ds => ofDigits? 8 ds
  | ds => (sixties ds).foldlM (fun n part => (decimal? part).map (60 * n + ·)) 0

/-- The whole number that a scalar stands for. -/
def int? (s : String) : Option Int :=
  let (negative, cs) := Text.takeSign (s.toList.filter (· ≠ '_'))
  (natural? cs).map fun n => if negative then -(n : Int) else n

/-- The double that a scalar stands for. -/
def float? (s : String) : Option Double :=
  let (negative, cs) := Text.takeSign ((s.toList.filter (· ≠ '_')).map Char.toLower)
  if cs = ".inf".toList then some (.infinite negative)
  else if cs = ".nan".toList then some .nan
  else if cs.contains ':' then
    let fraction := (cs.dropWhile (· ≠ '.')).drop 1
    let whole := (sixties (cs.takeWhile (· ≠ '.'))).foldlM
      (fun n part => (ofDigits? 10 part).map (60 * n + ·)) 0
    whole.map fun n => Double.ofDecimal negative
      (n * Nat.pow 10 fraction.length + Text.natOfDigits fraction) (-(fraction.length : Int))
  else (Text.decimalNumber? (String.ofList cs)).map fun d => if negative then d.neg else d

/-- A result, or a fault if there is none. -/
def orFault {α : Type} (e : Fault) : Option α → Except Fault α
  | some a => .ok a
  | none => .error e

/-- The value of a scalar. A day counts as the number of its digits; octets count as the text
    that they encode, or as a number if they encode none. -/
def scalarValue (tag : Tag) (s : String) : Except Fault Value :=
  match tag with
  | null => .ok .null
  | bool =>
    let word := s.map Char.toLower
    if trueWords.contains word then .ok (.bool true)
    else if falseWords.contains word then .ok (.bool false)
    else .error .missingKey
  | int => (orFault .badValue (int? s)).map .int
  | float => (orFault .badValue (float? s)).map .double
  | timestamp =>
    match Timestamp.read? s with
    | some t => if t.isOnCalendar then .ok (.int t.dayNumber) else .error .badValue
    | none => .error .notRecord
  | binary =>
    match Text.octetsOfBase64? s with
    | some octets =>
      match Text.decodeUtf8? octets with
      | some chars => .ok (.text chars)
      | none => .ok (.int octets.length)
    | none => .error .yaml
  | str => .ok (.text s)
  | _ => .error .yaml

end Tag

end StaffAccess.Yaml

import StaffAccess.Text.Hex
import StaffAccess.Value.Convert

/-!
# Reading JSON

The value of a JSON text. The words `NaN`, `Infinity` and `-Infinity` are read as well; of two
entries of one name the last counts, at the place of the first. Numbers with a fraction or an
exponent are doubles, all others are whole.

Reading goes from left to right and hands on the characters that are left. At least one of two
steps consumes one, so the length of the text bounds the number of steps.

* `Json.read`: the value of a text.
-/

namespace StaffAccess.Json

/-- The rest of a text from its first character on that is no blank. -/
def skipBlanks (cs : List Char) : List Char :=
  cs.dropWhile fun c => c = ' ' || c = '\t' || c = '\n' || c = '\r'

/-- The sixteen-bit unit of four hexadecimal digits, and the rest. -/
def takeUnit : List Char → Option (Nat × List Char)
  | a :: b :: c :: d :: rest => (Text.hexNumber? 0 [a, b, c, d]).map fun n => (n, rest)
  | _ => none

/-- The character of a code point; half of a pair that stands alone is replaced. -/
def characterOf (n : Nat) : Char := if h : n.isValidChar then Char.ofNatAux n h else '\ufffd'

/-- What follows a backslash and the letter of a unit: one unit, or the two of one character. -/
def takeEscapedUnits (cs : List Char) : Option (Char × List Char) := do
  let (high, rest) ← takeUnit cs
  if 0xd800 ≤ high ∧ high ≤ 0xdbff then
    match rest with
    | '\\' :: 'u' :: more =>
      match takeUnit more with
      | some (low, more) =>
        if 0xdc00 ≤ low ∧ low ≤ 0xdfff then
          return (characterOf (0x10000 + (high - 0xd800) * 1024 + (low - 0xdc00)), more)
        else return (characterOf high, rest)
      | none => return (characterOf high, rest)
    | _ => return (characterOf high, rest)
  else return (characterOf high, rest)

/-- The character that a letter behind a backslash stands for. -/
def escaped? : Char → Option Char
  | '"' => some '"'
  | '\\' => some '\\'
  | '/' => some '/'
  | 'b' => some '\x08'
  | 'f' => some '\x0c'
  | 'n' => some '\n'
  | 'r' => some '\r'
  | 't' => some '\t'
  | _ => none

/-- The characters up to the closing quote, and the rest behind it. Control characters are
    refused. -/
def takeText : (steps : Nat) → List Char → Option (List Char × List Char)
  | 0, _ => none
  | _ + 1, [] => none
  | steps + 1, c :: rest =>
    if c = '"' then some ([], rest)
    else if c = '\\' then
      match rest with
      | 'u' :: rest => do
        let (c, rest) ← takeEscapedUnits rest
        let (cs, rest) ← takeText steps rest
        return (c :: cs, rest)
      | e :: rest => do
        let c ← escaped? e
        let (cs, rest) ← takeText steps rest
        return (c :: cs, rest)
      | [] => none
    else if c.toNat < 0x20 then none
    else do
      let (cs, rest) ← takeText steps rest
      return (c :: cs, rest)

/-- Whether there is a minus sign in front, and the rest. -/
def takeMinus : List Char → Bool × List Char
  | '-' :: rest => (true, rest)
  | cs => (false, cs)

/-- The whole part in front, which has no leading zeros, and the rest. -/
def takeWhole? : List Char → Option (List Char × List Char)
  | '0' :: rest => some (['0'], rest)
  | cs =>
    let (digits, rest) := Text.takeDigits cs
    if digits.isEmpty then none else some (digits, rest)

/-- The digits behind a point, and the rest. A point without digits is left alone. -/
def takeFraction : List Char → List Char × List Char
  | '.' :: cs =>
    let (digits, rest) := Text.takeDigits cs
    if digits.isEmpty then ([], '.' :: cs) else (digits, rest)
  | cs => ([], cs)

/-- The number in front, and the rest. -/
def takeNumber (cs : List Char) : Option (Value × List Char) := do
  let (negative, cs) := takeMinus cs
  let (whole, cs) ← takeWhole? cs
  let (fraction, cs) := takeFraction cs
  let (exponent, rest) := Text.takeExponent cs
  if fraction.isEmpty && rest.length = cs.length then
    if Text.maxDigits < whole.length then none
    else
      let n := Text.natOfDigits whole
      return (.int (if negative then -n else n), cs)
  else return (.double (Text.ofParts negative whole fraction exponent), rest)

/-- The rest behind a word, if the text starts with it. -/
def takeWord? (word : String) (cs : List Char) : Option (List Char) :=
  if word.toList.isPrefixOf cs then some (cs.drop word.length) else none

/-- The words that stand for values. -/
def words : List (String × Value) :=
  [("null", .null), ("true", .bool true), ("false", .bool false), ("NaN", .double .nan),
   ("Infinity", .double (.infinite false)), ("-Infinity", .double (.infinite true))]

/-- The word or the number in front, and the rest. -/
def takeScalar (cs : List Char) : Option (Value × List Char) :=
  (words.findSome? fun (word, v) => (takeWord? word cs).map fun rest => (v, rest)).or
    (takeNumber cs)

/-- How deep lists and records may lie in each other. There is such a limit because reading goes
    into them one by one; where exactly it lies depends on what else is going on at the time, so
    this is an approximation. -/
def maxDepth : Nat := 990

/-- Takes an optional result as one that is there, or the text as none of JSON. -/
def orBad {α : Type} : Option α → Except Fault α
  | some a => .ok a
  | none => .error .badValue

mutual

/-- The value in front, and the rest. -/
def takeValue : (steps depth : Nat) → List Char → Except Fault (Value × List Char)
  | 0, _, _ => .error .badValue
  | steps + 1, depth, cs =>
    match cs with
    | '"' :: rest => do
      let (s, rest) ← orBad (takeText (rest.length + 1) rest)
      return (.text (String.ofList s), rest)
    | '[' :: rest =>
      if depth = 0 then .error .tooDeep
      else match skipBlanks rest with
        | ']' :: rest => .ok (.list [], rest)
        | rest => do
          let (items, rest) ← takeItems steps (depth - 1) rest
          return (.list items, rest)
    | '\x7b' :: rest =>
      if depth = 0 then .error .tooDeep
      else match skipBlanks rest with
        | '\x7d' :: rest => .ok (.record [], rest)
        | rest => do
          let (entries, rest) ← takeEntries steps (depth - 1) rest
          return (.record (Value.fieldsOfEntries entries), rest)
    | _ => orBad (takeScalar cs)

/-- The items of a list up to its closing bracket, and the rest behind it. -/
def takeItems : (steps depth : Nat) → List Char → Except Fault (List Value × List Char)
  | 0, _, _ => .error .badValue
  | steps + 1, depth, cs => do
    let (x, rest) ← takeValue steps depth cs
    match skipBlanks rest with
    | ']' :: rest => return ([x], rest)
    | ',' :: rest =>
      let (xs, rest) ← takeItems steps depth (skipBlanks rest)
      return (x :: xs, rest)
    | _ => .error .badValue

/-- The entries of a record up to its closing bracket, and the rest behind it. -/
def takeEntries : (steps depth : Nat) → List Char → Except Fault (Fields × List Char)
  | 0, _, _ => .error .badValue
  | steps + 1, depth, cs =>
    match cs with
    | '"' :: rest => do
      let (name, rest) ← orBad (takeText (rest.length + 1) rest)
      match skipBlanks rest with
      | ':' :: rest =>
        let (x, rest) ← takeValue steps depth (skipBlanks rest)
        match skipBlanks rest with
        | '\x7d' :: rest => return ([(String.ofList name, x)], rest)
        | ',' :: rest =>
          let (entries, rest) ← takeEntries steps depth (skipBlanks rest)
          return ((String.ofList name, x) :: entries, rest)
        | _ => .error .badValue
      | _ => .error .badValue
    | _ => .error .badValue

end

/-- The value of a text. -/
def read (s : String) : Except Fault Value := do
  let cs := skipBlanks s.toList
  let (v, rest) ← takeValue (2 * cs.length + 1) maxDepth cs
  if (skipBlanks rest).isEmpty then return v else .error .badValue

end StaffAccess.Json

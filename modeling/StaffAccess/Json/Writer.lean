import StaffAccess.Double.Shortest
import StaffAccess.Text.Hex
import StaffAccess.Value

/-!
# Writing JSON

The compact JSON text of a value: no blanks, and ASCII alone. Infinities and NaN, which
JSON does not have, are written as words.

Every value has a text here. This is an idealisation: the limits on the digits of whole numbers and
on the depth of lists and records are those of reading alone, and a value beyond them, for which
writing may fail as well, has a text that is not read back.

* `Json.write`: the text of a value.
-/

namespace StaffAccess.Json

/-- A sixteen-bit unit, escaped. -/
def unit (n : Nat) : List Char := '\\' :: 'u' :: Text.hex 4 n

/-- A character between the quotes of a text. Characters beyond sixteen bits take two units. -/
def character (c : Char) : List Char :=
  let n := c.toNat
  if c = '"' ∨ c = '\\' then ['\\', c]
  else if c = '\n' then ['\\', 'n']
  else if c = '\r' then ['\\', 'r']
  else if c = '\t' then ['\\', 't']
  else if n = 8 then ['\\', 'b']
  else if n = 12 then ['\\', 'f']
  else if 0x20 ≤ n ∧ n < 0x7f then [c]
  else if n < 0x10000 then unit n
  else unit (0xd800 + (n - 0x10000) / 1024) ++ unit (0xdc00 + (n - 0x10000) % 1024)

/-- A text with its quotes. -/
def quoted (s : String) : String :=
  String.ofList ('"' :: s.toList.flatMap character ++ ['"'])

/-- A double. -/
def double : Double → String
  | .nan => "NaN"
  | .infinite s => if s then "-Infinity" else "Infinity"
  | d => d.text

mutual

/-- The text of a value. -/
def write : Value → String
  | .null => "null"
  | .bool b => if b then "true" else "false"
  | .int n => toString n
  | .double d => double d
  | .text s => quoted s
  | .list xs => "[" ++ writeItems xs ++ "]"
  | .record f => "\x7b" ++ writeFields f ++ "\x7d"

/-- The texts of some values, with commas between them. -/
def writeItems : List Value → String
  | [] => ""
  | x :: xs => write x ++ (if xs.isEmpty then "" else ",") ++ writeItems xs

/-- The texts of the entries of a record, with commas between them. -/
def writeFields : List (String × Value) → String
  | [] => ""
  | (name, x) :: rest =>
    quoted name ++ ":" ++ write x ++ (if rest.isEmpty then "" else ",") ++ writeFields rest

end

end StaffAccess.Json

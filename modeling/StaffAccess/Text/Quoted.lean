import StaffAccess.Text.Hex
import StaffAccess.Text.Printable

/-!
# Quoted text

How a text stands inside a message: between single quotes, or between double quotes if it holds
a single one and no double one, with every character escaped that would not show.

* `Text.escape`: one character between a given quote.
* `Text.quoted`: a whole text.
-/

namespace StaffAccess.Text

/-- A character as it stands between two quotes. -/
def escape (quote c : Char) : List Char :=
  if c = quote ∨ c = '\\' then ['\\', c]
  else if c = '\n' then ['\\', 'n']
  else if c = '\r' then ['\\', 'r']
  else if c = '\t' then ['\\', 't']
  else if isPrintable c then [c]
  else if c.toNat < 0x100 then '\\' :: 'x' :: hex 2 c.toNat
  else if c.toNat < 0x10000 then '\\' :: 'u' :: hex 4 c.toNat
  else '\\' :: 'U' :: hex 8 c.toNat

/-- The quote that needs the fewer escapes, the single one being preferred. -/
def quoteFor (cs : List Char) : Char :=
  if cs.contains '\'' && !cs.contains '"' then '"' else '\''

/-- A text with its quotes. -/
def quoted (s : String) : String :=
  let quote := quoteFor s.toList
  String.ofList (quote :: s.toList.flatMap (escape quote) ++ [quote])

end StaffAccess.Text

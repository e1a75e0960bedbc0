import StaffAccess.Text.Encoding
import StaffAccess.Text.Hex
import StaffAccess.Text.Numeral
import StaffAccess.Fault

/-!
# Reading places in a text

The part of a YAML text that is still to be read, with its line and column. All of YAML's layout
is said in columns, so every step to the right keeps count.

* `Source`: the rest of a text and where it starts.
* `Source.next`, `Source.drop`: steps to the right.
* `Scan`: reading that moves the place and may fail.
-/

namespace StaffAccess.Yaml

/-! ## Characters -/

/-- Whether a character ends a line. -/
def isBreak (c : Char) : Bool := c = '\n' || c = '\u0085' || c = '\u2028' || c = '\u2029'

/-- Whether a character may stand in a text at all. -/
def isAllowed (c : Char) : Bool :=
  let n := c.toNat
  n = 0x09 || n = 0x0a || n = 0x0d || (0x20 ≤ n && n ≤ 0x7e) || n = 0x85 ||
    (0xa0 ≤ n && n ≤ 0xd7ff) || (0xe000 ≤ n && n ≤ 0xfffd) || 0x10000 ≤ n

/-- Whether a character may stand in a name. -/
def isWordChar (c : Char) : Bool := c.isAlphanum || c = '-' || c = '_'

/-- Whether the next character ends the line, if there is one. -/
def endsLine : Option Char → Bool
  | some c => isBreak c
  | none => true

/-- Whether the next character is a space or ends the line. -/
def endsWord (c : Option Char) : Bool := c = some ' ' || endsLine c

/-- Whether the next character is a space or a tab or ends the line. -/
def isGap (c : Option Char) : Bool := c = some '\t' || endsWord c

/-! ## Places -/

/-- The rest of a text, and where in the text it starts. -/
structure Source where
  /-- What is still to be read. -/
  rest : List Char
  /-- The number of characters before. -/
  index : Nat := 0
  /-- The number of lines before. -/
  line : Nat := 0
  /-- The number of characters before on the line. -/
  column : Nat := 0

namespace Source

/-- The next character but `n`. -/
def peek (s : Source) (n : Nat) : Option Char := s.rest[n]?

/-- The place behind the next character. A mark of byte order has no width. -/
def next (s : Source) : Source :=
  match s.rest with
  | [] => s
  | c :: rest =>
    if isBreak c then { rest, index := s.index + 1, line := s.line + 1, column := 0 }
    else { rest, index := s.index + 1, line := s.line,
           column := if c = '\ufeff' then s.column else s.column + 1 }

/-- The place behind the next `n` characters. -/
def drop (s : Source) : Nat → Source
  | 0 => s
  | n + 1 => s.next.drop n

/-- Whether the text goes on with some characters. -/
def startsWith (s : Source) (word : String) : Bool := word.toList.isPrefixOf s.rest

/-- Whether a line starts here that begins or ends a document. -/
def atDocumentMark (s : Source) : Bool :=
  s.column = 0 && (s.startsWith "---" || s.startsWith "...") && isGap (s.peek 3)

theorem length_rest_next (s : Source) : s.next.rest.length = s.rest.length - 1 := by
  rw [next]
  split
  · next h => simp [h]
  · next h => split <;> simp [h]

end Source

/-! ## Reading -/

/-- Reading that moves the place and may fail. -/
abbrev Scan := StateT Source (Except Fault)

namespace Scan

/-- The next character but `n`. -/
def peekAt (n : Nat) : Scan (Option Char) := return (← get).peek n

/-- The next character. -/
def peek : Scan (Option Char) := peekAt 0

/-- Goes behind the next `n` characters. -/
def skip (n : Nat) : Scan Unit := modify (·.drop n)

/-- Goes behind the next character. -/
def step : Scan Unit := modify (·.next)

/-- Goes to the first character that fails a test, and gives those before. -/
def takeWhile (test : Char → Bool) : Scan (List Char) := do
  let taken := (← get).rest.takeWhile test
  skip taken.length
  return taken

/-- A number that bounds the steps that are left. -/
def bound : Scan Nat := return (← get).rest.length + 1

/-- A text that is no YAML. -/
def refuse {α : Type} : Scan α := throw .yaml

/-- Goes on only if a condition holds. -/
def demand (condition : Bool) : Scan Unit := if condition then return else refuse

/-- Goes behind the end of the line, if it is here. All but two kinds of breaks are read as one
    line feed. -/
def takeBreak : Scan (List Char) := do
  match ← peek with
  | some c =>
    if isBreak c then
      step
      return [if c = '\u0085' then '\n' else c]
    else return []
  | none => return []

/-- Goes behind spaces and a comment to the end of the line, where the line must end. -/
def endLine : Scan Unit := do
  let _ ← takeWhile (· = ' ')
  if (← peek) = some '#' then let _ ← takeWhile (!isBreak ·)
  demand (endsLine (← peek))
  let _ ← takeBreak

end Scan

end StaffAccess.Yaml

import StaffAccess.Yaml.Content
import StaffAccess.Yaml.Layout

/-!
# YAML

The value of a YAML text of one document, by version 1.1 of the language: `yes` is true, and
numbers may be written to the base of sixty.

* `Yaml.read`: the value of a text, null if it is empty.
-/

namespace StaffAccess.Yaml

/-- The characters with every end of a line as a line feed. -/
def plainBreaks : List Char → List Char
  | '\r' :: '\n' :: cs => '\n' :: plainBreaks cs
  | '\r' :: cs => '\n' :: plainBreaks cs
  | c :: cs => c :: plainBreaks cs
  | [] => []

/-- The value of a text. -/
def read (s : String) : Except Fault Value := do
  match ← Node.ofTokens (← Token.ofText (plainBreaks s.toList)) with
  | some node => node.toValue
  | none => return .null

end StaffAccess.Yaml

import StaffAccess.Double.Shortest
import StaffAccess.Text.Quoted
import StaffAccess.Value

/-!
# The text of a value

How values stand inside messages and keys.

* `Value.literal`: the form that tells a text from a number: texts are quoted.
* `Value.display`: the same, but a text stands for itself.
* `Value.kindName`: the name of the kind of a value.
-/

namespace StaffAccess.Value

mutual

/-- The literal form of a value. -/
def literal : Value → String
  | null => "None"
  | bool b => if b then "True" else "False"
  | int n => toString n
  | double d => d.text
  | text s => Text.quoted s
  | list xs => "[" ++ literalItems xs ++ "]"
  | record f => "\x7b" ++ literalFields f ++ "\x7d"

/-- The literal forms of some values, with commas between them. -/
def literalItems : List Value → String
  | [] => ""
  | x :: xs => x.literal ++ (if xs.isEmpty then "" else ", ") ++ literalItems xs

/-- The literal forms of the entries of a record, with commas between them. -/
def literalFields : List (String × Value) → String
  | [] => ""
  | (name, x) :: rest =>
    Text.quoted name ++ ": " ++ x.literal ++ (if rest.isEmpty then "" else ", ") ++
      literalFields rest

end

/-- The text that a value is shown as. -/
def display : Value → String
  | text s => s
  | v => v.literal

@[simp] theorem display_text (s : String) : (text s).display = s := rfl

/-- The name of the kind of a value. -/
def kindName : Value → String
  | null => "NoneType"
  | bool _ => "bool"
  | int _ => "int"
  | double _ => "float"
  | text _ => "str"
  | list _ => "list"
  | record _ => "dict"

end StaffAccess.Value

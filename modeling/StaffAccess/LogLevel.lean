import StaffAccess.Fault

/-!
# Log levels

How much is logged, as a word in any letter case.

* `LogLevel.ofValue`: the number of a level.
-/

namespace StaffAccess.LogLevel

/-- The levels. -/
def levels : List (String × Int) :=
  [("CRITICAL", 50), ("FATAL", 50), ("ERROR", 40), ("WARNING", 30), ("WARN", 30), ("INFO", 20),
   ("DEBUG", 10), ("NOTSET", 0)]

/-- A character in upper case, as far as that is an ASCII letter. The small letters of ASCII have
    one, and so do the dotless i and the long s. -/
def upper (c : Char) : Char :=
  if c = 'ı' then 'I' else if c = 'ſ' then 'S' else c.toUpper

/-- The number of the level that a word stands for. -/
def ofWord? (word : String) : Option Int := levels.lookup (String.ofList (word.toList.map upper))

/-- The number of the level that a value stands for; only a text can be one. -/
def ofValue : Value → Except Fault Int
  | .text word => match ofWord? word with
    | some level => .ok level
    | none => .error .badValue
  | _ => .error .notRecord

end StaffAccess.LogLevel

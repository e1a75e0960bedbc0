import StaffAccess.Value.Convert

/-!
# Columns

The columns of the tables and what they hold. A value that is stored in a column, or compared
with one, takes the form of the column first: numbers become texts in a column of texts, and
texts that are numerals become numbers in a column of whole numbers.

* `ColumnKind.store`: the form that a value takes in a column.
* `Double.toMicros`: points in time as they are stored.
-/

namespace StaffAccess

/-- The number of whole microseconds nearest to a number of seconds, a tie going to the even
    one. -/
def Double.toMicros : Double → Option Int
  | .finite negative units => some (signed negative (nearest (units * 1000000) one))
  | _ => none

namespace Database

/-- What a column holds. -/
inductive ColumnKind
  /-- Texts. -/
  | text
  /-- Whole numbers. -/
  | whole
  /-- Truth values. -/
  | flag
  /-- Points in time, in microseconds. -/
  | moment
  /-- Any values. -/
  | any
  deriving DecidableEq, Repr

/-- A column. -/
structure Column where
  /-- The name. -/
  name : String
  /-- What it holds. -/
  kind : ColumnKind
  /-- Whether every row must have a value in it. -/
  isRequired : Bool := true
  /-- The value in rows that are not given one. -/
  fallback : Value := .null
  deriving Repr

/-- The whole numbers that a store holds. -/
def inRange (n : Int) : Bool := -(Nat.pow 2 63 : Int) ≤ n && n < Nat.pow 2 63

/-- A whole number, if the store can hold it. -/
def storedInt (n : Int) : Except Fault Value :=
  if inRange n then .ok (.int n) else .error .outOfRange

/-- A double among whole numbers. -/
def storedDouble (d : Double) : Value :=
  match d.truncate? with
  | some n => if inRange n && (Value.double d).sameNumber (.int n) then .int n else .double d
  | none => .double d

/-- The characters that numerals of a store are made of. -/
def isNumeralChar (c : Char) : Bool :=
  c.isDigit || c = '.' || c = '+' || c = '-' || c = 'e' || c = 'E' || c.isWhitespace

/-- A text among whole numbers. -/
def storedNumeral (s : String) : Value :=
  if s.toList.all isNumeralChar then
    match Text.wholeNumber? s, Text.decimalNumber? s with
    | some n, some d => if inRange n then .int n else .double d
    | _, some d => storedDouble d
    | _, none => .text s
  else .text s

/-- The truth value that a value stands for in a column: itself, or one of the numbers zero and
    one. -/
def storedFlag (v : Value) : Except Fault Value :=
  if v.sameNumber (.int 0) then .ok (.bool false)
  else if v.sameNumber (.int 1) then .ok (.bool true)
  else .error .statement

/-- A point in time, given in seconds. -/
def storedMoment (seconds : Double) : Except Fault Value :=
  match seconds.toMicros with
  | some n => .ok (.int n)
  | none => .error .badValue

/-- The form that a value takes in a column. -/
def ColumnKind.store (kind : ColumnKind) (v : Value) : Except Fault Value :=
  match kind, v with
  | .any, v => .ok v
  | _, .null => .ok .null
  | .text, .text s => .ok (.text s)
  | .text, .int n => return .text (← storedInt n).display
  | .text, .bool b => .ok (.text (if b then "1" else "0"))
  | .text, .double d => .ok (.text d.text)
  | .whole, .int n => storedInt n
  | .whole, .bool b => .ok (.int (Value.ofFlag b))
  | .whole, .double d => .ok (storedDouble d)
  | .whole, .text s => .ok (storedNumeral s)
  | .flag, v => storedFlag v
  | .moment, .int n => storedMoment (.ofInt n)
  | .moment, .double d => storedMoment d
  | .moment, _ => .error .wrongType
  | _, _ => .error .statement

@[simp] theorem ColumnKind.store_text (s : String) :
    ColumnKind.text.store (.text s) = .ok (.text s) := rfl

end Database

end StaffAccess

import StaffAccess.Fault
import StaffAccess.Text.Numeral
import StaffAccess.Text.Part

/-!
# Conversions of values

What a value counts as where a number or a record is asked for, and the faults of values that
count as none.

* `Value.toInt`, `Value.toDouble`: numbers, truth values and numerals.
* `Value.toFields`: records, and lists of pairs.
-/

namespace StaffAccess.Value

/-- The whole number that a value counts as; a fraction is cut off. -/
def toInt : Value → Except Fault Int
  | bool b => .ok (ofFlag b)
  | int n => .ok n
  | double .nan => .error .badValue
  | double (.infinite _) => .error .outOfRange
  | double d =>
    match d.truncate? with
    | some n => .ok n
    | none => .error .badValue
  | text s =>
    match Text.wholeNumber? s with
    | some n => .ok n
    | none => .error .badValue
  | _ => .error .wrongType

@[simp] theorem toInt_int (n : Int) : (int n).toInt = .ok n := rfl

/-- The double that a whole number counts as. -/
def doubleOfInt (n : Int) : Except Fault Double :=
  match Double.ofInt? n with
  | some d => .ok d
  | none => .error .outOfRange

/-- The double that a value counts as. -/
def toDouble : Value → Except Fault Double
  | bool b => doubleOfInt (ofFlag b)
  | int n => doubleOfInt n
  | double d => .ok d
  | text s =>
    match Text.decimalNumber? s with
    | some d => .ok d
    | none => .error .badValue
  | _ => .error .wrongType

@[simp] theorem toDouble_double (d : Double) : (double d).toDouble = .ok d := rfl

/-- A value of a container, of which keys can be looked up. -/
def toName : Value → Except Fault String
  | list _ => .error .wrongType
  | record _ => .error .wrongType
  | text s => .ok s
  | null => .ok "null"
  | bool b => .ok (if b then "true" else "false")
  | v => .ok v.literal

/-- The name and the value that one item of a list gives: a list of two values, a text of two
    characters, or a record of two names. -/
def toEntry : Value → Except Fault (String × Value)
  | list [name, v] => return (← name.toName, v)
  | list _ => .error .badValue
  | text s =>
    match s.toList with
    | [a, b] => .ok (String.singleton a, text (String.singleton b))
    | _ => .error .badValue
  | record [(name, _), (other, _)] => .ok (name, text other)
  | record _ => .error .badValue
  | _ => .error .wrongType

/-- Gives a name a value: in its place if the record has it, and at the end if not. -/
def setField (fields : Fields) (name : String) (v : Value) : Fields :=
  if (fields.lookup name).isSome then
    fields.map fun e => if e.1 == name then (e.1, v) else e
  else fields ++ [(name, v)]

/-- The record of entries that are set one after the other. -/
def fieldsOfEntries (entries : List (String × Value)) : Fields :=
  entries.foldl (fun fields e => setField fields e.1 e.2) []

/-- The entries of a value that counts as a record: a record, a list of entries, or an empty
    text. -/
def toFields : Value → Except Fault Fields
  | record f => .ok f
  | list xs => return fieldsOfEntries (← xs.mapM toEntry)
  | text s => if s = "" then .ok [] else .error .badValue
  | _ => .error .wrongType

@[simp] theorem toFields_record (f : Fields) : (record f).toFields = .ok f := rfl

/-- The entry of a record. -/
def field (name : String) : Value → Except Fault Value
  | record f =>
    match f.lookup name with
    | some v => .ok v
    | none => .error .missingKey
  | _ => .error .wrongType

/-- The entry of a record, if there is one; only records can be asked. -/
def field? (name : String) : Value → Except Fault (Option Value)
  | record f => .ok (f.lookup name)
  | _ => .error .notRecord

/-- The entry of a record, null if there is none; only records can be asked. -/
def fieldD (name : String) : Value → Except Fault Value
  | record f => .ok ((f.lookup name).getD null)
  | _ => .error .notRecord

/-- What a value holds under a name: the entry of a record. In a list and in a text the name is
    looked for as an item or a part; found there, it has no value. -/
def lookup? (name : String) : Value → Except Fault (Option Value)
  | record f => .ok (f.lookup name)
  | list xs => if xs.any (·.same (text name)) then .error .wrongType else .ok none
  | text s => if Text.contains name s then .error .wrongType else .ok none
  | _ => .error .wrongType

end StaffAccess.Value

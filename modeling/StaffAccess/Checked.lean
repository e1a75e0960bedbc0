import StaffAccess.Value.Convert

/-!
# Checked values

Conditions, policies and request bodies have a prescribed shape. Checking a value against a
shape either gives what the value says or counts the places where it is wrong; all parts are
checked, so one wrong part does not hide another.

* `Checked`: the outcome of a check, with the parts put together by `<*>`.
* `Checked.flag`, `Checked.string`, `Checked.listOf`, …: the shapes.
* `Checked.entry`: the part of a record with a given name.
-/

namespace StaffAccess

/-- The outcome of checking a value against a shape. -/
inductive Checked (α : Type) where
  /-- The value has the shape. -/
  | valid (result : α)
  /-- The value is wrong in one place and in `more` others. -/
  | wrong (more : Nat)
  deriving Repr

namespace Checked

variable {α β : Type}

/-- Changes what a valid value says. -/
def map (f : α → β) : Checked α → Checked β
  | valid a => valid (f a)
  | wrong n => wrong n

/-- Puts two parts together. The wrong places of both count. -/
def seq (f : Checked (α → β)) (a : Unit → Checked α) : Checked β :=
  match f, a () with
  | valid f, valid a => valid (f a)
  | valid _, wrong n => wrong n
  | wrong m, valid _ => wrong m
  | wrong m, wrong n => wrong (m + n + 1)

instance : Applicative Checked where
  pure := valid
  map := map
  seq := seq

/-- The number of wrong places. -/
def errors : Checked α → Nat
  | valid _ => 0
  | wrong n => n + 1

/-- What the value says, or the fault that counts its wrong places. -/
def toExcept : Checked α → Except Fault α
  | valid a => .ok a
  | wrong n => .error (.invalid (n + 1))

/-- One wrong place. -/
def bad : Checked α := wrong 0

theorem errors_seq (f : Checked (α → β)) (a : Checked α) :
    (f <*> a).errors = f.errors + a.errors := by
  show (seq f fun _ => a).errors = _
  cases f <;> cases a <;> simp [seq, errors] <;> omega

/-! ## Shapes -/

/-- The words for the two truth values, in lower case. -/
def flagWords : List (String × Bool) :=
  [("true", true), ("t", true), ("yes", true), ("y", true), ("on", true), ("1", true),
   ("false", false), ("f", false), ("no", false), ("n", false), ("off", false), ("0", false)]

/-- The truth value that a word in any letter case stands for. -/
def flagOfWord? (s : String) : Option Bool :=
  flagWords.lookup (String.ofList (s.toList.map Char.toLower))

/-- A truth value: itself, zero or one, or a word for it. -/
def flag : Value → Checked Bool
  | .bool b => valid b
  | .text s => match flagOfWord? s with
    | some b => valid b
    | none => bad
  | v =>
    if v.sameNumber (.int 0) then valid false
    else if v.sameNumber (.int 1) then valid true
    else bad

/-- A text. -/
def string : Value → Checked String
  | .text s => valid s
  | _ => bad

/-- A word of a vocabulary. -/
def word (ofWord? : String → Option α) : Value → Checked α
  | .text s => match ofWord? s with
    | some a => valid a
    | none => bad
  | _ => bad

/-- The outcomes for all items, put together. -/
def all : List (Checked α) → Checked (List α)
  | [] => valid []
  | a :: as => List.cons <$> a <*> all as

/-- A list whose items have a shape. -/
def listOf (item : Value → Checked α) : Value → Checked (List α)
  | .list xs => all (xs.map item)
  | _ => bad

/-- A record whose names and values have a shape each. -/
def mapOf (name : String → Checked α) (item : Value → Checked β) :
    Value → Checked (List (α × β))
  | .record f => all (f.map fun e => Prod.mk <$> name e.1 <*> item e.2)
  | _ => bad

/-- A record of any entries. -/
def fields : Value → Checked Fields
  | .record f => valid f
  | _ => bad

/-- Null, or a value of a shape. -/
def optional (shape : Value → Checked α) : Value → Checked (Option α)
  | .null => valid none
  | v => some <$> shape v

/-- A record, of which a check looks at the entries. -/
def recordOf (check : Fields → Checked α) : Value → Checked α
  | .record f => check f
  | _ => bad

/-- The named entry of a record, or a default if it is missing. -/
def entry (f : Fields) (name : String) (shape : Value → Checked α) (fallback : α) : Checked α :=
  match f.lookup name with
  | some v => shape v
  | none => valid fallback

/-- The named entry of a record, which must be there. -/
def required (f : Fields) (name : String) (shape : Value → Checked α) : Checked α :=
  match f.lookup name with
  | some v => shape v
  | none => bad

end Checked

end StaffAccess

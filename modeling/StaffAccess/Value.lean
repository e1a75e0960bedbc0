import StaffAccess.Double

/-!
# Values

The data that rules, conditions, request contexts and stored rows are made of: what a JSON text
can hold. The entries of a record have an order, and their names are distinct.

* `Value.same`: equality of content. Numbers are compared by their exact value, with `true` as
  one and `false` as zero; records regardless of the order of their entries.
* `Value.truthy`: whether a value counts as given.
* `Value.isKey`: whether a value can be looked up by.
-/

namespace StaffAccess

/-- A datum. -/
inductive Value
  /-- No value. -/
  | null
  /-- A truth value. -/
  | bool (flag : Bool)
  /-- A whole number of any size. -/
  | int (number : Int)
  /-- A double-precision number. -/
  | double (number : Double)
  /-- A text. -/
  | text (chars : String)
  /-- Values in a row. -/
  | list (items : List Value)
  /-- Named values. -/
  | record (fields : List (String × Value))
  deriving Inhabited, Repr

/-- Named values, in order. -/
abbrev Fields := List (String × Value)

namespace Value

/-! ## Numbers -/

/-- The whole number that a truth value counts as. -/
def ofFlag (flag : Bool) : Int := if flag then 1 else 0

/-- The exact number that a value stands for, if it is one and not NaN. -/
def quantity? : Value → Option Quantity
  | bool b => some (Double.quantityOfInt (ofFlag b))
  | int n => some (Double.quantityOfInt n)
  | double d => d.exact
  | _ => none

/-- Whether two values are numbers of one size. -/
def sameNumber (a b : Value) : Bool :=
  match a.quantity?, b.quantity? with
  | some m, some n => m = n
  | _, _ => false

/-! ## Equality -/

mutual

/-- Whether two values have the same content. -/
def same : Value → Value → Bool
  | null, b => match b with
    | null => true
    | _ => false
  | text s, b => match b with
    | text t => s = t
    | _ => false
  | list xs, b => match b with
    | list ys => sameItems xs ys
    | _ => false
  | record f, b => match b with
    | record g => f.length = g.length && sameFields f g
    | _ => false
  | bool x, b => sameNumber (bool x) b
  | int x, b => sameNumber (int x) b
  | double x, b => sameNumber (double x) b

/-- Whether two lists have the same content, item by item. -/
def sameItems : List Value → List Value → Bool
  | [], ys => ys.isEmpty
  | x :: xs, ys => match ys with
    | y :: ys => x.same y && sameItems xs ys
    | [] => false

/-- Whether every entry of the first record is in the second. -/
def sameFields : List (String × Value) → List (String × Value) → Bool
  | [], _ => true
  | (name, x) :: rest, g =>
    (match g.lookup name with
      | some y => x.same y
      | none => false) && sameFields rest g

end

/-- Values are compared by content. -/
instance : BEq Value := ⟨same⟩

theorem beq_eq_same (a b : Value) : (a == b) = a.same b := rfl

@[simp] theorem same_text (s t : String) : (text s).same (text t) = decide (s = t) := by
  simp [same]

@[simp] theorem same_null_left (a : Value) : null.same a = true ↔ a = null := by
  cases a <;> simp [same]

@[simp] theorem same_null_right (a : Value) : a.same null = true ↔ a = null := by
  cases a <;> simp [same, sameNumber, quantity?]

theorem same_text_left_iff (s : String) (a : Value) : (text s).same a = true ↔ a = text s := by
  cases a <;> simp [same, eq_comm]

theorem same_text_right_iff (s : String) (a : Value) : a.same (text s) = true ↔ a = text s := by
  cases a <;> simp [same, sameNumber, quantity?]

/-! ## Classes of values -/

/-- Whether a value counts as given: it is not null, not zero and not empty. -/
def truthy : Value → Bool
  | null => false
  | bool b => b
  | int n => n ≠ 0
  | double d => !d.isZero
  | text s => s ≠ ""
  | list xs => !xs.isEmpty
  | record f => !f.isEmpty

/-- Whether a value can be looked up by: lists and records cannot. -/
def isKey : Value → Bool
  | list _ => false
  | record _ => false
  | _ => true

/-- Whether a value is null. -/
def isNull : Value → Bool
  | null => true
  | _ => false

@[simp] theorem isNull_iff (a : Value) : a.isNull = true ↔ a = null := by
  cases a <;> simp [isNull]

/-- The named entry of a record. -/
def get? : Value → String → Option Value
  | record f, name => f.lookup name
  | _, _ => none

end Value

end StaffAccess

import StaffAccess.OrderedMap
import StaffAccess.Value.Convert

/-!
# Permission matrices

What may be done to one business object: five independent grants. The matrices of several
groups are merged grant by grant, so what one group grants no other can take away.

* `PermissionMatrix.allows`: one grant.
* `PermissionMatrix.merge`: the grants of two matrices together.
* `PermissionMatrix.le`: the order in which more grants are more.
-/

namespace StaffAccess

/-- Five grants on one business object. -/
structure PermissionMatrix where
  /-- To look at it. -/
  read : Bool
  /-- To change it. -/
  write : Bool
  /-- To make a new one. -/
  create : Bool
  /-- To remove it. -/
  delete : Bool
  /-- To give consent to it. -/
  approve : Bool
  deriving DecidableEq, Repr, Inhabited

namespace PermissionMatrix

/-- The matrix without a grant. -/
def none : PermissionMatrix := ⟨false, false, false, false, false⟩

/-- Whether an action is granted. -/
def allows (m : PermissionMatrix) : Action → Bool
  | .read => m.read
  | .write => m.write
  | .create => m.create
  | .delete => m.delete
  | .approve => m.approve

/-- The matrix that grants the actions which pass a test. -/
def ofActions (granted : Action → Bool) : PermissionMatrix :=
  ⟨granted .read, granted .write, granted .create, granted .delete, granted .approve⟩

/-- The grants of both matrices. -/
def merge (m n : PermissionMatrix) : PermissionMatrix :=
  ofActions fun a => m.allows a || n.allows a

/-- Whether anything is granted. -/
def any (m : PermissionMatrix) : Bool := Action.all.any m.allows

/-- Whether the second matrix has every grant of the first. -/
def le (m n : PermissionMatrix) : Prop := ∀ a, m.allows a = true → n.allows a = true

@[simp] theorem allows_none (a : Action) : none.allows a = false := by cases a <;> rfl

@[simp] theorem allows_ofActions (granted : Action → Bool) (a : Action) :
    (ofActions granted).allows a = granted a := by cases a <;> rfl

@[simp] theorem allows_merge (m n : PermissionMatrix) (a : Action) :
    (m.merge n).allows a = (m.allows a || n.allows a) := by simp [merge]

@[ext] theorem ext_allows {m n : PermissionMatrix} (h : ∀ a, m.allows a = n.allows a) :
    m = n := by
  cases m; cases n
  simpa [allows] using And.intro (h .read) (And.intro (h .write) (And.intro (h .create)
    (And.intro (h .delete) (h .approve))))

theorem any_eq_true_iff (m : PermissionMatrix) :
    m.any = true ↔ ∃ a, m.allows a = true := by simp [any]

/-! ## Written form -/

/-- The record of the grants. -/
def toValue (m : PermissionMatrix) : Value :=
  .record (Action.all.map fun a => (a.word, .bool (m.allows a)))

/-- The matrix that a record stands for: what counts as given is granted, and what is missing
    is not. -/
def ofValue : Value → Except Fault PermissionMatrix
  | .record f => .ok (ofActions fun a => ((f.lookup a.word).getD (.bool false)).truthy)
  | _ => .error .notRecord

@[simp] theorem ofValue_toValue (m : PermissionMatrix) : ofValue m.toValue = .ok m := by
  cases m; rfl

end PermissionMatrix

/-- The action that a value names. -/
def Action.ofValue? : Value → Option Action
  | .text s => Action.ofWord? s
  | _ => none

/-- The action that a value names; any other value is a fault. -/
def Action.ofValue (v : Value) : Except Fault Action :=
  match Action.ofValue? v with
  | some a => .ok a
  | none => .error .badValue

end StaffAccess

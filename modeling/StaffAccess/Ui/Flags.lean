/-!
# Flags of elements

How an element of the user interface shows itself. What several conditions leave of it is taken
together by `both`, what several rules give it by `either`; in both cases an element is read-only
as soon as one part says so.

* `Flags.both`, `Flags.either`: the two ways to put flags together.
-/

namespace StaffAccess

/-- How an element shows itself. -/
structure Flags where
  /-- It can be seen. -/
  visible : Bool
  /-- It can be used. -/
  enabled : Bool
  /-- It can be used only to look at. -/
  readonly : Bool
  deriving DecidableEq, Repr, Inhabited

namespace Flags

/-- Nothing is restricted. -/
def unrestricted : Flags := ⟨true, true, false⟩

/-- Nothing is granted. -/
def closed : Flags := ⟨false, false, false⟩

/-- It is hidden because of a fault. -/
def locked : Flags := ⟨false, false, true⟩

/-- It is restricted in its visibility only. -/
def shown (visible : Bool) : Flags := ⟨visible, true, false⟩

/-- What two restrictions leave. -/
def both (a b : Flags) : Flags :=
  ⟨a.visible && b.visible, a.enabled && b.enabled, a.readonly || b.readonly⟩

/-- What two grants give. -/
def either (a b : Flags) : Flags :=
  ⟨a.visible || b.visible, a.enabled || b.enabled, a.readonly || b.readonly⟩

@[simp] theorem both_unrestricted (a : Flags) : a.both unrestricted = a := by
  cases a; simp [both, unrestricted]

@[simp] theorem unrestricted_both (a : Flags) : unrestricted.both a = a := by
  cases a; simp [both, unrestricted]

@[simp] theorem either_closed (a : Flags) : a.either closed = a := by
  cases a; simp [either, closed]

@[simp] theorem closed_either (a : Flags) : closed.either a = a := by
  cases a; simp [either, closed]

theorem either_comm (a b : Flags) : a.either b = b.either a := by
  simp [either, Bool.or_comm]

theorem either_assoc (a b c : Flags) : (a.either b).either c = a.either (b.either c) := by
  simp [either, Bool.or_assoc]

end Flags

end StaffAccess

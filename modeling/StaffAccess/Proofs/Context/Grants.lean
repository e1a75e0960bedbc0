import StaffAccess.Context.Compile

/-!
# Merged grants

The permissions of a context are merged from the grants of several groups by putting one grant
after the other into a map. What is found there for one object depends on the grants on that
object alone, and not on their order or number.

* `get?_ofGrants_isSome`: an object has an entry exactly if some grant is on it.
* `allows_ofGrants`: an entry allows exactly what some grant on the object allows.
-/

namespace StaffAccess.SecurityContext

/-- The permissions on an object after one more grant on it. -/
def mergeGrant (granted? : Option PermissionMatrix) (g : PermissionGrant) : PermissionMatrix :=
  match granted? with
  | some granted => granted.merge g.granted
  | none => g.granted

/-- The permissions on an object after some grants on it, if there were any before or there is
    a grant. -/
def mergeGrants (granted? : Option PermissionMatrix) (grants : List PermissionGrant) :
    Option PermissionMatrix :=
  grants.foldl (fun granted? g => some (mergeGrant granted? g)) granted?

/-- The grants on one object. -/
def grantsOn (object : String) (grants : List PermissionGrant) : List PermissionGrant :=
  grants.filter fun g => g.object = object

/-- Grants on other objects leave the entry of an object as it is. -/
theorem get?_ofGrants (grants : List PermissionGrant) (object : String) :
    (ofGrants grants).get? object = mergeGrants none (grantsOn object grants) := by
  suffices h : ∀ merged : OrderedMap String PermissionMatrix,
      (grants.foldl (fun merged g => merged.put g.object (mergeGrant (merged.get? g.object) g))
        merged).get? object = mergeGrants (merged.get? object) (grantsOn object grants) by
    exact h .empty
  induction grants with
  | nil => exact fun _ => rfl
  | cons g grants ih =>
    intro merged
    rw [List.foldl_cons, ih]
    by_cases hg : g.object = object
    · subst hg
      simp [grantsOn, mergeGrants]
    · rw [OrderedMap.get?_put_of_ne _ _ (Ne.symm hg)]
      simp [grantsOn, hg]

theorem mergeGrants_isSome (granted? : Option PermissionMatrix) (grants : List PermissionGrant) :
    (mergeGrants granted? grants).isSome = true ↔ granted?.isSome = true ∨ grants ≠ [] := by
  induction grants generalizing granted? with
  | nil => simp [mergeGrants]
  | cons g grants ih =>
    have h := ih (some (mergeGrant granted? g))
    simp only [mergeGrants, List.foldl_cons] at h ⊢
    simp [h]

@[simp] theorem allows_mergeGrant (granted? : Option PermissionMatrix) (g : PermissionGrant)
    (a : Action) : (mergeGrant granted? g).allows a =
      ((granted?.getD .none).allows a || g.granted.allows a) := by
  cases granted? <;> simp [mergeGrant]

theorem allows_mergeGrants (granted? : Option PermissionMatrix) (grants : List PermissionGrant)
    (a : Action) : ((mergeGrants granted? grants).getD .none).allows a = true ↔
      (granted?.getD .none).allows a = true ∨ ∃ g ∈ grants, g.granted.allows a = true := by
  induction grants generalizing granted? with
  | nil => simp [mergeGrants]
  | cons g grants ih =>
    have h := ih (some (mergeGrant granted? g))
    simp only [mergeGrants, List.foldl_cons] at h ⊢
    simp [h, or_assoc]

/-- An object has an entry exactly if some grant is on it. -/
theorem get?_ofGrants_isSome {grants : List PermissionGrant} {object : String} :
    ((ofGrants grants).get? object).isSome = true ↔ ∃ g ∈ grants, g.object = object := by
  rw [get?_ofGrants, mergeGrants_isSome]
  simp [grantsOn, List.filter_eq_nil_iff]

/-- An action is allowed on an object exactly if some grant on it allows the action. -/
theorem allows_ofGrants {grants : List PermissionGrant} {object : String} {a : Action} :
    (((ofGrants grants).get? object).getD .none).allows a = true ↔
      ∃ g ∈ grants, g.object = object ∧ g.granted.allows a = true := by
  rw [get?_ofGrants, allows_mergeGrants]
  simp [grantsOn, and_assoc]

end StaffAccess.SecurityContext

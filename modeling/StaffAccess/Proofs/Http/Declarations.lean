import StaffAccess.Http.RouteGuard
import StaffAccess.Proofs.OrderedMap
import StaffAccess.Proofs.Traversal
import Mathlib.Data.List.Induction

/-!
# What a guard declares

A guard that is made of declarations asks for exactly the permissions among them, in their order
and as often as they are declared, and filters the rows of exactly the objects among them. It is
empty only if nothing was declared.

* `RouteGuard.requirements`, `RouteGuard.filtered`: what is declared.
* `RouteGuard.Declares`: a guard and its declarations.
* `RouteGuard.declares_of_ofDeclarations`: a guard has what it was made of.
-/

namespace StaffAccess

/-! ## Guards -/

namespace RouteGuard

variable {guard guard' : RouteGuard} {declarations : List Declaration} {d : Declaration}

/-- The permissions among some declarations, in their order. -/
def requirements (declarations : List Declaration) : List (Value × Action) :=
  declarations.filterMap fun
    | .require object action => (Action.ofValue? action).map fun a => (object, a)
    | .rowFilter _ _ => none

/-- Whether a guard has what is declared, and nothing else. -/
structure Declares (guard : RouteGuard) (declarations : List Declaration) : Prop where
  required : guard.required = requirements declarations
  declared : ∀ object ∈ guard.rowFilters.keys,
    ∃ operation, .rowFilter object operation ∈ declarations
  filtered : ∀ name operation, .rowFilter (.text name) operation ∈ declarations →
    .text name ∈ guard.rowFilters.keys
  isEmpty_iff : guard.isEmpty = true ↔ declarations = []

theorem requirements_concat : requirements (declarations ++ [d]) =
    requirements declarations ++ requirements [d] := List.filterMap_append

theorem actionOfValue_eq_ok_iff {v : Value} {a : Action} :
    Action.ofValue v = .ok a ↔ Action.ofValue? v = some a := by
  rw [Action.ofValue]
  cases Action.ofValue? v with
  | none => simp
  | some b => simp

/-- One more declaration. -/
theorem Declares.declare (h : guard.Declares declarations) (hd : guard.declare d = .ok guard') :
    guard'.Declares (declarations ++ [d]) := by
  cases d with
  | require object action =>
    obtain ⟨a, ha, hguard⟩ := bind_eq_ok_iff.1 hd
    cases hguard
    refine ⟨?_, fun key hkey => ?_, fun name operation hmem => ?_, ?_⟩
    · rw [requirements_concat, h.required]
      simp [requirements, actionOfValue_eq_ok_iff.1 ha]
    · obtain ⟨operation, hmem⟩ := h.declared key hkey
      exact ⟨operation, List.mem_append_left _ hmem⟩
    · exact h.filtered name operation (by simpa using hmem)
    · simp [isEmpty]
  | rowFilter object action =>
    obtain ⟨operation, -, hguard⟩ := bind_eq_ok_iff.1 hd
    split_ifs at hguard with hobject
    cases hguard
    refine ⟨?_, fun key hkey => ?_, fun name operation' hmem => ?_, ?_⟩
    · rw [requirements_concat, h.required]
      simp [requirements]
    · rcases OrderedMap.mem_keys_of_mem_keys_put hkey with hkey | rfl
      · obtain ⟨operation', hmem⟩ := h.declared key hkey
        exact ⟨operation', List.mem_append_left _ hmem⟩
      · exact ⟨action, List.mem_append_right _ List.mem_cons_self⟩
    · rcases List.mem_append.1 hmem with hmem | hmem
      · exact OrderedMap.mem_keys_put_of_mem (h.filtered name operation' hmem)
      · cases List.mem_singleton.1 hmem
        exact OrderedMap.text_mem_keys_put _ _ _
    · simp [isEmpty, OrderedMap.isEmpty_put]

/-- A guard has what it was made of. -/
theorem declares_of_ofDeclarations (h : ofDeclarations declarations = .ok guard) :
    guard.Declares declarations := by
  induction declarations using List.reverseRecOn generalizing guard with
  | nil =>
    cases h
    exact ⟨rfl, nofun, nofun, by decide⟩
  | append_singleton declarations d ih =>
    rw [ofDeclarations, List.foldlM_append, bind_eq_ok_iff] at h
    obtain ⟨before, hbefore, h⟩ := h
    rw [List.foldlM_cons, bind_eq_ok_iff] at h
    obtain ⟨after, hafter, h⟩ := h
    cases h
    exact (ih hbefore).declare hafter

end RouteGuard

end StaffAccess

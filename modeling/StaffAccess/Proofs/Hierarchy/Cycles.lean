import StaffAccess.Proofs.Hierarchy.Chains
import Mathlib.Logic.Function.Basic

/-!
# Cycles of managers

An accepted assignment closes no cycle. Looking for the user on the candidate's chain gives up
after as many steps as the limit allows, but on a chain that leads to the user from farther away
the depth comes out as too great, so the assignment is refused all the same. Cycles that are there
already do not matter: the user is not on them.

* `Managers.assign`: the managers after an assignment.
* `Managers.IsAcyclic`: nobody is above oneself.
* `Assignment.AreAccepted`: assignments of which each is accepted after the earlier ones.
* `Assignment.not_chainTo_of_validate`: an accepted candidate is not below the user.
* `Assignment.no_cycle_of_accepted`: one assignment closes no cycle, and neither does a sequence.
-/

namespace StaffAccess

namespace Managers

variable {managers : Managers} {user candidate current : String}

variable (managers) in
/-- The managers after somebody is put under another one. -/
def assign (user manager : String) : Managers := Function.update managers user (some manager)

variable (managers) in
/-- Whether nobody is above oneself, however many steps up. -/
def IsAcyclic : Prop := ∀ user steps, managers.above (steps + 1) user ≠ some user

/-- Chains up to the user never take the step that an assignment changes. -/
theorem chainTo_assign_iff {chain : List String} :
    (managers.assign user candidate).ChainTo user current chain ↔
      managers.ChainTo user current chain := by
  constructor
  · intro h
    induction h with
    | here => exact .here
    | step hne hmanager _ ih =>
      rw [assign, Function.update_of_ne hne] at hmanager
      exact .step hne hmanager ih
  · intro h
    induction h with
    | here => exact .here
    | step hne hmanager _ ih =>
      refine .step hne ?_ ih
      rwa [assign, Function.update_of_ne hne]

/-- Under a candidate who is not below the user, the user is not above oneself. -/
theorem above_assign_ne (h : ∀ chain, ¬managers.ChainTo user candidate chain) (steps : Nat) :
    (managers.assign user candidate).above (steps + 1) user ≠ some user := by
  intro hloop
  rw [above, assign, Function.update_self, Option.bind_some] at hloop
  obtain ⟨chain, hchain⟩ := exists_chainTo_iff.2 ⟨steps, hloop⟩
  exact h chain (chainTo_assign_iff.1 hchain)

/-- Who does not meet the user on the way up has the same chain as before. -/
theorem above_assign_of_forall_ne {steps : Nat}
    (h : ∀ k < steps, (managers.assign user candidate).above k current ≠ some user) :
    (managers.assign user candidate).above steps current = managers.above steps current := by
  induction steps generalizing current with
  | zero => rfl
  | succ steps ih =>
    have hne : current ≠ user := fun heq => h 0 (Nat.succ_pos _) (congrArg some heq)
    have hmanager : managers.assign user candidate current = managers current :=
      Function.update_of_ne hne _ _
    rw [above, above, hmanager]
    cases hcurrent : managers current with
    | none => rfl
    | some manager =>
      refine ih fun k hk hmeets => h (k + 1) (Nat.succ_lt_succ hk) ?_
      rw [above, hmanager, hcurrent, Option.bind_some, hmeets]

/-- A cycle after an assignment is one from before, or the user is on it. -/
theorem IsAcyclic.assign (hacyclic : managers.IsAcyclic)
    (huser : ∀ steps, (managers.assign user candidate).above (steps + 1) user ≠ some user) :
    (managers.assign user candidate).IsAcyclic := by
  intro current steps hloop
  by_cases hmeets : ∃ k < steps + 1, (managers.assign user candidate).above k current = some user
  · -- The cycle goes through the user, so it leads from the user back to the user.
    obtain ⟨k, -, hk⟩ := hmeets
    refine huser steps ?_
    calc (managers.assign user candidate).above (steps + 1) user
        = (managers.assign user candidate).above (k + (steps + 1)) current := by
          rw [above_add k, hk, Option.bind_some]
      _ = (managers.assign user candidate).above (steps + 1 + k) current := by
          rw [Nat.add_comm]
      _ = some user := by rw [above_add, hloop, Option.bind_some, hk]
  · rw [above_assign_of_forall_ne fun k hk hmeet => hmeets ⟨k, hk, hmeet⟩] at hloop
    exact hacyclic current steps hloop

end Managers

namespace Assignment

variable {managers : Managers} {user candidate : String} {limit : Int}

/-! ## One assignment -/

/-- First the search for a cycle decides, then the depth. -/
theorem validate_run_eq : (validate (m := Id) managers limit user candidate).run =
    match (cyclePath (m := Id) managers limit user candidate).run with
    | some path => .error (.cycle user candidate path)
    | none =>
      if limit < (depth (m := Id) managers limit user candidate).run then
        .error (.tooDeep user candidate limit)
      else .ok () := by
  rw [validate]
  cases hpath : cyclePath (m := Id) managers limit user candidate with
  | some path => rfl
  | none => exact apply_ite Id.run _ _ _

theorem validate_eq_ok_iff :
    (validate (m := Id) managers limit user candidate).run = .ok () ↔
      (cyclePath (m := Id) managers limit user candidate).run = none ∧
        ((depth (m := Id) managers limit user candidate).run : Int) ≤ limit := by
  rw [validate_run_eq]
  cases (cyclePath (m := Id) managers limit user candidate).run with
  | some path => simp
  | none => simp

/-- An accepted candidate is not below the user, however far up the user is. -/
theorem not_chainTo_of_validate
    (h : (validate (m := Id) managers limit user candidate).run = .ok ()) (chain : List String) :
    ¬managers.ChainTo user candidate chain := by
  intro hchain
  obtain ⟨hpath, hdepth⟩ := validate_eq_ok_iff.1 h
  have hdepth : ((climb (m := Id) managers limit.toNat [user] candidate).run : Int) + 1 ≤ limit :=
    hdepth
  -- Not found within the limit, the user is farther away than the depth is counted.
  have hfar : ¬chain.length ≤ (limit + 1).toNat := fun hnear => by
    have hfound := cyclePath_eq_some_iff.2 ⟨hchain, hnear⟩
    cases hpath.symm.trans hfound
  rw [climb_eq_left hchain (by omega) fun x _ hx => List.mem_singleton.1 hx] at hdepth
  omega

/-! ## Sequences of assignments -/

/-- The managers after some assignments. -/
def assignAll (managers : Managers) (assignments : List (String × String)) : Managers :=
  assignments.foldl (fun managers a => managers.assign a.1 a.2) managers

/-- Whether each of some assignments of candidates to users is accepted once the earlier ones are
    made. -/
def AreAccepted (limit : Int) : Managers → List (String × String) → Prop
  | _, [] => True
  | managers, (user, candidate) :: rest =>
    (validate (m := Id) managers limit user candidate).run = .ok () ∧
      AreAccepted limit (managers.assign user candidate) rest

theorem isAcyclic_assignAll {assignments : List (String × String)}
    (hacyclic : managers.IsAcyclic) (h : AreAccepted limit managers assignments) :
    (assignAll managers assignments).IsAcyclic := by
  induction assignments generalizing managers with
  | nil => exact hacyclic
  | cons a assignments ih =>
    obtain ⟨hfirst, hrest⟩ := h
    exact ih (hacyclic.assign (Managers.above_assign_ne (not_chainTo_of_validate hfirst))) hrest

/-- Whatever the limit, an accepted assignment puts nobody above oneself, and accepted assignments
    that are made one after the other keep the managers without cycles. -/
theorem no_cycle_of_accepted (limit : Int) :
    (∀ (managers : Managers) (user candidate : String),
      (validate (m := Id) managers limit user candidate).run = .ok () →
      ∀ steps, (managers.assign user candidate).above (steps + 1) user ≠ some user) ∧
    ∀ (managers : Managers) (assignments : List (String × String)), managers.IsAcyclic →
      AreAccepted limit managers assignments → (assignAll managers assignments).IsAcyclic :=
  ⟨fun _ _ _ h => Managers.above_assign_ne (not_chainTo_of_validate h),
    fun _ _ hacyclic h => isAcyclic_assignAll hacyclic h⟩

/-- Two users who are each other's managers. -/
def loop : Managers
  | "x" => some "y"
  | "y" => some "x"
  | _ => none

/-- Four users, put under each other from the lowest one up. -/
def bottomUp : List (String × String) := [("d", "c"), ("c", "b"), ("b", "a")]

/-- Somebody may be put under a loop, and a chain may grow longer than the limit. -/
theorem loop_and_bottomUp_accepted :
    ((validate (m := Id) loop 10 "z" "x").run = .ok () ∧
      ∀ steps, (loop.assign "z" "x").above (steps + 1) "z" ≠ some "z") ∧
    (AreAccepted 1 (fun _ => none) bottomUp ∧ (assignAll (fun _ => none) bottomUp).IsAcyclic ∧
      (assignAll (fun _ => none) bottomUp).above 3 "d" = some "a") := by
  have hloop : (validate (m := Id) loop 10 "z" "x").run = .ok () := rfl
  have hbottomUp : AreAccepted 1 (fun _ => none) bottomUp := ⟨rfl, rfl, rfl, trivial⟩
  have hstart : Managers.IsAcyclic fun _ => none := fun _ _ => nofun
  exact ⟨⟨hloop, (no_cycle_of_accepted 10).1 _ _ _ hloop⟩, hbottomUp,
    (no_cycle_of_accepted 1).2 _ _ hstart hbottomUp, rfl⟩

end Assignment

end StaffAccess

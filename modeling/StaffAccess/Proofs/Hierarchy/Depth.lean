import StaffAccess.Proofs.Hierarchy.Cycles

/-!
# Depths of users

A user without a manager is a root, and the depth of anybody else is the number of steps up to
one. An accepted assignment puts its user no deeper than the limit allows. But it moves all those
below the user as well, and how deep they get is not looked at: users who are put under each other
from the lowest one up are all accepted, and the lowest one ends up as deep as there are users.

* `Managers.RootAfter`: how deep somebody is.
* `Managers.IsWithin`: nobody is deeper than a limit.
* `Assignment.LeavesRoom`: those below a user would stay within the limit as well.
* `Assignment.depth_eq`: the depth that is compared with the limit.
* `Assignment.isWithin_assign_iff`: what one accepted assignment does to the limit.
* `Assignment.isWithin_iff_leavesRoom`: what a sequence of them does.
* `Assignment.bottomUp_not_isWithin`: a sequence that goes beyond the limit.
-/

namespace StaffAccess

namespace Managers

variable {managers : Managers} {user candidate x y : String} {n steps : Nat} {limit : Int}

/-! ## Roots -/

variable (managers) in
/-- Whether so many steps lead from somebody to a user without a manager. -/
inductive RootAfter : (steps : Nat) → String → Prop
  | root {x : String} (hroot : managers x = none) : RootAfter 0 x
  | step {steps : Nat} {x manager : String} (hmanager : managers x = some manager)
      (hrest : RootAfter steps manager) : RootAfter (steps + 1) x

variable (managers) in
/-- Whether everybody's chain ends. -/
def IsRooted : Prop := ∀ x, ∃ steps, managers.RootAfter steps x

variable (managers) in
/-- Whether nobody is deeper than a limit. -/
def IsWithin (limit : Int) : Prop :=
  ∀ x, ∃ steps : Nat, (steps : Int) ≤ limit ∧ managers.RootAfter steps x

theorem IsWithin.isRooted (h : managers.IsWithin limit) : managers.IsRooted :=
  fun x => (h x).imp fun _ => And.right

namespace RootAfter

theorem unique {m : Nat} (h : managers.RootAfter n x) (hother : managers.RootAfter m x) :
    n = m := by
  induction h generalizing m with
  | root hroot =>
    cases hother with
    | root => rfl
    | step hmanager => cases hroot.symm.trans hmanager
  | step hmanager _ ih =>
    cases hother with
    | root hroot => cases hroot.symm.trans hmanager
    | step hmanager' hrest' =>
      cases hmanager.symm.trans hmanager'
      rw [ih hrest']

/-- Whoever is above somebody is so much nearer to the root. -/
theorem of_above (h : managers.RootAfter n x) (habove : managers.above steps x = some y) :
    ∃ m, n = steps + m ∧ managers.RootAfter m y := by
  induction steps generalizing n x with
  | zero =>
    cases habove
    exact ⟨n, (Nat.zero_add n).symm, h⟩
  | succ steps ih =>
    obtain ⟨manager, hmanager, habove⟩ := Option.bind_eq_some_iff.1 habove
    cases h with
    | root hroot => cases hroot.symm.trans hmanager
    | step hmanager' hrest =>
      cases hmanager.symm.trans hmanager'
      obtain ⟨m, rfl, hm⟩ := ih hrest habove
      exact ⟨m, by omega, hm⟩

/-- A chain that ends never comes back to where it started. -/
theorem above_succ_ne (h : managers.RootAfter n x) : managers.above (steps + 1) x ≠ some x := by
  intro hloop
  obtain ⟨m, hn, hm⟩ := h.of_above hloop
  have heq := h.unique hm
  omega

/-- A chain without the user is the same after an assignment. -/
theorem assign_of_forall_ne (h : managers.RootAfter n x)
    (hne : ∀ k, managers.above k x ≠ some user) :
    (managers.assign user candidate).RootAfter n x := by
  have hx {x : String} (hne : ∀ k, managers.above k x ≠ some user) :
      managers.assign user candidate x = managers x :=
    Function.update_of_ne (fun heq => hne 0 (congrArg some heq)) _ _
  induction h with
  | root hroot => exact .root ((hx hne).trans hroot)
  | step hmanager _ ih =>
    refine .step ((hx hne).trans hmanager) (ih fun k hk => hne (k + 1) ?_)
    rw [above, hmanager, Option.bind_some, hk]

/-- The user is one step below the candidate after an assignment. -/
theorem assign_self (h : managers.RootAfter n candidate)
    (hne : ∀ k, managers.above k candidate ≠ some user) :
    (managers.assign user candidate).RootAfter (n + 1) user :=
  .step (Function.update_self ..) (h.assign_of_forall_ne hne)

end RootAfter

/-- Those below the user are moved along with the user. -/
theorem IsRooted.assign_below (hrooted : managers.IsRooted)
    (huser : (managers.assign user candidate).RootAfter n user)
    (hbelow : managers.above steps x = some user) :
    (managers.assign user candidate).RootAfter (steps + n) x := by
  induction steps generalizing x with
  | zero =>
    cases hbelow
    rwa [Nat.zero_add]
  | succ steps ih =>
    -- Nobody else's manager is changed, and `x` is not the user, whose chain has no cycle.
    have hx : x ≠ user := by
      rintro rfl
      exact (hrooted x).choose_spec.above_succ_ne hbelow
    obtain ⟨manager, hmanager, hbelow⟩ := Option.bind_eq_some_iff.1 hbelow
    rw [Nat.add_right_comm]
    exact .step ((Function.update_of_ne hx _ _).trans hmanager) (ih hbelow)

end Managers

namespace Assignment

variable {managers : Managers} {user candidate current : String} {n : Nat} {limit : Int}
  {assignments : List (String × String)}

/-! ## The depth that is looked at -/

/-- On a chain that ends and meets nobody who was met before, counting goes on up to the root or
    to the limit. -/
theorem climb_eq_min {left : Nat} {met : List String} (h : managers.RootAfter n current)
    (hmet : ∀ k x, managers.above (k + 1) current = some x → x ∉ met) :
    (climb (m := Id) managers left met current).run = min left n := by
  induction left generalizing met current n with
  | zero => rw [Nat.zero_min]; rfl
  | succ left ih =>
    cases h with
    | root hroot =>
      rw [climb, hroot, Nat.min_zero]
      rfl
    | @step n _ manager hmanager hrest =>
      have habove (k : Nat) : managers.above (k + 1) current = managers.above k manager := by
        rw [Managers.above, hmanager, Option.bind_some]
      -- Nobody on the rest of the chain is met before, and neither is `current`.
      have hnew (k : Nat) (x : String) (hx : managers.above k manager = some x) :
          x ∉ current :: met := by
        rw [← habove] at hx
        refine List.not_mem_cons_of_ne_of_not_mem ?_ (hmet k x hx)
        rintro rfl
        exact (Managers.RootAfter.step hmanager hrest).above_succ_ne hx
      rw [climb_succ hmanager (hnew 0 manager rfl), ih hrest fun k => hnew (k + 1),
        Nat.add_min_add_right]

/-- The depth that is compared with the limit: one step more than the candidate's, if that is not
    beyond the limit. -/
theorem depth_eq (h : managers.RootAfter n candidate)
    (hne : ∀ k, managers.above k candidate ≠ some user) :
    (depth (m := Id) managers limit user candidate).run = min limit.toNat n + 1 := by
  have hclimb : (climb (m := Id) managers limit.toNat [user] candidate).run = min limit.toNat n :=
    climb_eq_min h fun k x hx hmem => hne (k + 1) (List.mem_singleton.1 hmem ▸ hx)
  exact congrArg (· + 1) hclimb

/-- No number of steps leads from an accepted candidate to the user. -/
theorem above_ne_of_validate
    (h : (validate (m := Id) managers limit user candidate).run = .ok ()) (k : Nat) :
    managers.above k candidate ≠ some user := by
  intro hk
  obtain ⟨chain, hchain⟩ := Managers.exists_chainTo_iff.2 ⟨k, hk⟩
  exact not_chainTo_of_validate h chain hchain

/-- For an accepted candidate it is the depth that the user gets, and within the limit. -/
theorem depth_eq_of_validate (hroot : managers.RootAfter n candidate)
    (h : (validate (m := Id) managers limit user candidate).run = .ok ()) :
    (depth (m := Id) managers limit user candidate).run = n + 1 ∧
      ((n + 1 : Nat) : Int) ≤ limit := by
  have hdepth := (validate_eq_ok_iff.1 h).2
  rw [depth_eq hroot (above_ne_of_validate h)] at hdepth ⊢
  omega

/-! ## One assignment -/

/-- Whether everybody below a user stays within the limit when the user is put under a candidate.
    For the user, who is no steps below, this is what is looked at. -/
def LeavesRoom (limit : Int) (managers : Managers) (user candidate : String) : Prop :=
  ∀ (steps : Nat) (x : String), managers.above steps x = some user →
    steps + ((depth (m := Id) managers limit user candidate).run : Int) ≤ limit

/-- The user is not deeper than the limit after an accepted assignment. -/
theorem rootAfter_assign_self (hrooted : managers.IsRooted)
    (h : (validate (m := Id) managers limit user candidate).run = .ok ()) :
    ∃ steps : Nat, (steps : Int) ≤ limit ∧
      (managers.assign user candidate).RootAfter steps user := by
  obtain ⟨n, hroot⟩ := hrooted candidate
  exact ⟨n + 1, (depth_eq_of_validate hroot h).2, hroot.assign_self (above_ne_of_validate h)⟩

theorem isRooted_assign (hrooted : managers.IsRooted)
    (h : (validate (m := Id) managers limit user candidate).run = .ok ()) :
    (managers.assign user candidate).IsRooted := by
  obtain ⟨n, -, huser⟩ := rootAfter_assign_self hrooted h
  intro x
  by_cases hbelow : ∃ steps, managers.above steps x = some user
  · obtain ⟨steps, hbelow⟩ := hbelow
    exact ⟨_, hrooted.assign_below huser hbelow⟩
  · obtain ⟨m, hm⟩ := hrooted x
    exact ⟨m, hm.assign_of_forall_ne fun k hk => hbelow ⟨k, hk⟩⟩

/-- An accepted assignment keeps everybody within the limit exactly if it leaves room for those
    below the user. -/
theorem isWithin_assign_iff (hwithin : managers.IsWithin limit)
    (h : (validate (m := Id) managers limit user candidate).run = .ok ()) :
    (managers.assign user candidate).IsWithin limit ↔
      LeavesRoom limit managers user candidate := by
  obtain ⟨n, -, hroot⟩ := hwithin candidate
  have huser := hroot.assign_self (above_ne_of_validate h)
  have hdepth := (depth_eq_of_validate hroot h).1
  constructor
  · intro hafter steps x hbelow
    obtain ⟨m, hm, hx⟩ := hafter x
    rw [hdepth]
    rw [hx.unique (hwithin.isRooted.assign_below huser hbelow)] at hm
    omega
  · intro hroom x
    by_cases hbelow : ∃ steps, managers.above steps x = some user
    · obtain ⟨steps, hbelow⟩ := hbelow
      have hsteps := hroom steps x hbelow
      rw [hdepth] at hsteps
      exact ⟨steps + (n + 1), by omega, hwithin.isRooted.assign_below huser hbelow⟩
    · obtain ⟨m, hm, hx⟩ := hwithin x
      exact ⟨m, hm, hx.assign_of_forall_ne fun k hk => hbelow ⟨k, hk⟩⟩

/-! ## Sequences of assignments -/

theorem assignAll_concat (made : List (String × String)) (a : String × String) :
    assignAll managers (made ++ [a]) = (assignAll managers made).assign a.1 a.2 :=
  List.foldl_concat ..

/-- Each assignment is accepted once the earlier ones are made. -/
theorem AreAccepted.validate_eq_ok {made : List (String × String)} {a : String × String}
    (h : AreAccepted limit managers assignments) (hmade : made ++ [a] <+: assignments) :
    (validate (m := Id) (assignAll managers made) limit a.1 a.2).run = .ok () := by
  obtain ⟨rest, rfl⟩ := hmade
  induction made generalizing managers with
  | nil => exact h.1
  | cons b made ih => exact ih h.2

theorem AreAccepted.isRooted (h : AreAccepted limit managers assignments)
    (hrooted : managers.IsRooted) : (assignAll managers assignments).IsRooted := by
  induction assignments generalizing managers with
  | nil => exact hrooted
  | cons a assignments ih => exact ih h.2 (isRooted_assign hrooted h.1)

theorem AreAccepted.of_isPrefix {made : List (String × String)}
    (h : AreAccepted limit managers assignments) (hmade : made <+: assignments) :
    AreAccepted limit managers made := by
  obtain ⟨rest, rfl⟩ := hmade
  induction made generalizing managers with
  | nil => trivial
  | cons b made ih => exact ⟨h.1, ih h.2⟩

/-- Everybody stays within the limit all the time exactly if every assignment leaves room for those
    below its user. -/
theorem AreAccepted.isWithin_iff (h : AreAccepted limit managers assignments)
    (hwithin : managers.IsWithin limit) :
    (∀ made, made <+: assignments → (assignAll managers made).IsWithin limit) ↔
      ∀ made a, made ++ [a] <+: assignments →
        LeavesRoom limit (assignAll managers made) a.1 a.2 := by
  constructor
  · intro hall made a hmade
    have hbefore := hall made ((List.prefix_append _ _).trans hmade)
    have hafter := hall (made ++ [a]) hmade
    rw [assignAll_concat] at hafter
    exact (isWithin_assign_iff hbefore (h.validate_eq_ok hmade)).1 hafter
  · intro hroom made hmade
    induction made using List.reverseRecOn with
    | nil => exact hwithin
    | append_singleton made a ih =>
      rw [assignAll_concat]
      exact (isWithin_assign_iff (ih ((List.prefix_append _ _).trans hmade))
        (h.validate_eq_ok hmade)).2 (hroom made a hmade)

/-- Nobody has a manager. -/
def nobody : Managers := fun _ => none

theorem isWithin_nobody (hlimit : 1 ≤ limit) : nobody.IsWithin limit :=
  fun _ => ⟨0, by omega, .root rfl⟩

/-- When assignments are accepted and made one after the other, starting without any managers,
    everybody's chain ends, and each user is within the limit right after being assigned. Everybody
    else is within the limit all the time exactly if each assignment leaves room for those below
    its user, which is not looked at. -/
theorem isWithin_iff_leavesRoom (hlimit : 1 ≤ limit) (h : AreAccepted limit nobody assignments) :
    (assignAll nobody assignments).IsRooted ∧
    (∀ made a, made ++ [a] <+: assignments → ∃ steps : Nat, (steps : Int) ≤ limit ∧
      (assignAll nobody (made ++ [a])).RootAfter steps a.1) ∧
    ((∀ made, made <+: assignments → (assignAll nobody made).IsWithin limit) ↔
      ∀ made a, made ++ [a] <+: assignments →
        LeavesRoom limit (assignAll nobody made) a.1 a.2) := by
  have hwithin := isWithin_nobody hlimit
  refine ⟨h.isRooted hwithin.isRooted, fun made a hmade => ?_, h.isWithin_iff hwithin⟩
  have hmadeAccepted := h.of_isPrefix ((List.prefix_append _ _).trans hmade)
  rw [assignAll_concat]
  exact rootAfter_assign_self (hmadeAccepted.isRooted hwithin.isRooted) (h.validate_eq_ok hmade)

/-- Three users, put under each other from the highest one down. -/
def topDown : List (String × String) := [("b", "a"), ("c", "b")]

/-- From the highest one down, three users reach the limit of two, and the lowest one is there. -/
theorem topDown_isWithin_iff :
    (1 : Int) ≤ 2 ∧ AreAccepted 2 nobody topDown ∧ (assignAll nobody topDown).RootAfter 2 "c" ∧
    (assignAll nobody topDown).IsRooted ∧
    (∀ made a, made ++ [a] <+: topDown → ∃ steps : Nat, (steps : Int) ≤ 2 ∧
      (assignAll nobody (made ++ [a])).RootAfter steps a.1) ∧
    ((∀ made, made <+: topDown → (assignAll nobody made).IsWithin 2) ↔
      ∀ made a, made ++ [a] <+: topDown → LeavesRoom 2 (assignAll nobody made) a.1 a.2) := by
  have haccepted : AreAccepted 2 nobody topDown := ⟨rfl, rfl, trivial⟩
  exact ⟨by decide, haccepted, .step rfl (.step rfl (.root rfl)),
    isWithin_iff_leavesRoom (by decide) haccepted⟩

/-- From the lowest one up, users are accepted whatever the limit, and the lowest one goes beyond
    it. -/
theorem bottomUp_not_isWithin : ¬∀ (limit : Int) (assignments : List (String × String)),
    1 ≤ limit → AreAccepted limit nobody assignments →
      (assignAll nobody assignments).IsWithin limit := by
  intro h
  have haccepted : AreAccepted 1 nobody bottomUp := ⟨rfl, rfl, rfl, trivial⟩
  obtain ⟨steps, hsteps, hroot⟩ := h 1 bottomUp (by decide) haccepted "d"
  have hdeep : (assignAll nobody bottomUp).RootAfter 3 "d" :=
    .step rfl (.step rfl (.step rfl (.root rfl)))
  rw [hroot.unique hdeep] at hsteps
  exact absurd hsteps (by decide)

end Assignment

end StaffAccess

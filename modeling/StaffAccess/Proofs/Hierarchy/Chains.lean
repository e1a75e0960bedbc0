import StaffAccess.Hierarchy.Assignment
import Mathlib.Data.List.Infix
import Mathlib.Tactic.Common

/-!
# Chains of managers

The chain of managers above a user may end at a user without a manager, run into a loop, or go on
for longer than anyone looks. A user is above another one if some number of steps leads there, and
then the shortest such chain meets nobody twice.

* `Managers.above`: who is so many steps up the chain.
* `Managers.ChainTo`: the chain up to a user, which is met at its end and not before.
* `Managers.exists_chainTo_iff`: there is such a chain exactly if some number of steps leads there.
* `Assignment.cyclePath_eq_some_iff`: looking for a cycle finds the chains that are short enough.
* `Assignment.climb_eq_left`: on a long chain to a user, counting the depth goes on to the limit.
-/

namespace StaffAccess

/-- Who the manager of each user is, if there is one. -/
abbrev Managers := String → Option String

namespace Managers

variable {managers : Managers} {user current x : String} {chain : List String}

variable (managers) in
/-- Who is so many steps up the chain from a user. -/
def above : (steps : Nat) → String → Option String
  | 0, current => some current
  | steps + 1, current => (managers current).bind (above steps)

theorem above_succ_of_eq_some {manager : String} (h : managers current = some manager) (k : Nat) :
    managers.above (k + 1) current = managers.above k manager := by
  rw [above, h, Option.bind_some]

theorem above_add (m n : Nat) (current : String) :
    managers.above (m + n) current = (managers.above m current).bind (managers.above n) := by
  induction m generalizing current with
  | zero => rw [Nat.zero_add, above, Option.bind_some]
  | succ m ih =>
    rw [Nat.succ_add, above, above, Option.bind_assoc]
    exact congrArg _ (funext ih)

variable (managers user) in
/-- The chain from somebody up to a user, who is met at its end and not before. -/
inductive ChainTo : String → List String → Prop
  | here : ChainTo user [user]
  | step {current manager : String} {chain : List String} (hne : current ≠ user)
      (hmanager : managers current = some manager) (hrest : ChainTo manager chain) :
      ChainTo current (current :: chain)

namespace ChainTo

theorem unique {other : List String} (h : managers.ChainTo user current chain)
    (hother : managers.ChainTo user current other) : chain = other := by
  induction h generalizing other with
  | here =>
    cases hother with
    | here => rfl
    | step hne => exact absurd rfl hne
  | step hne hmanager _ ih =>
    cases hother with
    | here => exact absurd rfl hne
    | step _ hmanager' hrest' =>
      cases hmanager.symm.trans hmanager'
      rw [ih hrest']

theorem iff_of_ne (hne : current ≠ user) : managers.ChainTo user current chain ↔
    ∃ manager rest, managers current = some manager ∧ managers.ChainTo user manager rest ∧
      current :: rest = chain := by
  constructor
  · intro h
    cases h with
    | here => exact absurd rfl hne
    | step _ hmanager hrest => exact ⟨_, _, hmanager, hrest, rfl⟩
  · rintro ⟨manager, rest, hmanager, hrest, rfl⟩
    exact .step hne hmanager hrest

theorem length_pos (h : managers.ChainTo user current chain) : 0 < chain.length := by
  cases h <;> exact Nat.succ_pos _

theorem mem_self (h : managers.ChainTo user current chain) : current ∈ chain := by
  cases h <;> exact List.mem_cons_self

/-- From everybody on a chain, the rest of it leads to the same user. -/
theorem exists_suffix (h : managers.ChainTo user current chain) (hx : x ∈ chain) :
    ∃ rest, rest <:+ chain ∧ managers.ChainTo user x rest := by
  induction h with
  | here =>
    rw [List.mem_singleton] at hx
    exact ⟨_, List.suffix_rfl, hx ▸ .here⟩
  | step hne hmanager hrest ih =>
    rcases List.mem_cons.1 hx with rfl | hx
    · exact ⟨_, List.suffix_rfl, .step hne hmanager hrest⟩
    · obtain ⟨rest, hsuffix, hchain⟩ := ih hx
      exact ⟨rest, hsuffix.trans (List.suffix_cons _ _), hchain⟩

/-- Nobody is met twice: from the second time on the chain would be a different one. -/
theorem notMem_rest {manager : String} (hne : current ≠ user)
    (hmanager : managers current = some manager) (h : managers.ChainTo user manager chain) :
    current ∉ chain := by
  intro hmem
  obtain ⟨rest, hsuffix, hrest⟩ := h.exists_suffix hmem
  have hlength := hsuffix.length_le
  rw [hrest.unique (.step hne hmanager h), List.length_cons] at hlength
  exact absurd hlength (Nat.not_succ_le_self _)

end ChainTo

/-- A user is on somebody's chain exactly if some number of steps leads there. -/
theorem exists_chainTo_iff :
    (∃ chain, managers.ChainTo user current chain) ↔
      ∃ steps, managers.above steps current = some user := by
  constructor
  · rintro ⟨chain, h⟩
    induction h with
    | here => exact ⟨0, rfl⟩
    | step _ hmanager _ ih =>
      obtain ⟨steps, hsteps⟩ := ih
      exact ⟨steps + 1, by rw [above, hmanager, Option.bind_some, hsteps]⟩
  · rintro ⟨steps, h⟩
    induction steps generalizing current with
    | zero =>
      cases h
      exact ⟨_, .here⟩
    | succ steps ih =>
      by_cases hne : current = user
      · subst hne
        exact ⟨_, .here⟩
      · obtain ⟨manager, hmanager, h⟩ := Option.bind_eq_some_iff.1 h
        obtain ⟨chain, hchain⟩ := ih h
        exact ⟨_, .step hne hmanager hchain⟩

end Managers

/-! ## The two walks -/

namespace Assignment

variable {managers : Managers} {user current : String} {limit : Int}

/-- The search finds the chain to the user, if it is short enough and meets nobody who was met
    before. -/
theorem findOnChain_eq_some_iff {left : Nat} {path found : List String} :
    (findOnChain (m := Id) managers user left path current).run = some found ↔
      ∃ chain, managers.ChainTo user current chain ∧ chain.length ≤ left ∧
        path.Disjoint chain ∧ path ++ chain = found := by
  induction left generalizing path current with
  | zero =>
    refine ⟨nofun, fun ⟨chain, hchain, hlength, _⟩ => ?_⟩
    exact absurd hchain.length_pos (Nat.not_lt.2 hlength)
  | succ left ih =>
    rw [findOnChain]
    split_ifs with hmet huser
    · refine ⟨nofun, fun ⟨chain, hchain, _, hdisjoint, _⟩ => ?_⟩
      exact absurd hchain.mem_self (hdisjoint hmet)
    · subst huser
      constructor
      · rintro ⟨⟩
        exact ⟨_, .here, Nat.succ_pos _, by simpa using hmet, rfl⟩
      · rintro ⟨chain, hchain, -, -, rfl⟩
        rw [hchain.unique .here]
        rfl
    · simp only [Managers.ChainTo.iff_of_ne huser]
      cases hmanager : managers current with
      | none =>
        refine ⟨nofun, fun ⟨chain, ⟨manager, _, hsome, _⟩, _⟩ => ?_⟩
        cases hsome
      | some manager =>
        -- Whoever is met now counts as met before in the rest of the search.
        show (findOnChain (m := Id) managers user left (path ++ [current]) manager).run = _ ↔ _
        rw [ih]
        constructor
        · rintro ⟨rest, hrest, hlength, hdisjoint, rfl⟩
          rw [List.disjoint_append_left] at hdisjoint
          refine ⟨current :: rest, ⟨manager, rest, rfl, hrest, rfl⟩, Nat.succ_le_succ hlength,
            List.disjoint_cons_right.2 ⟨hmet, hdisjoint.1⟩, ?_⟩
          rw [List.append_assoc, List.singleton_append]
        · rintro ⟨_, ⟨_, rest, ⟨⟩, hrest, rfl⟩, hlength, hdisjoint, rfl⟩
          refine ⟨rest, hrest, Nat.le_of_succ_le_succ hlength, List.disjoint_append_left.2
            ⟨(List.disjoint_cons_right.1 hdisjoint).2, ?_⟩, ?_⟩
          · exact List.singleton_disjoint.2 (hrest.notMem_rest huser hmanager)
          · rw [List.append_assoc, List.singleton_append]

/-- A cycle is found exactly if the user is on the candidate's chain and near enough. -/
theorem cyclePath_eq_some_iff {candidate : String} {found : List String} :
    (cyclePath (m := Id) managers limit user candidate).run = some found ↔
      managers.ChainTo user candidate found ∧ found.length ≤ (limit + 1).toNat := by
  rw [cyclePath, findOnChain_eq_some_iff]
  simp

/-- Counting goes on as long as there is a manager who is new. -/
theorem climb_run_eq {left : Nat} {met : List String} :
    (climb (m := Id) managers (left + 1) met current).run =
      match managers current with
      | none => 0
      | some manager =>
        if manager ∈ current :: met then 0
        else (climb (m := Id) managers left (current :: met) manager).run + 1 := by
  rw [climb]
  cases hmanager : managers current with
  | none => rfl
  | some manager => exact apply_ite Id.run _ _ _

/-- A manager who is new counts. -/
theorem climb_succ {left : Nat} {met : List String} {manager : String}
    (hmanager : managers current = some manager) (hnew : manager ∉ current :: met) :
    (climb (m := Id) managers (left + 1) met current).run =
      (climb (m := Id) managers left (current :: met) manager).run + 1 := by
  rw [climb_run_eq, hmanager]
  exact if_neg hnew

/-- On a chain to the user that is longer than one looks, counting never stops: everybody on it
    is new until the user is met. -/
theorem climb_eq_left {left : Nat} {met chain : List String}
    (h : managers.ChainTo user current chain) (hlength : left + 1 < chain.length)
    (hmet : ∀ x ∈ chain, x ∈ met → x = user) :
    (climb (m := Id) managers left met current).run = left := by
  induction left generalizing met current chain with
  | zero => rfl
  | succ left ih =>
    cases h with
    | here => simp at hlength
    | step hne hmanager hrest =>
      have hknown := hrest.notMem_rest hne hmanager
      rw [climb_succ hmanager, ih hrest (Nat.lt_of_succ_lt_succ hlength)]
      · intro x hx hmem
        rcases List.mem_cons.1 hmem with rfl | hmem
        · exact absurd hx hknown
        · exact hmet x (List.mem_cons_of_mem _ hx) hmem
      · intro hmem
        rcases List.mem_cons.1 hmem with rfl | hmem
        · exact hknown hrest.mem_self
        · -- The manager would be the user, so the chain would end here.
          rw [hmet _ (List.mem_cons_of_mem _ hrest.mem_self) hmem] at hrest
          rw [hrest.unique .here, List.length_cons, List.length_singleton] at hlength
          omega

end Assignment

end StaffAccess

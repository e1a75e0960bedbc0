import Mathlib.Order.Bounds.Basic
import StaffAccess.Proofs.Hierarchy.Cycles

/-!
# What the walks read

Looking for a cycle and counting a depth both go up the chain of a candidate and ask for one manager
after the other. The store may hold loops, so what keeps the walks short is not the chain. It is the
limit, and each walk asks at most as often as it may go on.

The search for a cycle stops at the user, at a root, at somebody it has met, or at the limit. None
of these hides the user. On the way to the user nobody stands twice, as the rest of the chain from
there on would lead round once more; so whoever is met again is on no way to the user at all. What
is found is the shortest way.

* `Assignment.noting`: asking for managers, and noting whom for.
* `Assignment.asksAtMost_findOnChain`, `Assignment.asksAtMost_climb`: the two walks ask for no more
  managers than they may, and answer as without the notes.
* `Managers.ChainTo.isLeast`: the chain to a user has as many steps as are needed.
* `Assignment.cyclePath_isShortest`: how often the search asks, when it finds a cycle, and which.
-/

namespace StaffAccess

/-! ## Chains step by step -/

namespace Managers

variable {managers : Managers} {user current : String} {chain : List String}

namespace ChainTo

theorem nodup (h : managers.ChainTo user current chain) : chain.Nodup := by
  induction h with
  | here => exact List.pairwise_singleton _ _
  | step hne hmanager hrest ih => exact List.nodup_cons.2 ⟨hrest.notMem_rest hne hmanager, ih⟩

/-- The members of a chain are those who are so many steps up, one after the other. -/
theorem map_some_eq (h : managers.ChainTo user current chain) :
    chain.map some = (List.range chain.length).map (managers.above · current) := by
  induction h with
  | here => rfl
  | @step current manager chain _ hmanager _ ih =>
    have habove : (managers.above · manager) = (managers.above · current) ∘ Nat.succ := by
      funext k
      exact (above_succ_of_eq_some hmanager k).symm
    rw [List.map_cons, List.length_cons, List.range_succ_eq_map, List.map_cons, List.map_map,
      ih, habove]
    rfl

/-- A chain takes the least number of steps that lead to the user. -/
theorem isLeast (h : managers.ChainTo user current chain) :
    ∃ k, chain.length = k + 1 ∧ IsLeast {k | managers.above k current = some user} k := by
  induction h with
  | here => exact ⟨0, rfl, rfl, fun _ _ => Nat.zero_le _⟩
  | @step current manager chain hne hmanager _ ih =>
    obtain ⟨k, hlength, hk, hleast⟩ := ih
    refine ⟨k + 1, by rw [List.length_cons, hlength],
      (above_succ_of_eq_some hmanager k).trans hk, fun j hj => ?_⟩
    cases j with
    | zero => exact absurd (Option.some.inj hj) hne
    | succ j => exact Nat.succ_le_succ (hleast ((above_succ_of_eq_some hmanager j).symm.trans hj))

end ChainTo

/-- The chain to a user, in terms of the least number of steps that lead there. -/
theorem chainTo_iff {k : Nat} (hk : IsLeast {k | managers.above k current = some user} k) :
    managers.ChainTo user current chain ↔
      chain.map some = (List.range (k + 1)).map (managers.above · current) := by
  obtain ⟨shortest, hshortest⟩ := exists_chainTo_iff.2 ⟨k, hk.1⟩
  obtain ⟨k', hlength, hk'⟩ := hshortest.isLeast
  have hmap := hshortest.map_some_eq
  rw [hlength, hk'.unique hk] at hmap
  rw [← hmap, List.map_inj_right fun _ _ => Option.some.inj]
  constructor
  · exact fun h => h.unique hshortest
  · rintro rfl
    exact hshortest

end Managers

namespace Assignment

variable {managers : Managers} {user current : String} {left : Nat}

/-! ## Notes -/

/-- Asks for the manager of somebody, and notes whom it was asked for. -/
def noting (managers : Managers) (x : String) : StateM (List String) (Option String) := do
  modify (· ++ [x])
  return managers x

/-- Whether a walk gives an answer and asks for so many managers at most. -/
def AsksAtMost {α : Type} (times : Nat) (walk : StateM (List String) α) (answer : α) : Prop :=
  ∀ asked, ∃ more, more.length ≤ times ∧ walk.run asked = (answer, asked ++ more)

section AsksAtMost

variable {α β : Type} {times : Nat} {walk : StateM (List String) α} {answer : α}

theorem asksAtMost_pure (times : Nat) (answer : α) : AsksAtMost times (pure answer) answer :=
  fun asked => ⟨[], Nat.zero_le _, by rw [List.append_nil]; rfl⟩

/-- One who is asked for first is one more. -/
theorem AsksAtMost.noting_bind {f : Option String → StateM (List String) α} {x : String}
    (h : AsksAtMost times (f (managers x)) answer) :
    AsksAtMost (times + 1) (noting managers x >>= f) answer := by
  intro asked
  obtain ⟨more, hmore, hrun⟩ := h (asked ++ [x])
  rw [List.append_assoc, List.singleton_append] at hrun
  exact ⟨x :: more, Nat.succ_le_succ hmore, hrun⟩

theorem AsksAtMost.bind_pure (h : AsksAtMost times walk answer) (f : α → β) :
    AsksAtMost times (walk >>= fun a => pure (f a)) (f answer) := by
  intro asked
  obtain ⟨more, hmore, hrun⟩ := h asked
  exact ⟨more, hmore, congrArg (Prod.map f id) hrun⟩

end AsksAtMost

/-- The search asks for no more managers than it may look at members of the chain. -/
theorem asksAtMost_findOnChain {path : List String} :
    AsksAtMost left (findOnChain (noting managers) user left path current)
      (findOnChain (m := Id) managers user left path current).run := by
  induction left generalizing path current with
  | zero => exact asksAtMost_pure 0 none
  | succ left ih =>
    rw [findOnChain, findOnChain]
    split_ifs
    · exact asksAtMost_pure _ none
    · exact asksAtMost_pure _ (some _)
    · refine .noting_bind ?_
      cases hmanager : managers current with
      | none => exact asksAtMost_pure _ none
      | some manager => exact ih

/-- Counting asks for no more managers than it may count. -/
theorem asksAtMost_climb {met : List String} :
    AsksAtMost left (climb (noting managers) left met current)
      (climb (m := Id) managers left met current).run := by
  induction left generalizing met current with
  | zero => exact asksAtMost_pure 0 0
  | succ left ih =>
    rw [climb_run_eq, climb]
    refine .noting_bind ?_
    cases managers current with
    | none => exact asksAtMost_pure _ 0
    | some manager =>
      dsimp only
      split_ifs
      · exact asksAtMost_pure _ 0
      · exact ih.bind_pure (· + 1)

/-! ## Looking for a cycle -/

theorem asksAtMost_cyclePath {limit : Int} {candidate : String} :
    AsksAtMost (limit + 1).toNat (cyclePath (noting managers) limit user candidate)
      (cyclePath (m := Id) managers limit user candidate).run :=
  asksAtMost_findOnChain

/-- What is found is the chain of the least number of steps that lead to the user. -/
theorem cyclePath_eq_some_iff_isLeast {limit : Int} {candidate : String} {path : List String} :
    (cyclePath (m := Id) managers limit user candidate).run = some path ↔
      ∃ k : Nat, (k : Int) ≤ limit ∧ IsLeast {k | managers.above k candidate = some user} k ∧
        path.map some = (List.range (k + 1)).map (managers.above · candidate) := by
  rw [cyclePath_eq_some_iff]
  constructor
  · rintro ⟨hchain, hnear⟩
    obtain ⟨k, hlength, hk⟩ := hchain.isLeast
    exact ⟨k, by omega, hk, (Managers.chainTo_iff hk).1 hchain⟩
  · rintro ⟨k, hlimit, hk, hmap⟩
    have hlength := congrArg List.length hmap
    rw [List.length_map, List.length_map, List.length_range] at hlength
    exact ⟨(Managers.chainTo_iff hk).2 hmap, by omega⟩

/-- The user is found if any number of steps up to the limit leads there. -/
theorem isSome_cyclePath_iff {limit : Int} {candidate : String} :
    (cyclePath (m := Id) managers limit user candidate).run.isSome = true ↔
      ∃ k : Nat, (k : Int) ≤ limit ∧ managers.above k candidate = some user := by
  rw [Option.isSome_iff_exists]
  constructor
  · rintro ⟨path, hpath⟩
    obtain ⟨k, hlimit, hk, -⟩ := cyclePath_eq_some_iff_isLeast.1 hpath
    exact ⟨k, hlimit, hk.1⟩
  · rintro ⟨k, hlimit, hk⟩
    obtain ⟨chain, hchain⟩ := Managers.exists_chainTo_iff.2 ⟨k, hk⟩
    obtain ⟨least, hlength, hleast⟩ := hchain.isLeast
    have hle : least ≤ k := hleast.2 hk
    exact ⟨chain, cyclePath_eq_some_iff.2 ⟨hchain, by omega⟩⟩

/-- However the managers are set, the search asks for one manager more than the limit at most, and
    for none if the limit is negative. It finds a cycle exactly if some number of steps up to the
    limit leads from the candidate to the user. What it finds is the chain of the least such number
    of steps: the candidate, the candidate's manager, and so on up to the user, nobody twice. -/
theorem cyclePath_isShortest (managers : Managers) (limit : Int) (user candidate : String) :
    (∃ asked, (asked.length : Int) ≤ max 0 (limit + 1) ∧
      (cyclePath (noting managers) limit user candidate).run [] =
        ((cyclePath (m := Id) managers limit user candidate).run, asked)) ∧
    ((cyclePath (m := Id) managers limit user candidate).run.isSome = true ↔
      ∃ k : Nat, (k : Int) ≤ limit ∧ managers.above k candidate = some user) ∧
    (∀ path, (cyclePath (m := Id) managers limit user candidate).run = some path ↔
      ∃ k : Nat, (k : Int) ≤ limit ∧ IsLeast {k | managers.above k candidate = some user} k ∧
        path.map some = (List.range (k + 1)).map (managers.above · candidate)) ∧
    ∀ path, (cyclePath (m := Id) managers limit user candidate).run = some path → path.Nodup := by
  have hasks : AsksAtMost _ (cyclePath (noting managers) limit user candidate) _ :=
    asksAtMost_cyclePath
  obtain ⟨asked, hasked, hrun⟩ := hasks []
  refine ⟨⟨asked, by omega, hrun⟩, isSome_cyclePath_iff,
    fun path => cyclePath_eq_some_iff_isLeast, fun path hpath => ?_⟩
  exact (cyclePath_eq_some_iff.1 hpath).1.nodup

/-- In a loop that is there already, the user is found one step up. Somebody outside of it is not
    found, and the search ends where the loop closes. -/
theorem loop_isSearched :
    (cyclePath (m := Id) loop 10 "x" "y").run = some ["y", "x"] ∧ ["y", "x"].Nodup ∧
    (cyclePath (noting loop) 10 "z" "x").run [] = (none, ["x", "y"]) ∧
    ∀ k : Nat, (k : Int) ≤ 10 → loop.above k "x" ≠ some "z" := by
  have hinside : (cyclePath (m := Id) loop 10 "x" "y").run = some ["y", "x"] := rfl
  have houtside : (cyclePath (noting loop) 10 "z" "x").run [] = (none, ["x", "y"]) := rfl
  obtain ⟨-, -, -, hnodup⟩ := cyclePath_isShortest loop 10 "x" "y"
  obtain ⟨-, hfound, -⟩ := cyclePath_isShortest loop 10 "z" "x"
  refine ⟨hinside, hnodup _ hinside, houtside, fun k hk habove => ?_⟩
  exact Bool.false_ne_true (hfound.2 ⟨k, hk, habove⟩)

end Assignment

end StaffAccess

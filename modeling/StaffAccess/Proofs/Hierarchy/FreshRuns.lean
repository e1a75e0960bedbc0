import Mathlib.Data.ENat.Lattice
import Mathlib.Order.CompletePartialOrder
import StaffAccess.Proofs.Hierarchy.Depth
import StaffAccess.Proofs.Hierarchy.Walks

/-!
# What the depth counts

The depth of a user under a candidate is counted on the candidate's chain, and counting stops where
the chain comes back to somebody who is on it already, or to the user. So what is counted are
managers who are new: the longest run of them that leads up from the candidate, in a store with
loops as in one without. The limit cuts the count off, and where the chain ends at a root before
that, the count is the depth that the user gets.

* `Managers.IsFreshRun`: managers one above the other, all of them new.
* `Managers.longestRun`: how many of them there are at most.
* `Assignment.climb_eq_min_longest`: counting gets to the end of the longest run or to the limit.
* `Assignment.depth_countsLongestRun`: the depth, how often it asks, and when it is too great.
-/

namespace StaffAccess

/-! ## Fresh runs -/

namespace Managers

variable {managers : Managers} {met run : List String} {current manager : String}

variable (managers) in
/-- Whether a run leads up from somebody, manager by manager, and everybody on it is met for the
    first time. -/
structure IsFreshRun (met : List String) (current : String) (run : List String) : Prop where
  isChain : (current :: run).IsChain fun x manager => managers x = some manager
  nodup : run.Nodup
  isNew : ∀ x ∈ run, x ∉ current :: met

theorem isFreshRun_nil : managers.IsFreshRun met current [] where
  isChain := .singleton _
  nodup := .nil
  isNew := nofun

/-- The first one on a run is a manager who is new, and the others are new after that one. -/
theorem isFreshRun_cons_iff : managers.IsFreshRun met current (manager :: run) ↔
    managers current = some manager ∧ manager ∉ current :: met ∧
      managers.IsFreshRun (current :: met) manager run := by
  constructor
  · rintro ⟨hchain, hnodup, hnew⟩
    rw [List.isChain_cons_cons] at hchain
    rw [List.nodup_cons] at hnodup
    rw [List.forall_mem_cons] at hnew
    refine ⟨hchain.1, hnew.1, hchain.2, hnodup.2, fun x hx => ?_⟩
    refine List.not_mem_cons_of_ne_of_not_mem ?_ (hnew.2 x hx)
    rintro rfl
    exact hnodup.1 hx
  · rintro ⟨hmanager, hnew, hchain, hnodup, hrest⟩
    refine ⟨List.isChain_cons_cons.2 ⟨hmanager, hchain⟩, List.nodup_cons.2 ⟨fun hmem => ?_, hnodup⟩,
      List.forall_mem_cons.2 ⟨hnew, fun x hx => List.not_mem_of_not_mem_cons (hrest x hx)⟩⟩
    exact hrest manager hmem List.mem_cons_self

variable (managers) in
/-- How many managers are on the longest run that leads up from a candidate and meets neither the
    candidate nor the user. -/
noncomputable def longestRun (user candidate : String) : ℕ∞ :=
  ⨆ (run : List String) (_ : managers.IsFreshRun [user] candidate run), (run.length : ℕ∞)

end Managers

namespace Assignment

variable {managers : Managers} {user candidate current : String} {left limit : Nat}
  {met run : List String}

/-! ## Counting -/

theorem climb_le_left : (climb (m := Id) managers left met current).run ≤ left := by
  induction left generalizing met current with
  | zero => exact Nat.le_refl 0
  | succ left ih =>
    rw [climb_run_eq]
    split
    · exact Nat.zero_le _
    · split_ifs
      · exact Nat.zero_le _
      · exact Nat.succ_le_succ ih

/-- What is counted is a run. -/
theorem exists_isFreshRun_climb : ∃ run, managers.IsFreshRun met current run ∧
    run.length = (climb (m := Id) managers left met current).run := by
  induction left generalizing met current with
  | zero => exact ⟨[], Managers.isFreshRun_nil, rfl⟩
  | succ left ih =>
    rw [climb_run_eq]
    split
    · exact ⟨[], Managers.isFreshRun_nil, rfl⟩
    · rename_i manager hmanager
      split_ifs with hnew
      · exact ⟨[], Managers.isFreshRun_nil, rfl⟩
      · have hrest : ∃ run, managers.IsFreshRun (current :: met) manager run ∧ _ := ih
        obtain ⟨run, hrun, hlength⟩ := hrest
        exact ⟨manager :: run, Managers.isFreshRun_cons_iff.2 ⟨hmanager, hnew, hrun⟩,
          congrArg (· + 1) hlength⟩

/-- A run is counted to its end, or to the limit. -/
theorem min_length_le_climb (h : managers.IsFreshRun met current run) :
    min left run.length ≤ (climb (m := Id) managers left met current).run := by
  induction left generalizing met current run with
  | zero => exact Nat.min_le_left ..
  | succ left ih =>
    cases run with
    | nil => exact Nat.min_le_right _ 0 |>.trans (Nat.zero_le _)
    | cons manager run =>
      obtain ⟨hmanager, hnew, hrun⟩ := Managers.isFreshRun_cons_iff.1 h
      rw [climb_succ hmanager hnew, List.length_cons, Nat.add_min_add_right]
      exact Nat.succ_le_succ (ih hrun)

/-- Counting gets to the end of the longest run, or to the limit. -/
theorem climb_eq_min_longest : ((climb (m := Id) managers left [user] candidate).run : ℕ∞) =
    min (left : ℕ∞) (managers.longestRun user candidate) := by
  apply le_antisymm
  · refine le_min (Nat.cast_le.2 climb_le_left) ?_
    have hcounted : ∃ run, managers.IsFreshRun [user] candidate run ∧
        run.length = (climb (m := Id) managers left [user] candidate).run :=
      exists_isFreshRun_climb
    obtain ⟨run, hrun, hlength⟩ := hcounted
    rw [← hlength]
    exact le_iSup₂ (f := fun run _ => (run.length : ℕ∞)) run hrun
  · rcases climb_le_left.eq_or_lt (a := (climb (m := Id) managers left [user] candidate).run)
      with hleft | hleft
    · rw [hleft]
      exact min_le_left ..
    · -- Below the limit, no run is longer than what is counted.
      refine (min_le_right ..).trans (iSup₂_le fun run hrun => Nat.cast_le.2 ?_)
      have hmin : min left run.length ≤ _ := min_length_le_climb hrun
      omega

/-! ## The depth -/

theorem depth_run_eq : (depth (m := Id) managers limit user candidate).run =
    (climb (m := Id) managers limit [user] candidate).run + 1 := rfl

theorem asksAtMost_depth : AsksAtMost limit (depth (noting managers) limit user candidate)
    (depth (m := Id) managers limit user candidate).run :=
  asksAtMost_climb.bind_pure (· + 1)

/-- An assignment is rejected for its depth exactly if it is not rejected for a cycle, and the depth
    is beyond the limit. -/
theorem validate_eq_tooDeep_iff {limit : Int} {fault : AssignmentFault} :
    (validate (m := Id) managers limit user candidate).run = .error fault ∧
        fault.reason = "DEPTH_EXCEEDED" ↔
      fault = .tooDeep user candidate limit ∧
        (cyclePath (m := Id) managers limit user candidate).run = none ∧
        limit < (depth (m := Id) managers limit user candidate).run := by
  rw [validate_run_eq]
  cases (cyclePath (m := Id) managers limit user candidate).run with
  | some path =>
    constructor
    · rintro ⟨⟨⟩, hreason⟩
      exact absurd hreason (by simp [AssignmentFault.reason])
    · rintro ⟨-, hpath, -⟩
      cases hpath
  | none =>
    dsimp only
    split_ifs with hdeep
    · constructor
      · rintro ⟨⟨⟩, -⟩
        exact ⟨rfl, rfl, hdeep⟩
      · rintro ⟨rfl, -⟩
        exact ⟨rfl, rfl⟩
    · exact ⟨nofun, fun h => absurd h.2.2 hdeep⟩

/-- However the managers are set, the depth is counted by asking for no more managers than the limit
    says. It is one more than the number of managers on the longest run of new ones that leads up
    from the candidate, or than the limit if that is less. If the candidate's chain ends at a root
    and does not meet the user, it is the depth that the user gets by the assignment, up to one more
    than the limit. An assignment is rejected for its depth, and with the user and the candidate as
    those concerned, exactly if no cycle is found and the depth is beyond the limit. -/
theorem depth_countsLongestRun (managers : Managers) (limit : Nat) (user candidate : String) :
    (∃ asked, asked.length ≤ limit ∧
      (depth (noting managers) limit user candidate).run [] =
        ((depth (m := Id) managers limit user candidate).run, asked)) ∧
    ((depth (m := Id) managers limit user candidate).run : ℕ∞) =
      1 + min (limit : ℕ∞) (managers.longestRun user candidate) ∧
    (∀ h, managers.RootAfter h candidate → (∀ k, managers.above k candidate ≠ some user) →
      (managers.assign user candidate).RootAfter (h + 1) user ∧
        (depth (m := Id) managers limit user candidate).run = min (h + 1) (limit + 1)) ∧
    ((∃ fault, (validate (m := Id) managers limit user candidate).run = .error fault ∧
        fault.reason = "DEPTH_EXCEEDED") ↔
      (cyclePath (m := Id) managers limit user candidate).run = none ∧
        limit < (depth (m := Id) managers limit user candidate).run) ∧
    ∀ fault, (validate (m := Id) managers limit user candidate).run = .error fault →
      fault.reason = "DEPTH_EXCEEDED" → fault.path = [user, candidate] := by
  refine ⟨?_, ?_, fun h hroot hne => ⟨hroot.assign_self hne, ?_⟩, ?_, ?_⟩
  · have hasks : AsksAtMost limit (depth (noting managers) limit user candidate) _ :=
      asksAtMost_depth
    obtain ⟨asked, hasked, hrun⟩ := hasks []
    exact ⟨asked, hasked, hrun⟩
  · rw [depth_run_eq, Nat.cast_succ, climb_eq_min_longest, add_comm]
  · rw [depth_eq hroot hne, Int.toNat_natCast, Nat.add_min_add_right, min_comm]
  · simp only [validate_eq_tooDeep_iff, exists_eq_left, Int.ofNat_lt]
  · intro fault hfault hreason
    rw [(validate_eq_tooDeep_iff.1 ⟨hfault, hreason⟩).1]
    rfl

/-- Below a chain of three, a fourth user would be at a depth of three, of which two are counted,
    and this is beyond the limit of one. Below a loop of two, there is one manager who is new. -/
theorem topDown_isCounted :
    (assignAll nobody topDown).RootAfter 2 "c" ∧
    (∀ k, (assignAll nobody topDown).above k "c" ≠ some "d") ∧
    ((assignAll nobody topDown).assign "d" "c").RootAfter 3 "d" ∧
    (depth (m := Id) (assignAll nobody topDown) 1 "d" "c").run = 2 ∧
    (∃ fault, (validate (m := Id) (assignAll nobody topDown) 1 "d" "c").run = .error fault ∧
      fault.reason = "DEPTH_EXCEEDED" ∧ fault.path = ["d", "c"]) ∧
    (2 : ℕ∞) = 1 + min 10 (loop.longestRun "z" "x") := by
  have hroot : (assignAll nobody topDown).RootAfter 2 "c" := .step rfl (.step rfl (.root rfl))
  have hnear : ∀ k < 3, (assignAll nobody topDown).above k "c" ≠ some "d" := by decide
  have hne : ∀ k, (assignAll nobody topDown).above k "c" ≠ some "d" := by
    intro k hk
    obtain ⟨m, hm, -⟩ := hroot.of_above hk
    exact hnear k (by omega) hk
  obtain ⟨-, -, hdepth, hdeep, hpath⟩ :=
    depth_countsLongestRun (assignAll nobody topDown) 1 "d" "c"
  obtain ⟨-, hloop, -⟩ := depth_countsLongestRun loop 10 "z" "x"
  obtain ⟨hassigned, hcounted⟩ := hdepth 2 hroot hne
  obtain ⟨fault, hfault, hreason⟩ := hdeep.2 ⟨rfl, by rw [hcounted]; decide⟩
  exact ⟨hroot, hne, hassigned, hcounted, ⟨fault, hfault, hreason, hpath fault hfault hreason⟩,
    hloop⟩

end Assignment

end StaffAccess

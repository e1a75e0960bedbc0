import StaffAccess.Store.Read
import Mathlib.Data.List.Nodup
import Mathlib.Data.String.Basic
import Mathlib.Tactic.Common

/-!
# Which reads get their turn

Of several reads made at once, one gets its turn if fewer reads before it block than there are
workers, and one never ends if it blocks itself or never gets its turn. What comes of them follows
from these two alone: a failure among the reads that got their turn, or the names of those that
never end, or success, which takes all of them.

* `Read.Job.GetsTurn`, `Read.Job.NeverEnds`: the two properties of a read among others.
* `Read.Job.mem_started_iff`, `Read.Job.mem_unfinished_iff`: the workers go by them.
* `Read.Gathers`: what may come of several reads.
* `Read.gathers_gather`: and this is what does.
-/

namespace StaffAccess

namespace Read

namespace Job

variable {workers : Nat} {jobs : List Job} {j : Job}

/-- How many workers some jobs keep for good. -/
def blocking (jobs : List Job) : Nat := jobs.countP fun j => j.outcome.isBlocked

/-- Whether a job gets its turn: fewer jobs before it block than there are workers. -/
def GetsTurn (workers : Nat) (jobs : List Job) (j : Job) : Prop :=
  ∃ before after, jobs = before ++ j :: after ∧ blocking before < workers

/-- Whether a job never ends: it blocks, or so many jobs before it do that no worker is left. -/
def NeverEnds (workers : Nat) (jobs : List Job) (j : Job) : Prop :=
  ∃ before after, jobs = before ++ j :: after ∧
    (j.outcome.isBlocked = true ∨ workers ≤ blocking before)

/-- The place of a job among others is the first one or one behind it. -/
theorem exists_place_cons_iff {first : Job} {p : List Job → Prop} :
    (∃ before after, first :: jobs = before ++ j :: after ∧ p before) ↔
      first = j ∧ p [] ∨ ∃ before after, jobs = before ++ j :: after ∧ p (first :: before) := by
  constructor
  · rintro ⟨before, after, heq, hp⟩
    cases before with
    | nil =>
      obtain ⟨rfl, -⟩ := List.cons.inj heq
      exact .inl ⟨rfl, hp⟩
    | cons x before =>
      obtain ⟨rfl, hrest⟩ := List.cons.inj heq
      exact .inr ⟨before, after, hrest, hp⟩
  · rintro (⟨rfl, hp⟩ | ⟨before, after, rfl, hp⟩)
    · exact ⟨[], jobs, rfl, hp⟩
    · exact ⟨first :: before, after, rfl, hp⟩

theorem blocking_cons_of_isBlocked (h : j.outcome.isBlocked = true) (jobs : List Job) :
    blocking (j :: jobs) = blocking jobs + 1 := List.countP_cons_of_pos h

theorem blocking_cons_of_not_isBlocked (h : ¬j.outcome.isBlocked = true) (jobs : List Job) :
    blocking (j :: jobs) = blocking jobs := List.countP_cons_of_neg h

theorem mem_started_iff : j ∈ started workers jobs ↔ GetsTurn workers jobs j := by
  induction jobs generalizing workers with
  | nil => cases workers <;> simp [started, GetsTurn]
  | cons first jobs ih =>
    rw [GetsTurn, exists_place_cons_iff]
    cases workers with
    | zero => simp [started]
    | succ workers =>
      rw [started, List.mem_cons, ih, GetsTurn]
      refine or_congr ⟨fun h => ⟨h.symm, Nat.succ_pos _⟩, fun h => h.1.symm⟩ ?_
      refine exists₂_congr fun before _ => and_congr_right fun _ => ?_
      split_ifs with hblocked
      · rw [blocking_cons_of_isBlocked hblocked, Nat.add_lt_add_iff_right]
      · rw [blocking_cons_of_not_isBlocked hblocked]

theorem mem_unfinished_iff : j ∈ unfinished workers jobs ↔ NeverEnds workers jobs j := by
  induction jobs generalizing workers with
  | nil => cases workers <;> simp [unfinished, NeverEnds]
  | cons first jobs ih =>
    cases workers with
    | zero => simp [unfinished, NeverEnds, List.mem_iff_append]
    | succ workers =>
      rw [NeverEnds, exists_place_cons_iff, unfinished]
      split_ifs with hblocked
      · rw [List.mem_cons, ih, NeverEnds]
        refine or_congr ⟨?_, fun h => h.1.symm⟩ ?_
        · rintro rfl
          exact ⟨rfl, .inl hblocked⟩
        · simp only [blocking_cons_of_isBlocked hblocked, Nat.add_le_add_iff_right]
      · -- A job that ends takes no worker away, and is not among those that never end.
        rw [ih, NeverEnds]
        simp only [blocking_cons_of_not_isBlocked hblocked]
        refine (or_iff_right ?_).symm
        rintro ⟨rfl, hself | hnone⟩
        · exact hblocked hself
        · exact absurd hnone (Nat.not_succ_le_zero _)

theorem unfinished_sublist (workers : Nat) (jobs : List Job) :
    (unfinished workers jobs).Sublist jobs := by
  induction jobs generalizing workers with
  | nil => cases workers <;> exact .slnil
  | cons first jobs ih =>
    cases workers with
    | zero => exact .refl _
    | succ workers =>
      rw [unfinished]
      split_ifs
      · exact (ih workers).cons_cons first
      · exact (ih (workers + 1)).cons first

/-! ## Failures -/

theorem exists_of_firstFailure {e : Fault} (h : firstFailure jobs = some e) :
    ∃ j ∈ jobs, j.outcome = .failed e := by
  induction jobs with
  | nil => cases h
  | cons first jobs ih =>
    rw [firstFailure] at h
    split at h
    · next hfailed =>
      cases h
      exact ⟨first, List.mem_cons_self, hfailed⟩
    · obtain ⟨j, hj, hfailed⟩ := ih h
      exact ⟨j, List.mem_cons_of_mem _ hj, hfailed⟩

theorem ne_failed_of_firstFailure (h : firstFailure jobs = none) (hj : j ∈ jobs) (e : Fault) :
    j.outcome ≠ .failed e := by
  induction jobs with
  | nil => cases hj
  | cons first jobs ih =>
    rw [firstFailure] at h
    split at h
    · cases h
    · next hother =>
      rcases List.mem_cons.1 hj with rfl | hj
      · exact hother e
      · exact ih h hj

/-- A job that got its turn, did not fail and ends has returned. -/
theorem eq_returned {outcome : Read Unit} (hfailed : ∀ e, outcome ≠ .failed e)
    (hblocked : outcome.isBlocked = false) : outcome = .returned () := by
  cases outcome with
  | returned => rfl
  | failed e => exact absurd rfl (hfailed e)
  | blocked => cases hblocked

end Job

/-! ## Everything together -/

open Job

/-- What may come of several reads made at once by so many workers at most. -/
inductive Gathers (most : Int) (jobs : List Job) : Except Fault Unit → Prop
  /-- All of them return. -/
  | returned (h : ∀ j ∈ jobs, j.outcome = .returned ()) : Gathers most jobs (.ok ())
  /-- One that gets its turn fails. -/
  | failed {j : Job} {e : Fault} (hturn : GetsTurn (workerCount most jobs.length) jobs j)
      (hfailed : j.outcome = .failed e) : Gathers most jobs (.error e)
  /-- None that gets its turn fails, but some never end: these are named in order. -/
  | timedOut {names : List String}
      (hfailed : ∀ j, GetsTurn (workerCount most jobs.length) jobs j → ∀ e, j.outcome ≠ .failed e)
      (hsome : names ≠ []) (hsorted : names.Pairwise (· < ·))
      (hnames : ∀ name, name ∈ names ↔
        ∃ j, NeverEnds (workerCount most jobs.length) jobs j ∧ j.name = name) :
      Gathers most jobs (.error (.storeUnavailable (.timedOut names)))

theorem pairwise_lt_mergeSort {names : List String} (h : names.Nodup) :
    (names.mergeSort fun a b => decide (a ≤ b)).Pairwise (· < ·) := by
  have hsorted : (names.mergeSort fun a b => decide (a ≤ b)).Pairwise
      fun a b => decide (a ≤ b) = true :=
    List.pairwise_mergeSort (by simpa using fun a b c => le_trans) (by simpa using le_total) names
  have hdistinct := (List.mergeSort_perm names fun a b => decide (a ≤ b)).nodup_iff.2 h
  exact hsorted.imp₂ (fun _ _ hle hne => lt_of_le_of_ne (of_decide_eq_true hle) hne) hdistinct

/-- Nothing else comes of reads with different names. -/
theorem gathers_gather {jobs : List Job} (hdistinct : (jobs.map Job.name).Nodup) (most : Int) :
    Gathers most jobs (gather most jobs) := by
  rw [gather]
  cases hfailure : firstFailure (started (workerCount most jobs.length) jobs) with
  | some e =>
    obtain ⟨j, hj, hfailed⟩ := exists_of_firstFailure hfailure
    exact .failed (mem_started_iff.1 hj) hfailed
  | none =>
    have hfailed : ∀ j, GetsTurn (workerCount most jobs.length) jobs j →
        ∀ e, j.outcome ≠ .failed e :=
      fun j hturn => ne_failed_of_firstFailure hfailure (mem_started_iff.2 hturn)
    dsimp only
    split
    · next hnone =>
      -- Every job ends, so it got its turn, and there it did not fail.
      refine .returned fun j hj => ?_
      obtain ⟨before, after, hplace⟩ := List.mem_iff_append.1 hj
      have hends : ¬NeverEnds (workerCount most jobs.length) jobs j := fun hnever => by
        simpa [hnone] using mem_unfinished_iff.2 hnever
      have hboth := mt (fun h => ⟨before, after, hplace, h⟩) hends
      rw [not_or, Nat.not_le, Bool.not_eq_true] at hboth
      exact eq_returned (hfailed j ⟨before, after, hplace, hboth.2⟩) hboth.1
    · next hsome =>
      refine .timedOut hfailed ?_ (pairwise_lt_mergeSort ?_) fun name => ?_
      · simpa [← List.length_eq_zero_iff] using hsome
      · exact hdistinct.sublist ((unfinished_sublist _ _).map Job.name)
      · simp only [List.mem_mergeSort, List.mem_map, mem_unfinished_iff]

/-- Where not all is well, some read does not return. -/
theorem Gathers.exists_ne_returned {most : Int} {jobs : List Job} {e : Fault}
    (h : Gathers most jobs (.error e)) : ∃ j ∈ jobs, j.outcome ≠ .returned () := by
  cases h with
  | failed hturn hfailed =>
    obtain ⟨before, after, rfl, -⟩ := hturn
    exact ⟨_, List.mem_append_right _ List.mem_cons_self, by rw [hfailed]; exact nofun⟩
  | timedOut _ hsome _ hnames =>
    obtain ⟨name, hname⟩ := List.exists_mem_of_ne_nil _ hsome
    obtain ⟨j, ⟨before, after, rfl, hnever⟩, -⟩ := (hnames name).1 hname
    -- A read without a turn waits behind one that blocks, since there is a worker at least.
    have hblocked : ∃ x ∈ before ++ j :: after, x.outcome.isBlocked = true := by
      rcases hnever with hself | hbehind
      · exact ⟨j, List.mem_append_right _ List.mem_cons_self, hself⟩
      · obtain ⟨x, hx, hx'⟩ := List.countP_pos_iff.1 (lt_of_lt_of_le (Nat.le_max_left ..) hbehind)
        exact ⟨x, List.mem_append_left _ hx, hx'⟩
    obtain ⟨x, hx, hx'⟩ := hblocked
    exact ⟨x, hx, fun hreturned => by simp [hreturned, isBlocked] at hx'⟩

/-! ## One read -/

section Alone

variable {α : Type} {r : Read α} {name : String}

@[simp] theorem job_returned (name : String) (a : α) :
    (returned a).job name = ⟨name, returned ()⟩ := rfl

@[simp] theorem alone_returned (name : String) (a : α) :
    (returned a).alone name = .ok a := rfl

theorem alone_eq_ok_iff {a : α} : r.alone name = .ok a ↔ r = .returned a := by
  cases r <;> simp [alone]

/-- Being made alone is being made together with no other. -/
theorem gather_singleton (most : Int) (name : String) (r : Read α) :
    gather most [r.job name] = (fun _ => ()) <$> r.alone name := by
  obtain ⟨free, hfree⟩ : ∃ free, workerCount most [r.job name].length = free + 1 :=
    Nat.exists_eq_succ_of_ne_zero (Nat.ne_of_gt (Nat.le_max_left ..))
  rw [gather, hfree]
  cases r with
  | returned a => cases free <;> rfl
  | failed e => rfl
  | blocked =>
    have hfailure : firstFailure (started (free + 1) [job name (blocked : Read α)]) = none := by
      cases free <;> rfl
    have hlate : unfinished (free + 1) [job name (blocked : Read α)] = [⟨name, blocked⟩] := by
      cases free <;> rfl
    rw [hfailure, hlate]
    dsimp only
    rw [List.map_singleton, List.mergeSort_singleton]
    rfl

theorem gathers_of_alone {e : Fault} (h : r.alone name = .error e) (most : Int) :
    Gathers most [r.job name] (.error e) := by
  have hdistinct : ([r.job name].map Job.name).Nodup := List.nodup_singleton _
  have hgather := gathers_gather hdistinct most
  rwa [gather_singleton, h] at hgather

end Alone

end Read

end StaffAccess

import StaffAccess.Context.Compile
import StaffAccess.Proofs.Traversal

/-!
# Gathering what has been read

Where every read behind a context returns, neither the number of workers nor the order of the
reads matters: the context is put together from what was read.

* `Read.gather_eq_ok`: reads that return are no obstacle.
* `SecurityContext.compile_eq_assemble`: compiling is then putting together.
-/

namespace StaffAccess

namespace Read

/-! ## Reads that return -/

theorem firstFailure_started_eq_none {jobs : List Job}
    (h : ∀ j ∈ jobs, j.outcome = .returned ()) (free : Nat) :
    Job.firstFailure (Job.started free jobs) = none := by
  induction jobs generalizing free with
  | nil => cases free <;> rfl
  | cons j jobs ih =>
    rw [List.forall_mem_cons] at h
    cases free with
    | zero => rfl
    | succ free => simp [Job.started, Job.firstFailure, h.1, isBlocked, ih h.2]

theorem unfinished_eq_nil {jobs : List Job} (h : ∀ j ∈ jobs, j.outcome = .returned ())
    {free : Nat} (hfree : 0 < free) : Job.unfinished free jobs = [] := by
  induction jobs with
  | nil => cases free <;> simp_all [Job.unfinished]
  | cons j jobs ih =>
    rw [List.forall_mem_cons] at h
    obtain ⟨free, rfl⟩ := Nat.exists_eq_succ_of_ne_zero (Nat.ne_of_gt hfree)
    simpa [Job.unfinished, h.1, isBlocked] using ih h.2

/-- Reads that all return are no obstacle, whatever the number of workers. -/
theorem gather_eq_ok {jobs : List Job} (h : ∀ j ∈ jobs, j.outcome = .returned ())
    (most : Int) : gather most jobs = .ok () := by
  have hworkers : 0 < workerCount most jobs.length := Nat.le_max_left ..
  simp [gather, firstFailure_started_eq_none h, unfinished_eq_nil h hworkers]

end Read

namespace SecurityContext

/-! ## Contexts -/

variable {store : RuleStore Read} (workers : Int) (now : Double) {user : String}

/-- There is no context of a user who does not exist or is not active. -/
theorem compile_eq_identityNotFound {identity? : Option UserIdentity}
    (hidentity : store.findIdentity user = .returned identity?)
    (h : ∀ identity, identity? = some identity → identity.active = false) :
    compile store workers now user = .error (.identityNotFound (.text user)) := by
  cases identity? with
  | none => simp [compile, hidentity, Read.alone]
  | some identity => simp [compile, hidentity, Read.alone, h]

/-- Reads for a user that have all returned. -/
def GroupReads.returned (grants : List PermissionGrant) (rows : List VisibilityRow)
    (uiRows : List UiRow) (hierarchy? : Option Hierarchy) : GroupReads :=
  ⟨.returned grants, .returned rows, .returned uiRows, hierarchy?.map .returned⟩

theorem gather_returned (grants : List PermissionGrant) (rows : List VisibilityRow)
    (uiRows : List UiRow) (hierarchy? : Option Hierarchy) (workers : Int) :
    Read.gather workers (GroupReads.returned grants rows uiRows hierarchy?).jobs = .ok () := by
  refine Read.gather_eq_ok (fun j hj => ?_) workers
  cases hierarchy? <;> simp [GroupReads.returned, GroupReads.jobs] at hj
  · rcases hj with rfl | rfl | rfl <;> rfl
  · rcases hj with rfl | rfl | rfl | rfl <;> rfl

/-- The context of an active user is put together from what was read. -/
theorem compile_eq_assemble {identity : UserIdentity} {groups : List Int}
    {grants : List PermissionGrant} {rows : List VisibilityRow} {uiRows : List UiRow}
    {hierarchy : Hierarchy}
    (hidentity : store.findIdentity user = .returned (some identity))
    (hactive : identity.active = true)
    (hgroups : store.findMemberships user = .returned groups)
    (hgrants : store.findPermissions groups = .returned grants)
    (hrows : store.findVisibilityRules groups = .returned rows)
    (huiRows : store.findUiRules groups = .returned uiRows)
    (hhierarchy : store.hierarchyOf user = .returned hierarchy) :
    compile store workers now user = assemble identity grants rows uiRows
      (if identity.scope = .ministry then some hierarchy else none) now := by
  have hreads : GroupReads.of store identity user groups = .returned grants rows uiRows
      (if identity.scope = .ministry then some hierarchy else none) := by
    simp only [GroupReads.of, GroupReads.returned, hgrants, hrows, huiRows, hhierarchy]
    split <;> rfl
  simp only [compile, hidentity, hactive, hgroups, hreads, gather_returned, Read.alone, ok_bind]
  cases identity.scope <;> simp [GroupReads.returned]

variable {now} in
theorem assemble_eq_ok_iff {identity : UserIdentity} {grants : List PermissionGrant}
    {rows : List VisibilityRow} {uiRows : List UiRow} {hierarchy : Option Hierarchy}
    {ctx : SecurityContext} : assemble identity grants rows uiRows hierarchy now = .ok ctx ↔
      ∃ rowRules, ofRuleRows rows = .ok rowRules ∧ ∃ uiRules, ofUiRows uiRows = .ok uiRules ∧
        { userId := identity.userId
          scope := identity.scope
          userType := identity.userType
          tenantId := identity.tenantId
          permissions := ofGrants grants
          rowRules
          uiRules
          hierarchy
          lastUpdated := now } = ctx := by
  simp only [assemble, bind_eq_ok_iff, pure_eq_ok, Except.ok.injEq]

end SecurityContext

end StaffAccess

import StaffAccess.Proofs.Authorization.Batches
import StaffAccess.Proofs.Context.Payload
import StaffAccess.Proofs.Permission.Stages
import StaffAccess.Proofs.Store.Schedule

/-!
# Views of permissions

What a user may do can be asked for in three ways: as the list of the objects that the user has any
grant on, as the matrix of one object, and by checking one action. The list leaves out entries
without a grant, the matrix of an object without an entry has no grant, and a check of such an
object is denied. Where the context cannot be had, the list is empty, the matrix has no grant and
every check is denied. So whichever way is taken, the answers fit together.

* `Permission.IsGranted`: the grants of a context that has loaded.
* `Permission.mem_accessible_iff`, `Permission.allows_matrixOn_iff`,
  `Permission.isAllowed_check_null_iff`: all three ways tell about these grants.
* `Permission.pairwise_lt_accessible`: the list is in order, and names no object twice.
* `views_agree`: the answers at any times.
-/

namespace StaffAccess

namespace Permission

variable {policy : Policy} {loaded : Except Fault SecurityContext} {object : String} {a : Action}

/-- Whether a context has loaded in which an action on an object is granted. -/
def IsGranted (loaded : Except Fault SecurityContext) (object : String) (a : Action) : Prop :=
  ∃ ctx granted, loaded = .ok ctx ∧ ctx.permissions.get? object = some granted ∧
    granted.allows a = true

/-- The list has the objects on which some action is granted. -/
theorem mem_accessible_iff : object ∈ accessible loaded ↔ ∃ a, IsGranted loaded object a := by
  cases loaded with
  | error e => simp [accessible, IsGranted]
  | ok ctx =>
    simp only [accessible, List.mem_mergeSort, List.mem_map, List.mem_filter,
      PermissionMatrix.any_eq_true_iff]
    constructor
    · rintro ⟨⟨_, granted⟩, ⟨hmem, a, ha⟩, rfl⟩
      exact ⟨a, ctx, granted, rfl, OrderedMap.mem_entries_iff.1 hmem, ha⟩
    · rintro ⟨a, _, granted, ⟨⟩, hget, ha⟩
      exact ⟨(object, granted), ⟨OrderedMap.mem_entries_iff.2 hget, a, ha⟩, rfl⟩

/-- The matrix has the actions that are granted. -/
theorem allows_matrixOn_iff : (matrixOn loaded (.text object)).allows a = true ↔
    IsGranted loaded object a := by
  cases loaded with
  | error e => simp [matrixOn, IsGranted]
  | ok ctx =>
    simp only [matrixOn, OrderedMap.find, ok_bind, IsGranted, Except.ok.injEq, exists_eq_left',
      exists_and_left]
    cases ctx.permissions.get? object with
    | none => simp
    | some granted => simp

/-- Without a request context, checks allow the actions that are granted. -/
theorem isAllowed_check_null_iff :
    (check policy loaded (.text object) (.text a.word) .null).isAllowed = true ↔
      IsGranted loaded object a := by
  rw [isAllowed_check_iff]
  constructor
  · rintro ⟨ctx, a', _, granted, hctx, haction, ⟨⟩, hget, hgranted, -⟩
    obtain rfl : a = a' := by
      rwa [Value.text.injEq, ← ofWord?_eq_some_iff, Action.ofWord?_word, Option.some.injEq]
        at haction
    exact ⟨ctx, granted, hctx, hget, hgranted⟩
  · rintro ⟨ctx, granted, hctx, hget, hgranted⟩
    exact ⟨ctx, a, object, granted, hctx, rfl, rfl, hget, hgranted, passesRequest_null _ _⟩

/-- The list is in code-point order, without repetitions. -/
theorem pairwise_lt_accessible (loaded : Except Fault SecurityContext) :
    (accessible loaded).Pairwise (· < ·) := by
  cases loaded with
  | error e => exact .nil
  | ok ctx =>
    have hnames : ((ctx.permissions.entries.filter fun e => e.2.any).map Prod.fst).Nodup :=
      (SecurityContext.nodup_names ctx.permissions).sublist (List.filter_sublist.map _)
    exact Read.pairwise_lt_mergeSort hnames

end Permission

open Permission

/-- A user has an object on the list exactly if its matrix has some grant, and exactly if checking
    some action on it is allowed; the matrix has a grant exactly if checking that action is allowed;
    and the list is in order. All of this holds at whatever times the questions are asked. -/
theorem views_agree {σ : Type} (auth : Authorization (StateM σ)) (hfixed : auth.HasFixedAnswers)
    (user : Value) (object : String) (s t : σ) :
    (object ∈ (auth.accessibleObjects user s).1 ↔
      (auth.userPermissions user (.text object) t).1.any = true) ∧
    (object ∈ (auth.accessibleObjects user s).1 ↔ ∃ a : Action,
      (auth.checkPermission user (.text object) (.text a.word) .null t).1.isAllowed = true) ∧
    (∀ a : Action, (auth.userPermissions user (.text object) s).1.allows a =
      (auth.checkPermission user (.text object) (.text a.word) .null t).1.isAllowed) ∧
    (auth.accessibleObjects user s).1.Pairwise (· < ·) := by
  have hsame : (auth.contexts user s).1 = (auth.contexts user t).1 := hfixed user s t
  have hlist : object ∈ (auth.accessibleObjects user s).1 ↔
      ∃ a, IsGranted (auth.contexts user t).1 object a := hsame ▸ mem_accessible_iff
  have hmatrix : ∀ a, (auth.userPermissions user (.text object) t).1.allows a = true ↔
      IsGranted (auth.contexts user t).1 object a := fun _ => allows_matrixOn_iff
  have hcheck : ∀ a : Action,
      (auth.checkPermission user (.text object) (.text a.word) .null t).1.isAllowed = true ↔
        IsGranted (auth.contexts user t).1 object a := fun _ => isAllowed_check_null_iff
  refine ⟨hlist.trans ?_, hlist.trans ?_, fun a => ?_, pairwise_lt_accessible _⟩
  · rw [PermissionMatrix.any_eq_true_iff]
    exact exists_congr fun a => (hmatrix a).symm
  · exact exists_congr fun a => (hcheck a).symm
  · have hmatrix' : (auth.userPermissions user (.text object) s).1.allows a = true ↔
        IsGranted (auth.contexts user t).1 object a := hsame ▸ allows_matrixOn_iff
    exact Bool.eq_iff_iff.2 (hmatrix'.trans (hcheck a).symm)

/-- Somebody with a grant to see reports, and an entry for users without any grant. -/
def SecurityContext.reportReader : SecurityContext where
  __ := SecurityContext.manager
  permissions := .ofEntries [("user.management", .none), ("reports", .ofActions fun a => a = .read)]

/-- The entry without a grant is on no list, and nothing is allowed by it. -/
theorem reportReader_views :
    ((Authorization.counting .reportReader).accessibleObjects (.text "ana") 0).1 = ["reports"] ∧
    ((Authorization.counting .reportReader).userPermissions (.text "ana") (.text "reports") 0).1.any
      = true ∧
    ∀ a : Action, ((Authorization.counting .reportReader).checkPermission (.text "ana")
      (.text "user.management") (.text a.word) .null 1).1.isAllowed = false := by
  have hfixed : (Authorization.counting .reportReader).HasFixedAnswers := fun _ _ _ => rfl
  have hlist : ((Authorization.counting .reportReader).accessibleObjects (.text "ana") 0).1 =
      ["reports"] := by decide +kernel
  obtain ⟨hreports, -⟩ := views_agree _ hfixed (.text "ana") "reports" 0 0
  obtain ⟨-, husers, -⟩ := views_agree _ hfixed (.text "ana") "user.management" 0 1
  refine ⟨hlist, hreports.1 (hlist ▸ List.mem_singleton_self _), fun a => ?_⟩
  rw [← Bool.not_eq_true]
  intro hallowed
  have hmem := husers.2 ⟨a, hallowed⟩
  rw [hlist] at hmem
  exact absurd (List.mem_singleton.1 hmem) (by decide)

end StaffAccess

import StaffAccess.Authorization
import StaffAccess.Proofs.Traversal

/-!
# Permissions and request contexts

A request context adds conditions to the entry of the object: school staff stay within their own
establishment, and the objects for users and for inspections have conditions of their own. A
check is allowed exactly if the context of the user loads, the entry grants the action and the
request context, if it says anything, meets these conditions. Every other check is denied with
words, and raised with the same words.

* `Permission.Asks`: what a request context names.
* `Permission.Permitted`: the conditions that a request context has to meet.
* `Permission.Decides`: the computations that decide whether something holds.
* `checkPermission_spec`: what is allowed, and what happens otherwise.
-/

namespace StaffAccess

namespace Permission

/-- Whether a request context names a value under a key. -/
def Asks (request : Fields) (key : String) (v : Value) : Prop :=
  request.lookup key = some v ∧ v ≠ .null

/-- The conditions that a request context has to meet. -/
structure Permitted (policy : Policy) (ctx : SecurityContext) (object : String) (a : Action)
    (request : Fields) : Prop where
  /-- School staff name no establishment but their own. -/
  tenant : ctx.scope = .school → ∀ key ∈ tenantKeys, ∀ v, Asks request key v →
    v.same ctx.tenantId = true
  /-- Nobody deletes their own account. -/
  account : object = policy.objects.userManagement → ∀ target,
    Asks request "target_user_id" target → ¬(a = .delete ∧ target = .text ctx.userId)
  /-- Ministry staff change and delete their direct subordinates, or else manage all users. -/
  managed : object = policy.objects.userManagement → ∀ target,
    Asks request "target_user_id" target → ctx.scope = .ministry → a = .write ∨ a = .delete →
      (∃ id ∈ ctx.subordinateIds, id.same target = true) ∨
        (ctx.permissionsOn policy.objects.globalUserManagement).allows .read = true
  /-- Inspections are for ministry staff. -/
  ministry : object = policy.objects.inspection → ctx.scope = .ministry
  /-- Only some roles approve inspections. -/
  approver : object = policy.objects.inspection → a = .approve →
    ctx.userType ∈ policy.roles.inspectionApprovers

variable {policy : Policy} {ctx : SecurityContext} {object : String} {a : Action}
  {request : Fields}

theorem fieldD_record (key : String) :
    Value.fieldD key (.record request) = .ok ((request.lookup key).getD .null) := rfl

theorem asks_iff {key : String} {v : Value} :
    Asks request key v ↔ (request.lookup key).getD .null = v ∧ v ≠ .null := by
  rw [Asks]
  cases request.lookup key with
  | none => simp [eq_comm]
  | some w => simp

/-! ## Decisions -/

/-- Whether a computation answers, and allows exactly if a condition holds. -/
def Decides (x : Except Fault Decision) (p : Prop) : Prop :=
  ∃ d, x = .ok d ∧ (d.isAllowed = true ↔ p)

theorem Decides.congr {x : Except Fault Decision} {p q : Prop} (h : Decides x p)
    (hpq : p ↔ q) : Decides x q := by
  obtain ⟨d, hd, hp⟩ := h
  exact ⟨d, hd, hp.trans hpq⟩

theorem decides_allowed {p : Prop} (hp : p) : Decides (.ok .allowed) p :=
  ⟨_, rfl, by simp [Decision.isAllowed, hp]⟩

theorem decides_denied {p : Prop} (denial : Denial) (hp : ¬p) :
    Decides (.ok (.denied denial)) p :=
  ⟨_, rfl, by simp [Decision.isAllowed, hp]⟩

theorem decides_denyIf {p : Prop} {condition : Bool} (denial : Denial)
    (hp : condition = false ↔ p) : Decides (.ok (.denyIf condition denial)) p :=
  ⟨_, rfl, by simp [hp]⟩

/-- One decision after another, as long as the first does not deny. -/
theorem Decides.then {x y : Except Fault Decision} {p q : Prop} (hx : Decides x p)
    (hy : Decides y q) :
    Decides (do match ← x with
      | .allowed => y
      | denial => return denial) (p ∧ q) := by
  obtain ⟨d, rfl, hp⟩ := hx
  cases d with
  | allowed => exact hy.congr (by simpa [Decision.isAllowed] using fun _ => hp)
  | denied denial =>
    refine decides_denied denial fun h => ?_
    simpa [Decision.isAllowed] using hp.2 h.1

theorem namesOther_record (key : String) : namesOther ctx (.record request) key =
    .ok (!((request.lookup key).getD .null).isNull &&
      !((request.lookup key).getD .null).same ctx.tenantId) := rfl

theorem judgeTenant_decides : Decides (judgeTenant ctx (.record request))
    (ctx.scope = .school → ∀ key ∈ tenantKeys, ∀ v, Asks request key v →
      v.same ctx.tenantId = true) := by
  rw [judgeTenant]
  split_ifs with hscope
  · rw [anyM_eq_ok_any fun key _ => namesOther_record key]
    refine decides_denyIf _ (List.any_eq_false.trans ?_)
    simp only [Bool.and_eq_true, Bool.not_eq_true', asks_iff, hscope, forall_const, and_imp,
      forall_eq', not_and, not_not, ← Bool.not_eq_true, Value.isNull_iff, ne_eq]
  · exact decides_allowed fun h => absurd h hscope

theorem judgeUserManagement_decides :
    Decides (judgeUserManagement policy ctx a (.record request))
      (∀ target, Asks request "target_user_id" target →
        ¬(a = .delete ∧ target = .text ctx.userId) ∧
          (ctx.scope = .ministry → a = .write ∨ a = .delete →
            (∃ id ∈ ctx.subordinateIds, id.same target = true) ∨
              (ctx.permissionsOn policy.objects.globalUserManagement).allows .read = true)) := by
  simp only [judgeUserManagement, fieldD_record, ok_bind, asks_iff, and_imp, forall_eq']
  generalize (request.lookup "target_user_id").getD .null = target
  split_ifs with hnull hself hconfined
  · exact decides_allowed fun h => absurd ((Value.isNull_iff _).1 hnull) h
  · rw [Value.same_text_right_iff] at hself
    exact decides_denied _ fun h => (h ((Value.isNull_iff _).not.1 hnull)).1 hself
  · rw [Value.same_text_right_iff] at hself
    have hgiven : target ≠ .null := (Value.isNull_iff _).not.1 hnull
    refine decides_denyIf _ ?_
    simp only [hgiven, hself, hconfined, managesAllUsers, PermissionMatrix.allows, ne_eq,
      not_false_eq_true, forall_const, true_and, Bool.and_eq_false_iff, Bool.not_eq_false',
      List.any_eq_true]
  · rw [Value.same_text_right_iff] at hself
    exact decides_allowed fun _ => ⟨hself, fun hscope ha => absurd ⟨hscope, ha⟩ hconfined⟩

theorem judgeInspection_decides : Decides (.ok (judgeInspection policy ctx a))
    (ctx.scope = .ministry ∧
      (a = .approve → ctx.userType ∈ policy.roles.inspectionApprovers)) := by
  rw [judgeInspection]
  split_ifs with hscope
  · exact decides_denied _ fun h => hscope h.1
  · refine decides_denyIf _ ?_
    simp [not_not.1 hscope]

/-- A request context is judged by its conditions, as long as the two objects that have some of
    their own have different names. -/
theorem judgeRequest_decides
    (hobjects : policy.objects.userManagement ≠ policy.objects.inspection) :
    Decides (do match ← judgeTenant ctx (.record request) with
      | .allowed => judgeObject policy ctx (.text object) a (.record request)
      | denial => return denial) (Permitted policy ctx object a request) := by
  rw [judgeObject]
  split_ifs with hinspection hmanagement
  · obtain rfl : object = policy.objects.inspection := by simpa using hinspection
    refine (judgeTenant_decides.then judgeInspection_decides).congr ?_
    exact ⟨fun h => ⟨h.1, fun he => absurd he.symm hobjects, fun he => absurd he.symm hobjects,
      fun _ => h.2.1, fun _ => h.2.2⟩, fun h => ⟨h.tenant, h.ministry rfl, h.approver rfl⟩⟩
  · obtain rfl : object = policy.objects.userManagement := by simpa using hmanagement
    refine (judgeTenant_decides.then judgeUserManagement_decides).congr ?_
    exact ⟨fun h => ⟨h.1, fun _ target ht => (h.2 target ht).1,
      fun _ target ht => (h.2 target ht).2, fun he => absurd he hobjects,
      fun he => absurd he hobjects⟩,
      fun h => ⟨h.tenant, fun target ht => ⟨h.account rfl target ht, h.managed rfl target ht⟩⟩⟩
  · have hother : object ≠ policy.objects.userManagement := by simpa using hmanagement
    have hother' : object ≠ policy.objects.inspection := by simpa using hinspection
    refine (judgeTenant_decides.then (decides_allowed trivial)).congr ?_
    exact ⟨fun h => ⟨h.1, fun he => absurd he hother, fun he => absurd he hother,
      fun he => absurd he hother', fun he => absurd he hother'⟩, fun h => ⟨h.tenant, trivial⟩⟩

/-- A context that loaded decides by the entry of the object and by the request context. -/
theorem judge_decides (hobjects : policy.objects.userManagement ≠ policy.objects.inspection)
    {request : Value} (hrequest : request = .null ∨ ∃ f, request = .record f) :
    Decides (judge policy ctx (.text object) a request)
      (∃ granted, ctx.permissions.get? object = some granted ∧ granted.allows a = true ∧
        ∀ f, request = .record f → f ≠ [] → Permitted policy ctx object a f) := by
  simp only [judge, OrderedMap.find, ok_bind]
  cases hentry : ctx.permissions.get? object with
  | none => exact decides_denied _ (by simp)
  | some granted =>
    simp only [Option.some.injEq, exists_eq_left']
    split_ifs with hgranted hgiven
    · exact decides_denied _ fun h => by simp [h.1] at hgranted
    · refine decides_allowed ⟨by simpa using hgranted, fun f hf hne => ?_⟩
      simp [hf, Value.truthy, hne] at hgiven
    · obtain rfl | ⟨f, rfl⟩ := hrequest
      · simp [Value.truthy] at hgiven
      · have hne : f ≠ [] := by simpa [Value.truthy] using hgiven
        refine (judgeRequest_decides hobjects).congr ?_
        simp only [Value.record.injEq, forall_eq', hne, ne_eq, not_false_eq_true, forall_const]
        exact ⟨fun h => ⟨by simpa using hgranted, h⟩, And.right⟩

/-! ## Checks -/

theorem ofWord?_eq_some_iff {word : String} {a : Action} :
    Action.ofWord? word = some a ↔ word = a.word := by
  constructor
  · intro h
    simpa [eq_comm] using List.find?_some h
  · rintro rfl
    exact Action.ofWord?_word a

theorem ofValue_eq_ok_iff {action : Value} {a : Action} :
    Action.ofValue action = .ok a ↔ action = .text a.word := by
  unfold Action.ofValue Action.ofValue?
  cases action with
  | text word =>
    rw [Value.text.injEq, ← ofWord?_eq_some_iff]
    dsimp only
    cases Action.ofWord? word <;> simp
  | _ => simp

/-- A check is allowed if the context loads, the entry of the object grants the action and the
    request context meets its conditions. -/
theorem check_isAllowed_iff (hobjects : policy.objects.userManagement ≠ policy.objects.inspection)
    {request : Value} (hrequest : request = .null ∨ ∃ f, request = .record f)
    (loaded : Except Fault SecurityContext) (action : Value) :
    (check policy loaded (.text object) action request).isAllowed = true ↔
      ∃ ctx a granted, loaded = .ok ctx ∧ action = .text a.word ∧
        ctx.permissions.get? object = some granted ∧ granted.allows a = true ∧
        ∀ f, request = .record f → f ≠ [] → Permitted policy ctx object a f := by
  rw [check]
  cases loaded with
  | error e => simp [orUnavailable, Decision.isAllowed]
  | ok ctx =>
    simp only [ok_bind, Except.ok.injEq, ← ofValue_eq_ok_iff, exists_and_left, exists_eq_left']
    cases Action.ofValue action with
    | error e => simp [orUnavailable, Decision.isAllowed]
    | ok a =>
      simp only [ok_bind, Except.ok.injEq, exists_eq_left']
      obtain ⟨d, hd, hiff⟩ : Decides (judge policy ctx (.text object) a request) _ :=
        judge_decides hobjects hrequest
      rw [hd, orUnavailable, hiff]

theorem append_ne_empty {s : String} (h : s ≠ "") (t : String) : s ++ t ≠ "" :=
  fun he => h (String.append_eq_empty_iff.1 he).1

/-- Every denial has words. -/
theorem Denial.message_ne_empty (denial : Denial) : denial.message ≠ "" := by
  cases denial with
  | noEntry object =>
    exact append_ne_empty (s := "no permission entry for object ") (by decide) _
  | notGranted a object =>
    exact append_ne_empty (append_ne_empty (append_ne_empty (s := "permission ") (by decide) _) _) _
  | _ => decide

/-- What is denied is raised, with the words of the denial. -/
theorem check_cases (policy : Policy) (loaded : Except Fault SecurityContext)
    (object action request : Value) :
    (check policy loaded object action request).isAllowed = true ∧
        require policy loaded object action request = .ok () ∨
      ∃ reason, (check policy loaded object action request).reason = some reason ∧
        reason ≠ "" ∧ (check policy loaded object action request).isAllowed = false ∧
        require policy loaded object action request = .error (.permissionDenied reason) := by
  rw [require]
  cases check policy loaded object action request with
  | allowed => exact .inl ⟨rfl, rfl⟩
  | denied denial => exact .inr ⟨_, rfl, denial.message_ne_empty, rfl, rfl⟩

end Permission

open Permission

/-- What a check allows, whatever the source of contexts and its state. Everything else is denied
    with words, and raised with the same words. -/
theorem checkPermission_spec {σ : Type} (auth : Authorization (StateM σ))
    (hobjects : auth.policy.objects.userManagement ≠ auth.policy.objects.inspection)
    (user : Value) (object : String) (action : Value) {request : Value}
    (hrequest : request = .null ∨ ∃ f, request = .record f) (s : σ) :
    ((auth.checkPermission user (.text object) action request s).1.isAllowed = true ↔
      ∃ ctx a granted, (auth.contexts user s).1 = .ok ctx ∧ action = .text a.word ∧
        ctx.permissions.get? object = some granted ∧ granted.allows a = true ∧
        ∀ f, request = .record f → f ≠ [] → Permitted auth.policy ctx object a f) ∧
    ((auth.checkPermission user (.text object) action request s).1.isAllowed = true →
      (auth.requirePermission user (.text object) action request s).1 = .ok ()) ∧
    ((auth.checkPermission user (.text object) action request s).1.isAllowed = false →
      ∃ reason, (auth.checkPermission user (.text object) action request s).1.reason =
          some reason ∧ reason ≠ "" ∧
        (auth.requirePermission user (.text object) action request s).1 =
          .error (.permissionDenied reason)) := by
  refine ⟨check_isAllowed_iff hobjects hrequest _ action, ?_⟩
  show ((check auth.policy (auth.contexts user s).1 _ _ _).isAllowed = true →
    require auth.policy (auth.contexts user s).1 _ _ _ = _) ∧
    ((check auth.policy (auth.contexts user s).1 _ _ _).isAllowed = false → ∃ reason,
      (check auth.policy (auth.contexts user s).1 _ _ _).reason = _ ∧ _ ∧
        require auth.policy (auth.contexts user s).1 _ _ _ = _)
  obtain ⟨hallowed, hrequire⟩ | ⟨reason, hreason, hne, hdenied, hrequire⟩ :=
    check_cases auth.policy (auth.contexts user s).1 (.text object) action request
  · exact ⟨fun _ => hrequire, fun h => by simp [hallowed] at h⟩
  · exact ⟨fun h => by simp [hdenied] at h, fun _ => ⟨reason, hreason, hne, hrequire⟩⟩

/-- A source that has one context for everybody. -/
def Authorization.constant (ctx : SecurityContext) : Authorization (StateM Unit) where
  contexts _ := return .ok ctx
  policy := {}

/-- Somebody at the ministry who may change users and has one direct subordinate. -/
def SecurityContext.manager : SecurityContext where
  userId := "ana"
  scope := .ministry
  userType := "AGENT"
  tenantId := .null
  permissions := .ofEntries [("user.management", .ofActions fun a => a = .write)]
  rowRules := .empty
  uiRules := []
  hierarchy := some ⟨.null, [⟨.text "bob", .text "Bob", 1⟩]⟩
  lastUpdated := .finite false 0

theorem manager_changesSubordinate :
    ((Authorization.constant .manager).checkPermission (.text "ana") (.text "user.management")
      (.text "write") (.record [("target_user_id", .text "bob")]) ()).1.isAllowed = true := by
  refine (checkPermission_spec _ (by decide) _ _ _ (.inr ⟨_, rfl⟩) ()).1.2
    ⟨_, .write, _, rfl, rfl, rfl, rfl, ?_⟩
  rintro _ ⟨⟩ -
  refine ⟨nofun, fun _ _ _ h => Action.noConfusion h.1, ?_, fun h => absurd h (by decide),
    fun h => absurd h (by decide)⟩
  rintro - target ⟨htarget, -⟩ - -
  obtain rfl : Value.text "bob" = target := Option.some.inj htarget
  exact .inl ⟨.text "bob", List.mem_singleton_self _, by simp⟩

end StaffAccess

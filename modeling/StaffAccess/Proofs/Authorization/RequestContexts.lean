import StaffAccess.Authorization
import StaffAccess.Proofs.Permission.Stages
import StaffAccess.Proofs.Ui.TwoRuns

/-!
# Request contexts only restrict

What a caller sends along with a question cannot widen the answer. A check that is allowed with a
request context is allowed without one, and an element that is visible or enabled for a record is
so without a record, whatever the value that was sent: one that is no record at all makes the
check unavailable and locks the element. Without a record no element is read-only, unless its
rules cannot be evaluated.

* `Flags.Relaxes`: flags that take nothing away and are not read-only.
* `relaxes_null`: the evaluation without a record relaxes the one with a record.
* `requestContext_restricts`: the checks and the elements.
-/

namespace StaffAccess

/-- Whether flags leave what other flags leave, and are not read-only. -/
structure Flags.Relaxes (f f' : Flags) : Prop where
  visible : f.visible = true → f'.visible = true
  enabled : f.enabled = true → f'.enabled = true
  readonly : f'.readonly = false

theorem Flags.Relaxes.of_readonly {f : Flags} (h : f.readonly = false) : f.Relaxes f :=
  ⟨id, id, h⟩

theorem Flags.Relaxes.isKept : IsKept Relaxes where
  own _ _ := .of_readonly rfl
  both := by
    rintro a a' b b' ⟨hv, he, hr⟩ ⟨hv', he', hr'⟩
    refine ⟨fun h => ?_, fun h => ?_, by simp [Flags.both, hr, hr']⟩
    · simp only [Flags.both, Bool.and_eq_true] at h ⊢
      exact ⟨hv h.1, hv' h.2⟩
    · simp only [Flags.both, Bool.and_eq_true] at h ⊢
      exact ⟨he h.1, he' h.2⟩
  either := by
    rintro a a' b b' ⟨hv, he, hr⟩ ⟨hv', he', hr'⟩
    refine ⟨fun h => ?_, fun h => ?_, by simp [Flags.either, hr, hr']⟩
    · simp only [Flags.either, Bool.or_eq_true] at h ⊢
      exact h.imp hv hv'
    · simp only [Flags.either, Bool.or_eq_true] at h ⊢
      exact h.imp he he'

theorem UiRule.readonly_defaults (r : UiRule) (ctx : SecurityContext) (policy : Policy) :
    (r.defaults ctx policy).readonly = false := by
  rw [defaults]
  split <;> rfl

/-- Only a condition on the record makes a rule read-only, and without a record it is void. -/
theorem relaxes_null (ctx : SecurityContext) (policy : Policy) (record : Value) :
    Evaluation.Compares Flags.Relaxes ⟨ctx, policy, record⟩ ⟨ctx, policy, .null⟩ where
  rules := rfl
  admits _ := .of_readonly rfl
  record _ _ _ := ⟨.unrestricted, rfl, fun _ => rfl, fun _ => rfl, rfl⟩
  defaults r := .of_readonly (r.readonly_defaults ctx policy)

namespace ElementVisibility

/-- What is shown for a record is shown without one. -/
theorem relaxes_evaluate_null (policy : Policy) (loaded : Except Fault SecurityContext)
    (element record : Value) :
    ((evaluate policy loaded element record).flags.visible = true →
      (evaluate policy loaded element .null).flags.visible = true) ∧
    ((evaluate policy loaded element record).flags.enabled = true →
      (evaluate policy loaded element .null).flags.enabled = true) := by
  cases loaded with
  | error fault => exact ⟨id, id⟩
  | ok ctx =>
    have h := (relaxes_null ctx policy record).element Flags.Relaxes.isKept element
    simp only [evaluate, ok_bind]
    cases hv : ofContext ctx policy element record with
    | error fault => exact ⟨nofun, nofun⟩
    | ok v =>
      obtain ⟨v', hv', hrelaxes⟩ := h v hv
      rw [hv']
      exact ⟨hrelaxes.visible, hrelaxes.enabled⟩

/-- Without a record, only what cannot be evaluated is read-only. -/
theorem eq_locked_of_readonly (policy : Policy) (loaded : Except Fault SecurityContext)
    (element : Value) (hreadonly : (evaluate policy loaded element .null).flags.readonly = true) :
    evaluate policy loaded element .null = locked element := by
  cases loaded with
  | error fault => rfl
  | ok ctx =>
    have h := (relaxes_null ctx policy .null).element Flags.Relaxes.isKept element
    simp only [evaluate, ok_bind] at hreadonly ⊢
    cases hv : ofContext ctx policy element .null with
    | error fault => rfl
    | ok v =>
      obtain ⟨v', hv', hrelaxes⟩ := h v hv
      cases hv.symm.trans hv'
      rw [hv] at hreadonly
      cases hreadonly.symm.trans hrelaxes.readonly

end ElementVisibility

open Permission

theorem Permission.isAllowed_check_null {policy : Policy} {loaded : Except Fault SecurityContext}
    {object action request : Value}
    (h : (check policy loaded object action request).isAllowed = true) :
    (check policy loaded object action .null).isAllowed = true := by
  obtain ⟨ctx, a, name, granted, hctx, ha, hname, hget, hgranted, -⟩ := isAllowed_check_iff.1 h
  exact isAllowed_check_iff.2
    ⟨ctx, a, name, granted, hctx, ha, hname, hget, hgranted, passesRequest_null _ _⟩

/-- Whatever value is sent along, it takes away or changes nothing: what is allowed, visible or
    enabled with it is so without it. Without it, an element is read-only only if its rules cannot
    be evaluated. -/
theorem requestContext_restricts (auth : Authorization Id) (user request : Value) :
    (∀ object action,
      (auth.checkPermission user object action request).run.isAllowed = true →
        (auth.checkPermission user object action .null).run.isAllowed = true) ∧
    ∀ element,
      ((auth.evaluateElement user element request).run.flags.visible = true →
        (auth.evaluateElement user element .null).run.flags.visible = true) ∧
      ((auth.evaluateElement user element request).run.flags.enabled = true →
        (auth.evaluateElement user element .null).run.flags.enabled = true) ∧
      ((auth.evaluateElement user element .null).run.flags.readonly = true →
        (auth.evaluateElement user element .null).run = .locked element) := by
  refine ⟨fun object action h => isAllowed_check_null h, fun element => ?_⟩
  obtain ⟨hvisible, henabled⟩ :=
    ElementVisibility.relaxes_evaluate_null auth.policy (auth.contexts user).run element request
  exact ⟨hvisible, henabled, ElementVisibility.eq_locked_of_readonly _ _ _⟩

/-- A source that gives everybody one context, whatever happens. -/
def Authorization.always (ctx : SecurityContext) : Authorization Id where
  contexts _ := .ok ctx
  policy := {}

/-- A manager with forms for own records, which are read-only once the record is closed. -/
def SecurityContext.withForm : SecurityContext where
  __ := SecurityContext.manager
  uiRules := [⟨"form-*", "SECTION", .bool true, .bool true, .record
    [("contextual", .record [("own_record_only", .bool true),
      ("record_status", .record [("read_only_when", .list [.text "CLOSED"])])])]⟩]

/-- The form of a closed record is shown, so it is shown without a record; and what the manager
    may do to a subordinate is allowed when nobody is named. -/
theorem withForm_relaxed :
    ((Authorization.always .withForm).evaluateElement (.text "ana") (.text "form-edit")
      .null).run.flags.visible = true ∧
    ((Authorization.always .withForm).checkPermission (.text "ana") (.text "user.management")
      (.text "write") .null).run.isAllowed = true :=
  ⟨((requestContext_restricts (.always .withForm) (.text "ana")
      (.record [("record_owner_id", .text "ana"), ("record_status", .text "CLOSED")])).2
        (.text "form-edit")).1 (by decide),
    (requestContext_restricts (.always .withForm) (.text "ana")
      (.record [("target_user_id", .text "bob")])).1 (.text "user.management") (.text "write")
        (by decide)⟩

end StaffAccess

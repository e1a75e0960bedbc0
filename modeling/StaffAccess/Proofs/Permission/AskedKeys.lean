import StaffAccess.Proofs.Permission.Requests
import StaffAccess.Proofs.Value.Equality

/-!
# What a check asks of a request context

A check looks at three entries of a request context: the two that name a tenant, and the one that
names a user. Nothing else in it counts. Two request contexts that say the same in these entries
have the same decision with the same words, whatever else they say and however they say it.

There is one exception. An empty request context counts as none, and without one the rules that
an object has of its own are not asked. Those for inspections look at no entry at all, only at the
user. So an entry that nobody looks at can still matter: by being there it makes the request
context one that counts, and a check that was allowed becomes one that the rules for inspections
deny.

* `Permission.SayAlike`: request contexts that say the same in the entries that are looked at.
* `Permission.judge_congr`: they are judged alike if both count or neither does.
* `Permission.judge_of_silent`: how a request context is judged that says nothing in them.
* `Permission.check_askedKeys`: both together.
* `Permission.visitor_unaskedKey`: an entry that nobody looks at, and that matters.
-/

namespace StaffAccess

namespace Permission

/-- The entries of a request context that a check looks at. -/
def askedKeys : List String := tenantKeys ++ ["target_user_id"]

/-- Whether two request contexts say the same in the entries that a check looks at. An entry that
    is missing says what null says. -/
def SayAlike (f g : Fields) : Prop :=
  ∀ key ∈ askedKeys, ((f.lookup key).getD .null).Alike ((g.lookup key).getD .null)

variable {policy : Policy} {ctx : SecurityContext} {object : Value} {a : Action} {f g : Fields}

/-! ## Request contexts that say the same -/

theorem namesOther_congr (hf : (Value.record f).HasDistinctNames) {key : String}
    (h : ((f.lookup key).getD .null).Alike ((g.lookup key).getD .null)) :
    namesOther ctx (.record f) key = namesOther ctx (.record g) key := by
  rw [namesOther_record, namesOther_record, h.isNull_eq, h.same_left (hf.getD_lookup key)]

theorem judgeTenant_congr (hf : (Value.record f).HasDistinctNames) (h : SayAlike f g) :
    judgeTenant ctx (.record f) = judgeTenant ctx (.record g) := by
  have hkeys : tenantKeys.anyM (namesOther ctx (.record f)) =
      tenantKeys.anyM (namesOther ctx (.record g)) := by
    rw [anyM_eq_ok_any fun key hkey =>
        (namesOther_congr hf (h key (List.mem_append_left _ hkey))).trans (namesOther_record key),
      anyM_eq_ok_any fun key _ => namesOther_record key]
  rw [judgeTenant, judgeTenant, hkeys]

theorem judgeUserManagement_congr (hf : (Value.record f).HasDistinctNames) (h : SayAlike f g) :
    judgeUserManagement policy ctx a (.record f) = judgeUserManagement policy ctx a (.record g) := by
  have htarget : ((f.lookup "target_user_id").getD .null).Alike
      ((g.lookup "target_user_id").getD .null) :=
    h _ (List.mem_append_right _ (List.mem_singleton_self _))
  have hdistinct := hf.getD_lookup "target_user_id"
  simp only [judgeUserManagement, fieldD_record, ok_bind, htarget.isNull_eq,
    htarget.same_left hdistinct, htarget.same_right hdistinct]

theorem judgeObject_congr (hf : (Value.record f).HasDistinctNames) (h : SayAlike f g) :
    judgeObject policy ctx object a (.record f) = judgeObject policy ctx object a (.record g) := by
  rw [judgeObject, judgeObject, judgeUserManagement_congr hf h]

/-- Request contexts that say the same are judged alike if both count or neither does. -/
theorem judge_congr (hf : (Value.record f).HasDistinctNames) (h : SayAlike f g)
    (hcounts : f = [] ↔ g = []) :
    judge policy ctx object a (.record f) = judge policy ctx object a (.record g) := by
  have htruthy : (Value.record f).truthy = (Value.record g).truthy := by
    rw [Bool.eq_iff_iff]
    simpa [Value.truthy] using not_congr hcounts
  rw [judge, judge, htruthy, judgeTenant_congr hf h, judgeObject_congr hf h]

/-! ## Request contexts that say nothing -/

theorem judge_empty : judge policy ctx object a (.record []) = judge policy ctx object a .null := rfl

theorem judgeTenant_silent (h : SayAlike [] g) : judgeTenant ctx (.record g) = .ok .allowed := by
  rw [← judgeTenant_congr Value.hasDistinctNames_empty h, judgeTenant]
  split_ifs <;> rfl

/-- Of the rules that objects have of their own, those for inspections alone need no entry. -/
theorem judgeObject_silent (h : SayAlike [] g) : judgeObject policy ctx object a (.record g) =
    .ok (if object.same (.text policy.objects.inspection) then judgeInspection policy ctx a
      else .allowed) := by
  rw [← judgeObject_congr Value.hasDistinctNames_empty h, judgeObject]
  split_ifs <;> rfl

/-- What is allowed without a request context is left to the rules for inspections if there is one
    that says nothing, and the rest is denied as without it. -/
theorem judge_of_silent (hg : g ≠ []) (h : SayAlike [] g) :
    judge policy ctx object a (.record g) = (do
      match ← judge policy ctx object a .null with
      | .allowed => return if object.same (.text policy.objects.inspection) then
          judgeInspection policy ctx a else .allowed
      | denial => return denial) := by
  have htruthy : (Value.record g).truthy = true := by simp [Value.truthy, hg]
  rw [judge, judge, htruthy, judgeTenant_silent h, judgeObject_silent h]
  cases ctx.permissions.find object with
  | error fault => rfl
  | ok entry =>
    cases entry with
    | none => rfl
    | some granted => cases hgranted : granted.allows a <;> simp [hgranted, Value.truthy]

/-- Whether the rules for inspections deny an action on an object to a user. -/
def IsBarred (policy : Policy) (ctx : SecurityContext) (object : Value) (a : Action) : Prop :=
  object = .text policy.objects.inspection ∧
    (ctx.scope ≠ .ministry ∨ a = .approve ∧ ctx.userType ∉ policy.roles.inspectionApprovers)

theorem isBarred_iff : IsBarred policy ctx object a ↔
    (if object.same (.text policy.objects.inspection) then judgeInspection policy ctx a
      else .allowed) ≠ .allowed := by
  rw [IsBarred, ← Value.same_text_right_iff]
  split_ifs with hobject
  · rw [judgeInspection]
    split_ifs with hscope
    · simp [hobject, hscope]
    · simp [hobject, hscope, Decision.denyIf]
  · simp [hobject]

/-! ## Checks -/

theorem check_of_ofValue {action : Value} (ha : Action.ofValue action = .ok a) (request : Value) :
    check policy (.ok ctx) object action request =
      orUnavailable (judge policy ctx object a request) := by
  rw [check, ha]
  rfl

/-- A check whose context has not loaded or whose action is unknown asks nothing. -/
theorem check_of_error {loaded : Except Fault SecurityContext} {action : Value}
    (h : ¬∃ ctx a, loaded = .ok ctx ∧ Action.ofValue action = .ok a) (request : Value) :
    check policy loaded object action request = .denied .unavailable := by
  rw [check]
  cases loaded with
  | error fault => rfl
  | ok ctx =>
    cases ha : Action.ofValue action with
    | error fault => rfl
    | ok a => exact absurd ⟨ctx, a, rfl, ha⟩ h

/-- An empty request context counts as none. Two request contexts of which both or neither are
    empty have the same decision if they say the same in the entries that a check looks at. If only
    the first is empty, they still have it, unless the check is allowed with the first and concerns
    an inspection from which the user is barred. -/
theorem check_askedKeys (policy : Policy) (loaded : Except Fault SecurityContext)
    (object action : Value) {f g : Fields} (hf : (Value.record f).HasDistinctNames)
    (h : SayAlike f g) :
    (f = [] → check policy loaded object action (.record f) =
      check policy loaded object action .null) ∧
    ((f = [] ↔ g = []) → check policy loaded object action (.record f) =
      check policy loaded object action (.record g)) ∧
    (f = [] → g ≠ [] → (check policy loaded object action (.record f) ≠
        check policy loaded object action (.record g) ↔
      check policy loaded object action (.record f) = .allowed ∧
        ∃ ctx a, loaded = .ok ctx ∧ action = .text a.word ∧ IsBarred policy ctx object a)) := by
  by_cases hanswers : ∃ ctx a, loaded = .ok ctx ∧ Action.ofValue action = .ok a
  · obtain ⟨ctx, a, rfl, ha⟩ := hanswers
    simp only [check_of_ofValue ha]
    refine ⟨?_, fun hcounts => by rw [judge_congr hf h hcounts], ?_⟩
    · rintro rfl
      rw [judge_empty]
    · rintro rfl hg
      simp only [judge_of_silent hg h, judge_empty, Except.ok.injEq, ← ofValue_eq_ok_iff, ha,
        exists_and_left, exists_eq_left', isBarred_iff]
      rcases judge policy ctx object a .null with fault | (_ | denial)
      · simp [orUnavailable]
      · simp only [ok_bind, orUnavailable, pure_eq_ok, true_and]
        exact ne_comm
      · simp [orUnavailable]
  · simp [check_of_error hanswers]

/-- Two request contexts about one subordinate, whose tenants are numbers of one size. -/
theorem manager_askedKeys :
    let f : Fields := [("note", .text "first"), ("target_user_id", .text "bob"),
      ("tenant_id", .int 1)]
    let g : Fields := [("tenant_id", .bool true), ("target_user_id", .text "bob")]
    (Value.record f).HasDistinctNames ∧ SayAlike f g ∧
    check {} (.ok .manager) (.text "user.management") (.text "write") (.record f) =
      check {} (.ok .manager) (.text "user.management") (.text "write") (.record g) := by
  intro f g
  have hf : (Value.record f).HasDistinctNames :=
    .record (by decide) (List.forall_mem_cons.2 ⟨.key rfl, List.forall_mem_cons.2 ⟨.key rfl,
      List.forall_mem_singleton.2 (.key rfl)⟩⟩)
  have htenant : (Value.int 1).same (.bool true) = true := by
    simp [Value.same, Value.sameNumber, Value.quantity?, Value.ofFlag]
  have h : SayAlike f g := List.forall_mem_cons.2 ⟨.inr htenant, List.forall_mem_cons.2
    ⟨.refl _, List.forall_mem_singleton.2 (.refl _)⟩⟩
  exact ⟨hf, h, (check_askedKeys {} _ _ _ hf h).2.1 (by simp [f, g])⟩

end Permission

/-- Somebody at a school who may read inspections, as far as the permissions go. -/
def SecurityContext.visitor : SecurityContext where
  __ := SecurityContext.manager
  userId := "eve"
  scope := .school
  userType := "CLERK"
  tenantId := .text "school-1"
  permissions := .ofEntries [("inspection.management", .ofActions fun a => a = .read)]
  hierarchy := none

/-- Nobody looks at the number of an inspection, but without it the inspection may be read. -/
theorem Permission.visitor_unaskedKey :
    SayAlike [] [("inspection_id", .int 7)] ∧
    check {} (.ok .visitor) (.text "inspection.management") (.text "read") (.record []) = .allowed ∧
    check {} (.ok .visitor) (.text "inspection.management") (.text "read")
      (.record [("inspection_id", .int 7)]) = .denied .ministryOnly :=
  ⟨List.forall_mem_cons.2 ⟨.refl _, List.forall_mem_cons.2 ⟨.refl _,
    List.forall_mem_singleton.2 (.refl _)⟩⟩, rfl, rfl⟩

end StaffAccess

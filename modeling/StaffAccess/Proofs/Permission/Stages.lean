import StaffAccess.Proofs.Permission.Requests

/-!
# The stages of a check

A check of whatever values is allowed exactly if all stages let it pass: the context loads, the
object is named by a text under which there is an entry, the action is known and granted, and a
request context that counts as given is judged in favour, first for the tenant and then for the
object. A stage that faults does not let it pass.

* `Permission.PassesRequest`: the stages of the request context.
* `Permission.isAllowed_check_iff`: all stages.
-/

namespace StaffAccess.Permission

variable {policy : Policy} {ctx : SecurityContext}

/-- Whether a request context does not count as given or is judged in favour. -/
def PassesRequest (policy : Policy) (ctx : SecurityContext) (object : Value) (a : Action)
    (request : Value) : Prop :=
  request.truthy = true → judgeTenant ctx request = .ok .allowed ∧
    judgeObject policy ctx object a request = .ok .allowed

theorem passesRequest_null (object : Value) (a : Action) :
    PassesRequest policy ctx object a .null := nofun

theorem find_eq_ok_some_iff {α : Type} {m : OrderedMap String α} {key : Value} {v : α} :
    m.find key = .ok (some v) ↔ ∃ name, key = .text name ∧ m.get? name = some v := by
  cases key <;> simp [OrderedMap.find, Value.isKey]

theorem isAllowed_orUnavailable_iff {x : Except Fault Decision} :
    (orUnavailable x).isAllowed = true ↔ x = .ok .allowed := by
  rcases x with fault | (_ | denial) <;> simp [orUnavailable, Decision.isAllowed]

/-- A context that has loaded lets a check pass all its stages. -/
theorem judge_eq_allowed_iff {object : Value} {a : Action} {request : Value} :
    judge policy ctx object a request = .ok .allowed ↔
      ∃ name granted, object = .text name ∧ ctx.permissions.get? name = some granted ∧
        granted.allows a = true ∧ PassesRequest policy ctx object a request := by
  rw [judge, bind_eq_ok_iff]
  constructor
  · rintro ⟨entry, hentry, h⟩
    -- A check ends at the first stage that it does not pass.
    cases entry with
    | none => cases h
    | some granted =>
      obtain ⟨name, rfl, hget⟩ := find_eq_ok_some_iff.1 hentry
      dsimp only at h
      split_ifs at h with hdenied hnone
      · cases h
      · exact ⟨name, granted, rfl, hget, by simpa using hdenied, fun ht => by simp [ht] at hnone⟩
      · obtain ⟨decision, htenant, h⟩ := bind_eq_ok_iff.1 h
        cases decision with
        | denied denial => cases h
        | allowed => exact ⟨name, granted, rfl, hget, by simpa using hdenied, fun _ => ⟨htenant, h⟩⟩
  · rintro ⟨name, granted, rfl, hget, hgranted, hrequest⟩
    refine ⟨some granted, find_eq_ok_some_iff.2 ⟨name, rfl, hget⟩, ?_⟩
    dsimp only
    split_ifs with hdenied hnone
    · simp [hgranted] at hdenied
    · rfl
    · obtain ⟨htenant, hobject⟩ := hrequest (by simpa using hnone)
      rw [htenant]
      exact hobject

/-- A check is allowed exactly if all stages let it pass. -/
theorem isAllowed_check_iff {loaded : Except Fault SecurityContext}
    {object action request : Value} :
    (check policy loaded object action request).isAllowed = true ↔
      ∃ ctx a name granted, loaded = .ok ctx ∧ action = .text a.word ∧ object = .text name ∧
        ctx.permissions.get? name = some granted ∧ granted.allows a = true ∧
        PassesRequest policy ctx object a request := by
  simp only [check, isAllowed_orUnavailable_iff, bind_eq_ok_iff, judge_eq_allowed_iff,
    ofValue_eq_ok_iff]
  constructor
  · rintro ⟨ctx, hctx, a, ha, name, granted, h⟩
    exact ⟨ctx, a, name, granted, hctx, ha, h⟩
  · rintro ⟨ctx, a, name, granted, hctx, ha, h⟩
    exact ⟨ctx, hctx, a, ha, name, granted, h⟩

end StaffAccess.Permission

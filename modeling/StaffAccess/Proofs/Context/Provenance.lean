import StaffAccess.Cache.ContextCache
import StaffAccess.Proofs.Context.Gathering
import StaffAccess.Proofs.Context.Payload
import StaffAccess.Proofs.Json.Delimiters
import StaffAccess.Proofs.Store.Schedule

/-!
# Whose a context is and how old

Two parts of a context are the same from compiling through writing to reading: the id of its user
and the time at which it was compiled. They do not depend on what else the rows are made of. A
context with rules that cannot be written, or that cannot be read back, may be lost on the way,
but it becomes neither the context of somebody else nor a younger one.

* `SecurityContext.exists_identity_of_compile`: where the two parts come from.
* `SecurityContext.ofValue_record`: where they are read from.
* `ContextCache.retains_of_decode`: they are read as they were written.
-/

namespace StaffAccess

namespace SecurityContext

variable {ctx ctx' : SecurityContext}

/-! ## Compiling -/

/-- A compiled context has the id of an identity that was read, and the time of compiling. -/
theorem exists_identity_of_compile {rules : RuleStore Read} {workers : Int} {now : Double}
    {user : String} (h : compile rules workers now user = .ok ctx) :
    ∃ identity, rules.findIdentity user = .returned (some identity) ∧
      ctx.userId = identity.userId ∧ ctx.lastUpdated = now := by
  obtain ⟨found, hfound, h⟩ := bind_eq_ok_iff.1 h
  cases found with
  | none => cases h
  | some identity =>
    refine ⟨identity, Read.alone_eq_ok_iff.1 hfound, ?_⟩
    -- All that follows is read for the context; its last step puts it together.
    dsimp only at h
    split at h
    · cases h
    · obtain ⟨groups, -, h⟩ := bind_eq_ok_iff.1 h
      obtain ⟨-, -, h⟩ := bind_eq_ok_iff.1 h
      obtain ⟨hierarchy, -, h⟩ := bind_eq_ok_iff.1 h
      obtain ⟨grants, -, h⟩ := bind_eq_ok_iff.1 h
      obtain ⟨rows, -, h⟩ := bind_eq_ok_iff.1 h
      obtain ⟨uiRows, -, h⟩ := bind_eq_ok_iff.1 h
      obtain ⟨rowRules, -, uiRules, -, rfl⟩ := assemble_eq_ok_iff.1 h
      exact ⟨rfl, rfl⟩

/-! ## Writing and reading -/

theorem exists_of_toValue_eq_ok {v : Value} (h : ctx.toValue = .ok v) :
    ∃ rowRules uiRules, v = .record (ctx.fieldsWith rowRules uiRules) := by
  rw [toValue_eq] at h
  obtain ⟨rowRules, -, h⟩ := bind_eq_ok_iff.1 h
  obtain ⟨uiRules, -, h⟩ := bind_eq_ok_iff.1 h
  cases h
  exact ⟨rowRules, uiRules, rfl⟩

/-- The id and the time are read from their entries, if the context is read. -/
theorem ofValue_record {f : Fields} {user : String} {updated : Double}
    (huser : f.lookup "user_id" = some (.text user))
    (hupdated : f.lookup "last_updated" = some (.double updated))
    (h : ofValue (.record f) = .ok ctx') : ctx'.userId = user ∧ ctx'.lastUpdated = updated := by
  obtain ⟨parts, -, h⟩ := bind_eq_ok_iff.1 h
  obtain ⟨id, hid, h⟩ := bind_eq_ok_iff.1 h
  obtain ⟨scope, -, h⟩ := bind_eq_ok_iff.1 h
  obtain ⟨scope, -, h⟩ := bind_eq_ok_iff.1 h
  obtain ⟨userType, -, h⟩ := bind_eq_ok_iff.1 h
  obtain ⟨tenantId, -, h⟩ := bind_eq_ok_iff.1 h
  obtain ⟨permissions, -, h⟩ := bind_eq_ok_iff.1 h
  obtain ⟨rowRules, -, h⟩ := bind_eq_ok_iff.1 h
  obtain ⟨uiRules, -, h⟩ := bind_eq_ok_iff.1 h
  obtain ⟨hierarchy, -, h⟩ := bind_eq_ok_iff.1 h
  obtain ⟨found, hfound, h⟩ := bind_eq_ok_iff.1 h
  obtain ⟨time, htime, h⟩ := bind_eq_ok_iff.1 h
  simp only [Value.field, huser, Except.ok.injEq] at hid
  simp only [Value.field?, hupdated, Except.ok.injEq] at hfound
  subst hid hfound
  cases htime
  split at h
  · cases h
  · cases h
    exact ⟨rfl, rfl⟩

end SecurityContext

/-- A context that is read from the payload of another one has its id and its time. -/
theorem ContextCache.retains_of_decode {cache : ContextCache} (hformat : cache.format = .json)
    {ctx ctx' : SecurityContext} {v : Value} (hv : ctx.toValue = .ok v)
    (hupdated : ctx.lastUpdated.IsRepresentable)
    (h : cache.decode (cache.format.encode v) = .ok ctx') :
    ctx'.userId = ctx.userId ∧ ctx'.lastUpdated = ctx.lastUpdated := by
  obtain ⟨rowRules, uiRules, rfl⟩ := SecurityContext.exists_of_toValue_eq_ok hv
  rw [decode, hformat] at h
  obtain ⟨v', hv', h⟩ := bind_eq_ok_iff.1 h
  have hnames : ((ctx.fieldsWith rowRules uiRules).map Prod.fst).Nodup := by
    simp [SecurityContext.fieldsWith]
  obtain ⟨entries, hretains, rfl⟩ := PayloadFormat.exists_entries_of_decode hnames hv'
  obtain ⟨userId, huserId, hsame⟩ := hretains.lookup "user_id" rfl
  obtain ⟨updated, hlookup, hsame'⟩ := hretains.lookup "last_updated" rfl
  obtain rfl := hsame.text _ rfl
  obtain rfl := hsame'.double _ rfl hupdated
  exact SecurityContext.ofValue_record huserId hlookup h

end StaffAccess

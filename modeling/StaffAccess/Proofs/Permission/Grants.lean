import StaffAccess.Authorization
import StaffAccess.Proofs.Context.Grants
import StaffAccess.Proofs.Store.Registry

/-!
# Permissions and grants

Without a request context, a check on a freshly compiled context comes down to the rows: the
user must be active, and one of the user's groups must have a grant that allows the action.
Nothing depends on the order or the number of memberships and grants, and more of them never
take an allowance away.

What stands against it is a rule of one of the groups that cannot be used. It leaves the user
without a context, and so without any permission.

* `freshDecision`: the decision on a freshly compiled context.
* `Registry.verdict`: the decision that the rows call for, which is the one that is made.
* `freshDecision_isAllowed_iff`: what has to be in the rows for an allowance, and that neither
  other orders nor more rows take it away.
* `unusableRule_denies`: one rule of an unknown kind stands against every grant.
-/

namespace StaffAccess

open Permission

/-- Questions answered from contexts that are compiled anew for every question. -/
def Authorization.compiling (policy : Policy) (store : RuleStore Read) (workers : Int)
    (now : Double) : Authorization Id where
  contexts user := SecurityContext.compile store workers now user.display
  policy := policy

/-- The decision on a context that is compiled for the question, without a request context. -/
def freshDecision (policy : Policy) (store : RuleStore Read) (workers : Int) (now : Double)
    (user object : String) (a : Action) : Decision :=
  (Authorization.compiling policy store workers now).checkPermission (.text user)
    (.text object) (.text a.word) .null

/-- Without a request context, the entry of the object decides. -/
theorem Permission.check_null (policy : Policy) (ctx : SecurityContext) (object : String)
    (a : Action) : check policy (.ok ctx) (.text object) (.text a.word) .null =
      match ctx.permissions.get? object with
      | none => .denied (.noEntry (.text object))
      | some granted =>
        if granted.allows a then .allowed else .denied (.notGranted a (.text object)) := by
  simp only [check, judge, Action.ofValue, Action.ofValue?, Action.ofWord?_word, ok_bind,
    OrderedMap.find, Value.truthy]
  cases ctx.permissions.get? object with
  | none => rfl
  | some granted => cases hgranted : granted.allows a <;> simp [orUnavailable, hgranted]

namespace Registry

variable {registry : Registry} {present : Int} {store : RuleStore Read} {user : String}

open Classical in
/-- The decision that the rows of a registry call for. -/
noncomputable def verdict (registry : Registry) (present : Int) (user object : String)
    (a : Action) : Decision :=
  if registry.IsActive user ∧ registry.HasUsableRules present user then
    if registry.Grants present user object a then .allowed
    else if registry.Names present user object then .denied (.notGranted a (.text object))
    else .denied (.noEntry (.text object))
  else .denied .unavailable

/-- An object has an entry exactly if one of the user's groups has a grant on it. -/
theorem IsReadBy.isSome_get?_permissions (h : registry.IsReadBy present store)
    {workers : Int} {now : Double} {ctx : SecurityContext}
    (hctx : SecurityContext.compile store workers now user = .ok ctx) (object : String) :
    (ctx.permissions.get? object).isSome = true ↔ registry.Names present user object := by
  obtain ⟨grants, hpermissions, hgrants⟩ := h.permissions_eq hctx
  simp [hpermissions, SecurityContext.get?_ofGrants_isSome, hgrants, Names, and_assoc]

/-- An entry allows what one of the user's groups may do. -/
theorem IsReadBy.allows_permissionsOn (h : registry.IsReadBy present store)
    {workers : Int} {now : Double} {ctx : SecurityContext}
    (hctx : SecurityContext.compile store workers now user = .ok ctx) (object : String)
    (a : Action) : (ctx.permissionsOn object).allows a = true ↔
      registry.Grants present user object a := by
  obtain ⟨grants, hpermissions, hgrants⟩ := h.permissions_eq hctx
  simp [SecurityContext.permissionsOn, hpermissions, SecurityContext.allows_ofGrants, hgrants,
    Grants, and_assoc]

/-- The decision on a freshly compiled context is the one that the rows call for. -/
theorem IsReadBy.freshDecision_eq (h : registry.IsReadBy present store) (policy : Policy)
    (workers : Int) (now : Double) (user object : String) (a : Action) :
    freshDecision policy store workers now user object a =
      registry.verdict present user object a := by
  show check policy (SecurityContext.compile store workers now user) _ _ _ = _
  rw [verdict]
  cases hctx : SecurityContext.compile store workers now user with
  | error e =>
    have hnone : ¬(registry.IsActive user ∧ registry.HasUsableRules present user) := by
      rw [← h.exists_compile_iff workers now]
      simp [hctx]
    rw [if_neg hnone]
    rfl
  | ok ctx =>
    rw [if_pos ((h.exists_compile_iff workers now).1 ⟨ctx, hctx⟩), check_null]
    simp only [← h.isSome_get?_permissions hctx, ← h.allows_permissionsOn hctx,
      SecurityContext.permissionsOn]
    cases ctx.permissions.get? object <;> simp

/-! ## Other rows -/

/-- Two registries with the same rows, whatever their order and number. -/
structure SameRows (registry registry' : Registry) : Prop where
  users : registry'.users = registry.users
  memberships : ∀ m, m ∈ registry'.memberships ↔ m ∈ registry.memberships
  grants : ∀ g, g ∈ registry'.grants ↔ g ∈ registry.grants
  visibilityRows : ∀ row, row ∈ registry'.visibilityRows ↔ row ∈ registry.visibilityRows
  uiRows : ∀ row, row ∈ registry'.uiRows ↔ row ∈ registry.uiRows

/-- The second registry has all users, memberships and grants of the first. -/
structure IsWithin (registry registry' : Registry) : Prop where
  users : registry'.users = registry.users
  memberships : registry.memberships ⊆ registry'.memberships
  grants : registry.grants ⊆ registry'.grants

variable {registry' : Registry}

theorem SameRows.isMember_iff (h : registry.SameRows registry') (group : Int) :
    registry'.IsMember present user group ↔ registry.IsMember present user group := by
  simp only [IsMember, h.memberships]

theorem SameRows.hasUsableRules_iff (h : registry.SameRows registry') :
    registry'.HasUsableRules present user ↔ registry.HasUsableRules present user := by
  simp only [HasUsableRules, h.visibilityRows, h.uiRows, h.isMember_iff]

theorem SameRows.verdict_eq (h : registry.SameRows registry') (user object : String)
    (a : Action) : registry'.verdict present user object a =
      registry.verdict present user object a := by
  have hactive : registry'.IsActive user ↔ registry.IsActive user := by
    simp only [IsActive, h.users]
  have hgrants : registry'.Grants present user object a ↔
      registry.Grants present user object a := by
    simp only [Registry.Grants, h.grants, h.isMember_iff]
  have hnames : registry'.Names present user object ↔ registry.Names present user object := by
    simp only [Names, h.grants, h.isMember_iff]
  classical
  rw [verdict]
  exact if_congr (and_congr hactive h.hasUsableRules_iff)
    (if_congr hgrants rfl (if_congr hnames rfl rfl)) rfl

theorem IsWithin.isActive (h : registry.IsWithin registry') (hactive : registry.IsActive user) :
    registry'.IsActive user := by
  obtain ⟨identity, hidentity, hyes⟩ := hactive
  exact ⟨identity, h.users ▸ hidentity, hyes⟩

theorem IsWithin.grants_of_grants (h : registry.IsWithin registry') {object : String}
    {a : Action} (hgrants : registry.Grants present user object a) :
    registry'.Grants present user object a := by
  obtain ⟨g, hg, ⟨m, hm, hcurrent⟩, hallows⟩ := hgrants
  exact ⟨g, h.grants hg, ⟨m, h.memberships hm, hcurrent⟩, hallows⟩

theorem verdict_isAllowed_iff (user object : String) (a : Action) :
    (registry.verdict present user object a).isAllowed = true ↔
      registry.IsActive user ∧ registry.HasUsableRules present user ∧
        registry.Grants present user object a := by
  rw [verdict]
  split_ifs with hloads hgrants hnames
  · simp [Decision.isAllowed, hloads, hgrants]
  · simp [Decision.isAllowed, hgrants]
  · simp [Decision.isAllowed, hgrants]
  · simp only [Decision.isAllowed, Bool.false_eq_true, false_iff]
    exact fun h => hloads ⟨h.1, h.2.1⟩

end Registry

/-! ## The decision -/

/-- What has to be in the rows for a user to be allowed to do something, and for an object to
    have an entry. Other orders and repetitions of the rows make no difference, and more
    memberships and grants never take an allowance away, as long as the rules that come with
    them can be used. -/
theorem freshDecision_isAllowed_iff {registry : Registry} {present : Int}
    {store : RuleStore Read} (h : registry.IsReadBy present store) (policy : Policy)
    (workers : Int) (now : Double) (user object : String) (a : Action) :
    ((freshDecision policy store workers now user object a).isAllowed = true ↔
      registry.IsActive user ∧ registry.HasUsableRules present user ∧
        registry.Grants present user object a) ∧
    (∀ ctx, SecurityContext.compile store workers now user = .ok ctx → ∀ object,
      (ctx.permissions.get? object).isSome = true ↔ registry.Names present user object) ∧
    (∀ registry' store', registry'.IsReadBy present store' → registry.SameRows registry' →
      freshDecision policy store' workers now user object a =
        freshDecision policy store workers now user object a) ∧
    ∀ registry' store', registry'.IsReadBy present store' → registry.IsWithin registry' →
      registry'.HasUsableRules present user →
      (freshDecision policy store workers now user object a).isAllowed = true →
        (freshDecision policy store' workers now user object a).isAllowed = true := by
  refine ⟨?_, fun ctx hctx => h.isSome_get?_permissions hctx, ?_, ?_⟩
  · rw [h.freshDecision_eq, Registry.verdict_isAllowed_iff]
  · intro registry' store' h' hsame
    rw [h.freshDecision_eq, h'.freshDecision_eq, hsame.verdict_eq]
  · intro registry' store' h' hwithin husable
    rw [h.freshDecision_eq, h'.freshDecision_eq, Registry.verdict_isAllowed_iff,
      Registry.verdict_isAllowed_iff]
    rintro ⟨hactive, -, hgrants⟩
    exact ⟨hwithin.isActive hactive, husable, hwithin.grants_of_grants hgrants⟩

/-- One active user, in a group that may read documents and has some rules for rows. -/
def Registry.ofReader (rows : List VisibilityRow) : Registry where
  users user := if user = "ana" then some ⟨"ana", .ministry, "AGENT", .null, true⟩ else none
  memberships := [⟨"ana", 1, true, some 100⟩]
  grants := [⟨1, "doc", .ofActions fun a => a = .read⟩]
  visibilityRows := rows
  uiRows := []
  managerOf _ := none
  subordinatesOf _ := []

theorem reader_isAllowed :
    (Registry.ofReader []).IsReadBy 100 ((Registry.ofReader []).store 100) ∧
      (freshDecision {} ((Registry.ofReader []).store 100) 4 (.finite false 0) "ana" "doc"
        .read).isAllowed = true := by
  refine ⟨Registry.isReadBy_store _ _, ((freshDecision_isAllowed_iff
    (Registry.isReadBy_store _ _) _ _ _ _ _ _).1).2 ⟨⟨_, rfl, rfl⟩, ⟨?_, ?_⟩, ?_⟩⟩
  · exact fun _ h => absurd h List.not_mem_nil
  · exact fun _ h => absurd h List.not_mem_nil
  · exact ⟨_, List.mem_singleton_self _, ⟨_, List.mem_singleton_self _, rfl, rfl, rfl⟩, rfl, rfl⟩

/-- A rule for rows of a kind that is unknown. -/
def VisibilityRow.seasonal : VisibilityRow := ⟨1, "doc", .text "SEASONAL", .record [], .int 0⟩

/-- The user is active and in a group that may read documents, but one rule of the group cannot
    be used. -/
theorem unusableRule_denies :
    (Registry.ofReader [.seasonal]).IsReadBy 100 ((Registry.ofReader [.seasonal]).store 100) ∧
      (Registry.ofReader [.seasonal]).IsActive "ana" ∧
      (Registry.ofReader [.seasonal]).Grants 100 "ana" "doc" .read ∧
      (freshDecision {} ((Registry.ofReader [.seasonal]).store 100) 4 (.finite false 0) "ana"
        "doc" .read).isAllowed = false := by
  refine ⟨Registry.isReadBy_store _ _, ⟨_, rfl, rfl⟩, ?_, ?_⟩
  · exact ⟨_, List.mem_singleton_self _, ⟨_, List.mem_singleton_self _, rfl, rfl, rfl⟩, rfl, rfl⟩
  · decide

end StaffAccess

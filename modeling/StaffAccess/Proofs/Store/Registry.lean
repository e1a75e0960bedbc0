import StaffAccess.Proofs.Context.Gathering
import StaffAccess.Proofs.Context.RuleRows

/-!
# Registries

The rows that a store answers its questions from: users, their memberships in groups, and what
the groups may do and how they rule. A store reads a registry if it answers every question with
the rows that the question is about. In which order, and how often each, is up to the store.

* `Registry`: the rows.
* `Registry.IsReadBy`: the stores that read a registry.
* `Registry.store`: one of them.
* `Registry.exists_compile_iff`: the users who have a context.
-/

namespace StaffAccess

/-- Somebody's membership in a group. -/
structure Membership where
  /-- The user. -/
  user : String
  /-- The group. -/
  groupId : Int
  /-- Whether it counts at all. -/
  active : Bool
  /-- The last moment at which it counts; none if it does not expire. -/
  expiresAt : Option Int

/-- Whether a membership counts at a moment. -/
def Membership.isCurrent (m : Membership) (present : Int) : Bool :=
  m.active && m.expiresAt.all fun last => present ≤ last

/-- The rows behind all users. -/
structure Registry where
  /-- Who the users are. -/
  users : String → Option UserIdentity
  /-- Who is in which group. -/
  memberships : List Membership
  /-- What groups may do. -/
  grants : List PermissionGrant
  /-- The rules of groups for rows. -/
  visibilityRows : List VisibilityRow
  /-- The rules of groups for elements. -/
  uiRows : List UiRow
  /-- The managers of users. -/
  managerOf : String → Option String
  /-- Those whose manager a user is. -/
  subordinatesOf : String → List SubordinateRow

namespace Registry

variable (registry : Registry) (present : Int)

/-- Whether a user exists and is active. -/
def IsActive (user : String) : Prop :=
  ∃ identity, registry.users user = some identity ∧ identity.active = true

/-- Whether a user is in a group. -/
def IsMember (user : String) (group : Int) : Prop :=
  ∃ m ∈ registry.memberships, m.user = user ∧ m.groupId = group ∧ m.isCurrent present = true

/-- Whether one of a user's groups has a grant on an object. -/
def Names (user object : String) : Prop :=
  ∃ g ∈ registry.grants, registry.IsMember present user g.groupId ∧ g.object = object

/-- Whether one of a user's groups may do something to an object. -/
def Grants (user object : String) (a : Action) : Prop :=
  ∃ g ∈ registry.grants, registry.IsMember present user g.groupId ∧ g.object = object ∧
    g.granted.allows a = true

/-- Whether all rules of a user's groups can be used. -/
def HasUsableRules (user : String) : Prop :=
  (∀ row ∈ registry.visibilityRows, registry.IsMember present user row.groupId → row.IsUsable) ∧
    ∀ row ∈ registry.uiRows, registry.IsMember present user row.groupId → row.IsUsable

/-- The stores that read a registry at a moment: every read returns the rows that it is about,
    in any order and any number. -/
structure IsReadBy (store : RuleStore Read) : Prop where
  users : ∀ user, store.findIdentity user = .returned (registry.users user)
  memberships : ∀ user, ∃ groups, store.findMemberships user = .returned groups ∧
    ∀ group, group ∈ groups ↔ registry.IsMember present user group
  grants : ∀ groups, ∃ grants, store.findPermissions groups = .returned grants ∧
    ∀ g, g ∈ grants ↔ g ∈ registry.grants ∧ g.groupId ∈ groups
  visibilityRows : ∀ groups, ∃ rows, store.findVisibilityRules groups = .returned rows ∧
    ∀ row, row ∈ rows ↔ row ∈ registry.visibilityRows ∧ row.groupId ∈ groups
  uiRows : ∀ groups, ∃ rows, store.findUiRules groups = .returned rows ∧
    ∀ row, row ∈ rows ↔ row ∈ registry.uiRows ∧ row.groupId ∈ groups
  managers : ∀ user, store.findManager user = .returned (registry.managerOf user)
  subordinates : ∀ user, store.findSubordinates user = .returned (registry.subordinatesOf user)

/-- The store that answers with the rows in the order of the registry. -/
def store : RuleStore Read where
  findIdentity user := .returned (registry.users user)
  findMemberships user := .returned <| (registry.memberships.filter fun m =>
    m.user = user && m.isCurrent present).map (·.groupId)
  findPermissions groups := .returned <| registry.grants.filter fun g => groups.contains g.groupId
  findVisibilityRules groups := .returned <|
    registry.visibilityRows.filter fun row => groups.contains row.groupId
  findUiRules groups := .returned <| registry.uiRows.filter fun row => groups.contains row.groupId
  findManager user := .returned (registry.managerOf user)
  findSubordinates user := .returned (registry.subordinatesOf user)

theorem isReadBy_store : registry.IsReadBy present (registry.store present) where
  users _ := rfl
  memberships user := by
    refine ⟨_, rfl, fun group => ?_⟩
    simp only [List.mem_map, List.mem_filter, Bool.and_eq_true, decide_eq_true_eq, IsMember]
    exact ⟨fun ⟨m, ⟨hm, hu, hc⟩, hg⟩ => ⟨m, hm, hu, hg, hc⟩,
      fun ⟨m, hm, hu, hg, hc⟩ => ⟨m, ⟨hm, hu, hc⟩, hg⟩⟩
  grants _ := ⟨_, rfl, by simp⟩
  visibilityRows _ := ⟨_, rfl, by simp⟩
  uiRows _ := ⟨_, rfl, by simp⟩
  managers _ := rfl
  subordinates _ := rfl

/-! ## Contexts -/

section Compile

open SecurityContext

variable {registry present} {store : RuleStore Read} {user : String} (workers : Int)
  (now : Double)

/-- Compiling reads the rows of the user's groups, and nothing else. -/
theorem IsReadBy.compile_eq (h : registry.IsReadBy present store) {identity : UserIdentity}
    (hidentity : registry.users user = some identity) (hactive : identity.active = true) :
    ∃ grants rows uiRows hierarchy,
      compile store workers now user = assemble identity grants rows uiRows hierarchy now ∧
      (∀ g, g ∈ grants ↔ g ∈ registry.grants ∧ registry.IsMember present user g.groupId) ∧
      (∀ row, row ∈ rows ↔
        row ∈ registry.visibilityRows ∧ registry.IsMember present user row.groupId) ∧
      ∀ row, row ∈ uiRows ↔ row ∈ registry.uiRows ∧ registry.IsMember present user row.groupId := by
  obtain ⟨groups, hgroups, hmember⟩ := h.memberships user
  obtain ⟨grants, hgrants, hmemGrants⟩ := h.grants groups
  obtain ⟨rows, hrows, hmemRows⟩ := h.visibilityRows groups
  obtain ⟨uiRows, huiRows, hmemUiRows⟩ := h.uiRows groups
  have hhierarchy : ∃ place, store.hierarchyOf user = .returned place := by
    simp only [RuleStore.hierarchyOf, h.managers, h.subordinates]
    exact ⟨_, rfl⟩
  obtain ⟨place, hplace⟩ := hhierarchy
  refine ⟨grants, rows, uiRows, _, compile_eq_assemble workers now ((h.users user).trans
    (congrArg _ hidentity)) hactive hgroups hgrants hrows huiRows hplace, ?_⟩
  simp only [← hmember]
  exact ⟨hmemGrants, hmemRows, hmemUiRows⟩

/-- A user has a context exactly if the user is active and all rules of the user's groups can be
    used. -/
theorem IsReadBy.exists_compile_iff (h : registry.IsReadBy present store) :
    (∃ ctx, compile store workers now user = .ok ctx) ↔
      registry.IsActive user ∧ registry.HasUsableRules present user := by
  by_cases hactive : registry.IsActive user
  · obtain ⟨identity, hidentity, hyes⟩ := hactive
    obtain ⟨grants, rows, uiRows, hierarchy, hcompile, -, hrows, huiRows⟩ :=
      h.compile_eq workers now hidentity hyes
    have hassemble : (∃ ctx, assemble identity grants rows uiRows hierarchy now = .ok ctx) ↔
        (∃ rowRules, ofRuleRows rows = .ok rowRules) ∧
          ∃ uiRules, ofUiRows uiRows = .ok uiRules := by
      simp only [assemble_eq_ok_iff]
      exact ⟨fun ⟨_, r, hr, u, hu, _⟩ => ⟨⟨r, hr⟩, u, hu⟩,
        fun ⟨⟨r, hr⟩, u, hu⟩ => ⟨_, r, hr, u, hu, rfl⟩⟩
    rw [hcompile, hassemble, exists_ofRuleRows_iff, exists_ofUiRows_iff]
    simp only [hrows, huiRows, and_imp, HasUsableRules]
    exact ⟨fun hrules => ⟨⟨identity, hidentity, hyes⟩, hrules⟩, And.right⟩
  · have hnone := compile_eq_identityNotFound workers now (h.users user)
      fun identity hidentity => by
        by_contra hyes
        exact hactive ⟨identity, hidentity, by simpa using hyes⟩
    simp [hnone, hactive]

/-- The permissions in a context are merged from the grants of the user's groups. -/
theorem IsReadBy.permissions_eq (h : registry.IsReadBy present store) {ctx : SecurityContext}
    {workers : Int} {now : Double} (hctx : compile store workers now user = .ok ctx) :
    ∃ grants, ctx.permissions = ofGrants grants ∧
      ∀ g, g ∈ grants ↔ g ∈ registry.grants ∧ registry.IsMember present user g.groupId := by
  obtain ⟨identity, hidentity, hactive⟩ := ((h.exists_compile_iff workers now).1 ⟨ctx, hctx⟩).1
  obtain ⟨grants, rows, uiRows, hierarchy, hcompile, hgrants, -⟩ :=
    h.compile_eq workers now hidentity hactive
  obtain ⟨rowRules, -, uiRules, -, rfl⟩ := assemble_eq_ok_iff.1 (hcompile.symm.trans hctx)
  exact ⟨grants, rfl, hgrants⟩

end Compile

end Registry

end StaffAccess

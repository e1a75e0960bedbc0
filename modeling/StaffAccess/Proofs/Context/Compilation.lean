import StaffAccess.Context.Compile
import StaffAccess.Proofs.Cache.Contents
import StaffAccess.Proofs.Context.Payload
import StaffAccess.Proofs.Context.RuleRows

/-!
# What compiling gives

Rows with contents of their declared types give a context whose parts have the right kinds, or a
fault that has nothing to do with the cache. This holds whatever the rows are, whichever reads fail
or block, and whichever rules cannot be used.

Compiling takes over the conditions and priorities of the rows as they are. So whatever holds of
all of them holds of those in the context, such as that JSON texts can stand for them.

* `RuleStore.HasValues`: the contents of rows have their declared types, something holds of the
  conditions and priorities, and reads fail in ways of their own.
* `RuleStore.IsTyped`, `RuleStore.IsWritable`: the declared types alone, and with the limits of
  JSON texts.
* `SecurityContext.outcome_compile`: what compiling gives then.
-/

namespace StaffAccess

/-! ## Declared types -/

/-- Whether the row of a user has the declared types: the structure or school is a text, if there
    is one. -/
structure UserIdentity.IsTyped (identity : UserIdentity) : Prop where
  tenantId : identity.tenantId = .null ∨ ∃ s, identity.tenantId = .text s

/-- Whether the row of a rule for rows has the declared types, which make the priority a whole
    number, and something holds of its condition and of its priority. -/
structure VisibilityRow.HasValues (p : Value → Prop) (row : VisibilityRow) : Prop where
  condition : p row.condition
  priority : ∃ n : Int, row.priority = .int n ∧ p (.int n)

/-- Whether a rule for rows has the right kinds of parts, and something holds of its condition and
    of its priority. -/
structure VisibilityRule.HasValues (p : Value → Prop) (r : VisibilityRule) : Prop
    extends r.IsWellFormed where
  condition_holds : p r.condition
  priority_holds : p r.priority

/-- Whether a rule for elements has the declared types, which make the flags truth values and the
    conditions a record, if there are any, and something holds of its conditions. -/
structure UiRule.HasValues (p : Value → Prop) (r : UiRule) : Prop extends r.IsWellFormed where
  conditions_holds : p r.conditions

/-- Whether a read gives a value of some kind, or fails in a way that is not that of caches. -/
def Read.Gives {α : Type} (p : α → Prop) : Read α → Prop
  | returned a => p a
  | failed e => ¬e.IsDegraded
  | blocked => True

/-- Whether the rows of a store have the declared types, and something holds of the conditions and
    priorities in them. -/
structure RuleStore.HasValues (p : Value → Prop) (store : RuleStore Read) : Prop where
  identity : ∀ user, (store.findIdentity user).Gives fun i => ∀ identity ∈ i, identity.IsTyped
  memberships : ∀ user, (store.findMemberships user).Gives fun _ => True
  permissions : ∀ groups, (store.findPermissions groups).Gives fun _ => True
  visibilityRules : ∀ groups, (store.findVisibilityRules groups).Gives
    fun rows => ∀ row ∈ rows, row.HasValues p
  uiRules : ∀ groups, (store.findUiRules groups).Gives
    fun rows => ∀ row ∈ rows, row.rule.HasValues p
  manager : ∀ user, (store.findManager user).Gives fun _ => True
  subordinates : ∀ user, (store.findSubordinates user).Gives fun _ => True

/-- Whether the rows of a store have the declared types. Conditions are whatever they are, however
    deep, and priorities are as long as they like. -/
def RuleStore.IsTyped (store : RuleStore Read) : Prop :=
  store.HasValues fun _ => True

/-- Whether the rows of a store have the declared types and are within the limits of JSON texts.
    Whole numbers have at most 4300 digits (`Text.maxDigits`); in a condition, lists and records
    lie at most 986 deep in each other (`conditionDepth`), and no name stands twice in a record. -/
def RuleStore.IsWritable (store : RuleStore Read) : Prop :=
  store.HasValues (Value.IsJson conditionDepth)

section HasValues

variable {p q : Value → Prop}

theorem Read.Gives.mono {α : Type} {p q : α → Prop} {r : Read α} (h : r.Gives p)
    (hpq : ∀ a, p a → q a) : r.Gives q := by
  cases r with
  | returned a => exact hpq a h
  | failed e => exact h
  | blocked => trivial

theorem VisibilityRow.HasValues.mono {row : VisibilityRow} (h : row.HasValues p)
    (hpq : ∀ v, p v → q v) : row.HasValues q where
  condition := hpq _ h.condition
  priority := h.priority.imp fun n hn => ⟨hn.1, hpq (.int n) hn.2⟩

theorem UiRule.HasValues.mono {r : UiRule} (h : r.HasValues p) (hpq : ∀ v, p v → q v) :
    r.HasValues q :=
  ⟨h.toIsWellFormed, hpq _ h.conditions_holds⟩

theorem RuleStore.HasValues.mono {store : RuleStore Read} (h : store.HasValues p)
    (hpq : ∀ v, p v → q v) : store.HasValues q where
  identity := h.identity
  memberships := h.memberships
  permissions := h.permissions
  visibilityRules groups :=
    (h.visibilityRules groups).mono fun _ hrows row hrow => (hrows row hrow).mono hpq
  uiRules groups := (h.uiRules groups).mono fun _ hrows row hrow => (hrows row hrow).mono hpq
  manager := h.manager
  subordinates := h.subordinates

theorem RuleStore.IsWritable.isTyped {store : RuleStore Read} (h : store.IsWritable) :
    store.IsTyped :=
  h.mono fun _ _ => trivial

end HasValues

/-! ## Reads -/

/-- What a computation gives that has nothing to do with caches. -/
abbrev OwnOutcome {α : Type} (p : α → Prop) : Except Fault α → Prop :=
  Outcome p fun e => ¬e.IsDegraded

namespace Read

variable {α β : Type} {p : α → Prop} {q : β → Prop}

theorem Gives.alone {r : Read α} (h : r.Gives p) (name : String) :
    OwnOutcome p (r.alone name) := by
  cases r with
  | returned a => exact h
  | failed e => exact h
  | blocked => rintro ⟨_, _, he⟩; cases he

theorem Gives.bind {r : Read α} {f : α → Read β} (h : r.Gives p) (hf : ∀ a, p a → (f a).Gives q) :
    (r >>= f).Gives q := by
  cases r with
  | returned a => exact hf a h
  | failed e => exact h
  | blocked => trivial

/-- Whether a job fails, if it does, in a way that is not that of caches. -/
def Job.IsOwn (j : Job) : Prop := j.outcome.Gives fun _ => True

theorem Gives.isOwn {r : Read α} (h : r.Gives p) (name : String) : (r.job name).IsOwn := by
  cases r with
  | returned a => trivial
  | failed e => exact h
  | blocked => trivial

theorem firstFailure_isOwn {jobs : List Job} (h : ∀ j ∈ jobs, j.IsOwn) {e : Fault}
    (he : Job.firstFailure jobs = some e) : ¬e.IsDegraded := by
  induction jobs with
  | nil => cases he
  | cons j jobs ih =>
    rw [List.forall_mem_cons] at h
    obtain ⟨name, outcome⟩ := j
    cases outcome with
    | failed cause =>
      cases he
      exact h.1
    | returned _ => exact ih h.2 he
    | blocked => exact ih h.2 he

theorem mem_of_mem_started {free : Nat} {jobs : List Job} {j : Job}
    (h : j ∈ Job.started free jobs) : j ∈ jobs := by
  induction jobs generalizing free with
  | nil => cases free <;> exact h
  | cons j' jobs ih =>
    cases free with
    | zero => cases h
    | succ free =>
      rw [Job.started, List.mem_cons] at h
      exact List.mem_cons.2 (h.imp_right ih)

theorem outcome_gather {jobs : List Job} (h : ∀ j ∈ jobs, j.IsOwn) (most : Int) :
    OwnOutcome (fun _ => True) (gather most jobs) := by
  rw [gather]
  cases hfailure : Job.firstFailure (Job.started (workerCount most jobs.length) jobs) with
  | some e => exact firstFailure_isOwn (fun j hj => h j (mem_of_mem_started hj)) hfailure
  | none =>
    dsimp only
    split
    · trivial
    · rintro ⟨_, _, he⟩
      cases he

end Read

/-- A hierarchy as it is compiled: of the declared types, with those one level below. -/
structure Hierarchy.IsDirect (h : Hierarchy) : Prop where
  managerId : h.managerId = .null ∨ ∃ id, h.managerId = .text id
  subordinates : ∀ s ∈ h.subordinates,
    (∃ id, s.id = .text id) ∧ (∃ name, s.displayName = .text name) ∧ s.level = 1

/-- Whether the parts of a context have the right kinds, and something holds of the conditions and
    priorities in it. -/
structure SecurityContext.HasValues (p : Value → Prop) (ctx : SecurityContext) : Prop where
  tenantId : ctx.tenantId = .null ∨ ∃ s, ctx.tenantId = .text s
  rowRules : ∀ e ∈ ctx.rowRules.entries, ∀ r ∈ e.2, r.HasValues p
  uiRules : ∀ r ∈ ctx.uiRules, r.HasValues p
  hierarchy : ∀ h, ctx.hierarchy = some h → h.IsDirect ∧ ctx.scope = .ministry

theorem Value.isJson_of_null_or_text {v : Value} {depth : Nat}
    (h : v = .null ∨ ∃ s, v = .text s) : v.IsJson depth := by
  rcases h with rfl | ⟨s, rfl⟩
  · exact .null
  · exact .text s

theorem Hierarchy.IsDirect.isJson {h : Hierarchy} (hdirect : h.IsDirect) : h.IsJson where
  managerId := Value.isJson_of_null_or_text hdirect.managerId
  subordinates s hs := by
    obtain ⟨hid, hname, hlevel⟩ := hdirect.subordinates s hs
    refine ⟨Value.isJson_of_null_or_text (.inr hid), Value.isJson_of_null_or_text (.inr hname), ?_⟩
    rw [hlevel]
    exact .int (show (Nat.toDigits 10 1).length ≤ Text.maxDigits by decide)

namespace SecurityContext

variable {p : Value → Prop} {ctx : SecurityContext}

theorem HasValues.isWellFormed (h : ctx.HasValues p) : ctx.IsWellFormed where
  rowRules e he r hr := (h.rowRules e he r hr).toIsWellFormed
  uiRules r hr := (h.uiRules r hr).toIsWellFormed
  hierarchy hsome := by
    obtain ⟨hierarchy, hh⟩ := Option.ne_none_iff_exists'.1 hsome
    exact (h.hierarchy hierarchy hh).2

/-- If JSON texts can stand for all conditions and priorities, they can for the context. -/
theorem HasValues.isJson (h : ctx.HasValues (Value.IsJson conditionDepth))
    (hupdated : ctx.lastUpdated.IsRepresentable) : ctx.IsJson where
  tenantId := Value.isJson_of_null_or_text h.tenantId
  rowRules e he r hr := by
    obtain ⟨hwell, hcondition, hpriority⟩ := h.rowRules e he r hr
    exact ⟨hwell, hcondition, hpriority⟩
  uiRules r hr := by
    obtain ⟨hwell, hconditions⟩ := h.uiRules r hr
    exact ⟨hwell, hconditions⟩
  hierarchy hierarchy hh := (h.hierarchy hierarchy hh).imp_left Hierarchy.IsDirect.isJson
  lastUpdated := hupdated

/-! ## Rules -/

theorem outcome_ruleOfRow {row : VisibilityRow} (h : row.HasValues p) :
    OwnOutcome (VisibilityRule.HasValues p) (ruleOfRow row) := by
  cases hrule : ruleOfRow row with
  | ok rule =>
    obtain ⟨-, hrecord, hcondition, hpriority⟩ := ruleOfRow_eq_ok_iff.1 hrule
    obtain ⟨n, hn, hholds⟩ := h.priority
    rw [hn] at hpriority
    exact ⟨⟨hcondition ▸ hrecord, n, hpriority⟩, hcondition ▸ h.condition, hpriority ▸ hholds⟩
  | error e =>
    -- Rules fail to be used in two ways, neither of which is that of caches.
    rintro ⟨_, _, rfl⟩
    simp only [ruleOfRow] at hrule
    split at hrule <;> cases hrule

theorem outcome_byPriority {p : VisibilityRule → Prop} {rules : List VisibilityRule}
    (h : ∀ r ∈ rules, p r) : OwnOutcome (fun sorted => ∀ r ∈ sorted, p r) (byPriority rules) := by
  refine outcome_bind (p := fun sized => ∀ e ∈ sized, p e.2) ?_ fun sized hsized => ?_
  · refine outcome_mapM fun r hr => ?_
    rw [prioritySize]
    cases r.priority.quantity? with
    | none => rintro ⟨_, _, he⟩; cases he
    | some q => exact h r hr
  · intro r hr
    obtain ⟨e, he, rfl⟩ := List.mem_map.1 hr
    exact hsized e (List.mem_mergeSort.1 he)

theorem outcome_ofRuleRows {rows : List VisibilityRow} (h : ∀ row ∈ rows, row.HasValues p) :
    OwnOutcome (fun rules => ∀ e ∈ rules.entries, ∀ r ∈ e.2, r.HasValues p) (ofRuleRows rows) := by
  refine outcome_bind (p := fun rules => ∀ e ∈ rules, e.2.HasValues p) ?_ fun rules hrules => ?_
  · exact outcome_mapM fun row hrow => outcome_bind (outcome_ruleOfRow (h row hrow)) fun _ hr => hr
  · -- The rules are put together by object and sorted, which leaves them what they are.
    have hgrouped := forall_mem_groupRules.2 hrules
    refine outcome_bind (p := fun sorted => ∀ e ∈ sorted, ∀ r ∈ e.2, r.HasValues p) ?_
      fun sorted hsorted => ?_
    · exact outcome_mapM fun e he =>
        outcome_bind (outcome_byPriority (hgrouped e he)) fun _ hown => hown
    · exact fun e he => hsorted e (OrderedMap.mem_of_mem_entries_ofEntries he)

theorem outcome_ofUiRows {rows : List UiRow} (h : ∀ row ∈ rows, row.rule.HasValues p) :
    OwnOutcome (fun rules => ∀ r ∈ rules, r.HasValues p) (ofUiRows rows) := by
  refine outcome_mapM fun row hrow => ?_
  have hrule := h row hrow
  rcases hrule.conditions with hnull | ⟨f, hrecord⟩
  · rw [hnull]
    exact hrule
  · rw [hrecord]
    show UiRule.HasValues p { row.rule with conditions := .record f }
    rw [← hrecord]
    exact hrule

/-! ## Contexts -/

theorem gives_hierarchyOf {store : RuleStore Read} (h : store.HasValues p) (user : String) :
    (store.hierarchyOf user).Gives Hierarchy.IsDirect := by
  refine (h.manager user).bind fun manager _ => (h.subordinates user).bind fun rows _ => ?_
  refine ⟨?_, fun s hs => ?_⟩
  · cases manager with
    | none => exact .inl rfl
    | some m => exact .inr ⟨m, rfl⟩
  · obtain ⟨row, _, rfl⟩ := List.mem_map.1 hs
    exact ⟨⟨_, rfl⟩, ⟨_, rfl⟩, rfl⟩

theorem outcome_assemble {identity : UserIdentity} {rows : List VisibilityRow}
    {uiRows : List UiRow} {hierarchy : Option Hierarchy} (grants : List PermissionGrant)
    (now : Double) (hidentity : identity.IsTyped) (hrows : ∀ row ∈ rows, row.HasValues p)
    (huiRows : ∀ row ∈ uiRows, row.rule.HasValues p)
    (hhierarchy : ∀ h, hierarchy = some h → h.IsDirect ∧ identity.scope = .ministry) :
    OwnOutcome (fun ctx => ctx.HasValues p ∧ ctx.lastUpdated = now)
      (assemble identity grants rows uiRows hierarchy now) := by
  refine outcome_bind (outcome_ofRuleRows hrows) fun rowRules hrowRules => ?_
  refine outcome_bind (outcome_ofUiRows huiRows) fun uiRules huiRules => ?_
  exact ⟨⟨hidentity.tenantId, hrowRules, huiRules, hhierarchy⟩, rfl⟩

theorem isOwn_jobs {store : RuleStore Read} (h : store.HasValues p) (identity : UserIdentity)
    (user : String) (groups : List Int) :
    ∀ j ∈ (GroupReads.of store identity user groups).jobs, j.IsOwn := by
  intro j hj
  simp only [GroupReads.of, GroupReads.jobs, List.mem_append, List.mem_cons, List.not_mem_nil,
    or_false, List.mem_map, Option.mem_toList] at hj
  rcases hj with (rfl | rfl | rfl) | ⟨r, hr, rfl⟩
  · exact (h.permissions groups).isOwn _
  · exact (h.visibilityRules groups).isOwn _
  · exact (h.uiRules groups).isOwn _
  · rw [Option.ite_none_right_eq_some] at hr
    cases hr.2
    exact (gives_hierarchyOf h user).isOwn _

/-- Only ministry staff has a hierarchy. -/
theorem outcome_hierarchy {store : RuleStore Read} (h : store.HasValues p)
    (identity : UserIdentity) (user : String) (groups : List Int) :
    OwnOutcome (fun hierarchy : Option Hierarchy => ∀ h, hierarchy = some h →
        h.IsDirect ∧ identity.scope = .ministry)
      ((GroupReads.of store identity user groups).hierarchy.mapM (·.alone "hierarchy")) := by
  rw [GroupReads.of]
  split_ifs with hscope
  · refine outcome_bind ((gives_hierarchyOf h user).alone "hierarchy") fun hierarchy hdirect => ?_
    intro h heq
    cases heq
    exact ⟨hdirect, hscope⟩
  · exact nofun

/-- Rows of the declared types give a context of the right kinds of parts, made of the values in
    the rows, or a fault that has nothing to do with caches. -/
theorem outcome_compile {store : RuleStore Read} (h : store.HasValues p) (workers : Int)
    (now : Double) (user : String) :
    OwnOutcome (fun ctx => ctx.HasValues p ∧ ctx.lastUpdated = now)
      (compile store workers now user) := by
  refine outcome_bind ((h.identity user).alone "result") fun identity hidentity => ?_
  have hnotFound : ¬(Fault.identityNotFound (.text user)).IsDegraded := by
    rintro ⟨_, _, he⟩
    cases he
  cases identity with
  | none => exact hnotFound
  | some identity =>
    dsimp only
    split_ifs
    · exact hnotFound
    · refine outcome_bind ((h.memberships user).alone "result") fun groups _ => ?_
      -- Reading together has a fault or not; the answers are those of the single reads.
      refine outcome_bind (Read.outcome_gather (isOwn_jobs h identity user groups) workers)
        fun _ _ => ?_
      refine outcome_bind (outcome_hierarchy h identity user groups) fun hierarchy hhierarchy => ?_
      refine outcome_bind ((h.permissions groups).alone "permissions") fun grants _ => ?_
      refine outcome_bind ((h.visibilityRules groups).alone "visibility_rules")
        fun rows hrows => ?_
      refine outcome_bind ((h.uiRules groups).alone "ui_rules") fun uiRows huiRows => ?_
      exact outcome_assemble grants now (hidentity identity rfl) hrows huiRows hhierarchy

end SecurityContext

end StaffAccess

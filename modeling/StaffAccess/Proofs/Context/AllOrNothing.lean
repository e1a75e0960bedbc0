import StaffAccess.Proofs.Context.Gathering
import StaffAccess.Proofs.Context.RuleRows
import StaffAccess.Proofs.Store.Schedule

/-!
# All or nothing

A context takes everything: an active user, an answer to every read, and rows that can all be
used. Then it is put together from exactly these answers. In all other cases there is no context
at all, and the fault says why: the user is not there, or a read that got its turn failed, or else
some reads never ended, or else the first unusable row.

* `RuleStore.HasOrderlyRows`: priorities are whole numbers, conditions of rules for elements are
  records, if there are any.
* `SecurityContext.Answers`: what is read for a user, and the context that it makes.
* `SecurityContext.IsIssued`: the reads that are made together, one group after the other.
* `SecurityContext.NoContext`: why there is no context.
* `SecurityContext.compile_allOrNothing`: a context is made from all answers, or it is missing for
  one of these reasons.
-/

namespace StaffAccess

/-! ## Rows -/

/-- Whether the rows that a store returns have whole numbers as priorities, and records as
    conditions of rules for elements, if any. -/
structure RuleStore.HasOrderlyRows (store : RuleStore Read) : Prop where
  priorities : ∀ groups rows, store.findVisibilityRules groups = .returned rows →
    ∀ row ∈ rows, ∃ n, row.priority = .int n
  conditions : ∀ groups rows, store.findUiRules groups = .returned rows →
    ∀ row ∈ rows, row.rule.conditions = .null ∨ ∃ f, row.rule.conditions = .record f

/-- Why a rule for rows cannot be used. -/
inductive VisibilityRow.IsMalformed (row : VisibilityRow) : RuleFault → Prop
  /-- Its kind is not known. -/
  | kind (h : ∀ kind : RuleKind, row.kind ≠ .text kind.word) :
      row.IsMalformed (.unknownKind row.kind row.object)
  /-- Its condition is no record. -/
  | condition (kind : RuleKind) (hkind : row.kind = .text kind.word)
      (h : ∀ f, row.condition ≠ .record f) : row.IsMalformed (.conditionNotRecord row.object)

theorem VisibilityRow.IsMalformed.not_isUsable {row : VisibilityRow} {cause : RuleFault}
    (h : row.IsMalformed cause) : ¬row.IsUsable := by
  intro husable
  cases h with
  | kind h => exact husable.kind.elim h
  | condition _ _ h => exact husable.condition.elim h

namespace SecurityContext

theorem isMalformed_of_ruleOfRow {row : VisibilityRow} {e : Fault}
    (h : ruleOfRow row = .error e) : ∃ cause, row.IsMalformed cause ∧ e = .malformedRule cause := by
  rw [ruleOfRow] at h
  split at h
  · next hunknown =>
    refine ⟨_, .kind fun kind hkind => ?_, (Except.error.inj h).symm⟩
    simp [hkind] at hunknown
  · cases h
  · next kind hknown hcondition =>
    split at hknown
    · next word hword =>
      rw [RuleKind.ofWord?_eq_some_iff] at hknown
      exact ⟨_, .condition kind (hknown ▸ hword) hcondition, (Except.error.inj h).symm⟩
    · cases hknown

theorem ofUiRows_eq_map {rows : List UiRow}
    (h : ∀ row ∈ rows, row.rule.conditions = .null ∨ ∃ f, row.rule.conditions = .record f) :
    ofUiRows rows = .ok (rows.map (·.rule)) := by
  rw [ofUiRows, mapM_eq_ok_iff, List.forall₂_map_right_iff, List.forall₂_same]
  intro row hrow
  obtain ⟨group, pattern, elementType, visible, enabled, conditions⟩ := row
  rcases h _ hrow with hnull | ⟨f, hf⟩
  · dsimp only at hnull ⊢
    rw [hnull]
  · dsimp only at hf ⊢
    rw [hf]
    rfl

/-- Rules for rows with whole numbers as priorities fail at the first row that cannot be used. -/
theorem exists_of_ofRuleRows_eq_error {rows : List VisibilityRow} {e : Fault}
    (hpriority : ∀ row ∈ rows, ∃ n, row.priority = .int n) (h : ofRuleRows rows = .error e) :
    ∃ before row after cause, rows = before ++ row :: after ∧ (∀ r ∈ before, r.IsUsable) ∧
      row.IsMalformed cause ∧ e = .malformedRule cause := by
  have hread : rows.mapM objectRule = .error e := by
    refine (bind_eq_error_iff.1 h).resolve_right ?_
    rintro ⟨rules, hrules, hsort⟩
    -- Rules that could be read have numbers as priorities, so they can be sorted.
    obtain ⟨sorted, hsorted⟩ := exists_sortedEntries_iff.2 fun e he => by
      obtain ⟨row, hrow, hrule⟩ := (mem_of_mapM_eq_ok hrules).1 he
      obtain ⟨-, -, -, hsame⟩ := ruleOfRow_eq_ok_iff.1 (objectRule_eq_ok_iff.1 hrule).1
      obtain ⟨n, hn⟩ := hpriority row hrow
      rw [hsame, hn]
      rfl
    rcases bind_eq_error_iff.1 hsort with hsort | ⟨_, _, hend⟩
    · cases hsorted.symm.trans hsort
    · cases hend
  obtain ⟨before, row, after, rfl, hbefore, hrow⟩ := exists_of_mapM_eq_error hread
  have hrule : ruleOfRow row = .error e := (bind_eq_error_iff.1 hrow).resolve_right nofun
  obtain ⟨cause, hcause, rfl⟩ := isMalformed_of_ruleOfRow hrule
  refine ⟨before, row, after, cause, rfl, fun r hr => ?_, hcause, rfl⟩
  obtain ⟨hkind, hcondition⟩ := exists_objectRule_iff.1 (hbefore r hr)
  obtain ⟨n, hn⟩ := hpriority r (List.mem_append_left _ hr)
  exact ⟨hkind, hcondition, hn ▸ rfl⟩

/-! ## Answers -/

/-- What is read for a user. -/
structure Answers where
  /-- Who the user is. -/
  identity : UserIdentity
  /-- The user's groups. -/
  groups : List Int
  /-- What the groups may do. -/
  grants : List PermissionGrant
  /-- Their rules for rows. -/
  rows : List VisibilityRow
  /-- Their rules for elements. -/
  uiRows : List UiRow
  /-- The place in the hierarchy, if it is read. -/
  hierarchy : Option Hierarchy

/-- Whether a store returns these answers for an active user. The place in the hierarchy is read
    for ministry staff, and for nobody else. -/
structure Answers.AreReturned (a : Answers) (store : RuleStore Read) (user : String) : Prop where
  identity : store.findIdentity user = .returned (some a.identity)
  active : a.identity.active = true
  groups : store.findMemberships user = .returned a.groups
  grants : store.findPermissions a.groups = .returned a.grants
  rows : store.findVisibilityRules a.groups = .returned a.rows
  uiRows : store.findUiRules a.groups = .returned a.uiRows
  hierarchy : a.identity.scope = .ministry ∧
      (∃ place, store.hierarchyOf user = .returned place ∧ a.hierarchy = some place) ∨
    a.identity.scope ≠ .ministry ∧ a.hierarchy = none

/-- Whether a context is put together from some answers, and from nothing else but the time. -/
structure Answers.Make (a : Answers) (now : Double) (ctx : SecurityContext) : Prop where
  userId : ctx.userId = a.identity.userId
  scope : ctx.scope = a.identity.scope
  userType : ctx.userType = a.identity.userType
  tenantId : ctx.tenantId = a.identity.tenantId
  permissions : ctx.permissions = ofGrants a.grants
  rowRules : ofRuleRows a.rows = .ok ctx.rowRules
  uiRules : ctx.uiRules = a.uiRows.map (·.rule)
  hierarchy : ctx.hierarchy = a.hierarchy
  lastUpdated : ctx.lastUpdated = now

/-! ## Reasons -/

/-- The reads that are made together for a user. Each group of them waits for the answers of the
    one before. -/
inductive IsIssued (store : RuleStore Read) (user : String) : List Read.Job → Prop
  /-- First, who the user is. -/
  | identity : IsIssued store user [(store.findIdentity user).job "result"]
  /-- Then, if the user is active, the groups. -/
  | memberships {identity : UserIdentity}
      (hidentity : store.findIdentity user = .returned (some identity))
      (hactive : identity.active = true) :
      IsIssued store user [(store.findMemberships user).job "result"]
  /-- Then everything about these groups, and for ministry staff the place in the hierarchy. -/
  | groupReads {identity : UserIdentity} {groups : List Int}
      (hidentity : store.findIdentity user = .returned (some identity))
      (hactive : identity.active = true)
      (hgroups : store.findMemberships user = .returned groups) :
      IsIssued store user
        ([(store.findPermissions groups).job "permissions",
          (store.findVisibilityRules groups).job "visibility_rules",
          (store.findUiRules groups).job "ui_rules"] ++
        if identity.scope = .ministry then [(store.hierarchyOf user).job "hierarchy"] else [])

/-- Why there is no context of a user. -/
inductive NoContext (store : RuleStore Read) (workers : Int) (user : String) : Fault → Prop
  /-- The user does not exist or is not active. -/
  | notFound {identity? : Option UserIdentity}
      (hidentity : store.findIdentity user = .returned identity?)
      (h : ∀ identity, identity? = some identity → identity.active = false) :
      NoContext store workers user (.identityNotFound (.text user))
  /-- Reads that were made together did not all return. -/
  | reads {jobs : List Read.Job} {e : Fault} (hissued : IsIssued store user jobs)
      (h : Read.Gathers workers jobs (.error e)) : NoContext store workers user e
  /-- Everything was read, but a row cannot be used. The first such row counts. -/
  | malformed {a : Answers} {before after : List VisibilityRow} {row : VisibilityRow}
      {cause : RuleFault} (hreturned : a.AreReturned store user)
      (hrows : a.rows = before ++ row :: after) (hbefore : ∀ r ∈ before, r.IsUsable)
      (hrow : row.IsMalformed cause) : NoContext store workers user (.malformedRule cause)

/-! ## Compiling -/

variable {store : RuleStore Read} {workers : Int} {now : Double} {user : String}

theorem nodup_names_jobs (reads : GroupReads) : (reads.jobs.map Read.Job.name).Nodup := by
  obtain ⟨permissions, visibilityRules, uiRules, hierarchy⟩ := reads
  cases hierarchy <;> simp [GroupReads.jobs, Read.job]

theorem isIssued_groupReads {identity : UserIdentity} {groups : List Int}
    (hidentity : store.findIdentity user = .returned (some identity))
    (hactive : identity.active = true) (hgroups : store.findMemberships user = .returned groups) :
    IsIssued store user (GroupReads.of store identity user groups).jobs := by
  have h := IsIssued.groupReads hidentity hactive hgroups
  rw [GroupReads.of, GroupReads.jobs]
  split_ifs at h ⊢
  · exact h
  · exact h

/-- A job that returned comes from a read that did. -/
theorem exists_returned_of_job {α : Type} {name : String} {r : Read α}
    (h : (r.job name).outcome = .returned ()) : ∃ a, r = .returned a := by
  cases r with
  | returned a => exact ⟨a, rfl⟩
  | failed e => cases h
  | blocked => cases h

theorem Answers.AreReturned.groupReads_eq {a : Answers} (h : a.AreReturned store user) :
    GroupReads.of store a.identity user a.groups =
      .returned a.grants a.rows a.uiRows a.hierarchy := by
  rw [GroupReads.of, GroupReads.returned, h.grants, h.rows, h.uiRows]
  rcases h.hierarchy with ⟨hscope, place, hplace, hhierarchy⟩ | ⟨hscope, hhierarchy⟩
  · rw [if_pos hscope, hplace, hhierarchy, Option.map_some]
  · rw [if_neg hscope, hhierarchy, Option.map_none]

/-- Answers that are all returned are put together. -/
theorem Answers.AreReturned.compile_eq {a : Answers} (h : a.AreReturned store user) :
    compile store workers now user =
      assemble a.identity a.grants a.rows a.uiRows a.hierarchy now := by
  simp only [compile, h.identity, h.active, h.groups, h.groupReads_eq, gather_returned, Read.alone,
    ok_bind]
  cases a.hierarchy <;> rfl

/-- Reads that are made together and all return are all answers there are. -/
theorem exists_areReturned {identity : UserIdentity} {groups : List Int}
    (hidentity : store.findIdentity user = .returned (some identity))
    (hactive : identity.active = true) (hgroups : store.findMemberships user = .returned groups)
    (h : ∀ j ∈ (GroupReads.of store identity user groups).jobs, j.outcome = .returned ()) :
    ∃ a : Answers, a.AreReturned store user := by
  simp only [GroupReads.of, GroupReads.jobs, List.forall_mem_append, List.forall_mem_cons] at h
  obtain ⟨⟨hgrants, hrows, huiRows, -⟩, hhierarchy⟩ := h
  obtain ⟨grants, hgrants⟩ := exists_returned_of_job hgrants
  obtain ⟨rows, hrows⟩ := exists_returned_of_job hrows
  obtain ⟨uiRows, huiRows⟩ := exists_returned_of_job huiRows
  by_cases hscope : identity.scope = .ministry
  · rw [if_pos hscope] at hhierarchy
    obtain ⟨place, hplace⟩ := exists_returned_of_job
      (hhierarchy ((store.hierarchyOf user).job "hierarchy") (List.mem_singleton_self _))
    exact ⟨⟨identity, groups, grants, rows, uiRows, some place⟩, hidentity, hactive, hgroups,
      hgrants, hrows, huiRows, .inl ⟨hscope, place, hplace, rfl⟩⟩
  · exact ⟨⟨identity, groups, grants, rows, uiRows, none⟩, hidentity, hactive, hgroups,
      hgrants, hrows, huiRows, .inr ⟨hscope, rfl⟩⟩

/-- All answers are returned, or there is a reason for there being no context. -/
theorem exists_areReturned_or_noContext (store : RuleStore Read) (workers : Int) (now : Double)
    (user : String) : (∃ a : Answers, a.AreReturned store user) ∨
      ∃ e, compile store workers now user = .error e ∧ NoContext store workers user e := by
  cases hidentity : (store.findIdentity user).alone "result" with
  | error e =>
    refine .inr ⟨e, ?_, .reads .identity (Read.gathers_of_alone hidentity workers)⟩
    rw [compile, hidentity, error_bind]
  | ok identity? =>
    rw [Read.alone_eq_ok_iff] at hidentity
    by_cases hactive : ∃ identity, identity? = some identity ∧ identity.active = true
    · obtain ⟨identity, rfl, hactive⟩ := hactive
      cases hgroups : (store.findMemberships user).alone "result" with
      | error e =>
        refine .inr ⟨e, ?_, .reads (.memberships hidentity hactive)
          (Read.gathers_of_alone hgroups workers)⟩
        simp [compile, hidentity, hactive, hgroups]
      | ok groups =>
        have hgroups' := Read.alone_eq_ok_iff.1 hgroups
        have hgathers := Read.gathers_gather
          (nodup_names_jobs (GroupReads.of store identity user groups)) workers
        cases hgather : Read.gather workers (GroupReads.of store identity user groups).jobs with
        | error e =>
          rw [hgather] at hgathers
          refine .inr ⟨e, ?_, .reads (isIssued_groupReads hidentity hactive hgroups') hgathers⟩
          simp [compile, hidentity, hactive, hgroups, hgather]
        | ok _ =>
          rw [hgather] at hgathers
          cases hgathers with
          | returned h => exact .inl (exists_areReturned hidentity hactive hgroups' h)
    · have hinactive : ∀ identity, identity? = some identity → identity.active = false :=
        fun identity hsome => by simpa using fun hyes => hactive ⟨identity, hsome, hyes⟩
      exact .inr ⟨_, compile_eq_identityNotFound workers now hidentity hinactive,
        .notFound hidentity hinactive⟩

/-! ## All or nothing -/

theorem Answers.assemble_eq_ok_iff_make {a : Answers} {ctx : SecurityContext}
    (hconditions : ∀ row ∈ a.uiRows,
      row.rule.conditions = .null ∨ ∃ f, row.rule.conditions = .record f) :
    assemble a.identity a.grants a.rows a.uiRows a.hierarchy now = .ok ctx ↔ a.Make now ctx := by
  simp only [assemble_eq_ok_iff, ofUiRows_eq_map hconditions]
  constructor
  · rintro ⟨rowRules, hrowRules, uiRules, huiRules, rfl⟩
    cases huiRules
    exact ⟨rfl, rfl, rfl, rfl, rfl, hrowRules, rfl, rfl, rfl⟩
  · obtain ⟨userId, scope, userType, tenantId, permissions, rowRules, uiRules, hierarchy,
      lastUpdated⟩ := ctx
    rintro ⟨rfl, rfl, rfl, rfl, rfl, hrowRules, rfl, rfl, rfl⟩
    exact ⟨rowRules, hrowRules, _, rfl, rfl⟩

/-- With all answers returned, every read that is made has returned. -/
theorem Answers.AreReturned.outcome_eq {a : Answers} (h : a.AreReturned store user)
    {jobs : List Read.Job} (hissued : IsIssued store user jobs) :
    ∀ j ∈ jobs, j.outcome = .returned () := by
  cases hissued with
  | identity => simp [h.identity]
  | memberships => simp [h.groups]
  | groupReads hidentity hactive hgroups =>
    cases hidentity.symm.trans h.identity
    cases hgroups.symm.trans h.groups
    rcases h.hierarchy with ⟨hscope, place, hplace, -⟩ | ⟨hscope, -⟩
    · simp [h.grants, h.rows, h.uiRows, hscope, hplace]
    · simp [h.grants, h.rows, h.uiRows, hscope]

theorem Answers.AreReturned.rows_eq {a b : Answers} (ha : a.AreReturned store user)
    (hb : b.AreReturned store user) : a.rows = b.rows := by
  have hgroups := Read.returned.inj (ha.groups.symm.trans hb.groups)
  have hrows := ha.rows
  rw [hgroups] at hrows
  exact Read.returned.inj (hrows.symm.trans hb.rows)

/-- Where there is a reason, not everything is returned and usable. -/
theorem NoContext.not_areReturned {e : Fault} (hreason : NoContext store workers user e)
    {a : Answers} (h : a.AreReturned store user) : ¬∀ row ∈ a.rows, row.IsUsable := by
  intro husable
  cases hreason with
  | notFound hidentity hinactive =>
    cases hidentity.symm.trans h.identity
    exact absurd (hinactive _ rfl) (by simp [h.active])
  | reads hissued hgathers =>
    obtain ⟨j, hj, hne⟩ := hgathers.exists_ne_returned
    exact hne (h.outcome_eq hissued j hj)
  | malformed hreturned hrows _ hrow =>
    refine hrow.not_isUsable (husable _ ?_)
    rw [h.rows_eq hreturned, hrows]
    exact List.mem_append_right _ List.mem_cons_self

/-- A context is put together from the answers to all reads, of which all rows can be used, and it
    has a place in the hierarchy exactly if it is that of ministry staff. Otherwise there is no
    context, for one of the reasons above, and whenever there is such a reason there is none. -/
theorem compile_allOrNothing {store : RuleStore Read} (horderly : store.HasOrderlyRows)
    (workers : Int) (now : Double) (user : String) :
    (∀ ctx, compile store workers now user = .ok ctx ↔ ∃ a : Answers,
      a.AreReturned store user ∧ (∀ row ∈ a.rows, row.IsUsable) ∧ a.Make now ctx) ∧
    (∀ ctx, compile store workers now user = .ok ctx →
      (ctx.hierarchy.isSome = true ↔ ctx.scope = .ministry)) ∧
    (∀ e, compile store workers now user = .error e → NoContext store workers user e) ∧
    ((∃ e, NoContext store workers user e) → ∃ e, compile store workers now user = .error e) := by
  have hok : ∀ ctx, compile store workers now user = .ok ctx ↔ ∃ a : Answers,
      a.AreReturned store user ∧ (∀ row ∈ a.rows, row.IsUsable) ∧ a.Make now ctx := by
    intro ctx
    constructor
    · intro h
      rcases exists_areReturned_or_noContext store workers now user with ⟨a, ha⟩ | ⟨e, he, -⟩
      · have hmake := (Answers.assemble_eq_ok_iff_make
          (horderly.conditions _ _ ha.uiRows)).1 (ha.compile_eq.symm.trans h)
        exact ⟨a, ha, exists_ofRuleRows_iff.1 ⟨_, hmake.rowRules⟩, hmake⟩
      · cases h.symm.trans he
    · rintro ⟨a, ha, -, hmake⟩
      rw [ha.compile_eq, Answers.assemble_eq_ok_iff_make (horderly.conditions _ _ ha.uiRows)]
      exact hmake
  refine ⟨hok, fun ctx hctx => ?_, fun e he => ?_, fun ⟨e, hreason⟩ => ?_⟩
  · obtain ⟨a, ha, -, hmake⟩ := (hok ctx).1 hctx
    rw [hmake.hierarchy, hmake.scope]
    rcases ha.hierarchy with ⟨hscope, place, -, hplace⟩ | ⟨hscope, hnone⟩
    · simp [hplace, hscope]
    · simp [hnone, hscope]
  · rcases exists_areReturned_or_noContext store workers now user with ⟨a, ha⟩ | ⟨e', he', hreason⟩
    · -- Everything was read, so only the rows can be at fault.
      have hassemble := ha.compile_eq.symm.trans he
      rw [assemble, bind_eq_error_iff] at hassemble
      rcases hassemble with hrules | ⟨rowRules, -, huiRules⟩
      · obtain ⟨before, row, after, cause, hrows, hbefore, hrow, rfl⟩ :=
          exists_of_ofRuleRows_eq_error (horderly.priorities _ _ ha.rows) hrules
        exact .malformed ha hrows hbefore hrow
      · rw [ofUiRows_eq_map (horderly.conditions _ _ ha.uiRows)] at huiRules
        cases huiRules
    · cases he'.symm.trans he
      exact hreason
  · cases hresult : compile store workers now user with
    | error e' => exact ⟨e', rfl⟩
    | ok ctx =>
      obtain ⟨a, ha, husable, -⟩ := (hok ctx).1 hresult
      exact absurd husable (hreason.not_areReturned ha)

/-! ## An office -/

/-- What is read for an agent of the ministry with a manager and two subordinates, whose group has
    a grant and a rule. -/
def officeAnswers : Answers where
  identity := ⟨"m1", .ministry, "AGENT", .null, true⟩
  groups := [1]
  grants := [⟨1, "doc", ⟨true, false, false, false, false⟩⟩]
  rows := [⟨1, "doc", .text "HIERARCHY", .record [], .int 5⟩]
  uiRows := []
  hierarchy := some ⟨.text "m0", [⟨.text "m2", .text "Ines", 1⟩, ⟨.text "m3", .text "Omar", 1⟩]⟩

/-- The store of the agent's office, with the grants as they are read. -/
def office (permissions : Read (List PermissionGrant)) : RuleStore Read where
  findIdentity _ := .returned (some officeAnswers.identity)
  findMemberships _ := .returned officeAnswers.groups
  findPermissions _ := permissions
  findVisibilityRules _ := .returned officeAnswers.rows
  findUiRules _ := .returned officeAnswers.uiRows
  findManager _ := .returned (some "m0")
  findSubordinates _ := .returned [⟨"m2", "Ines"⟩, ⟨"m3", "Omar"⟩]

theorem office_hasOrderlyRows (permissions : Read (List PermissionGrant)) :
    (office permissions).HasOrderlyRows where
  priorities _ _ h row hrow := by
    cases h
    rw [officeAnswers, List.mem_singleton] at hrow
    exact ⟨5, hrow ▸ rfl⟩
  conditions _ _ h row hrow := by
    cases h
    cases hrow

theorem officeAnswers_areReturned :
    officeAnswers.AreReturned (office (.returned officeAnswers.grants)) "m1" where
  identity := rfl
  active := rfl
  groups := rfl
  grants := rfl
  rows := rfl
  uiRows := rfl
  hierarchy := .inl ⟨rfl, _, rfl, rfl⟩

theorem officeAnswers_isUsable : ∀ row ∈ officeAnswers.rows, row.IsUsable := by
  intro row hrow
  rw [officeAnswers, List.mem_singleton] at hrow
  rw [hrow]
  exact ⟨⟨.hierarchy, rfl⟩, ⟨[], rfl⟩, rfl⟩

/-- With all answers, the agent's context has the manager and the subordinates. With one worker, a
    read that blocks keeps all reads behind it from their turn. -/
theorem office_compiledOrTimedOut :
    (∃ ctx, compile (office (.returned officeAnswers.grants)) 4 (.finite false 0) "m1" = .ok ctx ∧
      ctx.permissions.get? "doc" = some ⟨true, false, false, false, false⟩ ∧
      ctx.hierarchy = some
        ⟨.text "m0", [⟨.text "m2", .text "Ines", 1⟩, ⟨.text "m3", .text "Omar", 1⟩]⟩) ∧
    NoContext (office .blocked) 1 "m1" (.storeUnavailable (.timedOut
      ["hierarchy", "permissions", "ui_rules", "visibility_rules"])) := by
  constructor
  · obtain ⟨rowRules, hrowRules⟩ := exists_ofRuleRows_iff.2 officeAnswers_isUsable
    have hmake : officeAnswers.Make (.finite false 0)
        { userId := "m1", scope := .ministry, userType := "AGENT", tenantId := .null,
          permissions := ofGrants officeAnswers.grants, rowRules, uiRules := [],
          hierarchy := officeAnswers.hierarchy,
          lastUpdated := .finite false 0 } :=
      ⟨rfl, rfl, rfl, rfl, rfl, hrowRules, rfl, rfl, rfl⟩
    have hcompiled := compile_allOrNothing
      (office_hasOrderlyRows (.returned officeAnswers.grants)) 4 (.finite false 0) "m1"
    exact ⟨_, (hcompiled.1 _).2 ⟨_, officeAnswers_areReturned, officeAnswers_isUsable, hmake⟩,
      rfl, rfl⟩
  · have hcompile : compile (office .blocked) 1 (.finite false 0) "m1" =
        .error (.storeUnavailable (.timedOut
          ["hierarchy", "permissions", "ui_rules", "visibility_rules"])) := by
      have hsorted : (["permissions", "visibility_rules", "ui_rules", "hierarchy"].mergeSort
          fun a b => decide (a ≤ b)) =
            ["hierarchy", "permissions", "ui_rules", "visibility_rules"] := by
        simp [List.mergeSort, List.MergeSort.Internal.splitInTwo]
      rw [← hsorted]
      rfl
    exact (compile_allOrNothing (office_hasOrderlyRows .blocked) 1 _ "m1").2.2.1 _ hcompile

end SecurityContext

end StaffAccess

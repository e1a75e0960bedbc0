import StaffAccess.Proofs.Permission.Stages
import StaffAccess.Proofs.Ui.TwoRuns
import StaffAccess.RowFilter

/-!
# More grants take nothing away

Permissions are read in many places: by the entry of the object, by the management of all users,
by the conditions of rules for elements and by the defaults of their types. Nowhere does a grant
count against its holder. A context that differs from another one only in having more grants
allows every check that the other one allows, shows every element and every entry of a page that
the other one shows, with the same further flags, and names all the objects that the other one
names; the rows that are seen are the same, as permissions play no part in them.

* `SecurityContext.GrantsMore`: the contexts that are compared.
* `Flags.Opens`: flags that differ at most in that more is visible.
* `GrantsMore.compares`: the evaluations of rules for elements.
* `moreGrants_keepAccess`: the checks, the elements, the pages, the objects and the rows.
-/

namespace StaffAccess

/-- Whether a context grants on every object what another one grants there, and is the same
    otherwise. -/
structure SecurityContext.GrantsMore (ctx ctx' : SecurityContext) : Prop where
  rest : ctx' = { ctx with permissions := ctx'.permissions }
  more : ∀ object granted, ctx.permissions.get? object = some granted →
    ∃ granted', ctx'.permissions.get? object = some granted' ∧ granted.le granted'

/-- Whether flags differ from others at most in that more is visible. -/
structure Flags.Opens (f f' : Flags) : Prop where
  visible : f.visible = true → f'.visible = true
  enabled : f'.enabled = f.enabled
  readonly : f'.readonly = f.readonly

theorem Flags.Opens.refl (f : Flags) : f.Opens f := ⟨id, rfl, rfl⟩

/-- Fully shown is as open as flags can be. -/
theorem Flags.Opens.eq_shown_true {f f' : Flags} (h : f.Opens f') (hf : f = .shown true) :
    f' = .shown true := by
  obtain ⟨hvisible, henabled, hreadonly⟩ := h
  obtain ⟨visible, enabled, readonly⟩ := f'
  subst hf
  rw [shown, mk.injEq]
  exact ⟨hvisible rfl, henabled, hreadonly⟩

theorem Flags.opens_shown {b b' : Bool} (h : b = true → b' = true) :
    (Flags.shown b).Opens (Flags.shown b') := ⟨h, rfl, rfl⟩

theorem Flags.Opens.isKept : IsKept Opens where
  own _ _ := .refl _
  both := by
    rintro a a' b b' ⟨hv, he, hr⟩ ⟨hv', he', hr'⟩
    refine ⟨fun h => ?_, by simp [Flags.both, he, he'], by simp [Flags.both, hr, hr']⟩
    simp only [Flags.both, Bool.and_eq_true] at h ⊢
    exact ⟨hv h.1, hv' h.2⟩
  either := by
    rintro a a' b b' ⟨hv, he, hr⟩ ⟨hv', he', hr'⟩
    refine ⟨fun h => ?_, by simp [Flags.either, he, he'], by simp [Flags.either, hr, hr']⟩
    simp only [Flags.either, Bool.or_eq_true] at h ⊢
    exact h.imp hv hv'

theorem Permission.Decision.denyIf_eq_allowed_iff {condition : Bool} {reason : Denial} :
    denyIf condition reason = allowed ↔ condition = false := by
  cases condition <;> simp [denyIf]

/-- Demands of the same words that are more easily satisfied admit more names. -/
theorem NameDemand.all_admits {demands demands' : List NameDemand} {name : String}
    (h : List.Forall₂ (fun d d' => d'.words = d.words ∧ (d.satisfied = true → d'.satisfied = true))
      demands demands') (hadmits : demands.all (·.admits name) = true) :
    demands'.all (·.admits name) = true := by
  induction h with
  | nil => exact hadmits
  | cons hd _ ih =>
    simp only [List.all_cons, Bool.and_eq_true, admits, Bool.or_eq_true, hd.1] at hadmits ih ⊢
    exact ⟨hadmits.1.imp_right hd.2, ih hadmits.2⟩

namespace SecurityContext.GrantsMore

variable {ctx ctx' : SecurityContext} {policy : Policy}

/-- The second context is the first one with other permissions. -/
theorem exists_eq (h : ctx.GrantsMore ctx') :
    ∃ permissions, ctx' = { ctx with permissions := permissions } := ⟨_, h.rest⟩

/-! ## Where permissions are read -/

theorem permissionsOn (h : ctx.GrantsMore ctx') (object : String) :
    (ctx.permissionsOn object).le (ctx'.permissionsOn object) := by
  intro a
  rw [SecurityContext.permissionsOn, SecurityContext.permissionsOn]
  cases hget : ctx.permissions.get? object with
  | none => simp
  | some granted =>
    obtain ⟨granted', hget', hle⟩ := h.more object granted hget
    rw [hget']
    exact hle a

theorem grants (h : ctx.GrantsMore ctx') {object : String} {required : List (Action × Bool)}
    (hgrants : ctx.grants object required = true) : ctx'.grants object required = true := by
  unfold SecurityContext.grants at hgrants ⊢
  cases hget : ctx.permissions.get? object with
  | none => simp [hget] at hgrants
  | some granted =>
    obtain ⟨granted', hget', hle⟩ := h.more object granted hget
    simp only [hget, hget', List.all_eq_true, Bool.or_eq_true] at hgrants ⊢
    exact fun required hmem => (hgrants required hmem).imp_right (hle _)

theorem grantsAny (h : ctx.GrantsMore ctx') {actions : List Action}
    (hgrants : ctx.grantsAny actions = true) : ctx'.grantsAny actions = true := by
  simp only [SecurityContext.grantsAny, List.any_eq_true] at hgrants ⊢
  obtain ⟨⟨object, granted⟩, hmem, a, ha, hgranted⟩ := hgrants
  obtain ⟨granted', hget', hle⟩ := h.more object granted (OrderedMap.mem_entries_iff.1 hmem)
  exact ⟨(object, granted'), OrderedMap.mem_entries_iff.2 hget', a, ha, hle a hgranted⟩

/-! ## Elements -/

/-- The conditions on permissions are the only ones that see the difference. -/
theorem admits (h : ctx.GrantsMore ctx') (c : UiConditions) (hadmits : c.admits ctx = true) :
    c.admits ctx' = true := by
  have hpermissions : c.permissions.all (·.all fun e => ctx.grants e.1 e.2) = true →
      c.permissions.all (·.all fun e => ctx'.grants e.1 e.2) = true := by
    cases c.permissions with
    | none => exact id
    | some required =>
      simp only [Option.all_some, List.all_eq_true]
      exact fun hall e he => h.grants (hall e he)
  obtain ⟨permissions, hctx⟩ := h.exists_eq
  simp only [UiConditions.admits, Bool.and_eq_true] at hadmits ⊢
  obtain ⟨⟨⟨htypes, hscopes⟩, hgrants⟩, hsubordinates⟩ := hadmits
  refine ⟨⟨⟨?_, ?_⟩, hpermissions hgrants⟩, ?_⟩
  · rw [hctx]
    exact htypes
  · rw [hctx]
    exact hscopes
  · rw [hctx]
    exact hsubordinates

/-- What a name demands of the user is demanded of both, and satisfied by the second one if by
    the first. -/
theorem demands (h : ctx.GrantsMore ctx') (policy : Policy) (t : ElementType) :
    List.Forall₂ (fun d d' => d'.words = d.words ∧ (d.satisfied = true → d'.satisfied = true))
      (t.demands ctx policy) (t.demands ctx' policy) := by
  obtain ⟨permissions, hctx⟩ := h.exists_eq
  have htype : ctx'.userType = ctx.userType := by rw [hctx]
  have hscope : ctx'.scope = ctx.scope := by rw [hctx]
  -- Only buttons and pages look at permissions.
  cases t with
  | button =>
    exact .cons ⟨rfl, h.grantsAny⟩ (.cons ⟨rfl, h.grantsAny⟩ (.cons ⟨rfl, h.grantsAny⟩ .nil))
  | page => exact .cons ⟨rfl, h.permissionsOn _ .read⟩ (.cons ⟨rfl, by simp [hscope]⟩ .nil)
  | field | menu | panel => simp [ElementType.demands, htype, hscope]

theorem admits_type (h : ctx.GrantsMore ctx') (policy : Policy) (t : ElementType) (name : String)
    (hadmits : t.admits name ctx policy = true) : t.admits name ctx' policy = true :=
  NameDemand.all_admits (h.demands policy t) hadmits

theorem defaults (h : ctx.GrantsMore ctx') (policy : Policy) (r : UiRule) :
    (r.defaults ctx policy).Opens (r.defaults ctx' policy) := by
  unfold UiRule.defaults
  cases ElementType.ofWord? r.elementType with
  | none => exact .refl _
  | some t => exact Flags.opens_shown (h.admits_type policy t r.pattern)

theorem record_flags (h : ctx.GrantsMore ctx') (c : RecordCondition) (record : Value) :
    c.flags ctx' record = c.flags ctx record := by
  obtain ⟨permissions, rfl⟩ := h.exists_eq
  rfl

/-- Whatever is evaluated, the second context opens what the first one makes of it. -/
theorem compares (h : ctx.GrantsMore ctx') (policy : Policy) (record : Value) :
    Evaluation.Compares Flags.Opens ⟨ctx, policy, record⟩ ⟨ctx', policy, record⟩ where
  rules := by rw [h.rest]
  admits c := Flags.opens_shown (h.admits c)
  record c f hf := ⟨f, (h.record_flags c record).trans hf, .refl f⟩
  defaults r := h.defaults policy r

/-- The second context faults only where the first one does. -/
theorem compares_flip (h : ctx.GrantsMore ctx') (policy : Policy) (record : Value) :
    Evaluation.Compares (flip Flags.Opens) ⟨ctx', policy, record⟩ ⟨ctx, policy, record⟩ where
  rules := (h.compares policy record).rules.symm
  admits := (h.compares policy record).admits
  record c f hf := ⟨f, (h.record_flags c record).symm.trans hf, .refl f⟩
  defaults := (h.compares policy record).defaults

theorem opens_evaluate (h : ctx.GrantsMore ctx') (policy : Policy) (element record : Value) :
    (ElementVisibility.evaluate policy (.ok ctx) element record).flags.Opens
      (ElementVisibility.evaluate policy (.ok ctx') element record).flags := by
  have hforth := (h.compares policy record).element Flags.Opens.isKept element
  have hback := (h.compares_flip policy record).element Flags.Opens.isKept.flip element
  simp only [ElementVisibility.evaluate, ok_bind]
  cases hv : ElementVisibility.ofContext ctx policy element record with
  | ok v =>
    obtain ⟨v', hv', hopens⟩ := hforth v hv
    rw [hv']
    exact hopens
  | error fault =>
    -- The second one then faults as well, and both are locked.
    cases hv' : ElementVisibility.ofContext ctx' policy element record with
    | error fault' => exact .refl _
    | ok v' =>
      obtain ⟨v, hok, -⟩ := hback v' hv'
      cases hv.symm.trans hok

/-! ## Checks, objects and rows -/

theorem judgeUserManagement (h : ctx.GrantsMore ctx') {a : Action} {request : Value}
    (hallowed : Permission.judgeUserManagement policy ctx a request = .ok .allowed) :
    Permission.judgeUserManagement policy ctx' a request = .ok .allowed := by
  have hmanages : Permission.managesAllUsers policy ctx = true →
      Permission.managesAllUsers policy ctx' = true := h.permissionsOn _ .read
  have hids : ctx'.subordinateIds = ctx.subordinateIds := by rw [h.rest]; rfl
  have huser : ctx'.userId = ctx.userId := by rw [h.rest]
  have hscope : ctx'.scope = ctx.scope := by rw [h.rest]
  unfold Permission.judgeUserManagement at hallowed ⊢
  obtain ⟨target, htarget, hallowed⟩ := bind_eq_ok_iff.1 hallowed
  rw [htarget, ok_bind, huser, hscope, hids]
  split_ifs at hallowed ⊢ with hnull hself hconfined
  · rfl
  · cases hallowed
  · -- Who manages all users still does so with more grants.
    simp only [pure_eq_ok, Except.ok.injEq, Permission.Decision.denyIf_eq_allowed_iff,
      Bool.and_eq_false_iff, Bool.not_eq_false'] at hallowed ⊢
    exact hallowed.imp_right hmanages
  · rfl

theorem passesRequest (h : ctx.GrantsMore ctx') {object : Value} {a : Action} {request : Value}
    (hpasses : Permission.PassesRequest policy ctx object a request) :
    Permission.PassesRequest policy ctx' object a request := by
  intro htruthy
  obtain ⟨htenant, hobject⟩ := hpasses htruthy
  have hscope : ctx'.scope = ctx.scope := by rw [h.rest]
  refine ⟨?_, ?_⟩
  · obtain ⟨permissions, rfl⟩ := h.exists_eq
    exact htenant
  · -- Of the judgements on objects, only the one on users reads permissions.
    unfold Permission.judgeObject at hobject ⊢
    split_ifs at hobject ⊢
    · obtain ⟨permissions, rfl⟩ := h.exists_eq
      exact hobject
    · exact h.judgeUserManagement hobject
    · rfl

theorem isAllowed_check (h : ctx.GrantsMore ctx') {object action request : Value}
    (hallowed : (Permission.check policy (.ok ctx) object action request).isAllowed = true) :
    (Permission.check policy (.ok ctx') object action request).isAllowed = true := by
  rw [Permission.isAllowed_check_iff] at hallowed ⊢
  obtain ⟨_, a, name, granted, ⟨⟩, haction, hobject, hget, hgranted, hrequest⟩ := hallowed
  obtain ⟨granted', hget', hle⟩ := h.more name granted hget
  exact ⟨ctx', a, name, granted', rfl, haction, hobject, hget', hle a hgranted,
    h.passesRequest hrequest⟩

theorem accessible_subset (h : ctx.GrantsMore ctx') :
    Permission.accessible (.ok ctx) ⊆ Permission.accessible (.ok ctx') := by
  intro name hname
  simp only [Permission.accessible, List.mem_mergeSort, List.mem_map, List.mem_filter,
    PermissionMatrix.any_eq_true_iff] at hname ⊢
  obtain ⟨⟨_, granted⟩, ⟨hmem, a, hgranted⟩, rfl⟩ := hname
  obtain ⟨granted', hget', hle⟩ := h.more _ granted (OrderedMap.mem_entries_iff.1 hmem)
  exact ⟨(_, granted'), ⟨OrderedMap.mem_entries_iff.2 hget', a, hle a hgranted⟩, rfl⟩

/-- No rule for rows reads permissions. -/
theorem compile_eq (h : ctx.GrantsMore ctx') (policy : Policy) (object : Value) :
    RowFilter.compile policy (.ok ctx') object = RowFilter.compile policy (.ok ctx) object := by
  obtain ⟨permissions, rfl⟩ := h.exists_eq
  rfl

end SecurityContext.GrantsMore

/-- Nothing that a context gives access to is lost with more grants. -/
theorem moreGrants_keepAccess {ctx ctx' : SecurityContext} (h : ctx.GrantsMore ctx')
    (policy : Policy) :
    (∀ object action request,
      (Permission.check policy (.ok ctx) object action request).isAllowed = true →
        (Permission.check policy (.ok ctx') object action request).isAllowed = true) ∧
    (∀ element record,
      (ElementVisibility.evaluate policy (.ok ctx) element record).flags.Opens
        (ElementVisibility.evaluate policy (.ok ctx') element record).flags) ∧
    (∀ page record,
      (UiConfig.generate policy (.ok ctx) page record).Forall₂ (UiElement.Rel Flags.Opens)
        (UiConfig.generate policy (.ok ctx') page record)) ∧
    Permission.accessible (.ok ctx) ⊆ Permission.accessible (.ok ctx') ∧
    ∀ object, RowFilter.compile policy (.ok ctx') object =
      RowFilter.compile policy (.ok ctx) object := by
  refine ⟨fun object action request => h.isAllowed_check, h.opens_evaluate policy,
    fun page record => ?_, h.accessible_subset, h.compile_eq policy⟩
  exact (h.compares policy record).config Flags.Opens.isKept (.refl _)
    (h.compares_flip policy record) page

/-- The manager with two buttons, who sees the rows of the own subordinates. -/
def SecurityContext.supervisor : SecurityContext where
  __ := SecurityContext.manager
  rowRules := .ofEntries [("user.management", [⟨.hierarchy, .record [], .int 0⟩])]
  uiRules := [⟨"btn-save", "BUTTON", .bool true, .bool true, .null⟩,
    ⟨"btn-approve", "BUTTON", .bool true, .bool true, .null⟩]

/-- The supervisor with the grants to manage all users and to see reports. -/
def SecurityContext.chief : SecurityContext where
  __ := SecurityContext.supervisor
  permissions := .ofEntries [("reports", .ofActions fun a => a = .read),
    ("user.management", .ofActions fun a => a ≠ .delete)]

theorem supervisor_grantsMore_chief : SecurityContext.supervisor.GrantsMore .chief where
  rest := rfl
  more := by
    intro object granted hget
    obtain ⟨rfl, rfl⟩ : object = "user.management" ∧ granted = .ofActions fun a => a = .write := by
      simpa [SecurityContext.supervisor, SecurityContext.manager, OrderedMap.ofEntries,
        OrderedMap.put, OrderedMap.contains, OrderedMap.empty] using
        OrderedMap.mem_entries_iff.2 hget
    exact ⟨_, rfl, fun a => by cases a <;> decide⟩

/-- What the supervisor may do to a subordinate, the chief may do. The button to save is shown to
    both, on its own and on a page, and users are among the objects of both, who see the same part
    of their rows. The button to approve is shown to the chief only, who may approve something. -/
theorem chief_keepsAccess :
    ((Permission.check {} (.ok .supervisor) (.text "user.management") (.text "write")
        (.record [("target_user_id", .text "bob")])).isAllowed = true ∧
      (Permission.check {} (.ok .chief) (.text "user.management") (.text "write")
        (.record [("target_user_id", .text "bob")])).isAllowed = true) ∧
    ((ElementVisibility.evaluate {} (.ok .supervisor) (.text "btn-save") .null).flags =
        .shown true ∧
      (ElementVisibility.evaluate {} (.ok .chief) (.text "btn-save") .null).flags = .shown true) ∧
    ((ElementVisibility.evaluate {} (.ok .supervisor) (.text "btn-approve") .null).flags =
        .shown false ∧
      (ElementVisibility.evaluate {} (.ok .chief) (.text "btn-approve") .null).flags =
        .shown true) ∧
    (∃ entry entry',
      (UiConfig.generate {} (.ok .supervisor) .null .null).get? "btn-save" = some entry ∧
      (UiConfig.generate {} (.ok .chief) .null .null).get? "btn-save" = some entry' ∧
      entry.flags = .shown true ∧ entry'.flags = .shown true) ∧
    ("user.management" ∈ Permission.accessible (.ok .supervisor) ∧
      "user.management" ∈ Permission.accessible (.ok .chief)) ∧
    (RowFilter.compile {} (.ok .supervisor) (.text "user.management")).level = .part ∧
    RowFilter.compile {} (.ok .chief) (.text "user.management") =
      RowFilter.compile {} (.ok .supervisor) (.text "user.management") := by
  obtain ⟨hchecks, helements, hpages, hobjects, hrows⟩ :=
    moreGrants_keepAccess supervisor_grantsMore_chief {}
  refine ⟨?check, ?save, ?approve, ?page, ?objects, ?rows⟩
  case check =>
    have hallowed : (Permission.check {} (.ok .supervisor) (.text "user.management")
        (.text "write") (.record [("target_user_id", .text "bob")])).isAllowed = true := by decide
    exact ⟨hallowed, hchecks _ _ _ hallowed⟩
  case save =>
    have hshown : (ElementVisibility.evaluate {} (.ok .supervisor) (.text "btn-save") .null).flags =
        .shown true := by decide +kernel
    exact ⟨hshown, (helements _ _).eq_shown_true hshown⟩
  case approve => exact ⟨by decide +kernel, by decide +kernel⟩
  case page =>
    have hshown : ((UiConfig.generate {} (.ok .supervisor) .null .null).get? "btn-save").map
        UiElement.flags = some (.shown true) := by decide +kernel
    obtain ⟨entry, hentry, hflags⟩ := Option.map_eq_some_iff.1 hshown
    have hrel := (hpages .null .null).get?_rel "btn-save"
    rw [hentry] at hrel
    cases hentry' : (UiConfig.generate {} (.ok .chief) .null .null).get? "btn-save" with
    | none =>
      rw [hentry'] at hrel
      cases hrel
    | some entry' =>
      rw [hentry', Option.rel_some_some] at hrel
      exact ⟨entry, entry', hentry, rfl, hflags, hrel.flags.eq_shown_true hflags⟩
  case objects =>
    have hmem : "user.management" ∈ Permission.accessible (.ok .supervisor) := by decide +kernel
    exact ⟨hmem, hobjects hmem⟩
  case rows => exact ⟨by decide +kernel, hrows _⟩

end StaffAccess

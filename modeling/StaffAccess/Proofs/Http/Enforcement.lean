import StaffAccess.Http.Enforcement
import StaffAccess.Proofs.Http.Declarations
import StaffAccess.Proofs.Permission.Requests

/-!
# What guards enforce

A request for a route with a guard is let through exactly if it names a caller whose context loads
and who has every permission that is declared. It then carries the caller and a filter for each
object whose rows are to be filtered. Otherwise it is refused, and the first thing that is amiss
says how: the header, the context, or the first permission that is denied.

The source of contexts may have a state, so it may answer differently each time that it is asked:
a context that loads at first may fail to load for a permission or for a filter. Every read is
counted, the first one being for the caller.

* `Authorization.reading`: what the reads of one user give, one after the other.
* `RouteGuard.IsEnforced`: what becomes of a request.
* `RouteGuard.enforce_isEnforced`: it becomes of every request.
-/

namespace StaffAccess

open Permission (Decision Denial)
open Http (Response)

/-! ## Callers -/

/-- Whether a header names a user: it is what is left without the blanks at the ends, if anything
    is. -/
def Names (header : Option String) (user : String) : Prop :=
  ∃ raw, header = some raw ∧ Text.strip raw = user ∧ user ≠ ""

theorem callerOf_eq_some_iff {header : Option String} {user : String} :
    callerOf header = some user ↔ Names header user := by
  simp only [callerOf, Option.filter_eq_some_iff, Option.map_eq_some_iff, Names,
    ← exists_and_right, and_assoc, decide_eq_true_eq]

/-! ## Reads -/

section Reads

variable {σ : Type}

/-- The second step goes on with the result of the first one, in the state in which it ends. -/
theorem bind_apply_of_eq {α β : Type} {x : StateM σ α} {f : α → StateM σ β} {s s' : σ} {a : α}
    (h : x s = (a, s')) : (x >>= f) s = f a s' := by
  show f (x s).1 (x s).2 = f a s'
  rw [h]

/-- What the reads of one user give, one after the other. -/
def Authorization.reading (auth : Authorization (StateM σ)) (user : Value) :
    σ → Nat → Except Fault SecurityContext
  | s, 0 => (auth.contexts user s).1
  | s, n + 1 => auth.reading user (auth.contexts user s).2 n

/-- The decision on a permission that is made with one of the reads. -/
def Authorization.decisionAt (auth : Authorization (StateM σ)) (user : String) (s : σ) (n : Nat)
    (pair : Value × Action) : Decision :=
  Permission.check auth.policy (auth.reading (.text user) s n) pair.1 (.text pair.2.word) .null

end Reads

/-! ## Denials -/

namespace Permission

theorem head?_append {s : String} {c : Char} (h : s.toList.head? = some c) (t : String) :
    (s ++ t).toList.head? = some c := by
  rw [String.toList_append, List.head?_append, h]
  rfl

/-- The words for an unavailable decision start with a letter of their own. -/
theorem Denial.exists_head?_message {denial : Denial} (h : denial ≠ .unavailable) :
    ∃ c, denial.message.toList.head? = some c ∧ c ≠ 'S' := by
  cases denial with
  | unavailable => exact absurd rfl h
  | noEntry object =>
    exact ⟨'n', head?_append (s := "no permission entry for object ") rfl _, by decide⟩
  | notGranted action object =>
    have hstart : "permission ".toList.head? = some 'p' := rfl
    exact ⟨'p', head?_append (head?_append (head?_append hstart _) _) _, by decide⟩
  | _ => exact ⟨_, rfl, by decide⟩

/-- The words for a denial are those for an unavailable decision only if it is one. -/
theorem Denial.message_eq_unavailable_iff {denial : Denial} :
    denial.message = unavailableMessage ↔ denial = .unavailable := by
  refine ⟨fun h => ?_, fun h => h ▸ rfl⟩
  by_contra hne
  obtain ⟨c, hc, hS⟩ := Denial.exists_head?_message hne
  rw [h] at hc
  exact hS (Option.some.inj hc).symm

theorem Denial.not_isAllowed {decision : Decision} {denial : Denial}
    (h : decision = .denied denial) : ¬decision.isAllowed = true := by
  rw [h]
  exact Bool.false_ne_true

end Permission

namespace RouteGuard

variable {σ : Type} {auth : Authorization (StateM σ)} {user : String} {s : σ}
  {declarations : List Declaration} {header : Option String}

/-! ## Permissions -/

/-- Any other fault of security evaluation leaves the decision open. -/
theorem refusalOf_eq_unavailable {e : Fault} (hevaluation : e.isEvaluation = true)
    (hother : ∀ unknown, e ≠ .identityNotFound unknown) : refusalOf e = .unavailable := by
  rw [refusalOf, if_pos hevaluation]
  exact hother

/-- The response to a permission that is denied for some reason. -/
def deniedResponse (reason : String) : Response :=
  .refusal (if reason = Permission.unavailableMessage then 503 else 403) reason

theorem refusalOfDecision_denied (denial : Denial) :
    ∃ refusal, refusalOfDecision (.denied denial) = some refusal ∧
      refusal.response = deniedResponse denial.message := by
  by_cases h : denial = .unavailable
  · subst h
    refine ⟨.unavailable, rfl, ?_⟩
    rw [deniedResponse, if_pos (Denial.message_eq_unavailable_iff.2 rfl)]
    rfl
  · refine ⟨.denied denial, ?_, ?_⟩
    · cases denial with
      | unavailable => exact absurd rfl h
      | _ => rfl
    · rw [deniedResponse, if_neg (mt Denial.message_eq_unavailable_iff.1 h)]
      rfl

/-- The first permission is decided with the first read. -/
theorem firstRefusal_cons (pair : Value × Action) (rest : List (Value × Action)) :
    firstRefusal auth user (pair :: rest) s =
      match refusalOfDecision (auth.decisionAt user s 0 pair) with
      | some refusal => (some refusal, (auth.contexts (.text user) s).2)
      | none => firstRefusal auth user rest (auth.contexts (.text user) s).2 := by
  show (match refusalOfDecision (auth.decisionAt user s 0 pair) with
    | some refusal => (return some refusal : StateM σ (Option Refusal))
    | none => firstRefusal auth user rest) (auth.contexts (.text user) s).2 = _
  cases refusalOfDecision (auth.decisionAt user s 0 pair) with
  | some refusal => rfl
  | none => rfl

variable (auth user) in
/-- Either all permissions are allowed, with one read for each, or there is a first one that is
    denied. -/
theorem firstRefusal_cases (required : List (Value × Action)) (s : σ) :
    ((∀ i pair, required[i]? = some pair → (auth.decisionAt user s i pair).isAllowed = true) ∧
      ∃ s', firstRefusal auth user required s = (none, s') ∧
        ∀ n, auth.reading (.text user) s' n = auth.reading (.text user) s (required.length + n)) ∨
    ∃ i pair denial, required[i]? = some pair ∧ auth.decisionAt user s i pair = .denied denial ∧
      (∀ j < i, ∀ earlier, required[j]? = some earlier →
        (auth.decisionAt user s j earlier).isAllowed = true) ∧
      (firstRefusal auth user required s).1 = refusalOfDecision (.denied denial) := by
  induction required generalizing s with
  | nil => exact .inl ⟨nofun, s, rfl, fun n => by rw [List.length_nil, Nat.zero_add]⟩
  | cons pair rest ih =>
    rw [firstRefusal_cons]
    cases hdecision : auth.decisionAt user s 0 pair with
    | denied denial =>
      refine .inr ⟨0, pair, denial, rfl, hdecision, fun j hj => absurd hj (Nat.not_lt_zero j), ?_⟩
      obtain ⟨refusal, hrefusal, -⟩ := refusalOfDecision_denied denial
      rw [hrefusal]
    | allowed =>
      have hfirst : (auth.decisionAt user s 0 pair).isAllowed = true := by rw [hdecision]; rfl
      rcases ih (auth.contexts (.text user) s).2 with
        ⟨hall, s', hrun, hreads⟩ | ⟨i, later, denial, hlater, hdenied, hearlier, hrun⟩
      · refine .inl ⟨fun i p hp => ?_, s', hrun, fun n => ?_⟩
        · cases i with
          | zero => cases hp; exact hfirst
          | succ i => exact hall i p hp
        · rw [hreads n, List.length_cons, Nat.add_right_comm]
          rfl
      · refine .inr ⟨i + 1, later, denial, hlater, hdenied, fun j hj earlier he => ?_, hrun⟩
        cases j with
        | zero => cases he; exact hfirst
        | succ j => exact hearlier j (Nat.lt_of_succ_lt_succ hj) earlier he

/-! ## Filters -/

variable (auth user) in
/-- The filters are compiled one after the other, with one read for each. -/
theorem mapM_compileFilter (entries : List (Value × Action)) (s : σ) :
    ∃ compiled s', (entries.mapM fun e => do
        return (e.1, ← auth.compileFilter (.text user) e.1) : StateM σ (List (Value × RowFilter)))
          s = (compiled, s') ∧
      compiled.map Prod.fst = entries.map Prod.fst ∧
      ∀ i e, compiled[i]? = some e →
        e.2 = RowFilter.compile auth.policy (auth.reading (.text user) s i) e.1 := by
  induction entries generalizing s with
  | nil => exact ⟨[], s, rfl, rfl, nofun⟩
  | cons entry rest ih =>
    obtain ⟨compiled, s', hrun, hnames, hcompiled⟩ := ih (auth.contexts (.text user) s).2
    refine ⟨(entry.1, RowFilter.compile auth.policy (auth.reading (.text user) s 0) entry.1) ::
      compiled, s', ?_, ?_, fun i e he => ?_⟩
    · rw [List.mapM_cons]
      exact congrArg (fun r => ((entry.1, RowFilter.compile auth.policy
        (auth.reading (.text user) s 0) entry.1) :: r.1, r.2)) hrun
    · rw [List.map_cons, List.map_cons, hnames]
    · cases i with
      | zero => cases he; rfl
      | succ i => exact hcompiled i e he

/-! ## Requests -/

/-- What a request carries that is let through: its caller, and a filter for each of the objects
    that are declared. A filter hides everything if its read fails. -/
structure Carries (auth : Authorization (StateM σ)) (s : σ) (declarations : List Declaration)
    (user : String) (pass : Pass) : Prop where
  caller : pass.caller = some user
  declared : ∀ object ∈ pass.rowFilters.keys,
    ∃ operation, .rowFilter object operation ∈ declarations
  filtered : ∀ name operation, .rowFilter (.text name) operation ∈ declarations →
    .text name ∈ pass.rowFilters.keys
  compiled : ∀ i e, pass.rowFilters.entries[i]? = some e →
    e.2 = RowFilter.compile auth.policy
      (auth.reading (.text user) s ((requirements declarations).length + 1 + i)) e.1

/-- Whether a request is refused with some response. -/
def IsRefusedWith (outcome : Except Refusal Pass) (response : Response) : Prop :=
  ∃ refusal, outcome = .error refusal ∧ refusal.response = response

/-- What becomes of a request with some header. The first read is for the caller, the next ones
    are for the permissions, one each. -/
structure IsEnforced (auth : Authorization (StateM σ)) (s : σ) (declarations : List Declaration)
    (header : Option String) (outcome : Except Refusal Pass) : Prop where
  /-- It is let through if nothing is declared, or if its caller's context loads and every
      permission is allowed. -/
  passes_iff : (∃ pass, outcome = .ok pass) ↔ declarations = [] ∨ ∃ user, Names header user ∧
    (∃ ctx, auth.reading (.text user) s 0 = .ok ctx) ∧
    ∀ i pair, (requirements declarations)[i]? = some pair →
      (auth.decisionAt user s (i + 1) pair).isAllowed = true
  unguarded : declarations = [] → outcome = .ok {}
  carries : ∀ pass, outcome = .ok pass → declarations ≠ [] →
    ∃ user, Names header user ∧ Carries auth s declarations user pass
  noCaller : declarations ≠ [] → (∀ user, ¬Names header user) →
    IsRefusedWith outcome (.refusal 401 "Missing user id")
  unknownCaller : declarations ≠ [] → ∀ user unknown, Names header user →
    auth.reading (.text user) s 0 = .error (.identityNotFound unknown) →
    IsRefusedWith outcome (.refusal 401 "Invalid or inactive user")
  unavailable : declarations ≠ [] → ∀ user e, Names header user →
    auth.reading (.text user) s 0 = .error e → (∀ unknown, e ≠ .identityNotFound unknown) →
    IsRefusedWith outcome (.refusal 503 Permission.unavailableMessage)
  /-- The first permission that is denied decides, with the reason in words. -/
  denied : declarations ≠ [] → ∀ user i pair reason, Names header user →
    (∃ ctx, auth.reading (.text user) s 0 = .ok ctx) →
    (requirements declarations)[i]? = some pair →
    (∀ j < i, ∀ earlier, (requirements declarations)[j]? = some earlier →
      (auth.decisionAt user s (j + 1) earlier).isAllowed = true) →
    (auth.decisionAt user s (i + 1) pair).reason = some reason →
    IsRefusedWith outcome (.refusal (if reason = Permission.unavailableMessage then 503 else 403)
      reason)

variable {guard : RouteGuard} {e : Fault} {ctx : SecurityContext}

theorem enforce_of_isEmpty (hempty : guard.isEmpty = true) :
    (guard.enforce auth header s).1 = .ok {} := by
  rw [enforce, if_pos hempty]
  rfl

theorem enforce_of_noCaller (hempty : ¬guard.isEmpty = true) (hcaller : callerOf header = none) :
    (guard.enforce auth header s).1 = .error .noCaller := by
  rw [enforce, if_neg hempty, hcaller]
  rfl

theorem enforce_of_error (hempty : ¬guard.isEmpty = true) (hcaller : callerOf header = some user)
    (hread : auth.reading (.text user) s 0 = .error e) :
    (guard.enforce auth header s).1 = .error (refusalOf e) := by
  rw [enforce, if_neg hempty, hcaller]
  exact congrArg Prod.fst (bind_apply_of_eq (Prod.ext hread rfl))

/-- Once the caller's context is loaded, the permissions decide. -/
theorem enforce_of_ok (hempty : ¬guard.isEmpty = true) (hcaller : callerOf header = some user)
    (hread : auth.reading (.text user) s 0 = .ok ctx) :
    guard.enforce auth header s = (do
      match ← firstRefusal auth user guard.required with
      | some refusal => return .error refusal
      | none => return .ok { caller := some user, rowFilters := ← compileFilters auth user guard } :
        StateM σ (Except Refusal Pass)) (auth.contexts (.text user) s).2 := by
  rw [enforce, if_neg hempty, hcaller]
  exact bind_apply_of_eq (Prod.ext hread rfl)

/-- Without a refusal, a request carries what is declared. -/
theorem exists_carries (hdeclares : guard.Declares declarations)
    (hempty : ¬guard.isEmpty = true) (hcaller : callerOf header = some user)
    (hread : auth.reading (.text user) s 0 = .ok ctx)
    (hall : ∀ i pair, guard.required[i]? = some pair →
      (auth.decisionAt user s (i + 1) pair).isAllowed = true) :
    ∃ pass, (guard.enforce auth header s).1 = .ok pass ∧
      Carries auth s declarations user pass := by
  rcases firstRefusal_cases auth user guard.required (auth.contexts (.text user) s).2 with
    ⟨-, s', hrun, hreads⟩ | ⟨i, pair, denial, hpair, hdenied, -⟩
  · obtain ⟨compiled, s'', hcompile, hnames, hcompiled⟩ :=
      mapM_compileFilter auth user guard.rowFilters.entries s'
    have hentries := OrderedMap.entries_ofEntries_of_keys hnames
    have hkeys : (OrderedMap.ofEntries compiled).keys = guard.rowFilters.keys := by
      rw [OrderedMap.keys, hentries, hnames]
      rfl
    refine ⟨{ caller := some user, rowFilters := .ofEntries compiled }, ?_, rfl, ?_, ?_, ?_⟩
    · have hfilters : (compileFilters auth user guard s').1 = .ofEntries compiled :=
        congrArg (fun r : List (Value × RowFilter) × σ => OrderedMap.ofEntries r.1) hcompile
      rw [enforce_of_ok hempty hcaller hread, bind_apply_of_eq hrun, ← hfilters]
      rfl
    · rw [hkeys]
      exact hdeclares.declared
    · rw [hkeys]
      exact hdeclares.filtered
    · intro i e he
      rw [hentries] at he
      rw [hcompiled i e he, hreads, hdeclares.required, Nat.add_right_comm]
      rfl
  · exact absurd (hall i pair hpair) (Denial.not_isAllowed hdenied)

/-- The first permission that is denied refuses a request. -/
theorem isRefusedWith_of_denied (hempty : ¬guard.isEmpty = true)
    (hcaller : callerOf header = some user) (hread : auth.reading (.text user) s 0 = .ok ctx)
    {i : Nat} {pair : Value × Action} {denial : Denial} (hpair : guard.required[i]? = some pair)
    (hdenied : auth.decisionAt user s (i + 1) pair = .denied denial)
    (hearlier : ∀ j < i, ∀ earlier, guard.required[j]? = some earlier →
      (auth.decisionAt user s (j + 1) earlier).isAllowed = true) :
    IsRefusedWith (guard.enforce auth header s).1 (deniedResponse denial.message) := by
  obtain ⟨refusal, hrefusal, hresponse⟩ := refusalOfDecision_denied denial
  refine ⟨refusal, ?_, hresponse⟩
  rcases firstRefusal_cases auth user guard.required (auth.contexts (.text user) s).2 with
    ⟨hall, -⟩ | ⟨k, other, denial', hother, hdenied', hbefore, hrun⟩
  · exact absurd (hall i pair hpair) (Denial.not_isAllowed hdenied)
  · -- Two first denials are the same one.
    obtain rfl : k = i := by
      rcases Nat.lt_trichotomy k i with hk | hk | hk
      · exact absurd (hearlier k hk other hother) (Denial.not_isAllowed hdenied')
      · exact hk
      · exact absurd (hbefore i hk pair hpair) (Denial.not_isAllowed hdenied)
    cases hpair.symm.trans hother
    cases hdenied.symm.trans hdenied'
    rw [enforce_of_ok hempty hcaller hread]
    exact congrArg Prod.fst (bind_apply_of_eq (Prod.ext (hrun.trans hrefusal) rfl))

/-- Whatever is let through has a caller whose context loads and who has all permissions. -/
theorem allowed_of_passes (hempty : ¬guard.isEmpty = true) {pass : Pass}
    (h : (guard.enforce auth header s).1 = .ok pass) :
    ∃ user ctx, callerOf header = some user ∧ auth.reading (.text user) s 0 = .ok ctx ∧
      ∀ i pair, guard.required[i]? = some pair →
        (auth.decisionAt user s (i + 1) pair).isAllowed = true := by
  cases hcaller : callerOf header with
  | none => cases (enforce_of_noCaller hempty hcaller).symm.trans h
  | some user =>
    cases hread : auth.reading (.text user) s 0 with
    | error e => cases (enforce_of_error hempty hcaller hread).symm.trans h
    | ok ctx =>
      refine ⟨user, ctx, rfl, hread, ?_⟩
      rcases firstRefusal_cases auth user guard.required (auth.contexts (.text user) s).2 with
        ⟨hall, -⟩ | ⟨i, pair, denial, hpair, hdenied, hearlier, -⟩
      · exact hall
      · obtain ⟨refusal, hrefused, -⟩ :=
          isRefusedWith_of_denied hempty hcaller hread hpair hdenied hearlier
        cases hrefused.symm.trans h

/-- Every request with some header is treated as is declared, whatever the source of contexts and
    its state, as long as the faults of the source are those of security evaluation. -/
theorem enforce_isEnforced (auth : Authorization (StateM σ)) (s : σ) (header : Option String)
    (hguard : ofDeclarations declarations = .ok guard)
    (hfaults : ∀ user n e, auth.reading user s n = .error e → e.isEvaluation = true) :
    IsEnforced auth s declarations header (guard.enforce auth header s).1 := by
  have hdeclares := declares_of_ofDeclarations hguard
  have hempty (hne : declarations ≠ []) : ¬guard.isEmpty = true := mt hdeclares.isEmpty_iff.1 hne
  have hunguarded (hnil : declarations = []) : (guard.enforce auth header s).1 = .ok {} :=
    enforce_of_isEmpty (hdeclares.isEmpty_iff.2 hnil)
  refine ⟨⟨?_, ?_⟩, hunguarded, ?_, ?_, ?_, ?_, ?_⟩
  · rintro ⟨pass, hpass⟩
    refine or_iff_not_imp_left.2 fun hne => ?_
    obtain ⟨user, ctx, hcaller, hread, hall⟩ := allowed_of_passes (hempty hne) hpass
    exact ⟨user, callerOf_eq_some_iff.1 hcaller, ⟨ctx, hread⟩, hdeclares.required ▸ hall⟩
  · rintro hpasses
    by_cases hne : declarations = []
    · exact ⟨_, hunguarded hne⟩
    · obtain ⟨user, hnames, ⟨ctx, hread⟩, hall⟩ := hpasses.resolve_left hne
      obtain ⟨pass, hpass, -⟩ := exists_carries hdeclares (hempty hne)
        (callerOf_eq_some_iff.2 hnames) hread (hdeclares.required ▸ hall)
      exact ⟨pass, hpass⟩
  · intro pass hpass hne
    obtain ⟨user, ctx, hcaller, hread, hall⟩ := allowed_of_passes (hempty hne) hpass
    obtain ⟨pass', hpass', hcarries⟩ :=
      exists_carries hdeclares (hempty hne) hcaller hread hall
    cases hpass.symm.trans hpass'
    exact ⟨user, callerOf_eq_some_iff.1 hcaller, hcarries⟩
  · intro hne hnobody
    have hcaller : callerOf header = none :=
      Option.eq_none_iff_forall_ne_some.2 fun user h => hnobody user (callerOf_eq_some_iff.1 h)
    exact ⟨_, enforce_of_noCaller (hempty hne) hcaller, rfl⟩
  · intro hne user unknown hnames hread
    exact ⟨_, enforce_of_error (hempty hne) (callerOf_eq_some_iff.2 hnames) hread, rfl⟩
  · intro hne user e hnames hread hother
    refine ⟨_, enforce_of_error (hempty hne) (callerOf_eq_some_iff.2 hnames) hread, ?_⟩
    rw [refusalOf_eq_unavailable (hfaults _ _ _ hread) hother]
    rfl
  · rintro hne user i pair reason hnames ⟨ctx, hread⟩ hpair hearlier hreason
    cases hdecision : auth.decisionAt user s (i + 1) pair with
    | allowed => rw [hdecision] at hreason; cases hreason
    | denied denial =>
      rw [hdecision] at hreason
      cases hreason
      rw [← hdeclares.required] at hpair hearlier
      exact isRefusedWith_of_denied (hempty hne) (callerOf_eq_some_iff.2 hnames) hread hpair
        hdecision hearlier

/-- A source that answers some times and is unavailable from then on. -/
def answering (ctx : SecurityContext) : Authorization (StateM Nat) where
  contexts _ := fun
    | 0 => (.error (.storeUnavailable (.timedOut ["permissions"])), 0)
    | n + 1 => (.ok ctx, n)
  policy := {}

theorem isEvaluation_of_answering {ctx : SecurityContext} {user : Value} (n left : Nat) (e : Fault)
    (h : (answering ctx).reading user left n = .error e) : e.isEvaluation = true := by
  induction n generalizing left with
  | zero =>
    cases left with
    | zero => cases h; rfl
    | succ left => cases h
  | succ n ih => exact ih _ h

/-- Whoever manages users needs the permission to change them, and sees only some of them. -/
def managing : List Declaration :=
  [.rowFilter (.text "user.management") (.text "read"),
    .require (.text "user.management") (.text "write")]

/-- Two answers let a manager through. One answer is not enough for the permission. -/
theorem managing_isEnforced : ∃ guard, ofDeclarations managing = .ok guard ∧
    (∃ pass, (guard.enforce (answering .manager) (some " ana ") 2).1 = .ok pass ∧
      Carries (answering .manager) 2 managing "ana" pass) ∧
    IsRefusedWith (guard.enforce (answering .manager) (some " ana ") 1).1
      (.refusal 503 "Security evaluation unavailable") := by
  have hnames : Names (some " ana ") "ana" := ⟨_, rfl, by decide +kernel, by decide⟩
  have hne : managing ≠ [] := List.cons_ne_nil _ _
  obtain ⟨guard, hguard⟩ : ∃ guard, ofDeclarations managing = .ok guard := ⟨_, rfl⟩
  refine ⟨guard, hguard, ?_, ?_⟩
  · have henforced := enforce_isEnforced (answering .manager) 2 (some " ana ") hguard
      fun _ n e => isEvaluation_of_answering n _ e
    have hallowed : ∀ i pair, (requirements managing)[i]? = some pair →
        ((answering .manager).decisionAt "ana" 2 (i + 1) pair).isAllowed = true := by
      rintro (- | i) pair hpair
      · cases hpair; decide +kernel
      · cases hpair
    obtain ⟨pass, hpass⟩ := henforced.passes_iff.2 (.inr ⟨"ana", hnames, ⟨_, rfl⟩, hallowed⟩)
    obtain ⟨user, hnames', hcarries⟩ := henforced.carries pass hpass hne
    obtain rfl : "ana" = user := Option.some.inj
      ((callerOf_eq_some_iff.2 hnames).symm.trans (callerOf_eq_some_iff.2 hnames'))
    exact ⟨pass, hpass, hcarries⟩
  · have henforced := enforce_isEnforced (answering .manager) 1 (some " ana ") hguard
      fun _ n e => isEvaluation_of_answering n _ e
    exact henforced.denied hne "ana" 0 _ _ hnames ⟨_, rfl⟩ rfl nofun rfl

end RouteGuard

end StaffAccess

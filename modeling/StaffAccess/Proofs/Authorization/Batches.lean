import StaffAccess.Authorization
import StaffAccess.Proofs.OrderedMap
import StaffAccess.Proofs.Permission.Requests

/-!
# Batches

Several questions about one user can be asked together. The context is then read once, and a
question that faults does not keep the others from being answered. Each answer is the one that
the question gets when it is asked alone, as long as the source of contexts gives the same answer
every time.

Answers are found by key, and of two questions of one key the last one counts. No two checks of
texts and known actions share a key by accident: no action has a dot in its word, so the last dot
of a key is the one between the object and the action.

* `Authorization.HasFixedAnswers`: the source of contexts answers as before.
* `Permission.checkMany_eq`, `ElementVisibility.evaluateMany_eq`: what is computed for a batch.
* `Permission.Check.eq_of_key_eq`: what a key says about a check.
* `batches_eq_singles`: a batch agrees with the questions one by one.
-/

namespace StaffAccess

/-- Whether a source gives each user one answer, whatever it has been asked before. The source
    may fail, and it may take note of what it is asked. -/
def Authorization.HasFixedAnswers {σ : Type} (auth : Authorization (StateM σ)) : Prop :=
  ∀ user s t, (auth.contexts user s).1 = (auth.contexts user t).1

/-! ## Checks -/

namespace Permission

/-- The decision on a check that is asked alone. -/
theorem check_eq (policy : Policy) (ctx : SecurityContext) (c : Check) :
    check policy (.ok ctx) c.object c.action c.request = orUnavailable (c.judge policy ctx) := rfl

/-- A batch has the decisions on its checks. -/
theorem checkMany_eq (policy : Policy) (loaded : Except Fault SecurityContext)
    (checks : List Check) : checkMany policy loaded checks = .ofEntries (checks.map fun c =>
      (c.key, check policy loaded c.object c.action c.request)) := by
  rw [OrderedMap.ofEntries, List.foldl_map]
  cases loaded with
  | error e => rfl
  | ok ctx => simp only [checkMany, check_eq]

theorem keys_checkMany (policy : Policy) (loaded : Except Fault SecurityContext)
    (checks : List Check) :
    (checkMany policy loaded checks).keys = (checks.map Check.key).eraseDups := by
  rw [checkMany_eq, OrderedMap.keys_ofEntries, List.map_map]
  rfl

/-- The last check of a key decides. -/
theorem get?_checkMany_of_last (policy : Policy) (loaded : Except Fault SecurityContext)
    {before after : List Check} {c : Check} (h : ∀ d ∈ after, d.key ≠ c.key) :
    (checkMany policy loaded (before ++ c :: after)).get? c.key =
      some (check policy loaded c.object c.action c.request) := by
  rw [checkMany_eq, List.map_append, List.map_cons]
  refine OrderedMap.get?_ofEntries_of_last fun e he => ?_
  obtain ⟨d, hd, rfl⟩ := List.mem_map.1 he
  exact h d hd

theorem dot_notMem_word (a : Action) : '.' ∉ a.word.toList := by
  cases a <;> decide

/-- A separator that the second parts do not hold tells the parts apart. -/
theorem append_cons_inj_of_notMem_right {α : Type} {x y v w : List α} {c : α} (hv : c ∉ v)
    (hw : c ∉ w) (h : x ++ c :: v = y ++ c :: w) : x = y ∧ v = w := by
  -- Seen from the end, it is the first separator of both lists.
  have hreverse : v.reverse ++ c :: x.reverse = w.reverse ++ c :: y.reverse := by
    simpa using congrArg List.reverse h
  rw [List.append_eq_append_iff] at hreverse
  rcases hreverse with ⟨between, hw', hx⟩ | ⟨between, hv', hy⟩
  · cases between with
    | nil => simp_all
    | cons d between =>
      obtain rfl : c = d := (List.cons.inj hx).1
      exact absurd (List.mem_reverse.1 (hw' ▸ by simp)) hw
  · cases between with
    | nil => simp_all
    | cons d between =>
      obtain rfl : c = d := (List.cons.inj hy).1
      exact absurd (List.mem_reverse.1 (hv' ▸ by simp)) hv

/-- Checks of texts and known actions have a key of their own. -/
theorem Check.eq_of_key_eq {c d : Check} {name name' : String} {a a' : Action}
    (hc : c.object = .text name) (hd : d.object = .text name')
    (ha : Action.ofValue c.action = .ok a) (ha' : Action.ofValue d.action = .ok a')
    (h : c.key = d.key) : name = name' ∧ a = a' := by
  rw [ofValue_eq_ok_iff] at ha ha'
  rw [key, key, hc, hd, ha, ha', ← String.toList_inj] at h
  simp only [Value.display_text, String.toList_append, List.append_assoc] at h
  obtain ⟨hname, hword⟩ := append_cons_inj_of_notMem_right (dot_notMem_word a)
    (dot_notMem_word a') h
  refine ⟨String.toList_inj.1 hname, Option.some.inj ?_⟩
  rw [← Action.ofWord?_word a, ← Action.ofWord?_word a', String.toList_inj.1 hword]

end Permission

/-! ## Elements -/

namespace ElementVisibility

/-- A batch of names has what each of them gives. -/
theorem evaluateMany_eq (policy : Policy) (loaded : Except Fault SecurityContext)
    (names : List String) (record : Value) :
    evaluateMany policy loaded (names.map .text) record =
      .ok (.ofEntries (names.map fun name =>
        (.text name, evaluate policy loaded (.text name) record))) := by
  have hkeys : (names.map Value.text).all Value.isKey = true := by
    simp [Value.isKey]
  rw [OrderedMap.ofEntries, List.foldl_map]
  unfold evaluateMany
  rw [if_pos hkeys]
  cases loaded with
  | error e => simp only [List.foldl_map, evaluate, error_bind, orLocked]
  | ok ctx => simp only [List.foldl_map, evaluate, ok_bind]

theorem evaluateMany_entries (policy : Policy) (loaded : Except Fault SecurityContext)
    (names : List String) (record : Value) :
    ∃ results, evaluateMany policy loaded (names.map .text) record = .ok results ∧
      results.entries = names.eraseDups.map fun name =>
        (.text name, evaluate policy loaded (.text name) record) := by
  refine ⟨_, evaluateMany_eq policy loaded names record, ?_⟩
  -- Names are as distinct as the texts that stand for them.
  have hrename : ∀ a b : String, (Value.text a == Value.text b) = (a == b) := fun a b => by
    simp [Value.beq_eq_same, beq_eq_decide]
  have h := OrderedMap.entries_ofEntries_map hrename
    (names.map fun name => (name, evaluate policy loaded (.text name) record))
  rw [OrderedMap.entries_ofEntries_graph, List.map_map, List.map_map] at h
  exact h

end ElementVisibility

/-! ## Batches and single questions -/

open Permission

/-- A batch reads the context once. Its checks have the distinct keys in the order in which they
    are first asked, and the decision on each key is the one on the last check of that key when
    it is asked alone, at whatever time; its elements have the distinct names in that order, each
    with what it gives when it is asked alone. -/
theorem batches_eq_singles {σ : Type} (auth : Authorization (StateM σ))
    (hfixed : auth.HasFixedAnswers) (user : Value) (s : σ) :
    (∀ checks : List Check,
      (auth.checkPermissions user checks s).2 = (auth.contexts user s).2 ∧
      (auth.checkPermissions user checks s).1.keys = (checks.map Check.key).eraseDups ∧
      ∀ before c after, checks = before ++ c :: after → (∀ d ∈ after, d.key ≠ c.key) →
        ∀ t, (auth.checkPermissions user checks s).1.get? c.key =
          some (auth.checkPermission user c.object c.action c.request t).1) ∧
    (∀ c d : Check, ∀ name name' a a', c.object = .text name → d.object = .text name' →
      Action.ofValue c.action = .ok a → Action.ofValue d.action = .ok a' →
      c.key = d.key → name = name' ∧ a = a') ∧
    ∀ (names : List String) (record : Value),
      (auth.evaluateElements user (names.map .text) record s).2 = (auth.contexts user s).2 ∧
      ∃ results, (auth.evaluateElements user (names.map .text) record s).1 = .ok results ∧
        ∀ t, results.entries = names.eraseDups.map fun name =>
          (.text name, (auth.evaluateElement user (.text name) record t).1) := by
  refine ⟨fun checks => ⟨rfl, ?_, ?_⟩, fun c d name name' a a' => Check.eq_of_key_eq,
    fun names record => ⟨rfl, ?_⟩⟩
  · exact keys_checkMany auth.policy (auth.contexts user s).1 checks
  · rintro before c after rfl hlast t
    refine (get?_checkMany_of_last auth.policy (auth.contexts user s).1 hlast).trans ?_
    rw [hfixed user s t]
    rfl
  · obtain ⟨results, hresults, hentries⟩ :=
      ElementVisibility.evaluateMany_entries auth.policy (auth.contexts user s).1 names record
    refine ⟨results, hresults, fun t => ?_⟩
    rw [hentries, hfixed user s t]
    rfl

/-- A source that has one context for everybody and counts how often it is asked. -/
def Authorization.counting (ctx : SecurityContext) : Authorization (StateM Nat) where
  contexts _ reads := (.ok ctx, reads + 1)
  policy := {}

/-- Three checks of which the second one names no action, and the third one has the key of the
    first. -/
def Permission.Check.samples : List Check :=
  [⟨.text "user.management", .text "write", .record [("target_user_id", .text "eve")]⟩,
   ⟨.text "user.management", .text "rename", .null⟩,
   ⟨.text "user.management", .text "write", .record [("target_user_id", .text "bob")]⟩]

/-- The manager of the third check's target is allowed what the first check alone is denied. The
    context is read once. -/
theorem manager_batch :
    ((Authorization.counting .manager).checkPermissions (.text "ana") Check.samples 0).2 = 1 ∧
    ((Authorization.counting .manager).checkPermissions (.text "ana") Check.samples 0).1.keys =
      ["user.management.write", "user.management.rename"] ∧
    ∃ d, ((Authorization.counting .manager).checkPermissions (.text "ana") Check.samples
      0).1.get? "user.management.write" = some d ∧ d.isAllowed = true := by
  obtain ⟨hreads, hkeys, hlast⟩ := (batches_eq_singles (Authorization.counting .manager)
    (fun _ _ _ => rfl) (.text "ana") 0).1 Check.samples
  exact ⟨hreads, hkeys.trans (by decide), _, hlast (Check.samples.take 2) _ [] rfl nofun 0,
    by decide⟩

end StaffAccess

import StaffAccess.Proofs.Cache.Freshness
import StaffAccess.Proofs.Cache.Inventory
import StaffAccess.Proofs.Cache.Turns
import StaffAccess.Proofs.Context.Provenance
import Mathlib.Data.List.Induction

/-!
# Questions in between each other

The turns of any number of questions come in any order, and in between the cache is made to
forget, rows change, clocks go on, and any call of the cache's store can fail. A context can be
kept long after it was compiled, so what is kept may be older than what was forgotten meanwhile.

Even so, whatever is kept for a user was compiled for this user, and no answer is too old: it was
compiled for the very question, or its age was below the limit when the cache was looked at. And
a failure of the cache is never the answer.

* `Inventory.lookup`, `Inventory.keep`: the two uses of a cache that makes nothing up.
* `Traffic.IsSound`: the invariant, which every turn preserves (`Traffic.IsSound.take`).
* `interleaving_ownAndFresh`: what is kept and what is answered, for both kinds of stores.
-/

namespace StaffAccess

/-! ## The two uses of the cache -/

namespace CacheM

variable {σ α : Type}

/-- Passing by a failure changes the answer only, and only that of a failed call. -/
theorem run_tolerating (fallback : α) (op : CacheM σ α) (s : σ) :
    ((ContextService.tolerating fallback op).run s).2 = (op.run s).2 ∧
      ∀ a, ((ContextService.tolerating fallback op).run s).1 = .ok a →
        a = fallback ∨ (op.run s).1 = .ok a := by
  rw [run_tolerating_eq]
  split
  · next heq =>
    rw [heq]
    exact ⟨rfl, fun a h => .inl (Except.ok.inj h).symm⟩
  · exact ⟨rfl, fun a h => .inr h⟩

theorem not_isDegraded_of_tolerating {fallback : α} {op : CacheM σ α} {s : σ} {e : Fault}
    (h : ((ContextService.tolerating fallback op).run s).1 = .error e) : ¬e.IsDegraded := by
  rintro ⟨call, error, rfl⟩
  rw [run_tolerating_eq] at h
  split at h
  · cases h
  · next hother =>
    exact hother call error (op.run s).2 (Prod.ext h rfl)

/-- A call whose answer is replaced. -/
theorem run_then {β : Type} (op : CacheM σ α) (b : β) (s : σ) :
    ((do let _ ← op; return b : CacheM σ β).run s).2 = (op.run s).2 ∧
      ∀ b', ((do let _ ← op; return b : CacheM σ β).run s).1 = .ok b' → b' = b := by
  rcases hrun : op.run s with ⟨e | a, s'⟩
  · rw [run_bind_of_error hrun]
    exact ⟨rfl, nofun⟩
  · rw [run_bind_of_ok hrun]
    exact ⟨rfl, fun b' h => (Except.ok.inj h).symm⟩

end CacheM

section Get

variable {σ : Type} [CacheStore σ] {cache : ContextCache} {now : Double} {user : String} {s s' : σ}
  {payload : Text.Octets}

theorem ContextCache.run_get_of_readable {ctx : SecurityContext}
    (h : (CacheStore.get now (keyFor user)).run s = (.ok (some payload), s'))
    (hctx : cache.decode payload = .ok ctx) :
    (cache.get now user).run s = (.ok (if cache.isStale now ctx then none else some ctx), s') := by
  refine (CacheM.run_bind_of_ok h).trans ?_
  dsimp only
  rw [hctx]
  rfl

/-- An entry that cannot be read is removed, or the fault of reading it is raised. -/
theorem ContextCache.run_get_of_fault {e : Fault}
    (h : (CacheStore.get now (keyFor user)).run s = (.ok (some payload), s'))
    (he : cache.decode payload = .error e) :
    (cache.get now user).run s =
      ((do CacheStore.delete (keyFor user); return none : CacheM σ _).run s') ∨
    (cache.get now user).run s = (.error e, s') := by
  have hget : (cache.get now user).run s = _ := CacheM.run_bind_of_ok h
  dsimp only at hget
  rw [he] at hget
  dsimp only at hget
  split_ifs at hget
  · exact .inl hget
  · exact .inr hget

end Get

namespace Inventory

variable {σ : Type} [CacheStore σ] (inventory : Inventory σ) (cache : ContextCache) (now : Double)
  (user : String) (s : σ)

/-- What is found in the cache was kept and is not too old. -/
theorem cacheGet : (inventory.kept ((cache.get now user).run s).2).Within (inventory.kept s) ∧
    ∀ ctx, ((cache.get now user).run s).1 = .ok (some ctx) →
      cache.isStale now ctx = false ∧ ∃ payload,
        inventory.kept s (ContextCache.keyFor user) = some payload ∧
          cache.decode payload = .ok ctx := by
  have hwithin := inventory.get now (ContextCache.keyFor user) s
  have hfound := inventory.found now (ContextCache.keyFor user) s
  rcases hread : (CacheStore.get now (ContextCache.keyFor user)).run s with ⟨e | _ | payload, s'⟩
  all_goals rw [hread] at hwithin hfound
  · have hget : (cache.get now user).run s = (.error e, s') := CacheM.run_bind_of_error hread
    rw [hget]
    exact ⟨hwithin, nofun⟩
  · have hget : (cache.get now user).run s = (.ok none, s') := CacheM.run_bind_of_ok hread
    rw [hget]
    exact ⟨hwithin, nofun⟩
  · rcases hdecode : cache.decode payload with e | ctx
    · rcases ContextCache.run_get_of_fault hread hdecode with hget | hget
      · -- Whether the entry could be removed or not, nothing is found.
        obtain ⟨hstate, hanswer⟩ :=
          CacheM.run_then (CacheStore.delete (ContextCache.keyFor user)) (none : Option _) s'
        rw [hget, hstate]
        refine ⟨(inventory.delete _ s').trans hwithin, fun ctx hctx => ?_⟩
        cases hanswer _ hctx
      · rw [hget]
        exact ⟨hwithin, nofun⟩
    · rw [ContextCache.run_get_of_readable hread hdecode]
      refine ⟨hwithin, fun ctx' hctx => ?_⟩
      have hctx := Except.ok.inj hctx
      split_ifs at hctx with hstale
      cases hctx
      exact ⟨by simpa using hstale, payload, hfound payload rfl, hdecode⟩

/-- Passing by a failure of the cache changes nothing about that. -/
theorem lookup :
    (inventory.kept ((ContextService.lookup cache now user).run s).2).Within (inventory.kept s) ∧
    ∀ ctx, ((ContextService.lookup cache now user).run s).1 = .ok (some ctx) →
      cache.isStale now ctx = false ∧ ∃ payload,
        inventory.kept s (ContextCache.keyFor user) = some payload ∧
          cache.decode payload = .ok ctx := by
  obtain ⟨hwithin, hfound⟩ := inventory.cacheGet cache now user s
  obtain ⟨hstate, hanswer⟩ := CacheM.run_tolerating none (cache.get now user) s
  rw [ContextService.lookup, hstate]
  refine ⟨hwithin, fun ctx hctx => ?_⟩
  rcases hanswer _ hctx with hnone | hget
  · cases hnone
  · exact hfound ctx hget

/-- Keeping a context adds its written form, under the key of its user, or nothing. -/
theorem keep (ctx : SecurityContext) {key : String} {payload : Text.Octets}
    (h : inventory.kept ((ContextService.keep cache now user ctx).run s).2 key = some payload) :
    inventory.kept s key = some payload ∨
      key = ContextCache.keyFor user ∧ ∃ v, ctx.toValue = .ok v ∧
        payload = cache.format.encode v := by
  rw [ContextService.keep, (CacheM.run_tolerating () (cache.put now user ctx none) s).1,
    ContextCache.put] at h
  rcases hv : ctx.toValue with e | v
  · rw [hv] at h
    exact .inl h
  · rw [hv] at h
    rcases inventory.set now _ _ _ s key payload h with hkept | ⟨rfl, rfl⟩
    · exact .inl hkept
    · exact .inr ⟨rfl, v, rfl, rfl⟩

end Inventory

/-! ## Where contexts come from -/

/-- Whether compiling was the turn of the question at a place and gave a context. -/
def Question.IsCompiledBy (turns : List Turn) (place : Nat) (q : Question)
    (ctx : SecurityContext) : Prop :=
  q.progress.compiled? = some ctx ∧ ∃ rules workers now,
    .compile place rules workers now ∈ turns ∧
      SecurityContext.compile rules workers now q.user = .ok ctx

/-- Whether compiling was the turn of the question at a place and gave a fault. -/
def Question.IsFaultOfCompiling (turns : List Turn) (place : Nat) (q : Question)
    (e : Fault) : Prop :=
  ∃ rules workers now, .compile place rules workers now ∈ turns ∧
    SecurityContext.compile rules workers now q.user = .error e

/-- Whether a question is the same one, and what was compiled for it still is. -/
structure Question.Continues (q q' : Question) : Prop where
  user : q'.user = q.user
  compiled : ∀ ctx, q.progress.compiled? = some ctx → q'.progress.compiled? = some ctx

theorem Question.Continues.refl (q : Question) : q.Continues q := ⟨rfl, fun _ h => h⟩

variable {σ : Type} {cache : ContextCache} {turns turns' : List Turn} {t t' : Traffic σ}
  {place : Nat} {q q' : Question} {user : String} {ctx : SecurityContext} {payload : Text.Octets}

namespace Traffic

/-- Whether a context was compiled for a question of a user. -/
def IsCompiled (turns : List Turn) (t : Traffic σ) (user : String) (ctx : SecurityContext) : Prop :=
  ∃ place, ∃ q : Question, t.questions[place]? = some q ∧ q.user = user ∧
    q.IsCompiledBy turns place ctx

/-- Whether a payload is the written form of a context that was compiled for a user. -/
def IsWritten (cache : ContextCache) (turns : List Turn) (t : Traffic σ) (user : String)
    (payload : Text.Octets) : Prop :=
  ∃ ctx v, t.IsCompiled turns user ctx ∧ ctx.toValue = .ok v ∧ payload = cache.format.encode v

/-- Whether all questions are still there. -/
def Continues (t t' : Traffic σ) : Prop :=
  ∀ (place : Nat) (q : Question), t.questions[place]? = some q →
    ∃ q' : Question, t'.questions[place]? = some q' ∧ q.Continues q'

theorem continues_of_eq (h : t'.questions = t.questions) : t.Continues t' :=
  fun _ q hq => ⟨q, h ▸ hq, .refl q⟩

theorem continues_append {s : σ} (qs : List Question) : t.Continues ⟨s, t.questions ++ qs⟩ :=
  fun _ q hq =>
    ⟨q, (List.getElem?_append_left (List.getElem?_eq_some_iff.1 hq).1).trans hq, .refl q⟩

theorem continues_set {s : σ} (hq : t.questions[place]? = some q) (h : q.Continues q') :
    t.Continues ⟨s, t.questions.set place q'⟩ := by
  intro other r hr
  by_cases hplace : place = other
  · subst hplace
    cases hq.symm.trans hr
    exact ⟨q', List.getElem?_set_self (List.getElem?_eq_some_iff.1 hq).1, h⟩
  · exact ⟨r, (List.getElem?_set_ne hplace).trans hr, .refl r⟩

theorem IsCompiled.mono (h : t.IsCompiled turns user ctx) (hturns : turns ⊆ turns')
    (ht : t.Continues t') : t'.IsCompiled turns' user ctx := by
  obtain ⟨place, q, hq, huser, hctx, rules, workers, now, hturn, hcompile⟩ := h
  obtain ⟨q', hq', hcontinues⟩ := ht place q hq
  refine ⟨place, q', hq', hcontinues.user.trans huser, hcontinues.compiled ctx hctx, rules, workers,
    now, hturns hturn, ?_⟩
  rw [hcontinues.user]
  exact hcompile

theorem IsWritten.mono (h : t.IsWritten cache turns user payload) (hturns : turns ⊆ turns')
    (ht : t.Continues t') : t'.IsWritten cache turns' user payload := by
  obtain ⟨ctx, v, hctx, hv, hpayload⟩ := h
  exact ⟨ctx, v, hctx.mono hturns ht, hv, hpayload⟩

end Traffic

/-! ## The invariant -/

/-- What holds of the question at a place. It was asked, and what was compiled for it was compiled
    in its turn. Its answer was compiled for it, or else was not too old when the cache was looked
    at and is read from what was compiled for the same user. It is no failure of the cache. -/
structure Question.IsSound (cache : ContextCache) (turns : List Turn) (t : Traffic σ)
    (place : Nat) (q : Question) : Prop where
  asked : .ask q.user q.askedAt ∈ turns
  compiled : ∀ ctx, q.progress.compiled? = some ctx → q.IsCompiledBy turns place ctx
  answer : ∀ ctx, q.progress.answer? = some (.ok ctx) → q.progress.compiled? = some ctx ∨
    cache.isStale q.askedAt ctx = false ∧ ∃ payload, t.IsWritten cache turns q.user payload ∧
      cache.decode payload = .ok ctx
  fault : ∀ e, q.progress.answer? = some (.error e) →
    q.IsFaultOfCompiling turns place e ∨ ¬e.IsDegraded

theorem Question.IsSound.mono (h : q.IsSound cache turns t place) (hturns : turns ⊆ turns')
    (ht : t.Continues t') : q.IsSound cache turns' t' place where
  asked := hturns h.asked
  compiled ctx hctx := by
    obtain ⟨-, rules, workers, now, hturn, hcompile⟩ := h.compiled ctx hctx
    exact ⟨hctx, rules, workers, now, hturns hturn, hcompile⟩
  answer ctx hctx := by
    rcases h.answer ctx hctx with hown | ⟨hfresh, payload, hwritten, hdecode⟩
    · exact .inl hown
    · exact .inr ⟨hfresh, payload, hwritten.mono hturns ht, hdecode⟩
  fault e he := by
    rcases h.fault e he with ⟨rules, workers, now, hturn, hcompile⟩ | hother
    · exact .inl ⟨rules, workers, now, hturns hturn, hcompile⟩
    · exact .inr hother

namespace Traffic

variable [CacheStore σ] {inventory : Inventory σ}

/-- What holds at every time: whatever is kept for a user is the written form of what was compiled
    for this user, and the questions are sound. -/
structure IsSound (inventory : Inventory σ) (cache : ContextCache) (turns : List Turn)
    (t : Traffic σ) : Prop where
  entries : ∀ user payload, inventory.kept t.store (ContextCache.keyFor user) = some payload →
    t.IsWritten cache turns user payload
  questions : ∀ (place : Nat) (q : Question), t.questions[place]? = some q →
    q.IsSound cache turns t place

/-- What holds so far still holds after a turn if it does of what the turn changed. -/
theorem IsSound.step (h : t.IsSound inventory cache turns) (ht : t.Continues t')
    (hturns : turns ⊆ turns')
    (hentries : ∀ user payload, inventory.kept t'.store (ContextCache.keyFor user) = some payload →
      inventory.kept t.store (ContextCache.keyFor user) = some payload ∨
        t.IsWritten cache turns user payload)
    (hquestions : ∀ (place : Nat) (q : Question), t'.questions[place]? = some q →
      t.questions[place]? = some q ∨ q.IsSound cache turns' t' place) :
    t'.IsSound inventory cache turns' where
  entries user payload hkept := by
    rcases hentries user payload hkept with hkept | hwritten
    · exact (h.entries user payload hkept).mono hturns ht
    · exact hwritten.mono hturns ht
  questions place q hq := by
    rcases hquestions place q hq with hq | hsound
    · exact (h.questions place q hq).mono hturns ht
    · exact hsound

/-- A turn that adds nothing to what is kept and does not concern the questions. -/
theorem IsSound.within {s : σ} (h : t.IsSound inventory cache turns) (hturns : turns ⊆ turns')
    (hs : (inventory.kept s).Within (inventory.kept t.store)) :
    IsSound inventory cache turns' { t with store := s } :=
  h.step (continues_of_eq rfl) hturns (fun _ _ hkept => .inl (hs _ _ hkept)) fun _ _ hq => .inl hq

theorem getElem?_set_cases {qs : List Question} {other : Nat} {r : Question}
    (h : (qs.set place q)[other]? = some r) : qs[other]? = some r ∨ other = place ∧ r = q := by
  by_cases hplace : place = other
  · subst hplace
    obtain ⟨hlt, hr⟩ := List.getElem?_eq_some_iff.1 h
    rw [List.getElem_set_self] at hr
    exact .inr ⟨rfl, hr.symm⟩
  · rw [List.getElem?_set_ne hplace] at h
    exact .inl h

theorem getElem?_concat_cases {qs : List Question} {other : Nat} {r : Question}
    (h : (qs ++ [q])[other]? = some r) : qs[other]? = some r ∨ r = q := by
  rw [List.getElem?_append] at h
  split_ifs at h with hother
  · exact .inl h
  · exact .inr (List.mem_singleton.1 (List.mem_of_getElem? h))

theorem IsSound.ask (h : t.IsSound inventory cache turns) (hturns : turns ⊆ turns')
    {now : Double} (hturn : .ask user now ∈ turns') :
    (t.ask cache user now).IsSound inventory cache turns' := by
  obtain ⟨hwithin, hfound⟩ := inventory.lookup cache now user t.store
  have ht : t.Continues (t.ask cache user now) := continues_append _
  refine h.step ht hturns (fun _ _ hkept => .inl (hwithin _ _ hkept)) fun place q hq => ?_
  rcases getElem?_concat_cases hq with hq | rfl
  · exact .inl hq
  · refine .inr ⟨hturn, fun ctx hctx => ?_, fun ctx hctx => .inr ?_, fun e he => .inr ?_⟩
    · simp at hctx
    · -- What is found was kept before, so it was compiled for this user.
      obtain ⟨hfresh, payload, hkept, hdecode⟩ :=
        hfound ctx (Progress.answer?_ofLookup_eq_ok_iff.1 hctx)
      exact ⟨hfresh, payload, (h.entries user payload hkept).mono hturns ht, hdecode⟩
    · exact CacheM.not_isDegraded_of_tolerating (Progress.answer?_ofLookup_eq_error_iff.1 he)

theorem IsSound.compile (h : t.IsSound inventory cache turns) (hturns : turns ⊆ turns')
    {rules : RuleStore Read} {workers : Int} {now : Double}
    (hturn : .compile place rules workers now ∈ turns') :
    (t.compile place rules workers now).IsSound inventory cache turns' := by
  rw [Traffic.compile]
  split
  · next user askedAt hq =>
    have hcompiling : Question.Continues ⟨user, askedAt, .missed⟩ ⟨user, askedAt,
        .ofCompile (SecurityContext.compile rules workers now user)⟩ :=
      ⟨rfl, fun ctx hctx => by cases hctx⟩
    refine h.step (continues_set hq hcompiling) hturns (fun _ _ hkept => .inl hkept)
      fun other r hr => ?_
    rcases getElem?_set_cases hr with hr | ⟨rfl, rfl⟩
    · exact .inl hr
    · refine .inr ⟨hturns (h.questions other _ hq).asked, fun ctx hctx => ?_, fun ctx hctx => ?_,
        fun e he => .inl ?_⟩
      · have hcompile := Progress.compiled?_ofCompile_eq_some_iff.1 hctx
        exact ⟨hctx, rules, workers, now, hturn, hcompile⟩
      · exact absurd hctx Progress.answer?_ofCompile_ne_ok
      · exact ⟨rules, workers, now, hturn, Progress.answer?_ofCompile_eq_error_iff.1 he⟩
  · exact h.within hturns (.refl _)

theorem IsSound.keep (h : t.IsSound inventory cache turns) (hturns : turns ⊆ turns')
    (place : Nat) (now : Double) : (t.keep cache place now).IsSound inventory cache turns' := by
  rw [Traffic.keep]
  split
  · next user askedAt ctx hq =>
    have hcompiled := (h.questions place _ hq).compiled ctx rfl
    have hanswered : Question.Continues ⟨user, askedAt, .compiled ctx⟩ ⟨user, askedAt,
        .answered (some ctx) (((ContextService.keep cache now user ctx).run t.store).1.map
          fun _ => ctx)⟩ := ⟨rfl, fun _ hctx => hctx⟩
    refine h.step (continues_set hq hanswered) hturns (fun other payload hkept => ?_)
      fun other r hr => ?_
    · rcases inventory.keep cache now user t.store ctx hkept with hkept | ⟨hkey, v, hv, rfl⟩
      · exact .inl hkept
      · -- Different users have different keys, so what is written is under that of its user.
        obtain rfl := keyFor_injective hkey
        exact .inr ⟨ctx, v, ⟨place, _, hq, rfl, hcompiled⟩, hv, rfl⟩
    · rcases getElem?_set_cases hr with hr | ⟨rfl, rfl⟩
      · exact .inl hr
      · obtain ⟨-, rules, workers, compiledAt, hturn, hcompile⟩ := hcompiled
        refine .inr ⟨hturns (h.questions other _ hq).asked, fun ctx' hctx => ?_,
          fun ctx' hctx => .inl ?_, fun e he => .inr ?_⟩
        · cases hctx
          exact ⟨rfl, rules, workers, compiledAt, hturns hturn, hcompile⟩
        · -- Keeping gives no context of its own.
          obtain ⟨-, -, rfl⟩ := map_eq_ok_iff.1 (Option.some.inj hctx)
          rfl
        · exact CacheM.not_isDegraded_of_tolerating (map_eq_error_iff.1 (Option.some.inj he))
  · exact h.within hturns (.refl _)

/-- Every turn preserves the invariant. -/
theorem IsSound.take (h : t.IsSound inventory cache turns) (turn : Turn) :
    (t.take cache turn).IsSound inventory cache (turns ++ [turn]) := by
  have hturns : turns ⊆ turns ++ [turn] := List.subset_append_left _ _
  rcases turn with ⟨user, now⟩ | ⟨place, rules, workers, now⟩ | ⟨place, now⟩ | user | -
  · exact h.ask hturns List.mem_concat_self
  · exact h.compile hturns List.mem_concat_self
  · exact h.keep hturns place now
  · exact h.within hturns (inventory.delete _ _)
  · exact h.within hturns (inventory.deletePrefix _ _)

variable (cache inventory) in
/-- The invariant holds throughout every run that starts with an empty store. -/
theorem isSound_run {start : σ} (hempty : CacheStore.keys start = []) (turns : List Turn) :
    (run cache ⟨start, []⟩ turns).IsSound inventory cache turns := by
  -- The invariant speaks of the turns so far, so the run is taken apart at its end.
  induction turns using List.reverseRecOn with
  | nil =>
    refine ⟨fun user payload hkept => ?_, fun place q hq => ?_⟩
    · have hkey := inventory.keys start _ payload hkept
      rw [hempty] at hkey
      exact absurd hkey List.not_mem_nil
    · simp [run] at hq
  | append_singleton turns turn ih =>
    rw [run_concat]
    exact ih.take turn

end Traffic

/-! ## Answers -/

/-- Whether times are numbers. -/
def Turn.IsTimed : Turn → Prop
  | ask _ now => now.IsFinite
  | compile _ _ _ now => now.IsFinite ∧ now.IsRepresentable
  | _ => True

/-- Whether the identity that is read for a user is that of the user. -/
def Turn.Identifies (user : String) : Turn → Prop
  | compile _ rules _ _ => ∀ identity, rules.findIdentity user = .returned (some identity) →
    identity.userId = user
  | _ => True

namespace Traffic

theorem IsCompiled.exists_turn (h : t.IsCompiled turns user ctx) :
    ∃ place rules workers now, .compile place rules workers now ∈ turns ∧
      SecurityContext.compile rules workers now user = .ok ctx := by
  obtain ⟨place, q, -, rfl, -, rules, workers, now, hturn, hcompile⟩ := h
  exact ⟨place, rules, workers, now, hturn, hcompile⟩

theorem IsCompiled.userId_eq (h : t.IsCompiled turns user ctx)
    (hidentifies : ∀ turn ∈ turns, turn.Identifies user) : ctx.userId = user := by
  obtain ⟨place, rules, workers, now, hturn, hcompile⟩ := h.exists_turn
  obtain ⟨identity, hidentity, huser, -⟩ := SecurityContext.exists_identity_of_compile hcompile
  exact huser.trans (hidentifies _ hturn identity hidentity)

theorem IsCompiled.isTimed (h : t.IsCompiled turns user ctx)
    (htimed : ∀ turn ∈ turns, turn.IsTimed) :
    ctx.lastUpdated.IsFinite ∧ ctx.lastUpdated.IsRepresentable := by
  obtain ⟨place, rules, workers, now, hturn, hcompile⟩ := h.exists_turn
  obtain ⟨identity, -, -, hupdated⟩ := SecurityContext.exists_identity_of_compile hcompile
  rw [hupdated]
  exact htimed _ hturn

/-- What is read from a written context has its user and its time. -/
theorem IsWritten.exists_isCompiled (hformat : cache.format = .json)
    (h : t.IsWritten cache turns user payload) (htimed : ∀ turn ∈ turns, turn.IsTimed)
    (hdecode : cache.decode payload = .ok ctx) : ∃ ctx', t.IsCompiled turns user ctx' ∧
      ctx.userId = ctx'.userId ∧ ctx.lastUpdated = ctx'.lastUpdated := by
  obtain ⟨ctx', v, hctx', hv, rfl⟩ := h
  exact ⟨ctx', hctx',
    ContextCache.retains_of_decode hformat hv (hctx'.isTimed htimed).2 hdecode⟩

end Traffic

/-- An answer is the context of the user, and it was compiled for the question or not too old. -/
theorem Question.IsSound.answered (hformat : cache.format = .json) (hmaxAge : cache.maxAge ≠ .nan)
    (h : q.IsSound cache turns t place) (hq : t.questions[place]? = some q)
    (htimed : ∀ turn ∈ turns, turn.IsTimed) (hctx : q.progress.answer? = some (.ok ctx)) :
    ((∀ turn ∈ turns, turn.Identifies q.user) → ctx.userId = q.user) ∧
      (q.IsCompiledBy turns place ctx ∨
        (q.askedAt.sub ctx.lastUpdated).lt cache.maxAge = true) := by
  rcases h.answer ctx hctx with hown | ⟨hfresh, payload, hwritten, hdecode⟩
  · have hcompiled := h.compiled ctx hown
    exact ⟨Traffic.IsCompiled.userId_eq ⟨place, q, hq, rfl, hcompiled⟩, .inl hcompiled⟩
  · obtain ⟨ctx', hctx', huser, hupdated⟩ := hwritten.exists_isCompiled hformat htimed hdecode
    have hasked : q.askedAt.IsFinite := htimed _ h.asked
    have hfinite : ctx.lastUpdated.IsFinite := hupdated ▸ (hctx'.isTimed htimed).1
    refine ⟨fun hidentifies => huser.trans (hctx'.userId_eq hidentifies), .inr ?_⟩
    exact Double.lt_of_not_le hmaxAge (Double.sub_ne_nan hasked hfinite) hfresh

/-- In every run over a cache that starts empty, in whichever order the questions have their
    turns, whichever of the two stores the cache has and whichever calls of it fail: whatever is
    kept for a user is the written form of a context that was compiled for this user; every
    context that a question is answered by is the user's own, if the rows give users their own
    identities, and was compiled for this very question or was not too old when the cache was
    looked at; and no question is answered by a failure of the cache. -/
theorem interleaving_ownAndFresh {accepts : String → String → Bool} {cache : ContextCache}
    (hformat : cache.format = .json) (hmaxAge : cache.maxAge ≠ .nan)
    {start : Unreliable (MemoryStore ⊕ ServerStore accepts)} (hempty : CacheStore.keys start = [])
    {turns : List Turn} (htimed : ∀ turn ∈ turns, turn.IsTimed) :
    (∀ user payload, (Inventory.memory.sum .server).unreliable.kept
        (Traffic.run cache ⟨start, []⟩ turns).store (ContextCache.keyFor user) = some payload →
      (Traffic.run cache ⟨start, []⟩ turns).IsWritten cache turns user payload) ∧
    ∀ (place : Nat) (q : Question),
      (Traffic.run cache ⟨start, []⟩ turns).questions[place]? = some q →
      (∀ ctx, q.progress.answer? = some (.ok ctx) →
        ((∀ turn ∈ turns, turn.Identifies q.user) → ctx.userId = q.user) ∧
        (q.IsCompiledBy turns place ctx ∨
          (q.askedAt.sub ctx.lastUpdated).lt cache.maxAge = true)) ∧
      ∀ e, q.progress.answer? = some (.error e) →
        q.IsFaultOfCompiling turns place e ∨ ¬e.IsDegraded := by
  have hsound :=
    Traffic.isSound_run cache (Inventory.memory.sum .server).unreliable hempty turns
  refine ⟨hsound.entries, fun place q hq => ⟨fun ctx hctx => ?_, ?_⟩⟩
  · exact (hsound.questions place q hq).answered hformat hmaxAge hq htimed hctx
  · exact (hsound.questions place q hq).fault

/-- A store within the program of which the first call fails. -/
def silentStore : Unreliable (MemoryStore ⊕ ServerStore ServerStore.literally) :=
  ⟨.inl {}, [some "TimeoutError"]⟩

/-- The teacher's context is compiled and is to be forgotten, but it is kept only then. -/
def lateTurns : List Turn :=
  [.ask "t1" teacherAsks.now, .compile 0 oneTeacher 4 teacherAsks.compiledAt, .invalidate "t1",
    .keep 0 teacherAsks.now]

theorem lateTurns_isTimed : ∀ turn ∈ lateTurns, turn.IsTimed := by
  intro turn hturn
  have hasks := teacherAsks_isWritable
  simp only [lateTurns, List.mem_cons, List.not_mem_nil, or_false] at hturn
  rcases hturn with rfl | rfl | rfl | rfl
  · exact hasks.now
  · exact ⟨hasks.compiledAt, hasks.compiledAt_isRepresentable⟩
  · trivial
  · trivial

theorem lateTurns_identifies : ∀ turn ∈ lateTurns, turn.Identifies "t1" := by
  intro turn hturn
  simp only [lateTurns, List.mem_cons, List.not_mem_nil, or_false] at hturn
  rcases hturn with rfl | rfl | rfl | rfl
  · trivial
  · intro identity hidentity
    cases hidentity
    rfl
  · trivial
  · trivial

/-- What is kept late is the teacher's context all the same, and so is the answer. -/
theorem lateTurns_ownAndFresh :
    (∃ payload, (Inventory.memory.sum .server).unreliable.kept
        (Traffic.run {} ⟨silentStore, []⟩ lateTurns).store (ContextCache.keyFor "t1") =
          some payload ∧
      (Traffic.run {} ⟨silentStore, []⟩ lateTurns).IsWritten {} lateTurns "t1" payload) ∧
    ∃ q : Question, (Traffic.run {} ⟨silentStore, []⟩ lateTurns).questions[0]? = some q ∧
      ∃ ctx, q.progress.answer? = some (.ok ctx) ∧ ctx.userId = "t1" := by
  have hmaxAge : ({} : ContextCache).maxAge ≠ .nan := by decide +kernel
  have hempty : CacheStore.keys silentStore = [] := rfl
  obtain ⟨hentries, hanswers⟩ := interleaving_ownAndFresh rfl hmaxAge hempty lateTurns_isTimed
  constructor
  · have hkept : ((Inventory.memory.sum .server).unreliable.kept
        (Traffic.run {} ⟨silentStore, []⟩ lateTurns).store (ContextCache.keyFor "t1")).isSome =
          true := by decide +kernel
    obtain ⟨payload, hpayload⟩ := Option.isSome_iff_exists.1 hkept
    exact ⟨payload, hpayload, hentries "t1" payload hpayload⟩
  · have hanswered : ((Traffic.run {} ⟨silentStore, []⟩ lateTurns).questions[0]?.bind fun q =>
        q.progress.answer?.bind fun answer => answer.toOption.map fun _ => q.user) =
          some "t1" := by decide +kernel
    obtain ⟨q, hq, hanswered⟩ := Option.bind_eq_some_iff.1 hanswered
    obtain ⟨e | ctx, hanswer, huser⟩ := Option.bind_eq_some_iff.1 hanswered
    · cases huser
    · have huser : q.user = "t1" := Option.some.inj huser
      obtain ⟨hown, -⟩ := (hanswers 0 q hq).1 ctx hanswer
      exact ⟨q, hq, ctx, hanswer, (hown (huser ▸ lateTurns_identifies)).trans huser⟩

end StaffAccess

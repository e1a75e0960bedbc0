import StaffAccess.Context.Compile
import StaffAccess.ContextService
import StaffAccess.Proofs.Cache.Contents

/-!
# Runs of the service of contexts

What a cached context has to do with the rows behind it, over a whole run: contexts are asked
for, and the cache is made to forget some or all of them, in any order and number. In between,
rows and clocks do what they like, and any call of the cache's store can fail.

What is compiled and what is forgotten is noted down on the way. Whatever the store keeps for a
user can be read, and reading it gives a context that was compiled for this user since it was
last forgotten.

* `ServiceState`: a store, with the notes about the run so far.
* `ServiceState.get`, `ServiceState.invalidate`, `ServiceState.invalidateAll`: the steps, which
  take notes.
* `IsSound`: the invariant.
* `isSound_run`: it holds throughout every run.
* `get_cases`, `invalidate_cases`, `invalidateAll_cases`: what each step answers.
-/

namespace StaffAccess

/-! ## Operations on stores -/

namespace CacheM

variable {σ α β : Type}

theorem run_bind_of_ok {op : CacheM σ α} {next : α → CacheM σ β} {s s' : σ} {a : α}
    (h : op.run s = (.ok a, s')) : (op >>= next).run s = (next a).run s' := by
  rw [ExceptT.run]
  simp only [bind, ExceptT.bind, ExceptT.mk, StateT.bind]
  rw [show op s = _ from h]
  rfl

theorem run_bind_of_error {op : CacheM σ α} {next : α → CacheM σ β} {s s' : σ} {e : Fault}
    (h : op.run s = (.error e, s')) : (op >>= next).run s = (.error e, s') := by
  rw [ExceptT.run]
  simp only [bind, ExceptT.bind, ExceptT.mk, StateT.bind]
  rw [show op s = _ from h]
  rfl

/-- Passing by failures, in all cases. -/
theorem run_tolerating_eq (fallback : α) (op : CacheM σ α) (s : σ) :
    (ContextService.tolerating fallback op).run s =
      match op.run s with
      | (.error (.cacheDegraded _ _), s') => (.ok fallback, s')
      | r => r := by
  rw [ContextService.tolerating, ExceptT.run, ExceptT.run]
  simp only [tryCatch, tryCatchThe, MonadExceptOf.tryCatch, ExceptT.tryCatch, ExceptT.mk, bind,
    StateT.bind]
  rcases op s with ⟨e | a, s'⟩
  · cases e <;> rfl
  · rfl

theorem run_tolerating_of_ok {fallback a : α} {op : CacheM σ α} {s s' : σ}
    (h : op.run s = (.ok a, s')) :
    (ContextService.tolerating fallback op).run s = (.ok a, s') := by
  rw [run_tolerating_eq, h]

theorem run_tolerating_of_degraded {fallback : α} {op : CacheM σ α} {s s' : σ} {e : Fault}
    (h : op.run s = (.error e, s')) (he : e.IsDegraded) :
    (ContextService.tolerating fallback op).run s = (.ok fallback, s') := by
  obtain ⟨kind, error, rfl⟩ := he
  rw [run_tolerating_eq, h]

end CacheM

/-! ## The two uses of the cache -/

section Uses

variable {σ : Type} [CacheStore σ] (laws : StoreLaws σ) (cache : ContextCache) (user : String)
  {ctx : SecurityContext} {s : σ}

/-- Whether a context is read back as it was written. -/
def ContextCache.Recovers (cache : ContextCache) (ctx : SecurityContext) : Prop :=
  ∃ v, ctx.toValue = .ok v ∧ cache.decode (cache.format.encode v) = .ok ctx

/-- If everything kept can be read, looking for a context finds nothing or one that is kept and
    not too old. -/
theorem lookup_cases (now : Double)
    (hread : ∀ payload, laws.kept s (ContextCache.keyFor user) = some payload →
      ∃ ctx, cache.decode payload = .ok ctx) :
    ∃ found s', (ContextService.lookup cache now user).run s = (.ok found, s') ∧
      (laws.kept s').Within (laws.kept s) ∧
      ∀ ctx, found = some ctx → cache.isStale now ctx = false ∧ ∃ payload,
        laws.kept s (ContextCache.keyFor user) = some payload ∧ cache.decode payload = .ok ctx := by
  rw [ContextService.lookup]
  rcases hfound : (CacheStore.get now (ContextCache.keyFor user)).run s with ⟨e | found, s'⟩
  · -- A failed read counts as finding nothing.
    obtain ⟨he, hkept⟩ := (laws.get now _ s).error e s' hfound
    have hget : (cache.get now user).run s = (.error e, s') := CacheM.run_bind_of_error hfound
    exact ⟨none, s', CacheM.run_tolerating_of_degraded hget he, hkept ▸ .refl _, nofun⟩
  · obtain ⟨hkept, hwithin⟩ := (laws.get now _ s).ok found s' hfound
    cases found with
    | none =>
      have hget : (cache.get now user).run s = (.ok none, s') := CacheM.run_bind_of_ok hfound
      exact ⟨none, s', CacheM.run_tolerating_of_ok hget, hwithin, nofun⟩
    | some payload =>
      -- What is kept can be read, so it is never removed as unreadable.
      obtain ⟨ctx, hctx⟩ := hread payload (hkept payload rfl)
      have hget : (cache.get now user).run s =
          (.ok (if cache.isStale now ctx then none else some ctx), s') := by
        refine (CacheM.run_bind_of_ok hfound).trans ?_
        dsimp only
        rw [hctx]
        rfl
      refine ⟨_, s', CacheM.run_tolerating_of_ok hget, hwithin, fun ctx' h => ?_⟩
      split_ifs at h with hstale
      cases h
      exact ⟨by simpa using hstale, payload, hkept payload rfl, hctx⟩

/-- Keeping a context never fails: it is written, or else everything stays as it is. -/
theorem keep_cases (now : Double) (httl : Double.ofInt? cache.ttl ≠ none) {v : Value}
    (hv : ctx.toValue = .ok v) :
    ∃ s', (ContextService.keep cache now user ctx).run s = (.ok (), s') ∧
      (laws.kept s' = laws.kept s ∨ (laws.kept s').Within (Function.update (laws.kept s)
        (ContextCache.keyFor user) (some (cache.format.encode v)))) := by
  rw [ContextService.keep]
  have hput : (cache.put now user ctx none : CacheM σ Unit) =
      CacheStore.set now (ContextCache.keyFor user) (cache.format.encode v) cache.ttl := by
    rw [ContextCache.put, hv]
    rfl
  rw [hput]
  have heffect := laws.set now (ContextCache.keyFor user) (cache.format.encode v) cache.ttl s httl
  rcases hset : (CacheStore.set now (ContextCache.keyFor user) (cache.format.encode v)
    cache.ttl).run s with ⟨e | ⟨⟩, s'⟩
  · obtain ⟨he, hkept⟩ := heffect.error e s' hset
    exact ⟨s', CacheM.run_tolerating_of_degraded hset he, .inl hkept⟩
  · exact ⟨s', CacheM.run_tolerating_of_ok hset, .inr (heffect.ok () s' hset)⟩

end Uses

/-! ## Notes -/

/-- What is noted down about a run. -/
inductive Note
  /-- A context was compiled, or could not be. -/
  | compiled (user : String) (result : Except Fault SecurityContext)
  /-- The context of one user was forgotten. -/
  | forgot (user : String)
  /-- All contexts were forgotten. -/
  | forgotAll

namespace Note

/-- Whether a note says that the context of a user was forgotten. -/
def forgets (user : String) : Note → Bool
  | compiled _ _ => false
  | forgot other => user = other
  | forgotAll => true

/-- The notes since the context of a user was last forgotten, the latest first. -/
def sinceForgotten (user : String) (notes : List Note) : List Note :=
  notes.takeWhile fun n => !n.forgets user

@[simp] theorem sinceForgotten_compiled (user other : String)
    (result : Except Fault SecurityContext) (notes : List Note) :
    sinceForgotten user (compiled other result :: notes) =
      compiled other result :: sinceForgotten user notes := rfl

theorem sinceForgotten_forgot {user other : String} (h : user ≠ other) (notes : List Note) :
    sinceForgotten user (forgot other :: notes) = forgot other :: sinceForgotten user notes := by
  simp [sinceForgotten, forgets, h]

end Note

/-! ## Steps -/

/-- What surrounds a question for a context. -/
structure Circumstances where
  /-- The rows as they are at the time. -/
  rules : RuleStore Read
  /-- The number of workers that read them. -/
  workers : Int
  /-- The time at which a context would be compiled. -/
  compiledAt : Double
  /-- The time of the cache. -/
  now : Double

/-- What compiling gives. -/
def Circumstances.compile (c : Circumstances) (user : String) : Except Fault SecurityContext :=
  SecurityContext.compile c.rules c.workers c.compiledAt user

/-- A store in the course of a run. -/
structure ServiceState (σ : Type) where
  /-- The store. -/
  store : σ
  /-- What happened so far, the latest first. -/
  notes : List Note

namespace ServiceState

variable {σ : Type} [CacheStore σ] (cache : ContextCache) (w : ServiceState σ)

/-- A question for a context. It is compiled if nothing is found in the cache. -/
def get (user : String) (c : Circumstances) : Except Fault SecurityContext × ServiceState σ :=
  let answer := (ContextService.get cache c.compile c.now user).run w.store
  (answer.1, ⟨answer.2, match ((ContextService.lookup cache c.now user).run w.store).1 with
    | .ok none => .compiled user (c.compile user) :: w.notes
    | _ => w.notes⟩)

/-- The context of one user is to be forgotten. -/
def invalidate (user : String) : Except Fault Unit × ServiceState σ :=
  let answer := (ContextCache.invalidate user).run w.store
  (answer.1, ⟨answer.2, match answer.1 with
    | .ok _ => .forgot user :: w.notes
    | .error _ => w.notes⟩)

/-- All contexts are to be forgotten. -/
def invalidateAll : Except Fault Nat × ServiceState σ :=
  let answer := ContextCache.invalidateAll.run w.store
  (answer.1, ⟨answer.2, match answer.1 with
    | .ok _ => .forgotAll :: w.notes
    | .error _ => w.notes⟩)

end ServiceState

/-- What can be asked of a service. -/
inductive Command
  /-- The context of a user. -/
  | get (user : String) (c : Circumstances)
  /-- To forget the context of a user. -/
  | invalidate (user : String)
  /-- To forget all contexts. -/
  | invalidateAll

/-- One step. -/
def Command.step {σ : Type} [CacheStore σ] (cache : ContextCache) (w : ServiceState σ) :
    Command → ServiceState σ
  | get user c => (w.get cache user c).2
  | invalidate user => (w.invalidate user).2
  | invalidateAll => w.invalidateAll.2

/-- A whole run. -/
def ServiceState.run {σ : Type} [CacheStore σ] (cache : ContextCache) (w : ServiceState σ)
    (commands : List Command) : ServiceState σ :=
  commands.foldl (Command.step cache) w

/-! ## The invariant -/

section Invariant

variable {σ : Type} [CacheStore σ] (laws : StoreLaws σ) (cache : ContextCache)
  {w : ServiceState σ} {user : String} {c : Circumstances}

/-- Whatever is kept for a user was compiled for this user since it was last forgotten. -/
def IsSound (kept : Kept) (notes : List Note) : Prop :=
  ∀ user payload, kept (ContextCache.keyFor user) = some payload →
    ∃ ctx, cache.decode payload = .ok ctx ∧
      .compiled user (.ok ctx) ∈ Note.sinceForgotten user notes

variable {laws cache} {kept kept' : Kept} {notes : List Note}

theorem IsSound.within (h : IsSound cache kept notes) (hwithin : kept'.Within kept) :
    IsSound cache kept' notes :=
  fun user payload hkept => h user payload (hwithin _ _ hkept)

theorem IsSound.compiled (h : IsSound cache kept notes) (other : String)
    (result : Except Fault SecurityContext) :
    IsSound cache kept (.compiled other result :: notes) := by
  intro user payload hkept
  obtain ⟨ctx, hctx, hmem⟩ := h user payload hkept
  exact ⟨ctx, hctx, List.mem_cons_of_mem _ hmem⟩

theorem keyFor_injective {user other : String}
    (h : ContextCache.keyFor user = ContextCache.keyFor other) : user = other :=
  (String.append_right_inj _).1 h

theorem startsWith_keyFor (user : String) :
    startsWith ContextCache.keyPrefix (ContextCache.keyFor user) = true := by
  rw [startsWith, ContextCache.keyFor, String.toList_append, List.isPrefixOf_iff_prefix]
  exact List.prefix_append _ _

/-- A context that was just compiled and can be read back may be written. -/
theorem IsSound.update (h : IsSound cache kept notes) {ctx : SecurityContext}
    {payload : Text.Octets} (hctx : cache.decode payload = .ok ctx)
    (hwithin : kept'.Within (Function.update kept (ContextCache.keyFor user) (some payload))) :
    IsSound cache kept' (.compiled user (.ok ctx) :: notes) := by
  intro other found hfound
  have hkept := hwithin _ _ hfound
  -- Different users have different keys, so nothing changes for the others.
  by_cases hother : other = user
  · subst hother
    rw [Function.update_self] at hkept
    cases hkept
    exact ⟨ctx, hctx, List.mem_cons_self⟩
  · rw [Function.update_of_ne fun hkey => hother (keyFor_injective hkey)] at hkept
    exact h.compiled user (.ok ctx) other found hkept

/-- A user's context that is not kept any more may be noted as forgotten. -/
theorem IsSound.forgot (h : IsSound cache kept notes)
    (hwithin : kept'.Within (Function.update kept (ContextCache.keyFor user) none)) :
    IsSound cache kept' (.forgot user :: notes) := by
  intro other found hfound
  have hkept := hwithin _ _ hfound
  have hother : other ≠ user := by
    rintro rfl
    rw [Function.update_self] at hkept
    cases hkept
  rw [Function.update_of_ne fun hkey => hother (keyFor_injective hkey)] at hkept
  obtain ⟨ctx, hctx, hmem⟩ := h other found hkept
  rw [Note.sinceForgotten_forgot hother]
  exact ⟨ctx, hctx, List.mem_cons_of_mem _ hmem⟩

/-- Without any context kept, all may be noted as forgotten. -/
theorem IsSound.forgotAll (hwithin : kept'.Within (kept.without ContextCache.keyPrefix)) :
    IsSound cache kept' (.forgotAll :: notes) := by
  intro user found hfound
  have hkept := hwithin _ _ hfound
  rw [Kept.without, startsWith_keyFor, if_pos rfl] at hkept
  cases hkept

/-! ## Every step -/

variable (user c) in
/-- A question is answered by a context that was compiled since the last time that it was
    forgotten and is not too old, or by compiling. -/
theorem get_cases (httl : Double.ofInt? cache.ttl ≠ none)
    (hsound : IsSound cache (laws.kept w.store) w.notes)
    (hrecovers : ∀ ctx, c.compile user = .ok ctx → cache.Recovers ctx) :
    IsSound cache (laws.kept (w.get cache user c).2.store) (w.get cache user c).2.notes ∧
    ((∃ ctx, (w.get cache user c).1 = .ok ctx ∧ (w.get cache user c).2.notes = w.notes ∧
        .compiled user (.ok ctx) ∈ Note.sinceForgotten user w.notes ∧
        cache.isStale c.now ctx = false) ∨
      ((w.get cache user c).1 = c.compile user ∧
        (w.get cache user c).2.notes = .compiled user (c.compile user) :: w.notes)) := by
  obtain ⟨found, s', hlookup, hwithin, hfound⟩ := lookup_cases laws cache user c.now
    fun payload h => (hsound user payload h).imp fun _ => And.left
  have hsound' := hsound.within hwithin
  rw [ServiceState.get]
  rw [hlookup]
  cases found with
  | some ctx =>
    have hget : (ContextService.get cache c.compile c.now user).run w.store = (.ok ctx, s') :=
      CacheM.run_bind_of_ok hlookup
    rw [hget]
    obtain ⟨hfresh, payload, hkept, hctx⟩ := hfound ctx rfl
    obtain ⟨ctx', hctx', hmem⟩ := hsound user payload hkept
    cases hctx.symm.trans hctx'
    exact ⟨hsound', .inl ⟨ctx, rfl, rfl, hmem, hfresh⟩⟩
  | none =>
    have hget : (ContextService.get cache c.compile c.now user).run w.store = _ :=
      CacheM.run_bind_of_ok hlookup
    rw [hget]
    dsimp only
    cases hcompile : c.compile user with
    | error e => exact ⟨hsound'.compiled user (.error e), .inr ⟨rfl, rfl⟩⟩
    | ok ctx =>
      obtain ⟨v, hv, hctx⟩ := hrecovers ctx hcompile
      obtain ⟨s'', hkeep, hkept⟩ := keep_cases laws cache user (s := s') c.now httl hv
      have hrun : (do ContextService.keep cache c.now user ctx; return ctx :
          CacheM σ SecurityContext).run s' = (.ok ctx, s'') := CacheM.run_bind_of_ok hkeep
      dsimp only
      rw [hrun]
      refine ⟨?_, .inr ⟨rfl, rfl⟩⟩
      rcases hkept with hkept | hkept
      · -- The write failed: what was kept before is still kept, and still what it was.
        exact (hsound'.within (hkept ▸ .refl _)).compiled user (.ok ctx)
      · exact hsound'.update hctx hkept

/-- Forgetting one context succeeds, or it fails as degraded and is not noted down. -/
theorem invalidate_cases (hsound : IsSound cache (laws.kept w.store) w.notes) (user : String) :
    IsSound cache (laws.kept (w.invalidate user).2.store) (w.invalidate user).2.notes ∧
    ((w.invalidate user).1 = .ok () ∧ (w.invalidate user).2.notes = .forgot user :: w.notes ∨
      ∃ e, (w.invalidate user).1 = .error e ∧ e.IsDegraded ∧
        (w.invalidate user).2.notes = w.notes) := by
  rw [ServiceState.invalidate]
  have heffect := laws.delete (ContextCache.keyFor user) w.store
  rcases hdelete : (ContextCache.invalidate user).run w.store with ⟨e | ⟨⟩, s'⟩
  · obtain ⟨he, hkept⟩ := heffect.error e s' hdelete
    exact ⟨hsound.within (hkept ▸ .refl _), .inr ⟨e, rfl, he, rfl⟩⟩
  · exact ⟨hsound.forgot (heffect.ok () s' hdelete), .inl ⟨rfl, rfl⟩⟩

/-- Forgetting all contexts succeeds, or it fails as degraded and is not noted down. -/
theorem invalidateAll_cases (hsound : IsSound cache (laws.kept w.store) w.notes) :
    IsSound cache (laws.kept w.invalidateAll.2.store) w.invalidateAll.2.notes ∧
    ((∃ n, w.invalidateAll.1 = .ok n ∧ w.invalidateAll.2.notes = .forgotAll :: w.notes) ∨
      ∃ e, w.invalidateAll.1 = .error e ∧ e.IsDegraded ∧
        w.invalidateAll.2.notes = w.notes) := by
  rw [ServiceState.invalidateAll]
  have heffect := laws.deletePrefix w.store
  rcases hdelete : ContextCache.invalidateAll.run w.store with ⟨e | n, s'⟩
  · obtain ⟨he, hkept⟩ := heffect.error e s' hdelete
    exact ⟨hsound.within (hkept ▸ .refl _), .inr ⟨e, rfl, he, rfl⟩⟩
  · exact ⟨.forgotAll (heffect.ok n s' hdelete), .inl ⟨n, rfl, rfl⟩⟩

/-! ## Whole runs -/

/-- Whether every context that a command compiles is read back as it was written. -/
def Command.Recovers (cache : ContextCache) : Command → Prop
  | get user c => ∀ ctx, c.compile user = .ok ctx → cache.Recovers ctx
  | _ => True

theorem isSound_step (httl : Double.ofInt? cache.ttl ≠ none)
    (hsound : IsSound cache (laws.kept w.store) w.notes) (command : Command)
    (hrecovers : command.Recovers cache) :
    IsSound cache (laws.kept (command.step cache w).store) (command.step cache w).notes := by
  cases command with
  | get user c => exact (get_cases user c httl hsound hrecovers).1
  | invalidate user => exact (invalidate_cases hsound user).1
  | invalidateAll => exact (invalidateAll_cases hsound).1

/-- The invariant holds throughout every run. -/
theorem isSound_run (httl : Double.ofInt? cache.ttl ≠ none)
    (hsound : IsSound cache (laws.kept w.store) w.notes) (commands : List Command)
    (hrecovers : ∀ command ∈ commands, command.Recovers cache) :
    IsSound cache (laws.kept (w.run cache commands).store) (w.run cache commands).notes := by
  induction commands generalizing w with
  | nil => exact hsound
  | cons command commands ih =>
    -- The invariant is about any state, so the rest of the run starts from the next one.
    rw [List.forall_mem_cons] at hrecovers
    exact ih (isSound_step httl hsound command hrecovers.1) hrecovers.2

theorem isSound_of_empty {s : σ} (h : CacheStore.keys s = []) :
    IsSound cache (laws.kept s) [] := by
  intro user payload hkept
  have hkey := laws.keys s _ _ hkept
  rw [h] at hkey
  exact absurd hkey List.not_mem_nil

end Invariant

end StaffAccess

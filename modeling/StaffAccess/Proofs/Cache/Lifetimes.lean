import StaffAccess.Proofs.Cache.Freshness
import StaffAccess.Proofs.Cache.Operations
import StaffAccess.Proofs.Context.RoundTrip
import Mathlib.Data.Finset.Preimage

/-!
# Lifetimes of cached contexts

What a cache within the program answers after any run of commands. The context of a user is found
exactly if it is the one that was put last, was not forgotten since, and neither its lifetime is
over nor has it become too old. Two clocks are at work here: a lifetime starts when a context is
put, and an age when the context was made.

An entry whose lifetime is over stays until somebody looks for it, so what the store holds is not
what is found. The store mirrors the commands instead: it has an entry for what was put last,
unless that was forgotten or looked for in vain. Every command extends this by itself.

Times are compared as exact numbers of seconds, so the sums and differences of those that occur
have to be numbers that need not be rounded.

* `Since`: a command, and what all later ones satisfy.
* `Mirrors`: the entries that some commands leave behind.
* `Mirrors.execute`, `Mirrors.run`: one command more, and many.
* `KeepsLifetimes`: what is answered, with `run_keepsLifetimes`.
-/

namespace StaffAccess

/-! ## Exact numbers -/

namespace Double

/-- The number that a double stands for. Infinities and NaN stand for none and have the value
    zero here. -/
def value : Double → ℚ
  | finite s u => signed s u / one
  | _ => 0

/-- Whether a double stands for some number. -/
def IsExactly (d : Double) (q : ℚ) : Prop := d.IsFinite ∧ d.value = q

variable {a b : Double}

theorem le_iff_value_le (ha : a.IsFinite) (hb : b.IsFinite) :
    a.le b = true ↔ a.value ≤ b.value := by
  obtain ⟨s, m, rfl⟩ := ha
  obtain ⟨t, n, rfl⟩ := hb
  have hone : (0 : ℚ) < one := Nat.cast_pos.2 Double.one_pos
  show (!decide (signed t n < signed s m)) = true ↔ (signed s m / one : ℚ) ≤ signed t n / one
  rw [div_le_div_iff_of_pos_right hone, Int.cast_le]
  simp

theorem not_le_iff_value_lt (ha : a.IsFinite) (hb : b.IsFinite) :
    a.le b = false ↔ b.value < a.value := by
  rw [← not_le, ← le_iff_value_le ha hb, Bool.not_eq_true]

end Double

/-! ## Commands -/

/-- What can be asked of a cache. -/
inductive CacheCommand
  /-- To keep a context, for some seconds if that is given. -/
  | put (now : Double) (user : String) (ctx : SecurityContext) (ttl? : Option Int)
  /-- The context of a user. -/
  | get (now : Double) (user : String)
  /-- To forget the context of a user. -/
  | invalidate (user : String)
  /-- To forget all contexts. -/
  | invalidateAll

namespace CacheCommand

/-- One command. -/
def execute (cache : ContextCache) : CacheCommand → CacheM MemoryStore Unit
  | put now user ctx ttl? => cache.put now user ctx ttl?
  | get now user => do let _ ← cache.get now user
  | invalidate user => ContextCache.invalidate user
  | invalidateAll => do let _ ← ContextCache.invalidateAll

/-- Some commands, one after the other. -/
def run (cache : ContextCache) (commands : List CacheCommand) : CacheM MemoryStore Unit :=
  commands.forM (execute cache)

/-- Whether a command is about a key. -/
def Concerns (key : String) : CacheCommand → Prop
  | put _ user _ _ => ContextCache.keyFor user = key
  | get _ user => ContextCache.keyFor user = key
  | invalidate user => ContextCache.keyFor user = key
  | invalidateAll => startsWith ContextCache.keyPrefix key = true

/-- The user whom a command is about, if it is about one. -/
def user? : CacheCommand → Option String
  | put _ user _ _ => some user
  | get _ user => some user
  | invalidate user => some user
  | invalidateAll => none

/-- Whether a command leaves in force what was put for a user. -/
def Spares (user : String) : CacheCommand → Prop
  | put _ other _ _ => other ≠ user
  | get _ _ => True
  | invalidate other => other ≠ user
  | invalidateAll => False

/-- Whether a command leaves what was put for a user in the store. Looking for it at the end of
    its lifetime or later does not. -/
def Leaves (user : String) (expiry : ℚ) : CacheCommand → Prop
  | get now other => other = user → now.value < expiry
  | command => command.Spares user

/-- Whether the times of a command are numbers and what is put can be written. The end of a
    lifetime is one of the numbers that there are, so that it need not be rounded. -/
def IsExact (cache : ContextCache) : CacheCommand → Prop
  | put now _ ctx ttl? => ctx.IsJson ∧
      ∃ seconds, Double.ofInt? (ttl?.getD cache.ttl) = some seconds ∧
        (now.add seconds).IsExactly (now.value + ttl?.getD cache.ttl)
  | get now _ => now.IsFinite
  | _ => True

variable {cache : ContextCache} {command : CacheCommand} {key user : String}
  {store : MemoryStore} {e : MemoryEntry}

/-- Only what a command is about changes, even if the command fails. -/
theorem get?_execute (h : ¬command.Concerns key) (store : MemoryStore) :
    ((command.execute cache).run store).2.entries.get? key = store.entries.get? key := by
  cases command with
  | put now user ctx ttl? =>
    have hne : key ≠ ContextCache.keyFor user := Ne.symm h
    rw [execute, ContextCache.put]
    cases ctx.toValue with
    | error e => rfl
    | ok v =>
      dsimp only
      rw [StoreLaws.set_eq_keepUntil]
      beta_reduce
      cases Double.ofInt? (ttl?.getD cache.ttl) with
      | none => rfl
      | some seconds => exact OrderedMap.get?_put_of_ne _ _ hne
  | get now user =>
    have hrest : ((cache.get now user).run store).2.entries.get? key = store.entries.get? key :=
      ContextCache.get?_run_get_of_ne (Ne.symm h)
    rcases hget : (cache.get now user).run store with ⟨fault | found, s⟩
    · rw [show (execute cache (get now user)).run store = _ from CacheM.run_bind_of_error hget]
      rwa [hget] at hrest
    · rw [show (execute cache (get now user)).run store = _ from CacheM.run_bind_of_ok hget]
      rwa [hget] at hrest
  | invalidate user => exact OrderedMap.get?_erase_of_ne _ (Ne.symm h)
  | invalidateAll =>
    exact OrderedMap.get?_filter_of_forall fun _ => by simpa [Concerns] using h

theorem concerns_keyFor_put {now : Double} {other : String} {ctx : SecurityContext}
    {ttl? : Option Int} (h : (put now other ctx ttl?).Concerns (ContextCache.keyFor user)) :
    other = user := keyFor_injective h

theorem not_concerns_of_ne {other : String} (hcommand : command.user? = some other)
    (h : other ≠ user) : ¬command.Concerns (ContextCache.keyFor user) := by
  cases command with
  | invalidateAll => cases hcommand
  | _ => cases hcommand; exact fun he => h (keyFor_injective he)

/-- The keys that commands are about are those of users. -/
theorem startsWith_of_concerns (h : command.Concerns key) :
    startsWith ContextCache.keyPrefix key = true := by
  cases command with
  | invalidateAll => exact h
  | _ => exact h ▸ startsWith_keyFor _

theorem Leaves.spares {expiry : ℚ} (h : command.Leaves user expiry) : command.Spares user := by
  cases command with
  | get now other => trivial
  | _ => exact h

theorem leaves_of_not_concerns (h : ¬command.Concerns (ContextCache.keyFor user)) (expiry : ℚ) :
    command.Leaves user expiry := by
  cases command with
  | put now other ctx ttl? => exact fun he => h (congrArg ContextCache.keyFor he)
  | get now other => exact fun he => absurd (congrArg ContextCache.keyFor he) h
  | invalidate other => exact fun he => h (congrArg ContextCache.keyFor he)
  | invalidateAll => exact h (startsWith_keyFor user)

/-- What is put can be read again, and has an end. -/
theorem IsExact.exists_entry {now : Double} {ctx : SecurityContext} {ttl? : Option Int}
    (hformat : cache.format = .json) (h : (put now user ctx ttl?).IsExact cache) :
    ∃ e, cache.entryFor? now ctx ttl? = some e ∧ cache.decode e.payload = .ok ctx ∧
      e.expiresAt.IsExactly (now.value + ttl?.getD cache.ttl) := by
  obtain ⟨hjson, seconds, hseconds, hexpiry⟩ := h
  obtain ⟨v, hv, hdecode⟩ := SecurityContext.decode_encode hjson
  refine ⟨⟨cache.format.encode v, now.add seconds⟩, ?_, ?_, hexpiry⟩
  · rw [ContextCache.entryFor?, hv, hseconds]
  · rw [ContextCache.decode, hformat]
    exact hdecode

end CacheCommand

/-! ## Runs -/

/-- Whether a command is among some commands, and all later ones satisfy a condition. -/
def Since (commands : List CacheCommand) (command : CacheCommand) (p : CacheCommand → Prop) :
    Prop :=
  ∃ before after, commands = before ++ command :: after ∧ ∀ later ∈ after, p later

section Since

variable {commands : List CacheCommand} {command last : CacheCommand} {p : CacheCommand → Prop}

theorem since_concat :
    Since (commands ++ [last]) command p ↔ last = command ∨ Since commands command p ∧ p last := by
  constructor
  · rintro ⟨before, after, h, hafter⟩
    rcases List.eq_nil_or_concat' after with rfl | ⟨after, final, rfl⟩
    · obtain ⟨-, hlast⟩ := List.append_inj' h rfl
      exact .inl (List.singleton_inj.1 hlast)
    · rw [← List.cons_append, ← List.append_assoc] at h
      obtain ⟨rfl, hlast⟩ := List.append_inj' h rfl
      obtain ⟨hearlier, hfinal⟩ := List.forall_mem_append.1 hafter
      rw [List.singleton_inj.1 hlast]
      exact .inr ⟨⟨before, after, rfl, hearlier⟩, hfinal _ (List.mem_singleton_self _)⟩
  · rintro (rfl | ⟨⟨before, after, rfl, hafter⟩, hlast⟩)
    · exact ⟨commands, [], rfl, nofun⟩
    · refine ⟨before, after ++ [last], by rw [List.append_assoc, List.cons_append], ?_⟩
      exact List.forall_mem_append.2 ⟨hafter, List.forall_mem_singleton.2 hlast⟩

theorem Since.imp {q : CacheCommand → Prop} (h : Since commands command p)
    (hpq : ∀ c ∈ commands, p c → q c) : Since commands command q := by
  obtain ⟨before, after, rfl, hafter⟩ := h
  refine ⟨before, after, rfl, fun later hlater => hpq later ?_ (hafter later hlater)⟩
  exact List.mem_append_right _ (List.mem_cons_of_mem _ hlater)

theorem Since.mem (h : Since commands command p) : command ∈ commands := by
  obtain ⟨before, after, rfl, -⟩ := h
  exact List.mem_append_right _ List.mem_cons_self

end Since

/-- Whether an entry is for the last context that was put for a user, and is still there. -/
def IsHeld (cache : ContextCache) (commands : List CacheCommand) (user : String)
    (e : MemoryEntry) : Prop :=
  ∃ now ctx ttl?, Since commands (.put now user ctx ttl?)
      (CacheCommand.Leaves user (now.value + (ttl?.getD cache.ttl : ℤ))) ∧
    cache.entryFor? now ctx ttl? = some e

/-- The entries for users in a store are those that some commands leave there. -/
def Mirrors (cache : ContextCache) (commands : List CacheCommand) (store : MemoryStore) : Prop :=
  ∀ user e, store.entries.get? (ContextCache.keyFor user) = some e ↔ IsHeld cache commands user e

section Runs

variable {cache : ContextCache} {commands : List CacheCommand} {command : CacheCommand}
  {user : String} {store : MemoryStore} {e : MemoryEntry}

theorem expiresAt_eq (hformat : cache.format = .json) {now : Double} {ctx : SecurityContext}
    {ttl? : Option Int} (hput : (CacheCommand.put now user ctx ttl?).IsExact cache)
    (he : cache.entryFor? now ctx ttl? = some e) :
    cache.decode e.payload = .ok ctx ∧
      e.expiresAt.IsExactly (now.value + ttl?.getD cache.ttl) := by
  obtain ⟨e', he', hentry⟩ := hput.exists_entry hformat
  cases he.symm.trans he'
  exact hentry

theorem isHeld_concat (hformat : cache.format = .json)
    (hexact : ∀ c ∈ commands ++ [command], c.IsExact cache) :
    IsHeld cache (commands ++ [command]) user e ↔
      (∃ now ctx ttl?, command = .put now user ctx ttl? ∧ cache.entryFor? now ctx ttl? = some e) ∨
        IsHeld cache commands user e ∧ command.Leaves user e.expiresAt.value := by
  constructor
  · rintro ⟨now, ctx, ttl?, hsince, he⟩
    have hexpiry := (expiresAt_eq hformat (hexact _ hsince.mem) he).2.2
    rcases since_concat.1 hsince with rfl | ⟨hsince, hleaves⟩
    · exact .inl ⟨now, ctx, ttl?, rfl, he⟩
    · exact .inr ⟨⟨now, ctx, ttl?, hsince, he⟩, hexpiry ▸ hleaves⟩
  · rintro (⟨now, ctx, ttl?, rfl, he⟩ | ⟨⟨now, ctx, ttl?, hsince, he⟩, hleaves⟩)
    · exact ⟨now, ctx, ttl?, since_concat.2 (.inl rfl), he⟩
    · have hput := hexact _ (List.mem_append_left _ hsince.mem)
      have hexpiry := (expiresAt_eq hformat hput he).2.2
      exact ⟨now, ctx, ttl?, since_concat.2 (.inr ⟨hsince, hexpiry ▸ hleaves⟩), he⟩

theorem IsHeld.isReadable (hformat : cache.format = .json)
    (hexact : ∀ c ∈ commands, c.IsExact cache) (h : IsHeld cache commands user e) :
    (∃ ctx, cache.decode e.payload = .ok ctx) ∧ e.expiresAt.IsFinite := by
  obtain ⟨now, ctx, ttl?, hsince, he⟩ := h
  obtain ⟨hdecode, hexpiry⟩ := expiresAt_eq hformat (hexact _ hsince.mem) he
  exact ⟨⟨ctx, hdecode⟩, hexpiry.1⟩

/-- What a command does to the entry of a user whom it is about. -/
theorem exists_run_execute (hformat : cache.format = .json) (hexact : command.IsExact cache)
    (hread : ∀ user e, store.entries.get? (ContextCache.keyFor user) = some e →
      (∃ ctx, cache.decode e.payload = .ok ctx) ∧ e.expiresAt.IsFinite) :
    ∃ store', (command.execute cache).run store = (.ok (), store') ∧
      ∀ user e, command.Concerns (ContextCache.keyFor user) →
        (store'.entries.get? (ContextCache.keyFor user) = some e ↔
          (∃ now ctx ttl?, command = .put now user ctx ttl? ∧
              cache.entryFor? now ctx ttl? = some e) ∨
            store.entries.get? (ContextCache.keyFor user) = some e ∧
              command.Leaves user e.expiresAt.value) := by
  cases command with
  | put now other ctx ttl? =>
    obtain ⟨kept, hkept, -⟩ := hexact.exists_entry hformat
    refine ⟨_, ContextCache.run_put_of_entry hkept, fun user e hconcerns => ?_⟩
    obtain rfl := CacheCommand.concerns_keyFor_put hconcerns
    rw [MemoryStore.keep, OrderedMap.get?_put_self, ← hkept]
    refine ⟨fun h => .inl ⟨now, ctx, ttl?, rfl, h⟩, ?_⟩
    rintro (⟨_, _, _, ⟨⟩, h⟩ | ⟨-, hleaves⟩)
    · exact h
    · exact absurd rfl hleaves
  | get now other =>
    have hnow : now.IsFinite := hexact
    obtain ⟨answer, hget⟩ := ContextCache.exists_run_get fun e he => (hread other e he).1
    refine ⟨_, CacheM.run_bind_of_ok hget, fun user e hconcerns => ?_⟩
    obtain rfl := keyFor_injective hconcerns
    rw [or_iff_right (by rintro ⟨_, _, _, ⟨⟩, _⟩), MemoryStore.get?_lookup_self_iff]
    refine and_congr_right fun he => ?_
    rw [Double.not_le_iff_value_lt (hread _ e he).2 hnow]
    exact ⟨fun h _ => h, fun h => h rfl⟩
  | invalidate other =>
    refine ⟨_, rfl, fun user e hconcerns => ?_⟩
    obtain rfl := keyFor_injective hconcerns
    rw [or_iff_right (by rintro ⟨_, _, _, ⟨⟩, _⟩), MemoryStore.remove,
      OrderedMap.get?_erase_self]
    exact ⟨fun h => (by cases h), fun h => absurd rfl h.2⟩
  | invalidateAll =>
    refine ⟨_, rfl, fun user e hconcerns => ?_⟩
    rw [or_iff_right (by rintro ⟨_, _, _, ⟨⟩, _⟩)]
    refine ⟨fun h => ?_, fun h => h.2.elim⟩
    have hother := (OrderedMap.get?_filter_eq_some_iff.1 h).2
    rw [startsWith_keyFor] at hother
    cases hother

/-- One command more. -/
theorem Mirrors.execute (hformat : cache.format = .json) (h : Mirrors cache commands store)
    (hexact : ∀ c ∈ commands ++ [command], c.IsExact cache) :
    ∃ store', (command.execute cache).run store = (.ok (), store') ∧
      Mirrors cache (commands ++ [command]) store' := by
  have hpast : ∀ c ∈ commands, c.IsExact cache := fun c hc => hexact c (List.mem_append_left _ hc)
  obtain ⟨store', hrun, hconcerned⟩ := exists_run_execute hformat
    (hexact command (List.mem_append_right _ (List.mem_singleton_self _)))
    fun user e he => ((h user e).1 he).isReadable hformat hpast
  refine ⟨store', hrun, fun user e => ?_⟩
  rw [isHeld_concat hformat hexact, ← h user e]
  -- A command that is not about the user leaves the entry, and is no reason for it to go.
  by_cases hconcerns : command.Concerns (ContextCache.keyFor user)
  · exact hconcerned user e hconcerns
  · have hsame : ((command.execute cache).run store).2.entries.get? (ContextCache.keyFor user) =
        store.entries.get? (ContextCache.keyFor user) :=
      CacheCommand.get?_execute hconcerns store
    rw [hrun] at hsame
    rw [hsame, or_iff_right, and_iff_left (CacheCommand.leaves_of_not_concerns hconcerns _)]
    rintro ⟨now, ctx, ttl?, rfl, -⟩
    exact hconcerns rfl

/-- The commands that are still to come. -/
theorem Mirrors.run (hformat : cache.format = .json) {rest : List CacheCommand}
    (h : Mirrors cache commands store) (hexact : ∀ c ∈ commands ++ rest, c.IsExact cache) :
    ∃ store', (CacheCommand.run cache rest).run store = (.ok (), store') ∧
      Mirrors cache (commands ++ rest) store' := by
  induction rest generalizing commands store with
  | nil => exact ⟨store, rfl, by rwa [List.append_nil]⟩
  | cons command rest ih =>
    -- The next store mirrors one command more, so the rest of the run starts from there.
    rw [List.append_cons] at hexact ⊢
    obtain ⟨next, hexecute, hnext⟩ := h.execute hformat fun c hc =>
      hexact c (List.mem_append_left _ hc)
    obtain ⟨store', hrun, hmirrors⟩ := ih hnext hexact
    exact ⟨store', (CacheM.run_bind_of_ok hexecute).trans hrun, hmirrors⟩

theorem mirrors_empty : Mirrors cache [] {} := by
  intro user e
  refine ⟨nofun, ?_⟩
  rintro ⟨_, _, _, hsince, -⟩
  exact absurd hsince.mem List.not_mem_nil

/-- Keys of no user are left alone by every run. -/
theorem get?_run {key : String} (hkey : startsWith ContextCache.keyPrefix key = false)
    (store : MemoryStore) :
    ((CacheCommand.run cache commands).run store).2.entries.get? key = store.entries.get? key := by
  induction commands generalizing store with
  | nil => rfl
  | cons command commands ih =>
    have hconcerns : ¬command.Concerns key := fun h => by
      rw [CacheCommand.startsWith_of_concerns h] at hkey
      cases hkey
    have hexecute : ((command.execute cache).run store).2.entries.get? key =
        store.entries.get? key := CacheCommand.get?_execute hconcerns store
    rcases hrun : (command.execute cache).run store with ⟨fault | ⟨⟩, next⟩
    · rw [show (CacheCommand.run cache (command :: commands)).run store = _ from
        CacheM.run_bind_of_error hrun]
      rwa [hrun] at hexecute
    · rw [show (CacheCommand.run cache (command :: commands)).run store = _ from
        CacheM.run_bind_of_ok hrun]
      rw [hrun] at hexecute
      exact (ih next).trans hexecute

end Runs

/-! ## What a run answers -/

/-- Whether a time comes after some commands: the clock has not gone back since. The age of what
    was put is one of the numbers that there are. -/
structure Follows (commands : List CacheCommand) (now : Double) : Prop where
  isFinite : now.IsFinite
  later : ∀ t user, .get t user ∈ commands → t.value ≤ now.value
  age : ∀ t user ctx ttl?, .put t user ctx ttl? ∈ commands →
    (now.sub ctx.lastUpdated).IsExactly (now.value - ctx.lastUpdated.value)

/-- What a cache answers after some commands. Times and lifetimes are compared as exact numbers of
    seconds. -/
structure KeepsLifetimes (cache : ContextCache) (commands : List CacheCommand)
    (store : MemoryStore) : Prop where
  /-- A context is found exactly if it was the last one that was put for the user, was not
      forgotten since, and neither its lifetime is over nor has it become too old. -/
  answers : ∀ now, Follows commands now → ∀ user, ∃ answer store',
    (cache.get now user).run store = (.ok answer, store') ∧ ∀ ctx,
      answer = some ctx ↔ ∃ t ttl?,
        Since commands (.put t user ctx ttl?) (CacheCommand.Spares user) ∧
        now.value < t.value + (ttl?.getD cache.ttl : ℤ) ∧
        now.value - ctx.lastUpdated.value < cache.maxAge.value
  /-- The users are counted for whom what was put last was neither forgotten nor found to be at
      the end of its lifetime. -/
  counts : ∃ (users : Finset String) (store' : MemoryStore),
    ContextCache.invalidateAll.run store = (.ok users.card, store') ∧
    ∀ user, user ∈ users ↔ ∃ t ctx ttl?, Since commands (.put t user ctx ttl?)
      (CacheCommand.Leaves user (t.value + (ttl?.getD cache.ttl : ℤ)))

section Answers

variable {cache : ContextCache} {commands : List CacheCommand} {command : CacheCommand}
  {user : String} {store : MemoryStore} {e : MemoryEntry} {now : Double}

theorem Follows.leaves (hnow : Follows commands now) {expiry : ℚ} (h : now.value < expiry)
    (hcommand : command ∈ commands) (hspares : command.Spares user) :
    command.Leaves user expiry := by
  cases command with
  | get t other => exact fun _ => (hnow.later t other hcommand).trans_lt h
  | _ => exact hspares

/-- A context that was put last and whose lifetime is not over is still there. -/
theorem exists_get?_of_since (hformat : cache.format = .json) (h : Mirrors cache commands store)
    (hexact : ∀ c ∈ commands, c.IsExact cache) (hnow : Follows commands now) {t : Double}
    {ctx : SecurityContext} {ttl? : Option Int}
    (hsince : Since commands (.put t user ctx ttl?) (CacheCommand.Spares user))
    (hend : now.value < t.value + (ttl?.getD cache.ttl : ℤ)) :
    ∃ e, store.entries.get? (ContextCache.keyFor user) = some e ∧
      cache.decode e.payload = .ok ctx ∧ e.expiresAt.le now = false := by
  obtain ⟨e, he, hdecode, hexpiry⟩ := (hexact _ hsince.mem).exists_entry hformat
  refine ⟨e, (h user e).2 ⟨t, ctx, ttl?, hsince.imp fun _ => hnow.leaves hend, he⟩, hdecode, ?_⟩
  rw [Double.not_le_iff_value_lt hexpiry.1 hnow.isFinite, hexpiry.2]
  exact hend

theorem not_isStale_iff (hmaxAge : cache.maxAge.IsFinite) {ctx : SecurityContext}
    (hage : (now.sub ctx.lastUpdated).IsExactly (now.value - ctx.lastUpdated.value)) :
    cache.isStale now ctx = false ↔ now.value - ctx.lastUpdated.value < cache.maxAge.value := by
  rw [ContextCache.isStale, Double.not_le_iff_value_lt hmaxAge hage.1, hage.2]

theorem Mirrors.answers (hformat : cache.format = .json) (hmaxAge : cache.maxAge.IsFinite)
    (h : Mirrors cache commands store) (hexact : ∀ c ∈ commands, c.IsExact cache)
    (hnow : Follows commands now) (user : String) :
    ∃ answer store', (cache.get now user).run store = (.ok answer, store') ∧ ∀ ctx,
      answer = some ctx ↔ ∃ t ttl?,
        Since commands (.put t user ctx ttl?) (CacheCommand.Spares user) ∧
        now.value < t.value + (ttl?.getD cache.ttl : ℤ) ∧
        now.value - ctx.lastUpdated.value < cache.maxAge.value := by
  -- Whatever is found has to be the entry that is there.
  cases hentry : store.entries.get? (ContextCache.keyFor user) with
  | none =>
    refine ⟨none, _, ContextCache.run_get_of_none hentry, fun ctx => ⟨nofun, ?_⟩⟩
    rintro ⟨t, ttl?, hsince, hend, -⟩
    obtain ⟨e, he, -⟩ := exists_get?_of_since hformat h hexact hnow hsince hend
    cases hentry.symm.trans he
  | some e =>
    cases hover : e.expiresAt.le now with
    | true =>
      refine ⟨none, _, ContextCache.run_get_of_over hentry hover, fun ctx => ⟨nofun, ?_⟩⟩
      rintro ⟨t, ttl?, hsince, hend, -⟩
      obtain ⟨e', he', -, hkept⟩ := exists_get?_of_since hformat h hexact hnow hsince hend
      cases hentry.symm.trans he'
      cases hover.symm.trans hkept
    | false =>
      obtain ⟨t, ctx, ttl?, hsince, he⟩ := (h user e).1 hentry
      obtain ⟨hdecode, hexpiry⟩ := expiresAt_eq hformat (hexact _ hsince.mem) he
      refine ⟨_, _, ContextCache.run_get_of_kept hentry hover hdecode, fun ctx' => ?_⟩
      rw [Option.ite_none_left_eq_some, Bool.not_eq_true]
      constructor
      · rintro ⟨hfresh, ⟨⟩⟩
        refine ⟨t, ttl?, hsince.imp fun _ _ => CacheCommand.Leaves.spares, ?_,
          (not_isStale_iff hmaxAge (hnow.age _ _ _ _ hsince.mem)).1 hfresh⟩
        rw [← hexpiry.2]
        exact (Double.not_le_iff_value_lt hexpiry.1 hnow.isFinite).1 hover
      · rintro ⟨t', ttl?', hsince', hend, hage⟩
        obtain ⟨e', he', hdecode', -⟩ := exists_get?_of_since hformat h hexact hnow hsince' hend
        cases hentry.symm.trans he'
        cases hdecode.symm.trans hdecode'
        exact ⟨(not_isStale_iff hmaxAge (hnow.age _ _ _ _ hsince'.mem)).2 hage, rfl⟩

theorem exists_keyFor {key : String} (h : startsWith ContextCache.keyPrefix key = true) :
    ∃ user, ContextCache.keyFor user = key := by
  rw [startsWith, List.isPrefixOf_iff_prefix] at h
  obtain ⟨rest, hrest⟩ := h
  refine ⟨String.ofList rest, ?_⟩
  rw [← String.toList_inj, ContextCache.keyFor, String.toList_append, String.toList_ofList, hrest]

/-- Forgetting all contexts counts the users who have an entry. -/
theorem exists_users (store : MemoryStore) : ∃ (users : Finset String) (store' : MemoryStore),
    ContextCache.invalidateAll.run store = (.ok users.card, store') ∧
    ∀ user, user ∈ users ↔ ∃ e, store.entries.get? (ContextCache.keyFor user) = some e := by
  classical
  have hinjective : Function.Injective ContextCache.keyFor := fun _ _ => keyFor_injective
  have hnodup : (store.entries.keys.filter (startsWith ContextCache.keyPrefix)).Nodup :=
    (SecurityContext.nodup_names store.entries).filter _
  have hkeys : ∀ key ∈ (store.entries.keys.filter (startsWith ContextCache.keyPrefix)).toFinset,
      key ∈ Set.range ContextCache.keyFor := fun key hkey =>
    exists_keyFor (List.mem_filter.1 (List.mem_toFinset.1 hkey)).2
  refine ⟨(store.entries.keys.filter (startsWith ContextCache.keyPrefix)).toFinset.preimage
    ContextCache.keyFor hinjective.injOn, (store.removeAll ContextCache.keyPrefix).2, ?_,
    fun user => ?_⟩
  · rw [Finset.card_preimage, Finset.filter_true_of_mem hkeys,
      List.toFinset_card_of_nodup hnodup]
    rfl
  · rw [Finset.mem_preimage, List.mem_toFinset, List.mem_filter,
      and_iff_left (startsWith_keyFor user), OrderedMap.mem_keys_iff]

theorem Mirrors.counts (hformat : cache.format = .json) (h : Mirrors cache commands store)
    (hexact : ∀ c ∈ commands, c.IsExact cache) :
    ∃ (users : Finset String) (store' : MemoryStore),
      ContextCache.invalidateAll.run store = (.ok users.card, store') ∧
      ∀ user, user ∈ users ↔ ∃ t ctx ttl?, Since commands (.put t user ctx ttl?)
        (CacheCommand.Leaves user (t.value + (ttl?.getD cache.ttl : ℤ))) := by
  obtain ⟨users, store', hrun, hmem⟩ := exists_users store
  refine ⟨users, store', hrun, fun user => (hmem user).trans ⟨?_, ?_⟩⟩
  · rintro ⟨e, he⟩
    obtain ⟨t, ctx, ttl?, hsince, -⟩ := (h user e).1 he
    exact ⟨t, ctx, ttl?, hsince⟩
  · rintro ⟨t, ctx, ttl?, hsince⟩
    obtain ⟨e, he, -⟩ := (hexact _ hsince.mem).exists_entry hformat
    exact ⟨e, (h user e).2 ⟨t, ctx, ttl?, hsince, he⟩⟩

end Answers

/-- Every run that starts with an empty store goes through and keeps the lifetimes. From whatever
    store, what is done for one user does not change what is found for another one, and keys of
    no user are left alone. -/
theorem run_keepsLifetimes {cache : ContextCache} (hformat : cache.format = .json)
    (hmaxAge : cache.maxAge.IsFinite) {commands : List CacheCommand}
    (hexact : ∀ command ∈ commands, command.IsExact cache) :
    (∃ store, (CacheCommand.run cache commands).run {} = (.ok (), store) ∧
      KeepsLifetimes cache commands store) ∧
    (∀ (command : CacheCommand) (other user : String), command.user? = some other →
      other ≠ user → ∀ (now : Double) (store : MemoryStore),
        ((cache.get now user).run ((command.execute cache).run store).2).1 =
          ((cache.get now user).run store).1) ∧
    ∀ (commands : List CacheCommand) (key : String),
      startsWith ContextCache.keyPrefix key = false → ∀ store : MemoryStore,
        ((CacheCommand.run cache commands).run store).2.entries.get? key =
          store.entries.get? key := by
  refine ⟨?_, ?_, fun commands key hkey store => get?_run hkey store⟩
  · obtain ⟨store, hrun, hmirrors⟩ : ∃ store,
        (CacheCommand.run cache commands).run {} = (.ok (), store) ∧
          Mirrors cache commands store := mirrors_empty.run hformat hexact
    exact ⟨store, hrun, fun now hnow => hmirrors.answers hformat hmaxAge hexact hnow,
      hmirrors.counts hformat hexact⟩
  · intro command other user hcommand hne now store
    exact ContextCache.run_get_congr
      (CacheCommand.get?_execute (CacheCommand.not_concerns_of_ne hcommand hne) store)

/-! ### Two heads of units -/

/-- A number of whole seconds. -/
def Double.seconds (n : Nat) : Double := .finite false (n * one)

theorem Double.value_seconds (n : Nat) : (seconds n).value = n := by
  have hone : (one : ℚ) ≠ 0 := Nat.cast_ne_zero.2 Double.one_pos.ne'
  rw [seconds, value, signed, if_neg Bool.false_ne_true]
  push_cast
  exact mul_div_cancel_right₀ _ hone

theorem Double.seconds_isExactly (n : Nat) : (seconds n).IsExactly n :=
  ⟨⟨_, _, rfl⟩, value_seconds n⟩

/-- Both are put at the same time, and the second one is looked for when its minute is over. -/
def headCommands : List CacheCommand :=
  [.put (.seconds 1000) "u1" .headOfUnit none, .put (.seconds 1000) "u2" .headOfUnit (some 60),
    .get (.seconds 1060) "u2"]

theorem headCommands_isExact : ∀ command ∈ headCommands, command.IsExact {} := by
  have hhour : (Double.seconds 1000).add (.seconds 3600) = .seconds 4600 := by decide +kernel
  have hminute : (Double.seconds 1000).add (.seconds 60) = .seconds 1060 := by decide +kernel
  intro command hcommand
  simp only [headCommands, List.mem_cons, List.not_mem_nil, or_false] at hcommand
  rcases hcommand with rfl | rfl | rfl
  · refine ⟨SecurityContext.headOfUnit_isJson, .seconds 3600, by decide +kernel, ?_⟩
    rw [hhour, Double.value_seconds]
    convert Double.seconds_isExactly 4600 using 1
    norm_num
  · refine ⟨SecurityContext.headOfUnit_isJson, .seconds 60, by decide +kernel, ?_⟩
    rw [hminute, Double.value_seconds]
    convert Double.seconds_isExactly 1060 using 1
    norm_num
  · exact ⟨_, _, rfl⟩

theorem eq_of_put_mem_headCommands {t : Double} {user : String} {ctx : SecurityContext}
    {ttl? : Option Int} (h : .put t user ctx ttl? ∈ headCommands) :
    t = .seconds 1000 ∧ ctx = .headOfUnit ∧
      (user = "u1" ∧ ttl? = none ∨ user = "u2" ∧ ttl? = some 60) := by
  simp only [headCommands, List.mem_cons, List.not_mem_nil, or_false, CacheCommand.put.injEq,
    reduceCtorEq] at h
  rcases h with ⟨rfl, rfl, rfl, rfl⟩ | ⟨rfl, rfl, rfl, rfl⟩
  · exact ⟨rfl, rfl, .inl ⟨rfl, rfl⟩⟩
  · exact ⟨rfl, rfl, .inr ⟨rfl, rfl⟩⟩

theorem headCommands_follows : Follows headCommands (.seconds 1060) where
  isFinite := ⟨_, _, rfl⟩
  later t user h := by
    simp only [headCommands, List.mem_cons, List.not_mem_nil, or_false, CacheCommand.get.injEq,
      reduceCtorEq, false_or] at h
    exact (congrArg Double.value h.1).le
  age t user ctx ttl? h := by
    obtain ⟨-, rfl, -⟩ := eq_of_put_mem_headCommands h
    have hminute : (Double.seconds 1060).sub (.seconds 1000) = .seconds 60 := by decide +kernel
    rw [show SecurityContext.headOfUnit.lastUpdated = .seconds 1000 from rfl, hminute,
      Double.value_seconds, Double.value_seconds]
    convert Double.seconds_isExactly 60 using 1
    norm_num

theorem since_headCommands_iff {user : String} :
    (∃ t ctx ttl?, Since headCommands (.put t user ctx ttl?)
      (CacheCommand.Leaves user (t.value + (ttl?.getD ({} : ContextCache).ttl : ℤ)))) ↔
      user = "u1" := by
  constructor
  · rintro ⟨t, ctx, ttl?, hsince⟩
    obtain ⟨rfl, -, ⟨h, -⟩ | ⟨rfl, rfl⟩⟩ := eq_of_put_mem_headCommands hsince.mem
    · exact h
    · -- The second entry is looked for at the very end of its lifetime.
      rw [show headCommands = [_, _] ++ [_] from rfl, since_concat] at hsince
      obtain h | ⟨-, hleaves⟩ := hsince
      · cases h
      · have hend := hleaves rfl
        rw [Double.value_seconds, Double.value_seconds] at hend
        norm_num at hend
  · rintro rfl
    refine ⟨.seconds 1000, .headOfUnit, none, [], _, rfl, ?_⟩
    simp [CacheCommand.Leaves, CacheCommand.Spares]

/-- Only the first head is still found when the minute of the second one is over, and only this
    one is counted then. -/
theorem headCommands_keepsLifetimes : ∃ store,
    (CacheCommand.run {} headCommands).run {} = (.ok (), store) ∧
    (∃ store', (({} : ContextCache).get (.seconds 1060) "u1").run store =
      (.ok (some .headOfUnit), store')) ∧
    (∃ store', (({} : ContextCache).get (.seconds 1060) "u2").run store = (.ok none, store')) ∧
    ∃ store', ContextCache.invalidateAll.run store = (.ok 1, store') := by
  have hmaxAge : ({} : ContextCache).maxAge = .seconds 3600 := by decide +kernel
  have hformat : ({} : ContextCache).format = .json := rfl
  obtain ⟨⟨store, hrun, hkeeps⟩, -⟩ :=
    run_keepsLifetimes hformat ⟨_, _, hmaxAge⟩ headCommands_isExact
  refine ⟨store, hrun, ?_, ?_, ?_⟩
  · obtain ⟨answer, store', hget, hanswer⟩ := hkeeps.answers _ headCommands_follows "u1"
    have hfirst : Since headCommands (.put (.seconds 1000) "u1" .headOfUnit none)
        (CacheCommand.Spares "u1") := ⟨[], _, rfl, by simp [CacheCommand.Spares]⟩
    have hfound : answer = some .headOfUnit := by
      refine (hanswer _).2 ⟨_, _, hfirst, ?_, ?_⟩
      · rw [Double.value_seconds, Double.value_seconds]
        norm_num
      · rw [hmaxAge, show SecurityContext.headOfUnit.lastUpdated = .seconds 1000 from rfl,
          Double.value_seconds, Double.value_seconds, Double.value_seconds]
        norm_num
    exact ⟨store', hfound ▸ hget⟩
  · obtain ⟨answer, store', hget, hanswer⟩ := hkeeps.answers _ headCommands_follows "u2"
    have hmissed : answer = none := by
      refine Option.eq_none_iff_forall_ne_some.2 fun ctx hctx => ?_
      obtain ⟨t, ttl?, hput, hend, -⟩ := (hanswer ctx).1 hctx
      obtain ⟨rfl, -, ⟨h, -⟩ | ⟨-, rfl⟩⟩ := eq_of_put_mem_headCommands hput.mem
      · exact absurd h (by decide)
      · rw [Double.value_seconds, Double.value_seconds] at hend
        norm_num at hend
    exact ⟨store', hmissed ▸ hget⟩
  · obtain ⟨users, store', hcount, husers⟩ := hkeeps.counts
    have honly : users = {"u1"} := by
      ext user
      rw [husers, since_headCommands_iff, Finset.mem_singleton]
    rw [honly] at hcount
    exact ⟨store', hcount⟩

end StaffAccess

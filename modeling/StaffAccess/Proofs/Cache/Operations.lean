import StaffAccess.Proofs.Cache.Runs

/-!
# Operations of a cache

What each operation of a cache does to a store within the program, down to the single entry. To
put a context writes one entry. To look for one reads one entry, which disappears if its time is
over or if it cannot be read. What is found for a user depends on nothing but the entry of this
user.

* `ContextCache.run_get`: looking for a context, in all cases.
* `ContextCache.run_get_congr`: it depends on one entry.
* `ContextCache.entryFor?`, `ContextCache.run_put_of_entry`: what is put.
-/

namespace StaffAccess

/-! ## Entries of a store within the program -/

namespace MemoryStore

variable {now : Double} {key other : String} {store : MemoryStore} {e : MemoryEntry}

theorem lookup_of_none (h : store.entries.get? key = none) :
    store.lookup now key = (none, store) := by
  rw [lookup, h]

theorem lookup_of_over (h : store.entries.get? key = some e) (hover : e.expiresAt.le now = true) :
    store.lookup now key = (none, store.remove key) := by
  rw [lookup, h]
  exact if_pos hover

theorem lookup_of_kept (h : store.entries.get? key = some e)
    (hkept : e.expiresAt.le now = false) :
    store.lookup now key = (some e.payload, store) := by
  rw [lookup, h]
  exact if_neg (Bool.not_eq_true _ ▸ hkept)

theorem get?_lookup_of_ne (h : other ≠ key) :
    (store.lookup now key).2.entries.get? other = store.entries.get? other := by
  rw [lookup]
  cases store.entries.get? key with
  | none => rfl
  | some e =>
    dsimp only
    split_ifs
    · exact OrderedMap.get?_erase_of_ne _ h
    · rfl

/-- Reading leaves an entry whose time is not over. -/
theorem get?_lookup_self_iff : (store.lookup now key).2.entries.get? key = some e ↔
    store.entries.get? key = some e ∧ e.expiresAt.le now = false := by
  cases hentry : store.entries.get? key with
  | none =>
    rw [lookup_of_none hentry, hentry]
    exact ⟨nofun, And.left⟩
  | some kept =>
    cases hover : kept.expiresAt.le now with
    | true =>
      rw [lookup_of_over hentry hover, remove, OrderedMap.get?_erase_self]
      refine ⟨nofun, ?_⟩
      rintro ⟨⟨⟩, hkept⟩
      cases hover.symm.trans hkept
    | false =>
      rw [lookup_of_kept hentry hover, hentry]
      refine ⟨fun h => ⟨h, ?_⟩, And.left⟩
      cases h
      exact hover

end MemoryStore

/-! ## Operations of a cache -/

namespace ContextCache

variable {cache : ContextCache} {now : Double} {user : String} {ctx : SecurityContext}
  {store store' : MemoryStore} {e : MemoryEntry}

variable (cache now user store) in
/-- Looking for a context, in all cases. -/
theorem run_get : (cache.get now user).run store =
    match store.lookup now (keyFor user) with
    | (none, s) => (.ok none, s)
    | (some payload, s) =>
      match cache.decode payload with
      | .ok ctx => (.ok (if cache.isStale now ctx then none else some ctx), s)
      | .error e =>
        if e.isUnreadable then (.ok none, s.remove (keyFor user)) else (.error e, s) := by
  have hlookup : (CacheStore.get now (keyFor user)).run store =
      (.ok (store.lookup now (keyFor user)).1, (store.lookup now (keyFor user)).2) := rfl
  have hrun : (cache.get now user).run store = _ := CacheM.run_bind_of_ok hlookup
  rw [hrun]
  rcases store.lookup now (keyFor user) with ⟨_ | payload, s⟩
  · rfl
  · dsimp only
    cases cache.decode payload with
    | ok ctx => rfl
    | error e =>
      dsimp only
      split_ifs
      · rfl
      · rfl

theorem run_get_of_none (h : store.entries.get? (keyFor user) = none) :
    (cache.get now user).run store = (.ok none, store) := by
  rw [run_get, MemoryStore.lookup_of_none h]

theorem run_get_of_over (h : store.entries.get? (keyFor user) = some e)
    (hover : e.expiresAt.le now = true) :
    (cache.get now user).run store = (.ok none, store.remove (keyFor user)) := by
  rw [run_get, MemoryStore.lookup_of_over h hover]

theorem run_get_of_kept (h : store.entries.get? (keyFor user) = some e)
    (hkept : e.expiresAt.le now = false) (hdecode : cache.decode e.payload = .ok ctx) :
    (cache.get now user).run store =
      (.ok (if cache.isStale now ctx then none else some ctx), store) := by
  rw [run_get, MemoryStore.lookup_of_kept h hkept]
  dsimp only
  rw [hdecode]

/-- Where everything can be read, looking for a context only reads. -/
theorem exists_run_get (hread : ∀ e, store.entries.get? (keyFor user) = some e →
      ∃ ctx, cache.decode e.payload = .ok ctx) :
    ∃ answer, (cache.get now user).run store =
      (.ok answer, (store.lookup now (keyFor user)).2) := by
  cases hentry : store.entries.get? (keyFor user) with
  | none => exact ⟨_, by rw [run_get_of_none hentry, MemoryStore.lookup_of_none hentry]⟩
  | some e =>
    obtain ⟨ctx, hdecode⟩ := hread e hentry
    cases hover : e.expiresAt.le now with
    | true =>
      exact ⟨_, by rw [run_get_of_over hentry hover, MemoryStore.lookup_of_over hentry hover]⟩
    | false =>
      exact ⟨_, by
        rw [run_get_of_kept hentry hover hdecode, MemoryStore.lookup_of_kept hentry hover]⟩

/-- What is found for a user depends on the entry of this user alone. -/
theorem run_get_congr (h : store.entries.get? (keyFor user) = store'.entries.get? (keyFor user)) :
    ((cache.get now user).run store).1 = ((cache.get now user).run store').1 := by
  -- The two stores may differ elsewhere, but nothing else is looked at before the answer is known.
  rw [run_get, run_get]
  cases hentry : store.entries.get? (keyFor user) with
  | none => rw [MemoryStore.lookup_of_none hentry, MemoryStore.lookup_of_none (h ▸ hentry)]
  | some e =>
    cases hover : e.expiresAt.le now with
    | true =>
      rw [MemoryStore.lookup_of_over hentry hover, MemoryStore.lookup_of_over (h ▸ hentry) hover]
    | false =>
      rw [MemoryStore.lookup_of_kept hentry hover, MemoryStore.lookup_of_kept (h ▸ hentry) hover]
      dsimp only
      cases cache.decode e.payload with
      | ok ctx => rfl
      | error fault =>
        dsimp only
        split_ifs
        · rfl
        · rfl

/-- Looking for the context of a user leaves the entries of all others as they are. -/
theorem get?_run_get_of_ne {key : String} (h : key ≠ keyFor user) :
    ((cache.get now user).run store).2.entries.get? key = store.entries.get? key := by
  have hlookup : (store.lookup now (keyFor user)).2.entries.get? key = store.entries.get? key :=
    MemoryStore.get?_lookup_of_ne h
  -- The entry of the user may disappear twice: as it is over, or as it cannot be read.
  rw [run_get]
  generalize store.lookup now (keyFor user) = looked at hlookup ⊢
  obtain ⟨_ | payload, s⟩ := looked
  · exact hlookup
  · dsimp only
    cases cache.decode payload with
    | ok ctx => exact hlookup
    | error e =>
      dsimp only
      split_ifs
      · exact (OrderedMap.get?_erase_of_ne _ h).trans hlookup
      · exact hlookup

/-- What a cache keeps for a context. -/
def entryFor? (cache : ContextCache) (now : Double) (ctx : SecurityContext) (ttl? : Option Int) :
    Option MemoryEntry :=
  match ctx.toValue, Double.ofInt? (ttl?.getD cache.ttl) with
  | .ok v, some seconds => some ⟨cache.format.encode v, now.add seconds⟩
  | _, _ => none

theorem run_put_of_entry {ttl? : Option Int} (h : cache.entryFor? now ctx ttl? = some e) :
    (cache.put now user ctx ttl?).run store =
      (.ok (), store.keep (keyFor user) e.payload e.expiresAt) := by
  rw [put]
  rw [entryFor?] at h
  split at h
  · next v seconds hv hseconds =>
    cases h
    rw [hv]
    dsimp only
    rw [StoreLaws.set_eq_keepUntil]
    beta_reduce
    rw [hseconds]
    rfl
  · cases h

end ContextCache

end StaffAccess

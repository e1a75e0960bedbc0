import StaffAccess.Proofs.Cache.Contents

/-!
# Nothing is made up

Whether its calls answer or fail, whatever times they are given, and even where a server does not
list the keys it should: a cache store keeps and finds only what was put into it. That is less
than the laws of stores say, but it holds without any condition.

* `Kept.WithinBut`: what is kept after something may have been put.
* `Inventory`: a store that makes nothing up.
* `Inventory.memory`, `Inventory.server`, `Inventory.sum`, `Inventory.unreliable`: the stores.
-/

namespace StaffAccess

theorem Kept.Within.trans {m n o : Kept} (h : m.Within n) (h' : n.Within o) : m.Within o :=
  fun key payload hkey => h' key payload (h key payload hkey)

/-- Whether everything that is kept, one payload apart, is kept in another state as well. -/
def Kept.WithinBut (m n : Kept) (key : String) (payload : Text.Octets) : Prop :=
  ∀ other found, m other = some found → n other = some found ∨ other = key ∧ found = payload

theorem Kept.Within.withinBut {m n : Kept} (h : m.Within n) (key : String)
    (payload : Text.Octets) : m.WithinBut n key payload :=
  fun other found hfound => .inl (h other found hfound)

theorem Kept.withinBut_of_update {m n : Kept} {key : String} {payload : Text.Octets}
    (h : m.Within (Function.update n key (some payload))) : m.WithinBut n key payload := by
  intro other found hfound
  have hupdate := h other found hfound
  by_cases hkey : other = key
  · rw [hkey, Function.update_self] at hupdate
    exact .inr ⟨hkey, (Option.some.inj hupdate).symm⟩
  · rw [Function.update_of_ne hkey] at hupdate
    exact .inl hupdate

/-- A call that fails leaves what is kept, so only its answers matter. -/
theorem Effect.within {σ α : Type} {kept : σ → Kept} {op : CacheM σ α} {s : σ}
    {p : α → σ → Prop} {m : Kept} (h : Effect kept op s p) (hm : (kept s).Within m)
    (hp : ∀ a s', p a s' → (kept s').Within m) : (kept (op.run s).2).Within m := by
  rcases hrun : op.run s with ⟨e | a, s'⟩
  · exact (h.error e s' hrun).2 ▸ hm
  · exact hp a s' (h.ok a s' hrun)

/-- What a store keeps under each key, of which no call makes anything up. -/
structure Inventory (σ : Type) [CacheStore σ] where
  /-- What it keeps under each key. -/
  kept : σ → Kept
  /-- Only what is kept is found. -/
  found : ∀ (now : Double) (key : String) (s : σ) (payload : Text.Octets),
    ((CacheStore.get now key).run s).1 = .ok (some payload) → kept s key = some payload
  /-- Reading adds nothing. -/
  get : ∀ (now : Double) (key : String) (s : σ),
    (kept ((CacheStore.get now key).run s).2).Within (kept s)
  /-- Writing adds what is written, if anything. -/
  set : ∀ (now : Double) (key : String) (payload : Text.Octets) (ttl : Int) (s : σ),
    (kept ((CacheStore.set now key payload ttl).run s).2).WithinBut (kept s) key payload
  /-- Removing a key adds nothing. -/
  delete : ∀ (key : String) (s : σ), (kept ((CacheStore.delete key).run s).2).Within (kept s)
  /-- Removing keys that start in some way adds nothing. -/
  deletePrefix : ∀ (start : String) (s : σ),
    (kept ((CacheStore.deletePrefix start).run s).2).Within (kept s)
  /-- What is kept has its key listed. -/
  keys : ∀ (s : σ) (key : String) (payload : Text.Octets), kept s key = some payload →
    key ∈ CacheStore.keys s

namespace Inventory

/-- A store within the program. -/
def memory : Inventory MemoryStore where
  kept := StoreLaws.memoryKept
  found now key store payload h :=
    (StoreLaws.lookup_within now key store).1 payload (Except.ok.inj h)
  get now key store := (StoreLaws.lookup_within now key store).2
  set now key payload ttl store := by
    rw [StoreLaws.set_eq_keepUntil]
    beta_reduce
    cases (Double.ofInt? ttl).map now.add with
    | none => exact (Kept.Within.refl _).withinBut key payload
    | some expiresAt =>
      refine Kept.withinBut_of_update ?_
      exact StoreLaws.memoryKept_keep key payload expiresAt store ▸ .refl _
  delete key store := StoreLaws.memoryKept_filter_within _ _
  deletePrefix start store := StoreLaws.memoryKept_filter_within _ _
  keys := StoreLaws.memory.keys

section Server

variable {accepts : String → String → Bool}

theorem get?_filter_within (entries : OrderedMap String Text.Octets)
    (keep : String → Text.Octets → Bool) : Kept.Within (entries.filter keep).get? entries.get? :=
  fun _ _ h => (OrderedMap.get?_filter_eq_some_iff.1 h).1

/-- Whichever keys are listed, they are removed or nothing changes. -/
theorem effect_deletePrefix (start : String) (server : ServerStore accepts) :
    Effect StoreLaws.serverKept (CacheStore.deletePrefix start) server fun _ s =>
      (StoreLaws.serverKept s).Within (StoreLaws.serverKept server) := by
  refine StoreLaws.effect_get (StoreLaws.effect_request ?_)
  -- How keys are matched is up to the server, so nothing is known about them.
  generalize server.keysMatching (ServerStore.patternFor start) = keys
  by_cases hempty : keys.isEmpty = true
  · rw [if_pos hempty]
    exact .of_ok rfl (.refl _)
  · rw [if_neg hempty]
    exact StoreLaws.effect_request (.of_ok rfl (get?_filter_within _ _))

/-- A server, up or down, whichever keys it lists. -/
def server : Inventory (ServerStore accepts) where
  kept := StoreLaws.serverKept
  found now key server payload h := by
    obtain ⟨entries, down, scanCount, calls⟩ := server
    cases down with
    | some error => cases h
    | none => exact Except.ok.inj h
  get now key server := by
    obtain ⟨entries, down, scanCount, calls⟩ := server
    cases down <;> exact .refl _
  set now key payload ttl server := by
    obtain ⟨entries, down, scanCount, calls⟩ := server
    cases down with
    | some error => exact (Kept.Within.refl _).withinBut key payload
    | none => exact Kept.withinBut_of_update (StoreLaws.put_within entries key payload)
  delete key server := by
    obtain ⟨entries, down, scanCount, calls⟩ := server
    cases down with
    | some error => exact .refl _
    | none => exact get?_filter_within entries _
  deletePrefix start server := (effect_deletePrefix start server).within (.refl _) fun _ _ h => h
  keys := StoreLaws.mem_keys_of_serverKept

end Server

/-- One of two stores. -/
def sum {σ τ : Type} [CacheStore σ] [CacheStore τ] (left : Inventory σ) (right : Inventory τ) :
    Inventory (σ ⊕ τ) where
  kept := StoreLaws.sumKept left.kept right.kept
  found
    | now, key, .inl s => left.found now key s
    | now, key, .inr t => right.found now key t
  get
    | now, key, .inl s => left.get now key s
    | now, key, .inr t => right.get now key t
  set
    | now, key, payload, ttl, .inl s => left.set now key payload ttl s
    | now, key, payload, ttl, .inr t => right.set now key payload ttl t
  delete
    | key, .inl s => left.delete key s
    | key, .inr t => right.delete key t
  deletePrefix
    | start, .inl s => left.deletePrefix start s
    | start, .inr t => right.deletePrefix start t
  keys
    | .inl s => left.keys s
    | .inr t => right.keys t

/-- A call that does not reach the store changes nothing. -/
theorem call_cases {σ α : Type} (kind : CacheCall) (op : CacheM σ α) (s : Unreliable σ) :
    (∃ e, ((Unreliable.call kind op).run s).1 = .error e) ∧
        ((Unreliable.call kind op).run s).2.store = s.store ∨
      ((Unreliable.call kind op).run s).1 = (op.run s.store).1 ∧
        ((Unreliable.call kind op).run s).2.store = (op.run s.store).2 := by
  cases hfailure : s.failures.head?.join with
  | some error =>
    rw [Unreliable.run_call_of_failure hfailure]
    exact .inl ⟨⟨_, rfl⟩, rfl⟩
  | none =>
    rw [Unreliable.run_call hfailure]
    exact .inr ⟨rfl, rfl⟩

/-- What a call may do to what is kept, if that may also stay as it is. -/
theorem kept_call {σ α : Type} {kept : σ → Kept} {p : Kept → Prop} (kind : CacheCall)
    (op : CacheM σ α) (s : Unreliable σ) (hsame : p (kept s.store))
    (hcall : p (kept (op.run s.store).2)) :
    p (kept ((Unreliable.call kind op).run s).2.store) := by
  rcases call_cases kind op s with ⟨-, hstore⟩ | ⟨-, hstore⟩
  · rw [hstore]
    exact hsame
  · rw [hstore]
    exact hcall

/-- A store of which any call can fail. -/
def unreliable {σ : Type} [CacheStore σ] (inventory : Inventory σ) :
    Inventory (Unreliable σ) where
  kept s := inventory.kept s.store
  found now key s payload h := by
    rcases call_cases .get (CacheStore.get now key) s with ⟨⟨e, he⟩, -⟩ | ⟨hanswer, -⟩
    · cases he.symm.trans h
    · exact inventory.found now key s.store payload (hanswer.symm.trans h)
  get now key s :=
    kept_call (p := fun m => m.Within (inventory.kept s.store)) .get _ s (.refl _)
      (inventory.get now key s.store)
  set now key payload ttl s :=
    kept_call (p := fun m => m.WithinBut (inventory.kept s.store) key payload) .set _ s
      ((Kept.Within.refl _).withinBut key payload) (inventory.set now key payload ttl s.store)
  delete key s :=
    kept_call (p := fun m => m.Within (inventory.kept s.store)) .delete _ s (.refl _)
      (inventory.delete key s.store)
  deletePrefix start s :=
    kept_call (p := fun m => m.Within (inventory.kept s.store)) .deletePrefix _ s (.refl _)
      (inventory.deletePrefix start s.store)
  keys s := inventory.keys s.store

end Inventory

end StaffAccess

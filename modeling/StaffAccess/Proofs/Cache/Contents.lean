import StaffAccess.Cache.ContextCache
import StaffAccess.Cache.Memory
import StaffAccess.Cache.Server
import StaffAccess.Proofs.Traversal
import Mathlib.Logic.Function.Basic

/-!
# The contents of cache stores

What the users of a cache rely on, whichever store is behind it. A call does what it is for, or
it fails as degraded and leaves what is kept. Beyond that, entries may disappear at any call:
because their time is over, or because the store drops them.

* `StoreLaws`: a store that behaves like that, with what it keeps under each key.
* `Unreliable`: a store of which any call can fail.
* `StoreLaws.memory`, `StoreLaws.server`, `StoreLaws.sum`, `StoreLaws.unreliable`: the laws of
  the stores.
-/

namespace StaffAccess

/-- Whether a fault says that the cache failed. -/
def Fault.IsDegraded (e : Fault) : Prop := ∃ call error, e = .cacheDegraded call error

/-- What is kept under each key. -/
abbrev Kept := String → Option Text.Octets

/-- Whether everything that is kept is kept in another state as well. -/
def Kept.Within (m n : Kept) : Prop := ∀ key payload, m key = some payload → n key = some payload

theorem Kept.Within.refl (m : Kept) : m.Within m := fun _ _ h => h

/-- What is kept under keys that do not start in some way. -/
def Kept.without (m : Kept) (start : String) : Kept :=
  fun key => if startsWith start key then none else m key

theorem Kept.within_without {m n : Kept} {start : String} (h : ∀ key payload,
    m key = some payload → startsWith start key = false ∧ n key = some payload) :
    m.Within (n.without start) := by
  intro key payload hkey
  obtain ⟨hother, hkept⟩ := h key payload hkey
  rw [Kept.without, hother, if_neg Bool.false_ne_true, hkept]

/-- A call in some state either answers and ends in a state of which something holds, or fails as
    degraded and leaves what is kept. -/
structure Effect {σ α : Type} (kept : σ → Kept) (op : CacheM σ α) (s : σ) (p : α → σ → Prop) :
    Prop where
  ok : ∀ a s', op.run s = (.ok a, s') → p a s'
  error : ∀ e s', op.run s = (.error e, s') → e.IsDegraded ∧ kept s' = kept s

section Effect

variable {σ α : Type} {kept : σ → Kept} {op : CacheM σ α} {s s' : σ} {p : α → σ → Prop}

theorem Effect.of_ok {a : α} (h : op.run s = (.ok a, s')) (hp : p a s') : Effect kept op s p where
  ok b t hb := by
    obtain ⟨⟨⟩, rfl⟩ := Prod.mk.inj (h.symm.trans hb)
    exact hp
  error e t he := by
    obtain ⟨⟨⟩, -⟩ := Prod.mk.inj (h.symm.trans he)

theorem Effect.of_error {e : Fault} (h : op.run s = (.error e, s')) (he : e.IsDegraded)
    (hkept : kept s' = kept s) : Effect kept op s p where
  ok b t hb := by
    obtain ⟨⟨⟩, -⟩ := Prod.mk.inj (h.symm.trans hb)
  error f t hf := by
    obtain ⟨⟨⟩, rfl⟩ := Prod.mk.inj (h.symm.trans hf)
    exact ⟨he, hkept⟩

end Effect

/-- What a store keeps, and the laws of its calls. -/
structure StoreLaws (σ : Type) [CacheStore σ] where
  /-- What it keeps under each key. -/
  kept : σ → Kept
  /-- Reading finds only what is kept. -/
  get : ∀ (now : Double) (key : String) (s : σ), Effect kept (CacheStore.get now key) s
    fun found s' => (∀ payload, found = some payload → kept s key = some payload) ∧
      (kept s').Within (kept s)
  /-- Writing replaces what is kept under one key. -/
  set : ∀ (now : Double) (key : String) (payload : Text.Octets) (ttl : Int) (s : σ),
    Double.ofInt? ttl ≠ none → Effect kept (CacheStore.set now key payload ttl) s
      fun _ s' => (kept s').Within (Function.update (kept s) key (some payload))
  /-- Removing a key leaves nothing under it. -/
  delete : ∀ (key : String) (s : σ), Effect kept (CacheStore.delete key) s
    fun _ s' => (kept s').Within (Function.update (kept s) key none)
  /-- Removing the keys of all contexts leaves nothing under any of them. -/
  deletePrefix : ∀ s : σ, Effect kept (CacheStore.deletePrefix ContextCache.keyPrefix) s
    fun _ s' => (kept s').Within ((kept s).without ContextCache.keyPrefix)
  /-- What is kept has its key listed. -/
  keys : ∀ (s : σ) (key : String) (payload : Text.Octets), kept s key = some payload →
    key ∈ CacheStore.keys s

namespace StoreLaws

/-! ## Stores within the program -/

section Memory

/-- The payload under each key of a store within the program. -/
def memoryKept (store : MemoryStore) : Kept :=
  fun key => (store.entries.get? key).map MemoryEntry.payload

theorem memoryKept_filter_within (entries : OrderedMap String MemoryEntry)
    (keep : String → MemoryEntry → Bool) :
    (memoryKept ⟨entries.filter keep⟩).Within (memoryKept ⟨entries⟩) := by
  intro key payload h
  obtain ⟨e, he, rfl⟩ := Option.map_eq_some_iff.1 h
  exact Option.map_eq_some_iff.2 ⟨e, (OrderedMap.get?_filter_eq_some_iff.1 he).1, rfl⟩

theorem lookup_within (now : Double) (key : String) (store : MemoryStore) :
    (∀ payload, (store.lookup now key).1 = some payload → memoryKept store key = some payload) ∧
      (memoryKept (store.lookup now key).2).Within (memoryKept store) := by
  rw [MemoryStore.lookup]
  -- An entry whose time is over is removed when it is read, which leaves less than before.
  cases hentry : store.entries.get? key with
  | none => exact ⟨fun _ h => absurd h (by simp), .refl _⟩
  | some e =>
    dsimp only
    split_ifs with hover
    · exact ⟨fun _ h => absurd h (by simp), memoryKept_filter_within _ _⟩
    · refine ⟨fun payload h => ?_, .refl _⟩
      rw [memoryKept, hentry]
      exact h

theorem memoryKept_keep (key : String) (payload : Text.Octets) (expiresAt : Double)
    (store : MemoryStore) : memoryKept (store.keep key payload expiresAt) =
      Function.update (memoryKept store) key (some payload) := by
  funext other
  by_cases hkey : other = key
  · subst hkey
    rw [Function.update_self, memoryKept, MemoryStore.keep, OrderedMap.get?_put_self]
    rfl
  · rw [Function.update_of_ne hkey, memoryKept, MemoryStore.keep,
      OrderedMap.get?_put_of_ne _ _ hkey]
    rfl

theorem memoryKept_filter_eq_some {entries : OrderedMap String MemoryEntry}
    {keep : String → MemoryEntry → Bool} {key : String} {payload : Text.Octets}
    (h : memoryKept ⟨entries.filter keep⟩ key = some payload) : ∃ e, keep key e = true := by
  obtain ⟨e, he, -⟩ := Option.map_eq_some_iff.1 h
  exact ⟨e, (OrderedMap.get?_filter_eq_some_iff.1 he).2⟩

theorem set_eq_keepUntil : (CacheStore.set : _ → _ → _ → _ → CacheM MemoryStore Unit) =
    fun now key payload ttl =>
      MemoryStore.keepUntil key payload ((Double.ofInt? ttl).map now.add) := rfl

/-- The laws of the store within the program. -/
def memory : StoreLaws MemoryStore where
  kept := memoryKept
  get now key store := .of_ok rfl (lookup_within now key store)
  set now key payload ttl store httl := by
    obtain ⟨seconds, hseconds⟩ := Option.ne_none_iff_exists'.1 httl
    rw [set_eq_keepUntil]
    beta_reduce
    rw [hseconds]
    exact .of_ok rfl (memoryKept_keep .. ▸ .refl _)
  delete key store := by
    refine .of_ok rfl fun other payload h => ?_
    obtain ⟨e, he⟩ := memoryKept_filter_eq_some h
    rw [Function.update_of_ne (by simpa using he)]
    exact memoryKept_filter_within _ _ other payload h
  deletePrefix store := by
    refine .of_ok rfl (Kept.within_without fun key payload h => ?_)
    obtain ⟨e, he⟩ := memoryKept_filter_eq_some h
    exact ⟨by simpa using he, memoryKept_filter_within _ _ key payload h⟩
  keys store key payload h := by
    obtain ⟨e, he, -⟩ := Option.map_eq_some_iff.1 h
    exact OrderedMap.mem_keys_iff.2 ⟨e, he⟩

end Memory

/-! ## Stores on a server -/

section Server

variable {accepts : String → String → Bool}

/-- The payload under each key of a server. -/
def serverKept (server : ServerStore accepts) : Kept := server.entries.get?

/-- A call of the server comes first: it fails as degraded, or what follows counts. -/
theorem effect_request {α : Type} {kind : CacheCall} {call : ServerCall}
    {op : CacheM (ServerStore accepts) α} {server : ServerStore accepts}
    {p : α → ServerStore accepts → Prop}
    (h : Effect serverKept op { server with calls := call :: server.calls } p) :
    Effect serverKept (do ServerStore.request kind call; op) server p := by
  obtain ⟨entries, down, scanCount, calls⟩ := server
  cases down with
  | some error => exact .of_error rfl ⟨kind, error, rfl⟩ rfl
  | none => exact ⟨h.ok, h.error⟩

theorem effect_get {α : Type} {next : ServerStore accepts → CacheM (ServerStore accepts) α}
    {server : ServerStore accepts} {p : α → ServerStore accepts → Prop}
    (h : Effect serverKept (next server) server p) :
    Effect serverKept (do next (← MonadState.get)) server p := ⟨h.ok, h.error⟩

theorem put_within (entries : OrderedMap String Text.Octets) (key : String)
    (payload : Text.Octets) : Kept.Within (entries.put key payload).get?
      (Function.update entries.get? key (some payload)) := by
  intro other found h
  by_cases hkey : other = key
  · rw [hkey, OrderedMap.get?_put_self] at h
    rw [hkey, Function.update_self, h]
  · rw [OrderedMap.get?_put_of_ne _ _ hkey] at h
    rw [Function.update_of_ne hkey, h]

theorem mem_keysMatching {pattern key : String} {server : ServerStore accepts} :
    key ∈ server.keysMatching pattern ↔
      key ∈ server.entries.keys ∧ accepts pattern key = true := by
  rw [ServerStore.keysMatching, sortTexts, List.mem_mergeSort, List.mem_filter]

/-- What a server keeps has its key listed. -/
theorem mem_keys_of_serverKept (server : ServerStore accepts) (key : String)
    (payload : Text.Octets) (h : serverKept server key = some payload) :
    key ∈ CacheStore.keys server := OrderedMap.mem_keys_iff.2 ⟨payload, h⟩

/-- The laws of a server whose patterns take every key that starts like those of contexts. -/
def server (haccepts : ∀ key, startsWith ContextCache.keyPrefix key = true →
    accepts (ServerStore.patternFor ContextCache.keyPrefix) key = true) :
    StoreLaws (ServerStore accepts) where
  kept := serverKept
  get now key server := effect_request (.of_ok rfl ⟨fun _ h => h, .refl _⟩)
  set now key payload ttl server _ := effect_request (.of_ok rfl (put_within _ key payload))
  delete key server := by
    refine effect_request (.of_ok rfl fun other payload h => ?_)
    obtain ⟨hkept, hother⟩ := OrderedMap.get?_filter_eq_some_iff.1 h
    rw [Function.update_of_ne (by simpa using hother)]
    exact hkept
  deletePrefix server := by
    -- Every key of a context is listed, so none of them is left when those listed are removed.
    have hlisted : ∀ key payload, server.entries.get? key = some payload →
        startsWith ContextCache.keyPrefix key = true →
        key ∈ server.keysMatching (ServerStore.patternFor ContextCache.keyPrefix) :=
      fun key payload h hstart =>
        mem_keysMatching.2 ⟨OrderedMap.mem_keys_iff.2 ⟨payload, h⟩, haccepts key hstart⟩
    refine effect_get (effect_request ?_)
    generalize server.keysMatching (ServerStore.patternFor ContextCache.keyPrefix) = keys
      at hlisted ⊢
    by_cases hempty : keys.isEmpty = true
    · rw [if_pos hempty]
      refine .of_ok rfl (Kept.within_without fun key payload h => ⟨?_, h⟩)
      by_contra hstart
      simpa [List.isEmpty_iff.1 hempty] using hlisted key payload h (by simpa using hstart)
    · rw [if_neg hempty]
      refine effect_request (.of_ok rfl (Kept.within_without fun key payload h => ?_))
      obtain ⟨hkept, hother⟩ := OrderedMap.get?_filter_eq_some_iff.1 h
      refine ⟨?_, hkept⟩
      by_contra hstart
      simp [hlisted key payload hkept (by simpa using hstart)] at hother
  keys := mem_keys_of_serverKept

end Server

/-! ## One of two stores -/

section Sum

variable {σ τ : Type}

/-- The payload under each key of one of two stores. -/
def sumKept (left : σ → Kept) (right : τ → Kept) : σ ⊕ τ → Kept
  | .inl s => left s
  | .inr t => right t

variable {α : Type} {left : σ → Kept} {right : τ → Kept} {op : CacheM σ α} {op' : CacheM τ α}
  {p : α → σ ⊕ τ → Prop}

theorem effect_either_inl {s : σ} (h : Effect left op s fun a s' => p a (.inl s')) :
    Effect (sumKept left right) (.either op op') (.inl s) p where
  ok a t ht := by
    obtain ⟨ha, rfl⟩ := Prod.mk.inj ht
    exact h.ok a _ (Prod.ext ha rfl)
  error e t ht := by
    obtain ⟨he, rfl⟩ := Prod.mk.inj ht
    exact h.error e _ (Prod.ext he rfl)

theorem effect_either_inr {t : τ} (h : Effect right op' t fun a t' => p a (.inr t')) :
    Effect (sumKept left right) (.either op op') (.inr t) p where
  ok a s hs := by
    obtain ⟨ha, rfl⟩ := Prod.mk.inj hs
    exact h.ok a _ (Prod.ext ha rfl)
  error e s hs := by
    obtain ⟨he, rfl⟩ := Prod.mk.inj hs
    exact h.error e _ (Prod.ext he rfl)

/-- The laws of one of two stores. -/
def sum [CacheStore σ] [CacheStore τ] (left : StoreLaws σ) (right : StoreLaws τ) :
    StoreLaws (σ ⊕ τ) where
  kept := sumKept left.kept right.kept
  get now key
    | .inl s => effect_either_inl (left.get now key s)
    | .inr t => effect_either_inr (right.get now key t)
  set now key payload ttl
    | .inl s, httl => effect_either_inl (left.set now key payload ttl s httl)
    | .inr t, httl => effect_either_inr (right.set now key payload ttl t httl)
  delete key
    | .inl s => effect_either_inl (left.delete key s)
    | .inr t => effect_either_inr (right.delete key t)
  deletePrefix
    | .inl s => effect_either_inl (left.deletePrefix s)
    | .inr t => effect_either_inr (right.deletePrefix t)
  keys
    | .inl s => left.keys s
    | .inr t => right.keys t

end Sum

end StoreLaws

/-! ## Stores that can fail -/

/-- A store of which any call can fail. -/
structure Unreliable (σ : Type) where
  /-- The store. -/
  store : σ
  /-- For each of the calls to come, the error with which it fails, if it does. -/
  failures : List (Option String)

namespace Unreliable

variable {σ α : Type}

/-- The next call. If it fails, it does not reach the store. -/
def call (kind : CacheCall) (op : CacheM σ α) : CacheM (Unreliable σ) α :=
  ExceptT.mk fun s =>
    match s.failures.head?.join with
    | some error => (.error (.cacheDegraded kind error), { s with failures := s.failures.tail })
    | none => ((op.run s.store).1, ⟨(op.run s.store).2, s.failures.tail⟩)

instance [CacheStore σ] : CacheStore (Unreliable σ) where
  get now key := call .get (CacheStore.get now key)
  set now key payload ttl := call .set (CacheStore.set now key payload ttl)
  delete key := call .delete (CacheStore.delete key)
  deletePrefix start := call .deletePrefix (CacheStore.deletePrefix start)
  keys s := CacheStore.keys s.store

theorem run_call_of_failure {kind : CacheCall} {op : CacheM σ α} {s : Unreliable σ} {error : String}
    (h : s.failures.head?.join = some error) : (call kind op).run s =
      (.error (.cacheDegraded kind error), { s with failures := s.failures.tail }) := by
  show (match s.failures.head?.join with | some error => _ | none => _) = _
  rw [h]

theorem run_call {kind : CacheCall} {op : CacheM σ α} {s : Unreliable σ}
    (h : s.failures.head?.join = none) : (call kind op).run s =
      ((op.run s.store).1, ⟨(op.run s.store).2, s.failures.tail⟩) := by
  show (match s.failures.head?.join with | some error => _ | none => _) = _
  rw [h]

theorem effect_call {kept : σ → Kept} {kind : CacheCall} {op : CacheM σ α} {s : Unreliable σ}
    {p : α → Unreliable σ → Prop}
    (h : Effect kept op s.store fun a s' => p a ⟨s', s.failures.tail⟩) :
    Effect (fun s => kept s.store) (call kind op) s p := by
  cases hfailure : s.failures.head?.join with
  | some error => exact .of_error (run_call_of_failure hfailure) ⟨kind, error, rfl⟩ rfl
  | none =>
    refine ⟨fun a t ht => ?_, fun e t ht => ?_⟩ <;> rw [run_call hfailure] at ht <;>
      obtain ⟨hresult, rfl⟩ := Prod.mk.inj ht
    · exact h.ok a _ (Prod.ext hresult rfl)
    · exact h.error e _ (Prod.ext hresult rfl)

end Unreliable

/-- The laws of a store of which any call can fail. -/
def StoreLaws.unreliable {σ : Type} [CacheStore σ] (laws : StoreLaws σ) :
    StoreLaws (Unreliable σ) where
  kept s := laws.kept s.store
  get now key s := Unreliable.effect_call (laws.get now key s.store)
  set now key payload ttl s httl :=
    Unreliable.effect_call (laws.set now key payload ttl s.store httl)
  delete key s := Unreliable.effect_call (laws.delete key s.store)
  deletePrefix s := Unreliable.effect_call (laws.deletePrefix s.store)
  keys s := laws.keys s.store

end StaffAccess

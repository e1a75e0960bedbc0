import StaffAccess.Cache.Memory
import StaffAccess.Proofs.Cache.Contents
import StaffAccess.Proofs.Cache.Glob

/-!
# Removing the keys that start in some way

A store within the program compares the start of every key. A server is given a pattern, and then
removes what the pattern matches. So both remove the same keys if the pattern matches those that
start like this, which is so for the keys of contexts.

The start becomes part of the pattern as it is. With a character in it that has a meaning in
patterns, there are keys for which the server goes wrong.

* `Removes`: what is left, and how many keys are gone.
* `Removes.chosen_eq`: which keys were chosen can be seen from what is left.
* `DeletesPrefix`: a call that answers after removing the keys that were chosen.
* `StoreLaws.globServer`: the keys of contexts are listed as they should.
* `deletePrefix_exact_iff`: what both stores remove, and when it is the same.
* `teamKeys_mixedUp`: a start with brackets in it.
-/

namespace StaffAccess

/-! ## What is left -/

section Removes

variable {α : Type} {chosen other : String → Bool} {before after : OrderedMap String α}
  {count : Nat} {key : String}

/-- Whether the chosen keys are gone, with all others as before, and so many keys fewer. -/
structure Removes (chosen : String → Bool) (before after : OrderedMap String α) (count : Nat) :
    Prop where
  /-- Nothing is found under a chosen key. -/
  gone : ∀ key, chosen key = true → after.get? key = none
  /-- All other keys have what they had. -/
  left : ∀ key, chosen key = false → after.get? key = before.get? key
  /-- The keys that are gone are counted. -/
  counted : after.keys.length + count = before.keys.length

/-- Keeping all entries but the chosen ones removes them. -/
theorem removes_filter (chosen : String → Bool) (before : OrderedMap String α) :
    Removes chosen before (before.filter fun key _ => !chosen key)
      (before.keys.filter chosen).length where
  gone key hkey := Option.eq_none_iff_forall_ne_some.2 fun v hv => by
    simpa [hkey] using (OrderedMap.get?_filter_eq_some_iff.1 hv).2
  left key hkey := OrderedMap.get?_filter_of_forall fun _ => by rw [hkey]; rfl
  counted := by
    have hkeys : (before.filter fun key _ => !chosen key).keys =
        before.keys.filter fun key => !chosen key :=
      (List.filter_map (f := Prod.fst) (p := fun key => !chosen key)).symm
    rw [hkeys, Nat.add_comm, ← List.length_eq_length_filter_add]

theorem get?_eq_none_of_notMem (hkey : key ∉ before.keys) : before.get? key = none :=
  Option.eq_none_iff_forall_ne_some.2 fun v hv => hkey (OrderedMap.mem_keys_iff.2 ⟨v, hv⟩)

theorem Removes.get?_eq_none (h : Removes chosen before after count) (hkey : key ∉ before.keys) :
    after.get? key = none := by
  cases hchosen : chosen key with
  | true => exact h.gone key hchosen
  | false => rw [h.left key hchosen, get?_eq_none_of_notMem hkey]

/-- Only which of the keys before were chosen matters. -/
theorem Removes.congr (h : Removes chosen before after count)
    (heq : ∀ key ∈ before.keys, chosen key = other key) : Removes other before after count where
  gone key hother := by
    by_cases hkey : key ∈ before.keys
    · exact h.gone key ((heq key hkey).trans hother)
    · exact h.get?_eq_none hkey
  left key hother := by
    by_cases hkey : key ∈ before.keys
    · exact h.left key ((heq key hkey).trans hother)
    · rw [h.get?_eq_none hkey, get?_eq_none_of_notMem hkey]
  counted := h.counted

/-- A key from before was chosen exactly if nothing is found under it. -/
theorem Removes.chosen_iff (h : Removes chosen before after count) (hkey : key ∈ before.keys) :
    chosen key = true ↔ after.get? key = none := by
  refine ⟨h.gone key, fun hnone => ?_⟩
  by_contra hleft
  obtain ⟨v, hv⟩ := OrderedMap.mem_keys_iff.1 hkey
  rw [h.left key (by simpa using hleft), hv] at hnone
  cases hnone

/-- Which keys were chosen can be seen from what is left. -/
theorem Removes.chosen_eq {count' : Nat} (h : Removes chosen before after count)
    (h' : Removes other before after count') (hkey : key ∈ before.keys) :
    chosen key = other key := by
  rw [Bool.eq_iff_iff, h.chosen_iff hkey, h'.chosen_iff hkey]

end Removes

/-! ## The two stores -/

/-- Whether a store, told to remove the keys that start in some way, removes the chosen keys and
    says how many they were. -/
def DeletesPrefix {σ α : Type} [CacheStore σ] (start : String)
    (entries : σ → OrderedMap String α) (chosen : String → Bool) (s : σ) : Prop :=
  ∃ count s', (CacheStore.deletePrefix start : CacheM σ Nat).run s = (.ok count, s') ∧
    Removes chosen (entries s) (entries s') count

/-- A call has one outcome, from which the chosen keys can be seen. -/
theorem DeletesPrefix.chosen_eq {σ α : Type} [CacheStore σ] {start key : String}
    {entries : σ → OrderedMap String α} {chosen other : String → Bool} {s : σ}
    (h : DeletesPrefix start entries chosen s) (h' : DeletesPrefix start entries other s)
    (hkey : key ∈ (entries s).keys) : chosen key = other key := by
  obtain ⟨count, s', hrun, hremoves⟩ := h
  obtain ⟨count', t, hrun', hremoves'⟩ := h'
  obtain ⟨-, rfl⟩ := Prod.mk.inj (hrun.symm.trans hrun')
  exact hremoves.chosen_eq hremoves' hkey

/-- A store within the program removes the keys that start as told. -/
theorem MemoryStore.deletesPrefix (start : String) (store : MemoryStore) :
    DeletesPrefix start MemoryStore.entries (startsWith start) store :=
  ⟨_, _, rfl, removes_filter ..⟩

namespace ServerStore

variable {accepts : String → String → Bool} (start : String) (server : ServerStore accepts)

/-- The keys that are listed are those that match. -/
theorem removes_keysMatching (pattern : String) :
    Removes (accepts pattern) server.entries
      (server.removeKeys (server.keysMatching pattern)).entries
      (server.keysMatching pattern).length := by
  have hlisted : ∀ key ∈ server.entries.keys,
      (server.keysMatching pattern).contains key = accepts pattern key := fun key hkey => by
    rw [Bool.eq_iff_iff, List.contains_iff_mem, StoreLaws.mem_keysMatching, and_iff_right hkey]
  have hlength : (server.keysMatching pattern).length =
      (server.entries.keys.filter (server.keysMatching pattern).contains).length := by
    rw [keysMatching, sortTexts, List.length_mergeSort]
    exact congrArg _ (List.filter_congr fun key hkey => (hlisted key hkey).symm)
  rw [hlength]
  exact (removes_filter _ _).congr hlisted

theorem entries_removeKeys_nil : (server.removeKeys []).entries = server.entries :=
  OrderedMap.ext (List.filter_eq_self.2 fun _ _ => rfl)

/-- A server that is not down answers how many keys it lists, and removes these. -/
theorem exists_run_deletePrefix (hdown : server.down = none) : ∃ server',
    (CacheStore.deletePrefix start : CacheM (ServerStore accepts) Nat).run server =
      (.ok (server.keysMatching (patternFor start)).length, server') ∧
    server'.entries = (server.removeKeys (server.keysMatching (patternFor start))).entries := by
  obtain ⟨entries, down, scanCount, calls⟩ := server
  obtain rfl : down = none := hdown
  generalize hkeys : keysMatching (patternFor start)
    (⟨entries, none, scanCount, calls⟩ : ServerStore accepts) = keys
  have hlisted : (CacheStore.deletePrefix start : CacheM (ServerStore accepts) Nat).run
      ⟨entries, none, scanCount, calls⟩ = (do
        unless keys.isEmpty do
          request .deletePrefix (.delete keys)
          modify (removeKeys keys)
        return keys.length : CacheM (ServerStore accepts) Nat).run
      ⟨entries, none, scanCount, .scan (patternFor start) scanCount :: calls⟩ := by
    rw [← hkeys]
    rfl
  -- If no key is listed, there is no second call.
  cases keys with
  | nil => exact ⟨_, hlisted, (entries_removeKeys_nil _).symm⟩
  | cons key keys => exact ⟨_, hlisted, rfl⟩

/-- A server that is not down removes what the pattern matches. -/
theorem deletesPrefix (hdown : server.down = none) :
    DeletesPrefix start ServerStore.entries (accepts (patternFor start)) server := by
  obtain ⟨server', hrun, hentries⟩ := exists_run_deletePrefix start server hdown
  exact ⟨_, server', hrun, hentries ▸ server.removes_keysMatching (patternFor start)⟩

end ServerStore

/-! ## Starts and patterns -/

/-- Where the pattern is right about every key, it is right about all that a server has. -/
theorem ServerStore.deletesPrefix_of_isLiteral {start : String} (h : Glob.IsLiteral start)
    {server : ServerStore Glob.accepts} (hdown : server.down = none) :
    DeletesPrefix start ServerStore.entries (startsWith start) server := by
  have heq : Glob.accepts (patternFor start) = startsWith start :=
    funext (Glob.accepts_patternFor_of_isLiteral h)
  exact heq ▸ deletesPrefix start server hdown

/-- The laws of a server that lists keys by glob patterns. -/
def StoreLaws.globServer : StoreLaws (ServerStore Glob.accepts) :=
  server fun key hstart => (Glob.accepts_patternFor_of_isLiteral (by decide) key).trans hstart

/-- The server with a single key shows whether the pattern is right about it. -/
theorem Glob.isLiteral_of_deletesPrefix {start : String}
    (h : ∀ server : ServerStore Glob.accepts, server.down = none →
      DeletesPrefix start ServerStore.entries (startsWith start) server) :
    Glob.IsLiteral start := by
  refine isLiteral_of_accepts fun key => ?_
  let server : ServerStore Glob.accepts := { entries := OrderedMap.empty.put key [] }
  have hkey : key ∈ server.entries.keys :=
    OrderedMap.mem_keys_iff.2 ⟨[], OrderedMap.get?_put_self _ _ _⟩
  exact (ServerStore.deletesPrefix start server rfl).chosen_eq (h server rfl) hkey

/-- A store within the program removes exactly the keys that start as told. A server that can be
    reached removes exactly the keys that match the pattern. These are the keys that start as told,
    whatever the server has, exactly if every character of the start stands for itself. -/
theorem deletePrefix_exact_iff (start : String) :
    (∀ store : MemoryStore, DeletesPrefix start MemoryStore.entries (startsWith start) store) ∧
    (∀ server : ServerStore Glob.accepts, server.down = none →
      DeletesPrefix start ServerStore.entries (Glob.accepts (ServerStore.patternFor start))
        server) ∧
    ((∀ server : ServerStore Glob.accepts, server.down = none →
      DeletesPrefix start ServerStore.entries (startsWith start) server) ↔
        Glob.IsLiteral start) := by
  refine ⟨MemoryStore.deletesPrefix start, ServerStore.deletesPrefix start, ?_, ?_⟩
  · exact Glob.isLiteral_of_deletesPrefix
  · exact fun h server hdown => ServerStore.deletesPrefix_of_isLiteral h hdown

/-- A server with two contexts and something else. -/
def sharedServer : ServerStore Glob.accepts :=
  { entries := .ofEntries
      [("security_context:ana", [1]), ("page:home", [2]), ("security_context:bob", [3])] }

/-- From it, the contexts are removed and nothing else. -/
theorem sharedServer_deletesContexts : sharedServer.down = none ∧
    Glob.IsLiteral ContextCache.keyPrefix ∧
    DeletesPrefix ContextCache.keyPrefix ServerStore.entries (startsWith ContextCache.keyPrefix)
      sharedServer :=
  have hliteral : Glob.IsLiteral ContextCache.keyPrefix := by decide
  ⟨rfl, hliteral, (deletePrefix_exact_iff ContextCache.keyPrefix).2.2.2 hliteral sharedServer rfl⟩

/-- A server with a key of the first team, and one that starts with its name in brackets. -/
def teamServer : ServerStore Glob.accepts :=
  { entries := .ofEntries [("team1:bob", [1]), ("team[1]:ana", [2])] }

/-- The pattern takes the brackets for a choice of one digit, so the wrong key is removed. -/
theorem teamKeys_mixedUp : teamServer.down = none ∧
    (∃ server', (CacheStore.deletePrefix "team[1]:" : CacheM (ServerStore Glob.accepts) Nat).run
        teamServer = (.ok 1, server') ∧
      server'.entries.get? "team1:bob" = none ∧ startsWith "team[1]:" "team1:bob" = false ∧
      server'.entries.get? "team[1]:ana" = some [2] ∧
      startsWith "team[1]:" "team[1]:ana" = true) ∧
    ¬DeletesPrefix "team[1]:" ServerStore.entries (startsWith "team[1]:") teamServer := by
  have hbob : Glob.accepts (ServerStore.patternFor "team[1]:") "team1:bob" = true := by cbv
  have hana : Glob.accepts (ServerStore.patternFor "team[1]:") "team[1]:ana" = false := by cbv
  have hlisted : (teamServer.keysMatching (ServerStore.patternFor "team[1]:")).length = 1 := by
    have hkeys : teamServer.entries.keys = ["team1:bob", "team[1]:ana"] := by decide
    rw [ServerStore.keysMatching, sortTexts, List.length_mergeSort, hkeys]
    simp [hbob, hana]
  obtain ⟨server', hrun, hentries⟩ :=
    ServerStore.exists_run_deletePrefix "team[1]:" teamServer rfl
  have hremoves := teamServer.removes_keysMatching (ServerStore.patternFor "team[1]:")
  rw [← hentries, hlisted] at hremoves
  rw [hlisted] at hrun
  refine ⟨rfl, ⟨server', hrun, hremoves.gone _ hbob, by decide, ?_, by decide⟩, fun h => ?_⟩
  · rw [hremoves.left _ hana]
    rfl
  · have hmem : "team1:bob" ∈ teamServer.entries.keys := by decide
    have hsame := (ServerStore.deletesPrefix "team[1]:" teamServer rfl).chosen_eq h hmem
    rw [hbob] at hsame
    exact absurd hsame (by decide)

end StaffAccess

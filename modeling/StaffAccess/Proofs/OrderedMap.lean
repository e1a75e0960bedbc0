import StaffAccess.OrderedMap
import StaffAccess.Value
import Mathlib.Data.List.Forall2
import Mathlib.Data.List.Induction
import Mathlib.Tactic.Common

/-!
# Keys of ordered maps

Which keys a map has after an entry is put, and which entries the map of a list has: one for
every key of the list, in the order in which the keys first stand there, and with the value that
stands there last.

* `OrderedMap.keys_put`: only a new key is added.
* `OrderedMap.keys_collect`, `OrderedMap.exists_get?_collect`: a map put together item by item.
* `OrderedMap.keys_ofEntries`, `OrderedMap.get?_ofEntries_of_last`: the map of a list.
* `OrderedMap.entries_ofEntries_map`: the keys may be renamed beforehand.
* `OrderedMap.Forall₂`: two maps with the same keys and related values.
-/

namespace StaffAccess.OrderedMap

variable {κ α : Type} [BEq κ] {m : OrderedMap κ α} {k key : κ} {v : α}

theorem keys_mapEntries {β : Type} (f : κ → α → β) : (m.mapEntries f).keys = m.keys := by
  simp [keys, mapEntries]

/-- Only a new key is added. -/
theorem keys_put (m : OrderedMap κ α) (k : κ) (v : α) :
    (m.put k v).keys = if m.contains k then m.keys else m.keys ++ [k] := by
  rw [put]
  split_ifs with h
  · exact keys_mapEntries _
  · rw [keys, List.map_append]
    rfl

theorem mem_keys_of_mem_keys_put (h : key ∈ (m.put k v).keys) : key ∈ m.keys ∨ key = k := by
  rw [keys_put] at h
  split_ifs at h
  · exact .inl h
  · simpa using h

theorem mem_keys_put_of_mem (h : key ∈ m.keys) : key ∈ (m.put k v).keys := by
  rw [keys_put]
  split_ifs
  · exact h
  · exact List.mem_append_left _ h

/-- A text is a key once it is put. Texts are equal to themselves only. -/
theorem text_mem_keys_put {α : Type} (m : OrderedMap Value α) (s : String) (v : α) :
    .text s ∈ (m.put (.text s) v).keys := by
  rw [keys_put]
  split_ifs with h
  · obtain ⟨e, he, hsame⟩ := List.any_eq_true.1 h
    exact List.mem_map.2 ⟨e, he, (Value.same_text_right_iff s e.1).1 hsame⟩
  · exact List.mem_append_right _ List.mem_cons_self

theorem isEmpty_put (m : OrderedMap κ α) (k : κ) (v : α) : (m.put k v).isEmpty = false := by
  have hkeys : (m.put k v).keys ≠ [] := by
    rw [keys_put]
    split_ifs with h
    · obtain ⟨e, he, -⟩ := List.any_eq_true.1 h
      exact List.ne_nil_of_mem (List.mem_map_of_mem he)
    · exact List.append_ne_nil_of_right_ne_nil _ (List.cons_ne_nil _ _)
  rw [isEmpty, List.isEmpty_eq_false_iff]
  exact fun h => hkeys (congrArg (List.map Prod.fst) h)

/-! ## Maps of lists -/

/-- The map of some items that are put one after the other. Each of them has a key, and a value
    that may depend on what has been put before. -/
def collect {ι : Type} (key : ι → κ) (value : OrderedMap κ α → ι → α) (items : List ι) :
    OrderedMap κ α :=
  items.foldl (fun m i => m.put (key i) (value m i)) empty

theorem collect_concat {ι : Type} (key : ι → κ) (value : OrderedMap κ α → ι → α)
    (items : List ι) (i : ι) : collect key value (items ++ [i]) =
      (collect key value items).put (key i) (value (collect key value items) i) := by
  rw [collect, List.foldl_append]
  rfl

theorem ofEntries_concat (entries : List (κ × α)) (e : κ × α) :
    ofEntries (entries ++ [e]) = (ofEntries entries).put e.1 e.2 :=
  collect_concat ..

/-- Entries with the keys of a map are the entries of their own map. -/
theorem entries_ofEntries_of_keys {β : Type} {entries : List (κ × β)}
    (h : entries.map Prod.fst = m.keys) : (ofEntries entries).entries = entries := by
  refine entries_ofEntries ?_
  rw [← List.pairwise_map (f := Prod.fst) (R := fun k l => (k == l) = false), h, keys,
    List.pairwise_map]
  exact m.distinct

/-- Keys that are told apart as before can be renamed before they are put. -/
theorem entries_ofEntries_map {κ' : Type} [BEq κ'] {rename : κ → κ'}
    (hrename : ∀ a b, (rename a == rename b) = (a == b)) (entries : List (κ × α)) :
    (ofEntries (entries.map fun e => (rename e.1, e.2))).entries =
      (ofEntries entries).entries.map fun e => (rename e.1, e.2) := by
  induction entries using List.reverseRecOn with
  | nil => rfl
  | append_singleton entries e ih =>
    rw [List.map_append, List.map_singleton, ofEntries_concat, ofEntries_concat]
    have hcontains : (ofEntries (entries.map fun e => (rename e.1, e.2))).contains (rename e.1) =
        (ofEntries entries).contains e.1 := by
      simp [contains, ih, Function.comp_def, hrename]
    rw [put, put]
    split_ifs with h h' h'
    · simp [mapEntries, ih, Function.comp_def, hrename]
    · exact absurd (hcontains.symm.trans h) h'
    · exact absurd (hcontains.trans h') h
    · simp [ih]

section Lawful

variable [LawfulBEq κ] {entries : List (κ × α)}

theorem contains_iff : m.contains k = true ↔ k ∈ m.keys := by
  simp [contains, keys]

/-- The keys of some items, each where it first stands. -/
theorem keys_collect {ι : Type} (key : ι → κ) (value : OrderedMap κ α → ι → α)
    (items : List ι) : (collect key value items).keys = (items.map key).eraseDups := by
  induction items using List.reverseRecOn with
  | nil => rfl
  | append_singleton items i ih =>
    rw [collect_concat, keys_put, List.map_append, List.map_singleton, List.eraseDups_append,
      ← ih]
    by_cases h : key i ∈ items.map key
    · rw [if_pos (contains_iff.2 (by rwa [ih, List.mem_eraseDups]))]
      simp [List.removeAll, h]
    · rw [if_neg (contains_iff.not.2 (by rwa [ih, List.mem_eraseDups]))]
      simp [List.removeAll, h, List.eraseDups_cons]

/-- The item of a key that stands last counts. -/
theorem exists_get?_collect {ι : Type} (key : ι → κ) (value : OrderedMap κ α → ι → α)
    {items : List ι} {i : ι} (h : (items.filter (key · == k)).getLast? = some i) :
    ∃ m, (collect key value items).get? k = some (value m i) := by
  induction items using List.reverseRecOn with
  | nil => cases h
  | append_singleton items i' ih =>
    rw [List.filter_append] at h
    rw [collect_concat]
    by_cases hkey : key i' = k
    · subst hkey
      obtain rfl : i' = i := by simpa using h
      exact ⟨_, get?_put_self ..⟩
    · rw [get?_put_of_ne _ _ (Ne.symm hkey)]
      exact ih (by simpa [hkey] using h)

/-- The keys of a list, each where it first stands. -/
theorem keys_ofEntries (entries : List (κ × α)) :
    (ofEntries entries).keys = (entries.map Prod.fst).eraseDups :=
  keys_collect ..

/-- The value that stands last counts. -/
theorem get?_ofEntries_of_last {before after : List (κ × α)} (h : ∀ e ∈ after, e.1 ≠ k) :
    (ofEntries (before ++ (k, v) :: after)).get? k = some v := by
  have hlast : ((before ++ (k, v) :: after).filter (·.1 == k)).getLast? = some (k, v) := by
    have hafter : after.filter (·.1 == k) = [] := by simpa using h
    simp [hafter]
  exact (exists_get?_collect Prod.fst (fun _ e => e.2) hlast).elim fun _ h => h

/-- Where the value depends on the key only, every key has its own. -/
theorem entries_ofEntries_graph (f : κ → α) (keys : List κ) :
    (ofEntries (keys.map fun k => (k, f k))).entries = keys.eraseDups.map fun k => (k, f k) := by
  have hkeys : (ofEntries (keys.map fun k => (k, f k))).keys = keys.eraseDups := by
    rw [keys_ofEntries, List.map_map]
    exact congrArg _ (List.map_id keys)
  rw [← hkeys, OrderedMap.keys, List.map_map]
  refine (List.map_id _).symm.trans (List.map_congr_left fun e he => ?_)
  obtain ⟨k, -, rfl⟩ := List.mem_map.1 (mem_of_mem_entries_ofEntries he)
  rfl

end Lawful

/-! ## Related maps -/

/-- Whether two maps have the same keys in the same order, with related values. -/
def Forall₂ {β : Type} (R : α → β → Prop) (m : OrderedMap κ α) (n : OrderedMap κ β) : Prop :=
  List.Forall₂ (fun e e' => e.1 = e'.1 ∧ R e.2 e'.2) m.entries n.entries

section Forall₂

variable {β : Type} {R : α → β → Prop} {n : OrderedMap κ β} {w : β}

theorem forall₂_empty : (empty : OrderedMap κ α).Forall₂ R (empty : OrderedMap κ β) := .nil

theorem Forall₂.contains_eq (h : m.Forall₂ R n) (k : κ) : m.contains k = n.contains k := by
  obtain ⟨entries, distinct⟩ := m
  obtain ⟨entries', distinct'⟩ := n
  simp only [OrderedMap.Forall₂, contains] at h ⊢
  clear distinct distinct'
  induction h with
  | nil => rfl
  | cons he _ ih => rw [List.any_cons, List.any_cons, he.1, ih]

/-- What is found under a key is related. -/
theorem Forall₂.get?_rel (h : m.Forall₂ R n) (k : κ) : Option.Rel R (m.get? k) (n.get? k) := by
  obtain ⟨entries, distinct⟩ := m
  obtain ⟨entries', distinct'⟩ := n
  simp only [OrderedMap.Forall₂, get?] at h ⊢
  clear distinct distinct'
  induction h with
  | nil => exact .none
  | @cons e e' entries entries' he _ ih =>
    rw [List.find?_cons, List.find?_cons, he.1]
    cases e'.1 == k with
    | true => exact .some he.2
    | false => exact ih

/-- Maps stay related when related values are put. -/
theorem Forall₂.put (h : m.Forall₂ R n) (k : κ) (hvw : R v w) :
    (m.put k v).Forall₂ R (n.put k w) := by
  unfold OrderedMap.put
  split_ifs with hm hn hn
  · refine List.forall₂_map_left_iff.2 (List.forall₂_map_right_iff.2 (h.imp ?_))
    rintro e e' ⟨hkey, hvalue⟩
    refine ⟨hkey, ?_⟩
    dsimp only
    rw [hkey]
    split_ifs
    · exact hvw
    · exact hvalue
  · exact absurd ((h.contains_eq k).symm.trans hm) hn
  · exact absurd ((h.contains_eq k).trans hn) hm
  · exact List.rel_append h (.cons ⟨rfl, hvw⟩ .nil)

end Forall₂

end StaffAccess.OrderedMap

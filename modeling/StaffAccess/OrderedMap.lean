/-!
# Ordered maps

Maps that remember the order in which their keys were first put. Putting a key again replaces
its value and leaves its place.

* `OrderedMap.get?`, `OrderedMap.put`, `OrderedMap.erase`: the operations on one key.
* `OrderedMap.ofEntries`: the map of a list of entries, of which the last one of a key counts.
* `get?_put_self`, `get?_put_of_ne`: what is found after putting.
-/

namespace StaffAccess

/-- Entries with distinct keys. -/
structure OrderedMap (κ α : Type) [BEq κ] where
  /-- The entries, in the order of their keys. -/
  entries : List (κ × α)
  /-- No two keys are equal. -/
  distinct : entries.Pairwise fun a b => (a.1 == b.1) = false

namespace OrderedMap

variable {κ α β : Type} [BEq κ]

@[ext] theorem ext {m n : OrderedMap κ α} (h : m.entries = n.entries) : m = n := by
  cases m; cases n; cases h; rfl

/-- The map without entries. -/
def empty : OrderedMap κ α := ⟨[], .nil⟩

instance : EmptyCollection (OrderedMap κ α) := ⟨empty⟩

instance : Inhabited (OrderedMap κ α) := ⟨empty⟩

/-- The keys, in order. -/
def keys (m : OrderedMap κ α) : List κ := m.entries.map Prod.fst

/-- The values, in the order of their keys. -/
def values (m : OrderedMap κ α) : List α := m.entries.map Prod.snd

/-- Whether there is no entry. -/
def isEmpty (m : OrderedMap κ α) : Bool := m.entries.isEmpty

/-- The value of a key. -/
def get? (m : OrderedMap κ α) (k : κ) : Option α :=
  (m.entries.find? fun e => e.1 == k).map Prod.snd

/-- Whether a key has a value. -/
def contains (m : OrderedMap κ α) (k : κ) : Bool := m.entries.any fun e => e.1 == k

/-- Gives every entry's value anew. -/
def mapEntries (m : OrderedMap κ α) (f : κ → α → β) : OrderedMap κ β where
  entries := m.entries.map fun e => (e.1, f e.1 e.2)
  distinct := List.pairwise_map.2 m.distinct

/-- Keeps the entries that satisfy a test. -/
def filter (m : OrderedMap κ α) (keep : κ → α → Bool) : OrderedMap κ α where
  entries := m.entries.filter fun e => keep e.1 e.2
  distinct := m.distinct.sublist List.filter_sublist

/-- Takes a key out. -/
def erase (m : OrderedMap κ α) (k : κ) : OrderedMap κ α := m.filter fun key _ => !(key == k)

/-- Gives a key a value: in its place if it has one, and after all others if not. -/
def put (m : OrderedMap κ α) (k : κ) (v : α) : OrderedMap κ α :=
  if h : m.contains k then m.mapEntries fun key old => if key == k then v else old
  else
    { entries := m.entries ++ [(k, v)]
      distinct := by
        refine List.pairwise_append.2 ⟨m.distinct, List.pairwise_singleton .., ?_⟩
        intro a ha b hb
        rw [List.mem_singleton.1 hb]
        simpa [contains] using fun ht => h (List.any_eq_true.2 ⟨a, ha, ht⟩) }

/-- The map of some entries, put one after the other. -/
def ofEntries (entries : List (κ × α)) : OrderedMap κ α :=
  entries.foldl (fun m e => m.put e.1 e.2) empty

theorem entries_put_of_not_contains {m : OrderedMap κ α} {k : κ} (v : α)
    (h : m.contains k = false) : (m.put k v).entries = m.entries ++ [(k, v)] := by
  rw [put, dif_neg (by simp [h])]

theorem entries_foldl_put {m : OrderedMap κ α} {entries : List (κ × α)}
    (h : (m.entries ++ entries).Pairwise fun a b => (a.1 == b.1) = false) :
    (entries.foldl (fun m e => m.put e.1 e.2) m).entries = m.entries ++ entries := by
  induction entries generalizing m with
  | nil => simp
  | cons e entries ih =>
    have hnew : m.contains e.1 = false := by
      rw [contains, List.any_eq_false]
      intro a ha
      simpa using (List.pairwise_append.1 h).2.2 a ha e List.mem_cons_self
    have hput : (m.put e.1 e.2).entries ++ entries = m.entries ++ e :: entries := by
      rw [entries_put_of_not_contains _ hnew, List.append_assoc, List.singleton_append]
    rw [List.foldl_cons, ih (hput ▸ h), hput]

/-- Entries with distinct keys are the entries of their map. -/
theorem entries_ofEntries {entries : List (κ × α)}
    (h : entries.Pairwise fun a b => (a.1 == b.1) = false) :
    (ofEntries entries).entries = entries :=
  entries_foldl_put h

/-- A map is the map of its entries. -/
theorem ofEntries_entries (m : OrderedMap κ α) : ofEntries m.entries = m :=
  ext (entries_ofEntries m.distinct)

@[simp] theorem get?_empty (k : κ) : (empty : OrderedMap κ α).get? k = none := rfl

/-! ## Lawful keys -/

section Lawful

variable [LawfulBEq κ]

theorem mem_entries_iff {m : OrderedMap κ α} {k : κ} {v : α} :
    (k, v) ∈ m.entries ↔ m.get? k = some v := by
  obtain ⟨entries, distinct⟩ := m
  simp only [get?]
  induction entries with
  | nil => simp
  | cons e rest ih =>
    rw [List.pairwise_cons] at distinct
    rw [List.mem_cons, List.find?_cons]
    cases hk : e.1 == k with
    | true =>
      -- The first entry has the key, so no later one does.
      have hrest : (k, v) ∉ rest := fun hmem => by
        simpa [hk] using distinct.1 _ hmem
      obtain rfl := LawfulBEq.eq_of_beq hk
      simp [hrest, Prod.ext_iff, eq_comm]
    | false =>
      have hne : (k, v) ≠ e := by rintro rfl; simp at hk
      simpa [hne] using ih distinct.2

theorem get?_filter_eq_some_iff {m : OrderedMap κ α} {keep : κ → α → Bool} {k : κ} {v : α} :
    (m.filter keep).get? k = some v ↔ m.get? k = some v ∧ keep k v = true := by
  rw [← mem_entries_iff, ← mem_entries_iff, filter, List.mem_filter]

theorem get?_filter_of_forall {m : OrderedMap κ α} {keep : κ → α → Bool} {k : κ}
    (h : ∀ v, keep k v = true) : (m.filter keep).get? k = m.get? k :=
  Option.ext fun _ => get?_filter_eq_some_iff.trans (and_iff_left (h _))

@[simp] theorem get?_erase_self (m : OrderedMap κ α) (k : κ) : (m.erase k).get? k = none :=
  Option.eq_none_iff_forall_ne_some.2 fun v h => by
    simpa using (get?_filter_eq_some_iff.1 h).2

theorem get?_erase_of_ne (m : OrderedMap κ α) {k l : κ} (h : l ≠ k) :
    (m.erase k).get? l = m.get? l :=
  get?_filter_of_forall fun _ => by simpa using h

theorem mem_keys_iff {m : OrderedMap κ α} {k : κ} : k ∈ m.keys ↔ ∃ v, m.get? k = some v := by
  rw [keys, List.mem_map]
  constructor
  · rintro ⟨⟨key, v⟩, hmem, rfl⟩
    exact ⟨v, mem_entries_iff.1 hmem⟩
  · rintro ⟨v, hv⟩
    exact ⟨(k, v), mem_entries_iff.2 hv, rfl⟩

theorem get?_eq_none_of_not_contains {m : OrderedMap κ α} {k : κ} (h : m.contains k = false) :
    m.get? k = none := by
  simp only [get?, Option.map_eq_none_iff, List.find?_eq_none]
  simpa [contains] using h

@[simp] theorem get?_put_self (m : OrderedMap κ α) (k : κ) (v : α) :
    (m.put k v).get? k = some v := by
  rw [put]
  split
  · next h =>
    obtain ⟨e, he, hk⟩ := List.any_eq_true.1 h
    suffices ∃ e ∈ m.entries, e.1 = k by
      simp only [get?, mapEntries, List.find?_map, Option.map_map]
      cases hf : m.entries.find?
          ((fun e => e.1 == k) ∘ fun e => (e.1, if e.1 == k then v else e.2)) with
      | none =>
        obtain ⟨e, he, hk⟩ := this
        simpa [hk] using List.find?_eq_none.1 hf e he
      | some e =>
        have := List.find?_some hf
        simp_all
    exact ⟨e, he, by simpa using hk⟩
  · next h =>
    have : m.entries.find? (fun e => e.1 == k) = none := by
      refine List.find?_eq_none.2 fun e he hk => h (List.any_eq_true.2 ⟨e, he, hk⟩)
    simp [get?, List.find?_append, this]

theorem get?_put_of_ne (m : OrderedMap κ α) {k l : κ} (v : α) (h : l ≠ k) :
    (m.put k v).get? l = m.get? l := by
  rw [put]
  split
  · simp only [get?, mapEntries, List.find?_map, Option.map_map]
    have : ((fun e : κ × α => e.1 == l) ∘ fun e : κ × α => (e.1, if e.1 == k then v else e.2)) =
        fun e => e.1 == l := rfl
    rw [this]
    cases hf : m.entries.find? fun e => e.1 == l with
    | none => rfl
    | some e =>
      have he := List.find?_some hf
      simp_all
  · simp [get?, List.find?_append, Ne.symm h]

theorem mem_entries_put {m : OrderedMap κ α} {k : κ} {v : α} {e : κ × α}
    (h : e ∈ (m.put k v).entries) : e = (k, v) ∨ e ∈ m.entries := by
  obtain ⟨l, w⟩ := e
  rw [mem_entries_iff] at h ⊢
  by_cases hl : l = k
  · rw [hl, get?_put_self, Option.some.injEq] at h
    exact .inl (by rw [hl, h])
  · rw [get?_put_of_ne m v hl] at h
    exact .inr h

/-- No entry comes from elsewhere than from the list. -/
theorem mem_of_mem_entries_ofEntries {entries : List (κ × α)} {e : κ × α}
    (h : e ∈ (ofEntries entries).entries) : e ∈ entries := by
  suffices hfold : ∀ m : OrderedMap κ α,
      e ∈ (entries.foldl (fun m e => m.put e.1 e.2) m).entries → e ∈ m.entries ∨ e ∈ entries from
    (hfold empty h).resolve_left List.not_mem_nil
  clear h
  induction entries with
  | nil => exact fun m h => .inl h
  | cons e' entries ih =>
    intro m h
    rcases ih _ h with h | h
    · rcases mem_entries_put h with rfl | h
      · exact .inr List.mem_cons_self
      · exact .inl h
    · exact .inr (List.mem_cons_of_mem _ h)

end Lawful

end OrderedMap

end StaffAccess

import Mathlib.Data.List.Nodup
import Mathlib.Data.List.Perm.Subperm
import Mathlib.Tactic.Common
import StaffAccess.Value

/-!
# Equality of content

Values are compared by content, so one content can be written in several ways: `true`, `1` and
`1.0` are one number, and the entries of a record have no order. Apart from NaN, which differs from
itself, this is an equivalence. What has the content of another value can therefore stand for it in
every comparison.

A record in which a name stands twice is compared by the first entry only, and in one direction
more may fit than in the other. Read records have no such names.

* `Value.same_trans`: what has the content of a value has that of all values of this content.
* `Value.HasDistinctNames`: the values in whose records no name stands twice.
* `Value.same_symm`: these are compared in either direction.
* `Value.Alike`: two values that are one or have one content.
-/

namespace StaffAccess.Value

/-! ## Keys -/

theorem sameNumber_comm (a b : Value) : a.sameNumber b = b.sameNumber a := by
  unfold sameNumber
  cases a.quantity? <;> cases b.quantity? <;> simp [eq_comm]

theorem sameNumber_congr {a b : Value} (h : a.sameNumber b = true) (c : Value) :
    a.sameNumber c = b.sameNumber c := by
  unfold sameNumber at *
  split at h
  · rename_i m n hm hn
    rw [hm, hn, of_decide_eq_true h]
  · exact absurd h Bool.false_ne_true

/-- Keys are compared in either direction. -/
theorem same_comm_of_isKey {a : Value} (ha : a.isKey = true) (b : Value) :
    a.same b = b.same a := by
  cases a with
  | list xs => exact absurd ha Bool.false_ne_true
  | record f => exact absurd ha Bool.false_ne_true
  | null => cases b <;> simp [same, sameNumber, quantity?]
  | text s => cases b <;> simp [same, sameNumber, quantity?, eq_comm]
  | _ =>
    rw [same, sameNumber_comm]
    cases b <;> simp [same, sameNumber, quantity?]

/-- What has the content of a key has it for every other value as well. -/
theorem same_congr_of_isKey {a b : Value} (ha : a.isKey = true) (h : a.same b = true)
    (c : Value) : a.same c = b.same c := by
  cases a with
  | list xs => exact absurd ha Bool.false_ne_true
  | record f => exact absurd ha Bool.false_ne_true
  | null => rw [(same_null_left b).1 h]
  | text s => rw [(same_text_left_iff s b).1 h]
  | _ =>
    rw [same] at h ⊢
    rw [sameNumber_congr h]
    cases b <;> simp_all [same, sameNumber, quantity?]

/-! ## Lists and records -/

theorem same_list_iff {xs : List Value} {b : Value} :
    (list xs).same b = true ↔ ∃ ys, b = list ys ∧ sameItems xs ys = true := by
  cases b <;> simp [same]

theorem same_record_iff {f : Fields} {b : Value} :
    (record f).same b = true ↔ ∃ g, b = record g ∧ f.length = g.length ∧ sameFields f g = true := by
  cases b <;> simp [same]

theorem sameItems_cons_iff {x : Value} {xs ys : List Value} :
    sameItems (x :: xs) ys = true ↔
      ∃ y rest, ys = y :: rest ∧ x.same y = true ∧ sameItems xs rest = true := by
  cases ys <;> simp [sameItems]

theorem sameFields_cons_iff {name : String} {x : Value} {f g : Fields} :
    sameFields ((name, x) :: f) g = true ↔
      (∃ y, g.lookup name = some y ∧ x.same y = true) ∧ sameFields f g = true := by
  rw [sameFields, Bool.and_eq_true]
  cases g.lookup name <;> simp

theorem sameFields_iff {f g : Fields} :
    sameFields f g = true ↔ ∀ e ∈ f, ∃ y, g.lookup e.1 = some y ∧ e.2.same y = true := by
  induction f with
  | nil => simp [sameFields]
  | cons e f ih => rw [sameFields_cons_iff, ih, List.forall_mem_cons]

theorem mem_of_lookup {f : Fields} {name : String} {v : Value} (h : f.lookup name = some v) :
    (name, v) ∈ f := by
  obtain ⟨before, after, rfl, -⟩ := List.lookup_eq_some_iff.1 h
  simp

theorem lookup_of_mem {f : Fields} (hnames : (f.map Prod.fst).Nodup) {e : String × Value}
    (he : e ∈ f) : f.lookup e.1 = some e.2 := by
  obtain ⟨before, after, rfl⟩ := List.append_of_mem he
  refine List.lookup_eq_some_iff.2 ⟨before, after, rfl, fun old hold => ?_⟩
  -- An earlier entry of this name would make it stand there twice.
  rw [List.map_append, List.nodup_append] at hnames
  simpa using (hnames.2.2 old.1 (List.mem_map_of_mem hold) e.1 List.mem_cons_self).symm

/-! ## Equivalence -/

mutual

/-- What has the content of a value has that of all values of this content. -/
theorem same_trans : ∀ {a b c : Value}, a.same b = true → b.same c = true → a.same c = true
  | .list xs, b, c, hab, hbc => by
    obtain ⟨ys, rfl, hxs⟩ := same_list_iff.1 hab
    obtain ⟨zs, rfl, hys⟩ := same_list_iff.1 hbc
    exact same_list_iff.2 ⟨zs, rfl, sameItems_trans hxs hys⟩
  | .record f, b, c, hab, hbc => by
    obtain ⟨g, rfl, hlength, hf⟩ := same_record_iff.1 hab
    obtain ⟨k, rfl, hlength', hg⟩ := same_record_iff.1 hbc
    exact same_record_iff.2 ⟨k, rfl, hlength.trans hlength', sameFields_trans hf hg⟩
  | .null, _, c, hab, hbc => (same_congr_of_isKey rfl hab c).trans hbc
  | .bool _, _, c, hab, hbc => (same_congr_of_isKey rfl hab c).trans hbc
  | .int _, _, c, hab, hbc => (same_congr_of_isKey rfl hab c).trans hbc
  | .double _, _, c, hab, hbc => (same_congr_of_isKey rfl hab c).trans hbc
  | .text _, _, c, hab, hbc => (same_congr_of_isKey rfl hab c).trans hbc

theorem sameItems_trans : ∀ {xs ys zs : List Value},
    sameItems xs ys = true → sameItems ys zs = true → sameItems xs zs = true
  | [], ys, zs, hxs, hys => by
    obtain rfl : ys = [] := by simpa [sameItems] using hxs
    exact hys
  | x :: xs, ys, zs, hxs, hys => by
    obtain ⟨y, ys, rfl, hxy, hxs⟩ := sameItems_cons_iff.1 hxs
    obtain ⟨z, zs, rfl, hyz, hys⟩ := sameItems_cons_iff.1 hys
    exact sameItems_cons_iff.2 ⟨z, zs, rfl, same_trans hxy hyz, sameItems_trans hxs hys⟩

theorem sameFields_trans : ∀ {f g k : List (String × Value)},
    sameFields f g = true → sameFields g k = true → sameFields f k = true
  | [], _, _, _, _ => by rw [sameFields]
  | (name, x) :: f, g, k, hf, hg => by
    obtain ⟨⟨y, hy, hxy⟩, hf⟩ := sameFields_cons_iff.1 hf
    obtain ⟨z, hz, hyz⟩ := sameFields_iff.1 hg (name, y) (mem_of_lookup hy)
    exact sameFields_cons_iff.2 ⟨⟨z, hz, same_trans hxy hyz⟩, sameFields_trans hf hg⟩

end

/-- Whether no name stands twice in a record, however deep. -/
inductive HasDistinctNames : Value → Prop
  | key {v : Value} (h : v.isKey = true) : HasDistinctNames v
  | list {xs : List Value} (h : ∀ x ∈ xs, HasDistinctNames x) : HasDistinctNames (.list xs)
  | record {f : Fields} (hnames : (f.map Prod.fst).Nodup) (h : ∀ e ∈ f, HasDistinctNames e.2) :
    HasDistinctNames (.record f)

theorem hasDistinctNames_empty : (Value.record []).HasDistinctNames := .record .nil (by simp)

theorem HasDistinctNames.of_lookup {f : Fields} (h : (Value.record f).HasDistinctNames)
    {name : String} {v : Value} (hv : f.lookup name = some v) : v.HasDistinctNames := by
  cases h with
  | key h => exact absurd h Bool.false_ne_true
  | record _ h => exact h _ (mem_of_lookup hv)

theorem HasDistinctNames.getD_lookup {f : Fields} (h : (Value.record f).HasDistinctNames)
    (name : String) : ((f.lookup name).getD .null).HasDistinctNames := by
  cases hv : f.lookup name with
  | none => exact .key rfl
  | some v => exact h.of_lookup hv

/-- Of two records of one length, the names of the first all being in the second and distinct, the
    second has no other names. -/
theorem names_perm_of_sameFields {f g : Fields} (hnames : (f.map Prod.fst).Nodup)
    (hlength : f.length = g.length) (h : sameFields f g = true) :
    (f.map Prod.fst).Perm (g.map Prod.fst) := by
  have hsub : f.map Prod.fst ⊆ g.map Prod.fst := by
    intro name hname
    obtain ⟨e, he, rfl⟩ := List.mem_map.1 hname
    obtain ⟨y, hy, -⟩ := sameFields_iff.1 h e he
    exact List.mem_map.2 ⟨_, mem_of_lookup hy, rfl⟩
  exact (hnames.subperm hsub).perm_of_length_le (by simp [hlength])

theorem sameItems_symm {xs ys : List Value}
    (hsymm : ∀ x ∈ xs, ∀ {y : Value}, x.same y = true → y.same x = true)
    (h : sameItems xs ys = true) : sameItems ys xs = true := by
  induction xs generalizing ys with
  | nil =>
    obtain rfl : ys = [] := by simpa [sameItems] using h
    exact h
  | cons x xs ih =>
    rw [List.forall_mem_cons] at hsymm
    obtain ⟨y, ys, rfl, hxy, h⟩ := sameItems_cons_iff.1 h
    exact sameItems_cons_iff.2 ⟨x, xs, rfl, hsymm.1 hxy, ih hsymm.2 h⟩

/-- Values without repeated names are compared in either direction. -/
theorem same_symm {a b : Value} (ha : a.HasDistinctNames) (h : a.same b = true) :
    b.same a = true := by
  induction ha generalizing b with
  | key ha => rwa [← same_comm_of_isKey ha b]
  | list _ ih =>
    obtain ⟨ys, rfl, hitems⟩ := same_list_iff.1 h
    exact same_list_iff.2 ⟨_, rfl, sameItems_symm (fun x hx _ => ih x hx) hitems⟩
  | @record f hnames _ ih =>
    obtain ⟨g, rfl, hlength, hfields⟩ := same_record_iff.1 h
    have hperm := names_perm_of_sameFields hnames hlength hfields
    refine same_record_iff.2 ⟨f, rfl, hlength.symm, sameFields_iff.2 fun e he => ?_⟩
    -- The entry of this name in the first record was compared with `e`.
    obtain ⟨old, hold, hname⟩ := List.mem_map.1 (hperm.mem_iff.2 (List.mem_map_of_mem he))
    obtain ⟨y, hy, hsame⟩ := sameFields_iff.1 hfields old hold
    rw [hname, lookup_of_mem (hperm.nodup_iff.1 hnames) he, Option.some.injEq] at hy
    subst hy
    exact ⟨old.2, hname ▸ lookup_of_mem hnames hold, ih old hold hsame⟩

/-! ## Values that stand for each other -/

/-- Whether two values are one, or have one content. -/
def Alike (a b : Value) : Prop := a = b ∨ a.same b = true

namespace Alike

variable {a b : Value}

theorem refl (a : Value) : a.Alike a := .inl rfl

theorem isNull_eq (h : a.Alike b) : a.isNull = b.isNull := by
  rcases h with rfl | h
  · rfl
  · rw [Bool.eq_iff_iff, isNull_iff, isNull_iff]
    constructor
    · rintro rfl
      exact (same_null_left b).1 h
    · rintro rfl
      exact (same_null_right a).1 h

/-- Values that are alike are compared alike with any other one. -/
theorem same_left (ha : a.HasDistinctNames) (h : a.Alike b) (c : Value) : a.same c = b.same c := by
  rcases h with rfl | h
  · rfl
  · exact Bool.eq_iff_iff.2 ⟨same_trans (same_symm ha h), same_trans h⟩

/-- Any other value is compared alike with values that are alike. -/
theorem same_right (ha : a.HasDistinctNames) (h : a.Alike b) (c : Value) :
    c.same a = c.same b := by
  rcases h with rfl | h
  · rfl
  · exact Bool.eq_iff_iff.2 ⟨fun hc => same_trans hc h, fun hc => same_trans hc (same_symm ha h)⟩

end Alike

end StaffAccess.Value

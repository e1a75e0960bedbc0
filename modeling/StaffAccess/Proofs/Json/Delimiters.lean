import StaffAccess.Proofs.Json.RoundTrip
import StaffAccess.Proofs.Traversal

/-!
# Where written values end

Not everything that is written can be read back: a whole number can have too many digits, lists
and records can lie too deep in each other, and of two entries of one name only one is left. But
if a value is read at all, then up to the place where it was written to end, whatever it is made
of. So what stands behind it is read as well, and texts and doubles are read as they were written
wherever they stand.

* `Value.Retains`: what is certain about a value that was read.
* `Json.IsDelimited`: a value that is read up to its end, if it is read.
* `Json.isDelimited_write`: every value is.
* `PayloadFormat.exists_entries_of_decode`: what is certain about the payload of a record.
-/

namespace StaffAccess

/-- Whether a value that was read is the one that was written as far as that is a text or a
    double. -/
structure Value.Retains (v v' : Value) : Prop where
  text : ∀ s, v = .text s → v' = .text s
  double : ∀ d, v = .double d → d.IsRepresentable → v' = .double d

theorem Value.Retains.refl (v : Value) : v.Retains v := ⟨fun _ h => h, fun _ h _ => h⟩

/-- Whether entries that were read are those that were written, with the same names and with
    values that were retained. -/
def Value.RetainsEntries (f f' : Fields) : Prop :=
  List.Forall₂ (fun e e' => e'.1 = e.1 ∧ e.2.Retains e'.2) f f'

theorem Value.RetainsEntries.names {f f' : Fields} (h : RetainsEntries f f') :
    f'.map Prod.fst = f.map Prod.fst := by
  induction h with
  | nil => rfl
  | cons he _ ih => rw [List.map_cons, List.map_cons, he.1, ih]

theorem Value.RetainsEntries.lookup {f f' : Fields} (h : RetainsEntries f f') (name : String)
    {v : Value} (hv : f.lookup name = some v) :
    ∃ v', f'.lookup name = some v' ∧ v.Retains v' := by
  induction h with
  | nil => cases hv
  | @cons e e' _ _ he _ ih =>
    rw [List.lookup_cons] at hv ⊢
    rw [he.1]
    split at hv
    · cases hv
      exact ⟨e'.2, rfl, he.2⟩
    · exact ih hv

namespace Json

variable {steps depth : Nat} {cs rest : List Char} {r : Value × List Char}

/-! ## Scalars -/

/-- No word starts like a whole number. -/
theorem takeScalar_of_isDigit (negative : Bool) {c : Char} (hc : c.isDigit = true) :
    takeScalar (sign negative ++ c :: cs) = takeNumber (sign negative ++ c :: cs) := by
  have hne : c ∉ ['n', 't', 'f', 'N', 'I', '-'] := notMem_of_isDigit hc rfl
  have hwords : ∀ w ∈ words,
      (takeWord? w.1 (sign negative ++ c :: cs)).map (fun rest => (w.2, rest)) = none := by
    intro w hw
    simp only [List.mem_cons, List.not_mem_nil, or_false, not_or, eq_comm (a := c)] at hne
    simp only [words, List.mem_cons, List.not_mem_nil, or_false] at hw
    rcases hw with rfl | rfl | rfl | rfl | rfl | rfl <;> cases negative <;>
      simp [takeWord?, sign, List.isPrefixOf, hne]
  rw [takeScalar, List.findSome?_eq_none_iff.2 hwords, Option.none_or]

/-- A whole number with too many digits is not read. -/
theorem takeScalar_int_of_tooLong {n : Int}
    (hlength : Text.maxDigits < (Nat.toDigits 10 n.natAbs).length) (hrest : Ends rest) :
    takeScalar ((toString n).toList ++ rest) = none := by
  obtain ⟨c, ds, hdigits, hlist, hds⟩ := exists_toList_toString n
  have hwhole : IsWhole (c :: ds) := hds ▸ isWhole_toDigits _
  rw [hlist, List.append_assoc, List.cons_append,
    takeScalar_of_isDigit _ (hdigits c List.mem_cons_self), ← List.cons_append,
    takeNumber_eq (hwhole.takeMinus_append _) (hwhole.takeWhole?_append hrest.stopsDigits)
      hrest.takeFraction hrest.takeExponent, if_pos (by simp), if_pos (hds ▸ hlength)]

/-! ## Where values end -/

/-- Whether a value is read up to where it was written to end, if it is read. -/
def IsDelimited (depth : Nat) (v : Value) : Prop :=
  ∀ steps rest r, Ends rest → takeValue steps depth ((write v).toList ++ rest) = .ok r →
    v.Retains r.1 ∧ r.2 = rest

/-- A scalar that can be read is read in one way only. -/
theorem takeValue_eq_of_takeScalar {r' : Value × List Char} (hscalar : takeScalar cs = some r')
    (h : takeValue steps depth cs = .ok r) : r = r' := by
  cases steps with
  | zero => cases h
  | succ steps => exact Except.ok.inj (h.symm.trans (takeValue_of_takeScalar hscalar))

theorem isDelimited_of_takeScalar {v : Value}
    (h : ∀ rest, Ends rest → takeScalar ((write v).toList ++ rest) = some (v, rest)) :
    IsDelimited depth v := by
  intro steps rest r hrest htake
  obtain rfl := takeValue_eq_of_takeScalar (h rest hrest) htake
  exact ⟨.refl v, rfl⟩

theorem isDelimited_int (n : Int) : IsDelimited depth (.int n) := by
  by_cases hlength : (Nat.toDigits 10 n.natAbs).length ≤ Text.maxDigits
  · exact isDelimited_of_takeScalar fun rest hrest => takeScalar_int hlength hrest
  · intro steps rest r hrest htake
    have hnone := takeScalar_int_of_tooLong (Nat.lt_of_not_le hlength) hrest
    obtain ⟨c, ds, hdigits, hlist, -⟩ := exists_toList_toString n
    have hc := hdigits c List.mem_cons_self
    rw [write] at htake
    -- Neither a sign nor a digit starts a text, a list or a record.
    obtain ⟨d, ds', hcons, hd⟩ : ∃ d ds', (toString n).toList ++ rest = d :: ds' ∧
        d ∉ ['"', '[', '\x7b'] := by
      rw [hlist]
      cases decide (n < 0) with
      | true => exact ⟨'-', _, rfl, by decide⟩
      | false => exact ⟨c, _, rfl, notMem_of_isDigit hc rfl⟩
    rw [hcons] at hnone htake
    cases hnone.symm.trans (takeScalar_of_takeValue hd htake)

theorem isDelimited_double (d : Double) : IsDelimited depth (.double d) := by
  intro steps rest r hrest htake
  rw [write] at htake
  -- Any double ends where it was written to; only one that there is comes back as it was.
  obtain ⟨d', hd'⟩ := exists_takeScalar_double d hrest
  obtain rfl := takeValue_eq_of_takeScalar hd' htake
  refine ⟨⟨nofun, ?_⟩, rfl⟩
  rintro _ ⟨⟩ hrepresentable
  cases hd'.symm.trans (takeScalar_double hrepresentable hrest)
  rfl

theorem isDelimited_text (s : String) : IsDelimited depth (.text s) := by
  intro steps rest r hrest htake
  cases steps with
  | zero => cases htake
  | succ steps =>
    rw [write, toList_quoted, List.cons_append, List.append_assoc, List.singleton_append] at htake
    change (orBad (takeText _ _) >>= fun r => pure (Value.text (String.ofList r.1), r.2)) = _
      at htake
    rw [takeText_quoted] at htake
    cases htake
    rw [String.ofList_toList]
    exact ⟨.refl _, rfl⟩

/-! ## Items -/

/-- Items that are read end where the list does. -/
theorem takeItems_delimited {xs : List Value} (hne : xs ≠ []) (h : ∀ x ∈ xs, IsDelimited depth x)
    {r : List Value × List Char}
    (htake : takeItems steps depth ((writeItems xs).toList ++ ']' :: rest) = .ok r) :
    r.2 = rest := by
  induction xs generalizing steps r with
  | nil => exact absurd rfl hne
  | cons x xs ih =>
    rw [List.forall_mem_cons] at h
    cases steps with
    | zero => cases htake
    | succ steps =>
      cases xs with
      | nil =>
        rw [toList_writeItems_singleton, takeItems, bind_eq_ok_iff] at htake
        obtain ⟨⟨x', rest'⟩, hx, htake⟩ := htake
        obtain ⟨-, rfl⟩ := h.1 _ _ _ (ends_bracket rest) hx
        cases htake
        rfl
      | cons y xs =>
        rw [toList_writeItems_cons, List.append_assoc, List.cons_append, takeItems,
          bind_eq_ok_iff] at htake
        obtain ⟨⟨x', rest'⟩, hx, htake⟩ := htake
        obtain ⟨-, rfl⟩ := h.1 _ _ _ (ends_comma _) hx
        -- The item ends at its comma, where the other items are read from.
        change (takeItems steps depth (skipBlanks ((writeItems (y :: xs)).toList ++ ']' :: rest))
          >>= fun r => pure (x' :: r.1, r.2)) = .ok r at htake
        rw [(startsValue_writeItems (List.cons_ne_nil y xs) rest).1, bind_eq_ok_iff] at htake
        obtain ⟨r', hxs, htake⟩ := htake
        cases htake
        have hrest : r'.2 = rest := ih (List.cons_ne_nil y xs) h.2 hxs
        exact hrest

theorem isDelimited_list {xs : List Value} (h : ∀ depth, ∀ x ∈ xs, IsDelimited depth x) :
    IsDelimited depth (.list xs) := by
  intro steps rest r _ htake
  rw [toList_write_list, List.cons_append, List.append_assoc, List.singleton_append] at htake
  cases steps with
  | zero => cases htake
  | succ steps =>
    cases depth with
    | zero => cases htake
    | succ depth =>
      cases xs with
      | nil =>
        cases htake
        exact ⟨.refl _, rfl⟩
      | cons x xs =>
        rw [takeValue_list (startsValue_writeItems (List.cons_ne_nil x xs) rest),
          bind_eq_ok_iff] at htake
        obtain ⟨r', hitems, htake⟩ := htake
        cases htake
        exact ⟨⟨nofun, nofun⟩, takeItems_delimited (List.cons_ne_nil x xs) (h depth) hitems⟩

/-! ## Entries -/

/-- Entries that are read end where the record does, with the same names. -/
theorem takeEntries_delimited {f : Fields} (hne : f ≠ []) (h : ∀ e ∈ f, IsDelimited depth e.2)
    {r : Fields × List Char}
    (htake : takeEntries steps depth ((writeFields f).toList ++ '\x7d' :: rest) = .ok r) :
    Value.RetainsEntries f r.1 ∧ r.2 = rest := by
  induction f generalizing steps r with
  | nil => exact absurd rfl hne
  | cons e f ih =>
    rw [List.forall_mem_cons] at h
    cases steps with
    | zero => cases htake
    | succ steps =>
      cases f with
      | nil =>
        rw [toList_writeFields_singleton] at htake
        simp only [List.cons_append, List.append_assoc] at htake
        rw [takeEntries_eq e (ends_brace rest), bind_eq_ok_iff] at htake
        obtain ⟨⟨x, rest'⟩, hx, htake⟩ := htake
        obtain ⟨hretains, rfl⟩ := h.1 _ _ _ (ends_brace rest) hx
        cases htake
        exact ⟨.cons ⟨rfl, hretains⟩ .nil, rfl⟩
      | cons e' f =>
        rw [toList_writeFields_cons] at htake
        simp only [List.cons_append, List.append_assoc] at htake
        rw [takeEntries_eq e (ends_comma _), bind_eq_ok_iff] at htake
        obtain ⟨⟨x, rest'⟩, hx, htake⟩ := htake
        obtain ⟨hretains, rfl⟩ := h.1 _ _ _ (ends_comma _) hx
        obtain ⟨cs, hcs⟩ := exists_writeFields_eq e' f
        have hstarts : skipBlanks ((writeFields (e' :: f)).toList ++ '\x7d' :: rest) =
            (writeFields (e' :: f)).toList ++ '\x7d' :: rest := by
          rw [hcs]
          rfl
        change (takeEntries steps depth (skipBlanks ((writeFields (e' :: f)).toList ++
          '\x7d' :: rest)) >>= fun r => pure ((e.1, x) :: r.1, r.2)) = .ok r at htake
        rw [hstarts, bind_eq_ok_iff] at htake
        obtain ⟨r', hentries, htake⟩ := htake
        cases htake
        obtain ⟨hretains', hrest⟩ := ih (List.cons_ne_nil e' f) h.2 hentries
        exact ⟨.cons ⟨rfl, hretains⟩ hretains', hrest⟩

/-- A record that is read has the entries that were written, taken together by their names. -/
theorem takeValue_record_delimited {f : Fields} (h : ∀ depth, ∀ e ∈ f, IsDelimited depth e.2)
    (htake : takeValue steps depth ((write (.record f)).toList ++ rest) = .ok r) :
    ∃ entries, Value.RetainsEntries f entries ∧
      r = (.record (Value.fieldsOfEntries entries), rest) := by
  rw [toList_write_record, List.cons_append, List.append_assoc, List.singleton_append] at htake
  cases steps with
  | zero => cases htake
  | succ steps =>
    cases depth with
    | zero => cases htake
    | succ depth =>
      cases f with
      | nil =>
        cases htake
        exact ⟨[], .nil, rfl⟩
      | cons e f =>
        obtain ⟨cs, hcs⟩ := exists_writeFields_eq e f
        rw [hcs, List.cons_append, takeValue_record, ← List.cons_append, ← hcs,
          bind_eq_ok_iff] at htake
        obtain ⟨r', hentries, htake⟩ := htake
        cases htake
        obtain ⟨hretains, hrest⟩ :=
          takeEntries_delimited (List.cons_ne_nil e f) (h depth) hentries
        exact ⟨r'.1, hretains, by rw [hrest]⟩

/-! ## Every value -/

mutual

/-- Every value that is read is read up to where it was written to end. -/
theorem isDelimited_write : ∀ (v : Value) (depth : Nat), IsDelimited depth v
  | .null, _ => isDelimited_of_takeScalar fun _ _ => rfl
  | .bool b, _ => by cases b <;> exact isDelimited_of_takeScalar fun _ _ => rfl
  | .int n, _ => isDelimited_int n
  | .double d, _ => isDelimited_double d
  | .text s, _ => isDelimited_text s
  | .list xs, _ => isDelimited_list fun depth x hx => isDelimited_items xs depth x hx
  | .record f, _ => by
    intro steps rest r _ htake
    obtain ⟨entries, -, rfl⟩ :=
      takeValue_record_delimited (fun depth e he => isDelimited_entries f depth e he) htake
    exact ⟨⟨nofun, nofun⟩, rfl⟩

theorem isDelimited_items : ∀ (xs : List Value) (depth : Nat), ∀ x ∈ xs, IsDelimited depth x
  | [], _ => nofun
  | x :: xs, depth => List.forall_mem_cons.2
    ⟨isDelimited_write x depth, isDelimited_items xs depth⟩

theorem isDelimited_entries : ∀ (f : Fields) (depth : Nat), ∀ e ∈ f, IsDelimited depth e.2
  | [], _ => nofun
  | (_, x) :: f, depth => List.forall_mem_cons.2
    ⟨isDelimited_write x depth, isDelimited_entries f depth⟩

end

/-- A record that is read as a whole has the entries that were written. -/
theorem exists_entries_of_read {f : Fields} {v : Value} (h : read (write (.record f)) = .ok v) :
    ∃ entries, Value.RetainsEntries f entries ∧ v = .record (Value.fieldsOfEntries entries) := by
  have hstarts : StartsValue ((write (.record f)).toList ++ []) := startsValue_write _ nofun
  rw [List.append_nil] at hstarts
  rw [read, hstarts.1, bind_eq_ok_iff] at h
  obtain ⟨⟨v', rest⟩, htake, h⟩ := h
  rw [← List.append_nil (write (.record f)).toList] at htake
  obtain ⟨entries, hretains, hr⟩ :=
    takeValue_record_delimited (fun depth e he => isDelimited_entries f depth e he) htake
  cases hr
  cases h
  exact ⟨entries, hretains, rfl⟩

end Json

/-- The payload of a record with distinct names is read as a record of the same names, in which
    texts and doubles are as they were written. -/
theorem PayloadFormat.exists_entries_of_decode {f : Fields} (hnames : (f.map Prod.fst).Nodup)
    {v : Value} (h : PayloadFormat.json.decode (PayloadFormat.json.encode (.record f)) = .ok v) :
    ∃ entries, Value.RetainsEntries f entries ∧ v = .record entries := by
  simp only [PayloadFormat.json, Text.decode?_encode (Json.arePlain_write _)] at h
  obtain ⟨entries, hretains, rfl⟩ := Json.exists_entries_of_read h
  rw [Value.fieldsOfEntries_of_nodup (hretains.names ▸ hnames)]
  exact ⟨entries, hretains, rfl⟩

end StaffAccess

import StaffAccess.Cache.Payload
import StaffAccess.Proofs.Json.Steps

/-!
# JSON texts are read back

A value that a JSON text can stand for is read back as it was written: the items and entries in
their order, and every scalar as it was. The limits on such values are those of reading: whole
numbers do not have too many digits, lists and records do not lie too deep in each other, and no
name stands twice in a record.

Reading takes a bounded number of steps. A value takes no more of them than twice the number of
its characters, and the items of a list or the entries of a record take one more.

* `Value.IsJson`: the values that a JSON text can stand for.
* `Json.read_write`: they are read back.
* `PayloadFormat.decode_encode`: so are their payloads.
-/

namespace StaffAccess

/-- Whether a JSON text can stand for a value, with lists and records no more than `depth` deep
    in each other. -/
inductive Value.IsJson : (depth : Nat) → Value → Prop
  | null {depth : Nat} : IsJson depth .null
  | bool {depth : Nat} (b : Bool) : IsJson depth (.bool b)
  | int {depth : Nat} {n : Int} (h : (Nat.toDigits 10 n.natAbs).length ≤ Text.maxDigits) :
    IsJson depth (.int n)
  | double {depth : Nat} {d : Double} (h : d.IsRepresentable) : IsJson depth (.double d)
  | text {depth : Nat} (s : String) : IsJson depth (.text s)
  | list {depth : Nat} {xs : List Value} (h : ∀ x ∈ xs, IsJson depth x) :
    IsJson (depth + 1) (.list xs)
  | record {depth : Nat} {f : Fields} (hnames : (f.map Prod.fst).Nodup)
    (h : ∀ e ∈ f, IsJson depth e.2) : IsJson (depth + 1) (.record f)

theorem Value.IsJson.mono {v : Value} {depth depth' : Nat} (h : v.IsJson depth)
    (hdepth : depth ≤ depth') : v.IsJson depth' := by
  induction h generalizing depth' with
  | null => exact .null
  | bool b => exact .bool b
  | int h => exact .int h
  | double h => exact .double h
  | text s => exact .text s
  | list _ ih =>
    obtain ⟨depth', rfl⟩ := Nat.exists_eq_add_one_of_ne_zero (show depth' ≠ 0 by omega)
    exact .list fun x hx => ih x hx (Nat.le_of_succ_le_succ hdepth)
  | record hnames _ ih =>
    obtain ⟨depth', rfl⟩ := Nat.exists_eq_add_one_of_ne_zero (show depth' ≠ 0 by omega)
    exact .record hnames fun e he => ih e he (Nat.le_of_succ_le_succ hdepth)

/-! ## Records -/

/-- Entries of different names are set at the end, one after the other. -/
theorem Value.foldl_setField {fields entries : Fields}
    (h : ((fields ++ entries).map Prod.fst).Nodup) :
    entries.foldl (fun fields e => setField fields e.1 e.2) fields = fields ++ entries := by
  induction entries generalizing fields with
  | nil => rw [List.foldl_nil, List.append_nil]
  | cons e entries ih =>
    have hnew : fields.lookup e.1 = none := by
      rw [List.map_append, List.nodup_append] at h
      refine List.lookup_eq_none_iff.2 fun old hold => ?_
      -- An entry of this name in front would make it stand there twice.
      have hne := h.2.2 old.1 (List.mem_map_of_mem hold) e.1 List.mem_cons_self
      simpa using hne.symm
    have hset : setField fields e.1 e.2 ++ entries = fields ++ e :: entries := by
      rw [setField, hnew, if_neg (by simp), List.append_assoc]
      rfl
    rw [List.foldl_cons, ih (hset ▸ h), hset]

theorem Value.fieldsOfEntries_of_nodup {f : Fields} (h : (f.map Prod.fst).Nodup) :
    fieldsOfEntries f = f := foldl_setField h

namespace Json

variable {steps depth : Nat} {rest : List Char}

/-! ## Values -/

/-- Whether a value is read back wherever it is written. -/
def ReadsBack (depth : Nat) (v : Value) : Prop :=
  ∀ steps rest, 2 * (write v).toList.length ≤ steps → Ends rest →
    takeValue steps depth ((write v).toList ++ rest) = .ok (v, rest)

theorem readsBack_of_takeScalar {v : Value}
    (h : ∀ rest, Ends rest → takeScalar ((write v).toList ++ rest) = some (v, rest)) :
    ReadsBack depth v := by
  intro steps rest hsteps hrest
  -- Nothing is read from an empty text, so at least one step is left.
  have hpos : 0 < (write v).toList.length := by
    refine List.length_pos_iff.2 fun hnil => ?_
    have hempty := h [] nofun
    rw [hnil] at hempty
    cases hempty
  obtain ⟨steps, rfl⟩ := Nat.exists_eq_add_one_of_ne_zero (show steps ≠ 0 by omega)
  exact takeValue_of_takeScalar (h rest hrest)

theorem readsBack_text (s : String) : ReadsBack depth (.text s) := by
  intro steps rest hsteps _
  rw [write, toList_quoted] at hsteps ⊢
  rw [List.length_cons] at hsteps
  obtain ⟨steps, rfl⟩ := Nat.exists_eq_add_one_of_ne_zero (show steps ≠ 0 by omega)
  rw [List.cons_append, List.append_assoc, List.singleton_append]
  show (orBad (takeText _ _) >>= fun r => pure (Value.text (String.ofList r.1), r.2)) = _
  rw [takeText_quoted]
  show Except.ok (Value.text (String.ofList s.toList), rest) = _
  rw [String.ofList_toList]

/-! ## Items -/

/-- The items of a list are read back. -/
theorem takeItems_writeItems {xs : List Value} (hne : xs ≠ []) (h : ∀ x ∈ xs, ReadsBack depth x)
    (hsteps : 2 * (writeItems xs).toList.length + 1 ≤ steps) (rest : List Char) :
    takeItems steps depth ((writeItems xs).toList ++ ']' :: rest) = .ok (xs, rest) := by
  induction xs generalizing steps with
  | nil => exact absurd rfl hne
  | cons x xs ih =>
    obtain ⟨steps, rfl⟩ := Nat.exists_eq_add_one_of_ne_zero (show steps ≠ 0 by omega)
    rw [List.forall_mem_cons] at h
    -- An item takes one step more than its value. The comma behind it, or else the one step that
    -- was added, makes up for it.
    cases xs with
    | nil =>
      rw [toList_writeItems_singleton] at hsteps ⊢
      rw [takeItems, h.1 steps (']' :: rest) (by omega) (ends_bracket rest)]
      rfl
    | cons y xs =>
      rw [toList_writeItems_cons, List.length_append, List.length_cons] at hsteps
      rw [toList_writeItems_cons, List.append_assoc, List.cons_append, takeItems,
        h.1 steps _ (by omega) (ends_comma _)]
      show (takeItems steps depth (skipBlanks ((writeItems (y :: xs)).toList ++ ']' :: rest)) >>=
        fun r => pure (x :: r.1, r.2)) = _
      rw [(startsValue_writeItems (List.cons_ne_nil y xs) rest).1,
        ih (List.cons_ne_nil _ _) h.2 (by omega)]
      rfl

theorem readsBack_list {xs : List Value} (h : ∀ x ∈ xs, ReadsBack depth x) :
    ReadsBack (depth + 1) (.list xs) := by
  intro steps rest hsteps _
  rw [toList_write_list] at hsteps ⊢
  rw [List.length_cons, List.length_append] at hsteps
  obtain ⟨steps, rfl⟩ := Nat.exists_eq_add_one_of_ne_zero (show steps ≠ 0 by omega)
  rw [List.cons_append, List.append_assoc, List.singleton_append]
  -- The brackets make up for the step of the value and the one that its items take in addition.
  cases xs with
  | nil => rfl
  | cons x xs =>
    rw [takeValue_list (startsValue_writeItems (List.cons_ne_nil x xs) rest),
      takeItems_writeItems (List.cons_ne_nil _ _) h (by omega)]
    rfl

/-! ## Entries -/

/-- An entry is read back up to its value, and what comes next decides how it goes on. -/
theorem takeEntries_cons {e : String × Value} (h : ReadsBack depth e.2)
    (hsteps : 2 * (write e.2).toList.length ≤ steps) (hrest : Ends rest) :
    takeEntries (steps + 1) depth ('"' :: (e.1.toList.flatMap character ++
      '"' :: ':' :: ((write e.2).toList ++ rest))) =
      match skipBlanks rest with
      | '\x7d' :: rest => .ok ([e], rest)
      | ',' :: rest => do
        let (entries, rest) ← takeEntries steps depth (skipBlanks rest)
        return (e :: entries, rest)
      | _ => .error .badValue := by
  rw [takeEntries_eq e hrest, h steps rest hsteps hrest]
  rfl

/-- The entries of a record are read back. -/
theorem takeEntries_writeFields {f : Fields} (hne : f ≠ []) (h : ∀ e ∈ f, ReadsBack depth e.2)
    (hsteps : 2 * (writeFields f).toList.length + 1 ≤ steps) (rest : List Char) :
    takeEntries steps depth ((writeFields f).toList ++ '\x7d' :: rest) = .ok (f, rest) := by
  induction f generalizing steps with
  | nil => exact absurd rfl hne
  | cons e f ih =>
    obtain ⟨steps, rfl⟩ := Nat.exists_eq_add_one_of_ne_zero (show steps ≠ 0 by omega)
    rw [List.forall_mem_cons] at h
    -- As with items, the comma makes up for the step that an entry takes.
    cases f with
    | nil =>
      rw [toList_writeFields_singleton] at hsteps ⊢
      simp only [List.length_cons, List.length_append] at hsteps
      simp only [List.cons_append, List.append_assoc]
      rw [takeEntries_cons h.1 (by omega) (ends_brace rest)]
      rfl
    | cons e' f =>
      rw [toList_writeFields_cons] at hsteps ⊢
      simp only [List.length_cons, List.length_append] at hsteps
      simp only [List.cons_append, List.append_assoc]
      rw [takeEntries_cons h.1 (by omega) (ends_comma _)]
      have hentries : takeEntries steps depth
          ((writeFields (e' :: f)).toList ++ '\x7d' :: rest) = .ok (e' :: f, rest) :=
        ih (List.cons_ne_nil e' f) h.2 (by omega)
      obtain ⟨cs, hcs⟩ := exists_writeFields_eq e' f
      rw [hcs, List.cons_append] at hentries ⊢
      show (takeEntries steps depth ('"' :: (cs ++ '\x7d' :: rest)) >>=
        fun r => pure (e :: r.1, r.2)) = _
      rw [hentries]
      rfl

theorem readsBack_record {f : Fields} (hnames : (f.map Prod.fst).Nodup)
    (h : ∀ e ∈ f, ReadsBack depth e.2) : ReadsBack (depth + 1) (.record f) := by
  intro steps rest hsteps _
  rw [toList_write_record] at hsteps ⊢
  rw [List.length_cons, List.length_append] at hsteps
  obtain ⟨steps, rfl⟩ := Nat.exists_eq_add_one_of_ne_zero (show steps ≠ 0 by omega)
  rw [List.cons_append, List.append_assoc, List.singleton_append]
  cases f with
  | nil => rfl
  | cons e f =>
    have hentries : takeEntries steps depth ((writeFields (e :: f)).toList ++ '\x7d' :: rest) =
        .ok (e :: f, rest) := takeEntries_writeFields (List.cons_ne_nil e f) h (by omega) rest
    obtain ⟨cs, hcs⟩ := exists_writeFields_eq e f
    rw [hcs, List.cons_append] at hentries ⊢
    rw [takeValue_record, hentries]
    show Except.ok (Value.record (Value.fieldsOfEntries (e :: f)), rest) = _
    rw [Value.fieldsOfEntries_of_nodup hnames]

/-! ## Whole texts -/

/-- Every JSON value is read back wherever it is written. -/
theorem readsBack_of_isJson {v : Value} (h : v.IsJson depth) : ReadsBack depth v := by
  -- The induction follows the value; what `ReadsBack` asks for is general enough to be used for
  -- the parts of a value at their places in the text.
  induction h with
  | null => exact readsBack_of_takeScalar fun _ _ => rfl
  | bool b => cases b <;> exact readsBack_of_takeScalar fun _ _ => rfl
  | int h => exact readsBack_of_takeScalar fun _ hrest => takeScalar_int h hrest
  | double h => exact readsBack_of_takeScalar fun _ hrest => takeScalar_double h hrest
  | text s => exact readsBack_text s
  | list _ ih => exact readsBack_list ih
  | record hnames _ ih => exact readsBack_record hnames ih

/-- A JSON value is read back. -/
theorem read_write {v : Value} (h : v.IsJson maxDepth) : read (write v) = .ok v := by
  have hvalue := readsBack_of_isJson h (2 * (write v).toList.length + 1) [] (by omega) nofun
  rw [List.append_nil] at hvalue
  rw [read, (startsValue_of_takeValue hvalue).1, hvalue]
  rfl

/-! ## Octets -/

/-- Whether a text has only characters that JSON texts are written with. -/
def ArePlain (s : String) : Prop := ∀ c ∈ s.toList, Text.IsPlain c

instance (s : String) : Decidable (ArePlain s) := List.decidableBAll _ _

theorem ArePlain.append {s t : String} (hs : ArePlain s) (ht : ArePlain t) : ArePlain (s ++ t) := by
  intro c hc
  rw [String.toList_append] at hc
  exact (List.mem_append.1 hc).elim (hs c) (ht c)

theorem arePlain_ite {p : Prop} [Decidable p] {s t : String} (hs : ArePlain s) (ht : ArePlain t) :
    ArePlain (if p then s else t) := by
  split_ifs
  · exact hs
  · exact ht

theorem AreDigits.arePlain {cs : List Char} (h : AreDigits cs) : ArePlain (String.ofList cs) := by
  intro c hc
  rw [String.toList_ofList] at hc
  have hdigit := Char.isDigit_iff_toNat.1 (h c hc)
  exact ⟨by have := hdigit.1; simp at this; omega, by have := hdigit.2; simp at this; omega⟩

theorem arePlain_toString_nat (n : Nat) : ArePlain (toString n) := (areDigits_toDigits n).arePlain

theorem arePlain_toString (n : Int) : ArePlain (toString n) := by
  cases n with
  | ofNat m => exact arePlain_toString_nat m
  | negSucc m => exact ArePlain.append (s := "-") (by decide) (arePlain_toString_nat (m + 1))

theorem arePlain_zeros (n : Nat) : ArePlain (Double.zeros n) := (areDigits_replicate n).arePlain

theorem arePlain_exponentText (exponent : Int) : ArePlain (Double.exponentText exponent) := by
  have hdigits := arePlain_toString_nat exponent.natAbs
  exact (arePlain_ite (by decide) (by decide)).append
    (arePlain_ite (ArePlain.append (s := "0") (by decide) hdigits) hdigits)

theorem arePlain_decimalText (d : Decimal) : ArePlain (Double.decimalText d) := by
  have hdigits : AreDigits (toString d.digits).toList := by
    rw [show (toString d.digits).toList = Nat.toDigits 10 d.digits from Nat.toList_repr]
    exact areDigits_toDigits _
  rw [Double.decimalText]
  refine arePlain_ite (arePlain_ite ?_ (arePlain_ite ?_ ?_)) ?_
  · exact (ArePlain.append (s := "0.") (by decide) (arePlain_zeros _)).append hdigits.arePlain
  · exact (hdigits.arePlain.append (arePlain_zeros _)).append (by decide)
  · exact ((hdigits.take _).arePlain.append (by decide)).append (hdigits.drop _).arePlain
  · refine ((hdigits.take 1).arePlain.append (arePlain_ite (by decide) ?_)).append
      (arePlain_exponentText _)
    exact ArePlain.append (s := ".") (by decide) (hdigits.drop 1).arePlain

theorem arePlain_double (d : Double) : ArePlain (double d) := by
  cases d with
  | nan => decide
  | infinite s => cases s <;> decide
  | finite s u => exact (arePlain_ite (by decide) (by decide)).append (arePlain_decimalText _)

theorem isPlain_of_mem_hex {width n : Nat} {c : Char} (hc : c ∈ Text.hex width n) :
    Text.IsPlain c := by
  have hdigit : ∀ m < 16, Text.IsPlain (Text.hexDigit m) := by decide
  induction width generalizing n with
  | zero => cases hc
  | succ width ih =>
    rw [Text.hex, List.mem_append, List.mem_singleton] at hc
    rcases hc with hc | rfl
    · exact ih hc
    · exact hdigit _ (Nat.mod_lt _ (by decide))

theorem isPlain_of_mem_unit {n : Nat} {c : Char} (hc : c ∈ unit n) : Text.IsPlain c := by
  rw [unit, List.mem_cons, List.mem_cons] at hc
  rcases hc with rfl | rfl | hc
  · decide
  · decide
  · exact isPlain_of_mem_hex hc

theorem isPlain_of_mem_escape {letter d : Char} (hletter : Text.IsPlain letter)
    (hd : d ∈ ['\\', letter]) : Text.IsPlain d := by
  rw [List.mem_cons, List.mem_singleton] at hd
  rcases hd with rfl | rfl
  · decide
  · exact hletter

theorem isPlain_of_mem_character {c d : Char} (hd : d ∈ character c) : Text.IsPlain d := by
  rw [character] at hd
  split_ifs at hd with hself hnewline hreturn htab hback hfeed hplain hsmall
  · refine isPlain_of_mem_escape ?_ hd
    rcases hself with rfl | rfl <;> decide
  · exact isPlain_of_mem_escape (by decide) hd
  · exact isPlain_of_mem_escape (by decide) hd
  · exact isPlain_of_mem_escape (by decide) hd
  · exact isPlain_of_mem_escape (by decide) hd
  · exact isPlain_of_mem_escape (by decide) hd
  · rw [List.mem_singleton.1 hd]
    exact hplain
  · exact isPlain_of_mem_unit hd
  · exact (List.mem_append.1 hd).elim isPlain_of_mem_unit isPlain_of_mem_unit

theorem arePlain_quoted (s : String) : ArePlain (quoted s) := by
  intro d hd
  rw [toList_quoted, List.mem_cons, List.mem_append, List.mem_singleton, List.mem_flatMap] at hd
  rcases hd with rfl | ⟨c, _, hd⟩ | rfl
  · decide
  · exact isPlain_of_mem_character hd
  · decide

mutual

theorem arePlain_write : ∀ v, ArePlain (write v)
  | .null => by rw [write]; decide
  | .bool b => by rw [write]; exact arePlain_ite (by decide) (by decide)
  | .int n => by rw [write]; exact arePlain_toString n
  | .double d => by rw [write]; exact arePlain_double d
  | .text s => by rw [write]; exact arePlain_quoted s
  | .list xs => by
    rw [write]
    exact (ArePlain.append (s := "[") (by decide) (arePlain_writeItems xs)).append (by decide)
  | .record f => by
    rw [write]
    exact (ArePlain.append (s := "\x7b") (by decide) (arePlain_writeFields f)).append (by decide)

theorem arePlain_writeItems : ∀ xs, ArePlain (writeItems xs)
  | [] => by rw [writeItems]; decide
  | x :: xs => by
    rw [writeItems]
    exact ((arePlain_write x).append (arePlain_ite (by decide) (by decide))).append
      (arePlain_writeItems xs)

theorem arePlain_writeFields : ∀ f, ArePlain (writeFields f)
  | [] => by rw [writeFields]; decide
  | (name, x) :: f => by
    rw [writeFields]
    exact (((arePlain_quoted name).append (by decide)).append (arePlain_write x)).append
      (arePlain_ite (by decide) (by decide)) |>.append (arePlain_writeFields f)

end

end Json

/-- The payload of a JSON value is read back. -/
theorem PayloadFormat.decode_encode {v : Value} (h : v.IsJson Json.maxDepth) :
    PayloadFormat.json.decode (PayloadFormat.json.encode v) = .ok v := by
  simp only [PayloadFormat.json, Text.decode?_encode (Json.arePlain_write v)]
  exact Json.read_write h

end StaffAccess

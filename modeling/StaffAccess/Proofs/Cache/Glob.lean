import StaffAccess.Cache.Glob
import StaffAccess.Cache.Server
import StaffAccess.Proofs.Text.Encoding
import Mathlib.Data.List.Forall2

/-!
# Keys that start like a pattern

To list the keys that start in some way, a server is given the start followed by a star. This is
right for a start in which every character stands for itself, and for no other one. What goes wrong
is seen from two keys.

A star within the start, a backslash or brackets make the pattern match more octets than it looks
at: before its first star it has fewer pieces than the start has octets. Then the last octet of the
start does not matter for the pattern, and a key that differs in it is listed too. If the pattern
has as many pieces as the start has octets, and one of them is a question mark, any octet can stand
in its place.

* `Glob.takes_insert`: a run takes whatever is put in its place.
* `Glob.isBrief_pieces`: before its first run, a pattern has fewer pieces than octets.
* `Glob.takes_pieces_append_star_iff`: what plain octets and question marks match.
* `Glob.accepts_patternFor_of_isLiteral`: the pattern for a start that stands for itself.
* `Glob.isLiteral_of_accepts`: and for no other start is it right.
-/

namespace StaffAccess.Glob

open Text (Octets encode)

variable {ps : List Piece} {key p w : Octets} {c : UInt8} {test : UInt8 → Bool} {m n : Nat}

/-! ## Pieces -/

theorem afterRun_iff {test : Octets → Bool} :
    afterRun test key = true ↔ ∃ run rest, key = run ++ rest ∧ test rest = true := by
  induction key with
  | nil => simp [afterRun]
  | cons b key ih =>
    rw [afterRun, Bool.or_eq_true, ih]
    constructor
    · rintro (h | ⟨run, rest, rfl, h⟩)
      · exact ⟨[], b :: key, rfl, h⟩
      · exact ⟨b :: run, rest, rfl, h⟩
    · rintro ⟨run, rest, hkey, h⟩
      cases run with
      | nil => exact .inl (hkey ▸ h)
      | cons c run => exact .inr ⟨run, rest, (List.cons.inj hkey).2, h⟩

theorem takes_run_iff : takes (.run :: ps) key = true ↔
    ∃ run rest, key = run ++ rest ∧ takes ps rest = true := by
  rw [takes, afterRun_iff]

theorem takes_one_iff : takes (.one test :: ps) key = true ↔
    ∃ b rest, key = b :: rest ∧ test b = true ∧ takes ps rest = true := by
  cases key with
  | nil => simp [takes]
  | cons b key =>
    rw [takes, Bool.and_eq_true]
    exact ⟨fun h => ⟨b, key, rfl, h⟩, by rintro ⟨_, _, ⟨⟩, h⟩; exact h⟩

/-- The number of octets that are taken one by one, before the first run. -/
def lead : List Piece → Nat
  | .one _ :: ps => lead ps + 1
  | _ => 0

/-- Where there is a run, it takes whatever is put in its place. -/
theorem takes_insert (hrun : .run ∈ ps) (h : takes ps key = true) (inserted : Octets) :
    takes ps (key.take (lead ps) ++ (inserted ++ key.drop (lead ps))) = true := by
  induction ps generalizing key with
  | nil => exact absurd hrun List.not_mem_nil
  | cons piece ps ih =>
    cases piece with
    | run =>
      obtain ⟨run, rest, rfl, hrest⟩ := takes_run_iff.1 h
      exact takes_run_iff.2 ⟨inserted ++ run, rest, by simp [lead], hrest⟩
    | one test =>
      obtain ⟨b, rest, rfl, hb, hrest⟩ := takes_one_iff.1 h
      exact takes_one_iff.2 ⟨b, _, rfl, hb, ih (by simpa using hrun) hrest⟩

/-- Where there is no run, every piece takes one octet. -/
theorem length_eq_of_takes (hrun : .run ∉ ps) (h : takes ps key = true) :
    key.length = ps.length := by
  induction ps generalizing key with
  | nil => simpa [takes] using h
  | cons piece ps ih =>
    rw [List.mem_cons, not_or] at hrun
    cases piece with
    | run => exact absurd rfl hrun.1
    | one test =>
      obtain ⟨b, rest, rfl, -, hrest⟩ := takes_one_iff.1 h
      rw [List.length_cons, List.length_cons, ih hrun.2 hrest]

/-! ## Octets and pieces -/

/-- Whether pieces with a run have fewer than so many others before it. -/
def IsBrief (ps : List Piece) (n : Nat) : Prop := .run ∈ ps → lead ps < n

theorem IsBrief.mono (h : IsBrief ps m) (hle : m ≤ n) : IsBrief ps n :=
  fun hrun => Nat.lt_of_lt_of_le (h hrun) hle

theorem isBrief_run (hn : 0 < n) : IsBrief (.run :: ps) n := fun _ => hn

theorem IsBrief.one (h : IsBrief ps n) : IsBrief (.one test :: ps) (n + 1) :=
  fun hrun => Nat.succ_lt_succ (h (by simpa using hrun))

theorem isBrief_one : IsBrief [.one test] n := fun hrun => absurd hrun (by simp)

mutual

/-- Before its first run, a pattern has fewer pieces than octets. -/
theorem isBrief_pieces : ∀ w : Octets, IsBrief (pieces w) w.length
  | [] => fun hrun => absurd hrun (by simp [pieces])
  | [c] => by
    rw [pieces]
    split_ifs
    · exact isBrief_run Nat.one_pos
    · exact isBrief_one
    · exact isBrief_one
    · exact isBrief_one
    · exact isBrief_one
  | c :: d :: rest => by
    rw [pieces]
    split_ifs
    · exact isBrief_run (Nat.succ_pos _)
    · exact (isBrief_pieces (d :: rest)).one
    · exact (isBrief_inBrackets true _ rest).mono (Nat.le_add_right _ 2)
    · exact (isBrief_inBrackets false _ (d :: rest)).mono (by simp)
    · exact (isBrief_pieces rest).one.mono (by simp)
    · exact (isBrief_pieces (d :: rest)).one

theorem isBrief_inBrackets (excluded : Bool) : ∀ (listed : UInt8 → Bool) (w : Octets),
    IsBrief (inBrackets excluded listed w) w.length
  | listed, [] => isBrief_one
  | listed, [c] => by
    rw [inBrackets]
    split_ifs
    · exact isBrief_one
    · exact isBrief_one
  | listed, [c, d] => by
    rw [inBrackets]
    split_ifs
    · exact (isBrief_pieces [d]).one
    · exact isBrief_one
    · exact (isBrief_inBrackets excluded _ [d]).mono (by simp)
  | listed, c :: d :: e :: rest => by
    rw [inBrackets]
    split_ifs
    · exact (isBrief_pieces (d :: e :: rest)).one
    · exact (isBrief_inBrackets excluded _ (e :: rest)).mono (by simp)
    · exact (isBrief_inBrackets excluded _ rest).mono (Nat.le_add_right _ 3)
    · exact (isBrief_inBrackets excluded _ (d :: e :: rest)).mono (by simp)

end

/-- Whether an octet is a piece of its own that takes one octet. -/
def IsPlain (c : UInt8) : Prop := c ≠ star ∧ c ≠ opening ∧ c ≠ backslash

theorem exists_pieces_cons (hc : IsPlain c) (w : Octets) : ∃ test : UInt8 → Bool,
    pieces (c :: w) = .one test :: pieces w ∧ ∀ b, test b = true ↔ c = anyOne ∨ b = c := by
  obtain ⟨hstar, hopening, hbackslash⟩ := hc
  rw [pieces.eq_def]
  dsimp only
  rw [if_neg hstar, if_neg hopening, if_neg hbackslash]
  split_ifs with hany
  · exact ⟨_, rfl, by simp [hany]⟩
  · exact ⟨_, rfl, by simp [hany]⟩

/-- Any other octet shortens the pattern. -/
theorem isBrief_cons (hc : ¬IsPlain c) (hw : w ≠ []) : IsBrief (pieces (c :: w)) w.length := by
  obtain ⟨d, rest, rfl⟩ := List.exists_cons_of_ne_nil hw
  rw [pieces]
  split_ifs with hstar hany hopening hcaret hbackslash
  · exact isBrief_run (Nat.succ_pos _)
  · exact absurd ⟨hstar, by rw [hany]; decide, by rw [hany]; decide⟩ hc
  · exact (isBrief_inBrackets true _ rest).mono (by simp)
  · exact isBrief_inBrackets false _ (d :: rest)
  · exact (isBrief_pieces rest).one
  · exact absurd ⟨hstar, hopening, hbackslash⟩ hc

/-- A pattern that has a piece for every octet of the start has plain octets only. -/
theorem isPlain_of_le_lead (hrun : .run ∈ pieces (p ++ [star]))
    (h : p.length ≤ lead (pieces (p ++ [star]))) : ∀ c ∈ p, IsPlain c := by
  induction p with
  | nil => exact fun c hc => absurd hc List.not_mem_nil
  | cons c p ih =>
    rw [List.cons_append] at hrun h
    by_cases hc : IsPlain c
    · obtain ⟨test, htest, -⟩ := exists_pieces_cons hc (p ++ [star])
      rw [htest] at hrun h
      exact List.forall_mem_cons.2 ⟨hc, ih (by simpa using hrun) (Nat.le_of_succ_le_succ h)⟩
    · have hbrief : lead (pieces (c :: (p ++ [star]))) < (p ++ [star]).length :=
        isBrief_cons hc (by simp) hrun
      rw [List.length_append, List.length_singleton] at hbrief
      exact absurd h (Nat.not_le_of_lt hbrief)

/-- Plain octets, followed by a star, match what starts with these octets, where any octet stands
    for a question mark. -/
theorem takes_pieces_append_star_iff (h : ∀ c ∈ p, IsPlain c) :
    takes (pieces (p ++ [star])) key = true ↔
      ∃ start rest, key = start ++ rest ∧ List.Forall₂ (fun c b => c = anyOne ∨ b = c) p start := by
  induction p generalizing key with
  | nil =>
    have hpieces : pieces ([] ++ [star]) = [.run] := rfl
    rw [hpieces, takes_run_iff]
    constructor
    · exact fun _ => ⟨[], key, rfl, .nil⟩
    · exact fun _ => ⟨key, [], by simp, rfl⟩
  | cons c p ih =>
    rw [List.forall_mem_cons] at h
    obtain ⟨test, htest, hfits⟩ := exists_pieces_cons h.1 (p ++ [star])
    rw [List.cons_append, htest, takes_one_iff]
    constructor
    · rintro ⟨b, rest, rfl, hb, hrest⟩
      obtain ⟨start, rest, rfl, hstart⟩ := (ih h.2).1 hrest
      exact ⟨b :: start, rest, rfl, .cons ((hfits b).1 hb) hstart⟩
    · rintro ⟨start, rest, rfl, hstart⟩
      cases hstart with
      | cons hb hstart => exact ⟨_, _, rfl, (hfits _).2 hb, (ih h.2).2 ⟨_, _, rfl, hstart⟩⟩

theorem eq_of_forall₂ {start : Octets} (h : ∀ c ∈ p, c ≠ anyOne)
    (hstart : List.Forall₂ (fun c b => c = anyOne ∨ b = c) p start) : start = p := by
  induction hstart with
  | nil => rfl
  | cons hb _ ih =>
    rw [List.forall_mem_cons] at h
    rw [hb.resolve_left h.1, ih h.2]

theorem take_eq_of_dropLast_eq {x y : Octets} (h : x.dropLast = y.dropLast) (hm : m < y.length) :
    x.take m = y.take m := by
  have hlength : x.length - 1 = y.length - 1 := by simpa using congrArg List.length h
  have htake : ∀ z : Octets, m ≤ z.length - 1 → z.take m = z.dropLast.take m := fun z hz => by
    rw [List.dropLast_eq_take, List.take_take, Nat.min_eq_left hz]
  rw [htake x (by omega), htake y (by omega), h]

/-! ## Starts of keys -/

/-- A text with another character in the place of every question mark. -/
def masked (s : String) : String :=
  String.ofList (s.toList.map fun c => if c = '?' then '!' else c)

theorem anyOne_notMem_masked (s : String) : '?' ∉ (masked s).toList := by
  rw [masked, String.toList_ofList, List.mem_map]
  rintro ⟨c, -, hc⟩
  split_ifs at hc with hany
  · exact absurd hc (by decide)
  · exact hany hc

theorem forall₂_encode_masked (s : String) :
    List.Forall₂ (fun c b => c = anyOne ∨ b = c) (encode s) (encode (masked s)) := by
  rw [masked, Text.encode_ofList, encode]
  induction s.toList with
  | nil => exact .nil
  | cons c cs ih =>
    rw [List.map_cons, List.flatMap_cons, List.flatMap_cons]
    refine List.rel_append ?_ ih
    split_ifs with hany
    · subst hany
      exact .cons (.inl rfl) .nil
    · exact List.forall₂_same.2 fun _ _ => .inr rfl

section Start

variable {start : String}

theorem startsWith_iff {key : String} :
    startsWith start key = true ↔ start.toList <+: key.toList := List.isPrefixOf_iff_prefix

/-- A text of the same length that starts like another one is this one. -/
theorem eq_of_startsWith_append {t rest : String} (hlength : t.toList.length = start.toList.length)
    (h : startsWith start (t ++ rest) = true) : t = start := by
  rw [startsWith_iff, String.toList_append] at h
  have hstart := List.prefix_of_prefix_length_le h (List.prefix_append _ _)
    (Nat.le_of_eq hlength.symm)
  exact String.toList_inj.1 (hstart.eq_of_length hlength.symm).symm

theorem toNat_lt_of_mem_specials {c : Char} (hc : c ∈ specials) : c.toNat < 0x80 := by
  simp only [specials, List.mem_cons, List.not_mem_nil, or_false] at hc
  rcases hc with rfl | rfl | rfl | rfl <;> decide

theorem isLiteral_iff : IsLiteral start ↔
    (∀ b ∈ encode start, IsPlain b) ∧ '?' ∉ start.toList := by
  have hmem : ∀ c ∈ specials, (c.toUInt8 ∈ encode start ↔ c ∈ start.toList) :=
    fun c hc => Text.toUInt8_mem_encode_iff (toNat_lt_of_mem_specials hc)
  constructor
  · intro h
    refine ⟨fun b hb => ⟨?_, ?_, ?_⟩, fun hany => h _ hany (by decide)⟩
    · rintro rfl
      exact h '*' ((hmem '*' (by decide)).1 hb) (by decide)
    · rintro rfl
      exact h '[' ((hmem '[' (by decide)).1 hb) (by decide)
    · rintro rfl
      exact h '\\' ((hmem '\\' (by decide)).1 hb) (by decide)
  · rintro ⟨hplain, hany⟩ c hc hspecial
    have hcPlain : IsPlain c.toUInt8 := hplain _ ((hmem c hspecial).2 hc)
    simp only [specials, List.mem_cons, List.not_mem_nil, or_false] at hspecial
    rcases hspecial with rfl | rfl | rfl | rfl
    · exact hcPlain.1 rfl
    · exact hany hc
    · exact hcPlain.2.1 rfl
    · exact hcPlain.2.2 rfl

theorem accepts_patternFor {key : String} : accepts (ServerStore.patternFor start) key =
    takes (pieces (encode start ++ [star])) (encode key) := by
  rw [accepts, ServerStore.patternFor, Text.encode_append]
  rfl

/-- The pattern for a start that stands for itself matches the keys that start like this. -/
theorem accepts_patternFor_of_isLiteral (h : IsLiteral start) (key : String) :
    accepts (ServerStore.patternFor start) key = startsWith start key := by
  obtain ⟨hplain, hany⟩ := isLiteral_iff.1 h
  have hnotAny : ∀ b ∈ encode start, b ≠ anyOne := by
    rintro _ hb rfl
    exact hany ((Text.toUInt8_mem_encode_iff (by decide)).1 hb)
  rw [Bool.eq_iff_iff, accepts_patternFor, takes_pieces_append_star_iff hplain, startsWith_iff,
    ← Text.encode_prefix_iff]
  constructor
  · rintro ⟨_, rest, hkey, hstart⟩
    obtain rfl := eq_of_forall₂ hnotAny hstart
    exact ⟨rest, hkey.symm⟩
  · rintro ⟨rest, hkey⟩
    exact ⟨_, rest, hkey.symm, List.forall₂_same.2 fun _ _ => .inr rfl⟩

/-! ## Starts that do not stand for themselves -/

variable (h : ∀ key, accepts (ServerStore.patternFor start) key = startsWith start key)

include h

theorem takes_of_startsWith (rest : String) :
    takes (pieces (encode start ++ [star])) (encode (start ++ rest)) = true := by
  rw [← accepts_patternFor, h, startsWith_iff, String.toList_append]
  exact List.prefix_append _ _

theorem startsWith_of_takes {key : String}
    (htakes : takes (pieces (encode start ++ [star])) (encode key) = true) :
    startsWith start key = true := by
  rw [← h, accepts_patternFor, htakes]

/-- Without a run, the keys that are matched would all be of one length. -/
theorem run_mem_pieces : .run ∈ pieces (encode start ++ [star]) := by
  by_contra hrun
  have hshort := length_eq_of_takes hrun (takes_of_startsWith h "")
  have hlong := length_eq_of_takes hrun (takes_of_startsWith h "x")
  rw [← hshort, Text.encode_append, Text.encode_append, List.length_append,
    List.length_append] at hlong
  exact absurd (Nat.add_left_cancel hlong) (by decide)

/-- Otherwise a key would be matched that differs from the start in the last octet. -/
theorem length_le_lead :
    (encode start).length ≤ lead (pieces (encode start ++ [star])) := by
  by_contra hlt
  rw [Nat.not_le] at hlt
  have hsome : start.toList ≠ [] := fun hnil => by simp [encode, hnil] at hlt
  obtain ⟨t, hne, hlength, hoctets⟩ := Text.exists_twin hsome
  have hrun := run_mem_pieces h
  generalize hm : lead (pieces (encode start ++ [star])) = m at hlt
  have htake : (encode t).take m = (encode start).take m := take_eq_of_dropLast_eq hoctets hlt
  have hkey : encode (t ++ start) = (encode start).take m ++
      (((encode t).drop m ++ (encode start).take m) ++ (encode start).drop m) := by
    rw [List.append_assoc, List.take_append_drop, ← htake, ← List.append_assoc,
      List.take_append_drop, Text.encode_append]
  have htakes : takes (pieces (encode start ++ [star])) (encode (t ++ start)) = true := by
    have hself := takes_of_startsWith h ""
    rw [String.append_empty] at hself
    rw [hkey, ← hm]
    exact takes_insert hrun hself _
  exact hne (eq_of_startsWith_append hlength (startsWith_of_takes h htakes))

/-- Otherwise a key would be matched that has another character there. -/
theorem anyOne_notMem (hplain : ∀ b ∈ encode start, IsPlain b) : '?' ∉ start.toList := by
  intro hmem
  have htakes : takes (pieces (encode start ++ [star])) (encode (masked start)) = true :=
    (takes_pieces_append_star_iff hplain).2
      ⟨_, [], (List.append_nil _).symm, forall₂_encode_masked start⟩
  have hstarts : startsWith start (masked start ++ "") = true := by
    rw [String.append_empty]
    exact startsWith_of_takes h htakes
  have hsame : masked start = start := eq_of_startsWith_append (by simp [masked]) hstarts
  rw [← hsame] at hmem
  exact anyOne_notMem_masked start hmem

/-- No other pattern matches exactly the keys that start in some way. -/
theorem isLiteral_of_accepts : IsLiteral start :=
  have hplain := isPlain_of_le_lead (run_mem_pieces h) (length_le_lead h)
  isLiteral_iff.2 ⟨hplain, anyOne_notMem h hplain⟩

end Start

end StaffAccess.Glob

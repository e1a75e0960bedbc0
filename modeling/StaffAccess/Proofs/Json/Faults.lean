import StaffAccess.Json.Reader
import StaffAccess.Proofs.Traversal

/-!
# Faults of reading JSON

Reading a text has two faults: the text is no JSON, or lists and records lie too deep in each
other. The second one takes more opening brackets than the depth that is allowed. Reading only
ever drops characters in front, so the brackets that are left are among those that were there.

* `Json.takeText_suffix`, `Json.takeScalar_suffix`: what reading leaves is the end of the text.
* `Json.outcome_read`: the faults of reading a text.
-/

namespace StaffAccess.Json

variable {cs rest : List Char}

/-! ## What is left -/

theorem skipBlanks_suffix (cs : List Char) : skipBlanks cs <:+ cs := List.dropWhile_suffix _

/-- What follows a character behind blanks. -/
theorem suffix_behind {behind : List Char} {c : Char} (h : skipBlanks rest = c :: behind)
    (hrest : rest <:+ cs) : behind <:+ cs :=
  ((List.suffix_cons c behind).trans (h ▸ skipBlanks_suffix rest)).trans hrest

theorem takeUnit_suffix {n : Nat} (h : takeUnit cs = some (n, rest)) : rest <:+ cs := by
  match cs, h with
  | a :: b :: c :: d :: _, h =>
    obtain ⟨_, _, heq⟩ := Option.map_eq_some_iff.1 h
    cases heq
    exact ⟨[a, b, c, d], rfl⟩

theorem takeEscapedUnits_suffix {c : Char} (h : takeEscapedUnits cs = some (c, rest)) :
    rest <:+ cs := by
  simp only [takeEscapedUnits, bind, Option.bind_eq_some_iff] at h
  obtain ⟨⟨high, more⟩, hunit, h⟩ := h
  have hmore := takeUnit_suffix hunit
  split_ifs at h
  · split at h
    · next behind hbehind =>
      split at h
      · next low last hlow =>
        have hlast : last <:+ more :=
          (takeUnit_suffix hlow).trans ⟨['\\', 'u'], Eq.symm hbehind⟩
        split_ifs at h
        · exact (Prod.mk.inj (Option.some.inj h)).2 ▸ hlast.trans hmore
        · exact (Prod.mk.inj (Option.some.inj h)).2 ▸ hmore
      · cases h
        exact hmore
    · cases h
      exact hmore
  · cases h
    exact hmore

theorem takeText_suffix {steps : Nat} {s : List Char} (h : takeText steps cs = some (s, rest)) :
    rest <:+ cs := by
  induction steps generalizing cs s with
  | zero => cases h
  | succ steps ih =>
    cases cs with
    | nil => cases h
    | cons c cs =>
      -- However the first character is read, the rest of the text is read behind it.
      have hrest {c' : Char} {cs' : List Char}
          (h : ((takeText steps cs').bind fun r => some (c' :: r.1, r.2)) = some (s, rest)) :
          rest <:+ cs' := by
        obtain ⟨⟨s', rest'⟩, hs, heq⟩ := Option.bind_eq_some_iff.1 h
        cases heq
        exact ih hs
      simp only [takeText] at h
      split_ifs at h
      · cases h
        exact List.suffix_cons _ _
      · split at h
        · next more =>
          obtain ⟨⟨c', more'⟩, hunits, h⟩ := Option.bind_eq_some_iff.1 h
          exact ((hrest h).trans (takeEscapedUnits_suffix hunits)).trans ⟨[c, 'u'], rfl⟩
        · next e more _ =>
          obtain ⟨c', -, h⟩ := Option.bind_eq_some_iff.1 h
          exact (hrest h).trans ⟨[c, e], rfl⟩
        · cases h
      · exact (hrest h).trans (List.suffix_cons _ _)

theorem takeDigits_suffix (cs : List Char) : (Text.takeDigits cs).2 <:+ cs :=
  List.dropWhile_suffix _

theorem takeMinus_suffix (cs : List Char) : (takeMinus cs).2 <:+ cs := by
  unfold takeMinus
  split
  · exact List.suffix_cons _ _
  · exact List.suffix_rfl

theorem takeWhole?_suffix {digits : List Char} (h : takeWhole? cs = some (digits, rest)) :
    rest <:+ cs := by
  unfold takeWhole? at h
  split at h
  · cases h
    exact List.suffix_cons _ _
  · dsimp only at h
    split_ifs at h
    cases h
    exact takeDigits_suffix cs

theorem takeFraction_suffix (cs : List Char) : (takeFraction cs).2 <:+ cs := by
  unfold takeFraction
  split
  · dsimp only
    split_ifs
    · exact List.suffix_rfl
    · exact (takeDigits_suffix _).trans (List.suffix_cons _ _)
  · exact List.suffix_rfl

theorem takeSign_suffix (cs : List Char) : (Text.takeSign cs).2 <:+ cs := by
  unfold Text.takeSign
  split
  · exact List.suffix_cons _ _
  · exact List.suffix_cons _ _
  · exact List.suffix_rfl

theorem takeExponent_suffix (cs : List Char) : (Text.takeExponent cs).2 <:+ cs := by
  cases cs with
  | nil => exact List.suffix_rfl
  | cons c cs =>
    have hrest : (Text.takeDigits (Text.takeSign cs).2).2 <:+ c :: cs :=
      ((takeDigits_suffix _).trans (takeSign_suffix _)).trans (List.suffix_cons _ _)
    simp only [Text.takeExponent]
    split_ifs
    · exact List.suffix_rfl
    · exact hrest
    · exact hrest
    · exact List.suffix_rfl

theorem takeNumber_suffix {v : Value} (h : takeNumber cs = some (v, rest)) : rest <:+ cs := by
  simp only [takeNumber, bind, Option.bind_eq_some_iff] at h
  obtain ⟨⟨whole, behind⟩, hwhole, h⟩ := h
  have hbehind := (takeWhole?_suffix hwhole).trans (takeMinus_suffix cs)
  have hfraction := (takeFraction_suffix behind).trans hbehind
  have hexponent := (takeExponent_suffix _).trans hfraction
  split_ifs at h <;> cases h
  · exact hfraction
  · exact hfraction
  · exact hexponent

theorem takeScalar_suffix {v : Value} (h : takeScalar cs = some (v, rest)) : rest <:+ cs := by
  rcases Option.or_eq_some_iff.1 h with h | ⟨-, h⟩
  · obtain ⟨⟨word, w⟩, -, h⟩ := List.exists_of_findSome?_eq_some h
    obtain ⟨rest', hword, heq⟩ := Option.map_eq_some_iff.1 h
    cases heq
    rw [takeWord?, Option.ite_none_right_eq_some] at hword
    cases hword.2
    exact List.drop_suffix _ _
  · exact takeNumber_suffix h

/-! ## Depths -/

/-- The number of lists and records that a text opens. -/
def openings (cs : List Char) : Nat := cs.countP fun c => c = '[' || c = '\x7b'

theorem openings_le (h : rest <:+ cs) : openings rest ≤ openings cs := h.sublist.countP_le

/-- The faults of reading from some characters on: they are none of JSON, or they open more lists
    and records than may lie in each other. -/
def IsTextFault (depth : Nat) (cs : List Char) (e : Fault) : Prop :=
  e = .badValue ∨ e = .tooDeep ∧ depth < openings cs

theorem outcome_orBad {α : Type} {p : α → Prop} {q : Fault → Prop} {a? : Option α}
    (ha : ∀ a, a? = some a → p a) (hq : q .badValue) : Outcome p q (orBad a?) := by
  cases a? with
  | none => exact hq
  | some a => exact ha a rfl

/-- What reading a part of a text gives: the rest is its end, and the faults are those of texts. -/
def ReadsText {α : Type} (depth : Nat) (cs : List Char) : Except Fault (α × List Char) → Prop :=
  Outcome (fun r => r.2 <:+ cs) (IsTextFault depth cs)

section ReadsText

variable {α β : Type} {depth : Nat} {x : Except Fault (α × List Char)}

theorem ReadsText.of_suffix (h : ReadsText depth rest x) (hrest : rest <:+ cs) :
    ReadsText depth cs x :=
  h.imp (fun _ hr => hr.trans hrest) fun _ he =>
    he.imp_right fun ⟨he, hdepth⟩ => ⟨he, Nat.lt_of_lt_of_le hdepth (openings_le hrest)⟩

/-- Behind an opening bracket there is one less of them, and one level less is left. -/
theorem ReadsText.of_opening {c : Char} (hc : c = '[' ∨ c = '\x7b') (h : ReadsText depth rest x)
    (hrest : rest <:+ cs) : ReadsText (depth + 1) (c :: cs) x := by
  have hopenings : openings (c :: cs) = openings cs + 1 :=
    List.countP_cons_of_pos (by simpa using hc)
  refine h.imp (fun _ hr => (hr.trans hrest).trans (List.suffix_cons _ _)) fun _ he =>
    he.imp_right fun ⟨he, hdepth⟩ => ⟨he, ?_⟩
  rw [hopenings]
  exact Nat.succ_lt_succ (Nat.lt_of_lt_of_le hdepth (openings_le hrest))

theorem readsText_tooDeep {c : Char} (hc : c = '[' ∨ c = '\x7b') :
    ReadsText 0 (c :: cs) (.error .tooDeep : Except Fault (α × List Char)) := by
  refine .inr ⟨rfl, ?_⟩
  rw [openings, List.countP_cons_of_pos (by simpa using hc)]
  exact Nat.succ_pos _

theorem outcome_takeText (steps : Nat) (c : Char) :
    Outcome (fun r => r.2 <:+ c :: cs) (IsTextFault depth (c :: cs)) (orBad (takeText steps cs)) :=
  outcome_orBad (fun _ h => (takeText_suffix h).trans (List.suffix_cons _ _)) (.inl rfl)

end ReadsText

/-- Every step reads a part of the text, or fails in one of the two ways. -/
theorem readsText_take (steps : Nat) :
    (∀ depth cs, ReadsText depth cs (takeValue steps depth cs)) ∧
      (∀ depth cs, ReadsText depth cs (takeItems steps depth cs)) ∧
      ∀ depth cs, ReadsText depth cs (takeEntries steps depth cs) := by
  induction steps with
  | zero => exact ⟨fun _ _ => .inl rfl, fun _ _ => .inl rfl, fun _ _ => .inl rfl⟩
  | succ steps ih =>
    obtain ⟨ihValue, ihItems, ihEntries⟩ := ih
    refine ⟨fun depth cs => ?_, fun depth cs => ?_, fun depth cs => ?_⟩
    · unfold takeValue
      split
      · exact outcome_bind (outcome_takeText _ _) fun _ hrest => hrest
      · cases depth with
        | zero => exact readsText_tooDeep (.inl rfl)
        | succ depth =>
          rw [if_neg (Nat.succ_ne_zero depth)]
          refine .of_opening (.inl rfl) ?_ (skipBlanks_suffix _)
          split
          · next hclosed => exact hclosed ▸ List.suffix_cons _ _
          · exact outcome_bind (ihItems depth _) fun _ hrest => hrest
      · cases depth with
        | zero => exact readsText_tooDeep (.inr rfl)
        | succ depth =>
          rw [if_neg (Nat.succ_ne_zero depth)]
          refine .of_opening (.inr rfl) ?_ (skipBlanks_suffix _)
          split
          · next hclosed => exact hclosed ▸ List.suffix_cons _ _
          · exact outcome_bind (ihEntries depth _) fun _ hrest => hrest
      · exact outcome_orBad (fun r h => takeScalar_suffix h) (.inl rfl)
    · unfold takeItems
      refine outcome_bind (ihValue depth cs) fun ⟨x, rest⟩ hrest => ?_
      dsimp only
      split
      · next hclosed => exact suffix_behind hclosed hrest
      · next behind hcomma =>
        have hbehind := (skipBlanks_suffix behind).trans (suffix_behind hcomma hrest)
        exact outcome_bind ((ihItems depth _).of_suffix hbehind) fun _ hrest => hrest
      · exact .inl rfl
    · unfold takeEntries
      split
      · refine outcome_bind (outcome_takeText _ _) fun ⟨name, rest⟩ hrest => ?_
        dsimp only
        split
        · next behind hcolon =>
          have hbehind := (skipBlanks_suffix behind).trans (suffix_behind hcolon hrest)
          refine outcome_bind ((ihValue depth _).of_suffix hbehind) fun ⟨x, rest⟩ hrest => ?_
          dsimp only
          split
          · next hclosed => exact suffix_behind hclosed hrest
          · next behind hcomma =>
            have hbehind := (skipBlanks_suffix behind).trans (suffix_behind hcomma hrest)
            exact outcome_bind ((ihEntries depth _).of_suffix hbehind) fun _ hrest => hrest
          · exact .inl rfl
        · exact .inl rfl
      · exact .inl rfl

/-- A text is read, or it is none of JSON, or it opens more lists and records than may lie in each
    other. -/
theorem outcome_read (s : String) :
    Outcome (fun _ => True) (IsTextFault maxDepth s.toList) (read s) := by
  have htake := ((readsText_take (2 * (skipBlanks s.toList).length + 1)).1 maxDepth _).of_suffix
    (skipBlanks_suffix s.toList)
  refine outcome_bind htake fun _ _ => ?_
  dsimp only
  split_ifs
  · trivial
  · exact .inl rfl

end StaffAccess.Json

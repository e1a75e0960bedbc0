import StaffAccess.Text.Part
import StaffAccess.Ui.Wildcard
import Mathlib.Tactic.Common

/-!
# Names that a pattern matches

A name that a pattern matches is the pattern with something in the place of every star. What
stands between the stars is therefore in the name as well, and a pattern without a star matches
no name but itself.

* `Wildcard.Fills`: a name is a pattern with every star filled in.
* `Wildcard.accepts_iff_fills`: these are the names that the pattern matches.
* `Wildcard.fill`: a pattern with its stars replaced, one after the other.
* `Wildcard.accepts_iff_exists_runs`: a pattern matches what it can be made by replacing its stars.
* `Wildcard.contains_of_accepts`: a name holds every word of the pattern.
* `Wildcard.eq_of_accepts`: without a star, it is the pattern.
-/

namespace StaffAccess.Wildcard

/-- Whether characters are those of a pattern with every star filled in. -/
inductive Fills : List Char → List Char → Prop
  | nil : Fills [] []
  | star {run ps cs : List Char} (hrun : '\n' ∉ run) (h : Fills ps cs) :
    Fills ('*' :: ps) (run ++ cs)
  | same {c : Char} {ps cs : List Char} (hc : c ≠ '*') (h : Fills ps cs) :
    Fills (c :: ps) (c :: cs)

theorem acceptsChars_star (ps cs : List Char) :
    acceptsChars ('*' :: ps) cs = afterRun (acceptsChars ps) cs := by
  cases cs <;> rw [acceptsChars, if_pos rfl]

/-- A character other than the star stands for itself. -/
theorem acceptsChars_cons_iff {p : Char} (hp : p ≠ '*') {ps cs : List Char} :
    acceptsChars (p :: ps) cs = true ↔ ∃ rest, cs = p :: rest ∧ acceptsChars ps rest = true := by
  cases cs with
  | nil => simp [acceptsChars, hp]
  | cons c cs =>
    simp only [acceptsChars, if_neg hp, Bool.and_eq_true, beq_iff_eq, List.cons.injEq]
    exact ⟨fun ⟨hc, h⟩ => ⟨cs, ⟨hc.symm, rfl⟩, h⟩,
      fun ⟨_, ⟨hc, hcs⟩, h⟩ => ⟨hc.symm, hcs ▸ h⟩⟩

theorem acceptsChars_iff_fills {ps cs : List Char} :
    acceptsChars ps cs = true ↔ Fills ps cs := by
  induction ps generalizing cs with
  | nil =>
    rw [acceptsChars, List.isEmpty_iff]
    exact ⟨fun h => h ▸ .nil, fun h => by cases h; rfl⟩
  | cons p ps ih =>
    by_cases hp : p = '*'
    · subst hp
      rw [acceptsChars_star, afterRun_iff]
      constructor
      · rintro ⟨run, rest, rfl, hrun, hrest⟩
        exact .star hrun (ih.1 hrest)
      · intro h
        cases h with
        | star hrun h => exact ⟨_, _, rfl, hrun, ih.2 h⟩
        | same hc => exact absurd rfl hc
    · rw [acceptsChars_cons_iff hp]
      constructor
      · rintro ⟨rest, rfl, hrest⟩
        exact .same hp (ih.1 hrest)
      · intro h
        cases h with
        | star => exact absurd rfl hp
        | same _ h => exact ⟨_, rfl, ih.2 h⟩

/-- The names that a pattern matches. -/
theorem accepts_iff_fills {pattern name : String} :
    accepts pattern name = true ↔ Fills pattern.toList name.toList :=
  acceptsChars_iff_fills

/-- A pattern fills itself: a star may stand for a star. -/
theorem fills_self (ps : List Char) : Fills ps ps := by
  induction ps with
  | nil => exact .nil
  | cons c ps ih =>
    by_cases hc : c = '*'
    · subst hc
      have hrun : '\n' ∉ ['*'] := by decide
      exact .star hrun ih
    · exact .same hc ih

/-- A pattern matches itself. -/
theorem accepts_self (pattern : String) : accepts pattern pattern = true :=
  accepts_iff_fills.2 (fills_self _)

/-! ## Stars replaced -/

variable {ps cs word : List Char}

/-- A pattern with its stars replaced, the first star by the first run, and so on. -/
def fill : List Char → List (List Char) → List Char
  | [], _ => []
  | p :: ps, runs =>
    if p = '*' then runs.headD [] ++ fill ps runs.tail else p :: fill ps runs

theorem fill_star (ps run : List Char) (runs : List (List Char)) :
    fill ('*' :: ps) (run :: runs) = run ++ fill ps runs := by
  rw [fill, if_pos rfl]
  rfl

theorem fill_same {c : Char} (hc : c ≠ '*') (ps : List Char) (runs : List (List Char)) :
    fill (c :: ps) runs = c :: fill ps runs := by
  rw [fill, if_neg hc]

/-- A name that fills a pattern has one run for every star. -/
theorem Fills.exists_runs (h : Fills ps cs) : ∃ runs : List (List Char),
    runs.length = ps.count '*' ∧ (∀ run ∈ runs, '\n' ∉ run) ∧ fill ps runs = cs := by
  induction h with
  | nil => exact ⟨[], rfl, nofun, rfl⟩
  | @star run ps cs hrun _ ih =>
    obtain ⟨runs, hlength, hruns, rfl⟩ := ih
    exact ⟨run :: runs, by simp [hlength], List.forall_mem_cons.2 ⟨hrun, hruns⟩,
      fill_star ps run runs⟩
  | @same c ps cs hc _ ih =>
    obtain ⟨runs, hlength, hruns, rfl⟩ := ih
    exact ⟨runs, by simp [hlength, hc], hruns, fill_same hc ps runs⟩

theorem fills_fill {runs : List (List Char)} (hlength : runs.length = ps.count '*')
    (hruns : ∀ run ∈ runs, '\n' ∉ run) : Fills ps (fill ps runs) := by
  induction ps generalizing runs with
  | nil => exact .nil
  | cons c ps ih =>
    by_cases hc : c = '*'
    · subst hc
      cases runs with
      | nil => simp at hlength
      | cons run runs =>
        rw [List.forall_mem_cons] at hruns
        rw [fill_star]
        exact .star hruns.1 (ih (by simpa using hlength) hruns.2)
    · rw [fill_same hc]
      exact .same hc (ih (by simpa [hc] using hlength) hruns)

/-- A pattern matches the names that come of it when every star is replaced by a run of characters
    without a line break, and no other ones. -/
theorem accepts_iff_exists_runs (pattern name : String) :
    accepts pattern name = true ↔ ∃ runs : List (List Char),
      runs.length = pattern.toList.count '*' ∧ (∀ run ∈ runs, '\n' ∉ run) ∧
        fill pattern.toList runs = name.toList := by
  rw [accepts_iff_fills]
  constructor
  · exact Fills.exists_runs
  · rintro ⟨runs, hlength, hruns, hname⟩
    exact hname ▸ fills_fill hlength hruns

/-! ## Words of a pattern -/

theorem Fills.isPrefix (h : Fills ps cs) (hword : '*' ∉ word) (hstart : word <+: ps) :
    word <+: cs := by
  induction h generalizing word with
  | nil => exact hstart
  | star hrun h ih =>
    -- A word that starts at the star is empty.
    cases word with
    | nil => exact List.nil_prefix
    | cons c word =>
      obtain rfl := (List.cons_prefix_cons.1 hstart).1
      exact absurd List.mem_cons_self hword
  | same hc h ih =>
    cases word with
    | nil => exact List.nil_prefix
    | cons d word =>
      obtain ⟨rfl, hrest⟩ := List.cons_prefix_cons.1 hstart
      exact List.cons_prefix_cons.2
        ⟨rfl, ih (fun hmem => hword (List.mem_cons_of_mem _ hmem)) hrest⟩

/-- What stands between the stars of a pattern stands in the name. -/
theorem Fills.isInfix (h : Fills ps cs) (hword : '*' ∉ word) (hin : word <:+: ps) :
    word <:+: cs := by
  induction h with
  | nil => exact hin
  | star hrun h ih =>
    rcases List.infix_cons_iff.1 hin with hstart | hin
    · exact ((Fills.star hrun h).isPrefix hword hstart).isInfix
    · exact (ih hin).trans (List.suffix_append _ _).isInfix
  | same hc h ih =>
    rcases List.infix_cons_iff.1 hin with hstart | hin
    · exact ((Fills.same hc h).isPrefix hword hstart).isInfix
    · exact (ih hin).trans (List.suffix_cons _ _).isInfix

/-- A name holds every word of the pattern that it is matched by. -/
theorem contains_of_accepts {pattern name word : String} (h : accepts pattern name = true)
    (hword : '*' ∉ word.toList) (hin : Text.contains word pattern = true) :
    Text.contains word name = true := by
  rw [Text.contains, Text.occursIn_iff] at hin ⊢
  exact (accepts_iff_fills.1 h).isInfix hword hin

theorem Fills.eq (h : Fills ps cs) (hstar : '*' ∉ ps) : ps = cs := by
  induction h with
  | nil => rfl
  | star => exact absurd List.mem_cons_self hstar
  | same _ _ ih => rw [ih fun hmem => hstar (List.mem_cons_of_mem _ hmem)]

/-- A pattern without a star matches no other name. -/
theorem eq_of_accepts {pattern name : String} (h : accepts pattern name = true)
    (hstar : hasStar pattern = false) : pattern = name := by
  refine String.toList_inj.1 ((accepts_iff_fills.1 h).eq ?_)
  simpa [hasStar] using hstar

end StaffAccess.Wildcard

/-!
# Wildcard patterns

A pattern is a name in which a star stands for any run of characters, possibly an empty one,
without a line break. All other characters stand for themselves.

* `Wildcard.accepts`: whether a pattern matches a name.
-/

namespace StaffAccess.Wildcard

/-- Whether a text can be split into a run without line breaks and a rest that passes a test. -/
def afterRun (test : List Char → Bool) : List Char → Bool
  | [] => test []
  | c :: cs => test (c :: cs) || (c != '\n' && afterRun test cs)

/-- Whether the characters of a pattern match those of a name. -/
def acceptsChars : List Char → List Char → Bool
  | [], cs => cs.isEmpty
  | p :: ps, cs =>
    if p = '*' then afterRun (acceptsChars ps) cs
    else match cs with
      | [] => false
      | c :: cs => p == c && acceptsChars ps cs

/-- Whether a pattern matches a name. -/
def accepts (pattern name : String) : Bool := acceptsChars pattern.toList name.toList

/-- Whether a pattern holds a star. -/
def hasStar (pattern : String) : Bool := pattern.toList.contains '*'

theorem afterRun_iff (test : List Char → Bool) (cs : List Char) :
    afterRun test cs = true ↔ ∃ run rest, cs = run ++ rest ∧ '\n' ∉ run ∧ test rest = true := by
  induction cs with
  | nil =>
    constructor
    · exact fun h => ⟨[], [], rfl, by simp, h⟩
    · rintro ⟨run, rest, h, -, ht⟩
      obtain ⟨rfl, rfl⟩ := List.append_eq_nil_iff.1 h.symm
      exact ht
  | cons c cs ih =>
    simp only [afterRun, Bool.or_eq_true, Bool.and_eq_true, ih, bne_iff_ne]
    constructor
    · rintro (h | ⟨hc, run, rest, rfl, hr, ht⟩)
      · exact ⟨[], c :: cs, rfl, by simp, h⟩
      · exact ⟨c :: run, rest, rfl, by simp [hr, Ne.symm hc], ht⟩
    · rintro ⟨run, rest, h, hr, ht⟩
      cases run with
      | nil => exact .inl (by rw [List.nil_append] at h; exact h ▸ ht)
      | cons d run =>
        obtain ⟨rfl, rfl⟩ := List.cons.inj h
        exact .inr ⟨fun hd => hr (by simp [hd]), run, rest, rfl, fun hn => hr (by simp [hn]), ht⟩

end StaffAccess.Wildcard

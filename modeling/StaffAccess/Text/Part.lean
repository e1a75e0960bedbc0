/-!
# Parts of texts

* `Text.occursIn`: whether a text stands somewhere within another.
-/

namespace StaffAccess.Text

/-- Whether the characters `part` stand in a row within others. -/
def occursIn (part : List Char) : List Char → Bool
  | [] => part.isEmpty
  | c :: cs => part.isPrefixOf (c :: cs) || occursIn part cs

theorem occursIn_iff (part cs : List Char) : occursIn part cs = true ↔ part <:+: cs := by
  induction cs with
  | nil => simp [occursIn]
  | cons c cs ih => simp [occursIn, ih, List.infix_cons_iff]

/-- Whether one text stands within another. -/
def contains (part s : String) : Bool := occursIn part.toList s.toList

end StaffAccess.Text

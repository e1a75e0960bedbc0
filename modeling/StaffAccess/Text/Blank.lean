/-!
# Blanks

The characters that do not count at the two ends of a text. Around a number these are the white
space of Unicode. Around an identity header or a person's name they are that and the four
separators of ASCII, which make a number unreadable.

* `Text.isSpace`, `Text.isBlank`: the two classes.
* `Text.trim`: characters without those of a class at the two ends.
* `Text.strip`: a text without the blanks at its two ends.
-/

namespace StaffAccess.Text

/-- Whether a character is white space. -/
def isSpace (c : Char) : Bool :=
  let n := c.toNat
  (0x09 ≤ n && n ≤ 0x0d) || n == 0x20 || n == 0x85 || n == 0xa0 || n == 0x1680 ||
    (0x2000 ≤ n && n ≤ 0x200a) || n == 0x2028 || n == 0x2029 || n == 0x202f || n == 0x205f ||
    n == 0x3000

/-- Whether a character is a blank: white space, or one of the four separators of ASCII. -/
def isBlank (c : Char) : Bool := isSpace c || (0x1c ≤ c.toNat && c.toNat ≤ 0x1f)

/-- The characters between the first and the last one that are not of some class. -/
def trim (outer : Char → Bool) (cs : List Char) : List Char :=
  ((cs.dropWhile outer).reverse.dropWhile outer).reverse

/-- The text without the blanks at its ends. -/
def strip (s : String) : String := String.ofList (trim isBlank s.toList)

end StaffAccess.Text

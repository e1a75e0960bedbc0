import StaffAccess.Text.Encoding

/-!
# Glob patterns

The patterns by which a server lists keys. A star stands for any octets, a question mark for any
one octet, brackets for one octet out of those that are listed between them, and a backslash for
the octet that follows it; all other octets stand for themselves. Between brackets there can be
ranges, and a caret in front takes the octets that are not listed. Keys and patterns are compared
as octets, not as characters.

* `Glob.pieces`: what the places of a pattern stand for.
* `Glob.accepts`: whether a pattern matches a key.
* `Glob.IsLiteral`: the texts that stand for themselves.
-/

namespace StaffAccess.Glob

open Text (Octets)

/-! ## Octets with a meaning -/

/-- Stands for any octets. -/
def star : UInt8 := '*'.toUInt8

/-- Stands for any one octet. -/
def anyOne : UInt8 := '?'.toUInt8

/-- Comes before listed octets. -/
def opening : UInt8 := '['.toUInt8

/-- Comes after listed octets. -/
def closing : UInt8 := ']'.toUInt8

/-- Excludes listed octets. -/
def caret : UInt8 := '^'.toUInt8

/-- Stands between the ends of a range. -/
def hyphen : UInt8 := '-'.toUInt8

/-- Takes the meaning of the octet that follows. -/
def backslash : UInt8 := '\\'.toUInt8

/-- The characters with a meaning outside brackets. -/
def specials : List Char := ['*', '?', '[', '\\']

/-- Whether every character of a text stands for itself. -/
def IsLiteral (s : String) : Prop := ∀ c ∈ s.toList, c ∉ specials

instance (s : String) : Decidable (IsLiteral s) :=
  List.decidableBAll (fun c => c ∉ specials) s.toList

/-! ## Patterns -/

/-- What a place of a pattern stands for. -/
inductive Piece
  /-- Any octets, also none. -/
  | run
  /-- One octet that passes a test. -/
  | one (test : UInt8 → Bool)

/-- Whether an octet lies between two others, or is one of them. -/
def between (a b c : UInt8) : Bool := min a b ≤ c && c ≤ max a b

mutual

/-- The pieces of a pattern. -/
def pieces : Octets → List Piece
  | [] => []
  | c :: rest =>
    if c = star then .run :: pieces rest
    else if c = anyOne then .one (fun _ => true) :: pieces rest
    else if c = opening then
      match rest with
      | [] => inBrackets false (fun _ => false) []
      | d :: rest =>
        if d = caret then inBrackets true (fun _ => false) rest
        else inBrackets false (fun _ => false) (d :: rest)
    else if c = backslash then
      match rest with
      | [] => [.one (· == c)]
      | d :: rest => .one (· == d) :: pieces rest
    else .one (· == c) :: pieces rest

/-- The pieces of what follows an opening bracket, with the octets that are listed so far. Brackets
    that are not closed end with the pattern. -/
def inBrackets (excluded : Bool) (listed : UInt8 → Bool) : Octets → List Piece
  | [] => [.one fun b => listed b != excluded]
  | c :: rest =>
    if c = closing then .one (fun b => listed b != excluded) :: pieces rest
    else match rest with
      | [] => inBrackets excluded (fun b => listed b || b == c) []
      | d :: rest =>
        if c = backslash then inBrackets excluded (fun b => listed b || b == d) rest
        else match rest with
          | [] => inBrackets excluded (fun b => listed b || b == c) [d]
          | e :: rest =>
            if d = hyphen then inBrackets excluded (fun b => listed b || between c e b) rest
            else inBrackets excluded (fun b => listed b || b == c) (d :: e :: rest)

end

/-! ## Matching -/

/-- Whether octets can be cut so that the rest passes a test. -/
def afterRun (test : Octets → Bool) : Octets → Bool
  | [] => test []
  | b :: key => test (b :: key) || afterRun test key

/-- Whether octets are what some pieces stand for, one after the other. -/
def takes : List Piece → Octets → Bool
  | [], key => key.isEmpty
  | .run :: ps, key => afterRun (takes ps) key
  | .one test :: ps, key =>
    match key with
    | [] => false
    | b :: key => test b && takes ps key

/-- Whether a pattern matches a key. -/
def accepts (pattern key : String) : Bool := takes (pieces (Text.encode pattern)) (Text.encode key)

end StaffAccess.Glob

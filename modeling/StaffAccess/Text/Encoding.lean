/-!
# Encoded text

Texts as octets. Texts are written as UTF-8 and read from any of the five Unicode encodings,
told apart by a byte order mark or, without one, by where the zero octets of the first
characters lie.

* `Text.encode`: a text as UTF-8.
* `Text.decodeUtf8?`: what UTF-8 stands for, if it is well formed.
* `Text.decode?`: the same for a text in an encoding that is found out from the text itself.
-/

namespace StaffAccess.Text

/-- A string of octets. -/
abbrev Octets := List UInt8

/-- The octets of one character. -/
def encodeChar (c : Char) : Octets :=
  let n := c.toNat
  let tail (shift : Nat) : UInt8 := .ofNat (0x80 + n / shift % 64)
  if n < 0x80 then [.ofNat n]
  else if n < 0x800 then [.ofNat (0xc0 + n / 64), tail 1]
  else if n < 0x10000 then [.ofNat (0xe0 + n / 4096), tail 64, tail 1]
  else [.ofNat (0xf0 + n / 262144), tail 4096, tail 64, tail 1]

/-- The octets of a text. -/
def encode (s : String) : Octets := s.toList.flatMap encodeChar

/-- The character of a code point. A surrogate that stands alone has none of its own and is
    replaced. -/
def charOfCode (n : Nat) : Char :=
  if h : n.isValidChar then Char.ofNatAux n h else '\ufffd'

/-- Whether a number is a surrogate, one half of a pair of sixteen-bit units. -/
def isSurrogate (n : Nat) : Bool := 0xd800 ≤ n && n ≤ 0xdfff

/-- The bits that an octet after the first one adds to a code point. -/
def tail? (b : UInt8) : Option Nat :=
  if 0x80 ≤ b.toNat ∧ b.toNat < 0xc0 then some (b.toNat - 0x80) else none

/-- The code points of UTF-8 octets. Overlong forms, code points beyond the last one and
    incomplete characters are refused, surrogates only if `strict`. -/
def codesUtf8? (strict : Bool) : Octets → Option (List Nat)
  | [] => some []
  | a :: rest =>
    let n := a.toNat
    if n < 0x80 then (codesUtf8? strict rest).map (n :: ·)
    else if n < 0xc2 then none
    else if n < 0xe0 then
      match rest with
      | b :: rest => do
        let code := (n - 0xc0) * 64 + (← tail? b)
        return code :: (← codesUtf8? strict rest)
      | [] => none
    else if n < 0xf0 then
      match rest with
      | b :: c :: rest => do
        let code := (n - 0xe0) * 4096 + (← tail? b) * 64 + (← tail? c)
        if code < 0x800 || (strict && isSurrogate code) then none
        else return code :: (← codesUtf8? strict rest)
      | _ => none
    else if n < 0xf5 then
      match rest with
      | b :: c :: d :: rest => do
        let code := (n - 0xf0) * 262144 + (← tail? b) * 4096 + (← tail? c) * 64 + (← tail? d)
        if code < 0x10000 || 0x110000 ≤ code then none
        else return code :: (← codesUtf8? strict rest)
      | _ => none
    else none

/-- The text that UTF-8 octets stand for. -/
def decodeUtf8? (bytes : Octets) : Option String :=
  (codesUtf8? true bytes).map fun codes => String.ofList (codes.map charOfCode)

/-! ## Wider units -/

/-- The numbers that groups of two octets stand for. -/
def units16? (bigEndian : Bool) : Octets → Option (List Nat)
  | [] => some []
  | [_] => none
  | a :: b :: rest =>
    let unit := if bigEndian then a.toNat * 256 + b.toNat else b.toNat * 256 + a.toNat
    (units16? bigEndian rest).map (unit :: ·)

/-- The code points of sixteen-bit units: a high surrogate and a low one are one character. -/
def joinSurrogates : List Nat → List Nat
  | [] => []
  | [a] => [a]
  | a :: b :: rest =>
    if 0xd800 ≤ a ∧ a ≤ 0xdbff ∧ 0xdc00 ≤ b ∧ b ≤ 0xdfff then
      (0x10000 + (a - 0xd800) * 1024 + (b - 0xdc00)) :: joinSurrogates rest
    else a :: joinSurrogates (b :: rest)

/-- The code points of groups of four octets. -/
def codes32? (bigEndian : Bool) : Octets → Option (List Nat)
  | [] => some []
  | a :: b :: c :: d :: rest =>
    let code :=
      if bigEndian then ((a.toNat * 256 + b.toNat) * 256 + c.toNat) * 256 + d.toNat
      else ((d.toNat * 256 + c.toNat) * 256 + b.toNat) * 256 + a.toNat
    if code < 0x110000 then (codes32? bigEndian rest).map (code :: ·) else none
  | _ => none

/-- An encoding of texts. -/
inductive Encoding
  /-- Octets, the shorter for the smaller code points. -/
  | utf8
  /-- Sixteen-bit units. -/
  | utf16 (bigEndian : Bool)
  /-- Whole code points. -/
  | utf32 (bigEndian : Bool)
  deriving DecidableEq, Repr

/-- The byte order marks, the longer ones first. -/
def Encoding.marks : List (Octets × Encoding) :=
  [([0, 0, 0xfe, 0xff], .utf32 true), ([0xff, 0xfe, 0, 0], .utf32 false),
   ([0xfe, 0xff], .utf16 true), ([0xff, 0xfe], .utf16 false), ([0xef, 0xbb, 0xbf], .utf8)]

/-- The encoding that the places of zeros among the first octets tell. -/
def Encoding.ofZeros : Octets → Encoding
  | a :: b :: c :: d :: _ =>
    if a = 0 then (if b = 0 then .utf32 true else .utf16 true)
    else if b = 0 then (if c = 0 ∧ d = 0 then .utf32 false else .utf16 false)
    else .utf8
  | [a, b] => if a = 0 then .utf16 true else if b = 0 then .utf16 false else .utf8
  | _ => .utf8

/-- The encoding of some octets, and the octets without their byte order mark. -/
def Encoding.detect (bytes : Octets) : Encoding × Octets :=
  match marks.find? fun (mark, _) => mark.isPrefixOf bytes with
  | some (mark, encoding) => (encoding, bytes.drop mark.length)
  | none => (ofZeros bytes, bytes)

/-- The text that octets of some encoding stand for. -/
def decode? (bytes : Octets) : Option String :=
  let codes? :=
    match Encoding.detect bytes with
    | (.utf8, rest) => codesUtf8? false rest
    | (.utf16 bigEndian, rest) => (units16? bigEndian rest).map joinSurrogates
    | (.utf32 bigEndian, rest) => codes32? bigEndian rest
  codes?.map fun codes => String.ofList (codes.map charOfCode)

end StaffAccess.Text

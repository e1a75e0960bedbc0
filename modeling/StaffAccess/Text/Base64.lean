import StaffAccess.Text.Encoding

/-!
# Octets in sixty-four characters

Four characters carry three octets. Other characters are passed over if they are ASCII.

* `Text.octetsOfBase64?`: the octets of such a text.
-/

namespace StaffAccess.Text

/-- The characters, by the six bits that each stands for. -/
def base64Chars : List Char :=
  "ABCDEFGHIJKLMNOPQRSTUVWXYZabcdefghijklmnopqrstuvwxyz0123456789+/".toList

/-- The octets of full groups of four characters and of a shorter last group, which needs as many
    equality signs as it lacks characters. -/
def octetsOfSixes? (padding : Nat) : List Nat → Option Octets
  | a :: b :: c :: d :: rest =>
    let n := ((a * 64 + b) * 64 + c) * 64 + d
    (octetsOfSixes? padding rest).map fun more =>
      .ofNat (n / 65536) :: .ofNat (n / 256) :: .ofNat n :: more
  | [a, b, c] =>
    let n := ((a * 64 + b) * 64 + c) * 64
    if 1 ≤ padding then some [.ofNat (n / 65536), .ofNat (n / 256)] else none
  | [a, b] => if 2 ≤ padding then some [.ofNat ((a * 64 + b) / 16)] else none
  | [_] => none
  | [] => some []

/-- The octets that a text carries. -/
def octetsOfBase64? (s : String) : Option Octets :=
  let cs := s.toList.filter fun c => base64Chars.contains c || c = '='
  let digits := cs.takeWhile (· ≠ '=')
  if s.toList.all (·.toNat < 0x80) then
    octetsOfSixes? ((cs.drop digits.length).takeWhile (· = '=')).length
      (digits.filterMap base64Chars.idxOf?)
  else none

end StaffAccess.Text

import StaffAccess.Json.Reader
import StaffAccess.Json.Writer
import StaffAccess.Text.Encoding

/-!
# Payloads

How values become octets to be kept in a cache, and values again. Writing never fails, which is an
idealisation where values are beyond the limits of a format. What is concluded from a format's
reading what it wrote is about the values for which it does.

* `PayloadFormat`: a way to write and read.
* `PayloadFormat.json`: compact JSON, written as UTF-8 and read from any Unicode encoding.
-/

namespace StaffAccess

/-- A way to write values as octets and to read them. Only reading can fail. -/
structure PayloadFormat where
  /-- The octets of a value. -/
  encode : Value → Text.Octets
  /-- The value of some octets. -/
  decode : Text.Octets → Except Fault Value

/-- Compact JSON. -/
def PayloadFormat.json : PayloadFormat where
  encode v := Text.encode (Json.write v)
  decode bytes :=
    match Text.decode? bytes with
    | some s => Json.read s
    | none => .error .badValue

end StaffAccess

import StaffAccess.Text.Encoding
import StaffAccess.Text.Hex
import StaffAccess.Value

/-!
# Requests and responses

* `Request`: what a client asks, with its address taken apart.
* `Request.header?`: the value of a header.
* `Response`: what it is answered.
-/

namespace StaffAccess.Http

/-! ## Addresses -/

/-- The octets of a text in which percent signs stand for octets. -/
def unescaped : List Char → Text.Octets
  | '%' :: a :: b :: rest =>
    match Text.hexNumber? 0 [a, b] with
    | some n => .ofNat n :: unescaped rest
    | none => Text.encodeChar '%' ++ unescaped (a :: b :: rest)
  | c :: rest => Text.encodeChar c ++ unescaped rest
  | [] => []

/-- A text with the octets that percent signs stand for. Octets that encode no text stay as they
    are written. -/
def unescape (s : String) : String := (Text.decodeUtf8? (unescaped s.toList)).getD s

/-- Whether a character ends the path in an address. -/
def endsPath (c : Char) : Bool := c = '?' || c = '#'

/-- The path in an address. -/
def pathOf (address : String) : String :=
  unescape (String.ofList (address.toList.takeWhile fun c => !endsPath c))

/-- The name and the value of a parameter. -/
def parameterOf (s : String) : String × String :=
  let plain (cs : List Char) : String :=
    unescape (String.ofList (cs.map fun c => if c = '+' then ' ' else c))
  let name := s.toList.takeWhile (· ≠ '=')
  (plain name, plain (s.toList.drop (name.length + 1)))

/-- The parameters in an address. -/
def parametersOf (address : String) : List (String × String) :=
  match address.toList.dropWhile fun c => !endsPath c with
  | '?' :: rest =>
    let parts := (String.ofList (rest.takeWhile (· ≠ '#'))).splitOn "&"
    (parts.filter (· ≠ "")).map parameterOf
  | _ => []

/-! ## Requests -/

/-- What a client asks. -/
structure Request where
  /-- The method, in upper case. -/
  method : String
  /-- The path. -/
  path : String
  /-- The parameters, in order. -/
  parameters : List (String × String)
  /-- The headers, in order. -/
  headers : List (String × String)
  /-- The body, if there is one. -/
  body : Option Value

namespace Request

/-- The request for an address. Its own parameters count unless others of their name are given. -/
def ofAddress (method address : String) (parameters headers : List (String × String))
    (body : Option Value) : Request where
  method := String.ofList (method.toList.map Char.toUpper)
  path := pathOf address
  parameters :=
    (parametersOf address).filter (fun own => !parameters.any fun p => p.1 = own.1) ++ parameters
  headers := headers
  body := body

/-- A name of a header without regard to letter case. -/
def headerName (name : String) : List Char := name.toList.map Char.toLower

/-- The value of the first header of a name. -/
def header? (r : Request) (name : String) : Option String :=
  (r.headers.find? fun h => headerName h.1 = headerName name).map Prod.snd

/-- The values of the parameters of a name. -/
def parameter (r : Request) (name : String) : List String :=
  (r.parameters.filter fun p => p.1 = name).map Prod.snd

end Request

/-! ## Responses -/

/-- What a client is answered. -/
structure Response where
  /-- The status. -/
  status : Nat
  /-- The body, null where it is for people only. -/
  body : Value
  deriving Repr

namespace Response

/-- An answer. -/
def ok (body : Value) : Response := ⟨200, body⟩

/-- A refusal in words. -/
def refusal (status : Nat) (detail : String) : Response :=
  ⟨status, .record [("detail", .text detail)]⟩

/-- A request whose parameters or body do not have their shape. -/
def malformed : Response := ⟨422, .null⟩

/-- A failure of the server. -/
def failure : Response := ⟨500, .null⟩

/-- A path that leads nowhere. -/
def notFound : Response := refusal 404 "Not Found"

/-- A method that the path does not have. -/
def wrongMethod : Response := refusal 405 "Method Not Allowed"

end Response

end StaffAccess.Http

import StaffAccess.Http.RouteGuard
import StaffAccess.Http.Request

/-!
# Routes

A route has a method and a path with places for parameters. A request takes the first route with
its method and its path; a path that only other methods have is refused, and one that exists but
for slashes at its end leads to that one.

* `Route`: the routes, with what each of them does in `Endpoint`.
* `Route.find`: the route of a request.
-/

namespace StaffAccess.Http

/-- What a route does. -/
inductive Endpoint
  /-- Lists the objects on which the caller has any permission. -/
  | objects
  /-- Tells the permissions of the caller on an object. -/
  | objectPermissions
  /-- Decides on several checks. -/
  | checks
  /-- Tells how some elements show themselves. -/
  | elements
  /-- Tells the entries of a page. -/
  | page
  /-- Lists the titles of documents. -/
  | documents
  deriving DecidableEq, Repr

/-- A step of a path. -/
inductive Segment
  /-- A word. -/
  | word (text : String)
  /-- Any text but the empty one, as a parameter. -/
  | parameter
  deriving DecidableEq, Repr

/-- A route. -/
structure Route where
  /-- The method, in upper case. -/
  method : String
  /-- The path. -/
  path : List Segment
  /-- What it does. -/
  endpoint : Endpoint
  /-- What it declares about its callers. -/
  guard : RouteGuard := {}

/-- The step that a part of a written path stands for: a name in braces is a parameter. -/
def Segment.ofPart (part : String) : Segment :=
  match part.toList with
  | '\x7b' :: rest => if rest.getLast? = some '\x7d' then .parameter else .word part
  | _ => .word part

/-- The steps of a written path. -/
def segmentsOf (path : String) : List Segment := (path.splitOn "/").map Segment.ofPart

/-- The parameters of a path that follows some steps. -/
def parameters? : List Segment → List String → Option (List String)
  | [], [] => some []
  | .word text :: steps, part :: parts => if text = part then parameters? steps parts else none
  | .parameter :: steps, part :: parts =>
    if part = "" then none else (parameters? steps parts).map (part :: ·)
  | _, _ => none

namespace Route

/-- The parameters of a path that is this route's. -/
def match? (r : Route) (path : String) : Option (List String) :=
  parameters? r.path (path.splitOn "/")

/-- Whether a path is one of some routes'. -/
def anyMatch (routes : List Route) (path : String) : Bool :=
  routes.any fun r => (r.match? path).isSome

/-- The path with one slash at its end, or without any if it has some. -/
def otherPath (path : String) : String :=
  if path.endsWith "/" then
    String.ofList ((path.toList.reverse.dropWhile (· = '/')).reverse)
  else path ++ "/"

/-- The route with a method and a path, and its parameters; or why there is none. -/
def findAt (routes : List Route) (method path : String) :
    Except Response (Route × List String) :=
  let fitting := routes.filterMap fun r => (r.match? path).map fun ps => (r, ps)
  match fitting.find? fun e => e.1.method = method with
  | some found => .ok found
  | none => .error (if fitting.isEmpty then .notFound else .wrongMethod)

/-- The route of a request, and its parameters; or why there is none. -/
def find (routes : List Route) (request : Request) : Except Response (Route × List String) :=
  let path :=
    if !anyMatch routes request.path && request.path ≠ "/" &&
        anyMatch routes (otherPath request.path) then otherPath request.path
    else request.path
  findAt routes request.method path

end Route

end StaffAccess.Http

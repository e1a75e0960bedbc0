import StaffAccess.Permission

/-!
# Route guards

What a route declares about its callers: the permissions they need, and the business objects of
which they see only their own rows. Declarations are made one after the other; a declaration of
rows that is repeated for an object replaces the earlier one in its place.

* `RouteGuard`: the declarations of a route.
* `RouteGuard.Declaration`: one of them, with `RouteGuard.ofDeclarations`.
-/

namespace StaffAccess

/-- The declarations of a route. -/
structure RouteGuard where
  /-- The permissions that a caller needs, in the order of their declaration. -/
  required : List (Value × Action) := []
  /-- The objects of which a caller sees only some rows, and for which operation. -/
  rowFilters : OrderedMap Value Action := .empty

namespace RouteGuard

/-- One declaration, before its words are understood. -/
inductive Declaration
  /-- A caller needs a permission. -/
  | require (object action : Value)
  /-- A caller sees only some rows. -/
  | rowFilter (object operation : Value)
  deriving Repr

/-- Adds a declaration. The action must be known, and the object of a declaration of rows must
    be fit to be looked up by. -/
def declare (guard : RouteGuard) : Declaration → Except Fault RouteGuard
  | .require object action => do
    return { guard with required := guard.required ++ [(object, ← Action.ofValue action)] }
  | .rowFilter object operation => do
    let operation ← Action.ofValue operation
    if object.isKey then return { guard with rowFilters := guard.rowFilters.put object operation }
    else throw .wrongType

/-- The guard of a route with some declarations. -/
def ofDeclarations (declarations : List Declaration) : Except Fault RouteGuard :=
  declarations.foldlM declare {}

/-- Whether nothing is declared. -/
def isEmpty (guard : RouteGuard) : Bool := guard.required.isEmpty && guard.rowFilters.isEmpty

end RouteGuard

end StaffAccess

import StaffAccess.Database.Query
import StaffAccess.Http.Request
import StaffAccess.Http.RouteGuard
import StaffAccess.Authorization
import StaffAccess.Text.Blank

/-!
# Enforcing route guards

A request for a route with a guard goes through only if its caller is known and has every
permission that the guard asks for, in the order in which they are declared. It then carries the
caller's id and the row filters that the guard declares. A request for a route without a guard
goes through as it is.

* `callerOf`: the caller that a request names.
* `RouteGuard.enforce`: the decision, with the reasons of a refusal in `Refusal`.
-/

namespace StaffAccess

open Http (Request Response)

/-- Why a request is refused. -/
inductive Refusal
  /-- It names no caller. -/
  | noCaller
  /-- Its caller does not exist or is not active. -/
  | unknownCaller
  /-- The security decision is open. -/
  | unavailable
  /-- A permission is missing. -/
  | denied (reason : Permission.Denial)
  /-- Something is broken. -/
  | broken (cause : Fault)
  deriving Repr

/-- The response to a refused request. -/
def Refusal.response : Refusal → Response
  | noCaller => .refusal 401 "Missing user id"
  | unknownCaller => .refusal 401 "Invalid or inactive user"
  | unavailable => .refusal 503 Permission.unavailableMessage
  | denied reason => .refusal 403 reason.message
  | broken _ => .failure

/-- The caller in a header: what stands between the blanks, if anything. -/
def callerOf (header : Option String) : Option String :=
  (header.map Text.strip).filter (· ≠ "")

/-- What a request that goes through carries. -/
structure Pass where
  /-- The caller, if the route has a guard. -/
  caller : Option String := none
  /-- The row filters in force. -/
  rowFilters : RowFilters := .empty

namespace RouteGuard

/-- Why a context that failed to load refuses a request. -/
def refusalOf : Fault → Refusal
  | .identityNotFound _ => .unknownCaller
  | e => if e.isEvaluation then .unavailable else .broken e

/-- What a decision means for a request. -/
def refusalOfDecision : Permission.Decision → Option Refusal
  | .allowed => none
  | .denied .unavailable => some .unavailable
  | .denied reason => some (.denied reason)

variable {m : Type → Type} [Monad m] (auth : Authorization m)

/-- The first refusal among some required permissions. -/
def firstRefusal (user : String) : List (Value × Action) → m (Option Refusal)
  | [] => return none
  | (object, action) :: rest => do
    match refusalOfDecision
        (← auth.checkPermission (.text user) object (.text action.word) .null) with
    | some refusal => return some refusal
    | none => firstRefusal user rest

/-- The filters for the objects of which a caller sees only some rows. -/
def compileFilters (user : String) (guard : RouteGuard) : m RowFilters := do
  let compiled ← guard.rowFilters.entries.mapM fun e => do
    return (e.1, ← auth.compileFilter (.text user) e.1)
  return .ofEntries compiled

/-- Whether a request with some header goes through, and with what. -/
def enforce (guard : RouteGuard) (header : Option String) : m (Except Refusal Pass) := do
  if guard.isEmpty then return .ok {}
  match callerOf header with
  | none => return .error .noCaller
  | some user =>
    match ← auth.contexts (.text user) with
    | .error e => return .error (refusalOf e)
    | .ok _ =>
      match ← firstRefusal auth user guard.required with
      | some refusal => return .error refusal
      | none => return .ok { caller := some user, rowFilters := ← compileFilters auth user guard }

end RouteGuard

end StaffAccess

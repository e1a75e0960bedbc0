import StaffAccess.Text.Part
import StaffAccess.Value.Convert

/-!
# Row predicates

A row filter is a small tree of tests on the fields of a record. A field that a record lacks
satisfies no test. Trees are put together by `allOf`, `anyOf` and `fieldIn`, which leave out
what decides nothing: the constants, and the junctions of fewer than two parts. Trees may be as
deep as they like: evaluating them has no limit here, an idealisation.

* `Predicate.eval`: whether a record satisfies a predicate.
* `Predicate.allOf`, `Predicate.anyOf`, `Predicate.fieldIn`: the simplifying constructors.
* `Predicate.withCaller`: a predicate narrowed by the caller's own one.
-/

namespace StaffAccess

/-- A test on records. -/
inductive Predicate
  /-- Satisfied by every record. -/
  | matchAll
  /-- Satisfied by no record. -/
  | matchNone
  /-- The field has this value. -/
  | equals (field : String) (value : Value)
  /-- The field has one of these values. -/
  | among (field : String) (values : List Value)
  /-- All parts are satisfied. -/
  | conj (parts : List Predicate)
  /-- Some part is satisfied. -/
  | disj (parts : List Predicate)
  /-- A part that is no predicate; asking for its answer is a fault. -/
  | foreign (part : Value)
  deriving Repr, Inhabited

namespace Predicate

/-! ## Constructors -/

/-- Whether this is the constant that every record satisfies. -/
def isAll : Predicate → Bool
  | matchAll => true
  | _ => false

/-- Whether this is the constant that no record satisfies. -/
def isNone : Predicate → Bool
  | matchNone => true
  | _ => false

/-- The conjunction of some predicates. -/
def allOf (parts : List Predicate) : Predicate :=
  if parts.any isNone then matchNone
  else match parts.filter fun p => !p.isAll with
    | [] => matchAll
    | [p] => p
    | kept => conj kept

/-- The disjunction of some predicates. -/
def anyOf (parts : List Predicate) : Predicate :=
  if parts.any isAll then matchAll
  else match parts.filter fun p => !p.isNone with
    | [] => matchNone
    | [p] => p
    | kept => disj kept

/-- The values of a list, each at its first place only. -/
def distinctValues (values : List Value) : List Value :=
  values.foldl (fun kept v => if kept.any (·.same v) then kept else kept ++ [v]) []

/-- The test for some distinct values. -/
def ofDistinct (field : String) : List Value → Predicate
  | [] => matchNone
  | [v] => equals field v
  | vs => among field vs

/-- The test whether a field has one of some values, all of which must be fit to be looked up
    by. -/
def fieldIn (field : String) (values : List Value) : Except Fault Predicate :=
  if values.all Value.isKey then .ok (ofDistinct field (distinctValues values))
  else .error .wrongType

/-- The predicate narrowed by the caller's own one, if there is one. -/
def withCaller (security : Predicate) : Option Predicate → Predicate
  | none => security
  | some caller => allOf [security, caller]

/-! ## Evaluation -/

mutual

/-- Whether a record satisfies a predicate. Parts are asked from left to right until one of
    them decides. -/
def eval : Predicate → Value → Except Fault Bool
  | matchAll, _ => .ok true
  | matchNone, _ => .ok false
  | equals name v, r => return (← r.lookup? name).any (·.same v)
  | among name vs, r => return (← r.lookup? name).any fun x => vs.any (·.same x)
  | conj parts, r => evalAll parts r
  | disj parts, r => evalAny parts r
  | foreign part, _ => .error (.unsupportedPredicate part)

/-- Whether a record satisfies all predicates of a list. -/
def evalAll : List Predicate → Value → Except Fault Bool
  | [], _ => .ok true
  | p :: ps, r => do if ← p.eval r then evalAll ps r else return false

/-- Whether a record satisfies some predicate of a list. -/
def evalAny : List Predicate → Value → Except Fault Bool
  | [], _ => .ok false
  | p :: ps, r => do if ← p.eval r then return true else evalAny ps r

end

end Predicate

end StaffAccess

import StaffAccess.Database.Schema
import StaffAccess.Predicate

/-!
# Criteria

A predicate as a condition on the rows of a table. A comparison with an empty column is neither
true nor false, and a row is selected only where its criterion is true. A field that is no column
of the table selects nothing. A junction without parts says nothing at all: it is left out of a
greater one, and alone it selects every row.

* `Criterion.truth`: the truth of a criterion on a row, which may be open.
* `Criterion.selects`: whether a row is selected.
* `Predicate.criterion`: the criterion of a predicate.
-/

namespace StaffAccess

namespace Database

/-- A condition on rows. -/
inductive Criterion
  /-- True of every row. -/
  | always
  /-- True of no row. -/
  | never
  /-- The column is empty. -/
  | isNull (column : Column)
  /-- The column has a value. -/
  | equals (column : Column) (value : Value)
  /-- The column has one of some values. -/
  | among (column : Column) (values : List Value)
  /-- All parts are true. -/
  | conj (parts : List Criterion)
  /-- Some part is true. -/
  | disj (parts : List Criterion)
  deriving Repr

namespace Criterion

/-! ## Junctions -/

/-- Whether a criterion is true of every row by its form. -/
def isAlways : Criterion → Bool
  | always => true
  | _ => false

/-- Whether a criterion is true of no row by its form. -/
def isNever : Criterion → Bool
  | never => true
  | _ => false

/-- The conjunction, without the constants. -/
def allOf (parts : List Criterion) : Criterion :=
  if parts.any isNever then never
  else match parts.filter fun c => !c.isAlways with
    | [] => if parts.isEmpty then conj [] else always
    | [c] => c
    | kept => conj kept

/-- The disjunction, without the constants. -/
def anyOf (parts : List Criterion) : Criterion :=
  if parts.any isAlways then always
  else match parts.filter fun c => !c.isNever with
    | [] => if parts.isEmpty then disj [] else never
    | [c] => c
    | kept => disj kept

/-! ## Truth -/

/-- Whether both are true; open if neither is false and one is open. -/
def both : Option Bool → Option Bool → Option Bool
  | some false, _ => some false
  | _, some false => some false
  | some true, some true => some true
  | _, _ => none

/-- Whether one is true; open if neither is true and one is open. -/
def either : Option Bool → Option Bool → Option Bool
  | some true, _ => some true
  | _, some true => some true
  | some false, some false => some false
  | _, _ => none

/-- The form of a value in a column, null if it has none. -/
def bound (column : Column) (v : Value) : Value :=
  match column.kind.store v with
  | .ok v => v
  | .error _ => .null

/-- Whether a column has a value; open if one of them is empty. -/
def sameTruth (x v : Value) : Option Bool :=
  if x.isNull || v.isNull then none else some (x.same v)

mutual

/-- Whether a criterion says nothing at all. -/
def isBlank : Criterion → Bool
  | conj parts => areBlank parts
  | disj parts => areBlank parts
  | _ => false

/-- Whether all criteria of a list say nothing at all. -/
def areBlank : List Criterion → Bool
  | [] => true
  | c :: cs => c.isBlank && areBlank cs

end

mutual

/-- The truth of a criterion on a row. -/
def truth : Criterion → Row → Option Bool
  | always, _ => some true
  | never, _ => some false
  | isNull column, row => some (row.get column.name).isNull
  | equals column v, row => sameTruth (row.get column.name) (bound column v)
  | among column vs, row =>
    vs.foldr (fun v t => either (sameTruth (row.get column.name) (bound column v)) t) (some false)
  | conj parts, row => truthOfAll parts row
  | disj parts, row => truthOfAny parts row

/-- The truth of all criteria of a list that say something. -/
def truthOfAll : List Criterion → Row → Option Bool
  | [], _ => some true
  | c :: cs, row =>
    if c.isBlank then truthOfAll cs row else both (c.truth row) (truthOfAll cs row)

/-- The truth of some criterion of a list that says something. -/
def truthOfAny : List Criterion → Row → Option Bool
  | [], _ => some false
  | c :: cs, row =>
    if c.isBlank then truthOfAny cs row else either (c.truth row) (truthOfAny cs row)

end

/-- Whether a criterion selects a row. -/
def selects (c : Criterion) (row : Row) : Bool := c.isBlank || c.truth row = some true

/-! ## Values in queries -/

mutual

/-- The first fault among the values of a criterion: not every value can be compared with a
    column. -/
def check : Criterion → Except Fault Unit
  | equals column v => do
    let _ ← column.kind.store v
  | among column vs => do
    let _ ← vs.mapM column.kind.store
  | conj parts => checkAll parts
  | disj parts => checkAll parts
  | _ => return

/-- The first fault among the values of some criteria. -/
def checkAll : List Criterion → Except Fault Unit
  | [] => return
  | c :: cs => do
    c.check
    checkAll cs

end

end Criterion

end Database

/-! ## Predicates -/

namespace Predicate

open Database

mutual

/-- The criterion of a predicate on the rows of a table with some columns. -/
def criterion (columns : List Column) : Predicate → Except Fault Criterion
  | matchAll => .ok .always
  | matchNone => .ok .never
  | equals field v =>
    match columns.find? fun c => c.name = field with
    | some column => .ok (if v.isNull then .isNull column else .equals column v)
    | none => .ok .never
  | among field vs =>
    match columns.find? fun c => c.name = field with
    | some column => .ok (.among column vs)
    | none => .ok .never
  | conj parts => return .allOf (← criteria columns parts)
  | disj parts => return .anyOf (← criteria columns parts)
  | foreign part => .error (.unsupportedPredicate part)

/-- The criteria of some predicates. -/
def criteria (columns : List Column) : List Predicate → Except Fault (List Criterion)
  | [] => return []
  | p :: ps => return (← p.criterion columns) :: (← criteria columns ps)

end

end Predicate

end StaffAccess

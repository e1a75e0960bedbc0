import StaffAccess.Predicate

/-!
# Predicate documents

The form in which predicates are stored and sent: records with the entry `match`, `and`, `or`,
or with `field` together with `equals` or `in`. Where a record has several of these, the first
one in this order counts. Reading puts the parts together by the simplifying constructors.

Neither writing nor reading has a limit on how deep documents lie in each other, an idealisation.
Documents that come from a JSON text are no deeper than `Json.maxDepth`.

* `Predicate.toValue`: writing, which fails on parts that are no predicates.
* `Predicate.ofValue`: reading.
-/

namespace StaffAccess.Predicate

/-! ## Writing -/

mutual

/-- The document of a predicate. -/
def toValue : Predicate → Except Fault Value
  | matchAll => .ok (.record [("match", .text "all")])
  | matchNone => .ok (.record [("match", .text "none")])
  | equals name v => .ok (.record [("field", .text name), ("equals", v)])
  | among name vs => .ok (.record [("field", .text name), ("in", .list vs)])
  | conj parts => return .record [("and", .list (← toValues parts))]
  | disj parts => return .record [("or", .list (← toValues parts))]
  | foreign part => .error (.unsupportedPredicate part)

/-- The documents of some predicates. -/
def toValues : List Predicate → Except Fault (List Value)
  | [] => .ok []
  | p :: ps => return (← p.toValue) :: (← toValues ps)

end

/-! ## Reading -/

/-- The constant of a name. -/
def ofConstant (name : Value) : Except Fault Predicate :=
  if name.same (.text "all") then .ok matchAll
  else if name.same (.text "none") then .ok matchNone
  else .error (.document (.unknownMatch name))

/-- The test on a field. -/
def ofTest (document : Fields) : Except Fault Predicate :=
  match document.lookup "field" with
  | none => .error (.document (.unrecognised document))
  | some name =>
    match document.lookup "equals", document.lookup "in" with
    | some v, _ => .ok (equals name.display v)
    | none, some (.list vs) => fieldIn name.display vs
    | none, some _ => .error (.document .operandsNotList)
    | none, none => .error (.document (.unrecognised document))

mutual

/-- The predicate of a document. -/
def ofValue : Value → Except Fault Predicate
  | .record document =>
    match document.lookup "match" with
    | some name => ofConstant name
    | none =>
      match ofEntry "and" document with
      | some parts => return allOf (← parts)
      | none =>
        match ofEntry "or" document with
        | some parts => return anyOf (← parts)
        | none => ofTest document
  | .null => .error (.document (.notRecord .null))
  | .bool b => .error (.document (.notRecord (.bool b)))
  | .int n => .error (.document (.notRecord (.int n)))
  | .double d => .error (.document (.notRecord (.double d)))
  | .text s => .error (.document (.notRecord (.text s)))
  | .list xs => .error (.document (.notRecord (.list xs)))

/-- The predicates of the parts in the named entry, if there is one. -/
def ofEntry (name : String) : List (String × Value) → Option (Except Fault (List Predicate))
  | [] => none
  | (key, parts) :: rest => if key == name then some (ofParts parts) else ofEntry name rest

/-- The predicates of the parts, which must be in a list. -/
def ofParts : Value → Except Fault (List Predicate)
  | .list documents => ofItems documents
  | _ => .error (.document .operandsNotList)

/-- The predicates of some documents. -/
def ofItems : List Value → Except Fault (List Predicate)
  | [] => .ok []
  | v :: vs => return (← ofValue v) :: (← ofItems vs)

end

end StaffAccess.Predicate

import StaffAccess.Yaml.Node

/-!
# Contents of nodes

The value that a node stands for. Entries whose key is no text are left out of a record, as
nothing could ask for them. A merge key puts the entries of other mappings in front of the own
ones, which win.

* `Node.toValue`: the value of a node.
-/

namespace StaffAccess.Yaml.Node

/-- The record of some pairs, of which the last one of a key counts. -/
def recordOf (pairs : List (Value × Value)) : Value :=
  .record (Value.fieldsOfEntries (pairs.filterMap fun (k, v) =>
    match k with
    | .text name => some (name, v)
    | _ => none))

/-- The list of the keys of some pairs, each once. -/
def keysOf (pairs : List (Value × Value)) : Value :=
  .list (pairs.foldl (fun kept (k, _) => if kept.any (·.same k) then kept else kept ++ [k]) [])

/-- The pairs of a mapping: those of the mappings that it merges, and its own. -/
structure Pairs where
  /-- Those of the mappings that it merges. -/
  merged : List (Value × Value)
  /-- Its own. -/
  own : List (Value × Value)

/-- All pairs, those that win last. -/
def Pairs.all (p : Pairs) : List (Value × Value) := p.merged ++ p.own

mutual

/-- The value of a node. -/
def toValue : Node → Except Fault Value
  | scalar tag s => tag.scalarValue s
  | sequence tag xs =>
    match tag with
    | .seq => return .list (← valuesOf xs)
    | .omap => return .list (← couplesOf xs)
    | .pairs => return .list (← couplesOf xs)
    | _ => throw .yaml
  | mapping tag es =>
    match tag with
    | .map => return recordOf (← pairsOf es).all
    | .set => return keysOf (← pairsOf es).all
    | _ => throw .yaml

/-- The values of some nodes. -/
def valuesOf : List Node → Except Fault (List Value)
  | [] => return []
  | x :: xs => return (← x.toValue) :: (← valuesOf xs)

/-- The couples of mappings with one entry each. -/
def couplesOf : List Node → Except Fault (List Value)
  | [] => return []
  | mapping _ [(k, v)] :: xs => return .list [← k.toValue, ← v.toValue] :: (← couplesOf xs)
  | _ => throw .yaml

/-- The pairs of a mapping. Lists and records cannot be keys. -/
def pairsOf : List (Node × Node) → Except Fault Pairs
  | [] => return ⟨[], []⟩
  | (k, v) :: rest => do
    if k.tag = .merge then
      let merged ← mergedOf v
      let more ← pairsOf rest
      return { more with merged := merged ++ more.merged }
    else
      let key ← match k with
        | scalar .default s => pure (.text s)
        | k => k.toValue
      if key.isKey then
        let value ← v.toValue
        let more ← pairsOf rest
        return { more with own := (key, value) :: more.own }
      else throw .yaml

/-- The pairs that a node under a merge key brings: of a mapping, or of several, of which the
    first one wins. -/
def mergedOf : Node → Except Fault (List (Value × Value))
  | mapping _ es => return (← pairsOf es).all
  | sequence _ xs => mergedItems xs
  | scalar .. => throw .yaml

/-- The pairs of several mappings, the last one first. -/
def mergedItems : List Node → Except Fault (List (Value × Value))
  | [] => return []
  | mapping _ es :: xs => do
    let pairs ← pairsOf es
    return (← mergedItems xs) ++ pairs.all
  | _ => throw .yaml

end

end StaffAccess.Yaml.Node

import StaffAccess.Yaml.Tag
import StaffAccess.Yaml.Token

/-!
# Nodes

A YAML document is a tree of scalars, sequences and mappings. A node with an anchor may stand in
several places; within itself it is empty.

* `Node`: the trees.
* `Node.ofTokens`: the one document of a text.
-/

namespace StaffAccess.Yaml

/-- A tree of scalars. -/
inductive Node
  /-- A text and what kind of value it stands for. -/
  | scalar (tag : Tag) (text : String)
  /-- Nodes in a row. -/
  | sequence (tag : Tag) (items : List Node)
  /-- Pairs of keys and values. -/
  | mapping (tag : Tag) (entries : List (Node × Node))
  deriving Repr

namespace Node

/-- The kind of value that a node stands for. -/
def tag : Node → Tag
  | scalar tag _ => tag
  | sequence tag _ => tag
  | mapping tag _ => tag

/-- The node where there is none. -/
def absent : Node := .scalar .null ""

/-- What is still to be read, and the nodes that have an anchor. -/
structure Reading where
  /-- The tokens that are left. -/
  tokens : List Token
  /-- The nodes with an anchor. -/
  anchors : List (String × Node) := []

/-- Reading nodes. -/
abbrev Reader := StateT Reading (Except Fault)

namespace Reader

/-- A text that is no YAML. -/
def refuse {α : Type} : Reader α := throw .yaml

/-- Goes on only if a condition holds. -/
def demand (condition : Bool) : Reader Unit := if condition then return else refuse

/-- The next token. -/
def peek : Reader (Option Token) := return (← get).tokens.head?

/-- Goes behind the next token. -/
def drop : Reader Unit := modify fun r => { r with tokens := r.tokens.drop 1 }

/-! ## Properties -/

/-- The short forms of tags in a document: handles, and what they stand for. -/
abbrev Handles := List (String × String)

/-- The short forms that every document has. -/
def commonHandles : Handles := [("!", "!"), ("!!", Tag.family)]

/-- The full name of a tag. -/
def fullName (handles : Handles) (handle : Option String) (suffix : String) : Reader String :=
  match handle with
  | none => return suffix
  | some handle =>
    match handles.lookup handle with
    | some start => return start ++ suffix
    | none => refuse

/-- The anchor in front, if there is one. -/
def takeAnchor? : Reader (Option String) := do
  match ← peek with
  | some (.anchor name) => drop; return some name
  | _ => return none

/-- The tag in front, if there is one. -/
def takeTag? (handles : Handles) : Reader (Option String) := do
  match ← peek with
  | some (.tag handle suffix) => drop; return some (← fullName handles handle suffix)
  | _ => return none

/-- The anchor and the tag in front, in either order. -/
def takeProperties (handles : Handles) : Reader (Option String × Option String) := do
  let before ← takeAnchor?
  let tag ← takeTag? handles
  let after ← if before.isNone then takeAnchor? else pure none
  return (before.or after, tag)

/-- The tag of a node, given its written one and the one that it would have without. -/
def tagOr (written : Option String) (implied : Tag) : Tag :=
  match written with
  | some name => if name = "!" then implied else Tag.ofName name
  | none => implied

/-- Names a node. No name may be given twice. -/
def announce (anchor : Option String) (node : Node) : Reader Unit := do
  match anchor with
  | some name =>
    demand ((← get).anchors.lookup name).isNone
    modify fun r => { r with anchors := (name, node) :: r.anchors }
  | none => return

/-- Completes a node that has been named before. -/
def complete (anchor : Option String) (node : Node) : Reader Node := do
  match anchor with
  | some name => modify fun r => { r with anchors := (name, node) :: r.anchors }
  | none => pure ()
  return node

/-! ## Trees -/

/-- Whether a token ends an indented node where none has started. -/
def endsBlock : Option Token → Bool
  | some .key => true
  | some .value => true
  | some .blockEnd => true
  | _ => false

/-- Whether a token ends a bracketed node where none has started. -/
def endsFlow : Option Token → Bool
  | some .flowItem => true
  | some .flowSequenceEnd => true
  | some .flowMappingEnd => true
  | _ => false

mutual

/-- The node in front. Indented collections are read only where `block` says so, and sequences
    that are not indented deeper than their key only where `hanging` does. -/
def takeNode (handles : Handles) (block hanging : Bool) : (steps : Nat) → Reader Node
  | 0 => refuse
  | steps + 1 => do
    match ← peek with
    | some (.reference name) =>
      drop
      match (← get).anchors.lookup name with
      | some node => return node
      | none => refuse
    | _ =>
      let (anchor, written) ← takeProperties handles
      let sequenceTag := tagOr written .seq
      let mappingTag := tagOr written .map
      let next ← peek
      match next with
      | some (.scalar text isPlain) =>
        drop
        let implied := if isPlain || written = some "!" then Tag.ofPlain text else .str
        let node := Node.scalar (tagOr written implied) text
        announce anchor node
        return node
      | some .flowSequence =>
        drop
        announce anchor (.sequence sequenceTag [])
        complete anchor (.sequence sequenceTag (← takeFlowItems handles true steps))
      | some .flowMapping =>
        drop
        announce anchor (.mapping mappingTag [])
        complete anchor (.mapping mappingTag (← takeFlowEntries handles true steps))
      | _ =>
        if hanging && next matches some .blockItem then
          announce anchor (.sequence sequenceTag [])
          complete anchor (.sequence sequenceTag (← takeHangingItems handles steps))
        else if block && next matches some .blockSequence then
          drop
          announce anchor (.sequence sequenceTag [])
          complete anchor (.sequence sequenceTag (← takeBlockItems handles steps))
        else if block && next matches some .blockMapping then
          drop
          announce anchor (.mapping mappingTag [])
          complete anchor (.mapping mappingTag (← takeBlockEntries handles steps))
        else
          demand (anchor.isSome || written.isSome)
          let node := Node.scalar (tagOr written .null) ""
          announce anchor node
          return node

/-- The items of an indented sequence. -/
def takeBlockItems (handles : Handles) : (steps : Nat) → Reader (List Node)
  | 0 => refuse
  | steps + 1 => do
    match ← peek with
    | some .blockItem =>
      drop
      let next ← peek
      let item ←
        if next matches some .blockItem | some .blockEnd then pure absent
        else takeNode handles true false steps
      return item :: (← takeBlockItems handles steps)
    | some .blockEnd => drop; return []
    | _ => refuse

/-- The items of a sequence that is not indented deeper than its key. -/
def takeHangingItems (handles : Handles) : (steps : Nat) → Reader (List Node)
  | 0 => refuse
  | steps + 1 => do
    match ← peek with
    | some .blockItem =>
      drop
      let next ← peek
      let item ←
        if endsBlock next || next matches some .blockItem then pure absent
        else takeNode handles true false steps
      return item :: (← takeHangingItems handles steps)
    | _ => return []

/-- The entries of an indented mapping. -/
def takeBlockEntries (handles : Handles) : (steps : Nat) → Reader (List (Node × Node))
  | 0 => refuse
  | steps + 1 => do
    match ← peek with
    | some .key =>
      drop
      let key ← takeBlockPart handles steps
      let value ← match ← peek with
        | some .value => drop; takeBlockPart handles steps
        | _ => pure absent
      return (key, value) :: (← takeBlockEntries handles steps)
    | some .blockEnd => drop; return []
    | _ => refuse

/-- A key or a value of an indented mapping, which may be left out. -/
def takeBlockPart (handles : Handles) : (steps : Nat) → Reader Node
  | 0 => refuse
  | steps + 1 => do
    if endsBlock (← peek) then return absent
    else takeNode handles true true steps

/-- The items of a bracketed sequence. Between two of them stands a comma. -/
def takeFlowItems (handles : Handles) (isFirst : Bool) : (steps : Nat) → Reader (List Node)
  | 0 => refuse
  | steps + 1 => do
    if (← peek) matches some .flowSequenceEnd then
      drop
      return []
    unless isFirst do
      demand ((← peek) matches some .flowItem)
      drop
    match ← peek with
    | some .flowSequenceEnd => drop; return []
    | some .key =>
      drop
      let key ← takeFlowPart handles steps
      let value ← takeFlowValue handles steps
      return .mapping .map [(key, value)] :: (← takeFlowItems handles false steps)
    | _ =>
      let item ← takeNode handles false false steps
      return item :: (← takeFlowItems handles false steps)

/-- The entries of a bracketed mapping. Between two of them stands a comma. -/
def takeFlowEntries (handles : Handles) (isFirst : Bool) :
    (steps : Nat) → Reader (List (Node × Node))
  | 0 => refuse
  | steps + 1 => do
    if (← peek) matches some .flowMappingEnd then
      drop
      return []
    unless isFirst do
      demand ((← peek) matches some .flowItem)
      drop
    match ← peek with
    | some .flowMappingEnd => drop; return []
    | some .key =>
      drop
      let key ← takeFlowPart handles steps
      let value ← takeFlowValue handles steps
      return (key, value) :: (← takeFlowEntries handles false steps)
    | _ =>
      let key ← takeNode handles false false steps
      return (key, absent) :: (← takeFlowEntries handles false steps)

/-- The value behind the key of a bracketed entry, which may be left out. -/
def takeFlowValue (handles : Handles) : (steps : Nat) → Reader Node
  | 0 => refuse
  | steps + 1 => do
    if (← peek) matches some .value then
      drop
      if endsFlow (← peek) then return absent
      else takeNode handles false false steps
    else return absent

/-- The key of a bracketed entry, which may be left out. -/
def takeFlowPart (handles : Handles) : (steps : Nat) → Reader Node
  | 0 => refuse
  | steps + 1 => do
    let next ← peek
    if endsFlow next || next matches some .value then return absent
    else takeNode handles false false steps

end

/-! ## Documents -/

/-- The short forms that the directives in front of a document declare. Neither a short form nor
    the version may be declared twice. -/
def takeHandles (hasVersion : Bool) (handles : Handles) : (steps : Nat) → Reader Handles
  | 0 => refuse
  | steps + 1 => do
    match ← peek with
    | some (.directive (.version major _)) =>
      demand (!hasVersion && major = 1)
      drop
      takeHandles true handles steps
    | some (.directive (.tag handle start)) =>
      demand (handles.lookup handle).isNone
      drop
      takeHandles hasVersion ((handle, start) :: handles) steps
    | some (.directive .other) =>
      drop
      takeHandles hasVersion handles steps
    | _ => return handles

/-- Whether a token cannot belong to a document. -/
def isOutside : Option Token → Bool
  | some (.directive _) => true
  | some .documentStart => true
  | some .documentEnd => true
  | none => true
  | _ => false

/-- The document in front, which may be empty behind its mark. -/
def takeDocument : Reader Node := do
  let bound := 4 * (← get).tokens.length + 8
  match ← peek with
  | some (.directive _) | some .documentStart =>
    let handles ← takeHandles false [] bound
    demand ((← peek) matches some .documentStart)
    drop
    if isOutside (← peek) then return absent
    else takeNode (handles ++ commonHandles) true false bound
  | _ => takeNode commonHandles true false bound

end Reader

/-- The only document of some tokens, if there is one at all. -/
def ofTokens (tokens : List Token) : Except Fault (Option Node) := do
  if tokens.isEmpty then return none
  let (node, after) ← Reader.takeDocument.run { tokens }
  if after.tokens.all fun t => t matches .documentEnd then return some node
  else throw .yaml

end Node

end StaffAccess.Yaml

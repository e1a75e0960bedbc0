import StaffAccess.Yaml.Scalar
import StaffAccess.Yaml.Token

/-!
# Layout

The tokens of a text. A key may stand in front of its colon without a mark of its own, so every
place where one may start is remembered until the colon comes or can come no more; the token of
the key is then put in front of it. Columns say where indented collections start and end.

* `Layout`: what has been read, and what may still become of it.
* `Layout.step`: reads one token with the marks that belong to it.
* `Token.ofText`: all tokens of a text.
-/

namespace StaffAccess.Yaml

/-- A place where a key may have started. -/
structure KeyStart where
  /-- The number of tokens before. -/
  tokens : Nat
  /-- Whether it must be a key, as it stands where the keys of a mapping do. -/
  isRequired : Bool
  /-- Where it starts. -/
  source : Source

/-- What has been read, and what may still become of it. -/
structure Layout where
  /-- The tokens, from left to right. -/
  tokens : Array Token := #[]
  /-- The number of open bracketed collections. -/
  flow : Int := 0
  /-- The column of the innermost indented collection. -/
  indent : Int := -1
  /-- The columns of the collections around it. -/
  outer : List Int := []
  /-- Whether a key may start here. -/
  mayStartKey : Bool := true
  /-- The places where keys may have started, by the number of open bracketed collections. -/
  starts : List (Int × KeyStart) := []
  /-- Whether the text has been read to its end. -/
  isDone : Bool := false

namespace Layout

/-- Reading tokens. -/
abbrev Reader := StateT Layout Scan

/-- The place in the text. -/
def place : Reader Source := (get : Scan Source)

/-- A text that is no YAML. -/
def refuse {α : Type} : Reader α := throw .yaml

/-- Goes on only if a condition holds. -/
def demand (condition : Bool) : Reader Unit := if condition then return else refuse

/-- Adds a token. -/
def put (t : Token) : Reader Unit := modify fun l => { l with tokens := l.tokens.push t }

/-- Adds a token behind the first `n`. -/
def putAt (n : Nat) (t : Token) : Reader Unit := modify fun l =>
  { l with tokens := (l.tokens.extract 0 n).push t ++ l.tokens.extract n l.tokens.size }

/-- Says whether a key may start from here on. -/
def allowKey (may : Bool) : Reader Unit := modify fun l => { l with mayStartKey := may }

/-- Whether the text is within brackets. -/
def inFlow : Reader Bool := return (← get).flow ≠ 0

/-! ## Places of keys -/

/-- The most characters between a key and its colon. -/
def maxKeyLength : Nat := 1024

/-- Whether the colon of a key cannot come any more. -/
def KeyStart.isStale (k : KeyStart) (here : Source) : Bool :=
  k.source.line ≠ here.line || maxKeyLength < here.index - k.source.index

/-- Forgets the keys whose colon cannot come any more. None of them may be a required one. -/
def dropStale : Reader Unit := do
  let here ← place
  let l ← get
  demand (!l.starts.any fun (_, k) => k.isRequired && KeyStart.isStale k here)
  set { l with starts := l.starts.filter fun (_, k) => !KeyStart.isStale k here }

/-- Forgets the key that may have started within the same brackets. -/
def dropStart : Reader Unit := do
  let l ← get
  demand (!(l.starts.lookup l.flow).any (·.isRequired))
  set { l with starts := l.starts.filter (·.1 ≠ l.flow) }

/-- Remembers that a key may start here. -/
def saveStart : Reader Unit := do
  if (← get).mayStartKey then
    dropStart
    let here ← place
    modify fun l =>
      let isRequired := l.flow = 0 && l.indent = (here.column : Int)
      { l with starts := (l.flow, ⟨l.tokens.size, isRequired, here⟩) :: l.starts }

/-! ## Indentation -/

/-- Ends the indented collections to the right of a column. -/
def unwind (column : Int) : Reader Unit := modify fun l =>
  if l.flow ≠ 0 then l
  else
    let columns := l.indent :: l.outer
    let ended := columns.takeWhile (column < ·)
    let rest := columns.dropWhile (column < ·)
    { l with
      tokens := ended.foldl (fun ts _ => ts.push .blockEnd) l.tokens
      indent := rest.headD (-1)
      outer := rest.drop 1 }

/-- Starts an indented collection at a column, unless one has started there. -/
def indentTo (column : Int) : Reader Bool := do
  let l ← get
  if l.indent < column then
    set { l with indent := column, outer := l.indent :: l.outer }
    return true
  else return false

/-- Starts an indented collection here, unless one has started at this column. Within brackets
    there are none. -/
def startBlock (t : Token) : Reader Unit := do
  unless ← inFlow do
    demand (← get).mayStartKey
    if ← indentTo (← place).column then put t

/-! ## Tokens -/

/-- Goes behind spaces, comments and line breaks. Behind a line break a key may start. -/
def skipGap : (steps : Nat) → Reader Unit
  | 0 => refuse
  | steps + 1 => do
    let _ ← Scan.takeWhile (· = ' ')
    if (← Scan.peek) = some '#' then let _ ← Scan.takeWhile (!isBreak ·)
    if (← Scan.peek).any isBreak then
      let _ ← Scan.takeBreak
      unless ← inFlow do allowKey true
      skipGap steps

/-- The mark of a document, or a directive. -/
def takeDocumentMark (t : Token) (length : Nat) : Reader Unit := do
  unwind (-1)
  dropStart
  allowKey false
  Scan.skip length
  put t

/-- The start of a bracketed collection. -/
def takeFlowStart (t : Token) : Reader Unit := do
  saveStart
  modify fun l => { l with flow := l.flow + 1, mayStartKey := true }
  Scan.step
  put t

/-- The end of a bracketed collection. -/
def takeFlowEnd (t : Token) : Reader Unit := do
  dropStart
  modify fun l => { l with flow := l.flow - 1, mayStartKey := false }
  Scan.step
  put t

/-- A comma between the items of a bracketed collection. -/
def takeComma : Reader Unit := do
  allowKey true
  dropStart
  Scan.step
  put .flowItem

/-- The dash of an item. -/
def takeDash : Reader Unit := do
  startBlock .blockSequence
  allowKey true
  dropStart
  Scan.step
  put .blockItem

/-- The question mark of a key. -/
def takeKeyMark : Reader Unit := do
  startBlock .blockMapping
  allowKey !(← inFlow)
  dropStart
  Scan.step
  put .key

/-- The colon of a value. If a key has started before, it gets its token now. -/
def takeColon : Reader Unit := do
  let l ← get
  match l.starts.lookup l.flow with
  | some k =>
    set { l with starts := l.starts.filter (·.1 ≠ l.flow), mayStartKey := false }
    putAt k.tokens .key
    if l.flow = 0 then
      if ← indentTo k.source.column then putAt k.tokens .blockMapping
  | none =>
    startBlock .blockMapping
    allowKey !(← inFlow)
    dropStart
  Scan.step
  put .value

/-- A token that a key may start with. -/
def takeKeyed (read : Scan Token) : Reader Unit := do
  saveStart
  allowKey false
  put (← read)

/-- A plain scalar. -/
def takePlain : Reader Unit := do
  saveStart
  let (text, broken) ← Scan.takePlain (← inFlow) ((← get).indent + 1)
  allowKey broken
  put (.scalar text true)

/-- A block scalar. -/
def takeBlock (isFolded : Bool) : Reader Unit := do
  allowKey true
  dropStart
  put (.scalar (← Scan.takeBlock isFolded (← get).indent) false)

/-- The end of the text. -/
def finish : Reader Unit := do
  unwind (-1)
  dropStart
  modify fun l => { l with isDone := true }

/-- Whether a plain scalar starts here. -/
def startsPlain (inFlow : Bool) (s : Source) : Bool :=
  match s.peek 0 with
  | none => false
  | some c =>
    !(isGap (some c) || "-?:,[]\x7b\x7d#&*!|>'\"%@`".toList.contains c) ||
      (!isGap (s.peek 1) && (c = '-' || (!inFlow && (c = '?' || c = ':'))))

/-- Reads what stands at the place, behind all gaps. -/
def takeNext (c : Char) (s : Source) (inFlow : Bool) : Reader Unit := do
  let apart := isGap (s.peek 1)
  if c = '%' && s.column = 0 then
    unwind (-1)
    dropStart
    allowKey false
    put (.directive (← Scan.takeDirective))
  else if c = '-' && s.atDocumentMark then takeDocumentMark .documentStart 3
  else if c = '.' && s.atDocumentMark then takeDocumentMark .documentEnd 3
  else if c = '[' then takeFlowStart .flowSequence
  else if c = '\x7b' then takeFlowStart .flowMapping
  else if c = ']' then takeFlowEnd .flowSequenceEnd
  else if c = '\x7d' then takeFlowEnd .flowMappingEnd
  else if c = ',' then takeComma
  else if c = '-' && apart then takeDash
  else if c = '?' && (inFlow || apart) then takeKeyMark
  else if c = ':' && (inFlow || apart) then takeColon
  else if c = '*' then takeKeyed (return .reference (← Scan.takeAnchor))
  else if c = '&' then takeKeyed (return .anchor (← Scan.takeAnchor))
  else if c = '!' then takeKeyed do
    let (handle, suffix) ← Scan.takeTag
    return .tag handle suffix
  else if c = '|' && !inFlow then takeBlock false
  else if c = '>' && !inFlow then takeBlock true
  else if c = '\'' || c = '"' then takeKeyed (return .scalar (← Scan.takeQuoted c) false)
  else if startsPlain inFlow s then takePlain
  else refuse

/-- Reads one token with the marks that belong to it. -/
def step : Reader Unit := do
  skipGap ((← place).rest.length + 1)
  dropStale
  unwind (← place).column
  let s ← place
  match s.rest with
  | [] => finish
  | c :: _ => takeNext c s (← inFlow)

/-- Reads tokens to the end of the text. Each one has at least one character. -/
def run : (steps : Nat) → Reader Unit
  | 0 => return
  | steps + 1 => do
    step
    unless (← get).isDone do run steps

end Layout

/-- All tokens of a text whose lines end in line feeds. -/
def Token.ofText (cs : List Char) : Except Fault (List Token) := do
  if !cs.all isAllowed then throw .yaml
  let start : Source := { rest := cs }
  let start := if cs.head? = some '\ufeff' then start.next else start
  let ((_, layout), _) ← ((Layout.run (cs.length + 2)).run {}).run start
  return layout.tokens.toList

end StaffAccess.Yaml

import StaffAccess.Yaml.Source

/-!
# Scalars

The texts of scalars, which may go on over several lines. Within plain and quoted scalars a
single line break counts as a space, and one of several is left out. Block scalars keep their
breaks unless they are folded.

* `Scan.takePlain`: a scalar without quotes.
* `Scan.takeQuoted`: a scalar in quotes.
* `Scan.takeBlock`: an indented scalar.
-/

namespace StaffAccess.Yaml

/-- What a line break and the breaks of the empty lines behind it stand for. -/
def folded (first more : List Char) : List Char :=
  if first ≠ ['\n'] then first ++ more else if more.isEmpty then [' '] else more

namespace Scan

/-! ## Plain scalars -/

/-- The characters of a plain scalar up to the next space, break or indicator. -/
def plainChars (inFlow : Bool) : List Char → List Char
  | [] => []
  | c :: rest =>
    let follows := rest.head?
    if isGap (some c) then []
    else if c = ':' &&
        (isGap follows || (inFlow && follows.any ",[]\x7b\x7d".toList.contains)) then []
    else if inFlow && ",?[]\x7b\x7d".toList.contains c then []
    else c :: plainChars inFlow rest

/-- The breaks of empty lines, up to the next character that is no space; nothing if a document
    ends or starts there. -/
def takePlainBreaks : (steps : Nat) → Scan (Option (List Char))
  | 0 => refuse
  | steps + 1 => do
    let _ ← takeWhile (· = ' ')
    if (← peek).any isBreak then
      let first ← takeBreak
      if (← get).atDocumentMark then return none
      else return (← takePlainBreaks steps).map (first ++ ·)
    else return some []

/-- What stands between two parts of a plain scalar, and whether a line ends there. -/
def takePlainGap : Scan (List Char × Bool) := do
  let spaces ← takeWhile (· = ' ')
  if (← peek).any isBreak then
    let first ← takeBreak
    if (← get).atDocumentMark then return ([], true)
    else match ← takePlainBreaks (← bound) with
      | some more => return (folded first more, true)
      | none => return ([], true)
  else return (spaces, false)

/-- The rest of a plain scalar behind some gap, and whether a line ends behind it. Lines to the
    left of `indent` do not belong to it. -/
def takePlainParts (inFlow : Bool) (indent : Int) :
    (steps : Nat) → (gap : List Char) → (broken : Bool) → Scan (List Char × Bool)
  | 0, _, _ => refuse
  | steps + 1, gap, broken => do
    let rest := (← get).rest
    let part := if rest.head? = some '#' then [] else plainChars inFlow rest
    if part.isEmpty then return ([], broken)
    else
      skip part.length
      let (next, broken) ← takePlainGap
      if next.isEmpty || (!inFlow && (← get).column < indent) then return (gap ++ part, broken)
      else
        let (more, broken) ← takePlainParts inFlow indent steps next broken
        return (gap ++ part ++ more, broken)

/-- A scalar without quotes, and whether a line ends behind it. -/
def takePlain (inFlow : Bool) (indent : Int) : Scan (String × Bool) := do
  let (chars, broken) ← takePlainParts inFlow indent (← bound) [] false
  return (String.ofList chars, broken)

/-! ## Quoted scalars -/

/-- The characters that letters behind a backslash stand for. -/
def escapes : List (Char × Char) :=
  [('0', '\x00'), ('a', '\x07'), ('b', '\x08'), ('t', '\t'), ('\t', '\t'), ('n', '\n'),
   ('v', '\x0b'), ('f', '\x0c'), ('r', '\r'), ('e', '\x1b'), (' ', ' '), ('"', '"'),
   ('\\', '\\'), ('/', '/'), ('N', '\u0085'), ('_', '\u00a0'), ('L', '\u2028'),
   ('P', '\u2029')]

/-- The numbers of hexadecimal digits behind the letters of code points. -/
def escapeWidths : List (Char × Nat) := [('x', 2), ('u', 4), ('U', 8)]

/-- The breaks of empty lines within quotes. A document can neither end nor start there. -/
def takeQuotedBreaks : (steps : Nat) → Scan (List Char)
  | 0 => refuse
  | steps + 1 => do
    demand (!(← get).atDocumentMark)
    let _ ← takeWhile fun c => c = ' ' || c = '\t'
    if (← peek).any isBreak then
      let first ← takeBreak
      return first ++ (← takeQuotedBreaks steps)
    else return []

/-- What a backslash and the characters behind it stand for. -/
def takeEscape : Scan (List Char) := do
  step
  match ← peek with
  | none => refuse
  | some c =>
    if isBreak c then
      let _ ← takeBreak
      takeQuotedBreaks (← bound)
    else
      step
      match escapes.lookup c, escapeWidths.lookup c with
      | some e, _ => return [e]
      | none, some width =>
        let digits := (← get).rest.take width
        match Text.hexNumber? 0 digits with
        | some code =>
          demand (digits.length = width)
          skip width
          if 0x110000 ≤ code then throw .badValue
          return [Text.charOfCode code]
        | none => refuse
      | none, none => refuse

/-- The rest of a quoted scalar up to its closing quote. -/
def takeQuotedChars (quote : Char) : (steps : Nat) → Scan (List Char)
  | 0 => refuse
  | steps + 1 => do
    match ← peek with
    | none => refuse
    | some c =>
      if c = quote then
        step
        if quote = '\'' && (← peek) = some '\'' then
          step
          return '\'' :: (← takeQuotedChars quote steps)
        else return []
      else if quote = '"' && c = '\\' then
        let chars ← takeEscape
        return chars ++ (← takeQuotedChars quote steps)
      else if c = ' ' || c = '\t' || isBreak c then
        let blanks ← takeWhile fun c => c = ' ' || c = '\t'
        let first ← takeBreak
        if first.isEmpty then return blanks ++ (← takeQuotedChars quote steps)
        else
          let more ← takeQuotedBreaks (← bound)
          return folded first more ++ (← takeQuotedChars quote steps)
      else
        step
        return c :: (← takeQuotedChars quote steps)

/-- A scalar in quotes. -/
def takeQuoted (quote : Char) : Scan String := do
  step
  return String.ofList (← takeQuotedChars quote (← bound))

/-! ## Block scalars -/

/-- What becomes of the breaks at the end of a block scalar. -/
inductive Chomping
  /-- None is kept. -/
  | strip
  /-- One is kept. -/
  | clip
  /-- All are kept. -/
  | keep
  deriving DecidableEq, Repr

/-- The sign of a block scalar, if there is one. -/
def takeChomping : Scan (Option Chomping) := do
  match ← peek with
  | some '+' => step; return some .keep
  | some '-' => step; return some .strip
  | _ => return none

/-- The indentation that a block scalar is given, if there is one. -/
def takeIncrement : Scan (Option Nat) := do
  match ← peek with
  | some c =>
    if c.isDigit then
      demand (c ≠ '0')
      step
      return some (c.toNat - '0'.toNat)
    else return none
  | none => return none

/-- The sign and the indentation of a block scalar, in either order. -/
def takeBlockHeader : Scan (Chomping × Option Nat) := do
  let before ← takeChomping
  let increment ← takeIncrement
  let after ← if before.isNone && increment.isSome then takeChomping else pure none
  demand (endsWord (← peek))
  endLine
  return ((before.or after).getD .clip, increment)

/-- Goes behind spaces up to a column. -/
def takeIndent (indent : Int) : Scan Unit := do
  let s ← get
  let spaces := (s.rest.takeWhile (· = ' ')).length
  skip (min spaces (indent - s.column).toNat)

/-- The breaks of empty lines, whose spaces are left out up to a column. -/
def takeBlockBreaks (indent : Int) : (steps : Nat) → Scan (List Char)
  | 0 => refuse
  | steps + 1 => do
    takeIndent indent
    if (← peek).any isBreak then
      let first ← takeBreak
      return first ++ (← takeBlockBreaks indent steps)
    else return []

/-- The breaks of empty lines, and the widest column up to the first line that is not empty. -/
def takeLeadingBreaks : (steps : Nat) → Scan (List Char × Nat)
  | 0 => refuse
  | steps + 1 => do
    let _ ← takeWhile (· = ' ')
    let width := (← get).column
    if (← peek).any isBreak then
      let first ← takeBreak
      let (more, widest) ← takeLeadingBreaks steps
      return (first ++ more, max width widest)
    else return ([], width)

/-- The lines of a block scalar behind some breaks. -/
def takeBlockLines (isFolded : Bool) (chomping : Chomping) (indent : Int) :
    (steps : Nat) → (breaks : List Char) → Scan (List Char)
  | 0, _ => refuse
  | steps + 1, breaks => do
    let startsText (c : Option Char) : Bool := c ≠ some ' ' && c ≠ some '\t'
    let flush := startsText (← peek)
    let line ← takeWhile (!isBreak ·)
    let ending ← takeBreak
    let more ← takeBlockBreaks indent (← bound)
    let s ← get
    if s.column = indent && !s.rest.isEmpty then
      let joint :=
        if isFolded && ending = ['\n'] && flush && startsText s.rest.head? then
          if more.isEmpty then [' '] else []
        else ending
      return breaks ++ line ++ joint ++ (← takeBlockLines isFolded chomping indent steps more)
    else
      return breaks ++ line ++ (if chomping = .strip then [] else ending) ++
        (if chomping = .keep then more else [])

/-- An indented scalar within something that is indented to a column. -/
def takeBlock (isFolded : Bool) (outer : Int) : Scan String := do
  step
  let (chomping, increment) ← takeBlockHeader
  let least : Int := max (outer + 1) 1
  let (breaks, indent) ← match increment with
    | some n =>
      let indent := least + n - 1
      pure (← takeBlockBreaks indent (← bound), indent)
    | none =>
      let (breaks, widest) ← takeLeadingBreaks (← bound)
      pure (breaks, max least widest)
  let s ← get
  if s.column = indent && !s.rest.isEmpty then
    return String.ofList (← takeBlockLines isFolded chomping indent (← bound) breaks)
  else return String.ofList (if chomping = .keep then breaks else [])

end Scan

end StaffAccess.Yaml

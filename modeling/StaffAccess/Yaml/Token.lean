import StaffAccess.Yaml.Source

/-!
# Tokens

What a YAML text is made of: the marks of its layout, its indicators, and scalars with their
properties.

* `Token`: one of them.
* `Scan.takeAnchor`, `Scan.takeTag`, `Scan.takeDirective`: the tokens made of words.
-/

namespace StaffAccess.Yaml

/-- A line in front of a document that says how to read it. -/
inductive Directive
  /-- The version of YAML. -/
  | version (major minor : Nat)
  /-- A short form of tags. -/
  | tag (handle start : String)
  /-- Any other. -/
  | other
  deriving Repr

/-- A part of a YAML text. -/
inductive Token
  /-- How to read the document. -/
  | directive (content : Directive)
  /-- A document starts. -/
  | documentStart
  /-- A document ends. -/
  | documentEnd
  /-- An indented sequence starts. -/
  | blockSequence
  /-- An indented mapping starts. -/
  | blockMapping
  /-- An indented collection ends. -/
  | blockEnd
  /-- A bracketed sequence starts. -/
  | flowSequence
  /-- A bracketed sequence ends. -/
  | flowSequenceEnd
  /-- A bracketed mapping starts. -/
  | flowMapping
  /-- A bracketed mapping ends. -/
  | flowMappingEnd
  /-- An item of an indented sequence follows. -/
  | blockItem
  /-- The next item of a bracketed collection follows. -/
  | flowItem
  /-- A key follows. -/
  | key
  /-- A value follows. -/
  | value
  /-- The node of an anchor stands here again. -/
  | reference (name : String)
  /-- The name of the node that follows. -/
  | anchor (name : String)
  /-- The tag of the node that follows, with the handle that stands for its start. -/
  | tag (handle : Option String) (suffix : String)
  /-- A scalar, and whether it stands without quotes. -/
  | scalar (text : String) (isPlain : Bool)
  deriving Repr

namespace Scan

/-! ## Anchors -/

/-- The name of an anchor or a reference, behind its mark. -/
def takeAnchor : Scan String := do
  step
  let name ← takeWhile isWordChar
  demand (!name.isEmpty)
  let follows ← peek
  demand (isGap follows || follows.any "?:,]\x7d%@`".toList.contains)
  return String.ofList name

/-! ## Tags -/

/-- Whether a character may stand in a tag as itself. -/
def isTagChar (c : Char) : Bool :=
  c.isAlphanum || "-;/?:@&=+$,_.!~*'()[]".toList.contains c

/-- The octets that are written with percent signs. -/
def takeOctets : (steps : Nat) → Scan Text.Octets
  | 0 => refuse
  | steps + 1 => do
    if (← peek) = some '%' then
      match ← peekAt 1, ← peekAt 2 with
      | some a, some b =>
        match Text.hexNumber? 0 [a, b] with
        | some n =>
          skip 3
          return UInt8.ofNat n :: (← takeOctets steps)
        | none => refuse
      | _, _ => refuse
    else return []

/-- The characters of a tag. -/
def takeTagChars : (steps : Nat) → Scan (List Char)
  | 0 => refuse
  | steps + 1 => do
    let cs ← takeWhile isTagChar
    if (← peek) = some '%' then
      match Text.decodeUtf8? (← takeOctets (← bound)) with
      | some more => return cs ++ more.toList ++ (← takeTagChars steps)
      | none => refuse
    else return cs

/-- The text of a tag or of its start, of at least one character. -/
def takeTagText : Scan String := do
  let cs ← takeTagChars (← bound)
  demand (!cs.isEmpty)
  return String.ofList cs

/-- A handle: a word between exclamation marks, or one mark alone in front of a space. -/
def takeHandle : Scan String := do
  demand ((← peek) = some '!')
  step
  if (← peek) = some ' ' then return "!"
  else
    let word ← takeWhile isWordChar
    if (← peek) = some '!' then
      step
      return String.ofList ('!' :: word ++ ['!'])
    else refuse

/-- A tag: its handle, if it has one, and the rest. -/
def takeTag : Scan (Option String × String) := do
  let tag ← match ← peekAt 1 with
    | some '<' =>
      skip 2
      let text ← takeTagText
      demand ((← peek) = some '>')
      step
      pure (none, text)
    | follows =>
      if isGap follows then
        step
        pure (none, "!")
      else
        let word := ((← get).rest.drop 1).takeWhile fun c => !endsWord (some c)
        if word.contains '!' then
          let handle ← takeHandle
          pure (some handle, ← takeTagText)
        else
          step
          pure (some "!", ← takeTagText)
  demand (endsWord (← peek))
  return tag

/-! ## Directives -/

/-- A number of a version. -/
def takeNumber : Scan Nat := do
  let digits ← takeWhile Char.isDigit
  demand (!digits.isEmpty)
  return Text.natOfDigits digits

/-- A directive, to the end of its line. -/
def takeDirective : Scan Directive := do
  step
  let name ← takeWhile isWordChar
  demand (!name.isEmpty && endsWord (← peek))
  let directive ← match String.ofList name with
    | "YAML" =>
      let _ ← takeWhile (· = ' ')
      let major ← takeNumber
      demand ((← peek) = some '.')
      step
      let minor ← takeNumber
      demand (endsWord (← peek))
      pure (Directive.version major minor)
    | "TAG" =>
      let _ ← takeWhile (· = ' ')
      let handle ← takeHandle
      demand ((← peek) = some ' ')
      let _ ← takeWhile (· = ' ')
      let start ← takeTagText
      demand (endsWord (← peek))
      pure (Directive.tag handle start)
    | _ =>
      let _ ← takeWhile (!isBreak ·)
      pure Directive.other
  endLine
  return directive

end Scan

end StaffAccess.Yaml

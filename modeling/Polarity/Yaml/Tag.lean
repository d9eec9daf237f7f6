import Polarity.Yaml.Place
import Polarity.Text.Utf8

/-!
# Names, tags and directives

An anchor or an alias has a name. A tag says what kind of value a node is, in full
or after a handle that stands for its beginning, which a directive may define.

* `name`: the name of an anchor or an alias;
* `tag`: a handle and what follows it;
* `directive`: what a directive says.
-/

namespace Polarity.Yaml

/-- What a document says about itself before it begins. -/
inductive Directive where
  /-- The version it is written in. -/
  | version (major minor : Nat)
  /-- What a handle stands for. -/
  | handle (handle beginning : Text)
  deriving DecidableEq, Repr

/-- Characters as a text. -/
def textOf (cs : List Char) : Text := cs.flatMap Text.ofChar

/-- Whether a character may stand in a name. -/
def isNameChar (c : Char) : Bool := c.isAlphanum || c == '_' || c == '-'

/-- Whether a name ends before these characters. -/
def endsName (cs : List Char) : Bool :=
  endsWord cs ||
    cs.head?.any fun c =>
      c == '?' || c == ':' || c == ',' || c == ']' || c == '}' || c == '%' || c == '@' ||
        c == Char.ofNat 0x60

/-- Reads a name after its sign. -/
def name : Scan Text := do
  Scan.pass
  let name ← Scan.takeWhile isNameChar
  if name.isEmpty || !endsName (← Scan.following) then failure
  return textOf name

/-- Whether a character may stand in a tag. -/
def isTagChar (c : Char) : Bool := isNameChar c || ";/?:@&=+$.,!~*'()[]".toList.contains c

/-- Reads a byte that is written as a percent sign and two hexadecimal digits. -/
def codedByte : Scan UInt8 := do
  Scan.ask 3
  match ← Scan.following with
  | '%' :: a :: b :: _ =>
    match hexValue? a, hexValue? b with
    | some high, some low =>
      Scan.passMany 3
      return (high * 16 + low).toUInt8
    | _, _ => failure
  | _ => failure

/-- Reads coded bytes that continue a character. -/
def codedRest : Nat → Scan Text
  | 0 => return []
  | n + 1 => do
    let b ← codedByte
    if !Piece.isLater b then failure
    return b :: (← codedRest n)

/-- Reads the coded bytes of one character, whose number the first one tells. -/
def codedChar : Scan Text := do
  let b ← codedByte
  match Encoding.size? b with
  | none => failure
  | some size => return b :: (← codedRest (size - 1))

/-- Reads the characters of a tag as far as they go. -/
def tagChars : (fuel : Nat) → Scan Text
  | 0 => failure
  | fuel + 1 => do
    let plain := textOf (← Scan.takeWhile isTagChar)
    if (← Scan.following).head? == some '%' then
      let coded ← codedChar
      return plain ++ coded ++ (← tagChars fuel)
    else return plain

/-- Reads the characters of a tag. -/
def tagText : Scan Text := do
  let word := (← Scan.following).takeWhile fun c => isTagChar c || c == '%'
  tagChars (word.length + 1)

/-- Reads the handle at the beginning of a tag: a word between exclamation marks,
or only the first one and the word. -/
def tagHandle : Scan Text := do
  Scan.ask 1
  Scan.pass
  let word := textOf (← Scan.takeWhile isNameChar)
  if (← Scan.following).head? == some '!' then
    Scan.pass
    return "!" ++ word ++ "!"
  else return "!" ++ word

/-- Whether a handle ends in an exclamation mark of its own. -/
def isClosedHandle (handle : Text) : Bool :=
  1 < handle.length && handle.getLast? == some (Text.byte '!')

/-- Reads a tag: in full between angle brackets, after a handle, or short. -/
def writtenTag : Scan (Text × Text) := do
  Scan.ask 2
  if ((← Scan.following).drop 1).head? == some '<' then
    Scan.passMany 2
    let suffix ← tagText
    if suffix.isEmpty || (← Scan.following).head? != some '>' then failure
    Scan.pass
    return ([], suffix)
  else
    let handle ← tagHandle
    let suffix ← tagText
    if isClosedHandle handle then
      if suffix.isEmpty then failure
      return (handle, suffix)
    else
      let suffix := handle.drop 1 ++ suffix
      return if suffix.isEmpty then ([], "!") else ("!", suffix)

/-- Reads a tag, after which its word must end. -/
def tag : Scan (Text × Text) := do
  let t ← writtenTag
  Scan.ask 1
  if !endsWord (← Scan.following) then failure
  return t

/-- Reads a number of at most two digits in a directive. -/
def versionNumber : Scan Nat := do
  let digits ← Scan.takeWhile Char.isDigit
  if digits.isEmpty || 2 < digits.length then failure
  return digits.foldl (fun n d => n * 10 + (d.toNat - 0x30)) 0

/-- Reads what a version is. -/
def version : Scan Directive := do
  let _ ← Scan.takeWhile isSpacing
  let major ← versionNumber
  if (← Scan.following).head? != some '.' then failure
  Scan.pass
  return .version major (← versionNumber)

/-- Reads what a handle stands for. -/
def handleMeaning : Scan Directive := do
  let _ ← Scan.takeWhile isSpacing
  if (← Scan.following).head? != some '!' then failure
  let handle ← tagHandle
  if 1 < handle.length && !isClosedHandle handle then failure
  Scan.ask 1
  if !(← Scan.following).head?.any isSpacing then failure
  let _ ← Scan.takeWhile isSpacing
  let beginning ← tagText
  Scan.ask 1
  if beginning.isEmpty || !endsWord (← Scan.following) then failure
  return .handle handle beginning

/-- Reads a directive to the end of its line. -/
def directive : Scan Directive := do
  Scan.pass
  let word ← Scan.takeWhile isNameChar
  if !endsWord (← Scan.following) then failure
  let d ←
    if word = "YAML".toList then version
    else if word = "TAG".toList then handleMeaning
    else failure
  Scan.endLine
  return d

end Polarity.Yaml

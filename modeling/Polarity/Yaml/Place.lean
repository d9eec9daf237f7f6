import Polarity.Yaml.Encoding

/-!
# Places in a YAML text

Where a reader is in a text, and how much of the text it has taken. Readers say
beforehand how many characters they are going to look at.

* `Place.ask`: makes sure that some characters are at hand;
* `Scan`: reading characters one after another.
-/

namespace Polarity.Yaml

/-- Whether a character is a space or a tab. -/
def isSpacing (c : Char) : Bool := c == ' ' || c == '\t'

/-- Whether a character ends a line. -/
def endsLine (c : Char) : Bool :=
  c == '\n' || c == '\r' || c == '\u0085' || c == '\u2028' || c == '\u2029'

/-- The end of a line as a part of content. -/
def lineChar (c : Char) : Char := if c == '\u2028' || c == '\u2029' then c else '\n'

/-- The characters that the end of a line is written with. -/
def lineEndSize (c : Char) : Nat := if c == '\r' then 2 else 1

/-- The value of a hexadecimal digit. -/
def hexValue? (c : Char) : Option Nat :=
  if c.isDigit then some (c.toNat - 0x30)
  else if 'a' ≤ c && c ≤ 'f' then some (c.toNat - 0x61 + 10)
  else if 'A' ≤ c && c ≤ 'F' then some (c.toNat - 0x41 + 10)
  else none

/-- Whether a word ends before these characters. -/
def endsWord : List Char → Bool
  | [] => true
  | c :: _ => isSpacing c || endsLine c

/-- Whether a document begins or ends at the beginning of this line. -/
def isDocumentMark : List Char → Bool
  | '-' :: '-' :: '-' :: rest => endsWord rest
  | '.' :: '.' :: '.' :: rest => endsWord rest
  | _ => false

/-- A place in a text, and what has been taken of the text. -/
structure Place where
  /-- The characters before it. -/
  passed : Nat := 0
  /-- The line, counted from one. -/
  line : Nat := 1
  /-- The characters before it on its line. -/
  column : Nat := 0
  /-- The lines that have ended since the last character that is not a blank. -/
  newlines : Nat := 0
  /-- The characters that have been taken; the end counts as one each time it is
  asked for. -/
  loaded : Nat := 0
  /-- What is to be taken yet. -/
  portions : List (Option Nat) := []
  /-- Whether a byte order mark was next when something was taken last. -/
  atMark : Bool := false

namespace Place

/-- Takes portions until a number of characters is at hand. -/
def fill : (portions : List (Option Nat)) → (loaded wanted : Nat) →
    Option (Nat × List (Option Nat))
  | [], loaded, _ => some (loaded + 1, [])
  | none :: _, _, _ => none
  | some n :: rest, loaded, wanted =>
    if wanted ≤ loaded + n then some (loaded + n, rest) else fill rest (loaded + n) wanted

/-- Makes sure that `n` characters are at hand, where these characters follow. -/
def ask (p : Place) (n : Nat) (following : List Char) : Option Place :=
  if p.passed + n ≤ p.loaded then some p
  else
    (fill p.portions p.loaded (p.passed + n)).map fun (loaded, portions) =>
      { p with loaded, portions, atMark := following.head? == some byteOrderMark }

/-- The place after a character that ends no line. -/
def pass (p : Place) (c : Char) : Place :=
  { p with
    passed := p.passed + 1
    column := p.column + 1
    newlines := if isSpacing c then p.newlines else 0 }

/-- The place after the end of a line. -/
def passLine (p : Place) (c : Char) : Place :=
  { p with
    passed := p.passed + lineEndSize c
    line := p.line + 1
    column := 0
    newlines := p.newlines + 1 }

/-- The place after a character or the end of a line, with the next character at hand. -/
def passOver (p : Place) (c : Char) (rest : List Char) : Option Place :=
  if endsLine c then do
    let p ← p.ask 2 (c :: rest)
    (p.passLine c).ask 1 rest
  else (p.pass c).ask 1 rest

end Place

/-- A place in a text and the characters that follow. -/
structure Cursor where
  place : Place
  rest : List Char

/-- The beginning of a text. -/
def Cursor.start (t : Text) : Cursor :=
  let s := Supply.of t
  ⟨{ portions := s.portions }, s.chars⟩

/-- Reading characters; `none` where a text cannot be read. -/
abbrev Scan := StateT Cursor Option

namespace Scan

/-- The characters that follow. -/
def following : Scan (List Char) := fun c => some (c.rest, c)

/-- The place. -/
def place : Scan Place := fun c => some (c.place, c)

/-- Makes sure that `n` characters are at hand. -/
def ask (n : Nat) : Scan Unit := fun c =>
  (c.place.ask n c.rest).map fun place => ((), { c with place })

/-- Passes over a character; the end counts as one. -/
def pass : Scan Unit := fun c =>
  match c.rest with
  | [] => some ((), { c with place := c.place.pass '\x00' })
  | d :: rest => some ((), ⟨c.place.pass d, rest⟩)

/-- Passes over a number of characters. -/
def passMany : Nat → Scan Unit
  | 0 => pure ()
  | n + 1 => do
    pass
    passMany n

/-- Passes over the end of a line. -/
def passLine : Scan Unit := fun c =>
  match c.rest with
  | [] => some ((), c)
  | d :: rest => some ((), ⟨c.place.passLine d, rest⟩)

/-- Characters that meet a condition, from a place on. -/
def whileFrom (holds : Char → Bool) : Place → List Char → Option (List Char × Cursor)
  | p, [] => some ([], ⟨p, []⟩)
  | p, c :: rest =>
    if holds c then do
      let p ← (p.pass c).ask 1 rest
      let (taken, cursor) ← whileFrom holds p rest
      return (c :: taken, cursor)
    else some ([], ⟨p, c :: rest⟩)

/-- Reads characters as long as they meet a condition. -/
def takeWhile (holds : Char → Bool) : Scan (List Char) := do
  ask 1
  fun c => whileFrom holds c.place c.rest

/-- Passes over blanks and a comment to the end of a line. -/
def endLine : Scan Unit := do
  let _ ← takeWhile isSpacing
  if (← following).head? == some '#' then
    let _ ← takeWhile (!endsLine ·)
  match (← following).head? with
  | none => pure ()
  | some c =>
    if endsLine c then
      ask 2
      passLine
    else failure

end Scan

end Polarity.Yaml

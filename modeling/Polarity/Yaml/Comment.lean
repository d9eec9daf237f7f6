import Polarity.Yaml.Place

/-!
# Blanks and comments

What stands between symbols. Comments on lines of their own are passed over
together, and a comment may follow a symbol on its line.

* `skipBlanks`: everything up to the next symbol;
* `lineComment`: a comment after a symbol.
-/

namespace Polarity.Yaml

/-- How many characters are looked at in search of a comment. -/
def sight : Nat := 512

/-- Looks over blanks and ends of lines for a comment: how many characters that
takes, after some that have been looked at, and whether there is one. Only line
feeds are looked over, with or without a carriage return. -/
def commentAhead : (seen : Nat) → List Char → Nat × Bool
  | seen, [] => (min (seen + 1) sight, false)
  | seen, c :: rest =>
    if sight ≤ seen then (sight, false)
    else if c == '\r' then commentAhead (seen + 2) rest
    else if c == '\n' || isSpacing c then commentAhead (seen + 1) rest
    else if endsLine c then (min (seen + 2) sight, false)
    else (seen + 1, c == '#')

/-- Where a reader is between symbols. -/
inductive Between where
  /-- At the beginning, or at the beginning of a line. -/
  | lineStart
  /-- Among blanks. -/
  | blanks
  /-- In a comment. -/
  | comment
  /-- Between two comments. -/
  | comments
  deriving DecidableEq, Repr

/-- Passes over blanks and comments from a place on, and says whether a key may
begin afterwards. The end of a line allows one outside of brackets; tabs do not
count where a key may begin. At the beginning of a line one character is left out
as long as a byte order mark came first of what was taken last. -/
def skipBlanksFrom (flow : Bool) :
    Between → (keyAllowed : Bool) → Place → List Char → Option (Bool × Cursor)
  | b, keyAllowed, p, [] => do
    let p ←
      match b with
      | .comment => p.ask 2 []
      | .lineStart => if p.column == 0 && p.atMark then (p.pass '\x00').ask 1 [] else some p
      | _ => some p
    return (keyAllowed, ⟨p, []⟩)
  | .comment, keyAllowed, p, c :: rest =>
    if endsLine c then do
      let (wanted, found) := commentAhead 0 (c :: rest)
      let p ← p.ask wanted (c :: rest)
      let p ← p.passOver c rest
      if found then skipBlanksFrom flow .comments keyAllowed p rest
      else skipBlanksFrom flow .lineStart (keyAllowed || !flow) p rest
    else do
      let p ← p.passOver c rest
      skipBlanksFrom flow .comment keyAllowed p rest
  | .comments, keyAllowed, p, c :: rest => do
    let p ← p.passOver c rest
    skipBlanksFrom flow (if c == '#' then .comment else .comments) keyAllowed p rest
  | b, keyAllowed, p, c :: rest =>
    if b = .lineStart && p.column == 0 && p.atMark then do
      let p ← (p.pass c).ask 1 rest
      if c == '\r' then
        let p ← p.passOver '\n' rest
        skipBlanksFrom flow .lineStart (keyAllowed || !flow) p rest
      else skipBlanksFrom flow .blanks keyAllowed p rest
    else if endsLine c then do
      let p ← p.passOver c rest
      skipBlanksFrom flow .lineStart (keyAllowed || !flow) p rest
    else if c == '#' then do
      let p ← p.passOver c rest
      skipBlanksFrom flow .comment keyAllowed p rest
    else if c == ' ' || (c == '\t' && (flow || !keyAllowed)) then do
      let p ← p.passOver c rest
      skipBlanksFrom flow .blanks keyAllowed p rest
    else some (keyAllowed, ⟨p, c :: rest⟩)

/-- Passes over blanks and comments up to the next symbol, and says whether a key
may begin there. -/
def skipBlanks (flow keyAllowed : Bool) : Scan Bool := do
  Scan.ask 1
  fun c => skipBlanksFrom flow .lineStart keyAllowed c.place c.rest

/-- Passes over a comment on the same line, if there is one. -/
def lineComment : Scan Unit := do
  if (← Scan.place).newlines = 0 then
    let cs ← Scan.following
    let blanks := ((cs.take sight).takeWhile isSpacing).length
    Scan.ask (min (blanks + 1) sight)
    if blanks < sight && (cs.drop blanks).head? == some '#' then
      let _ ← Scan.takeWhile (!endsLine ·)

end Polarity.Yaml

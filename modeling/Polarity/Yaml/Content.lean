import Polarity.Yaml.Place

/-!
# The content of scalars

Scalars are written plainly, between quotes, or as a block of lines. Each reader
begins at the first character of the scalar and gives the content, without the
signs around it.

* `plain`: words, folded over lines, up to something else;
* `singleQuoted`, `doubleQuoted`: up to the closing quote;
* `block`: the lines that are indented enough.
-/

namespace Polarity.Yaml

/-- The characters with which no plain scalar begins. -/
def leadingIndicators : List Char :=
  ['#', ',', '[', ']', '\x7b', '\x7d', '&', '*', '!', '|', '>', '\'', '"', '%', '@', Char.ofNat 0x60]

/-- What stands between two words: blanks, or the ends of lines. -/
inductive Gap where
  /-- Blanks, the last one first. -/
  | blanks (reversed : List Char)
  /-- The end of a line, unless it is escaped, and of the empty lines after it,
  the last one first. -/
  | lines (first : Option Char) (reversed : List Char)

namespace Gap

/-- Nothing between two characters. -/
def none : Gap := .blanks []

/-- Whether nothing stands there. -/
def isNone : Gap → Bool
  | .blanks [] => true
  | _ => false

/-- Whether a line ends there. -/
def isBroken : Gap → Bool
  | .lines .. => true
  | .blanks _ => false

/-- The gap with one more blank or end of a line. Blanks beside the end of a line
do not count. -/
def add (g : Gap) (c : Char) : Gap :=
  match g with
  | .blanks reversed => if endsLine c then .lines (some (lineChar c)) [] else .blanks (c :: reversed)
  | .lines first reversed => if endsLine c then .lines first (lineChar c :: reversed) else g

/-- What a gap means: blanks themselves, a space for the end of one line, and
only the further ends of lines for several. -/
def meaning : Gap → List Char
  | .blanks reversed => reversed.reverse
  | .lines (some '\n') [] => [' ']
  | .lines (some '\n') reversed => reversed.reverse
  | .lines first reversed => first.toList ++ reversed.reverse

/-- Content, the last character first, with a gap after it. -/
def after (g : Gap) (content : List Char) : List Char := g.meaning.reverse ++ content

end Gap

/-! ### Plain scalars -/

/-- What a plain scalar is, whether a line ends after it, and what follows. -/
structure PlainContent where
  content : List Char
  broken : Bool
  cursor : Cursor

/-- Whether a plain scalar ends before these characters, wherever they stand. -/
def endsPlain (flow : Bool) : List Char → Bool
  | [] => true
  | ':' :: rest => endsWord rest
  | c :: _ => flow && (c == ',' || c == '?' || c == '[' || c == ']' || c == '{' || c == '}')

/-- Reads on after some content and a gap. A line that is not indented enough ends
the scalar, and so does a comment. -/
def plainFrom (flow : Bool) (indent : Nat) :
    Place → Gap → (content : List Char) → List Char → Option PlainContent
  | p, gap, content, [] => do
    let p ← if gap.isNone || (!flow && p.column < indent) then some p else p.ask 4 []
    return ⟨content.reverse, gap.isBroken, ⟨p, []⟩⟩
  | p, gap, content, c :: rest =>
    let ended (p : Place) : PlainContent := ⟨content.reverse, gap.isBroken, ⟨p, c :: rest⟩⟩
    if isSpacing c then
      if c == '\t' && gap.isBroken && p.column < indent then Option.none
      else do
        let p ← (p.pass c).ask 1 rest
        plainFrom flow indent p (gap.add c) content rest
    else if endsLine c then do
      let p ← p.ask 2 (c :: rest)
      let p ← (p.passLine c).ask 1 rest
      plainFrom flow indent p (gap.add c) content rest
    else if gap.isNone then
      if endsPlain flow (c :: rest) then some (ended p)
      else do
        let p ← (p.pass c).ask 2 rest
        plainFrom flow indent p .none (c :: content) rest
    else if !flow && p.column < indent then some (ended p)
    else do
      let p ← p.ask 4 (c :: rest)
      if c == '#' || (p.column == 0 && isDocumentMark (c :: rest)) || endsPlain flow (c :: rest) then
        return ended p
      else
        let p ← (p.pass c).ask 2 rest
        plainFrom flow indent p .none (c :: gap.after content) rest

/-- Reads a plain scalar, and says whether a line ends after it. -/
def plain (flow : Bool) (indent : Nat) : Scan (List Char × Bool) := do
  Scan.ask 4
  fun c => (plainFrom flow indent c.place .none [] c.rest).map fun p => ((p.content, p.broken), p.cursor)

/-! ### Quoted scalars -/

/-- What is read between quotes, and what follows it. -/
abbrev QuotedContent := Option (List Char × Cursor)

/-- Makes sure that no document begins or ends here, after a gap between quotes. -/
def staysInside (p : Place) (gap : Gap) (following : List Char) : Option Place :=
  if gap.isNone then some p
  else do
    let p ← p.ask 4 following
    if p.column == 0 && isDocumentMark following then Option.none else some p

/-- Reads on between single quotes, after some content and a gap. -/
def singleQuotedFrom : Place → Gap → (content : List Char) → List Char → QuotedContent
  | _, _, _, [] => none
  | p, gap, content, c :: rest =>
    if isSpacing c || endsLine c then do
      let p ← p.passOver c rest
      singleQuotedFrom p (gap.add c) content rest
    else do
      let p ← staysInside p gap (c :: rest)
      if c == '\'' then
        match rest with
        | '\'' :: rest =>
          let p ← ((p.pass c).pass c).ask 2 rest
          singleQuotedFrom p .none ('\'' :: gap.after content) rest
        | rest => return ((gap.after content).reverse, ⟨p.pass c, rest⟩)
      else
        let p ← (p.pass c).ask 2 rest
        singleQuotedFrom p .none (c :: gap.after content) rest

/-- Reads what stands between single quotes. A quote inside is written twice. -/
def singleQuoted : Scan (List Char) := do
  Scan.pass
  Scan.ask 4
  fun c => singleQuotedFrom c.place .none [] c.rest

/-- The character that a letter after a backslash stands for. -/
def escaped? (c : Char) : Option Char :=
  match c with
  | '0' => some '\x00'
  | 'a' => some '\x07'
  | 'b' => some '\x08'
  | 't' => some '\t'
  | '\t' => some '\t'
  | 'n' => some '\n'
  | 'v' => some '\x0B'
  | 'f' => some '\x0C'
  | 'r' => some '\r'
  | 'e' => some '\x1B'
  | ' ' => some ' '
  | '"' => some '"'
  | '\'' => some '\''
  | '\\' => some '\\'
  | 'N' => some '\u0085'
  | '_' => some '\u00A0'
  | 'L' => some '\u2028'
  | 'P' => some '\u2029'
  | _ => none

/-- How many hexadecimal digits follow a letter after a backslash. -/
def codeLength? (c : Char) : Option Nat :=
  match c with
  | 'x' => some 2
  | 'u' => some 4
  | 'U' => some 8
  | _ => none

/-- The character of a code, if it has one. -/
def charOfCode? (n : Nat) : Option Char := if n.isValidChar then some (Char.ofNat n) else none

/-- Where a reader is between double quotes. -/
inductive Escape where
  /-- In the open. -/
  | no
  /-- After a backslash. -/
  | begun
  /-- In a code, of which some digits are missing. -/
  | code (missing value : Nat)

/-- Reads on between double quotes, after some content and a gap. -/
def doubleQuotedFrom : Escape → Place → Gap → (content : List Char) → List Char → QuotedContent
  | _, _, _, _, [] => none
  | .no, p, gap, content, c :: rest =>
    if isSpacing c || endsLine c then do
      let p ← p.passOver c rest
      doubleQuotedFrom .no p (gap.add c) content rest
    else do
      let p ← staysInside p gap (c :: rest)
      if c == '"' then return ((gap.after content).reverse, ⟨p.pass c, rest⟩)
      else if c == '\\' then doubleQuotedFrom .begun (p.pass c) .none (gap.after content) rest
      else
        let p ← (p.pass c).ask 2 rest
        doubleQuotedFrom .no p .none (c :: gap.after content) rest
  | .begun, p, _, content, c :: rest =>
    if endsLine c then do
      let p ← p.passOver c rest
      doubleQuotedFrom .no p (.lines none []) content rest
    else
      match escaped? c, codeLength? c with
      | some d, _ => do
        let p ← (p.pass c).ask 2 rest
        doubleQuotedFrom .no p .none (d :: content) rest
      | none, some length => do
        let p ← (p.pass c).ask length rest
        doubleQuotedFrom (.code length 0) p .none content rest
      | none, none => none
  | .code missing value, p, _, content, c :: rest =>
    match hexValue? c with
    | none => none
    | some d =>
      let value := value * 16 + d
      if missing ≤ 1 then
        match charOfCode? value with
        | some e => do
          let p ← (p.pass c).ask 2 rest
          doubleQuotedFrom .no p .none (e :: content) rest
        | none => none
      else doubleQuotedFrom (.code (missing - 1) value) (p.pass c) .none content rest

/-- Reads what stands between double quotes. -/
def doubleQuoted : Scan (List Char) := do
  Scan.pass
  Scan.ask 4
  fun c => doubleQuotedFrom .no c.place .none [] c.rest

/-! ### Blocks -/

/-- What becomes of the ends of lines after the last line of a block. -/
inductive Chomping where
  /-- All are left out. -/
  | strip
  /-- One is kept. -/
  | clip
  /-- All are kept. -/
  | keep
  deriving DecidableEq, Repr

/-- What stands on the first line of a block: how it ends, and how much further
its lines are indented, if that is said. -/
structure BlockHeader where
  chomping : Chomping := .clip
  increment : Option Nat := none

/-- The way of ending that a sign asks for. -/
def chompingOf? (c : Char) : Option Chomping :=
  if c == '-' then some .strip else if c == '+' then some .keep else none

/-- Reads the sign for the way a block ends, if there is one. -/
def chompingSign : Scan (Option Chomping) := do
  Scan.ask 1
  match (← Scan.following).head?.bind chompingOf? with
  | none => return none
  | some chomping =>
    Scan.pass
    return some chomping

/-- Reads how much further a block is indented, if that is said. Zero is refused. -/
def incrementSign : Scan (Option Nat) := do
  Scan.ask 1
  match (← Scan.following).head? with
  | none => return none
  | some c =>
    if c == '0' then failure
    else if c.isDigit then
      Scan.pass
      return some (c.toNat - 0x30)
    else return none

/-- Reads the signs of a block, in either order. -/
def blockSigns : Scan BlockHeader := do
  match ← chompingSign with
  | some chomping => return ⟨chomping, ← incrementSign⟩
  | none =>
    match ← incrementSign with
    | none => return {}
    | some increment => return ⟨(← chompingSign).getD .clip, some increment⟩

/-- Where the next line of a block may begin: after these ends of lines. -/
structure BlockMargin where
  widest : Nat
  breaks : List Char
  cursor : Cursor

/-- Passes over indentation and empty lines. No tab may stand in an indentation. -/
def blockMarginFrom (indent : Option Nat) :
    Place → (widest : Nat) → (breaks : List Char) → List Char → Option BlockMargin
  | p, widest, breaks, [] => some ⟨max widest p.column, breaks.reverse, ⟨p, []⟩⟩
  | p, widest, breaks, c :: rest =>
    let inside := indent.all (p.column < ·)
    if c == ' ' && inside then do
      let p ← (p.pass c).ask 1 rest
      blockMarginFrom indent p widest breaks rest
    else if c == '\t' && inside then none
    else if endsLine c then do
      let p' ← p.ask 2 (c :: rest)
      let p' ← (p'.passLine c).ask 1 rest
      blockMarginFrom indent p' (max widest p.column) (lineChar c :: breaks) rest
    else some ⟨max widest p.column, breaks.reverse, ⟨p, c :: rest⟩⟩

/-- Passes over indentation and empty lines. -/
def blockMargin (indent : Option Nat) (c : Cursor) : Option BlockMargin := do
  let p ← c.place.ask 1 c.rest
  blockMarginFrom indent p 0 [] c.rest

/-- The content of a block so far, the last character first, and the end of its
last line. -/
structure BlockContent where
  reversed : List Char := []
  lastBreak : Option Char := none
  afterBlank : Bool := false

/-- Adds a line after some empty ones. Between lines that are folded stands a
space instead of the end of a line, unless one of them begins with a blank. -/
def BlockContent.add (b : BlockContent) (literal : Bool) (breaks line : List Char)
    (lastBreak : Option Char) : BlockContent :=
  let blank := line.head?.any isSpacing
  let link : List Char :=
    if !literal && !b.afterBlank && !blank && b.lastBreak == some '\n' then
      if breaks.isEmpty then [' '] else []
    else b.lastBreak.toList
  ⟨line.reverse ++ (breaks.reverse ++ (link ++ b.reversed)), lastBreak, blank⟩

/-- Reads the lines of a block that begin at a column. -/
def blockLines (literal : Bool) (indent : Nat) :
    (fuel : Nat) → BlockContent → BlockMargin → Option (BlockContent × BlockMargin)
  | 0, b, m => some (b, m)
  | fuel + 1, b, m =>
    if m.cursor.place.column == indent && !m.cursor.rest.isEmpty then do
      let (line, cursor) ← Scan.whileFrom (!endsLine ·) m.cursor.place m.cursor.rest
      let (_, ended) ← (do Scan.ask 2; Scan.passLine : Scan Unit).run cursor
      let next ← blockMargin (some indent) ended
      blockLines literal indent fuel
        (b.add literal m.breaks line (cursor.rest.head?.map lineChar)) next
    else some (b, m)

/-- Reads a block of lines, from its sign on, inside a block of the given
indentation. -/
def block (literal : Bool) (outer : Option Nat) : Scan (List Char) := do
  Scan.pass
  let header ← blockSigns
  Scan.endLine
  fun cursor => do
    let given := header.increment.map (outer.getD 0 + ·)
    let margin ← blockMargin given cursor
    let least := (outer.map (· + 1)).getD 0
    let indent := given.getD (max (max margin.widest least) 1)
    let (b, margin) ← blockLines literal indent (cursor.rest.length + 1) {} margin
    let ending : List Char :=
      match header.chomping with
      | .strip => []
      | .clip => b.lastBreak.toList
      | .keep => b.lastBreak.toList ++ margin.breaks
    return (b.reversed.reverse ++ ending, margin.cursor)

end Polarity.Yaml

import Polarity.Yaml.Comment
import Polarity.Yaml.Content
import Polarity.Yaml.Tag

/-!
# The symbols of a YAML text

Indicators, scalars, and the beginnings and ends of blocks that indentation
implies. That a mapping key begins is only known once its colon is seen, so the
reader remembers where one may have begun and puts the symbol there later. Symbols
are read as they are asked for, but always three of them and as many more as it
takes to know whether the first one is a key.

* `SymbolReader.peek`: the next symbol;
* `SymbolReader.skip`: passes over it.
-/

namespace Polarity.Yaml

/-- A symbol of a text. -/
inductive Symbol where
  | streamStart
  | streamEnd
  | documentStart
  | documentEnd
  | directive (d : Directive)
  | blockSequence
  | blockMapping
  | blockEnd
  | flowSequence
  | flowSequenceEnd
  | flowMapping
  | flowMappingEnd
  /-- The dash before an item of a sequence. -/
  | item
  | comma
  | key
  | value
  | alias (name : Text)
  | anchor (name : Text)
  | tag (handle suffix : Text)
  | scalar (plain : Bool) (content : Text)
  deriving DecidableEq, Repr

/-- A symbol and the line it begins on, counted from one. -/
structure PlacedSymbol where
  symbol : Symbol
  line : Nat
  deriving DecidableEq, Repr

/-- Where a key may have begun. -/
structure KeyPlace where
  /-- Whether nothing but a key can stand there. -/
  required : Bool
  passed : Nat
  line : Nat
  column : Nat

/-- Whether the colon of a key may stand at a place: on the line of the key, and
not too far away. -/
def KeyPlace.reaches (k : KeyPlace) (p : Place) : Bool :=
  p.line ≤ k.line && p.passed ≤ k.passed + 1024

/-- What is open: a bracket, or outermost the text itself. -/
structure Level where
  /-- How many brackets are open. -/
  depth : Nat := 0
  /-- Where a key may have begun. -/
  key : Option KeyPlace := none
  /-- The number of the symbol that such a key began with last, or of the bracket. -/
  number : Nat := 0

/-- How far a text has been read. -/
structure SymbolReader where
  cursor : Cursor
  /-- No symbol needs more steps than this to be read. -/
  size : Nat
  started : Bool := false
  /-- The symbols that have been read and not been passed over. -/
  queue : List PlacedSymbol := []
  /-- How many symbols have been passed over. -/
  given : Nat := 0
  /-- Whether it is known what the first symbol of the queue is. -/
  ready : Bool := false
  /-- Whether a key may begin here. -/
  keyAllowed : Bool := true
  /-- The columns of the open blocks, the innermost first. -/
  indents : List Nat := []
  /-- What is open, the innermost first. -/
  levels : List Level := [{}]
  /-- The numbers of symbols that may begin a key, the last one first, and how many
  brackets are open around that key. -/
  awaited : List (Nat × Nat) := []

/-- The deepest that blocks, or brackets, may lie inside each other. -/
def maxDepth : Nat := 10000

/-- Reading symbols; `none` where a text cannot be read. -/
abbrev Reading := StateT SymbolReader Option

namespace SymbolReader

/-- The beginning of a text. -/
def start (t : Text) : SymbolReader :=
  let cursor := Cursor.start t
  { cursor, size := cursor.rest.length + 8 }

/-- The innermost level. -/
def level (r : SymbolReader) : Level := r.levels.headD {}

/-- Whether brackets are open. -/
def inFlow (r : SymbolReader) : Bool := 0 < r.level.depth

/-- The number of the symbol that is read next. -/
def nextNumber (r : SymbolReader) : Nat := r.given + r.queue.length

/-- Reads characters. -/
def scan {α : Type} (s : Scan α) : Reading α := fun r =>
  (s r.cursor).map fun (a, cursor) => (a, { r with cursor })

/-- The place. -/
def place : Reading Place := fun r => some (r.cursor.place, r)

/-- Adds a symbol that begins on a line. -/
def put (line : Nat) (symbol : Symbol) : Reading Unit :=
  modify fun r => { r with queue := r.queue ++ [⟨symbol, line⟩] }

/-- Adds a symbol so that it has a number, or in the end if that symbol has been
passed over. -/
def insert (number line : Nat) (symbol : Symbol) : Reading Unit :=
  modify fun r =>
    let place := if number < r.given then r.queue.length else number - r.given
    { r with queue := r.queue.insertIdx place ⟨symbol, line⟩ }

/-- Adds a symbol that is written with some characters. -/
def sign (symbol : Symbol) (length : Nat) : Reading Unit := do
  let line := (← place).line
  scan (Scan.passMany length)
  put line symbol

/-- Says whether a key may begin here. -/
def allowKey (allowed : Bool) : Reading Unit := modify fun r => { r with keyAllowed := allowed }

/-- Changes the innermost level. -/
def setLevel (level : Level) : Reading Unit :=
  modify fun r => { r with levels := level :: r.levels.drop 1 }

/-- What is awaited without a number. -/
def without (number : Nat) : List (Nat × Nat) → List (Nat × Nat)
  | [] => []
  | (n, depth) :: rest =>
    if n = number then rest else if n < number then (n, depth) :: rest
    else (n, depth) :: without number rest

/-- Stops waiting for a key that begins with a symbol. -/
def forget (number : Nat) : Reading Unit :=
  modify fun r => { r with awaited := without number r.awaited }

/-- Gives up the key that may have begun, unless one is required. -/
def dropKey : Reading Unit := do
  let l := (← get).level
  match l.key with
  | none => pure ()
  | some k =>
    if k.required then failure
    setLevel { l with key := none }
    forget l.number

/-- Remembers that a key may begin here, if one may. -/
def offerKey : Reading Unit := do
  let r ← get
  if r.keyAllowed then
    let p := r.cursor.place
    let required := !r.inFlow && r.indents.head? == some p.column
    dropKey
    setLevel ⟨r.level.depth, some ⟨required, p.passed, p.line, p.column⟩, r.nextNumber⟩
    forget r.nextNumber
    modify fun s => { s with awaited := (r.nextNumber, r.level.depth) :: s.awaited }

/-- The key of a level if it still may be one here. A required one must. -/
def keyOf (l : Level) (p : Place) : Option (Option KeyPlace) :=
  match l.key with
  | none => some none
  | some k => if k.reaches p then some (some k) else if k.required then none else some none

/-- The key that may have begun with the next symbol that is passed over, if there
is one that still may; else it is known that there is none. -/
def awaitsKey : Reading Bool := do
  let r ← get
  match r.awaited.lookup r.given with
  | none => return false
  | some depth =>
    if r.level.depth < depth then failure
    let inner := r.level.depth - depth
    match r.levels[inner]? with
    | none => failure
    | some l =>
      let key ← keyOf l r.cursor.place
      modify fun r => { r with levels := r.levels.set inner { l with key } }
      return key.isSome

/-- Whether a block at a column lies inside all open ones. -/
def opensBlock (r : SymbolReader) (column : Nat) : Bool :=
  !r.inFlow && r.indents.head?.all (· < column)

/-- Opens a block at a column. -/
def pushBlock (column : Nat) : Reading Unit := do
  if maxDepth ≤ (← get).indents.length then failure
  modify fun r => { r with indents := column :: r.indents }

/-- Opens a block here, if it lies inside all open ones. -/
def openBlock (symbol : Symbol) : Reading Unit := do
  let p ← place
  if (← get).opensBlock p.column then
    pushBlock p.column
    put p.line symbol

/-- Ends the blocks that are indented further than a column, or all of them. -/
def closeBlocks (line : Nat) (column : Option Nat) : Reading Unit :=
  modify fun r =>
    if r.inFlow then r
    else
      let further (indent : Nat) : Bool := column.all (· < indent)
      let ended := (r.indents.takeWhile further).map fun _ => PlacedSymbol.mk .blockEnd line
      { r with indents := r.indents.dropWhile further, queue := r.queue ++ ended }

/-- A sign that begins an item, a key or a value in its own right. -/
def openSign (opening symbol : Symbol) (allowsKey : Bool) : Reading Unit := do
  let r ← get
  if !r.inFlow && !r.keyAllowed then failure
  openBlock opening
  dropKey
  allowKey allowsKey
  sign symbol 1

/-- A colon, after a key that began earlier or on its own. -/
def readValue : Reading Unit := do
  let r ← get
  let l := (← get).level
  let key ← keyOf l r.cursor.place
  setLevel { l with key := none }
  match key with
  | some k =>
    insert l.number k.line .key
    if r.opensBlock k.column then
      pushBlock k.column
      insert l.number k.line .blockMapping
    forget l.number
    allowKey false
  | none =>
    if !r.inFlow && !r.keyAllowed then failure
    openBlock .blockMapping
    allowKey (!r.inFlow)
  sign .value 1

/-- An opening bracket. -/
def openFlow (symbol : Symbol) : Reading Unit := do
  offerKey
  let r ← get
  if maxDepth ≤ r.level.depth then failure
  set { r with levels := ⟨r.level.depth + 1, none, r.nextNumber⟩ :: r.levels }
  allowKey true
  sign symbol 1

/-- A closing bracket. From then on no key is awaited that began with the symbol
which began the last key inside, or with the bracket if there was none. -/
def closeFlow (symbol : Symbol) : Reading Unit := do
  dropKey
  let r ← get
  if r.inFlow then
    let l := (← get).level
    set { r with levels := r.levels.drop 1 }
    forget l.number
  allowKey false
  sign symbol 1

/-- A symbol that may be a key, or stand before one. -/
def readKeyable (read : Scan Symbol) : Reading Unit := do
  offerKey
  allowKey false
  let line := (← place).line
  put line (← scan read)

/-- A plain scalar. After the end of a line a key may begin. -/
def readPlain : Reading Unit := do
  let r ← get
  let indent := (r.indents.head?.map (· + 1)).getD 0
  offerKey
  let line := (← place).line
  let (content, broken) ← scan (plain r.inFlow indent)
  allowKey broken
  put line (.scalar true (textOf content))

/-- A scalar in a block of lines. -/
def readBlock (literal : Bool) : Reading Unit := do
  dropKey
  allowKey true
  let line := (← place).line
  let content ← scan (block literal (← get).indents.head?)
  put line (.scalar false (textOf content))

/-- Whether a plain scalar begins with these characters. A dash, question mark or
colon begins one before something else than a blank. -/
def beginsPlain (flow : Bool) : List Char → Bool
  | [] => false
  | '-' :: rest => !rest.head?.any isSpacing
  | c :: rest =>
    if c == '?' || c == ':' then !flow && !endsWord rest
    else !isSpacing c && !endsLine c && !leadingIndicators.contains c

/-- A scalar between quotes. -/
def quoted (read : Scan (List Char)) : Scan Symbol := do return .scalar false (textOf (← read))

/-- A tag. -/
def tagSymbol : Scan Symbol := do
  let (handle, suffix) ← tag
  return .tag handle suffix

/-- Reads the symbol that begins with these characters. -/
def readSymbol (flow : Bool) : List Char → Reading Unit
  | [] => failure
  | c :: rest =>
    if c == '[' then openFlow .flowSequence
    else if c == '{' then openFlow .flowMapping
    else if c == ']' then closeFlow .flowSequenceEnd
    else if c == '}' then closeFlow .flowMappingEnd
    else if c == ',' then do
      dropKey
      allowKey true
      sign .comma 1
    else if c == '-' && endsWord rest then openSign .blockSequence .item true
    else if c == '?' && (flow || endsWord rest) then openSign .blockMapping .key (!flow)
    else if c == ':' && (flow || endsWord rest) then readValue
    else if c == '*' then readKeyable (do return .alias (← name))
    else if c == '&' then readKeyable (do return .anchor (← name))
    else if c == '!' then readKeyable tagSymbol
    else if c == '|' && !flow then readBlock true
    else if c == '>' && !flow then readBlock false
    else if c == '\'' then readKeyable (quoted singleQuoted)
    else if c == '"' then readKeyable (quoted doubleQuoted)
    else if beginsPlain flow (c :: rest) then readPlain
    else failure

/-- Ends everything that is open, before a new document or a directive. -/
def closeDocument : Reading Unit := do
  closeBlocks (← place).line none
  dropKey
  allowKey false

/-- The end of the text, which ends a line. -/
def readEnd : Reading Unit := do
  let p ← place
  if p.column != 0 then
    modify fun r => { r with cursor.place := { p with line := p.line + 1, column := 0 } }
  closeDocument
  put (← place).line .streamEnd

/-- A directive. -/
def readDirective : Reading Unit := do
  closeDocument
  let line := (← place).line
  put line (.directive (← scan directive))

/-- Reads the next symbol, with the ends of blocks before it. After a dash a
comment belongs to what follows. -/
def readNext : Reading Unit := do
  let before := (← place).line
  let flow := (← get).inFlow
  allowKey (← scan (skipBlanks flow (← get).keyAllowed))
  closeBlocks before (some (← place).column)
  scan (Scan.ask 4)
  let cs ← scan Scan.following
  let lineStart := (← place).column == 0
  if cs.isEmpty then readEnd
  else if lineStart && cs.head? == some '%' then readDirective
  else if lineStart && isDocumentMark cs then
    closeDocument
    sign (if cs.head? == some '-' then .documentStart else .documentEnd) 3
  else
    readSymbol flow cs
    if (← get).queue.getLast?.all (·.symbol != .item) then scan lineComment

/-- Reads something more. -/
def read : Reading Unit := do
  scan (Scan.ask 1)
  if (← get).started then readNext
  else
    modify fun r => { r with started := true }
    put 1 .streamStart

/-- Reads on until it is known what the first symbol of the queue is. -/
def prepare : (fuel : Nat) → Reading Unit
  | 0 => failure
  | fuel + 1 => do
    if 2 < (← get).queue.length then
      if ← awaitsKey then
        read
        prepare fuel
    else
      read
      prepare fuel

/-- The next symbol. -/
def peek : Reading PlacedSymbol := do
  let r ← get
  if !r.ready then
    prepare r.size
    modify fun r => { r with ready := true }
  match (← get).queue with
  | s :: _ => return s
  | [] => failure

/-- Passes over the next symbol. -/
def skip : Reading Unit :=
  modify fun r => { r with ready := false, given := r.given + 1, queue := r.queue.drop 1 }

end SymbolReader

end Polarity.Yaml

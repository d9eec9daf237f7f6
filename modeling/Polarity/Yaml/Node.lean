import Polarity.Yaml.Symbol
import Polarity.Yaml.Scalar

/-!
# The nodes of a YAML document

A document is a tree of scalars, sequences and mappings. An alias stands for the
node of an anchor before it, which may well be one that the alias is a part of.

* `Document.read`: the first document of a text.
-/

namespace Polarity.Yaml

/-- A node with the line it begins on, and its tag in short form. -/
inductive Node where
  | scalar (line : Nat) (tag : Text) (value : Text)
  | sequence (line : Nat) (tag : Text) (items : List Node)
  | mapping (line : Nat) (tag : Text) (entries : List (Node × Node))
  /-- The node of an anchor. Both the alias and the anchor are told from others by
  a number. -/
  | alias (line : Nat) (name : Text) (self anchor : Nat)

/-- A document, with the nodes that have an anchor. -/
structure Document where
  root : Node
  anchors : List (Nat × Node)

namespace Node

/-- The line a node begins on. -/
def line : Node → Nat
  | .scalar line .. => line
  | .sequence line .. => line
  | .mapping line .. => line
  | .alias line .. => line

/-- The tag of the sequences that have no other. -/
def sequenceTag : Text := "!!seq"

/-- The tag of the mappings that have no other. -/
def mappingTag : Text := "!!map"

/-- The tag of a key that asks for the entries of another mapping. -/
def mergeTag : Text := "!!merge"

/-- The content of a key that asks for the entries of another mapping. -/
def mergeSign : Text := "<<"

/-- The tag of a scalar that has no other: if it is plain it follows from the
content. -/
def impliedTag (plain : Bool) (value : Text) : Text :=
  if !plain then Scalar.textTag
  else if value = mergeSign then mergeTag
  else (Scalar.resolve value).tag

/-- A scalar under a tag, if one is written. -/
def ofScalar (line : Nat) (tag : Option Text) (plain : Bool) (value : Text) : Node :=
  .scalar line (tag.getD (impliedTag plain value)) value

/-- A scalar that is not written. -/
def absent (line : Nat) : Node := .ofScalar line none true []

/-- What stands before the content of a node. -/
structure Properties where
  anchor : Option Text := none
  tag : Option (Text × Text) := none

/-- Whether something stands there. -/
def Properties.isSome (p : Properties) : Bool := p.anchor.isSome || p.tag.isSome

/-- What is left to read, what handles stand for, the anchors by name, the last one
first, and the nodes of those that are complete. -/
structure Builder where
  reader : SymbolReader
  handles : List (Text × Text) := []
  names : List (Text × Nat) := []
  anchors : List (Nat × Node) := []

/-- Something read from symbols; `none` where they are in no order. -/
abbrev Build := StateT Builder Option

/-- Asks the reader of symbols. -/
def reading {α : Type} (f : Reading α) : Build α := fun b =>
  (f b.reader).map fun (a, reader) => (a, { b with reader })

/-- The next symbol. -/
def peek : Build PlacedSymbol := reading SymbolReader.peek

/-- Passes over a symbol. -/
def skip : Build Unit := reading SymbolReader.skip

/-- Whether the next symbol is one of some. -/
def nextIs (symbols : List Symbol) : Build Bool := do
  return symbols.contains (← peek).symbol

/-- Passes over a symbol that must come next. -/
def expect (symbol : Symbol) : Build Unit := do
  if (← peek).symbol = symbol then skip else failure

/-- Reads an anchor and a tag, in either order, at most one of each. -/
def properties : Build Properties := do
  match (← peek).symbol with
  | .anchor name =>
    skip
    match (← peek).symbol with
    | .tag handle suffix =>
      skip
      return ⟨some name, some (handle, suffix)⟩
    | _ => return ⟨some name, none⟩
  | .tag handle suffix =>
    skip
    match (← peek).symbol with
    | .anchor name =>
      skip
      return ⟨some name, some (handle, suffix)⟩
    | _ => return ⟨none, some (handle, suffix)⟩
  | _ => return {}

/-- The beginning of the tags that every document knows. -/
def longTag : Text := "tag:yaml.org,2002:"

/-- The short form of a tag that every document knows. -/
def shortTag (tag : Text) : Text :=
  if longTag.isPrefixOf tag then "!!" ++ tag.drop longTag.length else tag

/-- What a tag is in short form. Handles that stand for nothing are refused; a lone
exclamation mark says nothing. -/
def fullTag (tag : Option (Text × Text)) : Build (Option Text) := do
  match tag with
  | none => return none
  | some (handle, suffix) =>
    let whole ←
      if handle.isEmpty then pure suffix
      else
        match (← get).handles.lookup handle with
        | some beginning => pure (beginning ++ suffix)
        | none => failure
    return if whole = "!" then none else some (shortTag whole)

/-- Opens an anchor with a number. -/
def openAnchor (number : Nat) (name : Option Text) : Build Unit :=
  modify fun b => { b with names := (name.map (·, number)).toList ++ b.names }

/-- Completes the anchor with a number, if there is one. -/
def closeAnchor (number : Nat) (name : Option Text) (node : Node) : Build Node := do
  modify fun b => { b with anchors := (name.map fun _ => (number, node)).toList ++ b.anchors }
  return node

/-- The node of an alias, which must name an anchor. -/
def readAlias (line number : Nat) (name : Text) : Build Node := do
  match (← get).names.lookup name with
  | none => failure
  | some anchor => return .alias line name number anchor

mutual

/-- Reads a node. Blocks are only allowed outside of brackets, and items without
a block of their own only directly in a mapping. -/
def readNode : (fuel : Nat) → (inBlock bareItems : Bool) → Build Node
  | 0, _, _ => failure
  | fuel + 1, inBlock, bareItems => do
    let first ← peek
    if let .alias name := first.symbol then
      let number := (← get).reader.given
      skip
      readAlias first.line number name
    else
      let number := (← get).reader.given
      let given ← properties
      let tag ← fullTag given.tag
      openAnchor number given.anchor
      let node ← readContent fuel inBlock bareItems first.line tag given.isSome
      closeAnchor number given.anchor node

/-- Reads what a node holds, after its properties. -/
def readContent : (fuel : Nat) → (inBlock bareItems : Bool) → (line : Nat) → Option Text →
    (hasProperties : Bool) → Build Node
  | 0, _, _, _, _, _ => failure
  | fuel + 1, inBlock, bareItems, line, tag, hasProperties => do
    match (← peek).symbol with
    | .item =>
      if bareItems then return .sequence line (tag.getD sequenceTag) (← readItems fuel true)
      else if hasProperties then return .ofScalar line tag true []
      else failure
    | .scalar plain content =>
      skip
      return .ofScalar line tag plain content
    | .flowSequence =>
      skip
      return .sequence line (tag.getD sequenceTag) (← readFlowItems fuel true)
    | .flowMapping =>
      skip
      return .mapping line (tag.getD mappingTag) (← readFlowEntries fuel true)
    | .blockSequence =>
      if inBlock then
        skip
        return .sequence line (tag.getD sequenceTag) (← readItems fuel false)
      else if hasProperties then return .ofScalar line tag true []
      else failure
    | .blockMapping =>
      if inBlock then
        skip
        return .mapping line (tag.getD mappingTag) (← readEntries fuel)
      else if hasProperties then return .ofScalar line tag true []
      else failure
    | _ => if hasProperties then return .ofScalar line tag true [] else failure

/-- Reads a node, unless one of some symbols comes instead; the absent node is
then said to be on the given line. -/
def readOptional : (fuel : Nat) → (inBlock bareItems : Bool) → (line : Nat) →
    (instead : List Symbol) → Build Node
  | 0, _, _, _, _ => failure
  | fuel + 1, inBlock, bareItems, line, instead => do
    if ← nextIs instead then return absent line else readNode fuel inBlock bareItems

/-- Reads the items of a block, up to its end or, without a block of their own, as
long as there are dashes. -/
def readItems : (fuel : Nat) → (bare : Bool) → Build (List Node)
  | 0, _ => failure
  | fuel + 1, bare => do
    if ← nextIs [.item] then
      let line := (← peek).line
      skip
      let ends : List Symbol :=
        if bare then [.item, .key, .value, .blockEnd] else [.item, .blockEnd]
      let item ← readOptional fuel true false line ends
      return item :: (← readItems fuel bare)
    else if bare then return []
    else
      expect .blockEnd
      return []

/-- Reads the entries of a block up to its end. -/
def readEntries : (fuel : Nat) → Build (List (Node × Node))
  | 0 => failure
  | fuel + 1 => do
    let ends : List Symbol := [.key, .value, .blockEnd]
    if ← nextIs [.key] then
      let line := (← peek).line
      skip
      let key ← readOptional fuel true true line ends
      let value ← readBlockValue fuel ends
      return (key, value) :: (← readEntries fuel)
    else
      expect .blockEnd
      return []

/-- Reads the value of a key in a block. -/
def readBlockValue : (fuel : Nat) → (ends : List Symbol) → Build Node
  | 0, _ => failure
  | fuel + 1, ends => do
    if ← nextIs [.value] then
      let line := (← peek).line
      skip
      readOptional fuel true true line ends
    else return absent (← peek).line

/-- Reads items between brackets. One item may be a single key and its value. -/
def readFlowItems : (fuel : Nat) → (first : Bool) → Build (List Node)
  | 0, _ => failure
  | fuel + 1, first => do
    if ← nextIs [.flowSequenceEnd] then
      skip
      return []
    else
      if !first then expect .comma
      let start ← peek
      match start.symbol with
      | .key =>
        skip
        let ends : List Symbol := [.comma, .flowSequenceEnd]
        let bare ← nextIs (.value :: ends)
        let key ← readOptional fuel false false (← peek).line (.value :: ends)
        if bare then skip
        let value ← readFlowValue fuel ends
        let item : Node := .mapping start.line mappingTag [(key, value)]
        return item :: (← readFlowItems fuel false)
      | .flowSequenceEnd =>
        skip
        return []
      | _ =>
        let item ← readNode fuel false false
        return item :: (← readFlowItems fuel false)

/-- Reads entries between braces. A key may stand without a value. -/
def readFlowEntries : (fuel : Nat) → (first : Bool) → Build (List (Node × Node))
  | 0, _ => failure
  | fuel + 1, first => do
    if ← nextIs [.flowMappingEnd] then
      skip
      return []
    else
      if !first then expect .comma
      match (← peek).symbol with
      | .key =>
        skip
        let ends : List Symbol := [.comma, .flowMappingEnd]
        let key ← readOptional fuel false false (← peek).line (.value :: ends)
        let value ← readFlowValue fuel ends
        return (key, value) :: (← readFlowEntries fuel false)
      | .flowMappingEnd =>
        skip
        return []
      | _ =>
        let key ← readNode fuel false false
        let value := absent (← peek).line
        return (key, value) :: (← readFlowEntries fuel false)

/-- Reads the value of a key between brackets or braces. -/
def readFlowValue : (fuel : Nat) → (ends : List Symbol) → Build Node
  | 0, _ => failure
  | fuel + 1, ends => do
    if ← nextIs [.value] then
      skip
      readOptional fuel false false (← peek).line ends
    else return absent (← peek).line

end

/-- The handles that every document knows. -/
def knownHandles : List (Text × Text) := [("!", "!"), ("!!", longTag)]

/-- Reads directives: one version at most, which must be 1.1, and no handle twice. -/
def readDirectives : (fuel : Nat) → (versioned : Bool) → (handles : List (Text × Text)) →
    Build (List (Text × Text))
  | 0, _, _ => failure
  | fuel + 1, versioned, handles => do
    match (← peek).symbol with
    | .directive (.version major minor) =>
      if versioned || major != 1 || minor != 1 then failure
      skip
      readDirectives fuel true handles
    | .directive (.handle handle beginning) =>
      if (handles.lookup handle).isSome then failure
      skip
      readDirectives fuel versioned ((handle, beginning) :: handles)
    | _ => return handles

/-- Whether nothing is written in a document before this symbol. -/
def isDocumentBound : Symbol → Bool
  | .directive _ | .documentStart | .documentEnd | .streamEnd => true
  | _ => false

/-- Reads what a document begins with. -/
def readStart (fuel : Nat) : Build Unit := do
  let handles ← readDirectives fuel false []
  modify fun b => { b with handles := handles ++ b.handles }
  expect .documentStart

/-- Reads the node of the first document, if there is one. The symbol after it must
be one. -/
def readRoot (fuel : Nat) : Build (Option Node) := do
  expect .streamStart
  let first := (← peek).symbol
  if first = .streamEnd then return none
  let explicit := isDocumentBound first && first != .documentEnd
  if explicit then readStart fuel
  let start ← peek
  let node ←
    if explicit && isDocumentBound start.symbol then pure (absent start.line)
    else readNode fuel true false
  let _ ← peek
  return some node

end Node

/-- The first document of a text, if there is one; `none` when the text cannot be
read. -/
def Document.read (t : Text) : Option (Option Document) := do
  let reader := SymbolReader.start t
  let (root, b) ← (Node.readRoot (16 * reader.size)).run { reader, handles := Node.knownHandles }
  return root.map (⟨·, b.anchors⟩)

end Polarity.Yaml

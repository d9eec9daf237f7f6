import Polarity.Settings.Mistake
import Polarity.Yaml.Node

/-!
# Settings in a document

Every section of the settings is a mapping. A mapping may ask for the entries of
others with the key `<<`; its own keys come first, and so do those of earlier ones.
Mistakes are noted and left out.

* `Decode.readArea`: the settings of a section;
* `Decode.merge`: the entries of other mappings;
* `Decode.any`: a value of which nothing is known beforehand.
-/

namespace Polarity

open Yaml (Node Scalar)

/-- What a key of a mapping is. -/
inductive Key where
  | scalar (s : Scalar)
  | collection (kind : Collection)
  deriving DecidableEq, Repr

/-- What has been read of a document. -/
structure Decoding where
  /-- The nodes that have an anchor. -/
  anchors : List (Nat × Node)
  overrides : Overrides := {}
  /-- The mistakes, the last one first. -/
  mistakes : List PlacedMistake := []
  /-- The keys that merged mappings may not set any more, inside a merge. -/
  taken : Option (List Scalar) := none
  /-- The aliases that are being followed, the last one first. -/
  following : List Nat := []
  /-- How many nodes have been read; the document counts as one. -/
  visits : Nat := 1
  /-- How many of them behind an alias. -/
  aliased : Nat := 0

namespace Decoding

/-- The number of nodes up to which nearly all may be read behind aliases. -/
def smallDocument : Nat := 400000

/-- The number of nodes from which on only a tenth may be. -/
def largeDocument : Nat := 4000000

/-- Whether too many nodes have been read behind aliases: more than 99 of a
hundred, falling evenly to 10 of a hundred for large documents. Few never are. -/
def isExcessive (d : Decoding) : Bool :=
  let range := largeDocument - smallDocument
  let excess := min d.visits largeDocument - smallDocument
  100 < d.aliased && 1000 < d.visits &&
    d.visits * (99 * range - 89 * excess) < d.aliased * 100 * range

end Decoding

/-- Reading settings on the way through a document. -/
abbrev Decode := StateT Decoding (Except Refusal)

namespace Decode

/-- Notes a mistake. -/
def note (line : Nat) (mistake : Mistake) : Decode Unit :=
  modify fun d => { d with mistakes := ⟨line, mistake⟩ :: d.mistakes }

/-- Gives up. -/
def refuse {α : Type} : Decode α := throw .unreadable

/-- Counts a node. -/
def visit : Decode Unit := do
  modify fun d =>
    { d with
      visits := d.visits + 1
      aliased := if d.following.isEmpty then d.aliased else d.aliased + 1 }
  if (← get).isExcessive then refuse

/-- The node of an anchor. -/
def anchored (number : Nat) : Decode Node := do
  match (← get).anchors.lookup number with
  | some node => return node
  | none => refuse

/-- Reads a node, or the one that an alias stands for. No alias may be followed
while it is followed already. -/
def visiting {α : Type} (node : Node) (act : Node → Decode α) : Decode α := do
  visit
  match node with
  | .alias _ _ self anchor =>
    if (← get).following.contains self then refuse
    let target ← anchored anchor
    modify fun d => { d with following := self :: d.following }
    visit
    let a ← act target
    modify fun d => { d with following := d.following.drop 1 }
    return a
  | node => act node

/-- Notes that a node is of another type than wanted. -/
def mistyped (node : Node) (type : ValueType) : Decode Unit :=
  match node with
  | .scalar line tag value => note line (.mistyped tag value type)
  | .sequence line tag _ => note line (.mistyped tag [] type)
  | .mapping line tag _ => note line (.mistyped tag [] type)
  | .alias .. => pure ()

/-- What tells keys apart: their kind and content. -/
def identity : Node → Nat × Text
  | .scalar _ _ value => (0, value)
  | .sequence .. => (1, [])
  | .mapping .. => (2, [])
  | .alias _ name .. => (3, name)

/-- The keys that are written twice, by their second line, each with the first one. -/
def repeatedKeys : List Node → List PlacedMistake
  | [] => []
  | key :: rest =>
    (rest.filter fun other => identity other = identity key).map (fun other =>
      ⟨other.line, .repeatedKey (identity other).2 key.line⟩) ++ repeatedKeys rest

/-- Notes the repeated keys of a mapping, and says whether there are none. -/
def distinctKeys (entries : List (Node × Node)) : Decode Bool := do
  let repeated := repeatedKeys (entries.map Prod.fst)
  modify fun d => { d with mistakes := repeated.reverse ++ d.mistakes }
  return repeated.isEmpty

/-- What a scalar means; its content must not be against its tag. -/
def meaning (tag value : Text) : Decode Scalar :=
  match Scalar.under tag value with
  | some s => pure s
  | none => refuse

/-- Reads a scalar in a way that may not be possible. Collections are mistakes, and
null is nothing. -/
def scalar {α : Type} (type : ValueType) (read : Text → Scalar → Option α) (node : Node) :
    Decode (Option α) :=
  visiting node fun node => do
    match node with
    | .scalar _ tag value =>
      match ← meaning tag value with
      | .null => return none
      | s =>
        let a := read value s
        if a.isNone then mistyped node type
        return a
    | .mapping _ _ entries =>
      if ← distinctKeys entries then mistyped node type
      return none
    | _ =>
      mistyped node type
      return none

/-- Reads a text. Every scalar is one, as it is written. -/
def text : Node → Decode (Option Text) :=
  scalar .text fun value s =>
    match s with
    | .text t => some t
    | _ => some value

/-- Reads an integer of 64 bits; of a fraction, its whole part. -/
def integer : Node → Decode (Option Int) :=
  scalar .integer fun _ s =>
    match s with
    | .int n => if n < Integer.positives then some n else none
    | .float b => b.word?
    | _ => none

/-- Reads a truth value. The words of older versions of the format are taken for one. -/
def truth : Node → Decode (Option Bool) :=
  scalar .truth fun _ s =>
    match s with
    | .bool b => some b
    | .text t => Yaml.olderBool? t
    | _ => none

/-! ### Merges -/

/-- Whether a key asks for the entries of other mappings. -/
def isMerge : Node → Bool
  | .scalar _ tag value => tag = Node.mergeTag && value = Node.mergeSign
  | _ => false

/-- The value of the last key that asks for the entries of other mappings. -/
def mergeSource? (entries : List (Node × Node)) : Option Node :=
  (entries.reverse.find? fun (key, _) => isMerge key).map Prod.snd

/-- Whether a node is a mapping, or an alias of one. -/
def isMapping (node : Node) : Decode Bool := do
  let target ←
    match node with
    | .alias _ _ _ anchor => anchored anchor
    | node => pure node
  match target with
  | .mapping .. => return true
  | _ => return false

/-- The keys with one more, unless it is among them, inside a merge; outside there is
nothing to do. A collection cannot be looked up. -/
def claim (taken : Option (List Scalar)) (key : Key) : Decode (Option (Option (List Scalar))) :=
  match taken, key with
  | none, _ => return some none
  | some [], .collection kind => throw (.unhashableAlone kind)
  | some _, .collection kind => throw (.unhashable kind)
  | some keys, .scalar s => return if keys.any s.same then none else some (some (s :: keys))

/-- Takes the keys of a mapping, so that merged ones do not set them. A collection
cannot be taken. -/
def takeKeys (any : Node → Decode (Option Key)) (entries : List (Node × Node)) : Decode Unit := do
  modify fun d => { d with taken := some [] }
  entries.forM fun (key, _) => do
    match ← any key with
    | none => pure ()
    | some (.collection kind) => throw (.unhashable kind)
    | some (.scalar s) => modify fun d => { d with taken := d.taken.map (s :: ·) }

/-- Reads mappings into the same place as the mapping that asks for them. There must
be nothing else. -/
def merge (any : Node → Decode (Option Key)) (into : Node → Decode Unit)
    (entries : List (Node × Node)) (source : Node) : Decode Unit := do
  let outermost := (← get).taken.isNone
  if outermost then takeKeys any entries
  let sources :=
    match source with
    | .sequence _ _ items => items
    | node => [node]
  sources.forM fun node => do
    if ← isMapping node then into node else refuse
  if outermost then modify fun d => { d with taken := none }

/-! ### Values of which nothing is known -/

/-- The tag of a node, or of the one that an alias stands for. -/
def tagOf (node : Node) : Decode Text := do
  let target ←
    match node with
    | .alias _ _ _ anchor => anchored anchor
    | node => pure node
  match target with
  | .scalar _ tag _ => return tag
  | .sequence _ tag _ => return tag
  | .mapping _ tag _ => return tag
  | .alias .. => return []

/-- Whether all keys of a mapping are texts, merges aside. -/
def hasTextKeys (entries : List (Node × Node)) : Decode Bool :=
  entries.allM fun (key, _) => do
    let tag ← tagOf key
    return tag = Scalar.textTag || tag = Node.mergeTag

mutual

/-- Reads a node; `none` when it is a mapping with repeated keys. -/
def any : (fuel : Nat) → Node → Decode (Option Key)
  | 0, _ => refuse
  | fuel + 1, node =>
    visiting node fun node => do
      match node with
      | .scalar _ tag value => return some (.scalar (← meaning tag value))
      | .sequence _ _ items =>
        items.forM fun item => do
          let _ ← any fuel item
        return some (.collection .sequence)
      | .mapping _ _ entries =>
        if ← distinctKeys entries then
          let textual ← hasTextKeys entries
          anyEntries fuel textual entries
          return some (.collection (if textual then .textMapping else .mapping))
        else return none
      | .alias .. => refuse

/-- Reads the entries of a mapping. No key may be a collection. -/
def anyEntries : (fuel : Nat) → (textual : Bool) → List (Node × Node) → Decode Unit
  | 0, _, _ => refuse
  | fuel + 1, textual, entries => do
    let outer := (← get).taken
    modify fun d => { d with taken := none }
    let outer ← entries.foldlM (fun taken (key, value) => anyEntry fuel textual taken key value) outer
    modify fun d => { d with taken := outer }
    match mergeSource? entries with
    | none => pure ()
    | some source => merge (any fuel) (anyMerged fuel textual) entries source

/-- Reads an entry of a mapping, unless it is taken. -/
def anyEntry : (fuel : Nat) → (textual : Bool) → (taken : Option (List Scalar)) →
    (key value : Node) → Decode (Option (List Scalar))
  | 0, _, _, _, _ => refuse
  | fuel + 1, textual, taken, key, value => do
    if isMerge key then return taken
    let read : Option Key ←
      if textual then pure ((← text key).map fun t => .scalar (.text t)) else any fuel key
    match read with
    | none => return taken
    | some k =>
      match ← claim taken k with
      | none => return taken
      | some more =>
        if let .collection _ := k then refuse
        let _ ← any fuel value
        return more

/-- Reads a merged mapping. -/
def anyMerged : (fuel : Nat) → (textual : Bool) → Node → Decode Unit
  | 0, _, _ => refuse
  | fuel + 1, textual, node =>
    visiting node fun node => do
      match node with
      | .mapping _ _ entries => if ← distinctKeys entries then anyEntries fuel textual entries
      | _ => refuse

end

/-! ### Sections -/

/-- What an entry of a section sets. -/
inductive Target where
  | area (a : Area)
  | text (set : Overrides → Text → Overrides)
  | integer (set : Overrides → Int → Overrides)
  | truth (set : Overrides → Bool → Overrides)

/-- The settings of a section by name. -/
def settings : Area → List (Text × Target)
  | .root =>
    [("simplifier", .area .simplifier), ("solver", .area .solver),
      ("unresolved", .text fun o t => { o with unresolved := some t }), ("output", .area .output)]
  | .simplifier => [("substitution", .text fun o t => { o with substitution := some t })]
  | .solver =>
    [("strategy", .text fun o t => { o with strategy := some t }),
      ("passes", .integer fun o n => { o with passes := some n })]
  | .output =>
    [("format", .text fun o t => { o with format := some t }),
      ("rules", .truth fun o b => { o with rules := some b }),
      ("color", .text fun o t => { o with color := some t })]

/-- Changes a setting, if there is something to change it to. -/
def change {α : Type} (set : Overrides → α → Overrides) (value : Option α) : Decode Unit :=
  modify fun d => { d with overrides := (value.map (set d.overrides)).getD d.overrides }

/-- What the entries of a section before have used: the keys that may not be set any
more, inside a merge, and the names of this mapping. -/
structure Used where
  taken : Option (List Scalar)
  names : List Text := []

mutual

/-- Reads a section of the settings. -/
def readArea : (fuel : Nat) → Area → Node → Decode Unit
  | 0, _, _ => refuse
  | fuel + 1, area, node =>
    visiting node fun node => do
      match node with
      | .mapping _ _ entries => if ← distinctKeys entries then readEntries fuel area entries
      | .scalar _ tag value => if (← meaning tag value) ≠ .null then mistyped node (.area area)
      | _ => mistyped node (.area area)

/-- Reads the entries of a section, and then those that are merged. -/
def readEntries : (fuel : Nat) → Area → List (Node × Node) → Decode Unit
  | 0, _, _ => refuse
  | fuel + 1, area, entries => do
    let outer := (← get).taken
    modify fun d => { d with taken := none }
    let used ← entries.foldlM (fun used (key, value) => readEntry fuel area used key value) ⟨outer, []⟩
    modify fun d => { d with taken := used.taken }
    match mergeSource? entries with
    | none => pure ()
    | some source => merge (any fuel) (readArea fuel area) entries source

/-- Reads an entry of a section, unless it is taken. -/
def readEntry : (fuel : Nat) → Area → Used → (key value : Node) → Decode Used
  | 0, _, _, _, _ => refuse
  | fuel + 1, area, used, key, value => do
    if isMerge key then return used
    match ← text key with
    | none => return used
    | some name =>
      match ← claim used.taken (.scalar (.text name)) with
      | none => return used
      | some taken =>
        match (settings area).lookup name with
        | none =>
          note key.line (.unknownKey name area)
          return { used with taken }
        | some target =>
          if used.names.contains name then
            note key.line (.repeatedSetting name area)
            return { used with taken }
          else
            readTarget fuel target value
            return ⟨taken, name :: used.names⟩

/-- Reads the value of an entry. -/
def readTarget : (fuel : Nat) → Target → Node → Decode Unit
  | 0, _, _ => refuse
  | fuel + 1, target, node => do
    match target with
    | .area a => readArea fuel a node
    | .text set => change set (← text node)
    | .integer set => change set (← integer node)
    | .truth set => change set (← truth node)

end

end Decode

end Polarity

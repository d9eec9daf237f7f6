import Polarity.Diagnostic

/-!
# Lines and columns

Diagnostics are shown with the line and column of their first byte. A line
starts at the beginning of a source and after each newline that is not the
source's last byte, so that what is said of the end of a source which ends in a
newline is said of the line before it.
-/

namespace Polarity

/-- The offsets at which the lines after the first one start, when the text
begins at `offset`. -/
def laterLineStarts : (offset : Nat) → Text → List Nat
  | _, [] => []
  | _, [_] => []
  | offset, b :: c :: rest =>
    if b = Text.byte '\n' then (offset + 1) :: laterLineStarts (offset + 1) (c :: rest)
    else laterLineStarts (offset + 1) (c :: rest)

/-- The offsets at which the lines of a source start. An empty source has none. -/
def lineStarts (source : Text) : List Nat :=
  if source.isEmpty then [] else 0 :: laterLineStarts 0 source

/-- The number of the line that holds `offset`, and the offset at which it
starts: the last start that is not after `offset`. -/
def lineAt (starts : List Nat) (offset : Nat) : Option (Nat × Nat) :=
  let upTo := starts.filter (· ≤ offset)
  upTo.getLast?.map fun start => (upTo.length, start)

/-- A place in a file: name, line and column, as far as they are known. -/
def placeText (file : Text) : Option (Nat × Nat) → Text
  | none => if file.isEmpty then "-" else file
  | some (line, column) =>
    let name : Text := if file.isEmpty then [] else file ++ ":"
    name ++ Text.ofNat line ++ ":" ++ Text.ofNat column

/-- The line and column of an offset in a source. -/
def lineColumn (source : Text) (offset : Nat) : Option (Nat × Nat) :=
  (lineAt (lineStarts source) offset).map fun (line, start) => (line, offset - start + 1)

namespace Diagnostic

/-- A diagnostic after its place in `source`; the place is left out when the
diagnostic has none, lies beyond the end of the source, or is at the least of all
positions, before which there is none. -/
def textIn (file source : Text) (d : Diagnostic) : Text :=
  if d.span.isPlaced && d.span.start - 1 ≤ source.length + 1 && d.span.start != Span.least then
    placeText file (lineColumn source (d.span.start - 1).toNat) ++ ": " ++ d.text
  else d.text

/-- All diagnostics with their places, one a line. -/
def textsIn (file source : Text) (ds : List Diagnostic) : Text :=
  Text.joined "\n" (ds.map (textIn file source))

end Diagnostic

end Polarity

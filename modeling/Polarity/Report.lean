import Polarity.Inference
import Polarity.Text.Columns

/-!
# Reports

What is shown of an inference: the constraints, the reduced constraints, the
solution, and the names that no class has.

* `Inference.report`: the report on an inference;
* `Report.plain`: a report in sections, for reading.
-/

namespace Polarity

/-- Lists of lines for the reader. A list may be missing altogether. -/
structure Report where
  generated : Option (List Text)
  simplified : Option (List Text)
  solution : Option (List Text)
  undeclared : List Text
  deriving DecidableEq, Repr

/-- The report on nothing. -/
def Report.empty : Report := ⟨some [], some [], some [], []⟩

/-- The report on an inference, with the rule of each constraint if asked for. -/
def Inference.report (i : Inference) (rules : Bool) : Report where
  generated :=
    some (i.generation.constraints.map (if rules then Constraint.textWithRule else Constraint.text))
  simplified := some (i.simplified.map Constraint.text)
  solution := some (i.solution.entries.map SolutionEntry.text)
  undeclared := i.undeclared

/-- How a line is coloured. -/
inductive Style where
  | heading
  | warning
  deriving DecidableEq, Repr

namespace Style

/-- The codes that switch a style on. -/
def code : Style → Text
  | .heading => "\x1b[1;38;2;32;185;179m"
  | .warning => "\x1b[38;2;243;208;63m"

/-- The code that switches all styles off. -/
def off : Text := "\x1b[0m"

/-- A tab becomes four spaces. -/
def spaced (t : Text) : Text :=
  t.flatMap fun b => if b = Text.byte '\t' then "    " else [b]

/-- The lines of a text, without the bytes that end them. -/
def lines : Text → List Text
  | [] => [[]]
  | 0x0D :: 0x0A :: rest => [] :: lines rest
  | 0x0A :: rest => [] :: lines rest
  | b :: rest =>
    match lines rest with
    | [] => [[b]]
    | line :: others => (b :: line) :: others

/-- A text in a style, line by line, with spaces after the lines that take up
fewer columns than others. -/
def paint (s : Style) (t : Text) : Text :=
  let ls := (lines (spaced t)).map fun l => s.code ++ l ++ off
  let width := (ls.map Text.columns).foldl max 0
  Text.joined "\n" (ls.map fun l => l ++ List.replicate (width - l.columns) (Text.byte ' '))

end Style

namespace Report

/-- A line in a style, if colours are wanted. -/
def styled (color : Bool) (s : Style) (t : Text) : Text := if color then s.paint t else t

/-- A heading and lines below it. -/
def block (color : Bool) (title : Text) (lines : List Text) : Text :=
  (styled color .heading ("# " ++ title)).line ++ lines.flatMap Text.line

/-- The line about undeclared names, after an empty line. -/
def undeclaredBlock (color : Bool) (names : List Text) : Text :=
  if names.isEmpty then []
  else "\n" ++ (styled color .warning ("# undeclared classes: " ++ Text.joined ", " names)).line

/-- A report in sections. -/
def plain (r : Report) (color : Bool) : Text :=
  block color "generated constraints" (r.generated.getD []) ++ "\n" ++
    block color "simplified constraints" (r.simplified.getD []) ++ "\n" ++
    block color "solution" (r.solution.getD []) ++
    undeclaredBlock color r.undeclared

end Report

end Polarity

import Polarity.Report

/-!
# Reports as JSON

An object with a list of strings for each part, indented by two spaces. A missing
list is `null`. Characters with a meaning in HTML are escaped, and so are all
that end a line.
-/

namespace Polarity.Report.Json

/-- The short escape of a character, where it has one. -/
def short? (c : Char) : Option Text :=
  match c with
  | '"' => some "\\\""
  | '\\' => some "\\\\"
  | '\x08' => some "\\b"
  | '\x0C' => some "\\f"
  | '\n' => some "\\n"
  | '\r' => some "\\r"
  | '\t' => some "\\t"
  | _ => none

/-- Whether a character is written as its code. -/
def isCoded (c : Char) : Bool :=
  c.toNat < 0x20 || c == '<' || c == '>' || c == '&' || c == '\u2028' || c == '\u2029'

/-- A piece of a text inside a string. -/
def piece (p : Piece) : Text :=
  match p.char with
  | none => "\\ufffd"
  | some c =>
    match short? c with
    | some t => t
    | none => if isCoded c then "\\u" ++ Text.hex 4 c.toNat else p.bytes

/-- A text as a string. -/
def string (t : Text) : Text := "\"" ++ (Piece.split t).flatMap piece ++ "\""

/-- A list of strings as the value of a member. -/
def list : Option (List Text) → Text
  | none => "null"
  | some [] => "[]"
  | some items =>
    "[\n" ++ Text.joined ",\n" (items.map fun t => "    " ++ string t) ++ "\n  ]"

/-- A member of the object. -/
def member (name : Text) (value : Option (List Text)) : Text :=
  "  " ++ string name ++ ": " ++ list value

/-- The report as an object. Undeclared names are left out when there are none. -/
def render (r : Report) : Text :=
  let members :=
    [member "generated" r.generated, member "simplified" r.simplified,
      member "solution" r.solution] ++
    if r.undeclared.isEmpty then [] else [member "undeclared" (some r.undeclared)]
  "\x7b\n" ++ Text.joined ",\n" members ++ "\n\x7d\n"

end Polarity.Report.Json

import Polarity.Yaml.Content
import Polarity.Yaml.Scalar

/-!
# Writing scalars

A text is written plain when it reads back as itself, else between single
quotes, and between double quotes when it holds something that must be escaped.
A text of several lines is written as a block.
-/

namespace Polarity.Yaml

/-- Whether a character may be written as itself. -/
def isWritable (c : Char) : Bool :=
  let n := c.toNat
  n == 0x0A || (0x20 ≤ n && n ≤ 0x7E) || (0xA0 ≤ n && n ≤ 0xFFFD && n != 0xFEFF)

/-- Whether a character after the first one would end a plain scalar. -/
def endsPlainAfter : (previous : Char) → List Char → Bool
  | _, [] => false
  | previous, c :: rest =>
    (c == ':' && endsWord rest) || (c == '#' && (isSpacing previous || endsLine previous)) ||
      endsPlainAfter c rest

/-- Whether the characters would be taken for something else than a plain scalar. -/
def hasIndicators (cs : List Char) : Bool :=
  ['-', '-', '-'].isPrefixOf cs || ['.', '.', '.'].isPrefixOf cs ||
    match cs with
    | [] => false
    | c :: rest =>
      leadingIndicators.contains c ||
        ((c == '?' || c == ':' || c == '-') && endsWord rest) || endsPlainAfter c rest

/-- Whether two neighbouring characters are such ones. -/
def anyPair (p q : Char → Bool) : List Char → Bool
  | c :: d :: rest => (p c && q d) || anyPair p q (d :: rest)
  | _ => false

/-- How a scalar is written. -/
inductive ScalarStyle where
  | plain
  | singleQuoted
  | doubleQuoted
  | block
  deriving DecidableEq, Repr

/-- Whether some character of a scalar must be escaped, leaving tabs aside. -/
def hasUnwritable (cs : List Char) : Bool := cs.any fun c => c != '\t' && !isWritable c

/-- Whether a space stands before the end of a line. -/
def hasTrailingSpace (cs : List Char) : Bool := anyPair (· == ' ') endsLine cs

/-- Whether a scalar can be written between single quotes. -/
def allowsSingleQuotes (cs : List Char) : Bool :=
  !hasUnwritable cs && !cs.contains '\t' && !hasTrailingSpace cs && !anyPair endsLine (· == ' ') cs

/-- Whether a scalar can be written without quotes. -/
def allowsPlain (cs : List Char) : Bool :=
  let outer (c : Option Char) : Bool := c.any fun c => c == ' ' || endsLine c
  allowsSingleQuotes cs && !outer cs.head? && !outer cs.getLast? && !cs.any endsLine &&
    !hasIndicators cs

/-- Whether a scalar can be written as a block. -/
def allowsBlock (cs : List Char) : Bool :=
  !cs.isEmpty && cs.getLast? != some ' ' && !hasTrailingSpace cs && !hasUnwritable cs

/-- How a text is written. -/
def styleOf (t : Text) : ScalarStyle :=
  let cs := t.chars
  if cs.contains '\n' then
    if allowsBlock cs then .block else .doubleQuoted
  else if isPlainText t then
    if allowsPlain cs then .plain
    else if allowsSingleQuotes cs then .singleQuoted
    else .doubleQuoted
  else .doubleQuoted

/-- The letter of a short escape, where a character has one. -/
def escapeLetter? (c : Char) : Option Char :=
  match c.toNat with
  | 0x00 => some '0'
  | 0x07 => some 'a'
  | 0x08 => some 'b'
  | 0x09 => some 't'
  | 0x0A => some 'n'
  | 0x0B => some 'v'
  | 0x0C => some 'f'
  | 0x0D => some 'r'
  | 0x1B => some 'e'
  | 0x22 => some '"'
  | 0x5C => some '\\'
  | 0x85 => some 'N'
  | 0xA0 => some '_'
  | 0x2028 => some 'L'
  | 0x2029 => some 'P'
  | _ => none

/-- Upper-case hexadecimal digits. -/
def upperHex (width n : Nat) : Text :=
  (Text.hex width n).map fun b => if 0x61 ≤ b && b ≤ 0x66 then b - 0x20 else b

/-- A character as an escape. -/
def scalarEscape (c : Char) : Text :=
  match escapeLetter? c with
  | some letter => "\\" ++ Text.ofChar letter
  | none =>
    if c.toNat ≤ 0xFF then "\\x" ++ upperHex 2 c.toNat
    else if c.toNat ≤ 0xFFFF then "\\u" ++ upperHex 4 c.toNat
    else "\\U" ++ upperHex 8 c.toNat

/-- A character between double quotes. -/
def doubleQuotedChar (c : Char) : Text :=
  if isWritable c && !endsLine c && c != '"' && c != '\\' then Text.ofChar c else scalarEscape c

/-- Characters between double quotes. After a byte order mark at the beginning
every character is escaped. -/
def doubleQuotedChars (cs : List Char) : Text :=
  cs.flatMap (if cs.head? == some byteOrderMark then scalarEscape else doubleQuotedChar)

/-- Characters between single quotes: a quote is written twice, and after the
end of a line comes the indentation. -/
def singleQuotedChars (indent : Text) : (afterBreak : Bool) → List Char → Text
  | _, [] => []
  | afterBreak, c :: rest =>
    if endsLine c then Text.ofChar c ++ singleQuotedChars indent true rest
    else
      let lead : Text := if afterBreak && c != ' ' then indent else []
      let shown : Text := if c == '\'' then "''" else Text.ofChar c
      lead ++ shown ++ singleQuotedChars indent (afterBreak && c == ' ') rest

/-- Characters of a block: the indentation comes before every line that is not
empty. -/
def blockChars (indent : Text) : (afterBreak : Bool) → List Char → Text
  | _, [] => []
  | afterBreak, c :: rest =>
    if endsLine c then Text.ofChar c ++ blockChars indent true rest
    else
      let lead : Text := if afterBreak then indent else []
      lead ++ Text.ofChar c ++ blockChars indent false rest

/-- What follows the sign of a block: the indentation where it cannot be seen,
and how the text ends. -/
def blockHints (cs : List Char) : Text :=
  let indentation : Text :=
    if cs.head?.any fun c => c == ' ' || endsLine c then "4" else []
  let ending : Text :=
    match cs.reverse with
    | [] => "-"
    | last :: before =>
      if !endsLine last then "-"
      else if before.head?.all endsLine then "+"
      else []
  indentation ++ ending

/-- Whether a text is written in such a way that its last line is ended already. -/
def endsItsLine (t : Text) : Bool := styleOf t = .block && t.chars.getLast?.any endsLine

/-- A text as a scalar whose further lines are indented by `indent` spaces. -/
def written (indent : Nat) (t : Text) : Text :=
  let cs := t.chars
  let margin : Text := List.replicate indent (Text.byte ' ')
  match styleOf t with
  | .plain => t
  | .singleQuoted => "'" ++ singleQuotedChars margin false cs ++ "'"
  | .doubleQuoted => "\"" ++ doubleQuotedChars cs ++ "\""
  | .block =>
    let body : Text :=
      if cs.head?.any endsLine then blockChars margin true cs
      else "\n" ++ blockChars margin true cs
    "|" ++ blockHints cs ++ body

end Polarity.Yaml

import Polarity.Text.Utf8
import Polarity.Text.Printable

/-!
# Quoted texts

A text between double quotes: printable characters stand for themselves, and all
others are escaped, so that the result is one line of printable UTF-8.
-/

namespace Polarity

/-- The one-letter escape of a control character, where it has one. -/
def controlLetter (c : Char) : Option Char :=
  match c.toNat with
  | 0x07 => some 'a'
  | 0x08 => some 'b'
  | 0x0C => some 'f'
  | 0x0A => some 'n'
  | 0x0D => some 'r'
  | 0x09 => some 't'
  | 0x0B => some 'v'
  | _ => none

/-- The escape of a character that is not shown as itself: its letter, two
digits below U+0080, else four or eight. -/
def escapedChar (c : Char) : Text :=
  match controlLetter c with
  | some letter => "\\" ++ Text.ofChar letter
  | none =>
    if c.toNat < 0x80 then "\\x" ++ Text.hex 2 c.toNat
    else if c.toNat < 0x10000 then "\\u" ++ Text.hex 4 c.toNat
    else "\\U" ++ Text.hex 8 c.toNat

/-- A piece inside double quotes. -/
def quotedPiece (p : Piece) : Text :=
  match p.char with
  | none => p.bytes.flatMap fun b => "\\x" ++ Text.hex 2 b.toNat
  | some c =>
    if c = '"' ∨ c = '\\' then "\\" ++ p.bytes
    else if isPrintable c then p.bytes
    else escapedChar c

/-- The text between double quotes, with everything unprintable escaped. -/
def Text.quoted (t : Text) : Text :=
  "\"" ++ (Piece.split t).flatMap quotedPiece ++ "\""

end Polarity

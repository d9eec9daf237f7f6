import Polarity.Text.Utf8

/-!
# The characters of a YAML text

A text is in UTF-8, or in UTF-16 if it begins with the mark of that encoding. It
is taken in portions of some hundred bytes, and only as far as it is needed: what
is wrong with a later portion does not matter before that portion is taken.

* `Supply.of`: the characters of a text, and how they fall into portions.
-/

namespace Polarity.Yaml

/-- The mark that may stand at the beginning of a text. -/
def byteOrderMark : Char := '\uFEFF'

/-- Whether a character may stand in a text. -/
def isAllowed (c : Char) : Bool :=
  let n := c.toNat
  n == 0x09 || n == 0x0A || n == 0x0D || (0x20 ≤ n && n ≤ 0x7E) || n == 0x85 ||
    (0xA0 ≤ n && n ≤ 0xD7FF) || (0xE000 ≤ n && n ≤ 0xFFFD) || 0x10000 ≤ n

/-- How characters are written in bytes. -/
inductive Encoding where
  | utf8
  | utf16 (bigEndian : Bool)
  deriving DecidableEq, Repr

/-- What some bytes begin with. -/
inductive Beginning where
  /-- A character, with the number of its bytes. -/
  | char (c : Char) (size : Nat)
  /-- A character of which bytes are missing. -/
  | incomplete
  /-- Nothing that is a character. -/
  | wrong
  deriving DecidableEq, Repr

namespace Encoding

/-- The mark of an encoding at the beginning of a text, and how long it is. -/
def ofMark : Text → Encoding × Nat
  | 0xFF :: 0xFE :: _ => (.utf16 false, 2)
  | 0xFE :: 0xFF :: _ => (.utf16 true, 2)
  | 0xEF :: 0xBB :: 0xBF :: _ => (.utf8, 3)
  | _ => (.utf8, 0)

/-- The number of bytes that a character in UTF-8 has, by its first byte. -/
def size? (b : UInt8) : Option Nat :=
  if b < 0x80 then some 1
  else if 0xC0 ≤ b && b < 0xE0 then some 2
  else if 0xE0 ≤ b && b < 0xF0 then some 3
  else if 0xF0 ≤ b && b < 0xF8 then some 4
  else none

/-- What some bytes begin with in UTF-8. -/
def utf8Beginning (b : UInt8) (rest : Text) : Beginning :=
  match size? b with
  | none => .wrong
  | some size =>
    if (rest.take 3).length + 1 < size then .incomplete
    else
      match Piece.first b rest with
      | some (c, _) => .char c size
      | none => .wrong

/-- A unit of 16 bits from its two bytes. -/
def unit (bigEndian : Bool) (a b : UInt8) : Nat :=
  if bigEndian then a.toNat * 256 + b.toNat else b.toNat * 256 + a.toNat

/-- What some bytes begin with in UTF-16. -/
def utf16Beginning (bigEndian : Bool) : Text → Beginning
  | a :: b :: rest =>
    let u := unit bigEndian a b
    if 0xDC00 ≤ u && u ≤ 0xDFFF then .wrong
    else if 0xD800 ≤ u && u ≤ 0xDBFF then
      match rest with
      | c :: d :: _ =>
        let v := unit bigEndian c d
        if 0xDC00 ≤ v && v ≤ 0xDFFF then
          .char (Char.ofNat (0x10000 + (u - 0xD800) * 0x400 + (v - 0xDC00))) 4
        else .wrong
      | _ => .incomplete
    else .char (Char.ofNat u) 2
  | _ => .incomplete

/-- What some bytes begin with. -/
def beginning (e : Encoding) : Text → Beginning
  | [] => .incomplete
  | b :: rest =>
    match e with
    | .utf8 => utf8Beginning b rest
    | .utf16 bigEndian => utf16Beginning bigEndian (b :: rest)

/-- The characters of some bytes, and how many bytes they have, up to a character
of which bytes are missing; `none` when one is wrong. -/
def chars (e : Encoding) : (skipped : Nat) → Text → Option (List Char × Nat)
  | _, [] => some ([], 0)
  | skipped + 1, _ :: rest => chars e skipped rest
  | 0, b :: rest =>
    match e.beginning (b :: rest) with
    | .incomplete => some ([], 0)
    | .wrong => none
    | .char c size =>
      if isAllowed c then
        (chars e (size - 1) rest).map fun (cs, bytes) => (c :: cs, size + bytes)
      else none

end Encoding

/-- The number of bytes that are taken at a time. -/
def portionSize : Nat := 512

/-- The characters of a text from some place on, and the number of characters in
each portion; `none` stands for a portion that cannot be taken. A text that ends in
a part of a character ends in such a portion. -/
def portionsFrom (e : Encoding) : (fuel : Nat) → (mark : Nat) → Text → List Char × List (Option Nat)
  | 0, _, _ => ([], [])
  | _ + 1, _, [] => ([], [])
  | fuel + 1, mark, t =>
    match e.chars 0 ((t.take portionSize).drop mark) with
    | none => ([], [none])
    | some ([], _) => if (t.drop mark).isEmpty then ([], []) else ([], [none])
    | some (cs, bytes) =>
      let (later, sizes) := portionsFrom e fuel 0 (t.drop (mark + bytes))
      (cs ++ later, some cs.length :: sizes)

/-- The characters with a line feed for each carriage return, which is only left
where it stands for itself and the line feed after it. -/
def unifyLines : List Char → List Char
  | [] => []
  | '\r' :: '\n' :: rest => '\r' :: unifyLines rest
  | c :: rest => (if c == '\r' then '\n' else c) :: unifyLines rest

/-- A text that is yet to be read: the characters that can be had, and the portions
in which they come. -/
structure Supply where
  chars : List Char
  portions : List (Option Nat)

/-- The characters of a text and their portions. -/
def Supply.of (t : Text) : Supply :=
  let (e, mark) := Encoding.ofMark t
  let (cs, portions) := portionsFrom e (t.length + 1) mark t
  ⟨unifyLines cs, portions⟩

end Polarity.Yaml

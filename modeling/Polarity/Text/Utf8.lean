import Polarity.Text

/-!
# Characters of a text

A text falls into *pieces* from left to right: a piece is one well-formed UTF-8
character, or a single byte where none can be read.

* `Piece.split`: the pieces of a text;
* `bytes_split`: the pieces cover the text and nothing else.
-/

namespace Polarity

/-- One character of a text with its bytes, or a byte that begins no character. -/
structure Piece where
  /-- The character, or `none` where the text is not UTF-8. -/
  char : Option Char
  /-- The bytes the piece stands for. -/
  bytes : Text
  deriving DecidableEq, Repr

namespace Piece

/-- The least second byte that may follow the first byte `b` of a character. -/
def lowestSecond (b : UInt8) : UInt8 :=
  if b = 0xE0 then 0xA0 else if b = 0xF0 then 0x90 else 0x80

/-- The greatest second byte that may follow the first byte `b` of a character. -/
def highestSecond (b : UInt8) : UInt8 :=
  if b = 0xED then 0x9F else if b = 0xF4 then 0x8F else 0xBF

/-- Whether `c` may be the second byte after `b`. -/
def isSecond (b c : UInt8) : Bool := lowestSecond b ≤ c && c ≤ highestSecond b

/-- Whether `c` may be a third or fourth byte. -/
def isLater (c : UInt8) : Bool := 0x80 ≤ c && c ≤ 0xBF

/-- The six bits a byte after the first one carries. -/
def bits (c : UInt8) : Nat := c.toNat - 0x80

/-- The character that begins with the byte `b` followed by `rest`, and how
many bytes of `rest` belong to it. -/
def first (b : UInt8) (rest : Text) : Option (Char × Nat) :=
  if b < 0x80 then some (Char.ofNat b.toNat, 0)
  else if 0xC2 ≤ b && b ≤ 0xDF then
    match rest with
    | c :: _ =>
      if isSecond b c then some (Char.ofNat ((b.toNat - 0xC0) * 64 + bits c), 1) else none
    | [] => none
  else if 0xE0 ≤ b && b ≤ 0xEF then
    match rest with
    | c :: d :: _ =>
      if isSecond b c && isLater d then
        some (Char.ofNat (((b.toNat - 0xE0) * 64 + bits c) * 64 + bits d), 2)
      else none
    | _ => none
  else if 0xF0 ≤ b && b ≤ 0xF4 then
    match rest with
    | c :: d :: e :: _ =>
      if isSecond b c && isLater d && isLater e then
        some (Char.ofNat ((((b.toNat - 0xF0) * 64 + bits c) * 64 + bits d) * 64 + bits e), 3)
      else none
    | _ => none
  else none

/-- The piece that begins with the byte `b` followed by `rest`, and how many
bytes of `rest` belong to it. -/
def next (b : UInt8) (rest : Text) : Piece × Nat :=
  match first b rest with
  | some (c, more) => (⟨some c, b :: rest.take more⟩, more)
  | none => (⟨none, [b]⟩, 0)

/-- The pieces of a text after its first `skipped` bytes. -/
def splitAfter : (skipped : Nat) → Text → List Piece
  | _, [] => []
  | 0, b :: rest => (next b rest).1 :: splitAfter (next b rest).2 rest
  | skipped + 1, _ :: rest => splitAfter skipped rest

/-- The pieces of a text, from left to right. -/
def split (t : Text) : List Piece := splitAfter 0 t

/-- The text the pieces stand for. -/
def join (pieces : List Piece) : Text := pieces.flatMap bytes

theorem first_le {b : UInt8} {rest : Text} {c : Char} {more : Nat}
    (h : first b rest = some (c, more)) : more ≤ rest.length := by
  unfold first at h
  repeat' split at h
  all_goals simp_all
  all_goals omega

theorem next_bytes (b : UInt8) (rest : Text) :
    (next b rest).1.bytes ++ rest.drop (next b rest).2 = b :: rest := by
  unfold next
  split <;> simp

theorem splitAfter_drop (n : Nat) (t : Text) : splitAfter n t = split (t.drop n) := by
  induction t generalizing n with
  | nil => simp [split, splitAfter]
  | cons b rest ih => cases n with
    | zero => rfl
    | succ n => simpa [splitAfter] using ih n

theorem split_cons (b : UInt8) (rest : Text) :
    split (b :: rest) = (next b rest).1 :: split (rest.drop (next b rest).2) := by
  rw [← splitAfter_drop]; rfl

/-- The pieces of a text cover it. -/
theorem bytes_split (t : Text) : join (split t) = t := by
  induction h : t.length using Nat.strongRecOn generalizing t with
  | ind n ih => cases t with
    | nil => rfl
    | cons b rest =>
      have shorter : (rest.drop (next b rest).2).length < n := by
        simp only [List.length_drop, List.length_cons] at h ⊢; omega
      rw [split_cons, join, List.flatMap_cons, ← join, ih _ shorter _ rfl, next_bytes]

end Piece

/-- Whether every byte of the text belongs to a well-formed character. -/
def Text.isUtf8 (t : Text) : Bool := (Piece.split t).all (·.char.isSome)

/-- The characters of the text, with the replacement character U+FFFD for each
byte that belongs to none. -/
def Text.chars (t : Text) : List Char := (Piece.split t).map (·.char.getD '\uFFFD')

end Polarity

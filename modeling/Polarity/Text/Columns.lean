import Polarity.Text.Grapheme

/-!
# Columns of a terminal

How many columns a line takes up in a terminal. The codes that control the
terminal take up none; a cluster of characters takes up as many as its first
character, and more where parts of it stand beside each other.

* `EscapeState.next`: where a terminal is within a code, byte by byte;
* `Text.columns`: the columns of a line.
-/

namespace Polarity

/-- Characters that take up two columns. -/
def wideRanges : List (Nat × Nat) := [
  (0x1100, 0x115F), (0x231A, 0x231B), (0x2329, 0x232A), (0x23E9, 0x23EC), (0x23F0, 0x23F0),
   (0x23F3, 0x23F3), (0x25FD, 0x25FE), (0x2614, 0x2615), (0x2648, 0x2653), (0x267F, 0x267F),
   (0x2693, 0x2693), (0x26A1, 0x26A1), (0x26AA, 0x26AB), (0x26BD, 0x26BE), (0x26C4, 0x26C5),
   (0x26CE, 0x26CE), (0x26D4, 0x26D4), (0x26EA, 0x26EA), (0x26F2, 0x26F3), (0x26F5, 0x26F5),
   (0x26FA, 0x26FA), (0x26FD, 0x26FD), (0x2705, 0x2705), (0x270A, 0x270B), (0x2728, 0x2728),
   (0x274C, 0x274C), (0x274E, 0x274E), (0x2753, 0x2755), (0x2757, 0x2757), (0x2795, 0x2797),
   (0x27B0, 0x27B0), (0x27BF, 0x27BF), (0x2B1B, 0x2B1C), (0x2B50, 0x2B50), (0x2B55, 0x2B55),
   (0x2E80, 0x2E99), (0x2E9B, 0x2EF3), (0x2F00, 0x2FD5), (0x2FF0, 0x2FFB), (0x3000, 0x303E),
   (0x3041, 0x3096), (0x3099, 0x30FF), (0x3105, 0x312F), (0x3131, 0x318E), (0x3190, 0x31E3),
   (0x31F0, 0x321E), (0x3220, 0x3247), (0x3250, 0x4DBF), (0x4E00, 0xA48C), (0xA490, 0xA4C6),
   (0xA960, 0xA97C), (0xAC00, 0xD7A3), (0xF900, 0xFAFF), (0xFE10, 0xFE19), (0xFE30, 0xFE52),
   (0xFE54, 0xFE66), (0xFE68, 0xFE6B), (0xFF01, 0xFF60), (0xFFE0, 0xFFE6), (0x16FE0, 0x16FE4),
   (0x16FF0, 0x16FF1), (0x17000, 0x187F7), (0x18800, 0x18CD5), (0x18D00, 0x18D08),
   (0x1AFF0, 0x1AFF3), (0x1AFF5, 0x1AFFB), (0x1AFFD, 0x1AFFE), (0x1B000, 0x1B122),
   (0x1B132, 0x1B132), (0x1B150, 0x1B152), (0x1B155, 0x1B155), (0x1B164, 0x1B167),
   (0x1B170, 0x1B2FB), (0x1F004, 0x1F004), (0x1F0CF, 0x1F0CF), (0x1F18E, 0x1F18E),
   (0x1F191, 0x1F19A), (0x1F200, 0x1F202), (0x1F210, 0x1F23B), (0x1F240, 0x1F248),
   (0x1F250, 0x1F251), (0x1F260, 0x1F265), (0x1F300, 0x1F320), (0x1F32D, 0x1F335),
   (0x1F337, 0x1F37C), (0x1F37E, 0x1F393), (0x1F3A0, 0x1F3CA), (0x1F3CF, 0x1F3D3),
   (0x1F3E0, 0x1F3F0), (0x1F3F4, 0x1F3F4), (0x1F3F8, 0x1F43E), (0x1F440, 0x1F440),
   (0x1F442, 0x1F4FC), (0x1F4FF, 0x1F53D), (0x1F54B, 0x1F54E), (0x1F550, 0x1F567),
   (0x1F57A, 0x1F57A), (0x1F595, 0x1F596), (0x1F5A4, 0x1F5A4), (0x1F5FB, 0x1F64F),
   (0x1F680, 0x1F6C5), (0x1F6CC, 0x1F6CC), (0x1F6D0, 0x1F6D2), (0x1F6D5, 0x1F6D7),
   (0x1F6DC, 0x1F6DF), (0x1F6EB, 0x1F6EC), (0x1F6F4, 0x1F6FC), (0x1F7E0, 0x1F7EB),
   (0x1F7F0, 0x1F7F0), (0x1F90C, 0x1F93A), (0x1F93C, 0x1F945), (0x1F947, 0x1F9FF),
   (0x1FA70, 0x1FA7C), (0x1FA80, 0x1FA88), (0x1FA90, 0x1FABD), (0x1FABF, 0x1FAC5),
   (0x1FACE, 0x1FADB), (0x1FAE0, 0x1FAE8), (0x1FAF0, 0x1FAF8), (0x20000, 0x2FFFD),
   (0x30000, 0x3FFFD)
  ]

/-- Pictures that are shown in colour by themselves. -/
def colouredRanges : List (Nat × Nat) := [
  (0x231A, 0x231B), (0x23E9, 0x23EC), (0x23F0, 0x23F0), (0x23F3, 0x23F3), (0x25FD, 0x25FE),
   (0x2614, 0x2615), (0x2648, 0x2653), (0x267F, 0x267F), (0x2693, 0x2693), (0x26A1, 0x26A1),
   (0x26AA, 0x26AB), (0x26BD, 0x26BE), (0x26C4, 0x26C5), (0x26CE, 0x26CE), (0x26D4, 0x26D4),
   (0x26EA, 0x26EA), (0x26F2, 0x26F3), (0x26F5, 0x26F5), (0x26FA, 0x26FA), (0x26FD, 0x26FD),
   (0x2705, 0x2705), (0x270A, 0x270B), (0x2728, 0x2728), (0x274C, 0x274C), (0x274E, 0x274E),
   (0x2753, 0x2755), (0x2757, 0x2757), (0x2795, 0x2797), (0x27B0, 0x27B0), (0x27BF, 0x27BF),
   (0x2B1B, 0x2B1C), (0x2B50, 0x2B50), (0x2B55, 0x2B55), (0x1F004, 0x1F004), (0x1F0CF, 0x1F0CF),
   (0x1F18E, 0x1F18E), (0x1F191, 0x1F19A), (0x1F1E6, 0x1F1FF), (0x1F201, 0x1F201),
   (0x1F21A, 0x1F21A), (0x1F22F, 0x1F22F), (0x1F232, 0x1F236), (0x1F238, 0x1F23A),
   (0x1F250, 0x1F251), (0x1F300, 0x1F320), (0x1F32D, 0x1F335), (0x1F337, 0x1F37C),
   (0x1F37E, 0x1F393), (0x1F3A0, 0x1F3CA), (0x1F3CF, 0x1F3D3), (0x1F3E0, 0x1F3F0),
   (0x1F3F4, 0x1F3F4), (0x1F3F8, 0x1F43E), (0x1F440, 0x1F440), (0x1F442, 0x1F4FC),
   (0x1F4FF, 0x1F53D), (0x1F54B, 0x1F54E), (0x1F550, 0x1F567), (0x1F57A, 0x1F57A),
   (0x1F595, 0x1F596), (0x1F5A4, 0x1F5A4), (0x1F5FB, 0x1F64F), (0x1F680, 0x1F6C5),
   (0x1F6CC, 0x1F6CC), (0x1F6D0, 0x1F6D2), (0x1F6D5, 0x1F6D7), (0x1F6DC, 0x1F6DF),
   (0x1F6EB, 0x1F6EC), (0x1F6F4, 0x1F6FC), (0x1F7E0, 0x1F7EB), (0x1F7F0, 0x1F7F0),
   (0x1F90C, 0x1F93A), (0x1F93C, 0x1F945), (0x1F947, 0x1F9FF), (0x1FA70, 0x1FA7C),
   (0x1FA80, 0x1FA88), (0x1FA90, 0x1FABD), (0x1FABF, 0x1FAC5), (0x1FACE, 0x1FADB),
   (0x1FAE0, 0x1FAE8), (0x1FAF0, 0x1FAF8)
  ]

/-- The columns of a character of a class. -/
def charColumns (c : Char) (part : GraphemeClass) : Nat :=
  match part with
  | .control | .carriageReturn | .lineFeed | .extending | .joiner => 0
  | .flagLetter => 2
  | .picture => if inRanges colouredRanges c.toNat then 2 else 1
  | _ =>
    if c.toNat == 0x2E3A then 3
    else if c.toNat == 0x2E3B then 4
    else if inRanges wideRanges c.toNat then 2
    else 1

/-- The columns of a cluster after one more character. A picture has one column
as text and two in colour; flags and syllables do not grow. -/
def grownColumns (first : GraphemeClass) (columns : Nat) (c : Char) : Nat :=
  match first with
  | .picture => if c == '\uFE0E' then 1 else if c == '\uFE0F' then 2 else columns
  | .flagLetter | .initial => columns
  | _ => columns + charColumns c (.of c)

/-- The columns and the bytes of a cluster that goes on with these pieces. -/
def clusterFrom (first : GraphemeClass) : ClusterState → (columns bytes : Nat) → List Piece → Nat × Nat
  | _, columns, bytes, [] => (columns, bytes)
  | s, columns, bytes, p :: rest =>
    let c := p.char.getD '\uFFFD'
    if s.joins (.of c) then
      clusterFrom first (s.next (.of c)) (grownColumns first columns c) (bytes + p.bytes.length) rest
    else (columns, bytes)

/-- The columns and the bytes of the first cluster of some pieces. -/
def firstCluster : List Piece → Nat × Nat
  | [] => (0, 0)
  | p :: rest =>
    let c := p.char.getD '\uFFFD'
    let first := GraphemeClass.of c
    clusterFrom first (.start first) (charColumns c first) p.bytes.length rest

/-- Where a terminal is within a code that controls it. -/
inductive EscapeState where
  /-- In the open, where bytes are shown. -/
  | ground
  | escape
  | escapeIntermediate
  /-- In a control sequence. -/
  | sequence
  | sequenceParameter
  | sequenceIntermediate
  /-- In a device control string. -/
  | device
  | deviceParameter
  | deviceIntermediate
  | deviceString
  /-- In a command for the system around. -/
  | command
  /-- In a string that is passed over. -/
  | ignored
  deriving DecidableEq, Repr

namespace EscapeState

/-- Whether a byte is a control character that ends nothing. -/
def isHarmless (b : UInt8) : Bool := b < 0x20 && b != 0x18 && b != 0x1A && b != 0x1B

/-- Whether a byte lies in a range, both ends included. -/
def within (low high b : UInt8) : Bool := low ≤ b && b ≤ high

/-- Where a byte leads that means the same everywhere. -/
def anywhere (b : UInt8) : EscapeState :=
  if b = 0x1B then .escape
  else if b = 0x98 || b = 0x9E || b = 0x9F then .ignored
  else if b = 0x9B then .sequence
  else if b = 0x90 then .device
  else if b = 0x9D then .command
  else .ground

/-- Where a byte leads that ends a string, or not. -/
def inString (s : EscapeState) (b : UInt8) : EscapeState :=
  if b = 0x1B then .escape
  else if b = 0x9C || b = 0x18 || b = 0x1A then .ground
  else s

/-- Where an ASCII byte leads after an escape character. -/
def afterEscape (b : UInt8) : EscapeState :=
  if isHarmless b || b = 0x7F then .escape
  else if within 0x20 0x2F b then .escapeIntermediate
  else if b = Text.byte '[' then .sequence
  else if b = Text.byte ']' then .command
  else if b = Text.byte 'P' then .device
  else if b = Text.byte 'X' || b = Text.byte '^' || b = Text.byte '_' then .ignored
  else .ground

/-- Where a byte leads. -/
def next (s : EscapeState) (b : UInt8) : EscapeState :=
  match s with
  | .command => if b = 0x07 then .ground else inString s b
  | .deviceString => inString s b
  | .ignored => if b < 0x80 || b = 0x9C then inString s b else anywhere b
  | .device =>
    if 0x80 ≤ b || b = 0x18 || b = 0x1A then anywhere b
    else if b = 0x1B || within 0x08 0x0D b || within 0x40 0x7E b then .deviceString
    else if within 0x20 0x2F b then .deviceIntermediate
    else if within 0x30 0x3F b then .deviceParameter
    else s
  | s =>
    if 0x80 ≤ b || b = 0x18 || b = 0x1A || b = 0x1B then anywhere b
    else
      match s with
      | .escape => afterEscape b
      | .escapeIntermediate => if within 0x30 0x7E b then .ground else s
      | .sequence =>
        if within 0x40 0x7E b then .ground
        else if within 0x20 0x2F b then .sequenceIntermediate
        else if within 0x30 0x3F b then .sequenceParameter
        else s
      | .sequenceParameter =>
        if within 0x40 0x7E b then .ground
        else if within 0x20 0x2F b then .sequenceIntermediate
        else s
      | .sequenceIntermediate => if within 0x30 0x7E b then .ground else s
      | .deviceParameter =>
        if within 0x40 0x7E b then .deviceString
        else if within 0x20 0x2F b then .deviceIntermediate
        else s
      | .deviceIntermediate => if within 0x30 0x7E b then .deviceString else s
      | s => s

/-- Whether a byte begins a character here, and not a part of a string. -/
def beginsCharacter (s : EscapeState) (b : UInt8) : Bool :=
  within 0xC2 0xF4 b && s != .command && s != .deviceString

/-- Whether a byte is shown as a character of its own. -/
def shows (s : EscapeState) (b : UInt8) : Bool := s = .ground && within 0x20 0x7E b

end EscapeState

namespace Text

/-- The columns of a line after its first `skipped` bytes. -/
def columnsFrom : (skipped : Nat) → EscapeState → Text → Nat
  | _, _, [] => 0
  | skipped + 1, s, _ :: rest => columnsFrom skipped s rest
  | 0, s, b :: rest =>
    if s.beginsCharacter b then
      let (columns, bytes) := firstCluster (Piece.split (b :: rest))
      columns + columnsFrom (bytes - 1) .ground rest
    else (if s.shows b then 1 else 0) + columnsFrom 0 (s.next b) rest

/-- The columns that a line takes up in a terminal. -/
def columns (t : Text) : Nat := columnsFrom 0 .ground t

end Text

end Polarity

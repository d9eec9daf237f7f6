import Polarity.Text

/-!
# Base 64

Bytes written with 64 characters, four for every three bytes. What is missing to
four in the end is filled up with `=`, and line ends may stand anywhere.

* `Base64.decode?`: the bytes that a text stands for.
-/

namespace Polarity

namespace Base64

/-- The value of a character. -/
def value? (b : UInt8) : Option Nat :=
  if 0x41 ≤ b && b ≤ 0x5A then some (b.toNat - 0x41)
  else if 0x61 ≤ b && b ≤ 0x7A then some (b.toNat - 0x61 + 26)
  else if 0x30 ≤ b && b ≤ 0x39 then some (b.toNat - 0x30 + 52)
  else if b = Text.byte '+' then some 62
  else if b = Text.byte '/' then some 63
  else none

/-- The bytes that four characters stand for. Bits that are left over do not count. -/
def group? (a b c d : UInt8) : Option Text := do
  let high := (← value? a) * 64 + (← value? b)
  if d = Text.byte '=' then
    if c = Text.byte '=' then return [(high / 16).toUInt8]
    let middle := high * 64 + (← value? c)
    return [(middle / 1024).toUInt8, (middle / 4).toUInt8]
  else
    let all := (high * 64 + (← value? c)) * 64 + (← value? d)
    return [(all / 65536).toUInt8, (all / 256).toUInt8, all.toUInt8]

/-- The bytes that groups of four characters stand for. Only the last group may be
filled up. -/
def groups? : Text → Option Text
  | [] => some []
  | a :: b :: c :: d :: rest => do
    let bytes ← group? a b c d
    if d = Text.byte '=' && !rest.isEmpty then none
    return bytes ++ (← groups? rest)
  | _ => none

/-- The bytes that a text stands for. -/
def decode? (t : Text) : Option Text :=
  groups? (t.filter fun b => b != Text.byte '\n' && b != Text.byte '\r')

end Base64

end Polarity

import Polarity.Text

/-!
# Reading integers

Integers of 64 bits, with an optional sign, in a given base or in the base that
their beginning tells: `0x`, `0o` and `0b`, a leading `0` for octal, else decimal.
Where the base is told by the beginning, single underscores may separate digits.
-/

namespace Polarity

/-- Why a text is no integer. -/
inductive IntegerFault where
  /-- It is not written as one. -/
  | form
  /-- It does not fit into 64 bits. -/
  | range
  deriving DecidableEq, Repr

namespace Integer

/-- The number of natural numbers that 64 bits can tell apart. -/
def words : Nat := 0x10000000000000000

/-- The number of those that leave room for a sign. -/
def positives : Nat := 0x8000000000000000

/-- A byte as an ASCII letter in lower case. -/
def lower (b : UInt8) : UInt8 := if 0x41 ≤ b && b ≤ 0x5A then b + 0x20 else b

/-- The value of a digit, letters counting from ten. -/
def digit? (b : UInt8) : Option Nat :=
  let c := lower b
  if 0x30 ≤ c && c ≤ 0x39 then some (c.toNat - 0x30)
  else if 0x61 ≤ c && c ≤ 0x7A then some (c.toNat - 0x61 + 10)
  else none

/-- Reads digits after those that make `n`, up to the first one that is wrong or
makes the number too large. -/
def digits (base : Nat) (underscores : Bool) : (n : Nat) → Text → Except IntegerFault Nat
  | n, [] => .ok n
  | n, b :: rest =>
    if underscores && b == Text.byte '_' then digits base underscores n rest
    else
      match digit? b with
      | none => .error .form
      | some d =>
        if base ≤ d then .error .form
        else if words ≤ n * base + d then .error .range
        else digits base underscores (n * base + d) rest

/-- Splits what tells the base from the digits. -/
def base (t : Text) : Nat × Text :=
  match t with
  | 0x30 :: b :: c :: rest =>
    if lower b = Text.byte 'b' then (2, c :: rest)
    else if lower b = Text.byte 'o' then (8, c :: rest)
    else if lower b = Text.byte 'x' then (16, c :: rest)
    else (8, b :: c :: rest)
  | 0x30 :: rest => (8, rest)
  | t => (10, t)

/-- Whether every underscore stands between two digits, when the last byte
before was a digit or an underscore. -/
def separatesFrom (hex : Bool) : (afterDigit afterUnderscore : Bool) → Text → Bool
  | _, afterUnderscore, [] => !afterUnderscore
  | afterDigit, afterUnderscore, b :: rest =>
    if (0x30 ≤ b && b ≤ 0x39) || (hex && 0x61 ≤ lower b && lower b ≤ 0x66) then
      separatesFrom hex true false rest
    else if b = Text.byte '_' then afterDigit && separatesFrom hex false true rest
    else !afterUnderscore && separatesFrom hex false false rest

/-- Whether underscores only separate digits. What tells the base counts as a
digit. -/
def separates (t : Text) : Bool :=
  match t with
  | 0x30 :: b :: rest =>
    if lower b = Text.byte 'b' || lower b = Text.byte 'o' || lower b = Text.byte 'x' then
      separatesFrom (lower b == Text.byte 'x') true false rest
    else separatesFrom false false false t
  | t => separatesFrom false false false t

/-- Reads a natural number below 2^64 in the base that its beginning tells. -/
def readNat (t : Text) : Except IntegerFault Nat :=
  if t.isEmpty then .error .form
  else
    match digits (base t).1 true 0 (base t).2 with
    | .ok n => if separates t then .ok n else .error .form
    | .error e => .error e

/-- Reads a natural number below 2^64 in a base. -/
def readNatIn (base : Nat) (t : Text) : Except IntegerFault Nat :=
  if t.isEmpty then .error .form else digits base false 0 t

/-- Reads an optional sign and then a number, which must fit into 64 bits. -/
def signed (read : Text → Except IntegerFault Nat) (t : Text) : Except IntegerFault Int :=
  match t with
  | 0x2D :: rest => do
    let n ← read rest
    if n ≤ positives then .ok (-n) else .error .range
  | 0x2B :: rest => do
    let n ← read rest
    if n < positives then .ok n else .error .range
  | t => do
    let n ← read t
    if n < positives then .ok n else .error .range

/-- Reads an integer in the base that its beginning tells. -/
def read (t : Text) : Except IntegerFault Int := signed readNat t

/-- Reads an integer in a base. -/
def readIn (base : Nat) (t : Text) : Except IntegerFault Int := signed (readNatIn base) t

end Integer

end Polarity

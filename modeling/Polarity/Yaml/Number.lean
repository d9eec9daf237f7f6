import Polarity.Text.Integer

/-!
# Numbers in YAML

A plain scalar may be written as an integer or as a decimal fraction. A fraction
stands for the nearest number with a binary mantissa of 53 digits.

* `Binary.nearest?`: the nearest such number to a quotient;
* `Decimal.read?`, `Decimal.nearest?`: the number that a decimal fraction stands for;
* `readInteger?`: integers, in any of the ways of writing one.
-/

namespace Polarity.Yaml

/-- A decimal fraction: `digits` times a power of ten. -/
structure Decimal where
  negative : Bool
  digits : Nat
  exponent : Int
  deriving DecidableEq, Repr

/-- Whether a byte is a decimal digit. -/
def isDigit (b : UInt8) : Bool := 0x30 ≤ b && b ≤ 0x39

/-- The value of a text of decimal digits. -/
def digitsValue (t : Text) : Nat := t.foldl (fun n b => n * 10 + (b.toNat - 0x30)) 0

/-- Splits a sign from what follows it. -/
def splitSign : Text → Bool × Text
  | 0x2D :: rest => (true, rest)
  | 0x2B :: rest => (false, rest)
  | t => (false, t)

/-- The exponent at the end of a fraction; none written means zero. -/
def readExponent : Text → Option Int
  | [] => some 0
  | b :: rest =>
    if Integer.lower b = Text.byte 'e' then
      let (negative, digits) := splitSign rest
      if !digits.isEmpty && digits.all isDigit then
        some (if negative then -(digitsValue digits : Int) else digitsValue digits)
      else none
    else none

/-- Reads a decimal fraction: digits on one side of a point at least, or no
point, and an exponent. -/
def Decimal.read? (t : Text) : Option Decimal := do
  let (negative, rest) := splitSign t
  let whole := rest.takeWhile isDigit
  let rest := rest.dropWhile isDigit
  let (hasPoint, rest) :=
    match rest with
    | 0x2E :: rest => (true, rest)
    | rest => (false, rest)
  let part := if hasPoint then rest.takeWhile isDigit else []
  let rest := if hasPoint then rest.dropWhile isDigit else rest
  if whole.isEmpty && part.isEmpty then none
  let exponent ← readExponent rest
  return ⟨negative, digitsValue (whole ++ part), exponent - part.length⟩

/-- The greatest `e` with `2 ^ e ≤ p / q`, for positive `p` and `q`. -/
def binaryOrder (p q : Nat) : Int :=
  let e : Int := p.log2 - q.log2
  let reached := if 0 ≤ e then q * Nat.pow 2 e.toNat ≤ p else q ≤ p * Nat.pow 2 (-e).toNat
  if reached then e else e - 1

/-- A quotient rounded to the nearest natural number, a half to the even one. -/
def roundQuotient (p q : Nat) : Nat :=
  let n := p / q
  let rest := p % q
  if 2 * rest > q || (2 * rest == q && n % 2 == 1) then n + 1 else n

/-- A number with a binary mantissa. -/
inductive Binary where
  | nan
  | infinite (negative : Bool)
  /-- The mantissa times a power of two. It has 53 binary digits, or fewer at the
  least scale; zero has neither sign nor scale. -/
  | finite (negative : Bool) (mantissa : Nat) (scale : Int)
  deriving DecidableEq, Repr

namespace Binary

/-- The number zero. -/
def zero : Binary := .finite false 0 0

/-- The least power of two that a mantissa is counted in. -/
def leastScale : Int := -1074

/-- The greatest power of two that a mantissa is counted in. -/
def greatestScale : Int := 971

/-- The number that is nearest to `p / q`, with a sign; `none` when it is 2^1024 or
more. -/
def nearest? (negative : Bool) (p q : Nat) : Option Binary :=
  if p = 0 then some zero
  else
    let scale := max (binaryOrder p q - 52) leastScale
    let rounded :=
      if 0 ≤ scale then roundQuotient p (q * Nat.pow 2 scale.toNat)
      else roundQuotient (p * Nat.pow 2 (-scale).toNat) q
    let carries := rounded == Nat.pow 2 53
    let mantissa := if carries then Nat.pow 2 52 else rounded
    let scale := if carries then scale + 1 else scale
    if mantissa = 0 then some zero
    else if greatestScale < scale then none
    else some (.finite negative mantissa scale)

/-- The whole part of a mantissa times a power of two. -/
def wholePart (mantissa : Nat) (scale : Int) : Nat :=
  if 0 ≤ scale then mantissa * Nat.pow 2 scale.toNat else mantissa / Nat.pow 2 (-scale).toNat

/-- The least integer of 64 bits, which stands for all numbers below it too. -/
def leastWord : Int := -Integer.positives

/-- The whole part as an integer of 64 bits. There is none above 2^63, and 2^63
itself comes out as the least one. -/
def word? : Binary → Option Int
  | .nan => none
  | .infinite negative => if negative then some leastWord else none
  | .finite negative mantissa scale =>
    let n := wholePart mantissa scale
    if negative then some (max (-(n : Int)) leastWord)
    else if n < Integer.positives then some n
    else if n = Integer.positives then some leastWord
    else none

end Binary

/-- The number a fraction stands for; `none` when it is too large for any. -/
def Decimal.nearest? (d : Decimal) : Option Binary :=
  let order : Int := (Nat.toDigits 10 d.digits).length + d.exponent
  if d.digits = 0 || order < -330 then some .zero
  else if 310 < order then none
  else if 0 ≤ d.exponent then
    Binary.nearest? d.negative (d.digits * Nat.pow 10 d.exponent.toNat) 1
  else Binary.nearest? d.negative d.digits (Nat.pow 10 (-d.exponent).toNat)

/-- The text without underscores. -/
def withoutUnderscores (t : Text) : Text := t.filter (· != Text.byte '_')

/-- Reads an integer, in any of the ways of writing one. -/
def readInteger? (t : Text) : Option Int :=
  match Integer.read t with
  | .ok n => some n
  | .error _ =>
    match Integer.readNat t with
    | .ok n => some n
    | .error _ => none

/-- Reads binary and octal digits after `0b` and `0o`, where a sign may stand on
either side of them. -/
def readMarked? (t : Text) : Option Int :=
  let based (base : Nat) (digits : Text) : Option Int :=
    match Integer.readIn base digits with
    | .ok n => some n
    | .error _ => none
  let natural (base : Nat) (digits : Text) : Option Int :=
    match Integer.readNatIn base digits with
    | .ok n => some n
    | .error _ => none
  match t with
  | 0x30 :: 0x62 :: digits => based 2 digits <|> natural 2 digits
  | 0x30 :: 0x6F :: digits => based 8 digits <|> natural 8 digits
  | 0x2D :: 0x30 :: 0x62 :: digits => based 2 (Text.byte '-' :: digits)
  | 0x2D :: 0x30 :: 0x6F :: digits => based 8 (Text.byte '-' :: digits)
  | _ => none

end Polarity.Yaml

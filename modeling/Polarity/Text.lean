/-!
# Texts

Everything the library reads and writes is a sequence of bytes, usually but not
always UTF-8. A `Text` is such a sequence; string literals stand for their
UTF-8 bytes.
-/

namespace Polarity

/-- A sequence of bytes. -/
abbrev Text := List UInt8

namespace Text

/-- The UTF-8 bytes of a string. -/
def ofString (s : String) : Text := s.toList.flatMap String.utf8EncodeChar

instance : Coe String Text := ⟨ofString⟩

/-- The UTF-8 bytes of a character. -/
def ofChar (c : Char) : Text := String.utf8EncodeChar c

/-- The byte of an ASCII character. -/
def byte (c : Char) : UInt8 := c.toNat.toUInt8

/-- A natural number in decimal digits. -/
def ofNat (n : Nat) : Text := (Nat.toDigits 10 n).map byte

/-- An integer in decimal digits, after a minus sign when it is negative. -/
def ofInt : Int → Text
  | .ofNat n => ofNat n
  | .negSucc n => byte '-' :: ofNat (n + 1)

/-- The texts one after another with `separator` between them. -/
def joined (separator : Text) : List Text → Text
  | [] => []
  | [t] => t
  | t :: u :: rest => t ++ separator ++ joined separator (u :: rest)

/-- The text as a line of its own. -/
def line (t : Text) : Text := t ++ "\n"

/-- The value of a hexadecimal digit as its lower-case letter or figure. -/
def hexDigit (n : Nat) : UInt8 := byte (Nat.digitChar (n % 16))

/-- The last `width` hexadecimal digits of `n`. -/
def hex : (width : Nat) → (n : Nat) → Text
  | 0, _ => []
  | width + 1, n => hex width (n / 16) ++ [hexDigit n]

/-- Whether `t` begins with `start`. -/
def startsWith (t start : Text) : Bool := start.isPrefixOf t

/-- Whether some byte of `t` is `b`. -/
def holds (t : Text) (b : UInt8) : Bool := t.any (· == b)

end Text

end Polarity

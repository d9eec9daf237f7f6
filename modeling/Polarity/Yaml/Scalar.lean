import Polarity.Text.Base64
import Polarity.Yaml.Time

/-!
# The meaning of scalars

What a scalar means: nothing, a truth value, a number, a time, or a text. A plain
one tells by its content, and a tag may ask for something else.

* `Scalar.resolve`: what a plain scalar means;
* `Scalar.under`: what a scalar means under a tag.
-/

namespace Polarity.Yaml

/-- The meaning of a scalar. -/
inductive Scalar where
  | null
  | bool (b : Bool)
  | int (n : Int)
  | float (b : Binary)
  | time (t : Time)
  | text (t : Text)
  deriving DecidableEq, Repr

namespace Scalar

/-- The scalars that are spelled out. -/
def spelled : List (Text × Scalar) :=
  [("", .null), ("~", .null), ("null", .null), ("Null", .null), ("NULL", .null),
    ("true", .bool true), ("True", .bool true), ("TRUE", .bool true),
    ("false", .bool false), ("False", .bool false), ("FALSE", .bool false),
    (".nan", .float .nan), (".NaN", .float .nan), (".NAN", .float .nan),
    (".inf", .float (.infinite false)), (".Inf", .float (.infinite false)),
    (".INF", .float (.infinite false)), ("+.inf", .float (.infinite false)),
    ("+.Inf", .float (.infinite false)), ("+.INF", .float (.infinite false)),
    ("-.inf", .float (.infinite true)), ("-.Inf", .float (.infinite true)),
    ("-.INF", .float (.infinite true))]

/-- A fraction, unless it is too large for any. -/
def fraction? (t : Text) : Option Scalar := do
  let d ← Decimal.read? t
  return .float (← d.nearest?)

/-- A fraction whose digits may be separated by underscores. -/
def separated? (t : Text) : Option Scalar :=
  if Integer.separates t then fraction? (withoutUnderscores t) else none

/-- The meaning of a scalar that begins with a digit or a sign. Underscores
do not count. -/
def numeric (t : Text) : Scalar :=
  let plain := withoutUnderscores t
  ((readInteger? plain).map Scalar.int <|> fraction? plain <|>
    (readMarked? plain).map Scalar.int).getD (.text t)

/-- The meaning of a plain scalar. -/
def resolve (t : Text) : Scalar :=
  match spelled.lookup t with
  | some s => s
  | none =>
    match t with
    | [] => .null
    | b :: _ =>
      if b = Text.byte '.' then (separated? t).getD (.text t)
      else if isDigit b || b = Text.byte '+' || b = Text.byte '-' then
        ((Time.read? t).map Scalar.time).getD (numeric t)
      else .text t

/-- The tag of the texts. -/
def textTag : Text := "!!str"

/-- The tag of the fractions. -/
def floatTag : Text := "!!float"

/-- The tag of a scalar by its kind. -/
def tag : Scalar → Text
  | .null => "!!null"
  | .bool _ => "!!bool"
  | .int _ => "!!int"
  | .float _ => floatTag
  | .time _ => "!!timestamp"
  | .text _ => textTag

/-- The tags under which only what they name may stand. -/
def strictTags : List Text := ["!!bool", "!!int", floatTag, "!!null", "!!timestamp"]

/-- The nearest fraction to an integer that has 64 bits. -/
def rounded? (n : Int) : Option Scalar :=
  if -Integer.positives ≤ n && n < Integer.positives then
    (Binary.nearest? (n < 0) n.natAbs 1).map Scalar.float
  else none

/-- What a scalar means under a tag; `none` when its content is against the tag. A
tag that is not known makes a text. -/
def under (tag value : Text) : Option Scalar :=
  if strictTags.contains tag then
    let plain := resolve value
    if plain.tag = tag then some plain
    else
      match plain with
      | .int n => if tag = floatTag then rounded? n else none
      | _ => none
  else if tag = "!!binary" then (Base64.decode? value).map Scalar.text
  else some (.text value)

/-- Whether two scalars count as the same key. What is not a number is never the same
as anything. -/
def same : Scalar → Scalar → Bool
  | .float .nan, _ => false
  | .time t, .time u => t.same u
  | s, t => s = t

end Scalar

/-- The words that older versions of the format take for true. -/
def olderTruths : List Text := ["y", "Y", "yes", "Yes", "YES", "on", "On", "ON"]

/-- The words that older versions of the format take for false. -/
def olderFalsehoods : List Text := ["n", "N", "no", "No", "NO", "off", "Off", "OFF"]

/-- What one of these words means. They are still taken so where a truth value is
asked for. -/
def olderBool? (t : Text) : Option Bool :=
  if olderTruths.contains t then some true
  else if olderFalsehoods.contains t then some false
  else none

/-- Whether a text is groups of digits for minutes or seconds after colons, at
least `atLeast` of them, and a fraction. -/
def isSexagesimalTail : (atLeast : Nat) → (fuel : Nat) → Text → Bool
  | _, 0, _ => false
  | atLeast, fuel + 1, t =>
    match t with
    | 0x3A :: a :: b :: rest =>
      if isDigit b then
        0x30 ≤ a && a ≤ 0x35 && isSexagesimalTail (atLeast - 1) fuel rest
      else isDigit a && isSexagesimalTail (atLeast - 1) fuel (b :: rest)
    | [0x3A, a] => isDigit a && atLeast ≤ 1
    | 0x2E :: rest => atLeast = 0 && rest.all fun b => isDigit b || b = Text.byte '_'
    | [] => atLeast = 0
    | _ => false

/-- Whether a text is a number in base sixty, as older versions of the format
have it. -/
def isSexagesimal (t : Text) : Bool :=
  let rest := (splitSign t).2
  match rest with
  | b :: _ =>
    isDigit b &&
      isSexagesimalTail 1 (t.length + 1) (rest.dropWhile fun b => isDigit b || b = Text.byte '_')
  | [] => false

/-- Whether a text is taken for itself when it is written as a plain scalar. -/
def isPlainText (t : Text) : Bool :=
  Scalar.resolve t = .text t && !isSexagesimal t && olderBool? t = none

end Polarity.Yaml

import Polarity.Span

/-!
# Diagnostics

What can be wrong with a program, with its place, its number and its wording.
-/

namespace Polarity

/-- What is wrong. -/
inductive Fault where
  /-- A token is missing or not the expected one; an empty `found` stands for
  the end of the input. -/
  | malformed (expected found : Text)
  /-- A type is applied whose name no class has. -/
  | unknownClass (name : Text)
  /-- A class is applied to more arguments than it has parameters. -/
  | arityMismatch (className : Text) (declared given : Int)
  /-- A class has two parameters of one name. -/
  | duplicateParam (className param : Text)
  deriving DecidableEq, Repr

namespace Fault

/-- The number of the kind of fault. -/
def code : Fault → Nat
  | .malformed .. => 1
  | .unknownClass _ => 2
  | .arityMismatch .. => 3
  | .duplicateParam .. => 4

/-- The wording of a fault. -/
def message : Fault → Text
  | .malformed expected [] =>
    "malformed declaration: expected " ++ expected ++ ", found end of input"
  | .malformed expected found =>
    "malformed declaration: expected " ++ expected ++ ", found '" ++ found ++ "'"
  | .unknownClass name => "unknown class reference '" ++ name ++ "'"
  | .arityMismatch className declared given =>
    "class '" ++ className ++ "' declares " ++ Text.ofInt declared ++ " type parameters, but " ++
      Text.ofInt given ++ " were given"
  | .duplicateParam className param =>
    "malformed declaration: type parameter '" ++ param ++ "' is declared twice in class '" ++
      className ++ "'"

/-- Whether the fault is one of the declaration's form. -/
def isMalformed : Fault → Bool
  | .malformed .. | .duplicateParam .. => true
  | .unknownClass _ | .arityMismatch .. => false

end Fault

/-- A fault and where it is. -/
structure Diagnostic where
  fault : Fault
  span : Span
  deriving DecidableEq, Repr

namespace Diagnostic

/-- The fault's number and wording, as in `(E001) …`. -/
def text (d : Diagnostic) : Text :=
  "(E00" ++ Text.ofNat d.fault.code ++ ") " ++ d.fault.message

/-- All diagnostics, one a line. -/
def texts (ds : List Diagnostic) : Text := Text.joined "\n" (ds.map text)

/-- Whether any of the faults is one of form. -/
def anyMalformed (ds : List Diagnostic) : Bool := ds.any (·.fault.isMalformed)

end Diagnostic

end Polarity

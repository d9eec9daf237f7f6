import Polarity.Span
import Polarity.Variance

/-!
# Class declarations

A program is a list of generic classes. A class has type parameters and methods;
a method has a result type and parameter types; a type is a name, applied to
arguments that may carry a wildcard.

* `TypeUse.text`: a type with each argument after the sign of its wildcard;
* `TypeUse.source`, `ClassDecl.source`: types and classes as they are declared;
* `referencedClasses`: the names of the applied types, in order of appearance.
-/

namespace Polarity

/-- What is written in front of a type argument. -/
inductive Wildcard where
  /-- Nothing. -/
  | bare
  /-- `? extends`, an upper bound. -/
  | upper
  /-- `? super`, a lower bound. -/
  | lower
  /-- Some other sign, on a type that was not written in a source. -/
  | sign (b : UInt8)
  deriving DecidableEq, Repr

namespace Wildcard

/-- The wildcard with the given sign. -/
def ofSign (b : UInt8) : Wildcard :=
  if b = Text.byte 'o' then .bare
  else if b = Text.byte '+' then .upper
  else if b = Text.byte '-' then .lower
  else .sign b

/-- The sign of a wildcard, as text. -/
def text : Wildcard → Text
  | .bare => "o"
  | .upper => "+"
  | .lower => "-"
  | .sign b => Text.ofChar (Char.ofNat b.toNat)

/-- How a wildcard is written in a declaration. -/
def source : Wildcard → Text
  | .upper => "? extends "
  | .lower => "? super "
  | .bare | .sign _ => []

/-- The variance a wildcard asks for at its place. -/
def variance : Wildcard → Variance
  | .upper => .covariant
  | .lower => .contravariant
  | .bare | .sign _ => .invariant

end Wildcard

/-- A use of a type parameter or of a class. -/
inductive TypeUse where
  /-- The name, the arguments with their wildcards, and the place in the source. -/
  | mk (name : Text) (args : List (Wildcard × TypeUse)) (span : Span)

instance : Inhabited TypeUse := ⟨.mk [] [] .nowhere⟩

/-- A type argument. -/
abbrev TypeArg := Wildcard × TypeUse

namespace TypeUse

/-- The name of the class or parameter. -/
def name : TypeUse → Text
  | mk name _ _ => name

/-- The type arguments. -/
def args : TypeUse → List TypeArg
  | mk _ args _ => args

/-- Where the type stands in the source. -/
def span : TypeUse → Span
  | mk _ _ span => span

/-- Whether the type has no arguments. -/
def isTerminal (t : TypeUse) : Bool := t.args.isEmpty

end TypeUse

mutual

/-- A type with a mark before each argument, and then more text. -/
def TypeUse.before (mark : Wildcard → Text) : TypeUse → Text → Text
  | .mk name args _, rest =>
    if args.isEmpty then name ++ rest
    else name ++ ("<" ++ TypeArg.before mark args (">" ++ rest))

/-- Type arguments, each after its mark, and then more text. -/
def TypeArg.before (mark : Wildcard → Text) : List TypeArg → Text → Text
  | [], rest => rest
  | [(w, t)], rest => mark w ++ t.before mark rest
  | (w, t) :: args, rest => mark w ++ t.before mark (", " ++ TypeArg.before mark args rest)

end

namespace TypeUse

/-- A type with each argument after the sign of its wildcard, as in `Box<oT, +U>`. -/
def text (t : TypeUse) : Text := t.before Wildcard.text []

/-- A type as it is declared, as in `Box<? extends T>`. -/
def source (t : TypeUse) : Text := t.before Wildcard.source []

end TypeUse

mutual

/-- The names of the applied types inside a type, the outermost first. -/
def TypeUse.applied : TypeUse → List Text
  | .mk name args _ => if args.isEmpty then [] else name :: TypeArg.applied args

/-- The names of the applied types inside type arguments. -/
def TypeArg.applied : List TypeArg → List Text
  | [] => []
  | (_, t) :: args => t.applied ++ TypeArg.applied args

end

/-- A method of a class. -/
structure Method where
  returns : TypeUse
  name : Text
  params : List TypeUse
  span : Span

namespace Method

/-- The types of a method, the result first. -/
def types (m : Method) : List TypeUse := m.returns :: m.params

/-- A method as it is declared. Parameter types stand side by side. -/
def source (m : Method) : Text :=
  m.returns.source ++ " " ++ m.name ++ "(" ++ Text.joined " " (m.params.map TypeUse.source) ++ ");"

/-- A method on an indented line of its own. -/
def line (m : Method) : Text := "  " ++ m.source ++ "\n"

end Method

/-- A generic class. -/
structure ClassDecl where
  name : Text
  params : List Text
  methods : List Method
  span : Span

namespace ClassDecl

/-- The class name applied to its own parameters, as in `Box<T>`. -/
def signature (c : ClassDecl) : Text := c.name ++ "<" ++ Text.joined ", " c.params ++ ">"

/-- The class as it is declared, one method a line. -/
def source (c : ClassDecl) : Text :=
  "class " ++ c.signature ++ " \x7b\n" ++
    c.methods.flatMap Method.line ++ "\x7d"

/-- The types in the methods of a class, in source order. -/
def types (c : ClassDecl) : List TypeUse := c.methods.flatMap Method.types

end ClassDecl

/-- The texts of a list without repetitions, each at its first place. -/
def firstAppearances (names : List Text) : List Text :=
  names.foldl (fun seen name => if seen.contains name then seen else seen ++ [name]) []

/-- The names of all types that are applied to arguments, in order of first
appearance. -/
def referencedClasses (decls : List ClassDecl) : List Text :=
  firstAppearances (decls.flatMap fun c => c.types.flatMap TypeUse.applied)

end Polarity

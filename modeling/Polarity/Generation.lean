import Polarity.ClassTable
import Polarity.Constraint
import Polarity.Diagnostic

/-!
# Constraints of a program

Every parameter of every class is bounded by each of its occurrences in the
methods of the class: a result type counts as it is, a parameter type in
reverse. An occurrence inside a type is bounded in turn, by the parameter of the
class that the type applies.

A type may apply a name that no class has, or have more arguments than the class
has parameters. What the missing parameter counts as is a matter of the `Policy`;
each such type is reported once.

* `Generation.emissions`: constraints and reports in the order they arise;
* `generate`: all of them, for a program and a policy.
-/

namespace Polarity

/-- What a reference to a missing class parameter means. -/
inductive Policy where
  /-- The program is wrong. -/
  | error
  /-- The parameter does not matter. -/
  | bivariant
  /-- The parameter may not vary at all. -/
  | invariant
  deriving DecidableEq, Repr

namespace Policy

/-- The name of a policy. -/
def name : Policy → Text
  | .error => "error"
  | .bivariant => "bivariant"
  | .invariant => "invariant"

/-- The policy of a name; no name means `error`. -/
def ofName? (t : Text) : Option Policy :=
  if t.isEmpty then some .error
  else [Policy.error, .bivariant, .invariant].find? (·.name == t)

/-- The variance that stands in for a missing parameter. -/
def standIn : Policy → Variance
  | .error | .bivariant => .bivariant
  | .invariant => .invariant

end Policy

/-- The parameter that the argument with index `i` of a type is given to, or
what is wrong with the type. -/
def ClassTable.parameter (classes : ClassTable) (t : TypeUse) (i : Nat) :
    Except Diagnostic ParamRef :=
  match classes.lookup t.name with
  | none => .error ⟨.unknownClass t.name, t.span⟩
  | some decl =>
    match decl.params[i]? with
    | some param => .ok (decl.ref param)
    | none => .error ⟨.arityMismatch t.name decl.params.length t.args.length, t.span⟩

/-- What arises in the course of generation. -/
inductive Emission where
  /-- A constraint. -/
  | constraint (c : Constraint)
  /-- A type whose parameter is missing. -/
  | unresolved (d : Diagnostic)

namespace Emission

/-- The constraint, if it is one. -/
def constraint? : Emission → Option Constraint
  | .constraint c => some c
  | .unresolved _ => none

/-- The report, if it is one. -/
def unresolved? : Emission → Option Diagnostic
  | .constraint _ => none
  | .unresolved d => some d

/-- Leaves out reports whose place is among `seen` or was reported before. -/
def onceFrom (seen : List Span) : List Emission → List Emission
  | [] => []
  | .constraint c :: rest => .constraint c :: onceFrom seen rest
  | .unresolved d :: rest =>
    if d.span ∈ seen then onceFrom seen rest
    else .unresolved d :: onceFrom (d.span :: seen) rest

end Emission

section

variable (classes : ClassTable) (standIn : Variance)

/-- The bound of the occurrence of `param` in `t` by its argument with index `i`. -/
def argumentBound (param : Text) (t : TypeUse) (i : Nat) (arg : TypeArg) : List Emission :=
  let bound (parameter : Expr) : Emission :=
    .constraint ⟨.occurrence ⟨param, t⟩,
      .transform (.join (.literal arg.1.variance) parameter) (.occurrence ⟨param, arg.2⟩),
      some .nestedArgument⟩
  match classes.parameter t i with
  | .ok ref => [bound (.param ref)]
  | .error d => [.unresolved d, bound (.literal standIn)]

/-- The bound of the occurrence of `param` in a type without arguments. -/
def terminalBound (param : Text) (t : TypeUse) : Emission :=
  if t.name = param then
    .constraint ⟨.occurrence ⟨param, t⟩, .literal .covariant, some .selfOccurrence⟩
  else .constraint ⟨.occurrence ⟨param, t⟩, .literal .bivariant, some .unrelatedTerminal⟩

mutual

/-- The bounds of the occurrence of `param` in a type, and of the occurrences
they depend on. -/
def occurrenceBounds (param : Text) : TypeUse → List Emission
  | .mk name args span =>
    if args.isEmpty then [terminalBound param (.mk name args span)]
    else argumentBounds param (.mk name args span) 0 args

/-- The bounds of the occurrence of `param` in `t` by the arguments of `t` from
index `i` on, and of the occurrences they depend on. -/
def argumentBounds (param : Text) (t : TypeUse) : (i : Nat) → List TypeArg → List Emission
  | _, [] => []
  | i, (w, arg) :: rest =>
    argumentBound classes standIn param t i (w, arg) ++ occurrenceBounds param arg ++
      argumentBounds param t (i + 1) rest

end

/-- The bound of a parameter of `decl` by its occurrence in `t`, a result or a
parameter type, and all that it depends on. -/
def positionBounds (decl : ClassDecl) (param : Text) (position : Variance) (rule : Rule)
    (t : TypeUse) : List Emission :=
  .constraint ⟨.param (decl.ref param),
    .transform (.literal position) (.occurrence ⟨param, t⟩), some rule⟩ ::
    occurrenceBounds classes standIn param t

/-- The bounds of a parameter of `decl` by a method. -/
def methodBounds (decl : ClassDecl) (param : Text) (m : Method) : List Emission :=
  positionBounds classes standIn decl param .covariant .returnPosition m.returns ++
    m.params.flatMap (positionBounds classes standIn decl param .contravariant .argumentPosition)

/-- The bounds of all parameters of a class. -/
def classBounds (decl : ClassDecl) : List Emission :=
  decl.params.flatMap fun param => decl.methods.flatMap (methodBounds classes standIn decl param)

end

/-- The constraints of a program under a policy. -/
structure Generation where
  policy : Policy
  /-- Constraints and reports in the order they arise, each type reported once. -/
  emissions : List Emission

namespace Generation

/-- The constraints, in order. -/
def constraints (g : Generation) : List Constraint := g.emissions.filterMap Emission.constraint?

/-- The types whose parameter is missing, in order. -/
def unresolved (g : Generation) : List Diagnostic := g.emissions.filterMap Emission.unresolved?

/-- What the policy finds wrong with the program. -/
def errors (g : Generation) : List Diagnostic :=
  if g.policy = .error then g.unresolved else []

end Generation

/-- The constraints of a program under a policy. -/
def generate (classes : ClassTable) (policy : Policy) : Generation :=
  ⟨policy, Emission.onceFrom [] (classes.decls.flatMap (classBounds classes policy.standIn))⟩

/-- The constraints of a program under a named policy. A name that is no policy
is noticed only when some type calls for one. -/
def generateNamed (classes : ClassTable) (name : Text) : Option Generation :=
  match Policy.ofName? name with
  | some policy => some (generate classes policy)
  | none =>
    let g := generate classes .error
    if g.unresolved.isEmpty then some g else none

end Polarity

import Polarity.Generation
import Polarity.Parser
import Polarity.Reduction
import Polarity.Solution
import Polarity.Text.Order

/-!
# Variance inference

From a source to the variances of its class parameters: the declarations are
read, constraints are generated, reduced and solved. Each stage needs the one
before it to succeed.
-/

namespace Polarity

/-- How inference is done. Names are as they were given. -/
structure Options where
  substitution : Text
  strategy : Text
  passes : Int
  unresolved : Text
  deriving DecidableEq, Repr

/-- First bounds, as many sweeps as it takes, and no unresolved names. -/
def Options.default : Options := ⟨"first", "fixpoint", 2, "error"⟩

/-- Why there is no result. -/
inductive Failure where
  /-- Something is wrong with the source. -/
  | diagnostics (ds : List Diagnostic)
  /-- A policy was called for, and the given one does not exist. -/
  | unknownPolicy (name : Text)
  /-- The given strategy does not exist. -/
  | unknownStrategy (name : Text)
  deriving DecidableEq, Repr

/-- What is said of a failure, without places. -/
def Failure.message : Failure → Text
  | .diagnostics ds => Diagnostic.texts ds
  | .unknownPolicy name => "unknown unresolved reference policy " ++ name.quoted
  | .unknownStrategy name => "unknown solver strategy " ++ name.quoted

/-- What inference finds out. -/
structure Inference where
  classes : ClassTable
  generation : Generation
  simplified : List Constraint
  solution : Solution

/-- The names of classes that are applied but not declared, in the order of
texts. -/
def Inference.undeclaredWith (sets : SetPackage) (i : Inference) : List Text :=
  Text.differenceWith sets (referencedClasses i.classes.decls) i.classes.names

/-- The names of classes that are applied but not declared, as they are reported. -/
def Inference.undeclared (i : Inference) : List Text := i.undeclaredWith .plain

/-- Infers the variances of the class parameters of a program. -/
def inferClasses (options : Options) (classes : ClassTable) : Except Failure Inference :=
  match generateNamed classes options.unresolved with
  | none => .error (.unknownPolicy options.unresolved)
  | some generation =>
    if generation.errors.isEmpty then
      let simplified := simplify (.ofName options.substitution) generation.constraints
      match Strategy.ofName? options.strategy with
      | none => .error (.unknownStrategy options.strategy)
      | some strategy =>
        .ok ⟨classes, generation, simplified, solve classes simplified strategy options.passes⟩
    else .error (.diagnostics generation.errors)

/-- Infers the variances of the class parameters that a source declares. -/
def infer (options : Options) (source : Text) : Except Failure Inference :=
  match parse source with
  | .error d => .error (.diagnostics [d])
  | .ok decls => inferClasses options ⟨decls⟩

end Polarity

import Polarity.Declaration

/-!
# Variance expressions

The variance of a parameter is bounded by expressions over variances, class
parameters and occurrences of types.

* `Expr.text`: an expression with `⊗` for composition and `⊔` for join;
* `Expr.same`: sameness of expressions, with references compared by key.
-/

namespace Polarity

/-- Identifies a type parameter of a class. -/
structure ParamKey where
  className : Text
  param : Text
  deriving DecidableEq, Repr

/-- The variance that a class parameter will be given. -/
structure ParamRef where
  param : Text
  className : Text
  /-- The class applied to its parameters, for display. -/
  signature : Text
  deriving DecidableEq, Repr

/-- What a parameter reference refers to. -/
def ParamRef.key (r : ParamRef) : ParamKey := ⟨r.className, r.param⟩

/-- How a parameter reference is shown. -/
def ParamRef.text (r : ParamRef) : Text := "var(" ++ r.param ++ ", " ++ r.signature ++ ")"

/-- Identifies an occurrence of a type in the source, as seen from a parameter. -/
structure OccurrenceKey where
  param : Text
  span : Span
  deriving DecidableEq, Repr

/-- The variance with which a parameter occurs inside a type. -/
structure Occurrence where
  param : Text
  type : TypeUse

/-- What an occurrence refers to. -/
def Occurrence.key (o : Occurrence) : OccurrenceKey := ⟨o.param, o.type.span⟩

/-- How an occurrence is shown. -/
def Occurrence.text (o : Occurrence) : Text := "var(" ++ o.param ++ ", " ++ o.type.text ++ ")"

/-- A variance that may depend on what is not known yet. -/
inductive Expr where
  /-- An expression that was left out. -/
  | absent
  /-- A known variance. -/
  | literal (v : Variance)
  /-- The variance of a class parameter. -/
  | param (r : ParamRef)
  /-- The variance of a parameter inside a type. -/
  | occurrence (o : Occurrence)
  /-- A position inside a position. -/
  | transform (left right : Expr)
  /-- Two occurrences together. -/
  | join (left right : Expr)

instance : Inhabited Expr := ⟨.absent⟩

namespace Expr

/-- An operation between its operands, in parentheses when it is an operand itself. -/
def operation (nested : Bool) (left operator right : Text) : Text :=
  if nested then "(" ++ left ++ operator ++ right ++ ")" else left ++ operator ++ right

/-- An expression, as an operand when `nested`. -/
def textIn : (nested : Bool) → Expr → Text
  | _, .absent => "nil"
  | _, .literal v => v.symbol
  | _, .param r => r.text
  | _, .occurrence o => o.text
  | nested, .transform l r => operation nested (textIn true l) " ⊗ " (textIn true r)
  | nested, .join l r => operation nested (textIn true l) " ⊔ " (textIn true r)

/-- How an expression is shown. -/
def text (e : Expr) : Text := textIn false e

/-- The occurrences in an expression, from left to right. -/
def occurrences : Expr → List Occurrence
  | .occurrence o => [o]
  | .transform l r | .join l r => l.occurrences ++ r.occurrences
  | .absent | .literal _ | .param _ => []

/-- Whether an expression depends on an occurrence. -/
def hasOccurrences : Expr → Bool
  | .occurrence _ => true
  | .transform l r | .join l r => l.hasOccurrences || r.hasOccurrences
  | .absent | .literal _ | .param _ => false

/-- Sameness of expressions: references are compared by their keys, and what is
left out is the same as nothing. -/
def same : Expr → Expr → Bool
  | .literal a, .literal b => a == b
  | .param a, .param b => a.key == b.key
  | .occurrence a, .occurrence b => a.key == b.key
  | .transform a b, .transform c d => a.same c && b.same d
  | .join a b, .join c d => a.same c && b.same d
  | _, _ => false

/-- Whether an expression is the literal `*`, an upper bound that says nothing. -/
def isTop : Expr → Bool
  | .literal .bivariant => true
  | _ => false

end Expr

end Polarity

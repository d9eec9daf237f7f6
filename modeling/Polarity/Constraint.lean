import Polarity.Expr

/-!
# Constraints

A constraint bounds its left side from above by its right side.
-/

namespace Polarity

/-- Why a constraint holds. -/
inductive Rule where
  /-- A parameter occurs in a result type. -/
  | returnPosition
  /-- A parameter occurs in a parameter type. -/
  | argumentPosition
  /-- A type is the parameter itself. -/
  | selfOccurrence
  /-- A type without arguments is not the parameter. -/
  | unrelatedTerminal
  /-- A type occurs as an argument of another one. -/
  | nestedArgument
  deriving DecidableEq, Repr

/-- The name of a rule. -/
def Rule.name : Rule → Text
  | .returnPosition => "return-position"
  | .argumentPosition => "argument-position"
  | .selfOccurrence => "self-occurrence"
  | .unrelatedTerminal => "unrelated-terminal"
  | .nestedArgument => "nested-argument"

/-- An upper bound: `left ≤ right`. -/
structure Constraint where
  left : Expr
  right : Expr
  rule : Option Rule := none

namespace Constraint

/-- A constraint as `left < right`. -/
def text (c : Constraint) : Text := c.left.text ++ " < " ++ c.right.text

/-- A constraint after the rule it comes from, if any. -/
def textWithRule (c : Constraint) : Text :=
  match c.rule with
  | none => c.text
  | some rule => "[rule " ++ rule.name ++ "] " ++ c.text

end Constraint

end Polarity

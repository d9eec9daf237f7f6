import Polarity.Text.Quoted

/-!
# Variances

A variance says in which directions of subtyping a type parameter may safely
vary. The four variances form a lattice,

        *        bivariant
      +   -      covariant, contravariant
        o        invariant

with three operations: `transform` composes nested positions, `join` combines
occurrences, and `meet` narrows by a further upper bound.
-/

namespace Polarity

/-- The directions in which a type parameter may vary. -/
inductive Variance where
  /-- Both directions: the parameter does not matter. -/
  | bivariant
  /-- Along with subtyping. -/
  | covariant
  /-- Against subtyping. -/
  | contravariant
  /-- In neither direction. -/
  | invariant
  deriving DecidableEq, Repr

namespace Variance

/-- All variances, in the order in which `read?` tries them. -/
def all : List Variance := [.covariant, .contravariant, .bivariant, .invariant]

/-- The one-character notation of a variance. -/
def symbol : Variance → Text
  | .bivariant => "*"
  | .covariant => "+"
  | .contravariant => "-"
  | .invariant => "o"

/-- The long name of a variance. -/
def name : Variance → Text
  | .bivariant => "bivariant"
  | .covariant => "covariant"
  | .contravariant => "contravariant"
  | .invariant => "invariant"

/-- The variance with the given symbol or name. -/
def read? (t : Text) : Option Variance :=
  all.find? fun v => t == v.symbol || t == v.name

/-- What is said of a text that names no variance. -/
def unreadable (t : Text) : Text := "invalid variance " ++ t.quoted

/-- Whether covariant use is allowed. -/
def up : Variance → Bool
  | .bivariant | .covariant => true
  | .contravariant | .invariant => false

/-- Whether contravariant use is allowed. -/
def down : Variance → Bool
  | .bivariant | .contravariant => true
  | .covariant | .invariant => false

/-- The variance that allows the given directions. -/
def ofDirections : (up down : Bool) → Variance
  | true, true => .bivariant
  | true, false => .covariant
  | false, true => .contravariant
  | false, false => .invariant

/-- The lattice order: `o` below `+` and `-`, and these below `*`. -/
def leq (a b : Variance) : Bool := (!a.up || b.up) && (!a.down || b.down)

instance : LE Variance := ⟨fun a b => a.leq b = true⟩

instance (a b : Variance) : Decidable (a ≤ b) := inferInstanceAs (Decidable (a.leq b = true))

/-- The variance of a position inside a position: `+` changes nothing, then `*`
absorbs, then `o`, and two reversals cancel. -/
def transform : Variance → Variance → Variance
  | .covariant, b => b
  | a, .covariant => a
  | .bivariant, _ => .bivariant
  | _, .bivariant => .bivariant
  | .invariant, _ => .invariant
  | _, .invariant => .invariant
  | .contravariant, .contravariant => .covariant

/-- The least variance above both. -/
def join (a b : Variance) : Variance := ofDirections (a.up || b.up) (a.down || b.down)

/-- The greatest variance below both. -/
def meet (a b : Variance) : Variance := ofDirections (a.up && b.up) (a.down && b.down)

end Variance

end Polarity

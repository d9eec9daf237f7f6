import Polarity.Constraint

/-!
# Reduction to bounds on class parameters

Constraints on class parameters are freed of occurrences: an occurrence is
replaced by its own upper bounds, and the algebra is evaluated wherever the
result does not depend on a class parameter. An occurrence with several bounds
makes several reduced constraints of one.

* `reduce`: what an expression stands for, by plain recursion through the bounds;
* `Memo.reduce`: the same with every occurrence reduced once only;
* `simplify`: the reduced constraints on class parameters.
-/

namespace Polarity

/-- Which upper bounds an occurrence is replaced by. -/
inductive Substitution where
  /-- The first one. -/
  | first
  /-- Each one. -/
  | all
  deriving DecidableEq, Repr

/-- The substitution of a name: anything but `all` means the first bound. -/
def Substitution.ofName (t : Text) : Substitution := if t = "all" then .all else .first

/-- The upper bounds of each occurrence. -/
abbrev Bounds := OccurrenceKey → List Expr

/-- The upper bound a constraint gives for the occurrence `key`, if any. -/
def Constraint.boundOf (key : OccurrenceKey) (c : Constraint) : Option Expr :=
  match c.left with
  | .occurrence o => if o.key = key then some c.right else none
  | _ => none

/-- The upper bounds that constraints give for each occurrence, in order. -/
def boundsOf (mode : Substitution) (constraints : List Constraint) : Bounds := fun key =>
  let bounds := constraints.filterMap (Constraint.boundOf key)
  match mode with
  | .all => bounds
  | .first => bounds.take 1

namespace Expr

/-- A composition, evaluated when its value is the same for every value of a
symbolic operand: `+` changes nothing, and `*` absorbs. -/
def reducedTransform : Expr → Expr → Expr
  | .literal a, .literal b => .literal (a.transform b)
  | .literal .covariant, r => r
  | l, .literal .covariant => l
  | .literal .bivariant, _ => .literal .bivariant
  | _, .literal .bivariant => .literal .bivariant
  | l, r => .transform l r

/-- A join, evaluated when its value is the same for every value of a symbolic
operand: `*` absorbs, and `o` changes nothing. -/
def reducedJoin : Expr → Expr → Expr
  | .literal a, .literal b => .literal (a.join b)
  | .literal .bivariant, _ => .literal .bivariant
  | _, .literal .bivariant => .literal .bivariant
  | .literal .invariant, r => r
  | l, .literal .invariant => l
  | l, r => .join l r

/-- Appends an expression unless the same one is there. -/
def addNew (es : List Expr) (e : Expr) : List Expr :=
  if es.any (·.same e) then es else es ++ [e]

/-- The expressions of a list without repetitions, each at its first place. -/
def distinct (es : List Expr) : List Expr := es.foldl addNew []

/-- All combinations of two lists, the left operand varying slowest, without
repetitions. -/
def combine (op : Expr → Expr → Expr) (ls rs : List Expr) : List Expr :=
  distinct (ls.flatMap fun l => rs.map (op l))

/-- Leaves out `*` beside other bounds, where it says nothing. -/
def withoutTop (es : List Expr) : List Expr :=
  if es.length > 1 then
    let rest := es.filter (!·.isTop)
    if rest.isEmpty then [.literal .bivariant] else rest
  else es

/-- What an expression stands for, when `resolve` tells it for occurrences. -/
def reduceWith (resolve : Occurrence → List Expr) : Expr → List Expr
  | .transform l r => combine reducedTransform (reduceWith resolve l) (reduceWith resolve r)
  | .join l r => combine reducedJoin (reduceWith resolve l) (reduceWith resolve r)
  | .occurrence o => resolve o
  | e => [e]

end Expr

/-- What the bounds of an occurrence come to, once each of them is reduced. -/
def gathered (reductions : List (List Expr)) : List Expr :=
  Expr.withoutTop (Expr.distinct reductions.flatten)

/-- What an occurrence stands for, following bounds to the given depth. An
occurrence without bounds stands for itself. -/
def resolve (bounds : Bounds) : (depth : Nat) → Occurrence → List Expr
  | 0, o => [.occurrence o]
  | depth + 1, o =>
    match bounds o.key with
    | [] => [.occurrence o]
    | es => gathered (es.map (Expr.reduceWith (resolve bounds depth)))

/-- What an expression stands for, following bounds to the given depth. -/
def reduce (bounds : Bounds) (depth : Nat) (e : Expr) : List Expr :=
  e.reduceWith (resolve bounds depth)

/-- What has been found out about occurrences so far, the latest first. -/
abbrev Memo := List (OccurrenceKey × List Expr)

namespace Memo

/-- `Expr.reduceWith`, with what is found out passed along from left to right. -/
def reduceWith (resolve : Occurrence → Memo → List Expr × Memo) :
    Expr → Memo → List Expr × Memo
  | .transform l r, memo =>
    let (ls, memo) := reduceWith resolve l memo
    let (rs, memo) := reduceWith resolve r memo
    (Expr.combine Expr.reducedTransform ls rs, memo)
  | .join l r, memo =>
    let (ls, memo) := reduceWith resolve l memo
    let (rs, memo) := reduceWith resolve r memo
    (Expr.combine Expr.reducedJoin ls rs, memo)
  | .occurrence o, memo => resolve o memo
  | e, memo => ([e], memo)

/-- Reduces several expressions one after another. -/
def reduceEach (reduce : Expr → Memo → List Expr × Memo) :
    List Expr → Memo → List (List Expr) × Memo
  | [], memo => ([], memo)
  | e :: rest, memo =>
    let (first, memo) := reduce e memo
    let (others, memo) := reduceEach reduce rest memo
    (first :: others, memo)

/-- `Polarity.resolve`, with every occurrence reduced once and then remembered. -/
def resolve (bounds : Bounds) : (depth : Nat) → Occurrence → Memo → List Expr × Memo
  | 0, o, memo => ([.occurrence o], memo)
  | depth + 1, o, memo =>
    match memo.lookup o.key with
    | some done => (done, memo)
    | none =>
      match bounds o.key with
      | [] => ([.occurrence o], memo)
      | es =>
        let (reductions, memo) := reduceEach (reduceWith (resolve bounds depth)) es memo
        (gathered reductions, (o.key, gathered reductions) :: memo)

/-- `Polarity.reduce`, with every occurrence reduced once and then remembered. -/
def reduce (bounds : Bounds) (depth : Nat) (e : Expr) (memo : Memo) : List Expr × Memo :=
  reduceWith (resolve bounds depth) e memo

end Memo

/-- A constraint on a class parameter and what its right side stands for. -/
structure Reduced where
  constraint : Constraint
  bounds : List Expr

namespace Reduced

/-- The constraints on class parameters among `constraints`, reduced one after
another. -/
def each (bounds : Bounds) (depth : Nat) : List Constraint → Memo → List Reduced
  | [], _ => []
  | c :: rest, memo =>
    match c.left with
    | .param _ =>
      let (es, memo) := Memo.reduce bounds depth c.right memo
      ⟨c, es⟩ :: each bounds depth rest memo
    | _ => each bounds depth rest memo

/-- The reduced constraints, without those that say nothing. -/
def constraints (r : Reduced) : List Constraint :=
  (r.bounds.filter (!·.isTop)).map fun bound => { left := r.constraint.left, right := bound }

end Reduced

/-- The constraints on class parameters with what they stand for. No chain of
bounds without repetition is longer than the list of constraints. -/
def reduceAll (mode : Substitution) (constraints : List Constraint) : List Reduced :=
  Reduced.each (boundsOf mode constraints) constraints.length constraints []

/-- The constraints on class parameters, freed of occurrences. -/
def simplify (mode : Substitution) (constraints : List Constraint) : List Constraint :=
  (reduceAll mode constraints).flatMap Reduced.constraints

end Polarity

import Polarity.ClassTable
import Polarity.Constraint

/-!
# Solutions

Class parameters start from `*` and are narrowed by the constraints, sweep after
sweep through the whole list, each constraint seeing what the earlier ones did.

* `Constraint.verdict`: what a constraint does to an assignment;
* `sweep`: one pass through the constraints;
* `settle`: sweeps until nothing changes;
* `sweepTimes`: a fixed number of sweeps;
* `solve`: the variances of all parameters of a program.
-/

namespace Polarity

/-- A variance for every class parameter. -/
abbrev Assignment := ParamKey → Variance

namespace Assignment

/-- Every parameter is unconstrained. -/
def top : Assignment := fun _ => .bivariant

/-- The assignment with another variance for one parameter. -/
def set (ρ : Assignment) (key : ParamKey) (v : Variance) : Assignment :=
  fun k => if k = key then v else ρ k

end Assignment

/-- The value of an expression that is built from variances and declared class
parameters only. -/
def Expr.eval (declared : List ParamKey) (ρ : Assignment) : Expr → Option Variance
  | .literal v => some v
  | .param r => if r.key ∈ declared then some (ρ r.key) else none
  | .transform l r =>
    match l.eval declared ρ, r.eval declared ρ with
    | some a, some b => some (a.transform b)
    | _, _ => none
  | .join l r =>
    match l.eval declared ρ, r.eval declared ρ with
    | some a, some b => some (a.join b)
    | _, _ => none
  | .absent | .occurrence _ => none

/-- What a constraint does to an assignment. -/
inductive Verdict where
  /-- It bounds no class parameter. -/
  | unrelated
  /-- Its right side has no value. -/
  | unresolved
  /-- It bounds a class parameter that is not declared. -/
  | undeclared (ref : ParamRef)
  /-- It holds. -/
  | kept
  /-- It narrows a class parameter. -/
  | narrowed (ref : ParamRef) (before after : Variance)
  deriving DecidableEq, Repr

namespace Verdict

/-- Whether the assignment changes. -/
def changes : Verdict → Bool
  | .narrowed .. => true
  | _ => false

/-- The assignment afterwards. -/
def apply (ρ : Assignment) : Verdict → Assignment
  | .narrowed ref _ after => ρ.set ref.key after
  | _ => ρ

end Verdict

/-- What a constraint does to an assignment. -/
def Constraint.verdict (declared : List ParamKey) (ρ : Assignment) (c : Constraint) : Verdict :=
  match c.left with
  | .param ref =>
    match c.right.eval declared ρ with
    | none => .unresolved
    | some bound =>
      if ref.key ∈ declared then
        let before := ρ ref.key
        let after := before.meet bound
        if after = before then .kept else .narrowed ref before after
      else .undeclared ref
  | _ => .unrelated

/-- A constraint and what it did. -/
abbrev Finding := Constraint × Verdict

/-- The assignment after some constraints, with what each of them did. -/
def sweep (declared : List ParamKey) : Assignment → List Constraint → Assignment × List Finding
  | ρ, [] => (ρ, [])
  | ρ, c :: rest =>
    let verdict := c.verdict declared ρ
    let (ρ', findings) := sweep declared (verdict.apply ρ) rest
    (ρ', (c, verdict) :: findings)

/-- Whether any of the constraints changed the assignment. -/
def anyChange (findings : List Finding) : Bool := findings.any (·.2.changes)

/-- Several sweeps: the assignment after them, how many there were, and whether
the last of them changed nothing. -/
structure Sweeps where
  assignment : Assignment
  count : Nat
  converged : Bool
  /-- What the constraints did, up to the first sweep that changed nothing. -/
  findings : List Finding
  /-- What they did in that sweep. -/
  idle : List Finding
  /-- How many times that sweep was repeated. -/
  repeats : Nat

/-- Sweeps until one of them changes nothing, but at most `limit` times. -/
def settle (declared : List ParamKey) (constraints : List Constraint) :
    (limit : Nat) → Assignment → Sweeps
  | 0, ρ => ⟨ρ, 0, false, [], [], 0⟩
  | limit + 1, ρ =>
    let (ρ', findings) := sweep declared ρ constraints
    if anyChange findings then
      let rest := settle declared constraints limit ρ'
      { rest with count := rest.count + 1, findings := findings ++ rest.findings }
    else ⟨ρ', 1, true, findings, findings, 0⟩

/-- Sweeps a given number of times. After a sweep that changed nothing, each
further one repeats it. -/
def sweepTimes (declared : List ParamKey) (constraints : List Constraint) :
    (times : Nat) → Assignment → Sweeps
  | 0, ρ => ⟨ρ, 0, false, [], [], 0⟩
  | times + 1, ρ =>
    let (ρ', findings) := sweep declared ρ constraints
    if anyChange findings then
      let rest := sweepTimes declared constraints times ρ'
      { rest with count := rest.count + 1, findings := findings ++ rest.findings }
    else ⟨ρ', times + 1, true, findings, findings, times⟩

/-- How long to sweep. -/
inductive Strategy where
  /-- Until nothing changes. -/
  | fixpoint
  /-- For a number of passes, each with as many sweeps as there are constraints. -/
  | bounded
  deriving DecidableEq, Repr

/-- The strategy of a name; no name means `fixpoint`. -/
def Strategy.ofName? (t : Text) : Option Strategy :=
  if t = "fixpoint" ∨ t = [] then some .fixpoint
  else if t = "bounded" then some .bounded
  else none

/-- The number of passes of the bounded strategy when none is given. -/
def defaultPasses : Nat := 2

/-- The number of passes that `passes` asks for. -/
def passCount (passes : Int) : Nat := if passes ≤ 0 then defaultPasses else passes.toNat

/-- The variance found for a class parameter. -/
structure SolutionEntry where
  param : ParamRef
  variance : Variance
  deriving DecidableEq, Repr

/-- An entry with the symbol and the name of its variance. -/
def SolutionEntry.text (e : SolutionEntry) : Text :=
  e.param.text ++ " = " ++ e.variance.symbol ++ " (" ++ e.variance.name ++ ")"

/-- The variances of the parameters of a program. -/
structure Solution where
  /-- One entry for every declared parameter, in source order. -/
  entries : List SolutionEntry
  /-- How many times all constraints were evaluated. -/
  sweeps : Nat
  /-- Whether the last sweep changed nothing. -/
  converged : Bool
  /-- What the constraints did, up to the first sweep that changed nothing. -/
  findings : List Finding
  /-- What they did in that sweep. -/
  idle : List Finding
  /-- How many times that sweep was repeated. -/
  repeats : Nat

/-- The variance found for a parameter. -/
def Solution.lookup (s : Solution) (key : ParamKey) : Option Variance :=
  (s.entries.find? (·.param.key == key)).map (·.variance)

/-- The sweeps of a strategy. Under `fixpoint`, each sweep but the last narrows
one of the parameters, and each of them can be narrowed twice at most. -/
def runSweeps (classes : ClassTable) (constraints : List Constraint) (strategy : Strategy)
    (passes : Int) : Sweeps :=
  match strategy with
  | .fixpoint => settle classes.keys constraints (2 * classes.params.length + 1) .top
  | .bounded =>
    let s := sweepTimes classes.keys constraints (passCount passes * constraints.length) .top
    { s with converged := s.converged || constraints.isEmpty }

/-- Narrows the parameters of a program by constraints. -/
def solve (classes : ClassTable) (constraints : List Constraint) (strategy : Strategy)
    (passes : Int) : Solution :=
  let s := runSweeps classes constraints strategy passes
  ⟨classes.params.map fun p => ⟨p, s.assignment p.key⟩, s.count, s.converged, s.findings, s.idle,
    s.repeats⟩

end Polarity

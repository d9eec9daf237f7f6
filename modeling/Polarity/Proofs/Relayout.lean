import Polarity.Report
import Polarity.Proofs.Expansion

/-!
# Layout does not matter

Places decide which bounds belong to an occurrence and which types have been reported. Still,
two sources with the same words come to the same: each stage commutes with leaving out places,
and what is shown in the end has none.

* `occurrenceBounds_unplaced`, `generate_unplaced`: the constraints of a program without places;
* `inference_unplaced`: what is shown of an inference does not depend on places;
* `parse_unplaced`: sources with the same words are read in the same way;
* `layout_irrelevant`: so layout does not matter.
-/

namespace Polarity

/-! ## Constraints without places -/

def Expr.unplaced : Expr → Expr
  | .occurrence o => .occurrence ⟨o.param, o.type.unplaced⟩
  | .transform l r => .transform l.unplaced r.unplaced
  | .join l r => .join l.unplaced r.unplaced
  | .absent => .absent
  | .literal v => .literal v
  | .param r => .param r

def Constraint.unplaced (c : Constraint) : Constraint := ⟨c.left.unplaced, c.right.unplaced, c.rule⟩

theorem Expr.textIn_unplaced (nested : Bool) (e : Expr) :
    e.unplaced.textIn nested = e.textIn nested := by
  induction e generalizing nested with
  | occurrence o =>
    simp only [Expr.unplaced, Expr.textIn, Occurrence.text, TypeUse.text, before_unplaced]
  | transform l r ihl ihr | join l r ihl ihr => simp only [Expr.unplaced, Expr.textIn, ihl, ihr]
  | absent | literal | param => rfl

/-- Places are not shown. -/
theorem Constraint.text_unplaced (c : Constraint) : c.unplaced.text = c.text := by
  simp only [Constraint.text, Constraint.unplaced, Expr.text, Expr.textIn_unplaced]

theorem Constraint.textWithRule_unplaced (c : Constraint) :
    c.unplaced.textWithRule = c.textWithRule := by
  rw [Constraint.textWithRule, Constraint.textWithRule, c.text_unplaced]
  rfl

section
variable {classes classes' : ClassTable} {standIn : Variance} {param : Text}

theorem argumentExpr_unplaced (heads : SameHeads classes classes') (t : TypeUse) (i : Nat)
    (arg : TypeArg) :
    argumentExpr classes' standIn param t.unplaced i (arg.1, arg.2.unplaced) =
      (argumentExpr classes standIn param t i arg).unplaced := by
  have parameter : (parameterExpr classes standIn t i).unplaced =
      parameterExpr classes standIn t i := by
    unfold parameterExpr
    split <;> rfl
  simp only [argumentExpr, Expr.unplaced, parameter, parameterExpr_unplaced heads]

theorem argumentBounds_unplaced (heads : SameHeads classes classes') {t : TypeUse} (i : Nat)
    {args : List TypeArg}
    (h : ∀ arg ∈ args,
      emittedConstraints (occurrenceBounds classes' standIn param arg.2.unplaced) =
        (emittedConstraints (occurrenceBounds classes standIn param arg.2)).map
          Constraint.unplaced) :
    emittedConstraints (argumentBounds classes' standIn param t.unplaced i
        (TypeArg.unplaced args)) =
      (emittedConstraints (argumentBounds classes standIn param t i args)).map
        Constraint.unplaced := by
  induction args generalizing i with
  | nil => rfl
  | cons arg rest ih =>
    rw [TypeArg.unplaced_cons, argumentBounds_constraints, argumentBounds_constraints,
      List.map_cons, List.map_append, h arg (.head _), ih (i + 1) fun arg ha => h arg (.tail _ ha),
      argumentExpr_unplaced heads]
    rfl

/-- The constraints for a type without places are the constraints for the type, without
places. -/
theorem occurrenceBounds_unplaced (heads : SameHeads classes classes') (t : TypeUse) :
    emittedConstraints (occurrenceBounds classes' standIn param t.unplaced) =
      (emittedConstraints (occurrenceBounds classes standIn param t)).map Constraint.unplaced := by
  induction t with
  | mk name args span ih =>
    have inner := argumentBounds_unplaced heads (t := .mk name args span) 0 ih
    rw [TypeUse.unplaced_mk] at inner
    rw [TypeUse.unplaced_mk, occurrenceBounds, occurrenceBounds, TypeArg.isEmpty_unplaced]
    split
    · rw [terminalBound_constraints, terminalBound_constraints]
      rfl
    · exact inner

theorem classBounds_unplaced (heads : SameHeads classes classes') (d : ClassDecl) :
    emittedConstraints (classBounds classes' standIn d.unplaced) =
      (emittedConstraints (classBounds classes standIn d)).map Constraint.unplaced := by
  simp only [classBounds_constraints, ClassDecl.unplaced_eq, List.map_flatMap, List.flatMap_map,
    positions_unplaced, List.map_cons, Position.unplaced, occurrenceBounds_unplaced heads]
  rfl

theorem generate_unplaced (classes : ClassTable) (policy : Policy) :
    (generate classes.unplaced policy).constraints =
      (generate classes policy).constraints.map Constraint.unplaced := by
  simp only [generate_constraints, ClassTable.unplaced, List.flatMap_map, List.map_flatMap]
  exact List.flatMap_congr fun d _ => classBounds_unplaced (sameHeads_unplaced classes) d

end

/-! ## Inference without places -/

section
variable (classes : ClassTable)

theorem params_unplaced : classes.unplaced.params = classes.params := by
  simp only [ClassTable.params, ClassTable.unplaced, List.flatMap_map]
  rfl

theorem names_unplaced : classes.unplaced.names = classes.names := by
  simp only [ClassTable.names, ClassTable.unplaced, List.map_map]
  rfl

theorem applied_args_unplaced {args : List TypeArg}
    (h : ∀ arg ∈ args, arg.2.unplaced.applied = arg.2.applied) :
    TypeArg.applied (TypeArg.unplaced args) = TypeArg.applied args := by
  induction args with
  | nil => rfl
  | cons arg rest ih =>
    rw [TypeArg.unplaced_cons, TypeArg.applied, TypeArg.applied, h arg (.head _),
      ih fun arg ha => h arg (.tail _ ha)]

theorem TypeUse.applied_unplaced (t : TypeUse) : t.unplaced.applied = t.applied := by
  induction t with
  | mk name args span ih =>
    rw [TypeUse.unplaced_mk, TypeUse.applied, TypeUse.applied, TypeArg.isEmpty_unplaced,
      applied_args_unplaced ih]

theorem ClassDecl.types_unplaced (d : ClassDecl) :
    d.unplaced.types = d.types.map TypeUse.unplaced := by
  simp only [ClassDecl.types, ClassDecl.unplaced_eq, List.flatMap_map, List.map_flatMap]
  rfl

theorem referencedClasses_unplaced :
    referencedClasses classes.unplaced.decls = referencedClasses classes.decls := by
  simp only [referencedClasses, ClassTable.unplaced, List.flatMap_map, ClassDecl.types_unplaced,
    TypeUse.applied_unplaced]

theorem reports_unplaced :
    classes.unplaced.reports.map Diagnostic.fault = classes.reports.map Diagnostic.fault := by
  simp only [ClassTable.reports, List.map_flatMap]
  simp only [ClassTable.unplaced, List.flatMap_map, ClassDecl.types_unplaced]
  exact List.flatMap_congr fun d _ => List.flatMap_congr fun t _ =>
    reports_faults (sameHeads_unplaced classes) t

theorem ClassTable.reduced_unplaced (standIn : Variance) (mode : Substitution) :
    classes.unplaced.reduced standIn mode = classes.reduced standIn mode := by
  have heads := sameHeads_unplaced classes
  have position (d : ClassDecl) (param : Text) (x : Position) :
      x.unplaced.reduced classes.unplaced standIn mode d.unplaced param =
        x.reduced classes standIn mode d param := position_reduced_unplaced heads d x
  simp only [ClassTable.reduced]
  simp only [ClassTable.unplaced, List.flatMap_map]
  simp only [ClassDecl.unplaced_eq, List.flatMap_map, positions_unplaced]
  exact List.flatMap_congr fun d _ => List.flatMap_congr fun p _ => List.flatMap_congr fun m _ =>
    List.flatMap_congr fun x _ => position d p x

theorem solve_congr {classes classes' : ClassTable} (h : classes.params = classes'.params)
    (constraints : List Constraint) (strategy : Strategy) (passes : Int) :
    solve classes constraints strategy passes = solve classes' constraints strategy passes := by
  simp only [solve, runSweeps, ClassTable.keys, h]

/-- What is shown of an inference, and how it came about, does not depend on places. -/
theorem inference_unplaced (policy : Policy) (mode : Substitution) (strategy : Strategy)
    (passes : Int) :
    (∀ rules, (classes.unplaced.inference policy mode strategy passes).report rules =
      (classes.inference policy mode strategy passes).report rules) ∧
    (classes.unplaced.inference policy mode strategy passes).solution =
      (classes.inference policy mode strategy passes).solution := by
  have solution : (classes.unplaced.inference policy mode strategy passes).solution =
      (classes.inference policy mode strategy passes).solution := by
    simp only [ClassTable.inference, classes.reduced_unplaced]
    exact solve_congr (params_unplaced classes) _ _ _
  refine ⟨fun rules => ?_, solution⟩
  have lines : ((generate classes policy).constraints.map Constraint.unplaced).map
        (if rules then Constraint.textWithRule else Constraint.text) =
      (generate classes policy).constraints.map
        (if rules then Constraint.textWithRule else Constraint.text) := by
    rw [List.map_map]
    refine List.map_congr_left fun c _ => ?_
    cases rules with
    | true => exact c.textWithRule_unplaced
    | false => exact c.text_unplaced
  rw [Inference.report, Inference.report, solution]
  simp only [ClassTable.inference, generate_unplaced, lines, classes.reduced_unplaced,
    Inference.undeclared, Inference.undeclaredWith, referencedClasses_unplaced, names_unplaced]

end

/-! ## Reading the same words -/

theorem unplaced_of_lexemes {ts ts' : List Token}
    (same : ts.map Token.lexeme = ts'.map Token.lexeme) :
    ts.map Token.unplaced = ts'.map Token.unplaced := by
  have split (ts : List Token) : ts.map Token.unplaced =
      (ts.map Token.lexeme).map fun l => ⟨l.1, l.2, .nowhere⟩ := by
    rw [List.map_map]
    rfl
  rw [split ts, same, ← split]

/-- Sources with the same words are read in the same way, up to places. -/
theorem parse_unplaced {source source' : Text}
    (same : (significant (tokenize source)).map Token.lexeme =
      (significant (tokenize source')).map Token.lexeme) :
    unplacedOutcome (List.map ClassDecl.unplaced) (parse source) =
      unplacedOutcome (List.map ClassDecl.unplaced) (parse source') := by
  have read (source : Text) : unplacedOutcome (List.map ClassDecl.unplaced) (parse source) =
      (Reading.run .nowhere .start ((significant (tokenize source)).map Token.unplaced)).result :=
    (run_unplaced (.ofOffsets source.length source.length) .start _).symm
  rw [read source, read source', unplaced_of_lexemes same]

/-! ## Layout does not matter -/

/-- Two outcomes show the same: the same reports after as many sweeps, or the same faults. -/
def SameOutcome : Except Failure Inference → Except Failure Inference → Prop
  | .ok i, .ok i' =>
    (∀ rules, i.report rules = i'.report rules) ∧ i.solution.sweeps = i'.solution.sweeps ∧
      i.solution.converged = i'.solution.converged
  | .error (.diagnostics ds), .error (.diagnostics ds') =>
    ds.map (fun d => (d.fault.code, d.fault.message)) =
      ds'.map fun d => (d.fault.code, d.fault.message)
  | _, _ => False

theorem sameOutcome_of_faults {ds ds' : List Diagnostic}
    (same : ds.map Diagnostic.fault = ds'.map Diagnostic.fault) :
    SameOutcome (.error (.diagnostics ds)) (.error (.diagnostics ds')) := by
  have shown (ds : List Diagnostic) : ds.map (fun d => (d.fault.code, d.fault.message)) =
      (ds.map Diagnostic.fault).map fun fault => (fault.code, fault.message) := by
    rw [List.map_map]
    rfl
  exact (shown ds).trans (same ▸ (shown ds').symm)

theorem infer_unplaced {options : Options} {source source' : Text} {decls decls' : List ClassDecl}
    {policy : Policy} {strategy : Strategy} (parsed : parse source = .ok decls)
    (parsed' : parse source' = .ok decls')
    (same : decls.map ClassDecl.unplaced = decls'.map ClassDecl.unplaced)
    (chosen : Policy.ofName? options.unresolved = some policy)
    (known : Strategy.ofName? options.strategy = some strategy) :
    SameOutcome (infer options source) (infer options source') := by
  -- Both programs are compared with the same one, which has no places.
  have tables : ClassTable.unplaced ⟨decls⟩ = ClassTable.unplaced ⟨decls'⟩ :=
    congrArg ClassTable.mk same
  have faults : (ClassTable.reports ⟨decls⟩).map Diagnostic.fault =
      (ClassTable.reports ⟨decls'⟩).map Diagnostic.fault := by
    rw [← reports_unplaced ⟨decls⟩, tables, reports_unplaced]
  obtain ⟨failed, failed'⟩ | ⟨inferred, inferred'⟩ :=
    infer_together parsed parsed' chosen known (.of_eq faults)
  · rw [failed, failed']
    exact sameOutcome_of_faults faults
  · obtain ⟨report, solution⟩ := inference_unplaced ⟨decls⟩ policy (.ofName options.substitution)
      strategy options.passes
    obtain ⟨report', solution'⟩ := inference_unplaced ⟨decls'⟩ policy
      (.ofName options.substitution) strategy options.passes
    rw [tables] at report solution
    have solutions := solution.symm.trans solution'
    rw [inferred, inferred']
    exact ⟨fun rules => (report rules).symm.trans (report' rules),
      congrArg Solution.sweeps solutions, congrArg Solution.converged solutions⟩

/-- **Layout does not matter.** Two sources with the same words, however these are spaced, come to
the same under every known policy and strategy: either both are inferred, with the same reports,
after as many sweeps and converged alike, or both fail with the same faults in the same order. -/
theorem layout_irrelevant (options : Options) (source source' : Text)
    (same : (significant (tokenize source)).map Token.lexeme =
      (significant (tokenize source')).map Token.lexeme)
    (policy : (Policy.ofName? options.unresolved).isSome)
    (strategy : (Strategy.ofName? options.strategy).isSome) :
    SameOutcome (infer options source) (infer options source') := by
  obtain ⟨_, chosen⟩ := Option.isSome_iff_exists.1 policy
  obtain ⟨_, known⟩ := Option.isSome_iff_exists.1 strategy
  have outcomes := parse_unplaced same
  cases parsed : parse source with
  | ok decls =>
    cases parsed' : parse source' with
    | ok decls' =>
      rw [parsed, parsed'] at outcomes
      exact infer_unplaced parsed parsed' (Except.ok.inj outcomes) chosen known
    | error d' =>
      rw [parsed, parsed'] at outcomes
      cases outcomes
  | error d =>
    cases parsed' : parse source' with
    | ok decls' =>
      rw [parsed, parsed'] at outcomes
      cases outcomes
    | error d' =>
      rw [parsed, parsed'] at outcomes
      have diagnostics : d.unplaced = d'.unplaced := Except.error.inj outcomes
      have fault : d.unplaced.fault = d'.unplaced.fault := by rw [diagnostics]
      rw [infer, infer, parsed, parsed']
      exact sameOutcome_of_faults (congrArg (fun f => [f]) fault)

/-- A class with as few blanks as possible. -/
def denseSource : Text := "class A<X>\x7bB<A<X>,X>f(C<X>A<?super X>);\x7d"

/-- The same class with blanks between all words. -/
def airySource : Text :=
  "\n class A < X >\n\x7b\n\tB < A < X > , X > f ( C < X > A < ? super X > ) ;\n\x7d\n"

theorem layout_irrelevant_airy :
    (significant (tokenize denseSource)).map Token.lexeme =
      (significant (tokenize airySource)).map Token.lexeme ∧
    (Policy.ofName? "invariant").isSome ∧ (Strategy.ofName? "bounded").isSome ∧
    SameOutcome (infer ⟨"all", "bounded", 1, "invariant"⟩ denseSource)
      (infer ⟨"all", "bounded", 1, "invariant"⟩ airySource) := by
  have same : (significant (tokenize denseSource)).map Token.lexeme =
      (significant (tokenize airySource)).map Token.lexeme := by
    decide +kernel
  exact ⟨same, by decide, by decide,
    layout_irrelevant ⟨"all", "bounded", 1, "invariant"⟩ denseSource airySource same (by decide)
      (by decide)⟩

end Polarity

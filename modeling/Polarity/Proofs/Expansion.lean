import Polarity.Proofs.Closure
import Polarity.Proofs.Reports

/-!
# What occurrences stand for

Reduction looks up the bounds of an occurrence by its place. In a program the places tell the
types apart, so what an occurrence stands for can be said by recursion on its type, without
constraints and without places.

* `TypeUse.reduced`: what the occurrence of a parameter in a type stands for;
* `resolve_node`: reduction finds it;
* `ClassTable.reduced`: the reduced constraints of a program, position by position;
* `simplify_generate`: reduction finds them, in this order;
* `infer_known`, `infer_together`: what inference comes to, said in these terms;
* `reduced_unplaced`: what occurrences stand for does not depend on where the types stand.
-/

namespace Polarity

section
variable (classes : ClassTable) (standIn : Variance) (mode : Substitution) (param : Text)

mutual

/-- What the occurrence of `param` in a type stands for. -/
def TypeUse.reduced : TypeUse → List Expr
  | .mk name args span =>
    if args.isEmpty then [.literal (if name = param then .covariant else .bivariant)]
    else gathered (mode.counted (TypeArg.reduced (.mk name args span) 0 args))

/-- What the bounds by the arguments of `t` from index `i` on stand for. -/
def TypeArg.reduced (t : TypeUse) : (i : Nat) → List TypeArg → List (List Expr)
  | _, [] => []
  | i, (w, arg) :: rest =>
    Expr.combine Expr.reducedTransform
        (Expr.combine Expr.reducedJoin [.literal w.variance] [parameterExpr classes standIn t i])
        arg.reduced ::
      TypeArg.reduced t (i + 1) rest

end

end

/-! ## Reduction of occurrences -/

section
variable {classes : ClassTable} {standIn : Variance} {mode : Substitution} {param : Text}

theorem reduceWith_argumentExpr (f : Occurrence → List Expr) (t : TypeUse) (i : Nat)
    (arg : TypeArg) :
    (argumentExpr classes standIn param t i arg).reduceWith f =
      Expr.combine Expr.reducedTransform
        (Expr.combine Expr.reducedJoin [.literal arg.1.variance]
          [parameterExpr classes standIn t i]) (f ⟨param, arg.2⟩) := by
  unfold argumentExpr parameterExpr
  cases classes.parameter t i <;> rfl

theorem reduced_args {f : Occurrence → List Expr} {t : TypeUse} (i : Nat) {args : List TypeArg}
    (h : ∀ arg ∈ args, f ⟨param, arg.2⟩ = arg.2.reduced classes standIn mode param) :
    (args.mapIdx fun j => argumentExpr classes standIn param t (i + j)).map (Expr.reduceWith f) =
      TypeArg.reduced classes standIn mode param t i args := by
  induction args generalizing i with
  | nil => rfl
  | cons arg rest ih =>
    rw [TypeArg.reduced, ← ih (i + 1) fun arg ha => h arg (.tail _ ha), List.mapIdx_cons,
      List.map_cons, Nat.add_zero, reduceWith_argumentExpr, h arg (.head _)]
    simp only [Nat.add_right_comm i 1, Nat.add_assoc i]

theorem gathered_literal (v : Variance) : gathered [[.literal v]] = [.literal v] := rfl

/-- The bounds of a type stand for what its arguments stand for. -/
theorem gathered_nodeBounds {f : Occurrence → List Expr} {t : TypeUse}
    (h : ∀ arg ∈ t.args, f ⟨param, arg.2⟩ = arg.2.reduced classes standIn mode param) :
    gathered ((mode.counted (nodeBounds classes standIn param t)).map (Expr.reduceWith f)) =
      t.reduced classes standIn mode param := by
  obtain ⟨name, args, span⟩ := t
  rw [← mode.counted_map, TypeUse.reduced]
  by_cases terminal : args.isEmpty = true
  · simp only [nodeBounds, TypeUse.isTerminal, TypeUse.args, terminal, ↓reduceIte, TypeUse.name,
      List.map_cons, List.map_nil, Expr.reduceWith]
    cases mode <;> exact gathered_literal _
  · have inner := reduced_args (t := .mk name args span) 0 h
    simp only [Nat.zero_add, TypeUse.args] at inner
    simp only [nodeBounds, TypeUse.isTerminal, TypeUse.args, terminal, ↓reduceIte,
      Bool.false_eq_true, inner]

variable {policy : Policy}

/-- **Reduction finds what an occurrence stands for.** -/
theorem resolve_node (placed : Placed classes) {depth : Nat}
    (hd : Exhausts (boundsOf mode (generate classes policy).constraints) depth) {u : TypeUse}
    (h : classes.Occurs param u) :
    resolve (boundsOf mode (generate classes policy).constraints) depth ⟨param, u⟩ =
      u.reduced classes policy.standIn mode param := by
  induction u with
  | mk name args span ih =>
    let o : Occurrence := ⟨param, .mk name args span⟩
    have bounds : boundsOf mode (generate classes policy).constraints o.key =
      mode.counted (nodeBounds classes policy.standIn param o.type) := (boundsOf_place placed h).1
    have some_bound : boundsOf mode (generate classes policy).constraints o.key ≠ [] :=
      (boundsOf_place placed h).2
    rw [resolve_of_ne_nil hd some_bound, bounds]
    exact gathered_nodeBounds fun arg ha => ih arg ha (h.arg ha)

end

/-! ## The reduced constraints of a program -/

/-- A type in a method, how it counts there, and the rule that says so. -/
structure Position where
  variance : Variance
  rule : Rule
  type : TypeUse

/-- The types of a method, the result first. -/
def Method.positions (m : Method) : List Position :=
  ⟨.covariant, .returnPosition, m.returns⟩ ::
    m.params.map fun t => ⟨.contravariant, .argumentPosition, t⟩

/-- The bound of a parameter of `d` by a position. -/
def Position.constraint (d : ClassDecl) (param : Text) (x : Position) : Constraint :=
  ⟨.param (d.ref param), .transform (.literal x.variance) (.occurrence ⟨param, x.type⟩),
    some x.rule⟩

section
variable (classes : ClassTable) (standIn : Variance) (mode : Substitution)

/-- The reduced constraints on a parameter of `d` by a position. -/
def Position.reduced (d : ClassDecl) (param : Text) (x : Position) : List Constraint :=
  ((Expr.combine Expr.reducedTransform [.literal x.variance]
    (x.type.reduced classes standIn mode param)).filter (!·.isTop)).map fun bound =>
      ⟨.param (d.ref param), bound, none⟩

/-- The reduced constraints of a program, position by position. -/
def ClassTable.reduced : List Constraint :=
  classes.decls.flatMap fun d => d.params.flatMap fun param => d.methods.flatMap fun m =>
    m.positions.flatMap (Position.reduced classes standIn mode d param)

end

section
variable {classes : ClassTable} {standIn : Variance} {mode : Substitution} {param : Text}

theorem Method.type_of_mem_positions {m : Method} {x : Position} (h : x ∈ m.positions) :
    x.type ∈ m.types := by
  obtain rfl | h := List.mem_cons.1 h
  · exact .head _
  · obtain ⟨t, ht, rfl⟩ := List.mem_map.1 h
    exact .tail _ ht

/-- What arises for a class, position by position. -/
theorem classBounds_constraints (d : ClassDecl) :
    emittedConstraints (classBounds classes standIn d) =
      d.params.flatMap fun param => d.methods.flatMap fun m => m.positions.flatMap fun x =>
        x.constraint d param ::
          emittedConstraints (occurrenceBounds classes standIn param x.type) := by
  simp only [emittedConstraints, classBounds, methodBounds, List.filterMap_flatMap,
    List.filterMap_append, Method.positions, List.flatMap_cons, List.flatMap_map]
  rfl

theorem filter_isParam_occurrenceBounds (t : TypeUse) :
    (emittedConstraints (occurrenceBounds classes standIn param t)).filter (·.left.isParam) =
      [] := by
  rw [List.filter_eq_nil_iff]
  intro c hc
  obtain ⟨u, -, hc⟩ := exists_node_of_mem_emittedConstraints hc
  rw [left_of_mem_nodeConstraints hc]
  exact Bool.false_ne_true

/-- Of the constraints for a position, one is on a class parameter. -/
theorem filter_isParam_generate (policy : Policy) :
    (generate classes policy).constraints.filter (·.left.isParam) =
      classes.decls.flatMap fun d => d.params.flatMap fun param => d.methods.flatMap fun m =>
        m.positions.map (Position.constraint d param) := by
  have position (d : ClassDecl) (param : Text) (x : Position) :
      (x.constraint d param :: emittedConstraints (occurrenceBounds classes policy.standIn param
        x.type)).filter (·.left.isParam) = [x.constraint d param] := by
    rw [List.filter_cons_of_pos rfl, filter_isParam_occurrenceBounds]
  simp only [generate_constraints, classBounds_constraints, List.filter_flatMap, position,
    List.map_eq_flatMap]

/-- **Reduction finds the reduced constraints of a program**, in the order of the source. -/
theorem simplify_generate (placed : Placed classes) (mode : Substitution) (policy : Policy) :
    simplify mode (generate classes policy).constraints =
      classes.reduced policy.standIn mode := by
  have acyclic := generated_acyclic placed mode policy
  have ends := exhausts_boundsOf acyclic
  rw [simplify, reduceAll_eq acyclic, filter_isParam_generate, ClassTable.reduced]
  simp only [List.map_flatMap, List.flatMap_assoc, List.map_map, List.flatMap_map]
  -- Of each position the type occurs in the program, so its place leads to its own bounds.
  refine List.flatMap_congr fun d hd => List.flatMap_congr fun p hp =>
    List.flatMap_congr fun m hm => List.flatMap_congr fun x hx => ?_
  have occurs := classes.occurs_of_method hd hp hm (Method.type_of_mem_positions hx)
  simp only [Function.comp_apply, Position.constraint, Reduced.constraints, reduce,
    Expr.reduceWith, resolve_node placed ends occurs]
  rfl

end

/-- What is found out about a program in which nothing is wrong. -/
def ClassTable.inference (classes : ClassTable) (policy : Policy) (mode : Substitution)
    (strategy : Strategy) (passes : Int) : Inference where
  classes := classes
  generation := generate classes policy
  simplified := classes.reduced policy.standIn mode
  solution := solve classes (classes.reduced policy.standIn mode) strategy passes

/-- With a known policy and a known strategy, inference fails only when the policy asks for it
and some type is reported. -/
theorem infer_known {options : Options} {source : Text} {decls : List ClassDecl} {policy : Policy}
    {strategy : Strategy} (parsed : parse source = .ok decls)
    (chosen : Policy.ofName? options.unresolved = some policy)
    (known : Strategy.ofName? options.strategy = some strategy) :
    infer options source =
      if policy = .error ∧ ClassTable.reports ⟨decls⟩ ≠ [] then
        .error (.diagnostics (ClassTable.reports ⟨decls⟩))
      else .ok (ClassTable.inference ⟨decls⟩ policy (.ofName options.substitution) strategy
        options.passes) := by
  have placed := placed_of_parse parsed
  have generic : ∀ d ∈ decls, d.params ≠ [] := fun d hd => (printable_of_parse parsed d hd).generic
  have generated : generateNamed ⟨decls⟩ options.unresolved = some (generate ⟨decls⟩ policy) := by
    rw [generateNamed, chosen]
  have errors : (generate ⟨decls⟩ policy).errors =
      if policy = .error then ClassTable.reports ⟨decls⟩ else [] := by
    rw [Generation.errors, unresolved_generate placed generic]
    rfl
  rw [infer, parsed]
  by_cases wrong : policy = .error ∧ ClassTable.reports ⟨decls⟩ ≠ []
  · have some_error : (ClassTable.reports ⟨decls⟩).isEmpty = false :=
      List.isEmpty_eq_false_iff.2 wrong.2
    simp only [inferClasses, generated, errors, if_pos wrong, if_pos wrong.1, some_error,
      Bool.false_eq_true, ↓reduceIte]
  · have no_error : (generate ⟨decls⟩ policy).errors = [] := by
      rw [errors]
      split
      · rename_i strict
        exact not_not.1 fun some_error => wrong ⟨strict, some_error⟩
      · rfl
    rw [if_neg wrong]
    simp only [inferClasses_of_errors_nil generated no_error known, simplify_generate placed]
    rfl

/-- Two programs about which the same is reported, up to the order, fail together or succeed
together. -/
theorem infer_together {options : Options} {source source' : Text} {decls decls' : List ClassDecl}
    {policy : Policy} {strategy : Strategy} (parsed : parse source = .ok decls)
    (parsed' : parse source' = .ok decls')
    (chosen : Policy.ofName? options.unresolved = some policy)
    (known : Strategy.ofName? options.strategy = some strategy)
    (faults : ((ClassTable.reports ⟨decls⟩).map Diagnostic.fault).Perm
      ((ClassTable.reports ⟨decls'⟩).map Diagnostic.fault)) :
    (infer options source = .error (.diagnostics (ClassTable.reports ⟨decls⟩)) ∧
      infer options source' = .error (.diagnostics (ClassTable.reports ⟨decls'⟩))) ∨
    (infer options source = .ok (ClassTable.inference ⟨decls⟩ policy
        (.ofName options.substitution) strategy options.passes) ∧
      infer options source' = .ok (ClassTable.inference ⟨decls'⟩ policy
        (.ofName options.substitution) strategy options.passes)) := by
  have together : ClassTable.reports ⟨decls⟩ = [] ↔ ClassTable.reports ⟨decls'⟩ = [] := by
    have lengths := faults.length_eq
    rw [List.length_map, List.length_map] at lengths
    rw [← List.length_eq_zero_iff, lengths, List.length_eq_zero_iff]
  have outcome := infer_known parsed chosen known
  have outcome' := infer_known parsed' chosen known
  by_cases wrong : policy = .error ∧ ClassTable.reports ⟨decls⟩ ≠ []
  · have wrong' : policy = .error ∧ ClassTable.reports ⟨decls'⟩ ≠ [] :=
      ⟨wrong.1, fun none => wrong.2 (together.2 none)⟩
    rw [if_pos wrong] at outcome
    rw [if_pos wrong'] at outcome'
    exact .inl ⟨outcome, outcome'⟩
  · have fine : ¬ (policy = .error ∧ ClassTable.reports ⟨decls'⟩ ≠ []) :=
      fun wrong' => wrong ⟨wrong'.1, fun none => wrong'.2 (together.1 none)⟩
    rw [if_neg wrong] at outcome
    rw [if_neg fine] at outcome'
    exact .inr ⟨outcome, outcome'⟩

/-! ## Places do not matter -/

/-- The classes without places. -/
def ClassTable.unplaced (classes : ClassTable) : ClassTable :=
  ⟨classes.decls.map ClassDecl.unplaced⟩

def Position.unplaced (x : Position) : Position := { x with type := x.type.unplaced }

theorem positions_unplaced (m : Method) :
    m.unplaced.positions = m.positions.map Position.unplaced := by
  simp only [Method.positions, Method.unplaced_eq, List.map_cons, List.map_map]
  rfl

theorem sameHeads_unplaced (classes : ClassTable) : SameHeads classes classes.unplaced := by
  intro name
  simp only [ClassTable.paramsOf, ClassTable.lookup, ClassTable.unplaced, List.find?_map,
    Option.map_map]
  rfl

section
variable {classes classes' : ClassTable} {standIn : Variance} {mode : Substitution} {param : Text}

/-- The parameter that an argument is given to depends on the parameters of the class only. -/
theorem parameterExpr_eq (t : TypeUse) (i : Nat) :
    parameterExpr classes standIn t i =
      match (classes.paramsOf t.name).bind fun params => params[i]?.map fun p => (params, p) with
      | some (params, p) => .param (ClassDecl.ref ⟨t.name, params, [], .nowhere⟩ p)
      | none => .literal standIn := by
  unfold parameterExpr ClassTable.parameter ClassTable.paramsOf
  cases found : classes.lookup t.name with
  | none => rfl
  | some decl =>
    have name : decl.name = t.name := by simpa using List.find?_some found
    simp only [Option.map_some, Option.bind_some]
    cases decl.params[i]? with
    | none => rfl
    | some p => simp only [Option.map_some, ClassDecl.ref, ClassDecl.signature, name]

theorem parameterExpr_unplaced (heads : SameHeads classes classes') (t : TypeUse) (i : Nat) :
    parameterExpr classes' standIn t.unplaced i = parameterExpr classes standIn t i := by
  rw [parameterExpr_eq, parameterExpr_eq, t.name_unplaced, heads]

theorem reduced_args_unplaced (heads : SameHeads classes classes') {t : TypeUse} (i : Nat)
    {args : List TypeArg}
    (h : ∀ arg ∈ args, arg.2.unplaced.reduced classes' standIn mode param =
      arg.2.reduced classes standIn mode param) :
    TypeArg.reduced classes' standIn mode param t.unplaced i (TypeArg.unplaced args) =
      TypeArg.reduced classes standIn mode param t i args := by
  induction args generalizing i with
  | nil => rfl
  | cons arg rest ih =>
    rw [TypeArg.unplaced_cons, TypeArg.reduced, TypeArg.reduced, parameterExpr_unplaced heads,
      h arg (.head _), ih (i + 1) fun arg ha => h arg (.tail _ ha)]

/-- What an occurrence stands for does not depend on where its type stands. -/
theorem reduced_unplaced (heads : SameHeads classes classes') (t : TypeUse) :
    t.unplaced.reduced classes' standIn mode param = t.reduced classes standIn mode param := by
  induction t with
  | mk name args span ih =>
    have inner := reduced_args_unplaced heads (t := .mk name args span) 0 ih
    rw [TypeUse.unplaced_mk] at inner
    rw [TypeUse.unplaced_mk, TypeUse.reduced, TypeUse.reduced, TypeArg.isEmpty_unplaced, inner]

theorem position_reduced_unplaced (heads : SameHeads classes classes') (d : ClassDecl)
    (x : Position) :
    x.unplaced.reduced classes' standIn mode d param = x.reduced classes standIn mode d param := by
  simp only [Position.reduced, Position.unplaced, reduced_unplaced heads]

end

end Polarity

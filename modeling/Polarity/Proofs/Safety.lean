import Polarity.Inference
import Polarity.Proofs.Exactness
import Polarity.Proofs.Fixpoint
import Polarity.Proofs.Occurrences

/-!
# What inference finds

What the variances of class parameters have to satisfy can be said without
constraints and without places, by recursion on the types of the methods.

* `TypeUse.variance`: the variance with which a parameter occurs in a type;
* `Assignment.Safe`: every parameter may be used in the methods of its class as its
  variance says;
* `tightest_node`: the bounds of an occurrence force this variance;
* `solves_iff_safe`: so the reduced constraints say that an assignment is safe;
* `inference_isGreatest`: inference finds the greatest safe assignment.
-/

namespace Polarity

/-- The variance of the parameter with index `i` of the class `name`, or `missing` when
there is none. -/
def ClassTable.paramVariance (classes : ClassTable) (missing : Variance) (ρ : Assignment)
    (name : Text) (i : Nat) : Variance :=
  match classes.lookup name with
  | none => missing
  | some decl =>
    match decl.params[i]? with
    | none => missing
    | some param => ρ ⟨decl.name, param⟩

section
variable (classes : ClassTable) (missing : Variance) (mode : Substitution) (ρ : Assignment)
  (param : Text)

mutual

/-- The variance with which `param` occurs in a type. -/
def TypeUse.variance : TypeUse → Variance
  | .mk name args _ =>
    if args.isEmpty then if name = param then .covariant else .bivariant
    else Variance.meetAll (mode.counted (TypeArg.variances name 0 args))

/-- The variances with which `param` occurs in the arguments of a type that applies
the class `name`, from index `i` on. -/
def TypeArg.variances (name : Text) : (i : Nat) → List TypeArg → List Variance
  | _, [] => []
  | i, (w, arg) :: rest =>
    (w.variance.join (classes.paramVariance missing ρ name i)).transform arg.variance ::
      TypeArg.variances name (i + 1) rest

end

end

/-- Every parameter may be used in the methods of its class as its variance says: a
result type counts as it is, a parameter type in reverse. -/
def Assignment.Safe (classes : ClassTable) (missing : Variance) (mode : Substitution)
    (ρ : Assignment) : Prop :=
  ∀ c ∈ classes.decls, ∀ p ∈ c.params, ∀ m ∈ c.methods,
    ρ ⟨c.name, p⟩ ≤ m.returns.variance classes missing mode ρ p ∧
    ∀ t ∈ m.params,
      ρ ⟨c.name, p⟩ ≤ Variance.contravariant.transform (t.variance classes missing mode ρ p)

section
variable {classes : ClassTable} {policy : Policy} {mode : Substitution} {ρ : Assignment}
  {missing : Variance} {param : Text} {θ : OccurrenceKey → Variance}

/-! ## The bounds of an occurrence force its variance -/

theorem variances_eq (name : Text) (i : Nat) (args : List TypeArg) :
    TypeArg.variances classes missing mode ρ param name i args = args.mapIdx fun j arg =>
      (arg.1.variance.join (classes.paramVariance missing ρ name (i + j))).transform
        (arg.2.variance classes missing mode ρ param) := by
  induction args generalizing i with
  | nil => rfl
  | cons arg rest ih =>
    rw [TypeArg.variances, ih, List.mapIdx_cons]
    simp only [Nat.add_zero, Nat.add_right_comm i 1, Nat.add_assoc i]

/-- A parameter is worth its variance, or what stands in for it. -/
theorem value_parameterExpr (t : TypeUse) (i : Nat) :
    (parameterExpr classes missing t i).value ρ θ = classes.paramVariance missing ρ t.name i := by
  unfold parameterExpr ClassTable.parameter ClassTable.paramVariance
  cases classes.lookup t.name with
  | none => rfl
  | some decl =>
    simp only
    cases decl.params[i]? <;> rfl

/-- The bounds of a type come to the variance with which the parameter occurs in it,
when its arguments have theirs. -/
theorem meetValue_nodeBounds {t : TypeUse}
    (h : ∀ arg ∈ t.args, θ ⟨param, arg.2.span⟩ = arg.2.variance classes missing mode ρ param) :
    meetValue ρ θ (mode.counted (nodeBounds classes missing param t)) =
      t.variance classes missing mode ρ param := by
  obtain ⟨name, args, span⟩ := t
  rw [meetValue, ← mode.counted_map, TypeUse.variance]
  by_cases terminal : args.isEmpty = true
  · simp only [nodeBounds, TypeUse.isTerminal, TypeUse.args, terminal, ↓reduceIte, TypeUse.name,
      List.map_cons, List.map_nil]
    cases mode <;> simp only [Substitution.counted, List.take] <;>
      exact Variance.meet_eq_left_iff.2 (Variance.le_bivariant _)
  · have same : (args.mapIdx (argumentExpr classes missing param (.mk name args span))).map
        (·.value ρ θ) = TypeArg.variances classes missing mode ρ param name 0 args := by
      rw [variances_eq]
      refine List.ext_getElem (by simp) fun i hi hi' => ?_
      have given : i < args.length := by simpa using hi
      simp only [List.getElem_map, List.getElem_mapIdx, argumentExpr, Expr.value,
        value_parameterExpr, Occurrence.key, h _ (List.getElem_mem given), TypeUse.name,
        Nat.zero_add]
    simp only [nodeBounds, TypeUse.isTerminal, TypeUse.args, terminal, ↓reduceIte,
      Bool.false_eq_true, same]

/-- The bounds found for the place of a type are those of its arguments that count. -/
theorem boundsOf_place (placed : Placed classes) {u : TypeUse} (h : classes.Occurs param u) :
    boundsOf mode (generate classes policy).constraints ⟨param, u.span⟩ =
        mode.counted (nodeBounds classes policy.standIn param u) ∧
      boundsOf mode (generate classes policy).constraints ⟨param, u.span⟩ ≠ [] := by
  rw [boundsOf_eq_counted, boundsOf_node placed h]
  exact ⟨rfl, mode.counted_ne_nil (nodeBounds_ne_nil u)⟩

/-- The bounds of an occurrence force the variance with which its parameter occurs in
the type. -/
theorem tightest_node (placed : Placed classes) {depth : Nat}
    (hd : Exhausts (boundsOf mode (generate classes policy).constraints) depth) {u : TypeUse}
    (h : classes.Occurs param u) :
    tightest (boundsOf mode (generate classes policy).constraints) depth ρ θ ⟨param, u.span⟩ =
      u.variance classes policy.standIn mode ρ param := by
  induction u with
  | mk name args span ih =>
    obtain ⟨bounds, some_bound⟩ := boundsOf_place placed h
    rw [tightest_of_ne_nil hd some_bound, bounds]
    exact meetValue_nodeBounds fun arg ha => ih arg ha (h.arg ha)

/-! ## The reduced constraints say that an assignment is safe -/

theorem mem_keys {d : ClassDecl} (hd : d ∈ classes.decls) {p : Text} (hp : p ∈ d.params) :
    (d.ref p).key ∈ classes.keys :=
  List.mem_map_of_mem (List.mem_flatMap.2 ⟨d, hd, List.mem_map_of_mem hp⟩)

/-- The place of a type, seen from a parameter of the class in which it stands. -/
def ClassTable.IsPlace (classes : ClassTable) (key : OccurrenceKey) : Prop :=
  ∃ u, classes.Occurs key.param u ∧ key.span = u.span

theorem over_parameterExpr {Q : OccurrenceKey → Prop} (t : TypeUse) (i : Nat) :
    (parameterExpr classes missing t i).Over (· ∈ classes.keys) Q := by
  unfold parameterExpr ClassTable.parameter
  cases found : classes.lookup t.name with
  | none => trivial
  | some decl =>
    cases given : decl.params[i]? with
    | none => simp only [given, Expr.Over]
    | some p =>
      simp only [given]
      exact mem_keys (List.mem_of_find?_eq_some found) (List.mem_of_getElem? given)

/-- Bounds mention declared parameters and the places of types, all of which have
bounds. -/
theorem generated_closed (placed : Placed classes) (mode : Substitution) (policy : Policy) :
    ClosedBounds (boundsOf mode (generate classes policy).constraints) (· ∈ classes.keys)
      classes.IsPlace := by
  rintro ⟨param, _⟩ ⟨u, occurs, rfl⟩
  obtain ⟨bounds, some_bound⟩ := boundsOf_place placed occurs
  refine ⟨some_bound, fun e he => ?_⟩
  rw [bounds] at he
  have he := mode.counted_subset _ he
  unfold nodeBounds at he
  split at he
  · rw [List.mem_singleton.1 he]
    trivial
  · obtain ⟨i, hi, rfl⟩ := List.mem_mapIdx.1 he
    exact ⟨⟨trivial, over_parameterExpr u i⟩, _, occurs.arg (List.getElem_mem hi), rfl⟩

/-- Every reduced constraint bounds a declared parameter by declared parameters. -/
theorem simplified_effective (placed : Placed classes) :
    ∀ c ∈ simplify mode (generate classes policy).constraints, c.Effective classes.keys := by
  intro c hc
  have acyclic := generated_acyclic placed mode policy
  have given : ∀ c ∈ (generate classes policy).constraints, c.left.isParam = true →
      (∃ key ∈ classes.keys, c.left.Names key) ∧
        c.right.Over (· ∈ classes.keys) classes.IsPlace := by
    rw [forall_param_constraints]
    intro d hd p hp m hm
    have key := mem_keys hd hp
    have place {t : TypeUse} (ht : t ∈ m.types) : classes.IsPlace ⟨p, t.span⟩ :=
      ⟨t, classes.occurs_of_method hd hp hm ht, rfl⟩
    refine ⟨⟨⟨_, key, rfl⟩, trivial, place (.head _)⟩, fun t ht => ?_⟩
    exact ⟨⟨_, key, rfl⟩, trivial, place (.tail _ ht)⟩
  obtain ⟨c₀, hc₀, hl, e, he, -, rfl⟩ := (mem_simplify acyclic).1 hc
  obtain ⟨declared, closed⟩ := given c₀ hc₀ hl
  exact ⟨declared,
    over_reduce (generated_closed placed mode policy) (exhausts_boundsOf acyclic) closed e he⟩

theorem simplified_holds_iff (placed : Placed classes) :
    (∀ c ∈ simplify mode (generate classes policy).constraints, c.Holds ρ θ) ↔
      ρ.Safe classes policy.standIn mode := by
  have acyclic := generated_acyclic placed mode policy
  have ends := exhausts_boundsOf acyclic
  rw [simplify_holds_iff_tightest acyclic, forall_param_constraints]
  refine forall₂_congr fun d hd => forall₂_congr fun p hp => forall₂_congr fun m hm => ?_
  have value {t : TypeUse} (ht : t ∈ m.types) := tightest_node (ρ := ρ) (θ := θ) placed ends
    (classes.occurs_of_method hd hp hm ht)
  refine and_congr ?_ (forall₂_congr fun t ht => ?_)
  · simp only [Expr.value, Occurrence.key, value (.head _)]
    rfl
  · simp only [Expr.value, Occurrence.key, value (.tail _ ht)]
    rfl

/-- **The reduced constraints say that an assignment is safe**, no more and no less. -/
theorem solves_iff_safe (placed : Placed classes) :
    ρ.Solves classes.keys (simplify mode (generate classes policy).constraints) ↔
      ρ.Safe classes policy.standIn mode := by
  constructor
  · intro solves
    exact (simplified_holds_iff (θ := fun _ => .bivariant) placed).1 fun c hc =>
      solves c hc (simplified_effective placed c hc) _
  · intro safe c hc _ θ
    exact (simplified_holds_iff placed).2 safe c hc

theorem solve_isGreatest_safe (placed : Placed classes) (mode : Substitution) (policy : Policy)
    (passes : Int) :
    IsGreatest {ρ : Assignment | ρ.Safe classes policy.standIn mode}
      (solve classes (simplify mode (generate classes policy).constraints) .fixpoint
        passes).assignment := by
  have greatest := solve_isGreatest (fixpoint_converged classes
    (simplify mode (generate classes policy).constraints) passes)
  simpa only [solves_iff_safe placed] using greatest

/-! ## Programs without unresolved types -/

/-- The class that a type applies is declared, with a parameter for each argument. -/
def ClassTable.Resolves (classes : ClassTable) (t : TypeUse) : Prop :=
  t.isTerminal = false → ∃ d ∈ classes.lookup t.name, t.args.length ≤ d.params.length

/-- Every type in a program is resolved. -/
def ClassTable.WellApplied (classes : ClassTable) : Prop := ∀ t ∈ classes.nodes, classes.Resolves t

instance (classes : ClassTable) (t : TypeUse) : Decidable (classes.Resolves t) :=
  inferInstanceAs (Decidable (_ → _))

instance (classes : ClassTable) : Decidable classes.WellApplied :=
  inferInstanceAs (Decidable (∀ t ∈ classes.nodes, classes.Resolves t))

theorem ClassTable.Resolves.exists_param {t : TypeUse} (h : classes.Resolves t) {i : Nat}
    (hi : i < t.args.length) :
    ∃ d p, classes.lookup t.name = some d ∧ d.params[i]? = some p := by
  have applied : t.isTerminal = false := by
    rw [TypeUse.isTerminal, List.isEmpty_eq_false_iff]
    exact List.ne_nil_of_length_pos (Nat.zero_lt_of_lt hi)
  obtain ⟨d, found, enough⟩ := h applied
  exact ⟨d, _, found, List.getElem?_eq_getElem (Nat.lt_of_lt_of_le hi enough)⟩

theorem unresolved_eq_nil (h : classes.WellApplied) (policy : Policy) :
    (generate classes policy).unresolved = [] := by
  rw [List.eq_nil_iff_forall_not_mem]
  intro r hr
  obtain ⟨u, hu, i, hi, missing⟩ := exists_node_of_mem_unresolved hr
  obtain ⟨d, p, found, given⟩ := (h u hu).exists_param hi
  simp only [ClassTable.parameter, found, given] at missing
  cases missing

/-- Where no type is unresolved, every policy will do, known or not. -/
theorem generateNamed_of_wellApplied (h : classes.WellApplied) (name : Text) :
    ∃ policy, generateNamed classes name = some (generate classes policy) ∧
      (generate classes policy).errors = [] := by
  have errors (policy : Policy) : (generate classes policy).errors = [] := by
    rw [Generation.errors, unresolved_eq_nil h]
    exact ite_self _
  unfold generateNamed
  cases Policy.ofName? name with
  | some policy => exact ⟨policy, rfl, errors policy⟩
  | none =>
    simp only [unresolved_eq_nil h, List.isEmpty_nil, ↓reduceIte]
    exact ⟨.error, rfl, errors .error⟩

/-- Where no type is unresolved, nothing stands in for a missing parameter. -/
theorem variance_of_resolves {missing' : Variance} {t : TypeUse}
    (h : ∀ u ∈ t.nodes, classes.Resolves u) :
    t.variance classes missing mode ρ param = t.variance classes missing' mode ρ param := by
  induction t with
  | mk name args span ih =>
    have own := h _ (TypeUse.self_mem_nodes _)
    have same : TypeArg.variances classes missing mode ρ param name 0 args =
        TypeArg.variances classes missing' mode ρ param name 0 args := by
      rw [variances_eq, variances_eq, List.mapIdx_eq_mapIdx_iff]
      intro i hi
      have ha := List.getElem_mem hi
      obtain ⟨d, p, found, given⟩ := own.exists_param hi
      have inner := ih _ ha fun u hu => h u (TypeUse.mem_nodes_iff.2 (.inr ⟨_, ha, hu⟩))
      simp only [TypeUse.name] at found
      simp only [inner, ClassTable.paramVariance, found, given, Nat.zero_add]
    rw [TypeUse.variance, TypeUse.variance, same]

theorem safe_of_wellApplied (h : classes.WellApplied) (missing missing' : Variance) :
    ρ.Safe classes missing mode ↔ ρ.Safe classes missing' mode := by
  refine forall₂_congr fun d hd => forall₂_congr fun p hp => forall₂_congr fun m hm => ?_
  have same {t : TypeUse} (ht : t ∈ m.types) : t.variance classes missing mode ρ p =
      t.variance classes missing' mode ρ p :=
    variance_of_resolves fun u hu => h u (mem_nodes_of_method hd hm ht hu)
  refine and_congr ?_ (forall₂_congr fun t ht => ?_)
  · rw [same (.head _)]
  · rw [same (.tail _ ht)]

theorem inferClasses_of_errors_nil {options : Options} {g : Generation} {strategy : Strategy}
    (generated : generateNamed classes options.unresolved = some g) (errors : g.errors = [])
    (known : Strategy.ofName? options.strategy = some strategy) :
    inferClasses options classes =
      let simplified := simplify (.ofName options.substitution) g.constraints
      .ok ⟨classes, g, simplified, solve classes simplified strategy options.passes⟩ := by
  simp only [inferClasses, generated, errors, List.isEmpty_nil, ↓reduceIte, known]

/-- **Inference finds the greatest safe assignment.** When a source can be read and
no type in it is unresolved, the strategy `fixpoint` gives every class parameter the
greatest variance with which all parameters may be used as the methods of their classes
use them. What would stand in for a missing parameter does not matter. -/
theorem inference_isGreatest (options : Options) (source : Text) (decls : List ClassDecl)
    (missing : Variance) (parsed : parse source = .ok decls)
    (applied : ClassTable.WellApplied ⟨decls⟩)
    (fixpoint : Strategy.ofName? options.strategy = some .fixpoint) :
    ∃ i, infer options source = .ok i ∧ i.classes.decls = decls ∧
      i.solution.entries = i.classes.params.map (fun p => ⟨p, i.solution.assignment p.key⟩) ∧
      IsGreatest {ρ : Assignment | ρ.Safe ⟨decls⟩ missing (.ofName options.substitution)}
        i.solution.assignment := by
  obtain ⟨policy, generated, errors⟩ := generateNamed_of_wellApplied applied options.unresolved
  have greatest := solve_isGreatest_safe (placed_of_parse parsed)
    (.ofName options.substitution) policy options.passes
  simp only [safe_of_wellApplied applied policy.standIn missing] at greatest
  have read : infer options source = inferClasses options ⟨decls⟩ := by rw [infer, parsed]
  have inferred := inferClasses_of_errors_nil generated errors fixpoint
  exact ⟨_, read.trans inferred, rfl, solve_entries .., greatest⟩

/-- Two classes that apply each other, also inside a type. -/
def mutualSource : Text :=
  "class A<X> \x7b B<A<X>> f(X); \x7d class B<U> \x7b A<? super U> g(); \x7d"

theorem mutualSource_accepted : (readSource mutualSource).diagnostic = none ∧
    ClassTable.WellApplied ⟨(readSource mutualSource).classes⟩ := by
  decide +kernel

theorem inference_isGreatest_mutual :
    let decls := (readSource mutualSource).classes
    parse mutualSource = .ok decls ∧ ClassTable.WellApplied ⟨decls⟩ ∧
    Strategy.ofName? "fixpoint" = some .fixpoint ∧
    ∃ i, infer ⟨"all", "fixpoint", 2, "error"⟩ mutualSource = .ok i ∧ i.classes.decls = decls ∧
      i.solution.entries = i.classes.params.map (fun p => ⟨p, i.solution.assignment p.key⟩) ∧
      IsGreatest {ρ : Assignment | ρ.Safe ⟨decls⟩ .bivariant (.ofName "all")}
        i.solution.assignment := by
  intro decls
  obtain ⟨read, applied⟩ := mutualSource_accepted
  have parsed : parse mutualSource = .ok decls := by rw [parse, Reading.result, read]
  exact ⟨parsed, applied, by decide,
    inference_isGreatest ⟨"all", "fixpoint", 2, "error"⟩ mutualSource decls .bivariant parsed
      applied (by decide)⟩

end

end Polarity

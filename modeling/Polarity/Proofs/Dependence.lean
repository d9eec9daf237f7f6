import Polarity.Proofs.Expansion
import Polarity.Proofs.NormalForms
import Polarity.Proofs.Schedule

/-!
# What stays symbolic

Reduction evaluates an operation only where one of its operands decides it. Of expressions in
general that leaves some that are constant all the same, such as the join of `+` with a join of `-`
and a parameter. The expressions of a program are built from joins of a wildcard with one parameter,
and of these none is left that does not depend on a parameter.

* `Expr.Evaluated`: what is `*` even where all parameters are `o` is the literal `*`;
* `Expr.evaluated_reducedTransform`: compositions of such expressions are such expressions;
* `evaluated_argument`: so are joins of a wildcard with a parameter, or with what stands in for it;
* `evaluated_reduced`: and so is all that the occurrences of a program stand for;
* `Expr.literal_of_constant`: a normal expression without parameters is a literal;
* `simplified_dependent`: reduced bounds are literals or depend on a parameter.
-/

namespace Polarity

/-- Every parameter is narrowed as far as possible. -/
def Assignment.bottom : Assignment := fun _ => .invariant

/-- A composition says nothing only if one of its operands says nothing. -/
theorem Variance.transform_eq_bivariant {a b : Variance} :
    a.transform b = .bivariant → a = .bivariant ∨ b = .bivariant := by
  cases a <;> cases b <;> decide

namespace Expr

/-! ## Evaluated expressions -/

/-- What is `*` even where all parameters are `o` is the literal `*`. -/
def Evaluated (e : Expr) : Prop := ∀ θ, e.value .bottom θ = .bivariant → e.isTop = true

theorem evaluated_literal (v : Variance) : (literal v).Evaluated := by
  intro θ top
  have top : v = .bivariant := top
  rw [top]
  rfl

theorem isTop_reducedTransform {l r : Expr} (h : l.isTop = true ∨ r.isTop = true) :
    (reducedTransform l r).isTop = true := by
  obtain top | top := h
  · rw [eq_of_isTop top]
    cases r with
    | literal v => cases v <;> rfl
    | _ => rfl
  · rw [eq_of_isTop top]
    cases l with
    | literal v => cases v <;> rfl
    | _ => rfl

theorem evaluated_reducedTransform {l r : Expr} (hl : l.Evaluated) (hr : r.Evaluated) :
    (reducedTransform l r).Evaluated := by
  intro θ top
  rw [value_reducedTransform] at top
  apply isTop_reducedTransform
  obtain left | right := Variance.transform_eq_bivariant top
  · exact .inl (hl θ left)
  · exact .inr (hr θ right)

/-! ## Constant expressions -/

/-- A normal expression without parameters is a literal. -/
theorem literal_of_constant {e : Expr} (normal : e.Normal) (constant : e.Grounded []) :
    e.literal? ≠ none := by
  have operands {unit : Variance} {l r : Expr} (stuck : Stuck unit l r)
      (left : l.literal? ≠ none) (right : r.literal? ≠ none) : False := by
    obtain unknown | unknown := stuck.unknown
    · exact left unknown
    · exact right unknown
  induction e with
  | absent => exact constant.elim
  | literal v => exact Option.some_ne_none v
  | param r => cases constant
  | occurrence o => exact constant.elim
  | transform l r ihl ihr =>
    obtain ⟨hl, hr, stuck⟩ := normal
    exact (operands stuck (ihl hl constant.1) (ihr hr constant.2)).elim
  | join l r ihl ihr =>
    obtain ⟨hl, hr, stuck⟩ := normal
    exact (operands stuck (ihl hl constant.1) (ihr hr constant.2)).elim

end Expr

/-! ## What occurrences stand for -/

section
variable {classes : ClassTable} {standIn : Variance} {mode : Substitution} {param : Text}

/-- The join of a wildcard with a parameter is the wildcard where the parameter is `o`, and no
wildcard is `*`. -/
theorem evaluated_argument (w : Wildcard) (t : TypeUse) (i : Nat) :
    (Expr.reducedJoin (.literal w.variance) (parameterExpr classes standIn t i)).Evaluated := by
  unfold parameterExpr
  cases classes.parameter t i with
  | ok ref =>
    intro θ top
    rw [value_reducedJoin] at top
    have wildcard : w.variance.join .invariant = .bivariant := top
    cases w <;> cases wildcard
  | error d => exact Expr.evaluated_literal _

theorem evaluated_reduced_args {t : TypeUse} (i : Nat) {args : List TypeArg}
    (inner : ∀ arg ∈ args, ∀ e ∈ arg.2.reduced classes standIn mode param, e.Evaluated) :
    ∀ es ∈ TypeArg.reduced classes standIn mode param t i args, ∀ e ∈ es, e.Evaluated := by
  induction args generalizing i with
  | nil => exact List.forall_mem_nil _
  | cons arg rest ih =>
    rw [TypeArg.reduced]
    refine List.forall_mem_cons.2 ⟨?_, ih (i + 1) fun arg ha => inner arg (.tail _ ha)⟩
    refine forall_combine (fun l r => Expr.evaluated_reducedTransform) ?_ (inner arg (.head _))
    rw [combine_singleton]
    exact List.forall_mem_singleton.2 (evaluated_argument arg.1 t i)

theorem evaluated_reduced (t : TypeUse) :
    ∀ e ∈ t.reduced classes standIn mode param, e.Evaluated := by
  induction t with
  | mk name args span ih =>
    rw [TypeUse.reduced]
    split
    · exact List.forall_mem_singleton.2 (Expr.evaluated_literal _)
    · apply forall_gathered (Expr.evaluated_literal _)
      intro es hes
      exact evaluated_reduced_args 0 ih es (mode.counted_subset _ hes)

/-- No reduced bound of a program is `*` where all parameters are `o`. -/
theorem value_bottom_of_mem_reduced {c : Constraint} (h : c ∈ classes.reduced standIn mode)
    (θ : OccurrenceKey → Variance) : c.right.value .bottom θ ≠ .bivariant := by
  simp only [ClassTable.reduced, List.mem_flatMap, Position.reduced, List.mem_map,
    List.mem_filter] at h
  obtain ⟨d, -, p, -, m, -, x, -, e, ⟨he, informative⟩, rfl⟩ := h
  have evaluated : e.Evaluated :=
    forall_combine (fun l r => Expr.evaluated_reducedTransform)
      (List.forall_mem_singleton.2 (Expr.evaluated_literal _)) (evaluated_reduced x.type) e he
  intro top
  rw [evaluated θ top] at informative
  cases informative

end

/-! ## The reduced constraints of a program -/

/-- **What stays symbolic depends on a parameter.** Take a source that can be read, any policy and
any mode. Every reduced bound is normal. If it is not a literal, it is `*` where all parameters are
`*`, and something else where all parameters are `o`. -/
theorem simplified_dependent {source : Text} {decls : List ClassDecl}
    (parsed : parse source = .ok decls) {policyName : Text} {policy : Policy}
    (known : Policy.ofName? policyName = some policy) (modeName : Text) :
    ∃ g, generateNamed ⟨decls⟩ policyName = some g ∧
      ∀ c ∈ simplify (.ofName modeName) g.constraints, c.right.Normal ∧
        (c.right.literal? = none →
          c.right.eval (ClassTable.keys ⟨decls⟩) .top = some .bivariant ∧
          ∃ v, c.right.eval (ClassTable.keys ⟨decls⟩) .bottom = some v ∧ v ≠ .bivariant) := by
  have placed := placed_of_parse parsed
  have acyclic := generated_acyclic placed (.ofName modeName) policy
  refine ⟨generate ⟨decls⟩ policy, by simp only [generateNamed, known], fun c hc => ?_⟩
  have normal := (simplified_of_mem acyclic c hc).right
  have grounded : c.right.Grounded (ClassTable.keys ⟨decls⟩) := (simplified_effective placed c hc).2
  let θ : OccurrenceKey → Variance := fun _ => .bivariant
  refine ⟨normal, fun symbolic => ⟨?_, c.right.value .bottom θ, ?_, ?_⟩⟩
  · have depends : ¬ c.right.Grounded [] := fun constant =>
      Expr.literal_of_constant normal constant symbolic
    rw [Expr.eval_of_grounded grounded θ, value_top_of_not_constant grounded depends]
  · exact Expr.eval_of_grounded grounded θ
  · rw [simplify_generate placed] at hc
    exact value_bottom_of_mem_reduced hc θ

/-- A class that is applied to itself inside itself, and an unknown one. -/
def symbolicSource : Text :=
  "class A<T, U> \x7b A<? extends A<T, U>, B<? super U>> m(U A<T, T>); \x7d"

theorem simplified_dependent_nested :
    let decls := (readSource symbolicSource).classes
    let bounds := (simplify (.ofName "all") (generate ⟨decls⟩ .invariant).constraints).map (·.right)
    parse symbolicSource = .ok decls ∧ Policy.ofName? "invariant" = some .invariant ∧
    bounds.length = 6 ∧ (bounds.filter (·.literal? = none)).length = 5 ∧
    ∀ e ∈ bounds, e.Normal ∧ (e.literal? = none →
      e.eval (ClassTable.keys ⟨decls⟩) .top = some .bivariant ∧
      ∃ v, e.eval (ClassTable.keys ⟨decls⟩) .bottom = some v ∧ v ≠ .bivariant) := by
  intro decls bounds
  have read : (readSource symbolicSource).diagnostic = none := by decide +kernel
  have parsed : parse symbolicSource = .ok decls := by rw [parse, Reading.result, read]
  have known : Policy.ofName? "invariant" = some .invariant := by decide
  obtain ⟨g, generated, dependent⟩ := simplified_dependent parsed known "all"
  obtain rfl : generate ⟨decls⟩ .invariant = g := by
    rw [generateNamed, known] at generated
    exact Option.some.inj generated
  exact ⟨parsed, known, by decide +kernel, by decide +kernel, List.forall_mem_map.2 dependent⟩

/-- Early evaluation alone is not enough: this join is always `*`, and it is kept. -/
example :
    let T : Expr := .param ⟨"T", "A", "A<T>"⟩
    let e := Expr.reducedJoin (.literal .covariant)
      (Expr.reducedJoin (.literal .contravariant) T)
    e.isTop = false ∧ e.value .bottom (fun _ => .invariant) = .bivariant := by
  decide

end Polarity

import Polarity.Proofs.Comparison
import Polarity.Proofs.Offences

/-!
# What a policy changes

A policy says what stands in for a missing class parameter. Where no type offends none is missing,
so all policies come to the same. Elsewhere a smaller variance that stands in makes every type
smaller, and so does what is inferred.

* `generate_of_wellApplied`: without offending types, no policy makes a difference;
* `safe_of_missing_le`: what is safe with a smaller stand-in is safe with a greater one;
* `policies_ordered`: how the policies compare.
-/

namespace Polarity

/-! ## Programs without offending types -/

section
variable {classes : ClassTable} {standIn standIn' : Variance} {param : Text}

theorem wellApplied_iff_offends :
    classes.WellApplied ↔ ∀ t ∈ classes.nodes, ¬ t.Offends classes := by
  refine forall₂_congr fun t _ => ?_
  rw [offends_iff_not_resolves, not_not]

/-- The bound by an argument that has a parameter names the parameter. -/
theorem argumentBound_of_resolves {t : TypeUse} (resolves : classes.Resolves t) {i : Nat}
    (given : i < t.args.length) (arg : TypeArg) :
    argumentBound classes standIn param t i arg =
      argumentBound classes standIn' param t i arg := by
  obtain ⟨d, p, found, param_eq⟩ := resolves.exists_param given
  have parameter : classes.parameter t i = .ok (d.ref p) := by
    simp only [ClassTable.parameter, found, param_eq]
  simp only [argumentBound, parameter]

theorem argumentBounds_of_resolves {t : TypeUse} (resolves : classes.Resolves t) (i : Nat)
    {args : List TypeArg} (given : i + args.length ≤ t.args.length)
    (inner : ∀ arg ∈ args, occurrenceBounds classes standIn param arg.2 =
      occurrenceBounds classes standIn' param arg.2) :
    argumentBounds classes standIn param t i args =
      argumentBounds classes standIn' param t i args := by
  induction args generalizing i with
  | nil => rfl
  | cons arg rest ih =>
    rw [List.length_cons] at given
    have own : argumentBound classes standIn param t i arg =
        argumentBound classes standIn' param t i arg :=
      argumentBound_of_resolves resolves (by omega) arg
    have later := ih (i + 1) (by omega) fun arg ha => inner arg (.tail _ ha)
    rw [argumentBounds, argumentBounds, own, inner arg (.head _), later]

theorem occurrenceBounds_of_resolves {t : TypeUse} (h : ∀ u ∈ t.nodes, classes.Resolves u) :
    occurrenceBounds classes standIn param t = occurrenceBounds classes standIn' param t := by
  induction t with
  | mk name args span ih =>
    have own := h _ (TypeUse.self_mem_nodes _)
    have inner : ∀ arg ∈ args, occurrenceBounds classes standIn param arg.2 =
        occurrenceBounds classes standIn' param arg.2 := by
      intro arg ha
      apply ih arg ha
      intro u hu
      exact h u (TypeUse.mem_nodes_iff.2 (.inr ⟨arg, ha, hu⟩))
    rw [occurrenceBounds, occurrenceBounds]
    split
    · rfl
    · exact argumentBounds_of_resolves own 0 (Nat.zero_add _).le inner

/-- Without offending types, nothing of what arises depends on the policy. -/
theorem generate_of_wellApplied (h : classes.WellApplied) (policy policy' : Policy) :
    (generate classes policy).emissions = (generate classes policy').emissions := by
  have inClass : ∀ d ∈ classes.decls,
      classBounds classes policy.standIn d = classBounds classes policy'.standIn d := by
    intro d hd
    refine List.flatMap_congr fun p _ => List.flatMap_congr fun m hm => ?_
    have position {t : TypeUse} (ht : t ∈ m.types) (v : Variance) (rule : Rule) :
        positionBounds classes policy.standIn d p v rule t =
          positionBounds classes policy'.standIn d p v rule t := by
      have inside : ∀ u ∈ t.nodes, classes.Resolves u := fun u hu =>
        h u (mem_nodes_of_method hd hm ht hu)
      rw [positionBounds, positionBounds, occurrenceBounds_of_resolves inside]
    rw [methodBounds, methodBounds, position (.head _)]
    congr 1
    exact List.flatMap_congr fun t ht => position (.tail _ ht) _ _
  simp only [generate]
  rw [List.flatMap_congr inClass]

theorem constraints_of_wellApplied (h : classes.WellApplied) (policy policy' : Policy) :
    (generate classes policy).constraints = (generate classes policy').constraints := by
  rw [Generation.constraints, Generation.constraints, generate_of_wellApplied h]

theorem reduced_of_wellApplied (placed : Placed classes) (h : classes.WellApplied)
    (policy policy' : Policy) (mode : Substitution) :
    classes.reduced policy.standIn mode = classes.reduced policy'.standIn mode := by
  rw [← simplify_generate placed, ← simplify_generate placed, constraints_of_wellApplied h]

/-! ## Greater and smaller stand-ins -/

variable {missing missing' : Variance} {mode : Substitution} {ρ : Assignment}

theorem paramVariance_missing_le (le : missing' ≤ missing) (name : Text) (i : Nat) :
    classes.paramVariance missing' ρ name i ≤ classes.paramVariance missing ρ name i := by
  rw [paramVariance_eq, paramVariance_eq]
  cases (classes.paramsOf name).bind (·[i]?) with
  | none => exact le
  | some p => exact le_rfl

theorem safe_of_missing_le (le : missing' ≤ missing) (safe : ρ.Safe classes missing' mode) :
    ρ.Safe classes missing mode := by
  rw [safe_iff_fits] at safe ⊢
  intro d hd p hp
  refine (safe d hd p hp).weaken (.inl rfl) le_rfl (positions_self d) ?_
  intro x hx name _ i
  exact paramVariance_missing_le le name i

/-- Where more is safe for the same parameters, no entry is smaller. -/
theorem Solution.Infers.entries_le {s s' : Solution} {mode' : Substitution}
    (h : s.Infers classes missing mode) (h' : s'.Infers classes missing' mode')
    (safe : ∀ ρ : Assignment, ρ.Safe classes missing' mode' → ρ.Safe classes missing mode) :
    List.Forall₂ (fun e' e => e'.param = e.param ∧ e'.variance ≤ e.variance)
      s'.entries s.entries := by
  have le := h.assignment_le h' safe
  rw [h.entries, h'.entries, List.forall₂_map_left_iff, List.forall₂_map_right_iff,
    List.forall₂_same]
  intro p _
  exact ⟨rfl, le p.key⟩

end

/-- The undeclared names do not depend on how inference is done. -/
theorem undeclared_inference (classes : ClassTable) (policy : Policy) (mode : Substitution)
    (strategy : Strategy) (passes : Int) :
    (classes.inference policy mode strategy passes).undeclared =
      Text.difference (referencedClasses classes.decls) classes.names := rfl

/-- **Policies matter for offending types only, and are ordered.** Take a source that can be read,
any mode and the strategy `fixpoint`. Where no type offends, inference succeeds whatever the name of
the policy, with the same constraints, reduced constraints, solution and undeclared names. In every
case it succeeds under `bivariant` and `invariant`, with the same undeclared names, and no entry is
greater under `invariant`. -/
theorem policies_ordered (mode strategy : Text) (passes : Int) (source : Text)
    (decls : List ClassDecl) (parsed : parse source = .ok decls)
    (fixpoint : Strategy.ofName? strategy = some .fixpoint) :
    ((∀ t ∈ ClassTable.nodes ⟨decls⟩, ¬ t.Offends ⟨decls⟩) →
      ∀ name name', ∃ i i', infer ⟨mode, strategy, passes, name⟩ source = .ok i ∧
        infer ⟨mode, strategy, passes, name'⟩ source = .ok i' ∧
        i.generation.constraints = i'.generation.constraints ∧ i.simplified = i'.simplified ∧
        i.solution = i'.solution ∧ i.undeclared = i'.undeclared) ∧
    ∃ i i', infer ⟨mode, strategy, passes, "bivariant"⟩ source = .ok i ∧
      infer ⟨mode, strategy, passes, "invariant"⟩ source = .ok i' ∧
      i.undeclared = i'.undeclared ∧
      List.Forall₂ (fun e' e => e'.param = e.param ∧ e'.variance ≤ e.variance)
        i'.solution.entries i.solution.entries := by
  constructor
  · intro none name name'
    have applied := wellApplied_iff_offends.2 none
    have fine := reports_eq_nil_iff_offends.2 none
    have succeeds (name : Text) : infer ⟨mode, strategy, passes, name⟩ source = .ok
        (ClassTable.inference ⟨decls⟩ (.chosen name) (.ofName mode) .fixpoint passes) :=
      (infer_eq_ok_iff parsed fixpoint).2 ⟨fun _ => fine, rfl⟩
    have simplified := reduced_of_wellApplied (placed_of_parse parsed) applied (.chosen name)
      (.chosen name') (.ofName mode)
    refine ⟨_, _, succeeds name, succeeds name', constraints_of_wellApplied applied _ _,
      simplified, ?_, ?_⟩
    · simp only [ClassTable.inference, simplified]
    · rw [undeclared_inference, undeclared_inference]
  · have lenient (name : Text) (h : Policy.chosen name ≠ .error) :
        infer ⟨mode, strategy, passes, name⟩ source = .ok
          (ClassTable.inference ⟨decls⟩ (.chosen name) (.ofName mode) .fixpoint passes) :=
      (infer_eq_ok_iff parsed fixpoint).2 ⟨fun strict => absurd strict h, rfl⟩
    have inferred := lenient "bivariant" (by decide)
    have inferred' := lenient "invariant" (by decide)
    have standIn_le :
        (Policy.chosen "invariant").standIn ≤ (Policy.chosen "bivariant").standIn := by
      decide
    refine ⟨_, _, inferred, inferred', ?_, ?_⟩
    · rw [undeclared_inference, undeclared_inference]
    · apply (infers_of_infer parsed fixpoint inferred).entries_le
        (infers_of_infer parsed fixpoint inferred')
      intro ρ safe
      exact safe_of_missing_le standIn_le safe

/-- Without offending types for two classes that apply each other, and with them. -/
theorem policies_ordered_both :
    let decls := (readSource mutualSource).classes
    let decls' := (readSource offendingSource).classes
    parse mutualSource = .ok decls ∧ (∀ t ∈ ClassTable.nodes ⟨decls⟩, ¬ t.Offends ⟨decls⟩) ∧
    parse offendingSource = .ok decls' ∧
    (∃ i i', infer ⟨"all", "fixpoint", 2, "error"⟩ mutualSource = .ok i ∧
      infer ⟨"all", "fixpoint", 2, "invariant"⟩ mutualSource = .ok i' ∧
      i.generation.constraints = i'.generation.constraints ∧ i.simplified = i'.simplified ∧
      i.solution = i'.solution ∧ i.undeclared = i'.undeclared) ∧
    ∃ i i', infer ⟨"all", "fixpoint", 2, "bivariant"⟩ offendingSource = .ok i ∧
      infer ⟨"all", "fixpoint", 2, "invariant"⟩ offendingSource = .ok i' ∧
      i.undeclared = i'.undeclared ∧
      List.Forall₂ (fun e' e => e'.param = e.param ∧ e'.variance ≤ e.variance)
        i'.solution.entries i.solution.entries := by
  intro decls decls'
  have read : (readSource mutualSource).diagnostic = none := by decide +kernel
  have read' : (readSource offendingSource).diagnostic = none := by decide +kernel
  have parsed : parse mutualSource = .ok decls := by rw [parse, Reading.result, read]
  have parsed' : parse offendingSource = .ok decls' := by rw [parse, Reading.result, read']
  have none : ∀ t ∈ ClassTable.nodes ⟨decls⟩, ¬ t.Offends ⟨decls⟩ := by decide +kernel
  have agree := (policies_ordered "all" "fixpoint" 2 mutualSource decls parsed (by decide)).1
  exact ⟨parsed, none, parsed', agree none "error" "invariant",
    (policies_ordered "all" "fixpoint" 2 offendingSource decls' parsed' (by decide)).2⟩

end Polarity

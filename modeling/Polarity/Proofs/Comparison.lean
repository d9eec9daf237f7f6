import Mathlib.Data.List.Forall2
import Polarity.Proofs.Reordering

/-!
# Comparing what is inferred

What is inferred for a program is the greatest safe assignment, so two programs are compared by
comparing what is safe for them. Safety in turn compares variances of parameters with variances of
types, and these grow with everything they depend on.

* `infer_eq_ok_iff`: when inference succeeds, and what it then comes to;
* `TypeUse.Bares`: a type with some of its wildcards left out;
* `TypeUse.Bares.variance_le`: a parameter occurs in a type with a smaller variance when wildcards
  are left out, more arguments count, or parameters of classes have smaller variances;
* `Assignment.Fits`: safety for one parameter, over all types in the methods of its class;
* `Solution.Infers`: the greatest safe variances, and nothing for other parameters.
-/

namespace Polarity

/-! ## When inference succeeds -/

/-- The policy of a name. A name that no policy has is as good as `error`, as long as no type
calls for a policy. -/
def Policy.chosen (name : Text) : Policy := (Policy.ofName? name).getD .error

section
variable {options : Options} {source : Text} {decls : List ClassDecl} {strategy : Strategy}
  {i : Inference}

/-- Without a policy, no type may call for one. -/
theorem infer_unnamed (parsed : parse source = .ok decls)
    (unnamed : Policy.ofName? options.unresolved = none)
    (known : Strategy.ofName? options.strategy = some strategy) :
    infer options source = .ok i ↔ ClassTable.reports ⟨decls⟩ = [] ∧
      i = ClassTable.inference ⟨decls⟩ .error (.ofName options.substitution) strategy
        options.passes := by
  have placed := placed_of_parse parsed
  have generic : ∀ d ∈ decls, d.params ≠ [] := fun d hd =>
    (printable_of_parse parsed d hd).generic
  have reports : (generate ⟨decls⟩ .error).unresolved = ClassTable.reports ⟨decls⟩ :=
    unresolved_generate placed generic .error
  have generated : generateNamed ⟨decls⟩ options.unresolved =
      if (ClassTable.reports ⟨decls⟩).isEmpty then some (generate ⟨decls⟩ .error) else none := by
    simp only [generateNamed, unnamed, reports]
  have read : infer options source = inferClasses options ⟨decls⟩ := by rw [infer, parsed]
  rw [read]
  by_cases fine : ClassTable.reports ⟨decls⟩ = []
  · have no_error : (generate ⟨decls⟩ .error).errors = [] := by
      rw [Generation.errors, reports, fine]
      exact ite_self _
    rw [fine, List.isEmpty_nil, if_pos rfl] at generated
    rw [inferClasses_of_errors_nil generated no_error known, simplify_generate placed,
      Except.ok.injEq, eq_comm]
    exact ⟨fun same => ⟨fine, same⟩, fun both => both.2⟩
  · rw [if_neg (by simpa using fine)] at generated
    rw [inferClasses, generated]
    constructor
    · intro failed
      cases failed
    · rintro ⟨none, -⟩
      exact absurd none fine

theorem infer_eq_ok_iff (parsed : parse source = .ok decls)
    (known : Strategy.ofName? options.strategy = some strategy) :
    infer options source = .ok i ↔
      (Policy.chosen options.unresolved = .error → ClassTable.reports ⟨decls⟩ = []) ∧
      i = ClassTable.inference ⟨decls⟩ (.chosen options.unresolved) (.ofName options.substitution)
        strategy options.passes := by
  cases chosen : Policy.ofName? options.unresolved with
  | some policy =>
    have policy_eq : Policy.chosen options.unresolved = policy := by rw [Policy.chosen, chosen]; rfl
    rw [policy_eq, infer_known parsed chosen known]
    by_cases wrong : policy = .error ∧ ClassTable.reports ⟨decls⟩ ≠ []
    · rw [if_pos wrong]
      constructor
      · intro failed
        cases failed
      · rintro ⟨fine, -⟩
        exact absurd (fine wrong.1) wrong.2
    · rw [if_neg wrong, Except.ok.injEq, eq_comm, iff_and_self]
      intro _ strict
      exact not_not.1 fun some_report => wrong ⟨strict, some_report⟩
  | none =>
    have policy_eq : Policy.chosen options.unresolved = .error := by rw [Policy.chosen, chosen]; rfl
    rw [policy_eq, infer_unnamed parsed chosen known]
    exact and_congr_left' ⟨fun fine _ => fine, fun fine => fine rfl⟩

theorem exists_infer (parsed : parse source = .ok decls)
    (fixpoint : Strategy.ofName? options.strategy = some .fixpoint)
    (none : ClassTable.reports ⟨decls⟩ = []) : ∃ i, infer options source = .ok i :=
  ⟨_, (infer_eq_ok_iff parsed fixpoint).2 ⟨fun _ => none, rfl⟩⟩

end

/-! ## What a class parameter is worth -/

theorem paramVariance_eq (classes : ClassTable) (missing : Variance) (ρ : Assignment) (name : Text)
    (i : Nat) : classes.paramVariance missing ρ name i =
      match (classes.paramsOf name).bind (·[i]?) with
      | none => missing
      | some p => ρ ⟨name, p⟩ := by
  unfold ClassTable.paramVariance ClassTable.paramsOf
  cases found : classes.lookup name with
  | none => rfl
  | some decl =>
    have same : decl.name = name := by simpa using List.find?_some found
    cases given : decl.params[i]? with
    | none => simp only [Option.map_some, Option.bind_some, given]
    | some p => simp only [Option.map_some, Option.bind_some, given, same]

theorem paramVariance_mono (classes : ClassTable) (missing : Variance) {ρ ρ' : Assignment}
    (h : ρ ≤ ρ') (name : Text) (i : Nat) :
    classes.paramVariance missing ρ name i ≤ classes.paramVariance missing ρ' name i := by
  rw [paramVariance_eq, paramVariance_eq]
  cases (classes.paramsOf name).bind (·[i]?) with
  | none => exact le_rfl
  | some p => exact h ⟨name, p⟩

/-- The parameters that a name stands for are worth the same when they have the same variances. -/
theorem paramVariance_congr {classes classes' : ClassTable} {missing : Variance}
    {ρ ρ' : Assignment} {name : Text} (heads : classes.paramsOf name = classes'.paramsOf name)
    (agree : ∀ params ∈ classes.paramsOf name, ∀ p ∈ params, ρ ⟨name, p⟩ = ρ' ⟨name, p⟩)
    (i : Nat) :
    classes.paramVariance missing ρ name i = classes'.paramVariance missing ρ' name i := by
  rw [paramVariance_eq, paramVariance_eq, ← heads]
  cases found : classes.paramsOf name with
  | none => rfl
  | some params =>
    simp only [Option.bind_some]
    cases given : params[i]? with
    | none => rfl
    | some p => exact agree params found p (List.mem_of_getElem? given)

/-! ## Meets of more and of smaller variances -/

theorem meetAll_le_of_forall₂ {vs ws : List Variance} (h : List.Forall₂ (· ≤ ·) vs ws) :
    Variance.meetAll vs ≤ Variance.meetAll ws := by
  induction h with
  | nil => exact le_rfl
  | @cons v w vs ws le _ ih =>
    simp only [Variance.meetAll_cons, Variance.le_meet_iff]
    exact ⟨(Variance.meet_le_left _ _).trans le, (Variance.meet_le_right _ _).trans ih⟩

theorem meetAll_le_of_subset {vs ws : List Variance} (h : ws ⊆ vs) :
    Variance.meetAll vs ≤ Variance.meetAll ws := by
  rw [Variance.le_meetAll_iff]
  intro w hw
  exact Variance.le_meetAll_iff.1 le_rfl w (h hw)

/-- The second mode counts no fewer bounds than the first one. -/
def Substitution.Widens (mode mode' : Substitution) : Prop := mode' = mode ∨ mode' = .all

theorem Substitution.Widens.meetAll_counted_le {mode mode' : Substitution}
    (widens : mode.Widens mode') {vs ws : List Variance} (h : List.Forall₂ (· ≤ ·) vs ws) :
    Variance.meetAll (mode'.counted vs) ≤ Variance.meetAll (mode.counted ws) := by
  obtain rfl | rfl := widens
  · apply meetAll_le_of_forall₂
    cases mode' with
    | all => exact h
    | first => exact List.forall₂_take 1 h
  · calc Variance.meetAll vs ≤ Variance.meetAll ws := meetAll_le_of_forall₂ h
      _ ≤ Variance.meetAll (mode.counted ws) := meetAll_le_of_subset (mode.counted_subset ws)

/-! ## Types with fewer wildcards -/

mutual

/-- The same type, wherever it stands, with some of its wildcards left out. -/
inductive TypeUse.Bares : TypeUse → TypeUse → Prop
  | mk {name : Text} {args args' : List TypeArg} {span span' : Span}
      (bares : TypeArg.Bares args args') : TypeUse.Bares (.mk name args span) (.mk name args' span')

inductive TypeArg.Bares : List TypeArg → List TypeArg → Prop
  | nil : TypeArg.Bares [] []
  | cons {w w' : Wildcard} {t t' : TypeUse} {args args' : List TypeArg}
      (wildcard : w' = w ∨ w' = .bare) (type : TypeUse.Bares t t')
      (rest : TypeArg.Bares args args') : TypeArg.Bares ((w, t) :: args) ((w', t') :: args')

end

mutual

/-- Where types stand does not matter. -/
theorem TypeUse.bares_of_unplaced : ∀ {t t' : TypeUse}, t.unplaced = t'.unplaced → t.Bares t'
  | .mk name args span, .mk name' args' span', h => by
    simp only [TypeUse.unplaced_mk, TypeUse.mk.injEq, and_true] at h
    obtain ⟨rfl, same⟩ := h
    exact .mk (TypeArg.bares_of_unplaced same)

theorem TypeArg.bares_of_unplaced : ∀ {args args' : List TypeArg},
    TypeArg.unplaced args = TypeArg.unplaced args' → TypeArg.Bares args args'
  | [], [], _ => .nil
  | [], (w', t') :: args', h => by cases h
  | (w, t) :: args, [], h => by cases h
  | (w, t) :: args, (w', t') :: args', h => by
    simp only [TypeArg.unplaced_cons, List.cons.injEq, Prod.mk.injEq] at h
    obtain ⟨⟨rfl, type⟩, rest⟩ := h
    exact .cons (.inl rfl) (TypeUse.bares_of_unplaced type) (TypeArg.bares_of_unplaced rest)

end

theorem TypeUse.Bares.refl (t : TypeUse) : t.Bares t := TypeUse.bares_of_unplaced rfl

theorem TypeArg.Bares.isEmpty_eq {args args' : List TypeArg} (h : TypeArg.Bares args args') :
    args'.isEmpty = args.isEmpty := by
  cases h <;> rfl

/-- A bare argument asks for no variance at all. -/
theorem variance_le_of_bared {w w' : Wildcard} (h : w' = w ∨ w' = .bare) :
    w'.variance ≤ w.variance := by
  obtain rfl | rfl := h
  · exact le_rfl
  · rw [Wildcard.variance]
    cases w.variance <;> decide

section
variable {classes classes' : ClassTable} {missing missing' : Variance}
  {mode mode' : Substitution} {ρ ρ' : Assignment} {param : Text}

mutual

/-- **The variance of an occurrence grows** with the variances of the class parameters it goes
through, and shrinks when wildcards are left out or more arguments count. -/
theorem TypeUse.Bares.variance_le (widens : mode.Widens mode') : ∀ {t t' : TypeUse}, t.Bares t' →
    (∀ name ∈ t.applied, ∀ i, classes'.paramVariance missing' ρ' name i ≤
      classes.paramVariance missing ρ name i) →
    t'.variance classes' missing' mode' ρ' param ≤ t.variance classes missing mode ρ param
  | .mk name args span, .mk _ args' span', .mk bares, smaller => by
    rw [TypeUse.variance, TypeUse.variance, bares.isEmpty_eq]
    rw [TypeUse.applied] at smaller
    split
    · exact le_rfl
    · rename_i applied
      rw [if_neg applied] at smaller
      refine widens.meetAll_counted_le (bares.variances_le widens ?_ ?_ 0)
      · exact smaller name (.head _)
      · exact fun inner hi => smaller inner (.tail _ hi)

theorem TypeArg.Bares.variances_le (widens : mode.Widens mode') {name : Text} :
    ∀ {args args' : List TypeArg}, TypeArg.Bares args args' →
    (∀ i, classes'.paramVariance missing' ρ' name i ≤ classes.paramVariance missing ρ name i) →
    (∀ inner ∈ TypeArg.applied args, ∀ i, classes'.paramVariance missing' ρ' inner i ≤
      classes.paramVariance missing ρ inner i) →
    ∀ i, List.Forall₂ (· ≤ ·) (TypeArg.variances classes' missing' mode' ρ' param name i args')
      (TypeArg.variances classes missing mode ρ param name i args)
  | _, _, .nil, _, _, _ => .nil
  | (w, t) :: args, (w', t') :: args', .cons wildcard type rest, own, smaller, i => by
    rw [TypeArg.applied, List.forall_mem_append] at smaller
    have through : w'.variance.join (classes'.paramVariance missing' ρ' name i) ≤
        w.variance.join (classes.paramVariance missing ρ name i) :=
      Variance.join_distributes.mono (variance_le_of_bared wildcard) (own i)
    refine .cons (Variance.transform_distributes.mono through ?_) ?_
    · exact type.variance_le widens smaller.1
    · exact rest.variances_le widens own smaller.2 (i + 1)

end

end

/-! ## Safety, one parameter at a time -/

/-- The types in the methods of a class, with how they count. -/
def ClassDecl.positions (d : ClassDecl) : List Position := d.methods.flatMap Method.positions

/-- The parameter `p` of `d` may be used in the methods of `d` as its variance says. -/
def Assignment.Fits (classes : ClassTable) (missing : Variance) (mode : Substitution)
    (ρ : Assignment) (d : ClassDecl) (p : Text) : Prop :=
  ∀ x ∈ d.positions,
    ρ ⟨d.name, p⟩ ≤ x.variance.transform (x.type.variance classes missing mode ρ p)

section
variable {classes classes' : ClassTable} {missing missing' : Variance}
  {mode mode' : Substitution} {ρ ρ' : Assignment} {p : Text}

theorem safe_iff_fits : ρ.Safe classes missing mode ↔
    ∀ d ∈ classes.decls, ∀ p ∈ d.params, ρ.Fits classes missing mode d p := by
  refine forall₂_congr fun d _ => forall₂_congr fun p _ => ?_
  simp only [Assignment.Fits, ClassDecl.positions, Method.positions, List.forall_mem_flatMap,
    List.forall_mem_cons, List.forall_mem_map]
  rfl

/-- A parameter may still be used when it is given a smaller variance, and each type in the methods
of its class gives way to one in which it occurs with a greater one. -/
theorem Assignment.Fits.weaken {d d' : ClassDecl} (fits : ρ'.Fits classes' missing' mode' d' p)
    (widens : mode.Widens mode') (own : ρ ⟨d.name, p⟩ ≤ ρ' ⟨d'.name, p⟩)
    (positions : ∀ x ∈ d.positions, ∃ x' ∈ d'.positions,
      x'.variance = x.variance ∧ x.type.Bares x'.type)
    (smaller : ∀ x ∈ d.positions, ∀ name ∈ x.type.applied, ∀ i,
      classes'.paramVariance missing' ρ' name i ≤ classes.paramVariance missing ρ name i) :
    ρ.Fits classes missing mode d p := by
  intro x hx
  obtain ⟨x', hx', variance, bares⟩ := positions x hx
  have inner : x'.type.variance classes' missing' mode' ρ' p ≤
      x.type.variance classes missing mode ρ p := bares.variance_le widens (smaller x hx)
  calc ρ ⟨d.name, p⟩ ≤ ρ' ⟨d'.name, p⟩ := own
    _ ≤ x'.variance.transform (x'.type.variance classes' missing' mode' ρ' p) := fits x' hx'
    _ ≤ x.variance.transform (x.type.variance classes missing mode ρ p) := by
      rw [variance]
      exact Variance.transform_distributes.mono_right _ inner

theorem ClassDecl.positions_unplaced (d : ClassDecl) :
    d.unplaced.positions = d.positions.map Position.unplaced := by
  simp only [ClassDecl.positions, ClassDecl.unplaced_eq, List.flatMap_map, List.map_flatMap,
    Polarity.positions_unplaced]

theorem positions_self (d : ClassDecl) : ∀ x ∈ d.positions, ∃ x' ∈ d.positions,
    x'.variance = x.variance ∧ x.type.Bares x'.type :=
  fun x hx => ⟨x, hx, rfl, .refl x.type⟩

/-- Places do not decide what is safe. -/
theorem safe_of_unplaced {decls decls' : List ClassDecl}
    (same : decls.map ClassDecl.unplaced = decls'.map ClassDecl.unplaced)
    (safe : ρ.Safe ⟨decls'⟩ missing mode) : ρ.Safe ⟨decls⟩ missing mode := by
  have heads : SameHeads ⟨decls⟩ ⟨decls'⟩ := by
    intro name
    have tables : ClassTable.unplaced ⟨decls⟩ = ClassTable.unplaced ⟨decls'⟩ :=
      congrArg ClassTable.mk same
    rw [sameHeads_unplaced ⟨decls⟩, tables, ← sameHeads_unplaced]
  rw [safe_iff_fits] at safe ⊢
  intro d hd p hp
  have known : d.unplaced ∈ decls'.map ClassDecl.unplaced := same ▸ List.mem_map_of_mem hd
  obtain ⟨d', hd', eq⟩ := List.mem_map.1 known
  have name : d'.name = d.name := (congrArg ClassDecl.name eq :)
  have params : d'.params = d.params := (congrArg ClassDecl.params eq :)
  refine (safe d' hd' p (params ▸ hp)).weaken (.inl rfl) (by rw [name]) ?_ ?_
  · intro x hx
    have known : x.unplaced ∈ d'.positions.map Position.unplaced := by
      rw [← d'.positions_unplaced, eq, d.positions_unplaced]
      exact List.mem_map_of_mem hx
    obtain ⟨x', hx', eq⟩ := List.mem_map.1 known
    have variance : x'.variance = x.variance := (congrArg Position.variance eq :)
    have type : x.type.unplaced = x'.type.unplaced := (congrArg Position.type eq.symm :)
    exact ⟨x', hx', variance, TypeUse.bares_of_unplaced type⟩
  · intro x hx name _ i
    exact le_of_eq (paramVariance_congr (heads name).symm (fun _ _ _ _ => rfl) i)

end

/-! ## What is inferred -/

/-- The solution gives the parameters of a program the greatest safe variances, and others none. -/
structure Solution.Infers (s : Solution) (classes : ClassTable) (missing : Variance)
    (mode : Substitution) : Prop where
  greatest : IsGreatest {ρ : Assignment | ρ.Safe classes missing mode} s.assignment
  entries : s.entries = classes.params.map fun p => ⟨p, s.assignment p.key⟩
  lookup : ∀ key, s.lookup key = if key ∈ classes.keys then some (s.assignment key) else none

theorem infers_of_infer {options : Options} {source : Text} {decls : List ClassDecl}
    {i : Inference} (parsed : parse source = .ok decls)
    (fixpoint : Strategy.ofName? options.strategy = some .fixpoint)
    (inferred : infer options source = .ok i) :
    i.solution.Infers ⟨decls⟩ (Policy.chosen options.unresolved).standIn
      (.ofName options.substitution) := by
  obtain ⟨-, rfl⟩ := (infer_eq_ok_iff parsed fixpoint).1 inferred
  have placed := placed_of_parse parsed
  have greatest := solve_isGreatest_safe placed (.ofName options.substitution)
    (.chosen options.unresolved) options.passes
  rw [simplify_generate placed] at greatest
  exact ⟨greatest, solve_entries .., lookup_eq⟩

section
variable {s s' : Solution} {classes classes' : ClassTable} {missing missing' : Variance}
  {mode mode' : Substitution}

theorem Solution.Infers.of_unplaced {decls decls' : List ClassDecl}
    (h : s.Infers ⟨decls⟩ missing mode)
    (same : decls.map ClassDecl.unplaced = decls'.map ClassDecl.unplaced) :
    s.Infers ⟨decls'⟩ missing mode := by
  have tables : ClassTable.unplaced ⟨decls⟩ = ClassTable.unplaced ⟨decls'⟩ :=
    congrArg ClassTable.mk same
  have params : ClassTable.params ⟨decls'⟩ = ClassTable.params ⟨decls⟩ := by
    rw [← params_unplaced, ← tables, params_unplaced]
  have sets : {ρ : Assignment | ρ.Safe ⟨decls'⟩ missing mode} =
      {ρ | ρ.Safe ⟨decls⟩ missing mode} :=
    Set.ext fun ρ => ⟨safe_of_unplaced same, safe_of_unplaced same.symm⟩
  refine ⟨?_, ?_, fun key => ?_⟩
  · rw [sets]
    exact h.greatest
  · rw [params]
    exact h.entries
  · rw [ClassTable.keys, params]
    exact h.lookup key

/-- Where more is safe, greater variances are inferred. -/
theorem Solution.Infers.assignment_le (h : s.Infers classes missing mode)
    (h' : s'.Infers classes' missing' mode')
    (safe : ∀ ρ : Assignment, ρ.Safe classes' missing' mode' → ρ.Safe classes missing mode) :
    s'.assignment ≤ s.assignment :=
  h.greatest.2 (safe _ h'.greatest.1)

end

end Polarity

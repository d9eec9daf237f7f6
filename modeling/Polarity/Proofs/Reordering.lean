import Polarity.Proofs.Relayout
import Polarity.Proofs.Schedule

/-!
# The order of declarations does not matter

The order of classes, methods and parameter types decides the order of the constraints, and with
it the course of the sweeps and their number. It does not decide which constraints there are, and
where sweeps end there is one greatest solution only.

* `UpToOrder`: two lists correspond element by element, once the first is rearranged;
* `ClassDecl.Reorders`: a class with its methods, and their parameters, in another order;
* `reduced_perm`, `reports_perm`: the reduced constraints and the reports of a program;
* `assignment_eq_of_perm`: rearranged constraints have the same greatest solution;
* `order_irrelevant`: so the order of declarations does not matter.
-/

namespace Polarity

/-! ## Correspondence up to order -/

/-- Once the first list is rearranged, its elements correspond to those of the second. -/
def UpToOrder {α β : Type} (R : α → β → Prop) (as : List α) (bs : List β) : Prop :=
  ∃ cs, as.Perm cs ∧ List.Forall₂ R cs bs

section
variable {α β γ : Type} {R : α → β → Prop} {as : List α} {bs : List β}

theorem UpToOrder.flatMap_perm (h : UpToOrder R as bs) {f : α → List γ} {g : β → List γ}
    (same : ∀ a b, R a b → (f a).Perm (g b)) : (as.flatMap f).Perm (bs.flatMap g) := by
  obtain ⟨cs, rearranged, corresponding⟩ := h
  have aligned : (cs.flatMap f).Perm (bs.flatMap g) := by
    clear rearranged
    induction corresponding with
    | nil => exact .nil
    | cons hab _ ih => exact (same _ _ hab).append ih
  exact (rearranged.flatMap_right f).trans aligned

theorem UpToOrder.map_perm (h : UpToOrder R as bs) {f : α → γ} {g : β → γ}
    (same : ∀ a b, R a b → f a = g b) : (as.map f).Perm (bs.map g) := by
  rw [List.map_eq_flatMap, List.map_eq_flatMap]
  refine h.flatMap_perm fun a b hab => ?_
  rw [same a b hab]

end

/-! ## Programs in another order -/

/-- The same method, with its parameters in another order. -/
structure Method.Reorders (m m' : Method) : Prop where
  name : m.name = m'.name
  returns : m.returns = m'.returns
  params : m.params.Perm m'.params

/-- The same class, with its methods and their parameters in another order. -/
structure ClassDecl.Reorders (d d' : ClassDecl) : Prop where
  name : d.name = d'.name
  params : d.params = d'.params
  methods : UpToOrder Method.Reorders d.methods d'.methods

theorem Method.Reorders.positions_perm {m m' : Method} (h : m.Reorders m') :
    m.positions.Perm m'.positions := by
  rw [Method.positions, Method.positions, h.returns]
  exact (h.params.map _).cons _

theorem Method.Reorders.types_perm {m m' : Method} (h : m.Reorders m') :
    m.types.Perm m'.types := by
  rw [Method.types, Method.types, h.returns]
  exact h.params.cons _

theorem ClassDecl.Reorders.types_perm {d d' : ClassDecl} (h : d.Reorders d') :
    d.types.Perm d'.types :=
  h.methods.flatMap_perm fun _ _ hm => hm.types_perm

theorem ClassDecl.Reorders.ref_eq {d d' : ClassDecl} (h : d.Reorders d') (param : Text) :
    d.ref param = d'.ref param := by
  simp only [ClassDecl.ref, ClassDecl.signature, h.name, h.params]

section
variable {classes classes' : ClassTable}

/-- When no two classes have one name, a name stands for the only class that has it. -/
theorem paramsOf_eq_some_iff (distinct : classes.names.Nodup) {name : Text} {params : List Text} :
    classes.paramsOf name = some params ↔
      (name, params) ∈ classes.decls.map fun d => (d.name, d.params) := by
  simp only [ClassTable.paramsOf, Option.map_eq_some_iff, List.mem_map, Prod.mk.injEq]
  constructor
  · rintro ⟨d, found, rfl⟩
    exact ⟨d, List.mem_of_find?_eq_some found, by simpa using List.find?_some found, rfl⟩
  · rintro ⟨d, hd, rfl, rfl⟩
    refine ⟨d, ?_, rfl⟩
    cases found : classes.lookup d.name with
    | none =>
      have other := List.find?_eq_none.1 found d hd
      exact absurd (beq_self_eq_true d.name) other
    | some d' =>
      have name : d'.name = d.name := by simpa using List.find?_some found
      rw [List.inj_on_of_nodup_map distinct (List.mem_of_find?_eq_some found) hd name]

theorem sameHeads_of_reorders (distinct : classes.names.Nodup)
    (h : UpToOrder ClassDecl.Reorders classes.decls classes'.decls) :
    SameHeads classes classes' := by
  have names : classes.names.Perm classes'.names := h.map_perm fun _ _ hd => hd.name
  have heads := h.map_perm (f := fun d => (d.name, d.params)) (g := fun d => (d.name, d.params))
    fun _ _ hd => Prod.ext hd.name hd.params
  intro name
  refine Option.ext fun params => ?_
  rw [paramsOf_eq_some_iff distinct, paramsOf_eq_some_iff (names.nodup_iff.1 distinct),
    heads.mem_iff]

theorem SameHeads.refl (classes : ClassTable) : SameHeads classes classes := fun _ => rfl

/-- What an occurrence stands for depends on the parameters of the classes only. -/
theorem reduced_congr (heads : SameHeads classes classes') {standIn : Variance}
    {mode : Substitution} {param : Text} (t : TypeUse) :
    t.reduced classes standIn mode param = t.reduced classes' standIn mode param :=
  (reduced_unplaced heads t).symm.trans (reduced_unplaced (.refl classes') t)

/-- The reduced constraints are the same up to their order. -/
theorem reduced_perm (heads : SameHeads classes classes')
    (h : UpToOrder ClassDecl.Reorders classes.decls classes'.decls) (standIn : Variance)
    (mode : Substitution) :
    (classes.reduced standIn mode).Perm (classes'.reduced standIn mode) := by
  refine h.flatMap_perm fun d d' hd => ?_
  have position (param : Text) : Position.reduced classes standIn mode d param =
      Position.reduced classes' standIn mode d' param := by
    funext x
    simp only [Position.reduced, reduced_congr heads, hd.ref_eq]
  rw [hd.params]
  refine List.Perm.flatMap_left _ fun param _ => hd.methods.flatMap_perm fun m m' hm => ?_
  rw [position]
  exact hm.positions_perm.flatMap_right _

/-- The same is reported, up to the order. -/
theorem reports_perm (heads : SameHeads classes classes')
    (h : UpToOrder ClassDecl.Reorders classes.decls classes'.decls) :
    (classes.reports.map Diagnostic.fault).Perm (classes'.reports.map Diagnostic.fault) := by
  have types (t : TypeUse) : (t.reports classes).map Diagnostic.fault =
      (t.reports classes').map Diagnostic.fault :=
    (reports_faults heads t).symm.trans (reports_faults (.refl classes') t)
  simp only [ClassTable.reports, List.map_flatMap, types]
  exact h.flatMap_perm fun d d' hd => hd.types_perm.flatMap_right _

theorem params_perm (h : UpToOrder ClassDecl.Reorders classes.decls classes'.decls) :
    classes.params.Perm classes'.params := by
  refine h.flatMap_perm fun d d' hd => ?_
  simp only [ClassDecl.refs, hd.params]
  exact .of_eq (List.map_congr_left fun p _ => hd.ref_eq p)

/-! ## Greatest solutions -/

variable {constraints constraints' : List Constraint} {strategy : Strategy} {passes : Int}

theorem solves_of_perm {declared declared' : List ParamKey} (keys : declared.Perm declared')
    (same : constraints.Perm constraints') {σ : Assignment}
    (h : σ.Solves declared constraints) : σ.Solves declared' constraints' := by
  have predicate : (· ∈ declared) = (· ∈ declared') := funext fun key => propext keys.mem_iff
  intro c hc effective
  refine h c (same.mem_iff.2 hc) ?_
  simpa only [Constraint.Effective, Expr.Grounded, predicate, keys.mem_iff] using effective

/-- **Sweeps that end arrive at the same variances**, in whichever order the constraints are
swept through. -/
theorem assignment_eq_of_perm (params : classes.params.Perm classes'.params)
    (same : constraints.Perm constraints')
    (h : (solve classes constraints strategy passes).converged = true)
    (h' : (solve classes' constraints' strategy passes).converged = true) :
    (solve classes constraints strategy passes).assignment =
      (solve classes' constraints' strategy passes).assignment := by
  have keys : classes.keys.Perm classes'.keys := params.map _
  have solutions : {σ : Assignment | σ.Solves classes.keys constraints} =
      {σ | σ.Solves classes'.keys constraints'} :=
    Set.ext fun σ => ⟨solves_of_perm keys same, solves_of_perm keys.symm same.symm⟩
  -- Both are the greatest of one and the same set of solutions.
  have greatest := solve_isGreatest h
  rw [solutions] at greatest
  exact greatest.unique (solve_isGreatest h')

theorem lookup_eq (key : ParamKey) :
    (solve classes constraints strategy passes).lookup key =
      if key ∈ classes.keys then some ((solve classes constraints strategy passes).assignment key)
      else none := by
  split
  · rename_i declared
    rw [lookup_of_mem declared, solve_assignment]
  · rename_i undeclared
    exact lookup_of_notMem undeclared

theorem lookup_eq_of_perm (params : classes.params.Perm classes'.params)
    (same : constraints.Perm constraints')
    (h : (solve classes constraints strategy passes).converged = true)
    (h' : (solve classes' constraints' strategy passes).converged = true) (key : ParamKey) :
    (solve classes constraints strategy passes).lookup key =
      (solve classes' constraints' strategy passes).lookup key := by
  have keys : classes.keys.Perm classes'.keys := params.map _
  rw [lookup_eq, lookup_eq, assignment_eq_of_perm params same h h']
  simp only [keys.mem_iff]

end

/-! ## The order of declarations does not matter -/

/-- A strategy that goes on until nothing changes, on every program. -/
def Options.Settles (options : Options) : Prop :=
  Strategy.ofName? options.strategy = some .fixpoint ∨
    Strategy.ofName? options.strategy = some .bounded ∧
      (options.passes ≤ 0 ∨ 2 ≤ options.passes)

theorem Options.Settles.converged {options : Options} (h : options.Settles) :
    ∃ strategy, Strategy.ofName? options.strategy = some strategy ∧ ∀ classes constraints,
      (solve classes constraints strategy options.passes).converged = true := by
  obtain known | ⟨known, passes⟩ := h
  · exact ⟨_, known, fun classes constraints => fixpoint_converged classes constraints _⟩
  · exact ⟨_, known, fun classes constraints => bounded_converged classes constraints passes⟩

/-- **The order of declarations does not matter.** Take two sources that can be read, whose
classes have different names and are the same up to the order of classes, methods and parameter
types. Under every known policy, and with sweeps until nothing changes, either both fail, with the
same messages up to their order, or both are inferred and every parameter is given the same
variance. -/
theorem order_irrelevant (options : Options) (source source' : Text)
    (decls decls' : List ClassDecl) (parsed : parse source = .ok decls)
    (parsed' : parse source' = .ok decls') (distinct : (decls.map (·.name)).Nodup)
    (reordered : UpToOrder ClassDecl.Reorders (decls.map ClassDecl.unplaced)
      (decls'.map ClassDecl.unplaced))
    (policy : (Policy.ofName? options.unresolved).isSome) (settles : options.Settles) :
    (∃ ds ds', infer options source = .error (.diagnostics ds) ∧
      infer options source' = .error (.diagnostics ds') ∧
      (ds.map (·.fault.message)).Perm (ds'.map (·.fault.message))) ∨
    ∃ i i', infer options source = .ok i ∧ infer options source' = .ok i' ∧
      ∀ className param, i.solution.lookup ⟨className, param⟩ =
        i'.solution.lookup ⟨className, param⟩ := by
  obtain ⟨policy, chosen⟩ := Option.isSome_iff_exists.1 policy
  obtain ⟨strategy, known, converged⟩ := settles.converged
  have names : (ClassTable.unplaced ⟨decls⟩).names.Nodup := by
    rw [names_unplaced]
    exact distinct
  have heads : SameHeads (.unplaced ⟨decls⟩) (.unplaced ⟨decls'⟩) :=
    sameHeads_of_reorders names reordered
  have faults : ((ClassTable.reports ⟨decls⟩).map Diagnostic.fault).Perm
      ((ClassTable.reports ⟨decls'⟩).map Diagnostic.fault) := by
    rw [← reports_unplaced, ← reports_unplaced ⟨decls'⟩]
    exact reports_perm heads reordered
  obtain ⟨failed, failed'⟩ | ⟨inferred, inferred'⟩ :=
    infer_together parsed parsed' chosen known faults
  · refine .inl ⟨_, _, failed, failed', ?_⟩
    have messages := faults.map Fault.message
    rwa [List.map_map, List.map_map] at messages
  · refine .inr ⟨_, _, inferred, inferred', fun className param => ?_⟩
    obtain ⟨-, solution⟩ := inference_unplaced ⟨decls⟩ policy (.ofName options.substitution)
      strategy options.passes
    obtain ⟨-, solution'⟩ := inference_unplaced ⟨decls'⟩ policy (.ofName options.substitution)
      strategy options.passes
    rw [← solution, ← solution']
    exact lookup_eq_of_perm (params_perm reordered) (reduced_perm heads reordered _ _)
      (converged _ _) (converged _ _) _

/-! Two classes that apply each other, in two orders. -/

def plainX : TypeUse := .mk "X" [] .nowhere

def boxedX : TypeUse := .mk "B" [(.bare, plainX)] .nowhere

def accepting (params : List TypeUse) : Method := ⟨boxedX, "f", params, .nowhere⟩

def returning : Method := ⟨plainX, "g", [], .nowhere⟩

def classA (methods : List Method) : ClassDecl := ⟨"A", ["X"], methods, .nowhere⟩

def classB : ClassDecl :=
  ⟨"B", ["Y"], [⟨.mk "A" [(.lower, .mk "Y" [] .nowhere)] .nowhere, "h", [], .nowhere⟩], .nowhere⟩

def orderedClasses : List ClassDecl := [classA [accepting [plainX, boxedX], returning], classB]

def shuffledClasses : List ClassDecl := [classB, classA [returning, accepting [boxedX, plainX]]]

theorem shuffledClasses_reorder : UpToOrder ClassDecl.Reorders
    (orderedClasses.map ClassDecl.unplaced) (shuffledClasses.map ClassDecl.unplaced) := by
  refine ⟨[classB, classA [accepting [plainX, boxedX], returning]], .swap .., ?_⟩
  refine .cons ?_ (.cons ?_ .nil)
  · exact ⟨rfl, rfl, _, .refl _, .cons ⟨rfl, rfl, .refl _⟩ .nil⟩
  · refine ⟨rfl, rfl, [returning, accepting [plainX, boxedX]], .swap .., ?_⟩
    exact .cons ⟨rfl, rfl, .refl _⟩ (.cons ⟨rfl, rfl, .swap ..⟩ .nil)

theorem classes_printable :
    (∀ c ∈ orderedClasses, c.Printable) ∧ ∀ c ∈ shuffledClasses, c.Printable := by
  decide

def orderedSource : Text :=
  "class A<X> \x7b B<X> f(X B<X>); X g(); \x7d class B<Y> \x7b A<? super Y> h(); \x7d"

def shuffledSource : Text :=
  "class B<Y> \x7b A<? super Y> h(); \x7d class A<X> \x7b X g(); B<X> f(B<X> X); \x7d"

theorem order_irrelevant_shuffled : ∃ decls decls',
    parse orderedSource = .ok decls ∧ parse shuffledSource = .ok decls' ∧
    (decls.map (·.name)).Nodup ∧
    UpToOrder ClassDecl.Reorders (decls.map ClassDecl.unplaced) (decls'.map ClassDecl.unplaced) ∧
    (Policy.ofName? "error").isSome ∧ Options.Settles ⟨"all", "bounded", 2, "error"⟩ ∧
    ((∃ ds ds', infer ⟨"all", "bounded", 2, "error"⟩ orderedSource = .error (.diagnostics ds) ∧
      infer ⟨"all", "bounded", 2, "error"⟩ shuffledSource = .error (.diagnostics ds') ∧
      (ds.map (·.fault.message)).Perm (ds'.map (·.fault.message))) ∨
    ∃ i i', infer ⟨"all", "bounded", 2, "error"⟩ orderedSource = .ok i ∧
      infer ⟨"all", "bounded", 2, "error"⟩ shuffledSource = .ok i' ∧
      ∀ className param, i.solution.lookup ⟨className, param⟩ =
        i'.solution.lookup ⟨className, param⟩) := by
  have spelt : words orderedSource = orderedClasses.flatMap ClassDecl.lexemes := by decide +kernel
  have spelt' : words shuffledSource = shuffledClasses.flatMap ClassDecl.lexemes := by
    decide +kernel
  obtain ⟨decls, parsed, same⟩ := parse_of_words classes_printable.1 spelt
  obtain ⟨decls', parsed', same'⟩ := parse_of_words classes_printable.2 spelt'
  have distinct : (decls.map (·.name)).Nodup := by
    have names : decls.map (·.name) = (decls.map ClassDecl.unplaced).map (·.name) := by
      rw [List.map_map]
      rfl
    rw [names, same]
    decide
  have reordered : UpToOrder ClassDecl.Reorders (decls.map ClassDecl.unplaced)
      (decls'.map ClassDecl.unplaced) := by
    rw [same, same']
    exact shuffledClasses_reorder
  have settles : Options.Settles ⟨"all", "bounded", 2, "error"⟩ :=
    .inr ⟨by decide, .inr (by decide)⟩
  exact ⟨decls, decls', parsed, parsed', distinct, reordered, by decide, settles,
    order_irrelevant ⟨"all", "bounded", 2, "error"⟩ orderedSource shuffledSource decls decls' parsed
      parsed' distinct reordered (by decide) settles⟩

end Polarity

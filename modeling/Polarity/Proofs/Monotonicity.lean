import Polarity.Proofs.Comparison

/-!
# Larger programs have smaller variances

More methods, more parameter types and fewer wildcards only add to what an assignment has to
satisfy. So does counting every argument of a type instead of the first one.

* `ClassDecl.Grows`: a class with further methods and parameter types, and fewer wildcards;
* `safe_of_grows`: what is safe for the larger program is safe for the smaller one;
* `growth_narrows`: so smaller variances are inferred for the larger program;
* `safe_first_of_all`: what is safe when all arguments count is safe when the first one does;
* `all_narrows_first`: so smaller variances are inferred when all arguments count, and from the
  same reduced constraints where no type has two arguments.
-/

namespace Polarity

/-! ## Growing programs -/

/-- The same method with further parameter types, and with some wildcards left out. -/
structure Method.Grows (m m' : Method) : Prop where
  name : m'.name = m.name
  returns : m.returns.Bares m'.returns
  params : List.SublistForall₂ TypeUse.Bares m.params m'.params

/-- The same class with further methods, and with methods that have grown. -/
structure ClassDecl.Grows (d d' : ClassDecl) : Prop where
  name : d'.name = d.name
  params : d'.params = d.params
  methods : List.SublistForall₂ Method.Grows d.methods d'.methods

theorem exists_of_sublistForall₂ {α β : Type} {R : α → β → Prop} {as : List α} {bs : List β}
    (h : List.SublistForall₂ R as bs) {a : α} (ha : a ∈ as) : ∃ b ∈ bs, R a b := by
  induction h with
  | nil => cases ha
  | cons related _ ih =>
    obtain rfl | ha := List.mem_cons.1 ha
    · exact ⟨_, .head _, related⟩
    · obtain ⟨b, hb, related⟩ := ih ha
      exact ⟨b, .tail _ hb, related⟩
  | cons_right _ ih =>
    obtain ⟨b, hb, related⟩ := ih ha
    exact ⟨b, .tail _ hb, related⟩

/-- Each type in a method is found again, with fewer wildcards, where it was. -/
theorem Method.Grows.exists_position {m m' : Method} (h : m.Grows m') {x : Position}
    (hx : x ∈ m.positions) :
    ∃ x' ∈ m'.positions, x'.variance = x.variance ∧ x.type.Bares x'.type := by
  obtain rfl | hx := List.mem_cons.1 hx
  · exact ⟨_, .head _, rfl, h.returns⟩
  · obtain ⟨t, ht, rfl⟩ := List.mem_map.1 hx
    obtain ⟨t', ht', bares⟩ := exists_of_sublistForall₂ h.params ht
    exact ⟨_, .tail _ (List.mem_map_of_mem ht'), rfl, bares⟩

theorem ClassDecl.Grows.exists_position {d d' : ClassDecl} (h : d.Grows d') {x : Position}
    (hx : x ∈ d.positions) :
    ∃ x' ∈ d'.positions, x'.variance = x.variance ∧ x.type.Bares x'.type := by
  obtain ⟨m, hm, hx⟩ := List.mem_flatMap.1 hx
  obtain ⟨m', hm', grows⟩ := exists_of_sublistForall₂ h.methods hm
  obtain ⟨x', hx', same⟩ := grows.exists_position hx
  exact ⟨x', List.mem_flatMap.2 ⟨m', hm', hx'⟩, same⟩

section
variable {decls decls' : List ClassDecl} {missing : Variance} {mode : Substitution}
  {ρ : Assignment}

theorem paramsOf_of_grows (h : List.Forall₂ ClassDecl.Grows decls decls') (name : Text) :
    ClassTable.paramsOf ⟨decls⟩ name = ClassTable.paramsOf ⟨decls'⟩ name := by
  induction h with
  | nil => rfl
  | cons grows _ ih =>
    simp only [ClassTable.paramsOf, ClassTable.lookup, List.find?_cons, grows.name] at ih ⊢
    split
    · rw [Option.map_some, Option.map_some, grows.params]
    · exact ih

theorem params_of_grows (h : List.Forall₂ ClassDecl.Grows decls decls') :
    ClassTable.params ⟨decls⟩ = ClassTable.params ⟨decls'⟩ := by
  induction h with
  | nil => rfl
  | @cons d d' ds ds' grows _ ih =>
    have ref (p : Text) : d.ref p = d'.ref p := by
      simp only [ClassDecl.ref, ClassDecl.signature, grows.name, grows.params]
    have refs : d.refs = d'.refs := by
      rw [ClassDecl.refs, ClassDecl.refs, grows.params]
      exact List.map_congr_left fun p _ => ref p
    simp only [ClassTable.params, List.flatMap_cons] at ih ⊢
    rw [refs, ih]

theorem safe_of_grows (h : List.Forall₂ ClassDecl.Grows decls decls')
    (safe : ρ.Safe ⟨decls'⟩ missing mode) : ρ.Safe ⟨decls⟩ missing mode := by
  rw [safe_iff_fits] at safe ⊢
  intro d hd p hp
  obtain ⟨d', hd', grows⟩ : ∃ d' ∈ decls', d.Grows d' :=
    exists_of_sublistForall₂ (List.sublistForall₂_iff.2 ⟨decls', h, List.Sublist.refl _⟩) hd
  have fits := safe d' hd' p (grows.params ▸ hp)
  refine fits.weaken (.inl rfl) (by rw [grows.name]) (fun x hx => grows.exists_position hx) ?_
  intro x hx name _ i
  exact le_of_eq (paramVariance_congr (paramsOf_of_grows h name).symm (fun _ _ _ _ => rfl) i)

end

/-- **Larger programs have smaller variances.** Take two sources that can be read, where the second
has the classes of the first with further methods, further parameter types and fewer wildcards. When
both are inferred under the same policy and mode, every parameter has at most the variance in the
second that it has in the first. -/
theorem growth_narrows (options options' : Options) (source source' : Text)
    (decls decls' : List ClassDecl) (i i' : Inference) (parsed : parse source = .ok decls)
    (parsed' : parse source' = .ok decls') (grows : List.Forall₂ ClassDecl.Grows decls decls')
    (policy : Policy.ofName? options.unresolved = Policy.ofName? options'.unresolved)
    (mode : Substitution.ofName options.substitution = .ofName options'.substitution)
    (fixpoint : Strategy.ofName? options.strategy = some .fixpoint)
    (fixpoint' : Strategy.ofName? options'.strategy = some .fixpoint)
    (inferred : infer options source = .ok i) (inferred' : infer options' source' = .ok i') :
    ∀ className param, Option.Rel (· ≤ ·) (i'.solution.lookup ⟨className, param⟩)
      (i.solution.lookup ⟨className, param⟩) := by
  have infers := infers_of_infer parsed fixpoint inferred
  have infers' := infers_of_infer parsed' fixpoint' inferred'
  rw [Policy.chosen, ← policy, ← mode, ← Policy.chosen] at infers'
  have le := infers.assignment_le infers' fun ρ safe => safe_of_grows grows safe
  intro className param
  rw [infers.lookup, infers'.lookup, ClassTable.keys, ClassTable.keys, params_of_grows grows]
  split
  · exact .some (le _)
  · exact .none

/-! Two classes, and the same with a further method, two parameter types and no wildcard. -/

def sparseSource : Text :=
  "class A<X> \x7b B<? extends X> f(); \x7d class B<Y> \x7b Y g(); \x7d"

def sparseClasses : List ClassDecl :=
  [⟨"A", ["X"], [⟨.mk "B" [(.upper, .mk "X" [] ⟨26, 27⟩)] ⟨14, 28⟩, "f", [], ⟨14, 33⟩⟩], ⟨1, 35⟩⟩,
    ⟨"B", ["Y"], [⟨.mk "Y" [] ⟨49, 50⟩, "g", [], ⟨49, 55⟩⟩], ⟨36, 57⟩⟩]

def grownSource : Text :=
  "class A<X> \x7b X e(); B<X> f(X); \x7d class B<Y> \x7b Y g(A<Y>); \x7d"

def grownClasses : List ClassDecl :=
  [⟨"A", ["X"], [⟨.mk "X" [] ⟨14, 15⟩, "e", [], ⟨14, 20⟩⟩,
      ⟨.mk "B" [(.bare, .mk "X" [] ⟨23, 24⟩)] ⟨21, 25⟩, "f", [.mk "X" [] ⟨28, 29⟩], ⟨21, 31⟩⟩],
      ⟨1, 33⟩⟩,
    ⟨"B", ["Y"], [⟨.mk "Y" [] ⟨47, 48⟩, "g", [.mk "A" [(.bare, .mk "Y" [] ⟨53, 54⟩)] ⟨51, 55⟩],
      ⟨47, 57⟩⟩], ⟨34, 59⟩⟩]

theorem grownClasses_grow : List.Forall₂ ClassDecl.Grows sparseClasses grownClasses := by
  refine .cons ⟨rfl, rfl, .cons_right (.cons ⟨rfl, ?_, .nil⟩ .nil)⟩
    (.cons ⟨rfl, rfl, .cons ⟨rfl, .mk .nil, .nil⟩ .nil⟩ .nil)
  exact .mk (.cons (.inr rfl) (.mk .nil) .nil)

theorem growth_narrows_grown : ∃ i i',
    parse sparseSource = .ok sparseClasses ∧ parse grownSource = .ok grownClasses ∧
    List.Forall₂ ClassDecl.Grows sparseClasses grownClasses ∧
    infer ⟨"all", "fixpoint", 2, "error"⟩ sparseSource = .ok i ∧
    infer ⟨"all", [], 0, []⟩ grownSource = .ok i' ∧
    ∀ className param, Option.Rel (· ≤ ·) (i'.solution.lookup ⟨className, param⟩)
      (i.solution.lookup ⟨className, param⟩) := by
  have parsed : parse sparseSource = .ok sparseClasses := rfl
  have parsed' : parse grownSource = .ok grownClasses := rfl
  obtain ⟨i, inferred⟩ : ∃ i, infer ⟨"all", "fixpoint", 2, "error"⟩ sparseSource = .ok i :=
    exists_infer parsed (by decide) (by decide +kernel)
  obtain ⟨i', inferred'⟩ : ∃ i, infer ⟨"all", [], 0, []⟩ grownSource = .ok i :=
    exists_infer parsed' (by decide) (by decide +kernel)
  exact ⟨i, i', parsed, parsed', grownClasses_grow, inferred, inferred',
    growth_narrows ⟨"all", "fixpoint", 2, "error"⟩ ⟨"all", [], 0, []⟩ sparseSource grownSource
      sparseClasses grownClasses i i' parsed parsed' grownClasses_grow (by decide) rfl (by decide)
      (by decide) inferred inferred'⟩

/-! ## Counting all arguments -/

section
variable {classes : ClassTable} {missing : Variance} {ρ : Assignment}

theorem safe_first_of_all (safe : ρ.Safe classes missing .all) : ρ.Safe classes missing .first := by
  rw [safe_iff_fits] at safe ⊢
  intro d hd p hp
  exact (safe d hd p hp).weaken (.inr rfl) le_rfl (positions_self d) fun _ _ _ _ _ => le_rfl

theorem counted_of_length_le {α : Type} {as : List α} (h : as.length ≤ 1)
    (mode mode' : Substitution) : mode.counted as = mode'.counted as := by
  have all (mode : Substitution) : mode.counted as = as := by
    cases mode with
    | all => rfl
    | first => exact List.take_of_length_le h
  rw [all, all]

/-- An occurrence stands for the same in all modes where no type has two arguments. -/
theorem reduced_of_length_le {param : Text} (mode mode' : Substitution) {t : TypeUse}
    (h : ∀ u ∈ t.nodes, u.args.length ≤ 1) :
    t.reduced classes missing mode param = t.reduced classes missing mode' param := by
  induction t with
  | mk name args span ih =>
    have few := h _ (TypeUse.self_mem_nodes _)
    cases args with
    | nil => simp only [TypeUse.reduced, List.isEmpty_nil, ↓reduceIte]
    | cons arg rest =>
      have none : rest.length = 0 := by
        simp only [TypeUse.args, List.length_cons] at few
        omega
      obtain rfl : rest = [] := List.length_eq_zero_iff.1 none
      have inner := ih arg (.head _) fun u hu =>
        h u (TypeUse.mem_nodes_iff.2 (.inr ⟨arg, .head _, hu⟩))
      simp only [TypeUse.reduced, TypeArg.reduced, List.isEmpty_cons, Bool.false_eq_true,
        ↓reduceIte, inner]
      rw [counted_of_length_le (by simp) mode mode']

theorem classes_reduced_of_length_le (h : ∀ t ∈ classes.nodes, t.args.length ≤ 1)
    (mode mode' : Substitution) :
    classes.reduced missing mode = classes.reduced missing mode' := by
  refine List.flatMap_congr fun d hd => List.flatMap_congr fun p _ =>
    List.flatMap_congr fun m hm => List.flatMap_congr fun x hx => ?_
  have few : ∀ u ∈ x.type.nodes, u.args.length ≤ 1 := fun u hu =>
    h u (mem_nodes_of_method hd hm (Method.type_of_mem_positions hx) hu)
  simp only [Position.reduced, reduced_of_length_le mode mode' few]

end

/-- **Counting all arguments narrows.** When a source can be read and generation finds nothing
wrong, it is inferred both with all bounds of occurrences and with the first ones, and no entry is
greater with all of them. Where no type has two arguments, the reduced constraints are the same. -/
theorem all_narrows_first (strategy policy : Text) (passes : Int) (source : Text)
    (decls : List ClassDecl) (g : Generation) (parsed : parse source = .ok decls)
    (generated : generateNamed ⟨decls⟩ policy = some g) (fine : g.errors = [])
    (fixpoint : Strategy.ofName? strategy = some .fixpoint) :
    ∃ i i', infer ⟨"all", strategy, passes, policy⟩ source = .ok i ∧
      infer ⟨"first", strategy, passes, policy⟩ source = .ok i' ∧
      List.Forall₂ (fun e e' => e.param = e'.param ∧ e.variance ≤ e'.variance)
        i.solution.entries i'.solution.entries ∧
      ((∀ t ∈ ClassTable.nodes ⟨decls⟩, t.args.length ≤ 1) → i.simplified = i'.simplified) := by
  have succeeds (mode : Text) : ∃ i, infer ⟨mode, strategy, passes, policy⟩ source = .ok i := by
    rw [infer, parsed]
    exact ⟨_, inferClasses_of_errors_nil generated fine fixpoint⟩
  obtain ⟨i, inferred⟩ := succeeds "all"
  obtain ⟨i', inferred'⟩ := succeeds "first"
  refine ⟨i, i', inferred, inferred', ?_, fun few => ?_⟩
  · have infers := infers_of_infer parsed fixpoint inferred
    have infers' := infers_of_infer parsed fixpoint inferred'
    have le := infers'.assignment_le infers fun ρ safe => safe_first_of_all safe
    rw [infers.entries, infers'.entries, List.forall₂_map_left_iff, List.forall₂_map_right_iff,
      List.forall₂_same]
    exact fun p _ => ⟨rfl, le p.key⟩
  · obtain ⟨-, rfl⟩ := (infer_eq_ok_iff parsed fixpoint).1 inferred
    obtain ⟨-, rfl⟩ := (infer_eq_ok_iff parsed fixpoint).1 inferred'
    exact classes_reduced_of_length_le few _ _

/-- A class that applies itself inside a class that no one declares. -/
def inwardSource : Text := "class A<X> \x7b C<A<X>> f(A<? super X>); \x7d"

def inwardClasses : List ClassDecl :=
  [⟨"A", ["X"], [⟨.mk "C" [(.bare, .mk "A" [(.bare, .mk "X" [] ⟨18, 19⟩)] ⟨16, 20⟩)] ⟨14, 21⟩, "f",
    [.mk "A" [(.lower, .mk "X" [] ⟨34, 35⟩)] ⟨24, 36⟩], ⟨14, 38⟩⟩], ⟨1, 40⟩⟩]

theorem all_narrows_first_inward : ∃ i i',
    parse inwardSource = .ok inwardClasses ∧
    generateNamed ⟨inwardClasses⟩ "invariant" = some (generate ⟨inwardClasses⟩ .invariant) ∧
    (generate ⟨inwardClasses⟩ .invariant).errors = [] ∧
    Strategy.ofName? "fixpoint" = some .fixpoint ∧
    infer ⟨"all", "fixpoint", 2, "invariant"⟩ inwardSource = .ok i ∧
    infer ⟨"first", "fixpoint", 2, "invariant"⟩ inwardSource = .ok i' ∧
    List.Forall₂ (fun e e' => e.param = e'.param ∧ e.variance ≤ e'.variance)
      i.solution.entries i'.solution.entries ∧
    (∀ t ∈ ClassTable.nodes ⟨inwardClasses⟩, t.args.length ≤ 1) ∧ i.simplified = i'.simplified := by
  have parsed : parse inwardSource = .ok inwardClasses := rfl
  have few : ∀ t ∈ ClassTable.nodes ⟨inwardClasses⟩, t.args.length ≤ 1 := by decide +kernel
  obtain ⟨i, i', inferred, inferred', entries, same⟩ :=
    all_narrows_first "fixpoint" "invariant" 2 inwardSource inwardClasses
      (generate ⟨inwardClasses⟩ .invariant) parsed rfl rfl (by decide)
  exact ⟨i, i', parsed, rfl, rfl, by decide, inferred, inferred', entries, few, same few⟩

end Polarity

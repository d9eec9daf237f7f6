import Polarity.Proofs.Comparison
import Polarity.Proofs.Concatenation

/-!
# Programs that need nothing else

What is inferred for a parameter depends on the parameters that the types of its class apply, and
on theirs in turn. A program that applies its own classes only keeps its variances in front of any
other program that does not declare its classes again.

* `ClassDecl.ReadsWithin`: the parameters that the types of a class go through;
* `Solution.Infers.eq_of_reads`: variances on a set of parameters that reads only itself;
* `infers_append`: what is inferred for two programs one after the other;
* `inference_modular`: the variances of the first one, when it needs nothing else.
-/

namespace Polarity

/-! ## What a class reads -/

section
variable {classes classes' : ClassTable} {missing : Variance} {mode : Substitution}
  {ρ ρ' : Assignment} {S : ParamKey → Prop} {d : ClassDecl} {p : Text} {s : Solution}

/-- The types in a class apply classes that have the same parameters in both programs, all of them
in `S`. -/
def ClassDecl.ReadsWithin (S : ParamKey → Prop) (classes classes' : ClassTable) (d : ClassDecl) :
    Prop :=
  ∀ t ∈ d.types, ∀ name ∈ t.applied, classes.paramsOf name = classes'.paramsOf name ∧
    ∀ params ∈ classes.paramsOf name, ∀ q ∈ params, S ⟨name, q⟩

theorem ClassDecl.ReadsWithin.symm (h : d.ReadsWithin S classes classes') :
    d.ReadsWithin S classes' classes := by
  intro t ht name hn
  obtain ⟨heads, within⟩ := h t ht name hn
  exact ⟨heads.symm, heads ▸ within⟩

theorem ClassDecl.type_of_mem_positions {x : Position} (h : x ∈ d.positions) :
    x.type ∈ d.types := by
  obtain ⟨m, hm, hx⟩ := List.mem_flatMap.1 h
  exact List.mem_flatMap.2 ⟨m, hm, Method.type_of_mem_positions hx⟩

/-- A parameter may be used in the same way where everything that is read is the same. -/
theorem Assignment.Fits.transfer (fits : ρ'.Fits classes' missing mode d p)
    (reads : d.ReadsWithin S classes classes') (agree : ∀ k, S k → ρ k = ρ' k)
    (own : ρ ⟨d.name, p⟩ ≤ ρ' ⟨d.name, p⟩) : ρ.Fits classes missing mode d p := by
  refine fits.weaken (.inl rfl) own (positions_self d) ?_
  intro x hx name hn i
  obtain ⟨heads, within⟩ := reads x.type (d.type_of_mem_positions hx) name hn
  have same : classes.paramVariance missing ρ name i = classes'.paramVariance missing ρ' name i :=
    paramVariance_congr heads (fun params hp q hq => agree _ (within params hp q hq)) i
  exact same.ge

/-- The variances `ρ` in `S`, and `ρ'` elsewhere. -/
def Assignment.patch (S : ParamKey → Prop) [DecidablePred S] (ρ ρ' : Assignment) : Assignment :=
  fun k => if S k then ρ k else ρ' k

/-- **Locality.** Greater variances on a set of parameters are the inferred ones, when they can be
used there in another program in which the set reads the same and only itself. -/
theorem Solution.Infers.eq_of_reads (h : s.Infers classes missing mode) (le : s.assignment ≤ ρ)
    (settled : ∀ d ∈ classes.decls, ∀ p ∈ d.params, S ⟨d.name, p⟩ →
      ρ.Fits classes' missing mode d p ∧ d.ReadsWithin S classes classes') :
    ∀ k, S k → s.assignment k = ρ k := by
  classical
  -- Raising the variances in `S` only helps the parameters outside.
  have raised : s.assignment ≤ ρ.patch S s.assignment := by
    intro k
    rw [Assignment.patch]
    split
    · exact le k
    · exact le_rfl
  have safe : (ρ.patch S s.assignment).Safe classes missing mode := by
    rw [safe_iff_fits]
    intro d hd p hp
    by_cases own : S ⟨d.name, p⟩
    · obtain ⟨fits, reads⟩ := settled d hd p hp own
      exact fits.transfer reads (fun k hk => if_pos hk) (if_pos own).le
    · have fits := safe_iff_fits.1 h.greatest.1 d hd p hp
      refine fits.weaken (.inl rfl) (if_neg own).le (positions_self d) ?_
      exact fun x _ name _ i => paramVariance_mono classes missing raised name i
  intro k hk
  apply le_antisymm (le k)
  calc ρ k = ρ.patch S s.assignment k := (if_pos hk).symm
    _ ≤ s.assignment k := h.greatest.2 safe k

end

/-! ## Reports on what is read -/

section
variable {classes classes' : ClassTable}

mutual

theorem TypeUse.reports_congr : ∀ {t : TypeUse},
    (∀ name ∈ t.applied, classes.paramsOf name = classes'.paramsOf name) →
    t.reports classes = t.reports classes'
  | .mk name [] span, _ => rfl
  | .mk name (arg :: args) span, heads => by
    rw [TypeUse.applied, List.isEmpty_cons, if_neg Bool.false_ne_true] at heads
    have own : classes.paramsOf (TypeUse.mk name (arg :: args) span).name =
        classes'.paramsOf (TypeUse.mk name (arg :: args) span).name := heads name (.head _)
    rw [TypeUse.reports, TypeUse.reports]
    exact TypeArg.reports_congr own (fun inner hi => heads inner (.tail _ hi)) 0

theorem TypeArg.reports_congr {t : TypeUse}
    (own : classes.paramsOf t.name = classes'.paramsOf t.name) : ∀ {args : List TypeArg},
    (∀ name ∈ TypeArg.applied args, classes.paramsOf name = classes'.paramsOf name) →
    ∀ i, TypeArg.reports classes t i args = TypeArg.reports classes' t i args
  | [], _, _ => rfl
  | (w, arg) :: args, heads, i => by
    rw [TypeArg.applied, List.forall_mem_append] at heads
    have arity : classes.arity t.name = classes'.arity t.name := by
      rw [ClassTable.arity, ClassTable.arity, own]
    have complaint : classes.complaint t = classes'.complaint t := by
      rw [ClassTable.complaint, ClassTable.complaint, own]
    rw [TypeArg.reports, TypeArg.reports, arity, complaint, TypeUse.reports_congr heads.1,
      TypeArg.reports_congr own heads.2]

end

end

/-! ## Two programs -/

theorem mem_keys_iff {classes : ClassTable} {key : ParamKey} :
    key ∈ classes.keys ↔ ∃ d ∈ classes.decls, d.name = key.className ∧ key.param ∈ d.params := by
  constructor
  · intro h
    obtain ⟨ref, href, rfl⟩ := List.mem_map.1 h
    obtain ⟨d, hd, href⟩ := List.mem_flatMap.1 href
    obtain ⟨p, hp, rfl⟩ := List.mem_map.1 href
    exact ⟨d, hd, rfl, hp⟩
  · rintro ⟨d, hd, name, hp⟩
    have known := mem_keys hd hp
    rwa [ParamRef.key, ClassDecl.ref, name] at known

section
variable {decls decls' : List ClassDecl} {S : ParamKey → Prop} {missing : Variance}
  {mode : Substitution} {ρ : Assignment}

theorem paramsOf_append {name : Text} (h : name ∈ ClassTable.names ⟨decls⟩) :
    ClassTable.paramsOf ⟨decls ++ decls'⟩ name = ClassTable.paramsOf ⟨decls⟩ name := by
  obtain ⟨d, hd, rfl⟩ := List.mem_map.1 h
  have found : (decls.find? (·.name == d.name)).isSome :=
    List.find?_isSome.2 ⟨d, hd, beq_self_eq_true d.name⟩
  obtain ⟨c, first⟩ := Option.isSome_iff_exists.1 found
  simp only [ClassTable.paramsOf, ClassTable.lookup, List.find?_append, first, Option.some_or]

theorem safe_of_append (reads : ∀ d ∈ decls, d.ReadsWithin S ⟨decls ++ decls'⟩ ⟨decls⟩)
    (safe : ρ.Safe ⟨decls ++ decls'⟩ missing mode) : ρ.Safe ⟨decls⟩ missing mode := by
  rw [safe_iff_fits] at safe ⊢
  intro d hd p hp
  have fits := safe d (List.mem_append_left _ hd) p hp
  exact fits.transfer (reads d hd).symm (fun _ _ => rfl) le_rfl

theorem reports_of_append (reads : ∀ d ∈ decls, d.ReadsWithin S ⟨decls ++ decls'⟩ ⟨decls⟩)
    (none : ClassTable.reports ⟨decls ++ decls'⟩ = []) : ClassTable.reports ⟨decls⟩ = [] := by
  have first : decls.flatMap (fun d => d.types.flatMap (TypeUse.reports ⟨decls ++ decls'⟩)) =
      [] := by
    rw [ClassTable.reports, List.flatMap_append] at none
    exact (List.append_eq_nil_iff.1 none).1
  rw [ClassTable.reports, ← first]
  refine List.flatMap_congr fun d hd => List.flatMap_congr fun t ht => ?_
  exact TypeUse.reports_congr fun name hn => (reads d hd t ht name hn).1.symm

theorem reports_eq_nil_iff
    (same : decls.map ClassDecl.unplaced = decls'.map ClassDecl.unplaced) :
    ClassTable.reports ⟨decls⟩ = [] ↔ ClassTable.reports ⟨decls'⟩ = [] := by
  have tables : ClassTable.unplaced ⟨decls⟩ = ClassTable.unplaced ⟨decls'⟩ :=
    congrArg ClassTable.mk same
  have faults := reports_unplaced ⟨decls⟩
  rw [tables, reports_unplaced] at faults
  rw [← List.map_eq_nil_iff, ← faults, List.map_eq_nil_iff]

section
variable {options : Options} {source source' : Text}

theorem infers_append {i : Inference} (parsed : parse source = .ok decls)
    (parsed' : parse source' = .ok decls')
    (fixpoint : Strategy.ofName? options.strategy = some .fixpoint)
    (inferred : infer options (source ++ source') = .ok i) :
    (Policy.chosen options.unresolved = .error → ClassTable.reports ⟨decls ++ decls'⟩ = []) ∧
      i.solution.Infers ⟨decls ++ decls'⟩ (Policy.chosen options.unresolved).standIn
        (.ofName options.substitution) := by
  obtain ⟨both, accepted, same⟩ := parse_append parsed parsed'
  have fine := ((infer_eq_ok_iff accepted fixpoint).1 inferred).1
  exact ⟨fun strict => (reports_eq_nil_iff same).1 (fine strict),
    (infers_of_infer accepted fixpoint inferred).of_unplaced same⟩

theorem exists_infer_append (parsed : parse source = .ok decls)
    (parsed' : parse source' = .ok decls')
    (fixpoint : Strategy.ofName? options.strategy = some .fixpoint)
    (none : ClassTable.reports ⟨decls ++ decls'⟩ = []) :
    ∃ i, infer options (source ++ source') = .ok i := by
  obtain ⟨both, accepted, same⟩ := parse_append parsed parsed'
  exact exists_infer accepted fixpoint ((reports_eq_nil_iff same).2 none)

end

end

/-! ## A program that needs nothing else -/

/-- Each type that is applied to arguments names a class of the program. -/
def ClassTable.SelfContained (classes : ClassTable) : Prop :=
  ∀ d ∈ classes.decls, ∀ t ∈ d.types, ∀ name ∈ t.applied, name ∈ classes.names

instance (classes : ClassTable) : Decidable classes.SelfContained :=
  inferInstanceAs (Decidable (∀ d ∈ classes.decls, ∀ t ∈ d.types, ∀ name ∈ t.applied,
    name ∈ classes.names))

theorem ClassTable.SelfContained.reads {decls : List ClassDecl}
    (h : ClassTable.SelfContained ⟨decls⟩) (decls' : List ClassDecl) :
    ∀ d ∈ decls, d.ReadsWithin (·.className ∈ ClassTable.names ⟨decls⟩) ⟨decls ++ decls'⟩
      ⟨decls⟩ := by
  intro d hd t ht name hn
  have own := h d hd t ht name hn
  exact ⟨paramsOf_append own, fun _ _ _ _ => own⟩

/-- **Inference is modular.** Take a source that can be read and applies its own classes only, and
behind it another one that can be read and declares none of these classes. When both together are
inferred, so is the first one alone under the same options, and each parameter of its classes has
the same variance in both. -/
theorem inference_modular (options : Options) (source source' : Text)
    (decls decls' : List ClassDecl) (i : Inference) (parsed : parse source = .ok decls)
    (parsed' : parse source' = .ok decls') (contained : ClassTable.SelfContained ⟨decls⟩)
    (apart : ∀ d ∈ decls', d.name ∉ ClassTable.names ⟨decls⟩)
    (fixpoint : Strategy.ofName? options.strategy = some .fixpoint)
    (inferred : infer options (source ++ source') = .ok i) :
    ∃ alone, infer options source = .ok alone ∧ ∀ c ∈ decls, ∀ param,
      i.solution.lookup ⟨c.name, param⟩ = alone.solution.lookup ⟨c.name, param⟩ := by
  have reads := contained.reads decls'
  obtain ⟨fine, infers⟩ := infers_append parsed parsed' fixpoint inferred
  obtain ⟨alone, inferred_alone⟩ : ∃ alone, infer options source = .ok alone :=
    ⟨_, (infer_eq_ok_iff parsed fixpoint).2
      ⟨fun strict => reports_of_append reads (fine strict), rfl⟩⟩
  have infers_alone := infers_of_infer parsed fixpoint inferred_alone
  have le := infers_alone.assignment_le infers fun ρ safe => safe_of_append reads safe
  have first {d : ClassDecl} (hd : d ∈ decls ++ decls')
      (known : d.name ∈ ClassTable.names ⟨decls⟩) : d ∈ decls :=
    (List.mem_append.1 hd).resolve_right fun hd => apart d hd known
  have same : ∀ k : ParamKey, k.className ∈ ClassTable.names ⟨decls⟩ →
      i.solution.assignment k = alone.solution.assignment k := by
    refine infers.eq_of_reads le fun d hd p hp known => ⟨?_, reads d (first hd known)⟩
    exact safe_iff_fits.1 infers_alone.greatest.1 d (first hd known) p hp
  refine ⟨alone, inferred_alone, fun c hc param => ?_⟩
  have known : c.name ∈ ClassTable.names ⟨decls⟩ := List.mem_map_of_mem hc
  have keys : (⟨c.name, param⟩ : ParamKey) ∈ ClassTable.keys ⟨decls ++ decls'⟩ ↔
      ⟨c.name, param⟩ ∈ ClassTable.keys ⟨decls⟩ := by
    rw [mem_keys_iff, mem_keys_iff]
    constructor
    · rintro ⟨d, hd, name, hp⟩
      exact ⟨d, first hd (name ▸ known), name, hp⟩
    · rintro ⟨d, hd, name, hp⟩
      exact ⟨d, List.mem_append_left _ hd, name, hp⟩
  simp only [infers.lookup, infers_alone.lookup, keys, same ⟨c.name, param⟩ known]

/-- Two classes that apply each other. -/
def ownSource : Text :=
  "class A<X> \x7b B<A<X>> f(X); \x7d class B<Y> \x7b A<? super Y> g(); \x7d"

def ownClasses : List ClassDecl :=
  [⟨"A", ["X"], [⟨.mk "B" [(.bare, .mk "A" [(.bare, .mk "X" [] ⟨18, 19⟩)] ⟨16, 20⟩)] ⟨14, 21⟩, "f",
      [.mk "X" [] ⟨24, 25⟩], ⟨14, 27⟩⟩], ⟨1, 29⟩⟩,
    ⟨"B", ["Y"], [⟨.mk "A" [(.lower, .mk "Y" [] ⟨53, 54⟩)] ⟨43, 55⟩, "g", [], ⟨43, 60⟩⟩], ⟨30, 62⟩⟩]

/-- A class that applies both, and calls its parameter as one of them does. -/
def guestSource : Text := "class C<X> \x7b A<X> f(B<X>); \x7d"

def guestClasses : List ClassDecl :=
  [⟨"C", ["X"], [⟨.mk "A" [(.bare, .mk "X" [] ⟨16, 17⟩)] ⟨14, 18⟩, "f",
    [.mk "B" [(.bare, .mk "X" [] ⟨23, 24⟩)] ⟨21, 25⟩], ⟨14, 27⟩⟩], ⟨1, 29⟩⟩]

theorem inference_modular_guest : ∃ i alone,
    parse ownSource = .ok ownClasses ∧ parse guestSource = .ok guestClasses ∧
    ClassTable.SelfContained ⟨ownClasses⟩ ∧
    (∀ d ∈ guestClasses, d.name ∉ ClassTable.names ⟨ownClasses⟩) ∧
    infer ⟨"all", "fixpoint", 2, "error"⟩ (ownSource ++ guestSource) = .ok i ∧
    infer ⟨"all", "fixpoint", 2, "error"⟩ ownSource = .ok alone ∧
    ∀ c ∈ ownClasses, ∀ param,
      i.solution.lookup ⟨c.name, param⟩ = alone.solution.lookup ⟨c.name, param⟩ := by
  have parsed : parse ownSource = .ok ownClasses := rfl
  have parsed' : parse guestSource = .ok guestClasses := rfl
  have contained : ClassTable.SelfContained ⟨ownClasses⟩ := by decide
  have apart : ∀ d ∈ guestClasses, d.name ∉ ClassTable.names ⟨ownClasses⟩ := by decide
  obtain ⟨i, inferred⟩ : ∃ i,
      infer ⟨"all", "fixpoint", 2, "error"⟩ (ownSource ++ guestSource) = .ok i :=
    exists_infer_append parsed parsed' (by decide) (by decide)
  obtain ⟨alone, inferred_alone, same⟩ :=
    inference_modular ⟨"all", "fixpoint", 2, "error"⟩ ownSource guestSource ownClasses
      guestClasses i parsed parsed' contained apart (by decide) inferred
  exact ⟨i, alone, parsed, parsed', contained, apart, inferred, inferred_alone, same⟩

end Polarity

import Polarity.Proofs.Modularity

/-!
# Classes that are declared again

A class name means the first class of that name, so declaring classes again leaves the meaning of
all types as it is. The methods of the later classes still count for the parameters they have, and
a parameter of a later class may be called like one of the first. Such parameters are one and the
same, so they have to fit the methods of both classes.

* `ClassTable.Leads`: the parameters of the first class of each name;
* `sameHeads_append`: what names mean;
* `Solution.Infers.eq_iff_fits`: when the first classes keep their variances;
* `redeclaration_narrows`, `redeclaration_changes`: they do not always.
-/

namespace Polarity

/-- The parameter is one of the first class of its name. -/
def ClassTable.Leads (classes : ClassTable) (key : ParamKey) : Prop :=
  ∃ c, classes.lookup key.className = some c ∧ key.param ∈ c.params

section
variable {classes : ClassTable} {decls decls' : List ClassDecl} {missing : Variance}
  {mode : Substitution} {s s' : Solution} {key : ParamKey}

theorem ClassTable.Leads.mem_keys (h : classes.Leads key) : key ∈ classes.keys := by
  obtain ⟨c, found, hp⟩ := h
  have name : c.name = key.className := by simpa using List.find?_some found
  exact mem_keys_iff.2 ⟨c, List.mem_of_find?_eq_some found, name, hp⟩

theorem mem_keys_append (h : key ∈ ClassTable.keys ⟨decls⟩) :
    key ∈ ClassTable.keys ⟨decls ++ decls'⟩ := by
  obtain ⟨d, hd, named⟩ := mem_keys_iff.1 h
  exact mem_keys_iff.2 ⟨d, List.mem_append_left _ hd, named⟩

/-- Classes that are declared again mean nothing new. -/
theorem sameHeads_append (known : ∀ d ∈ decls', d.name ∈ ClassTable.names ⟨decls⟩) :
    SameHeads ⟨decls ++ decls'⟩ ⟨decls⟩ := by
  intro name
  by_cases own : name ∈ ClassTable.names ⟨decls⟩
  · exact paramsOf_append own
  · have unknown : (decls ++ decls').find? (·.name == name) = none := by
      rw [List.find?_eq_none]
      intro d hd same
      have same : d.name = name := by simpa using same
      obtain hd | hd := List.mem_append.1 hd
      · exact own (same ▸ List.mem_map_of_mem hd)
      · exact own (same ▸ known d hd)
    have unknown_alone : decls.find? (·.name == name) = none := by
      rw [List.find?_append, Option.or_eq_none_iff] at unknown
      exact unknown.1
    simp only [ClassTable.paramsOf, ClassTable.lookup, unknown, unknown_alone]

theorem readsWithin_leads (known : ∀ d ∈ decls', d.name ∈ ClassTable.names ⟨decls⟩)
    (d : ClassDecl) : d.ReadsWithin (ClassTable.Leads ⟨decls⟩) ⟨decls ++ decls'⟩ ⟨decls⟩ := by
  intro t _ name _
  have heads := sameHeads_append known name
  refine ⟨heads, fun params hp q hq => ?_⟩
  rw [heads] at hp
  obtain ⟨c, found, rfl⟩ := Option.map_eq_some_iff.1 hp
  exact ⟨c, found, hq⟩

/-- The first classes keep their variances just when each parameter that is declared again may be
used in the later class as it is in the first one. -/
theorem Solution.Infers.eq_iff_fits (h : s.Infers ⟨decls⟩ missing mode)
    (h' : s'.Infers ⟨decls ++ decls'⟩ missing mode) (le : s'.assignment ≤ s.assignment)
    (known : ∀ d ∈ decls', d.name ∈ ClassTable.names ⟨decls⟩) :
    (∀ key, ClassTable.Leads ⟨decls⟩ key → s'.assignment key = s.assignment key) ↔
      ∀ d ∈ decls', ∀ p ∈ d.params, ClassTable.Leads ⟨decls⟩ ⟨d.name, p⟩ →
        s.assignment.Fits ⟨decls⟩ missing mode d p := by
  have reads := readsWithin_leads known
  constructor
  · intro same d hd p hp leads
    have fits := safe_iff_fits.1 h'.greatest.1 d (List.mem_append_right _ hd) p hp
    exact fits.transfer (reads d).symm (fun k hk => (same k hk).symm) (same _ leads).ge
  · intro fits
    refine h'.eq_of_reads le fun d hd p hp leads => ⟨?_, reads d⟩
    obtain hd | hd := List.mem_append.1 hd
    · exact safe_iff_fits.1 h.greatest.1 d hd p hp
    · exact fits d hd p hp leads

end

/-- **Classes that are declared again narrow the first ones.** Take a source, and behind it another
one that declares classes of the first one again, such that both the first source and the two
together are inferred. Then no parameter of the first class of a name gets a greater variance. All
of them keep their variances just when every parameter that a later class shares with the first one
fits the methods of the later class too, as is the case when none is shared. -/
theorem redeclaration_narrows (options : Options) (source source' : Text)
    (decls decls' : List ClassDecl) (i i' : Inference) (parsed : parse source = .ok decls)
    (parsed' : parse source' = .ok decls')
    (known : ∀ d ∈ decls', d.name ∈ ClassTable.names ⟨decls⟩)
    (fixpoint : Strategy.ofName? options.strategy = some .fixpoint)
    (inferred : infer options source = .ok i)
    (inferred' : infer options (source ++ source') = .ok i') :
    (∀ key, ClassTable.Leads ⟨decls⟩ key → ∃ v v', i.solution.lookup key = some v ∧
      i'.solution.lookup key = some v' ∧ v' ≤ v) ∧
    ((∀ key, ClassTable.Leads ⟨decls⟩ key → i'.solution.lookup key = i.solution.lookup key) ↔
      ∀ d ∈ decls', ∀ p ∈ d.params, ClassTable.Leads ⟨decls⟩ ⟨d.name, p⟩ →
        i.solution.assignment.Fits ⟨decls⟩ (Policy.chosen options.unresolved).standIn
          (.ofName options.substitution) d p) := by
  have infers := infers_of_infer parsed fixpoint inferred
  have infers' := (infers_append parsed parsed' fixpoint inferred').2
  have le : i'.solution.assignment ≤ i.solution.assignment := by
    apply infers.assignment_le infers'
    intro ρ safe
    exact safe_of_append (fun d _ => readsWithin_leads known d) safe
  have lookups : ∀ key, ClassTable.Leads ⟨decls⟩ key →
      i.solution.lookup key = some (i.solution.assignment key) ∧
        i'.solution.lookup key = some (i'.solution.assignment key) := by
    intro key leads
    have declared := leads.mem_keys
    rw [infers.lookup, infers'.lookup, if_pos declared, if_pos (mem_keys_append declared)]
    exact ⟨rfl, rfl⟩
  constructor
  · intro key leads
    obtain ⟨found, found'⟩ := lookups key leads
    exact ⟨_, _, found, found', le key⟩
  · rw [← infers.eq_iff_fits infers' le known]
    refine forall₂_congr fun key leads => ?_
    obtain ⟨found, found'⟩ := lookups key leads
    rw [found, found', Option.some.injEq]

/-- Two classes, and then both again: the first one with another parameter, the second one with
the same. -/
def firstSource : Text := "class A<X> \x7b B<X> f(); \x7d class B<Y> \x7b Y g(); \x7d"

def firstClasses : List ClassDecl :=
  [⟨"A", ["X"], [⟨.mk "B" [(.bare, .mk "X" [] ⟨16, 17⟩)] ⟨14, 18⟩, "f", [], ⟨14, 23⟩⟩], ⟨1, 25⟩⟩,
    ⟨"B", ["Y"], [⟨.mk "Y" [] ⟨39, 40⟩, "g", [], ⟨39, 45⟩⟩], ⟨26, 47⟩⟩]

def againSource : Text := "class A<Z> \x7b Z f(Z); \x7d class B<Y> \x7b A<Y> h(); \x7d"

def againClasses : List ClassDecl :=
  [⟨"A", ["Z"], [⟨.mk "Z" [] ⟨14, 15⟩, "f", [.mk "Z" [] ⟨18, 19⟩], ⟨14, 21⟩⟩], ⟨1, 23⟩⟩,
    ⟨"B", ["Y"], [⟨.mk "A" [(.bare, .mk "Y" [] ⟨39, 40⟩)] ⟨37, 41⟩, "h", [], ⟨37, 46⟩⟩], ⟨24, 48⟩⟩]

theorem redeclaration_narrows_again : ∃ i i',
    parse firstSource = .ok firstClasses ∧ parse againSource = .ok againClasses ∧
    (∀ d ∈ againClasses, d.name ∈ ClassTable.names ⟨firstClasses⟩) ∧
    infer ⟨"all", "fixpoint", 2, "error"⟩ firstSource = .ok i ∧
    infer ⟨"all", "fixpoint", 2, "error"⟩ (firstSource ++ againSource) = .ok i' ∧
    (∀ key, ClassTable.Leads ⟨firstClasses⟩ key → ∃ v v', i.solution.lookup key = some v ∧
      i'.solution.lookup key = some v' ∧ v' ≤ v) ∧
    ((∀ key, ClassTable.Leads ⟨firstClasses⟩ key →
      i'.solution.lookup key = i.solution.lookup key) ↔
      ∀ d ∈ againClasses, ∀ p ∈ d.params, ClassTable.Leads ⟨firstClasses⟩ ⟨d.name, p⟩ →
        i.solution.assignment.Fits ⟨firstClasses⟩ (Policy.chosen "error").standIn (.ofName "all") d
          p) := by
  have parsed : parse firstSource = .ok firstClasses := rfl
  have parsed' : parse againSource = .ok againClasses := rfl
  have known : ∀ d ∈ againClasses, d.name ∈ ClassTable.names ⟨firstClasses⟩ := by decide
  obtain ⟨i, inferred⟩ : ∃ i, infer ⟨"all", "fixpoint", 2, "error"⟩ firstSource = .ok i :=
    exists_infer parsed (by decide) (by decide)
  obtain ⟨i', inferred'⟩ : ∃ i,
      infer ⟨"all", "fixpoint", 2, "error"⟩ (firstSource ++ againSource) = .ok i :=
    exists_infer_append parsed parsed' (by decide) (by decide)
  exact ⟨i, i', parsed, parsed', known, inferred, inferred',
    redeclaration_narrows ⟨"all", "fixpoint", 2, "error"⟩ firstSource againSource firstClasses
      againClasses i i' parsed parsed' known (by decide) inferred inferred'⟩

/-- A class with a result, and behind it the same class with a parameter type. -/
def resultSource : Text := "class A<X> \x7b X f(); \x7d\n"

def resultClasses : List ClassDecl :=
  [⟨"A", ["X"], [⟨.mk "X" [] ⟨14, 15⟩, "f", [], ⟨14, 20⟩⟩], ⟨1, 22⟩⟩]

def argumentSource : Text := "class A<X> \x7b X g(X); \x7d"

def argumentClasses : List ClassDecl :=
  [⟨"A", ["X"], [⟨.mk "X" [] ⟨14, 15⟩, "g", [.mk "X" [] ⟨18, 19⟩], ⟨14, 21⟩⟩], ⟨1, 23⟩⟩]

theorem exists_lookup {options : Options} {source : Text} {key : ParamKey} {v : Variance}
    (h : (infer options source).toOption.map (·.solution.lookup key) = some (some v)) :
    ∃ i, infer options source = .ok i ∧ i.solution.lookup key = some v := by
  cases inferred : infer options source with
  | ok i =>
    rw [inferred] at h
    exact ⟨i, rfl, Option.some.inj h⟩
  | error f =>
    rw [inferred] at h
    cases h

/-- The parameter of the first class, covariant by itself, is invariant once the class is declared
again. -/
theorem redeclaration_changes : ∃ i i',
    parse resultSource = .ok resultClasses ∧ parse argumentSource = .ok argumentClasses ∧
    (∀ d ∈ argumentClasses, d.name ∈ ClassTable.names ⟨resultClasses⟩) ∧
    ClassTable.Leads ⟨resultClasses⟩ ⟨"A", "X"⟩ ∧
    infer ⟨"all", "fixpoint", 2, "error"⟩ resultSource = .ok i ∧
    infer ⟨"all", "fixpoint", 2, "error"⟩ (resultSource ++ argumentSource) = .ok i' ∧
    i.solution.lookup ⟨"A", "X"⟩ = some .covariant ∧
    i'.solution.lookup ⟨"A", "X"⟩ = some .invariant := by
  obtain ⟨i, inferred, covariant⟩ : ∃ i,
      infer ⟨"all", "fixpoint", 2, "error"⟩ resultSource = .ok i ∧
        i.solution.lookup ⟨"A", "X"⟩ = some .covariant :=
    exists_lookup (by decide +kernel)
  obtain ⟨i', inferred', invariant⟩ : ∃ i,
      infer ⟨"all", "fixpoint", 2, "error"⟩ (resultSource ++ argumentSource) = .ok i ∧
        i.solution.lookup ⟨"A", "X"⟩ = some .invariant :=
    exists_lookup (by decide +kernel)
  have leads : ClassTable.Leads ⟨resultClasses⟩ ⟨"A", "X"⟩ := ⟨_, rfl, by decide⟩
  exact ⟨i, i', rfl, rfl, by decide, leads, inferred, inferred', covariant, invariant⟩

end Polarity

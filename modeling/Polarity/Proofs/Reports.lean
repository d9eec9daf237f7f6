import Polarity.Proofs.Occurrences
import Polarity.Proofs.Printing

/-!
# What is reported about a program

Generation comes across an argument without a parameter once for every parameter of the
class around it, and once for every argument too many; each type is reported the first time
only. What is reported, and in which order, can be said by recursion on the types.

* `ClassTable.paramsOf`: all that generation asks about a class;
* `TypeUse.missing`: the arguments without a parameter, in the order they are met;
* `TypeUse.reports`: each type with such an argument, where it is met first;
* `once_missing`: the one without repetitions is the other;
* `unresolved_generate`: what is reported about a program.
-/

namespace Polarity

/-! ## Repeated reports -/

/-- The reports without those on places reported before. -/
def once : List Diagnostic → List Diagnostic
  | [] => []
  | d :: ds => d :: (once ds).filter (·.span ≠ d.span)

theorem once_append (ds ds' : List Diagnostic) :
    once (ds ++ ds') = once ds ++ (once ds').filter (·.span ∉ ds.map Diagnostic.span) := by
  induction ds with
  | nil => simp [once]
  | cons d ds ih =>
    simp only [List.cons_append, once, ih, List.filter_append, List.filter_filter, List.map_cons,
      List.mem_cons, not_or, Bool.decide_and]

theorem once_subset (ds : List Diagnostic) : once ds ⊆ ds := by
  induction ds with
  | nil => exact List.Subset.refl _
  | cons d ds ih => exact List.cons_subset_cons _ (List.Subset.trans (List.filter_subset_self _) ih)

/-- Blocks that share no place are freed of repetitions one by one. -/
theorem once_append_of_disjoint {ds ds' : List Diagnostic}
    (h : ∀ d ∈ ds', d.span ∉ ds.map Diagnostic.span) : once (ds ++ ds') = once ds ++ once ds' := by
  rw [once_append, List.filter_eq_self.2]
  exact fun d hd => by simpa using h d (once_subset ds' hd)

/-- A block with nothing but repetitions adds nothing. -/
theorem once_append_of_subset {ds ds' : List Diagnostic}
    (h : ∀ d ∈ ds', d.span ∈ ds.map Diagnostic.span) : once (ds ++ ds') = once ds := by
  rw [once_append, List.filter_eq_nil_iff.2, List.append_nil]
  exact fun d hd => by simpa using h d (once_subset ds' hd)

theorem once_flatMap {α : Type} {as : List α} {f : α → List Diagnostic} {g : α → List Span}
    (inside : ∀ a ∈ as, ∀ d ∈ f a, d.span ∈ g a) (nodup : (as.flatMap g).Nodup) :
    once (as.flatMap f) = as.flatMap fun a => once (f a) := by
  induction as with
  | nil => rfl
  | cons a as ih =>
    rw [List.flatMap_cons] at nodup
    obtain ⟨-, later, apart⟩ := List.nodup_append.1 nodup
    have disjoint : ∀ d ∈ as.flatMap f, d.span ∉ (f a).map Diagnostic.span := by
      intro d hd known
      obtain ⟨b, hb, hd⟩ := List.mem_flatMap.1 hd
      obtain ⟨d', hd', same⟩ := List.mem_map.1 known
      have other : d.span ∈ as.flatMap g :=
        List.mem_flatMap.2 ⟨b, hb, inside b (.tail _ hb) d hd⟩
      exact apart _ (inside a (.head _) d' hd') _ other same
    rw [List.flatMap_cons, List.flatMap_cons, once_append_of_disjoint disjoint,
      ih (fun b hb => inside b (.tail _ hb)) later]

theorem once_flatMap_const {α : Type} {as : List α} (h : as ≠ []) (ds : List Diagnostic) :
    once (as.flatMap fun _ => ds) = once ds := by
  cases as with
  | nil => exact absurd rfl h
  | cons a as =>
    refine once_append_of_subset fun d hd => ?_
    obtain ⟨-, -, hd⟩ := List.mem_flatMap.1 hd
    exact List.mem_map_of_mem hd

/-- Emissions are freed of repeated reports in the same way. -/
theorem onceFrom_unresolved (seen : List Span) (ems : List Emission) :
    (Emission.onceFrom seen ems).filterMap Emission.unresolved? =
      (once (ems.filterMap Emission.unresolved?)).filter (·.span ∉ seen) := by
  fun_induction Emission.onceFrom seen ems with
  | case1 => rfl
  | case2 seen c rest ih => exact ih
  | case3 seen d rest known ih =>
    have others (d' : Diagnostic) :
        decide (d'.span ∉ seen) = (decide (d'.span ∉ seen) && decide (d'.span ≠ d.span)) := by
      by_cases same : d'.span = d.span <;> simp [same, known]
    simp only [List.filterMap_cons, Emission.unresolved?, once, ih]
    rw [List.filter_cons_of_neg (by simpa using known), List.filter_filter]
    exact List.filter_congr fun d' _ => others d'
  | case4 seen d rest new ih =>
    simp only [List.filterMap_cons, Emission.unresolved?, once, ih]
    rw [List.filter_cons_of_pos (by simpa using new), List.filter_filter]
    simp only [List.mem_cons, not_or, Bool.decide_and, Bool.and_comm, ne_eq]

/-! ## What is asked about a class -/

/-- The parameters of the class of a name. -/
def ClassTable.paramsOf (classes : ClassTable) (name : Text) : Option (List Text) :=
  (classes.lookup name).map (·.params)

/-- How many arguments a name takes. -/
def ClassTable.arity (classes : ClassTable) (name : Text) : Nat :=
  ((classes.paramsOf name).map List.length).getD 0

/-- What is wrong with a type that has an argument without a parameter. -/
def ClassTable.complaint (classes : ClassTable) (t : TypeUse) : Diagnostic :=
  match classes.paramsOf t.name with
  | none => ⟨.unknownClass t.name, t.span⟩
  | some params => ⟨.arityMismatch t.name params.length t.args.length, t.span⟩

theorem span_complaint (classes : ClassTable) (t : TypeUse) :
    (classes.complaint t).span = t.span := by
  unfold ClassTable.complaint
  split <;> rfl

/-- An argument has a parameter as long as the class has one for it. -/
theorem parameter_cases (classes : ClassTable) (t : TypeUse) (i : Nat) :
    (i < classes.arity t.name ∧ ∃ ref, classes.parameter t i = .ok ref) ∨
    (classes.arity t.name ≤ i ∧ classes.parameter t i = .error (classes.complaint t)) := by
  unfold ClassTable.arity ClassTable.parameter ClassTable.complaint ClassTable.paramsOf
  cases classes.lookup t.name with
  | none => exact .inr ⟨Nat.zero_le _, rfl⟩
  | some decl =>
    simp only [Option.map_some, Option.getD_some]
    cases given : decl.params[i]? with
    | some p => exact .inl ⟨(List.getElem?_eq_some_iff.1 given).1, _, rfl⟩
    | none => exact .inr ⟨List.getElem?_eq_none_iff.1 given, rfl⟩

/-! ## Arguments without a parameter -/

section
variable (classes : ClassTable)

mutual

/-- What is wrong with the arguments without a parameter inside a type, in the order they
are met. -/
def TypeUse.missing : TypeUse → List Diagnostic
  | .mk name args span => TypeArg.missing (.mk name args span) 0 args

def TypeArg.missing (t : TypeUse) : (i : Nat) → List TypeArg → List Diagnostic
  | _, [] => []
  | i, (_, arg) :: rest =>
    (if classes.arity t.name ≤ i then [classes.complaint t] else []) ++ arg.missing ++
      TypeArg.missing t (i + 1) rest

end

mutual

/-- What is wrong with the types inside a type, each of them where it is met first. -/
def TypeUse.reports : TypeUse → List Diagnostic
  | .mk name args span => TypeArg.reports (.mk name args span) 0 args

def TypeArg.reports (t : TypeUse) : (i : Nat) → List TypeArg → List Diagnostic
  | _, [] => []
  | i, (_, arg) :: rest =>
    (if i = classes.arity t.name then [classes.complaint t] else []) ++ arg.reports ++
      TypeArg.reports t (i + 1) rest

end

end

section
variable {classes : ClassTable} {standIn : Variance} {param : Text}

theorem argumentBound_unresolved (t : TypeUse) (i : Nat) (arg : TypeArg) :
    (argumentBound classes standIn param t i arg).filterMap Emission.unresolved? =
      if classes.arity t.name ≤ i then [classes.complaint t] else [] := by
  unfold argumentBound
  obtain ⟨lt, ref, ok⟩ | ⟨le, error⟩ := parameter_cases classes t i
  · rw [ok, if_neg (by omega)]
    rfl
  · rw [error, if_pos le]
    rfl

theorem argumentBounds_unresolved {t : TypeUse} (i : Nat) {args : List TypeArg}
    (h : ∀ arg ∈ args, (occurrenceBounds classes standIn param arg.2).filterMap
      Emission.unresolved? = arg.2.missing classes) :
    (argumentBounds classes standIn param t i args).filterMap Emission.unresolved? =
      TypeArg.missing classes t i args := by
  induction args generalizing i with
  | nil => rfl
  | cons arg rest ih =>
    rw [argumentBounds, TypeArg.missing, List.filterMap_append, List.filterMap_append,
      argumentBound_unresolved, h arg (.head _), ih (i + 1) fun arg ha => h arg (.tail _ ha)]

/-- Which arguments have no parameter does not depend on whose occurrences are looked for. -/
theorem occurrenceBounds_unresolved (t : TypeUse) :
    (occurrenceBounds classes standIn param t).filterMap Emission.unresolved? =
      t.missing classes := by
  induction t with
  | mk name args span ih =>
    rw [occurrenceBounds, TypeUse.missing]
    split
    · rename_i terminal
      rw [List.isEmpty_iff.1 terminal, TypeArg.missing, terminalBound]
      split <;> rfl
    · exact argumentBounds_unresolved 0 ih

/-! ## The first of several reports -/

theorem mem_missing_args {t : TypeUse} {i : Nat} {args : List TypeArg} {d : Diagnostic}
    (h : d ∈ TypeArg.missing classes t i args) :
    d.span = t.span ∨ ∃ arg ∈ args, d ∈ arg.2.missing classes := by
  induction args generalizing i with
  | nil => cases h
  | cons arg rest ih =>
    rw [TypeArg.missing, List.append_assoc, List.mem_append, List.mem_append] at h
    obtain own | inner | later := h
    · split at own
      · rw [List.mem_singleton.1 own]
        exact .inl (span_complaint classes t)
      · cases own
    · exact .inr ⟨arg, .head _, inner⟩
    · exact (ih later).imp_right fun ⟨arg', ha, hd⟩ => ⟨arg', .tail _ ha, hd⟩

/-- What is wrong inside a type is said of one of its nodes. -/
theorem span_of_mem_missing {t : TypeUse} {d : Diagnostic} (h : d ∈ t.missing classes) :
    d.span ∈ t.nodes.map (·.span) := by
  induction t with
  | mk name args span ih =>
    rw [TypeUse.nodes_eq, List.map_cons, List.mem_cons, List.map_flatMap]
    rw [TypeUse.missing] at h
    refine (mem_missing_args h).imp_right fun ⟨arg, ha, hd⟩ => ?_
    exact List.mem_flatMap.2 ⟨arg, ha, ih arg ha hd⟩

/-- A type and the nodes of some arguments stand at places of their own. -/
def Apart (t : TypeUse) (args : List TypeArg) : Prop :=
  (t.span :: args.flatMap fun arg => arg.2.nodes.map (·.span)).Nodup

theorem Apart.tail {t : TypeUse} {arg : TypeArg} {rest : List TypeArg}
    (h : Apart t (arg :: rest)) : Apart t rest :=
  h.sublist ((List.sublist_append_right _ _).cons_cons _)

theorem Apart.span_ne {t : TypeUse} {arg : TypeArg} {rest : List TypeArg}
    (h : Apart t (arg :: rest)) {d : Diagnostic} (hd : d ∈ arg.2.missing classes) :
    d.span ≠ t.span := by
  intro same
  refine (List.nodup_cons.1 h).1 ?_
  rw [← same]
  exact List.mem_append_left _ (span_of_mem_missing hd)

/-- What is wrong with an argument is not said again about the later ones. -/
theorem Apart.once_append {t : TypeUse} {arg : TypeArg} {rest : List TypeArg}
    (h : Apart t (arg :: rest)) (i : Nat) :
    once (arg.2.missing classes ++ TypeArg.missing classes t i rest) =
      once (arg.2.missing classes) ++ once (TypeArg.missing classes t i rest) := by
  obtain ⟨-, -, apart⟩ := List.nodup_append.1 (List.nodup_cons.1 h).2
  refine once_append_of_disjoint fun d hd known => ?_
  obtain ⟨d', hd', same⟩ := List.mem_map.1 known
  obtain own | ⟨arg', ha', hd⟩ := mem_missing_args hd
  · exact h.span_ne hd' (same.trans own)
  · have later : d.span ∈ rest.flatMap fun arg => arg.2.nodes.map (·.span) :=
      List.mem_flatMap.2 ⟨arg', ha', span_of_mem_missing hd⟩
    exact apart _ (span_of_mem_missing hd') _ later same

theorem Apart.filter_once {t : TypeUse} {arg : TypeArg} {rest : List TypeArg}
    (h : Apart t (arg :: rest)) :
    (once (arg.2.missing classes)).filter (·.span ≠ t.span) = once (arg.2.missing classes) :=
  List.filter_eq_self.2 fun _ hd => decide_eq_true (h.span_ne (once_subset _ hd))

/-- Behind the first argument without a parameter, the type itself is not reported again. -/
theorem once_missing_late {t : TypeUse} {i : Nat} {args : List TypeArg} (apart : Apart t args)
    (inner : ∀ arg ∈ args, once (arg.2.missing classes) = arg.2.reports classes)
    (late : classes.arity t.name < i) :
    (once (TypeArg.missing classes t i args)).filter (·.span ≠ t.span) =
      TypeArg.reports classes t i args := by
  induction args generalizing i with
  | nil => rfl
  | cons arg rest ih =>
    have later := ih (i := i + 1) apart.tail (fun arg ha => inner arg (.tail _ ha)) (by omega)
    rw [TypeArg.missing, TypeArg.reports, if_pos (by omega), if_neg (by omega), List.append_assoc,
      List.singleton_append, once, span_complaint,
      List.filter_cons_of_neg (by simp [span_complaint]), List.filter_filter, apart.once_append,
      List.filter_append]
    simp only [Bool.and_self]
    rw [apart.filter_once, later, inner arg (.head _), List.nil_append]

theorem once_missing_args {t : TypeUse} {i : Nat} {args : List TypeArg} (apart : Apart t args)
    (inner : ∀ arg ∈ args, once (arg.2.missing classes) = arg.2.reports classes)
    (early : i ≤ classes.arity t.name) :
    once (TypeArg.missing classes t i args) = TypeArg.reports classes t i args := by
  induction args generalizing i with
  | nil => rfl
  | cons arg rest ih =>
    have inRest : ∀ arg ∈ rest, once (arg.2.missing classes) = arg.2.reports classes :=
      fun arg ha => inner arg (.tail _ ha)
    rw [TypeArg.missing, TypeArg.reports, List.append_assoc, List.append_assoc]
    -- The first argument without a parameter is the one with this index. There the type is
    -- reported, and behind it the later complaints are repetitions.
    by_cases full : i = classes.arity t.name
    · rw [if_pos (by omega), if_pos full, List.singleton_append, once, span_complaint,
        apart.once_append, List.filter_append, apart.filter_once,
        once_missing_late apart.tail inRest (by omega), inner arg (.head _),
        List.singleton_append]
    · rw [if_neg (by omega), if_neg full, List.nil_append, List.nil_append, apart.once_append,
        ih apart.tail inRest (by omega), inner arg (.head _)]

/-- Each type with an argument too many is reported where its first such argument is met. -/
theorem once_missing {t : TypeUse} (nodup : (t.nodes.map (·.span)).Nodup) :
    once (t.missing classes) = t.reports classes := by
  induction t with
  | mk name args span ih =>
    have apart : Apart (.mk name args span) args := by
      rw [TypeUse.nodes_eq, List.map_cons, List.map_flatMap] at nodup
      exact nodup
    have inArgs := (List.nodup_flatMap.1 (List.nodup_cons.1 apart).2).1
    rw [TypeUse.missing, TypeUse.reports]
    exact once_missing_args apart (fun arg ha => ih arg ha (inArgs arg ha)) (Nat.zero_le _)

/-! ## The reports on a program -/

theorem classBounds_unresolved (d : ClassDecl) :
    (classBounds classes standIn d).filterMap Emission.unresolved? =
      d.params.flatMap fun _ => d.types.flatMap (TypeUse.missing classes) := by
  have position (param : Text) (v : Variance) (rule : Rule) (t : TypeUse) :
      (positionBounds classes standIn d param v rule t).filterMap Emission.unresolved? =
        t.missing classes :=
    occurrenceBounds_unresolved t
  simp only [classBounds, methodBounds, List.filterMap_flatMap, List.filterMap_append, position,
    ClassDecl.types, Method.types, List.flatMap_assoc, List.flatMap_cons]

/-- What is wrong with the types of a program, each of them where it is met first. -/
def ClassTable.reports (classes : ClassTable) : List Diagnostic :=
  classes.decls.flatMap fun d => d.types.flatMap (TypeUse.reports classes)

/-- **Each type is reported once**, in source order, whatever the policy and however many
parameters the class around it has. -/
theorem unresolved_generate (placed : Placed classes)
    (generic : ∀ d ∈ classes.decls, d.params ≠ []) (policy : Policy) :
    (generate classes policy).unresolved = classes.reports := by
  have spans := placed.nodup_spans
  have inside (t : TypeUse) : ∀ d ∈ t.missing classes, d.span ∈ t.nodes.map (·.span) :=
    fun _ => span_of_mem_missing
  simp only [Generation.unresolved, generate, onceFrom_unresolved, List.filterMap_flatMap,
    classBounds_unresolved, ClassTable.reports, List.not_mem_nil, not_false_eq_true, decide_true,
    List.filter_true]
  rw [once_flatMap _ spans]
  · refine List.flatMap_congr fun d hd => ?_
    have inClass := (List.nodup_flatMap.1 spans).1 d hd
    rw [once_flatMap_const (generic d hd), once_flatMap (fun t _ => inside t) inClass]
    exact List.flatMap_congr fun t ht => once_missing ((List.nodup_flatMap.1 inClass).1 t ht)
  · intro d _ r hr
    obtain ⟨-, -, hr⟩ := List.mem_flatMap.1 hr
    obtain ⟨t, ht, hr⟩ := List.mem_flatMap.1 hr
    exact List.mem_flatMap.2 ⟨t, ht, inside t r hr⟩

end

/-! ## Programs with the same classes -/

/-- The classes of a name have the same parameters. -/
def SameHeads (classes classes' : ClassTable) : Prop :=
  ∀ name, classes.paramsOf name = classes'.paramsOf name

section
variable {classes classes' : ClassTable}

@[simp] theorem TypeUse.name_unplaced (t : TypeUse) : t.unplaced.name = t.name := by
  obtain ⟨name, args, span⟩ := t
  rfl

theorem TypeUse.args_unplaced (t : TypeUse) : t.unplaced.args = TypeArg.unplaced t.args := by
  obtain ⟨name, args, span⟩ := t
  rfl

theorem TypeArg.unplaced_eq_map (args : List TypeArg) :
    TypeArg.unplaced args = args.map fun arg => (arg.1, arg.2.unplaced) := by
  induction args with
  | nil => rfl
  | cons arg rest ih => rw [TypeArg.unplaced_cons, ih, List.map_cons]

@[simp] theorem TypeArg.isEmpty_unplaced (args : List TypeArg) :
    (TypeArg.unplaced args).isEmpty = args.isEmpty := by
  cases args <;> rfl

theorem complaint_fault (heads : SameHeads classes classes') (t : TypeUse) :
    (classes'.complaint t.unplaced).fault = (classes.complaint t).fault := by
  have given : t.unplaced.args.length = t.args.length := by
    rw [t.args_unplaced, TypeArg.unplaced_eq_map, List.length_map]
  unfold ClassTable.complaint
  rw [t.name_unplaced, ← heads, given]
  cases classes.paramsOf t.name <;> rfl

theorem reports_args_faults (heads : SameHeads classes classes') {t : TypeUse} (i : Nat)
    {args : List TypeArg}
    (h : ∀ arg ∈ args, (arg.2.unplaced.reports classes').map Diagnostic.fault =
      (arg.2.reports classes).map Diagnostic.fault) :
    (TypeArg.reports classes' t.unplaced i (TypeArg.unplaced args)).map Diagnostic.fault =
      (TypeArg.reports classes t i args).map Diagnostic.fault := by
  induction args generalizing i with
  | nil => rfl
  | cons arg rest ih =>
    have arity : classes'.arity t.unplaced.name = classes.arity t.name := by
      rw [ClassTable.arity, ClassTable.arity, t.name_unplaced, heads]
    have own : ((if i = classes'.arity t.unplaced.name then [classes'.complaint t.unplaced]
        else []).map Diagnostic.fault) =
        ((if i = classes.arity t.name then [classes.complaint t] else []).map
          Diagnostic.fault) := by
      rw [arity]
      split
      · rw [List.map_singleton, complaint_fault heads, List.map_singleton]
      · rfl
    simp only [TypeArg.unplaced_cons, TypeArg.reports, List.map_append, own, h arg (.head _),
      ih (i + 1) fun arg ha => h arg (.tail _ ha)]

/-- What is wrong with a type does not depend on where it stands. -/
theorem reports_faults (heads : SameHeads classes classes') (t : TypeUse) :
    (t.unplaced.reports classes').map Diagnostic.fault =
      (t.reports classes).map Diagnostic.fault := by
  induction t with
  | mk name args span ih =>
    rw [TypeUse.unplaced_mk, TypeUse.reports, TypeUse.reports]
    exact reports_args_faults heads (t := .mk name args span) 0 ih

end

end Polarity

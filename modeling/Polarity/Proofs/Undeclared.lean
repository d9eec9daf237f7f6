import Polarity.Proofs.Policies

/-!
# Undeclared names

Two walks over a program tell which names are applied to arguments and not declared. One collects
the names of all applied types, and takes away the declared ones from them. The other is generation,
which goes through the types once for every parameter of the class around them, and looks up a class
for every argument.

* `before_iff_lt`, `sorted_pairwise`: texts are ordered byte by byte;
* `differenceWith_ascending`, `mem_differenceWith`: a difference of lists of names, by any package
  for sets;
* `plain_lawful`: such a package;
* `mem_undeclaredWith_iff`: the undeclared names, by the types that have them;
* `mem_unresolved_iff`: what generation reports, by the types it is about;
* `undeclared_agrees`: both walks find the same names.
-/

namespace Polarity

/-! ## Sets of names -/

namespace Text

theorem before_iff_lt (s t : Text) : before s t = true ↔ s < t := by
  fun_induction before s t with
  | case1 s => simp
  | case2 b t => simp
  | case3 a s b t ih => simp [List.cons_lt_cons_iff, ih]

theorem not_before_iff_le (s t : Text) : (!before t s) = true ↔ s ≤ t := by
  rw [Bool.not_eq_true', Bool.eq_false_iff, Ne, before_iff_lt, List.not_lt]

theorem mem_sorted {x : Text} {xs : List Text} : x ∈ sorted xs ↔ x ∈ xs :=
  (List.mergeSort_perm _ _).mem_iff

theorem sorted_pairwise (xs : List Text) : (sorted xs).Pairwise (· ≤ ·) := by
  have trans (r s t : Text) (rs : (!before s r) = true) (st : (!before t s) = true) :
      (!before t r) = true := by
    rw [not_before_iff_le] at *
    exact List.le_trans rs st
  have total (s t : Text) : ((!before t s) || (!before s t)) = true := by
    rw [Bool.or_eq_true, not_before_iff_le, not_before_iff_le]
    exact List.le_total s t
  exact (List.pairwise_mergeSort trans total xs).imp fun h => (not_before_iff_le _ _).1 h

/-- A set has one list in order. -/
theorem eq_of_ascending {xs ys : List Text} (hxs : xs.Pairwise (· < ·)) (hys : ys.Pairwise (· < ·))
    (same : ∀ x, x ∈ xs ↔ x ∈ ys) : xs = ys := by
  have distinct {zs : List Text} (h : zs.Pairwise (· < ·)) : zs.Nodup := by
    refine h.imp ?_
    rintro s _ lt rfl
    exact List.lt_irrefl s lt
  have perm := (List.perm_ext_iff_of_nodup (distinct hxs) (distinct hys)).2 same
  exact perm.eq_of_pairwise (fun s t _ _ st ts => absurd ts (List.lt_asymm st)) hxs hys

section
variable {sets sets' : SetPackage} (lawful : sets.Lawful)
include lawful

theorem sortedUniq_ascending (xs : List Text) : (sortedUniq sets xs).Pairwise (· < ·) :=
  lawful.uniq_ascending _ (sorted_pairwise xs)

theorem mem_sortedUniq {x : Text} {xs : List Text} : x ∈ sortedUniq sets xs ↔ x ∈ xs :=
  (lawful.mem_uniq _ (sorted_pairwise xs) x).trans mem_sorted

/-- The sets are taken from each other in order, as they were made. -/
theorem differenceWith_ascending (xs ys : List Text) :
    (differenceWith sets xs ys).Pairwise (· < ·) :=
  lawful.diff_ascending _ _ (sortedUniq_ascending lawful xs) (sortedUniq_ascending lawful ys)

theorem mem_differenceWith {x : Text} {xs ys : List Text} :
    x ∈ differenceWith sets xs ys ↔ x ∈ xs ∧ x ∉ ys := by
  have found := lawful.mem_diff _ _ (sortedUniq_ascending lawful xs)
    (sortedUniq_ascending lawful ys) x
  rwa [mem_sortedUniq lawful, mem_sortedUniq lawful] at found

/-- It makes no difference which package takes the sets from each other. -/
theorem differenceWith_eq (lawful' : sets'.Lawful) (xs ys : List Text) :
    differenceWith sets xs ys = differenceWith sets' xs ys := by
  refine eq_of_ascending (differenceWith_ascending lawful xs ys)
    (differenceWith_ascending lawful' xs ys) fun x => ?_
  rw [mem_differenceWith lawful, mem_differenceWith lawful']

end

end Text

namespace SetPackage

/-- Of a slice in order, the last of all equal neighbours are the different texts in it. -/
theorem neighbours_of_ordered {data : List Text} (ordered : data.Pairwise (· ≤ ·)) :
    (neighbours data).1.Pairwise (· < ·) ∧ ∀ x, x ∈ (neighbours data).1 ↔ x ∈ data := by
  induction data with
  | nil => exact ⟨.nil, fun _ => Iff.rfl⟩
  | cons y rest ih =>
    obtain ⟨below, ordered⟩ := List.pairwise_cons.1 ordered
    obtain ⟨ascending, mem⟩ := ih ordered
    rw [neighbours]
    split
    · rename_i again
      have known : y ∈ rest := List.mem_of_head? again
      refine ⟨ascending, fun x => (mem x).trans ?_⟩
      rw [List.mem_cons, or_iff_right_of_imp]
      rintro rfl
      exact known
    · rename_i last
      refine ⟨List.pairwise_cons.2 ⟨fun z kept => ?_, ascending⟩, fun x => ?_⟩
      · have hz : z ∈ rest := (mem z).1 kept
        -- If it were not less, it would be the same as all that stand up to it.
        by_contra not_less
        have above : z ≤ y := List.not_lt.1 not_less
        cases rest with
        | nil => cases hz
        | cons h rest =>
          have first : h ≤ z := by
            obtain rfl | later := List.mem_cons.1 hz
            · exact List.le_refl _
            · exact (List.pairwise_cons.1 ordered).1 z later
          have same : h = y :=
            List.le_antisymm (List.le_trans first above) (below h List.mem_cons_self)
          exact last (congrArg some same)
      · rw [List.mem_cons, List.mem_cons, mem]

theorem plain_lawful : plain.Lawful where
  uniq_ascending data ordered := by
    simpa [plain, front] using (neighbours_of_ordered ordered).1
  mem_uniq data ordered x := by
    simpa [plain, front] using (neighbours_of_ordered ordered).2 x
  diff_ascending fst snd ascending _ := by
    simpa [plain, front, List.partition_eq_filter_filter] using ascending.filter _
  mem_diff fst snd _ _ x := by
    simp [plain, front, List.partition_eq_filter_filter]

end SetPackage

theorem mem_firstAppearances {name : Text} {names : List Text} :
    name ∈ firstAppearances names ↔ name ∈ names := by
  have seen (known : List Text) :
      name ∈ names.foldl (fun seen n => if seen.contains n then seen else seen ++ [n]) known ↔
        name ∈ known ∨ name ∈ names := by
    induction names generalizing known with
    | nil => simp
    | cons n names ih =>
      rw [List.foldl_cons, ih, List.mem_cons]
      by_cases again : known.contains n = true
      · have old : n ∈ known := by simpa using again
        rw [if_pos again]
        constructor
        · rintro (h | h)
          · exact .inl h
          · exact .inr (.inr h)
        · rintro (h | rfl | h)
          · exact .inl h
          · exact .inl old
          · exact .inr h
      · rw [if_neg again, List.mem_append, List.mem_singleton, or_assoc]
  rw [firstAppearances, seen [], or_iff_right List.not_mem_nil]

/-! ## Applied types -/

theorem TypeArg.applied_eq (args : List TypeArg) :
    TypeArg.applied args = args.flatMap fun arg => arg.2.applied := by
  induction args with
  | nil => rfl
  | cons arg rest ih => rw [TypeArg.applied, ih, List.flatMap_cons]

theorem TypeUse.mem_applied {t : TypeUse} {name : Text} :
    name ∈ t.applied ↔ ∃ u ∈ t.nodes, u.isTerminal = false ∧ u.name = name := by
  induction t with
  | mk n args span ih =>
    have inner : name ∈ TypeArg.applied args ↔
        ∃ arg ∈ args, ∃ u ∈ arg.2.nodes, u.isTerminal = false ∧ u.name = name := by
      rw [TypeArg.applied_eq, List.mem_flatMap]
      exact exists_congr fun arg => and_congr_right fun ha => ih arg ha
    rw [TypeUse.applied]
    constructor
    · intro h
      split at h
      · cases h
      · rename_i some_arg
        obtain rfl | h := List.mem_cons.1 h
        · exact ⟨_, self_mem_nodes _, Bool.eq_false_iff.2 some_arg, rfl⟩
        · obtain ⟨arg, ha, u, hu, found⟩ := inner.1 h
          exact ⟨u, mem_nodes_iff.2 (.inr ⟨arg, ha, hu⟩), found⟩
    · rintro ⟨u, hu, applied, named⟩
      obtain rfl | ⟨arg, ha, hu⟩ := mem_nodes_iff.1 hu
      · have some_arg : ¬ args.isEmpty = true := Bool.eq_false_iff.1 applied
        rw [if_neg some_arg]
        exact List.mem_cons.2 (.inl named.symm)
      · have some_arg : ¬ args.isEmpty = true := by
          intro none
          rw [List.isEmpty_iff.1 none] at ha
          cases ha
        rw [if_neg some_arg]
        exact .tail _ (inner.2 ⟨arg, ha, u, hu, applied, named⟩)

theorem mem_referencedClasses {decls : List ClassDecl} {name : Text} :
    name ∈ referencedClasses decls ↔
      ∃ t ∈ ClassTable.nodes ⟨decls⟩, t.isTerminal = false ∧ t.name = name := by
  rw [referencedClasses, mem_firstAppearances]
  simp only [ClassTable.nodes, List.mem_flatMap, TypeUse.mem_applied]
  constructor
  · rintro ⟨d, hd, t, ht, u, hu, found⟩
    exact ⟨u, ⟨d, hd, t, ht, hu⟩, found⟩
  · rintro ⟨u, ⟨d, hd, t, ht, hu⟩, found⟩
    exact ⟨d, hd, t, ht, u, hu, found⟩

theorem lookup_eq_none_iff {classes : ClassTable} {name : Text} :
    classes.lookup name = none ↔ name ∉ classes.names := by
  rw [ClassTable.lookup, List.find?_eq_none, ClassTable.names, List.mem_map, not_exists]
  simp only [beq_iff_eq, not_and]

/-- A name is undeclared when some type applies it and no class has it. -/
theorem mem_undeclaredWith_iff {sets : SetPackage} (lawful : sets.Lawful) {i : Inference}
    {name : Text} : name ∈ i.undeclaredWith sets ↔
      ∃ t ∈ i.classes.nodes, t.isTerminal = false ∧ t.name = name ∧
        i.classes.lookup name = none := by
  rw [Inference.undeclaredWith, Text.mem_differenceWith lawful, mem_referencedClasses,
    lookup_eq_none_iff]
  constructor
  · rintro ⟨⟨t, ht, applied, named⟩, absent⟩
    exact ⟨t, ht, applied, named, absent⟩
  · rintro ⟨t, ht, applied, named, absent⟩
    exact ⟨⟨t, ht, applied, named⟩, absent⟩

/-! ## What generation meets -/

section
variable {source : Text} {decls : List ClassDecl} {options : Options} {i : Inference}

/-- A type is complained of as unknown when no class has its name. -/
theorem complaint_unknownClass_iff {classes : ClassTable} {t : TypeUse} {name : Text} :
    (classes.complaint t).fault = .unknownClass name ↔
      t.name = name ∧ classes.lookup name = none := by
  unfold ClassTable.complaint ClassTable.paramsOf
  cases found : classes.lookup t.name with
  | none =>
    simp only [Option.map_none, Fault.unknownClass.injEq, iff_self_and]
    rintro rfl
    exact found
  | some d =>
    simp only [Option.map_some, reduceCtorEq, false_iff, not_and]
    rintro rfl absent
    rw [found] at absent
    cases absent

/-- Generation meets an unknown class just where a type with arguments has a name that no class
has, although it goes through the type once for every parameter of the class around it. -/
theorem mem_unresolved_iff (parsed : parse source = .ok decls) (policy : Policy) {name : Text} :
    (∃ d ∈ (generate ⟨decls⟩ policy).unresolved, d.fault = .unknownClass name) ↔
      ∃ t ∈ ClassTable.nodes ⟨decls⟩, t.isTerminal = false ∧ t.name = name ∧
        ClassTable.lookup ⟨decls⟩ name = none := by
  have reported (d : Diagnostic) : d ∈ (generate ⟨decls⟩ policy).unresolved ↔
      ∃ t ∈ ClassTable.nodes ⟨decls⟩, t.Offends ⟨decls⟩ ∧ ClassTable.complaint ⟨decls⟩ t = d := by
    rw [(unresolved_perm_offences parsed policy).mem_iff, ClassTable.offences,
      ClassTable.offencesAmong, List.mem_map]
    simp only [List.mem_filter, decide_eq_true_eq, and_assoc]
  constructor
  · rintro ⟨d, hd, unknown⟩
    obtain ⟨t, ht, offends, rfl⟩ := (reported d).1 hd
    exact ⟨t, ht, offends.1, complaint_unknownClass_iff.1 unknown⟩
  · rintro ⟨t, ht, applied, named, absent⟩
    have offends : t.Offends ⟨decls⟩ := by
      refine ⟨applied, fun d hd => ?_⟩
      rw [named, absent] at hd
      cases hd
    exact ⟨_, (reported _).2 ⟨t, ht, offends, rfl⟩, complaint_unknownClass_iff.2 ⟨named, absent⟩⟩

/-- A successful inference is about the classes that were read. Where the policy is `error`, it met
nothing that is unresolved. -/
theorem generation_of_infer (inferred : infer options source = .ok i) :
    parse source = .ok i.classes.decls ∧
      i.generation = generate i.classes (.chosen options.unresolved) ∧
      (Policy.chosen options.unresolved = .error → i.generation.unresolved = []) := by
  cases parsed : parse source with
  | error d =>
    rw [infer, parsed] at inferred
    cases inferred
  | ok decls =>
    cases known : Strategy.ofName? options.strategy with
    | none =>
      simp only [infer, parsed, inferClasses, known] at inferred
      split at inferred
      · cases inferred
      · split at inferred <;> cases inferred
    | some strategy =>
      obtain ⟨fine, rfl⟩ := (infer_eq_ok_iff parsed known).1 inferred
      refine ⟨rfl, rfl, fun strict => ?_⟩
      have generic : ∀ d ∈ decls, d.params ≠ [] := fun d hd =>
        (printable_of_parse parsed d hd).generic
      have reports := unresolved_generate (placed_of_parse parsed) generic
        (.chosen options.unresolved)
      exact reports.trans (fine strict)

end

/-- **The undeclared names are the unknown classes that generation meets.** Take any package for
sets that does to slices in order what it should. When inference succeeds, the undeclared names that
are found with it are those of the report, in strictly ascending order of their bytes. A name is
among them if and only if no class has it and some type in the program applies it to arguments; and
if and only if generation met it as an unknown class. So there are none under the policy `error`,
which no name stands for as well. -/
theorem undeclared_agrees (sets : SetPackage) (lawful : sets.Lawful) (options : Options)
    (source : Text) (i : Inference) (inferred : infer options source = .ok i) :
    parse source = .ok i.classes.decls ∧
    i.undeclared = i.undeclaredWith sets ∧
    (i.undeclaredWith sets).Pairwise (· < ·) ∧
    (∀ name, name ∈ i.undeclaredWith sets ↔
      ∃ t ∈ i.classes.nodes, t.isTerminal = false ∧ t.name = name ∧
        i.classes.lookup name = none) ∧
    (∀ name, name ∈ i.undeclaredWith sets ↔
      ∃ d ∈ i.generation.unresolved, d.fault = .unknownClass name) ∧
    (options.unresolved = "error" ∨ options.unresolved = [] → i.undeclaredWith sets = []) := by
  obtain ⟨parsed, generation, strict⟩ := generation_of_infer inferred
  have met (name : Text) : name ∈ i.undeclaredWith sets ↔
      ∃ d ∈ i.generation.unresolved, d.fault = .unknownClass name := by
    rw [mem_undeclaredWith_iff lawful, generation]
    exact (mem_unresolved_iff parsed _).symm
  refine ⟨parsed, Text.differenceWith_eq SetPackage.plain_lawful lawful _ _,
    Text.differenceWith_ascending lawful _ _, fun name => mem_undeclaredWith_iff lawful, met, ?_⟩
  intro policy
  have chosen : Policy.chosen options.unresolved = .error := by
    obtain policy | policy := policy <;> rw [policy] <;> decide
  rw [List.eq_nil_iff_forall_not_mem]
  intro name undeclared
  obtain ⟨d, hd, -⟩ := (met name).1 undeclared
  rw [strict chosen] at hd
  cases hd

/-- Unknown classes inside each other and one of them twice, beside a class with an argument too
many. -/
def undeclaredSource : Text :=
  "class A<T, U> \x7b Zoo<Bar<T>, A<T, U, T>> m(U Zoo<T>); Bar n(T); \x7d"

theorem undeclared_agrees_nested :
    (∃ i, infer ⟨"first", "bounded", 1, "bivariant"⟩ undeclaredSource = .ok i ∧
      i.generation.unresolved.length = 4 ∧
      i.undeclared = (["Bar", "Zoo"] : List Text) ∧ i.undeclared.Pairwise (· < ·) ∧
      ∀ name, name ∈ i.undeclared ↔
        ∃ d ∈ i.generation.unresolved, d.fault = .unknownClass name) ∧
    ∃ i, infer ⟨"all", "fixpoint", 2, []⟩ mutualSource = .ok i ∧ i.undeclared = [] := by
  constructor
  · have evaluated : (infer ⟨"first", "bounded", 1, "bivariant"⟩ undeclaredSource).toOption.map
        (fun i => (referencedClasses i.classes.decls, i.classes.names,
          i.generation.unresolved.length)) =
          some ([Text.ofString "Zoo", Text.ofString "Bar", Text.ofString "A"],
            [Text.ofString "A"], 4) := by
      decide +kernel
    have names : Text.difference ["Zoo", "Bar", "A"] ["A"] = (["Bar", "Zoo"] : List Text) := by
      refine Text.eq_of_ascending (Text.differenceWith_ascending SetPackage.plain_lawful _ _)
        (by decide) fun name => ?_
      rw [Text.difference, Text.mem_differenceWith SetPackage.plain_lawful]
      constructor
      · rintro ⟨referenced, undeclared⟩
        obtain rfl | rfl | rfl : name = "Zoo" ∨ name = "Bar" ∨ name = "A" := by
          simpa using referenced
        · decide
        · decide
        · exact absurd List.mem_cons_self undeclared
      · intro kept
        obtain rfl | rfl : name = "Bar" ∨ name = "Zoo" := by simpa using kept
        · decide
        · decide
    cases inferred : infer ⟨"first", "bounded", 1, "bivariant"⟩ undeclaredSource with
    | error failure =>
      rw [inferred] at evaluated
      cases evaluated
    | ok i =>
      rw [inferred] at evaluated
      obtain ⟨referenced, declared, count⟩ : _ ∧ _ ∧ _ := by
        simpa only [Except.toOption, Option.map_some, Option.some.injEq, Prod.mk.injEq] using
          evaluated
      obtain ⟨-, -, ascending, -, met, -⟩ :=
        undeclared_agrees .plain SetPackage.plain_lawful _ _ i inferred
      refine ⟨i, rfl, count, ?_, ascending, met⟩
      have reported : i.undeclared =
          Text.difference (referencedClasses i.classes.decls) i.classes.names := rfl
      rw [reported, referenced, declared]
      exact names
  · have parsed : parse mutualSource = .ok (readSource mutualSource).classes := by
      rw [parse, Reading.result, mutualSource_accepted.1]
    obtain ⟨i, inferred⟩ : ∃ i, infer ⟨"all", "fixpoint", 2, []⟩ mutualSource = .ok i :=
      exists_infer parsed (by decide) (by decide +kernel)
    obtain ⟨-, -, -, -, -, strict⟩ :=
      undeclared_agrees .plain SetPackage.plain_lawful _ _ i inferred
    exact ⟨i, inferred, strict (.inr rfl)⟩

end Polarity

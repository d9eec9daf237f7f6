import Polarity.Trace
import Polarity.Proofs.Expansion

/-!
# Offending types are reported once each

A type offends when it has arguments, and its name is not declared or the class of its name has
fewer parameters. Generation meets such a type once for every parameter of the class around it and
once for every argument too many, with other offending types in between.

* `TypeUse.Offends`: there is an argument without a parameter;
* `reports_perm_offences`: what is reported about a program, one complaint for each such type;
* `warnings_generation`: what is logged where the policy lets them pass;
* `offences_reported_once`: errors or warnings, and when inference succeeds.
-/

namespace Polarity

/-! ## Offending types -/

/-- The type has arguments, and its name is not declared, or the first class of its name has
fewer parameters. -/
def TypeUse.Offends (classes : ClassTable) (t : TypeUse) : Prop :=
  t.isTerminal = false ∧ ∀ d ∈ classes.lookup t.name, d.params.length < t.args.length

instance (classes : ClassTable) : DecidablePred (TypeUse.Offends classes) := fun t =>
  inferInstanceAs (Decidable (_ ∧ ∀ d ∈ classes.lookup t.name, d.params.length < t.args.length))

/-- What is wrong with the offending ones among some types. -/
def ClassTable.offencesAmong (classes : ClassTable) (types : List TypeUse) : List Diagnostic :=
  (types.filter (·.Offends classes)).map classes.complaint

/-- What is wrong with the offending types of a program, in source order. -/
def ClassTable.offences (classes : ClassTable) : List Diagnostic :=
  classes.offencesAmong classes.nodes

section
variable {classes : ClassTable}

theorem offends_iff_not_resolves {t : TypeUse} : t.Offends classes ↔ ¬ classes.Resolves t := by
  unfold TypeUse.Offends ClassTable.Resolves
  push Not
  rfl

/-- An offending type has an argument behind the last parameter. -/
theorem offends_iff_arity_lt {t : TypeUse} :
    t.Offends classes ↔ classes.arity t.name < t.args.length := by
  have applied : t.isTerminal = false ↔ 0 < t.args.length := by
    rw [TypeUse.isTerminal, List.isEmpty_eq_false_iff, List.length_pos_iff]
  unfold TypeUse.Offends ClassTable.arity ClassTable.paramsOf
  rw [applied]
  cases classes.lookup t.name with
  | none => simp
  | some d =>
    simp only [Option.mem_def, Option.some.injEq, forall_eq', Option.map_some, Option.getD_some]
    omega

theorem offencesAmong_cons (t : TypeUse) (types : List TypeUse) :
    classes.offencesAmong (t :: types) =
      (if t.Offends classes then [classes.complaint t] else []) ++
        classes.offencesAmong types := by
  unfold ClassTable.offencesAmong
  by_cases offends : t.Offends classes
  · rw [List.filter_cons_of_pos (by simpa using offends), if_pos offends]
    rfl
  · rw [List.filter_cons_of_neg (by simpa using offends), if_neg offends]
    rfl

theorem offencesAmong_flatMap {α : Type} (as : List α) (f : α → List TypeUse) :
    classes.offencesAmong (as.flatMap f) = as.flatMap fun a => classes.offencesAmong (f a) := by
  simp only [ClassTable.offencesAmong, List.filter_flatMap, List.map_flatMap]

/-! ## Reports and offences -/

/-- Among the arguments from index `i` on, the type itself is reported at the first one without a
parameter. Reports on earlier arguments stand before that. -/
theorem args_reports_perm {t : TypeUse} (i : Nat) {args : List TypeArg}
    (inner : ∀ arg ∈ args, (arg.2.reports classes).Perm (classes.offencesAmong arg.2.nodes)) :
    (TypeArg.reports classes t i args).Perm
      ((if i ≤ classes.arity t.name ∧ classes.arity t.name < i + args.length
          then [classes.complaint t] else []) ++
        args.flatMap fun arg => classes.offencesAmong arg.2.nodes) := by
  induction args generalizing i with
  | nil =>
    rw [if_neg (by simp only [List.length_nil]; omega)]
    exact .nil
  | cons arg rest ih =>
    have first := inner arg (.head _)
    have later := ih (i + 1) fun arg ha => inner arg (.tail _ ha)
    rw [TypeArg.reports, List.flatMap_cons, List.length_cons]
    by_cases here : i = classes.arity t.name
    · rw [if_neg (by omega), List.nil_append] at later
      rw [if_pos here, if_pos (by omega), List.append_assoc]
      exact (first.append later).append_left _
    · have same : (i + 1 ≤ classes.arity t.name ∧
            classes.arity t.name < i + 1 + rest.length) ↔
          (i ≤ classes.arity t.name ∧ classes.arity t.name < i + (rest.length + 1)) := by
        omega
      simp only [same] at later
      rw [if_neg here, List.nil_append]
      exact (first.append later).trans (List.perm_append_comm_assoc ..)

/-- What is reported about a type are the complaints about its offending nodes. -/
theorem type_reports_perm (t : TypeUse) :
    (t.reports classes).Perm (classes.offencesAmong t.nodes) := by
  induction t with
  | mk name args span ih =>
    have args_perm := args_reports_perm (t := .mk name args span) 0 ih
    have own : (0 ≤ classes.arity (TypeUse.mk name args span).name ∧
          classes.arity (TypeUse.mk name args span).name < 0 + args.length) ↔
        (TypeUse.mk name args span).Offends classes := by
      rw [offends_iff_arity_lt, TypeUse.args, Nat.zero_add]
      exact and_iff_right (Nat.zero_le _)
    simp only [own] at args_perm
    rw [TypeUse.reports, TypeUse.nodes_eq, offencesAmong_cons, offencesAmong_flatMap]
    exact args_perm

/-- **One report for each offending type**, and no others. -/
theorem reports_perm_offences (classes : ClassTable) :
    classes.reports.Perm classes.offences := by
  rw [ClassTable.reports, ClassTable.offences, ClassTable.nodes, offencesAmong_flatMap]
  refine List.Perm.flatMap_left _ fun d _ => ?_
  rw [offencesAmong_flatMap]
  exact List.Perm.flatMap_left _ fun t _ => type_reports_perm t

theorem offences_eq_nil_iff :
    classes.offences = [] ↔ ∀ t ∈ classes.nodes, ¬ t.Offends classes := by
  rw [ClassTable.offences, ClassTable.offencesAmong, List.map_eq_nil_iff, List.filter_eq_nil_iff]
  simp only [decide_eq_true_eq]

theorem reports_eq_nil_iff_offends :
    classes.reports = [] ↔ ∀ t ∈ classes.nodes, ¬ t.Offends classes := by
  rw [← offences_eq_nil_iff, ← List.length_eq_zero_iff,
    (reports_perm_offences classes).length_eq, List.length_eq_zero_iff]

end

/-! ## Warnings -/

/-- The entry says that something should not have happened. -/
def Entry.Warns (e : Entry) : Prop := Level.warn ≤ e.record.level

instance : DecidablePred Entry.Warns := fun e =>
  inferInstanceAs (Decidable (Level.warn ≤ e.record.level))

/-- The line of an entry. -/
def Entry.line (e : Entry) : Text := e.logger.line e.record

/-- The warning about an offending type under a policy that lets it pass. -/
def Trace.offence (policy : Policy) (d : Diagnostic) : Entry :=
  Trace.warning "generate" "unresolved class reference"
    [{ key := "policy", value := policy.name }, { key := "error", value := d.text }]

theorem warnings_emission {policy : Policy} (lenient : policy ≠ .error) (em : Emission) :
    (Trace.emission policy em).filter Entry.Warns =
      (em.unresolved?.map (Trace.offence policy)).toList := by
  cases em with
  | constraint c => rfl
  | unresolved d =>
    rw [Trace.emission, if_neg lenient]
    rfl

/-- Generation warns of what is unresolved, and of nothing else. -/
theorem warnings_generation {g : Generation} (lenient : g.policy ≠ .error) :
    (Trace.generation g).filter Entry.Warns = g.unresolved.map (Trace.offence g.policy) := by
  have own : (g.emissions.flatMap (Trace.emission g.policy)).filter Entry.Warns =
      g.unresolved.map (Trace.offence g.policy) := by
    rw [List.filter_flatMap, Generation.unresolved, List.map_filterMap,
      List.filterMap_eq_flatMap_toList]
    exact List.flatMap_congr fun em _ => warnings_emission lenient em
  rw [Trace.generation, List.filter_append, own]
  exact List.append_nil _

/-- Under the level of warnings, warnings are what is written. -/
theorem logLines_warn (entries : List Entry) :
    logLines Level.warn entries = (entries.filter Entry.Warns).map Entry.line := by
  rw [logLines, ← List.filterMap_eq_filter, List.map_filterMap]
  refine List.filterMap_congr fun e _ => ?_
  have written : e.logger.writes Level.warn e.record = decide e.Warns := by
    unfold Logger.writes Entry.Warns
    by_cases warns : Level.warn ≤ e.record.level <;> simp [warns]
  rw [Logger.line?, written, Option.guard]
  by_cases warns : e.Warns <;> simp [warns, Entry.line]

/-! ## Errors and warnings -/

section
variable {source : Text} {decls : List ClassDecl}

/-- What is unresolved in a program that has been read are its offending types. -/
theorem unresolved_perm_offences (parsed : parse source = .ok decls) (policy : Policy) :
    (generate ⟨decls⟩ policy).unresolved.Perm (ClassTable.offences ⟨decls⟩) := by
  have generic : ∀ d ∈ decls, d.params ≠ [] := fun d hd =>
    (printable_of_parse parsed d hd).generic
  rw [unresolved_generate (placed_of_parse parsed) generic]
  exact reports_perm_offences _

/-- Under the policy `error`, inference succeeds when no type offends. -/
theorem infer_ok_iff_offends {options : Options} {strategy : Strategy}
    (parsed : parse source = .ok decls)
    (strict : Policy.ofName? options.unresolved = some .error)
    (known : Strategy.ofName? options.strategy = some strategy) :
    (∃ i, infer options source = .ok i) ↔
      ∀ t ∈ ClassTable.nodes ⟨decls⟩, ¬ t.Offends ⟨decls⟩ := by
  rw [← reports_eq_nil_iff_offends, infer_known parsed strict known]
  constructor
  · rintro ⟨i, inferred⟩
    by_contra wrong
    rw [if_pos ⟨rfl, wrong⟩] at inferred
    cases inferred
  · intro fine
    exact ⟨_, if_neg fun wrong => wrong.2 fine⟩

end

/-- **Offending types are reported once each.** Take a source that can be read. Under the policy
`error`, the errors of generation are the complaints about its offending types, one for each of
them, in some order; and inference succeeds, with any known strategy, just when there are none.
Under the other policies there are no errors, and generation logs one warning for each offending
type, which is written as a line under the level of warnings. -/
theorem offences_reported_once (source : Text) (decls : List ClassDecl)
    (parsed : parse source = .ok decls) :
    (∀ name, Policy.ofName? name = some .error →
      ∃ g, generateNamed ⟨decls⟩ name = some g ∧
        g.errors.Perm (((ClassTable.nodes ⟨decls⟩).filter (·.Offends ⟨decls⟩)).map
          (ClassTable.complaint ⟨decls⟩)) ∧
        ∀ mode strategy passes, (Strategy.ofName? strategy).isSome →
          ((∃ i, infer ⟨mode, strategy, passes, name⟩ source = .ok i) ↔
            ∀ t ∈ ClassTable.nodes ⟨decls⟩, ¬ t.Offends ⟨decls⟩)) ∧
    ∀ name policy, Policy.ofName? name = some policy → policy ≠ .error →
      ∃ g, generateNamed ⟨decls⟩ name = some g ∧ g.errors = [] ∧
        ((Trace.generation g).filter Entry.Warns).Perm
          (((ClassTable.nodes ⟨decls⟩).filter (·.Offends ⟨decls⟩)).map fun t =>
            Trace.offence policy (ClassTable.complaint ⟨decls⟩ t)) ∧
        (logLines Level.warn (Trace.generation g)).Perm
          (((ClassTable.nodes ⟨decls⟩).filter (·.Offends ⟨decls⟩)).map fun t =>
            (Trace.offence policy (ClassTable.complaint ⟨decls⟩ t)).line) := by
  have generated {name : Text} {policy : Policy} (known : Policy.ofName? name = some policy) :
      generateNamed ⟨decls⟩ name = some (generate ⟨decls⟩ policy) := by
    rw [generateNamed, known]
  constructor
  · intro name strict
    refine ⟨_, generated strict, unresolved_perm_offences parsed .error, ?_⟩
    intro mode strategy passes known
    obtain ⟨_, known⟩ := Option.isSome_iff_exists.1 known
    exact infer_ok_iff_offends parsed strict known
  · intro name policy known lenient
    have warnings : ((Trace.generation (generate ⟨decls⟩ policy)).filter Entry.Warns).Perm
        (((ClassTable.nodes ⟨decls⟩).filter (·.Offends ⟨decls⟩)).map fun t =>
          Trace.offence policy (ClassTable.complaint ⟨decls⟩ t)) := by
      have each := (unresolved_perm_offences parsed policy).map (Trace.offence policy)
      rw [ClassTable.offences, ClassTable.offencesAmong, List.map_map] at each
      rw [warnings_generation lenient]
      exact each
    refine ⟨_, generated known, if_neg lenient, warnings, ?_⟩
    have lines := warnings.map Entry.line
    rw [List.map_map] at lines
    rw [logLines_warn]
    exact lines

/-- A type inside an unknown one, and in it a class with an argument too many, for a class with two
parameters. -/
def offendingSource : Text :=
  "class A<T, U> \x7b B<A<T, U, T, U>, B<T>> m(U); \x7d"

theorem offences_reported_once_nested :
    let decls := (readSource offendingSource).classes
    let offending := (ClassTable.nodes ⟨decls⟩).filter (·.Offends ⟨decls⟩)
    parse offendingSource = .ok decls ∧
    offending.map (·.name) = ["B", "A", "B"] ∧
    Policy.ofName? [] = some .error ∧
    (∃ g, generateNamed ⟨decls⟩ [] = some g ∧
      g.errors.Perm (offending.map (ClassTable.complaint ⟨decls⟩))) ∧
    (¬ ∃ i, infer ⟨"all", "bounded", 2, []⟩ offendingSource = .ok i) ∧
    Policy.ofName? "invariant" = some .invariant ∧
    ∃ g, generateNamed ⟨decls⟩ "invariant" = some g ∧ g.errors = [] ∧
      ((Trace.generation g).filter Entry.Warns).Perm
        (offending.map fun t => Trace.offence .invariant (ClassTable.complaint ⟨decls⟩ t)) ∧
      (logLines Level.warn (Trace.generation g)).Perm (offending.map fun t =>
        (Trace.offence .invariant (ClassTable.complaint ⟨decls⟩ t)).line) := by
  intro decls offending
  have read : (readSource offendingSource).diagnostic = none := by decide +kernel
  have parsed : parse offendingSource = .ok decls := by rw [parse, Reading.result, read]
  have names : offending.map (·.name) = ["B", "A", "B"] := by decide +kernel
  obtain ⟨strict, lenient⟩ := offences_reported_once offendingSource decls parsed
  obtain ⟨g, generated, errors, succeeds⟩ := strict [] (by decide)
  have fails : ¬ ∃ i, infer ⟨"all", "bounded", 2, []⟩ offendingSource = .ok i := by
    rw [succeeds "all" "bounded" 2 (by decide)]
    decide +kernel
  exact ⟨parsed, names, by decide, ⟨g, generated, errors⟩, fails, by decide,
    lenient "invariant" .invariant (by decide) (by decide)⟩

end Polarity

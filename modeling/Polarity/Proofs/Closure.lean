import Polarity.Proofs.Ranges
import Polarity.Proofs.Safety

/-!
# The constraints of a program are closed

Generation bounds every occurrence as soon as it mentions it, and an occurrence only by
occurrences inside it. So reduction comes to an end and leaves nothing that the solver
could not evaluate.

* `Introduced`: each occurrence on a right side is the left side of the next constraint;
* `nodeConstraints`, `filter_isOn`: the constraints on an occurrence are those of its type;
* `mentions_inside`: they mention types strictly inside it;
* `settle_findings`, `solve_findings`: what every constraint does, sweeps do;
* `generate_closed`: all of it, for what is read from a source.
-/

namespace Polarity

/-! ## Occurrences are bounded at once -/

/-- Every occurrence on a right side is the left side of the next constraint. -/
def Introduced : List Constraint → Prop
  | [] => True
  | c :: rest =>
    (∀ o ∈ c.right.occurrences, ∃ c' ∈ rest.head?, c'.left = .occurrence o) ∧ Introduced rest

theorem Introduced.append {cs cs' : List Constraint} (h : Introduced cs) (h' : Introduced cs') :
    Introduced (cs ++ cs') := by
  induction cs with
  | nil => exact h'
  | cons c rest ih =>
    refine ⟨fun o ho => ?_, ih h.2⟩
    obtain ⟨c', hc', left⟩ := h.1 o ho
    exact ⟨c', List.mem_head?_append_of_mem_head? hc', left⟩

theorem Introduced.flatMap {α : Type} {as : List α} {f : α → List Constraint}
    (h : ∀ a ∈ as, Introduced (f a)) : Introduced (as.flatMap f) := by
  induction as with
  | nil => trivial
  | cons a as ih =>
    rw [List.flatMap_cons]
    exact (h a (.head _)).append (ih fun b hb => h b (.tail _ hb))

theorem Introduced.next {cs : List Constraint} (h : Introduced cs) {i : Nat} {c : Constraint}
    (hc : cs[i]? = some c) {o : Occurrence} (ho : o ∈ c.right.occurrences) :
    ∃ c', cs[i + 1]? = some c' ∧ c'.left = .occurrence o := by
  induction cs generalizing i with
  | nil => cases hc
  | cons c₀ rest ih =>
    cases i with
    | zero =>
      cases hc
      obtain ⟨c', hc', left⟩ := h.1 o ho
      exact ⟨c', by rw [List.getElem?_cons_succ, ← List.head?_eq_getElem?]; exact hc', left⟩
    | succ i =>
      rw [List.getElem?_cons_succ] at hc ⊢
      exact ih h.2 hc

/-- The constraints among what arises. -/
def emittedConstraints (ems : List Emission) : List Constraint := ems.filterMap Emission.constraint?

section
variable {classes : ClassTable} {standIn : Variance} {param : Text}

theorem occurrences_argumentExpr (t : TypeUse) (i : Nat) (arg : TypeArg) :
    (argumentExpr classes standIn param t i arg).occurrences = [⟨param, arg.2⟩] := by
  unfold argumentExpr parameterExpr
  split <;> rfl

/-- One constraint arises for each argument, resolved or not. -/
theorem argumentBound_constraints (classes : ClassTable) (standIn : Variance) (param : Text)
    (t : TypeUse) (i : Nat) (arg : TypeArg) :
    emittedConstraints (argumentBound classes standIn param t i arg) =
      [⟨.occurrence ⟨param, t⟩, argumentExpr classes standIn param t i arg,
        some .nestedArgument⟩] := by
  unfold argumentBound argumentExpr parameterExpr
  cases classes.parameter t i <;> rfl

theorem terminalBound_constraints (t : TypeUse) : emittedConstraints [terminalBound param t] =
    [⟨.occurrence ⟨param, t⟩, .literal (if t.name = param then .covariant else .bivariant),
      some (if t.name = param then .selfOccurrence else .unrelatedTerminal)⟩] := by
  unfold terminalBound
  split <;> rfl

theorem argumentBounds_constraints (t : TypeUse) (i : Nat) (arg : TypeArg) (rest : List TypeArg) :
    emittedConstraints (argumentBounds classes standIn param t i (arg :: rest)) =
      ⟨.occurrence ⟨param, t⟩, argumentExpr classes standIn param t i arg, some .nestedArgument⟩ ::
        (emittedConstraints (occurrenceBounds classes standIn param arg.2) ++
          emittedConstraints (argumentBounds classes standIn param t (i + 1) rest)) := by
  have own := argumentBound_constraints classes standIn param t i arg
  simp only [emittedConstraints] at own ⊢
  rw [argumentBounds, List.filterMap_append, List.filterMap_append, own, List.append_assoc,
    List.singleton_append]

/-- The constraints for a type begin with one on the type itself. -/
def Opens (param : Text) (t : TypeUse) (cs : List Constraint) : Prop :=
  Introduced cs ∧ ∃ c ∈ cs.head?, c.left = .occurrence ⟨param, t⟩

theorem Opens.introduced_cons {t : TypeUse} {c : Constraint} {cs : List Constraint}
    (h : Opens param t cs) (hc : c.right.occurrences = [⟨param, t⟩]) : Introduced (c :: cs) := by
  refine ⟨fun o ho => ?_, h.1⟩
  rw [hc] at ho
  obtain rfl := List.mem_singleton.1 ho
  exact h.2

theorem Opens.append {t : TypeUse} {cs cs' : List Constraint} (h : Opens param t cs)
    (h' : Introduced cs') : Opens param t (cs ++ cs') := by
  obtain ⟨introduced, c, hc, left⟩ := h
  exact ⟨introduced.append h', c, List.mem_head?_append_of_mem_head? hc, left⟩

theorem argumentBounds_introduced {t : TypeUse} {i : Nat} {args : List TypeArg}
    (h : ∀ arg ∈ args,
      Opens param arg.2 (emittedConstraints (occurrenceBounds classes standIn param arg.2))) :
    Introduced (emittedConstraints (argumentBounds classes standIn param t i args)) := by
  induction args generalizing i with
  | nil => trivial
  | cons arg rest ih =>
    have later := ih (i := i + 1) fun arg ha => h arg (.tail _ ha)
    rw [argumentBounds_constraints]
    exact ((h arg (.head _)).append later).introduced_cons (occurrences_argumentExpr t i arg)

theorem occurrenceBounds_opens (t : TypeUse) :
    Opens param t (emittedConstraints (occurrenceBounds classes standIn param t)) := by
  induction t with
  | mk name args span ih =>
    rw [occurrenceBounds]
    split
    · rw [terminalBound_constraints]
      exact ⟨⟨by simp [Expr.occurrences], trivial⟩, _, rfl, rfl⟩
    · refine ⟨argumentBounds_introduced ih, ?_⟩
      obtain _ | ⟨arg, rest⟩ := args
      · rename_i applied
        exact absurd rfl applied
      · rw [argumentBounds_constraints]
        exact ⟨_, rfl, rfl⟩

theorem positionBounds_introduced (d : ClassDecl) (position : Variance) (rule : Rule)
    (t : TypeUse) :
    Introduced (emittedConstraints (positionBounds classes standIn d param position rule t)) :=
  (occurrenceBounds_opens t).introduced_cons rfl

theorem classBounds_introduced (d : ClassDecl) :
    Introduced (emittedConstraints (classBounds classes standIn d)) := by
  simp only [emittedConstraints, classBounds, methodBounds, List.filterMap_flatMap,
    List.filterMap_append]
  refine .flatMap fun p _ => .flatMap fun m _ => ?_
  exact (positionBounds_introduced d ..).append (.flatMap fun t _ => positionBounds_introduced d ..)

theorem generate_constraints (classes : ClassTable) (policy : Policy) :
    (generate classes policy).constraints =
      classes.decls.flatMap fun d => emittedConstraints (classBounds classes policy.standIn d) := by
  rw [Generation.constraints, generate, onceFrom_constraints, List.filterMap_flatMap]
  rfl

theorem generate_introduced (classes : ClassTable) (policy : Policy) :
    Introduced (generate classes policy).constraints := by
  rw [generate_constraints]
  exact .flatMap fun d _ => classBounds_introduced d

/-! ## The constraints on one occurrence -/

theorem mem_emittedConstraints {ems : List Emission} {c : Constraint} :
    c ∈ emittedConstraints ems ↔ .constraint c ∈ ems := by
  simp only [emittedConstraints, List.mem_filterMap]
  constructor
  · rintro ⟨em, hem, found⟩
    cases em with
    | constraint c' =>
      cases found
      exact hem
    | unresolved d => cases found
  · exact fun h => ⟨_, h, rfl⟩

/-- The constraints on the occurrence of `param` in `t`: a single one when `t` has no
arguments, and otherwise one for each argument. -/
def nodeConstraints (classes : ClassTable) (standIn : Variance) (param : Text) (t : TypeUse) :
    List Constraint :=
  if t.isTerminal then
    [⟨.occurrence ⟨param, t⟩, .literal (if t.name = param then .covariant else .bivariant),
      some (if t.name = param then .selfOccurrence else .unrelatedTerminal)⟩]
  else
    t.args.mapIdx fun i arg =>
      ⟨.occurrence ⟨param, t⟩, argumentExpr classes standIn param t i arg, some .nestedArgument⟩

/-- They are told by their right sides. -/
theorem nodeConstraints_eq (classes : ClassTable) (standIn : Variance) (param : Text)
    (t : TypeUse) : ∃ rule, nodeConstraints classes standIn param t =
      (nodeBounds classes standIn param t).map fun e =>
        ⟨.occurrence ⟨param, t⟩, e, some rule⟩ := by
  unfold nodeConstraints nodeBounds
  split
  · exact ⟨_, rfl⟩
  · exact ⟨.nestedArgument, List.ext_getElem (by simp) fun i _ _ => by simp⟩

theorem left_of_mem_nodeConstraints {t : TypeUse} {c : Constraint}
    (h : c ∈ nodeConstraints classes standIn param t) : c.left = .occurrence ⟨param, t⟩ := by
  obtain ⟨rule, eq⟩ := nodeConstraints_eq classes standIn param t
  rw [eq] at h
  obtain ⟨e, -, rfl⟩ := List.mem_map.1 h
  rfl

theorem exists_node_of_mem_emittedConstraints {t : TypeUse} {c : Constraint}
    (h : c ∈ emittedConstraints (occurrenceBounds classes standIn param t)) :
    ∃ u ∈ t.nodes, c ∈ nodeConstraints classes standIn param u := by
  induction t with
  | mk name args span ih =>
    rw [occurrenceBounds] at h
    split at h
    · rename_i terminal
      have terminal : (TypeUse.mk name args span).isTerminal = true := terminal
      rw [terminalBound_constraints] at h
      refine ⟨_, TypeUse.self_mem_nodes _, ?_⟩
      rw [nodeConstraints, if_pos terminal]
      exact h
    · rename_i applied
      have applied : ¬ (TypeUse.mk name args span).isTerminal = true := applied
      obtain ⟨j, hj, own | inner⟩ := mem_argumentBounds (mem_emittedConstraints.1 h)
      · rw [Nat.zero_add, ← mem_emittedConstraints, argumentBound_constraints] at own
        refine ⟨_, TypeUse.self_mem_nodes _, ?_⟩
        rw [nodeConstraints, if_neg applied]
        exact List.mem_mapIdx.2 ⟨j, hj, (List.mem_singleton.1 own).symm⟩
      · obtain ⟨u, hu, mem⟩ := ih _ (List.getElem_mem hj) (mem_emittedConstraints.2 inner)
        exact ⟨u, TypeUse.mem_nodes_iff.2 (.inr ⟨_, List.getElem_mem hj, hu⟩), mem⟩

variable {policy : Policy}

/-- Only occurrences of parameters in the types of their classes are bounded. -/
theorem exists_node_of_left {c : Constraint} (hc : c ∈ (generate classes policy).constraints)
    {o : Occurrence} (hl : c.left = .occurrence o) :
    classes.Occurs o.param o.type ∧
      c ∈ nodeConstraints classes policy.standIn o.param o.type := by
  have inPosition {d : ClassDecl} {p : Text} {position : Variance} {rule : Rule} {t : TypeUse}
      (h : .constraint c ∈ positionBounds classes policy.standIn d p position rule t) :
      ∃ u ∈ t.nodes, o = ⟨p, u⟩ ∧ c ∈ nodeConstraints classes policy.standIn p u := by
    obtain h | h := List.mem_cons.1 h
    · obtain rfl := Emission.constraint.inj h
      cases hl
    · obtain ⟨u, hu, mem⟩ := exists_node_of_mem_emittedConstraints (mem_emittedConstraints.2 h)
      rw [left_of_mem_nodeConstraints mem] at hl
      exact ⟨u, hu, (Expr.occurrence.inj hl).symm, mem⟩
  obtain ⟨d, hd, hc⟩ := mem_generate_constraints.1 hc
  simp only [classBounds, methodBounds, List.mem_flatMap, List.mem_append] at hc
  obtain ⟨p, hp, m, hm, hc⟩ := hc
  obtain ⟨t, ht, hc⟩ : ∃ t ∈ m.types, ∃ position rule,
      .constraint c ∈ positionBounds classes policy.standIn d p position rule t := by
    obtain hc | ⟨t, ht, hc⟩ := hc
    · exact ⟨_, .head _, _, _, hc⟩
    · exact ⟨t, .tail _ ht, _, _, hc⟩
  obtain ⟨position, rule, hc⟩ := hc
  obtain ⟨u, hu, rfl, mem⟩ := inPosition hc
  exact ⟨⟨d, hd, hp, t, List.mem_flatMap.2 ⟨m, hm, ht⟩, hu⟩, mem⟩

/-- Whether the left side of a constraint is an occurrence with the given key. -/
def Constraint.isOn (key : OccurrenceKey) (c : Constraint) : Bool :=
  match c.left with
  | .occurrence o => o.key == key
  | _ => false

theorem isOn_iff {key : OccurrenceKey} {c : Constraint} :
    c.isOn key = true ↔ ∃ o : Occurrence, c.left = .occurrence o ∧ o.key = key := by
  unfold Constraint.isOn
  cases c.left <;> simp

theorem boundsOf_eq_filter (constraints : List Constraint) (key : OccurrenceKey) :
    boundsOf .all constraints key = (constraints.filter (·.isOn key)).map (·.right) := by
  have boundOf (c : Constraint) :
      c.boundOf key = if c.isOn key then some c.right else none := by
    unfold Constraint.boundOf Constraint.isOn
    cases c.left <;> simp
  simp only [boundsOf]
  induction constraints with
  | nil => rfl
  | cons c rest ih =>
    by_cases on : c.isOn key = true
    · rw [List.filterMap_cons_some (by rw [boundOf, if_pos on]), List.filter_cons_of_pos on,
        List.map_cons, ih]
    · rw [List.filterMap_cons_none (by rw [boundOf, if_neg on]), List.filter_cons_of_neg on, ih]

/-- Two types at one place are one type. -/
theorem Placed.eq_of_span (placed : Placed classes) {u u' : TypeUse} (hu : u ∈ classes.nodes)
    (hu' : u' ∈ classes.nodes) (same : u.span = u'.span) : u = u' :=
  List.inj_on_of_nodup_map (nodup_of_increasing placed.increasing) hu hu' same

/-- **The constraints on an occurrence are those of its type**, in the order of the
arguments. -/
theorem filter_isOn (placed : Placed classes) {u : TypeUse} (h : classes.Occurs param u) :
    (generate classes policy).constraints.filter (·.isOn ⟨param, u.span⟩) =
      nodeConstraints classes policy.standIn param u := by
  obtain ⟨rule, eq⟩ := nodeConstraints_eq classes policy.standIn param u
  -- The bounds found for the place are known. What remains is that they belong to this very
  -- type and come from its rule, since no other type stands there.
  have told : ∀ c ∈ (generate classes policy).constraints.filter (·.isOn ⟨param, u.span⟩),
      (⟨.occurrence ⟨param, u⟩, c.right, some rule⟩ : Constraint) = c := by
    intro c hc
    obtain ⟨hc, on⟩ := List.mem_filter.1 hc
    obtain ⟨⟨param', u'⟩, left, key⟩ := isOn_iff.1 on
    obtain ⟨occurs, mem⟩ := exists_node_of_left hc left
    obtain rfl : param' = param := congrArg OccurrenceKey.param key
    obtain rfl := placed.eq_of_span occurs.mem_nodes h.mem_nodes (congrArg OccurrenceKey.span key)
    simp only [eq] at mem
    obtain ⟨e, -, rfl⟩ := List.mem_map.1 mem
    rfl
  rw [eq, ← boundsOf_node placed h, boundsOf_eq_filter, List.map_map]
  exact ((List.map_congr_left told).trans (List.map_id _)).symm

end

/-! ## Bounds stay inside -/

section
variable {source : Text} {decls : List ClassDecl}

theorem ranged_of_parse (h : parse source = .ok decls) : ∀ c ∈ decls, c.Ranged source := by
  have ordered := significant_ordered source
  obtain ⟨program, yield, -, rfl⟩ := (reads_iff (tokenize_lexical source)).1 h
  rw [← yield] at ordered
  exact List.forall_mem_map.2 fun c hc => c.ranged (ordered.sublist (yield_sublist hc))

theorem node_ranged_of_parse (h : parse source = .ok decls) {u : TypeUse}
    (hu : u ∈ ClassTable.nodes ⟨decls⟩) : u.Ranged source := by
  obtain ⟨d, hd, hu⟩ := List.mem_flatMap.1 hu
  obtain ⟨t, ht, hu⟩ := List.mem_flatMap.1 hu
  obtain ⟨m, hm, ht⟩ := List.mem_flatMap.1 ht
  exact (((ranged_of_parse h d hd).methods m hm).1.types t ht u hu).1

/-- An occurrence is bounded by occurrences of the same parameter strictly inside it. -/
theorem mentions_inside (h : parse source = .ok decls) {policy : Policy} {k k' : OccurrenceKey}
    (mentions : Mentions (boundsOf .all (generate ⟨decls⟩ policy).constraints) k k') :
    k'.param = k.param ∧ k'.span.StrictlyWithin k.span := by
  obtain ⟨e, he, o, ho, rfl⟩ := mentions
  obtain ⟨param, u, occurs, rfl, mem⟩ := exists_node_of_mem_boundsOf he
  obtain ⟨arg, ha, rfl⟩ := occurrences_of_mem_nodeBounds mem ho
  exact ⟨rfl, (node_ranged_of_parse h occurs.mem_nodes).args arg ha⟩

end

/-! ## What the solver meets with -/

section
variable {declared : List ParamKey} {constraints : List Constraint} {P : Finding → Prop}

theorem sweep_findings (step : ∀ ρ, ∀ c ∈ constraints, P (c, c.verdict declared ρ))
    (ρ : Assignment) : ∀ f ∈ (sweep declared ρ constraints).2, P f := by
  induction constraints generalizing ρ with
  | nil => exact List.forall_mem_nil _
  | cons c rest ih =>
    refine List.forall_mem_cons.2 ⟨step ρ c (.head _), ?_⟩
    exact ih (fun ρ c hc => step ρ c (.tail _ hc)) _

theorem settle_findings (step : ∀ ρ, ∀ c ∈ constraints, P (c, c.verdict declared ρ))
    (limit : Nat) (ρ : Assignment) :
    (∀ f ∈ (settle declared constraints limit ρ).findings, P f) ∧
      ∀ f ∈ (settle declared constraints limit ρ).idle, P f := by
  induction limit generalizing ρ with
  | zero => exact ⟨List.forall_mem_nil _, List.forall_mem_nil _⟩
  | succ limit ih =>
    have now := sweep_findings step ρ
    simp only [settle]
    split
    · obtain ⟨later, idle⟩ := ih (sweep declared ρ constraints).1
      exact ⟨List.forall_mem_append.2 ⟨now, later⟩, idle⟩
    · exact ⟨now, now⟩

/-- A fixed number of sweeps finds what sweeping until nothing changes does. -/
theorem sweepTimes_findings (declared : List ParamKey) (constraints : List Constraint)
    (times : Nat) (ρ : Assignment) :
    (sweepTimes declared constraints times ρ).findings =
      (settle declared constraints times ρ).findings ∧
    (sweepTimes declared constraints times ρ).idle =
      (settle declared constraints times ρ).idle := by
  induction times generalizing ρ with
  | zero => exact ⟨rfl, rfl⟩
  | succ times ih =>
    simp only [sweepTimes, settle]
    split
    · obtain ⟨findings, idle⟩ := ih (sweep declared ρ constraints).1
      exact ⟨congrArg ((sweep declared ρ constraints).2 ++ ·) findings, idle⟩
    · exact ⟨rfl, rfl⟩

theorem solve_findings {classes : ClassTable}
    (step : ∀ ρ, ∀ c ∈ constraints, P (c, c.verdict classes.keys ρ)) (strategy : Strategy)
    (passes : Int) :
    (∀ f ∈ (solve classes constraints strategy passes).findings, P f) ∧
      ∀ f ∈ (solve classes constraints strategy passes).idle, P f := by
  cases strategy with
  | fixpoint => exact settle_findings step _ _
  | bounded =>
    obtain ⟨findings, idle⟩ := sweepTimes_findings classes.keys constraints
      (passCount passes * constraints.length) .top
    simp only [solve, runSweeps, findings, idle]
    exact settle_findings step _ _

/-- The solver passes over the constraint with a warning. -/
def Verdict.Warns : Verdict → Prop
  | .unresolved | .undeclared _ => True
  | .unrelated | .kept | .narrowed .. => False

theorem not_warns_of_effective {c : Constraint} (h : c.Effective declared) (ρ : Assignment) :
    ¬ (c.verdict declared ρ).Warns := by
  obtain ⟨r, left, known⟩ := h.exists_ref
  have value := Expr.eval_of_grounded (ρ := ρ) h.2 fun _ => .bivariant
  simp only [Constraint.verdict, left, value, known, ↓reduceIte]
  split <;> exact id

end

/-! ## All of it -/

/-- What holds of constraints that are generated for some classes, of what they are
simplified to, and of what the solver does with that. -/
structure ClosedUnder (classes : ClassTable) (standIn : Variance) (mode : Substitution)
    (constraints : List Constraint) : Prop where
  /-- An occurrence on a right side is the left side of the very next constraint. -/
  next : ∀ (i : Nat) (c : Constraint) (o : Occurrence), constraints[i]? = some c →
    o ∈ c.right.occurrences → ∃ c', constraints[i + 1]? = some c' ∧ c'.left = .occurrence o
  /-- The constraints on an occurrence are those of its type, in the order of the arguments. -/
  own : ∀ param u, classes.Occurs param u →
    constraints.filter (·.isOn ⟨param, u.span⟩) = nodeConstraints classes standIn param u
  /-- No other occurrences are bounded. -/
  bounded : ∀ c ∈ constraints, ∀ o, c.left = .occurrence o → classes.Occurs o.param o.type
  /-- Bounds only mention what is strictly inside, -/
  inside : ∀ k k', Mentions (boundsOf .all constraints) k k' →
    k'.param = k.param ∧ k'.span.StrictlyWithin k.span
  /-- so following them comes to an end, within as many steps as reduction goes. -/
  ends : Exhausts (boundsOf mode constraints) constraints.length
  /-- Declared parameters are bounded by expressions over declared parameters. -/
  grounded : ∀ c ∈ simplify mode constraints, (∃ r, c.left = .param r ∧ r.key ∈ classes.keys) ∧
    c.right.Grounded classes.keys ∧ c.right.isTop = false
  /-- The solver warns of nothing. -/
  quiet : ∀ strategy passes, ∀ f ∈
    (solve classes (simplify mode constraints) strategy passes).findings ++
      (solve classes (simplify mode constraints) strategy passes).idle, ¬ f.2.Warns

/-- **The constraints of a program are closed, acyclic and solvable**, for every source that
can be read, every policy, resolved or not, and every substitution. -/
theorem generate_closed {source : Text} {decls : List ClassDecl} (parsed : parse source = .ok decls)
    {policyName : Text} {policy : Policy} (known : Policy.ofName? policyName = some policy)
    (modeName : Text) :
    ∃ g, generateNamed ⟨decls⟩ policyName = some g ∧
      ClosedUnder ⟨decls⟩ policy.standIn (.ofName modeName) g.constraints := by
  have placed := placed_of_parse parsed
  have acyclic := generated_acyclic placed (.ofName modeName) policy
  have effective : ∀ c ∈ simplify (.ofName modeName) (generate ⟨decls⟩ policy).constraints,
      c.Effective (ClassTable.keys ⟨decls⟩) := simplified_effective placed
  refine ⟨generate ⟨decls⟩ policy, by simp only [generateNamed, known], ?_⟩
  refine ⟨fun i c o hc ho => (generate_introduced _ policy).next hc ho,
    fun param u occurs => filter_isOn placed occurs,
    fun c hc o left => (exists_node_of_left hc left).1,
    fun k k' mentions => mentions_inside parsed mentions, exhausts_boundsOf acyclic,
    fun c hc => ?_, fun strategy passes => ?_⟩
  · obtain ⟨_, -, -, e, -, top, rfl⟩ := (mem_simplify acyclic).1 hc
    exact ⟨(effective _ hc).exists_ref, (effective _ hc).2, top⟩
  · obtain ⟨findings, idle⟩ := solve_findings (P := fun f => ¬ f.2.Warns)
      (fun ρ c hc => not_warns_of_effective (effective c hc) ρ) strategy passes
    exact List.forall_mem_append.2 ⟨findings, idle⟩

/-- A type inside a type, an unknown class, and an argument too many. -/
def unresolvedSource : Text :=
  "class A<T, U> \x7b A<? extends B<T>, A<T, U, T>> m(U); \x7d"

theorem generate_closed_unresolved :
    let decls := (readSource unresolvedSource).classes
    parse unresolvedSource = .ok decls ∧ Policy.ofName? "invariant" = some .invariant ∧
    (generate ⟨decls⟩ .invariant).unresolved.length = 2 ∧
    (simplify (.ofName "all") (generate ⟨decls⟩ .invariant).constraints).length = 5 ∧
    ∃ g, generateNamed ⟨decls⟩ "invariant" = some g ∧
      ClosedUnder ⟨decls⟩ .invariant (.ofName "all") g.constraints := by
  intro decls
  have read : (readSource unresolvedSource).diagnostic = none := by decide +kernel
  have parsed : parse unresolvedSource = .ok decls := by rw [parse, Reading.result, read]
  have known : Policy.ofName? "invariant" = some .invariant := by decide
  exact ⟨parsed, known, by decide +kernel, by decide +kernel, generate_closed parsed known "all"⟩

end Polarity

import Polarity.Generation
import Polarity.Proofs.Places
import Polarity.Proofs.Resolution

/-!
# The bounds of occurrences

Generation bounds the occurrence of a parameter in a type by the arguments of the
type. Constraints are found again by the place of the type, so the bounds that are
found for a place have to be those of the type that stands there.

* `nodeBounds`: the bounds of a parameter in a type, one for each argument;
* `Arises`: what generation emits for a parameter and a type, not counting the
  types inside it;
* `flatMap_single`: of several blocks, only the one that knows a name contributes;
* `boundsOf_node`: the bounds found for a place are those of the type there;
* `generated_acyclic`: they only mention types further on.
-/

namespace Polarity

/-! ## Types inside types -/

/-- To prove something of every type, assume it of the arguments. -/
@[induction_eliminator]
theorem TypeUse.byArgs {motive : TypeUse → Prop}
    (mk : ∀ name args span, (∀ arg : TypeArg, arg ∈ args → motive arg.2) →
      motive (.mk name args span)) : ∀ t, motive t
  | .mk name args span => mk name args span fun arg _ => byArgs mk arg.2
termination_by t => sizeOf t
decreasing_by
  have smaller : sizeOf arg < sizeOf args := List.sizeOf_lt_of_mem ‹_›
  obtain ⟨w, t⟩ := arg
  simp only [Prod.mk.sizeOf_spec, TypeUse.mk.sizeOf_spec] at smaller ⊢
  omega

theorem TypeArg.nodes_eq (args : List TypeArg) :
    TypeArg.nodes args = args.flatMap fun arg => arg.2.nodes := by
  induction args with
  | nil => rfl
  | cons arg rest ih => rw [TypeArg.nodes, ih, List.flatMap_cons]

/-- The types inside a type are the type itself and those inside its arguments. -/
theorem TypeUse.nodes_eq (t : TypeUse) :
    t.nodes = t :: t.args.flatMap fun arg => arg.2.nodes := by
  obtain ⟨name, args, span⟩ := t
  rw [TypeUse.nodes, TypeArg.nodes_eq, TypeUse.args]

theorem TypeUse.mem_nodes_iff {t u : TypeUse} :
    u ∈ t.nodes ↔ u = t ∨ ∃ arg ∈ t.args, u ∈ arg.2.nodes := by
  rw [TypeUse.nodes_eq, List.mem_cons, List.mem_flatMap]

theorem TypeUse.self_mem_nodes (t : TypeUse) : t ∈ t.nodes := TypeUse.mem_nodes_iff.2 (.inl rfl)

theorem TypeUse.nodes_sublist {t u : TypeUse} (h : u ∈ t.nodes) : u.nodes.Sublist t.nodes := by
  induction t with
  | mk name args span ih =>
    obtain rfl | ⟨arg, ha, hu⟩ := TypeUse.mem_nodes_iff.1 h
    · exact List.Sublist.refl _
    · rw [TypeUse.nodes_eq (.mk name args span)]
      have inside : arg.2.nodes.Sublist (args.flatMap fun arg => arg.2.nodes) :=
        List.sublist_flatten_of_mem (List.mem_map_of_mem ha)
      exact ((ih arg ha hu).trans inside).cons _

/-! ## The bounds of one type -/

section
variable (classes : ClassTable) (standIn : Variance) (param : Text)

/-- The parameter that the argument with index `i` is given to, or what stands in
for it. -/
def parameterExpr (t : TypeUse) (i : Nat) : Expr :=
  match classes.parameter t i with
  | .ok ref => .param ref
  | .error _ => .literal standIn

/-- The bound of the occurrence of `param` in `t` by its argument with index `i`. -/
def argumentExpr (t : TypeUse) (i : Nat) (arg : TypeArg) : Expr :=
  .transform (.join (.literal arg.1.variance) (parameterExpr classes standIn t i))
    (.occurrence ⟨param, arg.2⟩)

/-- The bounds of the occurrence of `param` in `t`. -/
def nodeBounds (t : TypeUse) : List Expr :=
  if t.isTerminal then [.literal (if t.name = param then .covariant else .bivariant)]
  else t.args.mapIdx (argumentExpr classes standIn param t)

/-- What can arise for a parameter and a type. -/
inductive Arises (t : TypeUse) : Emission → Prop
  | bound {c : Constraint} (left : c.left = .occurrence ⟨param, t⟩)
      (right : c.right ∈ nodeBounds classes standIn param t) : Arises t (.constraint c)
  | unresolved {d : Diagnostic} {i : Nat} (given : i < t.args.length)
      (missing : classes.parameter t i = .error d) : Arises t (.unresolved d)

end

/-- The upper bound that arises for an occurrence, if any. -/
def Emission.boundOf (key : OccurrenceKey) (em : Emission) : Option Expr :=
  em.constraint?.bind (Constraint.boundOf key)

section
variable {classes : ClassTable} {standIn : Variance} {param : Text} {key : OccurrenceKey}

theorem nodeBounds_ne_nil (t : TypeUse) : nodeBounds classes standIn param t ≠ [] := by
  obtain ⟨name, args, span⟩ := t
  cases args <;> simp [nodeBounds, TypeUse.isTerminal, TypeUse.args]

/-- The bounds of a type mention its arguments and no other occurrences. -/
theorem occurrences_of_mem_nodeBounds {t : TypeUse} {e : Expr} {o : Occurrence}
    (he : e ∈ nodeBounds classes standIn param t) (ho : o ∈ e.occurrences) :
    ∃ arg ∈ t.args, o = ⟨param, arg.2⟩ := by
  unfold nodeBounds at he
  split at he
  · rw [List.mem_singleton.1 he] at ho
    cases ho
  · obtain ⟨i, hi, rfl⟩ := List.mem_mapIdx.1 he
    refine ⟨t.args[i], List.getElem_mem hi, ?_⟩
    unfold argumentExpr parameterExpr at ho
    split at ho <;> simpa [Expr.occurrences] using ho

theorem boundOf_occurrence (t : TypeUse) (e : Expr) (rule : Option Rule) :
    Emission.boundOf key (.constraint ⟨.occurrence ⟨param, t⟩, e, rule⟩) =
      if key = ⟨param, t.span⟩ then some e else none := by
  simp only [Emission.boundOf, Emission.constraint?, Option.bind_some, Constraint.boundOf,
    Occurrence.key, eq_comm]

theorem boundOf_unresolved (d : Diagnostic) : Emission.boundOf key (.unresolved d) = none := rfl

theorem Arises.of_boundOf {t : TypeUse} {em : Emission} {e : Expr}
    (h : Arises classes standIn param t em) (found : em.boundOf key = some e) :
    key = ⟨param, t.span⟩ ∧ e ∈ nodeBounds classes standIn param t := by
  cases h with
  | @bound c left right =>
    obtain ⟨_, bound, rule⟩ := c
    subst left
    rw [boundOf_occurrence] at found
    split at found
    · rename_i own
      cases found
      exact ⟨own, right⟩
    · cases found
  | unresolved => cases found

theorem terminalBound_arises {t : TypeUse} (h : t.isTerminal = true) :
    Arises classes standIn param t (terminalBound param t) := by
  unfold terminalBound
  split <;> refine .bound rfl ?_ <;> simp [nodeBounds, *]

theorem argumentBound_arises {t : TypeUse} {i : Nat} (hi : i < t.args.length) {em : Emission}
    (h : em ∈ argumentBound classes standIn param t i t.args[i]) :
    Arises classes standIn param t em := by
  have applied : ¬ t.isTerminal = true := by
    intro terminal
    rw [TypeUse.isTerminal, List.isEmpty_iff] at terminal
    simp [terminal] at hi
  have mem : argumentExpr classes standIn param t i t.args[i] ∈
      nodeBounds classes standIn param t := by
    rw [nodeBounds, if_neg applied]
    exact List.mem_mapIdx.2 ⟨i, hi, rfl⟩
  unfold argumentExpr parameterExpr at mem
  unfold argumentBound at h
  cases missing : classes.parameter t i with
  | ok ref =>
    simp only [missing, List.mem_singleton] at h mem
    subst h
    exact .bound rfl mem
  | error d =>
    simp only [missing, List.mem_cons, List.not_mem_nil, or_false] at h mem
    obtain rfl | rfl := h
    · exact .unresolved hi missing
    · exact .bound rfl mem

/-! ## The bounds of a type and the types inside it -/

theorem mem_argumentBounds {t : TypeUse} {i : Nat} {args : List TypeArg} {em : Emission}
    (h : em ∈ argumentBounds classes standIn param t i args) :
    ∃ j, ∃ hj : j < args.length, em ∈ argumentBound classes standIn param t (i + j) args[j] ∨
      em ∈ occurrenceBounds classes standIn param args[j].2 := by
  induction args generalizing i with
  | nil => cases h
  | cons arg rest ih =>
    rw [argumentBounds, List.append_assoc, List.mem_append, List.mem_append] at h
    obtain own | inner | later := h
    · exact ⟨0, Nat.zero_lt_succ _, .inl own⟩
    · exact ⟨0, Nat.zero_lt_succ _, .inr inner⟩
    · obtain ⟨j, hj, found⟩ := ih later
      refine ⟨j + 1, Nat.succ_lt_succ hj, ?_⟩
      rw [Nat.add_right_comm, Nat.add_assoc] at found
      exact found

/-- Nothing arises for a type but what its nodes give rise to. -/
theorem arises_of_mem {t : TypeUse} {em : Emission}
    (h : em ∈ occurrenceBounds classes standIn param t) :
    ∃ u ∈ t.nodes, Arises classes standIn param u em := by
  induction t with
  | mk name args span ih =>
    rw [occurrenceBounds] at h
    split at h
    · rename_i terminal
      rw [List.mem_singleton.1 h]
      exact ⟨_, TypeUse.self_mem_nodes _, terminalBound_arises terminal⟩
    · obtain ⟨j, hj, own | inner⟩ := mem_argumentBounds h
      · rw [Nat.zero_add] at own
        exact ⟨_, TypeUse.self_mem_nodes _, argumentBound_arises hj own⟩
      · have mem := List.getElem_mem hj
        obtain ⟨u, hu, arises⟩ := ih _ mem inner
        exact ⟨u, TypeUse.mem_nodes_iff.2 (.inr ⟨_, mem, hu⟩), arises⟩

theorem foreign_bounds {t : TypeUse} (h : ∀ u ∈ t.nodes, key ≠ ⟨param, u.span⟩) :
    (occurrenceBounds classes standIn param t).filterMap (Emission.boundOf key) = [] := by
  rw [List.filterMap_eq_nil_iff]
  intro em hem
  obtain ⟨u, hu, arises⟩ := arises_of_mem hem
  rw [Option.eq_none_iff_forall_ne_some]
  intro e found
  exact h u hu (arises.of_boundOf found).1

theorem foreign_bounds_of_span {t : TypeUse} (h : key.span ∉ t.nodes.map (·.span)) :
    (occurrenceBounds classes standIn param t).filterMap (Emission.boundOf key) = [] := by
  refine foreign_bounds fun u hu same => h ?_
  exact List.mem_map.2 ⟨u, hu, (congrArg OccurrenceKey.span same).symm⟩

/-- Of several blocks, only the one that knows a name contributes. -/
theorem flatMap_single {α β γ : Type} {l : List α} {f : α → List β} {g : α → List γ} {x : α}
    {s : γ} (nodup : (l.flatMap g).Nodup) (hx : x ∈ l) (hs : s ∈ g x)
    (silent : ∀ y ∈ l, s ∉ g y → f y = []) : l.flatMap f = f x := by
  induction l with
  | nil => cases hx
  | cons y rest ih =>
    rw [List.flatMap_cons] at nodup ⊢
    obtain ⟨-, later, apart⟩ := List.nodup_append.1 nodup
    obtain rfl | hx := List.mem_cons.1 hx
    · have others : rest.flatMap f = [] := by
        rw [List.flatMap_eq_nil_iff]
        intro z hz
        exact silent z (.tail _ hz) fun hs' =>
          apart s hs s (List.mem_flatMap.2 ⟨z, hz, hs'⟩) rfl
      rw [others, List.append_nil]
    · have first : f y = [] := silent y (.head _) fun hs' =>
        apart s hs' s (List.mem_flatMap.2 ⟨x, hx, hs⟩) rfl
      rw [first, List.nil_append]
      exact ih later hx fun z hz => silent z (.tail _ hz)

theorem argumentBound_bounds (t : TypeUse) (i : Nat) (arg : TypeArg) :
    (argumentBound classes standIn param t i arg).filterMap (Emission.boundOf key) =
      if key = ⟨param, t.span⟩ then [argumentExpr classes standIn param t i arg] else [] := by
  unfold argumentBound argumentExpr parameterExpr
  by_cases own : key = ⟨param, t.span⟩
  · cases classes.parameter t i <;>
      simp [List.filterMap_cons, boundOf_unresolved, boundOf_occurrence, own]
  · cases classes.parameter t i <;>
      simp [List.filterMap_cons, boundOf_unresolved, boundOf_occurrence, own]

/-- The bounds of a type are found by its place, if it is not inside itself. -/
theorem own_bounds {t : TypeUse} (i : Nat) {args : List TypeArg}
    (apart : ∀ arg ∈ args, ∀ u ∈ arg.2.nodes, t.span ≠ u.span) :
    (argumentBounds classes standIn param t i args).filterMap
        (Emission.boundOf ⟨param, t.span⟩) =
      args.mapIdx fun j => argumentExpr classes standIn param t (i + j) := by
  induction args generalizing i with
  | nil => rfl
  | cons arg rest ih =>
    have inner : (occurrenceBounds classes standIn param arg.2).filterMap
        (Emission.boundOf ⟨param, t.span⟩) = [] := by
      refine foreign_bounds fun u hu same => apart arg (.head _) u hu ?_
      exact congrArg OccurrenceKey.span same
    rw [argumentBounds, List.filterMap_append, List.filterMap_append, argumentBound_bounds,
      if_pos rfl, inner, ih (i + 1) fun arg ha => apart arg (.tail _ ha), List.mapIdx_cons]
    simp only [List.append_nil, List.singleton_append, Nat.add_zero, Nat.add_right_comm i 1,
      Nat.add_assoc i]

/-- The bounds of other types are found among those of the arguments. -/
theorem inner_bounds {t : TypeUse} (i : Nat) (args : List TypeArg) (h : key ≠ ⟨param, t.span⟩) :
    (argumentBounds classes standIn param t i args).filterMap (Emission.boundOf key) =
      args.flatMap fun arg =>
        (occurrenceBounds classes standIn param arg.2).filterMap (Emission.boundOf key) := by
  induction args generalizing i with
  | nil => rfl
  | cons arg rest ih =>
    rw [argumentBounds, List.filterMap_append, List.filterMap_append, argumentBound_bounds,
      if_neg h, ih, List.flatMap_cons, List.nil_append]

/-- The bounds found for the place of a node are those of the node. -/
theorem node_bounds {t u : TypeUse} (hu : u ∈ t.nodes) (nodup : (t.nodes.map (·.span)).Nodup) :
    (occurrenceBounds classes standIn param t).filterMap (Emission.boundOf ⟨param, u.span⟩) =
      nodeBounds classes standIn param u := by
  induction t with
  | mk name args span ih =>
    rw [TypeUse.nodes_eq, List.map_cons, List.nodup_cons, List.map_flatMap] at nodup
    simp only [TypeUse.args, TypeUse.span] at nodup
    obtain ⟨own, inside⟩ := nodup
    have apart : ∀ arg ∈ args, ∀ u ∈ arg.2.nodes, span ≠ u.span := by
      intro arg ha u hu same
      exact own (List.mem_flatMap.2 ⟨arg, ha, List.mem_map.2 ⟨u, hu, same.symm⟩⟩)
    rw [occurrenceBounds]
    by_cases terminal : args.isEmpty = true
    · obtain rfl : args = [] := List.isEmpty_iff.1 terminal
      obtain rfl := List.mem_singleton.1 hu
      simp only [List.isEmpty_nil, ↓reduceIte, terminalBound, nodeBounds, TypeUse.isTerminal,
        TypeUse.args]
      split <;> simp [boundOf_occurrence]
    · rw [if_neg terminal]
      obtain rfl | ⟨arg, ha, hu⟩ := TypeUse.mem_nodes_iff.1 hu
      · rw [own_bounds 0 apart]
        simp only [nodeBounds, TypeUse.isTerminal, TypeUse.args, terminal, ↓reduceIte,
          Nat.zero_add, Bool.false_eq_true]
      · have other : (⟨param, u.span⟩ : OccurrenceKey) ≠ ⟨param, span⟩ := by
          intro same
          exact apart arg ha u hu (congrArg OccurrenceKey.span same).symm
        have known : u.span ∈ arg.2.nodes.map (·.span) := List.mem_map_of_mem hu
        rw [inner_bounds 0 args other, flatMap_single inside ha known, ih arg ha hu]
        · exact (List.nodup_flatMap.1 inside).1 arg ha
        · exact fun arg' _ unknown => foreign_bounds_of_span unknown

/-! ## The bounds of a program -/

theorem onceFrom_constraints (seen : List Span) (ems : List Emission) :
    (Emission.onceFrom seen ems).filterMap Emission.constraint? =
      ems.filterMap Emission.constraint? := by
  fun_induction Emission.onceFrom seen ems with
  | case1 => rfl
  | case2 seen c rest ih => simp only [List.filterMap_cons, Emission.constraint?, ih]
  | case3 seen d rest known ih => exact ih
  | case4 seen d rest new ih => exact ih

theorem onceFrom_subset (seen : List Span) (ems : List Emission) :
    Emission.onceFrom seen ems ⊆ ems := by
  fun_induction Emission.onceFrom seen ems with
  | case1 => exact List.Subset.refl _
  | case2 seen c rest ih => exact List.cons_subset_cons _ ih
  | case3 seen d rest known ih => exact List.subset_cons_of_subset _ ih
  | case4 seen d rest new ih => exact List.cons_subset_cons _ ih

theorem positionBounds_bounds (d : ClassDecl) (position : Variance) (rule : Rule) (t : TypeUse) :
    (positionBounds classes standIn d param position rule t).filterMap (Emission.boundOf key) =
      (occurrenceBounds classes standIn param t).filterMap (Emission.boundOf key) := rfl

theorem classBounds_bounds (d : ClassDecl) :
    (classBounds classes standIn d).filterMap (Emission.boundOf key) =
      d.params.flatMap fun param => d.types.flatMap fun t =>
        (occurrenceBounds classes standIn param t).filterMap (Emission.boundOf key) := by
  simp only [classBounds, methodBounds, List.filterMap_flatMap, List.filterMap_append,
    positionBounds_bounds, ClassDecl.types, Method.types, List.flatMap_assoc, List.flatMap_cons]

variable {policy : Policy}

/-- The bounds found for a place, class by class, parameter by parameter and type by
type. -/
theorem boundsOf_generate : boundsOf .all (generate classes policy).constraints key =
    classes.decls.flatMap fun d => d.params.flatMap fun param => d.types.flatMap fun t =>
      (occurrenceBounds classes policy.standIn param t).filterMap (Emission.boundOf key) := by
  have joined (ems : List Emission) : (ems.filterMap Emission.constraint?).filterMap
      (Constraint.boundOf key) = ems.filterMap (Emission.boundOf key) :=
    List.filterMap_filterMap
  simp only [boundsOf, Generation.constraints, generate, onceFrom_constraints, joined,
    List.filterMap_flatMap, classBounds_bounds]

/-- The type `u` stands in a class with the parameter `param`. -/
def ClassTable.Occurs (classes : ClassTable) (param : Text) (u : TypeUse) : Prop :=
  ∃ d ∈ classes.decls, param ∈ d.params ∧ ∃ t ∈ d.types, u ∈ t.nodes

theorem ClassTable.Occurs.mem_nodes {u : TypeUse} (h : classes.Occurs param u) :
    u ∈ classes.nodes := by
  obtain ⟨d, hd, -, t, ht, hu⟩ := h
  exact List.mem_flatMap.2 ⟨d, hd, List.mem_flatMap.2 ⟨t, ht, hu⟩⟩

theorem ClassTable.Occurs.arg {u : TypeUse} (h : classes.Occurs param u) {arg : TypeArg}
    (ha : arg ∈ u.args) : classes.Occurs param arg.2 := by
  obtain ⟨d, hd, hp, t, ht, hu⟩ := h
  have inside : arg.2 ∈ u.nodes := TypeUse.mem_nodes_iff.2 (.inr ⟨arg, ha, arg.2.self_mem_nodes⟩)
  exact ⟨d, hd, hp, t, ht, (TypeUse.nodes_sublist hu).subset inside⟩

theorem ClassTable.occurs_of_method {d : ClassDecl} (hd : d ∈ classes.decls)
    (hp : param ∈ d.params) {m : Method} (hm : m ∈ d.methods) {t : TypeUse} (ht : t ∈ m.types) :
    classes.Occurs param t :=
  ⟨d, hd, hp, t, List.mem_flatMap.2 ⟨m, hm, ht⟩, t.self_mem_nodes⟩

/-- Bounds are found for the places of types only. -/
theorem exists_node_of_mem_boundsOf {e : Expr}
    (he : e ∈ boundsOf .all (generate classes policy).constraints key) :
    ∃ param u, classes.Occurs param u ∧ key = ⟨param, u.span⟩ ∧
      e ∈ nodeBounds classes policy.standIn param u := by
  simp only [boundsOf_generate, List.mem_flatMap, List.mem_filterMap] at he
  obtain ⟨d, hd, param, hp, t, ht, em, hem, found⟩ := he
  obtain ⟨u, hu, arises⟩ := arises_of_mem hem
  obtain ⟨place, mem⟩ := arises.of_boundOf found
  exact ⟨param, u, ⟨d, hd, hp, t, ht, hu⟩, place, mem⟩

theorem Placed.nodup_spans (placed : Placed classes) :
    (classes.decls.flatMap fun d => d.types.flatMap fun t => t.nodes.map (·.span)).Nodup := by
  have starts := List.pairwise_map.1 placed.increasing
  have spans : (classes.nodes.map (·.span)).Nodup := by
    refine List.pairwise_map.2 (starts.imp fun lt same => ?_)
    rw [same] at lt
    exact Int.lt_irrefl _ lt
  simpa only [ClassTable.nodes, List.map_flatMap] using spans

/-- An argument begins after the type it is given to. -/
theorem Placed.start_lt (placed : Placed classes) {u : TypeUse} (hu : u ∈ classes.nodes)
    {arg : TypeArg} (ha : arg ∈ u.args) : u.span.start < arg.2.span.start := by
  obtain ⟨d, hd, hu⟩ := List.mem_flatMap.1 hu
  obtain ⟨t, ht, hu⟩ := List.mem_flatMap.1 hu
  have inside : u.nodes.Sublist classes.nodes := by
    refine (TypeUse.nodes_sublist hu).trans ?_
    have here : t.nodes.Sublist (d.types.flatMap TypeUse.nodes) :=
      List.sublist_flatten_of_mem (List.mem_map_of_mem ht)
    exact here.trans (List.sublist_flatten_of_mem (List.mem_map_of_mem hd))
  have starts := (List.pairwise_map.1 placed.increasing).sublist inside
  rw [TypeUse.nodes_eq, List.pairwise_cons] at starts
  exact starts.1 _ (List.mem_flatMap.2 ⟨arg, ha, arg.2.self_mem_nodes⟩)

/-- **A place tells whose bounds are meant.** The bounds found for the place of a
type are those of the type that stands there, one for each argument, in order. -/
theorem boundsOf_node (placed : Placed classes) {u : TypeUse} (h : classes.Occurs param u) :
    boundsOf .all (generate classes policy).constraints ⟨param, u.span⟩ =
      nodeBounds classes policy.standIn param u := by
  obtain ⟨d, hd, hp, t, ht, hu⟩ := h
  have spans := placed.nodup_spans
  have inClass := (List.nodup_flatMap.1 spans).1 d hd
  have inType := (List.nodup_flatMap.1 inClass).1 t ht
  have known : u.span ∈ t.nodes.map (·.span) := List.mem_map_of_mem hu
  rw [boundsOf_generate, flatMap_single spans hd (List.mem_flatMap.2 ⟨t, ht, known⟩),
    flatMap_single (g := fun p => [p]) _ hp (List.mem_singleton.2 rfl),
    flatMap_single inClass ht known, node_bounds hu inType]
  · exact fun t' _ unknown => foreign_bounds_of_span unknown
  · intro param' _ other
    rw [List.flatMap_eq_nil_iff]
    intro t' _
    refine foreign_bounds fun u' _ same => other ?_
    exact List.mem_singleton.2 (congrArg OccurrenceKey.param same)
  · rw [List.flatMap_singleton']
    exact placed.distinct d hd
  · intro d' _ unknown
    simp only [List.flatMap_eq_nil_iff]
    intro param' _ t' ht'
    exact foreign_bounds_of_span fun known => unknown (List.mem_flatMap.2 ⟨t', ht', known⟩)

theorem generated_acyclic (placed : Placed classes) (mode : Substitution) (policy : Policy) :
    Acyclic (boundsOf mode (generate classes policy).constraints) := by
  refine acyclic_of_lt (f := fun k => k.span.start) ?_
  rintro k k' ⟨e, he, o, ho, rfl⟩
  obtain ⟨param, u, occurs, rfl, mem⟩ :=
    exists_node_of_mem_boundsOf (boundsOf_subset mode _ _ he)
  obtain ⟨arg, ha, rfl⟩ := occurrences_of_mem_nodeBounds mem ho
  exact placed.start_lt occurs.mem_nodes ha

theorem mem_nodes_of_method {d : ClassDecl} (hd : d ∈ classes.decls) {m : Method}
    (hm : m ∈ d.methods) {t u : TypeUse} (ht : t ∈ m.types) (hu : u ∈ t.nodes) :
    u ∈ classes.nodes :=
  List.mem_flatMap.2 ⟨d, hd, List.mem_flatMap.2 ⟨t, List.mem_flatMap.2 ⟨m, hm, ht⟩, hu⟩⟩

/-- What is reported as unresolved is an argument without a parameter to be given to. -/
theorem exists_node_of_mem_unresolved {r : Diagnostic}
    (hr : r ∈ (generate classes policy).unresolved) :
    ∃ u ∈ classes.nodes, ∃ i, i < u.args.length ∧ classes.parameter u i = .error r := by
  have inPosition {d : ClassDecl} {param : Text} {position : Variance} {rule : Rule} {t : TypeUse}
      (h : .unresolved r ∈ positionBounds classes policy.standIn d param position rule t) :
      ∃ u ∈ t.nodes, ∃ i, i < u.args.length ∧ classes.parameter u i = .error r := by
    obtain h | h := List.mem_cons.1 h
    · cases h
    · obtain ⟨u, hu, arises⟩ := arises_of_mem h
      cases arises with
      | unresolved given missing => exact ⟨u, hu, _, given, missing⟩
  obtain ⟨em, hem, found⟩ := List.mem_filterMap.1 hr
  cases em with
  | constraint => cases found
  | unresolved r' =>
    cases found
    have mem := onceFrom_subset _ _ hem
    simp only [classBounds, methodBounds, List.mem_flatMap, List.mem_append] at mem
    obtain ⟨d, hd, param, -, m, hm, h⟩ := mem
    obtain h | ⟨t, ht, h⟩ := h
    · obtain ⟨u, hu, missing⟩ := inPosition h
      exact ⟨u, mem_nodes_of_method hd hm (.head _) hu, missing⟩
    · obtain ⟨u, hu, missing⟩ := inPosition h
      exact ⟨u, mem_nodes_of_method hd hm (.tail _ ht) hu, missing⟩

/-! ## Bounds on class parameters -/

theorem mem_generate_constraints {c : Constraint} :
    c ∈ (generate classes policy).constraints ↔
      ∃ d ∈ classes.decls, .constraint c ∈ classBounds classes policy.standIn d := by
  simp only [Generation.constraints, generate, onceFrom_constraints, List.mem_filterMap,
    List.mem_flatMap]
  constructor
  · rintro ⟨em, ⟨d, hd, hem⟩, found⟩
    cases em with
    | constraint c' =>
      cases found
      exact ⟨d, hd, hem⟩
    | unresolved => cases found
  · rintro ⟨d, hd, hc⟩
    exact ⟨_, ⟨d, hd, hc⟩, rfl⟩

/-- For each position, one bound on the class parameter arises; all others are on
occurrences. -/
theorem mem_positionBounds {d : ClassDecl} {position : Variance} {rule : Rule} {t : TypeUse}
    {c : Constraint} (hl : c.left.isParam = true) :
    .constraint c ∈ positionBounds classes standIn d param position rule t ↔
      c = ⟨.param (d.ref param), .transform (.literal position) (.occurrence ⟨param, t⟩),
        some rule⟩ := by
  rw [positionBounds, List.mem_cons, Emission.constraint.injEq, or_iff_left_iff_imp]
  intro hc
  obtain ⟨u, -, arises⟩ := arises_of_mem hc
  cases arises with
  | bound left _ =>
    rw [left] at hl
    cases hl

/-- Class parameters are bounded by their occurrences in the types of the methods, and
by nothing else. -/
theorem forall_param_constraints {S : Constraint → Prop} :
    (∀ c ∈ (generate classes policy).constraints, c.left.isParam = true → S c) ↔
      ∀ d ∈ classes.decls, ∀ p ∈ d.params, ∀ m ∈ d.methods,
        S ⟨.param (d.ref p), .transform (.literal .covariant) (.occurrence ⟨p, m.returns⟩),
          some .returnPosition⟩ ∧
        ∀ t ∈ m.params, S ⟨.param (d.ref p),
          .transform (.literal .contravariant) (.occurrence ⟨p, t⟩), some .argumentPosition⟩ := by
  simp only [mem_generate_constraints, classBounds, methodBounds, List.mem_flatMap,
    List.mem_append]
  constructor
  · intro h d hd p hp m hm
    refine ⟨h _ ⟨d, hd, p, hp, m, hm, .inl ?_⟩ rfl,
      fun t ht => h _ ⟨d, hd, p, hp, m, hm, .inr ⟨t, ht, ?_⟩⟩ rfl⟩
    · exact (mem_positionBounds rfl).2 rfl
    · exact (mem_positionBounds rfl).2 rfl
  · rintro h c ⟨d, hd, p, hp, m, hm, hc | ⟨t, ht, hc⟩⟩ hl
    · rw [(mem_positionBounds hl).1 hc]
      exact (h d hd p hp m hm).1
    · rw [(mem_positionBounds hl).1 hc]
      exact (h d hd p hp m hm).2 t ht

end

end Polarity

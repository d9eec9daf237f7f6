import Polarity.Proofs.Exactness

/-!
# Normal forms

Reduction evaluates the algebra wherever an operand decides the result. What it
leaves cannot be evaluated any further, so reducing it again changes nothing,
whichever bounds are followed.

* `Expr.Normal`: no operation has an operand that decides it or disappears, and
  none has two known operands;
* `normal_reduce`: everything that reduction returns is normal, occurrences
  without bounds and absent expressions included;
* `reduceWith_of_normal`: a normal expression stands for itself;
* `simplify_idempotent`: so simplified constraints are left as they are.
-/

namespace Polarity

namespace Expr

/-- The variance of a literal. -/
def literal? : Expr → Option Variance
  | .literal v => some v
  | _ => none

/-- Operands that an operation has to keep: none of them is `*` or the variance
`unit` that changes nothing, and not both are known. -/
structure Stuck (unit : Variance) (l r : Expr) : Prop where
  left : ∀ v ∈ l.literal?, v ≠ unit ∧ v ≠ .bivariant
  right : ∀ v ∈ r.literal?, v ≠ unit ∧ v ≠ .bivariant
  unknown : l.literal? = none ∨ r.literal? = none

/-- No operation inside the expression can be evaluated. -/
def Normal : Expr → Prop
  | .transform l r => l.Normal ∧ r.Normal ∧ Stuck .covariant l r
  | .join l r => l.Normal ∧ r.Normal ∧ Stuck .invariant l r
  | .absent | .literal _ | .param _ | .occurrence _ => True

/-! ## One operation -/

theorem literal?_eq_some {e : Expr} {v : Variance} (h : e.literal? = some v) : e = .literal v := by
  cases e with
  | literal w =>
    cases h
    rfl
  | _ => cases h

theorem literal?_eq_none {e : Expr} (h : ∀ v, e ≠ .literal v) : e.literal? = none := by
  cases e with
  | literal w => exact absurd rfl (h w)
  | _ => rfl

/-- Operands are kept when none of the early evaluations applies to them. -/
theorem stuck_of_ne {unit : Variance} {l r : Expr}
    (both : ∀ a b, l = .literal a → r = .literal b → False)
    (hl : l ≠ .literal unit) (hr : r ≠ .literal unit)
    (hl' : l ≠ .literal .bivariant) (hr' : r ≠ .literal .bivariant) : Stuck unit l r := by
  refine ⟨fun v hv => ?_, fun v hv => ?_, ?_⟩
  · obtain rfl := literal?_eq_some hv
    exact ⟨fun h => hl (h ▸ rfl), fun h => hl' (h ▸ rfl)⟩
  · obtain rfl := literal?_eq_some hv
    exact ⟨fun h => hr (h ▸ rfl), fun h => hr' (h ▸ rfl)⟩
  · by_cases known : ∃ a, l = .literal a
    · obtain ⟨a, hla⟩ := known
      exact .inr (literal?_eq_none fun b hb => both a b hla hb)
    · exact .inl (literal?_eq_none fun a ha => known ⟨a, ha⟩)

/-- An operation that keeps stuck operands under `node`, and otherwise comes to one of
its operands or to a literal. -/
structure EvaluatedEarly (unit : Variance) (node op : Expr → Expr → Expr) : Prop where
  of_stuck : ∀ {l r}, Stuck unit l r → op l r = node l r
  of_not_stuck : ∀ {l r}, ¬ Stuck unit l r → op l r = l ∨ op l r = r ∨ ∃ v, op l r = .literal v

theorem Stuck.not_literals {unit a b : Variance} (h : Stuck unit (.literal a) (.literal b)) :
    False := by
  obtain h | h := h.unknown
  · cases h
  · cases h

theorem reducedTransform_evaluatedEarly :
    EvaluatedEarly .covariant .transform reducedTransform where
  of_stuck {l r} h := by
    fun_cases reducedTransform l r with
    | case1 a b => exact h.not_literals.elim
    | case2 r => exact absurd rfl (h.left _ rfl).1
    | case3 l => exact absurd rfl (h.right _ rfl).1
    | case4 r => exact absurd rfl (h.left _ rfl).2
    | case5 l => exact absurd rfl (h.right _ rfl).2
    | case6 l r => rfl
  of_not_stuck {l r} h := by
    fun_cases reducedTransform l r with
    | case1 a b => exact .inr (.inr ⟨_, rfl⟩)
    | case2 r => exact .inr (.inl rfl)
    | case3 l => exact .inl rfl
    | case4 r => exact .inr (.inr ⟨_, rfl⟩)
    | case5 l => exact .inr (.inr ⟨_, rfl⟩)
    | case6 l r both hl hr hl' hr' => exact absurd (stuck_of_ne both hl hr hl' hr') h

theorem reducedJoin_evaluatedEarly : EvaluatedEarly .invariant .join reducedJoin where
  of_stuck {l r} h := by
    fun_cases reducedJoin l r with
    | case1 a b => exact h.not_literals.elim
    | case2 r => exact absurd rfl (h.left _ rfl).2
    | case3 l => exact absurd rfl (h.right _ rfl).2
    | case4 r => exact absurd rfl (h.left _ rfl).1
    | case5 l => exact absurd rfl (h.right _ rfl).1
    | case6 l r => rfl
  of_not_stuck {l r} h := by
    fun_cases reducedJoin l r with
    | case1 a b => exact .inr (.inr ⟨_, rfl⟩)
    | case2 r => exact .inr (.inr ⟨_, rfl⟩)
    | case3 l => exact .inr (.inr ⟨_, rfl⟩)
    | case4 r => exact .inr (.inl rfl)
    | case5 l => exact .inl rfl
    | case6 l r both hl' hr' hl hr => exact absurd (stuck_of_ne both hl hr hl' hr') h

/-- Early evaluation of normal operands gives a normal expression. -/
theorem EvaluatedEarly.normal {unit : Variance} {node op : Expr → Expr → Expr}
    (h : EvaluatedEarly unit node op)
    (hn : ∀ l r, l.Normal → r.Normal → Stuck unit l r → (node l r).Normal) {l r : Expr}
    (hl : l.Normal) (hr : r.Normal) : (op l r).Normal := by
  by_cases stuck : Stuck unit l r
  · rw [h.of_stuck stuck]
    exact hn l r hl hr stuck
  · obtain eq | eq | ⟨v, eq⟩ := h.of_not_stuck stuck
    · rwa [eq]
    · rwa [eq]
    · rw [eq]
      trivial

theorem reducedTransform_normal {l r : Expr} (hl : l.Normal) (hr : r.Normal) :
    (reducedTransform l r).Normal :=
  reducedTransform_evaluatedEarly.normal (fun _ _ hl hr stuck => ⟨hl, hr, stuck⟩) hl hr

theorem reducedJoin_normal {l r : Expr} (hl : l.Normal) (hr : r.Normal) :
    (reducedJoin l r).Normal :=
  reducedJoin_evaluatedEarly.normal (fun _ _ hl hr stuck => ⟨hl, hr, stuck⟩) hl hr

end Expr

/-! ## Reduction -/

section
variable {bounds : Bounds} {depth : Nat} {f : Occurrence → List Expr}

theorem normal_reduceWith (hf : ∀ o, ∀ e ∈ f o, e.Normal) (e : Expr) :
    ∀ e' ∈ e.reduceWith f, e'.Normal := by
  induction e with
  | occurrence o => exact hf o
  | transform l r ihl ihr =>
    exact forall_combine (fun _ _ => Expr.reducedTransform_normal) ihl ihr
  | join l r ihl ihr => exact forall_combine (fun _ _ => Expr.reducedJoin_normal) ihl ihr
  | _ =>
    intro e' he'
    obtain rfl := List.mem_singleton.1 he'
    trivial

/-- However far bounds are followed, what an occurrence stands for is normal. -/
theorem normal_resolve (bounds : Bounds) (depth : Nat) (o : Occurrence) :
    ∀ e ∈ resolve bounds depth o, e.Normal := by
  refine resolve_induction (motive := fun _ es => ∀ e ∈ es, e.Normal) ?_ ?_ depth o
  · exact fun o => List.forall_mem_singleton.2 trivial
  · intro o f _ hf
    exact forall_gathered trivial (List.forall_mem_map.2 fun e _ => normal_reduceWith hf e)

theorem normal_reduce (bounds : Bounds) (depth : Nat) (e : Expr) :
    ∀ e' ∈ reduce bounds depth e, e'.Normal :=
  normal_reduceWith (normal_resolve bounds depth) e

theorem combine_singleton (op : Expr → Expr → Expr) (l r : Expr) :
    Expr.combine op [l] [r] = [op l r] := rfl

/-- A normal expression stands for itself when its occurrences do. -/
theorem reduceWith_of_normal {e : Expr} (h : e.Normal)
    (hf : ∀ o ∈ e.occurrences, f o = [.occurrence o]) : e.reduceWith f = [e] := by
  induction e with
  | occurrence o => exact hf o (.head _)
  | transform l r ihl ihr =>
    obtain ⟨hl, hr, stuck⟩ := h
    rw [Expr.reduceWith, ihl hl fun o ho => hf o (List.mem_append_left _ ho),
      ihr hr fun o ho => hf o (List.mem_append_right _ ho), combine_singleton,
      Expr.reducedTransform_evaluatedEarly.of_stuck stuck]
  | join l r ihl ihr =>
    obtain ⟨hl, hr, stuck⟩ := h
    rw [Expr.reduceWith, ihl hl fun o ho => hf o (List.mem_append_left _ ho),
      ihr hr fun o ho => hf o (List.mem_append_right _ ho), combine_singleton,
      Expr.reducedJoin_evaluatedEarly.of_stuck stuck]
  | _ => rfl

end

/-! ## Simplified constraints -/

/-- A bound on a class parameter of the form that simplification leaves. -/
structure Constraint.Simplified (c : Constraint) : Prop where
  left : c.left.isParam = true
  right : c.right.Normal
  informative : c.right.isTop = false
  rule : c.rule = none

section
variable {mode : Substitution} {constraints : List Constraint}

theorem simplified_of_mem (acyclic : Acyclic (boundsOf mode constraints)) :
    ∀ c ∈ simplify mode constraints, c.Simplified := by
  intro c' hc'
  obtain ⟨c, -, hl, e, he, top, rfl⟩ := (mem_simplify acyclic).1 hc'
  exact ⟨hl, normal_reduce _ _ c.right e he, top, rfl⟩

/-- Simplified constraints bound no occurrence. -/
theorem boundsOf_of_simplified (mode : Substitution) (h : ∀ c ∈ constraints, c.Simplified)
    (k : OccurrenceKey) : boundsOf mode constraints k = [] := by
  rw [List.eq_nil_iff_forall_not_mem]
  intro e he
  obtain ⟨c, hc, o, hl, -, -⟩ := mem_boundsOf_all.1 (boundsOf_subset mode constraints k he)
  have param := (h c hc).left
  rw [hl] at param
  cases param

/-- There is nothing to do about simplified constraints. -/
theorem simplify_of_simplified (mode : Substitution) (h : ∀ c ∈ constraints, c.Simplified) :
    simplify mode constraints = constraints := by
  have none := boundsOf_of_simplified mode h
  -- Nothing has bounds, so no occurrence depends on itself, and each stands for itself.
  have acyclic : Acyclic (boundsOf mode constraints) := by
    apply acyclic_of_lt (f := fun _ => 0)
    rintro k k' ⟨e, he, -⟩
    rw [none k] at he
    cases he
  have params : constraints.filter (·.left.isParam) = constraints :=
    List.filter_eq_self.2 fun c hc => (h c hc).left
  have itself : ∀ c ∈ constraints, Reduced.constraints
      ⟨c, reduce (boundsOf mode constraints) constraints.length c.right⟩ = [c] := by
    intro c hc
    have same : reduce (boundsOf mode constraints) constraints.length c.right = [c.right] :=
      reduceWith_of_normal (h c hc).right fun o _ => resolve_of_nil (none o.key) _
    have rule := (h c hc).rule
    obtain ⟨left, right, _⟩ := c
    subst rule
    simp only [Reduced.constraints, same, List.filter_singleton, (h _ hc).informative]
    rfl
  rw [simplify, reduceAll_eq acyclic, params, List.flatMap_map, List.flatMap_congr itself,
    List.flatMap_singleton']

/-- **Simplification is idempotent.** When no occurrence depends on itself, simplifying
simplified constraints once more returns them unchanged, under whatever names of modes, and
no rules are left on them. Occurrences without bounds and absent expressions stay as they
are. -/
theorem simplify_idempotent (name name' : Text) (constraints : List Constraint)
    (acyclic : Acyclic (boundsOf .all constraints)) :
    simplify (.ofName name') (simplify (.ofName name) constraints) =
      simplify (.ofName name) constraints ∧
    ∀ c ∈ simplify (.ofName name) constraints, c.rule = none := by
  have acyclic : Acyclic (boundsOf (.ofName name) constraints) :=
    acyclic.of_subset (boundsOf_subset _ constraints)
  have simplified := simplified_of_mem acyclic
  exact ⟨simplify_of_simplified _ simplified, fun c hc => (simplified c hc).rule⟩

end

/-- Two bounds on the parameter `T` of a class `Box<T>` by a type with two bounds of its own:
one is over an occurrence without bounds, and one is absent. -/
def openConstraints : List Constraint :=
  let inner : TypeUse := .mk "T" [] ⟨20, 21⟩
  let outer : TypeUse := .mk "Box" [(.upper, inner), (.bare, inner)] ⟨10, 30⟩
  let ref : Expr := .param ⟨"T", "Box", "Box<T>"⟩
  [⟨ref, .transform (.literal .contravariant) (.occurrence ⟨"T", outer⟩), some .argumentPosition⟩,
    ⟨.occurrence ⟨"T", outer⟩,
      .transform (.join (.literal .covariant) ref) (.occurrence ⟨"T", inner⟩),
      some .nestedArgument⟩,
    ⟨.occurrence ⟨"T", outer⟩, .absent, none⟩,
    ⟨ref, .join (.literal .invariant) (.occurrence ⟨"T", outer⟩), some .returnPosition⟩]

theorem openConstraints_acyclic : Acyclic (boundsOf .all openConstraints) :=
  acyclic_boundsOf (f := fun k => k.span.start) (by decide)

theorem simplify_idempotent_open : Acyclic (boundsOf .all openConstraints) ∧
    (simplify (.ofName "all") openConstraints).length = 4 ∧
    simplify (.ofName "first") (simplify (.ofName "all") openConstraints) =
      simplify (.ofName "all") openConstraints :=
  ⟨openConstraints_acyclic, by decide,
    (simplify_idempotent "all" "first" openConstraints openConstraints_acyclic).1⟩

end Polarity

import Polarity.Proofs.Substitution

/-!
# Simplification is exact

The reduced constraints say about class parameters what the original ones say,
occurrences included.

* `simplify_holds_iff`: an assignment satisfies the reduced constraints exactly
  when occurrences can be given values that respect their bounds and satisfy the
  constraints on class parameters;
* `firstBounds`: the constraints that count when only first bounds are followed;
* `reduce_pairwise`: nothing is emitted twice for one constraint;
* `simplification_exact`: all of it, for constraints whose occurrences are bounded
  without cycles.
-/

namespace Polarity

section
variable {mode : Substitution} {constraints : List Constraint} {ρ : Assignment}

/-! ## Reduced constraints and their originals -/

theorem mem_simplify (acyclic : Acyclic (boundsOf mode constraints)) {c' : Constraint} :
    c' ∈ simplify mode constraints ↔ ∃ c ∈ constraints, c.left.isParam = true ∧
      ∃ e ∈ reduce (boundsOf mode constraints) constraints.length c.right, e.isTop = false ∧
        c' = { left := c.left, right := e } := by
  simp only [simplify, reduceAll_eq acyclic, List.mem_flatMap, List.mem_map, List.mem_filter,
    Reduced.constraints]
  constructor
  · rintro ⟨_, ⟨c, ⟨hc, hl⟩, rfl⟩, e, ⟨he, top⟩, rfl⟩
    exact ⟨c, hc, hl, e, he, by simpa using top, rfl⟩
  · rintro ⟨c, hc, hl, e, he, top, rfl⟩
    exact ⟨_, ⟨c, ⟨hc, hl⟩, rfl⟩, e, ⟨he, by simpa using top⟩, rfl⟩

theorem value_of_isParam {e : Expr} (h : e.isParam = true) (θ θ' : OccurrenceKey → Variance) :
    e.value ρ θ = e.value ρ θ' := by
  obtain ⟨r, rfl⟩ := Expr.isParam_iff.1 h
  rfl

/-- The reduced constraints bound class parameters by the values that the bounds of
occurrences force. -/
theorem simplify_holds_iff_tightest (acyclic : Acyclic (boundsOf mode constraints))
    {θ : OccurrenceKey → Variance} :
    (∀ c ∈ simplify mode constraints, c.Holds ρ θ) ↔
      ∀ c ∈ constraints, c.left.isParam = true → c.left.value ρ θ ≤ c.right.value ρ
        (tightest (boundsOf mode constraints) constraints.length ρ θ) := by
  constructor
  · intro h c hc hl
    rw [← meetValue_reduce (exhausts_boundsOf acyclic), le_meetValue_iff]
    intro e he
    by_cases top : e.isTop = true
    · rw [value_of_isTop top]
      exact Variance.le_bivariant _
    · exact h _ ((mem_simplify acyclic).2 ⟨c, hc, hl, e, he, by simpa using top, rfl⟩)
  · intro h c' hc'
    obtain ⟨c, hc, hl, e, he, -, rfl⟩ := (mem_simplify acyclic).1 hc'
    have le := h c hc hl
    rw [← meetValue_reduce (exhausts_boundsOf acyclic), le_meetValue_iff] at le
    exact le e he

/-- The reduced constraints are free of occurrences when all of them are bounded. -/
theorem simplify_over {P : ParamKey → Prop} {Q : OccurrenceKey → Prop}
    (acyclic : Acyclic (boundsOf mode constraints))
    (closed : ClosedBounds (boundsOf mode constraints) P Q)
    (rights : ∀ c ∈ constraints, c.left.isParam = true → c.right.Over P Q) :
    ∀ c ∈ simplify mode constraints,
      c.left.isParam = true ∧ c.right.Over P (fun _ => False) := by
  intro c' hc'
  obtain ⟨c, hc, hl, e, he, -, rfl⟩ := (mem_simplify acyclic).1 hc'
  exact ⟨hl, over_reduce closed (exhausts_boundsOf acyclic) (rights c hc hl) e he⟩

/-- **Substitution loses nothing and adds nothing.** An assignment satisfies the
reduced constraints exactly when there are values for the occurrences that respect
their bounds and with which it satisfies the original ones. -/
theorem simplify_holds_iff {P : ParamKey → Prop} {Q : OccurrenceKey → Prop}
    (acyclic : Acyclic (boundsOf mode constraints))
    (closed : ClosedBounds (boundsOf mode constraints) P Q)
    (rights : ∀ c ∈ constraints, c.left.isParam = true → c.right.Over P Q)
    (θ₀ : OccurrenceKey → Variance) :
    (∀ c ∈ simplify mode constraints, c.Holds ρ θ₀) ↔
      ∃ θ, Respects (boundsOf mode constraints) ρ θ ∧
        ∀ c ∈ constraints, c.left.isParam = true → c.Holds ρ θ := by
  have hd := exhausts_boundsOf acyclic
  constructor
  · intro h
    refine ⟨_, tightest_respects hd (θ := θ₀), fun c hc hl => ?_⟩
    rw [Constraint.Holds, value_of_isParam hl _ θ₀]
    exact (simplify_holds_iff_tightest acyclic).1 h c hc hl
  · rintro ⟨θ, respects, holds⟩ c' hc'
    have reduced : c'.Holds ρ θ := by
      refine (simplify_holds_iff_tightest acyclic).2 (fun c hc hl => ?_) c' hc'
      exact (holds c hc hl).trans
        (Expr.value_mono le_rfl fun o _ => le_tightest hd respects (hd o.key))
    obtain ⟨hl, hr⟩ := simplify_over acyclic closed rights c' hc'
    rw [Constraint.Holds] at reduced ⊢
    rw [value_of_isParam hl θ₀ θ, Expr.value_congr (fun _ _ => rfl) (fun _ hk => hk.elim) hr]
    exact reduced

/-! ## First bounds -/

/-- The constraints without those on occurrences that are in `seen` or were bounded
before. -/
def firstBoundsFrom (seen : List OccurrenceKey) : List Constraint → List Constraint
  | [] => []
  | c :: rest =>
    match c.left with
    | .occurrence o =>
      if o.key ∈ seen then firstBoundsFrom seen rest
      else c :: firstBoundsFrom (o.key :: seen) rest
    | _ => c :: firstBoundsFrom seen rest

/-- The constraints with only the first one on each occurrence. -/
def firstBounds (constraints : List Constraint) : List Constraint := firstBoundsFrom [] constraints

theorem boundsOf_firstBoundsFrom (seen : List OccurrenceKey) (constraints : List Constraint)
    (k : OccurrenceKey) : boundsOf .all (firstBoundsFrom seen constraints) k =
      if k ∈ seen then [] else boundsOf .first constraints k := by
  induction constraints generalizing seen with
  | nil => simp [firstBoundsFrom, boundsOf]
  | cons c rest ih =>
    simp only [boundsOf] at ih ⊢
    cases hl : c.left with
    | occurrence o =>
      have bound : c.boundOf k = if o.key = k then some c.right else none := by
        simp only [Constraint.boundOf, hl]
      by_cases ho : o.key ∈ seen
      · simp only [firstBoundsFrom, hl, ho, ↓reduceIte, ih]
        by_cases hk : o.key = k
        · simp only [← hk, ho, ↓reduceIte]
        · simp only [List.filterMap_cons, bound, hk, ↓reduceIte]
      · simp only [firstBoundsFrom, hl, ho, ↓reduceIte, List.filterMap_cons, bound]
        by_cases hk : o.key = k
        · subst hk
          simp only [↓reduceIte, ih, ho, List.mem_cons_self, List.take_succ_cons, List.take_zero]
        · have hk' : k ≠ o.key := fun h => hk h.symm
          simp only [hk, ↓reduceIte, ih, List.mem_cons, hk', false_or]
    | _ => simp [firstBoundsFrom, hl, Constraint.boundOf, ih]

theorem boundsOf_firstBounds (constraints : List Constraint) :
    boundsOf .all (firstBounds constraints) = boundsOf .first constraints := by
  funext k
  rw [firstBounds, boundsOf_firstBoundsFrom, if_neg List.not_mem_nil]

theorem firstBoundsFrom_subset (seen : List OccurrenceKey) (constraints : List Constraint) :
    firstBoundsFrom seen constraints ⊆ constraints := by
  fun_induction firstBoundsFrom seen constraints with
  | case1 => exact List.Subset.refl _
  | case2 seen c rest o hl ho ih => exact List.subset_cons_of_subset _ ih
  | case3 seen c rest o hl ho ih => exact List.cons_subset_cons _ ih
  | case4 seen c rest hl ih => exact List.cons_subset_cons _ ih

theorem mem_firstBoundsFrom_of_isParam {c : Constraint} (hl : c.left.isParam = true)
    (seen : List OccurrenceKey) (hc : c ∈ constraints) :
    c ∈ firstBoundsFrom seen constraints := by
  fun_induction firstBoundsFrom seen constraints with
  | case1 => exact hc
  | case2 seen c' rest o hl' ho ih =>
    obtain rfl | hc := List.mem_cons.1 hc
    · rw [hl'] at hl
      cases hl
    · exact ih hc
  | case3 seen c' rest o hl' ho ih =>
    obtain rfl | hc := List.mem_cons.1 hc
    · exact .head _
    · exact .tail _ (ih hc)
  | case4 seen c' rest hl' ih =>
    obtain rfl | hc := List.mem_cons.1 hc
    · exact .head _
    · exact .tail _ (ih hc)

/-- The constraints that substitution looks at. -/
def Substitution.kept : Substitution → List Constraint → List Constraint
  | .all, constraints => constraints
  | .first, constraints => firstBounds constraints

theorem boundsOf_kept (mode : Substitution) (constraints : List Constraint) :
    boundsOf .all (mode.kept constraints) = boundsOf mode constraints := by
  cases mode with
  | all => rfl
  | first => exact boundsOf_firstBounds constraints

theorem kept_subset (mode : Substitution) (constraints : List Constraint) :
    mode.kept constraints ⊆ constraints := by
  cases mode with
  | all => exact List.Subset.refl _
  | first => exact firstBoundsFrom_subset [] constraints

theorem mem_kept_of_isParam (mode : Substitution) {c : Constraint} (hl : c.left.isParam = true)
    (hc : c ∈ constraints) : c ∈ mode.kept constraints := by
  cases mode with
  | all => exact hc
  | first => exact mem_firstBoundsFrom_of_isParam hl [] hc

/-- Every constraint bounds a class parameter or an occurrence. -/
def Bounding (constraints : List Constraint) : Prop :=
  ∀ c ∈ constraints, (∃ r, c.left = .param r) ∨ ∃ o, c.left = .occurrence o

/-- Constraints hold when the occurrences respect their bounds and the constraints
on class parameters hold. -/
theorem kept_holds_iff (bounding : Bounding constraints) {θ : OccurrenceKey → Variance} :
    (∀ c ∈ mode.kept constraints, c.Holds ρ θ) ↔
      Respects (boundsOf mode constraints) ρ θ ∧
        ∀ c ∈ constraints, c.left.isParam = true → c.Holds ρ θ := by
  constructor
  · intro h
    refine ⟨fun k e he => ?_, fun c hc hl => h c (mem_kept_of_isParam mode hl hc)⟩
    rw [← boundsOf_kept] at he
    obtain ⟨c, hc, o, hl, rfl, rfl⟩ := mem_boundsOf_all.1 he
    have holds := h c hc
    rwa [Constraint.Holds, hl] at holds
  · rintro ⟨respects, holds⟩ c hc
    obtain ⟨r, hl⟩ | ⟨o, hl⟩ := bounding c (kept_subset mode constraints hc)
    · exact holds c (kept_subset mode constraints hc) (Expr.isParam_iff.2 ⟨r, hl⟩)
    · have bound : c.right ∈ boundsOf mode constraints o.key := by
        rw [← boundsOf_kept]
        exact mem_boundsOf_all.2 ⟨c, hc, o, hl, rfl, rfl⟩
      rw [Constraint.Holds, hl]
      exact respects o.key c.right bound

/-! ## No repetitions -/

theorem same_comm (a b : Expr) : a.same b = b.same a := by
  fun_induction Expr.same a b with
  | case1 a b => exact BEq.comm
  | case2 a b => exact BEq.comm
  | case3 a b => exact BEq.comm
  | case4 a b c d ihl ihr => rw [Expr.same, ihl, ihr]
  | case5 a b c d ihl ihr => rw [Expr.same, ihl, ihr]
  | case6 a b h₁ h₂ h₃ h₄ h₅ =>
    fun_cases Expr.same b a with
    | case1 => exact absurd rfl (h₁ _ _ rfl)
    | case2 => exact absurd rfl (h₂ _ _ rfl)
    | case3 => exact absurd rfl (h₃ _ _ rfl)
    | case4 => exact absurd rfl (h₄ _ _ _ _ rfl)
    | case5 => exact absurd rfl (h₅ _ _ _ _ rfl)
    | case6 => rfl

theorem addNew_pairwise {es : List Expr} (h : es.Pairwise fun a b => a.same b = false) (e : Expr) :
    (Expr.addNew es e).Pairwise fun a b => a.same b = false := by
  unfold Expr.addNew
  split
  · exact h
  · rename_i new
    refine List.pairwise_append.2 ⟨h, List.pairwise_singleton _ _, ?_⟩
    intro a ha b hb
    obtain rfl := List.mem_singleton.1 hb
    have none := List.any_eq_false.1 (Bool.eq_false_iff.2 new) a ha
    exact Bool.eq_false_iff.2 none

theorem distinct_pairwise (es : List Expr) :
    (Expr.distinct es).Pairwise fun a b => a.same b = false := by
  have run (es acc : List Expr) (h : acc.Pairwise fun a b => a.same b = false) :
      (es.foldl Expr.addNew acc).Pairwise fun a b => a.same b = false := by
    induction es generalizing acc with
    | nil => exact h
    | cons e es ih => exact ih _ (addNew_pairwise h e)
  exact run es [] .nil

theorem gathered_pairwise (reductions : List (List Expr)) :
    (gathered reductions).Pairwise fun a b => a.same b = false := by
  have all := distinct_pairwise reductions.flatten
  unfold gathered Expr.withoutTop
  simp only
  split
  · split
    · exact List.pairwise_singleton _ _
    · exact all.sublist List.filter_sublist
  · exact all

/-- What an expression is reduced to holds nothing twice. -/
theorem reduce_pairwise (bounds : Bounds) (depth : Nat) (e : Expr) :
    (reduce bounds depth e).Pairwise fun a b => a.same b = false := by
  cases e with
  | transform l r => exact distinct_pairwise _
  | join l r => exact distinct_pairwise _
  | occurrence o =>
    by_cases h : bounds o.key = []
    · rw [reduce, Expr.reduceWith, resolve_of_nil h]
      exact List.pairwise_singleton _ _
    · cases depth with
      | zero => exact List.pairwise_singleton _ _
      | succ depth =>
        rw [reduce, Expr.reduceWith, resolve_succ h]
        exact gathered_pairwise _
  | _ => exact List.pairwise_singleton _ _

/-! ## All constraints together -/

/-- The occurrences that right sides mention, directly or through bounds. -/
def Reachable (constraints : List Constraint) (k : OccurrenceKey) : Prop :=
  ∃ c ∈ constraints, ∃ o ∈ c.right.occurrences,
    Relation.ReflTransGen (Mentions (boundsOf .all constraints)) o.key k

/-- A bound is a right side itself, so nothing more is reached through bounds. -/
theorem reachable_iff {k : OccurrenceKey} : Reachable constraints k ↔
    ∃ c ∈ constraints, ∃ o ∈ c.right.occurrences, o.key = k := by
  constructor
  · rintro ⟨c, hc, o, ho, path⟩
    cases path with
    | refl => exact ⟨c, hc, o, ho, rfl⟩
    | tail _ step =>
      obtain ⟨e, he, o', ho', rfl⟩ := step
      obtain ⟨c', hc', -, -, -, rfl⟩ := mem_boundsOf_all.1 he
      exact ⟨c', hc', o', ho', rfl⟩
  · rintro ⟨c, hc, o, ho, rfl⟩
    exact ⟨c, hc, o, ho, .refl⟩

theorem over_of_complete {Q : OccurrenceKey → Prop} {e : Expr} (complete : e.Complete)
    (h : ∀ o ∈ e.occurrences, Q o.key) : e.Over (fun _ => True) Q := by
  induction e with
  | absent => exact complete.elim
  | literal v => trivial
  | param r => trivial
  | occurrence o => exact h o (.head _)
  | transform l r ihl ihr =>
    exact ⟨ihl complete.1 fun o ho => h o (List.mem_append_left _ ho),
      ihr complete.2 fun o ho => h o (List.mem_append_right _ ho)⟩
  | join l r ihl ihr =>
    exact ⟨ihl complete.1 fun o ho => h o (List.mem_append_left _ ho),
      ihr complete.2 fun o ho => h o (List.mem_append_right _ ho)⟩

theorem right_over_reachable (complete : ∀ c ∈ constraints, c.right.Complete) {c : Constraint}
    (hc : c ∈ constraints) : c.right.Over (fun _ => True) (Reachable constraints) :=
  over_of_complete (complete c hc) fun o ho => ⟨c, hc, o, ho, .refl⟩

theorem closedBounds_reachable (complete : ∀ c ∈ constraints, c.right.Complete)
    (bounded : ∀ k, Reachable constraints k → boundsOf .all constraints k ≠ []) :
    ClosedBounds (boundsOf mode constraints) (fun _ => True) (Reachable constraints) := by
  intro k hk
  constructor
  · rw [boundsOf_eq_counted]
    exact mode.counted_ne_nil (bounded k hk)
  · intro e he
    obtain ⟨c, hc, o, -, -, rfl⟩ := mem_boundsOf_all.1 (boundsOf_subset mode constraints k he)
    exact right_over_reachable complete hc

/-- **Simplification is exact.** Take constraints on class parameters and
occurrences, in which nothing is left out, no occurrence depends on itself, and
every occurrence that is reached has a bound. An assignment satisfies the
simplified constraints exactly when occurrences can be given values with which it
satisfies the original ones: all of them under the name `all`, and under any other
name those that remain when only the first constraint on each occurrence counts.
What is emitted for one constraint has no repetitions. -/
theorem simplification_exact (name : Text) (constraints : List Constraint)
    (bounding : Bounding constraints) (complete : ∀ c ∈ constraints, c.right.Complete)
    (acyclic : Acyclic (boundsOf .all constraints))
    (bounded : ∀ k, Reachable constraints k → boundsOf .all constraints k ≠ []) :
    (∀ (ρ : Assignment) (θ₀ : OccurrenceKey → Variance),
      (∀ c ∈ simplify (.ofName name) constraints, c.Holds ρ θ₀) ↔
        ∃ θ, ∀ c ∈ (if name = "all" then constraints else firstBounds constraints),
          c.Holds ρ θ) ∧
    ∀ r ∈ reduceAll (.ofName name) constraints, r.constraints.Pairwise fun a b =>
      a.right.same b.right = false ∧ b.right.same a.right = false := by
  have acyclic : Acyclic (boundsOf (.ofName name) constraints) :=
    acyclic.of_subset (boundsOf_subset _ constraints)
  constructor
  · intro ρ θ₀
    have kept : (if name = "all" then constraints else firstBounds constraints) =
        (Substitution.ofName name).kept constraints := by
      unfold Substitution.ofName
      split <;> rfl
    simp only [kept, kept_holds_iff bounding]
    exact simplify_holds_iff acyclic (closedBounds_reachable complete bounded)
      (fun c hc _ => right_over_reachable complete hc) θ₀
  · intro r hr
    rw [reduceAll_eq acyclic] at hr
    obtain ⟨c, -, rfl⟩ := List.mem_map.1 hr
    refine List.pairwise_map.2 (List.Pairwise.imp ?_
      ((reduce_pairwise _ _ c.right).sublist List.filter_sublist))
    intro a b differ
    exact ⟨differ, same_comm a b ▸ differ⟩

end

/-- Bounds on the parameter `T` of a class `Pair<T, U>` with a method that takes a
`Pair<T, ? extends U>`. The type has two arguments, so its occurrence has two
bounds. -/
def pairConstraints : List Constraint :=
  let first : TypeUse := .mk "T" [] ⟨30, 31⟩
  let second : TypeUse := .mk "U" [] ⟨43, 44⟩
  let pair : TypeUse := .mk "Pair" [(.bare, first), (.upper, second)] ⟨25, 45⟩
  let ref (param : Text) : Expr := .param ⟨param, "Pair", "Pair<T, U>"⟩
  [⟨ref "T", .transform (.literal .contravariant) (.occurrence ⟨"T", pair⟩), none⟩,
    ⟨.occurrence ⟨"T", pair⟩,
      .transform (.join (.literal .invariant) (ref "T")) (.occurrence ⟨"T", first⟩), none⟩,
    ⟨.occurrence ⟨"T", first⟩, .literal .covariant, none⟩,
    ⟨.occurrence ⟨"T", pair⟩,
      .transform (.join (.literal .covariant) (ref "U")) (.occurrence ⟨"T", second⟩), none⟩,
    ⟨.occurrence ⟨"T", second⟩, .literal .bivariant, none⟩]

theorem pairConstraints_bounding : Bounding pairConstraints := by
  simp [Bounding, pairConstraints]

theorem pairConstraints_acyclic : Acyclic (boundsOf .all pairConstraints) :=
  acyclic_boundsOf (f := fun k => k.span.start) (by decide)

theorem pairConstraints_bounded (k : OccurrenceKey) (h : Reachable pairConstraints k) :
    boundsOf .all pairConstraints k ≠ [] := by
  have all : ∀ c ∈ pairConstraints, ∀ o ∈ c.right.occurrences,
      boundsOf .all pairConstraints o.key ≠ [] := by decide
  obtain ⟨c, hc, o, ho, rfl⟩ := reachable_iff.1 h
  exact all c hc o ho

theorem simplification_exact_pair :
    Bounding pairConstraints ∧ (∀ c ∈ pairConstraints, c.right.Complete) ∧
    Acyclic (boundsOf .all pairConstraints) ∧
    (∀ k, Reachable pairConstraints k → boundsOf .all pairConstraints k ≠ []) ∧
    ∀ (ρ : Assignment) (θ₀ : OccurrenceKey → Variance),
      (∀ c ∈ simplify (.ofName "all") pairConstraints, c.Holds ρ θ₀) ↔
        ∃ θ, ∀ c ∈ pairConstraints, c.Holds ρ θ :=
  ⟨pairConstraints_bounding, by decide, pairConstraints_acyclic, pairConstraints_bounded,
    (simplification_exact "all" pairConstraints pairConstraints_bounding (by decide)
      pairConstraints_acyclic pairConstraints_bounded).1⟩

end Polarity

import Polarity.Proofs.Fixpoint

/-!
# Two passes are enough

The bounded schedule makes as many sweeps a pass as there are constraints. In two
passes there are two sweeps for each constraint, and a constraint can narrow its
parameter twice; but the last sweep has to find nothing left to do.

* a bound without class parameters narrows only once (`reserve_step`);
* while every parameter is `*`, all other bounds are `*` as well
  (`value_top_of_not_constant`), so such a bound comes first, if anything happens;
* so there are fewer changes than sweeps (`allowance_lt`);
* `bounded_agrees_with_fixpoint`: with two passes or more the schedule ends where
  the fixpoint is, and with one it stays above it.
-/

namespace Polarity

/-- How many times a constraint can still narrow its parameter: once if its bound
mentions no parameter, and otherwise as long as the parameter can be narrowed. -/
def Constraint.reserve (ρ : Assignment) (c : Constraint) : Nat :=
  match c.left with
  | .param r =>
    if c.right.Grounded [] then
      if ρ r.key ≤ c.right.value ρ (fun _ => .bivariant) then 0 else 1
    else (ρ r.key).rank
  | _ => 0

/-- How many changes constraints can still make. -/
def allowance (constraints : List Constraint) (ρ : Assignment) : Nat :=
  (constraints.map (·.reserve ρ)).sum

section
variable {declared : List ParamKey} {constraints : List Constraint} {ρ ρ' : Assignment}

/-! ## Bounds without parameters -/

theorem value_of_constant {e : Expr} (h : e.Grounded []) (ρ ρ' : Assignment)
    (θ : OccurrenceKey → Variance) : e.value ρ θ = e.value ρ' θ :=
  Expr.value_congr (fun _ hk => by cases hk) (fun _ hk => hk.elim) h

/-- A bound that mentions a parameter says nothing while all parameters are `*`. -/
theorem value_top_of_not_constant {e : Expr} (h : e.Grounded declared) (hn : ¬ e.Grounded [])
    (θ : OccurrenceKey → Variance) : e.value .top θ = .bivariant := by
  induction e with
  | absent => exact h.elim
  | literal v => exact absurd trivial hn
  | param r => rfl
  | occurrence o => exact h.elim
  | transform l r ihl ihr =>
    by_cases hl : l.Grounded []
    · have hr : ¬ r.Grounded [] := fun hr => hn ⟨hl, hr⟩
      rw [Expr.value, ihr h.2 hr, Variance.transform_distributes.top]
    · rw [Expr.value, ihl h.1 hl, Variance.transform_distributes.top_left]
  | join l r ihl ihr =>
    by_cases hl : l.Grounded []
    · have hr : ¬ r.Grounded [] := fun hr => hn ⟨hl, hr⟩
      rw [Expr.value, ihr h.2 hr, Variance.join_distributes.top]
    · rw [Expr.value, ihl h.1 hl, Variance.join_distributes.top_left]

/-- If no effective bound is free of parameters, there is nothing to narrow. -/
theorem top_solves (h : ∀ c ∈ constraints, c.Effective declared → ¬ c.right.Grounded []) :
    Assignment.top.Solves declared constraints := by
  intro c hc he θ
  rw [Constraint.Holds, value_top_of_not_constant he.2 (h c hc he)]
  exact Variance.le_bivariant _

/-! ## Counting changes -/

theorem reserve_mono (c : Constraint) (h : ρ' ≤ ρ) : c.reserve ρ' ≤ c.reserve ρ := by
  unfold Constraint.reserve
  cases c.left with
  | param r =>
    by_cases hc : c.right.Grounded []
    · simp only [hc, ↓reduceIte, value_of_constant hc ρ' ρ]
      split
      · exact Nat.zero_le _
      · rename_i above
        have : ¬ ρ r.key ≤ c.right.value ρ fun _ => .bivariant := fun le => above ((h r.key).trans le)
        simp only [this, ↓reduceIte, le_refl]
    · simp only [hc, ↓reduceIte]
      exact Variance.rank_mono (h r.key)
  | _ => exact le_rfl

/-- A constraint that narrows its parameter draws on its reserve. -/
theorem reserve_step {c : Constraint} (changed : (c.verdict declared ρ).changes = true) :
    c.reserve ((c.verdict declared ρ).apply ρ) < c.reserve ρ := by
  obtain ⟨-, same, -⟩ | ⟨r, hl, -, -, hn, narrowed⟩ :=
    verdict_cases declared c ρ fun _ => .bivariant
  · rw [same] at changed
    cases changed
  · rw [narrowed]
    simp only [Constraint.reserve, hl, Verdict.apply, set_self]
    by_cases hc : c.right.Grounded []
    · simp only [hc, ↓reduceIte, hn, value_of_constant hc (ρ.set _ _) ρ, Variance.meet_le_right]
      exact Nat.one_pos
    · simp only [hc, ↓reduceIte]
      exact Variance.rank_meet_lt hn

theorem allowance_spent (declared : List ParamKey) (constraints : List Constraint) :
    Spent declared constraints (allowance constraints) where
  mono h := List.sum_le_sum fun c _ => reserve_mono c h
  step {ρ} c hc changed :=
    List.sum_lt_sum _ _ (fun c' _ => reserve_mono c' (apply_le c ρ)) ⟨c, hc, reserve_step changed⟩

theorem reserve_le_two (c : Constraint) (ρ : Assignment) : c.reserve ρ ≤ 2 := by
  unfold Constraint.reserve
  split
  · split
    · split <;> omega
    · exact Variance.rank_le_two _
  · omega

theorem reserve_of_constant {c : Constraint} (h : c.right.Grounded []) (ρ : Assignment) :
    c.reserve ρ < 2 := by
  unfold Constraint.reserve
  split
  · rw [if_pos h]
    split <;> omega
  · omega

theorem allowance_lt {c : Constraint} (hc : c ∈ constraints) (h : c.right.Grounded [])
    (ρ : Assignment) : allowance constraints ρ < 2 * constraints.length := by
  have lt : allowance constraints ρ < (constraints.map fun _ => 2).sum :=
    List.sum_lt_sum _ _ (fun c _ => reserve_le_two c ρ) ⟨c, hc, reserve_of_constant h ρ⟩
  simpa [Nat.mul_comm] using lt

/-! ## The schedule -/

/-- Two sweeps for each constraint are enough to come to rest. -/
theorem settle_converged_of_length (hc : constraints ≠ []) {limit : Nat}
    (hl : 2 * constraints.length ≤ limit) :
    (settle declared constraints limit .top).converged = true := by
  by_cases h : ∃ c ∈ constraints, c.Effective declared ∧ c.right.Grounded []
  · obtain ⟨c, hc, -, hr⟩ := h
    have lt := allowance_lt hc hr .top
    exact settle_converged (allowance_spent declared constraints) (by omega)
  · have solved : Assignment.top.Solves declared constraints :=
      top_solves fun c hc he hr => h ⟨c, hc, he, hr⟩
    have pos := List.length_pos_iff.2 hc
    obtain ⟨n, rfl⟩ : ∃ n, limit = n + 1 := ⟨limit - 1, by omega⟩
    simp only [settle, sweep_of_solves solved, Bool.false_eq_true, ↓reduceIte]

theorem two_le_passCount {passes : Int} (h : passes ≤ 0 ∨ 2 ≤ passes) : 2 ≤ passCount passes := by
  unfold passCount defaultPasses
  split <;> omega

theorem bounded_converged (classes : ClassTable) (constraints : List Constraint) {passes : Int}
    (h : passes ≤ 0 ∨ 2 ≤ passes) :
    (solve classes constraints .bounded passes).converged = true := by
  have times := Nat.mul_le_mul_right constraints.length (two_le_passCount h)
  by_cases hc : constraints = []
  · subst hc
    simp [solve, runSweeps]
  · obtain ⟨-, same⟩ := sweepTimes_eq_settle classes.keys constraints
      (passCount passes * constraints.length) .top
    simp only [solve, runSweeps, same, settle_converged_of_length hc times, Bool.true_or]

/-- **The bounded schedule agrees with the fixpoint.** It never goes below it,
and ends there when it has converged, which with two passes or more it always
has. No passes or fewer stand for two. -/
theorem bounded_agrees_with_fixpoint (classes : ClassTable) (constraints : List Constraint)
    (passes : Int) :
    let bounded := solve classes constraints .bounded passes
    let fixpoint := solve classes constraints .fixpoint passes
    List.Forall₂ (fun f b : SolutionEntry => f.param = b.param ∧ f.variance ≤ b.variance)
      fixpoint.entries bounded.entries ∧
    (bounded.converged = true → bounded.entries = fixpoint.entries) ∧
    (passes ≤ 0 ∨ 2 ≤ passes →
      bounded.converged = true ∧ bounded.entries = fixpoint.entries) := by
  intro bounded fixpoint
  have greatest := solve_isGreatest (fixpoint_converged classes constraints passes)
  have agrees (h : bounded.converged = true) : bounded.entries = fixpoint.entries := by
    have same : bounded.assignment = fixpoint.assignment := (solve_isGreatest h).unique greatest
    simp only [bounded, fixpoint, solve_entries] at same ⊢
    rw [same]
  refine ⟨?_, agrees, fun h => ?_⟩
  · have above : fixpoint.assignment ≤ bounded.assignment := le_solve greatest.1
    simp only [bounded, fixpoint, solve_entries] at above ⊢
    rw [List.forall₂_map_left_iff, List.forall₂_map_right_iff, List.forall₂_same]
    exact fun p _ => ⟨rfl, above p.key⟩
  · have converged := bounded_converged classes constraints h
    exact ⟨converged, agrees converged⟩

end

end Polarity

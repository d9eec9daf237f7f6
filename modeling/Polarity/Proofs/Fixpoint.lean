import Mathlib.Algebra.GroupWithZero.Nat
import Mathlib.Algebra.Order.BigOperators.Group.List
import Mathlib.Algebra.Order.Group.Nat
import Mathlib.Order.Bounds.Basic
import Polarity.Proofs.Sweeps

/-!
# The fixpoint is the greatest solution

* `Solution.assignment`: a solution read as an assignment;
* `solve_isGreatest`: whatever the strategy, a solution that has converged is the
  greatest assignment under which all effective constraints hold;
* `fixpoint_converged`: sweeping until nothing changes always converges, since
  every change uses up some of the `remaining` narrowings;
* `fixpoint_isGreatest_solution`: so the strategy `fixpoint` finds the greatest
  solution, and the order of constraints does not matter.
-/

namespace Polarity

/-- The variance a solution gives to a parameter, `*` if it is not declared. -/
def Solution.assignment (s : Solution) : Assignment := fun key => (s.lookup key).getD .bivariant

/-- The right sides of the effective constraints on the parameter `key`. -/
def boundsOn (declared : List ParamKey) (constraints : List Constraint) (key : ParamKey) :
    List Expr :=
  (constraints.filter fun c => c.Effective declared ∧ c.left.Names key).map (·.right)

/-- How many times the parameters of a program can still be narrowed. -/
def remaining (classes : ClassTable) (ρ : Assignment) : Nat :=
  (classes.params.map fun p => (ρ p.key).rank).sum

section
variable {classes : ClassTable} {constraints : List Constraint} {strategy : Strategy}
  {passes : Int}

/-! ## A solution as an assignment -/

/-- Both strategies are sweeps from `*` on until a limit, or until nothing changes. -/
theorem runSweeps_eq_settle (classes : ClassTable) (constraints : List Constraint)
    (strategy : Strategy) (passes : Int) : ∃ limit,
    (runSweeps classes constraints strategy passes).assignment =
      (settle classes.keys constraints limit .top).assignment ∧
    (runSweeps classes constraints strategy passes).converged =
      ((settle classes.keys constraints limit .top).converged ||
        strategy = .bounded && constraints.isEmpty) := by
  cases strategy with
  | fixpoint => exact ⟨_, rfl, by simp [runSweeps]⟩
  | bounded =>
    obtain ⟨same, rest⟩ := sweepTimes_eq_settle classes.keys constraints
      (passCount passes * constraints.length) .top
    refine ⟨passCount passes * constraints.length, same, ?_⟩
    simp [runSweeps, rest]

theorem lookup_of_mem {key : ParamKey} (h : key ∈ classes.keys) :
    (solve classes constraints strategy passes).lookup key =
      some ((runSweeps classes constraints strategy passes).assignment key) := by
  obtain ⟨p, hp, rfl⟩ := List.mem_map.1 h
  have found : (classes.params.find? fun q => q.key == p.key).isSome := by
    rw [List.find?_isSome]
    exact ⟨p, hp, by simp⟩
  obtain ⟨q, hq⟩ := Option.isSome_iff_exists.1 found
  have same : q.key = p.key := by simpa using List.find?_some hq
  simp only [Solution.lookup, solve, List.find?_map, Function.comp_def, hq, Option.map_some, same]

theorem lookup_of_notMem {key : ParamKey} (h : key ∉ classes.keys) :
    (solve classes constraints strategy passes).lookup key = none := by
  have none : (classes.params.find? fun q => q.key == key) = none := by
    rw [List.find?_eq_none]
    intro q hq eq
    exact h (List.mem_map.2 ⟨q, hq, by simpa using eq⟩)
  simp only [Solution.lookup, solve, List.find?_map, Function.comp_def, none, Option.map_none]

/-- A solution says what the sweeps arrived at. -/
theorem solve_assignment : (solve classes constraints strategy passes).assignment =
    (runSweeps classes constraints strategy passes).assignment := by
  funext key
  by_cases h : key ∈ classes.keys
  · simp only [Solution.assignment, lookup_of_mem h, Option.getD_some]
  · obtain ⟨limit, same, -⟩ := runSweeps_eq_settle classes constraints strategy passes
    rw [same, settle_undeclared h]
    simp only [Solution.assignment, lookup_of_notMem h, Option.getD_none, Assignment.top]

theorem solve_entries (classes : ClassTable) (constraints : List Constraint) (strategy : Strategy)
    (passes : Int) : (solve classes constraints strategy passes).entries =
      classes.params.map fun p =>
        ⟨p, (solve classes constraints strategy passes).assignment p.key⟩ := by
  rw [solve_assignment]
  rfl

/-! ## Greatest solutions -/

/-- However long the sweeps go on, they stay above every solution. -/
theorem le_solve {σ : Assignment} (hσ : σ.Solves classes.keys constraints) :
    σ ≤ (solve classes constraints strategy passes).assignment := by
  obtain ⟨limit, same, -⟩ := runSweeps_eq_settle classes constraints strategy passes
  rw [solve_assignment, same]
  exact le_settle hσ limit fun key => Variance.le_bivariant (σ key)

theorem solve_isGreatest (h : (solve classes constraints strategy passes).converged = true) :
    IsGreatest {σ : Assignment | σ.Solves classes.keys constraints}
      (solve classes constraints strategy passes).assignment := by
  refine ⟨?_, fun σ hσ => le_solve hσ⟩
  obtain ⟨limit, same, converged⟩ := runSweeps_eq_settle classes constraints strategy passes
  have h : (runSweeps classes constraints strategy passes).converged = true := h
  rw [converged, Bool.or_eq_true] at h
  rw [Set.mem_ofPred_eq, solve_assignment, same]
  obtain h | h := h
  · exact settle_solves h
  · have empty : constraints = [] := by
      rw [Bool.and_eq_true, List.isEmpty_iff] at h
      exact h.2
    subst empty
    exact fun c hc => by cases hc

/-- Under the greatest solution, each parameter is the meet of its bounds. -/
theorem eq_meetAll_of_isGreatest {declared : List ParamKey} {ρ : Assignment}
    (h : IsGreatest {σ : Assignment | σ.Solves declared constraints} ρ) {key : ParamKey}
    (hk : key ∈ declared) (θ : OccurrenceKey → Variance) :
    ρ key = Variance.meetAll ((boundsOn declared constraints key).map (·.value ρ θ)) := by
  let bound := Variance.meetAll ((boundsOn declared constraints key).map (·.value ρ θ))
  have bound_iff {a : Variance} : a ≤ bound ↔ ∀ c ∈ constraints, c.Effective declared →
      c.left.Names key → a ≤ c.right.value ρ θ := by
    simp only [bound, Variance.le_meetAll_iff, boundsOn, List.map_map, List.mem_map,
      List.mem_filter, decide_eq_true_eq]
    grind
  have below : ρ key ≤ bound := by
    refine bound_iff.2 fun c hc he hn => ?_
    have holds := h.1 c hc he θ
    obtain ⟨r, hl, -⟩ := he.exists_ref
    rw [hl] at hn
    have same : r.key = key := hn
    rw [Constraint.Holds, hl] at holds
    exact same ▸ holds
  -- raising the parameter to its bound keeps the constraints, and nothing is above `ρ`
  have above : ρ ≤ ρ.set key bound := by
    intro k
    by_cases hk : k = key
    · subst hk
      rwa [set_self]
    · rw [set_of_ne ρ hk]
  have solves : (ρ.set key bound).Solves declared constraints := by
    intro c hc he θ'
    obtain ⟨r, hl, -⟩ := he.exists_ref
    have grows : c.right.value ρ θ' ≤ c.right.value (ρ.set key bound) θ' :=
      Expr.value_mono above fun _ _ => le_rfl
    rw [Constraint.Holds, hl]
    refine le_trans ?_ grows
    by_cases hr : r.key = key
    · simp only [Expr.value, hr, set_self]
      rw [he.2.value_eq θ' θ]
      exact bound_iff.1 le_rfl c hc he (by rw [hl]; exact hr)
    · have holds := h.1 c hc he θ'
      rw [Constraint.Holds, hl] at holds
      simpa only [Expr.value, set_of_ne ρ hr] using holds
  have raised := h.2 solves key
  rw [set_self] at raised
  exact le_antisymm below raised

/-! ## The strategy `fixpoint` -/

theorem remaining_spent (classes : ClassTable) (constraints : List Constraint) :
    Spent classes.keys constraints (remaining classes) where
  mono h := List.sum_le_sum fun p _ => Variance.rank_mono (h p.key)
  step {ρ} c _ changed := by
    obtain ⟨-, same, -⟩ | ⟨r, -, hr, -, hn, narrowed⟩ :=
      verdict_cases classes.keys c ρ fun _ => .bivariant
    · rw [same] at changed
      cases changed
    · obtain ⟨p, hp, eq⟩ := List.mem_map.1 hr
      refine List.sum_lt_sum _ _ (fun q _ => Variance.rank_mono (apply_le c ρ q.key)) ⟨p, hp, ?_⟩
      rw [narrowed, eq]
      simp only [Verdict.apply, set_self]
      exact Variance.rank_meet_lt hn

theorem remaining_le (classes : ClassTable) (ρ : Assignment) :
    remaining classes ρ ≤ 2 * classes.params.length := by
  have le := List.sum_le_card_nsmul (classes.params.map fun p => (ρ p.key).rank) 2
    (by simp [Variance.rank_le_two])
  simpa [remaining, Nat.mul_comm] using le

theorem fixpoint_converged (classes : ClassTable) (constraints : List Constraint) (passes : Int) :
    (solve classes constraints .fixpoint passes).converged = true := by
  have le := remaining_le classes .top
  exact settle_converged (remaining_spent classes constraints) (by omega)

/-- Only the effective constraints decide which assignments are solutions. -/
theorem solves_congr {declared : List ParamKey} {constraints' : List Constraint} {σ : Assignment}
    (h : ∀ c : Constraint, c.Effective declared → (c ∈ constraints' ↔ c ∈ constraints)) :
    σ.Solves declared constraints' ↔ σ.Solves declared constraints := by
  constructor
  · intro hs c hc he
    exact hs c ((h c he).2 hc) he
  · intro hs c hc he
    exact hs c ((h c he).1 hc) he

/-- **The fixpoint is the greatest solution.** It satisfies the effective
constraints, lies above every assignment that does, and gives each parameter the
meet of its effective bounds. So it depends on the set of effective constraints
only: not on their order, nor on repetitions, nor on any other constraint. -/
theorem fixpoint_isGreatest_solution (classes : ClassTable) (constraints : List Constraint)
    (passes : Int) :
    let s := solve classes constraints .fixpoint passes
    Strategy.ofName? "fixpoint" = some .fixpoint ∧ Strategy.ofName? [] = some .fixpoint ∧
    s.entries = classes.params.map (fun p => ⟨p, s.assignment p.key⟩) ∧
    IsGreatest {σ : Assignment | σ.Solves classes.keys constraints} s.assignment ∧
    (∀ key ∈ classes.keys, ∀ θ, s.assignment key =
      Variance.meetAll ((boundsOn classes.keys constraints key).map (·.value s.assignment θ))) ∧
    ∀ constraints' passes',
      (∀ c : Constraint, c.Effective classes.keys → (c ∈ constraints' ↔ c ∈ constraints)) →
      (solve classes constraints' .fixpoint passes').entries = s.entries := by
  intro s
  have greatest := solve_isGreatest (fixpoint_converged classes constraints passes)
  refine ⟨by decide, by decide, solve_entries .., greatest,
    fun key hk θ => eq_meetAll_of_isGreatest greatest hk θ, ?_⟩
  intro constraints' passes' same
  have greatest' := solve_isGreatest (fixpoint_converged classes constraints' passes')
  have sets : {σ : Assignment | σ.Solves classes.keys constraints'} =
      {σ | σ.Solves classes.keys constraints} := Set.ext fun σ => solves_congr same
  rw [sets] at greatest'
  rw [solve_entries, solve_entries classes constraints, greatest'.unique greatest]

end

end Polarity

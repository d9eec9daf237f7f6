import Polarity.Proofs.Value

/-!
# What sweeps do

A sweep takes the constraints one by one, each seeing what the earlier ones did.

* `verdict_cases`: all that one constraint can do to an assignment;
* `sweep_preserves`, `settle_preserves`: what every constraint preserves, sweeps
  preserve;
* `settle_le`, `le_settle`: sweeps only narrow, and never below an assignment
  that solves the constraints;
* `settle_solves`: a sweep that changes nothing has found a solution;
* `settle_converged`: sweeps come to rest when every change costs some measure;
* `sweepTimes_eq_settle`: sweeping on after that changes nothing any more.
-/

namespace Polarity

/-- The effective constraints hold, whatever occurrences are taken for. -/
def Assignment.Solves (declared : List ParamKey) (constraints : List Constraint)
    (ρ : Assignment) : Prop :=
  ∀ c ∈ constraints, c.Effective declared → ∀ θ, c.Holds ρ θ

section
variable {declared : List ParamKey} {constraints : List Constraint} {ρ σ : Assignment}

theorem set_self (ρ : Assignment) (key : ParamKey) (v : Variance) : ρ.set key v key = v := by
  simp [Assignment.set]

theorem set_of_ne (ρ : Assignment) {key k : ParamKey} (h : k ≠ key) (v : Variance) :
    ρ.set key v k = ρ k := by
  simp [Assignment.set, h]

/-- Lowering one parameter lowers the assignment. -/
theorem set_le {key : ParamKey} {v : Variance} (h : v ≤ ρ key) : ρ.set key v ≤ ρ := by
  intro k
  by_cases hk : k = key
  · subst hk
    rw [set_self]
    exact h
  · rw [set_of_ne ρ hk]

/-! ## One constraint -/

/-- A constraint that holds, or that says nothing about declared parameters, does
nothing; any other one narrows its parameter to the meet with its bound. -/
theorem verdict_cases (declared : List ParamKey) (c : Constraint) (ρ : Assignment)
    (θ : OccurrenceKey → Variance) :
    ((c.Effective declared → c.Holds ρ θ) ∧ (c.verdict declared ρ).changes = false ∧
      (c.verdict declared ρ).apply ρ = ρ) ∨
    ∃ r : ParamRef, c.left = .param r ∧ r.key ∈ declared ∧ c.right.Grounded declared ∧
      ¬ ρ r.key ≤ c.right.value ρ θ ∧
      c.verdict declared ρ = .narrowed r (ρ r.key) ((ρ r.key).meet (c.right.value ρ θ)) := by
  by_cases he : c.Effective declared
  · obtain ⟨r, hl, hr⟩ := he.exists_ref
    have hv := Expr.eval_of_grounded (ρ := ρ) he.2 θ
    by_cases hh : ρ r.key ≤ c.right.value ρ θ
    · have hm := Variance.meet_eq_left_iff.2 hh
      have kept : c.verdict declared ρ = .kept := by
        simp only [Constraint.verdict, hl, hv, hr, hm, ↓reduceIte]
      refine .inl ⟨fun _ => ?_, by rw [kept]; rfl, by rw [kept]; rfl⟩
      rw [Constraint.Holds, hl]
      exact hh
    · have hm : (ρ r.key).meet (c.right.value ρ θ) ≠ ρ r.key :=
        fun h => hh (Variance.meet_eq_left_iff.1 h)
      refine .inr ⟨r, hl, hr, he.2, hh, ?_⟩
      simp only [Constraint.verdict, hl, hv, hr, hm, ↓reduceIte]
  · refine .inl ⟨fun h => absurd h he, ?_⟩
    unfold Constraint.verdict
    cases hl : c.left with
    | param r =>
      by_cases hg : c.right.Grounded declared
      · have hr : r.key ∉ declared := fun hr => he ⟨⟨r.key, hr, by rw [hl]; rfl⟩, hg⟩
        simp only [Expr.eval_of_grounded hg θ, hr, ↓reduceIte]
        exact ⟨rfl, rfl⟩
      · simp only [Expr.eval_of_not_grounded hg]
        exact ⟨rfl, rfl⟩
    | _ => exact ⟨rfl, rfl⟩

theorem apply_le (c : Constraint) (ρ : Assignment) : (c.verdict declared ρ).apply ρ ≤ ρ := by
  obtain ⟨-, -, same⟩ | ⟨r, -, -, -, -, narrowed⟩ := verdict_cases declared c ρ fun _ => .bivariant
  · exact same.le
  · rw [narrowed]
    exact set_le (Variance.meet_le_left _ _)

/-- No constraint narrows below an assignment under which it holds. -/
theorem le_apply {c : Constraint} (h : σ ≤ ρ) (hσ : c.Effective declared → ∀ θ, c.Holds σ θ) :
    σ ≤ (c.verdict declared ρ).apply ρ := by
  let θ : OccurrenceKey → Variance := fun _ => .bivariant
  obtain ⟨-, -, same⟩ | ⟨r, hl, hr, hg, -, narrowed⟩ := verdict_cases declared c ρ θ
  · rw [same]
    exact h
  · rw [narrowed]
    intro k
    by_cases hk : k = r.key
    · subst hk
      have holds : σ r.key ≤ c.right.value σ θ := by
        have := hσ ⟨⟨r.key, hr, by rw [hl]; rfl⟩, hg⟩ θ
        rwa [Constraint.Holds, hl] at this
      have grows : c.right.value σ θ ≤ c.right.value ρ θ := Expr.value_mono h fun _ _ => le_rfl
      simp only [Verdict.apply, set_self]
      exact Variance.le_meet_iff.2 ⟨h r.key, holds.trans grows⟩
    · simp only [Verdict.apply, set_of_ne ρ hk]
      exact h k

/-! ## Sweeps -/

theorem sweep_preserves {P : Assignment → Prop}
    (step : ∀ ρ, ∀ c ∈ constraints, P ρ → P ((c.verdict declared ρ).apply ρ)) (h : P ρ) :
    P (sweep declared ρ constraints).1 := by
  induction constraints generalizing ρ with
  | nil => exact h
  | cons c rest ih =>
    have first := step ρ c (.head _) h
    exact ih (fun ρ c hc => step ρ c (.tail _ hc)) first

theorem settle_preserves {P : Assignment → Prop}
    (step : ∀ ρ, ∀ c ∈ constraints, P ρ → P ((c.verdict declared ρ).apply ρ)) (limit : Nat)
    (h : P ρ) : P (settle declared constraints limit ρ).assignment := by
  induction limit generalizing ρ with
  | zero => exact h
  | succ limit ih =>
    have swept := sweep_preserves step h
    simp only [settle]
    split
    · exact ih swept
    · exact swept

theorem sweep_le (constraints : List Constraint) (ρ : Assignment) :
    (sweep declared ρ constraints).1 ≤ ρ :=
  sweep_preserves (P := (· ≤ ρ)) (fun ρ' c _ h => (apply_le c ρ').trans h) le_rfl

theorem le_settle (hσ : σ.Solves declared constraints) (limit : Nat) (h : σ ≤ ρ) :
    σ ≤ (settle declared constraints limit ρ).assignment :=
  settle_preserves (P := (σ ≤ ·)) (fun _ c hc h => le_apply h (hσ c hc)) limit h

/-- Parameters that are not declared keep their variance. -/
theorem settle_undeclared {k : ParamKey} (hk : k ∉ declared) (limit : Nat) (ρ : Assignment) :
    (settle declared constraints limit ρ).assignment k = ρ k := by
  refine settle_preserves (P := fun ρ' => ρ' k = ρ k) (fun ρ' c _ h => ?_) limit rfl
  obtain ⟨-, -, same⟩ | ⟨r, -, hr, -, -, narrowed⟩ :=
    verdict_cases declared c ρ' fun _ => .bivariant
  · rw [same]
    exact h
  · have ne : k ≠ r.key := fun eq => hk (eq ▸ hr)
    rw [narrowed]
    simp only [Verdict.apply, set_of_ne ρ' ne]
    exact h

theorem sweep_cons_snd (c : Constraint) (rest : List Constraint) (ρ : Assignment) :
    anyChange (sweep declared ρ (c :: rest)).2 = ((c.verdict declared ρ).changes ||
      anyChange (sweep declared ((c.verdict declared ρ).apply ρ) rest).2) := rfl

/-- A sweep that changes nothing leaves a solution as it is. -/
theorem sweep_idle (h : anyChange (sweep declared ρ constraints).2 = false) :
    (sweep declared ρ constraints).1 = ρ ∧ ρ.Solves declared constraints := by
  induction constraints generalizing ρ with
  | nil => exact ⟨rfl, fun c hc => by cases hc⟩
  | cons c rest ih =>
    rw [sweep_cons_snd, Bool.or_eq_false_iff] at h
    have holds (θ : OccurrenceKey → Variance) :
        (c.verdict declared ρ).apply ρ = ρ ∧ (c.Effective declared → c.Holds ρ θ) := by
      obtain ⟨hh, -, same⟩ | ⟨r, -, -, -, -, narrowed⟩ := verdict_cases declared c ρ θ
      · exact ⟨same, hh⟩
      · rw [narrowed] at h
        cases h.1
    have same := (holds fun _ => .bivariant).1
    rw [same] at h
    obtain ⟨rest_same, rest_solved⟩ := ih h.2
    constructor
    · change (sweep declared ((c.verdict declared ρ).apply ρ) rest).1 = ρ
      rw [same, rest_same]
    · intro c' hc' he θ
      obtain rfl | hc' := List.mem_cons.1 hc'
      · exact (holds θ).2 he
      · exact rest_solved c' hc' he θ

/-- A sweep changes nothing about a solution. -/
theorem sweep_of_solves (h : ρ.Solves declared constraints) :
    anyChange (sweep declared ρ constraints).2 = false := by
  induction constraints with
  | nil => rfl
  | cons c rest ih =>
    obtain ⟨-, quiet, same⟩ | ⟨r, hl, hr, hg, hn, -⟩ :=
      verdict_cases declared c ρ fun _ => .bivariant
    · rw [sweep_cons_snd, quiet, same, Bool.false_or]
      exact ih fun c' hc' => h c' (.tail _ hc')
    · have holds := h c (.head _) ⟨⟨r.key, hr, by rw [hl]; rfl⟩, hg⟩ fun _ => .bivariant
      rw [Constraint.Holds, hl] at holds
      exact absurd holds hn

theorem settle_solves {limit : Nat}
    (h : (settle declared constraints limit ρ).converged = true) :
    (settle declared constraints limit ρ).assignment.Solves declared constraints := by
  induction limit generalizing ρ with
  | zero => cases h
  | succ limit ih =>
    simp only [settle] at h ⊢
    split
    · rename_i changed
      rw [if_pos changed] at h
      exact ih h
    · rename_i idle
      obtain ⟨same, solved⟩ := sweep_idle (Bool.eq_false_iff.2 idle)
      rw [same]
      exact solved

/-! ## Coming to rest -/

/-- A measure of assignments that never grows when they are narrowed, and gets
smaller with every change that a constraint makes. -/
structure Spent (declared : List ParamKey) (constraints : List Constraint)
    (μ : Assignment → Nat) : Prop where
  mono : ∀ {ρ ρ' : Assignment}, ρ' ≤ ρ → μ ρ' ≤ μ ρ
  step : ∀ {ρ : Assignment}, ∀ c ∈ constraints, (c.verdict declared ρ).changes = true →
    μ ((c.verdict declared ρ).apply ρ) < μ ρ

theorem Spent.tail {c : Constraint} {rest : List Constraint} {μ : Assignment → Nat}
    (h : Spent declared (c :: rest) μ) : Spent declared rest μ :=
  ⟨h.mono, fun c hc => h.step c (.tail _ hc)⟩

theorem sweep_spends {μ : Assignment → Nat} (hμ : Spent declared constraints μ)
    (h : anyChange (sweep declared ρ constraints).2 = true) :
    μ (sweep declared ρ constraints).1 < μ ρ := by
  induction constraints generalizing ρ with
  | nil => cases h
  | cons c rest ih =>
    rw [sweep_cons_snd, Bool.or_eq_true] at h
    obtain now | later := h
    · exact Nat.lt_of_le_of_lt (hμ.mono (sweep_le rest _)) (hμ.step c (.head _) now)
    · exact Nat.lt_of_lt_of_le (ih hμ.tail later) (hμ.mono (apply_le c ρ))

theorem settle_converged {μ : Assignment → Nat} (hμ : Spent declared constraints μ) {limit : Nat}
    (h : μ ρ < limit) : (settle declared constraints limit ρ).converged = true := by
  induction limit generalizing ρ with
  | zero => omega
  | succ limit ih =>
    simp only [settle]
    split
    · rename_i changed
      have less := sweep_spends hμ changed
      exact ih (by omega)
    · rfl

theorem sweepTimes_eq_settle (declared : List ParamKey) (constraints : List Constraint)
    (times : Nat) (ρ : Assignment) :
    (sweepTimes declared constraints times ρ).assignment =
      (settle declared constraints times ρ).assignment ∧
    (sweepTimes declared constraints times ρ).converged =
      (settle declared constraints times ρ).converged := by
  induction times generalizing ρ with
  | zero => exact ⟨rfl, rfl⟩
  | succ times ih =>
    simp only [sweepTimes, settle]
    split
    · exact ih _
    · exact ⟨rfl, rfl⟩

end

end Polarity

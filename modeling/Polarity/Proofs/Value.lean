import Polarity.Solution
import Polarity.Proofs.Lattice

/-!
# What expressions mean

An expression has a value once every class parameter and every occurrence has
one. Nothing here depends on how constraints are reduced or solved.

* `Expr.value`: the value of an expression;
* `Expr.Over`: an expression over some parameters and some occurrences;
* `Constraint.Holds`: the left side is below the right side;
* `Constraint.Effective`: a declared parameter is bounded by an expression over
  declared parameters;
* `value_mono`: a value grows with the values it depends on;
* `eval_of_grounded`, `eval_of_not_grounded`: the solver computes this value for
  expressions over declared parameters, and none for others.
-/

namespace Polarity

namespace Expr

/-- The value of an expression under variances for class parameters and for
occurrences. What is left out says nothing. -/
def value (ρ : Assignment) (θ : OccurrenceKey → Variance) : Expr → Variance
  | .absent => .bivariant
  | .literal v => v
  | .param r => ρ r.key
  | .occurrence o => θ o.key
  | .transform l r => (l.value ρ θ).transform (r.value ρ θ)
  | .join l r => (l.value ρ θ).join (r.value ρ θ)

/-- An expression in which nothing is left out, all parameters satisfy `P` and all
occurrences satisfy `Q`. -/
def Over (P : ParamKey → Prop) (Q : OccurrenceKey → Prop) : Expr → Prop
  | .absent => False
  | .literal _ => True
  | .param r => P r.key
  | .occurrence o => Q o.key
  | .transform l r | .join l r => l.Over P Q ∧ r.Over P Q

/-- An expression in which nothing is left out. -/
def Complete (e : Expr) : Prop := e.Over (fun _ => True) (fun _ => True)

/-- An expression over variances and declared class parameters only. -/
def Grounded (declared : List ParamKey) (e : Expr) : Prop := e.Over (· ∈ declared) (fun _ => False)

instance decidableOver (P : ParamKey → Prop) (Q : OccurrenceKey → Prop) [DecidablePred P]
    [DecidablePred Q] : (e : Expr) → Decidable (e.Over P Q)
  | .absent => isFalse id
  | .literal _ => isTrue trivial
  | .param r => inferInstanceAs (Decidable (P r.key))
  | .occurrence o => inferInstanceAs (Decidable (Q o.key))
  | .transform l r | .join l r =>
    @instDecidableAnd _ _ (decidableOver P Q l) (decidableOver P Q r)

instance (e : Expr) : Decidable e.Complete := decidableOver _ _ e

instance (declared : List ParamKey) (e : Expr) : Decidable (e.Grounded declared) :=
  decidableOver _ _ e

/-- Whether an expression is the parameter `key`. -/
def Names (key : ParamKey) : Expr → Prop
  | .param r => r.key = key
  | _ => False

instance (key : ParamKey) : (e : Expr) → Decidable (e.Names key)
  | .param r => inferInstanceAs (Decidable (r.key = key))
  | .absent | .literal _ | .occurrence _ | .transform _ _ | .join _ _ => isFalse id

variable {ρ ρ' : Assignment} {θ θ' : OccurrenceKey → Variance}

theorem value_mono (hρ : ρ ≤ ρ') {e : Expr} (hθ : ∀ o ∈ e.occurrences, θ o.key ≤ θ' o.key) :
    e.value ρ θ ≤ e.value ρ' θ' := by
  induction e with
  | absent => exact le_rfl
  | literal v => exact le_rfl
  | param r => exact hρ r.key
  | occurrence o => exact hθ o (.head _)
  | transform l r ihl ihr =>
    have hl := ihl fun o ho => hθ o (List.mem_append_left _ ho)
    have hr := ihr fun o ho => hθ o (List.mem_append_right _ ho)
    exact Variance.transform_distributes.mono hl hr
  | join l r ihl ihr =>
    have hl := ihl fun o ho => hθ o (List.mem_append_left _ ho)
    have hr := ihr fun o ho => hθ o (List.mem_append_right _ ho)
    exact Variance.join_distributes.mono hl hr

theorem Over.imp {P P' : ParamKey → Prop} {Q Q' : OccurrenceKey → Prop} (hP : ∀ k, P k → P' k)
    (hQ : ∀ k, Q k → Q' k) : ∀ {e : Expr}, e.Over P Q → e.Over P' Q'
  | .literal _, _ => trivial
  | .param r, h => hP r.key h
  | .occurrence o, h => hQ o.key h
  | .transform _ _, h => ⟨h.1.imp hP hQ, h.2.imp hP hQ⟩
  | .join _ _, h => ⟨h.1.imp hP hQ, h.2.imp hP hQ⟩

/-- A value depends on no more than the parameters and occurrences of the
expression. -/
theorem value_congr {P : ParamKey → Prop} {Q : OccurrenceKey → Prop}
    (hρ : ∀ k, P k → ρ k = ρ' k) (hθ : ∀ k, Q k → θ k = θ' k) {e : Expr} (h : e.Over P Q) :
    e.value ρ θ = e.value ρ' θ' := by
  induction e with
  | absent => rfl
  | literal v => rfl
  | param r => exact hρ r.key h
  | occurrence o => exact hθ o.key h
  | transform l r ihl ihr => simp only [value, ihl h.1, ihr h.2]
  | join l r ihl ihr => simp only [value, ihl h.1, ihr h.2]

/-- The value of a grounded expression does not depend on occurrences. -/
theorem Grounded.value_eq {declared : List ParamKey} {e : Expr} (h : e.Grounded declared)
    (θ θ' : OccurrenceKey → Variance) : e.value ρ θ = e.value ρ θ' :=
  value_congr (fun _ _ => rfl) (fun _ hk => hk.elim) h

/-- Expressions that are the same have the same value. -/
theorem value_eq_of_same (a b : Expr) (h : a.same b = true) : a.value ρ θ = b.value ρ θ := by
  fun_induction same a b with
  | case1 a b => simpa [value] using h
  | case2 a b => simp only [value, eq_of_beq h]
  | case3 a b => simp only [value, eq_of_beq h]
  | case4 a b c d ihl ihr =>
    rw [Bool.and_eq_true] at h
    simp only [value, ihl h.1, ihr h.2]
  | case5 a b c d ihl ihr =>
    rw [Bool.and_eq_true] at h
    simp only [value, ihl h.1, ihr h.2]
  | case6 => cases h

/-- The solver computes the value of every grounded expression. -/
theorem eval_of_grounded {declared : List ParamKey} {e : Expr} (h : e.Grounded declared)
    (θ : OccurrenceKey → Variance) : e.eval declared ρ = some (e.value ρ θ) := by
  induction e with
  | absent => exact h.elim
  | literal v => rfl
  | param r =>
    have hr : r.key ∈ declared := h
    simp only [eval, hr, ↓reduceIte, value]
  | occurrence o => exact h.elim
  | transform l r ihl ihr => simp only [eval, ihl h.1, ihr h.2, value]
  | join l r ihl ihr => simp only [eval, ihl h.1, ihr h.2, value]

/-- The solver finds no value for any other expression. -/
theorem eval_of_not_grounded {declared : List ParamKey} {e : Expr} (h : ¬ e.Grounded declared) :
    e.eval declared ρ = none := by
  induction e with
  | absent => rfl
  | literal v => exact absurd trivial h
  | param r =>
    have hr : r.key ∉ declared := h
    simp only [eval, hr, ↓reduceIte]
  | occurrence o => rfl
  | transform l r ihl ihr | join l r ihl ihr =>
    by_cases hl : l.Grounded declared
    · have hr : ¬ r.Grounded declared := fun hr => h ⟨hl, hr⟩
      simp only [eval, eval_of_grounded hl fun _ => .bivariant, ihr hr]
    · simp only [eval, ihl hl]

end Expr

namespace Constraint

/-- The left side is below the right side. -/
def Holds (ρ : Assignment) (θ : OccurrenceKey → Variance) (c : Constraint) : Prop :=
  c.left.value ρ θ ≤ c.right.value ρ θ

/-- A declared class parameter is bounded by an expression over declared ones. -/
def Effective (declared : List ParamKey) (c : Constraint) : Prop :=
  (∃ key ∈ declared, c.left.Names key) ∧ c.right.Grounded declared

instance (declared : List ParamKey) (c : Constraint) : Decidable (c.Effective declared) :=
  inferInstanceAs (Decidable ((∃ key ∈ declared, c.left.Names key) ∧ _))

/-- An effective constraint is a bound on a declared parameter. -/
theorem Effective.exists_ref {declared : List ParamKey} {c : Constraint}
    (h : c.Effective declared) : ∃ r : ParamRef, c.left = .param r ∧ r.key ∈ declared := by
  obtain ⟨⟨key, hk, hn⟩, -⟩ := h
  cases hl : c.left with
  | param r =>
    rw [hl] at hn
    have eq : r.key = key := hn
    exact ⟨r, rfl, eq ▸ hk⟩
  | _ => rw [hl] at hn; exact hn.elim

end Constraint

end Polarity

import Mathlib.Order.Basic
import Polarity.Variance

/-!
# The lattice of variances

* `Variance` is partially ordered, and `meet` is the greatest lower bound;
* `meetAll`: the meet of a list, `*` when it is empty;
* `Distributes`: an operation that is pushed through meets in both operands.
  `transform_distributes` and `join_distributes` say that both operations of
  the algebra are of this kind, which is what makes it exact to bound an
  occurrence by several bounds at once;
* `rank`: how many times a variance can still be narrowed.
-/

namespace Polarity.Variance

instance : PartialOrder Variance where
  le_refl a := by cases a <;> decide
  le_trans a b c := by cases a <;> cases b <;> cases c <;> decide
  le_antisymm a b := by cases a <;> cases b <;> decide

theorem le_bivariant (a : Variance) : a ≤ .bivariant := by cases a <;> decide

theorem le_meet_iff {a b c : Variance} : a ≤ b.meet c ↔ a ≤ b ∧ a ≤ c := by
  cases a <;> cases b <;> cases c <;> decide

theorem meet_le_left (a b : Variance) : a.meet b ≤ a := (le_meet_iff.1 le_rfl).1

theorem meet_le_right (a b : Variance) : a.meet b ≤ b := (le_meet_iff.1 le_rfl).2

theorem meet_eq_left_iff {a b : Variance} : a.meet b = a ↔ a ≤ b := by
  constructor
  · intro h
    exact h ▸ meet_le_right a b
  · intro h
    exact le_antisymm (meet_le_left a b) (le_meet_iff.2 ⟨le_rfl, h⟩)

/-! ## Meets of lists -/

/-- The meet of some variances, `*` when there are none. -/
def meetAll (vs : List Variance) : Variance := vs.foldr meet .bivariant

@[simp] theorem meetAll_nil : meetAll [] = .bivariant := rfl

@[simp] theorem meetAll_cons (v : Variance) (vs : List Variance) :
    meetAll (v :: vs) = v.meet (meetAll vs) := rfl

theorem le_meetAll_iff {a : Variance} {vs : List Variance} :
    a ≤ meetAll vs ↔ ∀ v ∈ vs, a ≤ v := by
  induction vs with
  | nil => simp [le_bivariant]
  | cons v vs ih => simp [le_meet_iff, ih]

theorem meetAll_append (vs ws : List Variance) :
    meetAll (vs ++ ws) = (meetAll vs).meet (meetAll ws) := by
  apply eq_of_forall_le_iff
  intro a
  simp only [le_meetAll_iff, le_meet_iff, List.mem_append]
  constructor
  · intro h
    exact ⟨fun v hv => h v (.inl hv), fun w hw => h w (.inr hw)⟩
  · rintro ⟨hv, hw⟩ u (hu | hu)
    · exact hv u hu
    · exact hw u hu

/-! ## Operations that keep meets -/

/-- A commutative operation that absorbs into `*` and is pushed through meets. -/
structure Distributes (op : Variance → Variance → Variance) : Prop where
  comm : ∀ a b, op a b = op b a
  top : ∀ a, op a .bivariant = .bivariant
  meet : ∀ a b c, op a (b.meet c) = (op a b).meet (op a c)

theorem transform_distributes : Distributes transform where
  comm a b := by cases a <;> cases b <;> rfl
  top a := by cases a <;> rfl
  meet a b c := by cases a <;> cases b <;> cases c <;> rfl

theorem join_distributes : Distributes join where
  comm a b := by cases a <;> cases b <;> rfl
  top a := by cases a <;> rfl
  meet a b c := by cases a <;> cases b <;> cases c <;> rfl

namespace Distributes

variable {op : Variance → Variance → Variance} (h : Distributes op)

include h

theorem top_left (a : Variance) : op .bivariant a = .bivariant := by rw [h.comm, h.top]

theorem mono_right (a : Variance) {b c : Variance} (hbc : b ≤ c) : op a b ≤ op a c := by
  have eq : b.meet c = b := meet_eq_left_iff.2 hbc
  rw [← eq, h.meet]
  exact meet_le_right _ _

theorem mono {a b c d : Variance} (hab : a ≤ b) (hcd : c ≤ d) : op a c ≤ op b d :=
  calc op a c ≤ op a d := h.mono_right a hcd
    _ = op d a := h.comm a d
    _ ≤ op d b := h.mono_right d hab
    _ = op b d := h.comm d b

theorem meetAll_right (a : Variance) (vs : List Variance) :
    op a (meetAll vs) = meetAll (vs.map (op a)) := by
  induction vs with
  | nil => exact h.top a
  | cons v vs ih => simp only [meetAll_cons, List.map_cons, h.meet, ih]

/-- The meets of two lists combine to the meet of all combinations. -/
theorem meetAll_combinations (vs ws : List Variance) :
    op (meetAll vs) (meetAll ws) = meetAll (vs.flatMap fun v => ws.map (op v)) := by
  induction vs with
  | nil => exact h.top_left _
  | cons v vs ih =>
    rw [meetAll_cons, List.flatMap_cons, meetAll_append, ← ih, ← h.meetAll_right v ws]
    rw [h.comm, h.meet, h.comm _ v, h.comm _ (meetAll vs)]

end Distributes

/-! ## Narrowing -/

/-- How many times a variance can be narrowed. -/
def rank : Variance → Nat
  | .bivariant => 2
  | .covariant | .contravariant => 1
  | .invariant => 0

theorem rank_le_two (a : Variance) : a.rank ≤ 2 := by cases a <;> decide

theorem rank_mono {a b : Variance} : a ≤ b → a.rank ≤ b.rank := by
  cases a <;> cases b <;> decide

theorem rank_meet_lt {a b : Variance} : ¬ a ≤ b → (a.meet b).rank < a.rank := by
  cases a <;> cases b <;> decide

end Polarity.Variance

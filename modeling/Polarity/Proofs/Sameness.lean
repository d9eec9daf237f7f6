import Polarity.Proofs.Remembering

/-!
# Sameness

Expressions are the same when they differ in nothing but how their references are shown. Dropping
one of two that are the same loses nothing: the solver finds the same for both, and reduction goes
on to the same bounds.

* `Expr.keyed`: an expression without what sameness passes over;
* `Expr.same_iff`: sameness is equality of those, where nothing is left out;
* `Expr.estimate`: what the solver computes for every expression, known or not;
* `Expr.Alike`: two lists of bounds that are the same one by one;
* `alike_reduce`: expressions that are the same are reduced to such lists;
* `sameness_sound`: all of it.
-/

namespace Polarity

namespace Expr

/-! ## References by their keys -/

/-- The expression with a fixed reference for each key. -/
def keyed : Expr → Expr
  | .param r => .param ⟨r.param, r.className, []⟩
  | .occurrence o => .occurrence o.key.sample
  | .transform l r => .transform l.keyed r.keyed
  | .join l r => .join l.keyed r.keyed
  | e => e

theorem keyed_param {a b : ParamRef} :
    (Expr.param a).keyed = (Expr.param b).keyed ↔ a.key = b.key := by
  simp only [keyed, param.injEq, ParamRef.mk.injEq, ParamRef.key, ParamKey.mk.injEq]
  tauto

theorem keyed_occurrence {a b : Occurrence} :
    (Expr.occurrence a).keyed = (Expr.occurrence b).keyed ↔ a.key = b.key := by
  simp only [keyed, occurrence.injEq]
  constructor
  · intro same
    rw [← key_sample a.key, same, key_sample]
  · exact congrArg _

/-- Sameness is equality up to how references are shown, where nothing is left out. -/
theorem same_iff {a b : Expr} : a.same b = true ↔ a.Complete ∧ a.keyed = b.keyed := by
  induction a generalizing b with
  | absent => cases b <;> simp [same, Complete, Over]
  | literal v => cases b <;> simp [same, Complete, Over, keyed]
  | param r =>
    cases b with
    | param s => simp only [same, beq_iff_eq, keyed_param, Complete, Over, true_and]
    | _ => simp [same, keyed]
  | occurrence o =>
    cases b with
    | occurrence p => simp only [same, beq_iff_eq, keyed_occurrence, Complete, Over, true_and]
    | _ => simp [same, keyed]
  | transform l r ihl ihr =>
    cases b with
    | transform l' r' =>
      simp only [same, Bool.and_eq_true, ihl, ihr, keyed, transform.injEq, Complete, Over]
      tauto
    | _ => simp [same, keyed]
  | join l r ihl ihr =>
    cases b with
    | join l' r' =>
      simp only [same, Bool.and_eq_true, ihl, ihr, keyed, join.injEq, Complete, Over]
      tauto
    | _ => simp [same, keyed]

theorem same_self_iff {a : Expr} : a.same a = true ↔ a.Complete := by
  rw [same_iff, and_iff_left rfl]

theorem same_symm {a b : Expr} (h : a.same b = true) : b.same a = true := same_comm a b ▸ h

theorem same_trans {a b c : Expr} (h : a.same b = true) (h' : b.same c = true) :
    a.same c = true :=
  same_iff.2 ⟨(same_iff.1 h).1, (same_iff.1 h).2.trans (same_iff.1 h').2⟩

/-- Sameness with others does not tell apart what is the same. -/
theorem same_congr {a a' b b' : Expr} (ha : a.same a' = true) (hb : b.same b' = true) :
    a.same b = a'.same b' := by
  rw [Bool.eq_iff_iff]
  exact ⟨fun h => same_trans (same_symm ha) (same_trans h hb),
    fun h => same_trans ha (same_trans h (same_symm hb))⟩

/-! ## What the solver computes -/

/-- The variance of an expression, and whether all of it is known. What is not known counts as
`o`. -/
def estimate (declared : List ParamKey) (ρ : Assignment) : Expr → Variance × Bool
  | .literal v => (v, true)
  | .param r => if r.key ∈ declared then (ρ r.key, true) else (.invariant, false)
  | .transform l r =>
    ((l.estimate declared ρ).1.transform (r.estimate declared ρ).1,
      (l.estimate declared ρ).2 && (r.estimate declared ρ).2)
  | .join l r =>
    ((l.estimate declared ρ).1.join (r.estimate declared ρ).1,
      (l.estimate declared ρ).2 && (r.estimate declared ρ).2)
  | .absent | .occurrence _ => (.invariant, false)

section
variable (declared : List ParamKey) (ρ : Assignment)

/-- The solver goes by what is estimated of expressions that are known. -/
theorem eval_eq_estimate (e : Expr) : e.eval declared ρ =
    if (e.estimate declared ρ).2 then some (e.estimate declared ρ).1 else none := by
  induction e with
  | absent => rfl
  | literal v => rfl
  | param r => by_cases known : r.key ∈ declared <;> simp [eval, estimate, known]
  | occurrence o => rfl
  | transform l r ihl ihr | join l r ihl ihr =>
    rw [eval, ihl, ihr, estimate]
    cases (l.estimate declared ρ).2 <;> cases (r.estimate declared ρ).2 <;> rfl

theorem estimate_keyed (e : Expr) : e.keyed.estimate declared ρ = e.estimate declared ρ := by
  induction e with
  | transform l r ihl ihr | join l r ihl ihr => simp only [keyed, estimate, ihl, ihr]
  | _ => rfl

theorem hasOccurrences_keyed (e : Expr) : e.keyed.hasOccurrences = e.hasOccurrences := by
  induction e with
  | transform l r ihl ihr | join l r ihl ihr => simp only [keyed, hasOccurrences, ihl, ihr]
  | _ => rfl

variable {a b : Expr} (h : a.same b = true)
include h

theorem estimate_eq_of_same : a.estimate declared ρ = b.estimate declared ρ := by
  rw [← estimate_keyed, (same_iff.1 h).2, estimate_keyed]

theorem eval_eq_of_same : a.eval declared ρ = b.eval declared ρ := by
  rw [eval_eq_estimate, estimate_eq_of_same declared ρ h, ← eval_eq_estimate]

omit declared ρ in
theorem hasOccurrences_eq_of_same : a.hasOccurrences = b.hasOccurrences := by
  rw [← hasOccurrences_keyed, (same_iff.1 h).2, hasOccurrences_keyed]

end

/-! ## Operations on what is the same -/

/-- Early evaluation looks at variances only, so it does not depend on how references are shown. -/
theorem keyed_reducedTransform (l r : Expr) :
    (reducedTransform l r).keyed = reducedTransform l.keyed r.keyed := by
  cases l with
  | literal v => cases v <;> cases r <;> rfl
  | _ =>
    cases r with
    | literal v => cases v <;> rfl
    | _ => rfl

theorem keyed_reducedJoin (l r : Expr) :
    (reducedJoin l r).keyed = reducedJoin l.keyed r.keyed := by
  cases l with
  | literal v => cases v <;> cases r <;> rfl
  | _ =>
    cases r with
    | literal v => cases v <;> rfl
    | _ => rfl

/-- Sameness as a relation. -/
abbrev Same (a b : Expr) : Prop := a.same b = true

/-- An operation that makes the same of operands that are the same. -/
def KeepsSame (op : Expr → Expr → Expr) : Prop :=
  ∀ ⦃l l'⦄, Same l l' → ∀ ⦃r r'⦄, Same r r' → Same (op l r) (op l' r')

theorem reducedTransform_keepsSame : KeepsSame reducedTransform := by
  intro l l' hl r r' hr
  obtain ⟨left, shownLeft⟩ := same_iff.1 hl
  obtain ⟨right, shownRight⟩ := same_iff.1 hr
  refine same_iff.2 ⟨over_reducedTransform left right, ?_⟩
  rw [keyed_reducedTransform, keyed_reducedTransform, shownLeft, shownRight]

theorem reducedJoin_keepsSame : KeepsSame reducedJoin := by
  intro l l' hl r r' hr
  obtain ⟨left, shownLeft⟩ := same_iff.1 hl
  obtain ⟨right, shownRight⟩ := same_iff.1 hr
  refine same_iff.2 ⟨over_reducedJoin left right, ?_⟩
  rw [keyed_reducedJoin, keyed_reducedJoin, shownLeft, shownRight]

/-- Lists of bounds that are the same one by one. -/
def Alike : List Expr → List Expr → Prop := List.Forall₂ Same

theorem alike_self_iff {es : List Expr} : Alike es es ↔ ∀ e ∈ es, e.Complete := by
  simp only [Alike, List.forall₂_same, same_self_iff]

theorem alike_addNew {es es' : List Expr} (h : Alike es es') {e e' : Expr}
    (he : Same e e') : Alike (addNew es e) (addNew es' e') := by
  -- Both lists know the expression or neither does, so both grow or neither does.
  have known : es.any (·.same e) = es'.any (·.same e') := by
    induction h with
    | nil => rfl
    | cons first _ ih => rw [List.any_cons, List.any_cons, same_congr first he, ih]
  unfold addNew
  rw [known]
  split
  · exact h
  · exact List.rel_append h (.cons he .nil)

theorem alike_distinct {es es' : List Expr} (h : Alike es es') :
    Alike (distinct es) (distinct es') :=
  List.rel_foldl (P := Alike) (R := Same) (fun _ _ acc _ _ he => alike_addNew acc he) .nil h

theorem alike_combine {op : Expr → Expr → Expr} (hop : KeepsSame op) {ls ls' rs rs' : List Expr}
    (hl : Alike ls ls') (hr : Alike rs rs') : Alike (combine op ls rs) (combine op ls' rs') := by
  apply alike_distinct
  refine List.rel_flatMap hl fun l l' same => ?_
  exact List.rel_map (hop same) hr

theorem alike_reduceWith {f : Occurrence → List Expr}
    (hf : ∀ o o', o.key = o'.key → Alike (f o) (f o')) {a b : Expr} (h : a.same b = true) :
    Alike (a.reduceWith f) (b.reduceWith f) := by
  fun_induction same a b with
  | case1 v w => exact .cons h .nil
  | case2 r s => exact .cons h .nil
  | case3 o p => exact hf o p (eq_of_beq h)
  | case4 l r l' r' ihl ihr =>
    rw [Bool.and_eq_true] at h
    exact alike_combine reducedTransform_keepsSame (ihl h.1) (ihr h.2)
  | case5 l r l' r' ihl ihr =>
    rw [Bool.and_eq_true] at h
    exact alike_combine reducedJoin_keepsSame (ihl h.1) (ihr h.2)
  | case6 => cases h

end Expr

/-! ## Reduction of what is the same -/

section
variable {bounds : Bounds} (complete : ∀ k, ∀ e ∈ bounds k, e.Complete)
include complete

theorem complete_resolve (depth : Nat) (o : Occurrence) :
    ∀ e ∈ resolve bounds depth o, e.Complete := by
  refine resolve_induction (motive := fun _ es => ∀ e ∈ es, e.Complete) ?_ ?_ depth o
  · exact fun o => List.forall_mem_singleton.2 trivial
  · intro o f _ hf
    refine forall_gathered trivial (List.forall_mem_map.2 fun e he => ?_)
    exact over_reduceWith (complete _ e he) fun o' _ _ => hf o'

/-- An occurrence stands for what its key tells, and for itself without bounds. -/
theorem alike_resolve (depth : Nat) {o o' : Occurrence} (key : o.key = o'.key) :
    Expr.Alike (resolve bounds depth o) (resolve bounds depth o') := by
  have itself : Expr.Alike [.occurrence o] [.occurrence o'] := 
    .cons (beq_iff_eq.2 key) .nil
  cases depth with
  | zero => exact itself
  | succ depth =>
    by_cases hb : bounds o.key = []
    · rwa [resolve_of_nil hb, resolve_of_nil (key ▸ hb)]
    · -- Bounds are found by key, so both stand for one list; nothing is left out of it.
      have equal : resolve bounds (depth + 1) o' = resolve bounds (depth + 1) o := by
        rw [resolve_succ hb, resolve_succ (key ▸ hb), key]
      rw [equal]
      exact Expr.alike_self_iff.2 (complete_resolve complete (depth + 1) o)

theorem alike_reduce (depth : Nat) {a b : Expr} (h : a.same b = true) :
    Expr.Alike (reduce bounds depth a) (reduce bounds depth b) :=
  Expr.alike_reduceWith (fun _ _ => alike_resolve complete depth) h

end

/-- **Sameness is sound.** It is symmetric and transitive, and an expression is the same as itself
exactly when nothing in it is left out. Whatever is known of class parameters, the solver finds
the same for expressions that are the same, and takes both for known or both for unknown. They
have occurrences both or neither. When no occurrence depends on itself and nothing is left out of
the bounds, they are reduced to equally many bounds, which are the same one by one, whatever was
reduced before them. -/
theorem sameness_sound :
    (∀ a b : Expr, a.same b = b.same a) ∧
    (∀ a b c : Expr, a.same b = true → b.same c = true → a.same c = true) ∧
    (∀ a : Expr, a.same a = true ↔ a.Complete) ∧
    ∀ a b : Expr, a.same b = true →
      (∀ declared ρ, a.eval declared ρ = b.eval declared ρ ∧
        a.estimate declared ρ = b.estimate declared ρ) ∧
      a.hasOccurrences = b.hasOccurrences ∧
      ∀ (bounds : Bounds) (keys : List OccurrenceKey) (depth : Nat),
        (∀ k, bounds k ≠ [] → k ∈ keys) → Acyclic bounds → keys.length ≤ depth →
        (∀ k, ∀ e ∈ bounds k, e.Complete) → ∀ es es' : List Expr,
          List.Forall₂ (fun x y => x.same y = true)
            (Memo.reduce bounds depth a (Memo.after bounds depth es)).1
            (Memo.reduce bounds depth b (Memo.after bounds depth es')).1 := by
  refine ⟨same_comm, fun _ _ _ => Expr.same_trans, fun _ => Expr.same_self_iff, fun a b h => ?_⟩
  refine ⟨fun declared ρ => ?_, Expr.hasOccurrences_eq_of_same h, ?_⟩
  · exact ⟨Expr.eval_eq_of_same declared ρ h, Expr.estimate_eq_of_same declared ρ h⟩
  · intro bounds keys depth listed acyclic enough complete es es'
    have hd : Exhausts bounds depth := exhausts_of_acyclic keys listed acyclic enough
    rw [(Memo.reduce_eq hd a (Memo.results_eq hd es).2).1,
      (Memo.reduce_eq hd b (Memo.results_eq hd es').2).1]
    exact alike_reduce complete depth h

/-- The parameter `T` of `Pair` together with its occurrence in the type that stands at one place,
which is shown in some way. -/
def pairExpr (signature name : Text) : Expr :=
  .transform (.param ⟨"T", "Pair", signature⟩) (.occurrence ⟨"T", .mk name [] ⟨25, 45⟩⟩)

theorem sameness_sound_pair :
    (pairExpr "Pair<T, U>" "Pair").same (pairExpr "Pair" "P") = true ∧
    (∀ c ∈ pairConstraints, c.right.Complete) ∧ Acyclic (boundsOf .all pairConstraints) ∧
    List.Forall₂ (fun x y => x.same y = true)
      (Memo.reduce (boundsOf .all pairConstraints) 4 (pairExpr "Pair<T, U>" "Pair") []).1
      (Memo.reduce (boundsOf .all pairConstraints) 4 (pairExpr "Pair" "P")
        (Memo.after (boundsOf .all pairConstraints) 4 [pairExpr "Pair<T, U>" "Pair"])).1 := by
  have same : (pairExpr "Pair<T, U>" "Pair").same (pairExpr "Pair" "P") = true := by decide
  have complete : ∀ c ∈ pairConstraints, c.right.Complete := by decide
  refine ⟨same, complete, pairConstraints_acyclic, ?_⟩
  refine (sameness_sound.2.2.2 _ _ same).2.2 _ (boundedKeys pairConstraints) 4
    (fun _ => mem_boundedKeys) pairConstraints_acyclic (Nat.le_refl 4) ?_ [] _
  intro k e he
  obtain ⟨c, hc, -, -, -, rfl⟩ := mem_boundsOf_all.1 he
  exact complete c hc

end Polarity

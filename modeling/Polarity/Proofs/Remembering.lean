import Polarity.Proofs.Exactness

/-!
# What is remembered does not show

Occurrences are reduced once and then looked up, across all the expressions that are reduced
together. What comes out is told by plain recursion through the bounds, with no memo and no depth.

* `Substitutes`: the recursion, as equations that a reduction satisfies;
* `substitutes_reduce`, `Substitutes.eq_reduce`: when no occurrence depends on itself, exactly one
  reduction does;
* `reduce_ne_nil`: everything is reduced to something;
* `Memo.results_eq`: what expressions come to, one after another, and what is remembered of them;
* `memory_invisible`: all of it, for any expressions one after another.
-/

namespace Polarity

/-! ## Reduction without a memo -/

/-- The reduction that replaces each occurrence by what all its bounds are reduced to, once each
and without `*` beside others, and combines what the operands of an operation are reduced to, the
left one varying slowest. -/
structure Substitutes (bounds : Bounds) (F : Expr → List Expr) : Prop where
  absent : F .absent = [.absent]
  literal : ∀ v, F (.literal v) = [.literal v]
  param : ∀ r, F (.param r) = [.param r]
  transform : ∀ l r, F (.transform l r) =
    Expr.distinct ((F l).flatMap fun a => (F r).map fun b => Expr.reducedTransform a b)
  join : ∀ l r, F (.join l r) =
    Expr.distinct ((F l).flatMap fun a => (F r).map fun b => Expr.reducedJoin a b)
  unbounded : ∀ o : Occurrence, bounds o.key = [] → F (.occurrence o) = [.occurrence o]
  bounded : ∀ o : Occurrence, bounds o.key ≠ [] →
    F (.occurrence o) = Expr.withoutTop (Expr.distinct ((bounds o.key).flatMap F))

section
variable {bounds : Bounds} {depth : Nat} {F : Expr → List Expr}

theorem substitutes_reduce (hd : Exhausts bounds depth) :
    Substitutes bounds (reduce bounds depth) where
  absent := rfl
  literal _ := rfl
  param _ := rfl
  transform _ _ := rfl
  join _ _ := rfl
  unbounded _ hb := resolve_of_nil hb depth
  bounded o hb := by
    rw [reduce, Expr.reduceWith, resolve_of_ne_nil hd hb, gathered, List.flatMap_def]

theorem Substitutes.eq_reduceWith (h : Substitutes bounds F) {f : Occurrence → List Expr} {e : Expr}
    (agree : ∀ o ∈ e.occurrences, F (.occurrence o) = f o) : F e = e.reduceWith f := by
  induction e with
  | absent => exact h.absent
  | literal v => exact h.literal v
  | param r => exact h.param r
  | occurrence o => exact agree o (.head _)
  | transform l r ihl ihr =>
    rw [h.transform, Expr.reduceWith, Expr.combine, ihl fun o ho => agree o (List.mem_append_left _ ho),
      ihr fun o ho => agree o (List.mem_append_right _ ho)]
  | join l r ihl ihr =>
    rw [h.join, Expr.reduceWith, Expr.combine, ihl fun o ho => agree o (List.mem_append_left _ ho),
      ihr fun o ho => agree o (List.mem_append_right _ ho)]

theorem Substitutes.eq_resolve (h : Substitutes bounds F) {o : Occurrence}
    (ends : Ends bounds depth o.key) : F (.occurrence o) = resolve bounds depth o := by
  induction depth generalizing o with
  | zero => rw [h.unbounded o ends, resolve_of_nil ends]
  | succ depth ih =>
    by_cases hb : bounds o.key = []
    · rw [h.unbounded o hb, resolve_of_nil hb]
    · have each : ∀ e ∈ bounds o.key, F e = reduce bounds depth e := fun e he =>
        h.eq_reduceWith fun o' ho' => ih (ends _ ⟨e, he, o', ho', rfl⟩)
      rw [h.bounded o hb, resolve_succ hb, gathered, List.flatMap_def, List.map_congr_left each]

/-- There is no other such reduction. -/
theorem Substitutes.eq_reduce (h : Substitutes bounds F) (hd : Exhausts bounds depth) :
    F = reduce bounds depth :=
  funext fun _ => h.eq_reduceWith fun o _ => h.eq_resolve (hd o.key)

/-! ## Something is always left -/

theorem distinct_ne_nil {es : List Expr} (h : es ≠ []) : Expr.distinct es ≠ [] := by
  obtain ⟨e, he⟩ := List.exists_mem_of_ne_nil es h
  obtain ⟨e', he', -⟩ := (foldl_addNew es []).2.2 e he
  exact List.ne_nil_of_mem he'

theorem combine_ne_nil {op : Expr → Expr → Expr} {ls rs : List Expr} (hl : ls ≠ [])
    (hr : rs ≠ []) : Expr.combine op ls rs ≠ [] := by
  obtain ⟨l, hl⟩ := List.exists_mem_of_ne_nil ls hl
  obtain ⟨r, hr⟩ := List.exists_mem_of_ne_nil rs hr
  have mem : op l r ∈ ls.flatMap fun l => rs.map (op l) :=
    List.mem_flatMap.2 ⟨l, hl, List.mem_map_of_mem hr⟩
  exact distinct_ne_nil (List.ne_nil_of_mem mem)

theorem withoutTop_ne_nil {es : List Expr} (h : es ≠ []) : Expr.withoutTop es ≠ [] := by
  unfold Expr.withoutTop
  simp only
  split
  · split
    · exact List.cons_ne_nil _ _
    · rename_i rest
      exact fun empty => rest (List.isEmpty_iff.2 empty)
  · exact h

theorem gathered_ne_nil {reductions : List (List Expr)} (h : reductions ≠ [])
    (each : ∀ es ∈ reductions, es ≠ []) : gathered reductions ≠ [] := by
  obtain ⟨es, hes⟩ := List.exists_mem_of_ne_nil reductions h
  obtain ⟨e, he⟩ := List.exists_mem_of_ne_nil es (each es hes)
  have mem : e ∈ reductions.flatten := List.mem_flatten.2 ⟨es, hes, he⟩
  exact withoutTop_ne_nil (distinct_ne_nil (List.ne_nil_of_mem mem))

theorem reduceWith_ne_nil {f : Occurrence → List Expr} (hf : ∀ o, f o ≠ []) (e : Expr) :
    e.reduceWith f ≠ [] := by
  induction e with
  | occurrence o => exact hf o
  | transform l r ihl ihr => exact combine_ne_nil ihl ihr
  | join l r ihl ihr => exact combine_ne_nil ihl ihr
  | _ => exact List.cons_ne_nil _ _

theorem resolve_ne_nil (bounds : Bounds) (depth : Nat) (o : Occurrence) :
    resolve bounds depth o ≠ [] := by
  refine resolve_induction (motive := fun _ es => es ≠ []) ?_ ?_ depth o
  · exact fun o => List.cons_ne_nil _ _
  · intro o f hb hf
    refine gathered_ne_nil (fun empty => hb (List.map_eq_nil_iff.1 empty)) ?_
    exact List.forall_mem_map.2 fun e _ => reduceWith_ne_nil hf e

theorem reduce_ne_nil (bounds : Bounds) (depth : Nat) (e : Expr) : reduce bounds depth e ≠ [] :=
  reduceWith_ne_nil (resolve_ne_nil bounds depth) e

/-! ## One expression after another -/

/-- What some expressions are reduced to, one after another, with nothing remembered at first. -/
def Memo.results (bounds : Bounds) (depth : Nat) (es : List Expr) : List (List Expr) :=
  (Memo.reduceEach (Memo.reduce bounds depth) es []).1

/-- What is remembered after some expressions. -/
def Memo.after (bounds : Bounds) (depth : Nat) (es : List Expr) : Memo :=
  (Memo.reduceEach (Memo.reduce bounds depth) es []).2

theorem Memo.results_eq (hd : Exhausts bounds depth) (es : List Expr) :
    Memo.results bounds depth es = es.map (Polarity.reduce bounds depth) ∧
      (Memo.after bounds depth es).Valid bounds depth :=
  Memo.reduceEach_eq (fun e _ _ hm => Memo.reduce_eq hd e hm) Memo.valid_nil

/-- **What is remembered does not show.** Take bounds for finitely many occurrences, none of which
depends on itself. There is a reduction that replaces occurrences by plain recursion, and
expressions that are reduced one after another, in any number and order, come to what it makes of
each of them. What is remembered in the end is what it makes of the occurrence. It makes something
of every expression, and never the same thing twice. -/
theorem memory_invisible {keys : List OccurrenceKey} (listed : ∀ k, bounds k ≠ [] → k ∈ keys)
    (acyclic : Acyclic bounds) (enough : keys.length ≤ depth) :
    (∃ F, Substitutes bounds F) ∧ ∀ F, Substitutes bounds F →
      (∀ es, Memo.results bounds depth es = es.map F ∧
        ∀ (o : Occurrence) found, (Memo.after bounds depth es).lookup o.key = some found →
          found = F (.occurrence o)) ∧
      ∀ e, F e ≠ [] ∧ (F e).Pairwise fun a b => a.same b = false ∧ b.same a = false := by
  have hd : Exhausts bounds depth := exhausts_of_acyclic keys listed acyclic enough
  refine ⟨⟨_, substitutes_reduce hd⟩, fun F plain => ?_⟩
  obtain rfl := plain.eq_reduce hd
  refine ⟨fun es => Memo.results_eq hd es, fun e => ⟨reduce_ne_nil bounds depth e, ?_⟩⟩
  refine (reduce_pairwise bounds depth e).imp fun {a b} differ => ?_
  exact ⟨differ, same_comm a b ▸ differ⟩

end

/-- The right sides of the constraints share their occurrences, so all but the first are looked
up. -/
theorem memory_invisible_pair :
    (∀ k, boundsOf .all pairConstraints k ≠ [] → k ∈ boundedKeys pairConstraints) ∧
    Acyclic (boundsOf .all pairConstraints) ∧ (boundedKeys pairConstraints).length ≤ 4 ∧
    (Memo.after (boundsOf .all pairConstraints) 4 (pairConstraints.map (·.right))).length = 3 ∧
    ∃ F, Substitutes (boundsOf .all pairConstraints) F ∧
      Memo.results (boundsOf .all pairConstraints) 4 (pairConstraints.map (·.right)) =
        pairConstraints.map fun c => F c.right :=
  have holds := memory_invisible (fun _ => mem_boundedKeys) pairConstraints_acyclic
    (Nat.le_refl 4 : (boundedKeys pairConstraints).length ≤ 4)
  have ⟨F, plain⟩ := holds.1
  ⟨fun _ => mem_boundedKeys, pairConstraints_acyclic, Nat.le_refl 4, rfl, F, plain,
    ((holds.2 F plain).1 _).1.trans List.map_map⟩

end Polarity

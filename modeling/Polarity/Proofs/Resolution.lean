import Mathlib.Data.List.Perm.Subperm
import Mathlib.Logic.Relation
import Polarity.Reduction

/-!
# Following bounds to their end

Occurrences are replaced by their bounds, whose occurrences are replaced in turn.
When no occurrence depends on itself, this ends.

* `Acyclic`: no chain of bounds returns to where it began;
* `Exhausts`: a depth to which every chain of bounds comes to its end;
* `exhausts_of_acyclic`: the number of occurrences with bounds is such a depth;
* `resolve_induction`: what holds of everything that occurrences stand for;
* `resolve_of_ne_nil`: at such a depth, resolving is plain recursion through the
  bounds, with no depth left in it;
* `each_eq`: what is remembered from one reduction to the next changes nothing.
-/

namespace Polarity

/-- Some bound of the occurrence `k` mentions the occurrence `k'`. -/
def Mentions (bounds : Bounds) (k k' : OccurrenceKey) : Prop :=
  ∃ e ∈ bounds k, ∃ o ∈ e.occurrences, o.key = k'

/-- No occurrence depends on itself. -/
def Acyclic (bounds : Bounds) : Prop := ∀ k, ¬ Relation.TransGen (Mentions bounds) k k

/-- Every chain of bounds from an occurrence on ends within some steps. -/
def Ends (bounds : Bounds) : (depth : Nat) → OccurrenceKey → Prop
  | 0, k => bounds k = []
  | depth + 1, k => ∀ k', Mentions bounds k k' → Ends bounds depth k'

/-- Every chain of bounds ends within some steps. -/
def Exhausts (bounds : Bounds) (depth : Nat) : Prop := ∀ k, Ends bounds depth k

section
variable {bounds : Bounds} {depth : Nat}

/-! ## Acyclic bounds end -/

/-- Bounds that only mention occurrences further on are acyclic. -/
theorem acyclic_of_lt {f : OccurrenceKey → Int} (h : ∀ k k', Mentions bounds k k' → f k < f k') :
    Acyclic bounds := by
  have lt {k k' : OccurrenceKey} (path : Relation.TransGen (Mentions bounds) k k') : f k < f k' := by
    induction path with
    | single step => exact h _ _ step
    | tail _ step ih => exact Int.lt_trans ih (h _ _ step)
  intro k path
  exact Int.lt_irrefl _ (lt path)

theorem Acyclic.of_subset {bounds' : Bounds} (h : Acyclic bounds)
    (sub : ∀ k, bounds' k ⊆ bounds k) : Acyclic bounds' := by
  intro k path
  refine h k (Relation.TransGen.mono ?_ k k path)
  rintro k k' ⟨e, he, o, ho, rfl⟩
  exact ⟨e, sub k he, o, ho, rfl⟩

/-- A chain of bounds that has not ended has visited different occurrences, all of
which have bounds; so it cannot be longer than the list of those. -/
theorem ends_of_path {keys : List OccurrenceKey} (hkeys : ∀ k, bounds k ≠ [] → k ∈ keys)
    (acyclic : Acyclic bounds) {path : List OccurrenceKey} {k : OccurrenceKey}
    (nodup : path.Nodup)
    (visited : ∀ p ∈ path, p ∈ keys ∧ Relation.TransGen (Mentions bounds) p k)
    (enough : keys.length ≤ path.length + depth) : Ends bounds depth k := by
  have fresh : (k :: path).Nodup :=
    List.nodup_cons.2 ⟨fun hk => acyclic k (visited k hk).2, nodup⟩
  induction depth generalizing path k with
  | zero =>
    by_contra hk
    have sub : k :: path ⊆ keys := by
      intro p hp
      obtain rfl | hp := List.mem_cons.1 hp
      · exact hkeys p hk
      · exact (visited p hp).1
    have le := (List.subperm_of_subset fresh sub).length_le
    simp only [List.length_cons] at le
    omega
  | succ depth ih =>
    intro k' step
    have bounded : bounds k ≠ [] := by
      obtain ⟨e, he, -⟩ := step
      exact List.ne_nil_of_mem he
    have visited' : ∀ p ∈ k :: path, p ∈ keys ∧ Relation.TransGen (Mentions bounds) p k' := by
      intro p hp
      obtain rfl | hp := List.mem_cons.1 hp
      · exact ⟨hkeys p bounded, .single step⟩
      · exact ⟨(visited p hp).1, (visited p hp).2.tail step⟩
    refine ih fresh visited' (by simp only [List.length_cons]; omega) ?_
    exact List.nodup_cons.2 ⟨fun hk => acyclic k' (visited' k' hk).2, fresh⟩

theorem exhausts_of_acyclic (keys : List OccurrenceKey) (hkeys : ∀ k, bounds k ≠ [] → k ∈ keys)
    (acyclic : Acyclic bounds) (enough : keys.length ≤ depth) : Exhausts bounds depth := by
  intro k
  exact ends_of_path hkeys acyclic List.nodup_nil (by simp) (by simpa using enough)

/-! ## Resolving without depth -/

theorem reduceWith_congr {f g : Occurrence → List Expr} {e : Expr}
    (h : ∀ o ∈ e.occurrences, f o = g o) : e.reduceWith f = e.reduceWith g := by
  induction e with
  | occurrence o => exact h o (.head _)
  | transform l r ihl ihr =>
    rw [Expr.reduceWith, Expr.reduceWith, ihl fun o ho => h o (List.mem_append_left _ ho),
      ihr fun o ho => h o (List.mem_append_right _ ho)]
  | join l r ihl ihr =>
    rw [Expr.reduceWith, Expr.reduceWith, ihl fun o ho => h o (List.mem_append_left _ ho),
      ihr fun o ho => h o (List.mem_append_right _ ho)]
  | _ => rfl

theorem resolve_of_nil {o : Occurrence} (h : bounds o.key = []) (depth : Nat) :
    resolve bounds depth o = [.occurrence o] := by
  cases depth with
  | zero => rfl
  | succ depth => simp only [resolve, h]

theorem resolve_succ {o : Occurrence} (h : bounds o.key ≠ []) (depth : Nat) :
    resolve bounds (depth + 1) o = gathered ((bounds o.key).map (reduce bounds depth)) := by
  simp only [resolve]
  rfl

/-- To prove something of what occurrences stand for, prove it of those that stand for themselves,
and gather it from bounds. -/
theorem resolve_induction {motive : Occurrence → List Expr → Prop}
    (itself : ∀ o, motive o [.occurrence o])
    (bounded : ∀ o f, bounds o.key ≠ [] → (∀ o', motive o' (f o')) →
      motive o (gathered ((bounds o.key).map (Expr.reduceWith f)))) (depth : Nat) (o : Occurrence) :
    motive o (resolve bounds depth o) := by
  induction depth generalizing o with
  | zero => exact itself o
  | succ depth ih =>
    by_cases hb : bounds o.key = []
    · rw [resolve_of_nil hb]
      exact itself o
    · rw [resolve_succ hb]
      exact bounded o _ hb ih

/-- Beyond the end of all chains, more depth makes no difference. -/
theorem resolve_stable {o : Occurrence} {depth' : Nat} (h : Ends bounds depth o.key)
    (le : depth ≤ depth') : resolve bounds depth' o = resolve bounds depth o := by
  induction depth generalizing o depth' with
  | zero => rw [resolve_of_nil h, resolve_of_nil h]
  | succ depth ih =>
    obtain ⟨depth', rfl⟩ : ∃ n, depth' = n + 1 := ⟨depth' - 1, by omega⟩
    by_cases hb : bounds o.key = []
    · rw [resolve_of_nil hb, resolve_of_nil hb]
    · rw [resolve_succ hb, resolve_succ hb]
      congr 1
      apply List.map_congr_left
      intro e he
      exact reduceWith_congr fun o' ho' => ih (h _ ⟨e, he, o', ho', rfl⟩) (by omega)

theorem resolve_eq_of_ends {o : Occurrence} {depth' : Nat} (h : Ends bounds depth o.key)
    (h' : Ends bounds depth' o.key) : resolve bounds depth o = resolve bounds depth' o := by
  obtain le | le := Nat.le_total depth depth'
  · exact (resolve_stable h le).symm
  · exact resolve_stable h' le

theorem Exhausts.succ (h : Exhausts bounds depth) : Exhausts bounds (depth + 1) :=
  fun _ _ _ => h _

/-- An occurrence stands for what its bounds stand for. -/
theorem resolve_of_ne_nil (hd : Exhausts bounds depth) {o : Occurrence} (h : bounds o.key ≠ []) :
    resolve bounds depth o = gathered ((bounds o.key).map (reduce bounds depth)) := by
  rw [resolve_eq_of_ends (hd o.key) (hd.succ o.key), resolve_succ h]

/-! ## Remembering -/

/-- What is remembered is what resolving would find. -/
def Memo.Valid (bounds : Bounds) (depth : Nat) (memo : Memo) : Prop :=
  ∀ (o : Occurrence) es, memo.lookup o.key = some es → es = Polarity.resolve bounds depth o

theorem Memo.valid_nil : Memo.Valid bounds depth [] := fun _ _ h => by cases h

theorem Memo.reduceWith_eq {V : Memo → Prop} {f : Occurrence → List Expr}
    {g : Occurrence → Memo → List Expr × Memo} {e : Expr}
    (h : ∀ o ∈ e.occurrences, ∀ memo, V memo → (g o memo).1 = f o ∧ V (g o memo).2)
    {memo : Memo} (hm : V memo) :
    (Memo.reduceWith g e memo).1 = e.reduceWith f ∧ V (Memo.reduceWith g e memo).2 := by
  induction e generalizing memo with
  | occurrence o => exact h o (.head _) memo hm
  | transform l r ihl ihr =>
    obtain ⟨hl, hm⟩ := ihl (fun o ho => h o (List.mem_append_left _ ho)) hm
    obtain ⟨hr, hm⟩ := ihr (fun o ho => h o (List.mem_append_right _ ho)) hm
    exact ⟨by simp only [Memo.reduceWith, Expr.reduceWith, hl, hr], hm⟩
  | join l r ihl ihr =>
    obtain ⟨hl, hm⟩ := ihl (fun o ho => h o (List.mem_append_left _ ho)) hm
    obtain ⟨hr, hm⟩ := ihr (fun o ho => h o (List.mem_append_right _ ho)) hm
    exact ⟨by simp only [Memo.reduceWith, Expr.reduceWith, hl, hr], hm⟩
  | _ => exact ⟨rfl, hm⟩

theorem Memo.reduceEach_eq {V : Memo → Prop} {f : Expr → List Expr}
    {g : Expr → Memo → List Expr × Memo} {es : List Expr}
    (h : ∀ e ∈ es, ∀ memo, V memo → (g e memo).1 = f e ∧ V (g e memo).2)
    {memo : Memo} (hm : V memo) :
    (Memo.reduceEach g es memo).1 = es.map f ∧ V (Memo.reduceEach g es memo).2 := by
  induction es generalizing memo with
  | nil => exact ⟨rfl, hm⟩
  | cons e rest ih =>
    obtain ⟨he, hm⟩ := h e (.head _) memo hm
    obtain ⟨hr, hm⟩ := ih (fun e he => h e (.tail _ he)) hm
    exact ⟨by simp only [Memo.reduceEach, he, hr, List.map_cons], hm⟩

/-- An occurrence that is resolved for the first time is remembered. -/
theorem Memo.resolve_succ {d : Nat} {o : Occurrence} {memo : Memo}
    (known : memo.lookup o.key = none) (hb : bounds o.key ≠ []) :
    Memo.resolve bounds (d + 1) o memo =
      let reductions :=
        Memo.reduceEach (Memo.reduceWith (Memo.resolve bounds d)) (bounds o.key) memo
      (gathered reductions.1, (o.key, gathered reductions.1) :: reductions.2) := by
  simp only [Memo.resolve, known]

/-- Remembering an occurrence once it is resolved keeps the memo valid. -/
theorem Memo.Valid.cons {memo : Memo} (hm : memo.Valid bounds depth) {o : Occurrence}
    (hb : bounds o.key ≠ []) (hd : Exhausts bounds depth) :
    Memo.Valid bounds depth
      ((o.key, gathered ((bounds o.key).map (Polarity.reduce bounds depth))) :: memo) := by
  intro o' es found
  by_cases same : o'.key = o.key
  · rw [resolve_of_ne_nil hd (same ▸ hb), same]
    simpa [List.lookup_cons, same] using found.symm
  · have other : (o'.key == o.key) = false := beq_eq_false_iff_ne.2 same
    rw [List.lookup_cons, other] at found
    exact hm o' es found

/-- Resolving with a memo finds what resolving without one does. -/
theorem Memo.resolve_eq (hd : Exhausts bounds depth) {d : Nat} {o : Occurrence}
    (ends : Ends bounds d o.key) {memo : Memo} (hm : memo.Valid bounds depth) :
    (Memo.resolve bounds d o memo).1 = Polarity.resolve bounds depth o ∧
      (Memo.resolve bounds d o memo).2.Valid bounds depth := by
  induction d generalizing o memo with
  | zero => exact ⟨(resolve_of_nil ends depth).symm, hm⟩
  | succ d ih =>
    cases known : memo.lookup o.key with
    | some es =>
      simp only [Memo.resolve, known]
      exact ⟨hm o es known, hm⟩
    | none =>
      by_cases hb : bounds o.key = []
      · simp only [Memo.resolve, known, hb]
        exact ⟨(resolve_of_nil hb depth).symm, hm⟩
      · have each : ∀ e ∈ bounds o.key, ∀ memo : Memo, memo.Valid bounds depth →
            (Memo.reduceWith (Memo.resolve bounds d) e memo).1 = Polarity.reduce bounds depth e ∧
            (Memo.reduceWith (Memo.resolve bounds d) e memo).2.Valid bounds depth := by
          intro e he memo hm
          exact Memo.reduceWith_eq
            (fun o' ho' memo hm => ih (ends _ ⟨e, he, o', ho', rfl⟩) hm) hm
        obtain ⟨reductions, valid⟩ := Memo.reduceEach_eq each hm
        rw [Memo.resolve_succ known hb]
        simp only [reductions]
        exact ⟨(resolve_of_ne_nil hd hb).symm, valid.cons hb hd⟩

theorem Memo.reduce_eq (hd : Exhausts bounds depth) (e : Expr) {memo : Memo}
    (hm : memo.Valid bounds depth) :
    (Memo.reduce bounds depth e memo).1 = Polarity.reduce bounds depth e ∧
      (Memo.reduce bounds depth e memo).2.Valid bounds depth :=
  Memo.reduceWith_eq (fun o _ _ hm => Memo.resolve_eq hd (hd o.key) hm) hm

/-! ## All constraints together -/

/-- Whether an expression is a class parameter. -/
def Expr.isParam : Expr → Bool
  | .param _ => true
  | _ => false

theorem Expr.isParam_iff {e : Expr} : e.isParam = true ↔ ∃ r, e = .param r := by
  cases e <;> simp [isParam]

/-- Each constraint on a class parameter is reduced as if it were alone. -/
theorem each_eq (hd : Exhausts bounds depth) (constraints : List Constraint) {memo : Memo}
    (hm : memo.Valid bounds depth) :
    Reduced.each bounds depth constraints memo =
      (constraints.filter (·.left.isParam)).map fun c => ⟨c, reduce bounds depth c.right⟩ := by
  induction constraints generalizing memo with
  | nil => rfl
  | cons c rest ih =>
    cases hl : c.left with
    | param r =>
      obtain ⟨first, valid⟩ := Memo.reduce_eq hd c.right hm
      simp only [Reduced.each, hl, first, ih valid]
      rw [List.filter_cons_of_pos (by rw [hl]; rfl), List.map_cons]
    | _ =>
      simp only [Reduced.each, hl, ih hm]
      rw [List.filter_cons_of_neg (by rw [hl]; exact Bool.false_ne_true)]

/-- The occurrences that constraints bound. -/
def boundedKeys (constraints : List Constraint) : List OccurrenceKey :=
  constraints.filterMap fun c =>
    match c.left with
    | .occurrence o => some o.key
    | _ => none

/-- Of several bounds or arguments, those that count. -/
def Substitution.counted {α : Type} : Substitution → List α → List α
  | .all, as => as
  | .first, as => as.take 1

theorem Substitution.counted_ne_nil {α : Type} (mode : Substitution) {as : List α} (h : as ≠ []) :
    mode.counted as ≠ [] := by
  cases mode with
  | all => exact h
  | first =>
    cases as with
    | nil => exact absurd rfl h
    | cons a as => exact List.cons_ne_nil _ _

theorem Substitution.counted_subset {α : Type} (mode : Substitution) (as : List α) :
    mode.counted as ⊆ as := by
  cases mode with
  | all => exact List.Subset.refl _
  | first => exact List.take_subset _ _

theorem Substitution.counted_map {α β : Type} (mode : Substitution) (f : α → β) (as : List α) :
    mode.counted (as.map f) = (mode.counted as).map f := by
  cases mode with
  | all => rfl
  | first => exact List.map_take.symm

theorem boundsOf_eq_counted (mode : Substitution) (constraints : List Constraint)
    (k : OccurrenceKey) :
    boundsOf mode constraints k = mode.counted (boundsOf .all constraints k) := by
  cases mode <;> rfl

theorem mem_boundsOf_all {constraints : List Constraint} {k : OccurrenceKey} {e : Expr} :
    e ∈ boundsOf .all constraints k ↔
      ∃ c ∈ constraints, ∃ o : Occurrence, c.left = .occurrence o ∧ o.key = k ∧ c.right = e := by
  simp only [boundsOf, List.mem_filterMap]
  refine exists_congr fun c => and_congr_right fun _ => ?_
  unfold Constraint.boundOf
  cases c.left <;> simp

/-- Constraints that bound occurrences only by occurrences further on are acyclic. -/
theorem acyclic_boundsOf {constraints : List Constraint} {f : OccurrenceKey → Int}
    (h : ∀ c ∈ constraints, ∀ o ∈ c.left.occurrences, ∀ o' ∈ c.right.occurrences,
      f o.key < f o'.key) : Acyclic (boundsOf .all constraints) := by
  apply acyclic_of_lt (f := f)
  rintro k k' ⟨e, he, o', ho', rfl⟩
  obtain ⟨c, hc, o, hl, rfl, rfl⟩ := mem_boundsOf_all.1 he
  exact h c hc o (by rw [hl]; exact .head _) o' ho'

theorem boundsOf_subset (mode : Substitution) (constraints : List Constraint) (k : OccurrenceKey) :
    boundsOf mode constraints k ⊆ boundsOf .all constraints k := by
  rw [boundsOf_eq_counted]
  exact mode.counted_subset _

theorem mem_boundedKeys {mode : Substitution} {constraints : List Constraint} {k : OccurrenceKey}
    (h : boundsOf mode constraints k ≠ []) : k ∈ boundedKeys constraints := by
  obtain ⟨e, he⟩ := List.exists_mem_of_ne_nil _ h
  obtain ⟨c, hc, o, hl, rfl, -⟩ := mem_boundsOf_all.1 (boundsOf_subset mode constraints k he)
  exact List.mem_filterMap.2 ⟨c, hc, by rw [hl]⟩

theorem exhausts_boundsOf {mode : Substitution} {constraints : List Constraint}
    (acyclic : Acyclic (boundsOf mode constraints)) :
    Exhausts (boundsOf mode constraints) constraints.length :=
  exhausts_of_acyclic (boundedKeys constraints) (fun _ => mem_boundedKeys) acyclic
    (List.length_filterMap_le _ _)

/-- When no occurrence depends on itself, all constraints on class parameters are
reduced by plain recursion. -/
theorem reduceAll_eq {mode : Substitution} {constraints : List Constraint}
    (acyclic : Acyclic (boundsOf mode constraints)) :
    reduceAll mode constraints = (constraints.filter (·.left.isParam)).map fun c =>
      ⟨c, reduce (boundsOf mode constraints) constraints.length c.right⟩ :=
  each_eq (exhausts_boundsOf acyclic) constraints Memo.valid_nil

end

end Polarity

import Polarity.Proofs.Resolution
import Polarity.Proofs.Value

/-!
# What reduction keeps

Replacing an occurrence by its bounds, dropping repetitions, and evaluating the
algebra early do not change what an expression is worth, once occurrences are
chosen as large as their bounds allow.

* `meetValue`: what several upper bounds come to;
* `meetValue_reduceWith`: an expression is worth what the expressions it is
  reduced to come to;
* `tightest`: the values of occurrences that their bounds force;
* `tightest_respects`, `le_tightest`: they are the greatest ones that respect the
  bounds;
* `over_reduce`: once every occurrence has bounds, none is left after reduction.
-/

namespace Polarity

section
variable {ρ : Assignment} {θ θ' : OccurrenceKey → Variance}

/-- What several upper bounds come to. -/
def meetValue (ρ : Assignment) (θ : OccurrenceKey → Variance) (es : List Expr) : Variance :=
  Variance.meetAll (es.map (·.value ρ θ))

theorem le_meetValue_iff {v : Variance} {es : List Expr} :
    v ≤ meetValue ρ θ es ↔ ∀ e ∈ es, v ≤ e.value ρ θ := by
  rw [meetValue, Variance.le_meetAll_iff, List.forall_mem_map]

@[simp] theorem meetValue_singleton (e : Expr) : meetValue ρ θ [e] = e.value ρ θ :=
  Variance.meet_eq_left_iff.2 (Variance.le_bivariant _)

/-! ## Operations on lists of bounds -/

/-- The expressions of `es` and those before them, each up to sameness. -/
theorem foldl_addNew (es acc : List Expr) :
    (∀ e ∈ es.foldl Expr.addNew acc, e ∈ acc ∨ e ∈ es) ∧
    (∀ e ∈ acc, e ∈ es.foldl Expr.addNew acc) ∧
    (∀ e ∈ es, ∃ e' ∈ es.foldl Expr.addNew acc, e' = e ∨ e'.same e = true) := by
  induction es generalizing acc with
  | nil => simp
  | cons x es ih =>
    obtain ⟨sub, keep, found⟩ := ih (Expr.addNew acc x)
    have mem_add {e : Expr} (he : e ∈ Expr.addNew acc x) : e ∈ acc ∨ e = x := by
      unfold Expr.addNew at he
      split at he
      · exact .inl he
      · simpa using he
    have add_acc {e : Expr} (he : e ∈ acc) : e ∈ Expr.addNew acc x := by
      unfold Expr.addNew
      split
      · exact he
      · exact List.mem_append_left _ he
    have add_new : ∃ e' ∈ Expr.addNew acc x, e' = x ∨ e'.same x = true := by
      unfold Expr.addNew
      split
      · rename_i known
        obtain ⟨e', he', same⟩ := List.any_eq_true.1 known
        exact ⟨e', he', .inr same⟩
      · exact ⟨x, by simp, .inl rfl⟩
    refine ⟨fun e he => ?_, fun e he => keep e (add_acc he), fun e he => ?_⟩
    · obtain he | he := sub e he
      · obtain he | rfl := mem_add he
        · exact .inl he
        · exact .inr (.head _)
      · exact .inr (.tail _ he)
    · obtain rfl | he := List.mem_cons.1 he
      · obtain ⟨e', he', same⟩ := add_new
        exact ⟨e', keep e' he', same⟩
      · exact found e he

theorem mem_of_mem_distinct {e : Expr} {es : List Expr} (h : e ∈ Expr.distinct es) : e ∈ es := by
  simpa using (foldl_addNew es []).1 e h

theorem meetValue_distinct (es : List Expr) :
    meetValue ρ θ (Expr.distinct es) = meetValue ρ θ es := by
  apply eq_of_forall_le_iff
  intro v
  rw [le_meetValue_iff, le_meetValue_iff]
  constructor
  · intro h e he
    obtain ⟨e', he', rfl | same⟩ := (foldl_addNew es []).2.2 e he
    · exact h e' he'
    · exact Expr.value_eq_of_same e' e same ▸ h e' he'
  · exact fun h e he => h e (mem_of_mem_distinct he)

theorem eq_of_isTop {e : Expr} (h : e.isTop = true) : e = .literal .bivariant := by
  unfold Expr.isTop at h
  split at h
  · rfl
  · cases h

theorem value_of_isTop {e : Expr} (h : e.isTop = true) : e.value ρ θ = .bivariant := by
  rw [eq_of_isTop h]
  rfl

theorem mem_of_mem_withoutTop {e : Expr} {es : List Expr} (h : e ∈ Expr.withoutTop es) :
    e ∈ es ∨ e = .literal .bivariant := by
  unfold Expr.withoutTop at h
  simp only at h
  split at h
  · split at h
    · exact .inr (List.mem_singleton.1 h)
    · exact .inl (List.mem_of_mem_filter h)
  · exact .inl h

theorem meetValue_withoutTop (es : List Expr) :
    meetValue ρ θ (Expr.withoutTop es) = meetValue ρ θ es := by
  apply eq_of_forall_le_iff
  intro v
  rw [le_meetValue_iff, le_meetValue_iff]
  constructor
  · intro h e he
    by_cases top : e.isTop = true
    · rw [value_of_isTop top]
      exact Variance.le_bivariant v
    · have kept : e ∈ es.filter (!·.isTop) := List.mem_filter.2 ⟨he, by simpa using top⟩
      refine h e ?_
      unfold Expr.withoutTop
      simp only
      split
      · split
        · rename_i empty
          exact absurd (List.isEmpty_iff.1 empty) (List.ne_nil_of_mem kept)
        · exact kept
      · exact he
  · intro h e he
    obtain he | rfl := mem_of_mem_withoutTop he
    · exact h e he
    · exact Variance.le_bivariant v

theorem meetValue_gathered (reductions : List (List Expr)) :
    meetValue ρ θ (gathered reductions) = Variance.meetAll (reductions.map (meetValue ρ θ)) := by
  rw [gathered, meetValue_withoutTop, meetValue_distinct]
  apply eq_of_forall_le_iff
  intro v
  simp only [le_meetValue_iff, Variance.le_meetAll_iff, List.forall_mem_map, List.mem_flatten]
  constructor
  · exact fun h es hes e he => h e ⟨es, hes, he⟩
  · rintro h e ⟨es, hes, he⟩
    exact h es hes e he

theorem value_reducedTransform (l r : Expr) :
    (Expr.reducedTransform l r).value ρ θ = (l.value ρ θ).transform (r.value ρ θ) := by
  fun_cases Expr.reducedTransform l r with
  | case1 a b => rfl
  | case2 r => rfl
  | case3 l => cases l.value ρ θ <;> rfl
  | case4 r => exact (Variance.transform_distributes.top_left _).symm
  | case5 l => exact (Variance.transform_distributes.top _).symm
  | case6 l r => rfl

theorem value_reducedJoin (l r : Expr) :
    (Expr.reducedJoin l r).value ρ θ = (l.value ρ θ).join (r.value ρ θ) := by
  fun_cases Expr.reducedJoin l r with
  | case1 a b => rfl
  | case2 r => exact (Variance.join_distributes.top_left _).symm
  | case3 l => exact (Variance.join_distributes.top _).symm
  | case4 r => cases r.value ρ θ <;> rfl
  | case5 l => cases l.value ρ θ <;> rfl
  | case6 l r => rfl

theorem meetValue_combine {op : Expr → Expr → Expr} {f : Variance → Variance → Variance}
    (hop : ∀ l r, (op l r).value ρ θ = f (l.value ρ θ) (r.value ρ θ))
    (hf : Variance.Distributes f) (ls rs : List Expr) :
    meetValue ρ θ (Expr.combine op ls rs) = f (meetValue ρ θ ls) (meetValue ρ θ rs) := by
  rw [Expr.combine, meetValue_distinct]
  simp only [meetValue, hf.meetAll_combinations, List.map_flatMap, List.flatMap_map, List.map_map,
    Function.comp_def, hop]

/-- An expression is worth what its reduction comes to, when that is so of its
occurrences. -/
theorem meetValue_reduceWith {f : Occurrence → List Expr} {e : Expr}
    (h : ∀ o ∈ e.occurrences, meetValue ρ θ (f o) = θ' o.key) :
    meetValue ρ θ (e.reduceWith f) = e.value ρ θ' := by
  induction e with
  | absent => exact meetValue_singleton _
  | literal v => exact meetValue_singleton _
  | param r => exact meetValue_singleton _
  | occurrence o => exact h o (.head _)
  | transform l r ihl ihr =>
    rw [Expr.reduceWith, meetValue_combine value_reducedTransform Variance.transform_distributes,
      ihl fun o ho => h o (List.mem_append_left _ ho),
      ihr fun o ho => h o (List.mem_append_right _ ho), Expr.value]
  | join l r ihl ihr =>
    rw [Expr.reduceWith, meetValue_combine value_reducedJoin Variance.join_distributes,
      ihl fun o ho => h o (List.mem_append_left _ ho),
      ihr fun o ho => h o (List.mem_append_right _ ho), Expr.value]

end

/-! ## The values that bounds force -/

/-- Occurrences are below their bounds. -/
def Respects (bounds : Bounds) (ρ : Assignment) (θ : OccurrenceKey → Variance) : Prop :=
  ∀ k, ∀ e ∈ bounds k, θ k ≤ e.value ρ θ

/-- Some occurrence with the given key. -/
def OccurrenceKey.sample (k : OccurrenceKey) : Occurrence := ⟨k.param, .mk [] [] k.span⟩

theorem key_sample (k : OccurrenceKey) : k.sample.key = k := rfl

/-- The greatest values of occurrences that their bounds allow; those without bounds
have the values `θ`. -/
def tightest (bounds : Bounds) (depth : Nat) (ρ : Assignment) (θ : OccurrenceKey → Variance) :
    OccurrenceKey → Variance :=
  fun k => meetValue ρ θ (resolve bounds depth k.sample)

section
variable {bounds : Bounds} {depth : Nat} {ρ : Assignment} {θ : OccurrenceKey → Variance}

/-- What an occurrence stands for depends on its key only. -/
theorem meetValue_resolve (hd : Exhausts bounds depth) (o : Occurrence) :
    meetValue ρ θ (resolve bounds depth o) = tightest bounds depth ρ θ o.key := by
  have key := key_sample o.key
  unfold tightest
  by_cases h : bounds o.key = []
  · rw [resolve_of_nil h, resolve_of_nil (key ▸ h), meetValue_singleton, meetValue_singleton]
    rfl
  · rw [resolve_of_ne_nil hd h, resolve_of_ne_nil hd (key ▸ h), key]

theorem meetValue_reduce (hd : Exhausts bounds depth) (e : Expr) :
    meetValue ρ θ (reduce bounds depth e) = e.value ρ (tightest bounds depth ρ θ) :=
  meetValue_reduceWith fun o _ => meetValue_resolve hd o

theorem tightest_of_nil {k : OccurrenceKey} (h : bounds k = []) :
    tightest bounds depth ρ θ k = θ k := by
  rw [tightest, resolve_of_nil (key_sample k ▸ h), meetValue_singleton]
  rfl

/-- An occurrence with bounds is forced to their meet. -/
theorem tightest_of_ne_nil (hd : Exhausts bounds depth) {k : OccurrenceKey} (h : bounds k ≠ []) :
    tightest bounds depth ρ θ k =
      meetValue ρ (tightest bounds depth ρ θ) (bounds k) := by
  rw [tightest, resolve_of_ne_nil hd (key_sample k ▸ h), meetValue_gathered, List.map_map,
    key_sample]
  simp only [Function.comp_def, meetValue_reduce hd]
  rfl

theorem tightest_respects (hd : Exhausts bounds depth) :
    Respects bounds ρ (tightest bounds depth ρ θ) := by
  intro k e he
  rw [tightest_of_ne_nil hd (List.ne_nil_of_mem he)]
  exact le_meetValue_iff.1 le_rfl e he

/-- Values that respect the bounds are below those that the bounds force. -/
theorem le_tightest (hd : Exhausts bounds depth) (hθ : Respects bounds ρ θ) {d : Nat}
    {k : OccurrenceKey} (ends : Ends bounds d k) : θ k ≤ tightest bounds depth ρ θ k := by
  by_cases h : bounds k = []
  · rw [tightest_of_nil h]
  · induction d generalizing k with
    | zero => exact absurd ends h
    | succ d ih =>
      rw [tightest_of_ne_nil hd h, le_meetValue_iff]
      intro e he
      refine (hθ k e he).trans (Expr.value_mono le_rfl fun o ho => ?_)
      by_cases ho' : bounds o.key = []
      · rw [tightest_of_nil ho']
      · exact ih (ends _ ⟨e, he, o, ho, rfl⟩) ho'

/-! ## What is left after reduction -/

theorem over_reducedTransform {P : ParamKey → Prop} {Q : OccurrenceKey → Prop} {l r : Expr}
    (hl : l.Over P Q) (hr : r.Over P Q) : (Expr.reducedTransform l r).Over P Q := by
  fun_cases Expr.reducedTransform l r with
  | case1 => trivial
  | case2 => exact hr
  | case3 => exact hl
  | case4 => trivial
  | case5 => trivial
  | case6 => exact ⟨hl, hr⟩

theorem over_reducedJoin {P : ParamKey → Prop} {Q : OccurrenceKey → Prop} {l r : Expr}
    (hl : l.Over P Q) (hr : r.Over P Q) : (Expr.reducedJoin l r).Over P Q := by
  fun_cases Expr.reducedJoin l r with
  | case1 => trivial
  | case2 => trivial
  | case3 => trivial
  | case4 => exact hr
  | case5 => exact hl
  | case6 => exact ⟨hl, hr⟩

theorem forall_combine {S : Expr → Prop} {op : Expr → Expr → Expr} {ls rs : List Expr}
    (hop : ∀ l r, S l → S r → S (op l r)) (hl : ∀ l ∈ ls, S l) (hr : ∀ r ∈ rs, S r) :
    ∀ e ∈ Expr.combine op ls rs, S e := by
  intro e he
  have he := mem_of_mem_distinct he
  simp only [List.mem_flatMap, List.mem_map] at he
  obtain ⟨l, hl', r, hr', rfl⟩ := he
  exact hop l r (hl l hl') (hr r hr')

theorem forall_gathered {S : Expr → Prop} {reductions : List (List Expr)}
    (top : S (.literal .bivariant)) (h : ∀ es ∈ reductions, ∀ e ∈ es, S e) :
    ∀ e ∈ gathered reductions, S e := by
  intro e he
  obtain he | rfl := mem_of_mem_withoutTop he
  · obtain ⟨es, hes, he⟩ := List.mem_flatten.1 (mem_of_mem_distinct he)
    exact h es hes e he
  · exact top

theorem over_reduceWith {P : ParamKey → Prop} {Q Q' : OccurrenceKey → Prop}
    {f : Occurrence → List Expr} {e : Expr} (he : e.Over P Q)
    (h : ∀ o ∈ e.occurrences, Q o.key → ∀ e' ∈ f o, e'.Over P Q') :
    ∀ e' ∈ e.reduceWith f, e'.Over P Q' := by
  induction e with
  | absent => exact he.elim
  | literal v =>
    intro e' he'
    obtain rfl := List.mem_singleton.1 he'
    trivial
  | param r =>
    intro e' he'
    obtain rfl := List.mem_singleton.1 he'
    exact he
  | occurrence o => exact h o (.head _) he
  | transform l r ihl ihr =>
    exact forall_combine (fun _ _ => over_reducedTransform)
      (ihl he.1 fun o ho => h o (List.mem_append_left _ ho))
      (ihr he.2 fun o ho => h o (List.mem_append_right _ ho))
  | join l r ihl ihr =>
    exact forall_combine (fun _ _ => over_reducedJoin)
      (ihl he.1 fun o ho => h o (List.mem_append_left _ ho))
      (ihr he.2 fun o ho => h o (List.mem_append_right _ ho))

/-- Every occurrence in `Q` has bounds, and they mention no others. -/
def ClosedBounds (bounds : Bounds) (P : ParamKey → Prop) (Q : OccurrenceKey → Prop) : Prop :=
  ∀ k, Q k → bounds k ≠ [] ∧ ∀ e ∈ bounds k, e.Over P Q

theorem over_resolve {P : ParamKey → Prop} {Q : OccurrenceKey → Prop}
    (closed : ClosedBounds bounds P Q) {o : Occurrence} (ends : Ends bounds depth o.key)
    (ho : Q o.key) : ∀ e ∈ resolve bounds depth o, e.Over P (fun _ => False) := by
  induction depth generalizing o with
  | zero => exact absurd ends (closed _ ho).1
  | succ depth ih =>
    rw [resolve_succ (closed _ ho).1]
    refine forall_gathered trivial (List.forall_mem_map.2 fun e he => ?_)
    apply over_reduceWith ((closed _ ho).2 e he)
    intro o' ho' hq
    exact ih (ends _ ⟨e, he, o', ho', rfl⟩) hq

/-- No occurrence is left once all of them have bounds. -/
theorem over_reduce {P : ParamKey → Prop} {Q : OccurrenceKey → Prop}
    (closed : ClosedBounds bounds P Q) (hd : Exhausts bounds depth) {e : Expr}
    (he : e.Over P Q) : ∀ e' ∈ reduce bounds depth e, e'.Over P (fun _ => False) :=
  over_reduceWith he fun o _ ho => over_resolve closed (hd o.key) ho

end

end Polarity

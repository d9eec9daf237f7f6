import Polarity.Proofs.Fixpoint

/-!
# Sweeping comes to rest

Sweeping until nothing changes has a limit, twice the number of declared parameters and one more.
Here a run is taken apart into its single steps, one for every constraint in every sweep, and the
limit is never what ends it.

* `Recorded`: each constraint was judged under the variances that the ones before it left;
* `Recorded.replay_le`: so every parameter only descends, also within a sweep;
* `Recorded.narrowings_le`: and descends no more often than its rank allows;
* `settle_of_le`: a limit that was not needed makes no difference;
* `fixpoint_comesToRest`: all of it, for the strategy `fixpoint`.
-/

namespace Polarity

/-! ## Runs step by step -/

/-- The variances after some constraints did what they did. -/
def replay (ρ : Assignment) (findings : List Finding) : Assignment :=
  findings.foldl (fun ρ f => f.2.apply ρ) ρ

/-- The findings of a run from `ρ` on: each constraint was judged under the variances that the
ones before it left. -/
def Recorded (declared : List ParamKey) : Assignment → List Finding → Prop
  | _, [] => True
  | ρ, f :: rest => f.2 = f.1.verdict declared ρ ∧ Recorded declared (f.2.apply ρ) rest

/-- Whether the variance of the parameter `key` changes. -/
def Verdict.narrows (key : ParamKey) : Verdict → Bool
  | .narrowed ref _ _ => ref.key == key
  | .unrelated | .unresolved | .undeclared _ | .kept => false

section
variable {declared : List ParamKey} {constraints : List Constraint} {ρ : Assignment}
  {fs gs : List Finding}

theorem narrows_of_not_changes {v : Verdict} (h : v.changes = false) (key : ParamKey) :
    v.narrows key = false := by
  cases v with
  | narrowed ref before after => cases h
  | _ => rfl

theorem replay_cons (f : Finding) : replay ρ (f :: fs) = replay (f.2.apply ρ) fs := rfl

theorem replay_append : replay ρ (fs ++ gs) = replay (replay ρ fs) gs := List.foldl_append

theorem Recorded.append (h : Recorded declared ρ fs) (h' : Recorded declared (replay ρ fs) gs) :
    Recorded declared ρ (fs ++ gs) := by
  induction fs generalizing ρ with
  | nil => exact h'
  | cons f fs ih => exact ⟨h.1, ih h.2 h'⟩

/-- A run can be resumed behind any of its steps. -/
theorem Recorded.drop (h : Recorded declared ρ fs) (k : Nat) :
    Recorded declared (replay ρ (fs.take k)) (fs.drop k) := by
  induction fs generalizing ρ k with
  | nil => rw [List.take_nil, List.drop_nil]; trivial
  | cons f fs ih =>
    cases k with
    | zero => exact h
    | succ k => exact ih h.2 k

theorem Recorded.take (h : Recorded declared ρ fs) (k : Nat) :
    Recorded declared ρ (fs.take k) := by
  induction fs generalizing ρ k with
  | nil => simpa using h
  | cons f fs ih =>
    cases k with
    | zero => trivial
    | succ k => exact ⟨h.1, ih h.2 k⟩

theorem Recorded.verdict_eq (h : Recorded declared ρ fs) {k : Nat} {f : Finding}
    (hf : fs[k]? = some f) : f.2 = f.1.verdict declared (replay ρ (fs.take k)) := by
  obtain ⟨lt, rfl⟩ := List.getElem?_eq_some_iff.1 hf
  have rest := h.drop k
  rw [List.drop_eq_getElem_cons lt] at rest
  exact rest.1

theorem Recorded.replay_le (h : Recorded declared ρ fs) : replay ρ fs ≤ ρ := by
  induction fs generalizing ρ with
  | nil => exact le_rfl
  | cons f fs ih =>
    have first : f.2.apply ρ ≤ ρ := by
      rw [h.1]
      exact apply_le f.1 ρ
    exact (ih h.2).trans first

/-- Later variances are below earlier ones. -/
theorem Recorded.descends (h : Recorded declared ρ fs) {j k : Nat} (le : j ≤ k) :
    replay ρ (fs.take k) ≤ replay ρ (fs.take j) := by
  obtain ⟨n, rfl⟩ := Nat.exists_eq_add_of_le le
  rw [List.take_add, replay_append]
  exact ((h.drop j).take n).replay_le

/-- Every narrowing of a parameter uses up some of its rank. -/
theorem Recorded.narrowings_le (h : Recorded declared ρ fs) (key : ParamKey) :
    fs.countP (·.2.narrows key) + (replay ρ fs key).rank ≤ (ρ key).rank := by
  induction fs generalizing ρ with
  | nil => simp [replay]
  | cons f fs ih =>
    have rest := ih h.2
    rw [List.countP_cons, replay_cons]
    have step : (if f.2.narrows key = true then 1 else 0) + (f.2.apply ρ key).rank ≤
        (ρ key).rank := by
      rw [h.1]
      obtain ⟨-, quiet, same⟩ | ⟨r, -, -, -, above, narrowed⟩ :=
        verdict_cases declared f.1 ρ fun _ => .bivariant
      · rw [same, narrows_of_not_changes quiet key]
        simp
      · rw [narrowed]
        by_cases own : r.key = key
        · subst own
          have less := Variance.rank_meet_lt above
          simp only [Verdict.narrows, BEq.rfl, ↓reduceIte, Verdict.apply, set_self]
          omega
        · have other : key ≠ r.key := fun eq => own eq.symm
          simp [Verdict.narrows, own, Verdict.apply, set_of_ne ρ other]
    omega

/-! ## Sweeps as runs -/

theorem sweep_recorded (declared : List ParamKey) (constraints : List Constraint)
    (ρ : Assignment) :
    Recorded declared ρ (sweep declared ρ constraints).2 ∧
    replay ρ (sweep declared ρ constraints).2 = (sweep declared ρ constraints).1 ∧
    (sweep declared ρ constraints).2.map (·.1) = constraints := by
  induction constraints generalizing ρ with
  | nil => exact ⟨trivial, rfl, rfl⟩
  | cons c rest ih =>
    obtain ⟨recorded, last, order⟩ := ih ((c.verdict declared ρ).apply ρ)
    exact ⟨⟨rfl, recorded⟩, last, congrArg (c :: ·) order⟩

theorem settle_recorded (declared : List ParamKey) (constraints : List Constraint) (limit : Nat)
    (ρ : Assignment) :
    Recorded declared ρ (settle declared constraints limit ρ).findings ∧
    replay ρ (settle declared constraints limit ρ).findings =
      (settle declared constraints limit ρ).assignment ∧
    (settle declared constraints limit ρ).findings.map (·.1) =
      (List.replicate (settle declared constraints limit ρ).count constraints).flatten := by
  induction limit generalizing ρ with
  | zero => exact ⟨trivial, rfl, rfl⟩
  | succ limit ih =>
    obtain ⟨recorded, last, order⟩ := sweep_recorded declared constraints ρ
    simp only [settle]
    split
    · obtain ⟨recorded', last', order'⟩ := ih (sweep declared ρ constraints).1
      refine ⟨recorded.append (last.symm ▸ recorded'), ?_, ?_⟩
      · rw [replay_append, last, last']
      · rw [List.map_append, order, order', List.replicate_succ, List.flatten_cons]
    · refine ⟨recorded, last, ?_⟩
      rw [order]
      simp

theorem settle_count_le (constraints : List Constraint) (limit : Nat) (ρ : Assignment) :
    (settle declared constraints limit ρ).count ≤ limit := by
  induction limit generalizing ρ with
  | zero => exact Nat.le_refl 0
  | succ limit ih =>
    simp only [settle]
    split
    · exact Nat.succ_le_succ (ih _)
    · exact Nat.succ_le_succ (Nat.zero_le limit)

/-- Sweeps that came to rest under a limit do the same under every greater one. -/
theorem settle_of_le {limit limit' : Nat}
    (h : (settle declared constraints limit ρ).converged = true) (le : limit ≤ limit') :
    settle declared constraints limit' ρ = settle declared constraints limit ρ := by
  induction limit generalizing ρ limit' with
  | zero => cases h
  | succ limit ih =>
    obtain ⟨n, rfl⟩ : ∃ n, limit' = n + 1 := ⟨limit' - 1, by omega⟩
    simp only [settle] at h ⊢
    split
    · rename_i changed
      rw [if_pos changed] at h
      rw [ih h (by omega)]
    · rfl

end

/-! ## The strategy `fixpoint` -/

/-- Sweeps over the parameters of some classes that came to rest, with the solution `s`. -/
structure ComesToRest (classes : ClassTable) (constraints : List Constraint) (s : Solution) :
    Prop where
  /-- The last sweep changed nothing, -/
  converged : s.converged = true
  /-- and before it there were two for each declared parameter at most. -/
  sweeps : s.sweeps ≤ 2 * classes.params.length + 1
  /-- One more sweep would change nothing. -/
  idle : (sweep classes.keys s.assignment constraints).1 = s.assignment ∧
    anyChange (sweep classes.keys s.assignment constraints).2 = false
  /-- Each sweep took all constraints in their order, -/
  order : s.findings.map (·.1) = (List.replicate s.sweeps constraints).flatten
  /-- each of them was judged under the variances that the ones before it left, -/
  judged : ∀ (k : Nat) (f : Finding), s.findings[k]? = some f →
    f.2 = f.1.verdict classes.keys (replay .top (s.findings.take k))
  /-- and the solution is what the last one left. -/
  last : s.assignment = replay .top s.findings
  /-- On the way every parameter only descended, -/
  descends : ∀ j k : Nat, j ≤ k →
    replay .top (s.findings.take k) ≤ replay .top (s.findings.take j)
  /-- and that twice at most. -/
  twice : ∀ key, s.findings.countP (·.2.narrows key) ≤ 2

/-- **The strategy `fixpoint` comes to rest within its limit**, for all classes, with names repeated
or not, and all constraints. The limit never ends it, so that a greater one makes no difference. -/
theorem fixpoint_comesToRest (classes : ClassTable) (constraints : List Constraint)
    (passes : Int) :
    ComesToRest classes constraints (solve classes constraints .fixpoint passes) ∧
    ∀ limit, 2 * classes.params.length + 1 ≤ limit →
      settle classes.keys constraints limit .top =
        runSweeps classes constraints .fixpoint passes := by
  have converged := fixpoint_converged classes constraints passes
  obtain ⟨recorded, last, order⟩ := settle_recorded classes.keys constraints
    (2 * classes.params.length + 1) .top
  have solved := (solve_isGreatest converged).1
  have quiet := sweep_of_solves solved
  refine ⟨⟨converged, settle_count_le .., ⟨(sweep_idle quiet).1, quiet⟩, order,
    fun k f hf => recorded.verdict_eq hf, ?_, fun j k le => recorded.descends le, ?_⟩, ?_⟩
  · rw [solve_assignment]
    exact last.symm
  · intro key
    have spent := recorded.narrowings_le key
    have rank := Variance.rank_le_two (Assignment.top key)
    change (settle classes.keys constraints _ .top).findings.countP _ ≤ 2
    omega
  · intro limit le
    exact settle_of_le converged le

/-- The limit can be reached: here a parameter is narrowed in the first sweep and in the second one,
since the constraint that reads it stands before the one that bounds it. -/
example :
    let box : ClassDecl := ⟨"Box", ["T"], [], .nowhere⟩
    let T : Expr := .param (box.ref "T")
    (solve ⟨[box]⟩ [⟨T, .transform (.literal .contravariant) T, none⟩,
      ⟨T, .literal .covariant, none⟩] .fixpoint 0).sweeps = 3 := by
  decide

end Polarity

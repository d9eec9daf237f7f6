import Mathlib.Logic.Relation
import Polarity.Command

/-!
# Tasks that run at the same time

The command `infer` works on each of its sources in a task of its own, and the tasks run at the same
time, in a group. A task looks whether the context of the group is cancelled, infers, and puts down
an output and a failure at the place of its source; steps of different tasks may come in any order.
What runs the tasks and waits for them is any package that does so as it should.

* `TaskGroup`, `TaskGroup.Lawful`: a package for groups of tasks;
* `Pool.Step`: one step of one of the tasks, or a cancellation;
* `Pool.Step.kept`, `reachable_kept`: what is put down belongs to the source of its place;
* `Pool.Step.rank_lt`, `exists_end`: the tasks come to an end;
* `results_of_finished`, `work_eq_map`: the results do not depend on the order of the steps;
* `Pool.Step.idle`, `reachable_idle`: what is cancelled at first never begins.
-/

namespace Polarity

open Relation (ReflTransGen)

/-! ## Groups of tasks -/

/-- What a group knows of one of its tasks. -/
inductive TaskState where
  /-- It has not been run yet. -/
  | waiting
  | running
  /-- It has returned, with an error or without one. -/
  | returned (failed : Bool)
  deriving DecidableEq, Repr

/-- The task has returned. -/
def TaskState.HasReturned (t : TaskState) : Prop := ∃ failed, t = .returned failed

/-- A package for groups of tasks. Each group has a context, which is derived from another one. -/
structure TaskGroup where
  /-- The group may run the task at a place. -/
  runs : List TaskState → Nat → Prop
  /-- A task may find that the context of the group is cancelled, or that it is not, when the one it
  is derived from has been cancelled or not. -/
  finds : (cancelled : Bool) → List TaskState → (found : Bool) → Prop
  /-- Waiting for the tasks may come to an end, with an error or without one. -/
  ends : List TaskState → (failed : Bool) → Prop

/-- The package runs every task, cancels the context of a group only for an error of a task, or with
the context it is derived from, and waits for all tasks and their errors. -/
structure TaskGroup.Lawful (g : TaskGroup) : Prop where
  /-- No task waits for ever: when none is running, one of those that wait may be run. -/
  runs_every : ∀ tasks, .waiting ∈ tasks → .running ∉ tasks →
    ∃ i : Nat, tasks[i]? = some .waiting ∧ g.runs tasks i
  finds_some : ∀ cancelled tasks, ∃ found, g.finds cancelled tasks found
  cancelled_only : ∀ cancelled tasks, g.finds cancelled tasks true →
    cancelled = true ∨ .returned true ∈ tasks
  cancelled_with : ∀ tasks, ¬ g.finds true tasks false
  ends_after : ∀ tasks failed, g.ends tasks failed → ∀ t ∈ tasks, t.HasReturned
  ends_some : ∀ tasks, (∀ t ∈ tasks, t.HasReturned) → ∃ failed, g.ends tasks failed
  failed_iff : ∀ tasks failed, g.ends tasks failed → (failed = true ↔ .returned true ∈ tasks)

/-- A package that may run every task at once. -/
def TaskGroup.plain : TaskGroup where
  runs _ _ := True
  finds cancelled tasks found := found = (cancelled || tasks.contains (.returned true))
  ends tasks failed :=
    (∀ t ∈ tasks, t.HasReturned) ∧ failed = tasks.contains (.returned true)

theorem plain_group_lawful : TaskGroup.plain.Lawful where
  runs_every tasks waiting _ := by
    obtain ⟨i, inRange, here⟩ := List.getElem_of_mem waiting
    exact ⟨i, here ▸ List.getElem?_eq_getElem inRange, trivial⟩
  finds_some cancelled tasks := ⟨_, rfl⟩
  cancelled_only cancelled tasks found := by
    simpa [TaskGroup.plain] using found.symm
  cancelled_with tasks found := by
    simp [TaskGroup.plain] at found
  ends_after tasks failed ended := ended.1
  ends_some tasks returned := ⟨_, returned, rfl⟩
  failed_iff tasks failed ended := by
    rw [ended.2, List.contains_iff_mem]

/-! ## The work on several sources -/

/-- How far the task of a source has come. -/
inductive Progress where
  /-- It has not been run. -/
  | waiting
  /-- It has been run, and has not looked at the context yet. -/
  | started
  /-- It goes on, as nothing was cancelled then. -/
  | working
  /-- The output has been put down, the failure has not. -/
  | halfway
  /-- Both have been put down, and it has returned. -/
  | finished
  /-- It has returned an error, as something was cancelled. -/
  | refused
  deriving DecidableEq, Repr

/-- What the group knows of the task. -/
def Progress.task : Progress → TaskState
  | .waiting => .waiting
  | .started | .working | .halfway => .running
  | .finished => .returned false
  | .refused => .returned true

/-- The output of a result. A failure has none. -/
def outputOf : Except Text Text → Text
  | .ok shown => shown
  | .error _ => []

/-- The failure of a result, if it is one. -/
def failureOf : Except Text Text → Option Text
  | .ok _ => none
  | .error failure => some failure

/-- The result with an output and perhaps a failure. -/
def resultOf (output : Text) : Option Text → Except Text Text
  | none => .ok output
  | some failure => .error failure

theorem resultOf_parts (r : Except Text Text) : resultOf (outputOf r) (failureOf r) = r := by
  cases r <;> rfl

/-- What the command does once results have been written: it fails if some source has. -/
def Writing.outcome (w : Writing) (log : List Text) : Outcome where
  out := w.out
  err := w.err
  log := log
  failure := if w.failed.isEmpty then none else some (.failed w.failed)

/-- Sources that are worked on. Outputs and failures are shared by all, with a place in both for
each source. -/
structure Pool where
  progress : List Progress
  outputs : List Text
  failures : List (Option Text)
  /-- Whether the command has been cancelled. -/
  cancelled : Bool
  deriving DecidableEq, Repr

namespace Pool

/-- No task has been run yet. -/
def start (count : Nat) (cancelled : Bool) : Pool :=
  ⟨.replicate count .waiting, .replicate count [], .replicate count none, cancelled⟩

/-- What the group knows of the tasks. -/
def tasks (p : Pool) : List TaskState := p.progress.map Progress.task

/-- The results that have been put down. -/
def results (p : Pool) : Batch (Except Text Text) :=
  List.zipWith (fun output failure => some (resultOf output failure)) p.outputs p.failures

/-- What the command does when it has waited for the tasks and `log` has been logged. If that ended
with an error, nothing is written. -/
def outcome (settings : Settings) (sources : List Source) (log : List Text) (p : Pool)
    (failed : Bool) : Outcome :=
  if failed then { log, failure := some .interrupted }
  else (Writing.all settings sources p.results).outcome log

/-- One step of one of the tasks in a group, or a cancellation of the command. -/
inductive Step (g : TaskGroup) (job : Source → Except Text Text) (sources : List Source) :
    Pool → Pool → Prop
  | cancel (p : Pool) (running : p.cancelled = false) :
      Step g job sources p { p with cancelled := true }
  | run (p : Pool) (i : Nat) (waiting : p.progress[i]? = some .waiting)
      (runs : g.runs p.tasks i) :
      Step g job sources p { p with progress := p.progress.set i .started }
  | enter (p : Pool) (i : Nat) (started : p.progress[i]? = some .started)
      (found : g.finds p.cancelled p.tasks false) :
      Step g job sources p { p with progress := p.progress.set i .working }
  | refuse (p : Pool) (i : Nat) (started : p.progress[i]? = some .started)
      (found : g.finds p.cancelled p.tasks true) :
      Step g job sources p { p with progress := p.progress.set i .refused }
  | output (p : Pool) (i : Nat) (s : Source) (source : sources[i]? = some s)
      (working : p.progress[i]? = some .working) :
      Step g job sources p
        { p with
          progress := p.progress.set i .halfway
          outputs := p.outputs.set i (outputOf (job s)) }
  | finish (p : Pool) (i : Nat) (s : Source) (source : sources[i]? = some s)
      (halfway : p.progress[i]? = some .halfway) :
      Step g job sources p
        { p with
          progress := p.progress.set i .finished
          failures := p.failures.set i (failureOf (job s)) }

/-- Waiting for the tasks has come to an end, after steps in some order. -/
def EndsAt (g : TaskGroup) (job : Source → Except Text Text) (sources : List Source)
    (cancelled : Bool) (p : Pool) (failed : Bool) : Prop :=
  ReflTransGen (Step g job sources) (start sources.length cancelled) p ∧ g.ends p.tasks failed

/-- All tasks have returned. -/
def Ended (p : Pool) : Prop := ∀ x ∈ p.progress, x = .finished ∨ x = .refused

end Pool

section
variable {p : Pool}

theorem returned_iff : (∀ t ∈ p.tasks, t.HasReturned) ↔ p.Ended := by
  rw [Pool.tasks, List.forall_mem_map, Pool.Ended]
  refine forall₂_congr fun x _ => ?_
  cases x <;> simp [Progress.task, TaskState.HasReturned]

theorem failed_task_iff : .returned true ∈ p.tasks ↔ .refused ∈ p.progress := by
  rw [Pool.tasks, List.mem_map]
  constructor
  · rintro ⟨x, member, failed⟩
    cases x with
    | refused => exact member
    | _ => cases failed
  · exact fun member => ⟨_, member, rfl⟩

end

/-! ## What every step keeps -/

/-- There is a place for each source, and what has been put down there is of that source. A task
returns an error only after a cancellation. -/
structure Pool.Kept (job : Source → Except Text Text) (sources : List Source) (p : Pool) :
    Prop where
  progress_length : p.progress.length = sources.length
  outputs_length : p.outputs.length = sources.length
  failures_length : p.failures.length = sources.length
  output : ∀ (i : Nat) (s : Source), sources[i]? = some s →
    p.progress[i]? = some .halfway ∨ p.progress[i]? = some .finished →
    p.outputs[i]? = some (outputOf (job s))
  failure : ∀ (i : Nat) (s : Source), sources[i]? = some s → p.progress[i]? = some .finished →
    p.failures[i]? = some (failureOf (job s))
  refused : .refused ∈ p.progress → p.cancelled = true

section
variable {g : TaskGroup} {job : Source → Except Text Text} {sources : List Source} {p q : Pool}

theorem start_kept (job : Source → Except Text Text) (sources : List Source) (cancelled : Bool) :
    (Pool.start sources.length cancelled).Kept job sources := by
  have waiting (i : Nat) (x : Progress) (h : (Pool.start sources.length cancelled).progress[i]? =
      some x) : x = .waiting := (List.eq_of_mem_replicate (List.mem_of_getElem? h))
  refine ⟨List.length_replicate, List.length_replicate, List.length_replicate, ?_, ?_, ?_⟩
  · intro i s _ put
    obtain put | put := put <;> cases waiting i _ put
  · intro i s _ put
    cases waiting i _ put
  · intro refused
    cases List.eq_of_mem_replicate refused

/-- What is put down at the place of a source stands there. -/
theorem getElem?_set_source {α : Type} {xs : List α} (count : xs.length = sources.length) {i : Nat}
    {s : Source} (source : sources[i]? = some s) (x : α) : (xs.set i x)[i]? = some x := by
  refine List.getElem?_set_self ?_
  rw [count]
  exact (List.getElem?_eq_some_iff.1 source).1

/-- Work that changes only the place of its own source keeps what is at the others. -/
theorem Pool.Kept.update (kept : p.Kept job sources) {i : Nat} {x : Progress}
    {outputs : List Text} {failures : List (Option Text)}
    (lengths : outputs.length = p.outputs.length ∧ failures.length = p.failures.length)
    (elsewhere : ∀ j, i ≠ j → outputs[j]? = p.outputs[j]? ∧ failures[j]? = p.failures[j]?)
    (output : ∀ s, sources[i]? = some s → x = .halfway ∨ x = .finished →
      outputs[i]? = some (outputOf (job s)))
    (failure : ∀ s, sources[i]? = some s → x = .finished →
      failures[i]? = some (failureOf (job s)))
    (refused : x = .refused → p.cancelled = true) :
    Pool.Kept job sources ⟨p.progress.set i x, outputs, failures, p.cancelled⟩ := by
  have here {y : Progress} (h : (p.progress.set i x)[i]? = some y) : x = y := by
    have inRange : i < (p.progress.set i x).length := (List.getElem?_eq_some_iff.1 h).1
    rw [List.length_set] at inRange
    rw [List.getElem?_set_self inRange] at h
    exact Option.some.inj h
  refine ⟨?_, ?_, ?_, ?_, ?_, ?_⟩
  · rw [List.length_set, kept.progress_length]
  · rw [lengths.1, kept.outputs_length]
  · rw [lengths.2, kept.failures_length]
  · intro j s source put
    by_cases same : i = j
    -- At the place itself what counts is how far the work has come now, not before.
    · subst same
      exact output s source (put.imp here here)
    · rw [List.getElem?_set_ne same] at put
      rw [(elsewhere j same).1]
      exact kept.output j s source put
  · intro j s source put
    by_cases same : i = j
    · subst same
      exact failure s source (here put)
    · rw [List.getElem?_set_ne same] at put
      rw [(elsewhere j same).2]
      exact kept.failure j s source put
  · intro member
    obtain member | rfl := List.mem_or_eq_of_mem_set member
    · exact kept.refused member
    · exact refused rfl

/-- **What every step keeps.** No step touches the place of another source. -/
theorem Pool.Step.kept (lawful : g.Lawful) (h : Pool.Step g job sources p q)
    (kept : p.Kept job sources) : q.Kept job sources := by
  cases h with
  | cancel running =>
    exact ⟨kept.progress_length, kept.outputs_length, kept.failures_length, kept.output,
      kept.failure, fun _ => rfl⟩
  | run i waiting runs =>
    exact kept.update ⟨rfl, rfl⟩ (fun _ _ => ⟨rfl, rfl⟩) (by simp) (by simp) (by simp)
  | enter i started found =>
    exact kept.update ⟨rfl, rfl⟩ (fun _ _ => ⟨rfl, rfl⟩) (by simp) (by simp) (by simp)
  | refuse i started found =>
    refine kept.update ⟨rfl, rfl⟩ (fun _ _ => ⟨rfl, rfl⟩) (by simp) (by simp) fun _ => ?_
    obtain cancelled | failed := lawful.cancelled_only _ _ found
    · exact cancelled
    · exact kept.refused (failed_task_iff.1 failed)
  | output i s source working =>
    refine kept.update ⟨List.length_set, rfl⟩ ?_ ?_ (by simp) (by simp)
    · intro j other
      exact ⟨List.getElem?_set_ne other, rfl⟩
    · intro t source' _
      obtain rfl : s = t := Option.some.inj (source.symm.trans source')
      exact getElem?_set_source kept.outputs_length source _
  | finish i s source halfway =>
    refine kept.update ⟨rfl, List.length_set⟩ ?_ ?_ ?_ (by simp)
    · intro j other
      exact ⟨rfl, List.getElem?_set_ne other⟩
    · intro t source' _
      exact kept.output i t source' (.inl halfway)
    · intro t source' _
      obtain rfl : s = t := Option.some.inj (source.symm.trans source')
      exact getElem?_set_source kept.failures_length source _

theorem reachable_kept (lawful : g.Lawful) (h : ReflTransGen (Pool.Step g job sources) p q)
    (kept : p.Kept job sources) : q.Kept job sources := by
  induction h with
  | refl => exact kept
  | tail _ step ih => exact step.kept lawful ih

/-! ## All tasks come to an end -/

/-- The steps that are left of the task of a source. -/
def Progress.left : Progress → Nat
  | .waiting => 4
  | .started => 3
  | .working => 2
  | .halfway => 1
  | .finished | .refused => 0

/-- The steps that are left of all tasks. -/
def Progress.leftOf : List Progress → Nat
  | [] => 0
  | x :: rest => x.left + leftOf rest

/-- The steps that are left at most, with a cancellation. -/
def Pool.rank (p : Pool) : Nat := Progress.leftOf p.progress + if p.cancelled then 0 else 1

theorem leftOf_set_lt {xs : List Progress} {i : Nat} {x y : Progress} (here : xs[i]? = some x)
    (lt : y.left < x.left) : Progress.leftOf (xs.set i y) < Progress.leftOf xs := by
  induction xs generalizing i with
  | nil => cases here
  | cons x₀ rest ih =>
    cases i with
    | zero =>
      obtain rfl : x₀ = x := Option.some.inj here
      simp only [List.set_cons_zero, Progress.leftOf]
      omega
    | succ i =>
      have later := ih (i := i) here
      simp only [List.set_cons_succ, Progress.leftOf]
      omega

/-- Every step leaves fewer to take, so no work goes on for ever. -/
theorem Pool.Step.rank_lt (h : Pool.Step g job sources p q) : q.rank < p.rank := by
  have less {i : Nat} {x y : Progress} (here : p.progress[i]? = some x) (lt : y.left < x.left) :
      Progress.leftOf (p.progress.set i y) + (if p.cancelled then 0 else 1) < p.rank :=
    Nat.add_lt_add_right (leftOf_set_lt here lt) _
  cases h with
  | cancel running =>
    simp only [Pool.rank, running, ↓reduceIte, Bool.false_eq_true]
    omega
  | run i waiting runs => exact less waiting (by decide)
  | enter i started found => exact less started (by decide)
  | refuse i started found => exact less started (by decide)
  | output i s source working => exact less working (by decide)
  | finish i s source halfway => exact less halfway (by decide)

/-- A task that is running can take a step of its own. -/
theorem exists_step_of_running (lawful : g.Lawful) (kept : p.Kept job sources)
    (running : .running ∈ p.tasks) :
    ∃ q, Pool.Step g job sources p q ∧ q.cancelled = p.cancelled := by
  obtain ⟨x, member, task⟩ := List.mem_map.1 running
  obtain ⟨i, inRange, rfl⟩ := List.getElem_of_mem member
  have here : p.progress[i]? = some p.progress[i] := List.getElem?_eq_getElem inRange
  have inSources : i < sources.length := by
    rw [← kept.progress_length]
    exact inRange
  have source : sources[i]? = some sources[i] := List.getElem?_eq_getElem inSources
  cases x : p.progress[i] with
  | started =>
    rw [x] at here
    obtain ⟨found, answer⟩ := lawful.finds_some p.cancelled p.tasks
    cases found with
    | false => exact ⟨_, .enter p i here answer, rfl⟩
    | true => exact ⟨_, .refuse p i here answer, rfl⟩
  | working => exact ⟨_, .output p i _ source (x ▸ here), rfl⟩
  | halfway => exact ⟨_, .finish p i _ source (x ▸ here), rfl⟩
  | waiting | finished | refused =>
    rw [x] at task
    cases task

/-- As long as some task has not returned, there is a step to take. -/
theorem exists_step (lawful : g.Lawful) (kept : p.Kept job sources) (more : ¬ p.Ended) :
    ∃ q, Pool.Step g job sources p q ∧ q.cancelled = p.cancelled := by
  by_cases running : .running ∈ p.tasks
  · exact exists_step_of_running lawful kept running
  · have waiting : .waiting ∈ p.tasks := by
      rw [← returned_iff] at more
      obtain ⟨t, unreturned⟩ := Classical.not_forall.1 more
      obtain ⟨member, unreturned⟩ := Classical.not_imp.1 unreturned
      cases t with
      | waiting => exact member
      | running => exact absurd member running
      | returned failed => exact absurd ⟨failed, rfl⟩ unreturned
    obtain ⟨i, next, runs⟩ := lawful.runs_every _ waiting running
    have here : p.progress[i]? = some .waiting := by
      rw [Pool.tasks, List.getElem?_map, Option.map_eq_some_iff] at next
      obtain ⟨x, here, task⟩ := next
      cases x with
      | waiting => exact here
      | _ => cases task
    exact ⟨_, .run p i here runs, rfl⟩

/-- Work that has begun can be brought to an end. -/
theorem exists_ended (lawful : g.Lawful) (kept : p.Kept job sources) :
    ∃ q, ReflTransGen (Pool.Step g job sources) p q ∧ q.Ended ∧ q.cancelled = p.cancelled := by
  -- There is a step as long as some task has not returned, and each leaves fewer to take.
  induction left : p.rank using Nat.strongRecOn generalizing p with
  | ind n ih =>
    by_cases already : p.Ended
    · exact ⟨p, .refl, already, rfl⟩
    · obtain ⟨q, step, same⟩ := exists_step lawful kept already
      obtain ⟨r, run, ended, cancelled⟩ :=
        ih q.rank (left ▸ step.rank_lt) (step.kept lawful kept) rfl
      exact ⟨r, .head step run, ended, cancelled.trans same⟩

/-- Then waiting for it comes to an end too. -/
theorem exists_end (lawful : g.Lawful) (kept : p.Kept job sources) :
    ∃ q failed, ReflTransGen (Pool.Step g job sources) p q ∧ g.ends q.tasks failed ∧
      q.cancelled = p.cancelled := by
  obtain ⟨q, run, ended, same⟩ := exists_ended lawful kept
  obtain ⟨failed, ends⟩ := lawful.ends_some _ (returned_iff.2 ended)
  exact ⟨q, failed, run, ends, same⟩

/-! ## Results do not depend on the order -/

/-- When all tasks have returned without an error, each source has its own result. -/
theorem results_of_finished (lawful : g.Lawful) (kept : p.Kept job sources)
    (ends : g.ends p.tasks false) : p.results = sources.map fun s => some (job s) := by
  have none_refused : .refused ∉ p.progress := by
    rw [← failed_task_iff, ← lawful.failed_iff _ _ ends]
    exact Bool.false_ne_true
  have finished : ∀ x ∈ p.progress, x = .finished := by
    intro x member
    refine (returned_iff.1 (lawful.ends_after _ _ ends) x member).resolve_right ?_
    rintro rfl
    exact none_refused member
  refine List.ext_getElem? fun i => ?_
  rw [Pool.results, List.getElem?_zipWith, List.getElem?_map]
  cases source : sources[i]? with
  | none =>
    have outside : p.outputs[i]? = none := by
      rw [List.getElem?_eq_none_iff, kept.outputs_length]
      exact List.getElem?_eq_none_iff.1 source
    rw [outside]
    rfl
  | some s =>
    have inRange : i < p.progress.length := by
      rw [kept.progress_length]
      exact (List.getElem?_eq_some_iff.1 source).1
    have here : p.progress[i]? = some .finished := by
      rw [List.getElem?_eq_getElem inRange, finished _ (List.getElem_mem inRange)]
    rw [kept.output i s source (.inr here), kept.failure i s source here]
    simp only [Option.map_some, resultOf_parts]

/-- After some sources have finished, their places hold their results. -/
theorem work_getElem? {α : Type} (job : Source → α) (sources : List Source) (order : List Nat)
    {b : Batch α} (count : b.length = sources.length) (i : Nat) :
    (order.foldl
      (fun b place =>
        match sources[place]? with
        | some s => b.finish place (job s)
        | none => b) b)[i]? =
      if i ∈ order then sources[i]?.map fun s => some (job s) else b[i]? := by
  induction order generalizing b with
  | nil => rfl
  | cons place rest ih =>
    rw [List.foldl_cons]
    cases source : sources[place]? with
    | none =>
      have outside : b.length ≤ place := by
        rw [count]
        exact List.getElem?_eq_none_iff.1 source
      rw [ih count]
      by_cases here : i = place
      · subst here
        rw [source, List.getElem?_eq_none_iff.2 outside]
        simp
      · simp [here]
    | some s =>
      have count' : (b.finish place (job s)).length = sources.length := by
        rw [Batch.finish, List.length_set, count]
      rw [ih count']
      by_cases here : i = place
      · subst here
        rw [Batch.finish, getElem?_set_source count source, source]
        simp
      · rw [Batch.finish, List.getElem?_set_ne (Ne.symm here)]
        simp [here]

/-- Once every source has finished, in whichever order, each has its own result. -/
theorem work_eq_map {α : Type} (job : Source → α) (sources : List Source) {order : List Nat}
    (all : ∀ i < sources.length, i ∈ order) :
    Batch.work job sources order = sources.map fun s => some (job s) := by
  have count : (Batch.start sources.length : Batch α).length = sources.length :=
    List.length_replicate
  refine List.ext_getElem? fun i => ?_
  refine (work_getElem? job sources order count i).trans ?_
  rw [List.getElem?_map]
  by_cases inRange : i < sources.length
  · rw [if_pos (all i inRange)]
  · have outside : sources[i]? = none := List.getElem?_eq_none_iff.2 (by omega)
    have unused : (Batch.start sources.length : Batch α)[i]? = none :=
      List.getElem?_eq_none_iff.2 (by omega)
    rw [outside, unused]
    exact ite_self _

end

/-! ## Cancellation before the work -/

section
variable {g : TaskGroup} {job : Source → Except Text Text} {sources : List Source} {p q : Pool}

/-- The command was cancelled before any task has looked at the context. -/
structure Pool.Idle (p : Pool) : Prop where
  cancelled : p.cancelled = true
  unbegun : ∀ x ∈ p.progress, x = .waiting ∨ x = .started ∨ x = .refused

theorem Pool.Step.idle (lawful : g.Lawful) (h : Pool.Step g job sources p q) (idle : p.Idle) :
    q.Idle := by
  obtain ⟨cancelled, unbegun⟩ := idle
  have updated {i : Nat} {y : Progress} (hy : y = .waiting ∨ y = .started ∨ y = .refused) :
      ∀ x ∈ p.progress.set i y, x = .waiting ∨ x = .started ∨ x = .refused := by
    intro x member
    obtain member | rfl := List.mem_or_eq_of_mem_set member
    · exact unbegun x member
    · exact hy
  cases h with
  | cancel running => exact ⟨rfl, unbegun⟩
  | run i waiting runs => exact ⟨cancelled, updated (.inr (.inl rfl))⟩
  | enter i started found =>
    rw [cancelled] at found
    exact absurd found (lawful.cancelled_with _)
  | refuse i started found => exact ⟨cancelled, updated (.inr (.inr rfl))⟩
  | output i s source working =>
    obtain h | h | h := unbegun _ (List.mem_of_getElem? working) <;> cases h
  | finish i s source halfway =>
    obtain h | h | h := unbegun _ (List.mem_of_getElem? halfway) <;> cases h

theorem reachable_idle (lawful : g.Lawful) (h : ReflTransGen (Pool.Step g job sources) p q)
    (idle : p.Idle) : q.Idle := by
  induction h with
  | refl => exact idle
  | tail _ step ih => exact step.idle lawful ih

/-- Nothing is written if the command was cancelled before any task was run. -/
theorem outcome_of_cancelled (lawful : g.Lawful) (some_source : sources ≠ []) {failed : Bool}
    (ends : p.EndsAt g job sources true failed) (settings : Settings) (log : List Text) :
    p.outcome settings sources log failed = { log, failure := some .interrupted } := by
  obtain ⟨run, ended⟩ := ends
  have start_idle : (Pool.start sources.length true).Idle :=
    ⟨rfl, fun x member => .inl (List.eq_of_mem_replicate member)⟩
  have idle : p.Idle := reachable_idle lawful run start_idle
  have kept := reachable_kept lawful run (start_kept job sources true)
  -- No task has gone on and all have returned, so even the first one returned an error.
  have refused : .refused ∈ p.progress := by
    have some_progress : p.progress ≠ [] := by
      rw [← List.length_pos_iff, kept.progress_length]
      exact List.length_pos_iff.2 some_source
    obtain ⟨x, member⟩ := List.exists_mem_of_ne_nil _ some_progress
    have returned := returned_iff.1 (lawful.ends_after _ _ ended) _ member
    obtain rfl | rfl | rfl := idle.unbegun x member
    · obtain h | h := returned <;> cases h
    · obtain h | h := returned <;> cases h
    · exact member
  have failed : failed = true := (lawful.failed_iff _ _ ended).2 (failed_task_iff.2 refused)
  rw [Pool.outcome, if_pos failed]

end

end Polarity

import Mathlib.Logic.Basic
import Polarity.Log

/-!
# Sections of derived loggers

A record below a warning is written for the sake of an attribute that was bound to its logger, or
to one that this logger was derived from, or is its own; only an attribute that was given outside of
all groups can be of that kind. Which records of a history are written is
told from the history alone: the level that was set last, and the way that leads from the root to
the logger.

* `BoundOn`: what is bound on the way to a logger;
* `step_reflects`, `after_reflects`: a log book holds what its history tells;
* `step_renumbered`, `run_renumbered`: loggers may stand at other places of the book;
* `sections_follow_derivations`: which records are written, and that no other logger matters.
-/

namespace Polarity

/-! ## Histories -/

/-- The level that a step sets. -/
def LogStep.level? : LogStep → Option Level
  | .setLevel level => some level
  | .bind .. | .group .. | .log .. => none

/-- The logger that a step derives one from, and what it binds to the new one. -/
def LogStep.derivation? : LogStep → Option (Nat × List Attribute)
  | .bind n attributes => some (n, attributes)
  | .group n _ => some (n, [])
  | .setLevel _ | .log .. => none

/-- The level after some steps. -/
def levelAfter (history : List LogStep) : Level :=
  (history.filterMap LogStep.level?).getLast?.getD Level.warn

/-- The derivations among some steps. The logger at place `k + 1` is the one of derivation `k`. -/
def derivations (history : List LogStep) : List (Nat × List Attribute) :=
  history.filterMap LogStep.derivation?

/-- The attribute is bound on the way from the root to the logger at a place: when this one was
derived, or on the way to the one it was derived from, which stood in the book by then. -/
inductive BoundOn (derivations : List (Nat × List Attribute)) : Nat → Attribute → Prop
  | own {k parent : Nat} {attributes : List Attribute} {a : Attribute} :
      derivations[k]? = some (parent, attributes) → a ∈ attributes → BoundOn derivations (k + 1) a
  | inherited {k parent : Nat} {attributes : List Attribute} {a : Attribute} :
      derivations[k]? = some (parent, attributes) → parent ≤ k → BoundOn derivations parent a →
      BoundOn derivations (k + 1) a

theorem getElem?_concat_of_ne {α : Type} {as : List α} {a : α} {n : Nat} (h : n ≠ as.length) :
    (as ++ [a])[n]? = as[n]? := by
  obtain known | beyond := Nat.lt_or_gt_of_ne h
  · exact List.getElem?_append_left known
  · rw [List.getElem?_eq_none (by simpa using Nat.succ_le_of_lt beyond),
      List.getElem?_eq_none (Nat.le_of_lt beyond)]

section
variable {ds : List (Nat × List Attribute)} {n : Nat} {a : Attribute}

/-- Only loggers that were derived have bound attributes. -/
theorem BoundOn.lt (h : BoundOn ds n a) : n < ds.length + 1 := by
  cases h with
  | own found _ => exact Nat.succ_lt_succ (List.getElem?_eq_some_iff.1 found).1
  | inherited found _ _ => exact Nat.succ_lt_succ (List.getElem?_eq_some_iff.1 found).1

/-- A derivation binds nothing to any logger but the new one. -/
theorem boundOn_concat_other {d : Nat × List Attribute} (other : n ≠ ds.length + 1) :
    BoundOn (ds ++ [d]) n a ↔ BoundOn ds n a := by
  have kept {k : Nat} (other : k + 1 ≠ ds.length + 1) : (ds ++ [d])[k]? = ds[k]? :=
    getElem?_concat_of_ne fun same => other (congrArg (· + 1) same)
  constructor
  · intro h
    induction h with
    | own found mem => exact .own ((kept other).symm.trans found) mem
    | inherited found le _ ih =>
      have found := (kept other).symm.trans found
      have known := (List.getElem?_eq_some_iff.1 found).1
      exact .inherited found le (ih (by omega))
  · intro h
    induction h with
    | own found mem => exact .own ((kept other).trans found) mem
    | inherited found le _ ih =>
      have known := (List.getElem?_eq_some_iff.1 found).1
      exact .inherited ((kept other).trans found) le (ih (by omega))

/-- A new logger has what it is derived with, and what the one has that it is derived from. -/
theorem boundOn_concat_new {parent : Nat} {attributes : List Attribute} :
    BoundOn (ds ++ [(parent, attributes)]) (ds.length + 1) a ↔
      a ∈ attributes ∨ BoundOn ds parent a := by
  have new : (ds ++ [(parent, attributes)])[ds.length]? = some (parent, attributes) := by simp
  constructor
  · intro h
    cases h with
    | own found mem =>
      cases new.symm.trans found
      exact .inl mem
    | inherited found le bound =>
      cases new.symm.trans found
      exact .inr ((boundOn_concat_other (by omega)).1 bound)
  · rintro (mem | bound)
    · exact .own new mem
    · have lt := bound.lt
      exact .inherited new (by omega) ((boundOn_concat_other (by omega)).2 bound)

end

/-! ## Sections of loggers -/

/-- The logger belongs to a section of the program. -/
def Logger.InSection (l : Logger) : Prop := l.sections ≠ []

section
variable {l : Logger}

theorem isSection_iff {a : Attribute} : a.isSection = true ↔
    a.groups = [] ∧ a.key = "section" ∧ ∃ name ∈ Attribute.sections, name <+: a.value := by
  simp only [Attribute.isSection, Text.startsWith, Bool.and_eq_true, decide_eq_true_eq,
    List.isEmpty_iff, List.any_eq_true, List.isPrefixOf_iff_prefix, and_assoc]

/-- Binding adds the sections of the attributes, whatever groups are open. -/
theorem inSection_bind {attributes : List Attribute} : (l.bind attributes).InSection ↔
    (∃ a ∈ attributes, a.isSection = true) ∨ l.InSection := by
  have some_section : (attributes.filter Attribute.isSection).map Attribute.value ≠ [] ↔
      ∃ a ∈ attributes, a.isSection = true := by
    simp only [ne_eq, List.map_eq_nil_iff, List.filter_eq_nil_iff, not_forall, not_not,
      exists_prop]
  rw [← some_section, Logger.InSection, Logger.bind, Logger.InSection, ne_eq,
    List.append_eq_nil_iff, not_and_or, or_comm]

theorem inSection_group {name : Text} : (l.group name).InSection ↔ l.InSection := by
  simp only [Logger.InSection, Logger.group]
  split <;> rfl

theorem Logger.writes_iff {threshold : Level} {r : Record} : l.writes threshold r = true ↔
    threshold ≤ r.level ∧
      (Level.warn ≤ r.level ∨ (∃ a ∈ r.attributes, a.isSection = true) ∨ l.InSection) := by
  simp only [Logger.writes, Logger.InSection, Bool.and_eq_true, Bool.or_eq_true,
    decide_eq_true_eq, List.any_eq_true, Bool.not_eq_true', List.isEmpty_eq_false_iff, or_assoc]
  exact and_congr_right' (or_congr_right or_comm)

end

/-! ## What a log book holds -/

namespace LogBook

/-- The book after some steps. -/
def after (b : LogBook) (steps : List LogStep) : LogBook :=
  steps.foldl (fun b s => (b.step s).1) b

/-- The book holds the level and the loggers that its history tells. -/
structure Reflects (b : LogBook) (history : List LogStep) : Prop where
  level : b.level = levelAfter history
  count : b.loggers.length = (derivations history).length + 1
  sections : ∀ n, (b.logger n).InSection ↔
    ∃ a, BoundOn (derivations history) n a ∧ a.isSection = true

section
variable {b : LogBook} {history : List LogStep} {s : LogStep}

theorem logger_concat (b : LogBook) (l : Logger) (n : Nat) :
    LogBook.logger ⟨b.level, b.loggers ++ [l]⟩ n =
      if n = b.loggers.length then l else b.logger n := by
  unfold logger
  split
  · rename_i new
    simp [new]
  · rename_i other
    rw [getElem?_concat_of_ne other]

theorem Reflects.derive (h : b.Reflects history) {parent : Nat} {attributes : List Attribute}
    {l : Logger} (derives : s.derivation? = some (parent, attributes)) (quiet : s.level? = none)
    (inSection : l.InSection ↔
      (∃ a ∈ attributes, a.isSection = true) ∨ (b.logger parent).InSection) :
    Reflects ⟨b.level, b.loggers ++ [l]⟩ (history ++ [s]) where
  level := by simp [h.level, levelAfter, quiet]
  count := by simp [h.count, derivations, derives]
  sections n := by
    have grown : derivations (history ++ [s]) = derivations history ++ [(parent, attributes)] := by
      simp [derivations, derives]
    rw [logger_concat, grown]
    split
    · rename_i new
      rw [new, h.count]
      simp only [boundOn_concat_new, or_and_right, exists_or]
      rw [inSection, h.sections]
    · rename_i other
      rw [h.count] at other
      simp only [boundOn_concat_other other]
      exact h.sections n

/-- A step keeps the book true to its history. -/
theorem step_reflects (h : b.Reflects history) (s : LogStep) :
    (b.step s).1.Reflects (history ++ [s]) := by
  cases s with
  | setLevel level =>
    have same : derivations (history ++ [.setLevel level]) = derivations history := by
      simp [derivations, LogStep.derivation?]
    exact ⟨by simp [step, levelAfter, LogStep.level?], same ▸ h.count, same ▸ h.sections⟩
  | bind n attributes => exact h.derive rfl rfl inSection_bind
  | group n name =>
    have derives : (LogStep.group n name).derivation? = some (n, []) := rfl
    refine h.derive derives rfl ?_
    rw [inSection_group]
    simp
  | log n record =>
    have level : levelAfter (history ++ [.log n record]) = levelAfter history := by
      simp [levelAfter, LogStep.level?]
    have same : derivations (history ++ [.log n record]) = derivations history := by
      simp [derivations, LogStep.derivation?]
    exact ⟨level ▸ h.level, same ▸ h.count, same ▸ h.sections⟩

theorem start_reflects : start.Reflects [] where
  level := rfl
  count := rfl
  sections n := by
    have root : start.logger n = .root := by
      cases n <;> rfl
    constructor
    · intro some_section
      rw [root] at some_section
      exact absurd rfl some_section
    · rintro ⟨a, bound, -⟩
      cases bound with
      | own found _ => cases found
      | inherited found _ _ => cases found

theorem after_reflects (h : b.Reflects history) (steps : List LogStep) :
    (b.after steps).Reflects (history ++ steps) := by
  induction steps generalizing b history with
  | nil => rwa [List.append_nil]
  | cons s rest ih =>
    have next := ih (step_reflects h s)
    rwa [List.append_assoc] at next

/-- What later steps write is up to the book that the earlier ones leave. -/
theorem run_append (b : LogBook) (steps later : List LogStep) :
    b.run (steps ++ later) = b.run steps ++ (b.after steps).run later := by
  induction steps generalizing b with
  | nil => rfl
  | cons s rest ih => simp only [List.cons_append, run, ih, after, List.foldl_cons]

theorem length_run (b : LogBook) (steps : List LogStep) : (b.run steps).length = steps.length := by
  induction steps generalizing b with
  | nil => rfl
  | cons s rest ih => simp only [run, List.length_cons, ih]

/-- The line of a record, among those of all steps. -/
theorem run_log (b : LogBook) (steps : List LogStep) (n : Nat) (record : Record)
    (later : List LogStep) : (b.run (steps ++ .log n record :: later))[steps.length]? =
      some (((b.after steps).logger n).line? (b.after steps).level record).toList := by
  rw [run_append, ← length_run b steps, List.getElem?_append_right (Nat.le_refl _), Nat.sub_self]
  rfl

/-- A record is written for what its history tells. -/
theorem Reflects.writes_iff (h : b.Reflects history) {n : Nat} {record : Record} :
    (b.logger n).writes b.level record = true ↔ levelAfter history ≤ record.level ∧
      (Level.warn ≤ record.level ∨
        ∃ a, (a ∈ record.attributes ∨ BoundOn (derivations history) n a) ∧
          a.groups = [] ∧ a.key = "section" ∧
            ∃ name ∈ Attribute.sections, name <+: a.value) := by
  rw [Logger.writes_iff, h.level, h.sections]
  simp only [isSection_iff, or_and_right, exists_or]

end

end LogBook

/-! ## Other places -/

/-- The step with loggers at other places of the book. -/
def LogStep.renumbered (place : Nat → Nat) : LogStep → LogStep
  | .setLevel level => .setLevel level
  | .bind n attributes => .bind (place n) attributes
  | .group n name => .group (place n) name
  | .log n record => .log (place n) record

namespace LogBook

/-- The loggers of one book stand in another one, at the given places; new ones come to stand at
the given places too. -/
structure Renumbered (place : Nat → Nat) (b b' : LogBook) : Prop where
  level : b'.level = b.level
  loggers : ∀ n, b'.loggers[place n]? = b.loggers[n]?
  next : ∀ i, place (b.loggers.length + i) = b'.loggers.length + i

section
variable {place : Nat → Nat} {b b' : LogBook}

theorem Renumbered.logger (h : Renumbered place b b') (n : Nat) :
    b'.logger (place n) = b.logger n := by
  rw [LogBook.logger, h.loggers, LogBook.logger]

theorem Renumbered.add (h : Renumbered place b b') (l : Logger) :
    Renumbered place ⟨b.level, b.loggers ++ [l]⟩ ⟨b'.level, b'.loggers ++ [l]⟩ where
  level := h.level
  loggers n := by
    have new : place b.loggers.length = b'.loggers.length := h.next 0
    obtain known | rfl | beyond := Nat.lt_trichotomy n b.loggers.length
    · have held := (h.loggers n).trans (List.getElem?_eq_getElem known)
      have known' := (List.getElem?_eq_some_iff.1 held).1
      rw [List.getElem?_append_left known', List.getElem?_append_left known, h.loggers]
    · simp [new]
    · obtain ⟨i, rfl⟩ := Nat.exists_eq_add_of_lt beyond
      have far : place (b.loggers.length + i + 1) = b'.loggers.length + i + 1 := h.next (i + 1)
      rw [getElem?_concat_of_ne (by omega), getElem?_concat_of_ne (by omega), h.loggers]
  next i := by simpa [Nat.add_assoc, Nat.add_comm 1 i] using h.next (i + 1)

/-- Steps on loggers at other places write the same. -/
theorem step_renumbered (h : Renumbered place b b') (s : LogStep) :
    (b'.step (s.renumbered place)).2 = (b.step s).2 ∧
      Renumbered place (b.step s).1 (b'.step (s.renumbered place)).1 := by
  cases s with
  | setLevel level => exact ⟨rfl, rfl, h.loggers, h.next⟩
  | bind n attributes =>
    simp only [LogStep.renumbered, step, h.logger]
    exact ⟨trivial, h.add _⟩
  | group n name =>
    simp only [LogStep.renumbered, step, h.logger]
    exact ⟨trivial, h.add _⟩
  | log n record =>
    simp only [LogStep.renumbered, step, h.logger, h.level]
    exact ⟨trivial, h⟩

theorem run_renumbered (h : Renumbered place b b') (steps : List LogStep) :
    b'.run (steps.map (·.renumbered place)) = b.run steps := by
  induction steps generalizing b b' with
  | nil => rfl
  | cons s rest ih =>
    obtain ⟨same, next⟩ := step_renumbered h s
    rw [List.map_cons, run, run, same, ih next]

end

end LogBook

/-- The place of a logger once the step has been taken after the history: one that the history
does not have makes way for what the step adds. -/
def placeAfter (history : List LogStep) (s : LogStep) (n : Nat) : Nat :=
  if n ≤ (derivations history).length then n else n + (derivations [s]).length

/-- A step that sets no level leaves the loggers as they are, at their places. -/
theorem LogBook.Reflects.renumbered {b : LogBook} {history : List LogStep}
    (h : b.Reflects history) {s : LogStep} (quiet : s.level? = none) :
    Renumbered (placeAfter history s) b (b.step s).1 := by
  have count := h.count
  -- A logger is added behind the old ones, and those to come are one further.
  have added (l : Logger) :
      Renumbered (fun n => if n ≤ (derivations history).length then n else n + 1) b
        ⟨b.level, b.loggers ++ [l]⟩ := by
    refine ⟨rfl, fun n => ?_, fun i => ?_⟩
    · dsimp only
      split
      · exact getElem?_concat_of_ne (by omega)
      · rw [getElem?_concat_of_ne (by omega), List.getElem?_eq_none (by omega),
          List.getElem?_eq_none (by omega)]
    · simp only [List.length_append, List.length_singleton]
      split <;> omega
  cases s with
  | setLevel level => cases quiet
  | bind n attributes => exact added _
  | group n name => exact added _
  | log n record =>
    have stays : placeAfter history (.log n record) = id := by
      funext m
      exact ite_self _
    rw [stays]
    exact ⟨rfl, fun _ => rfl, fun _ => rfl⟩

/-- **Sections follow derivations.** After any history, a record is written when it is not below
the level that was set last, and is a warning or has a section among its own attributes or among
those that were bound on the way from the root to its logger. What counts are the attributes as they
were given: one that came inside a group is no section, and groups that are open around the others
do not matter. No step but one that sets the level makes a difference to what other steps write,
whichever logger it derives from or logs through. -/
theorem sections_follow_derivations (history later : List LogStep) :
    (∀ n record, ∃ lines,
      (LogBook.start.run (history ++ .log n record :: later))[history.length]? = some lines ∧
      lines.length ≤ 1 ∧
      (lines ≠ [] ↔ levelAfter history ≤ record.level ∧
        (Level.warn ≤ record.level ∨
          ∃ a, (a ∈ record.attributes ∨ BoundOn (derivations history) n a) ∧
            a.groups = [] ∧ a.key = "section" ∧
              ∃ name ∈ Attribute.sections, name <+: a.value))) ∧
    ∀ s, s.level? = none →
      (LogBook.start.run
        (history ++ s :: later.map (·.renumbered (placeAfter history s)))).eraseIdx history.length =
      LogBook.start.run (history ++ later) := by
  have reflects := LogBook.after_reflects LogBook.start_reflects history
  rw [List.nil_append] at reflects
  have length := LogBook.length_run .start history
  constructor
  · intro n record
    refine ⟨_, LogBook.run_log .start history n record later, ?_⟩
    rw [← reflects.writes_iff, Logger.line?]
    split
    · exact ⟨Nat.le_refl 1, iff_of_true (List.cons_ne_nil _ _) ‹_›⟩
    · exact ⟨Nat.zero_le 1, iff_of_false (not_not_intro rfl) ‹_›⟩
  · intro s quiet
    rw [LogBook.run_append, LogBook.run_append, LogBook.run,
      LogBook.run_renumbered (reflects.renumbered quiet), ← length]
    simp [List.eraseIdx_append_of_length_le]

/-- Under the level of details, a logger of a section, one with a group inside it, and one beside
them, which has a section only inside a group. -/
def branchedHistory : List LogStep :=
  [.setLevel Level.debug, .bind 0 [{ key := "section", value := "solver" }], .group 1 "g",
    .bind 0 [{ groups := ["g"], key := "section", value := "solve" }]]

/-- A logger of a section that is derived from the one beside, in between. -/
def besideStep : LogStep := .bind 3 [{ key := "section", value := "parser" }]

/-- A further logger, and records through each of two branches. -/
def branchedSteps : List LogStep :=
  [.group 3 "h", .log 2 ⟨Level.debug, "kept", [{ key := "k", value := "v" }]⟩,
    .log 4 ⟨Level.info, "dropped", []⟩]

theorem sections_follow_derivations_branched :
    besideStep.level? = none ∧
    branchedSteps.map (·.renumbered (placeAfter branchedHistory besideStep)) =
      [.group 3 "h", .log 2 ⟨Level.debug, "kept", [{ key := "k", value := "v" }]⟩,
        .log 5 ⟨Level.info, "dropped", []⟩] ∧
    LogBook.start.run (branchedHistory ++ branchedSteps) =
      [[], [], [], [], [], [Text.ofString "level=DEBUG msg=kept section=solver g.k=v"], []] ∧
    (LogBook.start.run (branchedHistory ++ besideStep ::
        branchedSteps.map (·.renumbered (placeAfter branchedHistory besideStep)))).eraseIdx
      branchedHistory.length = LogBook.start.run (branchedHistory ++ branchedSteps) :=
  ⟨rfl, rfl, by decide +kernel,
    (sections_follow_derivations branchedHistory branchedSteps).2 besideStep rfl⟩

end Polarity

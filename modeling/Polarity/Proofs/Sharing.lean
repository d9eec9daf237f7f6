import Mathlib.Logic.Basic
import Polarity.Diagnostic.Ledger

/-!
# Shared collections only grow

A step adds diagnostics to the collection of its holder, or gives a holder without one a
collection. Whoever shares that collection sees what is added, and nobody else notices anything.

* `gain`: what a step adds;
* `outcome_of_some`, `outcome_of_none`: all that an action does to the ledger;
* `Adds`: what a step does to collections and holders;
* `gains`, `after_gains`: what a history adds to a collection is told from the steps that address
  it;
* `collections_only_grow`: both of them, from any ledger on.
-/

namespace Polarity

namespace Ledger
variable {l : Ledger} {n : Nat}

theorem read_eq_of_getElem? {ds : List Diagnostic} (h : l.collections[n]? = some ds) :
    l.read (some n) = ds := by
  rw [read, h, Option.getD_some]

theorem getElem?_of_lt (h : n < l.collections.length) :
    l.collections[n]? = some (l.read (some n)) := by
  rw [read, List.getElem?_eq_getElem h, Option.getD_some]

end Ledger

namespace Bookkeeping

/-! ## What an action does to the ledger -/

/-- Every collection that someone holds has been opened. -/
def Opened (b : Bookkeeping) : Prop :=
  ∀ name n, b.folio name = some n → n < b.ledger.collections.length

theorem start_opened : start.Opened := fun _ _ h => by cases h

/-- What a step adds to the collection of its holder. -/
def gain (b : Bookkeeping) (s : LedgerStep) : List Diagnostic :=
  match s.action with
  | .look => []
  | .add ds => ds
  | .merge other => b.ledger.read (b.folio other)

/-- The ledger after a step, and the folio of the resulting collection. -/
def outcome (b : Bookkeeping) (s : LedgerStep) : Ledger × Folio :=
  match s.action with
  | .look => (b.ledger, b.folio s.holder)
  | .add ds => b.ledger.add (b.folio s.holder) ds
  | .merge other => b.ledger.merge (b.folio s.holder) (b.folio other)

section
variable {b : Bookkeeping} {s : LedgerStep} {n : Nat}

theorem step_ledger (b : Bookkeeping) (s : LedgerStep) : (b.step s).1.ledger = (b.outcome s).1 := by
  unfold step outcome
  cases s.keeper <;> rfl

theorem step_result (b : Bookkeeping) (s : LedgerStep) : (b.step s).2 = (b.outcome s).2 := by
  unfold step outcome
  cases s.keeper <;> rfl

theorem step_folio (b : Bookkeeping) (s : LedgerStep) (name : Text) :
    (b.step s).1.folio name = if s.keeper = some name then (b.step s).2 else b.folio name := by
  unfold step folio
  cases s.keeper with
  | none => rfl
  | some keeper =>
    by_cases same : keeper = name
    · simp [same]
    · have other : (name == keeper) = false := beq_eq_false_iff_ne.2 fun h => same h.symm
      simp [same, List.lookup_cons, other]

/-- A holder with a collection keeps it, and what is added stands behind what was there. -/
theorem outcome_of_some (h : b.folio s.holder = some n) :
    b.outcome s = (⟨b.ledger.collections.modify n (· ++ b.gain s)⟩, some n) := by
  unfold outcome gain
  cases s.action with
  | look =>
    have same : b.ledger.collections.modify n (· ++ []) = b.ledger.collections := by
      simp only [List.append_nil]
      exact List.modify_id n _
    simp only [h, same]
  | add ds => simp only [h, Ledger.add]
  | merge other => simp only [h, Ledger.merge, Ledger.add]

/-- A holder without a collection gets one that reads as what is added: a new one, or the one of
another holder. No collection changes. -/
theorem outcome_of_none (opened : b.Opened) (h : b.folio s.holder = none) :
    ∃ more, (b.outcome s).1.collections = b.ledger.collections ++ more ∧
      (b.outcome s).1.read (b.outcome s).2 = b.gain s ∧
      ∀ n, (b.outcome s).2 = some n → n < (b.outcome s).1.collections.length := by
  unfold outcome gain
  cases s.action with
  | look =>
    refine ⟨[], (List.append_nil _).symm, ?_, opened s.holder⟩
    simp only [h, Ledger.read]
  | add ds => exact ⟨[ds], by simp [h, Ledger.add, Ledger.read]⟩
  | merge other =>
    simp only [h, Ledger.merge]
    exact ⟨[], (List.append_nil _).symm, trivial, opened other⟩

/-! ## What a step does -/

/-- A collection gains what the step adds when it is the holder's, and nothing otherwise. -/
theorem getElem?_step (opened : b.Opened) {ds : List Diagnostic}
    (h : b.ledger.collections[n]? = some ds) :
    (b.step s).1.ledger.collections[n]? =
      some (ds ++ if b.folio s.holder = some n then b.gain s else []) := by
  rw [step_ledger]
  cases held : b.folio s.holder with
  | none =>
    obtain ⟨more, collections, -⟩ := outcome_of_none opened held
    have known : n < b.ledger.collections.length := (List.getElem?_eq_some_iff.1 h).1
    rw [collections, List.getElem?_append_left known, h]
    simp
  | some m =>
    rw [outcome_of_some held, List.getElem?_modify, h]
    by_cases own : m = n <;> simp [own]

theorem step_opened (opened : b.Opened) (s : LedgerStep) : (b.step s).1.Opened := by
  -- No collection is closed, and the one that the keeper gets is open.
  have grown : b.ledger.collections.length ≤ (b.outcome s).1.collections.length ∧
      ∀ n, (b.outcome s).2 = some n → n < (b.outcome s).1.collections.length := by
    cases held : b.folio s.holder with
    | none =>
      obtain ⟨more, collections, -, result⟩ := outcome_of_none opened held
      refine ⟨?_, result⟩
      rw [collections, List.length_append]
      exact Nat.le_add_right _ _
    | some m =>
      rw [outcome_of_some held]
      simp only [List.length_modify, Nat.le_refl, Option.some.injEq, true_and]
      rintro n rfl
      exact opened s.holder m held
  intro name n found
  rw [step_ledger]
  rw [step_folio, step_result] at found
  split at found
  · exact grown.2 n found
  · exact Nat.lt_of_lt_of_le (opened name n found) grown.1

/-- What a step does to collections and holders. -/
structure Adds (b : Bookkeeping) (s : LedgerStep) : Prop where
  /-- The resulting collection reads as the holder's, followed by what is added. -/
  result : (b.step s).1.ledger.read (b.step s).2 = b.ledger.read (b.folio s.holder) ++ b.gain s
  /-- It is the holder's collection itself. -/
  kept : ∀ n, b.folio s.holder = some n → (b.step s).2 = some n
  /-- For a holder without one, what is added opens a new collection. -/
  opens : b.folio s.holder = none → ∀ ds, s.action = .add ds →
    (b.step s).2 = some b.ledger.collections.length
  /-- For a holder without one, a merge lends the other collection itself. -/
  lends : b.folio s.holder = none → ∀ other, s.action = .merge other →
    (b.step s).2 = b.folio other
  /-- Whoever shares the holder's collection keeps it, and sees what is added. -/
  shared : ∀ name n, b.folio name = some n → b.folio s.holder = some n →
    (b.step s).1.folio name = some n ∧
      (b.step s).1.ledger.read (some n) = b.ledger.read (some n) ++ b.gain s
  /-- No other collection changes. -/
  others : ∀ n < b.ledger.collections.length, b.folio s.holder ≠ some n →
    (b.step s).1.ledger.collections[n]? = b.ledger.collections[n]?
  /-- Only the keeper holds another collection afterwards, the resulting one. -/
  holders : ∀ name, (b.step s).1.folio name =
    if s.keeper = some name then (b.step s).2 else b.folio name

theorem step_adds (opened : b.Opened) (s : LedgerStep) : b.Adds s where
  result := by
    cases held : b.folio s.holder with
    | none =>
      obtain ⟨-, -, read, -⟩ := outcome_of_none opened held
      rw [step_ledger, step_result, read, Ledger.read, List.nil_append]
    | some n =>
      have known := Ledger.getElem?_of_lt (opened s.holder n held)
      rw [step_result, outcome_of_some held]
      exact Ledger.read_eq_of_getElem? (by rw [getElem?_step opened known, if_pos held])
  kept n held := by rw [step_result, outcome_of_some held]
  opens free ds action := by
    rw [step_result, outcome, action]
    simp only [free, Ledger.add]
  lends free other action := by
    rw [step_result, outcome, action]
    simp only [free, Ledger.merge]
  shared name n found held := by
    have known := Ledger.getElem?_of_lt (opened s.holder n held)
    constructor
    · rw [step_folio, step_result, outcome_of_some held, found, ite_self]
    · exact Ledger.read_eq_of_getElem? (by rw [getElem?_step opened known, if_pos held])
  others n known other := by
    have known := Ledger.getElem?_of_lt known
    rw [getElem?_step opened known, if_neg other, List.append_nil, known]
  holders := step_folio b s

end

/-! ## Histories -/

/-- The ledger and its holders after some steps. -/
def after : Bookkeeping → List LedgerStep → Bookkeeping
  | b, [] => b
  | b, s :: rest => after (b.step s).1 rest

/-- What the steps that address a collection add to it, in order. -/
def gains (n : Nat) : Bookkeeping → List LedgerStep → List Diagnostic
  | _, [] => []
  | b, s :: rest =>
    (if b.folio s.holder = some n then b.gain s else []) ++ gains n (b.step s).1 rest

theorem after_append (b : Bookkeeping) (front later : List LedgerStep) :
    b.after (front ++ later) = (b.after front).after later := by
  induction front generalizing b with
  | nil => rfl
  | cons s rest ih => exact ih _

theorem after_opened {b : Bookkeeping} (opened : b.Opened) (steps : List LedgerStep) :
    (b.after steps).Opened := by
  induction steps generalizing b with
  | nil => exact opened
  | cons s rest ih => exact ih (step_opened opened s)

/-- A history adds to a collection what the steps that address it add, and nothing else. -/
theorem after_gains {b : Bookkeeping} (opened : b.Opened) {n : Nat} {ds : List Diagnostic}
    (h : b.ledger.collections[n]? = some ds) (steps : List LedgerStep) :
    (b.after steps).ledger.collections[n]? = some (ds ++ b.gains n steps) := by
  induction steps generalizing b ds with
  | nil => rw [after, gains, List.append_nil, h]
  | cons s rest ih =>
    rw [after, gains, ih (step_opened opened s) (getElem?_step opened h), List.append_assoc]

/-- **Collections only grow, and only where they are addressed.** Take any collections, shared
among any holders, some of whom may have none. After any history, a step appends what it adds to
the collection of its holder, in the sight of all who share it, and leaves every other collection
alone. Whatever steps follow, a collection keeps the diagnostics that it has, in their order, in
front of those that are added to it; if any of them is malformed, that stays so. -/
theorem collections_only_grow {b : Bookkeeping} (opened : b.Opened) (front : List LedgerStep) :
    (∀ s, (b.after front).Adds s) ∧
    ∀ n ds, (b.after front).ledger.collections[n]? = some ds → ∀ later,
      (b.after (front ++ later)).ledger.collections[n]? =
        some (ds ++ (b.after front).gains n later) ∧
      (Diagnostic.anyMalformed ds = true →
        Diagnostic.anyMalformed ((b.after (front ++ later)).ledger.read (some n)) = true) := by
  have opened := after_opened opened front
  refine ⟨step_adds opened, fun n ds known later => ?_⟩
  have grown := after_gains opened known later
  rw [← after_append] at grown
  refine ⟨grown, fun malformed => ?_⟩
  rw [Ledger.read_eq_of_getElem? grown, Diagnostic.anyMalformed, List.any_append,
    Bool.or_eq_true]
  exact .inl malformed

/-- One collection with two holders, another one beside it, and a holder without any. -/
def sharedSteps : List LedgerStep :=
  [⟨.add [⟨.unknownClass "List", ⟨1, 5⟩⟩], "a", some "a"⟩, ⟨.look, "a", some "b"⟩,
    ⟨.add [⟨.malformed "a name" "(", ⟨6, 7⟩⟩], "c", some "c"⟩]

/-- A collection is merged with itself through its two holders, then with the one beside it; the
holder without any comes to share that one. -/
def mergeSteps : List LedgerStep :=
  [⟨.merge "a", "b", none⟩, ⟨.merge "c", "a", none⟩, ⟨.merge "c", "d", some "d"⟩]

theorem collections_only_grow_merged :
    start.Opened ∧
    (start.after sharedSteps).Adds ⟨.merge "a", "b", none⟩ ∧
    (start.after sharedSteps).ledger.collections[0]? = some [⟨.unknownClass "List", ⟨1, 5⟩⟩] ∧
    (start.after sharedSteps).gains 0 mergeSteps =
      [⟨.unknownClass "List", ⟨1, 5⟩⟩, ⟨.malformed "a name" "(", ⟨6, 7⟩⟩] ∧
    (start.after (sharedSteps ++ mergeSteps)).ledger.collections[0]? =
      some ([⟨.unknownClass "List", ⟨1, 5⟩⟩] ++ (start.after sharedSteps).gains 0 mergeSteps) :=
  ⟨start_opened, (collections_only_grow start_opened sharedSteps).1 _, rfl, rfl,
    ((collections_only_grow start_opened sharedSteps).2 0 _ rfl mergeSteps).1⟩

end Bookkeeping

end Polarity

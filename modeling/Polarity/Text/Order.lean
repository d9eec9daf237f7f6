import Polarity.Text

/-!
# The order of texts

Texts are ordered byte by byte. A set of texts is a slice in that order that has each text once.
Slices become sets, and sets are taken from each other, by a package that works in place: it moves
the result to the front of a slice, and says how long it is.

* `SetPackage`: the operations of such a package;
* `SetPackage.Lawful`: what they do to slices in order;
* `Text.differenceWith`: what one list of names has and another one has not.
-/

namespace Polarity

namespace Text

/-- Whether `s` comes before `t`, byte by byte; a text comes after its beginnings. -/
def before : (s t : Text) → Bool
  | _, [] => false
  | [], _ :: _ => true
  | a :: s, b :: t => a < b || (a == b && before s t)

/-- The texts of a list in ascending order. -/
def sorted (xs : List Text) : List Text := xs.mergeSort fun s t => !before t s

end Text

/-- A package for sets of texts in slices. Each operation gives the slice as it is afterwards, and
the size of the set in front of it. -/
structure SetPackage where
  /-- Leaves out what a slice in order has more than once. -/
  uniq : List Text → List Text × Nat
  /-- Leaves out of the set before a place what is in the set from there on. -/
  diff : List Text → (pivot : Nat) → List Text × Nat

namespace SetPackage

/-- The set in front of a slice. -/
def front : List Text × Nat → List Text
  | (data, size) => data.take size

/-- What the package does to slices in order. Of other slices nothing is said. -/
structure Lawful (sets : SetPackage) : Prop where
  uniq_ascending : ∀ data : List Text, data.Pairwise (· ≤ ·) →
    (front (sets.uniq data)).Pairwise (· < ·)
  mem_uniq : ∀ data : List Text, data.Pairwise (· ≤ ·) →
    ∀ x, x ∈ front (sets.uniq data) ↔ x ∈ data
  diff_ascending : ∀ fst snd : List Text, fst.Pairwise (· < ·) → snd.Pairwise (· < ·) →
    (front (sets.diff (fst ++ snd) fst.length)).Pairwise (· < ·)
  mem_diff : ∀ fst snd : List Text, fst.Pairwise (· < ·) → snd.Pairwise (· < ·) →
    ∀ x, x ∈ front (sets.diff (fst ++ snd) fst.length) ↔ x ∈ fst ∧ x ∉ snd

/-- Of equal neighbours in a list the last one, and behind all of these the others. -/
def neighbours : List Text → List Text × List Text
  | [] => ([], [])
  | x :: rest =>
    let later := neighbours rest
    if rest.head? = some x then (later.1, x :: later.2) else (x :: later.1, later.2)

/-- A package that moves what is left out behind the rest. -/
def plain : SetPackage where
  uniq data :=
    let (kept, others) := neighbours data
    (kept ++ others, kept.length)
  diff data pivot :=
    let (kept, others) := (data.take pivot).partition fun x => !(data.drop pivot).contains x
    (kept ++ others ++ data.drop pivot, kept.length)

end SetPackage

namespace Text

/-- The set of the texts in a list: they are put in order before what is there more than once is
left out. -/
def sortedUniq (sets : SetPackage) (xs : List Text) : List Text :=
  SetPackage.front (sets.uniq (sorted xs))

/-- The texts of `xs` that are not among `ys`: the set of the second ones is put behind that of the
first ones, and taken from it in place. -/
def differenceWith (sets : SetPackage) (xs ys : List Text) : List Text :=
  let fst := sortedUniq sets xs
  let snd := sortedUniq sets ys
  SetPackage.front (sets.diff (fst ++ snd) fst.length)

/-- The texts of `xs` that are not among `ys`. -/
def difference (xs ys : List Text) : List Text := differenceWith .plain xs ys

end Text

end Polarity

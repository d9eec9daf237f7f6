import Polarity.Diagnostic

/-!
# Shared collections of diagnostics

Several holders may share one collection of diagnostics, and see what any of
them adds. A `Ledger` keeps the collections; a holder has a *folio*, which is
the number of its collection, or nothing as long as it has none.

* `Ledger.add`: appends to the holder's collection, or opens one;
* `Ledger.merge`: appends another holder's diagnostics, or shares its
  collection when the first holder has none.
-/

namespace Polarity

/-- A holder's collection in a ledger. -/
abbrev Folio := Option Nat

/-- All collections that were opened so far, by number. -/
structure Ledger where
  collections : List (List Diagnostic)

namespace Ledger

/-- The ledger in which no collection has been opened. -/
def empty : Ledger := ⟨[]⟩

/-- The diagnostics of a holder's collection. -/
def read (l : Ledger) : Folio → List Diagnostic
  | none => []
  | some n => (l.collections[n]?).getD []

/-- Appends diagnostics to the holder's collection. A holder without one gets a
new collection, even for no diagnostics. -/
def add (l : Ledger) (folio : Folio) (ds : List Diagnostic) : Ledger × Folio :=
  match folio with
  | none => (⟨l.collections ++ [ds]⟩, some l.collections.length)
  | some n => (⟨l.collections.modify n (· ++ ds)⟩, some n)

/-- Appends the diagnostics of `other` to the holder's collection. A holder
without a collection comes to share the one of `other`. -/
def merge (l : Ledger) (folio other : Folio) : Ledger × Folio :=
  match folio with
  | none => (l, other)
  | some _ => l.add folio (l.read other)

end Ledger

/-- What is done with a holder's collection. -/
inductive LedgerAction where
  /-- It is read. -/
  | look
  /-- Diagnostics are appended. -/
  | add (ds : List Diagnostic)
  /-- The diagnostics of another holder are appended. -/
  | merge (other : Text)

/-- An action on the collection of `holder`; `keeper`, if any, holds the
resulting collection from then on. -/
structure LedgerStep where
  action : LedgerAction
  holder : Text
  keeper : Option Text

/-- A ledger and its named holders, the latest entry of a name first. -/
structure Bookkeeping where
  ledger : Ledger
  folios : List (Text × Folio)

namespace Bookkeeping

/-- No collections and no holders. -/
def start : Bookkeeping := ⟨.empty, []⟩

/-- The folio of a name. -/
def folio (b : Bookkeeping) (name : Text) : Folio := (b.folios.lookup name).join

/-- Takes a step; the folio is that of the resulting collection. -/
def step (b : Bookkeeping) (s : LedgerStep) : Bookkeeping × Folio :=
  let (ledger, result) :=
    match s.action with
    | .look => (b.ledger, b.folio s.holder)
    | .add ds => b.ledger.add (b.folio s.holder) ds
    | .merge other => b.ledger.merge (b.folio s.holder) (b.folio other)
  match s.keeper with
  | none => (⟨ledger, b.folios⟩, result)
  | some keeper => (⟨ledger, (keeper, result) :: b.folios⟩, result)

end Bookkeeping

end Polarity

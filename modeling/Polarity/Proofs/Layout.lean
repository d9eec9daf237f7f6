import Polarity.Proofs.Relocation

/-!
# Reading does not depend on places

To forget places is to move all of them to nowhere. The machine copies the places of tokens and
never looks at them: without places it does the same to tokens without places.

* `ClassDecl.unplaced`, `Reader.unplaced`: without places;
* `step_unplaced`: one token;
* `run_unplaced`: all tokens.
-/

namespace Polarity

/-! ## Without places -/

/-- A type without its places. -/
def TypeUse.unplaced : TypeUse → TypeUse := TypeUse.relocated .erase

def TypeArg.unplaced : List TypeArg → List TypeArg := TypeArg.relocated .erase

def Method.unplaced : Method → Method := Method.relocated .erase

def ClassDecl.unplaced : ClassDecl → ClassDecl := ClassDecl.relocated .erase

def Token.unplaced : Token → Token := Token.relocated .erase

def Diagnostic.unplaced : Diagnostic → Diagnostic := Diagnostic.relocated .erase

def Reader.unplaced : Reader → Reader := Reader.relocated .erase []

/-- What came of taking a token, without places. -/
def unplacedOutcome {α : Type} (f : α → α) : Except Diagnostic α → Except Diagnostic α :=
  relocatedOutcome .erase f

theorem TypeUse.unplaced_mk (name : Text) (args : List TypeArg) (span : Span) :
    (TypeUse.mk name args span).unplaced = .mk name (TypeArg.unplaced args) .nowhere := rfl

theorem TypeArg.unplaced_nil : TypeArg.unplaced [] = [] := rfl

theorem TypeArg.unplaced_cons (arg : TypeArg) (args : List TypeArg) :
    TypeArg.unplaced (arg :: args) = (arg.1, arg.2.unplaced) :: TypeArg.unplaced args := rfl

theorem Method.unplaced_eq (m : Method) : m.unplaced =
    ⟨m.returns.unplaced, m.name, m.params.map TypeUse.unplaced, .nowhere⟩ := rfl

theorem ClassDecl.unplaced_eq (c : ClassDecl) : c.unplaced =
    ⟨c.name, c.params, c.methods.map Method.unplaced, .nowhere⟩ := rfl

/-! ## Tokens -/

/-- A token is taken in the same way wherever it stands. -/
theorem step_unplaced (r : Reader) (t : Token) :
    r.unplaced.step t.unplaced = unplacedOutcome Reader.unplaced (r.step t) :=
  step_relocated r t

/-- Tokens are read in the same way wherever they stand. -/
theorem run_unplaced (span : Span) (r : Reader) (ts : List Token) :
    (Reading.run .nowhere r.unplaced (ts.map Token.unplaced)).result =
      unplacedOutcome (List.map ClassDecl.unplaced) (Reading.run span r ts).result :=
  run_relocated .erase [] span r ts

end Polarity

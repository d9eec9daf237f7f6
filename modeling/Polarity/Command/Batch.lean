import Polarity.Trace
import Polarity.Report.Format
import Polarity.Diagnostic.Place
import Polarity.Settings

/-!
# Inference on several sources

Sources are independent of each other, so they are worked on at the same time and
finish in any order. Each result has a place of its own, and results are written
in the order of the sources.

* `Source.infer`: the result of one source, from its name, its text and the settings;
* `Batch.work`: the results after sources have finished in some order;
* `Writing.all`: what is written, and which sources have failed.
-/

namespace Polarity

/-- A text to infer variances for, under the name it is known by. -/
structure Source where
  name : Text
  text : Text
  deriving DecidableEq, Repr

namespace Source

/-- The output of inference on a source, or what is wrong with it. -/
def infer (settings : Settings) (color : Bool) (s : Source) : Except Text Text :=
  match Polarity.infer settings.options s.text with
  | .error (.diagnostics ds) => .error (Diagnostic.textsIn s.name s.text ds)
  | .error e => .error e.message
  | .ok i =>
    match Format.ofName? settings.format with
    | none => .error (Format.unknown settings.format)
    | some format => .ok ((i.report settings.rules).render format color)

/-- What is logged about a source, in the run `id`. -/
def trace (settings : Settings) (id : Text) (s : Source) : List Entry :=
  Trace.run settings.options id s.text ++
    match Polarity.infer settings.options s.text with
    | .error _ => []
    | .ok _ =>
      [Trace.detail "cli" "inferred" [{ key := "file", value := s.name }, { key := "run", value := id }]]

end Source

/-- Results by place, as far as there are any. -/
abbrev Batch (α : Type) := List (Option α)

namespace Batch

/-- No result for any of `n` sources. -/
def start {α : Type} (n : Nat) : Batch α := List.replicate n none

/-- The result for one place. -/
def finish {α : Type} (b : Batch α) (place : Nat) (result : α) : Batch α := b.set place (some result)

/-- The results after the sources at some places have finished, one after another. -/
def work {α : Type} (job : Source → α) (sources : List Source) (order : List Nat) : Batch α :=
  order.foldl
    (fun b place =>
      match sources[place]? with
      | some s => b.finish place (job s)
      | none => b)
    (start sources.length)

end Batch

/-- What has been written, and the sources that have failed. -/
structure Writing where
  out : Text := []
  err : Text := []
  failed : List Text := []
  deriving DecidableEq, Repr

namespace Writing

/-- The line before the output of a source, if there are several. -/
def header (settings : Settings) (count : Nat) (s : Source) : Text :=
  if 1 < count ∧ settings.format = "text" then "==> " ++ s.name ++ " <==\n" else []

/-- Writes the result of a source. One that has none writes nothing more. -/
def add (settings : Settings) (count : Nat) (w : Writing) :
    Source × Option (Except Text Text) → Writing
  | (s, result) =>
    let out := w.out ++ header settings count s
    match result with
    | none => { w with out }
    | some (.ok shown) => { w with out := out ++ shown }
    | some (.error failure) => ⟨out, w.err ++ failure.line, w.failed ++ [s.name]⟩

/-- Writes the results of all sources in their order. -/
def all (settings : Settings) (sources : List Source) (results : Batch (Except Text Text)) : Writing :=
  (sources.zip results).foldl (add settings sources.length) {}

end Writing

end Polarity

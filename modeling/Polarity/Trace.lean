import Polarity.Inference
import Polarity.Log

/-!
# What is logged

The records that inference leaves behind, stage by stage, each under the logger
of its section. They are told from what the stages return, so that inference
itself does not depend on them.
-/

namespace Polarity.Trace

/-- A detail of a section. -/
def detail (area message : Text) (attributes : List Attribute) : Entry :=
  ⟨.ofSection area, ⟨Level.debug, message, attributes⟩⟩

/-- A warning of a section. -/
def warning (area message : Text) (attributes : List Attribute) : Entry :=
  ⟨.ofSection area, ⟨Level.warn, message, attributes⟩⟩

/-- An attribute with a number. -/
def number (key : Text) (n : Nat) : Attribute := { key, value := Text.ofNat n }

/-- The attributes of diagnostics: a group for the list, and one for each of
them by its place. -/
def diagnostics (key : Text) (ds : List Diagnostic) : List Attribute :=
  ds.zipIdx.map fun (d, i) =>
    { groups := [key, "e" ++ Text.ofNat i], key := "msg", value := d.text }

/-- What is logged about reading tokens. -/
def reading (tokens : List Token) (r : Reading) : List Entry :=
  r.classes.map (fun c => detail "parser" "parsed class" [{ key := "decl", value := c.source }]) ++
    match r.diagnostic with
    | none =>
      [detail "parser" "parsed declarations"
        [number "classes" r.classes.length, number "tokens" (significant tokens).length]]
    | some d => [detail "parser" "malformed declaration" [{ key := "error", value := d.text }]]

/-- What is logged about something that arises in generation. A missing
parameter is worth a warning, unless it is an error anyway. -/
def emission (policy : Policy) : Emission → List Entry
  | .constraint c =>
    [detail "generate" "constraint"
      [{ key := "rule", value := (c.rule.map Rule.name).getD [] },
        { key := "constraint", value := c.text }]]
  | .unresolved d =>
    if policy = .error then []
    else
      [warning "generate" "unresolved class reference"
        [{ key := "policy", value := policy.name }, { key := "error", value := d.text }]]

/-- What is logged about generation. -/
def generation (g : Generation) : List Entry :=
  g.emissions.flatMap (emission g.policy) ++
    [detail "generate" "generated constraints"
      (number "count" g.constraints.length :: diagnostics "errors" g.errors)]

/-- What is logged about the reduction of constraints under the mode of a name. -/
def simplification (mode : Text) (constraints : List Constraint) : List Entry :=
  let reduced := reduceAll (.ofName mode) constraints
  (reduced.flatMap fun r => (r.bounds.filter Expr.isTop).map fun _ =>
    detail "simplify" "dropped uninformative constraint"
      [{ key := "constraint", value := r.constraint.text }]) ++
    [detail "simplify" "simplified constraints"
      [{ key := "mode", value := mode }, number "before" constraints.length,
        number "after" (reduced.flatMap Reduced.constraints).length]]

/-- What is logged about a constraint in the course of solving. -/
def finding : Finding → List Entry
  | (_, .unrelated) | (_, .kept) => []
  | (c, .unresolved) =>
    [warning "solve" "could not resolve constraint" [{ key := "constraint", value := c.text }]]
  | (_, .undeclared ref) =>
    [warning "solve" "constraint on undeclared parameter" [{ key := "param", value := ref.text }]]
  | (_, .narrowed ref before after) =>
    [detail "solve" "narrowed"
      [{ key := "param", value := ref.text }, { key := "from", value := before.symbol },
        { key := "to", value := after.symbol }]]

/-- A truth value in words. -/
def truth (b : Bool) : Text := if b then "true" else "false"

/-- Entries several times over. -/
def repeated (times : Nat) (entries : List Entry) : List Entry :=
  if entries.isEmpty then [] else (List.replicate times entries).flatten

/-- What is logged about solving under the strategy of a name. -/
def solution (strategy : Text) (s : Solution) : List Entry :=
  s.findings.flatMap finding ++ repeated s.repeats (s.idle.flatMap finding) ++
    [detail "solve" "solved"
      [{ key := "strategy", value := strategy }, number "sweeps" s.sweeps,
        { key := "converged", value := truth s.converged }]]

/-- A detail about the run `id` as a whole. -/
def whole (id message : Text) (attributes : List Attribute) : Entry :=
  ⟨(Logger.ofSection "inference").bind [{ key := "run", value := id }],
    ⟨Level.debug, message, attributes⟩⟩

/-- What is logged about the stages after reading, as far as they go. -/
def stages (options : Options) (id : Text) (classes : ClassTable) : List Entry :=
  match generateNamed classes options.unresolved with
  | none => []
  | some g =>
    generation g ++
      if g.errors.isEmpty then
        simplification options.substitution g.constraints ++
          match inferClasses options classes with
          | .error _ => []
          | .ok i =>
            solution options.strategy i.solution ++
              [whole id "inference done"
                [number "classes" classes.decls.length, number "generated" g.constraints.length,
                  number "simplified" i.simplified.length, number "sweeps" i.solution.sweeps]]
      else [whole id "generation failed" (diagnostics "errors" g.errors)]

/-- What is logged about inferring the variances of a source, in the run `id`. -/
def run (options : Options) (id source : Text) : List Entry :=
  let r := readSource source
  reading (tokenize source) r ++
    match r.diagnostic with
    | some d => [whole id "parse failed" (diagnostics "errors" [d])]
    | none => stages options id ⟨r.classes⟩

end Polarity.Trace

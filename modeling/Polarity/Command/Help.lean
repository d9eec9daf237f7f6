import Polarity.Command.Flag

/-!
# The explanation of a command

What a command is for, how it is called, and what its flags mean.

* `Command.help`: the explanation of a command.
-/

namespace Polarity

/-- What a command is told to do. -/
inductive Command where
  | infer
  | watch
  deriving DecidableEq, Repr

namespace Flag

/-- The kind of value a flag takes, if it needs one. -/
def kind : Flag → Text
  | .passes | .logLevel => "int"
  | .noRules | .help => []
  | _ => "string"

/-- What a flag means. -/
def meaning (command : Text) : Flag → Text
  | .config => "configuration file (default variance.yaml if present)"
  | .format => "output format: text, json or yaml (default \"text\")"
  | .substitution =>
    "upper bounds substituted for a type occurrence: first or all (default \"first\")"
  | .strategy => "solver strategy: fixpoint or bounded (default \"fixpoint\")"
  | .passes => "passes of the bounded solver strategy (default 2)"
  | .unresolved =>
    "meaning of undeclared class references: error, bivariant or invariant (default \"error\")"
  | .noRules => "do not show the rule each generated constraint comes from"
  | .color => "colorize text output: auto, always or never (default \"auto\")"
  | .logLevel => "log level (default 4)"
  | .help => "help for " ++ command

/-- The flags in the order of their names. -/
def sorted : List Flag :=
  [.color, .config, .format, .help, .logLevel, .noRules, .passes, .strategy, .substitution,
    .unresolved]

/-- How a flag is written, with the kind of its value. -/
def usage (f : Flag) : Text :=
  let letter : Text :=
    match f.letter? with
    | some b => "  -" ++ [b] ++ ", --"
    | none => "      --"
  let kind : Text := if f.kind.isEmpty then [] else " " ++ f.kind
  letter ++ f.name ++ kind

end Flag

namespace Command

/-- The word that names a command. -/
def name : Command → Text
  | .infer => "infer"
  | .watch => "watch"

/-- What a command does. -/
def purpose : Command → Text
  | .infer =>
    "Infer the variance of the type parameters of the classes declared in each file " ++
      "(stdin if none or -)"
  | .watch => "Infer variances again every time file changes"

/-- How a command is called. -/
def usage : Command → Text
  | .infer => "variance infer [file...] [flags]"
  | .watch => "variance watch file [flags]"

/-- The explanation of a command. What the flags mean is set in one column. -/
def help (c : Command) : Text :=
  let width := (Flag.sorted.map fun f => f.usage.length).foldl max 0
  let line (f : Flag) : Text :=
    f.usage ++ List.replicate (width - f.usage.length + 3) (Text.byte ' ') ++ f.meaning c.name
  c.purpose ++ "\n\nUsage:\n  " ++ c.usage ++ "\n\nFlags:\n" ++
    Flag.sorted.flatMap fun f => (line f).line

end Command

end Polarity

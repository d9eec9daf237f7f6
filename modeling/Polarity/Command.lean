import Polarity.Command.Batch
import Polarity.Command.Help
import Polarity.Settings.Layers

/-!
# Commands

The command `infer` shows what can be inferred from each of the files it is
given, or from the standard input. The command `watch` shows one file again and
again; here is what it shows at one time.

* `Command.run`: everything a command writes, from its words and surroundings.
-/

namespace Polarity

/-- What reading the standard input to its end gives. -/
inductive Input where
  | text (content : Text)
  /-- It cannot be read to its end, for a reason of its own. -/
  | broken (reason : Text)
  deriving DecidableEq, Repr

instance : Coe Text Input := ⟨.text⟩

/-- What a command depends on besides its words. -/
structure Surroundings where
  files : Files
  input : Input
  /-- The folder that relative paths start from. -/
  folder : Text
  /-- The time of day, as it is shown. -/
  time : Text
  /-- The name of the run, in the log. -/
  run : Text
  /-- Whether the command is interrupted before it begins its work. -/
  cancelled : Bool
  /-- Whether the output goes to a terminal. -/
  terminal : Bool

/-- Why a command fails. -/
inductive CommandError where
  | flag (fault : FlagFault)
  | wordCount (given : Nat)
  | settings (error : LayerError)
  | unreadable (path : Text) (fault : FileFault)
  | unreadableInput (reason : Text)
  | interrupted
  | unwatchable (path : Text) (fault : FileFault)
  | failed (names : List Text)
  deriving DecidableEq, Repr

/-- What is said of a failure. -/
def CommandError.text : CommandError → Text
  | .flag fault => fault.text
  | .wordCount given => "accepts 1 arg(s), received " ++ Text.ofNat given
  | .settings error => error.text
  | .unreadable path fault => "could not read " ++ path ++ ": " ++ fault.text path
  | .unreadableInput reason => "could not read -: " ++ reason
  | .interrupted => "inference interrupted: context canceled"
  | .unwatchable path fault => "could not watch " ++ path ++ ": " ++ fault.reason
  | .failed names => "inference failed for " ++ Text.joined ", " names

/-- Everything that a command does. -/
structure Outcome where
  out : Text := []
  err : Text := []
  log : List Text := []
  failure : Option CommandError := none
  deriving DecidableEq, Repr

namespace Outcome

/-- Nothing but a failure. -/
def failing (e : CommandError) : Outcome := { failure := some e }

/-- What is written besides the output and the log: the failure comes last. -/
def errors (o : Outcome) : Text :=
  match o.failure with
  | none => o.err
  | some e => o.err ++ Text.line ("Error: " ++ e.text)

/-- The status that a command ends with. -/
def exit (o : Outcome) : Nat := if o.failure.isSome then 1 else 0

end Outcome

namespace Command

/-- The word that stands for the standard input. -/
def standardInput : Text := "-"

/-- Reads the source of a word, and gives what is left of the standard input: once it has
been read, nothing. -/
def readWord (files : Files) (input : Input) (word : Text) :
    Except CommandError (Source × Input) :=
  if word = standardInput then
    match input with
    | .broken reason => .error (.unreadableInput reason)
    | .text content => .ok (⟨word, content⟩, .text [])
  else
    match files word with
    | .error fault => .error (.unreadable word fault)
    | .ok text => .ok (⟨word, text⟩, input)

/-- Reads the sources of some words, one after another. -/
def readSources (files : Files) : Input → List Text → Except CommandError (List Source)
  | _, [] => .ok []
  | input, word :: rest =>
    match readWord files input word with
    | .error e => .error e
    | .ok (s, left) => (readSources files left rest).map (s :: ·)

/-- Infers variances for sources, which finish in the given order. -/
def inferSources (settings : Settings) (level : Level) (around : Surroundings) (sources : List Source)
    (order : List Nat) : Outcome :=
  let color := settings.usesColor around.terminal
  let results := Batch.work (Source.infer settings color) sources order
  let w := Writing.all settings sources results
  { out := w.out, err := w.err
    log := logLines level
      ((order.filterMap fun place => sources[place]?).flatMap (Source.trace settings around.run))
    failure := if w.failed.isEmpty then none else some (.failed w.failed) }

/-- The command `infer`. -/
def runInfer (i : Invocation) (around : Surroundings) : Outcome :=
  match Settings.resolve around.files i with
  | .error e => .failing (.settings e)
  | .ok settings =>
    let words := if i.words.isEmpty then [standardInput] else i.words
    match readSources around.files around.input words with
    | .error e => .failing e
    | .ok sources =>
      if around.cancelled then .failing .interrupted
      else inferSources settings i.logLevel around sources (List.range sources.length)

/-- Shows a file at one time. What is wrong with it is shown in its place. -/
def showFile (settings : Settings) (level : Level) (around : Surroundings) (path : Text) : Outcome :=
  let header : Text := "==> " ++ path ++ " (" ++ around.time ++ ") <==\n"
  match around.files path with
  | .error fault => { out := header ++ (CommandError.unreadable path fault).text.line }
  | .ok text =>
    let s : Source := ⟨path, text⟩
    let shown : Text :=
      match s.infer settings (settings.usesColor around.terminal) with
      | .ok output => output
      | .error failure => failure.line
    { out := header ++ shown, log := logLines level (s.trace settings around.run) }

/-- The command `watch`, up to what it shows first. The folder of the file must exist. -/
def runWatch (i : Invocation) (around : Surroundings) : Outcome :=
  match i.words with
  | [word] =>
    match Settings.resolve around.files i with
    | .error e => .failing (.settings e)
    | .ok settings =>
      let path := Path.seenFrom around.folder word
      match around.files (Path.parent path) with
      | .ok _ | .error .folder => showFile settings i.logLevel around path
      | .error fault => .failing (.unwatchable (Path.parent path) fault)
  | words => .failing (.wordCount words.length)

/-- The paths that a command may read. -/
def paths (c : Command) (i : Invocation) (folder : Text) : List Text :=
  let config := Settings.path i.config
  match c, i.words with
  | .infer, words => config :: words.filter (· ≠ standardInput)
  | .watch, [word] =>
    let path := Path.seenFrom folder word
    [config, path, Path.parent path]
  | .watch, _ => []

/-- Whether a command reads the standard input. -/
def readsInput (c : Command) (i : Invocation) : Bool :=
  c = .infer && (i.words.isEmpty || i.words.contains standardInput)

/-- Everything that a command does, given its words. -/
def run (c : Command) (words : List Text) (around : Surroundings) : Outcome :=
  match Invocation.read words with
  | .error fault => .failing (.flag fault)
  | .ok i =>
    if i.help then { out := c.help }
    else
      match c with
      | .infer => runInfer i around
      | .watch => runWatch i around

end Command

end Polarity

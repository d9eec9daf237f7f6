import Polarity.Settings
import Polarity.Log
import Polarity.Text.Integer

/-!
# The words of a command line

Words that begin with a dash are flags, most of which have a value; the others
are left to the command. A value follows its flag as the next word or after an
equals sign, and directly after a letter. Letters of flags that need no value can
stand in one word.

* `Invocation.read`: what the words ask for.
-/

namespace Polarity

/-- A flag of the commands that infer variances. -/
inductive Flag where
  | config
  | format
  | substitution
  | strategy
  | passes
  | unresolved
  | noRules
  | color
  | logLevel
  | help
  deriving DecidableEq, Repr

namespace Flag

/-- All flags. -/
def all : List Flag :=
  [.config, .format, .substitution, .strategy, .passes, .unresolved, .noRules, .color, .logLevel,
    .help]

/-- The name of a flag. -/
def name : Flag → Text
  | .config => "config"
  | .format => "format"
  | .substitution => "substitution"
  | .strategy => "strategy"
  | .passes => "passes"
  | .unresolved => "unresolved"
  | .noRules => "no-rules"
  | .color => "color"
  | .logLevel => "log-level"
  | .help => "help"

/-- The letter of a flag, if it has one. -/
def letter? : Flag → Option UInt8
  | .config => some (Text.byte 'c')
  | .format => some (Text.byte 'f')
  | .logLevel => some (Text.byte 'l')
  | .help => some (Text.byte 'h')
  | _ => none

/-- The value of a flag that is given without one, if it may be. -/
def impliedValue? : Flag → Option Text
  | .noRules | .help => some "true"
  | _ => none

/-- A flag in messages: its letter and its name. -/
def shown (f : Flag) : Text :=
  match f.letter? with
  | some b => "-" ++ [b] ++ ", --" ++ f.name
  | none => "--" ++ f.name

/-- The flag of a name. -/
def ofName? (name : Text) : Option Flag := all.find? (·.name == name)

/-- The flag of a letter. -/
def ofLetter? (letter : UInt8) : Option Flag := all.find? (·.letter? == some letter)

end Flag

/-- What is wrong with the words of a command line. -/
inductive FlagFault where
  /-- A word begins like a flag but has no name. -/
  | nameless (word : Text)
  | unknownName (name : Text)
  | unknownLetter (letter : UInt8) (letters : Text)
  | valueMissing (word : Text)
  | letterValueMissing (letter : UInt8) (letters : Text)
  | notInteger (flag : Flag) (value : Text) (fault : IntegerFault)
  | notTruth (flag : Flag) (value : Text)
  deriving DecidableEq, Repr

namespace FlagFault

/-- A letter between single quotes. Of a byte beyond ASCII, the first byte of its
own encoding is shown as a character. -/
def quotedLetter (b : UInt8) : Text :=
  let c : Char :=
    if b < 0x80 then Char.ofNat b.toNat
    else if b < 0xC0 then '\u00C2'
    else '\u00C3'
  let inner : Text :=
    if c == '\'' || c == '\\' then "\\" ++ Text.ofChar c
    else if isPrintable c then Text.ofChar c
    else escapedChar c
  "'" ++ inner ++ "'"

/-- A value that a flag does not take, and why. -/
def refused (flag : Flag) (value reader why : Text) : Text :=
  "invalid argument " ++ value.quoted ++ " for " ++ flag.shown.quoted ++ " flag: strconv." ++ reader ++
    ": parsing " ++ value.quoted ++ ": " ++ why

/-- What is said of a fault. -/
def text : FlagFault → Text
  | .nameless word => "bad flag syntax: " ++ word
  | .unknownName name => "unknown flag: --" ++ name
  | .unknownLetter letter letters =>
    "unknown shorthand flag: " ++ quotedLetter letter ++ " in -" ++ letters
  | .valueMissing word => "flag needs an argument: " ++ word
  | .letterValueMissing letter letters =>
    "flag needs an argument: " ++ quotedLetter letter ++ " in -" ++ letters
  | .notInteger flag value .form => refused flag value "ParseInt" "invalid syntax"
  | .notInteger flag value .range => refused flag value "ParseInt" "value out of range"
  | .notTruth flag value => refused flag value "ParseBool" "invalid syntax"

end FlagFault

/-- What one word of a command line is. -/
inductive Word where
  /-- No flag, but something for the command. -/
  | other
  /-- The word after which there are no flags. -/
  | last
  /-- Flags with their values, and perhaps one whose value is the next word;
  without one, that is a fault. -/
  | flags (given : List (Flag × Text)) (left : Option (Flag × FlagFault))

namespace Word

/-- Splits a name from the value after the first equals sign. -/
def splitValue (t : Text) : Text × Option Text :=
  match t.dropWhile (· != Text.byte '=') with
  | [] => (t, none)
  | _ :: value => (t.takeWhile (· != Text.byte '='), some value)

/-- A word that begins with two dashes, by what follows them. -/
def ofName (t : Text) : Except FlagFault Word :=
  let word : Text := "--" ++ t
  if t.head?.any fun b => b = Text.byte '-' || b = Text.byte '=' then .error (.nameless word)
  else
    let (name, value) := splitValue t
    match Flag.ofName? name with
    | none => .error (.unknownName name)
    | some flag =>
      match value <|> flag.impliedValue? with
      | some value => .ok (.flags [(flag, value)] none)
      | none => .ok (.flags [] (some (flag, .valueMissing word)))

/-- The beginning of the letters that are meant for the tool that tests a
program, and are passed over. -/
def testLetters : Text := "test."

/-- The letters after one dash. A letter whose flag needs no value can be followed
by others; what follows any other letter is its value. -/
def ofLetters : Text → Except FlagFault (List (Flag × Text) × Option (Flag × FlagFault))
  | [] => .ok ([], none)
  | letter :: rest =>
    if Text.startsWith (letter :: rest) testLetters then .ok ([], none)
    else
      match Flag.ofLetter? letter with
      | none => .error (.unknownLetter letter (letter :: rest))
      | some flag =>
        match rest with
        | 0x3D :: b :: value => .ok ([(flag, b :: value)], none)
        | rest =>
          match flag.impliedValue?, rest with
          | some value, rest => do
            let (given, left) ← ofLetters rest
            return ((flag, value) :: given, left)
          | none, [] => .ok ([], some (flag, .letterValueMissing letter [letter]))
          | none, value => .ok ([(flag, value)], none)

/-- What a word is. -/
def of : Text → Except FlagFault Word
  | [0x2D, 0x2D] => .ok .last
  | 0x2D :: 0x2D :: t => ofName t
  | 0x2D :: letter :: rest => do
    let (given, left) ← ofLetters (letter :: rest)
    return .flags given left
  | _ => .ok .other

end Word

/-- What a command line asks for. -/
structure Invocation where
  /-- The file with settings, if one is named. -/
  config : Text := []
  logLevel : Level := Level.warn
  overrides : Overrides := {}
  /-- Whether only an explanation of the command is wanted. -/
  help : Bool := false
  words : List Text := []
  deriving DecidableEq, Repr

namespace Invocation

/-- The words for true and false. -/
def truths : List (Text × Bool) :=
  [("1", true), ("t", true), ("T", true), ("TRUE", true), ("true", true), ("True", true),
    ("0", false), ("f", false), ("F", false), ("FALSE", false), ("false", false), ("False", false)]

/-- The integer that the value of a flag is. -/
def integer (flag : Flag) (value : Text) : Except FlagFault Int :=
  match Integer.read value with
  | .ok n => .ok n
  | .error e => .error (.notInteger flag value e)

/-- The truth value that the value of a flag is. -/
def truth (flag : Flag) (value : Text) : Except FlagFault Bool :=
  match truths.lookup value with
  | some b => .ok b
  | none => .error (.notTruth flag value)

/-- Gives a flag a value. Of several values of one flag, the last one counts. -/
def set (i : Invocation) (flag : Flag) (value : Text) : Except FlagFault Invocation :=
  let o := i.overrides
  match flag with
  | .config => .ok { i with config := value }
  | .format => .ok { i with overrides := { o with format := some value } }
  | .substitution => .ok { i with overrides := { o with substitution := some value } }
  | .strategy => .ok { i with overrides := { o with strategy := some value } }
  | .passes => (integer flag value).map fun n => { i with overrides := { o with passes := some n } }
  | .unresolved => .ok { i with overrides := { o with unresolved := some value } }
  | .noRules => (truth flag value).map fun b => { i with overrides := { o with rules := some !b } }
  | .color => .ok { i with overrides := { o with color := some value } }
  | .logLevel => (integer flag value).map fun n => { i with logLevel := n }
  | .help => (truth flag value).map fun b => { i with help := b }

/-- Gives several flags their values. -/
def setAll (i : Invocation) : List (Flag × Text) → Except FlagFault Invocation
  | [] => .ok i
  | (flag, value) :: rest =>
    match i.set flag value with
    | .error e => .error e
    | .ok i => i.setAll rest

/-- Reads words after those that made `i`. -/
def readFrom : Invocation → List Text → Except FlagFault Invocation
  | i, [] => .ok i
  | i, word :: rest =>
    match Word.of word with
    | .error e => .error e
    | .ok .other => readFrom { i with words := i.words ++ [word] } rest
    | .ok .last => .ok { i with words := i.words ++ rest }
    | .ok (.flags given left) =>
      match i.setAll given with
      | .error e => .error e
      | .ok i =>
        match left, rest with
        | none, rest => readFrom i rest
        | some (_, fault), [] => .error fault
        | some (flag, _), value :: rest =>
          match i.set flag value with
          | .error e => .error e
          | .ok i => readFrom i rest

/-- Reads the words of a command line. -/
def read (words : List Text) : Except FlagFault Invocation := readFrom {} words

end Invocation

end Polarity

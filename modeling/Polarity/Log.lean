import Polarity.Text.Quoted
import Polarity.Text.Blank

/-!
# Log lines

A record has a level, a message and attributes, and becomes one line of
`key=value` pairs. A logger adds attributes of its own, and puts its groups in
front of the keys.

Records below the current level are not written. Of the others, those below a
warning are written only when they belong to a section of the program: some
attribute `section`, given to the record or to its logger, begins with the name of
one. An attribute inside a group is given as part of the group, and is none.

* `Logger.line?`: the line of a record, if it is written;
* `LogBook`: loggers derived from one another under one level.
-/

namespace Polarity

/-- A key and its value, with the groups around them. -/
structure Attribute where
  groups : List Text := []
  key : Text
  value : Text
  deriving DecidableEq, Repr

/-- Something worth telling. -/
structure Record where
  level : Int
  message : Text
  attributes : List Attribute
  deriving DecidableEq, Repr

/-- How important a record is. -/
abbrev Level := Int

namespace Level

/-- Details for those who look for them. -/
def debug : Level := -4

/-- The normal course of things. -/
def info : Level := 0

/-- Something that should not have happened. -/
def warn : Level := 4

/-- Something that went wrong. -/
def error : Level := 8

/-- A level as its difference from a named one. -/
def relative (name : Text) (difference : Int) : Text :=
  if difference = 0 then name
  else if difference < 0 then name ++ Text.ofInt difference
  else name ++ "+" ++ Text.ofInt difference

/-- A level by the nearest name that is not above it; `DEBUG` for all below `INFO`. -/
def text (l : Level) : Text :=
  if l < info then relative "DEBUG" (l - debug)
  else if l < warn then relative "INFO" (l - info)
  else if l < error then relative "WARN" (l - warn)
  else relative "ERROR" (l - error)

end Level

namespace Text

/-- Whether a piece can stand bare in a log line. -/
def isBarePiece (p : Piece) : Bool :=
  match p.char with
  | none => false
  | some c =>
    if c.toNat < 0x80 then 0x20 < c.toNat && c != '=' && c != '"'
    else c != '\uFFFD' && !isBlank c && isPrintable c

/-- Whether a text can stand bare in a log line. -/
def isBare (t : Text) : Bool := !t.isEmpty && (Piece.split t).all isBarePiece

/-- A value of a log line. -/
def logged (t : Text) : Text := if t.isBare then t else t.quoted

end Text

namespace Attribute

/-- The groups of an attribute, each with a dot after it. Those without a name are
not shown. -/
def path (a : Attribute) : Text := (a.groups.filter (· ≠ [])).flatMap (· ++ ".")

/-- A key after its groups, as one word. -/
def name (a : Attribute) : Text :=
  if (a.path.isEmpty || a.path.isBare) && a.key.isBare then a.path ++ a.key
  else Text.quoted (a.path ++ a.key)

/-- An attribute as a pair of a log line. Times are not shown. -/
def pair? (a : Attribute) : Option Text :=
  if a.key = "time" then none else some (a.name ++ "=" ++ a.value.logged)

/-- The sections of the program. -/
def sections : List Text := ["parser", "generate", "simplify", "solve", "inference", "cli"]

/-- Whether an attribute, as it is given, assigns a record to a section of the
program. Inside a group it does not. -/
def isSection (a : Attribute) : Bool :=
  a.groups.isEmpty && a.key = "section" && sections.any a.value.startsWith

/-- The attribute inside further groups. -/
def within (groups : List Text) (a : Attribute) : Attribute :=
  { a with groups := groups ++ a.groups }

end Attribute

/-- Where records come from: the groups around their keys, the attributes they all
have, and the sections of the program that they are assigned to by some of these. -/
structure Logger where
  groups : List Text
  bound : List Attribute
  sections : List Text
  deriving DecidableEq, Repr

namespace Logger

/-- No groups and no attributes. -/
def root : Logger := ⟨[], [], []⟩

/-- A logger whose records have further attributes. What they are inside the groups
of the logger does not matter for its sections. -/
def bind (l : Logger) (attributes : List Attribute) : Logger :=
  { l with
    bound := l.bound ++ attributes.map (·.within l.groups)
    sections := l.sections ++ (attributes.filter Attribute.isSection).map Attribute.value }

/-- A logger whose further keys are in a group. An empty name opens none. -/
def group (l : Logger) (name : Text) : Logger :=
  if name.isEmpty then l else { l with groups := l.groups ++ [name] }

/-- The logger of a section of the program. -/
def ofSection (name : Text) : Logger := root.bind [{ key := "section", value := name }]

/-- Whether a record is written when the current level is `threshold`. -/
def writes (l : Logger) (threshold : Level) (r : Record) : Bool :=
  threshold ≤ r.level &&
    (Level.warn ≤ r.level || !l.sections.isEmpty || r.attributes.any Attribute.isSection)

/-- All attributes of a record. -/
def attributes (l : Logger) (r : Record) : List Attribute :=
  l.bound ++ r.attributes.map (·.within l.groups)

/-- The line of a record. -/
def line (l : Logger) (r : Record) : Text :=
  Text.joined " "
    (("level=" ++ Level.text r.level) :: ("msg=" ++ r.message.logged) ::
      (l.attributes r).filterMap Attribute.pair?)

/-- The line of a record, if it is written. -/
def line? (l : Logger) (threshold : Level) (r : Record) : Option Text :=
  if l.writes threshold r then some (l.line r) else none

end Logger

/-- A record together with its logger. -/
structure Entry where
  logger : Logger
  record : Record
  deriving DecidableEq, Repr

/-- The lines of the entries that are written. -/
def logLines (threshold : Level) (entries : List Entry) : List Text :=
  entries.filterMap fun e => e.logger.line? threshold e.record

/-- Loggers, each derived from an earlier one, under one current level. -/
structure LogBook where
  level : Level
  loggers : List Logger

/-- Something done with a log book. Loggers are named by their place in it. -/
inductive LogStep where
  /-- The current level changes. -/
  | setLevel (level : Level)
  /-- A logger with further attributes is added. -/
  | bind (logger : Nat) (attributes : List Attribute)
  /-- A logger with a further group is added. -/
  | group (logger : Nat) (name : Text)
  /-- A record is logged. -/
  | log (logger : Nat) (record : Record)

namespace LogBook

/-- Only the root logger, under the level of warnings. -/
def start : LogBook := ⟨Level.warn, [.root]⟩

/-- The logger at a place of the book. -/
def logger (b : LogBook) (n : Nat) : Logger := (b.loggers[n]?).getD .root

/-- Takes a step, and gives the lines that it writes. -/
def step (b : LogBook) : LogStep → LogBook × List Text
  | .setLevel level => ({ b with level }, [])
  | .bind n attributes =>
    ({ b with loggers := b.loggers ++ [(b.logger n).bind attributes] }, [])
  | .group n name => ({ b with loggers := b.loggers ++ [(b.logger n).group name] }, [])
  | .log n record => (b, ((b.logger n).line? b.level record).toList)

/-- The lines that each of some steps writes. -/
def run : LogBook → List LogStep → List (List Text)
  | _, [] => []
  | b, s :: rest => (b.step s).2 :: run (b.step s).1 rest

end LogBook

end Polarity

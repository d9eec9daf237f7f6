import Polarity.Command
import Polarity.Version
import Std.Time.DateTime.Timestamp

/-!
# The program

Reads what a command depends on, and writes what it does.
-/

namespace Polarity.Main

/-- A text as a string. -/
def string (t : Text) : String := String.ofList t.chars

/-- Reads a file. -/
def readFile (path : Text) : IO (Except FileFault Text) := do
  if let some fault := Path.fault? path then return .error fault
  try
    return .ok (← IO.FS.readBinFile (string path)).toList
  catch
    | .noFileOrDirectory .. => return .error .missing
    | .permissionDenied .. => return .error .forbidden
    | .invalidArgument .. => return .error .tooLong
    | e =>
      try
        let isFolder ← (← IO.FS.realPath (string path)).isDir
        return .error (if isFolder then .folder else .other (Text.ofString (toString e)))
      catch _ => return .error .notFolder

/-- Reads the files at some paths. -/
def readFiles (paths : List Text) : IO Files := do
  let contents ← paths.mapM fun path => do return (path, ← readFile path)
  return fun path => (contents.lookup path).getD (.error .missing)

/-- A number below a hundred in two digits. -/
def twoDigits (n : Nat) : Text := Text.ofNat (n / 10) ++ Text.ofNat (n % 10)

/-- The time of day. -/
def timeOfDay : IO Text := do
  let seconds := (← Std.Time.Timestamp.now).toSecondsSinceUnixEpoch.val.toNat
  return Text.joined ":"
    [twoDigits (seconds / 3600 % 24), twoDigits (seconds / 60 % 60), twoDigits (seconds % 60)]

/-- A name for a run: random digits in groups. -/
def runName : IO Text := do
  let digits := (← IO.getRandomBytes 16).toList.flatMap fun b => Text.hex 2 b.toNat
  let group (start length : Nat) : Text := (digits.drop start).take length
  return Text.joined "-" [group 0 8, group 8 4, "4" ++ group 13 3, "a" ++ group 17 3, group 20 12]

/-- The path of the current folder. -/
def currentFolder : IO Text := do
  return Text.ofString (← IO.currentDir).toString

/-- What a command depends on. -/
def surroundings (c : Command) (i : Invocation) : IO Surroundings := do
  let folder ← currentFolder
  let input : Input ←
    if c.readsInput i then
      try
        pure (.text (← (← IO.getStdin).readBinToEnd).toList)
      catch e => pure (.broken (Text.ofString (toString e)))
    else pure (.text [])
  return {
    files := ← readFiles (c.paths i folder)
    input
    folder
    time := ← timeOfDay
    run := ← runName
    cancelled := false
    terminal := ← (← IO.getStdout).isTty }

/-- Writes a text. -/
def write (stream : IO.FS.Stream) (t : Text) : IO Unit := do
  stream.write ⟨t.toArray⟩
  stream.flush

/-- Writes all that a command does, and gives its status. -/
def perform (o : Outcome) : IO UInt32 := do
  write (← IO.getStderr) (o.log.flatMap Text.line)
  write (← IO.getStdout) o.out
  write (← IO.getStderr) o.errors
  return o.exit.toUInt32

/-- Runs a command. -/
def runCommand (c : Command) (words : List Text) : IO UInt32 := do
  let i := (Invocation.read words).toOption.getD {}
  perform (c.run words (← surroundings c i))

/-- Shows a file again whenever its content has changed. -/
partial def watchOn (words : List Text) (path : Text) (seen : Except FileFault Text) : IO UInt32 := do
  IO.sleep 50
  let content ← readFile path
  if content.toOption = seen.toOption then watchOn words path seen
  else
    let _ ← runCommand .watch words
    watchOn words path content

/-- Shows a file, and goes on doing so if that is possible. -/
def watch (words : List Text) : IO UInt32 := do
  let status ← runCommand .watch words
  match (Invocation.read words).toOption.map (·.words) with
  | some [word] =>
    if status = 0 then
      let path := Path.seenFrom (← currentFolder) word
      watchOn words path (← readFile path)
    else return status
  | _ => return status

/-- Runs the command that the first word names. -/
def dispatch : List Text → IO UInt32
  | [] => do
    write (← IO.getStderr) "usage: variance infer|watch|version\n"
    return 1
  | name :: words =>
    if name = "infer" then runCommand .infer words
    else if name = "watch" then watch words
    else if name = "version" then do
      write (← IO.getStdout) (BuildInfo.text none)
      return 0
    else do
      write (← IO.getStderr) ("Error: unknown command " ++ name.quoted ++ " for \"variance\"\n")
      return 1

end Polarity.Main

/-- The program: the first word names a command, and the others are for it. -/
def main (words : List String) : IO UInt32 :=
  Polarity.Main.dispatch (words.map Polarity.Text.ofString)

import Polarity.Settings.Document
import Polarity.Command.Flag
import Polarity.Command.Files

/-!
# Where settings come from

Defaults come first, then a file, then flags. The file has to make sense on its
own, whatever the flags say.

* `Loader.resolve`: the settings of an invocation, by any packages;
* `Settings.resolve`: those that a command uses.
-/

namespace Polarity

/-- Why there are no settings. -/
inductive LayerError where
  /-- The file cannot be read. -/
  | unreadable (path : Text) (fault : FileFault)
  /-- The file makes no settings. -/
  | inFile (path : Text) (error : SettingsError)
  /-- Together with the flags, some settings have no meaning. -/
  | faults (fs : List SettingFault)
  deriving DecidableEq, Repr

/-- What is said of the error. -/
def LayerError.text : LayerError → Text
  | .unreadable path fault => "could not read configuration " ++ path ++ ": " ++ fault.text path
  | .inFile path error => "in " ++ path ++ ": " ++ error.text
  | .faults fs => SettingFault.texts fs

/-- The file that is looked for when none is named. -/
def Settings.defaultFile : Text := "variance.yaml"

/-- The file that is looked at, whether it was named or not. -/
def Settings.path (named : Text) : Text := if named.isEmpty then Settings.defaultFile else named

namespace Loader

/-- The settings of the file that is named, or of the one looked for otherwise,
which may be missing. -/
def ofFile (l : Loader) (files : Files) (named : Text) : Except LayerError Settings :=
  match files (Settings.path named) with
  | .ok content => (l.read content).mapError (.inFile (Settings.path named))
  | .error fault =>
    if named.isEmpty && fault = .missing then .ok .default
    else .error (.unreadable (Settings.path named) fault)

/-- The settings of an invocation. -/
def resolve (l : Loader) (files : Files) (i : Invocation) : Except LayerError Settings :=
  match l.ofFile files i.config with
  | .error e => .error e
  | .ok s => (l.validate (s.override i.overrides)).mapError .faults

end Loader

/-- The settings that a command uses. -/
def Settings.resolve (files : Files) (i : Invocation) : Except LayerError Settings :=
  Loader.standard.resolve files i

end Polarity

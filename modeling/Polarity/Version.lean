import Polarity.Text

/-!
# Version information

What a build tells about itself: its version, the toolchain, and a few of the
settings it was made with.
-/

namespace Polarity

/-- What is known about a build. -/
structure BuildInfo where
  version : Text
  toolchain : Text
  settings : List (Text × Text)
  deriving DecidableEq, Repr

namespace BuildInfo

/-- The version that is shown when none is known. -/
def development : Text := "(devel)"

/-- The settings that are shown. -/
def shownSettings : List Text := ["vcs.revision", "vcs.modified"]

/-- A setting as a line, if it is shown. -/
def setting? : Text × Text → Option Text
  | (key, value) =>
    if shownSettings.contains key then some (Text.line (key ++ ": " ++ value)) else none

/-- The lines about a build, if anything is known about it. -/
def text (info : Option BuildInfo) : Text :=
  let version :=
    match info with
    | some i => if i.version.isEmpty then development else i.version
    | none => development
  let rest : Text :=
    match info with
    | some i => Text.line ("go: " ++ i.toolchain) ++ (i.settings.filterMap setting?).flatten
    | none => []
  Text.line ("variance " ++ version) ++ rest

end BuildInfo

end Polarity

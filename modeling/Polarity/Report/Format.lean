import Polarity.Report.Json
import Polarity.Report.Yaml

/-!
# Output formats

A report is shown as text, as JSON or as YAML. Only text is coloured.
-/

namespace Polarity

/-- How a report is shown. -/
inductive Format where
  | text
  | json
  | yaml
  deriving DecidableEq, Repr

namespace Format

/-- The format of a name; no name means text. -/
def ofName? (t : Text) : Option Format :=
  if t = "text" ∨ t = [] then some .text
  else if t = "json" then some .json
  else if t = "yaml" then some .yaml
  else none

/-- What is said of a name that no format has. -/
def unknown (t : Text) : Text := "unknown output format " ++ t.quoted

end Format

/-- The report in a format. -/
def Report.render (r : Report) (format : Format) (color : Bool) : Text :=
  match format with
  | .text => r.plain color
  | .json => Report.Json.render r
  | .yaml => Report.Yaml.render r

end Polarity

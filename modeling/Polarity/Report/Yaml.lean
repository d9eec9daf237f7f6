import Polarity.Report
import Polarity.Yaml.Written

/-!
# Reports as YAML

A mapping with a list for each part, whose items are indented by four spaces. A
missing list is an empty one.
-/

namespace Polarity.Report.Yaml

/-- An item of a list. -/
def item (t : Text) : Text :=
  let shown := Polarity.Yaml.written 6 t
  "    - " ++ if Polarity.Yaml.endsItsLine t then shown else shown.line

/-- A part of the report. -/
def part (name : Text) (items : List Text) : Text :=
  if items.isEmpty then name ++ ": []\n" else name ++ ":\n" ++ items.flatMap item

/-- The report as a mapping. Undeclared names are left out when there are none. -/
def render (r : Report) : Text :=
  part "generated" (r.generated.getD []) ++ part "simplified" (r.simplified.getD []) ++
    part "solution" (r.solution.getD []) ++
    if r.undeclared.isEmpty then [] else part "undeclared" r.undeclared

end Polarity.Report.Yaml

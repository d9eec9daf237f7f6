import Polarity.Inference

/-!
# Settings

How inference is done and how its result is shown. Settings are layered: there
are defaults, and each further layer changes some of them.

* `Overrides`: the settings that a layer changes;
* `Settings.override`: the settings under one more layer;
* `Validator`, `Validator.Lawful`: a package that checks settings;
* `Settings.checked`, `Settings.faults`: the conditions on settings, and those they do not meet.
-/

namespace Polarity

/-- All settings. Names are as they were given. -/
structure Settings where
  substitution : Text
  strategy : Text
  passes : Int
  unresolved : Text
  format : Text
  rules : Bool
  color : Text
  deriving DecidableEq, Repr

/-- The settings that one layer changes. -/
structure Overrides where
  substitution : Option Text := none
  strategy : Option Text := none
  passes : Option Int := none
  unresolved : Option Text := none
  format : Option Text := none
  rules : Option Bool := none
  color : Option Text := none
  deriving DecidableEq, Repr

/-- A condition on a setting. -/
inductive Condition where
  /-- It is one of some names. -/
  | oneOf (value : Text) (names : List Text)
  /-- It is not less than a number. -/
  | min (value least : Int)
  /-- It is not greater than a number. -/
  | max (value greatest : Int)
  deriving DecidableEq, Repr

namespace Condition

/-- The name of a kind of condition. -/
def tag : Condition → Text
  | .oneOf .. => "oneof"
  | .min .. => "min"
  | .max .. => "max"

/-- What a condition demands. -/
def Holds : Condition → Prop
  | .oneOf value names => value ∈ names
  | .min value least => least ≤ value
  | .max value greatest => value ≤ greatest

instance : DecidablePred Holds
  | .oneOf value names => inferInstanceAs (Decidable (value ∈ names))
  | .min value least => inferInstanceAs (Decidable (least ≤ value))
  | .max value greatest => inferInstanceAs (Decidable (value ≤ greatest))

end Condition

/-- A setting under the section it belongs to, if any, and the conditions on it. -/
structure CheckedSetting where
  area : Option Text
  name : Text
  conditions : List Condition
  deriving DecidableEq, Repr

/-- A condition that a setting does not meet. -/
structure SettingFault where
  area : Option Text
  name : Text
  tag : Text
  deriving DecidableEq, Repr

namespace SettingFault

/-- What is said of a fault. -/
def text (f : SettingFault) : Text :=
  let path : Text :=
    match f.area with
    | some a => a ++ "." ++ f.name
    | none => f.name
  "Key: 'Config." ++ path ++ "' Error:Field validation for '" ++ f.name ++ "' failed on the '" ++
    f.tag ++ "' tag"

/-- What is said of faults together. -/
def texts (faults : List SettingFault) : Text :=
  "invalid configuration: " ++ Text.joined "\n" (faults.map text)

end SettingFault

/-- A package that looks for faults in settings. -/
structure Validator where
  faults : List CheckedSetting → List SettingFault

/-- The package knows the conditions: it finds no fault just where all of them hold. -/
structure Validator.Lawful (v : Validator) : Prop where
  faults_eq_nil_iff : ∀ settings, v.faults settings = [] ↔
    ∀ s ∈ settings, ∀ c ∈ s.conditions, c.Holds

/-- A package that tells the first condition on each setting that does not hold. -/
def Validator.first : Validator where
  faults settings := settings.filterMap fun s =>
    (s.conditions.find? fun c => ¬ c.Holds).map fun c => ⟨s.area, s.name, c.tag⟩

namespace Settings

/-- The settings of those who change none. -/
def default : Settings := ⟨"first", "fixpoint", 2, "error", "text", true, "auto"⟩

/-- The settings, with those of a layer on top. -/
def override (s : Settings) (o : Overrides) : Settings where
  substitution := o.substitution.getD s.substitution
  strategy := o.strategy.getD s.strategy
  passes := o.passes.getD s.passes
  unresolved := o.unresolved.getD s.unresolved
  format := o.format.getD s.format
  rules := o.rules.getD s.rules
  color := o.color.getD s.color

/-- The settings that there are conditions on, in a fixed order. -/
def checked (s : Settings) : List CheckedSetting :=
  [⟨some "Simplifier", "Substitution", [.oneOf s.substitution ["first", "all"]]⟩,
    ⟨some "Solver", "Strategy", [.oneOf s.strategy ["fixpoint", "bounded"]]⟩,
    ⟨some "Solver", "Passes", [.min s.passes 1, .max s.passes 64]⟩,
    ⟨none, "Unresolved", [.oneOf s.unresolved ["error", "bivariant", "invariant"]]⟩,
    ⟨some "Output", "Format", [.oneOf s.format ["text", "json", "yaml"]]⟩,
    ⟨some "Output", "Color", [.oneOf s.color ["auto", "always", "never"]]⟩]

/-- The settings that have no meaning, in a fixed order. -/
def faults (s : Settings) : List SettingFault := Validator.first.faults s.checked

/-- Whether all settings have a meaning. -/
def isValid (s : Settings) : Bool := s.faults.isEmpty

/-- The settings for inference. -/
def options (s : Settings) : Options := ⟨s.substitution, s.strategy, s.passes, s.unresolved⟩

/-- Whether output is coloured. Where that depends on it, a terminal is. -/
def usesColor (s : Settings) (terminal : Bool) : Bool :=
  if s.color = "always" then true else if s.color = "never" then false else terminal

end Settings

end Polarity

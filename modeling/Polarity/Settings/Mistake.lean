import Polarity.Settings
import Polarity.Text.Quoted

/-!
# Mistakes in settings

What can be wrong with a document that should hold settings, and how that is said.

* `Mistake`: a value or a key is wrong, and the rest can be read;
* `Refusal`: nothing can be read;
* `DecodeError`: why settings are not read to their end;
* `SettingsError`: why a document makes no settings.
-/

namespace Polarity

/-- A section of the settings. -/
inductive Area where
  | root
  | simplifier
  | solver
  | output
  deriving DecidableEq, Repr

/-- The name of a section as a type. -/
def Area.name : Area → Text
  | .root => "config.Config"
  | .simplifier => "config.Simplifier"
  | .solver => "config.Solver"
  | .output => "config.Output"

/-- What a value should be. -/
inductive ValueType where
  | text
  | integer
  | truth
  | area (a : Area)
  deriving DecidableEq, Repr

/-- The name of a type. -/
def ValueType.name : ValueType → Text
  | .text => "string"
  | .integer => "int"
  | .truth => "bool"
  | .area a => a.name

/-- Something that is wrong with a value or a key. -/
inductive Mistake where
  /-- A key is written twice in one mapping. -/
  | repeatedKey (key : Text) (line : Nat)
  /-- A key names no setting of its section. -/
  | unknownKey (key : Text) (area : Area)
  /-- Two keys name the same setting. -/
  | repeatedSetting (key : Text) (area : Area)
  /-- A value is of another type. -/
  | mistyped (tag value : Text) (type : ValueType)
  deriving DecidableEq, Repr

namespace Mistake

/-- A long value is cut. -/
def shown (value : Text) : Text := if 10 < value.length then value.take 7 ++ "..." else value

/-- A value after its tag. The tags of collections are followed by no quotes. -/
def tagged (tag value : Text) : Text :=
  if tag = "!!seq" || tag = "!!map" then tag ++ value else tag ++ " `" ++ shown value ++ "`"

/-- What is said of a mistake. -/
def text : Mistake → Text
  | .repeatedKey key line =>
    "mapping key " ++ key.quoted ++ " already defined at line " ++ Text.ofNat line
  | .unknownKey key area => "field " ++ key ++ " not found in type " ++ area.name
  | .repeatedSetting key area => "field " ++ key ++ " already set in type " ++ area.name
  | .mistyped tag value type => "cannot unmarshal " ++ tagged tag value ++ " into " ++ type.name

end Mistake

/-- A mistake and its line. -/
structure PlacedMistake where
  line : Nat
  mistake : Mistake
  deriving DecidableEq, Repr

/-- What is said of a mistake on its line. -/
def PlacedMistake.text (m : PlacedMistake) : Text :=
  "line " ++ Text.ofNat m.line ++ ": " ++ m.mistake.text

/-- A kind of collection. -/
inductive Collection where
  | sequence
  /-- A mapping whose keys are texts. -/
  | textMapping
  | mapping
  deriving DecidableEq, Repr

/-- The name of a kind of collection as a type. -/
def Collection.name : Collection → Text
  | .sequence => "[]interface {}"
  | .textMapping => "map[string]interface {}"
  | .mapping => "map[interface {}]interface {}"

/-- Why nothing can be read. -/
inductive Refusal where
  /-- The document is not YAML, or contradicts its own tags, anchors or merges. -/
  | unreadable
  /-- A collection stands where a key is noted, or looked up among others. -/
  | unhashable (kind : Collection)
  /-- A collection stands where a key is looked up and there are none. -/
  | unhashableAlone (kind : Collection)
  deriving DecidableEq, Repr

/-- What is said of a refusal. What the decoder adds about a document that it cannot
read is its own. -/
def Refusal.text : Refusal → Text
  | .unreadable => "could not decode configuration"
  | .unhashable kind => "runtime error: hash of unhashable type " ++ kind.name
  | .unhashableAlone kind => "hash of unhashable type: " ++ kind.name

/-- Why a decoder has not read settings to their end. -/
inductive DecodeError where
  /-- There is no document. -/
  | ended
  | refused (r : Refusal)
  | mistakes (ms : List PlacedMistake)
  deriving DecidableEq, Repr

/-- Why a document makes no settings. -/
inductive SettingsError where
  | refused (r : Refusal)
  | mistakes (ms : List PlacedMistake)
  | faults (fs : List SettingFault)
  deriving DecidableEq, Repr

/-- What is said of the error. -/
def SettingsError.text : SettingsError → Text
  | .refused r => r.text
  | .mistakes ms =>
    "could not decode configuration: yaml: unmarshal errors:\n  " ++
      Text.joined "\n  " (ms.map PlacedMistake.text)
  | .faults fs => SettingFault.texts fs

end Polarity

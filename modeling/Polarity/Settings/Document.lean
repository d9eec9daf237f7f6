import Polarity.Settings.Decode

/-!
# Settings in a file

Settings are written as a YAML mapping with a mapping for each section. They are
read over the defaults by one package, and checked by another one.

Of a document, what is not mentioned, or is null, is not changed. All that is wrong
with the types and names in it is reported together.

* `Presence.overrides`: the settings that a document changes, by its keys;
* `Decoder`, `Decoder.Overwrites`: a package that reads documents over settings;
* `Loader`: the packages that settings are made with;
* `Loader.read`: the settings that a document makes, if they have a meaning;
* `Decoder.yaml`, `Loader.standard`: such packages.
-/

namespace Polarity

/-- What is present in a document: the values at the ends of paths of keys, as far as
they are of a type. -/
structure Presence where
  text : (path : List Text) → Option Text
  integer : (path : List Text) → Option Int
  truth : (path : List Text) → Option Bool

/-- The settings that a document changes. -/
def Presence.overrides (p : Presence) : Overrides where
  substitution := p.text ["simplifier", "substitution"]
  strategy := p.text ["solver", "strategy"]
  passes := p.integer ["solver", "passes"]
  unresolved := p.text ["unresolved"]
  format := p.text ["output", "format"]
  rules := p.truth ["output", "rules"]
  color := p.text ["output", "color"]

/-- A package that reads documents. -/
structure Decoder where
  /-- The settings after a document has been read over others, and why it has not been
  read to its end. -/
  decode : Text → Settings → Settings × Option DecodeError

/-- The package has read all that there is in the document: to its end, or there is none. -/
def Decoder.Decodes (d : Decoder) (content : Text) (base s : Settings) : Prop :=
  d.decode content base = (s, none) ∨ d.decode content base = (s, some .ended)

/-- The package overwrites those settings whose keys are present in a document, with the
values they have there, and no others. -/
structure Decoder.Overwrites (d : Decoder) (present : Text → Presence) : Prop where
  eq_override : ∀ content base s, d.Decodes content base s →
    s = base.override (present content).overrides

/-- The packages that settings are made with. -/
structure Loader where
  decoder : Decoder
  validator : Validator

/-- The settings, if they have a meaning. -/
def Loader.validate (l : Loader) (s : Settings) : Except (List SettingFault) Settings :=
  match l.validator.faults s.checked with
  | [] => .ok s
  | faults => .error faults

/-- The settings that a document makes on top of the defaults. There may be no document
in a text. -/
def Loader.read (l : Loader) (t : Text) : Except SettingsError Settings :=
  match l.decoder.decode t .default with
  | (_, some (.refused r)) => .error (.refused r)
  | (_, some (.mistakes ms)) => .error (.mistakes ms)
  | (s, none) | (s, some .ended) => (l.validate s).mapError .faults

/-- The settings that a document changes. No two aliases can be followed inside
each other twice, which bounds how deep sections can lie. -/
def Overrides.read (t : Text) : Except DecodeError Overrides :=
  match Yaml.Document.read t with
  | none => .error (.refused .unreadable)
  | some none => .error .ended
  | some (some document) =>
    let depth := 4 * (t.length + 2) * (t.length + 2)
    match (Decode.readArea depth .root document.root).run { anchors := document.anchors } with
    | .error refusal => .error (.refused refusal)
    | .ok (_, d) =>
      if d.mistakes.isEmpty then .ok d.overrides else .error (.mistakes d.mistakes.reverse)

/-- A package that reads YAML. -/
def Decoder.yaml : Decoder where
  decode t base :=
    match Overrides.read t with
    | .ok o => (base.override o, none)
    | .error e => (base, some e)

/-- The packages that commands use. -/
def Loader.standard : Loader := ⟨.yaml, .first⟩

/-- The settings that a document makes for a command. -/
def Settings.read (t : Text) : Except SettingsError Settings := Loader.standard.read t

end Polarity

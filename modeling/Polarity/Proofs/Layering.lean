import Mathlib.Data.List.Basic
import Polarity.Command

/-!
# Layers of settings

Settings are made from defaults, a file and flags. The same names are looked up in several places:
when settings are checked, and later when a policy, a strategy or a format is chosen by its name.
What reads the file and what checks the settings are any packages that do so as they should.

* `checked_iff`, `faults_eq_nil_iff_valid`: the settings that have a meaning;
* `set_made`, `setAll_made`: of several values of one flag, the last one counts;
* `ofFile_eq_ok_iff`, `resolve_eq_ok_iff`: when there are settings, and which;
* `yaml_overwrites`, `first_lawful`: packages that do as they should;
* `infer_of_known`, `Settings.Valid.infer_source`: settings that were checked are never refused
  later;
* `settings_layered`: every setting comes from the topmost layer that has it.
-/

namespace Polarity

/-! ## Settings that have a meaning -/

/-- Every setting is one of its possible values. -/
structure Settings.Valid (s : Settings) : Prop where
  substitution : s.substitution = "first" ∨ s.substitution = "all"
  strategy : s.strategy = "fixpoint" ∨ s.strategy = "bounded"
  passes : 1 ≤ s.passes ∧ s.passes ≤ 64
  unresolved : s.unresolved = "error" ∨ s.unresolved = "bivariant" ∨ s.unresolved = "invariant"
  format : s.format = "text" ∨ s.format = "json" ∨ s.format = "yaml"
  color : s.color = "auto" ∨ s.color = "always" ∨ s.color = "never"

/-- The conditions on settings are those that give them a meaning. -/
theorem checked_iff {s : Settings} :
    (∀ setting ∈ s.checked, ∀ c ∈ setting.conditions, c.Holds) ↔ s.Valid := by
  simp only [Settings.checked, List.forall_mem_cons, Condition.Holds]
  simp only [List.mem_cons, List.not_mem_nil, or_false, false_implies, implies_true, and_true]
  constructor
  · rintro ⟨substitution, strategy, passes, unresolved, format, color⟩
    exact ⟨substitution, strategy, passes, unresolved, format, color⟩
  · rintro ⟨substitution, strategy, passes, unresolved, format, color⟩
    exact ⟨substitution, strategy, passes, unresolved, format, color⟩

/-- A package that knows the conditions refuses exactly the settings without a meaning. -/
theorem faults_eq_nil_iff_valid {v : Validator} (lawful : v.Lawful) {s : Settings} :
    v.faults s.checked = [] ↔ s.Valid :=
  (lawful.faults_eq_nil_iff s.checked).trans checked_iff

theorem first_lawful : Validator.first.Lawful where
  faults_eq_nil_iff settings := by
    simp [Validator.first, List.filterMap_eq_nil_iff]

theorem isValid_iff {s : Settings} : s.isValid = true ↔ s.Valid :=
  List.isEmpty_iff.trans (faults_eq_nil_iff_valid first_lawful)

theorem default_valid : Settings.default.Valid := isValid_iff.1 (by decide)

/-! ## The layer of the flags -/

/-- The value of a flag that is given. Of several values, the last one counts. -/
def Flag.value? (given : List (Flag × Text)) (flag : Flag) : Option Text :=
  given.reverse.lookup flag

theorem value?_snoc (given : List (Flag × Text)) (flag other : Flag) (value : Text) :
    Flag.value? (given ++ [(flag, value)]) other =
      if other = flag then some value else Flag.value? given other := by
  rw [Flag.value?, List.reverse_append, List.reverse_singleton, List.singleton_append,
    List.lookup_cons]
  by_cases same : other = flag
  · simp [same]
  · simp [same, Flag.value?, beq_eq_false_iff_ne.2 same]

/-- The invocation is made of the flags that are given: those that were not given change nothing,
and integers and truth values are read. Rules are shown unless a flag says that they are not. -/
structure Invocation.Made (given : List (Flag × Text)) (i : Invocation) : Prop where
  config : i.config = (Flag.value? given .config).getD []
  substitution : i.overrides.substitution = Flag.value? given .substitution
  strategy : i.overrides.strategy = Flag.value? given .strategy
  passes : i.overrides.passes.map Except.ok = (Flag.value? given .passes).map Integer.read
  unresolved : i.overrides.unresolved = Flag.value? given .unresolved
  format : i.overrides.format = Flag.value? given .format
  rules : (i.overrides.rules.map fun shown => some !shown) =
    (Flag.value? given .noRules).map fun value => truths.lookup value
  color : i.overrides.color = Flag.value? given .color

theorem integer_eq_ok {flag : Flag} {value : Text} {f : Int → Invocation} {j : Invocation}
    (h : (Invocation.integer flag value).map f = .ok j) :
    ∃ n, Integer.read value = .ok n ∧ j = f n := by
  rw [Invocation.integer] at h
  cases read : Integer.read value with
  | error e =>
    rw [read] at h
    cases h
  | ok n =>
    rw [read] at h
    cases h
    exact ⟨n, rfl, rfl⟩

theorem truth_eq_ok {flag : Flag} {value : Text} {f : Bool → Invocation} {j : Invocation}
    (h : (Invocation.truth flag value).map f = .ok j) :
    ∃ b, Invocation.truths.lookup value = some b ∧ j = f b := by
  rw [Invocation.truth] at h
  cases read : Invocation.truths.lookup value with
  | none =>
    rw [read] at h
    cases h
  | some b =>
    rw [read] at h
    cases h
    exact ⟨b, rfl, rfl⟩

/-- One more flag changes its own setting and no other. -/
theorem set_made {given : List (Flag × Text)} {i j : Invocation} {flag : Flag} {value : Text}
    (h : i.set flag value = .ok j) (made : i.Made given) : j.Made (given ++ [(flag, value)]) := by
  obtain ⟨config, substitution, strategy, passes, unresolved, format, rules, color⟩ := made
  -- Flags whose value is read come first; the others take every text.
  cases flag with
  | passes | logLevel =>
    obtain ⟨n, read, rfl⟩ := integer_eq_ok h
    constructor <;> simp [value?_snoc, *]
  | noRules | help =>
    obtain ⟨b, read, rfl⟩ := truth_eq_ok h
    constructor <;> simp [value?_snoc, *]
  | config | format | substitution | strategy | unresolved | color =>
    cases h
    constructor <;> simp [value?_snoc, *]

theorem setAll_made {given later : List (Flag × Text)} {i j : Invocation}
    (h : i.setAll later = .ok j) (made : i.Made given) : j.Made (given ++ later) := by
  induction later generalizing given i with
  | nil =>
    cases h
    rwa [List.append_nil]
  | cons pair rest ih =>
    obtain ⟨flag, value⟩ := pair
    rw [Invocation.setAll] at h
    split at h
    · cases h
    · rename_i next set
      have whole := ih h (set_made set made)
      rwa [List.append_assoc] at whole

/-! ## The layer of the file -/

/-- What the file changes: that of which the keys are present in it, if it can be decoded. If none
was named, it may be missing and then changes nothing. -/
inductive Settings.FileLayer (d : Decoder) (present : Text → Presence) (files : Files)
    (named : Text) : Overrides → Prop
  | decoded {content : Text} {s : Settings} (file : files (Settings.path named) = .ok content)
      (decodes : d.Decodes content .default s) :
      FileLayer d present files named (present content).overrides
  | missing (unnamed : named = []) (file : files Settings.defaultFile = .error .missing) :
      FileLayer d present files named {}

section
variable {l : Loader} {present : Text → Presence}

theorem mapError_eq_ok_iff {ε ε' α : Type} {f : ε → ε'} {x : Except ε α} {a : α} :
    x.mapError f = .ok a ↔ x = .ok a := by
  cases x <;> simp [Except.mapError]

theorem validate_eq_ok_iff (lawful : l.validator.Lawful) {s s' : Settings} :
    l.validate s' = .ok s ↔ s' = s ∧ s.Valid := by
  rw [← faults_eq_nil_iff_valid lawful, Loader.validate]
  split
  · rename_i fine
    rw [Except.ok.injEq, iff_self_and]
    rintro rfl
    exact fine
  · rename_i faulty
    simp only [reduceCtorEq, false_iff, not_and]
    rintro rfl
    exact faulty

/-- Only settings that have been read to their end are checked. -/
theorem read_eq_ok_iff (lawful : l.validator.Lawful) {content : Text} {s : Settings} :
    l.read content = .ok s ↔ l.decoder.Decodes content .default s ∧ s.Valid := by
  rw [Loader.read, Decoder.Decodes]
  obtain ⟨s', stopped⟩ := l.decoder.decode content .default
  cases stopped with
  | none => simp [mapError_eq_ok_iff, validate_eq_ok_iff lawful]
  | some e =>
    cases e with
    | ended => simp [mapError_eq_ok_iff, validate_eq_ok_iff lawful]
    | refused r => simp
    | mistakes ms => simp

/-- There are settings from the file exactly if it can be decoded and its settings have a
meaning. -/
theorem ofFile_eq_ok_iff (overwrites : l.decoder.Overwrites present)
    (lawful : l.validator.Lawful) {files : Files} {named : Text} {s : Settings} :
    l.ofFile files named = .ok s ↔
      ∃ file, Settings.FileLayer l.decoder present files named file ∧
        (Settings.default.override file).Valid ∧ s = Settings.default.override file := by
  unfold Loader.ofFile
  constructor
  · intro h
    cases file : files (Settings.path named) with
    | ok content =>
      simp only [file, mapError_eq_ok_iff] at h
      obtain ⟨decodes, valid⟩ := (read_eq_ok_iff lawful).1 h
      obtain rfl := overwrites.eq_override _ _ _ decodes
      exact ⟨_, .decoded file decodes, valid, rfl⟩
    | error fault =>
      simp only [file] at h
      split at h
      · rename_i absent
        obtain ⟨unnamed, rfl⟩ : named = [] ∧ fault = .missing := by simpa using absent
        subst unnamed
        cases h
        exact ⟨{}, .missing rfl file, default_valid, rfl⟩
      · cases h
  · rintro ⟨layer, file, valid, rfl⟩
    cases file with
    | decoded file decodes =>
      obtain rfl := overwrites.eq_override _ _ _ decodes
      simp only [file, mapError_eq_ok_iff]
      exact (read_eq_ok_iff lawful).2 ⟨decodes, valid⟩
    | missing unnamed file =>
      subst unnamed
      have file : files (Settings.path []) = .error .missing := file
      simp only [file, List.isEmpty_nil, decide_true, Bool.and_self, ↓reduceIte]
      rfl

/-- There are settings of an invocation exactly if there are some of the file, and they have a
meaning under the flags too. -/
theorem resolve_of_ofFile (lawful : l.validator.Lawful) {files : Files} {i : Invocation}
    {s : Settings} : l.resolve files i = .ok s ↔
      ∃ base, l.ofFile files i.config = .ok base ∧ base.override i.overrides = s ∧ s.Valid := by
  unfold Loader.resolve
  cases layer : l.ofFile files i.config with
  | error e => simp
  | ok base => simp [mapError_eq_ok_iff, validate_eq_ok_iff lawful]

theorem resolve_valid (lawful : l.validator.Lawful) {files : Files} {i : Invocation}
    {s : Settings} (resolved : l.resolve files i = .ok s) : s.Valid := by
  obtain ⟨_, _, _, valid⟩ := (resolve_of_ofFile lawful).1 resolved
  exact valid

theorem resolve_eq_ok_iff (overwrites : l.decoder.Overwrites present)
    (lawful : l.validator.Lawful) {files : Files} {i : Invocation} {s : Settings} :
    l.resolve files i = .ok s ↔
      ∃ file, Settings.FileLayer l.decoder present files i.config file ∧
        (Settings.default.override file).Valid ∧
        s = (Settings.default.override file).override i.overrides ∧ s.Valid := by
  rw [resolve_of_ofFile lawful]
  constructor
  · rintro ⟨base, layer, rfl, together⟩
    obtain ⟨file, found, valid, rfl⟩ := (ofFile_eq_ok_iff overwrites lawful).1 layer
    exact ⟨file, found, valid, rfl, together⟩
  · rintro ⟨file, found, valid, rfl, together⟩
    have layer := (ofFile_eq_ok_iff overwrites lawful).2 ⟨file, found, valid, rfl⟩
    exact ⟨_, layer, rfl, together⟩

end

/-- The values that settings are changed to, at the ends of their paths. -/
def Overrides.presence (o : Overrides) : Presence where
  text path :=
    if path = ["simplifier", "substitution"] then o.substitution
    else if path = ["solver", "strategy"] then o.strategy
    else if path = ["unresolved"] then o.unresolved
    else if path = ["output", "format"] then o.format
    else if path = ["output", "color"] then o.color
    else none
  integer path := if path = ["solver", "passes"] then o.passes else none
  truth path := if path = ["output", "rules"] then o.rules else none

theorem overrides_presence (o : Overrides) : o.presence.overrides = o := rfl

/-- What is present in a text. If it is no document, that is nothing. -/
def Presence.yaml (t : Text) : Presence := ((Overrides.read t).toOption.getD {}).presence

theorem yaml_overwrites : Decoder.yaml.Overwrites Presence.yaml where
  eq_override content base s decodes := by
    rw [Presence.yaml, overrides_presence]
    rw [Decoder.Decodes, Decoder.yaml] at decodes
    cases read : Overrides.read content with
    | ok o =>
      simp only [read, Prod.mk.injEq, and_true, reduceCtorEq, and_false, or_false] at decodes
      exact decodes.symm
    | error e =>
      simp only [read, Prod.mk.injEq, reduceCtorEq, and_false, false_or] at decodes
      exact decodes.1.symm

/-! ## Settings that were checked -/

section
variable {s : Settings}

theorem Settings.Valid.policy_known (valid : s.Valid) :
    ∃ policy, Policy.ofName? s.unresolved = some policy := by
  obtain name | name | name := valid.unresolved <;> rw [name] <;> exact ⟨_, rfl⟩

theorem Settings.Valid.strategy_known (valid : s.Valid) :
    ∃ strategy, Strategy.ofName? s.strategy = some strategy := by
  obtain name | name := valid.strategy <;> rw [name] <;> exact ⟨_, rfl⟩

theorem Settings.Valid.format_known (valid : s.Valid) :
    ∃ format, Format.ofName? s.format = some format := by
  obtain name | name | name := valid.format <;> rw [name] <;> exact ⟨_, rfl⟩

/-- With a known policy and a known strategy, inference fails only with diagnostics. -/
theorem infer_of_known (options : Options) {policy : Policy} {strategy : Strategy}
    (chosen : Policy.ofName? options.unresolved = some policy)
    (known : Strategy.ofName? options.strategy = some strategy) (source : Text) :
    (∃ ds, infer options source = .error (.diagnostics ds)) ∨
      ∃ i, infer options source = .ok i := by
  cases parsed : parse source with
  | error d =>
    refine .inl ⟨[d], ?_⟩
    rw [infer, parsed]
  | ok decls =>
    have generated : generateNamed ⟨decls⟩ options.unresolved = some (generate ⟨decls⟩ policy) := by
      rw [generateNamed, chosen]
    by_cases fine : (generate ⟨decls⟩ policy).errors.isEmpty
    · right
      simp only [infer, parsed, inferClasses, generated, fine, known, ↓reduceIte]
      exact ⟨_, rfl⟩
    · left
      simp only [infer, parsed, inferClasses, generated, fine, ↓reduceIte, Bool.false_eq_true]
      exact ⟨_, rfl⟩

/-- A source fails only with its own diagnostics, or else its report is rendered in the format of
the settings. -/
theorem Settings.Valid.infer_source (valid : s.Valid) (color : Bool) (source : Source) :
    (∃ ds, infer s.options source.text = .error (.diagnostics ds) ∧
      source.infer s color = .error (Diagnostic.textsIn source.name source.text ds)) ∨
    ∃ i format, infer s.options source.text = .ok i ∧ Format.ofName? s.format = some format ∧
      source.infer s color = .ok ((i.report s.rules).render format color) := by
  obtain ⟨policy, chosen⟩ := valid.policy_known
  obtain ⟨strategy, known⟩ := valid.strategy_known
  obtain ⟨format, named⟩ := valid.format_known
  obtain ⟨ds, failed⟩ | ⟨i, inferred⟩ := infer_of_known s.options chosen known source.text
  · exact .inl ⟨ds, failed, by simp only [Source.infer, failed]⟩
  · exact .inr ⟨i, format, inferred, named, by simp only [Source.infer, inferred, named]⟩

end

/-! ## All layers -/

/-- Each setting is the one that the flags give, else the one in the file, else the default. -/
structure Settings.Layered (given : List (Flag × Text)) (file : Overrides) (s : Settings) :
    Prop where
  substitution :
    s.substitution = ((Flag.value? given .substitution).or file.substitution).getD "first"
  strategy : s.strategy = ((Flag.value? given .strategy).or file.strategy).getD "fixpoint"
  passes :
    match Flag.value? given .passes with
    | some value => Integer.read value = .ok s.passes
    | none => s.passes = file.passes.getD 2
  unresolved : s.unresolved = ((Flag.value? given .unresolved).or file.unresolved).getD "error"
  format : s.format = ((Flag.value? given .format).or file.format).getD "text"
  rules :
    match Flag.value? given .noRules with
    | some value => Invocation.truths.lookup value = some !s.rules
    | none => s.rules = file.rules.getD true
  color : s.color = ((Flag.value? given .color).or file.color).getD "auto"

theorem Invocation.Made.layered {given : List (Flag × Text)} {i : Invocation} (made : i.Made given)
    (file : Overrides) :
    ((Settings.default.override file).override i.overrides).Layered given file := by
  have ⟨_, substitution, strategy, passes, unresolved, format, rules, color⟩ := made
  refine ⟨?_, ?_, ?_, ?_, ?_, ?_, ?_⟩
  · rw [← substitution, Option.getD_or]
    rfl
  · rw [← strategy, Option.getD_or]
    rfl
  · cases value : Flag.value? given .passes with
    | some value =>
      rw [value] at passes
      obtain ⟨n, set, read⟩ := Option.map_eq_some_iff.1 passes
      simp only [Settings.override, set, Option.getD_some, ← read]
    | none =>
      rw [value] at passes
      have unset := Option.map_eq_none_iff.1 passes
      simp only [Settings.override, unset, Option.getD_none]
      rfl
  · rw [← unresolved, Option.getD_or]
    rfl
  · rw [← format, Option.getD_or]
    rfl
  · cases value : Flag.value? given .noRules with
    | some value =>
      rw [value] at rules
      obtain ⟨shown, set, read⟩ := Option.map_eq_some_iff.1 rules
      simp only [Settings.override, set, Option.getD_some, ← read]
    | none =>
      rw [value] at rules
      have unset := Option.map_eq_none_iff.1 rules
      simp only [Settings.override, unset, Option.getD_none]
      rfl
  · rw [← color, Option.getD_or]
    rfl

/-- **Settings come in layers.** Take any packages of which one overwrites exactly the settings
whose keys are present in a document, and the other one knows the conditions on settings. Whatever
the files hold and whichever flags are given, there are settings exactly if the file can be decoded
and its settings have a meaning, and they still have one under the flags. Each of them is that of
the flags, else that of the file, else the default. With such settings every source either fails
with its own diagnostics or is rendered: no policy, strategy or format turns out to be unknown. -/
theorem settings_layered (l : Loader) (present : Text → Presence)
    (overwrites : l.decoder.Overwrites present) (lawful : l.validator.Lawful)
    (files : Files) (words : List Text) (given : List (Flag × Text))
    (i : Invocation) (flags : Invocation.setAll { words } given = .ok i) :
    ((∃ s, l.resolve files i = .ok s) ↔
      ∃ file,
        Settings.FileLayer l.decoder present files ((Flag.value? given .config).getD []) file ∧
        (Settings.default.override file).Valid ∧
        ((Settings.default.override file).override i.overrides).Valid) ∧
    ∀ s, l.resolve files i = .ok s →
      s.Valid ∧
      (∃ file,
        Settings.FileLayer l.decoder present files ((Flag.value? given .config).getD []) file ∧
        s.Layered given file) ∧
      ∀ (color : Bool) (source : Source),
        (∃ ds, infer s.options source.text = .error (.diagnostics ds) ∧
          source.infer s color = .error (Diagnostic.textsIn source.name source.text ds)) ∨
        ∃ result format, infer s.options source.text = .ok result ∧
          Format.ofName? s.format = some format ∧
          source.infer s color = .ok ((result.report s.rules).render format color) := by
  have unset : ({ words } : Invocation).Made [] := ⟨rfl, rfl, rfl, rfl, rfl, rfl, rfl, rfl⟩
  have made : i.Made given := setAll_made flags unset
  rw [← made.config]
  constructor
  · constructor
    · rintro ⟨s, resolved⟩
      obtain ⟨file, layer, valid, rfl, together⟩ :=
        (resolve_eq_ok_iff overwrites lawful).1 resolved
      exact ⟨file, layer, valid, together⟩
    · rintro ⟨file, layer, valid, together⟩
      exact ⟨_, (resolve_eq_ok_iff overwrites lawful).2 ⟨file, layer, valid, rfl, together⟩⟩
  · intro s resolved
    obtain ⟨file, layer, _, rfl, valid⟩ := (resolve_eq_ok_iff overwrites lawful).1 resolved
    exact ⟨valid, ⟨file, layer, made.layered file⟩, valid.infer_source⟩

/-- Two files with settings: one that makes sense, and one with a format that does not exist. -/
def settingsFiles : Files := fun path =>
  if path = ("sound.yaml" : Text) then .ok "unresolved: bivariant\noutput:\n  format: yaml\n"
  else if path = ("unsound.yaml" : Text) then .ok "output:\n  format: xml\n"
  else .error .missing

/-- The last format that a flag names counts, and the other settings are left to the file; but flags
do not make up for a format in the file that does not exist. -/
theorem settings_layered_twice :
    let given (file : Text) : List (Flag × Text) :=
      [(.config, file), (.format, "xml"), (.noRules, "T"), (.format, "json")]
    let i (file : Text) : Invocation :=
      { config := file, overrides := { format := some "json", rules := some false } }
    let layer (file : Text) : Overrides → Prop :=
      Settings.FileLayer Decoder.yaml Presence.yaml settingsFiles file
    (∀ file, Invocation.setAll { words := [] } (given file) = .ok (i file)) ∧
    (Presence.yaml "unresolved: bivariant\noutput:\n  format: yaml\n").overrides =
      { unresolved := some "bivariant", format := some "yaml" } ∧
    (∃ s, Settings.resolve settingsFiles (i "sound.yaml") = .ok s ∧ s.Valid ∧
      s = ⟨"first", "fixpoint", 2, "bivariant", "json", false, "auto"⟩ ∧
      ∃ file, layer "sound.yaml" file ∧ s.Layered (given "sound.yaml") file) ∧
    ¬ ∃ file, layer "unsound.yaml" file ∧ (Settings.default.override file).Valid ∧
      ((Settings.default.override file).override (i "unsound.yaml").overrides).Valid := by
  intro given i layer
  have flags (file : Text) : Invocation.setAll { words := [] } (given file) = .ok (i file) := rfl
  have resolved : Settings.resolve settingsFiles (i "sound.yaml") =
      .ok ⟨"first", "fixpoint", 2, "bivariant", "json", false, "auto"⟩ := by decide +kernel
  have refused : Settings.resolve settingsFiles (i "unsound.yaml") =
      .error (.inFile "unsound.yaml" (.faults [⟨some "Output", "Format", "oneof"⟩])) := by
    decide +kernel
  obtain ⟨valid, layers, _⟩ :=
    (settings_layered .standard Presence.yaml yaml_overwrites first_lawful settingsFiles [] _ _
      (flags "sound.yaml")).2 _ resolved
  refine ⟨flags, by decide +kernel, ⟨_, resolved, valid, rfl, layers⟩, fun layer => ?_⟩
  obtain ⟨s, resolved'⟩ :=
    (settings_layered .standard Presence.yaml yaml_overwrites first_lawful settingsFiles [] _ _
      (flags "unsound.yaml")).1.2 layer
  have resolved' : Settings.resolve settingsFiles (i "unsound.yaml") = .ok s := resolved'
  rw [refused] at resolved'
  cases resolved'

end Polarity

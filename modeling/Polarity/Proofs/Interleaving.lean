import Mathlib.Data.List.Perm.Basic
import Polarity.Proofs.Layering
import Polarity.Proofs.Tasks

/-!
# Sources that are worked on at the same time

What the command `infer` shows of several sources is what it shows of each of them alone, in their
order, whichever order the tasks of the sources run and finish in. Only when all tasks have returned
is anything written, and nothing is if some source could not be read.

* `Source.Gives`: what inference gives for a source;
* `Outcome.Tells`: what is written is told source by source;
* `exists_readSources`, `readSources_error`: sources are read all or not at all;
* `Command.Determined`: what the command does is the same for every order;
* `infer_interleaved`: so it is by any package that runs tasks as it should.
-/

namespace Polarity

open Relation (ReflTransGen)

/-! ## What is written -/

/-- What inference gives for a source: its report, in the format of the settings, or what is said of
its own diagnostics. -/
inductive Source.Gives (settings : Settings) (color : Bool) (s : Source) : Except Text Text → Prop
  | shown {i : Inference} {format : Format}
      (inferred : Polarity.infer settings.options s.text = .ok i)
      (named : Format.ofName? settings.format = some format) :
      Gives settings color s (.ok ((i.report settings.rules).render format color))
  | diagnosed {ds : List Diagnostic}
      (failed : Polarity.infer settings.options s.text = .error (.diagnostics ds)) :
      Gives settings color s (.error (Diagnostic.textsIn s.name s.text ds))

theorem Settings.Valid.gives {settings : Settings} (valid : settings.Valid) (color : Bool)
    (s : Source) : s.Gives settings color (s.infer settings color) := by
  obtain ⟨ds, failed, result⟩ | ⟨i, format, inferred, named, result⟩ := valid.infer_source color s
  · exact result ▸ .diagnosed failed
  · exact result ▸ .shown inferred named

/-- What a source adds to the output when there are `count` sources. -/
def Source.contribution (settings : Settings) (color : Bool) (count : Nat) (s : Source) : Text :=
  (if 1 < count ∧ settings.format = "text" then "==> " ++ s.name ++ " <==\n" else []) ++
    outputOf (s.infer settings color)

/-- What a source adds to the errors. -/
def Source.complaint (settings : Settings) (color : Bool) (s : Source) : Text :=
  match failureOf (s.infer settings color) with
  | none => []
  | some failure => failure.line

/-- Whether inference on a source fails. -/
def Source.fails (settings : Settings) (color : Bool) (s : Source) : Bool :=
  (failureOf (s.infer settings color)).isSome

/-- The outcome is told source by source, in the order of the sources. -/
structure Outcome.Tells (settings : Settings) (color : Bool) (sources : List Source)
    (o : Outcome) : Prop where
  out : o.out = sources.flatMap (Source.contribution settings color sources.length)
  err : o.err = sources.flatMap (Source.complaint settings color)
  fails : o.failure.isSome ↔ ∃ s ∈ sources, ∃ failure, s.infer settings color = .error failure
  message : ∀ e ∈ o.failure, e.text = "inference failed for " ++
    Text.joined ", " ((sources.filter (Source.fails settings color)).map Source.name)

theorem Source.fails_iff {settings : Settings} {color : Bool} {s : Source} :
    s.fails settings color ↔ ∃ failure, s.infer settings color = .error failure := by
  unfold Source.fails
  cases s.infer settings color <;> simp [failureOf]

/-- Writes of each source what is its own. -/
def Writing.ofEach (settings : Settings) (color : Bool) (sources : List Source) : Writing where
  out := sources.flatMap (Source.contribution settings color sources.length)
  err := sources.flatMap (Source.complaint settings color)
  failed := (sources.filter (Source.fails settings color)).map Source.name

theorem add_infer (settings : Settings) (color : Bool) (count : Nat) (w : Writing) (s : Source) :
    Writing.add settings count w (s, some (s.infer settings color)) =
      ⟨w.out ++ s.contribution settings color count, w.err ++ s.complaint settings color,
        w.failed ++ ([s].filter (Source.fails settings color)).map Source.name⟩ := by
  cases result : s.infer settings color with
  | ok shown =>
    have succeeds : s.fails settings color = false := by rw [Source.fails, result]; rfl
    simp [Writing.add, Writing.header, Source.contribution, Source.complaint, result, outputOf,
      failureOf, succeeds]
  | error failure =>
    have fails : s.fails settings color = true := by rw [Source.fails, result]; rfl
    simp [Writing.add, Writing.header, Source.contribution, Source.complaint, result, outputOf,
      failureOf, fails]

theorem foldl_add_infer (settings : Settings) (color : Bool) (count : Nat) (w : Writing)
    (sources : List Source) :
    (sources.map fun s => (s, some (s.infer settings color))).foldl
        (Writing.add settings count) w =
      ⟨w.out ++ sources.flatMap (Source.contribution settings color count),
        w.err ++ sources.flatMap (Source.complaint settings color),
        w.failed ++ (sources.filter (Source.fails settings color)).map Source.name⟩ := by
  induction sources generalizing w with
  | nil => simp
  | cons s rest ih =>
    rw [List.map_cons, List.foldl_cons, add_infer, ih]
    simp only [List.flatMap_cons, List.append_assoc]
    rw [← List.map_append, ← List.filter_append, List.singleton_append]

/-- Sources with a result each are written one after another. -/
theorem all_infer (settings : Settings) (color : Bool) (sources : List Source) :
    Writing.all settings sources (sources.map fun s => some (s.infer settings color)) =
      .ofEach settings color sources := by
  rw [Writing.all, ← List.map_prod_left_eq_zip, foldl_add_infer]
  rfl

theorem ofEach_tells (settings : Settings) (color : Bool) (sources : List Source)
    (log : List Text) :
    ((Writing.ofEach settings color sources).outcome log).Tells settings color sources := by
  refine ⟨rfl, rfl, ?_, ?_⟩
  · simp only [Writing.outcome, Writing.ofEach, List.isEmpty_iff, List.map_eq_nil_iff,
      List.filter_eq_nil_iff, ← Source.fails_iff]
    by_cases some_fails : ∃ s ∈ sources, s.fails settings color
    · simp [some_fails]
    · simp [some_fails]
  · intro e failed
    simp only [Writing.outcome] at failed
    split at failed
    · cases failed
    · cases failed
      rfl

/-! ## The command -/

/-- The failure says that a word could not be read. -/
def CommandError.Names (e : CommandError) (word : Text) : Prop :=
  Text.ofString "could not read " ++ word ++ Text.ofString ": " <+: e.text

namespace Command

/-- A word for a source that can be read: the standard input, or else a file. -/
def Readable (files : Files) (input : Input) (word : Text) : Prop :=
  if word = standardInput then ∃ content, input = .text content else ∃ text, files word = .ok text

/-- The words of the sources. Without any, the standard input is the only source. -/
def sourceWords (i : Invocation) : List Text :=
  if i.words.isEmpty then [standardInput] else i.words

/-- The command on one source only. If that is the standard input, it holds nothing else. -/
def inferAlone (i : Invocation) (around : Surroundings) (s : Source) : Outcome :=
  runInfer { i with words := [s.name] } { around with input := .text s.text }

end Command

open Command

theorem sourceWords_ne_nil (i : Invocation) : sourceWords i ≠ [] := by
  unfold sourceWords
  split
  · simp
  · simp_all

section
variable {files : Files} {input : Input} {word : Text} {words : List Text}

/-- A source that can be read could be read on its own. What is left of the standard input can be
read if it could be before. -/
theorem readWord_readable (readable : Readable files input word) :
    ∃ text left, readWord files input word = .ok (⟨word, text⟩, left) ∧
      (∃ left, readWord files (.text text) word = .ok (⟨word, text⟩, left)) ∧
      ∀ other, Readable files left other ↔ Readable files input other := by
  rw [Readable] at readable
  split at readable
  · rename_i standard
    obtain ⟨content, rfl⟩ := readable
    have read : readWord files (.text content) word = .ok (⟨word, content⟩, .text []) :=
      if_pos standard
    exact ⟨content, _, read, ⟨_, read⟩, fun other => by simp [Readable]⟩
  · rename_i named
    obtain ⟨text, file⟩ := readable
    have read (input : Input) : readWord files input word = .ok (⟨word, text⟩, input) := by
      unfold readWord
      rw [if_neg named, file]
    exact ⟨text, _, read _, ⟨_, read _⟩, fun _ => Iff.rfl⟩

/-- The failure on a word that cannot be read names it. -/
theorem readWord_unreadable (unreadable : ¬ Readable files input word) :
    ∃ e, readWord files input word = .error e ∧ e.Names word := by
  rw [Readable] at unreadable
  split at unreadable
  · rename_i standard
    cases input with
    | text content => exact absurd ⟨content, rfl⟩ unreadable
    | broken reason => exact ⟨_, if_pos standard, standard ▸ List.prefix_append _ _⟩
  · rename_i named
    cases file : files word with
    | ok text => exact absurd ⟨text, file⟩ unreadable
    | error fault =>
      have read : readWord files input word = .error (.unreadable word fault) := by
        unfold readWord
        rw [if_neg named, file]
      exact ⟨_, read, List.prefix_append _ _⟩

/-- Each source has the name of its word, and could be read on its own. -/
theorem exists_readSources (readable : ∀ word ∈ words, Readable files input word) :
    ∃ sources, readSources files input words = .ok sources ∧ sources.map Source.name = words ∧
      ∀ s ∈ sources, readSources files (.text s.text) [s.name] = .ok [s] := by
  induction words generalizing input with
  | nil => exact ⟨[], rfl, rfl, nofun⟩
  | cons word rest ih =>
    have first : Readable files input word := readable word List.mem_cons_self
    obtain ⟨text, left, read, ⟨left', alone⟩, same⟩ := readWord_readable first
    have others : ∀ word ∈ rest, Readable files left word :=
      fun word member => (same word).2 (readable word (List.mem_cons_of_mem _ member))
    obtain ⟨later, readLater, names, each⟩ := ih others
    refine ⟨⟨word, text⟩ :: later, ?_, by rw [List.map_cons, names], ?_⟩
    · rw [readSources, read]
      simp only [readLater]
      rfl
    · refine List.forall_mem_cons.2 ⟨?_, each⟩
      rw [readSources, alone]
      rfl

/-- One word that cannot be read is enough for none to be. -/
theorem readSources_error (unreadable : ∃ word ∈ words, ¬ Readable files input word) :
    ∃ e, readSources files input words = .error e ∧
      ∃ word ∈ words, ¬ Readable files input word ∧ e.Names word := by
  induction words generalizing input with
  | nil =>
    obtain ⟨_, member, _⟩ := unreadable
    cases member
  | cons word rest ih =>
    by_cases first : Readable files input word
    · obtain ⟨text, left, read, _, same⟩ := readWord_readable first
      have later : ∃ word ∈ rest, ¬ Readable files left word := by
        obtain ⟨other, member, fault⟩ := unreadable
        obtain rfl | member := List.mem_cons.1 member
        · exact absurd first fault
        · exact ⟨other, member, mt (same other).1 fault⟩
      obtain ⟨e, failed, other, member, fault, named⟩ := ih later
      refine ⟨e, ?_, other, List.mem_cons_of_mem _ member, mt (same other).2 fault, named⟩
      rw [readSources, read]
      simp only [failed]
      rfl
    · obtain ⟨e, failed, named⟩ := readWord_unreadable first
      refine ⟨e, ?_, word, List.mem_cons_self, first, named⟩
      rw [readSources, failed]

end

section
variable {i : Invocation} {around : Surroundings} {settings : Settings} {sources : List Source}

theorem runInfer_of_error (resolved : Settings.resolve around.files i = .ok settings)
    {e : CommandError} (read : readSources around.files around.input (sourceWords i) = .error e) :
    runInfer i around = .failing e := by
  rw [sourceWords] at read
  simp only [runInfer, resolved, read]

theorem runInfer_of_read (resolved : Settings.resolve around.files i = .ok settings)
    (read : readSources around.files around.input (sourceWords i) = .ok sources) :
    runInfer i around =
      if around.cancelled then .failing .interrupted
      else inferSources settings i.logLevel around sources (List.range sources.length) := by
  rw [sourceWords] at read
  simp only [runInfer, resolved, read]

/-- Sources that finish in whichever order are written one after another. -/
theorem inferSources_eq (level : Level) {order : List Nat}
    (all : ∀ i < sources.length, i ∈ order) :
    inferSources settings level around sources order =
      (Writing.ofEach settings (settings.usesColor around.terminal) sources).outcome
        (inferSources settings level around sources order).log := by
  simp only [inferSources, work_eq_map _ sources all, all_infer, Writing.outcome]

theorem runInfer_eq_outcome (resolved : Settings.resolve around.files i = .ok settings)
    (read : readSources around.files around.input (sourceWords i) = .ok sources)
    (running : around.cancelled = false) :
    runInfer i around =
      (Writing.ofEach settings (settings.usesColor around.terminal) sources).outcome
        (runInfer i around).log := by
  rw [runInfer_of_read resolved read, running, if_neg Bool.false_ne_true]
  exact inferSources_eq i.logLevel fun i inRange => List.mem_range.2 inRange

/-- On one source only, the command writes what it writes of that source among others, without the
line before it. -/
theorem inferAlone_eq (resolved : Settings.resolve around.files i = .ok settings) {s : Source}
    (read : readSources around.files (.text s.text) [s.name] = .ok [s])
    (running : around.cancelled = false) :
    (inferAlone i around s).out =
        outputOf (s.infer settings (settings.usesColor around.terminal)) ∧
      (inferAlone i around s).err =
        s.complaint settings (settings.usesColor around.terminal) := by
  have written : inferAlone i around s =
      (Writing.ofEach settings (settings.usesColor around.terminal) [s]).outcome
        (inferAlone i around s).log := runInfer_eq_outcome resolved read running
  rw [written]
  simp [Writing.outcome, Writing.ofEach, Source.contribution]

end

/-! ## All orders -/

/-- What the command `infer` does with sources that it has read does not depend on the order in
which the tasks of a group work on them. -/
structure Command.Determined (g : TaskGroup) (i : Invocation) (around : Surroundings)
    (settings : Settings) (color : Bool) (sources : List Source) : Prop where
  /-- What is told of a source is what inference gives for it. -/
  gives : ∀ s ∈ sources, s.Gives settings color (s.infer settings color)
  /-- Work that has begun can be brought to an end. -/
  ends : ∀ p : Pool, ReflTransGen (Pool.Step g (Source.infer settings color) sources)
      (Pool.start sources.length false) p →
    ∃ q failed, ReflTransGen (Pool.Step g (Source.infer settings color) sources) p q ∧
      g.ends q.tasks failed ∧ q.cancelled = p.cancelled
  /-- Steps in any order have one outcome. -/
  same : ∀ (p : Pool) (failed : Bool) (log : List Text),
    p.EndsAt g (Source.infer settings color) sources false failed → p.cancelled = false →
    p.outcome settings sources log failed = { runInfer i around with log }
  /-- With a cancellation on the way, it is that or nothing. -/
  whole : ∀ (p : Pool) (failed : Bool) (log : List Text),
    p.EndsAt g (Source.infer settings color) sources false failed →
    p.outcome settings sources log failed = { log, failure := some .interrupted } ∨
      p.outcome settings sources log failed = { runInfer i around with log }
  /-- Sources that finish one after another have the same outcome. -/
  order : ∀ order : List Nat, order.Perm (List.range sources.length) →
    ∃ log, inferSources settings i.logLevel around sources order = { runInfer i around with log }
  /-- The outcome is told source by source. -/
  tells : (runInfer i around).Tells settings color sources
  /-- What is told of a source is what the command says of that source alone. -/
  out_alone : (runInfer i around).out =
    sources.flatMap fun s => Writing.header settings sources.length s ++ (inferAlone i around s).out
  err_alone : (runInfer i around).err = sources.flatMap fun s => (inferAlone i around s).err

section
variable {g : TaskGroup} {i : Invocation} {around : Surroundings} {settings : Settings}
variable {sources : List Source}

/-- Tasks that have all returned without an error have the outcome of the command. -/
theorem outcome_eq_runInfer (lawful : g.Lawful)
    (resolved : Settings.resolve around.files i = .ok settings)
    (read : readSources around.files around.input (sourceWords i) = .ok sources)
    (running : around.cancelled = false) {p : Pool}
    (ends : p.EndsAt g (Source.infer settings (settings.usesColor around.terminal)) sources false
      false) (log : List Text) :
    p.outcome settings sources log false = { runInfer i around with log } := by
  have kept := reachable_kept lawful ends.1 (start_kept _ sources false)
  rw [Pool.outcome, if_neg Bool.false_ne_true, results_of_finished lawful kept ends.2, all_infer,
    runInfer_eq_outcome resolved read running]
  rfl

theorem inferSources_eq_runInfer (resolved : Settings.resolve around.files i = .ok settings)
    (read : readSources around.files around.input (sourceWords i) = .ok sources)
    (running : around.cancelled = false) {order : List Nat}
    (places : order.Perm (List.range sources.length)) :
    inferSources settings i.logLevel around sources order =
      { runInfer i around with
        log := (inferSources settings i.logLevel around sources order).log } := by
  have all (i : Nat) (inRange : i < sources.length) : i ∈ order :=
    places.mem_iff.2 (List.mem_range.2 inRange)
  rw [runInfer_eq_outcome resolved read running]
  exact inferSources_eq i.logLevel all

/-- The command does with several sources what it does with each of them alone. -/
theorem runInfer_eq_alone (resolved : Settings.resolve around.files i = .ok settings)
    (read : readSources around.files around.input (sourceWords i) = .ok sources)
    (running : around.cancelled = false)
    (alone : ∀ s ∈ sources, readSources around.files (.text s.text) [s.name] = .ok [s]) :
    (runInfer i around).out = (sources.flatMap fun s =>
        Writing.header settings sources.length s ++ (inferAlone i around s).out) ∧
      (runInfer i around).err = sources.flatMap fun s => (inferAlone i around s).err := by
  rw [runInfer_eq_outcome resolved read running]
  constructor
  · refine List.flatMap_congr fun s member => ?_
    rw [(inferAlone_eq resolved (alone s member) running).1]
    rfl
  · refine List.flatMap_congr fun s member => ?_
    rw [(inferAlone_eq resolved (alone s member) running).2]

theorem determined (lawful : g.Lawful)
    (resolved : Settings.resolve around.files i = .ok settings)
    (read : readSources around.files around.input (sourceWords i) = .ok sources)
    (running : around.cancelled = false)
    (alone : ∀ s ∈ sources, readSources around.files (.text s.text) [s.name] = .ok [s]) :
    Determined g i around settings (settings.usesColor around.terminal) sources := by
  have each := runInfer_eq_alone resolved read running alone
  have valid : settings.Valid := resolve_valid first_lawful resolved
  refine ⟨fun s _ => valid.gives _ s, ?_, ?_, ?_, ?_, ?_, each.1, each.2⟩
  · intro p run
    exact exists_end lawful (reachable_kept lawful run (start_kept _ sources false))
  · intro p failed log ends uncancelled
    have kept := reachable_kept lawful ends.1 (start_kept _ sources false)
    cases failed with
    | false => exact outcome_eq_runInfer lawful resolved read running ends log
    | true =>
      have refused := failed_task_iff.1 ((lawful.failed_iff _ _ ends.2).1 rfl)
      rw [kept.refused refused] at uncancelled
      cases uncancelled
  · intro p failed log ends
    cases failed with
    | false => exact .inr (outcome_eq_runInfer lawful resolved read running ends log)
    | true => exact .inl (if_pos rfl)
  · intro order places
    exact ⟨_, inferSources_eq_runInfer resolved read running places⟩
  · rw [runInfer_eq_outcome resolved read running]
    exact ofEach_tells settings _ sources _

end

/-- **Sources are worked on independently.** Take any package that runs the tasks of a group,
cancels its context and waits for them as it should. If all sources can be read, what the command
does with them is the same for every order of the steps of the tasks, and is told source by source:
of each of them, what inference gives for it. If the command was cancelled before that, nothing is
written. Nothing is written either if some source cannot be read, be it a file or the standard
input. -/
theorem infer_interleaved (g : TaskGroup) (lawful : g.Lawful) (i : Invocation)
    (around : Surroundings) (settings : Settings)
    (resolved : Settings.resolve around.files i = .ok settings) :
    ((∀ word ∈ sourceWords i, Readable around.files around.input word) →
      ∃ sources, readSources around.files around.input (sourceWords i) = .ok sources ∧
        sources.map Source.name = sourceWords i ∧
        (around.cancelled = false →
          Determined g i around settings (settings.usesColor around.terminal) sources) ∧
        (around.cancelled = true →
          (runInfer i around).out = [] ∧ (runInfer i around).failure = some .interrupted ∧
          ∀ (p : Pool) (failed : Bool) (log : List Text),
            p.EndsAt g (Source.infer settings (settings.usesColor around.terminal)) sources true
              failed →
            p.outcome settings sources log failed = { log, failure := some .interrupted })) ∧
    ((∃ word ∈ sourceWords i, ¬ Readable around.files around.input word) →
      (runInfer i around).out = [] ∧
      ∃ e, (runInfer i around).failure = some e ∧
        ∃ word ∈ sourceWords i, ¬ Readable around.files around.input word ∧ e.Names word) := by
  constructor
  · intro readable
    obtain ⟨sources, read, names, alone⟩ := exists_readSources readable
    refine ⟨sources, read, names, fun running => determined lawful resolved read running alone,
      fun cancelled => ?_⟩
    have some_source : sources ≠ [] := by
      rintro rfl
      exact sourceWords_ne_nil i names.symm
    have interrupted : runInfer i around = .failing .interrupted := by
      rw [runInfer_of_read resolved read, if_pos cancelled]
    refine ⟨?_, ?_, fun p failed log ends =>
      outcome_of_cancelled lawful some_source ends settings log⟩
    · rw [interrupted]
      rfl
    · rw [interrupted]
      rfl
  · intro unreadable
    obtain ⟨e, read, named⟩ := readSources_error unreadable
    rw [runInfer_of_error resolved read]
    exact ⟨rfl, e, rfl, named⟩

/-- A file with a class and one that is cut short, beside an input that breaks off. -/
def twoFiles : Surroundings where
  files path :=
    if path = ("good" : Text) then .ok "class A<T> \x7b T get(); \x7d"
    else if path = ("bad" : Text) then .ok "class A<T"
    else .error .missing
  input := .broken "input/output error"
  folder := "/"
  time := []
  run := "1"
  cancelled := false
  terminal := false

theorem infer_interleaved_two :
    let both : Invocation := { words := ["bad", "good", "bad"] }
    let absent : Invocation := { words := ["good", "absent"] }
    let broken : Invocation := { words := ["good", "-"] }
    Settings.resolve twoFiles.files both = .ok .default ∧
    (runInfer both twoFiles).failure = some (.failed ["bad", "bad"]) ∧
    (∃ sources, sources.map Source.name = both.words ∧
      Determined .plain both twoFiles .default false sources) ∧
    (runInfer absent twoFiles).out = [] ∧
    (runInfer broken twoFiles).out = [] ∧
    (runInfer broken twoFiles).failure.map CommandError.text =
      some "could not read -: input/output error" := by
  intro both absent broken
  have resolved (words : List Text) : Settings.resolve twoFiles.files { words } = .ok .default :=
    rfl
  have interleaved (words : List Text) :=
    infer_interleaved .plain plain_group_lawful { words } twoFiles .default (resolved words)
  have readable (word : Text) (member : word ∈ sourceWords both) :
      Readable twoFiles.files twoFiles.input word := by
    have known : word = "bad" ∨ word = "good" ∨ word = "bad" := by
      simpa [sourceWords, both] using member
    obtain rfl | rfl | rfl := known
    · exact ⟨_, rfl⟩
    · exact ⟨_, rfl⟩
    · exact ⟨_, rfl⟩
  have unreadable_file : ∃ word ∈ sourceWords absent,
      ¬ Readable twoFiles.files twoFiles.input word := by
    refine ⟨"absent", by decide, ?_⟩
    rintro ⟨text, file⟩
    cases file
  have unreadable_input : ∃ word ∈ sourceWords broken,
      ¬ Readable twoFiles.files twoFiles.input word := by
    refine ⟨"-", by decide, ?_⟩
    rintro ⟨content, input⟩
    cases input
  obtain ⟨sources, _, names, run, _⟩ := (interleaved both.words).1 readable
  exact ⟨resolved _, by decide +kernel, ⟨sources, names, run rfl⟩,
    ((interleaved absent.words).2 unreadable_file).1,
    ((interleaved broken.words).2 unreadable_input).1, by decide +kernel⟩

end Polarity

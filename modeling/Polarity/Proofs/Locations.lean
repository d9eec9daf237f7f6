import Mathlib.Data.Nat.Count
import Polarity.Diagnostic.Place
import Polarity.Proofs.Closure
import Polarity.Proofs.Expansion
import Polarity.Proofs.Viability

/-!
# Where diagnostics are shown

What is wrong with a source is wrong at one of its bytes or at its end, and is shown with the line
and column of this place. Lines are told by where they start, apart from the list of starts that
is searched.

* `StartsLine`, `InLine`: the lines of a source, and the line that holds an offset;
* `mem_lineStarts`: the starts that are listed;
* `lineAt_inLine`: the line that is found;
* `InLine.newlines`: its number, by the newlines before;
* `InLine.unique`: line and column tell the place;
* `lineColumnText_injective`: so do the texts that are shown for them;
* `isPosition_of_diagnostics`: diagnostics lie in the source or at its end;
* `diagnostics_located`: what is shown for the diagnostics of a source.
-/

namespace Polarity

/-! ## Lines -/

/-- A line starts at this offset: at the beginning of the source, and behind each newline that is
not its last byte. -/
def StartsLine (source : Text) (o : Nat) : Prop :=
  o = 0 ∨ o < source.length ∧ source[o - 1]? = some (Text.byte '\n')

instance (source : Text) : DecidablePred (StartsLine source) :=
  fun _ => inferInstanceAs (Decidable (_ ∨ _))

/-- The line that holds an offset, with its number and its start: it starts last among those that
do not start after the offset. -/
structure InLine (source : Text) (offset line start : Nat) : Prop where
  last : IsGreatest {o | StartsLine source o ∧ o ≤ offset} start
  number : line = Nat.count (StartsLine source) start + 1

theorem startsLine_succ {source : Text} {o : Nat} : StartsLine source (o + 1) ↔
    source[o]? = some (Text.byte '\n') ∧ o + 1 ≠ source.length := by
  simp only [StartsLine, Nat.add_sub_cancel, Nat.add_one_ne_zero, false_or]
  constructor
  · rintro ⟨lt, newline⟩
    exact ⟨newline, lt.ne⟩
  · rintro ⟨newline, ne⟩
    have bound := (List.getElem?_eq_some_iff.1 newline).1
    exact ⟨by omega, newline⟩

section
variable {source : Text} {offset offset' line start start' : Nat}

/-- The number of a line counts the newlines before the offset, but for one that ends the
source. -/
theorem InLine.newlines (h : InLine source offset line start) : line =
    Nat.count (fun i => source[i]? = some (Text.byte '\n') ∧ i + 1 ≠ source.length) offset + 1 := by
  obtain ⟨⟨starts, le⟩, greatest⟩ := h.last
  -- No line starts behind the start of this one, up to the offset.
  have none : Nat.count (StartsLine source) (offset + 1) =
      Nat.count (StartsLine source) (start + 1) := by
    obtain ⟨n, rfl⟩ := Nat.exists_eq_add_of_le le
    have later : Nat.count (fun k => StartsLine source (start + 1 + k)) n = 0 := by
      refine Nat.count_iff_forall_not.2 fun k hk starts => ?_
      have := greatest ⟨starts, by omega⟩
      omega
    rw [Nat.add_right_comm, Nat.count_add, later, Nat.add_zero]
  calc line = Nat.count (StartsLine source) start + 1 := h.number
    _ = Nat.count (StartsLine source) (start + 1) :=
        (Nat.count_succ_eq_succ_count_iff.2 starts).symm
    _ = Nat.count (StartsLine source) (offset + 1) := none.symm
    _ = _ := by
        rw [Nat.count_succ', if_pos (.inl rfl)]
        simp only [startsLine_succ]

/-- A line and the distance from its start tell the offset. -/
theorem InLine.unique (h : InLine source offset line start) (h' : InLine source offset' line start')
    (same : offset - start = offset' - start') : offset = offset' := by
  have counts : Nat.count (StartsLine source) start = Nat.count (StartsLine source) start' :=
    Nat.succ.inj (h.number.symm.trans h'.number)
  have starts := Nat.count_injective h.last.1.1 h'.last.1.1 counts
  have le := h.last.1.2
  have le' := h'.last.1.2
  omega

end

/-! ## The lines that are found -/

theorem mem_laterLineStarts {offset o : Nat} {text : Text} : o ∈ laterLineStarts offset text ↔
    ∃ i, o = offset + i + 1 ∧ i + 1 < text.length ∧ text[i]? = some (Text.byte '\n') := by
  fun_induction laterLineStarts offset text with
  | case1 => simp
  | case2 => simp
  | case3 offset c rest ih =>
    rw [List.mem_cons, ih]
    refine Iff.trans ?_ (Nat.or_exists_add_one)
    simp [Nat.add_right_comm, Nat.add_assoc]
  | case4 offset b c rest other ih =>
    rw [ih]
    refine Iff.trans ?_ (Nat.or_exists_add_one)
    simp [other, Nat.add_right_comm, Nat.add_assoc]

theorem laterLineStarts_increasing (offset : Nat) (text : Text) :
    (laterLineStarts offset text).Pairwise (· < ·) := by
  fun_induction laterLineStarts offset text with
  | case1 => exact .nil
  | case2 => exact .nil
  | case3 offset c rest ih =>
    refine List.pairwise_cons.2 ⟨fun o ho => ?_, ih⟩
    obtain ⟨i, rfl, -⟩ := mem_laterLineStarts.1 ho
    omega
  | case4 offset b c rest other ih => exact ih

section
variable {source : Text} (some_byte : source ≠ [])
include some_byte

theorem lineStarts_eq : lineStarts source = 0 :: laterLineStarts 0 source := by
  rw [lineStarts, if_neg (by simpa using some_byte)]

theorem mem_lineStarts {o : Nat} : o ∈ lineStarts source ↔ StartsLine source o := by
  rw [lineStarts_eq some_byte, List.mem_cons, mem_laterLineStarts, StartsLine]
  refine or_congr_right' fun ne => ?_
  obtain ⟨i, rfl⟩ := Nat.exists_eq_add_one_of_ne_zero ne
  simp

theorem lineStarts_increasing : (lineStarts source).Pairwise (· < ·) := by
  rw [lineStarts_eq some_byte]
  refine List.pairwise_cons.2 ⟨fun o ho => ?_, laterLineStarts_increasing 0 source⟩
  obtain ⟨i, rfl, -⟩ := mem_laterLineStarts.1 ho
  omega

/-- The line that is found for an offset is the one that holds it. -/
theorem lineAt_inLine (offset : Nat) : ∃ line start,
    lineAt (lineStarts source) offset = some (line, start) ∧ InLine source offset line start := by
  have increasing := (lineStarts_increasing some_byte).filter (· ≤ offset)
  have members (o : Nat) : o ∈ (lineStarts source).filter (· ≤ offset) ↔
      StartsLine source o ∧ o ≤ offset := by
    rw [List.mem_filter, mem_lineStarts some_byte, decide_eq_true_eq]
  rw [lineAt]
  generalize (lineStarts source).filter (· ≤ offset) = upTo at increasing members
  obtain rfl | ⟨front, start, rfl⟩ := List.eq_nil_or_concat' upTo
  · exact absurd ((members 0).2 ⟨.inl rfl, Nat.zero_le _⟩) (List.not_mem_nil)
  · obtain ⟨apart, -, before⟩ := List.pairwise_append.1 increasing
    have held := (members start).1 (by simp)
    refine ⟨front.length + 1, start, by simp, ⟨held, fun o ho => ?_⟩, ?_⟩
    · obtain ho | ho := List.mem_append.1 ((members o).2 ho)
      · exact (before o ho start (.head _)).le
      · exact (List.mem_singleton.1 ho).le
    · -- The starts in front of the last one are those before it.
      have earlier : front.toFinset = (Finset.range start).filter (StartsLine source) := by
        ext o
        rw [List.mem_toFinset, Finset.mem_filter, Finset.mem_range]
        constructor
        · intro ho
          exact ⟨before o ho start (.head _), ((members o).1 (List.mem_append_left _ ho)).1⟩
        · rintro ⟨lt, starts⟩
          obtain ho | ho := List.mem_append.1 ((members o).2 ⟨starts, lt.le.trans held.2⟩)
          · exact ho
          · exact absurd (List.mem_singleton.1 ho) lt.ne
      rw [Nat.count_eq_card_filter_range, ← earlier, List.toFinset_card_of_nodup
        (apart.imp Nat.ne_of_lt)]

end

/-! ## Numbers as they are written -/

theorem byte_toNat {c : Char} (h : c.toNat < 0x100) : (Text.byte c).toNat = c.toNat :=
  UInt8.toNat_ofNat_of_lt' h

theorem digit_of_mem_toDigits {n : Nat} {c : Char} (hc : c ∈ Nat.toDigits 10 n) :
    c.isDigit = true ∧ Char.ofNat (Text.byte c).toNat = c := by
  have digit := Nat.isDigit_of_mem_toDigits (by decide) (by decide) hc
  have small : c.toNat < 0x100 := by
    have : c.toNat ≤ 0x39 := (Char.isDigit_iff_toNat.1 digit).2
    omega
  exact ⟨digit, by rw [byte_toNat small, Char.ofNat_toNat]⟩

theorem ofNat_isName (n : Nat) : IsName (Text.ofNat n) := by
  refine ⟨by simp [Text.ofNat], fun b hb => ?_⟩
  obtain ⟨c, hc, rfl⟩ := List.mem_map.1 hb
  obtain ⟨digit, same⟩ := digit_of_mem_toDigits hc
  simp [isWordByte, same, isWordChar, Char.isAlphanum, digit]

theorem ofNat_injective : Function.Injective Text.ofNat := by
  have read (n : Nat) :
      Nat.ofDigitChars 10 ((Text.ofNat n).map fun b => Char.ofNat b.toNat) 0 = n := by
    have chars : (Text.ofNat n).map (fun b => Char.ofNat b.toNat) = Nat.toDigits 10 n := by
      rw [Text.ofNat, List.map_map]
      exact (List.map_congr_left fun c hc => (digit_of_mem_toDigits hc).2).trans (List.map_id _)
    rw [chars, Nat.ofDigitChars_ten_toDigits]
  intro n n' same
  rw [← read n, same, read n']

/-- A line and a column, as they stand in front of a diagnostic. -/
def lineColumnText (place : Nat × Nat) : Text := Text.ofNat place.1 ++ ":" ++ Text.ofNat place.2

/-- A diagnostic after its line and column, and the name of the file in front if there is one. -/
def Diagnostic.shownAt (file : Text) (place : Nat × Nat) (d : Diagnostic) : Text :=
  let name : Text := if file = [] then [] else file ++ ":"
  name ++ lineColumnText place ++ ": " ++ d.text

theorem lineColumnText_injective : Function.Injective lineColumnText := by
  rintro ⟨line, column⟩ ⟨line', column'⟩ same
  simp only [lineColumnText, List.append_assoc] at same
  obtain ⟨lines, columns⟩ := (ofNat_isName line).append_inj (ofNat_isName line')
    (endsWord_append (by decide) _) (endsWord_append (by decide) _) same
  rw [ofNat_injective lines, ofNat_injective (List.append_cancel_left columns)]

/-! ## Places of diagnostics -/

/-- A position of a source with some byte, or the one behind its last byte. -/
structure IsPosition (source : Text) (position : Int) : Prop where
  some_byte : source ≠ []
  first : 1 ≤ position
  last : position ≤ source.length + 1

section
variable {source : Text} {d : Diagnostic}

theorem Span.InSource.isPosition {s : Span} (h : s.InSource source) :
    IsPosition source s.start := by
  obtain ⟨first, some_byte, last⟩ := h
  refine ⟨?_, first, by omega⟩
  rintro rfl
  simp only [List.length_nil] at last
  omega

theorem isPosition_of_parse (h : parse source = .error d) : IsPosition source d.span.start := by
  obtain ⟨front, t, back, r, tokens, -, refused⟩ | ⟨r, -, ended⟩ := run_error h
  · have ht : t ∈ significant (tokenize source) := by simp [tokens]
    rw [step_error_span refused]
    exact ((significant_ordered source).inSource t ht).isPosition
  · rw [(finish_error ended).1]
    refine ⟨?_, by simp only [Span.ofOffsets]; omega, by simp only [Span.ofOffsets]; omega⟩
    -- Nothing is wrong with a source without bytes.
    rintro rfl
    cases h

theorem isPosition_of_unresolved {decls : List ClassDecl} (parsed : parse source = .ok decls)
    {policy : Policy} (hd : d ∈ (generate ⟨decls⟩ policy).unresolved) :
    IsPosition source d.span.start := by
  obtain ⟨u, hu, i, -, missing⟩ := exists_node_of_mem_unresolved hd
  obtain ⟨-, ref, found⟩ | ⟨-, complaint⟩ := parameter_cases ⟨decls⟩ u i
  · rw [found] at missing
    cases missing
  · rw [complaint] at missing
    cases missing
    rw [span_complaint]
    exact (node_ranged_of_parse parsed hu).inSource.isPosition

theorem exists_policy {classes : ClassTable} {name : Text} {g : Generation}
    (h : generateNamed classes name = some g) : ∃ policy, g = generate classes policy := by
  simp only [generateNamed] at h
  split at h
  · cases h
    exact ⟨_, rfl⟩
  · split at h <;> cases h
    exact ⟨_, rfl⟩

theorem errors_subset (g : Generation) : g.errors ⊆ g.unresolved := by
  rw [Generation.errors]
  split
  · exact List.Subset.refl _
  · exact List.nil_subset _

/-- What is wrong with a source is found by the parser, or else in generation. -/
theorem infer_diagnostics {options : Options} {ds : List Diagnostic}
    (failed : infer options source = .error (.diagnostics ds)) :
    (∃ d, parse source = .error d ∧ ds = [d]) ∨
    ∃ decls policy, parse source = .ok decls ∧ ds ≠ [] ∧
      ds ⊆ (generate ⟨decls⟩ policy).unresolved := by
  rw [infer] at failed
  cases parsed : parse source with
  | error d =>
    rw [parsed] at failed
    cases failed
    exact .inl ⟨d, rfl, rfl⟩
  | ok decls =>
    simp only [parsed, inferClasses] at failed
    split at failed
    · cases failed
    rename_i g generated
    obtain ⟨policy, rfl⟩ := exists_policy generated
    split at failed
    · split at failed <;> cases failed
    · rename_i some_error
      cases failed
      exact .inr ⟨decls, policy, rfl, by simpa using some_error, errors_subset _⟩

theorem isPosition_of_diagnostics {options : Options} {ds : List Diagnostic}
    (failed : infer options source = .error (.diagnostics ds)) :
    ds ≠ [] ∧ ∀ d ∈ ds, IsPosition source d.span.start := by
  obtain ⟨d, parsed, rfl⟩ | ⟨decls, policy, parsed, some_error, reported⟩ :=
    infer_diagnostics failed
  · refine ⟨List.cons_ne_nil _ _, fun e he => ?_⟩
    obtain rfl := List.mem_singleton.1 he
    exact isPosition_of_parse parsed
  · exact ⟨some_error, fun d hd => isPosition_of_unresolved parsed (reported hd)⟩

/-- A diagnostic at a position of the source is shown with its line and column. -/
theorem IsPosition.textIn (h : IsPosition source d.span.start) : ∃ line start,
    InLine source (d.span.start - 1).toNat line start ∧
    ∀ file, d.textIn file source =
      d.shownAt file (line, (d.span.start - 1).toNat - start + 1) := by
  obtain ⟨line, start, found, held⟩ := lineAt_inLine h.some_byte (d.span.start - 1).toNat
  refine ⟨line, start, held, fun file => ?_⟩
  obtain ⟨-, first, last⟩ := h
  have shown : (d.span.isPlaced && decide (d.span.start - 1 ≤ source.length + 1) &&
      d.span.start != Span.least) = true := by
    simp only [Span.isPlaced, Span.least, Bool.and_eq_true, bne_iff_ne, decide_eq_true_eq]
    omega
  rw [Diagnostic.textIn, if_pos shown, lineColumn, found]
  simp only [Option.map_some, placeText, Diagnostic.shownAt, lineColumnText, List.isEmpty_iff,
    List.append_assoc]

end

/-- **Line and column tell where a diagnostic is.** Whatever is wrong with a source is wrong at one
of its positions or behind its last byte, and is shown after the number of the line that holds it
and its column there, with the name of the file in front if there is one. The number counts the
newlines before, but for one that ends the source. Diagnostics at different positions are shown
with different lines or columns. -/
theorem diagnostics_located {options : Options} {source : Text} {ds : List Diagnostic}
    (failed : infer options source = .error (.diagnostics ds)) :
    source ≠ [] ∧
    (∀ d ∈ ds, 1 ≤ d.span.start ∧ d.span.start ≤ source.length + 1) ∧
    ∃ place : Diagnostic → Nat × Nat,
      (∀ file, Diagnostic.textsIn file source ds =
        Text.joined "\n" (ds.map fun d => d.shownAt file (place d))) ∧
      (∀ d ∈ ds, ∃ start, InLine source (d.span.start - 1).toNat (place d).1 start ∧
        (start : Int) + (place d).2 - 1 = d.span.start - 1) ∧
      (∀ d ∈ ds, (place d).1 = Nat.count (fun i => source[i]? = some (Text.byte '\n') ∧
        i + 1 ≠ source.length) (d.span.start - 1).toNat + 1) ∧
      ∀ d ∈ ds, ∀ e ∈ ds, d.span.start ≠ e.span.start →
        lineColumnText (place d) ≠ lineColumnText (place e) := by
  obtain ⟨some_diagnostic, positions⟩ := isPosition_of_diagnostics failed
  have shown (d : Diagnostic) : ∃ place : Nat × Nat, d ∈ ds →
      (∀ file, d.textIn file source = d.shownAt file place) ∧
      ∃ start, InLine source (d.span.start - 1).toNat place.1 start ∧
        (start : Int) + place.2 - 1 = d.span.start - 1 := by
    by_cases hd : d ∈ ds
    · obtain ⟨line, start, held, text⟩ := (positions d hd).textIn
      have first := (positions d hd).first
      have le := held.last.1.2
      exact ⟨(line, (d.span.start - 1).toNat - start + 1), fun _ => ⟨text, start, held, by omega⟩⟩
    · exact ⟨(0, 0), fun h => absurd h hd⟩
  choose place shown using shown
  refine ⟨?_, fun d hd => ⟨(positions d hd).first, (positions d hd).last⟩, place, fun file => ?_,
    fun d hd => (shown d hd).2, fun d hd => ?_, fun d hd e he apart same => apart ?_⟩
  · obtain ⟨d, hd⟩ := List.exists_mem_of_ne_nil ds some_diagnostic
    exact (positions d hd).some_byte
  · exact congrArg (Text.joined "\n") (List.map_congr_left fun d hd => (shown d hd).1 file)
  · obtain ⟨-, start, held, -⟩ := shown d hd
    exact held.newlines
  · obtain ⟨-, start, held, column⟩ := shown d hd
    obtain ⟨-, start', held', column'⟩ := shown e he
    rw [lineColumnText_injective same] at held column
    have first := (positions d hd).first
    have first' := (positions e he).first
    have := held.unique held' (by omega)
    omega

/-- Two unknown classes, on the second line behind a blank of two bytes and on the third one. The
last newline opens no line. -/
def misplacedSource : Text :=
  "class A<X> \x7b\n\u00a0B<X> m();\n C<X> n();\n\x7d\n"

def misplacedDiagnostics : List Diagnostic :=
  [⟨.unknownClass "B", ⟨16, 20⟩⟩, ⟨.unknownClass "C", ⟨27, 31⟩⟩]

theorem diagnostics_located_misplaced :
    infer .default misplacedSource = .error (.diagnostics misplacedDiagnostics) ∧
    misplacedSource ≠ [] ∧
    (∀ d ∈ misplacedDiagnostics, 1 ≤ d.span.start ∧ d.span.start ≤ misplacedSource.length + 1) ∧
    Diagnostic.textsIn "f" misplacedSource misplacedDiagnostics =
      "f:2:3: (E002) unknown class reference 'B'\nf:3:2: (E002) unknown class reference 'C'" ∧
    ∃ place : Diagnostic → Nat × Nat,
      (∀ file, Diagnostic.textsIn file misplacedSource misplacedDiagnostics =
        Text.joined "\n" (misplacedDiagnostics.map fun d => d.shownAt file (place d))) ∧
      ∀ d ∈ misplacedDiagnostics, ∃ start,
        InLine misplacedSource (d.span.start - 1).toNat (place d).1 start ∧
        (start : Int) + (place d).2 - 1 = d.span.start - 1 := by
  have read : (readSource misplacedSource).diagnostic = none := by decide +kernel
  have parsed : parse misplacedSource = .ok (readSource misplacedSource).classes := by
    rw [parse, Reading.result, read]
  have reports : ClassTable.reports ⟨(readSource misplacedSource).classes⟩ =
      misplacedDiagnostics := by
    decide +kernel
  have failed : infer .default misplacedSource = .error (.diagnostics misplacedDiagnostics) := by
    rw [infer_known parsed (by rfl : Policy.ofName? Options.default.unresolved = some .error)
      (by rfl : Strategy.ofName? Options.default.strategy = some .fixpoint), reports]
    exact if_pos ⟨rfl, by decide⟩
  obtain ⟨some_byte, positions, place, texts, held, -⟩ := diagnostics_located failed
  exact ⟨failed, some_byte, positions, by decide +kernel, place, texts, held⟩

end Polarity

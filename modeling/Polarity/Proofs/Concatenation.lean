import Polarity.Proofs.Relayout
import Polarity.Proofs.Viability

/-!
# Sources one after another

A program ends with a closing brace, which joins nothing that follows it. So the tokens of a program
in front of any text are its own tokens and then those of the text, further on, and what is read
from the two is what is read from the text, behind the classes of the program.

* `lexemes_resume`: lexemes up to a single character are the same in front of any text;
* `significant_append`: the tokens of two texts, the first of which does not end with a name;
* `parse_after`: what is read from a text behind a program;
* `parse_append`: the classes of two programs;
* `parse_homomorphic`: a program in front of any text, with all places.
-/

namespace Polarity

/-! ## Tokens of two texts -/

section
variable {source gap : Text} {ls ms : List Lexeme}

theorem Lexeme.exists_kind_of_mem {pieces : List Piece} {p : Piece} (hp : p ∈ pieces) :
    ∃ l ∈ Lexeme.ofPieces pieces, l.1 = p.kind := by
  induction pieces with
  | nil => cases hp
  | cons q pieces ih =>
    rw [Lexeme.ofPieces_cons]
    obtain rfl | hp := List.mem_cons.1 hp
    · obtain ⟨text, rest, eq⟩ := Lexeme.push_cons_head p (Lexeme.ofPieces pieces)
      rw [eq]
      exact ⟨_, .head _, rfl⟩
    · obtain ⟨l, hl, kind⟩ := ih hp
      generalize Lexeme.ofPieces pieces = rest at hl
      fun_cases Lexeme.push q rest with
      | case1 => cases hl
      | case2 k text rest joined =>
        obtain rfl | hl := List.mem_cons.1 hl
        · exact ⟨_, .head _, kind⟩
        · exact ⟨l, .tail _ hl, kind⟩
      | case3 k text rest apart => exact ⟨l, .tail _ hl, kind⟩

theorem isBlankText_of_lexemes (h : ∀ l ∈ lexemes gap, l.1 = .whitespace) : IsBlankText gap := by
  intro p hp
  obtain ⟨l, hl, kind⟩ := Lexeme.exists_kind_of_mem hp
  exact kind ▸ h l hl

/-- Lexemes up to one that belongs to no run are the same in front of any text. -/
theorem lexemes_resume (h : lexemes source = ls ++ ms)
    (ascii : ∀ l ∈ ls, l.1 = .punctuation → ∃ b ∈ l.2, b < 0x80)
    (single : ∀ l ∈ ls.getLast?, l.1.runs = false) :
    ∃ front back, source = front ++ back ∧ lexemes back = ms ∧
      ∀ rest, lexemes (front ++ rest) = ls ++ lexemes rest := by
  obtain ⟨front, cut⟩ := lexemes_cut h ascii
  have continued (rest : Text) : lexemes (front ++ rest) = ls ++ lexemes rest :=
    cut rest fun l hl _ _ _ => single l hl
  have front_text : Lexeme.text ls = front := by
    have alone := continued []
    rw [List.append_nil, show lexemes [] = [] from rfl, List.append_nil] at alone
    rw [← alone, text_lexemes]
  have source_text : source = front ++ Lexeme.text ms := by
    rw [← text_lexemes source, h, ← front_text]
    exact List.flatMap_append
  refine ⟨front, Lexeme.text ms, source_text, ?_, continued⟩
  rw [source_text, continued] at h
  exact List.append_cancel_left h

/-- The last word of a text is followed by nothing but white space. -/
theorem lexemes_of_words {ws : List Lexeme} {l : Lexeme} (h : words source = ws ++ [l]) :
    ∃ ls ms, lexemes source = ls ++ [l] ++ ms ∧ ∀ m ∈ ms, m.1 = .whitespace := by
  obtain ⟨earlier, later, all, -, last⟩ := List.filter_eq_append_iff.1 h
  obtain ⟨blank, after, rfl, -, -, rest⟩ := List.filter_eq_cons_iff.1 last
  refine ⟨earlier ++ blank, after, by simpa using all, fun m hm => ?_⟩
  simpa using List.filter_eq_nil_iff.1 rest m hm

theorem place_shift (n offset : Nat) (ls : List Lexeme) : Lexeme.place (n + offset) ls =
    (Lexeme.place offset ls).map (Token.relocated (.shift n)) := by
  induction ls generalizing offset with
  | nil => rfl
  | cons l ls ih =>
    have span : Span.ofOffsets (n + offset : Nat) ((n + offset : Nat) + l.2.length) =
        (Span.ofOffsets offset (offset + l.2.length)).shift n := by
      simp only [Span.ofOffsets, Span.shift, Span.mk.injEq]
      omega
    rw [Lexeme.place, Lexeme.place, Nat.add_assoc, ih, List.map_cons, span]
    rfl

theorem significant_relocated (f : Relocation) (ts : List Token) :
    significant (ts.map (Token.relocated f)) = (significant ts).map (Token.relocated f) :=
  List.filter_map

/-- The tokens of two texts, the first of which does not end with a name. -/
theorem significant_append (ascii : ∀ l ∈ words source, ∃ b ∈ l.2, b < 0x80)
    (single : ∀ l ∈ (words source).getLast?, l.1.runs = false) (rest : Text) :
    significant (tokenize (source ++ rest)) = significant (tokenize source) ++
      (significant (tokenize rest)).map (Token.relocated (.shift source.length)) := by
  have moved : (significant (tokenize rest)).map (Token.relocated (.shift source.length)) =
      significant (Lexeme.place source.length (lexemes rest)) := by
    rw [← significant_relocated, tokenize, ← place_shift]
    rfl
  rw [moved]
  obtain none | ⟨ws, l, some⟩ := List.eq_nil_or_concat' (words source)
  · have blank : IsBlankText source := by
      refine isBlankText_of_lexemes fun l hl => ?_
      simpa using List.filter_eq_nil_iff.1 none l hl
    have no_tokens : significant (tokenize source) = [] := by
      rw [← List.map_eq_nil_iff, significant_lexemes, none]
    have further := significant_blank blank 0 rest
    rw [Nat.zero_add] at further
    exact no_tokens ▸ further
  · obtain ⟨ls, ms, all, blank⟩ := lexemes_of_words some
    have readable : ∀ m ∈ ls ++ [l], m.1 = .punctuation → ∃ b ∈ m.2, b < 0x80 := by
      intro m hm mark
      refine ascii m (List.mem_filter.2 ⟨all ▸ List.mem_append_left ms hm, ?_⟩)
      rw [mark]
      decide
    have last : ∀ m ∈ (ls ++ [l]).getLast?, m.1.runs = false := by
      intro m hm
      rw [List.getLast?_concat] at hm
      refine single m ?_
      rwa [some, List.getLast?_concat]
    obtain ⟨front, back, rfl, gap, continued⟩ := lexemes_resume all readable last
    have blank_back : IsBlankText back := isBlankText_of_lexemes (gap ▸ blank)
    have front_text : Lexeme.text (ls ++ [l]) = front := by
      have alone := continued []
      rw [List.append_nil, show lexemes [] = [] from rfl, List.append_nil] at alone
      rw [← alone, text_lexemes]
    -- Behind the last word there is only white space, which the text may go on with.
    have shared (rest : Text) : significant (tokenize (front ++ (back ++ rest))) =
        significant (Lexeme.place 0 (ls ++ [l])) ++
          significant (Lexeme.place (front ++ back).length (lexemes rest)) := by
      have all : tokenize (front ++ (back ++ rest)) =
          Lexeme.place 0 (lexemes (front ++ (back ++ rest))) := rfl
      rw [all, continued, place_append, front_text, significant, List.filter_append, ← significant,
        ← significant, significant_blank blank_back, List.length_append, Nat.zero_add]
    have own := shared []
    rw [List.append_nil] at own
    rw [List.append_assoc, shared, own]
    exact congrArg (· ++ _) (List.append_nil _).symm

end

/-! ## Classes of two programs -/

section
variable {source source' : Text} {decls decls' : List ClassDecl}

theorem ascii_of_parse (parsed : parse source = .ok decls) :
    ∀ l ∈ words source, ∃ b ∈ l.2, b < 0x80 := by
  have reads : Reads (.ofOffsets source.length source.length) .start
      (significant (tokenize source)) decls := parsed
  have split := (List.append_nil (significant (tokenize source))).symm
  obtain ⟨r, walk⟩ := walk_of_reads (split ▸ reads)
  intro l hl
  rw [← significant_lexemes] at hl
  obtain ⟨t, ht, rfl⟩ := List.mem_map.1 hl
  exact ascii_of_walk split walk t ht

theorem ProgramTree.last_reads (program : ProgramTree) :
    ∀ t ∈ program.yield.getLast?, t.text = "\x7d" := by
  intro t ht
  obtain rfl | ⟨front, c, rfl⟩ := List.eq_nil_or_concat' program
  · cases ht
  · have last : (ProgramTree.yield (front ++ [c])).getLast? = some c.bodyClosing.token := by
      simp [ProgramTree.yield, ClassTree.yield, List.getLast?_append, List.getLast?_cons]
    rw [last] at ht
    exact Option.some.inj ht ▸ c.bodyClosing.reads

/-- A program does not end with a name. -/
theorem single_of_parse (parsed : parse source = .ok decls) :
    ∀ l ∈ (words source).getLast?, l.1.runs = false := by
  have lexical := tokenize_lexical source
  obtain ⟨program, yield, -, -⟩ := (reads_iff lexical).1 parsed
  intro l hl
  rw [← significant_lexemes, List.getLast?_map, ← yield] at hl
  obtain ⟨t, ht, rfl⟩ := Option.map_eq_some_iff.1 hl
  have member : t ∈ significant (tokenize source) := yield ▸ List.mem_of_getLast? ht
  have not_name : t.kind ≠ .identifier := by
    intro kind
    have name := lexical t member kind
    rw [program.last_reads t ht] at name
    exact absurd name (by decide)
  have not_blank : t.kind ≠ .whitespace := of_decide_eq_true (List.mem_filter.1 member).2
  cases kind : t.kind with
  | whitespace => exact absurd kind not_blank
  | identifier => exact absurd kind not_name
  | punctuation | invalid =>
    rw [Token.lexeme, kind]
    rfl

/-- What is read from a text behind a program is what is read from the text alone, further on and
behind the classes of the program. -/
theorem parse_after (parsed : parse source = .ok decls) (rest : Text) :
    parse (source ++ rest) = relocatedOutcome (.shift source.length)
      (relocatedAfter (.shift source.length) decls) (parse rest) := by
  have reads : Reads (.ofOffsets source.length source.length) .start
      (significant (tokenize source)) decls := parsed
  have walk : Reader.start.walk (significant (tokenize source)) = .ok ⟨decls, .between⟩ := by
    have split := (List.append_nil (significant (tokenize source))).symm
    obtain ⟨⟨classes, stage⟩, walk⟩ := walk_of_reads (split ▸ reads)
    rw [Reads, split, run_append walk] at reads
    obtain ⟨between, read⟩ := reads_nil.1 reads
    rw [walk, ← between, ← read]
  have tokens := significant_append (ascii_of_parse parsed) (single_of_parse parsed) rest
  have ending : Span.ofOffsets (source ++ rest).length (source ++ rest).length =
      (Relocation.shift source.length).move (.ofOffsets rest.length rest.length) := by
    simp only [Relocation.shift, Span.ofOffsets, Span.shift, List.length_append, Span.mk.injEq]
    omega
  have resumed : (⟨decls, .between⟩ : Reader) =
      Reader.start.relocated (.shift source.length) decls := by
    rw [Reader.relocated, relocatedAfter, Reader.start, List.map_nil, List.append_nil]
    rfl
  rw [parse, readSource, readTokens, tokens, run_append walk, ending, resumed]
  exact run_relocated _ decls _ .start (significant (tokenize rest))

mutual

theorem TypeUse.unplaced_relocated (f : Relocation) (t : TypeUse) :
    (t.relocated f).unplaced = t.unplaced := by
  cases t with
  | mk name args _ =>
    exact congrArg (TypeUse.mk name · .nowhere) (TypeArg.unplaced_relocated f args)

theorem TypeArg.unplaced_relocated (f : Relocation) : ∀ args : List TypeArg,
    TypeArg.unplaced (TypeArg.relocated f args) = TypeArg.unplaced args
  | [] => rfl
  | (w, t) :: args => by
    rw [TypeArg.relocated, TypeArg.unplaced_cons, TypeArg.unplaced_cons, t.unplaced_relocated,
      TypeArg.unplaced_relocated f args]

end

theorem ClassDecl.unplaced_relocated (f : Relocation) (c : ClassDecl) :
    (c.relocated f).unplaced = c.unplaced := by
  have method (m : Method) : (m.relocated f).unplaced = m.unplaced := by
    simp [Method.relocated, Method.unplaced_eq, TypeUse.unplaced_relocated]
  simp [ClassDecl.relocated, ClassDecl.unplaced_eq, method]

/-- Two programs one after the other are the program with the classes of both. -/
theorem parse_append (parsed : parse source = .ok decls) (parsed' : parse source' = .ok decls') :
    ∃ both, parse (source ++ source') = .ok both ∧
      both.map ClassDecl.unplaced = (decls ++ decls').map ClassDecl.unplaced := by
  refine ⟨relocatedAfter (.shift source.length) decls decls', ?_, ?_⟩
  · rw [parse_after parsed, parsed']
    rfl
  · simp [relocatedAfter, ClassDecl.unplaced_relocated]

/-- **Reading is a homomorphism.** In front of any text, a program is read as it is alone, and then
the text is read as it is alone, further on by the length of the program: its classes follow, or
its diagnostic is the one given. -/
theorem parse_homomorphic (parsed : parse source = .ok decls) (rest : Text) :
    (∀ more, parse rest = .ok more → parse (source ++ rest) =
      .ok (decls ++ more.map (ClassDecl.relocated (.shift source.length)))) ∧
    (∀ d, parse rest = .error d → parse (source ++ rest) =
      .error ⟨d.fault, d.span.shift source.length⟩) := by
  refine ⟨fun more accepted => ?_, fun d refused => ?_⟩
  · rw [parse_after parsed, accepted]
    rfl
  · rw [parse_after parsed, refused]
    rfl

end

/-- A program that ends in white space of two bytes. -/
def leadingSource : Text := "class A<X> \x7b X f(); \x7d\u00A0"

/-- White space, and a class with one parameter twice. -/
def trailingSource : Text := "\u00A0class B<Y, Y>"

theorem parse_homomorphic_leading : parse leadingSource = .ok (readSource leadingSource).classes ∧
    parse (leadingSource ++ leadingSource) = .ok ((readSource leadingSource).classes ++
      (readSource leadingSource).classes.map (ClassDecl.relocated (.shift 23))) ∧
    parse trailingSource = .error ⟨.duplicateParam "B" "Y", ⟨14, 15⟩⟩ ∧
    parse (leadingSource ++ trailingSource) = .error ⟨.duplicateParam "B" "Y", ⟨37, 38⟩⟩ := by
  have none : (readSource leadingSource).diagnostic = none := by decide +kernel
  have found : (readSource trailingSource).diagnostic =
      some ⟨.duplicateParam "B" "Y", ⟨14, 15⟩⟩ := by decide +kernel
  have accepted : parse leadingSource = .ok (readSource leadingSource).classes := by
    rw [parse, Reading.result, none]
  have refused : parse trailingSource = .error ⟨.duplicateParam "B" "Y", ⟨14, 15⟩⟩ := by
    rw [parse, Reading.result, found]
  exact ⟨accepted, (parse_homomorphic accepted leadingSource).1 _ accepted, refused,
    (parse_homomorphic accepted trailingSource).2 _ refused⟩

end Polarity

import Mathlib.Data.List.Chain
import Polarity.Proofs.Lexemes

/-!
# The partition of a source into tokens

The tokens of a source are the only way to cut it, whatever its bytes are, into runs
of white space, runs of word characters and single other characters, so that no run
goes on behind its end.

* `IsToken`: the texts of each kind of token, in front of the rest of the source;
* `Begins`: a piece in front of the rest of the source; it is found there
  (`Begins.split`), and every text begins with one (`begins_next`);
* `Munched`: lexemes that are tokens and do not go on, as a piece in front leaves them
  (`Munched.push`);
* `lexemes_eq_iff`: the lexemes of a source are the only munched ones with its text;
* `Partition`: tokens that cover a source and stand where their texts do;
* `partition_iff`: they are the tokens of the source.
-/

namespace Polarity

/-- A character of identifiers. -/
def IsWord (c : Char) : Prop :=
  ('0' ≤ c ∧ c ≤ '9') ∨ ('a' ≤ c ∧ c ≤ 'z') ∨ ('A' ≤ c ∧ c ≤ 'Z') ∨ c = '_'

theorem isWord_iff {c : Char} : IsWord c ↔ isWordChar c = true := by
  have underscore : c = '_' ↔ c.toNat = 0x5F :=
    ⟨fun h => h ▸ rfl, fun h => by rw [← Char.ofNat_toNat c, h]⟩
  rw [isWordChar_iff, IsWord, underscore]
  simp only [Char.le_def, UInt32.le_iff_toNat_le, Char.toNat, Char.reduceVal, UInt32.reduceToNat]
  omega

/-- The texts of each kind of token, in front of the rest of the source: characters of a run,
one other character, or a byte at which no character is written. -/
inductive IsToken (rest : Text) : TokenKind → Text → Prop where
  | whitespace {cs : List Char} (blank : ∀ c ∈ cs, isBlank c = true) :
      IsToken rest .whitespace (cs.flatMap Text.ofChar)
  | identifier {cs : List Char} (word : ∀ c ∈ cs, IsWord c) :
      IsToken rest .identifier (cs.flatMap Text.ofChar)
  | character {c : Char} (space : isBlank c = false) (word : ¬ IsWord c) :
      IsToken rest .punctuation (Text.ofChar c)
  | byte {b : UInt8} (broken : ∀ c, ¬ Text.ofChar c <+: b :: rest) :
      IsToken rest .punctuation [b]

/-! ## Pieces in front of a text -/

/-- The piece of a character. -/
def Piece.ofChar (c : Char) : Piece := ⟨some c, Text.ofChar c⟩

/-- A piece in front of `rest`: a character, or a byte at which none is written. -/
inductive Begins (rest : Text) : Piece → Prop where
  | character (c : Char) : Begins rest (.ofChar c)
  | byte {b : UInt8} (broken : ∀ c, ¬ Text.ofChar c <+: b :: rest) : Begins rest ⟨none, [b]⟩

variable {rest text : Text} {p : Piece} {c : Char} {kind : TokenKind}

theorem ofChar_ne_nil (c : Char) : Text.ofChar c ≠ [] := String.utf8EncodeChar_ne_nil

theorem Begins.bytes_ne_nil (h : Begins rest p) : p.bytes ≠ [] := by
  cases h with
  | character c => exact ofChar_ne_nil c
  | byte broken => exact List.cons_ne_nil _ _

theorem Begins.split (h : Begins rest p) :
    Piece.split (p.bytes ++ rest) = p :: Piece.split rest := by
  cases h with
  | character c =>
    obtain ⟨b, bs, bytes⟩ := List.exists_cons_of_ne_nil (ofChar_ne_nil c)
    have read := Piece.first_of_encoded (bytes ▸ encoded_ofChar c) rest
    rw [Piece.ofChar, bytes, List.cons_append, Piece.split_cons, Piece.next, read]
    simp only [List.take_left, List.drop_left]
  | byte broken =>
    have read := Piece.first_eq_none_iff.2 broken
    rw [List.singleton_append, Piece.split_cons, Piece.next, read]
    simp only [List.drop_zero]

theorem begins_next (b : UInt8) (rest : Text) :
    Begins (rest.drop (Piece.next b rest).2) (Piece.next b rest).1 := by
  unfold Piece.next
  cases read : Piece.first b rest with
  | none => exact .byte (Piece.first_eq_none_iff.1 read)
  | some found =>
    obtain ⟨c, more⟩ := found
    dsimp only
    rw [encoded_iff.1 (Piece.encoded_of_first read)]
    exact .character c

theorem lexemes_piece (h : Begins rest p) :
    lexemes (p.bytes ++ rest) = Lexeme.push p (lexemes rest) := by
  rw [lexemes, h.split, Lexeme.ofPieces_cons, lexemes]

/-- Every text is cut into pieces from the front. -/
theorem text_induction {motive : Text → Prop} (nil : motive [])
    (piece : ∀ p rest, Begins rest p → motive rest → motive (p.bytes ++ rest)) (t : Text) :
    motive t := by
  induction size : t.length using Nat.strongRecOn generalizing t with
  | ind n ih =>
    cases t with
    | nil => exact nil
    | cons b rest =>
      have shorter : (rest.drop (Piece.next b rest).2).length < n := by
        rw [List.length_drop]
        rw [List.length_cons] at size
        omega
      rw [← Piece.next_bytes b rest]
      exact piece _ _ (begins_next b rest) (ih _ shorter _ rfl)

/-! ## Kinds of pieces -/

theorem kind_whitespace_iff : (Piece.ofChar c).kind = .whitespace ↔ isBlank c = true := by
  simp only [Piece.kind, Piece.ofChar]
  split
  · simp [*]
  · split <;> simp [*]

theorem kind_identifier_iff : (Piece.ofChar c).kind = .identifier ↔ IsWord c := by
  rw [isWord_iff]
  simp only [Piece.kind, Piece.ofChar]
  split
  · rename_i blank
    have other : isWordChar c = false := by
      refine Bool.eq_false_iff.2 fun word => ?_
      rw [not_isBlank_of_isWordChar word] at blank
      cases blank
    simp [other]
  · split <;> simp [*]

theorem kind_punctuation_iff :
    (Piece.ofChar c).kind = .punctuation ↔ isBlank c = false ∧ ¬ IsWord c := by
  rw [isWord_iff]
  simp only [Piece.kind, Piece.ofChar]
  split
  · simp [*]
  · split <;> simp [*]

theorem kind_of_single (h : p.kind.runs = false) : p.kind = .punctuation := by
  fun_cases Piece.kind p with
  | case1 c known blank => simp [Piece.kind, known, blank, TokenKind.runs] at h
  | case2 c known space word => simp [Piece.kind, known, space, word, TokenKind.runs] at h
  | case3 c known space word => rfl
  | case4 => rfl

theorem Begins.exists_ofChar (h : Begins rest p)
    (runs : p.kind.runs = true) : ∃ c, p = .ofChar c := by
  cases h with
  | character c => exact ⟨c, rfl⟩
  | byte broken => cases runs

/-- A token that forms a run is made of the characters of its kind. -/
theorem isToken_run_iff (runs : kind.runs = true) :
    IsToken rest kind text ↔
      ∃ cs : List Char, text = cs.flatMap Text.ofChar ∧ ∀ c ∈ cs, (Piece.ofChar c).kind = kind := by
  constructor
  · intro h
    cases h with
    | whitespace blank => exact ⟨_, rfl, fun c hc => kind_whitespace_iff.2 (blank c hc)⟩
    | identifier word => exact ⟨_, rfl, fun c hc => kind_identifier_iff.2 (word c hc)⟩
    | character => cases runs
    | byte => cases runs
  · rintro ⟨cs, rfl, kinds⟩
    cases kind with
    | whitespace => exact .whitespace fun c hc => kind_whitespace_iff.1 (kinds c hc)
    | identifier => exact .identifier fun c hc => kind_identifier_iff.1 (kinds c hc)
    | punctuation => cases runs
    | invalid => cases runs

/-- Any other token is a piece. -/
theorem isToken_single_iff (single : kind.runs = false) :
    IsToken rest kind text ↔ ∃ p, Begins rest p ∧ p.kind = kind ∧ p.bytes = text := by
  constructor
  · intro h
    cases h with
    | whitespace => cases single
    | identifier => cases single
    | character space word =>
      exact ⟨_, .character _, kind_punctuation_iff.2 ⟨space, word⟩, rfl⟩
    | byte broken => exact ⟨_, .byte broken, rfl, rfl⟩
  · rintro ⟨p, begins, rfl, rfl⟩
    rw [kind_of_single single]
    cases begins with
    | character c =>
      obtain ⟨space, word⟩ := kind_punctuation_iff.1 (kind_of_single single)
      exact .character space word
    | byte broken => exact .byte broken

/-- A piece is a token by itself. -/
theorem Begins.isToken (h : Begins rest p) :
    IsToken rest p.kind p.bytes := by
  cases runs : p.kind.runs with
  | true =>
    obtain ⟨c, rfl⟩ := h.exists_ofChar runs
    exact (isToken_run_iff runs).2 ⟨[c], by simp [Piece.ofChar], by simp⟩
  | false => exact (isToken_single_iff runs).2 ⟨p, h, rfl, rfl⟩

/-- A run goes on to the front. -/
theorem IsToken.push {others : Text} (h : IsToken rest p.kind text)
    (first : Begins others p) (runs : p.kind.runs = true) :
    IsToken rest p.kind (p.bytes ++ text) := by
  obtain ⟨c, rfl⟩ := first.exists_ofChar runs
  obtain ⟨cs, rfl, kinds⟩ := (isToken_run_iff runs).1 h
  exact (isToken_run_iff runs).2 ⟨c :: cs, rfl, List.forall_mem_cons.2 ⟨rfl, kinds⟩⟩

/-! ## Longest runs -/

/-- Each lexeme is a token in front of those behind it, and does not go on there. -/
def Munched : List Lexeme → Prop
  | [] => True
  | (kind, text) :: ls =>
    text ≠ [] ∧ IsToken (Lexeme.text ls) kind text ∧ Lexeme.Apart kind ls ∧ Munched ls

/-- A piece in front joins the first run, or stands alone where it does not belong to it. -/
theorem Munched.push {ls : List Lexeme} (h : Munched ls)
    (first : Begins (Lexeme.text ls) p) : Munched (Lexeme.push p ls) := by
  fun_cases Lexeme.push p ls with
  | case1 =>
    refine ⟨first.bytes_ne_nil, first.isToken, ?_, trivial⟩
    intro l hl
    cases hl
  | case2 kind text rest joined =>
    simp only [Bool.and_eq_true, decide_eq_true_eq] at joined
    obtain ⟨rfl, runs⟩ := joined
    obtain ⟨-, token, apart, others⟩ := h
    refine ⟨fun empty => first.bytes_ne_nil ?_, token.push first runs, apart, others⟩
    exact (List.append_eq_nil_iff.1 empty).1
  | case3 kind text rest apart =>
    refine ⟨first.bytes_ne_nil, first.isToken, ?_, h⟩
    intro l hl same
    obtain rfl := Option.some.inj hl
    obtain rfl : p.kind = kind := same
    refine Bool.eq_false_iff.2 fun runs => apart ?_
    rw [decide_eq_true rfl, runs]
    rfl

theorem munched_lexemes (source : Text) : Munched (lexemes source) := by
  induction source using text_induction with
  | nil => trivial
  | piece p rest begins ih =>
    rw [lexemes_piece begins]
    exact ih.push ((text_lexemes rest).symm ▸ begins)

theorem lexemes_run (runs : kind.runs = true) {cs : List Char} (some_char : cs ≠ [])
    (kinds : ∀ c ∈ cs, (Piece.ofChar c).kind = kind) (apart : Lexeme.Apart kind (lexemes rest)) :
    lexemes (cs.flatMap Text.ofChar ++ rest) = (kind, cs.flatMap Text.ofChar) :: lexemes rest := by
  have pieces : Piece.join (cs.map Piece.ofChar) = cs.flatMap Text.ofChar := by
    rw [Piece.join, List.flatMap_map]
    rfl
  have complete : ∀ p ∈ cs.map Piece.ofChar, p.Complete :=
    List.forall_mem_map.2 fun c _ rest => (Begins.character c).split
  have run := Lexeme.ofPieces_run runs (by simpa using some_char) (List.forall_mem_map.2 kinds) apart
  rwa [← lexemes, ← Piece.split_join complete, pieces] at run

/-- A token is found in front of a text with which it does not go on. -/
theorem IsToken.lexemes (h : IsToken rest kind text)
    (some_byte : text ≠ []) (apart : Lexeme.Apart kind (lexemes rest)) :
    lexemes (text ++ rest) = (kind, text) :: lexemes rest := by
  cases runs : kind.runs with
  | true =>
    obtain ⟨cs, rfl, kinds⟩ := (isToken_run_iff runs).1 h
    refine lexemes_run runs (fun none => some_byte ?_) kinds apart
    rw [none]
    rfl
  | false =>
    obtain ⟨p, begins, rfl, rfl⟩ := (isToken_single_iff runs).1 h
    rw [lexemes_piece begins, Lexeme.push_of_apart apart]

theorem Munched.lexemes {ls : List Lexeme} (h : Munched ls) : lexemes (Lexeme.text ls) = ls := by
  induction ls with
  | nil => rfl
  | cons l ls ih =>
    obtain ⟨kind, text⟩ := l
    obtain ⟨some_byte, token, apart, others⟩ := h
    have behind := ih others
    rw [← behind] at apart
    refine (token.lexemes some_byte apart).trans ?_
    rw [behind]

/-- The lexemes of a source are the only ones that are tokens and do not go on. -/
theorem lexemes_eq_iff {source : Text} {ls : List Lexeme} :
    lexemes source = ls ↔ Lexeme.text ls = source ∧ Munched ls := by
  constructor
  · rintro rfl
    exact ⟨text_lexemes source, munched_lexemes source⟩
  · rintro ⟨rfl, munched⟩
    exact munched.lexemes

/-! ## Tokens -/

/-- Neighbours that are not one run. -/
def Token.Parted (t u : Token) : Prop :=
  ¬ (t.kind = .whitespace ∧ u.kind = .whitespace) ∧
    ¬ (t.kind = .identifier ∧ u.kind = .identifier)

/-- The tokens cover the source from its first byte to its last one, each where its text stands,
and are longest runs or single characters. -/
structure Partition (source : Text) (tokens : List Token) : Prop where
  covers : tokens.flatMap Token.text = source
  start : ∀ t ∈ tokens.head?, t.span.start = 1
  contiguous : tokens.IsChain fun t u => t.span.stop = u.span.start
  length : ∀ t ∈ tokens, t.span.stop - t.span.start = t.text.length
  positive : ∀ t ∈ tokens, 0 < t.text.length
  isToken : ∀ t rest, t :: rest <:+ tokens → IsToken (rest.flatMap Token.text) t.kind t.text
  parted : tokens.IsChain Token.Parted

/-- Where tokens stand is told by the place of the first one and the lengths. -/
theorem place_eq_iff {offset : Nat} {tokens : List Token} :
    Lexeme.place offset (tokens.map Token.lexeme) = tokens ↔
      (∀ t ∈ tokens.head?, t.span.start = offset + 1) ∧
        (tokens.IsChain fun t u => t.span.stop = u.span.start) ∧
        ∀ t ∈ tokens, t.span.stop - t.span.start = t.text.length := by
  induction tokens generalizing offset with
  | nil => simp [Lexeme.place]
  | cons t ts ih =>
    obtain ⟨kind, text, start, stop⟩ := t
    rw [List.map_cons, Token.lexeme, Lexeme.place, List.cons.injEq, ih, List.isChain_cons,
      List.forall_mem_cons]
    simp only [Span.ofOffsets, Token.mk.injEq, Span.mk.injEq, true_and, List.head?_cons,
      Option.mem_some_iff, forall_eq']
    push_cast
    constructor
    · rintro ⟨⟨rfl, rfl⟩, first, chain, lengths⟩
      exact ⟨rfl, ⟨fun u hu => (first u hu).symm, chain⟩, by omega, lengths⟩
    · rintro ⟨rfl, ⟨first, chain⟩, length, lengths⟩
      obtain rfl : stop = offset + text.length + 1 := by omega
      exact ⟨⟨rfl, rfl⟩, fun u hu => (first u hu).symm, chain, lengths⟩

theorem text_map_lexeme (tokens : List Token) :
    Lexeme.text (tokens.map Token.lexeme) = tokens.flatMap Token.text := by
  rw [Lexeme.text, List.flatMap_map]
  rfl

theorem Token.parted_iff {t u : Token} : t.Parted u ↔ (t.kind = u.kind → t.kind.runs = false) := by
  unfold Token.Parted
  cases t.kind <;> cases u.kind <;> decide

theorem munched_iff {tokens : List Token} : Munched (tokens.map Token.lexeme) ↔
    (∀ t ∈ tokens, 0 < t.text.length) ∧
      (∀ t rest, t :: rest <:+ tokens → IsToken (rest.flatMap Token.text) t.kind t.text) ∧
      tokens.IsChain Token.Parted := by
  induction tokens with
  | nil => simp [Munched]
  | cons t ts ih =>
    have first : Lexeme.Apart t.kind (ts.map Token.lexeme) ↔ ∀ u ∈ ts.head?, t.Parted u := by
      simp only [Lexeme.Apart, List.head?_map, Option.mem_def, Option.map_eq_some_iff,
        forall_exists_index, and_imp, forall_apply_eq_imp_iff₂, Token.parted_iff]
      rfl
    have suffixes : (∀ u rest, u :: rest <:+ t :: ts →
        IsToken (rest.flatMap Token.text) u.kind u.text) ↔
        IsToken (ts.flatMap Token.text) t.kind t.text ∧ ∀ u rest, u :: rest <:+ ts →
          IsToken (rest.flatMap Token.text) u.kind u.text := by
      simp only [List.suffix_cons_iff, List.cons.injEq, or_imp, and_imp, forall_and]
      simp
    rw [List.map_cons, Token.lexeme, Munched, text_map_lexeme, ih, first, suffixes,
      List.forall_mem_cons, List.isChain_cons, List.length_pos_iff]
    tauto

/-- A source has one partition, its tokens. -/
theorem partition_iff (source : Text) (tokens : List Token) :
    Partition source tokens ↔ tokens = tokenize source := by
  constructor
  · intro h
    have placed := place_eq_iff.2 ⟨h.start, h.contiguous, h.length⟩
    have munched := munched_iff.2 ⟨h.positive, h.isToken, h.parted⟩
    have cut : lexemes source = tokens.map Token.lexeme :=
      lexemes_eq_iff.2 ⟨(text_map_lexeme tokens).trans h.covers, munched⟩
    rw [← placed, ← cut]
    rfl
  · rintro rfl
    have words : (tokenize source).map Token.lexeme = lexemes source := place_lexemes 0 _
    obtain ⟨covers, munched⟩ := lexemes_eq_iff.1 words.symm
    obtain ⟨positive, isToken, parted⟩ := munched_iff.1 munched
    have placed : Lexeme.place 0 ((tokenize source).map Token.lexeme) = tokenize source := by
      rw [words]
      rfl
    obtain ⟨start, contiguous, length⟩ := place_eq_iff.1 placed
    rw [text_map_lexeme] at covers
    exact ⟨covers, start, contiguous, length, positive, isToken, parted⟩

-- A space of three bytes, one of its beginnings without the end, and the replacement character.
example : (tokenize [0x61, 0xE2, 0x80, 0x8A, 0xE2, 0x80, 0xEF, 0xBF, 0xBD]).map Token.lexeme =
    [(.identifier, [0x61]), (.whitespace, [0xE2, 0x80, 0x8A]), (.punctuation, [0xE2]),
      (.punctuation, [0x80]), (.punctuation, [0xEF, 0xBF, 0xBD])] := by
  decide

end Polarity

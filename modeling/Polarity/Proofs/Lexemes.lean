import Mathlib.Data.List.Basic
import Polarity.Proofs.Pieces
import Polarity.Proofs.Places

/-!
# Words of a source

How a source falls into words, and how it does so from the front: a name, a mark or
white space is found in front of any text that does not go on with it. A source can
also be cut behind one of its tokens and continued in another way, with the tokens
in front kept at their places.

* `Lexeme.ofPieces_run`: pieces of one run form one lexeme;
* `Lexeme.ofPieces_cut`: cutting a source behind one of its lexemes;
* `words`: the lexemes of a source other than white space;
* `words_name`, `words_mark`, `words_blank`: what stands in front of a text;
* `significant_blank`: white space moves the tokens behind it;
* `Lexical`: identifiers are names, as in every source (`tokenize_lexical`);
* `tokenize_place`: a token stands where its text does;
* `tokenize_cut`: continuing a source behind one of its tokens.
-/

namespace Polarity

/-! ## Lexemes -/

/-- The lexemes of a source. -/
def lexemes (source : Text) : List Lexeme := Lexeme.ofPieces (Piece.split source)

theorem text_lexemes (source : Text) : Lexeme.text (lexemes source) = source := by
  rw [lexemes, Lexeme.text_ofPieces, Piece.bytes_split]

namespace Lexeme

theorem ofPieces_cons (p : Piece) (pieces : List Piece) :
    ofPieces (p :: pieces) = push p (ofPieces pieces) := rfl

theorem push_cons_head (p : Piece) (ls : List Lexeme) :
    ∃ text rest, push p ls = (p.kind, text) :: rest := by
  fun_cases push p ls with
  | case1 => exact ⟨_, _, rfl⟩
  | case2 kind text rest joined =>
    simp only [Bool.and_eq_true, decide_eq_true_eq] at joined
    rw [joined.1]
    exact ⟨_, _, rfl⟩
  | case3 kind text rest apart => exact ⟨_, _, rfl⟩

/-- A piece of this kind does not join the first one of the lexemes. -/
def Apart (kind : TokenKind) (ls : List Lexeme) : Prop :=
  ∀ l ∈ ls.head?, kind = l.1 → kind.runs = false

theorem push_of_apart {p : Piece} {ls : List Lexeme} (h : Apart p.kind ls) :
    push p ls = (p.kind, p.bytes) :: ls := by
  fun_cases push p ls with
  | case1 => rfl
  | case2 kind text rest joined =>
    simp only [Bool.and_eq_true, decide_eq_true_eq] at joined
    have := h _ rfl joined.1
    rw [joined.1, joined.2] at this
    cases this
  | case3 kind text rest apart => rfl

theorem push_join {p : Piece} {text : Text} {rest : List Lexeme} (h : p.kind.runs = true) :
    push p ((p.kind, text) :: rest) = (p.kind, p.bytes ++ text) :: rest := by
  simp [push, h]

/-- Pieces of one run form one lexeme, in front of pieces that do not go on with it. -/
theorem ofPieces_run {kind : TokenKind} (runs : kind.runs = true) {pieces others : List Piece}
    (some_piece : pieces ≠ []) (kinds : ∀ p ∈ pieces, p.kind = kind)
    (apart : Apart kind (ofPieces others)) :
    ofPieces (pieces ++ others) = (kind, Piece.join pieces) :: ofPieces others := by
  induction pieces with
  | nil => exact absurd rfl some_piece
  | cons p pieces ih =>
    obtain ⟨rfl, rest⟩ := List.forall_mem_cons.1 kinds
    rw [List.cons_append, ofPieces_cons]
    cases pieces with
    | nil =>
      rw [List.nil_append, push_of_apart apart]
      simp [Piece.join]
    | cons q pieces =>
      rw [ih (List.cons_ne_nil _ _) rest, push_join runs]
      rfl

/-- The pieces of the first lexemes form them again in front of other pieces, unless these go
on with the last one. -/
theorem ofPieces_cut {pieces : List Piece} {ls ms : List Lexeme}
    (h : ofPieces pieces = ls ++ ms) :
    ∃ front back, pieces = front ++ back ∧ ∀ others,
      (∀ l ∈ ls.getLast?, Apart l.1 (ofPieces others)) →
        ofPieces (front ++ others) = ls ++ ofPieces others := by
  -- Lexemes grow at the front, so the cut moves to the back with the pieces: the first piece
  -- joins the first lexeme of the others or becomes one itself.
  induction pieces generalizing ls with
  | nil =>
    obtain ⟨rfl, -⟩ := List.append_eq_nil_iff.1 h.symm
    exact ⟨[], [], rfl, fun _ _ => rfl⟩
  | cons p pieces ih =>
    cases ls with
    | nil => exact ⟨[], p :: pieces, rfl, fun _ _ => rfl⟩
    | cons l ls =>
      rw [ofPieces_cons] at h
      cases rest : ofPieces pieces with
      | nil =>
        rw [rest] at h
        obtain ⟨rfl, tail⟩ := List.cons.inj h
        obtain ⟨rfl, -⟩ := List.append_eq_nil_iff.1 tail.symm
        exact ⟨[p], pieces, rfl, fun others apart => push_of_apart (apart _ rfl)⟩
      | cons m others =>
        by_cases joined : p.kind = m.1 ∧ p.kind.runs = true
        · obtain ⟨kind, text⟩ := m
          obtain ⟨rfl, runs⟩ := joined
          rw [rest, push_join runs] at h
          obtain ⟨rfl, tail⟩ := List.cons.inj h
          obtain ⟨front, back, rfl, cut⟩ := @ih ((p.kind, text) :: ls) (by rw [rest, tail]; rfl)
          refine ⟨p :: front, back, rfl, fun others apart => ?_⟩
          have inner : ofPieces (front ++ others) = (p.kind, text) :: ls ++ ofPieces others := by
            refine cut others fun l hl => ?_
            cases ls with
            | nil =>
              obtain rfl := Option.some.inj hl
              exact apart (p.kind, p.bytes ++ text) rfl
            | cons l' ls => exact apart l hl
          rw [List.cons_append, ofPieces_cons, inner, List.cons_append, push_join runs]
          rfl
        · have apart : Apart p.kind (m :: others) := by
            rintro l hl same
            obtain rfl := Option.some.inj hl
            exact Bool.eq_false_iff.2 fun runs => joined ⟨same, runs⟩
          rw [rest, push_of_apart apart] at h
          obtain ⟨rfl, tail⟩ := List.cons.inj h
          obtain ⟨front, back, rfl, cut⟩ := @ih ls (rest.trans tail)
          refine ⟨p :: front, back, rfl, fun others' apart' => ?_⟩
          rw [List.cons_append, ofPieces_cons]
          cases ls with
          | nil =>
            rw [cut others' nofun]
            exact push_of_apart (apart' _ rfl)
          | cons l' ls =>
            rw [cut others' apart', push_of_apart]
            · rfl
            · obtain ⟨rfl, -⟩ := List.cons.inj tail
              exact apart

/-- A lexeme is made of pieces of its kind. -/
theorem made_of_mem {pieces : List Piece} {l : Lexeme} (h : l ∈ ofPieces pieces) :
    ∃ own : List Piece, own ≠ [] ∧ Piece.join own = l.2 ∧
      ∀ p ∈ own, p ∈ pieces ∧ p.kind = l.1 := by
  induction pieces generalizing l with
  | nil => cases h
  | cons p pieces ih =>
    have later {l : Lexeme} (h : l ∈ ofPieces pieces) : ∃ own : List Piece, own ≠ [] ∧
        Piece.join own = l.2 ∧ ∀ q ∈ own, q ∈ p :: pieces ∧ q.kind = l.1 := by
      obtain ⟨own, some_piece, text, made⟩ := ih h
      exact ⟨own, some_piece, text, fun q hq => ⟨.tail _ (made q hq).1, (made q hq).2⟩⟩
    have single : ∃ own : List Piece, own ≠ [] ∧ Piece.join own = p.bytes ∧
        ∀ q ∈ own, q ∈ p :: pieces ∧ q.kind = p.kind := by
      refine ⟨[p], List.cons_ne_nil _ _, by simp [Piece.join], fun q hq => ?_⟩
      obtain rfl := List.mem_singleton.1 hq
      exact ⟨.head _, rfl⟩
    rw [ofPieces_cons] at h
    generalize eq : ofPieces pieces = rest at h later
    fun_cases push p rest with
    | case1 =>
      obtain rfl := List.mem_singleton.1 h
      exact single
    | case2 kind text rest joined =>
      simp only [push, joined, ↓reduceIte] at h
      simp only [Bool.and_eq_true, decide_eq_true_eq] at joined
      obtain rfl | h := List.mem_cons.1 h
      · obtain ⟨own, -, same, made⟩ := later (.head _)
        refine ⟨p :: own, List.cons_ne_nil _ _, ?_,
          List.forall_mem_cons.2 ⟨⟨.head _, joined.1⟩, made⟩⟩
        rw [Piece.join, List.flatMap_cons, ← Piece.join, same]
      · exact later (.tail _ h)
    | case3 kind text rest apart =>
      simp only [push, apart, Bool.false_eq_true, ↓reduceIte] at h
      obtain rfl | h := List.mem_cons.1 h
      · exact single
      · exact later h

/-- A piece that belongs to no run is a lexeme. -/
theorem mem_ofPieces {pieces : List Piece} {p : Piece} (hp : p ∈ pieces)
    (single : p.kind.runs = false) : (p.kind, p.bytes) ∈ ofPieces pieces := by
  induction pieces with
  | nil => cases hp
  | cons q pieces ih =>
    rw [ofPieces_cons]
    obtain rfl | hp := List.mem_cons.1 hp
    · rw [push_of_apart fun _ _ _ => single]
      exact .head _
    · have known := ih hp
      generalize ofPieces pieces = rest at known
      fun_cases push q rest with
      | case1 => cases known
      | case2 kind text rest joined =>
        simp only [Bool.and_eq_true, decide_eq_true_eq] at joined
        obtain same | known := List.mem_cons.1 known
        · have kinds : p.kind = kind := congrArg Prod.fst same
          rw [kinds, joined.2] at single
          cases single
        · exact .tail _ known
      | case3 kind text rest apart => exact .tail _ known

end Lexeme

/-- Identifiers are made of word characters. -/
theorem isName_of_mem {source : Text} {l : Lexeme} (h : l ∈ lexemes source)
    (hk : l.1 = .identifier) : IsName l.2 := by
  obtain ⟨own, some_piece, text, made⟩ := Lexeme.made_of_mem h
  have ascii : ∀ p ∈ own, ∃ b, p = Piece.ascii b ∧ isWordByte b = true := fun p hp =>
    Piece.eq_ascii_of_identifier (made p hp).1 ((made p hp).2.trans hk)
  rw [← text]
  constructor
  · cases own with
    | nil => exact absurd rfl some_piece
    | cons p own =>
      obtain ⟨b, rfl, -⟩ := ascii p (.head _)
      simp [Piece.join, Piece.ascii]
  · intro b hb
    obtain ⟨p, hp, hb⟩ := List.mem_flatMap.1 hb
    obtain ⟨b', rfl, word⟩ := ascii p hp
    rwa [List.mem_singleton.1 hb]

/-! ## The words of a source -/

/-- The identifier `t`. -/
def Lexeme.name (t : Text) : Lexeme := (.identifier, t)

/-- The mark `t`. -/
def Lexeme.mark (t : Text) : Lexeme := (.punctuation, t)

/-- The lexemes of a source other than white space. -/
def words (source : Text) : List Lexeme := (lexemes source).filter (·.1 ≠ .whitespace)

theorem lexemes_ascii {b : UInt8} (h : b < 0x80) (rest : Text) :
    lexemes (b :: rest) = Lexeme.push (Piece.ascii b) (lexemes rest) := by
  rw [lexemes, Piece.split_ascii h, Lexeme.ofPieces_cons, lexemes]

/-- A text of white space. -/
def IsBlankText (t : Text) : Prop := ∀ p ∈ Piece.split t, p.kind = .whitespace

instance (t : Text) : Decidable (IsBlankText t) :=
  inferInstanceAs (Decidable (∀ p ∈ Piece.split t, p.kind = .whitespace))

/-- A mark that stands for itself: an ASCII character that belongs to no run. -/
def IsMark : Text → Prop
  | [b] => b < 0x80 ∧ (Piece.ascii b).kind = .punctuation
  | _ => False

instance : (t : Text) → Decidable (IsMark t)
  | [_] => inferInstanceAs (Decidable (_ ∧ _))
  | [] | _ :: _ :: _ => inferInstanceAs (Decidable False)

theorem words_mark {m : Text} (h : IsMark m) (rest : Text) :
    words (m ++ rest) = .mark m :: words rest := by
  unfold IsMark at h
  split at h
  · rename_i b
    have apart : Lexeme.Apart (Piece.ascii b).kind (lexemes rest) := fun _ _ _ => by rw [h.2]; rfl
    rw [List.singleton_append, words, lexemes_ascii h.1, Lexeme.push_of_apart apart, h.2]
    rfl
  · exact h.elim

/-- The text does not go on with a word. -/
def EndsWord (rest : Text) : Prop := ∀ b ∈ rest.head?, isWordByte b = false

theorem endsWord_append {t : Text} (ht : t.head?.any (!isWordByte ·) = true) (rest : Text) :
    EndsWord (t ++ rest) := by
  obtain ⟨b, hb, ends⟩ := (Option.any_eq_true _ _).1 ht
  obtain ⟨t, rfl⟩ := List.head?_eq_some_iff.1 hb
  intro c hc
  rwa [Option.some.inj hc, Bool.not_eq_true'] at ends

theorem IsMark.endsWord {m : Text} (h : IsMark m) (rest : Text) : EndsWord (m ++ rest) := by
  unfold IsMark at h
  split at h
  · rename_i b
    intro c hc
    rw [← Option.some.inj hc]
    refine Bool.eq_false_iff.2 fun word => ?_
    rw [Piece.kind_ascii word] at h
    cases h.2
  · exact h.elim

theorem EndsWord.apart {rest : Text} (h : EndsWord rest) :
    Lexeme.Apart .identifier (lexemes rest) := by
  intro l hl same
  cases rest with
  | nil => cases hl
  | cons b rest =>
    rw [lexemes, Piece.split_cons, Lexeme.ofPieces_cons] at hl
    obtain ⟨text, others, eq⟩ := Lexeme.push_cons_head (Piece.next b rest).1
      (Lexeme.ofPieces (Piece.split (rest.drop (Piece.next b rest).2)))
    rw [eq] at hl
    obtain rfl := Option.some.inj hl
    have word := (Piece.next_of_identifier same.symm).2
    rw [h b rfl] at word
    cases word

theorem takeWhile_name {name : Text} (h : IsName name) {rest : Text} (hr : EndsWord rest) :
    (name ++ rest).takeWhile isWordByte = name := by
  rw [List.takeWhile_append_of_pos h.2]
  cases rest with
  | nil => exact List.append_nil name
  | cons b rest => rw [List.takeWhile_cons_of_neg (by rw [hr b rfl]; decide), List.append_nil]

/-- A name is told from what does not go on with it. -/
theorem IsName.append_inj {name name' rest rest' : Text} (h : IsName name) (h' : IsName name')
    (hr : EndsWord rest) (hr' : EndsWord rest') (same : name ++ rest = name' ++ rest') :
    name = name' ∧ rest = rest' := by
  have names : name = name' := by rw [← takeWhile_name h hr, same, takeWhile_name h' hr']
  subst names
  exact ⟨rfl, List.append_cancel_left same⟩

theorem lexemes_name {name : Text} (h : IsName name) {rest : Text} (hr : EndsWord rest) :
    lexemes (name ++ rest) = (.identifier, name) :: lexemes rest := by
  obtain ⟨some_byte, bytes⟩ := h
  have pieces : Piece.join (name.map Piece.ascii) = name := by
    simp [Piece.join, Piece.ascii, List.flatMap_map]
  have complete : ∀ p ∈ name.map Piece.ascii, p.Complete :=
    List.forall_mem_map.2 fun b hb => Piece.split_ascii (lt_of_isWordByte (bytes b hb))
  have kinds : ∀ p ∈ name.map Piece.ascii, p.kind = .identifier :=
    List.forall_mem_map.2 fun b hb => Piece.kind_ascii (bytes b hb)
  have run := Lexeme.ofPieces_run rfl (by simpa using some_byte) kinds hr.apart
  rwa [← lexemes, ← Piece.split_join complete, pieces] at run

theorem words_name {name : Text} (h : IsName name) {rest : Text} (hr : EndsWord rest) :
    words (name ++ rest) = .name name :: words rest := by
  rw [words, lexemes_name h hr]
  rfl

/-! ## Tokens -/

/-- A token without its place. -/
def Token.lexeme (t : Token) : Lexeme := (t.kind, t.text)

theorem place_lexemes (offset : Nat) (ls : List Lexeme) :
    (Lexeme.place offset ls).map Token.lexeme = ls := by
  induction ls generalizing offset with
  | nil => rfl
  | cons l ls ih => exact congrArg _ (ih _)

theorem significant_place (offset : Nat) (ls : List Lexeme) :
    (significant (Lexeme.place offset ls)).map Token.lexeme = ls.filter (·.1 ≠ .whitespace) := by
  conv_rhs => rw [← place_lexemes offset ls, List.filter_map]
  rfl

theorem significant_lexemes (source : Text) :
    (significant (tokenize source)).map Token.lexeme = words source :=
  significant_place 0 (lexemes source)

theorem significant_cons_blank {t : Token} (h : t.kind = .whitespace) (ts : List Token) :
    significant (t :: ts) = significant ts :=
  List.filter_cons_of_neg (by simpa using h)

theorem significant_push_blank {p : Piece} (hk : p.kind = .whitespace) (offset : Nat)
    (ls : List Lexeme) : significant (Lexeme.place offset (Lexeme.push p ls)) =
      significant (Lexeme.place (offset + p.bytes.length) ls) := by
  fun_cases Lexeme.push p ls with
  | case1 => exact significant_cons_blank hk _
  | case2 kind text rest joined =>
    simp only [Bool.and_eq_true, decide_eq_true_eq] at joined
    have blank : kind = .whitespace := joined.1.symm.trans hk
    rw [Lexeme.place, Lexeme.place, significant_cons_blank blank, significant_cons_blank blank,
      List.length_append, Nat.add_assoc]
  | case3 kind text rest apart => exact significant_cons_blank hk _

/-- White space in front of a text only moves its words further on. -/
theorem significant_blank {gap : Text} (h : IsBlankText gap) (offset : Nat) (rest : Text) :
    significant (Lexeme.place offset (lexemes (gap ++ rest))) =
      significant (Lexeme.place (offset + gap.length) (lexemes rest)) := by
  have complete : ∀ p ∈ Piece.split gap, p.Complete := fun p hp =>
    Piece.complete_of_mem hp (Piece.char_of_kind (by rw [h p hp]; decide))
  have pieces : Piece.split (gap ++ rest) = Piece.split gap ++ Piece.split rest := by
    rw [← Piece.split_join complete, Piece.bytes_split]
  have length : gap.length = (Piece.join (Piece.split gap)).length := by rw [Piece.bytes_split]
  unfold IsBlankText at h
  rw [lexemes, pieces, length]
  clear complete pieces length
  generalize Piece.split gap = ps at h
  induction ps generalizing offset with
  | nil => rfl
  | cons p ps ih =>
    obtain ⟨hp, hps⟩ := List.forall_mem_cons.1 h
    have joined : Piece.join (p :: ps) = p.bytes ++ Piece.join ps := rfl
    rw [List.cons_append, Lexeme.ofPieces_cons, significant_push_blank hp, ih _ hps, joined,
      List.length_append, Nat.add_assoc]

theorem words_blank {gap : Text} (h : IsBlankText gap) (rest : Text) :
    words (gap ++ rest) = words rest := by
  have moved := congrArg (List.map Token.lexeme) (significant_blank h 0 rest)
  rwa [significant_place, significant_place] at moved

/-- Identifiers are made of word characters. -/
def Lexical (tokens : List Token) : Prop :=
  ∀ t ∈ tokens, t.kind = .identifier → IsName t.text

theorem Lexical.tail {t : Token} {ts : List Token} (h : Lexical (t :: ts)) : Lexical ts :=
  fun x hx => h x (.tail _ hx)

theorem Lexical.left {ts us : List Token} (h : Lexical (ts ++ us)) : Lexical ts :=
  fun x hx => h x (List.mem_append_left _ hx)

theorem Lexical.right {ts us : List Token} (h : Lexical (ts ++ us)) : Lexical us :=
  fun x hx => h x (List.mem_append_right _ hx)

theorem tokenize_lexical (source : Text) : Lexical (significant (tokenize source)) := by
  intro t ht hk
  have known : t.lexeme ∈ words source :=
    significant_lexemes source ▸ List.mem_map_of_mem ht
  exact isName_of_mem (List.mem_of_mem_filter known) hk

theorem space_notMem {source : Text} {l : Lexeme} (h : l ∈ lexemes source)
    (hk : l.1 ≠ .whitespace) : 0x20 ∉ l.2 := by
  obtain ⟨own, -, text, made⟩ := Lexeme.made_of_mem h
  intro space
  rw [← text] at space
  obtain ⟨p, hp, space⟩ := List.mem_flatMap.1 space
  have ascii := Piece.eq_ascii_of_mem (made p hp).1 space (by decide)
  refine hk ((made p hp).2.symm.trans ?_)
  rw [ascii]
  decide

/-! ## Where tokens stand -/

theorem lexeme_mem_of_mem {source : Text} {t : Token} (h : t ∈ tokenize source) :
    t.lexeme ∈ lexemes source := by
  rw [← place_lexemes 0 (lexemes source)]
  exact List.mem_map_of_mem h

theorem text_ne_nil_of_mem {source : Text} {t : Token} (h : t ∈ tokenize source) : t.text ≠ [] :=
  ofPieces_text_ne_nil (split_bytes_ne_nil source) _ (lexeme_mem_of_mem h)

theorem place_of_mem {offset : Nat} {ls : List Lexeme} {t : Token}
    (h : t ∈ Lexeme.place offset ls) :
    ∃ before after, Lexeme.text ls = before ++ (t.text ++ after) ∧
      t.span = .ofOffsets (offset + before.length) (offset + before.length + t.text.length) := by
  induction ls generalizing offset with
  | nil => cases h
  | cons l ls ih =>
    obtain rfl | h := List.mem_cons.1 h
    · exact ⟨[], Lexeme.text ls, rfl, by simp⟩
    · obtain ⟨before, after, text, span⟩ := ih h
      refine ⟨l.2 ++ before, after, ?_, ?_⟩
      · rw [Lexeme.text, List.flatMap_cons, ← Lexeme.text, text, List.append_assoc]
      · rw [span, List.length_append]
        congr 1 <;> push_cast <;> omega

/-- A token stands where its text is in the source. -/
theorem tokenize_place {source : Text} {t : Token} (h : t ∈ tokenize source) :
    ∃ before after, source = before ++ (t.text ++ after) ∧
      t.span = .ofOffsets before.length (before.length + t.text.length) := by
  obtain ⟨before, after, text, span⟩ := place_of_mem h
  rw [Lexeme.text_ofPieces, Piece.bytes_split] at text
  exact ⟨before, after, text, by simpa using span⟩

theorem start_lt_stop_of_mem {source : Text} {t : Token} (h : t ∈ tokenize source) :
    t.span.start < t.span.stop := by
  obtain ⟨before, after, -, span⟩ := tokenize_place h
  have pos := List.length_pos_iff.2 (text_ne_nil_of_mem h)
  rw [span]
  simp only [Span.ofOffsets]
  omega

theorem place_apart (offset : Nat) {ls : List Lexeme} (h : ∀ l ∈ ls, l.2 ≠ []) :
    (Lexeme.place offset ls).Pairwise fun t t' => t.span.stop ≤ t'.span.start := by
  induction ls generalizing offset with
  | nil => exact .nil
  | cons l ls ih =>
    obtain ⟨-, others⟩ := List.forall_mem_cons.1 h
    refine List.pairwise_cons.2 ⟨fun t ht => ?_, ih _ others⟩
    have after := (place_increasing _ others).1 t ht
    simp only [Span.ofOffsets]
    omega

theorem tokenize_apart (source : Text) :
    (tokenize source).Pairwise fun t t' => t.span.stop ≤ t'.span.start :=
  place_apart 0 (ofPieces_text_ne_nil (split_bytes_ne_nil source))

/-- What tells the elements of a list apart tells their numbers. -/
theorem index_eq_of_nodup {α β : Type} {f : α → β} {as : List α} (h : (as.map f).Nodup) {i j : Nat}
    {a b : α} (ha : as[i]? = some a) (hb : as[j]? = some b) (same : f a = f b) : i = j := by
  have bound : i < (as.map f).length := by
    rw [List.length_map]
    exact (List.getElem?_eq_some_iff.1 ha).1
  refine (List.getElem?_inj bound h).1 ?_
  rw [List.getElem?_map, List.getElem?_map, ha, hb, Option.map_some, Option.map_some, same]

theorem significant_nodup (source : Text) :
    ((significant (tokenize source)).map Token.span).Nodup := by
  have increasing : (significant (tokenize source)).Pairwise
      fun t t' => t.span.start < t'.span.start :=
    (tokenize_increasing source).sublist List.filter_sublist
  exact List.pairwise_map.2
    (increasing.imp fun lt same => Int.ne_of_lt lt (congrArg Span.start same))

/-! ## Continuing a source differently -/

theorem lexemes_cut {source : Text} {ls ms : List Lexeme} (h : lexemes source = ls ++ ms)
    (ascii : ∀ l ∈ ls, l.1 = .punctuation → ∃ b ∈ l.2, b < 0x80) :
    ∃ front : Text, ∀ rest, (∀ l ∈ ls.getLast?, Lexeme.Apart l.1 (lexemes rest)) →
      lexemes (front ++ rest) = ls ++ lexemes rest := by
  obtain ⟨front, back, pieces, cut⟩ := Lexeme.ofPieces_cut h
  have alone : Lexeme.ofPieces front = ls := by
    simpa [Lexeme.ofPieces] using cut [] fun l _ _ hm => absurd hm (by simp [Lexeme.ofPieces])
  have complete : ∀ p ∈ front, p.Complete := by
    intro p hp
    have known : p ∈ Piece.split source := pieces ▸ List.mem_append_left _ hp
    by_cases hk : p.kind = .punctuation
    · have lexeme := Lexeme.mem_ofPieces hp (by rw [hk]; rfl)
      rw [alone] at lexeme
      obtain ⟨b, hb, low⟩ := ascii _ lexeme hk
      obtain rfl := Piece.eq_ascii_of_mem known hb low
      exact fun rest => Piece.split_ascii low rest
    · exact Piece.complete_of_mem known (Piece.char_of_kind hk)
  refine ⟨Piece.join front, fun rest apart => ?_⟩
  rw [lexemes, Piece.split_join complete]
  exact cut _ apart

theorem place_append (offset : Nat) (ls ms : List Lexeme) :
    Lexeme.place offset (ls ++ ms) =
      Lexeme.place offset ls ++ Lexeme.place (offset + (Lexeme.text ls).length) ms := by
  induction ls generalizing offset with
  | nil => rfl
  | cons l ls ih =>
    rw [List.cons_append, Lexeme.place, Lexeme.place, ih, List.cons_append]
    simp [Lexeme.text, Nat.add_assoc]

theorem place_eq_append {offset : Nat} {ls : List Lexeme} {ts us : List Token}
    (h : Lexeme.place offset ls = ts ++ us) :
    ls = ts.map Token.lexeme ++ us.map Token.lexeme ∧
      Lexeme.place offset (ts.map Token.lexeme) = ts := by
  have split : ls = ts.map Token.lexeme ++ us.map Token.lexeme := by
    rw [← List.map_append, ← h, place_lexemes]
  refine ⟨split, ?_⟩
  rw [split, place_append] at h
  refine (List.append_inj h ?_).1
  rw [← List.length_map Token.lexeme, place_lexemes, List.length_map]

theorem lexemes_space (rest : Text) :
    ∃ text others, lexemes (0x20 :: rest) = (.whitespace, text) :: others := by
  rw [lexemes_ascii (by decide)]
  exact Lexeme.push_cons_head (Piece.ascii 0x20) _

theorem words_space (rest : Text) : words (0x20 :: rest) = words rest :=
  @words_blank [0x20] (by decide) rest

/-- A significant token is met after the significant ones before it. -/
theorem significant_cut {tokens front back : List Token} {t : Token}
    (h : significant tokens = front ++ t :: back) :
    ∃ before after, tokens = before ++ [t] ++ after ∧ significant (before ++ [t]) = front ++ [t] ∧
      t.kind ≠ .whitespace := by
  obtain ⟨earlier, later, rfl, rfl, found⟩ := List.filter_eq_append_iff.1 h
  obtain ⟨blank, after, rfl, skipped, kind, -⟩ := List.filter_eq_cons_iff.1 found
  refine ⟨earlier ++ blank, after, by simp, ?_, of_decide_eq_true kind⟩
  have none : blank.filter (·.kind ≠ .whitespace) = [] := List.filter_eq_nil_iff.2 skipped
  simp only [significant, List.filter_append, none, List.append_nil]
  exact congrArg _ (List.filter_cons_of_pos kind)

/-- A source can be continued behind any of its tokens, and the tokens before stay where they
are. A byte that begins no character might begin one in front of another text, so each token
has to hold an ASCII byte. -/
theorem tokenize_cut {source : Text} {front back : List Token}
    (h : significant (tokenize source) = front ++ back)
    (ascii : ∀ t ∈ front, ∃ b ∈ t.text, b < 0x80) :
    ∃ text : Text, ∀ rest, ∃ others,
      significant (tokenize (text ++ 0x20 :: rest)) = front ++ others ∧
        others.map Token.lexeme = words rest := by
  obtain rfl | ⟨front, t, rfl⟩ := List.eq_nil_or_concat' front
  · refine ⟨[], fun rest => ⟨significant (tokenize (0x20 :: rest)), rfl, ?_⟩⟩
    rw [significant_lexemes, words_space]
  rw [List.append_assoc] at h
  obtain ⟨before, after, tokens, same, kind⟩ := significant_cut h
  obtain ⟨split, placed⟩ := place_eq_append tokens
  have readable : ∀ l ∈ (before ++ [t]).map Token.lexeme, l.1 = .punctuation →
      ∃ b ∈ l.2, b < 0x80 := by
    intro l hl mark
    obtain ⟨u, hu, rfl⟩ := List.mem_map.1 hl
    refine ascii u ?_
    rw [← same]
    exact List.mem_filter.2 ⟨hu, decide_eq_true fun blank => nomatch mark.symm.trans blank⟩
  obtain ⟨text, cut⟩ := lexemes_cut split readable
  refine ⟨text, fun rest => ⟨significant
    (Lexeme.place (0 + (Lexeme.text ((before ++ [t]).map Token.lexeme)).length)
      (lexemes (0x20 :: rest))), ?_, ?_⟩⟩
  · have apart : ∀ l ∈ ((before ++ [t]).map Token.lexeme).getLast?,
        Lexeme.Apart l.1 (lexemes (0x20 :: rest)) := by
      intro l hl m hm clash
      obtain ⟨blank, others, eq⟩ := lexemes_space rest
      rw [eq] at hm
      obtain rfl := Option.some.inj hm
      simp only [List.map_append, List.map_cons, List.map_nil, List.getLast?_concat] at hl
      obtain rfl := Option.some.inj hl
      exact absurd clash kind
    have all : tokenize (text ++ 0x20 :: rest) = Lexeme.place 0 (lexemes (text ++ 0x20 :: rest)) :=
      rfl
    rw [all, cut _ apart, place_append, placed, significant, List.filter_append, ← significant,
      ← significant, same]
  · rw [significant_place]
    exact words_space rest

end Polarity

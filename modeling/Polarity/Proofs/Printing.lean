import Polarity.Proofs.Layout

/-!
# Printing and reading

Classes are read again from the text they are printed as. Printed text falls into
the words one expects, whatever follows it, and tokens that read these words have a
derivation whose abstract syntax is the class, up to places.

* `ClassDecl.Printable`: names are identifiers, wildcards can be written, and the
  parameters of a class are different and not none;
* `words_class`, `words_printed`: the words of what is printed;
* `Spells`: tokens that read certain words are those of a phrase;
* `printable_of_parse`: what is read can be printed;
* `parse_printed`: what is printed is read.
-/

namespace Polarity

/-! ## What can be printed -/

/-- The wildcard can be written. -/
def Wildcard.Printable (w : Wildcard) : Prop := w = .bare ∨ w = .upper ∨ w = .lower

mutual

/-- All names are identifiers, and all wildcards can be written. -/
def TypeUse.Printable : TypeUse → Prop
  | .mk name args _ => IsName name ∧ TypeArg.Printable args

def TypeArg.Printable : List TypeArg → Prop
  | [] => True
  | (w, t) :: args => w.Printable ∧ t.Printable ∧ TypeArg.Printable args

end

structure Method.Printable (m : Method) : Prop where
  returns : m.returns.Printable
  name : IsName m.name
  params : ∀ t ∈ m.params, t.Printable

/-- The class can be printed. -/
structure ClassDecl.Printable (c : ClassDecl) : Prop where
  name : IsName c.name
  params : ∀ p ∈ c.params, IsName p
  generic : c.params ≠ []
  distinct : c.params.Nodup
  methods : ∀ m ∈ c.methods, m.Printable

instance (w : Wildcard) : Decidable w.Printable := inferInstanceAs (Decidable (_ ∨ _))

mutual

def TypeUse.decidePrintable : (t : TypeUse) → Decidable t.Printable
  | .mk name args _ =>
    have := TypeArg.decidePrintable args
    inferInstanceAs (Decidable (IsName name ∧ TypeArg.Printable args))

def TypeArg.decidePrintable : (args : List TypeArg) → Decidable (TypeArg.Printable args)
  | [] => .isTrue trivial
  | (w, t) :: args =>
    have := t.decidePrintable
    have := TypeArg.decidePrintable args
    inferInstanceAs (Decidable (w.Printable ∧ t.Printable ∧ TypeArg.Printable args))

end

instance : DecidablePred TypeUse.Printable := TypeUse.decidePrintable

instance (m : Method) : Decidable m.Printable :=
  decidable_of_iff (m.returns.Printable ∧ IsName m.name ∧ ∀ t ∈ m.params, t.Printable)
    ⟨fun ⟨returns, name, params⟩ => ⟨returns, name, params⟩, fun h => ⟨h.returns, h.name, h.params⟩⟩

instance (c : ClassDecl) : Decidable c.Printable :=
  decidable_of_iff (IsName c.name ∧ (∀ p ∈ c.params, IsName p) ∧ c.params ≠ [] ∧ c.params.Nodup ∧
      ∀ m ∈ c.methods, m.Printable)
    ⟨fun ⟨name, params, generic, distinct, methods⟩ => ⟨name, params, generic, distinct, methods⟩,
      fun h => ⟨h.name, h.params, h.generic, h.distinct, h.methods⟩⟩

/-! ## The words of a declaration -/

def Wildcard.lexemes : Wildcard → List Lexeme
  | .upper => [.mark "?", .name "extends"]
  | .lower => [.mark "?", .name "super"]
  | .bare | .sign _ => []

mutual

/-- The words of a type. -/
def TypeUse.lexemes : TypeUse → List Lexeme
  | .mk name args _ =>
    if args.isEmpty then [.name name]
    else .name name :: .mark "<" :: (TypeArg.lexemes args ++ [.mark ">"])

def TypeArg.lexemes : List TypeArg → List Lexeme
  | [] => []
  | [(w, t)] => w.lexemes ++ t.lexemes
  | (w, t) :: args => w.lexemes ++ (t.lexemes ++ .mark "," :: TypeArg.lexemes args)

end

def Method.lexemes (m : Method) : List Lexeme :=
  m.returns.lexemes ++ .name m.name :: .mark "(" ::
    (m.params.flatMap TypeUse.lexemes ++ [.mark ")", .mark ";"])

/-- Names with commas between them. -/
def nameLexemes : List Text → List Lexeme
  | [] => []
  | [p] => [.name p]
  | p :: q :: rest => .name p :: .mark "," :: nameLexemes (q :: rest)

def ClassDecl.lexemes (c : ClassDecl) : List Lexeme :=
  .name "class" :: .name c.name :: .mark "<" :: (nameLexemes c.params ++
    .mark ">" :: .mark "\x7b" :: (c.methods.flatMap Method.lexemes ++ [.mark "\x7d"]))

/-! ## The words of what is printed -/

theorem args_before_cons (mark : Wildcard → Text) (w : Wildcard) (t : TypeUse) (arg : TypeArg)
    (args : List TypeArg) (rest : Text) : TypeArg.before mark ((w, t) :: arg :: args) rest =
      mark w ++ t.before mark (", " ++ TypeArg.before mark (arg :: args) rest) := by
  rw [TypeArg.before]
  exact nofun

mutual

theorem before_append (mark : Wildcard → Text) : ∀ (t : TypeUse) (rest more : Text),
    t.before mark (rest ++ more) = t.before mark rest ++ more
  | .mk name args _, rest, more => by
    rw [TypeUse.before, TypeUse.before]
    split
    · rw [List.append_assoc]
    · rw [← List.append_assoc (Text.ofString ">"), args_before_append mark args]
      simp only [List.append_assoc]

theorem args_before_append (mark : Wildcard → Text) : ∀ (args : List TypeArg) (rest more : Text),
    TypeArg.before mark args (rest ++ more) = TypeArg.before mark args rest ++ more
  | [], rest, more => rfl
  | [(w, t)], rest, more => by
    rw [TypeArg.before, TypeArg.before, before_append mark t, List.append_assoc]
  | (w, t) :: arg :: args, rest, more => by
    rw [args_before_cons, args_before_cons, args_before_append mark (arg :: args),
      ← List.append_assoc (Text.ofString ", "), before_append mark t, List.append_assoc]

end

theorem words_wildcard (w : Wildcard) (rest : Text) :
    words (w.source ++ rest) = w.lexemes ++ words rest := by
  have bound {word : Text} (name : IsName word) :
      words ("?" ++ " " ++ word ++ " " ++ rest) = .mark "?" :: .name word :: words rest := by
    simp only [List.append_assoc]
    rw [words_mark (by decide), words_blank (by decide),
      words_name name (endsWord_append (by decide) _), words_blank (by decide)]
  have upper : Text.ofString "? extends " = "?" ++ " " ++ "extends" ++ " " := by decide
  have lower : Text.ofString "? super " = "?" ++ " " ++ "super" ++ " " := by decide
  cases w with
  | upper => rw [Wildcard.source, upper, bound (by decide)]; rfl
  | lower => rw [Wildcard.source, lower, bound (by decide)]; rfl
  | bare | sign => rfl

theorem words_comma (rest : Text) : words (", " ++ rest) = .mark "," :: words rest := by
  have split : Text.ofString ", " = "," ++ " " := by decide
  rw [split, List.append_assoc, words_mark (by decide), words_blank (by decide)]

theorem args_lexemes_cons (w : Wildcard) (t : TypeUse) (arg : TypeArg) (args : List TypeArg) :
    TypeArg.lexemes ((w, t) :: arg :: args) =
      w.lexemes ++ (t.lexemes ++ .mark "," :: TypeArg.lexemes (arg :: args)) := by
  rw [TypeArg.lexemes]
  exact nofun

-- A name is a word of its own only if what follows does not go on with it. Behind a type that is
-- a space or a mark, as the printer puts one there.
mutual

theorem words_before : ∀ {t : TypeUse} {rest : Text}, t.Printable → EndsWord rest →
    words (t.before Wildcard.source rest) = t.lexemes ++ words rest
  | .mk name args _, rest, h, ends => by
    rw [TypeUse.before, TypeUse.lexemes]
    split
    · exact words_name h.1 ends
    · rename_i applied
      have closes := IsMark.endsWord (m := ">") (by decide) rest
      rw [words_name h.1 (IsMark.endsWord (by decide) _), words_mark (by decide),
        words_args (by simpa using applied) h.2 closes, words_mark (by decide)]
      simp only [List.cons_append, List.append_assoc, List.nil_append]

theorem words_args : ∀ {args : List TypeArg} {rest : Text}, args ≠ [] → TypeArg.Printable args →
    EndsWord rest →
    words (TypeArg.before Wildcard.source args rest) = TypeArg.lexemes args ++ words rest
  | [], _, ne, _, _ => absurd rfl ne
  | [(w, t)], rest, _, h, ends => by
    rw [TypeArg.before, TypeArg.lexemes, words_wildcard, words_before h.2.1 ends, List.append_assoc]
  | (w, t) :: arg :: args, rest, _, h, ends => by
    rw [args_before_cons, args_lexemes_cons, words_wildcard,
      words_before h.2.1 (endsWord_append (by decide) _), words_comma,
      words_args (List.cons_ne_nil _ _) h.2.2 ends]
    simp only [List.append_assoc, List.cons_append]

end

theorem words_type {t : TypeUse} (h : t.Printable) {rest : Text} (ends : EndsWord rest) :
    words (t.source ++ rest) = t.lexemes ++ words rest := by
  rw [TypeUse.source, ← before_append, List.nil_append, words_before h ends]

theorem words_types {types : List TypeUse} (h : ∀ t ∈ types, t.Printable) {rest : Text}
    (ends : EndsWord rest) : words (Text.joined " " (types.map TypeUse.source) ++ rest) =
      types.flatMap TypeUse.lexemes ++ words rest := by
  induction types with
  | nil => rfl
  | cons t types ih =>
    obtain ⟨ht, htypes⟩ := List.forall_mem_cons.1 h
    cases types with
    | nil => simpa [Text.joined] using words_type ht ends
    | cons u types =>
      simp only [List.map_cons, Text.joined, List.append_assoc] at ih ⊢
      rw [words_type ht (endsWord_append (by decide) _), words_blank (by decide), ih htypes]
      simp only [List.flatMap_cons, List.append_assoc]

theorem words_names {names : List Text} (h : ∀ p ∈ names, IsName p) {rest : Text}
    (ends : EndsWord rest) : words (Text.joined ", " names ++ rest) =
      nameLexemes names ++ words rest := by
  induction names with
  | nil => rfl
  | cons p names ih =>
    obtain ⟨hp, hnames⟩ := List.forall_mem_cons.1 h
    cases names with
    | nil => exact words_name hp ends
    | cons q names =>
      simp only [Text.joined, List.append_assoc] at ih ⊢
      rw [words_name hp (endsWord_append (by decide) _), words_comma, ih hnames]
      rfl

theorem words_method {m : Method} (h : m.Printable) (rest : Text) :
    words (m.line ++ rest) = m.lexemes ++ words rest := by
  have ending : Text.ofString ");" = ")" ++ ";" := by decide
  simp only [Method.line, Method.source, Method.lexemes, ending, List.append_assoc,
    List.cons_append, List.nil_append]
  rw [words_blank (by decide), words_type h.returns (endsWord_append (by decide) _),
    words_blank (by decide), words_name h.name (IsMark.endsWord (by decide) _),
    words_mark (by decide), words_types h.params (IsMark.endsWord (by decide) _),
    words_mark (by decide), words_mark (by decide), words_blank (by decide)]

theorem words_methods {methods : List Method} (h : ∀ m ∈ methods, m.Printable) (rest : Text) :
    words (methods.flatMap Method.line ++ rest) = methods.flatMap Method.lexemes ++ words rest := by
  induction methods with
  | nil => rfl
  | cons m methods ih =>
    obtain ⟨hm, hmethods⟩ := List.forall_mem_cons.1 h
    rw [List.flatMap_cons, List.flatMap_cons, List.append_assoc, List.append_assoc,
      words_method hm, ih hmethods]

theorem words_class {c : ClassDecl} (h : c.Printable) (rest : Text) :
    words (c.source ++ rest) = c.lexemes ++ words rest := by
  have keyword : Text.ofString "class " = "class" ++ " " := by decide
  have opening : Text.ofString " \x7b\n" = " " ++ "\x7b" ++ "\n" := by decide
  simp only [ClassDecl.source, ClassDecl.signature, ClassDecl.lexemes, keyword, opening,
    List.append_assoc, List.cons_append, List.nil_append]
  rw [words_name (by decide) (endsWord_append (by decide) _), words_blank (by decide),
    words_name h.name (IsMark.endsWord (by decide) _), words_mark (by decide),
    words_names h.params (IsMark.endsWord (by decide) _), words_mark (by decide),
    words_blank (by decide), words_mark (by decide), words_blank (by decide),
    words_methods h.methods, words_mark (by decide)]

/-- The classes one after another, with the given white space after each. -/
def printed (items : List (ClassDecl × Text)) : Text := items.flatMap fun i => i.1.source ++ i.2

theorem words_printed {items : List (ClassDecl × Text)}
    (h : ∀ i ∈ items, i.1.Printable ∧ IsBlankText i.2) :
    words (printed items) = items.flatMap (·.1.lexemes) := by
  induction items with
  | nil => rfl
  | cons i items ih =>
    obtain ⟨⟨printable, blank⟩, others⟩ := List.forall_mem_cons.1 h
    rw [printed, List.flatMap_cons, List.flatMap_cons, List.append_assoc, words_class printable,
      words_blank blank, ← printed, ih others]

/-! ## The derivation of a declaration -/

/-- Tokens that read `ls` are the tokens of a phrase with the abstract syntax `b`. -/
def Spells {α β : Type} (yield : α → List Token) (ast : α → β) (ls : List Lexeme) (b : β) : Prop :=
  ∀ ts, ts.map Token.lexeme = ls → ∃ tree, yield tree = ts ∧ ast tree = b

section
variable {ts : List Token} {ls ms : List Lexeme} {w : Text}

theorem spell_name (h : ts.map Token.lexeme = .name w :: ls) :
    ∃ (n : Name) (rest : List Token), ts = n.token :: rest ∧ n.text = w ∧
      rest.map Token.lexeme = ls := by
  obtain ⟨t, rest, rfl, same, tail⟩ := List.map_eq_cons_iff.1 h
  exact ⟨⟨t, congrArg Prod.fst same⟩, rest, rfl, congrArg Prod.snd same, tail⟩

theorem spell_word {l : Lexeme} (h : ts.map Token.lexeme = l :: ls) :
    ∃ (x : Terminal l.2) (rest : List Token), ts = x.token :: rest ∧ rest.map Token.lexeme = ls := by
  obtain ⟨t, rest, rfl, same, tail⟩ := List.map_eq_cons_iff.1 h
  exact ⟨⟨t, congrArg Prod.snd same⟩, rest, rfl, tail⟩

theorem spell_sequence {α β γ : Type} {yield : α → List Token} {ast : α → β} {f : γ → List Lexeme}
    {g : γ → β} {cs : List γ} (h : ∀ c ∈ cs, Spells yield ast (f c) (g c)) :
    Spells (List.flatMap yield) (List.map ast) (cs.flatMap f) (cs.map g) := by
  induction cs with
  | nil =>
    intro ts none
    exact ⟨[], (List.map_eq_nil_iff.1 none).symm, rfl⟩
  | cons c cs ih =>
    obtain ⟨hc, hcs⟩ := List.forall_mem_cons.1 h
    intro ts spelt
    obtain ⟨us, vs, rfl, first, others⟩ := List.map_eq_append_iff.1 spelt
    obtain ⟨tree, rfl, same⟩ := hc us first
    obtain ⟨trees, rfl, sames⟩ := ih hcs vs others
    exact ⟨tree :: trees, rfl, by rw [List.map_cons, same, sames, List.map_cons]⟩

end

theorem spell_wildcard {w : Wildcard} {type : TypeUse} (hw : w.Printable)
    (h : Spells TypeTree.yield (·.ast.unplaced) type.lexemes type.unplaced) :
    Spells ArgTree.yield (fun a => (a.ast.1, a.ast.2.unplaced)) (w.lexemes ++ type.lexemes)
      (w, type.unplaced) := by
  intro ts spelt
  obtain rfl | rfl | rfl := hw
  · obtain ⟨tree, rfl, same⟩ := h ts spelt
    exact ⟨.bare tree, rfl, Prod.ext rfl same⟩
  · obtain ⟨mark, afterMark, rfl, more⟩ := spell_word spelt
    obtain ⟨bound, afterBound, rfl, inner⟩ := spell_word more
    obtain ⟨tree, rfl, same⟩ := h afterBound inner
    exact ⟨.marked mark (.upper bound) tree, rfl, Prod.ext rfl same⟩
  · obtain ⟨mark, afterMark, rfl, more⟩ := spell_word spelt
    obtain ⟨bound, afterBound, rfl, inner⟩ := spell_word more
    obtain ⟨tree, rfl, same⟩ := h afterBound inner
    exact ⟨.marked mark (.lower bound) tree, rfl, Prod.ext rfl same⟩

mutual

theorem spell_type : ∀ {t : TypeUse}, t.Printable →
    Spells TypeTree.yield (·.ast.unplaced) t.lexemes t.unplaced
  | .mk name args span, h, ts, spelt => by
    rw [TypeUse.lexemes] at spelt
    split at spelt
    · rename_i plain
      obtain rfl := List.isEmpty_iff.1 plain
      obtain ⟨n, rest, rfl, rfl, none⟩ := spell_name spelt
      obtain rfl := List.map_eq_nil_iff.1 none
      exact ⟨.plain n, rfl, rfl⟩
    · rename_i applied
      obtain ⟨n, afterName, rfl, rfl, more⟩ := spell_name spelt
      obtain ⟨opening, afterOpening, rfl, inner⟩ := spell_word more
      obtain ⟨us, vs, rfl, inside, closed⟩ := List.map_eq_append_iff.1 inner
      obtain ⟨tree, rfl, same⟩ := spell_args (by simpa using applied) h.2 us inside
      obtain ⟨closing, afterClosing, rfl, none⟩ := spell_word closed
      obtain rfl := List.map_eq_nil_iff.1 none
      refine ⟨.applied n opening tree closing, rfl, ?_⟩
      simp only [TypeTree.ast, TypeUse.unplaced_mk, same]

theorem spell_args : ∀ {args : List TypeArg}, args ≠ [] → TypeArg.Printable args →
    Spells ArgsTree.yield (fun tree => TypeArg.unplaced tree.ast) (TypeArg.lexemes args)
      (TypeArg.unplaced args)
  | [], ne, _, _, _ => absurd rfl ne
  | [(w, t)], _, h, ts, spelt => by
    obtain ⟨tree, rfl, same⟩ := spell_wildcard h.1 (spell_type h.2.1) ts spelt
    exact ⟨.last tree, rfl, congrArg (fun arg => [arg]) same⟩
  | (w, t) :: arg :: args, _, h, ts, spelt => by
    rw [args_lexemes_cons, ← List.append_assoc] at spelt
    obtain ⟨us, vs, rfl, first, more⟩ := List.map_eq_append_iff.1 spelt
    obtain ⟨tree, rfl, same⟩ := spell_wildcard h.1 (spell_type h.2.1) us first
    obtain ⟨comma, afterComma, rfl, others⟩ := spell_word more
    obtain ⟨trees, rfl, sames⟩ := spell_args (List.cons_ne_nil _ _) h.2.2 afterComma others
    exact ⟨.more tree comma trees, rfl, congrArg₂ List.cons same sames⟩

end

theorem spell_names : ∀ {names : List Text}, names ≠ [] →
    Spells ParamsTree.yield ParamsTree.names (nameLexemes names) names
  | [], ne, _, _ => absurd rfl ne
  | [p], _, ts, spelt => by
    obtain ⟨n, rest, rfl, rfl, none⟩ := spell_name spelt
    obtain rfl := List.map_eq_nil_iff.1 none
    exact ⟨.last n, rfl, rfl⟩
  | p :: q :: names, _, ts, spelt => by
    obtain ⟨n, afterName, rfl, rfl, more⟩ := spell_name spelt
    obtain ⟨comma, afterComma, rfl, others⟩ := spell_word more
    obtain ⟨tree, rfl, same⟩ := spell_names (List.cons_ne_nil q names) afterComma others
    exact ⟨.more n comma tree, rfl, congrArg _ same⟩

theorem spell_method {m : Method} (h : m.Printable) :
    Spells MethodTree.yield (·.ast.unplaced) m.lexemes m.unplaced := by
  intro ts spelt
  obtain ⟨us, vs, rfl, result, spelt₁⟩ := List.map_eq_append_iff.1 spelt
  obtain ⟨returns, rfl, sameResult⟩ := spell_type h.returns us result
  obtain ⟨name, afterName, rfl, sameName, spelt₂⟩ := spell_name spelt₁
  obtain ⟨opening, afterOpening, rfl, spelt₃⟩ := spell_word spelt₂
  obtain ⟨ps, ends, rfl, inner, spelt₄⟩ := List.map_eq_append_iff.1 spelt₃
  obtain ⟨params, rfl, sameParams⟩ :=
    spell_sequence (fun t ht => spell_type (h.params t ht)) ps inner
  obtain ⟨closing, afterClosing, rfl, spelt₅⟩ := spell_word spelt₄
  obtain ⟨ending, afterEnding, rfl, none⟩ := spell_word spelt₅
  obtain rfl := List.map_eq_nil_iff.1 none
  refine ⟨⟨returns, name, opening, params, closing, ending⟩, rfl, ?_⟩
  simp only [MethodTree.ast, Method.unplaced_eq, sameResult, sameName, List.map_map, ← sameParams,
    Function.comp_def]

theorem spell_class {c : ClassDecl} (h : c.Printable) :
    Spells ClassTree.yield (·.ast.unplaced) c.lexemes c.unplaced := by
  intro ts spelt
  obtain ⟨keyword, afterKeyword, rfl, spelt₁⟩ := spell_word spelt
  obtain ⟨name, afterName, rfl, sameName, spelt₂⟩ := spell_name spelt₁
  obtain ⟨opening, afterOpening, rfl, spelt₃⟩ := spell_word spelt₂
  obtain ⟨ps, afterParams, rfl, inner, spelt₄⟩ := List.map_eq_append_iff.1 spelt₃
  obtain ⟨params, rfl, sameParams⟩ := spell_names h.generic ps inner
  obtain ⟨closing, afterClosing, rfl, spelt₅⟩ := spell_word spelt₄
  obtain ⟨bodyOpening, body, rfl, spelt₆⟩ := spell_word spelt₅
  obtain ⟨ms, ends, rfl, inside, spelt₇⟩ := List.map_eq_append_iff.1 spelt₆
  obtain ⟨methods, rfl, sameMethods⟩ :=
    spell_sequence (fun m hm => spell_method (h.methods m hm)) ms inside
  obtain ⟨bodyClosing, rest, rfl, none⟩ := spell_word spelt₇
  obtain rfl := List.map_eq_nil_iff.1 none
  refine ⟨⟨keyword, name, opening, params, closing, bodyOpening, methods, bodyClosing⟩, rfl, ?_⟩
  simp only [ClassTree.ast, ClassDecl.unplaced_eq, sameName, sameParams, List.map_map,
    ← sameMethods, Function.comp_def]

/-! ## What is read can be printed -/

mutual

theorem TypeTree.printable : ∀ (t : TypeTree), Lexical t.yield → t.ast.Printable
  | .plain name, lexical => ⟨lexical _ (.head _) name.identifier, trivial⟩
  | .applied name _ args _, lexical =>
    ⟨lexical _ (.head _) name.identifier, args.printable lexical.tail.tail.left⟩

theorem ArgsTree.printable : ∀ (a : ArgsTree), Lexical a.yield → TypeArg.Printable a.ast
  | .last arg, lexical => ⟨(arg.printable lexical).1, (arg.printable lexical).2, trivial⟩
  | .more arg _ rest, lexical =>
    ⟨(arg.printable lexical.left).1, (arg.printable lexical.left).2,
      rest.printable lexical.right.tail⟩

theorem ArgTree.printable : ∀ (a : ArgTree), Lexical a.yield →
    a.ast.1.Printable ∧ a.ast.2.Printable
  | .bare type, lexical => ⟨.inl rfl, type.printable lexical⟩
  | .marked _ (.upper _) type, lexical => ⟨.inr (.inl rfl), type.printable lexical.tail.tail⟩
  | .marked _ (.lower _) type, lexical => ⟨.inr (.inr rfl), type.printable lexical.tail.tail⟩

end

theorem ParamsTree.printable (p : ParamsTree) (lexical : Lexical p.yield) :
    p.names ≠ [] ∧ ∀ n ∈ p.names, IsName n := by
  induction p with
  | last n =>
    refine ⟨List.cons_ne_nil _ _, List.forall_mem_cons.2 ⟨?_, List.forall_mem_nil _⟩⟩
    exact lexical _ (.head _) n.identifier
  | more n comma rest ih =>
    refine ⟨List.cons_ne_nil _ _, List.forall_mem_cons.2 ⟨?_, (ih lexical.tail.tail).2⟩⟩
    exact lexical _ (.head _) n.identifier

theorem Lexical.of_mem {α : Type} {yield : α → List Token} {as : List α} {a : α}
    (h : Lexical (as.flatMap yield)) (ha : a ∈ as) : Lexical (yield a) :=
  fun t ht => h t (List.mem_flatMap_of_mem ha ht)

theorem MethodTree.printable (m : MethodTree) (lexical : Lexical m.yield) : m.ast.Printable where
  returns := m.returns.printable lexical.left
  name := lexical.right _ (.head _) m.name.identifier
  params := List.forall_mem_map.2 fun t ht =>
    t.printable (Lexical.of_mem lexical.right.tail.tail.left ht)

theorem ClassTree.printable (c : ClassTree) (lexical : Lexical c.yield)
    (nodup : c.params.names.Nodup) : c.ast.Printable where
  name := lexical.tail _ (.head _) c.name.identifier
  params := (c.params.printable lexical.tail.tail.tail.left).2
  generic := (c.params.printable lexical.tail.tail.tail.left).1
  distinct := nodup
  methods := List.forall_mem_map.2 fun m hm =>
    m.printable (Lexical.of_mem lexical.tail.tail.tail.right.tail.tail.left hm)

theorem printable_of_parse {source : Text} {decls : List ClassDecl} (h : parse source = .ok decls) :
    ∀ c ∈ decls, c.Printable := by
  have lexical := tokenize_lexical source
  obtain ⟨program, yield, distinct, rfl⟩ := (reads_iff lexical).1 h
  rw [← yield] at lexical
  exact List.forall_mem_map.2 fun c hc => c.printable (Lexical.of_mem lexical hc) (distinct c hc)

/-! ## Places are not printed -/

mutual

theorem before_unplaced (mark : Wildcard → Text) : ∀ (t : TypeUse) (rest : Text),
    t.unplaced.before mark rest = t.before mark rest
  | .mk name args _, rest => by
    have empty : (TypeArg.unplaced args).isEmpty = args.isEmpty := by cases args <;> rfl
    rw [TypeUse.unplaced_mk, TypeUse.before, TypeUse.before, empty, args_before_unplaced mark args]

theorem args_before_unplaced (mark : Wildcard → Text) : ∀ (args : List TypeArg) (rest : Text),
    TypeArg.before mark (TypeArg.unplaced args) rest = TypeArg.before mark args rest
  | [], _ => rfl
  | [(w, t)], rest => by
    rw [TypeArg.unplaced_cons, TypeArg.unplaced_nil, TypeArg.before, TypeArg.before,
      before_unplaced mark t]
  | (w, t) :: arg :: args, rest => by
    rw [args_before_cons, ← args_before_unplaced mark (arg :: args), ← before_unplaced mark t]
    exact args_before_cons ..

end

theorem TypeUse.source_unplaced (t : TypeUse) : t.unplaced.source = t.source :=
  before_unplaced _ t []

theorem Method.line_unplaced (m : Method) : m.unplaced.line = m.line := by
  simp only [Method.line, Method.source, Method.unplaced_eq, TypeUse.source_unplaced, List.map_map,
    Function.comp_def]

theorem ClassDecl.source_unplaced (c : ClassDecl) : c.unplaced.source = c.source := by
  simp only [ClassDecl.source, ClassDecl.signature, ClassDecl.unplaced_eq, List.flatMap_map,
    Method.line_unplaced]

/-! ## Printing and reading -/

theorem parse_of_words {source : Text} {decls : List ClassDecl}
    (h : ∀ c ∈ decls, c.Printable) (spelt : words source = decls.flatMap ClassDecl.lexemes) :
    ∃ decls', parse source = .ok decls' ∧
      decls'.map ClassDecl.unplaced = decls.map ClassDecl.unplaced := by
  rw [← significant_lexemes] at spelt
  obtain ⟨program, yield, same⟩ := spell_sequence (fun c hc => spell_class (h c hc)) _ spelt
  -- The derivation has the parameters of the classes, so they are different there too.
  have distinct : ProgramTree.Distinct program := by
    intro tree ht
    have known : tree.ast.unplaced ∈ program.map (·.ast.unplaced) := List.mem_map_of_mem ht
    rw [same] at known
    obtain ⟨c, hc, eq⟩ := List.mem_map.1 known
    have params : c.params = tree.params.names := congrArg ClassDecl.params eq
    exact params ▸ (h c hc).distinct
  refine ⟨ProgramTree.ast program,
    (reads_iff (tokenize_lexical source)).2 ⟨program, yield, distinct, rfl⟩, ?_⟩
  rw [ProgramTree.ast, List.map_map]
  exact same

theorem source_of_unplaced {decls decls' : List ClassDecl}
    (h : decls'.map ClassDecl.unplaced = decls.map ClassDecl.unplaced) :
    decls'.map ClassDecl.source = decls.map ClassDecl.source := by
  have printed (cs : List ClassDecl) :
      cs.map ClassDecl.source = (cs.map ClassDecl.unplaced).map ClassDecl.source := by
    rw [List.map_map]
    exact List.map_congr_left fun c _ => c.source_unplaced.symm
  rw [printed decls', h, ← printed]

/-- **Printing and reading are inverse**, up to places: classes that can be printed are read
again from what is printed, whatever white space stands around them. What is read can be printed. -/
theorem parse_printed :
    (∀ (lead : Text) (items : List (ClassDecl × Text)), IsBlankText lead →
      (∀ i ∈ items, i.1.Printable ∧ IsBlankText i.2) →
      ∃ decls, parse (lead ++ printed items) = .ok decls ∧
        decls.map ClassDecl.unplaced = (items.map (·.1)).map ClassDecl.unplaced ∧
        decls.map ClassDecl.source = (items.map (·.1)).map ClassDecl.source) ∧
    ∀ (source : Text) (decls : List ClassDecl), parse source = .ok decls →
      ∀ c ∈ decls, c.Printable := by
  refine ⟨fun lead items blank h => ?_, fun source decls parsed => printable_of_parse parsed⟩
  have printable : ∀ c ∈ items.map (·.1), c.Printable :=
    List.forall_mem_map.2 fun i hi => (h i hi).1
  have spelt : words (lead ++ printed items) = (items.map (·.1)).flatMap ClassDecl.lexemes := by
    rw [words_blank blank, words_printed h, List.flatMap_map]
  obtain ⟨decls, parsed, same⟩ := parse_of_words printable spelt
  exact ⟨decls, parsed, same, source_of_unplaced same⟩

/-- A class whose names are words of the grammar. -/
def wordyClass : ClassDecl :=
  ⟨"class", ["extends", "super"],
    [⟨.mk "class" [(.upper, .mk "extends" [] .nowhere), (.bare, .mk "super" [] .nowhere)] .nowhere,
      "class", [.mk "super" [] .nowhere, .mk "extends" [] .nowhere], .nowhere⟩], .nowhere⟩

theorem wordyClass_printable : wordyClass.Printable where
  name := by decide
  params := by decide
  generic := by decide
  distinct := by decide
  methods := by
    refine List.forall_mem_singleton.2 ⟨?_, by decide, ?_⟩
    · exact ⟨by decide, .inr (.inl rfl), ⟨by decide, trivial⟩, .inl rfl, ⟨by decide, trivial⟩,
        trivial⟩
    · exact List.forall_mem_cons.2 ⟨⟨by decide, trivial⟩,
        List.forall_mem_singleton.2 ⟨by decide, trivial⟩⟩

theorem parse_printed_wordy : wordyClass.Printable ∧ ∃ decls,
    parse (" " ++ printed [(wordyClass, []), (wordyClass, "\n")]) = .ok decls ∧
      decls.map ClassDecl.unplaced = [wordyClass.unplaced, wordyClass.unplaced] := by
  refine ⟨wordyClass_printable, ?_⟩
  obtain ⟨decls, parsed, same, -⟩ := parse_printed.1 " " [(wordyClass, []), (wordyClass, "\n")]
    (by decide) (List.forall_mem_cons.2 ⟨⟨wordyClass_printable, by decide⟩,
      List.forall_mem_singleton.2 ⟨wordyClass_printable, by decide⟩⟩)
  exact ⟨decls, parsed, same⟩

end Polarity

import Polarity.Proofs.Lexemes

/-!
# The grammar

Derivations of the grammar over tokens, as trees: a tree holds the tokens it derives,
so it is the derivation of one sequence of tokens only. Words of the grammar are
recognized by their text, so `class`, `extends` and `super` may also be names.

    Program    := Class*
    Class      := "class" Identifier "<" ParamList ">" "{" Method* "}"
    ParamList  := Identifier ("," Identifier)*
    Method     := Type Identifier "(" Type* ")" ";"
    Type       := Identifier TypeArgs?
    TypeArgs   := "<" TypeArg ("," TypeArg)* ">"
    TypeArg    := "?" ("extends" | "super") Type | Type

* `TypeTree`, `MethodTree`, `ClassTree`, `ProgramTree`: derivations;
* `yield`: the tokens of a derivation; `ast`: its abstract syntax;
* `Unambiguous`: a phrase is found again in front of what follows it;
* `ProgramTree.unique`: no tokens have two derivations.
-/

namespace Polarity

/-! ## Derivations -/

/-- A token that reads `word`. -/
@[ext]
structure Terminal (word : Text) where
  token : Token
  reads : token.text = word

/-- A token that is an identifier. -/
@[ext]
structure Name where
  token : Token
  identifier : token.kind = .identifier

/-- The text of an identifier. -/
def Name.text (n : Name) : Text := n.token.text

/-- `Bound := "extends" | "super"`. -/
inductive BoundTree where
  | upper (word : Terminal "extends")
  | lower (word : Terminal "super")

mutual

/-- `Type := Identifier TypeArgs?`, where `TypeArgs := "<" TypeArg ("," TypeArg)* ">"`. -/
inductive TypeTree where
  | plain (name : Name)
  | applied (name : Name) (opening : Terminal "<") (args : ArgsTree) (closing : Terminal ">")

/-- `TypeArg ("," TypeArg)*`. -/
inductive ArgsTree where
  | last (arg : ArgTree)
  | more (arg : ArgTree) (comma : Terminal ",") (rest : ArgsTree)

/-- `TypeArg := "?" Bound Type | Type`. -/
inductive ArgTree where
  | bare (type : TypeTree)
  | marked (mark : Terminal "?") (bound : BoundTree) (type : TypeTree)

end

/-- `ParamList := Identifier ("," Identifier)*`. -/
inductive ParamsTree where
  | last (name : Name)
  | more (name : Name) (comma : Terminal ",") (rest : ParamsTree)

/-- `Method := Type Identifier "(" Type* ")" ";"`. -/
structure MethodTree where
  returns : TypeTree
  name : Name
  opening : Terminal "("
  params : List TypeTree
  closing : Terminal ")"
  ending : Terminal ";"

/-- `Class := "class" Identifier "<" ParamList ">" "{" Method* "}"`. -/
structure ClassTree where
  keyword : Terminal "class"
  name : Name
  opening : Terminal "<"
  params : ParamsTree
  closing : Terminal ">"
  bodyOpening : Terminal "\x7b"
  methods : List MethodTree
  bodyClosing : Terminal "\x7d"

/-- `Program := Class*`. -/
abbrev ProgramTree := List ClassTree

/-! ## The tokens of a derivation -/

def BoundTree.token : BoundTree → Token
  | .upper word => word.token
  | .lower word => word.token

mutual

/-- The tokens of a type, from left to right. -/
def TypeTree.yield : TypeTree → List Token
  | .plain name => [name.token]
  | .applied name opening args closing =>
    name.token :: opening.token :: (args.yield ++ [closing.token])

def ArgsTree.yield : ArgsTree → List Token
  | .last arg => arg.yield
  | .more arg comma rest => arg.yield ++ comma.token :: rest.yield

def ArgTree.yield : ArgTree → List Token
  | .bare type => type.yield
  | .marked mark bound type => mark.token :: bound.token :: type.yield

end

def ParamsTree.yield : ParamsTree → List Token
  | .last name => [name.token]
  | .more name comma rest => name.token :: comma.token :: rest.yield

def MethodTree.yield (m : MethodTree) : List Token :=
  m.returns.yield ++ m.name.token :: m.opening.token ::
    (m.params.flatMap TypeTree.yield ++ [m.closing.token, m.ending.token])

def ClassTree.yield (c : ClassTree) : List Token :=
  c.keyword.token :: c.name.token :: c.opening.token :: (c.params.yield ++
    c.closing.token :: c.bodyOpening.token ::
      (c.methods.flatMap MethodTree.yield ++ [c.bodyClosing.token]))

def ProgramTree.yield (p : ProgramTree) : List Token := p.flatMap ClassTree.yield

/-! ## Abstract syntax -/

def BoundTree.wildcard : BoundTree → Wildcard
  | .upper _ => .upper
  | .lower _ => .lower

mutual

/-- The type that is declared, from its name to its last token. -/
def TypeTree.ast : TypeTree → TypeUse
  | .plain name => .mk name.text [] name.token.span
  | .applied name _ args closing =>
    .mk name.text args.ast (name.token.span.between closing.token.span)

def ArgsTree.ast : ArgsTree → List TypeArg
  | .last arg => [arg.ast]
  | .more arg _ rest => arg.ast :: rest.ast

def ArgTree.ast : ArgTree → TypeArg
  | .bare type => (.bare, type.ast)
  | .marked _ bound type => (bound.wildcard, type.ast)

end

def ParamsTree.names : ParamsTree → List Text
  | .last name => [name.text]
  | .more name _ rest => name.text :: rest.names

def MethodTree.ast (m : MethodTree) : Method :=
  ⟨m.returns.ast, m.name.text, m.params.map TypeTree.ast,
    m.returns.ast.span.between m.ending.token.span⟩

def ClassTree.ast (c : ClassTree) : ClassDecl :=
  ⟨c.name.text, c.params.names, c.methods.map MethodTree.ast,
    c.keyword.token.span.between c.bodyClosing.token.span⟩

def ProgramTree.ast (p : ProgramTree) : List ClassDecl := p.map ClassTree.ast

/-- The parameters of each class have different names. -/
def ProgramTree.Distinct (p : ProgramTree) : Prop := ∀ c ∈ p, c.params.names.Nodup

/-! ## First tokens -/

/-- The first one of the tokens reads `word`. -/
def Starts (word : Text) (ts : List Token) : Prop := ∃ t rest, ts = t :: rest ∧ t.text = word

theorem starts_cons {w : Text} {t : Token} {ts : List Token} :
    Starts w (t :: ts) ↔ t.text = w := by
  constructor
  · rintro ⟨t', rest, eq, reads⟩
    obtain ⟨rfl, -⟩ := List.cons.inj eq
    exact reads
  · exact fun reads => ⟨t, ts, rfl, reads⟩

theorem Terminal.not_starts {w w' : Text} (x : Terminal w) (h : w ≠ w') (rest : List Token) :
    ¬ Starts w' (x.token :: rest) := by
  rw [starts_cons, x.reads]
  exact h

theorem Name.not_starts {n : Name} {rest : List Token} (lexical : Lexical (n.token :: rest))
    {w : Text} (h : ¬ IsName w) : ¬ Starts w (n.token :: rest) := by
  rw [starts_cons]
  exact fun reads => h (reads ▸ lexical _ (.head _) n.identifier)

theorem BoundTree.ext {b b' : BoundTree} (h : b.token = b'.token) : b = b' := by
  cases b with
  | upper w =>
    cases b' with
    | upper w' => exact congrArg _ (Terminal.ext h)
    | lower w' =>
      have same : w.token.text = w'.token.text := congrArg Token.text h
      rw [w.reads, w'.reads] at same
      exact absurd same (by decide)
  | lower w =>
    cases b' with
    | upper w' =>
      have same : w.token.text = w'.token.text := congrArg Token.text h
      rw [w.reads, w'.reads] at same
      exact absurd same (by decide)
    | lower w' => exact congrArg _ (Terminal.ext h)

/-- The name of a type. -/
def TypeTree.head : TypeTree → Name
  | .plain name | .applied name .. => name

/-- The tokens of a type after its name. -/
def TypeTree.tail : TypeTree → List Token
  | .plain _ => []
  | .applied _ opening args closing => opening.token :: (args.yield ++ [closing.token])

theorem TypeTree.yield_eq (t : TypeTree) : t.yield = t.head.token :: t.tail := by
  cases t <;> rfl

/-! ## Unambiguity -/

/-- A phrase is found again in front of what follows it, which must not begin with `<`: a type
name would go on with it. -/
def Unambiguous {α : Type} (yield : α → List Token) : Prop :=
  ∀ (a a' : α) {rest rest' : List Token}, yield a ++ rest = yield a' ++ rest' →
    Lexical (yield a ++ rest) → ¬ Starts "<" rest → ¬ Starts "<" rest' → a = a' ∧ rest = rest'

mutual

theorem TypeTree.unique : Unambiguous TypeTree.yield
  | .plain name, .plain name', _, _, h, _, _, _ => by
    obtain ⟨hn, hr⟩ := List.cons.inj h
    exact ⟨congrArg _ (Name.ext hn), hr⟩
  | .plain name, .applied _ opening' _ _, _, _, h, _, hr, _ =>
    absurd ⟨_, _, (List.cons.inj h).2, opening'.reads⟩ hr
  | .applied _ opening _ _, .plain _, _, _, h, _, _, hr' =>
    absurd ⟨_, _, (List.cons.inj h).2.symm, opening.reads⟩ hr'
  | .applied name opening args closing, .applied name' opening' args' closing', rest, rest', h,
      lexical, _, _ => by
    simp only [TypeTree.yield, List.cons_append, List.append_assoc, List.nil_append] at h lexical
    obtain ⟨hn, h⟩ := List.cons.inj h
    obtain ⟨ho, h⟩ := List.cons.inj h
    obtain ⟨ha, hr⟩ := args.unique args' closing closing' h lexical.tail.tail
    obtain ⟨hc, hr⟩ := List.cons.inj hr
    rw [Name.ext hn, Terminal.ext ho, ha, Terminal.ext hc]
    exact ⟨rfl, hr⟩

theorem ArgsTree.unique : ∀ (a a' : ArgsTree) (closing closing' : Terminal ">")
    {rest rest' : List Token},
    a.yield ++ closing.token :: rest = a'.yield ++ closing'.token :: rest' →
    Lexical (a.yield ++ closing.token :: rest) →
    a = a' ∧ closing.token :: rest = closing'.token :: rest'
  | .last arg, .last arg', closing, closing', _, _, h, lexical => by
    obtain ⟨ha, hr⟩ := arg.unique arg' h lexical (closing.not_starts (by decide) _)
      (closing'.not_starts (by decide) _)
    exact ⟨congrArg _ ha, hr⟩
  | .last arg, .more arg' comma' more', closing, closing', _, _, h, lexical => by
    simp only [ArgsTree.yield, List.append_assoc, List.cons_append] at h
    obtain ⟨-, hr⟩ := arg.unique arg' h lexical (closing.not_starts (by decide) _)
      (comma'.not_starts (by decide) _)
    exact absurd ⟨_, _, hr, comma'.reads⟩ (closing.not_starts (by decide) _)
  | .more arg comma more, .last arg', closing, closing', _, _, h, lexical => by
    simp only [ArgsTree.yield, List.append_assoc, List.cons_append] at h lexical
    obtain ⟨-, hr⟩ := arg.unique arg' h lexical (comma.not_starts (by decide) _)
      (closing'.not_starts (by decide) _)
    exact absurd ⟨_, _, hr, closing'.reads⟩ (comma.not_starts (by decide) _)
  | .more arg comma more, .more arg' comma' more', closing, closing', _, _, h, lexical => by
    simp only [ArgsTree.yield, List.append_assoc, List.cons_append] at h lexical
    obtain ⟨ha, h⟩ := arg.unique arg' h lexical (comma.not_starts (by decide) _)
      (comma'.not_starts (by decide) _)
    obtain ⟨hc, h⟩ := List.cons.inj h
    obtain ⟨hm, hr⟩ := more.unique more' closing closing' h lexical.right.tail
    rw [ha, Terminal.ext hc, hm]
    exact ⟨rfl, hr⟩

theorem ArgTree.unique : Unambiguous ArgTree.yield
  | .bare type, .bare type', _, _, h, lexical, hr, hr' => by
    obtain ⟨ht, hr⟩ := type.unique type' h lexical hr hr'
    exact ⟨congrArg _ ht, hr⟩
  | .bare type, .marked mark' _ _, _, _, h, lexical, _, _ => by
    simp only [ArgTree.yield, TypeTree.yield_eq, List.cons_append] at h lexical
    exact absurd ⟨_, _, h, mark'.reads⟩ (Name.not_starts lexical (by decide))
  | .marked mark _ _, .bare type', _, _, h, lexical, _, _ => by
    rw [h] at lexical
    simp only [ArgTree.yield, TypeTree.yield_eq, List.cons_append] at h lexical
    exact absurd ⟨_, _, h.symm, mark.reads⟩ (Name.not_starts lexical (by decide))
  | .marked mark bound type, .marked mark' bound' type', _, _, h, lexical, hr, hr' => by
    simp only [ArgTree.yield, List.cons_append] at h lexical
    obtain ⟨hm, h⟩ := List.cons.inj h
    obtain ⟨hb, h⟩ := List.cons.inj h
    obtain ⟨ht, hr⟩ := type.unique type' h lexical.tail.tail hr hr'
    rw [Terminal.ext hm, BoundTree.ext hb, ht]
    exact ⟨rfl, hr⟩

end

theorem ParamsTree.unique : ∀ (p p' : ParamsTree) (closing closing' : Terminal ">")
    {rest rest' : List Token},
    p.yield ++ closing.token :: rest = p'.yield ++ closing'.token :: rest' →
    p = p' ∧ closing.token :: rest = closing'.token :: rest'
  | .last name, .last name', _, _, _, _, h => by
    obtain ⟨hn, hr⟩ := List.cons.inj h
    exact ⟨congrArg _ (Name.ext hn), hr⟩
  | .last _, .more _ comma' _, closing, _, _, _, h =>
    absurd ⟨_, _, (List.cons.inj h).2, comma'.reads⟩ (closing.not_starts (by decide) _)
  | .more _ comma _, .last _, _, closing', _, _, h =>
    absurd ⟨_, _, (List.cons.inj h).2, closing'.reads⟩ (comma.not_starts (by decide) _)
  | .more name comma others, .more name' comma' others', closing, closing', _, _, h => by
    obtain ⟨hn, h⟩ := List.cons.inj h
    obtain ⟨hc, h⟩ := List.cons.inj h
    obtain ⟨hm, hr⟩ := others.unique others' closing closing' h
    rw [Name.ext hn, Terminal.ext hc, hm]
    exact ⟨rfl, hr⟩

section
variable {α : Type} {yield : α → List Token} {stop : Text}

/-- Each phrase begins with an identifier. -/
def Named (yield : α → List Token) : Prop :=
  ∀ a, ∃ (n : Name) (others : List Token), yield a = n.token :: others

theorem sequence_not_starts (named : Named yield) (closing : Terminal stop) {w : Text}
    (hw : ¬ IsName w) (ne : stop ≠ w) (as : List α) {rest : List Token}
    (lexical : Lexical (as.flatMap yield ++ closing.token :: rest)) :
    ¬ Starts w (as.flatMap yield ++ closing.token :: rest) := by
  cases as with
  | nil => exact closing.not_starts ne rest
  | cons a as =>
    obtain ⟨n, others, eq⟩ := named a
    simp only [List.flatMap_cons, eq, List.cons_append] at lexical ⊢
    exact Name.not_starts lexical hw

theorem sequence_unique (named : Named yield) (unambiguous : Unambiguous yield)
    (closing closing' : Terminal stop) (hs : ¬ IsName stop) (ne : stop ≠ "<") :
    ∀ (as as' : List α) {rest rest' : List Token},
    as.flatMap yield ++ closing.token :: rest = as'.flatMap yield ++ closing'.token :: rest' →
    Lexical (as.flatMap yield ++ closing.token :: rest) →
    as = as' ∧ closing.token :: rest = closing'.token :: rest'
  | [], [], _, _, h, _ => ⟨rfl, h⟩
  | [], a' :: as', _, _, h, lexical => by
    obtain ⟨n, others, eq⟩ := named a'
    rw [h, List.flatMap_cons, eq] at lexical
    rw [List.flatMap_cons, eq] at h
    exact absurd ⟨_, _, h.symm, closing.reads⟩ (Name.not_starts lexical hs)
  | a :: as, [], _, _, h, lexical => by
    obtain ⟨n, others, eq⟩ := named a
    rw [List.flatMap_cons, eq] at h lexical
    exact absurd ⟨_, _, h, closing'.reads⟩ (Name.not_starts lexical hs)
  | a :: as, a' :: as', rest, rest', h, lexical => by
    have lexical' : Lexical ((a' :: as').flatMap yield ++ closing'.token :: rest') := h ▸ lexical
    simp only [List.flatMap_cons, List.append_assoc] at h lexical lexical'
    obtain ⟨ha, h⟩ := unambiguous a a' h lexical
      (sequence_not_starts named closing (by decide) ne as lexical.right)
      (sequence_not_starts named closing' (by decide) ne as' lexical'.right)
    obtain ⟨has, hr⟩ :=
      sequence_unique named unambiguous closing closing' hs ne as as' h lexical.right
    rw [ha, has]
    exact ⟨rfl, hr⟩

end

theorem TypeTree.named : Named TypeTree.yield := fun t => ⟨t.head, t.tail, t.yield_eq⟩

theorem MethodTree.named : Named MethodTree.yield := fun m =>
  ⟨m.returns.head, _, by rw [MethodTree.yield, TypeTree.yield_eq, List.cons_append]⟩

theorem MethodTree.unique : Unambiguous MethodTree.yield := by
  intro m m' rest rest' h lexical _ _
  have lexical' := h ▸ lexical
  obtain ⟨returns, name, opening, params, closing, ending⟩ := m
  obtain ⟨returns', name', opening', params', closing', ending'⟩ := m'
  simp only [MethodTree.yield, List.append_assoc, List.cons_append, List.nil_append]
    at h lexical lexical'
  obtain ⟨ht, h⟩ := returns.unique returns' h lexical (Name.not_starts lexical.right (by decide))
    (Name.not_starts lexical'.right (by decide))
  obtain ⟨hn, h⟩ := List.cons.inj h
  obtain ⟨ho, h⟩ := List.cons.inj h
  obtain ⟨hp, h⟩ := sequence_unique TypeTree.named TypeTree.unique closing closing' (by decide)
    (by decide) params params' h lexical.right.tail.tail
  obtain ⟨hc, h⟩ := List.cons.inj h
  obtain ⟨he, hr⟩ := List.cons.inj h
  rw [ht, Name.ext hn, Terminal.ext ho, hp, Terminal.ext hc, Terminal.ext he]
  exact ⟨rfl, hr⟩

theorem ClassTree.unique (c c' : ClassTree) {rest rest' : List Token}
    (h : c.yield ++ rest = c'.yield ++ rest') (lexical : Lexical (c.yield ++ rest)) :
    c = c' ∧ rest = rest' := by
  obtain ⟨keyword, name, opening, params, closing, bodyOpening, methods, bodyClosing⟩ := c
  obtain ⟨keyword', name', opening', params', closing', bodyOpening', methods', bodyClosing'⟩ := c'
  simp only [ClassTree.yield, List.append_assoc, List.cons_append, List.nil_append] at h lexical
  obtain ⟨hk, h⟩ := List.cons.inj h
  obtain ⟨hn, h⟩ := List.cons.inj h
  obtain ⟨ho, h⟩ := List.cons.inj h
  obtain ⟨hp, h⟩ := params.unique params' closing closing' h
  obtain ⟨hc, h⟩ := List.cons.inj h
  obtain ⟨hb, h⟩ := List.cons.inj h
  obtain ⟨hm, h⟩ := sequence_unique MethodTree.named MethodTree.unique bodyClosing bodyClosing'
    (by decide) (by decide) methods methods' h lexical.tail.tail.tail.right.tail.tail
  obtain ⟨he, hr⟩ := List.cons.inj h
  rw [Terminal.ext hk, Name.ext hn, Terminal.ext ho, hp, Terminal.ext hc, Terminal.ext hb, hm, Terminal.ext he]
  exact ⟨rfl, hr⟩

theorem ProgramTree.unique : ∀ (p p' : ProgramTree), p.yield = p'.yield → Lexical p.yield → p = p'
  | [], [], _, _ => rfl
  | [], c' :: p', h, _ => absurd h (by simp [ProgramTree.yield, ClassTree.yield])
  | c :: p, [], h, _ => absurd h (by simp [ProgramTree.yield, ClassTree.yield])
  | c :: p, c' :: p', h, lexical => by
    obtain ⟨hc, h⟩ := c.unique c' h lexical
    rw [hc, ProgramTree.unique p p' h lexical.right]

end Polarity

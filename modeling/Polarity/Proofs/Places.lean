import Mathlib.Data.List.Nodup
import Polarity.ClassTable
import Polarity.Parser

/-!
# Where types stand

The types of a program begin at different places of the source, in the order in
which they are read. So a place tells which type is meant.

* `TypeUse.nodes`, `ClassTable.nodes`: all types, each before its arguments;
* `Reader.starts`: where the types that have been read so far begin, complete or not;
* `step_follows`: a token adds at most its own place to them;
* `tokenize_increasing`: tokens stand one after another;
* `Placed`: types begin further and further on, and the parameters of a class have
  different names;
* `placed_of_parse`: what is read from a source is placed.
-/

namespace Polarity

mutual

/-- A type and the types inside it, each before its arguments. -/
def TypeUse.nodes : TypeUse → List TypeUse
  | .mk name args span => .mk name args span :: TypeArg.nodes args

/-- The types inside type arguments. -/
def TypeArg.nodes : List TypeArg → List TypeUse
  | [] => []
  | (_, t) :: args => t.nodes ++ TypeArg.nodes args

end

/-- The types of a program, in source order, each before its arguments. -/
def ClassTable.nodes (classes : ClassTable) : List TypeUse :=
  classes.decls.flatMap fun c => c.types.flatMap TypeUse.nodes

/-- Types begin further and further on, and the parameters of a class have different
names. -/
structure Placed (classes : ClassTable) : Prop where
  increasing : (classes.nodes.map (·.span.start)).Pairwise (· < ·)
  distinct : ∀ c ∈ classes.decls, c.params.Nodup

theorem TypeArg.nodes_append (args args' : List TypeArg) :
    TypeArg.nodes (args ++ args') = TypeArg.nodes args ++ TypeArg.nodes args' := by
  induction args with
  | nil => rfl
  | cons arg args ih =>
    obtain ⟨w, t⟩ := arg
    rw [List.cons_append, TypeArg.nodes, TypeArg.nodes, ih, List.append_assoc]

/-! ## What has been read -/

/-- Where a type and the types inside it begin. -/
def TypeUse.starts (t : TypeUse) : List Int := t.nodes.map (·.span.start)

/-- Where some types and the types inside them begin. -/
def typeStarts (types : List TypeUse) : List Int := types.flatMap TypeUse.starts

@[simp] theorem typeStarts_nil : typeStarts [] = [] := rfl

@[simp] theorem typeStarts_cons (t : TypeUse) (ts : List TypeUse) :
    typeStarts (t :: ts) = t.starts ++ typeStarts ts := rfl

@[simp] theorem typeStarts_append (ts us : List TypeUse) :
    typeStarts (ts ++ us) = typeStarts ts ++ typeStarts us := List.flatMap_append

@[simp] theorem starts_mk (name : Text) (args : List TypeArg) (span : Span) :
    (TypeUse.mk name args span).starts =
      span.start :: (TypeArg.nodes args).map (·.span.start) := rfl

theorem nodes_starts (classes : ClassTable) :
    classes.nodes.map (·.span.start) = typeStarts (classes.decls.flatMap ClassDecl.types) := by
  simp only [ClassTable.nodes, typeStarts, List.map_flatMap, List.flatMap_assoc]
  rfl

/-- Where a type application that is still open and the arguments read so far begin. -/
def OpenType.starts (o : OpenType) : List Int :=
  o.span.start :: (TypeArg.nodes o.args).map (·.span.start)

/-- Where the open type applications begin, the outermost first. -/
def openStarts : List OpenType → List Int
  | [] => []
  | o :: outer => openStarts outer ++ o.starts

/-- Where the types in the methods read so far begin. -/
def OpenClass.starts (cls : OpenClass) : List Int :=
  typeStarts (cls.methods.flatMap Method.types)

/-- Where the complete types of the method at hand begin. -/
def TypeRole.starts : TypeRole → List Int
  | .result => []
  | .param returns _ params => typeStarts (returns :: params)

/-- Where the types of the class at hand begin. -/
def Stage.starts : Stage → List Int
  | .between | .className .. | .paramsOpen .. | .paramName .. | .paramNext .. | .bodyOpen .. => []
  | .member cls => cls.starts
  | .argument cls role opened stack | .bound cls role opened stack
  | .bounded cls role opened stack | .argumentNext cls role opened stack =>
    cls.starts ++ role.starts ++ openStarts (opened :: stack)
  | .typeName cls role stack _ span =>
    cls.starts ++ role.starts ++ openStarts stack ++ [span.start]
  | .methodName cls returns | .methodOpen cls returns _ =>
    cls.starts ++ returns.starts
  | .methodParam cls returns _ params | .methodEnd cls returns _ params =>
    cls.starts ++ typeStarts (returns :: params)

/-- The parameters of the class at hand, as far as they have been read. -/
def Stage.params : Stage → List Text
  | .between | .className .. | .paramsOpen .. => []
  | .paramName _ _ params | .paramNext _ _ params | .bodyOpen _ _ params => params
  | .member cls | .argument cls .. | .bound cls .. | .bounded cls .. | .argumentNext cls ..
  | .typeName cls .. | .methodName cls .. | .methodOpen cls .. | .methodParam cls ..
  | .methodEnd cls .. => cls.params

/-- Where the types that have been read so far begin. -/
def Reader.starts (r : Reader) : List Int :=
  typeStarts (r.classes.flatMap ClassDecl.types) ++ r.stage.starts

/-- The parameters of every class that has been read so far have different names. -/
def Reader.Distinct (r : Reader) : Prop :=
  (∀ c ∈ r.classes, c.params.Nodup) ∧ r.stage.params.Nodup

theorem afterType_starts (cls : OpenClass) (role : TypeRole) (stack : List OpenType)
    (type : TypeUse) : (Stage.afterType cls role stack type).starts =
      cls.starts ++ role.starts ++ openStarts stack ++ type.starts := by
  cases stack with
  | nil =>
    cases role with
    | result => simp [Stage.afterType, Stage.starts, TypeRole.starts, openStarts]
    | param returns name params =>
      simp [Stage.afterType, Stage.starts, TypeRole.starts, openStarts]
  | cons opened stack =>
    simp [Stage.afterType, Stage.starts, openStarts, OpenType.starts, TypeArg.nodes_append,
      TypeArg.nodes, TypeUse.starts]

theorem afterType_params (cls : OpenClass) (role : TypeRole) (stack : List OpenType)
    (type : TypeUse) : (Stage.afterType cls role stack type).params = cls.params := by
  cases stack with
  | nil => cases role <;> rfl
  | cons opened stack => rfl

/-! ## One token -/

/-- What reading the token `t` may add: its own place, if a type begins there. -/
def Follows (r : Reader) (t : Token) (r' : Reader) : Prop :=
  (r'.starts = r.starts ∨ r'.starts = r.starts ++ [t.span.start]) ∧ (r.Distinct → r'.Distinct)

theorem word_eq_ok {r r' : Reader} {t : Token} {word : Text} {stage : Stage}
    (h : r.word t word stage = .ok r') : r' = { r with stage } := by
  unfold Reader.word at h
  split at h
  · cases h
    rfl
  · cases h

theorem identifier_eq_ok {r r' : Reader} {t : Token} {stage : Stage}
    (h : r.identifier t stage = .ok r') : t.kind = .identifier ∧ r' = { r with stage } := by
  unfold Reader.identifier at h
  split at h
  · rename_i kind
    cases h
    exact ⟨kind, rfl⟩
  · cases h

theorem Follows.keep {r : Reader} {t : Token} {stage : Stage} (hs : stage.starts = r.stage.starts)
    (hp : r.stage.params.Nodup → stage.params.Nodup) : Follows r t { r with stage } := by
  refine ⟨.inl ?_, fun h => ⟨h.1, hp h.2⟩⟩
  simp only [Reader.starts, hs]

theorem Follows.add {r : Reader} {t : Token} {stage : Stage}
    (hs : stage.starts = r.stage.starts ++ [t.span.start])
    (hp : r.stage.params.Nodup → stage.params.Nodup) : Follows r t { r with stage } := by
  refine ⟨.inr ?_, fun h => ⟨h.1, hp h.2⟩⟩
  simp only [Reader.starts, hs, List.append_assoc]

theorem take_follows {r r' : Reader} {t : Token} (h : r.take t = .ok r') : Follows r t r' := by
  obtain ⟨classes, stage⟩ := r
  cases stage with
  | between =>
    obtain rfl := word_eq_ok h
    exact .keep rfl id
  | className start =>
    obtain ⟨-, rfl⟩ := identifier_eq_ok h
    exact .keep rfl id
  | paramsOpen start name =>
    obtain rfl := word_eq_ok h
    exact .keep rfl id
  | paramName start name params =>
    simp only [Reader.take] at h
    split at h
    · cases h
    · rename_i new
      obtain ⟨kind, rfl⟩ := identifier_eq_ok h
      have absent : t.text ∉ params := fun known => new ⟨kind, known⟩
      refine .keep rfl fun nodup => ?_
      refine List.nodup_append.2 ⟨nodup, List.nodup_singleton _, fun a ha b hb eq => ?_⟩
      obtain rfl := List.mem_singleton.1 hb
      exact absent (eq ▸ ha)
  | paramNext start name params =>
    simp only [Reader.take] at h
    split at h
    · cases h
      exact .keep rfl id
    · obtain rfl := word_eq_ok h
      exact .keep rfl id
  | bodyOpen start name params =>
    obtain rfl := word_eq_ok h
    exact .keep rfl id
  | member cls =>
    simp only [Reader.take] at h
    split at h
    · cases h
      refine ⟨.inl ?_, fun distinct => ⟨?_, List.nodup_nil⟩⟩
      · simp [Reader.starts, Stage.starts, OpenClass.starts, ClassDecl.types]
      · intro c hc
        obtain hc | hc := List.mem_append.1 hc
        · exact distinct.1 c hc
        · obtain rfl := List.mem_singleton.1 hc
          exact distinct.2
    · obtain ⟨-, rfl⟩ := identifier_eq_ok h
      exact .add (by simp [Stage.starts, TypeRole.starts, openStarts]) id
  | argument cls role opened stack =>
    simp only [Reader.take] at h
    split at h
    · cases h
      exact .keep rfl id
    · obtain ⟨-, rfl⟩ := identifier_eq_ok h
      exact .add rfl id
  | bound cls role opened stack =>
    simp only [Reader.take] at h
    split at h
    · cases h
      exact .keep rfl id
    · obtain rfl := word_eq_ok h
      exact .keep rfl id
  | bounded cls role opened stack =>
    obtain ⟨-, rfl⟩ := identifier_eq_ok h
    exact .add rfl id
  | typeName cls role stack name span =>
    obtain rfl := word_eq_ok h
    exact .keep (by simp [Stage.starts, openStarts, OpenType.starts, TypeArg.nodes]) id
  | argumentNext cls role opened stack =>
    simp only [Reader.take] at h
    split at h
    · cases h
      exact .keep rfl id
    · obtain rfl := word_eq_ok h
      refine .keep ?_ ?_
      · rw [afterType_starts]
        simp [Stage.starts, openStarts, OpenType.starts, Span.between]
      · rw [afterType_params]
        exact id
  | methodName cls returns =>
    obtain ⟨-, rfl⟩ := identifier_eq_ok h
    exact .keep rfl id
  | methodOpen cls returns name =>
    obtain rfl := word_eq_ok h
    exact .keep (by simp [Stage.starts]) id
  | methodParam cls returns name params =>
    simp only [Reader.take] at h
    split at h
    · cases h
      exact .keep rfl id
    · obtain ⟨-, rfl⟩ := identifier_eq_ok h
      exact .add (by simp [Stage.starts, TypeRole.starts, openStarts]) id
  | methodEnd cls returns name params =>
    obtain rfl := word_eq_ok h
    refine .keep ?_ id
    simp [Stage.starts, OpenClass.starts, Method.types]

/-- A type name that turns out to be a complete type is read as one. -/
theorem settled_starts (stage : Stage) : stage.settled.starts = stage.starts := by
  cases stage with
  | typeName cls role stack name span =>
    rw [Stage.settled, afterType_starts]
    rfl
  | _ => rfl

theorem settled_params (stage : Stage) : stage.settled.params = stage.params := by
  cases stage with
  | typeName cls role stack name span => exact afterType_params ..
  | _ => rfl

theorem step_follows {r r' : Reader} {t : Token} (h : r.step t = .ok r') : Follows r t r' := by
  unfold Reader.step at h
  split at h
  · split at h
    · exact take_follows h
    · obtain ⟨added, distinct⟩ := take_follows h
      simp only [Reader.starts, settled_starts, Reader.Distinct, settled_params] at added distinct
      exact ⟨added, distinct⟩
  · exact take_follows h

/-! ## All tokens -/

/-- Complete declarations hold types at the places of some of the tokens, in order. -/
theorem run_follows {span : Span} {r : Reader} {tokens : List Token}
    (h : (Reading.run span r tokens).diagnostic = none) :
    (typeStarts ((Reading.run span r tokens).classes.flatMap ClassDecl.types)).Sublist
      (r.starts ++ tokens.map (·.span.start)) ∧
    (r.Distinct → ∀ c ∈ (Reading.run span r tokens).classes, c.params.Nodup) := by
  induction tokens generalizing r with
  | nil =>
    obtain ⟨classes, stage⟩ := r
    cases stage with
    | between => exact ⟨by simp [Reading.run, Reader.finish, Reader.starts], fun distinct => distinct.1⟩
    | _ => cases h
  | cons t rest ih =>
    simp only [Reading.run] at h ⊢
    cases step : r.step t with
    | error d =>
      rw [step] at h
      cases h
    | ok r' =>
      rw [step] at h
      obtain ⟨sub, nodup⟩ := ih h
      obtain ⟨added, distinct⟩ := step_follows step
      refine ⟨sub.trans ?_, fun hr => nodup (distinct hr)⟩
      obtain same | more := added
      · rw [same, List.map_cons]
        exact List.Sublist.append_left (List.sublist_cons_self _ _) _
      · rw [more, List.append_assoc]
        exact List.Sublist.refl _

/-! ## Tokens -/

theorem next_bytes_ne_nil (b : UInt8) (rest : Text) : (Piece.next b rest).1.bytes ≠ [] := by
  unfold Piece.next
  split <;> exact List.cons_ne_nil _ _

theorem split_bytes_ne_nil (t : Text) : ∀ p ∈ Piece.split t, p.bytes ≠ [] := by
  have all (skipped : Nat) : ∀ p ∈ Piece.splitAfter skipped t, p.bytes ≠ [] := by
    induction t generalizing skipped with
    | nil => simp [Piece.splitAfter]
    | cons b rest ih =>
      cases skipped with
      | zero =>
        intro p hp
        obtain rfl | hp := List.mem_cons.1 hp
        · exact next_bytes_ne_nil b rest
        · exact ih _ p hp
      | succ skipped => exact ih skipped
  exact all 0

theorem push_text_ne_nil {p : Piece} (hp : p.bytes ≠ []) {lexemes : List Lexeme}
    (h : ∀ l ∈ lexemes, l.2 ≠ []) : ∀ l ∈ Lexeme.push p lexemes, l.2 ≠ [] := by
  fun_cases Lexeme.push p lexemes with
  | case1 => simpa using hp
  | case2 kind text rest joined =>
    intro l hl
    obtain rfl | hl := List.mem_cons.1 hl
    · exact List.append_ne_nil_of_left_ne_nil hp _
    · exact h l (.tail _ hl)
  | case3 kind text rest apart =>
    intro l hl
    obtain rfl | hl := List.mem_cons.1 hl
    · exact hp
    · exact h l hl

theorem ofPieces_text_ne_nil {pieces : List Piece} (h : ∀ p ∈ pieces, p.bytes ≠ []) :
    ∀ l ∈ Lexeme.ofPieces pieces, l.2 ≠ [] := by
  induction pieces with
  | nil => simp [Lexeme.ofPieces]
  | cons p rest ih =>
    exact push_text_ne_nil (h p (.head _)) (ih fun q hq => h q (.tail _ hq))

/-- Lexemes that are not empty are placed one after another. -/
theorem place_increasing (offset : Nat) {lexemes : List Lexeme} (h : ∀ l ∈ lexemes, l.2 ≠ []) :
    (∀ t ∈ Lexeme.place offset lexemes, (offset : Int) < t.span.start) ∧
    (Lexeme.place offset lexemes).Pairwise fun t t' => t.span.start < t'.span.start := by
  induction lexemes generalizing offset with
  | nil => exact ⟨by simp [Lexeme.place], .nil⟩
  | cons l rest ih =>
    obtain ⟨kind, text⟩ := l
    have pos : 0 < text.length := List.length_pos_iff.2 (h _ (.head _))
    obtain ⟨after, increasing⟩ := ih (offset + text.length) fun l hl => h l (.tail _ hl)
    simp only [Lexeme.place]
    refine ⟨fun t ht => ?_, List.pairwise_cons.2 ⟨fun t ht => ?_, increasing⟩⟩
    · obtain rfl | ht := List.mem_cons.1 ht
      · simp only [Span.ofOffsets]
        omega
      · have := after t ht
        omega
    · have := after t ht
      simp only [Span.ofOffsets]
      omega

theorem tokenize_increasing (source : Text) :
    (tokenize source).Pairwise fun t t' => t.span.start < t'.span.start :=
  (place_increasing 0 (ofPieces_text_ne_nil (split_bytes_ne_nil source))).2

/-! ## Sources -/

theorem placed_of_parse {source : Text} {decls : List ClassDecl} (h : parse source = .ok decls) :
    Placed ⟨decls⟩ := by
  have ok : (readSource source).diagnostic = none ∧ (readSource source).classes = decls := by
    unfold parse Reading.result at h
    split at h
    · rename_i none
      cases h
      exact ⟨none, rfl⟩
    · cases h
  obtain ⟨none, rfl⟩ := ok
  obtain ⟨sub, nodup⟩ := run_follows none
  refine ⟨?_, nodup ⟨by simp [Reader.start], List.nodup_nil⟩⟩
  have increasing : ((significant (tokenize source)).map (·.span.start)).Pairwise (· < ·) :=
    List.pairwise_map.2 ((tokenize_increasing source).sublist List.filter_sublist)
  rw [nodes_starts]
  exact increasing.sublist sub

end Polarity

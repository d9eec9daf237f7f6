import Polarity.Proofs.Derivations

/-!
# Completing a program

Whatever has been read, something can follow that makes a program of it.

* `Stage.closing`: one way to complete a program from a stage on;
* `Completes`: tokens that read certain words complete what has been read;
* `completes`: so do the tokens of `Stage.closing`;
* `words_spaced`: words with a space after each are read from their text.
-/

namespace Polarity

/-- A name that no parameter has. -/
def freshName (params : List Text) : Text := List.replicate (params.flatten.length + 1) 0x78

theorem freshName_notMem (params : List Text) : freshName params ∉ params := by
  intro known
  have short := (List.sublist_flatten_of_mem known).length_le
  rw [freshName, List.length_replicate] at short
  omega

theorem isName_freshName (params : List Text) : IsName (freshName params) := by
  refine ⟨by simp [freshName], fun b hb => ?_⟩
  obtain rfl := List.eq_of_mem_replicate hb
  decide

/-- One way to go on after a complete type, outside all type applications. -/
def TypeRole.closing : TypeRole → List Lexeme
  | .result => [.name "x", .mark "(", .mark ")", .mark ";", .mark "\x7d"]
  | .param .. => [.mark ")", .mark ";", .mark "\x7d"]

/-- One way to go on after a complete type. -/
def typeClosing (role : TypeRole) : List OpenType → List Lexeme
  | [] => role.closing
  | _ :: stack => .mark ">" :: typeClosing role stack

/-- One way to complete the program. -/
def Stage.closing : Stage → List Lexeme
  | .between => []
  | .className _ =>
    [.name "x", .mark "<", .name (freshName []), .mark ">", .mark "\x7b", .mark "\x7d"]
  | .paramsOpen .. => [.mark "<", .name (freshName []), .mark ">", .mark "\x7b", .mark "\x7d"]
  | .paramName _ _ params => [.name (freshName params), .mark ">", .mark "\x7b", .mark "\x7d"]
  | .paramNext .. => [.mark ">", .mark "\x7b", .mark "\x7d"]
  | .bodyOpen .. => [.mark "\x7b", .mark "\x7d"]
  | .member _ => [.mark "\x7d"]
  | .argument _ role _ stack | .bounded _ role _ stack =>
    .name "x" :: .mark ">" :: typeClosing role stack
  | .bound _ role _ stack => .name "extends" :: .name "x" :: .mark ">" :: typeClosing role stack
  | .typeName _ role stack _ _ => typeClosing role stack
  | .argumentNext _ role _ stack => .mark ">" :: typeClosing role stack
  | .methodName .. => TypeRole.result.closing
  | .methodOpen .. => [.mark "(", .mark ")", .mark ";", .mark "\x7d"]
  | .methodParam .. => [.mark ")", .mark ";", .mark "\x7d"]
  | .methodEnd .. => [.mark ";", .mark "\x7d"]

/-- Tokens that read `ls` complete what has been read. -/
def Completes (r : Reader) (ls : List Lexeme) : Prop :=
  ∀ span ts, ts.map Token.lexeme = ls → ∃ decls, Reads span r ts decls

section
variable {cs : List ClassDecl} {cls : OpenClass} {role : TypeRole} {stack : List OpenType}
  {r : Reader} {l : Lexeme} {ls : List Lexeme} {w : Text}

theorem Completes.cons (h : ∀ t : Token, t.lexeme = l → ∃ r', r.step t = .ok r' ∧ Completes r' ls) :
    Completes r (l :: ls) := by
  intro span ts reads
  obtain ⟨t, rest, rfl, same, reads⟩ := List.map_eq_cons_iff.1 reads
  obtain ⟨r', step, next⟩ := h t same
  obtain ⟨decls, rest⟩ := next span rest reads
  exact ⟨decls, reads_cons.2 ⟨r', step, rest⟩⟩

theorem Completes.word {stage : Token → Stage}
    (hs : ∀ t, t.text = w → r.step t = r.word t w (stage t))
    (h : ∀ t, Completes { r with stage := stage t } ls) : Completes r (.mark w :: ls) := by
  refine .cons fun t same => ⟨_, ?_, h t⟩
  have reads : t.text = w := congrArg Prod.snd same
  rw [hs t reads, Reader.word, if_pos reads]

theorem Completes.name {stage : Token → Stage}
    (hs : ∀ t, t.text = w → r.step t = r.identifier t (stage t))
    (h : ∀ t, Completes { r with stage := stage t } ls) : Completes r (.name w :: ls) := by
  refine .cons fun t same => ⟨_, ?_, h t⟩
  have kind : t.kind = .identifier := congrArg Prod.fst same
  rw [hs t (congrArg Prod.snd same), Reader.identifier, if_pos kind]

theorem completes_member : Completes ⟨cs, .member cls⟩ [.mark "\x7d"] := by
  refine .cons fun t same => ⟨_, if_pos (congrArg Prod.snd same), fun span ts none => ?_⟩
  obtain rfl := List.map_eq_nil_iff.1 none
  exact ⟨_, reads_nil.2 ⟨rfl, rfl⟩⟩

theorem completes_methodEnd {returns : TypeUse} {name : Text} {params : List TypeUse} :
    Completes ⟨cs, .methodEnd cls returns name params⟩ [.mark ";", .mark "\x7d"] :=
  .word (fun _ _ => rfl) fun _ => completes_member

theorem completes_methodParam {returns : TypeUse} {name : Text} {params : List TypeUse} :
    Completes ⟨cs, .methodParam cls returns name params⟩ [.mark ")", .mark ";", .mark "\x7d"] :=
  .cons fun _ same => ⟨_, if_pos (congrArg Prod.snd same), completes_methodEnd⟩

theorem completes_methodName {returns : TypeUse} :
    Completes ⟨cs, .methodName cls returns⟩ TypeRole.result.closing :=
  .name (fun _ _ => rfl) fun _ => .word (fun _ _ => rfl) fun _ => completes_methodParam

theorem completes_afterType (type : TypeUse) :
    Completes ⟨cs, .afterType cls role stack type⟩ (typeClosing role stack) := by
  induction stack generalizing type with
  | nil =>
    cases role with
    | result => exact completes_methodName
    | param => exact completes_methodParam
  | cons opened stack ih =>
    exact .word (fun t reads => if_neg (by rw [reads]; decide)) fun t => ih _

theorem typeClosing_head : ∃ l rest, typeClosing role stack = l :: rest ∧ l.2 ≠ "<" := by
  cases stack with
  | nil => cases role <;> exact ⟨_, _, rfl, by decide⟩
  | cons opened stack => exact ⟨_, _, rfl, by decide⟩

theorem completes_typeName {name : Text} {place : Span} :
    Completes ⟨cs, .typeName cls role stack name place⟩ (typeClosing role stack) := by
  intro span ts reads
  have apart : ¬ Starts "<" ts := by
    rintro ⟨t, rest, rfl, opening⟩
    obtain ⟨l, others, eq, ne⟩ := @typeClosing_head role stack
    rw [eq] at reads
    obtain ⟨rfl, -⟩ := List.cons.inj reads
    exact ne opening
  unfold Reads
  rw [run_settled apart]
  exact completes_afterType _ span ts reads

theorem completes_argumentNext {opened : OpenType} :
    Completes ⟨cs, .argumentNext cls role opened stack⟩ (.mark ">" :: typeClosing role stack) :=
  .word (fun t reads => if_neg (by rw [reads]; decide)) fun t => completes_afterType _

theorem completes_bounded {opened : OpenType} : Completes ⟨cs, .bounded cls role opened stack⟩
    (.name "x" :: .mark ">" :: typeClosing role stack) :=
  .name (fun _ _ => rfl) fun _ => completes_typeName

theorem completes_bodyOpen {start : Span} {name : Text} {params : List Text} :
    Completes ⟨cs, .bodyOpen start name params⟩ [.mark "\x7b", .mark "\x7d"] :=
  .word (fun _ _ => rfl) fun _ => completes_member

theorem completes_paramNext {start : Span} {name : Text} {params : List Text} :
    Completes ⟨cs, .paramNext start name params⟩ [.mark ">", .mark "\x7b", .mark "\x7d"] :=
  .word (fun _ reads => if_neg (by rw [reads]; decide)) fun _ => completes_bodyOpen

theorem completes_paramName {start : Span} {name : Text} {params : List Text} :
    Completes ⟨cs, .paramName start name params⟩
      [.name (freshName params), .mark ">", .mark "\x7b", .mark "\x7d"] := by
  refine .name (fun t reads => if_neg fun known => ?_) fun _ => completes_paramNext
  exact freshName_notMem params (reads ▸ known.2)

/-- Every state can be completed. -/
theorem completes (r : Reader) : Completes r r.stage.closing := by
  obtain ⟨classes, stage⟩ := r
  cases stage with
  | between =>
    intro span ts none
    obtain rfl := List.map_eq_nil_iff.1 none
    exact ⟨classes, reads_nil.2 ⟨rfl, rfl⟩⟩
  | className =>
    exact .name (fun _ _ => rfl) fun _ => .word (fun _ _ => rfl) fun _ => completes_paramName
  | paramsOpen => exact .word (fun _ _ => rfl) fun _ => completes_paramName
  | paramName => exact completes_paramName
  | paramNext => exact completes_paramNext
  | bodyOpen => exact completes_bodyOpen
  | member => exact completes_member
  | argument =>
    exact .name (fun t reads => if_neg (by rw [reads]; decide)) fun _ => completes_typeName
  | bound => exact .cons fun t same => ⟨_, if_pos (congrArg Prod.snd same), completes_bounded⟩
  | bounded => exact completes_bounded
  | typeName => exact completes_typeName
  | argumentNext => exact completes_argumentNext
  | methodName => exact completes_methodName
  | methodOpen => exact .word (fun _ _ => rfl) fun _ => completes_methodParam
  | methodParam => exact completes_methodParam
  | methodEnd => exact completes_methodEnd

end

/-- A lexeme that is found again in front of a space. -/
def Written : Lexeme → Prop
  | (.identifier, t) => IsName t
  | (.punctuation, t) => IsMark t
  | _ => False

instance : (l : Lexeme) → Decidable (Written l)
  | (.identifier, t) => inferInstanceAs (Decidable (IsName t))
  | (.punctuation, t) => inferInstanceAs (Decidable (IsMark t))
  | (.whitespace, _) | (.invalid, _) => inferInstanceAs (Decidable False)

/-- Lexemes written with a space after each. -/
def spaced (ls : List Lexeme) : Text := ls.flatMap fun l => l.2 ++ [0x20]

theorem words_spaced {ls : List Lexeme} (h : ∀ l ∈ ls, Written l) : words (spaced ls) = ls := by
  induction ls with
  | nil => rfl
  | cons l ls ih =>
    obtain ⟨written, others⟩ := List.forall_mem_cons.1 h
    have rest : words (0x20 :: spaced ls) = ls := by rw [words_space, ih others]
    have ends : EndsWord (0x20 :: spaced ls) := @endsWord_append [0x20] (by decide) _
    rw [spaced, List.flatMap_cons, List.append_assoc, List.singleton_append, ← spaced]
    unfold Written at written
    split at written
    · rw [words_name written ends, rest, Lexeme.name]
    · rw [words_mark written, rest, Lexeme.mark]
    · exact written.elim

theorem typeClosing_written (role : TypeRole) (stack : List OpenType) :
    ∀ l ∈ typeClosing role stack, Written l := by
  induction stack with
  | nil => cases role <;> simp only [typeClosing, TypeRole.closing] <;> decide
  | cons opened stack ih => exact List.forall_mem_cons.2 ⟨by decide, ih⟩

theorem closing_written (stage : Stage) : ∀ l ∈ stage.closing, Written l := by
  cases stage with
  | between | className | paramsOpen | paramNext | bodyOpen | member | methodName | methodOpen
  | methodParam | methodEnd =>
    simp only [Stage.closing, TypeRole.closing]
    decide
  | paramName start name params =>
    exact List.forall_mem_cons.2 ⟨isName_freshName params, by decide⟩
  | argument _ role _ stack | bounded _ role _ stack =>
    exact List.forall_mem_cons.2 ⟨by decide,
      List.forall_mem_cons.2 ⟨by decide, typeClosing_written role stack⟩⟩
  | bound _ role _ stack =>
    exact List.forall_mem_cons.2 ⟨by decide, List.forall_mem_cons.2 ⟨by decide,
      List.forall_mem_cons.2 ⟨by decide, typeClosing_written role stack⟩⟩⟩
  | typeName _ role stack => exact typeClosing_written role stack
  | argumentNext _ role _ stack =>
    exact List.forall_mem_cons.2 ⟨by decide, typeClosing_written role stack⟩

end Polarity

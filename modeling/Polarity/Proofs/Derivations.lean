import Mathlib.Data.List.Nodup
import Polarity.Proofs.Grammar

/-!
# What is read, and what is derived

The machine accepts exactly the programs of the grammar. That what it accepts is
derived goes by recursion on the tokens, production by production. That what is
derived is accepted goes by recursion on the derivation, with any tokens behind it:
the machine stands where it should after each phrase.

* `Reads`: from a state on, tokens are read to the end of the input;
* `reads_program`: what is read has a derivation;
* `run_type`, `run_class`, `run_program`: the machine after a phrase;
* `reads_iff`: tokens are read just when they have a derivation;
* `Reader.walk`, `run_error`: the state at which reading ends, and why;
* `parse_iff_derivation`: all of it, for sources.
-/

namespace Polarity

section
variable {span : Span} {cs : List ClassDecl} {cls : OpenClass} {role : TypeRole}
  {stack : List OpenType} {r r' : Reader} {t : Token} {ts rest : List Token}
  {decls : List ClassDecl}

/-- From the state `r` on, the tokens are read to the end of the input. -/
def Reads (span : Span) (r : Reader) (ts : List Token) (decls : List ClassDecl) : Prop :=
  (Reading.run span r ts).result = .ok decls

theorem run_step (h : r.step t = .ok r') :
    Reading.run span r (t :: ts) = Reading.run span r' ts := by
  rw [Reading.run, h]

theorem reads_nil : Reads span r [] decls ↔ r.stage = .between ∧ r.classes = decls := by
  obtain ⟨classes, stage⟩ := r
  cases stage <;> simp [Reads, Reading.run, Reader.finish, Reading.result]

theorem reads_cons :
    Reads span r (t :: ts) decls ↔ ∃ r', r.step t = .ok r' ∧ Reads span r' ts decls := by
  unfold Reads
  rw [Reading.run]
  cases r.step t with
  | ok r' => simp
  | error d => simp [Reading.result]

theorem word_ok {w : Text} {stage : Stage} (h : r.word t w stage = .ok r') :
    t.text = w ∧ r' = { r with stage } := by
  unfold Reader.word at h
  split at h
  · rename_i reads
    exact ⟨reads, (Except.ok.inj h).symm⟩
  · cases h

/-! ## What is read is derived -/

theorem Reads.next (h : Reads span r ts decls) (hb : r.stage ≠ .between) :
    ∃ t rest r', ts = t :: rest ∧ r.step t = .ok r' ∧ Reads span r' rest decls := by
  cases ts with
  | nil => exact absurd (reads_nil.1 h).1 hb
  | cons t rest =>
    obtain ⟨r', step, h⟩ := reads_cons.1 h
    exact ⟨t, rest, r', rfl, step, h⟩

theorem Reads.word (h : Reads span r ts decls) (hb : r.stage ≠ .between) {w : Text}
    {stage : Token → Stage} (hs : ∀ t, r.step t = r.word t w (stage t)) :
    ∃ (x : Terminal w) (rest : List Token),
      ts = x.token :: rest ∧ Reads span { r with stage := stage x.token } rest decls := by
  obtain ⟨t, rest, r', rfl, step, h⟩ := h.next hb
  obtain ⟨reads, rfl⟩ := word_ok ((hs t).symm.trans step)
  exact ⟨⟨t, reads⟩, rest, rfl, h⟩

theorem Reads.identifier (h : Reads span r ts decls) (hb : r.stage ≠ .between)
    {stage : Token → Stage} (hs : ∀ t, r.step t = r.identifier t (stage t)) :
    ∃ (n : Name) (rest : List Token),
      ts = n.token :: rest ∧ Reads span { r with stage := stage n.token } rest decls := by
  obtain ⟨t, rest, r', rfl, step, h⟩ := h.next hb
  obtain ⟨kind, rfl⟩ := identifier_eq_ok ((hs t).symm.trans step)
  exact ⟨⟨t, kind⟩, rest, rfl, h⟩

/-- A type name that is not applied is a complete type. -/
theorem settled_step {name : Text} {place : Span} (h : t.text ≠ "<") :
    Reader.step ⟨cs, .typeName cls role stack name place⟩ t =
      Reader.step ⟨cs, .afterType cls role stack (.mk name [] place)⟩ t := by
  rw [Reader.step, if_neg h]
  cases stack with
  | nil => cases role <;> rfl
  | cons opened stack => rfl

theorem bound_step {opened : OpenType}
    (step : Reader.step ⟨cs, .bound cls role opened stack⟩ t = .ok r') :
    ∃ bound : BoundTree, bound.token = t ∧
      r' = ⟨cs, .bounded cls role { opened with wildcard := bound.wildcard } stack⟩ := by
  simp only [Reader.step, Reader.take] at step
  split at step
  · rename_i upper
    cases step
    exact ⟨.upper ⟨t, upper⟩, rfl, rfl⟩
  · obtain ⟨lower, rfl⟩ := word_ok step
    exact ⟨.lower ⟨t, lower⟩, rfl, rfl⟩

-- A type name with `<` behind it goes on with arguments, which are types again. The tokens get
-- fewer on the way, except from the arguments to the first one of them.
mutual

theorem reads_typeName (ts : List Token) (name : Name) {role : TypeRole} {stack : List OpenType}
    (h : Reads span ⟨cs, .typeName cls role stack name.text name.token.span⟩ ts decls) :
    ∃ (type : TypeTree) (rest : List Token), type.head = name ∧ ts = type.tail ++ rest ∧
      Reads span ⟨cs, .afterType cls role stack type.ast⟩ rest decls := by
  obtain ⟨t, rest, r', rfl, step, inner⟩ := h.next nofun
  by_cases opening : t.text = "<"
  · simp only [Reader.step, opening, ↓reduceIte, Reader.take] at step
    obtain ⟨reads, rfl⟩ := word_ok step
    obtain ⟨args, closing, rest', rfl, outer⟩ := reads_arguments rest inner
    exact ⟨.applied name ⟨t, opening⟩ args closing, rest', rfl, by simp [TypeTree.tail], outer⟩
  · rw [settled_step opening] at step
    exact ⟨.plain name, t :: rest, rfl, rfl, reads_cons.2 ⟨r', step, inner⟩⟩
termination_by (ts.length, 0)

theorem reads_argument (ts : List Token) {opened : OpenType} {role : TypeRole}
    {stack : List OpenType} (h : Reads span ⟨cs, .argument cls role opened stack⟩ ts decls) :
    ∃ (arg : ArgTree) (rest : List Token), ts = arg.yield ++ rest ∧
      Reads span ⟨cs, .argumentNext cls role
        { opened with args := opened.args ++ [arg.ast], wildcard := arg.ast.1 } stack⟩ rest
          decls := by
  obtain ⟨t, afterFirst, r₁, rfl, step, h₁⟩ := h.next nofun
  simp only [Reader.step, Reader.take] at step
  split at step
  · rename_i mark
    cases step
    obtain ⟨b, afterBound, r₂, rfl, step, h₂⟩ := h₁.next nofun
    obtain ⟨bound, rfl, rfl⟩ := bound_step step
    obtain ⟨name, afterName, rfl, h₃⟩ := h₂.identifier nofun fun _ => rfl
    obtain ⟨type, rest, rfl, rfl, outer⟩ := reads_typeName afterName name h₃
    exact ⟨.marked ⟨t, mark⟩ bound type, rest, by simp [ArgTree.yield, TypeTree.yield_eq], outer⟩
  · obtain ⟨kind, rfl⟩ := identifier_eq_ok step
    obtain ⟨type, rest, head, rfl, outer⟩ := reads_typeName afterFirst ⟨t, kind⟩ h₁
    exact ⟨.bare type, rest, by simp [ArgTree.yield, TypeTree.yield_eq, head], outer⟩
termination_by (ts.length, 0)

theorem reads_arguments (ts : List Token) {opened : OpenType} {role : TypeRole}
    {stack : List OpenType} (h : Reads span ⟨cs, .argument cls role opened stack⟩ ts decls) :
    ∃ (args : ArgsTree) (closing : Terminal ">") (rest : List Token),
      ts = args.yield ++ closing.token :: rest ∧
      Reads span ⟨cs, .afterType cls role stack (.mk opened.name (opened.args ++ args.ast)
        (opened.span.between closing.token.span))⟩ rest decls := by
  obtain ⟨arg, afterArg, rfl, h₁⟩ := reads_argument ts h
  obtain ⟨t, afterNext, r', rfl, step, h₂⟩ := h₁.next nofun
  simp only [Reader.step, Reader.take] at step
  split at step
  · rename_i comma
    cases step
    obtain ⟨args, closing, rest, rfl, outer⟩ := reads_arguments afterNext h₂
    refine ⟨.more arg ⟨t, comma⟩ args, closing, rest, by simp [ArgsTree.yield], ?_⟩
    simpa [ArgsTree.ast] using outer
  · obtain ⟨closing, rfl⟩ := word_ok step
    exact ⟨.last arg, ⟨t, closing⟩, afterNext, rfl, h₂⟩
termination_by (ts.length, 1)

end

/-- Where a sequence of types may end with `w`, there is `w` or one more type. -/
theorem reads_close_or_type (h : Reads span r ts decls) (hb : r.stage ≠ .between) {w : Text}
    {close : Token → Reader} (hs : ∀ t, r.step t = if t.text = w then .ok (close t)
      else r.identifier t (.typeName cls role stack t.text t.span)) :
    (∃ (x : Terminal w) (rest : List Token), ts = x.token :: rest ∧
      Reads span (close x.token) rest decls) ∨
    ∃ (type : TypeTree) (rest : List Token), ts = type.yield ++ rest ∧
      Reads span ⟨r.classes, .afterType cls role stack type.ast⟩ rest decls := by
  obtain ⟨t, afterFirst, r', rfl, step, h₁⟩ := h.next hb
  rw [hs] at step
  split at step
  · rename_i closing
    cases step
    exact .inl ⟨⟨t, closing⟩, afterFirst, rfl, h₁⟩
  · obtain ⟨kind, rfl⟩ := identifier_eq_ok step
    obtain ⟨type, rest, head, rfl, outer⟩ := reads_typeName afterFirst ⟨t, kind⟩ h₁
    exact .inr ⟨type, rest, by rw [TypeTree.yield_eq, List.cons_append, head], outer⟩

theorem reads_params (ts : List Token) {start : Span} {name : Text} {params : List Text}
    (h : Reads span ⟨cs, .paramName start name params⟩ ts decls) (nodup : params.Nodup) :
    ∃ (tree : ParamsTree) (closing : Terminal ">") (rest : List Token),
      ts = tree.yield ++ closing.token :: rest ∧ (params ++ tree.names).Nodup ∧
      Reads span ⟨cs, .bodyOpen start name (params ++ tree.names)⟩ rest decls := by
  obtain ⟨t, afterName, r', rfl, step, h₁⟩ := h.next nofun
  simp only [Reader.step, Reader.take] at step
  split at step
  · cases step
  rename_i new
  obtain ⟨kind, rfl⟩ := identifier_eq_ok step
  have nodup : (params ++ [t.text]).Nodup := by
    rw [← List.concat_eq_append]
    exact List.Nodup.concat (fun known => new ⟨kind, known⟩) nodup
  obtain ⟨t', afterNext, r', rfl, step, h₂⟩ := h₁.next nofun
  simp only [Reader.step, Reader.take] at step
  split at step
  · rename_i comma
    cases step
    obtain ⟨tree, closing, rest, rfl, nodup, outer⟩ := reads_params afterNext h₂ nodup
    rw [List.append_assoc] at nodup outer
    exact ⟨.more ⟨t, kind⟩ ⟨t', comma⟩ tree, closing, rest, rfl, nodup, outer⟩
  · obtain ⟨closing, rfl⟩ := word_ok step
    exact ⟨.last ⟨t, kind⟩, ⟨t', closing⟩, afterNext, rfl, nodup, h₂⟩
termination_by ts.length

theorem length_lt_append {ts : List Token} (h : ts ≠ []) : rest.length < (ts ++ rest).length := by
  have pos := List.length_pos_iff.2 h
  rw [List.length_append]
  omega

theorem reads_paramTypes (ts : List Token) {returns : TypeUse} {name : Text} {params : List TypeUse}
    (h : Reads span ⟨cs, .methodParam cls returns name params⟩ ts decls) :
    ∃ (types : List TypeTree) (closing : Terminal ")") (rest : List Token),
      ts = types.flatMap TypeTree.yield ++ closing.token :: rest ∧
      Reads span ⟨cs, .methodEnd cls returns name (params ++ types.map TypeTree.ast)⟩ rest
        decls := by
  obtain ⟨closing, rest, rfl, outer⟩ | ⟨type, afterType, rfl, h₁⟩ :=
    reads_close_or_type h nofun fun _ => rfl
  · exact ⟨[], closing, rest, rfl, by simpa using outer⟩
  · have shorter : afterType.length < (type.yield ++ afterType).length :=
      length_lt_append (type.yield_eq ▸ List.cons_ne_nil _ _)
    obtain ⟨types, closing, rest, rfl, outer⟩ := reads_paramTypes afterType h₁
    exact ⟨type :: types, closing, rest, by simp, by simpa using outer⟩
termination_by ts.length

theorem reads_method (h : Reads span ⟨cs, .member cls⟩ ts decls) :
    (∃ (closing : Terminal "\x7d") (rest : List Token), ts = closing.token :: rest ∧
      Reads span ⟨cs ++ [⟨cls.name, cls.params, cls.methods,
        cls.start.between closing.token.span⟩], .between⟩ rest decls) ∨
    ∃ (method : MethodTree) (rest : List Token), ts = method.yield ++ rest ∧
      Reads span ⟨cs, .member { cls with methods := cls.methods ++ [method.ast] }⟩ rest decls := by
  obtain closed | ⟨returns, afterType, rfl, h₁⟩ := reads_close_or_type h nofun fun _ => rfl
  · exact .inl closed
  · obtain ⟨name, afterName, rfl, h₂⟩ := h₁.identifier nofun fun _ => rfl
    obtain ⟨opening, afterOpening, rfl, h₃⟩ := h₂.word nofun fun _ => rfl
    obtain ⟨params, closing, afterParams, rfl, h₄⟩ := reads_paramTypes afterOpening h₃
    obtain ⟨ending, rest, rfl, h₅⟩ := h₄.word nofun fun _ => rfl
    exact .inr ⟨⟨returns, name, opening, params, closing, ending⟩, rest,
      by simp [MethodTree.yield], h₅⟩

theorem reads_methods (ts : List Token) {cls : OpenClass}
    (h : Reads span ⟨cs, .member cls⟩ ts decls) :
    ∃ (methods : List MethodTree) (closing : Terminal "\x7d") (rest : List Token),
      ts = methods.flatMap MethodTree.yield ++ closing.token :: rest ∧
      Reads span ⟨cs ++ [⟨cls.name, cls.params, cls.methods ++ methods.map MethodTree.ast,
        cls.start.between closing.token.span⟩], .between⟩ rest decls := by
  obtain ⟨closing, rest, rfl, outer⟩ | ⟨method, afterMethod, rfl, h₁⟩ := reads_method h
  · exact ⟨[], closing, rest, rfl, by simpa using outer⟩
  · have shorter : afterMethod.length < (method.yield ++ afterMethod).length :=
      length_lt_append (List.append_ne_nil_of_right_ne_nil _ (List.cons_ne_nil _ _))
    obtain ⟨methods, closing, rest, rfl, outer⟩ := reads_methods afterMethod h₁
    exact ⟨method :: methods, closing, rest, by simp, by simpa using outer⟩
termination_by ts.length

theorem reads_class (h : Reads span ⟨cs, .between⟩ ts decls) :
    (ts = [] ∧ cs = decls) ∨ ∃ (tree : ClassTree) (rest : List Token),
      ts = tree.yield ++ rest ∧ tree.params.names.Nodup ∧
        Reads span ⟨cs ++ [tree.ast], .between⟩ rest decls := by
  cases ts with
  | nil => exact .inl ⟨rfl, (reads_nil.1 h).2⟩
  | cons t afterKeyword =>
    obtain ⟨r', step, h₁⟩ := reads_cons.1 h
    obtain ⟨keyword, rfl⟩ := word_ok step
    obtain ⟨name, afterName, rfl, h₂⟩ := h₁.identifier nofun fun _ => rfl
    obtain ⟨opening, afterOpening, rfl, h₃⟩ := h₂.word nofun fun _ => rfl
    obtain ⟨params, closing, afterParams, rfl, nodup, h₄⟩ :=
      reads_params afterOpening h₃ List.nodup_nil
    obtain ⟨bodyOpening, afterHead, rfl, h₅⟩ := h₄.word nofun fun _ => rfl
    obtain ⟨methods, bodyClosing, rest, rfl, h₆⟩ := reads_methods afterHead h₅
    exact .inr ⟨⟨⟨t, keyword⟩, name, opening, params, closing, bodyOpening, methods, bodyClosing⟩,
      rest, by simp [ClassTree.yield], nodup, h₆⟩

theorem reads_program (ts : List Token) {cs : List ClassDecl}
    (h : Reads span ⟨cs, .between⟩ ts decls) :
    ∃ program : ProgramTree, program.yield = ts ∧ program.Distinct ∧ cs ++ program.ast = decls := by
  obtain ⟨rfl, rfl⟩ | ⟨tree, afterClass, rfl, nodup, h₁⟩ := reads_class h
  · exact ⟨[], rfl, List.forall_mem_nil _, List.append_nil cs⟩
  · have shorter : afterClass.length < (tree.yield ++ afterClass).length :=
      length_lt_append (List.cons_ne_nil _ _)
    obtain ⟨program, rfl, distinct, rfl⟩ := reads_program afterClass h₁
    exact ⟨tree :: program, rfl, List.forall_mem_cons.2 ⟨nodup, distinct⟩,
      by simp [ProgramTree.ast]⟩
termination_by ts.length

/-! ## What is derived is read -/

theorem run_word {w : Text} (x : Terminal w) {stage : Stage}
    (hs : r.step x.token = r.word x.token w stage) :
    Reading.run span r (x.token :: rest) = Reading.run span { r with stage } rest :=
  run_step (hs.trans (by rw [Reader.word, if_pos x.reads]))

theorem run_name (n : Name) {stage : Stage} (hs : r.step n.token = r.identifier n.token stage) :
    Reading.run span r (n.token :: rest) = Reading.run span { r with stage } rest :=
  run_step (hs.trans (by rw [Reader.identifier, if_pos n.identifier]))

/-- The first one of two choices is taken. -/
theorem run_first {w : Text} (x : Terminal w) {other : Except Diagnostic Reader}
    (hs : r.step x.token = if x.token.text = w then .ok r' else other) :
    Reading.run span r (x.token :: rest) = Reading.run span r' rest :=
  run_step (hs.trans (if_pos x.reads))

/-- The second one of two choices is taken. -/
theorem run_second_word {w w' : Text} (x : Terminal w') (ne : w' ≠ w) {stage : Stage}
    {first : Except Diagnostic Reader}
    (hs : r.step x.token = if x.token.text = w then first else r.word x.token w' stage) :
    Reading.run span r (x.token :: rest) = Reading.run span { r with stage } rest :=
  run_word x (hs.trans (if_neg fun same => ne (x.reads.symm.trans same)))

/-- The second one of two choices is taken: a word that is no name is not read here. -/
theorem run_second_name (n : Name) (lexical : Lexical (n.token :: rest)) {w : Text}
    (hw : ¬ IsName w) {stage : Stage} {first : Except Diagnostic Reader}
    (hs : r.step n.token = if n.token.text = w then first else r.identifier n.token stage) :
    Reading.run span r (n.token :: rest) = Reading.run span { r with stage } rest :=
  run_name n (hs.trans (if_neg fun same => Name.not_starts lexical hw (starts_cons.2 same)))

theorem run_settled {name : Text} {place : Span} (hr : ¬ Starts "<" rest) :
    Reading.run span ⟨cs, .typeName cls role stack name place⟩ rest =
      Reading.run span ⟨cs, .afterType cls role stack (.mk name [] place)⟩ rest := by
  cases rest with
  | nil =>
    cases stack with
    | nil => cases role <;> rfl
    | cons opened stack => rfl
  | cons t rest =>
    rw [Reading.run, Reading.run, settled_step fun opening => hr (starts_cons.2 opening)]

theorem Lexical.head_tail {type : TypeTree} (lexical : Lexical (type.yield ++ rest)) :
    Lexical (type.head.token :: (type.tail ++ rest)) := by
  rwa [TypeTree.yield_eq] at lexical

theorem run_bound (bound : BoundTree) {opened : OpenType} :
    Reading.run span ⟨cs, .bound cls role opened stack⟩ (bound.token :: rest) =
      Reading.run span ⟨cs, .bounded cls role { opened with wildcard := bound.wildcard } stack⟩
        rest := by
  cases bound with
  | upper word => exact run_first word rfl
  | lower word => exact run_second_word word (by decide) rfl

-- The token behind a type tells whether its name is applied, so it must not be `<`.
mutual

theorem run_type : ∀ (type : TypeTree) {role : TypeRole} {stack : List OpenType}
    {rest : List Token}, Lexical (type.yield ++ rest) → ¬ Starts "<" rest →
    Reading.run span ⟨cs, .typeName cls role stack type.head.text type.head.token.span⟩
      (type.tail ++ rest) = Reading.run span ⟨cs, .afterType cls role stack type.ast⟩ rest
  | .plain _, _, _, _, _, hr => run_settled hr
  | .applied name opening args closing, role, stack, rest, lexical, _ => by
    simp only [TypeTree.yield, TypeTree.tail, List.cons_append, List.append_assoc, List.nil_append]
      at lexical ⊢
    have step : Reader.step ⟨cs, .typeName cls role stack name.text name.token.span⟩ opening.token =
        .ok ⟨cs, .argument cls role ⟨name.text, name.token.span, [], .bare⟩ stack⟩ := by
      simp [Reader.step, Reader.take, Reader.word, opening.reads]
    rw [TypeTree.head, run_step step, run_arguments args closing lexical.tail.tail]
    rfl

theorem run_arguments : ∀ (args : ArgsTree) (closing : Terminal ">") {opened : OpenType}
    {role : TypeRole} {stack : List OpenType} {rest : List Token},
    Lexical (args.yield ++ closing.token :: rest) →
    Reading.run span ⟨cs, .argument cls role opened stack⟩ (args.yield ++ closing.token :: rest) =
      Reading.run span ⟨cs, .afterType cls role stack (.mk opened.name (opened.args ++ args.ast)
        (opened.span.between closing.token.span))⟩ rest
  | .last arg, closing, opened, role, stack, rest, lexical => by
    rw [ArgsTree.yield, run_argument arg lexical (closing.not_starts (by decide) _),
      run_second_word closing (by decide) rfl]
    rfl
  | .more arg comma others, closing, opened, role, stack, rest, lexical => by
    simp only [ArgsTree.yield, List.append_assoc, List.cons_append] at lexical ⊢
    rw [run_argument arg lexical (comma.not_starts (by decide) _), run_first comma rfl,
      run_arguments others closing lexical.right.tail]
    simp only [ArgsTree.ast, List.append_assoc, List.cons_append, List.nil_append]

theorem run_argument : ∀ (arg : ArgTree) {opened : OpenType}
    {role : TypeRole} {stack : List OpenType} {rest : List Token},
    Lexical (arg.yield ++ rest) → ¬ Starts "<" rest →
    Reading.run span ⟨cs, .argument cls role opened stack⟩ (arg.yield ++ rest) =
      Reading.run span ⟨cs, .argumentNext cls role
        { opened with args := opened.args ++ [arg.ast], wildcard := arg.ast.1 } stack⟩ rest
  | .bare type, opened, role, stack, rest, lexical, hr => by
    rw [ArgTree.yield, TypeTree.yield_eq, List.cons_append,
      run_second_name type.head (Lexical.head_tail lexical) (by decide) rfl]
    exact run_type type lexical hr
  | .marked mark bound type, opened, role, stack, rest, lexical, hr => by
    simp only [ArgTree.yield, List.cons_append] at lexical ⊢
    rw [run_first mark rfl, TypeTree.yield_eq, run_bound, List.cons_append,
      run_name type.head rfl]
    exact run_type type lexical.tail.tail hr

end

/-- A type is read where a sequence of types may also end with `w`. -/
theorem run_type_after (type : TypeTree) {w : Text} (hw : ¬ IsName w)
    {first : Except Diagnostic Reader} (lexical : Lexical (type.yield ++ rest))
    (hr : ¬ Starts "<" rest)
    (hs : r.step type.head.token = if type.head.token.text = w then first
      else r.identifier type.head.token
        (.typeName cls role stack type.head.text type.head.token.span)) :
    Reading.run span r (type.yield ++ rest) =
      Reading.run span ⟨r.classes, .afterType cls role stack type.ast⟩ rest := by
  rw [TypeTree.yield_eq, List.cons_append,
    run_second_name type.head (Lexical.head_tail lexical) hw hs]
  exact run_type type lexical hr

theorem run_paramTypes {returns : TypeUse} {name : Text} (types : List TypeTree)
    (closing : Terminal ")") {params : List TypeUse}
    (lexical : Lexical (types.flatMap TypeTree.yield ++ closing.token :: rest)) :
    Reading.run span ⟨cs, .methodParam cls returns name params⟩
        (types.flatMap TypeTree.yield ++ closing.token :: rest) =
      Reading.run span ⟨cs, .methodEnd cls returns name (params ++ types.map TypeTree.ast)⟩
        rest := by
  induction types generalizing params with
  | nil =>
    rw [List.map_nil, List.append_nil]
    exact run_first closing rfl
  | cons type types ih =>
    simp only [List.flatMap_cons, List.append_assoc] at lexical ⊢
    have apart : ¬ Starts "<" (types.flatMap TypeTree.yield ++ closing.token :: rest) :=
      sequence_not_starts TypeTree.named closing (by decide) (by decide) types lexical.right
    rw [run_type_after type (by decide) lexical apart rfl, Stage.afterType, ih lexical.right,
      List.append_assoc]
    rfl

theorem run_methods (methods : List MethodTree) (closing : Terminal "\x7d") {cls : OpenClass}
    (lexical : Lexical (methods.flatMap MethodTree.yield ++ closing.token :: rest)) :
    Reading.run span ⟨cs, .member cls⟩
        (methods.flatMap MethodTree.yield ++ closing.token :: rest) =
      Reading.run span ⟨cs ++ [⟨cls.name, cls.params, cls.methods ++ methods.map MethodTree.ast,
        cls.start.between closing.token.span⟩], .between⟩ rest := by
  induction methods generalizing cls with
  | nil => rw [List.map_nil, List.append_nil]; exact run_first closing rfl
  | cons m methods ih =>
    simp only [List.flatMap_cons, MethodTree.yield, List.append_assoc, List.cons_append,
      List.nil_append] at lexical ⊢
    have apart : ¬ Starts "<" (m.name.token :: _) := Name.not_starts lexical.right (by decide)
    rw [run_type_after m.returns (by decide) lexical apart rfl, Stage.afterType,
      run_name m.name rfl, run_word m.opening rfl,
      run_paramTypes m.params m.closing lexical.right.tail.tail, run_word m.ending rfl,
      ih lexical.right.tail.tail.right.tail.tail]
    simp [MethodTree.ast, Name.text]

/-- A parameter is taken if its name is new. -/
theorem fresh_step {start : Span} {name : Text} {params : List Text} (n : Name)
    (new : n.text ∉ params) : Reader.step ⟨cs, .paramName start name params⟩ n.token =
      .ok ⟨cs, .paramNext start name (params ++ [n.text])⟩ := by
  have new : n.token.text ∉ params := new
  simp [Reader.step, Reader.take, Reader.identifier, n.identifier, new, Name.text]

theorem run_params (tree : ParamsTree) (closing : Terminal ">") {start : Span} {name : Text}
    {params : List Text} (nodup : (params ++ tree.names).Nodup) :
    Reading.run span ⟨cs, .paramName start name params⟩ (tree.yield ++ closing.token :: rest) =
      Reading.run span ⟨cs, .bodyOpen start name (params ++ tree.names)⟩ rest := by
  have new {params others : List Text} {n : Name} (nodup : (params ++ n.text :: others).Nodup) :
      n.text ∉ params := fun known => (List.nodup_append.1 nodup).2.2 _ known _ (.head _) rfl
  induction tree generalizing params with
  | last n =>
    exact (run_step (fresh_step n (new nodup))).trans (run_second_word closing (by decide) rfl)
  | more n comma others ih =>
    have split : params ++ (ParamsTree.more n comma others).names =
        params ++ [n.text] ++ others.names := by simp [ParamsTree.names]
    calc
      _ = Reading.run span ⟨cs, .paramNext start name (params ++ [n.text])⟩
          (comma.token :: (others.yield ++ closing.token :: rest)) :=
        run_step (fresh_step n (new nodup))
      _ = Reading.run span ⟨cs, .paramName start name (params ++ [n.text])⟩
          (others.yield ++ closing.token :: rest) := run_first comma rfl
      _ = _ := by
        rw [split] at nodup ⊢
        exact ih nodup

theorem run_class (tree : ClassTree) (nodup : tree.params.names.Nodup)
    (lexical : Lexical (tree.yield ++ rest)) :
    Reading.run span ⟨cs, .between⟩ (tree.yield ++ rest) =
      Reading.run span ⟨cs ++ [tree.ast], .between⟩ rest := by
  simp only [ClassTree.yield, List.append_assoc, List.cons_append, List.nil_append] at lexical ⊢
  rw [run_word tree.keyword rfl, run_name tree.name rfl, run_word tree.opening rfl,
    run_params tree.params tree.closing nodup, run_word tree.bodyOpening rfl,
    run_methods tree.methods tree.bodyClosing lexical.tail.tail.tail.right.tail.tail]
  rfl

theorem run_program {program : ProgramTree} (distinct : program.Distinct)
    (lexical : Lexical (program.yield ++ rest)) :
    Reading.run span ⟨cs, .between⟩ (program.yield ++ rest) =
      Reading.run span ⟨cs ++ program.ast, .between⟩ rest := by
  induction program generalizing cs with
  | nil => simp [ProgramTree.yield, ProgramTree.ast]
  | cons tree program ih =>
    obtain ⟨nodup, distinct⟩ := List.forall_mem_cons.1 distinct
    simp only [ProgramTree.yield, List.flatMap_cons, List.append_assoc] at lexical ⊢
    rw [run_class tree nodup lexical]
    refine (ih distinct lexical.right).trans ?_
    simp [ProgramTree.ast]

/-- Tokens are read to the end just when they have a derivation. -/
theorem reads_iff (lexical : Lexical ts) : Reads span .start ts decls ↔
    ∃ program : ProgramTree, program.yield = ts ∧ program.Distinct ∧ program.ast = decls := by
  constructor
  · exact reads_program ts
  · rintro ⟨program, rfl, distinct, rfl⟩
    rw [← List.append_nil program.yield] at lexical ⊢
    unfold Reads
    rw [Reader.start, run_program distinct lexical]
    rfl

/-! ## What is refused -/

theorem word_error {d : Diagnostic} {w : Text} {stage : Stage} (h : r.word t w stage = .error d) :
    d = Reader.refusal r.stage t := by
  unfold Reader.word at h
  split at h
  · cases h
  · exact (Except.error.inj h).symm

theorem identifier_error {d : Diagnostic} {stage : Stage} (h : r.identifier t stage = .error d) :
    d = Reader.refusal r.stage t := by
  unfold Reader.identifier at h
  split at h
  · cases h
  · exact (Except.error.inj h).symm

/-- A token that cannot follow is refused as such, or as a parameter that the class has already. -/
def Refuses (stage : Stage) (t : Token) (d : Diagnostic) : Prop :=
  (∃ stage', d = Reader.refusal stage' t) ∨ ∃ start name params,
    stage = .paramName start name params ∧ t.kind = .identifier ∧ t.text ∈ params ∧
      d = ⟨.duplicateParam name t.text, t.span⟩

theorem take_error {d : Diagnostic} (h : r.take t = .error d) : Refuses r.stage t d := by
  obtain ⟨classes, stage⟩ := r
  cases stage with
  | paramName start name params =>
    simp only [Reader.take] at h
    split at h
    · rename_i known
      exact .inr ⟨start, name, params, rfl, known.1, known.2, (Except.error.inj h).symm⟩
    · exact .inl ⟨_, identifier_error h⟩
  | between | paramsOpen | bodyOpen | typeName | methodOpen | methodEnd =>
    exact .inl ⟨_, word_error h⟩
  | className | bounded | methodName => exact .inl ⟨_, identifier_error h⟩
  | paramNext | bound | argumentNext =>
    simp only [Reader.take] at h
    split at h
    · cases h
    · exact .inl ⟨_, word_error h⟩
  | member | argument | methodParam =>
    simp only [Reader.take] at h
    split at h
    · cases h
    · exact .inl ⟨_, identifier_error h⟩

theorem afterType_ne_paramName {type : TypeUse} {start : Span} {name : Text} {params : List Text} :
    Stage.afterType cls role stack type ≠ .paramName start name params := by
  cases stack with
  | nil => cases role <;> exact nofun
  | cons => exact nofun

theorem step_error {d : Diagnostic} (h : r.step t = .error d) : Refuses r.stage t d := by
  obtain ⟨classes, stage⟩ := r
  cases stage with
  | typeName cls role stack name place =>
    simp only [Reader.step] at h
    split at h
    · exact take_error h
    · obtain refused | ⟨_, _, _, clash, -⟩ := take_error h
      · exact .inl refused
      · exact absurd clash afterType_ne_paramName
  | _ => exact take_error h

/-- The state after some tokens, or the diagnostic of the first one that is refused. -/
def Reader.walk (r : Reader) (ts : List Token) : Except Diagnostic Reader := ts.foldlM Reader.step r

theorem walk_cons : r.walk (t :: ts) = (r.step t).bind (·.walk ts) := rfl

theorem walk_cons_ok :
    r.walk (t :: ts) = .ok r' ↔ ∃ next, r.step t = .ok next ∧ next.walk ts = .ok r' := by
  rw [walk_cons]
  cases r.step t with
  | error d => simp [Except.bind]
  | ok next => simp [Except.bind]

/-- Reading fails at a token that is refused after all tokens before it were taken, or at the end
of the input. -/
theorem run_error {d : Diagnostic} (h : (Reading.run span r ts).result = .error d) :
    (∃ front t back r', ts = front ++ t :: back ∧ r.walk front = .ok r' ∧ r'.step t = .error d) ∨
      ∃ r', r.walk ts = .ok r' ∧ r'.finish span = .error d := by
  induction ts generalizing r with
  | nil =>
    refine .inr ⟨r, rfl, ?_⟩
    rw [Reading.run] at h
    split at h
    · cases h
    · rename_i finish
      cases h
      exact finish
  | cons t ts ih =>
    rw [Reading.run] at h
    cases step : r.step t with
    | error e =>
      rw [step] at h
      cases h
      exact .inl ⟨[], t, ts, r, rfl, rfl, step⟩
    | ok r' =>
      rw [step] at h
      obtain ⟨front, t', back, r'', rfl, walk, refused⟩ | ⟨r'', walk, ended⟩ := ih h
      · exact .inl ⟨t :: front, t', back, r'', rfl, walk_cons_ok.2 ⟨r', step, walk⟩, refused⟩
      · exact .inr ⟨r'', walk_cons_ok.2 ⟨r', step, walk⟩, ended⟩

theorem finish_error {d : Diagnostic} (h : r.finish span = .error d) :
    d.span = span ∧ ∃ stage : Stage, d.fault = .malformed stage.expectedAtEnd [] := by
  unfold Reader.finish at h
  split at h
  · cases h
  · cases h
    exact ⟨rfl, _, rfl⟩

theorem run_error_code {d : Diagnostic} (h : (Reading.run span r ts).result = .error d) :
    d.fault.code = 1 ∨ d.fault.code = 4 := by
  obtain ⟨front, t, back, r', rfl, walk, refused⟩ | ⟨r', walk, ended⟩ := run_error h
  · obtain ⟨stage, rfl⟩ | ⟨start, name, params, -, -, -, rfl⟩ := step_error refused
    · exact .inl rfl
    · exact .inr rfl
  · obtain ⟨-, stage, fault⟩ := finish_error ended
    exact .inl (by rw [fault]; rfl)

end

/-- **Exactly the programs of the grammar are accepted**, those whose classes have parameters of
different names. The derivation is the only one, and what is read is its abstract syntax. Any
other source gives one diagnostic and no declarations. -/
theorem parse_iff_derivation (source : Text) :
    ((∃ decls, parse source = .ok decls) ↔
      ∃ program : ProgramTree,
        program.yield = significant (tokenize source) ∧ program.Distinct) ∧
    (∀ program : ProgramTree, program.yield = significant (tokenize source) →
      (∀ other : ProgramTree, other.yield = significant (tokenize source) → other = program) ∧
      (program.Distinct → parse source = .ok program.ast)) ∧
    ((¬ ∃ program : ProgramTree,
        program.yield = significant (tokenize source) ∧ program.Distinct) →
      ∃ d, parse source = .error d ∧ (d.fault.code = 1 ∨ d.fault.code = 4)) := by
  have lexical := tokenize_lexical source
  have accepted (decls : List ClassDecl) : parse source = .ok decls ↔ _ := reads_iff lexical
  refine ⟨⟨?_, ?_⟩, fun program yield => ⟨fun other yield' => ?_, fun distinct => ?_⟩, ?_⟩
  · rintro ⟨decls, h⟩
    obtain ⟨program, yield, distinct, -⟩ := (accepted decls).1 h
    exact ⟨program, yield, distinct⟩
  · rintro ⟨program, yield, distinct⟩
    exact ⟨_, (accepted _).2 ⟨program, yield, distinct, rfl⟩⟩
  · exact ProgramTree.unique other program (yield'.trans yield.symm) (yield' ▸ lexical)
  · exact (accepted _).2 ⟨program, yield, distinct, rfl⟩
  · intro none
    cases h : parse source with
    | ok decls =>
      obtain ⟨program, yield, distinct, -⟩ := (accepted decls).1 h
      exact absurd ⟨program, yield, distinct⟩ none
    | error d => exact ⟨d, rfl, run_error_code h⟩

end Polarity

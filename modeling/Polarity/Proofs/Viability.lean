import Mathlib.Data.List.Chain
import Polarity.Proofs.Completion
import Polarity.Proofs.Layout

/-!
# The first impossible token

A source is rejected at the first token after which no program can go on, and at its
end only if it could have gone on.

* `Viable`: tokens that some program begins with;
* `viable_of_walk`: what has been taken is viable;
* `not_viable_of_refused`: what is refused is not, wherever the tokens stand;
* `RepeatsParam`: the last token is a parameter name that its class has already;
* `Quiet`: a wording that does not name the end of the input;
* `parse_error_firstImpossible`: where sources are rejected, and how it is put.
-/

namespace Polarity

/-- Some source that is accepted begins with these tokens. -/
def Viable (tokens : List Token) : Prop :=
  ∃ source decls, parse source = .ok decls ∧ tokens <+: significant (tokenize source)

theorem Viable.front {ts us : List Token} (h : Viable (ts ++ us)) : Viable ts := by
  obtain ⟨source, decls, accepted, within⟩ := h
  exact ⟨source, decls, accepted, (List.prefix_append ts us).trans within⟩

/-! ## Tokens that are taken -/

/-- The words that the grammar names. -/
def grammarWords : List Text :=
  ["class", "<", ",", ">", "\x7b", "\x7d", "?", "extends", "super", "(", ")", ";"]

theorem take_known {r r' : Reader} {t : Token} (h : r.take t = .ok r') :
    t.kind = .identifier ∨ t.text ∈ grammarWords := by
  have word {w : Text} (hw : w ∈ grammarWords) {stage : Stage} (h : r.word t w stage = .ok r') :
      t.kind = .identifier ∨ t.text ∈ grammarWords := .inr ((word_ok h).1 ▸ hw)
  have name {stage : Stage} (h : r.identifier t stage = .ok r') :
      t.kind = .identifier ∨ t.text ∈ grammarWords := .inl (identifier_eq_ok h).1
  obtain ⟨classes, stage⟩ := r
  cases stage with
  | between | paramsOpen | bodyOpen | typeName | methodOpen | methodEnd =>
    exact word (by decide) h
  | className | bounded | methodName => exact name h
  | paramName =>
    simp only [Reader.take] at h
    split at h
    · cases h
    · exact name h
  | paramNext | bound | argumentNext =>
    simp only [Reader.take] at h
    split at h
    · rename_i reads
      exact .inr (reads ▸ by decide)
    · exact word (by decide) h
  | member | argument | methodParam =>
    simp only [Reader.take] at h
    split at h
    · rename_i reads
      exact .inr (reads ▸ by decide)
    · exact name h

theorem step_known {r r' : Reader} {t : Token} (h : r.step t = .ok r') :
    t.kind = .identifier ∨ t.text ∈ grammarWords := by
  unfold Reader.step at h
  split at h
  · split at h
    · exact take_known h
    · exact take_known h
  · exact take_known h

/-! ## Taking tokens one after another -/

section
variable {r r' : Reader} {t : Token} {ts us front back : List Token} {source : Text}
  {d : Diagnostic} {span : Span} {decls : List ClassDecl}

theorem walk_append : r.walk (ts ++ us) = (r.walk ts).bind (·.walk us) := List.foldlM_append

theorem walk_concat (h : r.walk ts = .ok r') : r.walk (ts ++ [t]) = r'.step t := by
  rw [walk_append, h]
  exact bind_pure (r'.step t)

theorem walk_known (h : r.walk ts = .ok r') :
    ∀ t ∈ ts, t.kind = .identifier ∨ t.text ∈ grammarWords := by
  induction ts generalizing r with
  | nil => exact List.forall_mem_nil _
  | cons t ts ih =>
    obtain ⟨next, step, walk⟩ := walk_cons_ok.1 h
    exact List.forall_mem_cons.2 ⟨step_known step, ih walk⟩

theorem run_append (h : r.walk ts = .ok r') :
    Reading.run span r (ts ++ us) = Reading.run span r' us := by
  induction ts generalizing r with
  | nil =>
    cases h
    rfl
  | cons t ts ih =>
    obtain ⟨next, step, walk⟩ := walk_cons_ok.1 h
    rw [List.cons_append, run_step step, ih walk]

theorem walk_of_reads (h : Reads span r (ts ++ us) decls) : ∃ r', r.walk ts = .ok r' := by
  induction ts generalizing r with
  | nil => exact ⟨r, rfl⟩
  | cons t ts ih =>
    obtain ⟨next, step, h⟩ := reads_cons.1 h
    obtain ⟨r', walk⟩ := ih h
    exact ⟨r', walk_cons_ok.2 ⟨next, step, walk⟩⟩

theorem walk_unplaced : r.unplaced.walk (ts.map Token.unplaced) =
    unplacedOutcome Reader.unplaced (r.walk ts) := by
  induction ts generalizing r with
  | nil => rfl
  | cons t ts ih =>
    rw [List.map_cons, walk_cons, walk_cons, step_unplaced]
    cases r.step t with
    | ok r' => exact ih
    | error d => rfl

/-! ## Viable tokens -/

/-- What has been taken is a name or a word of the grammar, so it holds an ASCII byte. -/
theorem ascii_of_walk (split : significant (tokenize source) = front ++ back)
    (h : Reader.start.walk front = .ok r) : ∀ t ∈ front, ∃ b ∈ t.text, b < 0x80 := by
  intro t ht
  obtain kind | known := walk_known h t ht
  · have name := tokenize_lexical source t (split ▸ List.mem_append_left _ ht) kind
    obtain ⟨b, hb⟩ := List.exists_mem_of_ne_nil _ name.1
    exact ⟨b, hb, lt_of_isWordByte (name.2 b hb)⟩
  · have all : ∀ w ∈ grammarWords, w.any (· < 0x80) = true := by decide
    obtain ⟨b, hb, low⟩ := List.any_eq_true.1 (all _ known)
    exact ⟨b, hb, of_decide_eq_true low⟩

/-- What has been taken is viable: the source can be cut behind it and continued with a text
that completes the program. -/
theorem viable_of_walk (split : significant (tokenize source) = front ++ back)
    (h : Reader.start.walk front = .ok r) : Viable front := by
  obtain ⟨text, continued⟩ := tokenize_cut split (ascii_of_walk split h)
  obtain ⟨others, tokens, lexemes⟩ := continued (spaced r.stage.closing)
  rw [words_spaced (closing_written r.stage)] at lexemes
  obtain ⟨decls, reads⟩ := completes r (.ofOffsets _ _) others lexemes
  refine ⟨_, decls, ?_, tokens ▸ List.prefix_append front others⟩
  rw [parse, readSource, readTokens, tokens, run_append h]
  exact reads

/-- No source that begins with the refused token and those before it is accepted, wherever they
stand. -/
theorem not_viable_of_refused (h : Reader.start.walk front = .ok r) (refused : r.step t = .error d)
    (same : us.map Token.lexeme = (front ++ [t]).map Token.lexeme) : ¬ Viable us := by
  rintro ⟨source, decls, accepted, more, tokens⟩
  have reads : Reads _ .start _ decls := accepted
  rw [← tokens] at reads
  obtain ⟨r', walk⟩ := walk_of_reads reads
  have unplaced (ts : List Token) :
      ts.map Token.unplaced = (ts.map Token.lexeme).map fun l => ⟨l.1, l.2, .nowhere⟩ := by
    rw [List.map_map]
    rfl
  have ends := @walk_unplaced .start us
  rw [unplaced us, same, ← unplaced, walk_unplaced, walk_concat h, refused, walk] at ends
  cases ends

/-! ## Parameters that are repeated -/

/-- What stands in front of the name of a parameter: the classes before, the beginning of its
own one and the other parameters. -/
structure ParamsHead where
  program : ProgramTree
  keyword : Terminal "class"
  name : Name
  opening : Terminal "<"
  params : List (Name × Terminal ",")

/-- The parameters, each with the comma after it. -/
def paramsYield (params : List (Name × Terminal ",")) : List Token :=
  params.flatMap fun p => [p.1.token, p.2.token]

def ParamsHead.yield (head : ParamsHead) : List Token :=
  head.program.yield ++
    head.keyword.token :: head.name.token :: head.opening.token :: paramsYield head.params

def ParamsHead.names (head : ParamsHead) : List Text := head.params.map (·.1.text)

/-- The last one of the tokens is the name of a parameter that its class has already. -/
def RepeatsParam (ts : List Token) : Prop :=
  ∃ (head : ParamsHead) (last : Name), ts = head.yield ++ [last.token] ∧ last.text ∈ head.names

/-- A program at the front of another one is one made of its first classes. -/
theorem program_prefix {program program' : ProgramTree} {rest : List Token}
    (h : program.yield ++ rest = program'.yield) (lexical : Lexical program'.yield) :
    ∃ others, program' = program ++ others := by
  induction program generalizing program' with
  | nil => exact ⟨program', rfl⟩
  | cons c program ih =>
    cases program' with
    | nil => simp [ProgramTree.yield, ClassTree.yield] at h
    | cons c' program' =>
      simp only [ProgramTree.yield, List.flatMap_cons, List.append_assoc] at h lexical
      obtain ⟨rfl, tail⟩ := ClassTree.unique c c' h (h ▸ lexical)
      obtain ⟨others, rfl⟩ := ih tail lexical.right
      exact ⟨others, rfl⟩

theorem distinct_of_viable {program : ProgramTree} {rest : List Token}
    (h : Viable (program.yield ++ rest)) : program.Distinct := by
  obtain ⟨source, decls, accepted, more, tokens⟩ := h
  have lexical := tokenize_lexical source
  obtain ⟨program', yield, distinct, -⟩ := (reads_iff lexical).1 accepted
  rw [← yield, List.append_assoc] at tokens
  obtain ⟨others, rfl⟩ := program_prefix tokens (yield ▸ lexical)
  exact fun c hc => distinct c (List.mem_append_left _ hc)

theorem run_known {cs : List ClassDecl} {start : Span} {name : Text} {known : List Text} (n : Name)
    (h : n.text ∈ known) : ∃ d, d.fault.code = 4 ∧
      (Reading.run span ⟨cs, .paramName start name known⟩ (n.token :: back)).result = .error d := by
  refine ⟨⟨.duplicateParam name n.text, n.token.span⟩, rfl, ?_⟩
  have refused : Reader.step ⟨cs, .paramName start name known⟩ n.token =
      .error ⟨.duplicateParam name n.text, n.token.span⟩ := if_pos ⟨n.identifier, h⟩
  rw [Reading.run, refused]
  rfl

/-- A name that is repeated is reported, or another one before it. -/
theorem run_repeated {cs : List ClassDecl} {start : Span} {name : Text} {known : List Text}
    {params : List (Name × Terminal ",")} {last : Name}
    (h : last.text ∈ known ++ params.map (·.1.text)) : ∃ d, d.fault.code = 4 ∧
      (Reading.run span ⟨cs, .paramName start name known⟩
        (paramsYield params ++ last.token :: back)).result = .error d := by
  induction params generalizing known with
  | nil =>
    rw [List.map_nil, List.append_nil] at h
    exact run_known last h
  | cons param params ih =>
    obtain ⟨n, comma⟩ := param
    by_cases repeated : n.text ∈ known
    · exact run_known n repeated
    · simp only [paramsYield, List.flatMap_cons, List.cons_append, List.nil_append]
      rw [run_step (fresh_step n repeated), run_first comma rfl]
      exact ih (by simpa using h)

/-- A parameter that is repeated is reported as such. -/
theorem code_of_repeatsParam (h : parse source = .error d)
    (tokens : significant (tokenize source) = front ++ t :: back) (viable : Viable front)
    (repeats : RepeatsParam (front ++ [t])) : d.fault.code = 4 := by
  obtain ⟨head, last, eq, known⟩ := repeats
  obtain ⟨rfl, end_eq⟩ := List.append_inj' eq rfl
  obtain ⟨rfl, -⟩ := List.cons.inj end_eq
  have lexical := tokenize_lexical source
  have distinct := distinct_of_viable viable
  simp only [ParamsHead.yield, List.append_assoc, List.cons_append] at tokens
  rw [tokens] at lexical
  rw [parse, readSource, readTokens, tokens, Reader.start, run_program distinct lexical,
    run_word head.keyword rfl, run_name head.name rfl, run_word head.opening rfl] at h
  obtain ⟨d', code, refused⟩ := run_repeated (List.mem_append_right [] known)
  rw [refused] at h
  cases h
  exact code

/-- What has been read, as far as no body of a class is open. -/
def Headed (front : List Token) : Stage → Prop
  | .between => ∃ program : ProgramTree, front = program.yield
  | .className _ => ∃ (program : ProgramTree) (keyword : Terminal "class"),
    front = program.yield ++ [keyword.token]
  | .paramsOpen _ name => ∃ (program : ProgramTree) (keyword : Terminal "class") (n : Name),
    front = program.yield ++ [keyword.token, n.token] ∧ name = n.text
  | .paramName _ name params => ∃ head : ParamsHead,
    front = head.yield ∧ name = head.name.text ∧ params = head.names
  | .paramNext _ name params => ∃ (head : ParamsHead) (last : Name),
    front = head.yield ++ [last.token] ∧ name = head.name.text ∧ params = head.names ++ [last.text]
  | _ => True

theorem headed_afterType {cls : OpenClass} {role : TypeRole} {stack : List OpenType}
    {type : TypeUse} : Headed front (.afterType cls role stack type) := by
  cases stack with
  | nil => cases role <;> trivial
  | cons => trivial

theorem take_headed (h : Headed front r.stage) (step : r.take t = .ok r')
    (inside : r'.stage ≠ .between) : Headed (front ++ [t]) r'.stage := by
  obtain ⟨classes, stage⟩ := r
  cases stage with
  | between =>
    obtain ⟨reads, rfl⟩ := word_ok step
    obtain ⟨program, rfl⟩ := h
    exact ⟨program, ⟨t, reads⟩, rfl⟩
  | className start =>
    obtain ⟨kind, rfl⟩ := identifier_eq_ok step
    obtain ⟨program, keyword, rfl⟩ := h
    exact ⟨program, keyword, ⟨t, kind⟩, by simp, rfl⟩
  | paramsOpen start name =>
    obtain ⟨reads, rfl⟩ := word_ok step
    obtain ⟨program, keyword, n, rfl, rfl⟩ := h
    exact ⟨⟨program, keyword, n, ⟨t, reads⟩, []⟩, by simp [ParamsHead.yield, paramsYield], rfl, rfl⟩
  | paramName start name params =>
    obtain ⟨head, rfl, rfl, rfl⟩ := h
    simp only [Reader.take] at step
    split at step
    · cases step
    · obtain ⟨kind, rfl⟩ := identifier_eq_ok step
      exact ⟨head, ⟨t, kind⟩, rfl, rfl, rfl⟩
  | paramNext start name params =>
    obtain ⟨head, last, rfl, rfl, rfl⟩ := h
    simp only [Reader.take] at step
    split at step
    · rename_i comma
      cases step
      refine ⟨{ head with params := head.params ++ [(last, ⟨t, comma⟩)] }, ?_, rfl, ?_⟩
      · simp [ParamsHead.yield, paramsYield]
      · simp [ParamsHead.names]
    · obtain ⟨-, rfl⟩ := word_ok step
      trivial
  | bodyOpen | typeName | methodOpen | methodEnd =>
    obtain ⟨-, rfl⟩ := word_ok step
    trivial
  | bounded | methodName =>
    obtain ⟨-, rfl⟩ := identifier_eq_ok step
    trivial
  | member =>
    simp only [Reader.take] at step
    split at step
    · cases step
      exact absurd rfl inside
    · obtain ⟨-, rfl⟩ := identifier_eq_ok step
      trivial
  | argument | methodParam =>
    simp only [Reader.take] at step
    split at step
    · cases step
      trivial
    · obtain ⟨-, rfl⟩ := identifier_eq_ok step
      trivial
  | bound =>
    simp only [Reader.take] at step
    split at step
    · cases step
      trivial
    · obtain ⟨-, rfl⟩ := word_ok step
      trivial
  | argumentNext =>
    simp only [Reader.take] at step
    split at step
    · cases step
      trivial
    · obtain ⟨-, rfl⟩ := word_ok step
      exact headed_afterType

theorem step_headed (h : Headed front r.stage) (step : r.step t = .ok r')
    (inside : r'.stage ≠ .between) : Headed (front ++ [t]) r'.stage := by
  obtain ⟨classes, stage⟩ := r
  cases stage with
  | typeName cls role stack name place =>
    simp only [Reader.step] at step
    split at step
    · exact take_headed h step inside
    · exact take_headed headed_afterType step inside
  | _ => exact take_headed h step inside

-- Between classes a whole program has been read, so the derivation gives it; at the other
-- stages of a head the last token extends what was read before it.
theorem walk_headed (h : Reader.start.walk front = .ok r) : Headed front r.stage := by
  induction front using List.reverseRecOn generalizing r with
  | nil =>
    cases h
    exact ⟨[], rfl⟩
  | append_singleton front t ih =>
    by_cases between : r.stage = .between
    · have reads : Reads .nowhere .start (front ++ [t]) r.classes := by
        unfold Reads
        rw [← List.append_nil (front ++ [t]), run_append h]
        exact reads_nil.2 ⟨between, rfl⟩
      obtain ⟨program, yield, -⟩ := reads_program _ reads
      rw [between]
      exact ⟨program, yield.symm⟩
    · cases walk : Reader.start.walk front with
      | error d =>
        rw [walk_append, walk] at h
        cases h
      | ok r' =>
        rw [walk_concat walk] at h
        exact step_headed (ih walk) h between

end

/-! ## What is said -/

/-- No `f` stands in front of a space, as it does in `found end of input`. -/
def Quiet (t : Text) : Prop := t.IsChain fun a b => ¬ (a = 0x66 ∧ b = 0x20)

instance (t : Text) : Decidable (Quiet t) := inferInstanceAs (Decidable (List.IsChain _ t))

theorem Quiet.silent {t : Text} (h : Quiet t) : ¬ Text.ofString "found end of input" <:+: t := by
  rintro ⟨before, after, rfl⟩
  have inner : Quiet "found end of input" := (List.IsChain.left_of_append h).right_of_append
  exact absurd inner (by decide)

theorem Quiet.of_notMem {t : Text} (h : 0x20 ∉ t) : Quiet t := by
  refine List.isChain_iff_forall_rel_of_append_cons_cons.2 ?_
  rintro a b before after rfl ⟨-, rfl⟩
  exact h (by simp)

theorem Quiet.append {t u : Text} (ht : Quiet t) (hu : Quiet u)
    (apart : t.getLast? ≠ some 0x66 ∨ u.head? ≠ some 0x20) : Quiet (t ++ u) := by
  refine List.isChain_append.2 ⟨ht, hu, ?_⟩
  rintro a ha b hb ⟨rfl, rfl⟩
  obtain apart | apart := apart
  · exact apart ha
  · exact apart hb

theorem Quiet.quoted {before name after : Text} (hb : Quiet before) (hn : 0x20 ∉ name)
    (ha : Quiet after) (opening : before.getLast? = some 0x27) (closing : after.head? = some 0x27) :
    Quiet (before ++ name ++ after) := by
  refine .append (.append hb (.of_notMem hn) (.inl ?_)) ha (.inr ?_)
  · rw [opening]
    decide
  · rw [closing]
    decide

theorem malformed_message {expected found : Text} (h : found ≠ []) :
    (Fault.malformed expected found).message =
      "malformed declaration: expected " ++ expected ++ ", found '" ++ found ++ "'" := by
  cases found with
  | nil => exact absurd rfl h
  | cons => rfl

theorem malformed_quiet (stage : Stage) {found : Text} (h : found ≠ []) (space : 0x20 ∉ found) :
    Quiet (Fault.malformed stage.expected found).message := by
  rw [malformed_message h]
  refine .quoted ?_ space (by decide) ?_ rfl
  · cases stage <;> simp only [Stage.expected] <;> decide
  · rw [List.getLast?_append_of_ne_nil _ (by decide)]
    decide

theorem duplicateParam_quiet {className param : Text} (hc : 0x20 ∉ className) (hp : 0x20 ∉ param) :
    Quiet (Fault.duplicateParam className param).message := by
  have inner : Quiet ("malformed declaration: type parameter '" ++ param ++
      "' is declared twice in class '") :=
    .quoted (by decide) hp (by decide) (by decide) (by decide)
  refine .quoted inner hc (by decide) ?_ rfl
  rw [List.getLast?_append_of_ne_nil _ (by decide)]
  decide

section
variable {r : Reader} {t : Token} {front back : List Token} {source : Text} {d : Diagnostic}

theorem refused_quiet (tokens : significant (tokenize source) = front ++ t :: back)
    (walk : Reader.start.walk front = .ok r) (refused : r.step t = .error d) :
    Quiet d.fault.message := by
  have known {u : Token} (hu : u ∈ significant (tokenize source)) :
      u ∈ tokenize source ∧ u.kind ≠ .whitespace := by
    obtain ⟨hu, kind⟩ := List.mem_filter.1 hu
    exact ⟨hu, of_decide_eq_true kind⟩
  have space {u : Token} (hu : u ∈ front ++ t :: back) : 0x20 ∉ u.text := by
    obtain ⟨hu, kind⟩ := known (tokens ▸ hu)
    exact space_notMem (lexeme_mem_of_mem hu) kind
  have here : t ∈ front ++ t :: back := by simp
  obtain ⟨stage, rfl⟩ | ⟨start, name, params, stage, -, -, rfl⟩ := step_error refused
  · exact malformed_quiet stage (text_ne_nil_of_mem (known (tokens ▸ here)).1) (space here)
  · have headed := walk_headed walk
    rw [stage] at headed
    obtain ⟨head, rfl, rfl, -⟩ := headed
    exact duplicateParam_quiet (space (by simp [ParamsHead.yield])) (space here)

end

/-- The wording names the end of the input. -/
def Diagnostic.SaysEnd (d : Diagnostic) : Prop :=
  Text.ofString "found end of input" <:+: d.fault.message

theorem malformed_saysEnd (expected : Text) (span : Span) :
    Diagnostic.SaysEnd ⟨.malformed expected [], span⟩ := by
  refine ⟨"malformed declaration: expected " ++ expected ++ ", ", [], ?_⟩
  have wording : Text.ofString ", found end of input" = ", " ++ "found end of input" := by decide
  simp only [Fault.message, wording, List.append_assoc, List.append_nil]

/-! ## The first impossible token -/

/-- The tokens up to the one at `i` belong to no program, and those before it do. -/
structure FirstImpossible (tokens : List Token) (i : Nat) : Prop where
  before : Viable (tokens.take i)
  /-- Wherever the tokens stand. -/
  through : ∀ us, us.map Token.lexeme = (tokens.take (i + 1)).map Token.lexeme → ¬ Viable us

section
variable {source : Text} {d : Diagnostic} {front back : List Token} {t : Token} {r : Reader}

theorem take_through (tokens : significant (tokenize source) = front ++ t :: back) :
    (significant (tokenize source)).take (front.length + 1) = front ++ [t] := by
  rw [tokens, List.append_cons]
  exact List.take_left' (by simp)

theorem refused_firstImpossible (tokens : significant (tokenize source) = front ++ t :: back)
    (walk : Reader.start.walk front = .ok r) (refused : r.step t = .error d) :
    FirstImpossible (significant (tokenize source)) front.length := by
  refine ⟨?_, fun us same => ?_⟩
  · rw [tokens, List.take_left]
    exact viable_of_walk tokens walk
  · rw [take_through tokens] at same
    exact not_viable_of_refused walk refused same

theorem refused_code (h : parse source = .error d)
    (tokens : significant (tokenize source) = front ++ t :: back)
    (walk : Reader.start.walk front = .ok r) (refused : r.step t = .error d) :
    d.fault.code = 4 ↔ RepeatsParam (front ++ [t]) := by
  constructor
  · intro code
    obtain ⟨stage, rfl⟩ | ⟨start, name, params, stage, kind, known, rfl⟩ := step_error refused
    · cases code
    · have headed := walk_headed walk
      rw [stage] at headed
      obtain ⟨head, rfl, -, rfl⟩ := headed
      exact ⟨head, ⟨t, kind⟩, rfl, known⟩
  · exact code_of_repeatsParam h tokens (viable_of_walk tokens walk)

theorem step_error_span (refused : r.step t = .error d) : d.span = t.span := by
  obtain ⟨stage, rfl⟩ | ⟨start, name, params, -, -, -, rfl⟩ := step_error refused <;> rfl

end

/-- **A source is rejected at the first token that is impossible.** The diagnostic at a token says
that no source with these tokens is accepted, while the ones before belong to some accepted
source, and names a repeated parameter just where there is one. Otherwise all tokens do, and it
says that the end of the input was found. -/
theorem parse_error_firstImpossible {source : Text} {d : Diagnostic} (h : parse source = .error d) :
    (∀ i t, (significant (tokenize source))[i]? = some t → d.span = t.span →
      FirstImpossible (significant (tokenize source)) i ∧
      (d.fault.code = 4 ↔ RepeatsParam ((significant (tokenize source)).take (i + 1))) ∧
      (d.fault.code = 1 ↔ ¬ RepeatsParam ((significant (tokenize source)).take (i + 1)))) ∧
    (Viable (significant (tokenize source)) →
      d.fault.code = 1 ∧ d.span = ⟨source.length + 1, source.length + 1⟩ ∧ d.SaysEnd) ∧
    (d.SaysEnd → Viable (significant (tokenize source))) ∧
    (Viable (significant (tokenize source)) ∨
      ∃ (i : Nat) (t : Token), (significant (tokenize source))[i]? = some t ∧ d.span = t.span) := by
  obtain ⟨front, t, back, r, tokens, walk, refused⟩ | ⟨r, walk, ended⟩ := run_error h
  · have first := refused_firstImpossible tokens walk refused
    have here : (significant (tokenize source))[front.length]? = some t := by simp [tokens]
    have code := refused_code h tokens walk refused
    have dead : ¬ Viable (significant (tokenize source)) := by
      rw [tokens, List.append_cons]
      exact fun viable => not_viable_of_refused walk refused rfl viable.front
    have quiet := refused_quiet tokens walk refused
    refine ⟨fun i u hi same => ?_, fun viable => absurd viable dead,
      fun told => absurd told quiet.silent, .inr ⟨_, t, here, step_error_span refused⟩⟩
    obtain rfl := index_eq_of_nodup (significant_nodup source) here hi
      ((step_error_span refused).symm.trans same)
    rw [take_through tokens, ← code]
    refine ⟨first, .rfl, ?_⟩
    obtain one | four := run_error_code h
    · simp [one]
    · simp [four]
  · obtain ⟨place, stage, fault⟩ := finish_error ended
    have viable : Viable (significant (tokenize source)) :=
      viable_of_walk (List.append_nil _).symm walk
    have told : d.SaysEnd := by
      rw [Diagnostic.SaysEnd, fault]
      exact malformed_saysEnd _ d.span
    refine ⟨fun i t hi same => ?_, fun _ => ⟨by rw [fault]; rfl, place, told⟩, fun _ => viable,
      .inl viable⟩
    -- The end of the input is at no token, since tokens are not empty.
    have long := start_lt_stop_of_mem (List.mem_of_mem_filter (List.mem_of_getElem? hi))
    rw [← same, place] at long
    exact absurd long (Int.lt_irrefl _)

/-- A class with one parameter twice. -/
def repeatedSource : Text := "class C<T, T> \x7b\x7d"

theorem parse_error_firstImpossible_repeated :
    parse repeatedSource = .error ⟨.duplicateParam "C" "T", ⟨12, 13⟩⟩ ∧
      FirstImpossible (significant (tokenize repeatedSource)) 5 ∧
      RepeatsParam ((significant (tokenize repeatedSource)).take 6) := by
  have found : (readSource repeatedSource).diagnostic =
      some ⟨.duplicateParam "C" "T", ⟨12, 13⟩⟩ := by decide +kernel
  have refused : parse repeatedSource = .error ⟨.duplicateParam "C" "T", ⟨12, 13⟩⟩ := by
    rw [parse, Reading.result, found]
  have token : (significant (tokenize repeatedSource))[5]? =
      some ⟨.identifier, "T", ⟨12, 13⟩⟩ := by decide +kernel
  obtain ⟨first, duplicate, -⟩ := (parse_error_firstImpossible refused).1 5 _ token rfl
  exact ⟨refused, first, duplicate.1 rfl⟩

end Polarity

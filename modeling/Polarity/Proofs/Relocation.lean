import Polarity.Proofs.Derivations

/-!
# Reading at other places

The machine copies the places of tokens, joins two of them to the stretch between them, and looks
at none; nor does it look at the classes it has read. So what it does to tokens at other places,
after other classes, is what it does at the start, moved to these places and put behind these
classes.

* `Relocation`: a way to move places that keeps the stretch between two of them;
* `ClassDecl.relocated`, `Reader.relocated`: everything at its new place;
* `step_relocated`: one token;
* `run_relocated`: all tokens.
-/

namespace Polarity

/-- A way to move places: the stretch between two of them is moved along. -/
structure Relocation where
  move : Span → Span
  between : ∀ first last, move (first.between last) = (move first).between (move last)

namespace Relocation

/-- All places move `n` bytes further. -/
def shift (n : Int) : Relocation := ⟨Span.shift n, fun _ _ => rfl⟩

/-- All places are forgotten. -/
def erase : Relocation := ⟨fun _ => .nowhere, fun _ _ => rfl⟩

end Relocation

/-! ## Everything at its new place -/

mutual

/-- A type at its new place. -/
def TypeUse.relocated (f : Relocation) : TypeUse → TypeUse
  | .mk name args span => .mk name (TypeArg.relocated f args) (f.move span)

def TypeArg.relocated (f : Relocation) : List TypeArg → List TypeArg
  | [] => []
  | (w, t) :: args => (w, t.relocated f) :: TypeArg.relocated f args

end

section
variable (f : Relocation)

def Method.relocated (m : Method) : Method :=
  ⟨m.returns.relocated f, m.name, m.params.map (TypeUse.relocated f), f.move m.span⟩

def ClassDecl.relocated (c : ClassDecl) : ClassDecl :=
  ⟨c.name, c.params, c.methods.map (Method.relocated f), f.move c.span⟩

def Token.relocated (t : Token) : Token := { t with span := f.move t.span }

def Diagnostic.relocated (d : Diagnostic) : Diagnostic := { d with span := f.move d.span }

def OpenType.relocated (o : OpenType) : OpenType :=
  ⟨o.name, f.move o.span, TypeArg.relocated f o.args, o.wildcard⟩

def OpenClass.relocated (c : OpenClass) : OpenClass :=
  ⟨f.move c.start, c.name, c.params, c.methods.map (Method.relocated f)⟩

def TypeRole.relocated : TypeRole → TypeRole
  | .result => .result
  | .param returns name params =>
    .param (returns.relocated f) name (params.map (TypeUse.relocated f))

def Stage.relocated : Stage → Stage
  | .between => .between
  | .className start => .className (f.move start)
  | .paramsOpen start name => .paramsOpen (f.move start) name
  | .paramName start name params => .paramName (f.move start) name params
  | .paramNext start name params => .paramNext (f.move start) name params
  | .bodyOpen start name params => .bodyOpen (f.move start) name params
  | .member cls => .member (cls.relocated f)
  | .argument cls role opened stack => .argument (cls.relocated f) (role.relocated f)
    (opened.relocated f) (stack.map (OpenType.relocated f))
  | .bound cls role opened stack => .bound (cls.relocated f) (role.relocated f)
    (opened.relocated f) (stack.map (OpenType.relocated f))
  | .bounded cls role opened stack => .bounded (cls.relocated f) (role.relocated f)
    (opened.relocated f) (stack.map (OpenType.relocated f))
  | .typeName cls role stack name span => .typeName (cls.relocated f) (role.relocated f)
    (stack.map (OpenType.relocated f)) name (f.move span)
  | .argumentNext cls role opened stack => .argumentNext (cls.relocated f) (role.relocated f)
    (opened.relocated f) (stack.map (OpenType.relocated f))
  | .methodName cls returns => .methodName (cls.relocated f) (returns.relocated f)
  | .methodOpen cls returns name => .methodOpen (cls.relocated f) (returns.relocated f) name
  | .methodParam cls returns name params =>
    .methodParam (cls.relocated f) (returns.relocated f) name (params.map (TypeUse.relocated f))
  | .methodEnd cls returns name params =>
    .methodEnd (cls.relocated f) (returns.relocated f) name (params.map (TypeUse.relocated f))

/-- Classes at their new places, behind `earlier` ones. -/
def relocatedAfter (earlier decls : List ClassDecl) : List ClassDecl :=
  earlier ++ decls.map (ClassDecl.relocated f)

/-- The machine at its new place, after it has read the classes `earlier`. -/
def Reader.relocated (earlier : List ClassDecl) (r : Reader) : Reader :=
  ⟨relocatedAfter f earlier r.classes, r.stage.relocated f⟩

/-- What came of taking tokens, at its new place. -/
def relocatedOutcome {α : Type} (g : α → α) : Except Diagnostic α → Except Diagnostic α
  | .ok a => .ok (g a)
  | .error d => .error (d.relocated f)

end

section
variable {f : Relocation}

theorem TypeArg.relocated_append (args args' : List TypeArg) :
    TypeArg.relocated f (args ++ args') = TypeArg.relocated f args ++ TypeArg.relocated f args' := by
  induction args with
  | nil => rfl
  | cons arg args ih => rw [List.cons_append, TypeArg.relocated, TypeArg.relocated, ih]; rfl

@[simp] theorem TypeUse.span_relocated (t : TypeUse) : (t.relocated f).span = f.move t.span := by
  obtain ⟨name, args, span⟩ := t
  rfl

theorem afterType_relocated (cls : OpenClass) (role : TypeRole) (stack : List OpenType)
    (type : TypeUse) : (Stage.afterType cls role stack type).relocated f =
      .afterType (cls.relocated f) (role.relocated f) (stack.map (OpenType.relocated f))
        (type.relocated f) := by
  cases stack with
  | nil =>
    cases role with
    | result => rfl
    | param returns name params => simp [Stage.afterType, Stage.relocated, TypeRole.relocated]
  | cons opened stack =>
    simp [Stage.afterType, Stage.relocated, OpenType.relocated, TypeArg.relocated_append,
      TypeArg.relocated]

theorem settled_relocated (stage : Stage) :
    stage.settled.relocated f = (stage.relocated f).settled := by
  cases stage with
  | typeName => exact afterType_relocated ..
  | _ => rfl

theorem expected_relocated (stage : Stage) : (stage.relocated f).expected = stage.expected := by
  cases stage <;> rfl

theorem expectedAtEnd_relocated (stage : Stage) :
    (stage.relocated f).expectedAtEnd = stage.expectedAtEnd := by
  cases stage <;> rfl

/-! ## One token -/

variable {earlier : List ClassDecl} (r : Reader) (t : Token)

theorem word_relocated {w : Text} {stage stage' : Stage} (h : stage' = stage.relocated f) :
    (r.relocated f earlier).word (t.relocated f) w stage' =
      relocatedOutcome f (Reader.relocated f earlier) (r.word t w stage) := by
  subst h
  by_cases reads : t.text = w
  · rw [Reader.word, Reader.word, if_pos reads, if_pos (show (t.relocated f).text = w from reads)]
    rfl
  · rw [Reader.word, Reader.word, if_neg reads, if_neg (show (t.relocated f).text ≠ w from reads),
      Reader.refusal, Reader.relocated, expected_relocated]
    rfl

theorem identifier_relocated {stage stage' : Stage} (h : stage' = stage.relocated f) :
    (r.relocated f earlier).identifier (t.relocated f) stage' =
      relocatedOutcome f (Reader.relocated f earlier) (r.identifier t stage) := by
  subst h
  by_cases kind : t.kind = .identifier
  · rw [Reader.identifier, Reader.identifier, if_pos kind,
      if_pos (show (t.relocated f).kind = .identifier from kind)]
    rfl
  · rw [Reader.identifier, Reader.identifier, if_neg kind,
      if_neg (show (t.relocated f).kind ≠ .identifier from kind), Reader.refusal, Reader.relocated,
      expected_relocated]
    rfl

theorem ite_relocated {P : Prop} [Decidable P] {a b a' b' : Except Diagnostic Reader}
    (ha : a' = relocatedOutcome f (Reader.relocated f earlier) a)
    (hb : b' = relocatedOutcome f (Reader.relocated f earlier) b) :
    (if P then a' else b') =
      relocatedOutcome f (Reader.relocated f earlier) (if P then a else b) := by
  split
  · exact ha
  · exact hb

theorem take_relocated : (r.relocated f earlier).take (t.relocated f) =
    relocatedOutcome f (Reader.relocated f earlier) (r.take t) := by
  obtain ⟨classes, stage⟩ := r
  cases stage with
  | between | paramsOpen | bodyOpen | methodOpen => exact word_relocated ⟨classes, _⟩ t rfl
  | className | bounded | methodName => exact identifier_relocated ⟨classes, _⟩ t rfl
  | paramName => exact ite_relocated rfl (identifier_relocated ⟨classes, _⟩ t rfl)
  | paramNext => exact ite_relocated rfl (word_relocated ⟨classes, _⟩ t rfl)
  | bound => exact ite_relocated rfl (word_relocated ⟨classes, _⟩ t rfl)
  | argument | methodParam => exact ite_relocated rfl (identifier_relocated ⟨classes, _⟩ t rfl)
  | typeName => exact word_relocated ⟨classes, _⟩ t rfl
  | member cls =>
    refine ite_relocated ?_ (identifier_relocated ⟨classes, _⟩ t rfl)
    simp [relocatedOutcome, Reader.relocated, relocatedAfter, Stage.relocated, ClassDecl.relocated,
      OpenClass.relocated, Token.relocated, f.between]
  | argumentNext cls role opened stack =>
    refine ite_relocated rfl (word_relocated ⟨classes, _⟩ t ?_)
    rw [afterType_relocated, TypeUse.relocated, f.between]
    rfl
  | methodEnd cls returns name params =>
    refine word_relocated ⟨classes, _⟩ t ?_
    simp [Stage.relocated, OpenClass.relocated, Method.relocated, Token.relocated, f.between]

/-- A token at another place, after other classes, is taken in the same way. -/
theorem step_relocated : (r.relocated f earlier).step (t.relocated f) =
    relocatedOutcome f (Reader.relocated f earlier) (r.step t) := by
  have taken := @take_relocated f earlier r t
  have takenSettled := @take_relocated f earlier { r with stage := r.stage.settled } t
  obtain ⟨classes, stage⟩ := r
  cases stage with
  | typeName cls role stack name place =>
    rw [Reader.relocated, settled_relocated] at takenSettled
    exact ite_relocated taken takenSettled
  | _ => exact taken

theorem finish_relocated (span : Span) : (r.relocated f earlier).finish (f.move span) =
    relocatedOutcome f (relocatedAfter f earlier) (r.finish span) := by
  have atEnd := expectedAtEnd_relocated (f := f) r.stage.settled
  obtain ⟨classes, stage⟩ := r
  cases stage with
  | typeName cls role stack name place =>
    rw [settled_relocated] at atEnd
    exact congrArg
      (fun expected => Except.error (Diagnostic.mk (.malformed expected []) (f.move span))) atEnd
  | _ => rfl

end

/-! ## All tokens -/

/-- **Reading is the same at other places and after other classes.** -/
theorem run_relocated (f : Relocation) (earlier : List ClassDecl) (span : Span) (r : Reader)
    (ts : List Token) :
    (Reading.run (f.move span) (r.relocated f earlier) (ts.map (Token.relocated f))).result =
      relocatedOutcome f (relocatedAfter f earlier) (Reading.run span r ts).result := by
  induction ts generalizing r with
  | nil =>
    rw [List.map_nil, Reading.run, Reading.run, finish_relocated]
    cases r.finish span <;> rfl
  | cons t ts ih =>
    rw [List.map_cons, Reading.run, Reading.run, step_relocated]
    cases r.step t with
    | ok r' => exact ih r'
    | error d => rfl

end Polarity

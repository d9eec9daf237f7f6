import Polarity.Constraint
import Polarity.Proofs.Printing

/-!
# What is shown can be told

Expressions, constraints and types are shown as texts only. Over classes that are read from sources
such a text says everything: names are followed by marks, each wildcard is one sign in front of a
name, and an operation inside an operation is in parentheses. So the part of a text that shows an
expression or a type ends at one place, whatever follows, and it shows nothing else.

* `TypeUse.Read`, `Expr.OfClasses`: types that are read, and expressions over their classes;
* `before_inj`: a type is told from what follows it;
* `ref_append_inj`: so is a reference to a parameter;
* `Expr.Delimited`, `Expr.OfClasses.delimited`: so is an operand;
* `text_append_inj`: so is an expression, unless an operator follows;
* `rendering_unambiguous`: equal texts show the same.
-/

namespace Polarity

/-! ## What is shown -/

/-- The class is read from some source. -/
def ClassDecl.Read (c : ClassDecl) : Prop :=
  ∃ source decls, parse source = .ok decls ∧ c ∈ decls

/-- The type is read from some source, by itself or inside another one. -/
def TypeUse.Read (t : TypeUse) : Prop :=
  ∃ source decls, parse source = .ok decls ∧ t ∈ ClassTable.nodes ⟨decls⟩

/-- An expression over variances and parameters of classes that are read. -/
def Expr.OfClasses : Expr → Prop
  | .literal _ => True
  | .param r => ∃ c : ClassDecl, c.Read ∧ ∃ p ∈ c.params, r = c.ref p
  | .transform l r | .join l r => l.OfClasses ∧ r.OfClasses
  | .absent | .occurrence _ => False

/-- Both sides are expressions over variances and parameters of classes that are read. -/
def Constraint.OfClasses (c : Constraint) : Prop := c.left.OfClasses ∧ c.right.OfClasses

theorem ClassDecl.Read.printable {c : ClassDecl} (h : c.Read) : c.Printable := by
  obtain ⟨source, decls, parsed, hc⟩ := h
  exact printable_of_parse parsed c hc

mutual

theorem TypeUse.Printable.of_mem_nodes : ∀ {t u : TypeUse}, t.Printable → u ∈ t.nodes → u.Printable
  | .mk _ _ _, _, h, hu => by
    obtain rfl | hu := List.mem_cons.1 hu
    · exact h
    · exact TypeArg.Printable.of_mem_nodes h.2 hu

theorem TypeArg.Printable.of_mem_nodes : ∀ {args : List TypeArg} {u : TypeUse},
    TypeArg.Printable args → u ∈ TypeArg.nodes args → u.Printable
  | [], _, _, hu => by cases hu
  | (_, _) :: _, _, h, hu => by
    obtain hu | hu := List.mem_append.1 hu
    · exact TypeUse.Printable.of_mem_nodes h.2.1 hu
    · exact TypeArg.Printable.of_mem_nodes h.2.2 hu

end

theorem TypeUse.Read.printable {t : TypeUse} (h : t.Read) : t.Printable := by
  obtain ⟨source, decls, parsed, ht⟩ := h
  obtain ⟨c, hc, ht⟩ := List.mem_flatMap.1 ht
  obtain ⟨outer, ho, ht⟩ := List.mem_flatMap.1 ht
  obtain ⟨m, hm, ho⟩ := List.mem_flatMap.1 ho
  have method := (printable_of_parse parsed c hc).methods m hm
  have whole : outer.Printable := by
    obtain rfl | ho := List.mem_cons.1 ho
    · exact method.returns
    · exact method.params outer ho
  exact whole.of_mem_nodes ht

/-! ## Types -/

/-- The text goes on neither with a name nor with type arguments. -/
def EndsType (rest : Text) : Prop := EndsWord rest ∧ rest.head? ≠ some 0x3C

theorem endsType_nil : EndsType [] := ⟨nofun, nofun⟩

theorem endsType_closing (rest : Text) : EndsType (">" ++ rest) :=
  ⟨endsWord_append (by decide) rest, by rw [List.head?_append_of_ne_nil _ (by decide)]; decide⟩

theorem endsType_comma (rest : Text) : EndsType (", " ++ rest) :=
  ⟨endsWord_append (by decide) rest, by rw [List.head?_append_of_ne_nil _ (by decide)]; decide⟩

theorem closing_ne_comma {rest rest' : Text} : Text.ofString ">" ++ rest ≠ ", " ++ rest' := by
  intro same
  have heads := congrArg List.head? same
  rw [List.head?_append_of_ne_nil _ (by decide), List.head?_append_of_ne_nil _ (by decide)] at heads
  exact absurd heads (by decide)

theorem wildcard_append_inj {w w' : Wildcard} (h : w.Printable) (h' : w'.Printable)
    {rest rest' : Text} (same : w.text ++ rest = w'.text ++ rest') : w = w' ∧ rest = rest' := by
  have sign {w : Wildcard} (h : w.Printable) : w.text.length = 1 := by
    obtain rfl | rfl | rfl := h <;> decide
  obtain ⟨signs, rests⟩ := List.append_inj same ((sign h).trans (sign h').symm)
  refine ⟨?_, rests⟩
  obtain rfl | rfl | rfl := h <;> obtain rfl | rfl | rfl := h' <;>
    first | rfl | exact absurd signs (by decide)

mutual

/-- A type is told from what goes on neither with its name nor with arguments. -/
theorem before_inj : ∀ {t u : TypeUse} {rest rest' : Text}, t.Printable → u.Printable →
    EndsType rest → EndsType rest' →
    t.before Wildcard.text rest = u.before Wildcard.text rest' →
    t.unplaced = u.unplaced ∧ rest = rest'
  | .mk name [] _, .mk name' [] _, rest, rest', h, h', ends, ends', same => by
    obtain ⟨rfl, rests⟩ := h.1.append_inj h'.1 ends.1 ends'.1 same
    exact ⟨rfl, rests⟩
  | .mk name [] _, .mk name' (arg' :: args') _, rest, rest', h, h', ends, _, same => by
    obtain ⟨-, rests⟩ := h.1.append_inj h'.1 ends.1 (endsWord_append (by decide) _) same
    exact absurd (congrArg List.head? rests) ends.2
  | .mk name (arg :: args) _, .mk name' [] _, rest, rest', h, h', _, ends', same => by
    obtain ⟨-, rests⟩ := h.1.append_inj h'.1 (endsWord_append (by decide) _) ends'.1 same
    exact absurd (congrArg List.head? rests.symm) ends'.2
  | .mk name (arg :: args) _, .mk name' (arg' :: args') _, rest, rest', h, h', _, _, same => by
    obtain ⟨rfl, applied⟩ := h.1.append_inj h'.1 (endsWord_append (by decide) _)
      (endsWord_append (by decide) _) same
    obtain ⟨inner, rests⟩ := args_before_inj (List.cons_ne_nil _ _) (List.cons_ne_nil _ _) h.2 h'.2
      (List.append_cancel_left applied)
    exact ⟨congrArg (TypeUse.mk name · .nowhere) inner, rests⟩

/-- So are type arguments, up to the bracket that closes them. -/
theorem args_before_inj : ∀ {args args' : List TypeArg} {rest rest' : Text}, args ≠ [] →
    args' ≠ [] → TypeArg.Printable args → TypeArg.Printable args' →
    TypeArg.before Wildcard.text args (">" ++ rest) =
      TypeArg.before Wildcard.text args' (">" ++ rest') →
    TypeArg.unplaced args = TypeArg.unplaced args' ∧ rest = rest'
  | [], _, _, _, ne, _, _, _, _ => absurd rfl ne
  | _ :: _, [], _, _, _, ne, _, _, _ => absurd rfl ne
  | [(w, t)], [(w', t')], rest, rest', _, _, h, h', same => by
    obtain ⟨rfl, types⟩ := wildcard_append_inj h.1 h'.1 same
    obtain ⟨inner, rests⟩ := before_inj h.2.1 h'.2.1 (endsType_closing _) (endsType_closing _) types
    exact ⟨congrArg (fun t => [(w, t)]) inner, List.append_cancel_left rests⟩
  | [(w, t)], (w', t') :: arg' :: args', rest, rest', _, _, h, h', same => by
    rw [args_before_cons] at same
    obtain ⟨rfl, types⟩ := wildcard_append_inj h.1 h'.1 same
    obtain ⟨-, rests⟩ := before_inj h.2.1 h'.2.1 (endsType_closing _) (endsType_comma _) types
    exact absurd rests closing_ne_comma
  | (w, t) :: arg :: args, [(w', t')], rest, rest', _, _, h, h', same => by
    rw [args_before_cons] at same
    obtain ⟨rfl, types⟩ := wildcard_append_inj h.1 h'.1 same
    obtain ⟨-, rests⟩ := before_inj h.2.1 h'.2.1 (endsType_comma _) (endsType_closing _) types
    exact absurd rests.symm closing_ne_comma
  | (w, t) :: arg :: args, (w', t') :: arg' :: args', rest, rest', _, _, h, h', same => by
    rw [args_before_cons, args_before_cons] at same
    obtain ⟨rfl, types⟩ := wildcard_append_inj h.1 h'.1 same
    obtain ⟨inner, others⟩ := before_inj h.2.1 h'.2.1 (endsType_comma _) (endsType_comma _) types
    obtain ⟨more, rests⟩ := args_before_inj (List.cons_ne_nil arg args)
      (List.cons_ne_nil arg' args') h.2.2 h'.2.2 (List.append_cancel_left others)
    exact ⟨congrArg₂ (fun t args => (w, t) :: args) inner more, rests⟩

end

/-! ## References -/

/-- Names with commas between them are told, up to the bracket that closes them. -/
theorem names_append_inj {names names' : List Text} (some_name : names ≠ []) (some_name' : names' ≠ [])
    (h : ∀ n ∈ names, IsName n) (h' : ∀ n ∈ names', IsName n) {rest rest' : Text}
    (same : Text.joined ", " names ++ (">" ++ rest) = Text.joined ", " names' ++ (">" ++ rest')) :
    names = names' ∧ rest = rest' := by
  induction names generalizing names' with
  | nil => exact absurd rfl some_name
  | cons n names ih =>
    cases names' with
    | nil => exact absurd rfl some_name'
    | cons n' names' =>
      obtain ⟨hn, hnames⟩ := List.forall_mem_cons.1 h
      obtain ⟨hn', hnames'⟩ := List.forall_mem_cons.1 h'
      have ends (rest : Text) : EndsWord (">" ++ rest) := (endsType_closing rest).1
      have ends' (rest : Text) : EndsWord (", " ++ rest) := (endsType_comma rest).1
      cases names with
      | nil =>
        cases names' with
        | nil =>
          obtain ⟨rfl, rests⟩ := hn.append_inj hn' (ends _) (ends _) same
          exact ⟨rfl, List.append_cancel_left rests⟩
        | cons m' names' =>
          simp only [Text.joined, List.append_assoc] at same
          obtain ⟨-, rests⟩ := hn.append_inj hn' (ends _) (ends' _) same
          exact absurd rests closing_ne_comma
      | cons m names =>
        cases names' with
        | nil =>
          simp only [Text.joined, List.append_assoc] at same
          obtain ⟨-, rests⟩ := hn.append_inj hn' (ends' _) (ends _) same
          exact absurd rests.symm closing_ne_comma
        | cons m' names' =>
          simp only [Text.joined, List.append_assoc] at same ih
          obtain ⟨rfl, rests⟩ := hn.append_inj hn' (ends' _) (ends' _) same
          obtain ⟨others, rests⟩ := ih (List.cons_ne_nil _ _) (List.cons_ne_nil m' names') hnames
            hnames' (List.append_cancel_left rests)
          exact ⟨congrArg (n :: ·) others, rests⟩

/-- A reference is told from what follows it. -/
theorem ref_append_inj {c c' : ClassDecl} (h : c.Printable) (h' : c'.Printable) {p p' : Text}
    (hp : p ∈ c.params) (hp' : p' ∈ c'.params) {rest rest' : Text}
    (same : (c.ref p).text ++ rest = (c'.ref p').text ++ rest') :
    c.ref p = c'.ref p' ∧ rest = rest' := by
  simp only [ParamRef.text, ClassDecl.ref, ClassDecl.signature, List.append_assoc] at same
  obtain ⟨rfl, afterParam⟩ := (h.params p hp).append_inj (h'.params p' hp')
    (endsType_comma _).1 (endsType_comma _).1 (List.append_cancel_left same)
  obtain ⟨name, afterName⟩ := h.name.append_inj h'.name (endsWord_append (by decide) _)
    (endsWord_append (by decide) _) (List.append_cancel_left afterParam)
  obtain ⟨params, rests⟩ := names_append_inj h.generic h'.generic h.params h'.params
    (List.append_cancel_left afterName)
  refine ⟨?_, List.append_cancel_left rests⟩
  rw [ClassDecl.ref, ClassDecl.ref, ClassDecl.signature, ClassDecl.signature, name, params]

/-! ## Expressions -/

namespace Expr

/-- The operators, as they are shown. -/
def operators : List Text := [" ⊗ ", " ⊔ "]

/-- The operands of an operation, and the operator between them. -/
def operation? : Expr → Option (Expr × Text × Expr)
  | .transform l r => some (l, " ⊗ ", r)
  | .join l r => some (l, " ⊔ ", r)
  | .absent | .literal _ | .param _ | .occurrence _ => none

variable {a b l r l' r' : Expr} {o o' rest rest' : Text}

theorem operator_mem (h : a.operation? = some (l, o, r)) : o ∈ operators := by
  cases a with
  | transform | join =>
    obtain ⟨rfl, rfl, rfl⟩ := h
    simp [operators]
  | _ => cases h

theorem operator_inj (h : o ∈ operators) (h' : o' ∈ operators) (same : o ++ rest = o' ++ rest') :
    o = o' ∧ rest = rest' := by
  have length : ∀ o ∈ operators, o.length = 5 := by decide
  exact List.append_inj same ((length o h).trans (length o' h').symm)

theorem OfClasses.operands (h : a.OfClasses) (ha : a.operation? = some (l, o, r)) :
    l.OfClasses ∧ r.OfClasses := by
  cases a with
  | transform | join =>
    obtain ⟨rfl, rfl, rfl⟩ := ha
    exact h
  | _ => cases ha

theorem eq_of_operation (ha : a.operation? = some (l, o, r)) (hb : b.operation? = some (l, o, r)) :
    a = b := by
  have differ : Text.ofString " ⊗ " ≠ " ⊔ " := by decide
  cases a <;> cases b <;> simp_all [operation?]

theorem textIn_of_operation (h : a.operation? = some (l, o, r)) (nested : Bool) :
    a.textIn nested = operation nested (l.textIn true) o (r.textIn true) := by
  cases a with
  | transform | join =>
    obtain ⟨rfl, rfl, rfl⟩ := h
    rfl
  | _ => cases h

theorem textIn_of_simple (h : a.operation? = none) (nested : Bool) : a.textIn nested = a.text := by
  cases a with
  | transform | join => cases h
  | _ => rfl

/-- The first byte of an operand. -/
def lead : Expr → UInt8
  | .absent => Text.byte 'n'
  | .literal .bivariant => Text.byte '*'
  | .literal .covariant => Text.byte '+'
  | .literal .contravariant => Text.byte '-'
  | .literal .invariant => Text.byte 'o'
  | .param _ | .occurrence _ => Text.byte 'v'
  | .transform .. | .join .. => Text.byte '('

theorem head_textIn (a : Expr) (rest : Text) : (a.textIn true ++ rest).head? = some a.lead := by
  cases a with
  | literal v => cases v <;> rfl
  | _ => rfl

theorem lead_eq (same : a.textIn true ++ rest = b.textIn true ++ rest') : a.lead = b.lead := by
  have heads := congrArg List.head? same
  rw [head_textIn, head_textIn] at heads
  exact Option.some.inj heads

theorem lead_literal (v : Variance) :
    (literal v).lead ≠ Text.byte 'v' ∧ (literal v).lead ≠ Text.byte '(' := by
  cases v <;> decide

theorem lead_of_operation (h : a.operation? = some (l, o, r)) : a.lead = Text.byte '(' := by
  cases a with
  | transform | join => rfl
  | _ => cases h

/-- As an operand, the expression is told from what follows it. -/
def Delimited (a : Expr) : Prop :=
  ∀ b rest rest', b.OfClasses → a.textIn true ++ rest = b.textIn true ++ rest' → a = b ∧ rest = rest'

theorem operands_inj (hl : l.Delimited) (hr : r.Delimited) (hl' : l'.OfClasses) (hr' : r'.OfClasses)
    (ho : o ∈ operators) (ho' : o' ∈ operators)
    (same : l.textIn true ++ (o ++ (r.textIn true ++ rest)) =
      l'.textIn true ++ (o' ++ (r'.textIn true ++ rest'))) :
    (l, o, r) = (l', o', r') ∧ rest = rest' := by
  obtain ⟨rfl, afterLeft⟩ := hl l' _ _ hl' same
  obtain ⟨rfl, afterOperator⟩ := operator_inj ho ho' afterLeft
  obtain ⟨rfl, rests⟩ := hr r' _ _ hr' afterOperator
  exact ⟨rfl, rests⟩

theorem delimited_literal (v : Variance) : (literal v).Delimited := by
  intro b rest rest' hb same
  have leads := lead_eq same
  cases b with
  | absent | occurrence => exact hb.elim
  | literal w =>
    have one (v : Variance) : v.symbol.length = 1 := by cases v <;> decide
    obtain ⟨symbols, rests⟩ := List.append_inj same ((one v).trans (one w).symm)
    refine ⟨?_, rests⟩
    cases v <;> cases w <;> first | rfl | exact absurd symbols (by decide)
  | param => exact absurd leads (lead_literal v).1
  | transform | join => exact absurd leads (lead_literal v).2

theorem delimited_param {c : ClassDecl} (h : c.Read) {p : Text} (hp : p ∈ c.params) :
    (param (c.ref p)).Delimited := by
  intro b rest rest' hb same
  have leads : Text.byte 'v' = b.lead := lead_eq same
  cases b with
  | absent | occurrence => exact hb.elim
  | literal w => exact absurd leads.symm (lead_literal w).1
  | param r =>
    obtain ⟨c', h', p', hp', rfl⟩ := hb
    obtain ⟨refs, rests⟩ := ref_append_inj h.printable h'.printable hp hp' same
    exact ⟨congrArg param refs, rests⟩
  | transform | join => exact absurd leads (by decide : Text.byte 'v' ≠ Text.byte '(')

/-- An operation is told by its parentheses, if its operands are told. -/
theorem delimited_operation (ha : a.operation? = some (l, o, r)) (hl : l.Delimited)
    (hr : r.Delimited) : a.Delimited := by
  intro b rest rest' hb same
  cases ob : b.operation? with
  | none =>
    have leads : Text.byte '(' = b.lead := (lead_of_operation ha).symm.trans (lead_eq same)
    cases b with
    | absent | occurrence => exact hb.elim
    | literal w => exact absurd leads.symm (lead_literal w).2
    | param => exact absurd leads (by decide : Text.byte '(' ≠ Text.byte 'v')
    | transform | join => cases ob
  | some parts =>
    obtain ⟨l', o', r'⟩ := parts
    rw [textIn_of_operation ha, textIn_of_operation ob] at same
    simp only [operation, ↓reduceIte, List.append_assoc] at same
    obtain ⟨hl', hr'⟩ := hb.operands ob
    obtain ⟨⟨rfl, rfl, rfl⟩, rests⟩ := operands_inj hl hr hl' hr' (operator_mem ha)
      (operator_mem ob) (List.append_cancel_left same)
    exact ⟨eq_of_operation ha ob, List.append_cancel_left rests⟩

theorem OfClasses.delimited (h : a.OfClasses) : a.Delimited := by
  induction a with
  | absent | occurrence => exact h.elim
  | literal v => exact delimited_literal v
  | param ref =>
    obtain ⟨c, read, p, hp, rfl⟩ := h
    exact delimited_param read hp
  | transform l r ihl ihr | join l r ihl ihr =>
    exact delimited_operation rfl (ihl h.1) (ihr h.2)

/-- The text does not go on with an operator. -/
def NoOperator (rest : Text) : Prop := ∀ o ∈ operators, ¬ o <+: rest

theorem noOperator_nil : NoOperator [] := by
  intro o ho within
  rw [List.prefix_nil.1 within] at ho
  exact absurd ho (by decide)

theorem noOperator_below (rest : Text) : NoOperator (" < " ++ rest) := by
  rintro o ho ⟨more, same⟩
  have long : ∀ o ∈ operators, 2 ≤ o.length := by decide
  have differ : ∀ o ∈ operators, o.take 2 ≠ " <" := by decide
  have begins := congrArg (List.take 2) same
  rw [List.take_append_of_le_length (long o ho), List.take_append_of_le_length (by decide)] at begins
  exact differ o ho begins

theorem text_of_operation (h : a.operation? = some (l, o, r)) :
    a.text ++ rest = l.textIn true ++ (o ++ (r.textIn true ++ rest)) := by
  rw [text, textIn_of_operation h]
  simp [operation]

theorem simple_append_ne (ha : a.OfClasses) (oa : a.operation? = none) (hb : b.OfClasses)
    (ob : b.operation? = some (l, o, r)) (hr : NoOperator rest) :
    a.text ++ rest ≠ b.text ++ rest' := by
  intro same
  rw [← textIn_of_simple oa true, text_of_operation ob] at same
  obtain ⟨-, rests⟩ := ha.delimited l _ _ (hb.operands ob).1 same
  exact hr o (operator_mem ob) ⟨_, rests.symm⟩

/-- An expression is told from what does not go on with an operator. -/
theorem text_append_inj (ha : a.OfClasses) (hb : b.OfClasses) (hr : NoOperator rest)
    (hr' : NoOperator rest') (same : a.text ++ rest = b.text ++ rest') : a = b ∧ rest = rest' := by
  cases oa : a.operation? with
  | none =>
    cases ob : b.operation? with
    | none =>
      rw [← textIn_of_simple oa true, ← textIn_of_simple ob true] at same
      exact ha.delimited b _ _ hb same
    | some parts => exact absurd same (simple_append_ne ha oa hb ob hr)
  | some parts =>
    cases ob : b.operation? with
    | none => exact absurd same.symm (simple_append_ne hb ob ha oa hr')
    | some parts' =>
      rw [text_of_operation oa, text_of_operation ob] at same
      obtain ⟨hl, hr⟩ := ha.operands oa
      obtain ⟨hl', hr'⟩ := hb.operands ob
      obtain ⟨parts_eq, rests⟩ := operands_inj hl.delimited hr.delimited hl' hr' (operator_mem oa)
        (operator_mem ob) same
      exact ⟨eq_of_operation oa (parts_eq ▸ ob), rests⟩

theorem text_inj (ha : a.OfClasses) (hb : b.OfClasses) (same : a.text = b.text) : a = b :=
  (text_append_inj ha hb noOperator_nil noOperator_nil (congrArg (· ++ []) same)).1

theorem OfClasses.same_self (h : a.OfClasses) : a.same a = true := by
  induction a with
  | absent | occurrence => exact h.elim
  | literal | param => exact beq_self_eq_true _
  | transform l r ihl ihr | join l r ihl ihr => rw [same, ihl h.1, ihr h.2, Bool.and_self]

end Expr

theorem constraint_text_inj {c c' : Constraint} (h : c.OfClasses) (h' : c'.OfClasses)
    (same : c.text = c'.text) : c.left = c'.left ∧ c.right = c'.right := by
  simp only [Constraint.text, List.append_assoc] at same
  obtain ⟨left, rests⟩ := Expr.text_append_inj h.1 h'.1 (Expr.noOperator_below _)
    (Expr.noOperator_below _) same
  exact ⟨left, Expr.text_inj h.2 h'.2 (List.append_cancel_left rests)⟩

/-- **Texts are unambiguous.** Expressions over classes that are read are the same when they are
shown as the same text, and so are the sides of constraints. Types that are read are equal up to
their places. -/
theorem rendering_unambiguous :
    (∀ a b : Expr, a.OfClasses → b.OfClasses → a.text = b.text → a.same b = true) ∧
    (∀ c c' : Constraint, c.OfClasses → c'.OfClasses → c.text = c'.text →
      c.left.same c'.left = true ∧ c.right.same c'.right = true) ∧
    ∀ t u : TypeUse, t.Read → u.Read → t.text = u.text → t.unplaced = u.unplaced := by
  refine ⟨fun a b ha hb shown => ?_, fun c c' hc hc' shown => ?_, fun t u ht hu shown => ?_⟩
  · obtain rfl := Expr.text_inj ha hb shown
    exact ha.same_self
  · obtain ⟨left, right⟩ := constraint_text_inj hc hc' shown
    rw [← left, ← right]
    exact ⟨hc.1.same_self, hc.2.same_self⟩
  · exact (before_inj ht.printable hu.printable endsType_nil endsType_nil shown).1

/-- A class in a dense layout. Some of its types are named like the sign of a wildcard. -/
def tightSource : Text := "class Fn<A,R>\x7bFn<?super o,Fn<A,oo>>f();\x7d"

/-- The same class in another layout. -/
def looseSource : Text := "class Fn < A, R > \x7b\n  Fn<? super o, Fn<A, oo>> f();\n\x7d"

def tightType : TypeUse :=
  .mk "Fn" [(.lower, .mk "o" [] ⟨25, 26⟩), (.bare, .mk "Fn" [(.bare, .mk "A" [] ⟨30, 31⟩),
    (.bare, .mk "oo" [] ⟨32, 34⟩)] ⟨27, 35⟩)] ⟨15, 36⟩

def looseType : TypeUse :=
  .mk "Fn" [(.lower, .mk "o" [] ⟨34, 35⟩), (.bare, .mk "Fn" [(.bare, .mk "A" [] ⟨40, 41⟩),
    (.bare, .mk "oo" [] ⟨43, 45⟩)] ⟨37, 46⟩)] ⟨23, 47⟩

def tightClass : ClassDecl := ⟨"Fn", ["A", "R"], [⟨tightType, "f", [], ⟨15, 40⟩⟩], ⟨1, 41⟩⟩

def looseClass : ClassDecl := ⟨"Fn", ["A", "R"], [⟨looseType, "f", [], ⟨23, 52⟩⟩], ⟨1, 54⟩⟩

/-- A bound on the parameter `A` of a class by an expression over it. -/
def sampleBound (c : ClassDecl) : Constraint :=
  ⟨.param (c.ref "A"),
    .transform (.join (.literal .invariant) (.param (c.ref "A"))) (.literal .contravariant), none⟩

theorem sampleBound_ofClasses {c : ClassDecl} (read : c.Read)
    (known : Text.ofString "A" ∈ c.params) : (sampleBound c).OfClasses := by
  have ref : (Expr.param (c.ref "A")).OfClasses := ⟨c, read, _, known, rfl⟩
  exact ⟨ref, ⟨trivial, ref⟩, trivial⟩

theorem rendering_unambiguous_layout :
    (sampleBound tightClass).text = "var(A, Fn<A, R>) < (o ⊔ var(A, Fn<A, R>)) ⊗ -" ∧
    tightType.text = "Fn<-o, oFn<oA, ooo>>" ∧
    (sampleBound tightClass).right.same (sampleBound looseClass).right = true ∧
    (sampleBound tightClass).left.same (sampleBound looseClass).left = true ∧
    tightType.unplaced = looseType.unplaced := by
  have tight : parse tightSource = .ok [tightClass] := rfl
  have loose : parse looseSource = .ok [looseClass] := rfl
  have bound := sampleBound_ofClasses ⟨tightSource, _, tight, .head _⟩ (.head _)
  have bound' := sampleBound_ofClasses ⟨looseSource, _, loose, .head _⟩ (.head _)
  obtain ⟨expressions, constraints, types⟩ := rendering_unambiguous
  refine ⟨by decide, by decide, expressions _ _ bound.2 bound'.2 rfl,
    (constraints _ _ bound bound' rfl).1, types _ _ ?_ ?_ (by decide)⟩
  · exact ⟨tightSource, _, tight, .head _⟩
  · exact ⟨looseSource, _, loose, .head _⟩

end Polarity

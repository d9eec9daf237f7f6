import Polarity.Expr
import Polarity.Proofs.Derivations

/-!
# Ranges identify types

The spans of types, methods and classes are nested as these are and follow each other
in their order, since each reaches from its first to its last token and tokens follow
each other. So the span of a type tells which type it is.

* `Ordered`: tokens stand in the source one after another;
* `Covers`: a span around the tokens of a phrase;
* `TypeUse.Ranged`, `Method.Ranged`, `ClassDecl.Ranged`: what stands inside what;
* `Site`: a parameter of a class and a type in its methods;
* `parse_ranges`: all of it, for what is read from a source.
-/

namespace Polarity

/-! ## Spans -/

namespace Span

/-- The bytes of a source that a span covers. -/
def bytes (source : Text) (s : Span) : Text :=
  (source.drop (s.start - 1).toNat).take (s.stop - s.start).toNat

/-- The span covers some bytes of the source. -/
structure InSource (source : Text) (s : Span) : Prop where
  first : 1 ≤ s.start
  some_byte : s.start < s.stop
  last : s.stop ≤ source.length + 1

/-- The span lies inside the outer one. -/
def Within (s outer : Span) : Prop := outer.start ≤ s.start ∧ s.stop ≤ outer.stop

/-- The outer span begins before the span and ends after it. -/
def StrictlyWithin (s outer : Span) : Prop := outer.start < s.start ∧ s.stop < outer.stop

/-- The span ends before the other one begins. -/
def Before (s later : Span) : Prop := s.stop ≤ later.start

theorem Within.trans {a b c : Span} (h : a.Within b) (h' : b.Within c) : a.Within c :=
  ⟨Int.le_trans h'.1 h.1, Int.le_trans h.2 h'.2⟩

theorem Within.refl (s : Span) : s.Within s := ⟨Int.le_refl _, Int.le_refl _⟩

theorem bytes_prefix {source : Text} {s outer : Span} (first : s.start = outer.start)
    (last : s.stop ≤ outer.stop) : s.bytes source <+: outer.bytes source := by
  rw [bytes, bytes, first]
  exact List.take_prefix_take_left (by omega)

end Span

/-! ## Tokens in order -/

/-- Tokens that stand in the source one after another. -/
structure Ordered (source : Text) (ts : List Token) : Prop where
  apart : ts.Pairwise fun t u => t.span.Before u.span
  inSource : ∀ t ∈ ts, t.span.InSource source
  text : ∀ t ∈ ts, t.span.bytes source = t.text

theorem Ordered.sublist {source : Text} {ts us : List Token} (h : Ordered source ts)
    (sub : us.Sublist ts) : Ordered source us :=
  ⟨h.apart.sublist sub, fun t ht => h.inSource t (sub.subset ht),
    fun t ht => h.text t (sub.subset ht)⟩

theorem tokenize_inSource {source : Text} {t : Token} (h : t ∈ tokenize source) :
    t.span.InSource source ∧ t.span.bytes source = t.text := by
  have long := start_lt_stop_of_mem h
  obtain ⟨before, after, text, span⟩ := tokenize_place h
  have size : source.length = before.length + (t.text.length + after.length) := by
    rw [text, List.length_append, List.length_append]
  refine ⟨⟨?_, long, ?_⟩, ?_⟩
  · rw [span]
    simp only [Span.ofOffsets]
    omega
  · rw [span]
    simp only [Span.ofOffsets]
    omega
  · have start : (t.span.start - 1).toNat = before.length := by
      rw [span]
      simp only [Span.ofOffsets]
      omega
    have length : (t.span.stop - t.span.start).toNat = t.text.length := by
      rw [span]
      simp only [Span.ofOffsets]
      omega
    rw [Span.bytes, start, length, text, List.drop_left]
    exact List.take_left

theorem significant_ordered (source : Text) : Ordered source (significant (tokenize source)) where
  apart := (tokenize_apart source).sublist List.filter_sublist
  inSource _ ht := (tokenize_inSource (List.mem_of_mem_filter ht)).1
  text _ ht := (tokenize_inSource (List.mem_of_mem_filter ht)).2

/-! ## The span of a phrase -/

/-- The span reaches from one of the tokens to another one, around all of them. -/
structure Covers (s : Span) (ts : List Token) : Prop where
  first : ∃ t ∈ ts, s.start = t.span.start
  last : ∃ t ∈ ts, s.stop = t.span.stop
  within : ∀ t ∈ ts, t.span.Within s

section
variable {source : Text} {s s' : Span} {ts us : List Token}

theorem Covers.inSource (h : Covers s ts) (ordered : Ordered source ts) : s.InSource source := by
  obtain ⟨t, ht, first⟩ := h.first
  obtain ⟨u, hu, last⟩ := h.last
  have around := h.within t ht
  have inside := ordered.inSource t ht
  refine ⟨?_, ?_, ?_⟩
  · rw [first]
    exact inside.first
  · exact Int.lt_of_le_of_lt around.1 (Int.lt_of_lt_of_le inside.some_byte around.2)
  · rw [last]
    exact (ordered.inSource u hu).last

theorem Covers.mono (h : Covers s us) (h' : Covers s' ts) (sub : us ⊆ ts) : s.Within s' := by
  obtain ⟨t, ht, first⟩ := h.first
  obtain ⟨u, hu, last⟩ := h.last
  refine ⟨?_, ?_⟩
  · rw [first]
    exact (h'.within t (sub ht)).1
  · rw [last]
    exact (h'.within u (sub hu)).2

theorem Covers.before (h : Covers s ts) (h' : Covers s' us)
    (apart : ∀ t ∈ ts, ∀ u ∈ us, t.span.Before u.span) : s.Before s' := by
  obtain ⟨t, ht, last⟩ := h.last
  obtain ⟨u, hu, first⟩ := h'.first
  rw [Span.Before, last, first]
  exact apart t ht u hu

variable {first last : Token} {inner : List Token}

/-- What stands between two tokens does not reach their outer ends, as tokens are not empty. -/
theorem inner_strictlyWithin (h : Ordered source (first :: (inner ++ [last]))) {t : Token}
    (ht : t ∈ inner) : t.span.StrictlyWithin (first.span.between last.span) := by
  obtain ⟨fromFirst, rest⟩ := List.pairwise_cons.1 h.apart
  obtain ⟨-, -, toLast⟩ := List.pairwise_append.1 rest
  have atFirst := (h.inSource first (.head _)).some_byte
  have atLast := (h.inSource last (.tail _ (List.mem_append_right _ (.head _)))).some_byte
  exact ⟨Int.lt_of_lt_of_le atFirst (fromFirst t (List.mem_append_left _ ht)),
    Int.lt_of_le_of_lt (toLast t ht last (.head _)) atLast⟩

theorem covers_between (h : Ordered source (first :: (inner ++ [last]))) :
    Covers (first.span.between last.span) (first :: (inner ++ [last])) := by
  have here : last ∈ first :: (inner ++ [last]) := .tail _ (List.mem_append_right _ (.head _))
  have ends : first.span.Before last.span :=
    (List.pairwise_cons.1 h.apart).1 last (List.mem_append_right _ (.head _))
  have atFirst := (h.inSource first (.head _)).some_byte
  have atLast := (h.inSource last here).some_byte
  refine ⟨⟨first, .head _, rfl⟩, ⟨last, here, rfl⟩, List.forall_mem_cons.2 ⟨?_, ?_⟩⟩
  · exact ⟨Int.le_refl _, Int.le_trans ends (Int.le_of_lt atLast)⟩
  · intro t ht
    obtain ht | ht := List.mem_append.1 ht
    · have strict := inner_strictlyWithin h ht
      exact ⟨Int.le_of_lt strict.1, Int.le_of_lt strict.2⟩
    · obtain rfl := List.mem_singleton.1 ht
      exact ⟨Int.le_trans (Int.le_of_lt atFirst) ends, Int.le_refl _⟩

theorem strictlyWithin_between (h : Ordered source (first :: (inner ++ [last])))
    (covers : Covers s us) (sub : us ⊆ inner) :
    s.StrictlyWithin (first.span.between last.span) := by
  obtain ⟨t, ht, start⟩ := covers.first
  obtain ⟨u, hu, stop⟩ := covers.last
  refine ⟨?_, ?_⟩
  · rw [start]
    exact (inner_strictlyWithin h (sub ht)).1
  · rw [stop]
    exact (inner_strictlyWithin h (sub hu)).2

/-- Phrases that follow each other cover spans that follow each other. -/
theorem siblings_before {α : Type} {yield : α → List Token} {span : α → Span} {as : List α}
    (covers : ∀ a ∈ as, Covers (span a) (yield a)) (h : Ordered source (as.flatMap yield)) :
    (as.map span).Pairwise Span.Before := by
  obtain ⟨-, apart⟩ := List.pairwise_flatMap.1 h.apart
  rw [List.pairwise_map]
  exact apart.imp_of_mem fun ha hb apart => (covers _ ha).before (covers _ hb) apart

end

/-! ## Types -/

/-- A type stands where its name does, with its arguments inside and one after another. -/
structure TypeUse.Ranged (source : Text) (t : TypeUse) : Prop where
  inSource : t.span.InSource source
  name : t.name <+: t.span.bytes source
  args : ∀ arg ∈ t.args, arg.2.span.StrictlyWithin t.span
  apart : (t.args.map (·.2.span)).Pairwise Span.Before

/-- The type of a type argument. -/
def ArgTree.type : ArgTree → TypeTree
  | .bare type | .marked _ _ type => type

/-- The types of type arguments. -/
def ArgsTree.types : ArgsTree → List TypeTree
  | .last arg => [arg.type]
  | .more arg _ rest => arg.type :: rest.types

theorem ArgTree.ast_type (a : ArgTree) : a.ast.2 = a.type.ast := by
  cases a <;> rfl

theorem ArgTree.type_sublist (a : ArgTree) : a.type.yield.Sublist a.yield := by
  cases a with
  | bare type => exact List.Sublist.refl _
  | marked mark bound type => exact .cons _ (.cons _ (List.Sublist.refl _))

theorem ArgsTree.ast_types : ∀ a : ArgsTree, a.ast.map (·.2) = a.types.map TypeTree.ast
  | .last arg => congrArg (fun type => [type]) arg.ast_type
  | .more arg _ rest => congrArg₂ List.cons arg.ast_type rest.ast_types

theorem ArgsTree.types_sublist : ∀ a : ArgsTree, (a.types.flatMap TypeTree.yield).Sublist a.yield
  | .last arg => by
    rw [ArgsTree.types, List.flatMap_singleton]
    exact arg.type_sublist
  | .more arg _ rest => by
    rw [ArgsTree.types, List.flatMap_cons]
    exact arg.type_sublist.append (.cons _ rest.types_sublist)

theorem yield_sublist {α : Type} {yield : α → List Token} {as : List α} {a : α} (ha : a ∈ as) :
    (yield a).Sublist (as.flatMap yield) := by
  rw [List.flatMap_def]
  exact List.sublist_flatten_of_mem (List.mem_map_of_mem ha)

theorem ArgsTree.type_sublist (a : ArgsTree) {t : TypeTree} (ht : t ∈ a.types) :
    t.yield.Sublist a.yield := (yield_sublist ht).trans a.types_sublist

section
variable {source : Text}

theorem TypeTree.covers (t : TypeTree) (h : Ordered source t.yield) :
    Covers t.ast.span t.yield := by
  cases t with
  | plain name =>
    refine ⟨⟨name.token, .head _, rfl⟩, ⟨name.token, .head _, rfl⟩, fun t ht => ?_⟩
    obtain rfl := List.mem_singleton.1 ht
    exact .refl _
  | applied name opening args closing =>
    exact @covers_between source name.token closing.token (opening.token :: args.yield) h

theorem TypeTree.start_eq (t : TypeTree) : t.ast.span.start = t.head.token.span.start := by
  cases t <;> rfl

theorem TypeTree.name_prefix (t : TypeTree) (h : Ordered source t.yield) :
    t.ast.name <+: t.ast.span.bytes source := by
  have atHead : t.head.token ∈ t.yield := by
    rw [t.yield_eq]
    exact .head _
  have name : t.ast.name = t.head.token.text := by cases t <;> rfl
  rw [name, ← h.text _ atHead]
  exact Span.bytes_prefix t.start_eq.symm ((t.covers h).within _ atHead).2

theorem TypeTree.ranged (t : TypeTree) (h : Ordered source t.yield) : t.ast.Ranged source := by
  refine ⟨(t.covers h).inSource h, t.name_prefix h, ?_, ?_⟩
  · cases t with
    | plain name => exact List.forall_mem_nil _
    | applied name opening args closing =>
      intro arg harg
      have known : arg.2 ∈ args.ast.map (·.2) := List.mem_map_of_mem harg
      rw [args.ast_types] at known
      obtain ⟨type, ht, eq⟩ := List.mem_map.1 known
      rw [← eq]
      have ordered : Ordered source
          (name.token :: ((opening.token :: args.yield) ++ [closing.token])) := h
      have sub := args.type_sublist ht
      have inside : type.yield.Sublist (opening.token :: args.yield) := .cons _ sub
      exact strictlyWithin_between ordered
        (type.covers (ordered.sublist (.cons _ (inside.trans (List.sublist_append_left _ _)))))
        inside.subset
  · cases t with
    | plain name => exact .nil
    | applied name opening args closing =>
      have ordered : Ordered source args.yield :=
        h.sublist (.cons _ (.cons _ (List.sublist_append_left _ _)))
      have spans : args.ast.map (·.2.span) = args.types.map (·.ast.span) := by
        have same := congrArg (List.map TypeUse.span) args.ast_types
        rwa [List.map_map, List.map_map] at same
      rw [TypeTree.ast, TypeUse.args, spans]
      exact siblings_before (fun t ht => t.covers (ordered.sublist (args.type_sublist ht)))
        (ordered.sublist args.types_sublist)

-- The types inside an argument lie in the span of the argument, and that lies in the span of the
-- type around it.
mutual

theorem TypeTree.nodes_ranged : ∀ t : TypeTree, Ordered source t.yield →
    ∀ u ∈ t.ast.nodes, u.Ranged source ∧ u.span.Within t.ast.span
  | .plain name, h, u, hu => by
    obtain rfl := List.mem_singleton.1 hu
    exact ⟨TypeTree.ranged (.plain name) h, .refl _⟩
  | .applied name opening args closing, h, u, hu => by
    obtain rfl | hu := List.mem_cons.1 hu
    · exact ⟨TypeTree.ranged (.applied name opening args closing) h, .refl _⟩
    · have inner : args.yield.Sublist (TypeTree.applied name opening args closing).yield :=
        .cons _ (.cons _ (List.sublist_append_left _ _))
      obtain ⟨ranged, type, ht, within⟩ := args.nodes_ranged (h.sublist inner) u hu
      have sub := (args.type_sublist ht).trans inner
      exact ⟨ranged, within.trans ((type.covers (h.sublist sub)).mono
        (TypeTree.covers (.applied name opening args closing) h) sub.subset)⟩

theorem ArgsTree.nodes_ranged : ∀ a : ArgsTree, Ordered source a.yield →
    ∀ u ∈ TypeArg.nodes a.ast, u.Ranged source ∧ ∃ t ∈ a.types, u.span.Within t.ast.span
  | .last arg, h, u, hu => by
    rw [ArgsTree.ast, TypeArg.nodes, TypeArg.nodes, List.append_nil] at hu
    obtain ⟨ranged, within⟩ := arg.nodes_ranged h u hu
    exact ⟨ranged, arg.type, .head _, within⟩
  | .more arg comma rest, h, u, hu => by
    obtain hu | hu := List.mem_append.1 hu
    · obtain ⟨ranged, within⟩ :=
        arg.nodes_ranged (h.sublist (List.sublist_append_left _ _)) u hu
      exact ⟨ranged, arg.type, .head _, within⟩
    · obtain ⟨ranged, type, ht, within⟩ :=
        rest.nodes_ranged (h.sublist ((List.sublist_cons_self _ _).trans
          (List.sublist_append_right _ _))) u hu
      exact ⟨ranged, type, .tail _ ht, within⟩

theorem ArgTree.nodes_ranged : ∀ a : ArgTree, Ordered source a.yield →
    ∀ u ∈ a.ast.2.nodes, u.Ranged source ∧ u.span.Within a.type.ast.span
  | .bare type, h => type.nodes_ranged h
  | .marked _ _ type, h => type.nodes_ranged (h.sublist (.cons _ (.cons _ (List.Sublist.refl _))))

end

end

/-! ## Methods and classes -/

/-- A method stands around its types, which stand one after another. -/
structure Method.Ranged (source : Text) (m : Method) : Prop where
  inSource : m.span.InSource source
  types : ∀ t ∈ m.types, ∀ u ∈ t.nodes, u.Ranged source ∧ u.span.Within m.span
  apart : (m.types.map TypeUse.span).Pairwise Span.Before

/-- A class stands around its methods, which stand one after another. -/
structure ClassDecl.Ranged (source : Text) (c : ClassDecl) : Prop where
  inSource : c.span.InSource source
  methods : ∀ m ∈ c.methods, m.Ranged source ∧ m.span.Within c.span
  apart : (c.methods.map Method.span).Pairwise Span.Before

section
variable {source : Text}

theorem MethodTree.covers (m : MethodTree) (h : Ordered source m.yield) :
    Covers m.ast.span m.yield := by
  have split : m.yield = m.returns.head.token :: (m.returns.tail ++ m.name.token ::
      m.opening.token :: (m.params.flatMap TypeTree.yield ++ [m.closing.token]) ++
        [m.ending.token]) := by
    simp [MethodTree.yield, TypeTree.yield_eq]
  have span : m.ast.span = m.returns.head.token.span.between m.ending.token.span := by
    simp only [MethodTree.ast, Span.between, TypeTree.start_eq]
  rw [span, split]
  exact covers_between (split ▸ h)

theorem MethodTree.types_sublist (m : MethodTree) :
    ((m.returns :: m.params).flatMap TypeTree.yield).Sublist m.yield := by
  rw [List.flatMap_cons, MethodTree.yield]
  exact (List.Sublist.refl _).append (.cons _ (.cons _ (List.sublist_append_left _ _)))

theorem MethodTree.ranged (m : MethodTree) (h : Ordered source m.yield) : m.ast.Ranged source := by
  have types : m.ast.types = (m.returns :: m.params).map TypeTree.ast := rfl
  have sub {t : TypeTree} (ht : t ∈ m.returns :: m.params) : t.yield.Sublist m.yield :=
    (yield_sublist ht).trans m.types_sublist
  refine ⟨(m.covers h).inSource h, ?_, ?_⟩
  · rw [types]
    refine List.forall_mem_map.2 fun t ht u hu => ?_
    obtain ⟨ranged, within⟩ := t.nodes_ranged (h.sublist (sub ht)) u hu
    exact ⟨ranged, within.trans
      ((t.covers (h.sublist (sub ht))).mono (m.covers h) (sub ht).subset)⟩
  · rw [types, List.map_map]
    exact siblings_before (fun t ht => t.covers (h.sublist (sub ht))) (h.sublist m.types_sublist)

theorem ClassTree.covers (c : ClassTree) (h : Ordered source c.yield) :
    Covers c.ast.span c.yield := by
  have split : c.yield = c.keyword.token :: (c.name.token :: c.opening.token :: (c.params.yield ++
      c.closing.token :: c.bodyOpening.token :: c.methods.flatMap MethodTree.yield) ++
        [c.bodyClosing.token]) := by
    simp [ClassTree.yield]
  rw [split]
  exact covers_between (split ▸ h)

theorem ClassTree.methods_sublist (c : ClassTree) :
    (c.methods.flatMap MethodTree.yield).Sublist c.yield := by
  rw [ClassTree.yield]
  have body : (c.methods.flatMap MethodTree.yield).Sublist
      (c.closing.token :: c.bodyOpening.token ::
        (c.methods.flatMap MethodTree.yield ++ [c.bodyClosing.token])) :=
    .cons _ (.cons _ (List.sublist_append_left _ _))
  exact .cons _ (.cons _ (.cons _ (List.sublist_append_of_sublist_right body)))

theorem ClassTree.ranged (c : ClassTree) (h : Ordered source c.yield) : c.ast.Ranged source := by
  have sub {m : MethodTree} (hm : m ∈ c.methods) : m.yield.Sublist c.yield :=
    (yield_sublist hm).trans c.methods_sublist
  refine ⟨(c.covers h).inSource h, ?_, ?_⟩
  · refine List.forall_mem_map.2 fun m hm => ⟨m.ranged (h.sublist (sub hm)), ?_⟩
    exact (m.covers (h.sublist (sub hm))).mono (c.covers h) (sub hm).subset
  · rw [ClassTree.ast, List.map_map]
    exact siblings_before (fun m hm => m.covers (h.sublist (sub hm))) (h.sublist c.methods_sublist)

end

/-! ## Sources -/

/-- The types of a class, in source order, each before its arguments. -/
def ClassDecl.nodes (c : ClassDecl) : List TypeUse := c.types.flatMap TypeUse.nodes

/-- Where a parameter may occur: a class, one of its parameters and one of the types in its
methods, by their numbers. -/
structure Site where
  cls : Nat
  param : Nat
  node : Nat

/-- The occurrence of the parameter in the type. -/
def Site.occurrence (decls : List ClassDecl) (s : Site) : Option Occurrence :=
  decls[s.cls]?.bind fun c =>
    c.params[s.param]?.bind fun param => c.nodes[s.node]?.map fun type => ⟨param, type⟩

theorem Site.occurrence_eq_some {decls : List ClassDecl} {s : Site} {o : Occurrence} :
    s.occurrence decls = some o ↔ ∃ c, decls[s.cls]? = some c ∧ c.params[s.param]? = some o.param ∧
      c.nodes[s.node]? = some o.type := by
  obtain ⟨param, type⟩ := o
  simp only [Site.occurrence, Option.bind_eq_some_iff, Option.map_eq_some_iff, Occurrence.mk.injEq]
  constructor
  · rintro ⟨c, hc, p, hp, t, ht, rfl, rfl⟩
    exact ⟨c, hc, hp, ht⟩
  · rintro ⟨c, hc, hp, ht⟩
    exact ⟨c, hc, param, hp, type, ht, rfl, rfl⟩

section
variable {decls : List ClassDecl}

/-- Types of different classes begin at different places. -/
theorem class_index_eq
    (increasing : ((decls.flatMap ClassDecl.nodes).map (·.span.start)).Pairwise (· < ·))
    {i j : Nat} {c d : ClassDecl} (hc : decls[i]? = some c) (hd : decls[j]? = some d)
    {t u : TypeUse} (ht : t ∈ c.nodes) (hu : u ∈ d.nodes) (same : t.span = u.span) : i = j := by
  rw [List.pairwise_map] at increasing
  have apart := List.pairwise_iff_getElem.1 (List.pairwise_flatMap.1 increasing).2
  obtain ⟨hi, rfl⟩ := List.getElem?_eq_some_iff.1 hc
  obtain ⟨hj, rfl⟩ := List.getElem?_eq_some_iff.1 hd
  have starts : t.span.start = u.span.start := congrArg Span.start same
  obtain lt | eq | lt := Nat.lt_trichotomy i j
  · exact absurd starts (Int.ne_of_lt (apart i j hi hj lt t ht u hu))
  · exact eq
  · exact absurd starts.symm (Int.ne_of_lt (apart j i hj hi lt u hu t ht))

theorem nodup_of_increasing {types : List TypeUse}
    (increasing : (types.map (·.span.start)).Pairwise (· < ·)) :
    (types.map TypeUse.span).Nodup := by
  rw [List.pairwise_map] at increasing
  exact List.pairwise_map.2
    (increasing.imp fun lt same => Int.ne_of_lt lt (congrArg Span.start same))

theorem site_eq_of_key (placed : Placed ⟨decls⟩) {s s' : Site} {o o' : Occurrence}
    (h : s.occurrence decls = some o) (h' : s'.occurrence decls = some o') (same : o.key = o'.key) :
    s = s' := by
  obtain ⟨c, hc, param, node⟩ := Site.occurrence_eq_some.1 h
  obtain ⟨c', hc', param', node'⟩ := Site.occurrence_eq_some.1 h'
  have params : o.param = o'.param := congrArg OccurrenceKey.param same
  have spans : o.type.span = o'.type.span := congrArg OccurrenceKey.span same
  -- The span tells the class, and then the parameter and the type are found in it.
  have cls := class_index_eq placed.increasing hc hc' (List.mem_of_getElem? node)
    (List.mem_of_getElem? node') spans
  rw [cls, hc'] at hc
  obtain rfl := Option.some.inj hc
  have here : c' ∈ decls := List.mem_of_getElem? hc'
  have own : (c'.nodes.map (·.span.start)).Pairwise (· < ·) := by
    have increasing := List.pairwise_map.1 placed.increasing
    exact List.pairwise_map.2 ((List.pairwise_flatMap.1 increasing).1 c' here)
  have paramIndex : s.param = s'.param := by
    have nodup := placed.distinct c' here
    exact index_eq_of_nodup (f := id) (by simpa using nodup) param param' params
  have nodeIndex := index_eq_of_nodup (nodup_of_increasing own) node node' spans
  obtain ⟨i, k, j⟩ := s
  obtain ⟨i', k', j'⟩ := s'
  exact congr (congrArg₂ Site.mk cls paramIndex) nodeIndex

end

/-- Types, methods and classes stand in the source as they are nested and in order. -/
structure Ranges (source : Text) (decls : List ClassDecl) : Prop where
  /-- Types begin further and further on, each before its arguments. -/
  increasing : ((decls.flatMap ClassDecl.nodes).map (·.span.start)).Pairwise (· < ·)
  classes : ∀ c ∈ decls, c.Ranged source
  apart : (decls.map ClassDecl.span).Pairwise Span.Before
  /-- No two types have one span. -/
  distinct : ((decls.flatMap ClassDecl.nodes).map TypeUse.span).Nodup
  /-- The key of an occurrence tells the class, its parameter and the type. -/
  key : ∀ (s s' : Site) (o o' : Occurrence), s.occurrence decls = some o →
    s'.occurrence decls = some o' → o.key = o'.key → s = s'

/-- **Ranges identify types**: in what is read from a source, spans are nested and ordered as
what they belong to, so the key of an occurrence belongs to one parameter and one type only. -/
theorem parse_ranges {source : Text} {decls : List ClassDecl} (h : parse source = .ok decls) :
    Ranges source decls := by
  have placed := placed_of_parse h
  have ordered := significant_ordered source
  obtain ⟨program, yield, -, rfl⟩ := (reads_iff (tokenize_lexical source)).1 h
  rw [← yield] at ordered
  have each {c : ClassTree} (hc : c ∈ program) : Ordered source c.yield :=
    ordered.sublist (yield_sublist hc)
  refine ⟨placed.increasing, List.forall_mem_map.2 fun c hc => c.ranged (each hc), ?_,
    nodup_of_increasing placed.increasing, fun s s' o o' => site_eq_of_key placed⟩
  rw [ProgramTree.ast, List.map_map]
  exact siblings_before (fun c hc => c.covers (each hc)) ordered

/-- Types inside types, and equal types side by side. -/
def nestedSource : Text :=
  "class A<T> \x7b B<? extends A<T>, T> m(T T); \x7d class B<T, U> \x7b T n(); \x7d"

theorem parse_ranges_nested : parse nestedSource = .ok (readSource nestedSource).classes ∧
    ((readSource nestedSource).classes.flatMap ClassDecl.nodes).length = 7 ∧
    Ranges nestedSource (readSource nestedSource).classes := by
  have read : (readSource nestedSource).diagnostic = none ∧
      ((readSource nestedSource).classes.flatMap ClassDecl.nodes).length = 7 := by decide +kernel
  have parsed : parse nestedSource = .ok (readSource nestedSource).classes := by
    rw [parse, Reading.result, read.1]
  exact ⟨parsed, read.2, parse_ranges parsed⟩

end Polarity

import Polarity.Proofs.Encoding
import Polarity.Token

/-!
# Characters and their bytes

A character is read from its own bytes, whatever follows them. So a text falls into
the same pieces in front of any other text, and every ASCII byte is a piece of its own.

* `isWordChar_iff`: the characters of identifiers, by number;
* `IsName`: a text that is an identifier;
* `Piece.first_spec`: reading a character from the front of a text;
* `Piece.Complete`: the piece is found again in front of any text;
* `Piece.eq_ascii_of_identifier`: identifiers are made of ASCII characters.
-/

namespace Polarity

/-! ## Characters -/

theorem isWordChar_iff {c : Char} : isWordChar c = true ↔
    (0x30 ≤ c.toNat ∧ c.toNat ≤ 0x39) ∨ (0x41 ≤ c.toNat ∧ c.toNat ≤ 0x5A) ∨ c.toNat = 0x5F ∨
      (0x61 ≤ c.toNat ∧ c.toNat ≤ 0x7A) := by
  have underscore : c = '_' ↔ c.toNat = 0x5F :=
    ⟨fun h => h ▸ rfl, fun h => by rw [← Char.ofNat_toNat c, h]⟩
  have ranges : isWordChar c = (decide (c.val ≥ 'A'.val ∧ c.val ≤ 'Z'.val) ||
      (decide (c.val ≥ 'a'.val) && decide (c.val ≤ 'z'.val)) ||
      (decide (c.val ≥ '0'.val) && decide (c.val ≤ '9'.val)) || c == '_') := rfl
  rw [ranges]
  simp only [Bool.or_eq_true, Bool.and_eq_true, decide_eq_true_eq, beq_iff_eq, underscore,
    ge_iff_le, UInt32.le_iff_toNat_le, Char.toNat, Char.reduceVal, UInt32.reduceToNat]
  omega

theorem not_isBlank_of_isWordChar {c : Char} (h : isWordChar c = true) : isBlank c = false := by
  rw [isWordChar_iff] at h
  simp only [isBlank, Bool.or_eq_false_iff, Bool.and_eq_false_iff, decide_eq_false_iff_not,
    beq_eq_false_iff_ne]
  omega

/-- Whether a byte may stand in an identifier. -/
def isWordByte (b : UInt8) : Bool := isWordChar (Char.ofNat b.toNat)

/-- A text that may be an identifier. -/
def IsName (t : Text) : Prop := t ≠ [] ∧ ∀ b ∈ t, isWordByte b = true

instance (t : Text) : Decidable (IsName t) :=
  -- The bytes of the text are looked at, not all 256 of them.
  haveI := List.decidableBAll (fun b => isWordByte b = true) t
  inferInstanceAs (Decidable (t ≠ [] ∧ ∀ b ∈ t, isWordByte b = true))

theorem lt_of_isWordByte {b : UInt8} (h : isWordByte b = true) : b < 0x80 := by
  have valid : b.toNat.isValidChar := .inl (by have := b.toNat_lt; omega)
  rw [isWordByte, isWordChar_iff, toNat_ofNat valid] at h
  simp only [UInt8.lt_iff_toNat_lt, UInt8.reduceToNat]
  omega

namespace Piece

/-- A character is read from its own bytes, whatever follows them. Neither it nor any of its
bytes is ASCII, if its first byte is not. -/
theorem first_spec {b : UInt8} {rest : Text} {c : Char} {more : Nat}
    (h : first b rest = some (c, more)) :
    (∀ others, first b (rest.take more ++ others) = some (c, more)) ∧
      (¬ b < 0x80 → 0x80 ≤ c.toNat) ∧ ∀ d ∈ rest.take more, ¬ d < 0x80 := by
  have encoded := encoded_of_first h
  refine ⟨fun others => ?_, encoded.high⟩
  rw [first_of_encoded encoded, List.length_take_of_le (first_le h)]

/-! ## Pieces -/

/-- The piece of an ASCII byte. -/
def ascii (b : UInt8) : Piece := ⟨some (Char.ofNat b.toNat), [b]⟩

theorem next_ascii {b : UInt8} (h : b < 0x80) (rest : Text) : next b rest = (ascii b, 0) := by
  simp only [next, first, h, ↓reduceIte, List.take_zero, ascii]

theorem split_ascii {b : UInt8} (h : b < 0x80) (rest : Text) :
    split (b :: rest) = ascii b :: split rest := by
  rw [split_cons, next_ascii h, List.drop_zero]

/-- The piece is found again in front of any text. -/
def Complete (p : Piece) : Prop := ∀ rest, split (p.bytes ++ rest) = p :: split rest

theorem next_complete {b : UInt8} {rest : Text} (h : (next b rest).1.char.isSome = true) :
    (next b rest).1.Complete := by
  unfold next at h ⊢
  cases read : first b rest with
  | none => simp [read] at h
  | some found =>
    obtain ⟨c, more⟩ := found
    intro others
    have long : (rest.take more).length = more := List.length_take_of_le (first_le read)
    rw [List.cons_append, split_cons, next, (first_spec read).1]
    simp only [List.take_left' long, List.drop_left' long]

theorem exists_next (t : Text) : ∀ p ∈ split t, ∃ b rest, p = (next b rest).1 := by
  have all (skipped : Nat) : ∀ p ∈ splitAfter skipped t, ∃ b rest, p = (next b rest).1 := by
    induction t generalizing skipped with
    | nil => simp [splitAfter]
    | cons b rest ih =>
      cases skipped with
      | zero => exact List.forall_mem_cons.2 ⟨⟨b, rest, rfl⟩, ih _⟩
      | succ skipped => exact ih skipped
  exact all 0

theorem complete_of_mem {t : Text} {p : Piece} (hp : p ∈ split t) (hc : p.char.isSome = true) :
    p.Complete := by
  obtain ⟨b, rest, rfl⟩ := exists_next t p hp
  exact next_complete hc

theorem next_high {b : UInt8} (high : ¬ b < 0x80) (rest : Text) :
    ∀ d ∈ (next b rest).1.bytes, ¬ d < 0x80 := by
  unfold next
  cases read : first b rest with
  | none => exact List.forall_mem_cons.2 ⟨high, List.forall_mem_nil _⟩
  | some found => exact List.forall_mem_cons.2 ⟨high, (first_spec read).2.2⟩

/-- Each ASCII byte is a piece of its own. -/
theorem eq_ascii_of_mem {t : Text} {p : Piece} (hp : p ∈ split t) {b : UInt8} (hb : b ∈ p.bytes)
    (low : b < 0x80) : p = ascii b := by
  obtain ⟨c, rest, rfl⟩ := exists_next t p hp
  by_cases first : c < 0x80
  · rw [next_ascii first] at hb ⊢
    rw [List.mem_singleton.1 hb]
  · exact absurd low (next_high first rest b hb)

theorem split_join {pieces : List Piece} (h : ∀ p ∈ pieces, p.Complete) (rest : Text) :
    split (join pieces ++ rest) = pieces ++ split rest := by
  induction pieces with
  | nil => rfl
  | cons p pieces ih =>
    rw [join, List.flatMap_cons, List.append_assoc, h p (.head _), ← join,
      ih fun q hq => h q (.tail _ hq), List.cons_append]

theorem char_of_kind {p : Piece} (h : p.kind ≠ .punctuation) : p.char.isSome = true := by
  unfold kind at h
  split at h
  · rename_i c known
    rw [known]
    rfl
  · exact absurd rfl h

theorem kind_ascii {b : UInt8} (h : isWordByte b = true) : (ascii b).kind = .identifier := by
  simp only [kind, ascii, not_isBlank_of_isWordChar h, Bool.false_eq_true, ↓reduceIte]
  exact if_pos h

theorem next_of_identifier {b : UInt8} {rest : Text} (h : (next b rest).1.kind = .identifier) :
    (next b rest).1 = ascii b ∧ isWordByte b = true := by
  by_cases low : b < 0x80
  · rw [next_ascii low] at h ⊢
    refine ⟨rfl, ?_⟩
    simp only [kind, ascii] at h
    split at h
    · cases h
    · split at h
      · assumption
      · cases h
  · exfalso
    unfold next at h
    cases read : first b rest with
    | none => simp [read, kind] at h
    | some found =>
      obtain ⟨c, more⟩ := found
      have high := (first_spec read).2.1 low
      rw [read] at h
      simp only [kind] at h
      split at h
      · cases h
      · split at h
        · rename_i word
          rw [isWordChar_iff] at word
          omega
        · cases h

theorem eq_ascii_of_identifier {t : Text} {p : Piece} (hp : p ∈ split t)
    (hk : p.kind = .identifier) : ∃ b, p = ascii b ∧ isWordByte b = true := by
  obtain ⟨b, rest, rfl⟩ := exists_next t p hp
  exact ⟨b, next_of_identifier hk⟩

end Piece

end Polarity

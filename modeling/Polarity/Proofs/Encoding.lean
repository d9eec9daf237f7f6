import Polarity.Text.Utf8

/-!
# How characters are written

A character is read from the front of a text exactly where it is written there: the
ranges in which bytes are accepted leave out no character, and let in none that is
written differently.

* `Encoded`: the bytes of a character, by their numbers;
* `encoded_iff`: they are those of its UTF-8 encoding;
* `Piece.first_of_encoded`: a written character is read, whatever follows it;
* `Piece.encoded_of_first`: what is read is a character as it is written;
* `Piece.first_eq_none_iff`: no character is read where none is written.
-/

namespace Polarity

theorem toNat_ofNat {n : Nat} (h : n.isValidChar) : (Char.ofNat n).toNat = n := by
  have valid : Char.ofNat n = Char.ofNatAux n h := dif_pos h
  rw [valid]
  rfl

theorem toNat_range (c : Char) : c.toNat < 0xD800 ∨ 0xDFFF < c.toNat ∧ c.toNat < 0x110000 :=
  c.valid

/-- How a character is written: the bits of its number, the highest first, six in each byte
after the first one. -/
inductive Encoded (c : Char) : Text → Prop where
  | one {b : UInt8} (high : c.toNat ≤ 0x7F) (lead : b.toNat = c.toNat) : Encoded c [b]
  | two {b d : UInt8} (low : 0x80 ≤ c.toNat) (high : c.toNat ≤ 0x7FF)
      (lead : b.toNat = c.toNat / 64 + 0xC0) (second : d.toNat = c.toNat % 64 + 0x80) :
      Encoded c [b, d]
  | three {b d e : UInt8} (low : 0x800 ≤ c.toNat) (high : c.toNat ≤ 0xFFFF)
      (lead : b.toNat = c.toNat / 4096 + 0xE0) (second : d.toNat = c.toNat / 64 % 64 + 0x80)
      (third : e.toNat = c.toNat % 64 + 0x80) : Encoded c [b, d, e]
  | four {b d e f : UInt8} (low : 0x10000 ≤ c.toNat)
      (lead : b.toNat = c.toNat / 262144 + 0xF0) (second : d.toNat = c.toNat / 4096 % 64 + 0x80)
      (third : e.toNat = c.toNat / 64 % 64 + 0x80) (fourth : f.toNat = c.toNat % 64 + 0x80) :
      Encoded c [b, d, e, f]

theorem encoded_ofChar (c : Char) : Encoded c (Text.ofChar c) := by
  have range := toNat_range c
  have byte {m n : Nat} (small : n < 0x100) (same : m = n) : (UInt8.ofNat m).toNat = n := by
    rw [same]
    exact UInt8.toNat_ofNat_of_lt small
  have number : c.val.toNat = c.toNat := rfl
  unfold Text.ofChar String.utf8EncodeChar
  rw [number]
  dsimp only
  split
  · rename_i one
    exact .one one (byte (by omega) rfl)
  split
  · rename_i two
    exact .two (by omega) two (byte (by omega) (by omega)) (byte (by omega) rfl)
  split
  · rename_i three
    exact .three (by omega) three (byte (by omega) (by omega)) (byte (by omega) rfl)
      (byte (by omega) rfl)
  · exact .four (by omega) (byte (by omega) (by omega)) (byte (by omega) rfl)
      (byte (by omega) rfl) (byte (by omega) rfl)

/-- A character is written in one way. -/
theorem Encoded.unique {c : Char} {t t' : Text} (h : Encoded c t) (h' : Encoded c t') : t = t' := by
  -- The number of a character tells how many bytes it takes and what each of them is.
  cases h <;> cases h' <;> simp only [List.cons.injEq, ← UInt8.toNat_inj, and_true] <;> omega

theorem encoded_iff {c : Char} {t : Text} : Encoded c t ↔ t = Text.ofChar c :=
  ⟨fun h => h.unique (encoded_ofChar c), fun h => h ▸ encoded_ofChar c⟩

/-- Only the characters of one byte hold an ASCII byte. -/
theorem Encoded.high {c : Char} {b : UInt8} {bs : Text} (h : Encoded c (b :: bs)) :
    (¬ b < 0x80 → 0x80 ≤ c.toNat) ∧ ∀ d ∈ bs, ¬ d < 0x80 := by
  simp only [UInt8.lt_iff_toNat_lt, UInt8.reduceToNat]
  generalize all : b :: bs = t at h
  cases h <;> cases all <;> simp <;> omega

namespace Piece

variable {b d : UInt8} {c : Char} {more : Nat} {rest : Text}

/-! ## Ranges of bytes -/

theorem lowestSecond_toNat (b : UInt8) : (lowestSecond b).toNat =
    if b.toNat = 0xE0 then 0xA0 else if b.toNat = 0xF0 then 0x90 else 0x80 := by
  simp only [lowestSecond, ← UInt8.toNat_inj]
  repeat' split
  all_goals simp_all

theorem highestSecond_toNat (b : UInt8) : (highestSecond b).toNat =
    if b.toNat = 0xED then 0x9F else if b.toNat = 0xF4 then 0x8F else 0xBF := by
  simp only [highestSecond, ← UInt8.toNat_inj]
  repeat' split
  all_goals simp_all

/-- The second bytes after `b`. Lower ones would write a character that has a shorter form,
higher ones no character at all. -/
theorem isSecond_iff : isSecond b d = true ↔ 0x80 ≤ d.toNat ∧ d.toNat ≤ 0xBF ∧
    (b.toNat = 0xE0 → 0xA0 ≤ d.toNat) ∧ (b.toNat = 0xF0 → 0x90 ≤ d.toNat) ∧
    (b.toNat = 0xED → d.toNat ≤ 0x9F) ∧ (b.toNat = 0xF4 → d.toNat ≤ 0x8F) := by
  have bounds : isSecond b d = true ↔
      (lowestSecond b).toNat ≤ d.toNat ∧ d.toNat ≤ (highestSecond b).toNat := by
    simp [isSecond, UInt8.le_iff_toNat_le]
  rw [bounds, lowestSecond_toNat, highestSecond_toNat]
  grind

theorem isLater_iff : isLater d = true ↔ 0x80 ≤ d.toNat ∧ d.toNat ≤ 0xBF := by
  simp [isLater, UInt8.le_iff_toNat_le]

theorem between_iff {low high : UInt8} : (low ≤ b && b ≤ high) = true ↔
    low.toNat ≤ b.toNat ∧ b.toNat ≤ high.toNat := by
  simp [UInt8.le_iff_toNat_le]

/-! ## Reading what is written -/

/-- A character is read where it is written, whatever follows it. -/
theorem first_of_encoded {bs : Text} (h : Encoded c (b :: bs)) (rest : Text) :
    first b (bs ++ rest) = some (c, bs.length) := by
  have range := toNat_range c
  unfold first
  simp only [between_iff, UInt8.lt_iff_toNat_lt, UInt8.reduceToNat]
  generalize all : b :: bs = t at h
  cases h with
  | one high lead =>
    cases all
    rw [if_pos (by omega), lead, Char.ofNat_toNat]
    rfl
  | @two _ d low high lead second =>
    cases all
    have well : isSecond b d = true := isSecond_iff.2 (by omega)
    have number : (b.toNat - 0xC0) * 64 + bits d = c.toNat := by
      unfold bits
      omega
    rw [if_neg (by omega), if_pos (by omega)]
    simp [well, number]
  | @three _ d e low high lead second third =>
    cases all
    have well : (isSecond b d && isLater e) = true := by
      rw [Bool.and_eq_true, isSecond_iff, isLater_iff]
      omega
    have number : ((b.toNat - 0xE0) * 64 + bits d) * 64 + bits e = c.toNat := by
      unfold bits
      omega
    rw [if_neg (by omega), if_neg (by omega), if_pos (by omega)]
    simp [well, number]
  | @four _ d e f low lead second third fourth =>
    cases all
    have well : (isSecond b d && isLater e && isLater f) = true := by
      rw [Bool.and_eq_true, Bool.and_eq_true, isSecond_iff, isLater_iff, isLater_iff]
      omega
    have number : (((b.toNat - 0xF0) * 64 + bits d) * 64 + bits e) * 64 + bits f = c.toNat := by
      unfold bits
      omega
    rw [if_neg (by omega), if_neg (by omega), if_neg (by omega), if_pos (by omega)]
    simp [well, number]

/-- What is read is a character as it is written. -/
theorem encoded_of_first (h : first b rest = some (c, more)) : Encoded c (b :: rest.take more) := by
  unfold first at h
  simp only [between_iff, UInt8.lt_iff_toNat_lt, UInt8.reduceToNat] at h
  split at h
  · obtain ⟨rfl, rfl⟩ := Prod.mk.inj (Option.some.inj h)
    have number := @toNat_ofNat b.toNat (.inl (by omega))
    exact .one (by omega) number.symm
  split at h
  · split at h
    · rename_i d _
      split at h
      · rename_i well
        obtain ⟨rfl, rfl⟩ := Prod.mk.inj (Option.some.inj h)
        rw [isSecond_iff] at well
        unfold bits
        have number := @toNat_ofNat ((b.toNat - 0xC0) * 64 + (d.toNat - 0x80))
          (by unfold Nat.isValidChar; omega)
        exact .two (by omega) (by omega) (by omega) (by omega)
      · cases h
    · cases h
  split at h
  · split at h
    · rename_i d e _
      split at h
      · rename_i well
        obtain ⟨rfl, rfl⟩ := Prod.mk.inj (Option.some.inj h)
        rw [Bool.and_eq_true, isSecond_iff, isLater_iff] at well
        unfold bits
        have number := @toNat_ofNat
          (((b.toNat - 0xE0) * 64 + (d.toNat - 0x80)) * 64 + (e.toNat - 0x80))
          (by unfold Nat.isValidChar; omega)
        exact .three (by omega) (by omega) (by omega) (by omega) (by omega)
      · cases h
    · cases h
  split at h
  · split at h
    · rename_i d e f _
      split at h
      · rename_i well
        obtain ⟨rfl, rfl⟩ := Prod.mk.inj (Option.some.inj h)
        rw [Bool.and_eq_true, Bool.and_eq_true, isSecond_iff, isLater_iff, isLater_iff] at well
        unfold bits
        have number := @toNat_ofNat ((((b.toNat - 0xF0) * 64 + (d.toNat - 0x80)) * 64 +
          (e.toNat - 0x80)) * 64 + (f.toNat - 0x80)) (by unfold Nat.isValidChar; omega)
        exact .four (by omega) (by omega) (by omega) (by omega) (by omega)
      · cases h
    · cases h
  · cases h

/-- No character is read where none is written. -/
theorem first_eq_none_iff : first b rest = none ↔ ∀ c, ¬ Text.ofChar c <+: b :: rest := by
  constructor
  · rintro none c ⟨others, text⟩
    have encoded := encoded_ofChar c
    cases bytes : Text.ofChar c with
    | nil =>
      rw [bytes] at encoded
      cases encoded
    | cons b' bs =>
      rw [bytes] at text encoded
      rw [List.cons_append] at text
      obtain ⟨rfl, rfl⟩ := List.cons.inj text
      rw [first_of_encoded encoded] at none
      cases none
  · intro nowhere
    cases read : first b rest with
    | none => rfl
    | some found =>
      obtain ⟨c, more⟩ := found
      refine absurd ?_ (nowhere c)
      rw [← encoded_iff.1 (encoded_of_first read)]
      exact List.cons_prefix_cons.2 ⟨rfl, List.take_prefix more rest⟩

end Piece

end Polarity

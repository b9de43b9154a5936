import DeletionGuard.Text.Letter
import DeletionGuard.Yaml.Token.Stream

/-!
# Printable characters and letters

What a stream may hold and what words in it are made of. No letter is a mark of its own or belongs
to the white space, wherever in Unicode it stands.
-/

namespace DeletionGuard.Yaml

/-- A printable character of ASCII. -/
def IsPrintable (c : Char) : Prop :=
  0x20 ≤ c.toNat ∧ c.toNat ≤ 0x7E

instance (c : Char) : Decidable (IsPrintable c) :=
  inferInstanceAs (Decidable (_ ∧ _))

theorem IsPrintable.isAllowed {c : Char} (h : IsPrintable c) : isAllowed c = true := by
  simp [Yaml.isAllowed, h.1, h.2]

theorem IsPrintable.not_isBreak {c : Char} (h : IsPrintable c) : isBreak c = false := by
  have hne {d : Char} (hd : ¬ IsPrintable d) : (c == d) = false :=
    beq_eq_false_iff_ne.2 fun heq => hd (heq ▸ h)
  simp only [isBreak, hne (by decide : ¬ IsPrintable '\r'), hne (by decide : ¬ IsPrintable '\n'),
    hne (by decide : ¬ IsPrintable (Char.ofNat 0x85)),
    hne (by decide : ¬ IsPrintable (Char.ofNat 0x2028)),
    hne (by decide : ¬ IsPrintable (Char.ofNat 0x2029)), Bool.or_false]

theorem isPrintable_of_between {c first last : Char} (hfirst : first.val ≤ c.val)
    (hlast : c.val ≤ last.val) (h : IsPrintable first ∧ IsPrintable last) : IsPrintable c :=
  ⟨Nat.le_trans h.1.1 (UInt32.le_iff_toNat_le.1 hfirst),
    Nat.le_trans (UInt32.le_iff_toNat_le.1 hlast) h.2.2⟩

theorem isPrintable_of_isUpper {c : Char} (h : c.isUpper = true) : IsPrintable c := by
  have hbetween : 'A'.val ≤ c.val ∧ c.val ≤ 'Z'.val := of_decide_eq_true h
  exact isPrintable_of_between hbetween.1 hbetween.2 (by decide)

theorem isPrintable_of_isLower {c : Char} (h : c.isLower = true) : IsPrintable c := by
  have hbetween := Bool.and_eq_true_iff.1 h
  exact isPrintable_of_between (of_decide_eq_true hbetween.1) (of_decide_eq_true hbetween.2)
    (by decide)

theorem isPrintable_of_isDigit {c : Char} (h : c.isDigit = true) : IsPrintable c := by
  have hbetween := Bool.and_eq_true_iff.1 h
  exact isPrintable_of_between (of_decide_eq_true hbetween.1) (of_decide_eq_true hbetween.2)
    (by decide)

/-- A character of a word: a letter or a low line. -/
def IsWordChar (c : Char) : Prop :=
  Text.isLetter c = true ∨ c = '_'

instance (c : Char) : Decidable (IsWordChar c) :=
  inferInstanceAs (Decidable (_ ∨ _))

theorem le_of_liesIn {ranges : List (Nat × Nat)} {n : Nat} (hranges : ∀ r ∈ ranges, n ≤ r.1)
    {c : Char} (h : Text.liesIn ranges c = true) : n ≤ c.toNat := by
  obtain ⟨r, hr, hc⟩ := List.any_eq_true.1 h
  exact Nat.le_trans (hranges r hr) (of_decide_eq_true (Bool.and_eq_true_iff.1 hc).1)

/-- The letters outside of ASCII come behind all of it. -/
theorem isPrintable_or_le_of_isLetter {c : Char} (h : Text.isLetter c = true) :
    IsPrintable c ∨ 0xAA ≤ c.toNat := by
  simp only [Text.isLetter, Bool.or_eq_true] at h
  rcases h with ((halpha | hlow) | hmiddle) | hhigh
  · rcases Bool.or_eq_true_iff.1 halpha with hupper | hlower
    · exact .inl (isPrintable_of_isUpper hupper)
    · exact .inl (isPrintable_of_isLower hlower)
  · exact .inr (le_of_liesIn (by decide +kernel) hlow)
  · exact .inr (le_of_liesIn (by decide +kernel) hmiddle)
  · exact .inr (le_of_liesIn (by decide +kernel) hhigh)

namespace IsWordChar

variable {c : Char} (h : IsWordChar c)
include h

theorem isPrintable_or_le : IsPrintable c ∨ 0xAA ≤ c.toNat := by
  rcases h with hletter | rfl
  · exact isPrintable_or_le_of_isLetter hletter
  · exact .inl (by decide)

theorem ne {d : Char} (hd : ¬ IsWordChar d) : c ≠ d :=
  fun heq => hd (heq ▸ h)

theorem not_isBreak : isBreak c = false := by
  simp only [isBreak, beq_eq_false_iff_ne.2 (h.ne (d := '\r') (by decide +kernel)),
    beq_eq_false_iff_ne.2 (h.ne (d := '\n') (by decide +kernel)),
    beq_eq_false_iff_ne.2 (h.ne (d := Char.ofNat 0x85) (by decide +kernel)),
    beq_eq_false_iff_ne.2 (h.ne (d := Char.ofNat 0x2028) (by decide +kernel)),
    beq_eq_false_iff_ne.2 (h.ne (d := Char.ofNat 0x2029) (by decide +kernel)), Bool.or_false]

theorem not_isBlank : isBlank c = false := by
  simp only [isBlank, beq_eq_false_iff_ne.2 (h.ne (d := ' ') (by decide +kernel)),
    beq_eq_false_iff_ne.2 (h.ne (d := '\t') (by decide +kernel)), Bool.or_false]

theorem not_isSpace : isSpace c = false := by
  rw [isSpace, h.not_isBlank, h.not_isBreak]
  rfl

theorem isAllowed : isAllowed c = true := by
  rcases h.isPrintable_or_le with hprintable | hle
  · exact hprintable.isAllowed
  · have hne (n : Nat) (hn : ¬ IsWordChar (Char.ofNat n)) : c.toNat ≠ n :=
      fun heq => h.ne hn (by rw [← heq, Char.ofNat_toNat])
    have hfirst := hne 0xFFFE (by decide +kernel)
    have hsecond := hne 0xFFFF (by decide +kernel)
    have hvalid : c.toNat < 0xD800 ∨ 0xDFFF < c.toNat ∧ c.toNat < 0x110000 := c.valid
    simp only [Yaml.isAllowed, Bool.or_eq_true, Bool.and_eq_true, decide_eq_true_eq]
    omega

theorem lead (spaceAfter : Bool) : Lead.ofChar false spaceAfter c = .plain := by
  unfold Lead.ofChar
  split
  case h_20 => rw [h.not_isSpace]; rfl
  all_goals exact absurd h (by decide +kernel)

end IsWordChar

end DeletionGuard.Yaml
